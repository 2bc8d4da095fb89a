import Mathlib.Data.Rat.Floor
import Mathlib.Algebra.Order.Ring.Rat
import Mathlib.Tactic.Linarith
import Mathlib.Tactic.Positivity
import XChainEncoder.Library

/-!
# Fee policy

Rates are exact rationals in coin per byte, fees are base units.

* `Encoder`: the configuration of one encoder;
* `feeForVsize`, `packageFeeUpliftSatoshis`, `capCallerFeeRate`, `softDustSurchargeFor`;
* `capCallerFeeRate_le`, `capCallerFeeRate_eq_min`: **the rate is the least of the request, the cap
  and the backstop**;
* `feeForVsize_whole`: the fee at a whole per-kB rate.
-/

namespace XChain

open PushScript

/-! ## The encoder's configuration -/

/-- One encoder: its network, its operator settings and the libraries under it. -/
structure Encoder where
  lib : Library
  network : Network
  /-- The operator's `DUST_AMOUNT`; zero when unset. -/
  operatorDust : ℕ
  maxFeePerBytes : Option ℚ
  maxFeeRateMultiplier : Option ℚ
  maxUtxoTrackerLagBlocks : ℚ
  suggestedFeeMaxPerVbyte : Option ℚ
  /-- `MAX_CPFP_UPLIFT_SAT`; zero turns package sizing off. -/
  maxCpfpUpliftSat : ℕ
  defaultCompressionEnabled : Bool
  maxFeePerBytes_pos : ∀ r ∈ maxFeePerBytes, 0 < r
  maxFeeRateMultiplier_pos : ∀ r ∈ maxFeeRateMultiplier, 0 < r

namespace Encoder

variable (enc : Encoder)

/-- The pinned threshold: fee floor, fee-drain caps, burn guard. -/
def dustAmount : ℤ := enc.network.dustThreshold

/-- The floor of every output the encoder authors. -/
def outputFloor : ℤ := max (max enc.dustAmount (softDustFloorFor enc.network)) enc.operatorDust

/-- The floor of a caller's payment output. -/
def paymentOutputFloor : ℤ := enc.dustAmount

theorem dustAmount_pos : 0 < enc.dustAmount := by
  unfold dustAmount Network.dustThreshold
  cases enc.network.coin <;> decide

theorem dustAmount_le_outputFloor : enc.dustAmount ≤ enc.outputFloor :=
  (le_max_left _ _).trans (le_max_left _ _)

end Encoder

/-- An encoder with the default settings over the sample library. -/
def sampleEncoder (network : Network) : Encoder where
  lib := sampleLibrary
  network
  operatorDust := 0
  maxFeePerBytes := none
  maxFeeRateMultiplier := none
  maxUtxoTrackerLagBlocks := 3
  suggestedFeeMaxPerVbyte := none
  maxCpfpUpliftSat := 100000
  defaultCompressionEnabled := false
  maxFeePerBytes_pos := by rintro _ ⟨⟩
  maxFeeRateMultiplier_pos := by rintro _ ⟨⟩

/-! ## Fees and rates -/

/-- `Math.round`. -/
def round (x : ℚ) : ℤ := ⌊x + 1 / 2⌋

/-- The fee of `vsize` bytes at `feePerBytes`, rounded up. A whole per-kB rate divides exactly. -/
def feeForVsize (vsize : ℕ) (feePerBytes : ℚ) : ℤ :=
  let exact := vsize * feePerBytes * satoshiUnit
  if ¬ 0 < exact then ⌈exact⌉
  else
    let ratePerKb := feePerBytes * 1000 * satoshiUnit
    let wholeRate := round ratePerKb
    if (vsize : ℤ) ≤ maxSafeInteger ∧ |wholeRate| ≤ maxSafeInteger ∧
        |ratePerKb - wholeRate| ≤ 1 / 10 ^ 9 * max 1 (wholeRate : ℚ) then
      (vsize * wholeRate + 999) / 1000
    else ⌈exact - |exact| / 10 ^ 12⌉

/-- The relay surcharge of the outputs under the soft dust limit: the limit once for each. -/
def softDustSurchargeFor (outputValues : List ℤ) (softDustFloor : ℤ) : ℤ :=
  if 0 < softDustFloor then
    outputValues.foldl (fun surcharge v =>
      if 0 < v ∧ v < softDustFloor then surcharge + softDustFloor else surcharge) 0
  else 0

/-- The extra fee that brings a transaction and its unconfirmed ancestors to the target rate. -/
def packageFeeUpliftSatoshis (currentFee : ℤ) (txSize : ℕ) (ancestorSize : ℚ)
    (ancestorFeeSat : ℤ) (targetFeePerBytes : ℚ) : ℤ :=
  if ¬ 0 < targetFeePerBytes then 0
  else if txSize = 0 then 0
  else if ancestorSize ≤ 0 then 0
  else if ancestorFeeSat < 0 then 0
  else
    let packageFeeExact := (ancestorSize + txSize) * targetFeePerBytes * satoshiUnit
    let packageFeeNeeded := ⌈packageFeeExact - |packageFeeExact| / 10 ^ 12⌉
    max (packageFeeNeeded - ancestorFeeSat - currentFee) 0

/-- The limit a rate was bounded by. -/
inductive FeeLimit where
  | cap | backstop
  deriving DecidableEq, Repr

structure CappedFeeRate where
  capFeePerBytes : Option ℚ
  backstopFeePerBytes : Option ℚ
  limit : Option FeeLimit
  clamped : Bool
  feePerBytes : ℚ

/-- The tighter of two optional bounds. -/
def minOption : Option ℚ → ℚ → ℚ
  | some a, b => min a b
  | none, b => b

/-- Bound a rate by the tighter of the operator's cap and the fixed backstop. -/
def capCallerFeeRate (enc : Encoder) (feePerBytes : ℚ) (nodeFeePerBytes : Option ℚ)
    (relayFeePerKb : ℚ) : CappedFeeRate :=
  let anchorFeePerBytes := nodeFeePerBytes <|>
    (if 0 < relayFeePerKb then some (relayFeePerKb / 1000) else none)
  let capFeePerBytes := match enc.maxFeeRateMultiplier, anchorFeePerBytes with
    | some multiplier, some anchor => some (minOption enc.maxFeePerBytes (anchor * multiplier))
    | _, _ => enc.maxFeePerBytes
  let backstopFeePerBytes := anchorFeePerBytes.map (· * burnBackstopMultiplier)
  let limit := match capFeePerBytes, backstopFeePerBytes with
    | some cap, some backstop => if cap ≤ backstop then some .cap else some .backstop
    | some _, none => some .cap
    | none, some _ => some .backstop
    | none, none => none
  let ceiling := match limit with
    | some .cap => capFeePerBytes
    | some .backstop => backstopFeePerBytes
    | none => none
  match ceiling with
  | some c => ⟨capFeePerBytes, backstopFeePerBytes, limit, decide (c < feePerBytes),
      if c < feePerBytes then c else feePerBytes⟩
  | none => ⟨capFeePerBytes, backstopFeePerBytes, limit, false, feePerBytes⟩

/-- The bounded rate is the rate asked for or the ceiling under it; it is at most the cap and at
most the backstop. -/
theorem capCallerFeeRate_le (enc : Encoder) (fee node relay : ℚ) :
    (∀ cap ∈ (capCallerFeeRate enc fee (some node) relay).capFeePerBytes,
        (capCallerFeeRate enc fee (some node) relay).feePerBytes ≤ cap) ∧
      (capCallerFeeRate enc fee (some node) relay).feePerBytes ≤ node * burnBackstopMultiplier ∧
      ((capCallerFeeRate enc fee (some node) relay).clamped = false →
        (capCallerFeeRate enc fee (some node) relay).feePerBytes = fee) := by
  have hle : ∀ c : ℚ, (if c < fee then c else fee) ≤ c := fun c => by
    split_ifs with hc
    · exact le_rfl
    · exact not_lt.mp hc
  have hsame : ∀ c : ℚ, decide (c < fee) = false → (if c < fee then c else fee) = fee :=
    fun c hc => if_neg (of_decide_eq_false hc)
  unfold capCallerFeeRate
  have hanchor : (some node <|> if 0 < relay then some (relay / 1000) else none) = some node := rfl
  simp only [hanchor, Option.map_some]
  generalize (match enc.maxFeeRateMultiplier, some node with
    | some multiplier, some anchor => some (minOption enc.maxFeePerBytes (anchor * multiplier))
    | _, _ => enc.maxFeePerBytes) = cap
  cases cap with
  | none =>
    refine ⟨fun c hc => ?_, hle _, hsame _⟩
    cases hc
  | some cap =>
    by_cases hcap : cap ≤ node * burnBackstopMultiplier
    · simp only [hcap, if_true]
      refine ⟨fun c hc => ?_, (hle _).trans hcap, hsame _⟩
      cases hc
      exact hle _
    · simp only [hcap, if_false]
      refine ⟨fun c hc => ?_, hle _, hsame _⟩
      cases hc
      exact (hle _).trans (not_le.mp hcap).le

/-- **The bounded rate is the least of the rate, the cap and the backstop.** -/
theorem capCallerFeeRate_eq_min (enc : Encoder) (fee node relay : ℚ) :
    (capCallerFeeRate enc fee (some node) relay).feePerBytes =
      min fee (minOption (capCallerFeeRate enc fee (some node) relay).capFeePerBytes
        (node * burnBackstopMultiplier)) := by
  have hmin : ∀ c : ℚ, (if c < fee then c else fee) = min fee c := fun c => by
    split_ifs with hc
    · exact (min_eq_right hc.le).symm
    · exact (min_eq_left (not_lt.mp hc)).symm
  unfold capCallerFeeRate
  have hanchor : (some node <|> if 0 < relay then some (relay / 1000) else none) = some node := rfl
  simp only [hanchor, Option.map_some]
  generalize (match enc.maxFeeRateMultiplier, some node with
    | some multiplier, some anchor => some (minOption enc.maxFeePerBytes (anchor * multiplier))
    | _, _ => enc.maxFeePerBytes) = cap
  cases cap with
  | none => exact hmin _
  | some cap =>
    by_cases hle : cap ≤ node * burnBackstopMultiplier
    · simp only [hle, if_true, hmin, minOption, min_eq_left]
    · simp only [hle, if_false, hmin, minOption, min_eq_right (not_le.mp hle).le]

/-- The suggested-rate ceiling per byte; `none` leaves the chain unclamped. -/
def suggestedFeeCeilingPerByte (enc : Encoder) : Option ℚ :=
  let perVbyte := enc.suggestedFeeMaxPerVbyte.getD
    (if enc.network.isTestNetworkKey then defaultSuggestedFeeMaxPerVbyte else 0)
  if 0 < perVbyte then some (perVbyte / satoshiUnit) else none

def suggestedFeeCeilingFloorPerByte (relayFeePerKb : ℚ) : Option ℚ :=
  if 0 < relayFeePerKb then some (relayFeePerKb / 1000 * suggestedFeeCeilingRelayMultiplier)
  else none

/-! ## How the fee grows with the size -/

/-- The per-kB rate the fee divides by, when it is taken as whole. -/
def wholeRate (feePerBytes : ℚ) : ℤ := round (feePerBytes * 1000 * satoshiUnit)

/-- The rate is whole per kB, up to the tolerance of the code. -/
def IsWholeRate (feePerBytes : ℚ) : Prop :=
  |wholeRate feePerBytes| ≤ maxSafeInteger ∧
    |feePerBytes * 1000 * satoshiUnit - wholeRate feePerBytes| ≤
      1 / 10 ^ 9 * max 1 (wholeRate feePerBytes : ℚ)

theorem feeForVsize_whole {n : ℕ} {r : ℚ} (hr : 0 < r) (hw : IsWholeRate r) (hn : 0 < n)
    (hmax : (n : ℤ) ≤ maxSafeInteger) : feeForVsize n r = (n * wholeRate r + 999) / 1000 := by
  have hexact : 0 < (n : ℚ) * r * satoshiUnit := by
    have : (0 : ℚ) < n := by exact_mod_cast hn
    have hs : (0 : ℚ) < satoshiUnit := by decide
    positivity
  unfold feeForVsize
  rw [if_neg (not_not.mpr hexact), if_pos ⟨hmax, hw⟩]
  rfl

@[simp] theorem feeForVsize_zero (r : ℚ) : feeForVsize 0 r = 0 := by
  unfold feeForVsize
  rw [if_pos] <;> simp

end XChain
