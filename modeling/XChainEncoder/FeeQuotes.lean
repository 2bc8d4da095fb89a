import XChainEncoder.FeeRates
import XChainEncoder.Lib.SoloRuns

/-!
# Fee quotes

What `estimate_fee` quotes, beside the rate a build without a caller's rate is charged.

* `estimateFee`: the tiers of the node's estimates, each under the ceiling and none under a slower one;
* `quoteTier_eq`: a tier on its own is the estimate under the ceiling, rounded;
* `suggestedRate_idle`: the charged rate, where the relay fee raises neither ceiling nor rate;
* **`quoteHigh_charged`**: the fastest quote is the charged rate, or a slower quote above it.
-/

namespace XChain

open Coroutine

variable (enc : Encoder)

/-! ## The quote -/

/-- What a method of the API answers instead of a result. -/
structure RpcError where
  code : ℤ
  message : String
  reason : Option String
  deriving DecidableEq, Repr

def toRpcError (err : BuildError) : RpcError :=
  match err.cls with
  | .operational xchainCode => ⟨-32010, err.message, some xchainCode⟩
  | .paramType => ⟨-32602, err.message, none⟩
  | .paramRange => ⟨-32602, err.message, none⟩
  | .plain => ⟨-32603, "Internal encoder error", none⟩

/-- A typed node failure keeps its code; any other failure is one text. -/
def feeEstimationError (err : BuildError) : RpcError :=
  match err.cls with
  | .operational _ => toRpcError err
  | _ => ⟨-32603, "Fee estimation failed", none⟩

/-- Base units per byte for the confirmation targets of six, three and one block. -/
structure FeeTiers where
  low : ℤ
  medium : ℤ
  high : ℤ
  deriving DecidableEq, Repr

/-- A rate in base units per byte as it is quoted: rounded, and at least one. -/
def wholeUnits (perVbyte : ℚ) : ℤ := max 1 (round perVbyte)

/-- The ceiling of every tier. -/
def capPerVbyte : Option ℤ :=
  (suggestedFeeCeilingPerByte enc).map fun capPerByte => wholeUnits (capPerByte * 100000000)

/-- One tier before it is compared with the slower ones. -/
def quoteTier (feerate : ℚ) : ℤ :=
  let perVbyte := wholeUnits (feerate * 100000)
  match capPerVbyte enc with
  | some cap => if cap < perVbyte then cap else perVbyte
  | none => perVbyte

/-- `estimate_fee`, from the tier check and the node's estimate for each target. -/
def estimateFee (tierCheck : Except BuildError Unit) (getFeePerKilobyte : ℕ → Except BuildError ℚ) :
    Except RpcError FeeTiers := do
  tierCheck.mapError toRpcError
  let slow ← (getFeePerKilobyte 6).mapError feeEstimationError
  let low := quoteTier enc slow
  let middle ← (getFeePerKilobyte 3).mapError feeEstimationError
  let medium := max (quoteTier enc middle) low
  let fast ← (getFeePerKilobyte 1).mapError feeEstimationError
  return ⟨low, medium, max (quoteTier enc fast) (max low medium)⟩

/-! ## One tier -/

variable {enc}

theorem wholeUnits_mono {a b : ℚ} (h : a ≤ b) : wholeUnits a ≤ wholeUnits b :=
  max_le_max le_rfl (Int.floor_le_floor (by linarith))

theorem le_wholeUnits (a : ℚ) : a - 1 / 2 ≤ wholeUnits a := by
  have hfloor := Int.lt_floor_add_one (a + 1 / 2)
  have hle : round a ≤ wholeUnits a := le_max_right _ _
  have hcast : (round a : ℚ) ≤ wholeUnits a := by exact_mod_cast hle
  rw [round] at hcast
  linarith

theorem wholeUnits_min (a b : ℚ) :
    wholeUnits (min a b) = min (wholeUnits a) (wholeUnits b) := by
  rcases le_total a b with h | h
  · rw [min_eq_left h, min_eq_left (wholeUnits_mono h)]
  · rw [min_eq_right h, min_eq_right (wholeUnits_mono h)]

/-- A node's rate per byte under the configured ceiling. -/
def underCeiling (enc : Encoder) (nodeFeePerBytes : ℚ) : ℚ :=
  match suggestedFeeCeilingPerByte enc with
  | some cap => min nodeFeePerBytes cap
  | none => nodeFeePerBytes

/-- **A tier is the node's estimate under the ceiling, rounded.** -/
theorem quoteTier_eq (feerate : ℚ) :
    quoteTier enc feerate = wholeUnits (underCeiling enc (feerate / 1000) * satoshiUnit) := by
  have hunit : feerate / 1000 * satoshiUnit = feerate * 100000 := by
    rw [satoshiUnit]
    ring
  unfold quoteTier underCeiling capPerVbyte
  cases suggestedFeeCeilingPerByte enc with
  | none =>
    dsimp only [Option.map_none]
    rw [hunit]
  | some cap =>
    dsimp only [Option.map_some]
    have hpos : (0 : ℚ) ≤ satoshiUnit := by decide
    rw [min_mul_of_nonneg _ _ hpos, wholeUnits_min, hunit, satoshiUnit, min_def]
    split_ifs <;> omega

/-! ## The charged rate -/

/-- The relay fee raises neither the ceiling nor the rate of a build at the node's estimate. -/
structure RelayIdle (enc : Encoder) (relayFeePerKb nodeFeePerBytes : ℚ) : Prop where
  rate : relayFeePerKb / 1000 ≤ nodeFeePerBytes
  ceiling : ∀ cap ∈ suggestedFeeCeilingPerByte enc, cap < nodeFeePerBytes →
    relayFeePerKb / 1000 * suggestedFeeCeilingRelayMultiplier ≤ cap

/-- A whole number of base units that stands for the rate: the rate is rounded, to at least one, up to
the tolerance of the ceiling's comparison. -/
def QuoteOf (quote : ℤ) (feePerBytes : ℚ) : Prop :=
  ∃ r, r ≤ feePerBytes ∧ feePerBytes ≤ r * (1 + 1 / 10 ^ 12) ∧ quote = wholeUnits (r * satoshiUnit)

theorem ceiling_pos {cap : ℚ} (h : suggestedFeeCeilingPerByte enc = some cap) : 0 < cap := by
  unfold suggestedFeeCeilingPerByte at h
  dsimp only at h
  generalize enc.suggestedFeeMaxPerVbyte.getD _ = perVbyte at h
  have hunit : (0 : ℚ) < satoshiUnit := by decide
  split_ifs at h with hpos
  cases h
  exact div_pos hpos hunit

/-- **Where the relay fee raises nothing, the suggested rate is the estimate under the ceiling**, up to
the tolerance, and it is over the relay rate. -/
theorem suggestedRate_idle {relay node : ℚ} (hrelay : 0 < relay) (h : RelayIdle enc relay node) :
    underCeiling enc node ≤ suggestedRate enc relay node ∧
      suggestedRate enc relay node ≤ underCeiling enc node * (1 + 1 / 10 ^ 12) ∧
      suggestedRate enc relay node ≤ node ∧ relay / 1000 ≤ underCeiling enc node := by
  have hrate := h.rate
  have hnode : 0 < node := by linarith
  unfold suggestedRate underCeiling
  cases hcap : suggestedFeeCeilingPerByte enc with
  | none =>
    dsimp only [Option.map_none]
    rw [max_eq_left hrate]
    refine ⟨le_rfl, ?_, le_rfl, hrate⟩
    nlinarith
  | some cap =>
    have hpos := ceiling_pos hcap
    by_cases hlt : cap < node
    · have hlifted := h.ceiling cap hcap hlt
      have hmultiple : relay / 1000 ≤ relay / 1000 * suggestedFeeCeilingRelayMultiplier := by
        rw [suggestedFeeCeilingRelayMultiplier]
        linarith
      have hfloor : suggestedFeeCeilingFloorPerByte relay =
          some (relay / 1000 * suggestedFeeCeilingRelayMultiplier) := if_pos hrelay
      dsimp only [Option.map_some]
      rw [if_pos hlt, hfloor]
      simp only [max_eq_left hlifted]
      rw [min_eq_right hlt.le]
      split_ifs with hover
      · rw [max_eq_left (hmultiple.trans hlifted)]
        refine ⟨le_rfl, ?_, hlt.le, hmultiple.trans hlifted⟩
        nlinarith
      · rw [max_eq_left hrate]
        exact ⟨hlt.le, not_lt.mp hover, le_rfl, hmultiple.trans hlifted⟩
    · have hle := not_lt.mp hlt
      have hsame : ¬ cap * (1 + 1 / 10 ^ 12) < node := by
        refine not_lt.mpr (hle.trans ?_)
        nlinarith
      dsimp only [Option.map_some]
      rw [if_neg hlt, if_neg hsame, min_eq_left hle, max_eq_left hrate]
      refine ⟨le_rfl, ?_, le_rfl, hrate⟩
      nlinarith

/-! ## Quote and charge -/

variable {reply : Replies sig} {clock : ℕ} {s : Reservations} {l : Ledger} {rates : FeeRates}
  {dust : Option ℤ} {relay node : ℚ}

theorem alone_useNodeFeeRate (enc : Encoder) (relay : ℚ)
    (hnode : (reply .feePerKilobyte).mapError Subtype.val = .ok node) :
    (useNodeFeeRate enc relay).alone reply clock s l =
      (.ok (suggestedRate enc relay (node / 1000), some (node / 1000)), s, l) := by
  refine (alone_bind (c := Coro.request (σ := sig) .feePerKilobyte) s l).trans ?_
  rw [alone_request, hnode]
  rfl

theorem alone_useCallerFeeRate (rate : ℚ)
    (hnode : (reply .feePerKilobyte).mapError Subtype.val = .ok node) :
    (useCallerFeeRate rate).alone reply clock s l =
      (.ok (rate / 1000 / satoshiUnit, some (node / 1000)), s, l) := by
  refine (alone_bind (c := Coro.attempt (σ := sig) .feePerKilobyte) s l).trans ?_
  rw [alone_attempt, hnode]
  rfl

theorem resolveFeeRates_of_replies {feePerKb : Option ℚ}
    (h : ((resolveFeeRates enc feePerKb dust).alone reply clock s l).1 = .ok rates)
    (hinfo : reply .networkInfo = .ok (some relay))
    (hnode : (reply .feePerKilobyte).mapError Subtype.val = .ok node) :
    0 < relay ∧ rates = applyFeeCapAndDustFloor enc dust relay
      (match callerRate feePerKb with
        | some rate => rate / 1000 / satoshiUnit
        | none => suggestedRate enc relay (node / 1000)) (node / 1000) := by
  obtain ⟨a, s', l', hrelay, h⟩ := alone_bind_ok.mp h
  rw [resolveRelayFeeRate_eq, alone_bind, alone_request, hinfo] at hrelay
  change Coro.alone reply clock (Coro.ofExcept (σ := sig) (if 0 < relay then _ else _)) s l = _ at hrelay
  split_ifs at hrelay with hpos
  · cases hrelay
    refine ⟨hpos, ?_⟩
    cases hcaller : callerRate feePerKb with
    | some rate =>
      rw [hcaller] at h
      obtain ⟨r, s'', l'', hr, h⟩ := alone_bind_ok.mp h
      cases (alone_useCallerFeeRate rate hnode).symm.trans hr
      exact (Except.ok.inj h).symm
    | none =>
      rw [hcaller] at h
      obtain ⟨r, s'', l'', hr, h⟩ := alone_bind_ok.mp h
      cases (alone_useNodeFeeRate enc relay hnode).symm.trans hr
      exact (Except.ok.inj h).symm
  · cases hrelay

theorem estimateFee_eq_ok {getFeePerKilobyte : ℕ → Except BuildError ℚ} {tiers : FeeTiers}
    (h : estimateFee enc (.ok ()) getFeePerKilobyte = .ok tiers) :
    ∃ node, getFeePerKilobyte 1 = .ok node ∧
      tiers.high = max (quoteTier enc node) (max tiers.low tiers.medium) := by
  obtain ⟨_, -, h⟩ := bind_eq_ok.mp h
  obtain ⟨slow, -, h⟩ := bind_eq_ok.mp h
  obtain ⟨middle, -, h⟩ := bind_eq_ok.mp h
  obtain ⟨fast, hfast, h⟩ := bind_eq_ok.mp h
  cases h
  cases hnode : getFeePerKilobyte 1 with
  | error e =>
    rw [hnode] at hfast
    cases hfast
  | ok node =>
    rw [hnode] at hfast
    cases hfast
    exact ⟨_, rfl, rfl⟩

theorem applyFeeCapAndDustFloor_eq (enc : Encoder) (dust : Option ℤ) (relay fee node : ℚ) :
    (applyFeeCapAndDustFloor enc dust relay fee node).feePerBytes =
      (capCallerFeeRate enc fee (some node) relay).feePerBytes := by
  obtain ⟨-, -, hsame⟩ := capCallerFeeRate_le enc fee node relay
  show (if (capCallerFeeRate enc fee (some node) relay).clamped = true then _ else _) = _
  split_ifs with hc
  · rfl
  · exact (hsame (Bool.eq_false_iff.mpr hc)).symm

/-- The operator's caps do not bind the rate the encoder suggests. -/
def CapsApart (enc : Encoder) (relay node : ℚ) (rates : FeeRates) : Prop :=
  ∀ cap ∈ rates.capFeePerBytes, suggestedRate enc relay node ≤ cap

/-- A rate is charged as it is, where caps and backstop are over it. -/
theorem applyFeeCapAndDustFloor_of_le {fee : ℚ}
    (hcap : ∀ cap ∈ (applyFeeCapAndDustFloor enc dust relay fee node).capFeePerBytes, fee ≤ cap)
    (hback : fee ≤ node * burnBackstopMultiplier) :
    (applyFeeCapAndDustFloor enc dust relay fee node).feePerBytes = fee := by
  rw [applyFeeCapAndDustFloor_eq, capCallerFeeRate_eq_min, min_eq_left]
  change ∀ cap ∈ (capCallerFeeRate enc fee (some node) relay).capFeePerBytes, fee ≤ cap at hcap
  cases hc : (capCallerFeeRate enc fee (some node) relay).capFeePerBytes with
  | none => exact hback
  | some cap => exact le_min (hcap cap hc) hback

/-- The caps of a build depend on the node's rate, not on the rate it asks for. -/
theorem capFeePerBytes_eq (enc : Encoder) (dust : Option ℤ) (relay fee fee' node : ℚ) :
    (applyFeeCapAndDustFloor enc dust relay fee node).capFeePerBytes =
      (applyFeeCapAndDustFloor enc dust relay fee' node).capFeePerBytes := by
  show (capCallerFeeRate enc fee (some node) relay).capFeePerBytes =
    (capCallerFeeRate enc fee' (some node) relay).capFeePerBytes
  unfold capCallerFeeRate
  dsimp only
  split <;> rfl

/-- **The fastest quote and the charged rate.** The fastest quote is the larger of its own tier and
the slower quotes; and where the relay fee raises neither ceiling nor rate, and the operator's caps do
not bind, its own tier is the rate a build without a caller's rate is charged, rounded to at least one,
and the quote as a caller's rate is charged no more than one unit under the relay fee. -/
theorem quoteHigh_charged (enc : Encoder) (getFeePerKilobyte : ℕ → Except BuildError ℚ)
    (tiers : FeeTiers) (reply : Replies sig) (clock : ℕ) (s : Reservations) (l : Ledger)
    (dust : Option ℤ) (relay : ℚ) (rates : FeeRates)
    (hquote : estimateFee enc (.ok ()) getFeePerKilobyte = .ok tiers)
    (hinfo : reply .networkInfo = .ok (some relay))
    (hsame : (reply .feePerKilobyte).mapError Subtype.val = getFeePerKilobyte 1)
    (hrates : ((resolveFeeRates enc none dust).alone reply clock s l).1 = .ok rates) :
    ∃ node own, getFeePerKilobyte 1 = .ok node ∧ tiers.high = max own (max tiers.low tiers.medium) ∧
      (RelayIdle enc relay (node / 1000) → CapsApart enc relay (node / 1000) rates →
        QuoteOf own rates.feePerBytes ∧
        ∀ rates', ((resolveFeeRates enc (some (tiers.high * 1000)) dust).alone reply clock s l).1 =
            .ok rates' →
          (relay / 1000 - rates'.feePerBytes) * satoshiUnit ≤ 1) := by
  obtain ⟨node, hfast, hhigh⟩ := estimateFee_eq_ok hquote
  rw [hfast] at hsame
  refine ⟨node, quoteTier enc node, hfast, hhigh, fun hidle hcaps => ?_⟩
  obtain ⟨hrelay, hcharged⟩ := resolveFeeRates_of_replies hrates hinfo hsame
  change rates = applyFeeCapAndDustFloor enc dust relay (suggestedRate enc relay (node / 1000))
    (node / 1000) at hcharged
  obtain ⟨hlow, hup, hnode, hover⟩ := suggestedRate_idle hrelay hidle
  have hrate := hidle.rate
  have hback : node / 1000 ≤ node / 1000 * burnBackstopMultiplier := by
    rw [burnBackstopMultiplier]
    linarith
  constructor
  · refine ⟨underCeiling enc (node / 1000), ?_, ?_, quoteTier_eq node⟩
    all_goals
      rw [hcharged, applyFeeCapAndDustFloor_of_le (hcharged ▸ hcaps) (hnode.trans hback)]
      assumption
  · intro rates' hrates'
    obtain ⟨-, hcharged'⟩ := resolveFeeRates_of_replies hrates' hinfo hsame
    have hunit : (0 : ℚ) < satoshiUnit := by decide
    -- The quote is at least the estimate under the ceiling, less half a unit.
    have hquoted : relay / 1000 * satoshiUnit - 1 / 2 ≤ tiers.high := by
      have hown := le_wholeUnits (underCeiling enc (node / 1000) * satoshiUnit)
      rw [← quoteTier_eq] at hown
      have hle : (quoteTier enc node : ℚ) ≤ tiers.high := by
        rw [hhigh]
        exact_mod_cast le_max_left _ _
      have hmul := mul_le_mul_of_nonneg_right hover hunit.le
      linarith
    have htier : 1 ≤ quoteTier enc node := by
      rw [quoteTier_eq]
      exact le_max_left _ _
    have hone : 1 ≤ tiers.high := hhigh ▸ le_max_of_le_left htier
    have hcaller : callerRate (some ((tiers.high : ℚ) * 1000)) = some ((tiers.high : ℚ) * 1000) := by
      have hne : ((tiers.high : ℚ) * 1000) ≠ 0 := by
        have : (1 : ℚ) ≤ tiers.high := by exact_mod_cast hone
        positivity
      exact Option.filter_eq_some_iff.mpr ⟨rfl, decide_eq_true hne⟩
    rw [hcaller] at hcharged'
    have hfee : relay / 1000 - 1 / satoshiUnit ≤ rates'.feePerBytes := by
      rw [hcharged', applyFeeCapAndDustFloor_eq, capCallerFeeRate_eq_min]
      have hless : relay / 1000 - 1 / satoshiUnit ≤ relay / 1000 :=
        sub_le_self _ (div_pos one_pos hunit).le
      refine le_min ?_ ?_
      · show _ ≤ (tiers.high : ℚ) * 1000 / 1000 / satoshiUnit
        rw [mul_div_cancel_right₀ _ (by norm_num), sub_le_iff_le_add, ← add_div, le_div_iff₀ hunit]
        linarith
      · have hsuggested : relay / 1000 ≤ suggestedRate enc relay (node / 1000) := hover.trans hlow
        have hfloor : relay / 1000 ≤ node / 1000 * burnBackstopMultiplier := hrate.trans hback
        have hcap : ∀ cap ∈ (capCallerFeeRate enc ((tiers.high : ℚ) * 1000 / 1000 / satoshiUnit)
            (some (node / 1000)) relay).capFeePerBytes, relay / 1000 ≤ cap := by
          intro cap hcap
          refine hsuggested.trans (hcaps cap ?_)
          rw [hcharged]
          exact (capFeePerBytes_eq enc dust relay _ _ _).trans hcap
        refine hless.trans ?_
        change relay / 1000 ≤ minOption (capCallerFeeRate enc
          ((tiers.high : ℚ) * 1000 / 1000 / satoshiUnit) (some (node / 1000)) relay).capFeePerBytes _
        cases hc : (capCallerFeeRate enc ((tiers.high : ℚ) * 1000 / 1000 / satoshiUnit)
            (some (node / 1000)) relay).capFeePerBytes with
        | none => exact hfloor
        | some cap => exact le_min (hcap cap hc) hfloor
    have := mul_le_mul_of_nonneg_right hfee hunit.le
    rw [sub_mul, div_mul_cancel₀ _ hunit.ne'] at this
    linarith

/-! ## Two quotes -/

/-- A node that relays and prices the next block at one base unit per byte. -/
def unitReply : Replies sig
  | .networkInfo => .ok (some (1 / 100000 : ℚ))
  | .feePerKilobyte => .ok (show ℚ from 1 / 100000)
  | .blockCount => .ok none
  | .utxosFromAddress _ => .ok ⟨[], none⟩
  | .transactionHex _ => .ok []
  | .unconfirmedAncestorPackage _ => .ok none
  | .tick => .ok ()

/-- The estimates of a node that prices six blocks at `slow` coins per kB. -/
def unitEstimates (slow : ℚ) (target : ℕ) : Except BuildError ℚ :=
  .ok (if target = 6 then slow else 1 / 100000)

/-- What the build without a caller's rate is charged at that node. -/
def unitRates : Except BuildError FeeRates :=
  ((resolveFeeRates (sampleEncoder ⟨.btc, .mainnet⟩) none none).alone unitReply 0 Reservations.empty
    Ledger.empty).1

theorem unitRates_eq : ∃ rates, unitRates = .ok rates ∧ rates.feePerBytes = 1 / 100000000 ∧
    CapsApart (sampleEncoder ⟨.btc, .mainnet⟩) (1 / 100000) (1 / 100000 / 1000) rates := by
  have hfacts : unitRates.toOption.map (fun r => (r.feePerBytes, r.capFeePerBytes)) =
      some (1 / 100000000, none) := by
    decide +kernel
  cases h : unitRates with
  | error e =>
    rw [h] at hfacts
    cases hfacts
  | ok rates =>
    rw [h] at hfacts
    obtain ⟨hfee, hcap⟩ := Prod.mk.inj (Option.some.inj hfacts)
    refine ⟨rates, rfl, hfee, fun cap hc => ?_⟩
    cases hcap.symm.trans hc

/-- Flat estimates are quoted as they are charged. -/
theorem quoteHigh_charged_flat : ∃ tiers rates,
    estimateFee (sampleEncoder ⟨.btc, .mainnet⟩) (.ok ()) (unitEstimates (1 / 100000)) = .ok tiers ∧
    unitRates = .ok rates ∧ QuoteOf tiers.high rates.feePerBytes := by
  obtain ⟨rates, hrates, hfee, hcaps⟩ := unitRates_eq
  have hquote : estimateFee (sampleEncoder ⟨.btc, .mainnet⟩) (.ok ()) (unitEstimates (1 / 100000)) =
      .ok ⟨1, 1, 1⟩ := by decide +kernel
  obtain ⟨node, own, hnode, hhigh, hidle⟩ := quoteHigh_charged (sampleEncoder ⟨.btc, .mainnet⟩)
    (unitEstimates (1 / 100000)) ⟨1, 1, 1⟩ unitReply 0 Reservations.empty Ledger.empty none
    (1 / 100000) rates hquote rfl rfl hrates
  cases hnode
  obtain ⟨hown, -⟩ := hidle ⟨by norm_num, fun cap hc => by cases hc⟩ hcaps
  have hone : own = 1 := by
    obtain ⟨r, -, -, hr⟩ := hown
    have hle : own ≤ 1 := (le_max_left _ _).trans hhigh.ge
    exact le_antisymm hle (hr ▸ le_max_left _ _)
  exact ⟨⟨1, 1, 1⟩, rates, hquote, hrates, hone ▸ hown⟩

/-- **A slower estimate above the next block's raises the quote over the charge**: five units are
quoted where one is charged. -/
theorem slowerEstimate_raises : ∃ tiers rates,
    estimateFee (sampleEncoder ⟨.btc, .mainnet⟩) (.ok ()) (unitEstimates (1 / 20000)) = .ok tiers ∧
    unitRates = .ok rates ∧ CapsApart (sampleEncoder ⟨.btc, .mainnet⟩) (1 / 100000)
      (1 / 100000 / 1000) rates ∧ tiers.high = 5 ∧ rates.feePerBytes = 1 / 100000000 ∧
    ¬ QuoteOf tiers.high rates.feePerBytes := by
  obtain ⟨rates, hrates, hfee, hcaps⟩ := unitRates_eq
  have hquote : estimateFee (sampleEncoder ⟨.btc, .mainnet⟩) (.ok ()) (unitEstimates (1 / 20000)) =
      .ok ⟨5, 5, 5⟩ := by decide +kernel
  refine ⟨⟨5, 5, 5⟩, rates, hquote, hrates, hcaps, rfl, hfee, ?_⟩
  rintro ⟨r, hr, -, hfive⟩
  have hle : r * satoshiUnit ≤ 1 := by
    rw [hfee] at hr
    rw [satoshiUnit]
    linarith
  have hmono := wholeUnits_mono hle
  have hone : wholeUnits 1 = 1 := by decide +kernel
  rw [← hfive, hone] at hmono
  exact absurd hmono (by decide)

end XChain
