import XChainEncoder.Requests

/-!
# Fee rates

Which rate a build pays, and the dust value it uses.

* `resolveFeeRates`: the caller's rate or the node's, at least the relay rate, at most the cap;
* `quiet_resolveFeeRates`: it touches no state.
-/

namespace XChain

open Coroutine

/-- Rates in coin per byte (relay: per kB), and the dust value of the build. -/
structure FeeRates where
  relayFeePerKb : ℚ
  feePerBytes : ℚ
  nodeFeePerBytes : ℚ
  capFeePerBytes : Option ℚ
  finalDust : ℤ

def resolveRelayFeeRate : Prog ℚ := do
  let info : Option ℚ ← Coro.request (σ := sig) .networkInfo
  match info with
  | some relayFeePerKb =>
    if 0 < relayFeePerKb then return relayFeePerKb
    else Coro.throw (PlainError ("Node did not report a positive relayfee; transaction fee " ++
      "safety cannot be verified"))
  | none => Coro.throw (PlainError ("Node did not report a positive relayfee; transaction fee " ++
      "safety cannot be verified"))

/-- The caller's rate, and the node's where it answers. -/
def useCallerFeeRate (feePerKb : ℚ) : Prog (ℚ × Option ℚ) := do
  let node : Except BuildError ℚ ← Coro.attempt (σ := sig) .feePerKilobyte
  return (feePerKb / 1000 / satoshiUnit, node.toOption.map (· / 1000))

/-- The node's rate under the test-chain ceiling, raised to the relay rate. -/
def suggestedRate (enc : Encoder) (relayFeePerKb nodeFeePerBytes : ℚ) : ℚ :=
  let suggestedCap := (suggestedFeeCeilingPerByte enc).map fun cap =>
    if cap < nodeFeePerBytes then
      match suggestedFeeCeilingFloorPerByte relayFeePerKb with
      | some floor => max cap floor
      | none => cap
    else cap
  let feePerBytes := match suggestedCap with
    | some cap => if cap * (1 + 1 / 10 ^ 12) < nodeFeePerBytes then cap else nodeFeePerBytes
    | none => nodeFeePerBytes
  max feePerBytes (relayFeePerKb / 1000)

def useNodeFeeRate (enc : Encoder) (relayFeePerKb : ℚ) : Prog (ℚ × Option ℚ) := do
  let node : ℚ ← Coro.request (σ := sig) .feePerKilobyte
  return (suggestedRate enc relayFeePerKb (node / 1000), some (node / 1000))

/-- A caller's dust raises the output floor for this build, never lowers it. -/
def finalDust (enc : Encoder) (dust : Option ℤ) : ℤ :=
  match dust with
  | some d => if d ≠ 0 then max d enc.outputFloor else enc.outputFloor
  | none => enc.outputFloor

def applyFeeCapAndDustFloor (enc : Encoder) (dust : Option ℤ)
    (relayFeePerKb feePerBytes nodeFeePerBytes : ℚ) : FeeRates :=
  let capped := capCallerFeeRate enc feePerBytes (some nodeFeePerBytes) relayFeePerKb
  { relayFeePerKb
    feePerBytes := if capped.clamped then capped.feePerBytes else feePerBytes
    nodeFeePerBytes
    capFeePerBytes := capped.capFeePerBytes
    finalDust := finalDust enc dust }

/-- The caller's rate when it is given and not zero. -/
def callerRate (feePerKb : Option ℚ) : Option ℚ := feePerKb.filter (· ≠ 0)

def resolveFeeRates (enc : Encoder) (feePerKb : Option ℚ) (dust : Option ℤ) : Prog FeeRates := do
  let relayFeePerKb ← resolveRelayFeeRate
  let (feePerBytes, node) ← match callerRate feePerKb with
    | some rate => useCallerFeeRate rate
    | none => useNodeFeeRate enc relayFeePerKb
  return applyFeeCapAndDustFloor enc dust relayFeePerKb feePerBytes
    (node.getD (relayFeePerKb / 1000))

/-! ## What the rates satisfy -/

/-- `resolveRelayFeeRate` on a reply. -/
def relayRateFrom (info : Option ℚ) : Except BuildError ℚ :=
  match info with
  | some relayFeePerKb =>
    if 0 < relayFeePerKb then .ok relayFeePerKb
    else .error (PlainError ("Node did not report a positive relayfee; transaction fee " ++
      "safety cannot be verified"))
  | none => .error (PlainError ("Node did not report a positive relayfee; transaction fee " ++
      "safety cannot be verified"))

theorem resolveRelayFeeRate_eq : resolveRelayFeeRate =
    (Coro.request (σ := sig) .networkInfo).bind fun info =>
      Coro.ofExcept (σ := sig) (relayRateFrom info) := by
  refine congrArg (Coro.bind (Coro.request (σ := sig) .networkInfo)) (funext fun info => ?_)
  cases info with
  | none => rfl
  | some relay =>
    show (if 0 < relay then _ else _) = Coro.ofExcept (σ := sig) (if 0 < relay then _ else _)
    split_ifs <;> rfl

theorem quiet_resolveRelayFeeRate : Quiet resolveRelayFeeRate := by
  intro r
  cases r with
  | error e => trivial
  | ok info =>
    cases info with
    | none => trivial
    | some rate =>
      show Quiet (if 0 < rate then _ else _)
      split_ifs <;> trivial

theorem quiet_resolveFeeRates (enc : Encoder) (feePerKb : Option ℚ) (dust : Option ℤ) :
    Quiet (resolveFeeRates enc feePerKb dust) := by
  refine quiet_bind quiet_resolveRelayFeeRate fun relay => ?_
  cases callerRate feePerKb with
  | some rate => exact quiet_bind (fun _ => trivial) fun _ => trivial
  | none =>
    refine quiet_bind (quiet_bind (quiet_request (σ := sig) _) fun _ => ?_) fun _ => ?_ <;> trivial

end XChain
