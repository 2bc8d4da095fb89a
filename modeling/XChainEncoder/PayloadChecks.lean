import XChainEncoder.Compression

/-!
# Checks before a build

* `checkPayloadInput`: addresses, payment values and the fee-quote output;
* `checkEnvelopeEncoding`: TAPROOT only where decoders read envelopes;
* `quiet_checkEnvelopeEncoding`: it touches no state; `forIndexed_eq_ok`: what a checked list
  satisfies.
-/

namespace XChain

open PushScript Coroutine

/-- The outputs to pay, the fee quote last; `feeQuoteIndex` is its place. -/
structure PaymentOutputs where
  customOutputs : List CustomOutput
  feeQuoteIndex : Option ℕ
  deriving DecidableEq, Repr

/-- A quote counts when it names an address and a positive amount. -/
def payableQuote (feeQuote : Option FeeQuote) : Option FeeQuote :=
  feeQuote.filter fun q => q.address ≠ [] && 0 < q.amount

/-- The quote is one more output. -/
def injectFeeQuoteOutput (feeQuote : Option FeeQuote) (customOutputs : List CustomOutput) :
    PaymentOutputs :=
  match payableQuote feeQuote with
  | some q => ⟨customOutputs ++ [⟨q.address, q.amount⟩], some customOutputs.length⟩
  | none => ⟨customOutputs, none⟩

/-- A payment below the floor would not relay. -/
def assertPaymentOverDust (value : ℤ) (index : ℕ) (floor : ℤ) : Except BuildError Unit :=
  ensure (floor ≤ value) (ParamRangeError
    (s!"customOutputs[{index}].value {value} is below the {floor} base-unit relay dust " ++
      "threshold for this coin"))

/-- The value of one requested output: exact and positive. -/
def customOutputValue (output : CustomOutput) (index : ℕ) : Except BuildError ℤ := do
  let value ← parseSatoshiAmount output.value s!"customOutputs[{index}].value" true
  ensure (0 < value) (ParamRangeError
    s!"customOutputs[{index}].value must be a positive integer (satoshis)")
  return value

/-- Run a check over a list, with the index of each entry from `i`. -/
def forIndexed {α : Type} (check : α → ℕ → Except BuildError Unit) :
    List α → ℕ → Except BuildError Unit
  | [], _ => .ok ()
  | a :: as, i => do
    check a i
    forIndexed check as (i + 1)

/-- Every address is of the network. -/
def checkOutputAddresses (enc : Encoder) (customOutputs : List CustomOutput)
    (feeQuote : Option FeeQuote) (change : Option Text) : Except BuildError Unit := do
  forIndexed (fun o i => assertAddressOnNetwork enc.lib enc.network o.address
    s!"customOutputs[{i}].address") customOutputs 0
  match payableQuote feeQuote with
  | some q => assertAddressOnNetwork enc.lib enc.network q.address "feeQuote.address"
  | none => pure ()
  match change with
  | some address => assertAddressOnNetwork enc.lib enc.network address "change"
  | none => pure ()

/-- Every payment is exact, positive and no lower than the floor. -/
def checkPaymentDust (enc : Encoder) (customOutputs : List CustomOutput) :
    Except BuildError Unit :=
  forIndexed (fun output i => do
    let value ← customOutputValue output i
    assertPaymentOverDust value i enc.paymentOutputFloor) customOutputs 0

/-- What is checked before the payload is read. -/
def checkPayloadInput (enc : Encoder) (request : TxRequest) :
    Except BuildError PaymentOutputs := do
  checkOutputAddresses enc request.customOutputs request.feeQuote request.change
  checkPaymentDust enc request.customOutputs
  return injectFeeQuoteOutput request.feeQuote request.customOutputs

/-- Refuse an envelope that decoders would ignore. -/
def assertEnvelopeRecognized (enc : Encoder) : Prog Unit :=
  match enc.network.envelopeRecognitionHeight with
  | none => Coro.throw (ParamTypeError ("TAPROOT encoding is not recognized on this network; " ++
      "no envelope recognition height is defined for it"))
  | some height =>
    if height = 0 then yieldTick
    else do
      let tip : Option ℤ ← Coro.request (σ := sig) .blockCount
      yieldTick
      match tip with
      | none => Coro.throw (OperationalError "ENVELOPE_RECOGNITION_UNKNOWN"
          ("Cannot confirm Taproot envelope recognition is active on this network " ++
            s!"(recognition height {height}); the node did not return a chain height. " ++
            "Refusing to build an envelope that decoders may ignore."))
      | some tip =>
        if tip < height then Coro.throw (OperationalError "ENVELOPE_NOT_YET_ACTIVE"
          (s!"Taproot envelope recognition is not active on this network until block {height} " ++
            s!"(chain tip {tip}, {height - tip} block(s) to go). An envelope broadcast now would " ++
            "cost a real fee and be ignored by every decoder, so it is refused. Use P2WSH until " ++
            "the activation height."))
        else return ()

/-- An envelope needs witness programs, no reveal, and decoders that read it. -/
def checkEnvelopeEncoding (enc : Encoder) (encoding : Option Encoding) (isReveal : Bool) :
    Prog Unit :=
  if encoding = some .taproot then do
    Coro.ofExcept (σ := sig) (ensure enc.network.supportsSegwit (ParamTypeError
      "TAPROOT encoding is not supported on this network (no segwit support)"))
    Coro.ofExcept (σ := sig) (ensure (!isReveal) (ParamTypeError
      ("TAPROOT encoding does not use the p2shHash reveal flow; one create_tx call returns the " ++
        "commit and reveal PSBTs together")))
    assertEnvelopeRecognized enc
  else return ()

theorem quiet_assertEnvelopeRecognized (enc : Encoder) : Quiet (assertEnvelopeRecognized enc) := by
  unfold assertEnvelopeRecognized
  split
  · trivial
  · split_ifs
    · exact quiet_yieldTick
    · refine quiet_bind (quiet_request (σ := sig) _) fun tip => ?_
      refine quiet_bind quiet_yieldTick fun _ => ?_
      cases tip with
      | none => trivial
      | some tip =>
        dsimp only
        split_ifs <;> trivial

theorem quiet_checkEnvelopeEncoding (enc : Encoder) (encoding : Option Encoding)
    (isReveal : Bool) : Quiet (checkEnvelopeEncoding enc encoding isReveal) := by
  unfold checkEnvelopeEncoding
  split_ifs
  · refine quiet_bind (quiet_ofExcept (σ := sig) _) fun _ => ?_
    refine quiet_bind (quiet_ofExcept (σ := sig) _) fun _ => ?_
    exact quiet_assertEnvelopeRecognized enc
  · trivial

/-! ## What the checks leave -/

theorem forIndexed_eq_ok {α : Type} {check : α → ℕ → Except BuildError Unit} {as : List α}
    {i : ℕ} : forIndexed check as i = .ok () ↔
      ∀ j a, as[j]? = some a → check a (i + j) = .ok () := by
  induction as generalizing i with
  | nil => simp [forIndexed]
  | cons a as ih =>
    simp only [forIndexed, bind_eq_ok, ih]
    constructor
    · rintro ⟨_, h0, h⟩ j b hb
      cases j with
      | zero =>
        cases hb
        exact h0
      | succ j => simpa [Nat.add_comm, Nat.add_left_comm] using h j b (by simpa using hb)
    · intro h
      refine ⟨(), h 0 a rfl, fun j b hb => ?_⟩
      simpa [Nat.add_comm, Nat.add_left_comm] using h (j + 1) b (by simpa using hb)

theorem customOutputValue_eq_ok {output : CustomOutput} {i : ℕ} {v : ℤ} :
    customOutputValue output i = .ok v ↔
      v = output.value ∧ 0 < output.value ∧ output.value ≤ maxSatoshiU64 := by
  simp only [customOutputValue, bind_eq_ok, parseSatoshiAmount_eq_ok, ensure_eq_ok,
    decide_eq_true_eq]
  constructor
  · rintro ⟨w, ⟨rfl, -, -, hm⟩, _, hpos, hv⟩
    cases hv
    exact ⟨rfl, hpos, hm⟩
  · rintro ⟨rfl, hpos, hm⟩
    exact ⟨_, ⟨rfl, hpos.le, .inr trivial, hm⟩, (), hpos, rfl⟩

end XChain
