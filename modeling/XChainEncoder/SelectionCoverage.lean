import XChainEncoder.CancelRuns

/-!
# Selection and the final fee

Whether the inputs at which selection stops pay for what settlement charges.

* `computeChange_insufficient`, `settleChange_insufficient`: settlement refuses for want of funds
  exactly when the inputs do not cover outputs, fee and floor;
* `settleChange_covered`: **a selection that stopped is refused exactly when its inputs do not cover
  the outputs, the dust floor and the surcharge on top of it**;
* `softDustSpend`, `softDustSpend_refused`: a run that stops one input short.
-/

namespace XChain

open PushScript Coroutine

variable {enc : Encoder} {plan : Plan} {emitted : Emitted} {sel : Selection}

/-- The refusal of inputs that do not cover outputs and fee. -/
def IsInsufficientFunds (e : BuildError) : Prop := e.cls = .operational "INSUFFICIENT_FUNDS"

theorem not_insufficient_of_plain {e : BuildError} (h : e.cls = .plain) : ¬ IsInsufficientFunds e := by
  rw [IsInsufficientFunds, h]
  nofun

variable (enc sel) in
theorem computeChange_insufficient {outputSatoshis estimatedFee : ℤ}
    (hfunding : plan.isReveal = false) :
    (∃ e, computeChange enc plan sel outputSatoshis estimatedFee = .error e ∧
        IsInsufficientFunds e) ↔ sel.inputSatoshis < outputSatoshis + estimatedFee := by
  simp only [computeChange, bind_eq_error, ensure_eq_error, hfunding, Bool.false_or,
    decide_eq_false_iff_not]
  constructor
  · rintro ⟨e, ⟨hshort, -⟩ | ⟨_, -, ⟨-, rfl⟩ | ⟨_, -, hdone⟩⟩, hcls⟩
    · omega
    · exact absurd hcls (by simp [IsInsufficientFunds, OperationalError])
    · cases hdone
  · intro hshort
    exact ⟨_, .inl ⟨by omega, rfl⟩, rfl⟩

theorem prefundRevealPackage_error {up : Uplifted} {estimatedFee : ℤ} {e : BuildError}
    (h : prefundRevealPackage enc plan emitted sel up estimatedFee = .error e) : e.cls = .plain := by
  unfold prefundRevealPackage at h
  cases hprefund : emitted.emission.revealPrefund with
  | none => simp [hprefund] at h
  | some prefund =>
    simp only [hprefund] at h
    split_ifs at h
    unfold applyRevealPrefund at h
    split_ifs at h
    rcases bind_eq_error.mp h with hraise | ⟨_, -, hdone⟩
    · exact Psbt.raiseOutputValue_error hraise
    · cases hdone

theorem emitChangeAndPad_error {changeSatoshis : ℤ} {psbt : Psbt} {e : BuildError}
    (hfunding : plan.isReveal = false)
    (h : emitChangeAndPad enc plan changeSatoshis psbt = .error e) : e.cls = .plain := by
  rcases bind_eq_error.mp h with hchange | ⟨psbt', -, hpad⟩
  · unfold emitChange at hchange
    split at hchange
    · split_ifs at hchange
      exact Psbt.addAddressOutput_error hchange
    · cases hchange
  · unfold emitRevealPad at hpad
    simp only [hfunding, Bool.false_eq_true, false_and, if_false] at hpad
    split at hpad <;> cases hpad

variable (enc emitted sel) in
/-- **Settlement refuses for want of funds exactly when the inputs do not cover outputs and the
floored fee**: the prefund takes nothing that is missing. -/
theorem settleChange_insufficient (hfunding : plan.isReveal = false) (up : Uplifted) :
    (∃ e, settleChange enc plan emitted sel up = .error e ∧ IsInsufficientFunds e) ↔
      sel.inputSatoshis < emitted.outputSatoshis + floorEstimatedFee enc emitted up.estimatedFee := by
  constructor
  · rintro ⟨e, he, hcls⟩
    rcases bind_eq_error.mp he with hpre | ⟨pre, hpre, he⟩
    · exact absurd hcls (not_insufficient_of_plain (prefundRevealPackage_error hpre))
    rcases bind_eq_error.mp he with hchange | ⟨change, -, he⟩
    · have hshort := (computeChange_insufficient enc sel hfunding).mp ⟨e, hchange, hcls⟩
      have hbounds := prefundRevealPackage_bounds hpre
      omega
    rcases bind_eq_error.mp he with hpad | ⟨psbt, -, he⟩
    · exact absurd hcls (not_insufficient_of_plain (emitChangeAndPad_error hfunding hpad))
    rcases bind_eq_error.mp he with hfloor | ⟨_, -, hdone⟩
    · obtain ⟨-, rfl⟩ := ensure_eq_error.mp hfloor
      exact absurd hcls (by simp [IsInsufficientFunds, OperationalError])
    · cases hdone
  · intro hshort
    obtain ⟨pre, hpre, -, houtputs⟩ := prefundRevealPackage_short enc plan up hshort.le
    have hshort : sel.inputSatoshis < pre.outputSatoshis +
        floorEstimatedFee enc emitted up.estimatedFee := houtputs ▸ hshort
    obtain ⟨e, he, hcls⟩ := (computeChange_insufficient enc sel hfunding).mpr hshort
    exact ⟨e, bind_eq_error.mpr (.inr ⟨pre, hpre, bind_eq_error.mpr (.inl he)⟩), hcls⟩

/-- Selection stopped: a greedy walk whose inputs exceed outputs and target fee. -/
theorem enough_exceeds (hstop : sel.enough enc plan emitted = true) :
    emitted.outputSatoshis + max sel.estimatedFee enc.dustAmount < sel.inputSatoshis := by
  simp only [Selection.enough, Bool.and_eq_true, decide_eq_true_eq] at hstop
  exact hstop.1.2

/-- **The coverage of a selection that stopped.** Whatever the ancestor package, settlement does not
refuse it for want of funds exactly when its inputs cover outputs, dust floor and surcharge; they do
where no surcharge is charged, and where the selected fee already reaches the floor. -/
theorem settleChange_covered (enc : Encoder) (plan : Plan) (emitted : Emitted) (sel : Selection)
    (package : Option AncestorPackage) (hfunding : plan.isReveal = false)
    (hstop : sel.enough enc plan emitted = true) :
    (¬ (∃ e, settleChange enc plan emitted sel (upliftBy enc plan emitted sel package) = .error e ∧
        IsInsufficientFunds e) ↔
      emitted.outputSatoshis + enc.dustAmount + emitted.softDustSurcharge ≤ sel.inputSatoshis) ∧
    (emitted.softDustSurcharge ≤ 0 ∨
        enc.dustAmount + emitted.softDustSurcharge ≤ sel.estimatedFee →
      emitted.outputSatoshis + enc.dustAmount + emitted.softDustSurcharge ≤ sel.inputSatoshis) := by
  have hexceeds := enough_exceeds hstop
  constructor
  · rw [settleChange_insufficient enc emitted sel hfunding, floorEstimatedFee]
    have hbounds := upliftBy_bounds enc emitted sel hfunding package
    omega
  · omega

/-! ## One input short -/

/-- The P2PKH address of `sampleKey` on Dogecoin, and its script. -/
def dogeAddress : Text := "DFpN6QqFfUm3gKNaxN6tNcab1FArL9cZLE".toList

def dogeScript : Bytes := [0x76, 0xa9, 0x14] ++ sampleHash ++ [0x88, 0xac]

/-- A transaction that pays 1550000 and 1500000 to `dogeAddress`. -/
def dogeFunding : ParsedTx where
  id := "c94fc630f76f28700c797e8885e7429051290a4d7cb2c19ce6b1de8a840d3968".toList
  outs := [⟨dogeScript, 1550000⟩, ⟨dogeScript, 1500000⟩]

/-- `dogeFunding` in hexadecimal. -/
def dogeFundingHex : Text :=
  ([0x01, 0x00, 0x00, 0x00, 0x01] ++ List.replicate 32 0x11 ++
    [0x00, 0x00, 0x00, 0x00, 0x00, 0xff, 0xff, 0xff, 0xff, 0x02] ++
    [0xb0, 0xa6, 0x17, 0x00, 0x00, 0x00, 0x00, 0x00, 0x19] ++ dogeScript ++
    [0x60, 0xe3, 0x16, 0x00, 0x00, 0x00, 0x00, 0x00, 0x19] ++ dogeScript ++
    [0x00, 0x00, 0x00, 0x00]).flatMap fun byte : UInt8 =>
      [(byte.toNat / 16).digitChar, (byte.toNat % 16).digitChar]

/-- The sample library, with what the Dogecoin runs ask of it. -/
def dogeLibrary : Library :=
  { sampleLibrary with
    toOutputScript := fun _ a => if a = dogeAddress then some dogeScript else none
    p2pkhAddress := fun _ k => if k = sampleKey then some dogeAddress else none
    transactionFromHex := fun hex => if hex = dogeFundingHex then some dogeFunding else none }

def dogeEncoder : Encoder := { sampleEncoder ⟨.doge, .mainnet⟩ with lib := dogeLibrary }

def dogeUtxo (vout : ℕ) (value : ℤ) : Utxo where
  txid := dogeFunding.id
  vout
  value
  scriptPubKey := dogeScript
  confirmations := 6
  redeemScript := none
  txid_hex := by decide +kernel

/-- An output to `sampleAddress`. -/
def witnessUtxo (vout : ℕ) (value : ℤ) : Utxo where
  txid := sampleTxid
  vout
  value
  scriptPubKey := [0x00, 0x14] ++ sampleHash
  confirmations := 6
  redeemScript := none
  txid_hex := by decide +kernel

/-- A payment of 500000, under the soft dust limit, at 100 base units per byte. -/
def softDustPayment : TxRequest where
  utxos := [dogeUtxo 0 1550000, dogeUtxo 1 1500000]
  pubkey := "0279be667ef9dcbbac55a06295ce870b07029bfcdb2dce28d959f2815b16f81798".toList
  customOutputs := [⟨dogeAddress, 500000⟩]
  data := none
  rawData := none
  fee := none
  replacebyfee := false
  encoding := .auto
  change := some dogeAddress
  p2shHash := none
  p2shHex := none
  compressedPubKey := none
  unconfirmed := true
  feePerKb := some 100000
  dust := none
  feeQuote := none
  attachPrevTx := false
  compress := none
  signerSupportsTapscript := false
  exactInputs := false

/-- A node that relays at 100 base units per byte and serves `dogeFunding`. -/
def dogeReply : (q : Rpc) → Except {e : BuildError // sig.Rejects e} (Rpc.Reply q)
  | .networkInfo => .ok (some (1 / 1000 : ℚ))
  | .feePerKilobyte => .ok (show ℚ from 1 / 100)
  | .transactionHex _ => .ok dogeFundingHex
  | q => sampleReply q

/-- The plan of `softDustPayment`. -/
def softDustPlan : Plan where
  request := softDustPayment
  rates := applyFeeCapAndDustFloor dogeEncoder none (1 / 1000) (1 / 1000000) (1 / 100000)
  payments := ⟨softDustPayment.customOutputs, none⟩
  compression := none
  hasActionPayload := false
  rawDataOnlyPayload := false
  prepared := ⟨[], .opReturn, none⟩
  fetchedFromTracker := false
  bound := ⟨softDustPayment.utxos, some ⟨dogeFunding.id, 0⟩, some dogeFunding.id⟩

/-- Selection over `softDustPlan` after one input of the given value. -/
def softDustSelection (value : ℤ) : Except BuildError (Emitted × Selection) := do
  let emitted ← emitCustomOutputs dogeEncoder softDustPlan (Emission.start softDustPlan ⟨0, 0, 0⟩)
  let start ← initSelection none emitted
  let sel ← start.add dogeEncoder softDustPlan emitted (dogeUtxo 0 value)
    { hash := dogeFunding.id, index := 0, sequence := 4294967295, witnessUtxo := none,
      nonWitnessUtxo := some dogeFunding, redeemScript := none, witnessScript := none } false
  return (emitted, sel)

/-- An input that covers the surcharge too is enough. -/
theorem settleChange_covered_soft : ∃ emitted sel, softDustSelection 1600000 = .ok (emitted, sel) ∧
    sel.enough dogeEncoder softDustPlan emitted = true ∧
    ¬ ∃ e, settleChange dogeEncoder softDustPlan emitted sel
      (upliftBy dogeEncoder softDustPlan emitted sel none) = .error e ∧ IsInsufficientFunds e := by
  have hfacts : (softDustSelection 1600000).toOption.any (fun r =>
      r.2.enough dogeEncoder softDustPlan r.1 && decide (r.1.outputSatoshis + dogeEncoder.dustAmount +
        r.1.softDustSurcharge ≤ r.2.inputSatoshis)) = true := by
    decide +kernel
  cases hsel : softDustSelection 1600000 with
  | error e =>
    rw [hsel] at hfacts
    cases hfacts
  | ok r =>
    rw [hsel] at hfacts
    simp only [Except.toOption, Option.any_some, Bool.and_eq_true, decide_eq_true_eq] at hfacts
    exact ⟨r.1, r.2, rfl, hfacts.1, (settleChange_covered dogeEncoder softDustPlan r.1 r.2 none rfl
      hfacts.1).1.mpr hfacts.2⟩

/-- The payment is built to its end. -/
def softDustSpend : List (Event sig Command) :=
  .start (.createTransaction softDustPayment) [] :: List.replicate 12 (.resume 0 dogeReply [])

/-- What a call threw. -/
def thrownError (call : EncoderCall) : Option BuildError :=
  match call.stage with
  | .threw e _ => some e
  | _ => none

/-- Selection stops at an input of 1550000, which exceeds its target, and settlement refuses it while
another 1500000 is on offer. -/
theorem softDustSpend_refused :
    (∃ emitted sel, softDustSelection 1550000 = .ok (emitted, sel) ∧
      sel.enough dogeEncoder softDustPlan emitted = true ∧
      ∃ e, settleChange dogeEncoder softDustPlan emitted sel
        (upliftBy dogeEncoder softDustPlan emitted sel none) = .error e ∧ IsInsufficientFunds e) ∧
    softDustPayment.utxos.map Utxo.value = [1550000, 1500000] ∧
    ((encoderRun dogeEncoder 0 softDustSpend).cfg.calls 0).bind thrownError =
      some (OperationalError "INSUFFICIENT_FUNDS" ("insufficient funds: selected inputs total " ++
        "1550000 but 1600000 is required (outputs 500000 + fee 1100000)")) := by
  have hfacts : (softDustSelection 1550000).toOption.any (fun r =>
        r.2.enough dogeEncoder softDustPlan r.1 && decide (r.2.inputSatoshis <
          r.1.outputSatoshis + dogeEncoder.dustAmount + r.1.softDustSurcharge)) = true ∧
      softDustPayment.utxos.map Utxo.value = [1550000, 1500000] ∧
      ((encoderRun dogeEncoder 0 softDustSpend).cfg.calls 0).bind thrownError =
        some (OperationalError "INSUFFICIENT_FUNDS" ("insufficient funds: selected inputs total " ++
          "1550000 but 1600000 is required (outputs 500000 + fee 1100000)")) := by
    decide +kernel
  refine ⟨?_, hfacts.2⟩
  replace hfacts := hfacts.1
  cases hsel : softDustSelection 1550000 with
  | error e =>
    rw [hsel] at hfacts
    cases hfacts
  | ok r =>
    rw [hsel] at hfacts
    simp only [Except.toOption, Option.any_some, Bool.and_eq_true, decide_eq_true_eq] at hfacts
    obtain ⟨hstop, hshort⟩ := hfacts
    refine ⟨r.1, r.2, rfl, hstop, (settleChange_insufficient _ _ _ rfl _).mpr ?_⟩
    have := le_max_right (upliftBy dogeEncoder softDustPlan r.1 r.2 none).estimatedFee
      (dogeEncoder.dustAmount + r.1.softDustSurcharge)
    rw [floorEstimatedFee]
    omega

end XChain
