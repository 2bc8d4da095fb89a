import XChainEncoder.EnvelopeReveals

/-!
# Refusals beside the key check

`INPUT_SELECTION_RACE` is raised by `refuseFirstInputRace` and nowhere else: every other step of a
build refuses with another error.

* `NotRace`: any other error;
* the steps before, during and after selection, one lemma each;
* `always_emitOutputs`, `always_selectStep`, `always_settleBuild`, `notRace_finishBuild`: **the awaited
  ones**.
-/

namespace XChain

open PushScript Coroutine

/-- Not the refusal of the key check. -/
def NotRace (e : BuildError) : Prop := e.cls ≠ .operational "INPUT_SELECTION_RACE"

theorem notRace_paramType (message : String) : NotRace (ParamTypeError message) := nofun

theorem notRace_paramRange (message : String) : NotRace (ParamRangeError message) := nofun

theorem notRace_plain (message : String) : NotRace (PlainError message) := nofun

theorem notRace_operational {code : String} (h : code ≠ "INPUT_SELECTION_RACE") (message : String) :
    NotRace (OperationalError code message) :=
  fun heq => h (ErrorClass.operational.inj heq)

theorem notRace_ite {c : Prop} [Decidable c] {e e' : BuildError} (h : NotRace e) (h' : NotRace e') :
    NotRace (if c then e else e') := by
  split_ifs
  · exact h
  · exact h'

theorem notRace_of_plain {e : BuildError} (h : e.cls = .plain) : NotRace e := by
  unfold NotRace
  rw [h]
  nofun

variable {enc : Encoder} {plan : Plan} {emitted : Emitted} {sel : Selection} {price : RevealOutputsPrice}
  {e : Emission} {psbt : Psbt}

/-! ## Amounts, identities and payloads -/

theorem refuses_parseSatoshiAmount (value : ℤ) (label : String) (allowBig : Bool) :
    Refuses NotRace (parseSatoshiAmount value label allowBig) :=
  refuses_bind (refuses_ensure (notRace_paramRange _)) fun _ =>
    refuses_bind (refuses_ensure (notRace_paramRange _)) fun _ =>
      refuses_bind (refuses_ensure (notRace_paramRange _)) fun _ => refuses_ok _

theorem refuses_resolveCallerHash160 (L : Library) (pubKey : Text) :
    Refuses NotRace (resolveCallerHash160 L pubKey) := by
  unfold resolveCallerHash160
  split_ifs
  · exact refuses_bind (refuses_ensure (notRace_paramType _)) fun _ => refuses_ok _
  · split
    · exact refuses_ok _
    · split
      · split_ifs
        · exact refuses_ok _
        · exact refuses_error (notRace_paramType _)
      · exact refuses_error (notRace_paramType _)

theorem refuses_resolveCallerAddress (L : Library) (network : Network) (pubKey : Text) :
    Refuses NotRace (resolveCallerAddress L network pubKey) := by
  unfold resolveCallerAddress
  split_ifs
  · exact refuses_ok _
  · exact refuses_ok _
  · refine refuses_bind (refuses_ensure (notRace_paramType _)) fun _ => ?_
    dsimp only
    split
    · exact refuses_ok _
    · exact refuses_error (notRace_plain _)
  · exact refuses_bind (refuses_ensure (notRace_paramType _)) fun _ => by
      dsimp only
      split
      · exact refuses_ok _
      · exact refuses_error (notRace_plain _)
  · exact refuses_error (notRace_paramType _)

theorem refuses_prepareData (L : Library) (data : Bytes) (encoding : Option Encoding) (pubKey : Text)
    (key : Option Bytes) : Refuses NotRace (prepareData L data encoding pubKey key) := by
  have hscript : ∀ encoding, Refuses NotRace (scriptHashPayload L data encoding pubKey) := fun _ =>
    refuses_bind (refuses_resolveCallerHash160 L pubKey) fun _ => refuses_ok _
  unfold prepareData
  dsimp only
  split
  · exact refuses_bind (refuses_ensure (notRace_paramRange _)) fun _ => refuses_ok _
  · exact hscript _
  · exact hscript _
  · exact refuses_ok _
  · cases key with
    | none => exact refuses_error (notRace_paramType _)
    | some key =>
      refine refuses_bind (refuses_bind (refuses_ensure (notRace_paramType _)) fun _ => ?_) fun _ =>
        refuses_ok _
      exact refuses_ensure (notRace_paramType _)

theorem refuses_planBuild (request : TxRequest) (pre : Prepared) (bound : Bound) :
    Refuses NotRace (planBuild enc request pre bound) := by
  refine refuses_bind ?_ fun _ => refuses_ok _
  unfold prepareDataChunks
  split_ifs
  · exact refuses_prepareData ..
  · exact refuses_ok _

/-! ## The transaction -/

theorem refuses_addInput (psbt : Psbt) (input : PsbtInput) : Refuses NotRace (psbt.addInput input) :=
  refuses_bind (refuses_ensure (notRace_plain _)) fun _ =>
    refuses_bind (refuses_ensure (notRace_plain _)) fun _ => refuses_ok _

theorem refuses_addOutput (psbt : Psbt) (script : Bytes) (value : ℤ) (plainNumber : Bool) :
    Refuses NotRace (psbt.addOutput script value plainNumber) :=
  refuses_bind (refuses_ensure (notRace_plain _)) fun _ => refuses_ok _

theorem refuses_addAddressOutput (network : Network) (L : Library) (psbt : Psbt) (address : Text)
    (value : ℤ) (plainNumber : Bool) :
    Refuses NotRace (psbt.addAddressOutput L network address value plainNumber) :=
  ⟨fun _ h => notRace_of_plain (Psbt.addAddressOutput_error h)⟩

theorem refuses_unsignedTxid (L : Library) (psbt : Psbt) : Refuses NotRace (psbt.unsignedTxid L) :=
  refuses_bind (refuses_ensure (notRace_plain _)) fun _ => refuses_ok _

theorem refuses_requirePsbt (psbt : Option Psbt) : Refuses NotRace (requirePsbt psbt) := by
  cases psbt with
  | none => exact refuses_error (notRace_plain _)
  | some psbt => exact refuses_ok _

/-! ## Emission -/

theorem refuses_emitDataOutput (e : Emission) (script : Bytes) (value : ℤ) (size : ℕ) :
    Refuses NotRace (emitDataOutput e script value size) :=
  refuses_bind (refuses_requirePsbt _) fun _ => refuses_bind (refuses_addOutput ..) fun _ => refuses_ok _

theorem refuses_emitMultisignOutput (e : Emission) (data : Bytes) :
    Refuses NotRace (emitMultisignOutput enc plan e data) := by
  unfold emitMultisignOutput
  split
  · exact refuses_error (notRace_plain _)
  · split
    · exact refuses_error (notRace_plain _)
    · exact refuses_emitDataOutput ..

theorem refuses_changeOrCaller (request : TxRequest) :
    Refuses NotRace (changeOrCaller enc request) := by
  unfold changeOrCaller
  split
  · exact refuses_ok _
  · exact refuses_resolveCallerAddress ..

theorem refuses_emitEnvelopeCommit (e : Emission) (chunk : Bytes) :
    Refuses NotRace (emitEnvelopeCommit enc plan e chunk) := by
  refine refuses_bind (refuses_requirePsbt _) fun psbt => ?_
  dsimp only
  split
  · exact refuses_error (notRace_plain _)
  · refine refuses_bind (refuses_changeOrCaller _) fun _ => ?_
    exact refuses_bind (refuses_emitDataOutput ..) fun _ => refuses_ok _

theorem refuses_fundP2shLeg (e : Emission) (chunk : Bytes) :
    Refuses NotRace (fundP2shLeg enc plan price e chunk) :=
  refuses_bind (refuses_requirePsbt _) fun _ => refuses_bind (refuses_addOutput ..) fun _ => refuses_ok _

theorem refuses_fundP2wshLeg (e : Emission) (chunk : Bytes) :
    Refuses NotRace (fundP2wshLeg enc plan price e chunk) :=
  refuses_bind (refuses_requirePsbt _) fun _ => refuses_bind (refuses_addOutput ..) fun _ => refuses_ok _

theorem refuses_loadFundingTx (e : Emission) : Refuses NotRace (loadFundingTx enc plan e) := by
  unfold loadFundingTx
  split
  · split
    · exact refuses_error (notRace_paramType _)
    · exact refuses_bind (refuses_ensure (notRace_paramType _)) fun _ => refuses_ok _
  · exact refuses_ok _

theorem refuses_nextLeg (e : Emission) : Refuses NotRace (nextLeg e) := by
  unfold nextLeg
  split
  · exact refuses_ok _
  · exact refuses_error (notRace_paramRange _)

theorem refuses_addLegInput (psbt : Psbt) (e : Emission) (leg : TxOut) (input : PsbtInput)
    (size : ℕ) : Refuses NotRace (addLegInput enc psbt e leg input size) :=
  refuses_bind (refuses_addInput ..) fun _ => refuses_ok _

theorem refuses_customOutputValue (output : CustomOutput) (i : ℕ) :
    Refuses NotRace (customOutputValue output i) :=
  refuses_bind (refuses_parseSatoshiAmount ..) fun _ =>
    refuses_bind (refuses_ensure (notRace_paramRange _)) fun _ => refuses_ok _

theorem refuses_emitPayments (feeQuoteIndex : Option ℕ) (outputs : List CustomOutput) (i : ℕ)
    (acc : Psbt × ℤ × ℕ) : Refuses NotRace (emitPayments enc feeQuoteIndex outputs i acc) := by
  induction outputs generalizing i acc with
  | nil => exact refuses_ok _
  | cons output outputs ih =>
    obtain ⟨psbt, outputSatoshis, size⟩ := acc
    refine refuses_bind (refuses_customOutputValue output i) fun v => ?_
    split_ifs
    · refine refuses_bind (refuses_ensure (notRace_paramRange _)) fun _ => ?_
      exact refuses_bind (refuses_addAddressOutput ..) fun psbt' => ih ..
    · exact refuses_bind (refuses_addAddressOutput ..) fun psbt' => ih ..

theorem refuses_emitCustomOutputs (e : Emission) :
    Refuses NotRace (emitCustomOutputs enc plan e) :=
  refuses_bind (refuses_requirePsbt _) fun _ => refuses_bind (refuses_emitPayments ..) fun _ =>
    refuses_ok _

theorem refuses_priceRevealCustomOutputs (rates : FeeRates) (isReveal family : Bool)
    (outputs : List CustomOutput) :
    Refuses NotRace (priceRevealCustomOutputs enc rates isReveal family outputs) := by
  have hvalues : ∀ i, Refuses NotRace (parseOutputValues outputs i) := by
    induction outputs with
    | nil => exact fun _ => refuses_ok _
    | cons o os ih =>
      exact fun i => refuses_bind (refuses_parseSatoshiAmount ..) fun _ =>
        refuses_bind (ih (i + 1)) fun _ => refuses_ok _
  unfold priceRevealCustomOutputs
  split_ifs
  · exact refuses_ok _
  · exact refuses_bind (hvalues 0) fun _ => refuses_ok _

section Awaited

variable {α : Type} {R : α → Prop}

theorem always_of_refuses {x : Except BuildError α} (h : Refuses NotRace x) :
    Always (σ := sig) (fun _ => True) NotRace (Coro.ofExcept x) :=
  always_ofExcept (fun _ _ => trivial) h.error

theorem always_notRace_bind {β : Type} {c : Prog α} {f : α → Prog β}
    (hc : Always (fun _ => True) NotRace c) (hf : ∀ a, Always (fun _ => True) NotRace (f a)) :
    Always (fun _ => True) NotRace (c.bind f) :=
  always_bind.mpr (always_mono (fun a _ => hf a) (fun _ h => h) hc)

end Awaited

theorem always_awaitObfuscate (data : Bytes) (key : Option Text) :
    Always (fun _ => True) NotRace (awaitObfuscate enc data key) := by
  unfold awaitObfuscate
  refine always_notRace_bind (fun _ _ => trivial) fun _ => ?_
  cases key.bind (obfuscate enc.lib data) with
  | none => exact notRace_plain _
  | some out => trivial

theorem always_startReveal (marker : Bytes) (e : Emission) :
    Always (fun _ => True) NotRace (startReveal enc marker e) := by
  unfold startReveal
  cases e.psbt with
  | some psbt => trivial
  | none =>
    refine always_notRace_bind (always_awaitObfuscate _ _) fun _ => ?_
    exact always_notRace_bind (always_of_refuses (refuses_addOutput ..)) fun _ => trivial

theorem always_spendP2shLeg (hash : Text) (e : Emission) (chunk : Bytes) :
    Always (fun _ => True) NotRace (spendP2shLeg enc plan hash e chunk) := by
  refine always_notRace_bind (always_startReveal _ _) fun _ => ?_
  refine always_notRace_bind (always_of_refuses (refuses_nextLeg _)) fun _ => ?_
  refine always_notRace_bind (always_of_refuses (refuses_ensure (notRace_paramRange _))) fun _ => ?_
  exact always_of_refuses (refuses_addLegInput ..)

theorem always_spendP2wshLeg (hash : Text) (e : Emission) (chunk : Bytes) :
    Always (fun _ => True) NotRace (spendP2wshLeg enc plan hash e chunk) := by
  refine always_notRace_bind (always_startReveal _ _) fun _ => ?_
  refine always_notRace_bind (always_of_refuses (refuses_nextLeg _)) fun _ => ?_
  refine always_notRace_bind (always_of_refuses (refuses_ensure (notRace_paramRange _))) fun _ => ?_
  exact always_of_refuses (refuses_addLegInput ..)

theorem always_emitChunk (e : Emission) (chunk : Bytes) :
    Always (fun _ => True) NotRace (emitChunk enc plan price e chunk) := by
  unfold emitChunk
  cases plan.prepared.encoding with
  | opReturn =>
    refine always_notRace_bind (always_awaitObfuscate _ _) fun _ => ?_
    exact always_of_refuses (refuses_emitDataOutput ..)
  | multisign =>
    refine always_notRace_bind (always_awaitObfuscate _ _) fun _ => fun _ _ _ _ => ?_
    exact always_of_refuses (refuses_emitMultisignOutput ..)
  | taproot => exact always_of_refuses (refuses_emitEnvelopeCommit ..)
  | p2sh =>
    refine always_notRace_bind (always_of_refuses (refuses_loadFundingTx _)) fun e' => ?_
    cases plan.request.p2shHash with
    | none => exact always_of_refuses (refuses_fundP2shLeg ..)
    | some hash => exact always_spendP2shLeg _ _ _
  | p2wsh =>
    refine always_notRace_bind (always_of_refuses (refuses_loadFundingTx _)) fun e' => ?_
    cases plan.request.p2shHash with
    | none => exact always_of_refuses (refuses_fundP2wshLeg ..)
    | some hash => exact always_spendP2wshLeg _ _ _

theorem always_emitDataOutputs (chunks : List Bytes) (e : Emission) :
    Always (fun _ => True) NotRace (emitDataOutputs enc plan price chunks e) := by
  induction chunks generalizing e with
  | nil => trivial
  | cons chunk rest ih => exact always_notRace_bind (always_emitChunk e chunk) fun e' => ih e'

theorem always_emitOutputs : Always (fun _ => True) NotRace (emitOutputs enc plan) := by
  refine always_notRace_bind (always_of_refuses (refuses_priceRevealCustomOutputs ..)) fun price => ?_
  refine always_notRace_bind (always_emitDataOutputs _ _) fun e => ?_
  exact always_notRace_bind (always_of_refuses (refuses_emitCustomOutputs e)) fun _ => trivial

/-! ## Selection -/

theorem always_request (q : Rpc) : Always (fun _ => True) NotRace (Coro.request (σ := sig) q) := by
  intro r hr
  cases r with
  | ok a => trivial
  | error e => exact hr e rfl

theorem refuses_assertPrevOutValueMatches (hex : Text) (u : Utxo) (fetched : Bool) :
    Refuses NotRace (assertPrevOutValueMatches enc hex u fetched) := by
  have hwrong : ∀ problem, NotRace (wrongPrevOut fetched problem) := fun problem => by
    unfold wrongPrevOut
    split_ifs
    · exact notRace_operational (by decide) _
    · exact notRace_paramRange _
  unfold assertPrevOutValueMatches
  dsimp only
  split
  · exact refuses_error (hwrong _)
  · split
    · exact refuses_error (hwrong _)
    · split_ifs
      · exact refuses_ok _
      · exact refuses_error (hwrong _)

theorem always_checkedPrevTx (u : Utxo) :
    Always (fun _ => True) NotRace (checkedPrevTx enc plan u) :=
  always_notRace_bind (always_request _) fun _ =>
    always_of_refuses (refuses_assertPrevOutValueMatches ..)

theorem always_selectedInput (u : Utxo) (nestedRedeem : Option Bytes) :
    Always (fun _ => True) NotRace (selectedInput enc plan u nestedRedeem) := by
  unfold selectedInput
  dsimp only
  split_ifs
  · exact always_notRace_bind (always_checkedPrevTx u) fun _ => trivial
  · trivial
  · exact always_notRace_bind (always_checkedPrevTx u) fun _ => trivial

theorem refuses_refuseUnsignableInput (encoding : Encoding) (u : Utxo) :
    Refuses NotRace (refuseUnsignableInput enc encoding u) :=
  refuses_bind (refuses_ensure (notRace_paramType _)) fun _ => refuses_ensure (notRace_paramType _)

theorem refuses_add (acc : Selection) (u : Utxo) (input : PsbtInput) (nested : Bool) :
    Refuses NotRace (acc.add enc plan emitted u input nested) :=
  refuses_bind (refuses_addInput ..) fun _ => refuses_ok _

theorem notRace_remainingCandidatesCanFund {required : ℤ} {now : ℕ} (us : List Utxo) (index : ℕ)
    (available : ℤ) (s : Reservations) {e : BuildError}
    (h : (remainingCandidatesCanFund plan required now index us available s).1 = .error e) :
    NotRace e := by
  induction us generalizing index available s with
  | nil => cases h
  | cons u us ih =>
    simp only [remainingCandidatesCanFund] at h
    generalize (if (!plan.request.exactInputs &&
        decide (plan.bound.firstReservedOutpoint ≠ some (outpointKey u))) = true then
          s.isOutpointReserved (outpointKey u) now else (false, s)) = r at h
    split_ifs at h
    · exact ih _ _ _ h
    · split at h
      · rename_i e' hvalue
        cases h
        exact (refuses_parseSatoshiAmount ..).error _ hvalue
      · split_ifs at h
        exact ih _ _ _ h

theorem notRace_cappedSelectionError (outputSatoshis : ℤ) (now index : ℕ) (rest : List Utxo)
    (acc : Selection) (s : Reservations) :
    NotRace (cappedSelectionError enc plan outputSatoshis now index rest acc s).1 := by
  unfold cappedSelectionError
  dsimp only
  split
  · rename_i e s' heq
    exact notRace_remainingCandidatesCanFund rest index acc.inputSatoshis s (congrArg Prod.fst heq)
  · exact notRace_paramRange _
  · exact notRace_operational (by decide) _

theorem always_refuseCappedSelection (outputSatoshis : ℤ) (now index : ℕ) (rest : List Utxo)
    (acc : Selection) : Always (fun _ => True) NotRace
      (refuseCappedSelection enc plan outputSatoshis now index rest acc) := by
  unfold refuseCappedSelection
  split_ifs
  · trivial
  · intro s l
    show NotRace (cappedSelectionError enc plan outputSatoshis now index rest acc s).1
    exact notRace_cappedSelectionError _ _ _ _ _ _

/-- One candidate refuses with another error. -/
theorem always_selectStep (now index : ℕ) (u : Utxo) (rest : List Utxo) (acc : Selection) :
    Always (fun _ => True) NotRace (selectStep enc plan emitted now index u rest acc) := by
  rw [selectStep_eq]
  refine always_notRace_bind (always_refuseCappedSelection ..) fun _ => ?_
  refine always_notRace_bind (always_of_refuses (refuses_refuseUnsignableInput ..)) fun _ => ?_
  intro s l
  show Always _ _ (if _ then _ else _)
  split_ifs
  · trivial
  · refine always_notRace_bind (always_of_refuses (refuses_parseSatoshiAmount ..)) fun _ => ?_
    refine always_notRace_bind (always_selectedInput u _) fun input => ?_
    exact always_notRace_bind (always_of_refuses (refuses_add ..)) fun _ => trivial

theorem refuses_initSelection (fee : Option ℤ) : Refuses NotRace (initSelection fee emitted) := by
  cases fee with
  | none => exact refuses_ok _
  | some f => exact refuses_bind (refuses_map (refuses_parseSatoshiAmount ..)) fun _ => refuses_ok _

theorem refuses_refuseEmptySelection (acc : Selection) :
    Refuses NotRace (refuseEmptySelection acc) := by
  refine refuses_bind (refuses_ensure (notRace_paramRange _)) fun _ => refuses_ensure ?_
  exact notRace_operational (by decide) _

/-! ## Settlement -/

theorem refuses_refuseInsufficientRelayFee :
    Refuses NotRace (refuseInsufficientRelayFee enc plan emitted sel) := by
  refine refuses_ensure (notRace_ite (notRace_plain _) ?_)
  exact notRace_ite (notRace_paramRange _) (notRace_paramRange _)

theorem refuses_refuseExcessiveFee :
    Refuses NotRace (refuseExcessiveFee enc plan emitted sel) := by
  unfold refuseExcessiveFee
  split_ifs
  · refine refuses_bind ?_ fun _ => refuses_ensure (notRace_paramRange _)
    cases plan.rates.capFeePerBytes with
    | none => exact refuses_ok _
    | some cap => exact refuses_ensure (notRace_paramRange _)
  · exact refuses_ok _

theorem refuses_raiseOutputValue (psbt : Psbt) (i : ℕ) (extra : ℤ) :
    Refuses NotRace (psbt.raiseOutputValue i extra) := by
  refine refuses_bind (refuses_ensure (notRace_plain _)) fun _ => ?_
  split
  · exact refuses_error (notRace_plain _)
  · exact refuses_ok _

theorem refuses_prefundRevealPackage (up : Uplifted) (estimatedFee : ℤ) :
    Refuses NotRace (prefundRevealPackage enc plan emitted sel up estimatedFee) := by
  have happly : ∀ prefund allowed,
      Refuses NotRace (applyRevealPrefund emitted sel prefund allowed) := fun prefund allowed => by
    unfold applyRevealPrefund
    split_ifs
    · exact refuses_bind (refuses_raiseOutputValue ..) fun _ => refuses_ok _
    · exact refuses_ok _
  unfold prefundRevealPackage
  split
  · exact refuses_ok _
  · dsimp only
    split_ifs
    · exact happly ..
    · exact refuses_ok _
    · exact refuses_ok _

theorem refuses_computeChange (outputSatoshis estimatedFee : ℤ) :
    Refuses NotRace (computeChange enc plan sel outputSatoshis estimatedFee) := by
  refine refuses_bind (refuses_ensure (notRace_operational (by decide) _)) fun _ => ?_
  exact refuses_bind (refuses_ensure (notRace_operational (by decide) _)) fun _ => refuses_ok _

theorem refuses_emitChangeAndPad (change : ℤ) (psbt : Psbt) :
    Refuses NotRace (emitChangeAndPad enc plan change psbt) := by
  have hchange : Refuses NotRace (emitChange enc plan change psbt) := by
    unfold emitChange
    split
    · split_ifs
      · exact refuses_addAddressOutput ..
      · exact refuses_ok _
    · exact refuses_ok _
  refine refuses_bind hchange fun psbt => ?_
  unfold emitRevealPad
  split
  · split_ifs
    · refine refuses_bind (refuses_changeOrCaller _) fun address => ?_
      split_ifs
      · exact refuses_ok _
      · exact refuses_addAddressOutput ..
    · exact refuses_ok _
  · exact refuses_ok _

theorem refuses_settleChange (up : Uplifted) :
    Refuses NotRace (settleChange enc plan emitted sel up) := by
  refine refuses_bind (refuses_prefundRevealPackage ..) fun prefunded => ?_
  refine refuses_bind (refuses_computeChange ..) fun change => ?_
  refine refuses_bind (refuses_emitChangeAndPad ..) fun psbt => ?_
  refine refuses_bind (refuses_ensure ?_) fun _ => refuses_ok _
  exact notRace_operational (by decide) _

theorem always_upliftForAncestors :
    Always (fun _ => True) NotRace (upliftForAncestors enc plan emitted sel) := by
  unfold upliftForAncestors
  split_ifs
  · exact fun _ _ => trivial
  · trivial

theorem always_sweepP2shReveal (estimatedFee : ℤ) (psbt : Psbt) :
    Always (fun _ => True) NotRace (sweepP2shReveal enc plan emitted estimatedFee psbt) := by
  unfold sweepP2shReveal
  split
  · rename_i hash hhash
    split_ifs
    · refine always_notRace_bind ?_ fun kept => always_of_refuses ?_
      · unfold upliftRevealForCommit
        split_ifs
        · intro reply _
          cases reply with
          | error e => trivial
          | ok package =>
            cases package with
            | none => trivial
            | some package =>
              show Always _ _ (if _ then _ else _)
              split_ifs <;> trivial
        · trivial
      · unfold emitSweep
        dsimp only
        split_ifs
        · refine refuses_bind (refuses_changeOrCaller _) fun address => ?_
          split_ifs
          · exact refuses_ok _
          · exact refuses_addAddressOutput ..
        · exact refuses_ok _
    · trivial
  · trivial

theorem refuses_buildEnvelopeReveal (context : Option EnvelopeContext) :
    Refuses NotRace (buildEnvelopeReveal enc plan psbt context) := by
  cases context with
  | none => exact refuses_ok _
  | some context =>
    refine refuses_map (refuses_bind (refuses_unsignedTxid ..) fun txid => ?_)
    refine refuses_bind (refuses_addInput ..) fun psbt => ?_
    refine refuses_bind (refuses_addAddressOutput ..) fun psbt => ?_
    dsimp only
    split_ifs
    · exact refuses_bind (refuses_addAddressOutput ..) fun _ => refuses_ok _
    · exact refuses_ok _

theorem always_settleBuild :
    Always (fun _ => True) NotRace (settleBuild enc plan price emitted sel) := by
  refine always_notRace_bind (always_of_refuses refuses_refuseInsufficientRelayFee) fun _ => ?_
  refine always_notRace_bind (always_of_refuses refuses_refuseExcessiveFee) fun _ => ?_
  refine always_notRace_bind always_upliftForAncestors fun up => ?_
  refine always_notRace_bind (always_of_refuses (refuses_settleChange up)) fun r => ?_
  refine always_notRace_bind (always_sweepP2shReveal ..) fun psbt => ?_
  exact always_notRace_bind (always_of_refuses (refuses_buildEnvelopeReveal _)) fun _ => trivial

/-- A duplicate is another refusal. -/
theorem notRace_finishBuild (b : Built) : Always (fun _ => True) NotRace (finishBuild enc b) := by
  rw [finishBuild_eq]
  intro now s l
  refine always_notRace_bind (always_of_refuses (refuses_unsignedTxid ..)) fun txid => ?_
  have hduplicate : Refuses NotRace (s.refuseDuplicateBuild txid now).1 := by
    unfold Reservations.refuseDuplicateBuild
    dsimp only
    split_ifs
    · exact refuses_error (notRace_operational (by decide) _)
    · exact refuses_ok _
  generalize s.refuseDuplicateBuild txid now = r at hduplicate
  obtain ⟨_ | _, s'⟩ := r
  · exact hduplicate.error _ rfl
  · trivial

end XChain
