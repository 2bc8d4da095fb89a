import XChainEncoder.BuildStages
import XChainEncoder.SelectionCoverage

/-!
# Envelope reveals

The reveal that a TAPROOT build returns, against the commit it returns with it.

* `Extends`: outputs are only appended, and inputs stay;
* `CommitsFirst`: the commit's first output is the envelope's, at the value the reveal signs over;
  `commitsFirst_emitOutputs`, `commitsFirst_settleChange`: emission makes it, settlement keeps it;
* `NativeInput`, `native_selection`: **every input of a commit is a native witness program**;
* `Signs`, `signs_txid`: signing such inputs leaves the txid as it is;
* `envelopeReveal_spendable`: **the reveal of every TAPROOT result spends its commit, however the
  commit is signed**.
-/

namespace XChain

open PushScript Coroutine

/-! ## Appended outputs -/

/-- The inputs stay, and outputs are appended. -/
structure Extends (psbt psbt' : Psbt) : Prop where
  inputs : psbt'.inputs = psbt.inputs
  outputs : psbt.outputs <+: psbt'.outputs

section Extends

variable {enc : Encoder} {plan : Plan} {psbt psbt' psbt'' : Psbt}

theorem Extends.refl (psbt : Psbt) : Extends psbt psbt := ⟨rfl, List.prefix_rfl⟩

theorem Extends.trans (h : Extends psbt psbt') (h' : Extends psbt' psbt'') : Extends psbt psbt'' :=
  ⟨h'.inputs.trans h.inputs, h.outputs.trans h'.outputs⟩

theorem Extends.output (h : Extends psbt psbt') {i : ℕ} {out : TxOut}
    (hout : psbt.outputs[i]? = some out) : psbt'.outputs[i]? = some out := by
  obtain ⟨more, hmore⟩ := h.outputs
  rw [← hmore]
  exact (List.getElem?_append_left (List.getElem?_eq_some_iff.mp hout).1).trans hout

theorem extends_addOutput {script : Bytes} {value : ℤ} {plainNumber : Bool}
    (h : psbt.addOutput script value plainNumber = .ok psbt') : Extends psbt psbt' := by
  obtain ⟨-, -, rfl⟩ := Psbt.addOutput_eq_ok.mp h
  exact ⟨rfl, List.prefix_append ..⟩

theorem extends_addAddressOutput {L : Library} {network : Network} {address : Text} {value : ℤ}
    {plainNumber : Bool} (h : psbt.addAddressOutput L network address value plainNumber = .ok psbt') :
    Extends psbt psbt' := by
  obtain ⟨script, -, h⟩ := Psbt.addAddressOutput_eq_ok.mp h
  exact extends_addOutput h

theorem extends_emitPayments {feeQuoteIndex : Option ℕ} (outputs : List CustomOutput) (i : ℕ)
    (acc acc' : Psbt × ℤ × ℕ) (h : emitPayments enc feeQuoteIndex outputs i acc = .ok acc') :
    Extends acc.1 acc'.1 := by
  induction outputs generalizing i acc with
  | nil =>
    cases h
    exact .refl _
  | cons output outputs ih =>
    obtain ⟨psbt, outputSatoshis, size⟩ := acc
    obtain ⟨v, psbt', -, -, hp, h⟩ := emitPayments_cons.mp h
    exact (extends_addAddressOutput hp).trans (ih _ _ h)

theorem extends_emitChange {change : ℤ} (h : emitChange enc plan change psbt = .ok psbt') :
    Extends psbt psbt' := by
  unfold emitChange at h
  split at h
  · split_ifs at h
    · exact extends_addAddressOutput h
    · cases h
      exact .refl _
  · cases h
    exact .refl _

theorem extends_emitRevealPad (h : emitRevealPad enc plan psbt = .ok psbt') : Extends psbt psbt' := by
  unfold emitRevealPad at h
  split at h
  · split_ifs at h
    · simp only [bind_eq_ok] at h
      obtain ⟨address, -, h⟩ := h
      split_ifs at h
      · cases h
        exact .refl _
      · exact extends_addAddressOutput h
    · cases h
      exact .refl _
  · cases h
    exact .refl _

end Extends

/-! ## The commit output -/

/-- The commit's first output is the envelope's, at the value that pays the reveal's fee and outputs. -/
structure CommitsFirst (enc : Encoder) (psbt : Psbt) (context : EnvelopeContext) : Prop where
  output : psbt.outputs[0]? = some ⟨context.commitScript, context.commitValue⟩
  script : p2trScript enc.lib context.internalPubkey context.envelopeScript =
    some context.commitScript
  value : context.commitValue = context.revealFee + enc.dustAmount +
    (if context.revealPadNeeded then enc.dustAmount else 0)

theorem CommitsFirst.extends {enc : Encoder} {psbt psbt' : Psbt} {context : EnvelopeContext}
    (h : CommitsFirst enc psbt context) (he : Extends psbt psbt') : CommitsFirst enc psbt' context :=
  ⟨he.output h.output, h.script, h.value⟩

/-- The envelope of a commit with its outputs in place. -/
structure EnvelopeEmitted (enc : Encoder) (plan : Plan) (emitted : Emitted) : Prop where
  commits : ∃ context prefund, emitted.emission.envelopeContext = some context ∧
    emitted.emission.revealPrefund = some prefund ∧ prefund.outputIndex = 0 ∧
    plan.prepared.dataBufferArray = [context.envelopeScript] ∧
    CommitsFirst enc emitted.psbt context
  inputs : emitted.psbt.inputs = []

section Commit

variable {enc : Encoder} {plan : Plan} {emitted : Emitted} {request : TxRequest}

theorem Planned.taproot (h : Planned enc request plan) (ht : plan.prepared.encoding = .taproot) :
    plan.isReveal = false ∧ plan.isP2shFamily = false ∧
      ∃ script, plan.prepared.dataBufferArray = [script] := by
  obtain ⟨pre, bound, hpre, hplan⟩ := h.prepared
  refine ⟨by simp [Plan.isReveal, h.request_eq, (h.envelope ht).1], by simp [Plan.isP2shFamily, ht], ?_⟩
  obtain ⟨prepared, hprepared, heq⟩ := bind_eq_ok.mp hplan
  cases heq
  unfold prepareDataChunks at hprepared
  split_ifs at hprepared
  · exact (prepareData_taproot hprepared ht).2
  · cases hprepared
    cases ht

theorem emitEnvelopeCommit_first {e e' : Emission} {script : Bytes}
    (hpsbt : e.psbt = some Psbt.empty) (h : emitEnvelopeCommit enc plan e script = .ok e') :
    ∃ context prefund psbt, e'.envelopeContext = some context ∧ e'.revealPrefund = some prefund ∧
      prefund.outputIndex = 0 ∧ context.envelopeScript = script ∧ e'.psbt = some psbt ∧
      psbt.inputs = [] ∧ CommitsFirst enc psbt context := by
  simp only [emitEnvelopeCommit, bind_eq_ok, requirePsbt_eq_ok] at h
  obtain ⟨psbt, hp, h⟩ := h
  cases hp.symm.trans hpsbt
  split at h
  · cases h
  · rename_i commitScript hscript
    simp only [bind_eq_ok] at h
    obtain ⟨address, -, e'', hout, heq⟩ := h
    cases heq
    simp only [emitDataOutput, bind_eq_ok, requirePsbt_eq_ok] at hout
    obtain ⟨_, hp', psbt', hadd, heq⟩ := hout
    cases hp.symm.trans hp'
    cases heq
    obtain ⟨-, -, rfl⟩ := Psbt.addOutput_eq_ok.mp hadd
    exact ⟨_, _, _, rfl, rfl, rfl, rfl, rfl, rfl, rfl, hscript, rfl⟩

/-- **Emission puts the envelope's output first.** -/
theorem commitsFirst_emitOutputs (hplan : Planned enc request plan)
    (ht : plan.prepared.encoding = .taproot) :
    Returns (fun r => EnvelopeEmitted enc plan r.2) (emitOutputs enc plan) := by
  obtain ⟨hreveal, hfamily, script, hchunk⟩ := hplan.taproot ht
  refine .bind_right fun price => ?_
  rw [hchunk]
  have hdata : Returns (fun e => ∃ context prefund psbt, e.envelopeContext = some context ∧
      e.revealPrefund = some prefund ∧ prefund.outputIndex = 0 ∧ context.envelopeScript = script ∧
      e.psbt = some psbt ∧ psbt.inputs = [] ∧ CommitsFirst enc psbt context)
      (emitDataOutputs enc plan price [script] (Emission.start plan price)) := by
    refine Returns.bind ?_ fun e he => he
    unfold emitChunk
    rw [ht]
    refine returns_ofExcept fun e he => emitEnvelopeCommit_first ?_ he
    simp [Emission.start, hreveal]
  refine .bind hdata fun e he => .bind (returns_ofExcept fun _ h => h) fun emitted hemitted => ?_
  obtain ⟨context, prefund, psbt, hcontext, hprefund, hindex, hleaf, hpsbt, hinputs, hfirst⟩ := he
  simp only [emitCustomOutputs, bind_eq_ok, requirePsbt_eq_ok] at hemitted
  obtain ⟨psbt', hpsbt', acc, hacc, heq⟩ := hemitted
  cases heq
  cases hpsbt.symm.trans hpsbt'
  have hext := extends_emitPayments _ _ _ _ hacc
  exact ⟨⟨context, prefund, hcontext, hprefund, hindex, hleaf ▸ hchunk, hfirst.extends hext⟩,
    hext.inputs.trans hinputs⟩

/-- **The prefund raises the envelope's output, and the value the reveal signs over, by the same
amount.** -/
theorem commitsFirst_prefund {sel : Selection} {up : Uplifted} {fee : ℤ} {pre : Prefunded}
    {context : EnvelopeContext} {prefund : RevealPrefund}
    (hcontext : emitted.emission.envelopeContext = some context)
    (hprefund : emitted.emission.revealPrefund = some prefund) (hindex : prefund.outputIndex = 0)
    (hfirst : CommitsFirst enc sel.psbt context)
    (h : prefundRevealPackage enc plan emitted sel up fee = .ok pre) :
    ∃ context', pre.envelopeContext = some context' ∧ CommitsFirst enc pre.psbt context' ∧
      context'.envelopeScript = context.envelopeScript ∧ pre.psbt.inputs = sel.psbt.inputs := by
  unfold prefundRevealPackage at h
  simp only [hprefund] at h
  split_ifs at h
  · unfold applyRevealPrefund at h
    split_ifs at h
    · obtain ⟨psbt, hraise, heq⟩ := bind_eq_ok.mp h
      cases heq
      obtain ⟨hpos, out, hout, rfl⟩ := Psbt.raiseOutputValue_eq_ok.mp hraise
      rw [hindex, hfirst.output] at hout
      cases hout
      rw [hcontext, hindex]
      refine ⟨_, rfl, ⟨?_, hfirst.script, ?_⟩, rfl, rfl⟩
      · exact List.getElem?_set_self (List.getElem?_eq_some_iff.mp hfirst.output).1
      · have := hfirst.value
        dsimp only
        omega
    · cases h
      exact ⟨context, hcontext, hfirst, rfl, rfl⟩
  · cases h
    exact ⟨context, hcontext, hfirst, rfl, rfl⟩
  · cases h
    exact ⟨context, hcontext, hfirst, rfl, rfl⟩

/-- **Settlement keeps the envelope's output first.** -/
theorem commitsFirst_settleChange {sel : Selection} {up : Uplifted} {r : Prefunded × ℤ × Psbt}
    {context : EnvelopeContext} {prefund : RevealPrefund}
    (hcontext : emitted.emission.envelopeContext = some context)
    (hprefund : emitted.emission.revealPrefund = some prefund) (hindex : prefund.outputIndex = 0)
    (hfirst : CommitsFirst enc sel.psbt context)
    (h : settleChange enc plan emitted sel up = .ok r) :
    ∃ context', r.1.envelopeContext = some context' ∧ CommitsFirst enc r.2.2 context' ∧
      context'.envelopeScript = context.envelopeScript ∧ r.2.2.inputs = sel.psbt.inputs := by
  simp only [settleChange, emitChangeAndPad, bind_eq_ok] at h
  obtain ⟨pre, hpre, change, -, psbt, ⟨psbt₁, hchange, hpad⟩, _, -, heq⟩ := h
  cases heq
  obtain ⟨context', hcontext', hfirst', hleaf, hinputs⟩ :=
    commitsFirst_prefund hcontext hprefund hindex hfirst hpre
  have hext := (extends_emitChange hchange).trans (extends_emitRevealPad hpad)
  exact ⟨context', hcontext', hfirst'.extends hext, hleaf, hext.inputs.trans hinputs⟩

end Commit

/-! ## Native inputs -/

/-- A witness program that is not nested in a script hash. -/
structure NativeInput (i : PsbtInput) : Prop where
  witness : ∃ out, i.witnessUtxo = some out ∧ isSegwitScript out.script = true
  redeem : i.redeemScript = none

theorem isP2shShape_of_segwit {script : Bytes} (h : isSegwitScript script = true) :
    isP2shShape script = false := by
  by_contra hshape
  rw [Bool.not_eq_false] at hshape
  simp only [isP2shShape, Bool.and_eq_true, decide_eq_true_eq, List.isPrefixOf_iff_prefix] at hshape
  obtain ⟨rest, rfl⟩ := hshape.1.2
  -- The first element of a script hash is `OP_HASH160`.
  have hread : decompile ([0xa9, 0x14] ++ rest) =
      (decompileFrom (rest.length + 1) (0x14 :: rest)).map (.op 0xa9 :: ·) := by
    simp [decompile, decompileFrom]
  unfold isSegwitScript at h
  rw [hread] at h
  cases hrest : decompileFrom (rest.length + 1) (0x14 :: rest) with
  | none => simp [hrest] at h
  | some elements =>
    rw [hrest] at h
    simp only [Option.map_some] at h
    split at h
    · rename_i version program heq
      cases heq
      simp [isVersionElement] at h
    · cases h

section Inputs

variable {enc : Encoder} {plan : Plan} {emitted : Emitted}

theorem native_inputFor {u : Utxo} {input : PsbtInput} (hsegwit : isSegwitUTXO u = true)
    (h : InputFor enc plan u input) : NativeInput input := by
  have hnested : nestedRedeem enc plan u = none := by
    unfold nestedRedeem nestedP2wpkhRedeem
    rw [isP2shShape_of_segwit (show isSegwitScript u.scriptPubKey = true from hsegwit)]
    split_ifs <;> simp_all
  obtain ⟨hwitness, hredeem⟩ := h.witness (by simp [hsegwit])
  exact ⟨⟨_, hwitness, hsegwit⟩, hredeem.trans hnested⟩

/-- What selection keeps of a commit: its outputs, and that its inputs are native. -/
def CommitSelection (emitted : Emitted) (sel : Selection) : Prop :=
  sel.psbt.outputs = emitted.psbt.outputs ∧ ∀ i ∈ sel.psbt.inputs, NativeInput i

theorem commitSelection_invariant (ht : plan.prepared.encoding = .taproot) :
    SelectionInvariant enc plan emitted (CommitSelection emitted) where
  skip _ h := h
  add u acc acc' _ h hadds := by
    obtain ⟨input, hinput, hadd⟩ := hadds.input
    obtain ⟨psbt, hpsbt, hacc⟩ := bind_eq_ok.mp hadd
    cases hacc
    obtain ⟨-, -, rfl⟩ := Psbt.addInput_eq_ok.mp hpsbt
    have hsegwit : isSegwitUTXO u = true := by
      obtain ⟨_, hkind, -⟩ := bind_eq_ok.mp hadds.signable
      simpa [ht] using ensure_eq_ok.mp hkind
    refine ⟨h.1, fun i hi => ?_⟩
    rcases List.mem_append.mp hi with hi | hi
    · exact h.2 i hi
    · have hnative := native_inputFor hsegwit hinput
      rw [List.mem_singleton.mp hi]
      exact ⟨hnative.witness, hnative.redeem⟩

end Inputs

/-! ## Signing -/

/-- An input of a signed transaction. -/
structure SignedInput where
  input : TxIn
  scriptSig : Bytes
  witness : List Bytes

/-- The unsigned form of an input. -/
def PsbtInput.unsigned (i : PsbtInput) : TxIn := ⟨i.hash, i.index, some i.sequence⟩

/-- The transaction signed: each input spends what it did, and native inputs have no script. -/
def Signs (psbt : Psbt) (signed : List SignedInput) : Prop :=
  List.Forall₂ (fun i s => s.input = i.unsigned ∧ (NativeInput i → s.scriptSig = [])) psbt.inputs
    signed

theorem signs_stripped {psbt : Psbt} {signed : List SignedInput} (h : Signs psbt signed)
    (hnative : ∀ i ∈ psbt.inputs, NativeInput i) :
    signed.map (fun s => (s.input, s.scriptSig)) =
      (psbt.inputs.map PsbtInput.unsigned).map fun i => (i, []) := by
  unfold Signs at h
  generalize psbt.inputs = inputs at h hnative
  induction h with
  | nil => rfl
  | cons h _ ih =>
    rw [List.map_cons, List.map_cons, List.map_cons, h.1, h.2 (hnative _ List.mem_cons_self)]
    rw [ih fun i hi => hnative i (List.mem_cons_of_mem _ hi)]

/-- **A signed transaction of native inputs has the unsigned one's id**, where ids hash everything
but the witnesses. -/
theorem signs_txid {enc : Encoder} {psbt : Psbt} {signed : List SignedInput} {commitTxid : Text}
    (hnative : ∀ i ∈ psbt.inputs, NativeInput i) (hunsigned : psbt.unsignedTxid enc.lib = .ok commitTxid)
    (h : Signs psbt signed) (txid : List (TxIn × Bytes) → List TxOut → Text)
    (htxid : ∀ ins outs, txid (ins.map fun i => (i, [])) outs = enc.lib.getId ins outs) :
    txid (signed.map fun s => (s.input, s.scriptSig)) psbt.outputs = commitTxid := by
  rw [signs_stripped h hnative, htxid]
  obtain ⟨_, -, heq⟩ := bind_eq_ok.mp hunsigned
  exact Except.ok.inj heq

/-! ## Results -/

/-- The reveal of a result spends its commit. -/
structure SpendsCommit (enc : Encoder) (r : TxResult) (reveal : Psbt) (e : EnvelopeResult) (vout : ℕ)
    (out : TxOut) : Prop where
  revealPsbt : r.revealPsbt = some reveal
  envelope : r.envelope = some e
  leaf : r.carrierScripts = some [e.envelopeScript]
  txid : r.psbt.unsignedTxid enc.lib = .ok e.commitTxid
  index : e.commitVout = some vout
  output : r.psbt.outputs[vout]? = some out
  script : p2trScript enc.lib e.internalPubkey e.envelopeScript = some out.script
  value : e.commitValue = out.value
  input : ∃ input, reveal.inputs = [input] ∧ input.hash = lower e.commitTxid ∧ input.index = vout ∧
    input.witnessUtxo = some out
  native : ∀ i ∈ r.psbt.inputs, NativeInput i
  signed : ∀ (txid : List (TxIn × Bytes) → List TxOut → Text)
    (_ : ∀ ins outs, txid (ins.map fun i => (i, [])) outs = enc.lib.getId ins outs)
    (signed : List SignedInput), Signs r.psbt signed →
    txid (signed.map fun s => (s.input, s.scriptSig)) r.psbt.outputs = e.commitTxid

section Results

variable {enc : Encoder} {request : TxRequest}

theorem buildRevealPsbt_spends {plan : Plan} {psbt : Psbt} {context : EnvelopeContext}
    {reveal : EnvelopeReveal} (hfirst : CommitsFirst enc psbt context)
    (h : buildRevealPsbt enc plan psbt context = .ok reveal) :
    psbt.unsignedTxid enc.lib = .ok reveal.result.commitTxid ∧
      reveal.result.commitVout = some 0 ∧ reveal.result.commitValue = context.commitValue ∧
      reveal.result.internalPubkey = context.internalPubkey ∧
      reveal.result.envelopeScript = context.envelopeScript ∧
      ∃ input, reveal.revealPsbt.inputs = [input] ∧ input.hash = lower reveal.result.commitTxid ∧
        input.index = 0 ∧ input.witnessUtxo = some ⟨context.commitScript, context.commitValue⟩ := by
  have hvout : commitVout psbt context = some 0 := by
    unfold commitVout
    cases houtputs : psbt.outputs with
    | nil =>
      have := hfirst.output
      rw [houtputs] at this
      cases this
    | cons out outs =>
      have := hfirst.output
      rw [houtputs] at this
      cases this
      simp [List.findIdx?_cons]
  obtain ⟨commitTxid, htxid, h₁⟩ := bind_eq_ok.mp h
  obtain ⟨psbt₁, hinput, h₂⟩ := bind_eq_ok.mp h₁
  obtain ⟨psbt₂, hchange, h₃⟩ := bind_eq_ok.mp h₂
  obtain ⟨-, -, rfl⟩ := Psbt.addInput_eq_ok.mp hinput
  have hext := extends_addAddressOutput hchange
  have hdone : ∃ psbt₃, Extends psbt₂ psbt₃ ∧ reveal = ⟨psbt₃, ⟨commitTxid, commitVout psbt context,
      context.commitValue, context.internalPubkey, context.envelopeScript, context.revealFee⟩⟩ := by
    dsimp only at h₃
    split_ifs at h₃
    · obtain ⟨psbt₃, hpad, h₄⟩ := bind_eq_ok.mp h₃
      cases h₄
      exact ⟨psbt₃, extends_addAddressOutput hpad, rfl⟩
    · cases h₃
      exact ⟨psbt₂, .refl _, rfl⟩
  obtain ⟨psbt₃, hext', rfl⟩ := hdone
  refine ⟨htxid, hvout, rfl, rfl, rfl, _, (hext.trans hext').inputs, rfl, ?_, rfl⟩
  rw [hvout]
  rfl

/-- A settled TAPROOT build has built its reveal over a commit with the envelope's output first. -/
theorem Settled.reveal {b : Built} (hsettled : Settled enc b) (hplanned : Planned enc request b.plan)
    (ht : b.plan.prepared.encoding = .taproot) (hemitted : EnvelopeEmitted enc b.plan b.emitted)
    (houtputs : b.selection.psbt.outputs = b.emitted.psbt.outputs) :
    ∃ context reveal, CommitsFirst enc b.psbt context ∧
      buildRevealPsbt enc b.plan b.psbt context = .ok reveal ∧ b.envelope = some reveal ∧
      b.plan.prepared.dataBufferArray = [context.envelopeScript] ∧
      b.psbt.inputs = b.selection.psbt.inputs := by
  obtain ⟨⟨context, prefund, hcontext, hprefund, hindex, hleaf, hfirst⟩, -⟩ := hemitted
  have hselfirst : CommitsFirst enc b.selection.psbt context :=
    ⟨houtputs ▸ hfirst.output, hfirst.script, hfirst.value⟩
  obtain ⟨context', hcontext', hfirst', hleaf', hinputs⟩ :=
    commitsFirst_settleChange hcontext hprefund hindex hselfirst hsettled.change
  have hswept := hsettled.swept (hplanned.request_eq ▸ (hplanned.envelope ht).1)
  rw [← hswept] at hfirst' hinputs
  have henvelope := hsettled.envelope
  rw [hcontext'] at henvelope
  simp only [buildEnvelopeReveal] at henvelope
  cases hr : buildRevealPsbt enc b.plan b.psbt context' with
  | error e =>
    rw [hr] at henvelope
    cases henvelope
  | ok reveal =>
    rw [hr] at henvelope
    exact ⟨context', reveal, hfirst', hr, (Except.ok.inj henvelope).symm, hleaf' ▸ hleaf, hinputs⟩

theorem returns_taprootStages : Returns (Staged enc request
      (fun plan _ emitted => plan.prepared.encoding = .taproot → EnvelopeEmitted enc plan emitted)
      (fun plan emitted sel => plan.prepared.encoding = .taproot → CommitSelection emitted sel))
    (buildSteps enc request) := by
  refine returns_buildSteps (fun plan hplan => ?_) fun plan price emitted start hplan hE hstart => ?_
  · by_cases ht : plan.prepared.encoding = .taproot
    · exact always_mono (fun _ h _ => h) (fun _ h => h) (commitsFirst_emitOutputs hplan ht)
    · exact always_mono (fun _ _ h => absurd h ht) (fun _ h => h) always_true
  · by_cases ht : plan.prepared.encoding = .taproot
    · have hpsbt := initSelection_psbt hstart
      have hempty : CommitSelection emitted start := by
        rw [CommitSelection, hpsbt, (hE ht).inputs]
        exact ⟨rfl, by rintro i ⟨⟩⟩
      exact always_mono (fun sel h _ => h.invariant (hplan.taproot ht).1) (fun _ h => h)
        (returns_selectFundingInputs (commitSelection_invariant ht) hempty)
    · exact always_mono (fun _ _ h => absurd h ht) (fun _ h => h) always_true

/-- **A TAPROOT build returns a reveal that spends its commit.** -/
theorem returns_envelopeReveal (enc : Encoder) (request : TxRequest) :
    Returns (fun r => r.encoding = .taproot →
      ∃ reveal e vout out, SpendsCommit enc r reveal e vout out) (createTransaction enc request) := by
  refine always_mono ?_ (fun _ h => h) (returns_createTransaction (returns_taprootStages))
  rintro r ⟨b, receipt, hb, rfl⟩ ht
  have ht : b.plan.prepared.encoding = .taproot := ht
  obtain ⟨houtputs, hnative⟩ := hb.selected ht
  obtain ⟨context, reveal, hfirst, hreveal, hb', hleaf, hinputs⟩ :=
    hb.settled.reveal hb.planned ht (hb.emitted ht) houtputs
  obtain ⟨htxid, hvout, hvalue, hkey, hscript, hinput⟩ := buildRevealPsbt_spends hfirst hreveal
  have hnative' : ∀ i ∈ b.psbt.inputs, NativeInput i := fun i hi => hnative i (hinputs ▸ hi)
  refine ⟨reveal.revealPsbt, reveal.result, 0, ⟨context.commitScript, context.commitValue⟩, ?_⟩
  exact
    { revealPsbt := by simp [Built.result, hb']
      envelope := by simp [Built.result, hb']
      leaf := by simp [Built.result, hb', hleaf, hscript]
      txid := htxid
      index := hvout
      output := hfirst.output
      script := by rw [hkey, hscript]; exact hfirst.script
      value := hvalue
      input := hinput
      native := hnative'
      signed := fun txid hid signed hsigns => signs_txid hnative' htxid hsigns txid hid }

/-- **The reveal of every TAPROOT result spends its commit, however the commit is signed.** -/
theorem envelopeReveal_spendable (enc : Encoder) (clock : ℕ) (events : List (Event sig Command))
    (p : ℕ) (call : EncoderCall) (hcall : (encoderRun enc clock events).cfg.calls p = some call)
    (r : TxResult) (t : ℕ) (hreturned : call.stage = .returned (.transaction r) t)
    (ht : r.encoding = .taproot) : ∃ reveal e vout out, SpendsCommit enc r reveal e vout out := by
  obtain ⟨request, -, h⟩ := transaction_run (returns_envelopeReveal enc) clock events p call hcall r t
    hreturned
  exact h ht

end Results

/-- An envelope of `ISSUE`, with a payment beside it. -/
def taprootIssue : TxRequest :=
  { softDustPayment with
    utxos := [witnessUtxo 0 101650, witnessUtxo 1 60000]
    customOutputs := [⟨sampleAddress ⟨.btc, .regtest⟩, 1000⟩]
    data := some [0x49, 0x53, 0x53, 0x55, 0x45]
    encoding := .named .taproot
    change := some (sampleAddress ⟨.btc, .regtest⟩)
    compressedPubKey := some sampleKey
    feePerKb := some 10000 }

/-- The envelope is built to its end. -/
def taprootRun : EncoderWorld := encoderRun (sampleEncoder ⟨.btc, .regtest⟩) 0
  (.start (.createTransaction taprootIssue) [] :: List.replicate 16 (answer 0))

theorem taprootRun_returned : ∃ call r t, taprootRun.cfg.calls 0 = some call ∧
    call.stage = .returned (.transaction r) t ∧ r.encoding = .taproot := by
  have hrun : (taprootRun.cfg.calls 0).any (fun call =>
      (returnedTransaction call).any fun r => decide (r.encoding = .taproot)) = true := by
    decide +kernel
  obtain ⟨call, hcall, hany⟩ := (Option.any_eq_true ..).mp hrun
  obtain ⟨r, hr, ht⟩ := (Option.any_eq_true ..).mp hany
  obtain ⟨t, hreturned⟩ := returnedTransaction_eq_some hr
  exact ⟨call, r, t, hcall, hreturned, of_decide_eq_true ht⟩

theorem envelopeReveal_spendable_issue : ∃ call r, taprootRun.cfg.calls 0 = some call ∧
    returnedTransaction call = some r ∧ ∃ reveal e vout out,
      SpendsCommit (sampleEncoder ⟨.btc, .regtest⟩) r reveal e vout out := by
  obtain ⟨call, r, t, hcall, hreturned, ht⟩ := taprootRun_returned
  refine ⟨call, r, hcall, ?_, envelopeReveal_spendable (sampleEncoder ⟨.btc, .regtest⟩) 0 _ 0 call
    hcall r t hreturned ht⟩
  rw [returnedTransaction, hreturned]

end XChain
