import XChainEncoder.EnvelopeReveals

/-!
# Value conservation

The running total beside the transaction, and what becomes of every satoshi of its inputs.

* `Emission.Tracked`, `returns_emitDataOutputs_tracked`: **the running total is the sum of the outputs
  after every chunk**; `emitPayments_tracked`: and after every payment;
* `Psbt.inputTotal`, `Funds`, `funds_invariant`: what the selected inputs are worth;
* `Balanced`, `settleChange_balanced`: **inputs are outputs, fee and a folded rest below one output**;
* `EnvelopeBalanced`: what a TAPROOT commit hands to its reveal;
* `returns_conserved`: **every funding build conserves value**.
-/

namespace XChain

open PushScript Coroutine

variable {enc : Encoder} {plan : Plan} {request : TxRequest}

/-! ## The running total -/

/-- The running total is the sum of the outputs. -/
def Emission.Tracked (e : Emission) : Prop :=
  (e.psbt.map Psbt.outputTotal).getD 0 = e.outputSatoshis

theorem tracked_some {e : Emission} {psbt : Psbt} (h : e.psbt = some psbt) :
    e.Tracked ↔ psbt.outputTotal = e.outputSatoshis := by
  simp [Emission.Tracked, h]

theorem tracked_start (price : RevealOutputsPrice) : (Emission.start plan price).Tracked := by
  unfold Emission.Tracked Emission.start
  cases plan.isReveal <;> rfl

theorem emitDataOutput_tracked {e e' : Emission} {script : Bytes} {value : ℤ} {size : ℕ}
    (he : e.Tracked) (h : emitDataOutput e script value size = .ok e') : e'.Tracked := by
  simp only [emitDataOutput, bind_eq_ok, requirePsbt_eq_ok] at h
  obtain ⟨psbt, hpsbt, psbt', hout, heq⟩ := h
  cases heq
  have htotal := (tracked_some hpsbt).mp he
  exact (tracked_some rfl).mpr ((Psbt.outputTotal_addOutput hout).1.trans (by rw [htotal]))

@[simp] theorem fundCustomOutputs_outputSatoshis (fee : ℤ) (e : Emission) :
    (fundCustomOutputs fee e).2.outputSatoshis = e.outputSatoshis := by
  unfold fundCustomOutputs
  split_ifs <;> rfl

@[simp] theorem topUpFirstLeg_outputSatoshis (price : RevealOutputsPrice) (encoding : Encoding)
    (fee : ℤ) (e : Emission) (psbt : Psbt) :
    (topUpFirstLeg enc plan price encoding fee e psbt).2.outputSatoshis = e.outputSatoshis := by
  unfold topUpFirstLeg
  split_ifs <;> rfl

theorem fundP2shLeg_tracked {price : RevealOutputsPrice} {e e' : Emission} {chunk : Bytes}
    (he : e.Tracked) (h : fundP2shLeg enc plan price e chunk = .ok e') : e'.Tracked := by
  simp only [fundP2shLeg, bind_eq_ok, requirePsbt_eq_ok] at h
  obtain ⟨psbt, hpsbt, psbt', hout, heq⟩ := h
  cases heq
  have htotal := (tracked_some hpsbt).mp he
  refine (tracked_some rfl).mpr ((Psbt.outputTotal_addOutput hout).1.trans ?_)
  simp [htotal]

theorem fundP2wshLeg_tracked {price : RevealOutputsPrice} {e e' : Emission} {chunk : Bytes}
    (he : e.Tracked) (h : fundP2wshLeg enc plan price e chunk = .ok e') : e'.Tracked := by
  simp only [fundP2wshLeg, bind_eq_ok, requirePsbt_eq_ok] at h
  obtain ⟨psbt, hpsbt, psbt', hout, heq⟩ := h
  cases heq
  have htotal := (tracked_some hpsbt).mp he
  refine (tracked_some rfl).mpr ((Psbt.outputTotal_addOutput hout).1.trans ?_)
  dsimp only
  split_ifs <;> simp [htotal]

theorem loadFundingTx_tracked {e e' : Emission} (he : e.Tracked)
    (h : loadFundingTx enc plan e = .ok e') : e'.Tracked := by
  unfold loadFundingTx at h
  split at h
  · split at h
    · cases h
    · obtain ⟨_, -, heq⟩ := bind_eq_ok.mp h
      cases heq
      exact he
  · cases h
    exact he

theorem returns_startReveal_tracked {e : Emission} (he : e.Tracked) (marker : Bytes) :
    Returns (fun r => r.1.outputTotal = e.outputSatoshis) (startReveal enc marker e) := by
  unfold startReveal
  cases hpsbt : e.psbt with
  | some psbt => exact (tracked_some hpsbt).mp he
  | none =>
    refine .bind_right fun d => .bind (returns_ofExcept fun psbt h => Psbt.outputTotal_addOutput h) ?_
    intro psbt hout
    have hzero : (0 : ℤ) = e.outputSatoshis := by simpa [Emission.Tracked, hpsbt] using he
    exact hout.1.trans (by simpa using hzero)

theorem addLegInput_tracked {e e' : Emission} {psbt : Psbt} {leg : TxOut} {input : PsbtInput}
    {size : ℕ} (htotal : psbt.outputTotal = e.outputSatoshis)
    (h : addLegInput enc psbt e leg input size = .ok e') : e'.Tracked := by
  obtain ⟨psbt', hinput, heq⟩ := bind_eq_ok.mp h
  cases heq
  obtain ⟨-, -, rfl⟩ := Psbt.addInput_eq_ok.mp hinput
  exact htotal

theorem returns_spendP2shLeg_tracked {e : Emission} (he : e.Tracked) (hash : Text) (chunk : Bytes) :
    Returns Emission.Tracked (spendP2shLeg enc plan hash e chunk) := by
  refine .bind (returns_startReveal_tracked he _) fun r hr => .bind_right fun leg => ?_
  exact .bind_right fun _ => returns_ofExcept fun e' h => addLegInput_tracked hr h

theorem returns_spendP2wshLeg_tracked {e : Emission} (he : e.Tracked) (hash : Text) (chunk : Bytes) :
    Returns Emission.Tracked (spendP2wshLeg enc plan hash e chunk) := by
  refine .bind (returns_startReveal_tracked he _) fun r hr => .bind_right fun leg => ?_
  exact .bind_right fun _ => returns_ofExcept fun e' h => addLegInput_tracked hr h

/-- **Each chunk keeps the running total.** -/
theorem returns_emitChunk_tracked {price : RevealOutputsPrice} {e : Emission} (he : e.Tracked)
    (chunk : Bytes) : Returns Emission.Tracked (emitChunk enc plan price e chunk) := by
  unfold emitChunk
  cases plan.prepared.encoding with
  | opReturn => exact .bind_right fun d => returns_ofExcept fun e' h => emitDataOutput_tracked he h
  | multisign =>
    refine .bind_right fun d => .bind_right fun _ => .bind_right fun _ =>
      returns_ofExcept fun e' h => ?_
    unfold emitMultisignOutput at h
    split at h
    · cases h
    · split at h
      · cases h
      · exact emitDataOutput_tracked he h
  | taproot =>
    refine returns_ofExcept fun e' h => ?_
    simp only [emitEnvelopeCommit, bind_eq_ok] at h
    obtain ⟨psbt, -, h⟩ := h
    split at h
    · cases h
    · simp only [bind_eq_ok] at h
      obtain ⟨_, -, e'', hout, heq⟩ := h
      cases heq
      have htracked : e''.Tracked := emitDataOutput_tracked he hout
      exact htracked
  | p2sh =>
    refine .bind (returns_ofExcept fun e' h => loadFundingTx_tracked he h) fun e' he' => ?_
    cases plan.request.p2shHash with
    | none => exact returns_ofExcept fun e'' h => fundP2shLeg_tracked he' h
    | some hash => exact returns_spendP2shLeg_tracked he' hash chunk
  | p2wsh =>
    refine .bind (returns_ofExcept fun e' h => loadFundingTx_tracked he h) fun e' he' => ?_
    cases plan.request.p2shHash with
    | none => exact returns_ofExcept fun e'' h => fundP2wshLeg_tracked he' h
    | some hash => exact returns_spendP2wshLeg_tracked he' hash chunk

/-- **The running total is the sum of the outputs after every list of chunks.** -/
theorem returns_emitDataOutputs_tracked {price : RevealOutputsPrice} (chunks : List Bytes)
    {e : Emission} (he : e.Tracked) :
    Returns Emission.Tracked (emitDataOutputs enc plan price chunks e) := by
  induction chunks generalizing e with
  | nil => exact he
  | cons chunk rest ih => exact .bind (returns_emitChunk_tracked he chunk) fun e' he' => ih he'

/-- **Each payment adds its value to the outputs and to the running total.** -/
theorem emitPayments_tracked {feeQuoteIndex : Option ℕ} (outputs : List CustomOutput) (i : ℕ)
    (acc acc' : Psbt × ℤ × ℕ) (hacc : acc.1.outputTotal = acc.2.1)
    (h : emitPayments enc feeQuoteIndex outputs i acc = .ok acc') :
    acc'.1.outputTotal = acc'.2.1 := by
  induction outputs generalizing i acc with
  | nil =>
    cases h
    exact hacc
  | cons output outputs ih =>
    obtain ⟨psbt, outputSatoshis, size⟩ := acc
    obtain ⟨v, psbt', -, -, hout, h⟩ := emitPayments_cons.mp h
    obtain ⟨script, -, hout⟩ := Psbt.addAddressOutput_eq_ok.mp hout
    refine ih _ _ ?_ h
    show psbt'.outputTotal = outputSatoshis + v
    rw [(Psbt.outputTotal_addOutput hout).1]
    exact congrArg (· + v) hacc

/-- What emission leaves: the running total, and no input in a funding build. -/
structure EmittedTracked (plan : Plan) (emitted : Emitted) : Prop where
  emission : emitted.emission.Tracked
  total : emitted.psbt.outputTotal = emitted.outputSatoshis
  inputs : plan.isReveal = false → emitted.psbt.inputs = []

theorem returns_emitOutputs_tracked :
    Returns (fun r => EmittedTracked plan r.2) (emitOutputs enc plan) := by
  have htotal : Returns (fun r : RevealOutputsPrice × Emitted =>
      r.2.emission.Tracked ∧ r.2.psbt.outputTotal = r.2.outputSatoshis) (emitOutputs enc plan) := by
    refine .bind_right fun price => ?_
    refine .bind (returns_emitDataOutputs_tracked _ (tracked_start price)) fun e he => ?_
    refine .bind (returns_ofExcept fun _ h => h) fun emitted hemitted => ?_
    simp only [emitCustomOutputs, bind_eq_ok, requirePsbt_eq_ok] at hemitted
    obtain ⟨psbt, hpsbt, acc, hacc, heq⟩ := hemitted
    cases heq
    exact ⟨he, emitPayments_tracked _ _ _ _ ((tracked_some hpsbt).mp he) hacc⟩
  refine always_mono ?_ (fun _ _ => trivial) (always_and htotal (returns_emitOutputs))
  rintro r ⟨⟨hemission, htotal⟩, hout, -⟩
  refine ⟨hemission, htotal, fun hfunding => ?_⟩
  have hnone : plan.request.p2shHash = none := by simpa [Plan.isReveal] using hfunding
  rw [hnone] at hout
  exact List.map_eq_nil_iff.mp hout

/-! ## The inputs -/

/-- The value an input spends, as its transaction states it. -/
def PsbtInput.spentValue (i : PsbtInput) : Option ℤ :=
  match i.witnessUtxo, i.nonWitnessUtxo with
  | some out, _ => some out.value
  | none, some tx => tx.outs[i.index]?.map TxOut.value
  | none, none => none

/-- The sum of the input values, when every input states its own. -/
def Psbt.inputTotal (psbt : Psbt) : Option ℤ :=
  (psbt.inputs.mapM PsbtInput.spentValue).map List.sum

theorem inputTotal_of_inputs {psbt psbt' : Psbt} (h : psbt'.inputs = psbt.inputs) :
    psbt'.inputTotal = psbt.inputTotal := by
  unfold Psbt.inputTotal
  rw [h]

theorem inputTotal_addInput {psbt psbt' : Psbt} {input : PsbtInput} {total value : ℤ}
    (htotal : psbt.inputTotal = some total) (hvalue : input.spentValue = some value)
    (h : psbt.addInput input = .ok psbt') : psbt'.inputTotal = some (total + value) := by
  obtain ⟨-, -, rfl⟩ := Psbt.addInput_eq_ok.mp h
  obtain ⟨values, hvalues, hsum⟩ := Option.map_eq_some_iff.mp htotal
  have hlower : ({ input with hash := lower input.hash } : PsbtInput).spentValue = some value :=
    hvalue
  unfold Psbt.inputTotal
  rw [List.mapM_append, hvalues, List.mapM_cons, hlower]
  simp [hsum]

theorem InputFor.spentValue {u : Utxo} {input : PsbtInput} (h : InputFor enc plan u input) :
    input.spentValue = some u.value := by
  unfold PsbtInput.spentValue
  cases hkind : (nestedRedeem enc plan u).isSome || isSegwitUTXO u with
  | true =>
    rw [(h.witness hkind).1]
  | false =>
    obtain ⟨hwitness, -, tx, out, htx, hout, hvalue⟩ := h.legacy hkind
    rw [hwitness, htx, h.index]
    simp [hout, hvalue]

/-- A selection with the outputs emitted, and the value of its inputs. -/
structure Funds (emitted : Emitted) (sel : Selection) : Prop where
  outputs : sel.psbt.outputs = emitted.psbt.outputs
  inputs : sel.psbt.inputTotal = some sel.inputSatoshis

variable {emitted : Emitted}

theorem funds_invariant : SelectionInvariant enc plan emitted (Funds emitted) where
  skip _ h := ⟨h.outputs, h.inputs⟩
  add u acc acc' _ h hadds := by
    obtain ⟨input, hinput, hadd⟩ := hadds.input
    obtain ⟨psbt, hpsbt, hacc⟩ := bind_eq_ok.mp hadd
    cases hacc
    have hinputs := inputTotal_addInput h.inputs hinput.spentValue hpsbt
    obtain ⟨-, -, rfl⟩ := Psbt.addInput_eq_ok.mp hpsbt
    exact ⟨h.outputs, hinputs⟩

theorem funds_start {fee : Option ℤ} {start : Selection} (hinputs : emitted.psbt.inputs = [])
    (h : initSelection fee emitted = .ok start) : Funds emitted start := by
  rw [initSelection_eq_ok h]
  refine ⟨rfl, ?_⟩
  unfold Psbt.inputTotal
  rw [hinputs]
  rfl

/-! ## Settlement -/

section Settlement

variable {sel : Selection}

/-- **The prefund raises one output and the running total by the same amount.** -/
theorem prefundRevealPackage_tracked {up : Uplifted} {fee : ℤ} {pre : Prefunded}
    (htotal : sel.psbt.outputTotal = emitted.outputSatoshis)
    (h : prefundRevealPackage enc plan emitted sel up fee = .ok pre) :
    pre.psbt.outputTotal = pre.outputSatoshis ∧ pre.psbt.inputs = sel.psbt.inputs := by
  unfold prefundRevealPackage at h
  cases hprefund : emitted.emission.revealPrefund with
  | none =>
    rw [hprefund] at h
    cases h
    exact ⟨htotal, rfl⟩
  | some prefund =>
    simp only [hprefund] at h
    split_ifs at h
    · unfold applyRevealPrefund at h
      split_ifs at h
      · obtain ⟨psbt, hraise, heq⟩ := bind_eq_ok.mp h
        cases heq
        obtain ⟨hout, hin⟩ := Psbt.outputTotal_raiseOutputValue hraise
        exact ⟨by rw [hout, htotal], hin⟩
      · cases h
        exact ⟨htotal, rfl⟩
    · cases h
      exact ⟨htotal, rfl⟩
    · cases h
      exact ⟨htotal, rfl⟩

theorem computeChange_eq_ok {outputSatoshis fee change : ℤ} :
    computeChange enc plan sel outputSatoshis fee = .ok change ↔
      change = sel.inputSatoshis - outputSatoshis - fee ∧
      (plan.isReveal = true ∨ 0 ≤ change) ∧
      (change ≤ enc.dustAmount ∨ plan.request.change.isSome = true) := by
  simp only [computeChange, bind_eq_ok, ensure_eq_ok, Bool.or_eq_true, decide_eq_true_eq]
  constructor
  · rintro ⟨_, hfunds, _, hburn, heq⟩
    cases heq
    exact ⟨rfl, hfunds, hburn⟩
  · rintro ⟨rfl, hfunds, hburn⟩
    exact ⟨(), hfunds, (), hburn, rfl⟩

/-- The change that no output carries. -/
def foldedChange (enc : Encoder) (plan : Plan) (changeSatoshis : ℤ) : ℤ :=
  if plan.request.change.isSome ∧ 0 < changeSatoshis ∧ enc.outputFloor ≤ changeSatoshis then 0
  else changeSatoshis

theorem emitChange_total {change : ℤ} {psbt psbt' : Psbt}
    (h : emitChange enc plan change psbt = .ok psbt') :
    psbt.outputTotal + change = psbt'.outputTotal + foldedChange enc plan change := by
  unfold emitChange at h
  unfold foldedChange
  cases hchange : plan.request.change with
  | none =>
    rw [hchange] at h
    cases h
    simp
  | some address =>
    simp only [hchange] at h
    by_cases hworth : 0 < change ∧ enc.outputFloor ≤ change
    · rw [if_pos hworth] at h
      obtain ⟨script, -, hout⟩ := Psbt.addAddressOutput_eq_ok.mp h
      rw [if_pos ⟨rfl, hworth⟩, (Psbt.outputTotal_addOutput hout).1, add_zero]
    · rw [if_neg hworth] at h
      cases h
      rw [if_neg fun h => hworth h.2]

/-- What is folded is less than an output, and without a change address at most the dust limit. -/
theorem foldedChange_bounds {change : ℤ} (hfunds : 0 ≤ change)
    (hburn : change ≤ enc.dustAmount ∨ plan.request.change.isSome = true) :
    0 ≤ foldedChange enc plan change ∧
      (plan.request.change.isSome = true → foldedChange enc plan change < enc.outputFloor) ∧
      (plan.request.change = none → foldedChange enc plan change ≤ enc.dustAmount) := by
  have hdust := enc.dustAmount_pos
  have hfloor := enc.dustAmount_le_outputFloor
  unfold foldedChange
  split_ifs with hworth
  · exact ⟨le_rfl, fun _ => by omega, fun _ => by omega⟩
  · refine ⟨hfunds, fun haddress => ?_, fun hnone => ?_⟩
    · by_contra hle
      exact hworth ⟨haddress, by omega, by omega⟩
    · rcases hburn with hburn | haddress
      · exact hburn
      · simp [hnone] at haddress

theorem emitRevealPad_funding {psbt psbt' : Psbt} (hfunding : plan.isReveal = false)
    (h : emitRevealPad enc plan psbt = .ok psbt') : psbt' = psbt := by
  unfold emitRevealPad at h
  split at h
  · rw [if_neg (by simp [hfunding])] at h
    cases h
    rfl
  · cases h
    rfl

/-- Inputs are outputs, fee and a folded rest that is worth no output. -/
structure Balanced (enc : Encoder) (b : Built) (total folded : ℤ) : Prop where
  inputs : b.psbt.inputTotal = some total
  balance : total = b.psbt.outputTotal + b.estimatedFee + folded
  nonneg : 0 ≤ folded
  withChange : b.plan.request.change.isSome = true → folded < enc.outputFloor
  withoutChange : b.plan.request.change = none → folded ≤ enc.dustAmount

/-- **A settled funding build balances.** -/
theorem Settled.balanced {b : Built} (hsettled : Settled enc b)
    (hfunding : b.plan.isReveal = false) (hfunds : Funds b.emitted b.selection)
    (htotal : b.emitted.psbt.outputTotal = b.emitted.outputSatoshis) :
    b.prefunded.psbt.outputTotal = b.prefunded.outputSatoshis ∧
      Balanced enc b b.selection.inputSatoshis (foldedChange enc b.plan b.changeSatoshis) := by
  have hselected : b.selection.psbt.outputTotal = b.emitted.outputSatoshis := by
    rw [← htotal]
    exact congrArg (fun outs => (outs.map TxOut.value).sum) hfunds.outputs
  have hchange := hsettled.change
  simp only [settleChange, emitChangeAndPad, bind_eq_ok] at hchange
  obtain ⟨pre, hpre, change, hcompute, psbt, ⟨psbt₁, hemit, hpad⟩, _, -, heq⟩ := hchange
  obtain ⟨rfl, rfl, rfl⟩ : pre = b.prefunded ∧ change = b.changeSatoshis ∧ psbt = b.psbtWithChange := by
    cases heq
    exact ⟨rfl, rfl, rfl⟩
  obtain ⟨htracked, hinputs⟩ := prefundRevealPackage_tracked hselected hpre
  obtain ⟨hvalue, hsolvent, hburn⟩ := computeChange_eq_ok.mp hcompute
  have hnonneg : 0 ≤ b.changeSatoshis := hsolvent.resolve_left (by simp [hfunding])
  obtain ⟨h0, hwith, hwithout⟩ := foldedChange_bounds hnonneg hburn
  have hnone : b.plan.request.p2shHash = none := by simpa [Plan.isReveal] using hfunding
  have hpsbt : b.psbt = psbt₁ :=
    (hsettled.swept hnone).trans (emitRevealPad_funding hfunding hpad)
  refine ⟨htracked, ?_, ?_, h0, hwith, hwithout⟩
  · rw [inputTotal_of_inputs ?_]
    · exact hfunds.inputs
    · rw [hpsbt, (extends_emitChange hemit).inputs, hinputs]
  · have hout := emitChange_total hemit
    rw [hpsbt, hsettled.estimatedFee]
    omega

end Settlement

/-! ## The envelope's reveal -/

/-- The reveal spends the commit output whole: its outputs and its fee, and the change is the dust
limit. -/
structure EnvelopeBalanced (enc : Encoder) (b : Built) (reveal : EnvelopeReveal) (out : TxOut) :
    Prop where
  built : b.envelope = some reveal
  commit : ∃ vout, reveal.result.commitVout = some vout ∧ b.psbt.outputs[vout]? = some out
  input : reveal.revealPsbt.inputTotal = some out.value
  single : reveal.revealPsbt.inputs.length = 1
  balance : reveal.revealPsbt.outputTotal + reveal.result.revealFee = out.value
  change : reveal.revealPsbt.outputs.head?.map TxOut.value = some enc.dustAmount

/-- The outputs of a reveal: the change, and the pad when the size needs one. -/
theorem buildRevealPsbt_outputs {psbt : Psbt} {context : EnvelopeContext} {reveal : EnvelopeReveal}
    (hvalue : context.commitValue = context.revealFee + enc.dustAmount +
      (if context.revealPadNeeded then enc.dustAmount else 0))
    (h : buildRevealPsbt enc plan psbt context = .ok reveal) :
    reveal.result.revealFee = context.revealFee ∧
      reveal.revealPsbt.outputs.map TxOut.value = enc.dustAmount ::
        (if context.revealPadNeeded then [enc.dustAmount] else []) := by
  obtain ⟨commitTxid, -, h⟩ := bind_eq_ok.mp h
  obtain ⟨psbt₁, hinput, h⟩ := bind_eq_ok.mp h
  obtain ⟨psbt₂, hchange, h⟩ := bind_eq_ok.mp h
  obtain ⟨-, -, rfl⟩ := Psbt.addInput_eq_ok.mp hinput
  obtain ⟨script, -, hchange⟩ := Psbt.addAddressOutput_eq_ok.mp hchange
  obtain ⟨-, -, rfl⟩ := Psbt.addOutput_eq_ok.mp hchange
  dsimp only at h
  have hdust : context.commitValue - context.revealFee -
      (if context.revealPadNeeded then enc.dustAmount else 0) = enc.dustAmount := by
    rw [hvalue]
    ring
  rw [hdust] at h
  split_ifs at h with hpad
  · obtain ⟨psbt₃, hpadded, heq⟩ := bind_eq_ok.mp h
    obtain ⟨script', -, hpadded⟩ := Psbt.addAddressOutput_eq_ok.mp hpadded
    obtain ⟨-, -, rfl⟩ := Psbt.addOutput_eq_ok.mp hpadded
    cases heq
    exact ⟨rfl, by simp [Psbt.empty, hpad]⟩
  · cases h
    exact ⟨rfl, by simp [Psbt.empty, hpad]⟩

/-- **What a TAPROOT commit hands to its reveal.** -/
theorem Settled.envelopeBalanced {b : Built} (hsettled : Settled enc b)
    (hplanned : Planned enc request b.plan) (ht : b.plan.prepared.encoding = .taproot)
    (hemitted : EnvelopeEmitted enc b.plan b.emitted)
    (houtputs : b.selection.psbt.outputs = b.emitted.psbt.outputs) :
    ∃ reveal out, EnvelopeBalanced enc b reveal out := by
  obtain ⟨context, reveal, hfirst, hreveal, hb, -, -⟩ :=
    hsettled.reveal hplanned ht hemitted houtputs
  obtain ⟨-, hvout, -, -, -, input, hinputs, -, -, hspent⟩ := buildRevealPsbt_spends hfirst hreveal
  obtain ⟨hfee, hvalues⟩ := buildRevealPsbt_outputs hfirst.value hreveal
  refine ⟨reveal, ⟨context.commitScript, context.commitValue⟩, hb, ⟨0, hvout, hfirst.output⟩, ?_, ?_,
    ?_, ?_⟩
  · unfold Psbt.inputTotal
    rw [hinputs]
    simp [PsbtInput.spentValue, hspent]
  · rw [hinputs]
    rfl
  · unfold Psbt.outputTotal
    rw [hvalues, hfee, hfirst.value]
    split_ifs <;> simp <;> ring
  · rw [← List.head?_map, hvalues]
    rfl

/-! ## Every funding build -/

/-- What a finished funding build has kept of the value it moves. -/
structure Conserved (enc : Encoder) (b : Built) : Prop where
  /-- The running total after every number of chunks. -/
  chunks : ∀ k, Returns Emission.Tracked (emitDataOutputs enc b.plan b.price
    (b.plan.prepared.dataBufferArray.take k) (Emission.start b.plan b.price))
  /-- The running total after every number of payments. -/
  payments : ∀ k psbt acc, b.emitted.emission.psbt = some psbt →
    emitPayments enc b.plan.payments.feeQuoteIndex (b.plan.payments.customOutputs.take k) 0
      (psbt, b.emitted.emission.outputSatoshis, b.emitted.emission.estimatedTxSize) = .ok acc →
    acc.1.outputTotal = acc.2.1
  emitted : b.emitted.psbt.outputTotal = b.emitted.outputSatoshis
  selected : b.selection.psbt.outputTotal = b.emitted.outputSatoshis
  prefunded : b.prefunded.psbt.outputTotal = b.prefunded.outputSatoshis
  balanced : ∃ total folded, Balanced enc b total folded
  envelope : b.plan.prepared.encoding = .taproot → ∃ reveal out, EnvelopeBalanced enc b reveal out

/-- **Every funding build conserves value: its running total is the sum of its outputs throughout,
its inputs are its outputs, its fee and a bounded rest, and a commit pays for its reveal exactly.** -/
theorem returns_conserved (enc : Encoder) (request : TxRequest) (hfunding : request.p2shHash = none) :
    Returns (Conserved enc) (buildSteps enc request) := by
  have hstages : Returns (Staged enc request
      (fun plan _ emitted => EmittedTracked plan emitted ∧
        (plan.prepared.encoding = .taproot → EnvelopeEmitted enc plan emitted))
      (fun _ emitted sel => Funds emitted sel)) (buildSteps enc request) := by
    refine returns_buildSteps (fun plan hplan => ?_) fun plan price emitted start hplan hE hstart => ?_
    · have henvelope : Returns (fun r : RevealOutputsPrice × Emitted =>
          plan.prepared.encoding = .taproot → EnvelopeEmitted enc plan r.2)
          (emitOutputs enc plan) := by
        by_cases ht : plan.prepared.encoding = .taproot
        · exact always_mono (fun _ h _ => h) (fun _ h => h) (commitsFirst_emitOutputs hplan ht)
        · exact always_mono (fun _ _ h => absurd h ht) (fun _ h => h) always_true
      exact always_mono (fun _ h => h) (fun _ _ => trivial)
        (always_and returns_emitOutputs_tracked henvelope)
    · have hr : plan.isReveal = false := by simp [Plan.isReveal, hplan.request_eq, hfunding]
      exact always_mono (fun sel h => h.invariant hr) (fun _ h => h)
        (returns_selectFundingInputs funds_invariant (funds_start (hE.1.inputs hr) hstart))
  refine always_mono (fun b hb => ?_) (fun _ h => h) hstages
  obtain ⟨htracked, henvelope⟩ := hb.emitted
  have hr : b.plan.isReveal = false := by simp [Plan.isReveal, hb.planned.request_eq, hfunding]
  obtain ⟨hprefunded, hbalanced⟩ := hb.settled.balanced hr hb.selected htracked.total
  exact
    { chunks := fun k => returns_emitDataOutputs_tracked _ (tracked_start _)
      payments := fun k psbt acc hpsbt hacc =>
        emitPayments_tracked _ _ _ _ ((tracked_some hpsbt).mp htracked.emission) hacc
      emitted := htracked.total
      selected := (congrArg (fun outs => (outs.map TxOut.value).sum) hb.selected.outputs).trans
        htracked.total
      prefunded := hprefunded
      balanced := ⟨_, _, hbalanced⟩
      envelope := fun ht => hb.settled.envelopeBalanced hb.planned ht (henvelope ht)
        hb.selected.outputs }

/-- The envelope of `ISSUE` is built to its end, and conserves value. -/
theorem returns_conserved_issue :
    (taprootRun.cfg.calls 0).any (fun call => (returnedTransaction call).isSome) = true ∧
      Returns (Conserved (sampleEncoder ⟨.btc, .regtest⟩))
        (buildSteps (sampleEncoder ⟨.btc, .regtest⟩) taprootIssue) :=
  ⟨by decide +kernel, returns_conserved _ taprootIssue rfl⟩

end XChain
