import XChainEncoder.AncestorLookups
import XChainEncoder.ValueConservation

/-!
# Settlement with an ancestor package

What settlement makes of a selection when it knows the package of its unconfirmed ancestors.

* `feeWith`, `prefundWith`, `changeWith`, `psbtWith`: the fee, what moves into the reveal, the change
  and the transaction;
* `PrefundPlaced`, `EnvelopePlaced`: the output that carries the reveal's fee exists, and so does the
  envelope's;
* `prefundRevealPackage_eq`: the prefund raises that output and nothing else;
* `SettlesWith`, `settleChange_eq_ok`: **when settlement accepts a funding selection**;
* `settledWith`, `alone_settleBuild_with`: settlement as a function of what the lookups answer.
-/

namespace XChain

open PushScript Coroutine

section Amounts

variable (enc : Encoder) (plan : Plan) (emitted : Emitted) (sel : Selection)
  (package : Option AncestorPackage)

/-- The fee that settlement charges. -/
def feeWith : ℤ := floorEstimatedFee enc emitted (upliftBy enc plan emitted sel package).estimatedFee

/-- What a commit moves into its reveal. -/
def prefundWith : ℤ :=
  match emitted.emission.revealPrefund with
  | none => 0
  | some prefund =>
    if !plan.isReveal ∧ 0 < plan.rates.feePerBytes ∧ 0 < enc.maxCpfpUpliftSat then
      let up := upliftBy enc plan emitted sel package
      allowedPrefund enc emitted sel (feeWith enc plan emitted sel package)
        (packageFeeUpliftSatoshis prefund.revealFee prefund.revealSize
          (sel.estimatedTxSize + up.commitAncestorSize)
          (feeWith enc plan emitted sel package + up.commitAncestorFeeSat) plan.rates.feePerBytes)
    else 0

/-- What outputs and fee leave of the inputs. -/
def changeWith : ℤ :=
  sel.inputSatoshis - emitted.outputSatoshis - prefundWith enc plan emitted sel package -
    feeWith enc plan emitted sel package

/-- The change output, where it is worth one. -/
def changeOutputWith : List TxOut :=
  match plan.request.change.bind (enc.lib.toOutputScript enc.network) with
  | some script =>
    if enc.outputFloor ≤ changeWith enc plan emitted sel package then
      [⟨script, changeWith enc plan emitted sel package⟩]
    else []
  | none => []

end Amounts

/-- The outputs with the one that carries the reveal's fee raised. -/
def raisedOutputs (prefund : Option RevealPrefund) (outputs : List TxOut) (k : ℤ) : List TxOut :=
  match prefund with
  | some prefund => outputs.modify prefund.outputIndex fun out => { out with value := out.value + k }
  | none => outputs

/-- The transaction that settlement makes of a funding selection. -/
def psbtWith (enc : Encoder) (plan : Plan) (emitted : Emitted) (sel : Selection)
    (package : Option AncestorPackage) : Psbt :=
  { sel.psbt with
    outputs := raisedOutputs emitted.emission.revealPrefund sel.psbt.outputs
      (prefundWith enc plan emitted sel package) ++ changeOutputWith enc plan emitted sel package }

variable {enc : Encoder} {plan : Plan} {emitted : Emitted} {sel : Selection}
  {package : Option AncestorPackage}

/-! ## The output that carries the reveal's fee -/

/-- The output to raise is there. -/
def PrefundPlaced (prefund : Option RevealPrefund) (outputs : List TxOut) : Prop :=
  ∀ p, prefund = some p → p.outputIndex < outputs.length

/-- The envelope's output is there. -/
def EnvelopePlaced (context : Option EnvelopeContext) (outputs : List TxOut) : Prop :=
  ∀ c, context = some c → c.commitScript ∈ outputs.map TxOut.script

theorem PrefundPlaced.append {prefund : Option RevealPrefund} {outputs : List TxOut}
    (h : PrefundPlaced prefund outputs) (out : TxOut) : PrefundPlaced prefund (outputs ++ [out]) := by
  intro p hp
  rw [List.length_append]
  exact Nat.lt_add_right 1 (h p hp)

theorem EnvelopePlaced.append {context : Option EnvelopeContext} {outputs more : List TxOut}
    (h : EnvelopePlaced context outputs) : EnvelopePlaced context (outputs ++ more) := by
  intro c hc
  rw [List.map_append]
  exact List.mem_append_left _ (h c hc)

theorem topUpFirstLeg_prefund (price : RevealOutputsPrice) (encoding : Encoding) (fee : ℤ)
    (e : Emission) (psbt : Psbt) :
    (topUpFirstLeg enc plan price encoding fee e psbt).2.revealPrefund = e.revealPrefund ∨
      ∃ p, (topUpFirstLeg enc plan price encoding fee e psbt).2.revealPrefund = some p ∧
        p.outputIndex = psbt.outputs.length := by
  unfold topUpFirstLeg
  by_cases hfunded : e.p2shRevealHeadroomFunded = true
  · rw [if_pos hfunded]
    exact .inl rfl
  · rw [if_neg hfunded]
    exact .inr ⟨_, rfl, rfl⟩

theorem topUpUnless_prefund (price : RevealOutputsPrice) (encoding : Encoding) (c : Prop)
    [Decidable c] (fee : ℤ) (e : Emission) (psbt : Psbt) :
    (if c then topUpFirstLeg enc plan price encoding fee e psbt else (fee, e)).2.revealPrefund =
        e.revealPrefund ∨
      ∃ p, (if c then topUpFirstLeg enc plan price encoding fee e psbt
          else (fee, e)).2.revealPrefund = some p ∧ p.outputIndex = psbt.outputs.length := by
  by_cases hc : c
  · rw [if_pos hc]
    exact topUpFirstLeg_prefund price encoding fee e psbt
  · rw [if_neg hc]
    exact .inl rfl

theorem fundCustomOutputs_prefund (fee : ℤ) (e : Emission) :
    (fundCustomOutputs fee e).2.revealPrefund = e.revealPrefund := by
  unfold fundCustomOutputs
  split_ifs <;> rfl

theorem raisedOutputs_zero (prefund : Option RevealPrefund) (outputs : List TxOut) :
    raisedOutputs prefund outputs 0 = outputs := by
  cases prefund with
  | none => rfl
  | some prefund =>
    have hid : (fun out : TxOut => { out with value := out.value + 0 }) = id := by
      funext out
      simp
    rw [raisedOutputs, hid, List.modify_id]

theorem scripts_raisedOutputs (prefund : Option RevealPrefund) (outputs : List TxOut) (k : ℤ) :
    (raisedOutputs prefund outputs k).map TxOut.script = outputs.map TxOut.script := by
  cases prefund with
  | none => rfl
  | some prefund =>
    refine List.ext_getElem (by simp [raisedOutputs]) fun i h h' => ?_
    simp only [raisedOutputs, List.getElem_map, List.getElem_modify]
    split_ifs <;> rfl

/-- The envelope with more value for its reveal's fee. -/
def EnvelopeContext.raised (k : ℤ) (c : EnvelopeContext) : EnvelopeContext :=
  { c with commitValue := c.commitValue + k, revealFee := c.revealFee + k }

theorem map_raised_zero (context : Option EnvelopeContext) :
    context.map (EnvelopeContext.raised 0) = context := by
  cases context with
  | none => rfl
  | some c => simp [EnvelopeContext.raised]

theorem allowedPrefund_of_nonpos {fee wanted : ℤ} (h : wanted ≤ 0) :
    allowedPrefund enc emitted sel fee wanted = 0 := by
  unfold allowedPrefund
  dsimp only
  split_ifs <;> omega

/-- What the prefund leaves: one output raised, and the envelope with it. -/
structure PrefundedBy (emitted : Emitted) (sel : Selection) (k : ℤ) (pre : Prefunded) : Prop where
  psbt : pre.psbt = { sel.psbt with
    outputs := raisedOutputs emitted.emission.revealPrefund sel.psbt.outputs k }
  outputSatoshis : pre.outputSatoshis = emitted.outputSatoshis + k
  envelopeContext : pre.envelopeContext =
    emitted.emission.envelopeContext.map (EnvelopeContext.raised k)

theorem prefundedBy_zero (prefund : Option RevealPrefund) :
    PrefundedBy emitted sel 0
      ⟨sel.psbt, emitted.outputSatoshis, prefund, emitted.emission.envelopeContext⟩ :=
  ⟨by rw [raisedOutputs_zero], (add_zero _).symm, (map_raised_zero _).symm⟩

theorem applyRevealPrefund_eq {prefund : RevealPrefund}
    (hprefund : emitted.emission.revealPrefund = some prefund)
    (hplaced : PrefundPlaced emitted.emission.revealPrefund sel.psbt.outputs) {k : ℤ} (hk : 0 ≤ k) :
    ∃ pre, applyRevealPrefund emitted sel prefund k = .ok pre ∧ PrefundedBy emitted sel k pre := by
  unfold applyRevealPrefund
  split_ifs with hpos
  · have hlt := hplaced prefund hprefund
    have hraise := (@Psbt.raiseOutputValue_eq_ok sel.psbt _ _ _).mpr
      ⟨hpos, _, List.getElem?_eq_getElem hlt, rfl⟩
    refine ⟨_, bind_eq_ok.mpr ⟨_, hraise, rfl⟩, ?_, rfl, rfl⟩
    rw [hprefund]
    refine congrArg (Psbt.mk sel.psbt.inputs) (List.ext_getElem (by simp [raisedOutputs]) ?_)
    intro i h h'
    simp only [raisedOutputs, List.getElem_modify, List.getElem_set]
    split_ifs with hi
    · subst hi
      rfl
    · rfl
  · obtain rfl : k = 0 := by omega
    exact ⟨_, rfl, prefundedBy_zero _⟩

variable (enc plan package) in
/-- **The prefund raises the marked output, and always can.** -/
theorem prefundRevealPackage_eq
    (hplaced : PrefundPlaced emitted.emission.revealPrefund sel.psbt.outputs) :
    ∃ pre, prefundRevealPackage enc plan emitted sel (upliftBy enc plan emitted sel package)
        (feeWith enc plan emitted sel package) = .ok pre ∧
      PrefundedBy emitted sel (prefundWith enc plan emitted sel package) pre := by
  unfold prefundRevealPackage prefundWith
  cases hprefund : emitted.emission.revealPrefund with
  | none => exact ⟨_, rfl, prefundedBy_zero _⟩
  | some prefund =>
    dsimp only
    by_cases hactive : (!plan.isReveal) = true ∧ 0 < plan.rates.feePerBytes ∧ 0 < enc.maxCpfpUpliftSat
    · rw [if_pos hactive, if_pos hactive]
      split_ifs with hwanted
      · exact applyRevealPrefund_eq hprefund hplaced (allowedPrefund_bounds enc emitted sel _ _).1
      · rw [allowedPrefund_of_nonpos (not_lt.mp hwanted)]
        exact ⟨_, rfl, prefundedBy_zero _⟩
    · rw [if_neg hactive, if_neg hactive]
      exact ⟨_, rfl, prefundedBy_zero _⟩

/-! ## The conditions of settlement -/

/-- The change address names a script. -/
def ChangePays (enc : Encoder) (plan : Plan) : Prop :=
  ∀ address, plan.request.change = some address → enc.lib.toOutputScript enc.network address ≠ none

/-- What settlement checks of a funding selection. -/
structure SettlesWith (enc : Encoder) (plan : Plan) (emitted : Emitted) (sel : Selection)
    (package : Option AncestorPackage) : Prop where
  funded : 0 ≤ changeWith enc plan emitted sel package
  change : plan.request.change = none → changeWith enc plan emitted sel package ≤ enc.dustAmount
  range : ∀ out ∈ changeOutputWith enc plan emitted sel package, out.value ≤ maxSatoshiU64
  relays : coreStrippedFloor enc.network ≤
    predictedStrippedSize (psbtWith enc plan emitted sel package) 0

theorem emitChangeAndPad_funding (hfunding : plan.isReveal = false) (change : ℤ) (psbt : Psbt) :
    emitChangeAndPad enc plan change psbt = emitChange enc plan change psbt := by
  have hpad : ∀ psbt, emitRevealPad enc plan psbt = .ok psbt := by
    intro psbt
    unfold emitRevealPad
    split
    · rw [if_neg (by simp [hfunding])]
    · rfl
  unfold emitChangeAndPad
  cases emitChange enc plan change psbt with
  | error e => rfl
  | ok psbt' => exact hpad psbt'

theorem emitChange_eq_ok (hpays : ChangePays enc plan) {psbt psbt' : Psbt} :
    emitChange enc plan (changeWith enc plan emitted sel package) psbt = .ok psbt' ↔
      (∀ out ∈ changeOutputWith enc plan emitted sel package, out.value ≤ maxSatoshiU64) ∧
        psbt' = { psbt with outputs := psbt.outputs ++ changeOutputWith enc plan emitted sel package } := by
  unfold emitChange changeOutputWith
  cases hchange : plan.request.change with
  | none =>
    simp only [Option.bind_none, List.append_nil]
    exact ⟨fun h => ⟨fun _ h => (List.not_mem_nil h).elim, (Except.ok.inj h).symm⟩,
      fun h => by rw [h.2]⟩
  | some address =>
    obtain ⟨script, hscript⟩ := Option.ne_none_iff_exists'.mp (hpays address hchange)
    simp only [Option.bind_some, hscript]
    have hpos := enc.dustAmount_pos
    have hle := enc.dustAmount_le_outputFloor
    by_cases hworth : enc.outputFloor ≤ changeWith enc plan emitted sel package
    · rw [if_pos ⟨by omega, hworth⟩, if_pos hworth, Psbt.addAddressOutput_eq_ok]
      simp only [hscript, Option.some.injEq, exists_eq_left', Psbt.addOutput_eq_ok,
        Bool.false_eq_true, if_false, List.mem_singleton, forall_eq]
      exact ⟨fun h => h.2, fun h => ⟨by omega, h⟩⟩
    · rw [if_neg fun h => hworth h.2, if_neg hworth]
      simp only [List.append_nil]
      exact ⟨fun h => ⟨fun _ h => (List.not_mem_nil h).elim, (Except.ok.inj h).symm⟩,
        fun h => by rw [h.2]⟩

variable (enc plan package) in
/-- **Settlement accepts a funding selection exactly where its conditions hold**, and makes the
transaction of the package. -/
theorem settleChange_eq_ok (hfunding : plan.isReveal = false) (hpays : ChangePays enc plan)
    (hplaced : PrefundPlaced emitted.emission.revealPrefund sel.psbt.outputs) :
    ∃ pre, PrefundedBy emitted sel (prefundWith enc plan emitted sel package) pre ∧ ∀ r,
      settleChange enc plan emitted sel (upliftBy enc plan emitted sel package) = .ok r ↔
        SettlesWith enc plan emitted sel package ∧
          r = (pre, changeWith enc plan emitted sel package, psbtWith enc plan emitted sel package) := by
  obtain ⟨pre, hpre, hby⟩ := prefundRevealPackage_eq enc plan package hplaced
  refine ⟨pre, hby, fun r => ?_⟩
  have hchange : sel.inputSatoshis - pre.outputSatoshis - feeWith enc plan emitted sel package =
      changeWith enc plan emitted sel package := by
    rw [hby.outputSatoshis, changeWith]
    omega
  have hpsbt : Psbt.mk pre.psbt.inputs
      (pre.psbt.outputs ++ changeOutputWith enc plan emitted sel package) =
      psbtWith enc plan emitted sel package := by
    rw [hby.psbt, psbtWith]
  show prefundRevealPackage enc plan emitted sel (upliftBy enc plan emitted sel package)
    (feeWith enc plan emitted sel package) >>= _ = .ok r ↔ _
  rw [hpre]
  show computeChange enc plan sel pre.outputSatoshis (feeWith enc plan emitted sel package) >>= _ =
    .ok r ↔ _
  simp only [bind_eq_ok, computeChange, ensure_eq_ok, hchange, hfunding, Bool.false_or,
    decide_eq_true_eq, Bool.or_eq_true, emitChangeAndPad_funding hfunding, refuseUnderStrippedFloor]
  constructor
  · rintro ⟨_, ⟨_, hfunded, _, haddress, heq⟩, psbt, hemit, _, hrelays, hr⟩
    cases heq
    cases hr
    obtain ⟨hrange, hmade⟩ := (emitChange_eq_ok hpays).mp hemit
    rw [hpsbt] at hmade
    subst hmade
    refine ⟨⟨hfunded, fun hnone => ?_, hrange, hrelays⟩, rfl⟩
    exact haddress.resolve_right (by simp [hnone])
  · rintro ⟨h, rfl⟩
    refine ⟨_, ⟨(), h.funded, (), ?_, rfl⟩, _,
      (emitChange_eq_ok hpays).mpr ⟨h.range, hpsbt.symm⟩, (), h.relays, rfl⟩
    cases hc : plan.request.change with
    | none => exact .inl (h.change hc)
    | some address => exact .inr rfl

/-! ## What the lookups answer -/

/-- The package of the selected inputs that settlement learns. -/
def packageFor (enc : Encoder) (plan : Plan) (sel : Selection) (lookup : Lookup) :
    Option AncestorPackage :=
  if sel.unconfirmedInputTxids ≠ [] ∧ 0 < plan.rates.feePerBytes ∧ 0 < enc.maxCpfpUpliftSat then
    lookup sel.unconfirmedInputTxids
  else none

/-- The fee a reveal keeps when it knows the package of its funding transaction. -/
def keptWith (enc : Encoder) (plan : Plan) (emitted : Emitted) (package : Option AncestorPackage)
    (kept : ℤ) : ℤ :=
  match package with
  | some package =>
    let wanted := packageFeeUpliftSatoshis kept (revealSizeForFee enc plan) package.size
      (round (package.fees * satoshiUnit)) plan.rates.feePerBytes
    if 0 < wanted then clampRevealUplift enc plan emitted wanted kept else kept
  | none => kept

/-- The package of a reveal's funding transaction. -/
def revealPackage (enc : Encoder) (plan : Plan) (p2shHash : Text) (lookup : Lookup) :
    Option AncestorPackage :=
  if 0 < enc.maxCpfpUpliftSat ∧ 0 < plan.rates.feePerBytes then lookup [p2shHash] else none

def sweptWith (enc : Encoder) (plan : Plan) (emitted : Emitted) (lookup : Lookup) (estimatedFee : ℤ)
    (psbt : Psbt) : Except BuildError Psbt :=
  match plan.request.p2shHash with
  | some p2shHash =>
    if sweepsRevealSurplus enc plan ∧ 0 < emitted.emission.phaseLegInputSatoshis then
      emitSweep enc plan emitted (keptWith enc plan emitted (revealPackage enc plan p2shHash lookup)
        (revealFeeKept enc plan emitted estimatedFee)) psbt
    else .ok psbt
  | none => .ok psbt

/-- Settlement as a function of what the lookups answer. -/
def settledWith (enc : Encoder) (b : SelectedBuild) (lookup : Lookup) : Except BuildError Built := do
  let up := upliftBy enc b.plan b.emitted b.selection (packageFor enc b.plan b.selection lookup)
  let estimatedFee := floorEstimatedFee enc b.emitted up.estimatedFee
  refuseInsufficientRelayFee enc b.plan b.emitted b.selection
  refuseExcessiveFee enc b.plan b.emitted b.selection
  let r ← settleChange enc b.plan b.emitted b.selection up
  let psbt ← sweptWith enc b.plan b.emitted lookup estimatedFee r.2.2
  let envelope ← buildEnvelopeReveal enc b.plan psbt r.1.envelopeContext
  return ⟨b.plan, b.price, b.emitted, b.selection, up, estimatedFee, r.1, r.2.1, r.2.2, psbt, envelope⟩

section Alone

variable {reply : Replies sig} {lookup : Lookup} {clock : ℕ} {s : Reservations} {l : Ledger}

end Alone

end XChain
