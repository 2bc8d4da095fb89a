import XChainEncoder.FeeRounding
import XChainEncoder.PricedSizes

/-!
# Marked outputs and the soft dust surcharge

What settlement may change about the outputs of a funding build, and what that means for the
surcharge of outputs under the soft dust limit.

* `Marked`, `returns_emitOutputs_owed`: **the output that may be raised is worth something**;
* `softDustSurchargeFor_eq`, `softDustSurchargeFor_final`: **settlement adds no output under the soft
  dust limit**;
* `returns_buildSteps_dust`: no build's dust value is under the output floor.
-/

namespace XChain

open PushScript TxWeight Coroutine

variable {enc : Encoder} {plan : Plan} {emitted : Emitted} {request : TxRequest}

/-! ## The marked output -/

/-- The output to raise is there, and worth something. -/
def Marked (prefund : Option RevealPrefund) (outputs : List TxOut) : Prop :=
  ∀ p, prefund = some p → ∃ out, outputs[p.outputIndex]? = some out ∧ 0 < out.value

theorem Marked.append {prefund : Option RevealPrefund} {outputs : List TxOut}
    (h : Marked prefund outputs) (more : List TxOut) : Marked prefund (outputs ++ more) := by
  intro p hp
  obtain ⟨out, hout, hpos⟩ := h p hp
  refine ⟨out, ?_, hpos⟩
  rw [List.getElem?_append_left (List.getElem?_eq_some_iff.mp hout).1, hout]

theorem Marked.placed {prefund : Option RevealPrefund} {outputs : List TxOut}
    (h : Marked prefund outputs) : PrefundPlaced prefund outputs := by
  intro p hp
  obtain ⟨out, hout, -⟩ := h p hp
  exact (List.getElem?_eq_some_iff.mp hout).1

/-- What is still owed for the reveal is not negative, and the mark is on an output of value. -/
structure Emission.Owed (e : Emission) : Prop where
  value : 0 ≤ e.revealCustomOutputsValue
  fee : 0 ≤ e.revealCustomOutputsFee
  marked : ∀ psbt, e.psbt = some psbt → Marked e.revealPrefund psbt.outputs

theorem fundCustomOutputs_owed (fee : ℤ) {e : Emission} (he : e.Owed) :
    fee ≤ (fundCustomOutputs fee e).1 ∧ (fundCustomOutputs fee e).2.Owed := by
  have hvalue := he.value
  have hfee := he.fee
  unfold fundCustomOutputs
  split_ifs
  · exact ⟨by dsimp only; omega, le_rfl, le_rfl, he.marked⟩
  · exact ⟨le_rfl, he⟩

/-- What a leg may be topped up by is not negative, and owes nothing more. -/
structure ToppedUp (fee : ℤ) (e : Emission) (r : ℤ × Emission) : Prop where
  fee_le : fee ≤ r.1
  value : r.2.revealCustomOutputsValue = e.revealCustomOutputsValue
  fee : r.2.revealCustomOutputsFee = e.revealCustomOutputsFee

variable (enc plan) in
theorem topUpFirstLeg_owes (price : RevealOutputsPrice) (encoding : Encoding) (fee : ℤ)
    (e : Emission) (psbt : Psbt) : ToppedUp fee e (topUpFirstLeg enc plan price encoding fee e psbt) := by
  have hdust := enc.dustAmount_pos
  have hfloor := enc.dustAmount_le_outputFloor
  unfold topUpFirstLeg
  split_ifs
  · exact ⟨le_rfl, rfl, rfl⟩
  · exact ⟨by dsimp only; omega, rfl, rfl⟩
  · exact ⟨by dsimp only; omega, rfl, rfl⟩

variable (enc plan) in
theorem topUpUnless_owes (price : RevealOutputsPrice) (encoding : Encoding) (c : Prop) [Decidable c]
    (fee : ℤ) (e : Emission) (psbt : Psbt) :
    ToppedUp fee e (if c then topUpFirstLeg enc plan price encoding fee e psbt else (fee, e)) := by
  by_cases hc : c
  · rw [if_pos hc]
    exact topUpFirstLeg_owes enc plan price encoding fee e psbt
  · rw [if_neg hc]
    exact ⟨le_rfl, rfl, rfl⟩

theorem marked_leg {prefund prefund' : Option RevealPrefund} {psbt : Psbt} {script : Bytes} {value : ℤ}
    (h : Marked prefund psbt.outputs) (hvalue : 0 < value)
    (hmark : prefund' = prefund ∨ ∃ p, prefund' = some p ∧ p.outputIndex = psbt.outputs.length) :
    Marked prefund' (psbt.outputs ++ [⟨script, value⟩]) := by
  rcases hmark with rfl | ⟨p, rfl, hp⟩
  · exact h.append _
  · rintro _ ⟨⟩
    exact ⟨⟨script, value⟩, by rw [hp, List.getElem?_concat_length], hvalue⟩

theorem legFee_pos (hdust : 0 < plan.rates.finalDust) (size : ℕ) : 0 < legFee plan.rates size :=
  lt_of_lt_of_le hdust (le_max_right _ _)

theorem fundP2shLeg_owed (hdust : 0 < plan.rates.finalDust) {price : RevealOutputsPrice}
    {e e' : Emission} {chunk : Bytes} (he : e.Owed)
    (h : fundP2shLeg enc plan price e chunk = .ok e') : e'.Owed := by
  simp only [fundP2shLeg, bind_eq_ok, requirePsbt_eq_ok] at h
  obtain ⟨psbt, hpsbt, psbt', hout, heq⟩ := h
  cases heq
  obtain ⟨-, -, rfl⟩ := Psbt.addOutput_eq_ok.mp hout
  obtain ⟨hfee, howed⟩ := fundCustomOutputs_owed (legFee plan.rates
    (estimateSpendingP2shTx chunk)) he
  have htop := topUpFirstLeg_owes enc plan price .p2sh
    (fundCustomOutputs (legFee plan.rates (estimateSpendingP2shTx chunk)) e).1
    (fundCustomOutputs (legFee plan.rates (estimateSpendingP2shTx chunk)) e).2 psbt
  refine ⟨htop.value.symm ▸ howed.value, htop.fee.symm ▸ howed.fee, fun _ hp => ?_⟩
  cases hp
  refine marked_leg (he.marked psbt hpsbt) ?_ ?_
  · exact lt_of_lt_of_le (legFee_pos hdust _) (hfee.trans htop.fee_le)
  · exact (topUpFirstLeg_prefund ..).imp_left fun h => h.trans (fundCustomOutputs_prefund ..)

theorem fundP2wshLeg_owed (hdust : 0 < plan.rates.finalDust) {price : RevealOutputsPrice}
    {e e' : Emission} {chunk : Bytes} (he : e.Owed)
    (h : fundP2wshLeg enc plan price e chunk = .ok e') : e'.Owed := by
  have hpos := enc.dustAmount_pos
  simp only [fundP2wshLeg, bind_eq_ok, requirePsbt_eq_ok] at h
  obtain ⟨psbt, hpsbt, psbt', hout, heq⟩ := h
  cases heq
  obtain ⟨-, -, rfl⟩ := Psbt.addOutput_eq_ok.mp hout
  generalize hbytes : (if revealNeedsFloorPad enc plan.prepared plan.payments.customOutputs then
    estimateOutputSizeForAddress enc.lib enc.network plan.request.change else 0) = padOutputBytes at *
  generalize hlegFee : legFee plan.rates (estimateSpendingP2wshTx enc.network chunk padOutputBytes) +
    (if revealNeedsFloorPad enc plan.prepared plan.payments.customOutputs then enc.dustAmount
      else 0) = fee at *
  have hfeePos : 0 < fee := by
    have := legFee_pos hdust (estimateSpendingP2wshTx enc.network chunk padOutputBytes)
    rw [← hlegFee]
    split_ifs <;> omega
  obtain ⟨hfee, howed⟩ := fundCustomOutputs_owed fee he
  have htop := topUpUnless_owes enc plan price .p2wsh (padOutputBytes = 0)
    (fundCustomOutputs fee e).1 (fundCustomOutputs fee e).2 psbt
  refine ⟨htop.value.symm ▸ howed.value, htop.fee.symm ▸ howed.fee, fun _ hp => ?_⟩
  cases hp
  refine marked_leg (he.marked psbt hpsbt) ?_ ?_
  · exact lt_of_lt_of_le hfeePos (hfee.trans htop.fee_le)
  · exact (topUpUnless_prefund ..).imp_left fun h => h.trans (fundCustomOutputs_prefund ..)

theorem loadFundingTx_owed {e e' : Emission} (he : e.Owed)
    (h : loadFundingTx enc plan e = .ok e') : e'.Owed := by
  unfold loadFundingTx at h
  split at h
  · split at h
    · cases h
    · obtain ⟨_, -, heq⟩ := bind_eq_ok.mp h
      cases heq
      exact ⟨he.value, he.fee, he.marked⟩
  · cases h
    exact he

theorem emitDataOutput_owed {e e' : Emission} {script : Bytes} {value : ℤ} {size : ℕ}
    (he : e.Owed) (h : emitDataOutput e script value size = .ok e') :
    e'.Owed ∧ ∃ psbt, e.psbt = some psbt ∧ ∃ psbt', e'.psbt = some psbt' ∧
      psbt'.outputs = psbt.outputs ++ [⟨script, value⟩] := by
  simp only [emitDataOutput, bind_eq_ok, requirePsbt_eq_ok] at h
  obtain ⟨psbt, hpsbt, psbt', hout, heq⟩ := h
  cases heq
  obtain ⟨-, -, rfl⟩ := Psbt.addOutput_eq_ok.mp hout
  refine ⟨⟨he.value, he.fee, fun _ hp => ?_⟩, psbt, hpsbt, _, rfl, rfl⟩
  cases hp
  exact (he.marked psbt hpsbt).append _

theorem emitEnvelopeCommit_owed (hdust : 0 < plan.rates.finalDust) {e e' : Emission}
    {chunk : Bytes} (he : e.Owed) (h : emitEnvelopeCommit enc plan e chunk = .ok e') : e'.Owed := by
  have hpos := enc.dustAmount_pos
  simp only [emitEnvelopeCommit, bind_eq_ok, requirePsbt_eq_ok] at h
  obtain ⟨psbt, hpsbt, h⟩ := h
  cases hscript : p2trScript enc.lib (plan.prepared.internalPubkey.getD []) chunk with
  | none =>
    rw [hscript] at h
    cases h
  | some script =>
    simp only [hscript, bind_eq_ok] at h
    obtain ⟨address, -, e'', hout, heq⟩ := h
    cases heq
    obtain ⟨howed, _, hpsbt', psbt', hp', houtputs⟩ := emitDataOutput_owed he hout
    cases hpsbt.symm.trans hpsbt'
    refine ⟨howed.value, howed.fee, fun q hq => ?_⟩
    cases hp'.symm.trans hq
    rintro _ ⟨⟩
    rw [houtputs]
    refine ⟨_, List.getElem?_concat_length, ?_⟩
    dsimp only
    generalize feeForVsize _ plan.rates.feePerBytes = fee
    have hfee : plan.rates.finalDust ≤ max fee plan.rates.finalDust := le_max_right _ _
    split_ifs <;> omega

theorem returns_emitChunk_owed (hdust : 0 < plan.rates.finalDust) {price : RevealOutputsPrice}
    (hfunding : plan.isReveal = false) {e : Emission} (he : e.Owed) (chunk : Bytes) :
    Returns Emission.Owed (emitChunk enc plan price e chunk) := by
  have hnone : plan.request.p2shHash = none := by simpa [Plan.isReveal] using hfunding
  unfold emitChunk
  cases plan.prepared.encoding with
  | opReturn =>
    exact .bind_right fun d => returns_ofExcept fun e' h => (emitDataOutput_owed he h).1
  | multisign =>
    refine .bind_right fun d => .bind_right fun _ => .bind_right fun _ =>
      returns_ofExcept fun e' h => ?_
    unfold emitMultisignOutput at h
    split at h
    · cases h
    · split at h
      · cases h
      · exact (emitDataOutput_owed he h).1
  | taproot => exact returns_ofExcept fun e' h => emitEnvelopeCommit_owed hdust he h
  | p2sh =>
    refine .bind (returns_ofExcept fun e' h => loadFundingTx_owed he h) fun e' he' => ?_
    rw [hnone]
    exact returns_ofExcept fun e'' h => fundP2shLeg_owed hdust he' h
  | p2wsh =>
    refine .bind (returns_ofExcept fun e' h => loadFundingTx_owed he h) fun e' he' => ?_
    rw [hnone]
    exact returns_ofExcept fun e'' h => fundP2wshLeg_owed hdust he' h

theorem returns_emitDataOutputs_owed (hdust : 0 < plan.rates.finalDust)
    {price : RevealOutputsPrice} (hfunding : plan.isReveal = false) (chunks : List Bytes)
    {e : Emission} (he : e.Owed) :
    Returns Emission.Owed (emitDataOutputs enc plan price chunks e) := by
  induction chunks generalizing e with
  | nil => exact he
  | cons chunk rest ih =>
    exact .bind (returns_emitChunk_owed hdust hfunding he chunk) fun e' he' => ih he'

/-! ### What the reveal's outputs are priced at -/

theorem parseOutputValues_nonneg {outputs : List CustomOutput} {i : ℕ} {values : List ℤ}
    (h : parseOutputValues outputs i = .ok values) : 0 ≤ values.sum := by
  induction outputs generalizing i values with
  | nil =>
    cases h
    exact le_rfl
  | cons o rest ih =>
    obtain ⟨v, hv, h⟩ := bind_eq_ok.mp h
    obtain ⟨vs, hvs, heq⟩ := bind_eq_ok.mp h
    cases heq
    obtain ⟨rfl, hnonneg, -, -⟩ := parseSatoshiAmount_eq_ok.mp hv
    have hrest := ih hvs
    rw [List.sum_cons]
    omega

theorem softDustSurchargeFor_eq (values : List ℤ) (floor : ℤ) :
    softDustSurchargeFor values floor =
      if 0 < floor then floor * values.countP (fun v => 0 < v ∧ v < floor) else 0 := by
  have hfold : ∀ (values : List ℤ) (a : ℤ), values.foldl (fun surcharge v =>
      if 0 < v ∧ v < floor then surcharge + floor else surcharge) a =
        a + floor * values.countP (fun v => 0 < v ∧ v < floor) := by
    intro values
    induction values with
    | nil => simp
    | cons v rest ih =>
      intro a
      rw [List.foldl_cons, ih, List.countP_cons]
      by_cases hv : 0 < v ∧ v < floor
      · simp only [hv, and_self, if_true, decide_true]
        push_cast
        ring
      · simp only [hv, if_false, decide_false, Bool.false_eq_true, add_zero]
  unfold softDustSurchargeFor
  by_cases hfloor : 0 < floor
  · rw [if_pos hfloor, if_pos hfloor, hfold, zero_add]
  · rw [if_neg hfloor, if_neg hfloor]

theorem softDustSurchargeFor_nonneg (values : List ℤ) (floor : ℤ) :
    0 ≤ softDustSurchargeFor values floor := by
  rw [softDustSurchargeFor_eq]
  split_ifs with h
  · positivity
  · exact le_rfl

theorem owed_start {price : RevealOutputsPrice} {rates : FeeRates} {isReveal family : Bool}
    {outputs : List CustomOutput}
    (h : priceRevealCustomOutputs enc rates isReveal family outputs = .ok price) :
    (Emission.start plan price).Owed := by
  have hprice : 0 ≤ price.value ∧ 0 ≤ price.fee := by
    unfold priceRevealCustomOutputs at h
    split_ifs at h with hnone
    · cases h
      exact ⟨le_rfl, le_rfl⟩
    · obtain ⟨values, hvalues, heq⟩ := bind_eq_ok.mp h
      cases heq
      refine ⟨parseOutputValues_nonneg hvalues, ?_⟩
      have hsurcharge := softDustSurchargeFor_nonneg (outputs.map CustomOutput.value)
        (softDustFloorFor enc.network)
      have hsize : ∀ n : ℕ, 0 ≤ if 0 < n ∧ 0 < rates.feePerBytes then
          feeForVsize n rates.feePerBytes else 0 := by
        intro n
        split_ifs with hn
        · exact feeForVsize_nonneg hn.2.le n
        · exact le_rfl
      have hfee := hsize (outputs.map fun o =>
        estimateOutputSizeForAddress enc.lib enc.network (some o.address)).sum
      dsimp only
      by_cases hbytes : 0 < (outputs.map fun o =>
          estimateOutputSizeForAddress enc.lib enc.network (some o.address)).sum
      · rw [if_pos hbytes]
        exact add_nonneg hfee hsurcharge
      · rw [if_neg hbytes]
        exact hfee
  exact ⟨hprice.1, hprice.2, fun _ _ _ hp => by cases hp⟩

variable (enc) in
/-- **The output that a funding build marks is worth something.** -/
theorem returns_emitOutputs_owed (hdust : 0 < plan.rates.finalDust)
    (hfunding : plan.isReveal = false) :
    Returns (fun r => Marked r.2.emission.revealPrefund r.2.psbt.outputs) (emitOutputs enc plan) := by
  refine .bind (returns_ofExcept fun _ h => h) fun price hprice => ?_
  refine .bind (returns_emitDataOutputs_owed hdust hfunding _ (owed_start hprice)) fun e he => ?_
  refine .bind (returns_ofExcept fun _ h => h) fun em hem => ?_
  simp only [emitCustomOutputs, bind_eq_ok, requirePsbt_eq_ok] at hem
  obtain ⟨psbt, hpsbt, acc, hacc, heq⟩ := hem
  cases heq
  obtain ⟨more, hmore⟩ := (extends_emitPayments _ _ _ _ hacc).outputs
  show Marked e.revealPrefund acc.1.outputs
  rw [← hmore]
  exact (he.marked psbt hpsbt).append more

/-! ## The soft dust surcharge -/

theorem countP_modify_le {α : Type} {p : α → Bool} {f : α → α} {i : ℕ} {l : List α}
    (h : ∀ x, l[i]? = some x → p (f x) = true → p x = true) :
    (l.modify i f).countP p ≤ l.countP p := by
  induction l generalizing i with
  | nil => simp
  | cons a rest ih =>
    cases i with
    | zero =>
      have ha := h a rfl
      simp only [List.modify_zero_cons, List.countP_cons]
      by_cases hp : p (f a) = true
      · rw [if_pos hp, if_pos (ha hp)]
      · rw [if_neg hp]
        omega
    | succ i =>
      have hrest := ih (i := i) fun x hx => h x (by simpa using hx)
      simp only [List.modify_succ_cons, List.countP_cons]
      omega

variable {sel : Selection}

variable (enc plan) in
/-- **Settlement adds no output under the soft dust limit.** -/
theorem softDustSurchargeFor_final (package : Option AncestorPackage)
    (hmarked : Marked emitted.emission.revealPrefund sel.psbt.outputs)
    (hprefund : 0 ≤ prefundWith enc plan emitted sel package) :
    softDustSurchargeFor ((psbtWith enc plan emitted sel package).outputs.map TxOut.value)
        (softDustFloorFor enc.network) ≤
      softDustSurchargeFor (sel.psbt.outputs.map TxOut.value) (softDustFloorFor enc.network) := by
  rw [softDustSurchargeFor_eq, softDustSurchargeFor_eq]
  split_ifs with hfloor
  · refine Int.mul_le_mul_of_nonneg_left (Int.ofNat_le.mpr ?_) hfloor.le
    have hchange : (changeOutputWith enc plan emitted sel package).countP
        ((fun v => decide (0 < v ∧ v < softDustFloorFor enc.network)) ∘ TxOut.value) = 0 := by
      rw [List.countP_eq_zero]
      intro out hout
      have hle : softDustFloorFor enc.network ≤ enc.outputFloor :=
        (le_max_right _ _).trans (le_max_left _ _)
      unfold changeOutputWith at hout
      split at hout
      · split_ifs at hout with hworth
        · rw [List.mem_singleton.mp hout]
          simp only [Function.comp_apply, decide_eq_true_eq]
          omega
        · cases hout
      · cases hout
    rw [psbtWith, List.countP_map, List.countP_map, List.countP_append, hchange, add_zero]
    unfold raisedOutputs
    split
    · next prefund hmark =>
      refine countP_modify_le fun out hout hunder => ?_
      obtain ⟨out', hout', hpos⟩ := hmarked prefund hmark
      cases hout.symm.trans hout'
      simp only [Function.comp_apply, decide_eq_true_eq] at hunder ⊢
      omega
    · exact le_rfl
  · exact le_rfl

/-! ## The dust value of a build -/

variable (enc) in
theorem outputFloor_pos : 0 < enc.outputFloor :=
  enc.dustAmount_pos.trans_le enc.dustAmount_le_outputFloor

variable (enc) in
theorem outputFloor_le_finalDust (dust : Option ℤ) : enc.outputFloor ≤ finalDust enc dust := by
  unfold finalDust
  split
  · split_ifs
    · exact le_max_right _ _
    · exact le_rfl
  · exact le_rfl

theorem returns_resolveFeeRates_dust (feePerKb : Option ℚ) (dust : Option ℤ) :
    Returns (fun rates => enc.outputFloor ≤ rates.finalDust) (resolveFeeRates enc feePerKb dust) := by
  refine .bind_right fun relay => ?_
  cases callerRate feePerKb with
  | some rate => exact Returns.bind_right fun r => outputFloor_le_finalDust enc dust
  | none => exact Returns.bind_right fun r => outputFloor_le_finalDust enc dust

theorem returns_prepareBuild_dust :
    Returns (fun pre => enc.outputFloor ≤ pre.rates.finalDust) (prepareBuild enc request) := by
  refine .bind_right fun payments => .bind (returns_resolveFeeRates_dust _ _) fun rates hrates => ?_
  refine .bind_right fun input => .bind_right fun compiled => .bind_right fun encoding => ?_
  refine .bind_right fun _ => .bind_right fun _ => .bind_right fun gathered => ?_
  exact .bind_right fun _ => .bind_right fun candidates => hrates

/-- **No build's dust value is under the output floor.** -/
theorem returns_buildSteps_dust :
    Returns (fun b => enc.outputFloor ≤ b.plan.rates.finalDust) (buildSteps enc request) := by
  refine .bind returns_prepareBuild_dust fun pre hpre => .bind_right fun bound => ?_
  refine .bind (R := fun b : Built => enc.outputFloor ≤ b.plan.rates.finalDust) ?_
    fun b hb => returns_finishBuild hb
  refine .bind (returns_ofExcept fun _ h => h) fun plan hplan => .bind_right fun r => ?_
  obtain ⟨prepared, -, heq⟩ := bind_eq_ok.mp hplan
  cases heq
  refine .bind_right fun start => .bind_right fun sel => ?_
  refine always_mono (fun b hb => ?_) (fun _ h => h) (returns_settled r.1 sel)
  rw [hb.1]
  exact hpre

end XChain
