import XChainEncoder.SelectionSteps

/-!
# What emission spends

* `legs`: the outpoints a reveal spends;
* `returns_emitOutputs`: **emission spends those and no others**.
-/

namespace XChain

open PushScript Coroutine

variable {enc : Encoder} {plan : Plan}

/-! ## What emission spends -/

/-- The outpoints of the transaction under construction. -/
def Emission.outpoints (e : Emission) : List Outpoint := (e.psbt.map Psbt.outpoints).getD []

/-- The first `n` outputs of the funding transaction a reveal names. -/
def legs (p2shHash : Option Text) (n : ℕ) : List Outpoint :=
  match p2shHash with
  | some h => (List.range n).map fun i => ⟨lower h, i⟩
  | none => []

theorem legs_zero (p2shHash : Option Text) : legs p2shHash 0 = [] := by
  cases p2shHash <;> rfl

theorem legs_succ (h : Text) (n : ℕ) :
    legs (some h) (n + 1) = legs (some h) n ++ [⟨lower h, n⟩] := by
  simp [legs, List.range_succ]

/-- After `n` chunks the legs of `n` chunks are spent. -/
structure Emitting (plan : Plan) (n : ℕ) (e : Emission) : Prop where
  outpoints : e.outpoints = legs plan.request.p2shHash n
  vout : plan.isReveal = true → e.voutPsbtIndex = n
  /-- A reveal of another carrier, or without the funding transaction, never starts. -/
  noPsbt : plan.isReveal = true → (plan.isP2shFamily = false ∨ plan.request.p2shHex = none) →
    e.psbt = none
  noTx : plan.request.p2shHex = none → e.p2shTx = none

theorem emitting_start (price : RevealOutputsPrice) :
    Emitting plan 0 (Emission.start plan price) where
  outpoints := by
    rw [legs_zero]
    unfold Emission.start Emission.outpoints
    cases plan.isReveal <;> rfl
  vout _ := rfl
  noPsbt h _ := by simp [Emission.start, h]
  noTx _ := rfl

theorem outpoints_addOutput {psbt psbt' : Psbt} {script : Bytes} {value : ℤ} {plainNumber : Bool}
    (h : psbt.addOutput script value plainNumber = .ok psbt') :
    psbt'.outpoints = psbt.outpoints := by
  unfold Psbt.outpoints
  rw [(Psbt.outputTotal_addOutput h).2]

theorem outpoints_addAddressOutput {L : Library} {network : Network} {psbt psbt' : Psbt}
    {address : Text} {value : ℤ} {plainNumber : Bool}
    (h : psbt.addAddressOutput L network address value plainNumber = .ok psbt') :
    psbt'.outpoints = psbt.outpoints := by
  obtain ⟨script, -, h⟩ := Psbt.addAddressOutput_eq_ok.mp h
  exact outpoints_addOutput h

theorem emitDataOutput_spends {e e' : Emission} {script : Bytes} {value : ℤ} {size : ℕ}
    (h : emitDataOutput e script value size = .ok e') :
    e'.outpoints = e.outpoints ∧ e.psbt ≠ none ∧ e'.p2shTx = e.p2shTx := by
  simp only [emitDataOutput, bind_eq_ok, requirePsbt_eq_ok] at h
  obtain ⟨psbt, hp, psbt', ho, he⟩ := h
  cases he
  exact ⟨by simp [Emission.outpoints, hp, outpoints_addOutput ho], by simp [hp], rfl⟩

theorem Emitting.output {n : ℕ} {e e' : Emission} (h : Emitting plan n e)
    (ho : e'.outpoints = e.outpoints ∧ e.psbt ≠ none ∧ e'.p2shTx = e.p2shTx)
    (hfam : plan.isReveal = true → plan.isP2shFamily = false) : Emitting plan (n + 1) e' := by
  obtain ⟨ho, hp, htx⟩ := ho
  cases hr : plan.isReveal with
  | true => exact absurd (h.noPsbt hr (.inl (hfam hr))) hp
  | false =>
    have hnone : plan.request.p2shHash = none := by simpa [Plan.isReveal] using hr
    refine ⟨?_, fun h' => ?_, fun h' => ?_, fun hx => htx.trans (h.noTx hx)⟩
    · rw [ho, h.outpoints, hnone]
      rfl
    · rw [hr] at h'
      cases h'
    · rw [hr] at h'
      cases h'

theorem returns_startReveal (marker : Bytes) (e : Emission) :
    Returns (fun r => r.1.outpoints = e.outpoints) (startReveal enc marker e) := by
  unfold startReveal
  cases hp : e.psbt with
  | some psbt => exact (by simp [Emission.outpoints, hp] : psbt.outpoints = e.outpoints)
  | none =>
    refine .bind_right fun d => .bind (returns_ofExcept fun psbt ho => outpoints_addOutput ho) ?_
    intro psbt ho
    exact ho.trans (by simp [Emission.outpoints, hp, Psbt.outpoints, Psbt.empty])

theorem addLegInput_spends {e e' : Emission} {psbt : Psbt} {leg : TxOut} {input : PsbtInput}
    {size : ℕ} (h : addLegInput enc psbt e leg input size = .ok e') :
    e'.outpoints = psbt.outpoints ++ [⟨lower input.hash, input.index⟩] ∧
      e'.voutPsbtIndex = e.voutPsbtIndex + 1 := by
  simp only [addLegInput, bind_eq_ok] at h
  obtain ⟨psbt', hp, he⟩ := h
  cases he
  exact ⟨outpoints_addInput hp, rfl⟩

theorem nextLeg_tx {e : Emission} {leg : TxOut} (h : nextLeg e = .ok leg) : e.p2shTx ≠ none := by
  intro hn
  simp [nextLeg, hn] at h

theorem returns_spendP2shLeg (h : Text) (e : Emission) (chunk : Bytes) :
    Returns (fun e' => e'.outpoints = e.outpoints ++ [⟨lower h, e.voutPsbtIndex⟩] ∧
      e'.voutPsbtIndex = e.voutPsbtIndex + 1 ∧ e.p2shTx ≠ none)
      (spendP2shLeg enc plan h e chunk) := by
  refine .bind (returns_startReveal _ e) fun r hr => ?_
  refine .bind (returns_ofExcept fun leg hleg => nextLeg_tx hleg) fun leg htx => ?_
  refine .bind_right fun _ => returns_ofExcept fun e' he => ?_
  obtain ⟨ho, hv⟩ := addLegInput_spends he
  exact ⟨by rw [ho, hr], hv, htx⟩

theorem returns_spendP2wshLeg (h : Text) (e : Emission) (chunk : Bytes) :
    Returns (fun e' => e'.outpoints = e.outpoints ++ [⟨lower h, e.voutPsbtIndex⟩] ∧
      e'.voutPsbtIndex = e.voutPsbtIndex + 1 ∧ e.p2shTx ≠ none)
      (spendP2wshLeg enc plan h e chunk) := by
  refine .bind (returns_startReveal _ e) fun r hr => ?_
  refine .bind (returns_ofExcept fun leg hleg => nextLeg_tx hleg) fun leg htx => ?_
  refine .bind_right fun _ => returns_ofExcept fun e' he => ?_
  obtain ⟨ho, hv⟩ := addLegInput_spends he
  exact ⟨by rw [ho, hr], hv, htx⟩

@[simp] theorem fundCustomOutputs_p2shTx (fee : ℤ) (e : Emission) :
    (fundCustomOutputs fee e).2.p2shTx = e.p2shTx := by
  unfold fundCustomOutputs
  split_ifs <;> rfl

@[simp] theorem topUpFirstLeg_p2shTx (price : RevealOutputsPrice) (encoding : Encoding) (fee : ℤ)
    (e : Emission) (psbt : Psbt) :
    (topUpFirstLeg enc plan price encoding fee e psbt).2.p2shTx = e.p2shTx := by
  unfold topUpFirstLeg
  split_ifs <;> rfl

theorem fundP2shLeg_spends {price : RevealOutputsPrice} {e e' : Emission} {chunk : Bytes}
    (h : fundP2shLeg enc plan price e chunk = .ok e') :
    e'.outpoints = e.outpoints ∧ e.psbt ≠ none ∧ e'.p2shTx = e.p2shTx := by
  simp only [fundP2shLeg, bind_eq_ok, requirePsbt_eq_ok] at h
  obtain ⟨psbt, hp, psbt', ho, he⟩ := h
  cases he
  exact ⟨by simp [Emission.outpoints, hp, outpoints_addOutput ho], by simp [hp], by simp⟩

theorem fundP2wshLeg_spends {price : RevealOutputsPrice} {e e' : Emission} {chunk : Bytes}
    (h : fundP2wshLeg enc plan price e chunk = .ok e') :
    e'.outpoints = e.outpoints ∧ e.psbt ≠ none ∧ e'.p2shTx = e.p2shTx := by
  simp only [fundP2wshLeg, bind_eq_ok, requirePsbt_eq_ok] at h
  obtain ⟨psbt, hp, psbt', ho, he⟩ := h
  cases he
  refine ⟨by simp [Emission.outpoints, hp, outpoints_addOutput ho], by simp [hp], ?_⟩
  dsimp only
  split_ifs <;> simp only [topUpFirstLeg_p2shTx, fundCustomOutputs_p2shTx]

theorem loadFundingTx_spends {e e' : Emission} (h : loadFundingTx enc plan e = .ok e') :
    e'.outpoints = e.outpoints ∧ e'.voutPsbtIndex = e.voutPsbtIndex ∧ e'.psbt = e.psbt ∧
      (plan.request.p2shHex = none → e'.p2shTx = e.p2shTx) := by
  unfold loadFundingTx at h
  split at h
  · rename_i hhex _
    split at h
    · cases h
    · simp only [bind_eq_ok] at h
      obtain ⟨_, -, he⟩ := h
      cases he
      exact ⟨rfl, rfl, rfl, fun hn => by simp [hhex] at hn⟩
  · cases h
    exact ⟨rfl, rfl, rfl, fun _ => rfl⟩

theorem Emitting.load {n : ℕ} {e e' : Emission} (h : Emitting plan n e)
    (hl : loadFundingTx enc plan e = .ok e') : Emitting plan n e' := by
  obtain ⟨ho, hv, hp, htx⟩ := loadFundingTx_spends hl
  exact ⟨ho.trans h.outpoints, fun hr => hv.trans (h.vout hr),
    fun hr hf => hp.trans (h.noPsbt hr hf), fun hx => (htx hx).trans (h.noTx hx)⟩

theorem Emitting.leg {n : ℕ} {e e' : Emission} {h : Text} (he : Emitting plan n e)
    (hh : plan.request.p2shHash = some h) (hfam : plan.isP2shFamily = true)
    (ho : e'.outpoints = e.outpoints ++ [⟨lower h, e.voutPsbtIndex⟩] ∧
      e'.voutPsbtIndex = e.voutPsbtIndex + 1 ∧ e.p2shTx ≠ none) : Emitting plan (n + 1) e' := by
  have hr : plan.isReveal = true := by simp [Plan.isReveal, hh]
  have hhex : plan.request.p2shHex ≠ none := fun hx => ho.2.2 (he.noTx hx)
  refine ⟨?_, fun _ => by rw [ho.2.1, he.vout hr], fun _ hf => ?_, fun hx => absurd hx hhex⟩
  · rw [ho.1, he.outpoints, he.vout hr, hh, legs_succ]
  · rcases hf with hf | hf
    · rw [hfam] at hf
      cases hf
    · exact absurd hf hhex

/-- **A chunk spends its own leg in a reveal, and nothing elsewhere.** -/
theorem returns_emitChunk (price : RevealOutputsPrice) {n : ℕ} {e : Emission}
    (he : Emitting plan n e) (chunk : Bytes) :
    Returns (Emitting plan (n + 1)) (emitChunk enc plan price e chunk) := by
  unfold emitChunk
  have hfam : ∀ {enc : Encoding}, plan.prepared.encoding = enc → enc ≠ .p2sh → enc ≠ .p2wsh →
      plan.isP2shFamily = false := by
    intro enc h h1 h2
    simp [Plan.isP2shFamily, h, h1, h2]
  have hout : ∀ {e' : Emission} {script : Bytes} {value : ℤ} {size : ℕ},
      plan.isP2shFamily = false → emitDataOutput e script value size = .ok e' →
      Emitting plan (n + 1) e' := fun hf ho =>
    he.output (emitDataOutput_spends ho) fun _ => hf
  cases henc : plan.prepared.encoding with
  | opReturn =>
    exact .bind_right fun d => returns_ofExcept fun e' ho =>
      hout (hfam henc (by decide) (by decide)) ho
  | multisign =>
    refine .bind_right fun d => .bind_right fun _ => .bind_right fun _ =>
      returns_ofExcept fun e' ho => ?_
    unfold emitMultisignOutput at ho
    split at ho
    · cases ho
    · split at ho
      · cases ho
      · exact hout (hfam henc (by decide) (by decide)) ho
  | taproot =>
    refine returns_ofExcept fun e' ho => ?_
    simp only [emitEnvelopeCommit, bind_eq_ok, requirePsbt_eq_ok] at ho
    obtain ⟨psbt, hp, ho⟩ := ho
    split at ho
    · cases ho
    · simp only [bind_eq_ok] at ho
      obtain ⟨_, -, e'', ho, heq⟩ := ho
      cases heq
      have h' := hout (hfam henc (by decide) (by decide)) ho
      exact ⟨h'.outpoints, h'.vout, h'.noPsbt, h'.noTx⟩
  | p2sh =>
    have hf : plan.isP2shFamily = true := by simp [Plan.isP2shFamily, henc]
    refine .bind (returns_ofExcept fun e' hl => he.load hl) fun e' he' => ?_
    cases hh : plan.request.p2shHash with
    | none =>
      have hr : plan.isReveal = false := by simp [Plan.isReveal, hh]
      refine returns_ofExcept fun e'' ho => ?_
      exact he'.output (fundP2shLeg_spends ho) (by simp [hr])
    | some h =>
      exact always_mono (fun e'' ho => he'.leg hh hf ho) (fun _ h => h)
        (returns_spendP2shLeg h e' chunk)
  | p2wsh =>
    have hf : plan.isP2shFamily = true := by simp [Plan.isP2shFamily, henc]
    refine .bind (returns_ofExcept fun e' hl => he.load hl) fun e' he' => ?_
    cases hh : plan.request.p2shHash with
    | none =>
      have hr : plan.isReveal = false := by simp [Plan.isReveal, hh]
      refine returns_ofExcept fun e'' ho => ?_
      exact he'.output (fundP2wshLeg_spends ho) (by simp [hr])
    | some h =>
      exact always_mono (fun e'' ho => he'.leg hh hf ho) (fun _ h => h)
        (returns_spendP2wshLeg h e' chunk)

theorem returns_emitDataOutputs (price : RevealOutputsPrice) (chunks : List Bytes) {n : ℕ}
    {e : Emission} (he : Emitting plan n e) :
    Returns (Emitting plan (n + chunks.length)) (emitDataOutputs enc plan price chunks e) := by
  induction chunks generalizing n e with
  | nil => exact he
  | cons chunk rest ih =>
    refine .bind (returns_emitChunk price he chunk) fun e' he' => ?_
    rw [List.length_cons, Nat.add_comm rest.length, ← Nat.add_assoc]
    exact ih he'

theorem outpoints_emitPayments {feeQuoteIndex : Option ℕ} (outputs : List CustomOutput) (i : ℕ)
    (acc acc' : Psbt × ℤ × ℕ) (h : emitPayments enc feeQuoteIndex outputs i acc = .ok acc') :
    acc'.1.outpoints = acc.1.outpoints := by
  induction outputs generalizing i acc with
  | nil =>
    cases h
    rfl
  | cons output outputs ih =>
    obtain ⟨psbt, outputSatoshis, size⟩ := acc
    obtain ⟨v, psbt', -, -, hp, h⟩ := emitPayments_cons.mp h
    exact (ih _ _ h).trans (outpoints_addAddressOutput hp)

/-- **Emission spends the legs of a reveal, and nothing in a funding build.** -/
theorem returns_emitOutputs :
    Returns (fun r => r.2.psbt.outpoints =
        legs plan.request.p2shHash plan.prepared.dataBufferArray.length ∧
      (plan.isReveal = true → plan.request.p2shHex ≠ none)) (emitOutputs enc plan) := by
  refine .bind_right fun price => ?_
  refine .bind (returns_emitDataOutputs price plan.prepared.dataBufferArray (emitting_start price))
    fun e he => ?_
  refine .bind (returns_ofExcept
    (R := fun em => em.psbt.outpoints = e.outpoints ∧ e.psbt ≠ none) fun em hem => ?_)
    fun em hem => ?_
  · simp only [emitCustomOutputs, bind_eq_ok, requirePsbt_eq_ok] at hem
    obtain ⟨psbt, hp, acc, hacc, heq⟩ := hem
    cases heq
    exact ⟨(outpoints_emitPayments _ _ _ _ hacc).trans (by simp [Emission.outpoints, hp]),
      by simp [hp]⟩
  · refine ⟨hem.1.trans (by simpa using he.outpoints), fun hr hx => hem.2 ?_⟩
    exact he.noPsbt hr (.inr hx)

end XChain
