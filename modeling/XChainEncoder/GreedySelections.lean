import XChainEncoder.Payouts

/-!
# Greedy selections

A build takes candidates in their order, no more of them than it needs, and leaves none aside that
it could have taken.

* `Grown`: a selection with the candidates it has seen and those it spends;
* `returns_selectLoop_grown`: **a walk takes a candidate only while those before it do not suffice**;
* `Grown.take_short`: every shorter selection on the way was not enough;
* `selection_economical`: the same of every transaction that a call returned, in every run.
-/

namespace XChain

open Coroutine

variable {enc : Encoder} {plan : Plan} {emitted : Emitted} {request : TxRequest} {start : Selection}

/-! ## One candidate after the other -/

/-- A selection that has `seen` candidates and spends some of them: a candidate that another build
holds is passed over, and one is taken only while those taken before are not enough. -/
inductive Grown (enc : Encoder) (plan : Plan) (emitted : Emitted) (start : Selection) :
    List Utxo → List Utxo → Selection → Prop where
  | start : Grown enc plan emitted start [] [] start
  | pass {seen spent : List Utxo} {acc : Selection} {u : Utxo}
      (free : plan.request.exactInputs = false ∧
        plan.bound.firstReservedOutpoint ≠ some (outpointKey u))
      (h : Grown enc plan emitted start seen spent acc) :
      Grown enc plan emitted start (seen ++ [u]) spent
        { acc with reservedCandidates := acc.reservedCandidates + 1 }
  | take {seen spent : List Utxo} {acc acc' : Selection} {u : Utxo}
      (short : spent = [] ∨ acc.enough enc plan emitted = false)
      (adds : Adds enc plan emitted u acc acc')
      (h : Grown enc plan emitted start seen spent acc) :
      Grown enc plan emitted start (seen ++ [u]) (spent ++ [u]) acc'

namespace Grown

variable {seen spent : List Utxo} {sel : Selection}

theorem sublist (h : Grown enc plan emitted start seen spent sel) : spent.Sublist seen := by
  induction h with
  | start => exact List.Sublist.refl []
  | pass _ _ ih => exact ih.trans (List.sublist_append_left _ _)
  | take _ _ _ ih => exact ih.append (List.Sublist.refl _)

theorem outpoints (h : Grown enc plan emitted start seen spent sel) :
    sel.psbt.outpoints = start.psbt.outpoints ++ spent.map outpointKey := by
  induction h with
  | start => exact (List.append_nil _).symm
  | pass _ _ ih => exact ih
  | take _ adds _ ih =>
    obtain ⟨input, hinput, hadd⟩ := adds.input
    rw [outpoints_add hadd, ih, hinput.hash, hinput.index, List.map_append, ← List.append_assoc]
    rfl

theorem value (h : Grown enc plan emitted start seen spent sel) :
    sel.inputSatoshis = start.inputSatoshis + (spent.map Utxo.value).sum := by
  induction h with
  | start => exact (add_zero _).symm
  | pass _ _ ih => exact ih
  | take _ adds _ ih =>
    obtain ⟨input, -, hadd⟩ := adds.input
    obtain ⟨psbt, -, hacc⟩ := bind_eq_ok.mp hadd
    cases hacc
    rw [List.map_append, List.sum_append, ← add_assoc, ← ih]
    simp

theorem counted (h : Grown enc plan emitted start seen spent sel) :
    sel.reservedCandidates + spent.length = start.reservedCandidates + seen.length := by
  induction h with
  | start => rfl
  | pass _ _ ih =>
    rw [List.length_append, List.length_singleton]
    dsimp only
    omega
  | take _ adds _ ih =>
    obtain ⟨input, -, hadd⟩ := adds.input
    obtain ⟨psbt, -, hacc⟩ := bind_eq_ok.mp hadd
    cases hacc
    simp only [List.length_append, List.length_singleton]
    omega

/-- **Every shorter selection on the way was not enough.** -/
theorem take_short (h : Grown enc plan emitted start seen spent sel) {k : ℕ} (hk : k < spent.length) :
    ∃ seen' acc, Grown enc plan emitted start seen' (spent.take k) acc ∧
      (k = 0 ∨ acc.enough enc plan emitted = false) := by
  induction h with
  | start => cases hk
  | pass _ _ ih => exact ih hk
  | @take seen spent acc acc' u short adds h ih =>
    rw [List.length_append, List.length_singleton] at hk
    rcases Nat.lt_succ_iff_lt_or_eq.mp hk with hlt | rfl
    · rw [List.take_append_of_le_length hlt.le]
      exact ih hlt
    · rw [List.take_left]
      exact ⟨seen, acc, h, short.imp (fun hnil => by rw [hnil]; rfl) id⟩

end Grown

/-! ## The walk -/

/-- A candidate is passed over if it is held, and not the build's own. -/
theorem skipReservedInput_free {key : Outpoint} {now : ℕ} {l : Ledger} {s : Reservations}
    (h : (skipReservedInput plan key now l s).1 = true) :
    plan.request.exactInputs = false ∧ plan.bound.firstReservedOutpoint ≠ some key := by
  unfold skipReservedInput at h
  split_ifs at h with hmine
  rw [not_or] at hmine
  exact ⟨by simpa using hmine.1, hmine.2⟩

theorem returns_selectStep_grown {seen spent : List Utxo} {acc : Selection} {now index : ℕ} {u : Utxo}
    (rest : List Utxo) (h : Grown enc plan emitted start seen spent acc)
    (hshort : spent = [] ∨ acc.enough enc plan emitted = false) :
    Returns (fun r => ∃ spent', Grown enc plan emitted start (seen ++ [u]) spent' r.2 ∧
      if r.1 then r.2.enough enc plan emitted = true
      else spent' = [] ∨ r.2.enough enc plan emitted = false)
      (selectStep enc plan emitted now index u rest acc) := by
  rw [selectStep_eq]
  refine .bind_right fun _ => .bind (returns_ofExcept fun _ h => h) fun _ hsign => ?_
  intro s l
  show Returns _ (if _ then _ else _)
  split_ifs with hskip
  · exact ⟨spent, h.pass (skipReservedInput_free hskip), hshort⟩
  · refine .bind (returns_ofExcept fun _ h => h) fun v hv => ?_
    refine .bind (returns_inputFor u) fun input hinput => ?_
    refine .bind (returns_ofExcept fun acc' hacc => hacc) fun acc' hacc => ?_
    obtain ⟨rfl, h0, -, hmax⟩ := parseSatoshiAmount_eq_ok.mp hv
    refine ⟨spent ++ [u], h.take hshort ⟨hsign, ⟨h0, hmax⟩, input, hinput, hacc⟩, ?_⟩
    cases henough : acc'.enough enc plan emitted with
    | true => rw [if_pos rfl]
    | false => exact .inr rfl

/-- **A walk takes a candidate only while those before it do not suffice**, and ends when they do or
when it has seen every candidate. -/
theorem returns_selectLoop_grown (us : List Utxo) {seen spent : List Utxo} {acc : Selection}
    {now : ℕ} (index : ℕ) (h : Grown enc plan emitted start seen spent acc)
    (hshort : spent = [] ∨ acc.enough enc plan emitted = false) :
    Returns (fun sel => ∃ seen' spent', Grown enc plan emitted start (seen ++ seen') spent' sel ∧
      seen' <+: us ∧ (sel.enough enc plan emitted = true ∨ seen' = us))
      (selectLoop enc plan emitted now index us acc) := by
  induction us generalizing seen spent acc index with
  | nil => exact ⟨[], spent, (List.append_nil seen).symm ▸ h, List.prefix_refl _, .inr rfl⟩
  | cons u rest ih =>
    refine .bind (returns_selectStep_grown rest h hshort) fun r hr => ?_
    obtain ⟨done, acc'⟩ := r
    obtain ⟨spent', hgrown, hdone⟩ := hr
    cases done with
    | true => exact ⟨[u], spent', hgrown, by simp, .inl hdone⟩
    | false =>
      refine always_mono (fun sel hsel => ?_) (fun _ h => h) (ih (index + 1) hgrown hdone)
      obtain ⟨seen', spent'', hgrown', hprefix, hend⟩ := hsel
      refine ⟨u :: seen', spent'', ?_, (List.prefix_cons_inj u).mpr hprefix, hend.imp_right ?_⟩
      · rwa [List.append_assoc] at hgrown'
      · exact congrArg (u :: ·)

/-- A greedy walk goes on while the inputs do not exceed outputs and fee, or stay under the relay
floor of the stripped size. -/
theorem enough_eq_false (hgreedy : plan.request.exactInputs = false) {acc : Selection} :
    acc.enough enc plan emitted = false ↔
      acc.inputSatoshis ≤ emitted.outputSatoshis + selectionTargetFee enc acc.estimatedFee ∨
        clearsStrippedFloor enc plan emitted.outputSatoshis acc.psbt acc.inputSatoshis
          (selectionTargetFee enc acc.estimatedFee) = false := by
  unfold Selection.enough
  simp only [hgreedy, Bool.not_false, Bool.true_and, Bool.and_eq_false_iff, decide_eq_false_iff_not,
    not_lt]

/-! ## Finished builds -/

/-- The candidates that a finished build spends. -/
structure Economical (enc : Encoder) (b : Built) (spent : List Utxo) : Prop where
  candidates : spent.Sublist b.plan.bound.utxos
  inputs : b.psbt.outpoints = spent.map outpointKey
  value : b.selection.inputSatoshis = (spent.map Utxo.value).sum
  needed : b.plan.request.exactInputs = false → ∀ k, 0 < k → k < spent.length →
    ∃ start seen acc, initSelection b.plan.request.fee b.emitted = .ok start ∧
      Grown enc b.plan b.emitted start seen (spent.take k) acc ∧
      (acc.inputSatoshis ≤ b.emitted.outputSatoshis + selectionTargetFee enc acc.estimatedFee ∨
        clearsStrippedFloor enc b.plan b.emitted.outputSatoshis acc.psbt acc.inputSatoshis
          (selectionTargetFee enc acc.estimatedFee) = false)
  complete : b.selection.enough enc b.plan b.emitted = true ∨
    b.selection.reservedCandidates + spent.length = b.plan.bound.utxos.length

/-- What selection leaves: a walk that has ended. -/
def Walked (enc : Encoder) (plan : Plan) (emitted : Emitted) (start sel : Selection) : Prop :=
  ∃ seen spent, Grown enc plan emitted start seen spent sel ∧ seen <+: plan.bound.utxos ∧
    (sel.enough enc plan emitted = true ∨ seen = plan.bound.utxos)

theorem returns_selectFundingInputs_walked (hfunding : plan.isReveal = false) :
    Returns (Walked enc plan emitted start) (selectFundingInputs enc plan emitted start) := by
  have hselect : Returns (Walked enc plan emitted start) (selectInputs enc plan emitted start) := by
    rw [selectInputs_eq]
    exact fun t s l => returns_selectLoop_grown plan.bound.utxos 0 .start (.inl rfl)
  unfold selectFundingInputs
  rw [hfunding, if_neg Bool.false_ne_true]
  exact .bind hselect fun sel hsel => .bind_right fun _ => .bind_right fun _ => hsel

/-- **A finished funding build spends no more candidates than it needs, and passes over none that it
could have spent while it still needed one.** -/
theorem returns_economical (enc : Encoder) (request : TxRequest) :
    Returns (fun b => request.p2shHash = none → ∃ spent, Economical enc b spent)
      (buildSteps enc request) := by
  by_cases hnone : request.p2shHash = none
  swap
  · exact always_mono (fun _ _ h => absurd h hnone) (fun _ h => h) always_true
  have hfunding : ∀ {plan : Plan}, Planned enc request plan → plan.isReveal = false :=
    fun hplan => by simp [Plan.isReveal, hplan.request_eq, hnone]
  have hstages : Returns (Staged enc request (fun plan _ emitted => EmittedTracked plan emitted)
      (fun plan emitted sel => ∃ start, initSelection request.fee emitted = .ok start ∧
        Walked enc plan emitted start sel)) (buildSteps enc request) := by
    refine returns_buildSteps (fun plan _ => returns_emitOutputs_tracked)
      fun plan price emitted start hplan _ hstart => ?_
    exact always_mono (fun sel h => ⟨start, hstart, h⟩) (fun _ h => h)
      (returns_selectFundingInputs_walked (hfunding hplan))
  refine always_mono (fun b hb _ => ?_) (fun _ _ => trivial)
    (always_and hstages returns_buildSteps_keyed)
  obtain ⟨hb, hkeyed⟩ := hb
  obtain ⟨start, hstart, seen, spent, hgrown, hprefix, hend⟩ := hb.selected
  have hbegin := initSelection_eq_ok hstart
  have hempty : start.psbt.outpoints = [] := by
    rw [initSelection_psbt hstart, Psbt.outpoints, hb.emitted.inputs (hfunding hb.planned)]
    rfl
  refine ⟨spent, hgrown.sublist.trans hprefix.sublist, ?_, ?_, fun hgreedy k hk hlt => ?_, ?_⟩
  · rw [hkeyed.outpoints, hgrown.outpoints, hempty, List.nil_append]
  · rw [hgrown.value, hbegin, zero_add]
  · obtain ⟨seen', acc, hacc, hshort⟩ := hgrown.take_short hlt
    refine ⟨start, seen', acc, hb.planned.request_eq ▸ hstart, hacc, ?_⟩
    exact (enough_eq_false hgreedy).mp (hshort.resolve_left hk.ne')
  · refine hend.imp_right fun hall => ?_
    have hcount := hgrown.counted
    rw [hbegin, hall, zero_add] at hcount
    exact hcount

/-- **Every returned transaction is economical**, in every run. -/
theorem selection_economical (enc : Encoder) (clock : ℕ) (events : List (Event sig Command)) (p : ℕ)
    (call : EncoderCall) (hcall : (encoderRun enc clock events).cfg.calls p = some call)
    (r : TxResult) (t : ℕ) (hreturned : call.stage = .returned (.transaction r) t) :
    ∃ request, call.command = .createTransaction request ∧
      ResultOf (fun b => request.p2shHash = none → ∃ spent, Economical enc b spent) r :=
  result_run (returns_economical enc) clock events p call hcall r t hreturned

/-- The envelope commit of `ISSUE`, over two candidates. -/
theorem selection_economical_issue : ∃ call r, taprootRun.cfg.calls 0 = some call ∧
    returnedTransaction call = some r ∧
      ResultOf (fun b => ∃ spent, Economical (sampleEncoder ⟨.btc, .regtest⟩) b spent) r := by
  obtain ⟨call, r, t, hcall, hreturned, hcommand⟩ := taprootRun_command
  obtain ⟨b, receipt, hspent, heq⟩ := result_of_command hcommand
    (selection_economical (sampleEncoder ⟨.btc, .regtest⟩) 0 _ 0 call hcall r t hreturned)
  exact ⟨call, r, hcall, by rw [returnedTransaction, hreturned], b, receipt, hspent rfl, heq⟩

end XChain
