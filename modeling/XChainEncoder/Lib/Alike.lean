import XChainEncoder.Lib.CallRuns

/-!
# Programs that tell two states apart

Two runs of the same calls over two shared states that differ only in what no call can see.

* `Likeness`: a relation of shared states, and what the ledgers and times of the calls keep;
* `Alike`: two programs that ask, write and end alike over alike states; `Alike.bind`,
  `Alike.tryCatch`, `alike_quiet`;
* `AlikeWorlds`: worlds whose calls stand alike; `alike_step`, `alike_run`: **every run keeps them
  alike**.
-/

namespace Coroutine

variable {σ : Sig} {α β C Res : Type}

/-- A relation of shared states, a property of ledgers and the time from which clocks are read. -/
structure Likeness (σ : Sig) where
  since : ℕ
  like : σ.Shared → σ.Shared → Prop
  owned : σ.Ledger → Prop

/-- Two programs that no reply and no alike states tell apart. -/
inductive Alike (M : Likeness σ) : Coro σ α → Coro σ α → Prop where
  | ret (a : α) : Alike M (.ret a) (.ret a)
  | throw (e : σ.Err) : Alike M (.throw e) (.throw e)
  | now {k k' : ℕ → Coro σ α} (h : ∀ t, M.since ≤ t → Alike M (k t) (k' t)) :
      Alike M (.now k) (.now k')
  | get {k k' : σ.Shared → σ.Ledger → Coro σ α}
      (h : ∀ s s' l, M.like s s' → M.owned l → Alike M (k s l) (k' s' l)) :
      Alike M (.get k) (.get k')
  | put {s s' : σ.Shared} {l : σ.Ledger} {k k' : Coro σ α} (hs : M.like s s') (hl : M.owned l)
      (h : Alike M k k') : Alike M (.put s l k) (.put s' l k')
  | await {q : σ.Req} {k k' : Except σ.Err (σ.Reply q) → Coro σ α} (h : ∀ r, Alike M (k r) (k' r)) :
      Alike M (.await q k) (.await q k')

variable {M : Likeness σ}

theorem Alike.bind {c c' : Coro σ α} {f f' : α → Coro σ β} (hc : Alike M c c')
    (hf : ∀ a, Alike M (f a) (f' a)) : Alike M (c.bind f) (c'.bind f') := by
  induction hc with
  | ret a => exact hf a
  | throw e => exact .throw e
  | now _ ih => exact .now ih
  | get _ ih => exact .get ih
  | put hs hl _ ih => exact .put hs hl ih
  | await _ ih => exact .await ih

theorem Alike.tryCatch {c c' : Coro σ α} {h h' : σ.Err → Coro σ α} (hc : Alike M c c')
    (hh : ∀ e, Alike M (h e) (h' e)) : Alike M (c.tryCatch h) (c'.tryCatch h') := by
  induction hc with
  | ret a => exact .ret a
  | throw e => exact hh e
  | now _ ih => exact .now ih
  | get _ ih => exact .get ih
  | put hs hl _ ih => exact .put hs hl ih
  | await _ ih => exact .await ih

theorem alike_ret {a a' : α} (h : a' = a) : Alike M (.ret a) (.ret a') := by
  rw [h]
  exact .ret a

theorem alike_throw {e e' : σ.Err} (h : e' = e) : Alike M (.throw e : Coro σ α) (.throw e') := by
  rw [h]
  exact .throw e

theorem alike_ofExcept (r : Except σ.Err α) : Alike M (Coro.ofExcept r) (Coro.ofExcept r) := by
  cases r with
  | error e => exact .throw e
  | ok a => exact .ret a

/-- A program that touches no state. -/
theorem alike_quiet {c : Coro σ α} (hc : Quiet c) : Alike M c c := by
  induction c with
  | ret a => exact .ret a
  | throw e => exact .throw e
  | now k ih => exact hc.elim
  | get k ih => exact hc.elim
  | put s l k ih => exact hc.elim
  | await q k ih => exact .await fun r => ih r (hc r)

/-! ## Calls -/

/-- One call in two runs: it stands alike but for what it saw. -/
structure SameCall (c c' : Call σ C Res) : Prop where
  command : c'.command = c.command
  ledger : c'.ledger = c.ledger
  startedAt : c'.startedAt = c.startedAt
  stage : c'.stage = c.stage

/-- The calls of two runs, by their number. -/
def SameCalls (calls calls' : ℕ → Option (Call σ C Res)) : Prop :=
  ∀ p, Option.Rel SameCall (calls p) (calls' p)

/-- Two suspended calls wait for the same and go on alike. -/
inductive AlikePending (M : Likeness σ) : Pending σ Res → Pending σ Res → Prop where
  | mk {q : σ.Req} {k k' : Except σ.Err (σ.Reply q) → Coro σ Res} (h : ∀ r, Alike M (k r) (k' r)) :
      AlikePending M ⟨q, k⟩ ⟨q, k'⟩

/-- A running call in two runs. -/
structure AlikeSnaps (M : Likeness σ) (x x' : Snap σ C Res) : Prop where
  since : M.since ≤ x.clock
  clock : x'.clock = x.clock
  shared : M.like x.shared x'.shared
  call : SameCall x.call x'.call
  owned : M.owned x.call.ledger
  others : SameCalls x.others x'.others

theorem Alike.exec {c c' : Coro σ Res} (h : Alike M c c') (ds : List ℕ) {x x' : Snap σ C Res}
    (hx : AlikeSnaps M x x') :
    AlikeSnaps M (c.exec ds x).1 (c'.exec ds x').1 ∧
      Option.Rel (AlikePending M) (c.exec ds x).2 (c'.exec ds x').2 := by
  induction h generalizing ds x x' with
  | ret a =>
    refine ⟨{ hx with call := { hx.call with stage := ?_ } }, .none⟩
    exact congrArg (Stage.returned a) hx.clock
  | throw e =>
    refine ⟨{ hx with call := { hx.call with stage := ?_ } }, .none⟩
    exact congrArg (Stage.threw e) hx.clock
  | now h ih =>
    simp only [Coro.exec, hx.clock]
    have hlater : M.since ≤ x.clock + ds.headD 0 := hx.since.trans (Nat.le_add_right _ _)
    exact ih _ hlater _ { since := hlater, clock := rfl, shared := hx.shared,
                          call := ⟨hx.call.command, hx.call.ledger, hx.call.startedAt, hx.call.stage⟩,
                          owned := hx.owned, others := hx.others }
  | get h ih =>
    simp only [Coro.exec, hx.call.ledger]
    exact ih _ _ _ hx.shared hx.owned _ hx
  | put hs hl h ih =>
    exact ih _ { hx with shared := hs, owned := hl,
                         call := ⟨hx.call.command, rfl, hx.call.startedAt, hx.call.stage⟩ }
  | await h ih => exact ⟨hx, .some (.mk h)⟩

/-! ## Runs -/

/-- Two worlds whose calls stand alike; the suspended ones' ledgers are owned. -/
structure AlikeWorlds (M : Likeness σ) (w w' : World σ C Res) : Prop where
  since : M.since ≤ w.cfg.clock
  clock : w'.cfg.clock = w.cfg.clock
  shared : M.like w.cfg.shared w'.cfg.shared
  calls : SameCalls w.cfg.calls w'.cfg.calls
  pending : ∀ p, Option.Rel (AlikePending M) (w.pending p) (w'.pending p)
  owned : ∀ p pd call, w.pending p = some pd → w.cfg.calls p = some call → M.owned call.ledger
  next : w'.next = w.next

theorem SameCall.refl (call : Call σ C Res) : SameCall call call := ⟨rfl, rfl, rfl, rfl⟩

theorem sameCalls_refl (calls : ℕ → Option (Call σ C Res)) : SameCalls calls calls := by
  intro p
  cases calls p with
  | none => exact .none
  | some call => exact .some (.refl call)

theorem SameCalls.update {calls calls' : ℕ → Option (Call σ C Res)} (h : SameCalls calls calls')
    (p : ℕ) {call call' : Call σ C Res} (hcall : SameCall call call') :
    SameCalls (Function.update calls p (some call)) (Function.update calls' p (some call')) := by
  intro q
  by_cases hq : q = p
  · subst hq
    rw [Function.update_self, Function.update_self]
    exact .some hcall
  · rw [Function.update_of_ne hq, Function.update_of_ne hq]
    exact h q

variable {w w' : World σ C Res}

theorem AlikeWorlds.update (h : AlikeWorlds M w w') (p : ℕ)
    {r r' : Snap σ C Res × Option (Pending σ Res)} (hr : AlikeSnaps M r.1 r'.1)
    (hpending : Option.Rel (AlikePending M) r.2 r'.2) (hothers : r.1.others = w.cfg.calls) :
    AlikeWorlds M (w.update p r) (w'.update p r') where
  since := hr.since
  clock := hr.clock
  shared := hr.shared
  calls := hr.others.update p hr.call
  pending := fun q => by
    by_cases hq : q = p
    · subst hq
      simpa [World.update] using hpending
    · simpa [World.update, Function.update_of_ne hq] using h.pending q
  owned := fun q pd call hpd hcall => by
    by_cases hq : q = p
    · subst hq
      cases (r.1.cfg_self q).symm.trans hcall
      exact hr.owned
    · refine h.owned q pd call ?_ ?_
      · simpa [World.update, Function.update_of_ne hq] using hpd
      · rw [← hothers]
        exact (Function.update_of_ne hq _ _).symm.trans hcall
  next := h.next

theorem AlikeWorlds.enter (h : AlikeWorlds M w w') {call call' : Call σ C Res}
    (hcall : SameCall call call') (howned : M.owned call.ledger) :
    AlikeSnaps M (w.cfg.enter call) (w'.cfg.enter call') :=
  ⟨h.since, h.clock, h.shared, hcall, howned, h.calls⟩

variable {program : C → Coro σ Res} {emptyLedger : σ.Ledger}

/-- **One step keeps two worlds alike.** -/
theorem alike_step (hprogram : ∀ command, Alike M (program command) (program command))
    (hempty : M.owned emptyLedger) (h : AlikeWorlds M w w') (ev : Event σ C) :
    AlikeWorlds M (step program emptyLedger w ev) (step program emptyLedger w' ev) := by
  cases ev with
  | start command ds =>
    have hfresh : SameCall (freshCall emptyLedger command w.cfg.clock : Call σ C Res)
        (freshCall emptyLedger command w'.cfg.clock) := by
      rw [h.clock]
      exact .refl _
    obtain ⟨hr, hpd⟩ := (hprogram command).exec ds (h.enter hfresh hempty)
    have hupdate := h.update w.next hr hpd (exec_others _ _)
    simp only [step, h.next]
    exact { hupdate with next := rfl }
  | resume p reply ds =>
    have hpending := h.pending p
    have hcalls := h.calls p
    simp only [step]
    cases hpd : w.pending p with
    | none =>
      rw [hpd] at hpending
      cases hpd' : w'.pending p with
      | none => exact h
      | some pd' =>
        rw [hpd'] at hpending
        cases hpending
    | some pd =>
      rw [hpd] at hpending
      cases hpd' : w'.pending p with
      | none =>
        rw [hpd'] at hpending
        cases hpending
      | some pd' =>
        rw [hpd'] at hpending
        cases hcall : w.cfg.calls p with
        | none =>
          rw [hcall] at hcalls
          cases hcall' : w'.cfg.calls p with
          | none => exact h
          | some call' =>
            rw [hcall'] at hcalls
            cases hcalls
        | some call =>
          rw [hcall] at hcalls
          cases hcall' : w'.cfg.calls p with
          | none =>
            rw [hcall'] at hcalls
            cases hcalls
          | some call' =>
            rw [hcall'] at hcalls
            cases hcalls with
            | some hsame =>
              cases hpending with
              | some halike =>
                cases halike with
                | mk hk =>
                  obtain ⟨hr, hpd⟩ := (hk _).exec ds (h.enter hsame (h.owned p _ call hpd hcall))
                  exact h.update p hr hpd (exec_others _ _)
  | pass d =>
    exact { h with since := h.since.trans (Nat.le_add_right _ _)
                   clock := congrArg (· + d) h.clock }

/-- **Every run keeps two worlds alike.** -/
theorem alike_run (hprogram : ∀ command, Alike M (program command) (program command))
    (hempty : M.owned emptyLedger) (h : AlikeWorlds M w w') (events : List (Event σ C)) :
    AlikeWorlds M (run program emptyLedger w events) (run program emptyLedger w' events) := by
  induction events generalizing w w' with
  | nil => exact h
  | cons ev events ih => exact ih (alike_step hprogram hempty h ev)

end Coroutine
