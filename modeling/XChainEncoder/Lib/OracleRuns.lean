import XChainEncoder.Lib.SoloRuns

/-!
# Runs under one oracle

Many calls, each answered by the same fixed replies.

* `Coro.answered`: a program with its replies filled in; `answered_bind`, `answered_tryCatch`;
* `Instant`, `wp_instant`: **a stretch without an await or a clock reading is one step**, and comes to
  what it comes to alone;
* `wp_answered_quiet`: a quiet program under the oracle only lets others run;
* `run_answered`: **a run answered by the oracle is a run of the answered programs**.
-/

namespace Coroutine

variable {σ : Sig} {α β C Res : Type} {reply : Replies σ} {clock : ℕ}

/-- The program, ignoring what it is answered in favour of the fixed replies. -/
def Coro.answered (reply : Replies σ) : Coro σ α → Coro σ α
  | .ret a => .ret a
  | .throw e => .throw e
  | .now k => .now fun t => (k t).answered reply
  | .get k => .get fun s l => (k s l).answered reply
  | .put s l k => .put s l (k.answered reply)
  | .await q k => .await q fun _ => (k ((reply q).mapError Subtype.val)).answered reply

theorem answered_bind (c : Coro σ α) (f : α → Coro σ β) :
    (c.bind f).answered reply = (c.answered reply).bind fun a => (f a).answered reply := by
  induction c with
  | ret a => rfl
  | throw e => rfl
  | now k ih => exact congrArg Coro.now (funext fun t => ih t)
  | get k ih => exact congrArg Coro.get (funext fun s => funext fun l => ih s l)
  | put s l k ih => exact congrArg (Coro.put s l) ih
  | await q k ih => exact congrArg (Coro.await q) (funext fun _ => ih _)

theorem answered_tryCatch (c : Coro σ α) (h : σ.Err → Coro σ α) :
    (c.tryCatch h).answered reply =
      (c.answered reply).tryCatch fun e => (h e).answered reply := by
  induction c with
  | ret a => rfl
  | throw e => rfl
  | now k ih => exact congrArg Coro.now (funext fun t => ih t)
  | get k ih => exact congrArg Coro.get (funext fun s => funext fun l => ih s l)
  | put s l k ih => exact congrArg (Coro.put s l) ih
  | await q k ih => exact congrArg (Coro.await q) (funext fun _ => ih _)

@[simp] theorem answered_ofExcept (r : Except σ.Err α) :
    (Coro.ofExcept r).answered reply = Coro.ofExcept r := by
  cases r <;> rfl

/-! ## Instant stretches -/

/-- The program neither awaits nor reads the clock. -/
def Instant : Coro σ α → Prop
  | .ret _ => True
  | .throw _ => True
  | .now _ => False
  | .get k => ∀ s l, Instant (k s l)
  | .put _ _ k => Instant k
  | .await _ _ => False

theorem instant_bind {c : Coro σ α} {f : α → Coro σ β} (hc : Instant c) (hf : ∀ a, Instant (f a)) :
    Instant (c.bind f) := by
  induction c with
  | ret a => exact hf a
  | throw e => trivial
  | now k ih => exact hc.elim
  | get k ih => exact fun s l => ih s l (hc s l)
  | put s l k ih => exact ih hc
  | await q k ih => exact hc.elim

theorem instant_ofExcept (r : Except σ.Err α) : Instant (Coro.ofExcept r) := by
  cases r <;> trivial

theorem answered_instant {c : Coro σ α} (hc : Instant c) : c.answered reply = c := by
  induction c with
  | ret a => rfl
  | throw e => rfl
  | now k ih => exact hc.elim
  | get k ih => exact congrArg Coro.get (funext fun s => funext fun l => ih s l (hc s l))
  | put s l k ih => exact congrArg (Coro.put s l) (ih hc)
  | await q k ih => exact hc.elim

/-- An instant program that touches no state is a value or an error. -/
theorem ofExcept_of_instant {c : Coro σ α} (hc : Instant c) (hq : Quiet c) (s : σ.Shared)
    (l : σ.Ledger) : c = Coro.ofExcept (c.alone reply clock s l).1 := by
  cases c with
  | ret a => rfl
  | throw e => rfl
  | now k => exact hc.elim
  | get k => exact hq.elim
  | put s l k => exact hq.elim
  | await q k => exact hc.elim

section Rules

variable {K : Contract σ C Res} {p : ℕ}

variable (reply clock) in
/-- **An instant stretch is one step**, to what it comes to alone. -/
theorem wp_instant {c : Coro σ α} (hc : Instant c) {Q : α → Snap σ C Res → Prop}
    {E : σ.Err → Snap σ C Res → Prop} (x : Snap σ C Res) :
    wp K p c Q E x ↔
      match c.alone reply clock x.shared x.call.ledger with
      | (.ok a, s, l) => Q a (x.store s l)
      | (.error e, s, l) => E e (x.store s l) := by
  induction c generalizing x with
  | ret a => exact Iff.rfl
  | throw e => exact Iff.rfl
  | now k ih => exact hc.elim
  | get k ih => exact ih _ _ (hc _ _) x
  | put s l k ih => exact ih hc (x.store s l)
  | await q k ih => exact hc.elim

theorem wp_instant_of {c : Coro σ α} (hc : Instant c) {Q : α → Snap σ C Res → Prop}
    {E : σ.Err → Snap σ C Res → Prop} {x : Snap σ C Res} {r : Except σ.Err α} {s : σ.Shared}
    {l : σ.Ledger} (h : c.alone reply clock x.shared x.call.ledger = (r, s, l))
    (hQ : ∀ a, r = .ok a → Q a (x.store s l)) (hE : ∀ e, r = .error e → E e (x.store s l)) :
    wp K p c Q E x := by
  refine (wp_instant reply clock hc x).mpr ?_
  rw [h]
  cases r with
  | ok a => exact hQ a rfl
  | error e => exact hE e rfl

/-- Under the oracle a quiet program always comes to what it comes to alone. -/
theorem always_answered {c : Coro σ α} (hc : Quiet c) (s : σ.Shared) (l : σ.Ledger) :
    Always (fun a => (c.alone reply clock s l).1 = .ok a)
      (fun e => (c.alone reply clock s l).1 = .error e) (c.answered reply) := by
  induction c with
  | ret a => rfl
  | throw e => rfl
  | now k ih => exact hc.elim
  | get k ih => exact hc.elim
  | put s l k ih => exact hc.elim
  | await q k ih => exact fun _ _ => ih _ (hc _)

theorem quiet_answered {c : Coro σ α} (hc : Quiet c) : Quiet (c.answered reply) := by
  induction c with
  | ret a => trivial
  | throw e => trivial
  | now k ih => exact hc.elim
  | get k ih => exact hc.elim
  | put s l k ih => exact hc.elim
  | await q k ih => exact fun _ => ih _ (hc _)

variable (clock) in
/-- **A quiet program under the oracle only lets others run.** -/
theorem wp_answered_quiet {c : Coro σ α} (hc : Quiet c) {Q : α → Snap σ C Res → Prop}
    {E : σ.Err → Snap σ C Res → Prop} (s : σ.Shared) (l : σ.Ledger) (x : Snap σ C Res)
    (hI : K.inv (x.cfg p)) (hkeeps : K.keeps x)
    (hQ : ∀ a y, x.Idle y → K.inv (y.cfg p) → (c.alone reply clock s l).1 = .ok a → Q a y)
    (hE : ∀ e y, x.Idle y → K.inv (y.cfg p) → (c.alone reply clock s l).1 = .error e → E e y) :
    wp K p (c.answered reply) Q E x :=
  wp_quiet (quiet_answered hc) (always_answered hc s l) x hI hkeeps hQ hE

end Rules

/-! ## Runs -/

section Runs

variable {program : C → Coro σ Res} {emptyLedger : σ.Ledger}

/-- The event resumes a call with the oracle's replies, if it resumes one. -/
def AnswersWith (reply : Replies σ) : Event σ C → Prop
  | .resume _ r _ => r = reply
  | _ => True

/-- A suspended call, with its replies filled in. -/
def Pending.answered (reply : Replies σ) (pd : Pending σ Res) : Pending σ Res :=
  ⟨pd.req, fun _ => (pd.cont ((reply pd.req).mapError Subtype.val)).answered reply⟩

theorem run_congr {program' : C → Coro σ Res} (events : List (Event σ C))
    (h : ∀ command ds, .start command ds ∈ events → program command = program' command)
    (w : World σ C Res) : run program emptyLedger w events = run program' emptyLedger w events := by
  induction events generalizing w with
  | nil => rfl
  | cons ev evs ih =>
    have hstep : step program emptyLedger w ev = step program' emptyLedger w ev := by
      cases ev with
      | start command ds => simp only [step, h command ds List.mem_cons_self]
      | resume p r ds => rfl
      | pass d => rfl
    rw [run, run, List.foldl_cons, List.foldl_cons, hstep]
    exact ih (fun command ds hin => h command ds (List.mem_cons_of_mem ev hin)) _

theorem exec_answered (c : Coro σ Res) (ds : List ℕ) (x : Snap σ C Res) :
    (c.answered reply).exec ds x = ((c.exec ds x).1, (c.exec ds x).2.map (Pending.answered reply)) := by
  induction c generalizing ds x with
  | ret a => rfl
  | throw e => rfl
  | now k ih => exact ih _ _ _
  | get k ih => exact ih _ _ _ _
  | put s l k ih => exact ih _ _
  | await q k ih => rfl

/-- The world of the answered programs. -/
def World.answered (reply : Replies σ) (w : World σ C Res) : World σ C Res :=
  { w with pending := fun p => (w.pending p).map (Pending.answered reply) }

variable (reply) in
theorem update_answered (w : World σ C Res) (p : ℕ) (c : Coro σ Res) (ds : List ℕ)
    (x : Snap σ C Res) : (w.answered reply).update p ((c.answered reply).exec ds x) =
      (w.update p (c.exec ds x)).answered reply := by
  rw [exec_answered]
  simp only [World.update, World.answered, World.mk.injEq, true_and, and_true]
  funext q
  by_cases hq : q = p
  · subst hq
    simp
  · simp [Function.update_of_ne hq]

theorem step_answered (w : World σ C Res) {ev : Event σ C} (hev : AnswersWith reply ev) :
    step (fun command => (program command).answered reply) emptyLedger (w.answered reply) ev =
      (step program emptyLedger w ev).answered reply := by
  cases ev with
  | start command ds =>
    simp only [step]
    have h := update_answered reply w w.next (program command) ds
      (w.cfg.enter (freshCall emptyLedger command w.cfg.clock))
    exact congrArg (fun w' : World σ C Res => { w' with next := w.next + 1 }) h
  | resume p r ds =>
    obtain rfl : r = reply := hev
    simp only [step]
    cases hp : w.pending p with
    | none => simp [World.answered, hp]
    | some pd =>
      obtain ⟨q, k⟩ := pd
      cases hcall : w.cfg.calls p with
      | none => simp [World.answered, hp, hcall]
      | some call =>
        have h := update_answered r w p (k ((r q).mapError Subtype.val)) ds
          (w.cfg.enter call)
        simp only [World.answered, hp, hcall, Option.map_some, Pending.answered]
        exact h
  | pass d => rfl

variable (program emptyLedger) in
/-- **A run answered by the oracle is a run of the answered programs.** -/
theorem run_answered (events : List (Event σ C)) (hevents : ∀ ev ∈ events, AnswersWith reply ev)
    (w : World σ C Res) :
    run (fun command => (program command).answered reply) emptyLedger (w.answered reply) events =
      (run program emptyLedger w events).answered reply := by
  induction events generalizing w with
  | nil => rfl
  | cons ev evs ih =>
    rw [run, List.foldl_cons, step_answered w (hevents ev List.mem_cons_self)]
    exact ih (fun ev' h => hevents ev' (List.mem_cons_of_mem ev h)) _

end Runs

end Coroutine
