import Mathlib.Logic.Function.Basic
import Mathlib.Algebra.Order.Group.Nat
import Mathlib.Tactic.Common

/-!
# Cooperative calls over shared state

A call runs alone until it awaits a reply; between two awaits of one call any other call may run.
Each call owns a ledger, kept when it throws; all calls share one state and one clock.

* `Coro`: programs that read the clock, read and write the state and the ledger, throw and await;
* `Coro.exec`, `World`, `step`, `run`: the calls of a program table under a list of events;
* `Contract`, `wp`: the weakest precondition of a call under an invariant that every await may rely
  on and must restore; `wp_bind`, `wp_tryCatch`, `wp_mono`;
* `Always`, `Returns`, `Quiet`: facts about results that hold under every interleaving, and
  programs that touch neither clock nor state; `wp_quiet`, `wp_always`.
-/

namespace Coroutine

/-- What a family of calls shares: the state, the ledger of one call, errors, the requests a call
awaits with their replies, and the errors a request may be rejected with. -/
structure Sig where
  Shared : Type
  Ledger : Type
  Err : Type
  Req : Type
  Reply : Req → Type
  Rejects : Err → Prop

/-- The reply is no rejection a request cannot have. -/
def Sig.Fair (σ : Sig) {q : σ.Req} (r : Except σ.Err (σ.Reply q)) : Prop :=
  ∀ e, r = .error e → σ.Rejects e

variable {σ : Sig} {α β C Res : Type}

/-- A program of one call. An awaited reply may be a rejection. -/
inductive Coro (σ : Sig) (α : Type) : Type where
  | ret (a : α)
  | throw (e : σ.Err)
  | now (k : ℕ → Coro σ α)
  | get (k : σ.Shared → σ.Ledger → Coro σ α)
  | put (s : σ.Shared) (l : σ.Ledger) (k : Coro σ α)
  | await (q : σ.Req) (k : Except σ.Err (σ.Reply q) → Coro σ α)

namespace Coro

/-- Run a program, then what follows from its result. -/
def bind : Coro σ α → (α → Coro σ β) → Coro σ β
  | ret a, f => f a
  | throw e, _ => throw e
  | now k, f => now fun t => bind (k t) f
  | get k, f => get fun s l => bind (k s l) f
  | put s l k, f => put s l (bind k f)
  | await q k, f => await q fun r => bind (k r) f

instance : Monad (Coro σ) where
  pure := ret
  bind := bind

/-- Run `h` on what the program throws. -/
def tryCatch : Coro σ α → (σ.Err → Coro σ α) → Coro σ α
  | ret a, _ => ret a
  | throw e, h => h e
  | now k, h => now fun t => tryCatch (k t) h
  | get k, h => get fun s l => tryCatch (k s l) h
  | put s l k, h => put s l (tryCatch k h)
  | await q k, h => await q fun r => tryCatch (k r) h

/-- A synchronous step that may throw. -/
def ofExcept : Except σ.Err α → Coro σ α
  | .ok a => ret a
  | .error e => throw e

instance : MonadLift (Except σ.Err) (Coro σ) := ⟨ofExcept⟩

/-- Await a reply and throw a rejection. -/
def request (q : σ.Req) : Coro σ (σ.Reply q) := await q ofExcept

/-- Await a reply; a rejection is a value. -/
def attempt (q : σ.Req) : Coro σ (Except σ.Err (σ.Reply q)) := await q ret

/-- Read the clock. -/
def readClock : Coro σ ℕ := now ret

/-- Read the shared state and the own ledger. -/
def read : Coro σ (σ.Shared × σ.Ledger) := get fun s l => ret (s, l)

/-- Replace the shared state and the own ledger. -/
def write (s : σ.Shared) (l : σ.Ledger) : Coro σ Unit := put s l (ret ())

@[simp] theorem pure_eq (a : α) : (pure a : Coro σ α) = ret a := rfl

@[simp] theorem bind_eq (c : Coro σ α) (f : α → Coro σ β) : c >>= f = bind c f := rfl

theorem bind_bind {γ : Type} (c : Coro σ α) (f : α → Coro σ β) (g : β → Coro σ γ) :
    (c.bind f).bind g = c.bind fun a => (f a).bind g := by
  induction c with
  | ret a => rfl
  | throw e => rfl
  | now k ih => exact congrArg now (funext ih)
  | get k ih => exact congrArg get (funext fun s => funext (ih s))
  | put s l k ih => exact congrArg (put s l) ih
  | await q k ih => exact congrArg (await q) (funext ih)

/-- A conversion of the result moves out of a handler that converts alike. -/
theorem tryCatch_bind_ret {f : α → β} {c : Coro σ α} {h : σ.Err → Coro σ α} {h' : σ.Err → Coro σ β}
    (hh : ∀ e, h' e = (h e).bind fun a => ret (f a)) :
    (c.bind fun a => ret (f a)).tryCatch h' = (c.tryCatch h).bind fun a => ret (f a) := by
  induction c with
  | ret a => rfl
  | throw e => exact hh e
  | now k ih => exact congrArg now (funext ih)
  | get k ih => exact congrArg get (funext fun s => funext (ih s))
  | put s l k ih => exact congrArg (put s l) ih
  | await q k ih => exact congrArg (await q) (funext ih)

end Coro

theorem ofExcept_bind_bind {γ : Type} (r : Except σ.Err α) (f : α → Except σ.Err β)
    (g : β → Coro σ γ) : (Coro.ofExcept (r >>= f)).bind g =
      (Coro.ofExcept r).bind fun a => (Coro.ofExcept (f a)).bind g := by
  cases r <;> rfl

/-! ## Calls and worlds -/

/-- How far a call has come, with the clock at its end. -/
inductive Stage (σ : Sig) (Res : Type) where
  | running
  | returned (a : Res) (at_ : ℕ)
  | threw (e : σ.Err) (at_ : ℕ)

/-- One call: its command, its ledger, what it saw whenever it read the clock, when it started and
how far it has come. -/
structure Call (σ : Sig) (C Res : Type) where
  command : C
  ledger : σ.Ledger
  seen : List (ℕ × σ.Shared)
  startedAt : ℕ
  stage : Stage σ Res

/-- The clock, the shared state and all calls ever started. -/
structure Cfg (σ : Sig) (C Res : Type) where
  clock : ℕ
  shared : σ.Shared
  calls : ℕ → Option (Call σ C Res)

/-- What one call sees while it runs: the others' records do not change under it. `entered` is the
shared state when the call was last started or resumed. -/
structure Snap (σ : Sig) (C Res : Type) where
  clock : ℕ
  shared : σ.Shared
  call : Call σ C Res
  others : ℕ → Option (Call σ C Res)
  entered : σ.Shared

namespace Snap

variable (x : Snap σ C Res)

/-- The configuration with the running call in its place. -/
def cfg (p : ℕ) : Cfg σ C Res := ⟨x.clock, x.shared, Function.update x.others p (some x.call)⟩

@[simp] theorem cfg_self (p : ℕ) : (x.cfg p).calls p = some x.call := Function.update_self ..

/-- The clock read at time `t`. -/
def tick (t : ℕ) : Snap σ C Res :=
  { x with clock := t, call := { x.call with seen := x.call.seen ++ [(t, x.shared)] } }

/-- The call with new state. -/
def store (s : σ.Shared) (l : σ.Ledger) : Snap σ C Res :=
  { x with shared := s, call := { x.call with ledger := l } }

/-- The same call resumed at a later time, after others ran. -/
def later (t : ℕ) (s : σ.Shared) (o : ℕ → Option (Call σ C Res)) : Snap σ C Res :=
  { x with clock := t, shared := s, others := o, entered := s }

/-- `y` is `x`, or `x` resumed after it awaited. -/
def Idle (x y : Snap σ C Res) : Prop := y = x ∨ ∃ t s o, x.clock ≤ t ∧ y = x.later t s o

variable {x} in
theorem Idle.of_later {y : Snap σ C Res} {t : ℕ} {s : σ.Shared}
    {o : ℕ → Option (Call σ C Res)} (h : (x.later t s o).Idle y) (ht : x.clock ≤ t) :
    ∃ t s o, x.clock ≤ t ∧ y = x.later t s o := by
  rcases h with rfl | ⟨t', s', o', ht', rfl⟩
  · exact ⟨t, s, o, ht, rfl⟩
  · exact ⟨t', s', o', ht.trans ht', rfl⟩

/-- The call at another stage. -/
def finish (st : Stage σ Res) : Snap σ C Res := { x with call := { x.call with stage := st } }

/-- The call returns. -/
def returned (a : Res) : Snap σ C Res := x.finish (.returned a x.clock)

/-- The call throws. -/
def threw (e : σ.Err) : Snap σ C Res := x.finish (.threw e x.clock)

end Snap

/-- What a call sees when it starts or is resumed. -/
def Cfg.enter (g : Cfg σ C Res) (call : Call σ C Res) : Snap σ C Res :=
  ⟨g.clock, g.shared, call, g.calls, g.shared⟩

/-- What a suspended call waits for. -/
structure Pending (σ : Sig) (Res : Type) where
  req : σ.Req
  cont : Except σ.Err (σ.Reply req) → Coro σ Res

/-- Run a call to its next await, its return or its throw; `delays` are the steps of the clock at
its readings. -/
def Coro.exec : Coro σ Res → List ℕ → Snap σ C Res → Snap σ C Res × Option (Pending σ Res)
  | .ret a, _, x => (x.returned a, none)
  | .throw e, _, x => (x.threw e, none)
  | .now k, ds, x => (k (x.clock + ds.headD 0)).exec ds.tail (x.tick (x.clock + ds.headD 0))
  | .get k, ds, x => (k x.shared x.call.ledger).exec ds x
  | .put s l k, ds, x => k.exec ds (x.store s l)
  | .await q k, _, x => (x, some ⟨q, k⟩)

/-- All calls, and what the suspended ones wait for. -/
structure World (σ : Sig) (C Res : Type) where
  cfg : Cfg σ C Res
  pending : ℕ → Option (Pending σ Res)
  next : ℕ

/-- A call starts, a suspended call gets its reply, or time passes. -/
inductive Event (σ : Sig) (C : Type) where
  | start (command : C) (delays : List ℕ)
  | resume (p : ℕ) (reply : (q : σ.Req) → Except {e : σ.Err // σ.Rejects e} (σ.Reply q))
      (delays : List ℕ)
  | pass (d : ℕ)

/-- Put a call's snapshot back into the world. -/
def World.update (w : World σ C Res) (p : ℕ) (r : Snap σ C Res × Option (Pending σ Res)) :
    World σ C Res :=
  { w with cfg := r.1.cfg p, pending := Function.update w.pending p r.2 }

variable (program : C → Coro σ Res) (emptyLedger : σ.Ledger)

/-- The record of a call that starts now. -/
def freshCall (command : C) (clock : ℕ) : Call σ C Res :=
  ⟨command, emptyLedger, [], clock, .running⟩

/-- What an event makes of the world. -/
def step (w : World σ C Res) : Event σ C → World σ C Res
  | .start command delays =>
    { w.update w.next ((program command).exec delays
        (w.cfg.enter (freshCall emptyLedger command w.cfg.clock))) with next := w.next + 1 }
  | .resume p reply delays =>
    match w.pending p, w.cfg.calls p with
    | some ⟨q, k⟩, some call =>
      w.update p ((k ((reply q).mapError Subtype.val)).exec delays (w.cfg.enter call))
    | _, _ => w
  | .pass d => { w with cfg := { w.cfg with clock := w.cfg.clock + d } }

/-- A list of events, from the left. -/
def run (w : World σ C Res) (events : List (Event σ C)) : World σ C Res :=
  events.foldl (step program emptyLedger) w

/-- No call yet. -/
def World.init (clock : ℕ) (s : σ.Shared) : World σ C Res :=
  ⟨⟨clock, s, fun _ => none⟩, fun _ => none, 0⟩

theorem fair_mapError {q : σ.Req} (r : Except {e : σ.Err // σ.Rejects e} (σ.Reply q)) :
    σ.Fair (r.mapError Subtype.val) := by
  intro e he
  cases r with
  | error e' =>
    cases he
    exact e'.2
  | ok a => cases he

/-! ## Weakest preconditions -/

/-- What a call finds whenever it is resumed and must restore before it awaits, and what it
guarantees of everything it did in between. -/
structure Contract (σ : Sig) (C Res : Type) where
  inv : Cfg σ C Res → Prop
  keeps : Snap σ C Res → Prop
  keeps_enter : ∀ x : Snap σ C Res, x.entered = x.shared → keeps x

section WP

variable (K : Contract σ C Res) (p : ℕ)

/-- What must hold before `c` so that it meets the contract at its awaits and `Q` or `E` at its
end, whatever other calls do that keeps the invariant. -/
def wp : Coro σ α → (α → Snap σ C Res → Prop) → (σ.Err → Snap σ C Res → Prop) →
    Snap σ C Res → Prop
  | .ret a, Q, _, x => Q a x
  | .throw e, _, E, x => E e x
  | .now k, Q, E, x => ∀ t, x.clock ≤ t → wp (k t) Q E (x.tick t)
  | .get k, Q, E, x => wp (k x.shared x.call.ledger) Q E x
  | .put s l k, Q, E, x => wp k Q E (x.store s l)
  | .await _ k, Q, E, x => K.inv (x.cfg p) ∧ K.keeps x ∧ ∀ r, σ.Fair r → ∀ t s o, x.clock ≤ t →
      K.inv ((x.later t s o).cfg p) → wp (k r) Q E (x.later t s o)

variable {K p}

theorem wp_mono {c : Coro σ α} {Q Q' : α → Snap σ C Res → Prop}
    {E E' : σ.Err → Snap σ C Res → Prop} (hQ : ∀ a x, Q a x → Q' a x)
    (hE : ∀ e x, E e x → E' e x) : ∀ x, wp K p c Q E x → wp K p c Q' E' x := by
  induction c with
  | ret a => exact hQ a
  | throw e => exact hE e
  | now k ih => exact fun x h t ht => ih t _ (h t ht)
  | get k ih => exact fun x h => ih _ _ x h
  | put s l k ih => exact fun x h => ih _ h
  | await q k ih =>
    exact fun x h => ⟨h.1, h.2.1, fun r hr t s o ht hI => ih r _ (h.2.2 r hr t s o ht hI)⟩

theorem wp_bind {c : Coro σ α} {f : α → Coro σ β} {Q : β → Snap σ C Res → Prop}
    {E : σ.Err → Snap σ C Res → Prop} :
    ∀ x, wp K p (c.bind f) Q E x ↔ wp K p c (fun a => wp K p (f a) Q E) E x := by
  induction c with
  | ret a => exact fun x => Iff.rfl
  | throw e => exact fun x => Iff.rfl
  | now k ih => exact fun x => forall₂_congr fun t _ => ih t _
  | get k ih => exact fun x => ih _ _ x
  | put s l k ih => exact fun x => ih _
  | await q k ih =>
    intro x
    refine and_congr_right fun _ => and_congr_right fun _ => ?_
    exact forall₄_congr fun r _ t s => forall₃_congr fun o _ _ => ih r _

theorem wp_tryCatch {c : Coro σ α} {h : σ.Err → Coro σ α} {Q : α → Snap σ C Res → Prop}
    {E : σ.Err → Snap σ C Res → Prop} :
    ∀ x, wp K p (c.tryCatch h) Q E x ↔ wp K p c Q (fun e => wp K p (h e) Q E) x := by
  induction c with
  | ret a => exact fun x => Iff.rfl
  | throw e => exact fun x => Iff.rfl
  | now k ih => exact fun x => forall₂_congr fun t _ => ih t _
  | get k ih => exact fun x => ih _ _ x
  | put s l k ih => exact fun x => ih _
  | await q k ih =>
    intro x
    refine and_congr_right fun _ => and_congr_right fun _ => ?_
    exact forall₄_congr fun r _ t s => forall₃_congr fun o _ _ => ih r _

theorem wp_ofExcept {r : Except σ.Err α} {Q : α → Snap σ C Res → Prop}
    {E : σ.Err → Snap σ C Res → Prop} {x : Snap σ C Res} (hQ : ∀ a, r = .ok a → Q a x)
    (hE : ∀ e, r = .error e → E e x) : wp K p (Coro.ofExcept r) Q E x := by
  cases r with
  | ok a => exact hQ a rfl
  | error e => exact hE e rfl

end WP

/-! ## Facts about results -/

/-- Every value `c` returns satisfies `R` and every error it throws satisfies `T`, whatever it
reads and whatever it is answered. -/
def Always (R : α → Prop) (T : σ.Err → Prop) : Coro σ α → Prop
  | .ret a => R a
  | .throw e => T e
  | .now k => ∀ t, Always R T (k t)
  | .get k => ∀ s l, Always R T (k s l)
  | .put _ _ k => Always R T k
  | .await _ k => ∀ r, σ.Fair r → Always R T (k r)

/-- The program reads no clock and touches no state. -/
def Quiet : Coro σ α → Prop
  | .ret _ => True
  | .throw _ => True
  | .now _ => False
  | .get _ => False
  | .put _ _ _ => False
  | .await _ k => ∀ r, Quiet (k r)

theorem always_bind {R : β → Prop} {T : σ.Err → Prop} {c : Coro σ α} {f : α → Coro σ β} :
    Always R T (c.bind f) ↔ Always (fun a => Always R T (f a)) T c := by
  induction c with
  | ret a => exact Iff.rfl
  | throw e => exact Iff.rfl
  | now k ih => exact forall_congr' fun t => ih t
  | get k ih => exact forall₂_congr fun s l => ih s l
  | put s l k ih => exact ih
  | await q k ih => exact forall₂_congr fun r _ => ih r

theorem always_tryCatch {R : α → Prop} {T : σ.Err → Prop} {c : Coro σ α} {h : σ.Err → Coro σ α} :
    Always R T (c.tryCatch h) ↔ Always R (fun e => Always R T (h e)) c := by
  induction c with
  | ret a => exact Iff.rfl
  | throw e => exact Iff.rfl
  | now k ih => exact forall_congr' fun t => ih t
  | get k ih => exact forall₂_congr fun s l => ih s l
  | put s l k ih => exact ih
  | await q k ih => exact forall₂_congr fun r _ => ih r

theorem always_mono {R R' : α → Prop} {T T' : σ.Err → Prop} (hR : ∀ a, R a → R' a)
    (hT : ∀ e, T e → T' e) {c : Coro σ α} (h : Always R T c) : Always R' T' c := by
  induction c with
  | ret a => exact hR a h
  | throw e => exact hT e h
  | now k ih => exact fun t => ih t (h t)
  | get k ih => exact fun s l => ih s l (h s l)
  | put s l k ih => exact ih h
  | await q k ih => exact fun r hr => ih r (h r hr)

theorem always_true {c : Coro σ α} : Always (fun _ => True) (fun _ => True) c := by
  induction c with
  | ret a => trivial
  | throw e => trivial
  | now k ih => exact ih
  | get k ih => exact ih
  | put s l k ih => exact ih
  | await q k ih => exact fun r _ => ih r

theorem always_and {R R' : α → Prop} {T T' : σ.Err → Prop} {c : Coro σ α} (h : Always R T c)
    (h' : Always R' T' c) : Always (fun a => R a ∧ R' a) (fun e => T e ∧ T' e) c := by
  induction c with
  | ret a => exact ⟨h, h'⟩
  | throw e => exact ⟨h, h'⟩
  | now k ih => exact fun t => ih t (h t) (h' t)
  | get k ih => exact fun s l => ih s l (h s l) (h' s l)
  | put s l k ih => exact ih h h'
  | await q k ih => exact fun r hr => ih r (h r hr) (h' r hr)

theorem always_ofExcept {R : α → Prop} {T : σ.Err → Prop} {r : Except σ.Err α}
    (hR : ∀ a, r = .ok a → R a) (hT : ∀ e, r = .error e → T e) :
    Always R T (Coro.ofExcept r) := by
  cases r with
  | ok a => exact hR a rfl
  | error e => exact hT e rfl

/-- Every value `c` returns satisfies `R`. -/
abbrev Returns (R : α → Prop) (c : Coro σ α) : Prop := Always R (fun _ => True) c

theorem Returns.bind {R : α → Prop} {R' : β → Prop} {c : Coro σ α} {f : α → Coro σ β}
    (h : Returns R c) (hf : ∀ a, R a → Returns R' (f a)) : Returns R' (c.bind f) :=
  always_bind.mpr (always_mono hf (fun _ h => h) h)

theorem Returns.bind_right {R : β → Prop} {c : Coro σ α} {f : α → Coro σ β}
    (hf : ∀ a, Returns R (f a)) : Returns R (c.bind f) :=
  Returns.bind always_true fun a _ => hf a

theorem returns_ofExcept {R : α → Prop} {r : Except σ.Err α} (h : ∀ a, r = .ok a → R a) :
    Returns R (Coro.ofExcept r) := always_ofExcept h fun _ _ => trivial

theorem quiet_bind {c : Coro σ α} {f : α → Coro σ β} (hc : Quiet c) (hf : ∀ a, Quiet (f a)) :
    Quiet (c.bind f) := by
  induction c with
  | ret a => exact hf a
  | throw e => trivial
  | now k ih => exact hc
  | get k ih => exact hc
  | put s l k ih => exact hc
  | await q k ih => exact fun r => ih r (hc r)

theorem quiet_ofExcept (r : Except σ.Err α) : Quiet (Coro.ofExcept r) := by
  cases r <;> trivial

theorem quiet_request (q : σ.Req) : Quiet (Coro.request q) := fun r => quiet_ofExcept r

theorem quiet_attempt (q : σ.Req) : Quiet (Coro.attempt q) := fun _ => trivial

section Rules

variable {K : Contract σ C Res} {p : ℕ}

/-- A quiet program only lets others run. -/
theorem wp_quiet {c : Coro σ α} {R : α → Prop} {T : σ.Err → Prop}
    {Q : α → Snap σ C Res → Prop} {E : σ.Err → Snap σ C Res → Prop} (hq : Quiet c)
    (ha : Always R T c) : ∀ x, K.inv (x.cfg p) → K.keeps x →
      (∀ a y, x.Idle y → K.inv (y.cfg p) → R a → Q a y) →
      (∀ e y, x.Idle y → K.inv (y.cfg p) → T e → E e y) → wp K p c Q E x := by
  induction c with
  | ret a => exact fun x hI _ hQ _ => hQ a x (.inl rfl) hI ha
  | throw e => exact fun x hI _ _ hE => hE e x (.inl rfl) hI ha
  | now k ih => exact hq.elim
  | get k ih => exact hq.elim
  | put s l k ih => exact hq.elim
  | await q k ih =>
    intro x hI hkeeps hQ hE
    refine ⟨hI, hkeeps, fun r hr t s o ht hI' =>
      ih r (hq r) (ha r hr) _ hI' (K.keeps_enter _ rfl) ?_ ?_⟩
    · exact fun a y hy hI'' hR => hQ a y (.inr (hy.of_later ht)) hI'' hR
    · exact fun e y hy hI'' hT => hE e y (.inr (hy.of_later ht)) hI'' hT

/-- What a program always returns may be added to a postcondition. -/
theorem wp_always {R : α → Prop} {T : σ.Err → Prop} {c : Coro σ α} (ha : Always R T c)
    {Q : α → Snap σ C Res → Prop} {E : σ.Err → Snap σ C Res → Prop} :
    ∀ x, wp K p c Q E x → wp K p c (fun a y => R a ∧ Q a y) (fun e y => T e ∧ E e y) x := by
  induction c with
  | ret a => exact fun _ h => ⟨ha, h⟩
  | throw e => exact fun _ h => ⟨ha, h⟩
  | now k ih => exact fun x h t ht => ih t (ha t) _ (h t ht)
  | get k ih => exact fun x h => ih _ _ (ha _ _) x h
  | put s l k ih => exact fun x h => ih ha _ h
  | await q k ih =>
    exact fun x h =>
      ⟨h.1, h.2.1, fun r hr t s o ht hI => ih r (ha r hr) _ (h.2.2 r hr t s o ht hI)⟩

end Rules

end Coroutine
