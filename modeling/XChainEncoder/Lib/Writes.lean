import XChainEncoder.Lib.SoloRuns

/-!
# What a program may write

* `Writes`: every write of a program is one the relation `R` allows, at the time and over the state
  and ledger it is made;
* `writes_bind`, `writes_tryCatch`, `writes_ofExcept`, `writes_quiet`: how such programs compose;
* `wp_writes`: **what time and the allowed writes keep, and what carries over an await, holds at the
  end of the program**;
* `alone_writes`: the same of a program that runs alone;
* `KeepsBoth`, `kept_run`: **what every write and time keep holds in every reachable world**, of the
  state and of every ledger.
-/

namespace Coroutine

variable {σ : Sig} {α β C Res : Type}

/-- A relation of writes: the time, the state and ledger before and those after. -/
abbrev WriteRel (σ : Sig) : Type := ℕ → σ.Shared → σ.Ledger → σ.Shared → σ.Ledger → Prop

/-- From time `n`, the state and the ledger on every write is one `R` allows, whatever other calls
leave in between. -/
def Writes (R : WriteRel σ) : Coro σ α → ℕ → σ.Shared → σ.Ledger → Prop
  | .ret _, _, _, _ => True
  | .throw _, _, _, _ => True
  | .now k, n, s, l => ∀ t, n ≤ t → Writes R (k t) t s l
  | .get k, n, s, l => Writes R (k s l) n s l
  | .put s' l' k, n, s, l => R n s l s' l' ∧ Writes R k n s' l'
  | .await _ k, n, _, l => ∀ r t s, n ≤ t → Writes R (k r) t s l

variable {R : WriteRel σ}

theorem writes_bind {c : Coro σ α} {f : α → Coro σ β} {n : ℕ} {s : σ.Shared} {l : σ.Ledger}
    (hc : Writes R c n s l) (hf : ∀ a t s l, n ≤ t → Writes R (f a) t s l) :
    Writes R (c.bind f) n s l := by
  induction c generalizing n s l with
  | ret a => exact hf a n s l le_rfl
  | throw e => trivial
  | now k ih => exact fun t ht => ih t (hc t ht) fun a t' s l ht' => hf a t' s l (ht.trans ht')
  | get k ih => exact ih s l hc hf
  | put s' l' k ih => exact ⟨hc.1, ih hc.2 hf⟩
  | await q k ih =>
    exact fun r t s ht => ih r (hc r t s ht) fun a t' s l ht' => hf a t' s l (ht.trans ht')

theorem writes_tryCatch {c : Coro σ α} {h : σ.Err → Coro σ α} {n : ℕ}
    {s : σ.Shared} {l : σ.Ledger} (hc : Writes R c n s l)
    (hh : ∀ e t s l, n ≤ t → Writes R (h e) t s l) : Writes R (c.tryCatch h) n s l := by
  induction c generalizing n s l with
  | ret a => trivial
  | throw e => exact hh e n s l le_rfl
  | now k ih => exact fun t ht => ih t (hc t ht) fun e t' s l ht' => hh e t' s l (ht.trans ht')
  | get k ih => exact ih s l hc hh
  | put s' l' k ih => exact ⟨hc.1, ih hc.2 hh⟩
  | await q k ih =>
    exact fun r t s ht => ih r (hc r t s ht) fun e t' s l ht' => hh e t' s l (ht.trans ht')

theorem writes_ofExcept (r : Except σ.Err α) (n : ℕ) (s : σ.Shared) (l : σ.Ledger) :
    Writes R (Coro.ofExcept r) n s l := by
  cases r <;> trivial

theorem writes_quiet {c : Coro σ α} (hc : Quiet c) (n : ℕ) (s : σ.Shared) (l : σ.Ledger) :
    Writes R c n s l := by
  induction c generalizing n s with
  | ret a => trivial
  | throw e => trivial
  | now k ih => exact hc.elim
  | get k ih => exact hc.elim
  | put s l k ih => exact hc.elim
  | await q k ih => exact fun r t s _ => ih r (hc r) t s

section Rules

variable {K : Contract σ C Res} {p : ℕ} {J : Snap σ C Res → Prop}

/-- **What time and the allowed writes keep, and an await carries over, holds at the end.** -/
theorem wp_writes {c : Coro σ α} {x : Snap σ C Res}
    (hc : Writes R c x.clock x.shared x.call.ledger) (hx : J x)
    (htick : ∀ y t, y.clock ≤ t → J y → J (y.tick t))
    (hstore : ∀ y s l, J y → R y.clock y.shared y.call.ledger s l → J (y.store s l))
    (hawait : ∀ y, J y → K.inv (y.cfg p) ∧ K.keeps y ∧ ∀ t s o, y.clock ≤ t →
      K.inv ((y.later t s o).cfg p) → J (y.later t s o)) :
    wp K p c (fun _ => J) (fun _ => J) x := by
  induction c generalizing x with
  | ret a => exact hx
  | throw e => exact hx
  | now k ih => exact fun t ht => ih t (hc t ht) (htick x t ht hx)
  | get k ih => exact ih _ _ hc hx
  | put s l k ih => exact ih hc.2 (hstore x s l hx hc.1)
  | await q k ih =>
    obtain ⟨hinv, hkeeps, hlater⟩ := hawait x hx
    exact ⟨hinv, hkeeps, fun r _ t s o ht hI => ih r (hc r t s ht) (hlater t s o ht hI)⟩

end Rules

/-- What the allowed writes keep holds of what a lone program leaves. -/
theorem alone_writes {reply : Replies σ} {clock : ℕ} {I : σ.Shared → σ.Ledger → Prop}
    {c : Coro σ α} {s : σ.Shared} {l : σ.Ledger} (hc : Writes R c clock s l) (hI : I s l)
    (hstore : ∀ s l s' l', I s l → R clock s l s' l' → I s' l') :
    I (c.alone reply clock s l).2.1 (c.alone reply clock s l).2.2 := by
  induction c generalizing s l with
  | ret a => exact hI
  | throw e => exact hI
  | now k ih => exact ih clock (hc clock le_rfl) hI
  | get k ih => exact ih s l hc hI
  | put s' l' k ih => exact ih hc.2 (hstore s l s' l' hI hc.1)
  | await q k ih => exact ih _ (hc _ clock s le_rfl) hI

/-! ## Writes that keep a bound -/

/-- A write that keeps `A` of the shared state and `B` of the own ledger. -/
def KeepsBoth (A : ℕ → σ.Shared → Prop) (B : ℕ → σ.Ledger → Prop) : WriteRel σ :=
  fun n s l s' l' => A n s → B n l → A n s' ∧ B n l'

section Runs

variable {A : ℕ → σ.Shared → Prop} {B : ℕ → σ.Ledger → Prop} {program : C → Coro σ Res}
  {emptyLedger : σ.Ledger}

/-- `A` of the shared state and `B` of every ledger. -/
def keptContract (A : ℕ → σ.Shared → Prop) (B : ℕ → σ.Ledger → Prop) : Contract σ C Res where
  inv g := A g.clock g.shared ∧ ∀ p call, g.calls p = some call → B g.clock call.ledger
  keeps _ := True
  keeps_enter _ _ := trivial

/-- What a running call keeps: `A`, and `B` of its own and of all other ledgers. -/
structure KeptAt (A : ℕ → σ.Shared → Prop) (B : ℕ → σ.Ledger → Prop) (p : ℕ) (x : Snap σ C Res) :
    Prop where
  shared : A x.clock x.shared
  own : B x.clock x.call.ledger
  others : ∀ q ≠ p, ∀ call, x.others q = some call → B x.clock call.ledger

theorem KeptAt.inv {p : ℕ} {x : Snap σ C Res} (h : KeptAt A B p x) (st : Stage σ Res) :
    (keptContract A B).inv ((x.finish st).cfg p) := by
  refine ⟨h.shared, fun q call hq => ?_⟩
  by_cases hqp : q = p
  · subst hqp
    obtain rfl := Option.some.inj (((x.finish st).cfg_self q).symm.trans hq)
    exact h.own
  · exact h.others q hqp call ((Function.update_of_ne hqp ..).symm.trans hq)

/-- **What every write and time keep holds in every reachable world.** -/
theorem kept_run (hA : ∀ {n n' s}, n ≤ n' → A n s → A n' s) (hB : ∀ {n n' l}, n ≤ n' → B n l → B n' l)
    (hprogram : ∀ command n s l, Writes (KeepsBoth A B) (program command) n s l)
    (hempty : ∀ n, B n emptyLedger) {clock : ℕ} {s : σ.Shared} (hs : A clock s)
    (events : List (Event σ C)) :
    A (run program emptyLedger (World.init clock s) events).cfg.clock
        (run program emptyLedger (World.init clock s) events).cfg.shared ∧
      ∀ p call, (run program emptyLedger (World.init clock s) events).cfg.calls p = some call →
        B (run program emptyLedger (World.init clock s) events).cfg.clock call.ledger := by
  have hmeets : Meets program emptyLedger (keptContract A B) (fun _ p _ => KeptAt A B p)
      fun _ p _ => KeptAt A B p := by
    refine ⟨fun g t ht h => ⟨hA ht h.1, fun p call hp => hB ht (h.2 p call hp)⟩,
      fun g p command hfree h => ?_, fun _ p a x h => ⟨h.inv _, trivial⟩,
      fun _ p e x h => ⟨h.inv _, trivial⟩⟩
    refine wp_writes (hprogram command _ _ _) ⟨h.1, hempty _, fun q _ => h.2 q⟩ ?_ ?_ ?_
    · exact fun y t ht hy => ⟨hA ht hy.shared, hB ht hy.own, fun q hq call hc =>
        hB ht (hy.others q hq call hc)⟩
    · exact fun y s l hy hkeeps => ⟨(hkeeps hy.shared hy.own).1, (hkeeps hy.shared hy.own).2,
        hy.others⟩
    · refine fun y hy => ⟨hy.inv y.call.stage, trivial, fun t s o ht hI => ?_⟩
      refine ⟨hI.1, hB ht hy.own, fun q hq call hc => hI.2 q call ?_⟩
      exact (Function.update_of_ne hq ..).trans hc
  exact (invariant_run hmeets ⟨hs, by rintro p call ⟨⟩⟩ events).inv

end Runs

end Coroutine
