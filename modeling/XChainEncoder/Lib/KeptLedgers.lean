import XChainEncoder.Lib.CallRuns

/-!
# What a call keeps in its ledger

* `LedgerKept`, `ledgerKept_bind`, `ledgerKept_tryCatch`: programs that write only ledgers of a kind;
* `KeepsLedger`, `keepsLedger_step`: a call of such a program keeps its ledger in the kind;
* `Begins`, `begins_run`: **a call that writes a ledger before its first await keeps it**.
-/

namespace Coroutine

variable {σ : Sig} {α β C Res : Type}

/-- From a ledger in `L` the program writes only ledgers in `L`. -/
def LedgerKept (L : σ.Ledger → Prop) : Coro σ α → Prop
  | .ret _ => True
  | .throw _ => True
  | .now k => ∀ t, LedgerKept L (k t)
  | .get k => ∀ s l, L l → LedgerKept L (k s l)
  | .put _ l k => L l ∧ LedgerKept L k
  | .await _ k => ∀ r, LedgerKept L (k r)

section LedgerKept

variable {L : σ.Ledger → Prop}

theorem ledgerKept_bind {c : Coro σ α} {f : α → Coro σ β} (hc : LedgerKept L c)
    (hf : ∀ a, LedgerKept L (f a)) : LedgerKept L (c.bind f) := by
  induction c with
  | ret a => exact hf a
  | throw e => trivial
  | now k ih => exact fun t => ih t (hc t)
  | get k ih => exact fun s l hl => ih s l (hc s l hl)
  | put s l k ih => exact ⟨hc.1, ih hc.2⟩
  | await q k ih => exact fun r => ih r (hc r)

theorem ledgerKept_tryCatch {c : Coro σ α} {h : σ.Err → Coro σ α} (hc : LedgerKept L c)
    (hh : ∀ e, LedgerKept L (h e)) : LedgerKept L (c.tryCatch h) := by
  induction c with
  | ret a => trivial
  | throw e => exact hh e
  | now k ih => exact fun t => ih t (hc t)
  | get k ih => exact fun s l hl => ih s l (hc s l hl)
  | put s l k ih => exact ⟨hc.1, ih hc.2⟩
  | await q k ih => exact fun r => ih r (hc r)

theorem exec_ledgerKept {c : Coro σ Res} :
    ∀ (ds : List ℕ) (x : Snap σ C Res), LedgerKept L c → L x.call.ledger →
      L (c.exec ds x).1.call.ledger ∧
        ∀ pd, (c.exec ds x).2 = some pd → ∀ r, LedgerKept L (pd.cont r) := by
  induction c with
  | ret a => exact fun _ x _ hl => ⟨hl, fun _ h => by cases h⟩
  | throw e => exact fun _ x _ hl => ⟨hl, fun _ h => by cases h⟩
  | now k ih => exact fun ds x hc hl => ih _ ds.tail _ (hc _) hl
  | get k ih => exact fun ds x hc hl => ih _ _ ds x (hc _ _ hl) hl
  | put s l k ih => exact fun ds x hc _ => ih ds (x.store s l) hc.2 hc.1
  | await q k ih =>
    refine fun _ x hc hl => ⟨hl, fun pd h r => ?_⟩
    cases h
    exact hc r

variable {program : C → Coro σ Res} {emptyLedger : σ.Ledger}

/-- Call `p` has a ledger in `L` and keeps it there. -/
structure KeepsLedger (L : σ.Ledger → Prop) (w : World σ C Res) (p : ℕ) : Prop where
  started : p < w.next
  ledger : ∀ call, w.cfg.calls p = some call → L call.ledger
  pending : ∀ pd, w.pending p = some pd → ∀ r, LedgerKept L (pd.cont r)

theorem keepsLedger_update {w : World σ C Res} {p : ℕ} {c : Coro σ Res} {ds : List ℕ}
    {x : Snap σ C Res} (hp : p < w.next) (hc : LedgerKept L c) (hl : L x.call.ledger) :
    KeepsLedger L (w.update p (c.exec ds x)) p := by
  obtain ⟨hledger, hpending⟩ := exec_ledgerKept ds x hc hl
  refine ⟨hp, fun call hcall => ?_, fun pd hpd => ?_⟩
  · have : (c.exec ds x).1.call = call := by simpa [World.update, Snap.cfg] using hcall
    rw [← this]
    exact hledger
  · exact hpending pd (by simpa [World.update] using hpd)

/-- **A call that keeps its ledger does so at every step.** -/
theorem keepsLedger_step {w : World σ C Res} {p : ℕ} (h : KeepsLedger L w p) (ev : Event σ C) :
    KeepsLedger L (step program emptyLedger w ev) p := by
  by_cases hruns : ev.runs w = some p
  · cases ev with
    | start command ds =>
      have hp : w.next = p := by simpa [Event.runs] using hruns
      exact absurd h.started (by omega)
    | resume q reply ds =>
      simp only [Event.runs] at hruns
      cases hpd : w.pending q with
      | none => simp [hpd] at hruns
      | some pd =>
        obtain rfl : q = p := by simpa [hpd] using hruns
        cases hc : w.cfg.calls q with
        | none =>
          simp only [step, hpd, hc]
          exact h
        | some call =>
          simp only [step, hpd, hc]
          exact keepsLedger_update h.started (h.pending pd hpd _) (h.ledger call hc)
    | pass d => cases hruns
  · have hcalls : (step program emptyLedger w ev).cfg.calls p = w.cfg.calls p :=
      step_calls_of_ne hruns
    have hkept : (step program emptyLedger w ev).pending p = w.pending p ∧
        w.next ≤ (step program emptyLedger w ev).next := by
      cases ev with
      | start command ds =>
        have hne : p ≠ w.next := fun he => hruns (congrArg some he.symm)
        exact ⟨Function.update_of_ne hne _ _, Nat.le_succ _⟩
      | resume q reply ds =>
        simp only [step]
        cases hpd : w.pending q with
        | none => exact ⟨rfl, le_rfl⟩
        | some pd =>
          have hne : p ≠ q := fun he => hruns (by simp [Event.runs, hpd, he])
          cases w.cfg.calls q with
          | none => exact ⟨rfl, le_rfl⟩
          | some call => exact ⟨Function.update_of_ne hne _ _, le_rfl⟩
      | pass d => exact ⟨rfl, le_rfl⟩
    exact ⟨h.started.trans_le hkept.2, fun call hcall => h.ledger call (hcalls ▸ hcall),
      fun pd hpd => h.pending pd (hkept.1 ▸ hpd)⟩

/-- From a state in `S` the program first writes a ledger in `L`, and keeps it. -/
def Begins (S : σ.Shared → Prop) (L : σ.Ledger → Prop) : Coro σ α → Prop
  | .ret _ => False
  | .throw _ => False
  | .now k => ∀ t, Begins S L (k t)
  | .get k => ∀ s l, S s → Begins S L (k s l)
  | .put _ l k => L l ∧ LedgerKept L k
  | .await _ _ => False

theorem exec_begins {S : σ.Shared → Prop} {c : Coro σ Res} :
    ∀ (ds : List ℕ) (x : Snap σ C Res), Begins S L c → S x.shared →
      L (c.exec ds x).1.call.ledger ∧
        ∀ pd, (c.exec ds x).2 = some pd → ∀ r, LedgerKept L (pd.cont r) := by
  induction c with
  | ret a => exact fun _ _ hc => hc.elim
  | throw e => exact fun _ _ hc => hc.elim
  | now k ih => exact fun ds x hc hs => ih _ ds.tail _ (hc _) hs
  | get k ih => exact fun ds x hc hs => ih _ _ ds x (hc _ _ hs) hs
  | put s l k ih => exact fun ds x hc _ => exec_ledgerKept ds (x.store s l) hc.2 hc.1
  | await q k ih => exact fun _ _ hc => hc.elim

/-- **A call that begins in a state of `S` has a ledger in `L` from then on.** -/
theorem begins_run {K : Contract σ C Res} {Q : C → ℕ → Res → Snap σ C Res → Prop}
    {E : C → ℕ → σ.Err → Snap σ C Res → Prop} (hm : Meets program emptyLedger K Q E)
    {S : σ.Shared → Prop} {P : C → Prop}
    (hS : ∀ w ev, Sound K Q E w → S w.cfg.shared → S (step program emptyLedger w ev).cfg.shared)
    (hbegins : ∀ command, P command → Begins S L (program command)) {w : World σ C Res}
    (hw : Sound K Q E w) (hs : S w.cfg.shared) (events : List (Event σ C)) :
    ∀ p call, w.cfg.calls p = none → (run program emptyLedger w events).cfg.calls p = some call →
      P call.command → L call.ledger := by
  -- Every such call begun since then keeps its ledger.
  suffices key : ∀ w' : World σ C Res, Sound K Q E w' → S w'.cfg.shared →
      (∀ p call, w.cfg.calls p = none → w'.cfg.calls p = some call → P call.command →
        KeepsLedger L w' p) →
      ∀ p call, w.cfg.calls p = none → (run program emptyLedger w' events).cfg.calls p = some call →
        P call.command → KeepsLedger L (run program emptyLedger w' events) p by
    intro p call hnone hcall hP
    exact (key w hw hs (fun p call hnone hcall => by cases hnone.symm.trans hcall) p call hnone
      hcall hP).ledger call hcall
  induction events with
  | nil => exact fun _ _ _ hkept => hkept
  | cons ev events ih =>
    intro w' hw' hs' hkept
    refine ih _ (sound_step hm hw' ev) (hS w' ev hw' hs') ?_
    intro p call hnone hcall hP
    cases hbefore : w'.cfg.calls p with
    | some call₀ =>
      have hp : p < w'.next := by
        by_contra hge
        rw [hw'.fresh p (Nat.le_of_not_lt hge)] at hbefore
        cases hbefore
      have hsame := step_command ev hp hbefore hcall
      exact keepsLedger_step (hkept p call₀ hnone hbefore (hsame ▸ hP)) ev
    | none =>
      by_cases hruns : ev.runs w' = some p
      · cases ev with
        | start command ds =>
          obtain rfl : w'.next = p := by simpa [Event.runs] using hruns
          have hself : ((program command).exec ds (w'.cfg.enter (freshCall emptyLedger command
              w'.cfg.clock))).1.call = call := by
            simpa [step, World.update, Snap.cfg] using hcall
          have hcommand : call.command = command := by
            rw [← hself]
            exact exec_command ds _
          obtain ⟨hledger, hpending⟩ := exec_begins ds (w'.cfg.enter (freshCall emptyLedger command
            w'.cfg.clock)) (hbegins command (hcommand ▸ hP)) hs'
          refine ⟨Nat.lt_succ_self _, fun call' hcall' => ?_, fun pd hpd => hpending pd ?_⟩
          · cases hcall.symm.trans hcall'
            rw [← hself]
            exact hledger
          · simpa [step, World.update] using hpd
        | resume q reply ds =>
          simp only [Event.runs] at hruns
          cases hpd : w'.pending q with
          | none => simp [hpd] at hruns
          | some pd =>
            obtain rfl : q = p := by simpa [hpd] using hruns
            obtain ⟨call₀, hcall₀, -⟩ := hw'.ready q pd hpd
            cases hbefore.symm.trans hcall₀
        | pass d => cases hruns
      · rw [step_calls_of_ne hruns, hbefore] at hcall
        cases hcall

end LedgerKept

end Coroutine
