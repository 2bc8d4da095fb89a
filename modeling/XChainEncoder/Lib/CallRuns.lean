import XChainEncoder.Lib.Coroutine

/-!
# Runs of cooperative calls

What one step of a world does, and what holds along every run.

* `Meets`, `Sound`, `sound_step`, **`invariant_run`**: an invariant that every program keeps holds in
  every reachable world, and every call that ended met its postcondition;
* `EachStep`, `run_of_eachStep`: a property of worlds that every step keeps;
* `step_calls_of_ne`, `step_keeps`: a step moves one call and guarantees what the contract says;
* `step_ended`: a call that ends in a step meets its postcondition there;
* `step_started`: **a call of the next world has just started, or it goes on with its command and its
  start**.
-/

namespace Coroutine

variable {σ : Sig} {α C Res : Type}

section Runs

/-- What an execution leaves alone; the clock does not go back. -/
structure Snap.Follows (x y : Snap σ C Res) : Prop where
  clock : x.clock ≤ y.clock
  others : y.others = x.others
  entered : y.entered = x.entered
  command : y.call.command = x.call.command

theorem Snap.Follows.refl (x : Snap σ C Res) : x.Follows x := ⟨le_rfl, rfl, rfl, rfl⟩

theorem Snap.Follows.trans {x y z : Snap σ C Res} (h : x.Follows y) (h' : y.Follows z) :
    x.Follows z :=
  ⟨h.clock.trans h'.clock, h'.others.trans h.others, h'.entered.trans h.entered,
    h'.command.trans h.command⟩

/-- How an execution stops: it returned, it threw, or it awaits and is ready for every later
state. -/
inductive Stopped (K : Contract σ C Res) (p : ℕ) (Q : Res → Snap σ C Res → Prop)
    (E : σ.Err → Snap σ C Res → Prop) (x : Snap σ C Res) :
    Snap σ C Res × Option (Pending σ Res) → Prop where
  | returned (a : Res) (y : Snap σ C Res) (hf : x.Follows y) (hQ : Q a y) :
      Stopped K p Q E x (y.returned a, none)
  | threw (e : σ.Err) (y : Snap σ C Res) (hf : x.Follows y) (hE : E e y) :
      Stopped K p Q E x (y.threw e, none)
  | awaits (y : Snap σ C Res) (pd : Pending σ Res) (hf : x.Follows y)
      (hstage : y.call.stage = x.call.stage) (hI : K.inv (y.cfg p)) (hkeeps : K.keeps y)
      (hready : ∀ r, σ.Fair r → ∀ t s o, y.clock ≤ t → K.inv ((y.later t s o).cfg p) →
        wp K p (pd.cont r) Q E (y.later t s o)) : Stopped K p Q E x (y, some pd)

variable {K : Contract σ C Res} {p : ℕ} {Q : Res → Snap σ C Res → Prop}
  {E : σ.Err → Snap σ C Res → Prop}

theorem Stopped.of_follows {x y : Snap σ C Res} {r : Snap σ C Res × Option (Pending σ Res)}
    (h : Stopped K p Q E y r) (hf : x.Follows y) (hs : y.call.stage = x.call.stage) :
    Stopped K p Q E x r := by
  cases h with
  | returned a z hz hQ => exact .returned a z (hf.trans hz) hQ
  | threw e z hz hE => exact .threw e z (hf.trans hz) hE
  | awaits z pd hz hst hI hk hr => exact .awaits z pd (hf.trans hz) (hst.trans hs) hI hk hr

/-- Running a call from a state that meets its weakest precondition. -/
theorem exec_spec {c : Coro σ Res} :
    ∀ (ds : List ℕ) (x : Snap σ C Res), wp K p c Q E x → Stopped K p Q E x (c.exec ds x) := by
  induction c with
  | ret a => exact fun _ x h => .returned a x (.refl x) h
  | throw e => exact fun _ x h => .threw e x (.refl x) h
  | now k ih =>
    intro ds x h
    have hle : x.clock ≤ x.clock + ds.headD 0 := Nat.le_add_right _ _
    exact (ih _ ds.tail _ (h _ hle)).of_follows ⟨hle, rfl, rfl, rfl⟩ rfl
  | get k ih => exact fun ds x h => ih _ _ ds x h
  | put s l k ih => exact fun ds x h => (ih ds _ h).of_follows ⟨le_rfl, rfl, rfl, rfl⟩ rfl
  | await q k ih => exact fun _ x h => .awaits x ⟨q, k⟩ (.refl x) rfl h.1 h.2.1 h.2.2

variable {program : C → Coro σ Res} {emptyLedger : σ.Ledger}
  {Q : C → ℕ → Res → Snap σ C Res → Prop} {E : C → ℕ → σ.Err → Snap σ C Res → Prop}

/-- The continuation of a suspended call is ready for every later state. -/
def Ready (K : Contract σ C Res) (Q : C → ℕ → Res → Snap σ C Res → Prop)
    (E : C → ℕ → σ.Err → Snap σ C Res → Prop) (p : ℕ) (call : Call σ C Res) (clock : ℕ)
    (pd : Pending σ Res) : Prop :=
  ∀ r, σ.Fair r → ∀ t s o, clock ≤ t → K.inv ((Snap.mk t s call o s).cfg p) →
    wp K p (pd.cont r) (Q call.command p) (E call.command p) ⟨t, s, call, o, s⟩

/-- A call that ended met its postcondition there. -/
structure Ended (Q : C → ℕ → Res → Snap σ C Res → Prop) (E : C → ℕ → σ.Err → Snap σ C Res → Prop)
    (p : ℕ) (call : Call σ C Res) : Prop where
  returned : ∀ a t, call.stage = .returned a t →
    ∃ y : Snap σ C Res, (y.returned a).call = call ∧ Q call.command p a y
  threw : ∀ e t, call.stage = .threw e t →
    ∃ y : Snap σ C Res, (y.threw e).call = call ∧ E call.command p e y

/-- The invariant holds, every suspended call can go on, and every call that ended met its
postcondition. -/
structure Sound (K : Contract σ C Res) (Q : C → ℕ → Res → Snap σ C Res → Prop)
    (E : C → ℕ → σ.Err → Snap σ C Res → Prop) (w : World σ C Res) : Prop where
  inv : K.inv w.cfg
  fresh : ∀ p, w.next ≤ p → w.cfg.calls p = none
  ready : ∀ p pd, w.pending p = some pd → ∃ call, w.cfg.calls p = some call ∧
    call.stage = .running ∧ Ready K Q E p call w.cfg.clock pd
  ended : ∀ p call, w.cfg.calls p = some call → Ended Q E p call

/-- What a family of programs has to meet: time keeps the invariant, every program meets its
postconditions, and these give the invariant back. -/
structure Meets (program : C → Coro σ Res) (emptyLedger : σ.Ledger) (K : Contract σ C Res)
    (Q : C → ℕ → Res → Snap σ C Res → Prop) (E : C → ℕ → σ.Err → Snap σ C Res → Prop) :
    Prop where
  pass : ∀ (g : Cfg σ C Res) t, g.clock ≤ t → K.inv g → K.inv { g with clock := t }
  start : ∀ (g : Cfg σ C Res) p command, g.calls p = none → K.inv g →
    wp K p (program command) (Q command p) (E command p)
      (g.enter (freshCall emptyLedger command g.clock))
  returned : ∀ command p a x, Q command p a x → K.inv ((x.returned a).cfg p) ∧ K.keeps x
  threw : ∀ command p e x, E command p e x → K.inv ((x.threw e).cfg p) ∧ K.keeps x

theorem Sound.update (hm : Meets program emptyLedger K Q E) {w : World σ C Res}
    (hw : Sound K Q E w) {p : ℕ} {c : Coro σ Res} {ds : List ℕ} {call : Call σ C Res}
    (hp : p < w.next) (hrun : call.stage = .running)
    (h : wp K p c (Q call.command p) (E call.command p) (w.cfg.enter call)) :
    Sound K Q E (w.update p (c.exec ds (w.cfg.enter call))) := by
  have hst := exec_spec ds _ h
  generalize c.exec ds (w.cfg.enter call) = r at hst
  have hf : (w.cfg.enter call).Follows r.1 := by
    cases hst with
    | returned a y hf => exact ⟨hf.clock, hf.others, hf.entered, hf.command⟩
    | threw e y hf => exact ⟨hf.clock, hf.others, hf.entered, hf.command⟩
    | awaits y pd hf => exact hf
  have hothers : ∀ q ≠ p, (w.update p r).cfg.calls q = w.cfg.calls q := fun q hqp => by
    simp only [World.update, Snap.cfg, Function.update_of_ne hqp, hf.others]
    rfl
  refine ⟨?_, fun q hq => ?_, fun q pd hpd => ?_, fun q call' hq => ?_⟩
  · cases hst with
    | returned a y hf hQ => exact (hm.returned _ _ _ _ hQ).1
    | threw e y hf hE => exact (hm.threw _ _ _ _ hE).1
    | awaits y pd hf hs hI => exact hI
  · have hqp : q ≠ p := fun he => absurd hp (Nat.not_lt.mpr (he ▸ hq))
    rw [hothers q hqp]
    exact hw.fresh q hq
  · by_cases hqp : q = p
    · subst hqp
      have hpd' : r.2 = some pd := by simpa [World.update] using hpd
      cases hst with
      | returned a y => cases hpd'
      | threw e y => cases hpd'
      | awaits y pd' hf hs hI _ hready =>
        cases hpd'
        refine ⟨y.call, Function.update_self .., hs.trans hrun, ?_⟩
        rw [Ready, hf.command]
        exact hready
    · have hpd' : w.pending q = some pd := by
        simpa [World.update, Function.update_of_ne hqp] using hpd
      obtain ⟨call', hc, hs, hr⟩ := hw.ready q pd hpd'
      exact ⟨call', (hothers q hqp).trans hc, hs,
        fun r' hr' t s o ht => hr r' hr' t s o (hf.clock.trans ht)⟩
  · by_cases hqp : q = p
    · subst hqp
      have hself : r.1.call = call' := by simpa [World.update, Snap.cfg] using hq
      cases hst with
      | returned a y hf hQ =>
        have hcmd : call'.command = call.command := by rw [← hself]; exact hf.command
        refine ⟨fun a' t hs => ?_, fun e t hs => ?_⟩ <;> rw [← hself] at hs <;> cases hs
        exact ⟨y, hself, hcmd ▸ hQ⟩
      | threw e y hf hE =>
        have hcmd : call'.command = call.command := by rw [← hself]; exact hf.command
        refine ⟨fun a t hs => ?_, fun e' t hs => ?_⟩ <;> rw [← hself] at hs <;> cases hs
        exact ⟨y, hself, hcmd ▸ hE⟩
      | awaits y pd hf hs =>
        have hstage : call'.stage = .running := hself ▸ hs.trans hrun
        refine ⟨fun _ _ h => ?_, fun _ _ h => ?_⟩ <;> cases hstage.symm.trans h
    · exact hw.ended q call' ((hothers q hqp).symm.trans hq)

theorem sound_step (hm : Meets program emptyLedger K Q E) {w : World σ C Res}
    (hw : Sound K Q E w) (ev : Event σ C) : Sound K Q E (step program emptyLedger w ev) := by
  cases ev with
  | start command ds =>
    have hs := hm.start w.cfg w.next command (hw.fresh _ le_rfl) hw.inv
    have hnext : Sound K Q E { w with next := w.next + 1 } :=
      ⟨hw.inv, fun p hp => hw.fresh p (Nat.le_of_succ_le hp), hw.ready, hw.ended⟩
    exact hnext.update hm (Nat.lt_succ_self _) rfl hs
  | resume p reply ds =>
    simp only [step]
    cases hpd : w.pending p with
    | none => exact hw
    | some pd =>
      obtain ⟨call, hc, hs, hr⟩ := hw.ready p pd hpd
      obtain ⟨q, k⟩ := pd
      simp only [hc]
      have hp : p < w.next := by
        by_contra hge
        rw [hw.fresh p (Nat.le_of_not_lt hge)] at hc
        cases hc
      refine hw.update hm hp hs (hr _ (fair_mapError (reply q)) _ _ _ le_rfl ?_)
      have hself : Function.update w.cfg.calls p (some call) = w.cfg.calls :=
        Function.update_eq_self_iff.mpr hc.symm
      simpa only [Snap.cfg, hself] using hw.inv
  | pass d =>
    refine ⟨hm.pass _ _ (Nat.le_add_right _ _) hw.inv, hw.fresh, fun p pd hpd => ?_, hw.ended⟩
    obtain ⟨call, hc, hs, hr⟩ := hw.ready p pd hpd
    exact ⟨call, hc, hs, fun r hr' t s o ht => hr r hr' t s o ((Nat.le_add_right _ _).trans ht)⟩

/-- **An invariant that time and every program keep holds in every reachable world.** -/
theorem invariant_run (hm : Meets program emptyLedger K Q E) {clock : ℕ} {s : σ.Shared}
    (hinit : K.inv ⟨clock, s, fun _ => none⟩) (events : List (Event σ C)) :
    Sound K Q E (run program emptyLedger (World.init clock s) events) := by
  have h0 : Sound K Q E (World.init clock s : World σ C Res) :=
    ⟨hinit, fun _ _ => rfl, (fun _ _ h => by cases h), fun _ _ h => by cases h⟩
  suffices key : ∀ (w : World σ C Res), Sound K Q E w →
      Sound K Q E (run program emptyLedger w events) from key _ h0
  induction events with
  | nil => exact fun _ hw => hw
  | cons ev evs ih => exact fun w hw => ih _ (sound_step hm hw ev)

/-- `P` holds of every step of the run. -/
def EachStep (program : C → Coro σ Res) (emptyLedger : σ.Ledger)
    (P : World σ C Res → Event σ C → World σ C Res → Prop) :
    World σ C Res → List (Event σ C) → Prop
  | _, [] => True
  | w, ev :: evs => P w ev (step program emptyLedger w ev) ∧
      EachStep program emptyLedger P (step program emptyLedger w ev) evs

instance EachStep.decidable {P : World σ C Res → Event σ C → World σ C Res → Prop}
    [∀ w ev w', Decidable (P w ev w')] :
    ∀ (events : List (Event σ C)) (w : World σ C Res),
      Decidable (EachStep program emptyLedger P w events)
  | [], _ => isTrue trivial
  | ev :: evs, w =>
    have : Decidable (EachStep program emptyLedger P (step program emptyLedger w ev) evs) :=
      EachStep.decidable evs _
    inferInstanceAs (Decidable (P w ev (step program emptyLedger w ev) ∧
      EachStep program emptyLedger P (step program emptyLedger w ev) evs))

/-- What holds at the start and is kept by every step that meets a condition holds after a run whose
steps all meet it. -/
theorem run_of_eachStep (hm : Meets program emptyLedger K Q E) {I : World σ C Res → Prop}
    {P : World σ C Res → Event σ C → World σ C Res → Prop}
    (hstep : ∀ w ev, Sound K Q E w → I w → P w ev (step program emptyLedger w ev) →
      I (step program emptyLedger w ev)) (events : List (Event σ C)) :
    ∀ w : World σ C Res, Sound K Q E w → I w → EachStep program emptyLedger P w events →
      I (run program emptyLedger w events) := by
  induction events with
  | nil => exact fun _ _ hI _ => hI
  | cons ev evs ih =>
    exact fun w hw hI hP => ih _ (sound_step hm hw ev) (hstep w ev hw hI hP.1) hP.2

/-- The call an event runs. -/
def Event.runs (w : World σ C Res) : Event σ C → Option ℕ
  | .start _ _ => some w.next
  | .resume p _ _ => if (w.pending p).isSome then some p else none
  | .pass _ => none

theorem exec_others {c : Coro σ Res} :
    ∀ (ds : List ℕ) (x : Snap σ C Res), (c.exec ds x).1.others = x.others := by
  induction c with
  | ret a => exact fun _ _ => rfl
  | throw e => exact fun _ _ => rfl
  | now k ih => exact fun ds x => ih _ ds.tail _
  | get k ih => exact fun ds x => ih _ _ ds x
  | put s l k ih => exact fun ds x => ih ds _
  | await q k ih => exact fun _ _ => rfl

/-- A step moves no other call. -/
theorem step_calls_of_ne {w : World σ C Res} {ev : Event σ C} {q : ℕ}
    (h : ev.runs w ≠ some q) :
    (step program emptyLedger w ev).cfg.calls q = w.cfg.calls q := by
  cases ev with
  | start command ds =>
    have hq : q ≠ w.next := fun he => h (congrArg some he.symm)
    simp only [step, World.update, Snap.cfg, Function.update_of_ne hq, exec_others]
    rfl
  | resume p reply ds =>
    simp only [step]
    cases hpd : w.pending p with
    | none => rfl
    | some pd =>
      cases hc : w.cfg.calls p with
      | none => rfl
      | some call =>
        have hq : q ≠ p := fun he => h (by simp [Event.runs, hpd, he])
        simp only [World.update, Snap.cfg, Function.update_of_ne hq, exec_others]
        rfl
  | pass d => rfl

theorem exec_clock {c : Coro σ Res} :
    ∀ (ds : List ℕ) (x : Snap σ C Res), x.clock ≤ (c.exec ds x).1.clock := by
  induction c with
  | ret a => exact fun _ _ => le_rfl
  | throw e => exact fun _ _ => le_rfl
  | now k ih =>
    intro ds x
    exact (Nat.le_add_right x.clock (ds.headD 0)).trans
      (ih (x.clock + ds.headD 0) ds.tail (x.tick (x.clock + ds.headD 0)))
  | get k ih => exact fun ds x => ih _ _ ds x
  | put s l k ih => exact fun ds x => ih ds (x.store s l)
  | await q k ih => exact fun _ _ => le_rfl

theorem exec_command {c : Coro σ Res} :
    ∀ (ds : List ℕ) (x : Snap σ C Res), (c.exec ds x).1.call.command = x.call.command := by
  induction c with
  | ret a => exact fun _ _ => rfl
  | throw e => exact fun _ _ => rfl
  | now k ih => exact fun ds x => ih _ ds.tail _
  | get k ih => exact fun ds x => ih _ _ ds x
  | put s l k ih => exact fun ds x => ih ds _
  | await q k ih => exact fun _ _ => rfl

theorem step_command {w : World σ C Res} (ev : Event σ C) {p : ℕ} {call call' : Call σ C Res}
    (hp : p < w.next) (h : w.cfg.calls p = some call)
    (h' : (step program emptyLedger w ev).cfg.calls p = some call') :
    call'.command = call.command := by
  by_cases hruns : ev.runs w = some p
  · cases ev with
    | start command ds =>
      have hp' : w.next = p := by simpa [Event.runs] using hruns
      omega
    | resume q reply ds =>
      simp only [Event.runs] at hruns
      cases hpd : w.pending q with
      | none => simp [hpd] at hruns
      | some pd =>
        obtain rfl : q = p := by simpa [hpd] using hruns
        simp only [step, hpd, h, World.update, Snap.cfg, Function.update_self, Option.some_inj] at h'
        rw [← h']
        exact exec_command ds _
    | pass d => cases hruns
  · rw [step_calls_of_ne hruns, h] at h'
    cases h'
    rfl

variable (program emptyLedger) in
theorem step_clock (w : World σ C Res) (ev : Event σ C) :
    w.cfg.clock ≤ (step program emptyLedger w ev).cfg.clock := by
  cases ev with
  | start command ds => exact exec_clock ds (w.cfg.enter _)
  | resume p reply ds =>
    simp only [step]
    cases w.pending p with
    | none => exact le_rfl
    | some pd =>
      cases w.cfg.calls p with
      | none => exact le_rfl
      | some call => exact exec_clock ds (w.cfg.enter call)
  | pass d => exact Nat.le_add_right _ _

theorem Sound.running_of_runs {w : World σ C Res} (hw : Sound K Q E w) {ev : Event σ C} {p : ℕ}
    (h : ev.runs w = some p) : ∀ call, w.cfg.calls p = some call → call.stage = .running := by
  intro call hcall
  cases ev with
  | start command ds =>
    cases h
    cases (hw.fresh _ le_rfl).symm.trans hcall
  | resume q reply ds =>
    simp only [Event.runs] at h
    cases hpd : w.pending q with
    | none => simp [hpd] at h
    | some pd =>
      obtain rfl : q = p := by simpa [hpd] using h
      obtain ⟨call', hc, hs, -⟩ := hw.ready q pd hpd
      cases hc.symm.trans hcall
      exact hs
  | pass d => cases h

/-- **Every step of a call guarantees what its contract says**, against the state it started
from. -/
theorem step_keeps (hm : Meets program emptyLedger K Q E) {w : World σ C Res}
    (hw : Sound K Q E w) {ev : Event σ C} {p : ℕ} (hp : ev.runs w = some p) :
    ∃ y : Snap σ C Res, y.entered = w.cfg.shared ∧ K.keeps y ∧
      (step program emptyLedger w ev).cfg.shared = y.shared ∧
      (step program emptyLedger w ev).cfg.clock = y.clock ∧
      ∃ call, (step program emptyLedger w ev).cfg.calls p = some call ∧
        y.call.command = call.command := by
  have segment : ∀ (c : Coro σ Res) (ds : List ℕ) (call : Call σ C Res),
      wp K p c (Q call.command p) (E call.command p) (w.cfg.enter call) →
      ∃ y : Snap σ C Res, y.entered = w.cfg.shared ∧ K.keeps y ∧
        (w.update p (c.exec ds (w.cfg.enter call))).cfg.shared = y.shared ∧
        (w.update p (c.exec ds (w.cfg.enter call))).cfg.clock = y.clock ∧
        ∃ call', (w.update p (c.exec ds (w.cfg.enter call))).cfg.calls p = some call' ∧
          y.call.command = call'.command := by
    intro c ds call h
    have hst := exec_spec ds _ h
    generalize c.exec ds (w.cfg.enter call) = r at hst ⊢
    cases hst with
    | returned a y hf hQ =>
      exact ⟨y, hf.entered, (hm.returned _ _ _ _ hQ).2, rfl, rfl, _, Function.update_self .., rfl⟩
    | threw e y hf hE =>
      exact ⟨y, hf.entered, (hm.threw _ _ _ _ hE).2, rfl, rfl, _, Function.update_self .., rfl⟩
    | awaits y pd hf hs hI hk =>
      exact ⟨y, hf.entered, hk, rfl, rfl, _, Function.update_self .., rfl⟩
  cases ev with
  | start command ds =>
    cases hp
    exact segment _ ds (freshCall emptyLedger command w.cfg.clock)
      (hm.start w.cfg w.next command (hw.fresh _ le_rfl) hw.inv)
  | resume q reply ds =>
    simp only [Event.runs] at hp
    cases hpd : w.pending q with
    | none => simp [hpd] at hp
    | some pd =>
      obtain rfl : q = p := by simpa [hpd] using hp
      obtain ⟨call, hc, -, hr⟩ := hw.ready q pd hpd
      obtain ⟨rq, k⟩ := pd
      simp only [step, hpd, hc]
      refine segment _ ds call (hr _ (fair_mapError (reply rq)) _ _ _ le_rfl ?_)
      have hself : Function.update w.cfg.calls q (some call) = w.cfg.calls :=
        Function.update_eq_self_iff.mpr hc.symm
      simpa only [Snap.cfg, hself] using hw.inv
  | pass d => cases hp

/-- **A call that ends in a step meets its postcondition there**, against the state the step
started from. -/
theorem step_ended (hm : Meets program emptyLedger K Q E) {w : World σ C Res}
    (hw : Sound K Q E w) {ev : Event σ C} {p : ℕ} {call : Call σ C Res}
    (hbefore : ∀ c, w.cfg.calls p = some c → c.stage = .running)
    (hcall : (step program emptyLedger w ev).cfg.calls p = some call)
    (hafter : call.stage ≠ .running) :
    ∃ y : Snap σ C Res, y.entered = w.cfg.shared ∧ y.others = w.cfg.calls ∧
      w.cfg.clock ≤ y.clock ∧ y.call.command = call.command ∧
      ((∃ a, (step program emptyLedger w ev).cfg = (y.returned a).cfg p ∧
          Q call.command p a y) ∨
        ∃ e, (step program emptyLedger w ev).cfg = (y.threw e).cfg p ∧
          E call.command p e y) := by
  -- One segment of `p` ran; the other calls did not move.
  have segment : ∀ (c : Coro σ Res) (ds : List ℕ) (call₀ : Call σ C Res) (q : ℕ),
      call₀.stage = .running ∨ q ≠ p →
      wp K q c (Q call₀.command q) (E call₀.command q) (w.cfg.enter call₀) →
      (w.update q (c.exec ds (w.cfg.enter call₀))).cfg.calls p = some call →
      ∃ y : Snap σ C Res, y.entered = w.cfg.shared ∧ y.others = w.cfg.calls ∧
        w.cfg.clock ≤ y.clock ∧ y.call.command = call.command ∧
        ((∃ a, (w.update q (c.exec ds (w.cfg.enter call₀))).cfg = (y.returned a).cfg p ∧
            Q call.command p a y) ∨
          ∃ e, (w.update q (c.exec ds (w.cfg.enter call₀))).cfg = (y.threw e).cfg p ∧
            E call.command p e y) := by
    intro c ds call₀ q hq h hc
    have hst := exec_spec ds _ h
    generalize c.exec ds (w.cfg.enter call₀) = r at hst hc ⊢
    by_cases hqp : q = p
    · subst hqp
      have hself : r.1.call = call := by
        simpa [World.update, Snap.cfg] using hc
      cases hst with
      | returned a y hf hQ =>
        have hcmd : y.call.command = call.command := hself ▸ rfl
        exact ⟨y, hf.entered, hf.others, hf.clock, hcmd,
          .inl ⟨a, rfl, by rw [← hcmd, hf.command]; exact hQ⟩⟩
      | threw e y hf hE =>
        have hcmd : y.call.command = call.command := hself ▸ rfl
        exact ⟨y, hf.entered, hf.others, hf.clock, hcmd,
          .inr ⟨e, rfl, by rw [← hcmd, hf.command]; exact hE⟩⟩
      | awaits y pd hf hs =>
        rcases hq with hq | hq
        · exact absurd (hself ▸ hs.trans hq) hafter
        · exact absurd rfl hq
    · have hf : r.1.others = w.cfg.calls := by
        cases hst with
        | returned a y hf => exact hf.others
        | threw e y hf => exact hf.others
        | awaits y pd hf => exact hf.others
      have hpc : w.cfg.calls p = some call := by
        simpa [World.update, Snap.cfg, Function.update_of_ne (Ne.symm hqp), hf] using hc
      exact absurd (hbefore call hpc) hafter
  cases ev with
  | start command ds =>
    exact segment _ ds (freshCall emptyLedger command w.cfg.clock) w.next (.inl rfl)
      (hm.start w.cfg w.next command (hw.fresh _ le_rfl) hw.inv) hcall
  | resume q reply ds =>
    simp only [step] at hcall ⊢
    cases hpd : w.pending q with
    | none =>
      simp only [hpd] at hcall
      exact absurd (hbefore call hcall) hafter
    | some pd =>
      obtain ⟨call₀, hc, -, hr⟩ := hw.ready q pd hpd
      obtain ⟨rq, k⟩ := pd
      simp only [hpd, hc] at hcall ⊢
      refine segment _ ds call₀ q ?_ (hr _ (fair_mapError (reply rq)) _ _ _ le_rfl ?_) hcall
      · by_cases hqp : q = p
        · exact .inl (hbefore call₀ (hqp ▸ hc))
        · exact .inr hqp
      · have hself : Function.update w.cfg.calls q (some call₀) = w.cfg.calls :=
          Function.update_eq_self_iff.mpr hc.symm
        simpa only [Snap.cfg, hself] using hw.inv
  | pass d => exact absurd (hbefore call hcall) hafter

/-! ## Where calls come from -/

theorem exec_startedAt {c : Coro σ Res} :
    ∀ (ds : List ℕ) (x : Snap σ C Res), (c.exec ds x).1.call.startedAt = x.call.startedAt := by
  induction c with
  | ret a => exact fun _ _ => rfl
  | throw e => exact fun _ _ => rfl
  | now k ih => exact fun ds x => ih _ ds.tail _
  | get k ih => exact fun ds x => ih _ _ ds x
  | put s l k ih => exact fun ds x => ih ds _
  | await q k ih => exact fun _ _ => rfl

/-- A call has just started, or it goes on with its command and its start. -/
theorem step_started {w : World σ C Res} {ev : Event σ C} {p : ℕ} {call' : Call σ C Res}
    (h : (step program emptyLedger w ev).cfg.calls p = some call') :
    (∃ call, w.cfg.calls p = some call ∧ call'.command = call.command ∧
        call'.startedAt = call.startedAt) ∨
      ∃ ds, ev = .start call'.command ds ∧ call'.startedAt = w.cfg.clock := by
  by_cases hruns : ev.runs w = some p
  · cases ev with
    | start command ds =>
      obtain rfl : w.next = p := by simpa [Event.runs] using hruns
      simp only [step, World.update, Snap.cfg, Function.update_self, Option.some_inj] at h
      rw [← h]
      exact .inr ⟨ds, by rw [exec_command]; rfl, exec_startedAt ds _⟩
    | resume q reply ds =>
      simp only [Event.runs] at hruns
      cases hpd : w.pending q with
      | none => simp [hpd] at hruns
      | some pd =>
        obtain rfl : q = p := by simpa [hpd] using hruns
        cases hcall : w.cfg.calls q with
        | none =>
          simp only [step, hpd, hcall] at h
          cases h
        | some call =>
          simp only [step, hpd, hcall, World.update, Snap.cfg, Function.update_self,
            Option.some_inj] at h
          rw [← h]
          exact .inl ⟨call, rfl, exec_command ds _, exec_startedAt ds _⟩
    | pass d => cases hruns
  · rw [step_calls_of_ne hruns] at h
    exact .inl ⟨call', h, rfl, rfl⟩

end Runs

end Coroutine
