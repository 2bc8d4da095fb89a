import XChainEncoder.InstanceLockBreaking

/-!
# Steps of the instance lock

* `wp_acquirePass`, `wp_acquirePasses`, `wp_lockReleaser`, `wp_hold`: a process acquires and releases;
* `wp_begin`, `wp_crash`, `wp_serve`: its start, its crash and its whole run;
* `lock_meets`: **every process keeps the invariant at every filesystem call**.
-/

namespace XChain.InstanceLock

open Coroutine

variable {format : LockFormat}
  {p : ℕ} {me : LockRecord} {l l' : Proc} {x : Snap lockSig LockCommand Unit} {α : Type}

section Steps

variable {Q : Unit → Snap lockSig LockCommand Unit → Prop}

/-! ## Acquiring and releasing -/

/-- How an acquisition ends: with the record published, or not published. -/
def AcquiredOr (result : Except LockError Unit) (l : Proc) : Prop :=
  ∃ l', Between l' ∧ ((result = .ok () ∧ l = { l' with stage := .published }) ∨
    ((∃ e, result = .error e) ∧ l = l'))

theorem wp_acquirePass {again : Prog (Except LockError Unit)} (h : At format p me l x)
    (hl : Between l) {Q : Except LockError Unit → Snap lockSig LockCommand Unit → Prop}
    (hQ : ∀ result l' y, AcquiredOr result l' → At format p me l' y → Q result y)
    (hagain : ∀ l' y, Between l' → At format p me l' y →
      wp (lockContract format) p again Q (Gone format p) y) :
    wp (lockContract format) p (acquirePass format me again) Q (Gone format p) x := by
  have herror : ∀ e l' y, Between l' → At format p me l' y → Q (.error e) y :=
    fun e l' y hl' hy => hQ _ l' y ⟨l', hl', .inr ⟨⟨e, rfl⟩, rfl⟩⟩ hy
  refine (wp_bind x).mpr (wp_publishLock h hl (fun y hy => ?_) fun e y hy => ?_)
  · exact hQ _ _ y ⟨l, hl, .inl ⟨rfl, rfl⟩⟩ hy
  · cases e with
    | eexist =>
      refine (wp_bind y).mpr (wp_readLockHolderSettled _ hy hl fun seen z hz => ?_)
      refine (wp_bind z).mpr (wp_judge hz hl (fun u hu => ?_) fun pid u hu =>
        herror _ _ u (hl.read seen) hu)
      have hl' : Between { l with seen := seen, stale := true } :=
        ⟨hl.inMutex, hl.stage, hl.verified, hl.tmp, hl.holding⟩
      refine (wp_bind u).mpr (wp_breakStaleLock hu hl' rfl fun result v hv => ?_)
      cases result with
      | error e => exact herror e _ v hl' hv
      | ok _ => exact hagain _ v hl' hv
    | mutexBusy => exact herror _ _ y hl hy
    | heldBy pid => exact herror _ _ y hl hy
    | retaken => exact herror _ _ y hl hy

theorem wp_acquirePasses (passes : ℕ) (h : At format p me l x) (hl : Between l)
    {Q : Except LockError Unit → Snap lockSig LockCommand Unit → Prop}
    (hQ : ∀ result l' y, AcquiredOr result l' → At format p me l' y → Q result y) :
    wp (lockContract format) p (acquirePasses format me passes) Q (Gone format p) x := by
  induction passes generalizing l x with
  | zero =>
    exact wp_acquirePass h hl hQ fun l' y hl' hy => hQ _ l' y ⟨l', hl', .inr ⟨⟨_, rfl⟩, rfl⟩⟩ hy
  | succ passes ih => exact wp_acquirePass h hl hQ fun l' y hl' hy => ih hy hl'

/-- **A release takes the process's own lock away.** -/
theorem wp_lockReleaser (h : At format p me l x) (hl : l.stage = .published)
    (hverified : l.verified = false) (hQ : ∀ l' y, At format p me l' y → Q () y) :
    wp (lockContract format) p (lockReleaser format me) Q (Gone format p) x := by
  refine (wp_bind x).mpr (wp_look h fun _ y hy hlive => ?_)
  have htoken : (format.reading (y.shared.lock.map Entry.text)).token = some me.token := by
    rw [hy.proc.published hl hlive]
    show (format.read (format.stringify me)).token = _
    rw [format.read_stringify]
    exact if_neg (hy.host.started _ _ hy.proc.started).2.2.1
  rw [if_pos htoken]
  refine wp_syscall hy fun _ z hz hlive' => ?_
  have hproc := hz.proc
  have hlock := hproc.published hl hlive'
  dsimp only
  rw [hlock]
  have hleaves : Leaves me.pid z.shared { z.shared with
      lock := none
      removals := z.shared.removals ++ [⟨me.pid, ⟨format.stringify me, some me.pid⟩, .released⟩] } :=
    { Leaves.refl me.pid z.shared with
      lock := fun e he hne => by
        cases hlock.symm.trans he
        exact absurd rfl hne
      new := nofun
      under := .inl rfl }
  refine hQ _ _ (hz.store_leaves hleaves (fun m hm => ⟨m, hm, rfl⟩) nofun (fun rm hrm => ?_) ?_ hz.me)
  · rcases List.mem_append.mp hrm with hold | hnew
    · exact .inl hold
    · obtain rfl := List.mem_singleton.mp hnew
      exact .inr rfl
  · exact
      { hproc with
        seen := hproc.seen_leaves hleaves
        writing := nofun
        published := nofun
        idle := fun _ _ he => by cases he
        verified := fun hv => by cases hverified.symm.trans hv
        holding := nofun }

theorem wp_hold (h : At format p me { l with stage := .published } x) (hl : Between l)
    (hQ : ∀ l' y, At format p me l' y → Q () y) :
    wp (lockContract format) p (hold format me) Q (Gone format p) x := by
  show wp _ p (lockReleaser format me) Q _ (x.store x.shared { x.call.ledger with holding := true })
  rw [h.ledger]
  have hproc := h.proc
  have hat : At format p me { l with stage := .published, holding := true }
      (x.store x.shared { l with stage := .published, holding := true }) := h.note
    { hproc with
      verified := fun hv => by cases hl.verified.symm.trans hv
      holding := fun _ => rfl } h.me
  exact wp_lockReleaser hat rfl hl.verified hQ

end Steps

/-! ## Whole processes -/

theorem LockInv.finish (h : LockInv format (x.cfg p)) (st : Stage lockSig Unit) :
    LockInv format ((x.finish st).cfg p) := by
  have hcalls : ∀ q call, ((x.finish st).cfg p).calls q = some call →
      ∃ call', (x.cfg p).calls q = some call' ∧ call'.ledger = call.ledger := by
    intro q call hcall
    by_cases hq : q = p
    · subst hq
      cases ((x.finish st).cfg_self q).symm.trans hcall
      exact ⟨x.call, x.cfg_self q, rfl⟩
    · rw [calls_cfg_of_ne hq] at hcall
      exact ⟨call, (calls_cfg_of_ne hq).trans hcall, rfl⟩
  refine ⟨h.host, fun q call r hcall hr => ?_, fun q call hcall hnone => ?_,
    fun q q' c c' r r' hc hc' hr hr' he => ?_⟩
  · obtain ⟨call', hcall', hledger⟩ := hcalls q call hcall
    rw [← hledger] at hr ⊢
    exact h.proc q call' r hcall' hr
  · obtain ⟨call', hcall', hledger⟩ := hcalls q call hcall
    rw [← hledger] at hnone ⊢
    exact h.fresh q call' hcall' hnone
  · obtain ⟨d, hd, hledger⟩ := hcalls q c hc
    obtain ⟨d', hd', hledger'⟩ := hcalls q' c' hc'
    rw [← hledger] at hr
    rw [← hledger'] at hr'
    exact h.unique q q' d d' r r' hd hd' hr hr' he

theorem LockInv.enter {g : LockCfg} (h : LockInv format g) (hp : g.calls p = none)
    {command : LockCommand} :
    LockInv format ((g.enter (freshCall .new command g.clock)).cfg p) := by
  set y := g.enter (freshCall Proc.new command g.clock) with hy
  have hcalls : ∀ q call r, (y.cfg p).calls q = some call → call.ledger.me = some r →
      g.calls q = some call := by
    intro q call r hcall hr
    by_cases hq : q = p
    · subst hq
      cases (y.cfg_self q).symm.trans hcall
      cases hr
    · rwa [calls_cfg_of_ne hq] at hcall
  refine ⟨h.host, fun q call r hcall hr => h.proc q call r (hcalls q call r hcall hr) hr,
    fun q call hcall hnone => ?_, fun q q' c c' r r' hc hc' hr hr' he =>
      h.unique q q' c c' r r' (hcalls q c r hc hr) (hcalls q' c' r' hc' hr') hr hr' he⟩
  by_cases hq : q = p
  · subst hq
    cases (y.cfg_self q).symm.trans hcall
    rfl
  · rw [calls_cfg_of_ne hq] at hcall
    exact h.fresh q call hcall hnone

theorem Stale.begins {s : Host} {e : Entry} (hhost : HostOk format s) (hpid : s.started me.pid = none)
    (hinitial : s.initial ≠ some (format.stringify me)) (hseen : SeenOk format s e)
    (h : Stale format s e) :
    Stale format { s with started := Function.update s.started me.pid (some me) } e := by
  intro r hr htext
  by_cases hne : r.pid = me.pid
  · exfalso
    have hupdate : Function.update s.started me.pid (some me) r.pid = some r := hr
    rw [hne, Function.update_self] at hupdate
    cases hupdate
    cases ha : e.author with
    | none => exact hinitial (htext ▸ hseen.foreign ha)
    | some a =>
      obtain ⟨r', hr', hpre⟩ := hseen.own a ha
      rw [htext] at hpre
      obtain rfl := format.prefix_free _ _ hpre
      rw [(hhost.started a _ hr').1] at hpid
      cases hpid.symm.trans hr'
  · exact h r ((Function.update_of_ne hne (some me) s.started).symm.trans hr) htext

/-- A process has started. -/
theorem wp_begin (h : LockInv format (x.cfg p)) (hnew : x.call.ledger = .new)
    {Q : Unit → Snap lockSig LockCommand Unit → Prop}
    (hQ : ∀ y, At format p me { Proc.new with me := some me } y → Q () y) :
    wp (lockContract format) p (begin_ format me) Q (Gone format p) x := by
  show wp _ p (if _ then _ else _) Q _ x
  split_ifs with hrefuse
  · exact h
  · obtain ⟨hpid, hpos, htoken, hinitial⟩ : x.shared.started me.pid = none ∧ me.pid ≠ 0 ∧
        me.token ≠ [] ∧ x.shared.initial ≠ some (format.stringify me) := by
      simpa [not_or, and_assoc] using hrefuse
    have hkeep : ∀ {a r}, x.shared.started a = some r →
        Function.update x.shared.started me.pid (some me) a = some r := by
      intro a r hr
      rw [Function.update_of_ne]
      · exact hr
      · rintro rfl
        cases hpid.symm.trans hr
    have hseen : ∀ {e}, SeenOk format x.shared e → SeenOk format { x.shared with
        started := Function.update x.shared.started me.pid (some me) } e :=
      fun hs => ⟨hs.foreign, fun a ha => (hs.own a ha).imp fun r hr => ⟨hkeep hr.1, hr.2⟩, hs.since⟩
    have hothers : ∀ {r d}, ProcOk format x.shared r d → ProcOk format { x.shared with
        started := Function.update x.shared.started me.pid (some me) } r d := fun {r d} hd =>
      { hd with
        started := hkeep hd.started
        seen := fun e he => ⟨hseen (hd.seen e he).1, (hd.seen e he).2⟩
        stale := fun hs e he => (hd.stale hs e he).begins h.host hpid hinitial (hd.seen e he).1 }
    refine hQ _ ⟨h.store ?_ (by simp) (fun r hr => ?_) fun q call r hq hcall hr => ?_,
      by rw [← hnew]; rfl, rfl⟩
    · refine ⟨fun e he => ?_, fun a r hr => ?_, h.host.removals⟩
      · obtain ⟨hforeign, hown⟩ := h.host.lock e he
        exact ⟨hforeign, fun a ha => (hown a ha).imp fun r hr => ⟨hkeep hr.1, hr.2⟩⟩
      · have hr' : Function.update x.shared.started me.pid (some me) a = some r := hr
        by_cases ha : a = me.pid
        · rw [ha, Function.update_self] at hr'
          cases hr'
          exact ⟨ha.symm, by omega, htoken, hinitial⟩
        · rw [Function.update_of_ne ha] at hr'
          exact h.host.started a r hr'
    · rw [hnew]
      obtain rfl : me = r := Option.some.inj hr
      refine ⟨Function.update_self _ _ _, nofun, nofun, nofun, fun _ e he ha => ?_, nofun, nofun,
        nofun, nofun, nofun⟩
      -- A lock of this pid would be a process's that has started.
      obtain ⟨r, hr, -⟩ := (h.host.lock e he).own _ ha
      cases hpid.symm.trans hr
    · rw [← calls_cfg_of_ne (x := x) hq] at hcall
      have hproc := h.proc q call r hcall hr
      refine ⟨hothers hproc, fun r' hr' he => ?_⟩
      obtain rfl : me = r' := Option.some.inj hr'
      rw [← he] at hpid
      cases hpid.symm.trans hproc.started

theorem wp_crash {pid : ℕ} (h : LockInv format (x.cfg p)) (hnew : x.call.ledger = .new)
    {Q : Unit → Snap lockSig LockCommand Unit → Prop}
    (hQ : ∀ y, LockInv format (y.cfg p) → Q () y) :
    wp (lockContract format) p (crash pid) Q (Gone format p) x := by
  have hstill : ∀ a, Function.update x.shared.crashed pid true a = false → x.shared.crashed a = false := by
    intro a ha
    by_cases hpid : a = pid
    · subst hpid
      rw [Function.update_self] at ha
      cases ha
    · rwa [Function.update_of_ne hpid] at ha
  refine hQ (x.store { x.shared with crashed := Function.update x.shared.crashed pid true }
    x.call.ledger) (h.store ?_ (fun _ => hnew) (fun r hr => ?_) fun q call r hq hcall hr => ?_)
  · exact ⟨fun e he => ⟨(h.host.lock e he).foreign, (h.host.lock e he).own⟩, h.host.started,
      h.host.removals⟩
  · rw [hnew] at hr
    cases hr
  · rw [← calls_cfg_of_ne (x := x) hq] at hcall
    have hproc := h.proc q call r hcall hr
    refine ⟨{ hproc with
      published := fun hp hlive => hproc.published hp (hstill _ hlive)
      seen := fun e he => ⟨⟨(hproc.seen e he).1.foreign, (hproc.seen e he).1.own,
        (hproc.seen e he).1.since⟩, (hproc.seen e he).2⟩
      stale := fun hs e he r' hr' htext => ?_ }, fun r' hr' => ?_⟩
    · by_contra hlive
      have hlive' := hstill r'.pid (eq_false_of_ne_true hlive)
      cases hlive'.symm.trans (hproc.stale hs e he r' hr' htext)
    · rw [hnew] at hr'
      cases hr'

/-- How a process ends. -/
def Over (format : LockFormat) (_ : LockCommand) (p : ℕ) (_ : Unit)
    (y : Snap lockSig LockCommand Unit) : Prop :=
  LockInv format (y.cfg p)

theorem wp_serve (h : LockInv format (x.cfg p)) (hnew : x.call.ledger = .new) :
    wp (lockContract format) p (serve format me) (Over format (.serve me) p) (Gone format p) x := by
  refine (wp_bind x).mpr (wp_begin h hnew fun y hy => (wp_bind y).mpr ?_)
  refine wp_acquirePasses _ hy ⟨rfl, rfl, rfl, rfl, rfl⟩ fun result l' z hres hz => ?_
  obtain ⟨l'', hl'', ⟨rfl, rfl⟩ | ⟨⟨e, rfl⟩, rfl⟩⟩ := hres
  · exact wp_hold hz hl'' fun _ u hu => hu.inv
  · exact hz.inv

theorem wp_lockProgram (h : LockInv format (x.cfg p)) (hnew : x.call.ledger = .new)
    (command : LockCommand) :
    wp (lockContract format) p (lockProgram format command) (Over format command p) (Gone format p)
      x := by
  cases command with
  | serve me => exact wp_serve h hnew
  | crash pid => exact wp_crash h hnew fun y hy => hy

/-- **Every process keeps the invariant at every filesystem call.** -/
theorem lock_meets (format : LockFormat) : Meets (lockProgram format) Proc.new (lockContract format)
    (Over format) (fun _ => Gone format) where
  pass _ _ _ h := ⟨h.host, h.proc, h.fresh, h.unique⟩
  start _ _ command hp h := wp_lockProgram (LockInv.enter h hp) rfl command
  returned _ _ _ _ h := ⟨LockInv.finish h _, trivial⟩
  threw _ _ _ _ h := ⟨LockInv.finish h _, trivial⟩

theorem HostOk.before (format : LockFormat) (lock mutex : Option Text) (tmp : ℕ → Option Text) :
    HostOk format (Host.before lock mutex tmp) where
  lock e he := by
    obtain ⟨text, htext, rfl⟩ := Option.map_eq_some_iff.mp he
    exact ⟨fun _ => htext, fun a ha => by cases ha⟩
  started a r hr := by cases hr
  removals rm hrm := by cases hrm

theorem LockInv.init (format : LockFormat) (lock mutex : Option Text) (tmp : ℕ → Option Text) :
    LockInv format ⟨0, Host.before lock mutex tmp, fun _ => none⟩ where
  host := .before format lock mutex tmp
  proc p call r hcall := by cases hcall
  fresh p call hcall := by cases hcall
  unique p q call call' r r' hcall := by cases hcall

end XChain.InstanceLock
