import XChainEncoder.InstanceLock

/-!
# The invariant of the instance lock

* `HostOk`, `ProcOk`: what the host's files say, and what a process knows of them;
* `LockInv`: both, for every process, with pids of their own;
* `At.store`: a call that keeps the other processes' knowledge;
* `Leaves`, `At.store_leaves`: what one call leaves alone;
* `wp_syscall`, `wp_look`: one filesystem call.
-/

namespace XChain.InstanceLock

open Coroutine

variable {format : LockFormat}

/-! ## The invariant -/

/-- The lock is what it was before, or a started process is writing it, under the mutex, or has
written it. -/
structure EntryOk (format : LockFormat) (s : Host) (e : Entry) : Prop where
  foreign : e.author = none → s.initial = some e.text
  own : ∀ a, e.author = some a → ∃ r, s.started a = some r ∧ e.text <+: format.stringify r ∧
    (e.text = format.stringify r ∨ ∃ m, s.mutex = some m ∧ m.author = some a)

/-- An unlink took away the remover's own lock, or the one it had judged. -/
def RemovalOk (rm : Removal) : Prop :=
  match rm.cause with
  | .released => rm.entry.author = some rm.pid
  | .broke judged => judged = some rm.entry

structure HostOk (format : LockFormat) (s : Host) : Prop where
  lock : ∀ e, s.lock = some e → EntryOk format s e
  started : ∀ a r, s.started a = some r → r.pid = a ∧ 0 < a ∧ r.token ≠ [] ∧
    s.initial ≠ some (format.stringify r)
  removals : ∀ rm ∈ s.removals, RemovalOk rm

/-- A lock that was read: what is known of it later. -/
structure SeenOk (format : LockFormat) (s : Host) (e : Entry) : Prop where
  foreign : e.author = none → s.initial = some e.text
  own : ∀ a, e.author = some a → ∃ r, s.started a = some r ∧ e.text <+: format.stringify r
  since : e.author ≠ none → ∀ e', s.lock = some e' → e'.author ≠ none

/-- A lock is stale for good: no process that has started and not crashed has written its text. -/
def Stale (format : LockFormat) (s : Host) (e : Entry) : Prop :=
  ∀ r, s.started r.pid = some r → e.text = format.stringify r → s.crashed r.pid = true

/-- What process `r` knows. -/
structure ProcOk (format : LockFormat) (s : Host) (r : LockRecord) (l : Proc) : Prop where
  started : s.started r.pid = some r
  inMutex : ∀ t, l.inMutex = some t → s.mutex = some ⟨t, some r.pid⟩
  writing : ∀ t, l.stage = .writing t →
    l.inMutex.isSome = true ∧ s.lock = some ⟨t, some r.pid⟩ ∧ t <+: format.stringify r
  published : l.stage = .published → s.crashed r.pid = false →
    s.lock = some ⟨format.stringify r, some r.pid⟩
  idle : l.stage = .idle ∨ l.stage = .released → ∀ e, s.lock = some e → e.author ≠ some r.pid
  seen : ∀ e, l.seen = some e → SeenOk format s e ∧ e.author ≠ some r.pid
  stale : l.stale = true → ∀ e, l.seen = some e → Stale format s e
  verified : l.verified = true → l.inMutex.isSome = true ∧ l.stale = true ∧ l.stage = .idle ∧
    ∃ e, l.seen = some e ∧ (s.lock = none ∨ s.lock = some e)
  tmp : ∀ t, l.tmp = some t → s.tmp r.pid = some t
  holding : l.holding = true → l.stage = .published

/-- The invariant: the host is sound, every process that has started knows what it knows, and no two
processes have one pid. -/
structure LockInv (format : LockFormat) (g : LockCfg) : Prop where
  host : HostOk format g.shared
  proc : ∀ p call r, g.calls p = some call → call.ledger.me = some r →
    ProcOk format g.shared r call.ledger
  fresh : ∀ p call, g.calls p = some call → call.ledger.me = none → call.ledger = .new
  unique : ∀ p q call call' r r', g.calls p = some call → g.calls q = some call' →
    call.ledger.me = some r → call'.ledger.me = some r' → r.pid = r'.pid → p = q

def lockContract (format : LockFormat) : Contract lockSig LockCommand Unit where
  inv := LockInv format
  keeps _ := True
  keeps_enter _ _ := trivial

variable {p : ℕ} {me : LockRecord} {l l' : Proc} {x : Snap lockSig LockCommand Unit} {α : Type}

/-- A running process with ledger `l`. -/
structure At (format : LockFormat) (p : ℕ) (me : LockRecord) (l : Proc)
    (x : Snap lockSig LockCommand Unit) : Prop where
  inv : LockInv format (x.cfg p)
  ledger : x.call.ledger = l
  me : l.me = some me

theorem At.proc (h : At format p me l x) : ProcOk format x.shared me l := by
  have := h.inv.proc p x.call me (x.cfg_self p) (h.ledger ▸ h.me)
  rwa [h.ledger] at this

theorem At.host (h : At format p me l x) : HostOk format x.shared := h.inv.host

theorem calls_cfg_of_ne {q : ℕ} (hq : q ≠ p) : (x.cfg p).calls q = x.others q :=
  Function.update_of_ne hq _ _

theorem At.other (h : At format p me l x) {q : ℕ} (hq : q ≠ p) {call : LockCall}
    (hcall : x.others q = some call) {r : LockRecord} (hr : call.ledger.me = some r) :
    ProcOk format x.shared r call.ledger ∧ r.pid ≠ me.pid := by
  rw [← calls_cfg_of_ne (x := x) hq] at hcall
  refine ⟨h.inv.proc q call r hcall hr, fun he => hq ?_⟩
  exact h.inv.unique q p call x.call r me hcall (x.cfg_self p) hr (h.ledger ▸ h.me) he

theorem LockInv.store (h : LockInv format (x.cfg p)) {s : Host} (hhost : HostOk format s)
    (hnew : l'.me = none → l' = .new) (hown : ∀ r, l'.me = some r → ProcOk format s r l')
    (hothers : ∀ q call r, q ≠ p → x.others q = some call → call.ledger.me = some r →
      ProcOk format s r call.ledger ∧ ∀ r', l'.me = some r' → r.pid ≠ r'.pid) :
    LockInv format ((x.store s l').cfg p) where
  host := hhost
  proc := by
    intro q call r hcall hr
    by_cases hq : q = p
    · subst hq
      cases ((x.store s l').cfg_self q).symm.trans hcall
      exact hown r hr
    · rw [calls_cfg_of_ne hq] at hcall
      exact (hothers q call r hq hcall hr).1
  fresh := by
    intro q call hcall hnone
    by_cases hq : q = p
    · subst hq
      cases ((x.store s l').cfg_self q).symm.trans hcall
      exact hnew hnone
    · rw [calls_cfg_of_ne hq] at hcall
      exact h.fresh q call ((calls_cfg_of_ne hq).trans hcall) hnone
  unique := by
    intro q q' call call' r r' hcall hcall' hr hr' he
    by_cases hq : q = p <;> by_cases hq' : q' = p
    · exact hq.trans hq'.symm
    · subst hq
      cases ((x.store s l').cfg_self q).symm.trans hcall
      rw [calls_cfg_of_ne hq'] at hcall'
      exact absurd he.symm ((hothers q' call' r' hq' hcall' hr').2 r hr)
    · subst hq'
      cases ((x.store s l').cfg_self q').symm.trans hcall'
      rw [calls_cfg_of_ne hq] at hcall
      exact absurd he ((hothers q call r hq hcall hr).2 r' hr')
    · rw [calls_cfg_of_ne hq] at hcall
      rw [calls_cfg_of_ne hq'] at hcall'
      exact h.unique q q' call call' r r' ((calls_cfg_of_ne hq).trans hcall)
        ((calls_cfg_of_ne hq').trans hcall') hr hr' he

/-- A write of a process that has begun. -/
theorem At.store (h : At format p me l x) {s : Host} (hhost : HostOk format s)
    (hown : ProcOk format s me l') (hme : l'.me = some me)
    (hothers : ∀ r d, r.pid ≠ me.pid → ProcOk format x.shared r d → ProcOk format s r d) :
    At format p me l' (x.store s l') where
  ledger := rfl
  me := hme
  inv := h.inv.store hhost (fun hnone => by cases hnone.symm.trans hme)
    (fun r hr => by
      cases hr.symm.trans hme
      exact hown)
    fun q call r hq hcall hr => by
      obtain ⟨hproc, hne⟩ := h.other hq hcall hr
      refine ⟨hothers r _ hne hproc, fun r' hr' => ?_⟩
      cases hr'.symm.trans hme
      exact hne

/-! ## What one call leaves alone -/

/-- Process `c` took the host from `s` to `s'` and left the other processes' files alone: a lock that
is new or written to is its own, made under its mutex. -/
structure Leaves (c : ℕ) (s s' : Host) : Prop where
  started : s'.started = s.started
  crashed : s'.crashed = s.crashed
  initial : s'.initial = s.initial
  tmp : ∀ a ≠ c, s'.tmp a = s.tmp a
  mutex : ∀ t a, a ≠ c → s.mutex = some ⟨t, some a⟩ → s'.mutex = some ⟨t, some a⟩
  lock : ∀ e, s.lock = some e → e.author ≠ some c → s'.lock = some e
  new : ∀ e, s'.lock = some e → s.lock = some e ∨ e.author = some c
  under : s'.lock = none ∨ s'.lock = s.lock ∨ ∃ t, s.mutex = some ⟨t, some c⟩

theorem SeenOk.leaves {s s' : Host} {c : ℕ} (hl : Leaves c s s') {e : Entry}
    (h : SeenOk format s e) : SeenOk format s' e where
  foreign := by
    rw [hl.initial]
    exact h.foreign
  own := by
    rw [hl.started]
    exact h.own
  since := fun he e' he' => by
    rcases hl.new e' he' with hold | hnew
    · exact h.since he e' hold
    · rw [hnew]
      nofun

theorem Stale.leaves {s s' : Host} {c : ℕ} (hl : Leaves c s s') {e : Entry}
    (h : Stale format s e) : Stale format s' e := by
  intro r
  rw [hl.started, hl.crashed]
  exact h r

/-- What a process knows of the lock it read stays true under its own calls too. -/
theorem ProcOk.seen_leaves {s s' : Host} {r : LockRecord} {d : Proc} {c : ℕ} (h : ProcOk format s r d)
    (hl : Leaves c s s') : ∀ e, d.seen = some e → SeenOk format s' e ∧ e.author ≠ some r.pid :=
  fun e he => ⟨(h.seen e he).1.leaves hl, (h.seen e he).2⟩

theorem mutex_author {s : Host} {t t' : Text} {a b : ℕ} (h : s.mutex = some ⟨t, some a⟩)
    (h' : s.mutex = some ⟨t', some b⟩) : a = b := by
  cases h.symm.trans h'
  rfl

theorem ProcOk.leaves {s s' : Host} {r : LockRecord} {d : Proc} {c : ℕ} (hl : Leaves c s s')
    (hne : r.pid ≠ c) (h : ProcOk format s r d) : ProcOk format s' r d where
  started := by
    rw [hl.started]
    exact h.started
  inMutex := fun t ht => hl.mutex t r.pid hne (h.inMutex t ht)
  writing := fun t ht => by
    obtain ⟨hm, hlock, hpre⟩ := h.writing t ht
    exact ⟨hm, hl.lock _ hlock fun he => hne (Option.some.inj he), hpre⟩
  published := fun hp hlive => by
    rw [hl.crashed] at hlive
    exact hl.lock _ (h.published hp hlive) fun he => hne (Option.some.inj he)
  idle := fun hi e he => by
    rcases hl.new e he with hold | hnew
    · exact h.idle hi e hold
    · rw [hnew]
      exact fun he => hne (Option.some.inj he).symm
  seen := fun e he => ⟨(h.seen e he).1.leaves hl, (h.seen e he).2⟩
  stale := fun hs e he => (h.stale hs e he).leaves hl
  verified := fun hv => by
    obtain ⟨hm, hs, hi, e, he, hlock⟩ := h.verified hv
    refine ⟨hm, hs, hi, e, he, ?_⟩
    rcases hl.under with hnone | hsame | ⟨t, ht⟩
    · exact .inl hnone
    · rw [hsame]
      exact hlock
    · obtain ⟨t', ht'⟩ := Option.isSome_iff_exists.mp hm
      exact absurd (mutex_author (h.inMutex t' ht') ht) hne
  tmp := fun t ht => by
    rw [hl.tmp r.pid hne]
    exact h.tmp t ht
  holding := h.holding

/-- The host stays sound when a new lock is and the mutex keeps its owner. -/
theorem HostOk.leaves {s s' : Host} {c : ℕ} (hl : Leaves c s s') (h : HostOk format s)
    (hmutex : ∀ m, s.mutex = some m → ∃ m', s'.mutex = some m' ∧ m'.author = m.author)
    (hnew : ∀ e, s'.lock = some e → s.lock = some e ∨ EntryOk format s' e)
    (hremovals : ∀ rm ∈ s'.removals, rm ∈ s.removals ∨ RemovalOk rm) : HostOk format s' where
  lock := fun e he => by
    rcases hnew e he with hold | hok
    · obtain ⟨hforeign, hown⟩ := h.lock e hold
      refine ⟨by rw [hl.initial]; exact hforeign, fun a ha => ?_⟩
      obtain ⟨r, hr, hpre, hfull⟩ := hown a ha
      refine ⟨r, by rw [hl.started]; exact hr, hpre, hfull.imp_right ?_⟩
      rintro ⟨m, hm, hma⟩
      obtain ⟨m', hm', hsame⟩ := hmutex m hm
      exact ⟨m', hm', hsame.trans hma⟩
    · exact hok
  started := by
    rw [hl.started, hl.initial]
    exact h.started
  removals := fun rm hrm => (hremovals rm hrm).elim (h.removals rm) id

/-- A host that keeps its lock and the processes is sound as long as the mutex keeps its owner. -/
theorem At.store_leaves (h : At format p me l x) {s : Host} (hl : Leaves me.pid x.shared s)
    (hmutex : ∀ m, x.shared.mutex = some m → ∃ m', s.mutex = some m' ∧ m'.author = m.author)
    (hnew : ∀ e, s.lock = some e → x.shared.lock = some e ∨ EntryOk format s e)
    (hremovals : ∀ rm ∈ s.removals, rm ∈ x.shared.removals ∨ RemovalOk rm)
    (hown : ProcOk format s me l') (hme : l'.me = some me) : At format p me l' (x.store s l') :=
  h.store (h.host.leaves hl hmutex hnew hremovals) hown hme fun _ _ hne hd => hd.leaves hl hne

theorem Leaves.refl (c : ℕ) (s : Host) : Leaves c s s where
  started := rfl
  crashed := rfl
  initial := rfl
  tmp _ _ := rfl
  mutex _ _ _ h := h
  lock _ h _ := h
  new _ h := .inl h
  under := .inr (.inl rfl)

theorem At.note (h : At format p me l x) (hown : ProcOk format x.shared me l')
    (hme : l'.me = some me) : At format p me l' (x.store x.shared l') :=
  h.store_leaves (.refl _ _) (fun m hm => ⟨m, hm, rfl⟩) (fun _ he => .inl he) (fun _ hrm => .inl hrm)
    hown hme

/-! ## Calls -/

/-- What a process that stops leaves behind. -/
def Gone (format : LockFormat) (p : ℕ) (_ : Stop) (y : Snap lockSig LockCommand Unit) : Prop :=
  LockInv format (y.cfg p)

/-- **One call of a process.** -/
theorem wp_syscall (h : At format p me l x) {q : Syscall} {op : q.Reply → Host → Proc → α × Host × Proc}
    {Q : α → Snap lockSig LockCommand Unit → Prop}
    (hQ : ∀ reply y, At format p me l y → y.shared.crashed me.pid = false →
      Q (op reply y.shared l).1 (y.store (op reply y.shared l).2.1 (op reply y.shared l).2.2)) :
    wp (lockContract format) p (syscall me.pid q op) Q (Gone format p) x := by
  refine ⟨h.inv, trivial, fun r hr t s o _ hI => ?_⟩
  cases r with
  | error e => exact (hr e rfl).elim
  | ok reply =>
    have hlater : At format p me l (x.later t s o) := ⟨hI, h.ledger, h.me⟩
    show wp _ p (if s.crashed me.pid then _ else _) Q _ _
    split_ifs with hcrashed
    · exact hI
    · rw [hlater.ledger]
      exact hQ reply _ hlater (Bool.not_eq_true _ ▸ hcrashed)

/-- A call that answers and changes nothing. -/
theorem wp_look (h : At format p me l x) {q : Syscall} {answer : q.Reply → Host → α}
    {Q : α → Snap lockSig LockCommand Unit → Prop}
    (hQ : ∀ reply y, At format p me l y → y.shared.crashed me.pid = false →
      Q (answer reply y.shared) y) :
    wp (lockContract format) p (syscall me.pid q fun reply s l => (answer reply s, s, l)) Q
      (Gone format p) x := by
  refine wp_syscall h fun reply y hy hlive => ?_
  have hsame : y.store y.shared l = y := by
    obtain ⟨clock, shared, call, others, entered⟩ := y
    cases hy.ledger
    rfl
  dsimp only
  rw [hsame]
  exact hQ reply y hy hlive

/-- The mutex may change hands where no other process has it and the lock stays as it is. -/
theorem leaves_mutex {c : ℕ} {s : Host} {m : Option Entry}
    (h : ∀ t a, a ≠ c → s.mutex = some ⟨t, some a⟩ → m = some ⟨t, some a⟩) :
    Leaves c s { s with mutex := m } :=
  { Leaves.refl c s with mutex := h }

end XChain.InstanceLock
