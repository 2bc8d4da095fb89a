import XChainEncoder.InstanceLockPublication

/-!
# Judging and breaking the instance lock

* `wp_readLock`, `wp_readLockHolderSettled`: reading the lock until it stands still;
* `wp_judge`: **only a lock that no live process published is judged stale**;
* `At.same_entry`: under the mutex a lock that reads the same is the same;
* `wp_unlinkStale`, `wp_breakStaleLock`: **what is unlinked was judged stale**.
-/

namespace XChain.InstanceLock

open Coroutine

variable {format : LockFormat}
  {p : ℕ} {me : LockRecord} {l l' : Proc} {x : Snap lockSig LockCommand Unit} {α : Type}

section Steps

variable {Q : Unit → Snap lockSig LockCommand Unit → Prop}

/-! ## Judging and breaking -/

/-- The lock that was read, not judged yet. -/
def Proc.read (l : Proc) (seen : Option Entry) : Proc := { l with seen := seen, stale := false }

theorem Between.read (hl : Between l) (seen : Option Entry) : Between (l.read seen) :=
  ⟨hl.inMutex, hl.stage, hl.verified, hl.tmp, hl.holding⟩

theorem wp_readLock (h : At format p me l x) (hl : Between l)
    {Q : Option Text → Snap lockSig LockCommand Unit → Prop}
    (hQ : ∀ seen y, At format p me (l.read seen) y → Q (seen.map Entry.text) y) :
    wp (lockContract format) p (readLock me) Q (Gone format p) x := by
  refine wp_syscall h fun _ y hy _ => hQ y.shared.lock _ (hy.note ?_ hy.me)
  have hproc := hy.proc
  exact
    { hproc with
      seen := fun e he => by
        obtain ⟨hforeign, hown⟩ := hy.host.lock e he
        refine ⟨⟨hforeign, fun a ha => ?_, fun ha e' he' => ?_⟩, hproc.idle (.inl hl.stage) e he⟩
        · obtain ⟨r, hr, hpre, -⟩ := hown a ha
          exact ⟨r, hr, hpre⟩
        · cases Eq.trans (Eq.symm he) he'
          exact ha
      stale := nofun
      verified := fun hv => by cases hl.verified.symm.trans hv }

theorem wp_readLockHolderSettled (passes : ℕ) (h : At format p me l x) (hl : Between l)
    {Q : Option Text → Snap lockSig LockCommand Unit → Prop}
    (hQ : ∀ seen y, At format p me (l.read seen) y → Q (seen.map Entry.text) y) :
    wp (lockContract format) p (readLockHolderSettled format me passes) Q (Gone format p) x := by
  induction passes generalizing l x with
  | zero => exact wp_readLock h hl hQ
  | succ passes ih =>
    refine (wp_bind x).mpr (wp_readLock h hl fun seen y hy => ?_)
    split_ifs
    · exact hQ seen y hy
    · exact ih hy (hl.read seen) fun seen' z hz => hQ seen' z hz

/-- A lock is stale when every other process that wrote its text has crashed. -/
theorem At.stale (h : At format p me l x) {e : Entry} (he : l.seen = some e)
    (hcrashed : ∀ r, r ≠ me → x.shared.started r.pid = some r → e.text = format.stringify r →
      x.shared.crashed r.pid = true) : Stale format x.shared e := by
  intro r hr htext
  by_cases hme : r = me
  · -- The process itself has not written it: it is the lock's, and it is another's.
    exfalso
    subst hme
    obtain ⟨⟨hforeign, hown, -⟩, hne⟩ := h.proc.seen e he
    cases ha : e.author with
    | none =>
      have hinitial := hforeign ha
      rw [htext] at hinitial
      exact (h.host.started _ _ hr).2.2.2 hinitial
    | some a =>
      obtain ⟨r', hr', hpre⟩ := hown a ha
      rw [htext] at hpre
      obtain rfl := format.prefix_free _ _ hpre
      rw [ha, (h.host.started a _ hr').1] at hne
      exact hne rfl
  · exact hcrashed r hme hr htext

theorem wp_judgeStale {seen : Option Entry} (h : At format p me (l.read seen) x) (hl : Between l)
    (hstale : ∀ e, seen = some e → Stale format x.shared e)
    {Q : Except LockError Unit → Snap lockSig LockCommand Unit → Prop}
    (hQ : ∀ y, At format p me { l with seen := seen, stale := true } y → Q (.ok ()) y) :
    wp (lockContract format) p judgeStale Q (Gone format p) x := by
  show Q (.ok ()) (x.store x.shared { x.call.ledger with stale := true })
  rw [h.ledger]
  have hproc := h.proc
  refine hQ _ (h.note ?_ h.me)
  exact
    { hproc with
      stale := fun _ => hstale
      verified := fun hv => by cases hl.verified.symm.trans hv }

theorem wp_probeAlive {pid : ℕ} (h : At format p me l x)
    {Q : Bool → Snap lockSig LockCommand Unit → Prop}
    (hQ : ∀ (reply : Bool) y, At format p me l y → Q (y.shared.alive pid reply) y) :
    wp (lockContract format) p (probeAlive me pid) Q (Gone format p) x :=
  wp_look h fun reply y hy _ => hQ reply y hy

theorem wp_probeDescription {pid : ℕ} (h : At format p me l x)
    {Q : Option Text → Snap lockSig LockCommand Unit → Prop}
    (hQ : ∀ (reply : Option Text) y, At format p me l y → Q (y.shared.describe pid reply) y) :
    wp (lockContract format) p (probeDescription me pid) Q (Gone format p) x :=
  wp_look h fun reply y hy _ => hQ reply y hy

theorem alive_live {s : Host} {r : LockRecord} {reply : Bool} (hr : s.started r.pid = some r) :
    s.alive r.pid reply = !s.crashed r.pid := by
  rw [Host.alive, hr]

/-- A live process is described as it described itself, or not at all. -/
theorem describe_live {s : Host} {r : LockRecord} {reply : Option Text}
    (hr : s.started r.pid = some r) (hlive : s.crashed r.pid = false) :
    s.describe r.pid reply = if reply.isSome then orNull r.cmd else none := by
  rw [Host.describe, hr]
  simp only [hlive, Bool.false_eq_true, if_false]

theorem reusedPid_self {pid : Option ℤ} {cmd token : Option Text} {known : Bool} :
    reusedPid ⟨pid, cmd, token⟩ (if known then cmd else none) = false := by
  cases known <;> cases cmd <;> simp [reusedPid]

/-- **The verdict on a lock.** A lock that is judged stale is: no live process wrote its text. -/
theorem wp_judge {seen : Option Entry} (h : At format p me (l.read seen) x) (hl : Between l)
    {Q : Except LockError Unit → Snap lockSig LockCommand Unit → Prop}
    (hstale : ∀ y, At format p me { l with seen := seen, stale := true } y → Q (.ok ()) y)
    (hrefuse : ∀ pid y, At format p me (l.read seen) y → Q (.error (.heldBy pid)) y) :
    wp (lockContract format) p (judge me (format.reading (seen.map Entry.text))) Q (Gone format p)
      x := by
  -- What the reading says of a record of these processes.
  have hrecord : ∀ e r, seen = some e → e.text = format.stringify r →
      format.reading (seen.map Entry.text) = ⟨some r.pid, orNull r.cmd, orNull r.token⟩ := by
    rintro e r rfl htext
    rw [Option.map_some, htext]
    exact format.read_stringify r
  unfold judge
  split
  · rename_i hnone
    refine wp_judgeStale h hl (fun e he => h.stale he fun r _ _ htext => ?_) hstale
    rw [hrecord e r he htext] at hnone
    cases hnone
  · rename_i pid hpid
    split_ifs with hpos
    · refine wp_judgeStale h hl (fun e he => h.stale he fun r _ hr htext => ?_) hstale
      rw [hrecord e r he htext] at hpid
      have := (h.host.started _ r hr).2.1
      cases hpid
      omega
    · refine (wp_bind x).mpr (wp_probeAlive h fun alive y hy => ?_)
      split_ifs with halive
      · refine (wp_bind y).mpr (wp_probeDescription hy fun described z hz => ?_)
        split_ifs with hreused
        · refine wp_judgeStale hz hl (fun e he => hz.stale he fun r _ hr htext => ?_) hstale
          rw [hrecord e r he htext] at hpid hreused
          cases hpid
          by_contra hlive
          rw [Int.toNat_natCast, describe_live hr (by simpa using hlive)] at hreused
          exact absurd hreused (by rw [reusedPid_self]; nofun)
        · exact hrefuse _ z hz
      · refine wp_judgeStale hy hl (fun e he => hy.stale he fun r hne hr htext => ?_) hstale
        rw [hrecord e r he htext] at hpid
        cases hpid
        by_contra hlive
        rw [Int.toNat_natCast, alive_live hr, eq_false_of_ne_true hlive] at halive
        have hsame : r.pid = me.pid := by simpa using halive
        refine hne (Option.some.inj ?_)
        rw [← hr, hsame]
        exact hy.proc.started

/-- The lock that carries the text of the judged one, read under the mutex, is the judged one. -/
theorem At.same_entry {t : Text} (h : At format p me l x) (hm : l.inMutex = some t)
    (hidle : l.stage = .idle) {e e' : Entry} (he : l.seen = some e) (hlock : x.shared.lock = some e')
    (htext : e'.text = e.text) : e' = e := by
  obtain ⟨⟨hforeign, hown, hsince⟩, -⟩ := h.proc.seen e he
  obtain ⟨hforeign', hown'⟩ := h.host.lock e' hlock
  have hmutex := h.proc.inMutex t hm
  -- Nobody else is writing the lock, so a lock of these processes is a whole record.
  have hwhole : ∀ b, e'.author = some b → ∃ r, x.shared.started b = some r ∧
      e'.text = format.stringify r := by
    intro b hb
    obtain ⟨r, hr, -, hfull | ⟨m, hm', hma⟩⟩ := hown' b hb
    · exact ⟨r, hr, hfull⟩
    · cases hmutex.symm.trans hm'
      obtain rfl : me.pid = b := Option.some.inj hma
      exact absurd hb (h.proc.idle (.inl hidle) e' hlock)
  obtain ⟨text, author⟩ := e
  obtain ⟨text', author'⟩ := e'
  obtain rfl : text' = text := htext
  congr 1
  cases author with
  | none =>
    cases author' with
    | none => rfl
    | some b =>
      obtain ⟨r, hr, hfull⟩ := hwhole b rfl
      exact absurd (hfull ▸ hforeign rfl) (h.host.started b r hr).2.2.2
  | some a =>
    obtain ⟨b, hb⟩ := Option.ne_none_iff_exists'.mp (hsince nofun _ hlock)
    obtain rfl : author' = some b := hb
    obtain ⟨r, hr, hfull⟩ := hwhole b rfl
    obtain ⟨r', hr', hpre⟩ := hown a rfl
    obtain rfl := format.prefix_free r r' (hfull ▸ hpre)
    rw [← (h.host.started b r hr).1, ← (h.host.started a r hr').1]

/-- A process that has judged the lock stale and has the mutex. -/
structure MayBreak (me : LockRecord) (l : Proc) : Prop where
  inMutex : l.inMutex = some me.token
  stage : l.stage = .idle
  stale : l.stale = true
  verified : l.verified = false

theorem wp_rereadLock (h : At format p me l x) (hl : MayBreak me l)
    {Q : Bool → Snap lockSig LockCommand Unit → Prop}
    (hQ : ∀ found y, At format p me { l with verified := found } y → Q found y) :
    wp (lockContract format) p (rereadLock me (l.seen.map Entry.text)) Q (Gone format p) x := by
  refine wp_syscall h fun _ y hy _ => hQ _ _ (hy.note ?_ hy.me)
  have hproc := hy.proc
  refine { hproc with verified := fun hv => ⟨by rw [hl.inMutex]; rfl, hl.stale, hl.stage, ?_⟩ }
  cases hlock : y.shared.lock with
  | none => simp [hlock] at hv
  | some e' =>
    cases hseen : l.seen with
    | none => simp [hlock, hseen] at hv
    | some e =>
      have htext : e'.text = e.text := by simpa [hlock, hseen] using hv
      exact ⟨e, rfl, .inr (congrArg some (hy.same_entry hl.inMutex hl.stage hseen hlock htext))⟩

/-- **The stale lock is unlinked.** What is there is the lock that was judged, and no live process
has published it. -/
theorem wp_unlinkStale (h : At format p me { l with verified := true } x) (hl : MayBreak me l)
    (hQ : ∀ y, At format p me l y → Q () y) :
    wp (lockContract format) p (unlinkStale me) Q (Gone format p) x := by
  refine wp_syscall h fun _ y hy _ => ?_
  have hproc := hy.proc
  obtain ⟨-, hstale, -, e, hseen, hlock⟩ := hproc.verified rfl
  have hm := hproc.inMutex _ hl.inMutex
  have hmine : ∀ r d t, r.pid ≠ me.pid → ProcOk format y.shared r d → d.inMutex = some t → False :=
    fun r d t hne hd ht => hne (mutex_author (hd.inMutex t ht) hm)
  have hback : ({ l with verified := false } : Proc) = l := by rw [← hl.verified]
  have hkeep : ∀ {e'}, SeenOk format y.shared e' → SeenOk format { y.shared with
      lock := none
      removals := y.shared.removals ++ y.shared.lock.toList.map fun e =>
        ⟨me.pid, e, .broke (if l.stale then l.seen else none)⟩ }
      e' := fun hs => ⟨hs.foreign, hs.own, fun _ _ he => by cases he⟩
  have hat : At format p me { l with verified := false } (y.store
      { y.shared with
        lock := none
        removals := y.shared.removals ++ y.shared.lock.toList.map fun e =>
          ⟨me.pid, e, .broke (if l.stale then l.seen else none)⟩ }
      { l with verified := false }) := hy.store ?_ ?_ hy.me ?_
  · rw [hback] at hat
    show Q () (y.store _ { l with verified := false })
    rw [hback]
    exact hQ _ hat
  · refine ⟨nofun, hy.host.started, fun rm hrm => ?_⟩
    rcases List.mem_append.mp hrm with hold | hnew
    · exact hy.host.removals rm hold
    · obtain ⟨e', he', rfl⟩ := List.mem_map.mp hnew
      rw [Option.mem_toList] at he'
      rcases hlock with hnone | hsame
      · cases hnone.symm.trans he'
      · cases hsame.symm.trans he'
        show (if l.stale then l.seen else none) = some e
        rw [if_pos hl.stale]
        exact hseen
  · exact
      { hproc with
        writing := fun t ht => by cases hl.stage.symm.trans ht
        published := fun hp => by cases hl.stage.symm.trans hp
        idle := fun _ _ he => by cases he
        seen := fun e' he' => ⟨hkeep (hproc.seen e' he').1, (hproc.seen e' he').2⟩
        verified := nofun }
  · intro r d hne hd
    exact
      { hd with
        writing := fun t ht => by
          obtain ⟨t', ht'⟩ := Option.isSome_iff_exists.mp (hd.writing t ht).1
          exact (hmine r d t' hne hd ht').elim
        published := fun hp hlive => by
          -- Its record is the lock that was judged stale.
          have hr := hd.published hp hlive
          rcases hlock with hnone | hsame
          · cases hnone.symm.trans hr
          · cases hsame.symm.trans hr
            have hcrashed := hproc.stale hstale _ hseen r hd.started rfl
            cases hcrashed.symm.trans hlive
        idle := fun _ _ he => by cases he
        seen := fun e' he' => ⟨hkeep (hd.seen e' he').1, (hd.seen e' he').2⟩
        verified := fun hv => by
          obtain ⟨t', ht'⟩ := Option.isSome_iff_exists.mp (hd.verified hv).1
          exact (hmine r d t' hne hd ht').elim }

/-- **Breaking the lock that was judged stale.** -/
theorem wp_breakStaleLock (h : At format p me l x) (hl : Between l) (hstale : l.stale = true)
    {Q : Except LockError Unit → Snap lockSig LockCommand Unit → Prop}
    (hQ : ∀ result y, At format p me l y → Q result y) :
    wp (lockContract format) p (breakStaleLock me (l.seen.map Entry.text)) Q (Gone format p) x := by
  have hback : ({ l with inMutex := none } : Proc) = l := by rw [← hl.inMutex]
  refine wp_withStaleBreakMutex (P := fun _ l' => l' = l) h (fun y hy => ?_)
    (fun result l' y hl' hy => ?_) fun y hy => hQ _ y hy
  · have hbreak : MayBreak me { l with inMutex := some me.token } :=
      ⟨rfl, hl.stage, hstale, hl.verified⟩
    refine (wp_bind y).mpr (wp_rereadLock hy hbreak fun found z hz => ?_)
    cases found with
    | true => exact (wp_bind z).mpr (wp_unlinkStale hz hbreak fun u hu =>
        ⟨l, rfl, hu, .inl hl.stage, hl.verified⟩)
    | false =>
      refine ⟨l, rfl, ?_, .inl hl.stage, hl.verified⟩
      have hsame : ({ l with inMutex := some me.token, verified := false } : Proc) =
        { l with inMutex := some me.token } := by rw [← hl.verified]
      rwa [← hsame]
  · subst hl'
    exact hQ _ y (by rwa [← hback])

end Steps

end XChain.InstanceLock
