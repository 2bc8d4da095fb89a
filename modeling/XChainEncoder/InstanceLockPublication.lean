import XChainEncoder.InstanceLockInvariant

/-!
# Publishing the instance lock

* `wp_acquireBreakMutex`, `wp_releaseBreakMutex`, `wp_withStaleBreakMutex`: the break mutex;
* `At.create`, `At.write`: the lock appears with a link, or is written in place;
* `wp_publishLock`: **a process that publishes has its record in the lock, or has left it alone**.
-/

namespace XChain.InstanceLock

open Coroutine

variable {format : LockFormat}
  {p : ℕ} {me : LockRecord} {l l' : Proc} {x : Snap lockSig LockCommand Unit} {α : Type}

section Steps

variable {Q : Unit → Snap lockSig LockCommand Unit → Prop}

/-! ## The break mutex -/

theorem wp_openMutex (h : At format p me l x) {Q : Bool → Snap lockSig LockCommand Unit → Prop}
    (hopen : ∀ y, At format p me { l with inMutex := some [] } y → Q true y)
    (hbusy : ∀ y, At format p me l y → Q false y) :
    wp (lockContract format) p (openMutex me) Q (Gone format p) x := by
  refine wp_syscall h fun _ y hy hlive => ?_
  cases hm : y.shared.mutex with
  | some m =>
    dsimp only
    exact hbusy _ (hy.note hy.proc hy.me)
  | none =>
    dsimp only
    have hproc := hy.proc
    have hleaves : Leaves me.pid y.shared { y.shared with mutex := some ⟨[], some me.pid⟩ } :=
      leaves_mutex fun t a _ ht => by cases hm.symm.trans ht
    refine hopen _ (hy.store_leaves hleaves (fun m hm' => ?_) (fun _ he => .inl he)
      (fun _ hrm => .inl hrm) ?_ hy.me)
    · cases hm.symm.trans hm'
    · exact
        { hproc with
          seen := hproc.seen_leaves hleaves
          inMutex := fun t ht => by
            cases ht
            rfl
          writing := fun t ht => ⟨rfl, (hproc.writing t ht).2⟩
          verified := fun hv => ⟨rfl, (hproc.verified hv).2⟩ }

theorem wp_writeMutex {t : Text} (text : Text) (h : At format p me { l with inMutex := some t } x)
    (hQ : ∀ y, At format p me { l with inMutex := some (t ++ text) } y → Q () y) :
    wp (lockContract format) p (writeMutex me text) Q (Gone format p) x := by
  induction text generalizing t x with
  | nil =>
    rw [List.append_nil] at hQ
    exact hQ x h
  | cons c cs ih =>
    refine (wp_bind x).mpr (wp_syscall h fun _ y hy _ => ?_)
    have hproc := hy.proc
    have hm := hproc.inMutex t rfl
    have hnew : y.shared.mutex.map (Entry.append me.pid c) = some ⟨t ++ [c], some me.pid⟩ := by
      rw [hm]
      simp [Entry.append]
    refine ih (t := t ++ [c]) ?_ (by simpa using hQ)
    show At format p me _ (y.store { y.shared with
      mutex := y.shared.mutex.map (Entry.append me.pid c) } _)
    rw [hnew]
    have hleaves : Leaves me.pid y.shared { y.shared with mutex := some ⟨t ++ [c], some me.pid⟩ } :=
      leaves_mutex fun t' a ha ht' => absurd (mutex_author hm ht') ha.symm
    refine hy.store_leaves hleaves (fun m hm' => ?_) (fun _ he => .inl he) (fun _ hrm => .inl hrm) ?_
      hy.me
    · cases hm.symm.trans hm'
      exact ⟨_, rfl, rfl⟩
    · exact
        { hproc with
          seen := hproc.seen_leaves hleaves
          inMutex := fun t' ht' => by
            cases ht'
            rfl
          writing := fun t' ht' => ⟨rfl, (hproc.writing t' ht').2⟩
          verified := fun hv => ⟨rfl, (hproc.verified hv).2⟩ }

theorem wp_unlinkMutex {t : Text} (h : At format p me { l with inMutex := some t } x)
    (hstage : l.stage = .idle ∨ l.stage = .published) (hverified : l.verified = false)
    (hQ : ∀ y, At format p me { l with inMutex := none } y → Q () y) :
    wp (lockContract format) p (unlinkMutex me) Q (Gone format p) x := by
  refine wp_syscall h fun _ y hy hlive => ?_
  have hproc := hy.proc
  have hm := hproc.inMutex t rfl
  have hleaves : Leaves me.pid y.shared { y.shared with mutex := none } :=
    leaves_mutex fun t' a ha ht' => absurd (mutex_author hm ht') ha.symm
  refine hQ _ (hy.store ?_ ?_ hy.me fun _ _ hne hd => hd.leaves hleaves hne)
  · -- A lock half written is another process's, and that one would have the mutex.
    refine ⟨fun e he => ?_, hy.host.started, hy.host.removals⟩
    obtain ⟨hforeign, hown⟩ := hy.host.lock e he
    refine ⟨hforeign, fun a ha => ?_⟩
    obtain ⟨r, hr, hpre, hfull | ⟨m, hm', hma⟩⟩ := hown a ha
    · exact ⟨r, hr, hpre, .inl hfull⟩
    · cases hm.symm.trans hm'
      obtain rfl : me.pid = a := Option.some.inj hma
      refine ⟨r, hr, hpre, .inl ?_⟩
      rcases hstage with hidle | hpub
      · exact absurd ha (hproc.idle (.inl hidle) e he)
      · have hlock := hproc.published hpub hlive
        cases hlock.symm.trans he
        cases hproc.started.symm.trans hr
        rfl
  · exact
      { hproc with
        seen := hproc.seen_leaves hleaves
        inMutex := fun t' ht' => by cases ht'
        writing := fun t' ht' => by
          rcases hstage with hs | hs <;> cases hs.symm.trans ht'
        verified := fun hv => by cases hverified.symm.trans hv }

theorem wp_acquireBreakMutex (attempts : ℕ) (h : At format p me l x)
    {Q : Except LockError Unit → Snap lockSig LockCommand Unit → Prop}
    (hok : ∀ y, At format p me { l with inMutex := some me.token } y → Q (.ok ()) y)
    (hbusy : ∀ y, At format p me l y → Q (.error .mutexBusy) y) :
    wp (lockContract format) p (acquireBreakMutex me attempts) Q (Gone format p) x := by
  induction attempts generalizing x with
  | zero => exact hbusy x h
  | succ attempts ih =>
    refine (wp_bind x).mpr (wp_openMutex h (fun y hy => ?_) fun y hy => ih hy)
    exact (wp_bind y).mpr (wp_writeMutex me.token hy fun z hz => hok z hz)

theorem wp_releaseBreakMutex (h : At format p me { l with inMutex := some me.token } x)
    (hstage : l.stage = .idle ∨ l.stage = .published) (hverified : l.verified = false)
    (hQ : ∀ y, At format p me { l with inMutex := none } y → Q () y) :
    wp (lockContract format) p (releaseBreakMutex me) Q (Gone format p) x := by
  refine (wp_bind x).mpr (wp_look h fun _ y hy _ => ?_)
  have htext : y.shared.mutex.map Entry.text = some me.token := by
    rw [hy.proc.inMutex me.token rfl]
    rfl
  rw [if_pos htext]
  exact wp_unlinkMutex hy hstage hverified hQ

/-- **What runs under the mutex.** The action keeps the mutex and comes to a ledger of which `P`
holds. -/
theorem wp_withStaleBreakMutex (h : At format p me l x) {action : Prog (Except LockError Unit)}
    {P : Except LockError Unit → Proc → Prop}
    {Q : Except LockError Unit → Snap lockSig LockCommand Unit → Prop}
    (haction : ∀ y, At format p me { l with inMutex := some me.token } y →
      wp (lockContract format) p action (fun result z => ∃ l', P result l' ∧
        At format p me { l' with inMutex := some me.token } z ∧
        (l'.stage = .idle ∨ l'.stage = .published) ∧ l'.verified = false) (Gone format p) y)
    (hQ : ∀ result l' y, P result l' → At format p me { l' with inMutex := none } y → Q result y)
    (hbusy : ∀ y, At format p me l y → Q (.error .mutexBusy) y) :
    wp (lockContract format) p (withStaleBreakMutex me action) Q (Gone format p) x := by
  refine (wp_bind x).mpr (wp_acquireBreakMutex _ h (fun y hy => ?_) hbusy)
  refine (wp_bind y).mpr (wp_mono (fun result z hz => ?_) (fun _ _ hg => hg) y (haction y hy))
  obtain ⟨l', hP, hat, hstage, hverified⟩ := hz
  exact (wp_bind z).mpr (wp_releaseBreakMutex hat hstage hverified fun u hu => hQ result l' u hP hu)

/-! ## Publication -/

theorem leaves_tmp {c : ℕ} {s : Host} {t : Option Text} :
    Leaves c s { s with tmp := Function.update s.tmp c t } :=
  { Leaves.refl c s with tmp := fun _ ha => Function.update_of_ne ha _ _ }

theorem At.tmp (h : At format p me l x) (t : Option Text) :
    At format p me { l with tmp := t }
      (x.store { x.shared with tmp := Function.update x.shared.tmp me.pid t } { l with tmp := t }) := by
  have hproc := h.proc
  refine h.store_leaves leaves_tmp (fun m hm => ⟨m, hm, rfl⟩) (fun _ he => .inl he)
    (fun _ hrm => .inl hrm) ?_ h.me
  exact
    { hproc with
      seen := hproc.seen_leaves (leaves_tmp (t := t))
      tmp := fun t' ht' => by
        cases ht'
        exact Function.update_self _ _ _ }

theorem wp_openTmp (h : At format p me l x) {Q : Bool → Snap lockSig LockCommand Unit → Prop}
    (hopen : ∀ y, At format p me { l with tmp := some [] } y → Q true y)
    (hexists : ∀ y, At format p me l y → Q false y) :
    wp (lockContract format) p (openTmp me) Q (Gone format p) x := by
  refine wp_syscall h fun _ y hy _ => ?_
  cases y.shared.tmp me.pid with
  | some t => exact hexists _ (hy.note hy.proc hy.me)
  | none => exact hopen _ (hy.tmp (some []))

theorem wp_writeTmp {t : Text} (text : Text) (h : At format p me { l with tmp := some t } x)
    (hQ : ∀ y, At format p me { l with tmp := some (t ++ text) } y → Q () y) :
    wp (lockContract format) p (writeTmp me text) Q (Gone format p) x := by
  induction text generalizing t x with
  | nil =>
    rw [List.append_nil] at hQ
    exact hQ x h
  | cons c cs ih =>
    refine (wp_bind x).mpr (wp_syscall h fun _ y hy _ => ih (t := t ++ [c]) ?_ (by simpa using hQ))
    have htmp : y.shared.tmp me.pid = some t := hy.proc.tmp t rfl
    have hat := hy.tmp (some (t ++ [c]))
    rw [htmp]
    exact hat

theorem wp_unlinkTmp (h : At format p me l x)
    (hQ : ∀ y, At format p me { l with tmp := none } y → Q () y) :
    wp (lockContract format) p (unlinkTmp me) Q (Gone format p) x :=
  wp_syscall h fun _ _ hy _ => hQ _ (hy.tmp none)

/-- A process that may publish: it has the mutex, and has not published yet. -/
structure MayPublish (me : LockRecord) (l : Proc) : Prop where
  inMutex : l.inMutex = some me.token
  stage : l.stage = .idle
  verified : l.verified = false
  holding : l.holding = false

/-- The process creates the lock, with a beginning of its record. -/
theorem At.create (h : At format p me l x) (hl : MayPublish me l) (hnone : x.shared.lock = none)
    {t : Text} (ht : t <+: format.stringify me) {stage : Publication}
    (hwriting : ∀ t', stage = .writing t' → t' = t)
    (hpublished : stage = .published → t = format.stringify me)
    (hidle : ¬ (stage = .idle ∨ stage = .released)) :
    At format p me { l with stage := stage }
      (x.store { x.shared with lock := some ⟨t, some me.pid⟩ } { l with stage := stage }) := by
  have hproc := h.proc
  have hm := hproc.inMutex _ hl.inMutex
  have hleaves : Leaves me.pid x.shared { x.shared with lock := some ⟨t, some me.pid⟩ } :=
    { Leaves.refl me.pid x.shared with
      lock := fun e he => by cases hnone.symm.trans he
      new := fun e he => by
        cases he
        exact .inr rfl
      under := .inr (.inr ⟨_, hm⟩) }
  refine h.store_leaves hleaves (fun m hm => ⟨m, hm, rfl⟩) (fun e he => .inr ?_)
    (fun _ hrm => .inl hrm) ?_ h.me
  · cases he
    refine ⟨nofun, fun a ha => ?_⟩
    obtain rfl : me.pid = a := Option.some.inj ha
    exact ⟨me, hproc.started, ht, .inr ⟨_, hm, rfl⟩⟩
  · exact
      { hproc with
        seen := hproc.seen_leaves hleaves
        writing := fun t' ht' => by
          rw [hwriting t' ht']
          exact ⟨by rw [hl.inMutex]; rfl, rfl, ht⟩
        published := fun hp _ => by rw [hpublished hp]
        idle := fun hi => absurd hi hidle
        verified := fun hv => by cases hl.verified.symm.trans hv
        holding := fun hh => by cases hl.holding.symm.trans hh }

theorem wp_linkTmp (h : At format p me l x) (hl : MayPublish me l)
    (htmp : l.tmp = some (format.stringify me))
    {Q : Linked → Snap lockSig LockCommand Unit → Prop}
    (hlinked : ∀ y, At format p me { l with stage := .published } y → Q .linked y)
    (hnot : ∀ result y, result ≠ .linked → At format p me l y → Q result y) :
    wp (lockContract format) p (linkTmp me) Q (Gone format p) x := by
  refine wp_syscall h fun hardLinks y hy _ => ?_
  have hsame := hy.note hy.proc hy.me
  cases hardLinks with
  | false => exact hnot _ _ nofun hsame
  | true =>
    cases hlock : y.shared.lock with
    | some e => exact hnot _ _ nofun hsame
    | none =>
      rw [hy.proc.tmp _ htmp]
      exact hlinked _ (hy.create hl hlock (List.prefix_refl _) nofun (fun _ => rfl) (by simp))

theorem wp_openLock (h : At format p me l x) (hl : MayPublish me l)
    {Q : Bool → Snap lockSig LockCommand Unit → Prop}
    (hopen : ∀ y, At format p me { l with stage := .writing [] } y → Q true y)
    (hexists : ∀ y, At format p me l y → Q false y) :
    wp (lockContract format) p (openLock me) Q (Gone format p) x := by
  refine wp_syscall h fun _ y hy _ => ?_
  cases hlock : y.shared.lock with
  | some e => exact hexists _ (hy.note hy.proc hy.me)
  | none =>
    refine hopen _ (hy.create hl hlock (List.nil_prefix) (fun t' ht' => ?_) nofun (by simp))
    cases ht'
    rfl

/-- One more character of the lock the process is writing. -/
theorem At.write {done : Text} {c : Char} (h : At format p me { l with stage := .writing done } x)
    (hl : MayPublish me l) (hpre : done ++ [c] <+: format.stringify me) :
    At format p me { l with stage := (Publication.writing done).write (format.stringify me) c }
      (x.store { x.shared with lock := x.shared.lock.map (Entry.append me.pid c) }
        { l with stage := (Publication.writing done).write (format.stringify me) c }) := by
  have hproc := h.proc
  obtain ⟨-, hlock, -⟩ := hproc.writing done rfl
  have hm := hproc.inMutex _ hl.inMutex
  have hnew : x.shared.lock.map (Entry.append me.pid c) = some ⟨done ++ [c], some me.pid⟩ := by
    rw [hlock]
    simp [Entry.append]
  rw [hnew]
  have hleaves : Leaves me.pid x.shared { x.shared with lock := some ⟨done ++ [c], some me.pid⟩ } :=
    { Leaves.refl me.pid x.shared with
      lock := fun e he hne => by
        cases hlock.symm.trans he
        exact absurd rfl hne
      new := fun e he => by
        cases he
        exact .inr rfl
      under := .inr (.inr ⟨_, hm⟩) }
  refine h.store_leaves hleaves (fun m hm => ⟨m, hm, rfl⟩) (fun e he => .inr ?_)
    (fun _ hrm => .inl hrm) ?_ h.me
  · cases he
    refine ⟨nofun, fun a ha => ?_⟩
    obtain rfl : me.pid = a := Option.some.inj ha
    exact ⟨me, hproc.started, hpre, .inr ⟨_, hm, rfl⟩⟩
  · by_cases hfull : done ++ [c] = format.stringify me
    · rw [Publication.write, if_pos hfull]
      exact
        { hproc with
          seen := hproc.seen_leaves hleaves
          writing := nofun
          published := fun _ _ => by rw [hfull]
          idle := fun hi => by simp at hi
          verified := fun hv => by cases hl.verified.symm.trans hv
          holding := fun hh => by cases hl.holding.symm.trans hh }
    · rw [Publication.write, if_neg hfull]
      exact
        { hproc with
          seen := hproc.seen_leaves hleaves
          writing := fun t ht => by
            cases ht
            exact ⟨by rw [hl.inMutex]; rfl, rfl, hpre⟩
          published := nofun
          idle := fun hi => by simp at hi
          verified := fun hv => by cases hl.verified.symm.trans hv
          holding := fun hh => by cases hl.holding.symm.trans hh }

theorem stringify_ne_nil (me : LockRecord) : format.stringify me ≠ [] := fun h => by
  have hpre : format.stringify me <+: format.stringify { me with pid := me.pid + 1 } := by
    rw [h]
    exact List.nil_prefix
  have := congrArg LockRecord.pid (format.prefix_free _ _ hpre)
  simp at this

theorem wp_writeLock {done : Text} (text : Text) (hne : text ≠ [])
    (htext : done ++ text = format.stringify me) (hl : MayPublish me l)
    (h : At format p me { l with stage := .writing done } x)
    (hQ : ∀ y, At format p me { l with stage := .published } y → Q () y) :
    wp (lockContract format) p (writeLock format me text) Q (Gone format p) x := by
  induction text generalizing done x with
  | nil => exact absurd rfl hne
  | cons c cs ih =>
    refine (wp_bind x).mpr (wp_syscall h fun _ y hy _ => ?_)
    have hpre : done ++ [c] <+: format.stringify me := ⟨cs, by rw [← htext]; simp⟩
    have hat := hy.write hl hpre
    cases cs with
    | nil =>
      rw [Publication.write, if_pos htext] at hat
      have hend : Publication.write (format.stringify me) c (.writing done) = .published :=
        if_pos htext
      show Q () (y.store _ _)
      rw [hend]
      exact hQ _ hat
    | cons c' cs' =>
      have hrest : Publication.write (format.stringify me) c (.writing done) =
          .writing (done ++ [c]) := by
        refine if_neg fun he => ?_
        have hlen := congrArg List.length (he.trans htext.symm)
        simp at hlen
      rw [hrest] at hat
      show wp _ p _ Q _ (y.store _ _)
      rw [show Publication.write (format.stringify me) c ({ l with stage := .writing done } : Proc).stage
        = .writing (done ++ [c]) from hrest]
      exact ih (List.cons_ne_nil c' cs') (by rw [← htext]; simp) hat

/-- A publication that went through, or met another lock. -/
def PublishedOr (l : Proc) (result : Except LockError Unit) (l' : Proc) : Prop :=
  (result = .ok () ∧ l' = { l with stage := .published }) ∨ (result = .error .eexist ∧ l' = l)

theorem wp_publishInPlace (h : At format p me l x) (hl : MayPublish me l)
    {Q : Except LockError Unit → Snap lockSig LockCommand Unit → Prop}
    (hQ : ∀ result l' y, PublishedOr l result l' → At format p me l' y → Q result y) :
    wp (lockContract format) p (publishInPlace format me) Q (Gone format p) x := by
  refine (wp_bind x).mpr (wp_openLock h hl (fun y hy => ?_) fun y hy => ?_)
  · exact (wp_bind y).mpr (wp_writeLock _ (stringify_ne_nil me) (List.nil_append _) hl hy
      fun z hz => hQ _ _ z (.inl ⟨rfl, rfl⟩) hz)
  · exact hQ _ _ y (.inr ⟨rfl, rfl⟩) hy

/-- **A publication, by a hard link or in place.** -/
theorem wp_publishAction (h : At format p me l x) (hl : MayPublish me l) (htmp : l.tmp = none)
    {Q : Except LockError Unit → Snap lockSig LockCommand Unit → Prop}
    (hQ : ∀ result l' y, PublishedOr l result l' → At format p me l' y → Q result y) :
    wp (lockContract format) p (publishAction format me) Q (Gone format p) x := by
  have hback : ({ l with tmp := none } : Proc) = l := by rw [← htmp]
  refine (wp_bind x).mpr (wp_openTmp h (fun y hy => ?_) fun y hy => hQ _ _ y (.inr ⟨rfl, rfl⟩) hy)
  refine (wp_bind y).mpr (wp_writeTmp _ hy fun z hz => (wp_bind z).mpr ?_)
  refine wp_linkTmp hz ⟨hl.inMutex, hl.stage, hl.verified, hl.holding⟩ rfl (fun u hu => ?_)
    fun result u hne hu => ?_
  · exact (wp_bind u).mpr (wp_unlinkTmp hu fun v hv =>
      hQ _ _ v (.inl ⟨rfl, rfl⟩) (by rwa [← hback]))
  · cases result with
    | linked => exact absurd rfl hne
    | eexist =>
      exact (wp_bind u).mpr (wp_unlinkTmp hu fun v hv =>
        hQ _ _ v (.inr ⟨rfl, rfl⟩) (by rw [← hback]; exact hv))
    | noHardlink =>
      refine (wp_bind u).mpr (wp_publishInPlace hu ⟨hl.inMutex, hl.stage, hl.verified, hl.holding⟩
        fun result l' v hres hv => ?_)
      refine (wp_bind v).mpr (wp_unlinkTmp hv fun z' hz' => ?_)
      rcases hres with ⟨rfl, rfl⟩ | ⟨rfl, rfl⟩
      · exact hQ _ _ z' (.inl ⟨rfl, rfl⟩) (by rwa [← hback])
      · exact hQ _ _ z' (.inr ⟨rfl, rfl⟩) (by rw [← hback]; exact hz')

/-- A process that has not published: between two passes of its acquisition. -/
structure Between (l : Proc) : Prop where
  inMutex : l.inMutex = none
  stage : l.stage = .idle
  verified : l.verified = false
  tmp : l.tmp = none
  holding : l.holding = false

/-- **Publishing the lock.** -/
theorem wp_publishLock (h : At format p me l x) (hl : Between l)
    {Q : Except LockError Unit → Snap lockSig LockCommand Unit → Prop}
    (hok : ∀ y, At format p me { l with stage := .published } y → Q (.ok ()) y)
    (hfail : ∀ e y, At format p me l y → Q (.error e) y) :
    wp (lockContract format) p (publishLock format me) Q (Gone format p) x := by
  have hback : ({ l with inMutex := none } : Proc) = l := by rw [← hl.inMutex]
  refine wp_withStaleBreakMutex (P := PublishedOr l) h (fun y hy => ?_) (fun result l' y hres hy => ?_)
    (hfail _)
  · refine wp_publishAction hy ⟨rfl, hl.stage, hl.verified, hl.holding⟩ hl.tmp
      fun result l' z hres hz => ?_
    rcases hres with ⟨rfl, rfl⟩ | ⟨rfl, rfl⟩
    · exact ⟨_, .inl ⟨rfl, rfl⟩, hz, .inr rfl, hl.verified⟩
    · exact ⟨l, .inr ⟨rfl, rfl⟩, hz, .inl hl.stage, hl.verified⟩
  · rcases hres with ⟨rfl, rfl⟩ | ⟨rfl, rfl⟩
    · exact hok y (by rwa [← hback])
    · exact hfail _ y (by rwa [← hback])

end Steps

end XChain.InstanceLock
