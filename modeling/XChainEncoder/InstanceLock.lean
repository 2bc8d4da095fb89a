import XChainEncoder.Constants
import XChainEncoder.Lib.CallRuns

/-!
# The instance lock

Encoders started on one host share a lockfile. Each process publishes its record under a break mutex,
judges the record it finds instead of its own, and breaks the ones it judges stale.

* `LockRecord`, `LockFormat`: the record and its text;
* `Host`, `Proc`: the files and processes of the host, and what one process is doing;
* `syscall`: one filesystem call of a process that has not crashed; every interleaving of these calls
  and of crashes is a run;
* `withStaleBreakMutex`, `publishLock`, `judge`, `breakStaleLock`, `acquireInstanceLock`,
  `lockReleaser`: the protocol;
* `lockProgram`, `lockRun`: processes and their runs.
-/

namespace XChain.InstanceLock

open Coroutine

/-! ## Records -/

/-- What a process writes into the lock. -/
structure LockRecord where
  pid : ℕ
  cmd : Text
  token : Text
  deriving DecidableEq, Repr

/-- What the reader of a lock makes of its text: `pid` is none when it is not legible. -/
structure Reading where
  pid : Option ℤ
  cmd : Option Text
  token : Option Text
  deriving DecidableEq, Repr

/-- An empty field reads as a missing one. -/
def orNull (t : Text) : Option Text := if t = [] then none else some t

/-- The text of a record, and the reading of any text a lock may hold. A record reads back, and no
record begins another. -/
structure LockFormat where
  stringify : LockRecord → Text
  read : Text → Reading
  read_stringify : ∀ r, read (stringify r) = ⟨some r.pid, orNull r.cmd, orNull r.token⟩
  prefix_free : ∀ r r', stringify r <+: stringify r' → r = r'

/-- The reading of a lock that may be missing. -/
def LockFormat.reading (format : LockFormat) (text : Option Text) : Reading :=
  text.elim ⟨none, none, none⟩ format.read

/-- White space and line terminators, in Unicode. -/
def isJsSpace (c : Char) : Bool :=
  c = ' ' || (9 ≤ c.toNat && c.toNat ≤ 13) || (0x2000 ≤ c.toNat && c.toNat ≤ 0x200a) ||
    [0xa0, 0x1680, 0x2028, 0x2029, 0x202f, 0x205f, 0x3000, 0xfeff].contains c.toNat

/-- The first word of a command line. -/
def argv0 (cmd : Text) : Text := (cmd.dropWhile isJsSpace).takeWhile fun c => !isJsSpace c

/-- What follows the last slash. -/
def baseName (path : Text) : Text := (path.reverse.takeWhile (· ≠ '/')).reverse

/-- The text runs `api.js` as a word of its own or at the end of a path. -/
def mentionsApi : Text → Bool
  | [] => false
  | c :: cs => ((isJsSpace c || c = '/') && startsApi cs) || mentionsApi cs
where
  startsApi (t : Text) : Bool :=
    t.take 6 = ['a', 'p', 'i', '.', 'j', 's'] && (t.drop 6).head?.all isJsSpace

/-- Whether a command line is the encoder itself. -/
def looksLikeEncoder (cmd : Text) : Bool :=
  let program := baseName (argv0 cmd)
  (program = ['n', 'o', 'd', 'e'] || program = ['n', 'o', 'd', 'e', 'j', 's']) &&
    (mentionsApi.startsApi cmd || mentionsApi cmd)

/-! ## The host -/

/-- A file at the lock's or the mutex's path: its text, and the process that created it. -/
structure Entry where
  text : Text
  author : Option ℕ
  deriving DecidableEq, Repr

/-- Why a process unlinked the lock: it released its own, or broke the one it had judged stale. -/
inductive Cause where
  | released
  | broke (judged : Option Entry)
  deriving DecidableEq, Repr

/-- One unlink of the lock. -/
structure Removal where
  pid : ℕ
  entry : Entry
  cause : Cause
  deriving DecidableEq, Repr

/-- The files of the host, the processes that have started and crashed, and the lock's unlinks.
`initial` is what the lock held before any of them started. -/
structure Host where
  lock : Option Entry
  mutex : Option Entry
  tmp : ℕ → Option Text
  started : ℕ → Option LockRecord
  crashed : ℕ → Bool
  initial : Option Text
  removals : List Removal

/-- How far a process has published its record. -/
inductive Publication where
  | idle
  | writing (done : Text)
  | published
  | released
  deriving DecidableEq, Repr

/-- What one process is doing: its record, what it has written into the mutex it holds, how far its
record is published, the lock it last read, whether it judged that stale and found it again, what it
has written into its temp file, and whether it is past `acquireInstanceLock` and not past its release. -/
structure Proc where
  me : Option LockRecord
  inMutex : Option Text
  stage : Publication
  seen : Option Entry
  stale : Bool
  verified : Bool
  tmp : Option Text
  holding : Bool
  deriving DecidableEq, Repr

/-- A process before its first step: it owns no file and has judged nothing. -/
def Proc.new : Proc := ⟨none, none, .idle, none, false, false, none, false⟩

/-- What a filesystem call or a probe needs to be told: its turn, whether hard links work, whether a
foreign pid is alive, and what a pid's command line reads as. -/
inductive Syscall where
  | turn
  | link
  | alive (pid : ℕ)
  | describe (pid : ℕ)
  deriving DecidableEq, Repr

/-- What the host answers a call with. -/
def Syscall.Reply : Syscall → Type
  | .turn => Unit
  | .link => Bool
  | .alive _ => Bool
  | .describe _ => Option Text

/-- A process stops. -/
inductive Stop where
  | crashed
  | notStarted
  deriving DecidableEq, Repr

/-- Processes of one host. -/
abbrev lockSig : Sig where
  Shared := Host
  Ledger := Proc
  Err := Stop
  Req := Syscall
  Reply := Syscall.Reply
  Rejects _ := False

abbrev Prog (α : Type) : Type := Coro lockSig α

variable {α : Type}

/-- One call of process `pid`, at a moment of the scheduler's choosing. -/
def syscall (pid : ℕ) (q : Syscall) (op : q.Reply → Host → Proc → α × Host × Proc) : Prog α :=
  .await (σ := lockSig) q fun r =>
    match r with
    | .error e => .throw e
    | .ok reply => .get fun s l =>
      if s.crashed pid then .throw .crashed
      else .put (op reply s l).2.1 (op reply s l).2.2 (.ret (op reply s l).1)

/-- One more character of a file that the process has open. -/
def Entry.append (pid : ℕ) (c : Char) (e : Entry) : Entry :=
  if e.author = some pid then { e with text := e.text ++ [c] } else e

/-! ## The break mutex -/

/-- An error a step throws: `EEXIST`, or one that no step catches. -/
inductive LockError where
  | eexist
  | mutexBusy
  | heldBy (pid : ℕ)
  | retaken
  deriving DecidableEq, Repr

/-- The text of a refusal, for the lock at `file`. -/
def LockError.message (file : String) : LockError → String
  | .eexist => s!"EEXIST: file already exists, open '{file}'"
  | .mutexBusy => s!"The xchain-encoder instance-lock stale-break mutex stayed busy at {file}.break" ++
      ". Refusing to reclaim it automatically because its owner may only be paused. " ++
      "After confirming no encoder is starting, remove this mutex and retry."
  | .heldBy pid => s!"Another xchain-encoder instance (pid {pid}) holds the instance lock {file}" ++
      ". The outpoint-reservation, recent-build, envelope-cancel owner and reservation-ticket " ++
      "stores are in-process; running two encoder instances against one UTXO set risks conflicting " ++
      "double-spend PSBTs, and lets one transaction be built twice and journaled as two successes. " ++
      "Stop the other instance, or set ENCODER_INSTANCE_LOCK_FILE to isolate intentionally " ++
      "separate deployments."
  | .retaken => s!"Another xchain-encoder instance keeps re-taking the instance lock {file}" ++
      " faster than this one can. Stop the other instance, or set ENCODER_INSTANCE_LOCK_FILE to " ++
      "isolate intentionally separate deployments."

section Protocol

variable (format : LockFormat) (me : LockRecord)

/-- Create the break mutex, unless it is there. -/
def openMutex : Prog Bool := syscall me.pid .turn fun _ s l =>
  match s.mutex with
  | none => (true, { s with mutex := some ⟨[], some me.pid⟩ }, { l with inMutex := some [] })
  | some _ => (false, s, l)

/-- Write the token into the mutex, one character a turn. -/
def writeMutex : Text → Prog Unit
  | [] => .ret ()
  | c :: cs => (syscall me.pid .turn fun _ s l => ((), { s with mutex := s.mutex.map (·.append me.pid c) },
      { l with inMutex := l.inMutex.map (· ++ [c]) })).bind fun _ => writeMutex cs

/-- The mutex's text, or that there is none. -/
def readMutex : Prog (Option Text) := syscall me.pid .turn fun _ s l =>
  (s.mutex.map Entry.text, s, l)

/-- Remove the mutex, whoever created it. -/
def unlinkMutex : Prog Unit := syscall me.pid .turn fun _ s l =>
  ((), { s with mutex := none }, { l with inMutex := none })

/-- How often a busy mutex is tried again. -/
def mutexWaitPasses : ℕ := 50

/-- Wait for the mutex; one that stays busy is a refusal. -/
def acquireBreakMutex : ℕ → Prog (Except LockError Unit)
  | 0 => .ret (.error .mutexBusy)
  | attempts + 1 => (openMutex me).bind fun opened =>
    if opened then (writeMutex me me.token).bind fun _ => .ret (.ok ())
    else acquireBreakMutex attempts

/-- Remove the mutex if it still carries this process's token. -/
def releaseBreakMutex : Prog Unit := (readMutex me).bind fun text =>
  if text = some me.token then unlinkMutex me else .ret ()

/-- Run an action under the mutex and release it, however the action ends. -/
def withStaleBreakMutex (action : Prog (Except LockError Unit)) : Prog (Except LockError Unit) :=
  (acquireBreakMutex me mutexWaitPasses).bind fun acquired =>
    match acquired with
    | .error e => .ret (.error e)
    | .ok _ => action.bind fun result => (releaseBreakMutex me).bind fun _ => .ret result

/-! ## Publication -/

/-- Create the temp file of this pid, unless one is left there. -/
def openTmp : Prog Bool := syscall me.pid .turn fun _ s l =>
  match s.tmp me.pid with
  | none => (true, { s with tmp := Function.update s.tmp me.pid (some []) }, { l with tmp := some [] })
  | some _ => (false, s, l)

/-- Write the record into the temp file, one character a turn. -/
def writeTmp : Text → Prog Unit
  | [] => .ret ()
  | c :: cs => (syscall me.pid .turn fun _ s l => ((),
      { s with tmp := Function.update s.tmp me.pid ((s.tmp me.pid).map (· ++ [c])) },
      { l with tmp := l.tmp.map (· ++ [c]) })).bind fun _ => writeTmp cs

/-- Remove the temp file. -/
def unlinkTmp : Prog Unit := syscall me.pid .turn fun _ s l =>
  ((), { s with tmp := Function.update s.tmp me.pid none }, { l with tmp := none })

/-- What a hard link comes to. -/
inductive Linked where
  | linked
  | eexist
  | noHardlink
  deriving DecidableEq, Repr

/-- Publish the temp file under the lock's name. -/
def linkTmp : Prog Linked := syscall me.pid .link fun hardLinks s l =>
  match hardLinks, s.lock, s.tmp me.pid with
  | false, _, _ => (.noHardlink, s, l)
  | true, none, some text =>
    (.linked, { s with lock := some ⟨text, some me.pid⟩ }, { l with stage := .published })
  | true, _, _ => (.eexist, s, l)

/-- Create the lock itself, empty, unless it is there. -/
def openLock : Prog Bool := syscall me.pid .turn fun _ s l =>
  match s.lock with
  | none => (true, { s with lock := some ⟨[], some me.pid⟩ }, { l with stage := .writing [] })
  | some _ => (false, s, l)

/-- The record is published once all of it is written. -/
def Publication.write (record : Text) (c : Char) : Publication → Publication
  | .writing done => if done ++ [c] = record then .published else .writing (done ++ [c])
  | stage => stage

/-- Write the record into the lock, one character a turn. -/
def writeLock : Text → Prog Unit
  | [] => .ret ()
  | c :: cs => (syscall me.pid .turn fun _ s l => ((), { s with lock := s.lock.map (·.append me.pid c) },
      { l with stage := l.stage.write (format.stringify me) c })).bind fun _ => writeLock cs

/-- The publication without hard links: create the lock, then write it. -/
def publishInPlace : Prog (Except LockError Unit) := (openLock me).bind fun opened =>
  if opened then (writeLock format me (format.stringify me)).bind fun _ => .ret (.ok ())
  else .ret (.error .eexist)

/-- Write the record beside the lock and link it into place; where links are refused, write the
lock in place. -/
def publishAction : Prog (Except LockError Unit) := (openTmp me).bind fun opened =>
  if opened then (writeTmp me (format.stringify me)).bind fun _ => (linkTmp me).bind fun result =>
    match result with
    | .linked => (unlinkTmp me).bind fun _ => .ret (.ok ())
    | .eexist => (unlinkTmp me).bind fun _ => .ret (.error .eexist)
    | .noHardlink => (publishInPlace format me).bind fun result =>
      (unlinkTmp me).bind fun _ => .ret result
  else .ret (.error .eexist)

/-- The publication, under the break mutex. -/
def publishLock : Prog (Except LockError Unit) := withStaleBreakMutex me (publishAction format me)

/-! ## Judging a lock -/

/-- The lock's text; what was seen is what a later judgement is about. -/
def readLock : Prog (Option Text) := syscall me.pid .turn fun _ s l =>
  (s.lock.map Entry.text, s, { l with seen := s.lock, stale := false })

/-- How often a lock without a pid is read again before it is judged. -/
def initializingRecheckPasses : ℕ := 10

/-- Read the lock until it names a pid, a bounded number of times. -/
def readLockHolderSettled : ℕ → Prog (Option Text)
  | 0 => readLock me
  | passes + 1 => (readLock me).bind fun text =>
    if (format.reading text).pid.isSome then .ret text else readLockHolderSettled passes

/-- The truth about a pid of these processes; any answer about another. -/
def Host.alive (s : Host) (pid : ℕ) (reply : Bool) : Bool :=
  match s.started pid with
  | some _ => !s.crashed pid
  | none => reply

/-- The command line of a live process of these, as it recorded it, or that it cannot be told; any
answer about another. -/
def Host.describe (s : Host) (pid : ℕ) (reply : Option Text) : Option Text :=
  match s.started pid with
  | some r => if s.crashed pid then reply else if reply.isSome then orNull r.cmd else none
  | none => reply

/-- Ask the host whether a pid is alive. -/
def probeAlive (pid : ℕ) : Prog Bool := syscall me.pid (.alive pid) fun reply s l =>
  (s.alive pid reply, s, l)

/-- Ask the host for a pid's command line. -/
def probeDescription (pid : ℕ) : Prog (Option Text) := syscall me.pid (.describe pid) fun reply s l =>
  (s.describe pid reply, s, l)

/-- The lock last read is judged stale. -/
def judgeStale : Prog (Except LockError Unit) :=
  .get fun s l => .put s { l with stale := true } (.ret (.ok ()))

/-- A live pid is not the process that wrote the lock: its command line is another one, or no
encoder's where none was recorded. -/
def reusedPid (holder : Reading) (liveCmd : Option Text) : Bool :=
  (holder.cmd.isSome && liveCmd.isSome && liveCmd ≠ holder.cmd) ||
    (holder.cmd.isNone && liveCmd.any fun cmd => !looksLikeEncoder cmd)

/-- A live holder refuses the acquisition, unless its pid was reused. -/
def refuseLiveEncoder (holder : Reading) (pid : ℕ) : Prog (Except LockError Unit) :=
  (probeDescription me pid).bind fun liveCmd =>
    if reusedPid holder liveCmd then judgeStale else .ret (.error (.heldBy pid))

/-- The lock is stale unless its pid is another process's, alive and not reused. -/
def judge (holder : Reading) : Prog (Except LockError Unit) :=
  match holder.pid with
  | none => judgeStale
  | some pid =>
    if pid ≤ 0 then judgeStale
    else (probeAlive me pid.toNat).bind fun isAlive =>
      if isAlive && pid ≠ me.pid then refuseLiveEncoder me holder pid.toNat else judgeStale

/-! ## Breaking a stale lock -/

/-- Read the lock again, under the mutex. -/
def rereadLock (staleText : Option Text) : Prog Bool := syscall me.pid .turn fun _ s l =>
  let found := s.lock.isSome && s.lock.map Entry.text = staleText
  (found, s, { l with verified := found })

/-- Remove the lock that was judged stale. -/
def unlinkStale : Prog Unit := syscall me.pid .turn fun _ s l =>
  ((), { s with
    lock := none
    removals := s.removals ++ s.lock.toList.map fun e =>
      ⟨me.pid, e, .broke (if l.stale then l.seen else none)⟩ },
    { l with verified := false })

/-- How often a broken lock is contended again. -/
def breakPasses : ℕ := 5

/-- Remove the stale lock under the mutex, if it still reads as it was judged. -/
def breakStaleLock (staleText : Option Text) : Prog (Except LockError Unit) :=
  withStaleBreakMutex me ((rereadLock me staleText).bind fun found =>
    if found then (unlinkStale me).bind fun _ => .ret (.ok ()) else .ret (.ok ()))

/-! ## Acquiring and releasing -/

/-- One pass of an acquisition; `again` is the next one. -/
def acquirePass (again : Prog (Except LockError Unit)) : Prog (Except LockError Unit) :=
  (publishLock format me).bind fun published =>
    match published with
    | .error .eexist =>
      (readLockHolderSettled format me initializingRecheckPasses).bind fun text =>
        (judge me (format.reading text)).bind fun judged =>
          match judged with
          | .error e => .ret (.error e)
          | .ok _ => (breakStaleLock me text).bind fun broken =>
            match broken with
            | .error e => .ret (.error e)
            | .ok _ => again
    | result => .ret result

/-- The passes of an acquisition; the last failure is that the lock is retaken. -/
def acquirePasses : ℕ → Prog (Except LockError Unit)
  | 0 => acquirePass format me (.ret (.error .retaken))
  | passes + 1 => acquirePass format me (acquirePasses passes)

/-- Acquire the lock, or refuse to start. -/
def acquireInstanceLock : Prog (Except LockError Unit) := acquirePasses format me breakPasses

/-- The lock's text at the release. -/
def readForRelease : Prog (Option Text) := syscall me.pid .turn fun _ s l =>
  (s.lock.map Entry.text, s, l)

/-- Remove the lock at the release. -/
def unlinkOwn : Prog Unit := syscall me.pid .turn fun _ s l =>
  ((), { s with
    lock := none
    removals := s.removals ++ s.lock.toList.map fun e => ⟨me.pid, e, .released⟩ },
    { l with stage := .released, holding := false })

/-- Remove the lock if it still carries this process's token. -/
def lockReleaser : Prog Unit := (readForRelease me).bind fun text =>
  if (format.reading text).token = some me.token then unlinkOwn me
  else .get fun s l => .put s { l with holding := false } (.ret ())

/-! ## Processes -/

/-- A process begins with a pid of its own and a record that the lock does not hold already. -/
def begin_ : Prog Unit := .get fun s l =>
  if (s.started me.pid).isSome || me.pid = 0 || me.token = [] || s.initial = some (format.stringify me)
  then .throw .notStarted
  else .put { s with started := Function.update s.started me.pid (some me) } { l with me := some me }
    (.ret ())

/-- The process holds the lock until it releases it. -/
def hold : Prog Unit := .get fun s l => .put s { l with holding := true } (lockReleaser format me)

/-- One process: it acquires the lock, serves, and releases it when it is told to stop. -/
def serve : Prog Unit := (begin_ format me).bind fun _ =>
  (acquireInstanceLock format me).bind fun acquired =>
    match acquired with
    | .error _ => .ret ()
    | .ok _ => hold format me

end Protocol

/-- A process starts, or one that has started crashes or exits. -/
inductive LockCommand where
  | serve (me : LockRecord)
  | crash (pid : ℕ)
  deriving DecidableEq, Repr

/-- A process is gone; its files stay. -/
def crash (pid : ℕ) : Prog Unit := .get fun s l =>
  .put { s with crashed := Function.update s.crashed pid true } l (.ret ())

/-- The program of each command. -/
def lockProgram (format : LockFormat) : LockCommand → Prog Unit
  | .serve me => serve format me
  | .crash pid => crash pid

abbrev LockWorld : Type := World lockSig LockCommand Unit
abbrev LockCfg : Type := Cfg lockSig LockCommand Unit
abbrev LockCall : Type := Call lockSig LockCommand Unit
abbrev LockEvent : Type := Event lockSig LockCommand

/-- A host on which nothing has started; `tmp` are temp files that were left behind. -/
def Host.before (lock mutex : Option Text) (tmp : ℕ → Option Text) : Host where
  lock := lock.map fun text => ⟨text, none⟩
  mutex := mutex.map fun text => ⟨text, none⟩
  tmp := tmp
  started _ := none
  crashed _ := false
  initial := lock
  removals := []

/-- The run of a list of events from a host. -/
def lockRun (format : LockFormat) (host : Host) (events : List LockEvent) : LockWorld :=
  run (lockProgram format) Proc.new (World.init 0 host) events

end XChain.InstanceLock
