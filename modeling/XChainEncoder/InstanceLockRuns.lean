import Mathlib.Tactic.IntervalCases
import XChainEncoder.InstanceLockSteps
import XChainEncoder.Library

/-!
# Runs of the instance lock

* `Holds`: a live process between the return of its acquisition and its release;
* `lockRun_exclusive`: **at every moment of every run at most one process holds the lock**, and what
  was unlinked was the remover's own lock or the one it had judged stale;
* `jsonLock`: the record as JSON, which reads back and begins no other record;
* `staleBreak`: a run in which a process breaks the lock of one that crashed.
-/

namespace XChain.InstanceLock

open Coroutine

/-- Call `p` is a live process between the return of `acquireInstanceLock` and its release. -/
def Holds (w : LockWorld) (p : ℕ) : Prop :=
  ∃ call r, w.cfg.calls p = some call ∧ call.ledger.me = some r ∧ call.ledger.holding = true ∧
    w.cfg.shared.crashed r.pid = false

theorem LockInv.lock_of_holds {format : LockFormat} {w : LockWorld} (h : LockInv format w.cfg) {p : ℕ}
    (hp : Holds w p) : ∃ call r, w.cfg.calls p = some call ∧ call.ledger.me = some r ∧
      w.cfg.shared.lock = some ⟨format.stringify r, some r.pid⟩ := by
  obtain ⟨call, r, hcall, hr, hholding, hlive⟩ := hp
  have hproc := h.proc p call r hcall hr
  exact ⟨call, r, hcall, hr, hproc.published (hproc.holding hholding) hlive⟩

/-- **Mutual exclusion.** Whatever the lock, the mutex and the temp files were, however the filesystem
calls of the processes interleave and wherever they crash: no two live processes hold the lock, a
release removed the process's own lock, and a breaker removed the lock it had judged stale. -/
theorem lockRun_exclusive (format : LockFormat) (lock mutex : Option Text) (tmp : ℕ → Option Text)
    (events : List LockEvent) :
    (∀ p q, Holds (lockRun format (Host.before lock mutex tmp) events) p →
      Holds (lockRun format (Host.before lock mutex tmp) events) q → p = q) ∧
    ∀ rm ∈ (lockRun format (Host.before lock mutex tmp) events).cfg.shared.removals,
      match rm.cause with
      | .released => rm.entry.author = some rm.pid
      | .broke judged => judged = some rm.entry := by
  have hinv : LockInv format (lockRun format (Host.before lock mutex tmp) events).cfg :=
    (invariant_run (lock_meets format) (LockInv.init format lock mutex tmp) events).inv
  refine ⟨fun p q hp hq => ?_, hinv.host.removals⟩
  obtain ⟨call, r, hcall, hr, hlock⟩ := hinv.lock_of_holds hp
  obtain ⟨call', r', hcall', hr', hlock'⟩ := hinv.lock_of_holds hq
  have hentry := Option.some.inj (hlock.symm.trans hlock')
  exact hinv.unique p q call call' r r' hcall hcall' hr hr' (Option.some.inj (congrArg Entry.author hentry))

/-! ## The record as JSON -/

/-- How JSON writes a control character, after the backslash. -/
def escapeControl (n : ℕ) : Text :=
  if n = 8 then ['b'] else if n = 9 then ['t'] else if n = 10 then ['n']
  else if n = 12 then ['f'] else if n = 13 then ['r']
  else ['u', '0', '0', (n / 16).digitChar, (n % 16).digitChar]

/-- A character inside a JSON string. -/
def escapeChar (c : Char) : Text :=
  if c = '"' ∨ c = '\\' then ['\\', c]
  else if c.toNat < 32 then '\\' :: escapeControl c.toNat
  else [c]

/-- The character of an escape of one letter. -/
def unescape : Char → Option Char
  | '"' => some '"'
  | '\\' => some '\\'
  | '/' => some '/'
  | 'b' => some (.ofNat 8)
  | 't' => some (.ofNat 9)
  | 'n' => some (.ofNat 10)
  | 'f' => some (.ofNat 12)
  | 'r' => some (.ofNat 13)
  | _ => none

/-- Read to the closing quote: the string and what follows it. -/
def unquote : Text → Option (Text × Text)
  | [] => none
  | '"' :: rest => some ([], rest)
  | '\\' :: 'u' :: a :: b :: c :: d :: rest =>
    match hexDigit a, hexDigit b, hexDigit c, hexDigit d with
    | some a, some b, some c, some d =>
      (unquote rest).map fun r => (Char.ofNat (4096 * a + 256 * b + 16 * c + d) :: r.1, r.2)
    | _, _, _, _ => none
  | '\\' :: c :: rest => (unescape c).bind fun c => (unquote rest).map fun r => (c :: r.1, r.2)
  | c :: rest => if c.toNat < 32 then none else (unquote rest).map fun r => (c :: r.1, r.2)

theorem unquote_escapeChar (c : Char) (rest : Text) :
    unquote (escapeChar c ++ rest) = (unquote rest).map fun r => (c :: r.1, r.2) := by
  unfold escapeChar
  split_ifs with hquote hcontrol
  · rcases hquote with rfl | rfl <;> rfl
  · have hc : c = Char.ofNat c.toNat := (Char.ofNat_toNat c).symm
    generalize c.toNat = n at hc hcontrol
    subst hc
    interval_cases n <;> rfl
  · simp only [not_or] at hquote
    rw [List.singleton_append, unquote.eq_def]
    simp [hquote.1, hquote.2, hcontrol]

/-- A text inside a JSON string. -/
def escape (t : Text) : Text := t.flatMap escapeChar

theorem unquote_escape (t rest : Text) : unquote (escape t ++ '"' :: rest) = some (t, rest) := by
  induction t with
  | nil => rfl
  | cons c cs ih =>
    rw [escape, List.flatMap_cons, List.append_assoc, unquote_escapeChar]
    exact congrArg (Option.map fun r => (c :: r.1, r.2)) ih

def pidKey : Text := ['\x7b', '"', 'p', 'i', 'd', '"', ':']
def cmdKey : Text := [',', '"', 'c', 'm', 'd', '"', ':', '"']
def tokenKey : Text := [',', '"', 't', 'o', 'k', 'e', 'n', '"', ':', '"']

/-- The record as `JSON.stringify` writes it. -/
def stringifyRecord (r : LockRecord) : Text :=
  pidKey ++ (Nat.toDigits 10 r.pid ++ (cmdKey ++ (escape r.cmd ++ '"' :: (tokenKey ++
    (escape r.token ++ '"' :: ['\x7d'])))))

/-- Read a record, and what follows it. -/
def parseRecord (text : Text) : Option (LockRecord × Text) :=
  (text.dropPrefix? pidKey).bind fun rest =>
    (((rest.dropWhile Char.isDigit).dropPrefix? cmdKey).bind unquote).bind fun cmd =>
      ((cmd.2.dropPrefix? tokenKey).bind unquote).bind fun token =>
        (token.2.dropPrefix? ['\x7d']).map fun after =>
          (⟨Nat.ofDigitChars 10 (rest.takeWhile Char.isDigit) 0, cmd.1, token.1⟩, after)

theorem dropPrefix?_append (key rest : Text) : (key ++ rest).dropPrefix? key = some rest :=
  List.dropPrefix?_eq_some_iff.mpr ⟨key, rfl, BEq.rfl⟩

theorem span_toDigits (n : ℕ) {c : Char} (hc : c.isDigit = false) (rest : Text) :
    (Nat.toDigits 10 n ++ c :: rest).takeWhile Char.isDigit = Nat.toDigits 10 n ∧
    (Nat.toDigits 10 n ++ c :: rest).dropWhile Char.isDigit = c :: rest := by
  have hdigits : ∀ d ∈ Nat.toDigits 10 n, d.isDigit = true := fun d hd =>
    Nat.isDigit_of_mem_toDigits (by omega) (by omega) hd
  constructor
  · rw [List.takeWhile_append_of_pos hdigits]
    simp [hc]
  · rw [List.dropWhile_append_of_pos hdigits]
    simp [hc]

/-- **A record reads back, whatever follows it.** -/
theorem parseRecord_stringify (r : LockRecord) (rest : Text) :
    parseRecord (stringifyRecord r ++ rest) = some (r, rest) := by
  obtain ⟨hdigits, hafter⟩ := span_toDigits r.pid (c := ',') rfl (cmdKey.tail ++ (escape r.cmd ++
    '"' :: (tokenKey ++ (escape r.token ++ '"' :: (['\x7d'] ++ rest)))))
  have htext : stringifyRecord r ++ rest = pidKey ++ (Nat.toDigits 10 r.pid ++ ',' ::
      (cmdKey.tail ++ (escape r.cmd ++ '"' :: (tokenKey ++ (escape r.token ++
        '"' :: (['\x7d'] ++ rest)))))) := by
    simp [stringifyRecord, cmdKey]
  rw [parseRecord, htext, dropPrefix?_append, Option.bind_some, hdigits, hafter]
  have hcmd : ',' :: (cmdKey.tail ++ (escape r.cmd ++ '"' :: (tokenKey ++ (escape r.token ++
      '"' :: (['\x7d'] ++ rest))))) = cmdKey ++ (escape r.cmd ++ '"' :: (tokenKey ++
        (escape r.token ++ '"' :: (['\x7d'] ++ rest)))) := rfl
  rw [hcmd, dropPrefix?_append, Option.bind_some, unquote_escape, Option.bind_some,
    dropPrefix?_append, Option.bind_some, unquote_escape, Option.bind_some, dropPrefix?_append,
    Nat.ofDigitChars_ten_toDigits]
  rfl

/-- The record as JSON; a text that is no record reads as a bare pid, if it begins with one. -/
def jsonLock : LockFormat where
  stringify := stringifyRecord
  read text :=
    match parseRecord text with
    | some (r, []) => ⟨some r.pid, orNull r.cmd, orNull r.token⟩
    | _ =>
      let digits := (text.dropWhile isJsSpace).takeWhile Char.isDigit
      ⟨if digits = [] then none else some (Nat.ofDigitChars 10 digits 0), none, none⟩
  read_stringify r := by
    have h := parseRecord_stringify r []
    rw [List.append_nil] at h
    rw [h]
  prefix_free r r' := by
    rintro ⟨rest, hrest⟩
    have h := parseRecord_stringify r' []
    rw [List.append_nil, ← hrest, parseRecord_stringify r rest] at h
    cases h
    rfl

/-! ## A stale lock is broken -/

def encoderCmd : Text :=
  ['n', 'o', 'd', 'e', ' ', '.', '/', 's', 'r', 'c', '/', 'a', 'p', 'i', '.', 'j', 's']

def firstRecord : LockRecord := ⟨19, encoderCmd, ['a', '1']⟩
def secondRecord : LockRecord := ⟨20, encoderCmd, ['b', '2']⟩

/-- The next `n` calls of process `p`: hard links work. -/
def callsOf (p n : ℕ) : List LockEvent :=
  List.replicate n (.resume p (fun
    | .turn => .ok ()
    | .link => .ok true
    | .alive _ => .ok true
    | .describe _ => .ok (some encoderCmd)) [])

/-- A process takes the lock and crashes; another judges the lock stale, breaks it and takes it. -/
def staleBreak : List LockEvent :=
  [.start (.serve firstRecord) []] ++ callsOf 0 57 ++ [.start (.crash 19) [],
    .start (.serve secondRecord) []] ++ callsOf 2 123

/-- The breaker alone holds the lock, and what it removed is the record of the crashed process. -/
theorem lockRun_exclusive_staleBreak :
    (∀ p, Holds (lockRun jsonLock (Host.before none none fun _ => none) staleBreak) p → p = 2) ∧
    (lockRun jsonLock (Host.before none none fun _ => none) staleBreak).cfg.shared.removals =
      [⟨20, ⟨stringifyRecord firstRecord, some 19⟩,
        .broke (some ⟨stringifyRecord firstRecord, some 19⟩)⟩] := by
  have hfacts : ((lockRun jsonLock (Host.before none none fun _ => none) staleBreak).cfg.calls 2).map
        (fun call => (call.ledger.me, call.ledger.holding)) = some (some secondRecord, true) ∧
      (lockRun jsonLock (Host.before none none fun _ => none) staleBreak).cfg.shared.crashed 20 =
        false ∧
      (lockRun jsonLock (Host.before none none fun _ => none) staleBreak).cfg.shared.removals =
        [⟨20, ⟨stringifyRecord firstRecord, some 19⟩,
          .broke (some ⟨stringifyRecord firstRecord, some 19⟩)⟩] := by
    decide +kernel
  have hexclusive := (lockRun_exclusive jsonLock none none (fun _ => none) staleBreak).1
  generalize lockRun jsonLock (Host.before none none fun _ => none) staleBreak = w at hfacts hexclusive ⊢
  obtain ⟨hledger, hlive, hremovals⟩ := hfacts
  obtain ⟨call, hcall, hboth⟩ := Option.map_eq_some_iff.mp hledger
  obtain ⟨hme, hholding⟩ := Prod.mk.inj hboth
  exact ⟨fun p hp => hexclusive p 2 hp ⟨call, secondRecord, hcall, hme, hholding, hlive⟩, hremovals⟩

end XChain.InstanceLock
