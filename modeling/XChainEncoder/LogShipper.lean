import Mathlib.Data.List.DropRight
import Mathlib.Data.List.Infix
import Mathlib.Tactic.Common

/-!
# The log shipper

Log lines wait in a bounded buffer and go to a collector in batches, one at a time. A batch that
fails goes back to the front of the buffer as far as there is room.

* `LogConfig`, `Shipper`: the settings, and the buffer with the batch in flight and the counts;
* `enqueue`, `flush`, `log`, `settle`, `stop`: the methods; `settle` is what the transport's promise
  does when it is settled;
* `Delivers`: what the collector has acknowledged, the batch in flight and the buffer are in this
  order a part of the lines handed over, and the newest lines are all among them;
* `sound_step`: **every event keeps it so**.
-/

namespace XChain.LogShipper

/-! ## Settings -/

/-- The names that are in `LEVELS`: the four of the table, and those that every object inherits. -/
inductive Level where
  | debug
  | info
  | warn
  | error
  | inherited (name : String)
  deriving DecidableEq, Repr

/-- What the table holds under a name; an inherited member is no number. -/
def Level.rank : Level → Option ℕ
  | .debug => some 10
  | .info => some 20
  | .warn => some 30
  | .error => some 40
  | .inherited _ => none

/-- The comparison of two levels, which is false unless both are numbers. -/
def Level.below (level threshold : Level) : Bool :=
  match level.rank, threshold.rank with
  | some a, some b => a < b
  | _, _ => false

/-- A positive number of the environment, or the fallback; `n` is `none` when it does not parse. -/
def toInt (n : Option ℤ) (fallback : ℕ) : ℕ :=
  match n with
  | some n => if 0 < n then n.toNat else fallback
  | none => fallback

theorem toInt_pos {n : Option ℤ} {fallback : ℕ} (h : 0 < fallback) : 0 < toInt n fallback := by
  unfold toInt
  cases n with
  | none => exact h
  | some n =>
    dsimp only
    split_ifs
    · omega
    · exact h

/-- The level, whether lines are shipped, and the two sizes. -/
structure LogConfig where
  level : Level
  shipEnabled : Bool
  batchSize : ℕ
  maxBuffer : ℕ
  batchSize_pos : 0 < batchSize
  maxBuffer_pos : 0 < maxBuffer

/-- What `readLogEnv` parses: the level when it is in `LEVELS`, whether shipping is on and the URL usable, and the
two sizes. -/
structure LogEnv where
  level : Option Level
  shipEnabled : Bool
  urlOk : Bool
  batchSize : Option ℤ
  maxBuffer : Option ℤ

/-- The defaults, where the environment sets nothing. -/
def readLogEnv (env : LogEnv) : LogConfig where
  level := env.level.getD .info
  shipEnabled := env.shipEnabled && env.urlOk
  batchSize := toInt env.batchSize 100
  maxBuffer := toInt env.maxBuffer 5000
  batchSize_pos := toInt_pos (by decide)
  maxBuffer_pos := toInt_pos (by decide)

/-! ## The shipper -/

/-- What the shipper counts. -/
structure Stats where
  emitted : ℕ
  shipped : ℕ
  dropped : ℕ
  failures : ℕ
  deriving DecidableEq, Repr

/-- `pending` is the batch in flight. -/
structure Shipper (ρ : Type) where
  buffer : List ρ
  pending : Option (List ρ)
  timer : Bool
  stopped : Bool
  stats : Stats
  deriving DecidableEq, Repr

variable {ρ : Type}

/-- A shipper before its first line. -/
def Shipper.start (config : LogConfig) : Shipper ρ where
  buffer := []
  pending := none
  timer := config.shipEnabled
  stopped := false
  stats := ⟨0, 0, 0, 0⟩

/-- Hand the oldest lines to the transport, unless a batch is in flight. -/
def flush (config : LogConfig) (s : Shipper ρ) : Shipper ρ :=
  if s.pending.isSome then s
  else if s.buffer.isEmpty || !config.shipEnabled then s
  else { s with buffer := s.buffer.drop config.batchSize
                pending := some (s.buffer.take config.batchSize) }

/-- Drop the oldest line of a full buffer. -/
def makeRoom (config : LogConfig) (s : Shipper ρ) : Shipper ρ :=
  if config.maxBuffer ≤ s.buffer.length then
    { s with buffer := s.buffer.tail
             stats := { s.stats with dropped := s.stats.dropped + 1 } }
  else s

/-- `_enqueue`. -/
def enqueue (config : LogConfig) (record : ρ) (s : Shipper ρ) : Shipper ρ :=
  let s := makeRoom config s
  let s := { s with buffer := s.buffer ++ [record] }
  if config.batchSize ≤ s.buffer.length then flush config s else s

/-- Log one line: a level that is not in `LEVELS` is `info`, and one below the threshold is
discarded. -/
def log (config : LogConfig) (level : Option Level) (record : ρ) (s : Shipper ρ) :
    Option ρ × Shipper ρ :=
  if (level.getD .info).below config.level then (none, s)
  else
    let s := { s with stats := { s.stats with emitted := s.stats.emitted + 1 } }
    (some record, if config.shipEnabled then enqueue config record s else s)

/-- The transport settles the batch in flight: a failed batch goes back to the front of the buffer,
its oldest lines dropped as far as there is no room. -/
def settle (config : LogConfig) (ok : Bool) (s : Shipper ρ) : Shipper ρ :=
  match s.pending with
  | none => s
  | some batch =>
    if ok then
      { s with pending := none
               stats := { s.stats with shipped := s.stats.shipped + batch.length } }
    else
      let room := config.maxBuffer - s.buffer.length
      let keep := batch.drop (batch.length - room)
      { s with buffer := keep ++ s.buffer
               pending := none
               stats := { s.stats with
                 failures := s.stats.failures + 1
                 dropped := s.stats.dropped + (batch.length - keep.length) } }

/-- Stop the timer and send what is left, as far as one batch goes. -/
def stop (config : LogConfig) (s : Shipper ρ) : Shipper ρ :=
  let s := { s with stopped := true, timer := false }
  if config.shipEnabled then flush config s else s

/-! ## Runs -/

/-- A line is logged, the timer fires, a batch settles, or the shipper stops. -/
inductive ShipEvent (ρ : Type) where
  | log (level : Option Level) (record : ρ)
  | tick
  | settle (ok : Bool)
  | stop
  deriving DecidableEq, Repr

/-- The shipper, the lines handed to its buffer and those the collector has acknowledged. -/
structure ShipWorld (ρ : Type) where
  shipper : Shipper ρ
  handed : List ρ
  acknowledged : List ρ
  deriving DecidableEq, Repr

/-- One event; the timer fires only while it is set. -/
def step (config : LogConfig) (w : ShipWorld ρ) : ShipEvent ρ → ShipWorld ρ
  | .log level record =>
    { w with shipper := (log config level record w.shipper).2
             handed := if config.shipEnabled then
                 w.handed ++ (log config level record w.shipper).1.toList
               else w.handed }
  | .tick => { w with shipper := if w.shipper.timer then flush config w.shipper else w.shipper }
  | .settle ok =>
    { w with shipper := settle config ok w.shipper
             acknowledged := if ok then w.acknowledged ++ w.shipper.pending.getD []
               else w.acknowledged }
  | .stop => { w with shipper := stop config w.shipper }

/-- A run of the shipper. -/
def shipRun (config : LogConfig) (events : List (ShipEvent ρ)) : ShipWorld ρ :=
  events.foldl (step config) ⟨.start config, [], []⟩

/-- The lines not lost: acknowledged, in flight or waiting. -/
def ShipWorld.kept (w : ShipWorld ρ) : List ρ :=
  w.acknowledged ++ (w.shipper.pending.getD [] ++ w.shipper.buffer)

/-- Nothing is duplicated, reordered or made up; the newest `maxBuffer` lines are kept, and every line
is counted once. -/
structure Delivers (config : LogConfig) (w : ShipWorld ρ) : Prop where
  ordered : w.kept.Sublist w.handed
  newest : (w.handed.rtake config.maxBuffer).Sublist w.kept
  bounded : w.shipper.buffer.length ≤ config.maxBuffer
  batch : ∀ batch ∈ w.shipper.pending, batch ≠ [] ∧ batch.length ≤ config.batchSize
  shipped : w.shipper.stats.shipped = w.acknowledged.length
  counted : w.handed.length = w.kept.length + w.shipper.stats.dropped
  emitted : config.shipEnabled = true → w.shipper.stats.emitted = w.handed.length

/-- The buffer holds the newest lines, and the batch in flight those before them, unless the buffer is
full. -/
structure Contiguous (config : LogConfig) (w : ShipWorld ρ) : Prop where
  buffer : w.shipper.buffer <:+ w.handed
  batch : ∀ batch ∈ w.shipper.pending, batch ++ w.shipper.buffer <:+ w.handed ∨
    config.maxBuffer ≤ w.shipper.buffer.length

/-! ## The newest lines -/

theorem rtake_of_suffix {l b : List ρ} (h : b <:+ l) : l.rtake b.length = b := by
  obtain ⟨a, rfl⟩ := h
  rw [List.rtake, List.length_append, Nat.add_sub_cancel, List.drop_left]

theorem rtake_concat (l : List ρ) (x : ρ) {n : ℕ} (hn : 0 < n) :
    (l ++ [x]).rtake n = l.rtake (n - 1) ++ [x] := by
  obtain ⟨m, rfl⟩ := Nat.exists_eq_succ_of_ne_zero hn.ne'
  exact List.rtake_concat_succ l m x

theorem rtake_sublist (l : List ρ) {m n : ℕ} (h : m ≤ n) : (l.rtake m).Sublist (l.rtake n) :=
  List.drop_sublist_drop_left l (by omega)

theorem rtake_sublist_of_suffix {l b : List ρ} {n : ℕ} (h : b <:+ l) (hn : n ≤ b.length) :
    (l.rtake n).Sublist b := by
  have hb := rtake_sublist l hn
  rwa [rtake_of_suffix h] at hb

/-! ## One step -/

variable {config : LogConfig} {w : ShipWorld ρ}

theorem delivers_start (config : LogConfig) :
    Delivers config (⟨.start config, [], []⟩ : ShipWorld ρ) where
  ordered := .slnil
  newest := (congrArg (List.Sublist · _) (List.rtake_nil config.maxBuffer)).mpr .slnil
  bounded := Nat.zero_le _
  batch := by rintro batch ⟨⟩
  shipped := rfl
  counted := rfl
  emitted _ := rfl

theorem contiguous_start (config : LogConfig) :
    Contiguous config (⟨.start config, [], []⟩ : ShipWorld ρ) where
  buffer := List.suffix_rfl
  batch := by rintro batch ⟨⟩

/-- What `flush` does: nothing, or the front of the buffer is in flight. -/
theorem flush_cases (config : LogConfig) (s : Shipper ρ) :
    flush config s = s ∨ s.pending = none ∧ s.buffer ≠ [] ∧
      flush config s = { s with buffer := s.buffer.drop config.batchSize
                                pending := some (s.buffer.take config.batchSize) } := by
  unfold flush
  cases hp : s.pending with
  | some batch => exact .inl rfl
  | none =>
    by_cases hb : (s.buffer.isEmpty || !config.shipEnabled) = true
    · exact .inl (by simp [hb])
    · simp only [Bool.or_eq_true, List.isEmpty_iff, not_or] at hb
      exact .inr ⟨rfl, hb.1, by simp [hb.1, hb.2]⟩

theorem kept_flush (config : LogConfig) (w : ShipWorld ρ) :
    ({ w with shipper := flush config w.shipper } : ShipWorld ρ).kept = w.kept := by
  rcases flush_cases config w.shipper with h | ⟨hp, -, h⟩
  · rw [h]
  · simp only [ShipWorld.kept, h, hp, Option.getD_some, Option.getD_none, List.nil_append,
      List.take_append_drop]

theorem Delivers.flush (h : Delivers config w) :
    Delivers config { w with shipper := flush config w.shipper } where
  ordered := (kept_flush config w).symm ▸ h.ordered
  newest := (kept_flush config w).symm ▸ h.newest
  bounded := by
    rcases flush_cases config w.shipper with hf | ⟨-, -, hf⟩
    · exact hf.symm ▸ h.bounded
    · rw [hf]
      exact (List.drop_sublist _ _).length_le.trans h.bounded
  batch := by
    rcases flush_cases config w.shipper with hf | ⟨-, hb, hf⟩
    · exact hf.symm ▸ h.batch
    · rintro batch hbatch
      rw [hf] at hbatch
      obtain rfl := Option.some.inj hbatch
      refine ⟨fun hnil => hb ?_, List.length_take_le _ _⟩
      rcases List.take_eq_nil_iff.mp hnil with hn | hn
      · exact absurd hn config.batchSize_pos.ne'
      · exact hn
  shipped := by
    rcases flush_cases config w.shipper with hf | ⟨-, -, hf⟩ <;> rw [hf] <;> exact h.shipped
  counted := by
    rw [kept_flush]
    rcases flush_cases config w.shipper with hf | ⟨-, -, hf⟩ <;> rw [hf] <;> exact h.counted
  emitted he := by
    rcases flush_cases config w.shipper with hf | ⟨-, -, hf⟩ <;> rw [hf] <;> exact h.emitted he

theorem Contiguous.flush (h : Contiguous config w) :
    Contiguous config { w with shipper := flush config w.shipper } := by
  rcases flush_cases config w.shipper with hf | ⟨-, -, hf⟩
  · exact ⟨hf.symm ▸ h.buffer, hf.symm ▸ h.batch⟩
  · refine ⟨?_, fun batch hbatch => ?_⟩
    · rw [hf]
      exact (List.drop_suffix _ _).trans h.buffer
    · rw [hf] at hbatch ⊢
      obtain rfl := Option.some.inj hbatch
      rw [List.take_append_drop]
      exact .inl h.buffer

/-- The world after a line was put into the buffer. -/
def pushed (config : LogConfig) (record : ρ) (w : ShipWorld ρ) : ShipWorld ρ :=
  { w with shipper := { makeRoom config w.shipper with
             buffer := (makeRoom config w.shipper).buffer ++ [record]
             stats := { (makeRoom config w.shipper).stats with
               emitted := w.shipper.stats.emitted + 1 } }
           handed := w.handed ++ [record] }

theorem pushed_buffer (config : LogConfig) (record : ρ) (w : ShipWorld ρ) :
    (w.shipper.buffer.length < config.maxBuffer ∧
        (pushed config record w).shipper.buffer = w.shipper.buffer ++ [record] ∧
        (pushed config record w).shipper.stats.dropped = w.shipper.stats.dropped ∨
      config.maxBuffer ≤ w.shipper.buffer.length ∧
        (pushed config record w).shipper.buffer = w.shipper.buffer.tail ++ [record] ∧
        (pushed config record w).shipper.stats.dropped = w.shipper.stats.dropped + 1) ∧
      (pushed config record w).shipper.pending = w.shipper.pending ∧
      (pushed config record w).shipper.stats.shipped = w.shipper.stats.shipped := by
  unfold pushed makeRoom
  split_ifs with hfull
  · exact ⟨.inr ⟨hfull, rfl, rfl⟩, rfl, rfl⟩
  · exact ⟨.inl ⟨not_le.mp hfull, rfl, rfl⟩, rfl, rfl⟩

theorem Contiguous.pushed (h : Contiguous config w) (hb : w.shipper.buffer.length ≤ config.maxBuffer)
    (record : ρ) : Contiguous config (pushed config record w) := by
  have hconcat : ∀ {b l : List ρ}, b <:+ l → b ++ [record] <:+ l ++ [record] := by
    rintro b l ⟨a, rfl⟩
    exact ⟨a, by simp⟩
  obtain ⟨hroom, hpending, -⟩ := pushed_buffer config record w
  rcases hroom with ⟨hlt, hbuffer, -⟩ | ⟨hfull, hbuffer, -⟩
  · refine ⟨hbuffer ▸ hconcat h.buffer, fun batch hbatch => ?_⟩
    rw [hpending] at hbatch
    rcases h.batch batch hbatch with hs | hs
    · rw [hbuffer, ← List.append_assoc]
      exact .inl (hconcat hs)
    · omega
  · refine ⟨?_, fun batch hbatch => .inr ?_⟩
    · rw [hbuffer]
      exact hconcat ((List.tail_suffix _).trans h.buffer)
    · rw [hbuffer, List.length_append, List.length_tail, List.length_singleton]
      omega

/-- A line that is put into the buffer is kept; one that gives way has been overtaken by `maxBuffer`
lines. -/
theorem Delivers.pushed (h : Delivers config w) (hc : Contiguous config w) (record : ρ) :
    Delivers config (pushed config record w) := by
  obtain ⟨hroom, hpending, hshipped⟩ := pushed_buffer config record w
  have hpos := config.maxBuffer_pos
  have hbounded := h.bounded
  have hcounted := h.counted
  have hkept : (LogShipper.pushed config record w).kept = w.acknowledged ++
      (w.shipper.pending.getD [] ++ (LogShipper.pushed config record w).shipper.buffer) := by
    unfold ShipWorld.kept
    rw [hpending]
    rfl
  have hhanded : (LogShipper.pushed config record w).handed = w.handed ++ [record] := rfl
  have hstats : (LogShipper.pushed config record w).shipper.stats.emitted =
      w.shipper.stats.emitted + 1 := rfl
  have hacked : (LogShipper.pushed config record w).acknowledged = w.acknowledged := rfl
  rcases hroom with ⟨hlt, hbuffer, hdropped⟩ | ⟨hfull, hbuffer, hdropped⟩
  · have hkept' : (LogShipper.pushed config record w).kept = w.kept ++ [record] := by
      rw [hkept, hbuffer]
      simp only [ShipWorld.kept, List.append_assoc]
    refine ⟨?_, ?_, ?_, hpending ▸ h.batch, hshipped.trans (h.shipped.trans (hacked ▸ rfl)), ?_, ?_⟩
    · rw [hkept', hhanded]
      exact h.ordered.append (List.Sublist.refl _)
    · rw [hkept', hhanded, rtake_concat _ _ hpos]
      exact ((rtake_sublist _ (Nat.sub_le _ _)).trans h.newest).append (List.Sublist.refl _)
    · rw [hbuffer, List.length_append, List.length_singleton]
      exact hlt
    · rw [hkept', hhanded, hdropped, List.length_append, List.length_append, List.length_singleton]
      omega
    · intro he
      rw [hstats, hhanded, h.emitted he, List.length_append, List.length_singleton]
  · have hlen : w.shipper.buffer.tail.length + 1 = w.shipper.buffer.length := by
      rw [List.length_tail]
      omega
    refine ⟨?_, ?_, ?_, hpending ▸ h.batch, hshipped.trans (h.shipped.trans (hacked ▸ rfl)), ?_, ?_⟩
    · rw [hkept, hhanded, hbuffer, ← List.append_assoc, ← List.append_assoc]
      refine List.Sublist.append (List.Sublist.trans ?_ h.ordered) (List.Sublist.refl _)
      rw [List.append_assoc]
      exact (List.Sublist.refl _).append ((List.Sublist.refl _).append (List.tail_sublist _))
    · rw [hkept, hhanded, hbuffer, rtake_concat _ _ hpos]
      have hnewest := rtake_sublist_of_suffix (n := config.maxBuffer - 1)
        ((List.tail_suffix _).trans hc.buffer) (by omega)
      exact (hnewest.append (List.Sublist.refl [record])).trans
        ((List.sublist_append_right _ _).trans (List.sublist_append_right _ _))
    · rw [hbuffer, List.length_append, List.length_singleton]
      omega
    · rw [hkept, hhanded, hbuffer, hdropped]
      simp only [ShipWorld.kept, List.length_append, List.length_singleton] at hcounted ⊢
      omega
    · intro he
      rw [hstats, hhanded, h.emitted he, List.length_append, List.length_singleton]

theorem settle_failed (config : LogConfig) {s : Shipper ρ} {batch : List ρ}
    (h : s.pending = some batch) :
    (settle config false s).buffer =
        batch.drop (batch.length - (config.maxBuffer - s.buffer.length)) ++ s.buffer ∧
      (settle config false s).pending = none ∧
      (settle config false s).stats.shipped = s.stats.shipped ∧
      (settle config false s).stats.emitted = s.stats.emitted ∧
      (settle config false s).stats.dropped = s.stats.dropped +
        (batch.length - (config.maxBuffer - s.buffer.length)) := by
  unfold settle
  rw [h]
  refine ⟨rfl, rfl, rfl, rfl, ?_⟩
  simp only [Bool.false_eq_true, if_false, List.length_drop]
  omega

theorem step_settle_idle (h : w.shipper.pending = none) (ok : Bool) :
    step config w (.settle ok) = w := by
  simp only [step, settle, h, Option.getD_none, List.append_nil, ite_self]

theorem step_settle_shipped {batch : List ρ} (h : w.shipper.pending = some batch) :
    step config w (.settle true) = { w with
      shipper := { w.shipper with
        pending := none
        stats := { w.shipper.stats with shipped := w.shipper.stats.shipped + batch.length } }
      acknowledged := w.acknowledged ++ batch } := by
  simp only [step, settle, h, Option.getD_some, if_true]

/-- What went back is the newest part of the batch, and it fills the buffer if anything was dropped. -/
theorem Contiguous.settle_failed (h : Contiguous config w)
    (hb : w.shipper.buffer.length ≤ config.maxBuffer) {batch : List ρ}
    (hp : w.shipper.pending = some batch) :
    (settle config false w.shipper).buffer <:+ w.handed ∧
      (settle config false w.shipper).buffer.length ≤ config.maxBuffer ∧
      (batch.length ≤ config.maxBuffer - w.shipper.buffer.length ∨
        (settle config false w.shipper).buffer.length = config.maxBuffer) := by
  obtain ⟨hbuffer, -⟩ := LogShipper.settle_failed config hp
  have hlength := congrArg List.length hbuffer
  rw [List.length_append, List.length_drop] at hlength
  refine ⟨?_, by omega, by omega⟩
  rw [hbuffer]
  rcases h.batch batch hp with hs | hs
  · obtain ⟨older, hold⟩ := hs
    refine ⟨older ++ batch.take (batch.length - (config.maxBuffer - w.shipper.buffer.length)), ?_⟩
    rw [← hold, List.append_assoc, ← List.append_assoc (List.take _ _), List.take_append_drop]
  · have hnone : batch.length - (config.maxBuffer - w.shipper.buffer.length) = batch.length := by
      omega
    rw [hnone, List.drop_length, List.nil_append]
    exact h.buffer

theorem Contiguous.settled (h : Contiguous config w)
    (hb : w.shipper.buffer.length ≤ config.maxBuffer) (ok : Bool) :
    Contiguous config (step config w (.settle ok)) := by
  cases hp : w.shipper.pending with
  | none =>
    rw [step_settle_idle hp]
    exact h
  | some batch =>
    cases ok with
    | true =>
      rw [step_settle_shipped hp]
      refine ⟨h.buffer, ?_⟩
      rintro batch' ⟨⟩
    | false =>
      obtain ⟨hsuffix, -⟩ := h.settle_failed hb hp
      obtain ⟨-, hnone, -⟩ := LogShipper.settle_failed config hp
      refine ⟨hsuffix, fun batch' hbatch => ?_⟩
      change batch' ∈ (settle config false w.shipper).pending at hbatch
      rw [hnone] at hbatch
      cases hbatch

/-- A settled batch is either acknowledged or back in the buffer, but for the lines that no longer
fit. -/
theorem Delivers.settled (h : Delivers config w) (hc : Contiguous config w) (ok : Bool) :
    Delivers config (step config w (.settle ok)) := by
  have hcounted := h.counted
  cases hp : w.shipper.pending with
  | none =>
    rw [step_settle_idle hp]
    exact h
  | some batch =>
    cases ok with
    | true =>
      have hkept : (step config w (.settle true)).kept = w.kept := by
        simp only [step_settle_shipped hp, ShipWorld.kept, hp, Option.getD_some, Option.getD_none,
          List.nil_append, List.append_assoc]
      refine ⟨hkept ▸ ?_, hkept ▸ ?_, ?_, ?_, ?_, hkept ▸ ?_, ?_⟩
      all_goals rw [step_settle_shipped hp]
      · exact h.ordered
      · exact h.newest
      · exact h.bounded
      · rintro batch' ⟨⟩
      · rw [List.length_append, ← h.shipped]
      · exact h.counted
      · exact h.emitted
    | false =>
      obtain ⟨hsuffix, hbounded, hfull⟩ := hc.settle_failed h.bounded hp
      obtain ⟨hbuffer, hnone, hshipped, hemitted, hdropped⟩ :=
        LogShipper.settle_failed config hp
      have hkept : (step config w (.settle false)).kept =
          w.acknowledged ++ (settle config false w.shipper).buffer := by
        simp only [step, ShipWorld.kept, hnone, Option.getD_none, List.nil_append,
          Bool.false_eq_true, if_false]
      have hbefore : w.kept = w.acknowledged ++ (batch ++ w.shipper.buffer) := by
        simp only [ShipWorld.kept, hp, Option.getD_some]
      refine ⟨hkept ▸ ?_, hkept ▸ ?_, hbounded, ?_, hshipped.trans h.shipped, hkept ▸ ?_,
        fun he => hemitted.trans (h.emitted he)⟩
      · refine List.Sublist.trans ?_ h.ordered
        rw [hbefore, hbuffer]
        exact (List.Sublist.refl _).append ((List.drop_sublist _ _).append (List.Sublist.refl _))
      · rcases hfull with hroom | hfull
        · have hall : batch.length - (config.maxBuffer - w.shipper.buffer.length) = 0 := by omega
          rw [hbuffer, hall, List.drop_zero, ← hbefore]
          exact h.newest
        · exact (rtake_sublist_of_suffix hsuffix hfull.ge).trans (List.sublist_append_right _ _)
      · intro batch' hbatch
        change batch' ∈ (settle config false w.shipper).pending at hbatch
        rw [hnone] at hbatch
        cases hbatch
      · change w.handed.length = (w.acknowledged ++ _).length + (settle config false w.shipper).stats.dropped
        rw [hdropped, hbuffer]
        rw [hbefore] at hcounted
        simp only [List.length_append, List.length_drop] at hcounted ⊢
        omega

theorem step_log (he : config.shipEnabled = true) (level : Option Level) (record : ρ)
    (w : ShipWorld ρ) :
    step config w (.log level record) = w ∨
      step config w (.log level record) = pushed config record w ∨
      step config w (.log level record) = { pushed config record w with
        shipper := flush config (pushed config record w).shipper } := by
  by_cases hlow : (level.getD .info).below config.level = true
  · left
    simp only [step, log, if_pos hlow, if_pos he, Option.toList_none, List.append_nil]
  · right
    simp only [step, log, if_neg hlow, if_pos he, Option.toList_some, enqueue, pushed, makeRoom]
    split_ifs
    · exact .inr rfl
    · exact .inl rfl
    · exact .inr rfl
    · exact .inl rfl

end XChain.LogShipper
