import XChainEncoder.LogShipper

/-!
# Runs of the log shipper

* `shipRun_delivers`: **in every run what was shipped is a part of what was handed over**;
* `shipRun_drains`: **a collector that recovers gets every line that was kept**.
-/

namespace XChain.LogShipper

variable {ρ : Type} {config : LogConfig} {w : ShipWorld ρ}

/-! ## Runs of events -/

/-- What every step keeps. -/
def Sound (config : LogConfig) (w : ShipWorld ρ) : Prop :=
  Delivers config w ∧ Contiguous config w

theorem Sound.flush (h : Sound config w) :
    Sound config { w with shipper := flush config w.shipper } :=
  ⟨h.1.flush, h.2.flush⟩

theorem Sound.pushed (h : Sound config w) (record : ρ) : Sound config (pushed config record w) :=
  ⟨h.1.pushed h.2 record, h.2.pushed h.1.bounded record⟩

theorem Sound.logged (h : Sound config w) (level : Option Level) (record : ρ) :
    Sound config (step config w (.log level record)) := by
  cases he : config.shipEnabled with
  | true =>
    rcases step_log he level record w with hw | hw | hw
    · exact hw.symm ▸ h
    · exact hw.symm ▸ h.pushed record
    · exact hw.symm ▸ (h.pushed record).flush
  | false =>
    have hquiet : ∀ (hoff : ¬ config.shipEnabled = true) (emitted : ℕ), Sound config { w with
        shipper := { w.shipper with stats := { w.shipper.stats with emitted := emitted } } } :=
      fun hoff _ => ⟨⟨h.1.ordered, h.1.newest, h.1.bounded, h.1.batch, h.1.shipped, h.1.counted,
        fun hon => absurd hon hoff⟩, ⟨h.2.buffer, h.2.batch⟩⟩
    have hoff : ¬ config.shipEnabled = true := by simp [he]
    by_cases hlow : (level.getD .info).below config.level = true
    · simp only [step, log, if_pos hlow, if_neg hoff]
      exact h
    · simp only [step, log, if_neg hlow, if_neg hoff]
      exact hquiet hoff _

theorem sound_step (h : Sound config w) (event : ShipEvent ρ) : Sound config (step config w event) := by
  cases event with
  | log level record => exact h.logged level record
  | tick =>
    simp only [step]
    split_ifs
    · exact h.flush
    · exact h
  | settle ok => exact ⟨h.1.settled h.2 ok, h.2.settled h.1.bounded ok⟩
  | stop =>
    have hstopped : Sound config { w with
        shipper := { w.shipper with stopped := true, timer := false } } :=
      ⟨⟨h.1.ordered, h.1.newest, h.1.bounded, h.1.batch, h.1.shipped, h.1.counted, h.1.emitted⟩,
        ⟨h.2.buffer, h.2.batch⟩⟩
    simp only [step, stop]
    split_ifs
    · exact hstopped.flush
    · exact hstopped

theorem sound_foldl (events : List (ShipEvent ρ)) :
    ∀ {w : ShipWorld ρ}, Sound config w → Sound config (events.foldl (step config) w) := by
  induction events with
  | nil =>
    intro w h
    exact h
  | cons event events ih =>
    intro w h
    exact ih (sound_step h event)

/-- **What the collector has, the batch in flight and the buffer are the lines handed over, in order,
less what gave way to newer ones.** -/
theorem shipRun_delivers (config : LogConfig) (events : List (ShipEvent ρ)) :
    Delivers config (shipRun config events) :=
  (sound_foldl events ⟨delivers_start config, contiguous_start config⟩).1

/-- A batch of two fails while three more lines come in; the buffer has room for three. -/
example : (shipRun (⟨.info, true, 2, 3, by decide, by decide⟩ : LogConfig)
    [.log none 0, .log none 1, .log none 2, .log none 3, .log none 4, .settle false]).kept =
      [2, 3, 4] := by
  decide

/-! ## Draining -/

@[simp] theorem flush_timer (s : Shipper ρ) : (flush config s).timer = s.timer := by
  unfold flush
  split_ifs <;> rfl

@[simp] theorem makeRoom_timer (s : Shipper ρ) : (makeRoom config s).timer = s.timer := by
  unfold makeRoom
  split_ifs <;> rfl

@[simp] theorem enqueue_timer (record : ρ) (s : Shipper ρ) :
    (enqueue config record s).timer = s.timer := by
  simp only [enqueue]
  split_ifs <;> simp

@[simp] theorem settle_timer (ok : Bool) (s : Shipper ρ) : (settle config ok s).timer = s.timer := by
  unfold settle
  cases s.pending with
  | none => rfl
  | some batch => cases ok <;> rfl

theorem step_timer {event : ShipEvent ρ} (h : event ≠ .stop) :
    (step config w event).shipper.timer = w.shipper.timer := by
  cases event with
  | log level record =>
    simp only [step, log]
    split_ifs <;> simp
  | tick =>
    simp only [step]
    split_ifs <;> simp
  | settle ok => simp [step]
  | stop => exact absurd rfl h

theorem foldl_timer {events : List (ShipEvent ρ)} (h : .stop ∉ events) :
    ∀ {w : ShipWorld ρ}, (events.foldl (step config) w).shipper.timer = w.shipper.timer := by
  induction events with
  | nil =>
    intro w
    rfl
  | cons event events ih =>
    intro w
    rw [List.mem_cons, not_or] at h
    exact (ih h.2).trans (step_timer (Ne.symm h.1))

/-- The timer fires and the collector acknowledges, `n` times. -/
def rounds : ℕ → List (ShipEvent ρ)
  | 0 => []
  | n + 1 => .tick :: .settle true :: rounds n

theorem step_round (he : config.shipEnabled = true) (ht : w.shipper.timer = true)
    (hp : w.shipper.pending = none) :
    (step config (step config w .tick) (.settle true)).acknowledged =
        w.acknowledged ++ w.shipper.buffer.take config.batchSize ∧
      (step config (step config w .tick) (.settle true)).shipper.buffer =
        w.shipper.buffer.drop config.batchSize ∧
      (step config (step config w .tick) (.settle true)).shipper.pending = none := by
  have htick : step config w .tick = { w with shipper := flush config w.shipper } := by
    simp only [step, if_pos ht]
  by_cases hb : w.shipper.buffer = []
  · have hflush : flush config w.shipper = w.shipper := by simp [flush, hb]
    rw [htick, hflush, step_settle_idle hp, hb]
    simp [hp]
  · have hflush : flush config w.shipper = { w.shipper with
        buffer := w.shipper.buffer.drop config.batchSize
        pending := some (w.shipper.buffer.take config.batchSize) } := by
      simp [flush, hp, hb, he]
    rw [htick, hflush, step_settle_shipped rfl]
    exact ⟨rfl, rfl, rfl⟩

theorem foldl_rounds (he : config.shipEnabled = true) (n : ℕ) :
    ∀ {w : ShipWorld ρ}, w.shipper.timer = true → w.shipper.pending = none →
      w.shipper.buffer.length ≤ n * config.batchSize →
      ((rounds n).foldl (step config) w).acknowledged = w.acknowledged ++ w.shipper.buffer := by
  induction n with
  | zero =>
    intro w _ _ hn
    have hb : w.shipper.buffer = [] := by
      rw [Nat.zero_mul] at hn
      exact List.length_eq_zero_iff.mp (Nat.le_zero.mp hn)
    rw [hb, List.append_nil]
    rfl
  | succ n ih =>
    intro w ht hp hn
    obtain ⟨hacked, hbuffer, hpending⟩ := step_round he ht hp
    have htimer : (step config (step config w .tick) (.settle true)).shipper.timer = true := by
      rw [step_timer (by simp), step_timer (by simp), ht]
    have hlength : (w.shipper.buffer.drop config.batchSize).length ≤ n * config.batchSize := by
      rw [Nat.succ_mul] at hn
      rw [List.length_drop]
      omega
    rw [rounds, List.foldl_cons, List.foldl_cons, ih htimer hpending (hbuffer ▸ hlength), hacked,
      hbuffer, List.append_assoc, List.take_append_drop]

/-- **A collector that recovers gets every line that was kept**: the batch in flight, then the buffer,
a batch each time the timer fires. -/
theorem shipRun_drains (config : LogConfig) (events : List (ShipEvent ρ)) {n : ℕ}
    (he : config.shipEnabled = true) (hrunning : .stop ∉ events)
    (hn : config.maxBuffer ≤ n * config.batchSize) :
    (shipRun config (events ++ .settle true :: rounds n)).acknowledged =
      (shipRun config events).kept := by
  have hsound : Sound config (shipRun config events) :=
    sound_foldl events ⟨delivers_start config, contiguous_start config⟩
  have htimer : (shipRun config events).shipper.timer = true := (foldl_timer hrunning).trans he
  have hrun : shipRun config (events ++ .settle true :: rounds n) =
      (rounds n).foldl (step config) (step config (shipRun config events) (.settle true)) := by
    rw [shipRun, List.foldl_append, List.foldl_cons]
    rfl
  generalize shipRun config events = w at hsound htimer hrun ⊢
  have hbounded := hsound.1.bounded
  rw [hrun]
  cases hp : w.shipper.pending with
  | none =>
    rw [step_settle_idle hp, foldl_rounds he n htimer hp (hbounded.trans hn)]
    simp only [ShipWorld.kept, hp, Option.getD_none, List.nil_append]
  | some batch =>
    have hdrained := foldl_rounds he n (w := step config w (.settle true))
      ((step_timer (by simp)).trans htimer)
    rw [step_settle_shipped hp] at hdrained ⊢
    rw [hdrained rfl (hbounded.trans hn)]
    simp only [ShipWorld.kept, hp, Option.getD_some, List.append_assoc]

/-- A collector that refused a batch, and then takes them all. -/
theorem shipRun_drains_refused :
    (shipRun (⟨.info, true, 2, 3, by decide, by decide⟩ : LogConfig)
      ([.log none 0, .log none 1, .settle false, .log none 2] ++ .settle true :: rounds 2)).acknowledged =
        [0, 1, 2] :=
  shipRun_drains _ [.log none 0, .log none 1, .settle false, .log none 2] rfl (by decide) (by decide)

end XChain.LogShipper
