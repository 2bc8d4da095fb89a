import XChainEncoder.EntryLifetimes
import XChainEncoder.ExactInputs
import XChainEncoder.LapsedEntries
import XChainEncoder.Lib.Alike

/-!
# Runs over swept maps

Every call reads the clock before it reads the maps, so what has lapsed when no call is under way
has no say in any later call.

* `lapsed`: states alike from a time on, and ledgers of live claims;
* `alike_createTransaction`, `alike_createEnvelopeCancelTransaction`, `alike_program`: **no call tells
  such states apart**;
* `swept_run`: **sweeping the maps between calls changes no later call**;
* `sameCalls_restarted`, `restarted_early`: what a restart shows after an idle TTL, and before it;
* `restarted_run`: **the maps do not outlive the TTL**.
-/

namespace XChain

open PushScript Coroutine Reservations

/-- States of the maps that differ in what has lapsed. -/
def lapsed (since : ℕ) : Likeness sig where
  since := since
  like := LiveAlike since
  owned := Owned since

variable {enc : Encoder} {plan : Plan} {emitted : Emitted} {since now : ℕ} {α : Type}

/-! ## Building -/

theorem alike_refuseCappedSelection (hnow : since ≤ now) (outputSatoshis : ℤ) (index : ℕ)
    (rest : List Utxo) (acc : Selection) :
    Alike (lapsed since) (refuseCappedSelection enc plan outputSatoshis now index rest acc)
      (refuseCappedSelection enc plan outputSatoshis now index rest acc) := by
  unfold refuseCappedSelection
  split_ifs
  · exact .ret _
  · refine .get fun s s' l hs hl => ?_
    obtain ⟨herror, halike⟩ := hs.cappedSelectionError hnow enc plan outputSatoshis index rest acc
    exact .put halike hl (alike_throw herror)

theorem alike_selectStep (hnow : since ≤ now) (index : ℕ) (u : Utxo) (rest : List Utxo)
    (acc : Selection) :
    Alike (lapsed since) (selectStep enc plan emitted now index u rest acc)
      (selectStep enc plan emitted now index u rest acc) := by
  rw [selectStep_eq]
  refine (alike_refuseCappedSelection hnow _ _ _ _).bind fun _ => ?_
  refine (alike_ofExcept _).bind fun _ => .get fun s s' l hs hl => ?_
  obtain ⟨hskipped, hledger, howned, halike⟩ :=
    LiveAlike.skipReservedInput hs hl hnow plan (outpointKey u)
  rw [hskipped, hledger]
  refine .put halike howned ?_
  split_ifs
  · exact .ret _
  · refine (alike_ofExcept _).bind fun _ => ?_
    refine (alike_quiet (quiet_selectedInput u _)).bind fun input => ?_
    exact (alike_ofExcept _).bind fun _ => .ret _

theorem alike_selectLoop (hnow : since ≤ now) (us : List Utxo) (index : ℕ) (acc : Selection) :
    Alike (lapsed since) (selectLoop enc plan emitted now index us acc)
      (selectLoop enc plan emitted now index us acc) := by
  induction us generalizing index acc with
  | nil => exact .ret _
  | cons u rest ih =>
    refine (alike_selectStep hnow index u rest acc).bind fun r => ?_
    obtain ⟨done, acc'⟩ := r
    cases done with
    | true => exact .ret _
    | false => exact ih (index + 1) acc'

theorem alike_selectFundingInputs (acc : Selection) :
    Alike (lapsed since) (selectFundingInputs enc plan emitted acc)
      (selectFundingInputs enc plan emitted acc) := by
  unfold selectFundingInputs
  split_ifs
  · exact .ret _
  · refine Alike.bind ?_ fun sel => (alike_ofExcept _).bind fun _ => (alike_ofExcept _).bind
      fun _ => .ret _
    rw [selectInputs_eq]
    exact .now fun t ht => .get fun s s' l hs hl => .put (hs.evictExpiredReservations ht) hl
      (alike_selectLoop ht _ 0 acc)

theorem alike_bindObfuscationKey (exactInputs : Bool) (utxos : List Utxo) :
    Alike (lapsed since) (bindObfuscationKey exactInputs utxos)
      (bindObfuscationKey exactInputs utxos) := by
  rcases eq_or_ne utxos [] with he | he
  · unfold bindObfuscationKey
    rw [if_pos he]
    exact .ret _
  cases exactInputs with
  | true =>
    rw [bindObfuscationKey_exact he]
    refine .now fun t ht => .get fun s s' l hs hl => ?_
    obtain ⟨hanswer, hledger, howned, halike⟩ := LiveAlike.claimExactInputs hs hl ht utxos
    rw [hanswer, hledger]
    exact .put halike howned ((alike_ofExcept _).bind fun _ => .ret _)
  | false =>
    rw [bindObfuscationKey_greedy he]
    refine .now fun t ht => .get fun s s' l hs hl => ?_
    obtain ⟨hanswer, hledger, howned, halike⟩ := LiveAlike.claimFirstFreeInput hs hl ht utxos
    rw [hanswer, hledger]
    exact .put halike howned (.ret _)

theorem alike_buildFromBound (request : TxRequest) (pre : Prepared) (bound : Bound) :
    Alike (lapsed since) (buildFromBound enc request pre bound)
      (buildFromBound enc request pre bound) := by
  refine (alike_ofExcept _).bind fun plan => ?_
  refine (alike_quiet quiet_emitOutputs).bind fun r => ?_
  refine (alike_ofExcept _).bind fun start => ?_
  exact (alike_selectFundingInputs start).bind fun sel => alike_quiet (quiet_settleBuild _)

theorem alike_finishBuild (b : Built) :
    Alike (lapsed since) (finishBuild enc b) (finishBuild enc b) := by
  rw [finishBuild_eq]
  refine .now fun t ht => .get fun s s' l hs hl => .put (hs.evictExpiredRecentBuilds ht) hl ?_
  refine (alike_ofExcept _).bind fun txid => ?_
  have hchecked := LiveAlike.refuseDuplicateBuild hs ht txid
  generalize s.refuseDuplicateBuild txid t = r at hchecked ⊢
  generalize s'.refuseDuplicateBuild txid t = r' at hchecked ⊢
  obtain ⟨answer, t⟩ := r
  obtain ⟨answer', t'⟩ := r'
  obtain rfl : answer' = answer := hchecked.answer
  cases answer' with
  | error e => exact alike_throw rfl
  | ok a => exact .put hchecked.alike hl (.ret b)

theorem alike_mintReceipt : Alike (lapsed since) mintReceipt mintReceipt := by
  rw [mintReceipt_eq]
  refine .now fun t ht => .get fun s s' l hs hl => ?_
  obtain ⟨hreceipt, halike⟩ := LiveAlike.mintReservationTicket hs hl ht
  rw [hreceipt]
  exact .put halike hl (.ret _)

theorem alike_releaseAndRethrow (e : BuildError) :
    Alike (lapsed since) (releaseAndRethrow e : Prog α) (releaseAndRethrow e) := by
  rw [releaseAndRethrow_eq]
  exact (alike_quiet quiet_yieldTick).bind fun _ => .get fun s s' l hs hl =>
    .put (LiveAlike.releaseCallReservations hs hl) hl (alike_throw rfl)

theorem alike_createTransaction (request : TxRequest) :
    Alike (lapsed since) (createTransaction enc request) (createTransaction enc request) := by
  rw [createTransaction_eq]
  refine Alike.bind (Alike.tryCatch ?_ alike_releaseAndRethrow) fun built =>
    alike_mintReceipt.bind fun _ => .ret _
  refine Alike.bind ?_ fun built => (alike_quiet quiet_yieldTick).bind fun _ => .ret _
  refine (alike_quiet (quiet_prepareBuild request)).bind fun pre => ?_
  refine (alike_bindObfuscationKey _ _).bind fun bound => ?_
  exact (alike_buildFromBound request pre bound).bind fun built => alike_finishBuild built

/-! ## Cancelling and releasing -/

theorem alike_claimCommitOutpoint (key : Outpoint) :
    Alike (lapsed since) (claimCommitOutpoint key) (claimCommitOutpoint key) := by
  rw [claimCommitOutpoint_eq]
  refine .now fun t ht => .get fun s s' l hs hl => ?_
  obtain ⟨hanswer, hledger, howned, halike⟩ := LiveAlike.claimCommit hs hl ht key
  rw [hanswer, hledger]
  exact .put halike howned (alike_ofExcept _)

theorem alike_releaseCancelAndRethrow (e : BuildError) :
    Alike (lapsed since) (releaseCancelAndRethrow e : Prog α) (releaseCancelAndRethrow e) := by
  rw [releaseCancelAndRethrow_eq]
  exact (alike_quiet quiet_yieldTick).bind fun _ => .now fun t ht => .get fun s s' l hs hl =>
    .put (LiveAlike.releaseEnvelopeCancelClaims hs ht hl) hl (alike_throw rfl)

theorem alike_createEnvelopeCancelTransaction (request : CancelRequest) :
    Alike (lapsed since) (createEnvelopeCancelTransaction enc request)
      (createEnvelopeCancelTransaction enc request) := by
  refine (alike_ofExcept _).bind fun _ => ?_
  refine Alike.bind (Alike.tryCatch ?_ alike_releaseCancelAndRethrow) fun result =>
    alike_mintReceipt.bind fun _ => .ret _
  refine Alike.bind ?_ fun result => (alike_quiet quiet_yieldTick).bind fun _ => .ret _
  refine (alike_ofExcept _).bind fun record => ?_
  refine (alike_claimCommitOutpoint record.outpoint).bind fun _ => ?_
  refine (alike_quiet (quiet_cancelFeeRate _)).bind fun rate => ?_
  refine (alike_ofExcept _).bind fun script => ?_
  exact (alike_ofExcept _).bind fun sweep => alike_ofExcept _

theorem alike_releaseReservation (id : Option ℕ) :
    Alike (lapsed since) (releaseReservation id) (releaseReservation id) := by
  cases id with
  | none => exact .throw _
  | some id =>
    refine .now fun t ht => .get fun s s' l hs hl => ?_
    obtain ⟨hanswer, halike⟩ := LiveAlike.releaseReservation hs ht id
    exact .put halike hl (alike_ret hanswer)

/-- **No call tells states apart that differ in what has lapsed before it.** -/
theorem alike_program (command : Command) :
    Alike (lapsed since) (program enc command) (program enc command) := by
  cases command with
  | createTransaction request => exact (alike_createTransaction request).bind fun _ => .ret _
  | createEnvelopeCancelTransaction request =>
    exact (alike_createEnvelopeCancelTransaction request).bind fun _ => .ret _
  | releaseReservation id => exact (alike_releaseReservation id).bind fun _ => .ret _

/-! ## Runs -/

/-- The world with other maps. -/
def withMaps (w : EncoderWorld) (s : Reservations) : EncoderWorld :=
  { w with cfg := { w.cfg with shared := s } }

/-- The world after its maps were swept. -/
def swept (w : EncoderWorld) : EncoderWorld := withMaps w (w.cfg.shared.sweep w.cfg.clock)

/-- The world of an encoder that was started again: its maps are empty, and no id is drawn twice. -/
def restarted (w : EncoderWorld) : EncoderWorld :=
  withMaps w { Reservations.empty with nextId := w.cfg.shared.nextId }

/-- Every call has ended. -/
def AllEnded (w : EncoderWorld) : Prop := ∀ p call, w.cfg.calls p = some call → call.stage ≠ .running

theorem AllEnded.pending {clock : ℕ} {events : List (Event sig Command)}
    (h : AllEnded (encoderRun enc clock events)) (p : ℕ) :
    (encoderRun enc clock events).pending p = none := by
  cases hp : (encoderRun enc clock events).pending p with
  | none => rfl
  | some pd =>
    obtain ⟨call, hcall, hrunning, -⟩ := (encoderRun_sound enc clock events).ready p pd hp
    exact absurd hrunning (h p call hcall)

theorem alikeWorlds_withMaps {w : EncoderWorld} {s : Reservations} (hpending : ∀ p, w.pending p = none)
    (hs : LiveAlike since w.cfg.shared s) (hsince : since ≤ w.cfg.clock) :
    AlikeWorlds (lapsed since) w (withMaps w s) where
  since := hsince
  clock := rfl
  shared := hs
  calls := sameCalls_refl w.cfg.calls
  pending p := by
    show Option.Rel _ (w.pending p) (w.pending p)
    rw [hpending p]
    exact .none
  owned p pd call hp := by
    rw [hpending p] at hp
    cases hp
  next := rfl

theorem owned_empty (since : ℕ) : Owned since Ledger.empty := fun _ h => by cases h

theorem allEnded_of_isRunning {clock : ℕ} {events : List (Event sig Command)}
    (h : ∀ p < (encoderRun enc clock events).next, ∀ call ∈ (encoderRun enc clock events).cfg.calls p,
      isRunning call = false) : AllEnded (encoderRun enc clock events) := by
  intro p call hcall hrunning
  by_cases hp : p < (encoderRun enc clock events).next
  · have hended := h p hp call hcall
    rw [isRunning, hrunning] at hended
    cases hended
  · rw [(encoderRun_sound enc clock events).fresh p (not_lt.mp hp)] at hcall
    cases hcall

/-- One cancel that returns with its receipt. -/
def keptCancel : List (Event sig Command) :=
  [.start (.createEnvelopeCancelTransaction sampleCancel) [], answer 0, answer 0, answer 0]

/-- The same cancel again, and the release of the first one's ticket. -/
def secondCancel : List (Event sig Command) :=
  [.start (.createEnvelopeCancelTransaction sampleCancel) [], answer 1, answer 1, answer 1,
    .start (.releaseReservation (some 1)) []]

/-- **Sweeping the maps between calls changes no later call.** -/
theorem swept_run (enc : Encoder) (clock : ℕ) (events later : List (Event sig Command))
    (hended : AllEnded (encoderRun enc clock events)) :
    SameCalls (run (program enc) Ledger.empty (encoderRun enc clock events) later).cfg.calls
      (run (program enc) Ledger.empty (swept (encoderRun enc clock events)) later).cfg.calls :=
  (alike_run alike_program (owned_empty _)
    (alikeWorlds_withMaps hended.pending (liveAlike_sweep _ _) le_rfl) later).calls

theorem swept_run_cancel :
    SameCalls
      (run (program (sampleEncoder ⟨.btc, .mainnet⟩)) Ledger.empty
        (encoderRun (sampleEncoder ⟨.btc, .mainnet⟩) 0 (keptCancel ++ [.pass reservationTtlMs]))
        secondCancel).cfg.calls
      (run (program (sampleEncoder ⟨.btc, .mainnet⟩)) Ledger.empty
        (swept (encoderRun (sampleEncoder ⟨.btc, .mainnet⟩) 0
          (keptCancel ++ [.pass reservationTtlMs]))) secondCancel).cfg.calls :=
  swept_run _ 0 _ _ (allEnded_of_isRunning (by decide +kernel))

theorem ShortLived.sweep_empty {n : ℕ} {s : Reservations} (h : ShortLived n s)
    (hnow : n + reservationTtlMs ≤ now) :
    s.sweep now = { Reservations.empty with nextId := s.nextId } := by
  have hnone : ∀ {o : Option ℕ}, (∀ e, o = some e → e ≤ n + reservationTtlMs) →
      o.filter (fun e => now < e) = none := by
    intro o ho
    refine Option.filter_eq_none_iff.mpr fun e he => ?_
    simpa using (ho e he).trans hnow
  have hstamps : (s.sweep now).outpointReservations = fun _ => none :=
    funext fun key => hnone (h.stamps key)
  have howners : (s.sweep now).envelopeCancelClaims = fun _ => [] := by
    refine funext fun key => List.filter_eq_nil_iff.mpr fun owner ho => ?_
    simpa using (h.owners key owner ho).trans hnow
  have hbuilds : (s.sweep now).recentBuilds = fun _ => none :=
    funext fun txid => hnone (h.recentBuilds txid)
  have htickets : (s.sweep now).reservationTickets = fun _ => none := by
    refine funext fun id => Option.filter_eq_none_iff.mpr fun ticket ht => ?_
    simpa using (h.tickets id ticket ht).trans hnow
  have hmaps : s.sweep now = ⟨(s.sweep now).outpointReservations, (s.sweep now).recentBuilds,
    (s.sweep now).envelopeCancelClaims, (s.sweep now).reservationTickets, s.nextId⟩ := rfl
  rw [hmaps, hstamps, howners, hbuilds, htickets]
  rfl

/-- After a TTL in which no call is under way, an encoder behaves as if it had just started. -/
theorem sameCalls_restarted (enc : Encoder) (clock : ℕ) (events : List (Event sig Command)) {d : ℕ}
    (hended : AllEnded (encoderRun enc clock events)) (hd : reservationTtlMs ≤ d)
    (later : List (Event sig Command)) :
    SameCalls
      (run (program enc) Ledger.empty (encoderRun enc clock events) (.pass d :: later)).cfg.calls
      (run (program enc) Ledger.empty (restarted (encoderRun enc clock events))
        (.pass d :: later)).cfg.calls := by
  have hshort := encoderRun_shortLived enc clock events
  generalize hw : encoderRun enc clock events = w at hended hshort ⊢
  have halike := liveAlike_sweep w.cfg.shared (w.cfg.clock + d)
  rw [hshort.sweep_empty (Nat.add_le_add_left hd _)] at halike
  have hpassed : AlikeWorlds (lapsed (w.cfg.clock + d))
      (step (program enc) Ledger.empty w (.pass d))
      (withMaps (step (program enc) Ledger.empty w (.pass d))
        { Reservations.empty with nextId := w.cfg.shared.nextId }) :=
    alikeWorlds_withMaps (fun p => by subst hw; exact hended.pending p) halike le_rfl
  exact (alike_run alike_program (owned_empty _) hpassed later).calls

/-- Before the TTL a restart shows: the release of the first cancel's ticket finds nothing. -/
theorem restarted_early : ¬ SameCalls
    (run (program (sampleEncoder ⟨.btc, .mainnet⟩)) Ledger.empty
      (encoderRun (sampleEncoder ⟨.btc, .mainnet⟩) 0 keptCancel) secondCancel).cfg.calls
    (run (program (sampleEncoder ⟨.btc, .mainnet⟩)) Ledger.empty
      (restarted (encoderRun (sampleEncoder ⟨.btc, .mainnet⟩) 0 keptCancel)) secondCancel).cfg.calls := by
  intro h
  have hfacts : (∃ call ∈ (run (program (sampleEncoder ⟨.btc, .mainnet⟩)) Ledger.empty
        (encoderRun (sampleEncoder ⟨.btc, .mainnet⟩) 0 keptCancel) secondCancel).cfg.calls 2,
        foundTicket call 1 = true) ∧
      ∃ call ∈ (run (program (sampleEncoder ⟨.btc, .mainnet⟩)) Ledger.empty
        (restarted (encoderRun (sampleEncoder ⟨.btc, .mainnet⟩) 0 keptCancel))
          secondCancel).cfg.calls 2, foundTicket call 1 = false := by
    decide +kernel
  obtain ⟨⟨call, hcall, hfound⟩, call', hcall', hfound'⟩ := hfacts
  have hsame := h 2
  rw [Option.mem_def.mp hcall, Option.mem_def.mp hcall'] at hsame
  cases hsame with
  | some hsame =>
    rw [foundTicket, hsame.stage] at hfound'
    rw [foundTicket, hfound'] at hfound
    cases hfound

/-- **The maps do not outlive the TTL.** No entry that a run writes lapses later than a TTL from now.
After a TTL in which no call is under way, an encoder answers every later run as one that was
restarted; before that it need not. -/
theorem restarted_run :
    (∀ (enc : Encoder) (clock : ℕ) (events : List (Event sig Command)),
      ShortLived (encoderRun enc clock events).cfg.clock (encoderRun enc clock events).cfg.shared) ∧
    (∀ (enc : Encoder) (clock : ℕ) (events : List (Event sig Command)),
      AllEnded (encoderRun enc clock events) → ∀ d, reservationTtlMs ≤ d →
      ∀ later : List (Event sig Command), SameCalls
        (run (program enc) Ledger.empty (encoderRun enc clock events) (.pass d :: later)).cfg.calls
        (run (program enc) Ledger.empty (restarted (encoderRun enc clock events))
          (.pass d :: later)).cfg.calls) ∧
    ∃ (enc : Encoder) (clock : ℕ) (events later : List (Event sig Command)),
      AllEnded (encoderRun enc clock events) ∧ ¬ SameCalls
        (run (program enc) Ledger.empty (encoderRun enc clock events) later).cfg.calls
        (run (program enc) Ledger.empty (restarted (encoderRun enc clock events)) later).cfg.calls :=
  ⟨encoderRun_shortLived, fun enc clock events hended _ hd later =>
      sameCalls_restarted enc clock events hended hd later,
    sampleEncoder ⟨.btc, .mainnet⟩, 0, keptCancel, secondCancel,
    allEnded_of_isRunning (by decide +kernel), restarted_early⟩

/-- A pause of one TTL after a cancel that was kept. -/
theorem restarted_run_cancel :
    SameCalls
      (run (program (sampleEncoder ⟨.btc, .mainnet⟩)) Ledger.empty
        (encoderRun (sampleEncoder ⟨.btc, .mainnet⟩) 0 keptCancel)
        (.pass reservationTtlMs :: secondCancel)).cfg.calls
      (run (program (sampleEncoder ⟨.btc, .mainnet⟩)) Ledger.empty
        (restarted (encoderRun (sampleEncoder ⟨.btc, .mainnet⟩) 0 keptCancel))
        (.pass reservationTtlMs :: secondCancel)).cfg.calls :=
  restarted_run.2.1 _ 0 keptCancel (allEnded_of_isRunning (by decide +kernel)) _ le_rfl secondCancel

end XChain
