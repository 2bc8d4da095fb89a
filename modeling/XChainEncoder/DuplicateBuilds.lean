import XChainEncoder.BuildRecords

/-!
# Duplicate builds over runs

* `duplicates_meets`: **every call keeps the registry in agreement with the calls**;
* `BuildsApart`, **`encoderRun_buildsApart`**: two builds of one transaction that pass the check less
  than the TTL apart have a release between them, and no other release takes a record away;
  `latePayments_returns`: measured at the returns this fails.
-/

namespace XChain

open PushScript Coroutine

variable {enc : Encoder} {p : ℕ} {x : EncoderSnap} {psbt : Psbt} {txid : Text} {t : ℕ}

/-! ## Every call -/

theorem wp_buildSteps_recorded {request : TxRequest} (hx : Unrecorded enc p x) :
    wp (duplicatesContract enc) p (buildSteps enc request)
      (fun b y => ∃ txid t, RecordedBuild enc p b.psbt txid t y) (fun _ => Unrecorded enc p) x := by
  refine (wp_bind _).mpr (wp_mono (fun pre y hy => ?_) (fun _ _ h => h) x
    (wp_unrecorded (writes_quiet (quiet_prepareBuild request) _ _ _) hx))
  refine (wp_bind _).mpr (wp_mono (fun bound z hz => ?_) (fun _ _ h => h) y
    (wp_unrecorded (writes_bindObfuscationKey _ _ _ _ _) hy))
  refine (wp_bind _).mpr (wp_mono (fun b z' hz' => ?_) (fun _ _ h => h) z
    (wp_unrecorded (writes_buildFromBound enc request pre bound _ _ _) hz))
  refine wp_mono (fun b' y' hy' => ?_) (fun _ _ h => h) z' (wp_finishBuild_recorded hz')
  obtain ⟨rfl, hrecorded⟩ := hy'
  exact hrecorded

/-- What every call leaves where it returns and where it throws. -/
def LeavesReturned (enc : Encoder) (p : ℕ) (a : CallResult) (y : EncoderSnap) : Prop :=
  Duplicates enc ((y.returned a).cfg p)

def LeavesThrown (enc : Encoder) (p : ℕ) (e : BuildError) (y : EncoderSnap) : Prop :=
  Duplicates enc ((y.threw e).cfg p)

theorem wp_rethrow {α : Type} {c : Prog α} {Q : α → EncoderSnap → Prop}
    (hthrows : Returns (fun _ => False) c)
    (hc : Writes (σ := sig) ClaimsOnly c x.clock x.shared x.call.ledger)
    (hx : Unrecorded enc p x) : wp (duplicatesContract enc) p c Q (LeavesThrown enc p) x :=
  wp_mono (fun _ _ h => h.1.elim) (fun e _ h => h.2.threw e) x
    (wp_always hthrows x (wp_unrecorded hc hx))

theorem wp_createTransaction_recorded {request : TxRequest} (hx : Unrecorded enc p x) :
    wp (duplicatesContract enc) p (createTransaction enc request)
      (fun r => LeavesReturned enc p (.transaction r)) (LeavesThrown enc p) x := by
  rw [createTransaction_eq, wp_bind, wp_tryCatch, wp_bind]
  refine wp_mono ?_ (fun e y hy => ?_) x (wp_buildSteps_recorded hx)
  · rintro b y ⟨txid, t, hy⟩
    refine (wp_bind _).mpr (wp_yieldTick_recorded hy fun z hz => ?_)
    refine (wp_bind _).mpr ?_
    rw [mintReceipt_eq]
    exact fun t' ht => hz.returned ht rfl rfl
  · exact wp_rethrow (fun _ _ _ _ => trivial) (writes_releaseAndRethrow e _ _ _) hy

theorem wp_createEnvelopeCancelTransaction_recorded {request : CancelRequest}
    (hx : Unrecorded enc p x) :
    wp (duplicatesContract enc) p (createEnvelopeCancelTransaction enc request)
      (fun r => LeavesReturned enc p (.cancel r)) (LeavesThrown enc p) x := by
  rw [createEnvelopeCancelTransaction_eq]
  refine (wp_bind _).mpr (wp_ofExcept (fun _ _ => ?_) fun e _ => hx.threw e)
  rw [wp_bind, wp_tryCatch, wp_bind]
  refine wp_mono (fun r y hy => ?_) (fun e y hy => ?_) x
    (wp_unrecorded (writes_buildEnvelopeCancelTransaction request _ _ _) hx)
  · refine (wp_bind _).mpr (wp_mono (fun _ z hz => ?_) (fun e z hz => ?_) y
      (wp_unrecorded writes_yieldTick hy))
    · refine (wp_bind _).mpr ?_
      rw [mintReceipt_eq]
      exact fun t' ht => hz.returned ht rfl
    · exact wp_rethrow (fun _ _ _ _ _ => trivial) (writes_releaseCancelAndRethrow e _ _ _) hz
  · exact wp_rethrow (fun _ _ _ _ _ => trivial) (writes_releaseCancelAndRethrow e _ _ _) hy

theorem wp_releaseReservation_recorded {id : Option ℕ} (hx : Unrecorded enc p x) :
    wp (duplicatesContract enc) p (releaseReservation id)
      (fun r => LeavesReturned enc p (.release r)) (LeavesThrown enc p) x := by
  cases id with
  | none => exact hx.threw _
  | some id =>
    rw [releaseReservation_eq]
    exact fun t ht => hx.released ht

theorem unrecorded_start {g : EncoderCfg} {command : Command} (hg : Duplicates enc g)
    (hp : g.calls p = none) :
    Unrecorded enc p (g.enter (freshCall Ledger.empty command g.clock)) where
  running := rfl
  unbuilt := rfl
  claims := by rintro _ ⟨⟩
  around := by
    refine ⟨?_, fun q _ c r t hc hs => hg.checked q c r t hc hs⟩
    have hnone : clients g.calls p = .blank := by
      show ((g.calls p).map entryOf).getD .blank = .blank
      rw [hp]
      rfl
    show Registry.Consistent _ _ _ (Function.update (clients g.calls) p .blank)
    rw [← hnone, Function.update_eq_self]
    exact hg.consistent

/-- **Every call keeps the registry in agreement with the calls.** -/
theorem duplicates_meets (enc : Encoder) : Meets (program enc) Ledger.empty (duplicatesContract enc)
    (fun _ p a y => LeavesReturned enc p a y) (fun _ p e y => LeavesThrown enc p e y) where
  pass g t ht hg := ⟨hg.consistent.pass ht, hg.checked⟩
  start g p command hp hg := by
    have hx : Unrecorded enc _ (g.enter (freshCall Ledger.empty command g.clock)) :=
      unrecorded_start hg hp
    cases command with
    | createTransaction request =>
      exact (wp_bind _).mpr (wp_createTransaction_recorded hx)
    | createEnvelopeCancelTransaction request =>
      exact (wp_bind _).mpr (wp_createEnvelopeCancelTransaction_recorded hx)
    | releaseReservation id =>
      exact (wp_bind _).mpr (wp_releaseReservation_recorded hx)
  returned _ _ _ _ h := ⟨h, trivial⟩
  threw _ _ _ _ h := ⟨h, trivial⟩

/-- **In every reachable world the registry agrees with the calls.** -/
theorem encoderRun_duplicates (enc : Encoder) (clock : ℕ) (events : List (Event sig Command)) :
    Duplicates enc (encoderRun enc clock events).cfg := by
  have hinit : Duplicates enc (⟨clock, Reservations.empty, fun _ => none⟩ : EncoderCfg) :=
    ⟨Registry.consistent_empty clock fun _ => none, by rintro p c r t ⟨⟩⟩
  exact (invariant_run (duplicates_meets enc) hinit events).inv

/-! ## What a run owes its callers -/

/-- The ticket of the result was released, from its return at `n` on and by `m`. -/
def ReleasedBetween (g : EncoderCfg) (a : CallResult) (n m : ℕ) : Prop :=
  ∃ receipt k call result t, a.reservation = some receipt ∧ g.calls k = some call ∧
    call.stage = .returned (.release result) t ∧ result.found = true ∧
    result.reservationId = receipt.id ∧ n ≤ t ∧ t ≤ m

/-- The duplicate refusal over a run. -/
structure BuildsApart (enc : Encoder) (g : EncoderCfg) : Prop where
  /-- At its check, a build that returned found no live record of its transaction, and made one. -/
  checked : ∀ p c r n, g.calls p = some c → c.stage = .returned (.transaction r) n →
    Checked enc c r.psbt
  /-- Two builds of one transaction whose checks lie less than the TTL apart: the first one's ticket
  was released after it returned and before the other's check. -/
  apart : ∀ p q c c' r r' n n' txid t t', p ≠ q → g.calls p = some c → g.calls q = some c' →
    c.stage = .returned (.transaction r) n → c'.stage = .returned (.transaction r') n' →
    r.psbt.unsignedTxid enc.lib = .ok txid → r'.psbt.unsignedTxid enc.lib = .ok txid →
    checkedAt c = some t → checkedAt c' = some t' → t ≤ t' → t' < t + reservationTtlMs →
    ReleasedBetween g (.transaction r) n t' ∨
      t' = t ∧ ReleasedBetween g (.transaction r') n' t
  /-- A record stands for the TTL unless the ticket of its own build was released. -/
  recorded : ∀ p c txid t, g.calls p = some c → registered c = some (txid, t) →
    (∀ a n m, c.stage = .returned a n → ¬ ReleasedBetween g a n m) →
    g.clock < t + reservationTtlMs → g.shared.recentBuilds txid = some (t + reservationTtlMs)

section Owes

variable {g : EncoderCfg} {c : EncoderCall} {q m n : ℕ}

theorem clients_of_some (hc : g.calls p = some c) : clients g.calls p = entryOf c := by
  rw [clients, hc]
  rfl

/-- A ticket the registry knows to be released was released by a call. -/
theorem releasedBetween_of_releasedAt {a : CallResult} (hc : g.calls p = some c)
    (hs : c.stage = .returned a n) (h : Registry.ReleasedAt (clients g.calls) p m) :
    ReleasedBetween g a n m := by
  obtain ⟨id, n', k, hreceipt, hrelease, hle⟩ := h
  rw [clients_of_some hc] at hreceipt
  have hreceipt : receiptAt c = some (id, n') := hreceipt
  rw [receiptAt, hs] at hreceipt
  obtain ⟨receipt, hres, hid⟩ := Option.map_eq_some_iff.mp hreceipt
  cases hid
  cases hk : g.calls k with
  | none =>
    rw [show clients g.calls k = .blank by rw [clients, hk]; rfl] at hrelease
    cases hrelease
  | some call =>
    rw [clients_of_some hk] at hrelease
    have hrelease : releaseAt call = some (receipt.id, m) := hrelease
    unfold releaseAt at hrelease
    split at hrelease
    · rename_i result t hstage
      split_ifs at hrelease with hfound
      obtain ⟨hid, rfl⟩ := Prod.mk.inj (Option.some.inj hrelease)
      exact ⟨receipt, k, call, result, t, hres, hk, hstage, hfound, hid, hle, le_rfl⟩
    · cases hrelease

theorem ReleasedBetween.le {a : CallResult} {m' : ℕ} (h : ReleasedBetween g a n m) (hm : m ≤ m') :
    ReleasedBetween g a n m' := by
  obtain ⟨receipt, k, call, result, t, hr, hk, hs, hf, hid, hn, ht⟩ := h
  exact ⟨receipt, k, call, result, t, hr, hk, hs, hf, hid, hn, ht.trans hm⟩

/-- A build that returned was registered under its transaction, at its check. -/
theorem Checked.registered_eq {psbt : Psbt} {txid : Text} {t : ℕ} (h : Checked enc c psbt)
    (htxid : psbt.unsignedTxid enc.lib = .ok txid) (ht : checkedAt c = some t) :
    registered c = some (txid, t) ∧ ∀ a n, c.stage = .returned a n → t ≤ n := by
  obtain ⟨txid', t', s, hnamed, hreg, hread, -, hpast⟩ := h
  cases hnamed.symm.trans htxid
  rw [checkedAt, hread] at ht
  cases ht
  exact ⟨hreg, hpast⟩

/-- **Where the registry agrees with the calls, duplicate builds have a release between them.** -/
theorem Duplicates.buildsApart (h : Duplicates enc g) : BuildsApart enc g where
  checked := h.checked
  apart p q c c' r r' n n' txid t t' hne hc hc' hs hs' hr hr' ht ht' hle hlt := by
    obtain ⟨hreg, -⟩ := (h.checked p c r n hc hs).registered_eq hr ht
    obtain ⟨hreg', hpast⟩ := (h.checked q c' r' n' hc' hs').registered_eq hr' ht'
    have hpos : 0 < reservationTtlMs := by decide
    have hp : (clients g.calls p).registered = some (txid, t) := by rw [clients_of_some hc]; exact hreg
    have hq : (clients g.calls q).registered = some (txid, t') := by
      rw [clients_of_some hc']
      exact hreg'
    rcases h.consistent.apart p q txid t t' hne hp hq (by omega) hlt with ⟨m, hm, hrel⟩ | ⟨m, hm, hrel⟩
    · exact .inl ((releasedBetween_of_releasedAt hc hs hrel).le hm)
    · -- The second was released by the first one's check, so the two checks coincide.
      have hbetween := releasedBetween_of_releasedAt hc' hs' hrel
      obtain ⟨-, -, -, -, m', -, -, -, -, -, hn', hm'⟩ := hbetween
      have := hpast _ _ hs'
      exact .inr ⟨by omega, (releasedBetween_of_releasedAt hc' hs' hrel).le hm⟩
  recorded p c txid t hc hreg hunreleased hlive := by
    refine h.consistent.live p txid t (by rw [clients_of_some hc]; exact hreg) (fun m hrel => ?_) hlive
    have hreceipt : ∃ id n, receiptAt c = some (id, n) := by
      obtain ⟨id, n, k, hreceipt, -⟩ := hrel
      rw [clients_of_some hc] at hreceipt
      exact ⟨id, n, hreceipt⟩
    obtain ⟨id, n, hreceipt⟩ := hreceipt
    unfold receiptAt at hreceipt
    split at hreceipt
    · rename_i a t' hs
      exact hunreleased a t' m hs (releasedBetween_of_releasedAt hc hs hrel)
    · cases hreceipt

end Owes

/-- **Duplicate builds over runs.** -/
theorem encoderRun_buildsApart (enc : Encoder) (clock : ℕ) (events : List (Event sig Command)) :
    BuildsApart enc (encoderRun enc clock events).cfg :=
  (encoderRun_duplicates enc clock events).buildsApart

/-! ## Returns are not checks -/

/-- The same law measured at the returns: what the duplicate check does not give. -/
def ReturnsApart (enc : Encoder) (g : EncoderCfg) : Prop :=
  ∀ p q c c' r r' n n' txid, p ≠ q → g.calls p = some c → g.calls q = some c' →
    c.stage = .returned (.transaction r) n → c'.stage = .returned (.transaction r') n' →
    r.psbt.unsignedTxid enc.lib = .ok txid → r'.psbt.unsignedTxid enc.lib = .ok txid →
    n ≤ n' → n' < n + reservationTtlMs → ReleasedBetween g (.transaction r) n n'

/-- One payment twice: the first one waits nearly the whole TTL for its last turn of the event loop,
and the second one starts when the first one's claims and record lapse. -/
def latePayments : List (Event sig Command) :=
  [.start (.createTransaction (exactPrefix 101651 600)) [], answer 0, answer 0, .pass 299999,
    answer 0, .pass 1, .start (.createTransaction (exactPrefix 101651 600)) [], answer 1, answer 1,
    answer 1]

/-- The transaction a call returned, and when it did. -/
def builtAt (call : EncoderCall) : Option (TxResult × ℕ) :=
  match call.stage with
  | .returned (.transaction r) t => some (r, t)
  | _ => none

theorem builtAt_eq_some {call : EncoderCall} {b : TxResult × ℕ} (h : builtAt call = some b) :
    call.stage = .returned (.transaction b.1) b.2 := by
  unfold builtAt at h
  split at h
  · rename_i r t hs
    cases h
    exact hs
  · cases h

theorem latePayments_ended : (encoderRun btcEncoder 0 latePayments).next = 2 ∧
    (∃ c ∈ (encoderRun btcEncoder 0 latePayments).cfg.calls 0, ∃ b ∈ builtAt c, b.2 = 299999 ∧
      (b.1.psbt.unsignedTxid btcEncoder.lib).toOption = some sampleTxid) ∧
    ∃ c ∈ (encoderRun btcEncoder 0 latePayments).cfg.calls 1, ∃ b ∈ builtAt c, b.2 = 300000 ∧
      (b.1.psbt.unsignedTxid btcEncoder.lib).toOption = some sampleTxid := by
  decide +kernel

/-- **Measured at the returns the law fails**: the two payments return a millisecond apart, and
nothing was released. -/
theorem latePayments_returns : ¬ ReturnsApart btcEncoder (encoderRun btcEncoder 0 latePayments).cfg := by
  intro h
  obtain ⟨hnext, ⟨c, hc, ⟨r, n⟩, hb, hn, hr⟩, c', hc', ⟨r', n'⟩, hb', hn', hr'⟩ := latePayments_ended
  dsimp only at hn hn'
  subst hn
  subst hn'
  have hok : ∀ e : Except BuildError Text, e.toOption = some sampleTxid → e = .ok sampleTxid := by
    rintro (_ | txid) he
    · cases he
    · rw [Option.some.inj he]
  obtain ⟨receipt, k, call, result, t, -, hk, hs, -⟩ := h 0 1 c c' r r' _ _ sampleTxid zero_ne_one hc
    hc' (builtAt_eq_some hb) (builtAt_eq_some hb') (hok _ hr) (hok _ hr')
    (show 299999 ≤ 300000 by decide) (show 300000 < 299999 + reservationTtlMs by decide)
  -- Neither of the two calls is a release.
  have hlt : k < 2 := by
    by_contra hge
    have hnone := (encoderRun_sound btcEncoder 0 latePayments).fresh k (hnext.trans_le (not_lt.mp hge))
    cases hk.symm.trans hnone
  interval_cases k
  · cases hc.symm.trans hk
    cases (builtAt_eq_some hb).symm.trans hs
  · cases hc'.symm.trans hk
    cases (builtAt_eq_some hb').symm.trans hs

end XChain
