import XChainEncoder.BuildWrites
import XChainEncoder.CancelRuns
import XChainEncoder.FundableRequests
import XChainEncoder.Lib.Registry

/-!
# Records of builds

The recent builds are a registry: a build registers its transaction when it passes the duplicate
check, and its ticket may take the record back.

* `checkedAt`, `registered`: when a build passed the check, and what it recorded;
* `entryOf`, `registryOf`: the calls and the maps, as a registry's clients and its table;
* `Duplicates`: the registry agrees with the calls, and every build returned what it recorded;
* `wp_finishBuild_recorded`, `RecordedBuild.returned`, `Unrecorded.released`: the steps of a call
  that move the registry.
-/

namespace XChain

open PushScript Coroutine

variable {enc : Encoder} {p : ℕ} {x : EncoderSnap}

/-! ## Builds and releases as registrations -/

/-- The reading of the clock at which a build passed the duplicate check: its last one, before the one
that minted its receipt. -/
def checkReading (c : EncoderCall) : Option (ℕ × Reservations) :=
  match c.stage with
  | .returned _ _ => c.seen.dropLast.getLast?
  | _ => c.seen.getLast?

/-- When a build passed the duplicate check. -/
def checkedAt (c : EncoderCall) : Option ℕ := (checkReading c).map Prod.fst

/-- The transaction a call has recorded, and when. -/
def registered (c : EncoderCall) : Option (Text × ℕ) :=
  c.ledger.buildTxid.bind fun txid => (checkedAt c).map fun t => (txid, t)

/-- The receipt of a call that returned, and when it did. -/
def receiptAt (c : EncoderCall) : Option (ℕ × ℕ) :=
  match c.stage with
  | .returned a t => a.reservation.map fun receipt => (receipt.id, t)
  | _ => none

/-- The ticket a call released, and when it did. -/
def releaseAt (c : EncoderCall) : Option (ℕ × ℕ) :=
  match c.stage with
  | .returned (.release result) t => if result.found then some (result.reservationId, t) else none
  | _ => none

def entryOf (c : EncoderCall) : Registry.Entry Text := ⟨registered c, receiptAt c, releaseAt c⟩

/-- The calls as the clients of a registry. -/
def clients (calls : ℕ → Option EncoderCall) : Registry.Log Text :=
  fun p => ((calls p).map entryOf).getD .blank

/-- The recent builds and the tickets as a registry. -/
def registryOf (s : Reservations) : Registry.Table Text where
  stamp := s.recentBuilds
  tickets id := (s.reservationTickets id).map fun ticket =>
    ⟨ticket.expiry, ticket.txid, ticket.txidExpiry⟩
  nextId := s.nextId

/-- A build that returned the transaction it recorded: at its check no live record of it stood. -/
def Checked (enc : Encoder) (c : EncoderCall) (psbt : Psbt) : Prop :=
  ∃ txid t s, psbt.unsignedTxid enc.lib = .ok txid ∧ registered c = some (txid, t) ∧
    checkReading c = some (t, s) ∧ (∀ e, s.recentBuilds txid = some e → e ≤ t) ∧
    ∀ a n, c.stage = .returned a n → t ≤ n

/-- The registry agrees with the calls, and every build returned what it recorded. -/
structure Duplicates (enc : Encoder) (g : EncoderCfg) : Prop where
  consistent : Registry.Consistent reservationTtlMs g.clock (registryOf g.shared) (clients g.calls)
  checked : ∀ p c r t, g.calls p = some c → c.stage = .returned (.transaction r) t →
    Checked enc c r.psbt

def duplicatesContract (enc : Encoder) : Contract sig Command CallResult where
  inv := Duplicates enc
  keeps _ := True
  keeps_enter _ _ := trivial

/-! ## One call among the others -/

/-- The registry agrees with the other calls and with the entry `b` of the call `p`. -/
structure Around (enc : Encoder) (p : ℕ) (b : Registry.Entry Text) (x : EncoderSnap) : Prop where
  consistent : Registry.Consistent reservationTtlMs x.clock (registryOf x.shared)
    (Function.update (clients x.others) p b)
  checked : ∀ q ≠ p, ∀ c r t, x.others q = some c → c.stage = .returned (.transaction r) t →
    Checked enc c r.psbt

theorem clients_cfg (p : ℕ) (x : EncoderSnap) :
    clients (x.cfg p).calls = Function.update (clients x.others) p (entryOf x.call) := by
  funext q
  by_cases hq : q = p
  · subst hq
    simp [clients]
  · simp [clients, Snap.cfg, hq]

theorem Around.cfg (h : Around enc p (entryOf x.call) x)
    (hown : ∀ r t, x.call.stage = .returned (.transaction r) t → Checked enc x.call r.psbt) :
    Duplicates enc (x.cfg p) where
  consistent := by
    rw [clients_cfg]
    exact h.consistent
  checked q c r t hq hs := by
    by_cases he : q = p
    · subst he
      obtain rfl : x.call = c := Option.some.inj ((x.cfg_self q).symm.trans hq)
      exact hown r t hs
    · exact h.checked q he c r t ((Function.update_of_ne he ..).symm.trans hq) hs

theorem Duplicates.around (h : Duplicates enc (x.cfg p)) : Around enc p (entryOf x.call) x where
  consistent := by
    rw [← clients_cfg]
    exact h.consistent
  checked q hq c r t hc := h.checked q c r t ((Function.update_of_ne hq ..).trans hc)

theorem Around.tick {b : Registry.Entry Text} {t : ℕ} (h : Around enc p b x) (ht : x.clock ≤ t) :
    Around enc p b (x.tick t) :=
  ⟨h.consistent.pass ht, h.checked⟩

theorem Around.store {b b' : Registry.Entry Text} {s : Reservations} {l : Ledger}
    (h : Around enc p b x)
    (hs : Registry.Consistent reservationTtlMs x.clock (registryOf s)
      (Function.update (clients x.others) p b')) : Around enc p b' (x.store s l) :=
  ⟨hs, h.checked⟩

theorem ClaimsOnly.prunes {n t : ℕ} {s s' : Reservations} {l l' : Ledger}
    (h : ClaimsOnly n s l s' l') : Registry.Prunes t (registryOf s) (registryOf s') where
  stamp txid e he _ := by
    show s'.recentBuilds txid = some e
    rw [h.recentBuilds]
    exact he
  tickets id ticket hid := by
    have heq : (registryOf s').tickets = (registryOf s).tickets := by
      unfold registryOf
      rw [h.reservationTickets]
    rw [← heq]
    exact hid
  nextId := h.nextId

/-! ## Before the duplicate check -/

/-- A call that has recorded nothing yet. -/
structure Unrecorded (enc : Encoder) (p : ℕ) (x : EncoderSnap) : Prop where
  running : x.call.stage = .running
  unbuilt : x.call.ledger.buildTxid = none
  claims : ∀ claim ∈ x.call.ledger.claims, claim.expiry ≤ x.clock + reservationTtlMs
  around : Around enc p .blank x

theorem entryOf_running {c : EncoderCall} (hc : c.stage = .running) :
    entryOf c = ⟨registered c, none, none⟩ := by
  simp only [entryOf, receiptAt, releaseAt, hc]

theorem registered_unbuilt {c : EncoderCall} (hc : c.ledger.buildTxid = none) :
    registered c = none := by
  rw [registered, hc]
  rfl

theorem Unrecorded.entryOf (h : Unrecorded enc p x) : entryOf x.call = .blank := by
  rw [entryOf_running h.running, registered_unbuilt h.unbuilt]
  rfl

theorem Unrecorded.cfg (h : Unrecorded enc p x) : Duplicates enc (x.cfg p) :=
  Around.cfg (h.entryOf ▸ h.around) fun r t hs => by
    cases h.running.symm.trans hs

/-- **Nothing is recorded before the duplicate check.** -/
theorem wp_unrecorded {α : Type} {c : Prog α}
    (hc : Writes (σ := sig) ClaimsOnly c x.clock x.shared x.call.ledger)
    (hx : Unrecorded enc p x) : wp (duplicatesContract enc) p c (fun _ => Unrecorded enc p)
      (fun _ => Unrecorded enc p) x := by
  refine wp_writes hc hx (fun y t ht hy => ?_) (fun y s l hy hw => ?_) fun y hy => ?_
  · exact ⟨hy.running, hy.unbuilt, fun claim hclaim =>
      (hy.claims claim hclaim).trans (Nat.add_le_add_right ht _), hy.around.tick ht⟩
  · exact ⟨hy.running, hw.buildTxid.trans hy.unbuilt,
      fun claim hclaim => (hw.claims claim hclaim).elim (hy.claims claim) id,
      hy.around.store (hy.around.consistent.prune hw.prunes)⟩
  · refine ⟨hy.cfg, trivial, fun t s o ht hI => ?_⟩
    have haround := hI.around
    rw [show (y.later t s o).call = y.call from rfl, hy.entryOf] at haround
    exact ⟨hy.running, hy.unbuilt, fun claim hclaim =>
      (hy.claims claim hclaim).trans (Nat.add_le_add_right ht _), haround⟩

/-! ## The duplicate check -/

/-- A build that has recorded its transaction at `t`. -/
structure RecordedBuild (enc : Encoder) (p : ℕ) (psbt : Psbt) (txid : Text) (t : ℕ) (x : EncoderSnap) :
    Prop where
  running : x.call.stage = .running
  built : x.call.ledger.buildTxid = some txid
  reading : ∃ s, x.call.seen.getLast? = some (t, s) ∧ ∀ e, s.recentBuilds txid = some e → e ≤ t
  past : t ≤ x.clock
  named : psbt.unsignedTxid enc.lib = .ok txid
  claims : ∀ claim ∈ x.call.ledger.claims, claim.expiry ≤ t + reservationTtlMs
  around : Around enc p ⟨some (txid, t), none, none⟩ x

variable {psbt : Psbt} {txid : Text} {t : ℕ}

theorem RecordedBuild.entryOf (h : RecordedBuild enc p psbt txid t x) :
    entryOf x.call = ⟨some (txid, t), none, none⟩ := by
  obtain ⟨s, hs, -⟩ := h.reading
  have hreg : registered x.call = some (txid, t) := by
    simp only [registered, checkedAt, checkReading, h.built, h.running, hs, Option.bind_some,
      Option.map_some]
  rw [entryOf_running h.running, hreg]

theorem prunes_evictExpiredRecentBuilds (s : Reservations) (t : ℕ) :
    Registry.Prunes t (registryOf s) (registryOf (s.evictExpiredRecentBuilds t)) where
  stamp txid e he ht := by
    show (s.recentBuilds txid).filter (t < ·) = some e
    rw [show s.recentBuilds txid = some e from he]
    simp [ht]
  tickets _ _ h := h
  nextId := le_rfl

theorem registers_refuseDuplicateBuild {s s' : Reservations}
    (h : s.refuseDuplicateBuild txid t = (.ok (), s')) :
    Registry.Registers reservationTtlMs t txid (registryOf s) (registryOf s') ∧
      ∀ e, s.recentBuilds txid = some e → e ≤ t := by
  unfold Reservations.refuseDuplicateBuild at h
  dsimp only at h
  split_ifs at h with hdup
  · cases (Prod.mk.inj h).1
  obtain rfl := (Prod.mk.inj h).2
  have hfree : ∀ e, s.recentBuilds txid = some e → e ≤ t := by
    intro e he
    by_contra hlt
    refine hdup (Option.isSome_iff_exists.mpr ⟨e, ?_⟩)
    exact (prunes_evictExpiredRecentBuilds s t).stamp txid e he (not_le.mp hlt)
  refine ⟨⟨hfree, Function.update_self .., fun k e hk he ht => ?_, ?_, le_rfl⟩, hfree⟩
  · exact (Function.update_of_ne hk ..).trans
      ((prunes_evictExpiredRecentBuilds s t).stamp k e he ht)
  · exact fun id ticket hid => hid

/-- **A build that passes the duplicate check is recorded; another leaves no record.** -/
theorem wp_finishBuild_recorded {b : Built} (hx : Unrecorded enc p x) :
    wp (duplicatesContract enc) p (finishBuild enc b)
      (fun b' y => b' = b ∧ ∃ txid t, RecordedBuild enc p b.psbt txid t y)
      (fun _ => Unrecorded enc p) x := by
  rw [finishBuild_eq]
  intro t ht
  have hclaims : ∀ claim ∈ x.call.ledger.claims, claim.expiry ≤ t + reservationTtlMs :=
    fun claim hclaim => (hx.claims claim hclaim).trans (Nat.add_le_add_right ht _)
  have htick := hx.around.tick ht
  have hswept : Unrecorded enc p ((x.tick t).store (x.shared.evictExpiredRecentBuilds t)
      x.call.ledger) :=
    ⟨hx.running, hx.unbuilt, hclaims,
      htick.store (htick.consistent.prune (prunes_evictExpiredRecentBuilds x.shared t))⟩
  refine (wp_bind _).mpr (wp_ofExcept (fun txid htxid => ?_) fun _ _ => hswept)
  dsimp only [Snap.tick]
  rcases hdup : x.shared.refuseDuplicateBuild txid t with ⟨_ | _, s'⟩
  · exact hswept
  · obtain ⟨hreg, hfree⟩ := registers_refuseDuplicateBuild hdup
    refine ⟨rfl, txid, t, hx.running, rfl, ⟨x.shared, ?_, hfree⟩, le_rfl, htxid, hclaims, ?_⟩
    · exact List.getLast?_concat ..
    · have hcons := htick.consistent.register (Function.update_self ..) hreg
      rw [Function.update_idem] at hcons
      exact ⟨hcons, hx.around.checked⟩

/-! ## The receipt -/

theorem registryOf_issue (s : Reservations) (ticket : Ticket) :
    registryOf { s with
        reservationTickets := Function.update s.reservationTickets s.nextId (some ticket)
        nextId := s.nextId + 1 } =
      ⟨s.recentBuilds, Function.update (registryOf s).tickets s.nextId
        (some ⟨ticket.expiry, ticket.txid, ticket.txidExpiry⟩), s.nextId + 1⟩ := by
  unfold registryOf
  congr 1
  funext id
  exact Function.apply_update (fun _ => Option.map _) _ _ _ id

theorem foldl_expiry_le {n : ℕ} {claims : List Claim} (h : ∀ claim ∈ claims, claim.expiry ≤ n) :
    ∀ e ≤ n, claims.foldl (fun e claim => if e < claim.expiry then claim.expiry else e) e ≤ n := by
  induction claims with
  | nil => exact fun _ he => he
  | cons c cs ih =>
    intro e he
    refine ih (fun claim hc => h claim (List.mem_cons_of_mem c hc)) _ ?_
    show (if e < c.expiry then c.expiry else e) ≤ n
    split_ifs
    · exact h c List.mem_cons_self
    · exact he

/-- **The receipt of a call is a ticket for what it recorded.** -/
theorem Around.mint {reg : Option (Text × ℕ)} {l : Ledger} (h : Around enc p ⟨reg, none, none⟩ x)
    (ht : x.clock ≤ t) (hbuilt : l.buildTxid = reg.map Prod.fst)
    (hclaims : ∀ txid c, reg = some (txid, c) → ∀ claim ∈ l.claims,
      claim.expiry ≤ c + reservationTtlMs) :
    Registry.Consistent reservationTtlMs t (registryOf (x.shared.mintReservationTicket l t).2)
      (Function.update (clients x.others) p ⟨reg,
        (x.shared.mintReservationTicket l t).1.map fun receipt => (receipt.id, t), none⟩) := by
  have hswept : Registry.Prunes t (registryOf x.shared)
      (registryOf (x.shared.evictExpiredReservationTickets t)) := by
    refine ⟨fun _ _ he _ => he, fun id ticket hid => ?_, le_rfl⟩
    obtain ⟨ticket', hfiltered, rfl⟩ := Option.map_eq_some_iff.mp hid
    exact Option.map_eq_some_iff.mpr ⟨ticket', (Option.filter_eq_some_iff.mp hfiltered).1, rfl⟩
  have hcons := (h.consistent.pass ht).prune hswept
  unfold Reservations.mintReservationTicket
  dsimp only
  split_ifs with hlive
  · exact hcons
  · generalize hlist : l.claims.filter _ = live at hlive ⊢
    have hexpiry : ∀ txid c, reg = some (txid, c) → live.foldl (fun e claim =>
        if e < claim.expiry then claim.expiry else e) 0 ≤ c + reservationTtlMs := by
      intro txid c hreg
      refine foldl_expiry_le (fun claim hc => hclaims txid c hreg claim ?_) 0 (Nat.zero_le _)
      rw [← hlist] at hc
      exact List.mem_of_mem_filter hc
    have hmint := hcons.mint (Function.update_self ..)
      ⟨_, l.buildTxid, l.buildTxid.bind x.shared.recentBuilds⟩ hbuilt rfl hexpiry
    rw [Function.update_idem] at hmint
    exact (registryOf_issue (x.shared.evictExpiredReservationTickets t)
      ⟨live, _, l.buildTxid, l.buildTxid.bind x.shared.recentBuilds⟩).symm ▸ hmint

theorem Unrecorded.threw (h : Unrecorded enc p x) (e : BuildError) :
    Duplicates enc ((x.threw e).cfg p) := by
  have hentry : XChain.entryOf (x.threw e).call = .blank := by
    have hreg : registered (x.threw e).call = none := registered_unbuilt h.unbuilt
    show (⟨registered (x.threw e).call, none, none⟩ : Registry.Entry Text) = _
    rw [hreg]
    rfl
  refine Around.cfg ?_ fun r t hs => by cases hs
  rw [hentry]
  exact ⟨h.around.consistent, h.around.checked⟩

theorem wp_yieldTick_recorded {Q : Unit → EncoderSnap → Prop} {E : BuildError → EncoderSnap → Prop}
    (hx : RecordedBuild enc p psbt txid t x) (hQ : ∀ y, RecordedBuild enc p psbt txid t y → Q () y) :
    wp (duplicatesContract enc) p yieldTick Q E x := by
  have hcfg : Duplicates enc (x.cfg p) := Around.cfg (hx.entryOf ▸ hx.around) fun r t hs => by
    cases hx.running.symm.trans hs
  refine ⟨hcfg, trivial, fun _ _ t' s o ht hI => hQ _ ?_⟩
  have haround := hI.around
  rw [show (x.later t' s o).call = x.call from rfl, hx.entryOf] at haround
  exact ⟨hx.running, hx.built, hx.reading, hx.past.trans ht, hx.named, hx.claims, haround⟩

/-- **A recorded build returns with its receipt.** -/
theorem RecordedBuild.returned {r : TxResult} {t' : ℕ} (hx : RecordedBuild enc p psbt txid t x)
    (ht : x.clock ≤ t') (hr : r.psbt = psbt)
    (hreceipt : r.reservation = (x.shared.mintReservationTicket x.call.ledger t').1) :
    Duplicates enc ((((x.tick t').store (x.shared.mintReservationTicket x.call.ledger t').2
      x.call.ledger).returned (.transaction r)).cfg p) := by
  obtain ⟨s, hs, hfree⟩ := hx.reading
  generalize hy : ((x.tick t').store (x.shared.mintReservationTicket x.call.ledger t').2
    x.call.ledger).returned (.transaction r) = y
  have hread : checkReading y.call = some (t, s) := by
    rw [← hy]
    show (x.call.seen ++ [(t', x.shared)]).dropLast.getLast? = _
    rw [List.dropLast_concat, hs]
  have hreg : registered y.call = some (txid, t) := by
    have hbuilt : y.call.ledger.buildTxid = some txid := by
      rw [← hy]
      exact hx.built
    simp only [registered, checkedAt, hbuilt, hread, Option.bind_some, Option.map_some]
  have hcons := hx.around.mint (l := x.call.ledger) ht hx.built (by
    rintro _ _ ⟨⟩
    exact hx.claims)
  have hentry : XChain.entryOf y.call = ⟨some (txid, t),
      (x.shared.mintReservationTicket x.call.ledger t').1.map fun receipt => (receipt.id, t'),
      none⟩ := by
    rw [XChain.entryOf, hreg, ← hreceipt, ← hy]
    rfl
  refine Around.cfg ?_ fun r' n hs' => ?_
  · rw [hentry, ← hy]
    exact ⟨hcons, hx.around.checked⟩
  · obtain rfl : r = r' := by
      rw [← hy] at hs'
      cases hs'
      rfl
    refine ⟨txid, t, s, by rw [hr, hx.named], hreg, hread, hfree, fun a n hn => ?_⟩
    rw [← hy] at hn
    cases hn
    exact hx.past.trans ht

/-- A cancel records no build; its receipt is a ticket all the same. -/
theorem Unrecorded.returned {r : CancelResult} {t' : ℕ} (hx : Unrecorded enc p x)
    (ht : x.clock ≤ t')
    (hreceipt : r.reservation = (x.shared.mintReservationTicket x.call.ledger t').1) :
    Duplicates enc ((((x.tick t').store (x.shared.mintReservationTicket x.call.ledger t').2
      x.call.ledger).returned (.cancel r)).cfg p) := by
  generalize hy : ((x.tick t').store (x.shared.mintReservationTicket x.call.ledger t').2
    x.call.ledger).returned (.cancel r) = y
  have hreg : registered y.call = none := by
    rw [← hy]
    exact registered_unbuilt hx.unbuilt
  have hcons := hx.around.mint (l := x.call.ledger) ht hx.unbuilt (by rintro _ _ ⟨⟩)
  have hentry : XChain.entryOf y.call = ⟨none,
      (x.shared.mintReservationTicket x.call.ledger t').1.map fun receipt => (receipt.id, t'),
      none⟩ := by
    rw [XChain.entryOf, hreg, ← hreceipt, ← hy]
    rfl
  refine Around.cfg ?_ fun r' n hs' => ?_
  · rw [hentry, ← hy]
    exact ⟨hcons, hx.around.checked⟩
  · rw [← hy] at hs'
    cases hs'

/-! ## Releasing -/

theorem prunes_sweep (s : Reservations) (t : ℕ) :
    Registry.Prunes t (registryOf s) (registryOf (s.sweep t)) where
  stamp := (prunes_evictExpiredRecentBuilds s t).stamp
  tickets id ticket hid := by
    obtain ⟨ticket', hfiltered, rfl⟩ := Option.map_eq_some_iff.mp hid
    exact Option.map_eq_some_iff.mpr ⟨ticket', (Option.filter_eq_some_iff.mp hfiltered).1, rfl⟩
  nextId := le_rfl

theorem retires_retireRecentBuild {s s' : Reservations} {id : ℕ} {ticket : Ticket}
    (hs : Reservations.SameBuilds
      { s with reservationTickets := Function.update s.reservationTickets id none } s') :
    Registry.Retires t id ⟨ticket.expiry, ticket.txid, ticket.txidExpiry⟩ (registryOf s)
      (registryOf (s'.retireRecentBuild ticket)) where
  stamp txid e hnot he _ := by
    have hkept : s'.recentBuilds txid = some e := by
      rw [hs.recentBuilds]
      exact he
    show (s'.retireRecentBuild ticket).recentBuilds txid = some e
    unfold Reservations.retireRecentBuild
    split
    · rename_i txid' e' htxid hstamp
      split_ifs with hown
      · -- The ticket's stamp is that of its own transaction.
        have hne : txid ≠ txid' := by
          rintro rfl
          cases hkept.symm.trans hown
          exact hnot ⟨htxid, hstamp⟩
        exact (Function.update_of_ne hne ..).trans hkept
      · exact hkept
    · exact hkept
  tickets i τ hi := by
    obtain ⟨ticket', hkept, rfl⟩ := Option.map_eq_some_iff.mp hi
    rw [(sameMaps_retireRecentBuild s' ticket).2.1, hs.reservationTickets] at hkept
    have hne : i ≠ id := by
      rintro rfl
      cases (Function.update_self ..).symm.trans hkept
    exact ⟨Option.map_eq_some_iff.mpr
      ⟨ticket', (Function.update_of_ne hne ..).symm.trans hkept, rfl⟩, hne⟩
  nextId := by
    show s.nextId ≤ (s'.retireRecentBuild ticket).nextId
    rw [(sameMaps_retireRecentBuild s' ticket).2.2, hs.nextId]

theorem releaseReservation_none {s : Reservations} {id : ℕ}
    (h : (s.sweep t).reservationTickets id = none) :
    s.releaseReservation id t = (⟨id, false, [], []⟩, s.sweep t) := by
  unfold Reservations.releaseReservation
  simp only [h]

theorem releaseReservation_some {s : Reservations} {id : ℕ} {ticket : Ticket}
    (h : (s.sweep t).reservationTickets id = some ticket) :
    ∃ result s', s.releaseReservation id t = (result, s'.retireRecentBuild ticket) ∧
      result.found = true ∧ result.reservationId = id ∧ Reservations.SameBuilds { s.sweep t with
        reservationTickets := Function.update (s.sweep t).reservationTickets id none } s' := by
  unfold Reservations.releaseReservation
  simp only [h]
  exact ⟨_, _, rfl, (releaseTicketClaims_result t ticket.claims _).1,
    (releaseTicketClaims_result t ticket.claims _).2,
    (Reservations.table_releaseClaims t ticket.claims (⟨id, true, [], []⟩, { s.sweep t with
      reservationTickets := Function.update (s.sweep t).reservationTickets id none })).2⟩

/-- **A release spends its ticket, or finds none.** -/
theorem Unrecorded.released {id : ℕ} (hx : Unrecorded enc p x) (ht : x.clock ≤ t) :
    Duplicates enc ((((x.tick t).store (x.shared.releaseReservation id t).2
      x.call.ledger).returned (.release (x.shared.releaseReservation id t).1)).cfg p) := by
  generalize hy : ((x.tick t).store (x.shared.releaseReservation id t).2
    x.call.ledger).returned (.release (x.shared.releaseReservation id t).1) = y
  have hreg : registered y.call = none := by
    rw [← hy]
    exact registered_unbuilt hx.unbuilt
  have hswept := (hx.around.consistent.pass ht).prune (prunes_sweep x.shared t)
  have hcons : Registry.Consistent reservationTtlMs t
      (registryOf (x.shared.releaseReservation id t).2) (Function.update (clients x.others) p
        ⟨none, none, if (x.shared.releaseReservation id t).1.found then
          some ((x.shared.releaseReservation id t).1.reservationId, t) else none⟩) := by
    cases hticket : (x.shared.sweep t).reservationTickets id with
    | none =>
      rw [releaseReservation_none hticket]
      exact hswept
    | some ticket =>
      obtain ⟨result, s', heq, hfound, hid, hsame⟩ := releaseReservation_some hticket
      have hgood : t < ticket.expiry := by
        have hfilter : ((x.shared.reservationTickets id).filter fun ticket => t < ticket.expiry) =
          some ticket := hticket
        simpa using (Option.filter_eq_some_iff.mp hfilter).2
      have hrel := hswept.release (Function.update_self ..)
        (Option.map_eq_some_iff.mpr ⟨ticket, hticket, rfl⟩) hgood
        (retires_retireRecentBuild hsame)
      rw [Function.update_idem] at hrel
      rw [heq, hfound, hid, if_pos rfl]
      exact hrel
  have hentry : XChain.entryOf y.call = ⟨none, none,
      if (x.shared.releaseReservation id t).1.found then
        some ((x.shared.releaseReservation id t).1.reservationId, t) else none⟩ := by
    rw [XChain.entryOf, hreg, ← hy]
    rfl
  refine Around.cfg ?_ fun r' n hs' => ?_
  · rw [hentry, ← hy]
    exact ⟨hcons, hx.around.checked⟩
  · rw [← hy] at hs'
    cases hs'

end XChain
