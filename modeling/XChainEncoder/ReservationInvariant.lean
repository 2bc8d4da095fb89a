import XChainEncoder.EnvelopeCancel

/-!
# The invariant of the reservation maps

What the four maps mean, in terms of the calls that were made.

* `Record`, `Records`: one call's command, ledger and stage; all calls;
* `Record.GaveBack`, `leases`: which claims are still held, read off the calls alone;
* `Inv`: the maps agree with the calls: the held claims are consistent with reservations and
  owners, and tickets and recent builds are those of calls that were made;
* `Inv.pass`, `Inv.sweep`: time and sweeping keep it;
* `Inv.claim`, `Inv.claimOwner`: so does claiming.
-/

namespace XChain

open Coroutine

/-! ## Calls and held claims -/

/-- A call as the invariant sees it. -/
structure Record where
  command : Command
  ledger : Ledger
  stage : Stage sig CallResult

namespace Record

/-- A release call that found the ticket `id`. -/
def Releases (r : Record) (id : ℕ) : Prop :=
  ∃ result t, r.stage = .returned (.release result) t ∧ result.found = true ∧
    result.reservationId = id

/-- The call returned this receipt. -/
def HasReceipt (r : Record) (receipt : Receipt) : Prop :=
  ∃ a t, r.stage = .returned a t ∧ a.reservation = some receipt

def Threw (r : Record) : Prop := ∃ e t, r.stage = .threw e t

/-- The call no longer holds its claim on `key`: it threw, or its receipt names `key` and was
released. -/
def GaveBack (released : ℕ → Prop) (r : Record) (key : Outpoint) : Prop :=
  r.Threw ∨ ∃ receipt, r.HasReceipt receipt ∧ key ∈ receipt.outpoints ∧ released receipt.id

open Classical in
/-- What the call holds on `key`. -/
noncomputable def held (released : ℕ → Prop) (r : Record) (key : Outpoint) :
    Option (Lease.Holding Outpoint) :=
  if r.GaveBack released key then none
  else (r.ledger.claims.find? fun c => c.key = key).map Claim.holding

end Record

/-- All calls by their number. -/
abbrev Records : Type := ℕ → Option Record

/-- Some release call found the ticket `id`. -/
def Released (v : Records) (id : ℕ) : Prop := ∃ p r, v p = some r ∧ r.Releases id

/-- The claims that are held, by call and outpoint. -/
noncomputable def leases (v : Records) (i : ℕ × Outpoint) : Option (Lease.Holding Outpoint) :=
  (v i.1).bind fun r => r.held (Released v) i.2

/-- What a ledger can look like: distinct outpoints; owner tokens on the cancel path only, and one
claim there. -/
structure LedgerShape (command : Command) (l : Ledger) : Prop where
  nodup : (l.claims.map Claim.key).Nodup
  noOwner : ∀ request, command = .createTransaction request →
    ∀ c ∈ l.claims, c.cancelOwnerId = none
  oneOwner : ∀ request, command = .createEnvelopeCancelTransaction request →
    l.claims.length ≤ 1 ∧ ∀ c ∈ l.claims, c.cancelOwnerId ≠ none
  noClaim : ∀ id, command = .releaseReservation id → l.claims = []

/-- The ledgers of all calls: owner tokens were drawn once each, below `nextId`. -/
structure Ledgers (nextId : ℕ) (v : Records) : Prop where
  shape : ∀ p r, v p = some r → LedgerShape r.command r.ledger
  ownerId : ∀ p r c o, v p = some r → c ∈ r.ledger.claims → c.cancelOwnerId = some o → o < nextId
  ownerOnce : ∀ p q r r' c c' o, v p = some r → v q = some r' → c ∈ r.ledger.claims →
    c' ∈ r'.ledger.claims → c.cancelOwnerId = some o → c'.cancelOwnerId = some o → p = q

/-- The ticket `id` is that of a call's receipt. -/
def Issued (v : Records) (id : ℕ) (ticket : Ticket) : Prop :=
  ∃ p r receipt, v p = some r ∧ r.HasReceipt receipt ∧ receipt.id = id ∧
    ticket.claims.Sublist r.ledger.claims ∧ receipt.outpoints = ticket.claims.map Claim.key ∧
    receipt.expiresAt = ticket.expiry

/-- Tickets and receipts name each other until they are released. -/
structure Tickets (t nextId : ℕ) (tickets : ℕ → Option Ticket) (v : Records) : Prop where
  issued : ∀ id ticket, tickets id = some ticket → Issued v id ticket ∧ ¬ Released v id
  receiptId : ∀ p r receipt, v p = some r → r.HasReceipt receipt → receipt.id < nextId
  receiptOnce : ∀ p q r r' receipt receipt', v p = some r → v q = some r' →
    r.HasReceipt receipt → r'.HasReceipt receipt' → receipt.id = receipt'.id → p = q
  releasedId : ∀ id, Released v id → id < nextId
  kept : ∀ p r receipt, v p = some r → r.HasReceipt receipt → ¬ Released v receipt.id →
    t < receipt.expiresAt → ∃ ticket, tickets receipt.id = some ticket

/-- Every live recent build is of a call that did not throw. -/
structure Builds (t : ℕ) (recentBuilds : Text → Option ℕ) (v : Records) : Prop where
  backed : ∀ txid e, recentBuilds txid = some e → t < e →
    ∃ p r, v p = some r ∧ r.ledger.buildTxid = some txid ∧ ¬ r.Threw
  threw : ∀ p r, v p = some r → r.Threw → r.ledger.buildTxid = none

/-- The maps agree with the calls at time `t`. -/
structure Inv (t : ℕ) (s : Reservations) (v : Records) : Prop where
  consistent : Lease.Consistent reservationTtlMs t s.table (leases v)
  ledgers : Ledgers s.nextId v
  tickets : Tickets t s.nextId s.reservationTickets v
  builds : Builds t s.recentBuilds v

/-! ## Reading held claims -/

theorem find_key {l : List Claim} (hnd : (l.map Claim.key).Nodup) {c : Claim} {key : Outpoint} :
    l.find? (fun c => c.key = key) = some c ↔ c ∈ l ∧ c.key = key := by
  induction l with
  | nil => simp
  | cons d l ih =>
    rw [List.map_cons, List.nodup_cons] at hnd
    by_cases hd : d.key = key
    · rw [List.find?_cons_of_pos (by simpa using hd)]
      constructor
      · intro h
        cases h
        exact ⟨List.mem_cons_self, hd⟩
      · rintro ⟨hc, hk⟩
        rcases List.mem_cons.mp hc with rfl | hc
        · rfl
        · have hin : c.key ∈ l.map Claim.key := List.mem_map_of_mem hc
          rw [hk, ← hd] at hin
          exact absurd hin hnd.1
    · rw [List.find?_cons_of_neg (by simpa using hd), ih hnd.2]
      refine and_congr_left fun hk => ⟨List.mem_cons_of_mem d, fun hc => ?_⟩
      rcases List.mem_cons.mp hc with rfl | hc
      · exact absurd hk hd
      · exact hc

namespace Record

variable {released : ℕ → Prop} {r : Record} {key : Outpoint}

theorem held_eq_some (hnd : (r.ledger.claims.map Claim.key).Nodup)
    {h : Lease.Holding Outpoint} :
    r.held released key = some h ↔
      ¬ r.GaveBack released key ∧ ∃ c ∈ r.ledger.claims, c.key = key ∧ c.holding = h := by
  unfold held
  split_ifs with hg
  · simp [hg]
  · rw [Option.map_eq_some_iff]
    simp only [find_key hnd, hg, not_false_eq_true, true_and, and_assoc]

theorem held_eq_none (h : key ∉ r.ledger.claims.map Claim.key) : r.held released key = none := by
  unfold held
  split_ifs
  · rfl
  · rw [Option.map_eq_none_iff, List.find?_eq_none]
    rintro c hc hk
    exact h (List.mem_map.mpr ⟨c, hc, of_decide_eq_true hk⟩)

/-- Two records of the same claims that gave the same back hold the same. -/
theorem held_congr {r' : Record} {released' : ℕ → Prop}
    (hl : r'.ledger.claims = r.ledger.claims)
    (hg : r'.GaveBack released' key ↔ r.GaveBack released key) :
    r'.held released' key = r.held released key := by
  unfold held
  rw [hl]
  by_cases h : r.GaveBack released key
  · rw [if_pos h, if_pos (hg.mpr h)]
  · rw [if_neg h, if_neg (mt hg.mp h)]

theorem not_gaveBack (ht : ¬ r.Threw) (hr : ∀ receipt, ¬ r.HasReceipt receipt) :
    ¬ r.GaveBack released key := by
  rintro (h | ⟨receipt, h, -⟩)
  · exact ht h
  · exact hr receipt h

theorem hasReceipt_unique {receipt receipt' : Receipt} (h : r.HasReceipt receipt)
    (h' : r.HasReceipt receipt') : receipt = receipt' := by
  obtain ⟨a, t, hs, ha⟩ := h
  obtain ⟨a', t', hs', ha'⟩ := h'
  have heq := hs.symm.trans hs'
  cases heq
  exact Option.some.inj (ha.symm.trans ha')

end Record

/-! ## One call moves -/

/-- The calls with the record of `p` replaced. -/
def Records.set (v : Records) (p : ℕ) (r : Record) : Records := Function.update v p (some r)

section Set

variable {v : Records} {p q : ℕ} {r r' : Record}

@[simp] theorem set_self : v.set p r p = some r := Function.update_self ..

theorem set_of_ne (h : q ≠ p) : v.set p r q = v q := Function.update_of_ne h ..

theorem set_eq_some {x : Record} :
    v.set p r q = some x ↔ q = p ∧ x = r ∨ q ≠ p ∧ v q = some x := by
  by_cases h : q = p
  · subst h
    simp [eq_comm]
  · simp [h, set_of_ne]

theorem released_set {id : ℕ} :
    Released (v.set p r) id ↔ r.Releases id ∨ ∃ q x, q ≠ p ∧ v q = some x ∧ x.Releases id := by
  constructor
  · rintro ⟨q, x, hx, hr⟩
    rcases set_eq_some.mp hx with ⟨-, rfl⟩ | ⟨hq, hx⟩
    · exact .inl hr
    · exact .inr ⟨q, x, hq, hx, hr⟩
  · rintro (hr | ⟨q, x, hq, hx, hr⟩)
    · exact ⟨p, r, set_self, hr⟩
    · exact ⟨q, x, by rwa [set_of_ne hq], hr⟩

theorem released_congr (h : ∀ id, ¬ r.Releases id) (h' : ∀ id, ¬ r'.Releases id) :
    Released (v.set p r') = Released (v.set p r) := by
  funext id
  rw [eq_iff_iff, released_set, released_set]
  simp only [h id, h' id, false_or]

theorem leases_set_self (key : Outpoint) :
    leases (v.set p r) (p, key) = r.held (Released (v.set p r)) key := by
  simp [leases]

theorem leases_set_of_ne (h : q ≠ p) (key : Outpoint) :
    leases (v.set p r) (q, key) = (v q).bind fun x => x.held (Released (v.set p r)) key := by
  simp [leases, set_of_ne h]

theorem leases_congr (hl : r'.ledger.claims = r.ledger.claims)
    (hg : ∀ key, ¬ r.GaveBack (Released (v.set p r)) key)
    (hg' : ∀ key, ¬ r'.GaveBack (Released (v.set p r')) key)
    (hR : Released (v.set p r') = Released (v.set p r)) :
    leases (v.set p r') = leases (v.set p r) := by
  funext ⟨q, key⟩
  by_cases hq : q = p
  · subst hq
    rw [leases_set_self, leases_set_self]
    exact Record.held_congr hl (iff_of_false (hg' key) (hg key))
  · rw [leases_set_of_ne hq, leases_set_of_ne hq, hR]

end Set

/-- A call that is still running. -/
def Record.running (command : Command) (l : Ledger) : Record := ⟨command, l, .running⟩

section Running

variable {command : Command} {l : Ledger}

theorem running_threw : ¬ (Record.running command l).Threw := by
  rintro ⟨e, t, h⟩
  cases h

theorem running_hasReceipt (receipt : Receipt) :
    ¬ (Record.running command l).HasReceipt receipt := by
  rintro ⟨a, t, h, -⟩
  cases h

theorem running_releases (id : ℕ) : ¬ (Record.running command l).Releases id := by
  rintro ⟨result, t, h, -⟩
  cases h

end Running

section Transfer

variable {v : Records} {p t n n' : ℕ} {r r' : Record}

theorem Ledgers.set (h : Ledgers n (v.set p r)) (hn : n ≤ n')
    (hshape : LedgerShape r'.command r'.ledger)
    (hnew : ∀ c ∈ r'.ledger.claims, ∀ o, c.cancelOwnerId = some o →
      c ∈ r.ledger.claims ∨ n ≤ o ∧ o < n') : Ledgers n' (v.set p r') where
  shape q x hx := by
    rcases set_eq_some.mp hx with ⟨-, rfl⟩ | ⟨hq, hx⟩
    · exact hshape
    · exact h.shape q x (by rwa [set_of_ne hq])
  ownerId q x c o hx hc ho := by
    rcases set_eq_some.mp hx with ⟨-, rfl⟩ | ⟨hq, hx⟩
    · rcases hnew c hc o ho with hc | ho'
      · exact (h.ownerId p r c o set_self hc ho).trans_le hn
      · exact ho'.2
    · exact (h.ownerId q x c o (by rwa [set_of_ne hq]) hc ho).trans_le hn
  ownerOnce q q' x x' c c' o hx hx' hc hc' ho ho' := by
    -- A token of another call is older than one just drawn.
    have apart : ∀ (q : ℕ) (x : Record) (c c' : Claim), q ≠ p → v q = some x →
        c ∈ r'.ledger.claims → c' ∈ x.ledger.claims → c.cancelOwnerId = some o →
        c'.cancelOwnerId = some o → False := by
      intro q x c c' hq hx hc hc' ho ho'
      have hx' : v.set p r q = some x := by rwa [set_of_ne hq]
      rcases hnew c hc o ho with hc | ⟨hlow, -⟩
      · exact hq (h.ownerOnce p q r x c c' o set_self hx' hc hc' ho ho').symm
      · exact absurd (h.ownerId q x c' o hx' hc' ho') (Nat.not_lt.mpr hlow)
    rcases set_eq_some.mp hx with ⟨hq, rfl⟩ | ⟨hq, hxq⟩ <;>
      rcases set_eq_some.mp hx' with ⟨hq', rfl⟩ | ⟨hq', hxq'⟩
    · exact hq.trans hq'.symm
    · exact (apart q' x' c c' hq' hxq' hc hc' ho ho').elim
    · exact (apart q x c' c hq hxq hc' hc ho' ho).elim
    · exact h.ownerOnce q q' x x' c c' o (by rwa [set_of_ne hq]) (by rwa [set_of_ne hq']) hc hc' ho
        ho'

theorem Tickets.set {T : ℕ → Option Ticket} (h : Tickets t n T (v.set p r)) (hn : n ≤ n')
    (hr : ∀ receipt, ¬ r.HasReceipt receipt) (hr' : ∀ receipt, ¬ r'.HasReceipt receipt)
    (hrel : ∀ id, ¬ r.Releases id) (hrel' : ∀ id, ¬ r'.Releases id) :
    Tickets t n' T (v.set p r') := by
  have hR := released_congr (v := v) (p := p) hrel hrel'
  -- A receipt is never that of `p`.
  have other : ∀ {q : ℕ} {x : Record} {receipt : Receipt}, v.set p r' q = some x →
      x.HasReceipt receipt → v.set p r q = some x := by
    intro q x receipt hx hrc
    rcases set_eq_some.mp hx with ⟨-, rfl⟩ | ⟨hq, hx⟩
    · exact absurd hrc (hr' receipt)
    · rwa [set_of_ne hq]
  refine
    { issued := fun id ticket hT => ?_
      receiptId := fun q x receipt hx hrc => (h.receiptId q x receipt (other hx hrc) hrc).trans_le hn
      receiptOnce := fun q q' x x' receipt receipt' hx hx' hrc hrc' =>
        h.receiptOnce q q' x x' receipt receipt' (other hx hrc) (other hx' hrc') hrc hrc'
      releasedId := fun id hid => (h.releasedId id (hR ▸ hid)).trans_le hn
      kept := fun q x receipt hx hrc hnot => h.kept q x receipt (other hx hrc) hrc (hR ▸ hnot) }
  obtain ⟨⟨q, x, receipt, hx, hrc, hrest⟩, hnot⟩ := h.issued id ticket hT
  refine ⟨⟨q, x, receipt, ?_, hrc, hrest⟩, hR ▸ hnot⟩
  rcases set_eq_some.mp hx with ⟨-, rfl⟩ | ⟨hq, hx⟩
  · exact absurd hrc (hr receipt)
  · rwa [set_of_ne hq]

theorem Builds.set {B : Text → Option ℕ} (h : Builds t B (v.set p r))
    (hb : r'.ledger.buildTxid = r.ledger.buildTxid)
    (ht : r'.Threw → r'.ledger.buildTxid = none) : Builds t B (v.set p r') where
  backed txid e he hl := by
    obtain ⟨q, x, hx, htx, hth⟩ := h.backed txid e he hl
    rcases set_eq_some.mp hx with ⟨-, rfl⟩ | ⟨hq, hx⟩
    · refine ⟨p, r', set_self, hb.trans htx, fun hthrew => ?_⟩
      rw [hb, htx] at ht
      cases ht hthrew
    · exact ⟨q, x, by rwa [set_of_ne hq], htx, hth⟩
  threw q x hx hthrew := by
    rcases set_eq_some.mp hx with ⟨-, rfl⟩ | ⟨hq, hx⟩
    · exact ht hthrew
    · exact h.threw q x (by rwa [set_of_ne hq]) hthrew

end Transfer

/-! ## Time and sweeping -/

/-- `s'` is `s` without some lapsed entries. -/
structure Sweeps (t : ℕ) (s s' : Reservations) : Prop where
  stamp : ∀ k, s'.outpointReservations k = s.outpointReservations k ∨
    s'.outpointReservations k = none ∧ s.table.Free k t
  owners : ∀ k w, w ∈ s'.envelopeCancelClaims k → w ∈ s.envelopeCancelClaims k
  liveOwners : ∀ k w, w ∈ s.envelopeCancelClaims k → t < w.2 → w ∈ s'.envelopeCancelClaims k
  recentBuilds : ∀ txid e, s'.recentBuilds txid = some e → s.recentBuilds txid = some e
  liveBuilds : ∀ txid e, s.recentBuilds txid = some e → t < e → s'.recentBuilds txid = some e
  tickets : ∀ id ticket, s'.reservationTickets id = some ticket →
    s.reservationTickets id = some ticket
  liveTickets : ∀ id ticket, s.reservationTickets id = some ticket → t < ticket.expiry →
    s'.reservationTickets id = some ticket
  nextId : s'.nextId = s.nextId

namespace Sweeps

variable {t : ℕ} {s s' s'' : Reservations}

theorem refl (t : ℕ) (s : Reservations) : Sweeps t s s where
  stamp _ := .inl rfl
  owners _ _ h := h
  liveOwners _ _ h _ := h
  recentBuilds _ _ h := h
  liveBuilds _ _ h _ := h
  tickets _ _ h := h
  liveTickets _ _ h _ := h
  nextId := rfl

theorem trans (h : Sweeps t s s') (h' : Sweeps t s' s'') : Sweeps t s s'' where
  stamp k := by
    rcases h'.stamp k with h1 | ⟨h1, h2⟩
    · rw [h1]
      exact h.stamp k
    · rcases h.stamp k with h3 | ⟨-, h4⟩
      · exact .inr ⟨h1, fun e he => h2 e (h3.trans he)⟩
      · exact .inr ⟨h1, h4⟩
  owners k w hw := h.owners k w (h'.owners k w hw)
  liveOwners k w hw hl := h'.liveOwners k w (h.liveOwners k w hw hl) hl
  recentBuilds txid e he := h.recentBuilds txid e (h'.recentBuilds txid e he)
  liveBuilds txid e he hl := h'.liveBuilds txid e (h.liveBuilds txid e he hl) hl
  tickets id ticket ht := h.tickets id ticket (h'.tickets id ticket ht)
  liveTickets id ticket ht hl := h'.liveTickets id ticket (h.liveTickets id ticket ht hl) hl
  nextId := h'.nextId.trans h.nextId

variable {now : ℕ}

theorem evictExpiredReservations (hn : now ≤ t) :
    Sweeps t s (s.evictExpiredReservations now) where
  stamp k := by
    simp only [Reservations.evictExpiredReservations]
    cases hs : s.outpointReservations k with
    | none => exact .inl rfl
    | some e =>
      by_cases he : now < e
      · exact .inl (by simp [Option.filter, he])
      · refine .inr ⟨by simp [Option.filter, he], fun e' he' => ?_⟩
        cases hs.symm.trans he'
        omega
  owners _ _ h := h
  liveOwners _ _ h _ := h
  recentBuilds _ _ h := h
  liveBuilds _ _ h _ := h
  tickets _ _ h := h
  liveTickets _ _ h _ := h
  nextId := rfl

theorem isOutpointReserved (hn : now ≤ t) (key : Outpoint) :
    Sweeps t s (s.isOutpointReserved key now).2 := by
  unfold Reservations.isOutpointReserved
  split
  · exact .refl t s
  · rename_i e he
    split_ifs with hle
    · refine { refl t s with stamp := fun k => ?_ }
      by_cases hk : k = key
      · subst hk
        refine .inr ⟨Function.update_self .., fun e' he' => ?_⟩
        cases he.symm.trans he'
        omega
      · exact .inl (Function.update_of_ne hk ..)
    · exact .refl t s

theorem evictExpiredEnvelopeCancelClaims (hn : now ≤ t) :
    Sweeps t s (s.evictExpiredEnvelopeCancelClaims now) :=
  { refl t s with
    owners := fun k w hw => (List.mem_filter.mp hw).1
    liveOwners := fun k w hw hl => List.mem_filter.mpr ⟨hw, decide_eq_true (by omega)⟩ }

theorem evictExpiredRecentBuilds (hn : now ≤ t) :
    Sweeps t s (s.evictExpiredRecentBuilds now) :=
  { refl t s with
    recentBuilds := fun txid e he => (Option.filter_eq_some_iff.mp he).1
    liveBuilds := fun txid e he hl =>
      Option.filter_eq_some_iff.mpr ⟨he, decide_eq_true (by omega)⟩ }

theorem evictExpiredReservationTickets (hn : now ≤ t) :
    Sweeps t s (s.evictExpiredReservationTickets now) :=
  { refl t s with
    tickets := fun id ticket ht => (Option.filter_eq_some_iff.mp ht).1
    liveTickets := fun id ticket ht hl =>
      Option.filter_eq_some_iff.mpr ⟨ht, decide_eq_true (by omega)⟩ }

theorem sweep (hn : now ≤ t) : Sweeps t s (s.sweep now) :=
  (((evictExpiredReservations hn).trans (evictExpiredEnvelopeCancelClaims hn)).trans
    (evictExpiredRecentBuilds hn)).trans (evictExpiredReservationTickets hn)

end Sweeps

namespace Inv

variable {t : ℕ} {s s' : Reservations} {v : Records}

/-- Time passes. -/
theorem pass (h : Inv t s v) {t' : ℕ} (ht : t ≤ t') : Inv t' s v where
  consistent := h.consistent.pass ht
  ledgers := h.ledgers
  tickets := { h.tickets with
    kept := fun p r receipt hr hrc hn hl => h.tickets.kept p r receipt hr hrc hn (by omega) }
  builds := { h.builds with
    backed := fun txid e he hl => h.builds.backed txid e he (by omega) }

/-- Lapsed entries may go. -/
theorem sweep (h : Inv t s v) (hs : Sweeps t s s') : Inv t s' v where
  consistent := h.consistent.sweep hs.stamp hs.owners hs.liveOwners
  ledgers := hs.nextId ▸ h.ledgers
  tickets :=
    { issued := fun id ticket hT => h.tickets.issued id ticket (hs.tickets id ticket hT)
      receiptId := fun p r receipt hr hrc => hs.nextId ▸ h.tickets.receiptId p r receipt hr hrc
      receiptOnce := h.tickets.receiptOnce
      releasedId := fun id hid => hs.nextId ▸ h.tickets.releasedId id hid
      kept := fun p r receipt hr hrc hn hl => by
        obtain ⟨ticket, hT⟩ := h.tickets.kept p r receipt hr hrc hn hl
        obtain ⟨q, x, receipt', hx, hrc', hid, -, -, hexp⟩ := (h.tickets.issued _ _ hT).1
        -- The ticket is that of the receipt itself, so it is live too.
        have hpq := h.tickets.receiptOnce q p x r receipt' receipt hx hr hrc' hrc hid
        subst hpq
        cases hx.symm.trans hr
        cases r.hasReceipt_unique hrc' hrc
        exact ⟨ticket, hs.liveTickets _ _ hT (hexp ▸ hl)⟩ }
  builds :=
    { backed := fun txid e he hl => h.builds.backed txid e (hs.recentBuilds txid e he) hl
      threw := h.builds.threw }

/-! ## Claiming -/

variable {p : ℕ}

theorem leases_append {command : Command} {l : Ledger} {c : Claim}
    (hc : c.key ∉ l.claims.map Claim.key) :
    leases (v.set p (.running command { l with claims := l.claims ++ [c] })) =
      Function.update (leases (v.set p (.running command l))) (p, c.key) (some c.holding) := by
  have hR : ∀ l l', Released (v.set p (.running command l)) =
      Released (v.set p (.running command l')) := fun l l' =>
    released_congr running_releases running_releases
  have hheld : ∀ R l (k : Outpoint), (Record.running command l).held R k =
      (l.claims.find? fun c => c.key = k).map Claim.holding := fun R l k =>
    if_neg (Record.not_gaveBack running_threw running_hasReceipt)
  funext ⟨q, k⟩
  by_cases hq : q = p
  · subst hq
    rw [leases_set_self, hheld]
    by_cases hk : k = c.key
    · subst hk
      have hnone : l.claims.find? (fun d => d.key = c.key) = none :=
        List.find?_eq_none.mpr fun d hd hdk =>
          hc (List.mem_map.mpr ⟨d, hd, of_decide_eq_true hdk⟩)
      rw [Function.update_self, List.find?_append, hnone]
      simp
    · have hne : (q, k) ≠ (q, c.key) := fun h => hk (Prod.mk.inj h).2
      rw [Function.update_of_ne hne, leases_set_self, hheld, List.find?_append]
      simp [Ne.symm hk]
  · have hne : (q, k) ≠ (p, c.key) := fun h => hq (Prod.mk.inj h).1
    rw [Function.update_of_ne hne, leases_set_of_ne hq, leases_set_of_ne hq, hR _ l]

/-- Claiming an outpoint that was free when the clock was last read. -/
theorem claim {request : TxRequest} {l : Ledger} {key : Outpoint} {now : ℕ}
    (h : Inv t s (v.set p (.running (.createTransaction request) l))) (hnow : now ≤ t)
    (hfree : s.table.Free key now) (hkey : key ∉ l.claims.map Claim.key) :
    Inv t (s.claimOutpoint l key now).2
      (v.set p (.running (.createTransaction request) (s.claimOutpoint l key now).1)) := by
  have hshape := h.ledgers.shape p _ set_self
  have hnone : leases (v.set p (.running (.createTransaction request) l)) (p, key) = none :=
    (leases_set_self key).trans (Record.held_eq_none hkey)
  refine
    { consistent := ?_
      ledgers := h.ledgers.set le_rfl ⟨?_, fun r hr c hc => ?_, ?_, ?_⟩ fun c hc o ho => ?_
      tickets := h.tickets.set le_rfl running_hasReceipt running_hasReceipt running_releases
        running_releases
      builds := h.builds.set rfl fun hth => absurd hth running_threw }
  · have htake := h.consistent.take hnone hnow hfree
    show Lease.Consistent _ _ _ (leases (v.set p (.running _
      { l with claims := l.claims ++ [⟨key, now + reservationTtlMs, none⟩] })))
    rw [leases_append (by exact hkey)]
    exact htake
  · show ((l.claims ++ [_]).map Claim.key).Nodup
    rw [List.map_append, List.nodup_append]
    refine ⟨hshape.nodup, List.nodup_singleton _, ?_⟩
    rintro a ha b hb rfl
    have ha' : a = key := List.mem_singleton.mp hb
    exact hkey (ha' ▸ ha)
  · rcases List.mem_append.mp hc with hc | hc
    · exact hshape.noOwner r hr c hc
    · exact List.mem_singleton.mp hc ▸ rfl
  · rintro _ ⟨⟩
  · rintro _ ⟨⟩
  · rcases List.mem_append.mp hc with hc | hc
    · exact .inl hc
    · rw [List.mem_singleton.mp hc] at ho
      cases ho

/-- Claiming a commit outpoint as one more owner. -/
theorem claimOwner {request : CancelRequest} {l : Ledger} {key : Outpoint}
    (h : Inv t s (v.set p (.running (.createEnvelopeCancelTransaction request) l)))
    (hl : l.claims = [])
    (hkey : s.table.Free key t ∨
      s.outpointReservations key = Lease.latest (s.envelopeCancelClaims key) t) :
    Inv t
      { s with
        outpointReservations :=
          Function.update s.outpointReservations key (some (t + reservationTtlMs))
        envelopeCancelClaims := Function.update s.envelopeCancelClaims key
          (s.envelopeCancelClaims key ++ [(s.nextId, t + reservationTtlMs)])
        nextId := s.nextId + 1 }
      (v.set p (.running (.createEnvelopeCancelTransaction request)
        { l with claims := l.claims ++ [⟨key, t + reservationTtlMs, some s.nextId⟩] })) := by
  have hnk : key ∉ l.claims.map Claim.key := by simp [hl]
  have hnone : leases (v.set p (.running (.createEnvelopeCancelTransaction request) l)) (p, key) =
      none := (leases_set_self key).trans (Record.held_eq_none hnk)
  -- Tokens in use are below `nextId`.
  have hnew : ∀ i c, leases (v.set p (.running (.createEnvelopeCancelTransaction request) l)) i =
      some c → c.owner ≠ some s.nextId := by
    rintro ⟨q, k⟩ c hc ho
    rw [leases, Option.bind_eq_some_iff] at hc
    obtain ⟨x, hx, hc⟩ := hc
    obtain ⟨-, d, hd, -, rfl⟩ := (Record.held_eq_some (h.ledgers.shape q x hx).nodup).mp hc
    exact absurd (h.ledgers.ownerId q x d s.nextId hx hd ho) (Nat.lt_irrefl _)
  refine
    { consistent := ?_
      ledgers := h.ledgers.set (Nat.le_succ _) ⟨?_, ?_, ?_, ?_⟩ fun c hc o ho => ?_
      tickets := h.tickets.set (Nat.le_succ _) running_hasReceipt running_hasReceipt
        running_releases running_releases
      builds := h.builds.set rfl fun hth => absurd hth running_threw }
  · rw [leases_append hnk]
    exact h.consistent.join hnone hkey hnew
  · simp [Record.running, hl]
  · rintro _ ⟨⟩
  · rintro _ ⟨⟩
    simp [Record.running, hl]
  · rintro _ ⟨⟩
  · simp only [Record.running, hl, List.nil_append, List.mem_singleton] at hc
    subst hc
    cases ho
    exact .inr ⟨le_rfl, Nat.lt_succ_self _⟩

end Inv

end XChain
