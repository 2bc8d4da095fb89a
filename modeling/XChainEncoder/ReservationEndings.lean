import XChainEncoder.ReservationInvariant

/-!
# How calls end

The invariant of the reservation maps over the start and the end of a call.

* `consistent_giveBack`: claims that one call holds are given back together;
* `TicketOf`, `TicketOf.leases_eq`, `TicketOf.tickets`: what a found ticket is, and what its release
  takes away;
* `Inv.giveBack`, `Inv.recordBuild`, `Inv.mint`, `Inv.release`, `Inv.start`, `Inv.init`: **every end
  and every start of a call keeps the invariant**.
-/

namespace XChain

open Coroutine

/-! ## Giving claims back -/

section GiveBack

variable {t : ℕ} {v : Records} {p : ℕ} {command : Command} {l : Ledger}

theorem threw_hasReceipt (e : BuildError) (t' : ℕ) (receipt : Receipt) :
    ¬ (Record.mk command l (.threw e t')).HasReceipt receipt := by
  rintro ⟨a, t, hstage, -⟩
  cases hstage

theorem threw_releases (e : BuildError) (t' id : ℕ) :
    ¬ (Record.mk command l (.threw e t')).Releases id := by
  rintro ⟨result, t, hstage, -⟩
  cases hstage

theorem mem_keysOf {claims : List Claim} {q : ℕ} {k : Outpoint} :
    (q, k) ∈ claims.map (fun c => (p, c.key)) ↔ q = p ∧ k ∈ claims.map Claim.key := by
  constructor
  · intro h
    obtain ⟨c, hc, heq⟩ := List.mem_map.mp h
    cases heq
    exact ⟨rfl, List.mem_map_of_mem hc⟩
  · rintro ⟨rfl, h⟩
    obtain ⟨c, hc, rfl⟩ := List.mem_map.mp h
    exact List.mem_map.mpr ⟨c, hc, rfl⟩

/-- Claims that one call still holds may be given back together. -/
theorem consistent_giveBack {T : Lease.Table Outpoint} {q : ℕ} {x : Record} {claims : List Claim}
    (h : Lease.Consistent reservationTtlMs t T (leases v)) (hx : v q = some x)
    (hnd : (x.ledger.claims.map Claim.key).Nodup) (hsub : claims.Sublist x.ledger.claims)
    (hheld : ∀ key, ¬ x.GaveBack (Released v) key) :
    Lease.Consistent reservationTtlMs t (T.releaseAll t (claims.map Claim.holding))
      (Lease.erase (leases v) (claims.map fun c => (q, c.key))) := by
  have hall := h.releaseAll (l := claims.map fun c => ((q, c.key), c.holding)) ?_ ?_
  · rwa [List.map_map, List.map_map] at hall
  · rw [List.map_map]
    have hkeys : (claims.map fun c => (q, c.key)) = (claims.map Claim.key).map (Prod.mk q) := by
      rw [List.map_map]
      rfl
    show (claims.map fun c => (q, c.key)).Nodup
    rw [hkeys]
    exact (hnd.sublist (hsub.map Claim.key)).map fun a b hab => (Prod.mk.inj hab).2
  · intro i hi
    obtain ⟨c, hc, rfl⟩ := List.mem_map.mp hi
    show (v q).bind (fun r => r.held (Released v) c.key) = some c.holding
    rw [hx, Option.bind_some, Record.held_eq_some hnd]
    exact ⟨hheld c.key, c, hsub.subset hc, rfl, rfl⟩

theorem leases_threw (e : BuildError) (t' : ℕ) :
    leases (v.set p ⟨command, l, .threw e t'⟩) =
      Lease.erase (leases (v.set p (.running command l))) (l.claims.map fun c => (p, c.key)) := by
  have hR : Released (v.set p ⟨command, l, .threw e t'⟩) = Released (v.set p (.running command l)) :=
    released_congr running_releases (threw_releases e t')
  funext ⟨q, k⟩
  unfold Lease.erase
  by_cases hq : q = p
  · subst hq
    have hthrew : (Record.mk command l (.threw e t')).held
        (Released (v.set q ⟨command, l, .threw e t'⟩)) k = none := if_pos (.inl ⟨e, t', rfl⟩)
    rw [leases_set_self, leases_set_self, hthrew]
    split_ifs with hk
    · rfl
    · exact (Record.held_eq_none fun hin => hk (mem_keysOf.mpr ⟨rfl, hin⟩)).symm
  · rw [if_neg fun hk => hq (mem_keysOf.mp hk).1, leases_set_of_ne hq, leases_set_of_ne hq, hR]

/-- A record that ends a release of the ticket `id`. -/
structure EndsRelease (id : ℕ) (r : Record) : Prop where
  receipt : ∀ receipt, ¬ r.HasReceipt receipt
  threw : ¬ r.Threw
  releases : ∀ i, r.Releases i ↔ i = id
  claims : r.ledger.claims = []

theorem endsRelease_returned {result : Reservations.ReleaseResult} {id : ℕ} (hl : l.claims = [])
    (hfound : result.found = true) (hid : result.reservationId = id) (t' : ℕ) :
    EndsRelease id ⟨command, l, .returned (.release result) t'⟩ where
  receipt := by
    rintro receipt ⟨a, t'', hstage, ha⟩
    cases hstage
    cases ha
  threw := by
    rintro ⟨e, t'', hstage⟩
    cases hstage
  releases i := by
    constructor
    · rintro ⟨result', t'', hstage, -, hi⟩
      cases hstage
      exact hi.symm.trans hid
    · rintro rfl
      exact ⟨result, t', rfl, hfound, hid⟩
  claims := hl

theorem EndsRelease.released {id : ℕ} {r : Record} (h : EndsRelease id r) (i : ℕ) :
    Released (v.set p r) i ↔ i = id ∨ Released (v.set p (.running command l)) i := by
  rw [released_set, released_set, h.releases]
  simp only [running_releases, false_or]

/-- The call `q` holds the ticket `id`, while `p` is about to release it. -/
structure TicketOf (v : Records) (p : ℕ) (id : ℕ) (ticket : Ticket) (q : ℕ) (x : Record)
    (receipt : Receipt) : Prop where
  ne : q ≠ p
  call : v q = some x
  owns : x.HasReceipt receipt
  id_eq : receipt.id = id
  claims : ticket.claims.Sublist x.ledger.claims
  outpoints : receipt.outpoints = ticket.claims.map Claim.key
  /-- Nobody else's receipt has this id. -/
  once : ∀ {q' x' receipt'}, q' ≠ p → v q' = some x' → x'.HasReceipt receipt' →
    receipt'.id = id → q' = q

theorem Inv.ticketOf {s : Reservations} {id : ℕ} {ticket : Ticket}
    (h : Inv t s (v.set p (.running command l))) (hT : s.reservationTickets id = some ticket) :
    ∃ q x receipt, TicketOf v p id ticket q x receipt ∧
      ¬ Released (v.set p (.running command l)) id := by
  obtain ⟨⟨q, x, receipt, hx, hrec, hid, hsub, hkeys, -⟩, hnot⟩ := h.tickets.issued id ticket hT
  have hq : q ≠ p ∧ v q = some x := by
    rcases set_eq_some.mp hx with ⟨-, rfl⟩ | hq
    · exact absurd hrec (running_hasReceipt receipt)
    · exact hq
  refine ⟨q, x, receipt, ⟨hq.1, hq.2, hrec, hid, hsub, hkeys, ?_⟩, hnot⟩
  intro q' x' receipt' hq' hx' hrec' hid'
  exact h.tickets.receiptOnce q' q x' x receipt' receipt ((set_of_ne hq').trans hx') hx hrec' hrec
    (hid'.trans hid.symm)

namespace TicketOf

variable {id q : ℕ} {ticket : Ticket} {x : Record} {receipt : Receipt} {r : Record}

theorem not_gaveBack (h : TicketOf v p id ticket q x receipt)
    (hnot : ¬ Released (v.set p (.running command l)) id) (key : Outpoint) :
    ¬ x.GaveBack (Released (v.set p (.running command l))) key := by
  rintro (⟨e, t, hthrew⟩ | ⟨receipt', hrec, -, hid⟩)
  · obtain ⟨a, t', hstage, -⟩ := h.owns
    cases hthrew.symm.trans hstage
  · cases x.hasReceipt_unique hrec h.owns
    exact hnot (h.id_eq ▸ hid)

/-- The release takes the ticket's claims from its call, and nothing else. -/
theorem leases_eq (h : TicketOf v p id ticket q x receipt) (hends : EndsRelease id r)
    (hl : l.claims = []) : leases (v.set p r) =
      Lease.erase (leases (v.set p (.running command l))) (ticket.claims.map fun c => (q, c.key)) := by
  have hR : ∀ i, Released (v.set p r) i ↔ i = id ∨ Released (v.set p (.running command l)) i :=
    hends.released
  funext ⟨q', k⟩
  unfold Lease.erase
  by_cases hq : q' = p
  · subst hq
    have hnone : k ∉ (Record.running command l).ledger.claims.map Claim.key := by
      simp [Record.running, hl]
    rw [if_neg fun hk => h.ne (mem_keysOf.mp hk).1.symm, leases_set_self, leases_set_self,
      Record.held_eq_none hnone, Record.held_eq_none (by simp [hends.claims])]
  · rw [leases_set_of_ne hq, leases_set_of_ne hq]
    cases hx : v q' with
    | none => simp
    | some x' =>
      simp only [Option.bind_some]
      by_cases hk : (q', k) ∈ ticket.claims.map fun c => (q, c.key)
      · rw [if_pos hk]
        obtain ⟨rfl, hin⟩ := mem_keysOf.mp hk
        cases h.call.symm.trans hx
        exact if_pos (.inr ⟨receipt, h.owns, h.outpoints ▸ hin, (hR _).mpr (.inl h.id_eq)⟩)
      · rw [if_neg hk]
        -- No other receipt has the id that is now released.
        refine Record.held_congr rfl (or_congr_right (exists_congr fun receipt' =>
          and_congr_right fun hrec => and_congr_right fun hin => ?_))
        rw [hR]
        refine or_iff_right fun hid => hk (mem_keysOf.mpr ?_)
        obtain rfl := h.once hq hx hrec hid
        cases h.call.symm.trans hx
        cases x.hasReceipt_unique hrec h.owns
        exact ⟨rfl, h.outpoints ▸ hin⟩

/-- The tickets and receipts after the release. -/
theorem tickets (h : TicketOf v p id ticket q x receipt) (hends : EndsRelease id r) {n : ℕ}
    {T : ℕ → Option Ticket} (hT : Tickets t n T (v.set p (.running command l))) :
    Tickets t n (Function.update T id none) (v.set p r) := by
  have hR : ∀ i, Released (v.set p r) i ↔ i = id ∨ Released (v.set p (.running command l)) i :=
    hends.released
  -- A receipt is never that of `p`, before or after.
  have other : ∀ {q' x' receipt'}, v.set p r q' = some x' → x'.HasReceipt receipt' →
      v.set p (.running command l) q' = some x' := by
    intro q' x' receipt' hx hrec
    rcases set_eq_some.mp hx with ⟨-, rfl⟩ | ⟨hq, hx⟩
    · exact absurd hrec (hends.receipt receipt')
    · rwa [set_of_ne hq]
  refine
    { issued := fun i ticket' hi => ?_
      receiptId := fun q' x' receipt' hx hrec => hT.receiptId q' x' receipt' (other hx hrec) hrec
      receiptOnce := fun q' q'' x' x'' receipt' receipt'' hx hx' hrec hrec' =>
        hT.receiptOnce q' q'' x' x'' receipt' receipt'' (other hx hrec) (other hx' hrec') hrec hrec'
      releasedId := fun i hi => ?_
      kept := fun q' x' receipt' hx hrec hnot hlt => ?_ }
  · have hne : i ≠ id := by
      rintro rfl
      rw [Function.update_self] at hi
      cases hi
    rw [Function.update_of_ne hne] at hi
    obtain ⟨⟨q', x', receipt', hx, hrec, hrest⟩, hnot⟩ := hT.issued i ticket' hi
    refine ⟨⟨q', x', receipt', ?_, hrec, hrest⟩, fun hr => ((hR i).mp hr).elim hne hnot⟩
    rcases set_eq_some.mp hx with ⟨-, rfl⟩ | ⟨hq, hx⟩
    · exact absurd hrec (running_hasReceipt receipt')
    · rwa [set_of_ne hq]
  · rcases (hR i).mp hi with rfl | hi
    · exact h.id_eq ▸ hT.receiptId q x receipt ((set_of_ne h.ne).trans h.call) h.owns
    · exact hT.releasedId i hi
  · have hne : receipt'.id ≠ id := fun hid => hnot ((hR _).mpr (.inl hid))
    obtain ⟨ticket', hticket⟩ := hT.kept q' x' receipt' (other hx hrec) hrec
      (fun hr => hnot ((hR _).mpr (.inr hr))) hlt
    exact ⟨ticket', by rw [Function.update_of_ne hne, hticket]⟩

end TicketOf

end GiveBack

namespace Inv

variable {t : ℕ} {s s' : Reservations} {v : Records} {p : ℕ}

/-! ## Ending a call -/

theorem finish {r r' : Record} (h : Inv t s (v.set p r)) (hc : r'.command = r.command)
    (hl : r'.ledger = r.ledger) (ht : ¬ r.Threw) (ht' : ¬ r'.Threw)
    (hr : ∀ receipt, ¬ r.HasReceipt receipt) (hr' : ∀ receipt, ¬ r'.HasReceipt receipt)
    (hrel : ∀ id, ¬ r.Releases id) (hrel' : ∀ id, ¬ r'.Releases id) :
    Inv t s (v.set p r') where
  consistent := by
    rw [leases_congr (by rw [hl]) (fun _ => Record.not_gaveBack ht hr)
      (fun _ => Record.not_gaveBack ht' hr') (released_congr hrel hrel')]
    exact h.consistent
  ledgers := h.ledgers.set le_rfl (by rw [hc, hl]; exact h.ledgers.shape p r set_self)
    fun c hc' o _ => .inl (hl ▸ hc')
  tickets := h.tickets.set le_rfl hr hr' hrel hrel'
  builds := h.builds.set (by rw [hl]) fun hth => absurd hth ht'

/-- A call throws after giving back what it claimed. -/
theorem giveBack {command : Command} {l : Ledger} (e : BuildError) (t' : ℕ)
    (h : Inv t s (v.set p (.running command l))) (hb : l.buildTxid = none)
    (hs : Reservations.SameBuilds s s')
    (htable : s'.table = s.table.releaseAll t (l.claims.map Claim.holding)) :
    Inv t s' (v.set p ⟨command, l, .threw e t'⟩) where
  consistent := by
    have hnd := (h.ledgers.shape p _ set_self).nodup
    rw [htable, leases_threw]
    exact consistent_giveBack h.consistent set_self hnd (List.Sublist.refl _)
      fun key => Record.not_gaveBack running_threw running_hasReceipt
  ledgers := hs.nextId ▸ h.ledgers.set le_rfl
    (h.ledgers.shape p (.running command l) set_self) fun c hc _ _ => .inl hc
  tickets := hs.nextId ▸ hs.reservationTickets ▸ h.tickets.set le_rfl running_hasReceipt
    (threw_hasReceipt e t') running_releases (threw_releases e t')
  builds := hs.recentBuilds ▸ h.builds.set rfl fun _ => hb

/-- A build is recorded. -/
theorem recordBuild {command : Command} {l : Ledger} {txid : Text} {e : ℕ}
    (h : Inv t s (v.set p (.running command l))) (hb : l.buildTxid = none) :
    Inv t { s with recentBuilds := Function.update s.recentBuilds txid (some e) }
      (v.set p (.running command { l with buildTxid := some txid })) := by
  have hshape := h.ledgers.shape p _ set_self
  refine
    { consistent := ?_
      ledgers := h.ledgers.set le_rfl
        ⟨hshape.nodup, hshape.noOwner, hshape.oneOwner, hshape.noClaim⟩ fun c hc _ _ => .inl hc
      tickets := h.tickets.set le_rfl running_hasReceipt running_hasReceipt running_releases
        running_releases
      builds := ⟨fun x e' he hl => ?_, fun q x hx hth => ?_⟩ }
  · have hleases : leases (v.set p (.running command { l with buildTxid := some txid })) =
        leases (v.set p (.running command l)) := leases_congr rfl
      (fun _ => Record.not_gaveBack running_threw running_hasReceipt)
      (fun _ => Record.not_gaveBack running_threw running_hasReceipt)
      (released_congr running_releases running_releases)
    rw [hleases]
    exact h.consistent
  · by_cases hx : x = txid
    · subst hx
      exact ⟨p, _, set_self, rfl, running_threw⟩
    · replace he : Function.update s.recentBuilds txid (some e) x = some e' := he
      rw [Function.update_of_ne hx] at he
      obtain ⟨q, y, hy, htx, hth⟩ := h.builds.backed x e' he hl
      rcases set_eq_some.mp hy with ⟨-, rfl⟩ | ⟨hq, hy⟩
      · cases hb.symm.trans htx
      · exact ⟨q, y, by rwa [set_of_ne hq], htx, hth⟩
  · rcases set_eq_some.mp hx with ⟨-, rfl⟩ | ⟨hq, hx⟩
    · exact absurd hth running_threw
    · exact h.builds.threw q x (by rwa [set_of_ne hq]) hth

/-- A call returns with a receipt for some of its claims. -/
theorem mint {command : Command} {l : Ledger} {a : CallResult} {t' : ℕ} {ticket : Ticket}
    (h : Inv t s (v.set p (.running command l))) (hsub : ticket.claims.Sublist l.claims)
    (ha : a.reservation = some ⟨s.nextId, ticket.claims.map Claim.key, ticket.expiry⟩) :
    Inv t
      { s with
        reservationTickets := Function.update s.reservationTickets s.nextId (some ticket)
        nextId := s.nextId + 1 }
      (v.set p ⟨command, l, .returned a t'⟩) := by
  set r' : Record := ⟨command, l, .returned a t'⟩ with hr'
  have hrc : r'.HasReceipt ⟨s.nextId, ticket.claims.map Claim.key, ticket.expiry⟩ :=
    ⟨a, t', rfl, ha⟩
  have honly : ∀ {receipt}, r'.HasReceipt receipt →
      receipt = ⟨s.nextId, ticket.claims.map Claim.key, ticket.expiry⟩ :=
    fun hrec => r'.hasReceipt_unique hrec hrc
  have hrel : ∀ id, ¬ r'.Releases id := by
    rintro id ⟨result, t'', hst, -⟩
    cases hst
    cases ha
  have hth : ¬ r'.Threw := by
    rintro ⟨e, t'', hst⟩
    cases hst
  have hR := released_congr (v := v) (p := p) (r := .running command l) running_releases hrel
  -- The new id was never released.
  have hnew : ¬ Released (v.set p r') s.nextId := fun hid =>
    absurd (h.tickets.releasedId _ (hR ▸ hid)) (Nat.lt_irrefl _)
  have hleases : leases (v.set p r') = leases (v.set p (.running command l)) := leases_congr rfl
    (fun _ => Record.not_gaveBack running_threw running_hasReceipt)
    (fun key hg => by
      rcases hg with hg | ⟨receipt, hrec, -, hid⟩
      · exact hth hg
      · rw [honly hrec] at hid
        exact hnew hid) hR
  -- Other calls keep their receipts, with older ids.
  have other : ∀ {q x}, q ≠ p → v q = some x → v.set p (.running command l) q = some x :=
    fun hq hx => by rwa [set_of_ne hq]
  refine
    { consistent := hleases ▸ h.consistent
      ledgers := h.ledgers.set (Nat.le_succ _)
        (h.ledgers.shape p (.running command l) set_self) fun c hc _ _ => .inl hc
      tickets := ⟨fun id ticket' hT => ?_, fun q x receipt hx hrec => ?_,
        fun q q' x x' receipt receipt' hx hx' hrec hrec' hid => ?_,
        fun id hid => Nat.lt_succ_of_lt (h.tickets.releasedId id (hR ▸ hid)),
        fun q x receipt hx hrec hnot hl => ?_⟩
      builds := h.builds.set rfl fun hth' => absurd hth' hth }
  · by_cases hid : id = s.nextId
    · subst hid
      replace hT : Function.update s.reservationTickets s.nextId (some ticket) s.nextId =
        some ticket' := hT
      rw [Function.update_self] at hT
      cases hT
      exact ⟨⟨p, r', _, set_self, hrc, rfl, hsub, rfl, rfl⟩, hnew⟩
    · replace hT : s.reservationTickets id = some ticket' :=
        (Function.update_of_ne hid ..).symm.trans hT
      obtain ⟨⟨q, x, receipt, hx, hrec, hrest⟩, hnot⟩ := h.tickets.issued id ticket' hT
      rcases set_eq_some.mp hx with ⟨-, rfl⟩ | ⟨hq, hx⟩
      · exact absurd hrec (running_hasReceipt receipt)
      · exact ⟨⟨q, x, receipt, by rwa [set_of_ne hq], hrec, hrest⟩, hR ▸ hnot⟩
  · rcases set_eq_some.mp hx with ⟨-, rfl⟩ | ⟨hq, hx⟩
    · rw [honly hrec]
      exact Nat.lt_succ_self _
    · exact Nat.lt_succ_of_lt (h.tickets.receiptId q x receipt (other hq hx) hrec)
  · rcases set_eq_some.mp hx with ⟨hq, rfl⟩ | ⟨hq, hxq⟩ <;>
      rcases set_eq_some.mp hx' with ⟨hq', rfl⟩ | ⟨hq', hxq'⟩
    · exact hq.trans hq'.symm
    · have := h.tickets.receiptId q' x' receipt' (other hq' hxq') hrec'
      rw [← hid, honly hrec] at this
      exact absurd this (Nat.lt_irrefl _)
    · have := h.tickets.receiptId q x receipt (other hq hxq) hrec
      rw [hid, honly hrec'] at this
      exact absurd this (Nat.lt_irrefl _)
    · exact h.tickets.receiptOnce q q' x x' receipt receipt' (other hq hxq) (other hq' hxq') hrec
        hrec' hid
  · rcases set_eq_some.mp hx with ⟨-, rfl⟩ | ⟨hq, hx⟩
    · rw [honly hrec]
      exact ⟨ticket, Function.update_self ..⟩
    · obtain ⟨ticket', hT⟩ := h.tickets.kept q x receipt (other hq hx) hrec (hR ▸ hnot) hl
      have hlt := h.tickets.receiptId q x receipt (other hq hx) hrec
      exact ⟨ticket', (Function.update_of_ne hlt.ne ..).trans hT⟩

/-- A release call gives back the claims of a ticket. -/
theorem release {command : Command} {l : Ledger} {result : Reservations.ReleaseResult} {t' : ℕ}
    {id : ℕ} {ticket : Ticket} (h : Inv t s (v.set p (.running command l)))
    (hl : l.claims = []) (hT : s.reservationTickets id = some ticket)
    (htable : s'.table = s.table.releaseAll t (ticket.claims.map Claim.holding))
    (htickets : s'.reservationTickets = Function.update s.reservationTickets id none)
    (hnext : s'.nextId = s.nextId)
    (hbuilds : ∀ txid e, s'.recentBuilds txid = some e → s.recentBuilds txid = some e)
    (hfound : result.found = true) (hid : result.reservationId = id) :
    Inv t s' (v.set p ⟨command, l, .returned (.release result) t'⟩) := by
  obtain ⟨q, x, receipt, hof, hnot⟩ := h.ticketOf hT
  have hends : EndsRelease id ⟨command, l, .returned (.release result) t'⟩ :=
    endsRelease_returned hl hfound hid t'
  refine
    { consistent := ?_
      ledgers := hnext ▸ h.ledgers.set le_rfl
        (h.ledgers.shape p (.running command l) set_self) fun c hc _ _ => .inl hc
      tickets := htickets ▸ hnext ▸ hof.tickets hends h.tickets
      builds := ?_ }
  · rw [htable, hof.leases_eq hends hl]
    exact consistent_giveBack h.consistent ((set_of_ne hof.ne).trans hof.call)
      (h.ledgers.shape q x ((set_of_ne hof.ne).trans hof.call)).nodup hof.claims
      (hof.not_gaveBack hnot)
  · have hb : Builds t s.recentBuilds (v.set p ⟨command, l, .returned (.release result) t'⟩) :=
      h.builds.set rfl fun hthrew => absurd hthrew hends.threw
    exact ⟨fun txid e he hlt => hb.backed txid e (hbuilds txid e he) hlt, hb.threw⟩

/-- A call starts. -/
theorem start {command : Command} (h : Inv t s v) (hp : v p = none) :
    Inv t s (v.set p (.running command Ledger.empty)) := by
  have hR : Released (v.set p (.running command Ledger.empty)) = Released v := by
    funext id
    rw [eq_iff_iff, released_set]
    simp only [running_releases, false_or]
    constructor
    · rintro ⟨q, x, -, hx, hr⟩
      exact ⟨q, x, hx, hr⟩
    · rintro ⟨q, x, hx, hr⟩
      refine ⟨q, x, ?_, hx, hr⟩
      rintro rfl
      cases hp.symm.trans hx
  have hleases : leases (v.set p (.running command Ledger.empty)) = leases v := by
    funext ⟨q, k⟩
    by_cases hq : q = p
    · subst hq
      rw [leases_set_self, Record.held_eq_none (by simp [Record.running, Ledger.empty]), leases, hp]
      rfl
    · rw [leases_set_of_ne hq, hR, leases]
  have old : ∀ {q x}, v.set p (.running command Ledger.empty) q = some x →
      x = .running command Ledger.empty ∨ v q = some x := fun hx =>
    (set_eq_some.mp hx).imp And.right And.right
  have new : ∀ {q x}, v q = some x → v.set p (.running command Ledger.empty) q = some x :=
    fun {q x} hx => by
      rw [set_of_ne, hx]
      rintro rfl
      cases hp.symm.trans hx
  refine ⟨hleases ▸ h.consistent, ⟨fun q x hx => ?_, fun q x c o hx hc ho => ?_,
    fun q q' x x' c c' o hx hx' hc hc' => ?_⟩, ⟨fun id ticket hT => ?_,
    fun q x receipt hx hrec => ?_, fun q q' x x' receipt receipt' hx hx' hrec hrec' => ?_,
    fun id hid => h.tickets.releasedId id (hR ▸ hid), fun q x receipt hx hrec hn => ?_⟩,
    ⟨fun txid e he hl => ?_, fun q x hx hth => ?_⟩⟩
  · rcases old hx with rfl | hx
    · exact
        { nodup := List.nodup_nil
          noOwner := fun _ _ _ hc => absurd hc List.not_mem_nil
          oneOwner := fun _ _ => ⟨Nat.zero_le _, fun _ hc => absurd hc List.not_mem_nil⟩
          noClaim := fun _ _ => rfl }
    · exact h.ledgers.shape q x hx
  · rcases old hx with rfl | hx
    · cases hc
    · exact h.ledgers.ownerId q x c o hx hc ho
  · rcases old hx with rfl | hx
    · cases hc
    · rcases old hx' with rfl | hx'
      · cases hc'
      · exact h.ledgers.ownerOnce q q' x x' c c' o hx hx' hc hc'
  · obtain ⟨⟨q, x, receipt, hx, hrest⟩, hnot⟩ := h.tickets.issued id ticket hT
    exact ⟨⟨q, x, receipt, new hx, hrest⟩, hR ▸ hnot⟩
  · rcases old hx with rfl | hx
    · exact absurd hrec (running_hasReceipt receipt)
    · exact h.tickets.receiptId q x receipt hx hrec
  · rcases old hx with rfl | hx
    · exact absurd hrec (running_hasReceipt receipt)
    · rcases old hx' with rfl | hx'
      · exact absurd hrec' (running_hasReceipt receipt')
      · exact h.tickets.receiptOnce q q' x x' receipt receipt' hx hx' hrec hrec'
  · rcases old hx with rfl | hx
    · exact absurd hrec (running_hasReceipt receipt)
    · exact h.tickets.kept q x receipt hx hrec (hR ▸ hn)
  · obtain ⟨q, x, hx, hrest⟩ := h.builds.backed txid e he hl
    exact ⟨q, x, new hx, hrest⟩
  · rcases old hx with rfl | hx
    · exact absurd hth running_threw
    · exact h.builds.threw q x hx hth

/-- No call yet. -/
theorem init (t : ℕ) : Inv t .empty fun _ => none where
  consistent := Lease.Consistent.init
  ledgers := ⟨by rintro _ _ ⟨⟩, by rintro _ _ _ _ ⟨⟩, by rintro _ _ _ _ _ _ _ ⟨⟩⟩
  tickets := ⟨by rintro _ _ ⟨⟩, by rintro _ _ _ ⟨⟩, by rintro _ _ _ _ _ _ ⟨⟩,
    by rintro _ ⟨_, _, ⟨⟩, -⟩, by rintro _ _ _ ⟨⟩⟩
  builds := ⟨by rintro _ _ ⟨⟩, by rintro _ _ ⟨⟩⟩

end Inv

end XChain
