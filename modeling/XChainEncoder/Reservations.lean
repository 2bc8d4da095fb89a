import XChainEncoder.Constants
import XChainEncoder.Library
import XChainEncoder.Lib.Lease

/-!
# Outpoint reservations

The double-spend bookkeeping that all calls of one encoder share, and the ledger each call keeps of
what it claimed.

* `Reservations`: reserved outpoints, recent builds, cancel owners and tickets;
* `claimOutpoint`, `refuseDuplicateBuild`, `releaseCallReservations`, `dropCancelOwner`,
  `releaseEnvelopeCancelClaims`, `mintReservationTicket`, `releaseReservation`;
* `Reservations.table`: reservations and owners read as a lease table; `table_claimOutpoint`,
  `table_releaseCallReservations`, `table_releaseEnvelopeCancelClaims`, `table_releaseClaims`:
  **each operation is the table's own**.
-/

namespace XChain

/-- An outpoint by the lowercase txid and the output index: the key `txid:vout`. -/
structure Outpoint where
  txid : Text
  vout : ℕ
  deriving DecidableEq, Repr

/-- One claim of a call: the expiry it wrote, and its owner token on the cancel path. -/
structure Claim where
  key : Outpoint
  expiry : ℕ
  cancelOwnerId : Option ℕ
  deriving DecidableEq, Repr

/-- `callReservations`: what one call claimed, and the txid it built. -/
structure Ledger where
  claims : List Claim
  buildTxid : Option Text
  deriving DecidableEq, Repr

def Ledger.empty : Ledger := ⟨[], none⟩

/-- What a successful build may give back. -/
structure Ticket where
  claims : List Claim
  expiry : ℕ
  txid : Option Text
  txidExpiry : Option ℕ
  deriving DecidableEq, Repr

/-- The `reservation` block of a result. -/
structure Receipt where
  id : ℕ
  outpoints : List Outpoint
  expiresAt : ℕ
  deriving DecidableEq, Repr

/-- The four maps of one encoder. A key without cancel owners has the empty list. `nextId` stands
for `crypto.randomBytes`: ids are never drawn twice. -/
structure Reservations where
  outpointReservations : Outpoint → Option ℕ
  recentBuilds : Text → Option ℕ
  envelopeCancelClaims : Outpoint → List (ℕ × ℕ)
  reservationTickets : ℕ → Option Ticket
  nextId : ℕ

def Reservations.empty : Reservations :=
  ⟨fun _ => none, fun _ => none, fun _ => [], fun _ => none, 0⟩

namespace Reservations

variable (s : Reservations)

/-! ## Eviction -/

/-- Drop the builds whose window is over. -/
def evictExpiredRecentBuilds (now : ℕ) : Reservations :=
  { s with recentBuilds := fun txid => (s.recentBuilds txid).filter (now < ·) }

/-- Drop the reservations that have lapsed. -/
def evictExpiredReservations (now : ℕ) : Reservations :=
  { s with outpointReservations := fun key => (s.outpointReservations key).filter (now < ·) }

/-- Drop the owners that have lapsed. -/
def evictExpiredEnvelopeCancelClaims (now : ℕ) : Reservations :=
  { s with envelopeCancelClaims := fun key =>
      (s.envelopeCancelClaims key).filter fun owner => now < owner.2 }

/-- Drop the tickets that have lapsed. -/
def evictExpiredReservationTickets (now : ℕ) : Reservations :=
  { s with reservationTickets := fun id =>
      (s.reservationTickets id).filter fun ticket => now < ticket.expiry }

/-! ## Claiming -/

/-- Whether the outpoint is reserved; a lapsed entry is deleted. -/
def isOutpointReserved (key : Outpoint) (now : ℕ) : Bool × Reservations :=
  match s.outpointReservations key with
  | none => (false, s)
  | some expiry =>
    if expiry ≤ now then
      (false, { s with outpointReservations := Function.update s.outpointReservations key none })
    else (true, s)

/-- Reserve the outpoint; the first result is until when. -/
def reserveOutpoint (key : Outpoint) (now : ℕ) : ℕ × Reservations :=
  (now + reservationTtlMs,
    { s with outpointReservations :=
        Function.update s.outpointReservations key (some (now + reservationTtlMs)) })

/-- Reserve the outpoint, and enter it in the call's ledger. -/
def claimOutpoint (callReservations : Ledger) (key : Outpoint) (now : ℕ) :
    Ledger × Reservations :=
  let (expiry, s) := s.reserveOutpoint key now
  ({ callReservations with claims := callReservations.claims ++ [⟨key, expiry, none⟩] }, s)

/-- Refuse a transaction built within the window, else record it. -/
def refuseDuplicateBuild (txid : Text) (now : ℕ) : Except BuildError Unit × Reservations :=
  let s := s.evictExpiredRecentBuilds now
  if (s.recentBuilds txid).isSome then
    (.error (OperationalError "DUPLICATE_TRANSACTION"
      ("refusing to rebuild a transaction identical to one built in the last 5 minutes (same " ++
        s!"inputs and outputs, same txid {String.ofList txid}); broadcast the one you already " ++
        "have, or change the inputs or outputs")), s)
  else (.ok (), { s with
    recentBuilds := Function.update s.recentBuilds txid (some (now + reservationTtlMs)) })

/-! ## Giving back -/

/-- Delete the reservation while it is still the claim's own. -/
def releaseClaim (claim : Claim) : Reservations :=
  if s.outpointReservations claim.key = some claim.expiry then
    { s with outpointReservations := Function.update s.outpointReservations claim.key none }
  else s

/-- Give back the claims of a failed call. -/
def releaseCallReservations (claims : List Claim) : Reservations :=
  claims.foldl (fun s claim => s.releaseClaim claim) s

/-- Until when the longest-lived cancel holds the outpoint. -/
def maxLiveCancelOwnerExpiry (key : Outpoint) (now : ℕ) : Option ℕ :=
  (s.envelopeCancelClaims key).foldl
    (fun m owner => if now < owner.2 ∧ (∀ e ∈ m, e < owner.2) then some owner.2 else m) none

/-- Drop one owner token and restate what the outpoint is worth; `true` while another owner holds
it. -/
def dropCancelOwner (key : Outpoint) (ownerId now : ℕ) : Bool × Reservations :=
  if s.envelopeCancelClaims key = [] then (false, s)
  else
    let owners := (s.envelopeCancelClaims key).filter fun owner => owner.1 ≠ ownerId
    let s' := { s with envelopeCancelClaims := Function.update s.envelopeCancelClaims key owners }
    match s'.maxLiveCancelOwnerExpiry key now with
    | none => (false,
      { s' with envelopeCancelClaims := Function.update s'.envelopeCancelClaims key [] })
    | some remaining => (true,
      { s' with
        outpointReservations := Function.update s'.outpointReservations key (some remaining) })

/-- Drop the owner tokens of a failed cancel build; `handBack` are the claims no other owner
holds. -/
def releaseEnvelopeCancelClaims (claims : List Claim) (now : ℕ) : Reservations :=
  let (handBack, s) := claims.foldl (fun (handBack, s) claim =>
    match claim.cancelOwnerId with
    | none => (handBack ++ [claim], s)
    | some ownerId =>
      let (held, s) := s.dropCancelOwner claim.key ownerId now
      if held then (handBack, s) else (handBack ++ [claim], s)) ([], s)
  s.releaseCallReservations handBack

/-- The receipt for the claims whose stamp still stands. -/
def mintReservationTicket (callReservations : Ledger) (now : ℕ) : Option Receipt × Reservations :=
  let s := s.evictExpiredReservationTickets now
  let live := callReservations.claims.filter fun claim =>
    s.outpointReservations claim.key = some claim.expiry
  if live = [] then (none, s)
  else
    let expiry := live.foldl (fun e claim => if e < claim.expiry then claim.expiry else e) 0
    let ticket : Ticket :=
      { claims := live
        expiry
        txid := callReservations.buildTxid
        txidExpiry := callReservations.buildTxid.bind s.recentBuilds }
    (some ⟨s.nextId, live.map Claim.key, expiry⟩,
      { s with
        reservationTickets := Function.update s.reservationTickets s.nextId (some ticket)
        nextId := s.nextId + 1 })

/-- The answer of `releaseReservation`. -/
structure ReleaseResult where
  reservationId : ℕ
  found : Bool
  released : List Outpoint
  retained : List Outpoint
  deriving DecidableEq, Repr

/-- Give one claim of a ticket back, noting whether it was freed. -/
def releaseTicketClaim (now : ℕ) (r : ReleaseResult × Reservations) (claim : Claim) :
    ReleaseResult × Reservations :=
  let (stillHeldByAnotherCancel, s) := match claim.cancelOwnerId with
    | some ownerId => r.2.dropCancelOwner claim.key ownerId now
    | none => (false, r.2)
  if ¬ stillHeldByAnotherCancel ∧ s.outpointReservations claim.key = some claim.expiry then
    ({ r.1 with released := r.1.released ++ [claim.key] },
      { s with outpointReservations := Function.update s.outpointReservations claim.key none })
  else ({ r.1 with retained := r.1.retained ++ [claim.key] }, s)

/-- Drop everything that has lapsed. -/
def sweep (now : ℕ) : Reservations :=
  (((s.evictExpiredReservations now).evictExpiredEnvelopeCancelClaims now).evictExpiredRecentBuilds
    now).evictExpiredReservationTickets now

/-- Retire the duplicate refusal of a ticket's build. -/
def retireRecentBuild (ticket : Ticket) : Reservations :=
  match ticket.txid, ticket.txidExpiry with
  | some txid, some txidExpiry =>
    if s.recentBuilds txid = some txidExpiry then
      { s with recentBuilds := Function.update s.recentBuilds txid none }
    else s
  | _, _ => s

/-- Redeem a ticket: once, and for what still carries its stamps. -/
def releaseReservation (reservationId now : ℕ) : ReleaseResult × Reservations :=
  let s := s.sweep now
  match s.reservationTickets reservationId with
  | none => (⟨reservationId, false, [], []⟩, s)
  | some ticket =>
    let s := { s with
      reservationTickets := Function.update s.reservationTickets reservationId none }
    let (result, s) := ticket.claims.foldl (releaseTicketClaim now)
      (⟨reservationId, true, [], []⟩, s)
    (result, s.retireRecentBuild ticket)

/-! ## The lease table -/

/-- Reservations and cancel owners, as stamps and owners. -/
def table : Lease.Table Outpoint := ⟨s.outpointReservations, s.envelopeCancelClaims⟩

end Reservations

/-- A claim as a lease. -/
def Claim.holding (c : Claim) : Lease.Holding Outpoint := ⟨c.key, c.expiry, c.cancelOwnerId⟩

namespace Reservations

variable {s : Reservations}

@[simp] theorem table_stamp : s.table.stamp = s.outpointReservations := rfl

@[simp] theorem table_owners : s.table.owners = s.envelopeCancelClaims := rfl

/-- The maps that only finished builds and releases touch. -/
structure SameBuilds (s s' : Reservations) : Prop where
  recentBuilds : s'.recentBuilds = s.recentBuilds
  reservationTickets : s'.reservationTickets = s.reservationTickets
  nextId : s'.nextId = s.nextId

theorem SameBuilds.refl (s : Reservations) : SameBuilds s s := ⟨rfl, rfl, rfl⟩

theorem SameBuilds.trans {s s' s'' : Reservations} (h : SameBuilds s s')
    (h' : SameBuilds s' s'') : SameBuilds s s'' :=
  ⟨h'.recentBuilds.trans h.recentBuilds, h'.reservationTickets.trans h.reservationTickets,
    h'.nextId.trans h.nextId⟩

theorem maxLiveCancelOwnerExpiry_eq (key : Outpoint) (now : ℕ) :
    s.maxLiveCancelOwnerExpiry key now = Lease.latest (s.envelopeCancelClaims key) now := by
  unfold maxLiveCancelOwnerExpiry Lease.latest
  -- The fold keeps the maximum of the live expiries read so far.
  have key' : ∀ (ws : List (ℕ × ℕ)) (m : Option ℕ),
      ws.foldl (fun m owner => if now < owner.2 ∧ (∀ e ∈ m, e < owner.2) then some owner.2 else m)
        m = (m.toList ++ (ws.map Prod.snd).filter fun e => now < e).max? := by
    intro ws
    induction ws with
    | nil =>
      intro m
      cases m <;> simp
    | cons w ws ih =>
      intro m
      rw [List.foldl_cons, ih]
      by_cases hw : now < w.2
      · cases m with
        | none => simp [hw]
        | some e =>
          have hmax : ∀ l : List ℕ, (e :: w.2 :: l).max? = (max e w.2 :: l).max? := fun _ => rfl
          simp only [List.map_cons, List.filter_cons, decide_eq_true hw, if_true,
            Option.toList_some, List.singleton_append, hmax, Option.mem_some_iff, forall_eq']
          by_cases he : e < w.2
          · simp only [hw, he, and_self, if_true, max_eq_right he.le, Option.toList_some,
              List.singleton_append]
          · simp only [hw, he, and_false, if_false, max_eq_left (not_lt.mp he),
              Option.toList_some, List.singleton_append]
      · simp [hw]
  simpa using key' _ none

theorem table_releaseClaim (c : Claim) :
    (s.releaseClaim c).table = s.table.clear c.key c.expiry := by
  unfold releaseClaim Lease.Table.clear
  by_cases h : s.outpointReservations c.key = some c.expiry
  · simp only [table_stamp, h, if_true]
    rfl
  · simp only [table_stamp, h, if_false]

theorem sameBuilds_releaseClaim (c : Claim) : SameBuilds s (s.releaseClaim c) := by
  unfold releaseClaim
  split_ifs
  · exact ⟨rfl, rfl, rfl⟩
  · exact .refl s

theorem sameBuilds_releaseCallReservations (claims : List Claim) :
    SameBuilds s (s.releaseCallReservations claims) := by
  induction claims generalizing s with
  | nil => exact .refl s
  | cons c cs ih => exact (sameBuilds_releaseClaim c).trans ih

/-- A failed build without owner tokens gives every claim back. -/
theorem table_releaseCallReservations {claims : List Claim} (now : ℕ)
    (h : ∀ c ∈ claims, c.cancelOwnerId = none) :
    (s.releaseCallReservations claims).table =
      s.table.releaseAll now (claims.map Claim.holding) := by
  induction claims generalizing s with
  | nil => rfl
  | cons c cs ih =>
    have hc : s.table.release now c.holding = (s.releaseClaim c).table := by
      rw [table_releaseClaim]
      simp only [Lease.Table.release, Claim.holding, h c List.mem_cons_self]
    simp only [releaseCallReservations, List.foldl_cons, List.map_cons, Lease.Table.releaseAll,
      hc]
    exact ih fun d hd => h d (List.mem_cons_of_mem c hd)

theorem dropCancelOwner_eq (key : Outpoint) (ownerId now : ℕ) :
    (s.dropCancelOwner key ownerId now).1 = (s.table.drop key ownerId now).1 ∧
      (s.dropCancelOwner key ownerId now).2.table = (s.table.drop key ownerId now).2 := by
  unfold dropCancelOwner
  by_cases he : s.envelopeCancelClaims key = []
  · have hrest : s.table.rest key ownerId = [] := by simp [Lease.Table.rest, he]
    simp only [he, if_pos, Lease.Table.drop, hrest]
    refine ⟨rfl, ?_⟩
    simp only [table, Lease.latest, List.map_nil, List.filter_nil, List.max?_nil,
      Lease.Table.mk.injEq, true_and]
    exact (Function.update_eq_self_iff.mpr he.symm).symm
  · simp only [he, if_false, maxLiveCancelOwnerExpiry_eq, Function.update_self]
    have hrest : (s.envelopeCancelClaims key).filter (fun owner => owner.1 ≠ ownerId) =
        s.table.rest key ownerId := rfl
    simp only [hrest, Lease.Table.drop]
    cases Lease.latest (s.table.rest key ownerId) now with
    | none =>
      refine ⟨rfl, ?_⟩
      simp only [table, Function.update_idem]
    | some m => exact ⟨rfl, rfl⟩

theorem sameBuilds_dropCancelOwner (key : Outpoint) (ownerId now : ℕ) :
    SameBuilds s (s.dropCancelOwner key ownerId now).2 := by
  unfold dropCancelOwner
  split_ifs
  · exact .refl s
  · dsimp only
    split <;> exact ⟨rfl, rfl, rfl⟩

theorem table_release_eq (now : ℕ) (c : Claim) (o : ℕ) (h : c.cancelOwnerId = some o) :
    s.table.release now c.holding =
      if (s.dropCancelOwner c.key o now).1 then (s.dropCancelOwner c.key o now).2.table
      else ((s.dropCancelOwner c.key o now).2.releaseClaim c).table := by
  rw [table_releaseClaim, (dropCancelOwner_eq c.key o now).1, (dropCancelOwner_eq c.key o now).2]
  simp only [Lease.Table.release, Claim.holding, h]

/-- A failed cancel build gives its one claim back. -/
theorem table_releaseEnvelopeCancelClaims {claims : List Claim} (now : ℕ)
    (h : claims.length ≤ 1) :
    (s.releaseEnvelopeCancelClaims claims now).table =
      s.table.releaseAll now (claims.map Claim.holding) := by
  match claims, h with
  | [], _ => rfl
  | [c], _ =>
    simp only [releaseEnvelopeCancelClaims, List.foldl_cons, List.foldl_nil, List.map_cons,
      List.map_nil, Lease.Table.releaseAll]
    cases hc : c.cancelOwnerId with
    | none =>
      simp only [List.nil_append, Lease.Table.release, Claim.holding, hc]
      exact table_releaseClaim c
    | some o =>
      rw [table_release_eq now c o hc]
      split_ifs with hd
      · simp only [hd, if_true]
        rfl
      · simp only [hd]
        rfl

theorem sameBuilds_releaseEnvelopeCancelClaims (claims : List Claim) (now : ℕ) :
    SameBuilds s (s.releaseEnvelopeCancelClaims claims now) := by
  unfold releaseEnvelopeCancelClaims
  refine SameBuilds.trans ?_ (sameBuilds_releaseCallReservations _)
  refine List.foldlRecOn (motive := fun r : List Claim × Reservations => SameBuilds s r.2) claims _ (.refl s) ?_
  rintro ⟨handBack, s'⟩ hs claim -
  cases claim.cancelOwnerId with
  | none => exact hs
  | some o =>
    have hdrop := hs.trans (sameBuilds_dropCancelOwner claim.key o now)
    dsimp only
    split_ifs <;> exact hdrop

theorem table_releaseTicketClaim (now : ℕ) (r : ReleaseResult × Reservations) (c : Claim) :
    (releaseTicketClaim now r c).2.table = r.2.table.release now c.holding := by
  unfold releaseTicketClaim
  cases hc : c.cancelOwnerId with
  | none =>
    have hrel : r.2.table.release now c.holding = (r.2.releaseClaim c).table := by
      rw [table_releaseClaim]
      simp only [Lease.Table.release, Claim.holding, hc]
    rw [hrel]
    simp only [releaseClaim, Bool.false_eq_true, not_false_eq_true, true_and]
    split_ifs <;> rfl
  | some o =>
    rw [table_release_eq now c o hc]
    cases hd : (r.2.dropCancelOwner c.key o now).1 with
    | true => simp [hd]
    | false =>
      simp only [hd, releaseClaim, Bool.false_eq_true, not_false_eq_true, true_and, if_false]
      split_ifs <;> rfl

theorem sameBuilds_releaseTicketClaim (now : ℕ) (r : ReleaseResult × Reservations) (c : Claim) :
    SameBuilds r.2 (releaseTicketClaim now r c).2 := by
  unfold releaseTicketClaim
  cases c.cancelOwnerId with
  | none =>
    simp only [Bool.false_eq_true, not_false_eq_true, true_and]
    split_ifs
    · exact ⟨rfl, rfl, rfl⟩
    · exact .refl _
  | some o =>
    have hd := sameBuilds_dropCancelOwner (s := r.2) c.key o now
    dsimp only
    split
    · exact hd.trans ⟨rfl, rfl, rfl⟩
    · exact hd

/-- Releasing a ticket gives each of its claims back. -/
theorem table_releaseClaims (now : ℕ) (claims : List Claim) :
    ∀ r : ReleaseResult × Reservations,
      (claims.foldl (releaseTicketClaim now) r).2.table =
          r.2.table.releaseAll now (claims.map Claim.holding) ∧
        SameBuilds r.2 (claims.foldl (releaseTicketClaim now) r).2 := by
  induction claims with
  | nil => exact fun r => ⟨rfl, .refl _⟩
  | cons c cs ih =>
    intro r
    obtain ⟨ht, hs⟩ := ih (releaseTicketClaim now r c)
    refine ⟨?_, (sameBuilds_releaseTicketClaim now r c).trans hs⟩
    rw [List.foldl_cons, ht, table_releaseTicketClaim]
    rfl

end Reservations

end XChain
