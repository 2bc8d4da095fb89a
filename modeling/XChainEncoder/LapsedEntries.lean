import XChainEncoder.BuildWrites
import XChainEncoder.Lib.SameLive

/-!
# Lapsed entries

Two states of the maps that differ only in entries lapsed at one time.

* `LiveAlike`: the same live stamps, owners and builds, and live tickets that a release cannot tell
  apart;
* `SameAnswer`, `SameClaims`: one answer, and states that stay alike;
* `LiveAlike.claimFirstFreeInput` to `LiveAlike.releaseReservation`: **no operation that reads the
  clock later tells the two states apart**.
-/

namespace XChain

open PushScript Coroutine

namespace Reservations

/-- Two tickets that a release cannot tell apart. -/
structure SameTicket (since : ℕ) (ticket ticket' : Ticket) : Prop where
  claims : ticket'.claims = ticket.claims
  expiry : ticket'.expiry = ticket.expiry
  txid : ticket'.txid = ticket.txid
  txidExpiry : ∀ e, since < e → (ticket.txidExpiry = some e ↔ ticket'.txidExpiry = some e)

/-- The same live entries. -/
structure LiveAlike (since : ℕ) (s s' : Reservations) : Prop where
  table : Lease.SameLive since s.table s'.table
  recentBuilds : ∀ txid e, since < e →
    (s.recentBuilds txid = some e ↔ s'.recentBuilds txid = some e)
  reservationTickets : ∀ id, Option.Rel (SameTicket since)
    ((s.reservationTickets id).filter fun ticket => since < ticket.expiry)
    ((s'.reservationTickets id).filter fun ticket => since < ticket.expiry)
  nextId : s'.nextId = s.nextId

/-- One answer over two states that stay alike. -/
structure SameAnswer {α : Type} (since : ℕ) (r r' : α × Reservations) : Prop where
  answer : r'.1 = r.1
  alike : LiveAlike since r.2 r'.2

/-- The claims of a ledger are live. -/
def Owned (since : ℕ) (l : Ledger) : Prop := ∀ claim ∈ l.claims, since < claim.expiry

/-- One ledger of live claims over two states that stay alike. -/
structure SameClaims (since : ℕ) (r r' : Ledger × Reservations) : Prop where
  ledger : r'.1 = r.1
  owned : Owned since r.1
  alike : LiveAlike since r.2 r'.2

variable {since now : ℕ} {s s' : Reservations} {l : Ledger}

theorem SameTicket.refl (since : ℕ) (ticket : Ticket) : SameTicket since ticket ticket :=
  ⟨rfl, rfl, rfl, fun _ _ => Iff.rfl⟩

theorem relTickets_refl (since : ℕ) (o : Option Ticket) : Option.Rel (SameTicket since) o o := by
  cases o with
  | none => exact .none
  | some ticket => exact .some (.refl since ticket)

theorem LiveAlike.refl (since : ℕ) (s : Reservations) : LiveAlike since s s :=
  ⟨.refl since _, fun _ _ _ => Iff.rfl, fun _ => relTickets_refl since _, rfl⟩

namespace LiveAlike

theorem of_table (h : LiveAlike since s s') {t t' : Reservations}
    (htable : Lease.SameLive since t.table t'.table) (hs : SameBuilds s t) (hs' : SameBuilds s' t') :
    LiveAlike since t t' where
  table := htable
  recentBuilds := by
    rw [hs.recentBuilds, hs'.recentBuilds]
    exact h.recentBuilds
  reservationTickets := by
    rw [hs.reservationTickets, hs'.reservationTickets]
    exact h.reservationTickets
  nextId := by rw [hs.nextId, hs'.nextId, h.nextId]

theorem stamped (h : LiveAlike since s s') (key : Outpoint) {o o' : Option ℕ}
    (ho : ∀ e, since < e → (o = some e ↔ o' = some e)) :
    LiveAlike since
      { s with outpointReservations := Function.update s.outpointReservations key o }
      { s' with outpointReservations := Function.update s'.outpointReservations key o' } :=
  h.of_table (h.table.stamped key ho) ⟨rfl, rfl, rfl⟩ ⟨rfl, rfl, rfl⟩

theorem recorded (h : LiveAlike since s s') (txid : Text) {o o' : Option ℕ}
    (ho : ∀ e, since < e → (o = some e ↔ o' = some e)) :
    LiveAlike since { s with recentBuilds := Function.update s.recentBuilds txid o }
      { s' with recentBuilds := Function.update s'.recentBuilds txid o' } where
  table := h.table
  recentBuilds txid' e he := by
    by_cases ht : txid' = txid
    · subst ht
      simpa using ho e he
    · simpa [ht] using h.recentBuilds txid' e he
  reservationTickets := h.reservationTickets
  nextId := h.nextId

/-! ## Eviction -/

theorem evictExpiredReservations (h : LiveAlike since s s') (hnow : since ≤ now) :
    LiveAlike since (s.evictExpiredReservations now) (s'.evictExpiredReservations now) := by
  refine h.of_table ⟨fun key e _ => ?_, h.table.owners⟩ ⟨rfl, rfl, rfl⟩ ⟨rfl, rfl, rfl⟩
  have hlive := Lease.live_eq hnow (h.table.stamp key)
  exact Iff.of_eq (congrArg (· = some e) hlive)

theorem evictExpiredEnvelopeCancelClaims (h : LiveAlike since s s') (hnow : since ≤ now) :
    LiveAlike since (s.evictExpiredEnvelopeCancelClaims now)
      (s'.evictExpiredEnvelopeCancelClaims now) := by
  refine h.of_table ⟨h.table.stamp, fun key => ?_⟩ ⟨rfl, rfl, rfl⟩ ⟨rfl, rfl, rfl⟩
  exact congrArg (Lease.liveOwners since) (Lease.liveOwners_mono hnow (h.table.owners key))

theorem evictExpiredRecentBuilds (h : LiveAlike since s s') (hnow : since ≤ now) :
    LiveAlike since (s.evictExpiredRecentBuilds now) (s'.evictExpiredRecentBuilds now) := by
  refine ⟨h.table, fun txid e _ => ?_, h.reservationTickets, h.nextId⟩
  exact Iff.of_eq (congrArg (· = some e) (Lease.live_eq hnow (h.recentBuilds txid)))

end LiveAlike

theorem relTickets_filter {o o' : Option Ticket} (h : Option.Rel (SameTicket since) o o') (now : ℕ) :
    Option.Rel (SameTicket since) (o.filter fun ticket => now < ticket.expiry)
      (o'.filter fun ticket => now < ticket.expiry) := by
  cases h with
  | none => exact .none
  | @some ticket ticket' hsame =>
    rw [Option.filter_some, Option.filter_some, hsame.expiry]
    split_ifs
    · exact .some hsame
    · exact .none

theorem relTickets_mono (hnow : since ≤ now) {o o' : Option Ticket}
    (h : Option.Rel (SameTicket since) (o.filter fun ticket => since < ticket.expiry)
      (o'.filter fun ticket => since < ticket.expiry)) :
    Option.Rel (SameTicket since) (o.filter fun ticket => now < ticket.expiry)
      (o'.filter fun ticket => now < ticket.expiry) := by
  have hlater : ∀ x : Option Ticket, x.filter (fun ticket => now < ticket.expiry) =
      (x.filter fun ticket => since < ticket.expiry).filter fun ticket => now < ticket.expiry := by
    intro x
    rw [Option.filter_filter]
    refine congrArg x.filter (funext fun ticket => ?_)
    by_cases he : now < ticket.expiry
    · simp [he, hnow.trans_lt he]
    · simp [he]
  rw [hlater o, hlater o']
  exact relTickets_filter h now

theorem LiveAlike.evictExpiredReservationTickets (h : LiveAlike since s s') (hnow : since ≤ now) :
    LiveAlike since (s.evictExpiredReservationTickets now)
      (s'.evictExpiredReservationTickets now) where
  table := h.table
  recentBuilds := h.recentBuilds
  reservationTickets id := relTickets_filter (relTickets_mono hnow (h.reservationTickets id)) since
  nextId := h.nextId

/-! ## Checking and claiming -/

theorem isOutpointReserved_eq_live (s : Reservations) (key : Outpoint) (now : ℕ) :
    s.isOutpointReserved key now =
      (((s.outpointReservations key).filter fun e => now < e).isSome,
        { s with
          outpointReservations := Function.update s.outpointReservations key
            ((s.outpointReservations key).filter fun e => now < e) }) := by
  unfold isOutpointReserved
  cases hs : s.outpointReservations key with
  | none =>
    have hself : Function.update s.outpointReservations key none = s.outpointReservations :=
      Function.update_eq_self_iff.mpr hs.symm
    simp only [Option.filter_none, Option.isSome_none, hself]
  | some expiry =>
    have hself : Function.update s.outpointReservations key (some expiry) =
        s.outpointReservations := Function.update_eq_self_iff.mpr hs.symm
    by_cases he : expiry ≤ now
    · simp only [Option.filter_some, he, not_lt.mpr he, if_true, decide_false, Bool.false_eq_true,
        if_false, Option.isSome_none]
    · simp only [Option.filter_some, he, not_le.mp he, if_false, decide_true, if_true,
        Option.isSome_some, hself]

namespace LiveAlike

theorem isOutpointReserved (h : LiveAlike since s s') (hnow : since ≤ now) (key : Outpoint) :
    SameAnswer since (s.isOutpointReserved key now) (s'.isOutpointReserved key now) := by
  have hlive := Lease.live_eq hnow (h.table.stamp key)
  simp only [table_stamp] at hlive
  rw [isOutpointReserved_eq_live, isOutpointReserved_eq_live, hlive]
  exact ⟨rfl, h.stamped key fun _ _ => Iff.rfl⟩

theorem claimOutpoint (h : LiveAlike since s s') (hl : Owned since l) (hnow : since ≤ now)
    (key : Outpoint) :
    SameClaims since (s.claimOutpoint l key now) (s'.claimOutpoint l key now) where
  ledger := rfl
  owned claim hclaim := by
    have hpos : 0 < reservationTtlMs := by decide
    rcases List.mem_append.mp hclaim with hclaim | hclaim
    · exact hl claim hclaim
    · rw [List.mem_singleton.mp hclaim]
      show since < now + reservationTtlMs
      omega
  alike := h.stamped key fun _ _ => Iff.rfl

theorem heldByOthers (h : LiveAlike since s s') (hnow : since ≤ now) (keys : List Outpoint) :
    SameAnswer since (heldByOthers now keys s) (heldByOthers now keys s') := by
  induction keys generalizing s s' with
  | nil => exact ⟨rfl, h⟩
  | cons k ks ih =>
    obtain ⟨hreserved, hchecked⟩ := h.isOutpointReserved hnow k
    obtain ⟨hheld, hrest⟩ := ih hchecked
    refine ⟨?_, hrest⟩
    simp only [XChain.heldByOthers]
    rw [hreserved, hheld]

theorem findFreeInput (h : LiveAlike since s s') (hnow : since ≤ now) (skipped us : List Utxo) :
    SameAnswer since (findFreeInput now skipped us s) (findFreeInput now skipped us s') := by
  induction us generalizing skipped s s' with
  | nil => exact ⟨rfl, h⟩
  | cons u us ih =>
    obtain ⟨hreserved, hchecked⟩ := h.isOutpointReserved hnow (outpointKey u)
    simp only [XChain.findFreeInput]
    rw [hreserved]
    split_ifs
    · exact ih hchecked _
    · exact ⟨rfl, hchecked⟩

theorem claimAll (h : LiveAlike since s s') (hl : Owned since l) (hnow : since ≤ now)
    (us : List Utxo) : SameClaims since (claimAll now us l s) (claimAll now us l s') := by
  induction us generalizing l s s' with
  | nil => exact ⟨rfl, hl, h⟩
  | cons u us ih =>
    obtain ⟨hledger, howned, halike⟩ := h.claimOutpoint hl hnow (outpointKey u)
    simp only [XChain.claimAll]
    rw [hledger]
    exact ih halike howned

theorem claimExactInputs (h : LiveAlike since s s') (hl : Owned since l) (hnow : since ≤ now)
    (utxos : List Utxo) :
    (claimExactInputs now utxos l s').1 = (claimExactInputs now utxos l s).1 ∧
      SameClaims since (claimExactInputs now utxos l s).2 (claimExactInputs now utxos l s').2 := by
  obtain ⟨hheld, halike⟩ :=
    (h.evictExpiredReservations hnow).heldByOthers hnow (utxos.map outpointKey)
  unfold XChain.claimExactInputs
  dsimp only
  rw [hheld]
  split_ifs
  · exact ⟨rfl, rfl, hl, halike⟩
  · exact ⟨rfl, halike.claimAll hl hnow utxos⟩

theorem claimFirstFreeInput (h : LiveAlike since s s') (hl : Owned since l) (hnow : since ≤ now)
    (utxos : List Utxo) :
    (claimFirstFreeInput now utxos l s').1 = (claimFirstFreeInput now utxos l s).1 ∧
      SameClaims since (claimFirstFreeInput now utxos l s).2
        (claimFirstFreeInput now utxos l s').2 := by
  obtain ⟨hfound, halike⟩ := (h.evictExpiredReservations hnow).findFreeInput hnow [] utxos
  unfold XChain.claimFirstFreeInput
  dsimp only
  rcases hr : XChain.findFreeInput now [] utxos (s.evictExpiredReservations now) with ⟨found, t⟩
  rcases hr' : XChain.findFreeInput now [] utxos (s'.evictExpiredReservations now) with ⟨found', t'⟩
  rw [hr, hr'] at hfound halike
  obtain rfl : found' = found := hfound
  cases found' with
  | none => exact ⟨rfl, rfl, hl, halike⟩
  | some found => exact ⟨rfl, halike.claimOutpoint hl hnow (outpointKey found.1)⟩

theorem skipReservedInput (h : LiveAlike since s s') (hl : Owned since l) (hnow : since ≤ now)
    (plan : Plan) (key : Outpoint) :
    (skipReservedInput plan key now l s').1 = (skipReservedInput plan key now l s).1 ∧
      SameClaims since (skipReservedInput plan key now l s).2
        (skipReservedInput plan key now l s').2 := by
  obtain ⟨hreserved, hchecked⟩ := h.isOutpointReserved hnow key
  unfold XChain.skipReservedInput
  dsimp only
  rw [hreserved]
  split_ifs
  · exact ⟨rfl, rfl, hl, h⟩
  · exact ⟨rfl, rfl, hl, hchecked⟩
  · exact ⟨rfl, hchecked.claimOutpoint hl hnow key⟩

theorem remainingCandidatesCanFund (h : LiveAlike since s s') (hnow : since ≤ now) (plan : Plan)
    (required : ℤ) (us : List Utxo) (index : ℕ) (available : ℤ) :
    SameAnswer since (remainingCandidatesCanFund plan required now index us available s)
      (remainingCandidatesCanFund plan required now index us available s') := by
  induction us generalizing index available s s' with
  | nil => exact ⟨rfl, h⟩
  | cons u us ih =>
    have hchecked : SameAnswer since
        (if (!plan.request.exactInputs &&
          decide (plan.bound.firstReservedOutpoint ≠ some (outpointKey u))) = true then
            s.isOutpointReserved (outpointKey u) now else (false, s))
        (if (!plan.request.exactInputs &&
          decide (plan.bound.firstReservedOutpoint ≠ some (outpointKey u))) = true then
            s'.isOutpointReserved (outpointKey u) now else (false, s')) := by
      split_ifs
      · exact h.isOutpointReserved hnow (outpointKey u)
      · exact ⟨rfl, h⟩
    simp only [XChain.remainingCandidatesCanFund]
    generalize (if (!plan.request.exactInputs &&
      decide (plan.bound.firstReservedOutpoint ≠ some (outpointKey u))) = true then
        s.isOutpointReserved (outpointKey u) now else (false, s)) = r at hchecked ⊢
    generalize (if (!plan.request.exactInputs &&
      decide (plan.bound.firstReservedOutpoint ≠ some (outpointKey u))) = true then
        s'.isOutpointReserved (outpointKey u) now else (false, s')) = r' at hchecked ⊢
    rw [hchecked.answer]
    split_ifs
    · exact ih hchecked.alike _ _
    · cases parseSatoshiAmount u.value s!"utxos[{index}].value" true with
      | error e => exact ⟨rfl, hchecked.alike⟩
      | ok v =>
        dsimp only
        split_ifs
        · exact ⟨rfl, hchecked.alike⟩
        · exact ih hchecked.alike _ _

theorem cappedSelectionError (h : LiveAlike since s s') (hnow : since ≤ now) (enc : Encoder)
    (plan : Plan) (outputSatoshis : ℤ) (index : ℕ) (rest : List Utxo) (acc : Selection) :
    SameAnswer since (cappedSelectionError enc plan outputSatoshis now index rest acc s)
      (cappedSelectionError enc plan outputSatoshis now index rest acc s') := by
  have hremaining := h.remainingCandidatesCanFund hnow plan
    (outputSatoshis + selectionTargetFee enc acc.estimatedFee) rest index acc.inputSatoshis
  unfold XChain.cappedSelectionError
  dsimp only
  generalize XChain.remainingCandidatesCanFund plan
    (outputSatoshis + selectionTargetFee enc acc.estimatedFee) now index rest acc.inputSatoshis s =
      r at hremaining ⊢
  generalize XChain.remainingCandidatesCanFund plan
    (outputSatoshis + selectionTargetFee enc acc.estimatedFee) now index rest acc.inputSatoshis s' =
      r' at hremaining ⊢
  obtain ⟨answer, t⟩ := r
  obtain ⟨answer', t'⟩ := r'
  obtain rfl : answer' = answer := hremaining.answer
  cases answer' with
  | error e => exact ⟨rfl, hremaining.alike⟩
  | ok found => cases found <;> exact ⟨rfl, hremaining.alike⟩

theorem maxLiveCancelOwnerExpiry (h : LiveAlike since s s') (hnow : since ≤ now) (key : Outpoint) :
    s'.maxLiveCancelOwnerExpiry key now = s.maxLiveCancelOwnerExpiry key now := by
  rw [maxLiveCancelOwnerExpiry_eq, maxLiveCancelOwnerExpiry_eq]
  exact (Lease.latest_congr hnow (h.table.owners key)).symm

theorem claimCommit (h : LiveAlike since s s') (hl : Owned since l) (hnow : since ≤ now)
    (key : Outpoint) :
    (claimCommit key now l s').1 = (claimCommit key now l s).1 ∧
      SameClaims since (claimCommit key now l s).2 (claimCommit key now l s').2 := by
  have hswept := (h.evictExpiredReservations hnow).evictExpiredEnvelopeCancelClaims hnow
  have hchecked := hswept.isOutpointReserved hnow key
  have hstamp := Lease.live_eq hnow (hswept.table.stamp key)
  simp only [table_stamp] at hstamp
  unfold XChain.claimCommit
  dsimp only
  rw [isOutpointReserved_eq_live, isOutpointReserved_eq_live, hstamp] at hchecked ⊢
  dsimp only at hchecked ⊢
  rw [hchecked.alike.maxLiveCancelOwnerExpiry hnow key]
  simp only [Function.update_self]
  split_ifs
  · exact ⟨rfl, rfl, hl, hchecked.alike⟩
  · obtain ⟨hledger, howned, halike⟩ := hchecked.alike.claimOutpoint hl hnow key
    refine ⟨rfl, ?_, fun claim hclaim => ?_, ?_⟩
    · dsimp only [reserveOutpoint]
      rw [hswept.nextId]
    · rcases List.mem_append.mp hclaim with hclaim | hclaim
      · exact hl claim hclaim
      · rw [List.mem_singleton.mp hclaim]
        exact (howned ⟨key, now + reservationTtlMs, none⟩ (by simp [Reservations.claimOutpoint,
          reserveOutpoint]) :)
    · have hjoin := hchecked.alike.table.join key s.nextId (now + reservationTtlMs)
      refine ⟨?_, h.recentBuilds, h.reservationTickets, congrArg (· + 1) h.nextId⟩
      dsimp only [reserveOutpoint]
      rw [hswept.nextId]
      exact hjoin

/-! ## The duplicate check -/

theorem refuseDuplicateBuild (h : LiveAlike since s s') (hnow : since ≤ now) (txid : Text) :
    SameAnswer since (s.refuseDuplicateBuild txid now) (s'.refuseDuplicateBuild txid now) := by
  have hevicted := h.evictExpiredRecentBuilds hnow
  have hlive : (s'.evictExpiredRecentBuilds now).recentBuilds txid =
      (s.evictExpiredRecentBuilds now).recentBuilds txid :=
    (Lease.live_eq hnow (h.recentBuilds txid)).symm
  unfold Reservations.refuseDuplicateBuild
  dsimp only
  rw [hlive]
  split_ifs
  · exact ⟨rfl, hevicted⟩
  · exact ⟨rfl, hevicted.recorded txid fun _ _ => Iff.rfl⟩

/-! ## Giving back -/

theorem releaseClaim (h : LiveAlike since s s') {claim : Claim} (hc : since < claim.expiry) :
    LiveAlike since (s.releaseClaim claim) (s'.releaseClaim claim) := by
  refine h.of_table ?_ (sameBuilds_releaseClaim claim) (sameBuilds_releaseClaim claim)
  rw [table_releaseClaim, table_releaseClaim]
  exact h.table.clear claim.key hc

theorem releaseCallReservations (h : LiveAlike since s s') {claims : List Claim}
    (hclaims : ∀ claim ∈ claims, since < claim.expiry) :
    LiveAlike since (s.releaseCallReservations claims) (s'.releaseCallReservations claims) := by
  induction claims generalizing s s' with
  | nil => exact h
  | cons claim claims ih =>
    exact ih (h.releaseClaim (hclaims claim List.mem_cons_self)) fun c hc =>
      hclaims c (List.mem_cons_of_mem claim hc)

theorem dropCancelOwner (h : LiveAlike since s s') (hnow : since ≤ now) (key : Outpoint)
    (ownerId : ℕ) :
    SameAnswer since (s.dropCancelOwner key ownerId now) (s'.dropCancelOwner key ownerId now) := by
  obtain ⟨hheld, htable⟩ := dropCancelOwner_eq (s := s) key ownerId now
  obtain ⟨hheld', htable'⟩ := dropCancelOwner_eq (s := s') key ownerId now
  obtain ⟨hsame, hdrop⟩ := h.table.drop hnow key ownerId
  refine ⟨by rw [hheld, hheld', hsame], ?_⟩
  refine h.of_table ?_ (sameBuilds_dropCancelOwner key ownerId now)
    (sameBuilds_dropCancelOwner key ownerId now)
  rw [htable, htable']
  exact hdrop

end LiveAlike

/-- One claim of a failed cancel: it is handed back unless another owner holds it. -/
def dropClaim (now : ℕ) (r : List Claim × Reservations) (claim : Claim) :
    List Claim × Reservations :=
  match claim.cancelOwnerId with
  | none => (r.1 ++ [claim], r.2)
  | some ownerId =>
    if (r.2.dropCancelOwner claim.key ownerId now).1 then
      (r.1, (r.2.dropCancelOwner claim.key ownerId now).2)
    else (r.1 ++ [claim], (r.2.dropCancelOwner claim.key ownerId now).2)

theorem releaseEnvelopeCancelClaims_eq (s : Reservations) (claims : List Claim) (now : ℕ) :
    s.releaseEnvelopeCancelClaims claims now =
      (claims.foldl (dropClaim now) ([], s)).2.releaseCallReservations
        (claims.foldl (dropClaim now) ([], s)).1 := rfl

theorem SameAnswer.dropClaim {r r' : List Claim × Reservations} (h : SameAnswer since r r')
    (hnow : since ≤ now) (claim : Claim) :
    SameAnswer since (dropClaim now r claim) (dropClaim now r' claim) := by
  obtain ⟨hback, halike⟩ := h
  unfold Reservations.dropClaim
  cases claim.cancelOwnerId with
  | none => exact ⟨congrArg (· ++ [claim]) hback, halike⟩
  | some ownerId =>
    obtain ⟨hheld, hdrop⟩ := halike.dropCancelOwner hnow claim.key ownerId
    dsimp only
    rw [hheld]
    split_ifs
    · exact ⟨hback, hdrop⟩
    · exact ⟨congrArg (· ++ [claim]) hback, hdrop⟩

theorem mem_dropClaim (now : ℕ) (claims : List Claim) (r : List Claim × Reservations) :
    ∀ claim ∈ (claims.foldl (dropClaim now) r).1, claim ∈ r.1 ∨ claim ∈ claims := by
  induction claims generalizing r with
  | nil => exact fun claim h => .inl h
  | cons c claims ih =>
    intro claim hclaim
    have hone : claim ∈ (dropClaim now r c).1 → claim ∈ r.1 ∨ claim = c := by
      unfold dropClaim
      cases c.cancelOwnerId with
      | none => simp
      | some ownerId =>
        dsimp only
        split_ifs
        · exact .inl
        · simp
    rcases ih _ claim hclaim with h | h
    · exact (hone h).imp_right fun he => List.mem_cons.mpr (.inl he)
    · exact .inr (List.mem_cons_of_mem c h)

namespace LiveAlike

theorem releaseEnvelopeCancelClaims (h : LiveAlike since s s') (hnow : since ≤ now)
    {claims : List Claim} (hclaims : ∀ claim ∈ claims, since < claim.expiry) :
    LiveAlike since (s.releaseEnvelopeCancelClaims claims now)
      (s'.releaseEnvelopeCancelClaims claims now) := by
  have hdropped : SameAnswer since (claims.foldl (dropClaim now) ([], s))
      (claims.foldl (dropClaim now) ([], s')) :=
    List.foldl_rel (r := SameAnswer since) ⟨rfl, h⟩ fun claim _ _ _ hr => hr.dropClaim hnow claim
  rw [releaseEnvelopeCancelClaims_eq, releaseEnvelopeCancelClaims_eq, hdropped.answer]
  refine hdropped.alike.releaseCallReservations fun claim hclaim => ?_
  exact (mem_dropClaim now claims _ claim hclaim).elim (fun h => by cases h) (hclaims claim)

/-! ## Tickets -/

theorem mintReservationTicket (h : LiveAlike since s s') (hl : Owned since l) (hnow : since ≤ now) :
    SameAnswer since (s.mintReservationTicket l now) (s'.mintReservationTicket l now) := by
  have hevicted := h.evictExpiredReservationTickets hnow
  have hlive : l.claims.filter (fun claim => decide ((s'.evictExpiredReservationTickets
      now).outpointReservations claim.key = some claim.expiry)) =
      l.claims.filter fun claim => decide ((s.evictExpiredReservationTickets
        now).outpointReservations claim.key = some claim.expiry) := by
    refine List.filter_congr fun claim hclaim => ?_
    exact decide_eq_decide.mpr (h.table.stamp claim.key claim.expiry (hl claim hclaim)).symm
  unfold Reservations.mintReservationTicket
  dsimp only
  rw [hlive, hevicted.nextId]
  split_ifs
  · exact ⟨rfl, hevicted⟩
  · refine ⟨rfl, h.table, h.recentBuilds, fun id => ?_, rfl⟩
    dsimp only
    by_cases hid : id = (s.evictExpiredReservationTickets now).nextId
    · subst hid
      rw [Function.update_self, Function.update_self]
      refine relTickets_filter (.some ?_) since
      refine ⟨rfl, rfl, rfl, fun e he => ?_⟩
      cases l.buildTxid with
      | none => exact Iff.rfl
      | some txid => exact h.recentBuilds txid e he
    · rw [Function.update_of_ne hid, Function.update_of_ne hid]
      exact hevicted.reservationTickets id

end LiveAlike

theorem retireRecentBuild_eq {ticket : Ticket} {txid : Text} (ht : ticket.txid = some txid) :
    s.retireRecentBuild ticket =
      { s with
        recentBuilds := Function.update s.recentBuilds txid
          ((s.recentBuilds txid).filter fun e => ticket.txidExpiry ≠ some e) } := by
  have hself : Function.update s.recentBuilds txid (s.recentBuilds txid) = s.recentBuilds :=
    Function.update_eq_self txid s.recentBuilds
  unfold retireRecentBuild
  rw [ht]
  cases he : ticket.txidExpiry with
  | none =>
    cases hb : s.recentBuilds txid with
    | none =>
      rw [hb] at hself
      simp only [Option.filter_none, hself]
    | some e =>
      rw [hb] at hself
      simp [Option.filter_some, hself]
  | some expiry =>
    dsimp only
    cases hb : s.recentBuilds txid with
    | none =>
      rw [hb] at hself
      simp only [Option.filter_none, hself, reduceCtorEq, if_false]
    | some e =>
      rw [hb] at hself
      by_cases hee : e = expiry
      · simp [Option.filter_some, hee]
      · simp [Option.filter_some, hee, Ne.symm hee, hself]

/-- A ticket's claims are given back from one table with one answer. -/
theorem releaseTicketClaim_congr {r r' : ReleaseResult × Reservations} (now : ℕ) (claim : Claim)
    (hr : r'.1 = r.1 ∧ r'.2.table = r.2.table) :
    (releaseTicketClaim now r' claim).1 = (releaseTicketClaim now r claim).1 ∧
      (releaseTicketClaim now r' claim).2.table = (releaseTicketClaim now r claim).2.table := by
  obtain ⟨hresult, htable⟩ := hr
  refine ⟨?_, by rw [table_releaseTicketClaim, table_releaseTicketClaim, htable]⟩
  unfold releaseTicketClaim
  cases claim.cancelOwnerId with
  | none =>
    have hstamp : r'.2.outpointReservations = r.2.outpointReservations :=
      congrArg Lease.Table.stamp htable
    simp only [hstamp, hresult]
    split_ifs <;> rfl
  | some ownerId =>
    obtain ⟨hheld, hdrop⟩ := dropCancelOwner_eq (s := r.2) claim.key ownerId now
    obtain ⟨hheld', hdrop'⟩ := dropCancelOwner_eq (s := r'.2) claim.key ownerId now
    have hstamp : (r'.2.dropCancelOwner claim.key ownerId now).2.outpointReservations =
        (r.2.dropCancelOwner claim.key ownerId now).2.outpointReservations := by
      have := congrArg Lease.Table.stamp ((hdrop'.trans (by rw [htable])).trans hdrop.symm)
      exact this
    dsimp only
    rw [hstamp, hheld, hheld', htable, hresult]
    split_ifs <;> rfl

namespace LiveAlike

theorem retireRecentBuild (h : LiveAlike since s s') {ticket ticket' : Ticket}
    (ht : SameTicket since ticket ticket') :
    LiveAlike since (s.retireRecentBuild ticket) (s'.retireRecentBuild ticket') := by
  cases htxid : ticket.txid with
  | none =>
    have htxid' : ticket'.txid = none := ht.txid.trans htxid
    have hself : ∀ (t : Reservations) (x : Ticket), x.txid = none → t.retireRecentBuild x = t := by
      intro t x hx
      unfold Reservations.retireRecentBuild
      rw [hx]
    rw [hself _ _ htxid, hself _ _ htxid']
    exact h
  | some txid =>
    rw [retireRecentBuild_eq htxid, retireRecentBuild_eq (ht.txid.trans htxid)]
    refine h.recorded txid fun e he => ?_
    simp only [Option.filter_eq_some_iff, decide_eq_true_eq, h.recentBuilds txid e he, ne_eq,
      ht.txidExpiry e he]

theorem sweep_table (h : LiveAlike since s s') (hnow : since ≤ now) :
    (s'.sweep now).table = (s.sweep now).table := by
  have hstamp : (s'.sweep now).outpointReservations = (s.sweep now).outpointReservations :=
    funext fun key => (Lease.live_eq hnow (h.table.stamp key)).symm
  have howners : (s'.sweep now).envelopeCancelClaims = (s.sweep now).envelopeCancelClaims :=
    funext fun key => (Lease.liveOwners_mono hnow (h.table.owners key)).symm
  exact congrArg₂ Lease.Table.mk hstamp howners

theorem sweep (h : LiveAlike since s s') (hnow : since ≤ now) :
    LiveAlike since (s.sweep now) (s'.sweep now) :=
  (((h.evictExpiredReservations hnow).evictExpiredEnvelopeCancelClaims hnow).evictExpiredRecentBuilds
    hnow).evictExpiredReservationTickets hnow

theorem withdraw (h : LiveAlike since s s') (id : ℕ) :
    LiveAlike since
      { s with reservationTickets := Function.update s.reservationTickets id none }
      { s' with reservationTickets := Function.update s'.reservationTickets id none } where
  table := h.table
  recentBuilds := h.recentBuilds
  reservationTickets id' := by
    by_cases hid : id' = id
    · subst hid
      simp only [Function.update_self]
      exact .none
    · simp only [Function.update_of_ne hid]
      exact h.reservationTickets id'
  nextId := h.nextId

/-- The claims of a ticket are given back from one table with one answer. -/
theorem releaseTicketClaims (h : LiveAlike since s s') (htable : s'.table = s.table) (now : ℕ)
    (claims : List Claim) (result : ReleaseResult) :
    SameAnswer since (claims.foldl (releaseTicketClaim now) (result, s))
      (claims.foldl (releaseTicketClaim now) (result, s')) := by
  have hfold := List.foldl_rel (l := claims) (f := releaseTicketClaim now)
    (g := releaseTicketClaim now) (a := (result, s)) (b := (result, s'))
    (r := fun r r' : ReleaseResult × Reservations => r'.1 = r.1 ∧ r'.2.table = r.2.table)
    ⟨rfl, htable⟩ fun claim _ r r' hr => releaseTicketClaim_congr now claim hr
  refine ⟨hfold.1, h.of_table ?_ (table_releaseClaims now claims (result, s)).2
    (table_releaseClaims now claims (result, s')).2⟩
  rw [hfold.2]
  exact .refl since _

/-- **A release has one answer in both.** -/
theorem releaseReservation (h : LiveAlike since s s') (hnow : since ≤ now) (id : ℕ) :
    SameAnswer since (s.releaseReservation id now) (s'.releaseReservation id now) := by
  have hswept := h.sweep hnow
  have htickets : Option.Rel (SameTicket since) ((s.sweep now).reservationTickets id)
      ((s'.sweep now).reservationTickets id) := relTickets_mono hnow (h.reservationTickets id)
  unfold Reservations.releaseReservation
  dsimp only
  cases hs : (s.sweep now).reservationTickets id with
  | none =>
    rw [hs] at htickets
    cases hs' : (s'.sweep now).reservationTickets id with
    | none => exact ⟨rfl, hswept⟩
    | some ticket' =>
      rw [hs'] at htickets
      cases htickets
  | some ticket =>
    rw [hs] at htickets
    cases hs' : (s'.sweep now).reservationTickets id with
    | none =>
      rw [hs'] at htickets
      cases htickets
    | some ticket' =>
      rw [hs'] at htickets
      cases htickets with
      | some hsame =>
        have hclaims := (hswept.withdraw id).releaseTicketClaims (h.sweep_table hnow) now
          ticket.claims ⟨id, true, [], []⟩
        dsimp only
        rw [hsame.claims]
        exact ⟨hclaims.answer, hclaims.alike.retireRecentBuild hsame⟩

end LiveAlike

theorem liveAlike_sweep (s : Reservations) (now : ℕ) : LiveAlike now s (s.sweep now) where
  table := by
    refine ⟨fun key e he => ?_, fun key => ?_⟩
    · show s.outpointReservations key = some e ↔
        (s.outpointReservations key).filter (fun e => now < e) = some e
      simp [Option.filter_eq_some_iff, he]
    · exact (Lease.liveOwners_liveOwners le_rfl (s.envelopeCancelClaims key)).symm
  recentBuilds txid e he := by
    show s.recentBuilds txid = some e ↔ (s.recentBuilds txid).filter (fun e => now < e) = some e
    simp [Option.filter_eq_some_iff, he]
  reservationTickets id := by
    have htwice : ((s.sweep now).reservationTickets id).filter (fun ticket => now < ticket.expiry) =
        (s.reservationTickets id).filter fun ticket => now < ticket.expiry := by
      show ((s.reservationTickets id).filter fun ticket => now < ticket.expiry).filter _ = _
      rw [Option.filter_filter]
      exact congrArg (s.reservationTickets id).filter (funext fun _ => Bool.and_self _)
    rw [htwice]
    exact relTickets_refl now _
  nextId := rfl

end Reservations

end XChain
