import XChainEncoder.DuplicateBuilds
import XChainEncoder.Lib.Writes

/-!
# Lifetimes of the entries

No map ever holds an entry that outlives the TTL.

* `ShortLived`, `ShortClaims`: every entry and every claim lapses within the TTL of a time;
* `Lapses`: the writes that keep both; `lapses_program`: every write of a call is one;
* `encoderRun_shortLived`: **in every reachable world every entry lapses within the TTL**.
-/

namespace XChain

open PushScript Coroutine Reservations

/-- Every entry of the maps lapses within the TTL of time `n`. -/
structure ShortLived (n : ℕ) (s : Reservations) : Prop where
  stamps : ∀ key e, s.outpointReservations key = some e → e ≤ n + reservationTtlMs
  owners : ∀ key, ∀ owner ∈ s.envelopeCancelClaims key, owner.2 ≤ n + reservationTtlMs
  recentBuilds : ∀ txid e, s.recentBuilds txid = some e → e ≤ n + reservationTtlMs
  tickets : ∀ id ticket, s.reservationTickets id = some ticket →
    ticket.expiry ≤ n + reservationTtlMs

/-- Every claim of a ledger lapses within the TTL of time `n`. -/
def ShortClaims (n : ℕ) (l : Ledger) : Prop :=
  ∀ claim ∈ l.claims, claim.expiry ≤ n + reservationTtlMs

/-- A write after which every entry and claim still lapses in time. -/
abbrev Lapses : WriteRel sig := KeepsBoth ShortLived ShortClaims

variable {n now : ℕ} {s s' : Reservations} {l : Ledger}

theorem ShortLived.later {n' : ℕ} (hn : n ≤ n') (h : ShortLived n s) : ShortLived n' s where
  stamps key e he := (h.stamps key e he).trans (Nat.add_le_add_right hn _)
  owners key owner ho := (h.owners key owner ho).trans (Nat.add_le_add_right hn _)
  recentBuilds txid e he := (h.recentBuilds txid e he).trans (Nat.add_le_add_right hn _)
  tickets id ticket ht := (h.tickets id ticket ht).trans (Nat.add_le_add_right hn _)

theorem ShortClaims.later {n' : ℕ} (hn : n ≤ n') (h : ShortClaims n l) : ShortClaims n' l :=
  fun claim hc => (h claim hc).trans (Nat.add_le_add_right hn _)

theorem ShortLived.sweeps {t : ℕ} (hs : Sweeps t s s') (h : ShortLived n s) : ShortLived n s' where
  stamps key e he := by
    rcases hs.stamp key with hk | ⟨hk, -⟩
    · exact h.stamps key e (hk.symm.trans he)
    · cases hk.symm.trans he
  owners key owner ho := h.owners key owner (hs.owners key owner ho)
  recentBuilds txid e he := h.recentBuilds txid e (hs.recentBuilds txid e he)
  tickets id ticket ht := h.tickets id ticket (hs.tickets id ticket ht)

/-- What holds of every value of a map holds after one update with such a value. -/
theorem forall_update {κ α : Type} [DecidableEq κ] {f : κ → Option α} {P : α → Prop}
    (hf : ∀ k a, f k = some a → P a) {k : κ} {o : Option α} (ho : ∀ a, o = some a → P a) :
    ∀ k' a, Function.update f k o k' = some a → P a := by
  intro k' a ha
  by_cases hk : k' = k
  · subst hk
    rw [Function.update_self] at ha
    exact ho a ha
  · rw [Function.update_of_ne hk] at ha
    exact hf k' a ha

theorem ShortLived.stamped (h : ShortLived n s) (key : Outpoint) (o : Option ℕ)
    (ho : ∀ e, o = some e → e ≤ n + reservationTtlMs) :
    ShortLived n
      { s with outpointReservations := Function.update s.outpointReservations key o } :=
  { h with stamps := forall_update h.stamps ho }

theorem ShortLived.recorded (h : ShortLived n s) (txid : Text) (o : Option ℕ)
    (ho : ∀ e, o = some e → e ≤ n + reservationTtlMs) :
    ShortLived n { s with recentBuilds := Function.update s.recentBuilds txid o } :=
  { h with recentBuilds := forall_update h.recentBuilds ho }

theorem ShortLived.ticketed (h : ShortLived n s) (id : ℕ) (o : Option Ticket)
    (ho : ∀ ticket, o = some ticket → ticket.expiry ≤ n + reservationTtlMs) :
    ShortLived n { s with reservationTickets := Function.update s.reservationTickets id o } :=
  { h with tickets := forall_update h.tickets ho }

theorem ShortLived.owned (h : ShortLived n s) (key : Outpoint) (owners : List (ℕ × ℕ))
    (ho : ∀ owner ∈ owners, owner.2 ≤ n + reservationTtlMs) :
    ShortLived n
      { s with envelopeCancelClaims := Function.update s.envelopeCancelClaims key owners } where
  stamps := h.stamps
  owners key' owner hmem := by
    by_cases hk : key' = key
    · subst hk
      exact ho owner ((Function.update_self key' owners s.envelopeCancelClaims) ▸ hmem)
    · exact h.owners key' owner ((Function.update_of_ne hk owners s.envelopeCancelClaims) ▸ hmem)
  recentBuilds := h.recentBuilds
  tickets := h.tickets

/-! ## Claiming -/

theorem lapses_sweeps {t : ℕ} (hs : Sweeps t s s') (l : Ledger) : Lapses n s l s' l :=
  fun h hl => ⟨h.sweeps hs, hl⟩

theorem Lapses.trans {s'' : Reservations} {l' l'' : Ledger} (h : Lapses n s l s' l')
    (h' : Lapses n s' l' s'' l'') : Lapses n s l s'' l'' :=
  fun hs hl => h' (h hs hl).1 (h hs hl).2

theorem lapses_claimOutpoint (hn : now ≤ n) (key : Outpoint) :
    Lapses n s l (s.claimOutpoint l key now).2 (s.claimOutpoint l key now).1 := by
  have hterm : now + reservationTtlMs ≤ n + reservationTtlMs := Nat.add_le_add_right hn _
  refine fun h hl => ⟨h.stamped key (some (now + reservationTtlMs)) fun e he => ?_,
    fun claim hc => ?_⟩
  · cases he
    exact hterm
  · rcases List.mem_append.mp hc with hc | hc
    · exact hl claim hc
    · obtain rfl := List.mem_singleton.mp hc
      exact hterm

theorem lapses_claimAll (hn : now ≤ n) (us : List Utxo) (l : Ledger) (s : Reservations) :
    Lapses n s l (claimAll now us l s).2 (claimAll now us l s).1 := by
  induction us generalizing l s with
  | nil => exact fun h hl => ⟨h, hl⟩
  | cons u us ih => exact (lapses_claimOutpoint hn (outpointKey u)).trans (ih _ _)

theorem lapses_claimExactInputs (hn : now ≤ n) (utxos : List Utxo) :
    Lapses n s l (claimExactInputs now utxos l s).2.2 (claimExactInputs now utxos l s).2.1 := by
  have hsw : Sweeps now s (heldByOthers now (utxos.map outpointKey)
      (s.evictExpiredReservations now)).2 :=
    (Sweeps.evictExpiredReservations le_rfl).trans (sweeps_heldByOthers le_rfl _ _)
  unfold claimExactInputs
  dsimp only
  split_ifs
  · exact lapses_sweeps hsw l
  · exact (lapses_sweeps hsw l).trans (lapses_claimAll hn utxos l _)

theorem lapses_claimFirstFreeInput (hn : now ≤ n) (utxos : List Utxo) :
    Lapses n s l (claimFirstFreeInput now utxos l s).2.2
      (claimFirstFreeInput now utxos l s).2.1 := by
  have hsw : Sweeps now s (findFreeInput now [] utxos (s.evictExpiredReservations now)).2 :=
    (Sweeps.evictExpiredReservations le_rfl).trans (findFreeInput_spec le_rfl utxos [] _).1
  unfold claimFirstFreeInput
  rcases hr : findFreeInput now [] utxos (s.evictExpiredReservations now) with ⟨_ | found, s'⟩
  · rw [hr] at hsw
    simp only [hr]
    exact lapses_sweeps hsw l
  · rw [hr] at hsw
    simp only [hr]
    exact (lapses_sweeps hsw l).trans (lapses_claimOutpoint hn (outpointKey found.1))

theorem lapses_skipReservedInput {plan : Plan} (hn : now ≤ n) (key : Outpoint) :
    Lapses n s l (skipReservedInput plan key now l s).2.2
      (skipReservedInput plan key now l s).2.1 := by
  have hsw : Sweeps now s (s.isOutpointReserved key now).2 := .isOutpointReserved le_rfl key
  unfold skipReservedInput
  dsimp only
  split_ifs
  · exact fun h hl => ⟨h, hl⟩
  · exact lapses_sweeps hsw l
  · exact (lapses_sweeps hsw l).trans (lapses_claimOutpoint hn key)

theorem lapses_claimCommit (hn : now ≤ n) (key : Outpoint) :
    Lapses n s l (claimCommit key now l s).2.2 (claimCommit key now l s).2.1 := by
  have hsw : Sweeps now s (((s.evictExpiredReservations now).evictExpiredEnvelopeCancelClaims
      now).isOutpointReserved key now).2 :=
    ((Sweeps.evictExpiredReservations le_rfl).trans
      (Sweeps.evictExpiredEnvelopeCancelClaims le_rfl)).trans (Sweeps.isOutpointReserved le_rfl key)
  have hterm : now + reservationTtlMs ≤ n + reservationTtlMs := Nat.add_le_add_right hn _
  unfold claimCommit
  dsimp only
  split_ifs
  · exact lapses_sweeps hsw l
  · refine fun h hl => ⟨?_, fun claim hc => ?_⟩
    · have hswept := h.sweeps hsw
      have hclaimed := hswept.stamped key (some (now + reservationTtlMs)) fun e he =>
        (Option.some.inj he).symm.le.trans hterm
      refine { hclaimed with owners := (hclaimed.owned key _ fun owner ho => ?_).owners }
      rcases List.mem_append.mp ho with ho | ho
      · exact hswept.owners key owner ho
      · obtain rfl := List.mem_singleton.mp ho
        exact hterm
    · rcases List.mem_append.mp hc with hc | hc
      · exact hl claim hc
      · obtain rfl := List.mem_singleton.mp hc
        exact hterm

/-! ## The duplicate check and the ticket -/

theorem lapses_refuseDuplicateBuild (hn : now ≤ n) (txid : Text) (b : Option Text) :
    Lapses n s l (s.refuseDuplicateBuild txid now).2 { l with buildTxid := b } := by
  have hsw : Sweeps now s (s.evictExpiredRecentBuilds now) := .evictExpiredRecentBuilds le_rfl
  intro h hl
  refine ⟨?_, hl⟩
  have hswept := h.sweeps hsw
  unfold Reservations.refuseDuplicateBuild
  dsimp only
  split_ifs
  · exact hswept
  · refine hswept.recorded txid (some (now + reservationTtlMs)) fun e he => ?_
    exact (Option.some.inj he).symm.le.trans (Nat.add_le_add_right hn _)

theorem lapses_mintReservationTicket (now : ℕ) :
    Lapses n s l (s.mintReservationTicket l now).2 l := by
  have hsw : Sweeps now s (s.evictExpiredReservationTickets now) :=
    .evictExpiredReservationTickets le_rfl
  intro h hl
  refine ⟨?_, hl⟩
  have hswept := h.sweeps hsw
  unfold Reservations.mintReservationTicket
  dsimp only
  split_ifs
  · exact hswept
  · refine { hswept with tickets := forall_update hswept.tickets fun ticket ht => ?_ }
    obtain rfl := Option.some.inj ht
    exact foldl_expiry_le (fun claim hc => hl claim (List.mem_of_mem_filter hc)) 0 (Nat.zero_le _)

/-! ## Giving back -/

theorem ShortLived.releaseClaim (h : ShortLived n s) (claim : Claim) :
    ShortLived n (s.releaseClaim claim) := by
  unfold Reservations.releaseClaim
  split_ifs
  · exact h.stamped claim.key none nofun
  · exact h

theorem ShortLived.releaseCallReservations (h : ShortLived n s) (claims : List Claim) :
    ShortLived n (s.releaseCallReservations claims) := by
  induction claims generalizing s with
  | nil => exact h
  | cons claim claims ih => exact ih (h.releaseClaim claim)

/-- What is left of a shared outpoint lapses with one of its owners. -/
theorem ShortLived.dropCancelOwner (h : ShortLived n s) (key : Outpoint) (ownerId now : ℕ) :
    ShortLived n (s.dropCancelOwner key ownerId now).2 := by
  have hrest := h.owned key ((s.envelopeCancelClaims key).filter fun owner => owner.1 ≠ ownerId)
    fun owner ho => h.owners key owner (List.mem_of_mem_filter ho)
  unfold Reservations.dropCancelOwner
  split_ifs
  · exact h
  · dsimp only
    split
    · exact hrest.owned key [] (by simp)
    · rename_i remaining hremaining
      refine hrest.stamped key (some remaining) fun e he => ?_
      obtain rfl := Option.some.inj he
      rw [maxLiveCancelOwnerExpiry_eq] at hremaining
      obtain ⟨⟨owner, ho, rfl⟩, -, -⟩ := Lease.latest_eq_some.mp hremaining
      exact hrest.owners key owner ho

theorem ShortLived.releaseEnvelopeCancelClaims (h : ShortLived n s) (claims : List Claim) (now : ℕ) :
    ShortLived n (s.releaseEnvelopeCancelClaims claims now) := by
  unfold Reservations.releaseEnvelopeCancelClaims
  refine ShortLived.releaseCallReservations ?_ _
  refine List.foldlRecOn (motive := fun r : List Claim × Reservations => ShortLived n r.2)
    claims _ h ?_
  rintro ⟨handBack, s'⟩ hs claim -
  cases claim.cancelOwnerId with
  | none => exact hs
  | some o =>
    have hdrop := hs.dropCancelOwner claim.key o now
    dsimp only
    split_ifs <;> exact hdrop

theorem shortLived_releaseTicketClaim {r : ReleaseResult × Reservations} (h : ShortLived n r.2)
    (now : ℕ) (claim : Claim) : ShortLived n (releaseTicketClaim now r claim).2 := by
  unfold releaseTicketClaim
  cases claim.cancelOwnerId with
  | none =>
    simp only [Bool.false_eq_true, not_false_eq_true, true_and]
    split_ifs
    · exact h.stamped claim.key none nofun
    · exact h
  | some ownerId =>
    have hdrop := h.dropCancelOwner claim.key ownerId now
    dsimp only
    split_ifs
    · exact hdrop.stamped claim.key none nofun
    · exact hdrop

theorem ShortLived.retireRecentBuild (h : ShortLived n s) (ticket : Ticket) :
    ShortLived n (s.retireRecentBuild ticket) := by
  obtain ⟨htable, htickets, -⟩ := sameMaps_retireRecentBuild s ticket
  refine ⟨fun key e he => h.stamps key e ?_, fun key owner ho => h.owners key owner ?_,
    fun txid e he => h.recentBuilds txid e (retireRecentBuild_recentBuilds he),
    fun id t ht => h.tickets id t (htickets ▸ ht)⟩
  · exact (congrFun (congrArg Lease.Table.stamp htable) key).symm.trans he
  · have howners : (s.retireRecentBuild ticket).envelopeCancelClaims = s.envelopeCancelClaims :=
      congrArg Lease.Table.owners htable
    rwa [← howners]

theorem ShortLived.releaseReservation (h : ShortLived n s) (id now : ℕ) :
    ShortLived n (s.releaseReservation id now).2 := by
  have hswept := h.sweeps (Sweeps.sweep (t := now) le_rfl)
  unfold Reservations.releaseReservation
  dsimp only
  split
  · exact hswept
  · rename_i ticket hticket
    refine ShortLived.retireRecentBuild ?_ ticket
    exact List.foldlRecOn (motive := fun r : ReleaseResult × Reservations => ShortLived n r.2)
      ticket.claims _ (hswept.ticketed id none nofun)
      fun r hr claim _ => shortLived_releaseTicketClaim hr now claim

/-! ## Calls -/

section Calls

variable {enc : Encoder} {plan : Plan} {emitted : Emitted} {α : Type}

theorem lapses_selectStep (hn : now ≤ n) (index : ℕ) (u : Utxo) (rest : List Utxo) (acc : Selection)
    (s : Reservations) (l : Ledger) :
    Writes (σ := sig) Lapses (selectStep enc plan emitted now index u rest acc) n s l := by
  rw [selectStep_eq]
  refine writes_bind ?_ fun _ t s l ht => ?_
  · unfold refuseCappedSelection
    split_ifs
    · trivial
    · exact ⟨lapses_sweeps (sweeps_cappedSelectionError enc plan _ _ _ _ hn s) l, trivial⟩
  · refine writes_bind (writes_ofExcept _ _ _ _) fun _ t' s l ht' =>
      ⟨lapses_skipReservedInput (hn.trans (ht.trans ht')) _, ?_⟩
    split_ifs
    · trivial
    · refine writes_bind (writes_ofExcept _ _ _ _) fun _ _ _ _ _ => ?_
      refine writes_bind (writes_quiet (quiet_selectedInput u _) _ _ _) fun input _ _ _ _ => ?_
      exact writes_bind (writes_ofExcept _ _ _ _) fun _ _ _ _ _ => trivial

theorem lapses_selectLoop (hn : now ≤ n) (us : List Utxo) (index : ℕ) (acc : Selection)
    (s : Reservations) (l : Ledger) :
    Writes (σ := sig) Lapses (selectLoop enc plan emitted now index us acc) n s l := by
  induction us generalizing index acc n s l with
  | nil => trivial
  | cons u rest ih =>
    refine writes_bind (lapses_selectStep hn index u rest acc s l) fun r t s l ht => ?_
    obtain ⟨done, acc'⟩ := r
    cases done with
    | true => trivial
    | false => exact ih (hn.trans ht) (index + 1) acc' s l

theorem lapses_bindObfuscationKey (exactInputs : Bool) (utxos : List Utxo) :
    Writes (σ := sig) Lapses (bindObfuscationKey exactInputs utxos) n s l := by
  rcases eq_or_ne utxos [] with he | he
  · unfold bindObfuscationKey
    rw [if_pos he]
    trivial
  cases exactInputs with
  | true =>
    rw [bindObfuscationKey_exact he]
    exact fun t _ => ⟨lapses_claimExactInputs le_rfl utxos,
      writes_bind (writes_ofExcept _ _ _ _) fun _ _ _ _ _ => trivial⟩
  | false =>
    rw [bindObfuscationKey_greedy he]
    exact fun t _ => ⟨lapses_claimFirstFreeInput le_rfl utxos, trivial⟩

theorem lapses_buildFromBound (request : TxRequest) (pre : Prepared) (bound : Bound) :
    Writes (σ := sig) Lapses (buildFromBound enc request pre bound) n s l := by
  refine writes_bind (writes_ofExcept _ _ _ _) fun plan _ _ _ _ => ?_
  refine writes_bind (writes_quiet quiet_emitOutputs _ _ _) fun r _ _ _ _ => ?_
  refine writes_bind (writes_ofExcept _ _ _ _) fun start n s l _ => ?_
  refine writes_bind ?_ fun sel _ _ _ _ => writes_quiet (quiet_settleBuild _) _ _ _
  unfold selectFundingInputs
  split_ifs
  · trivial
  · refine writes_bind ?_ fun sel _ _ _ _ => writes_bind (writes_ofExcept _ _ _ _)
      fun _ _ _ _ _ => writes_bind (writes_ofExcept _ _ _ _) fun _ _ _ _ _ => trivial
    rw [selectInputs_eq]
    exact fun t ht => ⟨lapses_sweeps (Sweeps.evictExpiredReservations (t := t) le_rfl) l,
      lapses_selectLoop le_rfl _ 0 start _ l⟩

theorem refuseDuplicateBuild_evicted (s : Reservations) (txid : Text) (now : ℕ) :
    (s.evictExpiredRecentBuilds now).refuseDuplicateBuild txid now =
      s.refuseDuplicateBuild txid now := by
  have htwice : (s.evictExpiredRecentBuilds now).evictExpiredRecentBuilds now =
      s.evictExpiredRecentBuilds now := by
    unfold Reservations.evictExpiredRecentBuilds
    refine congrArg (fun f => { s with recentBuilds := f }) (funext fun txid => ?_)
    dsimp only
    rw [Option.filter_filter]
    exact congrArg (s.recentBuilds txid).filter (funext fun _ => Bool.and_self _)
  unfold Reservations.refuseDuplicateBuild
  rw [htwice]

theorem lapses_finishBuild (b : Built) : Writes (σ := sig) Lapses (finishBuild enc b) n s l := by
  rw [finishBuild_eq]
  refine fun t ht => ⟨lapses_sweeps (Sweeps.evictExpiredRecentBuilds (t := t) le_rfl) l, ?_⟩
  cases b.psbt.unsignedTxid enc.lib with
  | error e => trivial
  | ok txid =>
    have hrefused := lapses_refuseDuplicateBuild (s := s.evictExpiredRecentBuilds t) (l := l)
      (le_refl t) txid (some txid)
    rw [refuseDuplicateBuild_evicted] at hrefused
    simp only [Coro.ofExcept, Coro.bind]
    generalize s.refuseDuplicateBuild txid t = r at hrefused ⊢
    obtain ⟨answer, s'⟩ := r
    cases answer with
    | error e => trivial
    | ok a => exact ⟨hrefused, trivial⟩

theorem lapses_mintReceipt : Writes (σ := sig) Lapses mintReceipt n s l :=
  fun t _ => ⟨lapses_mintReservationTicket t, trivial⟩

theorem lapses_createTransaction (request : TxRequest) :
    Writes (σ := sig) Lapses (createTransaction enc request) n s l := by
  rw [createTransaction_eq]
  refine writes_bind (writes_tryCatch ?_ fun e t s l _ => ?_) fun built _ _ _ _ =>
    writes_bind lapses_mintReceipt fun _ _ _ _ _ => trivial
  · refine writes_bind ?_ fun built _ _ _ _ =>
      writes_bind (writes_quiet quiet_yieldTick _ _ _) fun _ _ _ _ _ => trivial
    refine writes_bind (writes_quiet (quiet_prepareBuild request) _ _ _) fun pre _ _ _ _ => ?_
    refine writes_bind (lapses_bindObfuscationKey _ _) fun bound _ _ _ _ => ?_
    exact writes_bind (lapses_buildFromBound request pre bound) fun built _ _ _ _ =>
      lapses_finishBuild built
  · rw [releaseAndRethrow_eq]
    exact writes_bind (writes_quiet quiet_yieldTick _ _ _) fun _ _ s l _ =>
      ⟨fun h hl => ⟨h.releaseCallReservations l.claims, hl⟩, trivial⟩

theorem lapses_createEnvelopeCancelTransaction (request : CancelRequest) :
    Writes (σ := sig) Lapses (createEnvelopeCancelTransaction enc request) n s l := by
  refine writes_bind (writes_ofExcept _ _ _ _) fun _ _ _ _ _ => ?_
  refine writes_bind (writes_tryCatch ?_ fun e t s l _ => ?_) fun result _ _ _ _ =>
    writes_bind lapses_mintReceipt fun _ _ _ _ _ => trivial
  · refine writes_bind ?_ fun result _ _ _ _ =>
      writes_bind (writes_quiet quiet_yieldTick _ _ _) fun _ _ _ _ _ => trivial
    refine writes_bind (writes_ofExcept _ _ _ _) fun record _ _ _ _ => ?_
    refine writes_bind ?_ fun _ _ _ _ _ => ?_
    · rw [claimCommitOutpoint_eq]
      exact fun t _ => ⟨lapses_claimCommit le_rfl record.outpoint, writes_ofExcept _ _ _ _⟩
    refine writes_bind (writes_quiet (quiet_cancelFeeRate _) _ _ _) fun rate _ _ _ _ => ?_
    refine writes_bind (writes_ofExcept _ _ _ _) fun script _ _ _ _ => ?_
    exact writes_bind (writes_ofExcept _ _ _ _) fun sweep _ _ _ _ => writes_ofExcept _ _ _ _
  · rw [releaseCancelAndRethrow_eq]
    exact writes_bind (writes_quiet quiet_yieldTick _ _ _) fun _ _ s l _ t _ =>
      ⟨fun h hl => ⟨h.releaseEnvelopeCancelClaims l.claims t, hl⟩, trivial⟩

/-- **Every write of every call keeps the terms.** -/
theorem lapses_program (command : Command) (n : ℕ) (s : Reservations) (l : Ledger) :
    Writes (σ := sig) Lapses (program enc command) n s l := by
  cases command with
  | createTransaction request =>
    exact writes_bind (lapses_createTransaction request) fun _ _ _ _ _ => trivial
  | createEnvelopeCancelTransaction request =>
    exact writes_bind (lapses_createEnvelopeCancelTransaction request) fun _ _ _ _ _ => trivial
  | releaseReservation id =>
    cases id with
    | none => trivial
    | some id => exact fun t _ => ⟨fun h hl => ⟨h.releaseReservation id t, hl⟩, trivial⟩

/-- **In every reachable world every entry lapses within the TTL.** -/
theorem encoderRun_shortLived (enc : Encoder) (clock : ℕ) (events : List (Event sig Command)) :
    ShortLived (encoderRun enc clock events).cfg.clock (encoderRun enc clock events).cfg.shared :=
  (kept_run (A := ShortLived) (B := ShortClaims) ShortLived.later ShortClaims.later lapses_program
    (fun _ _ h => by cases h) ⟨fun _ _ h => (by cases h), fun _ _ h => (by cases h),
      fun _ _ h => (by cases h), fun _ _ h => (by cases h)⟩ events).1

end Calls

end XChain
