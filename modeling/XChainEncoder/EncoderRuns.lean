import XChainEncoder.BuildSteps
import XChainEncoder.Lib.CallRuns

/-!
# Runs of one encoder

Every call keeps the invariant of the maps, so it holds in every reachable world.

* `ReturnedAt`, `ThrewAt`: what holds where a call returns or throws;
* `wp_createTransaction`, `wp_createEnvelopeCancelTransaction`, `wp_releaseReservation`: the three
  entry points meet them;
* `encoder_meets`, `encoderRun_inv`: **the maps agree with the calls in every reachable world**;
* `returned_step`: what a call that returns in a step leaves behind.
-/

namespace XChain

open PushScript Coroutine

variable {enc : Encoder}

/-! ## What holds where a call ends -/

/-- The one claim of a cancel, and its receipt: there is one when the stamp is still its own, and
it names the claim. -/
structure CancelAt (request : CancelRequest) (c : EncoderCall) (s : Reservations)
    (receipt : Option Receipt) (claim : Claim) : Prop where
  claims : c.ledger.claims = [claim]
  key : claim.key = ⟨lower request.commitTxid, request.commitVout⟩
  isSome : receipt.isSome = true ↔ s.outpointReservations claim.key = some claim.expiry
  names : ∀ r, receipt = some r → r.outpoints = [claim.key] ∧ r.expiresAt = claim.expiry

/-- What a call has claimed when it returns. -/
def EndedAt (enc : Encoder) (c : EncoderCall) (s : Reservations) : CallResult → Prop
  | .transaction r => ∃ request, c.command = .createTransaction request ∧
      BuiltAt enc request c r.psbt
  | .cancel r => ∃ request, c.command = .createEnvelopeCancelTransaction request ∧
      ∃ claim, CancelAt request c s r.reservation claim
  | .release _ => (∃ id, c.command = .releaseReservation id) ∧ c.ledger.claims = []

/-- A call returns: the maps agree with it, and its claims run for a full term from its start. -/
structure ReturnedAt (enc : Encoder) (p : ℕ) (a : CallResult) (y : EncoderSnap) : Prop where
  agrees : Agrees ((y.returned a).cfg p)
  keeps : encoderContract.keeps y
  fresh : ∀ claim ∈ y.call.ledger.claims, y.call.startedAt + reservationTtlMs ≤ claim.expiry
  ended : EndedAt enc y.call y.shared a
  ticketed : ∀ receipt, a.reservation = some receipt →
    ∃ ticket, y.shared.reservationTickets receipt.id = some ticket

/-- A call throws: the maps agree with it, and the others' tickets and builds are untouched. -/
structure ThrewAt (p : ℕ) (e : BuildError) (y : EncoderSnap) : Prop where
  agrees : Agrees ((y.threw e).cfg p)
  untouched : Untouched y.clock y.entered y.shared

section Calls

variable {p : ℕ} {c : EncoderCall} {x y : EncoderSnap}

theorem wp_yieldTick {Q : Unit → EncoderSnap → Prop} {E : BuildError → EncoderSnap → Prop}
    (hx : Running p c x) (hQ : ∀ y, x.clock ≤ y.clock → At p c y → Q () y) :
    wp encoderContract p yieldTick Q E x :=
  ⟨hx.agrees, hx.guarantees, fun _ _ _ _ _ ht hI => hQ _ ht (hx.later ht hI)⟩

theorem ThrewAt.of_giveBack {e : BuildError} {s : Reservations} (hx : At p c x)
    (hb : c.ledger.buildTxid = none) (hs : Reservations.SameBuilds x.shared s)
    (htable : s.table = x.shared.table.releaseAll x.clock (c.ledger.claims.map Claim.holding)) :
    ThrewAt p e (x.store s c.ledger) where
  agrees := by
    rw [agrees_cfg]
    have h := hx.inv.giveBack e x.clock hb hs htable
    rw [← hx.call] at h ⊢
    exact h
  untouched := hx.untouched.trans (.of_sameBuilds hs)

theorem ThrewAt.of_empty {e : BuildError} (hx : At p c x) (hl : c.ledger = Ledger.empty) :
    ThrewAt p e x := by
  have h := ThrewAt.of_giveBack (e := e) (s := x.shared) hx (by rw [hl]; rfl) (.refl _)
    (by rw [hl]; rfl)
  have hself : x.store x.shared c.ledger = x := by
    rw [← hx.call]
    rfl
  rwa [hself] at h

/-! ## Issuing a receipt -/

theorem mintReceipt_eq : mintReceipt = .now fun t => .get fun s l =>
    .put (s.mintReservationTicket l t).2 l (.ret (s.mintReservationTicket l t).1) := rfl

theorem mintReservationTicket_isSome (s : Reservations) (l : Ledger) (t : ℕ) :
    (s.mintReservationTicket l t).1.isSome = true ↔
      ∃ claim ∈ l.claims, s.outpointReservations claim.key = some claim.expiry := by
  unfold Reservations.mintReservationTicket
  dsimp only [Reservations.evictExpiredReservationTickets]
  have hlive : l.claims.filter (fun claim =>
        decide (s.outpointReservations claim.key = some claim.expiry)) = [] ↔
      ¬ ∃ claim ∈ l.claims, s.outpointReservations claim.key = some claim.expiry := by
    simp [List.filter_eq_nil_iff]
  by_cases h : l.claims.filter (fun claim =>
      decide (s.outpointReservations claim.key = some claim.expiry)) = []
  · rw [if_pos h]
    exact iff_of_false Bool.false_ne_true (hlive.mp h)
  · rw [if_neg h]
    exact iff_of_true rfl (not_not.mp (mt hlive.mpr h))

theorem mintReservationTicket_names {s : Reservations} {l : Ledger} {t : ℕ} {claim : Claim}
    {receipt : Receipt} (hl : l.claims = [claim])
    (h : (s.mintReservationTicket l t).1 = some receipt) :
    receipt.outpoints = [claim.key] ∧ receipt.expiresAt = claim.expiry := by
  unfold Reservations.mintReservationTicket at h
  dsimp only at h
  split_ifs at h with hlive
  cases h
  have hone : l.claims.filter (fun claim => decide ((s.evictExpiredReservationTickets
      t).outpointReservations claim.key = some claim.expiry)) = [claim] := by
    rw [hl, List.filter_cons] at hlive ⊢
    split_ifs at hlive ⊢ with hc
    · rfl
    · exact absurd rfl hlive
  simp only [hone, List.map_cons, List.map_nil, List.foldl_cons, List.foldl_nil, true_and]
  split_ifs <;> omega

theorem mintReservationTicket_ticket {s : Reservations} {l : Ledger} {t : ℕ} {receipt : Receipt}
    (h : (s.mintReservationTicket l t).1 = some receipt) :
    ∃ ticket, (s.mintReservationTicket l t).2.reservationTickets receipt.id = some ticket := by
  unfold Reservations.mintReservationTicket at h ⊢
  dsimp only at h ⊢
  split_ifs at h ⊢ with hlive
  cases h
  exact ⟨_, Function.update_self ..⟩

@[simp] theorem mintReservationTicket_stamps (s : Reservations) (l : Ledger) (t : ℕ) :
    (s.mintReservationTicket l t).2.outpointReservations = s.outpointReservations := by
  unfold Reservations.mintReservationTicket
  dsimp only [Reservations.evictExpiredReservationTickets]
  split_ifs <;> rfl

/-- **A call returns with the receipt it minted.** -/
theorem agrees_mint {a : CallResult} {t : ℕ} (hx : Running p c x) (ht : x.clock ≤ t)
    (ha : a.reservation = (x.shared.mintReservationTicket c.ledger t).1)
    (hrel : ∀ result, a ≠ .release result) :
    Agrees ((((x.tick t).store (x.shared.mintReservationTicket c.ledger t).2
      c.ledger).returned a).cfg p) := by
  rw [agrees_cfg]
  have hcmd : x.call.command = c.command := by rw [hx.call]
  show Inv t (x.shared.mintReservationTicket c.ledger t).2
    ((records x.others).set p ⟨x.call.command, c.ledger, .returned a t⟩)
  rw [hcmd]
  have hsw : Sweeps t x.shared (x.shared.evictExpiredReservationTickets t) :=
    .evictExpiredReservationTickets le_rfl
  have hinv := (hx.inv.pass ht).sweep hsw
  unfold Reservations.mintReservationTicket at ha ⊢
  dsimp only at ha ⊢
  split_ifs at ha ⊢ with hlive
  · refine hinv.finish rfl rfl running_threw ?_ running_hasReceipt ?_ running_releases ?_
    · rintro ⟨e, t', h⟩
      cases h
    · rintro receipt ⟨a', t', h, hr⟩
      cases h
      rw [ha] at hr
      cases hr
    · rintro id ⟨result, t', h, -⟩
      cases h
      exact hrel result rfl
  · exact hinv.mint List.filter_sublist ha

theorem keepsLive_mint {t : ℕ} {l : Ledger} (hx : Running p c x) (ht : x.clock ≤ t) :
    KeepsLive t x.entered (x.shared.mintReservationTicket l t).2 := by
  have hsw : Sweeps t x.shared (x.shared.evictExpiredReservationTickets t) :=
    .evictExpiredReservationTickets le_rfl
  refine (hx.keeps.pass ht).trans ((Untouched.of_sweeps hsw).toKeepsLive.trans ?_)
  unfold Reservations.mintReservationTicket
  dsimp only
  split_ifs
  · exact .refl t _
  · refine ⟨fun _ _ h _ => h, fun id ticket hid _ => ?_⟩
    -- Tickets in use have older ids.
    have hold := (hx.inv.pass ht).sweep hsw
    obtain ⟨⟨q, r, receipt, hr, hrc, rfl, -⟩, -⟩ := hold.tickets.issued id ticket hid
    have hlt := hold.tickets.receiptId q r receipt hr hrc
    exact (Function.update_of_ne hlt.ne ..).trans hid

/-! ## Building -/

theorem releaseAndRethrow_eq {α : Type} (e : BuildError) :
    (releaseAndRethrow e : Prog α) = yieldTick.bind fun _ => .get fun s l =>
      .put (s.releaseCallReservations l.claims) l (.throw e) := rfl

theorem wp_releaseAndRethrow {α : Type} {request : TxRequest} {e : BuildError}
    {Q : α → EncoderSnap → Prop} (hc : c.command = .createTransaction request)
    (h : FailedAt p c x) : wp encoderContract p (releaseAndRethrow e) Q (ThrewAt p) x := by
  obtain ⟨c', hx, hcont, hb⟩ := h
  rw [releaseAndRethrow_eq, wp_bind]
  refine wp_yieldTick hx.toRunning fun y _ hy => ?_
  have hown := (hy.inv.ledgers.shape p _ set_self).noOwner request (hcont.command.trans hc)
  have hthrew := ThrewAt.of_giveBack (e := e) hy hb
    (Reservations.sameBuilds_releaseCallReservations c'.ledger.claims)
    (Reservations.table_releaseCallReservations y.clock hown)
  show ThrewAt p e (y.store (y.shared.releaseCallReservations y.call.ledger.claims) y.call.ledger)
  rw [hy.call]
  exact hthrew

theorem createTransaction_eq (request : TxRequest) : createTransaction enc request =
    (Coro.tryCatch ((buildSteps enc request).bind fun built => yieldTick.bind fun _ => .ret built)
      releaseAndRethrow).bind fun built =>
        mintReceipt.bind fun receipt => .ret { built.result with reservation := receipt } := rfl

/-- **`createTransaction`.** -/
theorem wp_createTransaction {request : TxRequest} (hx : At p c x)
    (hc : c.command = .createTransaction request) (hl : c.ledger = Ledger.empty)
    (hseen : c.seen = []) :
    wp encoderContract p (createTransaction enc request)
      (fun r y => ReturnedAt enc p (.transaction r) y) (ThrewAt p) x := by
  rw [createTransaction_eq, wp_bind, wp_tryCatch, wp_bind]
  refine wp_mono ?_ ?_ x (wp_buildSteps hx hc hl hseen)
  · rintro b y ⟨c', hy, hcont, hbuilt⟩
    refine (wp_bind _).mpr (wp_yieldTick hy fun z _ hz => ?_)
    refine (wp_bind _).mpr ?_
    rw [mintReceipt_eq]
    intro t ht
    have hcall : z.call = c' := hz.call
    have hl' : (z.tick t).call.ledger = c'.ledger := by rw [← hcall]; rfl
    show ReturnedAt enc p (.transaction { b.result with reservation := _ })
      ((z.tick t).store (z.shared.mintReservationTicket (z.tick t).call.ledger t).2
        (z.tick t).call.ledger)
    rw [hl']
    refine ⟨agrees_mint hz.toRunning ht rfl (fun _ h => by cases h),
      fun _ => keepsLive_mint hz.toRunning ht, ?_, ⟨request, ?_, ?_⟩,
      fun receipt hreceipt => mintReservationTicket_ticket hreceipt⟩
    · show ∀ claim ∈ c'.ledger.claims, z.call.startedAt + reservationTtlMs ≤ claim.expiry
      rw [hcall]
      exact hz.fresh
    · exact (congrArg Call.command hcall).trans (hcont.command.trans hc)
    · refine hbuilt.mono ⟨?_, ?_, ?_⟩ rfl
      · exact (congrArg Call.command hcall : z.call.command = c'.command)
      · exact (congrArg Call.startedAt hcall : z.call.startedAt = c'.startedAt)
      · show c'.seen <+: z.call.seen ++ [(t, z.shared)]
        rw [hcall]
        exact List.prefix_append ..
  · rintro e y h
    exact wp_releaseAndRethrow hc h

/-! ## Releasing -/

theorem releaseReservation_eq (id : ℕ) : releaseReservation (some id) = .now fun t =>
    .get fun s l => .put (s.releaseReservation id t).2 l (.ret (s.releaseReservation id t).1) := rfl

theorem retireRecentBuild_recentBuilds {s : Reservations} {ticket : Ticket} {txid : Text} {e : ℕ}
    (h : (s.retireRecentBuild ticket).recentBuilds txid = some e) : s.recentBuilds txid = some e := by
  unfold Reservations.retireRecentBuild at h
  split at h
  · split_ifs at h
    · rename_i txid' e' _ _ _
      by_cases ht : txid = txid'
      · subst ht
        simp at h
      · simpa [Function.update_of_ne ht] using h
    · exact h
  · exact h

theorem sameMaps_retireRecentBuild (s : Reservations) (ticket : Ticket) :
    (s.retireRecentBuild ticket).table = s.table ∧
      (s.retireRecentBuild ticket).reservationTickets = s.reservationTickets ∧
      (s.retireRecentBuild ticket).nextId = s.nextId := by
  unfold Reservations.retireRecentBuild
  split
  · split_ifs <;> exact ⟨rfl, rfl, rfl⟩
  · exact ⟨rfl, rfl, rfl⟩

theorem releaseTicketClaims_result (now : ℕ) (claims : List Claim)
    (r : Reservations.ReleaseResult × Reservations) :
    (claims.foldl (Reservations.releaseTicketClaim now) r).1.found = r.1.found ∧
      (claims.foldl (Reservations.releaseTicketClaim now) r).1.reservationId =
        r.1.reservationId := by
  induction claims generalizing r with
  | nil => exact ⟨rfl, rfl⟩
  | cons c cs ih =>
    obtain ⟨h1, h2⟩ := ih (Reservations.releaseTicketClaim now r c)
    have hstep : (Reservations.releaseTicketClaim now r c).1.found = r.1.found ∧
        (Reservations.releaseTicketClaim now r c).1.reservationId = r.1.reservationId := by
      unfold Reservations.releaseTicketClaim
      dsimp only
      split <;> split_ifs <;> exact ⟨rfl, rfl⟩
    exact ⟨h1.trans hstep.1, h2.trans hstep.2⟩

/-- **`releaseReservation`.** -/
theorem wp_releaseReservation {id : Option ℕ} (hx : At p c x)
    (hc : c.command = .releaseReservation id) (hl : c.ledger = Ledger.empty) :
    wp encoderContract p (releaseReservation id)
      (fun r y => ReturnedAt enc p (.release r) y) (ThrewAt p) x := by
  cases id with
  | none => exact ThrewAt.of_empty hx hl
  | some id =>
    rw [releaseReservation_eq]
    intro t ht
    have hcall : (z : EncoderSnap) → z = x.tick t → z.call.ledger = c.ledger := by
      rintro _ rfl
      rw [← hx.call]
      rfl
    show ReturnedAt enc p (.release (x.shared.releaseReservation id t).1)
      ((x.tick t).store (x.shared.releaseReservation id t).2 (x.tick t).call.ledger)
    rw [hcall _ rfl]
    have hcl : c.ledger.claims = [] := by rw [hl]; rfl
    have hcmd : x.call.command = .releaseReservation (some id) := by rw [hx.call, hc]
    refine ⟨?_, fun h => absurd hcmd (h _), ?_, ⟨⟨some id, hcmd⟩, hcl⟩, by rintro _ ⟨⟩⟩
    · rw [agrees_cfg]
      show Inv t (x.shared.releaseReservation id t).2 ((records x.others).set p
        ⟨x.call.command, c.ledger, .returned (.release (x.shared.releaseReservation id t).1) t⟩)
      rw [hx.call]
      have hinv := (hx.inv.pass ht).sweep (Sweeps.sweep (s := x.shared) le_rfl)
      unfold Reservations.releaseReservation
      dsimp only
      cases hT : (x.shared.sweep t).reservationTickets id with
      | none =>
        refine hinv.finish rfl rfl running_threw ?_ running_hasReceipt ?_ running_releases ?_
        · rintro ⟨e, t', h⟩
          cases h
        · rintro receipt ⟨a', t', h, hr⟩
          cases h
          cases hr
        · rintro id' ⟨result, t', h, hf, -⟩
          cases h
          cases hf
      | some ticket =>
        dsimp only
        obtain ⟨htable, hsame⟩ := Reservations.table_releaseClaims t ticket.claims
          (⟨id, true, [], []⟩, { x.shared.sweep t with
            reservationTickets :=
              Function.update (x.shared.sweep t).reservationTickets id none })
        obtain ⟨hf, hi⟩ := releaseTicketClaims_result t ticket.claims
          (⟨id, true, [], []⟩, { x.shared.sweep t with
            reservationTickets :=
              Function.update (x.shared.sweep t).reservationTickets id none })
        generalize ticket.claims.foldl (Reservations.releaseTicketClaim t) _ = r at *
        obtain ⟨ht', htk, hn⟩ := sameMaps_retireRecentBuild r.2 ticket
        refine hinv.release hcl hT (ht'.trans htable) (htk.trans hsame.reservationTickets)
          (hn.trans hsame.nextId) (fun txid e he => ?_) hf hi
        have := retireRecentBuild_recentBuilds he
        rwa [hsame.recentBuilds] at this
    · show ∀ claim ∈ c.ledger.claims, _
      rw [hcl]
      rintro _ ⟨⟩

/-! ## Cancelling -/

theorem claimCommitOutpoint_eq (key : Outpoint) : claimCommitOutpoint key = .now fun t =>
    .get fun s l => .put (claimCommit key t l s).2.2 (claimCommit key t l s).2.1
      (Coro.ofExcept (σ := sig) (claimCommit key t l s).1) := rfl

/-- The outpoint is claimed as one more owner, or refused and nothing is claimed. -/
theorem inv_claimCommit {request : CancelRequest} {v : Records} {t : ℕ} {s : Reservations}
    (key : Outpoint) (h : Inv t s (v.set p (.running (.createEnvelopeCancelTransaction request)
      Ledger.empty))) :
    Inv t (claimCommit key t Ledger.empty s).2.2
        (v.set p (.running (.createEnvelopeCancelTransaction request)
          (claimCommit key t Ledger.empty s).2.1)) ∧
      Untouched t s (claimCommit key t Ledger.empty s).2.2 ∧
      (claimCommit key t Ledger.empty s).2.1.buildTxid = none ∧
      (∀ claim ∈ (claimCommit key t Ledger.empty s).2.1.claims,
        claim.expiry = t + reservationTtlMs) ∧
      ((claimCommit key t Ledger.empty s).1 = .ok () →
        ∃ claim, (claimCommit key t Ledger.empty s).2.1.claims = [claim] ∧ claim.key = key) := by
  unfold claimCommit
  dsimp only
  set s₁ := (s.evictExpiredReservations t).evictExpiredEnvelopeCancelClaims t with hs₁
  have hsw : Sweeps t s (s₁.isOutpointReserved key t).2 :=
    ((Sweeps.evictExpiredReservations le_rfl).trans
      (Sweeps.evictExpiredEnvelopeCancelClaims le_rfl)).trans (Sweeps.isOutpointReserved le_rfl key)
  have hinv := h.sweep hsw
  set s₂ := (s₁.isOutpointReserved key t).2 with hs₂
  by_cases hheld : (s₁.isOutpointReserved key t).1 = true ∧
      s₂.maxLiveCancelOwnerExpiry key t ≠ s₂.outpointReservations key
  · rw [if_pos hheld]
    exact ⟨hinv, .of_sweeps hsw, rfl, by rintro _ ⟨⟩, by rintro ⟨⟩⟩
  · rw [if_neg hheld]
    have hkey : s₂.table.Free key t ∨
        s₂.outpointReservations key = Lease.latest (s₂.envelopeCancelClaims key) t := by
      by_cases hr : (s₁.isOutpointReserved key t).1 = true
      · right
        have hmax := not_not.mp fun hne => hheld ⟨hr, hne⟩
        rw [← hmax, Reservations.maxLiveCancelOwnerExpiry_eq]
      · exact .inl (free_isOutpointReserved (Bool.eq_false_iff.mpr hr))
    refine ⟨hinv.claimOwner rfl hkey, (Untouched.of_sweeps hsw).trans
      ⟨⟨fun _ _ h _ => h, fun _ _ h _ => h⟩, fun _ _ h => h, fun _ _ h => h⟩, rfl, ?_,
      fun _ => ⟨_, rfl, rfl⟩⟩
    intro claim hin
    obtain rfl := List.mem_singleton.mp hin
    rfl

theorem quiet_cancelFeeRate (rate : Option ℚ) : Quiet (cancelFeeRate enc rate) := by
  refine quiet_bind quiet_resolveRelayFeeRate fun relay => ?_
  cases callerRate rate with
  | some rate => exact quiet_bind (fun _ => trivial) fun _ => trivial
  | none =>
    refine quiet_bind (quiet_bind (quiet_request (σ := sig) _) fun _ => ?_) fun _ => ?_ <;> trivial

theorem readCancelRecord_outpoint {request : CancelRequest} {record : CancelRecord}
    (h : readCancelRecord enc request = .ok record) :
    record.outpoint = ⟨lower request.commitTxid, request.commitVout⟩ := by
  simp only [readCancelRecord, bind_eq_ok] at h
  obtain ⟨_, -, _, -, value, -, h⟩ := h
  split at h
  · cases h
  · simp only [bind_eq_ok] at h
    obtain ⟨_, -, _, -, _, -, _, -, _, -, h⟩ := h
    cases h
    rfl

theorem wp_buildEnvelopeCancelTransaction {request : CancelRequest} (hx : At p c x)
    (hc : c.command = .createEnvelopeCancelTransaction request) (hl : c.ledger = Ledger.empty) :
    wp encoderContract p (buildEnvelopeCancelTransaction enc request)
      (fun _ y => ∃ c', At p c' y ∧ Continues c c' ∧ ∃ claim, c'.ledger.claims = [claim] ∧
        claim.key = ⟨lower request.commitTxid, request.commitVout⟩)
      (fun _ y => FailedAt p c y) x := by
  have hb : c.ledger.buildTxid = none := by rw [hl]; rfl
  refine (wp_bind _).mpr (wp_ofExcept (fun record hrec => ?_) fun _ _ => ⟨c, hx, .refl c, hb⟩)
  have hout := readCancelRecord_outpoint hrec
  refine (wp_bind _).mpr ?_
  rw [claimCommitOutpoint_eq]
  intro t ht
  have hlc : (x.tick t).call.ledger = Ledger.empty := by
    rw [← hl, ← hx.call]
    rfl
  have hinv := hx.inv.pass ht
  rw [hc, hl] at hinv
  obtain ⟨hI, hu, hbt, hexp, hone⟩ := inv_claimCommit record.outpoint hinv
  have hat := (hx.tick ht).store (s := (claimCommit record.outpoint t Ledger.empty x.shared).2.2)
    (l := (claimCommit record.outpoint t Ledger.empty x.shared).2.1)
    (by rw [show (_ : Command) = _ from hc]; exact hI) hu
    fun claim hin => hexp claim hin ▸ Nat.add_le_add_right (hx.started.trans ht) _
  have hcont : Continues c { c with
      seen := c.seen ++ [(t, x.shared)]
      ledger := (claimCommit record.outpoint t Ledger.empty x.shared).2.1 } :=
    ⟨rfl, rfl, List.prefix_append ..⟩
  show wp encoderContract p (Coro.ofExcept (σ := sig)
    (claimCommit record.outpoint t (x.tick t).call.ledger x.shared).1) _ _
    ((x.tick t).store (claimCommit record.outpoint t (x.tick t).call.ledger x.shared).2.2
      (claimCommit record.outpoint t (x.tick t).call.ledger x.shared).2.1)
  rw [hlc]
  refine wp_ofExcept (fun _ hok => ?_) fun _ _ => ⟨_, hat, hcont, hbt⟩
  obtain ⟨claim, hclaim, hkey⟩ := hone hok
  refine (wp_bind _).mpr (wp_quiet_at hat (quiet_cancelFeeRate _)
    (always_true (c := cancelFeeRate enc record.feeRatePerKb)) ?_
    fun _ y _ hy _ => ⟨_, hy, hcont, hbt⟩)
  rintro rate y - hy -
  refine (wp_bind _).mpr (wp_ofExcept (fun script _ => ?_) fun _ _ => ⟨_, hy, hcont, hbt⟩)
  refine (wp_bind _).mpr (wp_ofExcept (fun sweep _ => ?_) fun _ _ => ⟨_, hy, hcont, hbt⟩)
  exact wp_ofExcept (fun r _ => ⟨_, hy, hcont, claim, hclaim, hkey.trans hout⟩)
    fun _ _ => ⟨_, hy, hcont, hbt⟩

theorem releaseCancelAndRethrow_eq {α : Type} (e : BuildError) :
    (releaseCancelAndRethrow e : Prog α) = yieldTick.bind fun _ => .now fun t => .get fun s l =>
      .put (s.releaseEnvelopeCancelClaims l.claims t) l (.throw e) := rfl

theorem wp_releaseCancelAndRethrow {α : Type} {request : CancelRequest} {e : BuildError}
    {Q : α → EncoderSnap → Prop} (hc : c.command = .createEnvelopeCancelTransaction request)
    (h : FailedAt p c x) : wp encoderContract p (releaseCancelAndRethrow e) Q (ThrewAt p) x := by
  obtain ⟨c', hx, hcont, hb⟩ := h
  rw [releaseCancelAndRethrow_eq, wp_bind]
  refine wp_yieldTick hx.toRunning fun y _ hy => ?_
  intro t ht
  have hone := ((hy.inv.ledgers.shape p _ set_self).oneOwner request (hcont.command.trans hc)).1
  have hthrew := ThrewAt.of_giveBack (e := e) (hy.tick ht) hb
    (Reservations.sameBuilds_releaseEnvelopeCancelClaims _ t)
    (Reservations.table_releaseEnvelopeCancelClaims t hone)
  have hl : (y.tick t).call.ledger = c'.ledger := by
    rw [← hy.call]
    rfl
  show ThrewAt p e ((y.tick t).store (y.shared.releaseEnvelopeCancelClaims
    (y.tick t).call.ledger.claims t) (y.tick t).call.ledger)
  rw [hl]
  exact hthrew

theorem createEnvelopeCancelTransaction_eq (request : CancelRequest) :
    createEnvelopeCancelTransaction enc request =
      (Coro.ofExcept (σ := sig) (ensure request.knownKeysOnly
        (ParamTypeError "unknown create_envelope_cancel parameter"))).bind fun _ =>
      (Coro.tryCatch ((buildEnvelopeCancelTransaction enc request).bind fun result =>
        yieldTick.bind fun _ => .ret result) releaseCancelAndRethrow).bind fun result =>
        mintReceipt.bind fun receipt => .ret { result with reservation := receipt } := rfl

/-- **`createEnvelopeCancelTransaction`.** -/
theorem wp_createEnvelopeCancelTransaction {request : CancelRequest} (hx : At p c x)
    (hc : c.command = .createEnvelopeCancelTransaction request) (hl : c.ledger = Ledger.empty) :
    wp encoderContract p (createEnvelopeCancelTransaction enc request)
      (fun r y => ReturnedAt enc p (.cancel r) y) (ThrewAt p) x := by
  rw [createEnvelopeCancelTransaction_eq]
  refine (wp_bind _).mpr (wp_ofExcept (fun _ _ => ?_) fun _ _ => .of_empty hx hl)
  rw [wp_bind, wp_tryCatch, wp_bind]
  refine wp_mono ?_ ?_ x (wp_buildEnvelopeCancelTransaction hx hc hl)
  · rintro r y ⟨c', hy, hcont, claim, hclaim, hkey⟩
    refine (wp_bind _).mpr (wp_yieldTick hy.toRunning fun z _ hz => ?_)
    refine (wp_bind _).mpr ?_
    rw [mintReceipt_eq]
    intro t ht
    have hcall : z.call = c' := hz.call
    have hl' : (z.tick t).call.ledger = c'.ledger := by rw [← hcall]; rfl
    show ReturnedAt enc p (.cancel { r with reservation := _ })
      ((z.tick t).store (z.shared.mintReservationTicket (z.tick t).call.ledger t).2
        (z.tick t).call.ledger)
    rw [hl']
    refine ⟨agrees_mint hz.toRunning ht rfl (fun _ h => by cases h),
      fun _ => keepsLive_mint hz.toRunning ht, ?_, ⟨request, ?_, claim, hclaim, hkey, ?_,
      fun receipt hreceipt => mintReservationTicket_names hclaim hreceipt⟩,
      fun receipt hreceipt => mintReservationTicket_ticket hreceipt⟩
    · show ∀ claim ∈ c'.ledger.claims, z.call.startedAt + reservationTtlMs ≤ claim.expiry
      rw [hcall]
      exact hz.fresh
    · exact (congrArg Call.command hcall).trans (hcont.command.trans hc)
    · show (z.shared.mintReservationTicket c'.ledger t).1.isSome = true ↔
        (z.shared.mintReservationTicket c'.ledger t).2.outpointReservations claim.key = _
      rw [mintReservationTicket_isSome, mintReservationTicket_stamps, hclaim]
      simp
  · rintro e y h
    exact wp_releaseCancelAndRethrow hc h

/-! ## All calls -/

/-- **Every call keeps the maps in agreement with the calls.** -/
theorem encoder_meets (enc : Encoder) : Meets (program enc) Ledger.empty encoderContract
    (fun _ p a y => ReturnedAt enc p a y) (fun _ p e y => ThrewAt p e y) where
  pass g t ht hg := hg.pass ht
  start g p command hp hg := by
    have hat : At p (freshCall Ledger.empty command g.clock)
        (g.enter (freshCall Ledger.empty command g.clock)) :=
      { call := rfl
        running := rfl
        started := le_rfl
        fresh := by rintro _ ⟨⟩
        inv := Inv.start hg (by
          show (g.calls p).map _ = none
          rw [hp]
          rfl)
        keeps := .refl _ _
        untouched := .refl _ _ }
    cases command with
    | createTransaction request =>
      refine (wp_bind _).mpr ?_
      exact wp_createTransaction hat rfl rfl rfl
    | createEnvelopeCancelTransaction request =>
      refine (wp_bind _).mpr ?_
      exact wp_createEnvelopeCancelTransaction hat rfl rfl
    | releaseReservation id =>
      refine (wp_bind _).mpr ?_
      exact wp_releaseReservation hat rfl rfl
  returned _ _ _ _ h := ⟨h.agrees, h.keeps⟩
  threw _ _ _ _ h := ⟨h.agrees, fun _ => h.untouched.toKeepsLive⟩

/-- **In every reachable world the maps agree with the calls.** -/
theorem encoderRun_sound (enc : Encoder) (clock : ℕ) (events : List (Event sig Command)) :
    Sound encoderContract (fun _ p a y => ReturnedAt enc p a y) (fun _ p e y => ThrewAt p e y)
      (encoderRun enc clock events) :=
  invariant_run (encoder_meets enc) (Inv.init clock) events

theorem encoderRun_inv (enc : Encoder) (clock : ℕ) (events : List (Event sig Command)) :
    Inv (encoderRun enc clock events).cfg.clock (encoderRun enc clock events).cfg.shared
      (records (encoderRun enc clock events).cfg.calls) :=
  (encoderRun_sound enc clock events).inv

theorem encoderRun_append (enc : Encoder) (clock : ℕ) (events : List (Event sig Command))
    (ev : Event sig Command) : encoderRun enc clock (events ++ [ev]) =
      step (program enc) Ledger.empty (encoderRun enc clock events) ev := by
  simp [encoderRun, run]

/-- A call that returned in a step met its postcondition there. -/
theorem returned_step {w : EncoderWorld} {ev : Event sig Command} {p : ℕ} {call : EncoderCall}
    {a : CallResult} {t : ℕ} (hw : Sound encoderContract (fun _ p a y => ReturnedAt enc p a y)
      (fun _ p e y => ThrewAt p e y) w) (hev : ev.runs w = some p)
    (hcall : (step (program enc) Ledger.empty w ev).cfg.calls p = some call)
    (hs : call.stage = .returned a t) : ∃ y : EncoderSnap, (y.returned a).call = call ∧
      (step (program enc) Ledger.empty w ev).cfg = (y.returned a).cfg p ∧ ReturnedAt enc p a y := by
  obtain ⟨y, -, -, -, -, hend⟩ := step_ended (encoder_meets enc) hw (hw.running_of_runs hev) hcall
    (by rw [hs]; rintro ⟨⟩)
  rcases hend with ⟨a', hcfg, hret⟩ | ⟨e, hcfg, -⟩
  · have hself : (y.returned a').call = call := by
      rw [hcfg, Snap.cfg_self] at hcall
      exact Option.some.inj hcall
    obtain rfl : a' = a := by
      have hstage : (y.returned a').call.stage = _ := hself ▸ hs
      cases hstage
      rfl
    exact ⟨y, hself, hcfg, hret⟩
  · -- A call that threw did not return.
    rw [hcfg, Snap.cfg_self] at hcall
    cases hcall
    cases hs

end Calls

end XChain
