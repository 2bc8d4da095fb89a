import XChainEncoder.FailedBuilds

/-!
# Overlapping cancels

When the claims of overlapping cancels of one commit outpoint can all be given back.

* `CancelsReleasable`: a returned cancel whose token is live has a ticket that names it, and the
  last owner out clears the outpoint;
* `Unsuperseded`: a cancel that returns still has the latest token of its outpoint;
* `receipted_step`: a step that is unsuperseded keeps every live cancel with a receipt;
* **`encoderRun_cancelsReleasable`**: runs whose steps are all unsuperseded release completely;
  `supersededCancel_stuck`: one superseded cancel is enough for an outpoint that stays reserved.
-/

namespace XChain

open Coroutine

/-- The call returned a cancel transaction. -/
def returnedCancel (call : EncoderCall) : Bool :=
  match call.stage with
  | .returned (.cancel _) _ => true
  | _ => false

/-- When a cancel returns with a live claim, no owner of its outpoint has a later expiry. -/
def Unsuperseded (w : EncoderWorld) (ev : Event sig Command) (w' : EncoderWorld) : Prop :=
  ∀ p ∈ ev.runs w, ∀ call ∈ w'.cfg.calls p, returnedCancel call = true →
    ∀ claim ∈ call.ledger.claims, w'.cfg.clock < claim.expiry →
      ∀ owner ∈ w.cfg.shared.envelopeCancelClaims claim.key, owner.2 ≤ claim.expiry

instance (w : EncoderWorld) (ev : Event sig Command) (w' : EncoderWorld) :
    Decidable (Unsuperseded w ev w') :=
  inferInstanceAs (Decidable (∀ p ∈ ev.runs w, ∀ call ∈ w'.cfg.calls p, _))

/-- Every cancel that claimed the outpoint has thrown, or has returned and its ticket was released
or has lapsed. -/
def AllGivenBack (g : EncoderCfg) (key : Outpoint) : Prop :=
  ∀ p r claim owner, records g.calls p = some r → claim ∈ r.ledger.claims → claim.key = key →
    claim.cancelOwnerId = some owner → r.Threw ∨ ∃ a t, r.stage = .returned a t ∧
      ∀ receipt, a.reservation = some receipt →
        Released (records g.calls) receipt.id ∨ receipt.expiresAt ≤ g.clock

/-- Cancels can be given back completely. -/
structure CancelsReleasable (g : EncoderCfg) : Prop where
  /-- A returned cancel whose owner token is live has a ticket that names the token. -/
  ticket : ∀ p r result t claim owner, records g.calls p = some r →
    r.stage = .returned (.cancel result) t → claim ∈ r.ledger.claims →
    claim.cancelOwnerId = some owner → LiveOwner g claim.key (owner, claim.expiry) →
    ∃ receipt ticket, result.reservation = some receipt ∧
      g.shared.reservationTickets receipt.id = some ticket ∧ claim ∈ ticket.claims
  /-- The last owner out clears the outpoint: what still reserves it is a claim of a build. -/
  lastOut : ∀ key, AllGivenBack g key → (∀ owner, ¬ LiveOwner g key owner) ∧
    ∀ e, g.shared.outpointReservations key = some e → g.clock < e →
      ∃ q claim, Holds g q claim ∧ claim.key = key ∧ claim.expiry = e ∧ claim.cancelOwnerId = none

/-! ## Receipts of live cancels -/

/-- Every returned cancel whose claim has not lapsed has a receipt that names it. -/
def Receipted (g : EncoderCfg) : Prop :=
  ∀ p r a t claim owner, records g.calls p = some r → r.stage = .returned a t →
    claim ∈ r.ledger.claims → claim.cancelOwnerId = some owner → g.clock < claim.expiry →
    ∃ receipt, a.reservation = some receipt ∧ receipt.outpoints = [claim.key] ∧
      receipt.expiresAt = claim.expiry

section Step

variable {enc : Encoder} {w : EncoderWorld} {ev : Event sig Command} {p q : ℕ} {claim : Claim}

/-- The worlds a run reaches. -/
abbrev EncoderSound (enc : Encoder) (w : EncoderWorld) : Prop :=
  Sound encoderContract (fun _ p a y => ReturnedAt enc p a y) (fun _ p e y => ThrewAt p e y) w

theorem released_step (hw : EncoderSound enc w) {id : ℕ}
    (h : Released (records w.cfg.calls) id) :
    Released (records (step (program enc) Ledger.empty w ev).cfg.calls) id := by
  obtain ⟨p, r, hr, hrel⟩ := h
  have hne : ev.runs w ≠ some p := by
    intro he
    obtain ⟨call, hcall, rfl⟩ := Option.map_eq_some_iff.mp hr
    obtain ⟨result, t, hs, -⟩ := hrel
    cases (hw.running_of_runs he call hcall).symm.trans hs
  exact ⟨p, r, (records_step_of_ne hne).trans hr, hrel⟩

theorem holds_before (hw : EncoderSound enc w) (hev : ev.runs w ≠ some q)
    (h : Holds (step (program enc) Ledger.empty w ev).cfg q claim) : Holds w.cfg q claim := by
  obtain ⟨r, hr, hmem, hback⟩ := h
  refine ⟨r, (records_step_of_ne hev).symm.trans hr, hmem, fun hback' => hback ?_⟩
  rcases hback' with hthrew | ⟨receipt, hrc, hkey, hrel⟩
  · exact .inl hthrew
  · exact .inr ⟨receipt, hrc, hkey, released_step hw hrel⟩

theorem LiveOwner.held {g : EncoderCfg} (hg : Agrees g) {key : Outpoint} {owner : ℕ × ℕ}
    (h : LiveOwner g key owner) : ∃ q claim, Holds g q claim ∧ claim.key = key ∧
      claim.expiry = owner.2 ∧ claim.cancelOwnerId = some owner.1 := by
  obtain ⟨i, hi⟩ := hg.consistent.backedOwner key owner h.1 h.2
  obtain ⟨claim, hholds, -, hc⟩ := holds_of_lease hg hi
  exact ⟨i.1, claim, hholds, congrArg Lease.Holding.key hc, congrArg Lease.Holding.expiry hc,
    congrArg Lease.Holding.owner hc⟩

theorem ReturnedAt.cancel {a : CallResult} {y : EncoderSnap} (h : ReturnedAt enc p a y) {o : ℕ}
    (hmem : claim ∈ y.call.ledger.claims) (ho : claim.cancelOwnerId = some o) :
    ∃ result request, a = .cancel result ∧
      y.call.command = .createEnvelopeCancelTransaction request ∧
      CancelAt request y.call y.shared result.reservation claim := by
  have hshape := (agrees_cfg.mp h.agrees).ledgers.shape p _ set_self
  have hend := h.ended
  cases a with
  | transaction result =>
    obtain ⟨request, hcmd, -⟩ := hend
    cases (hshape.noOwner request hcmd claim hmem).symm.trans ho
  | cancel result =>
    obtain ⟨request, hcmd, claim', hone⟩ := hend
    obtain rfl : claim = claim' := List.mem_singleton.mp (hone.claims ▸ hmem)
    exact ⟨result, request, rfl, hcmd, hone⟩
  | release result =>
    rw [hend.2] at hmem
    cases hmem

/-- **A cancel that returns with the latest token has a receipt.** -/
theorem receipted_return (hw : EncoderSound enc w) (hev : ev.runs w = some p)
    (hlatest : Unsuperseded w ev (step (program enc) Ledger.empty w ev)) {r : Record}
    {a : CallResult} {t o : ℕ}
    (hr : records (step (program enc) Ledger.empty w ev).cfg.calls p = some r)
    (hs : r.stage = .returned a t) (hmem : claim ∈ r.ledger.claims)
    (ho : claim.cancelOwnerId = some o)
    (hlive : (step (program enc) Ledger.empty w ev).cfg.clock < claim.expiry) :
    ∃ receipt, a.reservation = some receipt ∧ receipt.outpoints = [claim.key] ∧
      receipt.expiresAt = claim.expiry := by
  have hw' := sound_step (encoder_meets enc) hw ev
  have hg : Agrees (step (program enc) Ledger.empty w ev).cfg := hw'.inv
  have hclock := step_clock (program enc) Ledger.empty w ev
  obtain ⟨call, hcall, rfl⟩ := Option.map_eq_some_iff.mp hr
  obtain ⟨y, hcall', hcfg, hret⟩ := returned_step hw hev hcall hs
  generalize hnext : step (program enc) Ledger.empty w ev = w' at *
  have hledger : y.call.ledger = call.ledger := by rw [← hcall']; rfl
  obtain ⟨result, request, rfl, -, hone⟩ := hret.cancel (hledger ▸ hmem) ho
  cases hres : result.reservation with
  | some receipt => exact ⟨receipt, hres, hone.names receipt hres⟩
  | none =>
    -- Without a receipt the claim is held, so its token is live and the latest.
    exfalso
    have hholds : Holds w'.cfg p claim := by
      refine ⟨_, hr, hmem, Record.not_gaveBack ?_ ?_⟩
      · rintro ⟨e, t', he⟩
        cases hs.symm.trans he
      · rintro receipt ⟨a', t', ha, hrc⟩
        cases hs.symm.trans ha
        cases hres.symm.trans hrc
    have howner := HoldsLive.owner hg ⟨hholds, hlive⟩ ho
    obtain ⟨top, htop, hstamp, hmax⟩ := topped_of_agrees hg howner
    have hle : top.2 ≤ claim.expiry := by
      obtain ⟨q, other, hother, hkey, hexp, hown⟩ := htop.held hg
      by_cases hq : q = p
      · subst hq
        obtain ⟨r', hr', hmem', -⟩ := hother
        cases hr.symm.trans hr'
        obtain rfl : other = claim := List.mem_singleton.mp (hone.claims ▸ hledger ▸ hmem')
        exact hexp.ge
      · have hbefore : Holds w.cfg q other := by
          have hne : ev.runs w ≠ some q := by
            rw [hev]
            exact fun he => hq (Option.some.inj he).symm
          exact holds_before hw hne (hnext ▸ hother)
        have hlist := HoldsLive.owner hw.inv ⟨hbefore, by rw [hexp]; exact hclock.trans_lt htop.2⟩
          hown
        rw [hkey, hexp] at hlist
        exact hlatest p hev call hcall (by simp [returnedCancel, show call.stage = _ from hs]) claim
          hmem hlive top hlist.1
    have hsome := hone.isSome.mpr (by
      have hshared : w'.cfg.shared = y.shared := by rw [hcfg]; rfl
      rw [← hshared, hstamp, hle.antisymm (hmax _ howner)])
    rw [hres] at hsome
    cases hsome

/-- **An unsuperseded step keeps every live cancel with a receipt.** -/
theorem receipted_step (hw : EncoderSound enc w) (h : Receipted w.cfg)
    (hlatest : Unsuperseded w ev (step (program enc) Ledger.empty w ev)) :
    Receipted (step (program enc) Ledger.empty w ev).cfg := by
  intro p r a t claim owner hr hs hmem ho hlive
  by_cases hev : ev.runs w = some p
  · exact receipted_return hw hev hlatest hr hs hmem ho hlive
  · rw [records_step_of_ne hev] at hr
    exact h p r a t claim owner hr hs hmem ho ((step_clock _ _ w ev).trans_lt hlive)

end Step

section Releasable

variable {g : EncoderCfg} {p : ℕ} {r : Record} {claim : Claim}

theorem LiveOwner.holds (hg : Agrees g) (hr : records g.calls p = some r)
    (hmem : claim ∈ r.ledger.claims) {o : ℕ} (ho : claim.cancelOwnerId = some o)
    (h : LiveOwner g claim.key (o, claim.expiry)) : Holds g p claim := by
  obtain ⟨q, claim', hholds, hkey, -, ho'⟩ := h.held hg
  obtain ⟨r', hr', hmem', hback⟩ := hholds
  obtain rfl := hg.ledgers.ownerOnce q p r' r claim' claim o hr' hr hmem' hmem ho' ho
  cases hr.symm.trans hr'
  obtain rfl := List.inj_on_of_nodup_map (hg.ledgers.shape q r hr).nodup hmem' hmem hkey
  exact ⟨r, hr, hmem, hback⟩

/-- The receipt of a held live claim has its ticket, and the ticket names the claim. -/
theorem ticket_of_receipt (hg : Agrees g) (hr : records g.calls p = some r) {receipt : Receipt}
    (hrc : r.HasReceipt receipt) (hmem : claim ∈ r.ledger.claims)
    (hkeys : receipt.outpoints = [claim.key]) (hnot : ¬ Released (records g.calls) receipt.id)
    (hlive : g.clock < receipt.expiresAt) :
    ∃ ticket, g.shared.reservationTickets receipt.id = some ticket ∧ claim ∈ ticket.claims := by
  obtain ⟨ticket, hT⟩ := hg.tickets.kept p r receipt hr hrc hnot hlive
  obtain ⟨⟨q, x, receipt', hx, hrc', hid, hsub, hnames, -⟩, -⟩ := hg.tickets.issued _ _ hT
  obtain rfl := hg.tickets.receiptOnce q p x r receipt' receipt hx hr hrc' hrc hid
  cases hr.symm.trans hx
  obtain rfl := r.hasReceipt_unique hrc' hrc
  have hin : claim.key ∈ ticket.claims.map Claim.key := by
    rw [← hnames, hkeys]
    exact List.mem_singleton_self _
  obtain ⟨c, hc, hck⟩ := List.mem_map.mp hin
  obtain rfl := List.inj_on_of_nodup_map (hg.ledgers.shape q r hr).nodup (hsub.subset hc) hmem hck
  exact ⟨ticket, hT, hc⟩

/-- **Where every live cancel has a receipt, cancels can be given back completely.** -/
theorem cancelsReleasable_of_receipted (hg : Agrees g) (h : Receipted g) :
    CancelsReleasable g := by
  have hlast : ∀ key, AllGivenBack g key → ∀ owner, ¬ LiveOwner g key owner := by
    intro key hall owner hlive
    obtain ⟨q, claim, hholds, rfl, hexp, ho⟩ := hlive.held hg
    obtain ⟨r, hr, hmem, hback⟩ := hholds
    rcases hall q r claim owner.1 hr hmem rfl ho with hthrew | ⟨a, t, hs, hgiven⟩
    · exact hback (.inl hthrew)
    · obtain ⟨receipt, hres, hkeys, hexpires⟩ :=
        h q r a t claim owner.1 hr hs hmem ho (hexp ▸ hlive.2)
      rcases hgiven receipt hres with hrel | hlapsed
      · exact hback (.inr ⟨receipt, ⟨a, t, hs, hres⟩, by simp [hkeys], hrel⟩)
      · have := hlive.2
        omega
  refine ⟨fun p r result t claim o hr hs hmem ho hlive => ?_, fun key hall => ⟨hlast key hall, ?_⟩⟩
  · obtain ⟨r', hr', -, hback⟩ := hlive.holds hg hr hmem ho
    cases hr.symm.trans hr'
    obtain ⟨receipt, hres, hkeys, hexpires⟩ := h p r _ t claim o hr hs hmem ho hlive.2
    have hrc : r.HasReceipt receipt := ⟨_, t, hs, hres⟩
    obtain ⟨ticket, hT, hin⟩ := ticket_of_receipt hg hr hrc hmem hkeys
      (fun hrel => hback (.inr ⟨receipt, hrc, by simp [hkeys], hrel⟩)) (hexpires ▸ hlive.2)
    exact ⟨receipt, ticket, hres, hT, hin⟩
  · intro e he hl
    obtain ⟨i, c, hi, rfl, rfl⟩ := hg.consistent.backedStamp key e he hl
    obtain ⟨claim, hholds, -, rfl⟩ := holds_of_lease hg hi
    refine ⟨i.1, claim, hholds, rfl, rfl, ?_⟩
    by_contra hne
    obtain ⟨o, ho⟩ := Option.ne_none_iff_exists'.mp hne
    exact hlast _ hall _ (HoldsLive.owner hg ⟨hholds, hl⟩ ho)

end Releasable

/-- **Runs in which no cancel returns superseded release completely.** -/
theorem encoderRun_cancelsReleasable (enc : Encoder) (clock : ℕ) (events : List (Event sig Command))
    (h : EachStep (program enc) Ledger.empty Unsuperseded (World.init clock Reservations.empty)
      events) : CancelsReleasable (encoderRun enc clock events).cfg := by
  refine cancelsReleasable_of_receipted (encoderRun_inv enc clock events) ?_
  refine run_of_eachStep (encoder_meets enc) (I := fun w => Receipted w.cfg)
    (fun w ev hw hI hP => receipted_step hw hI hP) events _ (encoderRun_sound enc clock []) ?_ h
  rintro p r a t claim owner ⟨⟩

/-! ## Two runs -/

/-- A cancel of the commit output `0` of `sampleTxid`. -/
def sampleCancel : CancelRequest where
  knownKeysOnly := true
  commitTxid := sampleTxid
  commitVout := 0
  commitValue := 100000
  internalPubkey := "0279be667ef9dcbbac55a06295ce870b07029bfcdb2dce28d959f2815b16f81798".toList
  tapleafHash := sampleTxid
  destination := sampleAddress ⟨.btc, .mainnet⟩
  feePerKb := none
  replacebyfee := false

/-- A node that relays and prices at one base unit per byte. -/
def sampleReply : (q : Rpc) → Except {e : BuildError // sig.Rejects e} (Rpc.Reply q)
  | .networkInfo => .ok (some (1 / 100000 : ℚ))
  | .feePerKilobyte => .ok (show ℚ from 1 / 100000)
  | .blockCount => .ok none
  | .utxosFromAddress _ => .ok ⟨[], none⟩
  | .transactionHex _ => .ok []
  | .unconfirmedAncestorPackage _ => .ok none
  | .tick => .ok ()

/-- The call `p` gets its next reply at once. -/
def answer (p : ℕ) : Event sig Command := .resume p sampleReply []

/-- The outpoint `sampleCancel` spends. -/
def sampleCommit : Outpoint := ⟨sampleTxid, 0⟩

/-- Three cancels start in one millisecond. The last one is refused by its node, the other two return
in turn, and both tickets are released. -/
def joinedCancels : List (Event sig Command) :=
  [.start (.createEnvelopeCancelTransaction sampleCancel) [],
    .start (.createEnvelopeCancelTransaction sampleCancel) [],
    .start (.createEnvelopeCancelTransaction sampleCancel) [],
    answer 0, answer 1, .resume 2 (fun _ => .error ⟨PlainError "", by decide⟩) [], answer 2,
    answer 0, answer 1, answer 1, answer 0, .pass 10,
    .start (.releaseReservation (some 3)) [], .start (.releaseReservation (some 4)) []]

/-- The outpoint has three owners while they wait, and none in the end. -/
theorem encoderRun_cancelsReleasable_joined :
    CancelsReleasable (encoderRun (sampleEncoder ⟨.btc, .mainnet⟩) 0 joinedCancels).cfg ∧
      ((encoderRun (sampleEncoder ⟨.btc, .mainnet⟩) 0
        (joinedCancels.take 3)).cfg.shared.envelopeCancelClaims sampleCommit).length = 3 ∧
      ((encoderRun (sampleEncoder ⟨.btc, .mainnet⟩) 0 joinedCancels).cfg.calls 0).any
        returnedCancel = true ∧
      ((encoderRun (sampleEncoder ⟨.btc, .mainnet⟩) 0 joinedCancels).cfg.calls 1).any
        returnedCancel = true ∧
      (encoderRun (sampleEncoder ⟨.btc, .mainnet⟩) 0 joinedCancels).cfg.shared.outpointReservations
        sampleCommit = none :=
  ⟨encoderRun_cancelsReleasable (sampleEncoder ⟨.btc, .mainnet⟩) 0 joinedCancels
    (by decide +kernel), by decide +kernel⟩

/-- A second cancel starts while the first one waits for the fee rate; both return, and the second
one's ticket is released. -/
def overlappingCancels : List (Event sig Command) :=
  [.start (.createEnvelopeCancelTransaction sampleCancel) [], .pass 1,
    .start (.createEnvelopeCancelTransaction sampleCancel) [], answer 0, answer 0, answer 0,
    answer 1, answer 1, answer 1, .start (.releaseReservation (some 2)) []]

/-- The world after `overlappingCancels`. -/
def overlapped : EncoderWorld := encoderRun (sampleEncoder ⟨.btc, .mainnet⟩) 0 overlappingCancels

/-- The receipt of a call that returned. -/
def receiptOf (call : EncoderCall) : Option (Option Receipt) :=
  match call.stage with
  | .returned a _ => some a.reservation
  | _ => none

theorem receiptOf_eq_some {call : EncoderCall} {receipt : Option Receipt}
    (h : receiptOf call = some receipt) :
    ∃ a t, call.stage = .returned a t ∧ a.reservation = receipt := by
  unfold receiptOf at h
  split at h
  · rename_i a t hs
    exact ⟨a, t, hs, Option.some.inj h⟩
  · cases h

/-- Whether a call released the ticket `id`. -/
def foundTicket (call : EncoderCall) (id : ℕ) : Bool :=
  match call.stage with
  | .returned (.release result) _ => result.found && result.reservationId = id
  | _ => false

theorem releases_of_foundTicket {call : EncoderCall} {id : ℕ} (h : foundTicket call id = true) :
    (Record.mk call.command call.ledger call.stage).Releases id := by
  unfold foundTicket at h
  split at h
  · rename_i result t hs
    simp only [Bool.and_eq_true, decide_eq_true_eq] at h
    exact ⟨result, t, hs, h.1, h.2⟩
  · cases h

theorem overlapped_ended :
    (∃ call ∈ overlapped.cfg.calls 0, receiptOf call = some none) ∧
    (∃ call ∈ overlapped.cfg.calls 1,
      receiptOf call = some (some ⟨2, [sampleCommit], 300001⟩)) ∧
    (∃ call ∈ overlapped.cfg.calls 2, foundTicket call 2 = true ∧ call.ledger.claims = []) ∧
    overlapped.next = 3 ∧
    (0, 300000) ∈ overlapped.cfg.shared.envelopeCancelClaims sampleCommit ∧
    overlapped.cfg.clock < 300000 ∧
    overlapped.cfg.shared.outpointReservations sampleCommit = some 300000 := by
  decide +kernel

/-- **One superseded cancel is enough**: both cancels have returned and every ticket was released,
but the first one's token has no ticket and holds the outpoint until it lapses. -/
theorem supersededCancel_stuck : AllGivenBack overlapped.cfg sampleCommit ∧
    LiveOwner overlapped.cfg sampleCommit (0, 300000) ∧
    overlapped.cfg.shared.outpointReservations sampleCommit = some 300000 ∧
    ¬ CancelsReleasable overlapped.cfg := by
  obtain ⟨⟨c0, hc0, h0⟩, ⟨c1, hc1, h1⟩, ⟨c2, hc2, h2, hnone⟩, hnext, hin, hclock, hstamp⟩ :=
    overlapped_ended
  have hreleased : Released (records overlapped.cfg.calls) 2 :=
    ⟨2, _, by simp [records, Option.mem_def.mp hc2], releases_of_foundTicket h2⟩
  have hlive : LiveOwner overlapped.cfg sampleCommit (0, 300000) := ⟨hin, hclock⟩
  have hback : AllGivenBack overlapped.cfg sampleCommit := by
    intro p r claim owner hr hmem hkey ho
    obtain ⟨call, hcall, rfl⟩ := Option.map_eq_some_iff.mp hr
    have hp : p < 3 := by
      by_contra hge
      have := (encoderRun_sound (sampleEncoder ⟨.btc, .mainnet⟩) 0 overlappingCancels).fresh p
        (hnext.trans_le (not_lt.mp hge))
      cases hcall.symm.trans this
    interval_cases p
    · cases hcall.symm.trans hc0
      obtain ⟨a, t, hs, ha⟩ := receiptOf_eq_some h0
      exact .inr ⟨a, t, hs, fun receipt hr => by cases ha.symm.trans hr⟩
    · cases hcall.symm.trans hc1
      obtain ⟨a, t, hs, ha⟩ := receiptOf_eq_some h1
      refine .inr ⟨a, t, hs, fun receipt hr => .inl ?_⟩
      cases ha.symm.trans hr
      exact hreleased
    · cases hcall.symm.trans hc2
      rw [show c2.ledger.claims = [] from hnone] at hmem
      cases hmem
  exact ⟨hback, hlive, hstamp, fun h => (h.lastOut _ hback).1 _ hlive⟩

end XChain
