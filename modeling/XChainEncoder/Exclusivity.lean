import XChainEncoder.EncoderRuns

/-!
# Reservation exclusivity

What the invariant of the maps says about claims that are still held.

* `Holds`, `HoldsLive`: a call made a claim, has not thrown and its ticket was not released; and the
  claim has not lapsed;
* `Standing`: the claim is in the maps;
* `Exclusive`, `exclusive_of_agrees`: maps that agree with the calls are exclusive;
* `standing_step`: what the step of one call leaves of the claims of another;
* **`encoderRun_exclusive`**: reservations are exclusive in every reachable world.
-/

namespace XChain

open Coroutine

/-- One configuration of the encoder. -/
abbrev EncoderCfg : Type := Cfg sig Command CallResult

/-- The call `p` made the claim, has not thrown, and no release found its ticket for it. -/
def Holds (g : EncoderCfg) (p : ℕ) (claim : Claim) : Prop :=
  ∃ r, records g.calls p = some r ∧ claim ∈ r.ledger.claims ∧
    ¬ r.GaveBack (Released (records g.calls)) claim.key

/-- The call `p` holds the claim, and it has not lapsed. -/
def HoldsLive (g : EncoderCfg) (p : ℕ) (claim : Claim) : Prop :=
  Holds g p claim ∧ g.clock < claim.expiry

/-- An owner token of a cancel that has not lapsed. -/
def LiveOwner (g : EncoderCfg) (key : Outpoint) (owner : ℕ × ℕ) : Prop :=
  owner ∈ g.shared.envelopeCancelClaims key ∧ g.clock < owner.2

/-- The claim is in the maps: as the reservation itself, or as an owner token. -/
def Standing (s : Reservations) (claim : Claim) : Prop :=
  match claim.cancelOwnerId with
  | none => s.outpointReservations claim.key = some claim.expiry
  | some owner => (owner, claim.expiry) ∈ s.envelopeCancelClaims claim.key

/-- The reservations of a configuration are exclusive. -/
structure Exclusive (g : EncoderCfg) : Prop where
  /-- An outpoint has at most one live claim of a build. -/
  once : ∀ p q claim claim', HoldsLive g p claim → HoldsLive g q claim' →
    claim.cancelOwnerId = none → claim'.cancelOwnerId = none → claim.key = claim'.key →
    p = q ∧ claim = claim'
  /-- A live claim of a build is alone on its outpoint. -/
  apart : ∀ p claim owner, HoldsLive g p claim → claim.cancelOwnerId = none →
    ¬ LiveOwner g claim.key owner
  /-- An outpoint with a live owner is reserved until its last live owner lapses. -/
  topped : ∀ key owner, LiveOwner g key owner → ∃ top, LiveOwner g key top ∧
    g.shared.outpointReservations key = some top.2 ∧
    ∀ other, LiveOwner g key other → other.2 ≤ top.2
  /-- A live claim that is held is in the maps. -/
  standing : ∀ p claim, HoldsLive g p claim → Standing g.shared claim
  /-- No two calls have the same ticket. -/
  ticketOnce : ∀ p q r r' receipt receipt', records g.calls p = some r →
    records g.calls q = some r' → r.HasReceipt receipt → r'.HasReceipt receipt' →
    receipt.id = receipt'.id → p = q

section Agrees

variable {g : EncoderCfg} {p : ℕ} {claim : Claim}

theorem Holds.lease (hg : Agrees g) (h : Holds g p claim) :
    leases (records g.calls) (p, claim.key) = some claim.holding := by
  obtain ⟨r, hr, hmem, hback⟩ := h
  rw [leases, hr, Option.bind_some,
    Record.held_eq_some (hg.ledgers.shape p r hr).nodup]
  exact ⟨hback, claim, hmem, rfl, rfl⟩

theorem holds_of_lease (hg : Agrees g) {i : ℕ × Outpoint} {c : Lease.Holding Outpoint}
    (h : leases (records g.calls) i = some c) :
    ∃ claim, Holds g i.1 claim ∧ claim.key = i.2 ∧ claim.holding = c := by
  obtain ⟨r, hr, hheld⟩ := Option.bind_eq_some_iff.mp h
  obtain ⟨hback, claim, hmem, hkey, rfl⟩ :=
    (Record.held_eq_some (hg.ledgers.shape i.1 r hr).nodup).mp hheld
  exact ⟨claim, ⟨r, hr, hmem, hkey ▸ hback⟩, hkey, rfl⟩

theorem HoldsLive.standing (hg : Agrees g) (h : HoldsLive g p claim) :
    Standing g.shared claim := by
  have hlease := h.1.lease hg
  unfold Standing
  cases ho : claim.cancelOwnerId with
  | none => exact hg.consistent.stamped _ _ hlease ho h.2
  | some owner => exact hg.consistent.listed _ _ owner hlease ho h.2

theorem HoldsLive.owner (hg : Agrees g) {o : ℕ} (h : HoldsLive g p claim)
    (ho : claim.cancelOwnerId = some o) : LiveOwner g claim.key (o, claim.expiry) := by
  have hst := h.standing hg
  rw [Standing, ho] at hst
  exact ⟨hst, h.2⟩

theorem topped_of_agrees (hg : Agrees g) {key : Outpoint} {owner : ℕ × ℕ}
    (h : LiveOwner g key owner) : ∃ top, LiveOwner g key top ∧
      g.shared.outpointReservations key = some top.2 ∧
      ∀ other, LiveOwner g key other → other.2 ≤ top.2 := by
  have hstamp := hg.consistent.topped key owner h.1 h.2
  cases hlatest : Lease.latest (g.shared.table.owners key) g.clock with
  | none =>
    exact absurd h.2 (Lease.latest_eq_none.mp hlatest owner h.1)
  | some m =>
    obtain ⟨⟨top, htop, rfl⟩, hlive, hmax⟩ := Lease.latest_eq_some.mp hlatest
    exact ⟨top, ⟨htop, hlive⟩, hstamp.trans hlatest, fun other ho => hmax other ho.1 ho.2⟩

/-- **Maps that agree with the calls are exclusive.** -/
theorem exclusive_of_agrees (hg : Agrees g) : Exclusive g where
  once p q claim claim' h h' hn hn' hkey := by
    have hpq := hg.consistent.exclusive _ _ _ _ (h.1.lease hg) (h'.1.lease hg) hn hn' h.2 h'.2 hkey
    obtain rfl : p = q := (Prod.mk.inj hpq).1
    refine ⟨rfl, ?_⟩
    obtain ⟨r, hr, hmem, -⟩ := h.1
    obtain ⟨r', hr', hmem', -⟩ := h'.1
    cases hr.symm.trans hr'
    exact List.inj_on_of_nodup_map (hg.ledgers.shape p r hr).nodup hmem hmem' hkey
  apart p claim owner h hn ho :=
    absurd ho.2 (hg.consistent.apart _ _ (h.1.lease hg) hn h.2 owner ho.1)
  topped _ _ h := topped_of_agrees hg h
  standing _ _ h := h.standing hg
  ticketOnce := hg.tickets.receiptOnce

end Agrees

/-! ## One step -/

section Step

variable {enc : Encoder} {w : EncoderWorld} {ev : Event sig Command} {q : ℕ} {claim : Claim}

/-- The step released the ticket of the call `q` that names the outpoint. -/
def ReleasedBy (w w' : EncoderWorld) (ev : Event sig Command) (q : ℕ) (key : Outpoint) : Prop :=
  ∃ r receipt p releaser, records w.cfg.calls q = some r ∧ r.HasReceipt receipt ∧
    key ∈ receipt.outpoints ∧ ev.runs w = some p ∧ records w'.cfg.calls p = some releaser ∧
    releaser.Releases receipt.id

theorem records_step_of_ne (h : ev.runs w ≠ some q) :
    records (step (program enc) Ledger.empty w ev).cfg.calls q = records w.cfg.calls q := by
  simp only [records, step_calls_of_ne h]

variable (enc) in
/-- A call that does not run keeps what it holds, unless its ticket is released. -/
theorem holds_step (h : Holds w.cfg q claim) (hev : ev.runs w ≠ some q) :
    Holds (step (program enc) Ledger.empty w ev).cfg q claim ∨
      ReleasedBy w (step (program enc) Ledger.empty w ev) ev q claim.key := by
  obtain ⟨r, hr, hmem, hback⟩ := h
  refine or_iff_not_imp_right.mpr fun hrel =>
    ⟨r, (records_step_of_ne hev).trans hr, hmem, ?_⟩
  rintro (hthrew | ⟨receipt, hrc, hkey, p, releaser, hp, hreleases⟩)
  · exact hback (.inl hthrew)
  · by_cases hpe : ev.runs w = some p
    · exact hrel ⟨r, receipt, p, releaser, hr, hrc, hkey, hpe, hp, hreleases⟩
    · rw [records_step_of_ne hpe] at hp
      exact hback (.inr ⟨receipt, hrc, hkey, p, releaser, hp, hreleases⟩)

/-- The claims a call holds are in the maps after the step of another call. -/
theorem standing_step (hg : Agrees (step (program enc) Ledger.empty w ev).cfg)
    (h : Holds w.cfg q claim) (hev : ev.runs w ≠ some q)
    (hlive : (step (program enc) Ledger.empty w ev).cfg.clock < claim.expiry) :
    Standing (step (program enc) Ledger.empty w ev).cfg.shared claim ∨
      ReleasedBy w (step (program enc) Ledger.empty w ev) ev q claim.key :=
  (holds_step enc h hev).imp_left fun h' => HoldsLive.standing hg ⟨h', hlive⟩

end Step

/-- **Reservations are exclusive in every reachable world**, and the step of one call takes no live
claim of another away unless it releases that call's ticket. -/
theorem encoderRun_exclusive (enc : Encoder) (clock : ℕ) (events : List (Event sig Command)) :
    Exclusive (encoderRun enc clock events).cfg ∧
      ∀ ev q claim, Holds (encoderRun enc clock events).cfg q claim →
        ev.runs (encoderRun enc clock events) ≠ some q →
        (encoderRun enc clock (events ++ [ev])).cfg.clock < claim.expiry →
        Standing (encoderRun enc clock (events ++ [ev])).cfg.shared claim ∨
          ReleasedBy (encoderRun enc clock events) (encoderRun enc clock (events ++ [ev])) ev q
            claim.key := by
  refine ⟨exclusive_of_agrees (encoderRun_inv enc clock events), fun ev q claim h hev hlive => ?_⟩
  have hnext := encoderRun_inv enc clock (events ++ [ev])
  rw [encoderRun_append] at hnext hlive ⊢
  exact standing_step hnext h hev hlive

end XChain
