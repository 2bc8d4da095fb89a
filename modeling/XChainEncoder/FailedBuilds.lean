import XChainEncoder.Exclusivity

/-!
# Failed builds

What a call that threw leaves behind, and what it takes from others.

* `NoTrace`: nothing live in the maps is of the call; `noTrace_of_threw`;
* `Spares`: a step of the call leaves what is live of the others; `spares_step`;
* **`encoderRun_failure`**: a call that threw has left no trace, and no step of a build takes
  anything live from another call.
-/

namespace XChain

open Coroutine

/-- Every live entry of the maps is that of another call, and none was made by `p`. -/
structure NoTrace (g : EncoderCfg) (p : ℕ) : Prop where
  stamp : ∀ key e, g.shared.outpointReservations key = some e → g.clock < e →
    ∃ q ≠ p, ∃ claim, Holds g q claim ∧ claim.key = key ∧ claim.expiry = e
  owner : ∀ key owner, LiveOwner g key owner →
    ∃ q ≠ p, ∃ claim, Holds g q claim ∧ claim.key = key ∧ claim.expiry = owner.2 ∧
      claim.cancelOwnerId = some owner.1
  token : ∀ r, records g.calls p = some r → ∀ claim ∈ r.ledger.claims, ∀ o,
    claim.cancelOwnerId = some o → ∀ key e, ¬ LiveOwner g key (o, e)
  build : ∀ txid e, g.shared.recentBuilds txid = some e → g.clock < e →
    ∃ q ≠ p, ∃ r, records g.calls q = some r ∧ r.ledger.buildTxid = some txid ∧ ¬ r.Threw
  built : ∀ r, records g.calls p = some r → r.ledger.buildTxid = none
  ticket : ∀ id ticket, g.shared.reservationTickets id = some ticket →
    ∃ q ≠ p, ∃ r receipt, records g.calls q = some r ∧ r.HasReceipt receipt ∧ receipt.id = id

/-- From `g` to `g'` nothing live of a call other than `p` went: its claims stand, the owners left
on an outpoint stamp it with their latest expiry, recent builds and tickets are as they were. -/
structure Spares (g g' : EncoderCfg) (p : ℕ) : Prop where
  claims : ∀ q ≠ p, ∀ claim, Holds g q claim → g'.clock < claim.expiry →
    Holds g' q claim ∧ Standing g'.shared claim
  topped : ∀ key owner, LiveOwner g' key owner → ∃ top, LiveOwner g' key top ∧
    g'.shared.outpointReservations key = some top.2 ∧
    ∀ other, LiveOwner g' key other → other.2 ≤ top.2
  live : KeepsLive g'.clock g.shared g'.shared

section Trace

variable {g : EncoderCfg} {p : ℕ} {r : Record}

theorem not_holds_of_threw (hr : records g.calls p = some r) (hthrew : r.Threw) {claim : Claim} :
    ¬ Holds g p claim := by
  rintro ⟨r', hr', -, hback⟩
  cases hr.symm.trans hr'
  exact hback (.inl hthrew)

/-- **What is live after a call threw is not of that call.** -/
theorem noTrace_of_threw (hg : Agrees g) (hr : records g.calls p = some r) (hthrew : r.Threw) :
    NoTrace g p := by
  -- A held claim is that of another call.
  have other : ∀ {i : ℕ × Outpoint} {c : Lease.Holding Outpoint},
      leases (records g.calls) i = some c →
      ∃ q ≠ p, ∃ claim, Holds g q claim ∧ claim.key = i.2 ∧ claim.holding = c := by
    intro i c h
    obtain ⟨claim, hholds, hkey, hc⟩ := holds_of_lease hg h
    exact ⟨i.1, fun he => not_holds_of_threw hr hthrew (he ▸ hholds), claim, hholds, hkey, hc⟩
  have howner : ∀ key owner, LiveOwner g key owner →
      ∃ q ≠ p, ∃ claim, Holds g q claim ∧ claim.key = key ∧ claim.expiry = owner.2 ∧
        claim.cancelOwnerId = some owner.1 := by
    intro key owner ho
    obtain ⟨i, hi⟩ := hg.consistent.backedOwner key owner ho.1 ho.2
    obtain ⟨q, hq, claim, hholds, -, hc⟩ := other hi
    exact ⟨q, hq, claim, hholds, congrArg Lease.Holding.key hc, congrArg Lease.Holding.expiry hc,
      congrArg Lease.Holding.owner hc⟩
  refine
    { stamp := fun key e he hl => ?_
      owner := howner
      token := fun r' hr' claim hmem o ho key e hlive => ?_
      build := fun txid e he hl => ?_
      built := fun r' hr' => ?_
      ticket := fun id ticket hT => ?_ }
  · obtain ⟨i, c, hi, rfl, rfl⟩ := hg.consistent.backedStamp key e he hl
    obtain ⟨q, hq, claim, hholds, -, rfl⟩ := other hi
    exact ⟨q, hq, claim, hholds, rfl, rfl⟩
  · obtain ⟨q, hq, claim', ⟨x, hx, hmem', -⟩, -, -, ho'⟩ := howner key (o, e) hlive
    exact hq (hg.ledgers.ownerOnce q p x r' claim' claim o hx hr' hmem' hmem ho' ho)
  · obtain ⟨q, x, hx, htxid, hx'⟩ := hg.builds.backed txid e he hl
    refine ⟨q, ?_, x, hx, htxid, hx'⟩
    rintro rfl
    cases hr.symm.trans hx
    exact hx' hthrew
  · cases hr.symm.trans hr'
    exact hg.builds.threw p r hr hthrew
  · obtain ⟨⟨q, x, receipt, hx, hrc, hid, -⟩, -⟩ := hg.tickets.issued id ticket hT
    refine ⟨q, ?_, x, receipt, hx, hrc, hid⟩
    rintro rfl
    cases hr.symm.trans hx
    obtain ⟨a, t, hs, -⟩ := hrc
    obtain ⟨e, t', hs'⟩ := hthrew
    cases hs.symm.trans hs'

end Trace

section Step

variable {enc : Encoder} {clock : ℕ} {events : List (Event sig Command)} {ev : Event sig Command}
  {p : ℕ} {r : Record}

theorem command_of_releases (hr : records (encoderRun enc clock events).cfg.calls p = some r)
    {id : ℕ} (h : r.Releases id) : ∃ id', r.command = .releaseReservation id' := by
  obtain ⟨call, hcall, rfl⟩ := Option.map_eq_some_iff.mp hr
  obtain ⟨result, t, hs, -⟩ := h
  obtain ⟨y, hy, hret⟩ := ((encoderRun_sound enc clock events).ended p call hcall).returned _ _ hs
  obtain ⟨⟨id', hcmd⟩, -⟩ := hret.ended
  exact ⟨id', (congrArg Call.command hy).symm.trans hcmd⟩

/-- **The step of a build leaves what is live of the others.** -/
theorem spares_step (hev : ev.runs (encoderRun enc clock events) = some p)
    (hr : records (encoderRun enc clock (events ++ [ev])).cfg.calls p = some r)
    (hc : ∀ id, r.command ≠ .releaseReservation id) :
    Spares (encoderRun enc clock events).cfg (encoderRun enc clock (events ++ [ev])).cfg p := by
  have hnext := encoderRun_inv enc clock (events ++ [ev])
  obtain ⟨y, hentered, hkeeps, hshared, hclock, call, hcall, hcmd⟩ :=
    step_keeps (encoder_meets enc) (encoderRun_sound enc clock events) hev
  rw [← encoderRun_append] at hshared hclock hcall
  refine ⟨fun q hq claim h hlive => ?_, fun key owner h => topped_of_agrees hnext h, ?_⟩
  · have hne : ev.runs (encoderRun enc clock events) ≠ some q := by
      rw [hev]
      exact fun he => hq (Option.some.inj he).symm
    have hholds := holds_step enc h hne
    rw [← encoderRun_append] at hholds
    rcases hholds with hholds | ⟨x, receipt, p', releaser, -, -, -, hp', hreleaser, hreleases⟩
    · exact ⟨hholds, HoldsLive.standing hnext ⟨hholds, hlive⟩⟩
    · cases hev.symm.trans hp'
      cases hr.symm.trans hreleaser
      obtain ⟨id', hcmd'⟩ := command_of_releases hr hreleases
      exact absurd hcmd' (hc id')
  · rw [hshared, hclock, ← hentered]
    refine hkeeps fun id => ?_
    obtain ⟨call', hcall', rfl⟩ := Option.map_eq_some_iff.mp hr
    cases hcall.symm.trans hcall'
    rw [hcmd]
    exact hc id

end Step

/-- **A call that threw has left no trace**, and no step of a build, up to the one it throws in,
takes anything live from another call. -/
theorem encoderRun_failure (enc : Encoder) (clock : ℕ) (events : List (Event sig Command)) (p : ℕ) :
    (∀ r, records (encoderRun enc clock events).cfg.calls p = some r → r.Threw →
      NoTrace (encoderRun enc clock events).cfg p) ∧
    ∀ ev r, ev.runs (encoderRun enc clock events) = some p →
      records (encoderRun enc clock (events ++ [ev])).cfg.calls p = some r →
      (∀ id, r.command ≠ .releaseReservation id) →
      Spares (encoderRun enc clock events).cfg (encoderRun enc clock (events ++ [ev])).cfg p :=
  ⟨fun _ hr hthrew => noTrace_of_threw (encoderRun_inv enc clock events) hr hthrew,
    fun _ _ hev hr hc => spares_step hev hr hc⟩

end XChain
