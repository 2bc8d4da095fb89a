import XChainEncoder.FundableSelections

/-!
# Fundable requests

When a request that some prefix of its free candidates can fund is refused for want of funds.

* `settleBuild_refusal`: settlement refuses a selection for want of funds exactly when its inputs do
  not cover its fee at the floor;
* `ReachesSelection`: a request whose candidates are all free reaches selection;
* **`fundable_funded`**: exactly when a fundable request is not refused;
* `exactPrefix`, `exactPrefix_refused`: a prefix that pays to the satoshi is passed over.
-/

namespace XChain

open PushScript Coroutine

section Settle

variable {enc : Encoder} {plan : Plan} {emitted : Emitted} {sel : Selection} {reply : Replies sig}
  {clock : ℕ} {e : BuildError}

/-! ## Settlement -/

theorem refuseInsufficientRelayFee_error
    (h : refuseInsufficientRelayFee enc plan emitted sel = .error e) : ¬ IsFundingRefusal e := by
  unfold refuseInsufficientRelayFee at h
  obtain ⟨-, rfl⟩ := ensure_eq_error.mp h
  refine not_fundingRefusal_ite (not_fundingRefusal_of_plain rfl) (not_fundingRefusal_ite ?_ ?_)
  · exact not_fundingRefusal_paramRange (by simp [toString])
  · exact not_fundingRefusal_paramRange (by simp [toString])

theorem refuseExcessiveFee_error (h : refuseExcessiveFee enc plan emitted sel = .error e) :
    ¬ IsFundingRefusal e := by
  unfold refuseExcessiveFee at h
  split_ifs at h
  rcases bind_eq_error.mp h with h | ⟨_, -, h⟩
  · unfold refuseOverRateCap at h
    cases hcap : plan.rates.capFeePerBytes with
    | none =>
      rw [hcap] at h
      cases h
    | some cap =>
      rw [hcap] at h
      obtain ⟨-, rfl⟩ := ensure_eq_error.mp h
      exact not_fundingRefusal_paramRange (by simp [toString])
  · obtain ⟨-, rfl⟩ := ensure_eq_error.mp h
    exact not_fundingRefusal_paramRange (by simp [toString])

theorem refuseFirstInputRace_error {key : Option Text} {psbt : Psbt}
    (h : refuseFirstInputRace plan key psbt = .error e) : ¬ IsFundingRefusal e := by
  unfold refuseFirstInputRace at h
  cases key with
  | none => cases h
  | some key =>
    dsimp only at h
    split_ifs at h
    obtain ⟨-, rfl⟩ := ensure_eq_error.mp h
    exact not_fundingRefusal (fun code hc => by cases hc; decide) fun hc => by cases hc

/-- The only funding refusal of settlement is the one of missing funds. -/
theorem settleChange_error {up : Uplifted} (hfunding : plan.isReveal = false)
    (h : settleChange enc plan emitted sel up = .error e) (he : IsFundingRefusal e) :
    IsInsufficientFunds e := by
  rcases bind_eq_error.mp h with hpre | ⟨pre, -, h⟩
  · exact absurd he (not_fundingRefusal_of_plain (prefundRevealPackage_error hpre))
  rcases bind_eq_error.mp h with hchange | ⟨change, -, h⟩
  · rcases bind_eq_error.mp hchange with hshort | ⟨_, -, hburn⟩
    · obtain ⟨-, rfl⟩ := ensure_eq_error.mp hshort
      rfl
    · rcases bind_eq_error.mp hburn with hburn | ⟨_, -, hdone⟩
      · obtain ⟨-, rfl⟩ := ensure_eq_error.mp hburn
        exact absurd he (not_fundingRefusal (fun code hc => by cases hc; decide) fun hc => by cases hc)
      · cases hdone
  rcases bind_eq_error.mp h with hpad | ⟨psbt, -, h⟩
  · exact absurd he (not_fundingRefusal_of_plain (emitChangeAndPad_error hfunding hpad))
  rcases bind_eq_error.mp h with hfloor | ⟨_, -, hdone⟩
  · obtain ⟨-, rfl⟩ := ensure_eq_error.mp hfloor
    exact absurd he (not_fundingRefusal (fun code hc => by cases hc; decide) fun hc => by cases hc)
  · cases hdone

theorem buildRevealPsbt_error {psbt : Psbt} {context : EnvelopeContext}
    (h : buildRevealPsbt enc plan psbt context = .error e) : e.cls = .plain := by
  rcases bind_eq_error.mp h with htxid | ⟨txid, -, h⟩
  · rcases bind_eq_error.mp htxid with hrange | ⟨_, -, hdone⟩
    · obtain ⟨-, rfl⟩ := ensure_eq_error.mp hrange
      rfl
    · cases hdone
  rcases bind_eq_error.mp h with hinput | ⟨_, -, h⟩
  · rcases bind_eq_error.mp hinput with hbad | ⟨_, -, hinput⟩
    · obtain ⟨-, rfl⟩ := ensure_eq_error.mp hbad
      rfl
    rcases bind_eq_error.mp hinput with hbad | ⟨_, -, hdone⟩
    · obtain ⟨-, rfl⟩ := ensure_eq_error.mp hbad
      rfl
    · cases hdone
  rcases bind_eq_error.mp h with hchange | ⟨_, -, h⟩
  · exact Psbt.addAddressOutput_error hchange
  dsimp only at h
  split_ifs at h
  · rcases bind_eq_error.mp h with hpad | ⟨_, -, hdone⟩
    · exact Psbt.addAddressOutput_error hpad
    · cases hdone
  · cases h

theorem buildEnvelopeReveal_error {psbt : Psbt} {context : Option EnvelopeContext}
    (h : buildEnvelopeReveal enc plan psbt context = .error e) : e.cls = .plain := by
  cases context with
  | none => cases h
  | some context =>
    simp only [buildEnvelopeReveal] at h
    cases hr : buildRevealPsbt enc plan psbt context with
    | error e' =>
      rw [hr] at h
      cases h
      exact buildRevealPsbt_error hr
    | ok r =>
      rw [hr] at h
      cases h

theorem alone_upliftForAncestors (s : Reservations) (l : Ledger) :
    ∃ package, (upliftForAncestors enc plan emitted sel).alone reply clock s l =
      (.ok (upliftBy enc plan emitted sel package), s, l) := by
  unfold upliftForAncestors
  split_ifs
  · exact ⟨_, rfl⟩
  · exact ⟨none, rfl⟩

/-- Settlement of a funding build whose ancestor package is known. -/
def settled (enc : Encoder) (plan : Plan) (price : RevealOutputsPrice) (emitted : Emitted)
    (sel : Selection) (up : Uplifted) : Except BuildError Built := do
  refuseInsufficientRelayFee enc plan emitted sel
  refuseExcessiveFee enc plan emitted sel
  let r ← settleChange enc plan emitted sel up
  let envelope ← buildEnvelopeReveal enc plan r.2.2 r.1.envelopeContext
  return ⟨plan, price, emitted, sel, up, floorEstimatedFee enc emitted up.estimatedFee, r.1, r.2.1,
    r.2.2, r.2.2, envelope⟩

theorem alone_settleBuild (hfunding : plan.request.p2shHash = none) (price : RevealOutputsPrice)
    (s : Reservations) (l : Ledger) :
    ∃ package, (settleBuild enc plan price emitted sel).alone reply clock s l =
      (settled enc plan price emitted sel (upliftBy enc plan emitted sel package), s, l) := by
  obtain ⟨package, hup⟩ := alone_upliftForAncestors s l
  refine ⟨package, ?_⟩
  unfold settleBuild settled
  simp only [Coro.bind_eq]
  rw [alone_bind, alone_ofExcept]
  cases refuseInsufficientRelayFee enc plan emitted sel with
  | error e => rfl
  | ok _ =>
    dsimp only
    rw [alone_bind, alone_ofExcept]
    cases refuseExcessiveFee enc plan emitted sel with
    | error e => rfl
    | ok _ =>
      dsimp only
      rw [alone_bind, hup]
      dsimp only
      rw [alone_bind, alone_ofExcept]
      cases settleChange enc plan emitted sel (upliftBy enc plan emitted sel package) with
      | error e => rfl
      | ok r =>
        obtain ⟨prefunded, changeSatoshis, psbt⟩ := r
        have hsweep : sweepP2shReveal enc plan emitted (floorEstimatedFee enc emitted
            (upliftBy enc plan emitted sel package).estimatedFee) psbt = .ret psbt := by
          unfold sweepP2shReveal
          rw [hfunding]
          rfl
        dsimp only
        rw [hsweep, alone_bind, alone_ret]
        dsimp only
        rw [alone_bind, alone_ofExcept]
        show _ = (buildEnvelopeReveal enc plan psbt prefunded.envelopeContext >>= _, s, l)
        cases buildEnvelopeReveal enc plan psbt prefunded.envelopeContext with
        | error e => rfl
        | ok envelope => rfl

variable (enc emitted sel reply clock) in
/-- **Settlement refuses a selection for want of funds exactly when the fee checks accept it and its
inputs do not cover the fee at the floor.** -/
theorem settleBuild_refusal (hfunding : plan.request.p2shHash = none) (price : RevealOutputsPrice)
    (s : Reservations) (l : Ledger) :
    (∃ e, ((settleBuild enc plan price emitted sel).alone reply clock s l).1 = .error e ∧
        IsFundingRefusal e) ↔
      (refuseInsufficientRelayFee enc plan emitted sel = .ok () ∧
        refuseExcessiveFee enc plan emitted sel = .ok ()) ∧ ¬ Covers enc emitted sel := by
  have hnoreveal : plan.isReveal = false := by simp [Plan.isReveal, hfunding]
  obtain ⟨package, halone⟩ := alone_settleBuild hfunding price s l
  have hbounds := upliftBy_bounds enc emitted sel hnoreveal package
  have hshort := settleChange_insufficient enc emitted sel hnoreveal
    (upliftBy enc plan emitted sel package)
  have hcovers : ¬ Covers enc emitted sel ↔ sel.inputSatoshis < emitted.outputSatoshis +
      floorEstimatedFee enc emitted (upliftBy enc plan emitted sel package).estimatedFee := by
    rw [Covers, floorEstimatedFee]
    omega
  rw [halone, hcovers, ← hshort]
  constructor
  · rintro ⟨e, he, hrefusal⟩
    rcases bind_eq_error.mp he with h | ⟨_, hrelay, he⟩
    · exact absurd hrefusal (refuseInsufficientRelayFee_error h)
    rcases bind_eq_error.mp he with h | ⟨_, hexcess, he⟩
    · exact absurd hrefusal (refuseExcessiveFee_error h)
    refine ⟨⟨hrelay, hexcess⟩, ?_⟩
    rcases bind_eq_error.mp he with h | ⟨r, -, he⟩
    · exact ⟨e, h, settleChange_error hnoreveal h hrefusal⟩
    rcases bind_eq_error.mp he with h | ⟨_, -, hdone⟩
    · exact absurd hrefusal (not_fundingRefusal_of_plain (buildEnvelopeReveal_error h))
    · cases hdone
  · rintro ⟨⟨hrelay, hexcess⟩, e, he, hinsufficient⟩
    refine ⟨e, ?_, .inl hinsufficient⟩
    exact bind_eq_error.mpr (.inr ⟨(), hrelay, bind_eq_error.mpr (.inr ⟨(), hexcess,
      bind_eq_error.mpr (.inl he)⟩)⟩)

/-! ## The end of selection -/

theorem selected_refusal (hfunding : plan.request.p2shHash = none) (price : RevealOutputsPrice)
    (hcount : 0 < sel.selectedInputCount ∧ sel.selectedInputCount ≤ maxUtxoCount)
    (s : Reservations) (l : Ledger) :
    (∃ e, (((Coro.ofExcept (σ := sig) (refuseEmptySelection sel)).bind fun _ =>
        (Coro.ofExcept (σ := sig) (refuseFirstInputRace plan emitted.emission.txidFirstInput
          sel.psbt)).bind fun _ => settleBuild enc plan price emitted sel).alone reply clock s l).1 =
        .error e ∧ IsFundingRefusal e) ↔
      FeeChecked enc plan emitted sel ∧ ¬ Covers enc emitted sel := by
  have hempty : refuseEmptySelection sel = .ok () := by
    refine bind_eq_ok.mpr ⟨(), ensure_eq_ok.mpr (decide_eq_true hcount.2), ensure_eq_ok.mpr ?_⟩
    exact decide_eq_true hcount.1.ne'
  have hsettle := settleBuild_refusal enc emitted sel reply clock hfunding price s l
  rw [hempty, alone_bind, alone_ofExcept]
  dsimp only
  rw [alone_bind, alone_ofExcept]
  cases hrace : refuseFirstInputRace plan emitted.emission.txidFirstInput sel.psbt with
  | error e =>
    refine iff_of_false ?_ fun h => ?_
    · rintro ⟨e', he', hrefusal⟩
      cases he'
      exact refuseFirstInputRace_error hrace hrefusal
    · cases hrace.symm.trans h.1.race
  | ok _ =>
    refine hsettle.trans (and_congr_left fun _ => ?_)
    exact ⟨fun h => ⟨hrace, h.1, h.2⟩, fun h => ⟨h.relay, h.excess⟩⟩

theorem FirstStop.unique {index j j' : ℕ} {acc sel sel' : Selection} {us : List Utxo}
    (h : FirstStop enc plan emitted reply clock index acc us j sel)
    (h' : FirstStop enc plan emitted reply clock index acc us j' sel') : sel = sel' := by
  rcases Nat.lt_trichotomy j j' with hlt | rfl | hlt
  · cases (h'.earlier j sel h.pos hlt h.spends).symm.trans h.enough
  · exact Except.ok.inj (h.spends.symm.trans h'.spends)
  · cases (h.earlier j' sel' h'.pos hlt h'.spends).symm.trans h'.enough

/-- Where selection stops, or where it would end, its inputs cover the fee at the floor. -/
structure StopsCovered (enc : Encoder) (plan : Plan) (emitted : Emitted) (reply : Replies sig)
    (clock : ℕ) (start : Selection) : Prop where
  stops : ∀ j sel, FirstStop enc plan emitted reply clock 0 start plan.bound.utxos j sel →
    FeeChecked enc plan emitted sel → Covers enc emitted sel
  ends : NoStop enc plan emitted reply clock 0 start plan.bound.utxos →
    ∀ sel, prefixSelection enc plan emitted reply clock start (reach plan.bound.utxos 0) = .ok sel →
      plan.bound.utxos.length ≤ maxUtxoCount ∧
        (FeeChecked enc plan emitted sel → Covers enc emitted sel)

/-- **Selection over free candidates, and settlement, refuse for want of funds exactly when selection
stops or ends on inputs that do not cover the fee at the floor.** -/
theorem selectFundingInputs_refusal {start : Selection} {s : Reservations} {l : Ledger}
    (hfunding : plan.request.p2shHash = none) (hcount : start.selectedInputCount = 0)
    (hnodup : (plan.bound.utxos.map outpointKey).Nodup)
    (hfree : ∀ u ∈ plan.bound.utxos, Spendable plan clock s u)
    (hvalid : ∀ u ∈ plan.bound.utxos, ValidValue u) (hreply : RepliesApart reply)
    (hne : plan.bound.utxos ≠ []) (price : RevealOutputsPrice) :
    (∃ e, (((selectFundingInputs enc plan emitted start).bind fun sel =>
        settleBuild enc plan price emitted sel).alone reply clock s l).1 = .error e ∧
        IsFundingRefusal e) ↔ ¬ StopsCovered enc plan emitted reply clock start := by
  have hnoreveal : plan.isReveal = false := by simp [Plan.isReveal, hfunding]
  have hlength := List.length_pos_of_ne_nil hne
  -- The walk starts after a sweep.
  have hwalk := walks_selectLoop enc emitted reply
    plan.bound.utxos (s.evictExpiredReservations clock) l 0 start hnodup (fun u hu =>
      (hfree u hu).imp_right fun h =>
        ((Sweeps.evictExpiredReservations le_rfl).isOutpointReserved_eq _).trans h) hvalid
  have hparts : ∀ r s' l', (selectLoop enc plan emitted clock 0 plan.bound.utxos start).alone reply
      clock (s.evictExpiredReservations clock) l = (r, s', l') →
      (((selectFundingInputs enc plan emitted start).bind fun sel =>
        settleBuild enc plan price emitted sel).alone reply clock s l).1 =
      r.bind fun sel => (((Coro.ofExcept (σ := sig) (refuseEmptySelection sel)).bind fun _ =>
        (Coro.ofExcept (σ := sig) (refuseFirstInputRace plan emitted.emission.txidFirstInput
          sel.psbt)).bind fun _ => settleBuild enc plan price emitted sel).alone reply clock s' l').1 := by
    intro r s' l' hr
    have hselect : (selectInputs enc plan emitted start).alone reply clock s l = (r, s', l') := by
      rw [selectInputs_eq]
      exact hr
    unfold selectFundingInputs
    rw [hnoreveal]
    simp only [Bool.false_eq_true, if_false, Coro.bind_eq]
    rw [alone_bind, alone_bind, hselect]
    cases r with
    | error e => rfl
    | ok sel =>
      rw [Except.bind]
      dsimp only
      rw [alone_bind, alone_bind, alone_ofExcept]
      cases refuseEmptySelection sel with
      | error e => rfl
      | ok _ =>
        dsimp only
        rw [alone_bind, alone_bind, alone_ofExcept]
        cases refuseFirstInputRace plan emitted.emission.txidFirstInput sel.psbt with
        | error e => rfl
        | ok _ => rfl
  rcases hr : (selectLoop enc plan emitted clock 0 plan.bound.utxos start).alone reply clock
    (s.evictExpiredReservations clock) l with ⟨r, s', l'⟩
  rw [hr] at hwalk
  rw [hparts r s' l' hr]
  rcases walks_cases hwalk hcount (Nat.zero_le _) with
    ⟨j, sel, hstop, rfl, hn⟩ | ⟨hno, hends⟩
  · have hj := hstop.reach
    have hpos := hstop.pos
    simp only [reach] at hj
    rw [Except.bind, selected_refusal hfunding price ⟨by omega, by omega⟩]
    refine ⟨fun h hcovered => h.2 (hcovered.stops j sel hstop h.1), fun h => ?_⟩
    by_contra hnot
    refine h ⟨fun j' sel' hstop' hchecked => ?_, fun hno => ?_⟩
    · rw [← hstop.unique hstop'] at hchecked ⊢
      exact not_not.mp fun hc => hnot ⟨hchecked, hc⟩
    · cases (hno j sel hstop.pos hstop.reach hstop.spends).symm.trans hstop.enough
  · have hnostop : ∀ j sel, ¬ FirstStop enc plan emitted reply clock 0 start plan.bound.utxos j sel :=
      fun j sel hstop => by
        cases (hno j sel hstop.pos hstop.reach hstop.spends).symm.trans hstop.enough
    rcases hends with ⟨hlen, sel, hsel, rfl, hn⟩ | ⟨hlen, ⟨sel, hsel⟩, e, rfl, he⟩ |
      ⟨e, i, acc', u', rfl, hu', hextend, hnone⟩
    · rw [Except.bind, selected_refusal hfunding price ⟨by omega, by omega⟩]
      refine ⟨fun h hcovered => h.2 ((hcovered.ends hno sel hsel).2 h.1), fun h => ?_⟩
      by_contra hnot
      refine h ⟨fun j sel' hstop => absurd hstop (hnostop j sel'), fun _ sel' hsel' => ?_⟩
      obtain rfl : sel = sel' := Except.ok.inj (hsel.symm.trans hsel')
      exact ⟨hlen, fun hchecked => not_not.mp fun hc => hnot ⟨hchecked, hc⟩⟩
    · refine ⟨fun _ hcovered => ?_, fun _ => ⟨e, rfl, he⟩⟩
      have := (hcovered.ends hno sel hsel).1
      omega
    · refine ⟨?_, fun h => absurd ?_ h⟩
      · rintro ⟨e', he', hrefusal⟩
        cases he'
        exact absurd hrefusal (extend_refusal hreply (hvalid u' hu') hextend)
      · exact ⟨fun j sel' hstop => absurd hstop (hnostop j sel'),
          fun _ sel' hsel' => absurd hsel' (hnone sel')⟩

end Settle

/-! ## Whole calls -/

section Calls

variable {enc : Encoder} {request : TxRequest} {reply : Replies sig} {clock : ℕ} {s : Reservations}
  {l : Ledger}

theorem alone_releaseAndRethrow {α : Type} (e : BuildError) :
    (releaseAndRethrow (α := α) e).alone reply clock s l =
      (.error e, s.releaseCallReservations l.claims, l) := rfl

theorem createTransaction_error {e : BuildError} :
    ((createTransaction enc request).alone reply clock s l).1 = .error e ↔
      ((buildSteps enc request).alone reply clock s l).1 = .error e := by
  unfold createTransaction
  simp only [Coro.bind_eq]
  rw [alone_bind, alone_tryCatch, alone_bind]
  rcases (buildSteps enc request).alone reply clock s l with ⟨e' | built, s', l'⟩
  · dsimp only
    rw [alone_releaseAndRethrow]
    exact ⟨fun h => by cases h; rfl, fun h => by cases h; rfl⟩
  · exact iff_of_false (fun h => by cases h) fun h => by cases h

theorem always_finishBuild (b : Built) :
    Always (fun _ => True) (fun e => ¬ IsFundingRefusal e) (finishBuild enc b) := by
  rw [finishBuild_eq]
  intro t s l
  refine always_bind.mpr (always_ofExcept (fun txid _ => ?_) fun e h => ?_)
  · unfold Reservations.refuseDuplicateBuild
    dsimp only
    split_ifs
    · exact not_fundingRefusal (fun code hc => by cases hc; decide) fun hc => by cases hc
    · trivial
  · rcases bind_eq_error.mp h with hrange | ⟨_, -, hdone⟩
    · obtain ⟨-, rfl⟩ := ensure_eq_error.mp hrange
      exact not_fundingRefusal_of_plain rfl
    · cases hdone

/-- The candidates when none is held: the first one is claimed. -/
def boundTo (utxos : List Utxo) : Bound :=
  ⟨utxos, utxos.head?.map outpointKey, utxos.head?.map fun u => lower u.txid⟩

variable (reply) in
theorem alone_bindObfuscationKey {utxos : List Utxo} (hnodup : (utxos.map outpointKey).Nodup)
    (hfree : ∀ u ∈ utxos, (s.isOutpointReserved (outpointKey u) clock).1 = false) :
    ∃ s' l', (bindObfuscationKey false utxos).alone reply clock s l = (.ok (boundTo utxos), s', l') ∧
      ∀ u ∈ utxos, (boundTo utxos).firstReservedOutpoint = some (outpointKey u) ∨
        (s'.isOutpointReserved (outpointKey u) clock).1 = false := by
  cases utxos with
  | nil => exact ⟨s, l, rfl, by rintro u ⟨⟩⟩
  | cons u us =>
    have hsweep := Sweeps.evictExpiredReservations (s := s) (le_refl clock)
    have hhead : ((s.evictExpiredReservations clock).isOutpointReserved (outpointKey u) clock).1 =
        false := (hsweep.isOutpointReserved_eq _).trans (hfree u List.mem_cons_self)
    have hclaim : claimFirstFreeInput clock (u :: us) l s =
        (boundTo (u :: us), (((s.evictExpiredReservations clock).isOutpointReserved (outpointKey u)
          clock).2).claimOutpoint l (outpointKey u) clock) := by
      unfold claimFirstFreeInput
      simp only [findFreeInput, hhead, Bool.false_eq_true, if_false]
      rfl
    refine ⟨(claimFirstFreeInput clock (u :: us) l s).2.2, (claimFirstFreeInput clock (u :: us) l s).2.1,
      ?_, fun v hv => ?_⟩
    · show (Except.ok (claimFirstFreeInput clock (u :: us) l s).1, _, _) = _
      rw [show (claimFirstFreeInput clock (u :: us) l s).1 = boundTo (u :: us) from
        congrArg Prod.fst hclaim]
      rfl
    · rcases List.mem_cons.mp hv with rfl | hv
      · exact .inl rfl
      · have hne : outpointKey v ≠ outpointKey u := fun heq =>
          (List.nodup_cons.mp hnodup).1 (heq ▸ List.mem_map_of_mem hv)
        rw [hclaim]
        refine .inr ((isOutpointReserved_claim hne).trans ?_)
        exact ((hsweep.trans (.isOutpointReserved le_rfl _)).isOutpointReserved_eq _).trans
          (hfree v (List.mem_cons_of_mem u hv))

/-- A funding request in greedy mode comes to its selection, with all of its candidates free. -/
structure ReachesSelection (enc : Encoder) (request : TxRequest) (reply : Replies sig) (clock : ℕ)
    (s : Reservations) (plan : Plan) (price : RevealOutputsPrice) (emitted : Emitted)
    (start : Selection) : Prop where
  funding : request.p2shHash = none
  greedy : request.exactInputs = false
  prepared : ∃ pre, ((prepareBuild enc request).alone reply clock s Ledger.empty).1 = .ok pre ∧
    planBuild enc request pre (boundTo pre.candidates) = .ok plan
  emits : ((emitOutputs enc plan).alone reply clock s Ledger.empty).1 = .ok (price, emitted)
  starts : initSelection request.fee emitted = .ok start
  free : ∀ u ∈ plan.bound.utxos, (s.isOutpointReserved (outpointKey u) clock).1 = false
  valid : ∀ u ∈ plan.bound.utxos, ValidValue u

theorem initSelection_count {fee : Option ℤ} {emitted : Emitted} {start : Selection}
    (h : initSelection fee emitted = .ok start) : start.selectedInputCount = 0 := by
  unfold initSelection at h
  cases fee with
  | none =>
    cases h
    rfl
  | some f =>
    obtain ⟨_, -, h⟩ := bind_eq_ok.mp h
    cases h
    rfl

/-- A call whose candidates are all free refuses for want of funds as selection and settlement do. -/
theorem createTransaction_refusal {plan : Plan} {price : RevealOutputsPrice} {emitted : Emitted}
    {start : Selection} (h : ReachesSelection enc request reply clock s plan price emitted start)
    (hreply : RepliesApart reply) (hne : plan.bound.utxos ≠ []) :
    (∃ e, ((createTransaction enc request).alone reply clock s Ledger.empty).1 = .error e ∧
        IsFundingRefusal e) ↔ ¬ StopsCovered enc plan emitted reply clock start := by
  obtain ⟨pre, hpre, hplan⟩ := h.prepared
  have hpreFor := (alone_always (returns_prepareBuild request) s Ledger.empty).1 pre hpre
  obtain ⟨hreq, hbound, -⟩ := planBuild_eq_ok hpreFor hplan
  have hutxos : plan.bound.utxos = pre.candidates := by rw [hbound]; rfl
  have hnodup : (plan.bound.utxos.map outpointKey).Nodup := hutxos ▸ hpreFor.nodup
  obtain ⟨s', l', hbind, hspendable⟩ := alone_bindObfuscationKey reply
    (l := Ledger.empty) hpreFor.nodup (hutxos ▸ h.free)
  have hbuild : ((buildFromBound enc request pre (boundTo pre.candidates)).alone reply clock s' l').1 =
      (((selectFundingInputs enc plan emitted start).bind fun sel =>
        settleBuild enc plan price emitted sel).alone reply clock s' l').1 := by
    unfold buildFromBound
    simp only [Coro.bind_eq]
    rw [alone_bind, hplan, alone_ofExcept]
    dsimp only
    rw [alone_bind, alone_quiet quiet_emitOutputs s' s l' Ledger.empty, h.emits]
    dsimp only
    rw [alone_bind, alone_ofExcept, h.starts]
  rw [← selectFundingInputs_refusal (s := s') (l := l')
    (hreq ▸ h.funding) (initSelection_count h.starts) hnodup
    (fun u hu => by rw [Spendable, hbound]; exact hspendable u (hutxos ▸ hu)) h.valid hreply hne price, ← hbuild]
  refine exists_congr fun e => and_congr_left fun hrefusal => ?_
  rw [createTransaction_error]
  unfold buildSteps
  simp only [Coro.bind_eq]
  rw [alone_bind, alone_quiet (quiet_prepareBuild request) s s Ledger.empty Ledger.empty, hpre]
  dsimp only
  rw [alone_bind, h.greedy, hbind]
  dsimp only
  rw [alone_bind]
  rcases hb : (buildFromBound enc request pre (boundTo pre.candidates)).alone reply clock s' l' with
    ⟨_ | built, s'', l''⟩
  · exact Iff.rfl
  · refine iff_of_false (fun he => ?_) fun he => by cases he
    exact (alone_always (always_finishBuild built) s'' l'').2 e he hrefusal

/-- A funded prefix whose inputs exceed its outputs and fee, where no surcharge is charged, is where
selection stops at the latest. -/
theorem Funded.enough {plan : Plan} {emitted : Emitted} {sel : Selection}
    {package : Option AncestorPackage} (h : Funded enc plan emitted sel package)
    (hgreedy : plan.request.exactInputs = false) (hsurcharge : 0 ≤ emitted.softDustSurcharge)
    (hfunding : plan.isReveal = false)
    (hexceeds : emitted.outputSatoshis + max sel.estimatedFee enc.dustAmount < sel.inputSatoshis) :
    sel.enough enc plan emitted = true := by
  have hfee : selectionTargetFee enc sel.estimatedFee ≤ finalFee enc plan emitted sel package := by
    have := (upliftBy_bounds enc emitted sel hfunding package).1
    rw [selectionTargetFee, finalFee, floorEstimatedFee]
    omega
  have hclears : clearsStrippedFloor enc plan emitted.outputSatoshis sel.psbt sel.inputSatoshis
      (selectionTargetFee enc sel.estimatedFee) = true := by
    unfold clearsStrippedFloor
    have hfloor := h.clears
    unfold changeBytes at hfloor
    cases hchange : plan.request.change with
    | none => rfl
    | some address =>
      rw [hchange] at hfloor
      dsimp only at hfloor ⊢
      split_ifs with hnone hfits
      · rfl
      · refine decide_eq_true (hfloor.trans ?_)
        simp only [predictedStrippedSize]
        split_ifs <;> omega
      · refine decide_eq_true (hfloor.trans_eq ?_)
        rw [if_neg (by omega)]
  simp only [Selection.enough, hgreedy, Bool.not_false, Bool.true_and, Bool.and_eq_true,
    decide_eq_true_eq]
  exact ⟨hexceeds, hclears⟩

/-- **Fundable requests.** When some prefix of the free candidates covers the outputs and the final fee
of the transaction that spends it, and clears the stripped-size floor, the call is not refused for want
of funds exactly when selection stops or ends on inputs that cover the fee at the floor. They do where
no surcharge is charged and a funded prefix holds more than its outputs and fee. -/
theorem fundable_funded (enc : Encoder) (request : TxRequest) (reply : Replies sig) (clock : ℕ)
    (s : Reservations) (plan : Plan) (price : RevealOutputsPrice) (emitted : Emitted)
    (start : Selection) (hreach : ReachesSelection enc request reply clock s plan price emitted start)
    (hreply : RepliesApart reply) (hfundable : Fundable enc plan emitted reply clock start) :
    ((¬ ∃ e, ((createTransaction enc request).alone reply clock s Ledger.empty).1 = .error e ∧
        IsFundingRefusal e) ↔ StopsCovered enc plan emitted reply clock start) ∧
      (emitted.softDustSurcharge = 0 →
        (∃ k sel package, 1 ≤ k ∧ k ≤ reach plan.bound.utxos 0 ∧
          prefixSelection enc plan emitted reply clock start k = .ok sel ∧
          Funded enc plan emitted sel package ∧
          emitted.outputSatoshis + max sel.estimatedFee enc.dustAmount < sel.inputSatoshis) →
        StopsCovered enc plan emitted reply clock start) := by
  constructor
  · have hne : plan.bound.utxos ≠ [] := by
      intro hnil
      obtain ⟨k, -, -, hpos, hk, -⟩ := hfundable
      rw [hnil, reach, List.length_nil] at hk
      omega
    rw [createTransaction_refusal hreach hreply hne, not_not]
  · rintro hnone ⟨k, sel, package, hpos, hk, hsel, hfunded, hexceeds⟩
    obtain ⟨pre, hpre, hplan⟩ := hreach.prepared
    have hpreFor := (alone_always (returns_prepareBuild request) s Ledger.empty).1 pre hpre
    obtain ⟨hreq, -, -⟩ := planBuild_eq_ok hpreFor hplan
    have henough := hfunded.enough (hreq ▸ hreach.greedy) hnone.ge
      (by simp [Plan.isReveal, hreq, hreach.funding]) hexceeds
    refine ⟨fun j sel' hstop _ => ?_, fun hno => ?_⟩
    · have := enough_exceeds hstop.enough
      rw [Covers, hnone]
      omega
    · cases (hno k sel hpos hk hsel).symm.trans henough

end Calls

/-! ## A prefix that pays to the satoshi -/

/-- What selection starts from when all candidates are free. -/
def selectionStart (enc : Encoder) (request : TxRequest) (reply : Replies sig) (clock : ℕ) :
    Except BuildError (Plan × RevealOutputsPrice × Emitted × Selection) := do
  let pre ← ((prepareBuild enc request).alone reply clock Reservations.empty Ledger.empty).1
  let plan ← planBuild enc request pre (boundTo pre.candidates)
  let emits ← ((emitOutputs enc plan).alone reply clock Reservations.empty Ledger.empty).1
  let start ← initSelection request.fee emits.2
  return (plan, emits.1, emits.2, start)

theorem reachesSelection_start {enc : Encoder} {request : TxRequest} {reply : Replies sig} {clock : ℕ}
    {r : Plan × RevealOutputsPrice × Emitted × Selection}
    (h : selectionStart enc request reply clock = .ok r) (hfunding : request.p2shHash = none)
    (hgreedy : request.exactInputs = false) (hvalid : ∀ u ∈ r.1.bound.utxos, ValidValue u) :
    ReachesSelection enc request reply clock Reservations.empty r.1 r.2.1 r.2.2.1 r.2.2.2 := by
  obtain ⟨pre, hpre, h⟩ := bind_eq_ok.mp h
  obtain ⟨plan, hplan, h⟩ := bind_eq_ok.mp h
  obtain ⟨emits, hemits, h⟩ := bind_eq_ok.mp h
  obtain ⟨start, hstart, h⟩ := bind_eq_ok.mp h
  cases h
  exact ⟨hfunding, hgreedy, ⟨pre, hpre, hplan⟩, hemits, hstart, fun _ _ => rfl, hvalid⟩

/-- A payment of 100000 from two outputs at ten base units per byte. -/
def exactPrefix (first second : ℤ) : TxRequest :=
  { softDustPayment with
    utxos := [witnessUtxo 0 first, witnessUtxo 1 second]
    customOutputs := [⟨sampleAddress ⟨.btc, .mainnet⟩, 100000⟩]
    change := some (sampleAddress ⟨.btc, .mainnet⟩)
    feePerKb := some 10000 }

/-- The encoder of the payment. -/
def btcEncoder : Encoder := sampleEncoder ⟨.btc, .mainnet⟩

/-- Whether the first output alone funds the payment, with `spare` left. -/
def firstFunds (first second spare : ℤ) : Bool :=
  (selectionStart btcEncoder (exactPrefix first second) sampleReply 0).toOption.any fun r =>
    decide (∀ u ∈ r.1.bound.utxos, 0 ≤ u.value ∧ u.value ≤ maxSatoshiU64) &&
    decide (1 ≤ reach r.1.bound.utxos 0) && decide (r.2.2.1.softDustSurcharge = 0) &&
    (prefixSelection btcEncoder r.1 r.2.2.1 sampleReply 0 r.2.2.2 1).toOption.any fun sel =>
      decide (0 ≤ spare ∧ r.2.2.1.outputSatoshis + finalFee btcEncoder r.1 r.2.2.1 sel none + spare ≤
        sel.inputSatoshis) &&
      decide (coreStrippedFloor btcEncoder.network ≤ predictedStrippedSize sel.psbt (changeBytes
        btcEncoder r.1 (sel.inputSatoshis - r.2.2.1.outputSatoshis -
          finalFee btcEncoder r.1 r.2.2.1 sel none)))

/-- The payment reaches its selection, and is fundable from its first output. -/
theorem exactPrefix_fundable {first second spare : ℤ} (h : firstFunds first second spare = true) :
    ∃ plan price emitted start, ReachesSelection btcEncoder (exactPrefix first second) sampleReply 0
        Reservations.empty plan price emitted start ∧ emitted.softDustSurcharge = 0 ∧
      1 ≤ reach plan.bound.utxos 0 ∧
      ∃ sel, prefixSelection btcEncoder plan emitted sampleReply 0 start 1 = .ok sel ∧
        Funded btcEncoder plan emitted sel none ∧
        emitted.outputSatoshis + max sel.estimatedFee btcEncoder.dustAmount + spare ≤
          sel.inputSatoshis := by
  unfold firstFunds at h
  cases hstart : selectionStart btcEncoder (exactPrefix first second) sampleReply 0 with
  | error e =>
    rw [hstart] at h
    cases h
  | ok r =>
    rw [hstart] at h
    simp only [Except.toOption, Option.any_some, Bool.and_eq_true, decide_eq_true_eq] at h
    obtain ⟨⟨⟨hvalid, hreach⟩, hsurcharge⟩, hsel⟩ := h
    refine ⟨r.1, r.2.1, r.2.2.1, r.2.2.2, reachesSelection_start hstart rfl rfl hvalid, hsurcharge,
      hreach, ?_⟩
    cases hfunded : prefixSelection btcEncoder r.1 r.2.2.1 sampleReply 0 r.2.2.2 1 with
    | error e =>
      rw [hfunded] at hsel
      cases hsel
    | ok sel =>
      rw [hfunded] at hsel
      simp only [Option.any_some, Bool.and_eq_true, decide_eq_true_eq] at hsel
      obtain ⟨⟨hspare, hcovers⟩, hclears⟩ := hsel
      refine ⟨sel, rfl, ⟨by omega, hclears⟩, ?_⟩
      rwa [finalFee, floorEstimatedFee, hsurcharge, add_zero] at hcovers

theorem sampleReply_apart : RepliesApart sampleReply := by
  rintro txid e ⟨⟩

/-- One satoshi more, and the call is not refused. -/
theorem fundable_funded_exact : ¬ ∃ e, ((createTransaction btcEncoder
    (exactPrefix 101651 600)).alone sampleReply 0 Reservations.empty Ledger.empty).1 = .error e ∧
      IsFundingRefusal e := by
  have hfunds : firstFunds 101651 600 1 = true := by decide +kernel
  obtain ⟨plan, price, emitted, start, hreach, hnone, hpos, sel, hsel, hfunded, hexceeds⟩ :=
    exactPrefix_fundable hfunds
  have hfundable := fundable_funded btcEncoder (exactPrefix 101651 600) sampleReply 0
    Reservations.empty plan price emitted start hreach sampleReply_apart
    ⟨1, sel, none, le_rfl, hpos, hsel, hfunded⟩
  exact hfundable.1.mpr (hfundable.2 hnone ⟨1, sel, none, le_rfl, hpos, hsel, hfunded, hexceeds⟩)

/-- **A prefix that pays to the satoshi is passed over**: the first output pays for the payment and its
fee exactly, and selection goes on to an output that is worth less than it costs. -/
theorem exactPrefix_refused :
    (∃ plan price emitted start, ReachesSelection btcEncoder (exactPrefix 101650 600) sampleReply 0
        Reservations.empty plan price emitted start ∧
      Fundable btcEncoder plan emitted sampleReply 0 start) ∧
    RepliesApart sampleReply ∧
    ∃ e, ((createTransaction btcEncoder (exactPrefix 101650 600)).alone sampleReply 0
      Reservations.empty Ledger.empty).1 = .error e ∧ IsInsufficientFunds e := by
  have hfunds : firstFunds 101650 600 0 = true := by decide +kernel
  obtain ⟨plan, price, emitted, start, hreach, -, hpos, sel, hsel, hfunded, -⟩ :=
    exactPrefix_fundable hfunds
  refine ⟨⟨plan, price, emitted, start, hreach, 1, sel, none, le_rfl, hpos, hsel, hfunded⟩,
    sampleReply_apart, ?_⟩
  have hthrows : (match ((createTransaction btcEncoder (exactPrefix 101650 600)).alone sampleReply 0
      Reservations.empty Ledger.empty).1 with
    | .error e => some e
    | .ok _ => none) = some (OperationalError "INSUFFICIENT_FUNDS" ("insufficient funds: selected " ++
      "inputs total 102250 but 102330 is required (outputs 100000 + fee 2330)")) := by
    decide +kernel
  split at hthrows
  · rename_i e he
    cases hthrows
    exact ⟨_, he, rfl⟩
  · cases hthrows

end XChain
