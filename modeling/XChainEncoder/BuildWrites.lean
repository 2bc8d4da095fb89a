import XChainEncoder.EncoderRuns
import XChainEncoder.Lib.Writes

/-!
# What a build writes before it is recorded

Binding the key, selection and a cancel's claim write reservations and claims, and nothing else.

* `ClaimsOnly`: the recent builds and the tickets stay, and every new claim lapses within the TTL;
* `writes_bindObfuscationKey`, `writes_buildFromBound`, `writes_buildEnvelopeCancelTransaction`: **every write before the
  duplicate check is such a one**;
* `writes_releaseAndRethrow`, `writes_releaseCancelAndRethrow`: so is giving the claims back.
-/

namespace XChain

open PushScript Coroutine Reservations

variable {enc : Encoder} {plan : Plan} {emitted : Emitted} {s : Reservations} {now : ℕ}

/-! ## Steps over one state -/

theorem sameBuilds_isOutpointReserved (s : Reservations) (key : Outpoint) (now : ℕ) :
    SameBuilds s (s.isOutpointReserved key now).2 := by
  unfold isOutpointReserved
  split
  · exact .refl s
  · split_ifs
    · exact ⟨rfl, rfl, rfl⟩
    · exact .refl s

theorem sameBuilds_evictExpiredReservations (s : Reservations) (now : ℕ) :
    SameBuilds s (s.evictExpiredReservations now) := ⟨rfl, rfl, rfl⟩

theorem sameBuilds_heldByOthers (now : ℕ) (keys : List Outpoint) (s : Reservations) :
    SameBuilds s (heldByOthers now keys s).2 := by
  induction keys generalizing s with
  | nil => exact .refl s
  | cons k ks ih => exact (sameBuilds_isOutpointReserved s k now).trans (ih _)

theorem sameBuilds_findFreeInput (now : ℕ) (skipped us : List Utxo) (s : Reservations) :
    SameBuilds s (findFreeInput now skipped us s).2 := by
  induction us generalizing skipped s with
  | nil => exact .refl s
  | cons u us ih =>
    have hchecked := sameBuilds_isOutpointReserved s (outpointKey u) now
    simp only [findFreeInput]
    split_ifs
    · exact hchecked.trans (ih _ _)
    · exact hchecked

variable (plan) in
theorem sameBuilds_remainingCandidatesCanFund (required : ℤ) (now : ℕ) (us : List Utxo)
    (index : ℕ) (available : ℤ) (s : Reservations) :
    SameBuilds s (remainingCandidatesCanFund plan required now index us available s).2 := by
  induction us generalizing index available s with
  | nil => exact .refl s
  | cons u us ih =>
    simp only [remainingCandidatesCanFund]
    have hchecked : SameBuilds s (if (!plan.request.exactInputs &&
        decide (plan.bound.firstReservedOutpoint ≠ some (outpointKey u))) = true then
          s.isOutpointReserved (outpointKey u) now else (false, s)).2 := by
      split_ifs
      · exact sameBuilds_isOutpointReserved s (outpointKey u) now
      · exact .refl s
    generalize (if (!plan.request.exactInputs &&
        decide (plan.bound.firstReservedOutpoint ≠ some (outpointKey u))) = true then
          s.isOutpointReserved (outpointKey u) now else (false, s)) = r at hchecked ⊢
    split_ifs
    · exact hchecked.trans (ih _ _ _)
    · split
      · exact hchecked
      · split_ifs
        · exact hchecked
        · exact hchecked.trans (ih _ _ _)

theorem sameBuilds_cappedSelectionError {outputSatoshis : ℤ} {index : ℕ} {rest : List Utxo}
    (acc : Selection) (s : Reservations) :
    SameBuilds s (cappedSelectionError enc plan outputSatoshis now index rest acc s).2 := by
  have hremaining := sameBuilds_remainingCandidatesCanFund plan
    (outputSatoshis + selectionTargetFee enc acc.estimatedFee) now rest index acc.inputSatoshis s
  unfold cappedSelectionError
  dsimp only
  split <;> rename_i heq <;> rw [heq] at hremaining <;> exact hremaining

/-! ## Writes -/

/-- A write of reservations and claims: the recent builds and the tickets stay, and every new claim
lapses within the TTL. -/
structure ClaimsOnly (n : ℕ) (s : Reservations) (l : Ledger) (s' : Reservations) (l' : Ledger) :
    Prop where
  recentBuilds : s'.recentBuilds = s.recentBuilds
  reservationTickets : s'.reservationTickets = s.reservationTickets
  nextId : s.nextId ≤ s'.nextId
  buildTxid : l'.buildTxid = l.buildTxid
  claims : ∀ claim ∈ l'.claims, claim ∈ l.claims ∨ claim.expiry ≤ n + reservationTtlMs

theorem ClaimsOnly.of_sameBuilds {n : ℕ} {s s' : Reservations} (h : SameBuilds s s') (l : Ledger) :
    ClaimsOnly n s l s' l :=
  ⟨h.recentBuilds, h.reservationTickets, h.nextId.ge, rfl, fun _ hc => .inl hc⟩

theorem ClaimsOnly.trans {n : ℕ} {s s' s'' : Reservations} {l l' l'' : Ledger}
    (h : ClaimsOnly n s l s' l') (h' : ClaimsOnly n s' l' s'' l'') : ClaimsOnly n s l s'' l'' where
  recentBuilds := h'.recentBuilds.trans h.recentBuilds
  reservationTickets := h'.reservationTickets.trans h.reservationTickets
  nextId := h.nextId.trans h'.nextId
  buildTxid := h'.buildTxid.trans h.buildTxid
  claims claim hc := (h'.claims claim hc).elim (h.claims claim) .inr

variable {l : Ledger} {n : ℕ}

theorem claimsOnly_claimOutpoint (hn : now ≤ n) (key : Outpoint) :
    ClaimsOnly n s l (s.claimOutpoint l key now).2 (s.claimOutpoint l key now).1 where
  recentBuilds := rfl
  reservationTickets := rfl
  nextId := le_rfl
  buildTxid := rfl
  claims claim hc := by
    rcases List.mem_append.mp hc with hc | hc
    · exact .inl hc
    · obtain rfl := List.mem_singleton.mp hc
      exact .inr (Nat.add_le_add_right hn _)

theorem claimsOnly_skipReservedInput (hn : now ≤ n) (key : Outpoint) :
    ClaimsOnly n s l (skipReservedInput plan key now l s).2.2
      (skipReservedInput plan key now l s).2.1 := by
  have hchecked : ClaimsOnly n s l (s.isOutpointReserved key now).2 l :=
    .of_sameBuilds (sameBuilds_isOutpointReserved s key now) l
  unfold skipReservedInput
  dsimp only
  split_ifs
  · exact .of_sameBuilds (.refl s) l
  · exact hchecked
  · exact hchecked.trans (claimsOnly_claimOutpoint hn key)

theorem claimsOnly_claimAll (hn : now ≤ n) (us : List Utxo) (l : Ledger) (s : Reservations) :
    ClaimsOnly n s l (claimAll now us l s).2 (claimAll now us l s).1 := by
  induction us generalizing l s with
  | nil => exact .of_sameBuilds (.refl s) l
  | cons u us ih => exact (claimsOnly_claimOutpoint hn (outpointKey u)).trans (ih _ _)

theorem claimsOnly_claimExactInputs (hn : now ≤ n) (utxos : List Utxo) :
    ClaimsOnly n s l (claimExactInputs now utxos l s).2.2 (claimExactInputs now utxos l s).2.1 := by
  have hheld : SameBuilds s
      (heldByOthers now (utxos.map outpointKey) (s.evictExpiredReservations now)).2 :=
    (sameBuilds_evictExpiredReservations s now).trans (sameBuilds_heldByOthers now _ _)
  unfold claimExactInputs
  dsimp only
  split_ifs
  · exact .of_sameBuilds hheld l
  · exact (ClaimsOnly.of_sameBuilds hheld l).trans (claimsOnly_claimAll hn utxos l _)

theorem claimsOnly_claimFirstFreeInput (hn : now ≤ n) (utxos : List Utxo) :
    ClaimsOnly n s l (claimFirstFreeInput now utxos l s).2.2
      (claimFirstFreeInput now utxos l s).2.1 := by
  have hfound : SameBuilds s (findFreeInput now [] utxos (s.evictExpiredReservations now)).2 :=
    (sameBuilds_evictExpiredReservations s now).trans (sameBuilds_findFreeInput now [] utxos _)
  unfold claimFirstFreeInput
  rcases hr : findFreeInput now [] utxos (s.evictExpiredReservations now) with ⟨_ | found, s'⟩
  · rw [hr] at hfound
    simp only [hr]
    exact .of_sameBuilds hfound l
  · rw [hr] at hfound
    simp only [hr]
    exact (ClaimsOnly.of_sameBuilds hfound l).trans
      (claimsOnly_claimOutpoint hn (outpointKey found.1))

theorem claimsOnly_claimCommit (hn : now ≤ n) (key : Outpoint) :
    ClaimsOnly n s l (claimCommit key now l s).2.2 (claimCommit key now l s).2.1 := by
  have hswept : SameBuilds s
      ((s.evictExpiredReservations now).evictExpiredEnvelopeCancelClaims now) := ⟨rfl, rfl, rfl⟩
  have hchecked : SameBuilds s (((s.evictExpiredReservations now).evictExpiredEnvelopeCancelClaims
      now).isOutpointReserved key now).2 :=
    hswept.trans (sameBuilds_isOutpointReserved _ key now)
  unfold claimCommit
  dsimp only
  split_ifs
  · exact .of_sameBuilds hchecked l
  · refine ⟨hchecked.recentBuilds, hchecked.reservationTickets, ?_, rfl, fun claim hc => ?_⟩
    · exact hchecked.nextId.ge.trans (Nat.le_succ _)
    · rcases List.mem_append.mp hc with hc | hc
      · exact .inl hc
      · obtain rfl := List.mem_singleton.mp hc
        exact .inr (Nat.add_le_add_right hn _)

/-! ## Programs -/

variable (enc plan emitted) in
theorem writes_selectLoop (hn : now ≤ n) (us : List Utxo) (index : ℕ) (acc : Selection)
    (s : Reservations) (l : Ledger) :
    Writes (σ := sig) ClaimsOnly (selectLoop enc plan emitted now index us acc) n s l := by
  induction us generalizing index acc n s l with
  | nil => trivial
  | cons u rest ih =>
    refine writes_bind ?_ fun r t s l ht => ?_
    · rw [selectStep_eq]
      refine writes_bind ?_ fun _ t s l ht => ?_
      · unfold refuseCappedSelection
        split_ifs
        · trivial
        · exact ⟨.of_sameBuilds (sameBuilds_cappedSelectionError acc s) l, trivial⟩
      · refine writes_bind (writes_ofExcept _ _ _ _) fun _ t' s l ht' =>
          ⟨claimsOnly_skipReservedInput (hn.trans (ht.trans ht')) _, ?_⟩
        split_ifs
        · trivial
        · refine writes_bind (writes_ofExcept _ _ _ _) fun _ _ _ _ _ => ?_
          refine writes_bind (writes_quiet (quiet_selectedInput u _) _ _ _) fun input _ _ _ _ => ?_
          exact writes_bind (writes_ofExcept _ _ _ _) fun _ _ _ _ _ => trivial
    · obtain ⟨done, acc'⟩ := r
      cases done with
      | true => trivial
      | false => exact ih (hn.trans ht) (index + 1) acc' s l

theorem writes_buildFromBound (enc : Encoder) (request : TxRequest) (pre : Prepared) (bound : Bound)
    (n : ℕ) (s : Reservations) (l : Ledger) :
    Writes (σ := sig) ClaimsOnly (buildFromBound enc request pre bound) n s l := by
  refine writes_bind (writes_ofExcept _ _ _ _) fun plan _ _ _ _ => ?_
  refine writes_bind (writes_quiet quiet_emitOutputs _ _ _) fun r _ _ _ _ => ?_
  refine writes_bind (writes_ofExcept _ _ _ _) fun start n s l _ => ?_
  refine writes_bind ?_ fun sel _ _ _ _ => writes_quiet (quiet_settleBuild _) _ _ _
  unfold selectFundingInputs
  split_ifs
  · trivial
  · refine writes_bind ?_ fun sel _ _ _ _ => ?_
    · rw [selectInputs_eq]
      exact fun t ht => ⟨.of_sameBuilds (sameBuilds_evictExpiredReservations s t) l,
        writes_selectLoop _ _ _ le_rfl _ 0 start _ l⟩
    · refine writes_bind (writes_ofExcept _ _ _ _) fun _ _ _ _ _ => ?_
      exact writes_bind (writes_ofExcept _ _ _ _) fun _ _ _ _ _ => trivial

theorem writes_bindObfuscationKey (exactInputs : Bool) (utxos : List Utxo) (n : ℕ)
    (s : Reservations) (l : Ledger) :
    Writes (σ := sig) ClaimsOnly (bindObfuscationKey exactInputs utxos) n s l := by
  rcases eq_or_ne utxos [] with he | he
  · unfold bindObfuscationKey
    rw [if_pos he]
    trivial
  cases exactInputs with
  | true =>
    rw [bindObfuscationKey_exact he]
    exact fun t _ => ⟨claimsOnly_claimExactInputs le_rfl utxos,
      writes_bind (writes_ofExcept _ _ _ _) fun _ _ _ _ _ => trivial⟩
  | false =>
    rw [bindObfuscationKey_greedy he]
    exact fun t _ => ⟨claimsOnly_claimFirstFreeInput le_rfl utxos, trivial⟩

theorem writes_yieldTick {n : ℕ} {s : Reservations} {l : Ledger} :
    Writes (σ := sig) ClaimsOnly yieldTick n s l := fun _ _ _ _ => trivial

/-- A failed build gives its claims back. -/
theorem writes_releaseAndRethrow {α : Type} (e : BuildError) (n : ℕ) (s : Reservations)
    (l : Ledger) : Writes (σ := sig) ClaimsOnly (releaseAndRethrow e : Prog α) n s l := by
  rw [releaseAndRethrow_eq]
  exact writes_bind writes_yieldTick fun _ _ s l _ =>
    ⟨.of_sameBuilds (sameBuilds_releaseCallReservations l.claims) l, trivial⟩

/-- A cancel claims one outpoint and asks for two rates. -/
theorem writes_buildEnvelopeCancelTransaction (request : CancelRequest) (n : ℕ) (s : Reservations)
    (l : Ledger) :
    Writes (σ := sig) ClaimsOnly (buildEnvelopeCancelTransaction enc request) n s l := by
  refine writes_bind (writes_ofExcept _ _ _ _) fun record n s l _ => ?_
  refine writes_bind ?_ fun _ _ _ _ _ => ?_
  · rw [claimCommitOutpoint_eq]
    exact fun t _ => ⟨claimsOnly_claimCommit le_rfl record.outpoint, writes_ofExcept _ _ _ _⟩
  refine writes_bind (writes_quiet (quiet_cancelFeeRate _) _ _ _) fun rate _ _ _ _ => ?_
  refine writes_bind (writes_ofExcept _ _ _ _) fun script _ _ _ _ => ?_
  exact writes_bind (writes_ofExcept _ _ _ _) fun sweep _ _ _ _ => writes_ofExcept _ _ _ _

theorem writes_releaseCancelAndRethrow {α : Type} (e : BuildError) (n : ℕ) (s : Reservations)
    (l : Ledger) : Writes (σ := sig) ClaimsOnly (releaseCancelAndRethrow e : Prog α) n s l := by
  rw [releaseCancelAndRethrow_eq]
  exact writes_bind writes_yieldTick fun _ _ s l _ t _ =>
    ⟨.of_sameBuilds (sameBuilds_releaseEnvelopeCancelClaims l.claims t) l, trivial⟩

end XChain
