import XChainEncoder.ClaimSteps

/-!
# What selection claims

The walk over the candidates, over the invariant of the maps.

* `Psbt.outpoints`: the outpoints a transaction spends;
* `Selecting`: the claims of the call are the inputs added so far and the candidates still ahead
  that were claimed when the key was bound;
* `wp_selectStep`: one candidate keeps it; `wp_selectLoop`, `wp_selectFundingInputs`: **when
  selection ends, the claims are exactly the added inputs**.
-/

namespace XChain

open PushScript Coroutine

/-- The outpoints of the inputs, in order. -/
def Psbt.outpoints (psbt : Psbt) : List Outpoint := psbt.inputs.map fun i => ⟨i.hash, i.index⟩

theorem outpoints_addInput {psbt psbt' : Psbt} {input : PsbtInput}
    (h : psbt.addInput input = .ok psbt') :
    psbt'.outpoints = psbt.outpoints ++ [⟨lower input.hash, input.index⟩] := by
  obtain ⟨-, -, rfl⟩ := Psbt.addInput_eq_ok.mp h
  simp [Psbt.outpoints]

variable {enc : Encoder} {plan : Plan} {emitted : Emitted}

/-! ## The input of a candidate -/

theorem quiet_checkedPrevTx (utxo : Utxo) : Quiet (checkedPrevTx enc plan utxo) :=
  quiet_bind (quiet_request (σ := sig) _) fun _ => quiet_ofExcept (σ := sig) _

theorem quiet_selectedInput (utxo : Utxo) (nestedRedeem : Option Bytes) :
    Quiet (selectedInput enc plan utxo nestedRedeem) := by
  unfold selectedInput
  dsimp only
  split_ifs
  · exact quiet_bind (quiet_checkedPrevTx utxo) fun _ => trivial
  · trivial
  · exact quiet_bind (quiet_checkedPrevTx utxo) fun _ => trivial

theorem returns_selectedInput (utxo : Utxo) (nestedRedeem : Option Bytes) :
    Returns (fun i => i.hash = utxo.txid ∧ i.index = utxo.vout)
      (selectedInput enc plan utxo nestedRedeem) := by
  unfold selectedInput
  dsimp only
  split_ifs
  · exact .bind_right fun _ => ⟨rfl, rfl⟩
  · exact ⟨rfl, rfl⟩
  · exact .bind_right fun _ => ⟨rfl, rfl⟩

theorem outpoints_add {acc acc' : Selection} {utxo : Utxo} {input : PsbtInput} {nested : Bool}
    (h : acc.add enc plan emitted utxo input nested = .ok acc') :
    acc'.psbt.outpoints = acc.psbt.outpoints ++ [⟨lower input.hash, input.index⟩] := by
  unfold Selection.add at h
  obtain ⟨psbt, hp, hacc⟩ := bind_eq_ok.mp h
  cases hacc
  exact outpoints_addInput hp

/-! ## One candidate -/

section Step

variable {p now t : ℕ} {s : Reservations}

variable (plan) in
theorem sweeps_remainingCandidatesCanFund (required : ℤ) (hn : now ≤ t) (us : List Utxo)
    (index : ℕ) (available : ℤ) (s : Reservations) :
    Sweeps t s (remainingCandidatesCanFund plan required now index us available s).2 := by
  induction us generalizing index available s with
  | nil => exact .refl t s
  | cons u us ih =>
    simp only [remainingCandidatesCanFund]
    have hs : Sweeps t s (if (!plan.request.exactInputs &&
        decide (plan.bound.firstReservedOutpoint ≠ some (outpointKey u))) = true then
          s.isOutpointReserved (outpointKey u) now else (false, s)).2 := by
      split_ifs
      · exact .isOutpointReserved hn _
      · exact .refl t s
    generalize (if (!plan.request.exactInputs &&
        decide (plan.bound.firstReservedOutpoint ≠ some (outpointKey u))) = true then
          s.isOutpointReserved (outpointKey u) now else (false, s)) = r at hs ⊢
    split_ifs
    · exact hs.trans (ih ..)
    · split
      · exact hs
      · split_ifs
        · exact hs
        · exact hs.trans (ih ..)

variable (enc plan) in
theorem sweeps_cappedSelectionError (outputSatoshis : ℤ) (index : ℕ) (rest : List Utxo)
    (acc : Selection) (hn : now ≤ t) (s : Reservations) :
    Sweeps t s (cappedSelectionError enc plan outputSatoshis now index rest acc s).2 := by
  have h := sweeps_remainingCandidatesCanFund plan
    (outputSatoshis + selectionTargetFee enc acc.estimatedFee) hn rest index acc.inputSatoshis s
  unfold cappedSelectionError
  dsimp only
  split <;> rename_i heq <;> rw [heq] at h <;> exact h

variable (plan) in
/-- A candidate is claimed ahead, or skipped because it is held, or claimed now. -/
theorem inv_skipReservedInput {request : TxRequest} {v : Records} {l : Ledger} {u : Utxo}
    (h : Inv t s (v.set p (.running (.createTransaction request) l))) (hn : now ≤ t)
    (hkey : claimedAhead plan.request.exactInputs plan.bound.firstReservedOutpoint u = false →
      outpointKey u ∉ l.claims.map Claim.key) :
    Inv t (skipReservedInput plan (outpointKey u) now l s).2.2
        (v.set p (.running (.createTransaction request)
          (skipReservedInput plan (outpointKey u) now l s).2.1)) ∧
      Untouched t s (skipReservedInput plan (outpointKey u) now l s).2.2 ∧
      (claimedAhead plan.request.exactInputs plan.bound.firstReservedOutpoint u = true ∧
          (skipReservedInput plan (outpointKey u) now l s).1 = false ∧
          (skipReservedInput plan (outpointKey u) now l s).2.1 = l ∨
        claimedAhead plan.request.exactInputs plan.bound.firstReservedOutpoint u = false ∧
          (skipReservedInput plan (outpointKey u) now l s).1 = true ∧
          (skipReservedInput plan (outpointKey u) now l s).2.1 = l ∨
        claimedAhead plan.request.exactInputs plan.bound.firstReservedOutpoint u = false ∧
          (skipReservedInput plan (outpointKey u) now l s).1 = false ∧
          (skipReservedInput plan (outpointKey u) now l s).2.1 =
            { l with claims := l.claims ++ [⟨outpointKey u, now + reservationTtlMs, none⟩] }) := by
  unfold skipReservedInput
  by_cases ha : plan.request.exactInputs = true ∨
      plan.bound.firstReservedOutpoint = some (outpointKey u)
  · simp only [ha, if_true]
    exact ⟨h, .refl t s, .inl ⟨by simpa [claimedAhead] using ha, trivial, trivial⟩⟩
  · have hfalse : claimedAhead plan.request.exactInputs plan.bound.firstReservedOutpoint u =
        false := by
      simpa [claimedAhead, not_or] using ha
    have hsw : Sweeps t s (s.isOutpointReserved (outpointKey u) now).2 :=
      .isOutpointReserved hn _
    simp only [ha, if_false]
    cases hr : (s.isOutpointReserved (outpointKey u) now).1 with
    | true =>
      simp only [if_true]
      exact ⟨h.sweep hsw, .of_sweeps hsw, .inr (.inl ⟨hfalse, trivial, trivial⟩)⟩
    | false =>
      simp only [Bool.false_eq_true, if_false]
      exact ⟨(h.sweep hsw).claim hn (free_isOutpointReserved hr) (hkey hfalse),
        (Untouched.of_sweeps hsw).trans (.of_sameBuilds ⟨rfl, rfl, rfl⟩),
        .inr (.inr ⟨hfalse, trivial, rfl⟩)⟩

/-- While selection walks: the claims are in order the inputs added so far and the candidates still to
come that are claimed ahead; nothing is claimed twice. -/
structure Selecting (plan : Plan) (base : List Outpoint) (c : EncoderCall) (remaining : List Utxo)
    (acc : Selection) : Prop where
  command : ∃ request, c.command = .createTransaction request
  buildTxid : c.ledger.buildTxid = none
  claims : ∃ claimed, acc.psbt.outpoints = base ++ claimed ∧
    c.ledger.claims.map Claim.key = claimed ++ (remaining.filter (claimedAhead
      plan.request.exactInputs plan.bound.firstReservedOutpoint)).map outpointKey ∧
    (claimed ++ remaining.map outpointKey).Nodup
  tail : plan.request.exactInputs = false →
    ∀ u ∈ remaining.tail, plan.bound.firstReservedOutpoint ≠ some (outpointKey u)

variable {base : List Outpoint} {c c' : EncoderCall} {u : Utxo} {rest : List Utxo}
  {acc acc' : Selection}

theorem Selecting.rest_tail (h : Selecting plan base c (u :: rest) acc) :
    plan.request.exactInputs = false →
      ∀ u ∈ rest.tail, plan.bound.firstReservedOutpoint ≠ some (outpointKey u) :=
  fun he u hu => h.tail he u (List.mem_of_mem_tail hu)

theorem Selecting.not_claimed (h : Selecting plan base c (u :: rest) acc)
    (hu : claimedAhead plan.request.exactInputs plan.bound.firstReservedOutpoint u = false) :
    outpointKey u ∉ c.ledger.claims.map Claim.key := by
  obtain ⟨claimed, -, hp, hnd⟩ := h.claims
  intro hin
  rw [List.map_cons, List.nodup_append] at hnd
  rcases List.mem_append.mp (hp ▸ hin) with hin | hin
  · exact hnd.2.2 _ hin _ List.mem_cons_self rfl
  · rw [List.filter_cons_of_neg (by simp [hu])] at hin
    obtain ⟨u', hu', he⟩ := List.mem_map.mp hin
    exact (List.nodup_cons.mp hnd.2.1).1
      (he ▸ List.mem_map_of_mem (List.mem_of_mem_filter hu'))

theorem Selecting.skip (h : Selecting plan base c (u :: rest) acc)
    (hu : claimedAhead plan.request.exactInputs plan.bound.firstReservedOutpoint u = false)
    (hpsbt : acc'.psbt = acc.psbt) : Selecting plan base c rest acc' := by
  obtain ⟨claimed, ho, hp, hnd⟩ := h.claims
  refine ⟨h.command, h.buildTxid, ⟨claimed, by rw [hpsbt, ho], ?_, ?_⟩, h.rest_tail⟩
  · rwa [List.filter_cons_of_neg (by simp [hu])] at hp
  · exact hnd.sublist (List.Sublist.append_left (List.sublist_cons_self ..) _)

theorem Selecting.take (h : Selecting plan base c (u :: rest) acc) (hcmd : c'.command = c.command)
    (hb : c'.ledger.buildTxid = none)
    (hc : claimedAhead plan.request.exactInputs plan.bound.firstReservedOutpoint u = true ∧
        c'.ledger.claims = c.ledger.claims ∨
      claimedAhead plan.request.exactInputs plan.bound.firstReservedOutpoint u = false ∧
        c'.ledger.claims.map Claim.key = c.ledger.claims.map Claim.key ++ [outpointKey u])
    (hpsbt : acc'.psbt.outpoints = acc.psbt.outpoints ++ [outpointKey u]) :
    Selecting plan base c' rest acc' := by
  obtain ⟨claimed, ho, hp, hnd⟩ := h.claims
  refine ⟨hcmd ▸ h.command, hb, ⟨claimed ++ [outpointKey u], ?_, ?_, ?_⟩, h.rest_tail⟩
  · rw [hpsbt, ho, List.append_assoc]
  · rcases hc with ⟨hu, hc⟩ | ⟨hu, hc⟩
    · rw [hc, List.append_assoc]
      rwa [List.filter_cons_of_pos hu, List.map_cons] at hp
    · -- In greedy mode no candidate after the first one is claimed ahead.
      have hgreedy : plan.request.exactInputs = false := by
        rw [claimedAhead, Bool.or_eq_false_iff] at hu
        exact hu.1
      have hnil : rest.filter (claimedAhead plan.request.exactInputs plan.bound.firstReservedOutpoint) =
          [] := List.filter_eq_nil_iff.mpr fun u' hu' => by
        simp [claimedAhead, hgreedy, h.tail hgreedy u' hu']
      rw [List.filter_cons_of_neg (by simp [hu]), hnil, List.map_nil, List.append_nil] at hp
      rw [hc, hp, hnil, List.map_nil, List.append_nil]
  · rwa [List.append_assoc]

/-- The refusal at the input limit deletes lapsed reservations only. -/
theorem wp_refuseCappedSelection {x : EncoderSnap} {outputSatoshis : ℤ} {index : ℕ}
    {Q : EncoderSnap → Prop} (hx : At p c x) (hn : now ≤ x.clock)
    (hb : c.ledger.buildTxid = none) (hQ : Q x) :
    wp encoderContract p (refuseCappedSelection enc plan outputSatoshis now index rest acc)
      (fun _ y => Q y) (fun _ y => FailedAt p c y) x := by
  unfold refuseCappedSelection
  split_ifs
  · exact hQ
  · have hs := sweeps_cappedSelectionError enc plan outputSatoshis index rest acc hn x.shared
    have hsweep := hx.sweep hs
    rw [← hx.call] at hsweep
    exact ⟨x.call, hsweep, by rw [hx.call]; exact .refl c, by rw [hx.call]; exact hb⟩

theorem selectStep_eq (index : ℕ) :
    selectStep enc plan emitted now index u rest acc =
      (refuseCappedSelection enc plan emitted.outputSatoshis now index (u :: rest) acc).bind
        fun _ => (Coro.ofExcept (σ := sig)
          (refuseUnsignableInput enc plan.prepared.encoding u)).bind fun _ =>
        .get fun s l => .put (skipReservedInput plan (outpointKey u) now l s).2.2
          (skipReservedInput plan (outpointKey u) now l s).2.1
          (if (skipReservedInput plan (outpointKey u) now l s).1 then
            .ret (false, { acc with reservedCandidates := acc.reservedCandidates + 1 })
          else (Coro.ofExcept (σ := sig) (parseSatoshiAmount u.value
              s!"utxos[{index}].value" true)).bind fun _ =>
            (selectedInput enc plan u (nestedP2wpkhRedeem enc.lib enc.network plan.request.pubkey
                plan.request.compressedPubKey u)).bind fun input =>
              (Coro.ofExcept (σ := sig) (acc.add enc plan emitted u input
                (nestedP2wpkhRedeem enc.lib enc.network plan.request.pubkey
                  plan.request.compressedPubKey u).isSome)).bind fun acc =>
                .ret (acc.enough enc plan emitted, acc)) := rfl

/-- **One candidate: what is added is claimed.** -/
theorem wp_selectStep {x : EncoderSnap} {index : ℕ} (hx : At p c x)
    (hsel : Selecting plan base c (u :: rest) acc) (hn : now ≤ x.clock)
    (hstart : c.startedAt ≤ now) :
    wp encoderContract p (selectStep enc plan emitted now index u rest acc)
      (fun r y => x.clock ≤ y.clock ∧ ∃ c', At p c' y ∧ Continues c c' ∧
        Selecting plan base c' rest r.2 ∧ (r.1 = true → plan.request.exactInputs = false))
      (fun _ y => FailedAt p c y) x := by
  rw [selectStep_eq, wp_bind]
  refine wp_refuseCappedSelection hx hn hsel.buildTxid ?_
  refine (wp_bind _).mpr (wp_ofExcept (fun _ _ => ?_) fun e _ => ⟨c, hx, .refl c, hsel.buildTxid⟩)
  obtain ⟨request, hcmd⟩ := hsel.command
  have hinv := hx.inv
  rw [hcmd] at hinv
  obtain ⟨hI, hu, hcases⟩ := inv_skipReservedInput plan hinv hn hsel.not_claimed
  show wp encoderContract p (if (skipReservedInput plan (outpointKey u) now x.call.ledger x.shared).1 then _
    else _) _ _ (x.store (skipReservedInput plan (outpointKey u) now x.call.ledger x.shared).2.2
      (skipReservedInput plan (outpointKey u) now x.call.ledger x.shared).2.1)
  rw [hx.call]
  generalize skipReservedInput plan (outpointKey u) now c.ledger x.shared = r at hI hu hcases ⊢
  obtain ⟨skipped, l, s⟩ := r
  have hstore : (∀ claim ∈ l.claims, c.startedAt + reservationTtlMs ≤ claim.expiry) →
      At p { c with ledger := l } (x.store s l) := hx.store (by rw [hcmd]; exact hI) hu
  -- What follows the claim touches no state any more.
  have hrest : l.buildTxid = none → At p { c with ledger := l } (x.store s l) →
      (∀ acc' : Selection, acc'.psbt.outpoints = acc.psbt.outpoints ++ [outpointKey u] →
        Selecting plan base { c with ledger := l } rest acc') →
      wp encoderContract p ((Coro.ofExcept (σ := sig) (parseSatoshiAmount u.value
              s!"utxos[{index}].value" true)).bind fun _ =>
            (selectedInput enc plan u (nestedP2wpkhRedeem enc.lib enc.network plan.request.pubkey
                plan.request.compressedPubKey u)).bind fun input =>
              (Coro.ofExcept (σ := sig) (acc.add enc plan emitted u input
                (nestedP2wpkhRedeem enc.lib enc.network plan.request.pubkey
                  plan.request.compressedPubKey u).isSome)).bind fun acc =>
                .ret (acc.enough enc plan emitted, acc))
        (fun r y => x.clock ≤ y.clock ∧ ∃ c', At p c' y ∧ Continues c c' ∧
          Selecting plan base c' rest r.2 ∧ (r.1 = true → plan.request.exactInputs = false))
        (fun _ y => FailedAt p c y) (x.store s l) := by
    intro hb hat htake
    have hcont : Continues c { c with ledger := l } := ⟨rfl, rfl, List.prefix_rfl⟩
    refine (wp_bind _).mpr (wp_ofExcept (fun _ _ => ?_) fun e _ => ⟨_, hat, hcont, hb⟩)
    refine (wp_bind _).mpr (wp_quiet_at hat (quiet_selectedInput u _)
      (returns_selectedInput u _) (fun input y hxy hy hin => ?_)
      fun e y _ hy _ => ⟨_, hy, hcont, hb⟩)
    refine (wp_bind _).mpr (wp_ofExcept (fun acc' hadd => ?_) fun e _ => ⟨_, hy, hcont, hb⟩)
    refine ⟨hxy, _, hy, hcont, htake acc' ?_, fun hdone => ?_⟩
    · rw [outpoints_add hadd, hin.1, hin.2]
      rfl
    · unfold Selection.enough at hdone
      cases hexact : plan.request.exactInputs with
      | false => rfl
      | true => simp [hexact] at hdone
  rcases hcases with ⟨hu', hsk, hl⟩ | ⟨hu', hsk, hl⟩ | ⟨hu', hsk, hl⟩ <;>
    simp only at hsk hl <;> subst hsk <;> subst hl
  · simp only [Bool.false_eq_true, if_false]
    refine hrest hsel.buildTxid (hstore hx.fresh) fun acc' ho => ?_
    exact hsel.take rfl hsel.buildTxid (.inl ⟨hu', rfl⟩) ho
  · simp only [if_true]
    exact ⟨le_rfl, _, hstore hx.fresh, ⟨rfl, rfl, List.prefix_rfl⟩, hsel.skip hu' rfl,
      fun h => by cases h⟩
  · simp only [Bool.false_eq_true, if_false]
    refine hrest hsel.buildTxid (hstore fun claim hin => ?_) fun acc' ho => ?_
    · rcases List.mem_append.mp hin with hin | hin
      · exact hx.fresh claim hin
      · rw [List.mem_singleton.mp hin]
        exact Nat.add_le_add_right hstart _
    · exact hsel.take rfl hsel.buildTxid (.inr ⟨hu', by simp⟩) ho

/-- The inputs a selection added are what its call has claimed, in order. -/
structure Selected (base : List Outpoint) (c : EncoderCall) (acc : Selection) : Prop where
  command : ∃ request, c.command = .createTransaction request
  buildTxid : c.ledger.buildTxid = none
  claims : ∃ claimed, acc.psbt.outpoints = base ++ claimed ∧
    c.ledger.claims.map Claim.key = claimed

/-- Without a candidate claimed ahead to come, the claims are the inputs. -/
theorem Selecting.selected (h : Selecting plan base c rest acc)
    (hrest : ∀ u ∈ rest, claimedAhead plan.request.exactInputs plan.bound.firstReservedOutpoint u =
      false) : Selected base c acc := by
  obtain ⟨claimed, ho, hp, -⟩ := h.claims
  refine ⟨h.command, h.buildTxid, claimed, ho, ?_⟩
  have hnil : rest.filter (claimedAhead plan.request.exactInputs plan.bound.firstReservedOutpoint) =
      [] := List.filter_eq_nil_iff.mpr fun u hu => by simp [hrest u hu]
  rwa [hnil, List.map_nil, List.append_nil] at hp

/-- **When the walk ends, the claims are exactly the added inputs.** -/
theorem wp_selectLoop (remaining : List Utxo) {c : EncoderCall} {x : EncoderSnap}
    {acc : Selection} (index : ℕ) (hx : At p c x) (hsel : Selecting plan base c remaining acc)
    (hn : now ≤ x.clock) (hstart : c.startedAt ≤ now) :
    wp encoderContract p (selectLoop enc plan emitted now index remaining acc)
      (fun sel y => ∃ c', At p c' y ∧ Continues c c' ∧ Selected base c' sel)
      (fun _ y => FailedAt p c y) x := by
  induction remaining generalizing c x acc index with
  | nil => exact ⟨c, hx, .refl c, hsel.selected (by rintro u ⟨⟩)⟩
  | cons u rest ih =>
    show wp encoderContract p ((selectStep enc plan emitted now index u rest acc).bind fun r =>
      if r.1 then .ret r.2 else selectLoop enc plan emitted now (index + 1) rest r.2) _ _ x
    rw [wp_bind]
    refine wp_mono ?_ (fun _ _ h => h) x (wp_selectStep hx hsel hn hstart)
    rintro ⟨done, acc'⟩ y ⟨hxy, c', hy, hcont, hsel', hexact⟩
    cases done with
    | true =>
      simp only [if_true]
      refine ⟨c', hy, hcont, hsel'.selected fun u' hu' => ?_⟩
      have hfalse := hexact rfl
      have htail := hsel.tail hfalse u' hu'
      simp [claimedAhead, hfalse, htail]
    | false =>
      simp only [Bool.false_eq_true, if_false]
      have hrec := ih (index + 1) hy hsel' (hn.trans hxy) (hcont.startedAt ▸ hstart)
      refine wp_mono ?_ ?_ y hrec
      · rintro sel z ⟨c'', hz, hcont', hsel''⟩
        exact ⟨c'', hz, hcont.trans hcont', hsel''⟩
      · rintro e z ⟨c'', hz, hcont', hb⟩
        exact ⟨c'', hz, hcont.trans hcont', hb⟩

end Step

end XChain
