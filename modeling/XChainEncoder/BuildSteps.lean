import XChainEncoder.EmissionSteps

/-!
# What a whole build claims

From the candidate set to the recorded build, over the invariant of the maps.

* `returns_settleBuild`: settling the fee and the change spends nothing more;
* `wp_finishBuild`: the duplicate check records the build;
* `wp_buildSteps`: **a funding build claims exactly the inputs of its transaction**, and a reveal
  what it claimed when it bound its key.
-/

namespace XChain

open PushScript Coroutine

variable {enc : Encoder} {plan : Plan}

/-! ## What settling spends -/

section Settle

variable {emitted : Emitted} {sel : Selection}

theorem outpoints_raiseOutputValue {psbt psbt' : Psbt} {i : ℕ} {delta : ℤ}
    (h : psbt.raiseOutputValue i delta = .ok psbt') : psbt'.outpoints = psbt.outpoints := by
  unfold Psbt.outpoints
  rw [(Psbt.outputTotal_raiseOutputValue h).2]

theorem outpoints_prefundRevealPackage {up : Uplifted} {fee : ℤ} {prefunded : Prefunded}
    (h : prefundRevealPackage enc plan emitted sel up fee = .ok prefunded) :
    prefunded.psbt.outpoints = sel.psbt.outpoints := by
  unfold prefundRevealPackage at h
  dsimp only at h
  split at h
  · cases h
    rfl
  · split_ifs at h
    · unfold applyRevealPrefund at h
      split_ifs at h
      · simp only [bind_eq_ok] at h
        obtain ⟨psbt, hp, heq⟩ := h
        cases heq
        exact outpoints_raiseOutputValue hp
      · cases h
        rfl
    · cases h
      rfl
    · cases h
      rfl

theorem outpoints_emitChange {change : ℤ} {psbt psbt' : Psbt}
    (h : emitChange enc plan change psbt = .ok psbt') : psbt'.outpoints = psbt.outpoints := by
  unfold emitChange at h
  split at h
  · split_ifs at h
    · exact outpoints_addAddressOutput h
    · cases h
      rfl
  · cases h
    rfl

theorem outpoints_emitRevealPad {psbt psbt' : Psbt}
    (h : emitRevealPad enc plan psbt = .ok psbt') : psbt'.outpoints = psbt.outpoints := by
  unfold emitRevealPad at h
  split at h
  · split_ifs at h
    · simp only [bind_eq_ok] at h
      obtain ⟨address, -, h⟩ := h
      split_ifs at h
      · cases h
        rfl
      · exact outpoints_addAddressOutput h
    · cases h
      rfl
  · cases h
    rfl

theorem outpoints_settleChange {up : Uplifted} {r : Prefunded × ℤ × Psbt}
    (h : settleChange enc plan emitted sel up = .ok r) :
    r.2.2.outpoints = sel.psbt.outpoints := by
  simp only [settleChange, emitChangeAndPad, bind_eq_ok] at h
  obtain ⟨prefunded, hpre, change, -, psbt, ⟨psbt₁, hc, hpad⟩, _, -, heq⟩ := h
  cases heq
  exact ((outpoints_emitRevealPad hpad).trans (outpoints_emitChange hc)).trans
    (outpoints_prefundRevealPackage hpre)

theorem outpoints_emitSweep {kept : ℤ} {psbt psbt' : Psbt}
    (h : emitSweep enc plan emitted kept psbt = .ok psbt') : psbt'.outpoints = psbt.outpoints := by
  unfold emitSweep at h
  dsimp only at h
  split_ifs at h
  · simp only [bind_eq_ok] at h
    obtain ⟨address, -, h⟩ := h
    split_ifs at h
    · cases h
      rfl
    · exact outpoints_addAddressOutput h
  · cases h
    rfl

theorem returns_sweepP2shReveal (fee : ℤ) (psbt : Psbt) :
    Returns (fun psbt' => psbt'.outpoints = psbt.outpoints)
      (sweepP2shReveal enc plan emitted fee psbt) := by
  unfold sweepP2shReveal
  split
  · split_ifs
    · exact .bind_right fun kept => returns_ofExcept fun psbt' h => outpoints_emitSweep h
    · rfl
  · rfl

/-- **Settling the fee and the change spends nothing more.** -/
theorem returns_settleBuild (price : RevealOutputsPrice) :
    Returns (fun b => b.psbt.outpoints = sel.psbt.outpoints)
      (settleBuild enc plan price emitted sel) := by
  refine .bind_right fun _ => .bind_right fun _ => .bind_right fun up => ?_
  refine .bind (returns_ofExcept fun r hr => outpoints_settleChange hr) fun r hr => ?_
  refine .bind (returns_sweepP2shReveal _ r.2.2) fun psbt hp => .bind_right fun envelope => ?_
  exact hp.trans hr

theorem quiet_upliftForAncestors : Quiet (upliftForAncestors enc plan emitted sel) := by
  unfold upliftForAncestors
  split_ifs
  · exact quiet_bind (quiet_attempt (σ := sig) _) fun _ => trivial
  · trivial

theorem quiet_upliftRevealForCommit (h : Text) (kept : ℤ) :
    Quiet (upliftRevealForCommit enc plan emitted h kept) := by
  unfold upliftRevealForCommit
  split_ifs
  · refine quiet_bind (quiet_attempt (σ := sig) _) fun reply => ?_
    dsimp only
    split
    · split_ifs <;> trivial
    · trivial
  · trivial

theorem quiet_sweepP2shReveal (fee : ℤ) (psbt : Psbt) :
    Quiet (sweepP2shReveal enc plan emitted fee psbt) := by
  unfold sweepP2shReveal
  split
  · split_ifs
    · exact quiet_bind (quiet_upliftRevealForCommit _ _) fun _ => quiet_ofExcept (σ := sig) _
    · trivial
  · trivial

theorem quiet_settleBuild (price : RevealOutputsPrice) :
    Quiet (settleBuild enc plan price emitted sel) := by
  refine quiet_bind (quiet_ofExcept (σ := sig) _) fun _ => ?_
  refine quiet_bind (quiet_ofExcept (σ := sig) _) fun _ => ?_
  refine quiet_bind quiet_upliftForAncestors fun up => ?_
  refine quiet_bind (quiet_ofExcept (σ := sig) _) fun r => ?_
  refine quiet_bind (quiet_sweepP2shReveal _ _) fun psbt => ?_
  exact quiet_bind (quiet_ofExcept (σ := sig) _) fun _ => trivial

end Settle

theorem quiet_emitOutputs : Quiet (emitOutputs enc plan) := by
  refine quiet_bind (quiet_ofExcept (σ := sig) _) fun price => ?_
  refine quiet_bind (quiet_emitDataOutputs _ _ _ _) fun e => ?_
  exact quiet_bind (quiet_ofExcept (σ := sig) _) fun _ => trivial

/-! ## What a build is prepared from -/

/-- The steps before the first claim, as functions of the request where they are. -/
structure PreparedFor (enc : Encoder) (request : TxRequest) (pre : Prepared) : Prop where
  input : compressedInput enc request.compress request.data request.rawData = .ok pre.input
  compiled : compilePayload pre.input.data pre.input.rawData = .ok pre.compiled
  encoding : chooseEncoding enc.network request.encoding pre.compiled.finalDataBuffer
    request.compressedPubKey request.signerSupportsTapscript = .ok pre.encoding
  payments : checkPayloadInput enc request = .ok pre.payments
  nodup : (pre.candidates.map outpointKey).Nodup
  given : request.utxos ≠ [] ∨ request.p2shHash.isSome = true ∧ request.p2shHex.isSome = true →
    filterAndOrderUtxos request request.utxos = .ok pre.candidates
  nonempty : request.p2shHash = none → pre.candidates ≠ []
  exact : request.exactInputs = true → request.p2shHash = none

/-- Caller-supplied candidates are taken as they are; a reveal fetches none. -/
theorem returns_gatherUtxos (request : TxRequest) :
    Returns (fun g => request.utxos ≠ [] ∨
      request.p2shHash.isSome = true ∧ request.p2shHex.isSome = true → g.utxos = request.utxos)
      (gatherUtxos enc request) := by
  unfold gatherUtxos
  split_ifs with h1 h2
  · exact fun _ => rfl
  · intro _
    exact (not_not.mp h1).symm
  · exact .bind_right fun _ h => absurd h (not_or.mpr ⟨h1, h2⟩)

theorem quiet_prepareBuild (request : TxRequest) : Quiet (prepareBuild enc request) := by
  refine quiet_bind (quiet_ofExcept (σ := sig) _) fun payments => ?_
  refine quiet_bind (quiet_resolveFeeRates _ _ _) fun rates => ?_
  refine quiet_bind (quiet_compressPayload _ _ _ _) fun input => ?_
  refine quiet_bind (quiet_ofExcept (σ := sig) _) fun compiled => ?_
  refine quiet_bind (quiet_ofExcept (σ := sig) _) fun encoding => ?_
  refine quiet_bind (quiet_checkEnvelopeEncoding _ _ _) fun _ => ?_
  refine quiet_bind (quiet_ofExcept (σ := sig) _) fun _ => ?_
  refine quiet_bind (quiet_gatherUtxos _ _) fun gathered => ?_
  refine quiet_bind (quiet_ofExcept (σ := sig) _) fun _ => ?_
  exact quiet_bind (quiet_ofExcept (σ := sig) _) fun _ => trivial

theorem returns_prepareBuild (request : TxRequest) :
    Returns (PreparedFor enc request) (prepareBuild enc request) := by
  refine .bind (returns_ofExcept fun _ h => h) fun payments hpay => ?_
  refine .bind_right fun rates => ?_
  refine .bind (always_mono (fun _ h => h) (fun _ _ => trivial)
    (always_compressPayload enc request.compress request.data request.rawData)) fun input hin => ?_
  refine .bind (returns_ofExcept fun _ h => h) fun compiled hcomp => ?_
  refine .bind (returns_ofExcept fun _ h => h) fun encoding henc => ?_
  refine .bind_right fun _ => .bind (returns_ofExcept (R := fun _ =>
    request.exactInputs = true → request.p2shHash = none) fun _ h hx => ?_) fun _ hexact => ?_
  · simp only [checkExactInputs, hx, if_true, bind_eq_ok, ensure_eq_ok] at h
    obtain ⟨_, h, -⟩ := h
    simpa using h
  refine .bind (returns_gatherUtxos request) fun gathered hg => .bind_right fun _ => ?_
  refine .bind (returns_ofExcept fun _ h => h) fun candidates hc => ?_
  obtain ⟨hnd, -, hne⟩ := mem_filterAndOrderUtxos hc
  exact ⟨hin, hcomp, henc, hpay, hnd, fun h => hg h ▸ hc, hne, hexact⟩

/-- The data carriers of a request: its payload as the build prepares it. -/
def preparedPayload (enc : Encoder) (request : TxRequest) : Except BuildError PreparedData := do
  let input ← compressedInput enc request.compress request.data request.rawData
  let compiled ← compilePayload input.data input.rawData
  let encoding ← chooseEncoding enc.network request.encoding compiled.finalDataBuffer
    request.compressedPubKey request.signerSupportsTapscript
  prepareDataChunks enc (classifyPayload compiled.dataBuffer input.rawData).hasActionPayload
    compiled.finalDataBuffer encoding request.pubkey request.compressedPubKey

theorem planBuild_eq_ok {request : TxRequest} {pre : Prepared} {bound : Bound} {plan : Plan}
    (hpre : PreparedFor enc request pre) (h : planBuild enc request pre bound = .ok plan) :
    plan.request = request ∧ plan.bound = bound ∧
      preparedPayload enc request = .ok plan.prepared := by
  simp only [planBuild, bind_eq_ok] at h
  obtain ⟨prepared, hp, heq⟩ := h
  cases heq
  refine ⟨rfl, rfl, ?_⟩
  simp only [preparedPayload, bind_eq_ok]
  exact ⟨pre.input, hpre.input, pre.compiled, hpre.compiled, pre.encoding, hpre.encoding, hp⟩

/-! ## The whole build -/

/-- What the call has claimed when it has built a transaction: its inputs, in order, in a funding
build, and in a reveal the candidate that was free when it first read the clock. -/
structure BuiltAt (enc : Encoder) (request : TxRequest) (c : EncoderCall) (psbt : Psbt) : Prop where
  funding : request.p2shHash = none → c.ledger.claims.map Claim.key = psbt.outpoints
  reveal : ∀ h, request.p2shHash = some h → ∃ candidates prepared,
    filterAndOrderUtxos request request.utxos = .ok candidates ∧
    preparedPayload enc request = .ok prepared ∧
    psbt.outpoints = legs (some h) prepared.dataBufferArray.length ∧
    (c.seen = [] → candidates = []) ∧
    c.ledger.claims.map Claim.key = ((c.seen.head?.bind fun r =>
      firstFree r.1 r.2 candidates).map outpointKey).toList

theorem BuiltAt.mono {request : TxRequest} {c c' : EncoderCall} {psbt : Psbt}
    (h : BuiltAt enc request c psbt) (hc : Continues c c')
    (hl : c'.ledger.claims = c.ledger.claims) : BuiltAt enc request c' psbt where
  funding hn := by
    rw [hl]
    exact h.funding hn
  reveal txid ht := by
    obtain ⟨candidates, prepared, hcand, hprep, hout, hseen, hkeys⟩ := h.reveal txid ht
    refine ⟨candidates, prepared, hcand, hprep, hout, fun hnil => hseen ?_, ?_⟩
    · exact List.prefix_nil.mp (hnil ▸ hc.seen)
    · rw [hl, hkeys]
      obtain ⟨more, hmore⟩ := hc.seen
      cases hs : c.seen with
      | cons r rs => rw [← hmore, hs]; rfl
      | nil =>
        rw [hseen hs]
        cases c'.seen.head? <;> rfl

section Whole

variable {p : ℕ} {c : EncoderCall} {x : EncoderSnap} {request : TxRequest}

theorem FailedAt.mono {c' : EncoderCall} {y : EncoderSnap} (h : FailedAt p c' y)
    (hc : Continues c c') : FailedAt p c y := by
  obtain ⟨c'', hy, hcont, hb⟩ := h
  exact ⟨c'', hy, hc.trans hcont, hb⟩

theorem selectInputs_eq {plan : Plan} {emitted : Emitted} {acc : Selection} :
    selectInputs enc plan emitted acc = .now fun t => .get fun s l =>
      .put (s.evictExpiredReservations t) l
        (selectLoop enc plan emitted t 0 plan.bound.utxos acc) := rfl

theorem initSelection_psbt {fee : Option ℤ} {emitted : Emitted} {acc : Selection}
    (h : initSelection fee emitted = .ok acc) : acc.psbt = emitted.psbt := by
  rw [initSelection_eq_ok h]

theorem BoundAt.selecting {c₀ : EncoderCall} {plan : Plan} {utxos : List Utxo}
    (acc : Selection) (h : BoundAt plan.request.exactInputs utxos c₀ c plan.bound)
    (hc : c.command = .createTransaction request) (hnd : (utxos.map outpointKey).Nodup) :
    Selecting plan acc.psbt.outpoints c plan.bound.utxos acc where
  command := ⟨request, hc⟩
  buildTxid := h.buildTxid
  claims := ⟨[], (List.append_nil _).symm, h.claims,
    (h.perm.map outpointKey).nodup_iff.mpr hnd⟩
  tail := h.tail

/-- **Selection ends with the claims of a funding build on its inputs.** -/
theorem wp_selectFundingInputs {c₀ : EncoderCall} {plan : Plan} {utxos : List Utxo}
    {emitted : Emitted} {acc : Selection} (hx : At p c x)
    (hb : BoundAt plan.request.exactInputs utxos c₀ c plan.bound)
    (hc : c.command = .createTransaction request) (hnd : (utxos.map outpointKey).Nodup) :
    wp encoderContract p (selectFundingInputs enc plan emitted acc)
      (fun sel y => ∃ c', At p c' y ∧ Continues c c' ∧ c'.ledger.buildTxid = none ∧
        (plan.isReveal = true → c' = c ∧ sel = acc) ∧
        (plan.isReveal = false → Selected acc.psbt.outpoints c' sel))
      (fun _ y => FailedAt p c y) x := by
  unfold selectFundingInputs
  cases hr : plan.isReveal with
  | true =>
    simp only [if_true]
    exact ⟨c, hx, .refl c, hb.buildTxid, fun _ => ⟨rfl, rfl⟩, fun h => by cases h⟩
  | false =>
    simp only [Bool.false_eq_true, if_false]
    refine (wp_bind _).mpr ?_
    rw [selectInputs_eq]
    intro t ht
    have hs := (hx.tick ht).sweep (Sweeps.evictExpiredReservations (s := x.shared) le_rfl)
    have hcont : Continues c { c with seen := c.seen ++ [(t, x.shared)] } :=
      ⟨rfl, rfl, List.prefix_append ..⟩
    rw [← hx.call] at hs
    have hsel : Selecting plan acc.psbt.outpoints
        { x.call with seen := x.call.seen ++ [(t, x.shared)] } plan.bound.utxos acc := by
      rw [hx.call]
      have h := hb.selecting acc hc hnd
      exact ⟨h.command, h.buildTxid, h.claims, h.tail⟩
    rw [← hx.call] at hcont
    refine wp_mono ?_ ?_ _ (wp_selectLoop plan.bound.utxos 0 hs hsel
      le_rfl (by rw [hx.call]; exact hx.started.trans ht))
    · rintro sel y ⟨c', hy, hcont', hsel'⟩
      rw [hx.call] at hcont
      have hfail : FailedAt p c y := ⟨c', hy, hcont.trans (by rwa [hx.call] at hcont'),
        hsel'.buildTxid⟩
      refine (wp_bind _).mpr (wp_ofExcept (fun _ _ => ?_) fun _ _ => hfail)
      refine (wp_bind _).mpr (wp_ofExcept (fun _ _ => ?_) fun _ _ => hfail)
      exact ⟨c', hy, hcont.trans (by rwa [hx.call] at hcont'), hsel'.buildTxid,
        False.elim, fun _ => hsel'⟩
    · intro e y h
      rw [hx.call] at hcont h
      exact h.mono hcont

/-- **From the bound key to the finished transaction.** -/
theorem wp_buildFromBound {c₀ : EncoderCall} {pre : Prepared} {bound : Bound} (hx : At p c x)
    (hpre : PreparedFor enc request pre)
    (hb : BoundAt request.exactInputs pre.candidates c₀ c bound) (hseen : c₀.seen = [])
    (hc : c.command = .createTransaction request) :
    wp encoderContract p (buildFromBound enc request pre bound)
      (fun b y => ∃ c', At p c' y ∧ Continues c c' ∧ c'.ledger.buildTxid = none ∧
        BuiltAt enc request c' b.psbt)
      (fun _ y => FailedAt p c y) x := by
  have hfail : ∀ {y : EncoderSnap}, At p c y → FailedAt p c y := fun hy =>
    ⟨c, hy, .refl c, hb.buildTxid⟩
  refine (wp_bind _).mpr (wp_ofExcept (fun plan hplan => ?_) fun _ _ => hfail hx)
  obtain ⟨hreq, hbound, hprep⟩ := planBuild_eq_ok hpre hplan
  subst hbound
  refine (wp_bind _).mpr (wp_quiet_at hx quiet_emitOutputs returns_emitOutputs ?_
    fun _ y _ hy _ => hfail hy)
  rintro ⟨price, emitted⟩ y - hy ⟨hout, hhex⟩
  refine (wp_bind _).mpr (wp_ofExcept (fun acc hacc => ?_) fun _ _ => hfail hy)
  have hb' : BoundAt plan.request.exactInputs pre.candidates c₀ c plan.bound := by
    rw [hreq]
    exact hb
  have hbase : acc.psbt.outpoints =
      legs request.p2shHash plan.prepared.dataBufferArray.length := by
    rw [initSelection_psbt hacc]
    simpa [hreq] using hout
  refine (wp_bind _).mpr (wp_mono ?_ (fun _ _ h => h) y
    (wp_selectFundingInputs hy hb' hc hpre.nodup))
  rintro sel z ⟨c', hz, hcont, hbt, hreveal, hfund⟩
  refine wp_quiet_at hz (quiet_settleBuild price) (returns_settleBuild price) ?_
    fun _ y' _ hy' _ => ⟨c', hy', hcont, hbt⟩
  rintro b y' - hy' hpsbt
  refine ⟨c', hy', hcont, hbt, ⟨fun hnone => ?_, fun h hh => ?_⟩⟩
  · obtain ⟨claimed, hs, hperm⟩ := (hfund (by simp [Plan.isReveal, hreq, hnone])).claims
    rw [hpsbt, hs, hbase, hnone]
    exact hperm
  · have hr : plan.isReveal = true := by simp [Plan.isReveal, hreq, hh]
    obtain ⟨rfl, rfl⟩ := hreveal hr
    have hexact : request.exactInputs = false := by
      cases he : request.exactInputs with
      | false => rfl
      | true => simp [hpre.exact he] at hh
    have hhex' : request.p2shHex.isSome = true := by
      have := hhex hr
      rw [hreq] at this
      exact Option.isSome_iff_ne_none.mpr this
    refine ⟨pre.candidates, plan.prepared, hpre.given (.inr ⟨by simp [hh], hhex'⟩), hprep,
      by rw [hpsbt, hbase, hh], fun hnil => ?_, ?_⟩
    · by_contra hne
      obtain ⟨r, hr', -⟩ := hb.greedy hexact hne
      rw [hr', hseen] at hnil
      cases hnil
    rw [hb.keys hexact]
    by_cases hne : pre.candidates = []
    · have hnone : ∀ r : ℕ × Reservations, firstFree r.1 r.2 pre.candidates = none := fun r => by
        rw [hne]
        rfl
      have hfirst : plan.bound.firstReservedOutpoint = none := by
        have := hb.keys hexact
        have hperm := hb.perm
        have hcl := hb.claims
        rw [hne] at hperm
        rw [hperm.eq_nil, List.filter_nil, List.map_nil] at hcl
        rw [hcl] at this
        cases hfr : plan.bound.firstReservedOutpoint with
        | none => rfl
        | some k => simp [hfr] at this
      rw [hfirst]
      cases c'.seen.head? with
      | none => rfl
      | some r => simp [hnone]
    · obtain ⟨r, hr', hfirst⟩ := hb.greedy hexact hne
      rw [hr', hseen, hfirst]
      rfl

theorem finishBuild_eq {b : Built} :
    finishBuild enc b = .now fun t => .get fun s l => .put (s.evictExpiredRecentBuilds t) l
      ((Coro.ofExcept (σ := sig) (b.psbt.unsignedTxid enc.lib)).bind fun txid =>
        match s.refuseDuplicateBuild txid t with
        | (.error e, _) => .throw e
        | (.ok _, s) => .put s { l with buildTxid := some txid } (.ret b)) := by
  unfold finishBuild
  show Coro.now _ = _
  congr 1
  funext t
  show Coro.get _ = _
  congr 1
  funext s l
  show Coro.put _ _ _ = _
  congr 1
  show Coro.bind (Coro.ofExcept (σ := sig) (b.psbt.unsignedTxid enc.lib)) _ = _
  refine congrArg (Coro.bind _) (funext fun txid => ?_)
  rcases s.refuseDuplicateBuild txid t with ⟨r, s'⟩
  cases r <;> rfl

/-- **The duplicate check records the build, or refuses it and records nothing.** -/
theorem wp_finishBuild {b : Built} (hx : At p c x) (hb : c.ledger.buildTxid = none) :
    wp encoderContract p (finishBuild enc b)
      (fun b' y => b' = b ∧ ∃ c', Running p c' y ∧ Continues c c' ∧
        c'.ledger.claims = c.ledger.claims)
      (fun _ y => FailedAt p c y) x := by
  rw [finishBuild_eq]
  intro t ht
  have hs : Sweeps t x.shared (x.shared.evictExpiredRecentBuilds t) :=
    .evictExpiredRecentBuilds le_rfl
  have hat := (hx.tick ht).sweep hs
  have hcont : Continues c { c with seen := c.seen ++ [(t, x.shared)] } :=
    ⟨rfl, rfl, List.prefix_append ..⟩
  have hl : x.call.ledger = c.ledger := by rw [hx.call]
  show wp encoderContract p _ _ _ ((x.tick t).store (x.shared.evictExpiredRecentBuilds t) x.call.ledger)
  rw [hl]
  have hfail : FailedAt p c ((x.tick t).store (x.shared.evictExpiredRecentBuilds t) c.ledger) :=
    ⟨_, hat, hcont, hb⟩
  refine (wp_bind _).mpr (wp_ofExcept (fun txid _ => ?_) fun _ _ => hfail)
  unfold Reservations.refuseDuplicateBuild
  dsimp only
  by_cases hdup : ((x.shared.evictExpiredRecentBuilds t).recentBuilds txid).isSome = true
  · simp only [show (x.tick t).shared = x.shared from rfl, hdup, if_true]
    exact hfail
  · simp only [show (x.tick t).shared = x.shared from rfl, hdup, Bool.false_eq_true, if_false,
      show (x.tick t).call.ledger = c.ledger from hl]
    -- The record is new, so no live one is lost.
    have hkeeps : KeepsLive t (x.shared.evictExpiredRecentBuilds t)
        { x.shared.evictExpiredRecentBuilds t with
          recentBuilds := Function.update (x.shared.evictExpiredRecentBuilds t).recentBuilds txid
            (some (t + reservationTtlMs)) } := by
      refine ⟨fun txid' e he _ => ?_, fun _ _ h _ => h⟩
      have hne : txid' ≠ txid := by
        rintro rfl
        exact hdup (Option.isSome_iff_exists.mpr ⟨e, he⟩)
      exact (Function.update_of_ne hne ..).trans he
    have hrun := hat.toRunning.store (hat.inv.recordBuild
      (e := t + reservationTtlMs) hb) hkeeps hx.fresh
    exact ⟨rfl, _, hrun, hcont.trans ⟨rfl, rfl, List.prefix_rfl⟩, rfl⟩

/-- **A whole build.** -/
theorem wp_buildSteps (hx : At p c x) (hc : c.command = .createTransaction request)
    (hl : c.ledger = Ledger.empty) (hseen : c.seen = []) :
    wp encoderContract p (buildSteps enc request)
      (fun b y => ∃ c', Running p c' y ∧ Continues c c' ∧ BuiltAt enc request c' b.psbt)
      (fun _ y => FailedAt p c y) x := by
  have hb : c.ledger.buildTxid = none := by rw [hl]; rfl
  refine (wp_bind _).mpr (wp_quiet_at hx (quiet_prepareBuild request)
    (returns_prepareBuild request) ?_ fun _ y _ hy _ => ⟨c, hy, .refl c, hb⟩)
  rintro pre y - hy hpre
  refine (wp_bind _).mpr (wp_mono ?_ (fun _ _ h => h) y
    (wp_bindObfuscationKey hy hc hl hpre.nodup request.exactInputs))
  rintro bound z ⟨c₁, hz, hcont, hbound⟩
  refine (wp_bind _).mpr (wp_mono ?_ (fun _ _ h => FailedAt.mono h hcont) z
    (wp_buildFromBound hz hpre hbound hseen (hcont.command.trans hc)))
  rintro b z' ⟨c₂, hz', hcont', hbt, hbuilt⟩
  refine wp_mono ?_ (fun _ _ h => FailedAt.mono h (hcont.trans hcont')) z' (wp_finishBuild hz' hbt)
  rintro b' y' ⟨rfl, c₃, hy', hcont'', hcl⟩
  exact ⟨c₃, hy', (hcont.trans hcont').trans hcont'', hbuilt.mono hcont'' hcl⟩

end Whole

end XChain
