import XChainEncoder.BoundKeys

/-!
# The key of a carrier

Decoders read the key of a payload from the transaction's first input.

* `always_buildFromBound`: whatever other calls do after binding, the claimed outpoint comes first
  and the key check never refuses;
* `KeyedByFirstInput`, `returns_createTransaction_keyed`: every returned carrier is keyed by its own
  first input;
* `SpendsFirstClaim`, `ClaimsFirstLeg`, `BuiltAt.first_iff`: where a transaction spends first what its
  call claimed first;
* **`obfuscationKey_firstInput`**: all of it, in every run.
-/

namespace XChain

open PushScript Coroutine

variable {enc : Encoder} {plan : Plan} {emitted : Emitted} {request : TxRequest}

/-! ## Every build from a bound key -/

theorem planBuild_bound {pre : Prepared} {bound : Bound} (h : planBuild enc request pre bound = .ok plan) :
    plan.request = request ∧ plan.bound = bound ∧
      (plan.hasActionPayload = false → plan.prepared.dataBufferArray = []) := by
  simp only [planBuild, bind_eq_ok] at h
  obtain ⟨prepared, hp, heq⟩ := h
  cases heq
  refine ⟨rfl, rfl, fun hnone => ?_⟩
  dsimp only at hnone ⊢
  rw [hnone] at hp
  cases hp
  rfl

/-- The key check passes where the first input has the bound key's txid. -/
theorem refuseFirstInputRace_of_head {key : Outpoint} {psbt : Psbt}
    (hhead : psbt.outpoints.head? = some key) :
    refuseFirstInputRace plan (some key.txid) psbt = .ok () := by
  have hhash : psbt.inputs.head?.map PsbtInput.hash = some key.txid := by
    rw [Psbt.outpoints, List.head?_map] at hhead
    obtain ⟨input, hinput, rfl⟩ := Option.map_eq_some_iff.mp hhead
    rw [hinput]
    rfl
  unfold refuseFirstInputRace
  dsimp only
  split_ifs
  · rw [ensure_eq_ok, hhash, decide_eq_true rfl]
  · rfl

/-- **Selection puts the claimed outpoint first, and the key check never refuses.** -/
theorem always_selectFundingInputs {key : Outpoint}
    (hfirst : FirstClaimed plan.request.exactInputs plan.bound key) {start : Selection}
    (hstart : plan.request.p2shHash = none → start.psbt.outpoints = [])
    (hkey : plan.prepared.encoding = .opReturn ∨ plan.prepared.encoding = .multisign →
      emitted.emission.txidFirstInput = plan.bound.txidFirstInput) :
    Always (fun sel => plan.request.p2shHash = none → sel.psbt.outpoints.head? = some key) NotRace
      (selectFundingInputs enc plan emitted start) := by
  unfold selectFundingInputs
  by_cases hreveal : plan.isReveal = true
  · rw [if_pos hreveal]
    intro hfunding
    simp [Plan.isReveal, hfunding] at hreveal
  rw [if_neg hreveal]
  have hfunding : plan.request.p2shHash = none := by simpa [Plan.isReveal] using hreveal
  refine always_bind.mpr (always_mono (fun sel hsel => ?_) (fun _ h => h)
    (always_selectInputs hfirst (hstart hfunding)))
  refine always_bind.mpr (always_mono (fun _ _ => ?_) (fun _ h => h)
    (always_of_refuses (refuses_refuseEmptySelection sel)))
  have hpass : refuseFirstInputRace plan emitted.emission.txidFirstInput sel.psbt = .ok () := by
    by_cases hplain : plan.prepared.encoding = .opReturn ∨ plan.prepared.encoding = .multisign
    · rw [hkey hplain, hfirst.txid]
      exact refuseFirstInputRace_of_head hsel
    · rw [not_or] at hplain
      unfold refuseFirstInputRace
      cases emitted.emission.txidFirstInput with
      | none => rfl
      | some _ => simp [hplain.1, hplain.2]
  rw [hpass]
  exact fun _ => hsel

/-- **From a claimed key on, the build spends the claimed outpoint first or refuses for another
reason**, whatever other calls and the clock do. A reveal passes through no selection. -/
theorem always_buildFromBound {pre : Prepared} {bound : Bound} {key : Outpoint}
    (hfirst : FirstClaimed request.exactInputs bound key) :
    Always (fun b => request.p2shHash = none → b.psbt.outpoints.head? = some key) NotRace
      ((buildFromBound enc request pre bound).bind (finishBuild enc)) := by
  refine always_bind.mpr (always_mono (fun b hb => ?_) (fun _ h => h)
    (R := fun b => request.p2shHash = none → b.psbt.outpoints.head? = some key) ?_)
  · exact always_mono (fun _ h => h.1) (fun _ h => h.2)
      (always_and (returns_finishBuild hb) (notRace_finishBuild b))
  refine always_bind.mpr (always_mono (fun plan hplan => ?_) (fun _ h => h)
    (always_ofExcept (R := fun plan => planBuild enc request pre bound = .ok plan) (fun _ h => h)
      (refuses_planBuild request pre bound).error))
  obtain ⟨hrequest, hbound, -⟩ := planBuild_bound hplan
  subst hrequest hbound
  have hemit : Returns (fun r => (plan.request.p2shHash = none → r.2.psbt.outpoints = []) ∧
      (plan.prepared.encoding = .opReturn ∨ plan.prepared.encoding = .multisign →
        r.2.emission.txidFirstInput = plan.bound.txidFirstInput)) (emitOutputs enc plan) := by
    by_cases hplain : plan.prepared.encoding = .opReturn ∨ plan.prepared.encoding = .multisign
    · refine always_mono (fun r hr => ⟨?_, fun _ => hr.2.key⟩) (fun _ _ => trivial)
        (always_and returns_emitOutputs (returns_emitOutputs_carried hplain))
      intro hfunding
      rw [hr.1.1, hfunding]
      rfl
    · refine always_mono (fun r hr => ⟨?_, fun h => absurd h hplain⟩) (fun _ _ => trivial)
        returns_emitOutputs
      intro hfunding
      rw [hr.1, hfunding]
      rfl
  refine always_bind.mpr (always_mono (fun r hr => ?_) (fun _ h => h.2)
    (always_and hemit always_emitOutputs))
  obtain ⟨price, emitted⟩ := r
  obtain ⟨⟨hinputs, hkey⟩, -⟩ := hr
  refine always_bind.mpr (always_mono (fun start hstart => ?_) (fun _ h => h)
    (always_ofExcept (R := fun start => initSelection plan.request.fee emitted = .ok start)
      (fun _ h => h) (refuses_initSelection _).error))
  have hempty : plan.request.p2shHash = none → start.psbt.outpoints = [] := fun hfunding => by
    rw [initSelection_psbt hstart, hinputs hfunding]
  refine always_bind.mpr (always_mono (fun sel hsel => ?_) (fun _ h => h)
    (always_selectFundingInputs hfirst hempty hkey))
  refine always_mono (fun b hb => ?_) (fun _ h => h.2)
    (always_and (returns_settleBuild price) always_settleBuild)
  rw [hb.1]
  exact hsel

/-! ## Every result -/

/-- The carrier of a result is keyed by what its transaction spends first. -/
structure KeyedByFirstInput (enc : Encoder) (request : TxRequest) (r : TxResult) : Prop where
  plain : r.encoding = .opReturn ∨ r.encoding = .multisign → ∃ prepared first more scripts,
    preparedPayload enc request = .ok prepared ∧ r.psbt.outpoints = first :: more ∧
    lower first.txid = first.txid ∧
    prepared.dataBufferArray.mapM (carrierScript enc.lib r.encoding request.compressedPubKey
      first.txid) = some scripts ∧ scripts <+: r.psbt.scripts
  reveal : ∀ hash, request.p2shHash = some hash → r.encoding = .p2sh ∨ r.encoding = .p2wsh →
    ∃ tx hex data, request.p2shHex = some hex ∧ enc.lib.transactionFromHex hex = some tx ∧
      obfuscate enc.lib (revealMarker r.encoding) tx.id = some data ∧
      [embedScript data] <+: r.psbt.scripts ∧ r.psbt.outpoints ≠ [] ∧
      ∀ o ∈ r.psbt.outpoints, o.txid = lower tx.id

theorem carried_of_chosen (hcarried : CarriedBy enc plan emitted) {start sel : Selection}
    (hplain : plan.prepared.encoding = .opReturn ∨ plan.prepared.encoding = .multisign)
    (hnone : plan.hasActionPayload = false → plan.prepared.dataBufferArray = [])
    (hchosen : Chosen plan emitted (KeptSelection emitted) start sel) :
    ∃ first more scripts, sel.psbt.outpoints = first :: more ∧ lower first.txid = first.txid ∧
      plan.prepared.dataBufferArray.mapM (carrierScript enc.lib plan.prepared.encoding
        plan.request.compressedPubKey first.txid) = some scripts ∧ scripts <+: sel.psbt.scripts := by
  have hkept := hchosen.invariant hcarried.funding
  have hcount : sel.selectedInputCount ≠ 0 := by
    obtain ⟨_, -, hne⟩ := bind_eq_ok.mp (hchosen.nonempty hcarried.funding)
    simpa using hne
  obtain ⟨first, more, hout⟩ : ∃ first more, sel.psbt.outpoints = first :: more := by
    refine List.exists_cons_of_ne_nil fun hnil => hcount ?_
    rw [hkept.count, hnil]
    rfl
  obtain ⟨scripts, hscripts, hfront⟩ := hcarried.scripts
  refine ⟨first, more, scripts, hout, hkept.lowercase first (hout ▸ List.mem_cons_self), ?_, ?_⟩
  · by_cases hbuffers : plan.prepared.dataBufferArray = []
    · rw [hbuffers] at hscripts ⊢
      exact hscripts
    · -- The check compared the key with the first input.
      have haction : plan.hasActionPayload = true := by
        by_contra h
        exact hbuffers (hnone (Bool.not_eq_true _ ▸ h))
      have hrace := hchosen.race hcarried.funding
      rw [hcarried.key] at hrace
      cases hkey : plan.bound.txidFirstInput with
      | none =>
        obtain ⟨chunk, rest, hcons⟩ := List.exists_cons_of_ne_nil hbuffers
        rw [hkey, hcons] at hscripts
        simp [carrierScripts] at hscripts
      | some key =>
        have hfirst : key = first.txid := by
          rw [hkey] at hrace
          have hcheck : (plan.hasActionPayload && (decide (plan.prepared.encoding = .opReturn) ||
              decide (plan.prepared.encoding = .multisign))) = true := by
            simpa [haction] using hplain
          simp only [refuseFirstInputRace, hcheck, if_true, ensure_eq_ok, decide_eq_true_eq] at hrace
          rw [Psbt.outpoints] at hout
          obtain ⟨input, inputs, hinputs, rfl, -⟩ := List.map_eq_cons_iff.mp hout
          rw [hinputs] at hrace
          exact (Option.some.inj hrace).symm
        rw [hkey, hfirst] at hscripts
        simpa only [carrierScripts, Option.bind_some] using hscripts
  · rw [Psbt.scripts, hkept.outputs]
    exact hfront

/-- A selection that a reveal goes on with, and one that a funding build has made. -/
def Selects (emitted : Emitted) (reveal : Bool) (sel : Selection) : Prop :=
  reveal = false → KeptSelection emitted sel

theorem selects_invariant {reveal : Bool} :
    SelectionInvariant enc plan emitted (Selects emitted reveal) where
  skip _ h hfunding := (h hfunding).skip
  add u _ _ hu h hadds hfunding := kept_invariant.add u _ _ hu (h hfunding) hadds

theorem legs_txid {hash : Text} {n : ℕ} {o : Outpoint} (h : o ∈ legs (some hash) n) :
    o.txid = lower hash := by
  obtain ⟨i, -, rfl⟩ := List.mem_map.mp h
  rfl

theorem legs_ne_nil {hash : Text} {n : ℕ} (h : n ≠ 0) : legs (some hash) n ≠ [] := by
  simpa [legs] using h

/-- What was emitted, whichever the carrier. -/
structure EmittedFor (enc : Encoder) (plan : Plan) (emitted : Emitted) : Prop where
  outpoints : emitted.psbt.outpoints =
    legs plan.request.p2shHash plan.prepared.dataBufferArray.length
  carried : plan.prepared.encoding = .opReturn ∨ plan.prepared.encoding = .multisign →
    CarriedBy enc plan emitted
  marked : ∀ hash, plan.request.p2shHash = some hash →
    plan.prepared.encoding = .p2sh ∨ plan.prepared.encoding = .p2wsh → MarkedBy enc plan hash emitted

theorem returns_emitOutputs_for :
    Returns (fun r => EmittedFor enc plan r.2) (emitOutputs enc plan) := by
  have hcarried : Returns (fun r => plan.prepared.encoding = .opReturn ∨
      plan.prepared.encoding = .multisign → CarriedBy enc plan r.2) (emitOutputs enc plan) := by
    by_cases hplain : plan.prepared.encoding = .opReturn ∨ plan.prepared.encoding = .multisign
    · exact always_mono (fun _ h _ => h) (fun _ h => h) (returns_emitOutputs_carried hplain)
    · exact always_mono (fun _ _ h => absurd h hplain) (fun _ h => h) always_true
  have hmarked : Returns (fun r => ∀ hash, plan.request.p2shHash = some hash →
      plan.prepared.encoding = .p2sh ∨ plan.prepared.encoding = .p2wsh →
      MarkedBy enc plan hash r.2) (emitOutputs enc plan) := by
    cases hhash : plan.request.p2shHash with
    | none => exact always_mono (fun _ _ _ h => by cases h) (fun _ h => h) always_true
    | some hash =>
      by_cases hfamily : plan.prepared.encoding = .p2sh ∨ plan.prepared.encoding = .p2wsh
      · refine always_mono (fun _ h _ heq _ => ?_) (fun _ h => h)
          (returns_emitOutputs_marked hhash hfamily)
        cases heq
        exact h
      · exact always_mono (fun _ _ _ _ h => absurd h hfamily) (fun _ h => h) always_true
  exact always_mono (fun _ h => ⟨h.1.1, h.2.1, h.2.2⟩) (fun _ _ => trivial)
    (always_and returns_emitOutputs (always_and hcarried hmarked))

/-- The carrier of a build is keyed by what its transaction spends first. -/
structure KeyedBuild (enc : Encoder) (request : TxRequest) (b : Built) : Prop where
  prepared : preparedPayload enc request = .ok b.plan.prepared
  request_eq : b.plan.request = request
  outpoints : b.psbt.outpoints = b.selection.psbt.outpoints
  scripts : b.selection.psbt.scripts <+: b.psbt.scripts
  emitted : EmittedFor enc b.plan b.emitted
  buffers : b.plan.hasActionPayload = false → b.plan.prepared.dataBufferArray = []
  chosen : ∃ start, initSelection request.fee b.emitted = .ok start ∧
    Chosen b.plan b.emitted (Selects b.emitted b.plan.isReveal) start b.selection

theorem returns_buildSteps_keyed : Returns (KeyedBuild enc request) (buildSteps enc request) := by
  refine .bind (returns_prepareBuild request) fun pre hpre => .bind_right fun bound => ?_
  refine .bind (R := KeyedBuild enc request) ?_ fun b hb => returns_finishBuild hb
  refine .bind (returns_ofExcept fun _ h => h) fun plan hplan => ?_
  obtain ⟨hrequest, -, hprepared⟩ := planBuild_eq_ok hpre hplan
  obtain ⟨-, -, hbuffers⟩ := planBuild_bound hplan
  refine .bind returns_emitOutputs_for fun r hr => ?_
  obtain ⟨price, emitted⟩ := r
  refine .bind (returns_ofExcept fun _ h => h) fun start hstart => ?_
  have hselects : Selects emitted plan.isReveal start := by
    refine fun hfunding => kept_start ?_ hstart
    have hnone : plan.request.p2shHash = none := by simpa [Plan.isReveal] using hfunding
    rw [hr.outpoints, hnone]
    rfl
  refine .bind (returns_selectFundingInputs selects_invariant hselects) fun sel hsel => ?_
  refine always_mono (fun b hb => ?_) (fun _ _ => trivial)
    (always_and (returns_settleBuild price)
      (always_and returns_settleBuild_scripts (returns_settled price sel)))
  obtain ⟨houtpoints, hscripts, hplan', -, hemitted, hselection, -⟩ := hb
  subst hplan' hemitted hselection
  exact ⟨hprepared, hrequest, houtpoints, hscripts, hr, hbuffers, start, hstart, hsel⟩

/-- **A finished build is keyed by its own first input.** -/
theorem KeyedBuild.result {b : Built} (h : KeyedBuild enc request b)
    (receipt : Option Receipt) :
    KeyedByFirstInput enc request { b.result with reservation := receipt } := by
  obtain ⟨start, hstart, hchosen⟩ := h.chosen
  refine ⟨fun hplain => ?_, fun hash hhash hfamily => ?_⟩
  · have hcarried := h.emitted.carried hplain
    have hkept : Chosen b.plan b.emitted (KeptSelection b.emitted) start b.selection :=
      ⟨hchosen.reveal, fun hf => hchosen.invariant hf hf, hchosen.nonempty, hchosen.race⟩
    obtain ⟨first, more, scripts, hout, hlower, hscripts, hfront⟩ :=
      carried_of_chosen hcarried hplain h.buffers hkept
    rw [h.request_eq] at hscripts
    exact ⟨_, first, more, scripts, h.prepared, h.outpoints.trans hout, hlower, hscripts,
      hfront.trans h.scripts⟩
  · rw [← h.request_eq] at hhash ⊢
    have hmarked := h.emitted.marked hash hhash hfamily
    obtain ⟨tx, hex, data, hhex, hparsed, hnamed, hdata, hfront⟩ := hmarked.marker
    have hsel : b.selection = start := hchosen.reveal (by simp [Plan.isReveal, hhash])
    have hscripts : b.emitted.psbt.scripts <+: b.psbt.scripts := by
      have := h.scripts
      rwa [hsel, Psbt.scripts, initSelection_psbt hstart] at this
    have hout : b.psbt.outpoints = legs (some hash) b.plan.prepared.dataBufferArray.length := by
      rw [h.outpoints, hsel, initSelection_psbt hstart, h.emitted.outpoints, hhash]
    refine ⟨tx, hex, data, hhex, hparsed, hdata, hfront.trans hscripts, ?_, fun o ho => ?_⟩
    · show b.psbt.outpoints ≠ []
      rw [hout]
      exact legs_ne_nil (by simpa using hmarked.nonempty)
    · have ho : o ∈ b.psbt.outpoints := ho
      rw [hout] at ho
      rw [legs_txid ho, hnamed]

theorem returns_createTransaction_keyed (request : TxRequest) :
    Returns (KeyedByFirstInput enc request) (createTransaction enc request) := by
  refine always_mono (fun r hr => ?_) (fun _ h => h) (returns_createTransaction returns_buildSteps_keyed)
  obtain ⟨b, receipt, hb, rfl⟩ := hr
  exact hb.result receipt

/-! ## The claimed outpoint -/

/-- The transaction spends first what its call claimed first. Binding claims before selection does. -/
def SpendsFirstClaim (call : EncoderCall) (psbt : Psbt) : Prop :=
  ∀ key ∈ (call.ledger.claims.map Claim.key).head?, psbt.outpoints.head? = some key

/-- At its first reading of the clock the call finds no free candidate but the leg that its reveal
spends first. -/
def ClaimsFirstLeg (enc : Encoder) (request : TxRequest) (call : EncoderCall) : Prop :=
  ∀ h candidates prepared reading u, request.p2shHash = some h →
    filterAndOrderUtxos request request.utxos = .ok candidates →
    preparedPayload enc request = .ok prepared → call.seen.head? = some reading →
    firstFree reading.1 reading.2 candidates = some u →
    (legs (some h) prepared.dataBufferArray.length).head? = some (outpointKey u)

/-- **A finished build spends first what it claimed first, exactly when no reveal claimed another
output than its first leg.** -/
theorem BuiltAt.first_iff {c : EncoderCall} {psbt : Psbt} (h : BuiltAt enc request c psbt) :
    SpendsFirstClaim c psbt ↔ ClaimsFirstLeg enc request c := by
  cases hhash : request.p2shHash with
  | none =>
    refine iff_of_true (fun key hkey => h.funding hhash ▸ hkey) ?_
    intro txid _ _ _ _ htxid
    cases hhash.symm.trans htxid
  | some txid =>
    have hone : (c.ledger.claims.map Claim.key).length ≤ 1 := by
      obtain ⟨candidates, prepared, -, -, -, -, hkeys⟩ := h.reveal txid hhash
      rw [hkeys]
      exact Option.length_toList_le
    have hhead : SpendsFirstClaim c psbt ↔
        ∀ key ∈ c.ledger.claims.map Claim.key, psbt.outpoints.head? = some key := by
      unfold SpendsFirstClaim
      match hc : c.ledger.claims.map Claim.key, hone with
      | [], _ => simp
      | [key], _ => simp
    rw [hhead, h.claimed_reveal_iff hhash fun outpoints key => outpoints.head? = some key]
    constructor
    · intro hclaimed txid' candidates prepared reading u htxid
      cases hhash.symm.trans htxid
      exact hclaimed candidates prepared reading u
    · exact fun hleg candidates prepared reading u => hleg txid candidates prepared reading u hhash

/-- **The obfuscation key is the txid of the first input.** Every transaction that a call returns, in
every run, is keyed by the input it spends first, a reveal's marker by the transaction it spends. It
spends first what its call claimed first exactly when no reveal claimed another output than its first
leg. From a claim of binding on, no build is refused for another key, and one that selects its inputs
spends the claimed outpoint first. -/
theorem obfuscationKey_firstInput (enc : Encoder) :
    (∀ (clock : ℕ) (events : List (Event sig Command)) (p : ℕ) (call : EncoderCall),
      (encoderRun enc clock events).cfg.calls p = some call → ∀ (r : TxResult) (t : ℕ),
      call.stage = .returned (.transaction r) t →
      ∃ request, call.command = .createTransaction request ∧ KeyedByFirstInput enc request r) ∧
    (∀ (clock : ℕ) (events : List (Event sig Command)) (ev : Event sig Command) (p : ℕ)
      (call : EncoderCall) (r : TxResult) (t : ℕ) (request : TxRequest),
      ev.runs (encoderRun enc clock events) = some p →
      (encoderRun enc clock (events ++ [ev])).cfg.calls p = some call →
      call.stage = .returned (.transaction r) t → call.command = .createTransaction request →
      (SpendsFirstClaim call r.psbt ↔ ClaimsFirstLeg enc request call)) ∧
    ∀ (request : TxRequest) (pre : Prepared), pre.candidates ≠ [] →
      bindObfuscationKey request.exactInputs pre.candidates = (.now fun t => .get fun s l =>
        .put (bindAt request.exactInputs pre.candidates t l s).2.2
          (bindAt request.exactInputs pre.candidates t l s).2.1
          (Coro.ofExcept (bindAt request.exactInputs pre.candidates t l s).1)) ∧
      ∀ (t : ℕ) (l : Ledger) (s : Reservations) (bound : Bound) (key : Outpoint)
        (more : List Outpoint),
        (bindAt request.exactInputs pre.candidates t l s).1 = .ok bound →
        (bindAt request.exactInputs pre.candidates t l s).2.1.claims.map Claim.key =
          l.claims.map Claim.key ++ key :: more →
        Always (fun b => request.p2shHash = none → b.psbt.outpoints.head? = some key) NotRace
          ((buildFromBound enc request pre bound).bind (finishBuild enc)) := by
  refine ⟨transaction_run returns_createTransaction_keyed, ?_, ?_⟩
  · intro clock events ev p call r t request hev hcall hs hcommand
    rw [encoderRun_append] at hcall
    obtain ⟨y, rfl, -, hret⟩ := returned_step (encoderRun_sound enc clock events) hev hcall hs
    have hcommand' : y.call.command = .createTransaction request := hcommand
    obtain ⟨request', hrequest', hbuilt⟩ := hret.ended
    cases hcommand'.symm.trans hrequest'
    exact hbuilt.first_iff
  · exact fun _ _ hne => ⟨bindObfuscationKey_eq hne, fun _ _ _ _ _ _ hbound hclaimed =>
      always_buildFromBound (bindAt_first hbound hclaimed)⟩

/-- The reveal of `legUtxo` spends what it claimed, and a payment of two claimed inputs spends the
first one first from any binding of them on. -/
theorem obfuscationKey_firstInput_leg :
    (∃ call r, (revealRun [legUtxo]).cfg.calls 0 = some call ∧ returnedTransaction call = some r ∧
      call.ledger.claims.map Claim.key = [⟨legFunding.id, 0⟩] ∧ SpendsFirstClaim call r.psbt ∧
      KeyedByFirstInput revealEncoder (sampleReveal [legUtxo]) r) ∧
    ∃ bound, (bindAt true exactPayment.utxos 0 Ledger.empty Reservations.empty).1 = .ok bound ∧
      ∀ pre : Prepared, pre.candidates = exactPayment.utxos →
        Always (fun b => exactPayment.p2shHash = none →
          b.psbt.outpoints.head? = some ⟨dogeFunding.id, 0⟩) NotRace
          ((buildFromBound dogeEncoder exactPayment pre bound).bind (finishBuild dogeEncoder)) := by
  refine ⟨?_, ?_⟩
  · obtain ⟨call, r, hcall, hr, hcommand, -, hclaims⟩ := legReveal_run
    obtain ⟨t, hs⟩ := returnedTransaction_eq_some hr
    have hev : Event.runs (encoderRun revealEncoder 0 (revealBuild [legUtxo])) (answer 0) =
        some 0 := by
      decide +kernel
    refine ⟨call, r, hcall, hr, hclaims, ((obfuscationKey_firstInput revealEncoder).2.1 0
      (revealBuild [legUtxo]) (answer 0) 0 call r t _ hev hcall hs hcommand).mpr ?_, ?_⟩
    · intro h candidates prepared reading u hhash hcand hprep _ hfree
      cases hhash
      rw [legReveal_free hcand hfree, legReveal_legs hprep]
      rfl
    · obtain ⟨request, hrequest, hkeyed⟩ := (obfuscationKey_firstInput revealEncoder).1 0 _ 0 call
        hcall r t hs
      cases hcommand.symm.trans hrequest
      exact hkeyed
  · have hclaims : (claimExactInputs 0 exactPayment.utxos Ledger.empty Reservations.empty).1 = .ok () ∧
        (bindAt true exactPayment.utxos 0 Ledger.empty Reservations.empty).2.1.claims.map Claim.key =
          [⟨dogeFunding.id, 0⟩, ⟨dogeFunding.id, 1⟩] := by
      decide +kernel
    have hbound : (bindAt true exactPayment.utxos 0 Ledger.empty Reservations.empty).1 =
        .ok ⟨exactPayment.utxos, none, exactPayment.utxos.head?.map fun u => lower u.txid⟩ := by
      simp only [bindAt, if_true, hclaims.1]
      rfl
    refine ⟨_, hbound, fun pre hpre => ?_⟩
    have hne : pre.candidates ≠ [] := by
      rw [hpre]
      exact List.cons_ne_nil _ _
    exact ((obfuscationKey_firstInput dogeEncoder).2.2 exactPayment pre hne).2 0 Ledger.empty
      Reservations.empty _ _ _ (hpre ▸ hbound) (hpre ▸ hclaims.2)

/-- **A reveal claims an outpoint that it does not spend first**: binding claims output `7` of
`sampleTxid`, and the transaction spends the leg alone. -/
theorem strayReveal_spendsLeg : ∃ call r, (revealRun [witnessUtxo 7 50000]).cfg.calls 0 = some call ∧
    returnedTransaction call = some r ∧
    (bindAt false [witnessUtxo 7 50000] 0 Ledger.empty Reservations.empty).2.1.claims.map Claim.key =
      [⟨sampleTxid, 7⟩] ∧
    call.ledger.claims.map Claim.key = [⟨sampleTxid, 7⟩] ∧
    r.psbt.outpoints = [⟨legFunding.id, 0⟩] ∧ ¬ SpendsFirstClaim call r.psbt := by
  obtain ⟨-, call, r, hcall, -, hr, hout, hclaims, -⟩ := strayReveal_run
  refine ⟨call, r, hcall, hr, by decide +kernel, hclaims, hout, fun h => ?_⟩
  have hfirst := h ⟨sampleTxid, 7⟩ (by rw [hclaims]; rfl)
  rw [hout] at hfirst
  exact absurd hfirst (by decide)

end XChain
