import XChainEncoder.Payouts
import XChainEncoder.ReservedInputs
import XChainEncoder.SignedFees

/-!
# What a script-hash reveal pays

The reveal spends every leg of its funding transaction, writes its marker, makes the payments and
returns what its fee does not need.

* `legInput`, `returns_emitDataOutputs_reveals`: one input a chunk, checked against the funded output;
* `emitRevealPad_unneeded`: no pad where the commit funded none;
* `KeptShare`, `SweptBy`, `emitSweep_rest`: what the reveal keeps, and the surplus of the legs that
  goes back;
* `reveal_pays`: **what a reveal spends, pays and keeps**.
-/

namespace XChain

open PushScript Coroutine

variable {enc : Encoder} {plan : Plan} {emitted : Emitted} {request : TxRequest} {hash : Text}
  {tx : ParsedTx}

/-! ## The legs -/

/-- The script of the funded output that pays to a chunk. -/
def legScript (enc : Encoder) (plan : Plan) (chunk : Bytes) : Bytes :=
  if plan.prepared.encoding = .p2sh then p2shScript enc.lib chunk else p2wshScript enc.lib chunk

/-- The input that spends the leg of a chunk. -/
def legInput (plan : Plan) (hash : Text) (tx : ParsedTx) (i : ℕ) (chunk : Bytes) : PsbtInput where
  hash := lower hash
  index := i
  sequence := plan.utxoSequence
  witnessUtxo := if plan.prepared.encoding = .p2sh then none else tx.outs[i]?
  nonWitnessUtxo := if plan.prepared.encoding = .p2sh then some tx else none
  redeemScript := if plan.prepared.encoding = .p2sh then some chunk else none
  witnessScript := if plan.prepared.encoding = .p2sh then none else some chunk

/-- A transaction with the reveal's marker, and an input for each chunk. -/
structure RevealPsbt (enc : Encoder) (plan : Plan) (hash : Text) (tx : ParsedTx)
    (chunks : List Bytes) (psbt : Psbt) : Prop where
  inputs : psbt.inputs = chunks.mapIdx (legInput plan hash tx)
  outputs : ∃ data, obfuscate enc.lib (revealMarker plan.prepared.encoding) tx.id = some data ∧
    psbt.outputs = [⟨embedScript data, 0⟩]

/-- A reveal that has spent the legs of `chunks`. -/
structure Reveals (enc : Encoder) (plan : Plan) (hash : Text) (tx : ParsedTx) (chunks : List Bytes)
    (e : Emission) : Prop where
  parsed : ∃ hex, plan.request.p2shHex = some hex ∧ enc.lib.transactionFromHex hex = some tx
  named : lower hash = lower tx.id
  loaded : e.p2shTx = some tx
  key : e.txidFirstInput = some tx.id
  index : e.voutPsbtIndex = chunks.length
  unmarked : e.revealPrefund = none
  nothing : e.outputSatoshis = 0
  legs : ∀ (i : ℕ) (chunk : Bytes), chunks[i]? = some chunk →
    ∃ leg : TxOut, tx.outs[i]? = some leg ∧ leg.script = legScript enc plan chunk
  fresh : e.psbt = none → chunks = []
  psbt : ∀ psbt, e.psbt = some psbt → RevealPsbt enc plan hash tx chunks psbt ∧
    psbt.inputTotal = some e.phaseLegInputSatoshis
  start : e.psbt = none → e.phaseLegInputSatoshis = 0

/-- Nothing is emitted yet, or the funding transaction has been read. -/
def RevealsFrom (enc : Encoder) (plan : Plan) (price : RevealOutputsPrice) (hash : Text)
    (chunks : List Bytes) (e : Emission) : Prop :=
  chunks = [] ∧ e = Emission.start plan price ∨ ∃ tx, Reveals enc plan hash tx chunks e

/-- The funding transaction is read before the first leg, if it is given. -/
theorem loadFundingTx_reveals (hhash : plan.request.p2shHash = some hash)
    {price : RevealOutputsPrice} {chunks : List Bytes} {e e' : Emission}
    (he : RevealsFrom enc plan price hash chunks e) (h : loadFundingTx enc plan e = .ok e') :
    e'.p2shTx = none ∨ ∃ tx, Reveals enc plan hash tx chunks e' := by
  rcases he with ⟨rfl, rfl⟩ | ⟨tx, hr⟩
  · unfold loadFundingTx at h
    have hpsbt : (Emission.start plan price).psbt = none := by
      simp [Emission.start, Plan.isReveal, hhash]
    split at h
    · rename_i hex hhex hnone
      split at h
      · cases h
      · rename_i tx hparsed
        obtain ⟨_, hmatch, heq⟩ := bind_eq_ok.mp h
        cases heq
        have hnamed : lower hash = lower tx.id := by
          rw [hhash, Option.getD_some] at hmatch
          simpa [assertRevealFundingTxMatches] using hmatch
        refine .inr ⟨tx, ⟨hex, hhex, hparsed⟩, hnamed, rfl, rfl, rfl, rfl, rfl, by simp, ?_, ?_, ?_⟩
        · exact fun _ => rfl
        · exact fun psbt hp => by cases hpsbt.symm.trans hp
        · exact fun _ => rfl
    · cases h
      exact .inl rfl
  · unfold loadFundingTx at h
    rw [hr.loaded] at h
    split at h
    · rename_i heq
      cases heq
    · cases h
      exact .inr ⟨tx, hr⟩

/-- The transaction of the reveal, made with its marker at the first leg. -/
theorem returns_startReveal_psbt {chunks : List Bytes} {e : Emission} {marker : Bytes}
    (hmarker : revealMarker plan.prepared.encoding = marker)
    (he : Reveals enc plan hash tx chunks e) :
    Returns (fun r => RevealPsbt enc plan hash tx chunks r.1 ∧
      r.1.inputTotal = some e.phaseLegInputSatoshis) (startReveal enc marker e) := by
  unfold startReveal
  cases hp : e.psbt with
  | some psbt => exact he.psbt psbt hp
  | none =>
    refine .bind (returns_awaitObfuscate marker e.txidFirstInput) fun data hdata => ?_
    rw [he.key, Option.bind_some] at hdata
    refine .bind (returns_ofExcept fun psbt ho => ?_ : Returns (fun psbt : Psbt =>
      RevealPsbt enc plan hash tx chunks psbt ∧
      psbt.inputTotal = some e.phaseLegInputSatoshis) _) fun psbt hpsbt => hpsbt
    obtain ⟨-, -, rfl⟩ := Psbt.addOutput_eq_ok.mp ho
    rw [he.fresh hp, he.start hp]
    exact ⟨⟨rfl, data, hmarker ▸ hdata, rfl⟩, rfl⟩

theorem addLegInput_reveals {chunks : List Bytes} {chunk : Bytes} {e e' : Emission} {psbt : Psbt}
    {leg : TxOut} {input : PsbtInput} {size : ℕ} (he : Reveals enc plan hash tx chunks e)
    (hpsbt : RevealPsbt enc plan hash tx chunks psbt ∧
      psbt.inputTotal = some e.phaseLegInputSatoshis)
    (hleg : tx.outs[chunks.length]? = some leg) (hscript : leg.script = legScript enc plan chunk)
    (hinput : { input with hash := lower input.hash } = legInput plan hash tx chunks.length chunk)
    (hvalue : input.spentValue = some leg.value)
    (h : addLegInput enc psbt e leg input size = .ok e') :
    Reveals enc plan hash tx (chunks ++ [chunk]) e' := by
  simp only [addLegInput, bind_eq_ok] at h
  obtain ⟨psbt', hadd, heq⟩ := h
  cases heq
  have htotal := inputTotal_addInput hpsbt.2 hvalue hadd
  obtain ⟨-, -, rfl⟩ := Psbt.addInput_eq_ok.mp hadd
  refine ⟨he.parsed, he.named, he.loaded, he.key, ?_, he.unmarked, he.nothing, ?_, ?_, ?_, ?_⟩
  · rw [List.length_append, ← he.index]
    rfl
  · intro i c hc
    rcases lt_trichotomy i chunks.length with hi | rfl | hi
    · rw [List.getElem?_append_left hi] at hc
      exact he.legs i c hc
    · rw [List.getElem?_concat_length] at hc
      cases hc
      exact ⟨leg, hleg, hscript⟩
    · have hlt := (List.getElem?_eq_some_iff.mp hc).1
      rw [List.length_append, List.length_singleton] at hlt
      omega
  · rintro ⟨⟩
  · rintro _ ⟨⟩
    refine ⟨⟨?_, hpsbt.1.outputs⟩, htotal⟩
    dsimp only
    rw [hpsbt.1.inputs, List.mapIdx_concat, hinput]
  · rintro ⟨⟩

theorem nextLeg_eq_ok {chunks : List Bytes} {e : Emission} {leg : TxOut}
    (he : Reveals enc plan hash tx chunks e) (h : nextLeg e = .ok leg) :
    tx.outs[chunks.length]? = some leg := by
  unfold nextLeg at h
  rw [he.loaded, Option.bind_some, he.index] at h
  cases hout : tx.outs[chunks.length]? with
  | none =>
    rw [hout] at h
    cases h
  | some out =>
    rw [hout] at h
    cases h
    rfl

/-- **Every chunk of a reveal spends the output that was funded for it.** -/
theorem returns_emitChunk_reveals {price : RevealOutputsPrice}
    (hhash : plan.request.p2shHash = some hash)
    (hfamily : plan.prepared.encoding = .p2sh ∨ plan.prepared.encoding = .p2wsh)
    {chunks : List Bytes} {e : Emission} (he : RevealsFrom enc plan price hash chunks e)
    (chunk : Bytes) :
    Returns (fun e' => ∃ tx, Reveals enc plan hash tx (chunks ++ [chunk]) e')
      (emitChunk enc plan price e chunk) := by
  unfold emitChunk
  rcases hfamily with hcarrier | hcarrier
  · rw [hcarrier]
    refine .bind (returns_ofExcept fun e' h => loadFundingTx_reveals hhash he h) fun e' he' => ?_
    rw [hhash]
    rcases he' with hnone | ⟨tx, hr⟩
    · refine .bind_right fun r => .bind (returns_ofExcept fun leg hleg => nextLeg_tx hleg) ?_
      exact fun leg hleg => absurd hnone hleg
    · refine .bind (returns_startReveal_psbt (by rw [hcarrier]; rfl) hr) fun r hpsbt => ?_
      obtain ⟨psbt, data⟩ := r
      refine .bind (returns_ofExcept fun leg hleg => nextLeg_eq_ok hr hleg) fun leg hleg => ?_
      refine .bind (returns_ofExcept fun _ h => ensure_eq_ok.mp h) fun _ hscript => ?_
      refine returns_ofExcept fun e'' h => ⟨tx, addLegInput_reveals hr hpsbt hleg ?_ ?_ ?_ h⟩
      · simpa [legScript, hcarrier] using hscript
      · simp [legInput, hcarrier, hr.index, hr.loaded]
      · simp [PsbtInput.spentValue, hr.loaded, hr.index, hleg]
  · rw [hcarrier]
    refine .bind (returns_ofExcept fun e' h => loadFundingTx_reveals hhash he h) fun e' he' => ?_
    rw [hhash]
    rcases he' with hnone | ⟨tx, hr⟩
    · refine .bind_right fun r => .bind (returns_ofExcept fun leg hleg => nextLeg_tx hleg) ?_
      exact fun leg hleg => absurd hnone hleg
    · refine .bind (returns_startReveal_psbt (by rw [hcarrier]; rfl) hr) fun r hpsbt => ?_
      obtain ⟨psbt, data⟩ := r
      refine .bind (returns_ofExcept fun leg hleg => nextLeg_eq_ok hr hleg) fun leg hleg => ?_
      refine .bind (returns_ofExcept fun _ h => ensure_eq_ok.mp h) fun _ hscript => ?_
      refine returns_ofExcept fun e'' h => ⟨tx, addLegInput_reveals hr hpsbt hleg ?_ ?_ ?_ h⟩
      · simpa [legScript, hcarrier] using hscript
      · simp [legInput, hcarrier, hr.index, hleg]
      · simp [PsbtInput.spentValue]

theorem returns_emitDataOutputs_reveals {price : RevealOutputsPrice}
    (hhash : plan.request.p2shHash = some hash)
    (hfamily : plan.prepared.encoding = .p2sh ∨ plan.prepared.encoding = .p2wsh)
    (more : List Bytes) {chunks : List Bytes} {e : Emission}
    (he : RevealsFrom enc plan price hash chunks e) :
    Returns (RevealsFrom enc plan price hash (chunks ++ more))
      (emitDataOutputs enc plan price more e) := by
  induction more generalizing chunks e with
  | nil =>
    rw [List.append_nil]
    exact he
  | cons chunk rest ih =>
    refine .bind (returns_emitChunk_reveals hhash hfamily he chunk) fun e' he' => ?_
    have hsplit : chunks ++ chunk :: rest = chunks ++ [chunk] ++ rest := by simp
    rw [hsplit]
    exact ih (.inr he')

/-! ## Emission -/

/-- What a reveal has emitted: its marker, then the payments, over inputs that spend its legs. -/
structure RevealLaidOut (enc : Encoder) (plan : Plan) (hash : Text) (tx : ParsedTx)
    (emitted : Emitted) : Prop where
  emission : Reveals enc plan hash tx plan.prepared.dataBufferArray emitted.emission
  inputs : emitted.psbt.inputs = plan.prepared.dataBufferArray.mapIdx (legInput plan hash tx)
  total : emitted.psbt.inputTotal = some emitted.emission.phaseLegInputSatoshis
  outputs : ∃ data pays, obfuscate enc.lib (revealMarker plan.prepared.encoding) tx.id = some data ∧
    emitted.psbt.outputs = ⟨embedScript data, 0⟩ :: pays ∧
    plan.payments.customOutputs.mapM (paymentOutput enc) = some pays ∧ ∀ out ∈ pays, 0 < out.value

theorem returns_emitOutputs_reveals (hhash : plan.request.p2shHash = some hash)
    (hfamily : plan.prepared.encoding = .p2sh ∨ plan.prepared.encoding = .p2wsh) :
    Returns (fun r => ∃ tx, RevealLaidOut enc plan hash tx r.2) (emitOutputs enc plan) := by
  have hreveal : plan.isReveal = true := by simp [Plan.isReveal, hhash]
  refine .bind_right fun price => ?_
  refine .bind (returns_emitDataOutputs_reveals hhash hfamily _ (.inl ⟨rfl, rfl⟩)) fun e he => ?_
  refine .bind (returns_ofExcept fun _ h => h) fun em hem => ?_
  rw [List.nil_append] at he
  simp only [emitCustomOutputs, bind_eq_ok, requirePsbt_eq_ok] at hem
  obtain ⟨psbt, hpsbt, acc, hacc, heq⟩ := hem
  cases heq
  obtain ⟨hinputs, pays, hpays, hmap, hpos⟩ := emitPayments_paid _ _ _ _ _ hacc
  rcases he with ⟨-, rfl⟩ | ⟨tx, hr⟩
  · simp [Emission.start, hreveal] at hpsbt
  · obtain ⟨hone, htotal⟩ := hr.psbt psbt hpsbt
    obtain ⟨data, hdata, houtputs⟩ := hone.outputs
    refine ⟨tx, hr, hinputs.trans hone.inputs, ?_, data, pays, hdata, ?_, ?_, hpos⟩
    · exact (inputTotal_of_inputs hinputs).trans htotal
    · rw [houtputs] at hpays
      exact hpays
    · simpa [hreveal] using hmap

theorem returns_emitOutputs_reveal (hplan : Planned enc request plan)
    (hhash : plan.request.p2shHash = some hash) :
    Returns (fun r => (plan.prepared.encoding = .p2sh ∨ plan.prepared.encoding = .p2wsh) ∧
      ∃ tx, RevealLaidOut enc plan hash tx r.2) (emitOutputs enc plan) := by
  have hplain : ∀ h : plan.prepared.encoding = .opReturn ∨ plan.prepared.encoding = .multisign,
      Returns (fun r => (plan.prepared.encoding = .p2sh ∨ plan.prepared.encoding = .p2wsh) ∧
        ∃ tx, RevealLaidOut enc plan hash tx r.2) (emitOutputs enc plan) := fun h => by
    refine always_mono (fun r hr => ?_) (fun _ h => h) (returns_emitOutputs_carried h)
    have hfunding := hr.funding
    simp [Plan.isReveal, hhash] at hfunding
  cases hcarrier : plan.prepared.encoding with
  | opReturn => exact hcarrier ▸ hplain (.inl hcarrier)
  | multisign => exact hcarrier ▸ hplain (.inr hcarrier)
  | taproot =>
    have hnone := (hplan.envelope hcarrier).1
    rw [← hplan.request_eq, hhash] at hnone
    cases hnone
  | p2sh =>
    exact always_mono (fun _ h => ⟨.inl rfl, h⟩) (fun _ h => h)
      (returns_emitOutputs_reveals hhash (.inl hcarrier))
  | p2wsh =>
    exact always_mono (fun _ h => ⟨.inr rfl, h⟩) (fun _ h => h)
      (returns_emitOutputs_reveals hhash (.inr hcarrier))

/-! ## The pad -/

theorem outputBytes_le_strippedSize (outputs : List TxOut) :
    (outputs.map fun out => 8 + (if out.script.length < 0xfd then 1 else 3) + out.script.length).sum ≤
      (outputs.map fun out => 8 + compactSizeLen out.script.length + out.script.length).sum := by
  induction outputs with
  | nil => exact le_rfl
  | cons out rest ih =>
    have hone : (if out.script.length < 0xfd then 1 else 3) ≤ compactSizeLen out.script.length := by
      unfold compactSizeLen
      split_ifs <;> omega
    simp only [List.map_cons, List.sum_cons]
    omega

theorem predictedPayments_eq {outputs : List CustomOutput} {pays : List TxOut}
    (hne : ∀ o ∈ outputs, o.address ≠ []) (h : outputs.mapM (paymentOutput enc) = some pays) :
    (outputs.map fun o => estimateOutputSizeForAddress enc.lib enc.network (some o.address)).sum =
      (pays.map fun out =>
        8 + (if out.script.length < 0xfd then 1 else 3) + out.script.length).sum := by
  induction outputs generalizing pays with
  | nil =>
    cases h
    rfl
  | cons o rest ih =>
    simp only [List.mapM_cons, Option.bind_eq_bind, Option.bind_eq_some_iff] at h
    obtain ⟨out, hout, more, hmore, heq⟩ := h
    cases heq
    obtain ⟨script, hscript, rfl⟩ := Option.map_eq_some_iff.mp hout
    have hrest := ih (fun o ho => hne o (List.mem_cons_of_mem _ ho)) hmore
    obtain ⟨c, cs, haddress⟩ := List.exists_cons_of_ne_nil (hne o List.mem_cons_self)
    rw [haddress] at hscript
    have hone : estimateOutputSizeForAddress enc.lib enc.network (some o.address) =
        8 + (if script.length < 0xfd then 1 else 3) + script.length := by
      simp only [haddress, estimateOutputSizeForAddress, hscript]
    rw [List.map_cons, List.sum_cons, List.map_cons, List.sum_cons, hone, hrest]

theorem length_marker {data : Bytes} {key : Text}
    (h : obfuscate enc.lib p2wshMarker key = some data) : (embedScript data).length = 11 := by
  have hlength : data.length = 9 := obfuscate_length h
  rw [length_embedScript (by omega) (by omega), hlength]
  rfl

/-- **A reveal that its commit did not fund a pad for needs none.** -/
theorem emitRevealPad_unneeded (hcarrier : plan.prepared.encoding = .p2wsh)
    (hneeds : revealNeedsFloorPad enc plan.prepared plan.payments.customOutputs = false)
    (hne : ∀ o ∈ plan.payments.customOutputs, o.address ≠ [])
    (hlaid : RevealLaidOut enc plan hash tx emitted) :
    emitRevealPad enc plan emitted.psbt = .ok emitted.psbt := by
  obtain ⟨data, pays, hdata, houtputs, hmap, -⟩ := hlaid.outputs
  unfold emitRevealPad revealNeedsFloorPad at *
  cases hfloor : enc.network.minStandardTxNonWitnessSize with
  | none => rfl
  | some floor =>
    simp only [hfloor, decide_eq_false_iff_not, not_lt] at hneeds
    dsimp only
    rw [if_neg]
    rintro ⟨-, -, hsmall⟩
    have hmarker : (embedScript data).length = 11 :=
      length_marker (by simpa [revealMarker, hcarrier] using hdata)
    have hpays := predictedPayments_eq hne hmap
    have hle := outputBytes_le_strippedSize pays
    have hins : 1 ≤ compactSizeLen emitted.psbt.inputs.length := by
      unfold compactSizeLen
      split_ifs <;> omega
    have houts : 1 ≤ compactSizeLen emitted.psbt.outputs.length := by
      unfold compactSizeLen
      split_ifs <;> omega
    have hcount : emitted.psbt.inputs.length = plan.prepared.dataBufferArray.length := by
      rw [hlaid.inputs, List.length_mapIdx]
    unfold strippedTxSize at hsmall
    rw [houtputs] at houts
    rw [hcount] at hsmall hins
    rw [houtputs, List.map_cons, List.sum_cons, hmarker] at hsmall
    have hlen : compactSizeLen 11 = 1 := rfl
    omega

/-! ## The sweep -/

/-- What a reveal keeps as its fee: its share, raised by at most what the operator allows, and only
out of what its legs hold beyond its outputs. -/
structure KeptShare (enc : Encoder) (emitted : Emitted) (share kept : ℤ) : Prop where
  least : share ≤ kept
  most : kept ≤ share + max enc.maxCpfpUpliftSat 0
  held : share < kept →
    kept ≤ emitted.emission.phaseLegInputSatoshis - emitted.outputSatoshis

theorem KeptShare.refl (kept : ℤ) : KeptShare enc emitted kept kept where
  least := le_rfl
  most := by omega
  held h := absurd h (lt_irrefl _)

theorem keptShare_clampRevealUplift (wanted kept : ℤ) :
    KeptShare enc emitted kept (clampRevealUplift enc plan emitted wanted kept) := by
  have hfloor := outputFloor_pos enc
  unfold clampRevealUplift
  dsimp only
  constructor <;> split_ifs <;> omega

theorem returns_upliftRevealForCommit (kept : ℤ) :
    Returns (KeptShare enc emitted kept) (upliftRevealForCommit enc plan emitted hash kept) := by
  unfold upliftRevealForCommit
  split_ifs
  · refine .bind_right fun reply => ?_
    rcases reply with _ | _ | package
    · exact .refl kept
    · exact .refl kept
    · dsimp only
      split_ifs
      · exact keptShare_clampRevealUplift _ kept
      · exact .refl kept
  · exact .refl kept

/-- The end of a reveal: what its legs hold beyond what it keeps goes back. -/
structure SweptBy (enc : Encoder) (b : Built) (kept : ℤ) : Prop where
  share : KeptShare enc b.emitted (revealFeeKept enc b.plan b.emitted b.estimatedFee) kept
  sweep : emitSweep enc b.plan b.emitted kept b.psbtWithChange = .ok b.psbt

/-- A finished reveal was swept, or had nothing to sweep. -/
def Swept (enc : Encoder) (b : Built) : Prop :=
  b.plan.request.p2shHash.isSome = true →
    if sweepsRevealSurplus enc b.plan ∧ 0 < b.emitted.emission.phaseLegInputSatoshis then
      ∃ kept, SweptBy enc b kept
    else b.psbt = b.psbtWithChange

theorem returns_settleBuild_swept (price : RevealOutputsPrice) (sel : Selection) :
    Returns (Swept enc) (settleBuild enc plan price emitted sel) := by
  refine .bind_right fun _ => .bind_right fun _ => .bind_right fun up => .bind_right fun r => ?_
  obtain ⟨prefunded, changeSatoshis, psbtWithChange⟩ := r
  have hsweep : Returns (fun psbt => plan.request.p2shHash.isSome = true →
      if sweepsRevealSurplus enc plan ∧ 0 < emitted.emission.phaseLegInputSatoshis then
        ∃ kept, KeptShare enc emitted (revealFeeKept enc plan emitted
            (floorEstimatedFee enc emitted up.estimatedFee)) kept ∧
          emitSweep enc plan emitted kept psbtWithChange = .ok psbt
      else psbt = psbtWithChange)
      (sweepP2shReveal enc plan emitted (floorEstimatedFee enc emitted up.estimatedFee)
        psbtWithChange) := by
    unfold sweepP2shReveal
    cases plan.request.p2shHash with
    | none => exact fun h => by cases h
    | some hash =>
      dsimp only
      by_cases hsweeps : sweepsRevealSurplus enc plan = true ∧
          0 < emitted.emission.phaseLegInputSatoshis
      · rw [if_pos hsweeps]
        refine .bind (returns_upliftRevealForCommit _) fun kept hkept => ?_
        refine returns_ofExcept fun psbt h _ => ?_
        rw [if_pos hsweeps]
        exact ⟨kept, hkept, h⟩
      · rw [if_neg hsweeps]
        intro _
        rw [if_neg hsweeps]
  refine .bind hsweep fun psbt hpsbt => .bind_right fun envelope hhash => ?_
  have hswept := hpsbt hhash
  dsimp only at hswept ⊢
  by_cases hsweeps : sweepsRevealSurplus enc plan = true ∧
      0 < emitted.emission.phaseLegInputSatoshis
  · rw [if_pos hsweeps] at hswept ⊢
    obtain ⟨kept, hshare, hswept⟩ := hswept
    exact ⟨kept, hshare, hswept⟩
  · rw [if_neg hsweeps] at hswept ⊢
    exact hswept

theorem returns_buildSteps_swept : Returns (Swept enc) (buildSteps enc request) := by
  refine .bind_right fun pre => .bind_right fun bound => ?_
  refine .bind (R := Swept enc) ?_ fun b hb => returns_finishBuild hb
  refine .bind_right fun plan => .bind_right fun r => ?_
  obtain ⟨price, emitted⟩ := r
  exact .bind_right fun start => .bind_right fun sel => returns_settleBuild_swept price sel

/-! ## Reveals -/

theorem Planned.addresses (h : Planned enc request plan) :
    ∀ o ∈ plan.payments.customOutputs, o.address ≠ [] := by
  rw [h.payments.1]
  intro o ho
  rcases List.mem_append.mp ho with ho | ho
  · obtain ⟨pre, bound, hpre, -⟩ := h.prepared
    have hpayments := hpre.payments
    simp only [checkPayloadInput, checkOutputAddresses, bind_eq_ok] at hpayments
    obtain ⟨_, ⟨_, haddresses, -⟩, -⟩ := hpayments
    obtain ⟨i, hi⟩ := List.mem_iff_getElem?.mp ho
    have hone := forIndexed_eq_ok.mp haddresses i o hi
    simp only [assertAddressOnNetwork, validateAddress, bind_eq_ok, ensure_eq_ok] at hone
    obtain ⟨_, ⟨_, hlength, -⟩, -⟩ := hone
    simpa using hlength
  · obtain ⟨q, hq, rfl⟩ := Option.map_eq_some_iff.mp (Option.mem_toList.mp ho)
    have hpayable := (Option.filter_eq_some_iff.mp hq).2
    simp only [Bool.and_eq_true, decide_eq_true_eq] at hpayable
    exact hpayable.1

theorem Settled.revealPad {b : Built} (h : Settled enc b)
    (hprefund : b.emitted.emission.revealPrefund = none) (hinputs : b.selection.inputSatoshis = 0)
    (houtputs : 0 ≤ b.emitted.outputSatoshis) (hsurcharge : 0 ≤ b.emitted.softDustSurcharge) :
    emitRevealPad enc b.plan b.selection.psbt = .ok b.psbtWithChange := by
  have hpos := enc.dustAmount_pos
  have hchange := h.change
  simp only [settleChange, bind_eq_ok] at hchange
  obtain ⟨pre, hpre, change, hchange, psbt, hemit, _, -, heq⟩ := hchange
  simp only [prefundRevealPackage, hprefund] at hpre
  cases hpre
  simp only [computeChange, bind_eq_ok] at hchange
  obtain ⟨_, -, _, -, hchange⟩ := hchange
  cases hchange
  have hsame := congrArg (fun r => r.2.2) (Except.ok.inj heq)
  simp only [emitChangeAndPad, bind_eq_ok] at hemit
  obtain ⟨psbt', hchange, hpad⟩ := hemit
  have hfee : 0 < floorEstimatedFee enc b.emitted b.uplifted.estimatedFee := by
    unfold floorEstimatedFee
    omega
  unfold emitChange at hchange
  split at hchange
  · rw [if_neg (by omega)] at hchange
    cases hchange
    rw [hpad]
    exact congrArg _ hsame
  · cases hchange
    rw [hpad]
    exact congrArg _ hsame

/-- How a reveal returns what its fee does not need: to the unit; or not at all, where it is less than
an output or no address for it is known. -/
structure ReturnsSurplus (enc : Encoder) (b : Built) (total kept : ℤ) : Prop where
  least : revealFeeKept enc b.plan b.emitted b.estimatedFee ≤ kept
  most : kept ≤ revealFeeKept enc b.plan b.emitted b.estimatedFee + max enc.maxCpfpUpliftSat 0
  held : revealFeeKept enc b.plan b.emitted b.estimatedFee < kept →
    b.emitted.psbt.outputTotal + kept ≤ total
  rest : total = b.psbt.outputTotal + kept ∨ b.psbt = b.emitted.psbt ∧
    (total < b.psbt.outputTotal + kept + enc.outputFloor ∨
      changeOrCaller enc b.plan.request = .ok [])

/-- What a finished reveal of the outputs of `tx` spends and pays. -/
structure PaysReveal (enc : Encoder) (request : TxRequest) (hash : Text) (b : Built)
    (tx : ParsedTx) : Prop where
  funded : ∃ hex, request.p2shHex = some hex ∧ enc.lib.transactionFromHex hex = some tx ∧
    lower hash = lower tx.id
  inputs : b.psbt.inputs = b.plan.prepared.dataBufferArray.mapIdx (legInput b.plan hash tx)
  legs : ∀ (i : ℕ) (chunk : Bytes), b.plan.prepared.dataBufferArray[i]? = some chunk →
    ∃ leg : TxOut, tx.outs[i]? = some leg ∧ leg.script = legScript enc b.plan chunk
  outputs : ∃ data pays own, b.psbt.outputs = ⟨embedScript data, 0⟩ :: pays ++ own ∧
    obfuscate enc.lib (revealMarker b.plan.prepared.encoding) tx.id = some data ∧
    (requestedPayments request).mapM (paymentOutput enc) = some pays ∧
    own.length ≤ 1 ∧ ∀ out ∈ own, OwnOutput enc request out
  surplus : sweepsRevealSurplus enc b.plan = true → ∃ total, b.psbt.inputTotal = some total ∧
    (0 < total → ∃ kept, ReturnsSurplus enc b total kept)

/-- The sweep returns the whole surplus, or nothing. -/
theorem emitSweep_rest {kept : ℤ} {psbt psbt' : Psbt}
    (htotal : psbt.outputTotal = emitted.outputSatoshis)
    (h : emitSweep enc plan emitted kept psbt = .ok psbt') :
    emitted.emission.phaseLegInputSatoshis = psbt'.outputTotal + kept ∨ psbt' = psbt ∧
      (emitted.emission.phaseLegInputSatoshis < psbt'.outputTotal + kept + enc.outputFloor ∨
        changeOrCaller enc plan.request = .ok []) := by
  unfold emitSweep at h
  dsimp only at h
  split_ifs at h with hworth
  · obtain ⟨address, haddress, hsweep⟩ := bind_eq_ok.mp h
    by_cases hnil : address = []
    · rw [if_pos hnil] at hsweep
      cases hsweep
      exact .inr ⟨rfl, .inr (hnil ▸ haddress)⟩
    · rw [if_neg hnil] at hsweep
      obtain ⟨script, -, hout⟩ := Psbt.addAddressOutput_eq_ok.mp hsweep
      have hadded := (Psbt.outputTotal_addOutput hout).1
      exact .inl (by omega)
  · cases h
    exact .inr ⟨rfl, .inl (by omega)⟩

theorem emitRevealPad_sweeps (hsweeps : sweepsRevealSurplus enc plan = true)
    (hne : ∀ o ∈ plan.payments.customOutputs, o.address ≠ [])
    (hlaid : RevealLaidOut enc plan hash tx emitted) :
    emitRevealPad enc plan emitted.psbt = .ok emitted.psbt := by
  simp only [sweepsRevealSurplus, Bool.or_eq_true, Bool.and_eq_true, decide_eq_true_eq,
    Bool.not_eq_eq_eq_not, Bool.not_true] at hsweeps
  rcases hsweeps with hcarrier | ⟨hcarrier, hneeds⟩
  · unfold emitRevealPad
    cases enc.network.minStandardTxNonWitnessSize with
    | none => rfl
    | some floor =>
      dsimp only
      rw [if_neg (by simp [hcarrier])]
  · exact emitRevealPad_unneeded hcarrier hneeds hne hlaid

theorem addsOwn_reveal {b : Built}
    (hpad : emitRevealPad enc b.plan b.emitted.psbt = .ok b.psbtWithChange)
    (hhash : b.plan.request.p2shHash = some hash) (hswept : Swept enc b)
    (hne : ∀ o ∈ b.plan.payments.customOutputs, o.address ≠ [])
    (hlaid : RevealLaidOut enc b.plan hash tx b.emitted) :
    AddsOwn enc b.plan.request 1 b.emitted.psbt b.psbt := by
  have hswept := hswept (by rw [hhash]; rfl)
  split_ifs at hswept with hsweeps
  · obtain ⟨kept, -, hsweep⟩ := hswept
    have hsame := hpad.symm.trans (emitRevealPad_sweeps hsweeps.1 hne hlaid)
    rw [Except.ok.inj hsame] at hsweep
    exact emitSweep_own hsweep
  · rw [hswept]
    exact emitRevealPad_own hpad

theorem RevealLaidOut.outputs_nonneg (hlaid : RevealLaidOut enc plan hash tx emitted) :
    0 ≤ emitted.psbt.outputTotal := by
  obtain ⟨data, pays, -, houtputs, -, hpos⟩ := hlaid.outputs
  refine List.sum_nonneg fun v hv => ?_
  rw [houtputs, List.map_cons, List.mem_cons] at hv
  rcases hv with rfl | hv
  · exact le_rfl
  · obtain ⟨out, hout, rfl⟩ := List.mem_map.mp hv
    exact (hpos out hout).le

/-- A finished reveal spends its legs, and pays what the commit left to it. -/
theorem returns_paysReveal (enc : Encoder) (request : TxRequest) :
    Returns (fun b => ∀ hash, request.p2shHash = some hash → ∃ tx, PaysReveal enc request hash b tx)
      (buildSteps enc request) := by
  cases hhash : request.p2shHash with
  | none => exact always_mono (fun _ _ _ h => by cases h) (fun _ h => h) always_true
  | some hash =>
  suffices h : Returns (fun b => ∃ tx, PaysReveal enc request hash b tx) (buildSteps enc request) by
    refine always_mono (fun b hb hash' heq => ?_) (fun _ h => h) h
    cases heq
    exact hb
  have hplanhash : ∀ {plan : Plan}, Planned enc request plan → plan.request.p2shHash = some hash :=
    fun hplan => by rw [hplan.request_eq, hhash]
  have hstages : Returns (Staged enc request
      (fun plan _ emitted => ((∃ tx, RevealLaidOut enc plan hash tx emitted) ∧
        EmittedTracked plan emitted) ∧ emitted.softDustSurcharge = softDustSurchargeFor
          (emitted.psbt.outputs.map TxOut.value) (softDustFloorFor enc.network))
      (fun _ emitted sel => sel.psbt = emitted.psbt ∧ sel.inputSatoshis = 0))
      (buildSteps enc request) := by
    refine returns_buildSteps (fun plan hplan => ?_) fun plan price emitted start hplan _ hstart => ?_
    · exact always_mono (fun _ h => ⟨⟨h.1.1.2, h.1.2⟩, h.2⟩) (fun _ _ => trivial)
        (always_and (always_and (returns_emitOutputs_reveal hplan (hplanhash hplan))
          returns_emitOutputs_tracked) returns_emitOutputs_surcharge)
    · have hreveal : plan.isReveal = true := by simp [Plan.isReveal, hplanhash hplan]
      have hsame : start.psbt.outputs = emitted.psbt.outputs := by rw [initSelection_psbt hstart]
      refine always_mono (fun sel h => ?_) (fun _ h => h)
        (returns_selectFundingInputs outputs_invariant hsame)
      rw [h.reveal hreveal, initSelection_eq_ok hstart]
      exact ⟨rfl, rfl⟩
  refine always_mono (fun b hb => ?_) (fun _ _ => trivial)
    (always_and hstages returns_buildSteps_swept)
  obtain ⟨hb, hswept⟩ := hb
  obtain ⟨⟨⟨tx, hlaid⟩, htracked⟩, hsurcharge⟩ := hb.emitted
  obtain ⟨hpsbt, hinput⟩ := hb.selected
  have hpad : emitRevealPad enc b.plan b.emitted.psbt = .ok b.psbtWithChange := by
    rw [← hpsbt]
    refine hb.settled.revealPad hlaid.emission.unmarked hinput ?_ ?_
    · rw [← htracked.total]
      exact hlaid.outputs_nonneg
    · rw [hsurcharge]
      exact softDustSurchargeFor_nonneg _ _
  have hne := hb.planned.addresses
  have hadds := addsOwn_reveal hpad (hplanhash hb.planned) hswept hne hlaid
  obtain ⟨data, pays, hdata, houtputs, hmap, -⟩ := hlaid.outputs
  obtain ⟨own, hown, hlength, hall⟩ := hadds.outputs
  obtain ⟨hex, hhex, hparsed⟩ := hlaid.emission.parsed
  refine ⟨tx, ⟨hex, hb.planned.request_eq ▸ hhex, hparsed, hlaid.emission.named⟩,
    hadds.inputs.trans hlaid.inputs, hlaid.emission.legs, ?_, fun hsweeps => ?_⟩
  · refine ⟨data, pays, own, ?_, hdata, ?_, hlength, fun out ho => ?_⟩
    · rw [hown, houtputs]
    · rw [← hb.planned.payments.1]
      exact hmap
    · exact hb.planned.request_eq ▸ hall out ho
  · refine ⟨_, (inputTotal_of_inputs hadds.inputs).trans hlaid.total, fun hpos => ?_⟩
    have hswept := hswept (by rw [hplanhash hb.planned]; rfl)
    rw [if_pos ⟨hsweeps, hpos⟩] at hswept
    obtain ⟨kept, hshare, hsweep⟩ := hswept
    have hsame := hpad.symm.trans (emitRevealPad_sweeps hsweeps hne hlaid)
    rw [Except.ok.inj hsame] at hsweep
    refine ⟨kept, hshare.least, hshare.most, fun hraised => ?_, emitSweep_rest htracked.total hsweep⟩
    have hheld := hshare.held hraised
    have htotal := htracked.total
    omega

/-- **A reveal spends every leg of its funding transaction, makes the payments asked for to the
unit, and returns the surplus of the legs to the caller**: it keeps its fee, its part of the commit's
uplift, and only what is less than an output more. -/
theorem reveal_pays (enc : Encoder) (clock : ℕ) (events : List (Event sig Command)) (p : ℕ)
    (call : EncoderCall) (hcall : (encoderRun enc clock events).cfg.calls p = some call)
    (r : TxResult) (t : ℕ) (hreturned : call.stage = .returned (.transaction r) t) :
    ∃ request, call.command = .createTransaction request ∧ ResultOf (fun b =>
      ∀ hash, request.p2shHash = some hash → ∃ tx, PaysReveal enc request hash b tx) r :=
  result_run (returns_paysReveal enc) clock events p call hcall r t hreturned

/-- The reveal of one leg. -/
theorem reveal_pays_leg : ∃ call r, (revealRun []).cfg.calls 0 = some call ∧
    returnedTransaction call = some r ∧ ResultOf (fun b =>
      ∃ tx, PaysReveal revealEncoder (sampleReveal []) legFunding.id b tx) r := by
  have hrun : ∃ call ∈ (revealRun []).cfg.calls 0, call.command = .createTransaction (sampleReveal []) ∧
      (returnedTransaction call).isSome = true := by
    decide +kernel
  obtain ⟨call, hcall, hcommand, hsome⟩ := hrun
  obtain ⟨r, hr⟩ := Option.isSome_iff_exists.mp hsome
  obtain ⟨t, hreturned⟩ := returnedTransaction_eq_some hr
  obtain ⟨b, receipt, hpays, heq⟩ := result_of_command hcommand
    (reveal_pays revealEncoder 0 _ 0 call hcall r t hreturned)
  exact ⟨call, r, hcall, hr, b, receipt, hpays legFunding.id rfl, heq⟩

end XChain
