import XChainEncoder.RelayFees

/-!
# Fees of signed transactions

Whether a funding build is priced at the size it has once it is signed.

* `Sized`, `returns_sized`: what a finished build was charged for;
* `Covered`: the charges leave room for the empty stacks of inputs without a witness;
* `RelaysSigned`: the signed transaction is within its estimate, and pays the relay rate for it;
* `signedFees_iff`: **every signing relays exactly where the charges cover the empty stacks**.
-/

namespace XChain

open PushScript TxWeight Coroutine

variable {enc : Encoder} {plan : Plan} {emitted : Emitted} {sel : Selection} {request : TxRequest}
  {b : Built} {kinds : PsbtInput → Spend}

/-! ## What a finished build was charged for -/

/-- The inputs that selection charged for, on an emission that was charged for its outputs. -/
structure Sized (enc : Encoder) (plan : Plan) (emitted : Emitted) (sel : Selection) : Prop where
  emission : EmittedSized enc plan emitted
  surcharge : emitted.softDustSurcharge =
    softDustSurchargeFor (emitted.psbt.outputs.map TxOut.value) (softDustFloorFor enc.network)
  start : ∃ start, initSelection plan.request.fee emitted = .ok start ∧
    SizedSelection enc emitted start sel
  funds : Funds emitted sel
  few : sel.selectedInputCount ≤ maxUtxoCount

theorem SelectionInvariant.and {I J : Selection → Prop}
    (hI : SelectionInvariant enc plan emitted I) (hJ : SelectionInvariant enc plan emitted J) :
    SelectionInvariant enc plan emitted fun sel => I sel ∧ J sel where
  skip acc h := ⟨hI.skip acc h.1, hJ.skip acc h.2⟩
  add u acc acc' hu h hadds := ⟨hI.add u acc acc' hu h.1 hadds, hJ.add u acc acc' hu h.2 hadds⟩

theorem returns_emitOutputs_surcharge : Returns (fun r => r.2.softDustSurcharge =
    softDustSurchargeFor (r.2.psbt.outputs.map TxOut.value) (softDustFloorFor enc.network))
    (emitOutputs enc plan) := by
  refine .bind_right fun price => .bind_right fun e => ?_
  refine .bind (returns_ofExcept fun _ h => h) fun em hem => ?_
  simp only [emitCustomOutputs, bind_eq_ok] at hem
  obtain ⟨psbt, -, acc, -, heq⟩ := hem
  cases heq
  rfl

/-- What emission of a funding build guarantees its settlement. -/
structure EmittedPriced (enc : Encoder) (plan : Plan) (emitted : Emitted) : Prop where
  sized : EmittedSized enc plan emitted
  surcharge : emitted.softDustSurcharge =
    softDustSurchargeFor (emitted.psbt.outputs.map TxOut.value) (softDustFloorFor enc.network)
  tracked : EmittedTracked plan emitted
  marked : 0 < plan.rates.finalDust → Marked emitted.emission.revealPrefund emitted.psbt.outputs

theorem returns_emitOutputs_priced (hplan : Planned enc request plan)
    (hfunding : plan.isReveal = false)
    (hkey : ∀ key, plan.request.compressedPubKey = some key → key.length = 33) :
    Returns (fun r => EmittedPriced enc plan r.2) (emitOutputs enc plan) := by
  have hmarked : Returns (fun r : RevealOutputsPrice × Emitted => 0 < plan.rates.finalDust →
      Marked r.2.emission.revealPrefund r.2.psbt.outputs) (emitOutputs enc plan) := by
    by_cases hdust : 0 < plan.rates.finalDust
    · exact always_mono (fun _ h _ => h) (fun _ h => h)
        (returns_emitOutputs_owed enc hdust hfunding)
    · exact always_mono (fun _ _ h => absurd h hdust) (fun _ h => h) always_true
  exact always_mono (fun _ h => ⟨h.1.1, h.1.2, h.2.1, h.2.2⟩) (fun _ _ => trivial)
    (always_and (always_and (returns_emitOutputs_sized hplan hfunding hkey)
      returns_emitOutputs_surcharge) (always_and returns_emitOutputs_tracked hmarked))

/-- **Every funding build is charged for its inputs and outputs.** -/
theorem returns_sized (hfunding : request.p2shHash = none)
    (hkey : ∀ key, request.compressedPubKey = some key → key.length = 33) :
    Returns (Staged enc request (fun plan _ emitted => EmittedPriced enc plan emitted)
      (Sized enc)) (buildSteps enc request) := by
  refine returns_buildSteps (fun plan hplan => ?_) fun plan price emitted start hplan hE hstart => ?_
  · have hr : plan.isReveal = false := by simp [Plan.isReveal, hplan.request_eq, hfunding]
    exact returns_emitOutputs_priced hplan hr (hplan.request_eq ▸ hkey)
  · have hr : plan.isReveal = false := by simp [Plan.isReveal, hplan.request_eq, hfunding]
    refine always_mono (fun sel h => ?_) (fun _ h => h)
      (returns_selectFundingInputs ((sized_invariant start).and funds_invariant)
        ⟨sized_startSelection hE.sized.inputs hstart, funds_start hE.sized.inputs hstart⟩)
    obtain ⟨hsized, hfunds⟩ := h.invariant hr
    have hfew := h.nonempty hr
    simp only [refuseEmptySelection, bind_eq_ok, ensure_eq_ok, decide_eq_true_eq] at hfew
    obtain ⟨_, hfew, -⟩ := hfew
    exact ⟨hE.sized, hE.surcharge, ⟨start, hplan.request_eq ▸ hstart, hsized⟩, hfunds, hfew⟩

/-! ## The transaction -/

/-- A finished funding build is what settlement makes of its selection and some package. -/
theorem Settled.psbt_eq (h : Settled enc b) (hfunding : b.plan.isReveal = false)
    (hpays : ChangePays enc b.plan)
    (hplaced : PrefundPlaced b.emitted.emission.revealPrefund b.selection.psbt.outputs) :
    ∃ package, b.psbt = psbtWith enc b.plan b.emitted b.selection package := by
  obtain ⟨package, hup⟩ := h.uplifted
  obtain ⟨pre, -, hsettles⟩ := settleChange_eq_ok enc b.plan package hfunding hpays hplaced
  have hchange := h.change
  rw [hup] at hchange
  obtain ⟨-, heq⟩ := (hsettles _).mp hchange
  have hnone : b.plan.request.p2shHash = none := by simpa [Plan.isReveal] using hfunding
  exact ⟨package, (h.swept hnone).trans (congrArg (fun r => r.2.2) heq)⟩

theorem outputsBytes_congr {outputs outputs' : List TxOut}
    (h : outputs.map TxOut.script = outputs'.map TxOut.script) :
    outputsBytes outputs = outputsBytes outputs' := by
  have hscripts : ∀ outs : List TxOut,
      outputsBytes outs = ((outs.map TxOut.script).map outputBytes).sum := fun outs => by
    rw [List.map_map]
    rfl
  rw [hscripts, hscripts, h]

theorem outputsBytes_psbtWith (package : Option AncestorPackage)
    (houtputs : sel.psbt.outputs = emitted.psbt.outputs) :
    outputsBytes (psbtWith enc plan emitted sel package).outputs =
      outputsBytes emitted.psbt.outputs + outputsBytes
        ((psbtWith enc plan emitted sel package).outputs.drop emitted.psbt.outputs.length) := by
  have hscripts := scripts_raisedOutputs emitted.emission.revealPrefund sel.psbt.outputs
    (prefundWith enc plan emitted sel package)
  have hlength := congrArg List.length hscripts
  rw [List.length_map, List.length_map, houtputs] at hlength
  rw [psbtWith]
  dsimp only
  rw [← houtputs] at hlength ⊢
  rw [← hlength, List.drop_left, ← outputsBytes_congr hscripts]
  simp [outputsBytes]

/-! ## Where the charges cover a signing -/

/-- What the charges for payments, change and the count of outputs leave. -/
def outputsSpare (enc : Encoder) (b : Built) : ℤ :=
  ((paidOutputs b.plan).map (paymentSpare enc)).sum +
    (43 - outputsBytes (b.psbt.outputs.drop b.emitted.psbt.outputs.length)) +
    ((if 252 < b.emitted.psbt.outputs.length + 1 then 3 else 1) -
      compactSizeLen b.psbt.outputs.length)

/-- In a transaction with a witness, every input without one has an empty stack of one weight unit.
The charge for marker and flag covers two of them, what the other charges leave covers more. -/
def Covered (enc : Encoder) (b : Built) (kinds : PsbtInput → Spend) : Prop :=
  (if anyWitness kinds b.psbt.inputs then (markers kinds b.psbt.inputs : ℤ) - 2 else 0) ≤
    4 * outputsSpare enc b + spareWeights kinds b.psbt.inputs

theorem charges_eq {L : Library} {inputs : List PsbtInput}
    (hkinds : ∀ input ∈ inputs, SpendsAs L input (kinds input)) :
    charges kinds inputs = (inputs.map (estimateInputSize L)).sum :=
  congrArg List.sum (List.map_congr_left fun input hinput =>
    (estimateInputSize_eq (hkinds input hinput)).symm)

theorem anyWitness_eq {L : Library} {inputs : List PsbtInput}
    (hkinds : ∀ input ∈ inputs, SpendsAs L input (kinds input)) :
    anyWitness kinds inputs = inputs.any fun input => input.witnessUtxo.isSome := by
  unfold anyWitness
  induction inputs with
  | nil => rfl
  | cons input rest ih =>
    rw [List.any_cons, List.any_cons, ih fun i hi => hkinds i (List.mem_cons_of_mem _ hi),
      (hkinds input List.mem_cons_self).hasWitness]

/-- **The estimate holds every signing exactly where the charges cover it.** -/
theorem frameWeight_le_iff (hsized : Sized enc b.plan b.emitted b.selection)
    (hinputs : b.psbt.inputs = b.selection.psbt.inputs)
    (houtputs : outputsBytes b.psbt.outputs = outputsBytes b.emitted.psbt.outputs +
      outputsBytes (b.psbt.outputs.drop b.emitted.psbt.outputs.length))
    (hkinds : ∀ input ∈ b.psbt.inputs, SpendsAs enc.lib input (kinds input)) :
    (frameWeight kinds b.psbt : ℤ) + 4 * charges kinds b.psbt.inputs ≤
        4 * b.selection.estimatedTxSize + spareWeights kinds b.psbt.inputs ↔ Covered enc b kinds := by
  obtain ⟨start, hstart, hsel⟩ := hsized.start
  have hemitted := hsized.emission.size
  have hfew := hsized.few
  have hcount := hsel.count
  have hsize := hsel.size
  have hmarker := hsel.marker
  have hbegin := congrArg Selection.estimatedTxSize (initSelection_eq_ok hstart)
  dsimp only at hbegin
  rw [← hinputs] at hcount hsize hmarker
  rw [← charges_eq hkinds] at hsize
  rw [← anyWitness_eq hkinds] at hmarker
  -- No build selects more than 500 inputs, so their count is one byte or three.
  have hvarint : compactSizeLen b.psbt.inputs.length =
      1 + if 253 ≤ b.selection.selectedInputCount then 2 else 0 := by
    have hmax : maxUtxoCount = 500 := rfl
    unfold compactSizeLen
    split_ifs <;> omega
  have hframe : frameWeight kinds b.psbt = 4 * (8 + compactSizeLen b.psbt.inputs.length +
      compactSizeLen b.psbt.outputs.length + outputsBytes b.psbt.outputs) +
      if anyWitness kinds b.psbt.inputs then 2 + markers kinds b.psbt.inputs else 0 := rfl
  unfold Covered outputsSpare
  rw [hframe, hvarint, houtputs]
  rw [hmarker, hbegin] at hsize
  by_cases hout : 252 < b.emitted.psbt.outputs.length + 1 <;>
    by_cases hin : 253 ≤ b.selection.selectedInputCount <;>
    cases hany : anyWitness kinds b.psbt.inputs <;>
    simp only [hout, hin, hany, Bool.false_eq_true, if_true, if_false] at hsize ⊢ <;> omega

/-! ## The fee -/

theorem minimumRelayFee_le {m n : ℕ} (h : m ≤ n) (relayFeePerKb : ℚ) :
    minimumRelayFee m relayFeePerKb ≤ max (minimumRelayFee n relayFeePerKb) 0 := by
  unfold minimumRelayFee
  generalize round (relayFeePerKb * satoshiUnit) = rate
  rcases le_or_gt 0 rate with hrate | hrate
  · refine le_max_of_le_left (Int.ceil_mono ?_)
    have hle : (m * rate : ℚ) ≤ n * rate :=
      mul_le_mul_of_nonneg_right (Nat.cast_le.mpr h) (Int.cast_nonneg hrate)
    exact div_le_div_of_nonneg_right hle (by norm_num)
  · refine le_max_of_le_right (Int.ceil_le.mpr ?_)
    have hle : (m * rate : ℚ) ≤ 0 :=
      mul_nonpos_of_nonneg_of_nonpos (Nat.cast_nonneg m) (Int.cast_nonpos.mpr hrate.le)
    simpa using div_nonpos_of_nonpos_of_nonneg hle (by norm_num)

/-- A signed transaction is no larger than its estimate, and what its inputs leave beside its outputs
and the soft dust surcharge is at least the relay rate. -/
structure RelaysSigned (enc : Encoder) (b : Built) (tx : Tx) : Prop where
  size : tx.virtualSize ≤ b.selection.estimatedTxSize
  fee : ∃ total, b.psbt.inputTotal = some total ∧
    minimumRelayFee tx.virtualSize b.plan.rates.relayFeePerKb ≤ total - b.psbt.outputTotal -
      softDustSurchargeFor (b.psbt.outputs.map TxOut.value) (softDustFloorFor enc.network)

/-- The fee that the relay check passed is left beside the surcharge. -/
theorem Settled.relays (h : Settled enc b) (hfunding : b.plan.isReveal = false) :
    max (minimumRelayFee b.selection.estimatedTxSize b.plan.rates.relayFeePerKb) 0 ≤
      b.estimatedFee - b.emitted.softDustSurcharge := by
  have hpos := enc.dustAmount_pos
  obtain ⟨package, hup⟩ := h.uplifted
  have huplift := (upliftBy_bounds enc b.emitted b.selection hfunding package).1
  have hrelay := h.relay
  simp only [refuseInsufficientRelayFee, hfunding, Bool.false_eq_true, if_false, ite_self,
    ensure_eq_ok, decide_eq_true_eq] at hrelay
  have hsupplied : minimumRelayFee b.selection.estimatedTxSize b.plan.rates.relayFeePerKb ≤
      max (b.selection.estimatedFee - b.emitted.softDustSurcharge) enc.dustAmount := by
    refine hrelay.trans ?_
    split_ifs
    · exact le_rfl
    · exact le_max_left _ _
  rw [h.estimatedFee, hup, floorEstimatedFee]
  omega

/-! ## Signed transactions -/

/-- **Every signing of a funding build, of whatever kinds its inputs are, is within the estimate and
pays the relay rate, exactly where the charges cover the empty stacks.** -/
theorem signedFees_iff (enc : Encoder) (request : TxRequest) (hfunding : request.p2shHash = none)
    (hkey : ∀ key, request.compressedPubKey = some key → key.length = 33) :
    Returns (fun b => ∀ kinds : PsbtInput → Spend,
      (∀ input ∈ b.psbt.inputs, SpendsAs enc.lib input (kinds input)) →
        ((∀ tx, SignsAs kinds b.psbt tx → RelaysSigned enc b tx) ↔ Covered enc b kinds))
      (buildSteps enc request) := by
  refine always_mono (fun b hb => ?_) (fun _ _ => trivial)
    (always_and (returns_sized hfunding hkey) returns_buildSteps_dust)
  obtain ⟨hb, hdust⟩ := hb
  intro kinds hkinds
  have hr : b.plan.isReveal = false := by simp [Plan.isReveal, hb.planned.request_eq, hfunding]
  have hsized := hb.selected
  have hmarked : Marked b.emitted.emission.revealPrefund b.selection.psbt.outputs :=
    hsized.funds.outputs ▸ hb.emitted.marked ((outputFloor_pos enc).trans_le hdust)
  have hpays : ChangePays enc b.plan := by
    obtain ⟨pre, bound, hpre, -⟩ := hb.planned.prepared
    exact fun address haddress =>
      changePays_of_checked hpre.payments (hb.planned.request_eq ▸ haddress)
  obtain ⟨package, hpsbt⟩ := hb.settled.psbt_eq hr hpays hmarked.placed
  obtain ⟨start, -, hsel⟩ := hsized.start
  have hinputs : b.psbt.inputs = b.selection.psbt.inputs := by rw [hpsbt, psbtWith]
  have houtputs : outputsBytes (psbtWith enc b.plan b.emitted b.selection package).outputs = _ :=
    outputsBytes_psbtWith package hsized.funds.outputs
  rw [← hpsbt] at houtputs
  have hids : ∀ input ∈ b.psbt.inputs, isTxid input.hash = true := hinputs ▸ hsel.ids
  have hiff := frameWeight_le_iff hsized hinputs houtputs hkinds
  have hwithin := signed_within_iff hkinds hids b.selection.estimatedTxSize
  constructor
  · exact fun h => hiff.mp (hwithin.mp fun tx htx => (h tx htx).size)
  · intro hcovered tx htx
    have hsize := hwithin.mpr (hiff.mpr hcovered) tx htx
    obtain ⟨-, hbalanced⟩ := hb.settled.balanced hr hsized.funds hb.emitted.tracked.total
    refine ⟨hsize, _, hbalanced.inputs, ?_⟩
    have hrelays := hb.settled.relays hr
    have hminimum := minimumRelayFee_le hsize b.plan.rates.relayFeePerKb
    have hsurcharge := softDustSurchargeFor_final enc b.plan package hmarked
      (prefundWith_bounds enc b.plan b.emitted b.selection package).1
    rw [← hpsbt, hsized.funds.outputs, ← hsized.surcharge] at hsurcharge
    have hbalance := hbalanced.balance
    have hnonneg := hbalanced.nonneg
    omega

/-- The envelope of `ISSUE` is built to its end, and signed in any way relays where it is covered. -/
theorem signedFees_iff_issue :
    (taprootRun.cfg.calls 0).any (fun call => (returnedTransaction call).isSome) = true ∧
      Returns (fun b => ∀ kinds : PsbtInput → Spend,
        (∀ input ∈ b.psbt.inputs, SpendsAs (sampleEncoder ⟨.btc, .regtest⟩).lib input (kinds input)) →
          ((∀ tx, SignsAs kinds b.psbt tx →
            RelaysSigned (sampleEncoder ⟨.btc, .regtest⟩) b tx) ↔
              Covered (sampleEncoder ⟨.btc, .regtest⟩) b kinds))
        (buildSteps (sampleEncoder ⟨.btc, .regtest⟩) taprootIssue) :=
  ⟨by decide +kernel, signedFees_iff _ taprootIssue rfl (by rintro _ ⟨⟩; rfl)⟩

end XChain
