import XChainEncoder.InputSelection

/-!
# Fee settlement

From the selected inputs to the fee and the change.

* `refuseInsufficientRelayFee`, `refuseExcessiveFee`: the fee against the relay minimum and the
  ceilings;
* `upliftForAncestors`, `floorEstimatedFee`, `prefundRevealPackage`: what the transaction pays for
  its unconfirmed ancestors and for its reveal;
* `computeChange`;
* `upliftBy_bounds`, `prefundRevealPackage_bounds`: **the uplift and the prefund spend only what the
  inputs can spare**.
-/

namespace XChain

open PushScript Coroutine

variable (enc : Encoder)

/-- `Math.ceil(size * rate * SATOSHI_UNIT)`. -/
def ceilFee (size : ℕ) (rate : ℚ) : ℤ := ⌈size * rate * satoshiUnit⌉

/-- `Math.ceil(size * round(relayFeePerKb * SATOSHI_UNIT) / 1000)`. -/
def minimumRelayFee (size : ℕ) (relayFeePerKb : ℚ) : ℤ :=
  ⌈(size * round (relayFeePerKb * satoshiUnit) : ℚ) / 1000⌉

/-- A fee below the node's relay minimum is refused, wherever it came from. -/
def refuseInsufficientRelayFee (plan : Plan) (emitted : Emitted) (sel : Selection) :
    Except BuildError Unit :=
  let rateFee := if plan.request.fee.isSome then sel.estimatedFee - emitted.softDustSurcharge
    else if plan.isReveal then feeForVsize sel.estimatedTxSize plan.rates.feePerBytes
    else sel.estimatedFee - emitted.softDustSurcharge
  let isNodePath := plan.request.fee.isNone && plan.request.feePerKb.isNone
  let suppliedFee := if isNodePath then max rateFee enc.dustAmount else rateFee
  let minimum := minimumRelayFee sel.estimatedTxSize plan.rates.relayFeePerKb
  let tail := s!"the node relay minimum {minimum} base units for a ~{sel.estimatedTxSize}-byte " ++
    "transaction"
  ensure (minimum ≤ suppliedFee)
    (if isNodePath then PlainError
      (s!"fee {suppliedFee} from the node fee estimate is below " ++ tail)
    else if plan.request.fee.isSome then ParamRangeError (s!"fee {suppliedFee} is below " ++ tail)
    else ParamRangeError
      (s!"feePerKb {plan.request.feePerKb.getD 0} base units/kB produces fee {suppliedFee}, " ++
        "below " ++ tail))

/-- The ceiling of the fee-rate cap; without a cap there is none. -/
def refuseOverRateCap (estimatedFee : ℤ) (estimatedTxSize : ℕ) : Option ℚ → Except BuildError Unit
  | none => .ok ()
  | some cap =>
    let maxFeeSatoshis := max enc.dustAmount (ceilFee estimatedTxSize cap)
    ensure (estimatedFee ≤ maxFeeSatoshis) (ParamRangeError
      (s!"fee {estimatedFee} exceeds the maximum allowed {maxFeeSatoshis} satoshis for a " ++
        s!"~{estimatedTxSize}-byte transaction (fee-rate cap)"))

/-- The burn backstop: at most a hundred times what the node's rate asks for this size. -/
def refuseOverBackstop (estimatedFee : ℤ) (estimatedTxSize : ℕ) (nodeFeePerBytes : ℚ) :
    Except BuildError Unit :=
  let fairFee := ceilFee estimatedTxSize nodeFeePerBytes
  ensure (estimatedFee ≤ max enc.dustAmount (fairFee * 100)) (ParamRangeError
    (s!"fee {estimatedFee} exceeds 100x the estimated fair fee ({fairFee} satoshis) for a " ++
      s!"~{estimatedTxSize}-byte transaction"))

/-- The ceilings of a caller's own fee, the surcharge apart: the cap, then the backstop. -/
def refuseExcessiveFee (plan : Plan) (emitted : Emitted) (sel : Selection) :
    Except BuildError Unit :=
  if plan.request.fee.isSome then do
    let estimatedFee := sel.estimatedFee - emitted.softDustSurcharge
    refuseOverRateCap enc estimatedFee sel.estimatedTxSize plan.rates.capFeePerBytes
    refuseOverBackstop enc estimatedFee sel.estimatedTxSize plan.rates.nodeFeePerBytes
  else .ok ()

/-- The backstop holds of a caller's fee whether or not the operator caps rates. -/
theorem refuseExcessiveFee_backstop {plan : Plan} {emitted : Emitted} {sel : Selection}
    (h : refuseExcessiveFee enc plan emitted sel = .ok ()) (hfee : plan.request.fee.isSome) :
    sel.estimatedFee - emitted.softDustSurcharge ≤
      max enc.dustAmount (ceilFee sel.estimatedTxSize plan.rates.nodeFeePerBytes * 100) := by
  rw [refuseExcessiveFee, if_pos hfee] at h
  obtain ⟨_, -, hbackstop⟩ := bind_eq_ok.mp h
  exact of_decide_eq_true (ensure_eq_ok.mp hbackstop)

/-! ## Paying for ancestors -/

/-- The fee so far, and the ancestor package it pays for. -/
structure Uplifted where
  estimatedFee : ℤ
  commitAncestorSize : ℚ
  commitAncestorFeeSat : ℤ

/-- How much of the wanted uplift the bounds and the inputs allow. -/
def allowedUplift (plan : Plan) (emitted : Emitted) (sel : Selection) (wanted : ℤ) : ℤ :=
  let allowed := min wanted enc.maxCpfpUpliftSat
  let allowed := match plan.rates.capFeePerBytes with
    | some cap => min allowed (max enc.dustAmount (ceilFee sel.estimatedTxSize cap) -
        sel.estimatedFee)
    | none => allowed
  let fairFee := ceilFee sel.estimatedTxSize plan.rates.nodeFeePerBytes
  let allowed := min allowed (max enc.dustAmount (fairFee * 100) - sel.estimatedFee)
  let headroom := sel.inputSatoshis - emitted.outputSatoshis - sel.estimatedFee
  let allowed := if plan.isReveal then allowed
    else if headroom ≤ 0 then 0
    else if 0 < allowed ∧ headroom < allowed then headroom
    else allowed
  max allowed 0

/-- What an ancestor package adds to the fee. -/
def upliftBy (plan : Plan) (emitted : Emitted) (sel : Selection)
    (ancestorPackage : Option AncestorPackage) : Uplifted :=
  match ancestorPackage with
  | none => ⟨sel.estimatedFee, 0, 0⟩
  | some package =>
    let feeSat := round (package.fees * satoshiUnit)
    let usable := decide (0 < package.size) && decide (0 ≤ feeSat)
    let wanted := packageFeeUpliftSatoshis sel.estimatedFee sel.estimatedTxSize package.size feeSat
      plan.rates.feePerBytes
    { estimatedFee := if 0 < wanted then sel.estimatedFee + allowedUplift enc plan emitted sel wanted
        else sel.estimatedFee
      commitAncestorSize := if usable then package.size else 0
      commitAncestorFeeSat := if usable then feeSat else 0 }

/-- What the fee is raised by for unconfirmed ancestors. -/
def upliftForAncestors (plan : Plan) (emitted : Emitted) (sel : Selection) : Prog Uplifted :=
  if sel.unconfirmedInputTxids ≠ [] ∧ 0 < plan.rates.feePerBytes ∧ 0 < enc.maxCpfpUpliftSat then do
    let reply : Except BuildError (Option AncestorPackage) ←
      Coro.attempt (σ := sig) (.unconfirmedAncestorPackage sel.unconfirmedInputTxids)
    return upliftBy enc plan emitted sel (reply.toOption.bind id)
  else return ⟨sel.estimatedFee, 0, 0⟩

/-- The dust floor of a fee. -/
def floorEstimatedFee (emitted : Emitted) (estimatedFee : ℤ) : ℤ :=
  max estimatedFee (enc.dustAmount + emitted.softDustSurcharge)

/-! ## Paying for the reveal -/

/-- The transaction and its total before change, after the reveal's prefund. -/
structure Prefunded where
  psbt : Psbt
  outputSatoshis : ℤ
  revealPrefund : Option RevealPrefund
  envelopeContext : Option EnvelopeContext

/-- The value the commit may still move into its reveal. -/
def allowedPrefund (emitted : Emitted) (sel : Selection) (estimatedFee wanted : ℤ) : ℤ :=
  let allowed := min wanted enc.maxCpfpUpliftSat
  let headroom := sel.inputSatoshis - emitted.outputSatoshis - estimatedFee
  max (if headroom ≤ 0 then 0 else if headroom < allowed then headroom else allowed) 0

/-- Raise the output that funds the reveal, by at most what is allowed. -/
def applyRevealPrefund (emitted : Emitted) (sel : Selection) (prefund : RevealPrefund)
    (allowed : ℤ) : Except BuildError Prefunded :=
  if 0 < allowed then do
    let psbt ← sel.psbt.raiseOutputValue prefund.outputIndex allowed
    return { psbt
             outputSatoshis := emitted.outputSatoshis + allowed
             revealPrefund := some { prefund with revealFee := prefund.revealFee + allowed }
             envelopeContext := emitted.emission.envelopeContext.map fun c =>
               { c with commitValue := c.commitValue + allowed, revealFee := c.revealFee + allowed } }
  else .ok ⟨sel.psbt, emitted.outputSatoshis, some prefund, emitted.emission.envelopeContext⟩

/-- Move into the reveal what its package lacks of the rate. -/
def prefundRevealPackage (plan : Plan) (emitted : Emitted) (sel : Selection) (up : Uplifted)
    (estimatedFee : ℤ) : Except BuildError Prefunded :=
  let unchanged : Prefunded := ⟨sel.psbt, emitted.outputSatoshis, emitted.emission.revealPrefund,
    emitted.emission.envelopeContext⟩
  match emitted.emission.revealPrefund with
  | none => .ok unchanged
  | some prefund =>
    if !plan.isReveal ∧ 0 < plan.rates.feePerBytes ∧ 0 < enc.maxCpfpUpliftSat then
      let wanted := packageFeeUpliftSatoshis prefund.revealFee prefund.revealSize
        (sel.estimatedTxSize + up.commitAncestorSize) (estimatedFee + up.commitAncestorFeeSat)
        plan.rates.feePerBytes
      if 0 < wanted then
        applyRevealPrefund emitted sel prefund (allowedPrefund enc emitted sel estimatedFee wanted)
      else .ok unchanged
    else .ok unchanged

/-! ## Change -/

/-- The refusal with its amounts. -/
def insufficientFunds (sel : Selection) (required estimatedFee outputSatoshis : ℤ) : BuildError :=
  OperationalError "INSUFFICIENT_FUNDS"
    (s!"insufficient funds: selected inputs total {sel.inputSatoshis} but {required} is required " ++
      s!"(outputs {outputSatoshis} + fee {estimatedFee}" ++
      (match sel.requestedFee with
        | some requested => if requested ≠ estimatedFee then
            s!", raised from the requested fee {requested}" else ""
        | none => "") ++ ")" ++
      (if 0 < sel.reservedCandidates then
        (s!"; {sel.reservedCandidates} candidate input(s) are reserved by a transaction built in " ++
          "the last 5 minutes; broadcast that transaction or wait for the reservation to lapse")
      else ""))

/-- What is left of the inputs. -/
def computeChange (plan : Plan) (sel : Selection) (outputSatoshis estimatedFee : ℤ) :
    Except BuildError ℤ := do
  let changeSatoshis := sel.inputSatoshis - outputSatoshis - estimatedFee
  ensure (plan.isReveal || 0 ≤ changeSatoshis)
    (insufficientFunds sel (outputSatoshis + estimatedFee) estimatedFee outputSatoshis)
  ensure (changeSatoshis ≤ enc.dustAmount || plan.request.change.isSome)
    (OperationalError "CHANGE_ADDRESS_REQUIRED"
      ("Transaction would burn significant satoshis as fees. Please provide a change address."))
  return changeSatoshis

/-! ## What the uplift and the prefund may spend -/

variable {enc} {plan : Plan} {emitted : Emitted} {sel : Selection}

variable (enc plan emitted sel) in
theorem allowedUplift_nonneg (wanted : ℤ) : 0 ≤ allowedUplift enc plan emitted sel wanted :=
  le_max_right _ _

variable (enc emitted sel) in
/-- A funding build raises its fee by at most what its inputs leave. -/
theorem allowedUplift_le (hfunding : plan.isReveal = false) (wanted : ℤ) :
    allowedUplift enc plan emitted sel wanted ≤
      max (sel.inputSatoshis - emitted.outputSatoshis - sel.estimatedFee) 0 := by
  unfold allowedUplift
  simp only [hfunding, Bool.false_eq_true, if_false]
  generalize (min _ _ : ℤ) = allowed
  split_ifs with hnone hmore
  · exact max_le (le_max_right _ _) (le_max_right _ _)
  · exact max_le (le_max_left _ _) (le_max_right _ _)
  · exact max_le (le_max_of_le_left (by omega)) (le_max_right _ _)

variable (enc emitted sel) in
/-- **The uplifted fee is at least the selected one, and within what the inputs leave.** -/
theorem upliftBy_bounds (hfunding : plan.isReveal = false) (package : Option AncestorPackage) :
    sel.estimatedFee ≤ (upliftBy enc plan emitted sel package).estimatedFee ∧
    (upliftBy enc plan emitted sel package).estimatedFee ≤
      max sel.estimatedFee (sel.inputSatoshis - emitted.outputSatoshis) := by
  cases package with
  | none => exact ⟨le_rfl, le_max_left _ _⟩
  | some package =>
    simp only [upliftBy]
    split_ifs
    · have hnonneg := allowedUplift_nonneg enc plan emitted sel
        (packageFeeUpliftSatoshis sel.estimatedFee sel.estimatedTxSize package.size
          (round (package.fees * satoshiUnit)) plan.rates.feePerBytes)
      have hle := allowedUplift_le enc emitted sel hfunding
        (packageFeeUpliftSatoshis sel.estimatedFee sel.estimatedTxSize package.size
          (round (package.fees * satoshiUnit)) plan.rates.feePerBytes)
      omega
    · exact ⟨le_rfl, le_max_left _ _⟩

variable (enc emitted sel) in
theorem allowedPrefund_bounds (estimatedFee wanted : ℤ) :
    0 ≤ allowedPrefund enc emitted sel estimatedFee wanted ∧
    allowedPrefund enc emitted sel estimatedFee wanted ≤
      max (sel.inputSatoshis - emitted.outputSatoshis - estimatedFee) 0 := by
  unfold allowedPrefund
  refine ⟨le_max_right _ _, ?_⟩
  dsimp only
  split_ifs <;> omega

theorem applyRevealPrefund_outputs {prefund : RevealPrefund} {allowed : ℤ} {pre : Prefunded}
    (hallowed : 0 ≤ allowed) (h : applyRevealPrefund emitted sel prefund allowed = .ok pre) :
    pre.outputSatoshis = emitted.outputSatoshis + allowed := by
  unfold applyRevealPrefund at h
  split_ifs at h with hpos
  · obtain ⟨psbt, -, hpre⟩ := bind_eq_ok.mp h
    cases hpre
    rfl
  · cases h
    show emitted.outputSatoshis = _
    omega

/-- **The prefund adds to the outputs only what the inputs leave beside the fee.** -/
theorem prefundRevealPackage_bounds {up : Uplifted} {estimatedFee : ℤ} {pre : Prefunded}
    (h : prefundRevealPackage enc plan emitted sel up estimatedFee = .ok pre) :
    emitted.outputSatoshis ≤ pre.outputSatoshis ∧
    pre.outputSatoshis ≤ max emitted.outputSatoshis (sel.inputSatoshis - estimatedFee) := by
  have hsame : ∀ pre' : Prefunded, pre'.outputSatoshis = emitted.outputSatoshis →
      emitted.outputSatoshis ≤ pre'.outputSatoshis ∧
      pre'.outputSatoshis ≤ max emitted.outputSatoshis (sel.inputSatoshis - estimatedFee) :=
    fun pre' hpre => ⟨hpre.ge, hpre.le.trans (le_max_left _ _)⟩
  unfold prefundRevealPackage at h
  cases hprefund : emitted.emission.revealPrefund with
  | none =>
    rw [hprefund] at h
    cases h
    exact hsame _ rfl
  | some prefund =>
    simp only [hprefund] at h
    split_ifs at h
    · obtain ⟨hnonneg, hle⟩ := allowedPrefund_bounds enc emitted sel
        estimatedFee (packageFeeUpliftSatoshis prefund.revealFee prefund.revealSize
          (sel.estimatedTxSize + up.commitAncestorSize) (estimatedFee + up.commitAncestorFeeSat)
          plan.rates.feePerBytes)
      rw [applyRevealPrefund_outputs hnonneg h]
      omega
    · cases h
      exact hsame _ rfl
    · cases h
      exact hsame _ rfl

variable (enc plan) in
/-- Inputs that leave nothing beside the fee leave the reveal as it is. -/
theorem prefundRevealPackage_short (up : Uplifted) {estimatedFee : ℤ}
    (hshort : sel.inputSatoshis ≤ emitted.outputSatoshis + estimatedFee) :
    ∃ pre, prefundRevealPackage enc plan emitted sel up estimatedFee = .ok pre ∧
      pre.psbt = sel.psbt ∧ pre.outputSatoshis = emitted.outputSatoshis := by
  unfold prefundRevealPackage
  cases emitted.emission.revealPrefund with
  | none => exact ⟨_, rfl, rfl, rfl⟩
  | some prefund =>
    dsimp only
    split_ifs
    · have hzero : ∀ wanted, allowedPrefund enc emitted sel estimatedFee wanted = 0 := fun wanted => by
        have := allowedPrefund_bounds enc emitted sel estimatedFee wanted
        omega
      rw [hzero]
      exact ⟨_, rfl, rfl, rfl⟩
    · exact ⟨_, rfl, rfl, rfl⟩
    · exact ⟨_, rfl, rfl, rfl⟩

end XChain
