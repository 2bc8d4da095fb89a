import XChainEncoder.FeeSettlement

/-!
# Change, padding and the reveal

* `emitChangeAndPad`, `refuseUnderStrippedFloor`: the change output, and the size that relays;
* `sweepP2shReveal`: what a script-hash reveal returns to the caller;
* `buildEnvelopeReveal`: the reveal of a TAPROOT commit, built against the unsigned commit's id.
-/

namespace XChain

open PushScript Coroutine

variable (enc : Encoder)

/-! ## Change and padding -/

/-- The change output, when there is an address for it and it is worth an output. -/
def emitChange (plan : Plan) (changeSatoshis : ℤ) (psbt : Psbt) : Except BuildError Psbt :=
  match plan.request.change with
  | some change =>
    if 0 < changeSatoshis ∧ enc.outputFloor ≤ changeSatoshis then
      psbt.addAddressOutput enc.lib enc.network change changeSatoshis false
    else .ok psbt
  | none => .ok psbt

/-- The pad of a P2WSH reveal under the stripped-size floor. -/
def emitRevealPad (plan : Plan) (psbt : Psbt) : Except BuildError Psbt :=
  match enc.network.minStandardTxNonWitnessSize with
  | some strippedFloor =>
    if plan.isReveal ∧ plan.prepared.encoding = .p2wsh ∧ strippedTxSize psbt < strippedFloor then do
      let padAddress ← changeOrCaller enc plan.request
      if padAddress = [] then return psbt
      else psbt.addAddressOutput enc.lib enc.network padAddress enc.dustAmount true
    else .ok psbt
  | none => .ok psbt

/-- The change output, then the pad. -/
def emitChangeAndPad (plan : Plan) (changeSatoshis : ℤ) (psbt : Psbt) :
    Except BuildError Psbt := do
  let psbt ← emitChange enc plan changeSatoshis psbt
  emitRevealPad enc plan psbt

/-- A transaction too small to relay is refused, unless it is a reveal. -/
def refuseUnderStrippedFloor (plan : Plan) (psbt : Psbt) : Except BuildError Unit :=
  ensure (plan.isReveal || coreStrippedFloor enc.network ≤ predictedStrippedSize psbt 0)
    (OperationalError "TX_BELOW_MIN_STANDARD_SIZE"
      (s!"the transaction would be {predictedStrippedSize psbt 0} non-witness bytes, under this " ++
        s!"chain's {coreStrippedFloor enc.network}-byte relay minimum, and its inputs leave too " ++
        "little for a change output to lift it: leave at least " ++
        s!"{enc.outputFloor} base units plus its fee for change, or add an input"))

/-! ## The script-hash reveal -/

/-- P2SH, and P2WSH that is not padded, return what the fee does not need. -/
def sweepsRevealSurplus (plan : Plan) : Bool :=
  plan.prepared.encoding = .p2sh ||
    (plan.prepared.encoding = .p2wsh &&
      !revealNeedsFloorPad enc plan.prepared plan.payments.customOutputs)

/-- The reveal's size with all outputs it will have. -/
def revealSizeForFee (plan : Plan) : ℕ :=
  let revealEmittedOutputBytes := 43 + (plan.payments.customOutputs.map fun o =>
    estimateOutputSizeForAddress enc.lib enc.network (some o.address)).sum
  if plan.prepared.encoding = .p2sh then
    estimateP2shRevealTx plan.prepared.dataBufferArray revealEmittedOutputBytes
  else estimateP2wshRevealTx enc.network plan.prepared.dataBufferArray revealEmittedOutputBytes

/-- The fee a reveal keeps before any uplift: its size at the rate, at least the settled fee, and
the surcharge on top. -/
def revealFeeKept (plan : Plan) (emitted : Emitted) (estimatedFee : ℤ) : ℤ :=
  max (feeForVsize (revealSizeForFee enc plan) plan.rates.feePerBytes)
    (estimatedFee - emitted.softDustSurcharge) + emitted.softDustSurcharge

/-- How much of the wanted uplift the legs can spare beside a change output. -/
def clampRevealUplift (plan : Plan) (emitted : Emitted) (wanted kept : ℤ) : ℤ :=
  let sweepReserve := if plan.payments.customOutputs ≠ [] then 0 else enc.outputFloor
  let spendable := emitted.emission.phaseLegInputSatoshis - emitted.outputSatoshis - kept -
    sweepReserve
  let allowed := min wanted enc.maxCpfpUpliftSat
  let allowed := if spendable ≤ 0 then 0 else if spendable < allowed then spendable else allowed
  if 0 < allowed then kept + allowed else kept

/-- Raise the reveal's fee for its unconfirmed commit. -/
def upliftRevealForCommit (plan : Plan) (emitted : Emitted) (p2shHash : Text) (kept : ℤ) :
    Prog ℤ :=
  if 0 < enc.maxCpfpUpliftSat ∧ 0 < plan.rates.feePerBytes then do
    let reply : Except BuildError (Option AncestorPackage) ←
      Coro.attempt (σ := sig) (.unconfirmedAncestorPackage [p2shHash])
    match reply with
    | .ok (some package) =>
      let wanted := packageFeeUpliftSatoshis kept (revealSizeForFee enc plan) package.size
        (round (package.fees * satoshiUnit)) plan.rates.feePerBytes
      if 0 < wanted then return clampRevealUplift enc plan emitted wanted kept else return kept
    | _ => return kept
  else return kept

/-- Return the surplus of the legs when it is worth an output. -/
def emitSweep (plan : Plan) (emitted : Emitted) (kept : ℤ) (psbt : Psbt) :
    Except BuildError Psbt :=
  let revealSurplus := emitted.emission.phaseLegInputSatoshis - emitted.outputSatoshis - kept
  if enc.outputFloor ≤ revealSurplus then do
    let sweepAddress ← changeOrCaller enc plan.request
    if sweepAddress = [] then return psbt
    else psbt.addAddressOutput enc.lib enc.network sweepAddress revealSurplus false
  else .ok psbt

/-- The output for what the legs hold over the fee. -/
def sweepP2shReveal (plan : Plan) (emitted : Emitted) (estimatedFee : ℤ) (psbt : Psbt) :
    Prog Psbt :=
  match plan.request.p2shHash with
  | some p2shHash =>
    if sweepsRevealSurplus enc plan ∧ 0 < emitted.emission.phaseLegInputSatoshis then do
      let kept ← upliftRevealForCommit enc plan emitted p2shHash
        (revealFeeKept enc plan emitted estimatedFee)
      Coro.ofExcept (σ := sig) (emitSweep enc plan emitted kept psbt)
    else return psbt
  | none => return psbt

/-! ## The envelope reveal -/

/-- The reveal of an envelope and its recovery record. -/
structure EnvelopeReveal where
  revealPsbt : Psbt
  result : EnvelopeResult
  deriving DecidableEq, Repr

/-- The index of the commit output in the commit's own transaction. -/
def commitVout (psbt : Psbt) (context : EnvelopeContext) : Option ℕ :=
  psbt.outputs.findIdx? fun o => o.script = context.commitScript

/-- The reveal: the commit's output in, its change and pad out. -/
def buildRevealPsbt (plan : Plan) (psbt : Psbt) (context : EnvelopeContext) :
    Except BuildError EnvelopeReveal := do
  let commitTxid ← psbt.unsignedTxid enc.lib
  let vout := commitVout psbt context
  let revealPsbt ← Psbt.empty.addInput
    { hash := commitTxid, index := vout.getD 4294967295, sequence := plan.utxoSequence,
      witnessUtxo := some ⟨context.commitScript, context.commitValue⟩, nonWitnessUtxo := none,
      redeemScript := none, witnessScript := none }
  let revealChangeValue := context.commitValue - context.revealFee -
    (if context.revealPadNeeded then enc.dustAmount else 0)
  let revealPsbt ← revealPsbt.addAddressOutput enc.lib enc.network context.revealChangeAddress
    revealChangeValue true
  let revealPsbt ← if context.revealPadNeeded then
      revealPsbt.addAddressOutput enc.lib enc.network context.revealChangeAddress enc.dustAmount
        true
    else .ok revealPsbt
  return ⟨revealPsbt, ⟨commitTxid, vout, context.commitValue, context.internalPubkey,
    context.envelopeScript, context.revealFee⟩⟩

/-- The reveal of an envelope; the other carriers have none here. -/
def buildEnvelopeReveal (plan : Plan) (psbt : Psbt) (context : Option EnvelopeContext) :
    Except BuildError (Option EnvelopeReveal) :=
  match context with
  | none => .ok none
  | some context => (buildRevealPsbt enc plan psbt context).map some

end XChain
