import XChainEncoder.FeeRates
import XChainEncoder.FirstInputKey

/-!
# Script-hash legs

A P2SH or P2WSH payload travels in two transactions: the commit funds one output a chunk, and the
reveal spends them all.

* `Plan`, `Emission`: what a build has fixed, and what it has emitted so far;
* `fundP2shLeg`, `fundP2wshLeg`: the commit's outputs, the first one topped up for the reveal;
* `spendP2shLeg`, `spendP2wshLeg`: the reveal's marker output and inputs;
* `emitP2shChunk`, `emitP2wshChunk`.
-/

namespace XChain

open PushScript Coroutine

/-! ## The state of a build -/

/-- What a build has fixed before it emits outputs. -/
structure Plan where
  request : TxRequest
  rates : FeeRates
  payments : PaymentOutputs
  compression : Option CompressionResult
  hasActionPayload : Bool
  rawDataOnlyPayload : Bool
  prepared : PreparedData
  fetchedFromTracker : Bool
  bound : Bound

namespace Plan

variable (plan : Plan)

/-- The build spends the legs of an earlier one. -/
def isReveal : Bool := plan.request.p2shHash.isSome

/-- The carriers that fund legs now and reveal them later. -/
def isP2shFamily : Bool := plan.prepared.encoding = .p2sh || plan.prepared.encoding = .p2wsh

/-- Below `0xfffffffe` signals replacement; bit 31 keeps relative locktime off. -/
def utxoSequence : ℕ := if plan.request.replacebyfee then 0xfffffffd else 0xffffffff

end Plan

/-- What the reveal's custom outputs cost the commit. -/
structure RevealOutputsPrice where
  value : ℤ
  bytes : ℕ
  fee : ℤ
  deriving DecidableEq, Repr

/-- The output the commit may raise for its reveal. -/
structure RevealPrefund where
  outputIndex : ℕ
  revealSize : ℕ
  revealFee : ℤ
  deriving DecidableEq, Repr

/-- What an envelope's reveal needs of its commit. -/
structure EnvelopeContext where
  internalPubkey : Bytes
  envelopeScript : Bytes
  commitScript : Bytes
  commitValue : ℤ
  revealFee : ℤ
  revealPadNeeded : Bool
  revealChangeAddress : Text
  deriving DecidableEq, Repr

/-- What a build has emitted; a reveal has no `psbt` before its first leg. -/
structure Emission where
  psbt : Option Psbt
  outputSatoshis : ℤ
  estimatedTxSize : ℕ
  txidFirstInput : Option Text
  p2shTx : Option ParsedTx
  voutPsbtIndex : ℕ
  phaseLegInputSatoshis : ℤ
  revealCustomOutputsValue : ℤ
  revealCustomOutputsFee : ℤ
  p2shRevealHeadroomFunded : Bool
  revealPrefund : Option RevealPrefund
  envelopeContext : Option EnvelopeContext
  deriving DecidableEq, Repr

/-- Reading a property of `null`. -/
def nullPsbt : BuildError := PlainError "Cannot read properties of null"

/-- The psbt under construction, which every build has by now. -/
def requirePsbt (psbt : Option Psbt) : Except BuildError Psbt :=
  match psbt with
  | some psbt => .ok psbt
  | none => .error nullPsbt

variable (enc : Encoder)

/-- `obfuscate` as the build awaits it. -/
def awaitObfuscate (data : Bytes) (key : Option Text) : Prog Bytes := do
  yieldTick
  match key.bind (obfuscate enc.lib data) with
  | some out => return out
  | none => Coro.throw (PlainError "Invalid key length")

/-! ## Funding -/

/-- Whether the reveal will be padded to the stripped-size floor. -/
def revealNeedsFloorPad (prepared : PreparedData) (customOutputs : List CustomOutput) : Bool :=
  let predictedRevealStripped := 30 + 41 * prepared.dataBufferArray.length +
    (customOutputs.map fun o =>
      estimateOutputSizeForAddress enc.lib enc.network (some o.address)).sum
  match enc.network.minStandardTxNonWitnessSize with
  | some strippedFloor => predictedRevealStripped < strippedFloor
  | none => false

/-- The fee that a leg's own value covers. -/
def legFee (rates : FeeRates) (size : ℕ) : ℤ :=
  max (feeForVsize size rates.feePerBytes) rates.finalDust

/-- What spending one leg is priced at. -/
def legSize (encoding : Encoding) (chunk : Bytes) : ℕ :=
  if encoding = .p2sh then estimateSpendingP2shTx chunk
  else estimateSpendingP2wshTx enc.network chunk 0

/-- The split of the reveal's budget over its legs. -/
structure RevealLegs where
  baseLegsTotal : ℤ
  revealFeeNeeded : ℤ
  revealSize : ℕ
  deriving DecidableEq, Repr

/-- What the legs hold together, and what the reveal needs. -/
def sumRevealLegs (rates : FeeRates) (prepared : PreparedData) (encoding : Encoding) :
    RevealLegs :=
  let revealSize := if encoding = .p2sh then estimateP2shRevealTx prepared.dataBufferArray 43
    else estimateP2wshRevealTx enc.network prepared.dataBufferArray 43
  { baseLegsTotal :=
      (prepared.dataBufferArray.map fun chunk => legFee rates (legSize enc encoding chunk)).sum
    revealFeeNeeded := max (feeForVsize revealSize rates.feePerBytes) enc.dustAmount
    revealSize }

/-- The first leg carries the reveal's shortfall and, without custom outputs, a change output. -/
def topUpFirstLeg (plan : Plan) (price : RevealOutputsPrice) (encoding : Encoding)
    (spendingEstimatedFee : ℤ) (e : Emission) (psbt : Psbt) : ℤ × Emission :=
  if e.p2shRevealHeadroomFunded then (spendingEstimatedFee, e)
  else
    let legs := sumRevealLegs enc plan.rates plan.prepared encoding
    let revealShortfall := max 0 (legs.revealFeeNeeded - legs.baseLegsTotal)
    let changeHeadroom := if price.bytes = 0 then enc.outputFloor else 0
    (spendingEstimatedFee + revealShortfall + changeHeadroom,
      { e with
        p2shRevealHeadroomFunded := true
        revealPrefund := some ⟨psbt.outputs.length, legs.revealSize, legs.revealFeeNeeded⟩ })

/-- Whether the reveal's custom outputs are still to be funded. -/
def Emission.owesCustomOutputs (e : Emission) : Bool :=
  0 < e.revealCustomOutputsValue || 0 < e.revealCustomOutputsFee

/-- Add the price of the reveal's custom outputs once. -/
def fundCustomOutputs (spendingEstimatedFee : ℤ) (e : Emission) : ℤ × Emission :=
  if e.owesCustomOutputs then
    (spendingEstimatedFee + e.revealCustomOutputsValue + e.revealCustomOutputsFee,
      { e with revealCustomOutputsValue := 0, revealCustomOutputsFee := 0 })
  else (spendingEstimatedFee, e)

/-- The output that a P2SH chunk will be revealed from. -/
def fundP2shLeg (plan : Plan) (price : RevealOutputsPrice) (e : Emission)
    (nextDataBuffer : Bytes) : Except BuildError Emission := do
  let psbt ← requirePsbt e.psbt
  let spendingP2shEstimatedFee := legFee plan.rates (estimateSpendingP2shTx nextDataBuffer)
  -- A plain number reaches the transaction where no exact amount was added to it.
  let plainNumber := !e.owesCustomOutputs && e.p2shRevealHeadroomFunded
  let (spendingP2shEstimatedFee, e) := fundCustomOutputs spendingP2shEstimatedFee e
  let (spendingP2shEstimatedFee, e) :=
    topUpFirstLeg enc plan price .p2sh spendingP2shEstimatedFee e psbt
  let psbt ← psbt.addOutput (p2shScript enc.lib nextDataBuffer) spendingP2shEstimatedFee
    plainNumber
  return { e with
    psbt := some psbt
    outputSatoshis := e.outputSatoshis + spendingP2shEstimatedFee
    estimatedTxSize := e.estimatedTxSize + estimateP2shOutput }

/-- The output that a P2WSH chunk will be revealed from. -/
def fundP2wshLeg (plan : Plan) (price : RevealOutputsPrice) (e : Emission)
    (nextDataBuffer : Bytes) : Except BuildError Emission := do
  let psbt ← requirePsbt e.psbt
  let needsPad := revealNeedsFloorPad enc plan.prepared plan.payments.customOutputs
  let padOutputBytes := if needsPad then
      estimateOutputSizeForAddress enc.lib enc.network plan.request.change
    else 0
  let spendingP2wshEstimatedSize := estimateSpendingP2wshTx enc.network nextDataBuffer padOutputBytes
  let spendingP2wshEstimatedFee := legFee plan.rates spendingP2wshEstimatedSize
  -- `fundRevealFloorPad`
  let spendingP2wshEstimatedFee := spendingP2wshEstimatedFee + (if needsPad then enc.dustAmount else 0)
  let plainNumber := !e.owesCustomOutputs && (padOutputBytes ≠ 0 || e.p2shRevealHeadroomFunded)
  let (spendingP2wshEstimatedFee, e) := fundCustomOutputs spendingP2wshEstimatedFee e
  let (spendingP2wshEstimatedFee, e) :=
    if padOutputBytes = 0 then topUpFirstLeg enc plan price .p2wsh spendingP2wshEstimatedFee e psbt
    else (spendingP2wshEstimatedFee, e)
  let psbt ← psbt.addOutput (p2wshScript enc.lib nextDataBuffer) spendingP2wshEstimatedFee
    plainNumber
  return { e with
    psbt := some psbt
    outputSatoshis := e.outputSatoshis + spendingP2wshEstimatedFee
    estimatedTxSize := e.estimatedTxSize + estimateP2wshOutput }

/-! ## Spending -/

/-- Read the funding transaction once, and check that it is the one named. -/
def loadFundingTx (plan : Plan) (e : Emission) : Except BuildError Emission :=
  match plan.request.p2shHex, e.p2shTx with
  | some p2shHex, none =>
    match enc.lib.transactionFromHex p2shHex with
    | none => .error (ParamTypeError "p2shHex is not a parseable transaction")
    | some tx => do
      assertRevealFundingTxMatches (plan.request.p2shHash.getD tx.id) tx.id
      return { e with p2shTx := some tx, txidFirstInput := some tx.id }
  | _, _ => .ok e

/-- The funded output of the next leg. -/
def nextLeg (e : Emission) : Except BuildError TxOut :=
  match e.p2shTx.bind fun tx => tx.outs[e.voutPsbtIndex]? with
  | some out => .ok out
  | none => .error (ParamRangeError
      s!"p2shHex transaction does not have output at index {e.voutPsbtIndex}")

/-- The funding transaction pays the script that this chunk hashes to. -/
def assertLegFundsScript (out : TxOut) (vout : ℕ) (encoding : Encoding) (script : Bytes) :
    Except BuildError Unit :=
  let expected := if encoding = .p2sh then p2shScript enc.lib script
    else p2wshScript enc.lib script
  ensure (out.script = expected) (ParamRangeError
    ((if encoding = .p2sh then "P2SH" else "P2WSH") ++ s!" reveal chunk {vout} does not match the " ++
      s!"funded output at index {vout}: the reveal payload differs from the one the funding " ++
      "transaction committed to"))

/-- The reveal's transaction with its marker output, made at the first leg. -/
def startReveal (marker : Bytes) (e : Emission) : Prog (Psbt × Option Bytes) :=
  match e.psbt with
  | some psbt => return (psbt, none)
  | none => do
    let opReturnData ← awaitObfuscate enc marker e.txidFirstInput
    let psbt ← Coro.ofExcept (σ := sig) (Psbt.empty.addOutput (embedScript opReturnData) 0 true)
    return (psbt, some opReturnData)

/-- Add the input that spends one leg. -/
def addLegInput (psbt : Psbt) (e : Emission) (leg : TxOut) (input : PsbtInput)
    (estimatedTxSize : ℕ) : Except BuildError Emission := do
  let psbt ← psbt.addInput input
  return { e with
    psbt := some psbt
    estimatedTxSize := estimatedTxSize + estimateInputSize enc.lib input
    phaseLegInputSatoshis := e.phaseLegInputSatoshis + leg.value
    voutPsbtIndex := e.voutPsbtIndex + 1 }

/-- The input that reveals a P2SH chunk. -/
def spendP2shLeg (plan : Plan) (p2shHash : Text) (e : Emission) (nextDataBuffer : Bytes) :
    Prog Emission := do
  let (psbt, opReturnData) ← startReveal enc p2shMarker e
  let estimatedTxSize := e.estimatedTxSize +
    (opReturnData.map fun d => estimateOpReturnOutput d.length).getD 0
  let leg ← Coro.ofExcept (σ := sig) (nextLeg e)
  Coro.ofExcept (σ := sig) (assertLegFundsScript enc leg e.voutPsbtIndex .p2sh nextDataBuffer)
  let nextInput : PsbtInput :=
    { hash := p2shHash
      index := e.voutPsbtIndex
      sequence := plan.utxoSequence
      witnessUtxo := none
      nonWitnessUtxo := e.p2shTx
      redeemScript := some nextDataBuffer
      witnessScript := none }
  Coro.ofExcept (σ := sig) (addLegInput enc psbt e leg nextInput estimatedTxSize)

/-- The input that reveals a P2WSH chunk. -/
def spendP2wshLeg (plan : Plan) (p2shHash : Text) (e : Emission) (nextDataBuffer : Bytes) :
    Prog Emission := do
  let (psbt, _) ← startReveal enc p2wshMarker e
  let leg ← Coro.ofExcept (σ := sig) (nextLeg e)
  Coro.ofExcept (σ := sig) (assertLegFundsScript enc leg e.voutPsbtIndex .p2wsh nextDataBuffer)
  let nextInput : PsbtInput :=
    { hash := p2shHash
      index := e.voutPsbtIndex
      sequence := plan.utxoSequence
      witnessUtxo := some leg
      nonWitnessUtxo := none
      redeemScript := none
      witnessScript := some nextDataBuffer }
  Coro.ofExcept (σ := sig) (addLegInput enc psbt e leg nextInput e.estimatedTxSize)

/-- A P2SH chunk: its leg in a commit, its input in a reveal. -/
def emitP2shChunk (plan : Plan) (price : RevealOutputsPrice) (e : Emission)
    (nextDataBuffer : Bytes) : Prog Emission := do
  let e ← Coro.ofExcept (σ := sig) (loadFundingTx enc plan e)
  match plan.request.p2shHash with
  | some p2shHash => spendP2shLeg enc plan p2shHash e nextDataBuffer
  | none => Coro.ofExcept (σ := sig) (fundP2shLeg enc plan price e nextDataBuffer)

/-- A P2WSH chunk: its leg in a commit, its input in a reveal. -/
def emitP2wshChunk (plan : Plan) (price : RevealOutputsPrice) (e : Emission)
    (nextDataBuffer : Bytes) : Prog Emission := do
  let e ← Coro.ofExcept (σ := sig) (loadFundingTx enc plan e)
  match plan.request.p2shHash with
  | some p2shHash => spendP2wshLeg enc plan p2shHash e nextDataBuffer
  | none => Coro.ofExcept (σ := sig) (fundP2wshLeg enc plan price e nextDataBuffer)

end XChain
