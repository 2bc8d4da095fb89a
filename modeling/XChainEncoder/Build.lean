import XChainEncoder.RevealOutputs

/-!
# One build

* `planBuild`, `settleBuild`, `buildSteps`: the steps of `createTransaction` in their order;
* `Built`: everything a build has worked out when it finishes;
* `finishBuild`, `createTransaction`: the duplicate check, the release on a throw and the receipt
  on success.
-/

namespace XChain

open PushScript Coroutine

variable (enc : Encoder)

/-- A finished build before the duplicate check: each stage's own result. -/
structure Built where
  plan : Plan
  price : RevealOutputsPrice
  emitted : Emitted
  selection : Selection
  uplifted : Uplifted
  estimatedFee : ℤ
  prefunded : Prefunded
  changeSatoshis : ℤ
  psbtWithChange : Psbt
  psbt : Psbt
  envelope : Option EnvelopeReveal

/-! ## Before the first claim -/

/-- The steps up to the candidate set: no claim has been made. -/
structure Prepared where
  payments : PaymentOutputs
  rates : FeeRates
  input : PayloadInput
  compiled : CompiledPayload
  encoding : Option Encoding
  fetchedFromTracker : Bool
  candidates : List Utxo

def prepareBuild (request : TxRequest) : Prog Prepared := do
  let payments ← Coro.ofExcept (σ := sig) (checkPayloadInput enc request)
  let rates ← resolveFeeRates enc request.feePerKb request.dust
  let input ← compressPayload enc request.compress request.data request.rawData
  let compiled ← Coro.ofExcept (σ := sig) (compilePayload input.data input.rawData)
  let encoding ← Coro.ofExcept (σ := sig) (chooseEncoding enc.network request.encoding
    compiled.finalDataBuffer request.compressedPubKey request.signerSupportsTapscript)
  checkEnvelopeEncoding enc encoding request.p2shHash.isSome
  Coro.ofExcept (σ := sig) (checkExactInputs request)
  let gathered ← gatherUtxos enc request
  Coro.ofExcept (σ := sig) (refuseShrunkExactInputs request gathered.utxos)
  let candidates ← Coro.ofExcept (σ := sig) (filterAndOrderUtxos request gathered.utxos)
  return ⟨payments, rates, input, compiled, encoding, gathered.fetchedFromTracker, candidates⟩

/-! ## After the key is bound -/

/-- The plan of a build whose key is bound. -/
def planBuild (request : TxRequest) (pre : Prepared) (bound : Bound) : Except BuildError Plan := do
  let cls := classifyPayload pre.compiled.dataBuffer pre.input.rawData
  let prepared ← prepareDataChunks enc cls.hasActionPayload pre.compiled.finalDataBuffer
    pre.encoding request.pubkey request.compressedPubKey
  return ⟨request, pre.rates, pre.payments, pre.input.compressionResult, cls.hasActionPayload,
    cls.rawDataOnlyPayload, prepared, pre.fetchedFromTracker, bound⟩

/-- The outputs of the plan: data carriers, then payments. -/
def emitOutputs (plan : Plan) : Prog (RevealOutputsPrice × Emitted) := do
  let price ← Coro.ofExcept (σ := sig) (priceRevealCustomOutputs enc plan.rates plan.isReveal
    plan.isP2shFamily plan.payments.customOutputs)
  let e ← emitDataOutputs enc plan price plan.prepared.dataBufferArray (Emission.start plan price)
  let emitted ← Coro.ofExcept (σ := sig) (emitCustomOutputs enc plan e)
  return (price, emitted)

/-- From the fee to the transaction with its change. -/
def settleChange (plan : Plan) (emitted : Emitted) (sel : Selection) (up : Uplifted) :
    Except BuildError (Prefunded × ℤ × Psbt) := do
  let estimatedFee := floorEstimatedFee enc emitted up.estimatedFee
  let prefunded ← prefundRevealPackage enc plan emitted sel up estimatedFee
  let changeSatoshis ← computeChange enc plan sel prefunded.outputSatoshis estimatedFee
  let psbt ← emitChangeAndPad enc plan changeSatoshis prefunded.psbt
  refuseUnderStrippedFloor enc plan psbt
  return (prefunded, changeSatoshis, psbt)

/-- The steps after selection. -/
def settleBuild (plan : Plan) (price : RevealOutputsPrice) (emitted : Emitted) (sel : Selection) :
    Prog Built := do
  Coro.ofExcept (σ := sig) (refuseInsufficientRelayFee enc plan emitted sel)
  Coro.ofExcept (σ := sig) (refuseExcessiveFee enc plan emitted sel)
  let up ← upliftForAncestors enc plan emitted sel
  let estimatedFee := floorEstimatedFee enc emitted up.estimatedFee
  let (prefunded, changeSatoshis, psbtWithChange) ←
    Coro.ofExcept (σ := sig) (settleChange enc plan emitted sel up)
  let psbt ← sweepP2shReveal enc plan emitted estimatedFee psbtWithChange
  let envelope ← Coro.ofExcept (σ := sig)
    (buildEnvelopeReveal enc plan psbt prefunded.envelopeContext)
  return ⟨plan, price, emitted, sel, up, estimatedFee, prefunded, changeSatoshis, psbtWithChange,
    psbt, envelope⟩

/-- The steps between the bound key and the duplicate check. -/
def buildFromBound (request : TxRequest) (pre : Prepared) (bound : Bound) : Prog Built := do
  let plan ← Coro.ofExcept (σ := sig) (planBuild enc request pre bound)
  let (price, emitted) ← emitOutputs enc plan
  let start ← Coro.ofExcept (σ := sig) (initSelection request.fee emitted)
  let sel ← selectFundingInputs enc plan emitted start
  settleBuild enc plan price emitted sel

/-! ## The result -/

/-- What the caller gets. -/
def Built.result (b : Built) : TxResult where
  psbt := b.psbt
  encoding := b.plan.prepared.encoding
  rawDataOnlyWarning := b.plan.rawDataOnlyPayload
  compression := b.plan.compression
  carrierScripts := if b.plan.isP2shFamily || b.envelope.isSome then
    some b.plan.prepared.dataBufferArray else none
  revealPsbt := b.envelope.map EnvelopeReveal.revealPsbt
  envelope := b.envelope.map EnvelopeReveal.result
  reservation := none

/-- Refuse a duplicate, record the build on the ledger and hand the result back. -/
def finishBuild (b : Built) : Prog Built := do
  let now ← Coro.readClock
  let (s, l) ← Coro.read
  Coro.write (σ := sig) (s.evictExpiredRecentBuilds now) l
  let txid ← Coro.ofExcept (σ := sig) (b.psbt.unsignedTxid enc.lib)
  let (r, s) := s.refuseDuplicateBuild txid now
  match r with
  | .error e => Coro.throw e
  | .ok () => do
    Coro.write (σ := sig) s { l with buildTxid := some txid }
    return b

def buildSteps (request : TxRequest) : Prog Built := do
  let pre ← prepareBuild enc request
  let bound ← bindObfuscationKey request.exactInputs pre.candidates
  let built ← buildFromBound enc request pre bound
  finishBuild enc built

/-- Release what a failed call claimed, and throw on. -/
def releaseAndRethrow {α : Type} (e : BuildError) : Prog α := do
  yieldTick
  let (s, l) ← Coro.read
  Coro.write (σ := sig) (s.releaseCallReservations l.claims) l
  Coro.throw e

/-- The receipt for what a successful call keeps. -/
def mintReceipt : Prog (Option Receipt) := do
  let now ← Coro.readClock
  let (s, l) ← Coro.read
  let (receipt, s) := s.mintReservationTicket l now
  Coro.write (σ := sig) s l
  return receipt

def createTransaction (request : TxRequest) : Prog TxResult := do
  let built ← Coro.tryCatch (do
    let built ← buildSteps enc request
    yieldTick
    return built) releaseAndRethrow
  let receipt ← mintReceipt
  return { built.result with reservation := receipt }

end XChain
