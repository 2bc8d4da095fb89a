import XChainEncoder.ScriptHashLegs

/-!
# Data outputs and custom outputs

* `prepareDataChunks`, `priceRevealCustomOutputs`, `Emission.start`;
* `emitOpReturnChunk`, `emitMultisignChunk`, `emitEnvelopeCommit`, over all chunks in
  `emitDataOutputs`;
* `emitCustomOutputs`: the payments, and the relay surcharge of everything emitted;
* `quiet_emitDataOutputs`: emission touches no state.
-/

namespace XChain

open PushScript Coroutine

variable (enc : Encoder)

/-- The dust relay threshold of a bare multisig output. -/
def bareMultisigRelayDustFor (scriptLength : ℕ) (hardDustThreshold : ℤ) : ℤ :=
  match dustRelayFeePerByteByCoin enc.network.coin with
  | some perByte => (8 + 1 + scriptLength + 148) * perByte
  | none => hardDustThreshold

/-- The carrier's buffers, or none without a payload. -/
def prepareDataChunks (hasActionPayload : Bool) (finalDataBuffer : Bytes)
    (encoding : Option Encoding) (pubkey : Text) (compressedPubKey : Option Bytes) :
    Except BuildError PreparedData :=
  if hasActionPayload then prepareData enc.lib finalDataBuffer encoding pubkey compressedPubKey
  else .ok ⟨[], .opReturn, none⟩

/-- The values of the reveal's outputs, each exact. -/
def parseOutputValues : List CustomOutput → ℕ → Except BuildError (List ℤ)
  | [], _ => .ok []
  | o :: os, i => do
    let value ← parseSatoshiAmount o.value s!"customOutputs[{i}].value" true
    let values ← parseOutputValues os (i + 1)
    return value :: values

/-- What a commit adds for the outputs its reveal will pay. -/
def priceRevealCustomOutputs (rates : FeeRates) (isReveal isP2shFamily : Bool)
    (customOutputs : List CustomOutput) : Except BuildError RevealOutputsPrice :=
  if isReveal || !isP2shFamily then .ok ⟨0, 0, 0⟩
  else do
    let values ← parseOutputValues customOutputs 0
    let bytes := (customOutputs.map fun o =>
      estimateOutputSizeForAddress enc.lib enc.network (some o.address)).sum
    let fee := if 0 < bytes ∧ 0 < rates.feePerBytes then feeForVsize bytes rates.feePerBytes else 0
    let fee := if 0 < bytes then
        fee + softDustSurchargeFor (customOutputs.map CustomOutput.value)
          (softDustFloorFor enc.network)
      else fee
    return ⟨values.sum, bytes, fee⟩

/-- Nothing emitted yet. -/
def Emission.start (plan : Plan) (price : RevealOutputsPrice) : Emission where
  psbt := if plan.isReveal then none else some Psbt.empty
  outputSatoshis := 0
  estimatedTxSize := 10
  txidFirstInput := plan.bound.txidFirstInput
  p2shTx := none
  voutPsbtIndex := 0
  phaseLegInputSatoshis := 0
  revealCustomOutputsValue := price.value
  revealCustomOutputsFee := price.fee
  p2shRevealHeadroomFunded := false
  revealPrefund := none
  envelopeContext := none

/-- Emit one output of a data carrier. -/
def emitDataOutput (e : Emission) (script : Bytes) (value : ℤ) (sizeEstimate : ℕ) :
    Except BuildError Emission := do
  let psbt ← requirePsbt e.psbt
  let psbt ← psbt.addOutput script value true
  return { e with
    psbt := some psbt
    outputSatoshis := e.outputSatoshis + value
    estimatedTxSize := e.estimatedTxSize + sizeEstimate }

/-- A nulldata output of the obfuscated chunk. -/
def emitOpReturnChunk (e : Emission) (nextDataBuffer : Bytes) : Prog Emission := do
  let obfuscatedData ← awaitObfuscate enc nextDataBuffer e.txidFirstInput
  Coro.ofExcept (σ := sig) (emitDataOutput e (embedScript obfuscatedData) 0
    (estimateOpReturnOutput obfuscatedData.length))

/-- The 1-of-3 output of one obfuscated slot. -/
def emitMultisignOutput (plan : Plan) (e : Emission) (obfuscatedData : Bytes) :
    Except BuildError Emission :=
  match plan.request.compressedPubKey with
  | none => .error (PlainError "The first argument must be of type string. Received null")
  | some compressedPubKey =>
    match p2msScript enc.lib [dataToPubkey (obfuscatedData.take 32),
        dataToPubkey (obfuscatedData.drop 32), compressedPubKey] with
    | none => .error (PlainError "Pubkeys are not valid")
    | some script =>
      emitDataOutput e script
        (max plan.rates.finalDust (bareMultisigRelayDustFor enc script.length enc.dustAmount))
        estimateMultisignOutput

/-- A multisig output with the obfuscated chunk in two of its keys. -/
def emitMultisignChunk (plan : Plan) (e : Emission) (nextDataBuffer : Bytes) : Prog Emission := do
  let obfuscatedData ← awaitObfuscate enc nextDataBuffer e.txidFirstInput
  -- The two awaited `dataToPubkey`.
  yieldTick
  yieldTick
  Coro.ofExcept (σ := sig) (emitMultisignOutput enc plan e obfuscatedData)

/-- Where the reveal's remainder goes: the change address, else the caller's own. -/
def changeOrCaller (request : TxRequest) : Except BuildError Text :=
  match request.change with
  | some change => .ok change
  | none => resolveCallerAddress enc.lib enc.network request.pubkey

/-- Whether the envelope's reveal needs a second output to reach the stripped-size floor. -/
def envelopePadNeeded (revealChangeOutBytes : ℕ) : Bool :=
  match enc.network.minStandardTxNonWitnessSize with
  | some envStrippedFloor => 10 + 41 + revealChangeOutBytes < envStrippedFloor
  | none => false

/-- The commit output of an envelope: the reveal's fee, its change output and its pad. -/
def emitEnvelopeCommit (plan : Plan) (e : Emission) (nextDataBuffer : Bytes) :
    Except BuildError Emission := do
  let psbt ← requirePsbt e.psbt
  let internalPubkey := plan.prepared.internalPubkey.getD []
  match p2trScript enc.lib internalPubkey nextDataBuffer with
  | none => throw (PlainError "Expected property of type Point")
  | some commitScript =>
    let revealChangeAddress ← changeOrCaller enc plan.request
    let revealChangeOutBytes := estimateOutputSizeForAddress enc.lib enc.network
      (some revealChangeAddress)
    let revealPadNeeded := envelopePadNeeded enc revealChangeOutBytes
    let revealOutputsBytes := revealChangeOutBytes +
      (if revealPadNeeded then revealChangeOutBytes else 0)
    let revealVsize := estimateEnvelopeRevealTx enc.network nextDataBuffer.length revealOutputsBytes
    let revealFee := max (feeForVsize revealVsize plan.rates.feePerBytes) plan.rates.finalDust
    let commitValue := revealFee + enc.dustAmount +
      (if revealPadNeeded then enc.dustAmount else 0)
    let e ← emitDataOutput e commitScript commitValue estimateTaprootOutput
    return { e with
      revealPrefund := some ⟨psbt.outputs.length, revealVsize, revealFee⟩
      envelopeContext := some
        { internalPubkey, envelopeScript := nextDataBuffer, commitScript, commitValue, revealFee,
          revealPadNeeded, revealChangeAddress } }

/-- One chunk, by its carrier. -/
def emitChunk (plan : Plan) (price : RevealOutputsPrice) (e : Emission) (nextDataBuffer : Bytes) :
    Prog Emission :=
  match plan.prepared.encoding with
  | .opReturn => emitOpReturnChunk enc e nextDataBuffer
  | .p2sh => emitP2shChunk enc plan price e nextDataBuffer
  | .p2wsh => emitP2wshChunk enc plan price e nextDataBuffer
  | .multisign => emitMultisignChunk enc plan e nextDataBuffer
  | .taproot => Coro.ofExcept (σ := sig) (emitEnvelopeCommit enc plan e nextDataBuffer)

/-- The data outputs, chunk by chunk. -/
def emitDataOutputs (plan : Plan) (price : RevealOutputsPrice) :
    List Bytes → Emission → Prog Emission
  | [], e => return e
  | nextDataBuffer :: rest, e => do
    let e ← emitChunk enc plan price e nextDataBuffer
    emitDataOutputs plan price rest e

/-- The payments from index `i`; the fee quote skips the payment floor. -/
def emitPayments (feeQuoteIndex : Option ℕ) : List CustomOutput → ℕ → Psbt × ℤ × ℕ →
    Except BuildError (Psbt × ℤ × ℕ)
  | [], _, acc => .ok acc
  | output :: outputs, i, (psbt, outputSatoshis, estimatedTxSize) => do
    let outputValue ← customOutputValue output i
    if feeQuoteIndex ≠ some i then assertPaymentOverDust outputValue i enc.paymentOutputFloor
    let psbt ← psbt.addAddressOutput enc.lib enc.network output.address outputValue false
    emitPayments feeQuoteIndex outputs (i + 1)
      (psbt, outputSatoshis + outputValue, estimatedTxSize + 43)

/-- A build with all outputs but change in place. -/
structure Emitted where
  emission : Emission
  psbt : Psbt
  outputSatoshis : ℤ
  estimatedTxSize : ℕ
  softDustSurcharge : ℤ

/-- The caller's payments; a script-hash commit leaves them to its reveal. -/
def emitCustomOutputs (plan : Plan) (e : Emission) : Except BuildError Emitted := do
  let psbt ← requirePsbt e.psbt
  let outputs := if !plan.isReveal && plan.isP2shFamily then [] else plan.payments.customOutputs
  let (psbt, outputSatoshis, estimatedTxSize) ←
    emitPayments enc plan.payments.feeQuoteIndex outputs 0
      (psbt, e.outputSatoshis, e.estimatedTxSize)
  return ⟨e, psbt, outputSatoshis, estimatedTxSize,
    softDustSurchargeFor (psbt.outputs.map TxOut.value) (softDustFloorFor enc.network)⟩

/-! ## Emission in steps -/

variable {enc}

theorem requirePsbt_eq_ok {psbt : Option Psbt} {q : Psbt} :
    requirePsbt psbt = .ok q ↔ psbt = some q := by
  cases psbt <;> simp [requirePsbt]

theorem emitPayments_cons {feeQuoteIndex : Option ℕ} {output : CustomOutput}
    {outputs : List CustomOutput} {i : ℕ} {psbt : Psbt} {outputSatoshis : ℤ} {size : ℕ}
    {acc : Psbt × ℤ × ℕ} :
    emitPayments enc feeQuoteIndex (output :: outputs) i (psbt, outputSatoshis, size) = .ok acc ↔
      ∃ v psbt', customOutputValue output i = .ok v ∧
        (feeQuoteIndex ≠ some i → enc.paymentOutputFloor ≤ v) ∧
        psbt.addAddressOutput enc.lib enc.network output.address v false = .ok psbt' ∧
        emitPayments enc feeQuoteIndex outputs (i + 1) (psbt', outputSatoshis + v, size + 43) =
          .ok acc := by
  simp only [emitPayments, bind_eq_ok]
  by_cases hi : feeQuoteIndex = some i
  · simp [hi]
  · simp [hi, assertPaymentOverDust]

/-! ## Emission touches no state -/

theorem quiet_awaitObfuscate (data : Bytes) (key : Option Text) :
    Quiet (awaitObfuscate enc data key) := by
  refine quiet_bind quiet_yieldTick fun _ => ?_
  cases key.bind (obfuscate enc.lib data) <;> trivial

theorem quiet_startReveal (marker : Bytes) (e : Emission) : Quiet (startReveal enc marker e) := by
  unfold startReveal
  cases e.psbt with
  | some psbt => trivial
  | none =>
    refine quiet_bind (quiet_awaitObfuscate _ _) fun d => ?_
    exact quiet_bind (quiet_ofExcept (σ := sig) _) fun _ => trivial

theorem quiet_spendP2shLeg (plan : Plan) (p2shHash : Text) (e : Emission) (chunk : Bytes) :
    Quiet (spendP2shLeg enc plan p2shHash e chunk) := by
  refine quiet_bind (quiet_startReveal _ _) fun r => ?_
  refine quiet_bind (quiet_ofExcept (σ := sig) _) fun leg => ?_
  exact quiet_bind (quiet_ofExcept (σ := sig) _) fun _ => quiet_ofExcept (σ := sig) _

theorem quiet_spendP2wshLeg (plan : Plan) (p2shHash : Text) (e : Emission) (chunk : Bytes) :
    Quiet (spendP2wshLeg enc plan p2shHash e chunk) := by
  refine quiet_bind (quiet_startReveal _ _) fun r => ?_
  refine quiet_bind (quiet_ofExcept (σ := sig) _) fun leg => ?_
  exact quiet_bind (quiet_ofExcept (σ := sig) _) fun _ => quiet_ofExcept (σ := sig) _

theorem quiet_emitChunk (plan : Plan) (price : RevealOutputsPrice) (e : Emission)
    (chunk : Bytes) : Quiet (emitChunk enc plan price e chunk) := by
  unfold emitChunk
  cases plan.prepared.encoding with
  | opReturn =>
    exact quiet_bind (quiet_awaitObfuscate _ _) fun _ => quiet_ofExcept (σ := sig) _
  | p2sh =>
    refine quiet_bind (quiet_ofExcept (σ := sig) _) fun e => ?_
    cases plan.request.p2shHash with
    | none => exact quiet_ofExcept (σ := sig) _
    | some p2shHash => exact quiet_spendP2shLeg plan p2shHash e chunk
  | multisign =>
    refine quiet_bind (quiet_awaitObfuscate _ _) fun _ => ?_
    refine quiet_bind quiet_yieldTick fun _ => quiet_bind quiet_yieldTick fun _ => ?_
    exact quiet_ofExcept (σ := sig) _
  | p2wsh =>
    refine quiet_bind (quiet_ofExcept (σ := sig) _) fun e => ?_
    cases plan.request.p2shHash with
    | none => exact quiet_ofExcept (σ := sig) _
    | some p2shHash => exact quiet_spendP2wshLeg plan p2shHash e chunk
  | taproot => exact quiet_ofExcept (σ := sig) _

theorem quiet_emitDataOutputs (plan : Plan) (price : RevealOutputsPrice) (chunks : List Bytes)
    (e : Emission) : Quiet (emitDataOutputs enc plan price chunks e) := by
  induction chunks generalizing e with
  | nil => trivial
  | cons chunk rest ih =>
    exact quiet_bind (quiet_emitChunk plan price e chunk) fun e => ih e

end XChain
