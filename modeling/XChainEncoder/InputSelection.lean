import XChainEncoder.DataOutputs

/-!
# Input selection

Walks the candidates in order, claiming and adding inputs until they cover outputs plus fee, or in
exact-input mode until every named one is spent.

* `Selection`: the accumulators of the walk; `initSelection`;
* `skipReservedInput`: the reservation check and the claim, one step on the shared state;
* `addSelectedInput`, `selectStep`, `selectInputs`, `selectFundingInputs`;
* `refuseEmptySelection`, `refuseFirstInputRace`.
-/

namespace XChain

open PushScript Coroutine

/-- The most inputs of a transaction, and the most outputs a request may offer. -/
def maxUtxoCount : ℕ := 500

/-- The accumulators of selection. -/
structure Selection where
  psbt : Psbt
  estimatedTxSize : ℕ
  estimatedFee : ℤ
  requestedFee : Option ℤ
  inputSatoshis : ℤ
  selectedInputCount : ℕ
  unconfirmedInputTxids : List Text
  reservedCandidates : ℕ
  segwitMarkerCounted : Bool

/-- The selection before its first input, with room for a change output. -/
def initSelection (fee : Option ℤ) (emitted : Emitted) : Except BuildError Selection := do
  let estimatedTxSize := emitted.estimatedTxSize + 43
  -- The output count takes two more bytes past 252 outputs.
  let estimatedTxSize := if 252 < emitted.psbt.outputs.length + 1 then estimatedTxSize + 2
    else estimatedTxSize
  let requestedFee ← match fee with
    | some f => (parseSatoshiAmount f "fee" false).map some
    | none => .ok none
  return { psbt := emitted.psbt
           estimatedTxSize
           estimatedFee := (requestedFee.map (· + emitted.softDustSurcharge)).getD 0
           requestedFee
           inputSatoshis := 0
           selectedInputCount := 0
           unconfirmedInputTxids := []
           reservedCandidates := 0
           segwitMarkerCounted := false }

theorem initSelection_eq_ok {fee : Option ℤ} {emitted : Emitted} {acc : Selection}
    (h : initSelection fee emitted = .ok acc) :
    acc = { psbt := emitted.psbt
            estimatedTxSize := if 252 < emitted.psbt.outputs.length + 1 then
                emitted.estimatedTxSize + 43 + 2
              else emitted.estimatedTxSize + 43
            estimatedFee := (fee.map (· + emitted.softDustSurcharge)).getD 0
            requestedFee := fee
            inputSatoshis := 0
            selectedInputCount := 0
            unconfirmedInputTxids := []
            reservedCandidates := 0
            segwitMarkerCounted := false } := by
  unfold initSelection at h
  cases fee with
  | none =>
    cases h
    rfl
  | some f =>
    obtain ⟨requested, hrequested, h⟩ := bind_eq_ok.mp h
    cases h
    cases hf : parseSatoshiAmount f "fee" false with
    | error e =>
      rw [hf] at hrequested
      cases hrequested
    | ok v =>
      rw [hf] at hrequested
      cases hrequested
      rw [(parseSatoshiAmount_eq_ok.mp hf).1]

variable (enc : Encoder)

/-- The fee the build will finally charge, as far as selection knows. -/
def selectionTargetFee (estimatedFee : ℤ) : ℤ := max estimatedFee enc.dustAmount

/-- Whether the transaction, with a change output if one fits, reaches the relay floor. -/
def clearsStrippedFloor (plan : Plan) (outputSatoshis : ℤ) (psbt : Psbt)
    (inputSatoshis selectionFee : ℤ) : Bool :=
  match plan.request.change with
  | none => true
  | some change =>
    if coreStrippedFloor enc.network = 0 || plan.isReveal then true
    else
      let changeSatoshis := inputSatoshis - outputSatoshis - selectionFee
      let changeBytes := if enc.outputFloor ≤ changeSatoshis then
          estimateOutputSizeForAddress enc.lib enc.network (some change)
        else 0
      coreStrippedFloor enc.network ≤ predictedStrippedSize psbt changeBytes

/-- The value the free candidates from here on could still add, until it passes `required`;
lapsed reservations are deleted on the way. -/
def remainingCandidatesCanFund (plan : Plan) (required : ℤ) (now : ℕ) :
    ℕ → List Utxo → ℤ → Reservations → Except BuildError Bool × Reservations
  | _, [], _, s => (.ok false, s)
  | index, u :: us, available, s =>
    let key := outpointKey u
    let (reserved, s) :=
      if !plan.request.exactInputs && plan.bound.firstReservedOutpoint ≠ some key then
        s.isOutpointReserved key now
      else (false, s)
    if reserved then remainingCandidatesCanFund plan required now (index + 1) us available s
    else
      match parseSatoshiAmount u.value s!"utxos[{index}].value" true with
      | .error e => (.error e, s)
      | .ok v => if required < available + v then (.ok true, s)
          else remainingCandidatesCanFund plan required now (index + 1) us (available + v) s

/-- The error of a selection that has reached the input limit. -/
def cappedSelectionError (plan : Plan) (outputSatoshis : ℤ) (now index : ℕ)
    (rest : List Utxo) (acc : Selection) (s : Reservations) : BuildError × Reservations :=
  let required := outputSatoshis + selectionTargetFee enc acc.estimatedFee
  match remainingCandidatesCanFund plan required now index rest acc.inputSatoshis s with
  | (.error e, s) => (e, s)
  | (.ok true, s) => (ParamRangeError (s!"selected input count would exceed the maximum " ++
      s!"({maxUtxoCount}) inputs for a single transaction"), s)
  | (.ok false, s) => (OperationalError "NO_CONFIRMED_UTXO"
      (s!"no input selection can fund the transaction within the {maxUtxoCount}-input maximum " ++
        "without waiting for a larger output to confirm or consolidating the confirmed outputs"),
      s)

/-- A selection at the input cap is refused; the candidates left decide how. -/
def refuseCappedSelection (plan : Plan) (outputSatoshis : ℤ) (now index : ℕ)
    (rest : List Utxo) (acc : Selection) : Prog Unit :=
  if acc.selectedInputCount < maxUtxoCount then return ()
  else do
    let (s, l) ← Coro.read
    let (e, s) := cappedSelectionError enc plan outputSatoshis now index rest acc s
    Coro.write (σ := sig) s l
    Coro.throw e

/-- No legacy input under an envelope, no witness program on a chain without them. -/
def refuseUnsignableInput (encoding : Encoding) (nextUtxo : Utxo) : Except BuildError Unit := do
  ensure (!(encoding = .taproot && !isSegwitUTXO nextUtxo)) (ParamTypeError
    ("TAPROOT commit inputs must be native-segwit UTXOs (witness-program scriptPubKey); " ++
      s!"utxo {String.ofList nextUtxo.txid}:{nextUtxo.vout} is not. A non-segwit input would " ++
      "shift the commit txid at signing time and strand the pre-built reveal."))
  ensure (!(enc.network.supportsSegwit = false && isSegwitUTXO nextUtxo)) (ParamTypeError
    (s!"Input {String.ofList nextUtxo.txid}:{nextUtxo.vout} carries a witness-program " ++
      "scriptPubKey, which this network does not support (no segwit). Spend legacy inputs on " ++
      "this chain."))

/-- Skip what another build holds, else claim it: the outpoint the build has claimed for its first
input is neither checked nor claimed again. -/
def skipReservedInput (plan : Plan) (key : Outpoint) (now : ℕ) (l : Ledger) (s : Reservations) :
    Bool × Ledger × Reservations :=
  if plan.request.exactInputs ∨ plan.bound.firstReservedOutpoint = some key then (false, l, s)
  else
    let (reserved, s) := s.isOutpointReserved key now
    if reserved then (true, l, s)
    else
      let (l, s) := s.claimOutpoint l key now
      (false, l, s)

/-- Whose fault a wrong previous output is. -/
def wrongPrevOut (fetchedFromTracker : Bool) (problem : String) : BuildError :=
  if fetchedFromTracker then
    OperationalError "UTXO_TRACKER_ERROR" s!"utxo-tracker returned a wrong utxo: {problem}"
  else ParamRangeError problem

/-- The previous transaction, when it pays the stated value to the outpoint. -/
def assertPrevOutValueMatches (prevTxHex : Text) (utxo : Utxo) (fetchedFromTracker : Bool) :
    Except BuildError ParsedTx :=
  let outpoint := s!"{String.ofList utxo.txid}:{utxo.vout}"
  let missing := wrongPrevOut fetchedFromTracker
    s!"previous transaction for utxo {outpoint} has no output at index {utxo.vout}"
  match enc.lib.transactionFromHex prevTxHex with
  | none => .error missing
  | some tx =>
    match tx.outs[utxo.vout]? with
    | none => .error missing
    | some prevOut =>
      if prevOut.value = utxo.value then .ok tx
      else .error (wrongPrevOut fetchedFromTracker
        (s!"utxo {outpoint} states value {utxo.value} but the previous transaction pays " ++
          s!"{prevOut.value} to that output"))

/-- The previous transaction of a candidate, fetched and checked. -/
def checkedPrevTx (plan : Plan) (utxo : Utxo) : Prog ParsedTx := do
  let prevTxHex : Text ← Coro.request (σ := sig) (.transactionHex utxo.txid)
  Coro.ofExcept (σ := sig) (assertPrevOutValueMatches enc prevTxHex utxo plan.fetchedFromTracker)

/-- The input for one candidate, with the previous transaction where the signer needs it. -/
def selectedInput (plan : Plan) (utxo : Utxo) (nestedRedeem : Option Bytes) : Prog PsbtInput :=
  let witnessInput (nonWitnessUtxo : Option ParsedTx) : PsbtInput :=
    { hash := utxo.txid, index := utxo.vout, sequence := plan.utxoSequence,
      witnessUtxo := some ⟨utxo.scriptPubKey, utxo.value⟩, nonWitnessUtxo,
      redeemScript := nestedRedeem, witnessScript := none }
  if nestedRedeem.isSome || isSegwitUTXO utxo then
    if plan.request.attachPrevTx then do
      let tx ← checkedPrevTx enc plan utxo
      return witnessInput (some tx)
    else return witnessInput none
  else do
    let tx ← checkedPrevTx enc plan utxo
    return { hash := utxo.txid, index := utxo.vout, sequence := plan.utxoSequence,
             witnessUtxo := none, nonWitnessUtxo := some tx,
             redeemScript := matchingLegacyRedeemScript enc.lib utxo, witnessScript := none }

/-- The bytes an input adds beyond its own size: the segwit marker once, and the input count past
252 inputs. -/
def framingBytesForInput (markerCounted segwitInput : Bool) (selectedInputCount : ℕ) : ℕ :=
  (if !markerCounted && segwitInput then 1 else 0) + (if selectedInputCount = 253 then 2 else 0)

/-- The accumulators after one more input. -/
def Selection.add (plan : Plan) (emitted : Emitted) (acc : Selection) (utxo : Utxo)
    (input : PsbtInput) (nested : Bool) : Except BuildError Selection := do
  let psbt ← acc.psbt.addInput input
  let segwitInput := nested || isSegwitUTXO utxo
  let selectedInputCount := acc.selectedInputCount + 1
  let estimatedTxSize := acc.estimatedTxSize + estimateInputSize enc.lib input +
    framingBytesForInput acc.segwitMarkerCounted segwitInput selectedInputCount
  return { acc with
    psbt
    estimatedTxSize
    estimatedFee := match plan.request.fee with
      | none => feeForVsize estimatedTxSize plan.rates.feePerBytes + emitted.softDustSurcharge
      | some _ => acc.estimatedFee
    inputSatoshis := acc.inputSatoshis + utxo.value
    selectedInputCount
    unconfirmedInputTxids := if isUnconfirmedUtxo utxo then acc.unconfirmedInputTxids ++ [utxo.txid]
      else acc.unconfirmedInputTxids
    segwitMarkerCounted := acc.segwitMarkerCounted || segwitInput }

/-- Whether the inputs so far are enough. -/
def Selection.enough (plan : Plan) (emitted : Emitted) (acc : Selection) : Bool :=
  let targetFee := selectionTargetFee enc acc.estimatedFee
  !plan.request.exactInputs && emitted.outputSatoshis + targetFee < acc.inputSatoshis &&
    clearsStrippedFloor enc plan emitted.outputSatoshis acc.psbt acc.inputSatoshis targetFee

/-- Consider one candidate: skip it when it is held, else claim and add it. -/
def selectStep (plan : Plan) (emitted : Emitted) (now index : ℕ) (nextUtxo : Utxo)
    (rest : List Utxo) (acc : Selection) : Prog (Bool × Selection) := do
  refuseCappedSelection enc plan emitted.outputSatoshis now index (nextUtxo :: rest) acc
  Coro.ofExcept (σ := sig) (refuseUnsignableInput enc plan.prepared.encoding nextUtxo)
  let (s, l) ← Coro.read
  let (skipped, l, s) := skipReservedInput plan (outpointKey nextUtxo) now l s
  Coro.write (σ := sig) s l
  if skipped then return (false, { acc with reservedCandidates := acc.reservedCandidates + 1 })
  else
    let _ ← Coro.ofExcept (σ := sig) (parseSatoshiAmount nextUtxo.value
      s!"utxos[{index}].value" true)
    let nestedRedeem := nestedP2wpkhRedeem enc.lib enc.network plan.request.pubkey
      plan.request.compressedPubKey nextUtxo
    let input ← selectedInput enc plan nextUtxo nestedRedeem
    let acc ← Coro.ofExcept (σ := sig)
      (acc.add enc plan emitted nextUtxo input nestedRedeem.isSome)
    return (acc.enough enc plan emitted, acc)

/-- The walk over the candidates, at one clock reading. -/
def selectLoop (plan : Plan) (emitted : Emitted) (now : ℕ) :
    ℕ → List Utxo → Selection → Prog Selection
  | _, [], acc => return acc
  | index, nextUtxo :: rest, acc => do
    let (done, acc) ← selectStep enc plan emitted now index nextUtxo rest acc
    if done then return acc else selectLoop plan emitted now (index + 1) rest acc

/-- Take inputs until they cover the target. -/
def selectInputs (plan : Plan) (emitted : Emitted) (acc : Selection) : Prog Selection := do
  let now ← Coro.readClock
  let (s, l) ← Coro.read
  Coro.write (σ := sig) (s.evictExpiredReservations now) l
  selectLoop enc plan emitted now 0 plan.bound.utxos acc

/-- A selection has an input, and no more than the cap. -/
def refuseEmptySelection (acc : Selection) : Except BuildError Unit := do
  ensure (acc.selectedInputCount ≤ maxUtxoCount) (ParamRangeError
    (s!"selected input count ({acc.selectedInputCount}) exceeds the maximum ({maxUtxoCount}) " ++
      "inputs for a single transaction"))
  ensure (acc.selectedInputCount ≠ 0) (OperationalError "INSUFFICIENT_FUNDS"
    (if 0 < acc.reservedCandidates then
      (s!"insufficient funds: all {acc.reservedCandidates} candidate input(s) are reserved by a " ++
        "transaction built in the last 5 minutes; broadcast that transaction and wait for its " ++
        "change to appear, or wait for the reservation to lapse")
    else "insufficient funds: no spendable inputs available (all candidates reserved or empty)"))

/-- The key of an obfuscated carrier must be the txid of the first input. -/
def refuseFirstInputRace (plan : Plan) (txidFirstInput : Option Text) (psbt : Psbt) :
    Except BuildError Unit :=
  match txidFirstInput with
  | some key =>
    if plan.hasActionPayload &&
        (plan.prepared.encoding = .opReturn || plan.prepared.encoding = .multisign) then
      ensure (psbt.inputs.head?.map PsbtInput.hash = some key) (OperationalError
        "INPUT_SELECTION_RACE"
        ("input selection raced a concurrent reservation: the obfuscation key is bound to an " ++
          "outpoint that is not the first input; retry the request"))
    else .ok ()
  | none => .ok ()

/-- A reveal has its inputs already. -/
def selectFundingInputs (plan : Plan) (emitted : Emitted) (acc : Selection) : Prog Selection :=
  if plan.isReveal then return acc
  else do
    let acc ← selectInputs enc plan emitted acc
    Coro.ofExcept (σ := sig) (refuseEmptySelection acc)
    Coro.ofExcept (σ := sig)
      (refuseFirstInputRace plan emitted.emission.txidFirstInput acc.psbt)
    return acc

end XChain
