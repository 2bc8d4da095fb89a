import XChainEncoder.Psbt
import XChainEncoder.FeePolicy

/-!
# Size estimates

What the builder expects a signed transaction to weigh, before any signature exists.

* `compactSizeLen`, `compiledPushSize`, and one estimate for each kind of output and input;
* `estimateSpendingP2shTx`, `estimateP2shRevealTx`, `estimateSpendingP2wshTx`,
  `estimateP2wshRevealTx`, `estimateEnvelopeRevealTx`;
* `strippedTxSize`, `predictedStrippedSize`, `coreStrippedFloor`: the non-witness bytes.
-/

namespace XChain

open PushScript

/-- The bytes of a `CompactSize`. -/
def compactSizeLen (n : ℕ) : ℕ :=
  if n < 253 then 1
  else if n ≤ 0xffff then 3
  else if n ≤ 0xffffffff then 5
  else 9

/-- The bytes of a push with its length prefix. -/
def compiledPushSize (byteLength : ℕ) : ℕ :=
  if byteLength ≤ 75 then byteLength + 1
  else if byteLength ≤ 255 then byteLength + 2
  else byteLength + 3

/-! ## Outputs -/

/-- An `OP_RETURN` output that carries `dataLength` bytes. -/
def estimateOpReturnOutput (dataLength : ℕ) : ℕ :=
  let scriptLength := 1 + compiledPushSize dataLength
  8 + compactSizeLen scriptLength + scriptLength

def estimateP2shOutput : ℕ := 32

def estimateP2wshOutput : ℕ := 43

def estimateTaprootOutput : ℕ := 43

/-- A one-of-three multisig output. -/
def estimateMultisignOutput : ℕ := 114

/-- The largest output a standard address gives. -/
def largestStandardOutput : ℕ := 43

/-- The output of an address, the largest standard one when there is none to read. -/
def estimateOutputSizeForAddress (L : Library) (network : Network) (address : Option Text) : ℕ :=
  match address with
  | none => largestStandardOutput
  | some [] => largestStandardOutput
  | some a =>
    match L.toOutputScript network a with
    | none => largestStandardOutput
    | some script => 8 + (if script.length < 0xfd then 1 else 3) + script.length

/-! ## Inputs -/

/-- The `m` and the keys of a bare multisig script. -/
def parseP2ms (L : Library) (script : Bytes) : Option (ℕ × List Bytes) := do
  let chunks ← decompile script
  match chunks, chunks.reverse with
  | .op m :: _, .op last :: .op n :: rest =>
    let pubkeys := (rest.reverse.drop 1).map fun e => (e.data?.filter L.isMultisigKey)
    let keys ← pubkeys.mapM id
    if last = 0xae ∧ 0x51 ≤ m ∧ m ≤ n ∧ n ≤ 0x60 ∧ n.toNat = keys.length + 0x50 ∧
        chunks.length = keys.length + 3 then
      some (m.toNat - 0x50, keys)
    else none
  | _, _ => none

/-- A signed P2SH multisig input, when the redeem script is one. -/
def legacyP2shMultisigInputSize (L : Library) (redeemScript : Bytes) : Option ℕ := do
  let (m, pubkeys) ← parseP2ms L redeemScript
  let redeemScriptLength := 3 + (pubkeys.map fun pubkey => compiledPushSize pubkey.length).sum
  if redeemScriptLength ≠ redeemScript.length then none
  else
    let signaturePushSize := compiledPushSize 73
    let redeemPushPrefix := compiledPushSize redeemScriptLength - redeemScriptLength
    let scriptSigLength := 1 + m * signaturePushSize + redeemPushPrefix + redeemScriptLength
    some (40 + compactSizeLen scriptSigLength + scriptSigLength)

/-- The virtual bytes of a signed input, by the script it spends. -/
def inputSizeForScript (L : Library) (scriptPubKey : Bytes) (isSegwit : Bool)
    (redeemScript : Option Bytes) : ℕ :=
  if isSegwit ∧ [0x00, 0x14].isPrefixOf scriptPubKey then 68
  else if isSegwit ∧ [0x00, 0x20].isPrefixOf scriptPubKey then 105
  else if isSegwit ∧ isP2shShape scriptPubKey then 91
  else if isSegwit ∧ [0x51, 0x20].isPrefixOf scriptPubKey then 58
  else if [0x76, 0xa9, 0x14].isPrefixOf scriptPubKey ∧ [0x88, 0xac].isSuffixOf scriptPubKey then
    180
  else if [0xa9, 0x14].isPrefixOf scriptPubKey ∧ [0x87].isSuffixOf scriptPubKey then
    let multisigSize := (redeemScript.filter fun r => scriptPubKey.length = 23 &&
      L.hash160 r = (scriptPubKey.drop 2).take 20).bind (legacyP2shMultisigInputSize L)
    multisigSize.getD 289
  else 350

/-- The virtual bytes of a psbt's input; what carries no output counts as the largest. -/
def estimateInputSize (L : Library) (input : PsbtInput) : ℕ :=
  match input.witnessUtxo, input.nonWitnessUtxo with
  | some utxo, _ => inputSizeForScript L utxo.script true input.redeemScript
  | none, some tx =>
    match tx.outs[input.index]? with
    | some output => inputSizeForScript L output.script false input.redeemScript
    | none => 180
  | none, none => 350

/-- A P2SH input spending a chunk script of `n` bytes. -/
def estimateP2shInputWithRedeem (n : ℕ) : ℕ :=
  let sigPush := 1 + 72
  let pubkeyPush := 1 + 33
  let redeemPush := compiledPushSize n - n
  let scriptSig := sigPush + pubkeyPush + redeemPush + n
  let scriptVarint := if scriptSig < 253 then 1 else 3
  40 + scriptVarint + scriptSig

/-! ## Whole transactions -/

/-- `Math.ceil(n / 4)`. -/
def ceilQuarter (n : ℕ) : ℕ := (n + 3) / 4

/-- The non-witness bytes, raised to the network's floor where it has one. -/
def raiseToFloor (network : Network) (n : ℕ) : ℕ :=
  match network.minStandardTxNonWitnessSize with
  | some strippedFloor => if n < strippedFloor then strippedFloor else n
  | none => n

/-- The virtual bytes of an envelope's reveal, its witness at a quarter. -/
def estimateEnvelopeRevealTx (network : Network) (envelopeScriptLength outputsBytes : ℕ) : ℕ :=
  let witnessBytes := 2 + 1 + (1 + 65) +
    (compactSizeLen envelopeScriptLength + envelopeScriptLength) + (1 + 33)
  let nonWitnessBytes := 10 + (36 + 1 + 4) + outputsBytes
  raiseToFloor network nonWitnessBytes + ceilQuarter witnessBytes + 2

/-- `"XCHN"` and `"p2sh"`. -/
def p2shMarker : Bytes := magicWord ++ [0x70, 0x32, 0x73, 0x68]

/-- `"XCHN"` and `"p2wsh"`. -/
def p2wshMarker : Bytes := magicWord ++ [0x70, 0x32, 0x77, 0x73, 0x68]

/-- What spending one P2SH leg costs on its own. -/
def estimateSpendingP2shTx (redeemData : Bytes) : ℕ :=
  10 + estimateP2shInputWithRedeem redeemData.length +
    estimateOpReturnOutput p2shMarker.length + 8

/-- The legs of a P2SH reveal as inputs. -/
def p2shInputsBytes (dataBufferArray : List Bytes) : ℕ :=
  (dataBufferArray.map fun redeemData => estimateP2shInputWithRedeem redeemData.length + 8).sum

/-- A whole P2SH reveal, with the marker and any further outputs. -/
def estimateP2shRevealTx (dataBufferArray : List Bytes) (extraOutputsBytes : ℕ) : ℕ :=
  10 + p2shInputsBytes dataBufferArray + estimateOpReturnOutput p2shMarker.length +
    extraOutputsBytes

/-- The witness of one P2WSH leg: item count, signature, key and script. -/
def p2wshLegWitnessBytes (witnessData : Bytes) : ℕ :=
  1 + (1 + 72) + (1 + 33) + (compactSizeLen witnessData.length + witnessData.length)

/-- What spending one P2WSH leg costs on its own, with a padding output below the chain's floor.
-/
def estimateSpendingP2wshTx (network : Network) (witnessData : Bytes) (padOutputBytes : ℕ) : ℕ :=
  let witnessBytes := 2 + p2wshLegWitnessBytes witnessData
  let nonWitnessBytes := 10 + (36 + 1 + 4) + estimateOpReturnOutput p2wshMarker.length
  let nonWitnessBytes := match network.minStandardTxNonWitnessSize with
    | some strippedFloor =>
      if nonWitnessBytes < strippedFloor then max (nonWitnessBytes + padOutputBytes) strippedFloor
      else nonWitnessBytes
    | none => nonWitnessBytes
  nonWitnessBytes + ceilQuarter witnessBytes + 8

/-- The witnesses of a P2WSH reveal. -/
def p2wshWitnessBytes (dataBufferArray : List Bytes) : ℕ :=
  (dataBufferArray.map p2wshLegWitnessBytes).sum

/-- A whole P2WSH reveal, with the marker and any further outputs. -/
def estimateP2wshRevealTx (network : Network) (dataBufferArray : List Bytes)
    (extraOutputsBytes : ℕ) : ℕ :=
  let witnessBytes := 2 + p2wshWitnessBytes dataBufferArray
  let nonWitnessBytes := 10 + (36 + 1 + 4) * dataBufferArray.length +
    estimateOpReturnOutput p2wshMarker.length + extraOutputsBytes
  raiseToFloor network nonWitnessBytes + ceilQuarter witnessBytes + 8

/-! ## Non-witness bytes -/

/-- The serialized size without witness and without input scripts. -/
def strippedTxSize (psbt : Psbt) : ℕ :=
  4 + 4 + compactSizeLen psbt.inputs.length + 41 * psbt.inputs.length +
    compactSizeLen psbt.outputs.length +
    (psbt.outputs.map fun out => 8 + compactSizeLen out.script.length + out.script.length).sum

/-- The least non-witness size that relays, by the node's own rule; zero is no rule. -/
def coreStrippedFloor (network : Network) : ℕ :=
  match network.coin with
  | .btc => 65
  | .ltc => 82
  | .doge => 0

/-- The least bytes an input's script can have once signed. -/
def scriptSigLowerBound (input : PsbtInput) : ℕ :=
  if input.witnessUtxo.isSome then
    match input.redeemScript with
    | some redeemScript => 1 + redeemScript.length
    | none => 0
  else 106

/-- The non-witness bytes of the signed transaction, as far as they are certain. -/
def predictedStrippedSize (psbt : Psbt) (changeOutputBytes : ℕ) : ℕ :=
  strippedTxSize psbt + changeOutputBytes + (psbt.inputs.map scriptSigLowerBound).sum

end XChain
