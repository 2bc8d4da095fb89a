import XChainEncoder.Lib.Chunking
import XChainEncoder.Identity

/-!
# The compiled payload and its chunks

From the caller's `data` and `rawData` to the buffers each encoding carries.

* `validateActionPushDecodability`, `compilePayload`, `classifyPayload`, `chooseEncoding`;
* `opReturnPayload`, `scriptHashPayload`, `multisignPayload`, `envelopePayload`, dispatched by
  `prepareData`;
* `opReturnScript`, `multisignScript`: the output scripts of the two obfuscated carriers.
-/

namespace XChain

open PushScript Chunking

/-! ## Compiling -/

/-- One byte that the minimal-push rule turns into an opcode. -/
def isMinimalOpSingleByte : Bytes → Bool
  | [b] => (0x01 ≤ b && b ≤ 0x10) || b == 0x81
  | _ => false

/-- A payload of one minimal-opcode byte is refused: the decoder would drop it. -/
def validateActionPushDecodability (data rawData : Option Bytes) : Except BuildError Unit := do
  ensure (!(data.any isMinimalOpSingleByte)) (ParamRangeError
    ("data must not be a single byte in the minimal-opcode range (0x01-0x10, 0x81); " ++
      "it compiles to a bare opcode that the decoder discards, silently dropping the ACTION"))
  ensure (!(rawData.any isMinimalOpSingleByte)) (ParamRangeError
    ("rawData must not be a single byte in the minimal-opcode range (0x01-0x10, 0x81); " ++
      "it compiles to a bare opcode that the decoder discards, silently dropping rawData"))

/-- The action's bytes, and the pushes they compile to. -/
structure CompiledPayload where
  dataBuffer : Bytes
  finalDataBuffer : Bytes
  deriving DecidableEq, Repr

/-- The action and the raw data, each as one push. -/
def compilePayload (data rawData : Option Bytes) : Except BuildError CompiledPayload := do
  validateActionPushDecodability data rawData
  let dataBuffer := data.getD []
  let dataToCompile := match rawData with
    | some rawDataBuffer => [Element.push dataBuffer, .push rawDataBuffer]
    | none => [.push dataBuffer]
  return { dataBuffer, finalDataBuffer := compile dataToCompile }

/-- Whether there is a payload, and whether it has no action. -/
structure PayloadClass where
  hasActionPayload : Bool
  rawDataOnlyPayload : Bool
  deriving DecidableEq, Repr

/-- An empty action counts as none. -/
def classifyPayload (dataBuffer : Bytes) (rawData : Option Bytes) : PayloadClass where
  hasActionPayload := 0 < dataBuffer.length || rawData.isSome
  rawDataOnlyPayload := dataBuffer.length = 0 && rawData.isSome

/-! ## Choosing an encoding -/

/-- The encoding a caller asks for: none, the smallest available, or one by name. -/
inductive EncodingChoice where
  | default
  | auto
  | named (encoding : Encoding)
  deriving DecidableEq, Repr

/-- The smallest carrier that the network and the signer support. -/
def selectEncoding (network : Network) (compiledLength : ℕ) (compressedPubKey : Option Bytes)
    (signerSupportsTapscript : Bool) : Encoding :=
  if compiledLength + magicWord.length ≤ opReturnSize then .opReturn
  else if network.supportsSegwit && signerSupportsTapscript && compressedPubKey.isSome then
    .taproot
  else if network.supportsSegwit then .p2wsh
  else .p2sh

/-- The bytes a compiled payload may have under an encoding. -/
def compiledCeiling (encoding : Option Encoding) : ℕ :=
  if encoding = some .taproot then envelopeMaxPayload else maxCompiledActionDataLength

/-- The encoding to build, under its payload ceiling; `none` is left to `prepareData`. -/
def chooseEncoding (network : Network) (choice : EncodingChoice) (finalDataBuffer : Bytes)
    (compressedPubKey : Option Bytes) (signerSupportsTapscript : Bool) :
    Except BuildError (Option Encoding) := do
  let encoding := match choice with
    | .default => none
    | .auto => some (selectEncoding network finalDataBuffer.length compressedPubKey
        signerSupportsTapscript)
    | .named e => some e
  ensure (finalDataBuffer.length ≤ compiledCeiling encoding) (ParamRangeError
    (s!"Payload too large: compiled size {finalDataBuffer.length} bytes exceeds maximum " ++
      s!"{compiledCeiling encoding} bytes " ++
      (if encoding = some .taproot then "(TAPROOT envelope payload ceiling)"
        else "(compiled on-chain ACTION push)")))
  ensure (!(encoding = some .p2wsh && network.supportsSegwit = false)) (ParamTypeError
    "P2WSH encoding is not supported on this network (no segwit support)")
  return encoding

/-! ## The payload of each encoding -/

/-- The buffers an encoding carries, one for each data output. -/
structure PreparedData where
  dataBufferArray : List Bytes
  encoding : Encoding
  internalPubkey : Option Bytes
  deriving DecidableEq, Repr

/-- One chunk after the magic word, or a refusal when it does not fit. -/
def opReturnPayload (data : Bytes) (encoding : Encoding) : Except BuildError PreparedData := do
  let chunksSize := opReturnSize - magicWord.length
  ensure (data.length ≤ chunksSize) (ParamRangeError
    (s!"OP_RETURN encoding requires compiled payload <= {chunksSize} bytes; " ++
      s!"got {data.length}. Use P2SH for larger payloads."))
  return ⟨[magicWord ++ data], encoding, none⟩

/-- Consecutive chunks, the last two re-cut when the last is one minimal-opcode byte. -/
def slicePushes (chunksSize : ℕ) (data : Bytes) : List Bytes :=
  rebalance isMinimalOpSingleByte data (slice chunksSize data)

/-- The chunks of the script-hash carriers. -/
def sliceScriptHashChunks (data : Bytes) (chunksSize : ℕ) : List Bytes :=
  slicePushes chunksSize data

/-- The pushes of an envelope. -/
def sliceEnvelopeChunks (data : Bytes) : List Bytes := slicePushes taprootEnvelopeChunkSize data

/-- `<chunk> OP_DROP OP_DUP OP_HASH160 <hash160> OP_EQUALVERIFY OP_CHECKSIG`. -/
def chunkScript (chunk hash160 : Bytes) : Bytes :=
  compile [.push chunk, .op 0x75, .op 0x76, .op 0xa9, .push hash160, .op 0x88, .op 0xac]

/-- `chunksSize` of a script-hash carrier: the redeem script's ceiling less its opcodes. -/
def scriptHashChunksSize (encoding : Encoding) : ℕ :=
  (if encoding = .p2sh then p2shSize else pw2shSize) - 44

/-- `chunksSize` of the multisig carrier: what magic, opcodes and length bytes leave. -/
def multisignChunksSize : ℕ := multisignSize - magicWord.length - 1 - 1 - 1 - 1 - 1

/-- The bytes of one multisig output that carry data. -/
def multisignSlotSize : ℕ := 64

/-- The magic word and a chunk, padded with zeros to the slot. -/
def multisignSlot (chunk : Bytes) : Bytes :=
  let nextChunk := magicWord ++ chunk
  nextChunk ++ List.replicate (multisignSlotSize - nextChunk.length) 0x00

/-- One padded slot for each chunk. -/
def multisignPayload (data : Bytes) (encoding : Encoding) : PreparedData :=
  ⟨(slice multisignChunksSize data).map multisignSlot, encoding, none⟩

/-- `OP_FALSE OP_IF <magic> <format> <chunks> OP_ENDIF <internal key> OP_CHECKSIG`. -/
def envelopeScript (envelopeChunks : List Bytes) (internalPubkey : Bytes) : Bytes :=
  compile ([.op 0x00, .op 0x63, .push magicWord, .push [taprootEnvelopeFormatV0]] ++
    envelopeChunks.map .push ++ [.op 0x68, .push internalPubkey, .op 0xac])

variable (L : Library)

/-- One redeem script for each chunk, locked to the caller's key hash. -/
def scriptHashPayload (data : Bytes) (encoding : Encoding) (pubKey : Text) :
    Except BuildError PreparedData := do
  let pubkeyFromBase58 ← resolveCallerHash160 L pubKey
  let p2shChunks := sliceScriptHashChunks data (scriptHashChunksSize encoding)
  return ⟨p2shChunks.map fun chunk => chunkScript chunk pubkeyFromBase58, encoding, none⟩

/-- 33 bytes with a compressed prefix, on the curve. -/
def validateCompressedPubKey (compressedPubKey : Bytes) : Except BuildError Unit := do
  ensure (compressedPubKey.length = 33 &&
      (compressedPubKey.head? = some 0x02 || compressedPubKey.head? = some 0x03))
    (ParamTypeError
      "compressedPubKey must be a 66-character hex string starting with 02 or 03")
  assertPubkeyOnCurve L compressedPubKey "compressedPubKey"

/-- One envelope script, under the caller's key without its prefix byte. -/
def envelopePayload (data : Bytes) (encoding : Encoding) (compressedPubKey : Option Bytes) :
    Except BuildError PreparedData :=
  match compressedPubKey with
  | none => .error (ParamTypeError ("compressedPubKey is required for TAPROOT encoding " ++
      "(it becomes the envelope internal key)"))
  | some key => do
    validateCompressedPubKey L key
    let internalPubkey := key.drop 1
    return ⟨[envelopeScript (sliceEnvelopeChunks data) internalPubkey], encoding,
      some internalPubkey⟩

/-- The buffers of the chosen encoding; without a choice, `OP_RETURN` where it fits. -/
def prepareData (data : Bytes) (encoding : Option Encoding) (pubKey : Text)
    (compressedPubKey : Option Bytes) : Except BuildError PreparedData :=
  let encoding := encoding.getD
    (if data.length + magicWord.length ≤ opReturnSize then .opReturn else .p2sh)
  match encoding with
  | .opReturn => opReturnPayload data encoding
  | .p2sh | .p2wsh => scriptHashPayload L data encoding pubKey
  | .multisign => .ok (multisignPayload data encoding)
  | .taproot => envelopePayload L data encoding compressedPubKey

/-! ## Output scripts of the obfuscated carriers -/

/-- The nulldata script of one OP_RETURN chunk. -/
def opReturnScript (chunk : Bytes) (txidFirstInput : Text) : Option Bytes :=
  (obfuscate L chunk txidFirstInput).map embedScript

/-- `02` and the data, filled with zeros to thirty-two bytes. -/
def dataToPubkey (data : Bytes) : Bytes :=
  0x02 :: (data ++ List.replicate (32 - data.length) 0x00)

/-- The 1-of-3 script of one MULTISIGN slot. -/
def multisignScript (slot : Bytes) (txidFirstInput : Text) (compressedPubKey : Bytes) :
    Option Bytes := do
  let obfuscatedData ← obfuscate L slot txidFirstInput
  p2msScript L [dataToPubkey (obfuscatedData.take 32), dataToPubkey (obfuscatedData.drop 32),
    compressedPubKey]

end XChain
