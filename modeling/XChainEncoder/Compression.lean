import XChainEncoder.Requests

/-!
# Payload compression

A FILE v0 action may carry its raw data deflated, with the codec named in its eleventh field.

* `isFileV0Action`, `isGatedFileAction`, `compressionFieldOf`, `withCompressionField`: the action
  string by its fields;
* `compressPayloadForAction`: deflate, unless the action cannot carry the marker or the result is
  no smaller;
* `quiet_compressPayload`, `always_compressPayload`: it touches no state, and its result is a
  function of the payload.
-/

namespace XChain

open PushScript Coroutine

/-- Where a `FILE` names the ticker that gates it. -/
def gateTickerFieldIndex : ℕ := 6
/-- Where a `FILE` names its compression. -/
def compressionFieldIndex : ℕ := 10

/-- `'1'`. -/
def compressionCodeDeflateRaw : Bytes := [0x31]
/-- The greatest ratio of expansion. -/
def compressionMaxRatio : ℕ := 150
/-- The largest input that is compressed. -/
def compressionMaxInputBytes : ℕ := 16 * 1024 * 1024

/-- The fields between `|`. -/
def actionParts (actionString : Bytes) : List Bytes := actionString.splitOn 0x7c

/-- `toUpperCase` of the characters that can spell `FILE`: the ASCII letters, the ligature of `f`
and `i`, and the dotless `i`. -/
def upperFile : Bytes → Bytes
  | 0xef :: 0xac :: 0x81 :: rest => 0x46 :: 0x49 :: upperFile rest
  | 0xc4 :: 0xb1 :: rest => 0x49 :: upperFile rest
  | b :: rest => (if 0x61 ≤ b ∧ b ≤ 0x7a then b - 0x20 else b) :: upperFile rest
  | [] => []

/-- The action whose raw data may be compressed. -/
def isFileV0Action (actionString : Option Bytes) : Bool :=
  match actionString with
  | none => false
  | some a =>
    a ≠ [] && (actionParts a).head?.map upperFile = some [0x46, 0x49, 0x4c, 0x45] &&
      (actionParts a)[1]? = some [0x30]

/-- A field of a FILE v0 action, empty when it is not there. -/
def fileField (actionString : Option Bytes) (index : ℕ) : Bytes :=
  if isFileV0Action actionString then (actionString.bind fun a => (actionParts a)[index]?).getD []
  else []

/-- A `FILE` that names a gate ticker. -/
def isGatedFileAction (actionString : Option Bytes) : Bool :=
  fileField actionString gateTickerFieldIndex ≠ []

/-- The compression that a `FILE` already names. -/
def compressionFieldOf (actionString : Option Bytes) : Bytes :=
  fileField actionString compressionFieldIndex

/-- Drop empty fields at the end, keeping the first two. -/
def dropEmptyFields (parts : List Bytes) : List Bytes :=
  parts.take 2 ++ ((parts.drop 2).reverse.dropWhile (· = [])).reverse

/-- The action with its compression field set, and padded up to it. -/
def withCompressionField (actionString value : Bytes) : Bytes :=
  let parts := actionParts actionString
  let parts := parts ++ List.replicate (compressionFieldIndex + 1 - parts.length) []
  [0x7c].intercalate (dropEmptyFields (parts.set compressionFieldIndex value))

/-- The text of UTF-8 bytes. -/
def utf8Text (b : Bytes) : String := (String.fromUTF8? ⟨b.toArray⟩).getD ""

/-- Why the payload cannot be compressed, with the error an explicit request gets. -/
def guardCompressible (actionString : Option Bytes) (rawDataBuffer : Bytes) :
    Option (String × BuildError) :=
  if ¬ isFileV0Action actionString then some ("not-a-file-action", ParamTypeError
    ("Compression requested, but COMPRESSION is a FILE v0 field: " ++
      "refusing to compress a payload whose action cannot carry the marker."))
  else if isGatedFileAction actionString then some ("gated-file", ParamTypeError
    ("Compression requested for a token-gated FILE. On a gated FILE the " ++
      "COMPRESSION field means inflate-after-decrypt and belongs to the client that " ++
      "performed compress-then-encrypt; the encoder must not set it. " ++
      "Compress the plaintext before encrypting and pass the field in the action string."))
  else if compressionFieldOf actionString ≠ [] then some ("codec-already-declared", ParamTypeError
    ("Compression requested, but the action already declares COMPRESSION=" ++
      s!"'{utf8Text (compressionFieldOf actionString)}'. " ++
      "Refusing to re-compress bytes whose codec the caller already asserted."))
  else if compressionMaxInputBytes < rawDataBuffer.length then some ("over-input-cap",
    ParamRangeError (s!"Payload of {rawDataBuffer.length} bytes exceeds the " ++
      s!"{compressionMaxInputBytes}-byte compression input cap."))
  else none

/-- The payload as it was, and why. -/
def unchangedPayload (actionString : Option Bytes) (rawDataBuffer : Bytes) (reason : String) :
    CompressionResult :=
  ⟨actionString, rawDataBuffer, false, rawDataBuffer.length, rawDataBuffer.length, some reason⟩

/-- What a finished deflate gives. -/
def acceptDeflated (actionString : Option Bytes) (rawDataBuffer deflated : Bytes) :
    CompressionResult :=
  if rawDataBuffer.length ≤ deflated.length then
    unchangedPayload actionString rawDataBuffer "not-smaller"
  else if deflated.length * compressionMaxRatio < rawDataBuffer.length then
    unchangedPayload actionString rawDataBuffer "ratio-guard"
  else
    ⟨actionString.map (withCompressionField · compressionCodeDeflateRaw), deflated, true,
      rawDataBuffer.length, deflated.length, none⟩

/-- Compress the raw data of a `FILE`, where that makes the payload smaller. -/
def compressPayloadForAction (L : Library) (actionString : Option Bytes) (rawDataBuffer : Bytes)
    (explicit : Bool) : Prog CompressionResult :=
  if rawDataBuffer = [] then
    return unchangedPayload actionString rawDataBuffer "no-payload"
  else
    match guardCompressible actionString rawDataBuffer with
    | some (reason, error) =>
      if explicit then Coro.throw error
      else return unchangedPayload actionString rawDataBuffer reason
    | none => do
      yieldTick
      match L.deflateRaw rawDataBuffer with
      | some deflated => return acceptDeflated actionString rawDataBuffer deflated
      | none => return unchangedPayload actionString rawDataBuffer "deflate-failed"

/-- The payload after compression: `data`, `rawData` and what compression reports. -/
structure PayloadInput where
  data : Option Bytes
  rawData : Option Bytes
  compressionResult : Option CompressionResult
  deriving DecidableEq, Repr

/-- The payload a compression result leaves. -/
def applyCompression (data rawData : Option Bytes) (result : CompressionResult) : PayloadInput :=
  if result.compressed then ⟨result.data, some result.rawData, some result⟩
  else ⟨data, rawData, some result⟩

/-- What a build makes of the caller's wish to compress. -/
def compressPayload (enc : Encoder) (compress : Option Bool) (data rawData : Option Bytes) :
    Prog PayloadInput :=
  match compress.getD enc.defaultCompressionEnabled, rawData with
  | true, some originalBuffer => do
    let result ← compressPayloadForAction enc.lib data originalBuffer compress.isSome
    -- The compressor is an async function: awaiting its result is one more suspension.
    yieldTick
    return applyCompression data rawData result
  | _, _ => return ⟨data, rawData, none⟩

/-! ## Compression is a function of the payload -/

/-- What the compressor makes of a payload, without its awaits. -/
def compressionOutcome (L : Library) (actionString : Option Bytes) (rawDataBuffer : Bytes)
    (explicit : Bool) : Except BuildError CompressionResult :=
  if rawDataBuffer = [] then .ok (unchangedPayload actionString rawDataBuffer "no-payload")
  else
    match guardCompressible actionString rawDataBuffer with
    | some (reason, error) =>
      if explicit then .error error else .ok (unchangedPayload actionString rawDataBuffer reason)
    | none =>
      match L.deflateRaw rawDataBuffer with
      | some deflated => .ok (acceptDeflated actionString rawDataBuffer deflated)
      | none => .ok (unchangedPayload actionString rawDataBuffer "deflate-failed")

/-- The payload of a request after compression. -/
def compressedInput (enc : Encoder) (compress : Option Bool) (data rawData : Option Bytes) :
    Except BuildError PayloadInput :=
  match compress.getD enc.defaultCompressionEnabled, rawData with
  | true, some originalBuffer =>
    (compressionOutcome enc.lib data originalBuffer compress.isSome).map
      (applyCompression data rawData)
  | _, _ => .ok ⟨data, rawData, none⟩

theorem quiet_compressPayloadForAction (L : Library) (actionString : Option Bytes)
    (rawDataBuffer : Bytes) (explicit : Bool) :
    Quiet (compressPayloadForAction L actionString rawDataBuffer explicit) := by
  unfold compressPayloadForAction
  by_cases he : rawDataBuffer = []
  · rw [if_pos he]
    trivial
  · rw [if_neg he]
    cases guardCompressible actionString rawDataBuffer with
    | some p => cases explicit <;> trivial
    | none =>
      refine quiet_bind quiet_yieldTick fun _ => ?_
      cases L.deflateRaw rawDataBuffer <;> trivial

theorem quiet_compressPayload (enc : Encoder) (compress : Option Bool)
    (data rawData : Option Bytes) : Quiet (compressPayload enc compress data rawData) := by
  unfold compressPayload
  split
  · refine quiet_bind (quiet_compressPayloadForAction ..) fun r => ?_
    exact quiet_bind quiet_yieldTick fun _ => trivial
  · trivial

theorem always_compressPayloadForAction (L : Library) (actionString : Option Bytes)
    (rawDataBuffer : Bytes) (explicit : Bool) :
    Always (fun r => compressionOutcome L actionString rawDataBuffer explicit = .ok r)
      (fun e => compressionOutcome L actionString rawDataBuffer explicit = .error e)
      (compressPayloadForAction L actionString rawDataBuffer explicit) := by
  unfold compressPayloadForAction compressionOutcome
  by_cases he : rawDataBuffer = []
  · simp only [he, if_true]
    rfl
  · simp only [he, if_false]
    cases guardCompressible actionString rawDataBuffer with
    | some p => cases explicit <;> rfl
    | none =>
      intro r _
      cases L.deflateRaw rawDataBuffer <;> rfl

/-- **The awaits of compression change nothing.** -/
theorem always_compressPayload (enc : Encoder) (compress : Option Bool)
    (data rawData : Option Bytes) :
    Always (fun r => compressedInput enc compress data rawData = .ok r)
      (fun e => compressedInput enc compress data rawData = .error e)
      (compressPayload enc compress data rawData) := by
  unfold compressPayload compressedInput
  split
  · refine always_bind.mpr (always_mono (fun result hr => ?_) (fun e he => ?_)
      (always_compressPayloadForAction ..))
    · intro r _
      rw [hr]
      rfl
    · rw [he]
      rfl
  · rfl

end XChain
