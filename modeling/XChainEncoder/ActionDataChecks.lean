import XChainEncoder.Compression

/-!
# Request checks on the action data

What the request surface checks on `data` and `rawData` before the builder sees them. Both arrive
as strings of UTF-16 code units and are written to bytes, one as UTF-8 and one as Latin-1.

* `bufferFromUtf8`, `byteLengthUtf8`, `bufferFromBinary`, `binaryString`: the two conversions;
* `validateDataParam`, `validateCombinedDataLength`: the checks, on strings;
* `length_compileElement_push`: the arithmetic push size is that of the compiled push;
* `preCheck_agrees`: **the request check accepts what the builder's length checks accept**.
-/

namespace XChain

open PushScript

/-- A string by its UTF-16 code units. -/
abbrev CodeUnits := List UInt16

/-! ## Strings and bytes -/

def isLeadSurrogate (u : UInt16) : Bool := 0xd800 ≤ u && u ≤ 0xdbff
def isTrailSurrogate (u : UInt16) : Bool := 0xdc00 ≤ u && u ≤ 0xdfff

/-- `String.prototype.isWellFormed`: every surrogate is half of a pair. -/
def isWellFormed : CodeUnits → Bool
  | [] => true
  | [u] => !isLeadSurrogate u && !isTrailSurrogate u
  | u :: v :: rest =>
    if isLeadSurrogate u then isTrailSurrogate v && isWellFormed rest
    else !isTrailSurrogate u && isWellFormed (v :: rest)

/-- The UTF-8 bytes of a code point. -/
def utf8CodePoint (c : ℕ) : Bytes :=
  if c < 0x80 then [UInt8.ofNat c]
  else if c < 0x800 then [UInt8.ofNat (0xc0 + c / 64), UInt8.ofNat (0x80 + c % 64)]
  else if c < 0x10000 then
    [UInt8.ofNat (0xe0 + c / 4096), UInt8.ofNat (0x80 + c / 64 % 64), UInt8.ofNat (0x80 + c % 64)]
  else [UInt8.ofNat (0xf0 + c / 262144), UInt8.ofNat (0x80 + c / 4096 % 64),
    UInt8.ofNat (0x80 + c / 64 % 64), UInt8.ofNat (0x80 + c % 64)]

/-- The code point of one unit; a surrogate without its other half is replaced. -/
def unitCodePoint (u : UInt16) : ℕ :=
  if isLeadSurrogate u || isTrailSurrogate u then 0xfffd else u.toNat

def pairCodePoint (u v : UInt16) : ℕ := 0x10000 + (u.toNat - 0xd800) * 1024 + (v.toNat - 0xdc00)

/-- `Buffer.from(s, 'utf8')`. -/
def bufferFromUtf8 : CodeUnits → Bytes
  | [] => []
  | [u] => utf8CodePoint (unitCodePoint u)
  | u :: v :: rest =>
    if isLeadSurrogate u && isTrailSurrogate v then
      utf8CodePoint (pairCodePoint u v) ++ bufferFromUtf8 rest
    else utf8CodePoint (unitCodePoint u) ++ bufferFromUtf8 (v :: rest)

/-- Bytes a unit outside a pair takes. -/
def utf8UnitLength (u : UInt16) : ℕ := if u < 0x80 then 1 else if u < 0x800 then 2 else 3

/-- `Buffer.byteLength(s, 'utf8')`. -/
def byteLengthUtf8 : CodeUnits → ℕ
  | [] => 0
  | [u] => utf8UnitLength u
  | u :: v :: rest =>
    if isLeadSurrogate u && isTrailSurrogate v then 4 + byteLengthUtf8 rest
    else utf8UnitLength u + byteLengthUtf8 (v :: rest)

/-- `Buffer.from(s, 'binary')`: the low byte of every unit. -/
def bufferFromBinary (s : CodeUnits) : Bytes := s.map fun u => UInt8.ofNat u.toNat

/-- `Buffer.byteLength(s, 'binary')`. -/
def byteLengthBinary (s : CodeUnits) : ℕ := s.length

/-- `buffer.toString('binary')`: one unit for each byte. -/
def binaryString (b : Bytes) : CodeUnits := b.map fun c => UInt16.ofNat c.toNat

@[simp] theorem length_bufferFromBinary (s : CodeUnits) :
    (bufferFromBinary s).length = byteLengthBinary s := by
  simp [bufferFromBinary, byteLengthBinary]

@[simp] theorem bufferFromBinary_binaryString (b : Bytes) :
    bufferFromBinary (binaryString b) = b := by
  rw [bufferFromBinary, binaryString, List.map_map]
  refine (List.map_congr_left fun c _ => ?_).trans (List.map_id b)
  simp

theorem length_utf8CodePoint_unit (u : UInt16) :
    (utf8CodePoint (unitCodePoint u)).length = utf8UnitLength u := by
  have hu := u.toNat_lt
  unfold unitCodePoint utf8UnitLength
  simp only [UInt16.lt_iff_toNat_lt]
  split_ifs with hsurrogate h1 h2 h1 h2
  all_goals
    simp only [isLeadSurrogate, isTrailSurrogate, Bool.or_eq_true, Bool.and_eq_true,
      decide_eq_true_eq, UInt16.le_iff_toNat_le, UInt16.reduceToNat] at *
    try omega
  · rfl
  · simp [utf8CodePoint, h1]
  · simp [utf8CodePoint, h1, h2]
  · have h3 : u.toNat < 65536 := by omega
    simp [utf8CodePoint, h1, h2, h3]

theorem length_utf8CodePoint_pair (u v : UInt16) :
    (utf8CodePoint (pairCodePoint u v)).length = 4 := by
  have h : ∀ k, 0x10000 ≤ pairCodePoint u v + k := fun k => by
    unfold pairCodePoint
    omega
  have := h 0
  unfold utf8CodePoint
  rw [if_neg (by omega), if_neg (by omega), if_neg (by omega)]
  rfl

@[simp] theorem length_bufferFromUtf8 (s : CodeUnits) :
    (bufferFromUtf8 s).length = byteLengthUtf8 s := by
  induction s using bufferFromUtf8.induct with
  | case1 => rfl
  | case2 u => exact length_utf8CodePoint_unit u
  | case3 u v rest hpair ih =>
    rw [bufferFromUtf8, byteLengthUtf8, if_pos hpair, if_pos hpair, List.length_append, ih,
      length_utf8CodePoint_pair]
  | case4 u v rest hpair ih =>
    rw [bufferFromUtf8, byteLengthUtf8, if_neg hpair, if_neg hpair, List.length_append, ih,
      length_utf8CodePoint_unit]

/-! ## The checks -/

/-- The first unit that is no Latin-1 byte. -/
def firstNonLatin1 (s : CodeUnits) : Option ℕ := s.findIdx? fun u => 0xff < u

/-- The string, when the bytes written for it can be read back. -/
def validateDataParam (value : Option CodeUnits) (fieldName : String) :
    Except BuildError (Option CodeUnits) :=
  match value with
  | none => .ok none
  | some s =>
    if fieldName = "rawData" then
      match firstNonLatin1 s with
      | some bad => .error (ParamRangeError (s!"{fieldName} contains a code point above U+00FF " ++
          s!"at index {bad} that cannot be encoded as a latin-1 byte"))
      | none => .ok (some s)
    else if isWellFormed s then .ok (some s)
    else .error (ParamRangeError (s!"{fieldName} is not well-formed Unicode (unpaired " ++
      "surrogate) and cannot round-trip through UTF-8"))

def maxOpReturnCompiledLength : ℕ := opReturnSize - magicWord.length

/-- The size of one compiled push, which from 65536 bytes on has a header two bytes longer. -/
def envelopePushSize (byteLength : ℕ) : ℕ :=
  compiledPushSize byteLength + if 0xffff < byteLength then 2 else 0

/-- The size the request check expects the builder to compile. -/
def combinedPushSize (data rawData : Option CodeUnits) : ℕ :=
  let dataBytes := (data.map byteLengthUtf8).getD 0
  let rawBytes := (rawData.map byteLengthBinary).getD 0
  envelopePushSize dataBytes + if rawData.isSome then envelopePushSize rawBytes else 0

def validateCombinedDataLength (data rawData : Option CodeUnits) (encoding : EncodingChoice) :
    Except BuildError Unit :=
  if data.isNone && rawData.isNone then .ok ()
  else do
    let compiled := combinedPushSize data rawData
    let wideCeiling : Bool := encoding = .named .taproot || encoding = .auto
    let ceiling := if wideCeiling then envelopeMaxPayload else maxCompiledActionDataLength
    ensure (compiled ≤ ceiling) (ParamRangeError
      (s!"Combined compiled payload ({compiled} bytes) exceeds maximum ({ceiling}" ++
        (if wideCeiling then ", the TAPROOT envelope payload ceiling" else "") ++ ")"))
    ensure (!(encoding = .named .opReturn && maxOpReturnCompiledLength < compiled)) (ParamRangeError
      (s!"OP_RETURN encoding requires compiled payload <= {maxOpReturnCompiledLength} bytes; " ++
        s!"got {compiled}. Use P2SH for larger payloads."))

/-! ## The builder's side -/

/-- A push that is no bare opcode compiles to the size the request check computes. -/
theorem length_compileElement_push {d : Bytes} (hd : isMinimalOpSingleByte d = false) :
    (compileElement (.push d)).length = envelopePushSize d.length := by
  match d with
  | [] => rfl
  | [b] =>
    have hop : asMinimalOP [b] = none := by
      simp only [isMinimalOpSingleByte, Bool.or_eq_false_iff, Bool.and_eq_false_iff,
        decide_eq_false_iff_not, beq_eq_false_iff_ne] at hd
      rw [asMinimalOP, if_neg (by tauto), if_neg hd.2]
    simp only [compileElement, hop]
    rfl
  | a :: b :: l =>
    have hop : asMinimalOP (a :: b :: l) = none := rfl
    simp only [compileElement, hop, List.length_append, length_pushHeader, envelopePushSize,
      compiledPushSize]
    split_ifs <;> omega

/-- The length checks of the builder: the ceiling of the chosen encoding, and the single output of
an `OP_RETURN` carrier. -/
def LengthAccepted (network : Network) (encoding : Encoding) (compressedPubKey : Option Bytes)
    (signerSupportsTapscript : Bool) (finalDataBuffer : Bytes) : Prop :=
  (∀ message, chooseEncoding network (.named encoding) finalDataBuffer compressedPubKey
    signerSupportsTapscript ≠ .error (ParamRangeError message)) ∧
  (encoding = .opReturn → ∃ prepared, opReturnPayload finalDataBuffer encoding = .ok prepared)

variable {network : Network} {encoding : Encoding} {compressedPubKey : Option Bytes}
  {signerSupportsTapscript : Bool}

theorem chooseEncoding_length {finalDataBuffer : Bytes} :
    (∀ message, chooseEncoding network (.named encoding) finalDataBuffer compressedPubKey
      signerSupportsTapscript ≠ .error (ParamRangeError message)) ↔
    finalDataBuffer.length ≤ compiledCeiling (some encoding) := by
  unfold chooseEncoding
  dsimp only
  constructor
  · intro h
    by_contra hlong
    rw [ensure, if_neg (by simpa using hlong)] at h
    exact h _ rfl
  · intro hle message h
    rw [ensure, if_pos (by simpa using hle)] at h
    rcases bind_eq_error.mp h with h | ⟨_, -, h⟩
    · cases h
    · rcases bind_eq_error.mp h with h | ⟨_, -, h⟩
      · unfold ensure at h
        split_ifs at h
        cases h
      · cases h

theorem opReturnPayload_length {finalDataBuffer : Bytes} :
    (∃ prepared, opReturnPayload finalDataBuffer encoding = .ok prepared) ↔
      finalDataBuffer.length ≤ maxOpReturnCompiledLength := by
  simp only [opReturnPayload, bind_eq_ok, ensure_eq_ok, decide_eq_true_eq, maxOpReturnCompiledLength]
  constructor
  · rintro ⟨_, _, h, -⟩
    exact h
  · exact fun h => ⟨_, (), h, rfl⟩

theorem lengthAccepted_iff {finalDataBuffer : Bytes} :
    LengthAccepted network encoding compressedPubKey signerSupportsTapscript finalDataBuffer ↔
      finalDataBuffer.length ≤ compiledCeiling (some encoding) ∧
      (encoding = .opReturn → finalDataBuffer.length ≤ maxOpReturnCompiledLength) := by
  rw [LengthAccepted, chooseEncoding_length, opReturnPayload_length]

theorem validateCombinedDataLength_eq_ok {data rawData : Option CodeUnits} :
    validateCombinedDataLength data rawData (.named encoding) = .ok () ↔
      combinedPushSize data rawData ≤ compiledCeiling (some encoding) ∧
      (encoding = .opReturn → combinedPushSize data rawData ≤ maxOpReturnCompiledLength) := by
  unfold validateCombinedDataLength
  split_ifs with hnone
  · -- Nothing to carry compiles to one byte, which every encoding holds.
    rw [Bool.and_eq_true, Option.isNone_iff_eq_none, Option.isNone_iff_eq_none] at hnone
    obtain ⟨rfl, rfl⟩ := hnone
    cases encoding <;> decide
  · simp only [bind_eq_ok, ensure_eq_ok]
    cases encoding <;> simp [compiledCeiling]

/-- The builder compiles the payload to the size the request check expects. -/
theorem compilePayload_length {data rawData : Option CodeUnits}
    (hpush : validateActionPushDecodability (data.map bufferFromUtf8)
      (rawData.map bufferFromBinary) = .ok ()) :
    ∃ compiled, compilePayload (data.map bufferFromUtf8) (rawData.map bufferFromBinary) =
        .ok compiled ∧ compiled.finalDataBuffer.length = combinedPushSize data rawData := by
  have hminimal : (data.map bufferFromUtf8).any isMinimalOpSingleByte = false ∧
      (rawData.map bufferFromBinary).any isMinimalOpSingleByte = false := by
    simpa only [validateActionPushDecodability, bind_eq_ok, ensure_eq_ok, Bool.not_eq_true',
      exists_const] using hpush
  have hdata : (compileElement (.push ((data.map bufferFromUtf8).getD []))).length =
      envelopePushSize ((data.map byteLengthUtf8).getD 0) := by
    cases data with
    | none => rfl
    | some s =>
      rw [Option.map_some, Option.getD_some, length_compileElement_push hminimal.1,
        length_bufferFromUtf8]
      rfl
  unfold compilePayload
  rw [hpush]
  refine ⟨_, rfl, ?_⟩
  cases rawData with
  | none =>
    simp only [Option.map_none, length_compile_cons, hdata, combinedPushSize]
    rfl
  | some s =>
    have hraw := length_compileElement_push (d := bufferFromBinary s) hminimal.2
    rw [length_bufferFromBinary] at hraw
    simp only [Option.map_some, length_compile_cons, hdata, hraw, combinedPushSize]
    rfl

/-- **The request check accepts what the builder's length checks accept**, at the builder's own
length of the payload. -/
theorem preCheck_agrees (enc : Encoder) (data rawData : Option CodeUnits)
    (hpush : validateActionPushDecodability (data.map bufferFromUtf8)
      (rawData.map bufferFromBinary) = .ok ())
    (compress : Option Bool) (hoff : compress.getD enc.defaultCompressionEnabled = false)
    (encoding : Encoding) (compressedPubKey : Option Bytes) (signerSupportsTapscript : Bool) :
    ∃ compiled, (compressedInput enc compress (data.map bufferFromUtf8)
        (rawData.map bufferFromBinary) >>= fun input => compilePayload input.data input.rawData) =
          .ok compiled ∧
      compiled.finalDataBuffer.length = combinedPushSize data rawData ∧
      (validateCombinedDataLength data rawData (.named encoding) = .ok () ↔
        LengthAccepted enc.network encoding compressedPubKey signerSupportsTapscript
          compiled.finalDataBuffer) := by
  have hinput : compressedInput enc compress (data.map bufferFromUtf8)
      (rawData.map bufferFromBinary) =
        .ok ⟨data.map bufferFromUtf8, rawData.map bufferFromBinary, none⟩ := by
    unfold compressedInput
    rw [hoff]
  obtain ⟨compiled, hcompiled, hlength⟩ := compilePayload_length hpush
  refine ⟨compiled, by rw [hinput]; exact hcompiled, hlength, ?_⟩
  rw [validateCombinedDataLength_eq_ok, lengthAccepted_iff, hlength]

/-- `FILE|0` with one raw byte, as an `OP_RETURN` payload. -/
theorem preCheck_agrees_file :
    ∃ compiled, (compressedInput (sampleEncoder ⟨.btc, .mainnet⟩) (some false)
        (some (bufferFromUtf8 [0x46, 0x49, 0x4c, 0x45, 0x7c, 0x30]))
        (some (bufferFromBinary [0xff])) >>= fun input =>
          compilePayload input.data input.rawData) = .ok compiled ∧
      compiled.finalDataBuffer.length =
        combinedPushSize (some [0x46, 0x49, 0x4c, 0x45, 0x7c, 0x30]) (some [0xff]) ∧
      (validateCombinedDataLength (some [0x46, 0x49, 0x4c, 0x45, 0x7c, 0x30]) (some [0xff])
          (.named .opReturn) = .ok () ↔
        LengthAccepted (Network.mk .btc .mainnet) .opReturn none false compiled.finalDataBuffer) :=
  preCheck_agrees (sampleEncoder ⟨.btc, .mainnet⟩) (some [0x46, 0x49, 0x4c, 0x45, 0x7c, 0x30])
    (some [0xff]) (by decide) (some false) rfl .opReturn none false

end XChain
