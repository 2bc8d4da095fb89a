import XChainEncoder.Identity
import XChainEncoder.InputSelection
import XChainEncoder.SatoshiAmounts

/-!
# Request params

What the request surface makes of the params of `create_tx`: values of the language on one side, a
request whose fields carry what was checked of them on the other.

* `Param`: a value that a request body holds;
* `UtxoEntry`, `CustomOutputEntry`, `FeeQuoteEntry`, `RevealParams`, `CreateTxParams`: what is
  accepted;
* `validateUtxoEntry`, .., `validateAll`: the checks, in their order, with their texts.
-/

namespace XChain.Validator

/-! ## Values -/

/-- A value of the request body. -/
inductive Param where
  | undefined
  | null
  | bool (b : Bool)
  | number (x : JsNumber)
  | string (s : CodeUnits)
  | bigint (z : ℤ)
  | array (items : List Param)
  | object (fields : List (String × Param))

namespace Param

/-- A property read. -/
def get (p : Param) (key : String) : Param :=
  match p with
  | object fields => (fields.lookup key).getD undefined
  | _ => undefined

/-- The value as the amount parser reads it. -/
def toValue : Param → JsValue
  | string s => .string s
  | number x => .number x
  | bigint z => .bigint z
  | _ => .other

/-- The comparison `== null`. -/
def isNullish : Param → Bool
  | undefined | null => true
  | _ => false

/-- `== null`, or `false`. -/
def isOff : Param → Bool
  | undefined | null | bool false => true
  | _ => false

/-- An object that is no array. -/
def isObject : Param → Bool
  | object _ => true
  | _ => false

/-- The operator `typeof`. -/
def typeof : Param → String
  | undefined => "undefined"
  | bool _ => "boolean"
  | number _ => "number"
  | string _ => "string"
  | bigint _ => "bigint"
  | null | array _ | object _ => "object"

end Param

/-- What the checks take from their surroundings: the coin's payment floor, the curve, and how the
language writes and reads numbers. -/
structure Context where
  lib : Library
  paymentOutputFloor : ℤ
  numberText : JsNumber → String
  readNumber : CodeUnits → JsNumber

/-- The comparison `x > m`. -/
def exceeds (x : JsNumber) (m : ℤ) : Bool :=
  match x with
  | .nan => false
  | .infinity negative => !negative
  | .finite v => m < v

/-- A string of code units as the library reads it. -/
def text (s : CodeUnits) : Text := s.map fun u => Char.ofNat u.toNat

/-- The code units of a plain text. -/
def units (s : Text) : CodeUnits := s.map fun c => UInt16.ofNat c.toNat

/-- Continue with the fact, or throw. -/
def require (p : Prop) [Decidable p] (e : BuildError) : Except BuildError (PLift p) :=
  if h : p then .ok ⟨h⟩ else .error e

/-- The string, or the error. -/
def requireString (p : Param) (e : BuildError) : Except BuildError CodeUnits :=
  match p with
  | .string s => .ok s
  | _ => .error e

/-- The string, if one is given, or the error. -/
def optionalString (p : Param) (e : BuildError) : Except BuildError (Option CodeUnits) :=
  match p with
  | .undefined | .null => .ok none
  | .string s => .ok (some s)
  | _ => .error e

/-- A text of the caller's, at most 32 characters of it. -/
def truncateKey (key : String) : String :=
  if 32 < key.length then s!"{String.ofList (key.toList.take 32)}...({key.length} chars)" else key

/-- Every key is known. -/
def checkKeys (p : Param) (valid : List String) (message : String → String) :
    Except BuildError Unit :=
  match p with
  | .object fields =>
    match fields.find? fun f => !valid.contains f.1 with
    | some f => .error (ParamTypeError (message f.1))
    | none => .ok ()
  | _ => .ok ()

/-- Check the items of an array, each with its index. -/
def checkItems {α : Type} (check : Param → ℕ → Except BuildError α) :
    List Param → ℕ → Except BuildError (List α)
  | [], _ => .ok []
  | item :: items, i => do
    let a ← check item i
    let rest ← checkItems check items (i + 1)
    return a :: rest

/-! ## Single values -/

/-- A boolean or nothing; the string `"false"` is neither. -/
def validateOptionalBoolean (raw : Param) (label : String) : Except BuildError (Option Bool) :=
  match raw with
  | .undefined | .null => .ok none
  | .bool b => .ok (some b)
  | .string s => .error (ParamTypeError (s!"{label} must be a boolean (got string " ++
      "\"" ++ truncateForMessage s ++ "\"); string \"false\" would coerce to true"))
  | raw => .error (ParamTypeError (s!"{label} must be a boolean (got {raw.typeof}); " ++
      "string \"false\" would coerce to true"))

/-- A non-empty string of at most a hundred code units. -/
abbrev AddressText := {s : CodeUnits // s ≠ [] ∧ s.length ≤ 100}

/-- The length alone: what the text names is for the build to resolve. -/
def validateAddress (address : Param) (label : String) : Except BuildError AddressText := do
  let s ← requireString address (ParamTypeError s!"{label} must be a non-empty string")
  let ⟨hne⟩ ← require (s ≠ []) (ParamTypeError s!"{label} must be a non-empty string")
  let ⟨hle⟩ ← require (s.length ≤ 100) (ParamTypeError s!"{label} exceeds maximum length (100)")
  return ⟨s, hne, hle⟩

/-- `02` or `03`, and 64 digits. -/
def isCompressedPubkey : Text → Bool
  | '0' :: '2' :: rest => rest.length = 64 && isHex rest
  | '0' :: '3' :: rest => rest.length = 64 && isHex rest
  | _ => false

/-- `04`, and 128 digits. -/
def isUncompressedPubkey : Text → Bool
  | '0' :: '4' :: rest => rest.length = 128 && isHex rest
  | _ => false

/-- An address, or a compressed key of the curve. -/
structure Pubkey (C : Context) where
  source : AddressText
  compressed : isUncompressedPubkey (text source) = false
  onCurve : isCompressedPubkey (text source) = true → C.lib.isPoint (hexBytes (text source)) = true

/-- An address, or a compressed key of the curve; an uncompressed key is refused first. -/
def validatePubkey (C : Context) (pubkey : Param) : Except BuildError (Option (Pubkey C)) :=
  if pubkey.isNullish then .ok none
  else do
    let unsupported := ParamTypeError
      ("pubkey: uncompressed public keys (04 + 128 hex) are not supported; pass the compressed " ++
        "02/03 + 64 hex form or a sender address")
    let uncompressed := match pubkey with
      | .string s => isUncompressedPubkey (text s)
      | _ => false
    ensure (!uncompressed) unsupported
    let source ← validateAddress pubkey "pubkey"
    let ⟨hcompressed⟩ ← require (isUncompressedPubkey (text source) = false) unsupported
    let ⟨hcurve⟩ ← require (isCompressedPubkey (text source) = true →
        C.lib.isPoint (hexBytes (text source)) = true)
      (ParamTypeError "pubkey is not a valid secp256k1 point")
    return some ⟨source, hcompressed, hcurve⟩

/-- A compressed key of the curve. -/
abbrev CompressedKey (C : Context) :=
  {s : Text // isCompressedPubkey s = true ∧ C.lib.isPoint (hexBytes s) = true}

/-- A compressed key of the curve, or nothing. -/
def validateCompressedPubKey (C : Context) (compressedPubKey : Param) :
    Except BuildError (Option (CompressedKey C)) :=
  if compressedPubKey.isNullish then .ok none
  else do
    let malformed := ParamTypeError
      "compressedPubKey must be a 66-character hex string starting with 02 or 03"
    let s ← requireString compressedPubKey malformed
    let ⟨hkey⟩ ← require (isCompressedPubkey (text s) = true) malformed
    let ⟨hcurve⟩ ← require (C.lib.isPoint (hexBytes (text s)) = true)
      (ParamTypeError "compressedPubKey is not a valid secp256k1 point")
    return some ⟨text s, hkey, hcurve⟩

/-- The change address, or nothing. -/
def validateChange (change : Param) : Except BuildError (Option AddressText) :=
  if change.isNullish then .ok none
  else (validateAddress change "address").map some

/-! ## Amounts -/

/-- An exact integer from zero to the greatest fee. -/
abbrev FeeAmount := {n : ℕ // (n : ℤ) ≤ maxFeeSatoshis}

/-- The integer that a double is. -/
def whole (x : JsNumber) : ℕ :=
  match x with
  | .finite v => v.num.toNat
  | _ => 0

/-- An optional whole number of base units up to the greatest fee, under its own texts. -/
def validateFeeAmount (raw : Param) (malformed : String) (label : String)
    (numberText : JsNumber → String) : Except BuildError (Option FeeAmount) :=
  if raw.isOff then .ok none
  else do
    let num := toExactInt raw.toValue
    ensure (!num.isNaN) (ParamTypeError malformed)
    ensure (!num.isNegative) (ParamRangeError s!"{label} must be non-negative")
    ensure (!exceeds num maxFeeSatoshis) (ParamRangeError
      s!"{label} ({numberText num}) exceeds maximum ({maxFeeSatoshis})")
    let ⟨h⟩ ← require ((whole num : ℤ) ≤ maxFeeSatoshis) (ParamRangeError
      s!"{label} ({numberText num}) exceeds maximum ({maxFeeSatoshis})")
    return some ⟨whole num, h⟩

/-- The fee, echoed in its refusal. -/
def validateFee (C : Context) (fee : Param) : Except BuildError (Option FeeAmount) :=
  let shown := match fee with
    | .string s => truncateForMessage s
    | fee => fee.typeof
  validateFeeAmount fee s!"fee must be a valid integer, got: {shown}" "fee" C.numberText

/-- The dust threshold, not echoed. -/
def validateDust (C : Context) (dust : Param) : Except BuildError (Option FeeAmount) :=
  validateFeeAmount dust "dust must be a valid integer" "dust" C.numberText

/-- A string that matches `/^-?\d+(\.\d+)?$/`. -/
def isDecimal (s : CodeUnits) : Bool :=
  let digits := (splitSign s).2
  let fraction := digits.dropWhile isDigit
  digits.head?.any isDigit && match fraction with
    | [] => true
    | point :: rest => point = 0x2e && rest ≠ [] && rest.all isDigit

/-- A positive rate of at most the greatest fee. -/
abbrev FeeRate := {rate : ℚ // 0 < rate ∧ rate ≤ maxFeeSatoshis}

def badFeePerKb : BuildError := ParamTypeError "feePerKb must be a finite number"

/-- The number of a rate: itself, or what a plain decimal string is read as. -/
def feePerKbNumber (C : Context) : Param → Except BuildError JsNumber
  | .number x => .ok x
  | .string s => if isDecimal (trim s) then .ok (C.readNumber (trim s)) else .error badFeePerKb
  | _ => .error badFeePerKb

/-- A fee rate, which may be a fraction, or nothing. -/
def validateFeePerKb (C : Context) (feePerKb : Param) : Except BuildError (Option FeeRate) :=
  if feePerKb.isOff then .ok none
  else do
    let num ← feePerKbNumber C feePerKb
    match num with
    | .finite rate =>
      let ⟨hpos⟩ ← require (0 < rate) (ParamRangeError "feePerKb must be positive")
      let ⟨hle⟩ ← require (rate ≤ maxFeeSatoshis) (ParamRangeError
        s!"feePerKb ({C.numberText num}) exceeds maximum ({maxFeeSatoshis})")
      return some ⟨rate, hpos, hle⟩
    | _ => throw badFeePerKb

/-- An amount that fits 64 bits. -/
abbrev Amount := {n : ℕ // (n : ℤ) ≤ maxSatoshiU64}

/-- The exact amount, from a number or a decimal string. -/
def parseAmount (C : Context) (raw : Param) (label : String) : Except BuildError Amount := do
  let v ← JsValue.parseSatoshiAmount C.numberText raw.toValue label true
  let n := (v.integer?.getD 0).toNat
  let ⟨h⟩ ← require ((n : ℤ) ≤ maxSatoshiU64) (ParamRangeError
    s!"{label} ({n}) exceeds the maximum 64-bit satoshi amount ({maxSatoshiU64})")
  return ⟨n, h⟩

/-! ## Entries -/

/-- The integer from zero on that a number is. -/
def natural? : JsNumber → Option ℕ
  | .finite v => if v.den = 1 ∧ 0 ≤ v.num then some v.num.toNat else none
  | _ => none

/-- A transaction id in its one spelling. -/
abbrev LowerTxid := {s : Text // isTxid s = true ∧ lower s = s}

abbrev OutputIndex := {n : ℕ // n ≤ 4294967295}

theorem isHex_of_isTxid {s : Text} (h : isTxid s = true) : isHex s = true :=
  (Bool.and_eq_true _ _ ▸ h).2

/-- One outpoint: the id lowercase, the index an integer of 32 bits. -/
def validateOutpoint (txid vout : Param) (txidLabel voutLabel : String) :
    Except BuildError (LowerTxid × OutputIndex) := do
  let badTxid := ParamTypeError s!"{txidLabel} must be a 64-character hex string"
  let badVout := ParamTypeError
    s!"{voutLabel} must be a non-negative integer no greater than 4294967295"
  let s ← requireString txid badTxid
  let ⟨htxid⟩ ← require (isTxid (text s) = true) badTxid
  match natural? (toExactInt vout.toValue) with
  | some exact =>
    let ⟨hvout⟩ ← require (exact ≤ 4294967295) badVout
    return (⟨lower (text s), isTxid_lower htxid, lower_lower (isHex_of_isTxid htxid)⟩,
      ⟨exact, hvout⟩)
  | none => throw badVout

/-- A script in hexadecimal, of at most ten thousand bytes. -/
abbrev ScriptHex :=
  {s : Text // s ≠ [] ∧ s.length ≤ maxScriptPubKeyHexLength ∧ (s.length % 2 = 0 ∧ isHex s = true)}

/-- One output that the caller offers. -/
structure UtxoEntry where
  txid : LowerTxid
  vout : OutputIndex
  value : Amount
  scriptPubKey : ScriptHex
  confirmations : ℕ
  redeemScript : Param

/-- Zero where none are given. -/
def validateConfirmations (confirmations : Param) (index : ℕ) : Except BuildError ℕ :=
  if confirmations.isNullish then .ok 0
  else match natural? (toExactInt confirmations.toValue) with
    | some n => .ok n
    | none => .error (ParamTypeError
        s!"utxos[{index}].confirmations must be a non-negative integer")

/-- Every field of one entry, the label naming its index. -/
def validateUtxoEntry (C : Context) (entry : Param) (index : ℕ) : Except BuildError UtxoEntry := do
  ensure entry.isObject (ParamTypeError s!"utxos[{index}] must be an object")
  let outpoint ← validateOutpoint (entry.get "txid") (entry.get "vout") s!"utxos[{index}].txid"
    s!"utxos[{index}].vout"
  let value ← parseAmount C (entry.get "value") s!"utxos[{index}].value"
  let emptyScript := ParamTypeError s!"utxos[{index}].scriptPubKey must be a non-empty string"
  let s ← requireString (entry.get "scriptPubKey") emptyScript
  let ⟨hne⟩ ← require (text s ≠ []) emptyScript
  let ⟨hle⟩ ← require ((text s).length ≤ maxScriptPubKeyHexLength) (ParamRangeError
    s!"utxos[{index}].scriptPubKey exceeds maximum length ({maxScriptPubKeyHexLength})")
  let ⟨hhex⟩ ← require ((text s).length % 2 = 0 ∧ isHex (text s) = true) (ParamTypeError
    s!"utxos[{index}].scriptPubKey must be an even-length hex string")
  let confirmations ← validateConfirmations (entry.get "confirmations") index
  return { txid := outpoint.1, vout := outpoint.2, value, scriptPubKey := ⟨text s, hne, hle, hhex⟩,
           confirmations, redeemScript := entry.get "redeemScript" }

abbrev UtxoEntries := {l : List UtxoEntry // l.length ≤ maxUtxoCount}

/-- An optional array of at most `most` items, each checked. -/
def validateItems {α : Type} (check : Param → ℕ → Except BuildError α) (raw : Param) (label : String)
    (most : ℕ) (tooMany : ℕ → String) : Except BuildError (Option {l : List α // l.length ≤ most}) :=
  match raw with
  | .undefined | .null => .ok none
  | .array items => do
    ensure (items.length ≤ most) (ParamRangeError (tooMany items.length))
    let entries ← checkItems check items 0
    let ⟨h⟩ ← require (entries.length ≤ most) (ParamRangeError (tooMany entries.length))
    return some ⟨entries, h⟩
  | _ => .error (ParamTypeError s!"{label} must be an array")

/-- The offered outputs, or nothing. -/
def validateUtxoArray (C : Context) (utxos : Param) : Except BuildError (Option UtxoEntries) :=
  validateItems (validateUtxoEntry C) utxos "utxos" maxUtxoCount
    fun n => s!"utxos array length ({n}) exceeds maximum ({maxUtxoCount})"

/-- A payment that a node relays. -/
structure CustomOutputEntry (C : Context) where
  address : AddressText
  value : Amount
  positive : 0 < value.val
  relayed : C.paymentOutputFloor ≤ value.val

/-- One payment, at or above what the coin's nodes relay. -/
def validateCustomOutput (C : Context) (output : Param) (index : ℕ) :
    Except BuildError (CustomOutputEntry C) := do
  ensure output.isObject (ParamTypeError s!"customOutputs[{index}] must be an object")
  let address ← validateAddress (output.get "address") s!"customOutputs[{index}].address"
  let value ← parseAmount C (output.get "value") s!"customOutputs[{index}].value"
  let ⟨hpos⟩ ← require (0 < value.val) (ParamRangeError
    s!"customOutputs[{index}].value must be a positive integer (satoshis)")
  let ⟨hfloor⟩ ← require (C.paymentOutputFloor ≤ value.val) (ParamRangeError
    (s!"customOutputs[{index}].value {value.val} is below the {C.paymentOutputFloor} base-unit " ++
      "relay dust threshold for this coin"))
  return ⟨address, value, hpos, hfloor⟩

def maxCustomOutputs : ℕ := 100

abbrev CustomOutputEntries (C : Context) :=
  {l : List (CustomOutputEntry C) // l.length ≤ maxCustomOutputs}

/-- The payments, or nothing. -/
def validateCustomOutputs (C : Context) (customOutputs : Param) :
    Except BuildError (Option (CustomOutputEntries C)) :=
  validateItems (validateCustomOutput C) customOutputs "customOutputs" maxCustomOutputs
    fun n => s!"customOutputs length ({n}) exceeds maximum ({maxCustomOutputs})"

/-- The platform fee: who is paid, and a positive amount. -/
structure FeeQuoteEntry where
  address : AddressText
  amount : FeeAmount
  positive : 0 < amount.val

/-- The comparison `x <= 0`. -/
def isNotPositive : JsNumber → Bool
  | .nan => false
  | .infinity negative => negative
  | .finite v => v ≤ 0

/-- The platform fee, or nothing. -/
def validateFeeQuote (feeQuote : Param) : Except BuildError (Option FeeQuoteEntry) :=
  if feeQuote.isNullish then .ok none
  else do
    ensure feeQuote.isObject (ParamTypeError "feeQuote must be an object with address and amount")
    let address ← validateAddress (feeQuote.get "address") "feeQuote.address"
    let amount := toExactInt (feeQuote.get "amount").toValue
    let small := ParamRangeError "feeQuote.amount must be a positive integer (satoshis)"
    let great := ParamRangeError s!"feeQuote.amount exceeds maximum ({maxFeeSatoshis})"
    ensure (!(amount.isNaN || isNotPositive amount)) small
    ensure (!exceeds amount maxFeeSatoshis) great
    let ⟨hle⟩ ← require ((whole amount : ℤ) ≤ maxFeeSatoshis) great
    let ⟨hpos⟩ ← require (0 < whole amount) small
    return some ⟨address, ⟨whole amount, hle⟩, hpos⟩

def maxRawTxHexLength : ℕ := 400000

/-- The funding transaction of a reveal: its id, and its bytes in hexadecimal. -/
structure RevealParams where
  p2shHash : {s : Text // isTxid s = true}
  p2shHex : {s : Text // s ≠ [] ∧ s.length ≤ maxRawTxHexLength ∧
    (s.length % 2 = 0 ∧ isHex s = true)}

/-- Both reveal fields, or neither. -/
def validateP2shParams (p2shHash p2shHex : Param) : Except BuildError (Option RevealParams) :=
  if p2shHash.isOff && p2shHex.isOff then .ok none
  else do
    ensure (p2shHash.isOff == p2shHex.isOff) (ParamTypeError
      "p2shHash and p2shHex must both be provided or both omitted")
    let badHash := ParamTypeError "p2shHash must be a 64-character hex string"
    let hash ← requireString p2shHash badHash
    let ⟨hhash⟩ ← require (isTxid (text hash) = true) badHash
    let emptyHex := ParamTypeError "p2shHex must be a non-empty hex string"
    let hex ← requireString p2shHex emptyHex
    let ⟨hne⟩ ← require (text hex ≠ []) emptyHex
    let ⟨hle⟩ ← require ((text hex).length ≤ maxRawTxHexLength) (ParamTypeError
      s!"p2shHex exceeds maximum length ({maxRawTxHexLength})")
    let ⟨hhex⟩ ← require ((text hex).length % 2 = 0 ∧ isHex (text hex) = true) (ParamTypeError
      "p2shHex must be an even-length hex string")
    return some ⟨⟨text hash, hhash⟩, ⟨text hex, hne, hle, hhex⟩⟩

/-! ## Payload and policy -/

/-- The names a request may use, each with its carrier. -/
def validEncodings : List (String × EncodingChoice) :=
  [("OP_RETURN", .named .opReturn), ("P2SH", .named .p2sh), ("MULTISIGN", .named .multisign),
    ("P2WSH", .named .p2wsh), ("TAPROOT", .named .taproot), ("AUTO", .auto)]

/-- The default, `AUTO`, or a carrier by its name. -/
def validateEncoding (encoding : Param) : Except BuildError EncodingChoice :=
  let invalid (shown : String) := ParamTypeError (s!"Invalid encoding: {shown}. Valid values: " ++
    String.intercalate ", " (validEncodings.map Prod.fst))
  match encoding with
  | .undefined | .null => .ok .default
  | .string s =>
    match validEncodings.find? fun e => units e.1.toList = s with
    | some e => .ok e.2
    | none => .error (invalid ("\"" ++ truncateForMessage s ++ "\""))
  | encoding => .error (invalid s!"a value of type {encoding.typeof}")

/-- The actions the decoder knows. -/
def validActionNames : List String :=
  ["ADDRESS", "AIRDROP", "ANCHOR", "ATTEST", "BATCH", "BET", "BROADCAST", "CALLBACK", "COINPAY",
    "COLLECT", "DELEGATE", "DEPLOY", "DEPOSIT", "DESTROY", "DISPENSER", "DIVIDEND", "EXECUTE",
    "FILE", "ISSUE", "LINK", "LIST", "MESSAGE", "MINT", "NODEPROOF", "ORDER", "PRICE", "ROLLCALL",
    "SEND", "SLASH", "SLEEP", "STAKE", "SWAP", "SWEEP", "UNSTAKE", "VOTE", "WITHDRAW", "XBRIDGE"]

/-- The short forms, each with its canonical name. -/
def actionAliases : List (String × String) :=
  [("TRANSFER", "SEND"), ("ADDR", "ADDRESS"), ("DROP", "AIRDROP"), ("CAST", "BROADCAST"),
    ("MSG", "MESSAGE")]

/-- The text before the first `|`. -/
def actionToken (data : CodeUnits) : CodeUnits := data.takeWhile fun u => u ≠ 0x7c

/-- The leading token, when the decoder would not know it. -/
def unknownActionName (data : Option CodeUnits) : Option CodeUnits :=
  match data with
  | none | some [] => none
  | some data =>
    let rawActionName := actionToken data
    let actionName := match actionAliases.find? fun a => units a.1.toList = rawActionName with
      | some a => units a.2.toList
      | none => rawActionName
    if validActionNames.any fun name => units name.toList = actionName then none
    else some rawActionName

/-- The leading token is an action's name, or a short form of one. -/
def validateActionName (data : Option CodeUnits) : Except BuildError Unit :=
  match unknownActionName data with
  | none => .ok ()
  | some rawActionName => .error (ParamRangeError
      (s!"data has unknown ACTION name '{truncateForMessage rawActionName}'; the decoder rejects " ++
        "any leading token that is not a canonical action name or alias, silently dropping the " ++
        "ACTION on a fee-paid transaction"))

/-- The payload of a request, of what can be carried. -/
structure ActionFields where
  data : Option CodeUnits
  rawData : Option CodeUnits
  encoding : EncodingChoice
  wellFormed : XChain.validateDataParam data "data" = .ok data
  latin1 : XChain.validateDataParam rawData "rawData" = .ok rawData
  fits : validateCombinedDataLength data rawData encoding = .ok ()
  decodable : validateActionPushDecodability (data.map bufferFromUtf8)
    (rawData.map bufferFromBinary) = .ok ()
  known : validateActionName data = .ok ()

/-- A check, kept as a fact. -/
def keep {α : Type} (x : Except BuildError α) : Except BuildError {a : α // x = .ok a} :=
  match x with
  | .ok a => .ok ⟨a, rfl⟩
  | .error e => .error e

theorem validateDataParam_same {value s : Option CodeUnits} {fieldName : String}
    (h : XChain.validateDataParam value fieldName = .ok s) : s = value := by
  unfold XChain.validateDataParam at h
  split at h
  · exact (Except.ok.inj h).symm
  · split_ifs at h
    · split at h
      · cases h
      · exact (Except.ok.inj h).symm
    · exact (Except.ok.inj h).symm

/-- A payload field: absent, or a string that its wire encoding can carry. -/
def validateDataParam (value : Param) (fieldName : String) :
    Except BuildError {s : Option CodeUnits // XChain.validateDataParam s fieldName = .ok s} := do
  let given ← optionalString value (ParamTypeError s!"{fieldName} must be a string")
  let ⟨s, h⟩ ← keep (XChain.validateDataParam given fieldName)
  return ⟨s, validateDataParam_same h ▸ h⟩

/-- The payload fields of a request. -/
def validateActionFields (params : Param) : Except BuildError ActionFields := do
  let ⟨data, wellFormed⟩ ← validateDataParam (params.get "data") "data"
  let ⟨rawData, latin1⟩ ← validateDataParam (params.get "rawData") "rawData"
  let encoding ← validateEncoding (params.get "encoding")
  let ⟨_, fits⟩ ← keep (validateCombinedDataLength data rawData encoding)
  let ⟨_, decodable⟩ ← keep (validateActionPushDecodability (data.map bufferFromUtf8)
    (rawData.map bufferFromBinary))
  let ⟨_, known⟩ ← keep (validateActionName data)
  return { data, rawData, encoding, wellFormed, latin1, fits, decodable, known }

/-- What a request says about who pays, and what. -/
structure PaymentFields (C : Context) where
  pubkey : Option (Pubkey C)
  fee : Option FeeAmount
  feePerKb : Option FeeRate
  dust : Option FeeAmount
  utxos : Option UtxoEntries
  customOutputs : Option (CustomOutputEntries C)
  feeQuote : Option FeeQuoteEntry
  reveal : Option RevealParams
  compressedPubKey : Option (CompressedKey C)
  change : Option AddressText

/-- The payment fields; the first one that fails is the one refused. -/
def validatePaymentFields (C : Context) (params : Param) : Except BuildError (PaymentFields C) := do
  let pubkey ← validatePubkey C (params.get "pubkey")
  let fee ← validateFee C (params.get "fee")
  let feePerKb ← validateFeePerKb C (params.get "feePerKb")
  let dust ← validateDust C (params.get "dust")
  let utxos ← validateUtxoArray C (params.get "utxos")
  let customOutputs ← validateCustomOutputs C (params.get "customOutputs")
  let feeQuote ← validateFeeQuote (params.get "feeQuote")
  let reveal ← validateP2shParams (params.get "p2shHash") (params.get "p2shHex")
  let compressedPubKey ← validateCompressedPubKey C (params.get "compressedPubKey")
  let change ← validateChange (params.get "change")
  return { pubkey, fee, feePerKb, dust, utxos, customOutputs, feeQuote, reveal, compressedPubKey,
           change }

/-- The flags of the options bag, `none` where absent or `null`. -/
structure CreateTxOptions where
  signerSupportsTapscript : Option Bool
  exactInputs : Option Bool

def validCreateTxOptions : List String := ["signerSupportsTapscript", "exactInputs"]

/-- The options, each a boolean; an unknown one is refused. -/
def validateCreateTxOptions (options : Param) : Except BuildError CreateTxOptions :=
  if options.isNullish then .ok ⟨none, none⟩
  else do
    ensure options.isObject (ParamTypeError "options must be an object")
    checkKeys options validCreateTxOptions fun key =>
      "Unknown options key: \"" ++ truncateKey key ++ "\". Valid keys: " ++
        String.intercalate ", " validCreateTxOptions
    let signerSupportsTapscript ← validateOptionalBoolean (options.get "signerSupportsTapscript")
      "options.signerSupportsTapscript"
    let exactInputs ← validateOptionalBoolean (options.get "exactInputs") "options.exactInputs"
    return ⟨signerSupportsTapscript, exactInputs⟩

/-- What a request says about replacement, unconfirmed inputs and carriers. -/
structure PolicyFields where
  rbf : Option Bool
  unconfirmed : Option Bool
  attachPrevTx : Option Bool
  compress : Option Bool
  options : CreateTxOptions

/-- The policy fields. -/
def validatePolicyFields (params : Param) : Except BuildError PolicyFields := do
  let rbf ← validateOptionalBoolean (params.get "rbf") "rbf"
  let unconfirmed ← validateOptionalBoolean (params.get "unconfirmed") "unconfirmed"
  let attachPrevTx ← validateOptionalBoolean (params.get "attachPrevTx") "attachPrevTx"
  let compress ← validateOptionalBoolean (params.get "compress") "compress"
  let options ← validateCreateTxOptions (params.get "options")
  return { rbf, unconfirmed, attachPrevTx, compress, options }

/-! ## The request -/

/-- What is accepted as the params of `create_tx`. -/
structure CreateTxParams (C : Context) where
  action : ActionFields
  payment : PaymentFields C
  policy : PolicyFields
  multisignKey : action.encoding = .named .multisign → payment.compressedPubKey.isSome
  taprootKey : action.encoding = .named .taproot → payment.compressedPubKey.isSome
  taprootReveal : action.encoding = .named .taproot → payment.reveal.isNone
  identified : payment.pubkey.isSome

def validCreateTxParams : List String :=
  ["utxos", "pubkey", "customOutputs", "data", "rawData", "fee", "rbf", "encoding", "change",
    "p2shHash", "p2shHex", "compressedPubKey", "unconfirmed", "feePerKb", "dust", "feeQuote",
    "attachPrevTx", "compress", "options"]

/-- The whole request: an unknown param is refused before any field is read. -/
def validateAll (C : Context) (params : Param) : Except BuildError (CreateTxParams C) := do
  ensure params.isObject (ParamTypeError "Request params must be an object")
  checkKeys params validCreateTxParams fun key =>
    "Unknown create_tx param: \"" ++ truncateKey key ++ "\". Valid params: " ++
      String.intercalate ", " validCreateTxParams
  let action ← validateActionFields params
  let payment ← validatePaymentFields C params
  -- `validateEncodingRequirements`
  let ⟨multisignKey⟩ ← require
    (action.encoding = .named .multisign → payment.compressedPubKey.isSome)
    (ParamTypeError "compressedPubKey is required for MULTISIGN encoding")
  let ⟨taprootKey⟩ ← require
    (action.encoding = .named .taproot → payment.compressedPubKey.isSome)
    (ParamTypeError ("compressedPubKey is required for TAPROOT encoding (it becomes the envelope " ++
      "internal key)"))
  let ⟨taprootReveal⟩ ← require
    (action.encoding = .named .taproot → payment.reveal.isNone)
    (ParamTypeError ("TAPROOT encoding does not use the p2shHash reveal flow; one create_tx call " ++
      "returns the commit and reveal PSBTs together"))
  let ⟨identified⟩ ← require (payment.pubkey.isSome) (ParamRangeError "pubkey is required")
  let policy ← validatePolicyFields params
  return { action, payment, policy, multisignKey, taprootKey, taprootReveal, identified }

end XChain.Validator
