import XChainEncoder.Library
import XChainEncoder.NumericText

/-!
# Inputs, outputs and partially signed transactions

* `Utxo`, `CustomOutput`: what a caller or the tracker offers;
* `PsbtInput`, `Psbt`: the transaction under construction, with `addInput`, `addOutput` and
  `raiseOutputValue`;
* `parseSatoshiAmount`, `isSegwitUTXO`, `nestedP2wpkhRedeem`, `matchingLegacyRedeemScript`;
* `outputTotal_addOutput`, `outputTotal_raiseOutputValue`: **what each operation adds to the total
  of the outputs**.
-/

namespace XChain

open PushScript

/-! ## Candidates -/

/-- Sixty-four hexadecimal digits, of either case. -/
def isTxid (s : Text) : Bool := s.length = 64 && isHex s

/-- An unspent output as offered; `confirmations` is 0 when absent, `scriptPubKey` and
`redeemScript` are decoded. -/
structure Utxo where
  txid : Text
  vout : ℕ
  value : ℤ
  scriptPubKey : Bytes
  confirmations : ℕ
  redeemScript : Option Bytes
  txid_hex : isTxid txid = true
  deriving DecidableEq

/-- An output the caller asks for. -/
structure CustomOutput where
  address : Text
  value : ℤ
  deriving DecidableEq, Repr

/-- The exact amounts: whole, not negative, of at most 64 bits, and beyond the safe integers only
where `allowBig` says so. -/
def parseSatoshiAmount (value : ℤ) (label : String) (allowBig : Bool) : Except BuildError ℤ := do
  ensure (0 ≤ value) (ParamRangeError s!"{label} must be a non-negative integer")
  ensure (value ≤ maxSafeInteger || allowBig) (ParamRangeError
    (s!"{label} ({value}) exceeds the maximum safe satoshi amount ({maxSafeInteger}) and cannot " ++
      "be represented without precision loss"))
  ensure (value ≤ maxSatoshiU64) (ParamRangeError
    s!"{label} ({value}) exceeds the maximum 64-bit satoshi amount ({maxSatoshiU64})")
  return value

theorem parseSatoshiAmount_eq_ok {value v : ℤ} {label : String} {allowBig : Bool} :
    parseSatoshiAmount value label allowBig = .ok v ↔
      v = value ∧ 0 ≤ value ∧ (value ≤ maxSafeInteger ∨ allowBig) ∧ value ≤ maxSatoshiU64 := by
  simp only [parseSatoshiAmount, bind_eq_ok, ensure_eq_ok, decide_eq_true_eq, Bool.or_eq_true]
  constructor
  · rintro ⟨_, h0, _, h1, _, h2, hv⟩
    cases hv
    exact ⟨rfl, h0, h1, h2⟩
  · rintro ⟨rfl, h0, h1, h2⟩
    exact ⟨(), h0, (), h1, (), h2, rfl⟩

/-! ## Scripts of inputs -/

/-- The element is `OP_0`, or it compares between `OP_1` and `OP_16`, as data of a fitting text does. -/
def isVersionElement : Element → Bool
  | .op version => version = 0x00 || (0x51 ≤ version && version ≤ 0x60)
  | .push text => isWitnessVersionNumber text

/-- A witness program: a version and one push of 2 to 40 bytes. -/
def isSegwitScript (scriptPubKey : Bytes) : Bool :=
  match decompile scriptPubKey with
  | some [version, .push program] =>
    isVersionElement version && (2 ≤ program.length && program.length ≤ 40)
  | _ => false

def isSegwitUTXO (utxo : Utxo) : Bool := isSegwitScript utxo.scriptPubKey

/-- The shape `OP_HASH160 <20 bytes> OP_EQUAL`. -/
def isP2shShape (script : Bytes) : Bool :=
  script.length = 23 && [0xa9, 0x14].isPrefixOf script && [0x87].isSuffixOf script

/-- A compressed public key, by its first byte and length. -/
def isCompressedKey (key : Bytes) : Bool :=
  key.length = 33 && (key.head? = some 0x02 || key.head? = some 0x03)

/-- A compressed public key in hexadecimal. -/
def compressedKeyOfHex (key : Text) : Option Bytes :=
  if key.length = 66 && isHex key && isCompressedKey (hexBytes key) then some (hexBytes key)
  else none

section Redeem

variable (L : Library)

/-- The P2WPKH redeem script of a P2SH output that wraps one of the caller's own keys. -/
def nestedP2wpkhRedeem (network : Network) (pubkey : Text) (compressedPubKey : Option Bytes)
    (utxo : Utxo) : Option Bytes :=
  if network.supportsSegwit = false then none
  else if ¬ isP2shShape utxo.scriptPubKey then none
  else
    let keys := (compressedKeyOfHex pubkey).toList ++
      (compressedPubKey.filter isCompressedKey).toList
    let redeems := (keys.filter L.isPoint).map fun key => compile [.op 0x00, .push (L.hash160 key)]
    redeems.find? fun redeem => p2shScript L redeem = utxo.scriptPubKey

/-- The caller's redeem script, when it hashes to the legacy P2SH output. -/
def matchingLegacyRedeemScript (utxo : Utxo) : Option Bytes :=
  utxo.redeemScript.filter fun redeemScript =>
    isP2shShape utxo.scriptPubKey &&
      L.hash160 redeemScript = (utxo.scriptPubKey.drop 2).take 20

end Redeem

/-! ## The transaction under construction -/

structure PsbtInput where
  hash : Text
  index : ℕ
  sequence : ℕ
  witnessUtxo : Option TxOut
  nonWitnessUtxo : Option ParsedTx
  redeemScript : Option Bytes
  witnessScript : Option Bytes
  deriving DecidableEq, Repr

structure Psbt where
  inputs : List PsbtInput
  outputs : List TxOut
  deriving DecidableEq, Repr

namespace Psbt

def empty : Psbt := ⟨[], []⟩

/-- `addInput`: the id is stored lowercase, and an outpoint is spent once. -/
def addInput (psbt : Psbt) (input : PsbtInput) : Except BuildError Psbt := do
  ensure (isTxid input.hash && input.index < 4294967296) (PlainError "Error adding input.")
  ensure (psbt.inputs.all fun i => ¬ (i.hash = lower input.hash ∧ i.index = input.index))
    (PlainError "Duplicate input detected.")
  return { psbt with inputs := psbt.inputs ++ [{ input with hash := lower input.hash }] }

/-- `addOutput` with a script. A value given as a plain number must be a safe integer. -/
def addOutput (psbt : Psbt) (script : Bytes) (value : ℤ) (plainNumber : Bool) :
    Except BuildError Psbt := do
  ensure (0 ≤ value && value ≤ (if plainNumber then maxSafeInteger else maxSatoshiU64))
    (PlainError "Error adding output.")
  return { psbt with outputs := psbt.outputs ++ [⟨script, value⟩] }

/-- `addOutput` with an address. -/
def addAddressOutput (L : Library) (network : Network) (psbt : Psbt) (address : Text) (value : ℤ)
    (plainNumber : Bool) : Except BuildError Psbt :=
  match L.toOutputScript network address with
  | some script => psbt.addOutput script value plainNumber
  | none => .error (PlainError s!"{String.ofList address} has no matching Script")

/-- Raise the value of one output in place. -/
def raiseOutputValue (psbt : Psbt) (outputIndex : ℕ) (delta : ℤ) : Except BuildError Psbt := do
  ensure (0 < delta) (PlainError "output uplift must be a positive integer")
  match psbt.outputs[outputIndex]? with
  | none => throw (PlainError s!"no output at index {outputIndex} to raise")
  | some out =>
    return { psbt with outputs := psbt.outputs.set outputIndex { out with value := out.value + delta } }

/-- The sum of the output values. -/
def outputTotal (psbt : Psbt) : ℤ := (psbt.outputs.map TxOut.value).sum

/-- The id of the unsigned transaction; values are serialized in 64 bits. -/
def unsignedTxid (L : Library) (psbt : Psbt) : Except BuildError Text := do
  ensure (psbt.outputs.all fun o => o.value ≤ maxSatoshiU64) (PlainError "value out of range")
  return L.getId (psbt.inputs.map fun i => ⟨i.hash, i.index, some i.sequence⟩) psbt.outputs

@[simp] theorem outputTotal_empty : empty.outputTotal = 0 := rfl

theorem addInput_eq_ok {psbt psbt' : Psbt} {input : PsbtInput} :
    psbt.addInput input = .ok psbt' ↔
      (isTxid input.hash = true ∧ input.index < 4294967296) ∧
      (∀ i ∈ psbt.inputs, ¬ (i.hash = lower input.hash ∧ i.index = input.index)) ∧
      psbt' = { psbt with inputs := psbt.inputs ++ [{ input with hash := lower input.hash }] } := by
  simp only [addInput, bind_eq_ok, ensure_eq_ok, Bool.and_eq_true, decide_eq_true_eq,
    List.all_eq_true]
  constructor
  · rintro ⟨_, h, _, hd, hp⟩
    cases hp
    exact ⟨h, fun i hi => by simpa using hd i hi, rfl⟩
  · rintro ⟨h, hd, rfl⟩
    exact ⟨(), h, (), fun i hi => by simpa using hd i hi, rfl⟩

theorem addOutput_eq_ok {psbt psbt' : Psbt} {script : Bytes} {value : ℤ} {plainNumber : Bool} :
    psbt.addOutput script value plainNumber = .ok psbt' ↔
      0 ≤ value ∧ value ≤ (if plainNumber then maxSafeInteger else maxSatoshiU64) ∧
      psbt' = { psbt with outputs := psbt.outputs ++ [⟨script, value⟩] } := by
  simp only [addOutput, bind_eq_ok, ensure_eq_ok, Bool.and_eq_true, decide_eq_true_eq]
  constructor
  · rintro ⟨_, ⟨h0, h1⟩, hp⟩
    cases hp
    exact ⟨h0, h1, rfl⟩
  · rintro ⟨h0, h1, rfl⟩
    exact ⟨(), ⟨h0, h1⟩, rfl⟩

theorem addAddressOutput_eq_ok {L : Library} {network : Network} {psbt psbt' : Psbt}
    {address : Text} {value : ℤ} {plainNumber : Bool} :
    psbt.addAddressOutput L network address value plainNumber = .ok psbt' ↔
      ∃ script, L.toOutputScript network address = some script ∧
        psbt.addOutput script value plainNumber = .ok psbt' := by
  unfold addAddressOutput
  cases L.toOutputScript network address with
  | none => simp
  | some script => simp

theorem addAddressOutput_error {L : Library} {network : Network} {psbt : Psbt} {address : Text}
    {value : ℤ} {plainNumber : Bool} {e : BuildError}
    (h : psbt.addAddressOutput L network address value plainNumber = .error e) : e.cls = .plain := by
  unfold addAddressOutput at h
  cases hscript : L.toOutputScript network address with
  | none =>
    rw [hscript] at h
    cases h
    rfl
  | some script =>
    rw [hscript] at h
    rcases bind_eq_error.mp h with hrange | ⟨_, -, hdone⟩
    · obtain ⟨-, rfl⟩ := ensure_eq_error.mp hrange
      rfl
    · cases hdone

/-- An added output adds its value. -/
theorem outputTotal_addOutput {psbt psbt' : Psbt} {script : Bytes} {value : ℤ}
    {plainNumber : Bool} (h : psbt.addOutput script value plainNumber = .ok psbt') :
    psbt'.outputTotal = psbt.outputTotal + value ∧ psbt'.inputs = psbt.inputs := by
  obtain ⟨-, -, rfl⟩ := addOutput_eq_ok.mp h
  simp [outputTotal]

theorem raiseOutputValue_eq_ok {psbt psbt' : Psbt} {outputIndex : ℕ} {delta : ℤ} :
    psbt.raiseOutputValue outputIndex delta = .ok psbt' ↔
      0 < delta ∧ ∃ out, psbt.outputs[outputIndex]? = some out ∧
        psbt' = { psbt with
          outputs := psbt.outputs.set outputIndex { out with value := out.value + delta } } := by
  simp only [raiseOutputValue, bind_eq_ok, ensure_eq_ok, decide_eq_true_eq]
  cases psbt.outputs[outputIndex]? with
  | none => simp [throw, throwThe, MonadExceptOf.throw]
  | some out =>
    simp only [Option.some.injEq, exists_eq_left', exists_const, pure, Except.pure,
      Except.ok.injEq]
    exact and_congr_right fun _ => eq_comm

theorem raiseOutputValue_error {psbt : Psbt} {outputIndex : ℕ} {delta : ℤ} {e : BuildError}
    (h : psbt.raiseOutputValue outputIndex delta = .error e) : e.cls = .plain := by
  rcases bind_eq_error.mp h with hpos | ⟨_, -, hnone⟩
  · obtain ⟨-, rfl⟩ := ensure_eq_error.mp hpos
    rfl
  · cases hout : psbt.outputs[outputIndex]? with
    | none =>
      rw [hout] at hnone
      cases hnone
      rfl
    | some out =>
      rw [hout] at hnone
      cases hnone

theorem sum_set_add (l : List TxOut) {i : ℕ} {out : TxOut} (h : l[i]? = some out) (delta : ℤ) :
    ((l.set i { out with value := out.value + delta }).map TxOut.value).sum =
      (l.map TxOut.value).sum + delta := by
  induction l generalizing i with
  | nil => cases h
  | cons o os ih =>
    cases i with
    | zero =>
      cases h
      simp only [List.set_cons_zero, List.map_cons, List.sum_cons]
      ring
    | succ i =>
      simp only [List.set_cons_succ, List.map_cons, List.sum_cons, ih (by simpa using h)]
      ring

/-- A raised output adds the difference. -/
theorem outputTotal_raiseOutputValue {psbt psbt' : Psbt} {outputIndex : ℕ} {delta : ℤ}
    (h : psbt.raiseOutputValue outputIndex delta = .ok psbt') :
    psbt'.outputTotal = psbt.outputTotal + delta ∧ psbt'.inputs = psbt.inputs := by
  obtain ⟨-, out, hout, rfl⟩ := raiseOutputValue_eq_ok.mp h
  exact ⟨sum_set_add psbt.outputs hout delta, rfl⟩

end Psbt

end XChain
