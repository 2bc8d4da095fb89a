import Mathlib.Data.Rat.Defs
import XChainEncoder.Lib.PushScript

/-!
# Constants, networks and errors

* sizes and ceilings of `constants.js` and of the validator's `constants.js`;
* `Coin`, `Net`, `Network` and the fields of the coin files that a build reads;
* `Encoding`, `BuildError`.
-/

namespace XChain

open PushScript

/-- A JavaScript string, by its characters. -/
abbrev Text := List Char

/-! ## Sizes and ceilings -/

/-- The bytes of an `OP_RETURN` push, the magic word included. -/
def opReturnSize : ℕ := 80
/-- The ceiling of a P2SH redeem script. -/
def p2shSize : ℕ := 520
/-- The ceiling of a P2WSH witness script. -/
def pw2shSize : ℕ := 520
/-- The bytes of one multisig chunk, nine of them overhead. -/
def multisignSize : ℕ := 69
/-- The bytes of one push of an envelope. -/
def taprootEnvelopeChunkSize : ℕ := 520
/-- The format byte after the envelope's magic word. -/
def taprootEnvelopeFormatV0 : UInt8 := 0x00
/-- The ceiling of a compiled payload outside an envelope. -/
def maxCompiledActionDataLength : ℕ := 8192
/-- The ceiling of a compiled payload in an envelope. -/
def envelopeMaxPayload : ℕ := 390000

/-- The bytes of `"XCHN"`. -/
def magicWord : Bytes := [0x58, 0x43, 0x48, 0x4e]

/-- Satoshis of one coin. -/
def satoshiUnit : ℚ := 100000000
/-- `Number.MAX_SAFE_INTEGER`. -/
def maxSafeInteger : ℤ := 9007199254740991
/-- The largest output value. -/
def maxSatoshiU64 : ℤ := 18446744073709551615
/-- The largest fee, and fee rate, a caller may ask for. -/
def maxFeeSatoshis : ℤ := 2100000000000
/-- The default cap of a suggested rate, per vbyte. -/
def defaultSuggestedFeeMaxPerVbyte : ℚ := 20
/-- The cap of a suggested rate, in relay fees. -/
def suggestedFeeCeilingRelayMultiplier : ℚ := 10
/-- How many times the estimated fee no build may pay. -/
def burnBackstopMultiplier : ℚ := 100
/-- How long an outpoint stays reserved. -/
def reservationTtlMs : ℕ := 5 * 60 * 1000

/-! ## Networks -/

inductive Coin where
  | btc | ltc | doge
  deriving DecidableEq, Repr

inductive Net where
  | mainnet | testnet | regtest
  deriving DecidableEq, Repr

/-- A network key, such as `litecoin-testnet`. -/
structure Network where
  coin : Coin
  net : Net
  deriving DecidableEq, Repr

/-- A test tier, by the network's key. -/
def Network.isTestNetworkKey (n : Network) : Bool := n.net ≠ .mainnet

/-- The pinned consensus dust threshold. -/
def Network.dustThreshold (n : Network) : ℤ :=
  match n.coin with
  | .btc => 546
  | .ltc => 5460
  | .doge => 100000

/-- The chains with witness programs. -/
def Network.supportsSegwit (n : Network) : Bool :=
  match n.coin with
  | .btc | .ltc => true
  | .doge => false

/-- The size the encoder pads a transaction's non-witness bytes to; Dogecoin has none. -/
def Network.minStandardTxNonWitnessSize (n : Network) : Option ℕ :=
  match n.coin with
  | .btc => some 82
  | .ltc => some 85
  | .doge => none

/-- The height from which decoders read Taproot envelopes; `none` is never. -/
def Network.envelopeRecognitionHeight (n : Network) : Option ℕ :=
  match n.coin, n.net with
  | .doge, _ => none
  | .btc, .mainnet => some 960850
  | .ltc, .mainnet => some 3153500
  | _, _ => some 0

/-- The relay floor for authored value outputs: Dogecoin's soft dust limit. -/
def softDustFloorFor (n : Network) : ℤ :=
  match n.coin with
  | .doge => 1000000
  | _ => 0

/-- The dust relay rate per byte of the coins whose node prices dust by size. -/
def dustRelayFeePerByteByCoin : Coin → Option ℤ
  | .btc => some 3
  | .ltc => some 30
  | .doge => none

/-! ## Encodings and errors -/

/-- The carriers of a payload. -/
inductive Encoding where
  | opReturn | p2sh | multisign | p2wsh | taproot
  deriving DecidableEq, Repr

/-- How an error is reported to the caller. -/
inductive ErrorClass where
  | paramType
  | paramRange
  | operational (code : String)
  | plain
  deriving DecidableEq, Repr

/-- A thrown error. -/
structure BuildError where
  cls : ErrorClass
  message : String
  deriving DecidableEq, Repr

/-- A param of the wrong type. -/
def ParamTypeError (message : String) : BuildError := ⟨.paramType, message⟩
/-- A param outside its range. -/
def ParamRangeError (message : String) : BuildError := ⟨.paramRange, message⟩
/-- A refusal with a code a client may act on. -/
def OperationalError (code message : String) : BuildError := ⟨.operational code, message⟩

/-- An error a library raised. -/
def PlainError (message : String) : BuildError := ⟨.plain, message⟩

@[simp] theorem bind_eq_ok {ε α β : Type} {x : Except ε α} {f : α → Except ε β} {b : β} :
    (x >>= f) = .ok b ↔ ∃ a, x = .ok a ∧ f a = .ok b := by
  cases x with
  | error e => simp [bind, Except.bind]
  | ok a => simp [bind, Except.bind]

/-- Continue when the test holds, else throw. -/
def ensure (ok : Bool) (e : BuildError) : Except BuildError Unit := if ok then .ok () else .error e

@[simp] theorem ensure_eq_ok {ok : Bool} {e : BuildError} {u : Unit} :
    ensure ok e = .ok u ↔ ok = true := by
  cases ok <;> simp [ensure]

theorem bind_eq_error {ε α β : Type} {x : Except ε α} {f : α → Except ε β} {e : ε} :
    (x >>= f) = .error e ↔ x = .error e ∨ ∃ a, x = .ok a ∧ f a = .error e := by
  cases x with
  | error e' => simp [bind, Except.bind]
  | ok a => simp [bind, Except.bind]

theorem ensure_eq_error {ok : Bool} {e e' : BuildError} :
    ensure ok e = .error e' ↔ ok = false ∧ e' = e := by
  cases ok <;> simp [ensure, eq_comm]

/-- Every error of `x` satisfies `P`. -/
structure Refuses {α : Type} (P : BuildError → Prop) (x : Except BuildError α) : Prop where
  error : ∀ e, x = .error e → P e

section Refuses

variable {α β : Type} {P : BuildError → Prop}

theorem refuses_ok (a : α) : Refuses P (.ok a) := ⟨fun _ h => by cases h⟩

theorem refuses_error {e : BuildError} (h : P e) : Refuses P (.error e : Except BuildError α) := by
  constructor
  rintro _ ⟨⟩
  exact h

theorem refuses_ensure {ok : Bool} {e : BuildError} (h : P e) : Refuses P (ensure ok e) :=
  ⟨fun _ he => (ensure_eq_error.mp he).2 ▸ h⟩

theorem refuses_bind {x : Except BuildError α} {f : α → Except BuildError β} (hx : Refuses P x)
    (hf : ∀ a, Refuses P (f a)) : Refuses P (x >>= f) := by
  refine ⟨fun e he => ?_⟩
  rcases bind_eq_error.mp he with he | ⟨a, -, he⟩
  · exact hx.error e he
  · exact (hf a).error e he

theorem refuses_map {x : Except BuildError α} {f : α → β} (hx : Refuses P x) :
    Refuses P (x.map f) := by
  cases x with
  | error e => exact refuses_error (hx.error e rfl)
  | ok a => exact refuses_ok _

end Refuses

end XChain
