import Mathlib.Tactic.IntervalCases
import XChainEncoder.Constants

/-!
# The libraries under the encoder

What the encoder takes from `bitcoinjs-lib`, `tiny-secp256k1` and the Node cipher, as one
structure `Library`: hashes, curve membership, addresses, transaction parsing and ids, and the
AES-128-CTR keystream. Its fields carry the lengths these functions are documented to have.

* `hexBytes`, `isPubkeyHex`: hexadecimal strings;
* `p2shScript`, `p2wshScript`, `p2trOutput`, `p2trScript`, `p2msScript`, `embedScript`: output scripts;
* `obfuscate`: the cipher on a payload.
-/

namespace XChain

open PushScript

/-! ## Hexadecimal strings -/

/-- The value of a hexadecimal digit. -/
def hexDigit (c : Char) : Option ℕ :=
  if '0' ≤ c ∧ c ≤ '9' then some (c.toNat - '0'.toNat)
  else if 'a' ≤ c ∧ c ≤ 'f' then some (c.toNat - 'a'.toNat + 10)
  else if 'A' ≤ c ∧ c ≤ 'F' then some (c.toNat - 'A'.toNat + 10)
  else none

/-- `Buffer.from(s, 'hex')`: stops at the first pair that is not two digits. -/
def hexBytes : Text → Bytes
  | a :: b :: rest =>
    match hexDigit a, hexDigit b with
    | some x, some y => UInt8.ofNat (16 * x + y) :: hexBytes rest
    | _, _ => []
  | _ => []

def isHex (s : Text) : Bool := s.all fun c => (hexDigit c).isSome

/-- `02`/`03` and 64 digits, or `04` and 128 digits. -/
def isPubkeyHex : Text → Bool
  | '0' :: '2' :: rest => rest.length = 64 && isHex rest
  | '0' :: '3' :: rest => rest.length = 64 && isHex rest
  | '0' :: '4' :: rest => rest.length = 128 && isHex rest
  | _ => false

/-- `toLowerCase` on the letters a hexadecimal string has. -/
def lower (s : Text) : Text := s.map Char.toLower

theorem hexDigit_cases {c : Char} (h : (hexDigit c).isSome) :
    (48 ≤ c.toNat ∧ c.toNat ≤ 57) ∨ (97 ≤ c.toNat ∧ c.toNat ≤ 102) ∨
      (65 ≤ c.toNat ∧ c.toNat ≤ 70) := by
  unfold hexDigit at h
  split_ifs at h with h0 h1 h2
  · exact .inl h0
  · exact .inr (.inl h1)
  · exact .inr (.inr h2)
  · cases h

theorem hexDigit_toLower {c : Char} (h : (hexDigit c).isSome) :
    (hexDigit c.toLower).isSome ∧ c.toLower.toLower = c.toLower := by
  have hc : c = Char.ofNat c.toNat := (Char.ofNat_toNat c).symm
  rcases hexDigit_cases h with ⟨h1, h2⟩ | ⟨h1, h2⟩ | ⟨h1, h2⟩ <;> generalize c.toNat = n at * <;>
    subst hc <;> interval_cases n <;> decide

theorem isHex_lower {s : Text} (h : isHex s = true) : isHex (lower s) = true := by
  simp only [isHex, lower, List.all_map, List.all_eq_true, Function.comp] at h ⊢
  exact fun c hc => (hexDigit_toLower (h c hc)).1

theorem lower_lower {s : Text} (h : isHex s = true) : lower (lower s) = lower s := by
  simp only [isHex, List.all_eq_true] at h
  simp only [lower, List.map_map]
  exact List.map_congr_left fun c hc => (hexDigit_toLower (h c hc)).2

/-! ## Transactions -/

structure TxIn where
  hash : Text
  index : ℕ
  sequence : Option ℕ
  deriving DecidableEq, Repr

structure TxOut where
  script : Bytes
  value : ℤ
  deriving DecidableEq, Repr

/-- A transaction read from its hex: its id and outputs. -/
structure ParsedTx where
  id : Text
  outs : List TxOut
  deriving DecidableEq, Repr

/-! ## The libraries -/

/-- The third-party functions a build calls. `none` is a throw. -/
structure Library where
  /-- AES-128-CTR under a key and an initial counter, as the stream of bytes it adds. -/
  keystream : Text → Text → ℕ → Option Bytes
  hash160 : Bytes → Bytes
  sha256 : Bytes → Bytes
  /-- The hash of a tapscript leaf, which is the merkle root of a tree of that leaf alone. -/
  tapleafHash : Bytes → Bytes
  /-- The output key of an internal key and a merkle root. -/
  taprootKey : Bytes → Bytes → Option Bytes
  /-- Whether the bytes are a point of the curve. -/
  isPoint : Bytes → Bool
  /-- Whether `payments.p2ms` takes the bytes as a public key. -/
  isMultisigKey : Bytes → Bool
  /-- The hash of a base58 address of any network. -/
  fromBase58Check : Text → Option Bytes
  /-- The version and program of a bech32 address of any network. -/
  fromBech32 : Text → Option (ℕ × Bytes)
  /-- The output script of an address of the network. -/
  toOutputScript : Network → Text → Option Bytes
  p2pkhAddress : Network → Bytes → Option Text
  p2wpkhAddress : Network → Bytes → Option Text
  transactionFromHex : Text → Option ParsedTx
  /-- `zlib.deflateRaw`. -/
  deflateRaw : Bytes → Option Bytes
  /-- The id of an unsigned transaction. -/
  getId : List TxIn → List TxOut → Text
  keystream_length : ∀ key iv n ks, keystream key iv n = some ks → ks.length = n
  hash160_length : ∀ b, (hash160 b).length = 20
  sha256_length : ∀ b, (sha256 b).length = 32
  taprootKey_length : ∀ k s q, taprootKey k s = some q → q.length = 32
  isMultisigKey_length : ∀ k, isMultisigKey k = true → k.length = 33 ∨ k.length = 65
  fromBase58Check_length : ∀ a h, fromBase58Check a = some h → h.length = 20

variable (L : Library)

/-! ## Output scripts -/

/-- `OP_HASH160 <hash160> OP_EQUAL`. -/
def p2shScript (script : Bytes) : Bytes :=
  compile [.op 0xa9, .push (L.hash160 script), .op 0x87]

/-- `OP_0 <sha256>`. -/
def p2wshScript (script : Bytes) : Bytes := compile [.op 0x00, .push (L.sha256 script)]

/-- `OP_1 <output key>`, under a merkle root. -/
def p2trOutput (internalPubkey merkleRoot : Bytes) : Option Bytes :=
  (L.taprootKey internalPubkey merkleRoot).map fun q => compile [.op 0x51, .push q]

/-- The output of an internal key and its one tapscript leaf. -/
def p2trScript (internalPubkey script : Bytes) : Option Bytes :=
  p2trOutput L internalPubkey (L.tapleafHash script)

/-- `OP_1 <pubkeys> OP_n OP_CHECKMULTISIG`, refused when a key is not one. -/
def p2msScript (pubkeys : List Bytes) : Option Bytes :=
  if pubkeys.all L.isMultisigKey then
    some (compile (.op 0x51 :: pubkeys.map .push ++
      [.op (0x50 + UInt8.ofNat pubkeys.length), .op 0xae]))
  else none

/-- `OP_RETURN <data>`. -/
def embedScript (data : Bytes) : Bytes := compile [.op 0x6a, .push data]

/-! ## The cipher -/

/-- `obfuscate`: the key's first sixteen characters are the cipher key, the next sixteen the
counter. -/
def obfuscate (data : Bytes) (key : Text) : Option Bytes :=
  (L.keystream (key.take 16) ((key.drop 16).take 16) data.length).map fun ks =>
    List.zipWith (· ^^^ ·) data ks

variable {L}

theorem obfuscate_length {data out : Bytes} {key : Text} (h : obfuscate L data key = some out) :
    out.length = data.length := by
  simp only [obfuscate, Option.map_eq_some_iff] at h
  obtain ⟨ks, hks, rfl⟩ := h
  rw [List.length_zipWith, L.keystream_length _ _ _ _ hks, Nat.min_self]

theorem zipWith_xor_cancel (data ks : Bytes) (h : ks.length = data.length) :
    List.zipWith (· ^^^ ·) (List.zipWith (· ^^^ ·) data ks) ks = data := by
  induction data generalizing ks with
  | nil => simp
  | cons d ds ih =>
    cases ks with
    | nil => cases h
    | cons k ks =>
      simp only [List.zipWith_cons_cons, UInt8.xor_assoc, UInt8.xor_self, UInt8.xor_zero]
      rw [ih ks (Nat.succ.inj h)]

theorem obfuscate_obfuscate {data out : Bytes} {key : Text}
    (h : obfuscate L data key = some out) : obfuscate L out key = some data := by
  have hlen := obfuscate_length h
  simp only [obfuscate, Option.map_eq_some_iff] at h ⊢
  obtain ⟨ks, hks, rfl⟩ := h
  refine ⟨ks, by rw [hlen, hks], zipWith_xor_cancel data ks (L.keystream_length _ _ _ _ hks)⟩

/-! ## A concrete library

Real values for one caller key and one txid, enough to run a build. -/

/-- The public key whose private key is one. -/
def sampleKey : Bytes :=
  [0x02, 0x79, 0xbe, 0x66, 0x7e, 0xf9, 0xdc, 0xbb, 0xac, 0x55, 0xa0, 0x62, 0x95, 0xce, 0x87, 0x0b,
    0x07, 0x02, 0x9b, 0xfc, 0xdb, 0x2d, 0xce, 0x28, 0xd9, 0x59, 0xf2, 0x81, 0x5b, 0x16, 0xf8, 0x17,
    0x98]

/-- The hash of `sampleKey`. -/
def sampleHash : Bytes :=
  [0x75, 0x1e, 0x76, 0xe8, 0x19, 0x91, 0x96, 0xd4, 0x54, 0x94, 0x1c, 0x45, 0xd1, 0xb3, 0xa3, 0x23,
    0xf1, 0x43, 0x3b, 0xd6]

/-- The P2WPKH addresses of `sampleKey`. -/
def sampleAddress (network : Network) : Text :=
  match network.coin with
  | .ltc => "ltc1qw508d6qejxtdg4y5r3zarvary0c5xw7kgmn4n9".toList
  | _ => "bc1qw508d6qejxtdg4y5r3zarvary0c5xw7kv8f3t4".toList

def sampleTxid : Text :=
  "a1b2c3d4e5f60718293a4b5c6d7e8f90112233445566778899aabbccddeeff00".toList

/-- The AES-128-CTR stream under `sampleTxid`. -/
def sampleKeystream : Bytes :=
  [0xf2, 0xc4, 0x09, 0x8e, 0x27, 0x86, 0x24, 0xea, 0xf7, 0x7f, 0x05, 0x55, 0x7c, 0x15, 0xbe, 0x7a,
    0x11, 0xfb, 0x7d, 0xc6, 0xf5, 0x4b, 0x20, 0xe9, 0x8c, 0x55, 0x99, 0x7f, 0x23, 0x39, 0x43, 0x78,
    0xde, 0xac, 0x2c, 0xcd, 0x25, 0x98, 0x4c, 0x70, 0xe9, 0x76, 0x40, 0xf9, 0x74, 0x66, 0x92, 0xbc,
    0x76, 0x23, 0xe3, 0x33, 0xd3, 0x0e, 0xb5, 0xcd, 0x7a, 0x4b, 0x2b, 0x17, 0x2d, 0xd5, 0x8e, 0x9a]

/-- The first `n` bytes, filled with zeros. -/
def fit (n : ℕ) (b : Bytes) : Bytes := b.take n ++ List.replicate (n - b.length) 0x00

theorem fit_length (n : ℕ) (b : Bytes) : (fit n b).length = n := by
  simp only [fit, List.length_append, List.length_take, List.length_replicate]
  omega

/-- A library that agrees with the real one on the sample values. -/
def sampleLibrary : Library where
  keystream key iv n :=
    if key = sampleTxid.take 16 ∧ iv = (sampleTxid.drop 16).take 16 then
      some (fit n sampleKeystream)
    else none
  hash160 b := if b = sampleKey then sampleHash else fit 20 b
  sha256 b := fit 32 b
  tapleafHash b := fit 32 b
  taprootKey k _ := some (fit 32 k)
  isPoint b := b = sampleKey
  isMultisigKey k := k.length = 33 && (k.head? = some 0x02 || k.head? = some 0x03)
  fromBase58Check _ := none
  fromBech32 a := if a = sampleAddress ⟨.btc, .mainnet⟩ ∨ a = sampleAddress ⟨.ltc, .mainnet⟩ then
    some (0, sampleHash) else none
  toOutputScript network a :=
    if a = sampleAddress network then some (compile [.op 0x00, .push sampleHash]) else none
  p2pkhAddress _ _ := none
  p2wpkhAddress network k := if k = sampleKey then some (sampleAddress network) else none
  transactionFromHex _ := none
  deflateRaw _ := none
  getId _ _ := sampleTxid
  keystream_length key iv n ks h := by
    split_ifs at h
    cases h
    exact fit_length _ _
  hash160_length b := by
    split_ifs
    · rfl
    · exact fit_length _ _
  sha256_length b := fit_length _ _
  taprootKey_length k s q h := by
    cases h
    exact fit_length _ _
  isMultisigKey_length k h := by
    simp only [Bool.and_eq_true, decide_eq_true_eq] at h
    exact .inl h.1
  fromBase58Check_length a h hh := by cases hh

end XChain
