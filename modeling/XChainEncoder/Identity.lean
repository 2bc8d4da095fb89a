import XChainEncoder.Library

/-!
# Caller identities and addresses

The caller names itself by an address or by a public key in hexadecimal.

* `resolveCallerHash160`: the hash that gates a chunk script, from any identity;
* `resolveCallerAddress`: an address of this network for the identity;
* `assertAddressOnNetwork`, `assertRevealFundingTxMatches`;
* `resolveCallerHash160_length`: the hash has twenty bytes.
-/

namespace XChain

variable (L : Library) (network : Network)

/-- Refuse a key that is not on the curve. -/
def assertPubkeyOnCurve (key : PushScript.Bytes) (label : String) : Except BuildError Unit :=
  ensure (L.isPoint key) (ParamTypeError s!"{label} is not a valid secp256k1 point")

def resolveCallerHash160 (pubKey : Text) : Except BuildError PushScript.Bytes :=
  if isPubkeyHex pubKey then do
    let pubkeyBuf := hexBytes pubKey
    assertPubkeyOnCurve L pubkeyBuf "pubkey"
    return L.hash160 pubkeyBuf
  else
    match L.fromBase58Check pubKey with
    | some hash => .ok hash
    | none =>
      match L.fromBech32 pubKey with
      | some (version, data) =>
        if version = 0 ∧ data.length = 20 then .ok data
        else .error (ParamTypeError
          (s!"caller \"{String.ofList pubKey}\" decodes to a v{version} / {data.length}-byte " ++
            "witness program; the chunk-lane P2PKH gate needs a 20-byte HASH160 (v0 P2WPKH)"))
      | none => .error (ParamTypeError
          (s!"prepareData: cannot resolve a 20-byte caller HASH160 from identity " ++
            s!"\"{String.ofList pubKey}\" (expected a base58 P2PKH/P2SH address, a " ++
            "compressed/uncompressed pubkey hex, or a v0 bech32 P2WPKH address)"))

def resolveCallerAddress (pubKey : Text) : Except BuildError Text :=
  if pubKey = [] then .ok pubKey
  else if (L.toOutputScript network pubKey).isSome then .ok pubKey
  else if isPubkeyHex pubKey then do
    let pubkeyBuf := hexBytes pubKey
    assertPubkeyOnCurve L pubkeyBuf "pubkey"
    let address := if network.supportsSegwit then L.p2wpkhAddress network pubkeyBuf
      else L.p2pkhAddress network pubkeyBuf
    match address with
    | some a => return a
    | none => throw (PlainError "payment not derivable from the key")
  else .error (ParamTypeError
    "pubkey is neither a valid address for this network nor a public key hex")

def validateAddress (address : Text) (label : String) : Except BuildError Unit := do
  ensure (address.length ≠ 0) (ParamTypeError s!"{label} must be a non-empty string")
  ensure (address.length ≤ 100) (ParamTypeError s!"{label} exceeds maximum length (100)")

def assertAddressOnNetwork (address : Text) (label : String) : Except BuildError Unit := do
  validateAddress address label
  ensure (L.toOutputScript network address).isSome
    (ParamTypeError s!"{label} is not a valid address for this network")

/-- The reveal names its funding transaction twice, by id and by bytes: refuse two different
ones. -/
def assertRevealFundingTxMatches (p2shHash fundingTxid : Text) : Except BuildError Unit :=
  ensure (lower p2shHash = lower fundingTxid) (ParamTypeError
    (s!"p2shHash ({String.ofList p2shHash}) does not match the txid of the supplied p2shHex " ++
      s!"transaction ({String.ofList fundingTxid}); the reveal would spend one funding " ++
      "transaction while keying its marker to another"))

variable {L}

theorem resolveCallerHash160_length {pubKey : Text} {hash : PushScript.Bytes}
    (h : resolveCallerHash160 L pubKey = .ok hash) : hash.length = 20 := by
  unfold resolveCallerHash160 at h
  split_ifs at h with hx
  · cases hp : assertPubkeyOnCurve L (hexBytes pubKey) "pubkey" with
    | error e =>
      simp only [hp] at h
      cases h
    | ok u =>
      simp only [hp] at h
      cases h
      exact L.hash160_length _
  · cases hb : L.fromBase58Check pubKey with
    | some b =>
      simp only [hb] at h
      cases h
      exact L.fromBase58Check_length _ _ hb
    | none =>
      simp only [hb] at h
      cases hw : L.fromBech32 pubKey with
      | none =>
        simp only [hw] at h
        cases h
      | some p =>
        obtain ⟨version, data⟩ := p
        simp only [hw] at h
        split_ifs at h with hv
        cases h
        exact hv.2

end XChain
