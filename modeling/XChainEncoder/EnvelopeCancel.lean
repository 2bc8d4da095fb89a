import XChainEncoder.Build

/-!
# Envelope cancel

The key-path cancel of an unrevealed envelope commit, from the wallet's recovery record alone.

* `readCancelRecord`, `claimCommitOutpoint`, `cancelFeeRate`, `sizeCancelSweep`;
* `createEnvelopeCancelTransaction`: overlapping cancels of one outpoint share it by owner tokens.
-/

namespace XChain

open PushScript Coroutine

variable (enc : Encoder)

/-- The recovery record as read. -/
structure CancelRecord where
  outpoint : Outpoint
  value : ℤ
  internalKey : Bytes
  feeRatePerKb : Option ℚ
  rbfArmed : Bool
  tapleafHash : Bytes
  deriving DecidableEq

/-- The x-only key of a compressed or x-only public key in hexadecimal. -/
def xOnlyKey (internalPubkey : Text) : Option Bytes :=
  match compressedKeyOfHex internalPubkey with
  | some key => some (key.drop 1)
  | none =>
    if internalPubkey.length = 64 && isHex internalPubkey then some (hexBytes internalPubkey)
    else none

/-- A positive rate of at most the greatest fee, or none. -/
def validateFeePerKb (feePerKb : Option ℚ) : Except BuildError (Option ℚ) :=
  match feePerKb with
  | none => .ok none
  | some rate => do
    ensure (0 < rate) (ParamRangeError "feePerKb must be positive")
    ensure (rate ≤ maxFeeSatoshis) (ParamRangeError
      s!"feePerKb ({rate}) exceeds maximum ({maxFeeSatoshis})")
    return some rate

/-- The commit that is cancelled, field by field. -/
def readCancelRecord (request : CancelRequest) : Except BuildError CancelRecord := do
  ensure (isTxid request.commitTxid) (ParamTypeError "commitTxid must be a 64-character hex string")
  ensure (request.commitVout ≤ 4294967295) (ParamTypeError
    "commitVout must be a non-negative integer no greater than 4294967295")
  let value ← parseSatoshiAmount request.commitValue "commitValue" false
  match xOnlyKey request.internalPubkey with
  | none => throw (ParamTypeError ("internalPubkey must be a 66-character compressed or " ++
      "64-character x-only pubkey hex string"))
  | some internalKey =>
    assertPubkeyOnCurve enc.lib (0x02 :: internalKey) "internalPubkey"
    ensure (isTxid request.tapleafHash) (ParamTypeError
      "tapleafHash must be a 64-character hex string")
    assertAddressOnNetwork enc.lib enc.network request.destination "destination"
    ensure enc.network.supportsSegwit (ParamTypeError
      "TAPROOT encoding is not supported on this network (no segwit support)")
    let feeRatePerKb ← validateFeePerKb request.feePerKb
    return ⟨⟨lower request.commitTxid, request.commitVout⟩, value, internalKey, feeRatePerKb,
      request.replacebyfee, hexBytes request.tapleafHash⟩

/-- Claim the commit outpoint as one more owner, unless another kind of build holds it. -/
def claimCommit (key : Outpoint) (nowClaim : ℕ) (l : Ledger) (s : Reservations) :
    Except BuildError Unit × Ledger × Reservations :=
  let s := (s.evictExpiredReservations nowClaim).evictExpiredEnvelopeCancelClaims nowClaim
  let (reserved, s) := s.isOutpointReserved key nowClaim
  if reserved ∧ s.maxLiveCancelOwnerExpiry key nowClaim ≠ s.outpointReservations key then
    (.error (OperationalError "ENVELOPE_CANCEL_OUTPOINT_RESERVED"
      (s!"commit outpoint {showOutpoint key} is reserved by a transaction built in the last 5 " ++
        "minutes; broadcast that transaction and rebuild from the resulting view, or wait for " ++
        "the reservation to lapse")), l, s)
  else
    let (expiry, s) := s.reserveOutpoint key nowClaim
    let cancelOwnerId := s.nextId
    (.ok (), { l with claims := l.claims ++ [⟨key, expiry, some cancelOwnerId⟩] },
      { s with
        nextId := s.nextId + 1
        envelopeCancelClaims := Function.update s.envelopeCancelClaims key
          (s.envelopeCancelClaims key ++ [(cancelOwnerId, expiry)]) })

/-- Claim the commit's outpoint, for this call. -/
def claimCommitOutpoint (key : Outpoint) : Prog Unit := do
  let nowClaim ← Coro.readClock
  let (s, l) ← Coro.read
  let (r, l, s) := claimCommit key nowClaim l s
  Coro.write (σ := sig) s l
  Coro.ofExcept (σ := sig) r

/-- The rate of a cancel and the relay rate. -/
structure CancelRate where
  feePerBytes : ℚ
  relayFeePerKb : ℚ

/-- The node's rate as it answers. -/
def useNodeRate : Prog (ℚ × Option ℚ) := do
  let node : ℚ ← Coro.request (σ := sig) .feePerKilobyte
  return (node / 1000, some (node / 1000))

/-- The caller's rate, or the node's. -/
def cancelFeeRate (feeRatePerKb : Option ℚ) : Prog CancelRate := do
  let relayFeePerKb ← resolveRelayFeeRate
  let (feePerBytes, node) ← match callerRate feeRatePerKb with
    | some rate => useCallerFeeRate rate
    | none => useNodeRate
  return ⟨(capCallerFeeRate enc feePerBytes node relayFeePerKb).feePerBytes, relayFeePerKb⟩

/-- The cancel's fee and what it sweeps. -/
structure CancelSweep where
  padNeeded : Bool
  cancelFee : ℤ
  sweepValue : ℤ

/-- The size of a cancel, padded to the network's floor. -/
def cancelSize (destOutBytes : ℕ) : Bool × ℕ :=
  let padNeeded := match enc.network.minStandardTxNonWitnessSize with
    | some cancelStrippedFloor => decide (10 + 41 + destOutBytes < cancelStrippedFloor)
    | none => false
  let strippedBytes := raiseToFloor enc.network
    (10 + 41 + destOutBytes + (if padNeeded then destOutBytes else 0))
  (padNeeded, strippedBytes + ceilQuarter (2 + 1 + 1 + 65) + 2)

/-- The sweep's size, fee and value. -/
def sizeCancelSweep (record : CancelRecord) (destination : Text) (rate : CancelRate) :
    Except BuildError CancelSweep := do
  let destOutBytes := estimateOutputSizeForAddress enc.lib enc.network (some destination)
  let (padNeeded, cancelVsize) := cancelSize enc destOutBytes
  let cancelFee := feeForVsize cancelVsize rate.feePerBytes
  let minimum := minimumRelayFee cancelVsize rate.relayFeePerKb
  ensure (record.feeRatePerKb.isNone || minimum ≤ cancelFee) (ParamRangeError
    (s!"feePerKb {record.feeRatePerKb.getD 0} base units/kB produces fee {cancelFee}, below the " ++
      s!"node relay minimum {minimum} base units for a ~{cancelVsize}-byte transaction"))
  let cancelFee := max cancelFee enc.dustAmount
  let sweepValue := record.value - cancelFee - (if padNeeded then enc.dustAmount else 0)
  ensure (enc.dustAmount ≤ sweepValue) (OperationalError "ENVELOPE_CANCEL_BELOW_DUST"
    (s!"cancel would sweep {sweepValue} satoshis (commit value {record.value} minus fee " ++
      s!"{cancelFee}" ++ (if padNeeded then " minus floor pad" else "") ++ "), below the dust floor " ++
      s!"({enc.dustAmount}); spend it via the reveal or CPFP instead"))
  return ⟨padNeeded, cancelFee, sweepValue⟩

/-- The script of the commit output. The hash of its only leaf is the merkle root. -/
def cancelCommitScript (record : CancelRecord) : Except BuildError Bytes :=
  match p2trOutput enc.lib record.internalKey record.tapleafHash with
  | none => .error (PlainError "Expected property of type Point")
  | some script => .ok script

/-- The cancel transaction: one key-path input, the swept output and its pad. -/
def cancelPsbt (record : CancelRecord) (script : Bytes) (destination : Text) (sweep : CancelSweep) :
    Except BuildError CancelResult := do
  let psbt ← Psbt.empty.addInput
    { hash := record.outpoint.txid, index := record.outpoint.vout,
      sequence := if record.rbfArmed then 0xfffffffd else 0xffffffff,
      witnessUtxo := some ⟨script, record.value⟩, nonWitnessUtxo := none, redeemScript := none,
      witnessScript := none }
  let psbt ← psbt.addAddressOutput enc.lib enc.network destination sweep.sweepValue true
  let psbt ← if sweep.padNeeded then
      psbt.addAddressOutput enc.lib enc.network destination enc.dustAmount true
    else .ok psbt
  return ⟨psbt, sweep.cancelFee, none⟩

/-- The cancel: record, claim, rate and sweep. -/
def buildEnvelopeCancelTransaction (request : CancelRequest) : Prog CancelResult := do
  let record ← Coro.ofExcept (σ := sig) (readCancelRecord enc request)
  claimCommitOutpoint record.outpoint
  let rate ← cancelFeeRate enc record.feeRatePerKb
  let script ← Coro.ofExcept (σ := sig) (cancelCommitScript enc record)
  let sweep ← Coro.ofExcept (σ := sig) (sizeCancelSweep enc record request.destination rate)
  Coro.ofExcept (σ := sig) (cancelPsbt enc record script request.destination sweep)

/-- Release the owner token of a failed cancel, and throw on. -/
def releaseCancelAndRethrow {α : Type} (e : BuildError) : Prog α := do
  yieldTick
  let now ← Coro.readClock
  let (s, l) ← Coro.read
  Coro.write (σ := sig) (s.releaseEnvelopeCancelClaims l.claims now) l
  Coro.throw e

/-- The cancel as it is requested; a failure gives its claims back. -/
def createEnvelopeCancelTransaction (request : CancelRequest) : Prog CancelResult := do
  Coro.ofExcept (σ := sig) (ensure request.knownKeysOnly
    (ParamTypeError "unknown create_envelope_cancel parameter"))
  let result ← Coro.tryCatch (do
    let result ← buildEnvelopeCancelTransaction enc request
    yieldTick
    return result) releaseCancelAndRethrow
  let receipt ← mintReceipt
  return { result with reservation := receipt }

/-! ## Releasing, and the calls of an encoder -/

/-- Give back what a receipt stands for. -/
def releaseReservation (reservationId : Option ℕ) : Prog Reservations.ReleaseResult :=
  match reservationId with
  | none => Coro.throw (ParamTypeError ("reservationId must be a 32-character lowercase hex " ++
      "string, as returned in create_tx result.reservation.id"))
  | some id => do
    let now ← Coro.readClock
    let (s, l) ← Coro.read
    let (result, s) := s.releaseReservation id now
    Coro.write (σ := sig) s l
    return result

/-- The program of each call. -/
def program : Command → Prog CallResult
  | .createTransaction request => do
    let r ← createTransaction enc request
    return .transaction r
  | .createEnvelopeCancelTransaction request => do
    let r ← createEnvelopeCancelTransaction enc request
    return .cancel r
  | .releaseReservation id => do
    let r ← releaseReservation id
    return .release r

/-- The worlds of one encoder. -/
abbrev EncoderWorld : Type := World sig Command CallResult

/-- The encoder after a list of events, from empty maps. -/
def encoderRun (clock : ℕ) (events : List (Event sig Command)) : EncoderWorld :=
  run (program enc) Ledger.empty (World.init clock Reservations.empty) events

end XChain
