import XChainEncoder.Lib.Coroutine
import XChainEncoder.Payload
import XChainEncoder.Reservations
import XChainEncoder.TxSize

/-!
# Calls, awaited replies and results

* `TxRequest`, `CancelRequest`, `Command`: what a caller asks for;
* `Rpc`: what a call awaits from the node, the tracker and the event loop;
* `TxResult`, `CancelResult`, `CallResult`: what a call returns;
* `sig`, `Prog`: programs of one call over the encoder's shared state.
-/

namespace XChain

open PushScript Coroutine

/-! ## What a caller asks for -/

/-- A fee quote, paid as one more output. -/
structure FeeQuote where
  address : Text
  amount : ℤ
  deriving DecidableEq, Repr

/-- The arguments of `createTransaction`. An absent, `null`, `false` or empty-string argument is
`none`; an absent list is empty. -/
structure TxRequest where
  utxos : List Utxo
  pubkey : Text
  customOutputs : List CustomOutput
  data : Option Bytes
  rawData : Option Bytes
  fee : Option ℤ
  replacebyfee : Bool
  encoding : EncodingChoice
  change : Option Text
  p2shHash : Option Text
  p2shHex : Option Text
  compressedPubKey : Option Bytes
  unconfirmed : Bool
  feePerKb : Option ℚ
  dust : Option ℤ
  feeQuote : Option FeeQuote
  attachPrevTx : Bool
  compress : Option Bool
  signerSupportsTapscript : Bool
  exactInputs : Bool
  deriving DecidableEq

/-- The recovery record of `createEnvelopeCancelTransaction`. -/
structure CancelRequest where
  knownKeysOnly : Bool
  commitTxid : Text
  commitVout : ℕ
  commitValue : ℤ
  internalPubkey : Text
  tapleafHash : Text
  destination : Text
  feePerKb : Option ℚ
  replacebyfee : Bool
  deriving DecidableEq, Repr

/-- One call of the encoder. A malformed reservation id is `none`. -/
inductive Command where
  | createTransaction (request : TxRequest)
  | createEnvelopeCancelTransaction (request : CancelRequest)
  | releaseReservation (reservationId : Option ℕ)
  deriving DecidableEq

/-! ## What a call awaits -/

/-- The tracker's own account of its view. -/
structure SyncStatus where
  lag : Option ℚ
  synced : Option Bool
  mempoolReady : Option Bool
  halted : Bool
  haltReason : Option String
  deriving DecidableEq, Repr

/-- A field of a row that is to hold a number: a whole number, a string of digits, or any other value
that is there. -/
inductive RowField where
  | undefined
  | number (n : ℤ)
  | digits (n : ℤ)
  | other
  deriving DecidableEq, Repr

/-- One row of the tracker, before it is checked. -/
structure TrackerRow where
  txid : Text
  vout : RowField
  value : RowField
  scriptPubKey : Text
  confirmations : ℕ
  deriving DecidableEq, Repr

structure TrackerReply where
  utxos : List TrackerRow
  sync : Option SyncStatus
  deriving DecidableEq, Repr

/-- Size in bytes and fees in coin of the unconfirmed ancestors. -/
structure AncestorPackage where
  size : ℚ
  fees : ℚ
  deriving DecidableEq, Repr

/-- An awaited request. `tick` is a resolved promise: it only lets other calls run. -/
inductive Rpc where
  | networkInfo
  | feePerKilobyte
  | blockCount
  | utxosFromAddress (address : Text)
  | transactionHex (txid : Text)
  | unconfirmedAncestorPackage (txids : List Text)
  | tick
  deriving DecidableEq, Repr

/-- What a request is answered with; an unusable number is `none`. -/
def Rpc.Reply : Rpc → Type
  | .networkInfo => Option ℚ
  | .feePerKilobyte => ℚ
  | .blockCount => Option ℤ
  | .utxosFromAddress _ => TrackerReply
  | .transactionHex _ => Text
  | .unconfirmedAncestorPackage _ => Option AncestorPackage
  | .tick => Unit

/-- Calls of one encoder. The code of the first-input check is the encoder's own: no connector
rejects with it. -/
abbrev sig : Sig where
  Shared := Reservations
  Ledger := Ledger
  Err := BuildError
  Req := Rpc
  Reply := Rpc.Reply
  Rejects e := e.cls ≠ .operational "INPUT_SELECTION_RACE"

/-- A program of one call. -/
abbrev Prog (α : Type) : Type := Coro sig α

/-- Let other calls run. -/
def yieldTick : Prog Unit := do
  let _ ← Coro.attempt (σ := sig) .tick
  return ()

/-! ## What a call returns -/

structure CompressionResult where
  data : Option Bytes
  rawData : Bytes
  compressed : Bool
  rawLength : ℕ
  storedLength : ℕ
  reason : Option String
  deriving DecidableEq, Repr

/-- The envelope's recovery record. -/
structure EnvelopeResult where
  commitTxid : Text
  commitVout : Option ℕ
  commitValue : ℤ
  internalPubkey : Bytes
  envelopeScript : Bytes
  revealFee : ℤ
  deriving DecidableEq, Repr

structure TxResult where
  psbt : Psbt
  encoding : Encoding
  rawDataOnlyWarning : Bool
  compression : Option CompressionResult
  carrierScripts : Option (List Bytes)
  revealPsbt : Option Psbt
  envelope : Option EnvelopeResult
  reservation : Option Receipt
  deriving DecidableEq, Repr

structure CancelResult where
  psbt : Psbt
  fee : ℤ
  reservation : Option Receipt
  deriving DecidableEq, Repr

inductive CallResult where
  | transaction (result : TxResult)
  | cancel (result : CancelResult)
  | release (result : Reservations.ReleaseResult)
  deriving DecidableEq, Repr

/-- The receipt on a result. -/
def CallResult.reservation : CallResult → Option Receipt
  | .transaction r => r.reservation
  | .cancel r => r.reservation
  | .release _ => none

theorem quiet_yieldTick : Quiet yieldTick := fun _ => trivial

end XChain
