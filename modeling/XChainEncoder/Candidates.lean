import Mathlib.Data.List.Sort
import XChainEncoder.PayloadChecks
import XChainEncoder.UpstreamReasons

/-!
# Candidate inputs

The outputs a build may spend: the caller's, or the tracker's view of the caller's address.

* `checkExactInputs`, `gatherUtxos`, `refuseShrunkExactInputs`, `filterAndOrderUtxos`;
* `nodup_compactUtxos`, `mem_filterAndOrderUtxos`: **the candidates are distinct outpoints of the
  gathered set**, and a funding build never goes on without one.
-/

namespace XChain

open PushScript Coroutine

/-- The longest script of an output, in digits. -/
def maxScriptPubKeyHexLength : ℕ := 20000

/-- `outpointKey`: the one spelling of an outpoint. -/
def outpointKey (utxo : Utxo) : Outpoint := ⟨lower utxo.txid, utxo.vout⟩

/-- An output of a transaction that is in no block. -/
def isUnconfirmedUtxo (utxo : Utxo) : Bool := utxo.confirmations = 0

/-! ## The tracker's rows -/

theorem isTxid_lower {s : Text} (h : isTxid s = true) : isTxid (lower s) = true := by
  simp only [isTxid, Bool.and_eq_true, decide_eq_true_eq] at h ⊢
  exact ⟨by simpa [lower] using h.1, isHex_lower h.2⟩

/-- The exact integer of a field. -/
def RowField.exact : RowField → Option ℤ
  | .number n => some n
  | .digits n => some n
  | _ => none

/-- The output index of a field, of 32 bits. -/
def RowField.outputIndex (field : RowField) (label : String) : Except BuildError ℕ :=
  match field.exact with
  | some n =>
    if 0 ≤ n ∧ n ≤ 4294967295 then .ok n.toNat
    else .error (ParamTypeError s!"{label} must be a non-negative integer no greater than 4294967295")
  | none => .error (ParamTypeError
      s!"{label} must be a non-negative integer no greater than 4294967295")

/-- The amount of a field. Past the safe integers only digits are exact. -/
def RowField.satoshis (field : RowField) (label : String) : Except BuildError ℤ :=
  match field with
  | .digits n => parseSatoshiAmount n label true
  | .number n => do
    ensure (0 ≤ n) (ParamRangeError s!"{label} must be a non-negative integer")
    ensure (n ≤ maxSafeInteger) (ParamRangeError
      (s!"{label} ({n}) exceeds the maximum safe satoshi amount ({maxSafeInteger}) and cannot be " ++
        "represented without precision loss; pass amounts above it as an exact decimal string"))
    return n
  | _ => .error (ParamRangeError s!"{label} must be a non-negative integer")

/-- One row checked: its txid lowercase, its script decoded. -/
def validateUtxoEntry (entry : TrackerRow) (index : ℕ) : Except BuildError Utxo :=
  if h : isTxid entry.txid = true then do
    let vout ← entry.vout.outputIndex s!"utxos[{index}].vout"
    let value ← entry.value.satoshis s!"utxos[{index}].value"
    ensure (entry.scriptPubKey ≠ []) (ParamTypeError
      s!"utxos[{index}].scriptPubKey must be a non-empty string")
    ensure (entry.scriptPubKey.length ≤ maxScriptPubKeyHexLength) (ParamRangeError
      s!"utxos[{index}].scriptPubKey exceeds maximum length ({maxScriptPubKeyHexLength})")
    ensure (entry.scriptPubKey.length % 2 = 0 && isHex entry.scriptPubKey) (ParamTypeError
      s!"utxos[{index}].scriptPubKey must be an even-length hex string")
    return { txid := lower entry.txid, vout, value,
             scriptPubKey := hexBytes entry.scriptPubKey, confirmations := entry.confirmations,
             redeemScript := none, txid_hex := isTxid_lower h }
  else .error (ParamTypeError s!"utxos[{index}].txid must be a 64-character hex string")

/-- The message of an upstream error, or the fallback. A failed transport has none here. -/
def upstreamErrorMessage (e : BuildError) (fallback : String) : String :=
  Upstream.upstreamErrorMessage ⟨false, e.message⟩ fallback

/-- Check all rows, naming a bad one as a tracker error. -/
def validateTrackerRows : List TrackerRow → ℕ → Except BuildError (List Utxo)
  | [], _ => .ok []
  | row :: rows, i =>
    match validateUtxoEntry row i with
    | .ok utxo => (validateTrackerRows rows (i + 1)).map (utxo :: ·)
    | .error e => .error (OperationalError "UTXO_TRACKER_ERROR"
        (s!"utxo-tracker returned a malformed utxo: " ++
          upstreamErrorMessage e s!"unreadable entry at index {i}"))

/-- Why the tracker's view cannot be used, by the sync block it reported. -/
def classifyTrackerFreshness (sync : Option SyncStatus) (maxLagBlocks : ℚ) : Option BuildError :=
  match sync with
  | none => none
  | some sync =>
    let overLag := sync.lag.any fun lag => maxLagBlocks < lag
    let behindNode := sync.lag.any fun lag => lag < 0
    if sync.halted then some (OperationalError "UTXO_TRACKER_HALTED"
      ("utxo-tracker is halted (" ++ sync.haltReason.getD "unrecoverable reorg" ++ "); " ++
        "refusing to select utxos from it"))
    else if sync.synced = some false || overLag || behindNode then
      some (OperationalError "UTXO_TRACKER_STALE"
        ("utxo-tracker view is stale (lag " ++ (sync.lag.map toString).getD "unknown" ++ " blocks" ++
          (if overLag then s!", exceeds {maxLagBlocks}-block threshold" else "") ++
          (if behindNode then ", tracker is ahead of the node so its view is orphaned" else "") ++
          "); refusing to select utxos from it"))
    else if sync.mempoolReady = some false then some (OperationalError "UTXO_TRACKER_NOT_READY"
      ("utxo-tracker has not reconverged its mempool yet, so an already-spent confirmed output " ++
        "cannot be filtered; refusing to select utxos from it"))
    else none

/-- The refusal of a build that has no candidate. -/
def noUtxos : BuildError :=
  OperationalError "NO_UTXOS" "no utxos were provided and no utxos found on the blockchain"

/-- The tracker's failure, as a build reports it. -/
def trackerRejection (e : BuildError) : BuildError :=
  if e.cls = .operational "UTXO_SET_TOO_LARGE" then
    OperationalError "UTXO_SET_TOO_LARGE" e.message
  else OperationalError "UTXO_TRACKER_ERROR" (upstreamErrorMessage e "UTXO tracker unavailable")

/-- A reply that names at least one output, every row checked. -/
def acceptTrackerUtxos (fetched : TrackerReply) : Except BuildError (List Utxo) :=
  if fetched.utxos = [] then .error noUtxos else validateTrackerRows fetched.utxos 0

/-- The outputs that the tracker lists for the caller's address. -/
def fetchTrackerUtxos (enc : Encoder) (pubkey : Text) : Prog (List Utxo) := do
  let callerAddress ← Coro.ofExcept (σ := sig) (resolveCallerAddress enc.lib enc.network pubkey)
  let fetched : Except BuildError TrackerReply ←
    Coro.attempt (σ := sig) (.utxosFromAddress callerAddress)
  match fetched with
  | .error e => Coro.throw (trackerRejection e)
  | .ok fetched =>
    match classifyTrackerFreshness fetched.sync enc.maxUtxoTrackerLagBlocks with
    | some refusal => Coro.throw refusal
    | none => Coro.ofExcept (σ := sig) (acceptTrackerUtxos fetched)

/-! ## The candidate set -/

/-- A caller who fixes the inputs names some, and not of a reveal. -/
def checkExactInputs (request : TxRequest) : Except BuildError Unit :=
  if request.exactInputs then do
    ensure request.p2shHash.isNone (ParamTypeError
      ("options.exactInputs cannot be combined with p2shHash: the reveal spends the " ++
        "funding transaction's own outputs, which are derived from p2shHex, not selected"))
    ensure (request.utxos ≠ []) (ParamTypeError
      ("options.exactInputs requires a non-empty utxos array: it names the exact input " ++
        "set to spend, so there is nothing to be exact about when the set is fetched"))
  else .ok ()

/-- The gathered set, and whether the tracker supplied it. -/
structure Gathered where
  utxos : List Utxo
  fetchedFromTracker : Bool

/-- The caller's outputs, or the tracker's where there are none. -/
def gatherUtxos (enc : Encoder) (request : TxRequest) : Prog Gathered :=
  if request.utxos ≠ [] then return ⟨request.utxos, false⟩
  else if request.p2shHash.isSome ∧ request.p2shHex.isSome then return ⟨[], false⟩
  else do
    let utxos ← fetchTrackerUtxos enc request.pubkey
    return ⟨utxos, true⟩

/-- Every entry is of a new outpoint. -/
def refuseDuplicateOutpoints : List Utxo → List Outpoint → Except BuildError Unit
  | [], _ => .ok ()
  | u :: us, seen =>
    if outpointKey u ∈ seen then .error (ParamTypeError
      (s!"options.exactInputs names outpoint {String.ofList (lower u.txid)}:{u.vout} more than " ++
        "once; a transaction cannot spend the same output twice"))
    else refuseDuplicateOutpoints us (outpointKey u :: seen)

/-- Fixed inputs are all kept: one that would be dropped is refused. -/
def refuseShrunkExactInputs (request : TxRequest) (utxos : List Utxo) : Except BuildError Unit :=
  if request.exactInputs then do
    match utxos.find? isUnconfirmedUtxo with
    | some mempoolInput => ensure request.unconfirmed (ParamTypeError
        (s!"options.exactInputs names unconfirmed utxo {String.ofList mempoolInput.txid}:" ++
          s!"{mempoolInput.vout}, but unconfirmed=false would drop it; pass unconfirmed: true " ++
          "to spend it"))
    | none => pure ()
    refuseDuplicateOutpoints utxos []
  else .ok ()

/-- One pass: mempool entries dropped when unconfirmed is false, then first occurrences kept. -/
def compactUtxos (unconfirmed : Bool) : List Utxo → List Outpoint → List Utxo
  | [], _ => []
  | u :: us, seen =>
    if !unconfirmed && isUnconfirmedUtxo u then compactUtxos unconfirmed us seen
    else if outpointKey u ∈ seen then compactUtxos unconfirmed us seen
    else u :: compactUtxos unconfirmed us (outpointKey u :: seen)

/-- Value descending, then lowercase txid and output index ascending. -/
def candidateLe (a b : Utxo) : Bool :=
  if a.value ≠ b.value then b.value < a.value
  else if lower a.txid ≠ lower b.txid then lower a.txid < lower b.txid
  else a.vout ≤ b.vout

/-- The candidates in the order the selection tries them. -/
def filterAndOrderUtxos (request : TxRequest) (utxos : List Utxo) :
    Except BuildError (List Utxo) := do
  let utxos := compactUtxos request.unconfirmed utxos []
  ensure (utxos ≠ [] || request.p2shHash.isSome) noUtxos
  return if request.exactInputs then utxos
    else utxos.insertionSort fun a b => candidateLe a b = true

/-! ## What the candidates satisfy -/

theorem quiet_fetchTrackerUtxos (enc : Encoder) (pubkey : Text) :
    Quiet (fetchTrackerUtxos enc pubkey) := by
  refine quiet_bind (quiet_ofExcept (σ := sig) _) fun address => ?_
  refine quiet_bind (quiet_attempt (σ := sig) _) fun fetched => ?_
  cases fetched with
  | error e => trivial
  | ok fetched =>
    dsimp only
    cases classifyTrackerFreshness fetched.sync enc.maxUtxoTrackerLagBlocks with
    | some refusal => trivial
    | none => exact quiet_ofExcept (σ := sig) _

theorem quiet_gatherUtxos (enc : Encoder) (request : TxRequest) :
    Quiet (gatherUtxos enc request) := by
  unfold gatherUtxos
  split_ifs
  · trivial
  · trivial
  · exact quiet_bind (quiet_fetchTrackerUtxos enc _) fun _ => trivial

theorem nodup_compactUtxos (unconfirmed : Bool) (utxos : List Utxo) (seen : List Outpoint) :
    ((compactUtxos unconfirmed utxos seen).map outpointKey).Nodup ∧
      (∀ u ∈ compactUtxos unconfirmed utxos seen, u ∈ utxos ∧ outpointKey u ∉ seen) := by
  induction utxos generalizing seen with
  | nil => simp [compactUtxos]
  | cons u us ih =>
    simp only [compactUtxos]
    split_ifs with h1 h2
    · exact ⟨(ih seen).1, fun v hv => ⟨List.mem_cons_of_mem u ((ih seen).2 v hv).1,
        ((ih seen).2 v hv).2⟩⟩
    · exact ⟨(ih seen).1, fun v hv => ⟨List.mem_cons_of_mem u ((ih seen).2 v hv).1,
        ((ih seen).2 v hv).2⟩⟩
    · obtain ⟨hnd, hmem⟩ := ih (outpointKey u :: seen)
      refine ⟨?_, fun v hv => ?_⟩
      · rw [List.map_cons, List.nodup_cons]
        refine ⟨fun hin => ?_, hnd⟩
        obtain ⟨v, hv, hvu⟩ := List.mem_map.mp hin
        exact (hmem v hv).2 (hvu ▸ List.mem_cons_self)
      · rcases List.mem_cons.mp hv with rfl | hv
        · exact ⟨List.mem_cons_self, h2⟩
        · exact ⟨List.mem_cons_of_mem u (hmem v hv).1,
            fun hs => (hmem v hv).2 (List.mem_cons_of_mem _ hs)⟩

/-- **Candidates are distinct outpoints of the gathered set.** -/
theorem mem_filterAndOrderUtxos {request : TxRequest} {utxos candidates : List Utxo}
    (h : filterAndOrderUtxos request utxos = .ok candidates) :
    (candidates.map outpointKey).Nodup ∧ (∀ u ∈ candidates, u ∈ utxos) ∧
      (request.p2shHash = none → candidates ≠ []) := by
  simp only [filterAndOrderUtxos, bind_eq_ok, ensure_eq_ok, Bool.or_eq_true,
    decide_eq_true_eq] at h
  obtain ⟨_, hne, hc⟩ := h
  obtain ⟨hnd, hmem⟩ := nodup_compactUtxos request.unconfirmed utxos []
  cases hc
  have hperm : ∀ l : List Utxo,
      List.Perm (if request.exactInputs then l
        else l.insertionSort fun a b => candidateLe a b = true) l := fun l => by
    split_ifs
    · exact List.Perm.refl l
    · exact List.perm_insertionSort _ l
  refine ⟨((hperm _).map outpointKey).nodup_iff.mpr hnd,
    fun u hu => (hmem u ((hperm _).mem_iff.mp hu)).1, fun hp he => ?_⟩
  rcases hne with hne | hne
  · exact hne (List.Perm.eq_nil (he ▸ (hperm _).symm))
  · rw [hp] at hne
    cases hne

end XChain
