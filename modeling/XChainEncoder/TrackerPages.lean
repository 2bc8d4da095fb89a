import XChainEncoder.Candidates

/-!
# Paginated tracker reads

One address's outputs as the tracker pages them, merged into one set or refused.

* `PageSync`, `PageRow`, `Page`, `PageReply`: what one `get_utxos` page answers;
* `snapshotDivergence`, `appendPageUtxos`, `mergeUtxoPage`, `fetchAllUtxoPages`;
* `Fetched`: the pages that were read, next to what the fetch returns or throws;
* `merged_fetchUtxoPages`: **a fetch that returns has merged every page it read, in order**.
-/

namespace XChain

open PushScript

def utxoPageLimit : ℕ := 10000
def maxUtxoPages : ℕ := 1000

/-! ## What a page answers -/

/-- The `sync` sibling of a page; a field of the wrong type is `none`. -/
structure PageSync extends SyncStatus where
  trackerHeight : Option ℚ
  reorgCount : Option ℚ
  mempoolEpoch : Option ℚ
  committedHash : Option Text
  deriving DecidableEq

/-- One row as received: `none` is a field that is absent or of the wrong type, and
`some none` a number of confirmations that is not one. -/
structure PageRow where
  isObject : Bool
  txid : Option Text
  vout : RowField
  value : RowField
  scriptPubKey : Option Text
  confirmations : Option (Option ℚ)
  deriving DecidableEq

/-- A page: its rows, its `sync` sibling, and the cursor of the next page. -/
structure Page (κ : Type) where
  rows : List PageRow
  sync : Option PageSync
  nextCursor : Option κ
  deriving DecidableEq

/-- The error a tracker sent, by its sanitized code and message. -/
structure TrackerRpcError where
  code : Option String
  message : Option String
  deriving DecidableEq

/-- One awaited reply. -/
inductive PageReply (κ : Type) where
  | rejected (e : BuildError)
  | rpcError (e : TrackerRpcError)
  | noUtxosArray
  | empty
  | result (page : Page κ)
  deriving DecidableEq

/-- What a page is asked for. -/
structure PageRequest (κ : Type) where
  limit : ℕ
  cursor : Option κ
  deriving DecidableEq

/-- A tracker: its answer to each request, which may change from one to the next. -/
abbrev PagedTracker (κ : Type) : Type := ℕ → PageRequest κ → PageReply κ

variable {κ : Type}

/-- Unwrap one page, or throw the error the tracker sent in its place. -/
def readUtxoResult (reply : PageReply κ) : Except BuildError (Page κ) :=
  match reply with
  | .rejected e => .error e
  | .rpcError e => .error (PlainError ("Error getting utxos: " ++
      (match e.code with
        | some code => s!"[{code}] "
        | none => "") ++ e.message.getD "unknown error"))
  | .noUtxosArray => .error (PlainError "UTXO tracker result missing utxos array")
  | .empty => .error (PlainError "Error getting utxos: empty result")
  | .result page => .ok page

theorem readUtxoResult_eq_ok {reply : PageReply κ} {result : Page κ}
    (h : readUtxoResult reply = .ok result) : reply = .result result := by
  cases reply with
  | result page =>
    cases h
    rfl
  | _ => cases h

/-! ## One snapshot -/

/-- Both fields are there and they differ. -/
def moved {α : Type} [DecidableEq α] (first later : Option α) : Bool :=
  match first, later with
  | some a, some b => a ≠ b
  | _, _ => false

/-- Why two pages of one fetch do not describe the same chain state. -/
def snapshotDivergence (first later : Option PageSync) : Option String :=
  match first, later with
  | some first, some later =>
    if later.halted then
      some ("the tracker halted mid-fetch (" ++ later.haltReason.getD "unrecoverable reorg" ++ ")")
    else if later.synced = some false then
      some "the tracker stopped reporting synced mid-fetch"
    else if later.lag.any (fun lag => lag < 0) then
      some s!"the tracker went {-(later.lag.getD 0)} blocks ahead of the node mid-fetch"
    else if moved first.trackerHeight later.trackerHeight then
      some (s!"the tracker moved from height {first.trackerHeight.getD 0} to " ++
        s!"{later.trackerHeight.getD 0} mid-fetch")
    else if moved first.reorgCount later.reorgCount then
      some (s!"the tracker recorded a reorg mid-fetch (reorg_count {first.reorgCount.getD 0} to " ++
        s!"{later.reorgCount.getD 0})")
    else if moved first.mempoolEpoch later.mempoolEpoch then
      some (s!"the tracker mempool changed mid-fetch (mempool_epoch " ++
        s!"{first.mempoolEpoch.getD 0} to {later.mempoolEpoch.getD 0})")
    else if moved first.committedHash later.committedHash then
      some "the tracker switched to a different chain tip mid-fetch"
    else none
  | _, _ => none

/-- Pages that were read at different chain states are not merged. -/
def assertSameSnapshot (firstPageSync pageSync : Option PageSync) (address : Text) :
    Except BuildError Unit :=
  match snapshotDivergence firstPageSync pageSync with
  | some divergence => .error (PlainError
      (s!"utxo-tracker chain state changed while paginating utxos for {String.ofList address}: " ++
        s!"{divergence}; refusing to merge pages read at different chain states (retry the request)"))
  | none => .ok ()

/-- What a page after the first has in common with the first one. -/
structure SameSnapshot (first later : PageSync) : Prop where
  halted : later.halted = false
  synced : later.synced ≠ some false
  lag : ∀ lag ∈ later.lag, 0 ≤ lag
  trackerHeight : moved first.trackerHeight later.trackerHeight = false
  reorgCount : moved first.reorgCount later.reorgCount = false
  mempoolEpoch : moved first.mempoolEpoch later.mempoolEpoch = false
  committedHash : moved first.committedHash later.committedHash = false

theorem snapshotDivergence_eq_none {first later : PageSync} :
    snapshotDivergence (some first) (some later) = none ↔ SameSnapshot first later := by
  unfold snapshotDivergence
  dsimp only
  have hlag : later.lag.any (fun lag => lag < 0) = false ↔ ∀ lag ∈ later.lag, 0 ≤ lag := by
    cases later.lag <;> simp
  constructor
  · intro h
    split_ifs at h with h1 h2 h3 h4 h5 h6 h7
    exact ⟨by simpa using h1, h2, hlag.mp (by simpa using h3), by simpa using h4, by simpa using h5,
      by simpa using h6, by simpa using h7⟩
  · rintro ⟨h1, h2, h3, h4, h5, h6, h7⟩
    simp [h1, h2, hlag.mpr h3, h4, h5, h6, h7]

/-! ## Rows -/

/-- A set past the cap is refused whole. -/
def utxoSetTooLarge (cap : ℕ) : BuildError :=
  OperationalError "UTXO_SET_TOO_LARGE" (s!"Address holds more than {cap} UTXOs; refusing to " ++
    "return a partial set (UTXO_SET_TOO_LARGE). Consolidate the address or build with a " ++
    "caller-supplied utxos set")

def assertWithinUtxoCap (count cap : ℕ) : Except BuildError Unit :=
  ensure (count ≤ cap) (utxoSetTooLarge cap)

/-- The row as the build reads it. -/
def PageRow.row (u : PageRow) : TrackerRow where
  txid := u.txid.getD []
  vout := u.vout
  value := u.value
  scriptPubKey := u.scriptPubKey.getD []
  confirmations := ((u.confirmations.bind id).getD 0).num.toNat

/-- Check one row. -/
def checkRow (u : PageRow) (globalIdx : ℕ) : Except BuildError TrackerRow := do
  ensure (u.isObject && u.txid.isSome && u.vout ≠ .undefined && u.value ≠ .undefined)
    (PlainError s!"UTXO tracker returned malformed utxo at index {globalIdx}")
  ensure (isTxid (u.txid.getD [])) (PlainError (s!"UTXO tracker returned malformed utxo at index " ++
    s!"{globalIdx}: txid must be a 64-character hex string"))
  ensure (u.scriptPubKey.getD [] ≠ []) (PlainError (s!"UTXO tracker returned malformed utxo at " ++
    s!"index {globalIdx}: scriptPubKey must be a non-empty string"))
  match u.confirmations with
  | none => return u.row
  | some confirmations => do
    ensure (confirmations.any fun n => n.den = 1 && 0 ≤ n) (PlainError
      (s!"UTXO tracker returned malformed utxo at index {globalIdx}: confirmations must be a " ++
        "non-negative integer"))
    return u.row

/-- Check one page's rows and append them to the running set. -/
def appendPageUtxos : List PageRow → List TrackerRow → Except BuildError (List TrackerRow)
  | [], allUtxos => .ok allUtxos
  | u :: us, allUtxos => do
    let row ← checkRow u allUtxos.length
    appendPageUtxos us (allUtxos ++ [row])

/-- The row passes the checks. -/
def PageRow.WellFormed (u : PageRow) : Prop := ∀ i, checkRow u i = .ok u.row

theorem checkRow_eq_ok {u : PageRow} {i : ℕ} {row : TrackerRow} (h : checkRow u i = .ok row) :
    row = u.row := by
  simp only [checkRow, bind_eq_ok] at h
  obtain ⟨_, -, _, -, _, -, h⟩ := h
  cases hc : u.confirmations with
  | none =>
    rw [hc] at h
    cases h
    rfl
  | some c =>
    rw [hc] at h
    obtain ⟨_, -, h⟩ := bind_eq_ok.mp h
    cases h
    rfl

theorem appendPageUtxos_eq_ok {us : List PageRow} {all all' : List TrackerRow}
    (h : appendPageUtxos us all = .ok all') : all' = all ++ us.map PageRow.row := by
  induction us generalizing all with
  | nil =>
    cases h
    simp
  | cons u us ih =>
    obtain ⟨row, hrow, h⟩ := bind_eq_ok.mp h
    rw [ih h, checkRow_eq_ok hrow]
    simp

theorem appendPageUtxos_wellFormed {us : List PageRow} (h : ∀ u ∈ us, u.WellFormed)
    (all : List TrackerRow) : appendPageUtxos us all = .ok (all ++ us.map PageRow.row) := by
  induction us generalizing all with
  | nil => simp [appendPageUtxos]
  | cons u us ih =>
    rw [appendPageUtxos, h u List.mem_cons_self all.length]
    show appendPageUtxos us (all ++ [u.row]) = _
    rw [ih fun v hv => h v (List.mem_cons_of_mem u hv)]
    simp

/-! ## The fetch -/

/-- The running state of a fetch. -/
structure PageState (κ : Type) where
  cap : ℕ
  cursor : Option κ
  firstPageSync : Option PageSync
  pageCount : ℕ
  seenCursors : List κ
  utxos : List TrackerRow

/-- The state as the loop counts the next page. -/
def PageState.turn (state : PageState κ) : PageState κ :=
  { state with pageCount := state.pageCount + 1 }

@[simp] theorem PageState.turn_pageCount (state : PageState κ) :
    state.turn.pageCount = state.pageCount + 1 := rfl
@[simp] theorem PageState.turn_cap (state : PageState κ) : state.turn.cap = state.cap := rfl
@[simp] theorem PageState.turn_utxos (state : PageState κ) : state.turn.utxos = state.utxos := rfl
@[simp] theorem PageState.turn_firstPageSync (state : PageState κ) :
    state.turn.firstPageSync = state.firstPageSync := rfl

def PageState.start (cap : ℕ) : PageState κ := ⟨cap, none, none, 0, [], []⟩

/-- What a fetch asked and was answered, in order, and what it came to. -/
structure Fetched (κ : Type) where
  exchanges : List (PageRequest κ × PageReply κ)
  outcome : Except BuildError TrackerReply

variable [DecidableEq κ]

/-- A cursor that comes back would not end. -/
def assertFreshCursor (nextCursor : κ) (seenCursors : List κ) (address : Text) :
    Except BuildError (List κ) := do
  ensure (nextCursor ∉ seenCursors) (PlainError (s!"utxo-tracker returned a repeated pagination " ++
    s!"cursor for {String.ofList address}; aborting (stalled or hostile tracker)"))
  return nextCursor :: seenCursors

/-- The `sync` sibling later pages are compared with. -/
def mergedSync (result : Page κ) (state : PageState κ) (address : Text) :
    Except BuildError (Option PageSync) :=
  if state.pageCount = 1 then .ok result.sync else do
    assertSameSnapshot state.firstPageSync result.sync address
    return state.firstPageSync

/-- Merge one page; `true` while there is another one. -/
def mergeUtxoPage (result : Page κ) (state : PageState κ) (address : Text) :
    Except BuildError (Bool × PageState κ) := do
  let firstPageSync ← mergedSync result state address
  assertWithinUtxoCap (state.utxos.length + result.rows.length) state.cap
  let utxos ← appendPageUtxos result.rows state.utxos
  match result.nextCursor with
  | none => return (false, { state with firstPageSync, utxos })
  | some nextCursor => do
    let seenCursors ← assertFreshCursor nextCursor state.seenCursors address
    return (true, { state with firstPageSync, utxos, seenCursors, cursor := some nextCursor })

/-- What the next page is asked for: one row past the cap shows that a set is too large. -/
def PageState.request (state : PageState κ) : PageRequest κ :=
  ⟨min utxoPageLimit (state.cap - state.utxos.length + 1), state.cursor⟩

/-- The loop, with `budget` pages left. -/
def fetchUtxoPages (tracker : PagedTracker κ) (address : Text) : ℕ → PageState κ → Fetched κ
  | 0, _ => ⟨[], .error (PlainError (s!"utxo-tracker returned more than {maxUtxoPages} pages for " ++
      s!"{String.ofList address}; aborting (buggy or hostile tracker)"))⟩
  | budget + 1, state =>
    let reply := tracker (state.pageCount + 1) state.request
    match readUtxoResult reply with
    | .error e => ⟨[(state.request, reply)], .error e⟩
    | .ok result =>
      match mergeUtxoPage result state.turn address with
      | .error e => ⟨[(state.request, reply)], .error e⟩
      | .ok (false, merged) => ⟨[(state.request, reply)],
          .ok ⟨merged.utxos, result.sync.map PageSync.toSyncStatus⟩⟩
      | .ok (true, merged) =>
        let rest := fetchUtxoPages tracker address budget merged
        ⟨(state.request, reply) :: rest.exchanges, rest.outcome⟩

/-- The whole set, page by page. -/
def fetchAllUtxoPages (tracker : PagedTracker κ) (address : Text) (cap : ℕ) : Fetched κ :=
  fetchUtxoPages tracker address maxUtxoPages (.start cap)

/-! ## One page -/

section Merge

variable {tracker : PagedTracker κ} {address : Text} {result : Page κ} {state merged : PageState κ}
  {more : Bool}

/-- What merging a page does to the state. -/
structure MergedPage (result : Page κ) (state : PageState κ) (more : Bool) (merged : PageState κ) :
    Prop where
  cap : merged.cap = state.cap
  pageCount : merged.pageCount = state.pageCount
  utxos : merged.utxos = state.utxos ++ result.rows.map PageRow.row
  length_le : merged.utxos.length ≤ state.cap
  firstPageSync : merged.firstPageSync =
    if state.pageCount = 1 then result.sync else state.firstPageSync
  same : state.pageCount ≠ 1 → snapshotDivergence state.firstPageSync result.sync = none
  more : more = result.nextCursor.isSome
  cursor : result.nextCursor.isSome → merged.cursor = result.nextCursor
  fresh : ∀ c ∈ result.nextCursor, c ∉ state.seenCursors
  seenCursors : merged.seenCursors = result.nextCursor.toList ++ state.seenCursors

omit [DecidableEq κ] in
theorem mergedSync_eq_ok {sync : Option PageSync} :
    mergedSync result state address = .ok sync ↔
      sync = (if state.pageCount = 1 then result.sync else state.firstPageSync) ∧
        (state.pageCount ≠ 1 → snapshotDivergence state.firstPageSync result.sync = none) := by
  unfold mergedSync assertSameSnapshot
  by_cases h : state.pageCount = 1
  · simp [h, eq_comm]
  · simp only [h, if_false, bind_eq_ok, ne_eq, not_false_eq_true, true_imp_iff]
    cases snapshotDivergence state.firstPageSync result.sync with
    | none => simp [pure, Except.pure, eq_comm]
    | some reason => simp

/-- **Merging a page appends its rows.** -/
theorem mergeUtxoPage_eq_ok (h : mergeUtxoPage result state address = .ok (more, merged)) :
    MergedPage result state more merged := by
  obtain ⟨firstPageSync, hsync, h⟩ := bind_eq_ok.mp h
  obtain ⟨rfl, hsame⟩ := mergedSync_eq_ok.mp hsync
  obtain ⟨_, hcap, h⟩ := bind_eq_ok.mp h
  obtain ⟨utxos, hrows, h⟩ := bind_eq_ok.mp h
  have hutxos := appendPageUtxos_eq_ok hrows
  have hle : utxos.length ≤ state.cap := by
    rw [hutxos, List.length_append, List.length_map]
    simpa [assertWithinUtxoCap] using hcap
  cases hc : result.nextCursor with
  | none =>
    rw [hc] at h
    cases h
    exact
      { cap := rfl, pageCount := rfl, utxos := hutxos, length_le := hle, firstPageSync := rfl
        same := hsame, more := by simp [hc], cursor := by simp [hc], fresh := by simp [hc]
        seenCursors := by simp [hc] }
  | some c =>
    rw [hc] at h
    obtain ⟨seen, hfresh, h⟩ := bind_eq_ok.mp h
    obtain ⟨_, hin, hseen⟩ := bind_eq_ok.mp hfresh
    cases hseen
    cases h
    exact
      { cap := rfl, pageCount := rfl, utxos := hutxos, length_le := hle, firstPageSync := rfl
        same := hsame, more := by simp [hc], cursor := by simp [hc]
        fresh := by simpa [hc] using hin
        seenCursors := by simp [hc] }

end Merge

/-! ## A whole fetch -/

/-- The fetch read `pages` from the tracker and merged them into `reply`: each was asked for at the
cursor of the one before, all but the last have a cursor, and no cursor came twice. -/
structure MergedFetch (tracker : PagedTracker κ) (state : PageState κ) (f : Fetched κ)
    (reply : TrackerReply) (pages : List (Page κ)) : Prop where
  replies : f.exchanges.map Prod.snd = pages.map .result
  answered : ∀ i e, f.exchanges[i]? = some e → e.2 = tracker (state.pageCount + 1 + i) e.1
  cursors : f.exchanges.map (fun e => e.1.cursor) =
    state.cursor :: (pages.map Page.nextCursor).dropLast
  more : ∀ c ∈ (pages.map Page.nextCursor).dropLast, c.isSome = true
  last : ∃ page ∈ pages.getLast?, page.nextCursor = none ∧
    reply.sync = page.sync.map PageSync.toSyncStatus
  utxos : reply.utxos = state.utxos ++ (pages.flatMap Page.rows).map PageRow.row
  length_le : reply.utxos.length ≤ state.cap
  nodup : (pages.filterMap Page.nextCursor).Nodup
  fresh : ∀ c ∈ pages.filterMap Page.nextCursor, c ∉ state.seenCursors
  same : ∀ page ∈ (if state.pageCount = 0 then pages.tail else pages),
    snapshotDivergence (if state.pageCount = 0 then pages.head?.bind Page.sync
      else state.firstPageSync) page.sync = none

section Fetch

variable {tracker : PagedTracker κ} {address : Text} {result : Page κ} {state merged : PageState κ}
  {reply : TrackerReply} {pages : List (Page κ)}

theorem length_fetchUtxoPages (budget : ℕ) (state : PageState κ) :
    (fetchUtxoPages tracker address budget state).exchanges.length ≤ budget := by
  induction budget generalizing state with
  | zero => exact le_rfl
  | succ budget ih =>
    simp only [fetchUtxoPages]
    split
    · exact Nat.succ_le_succ (Nat.zero_le budget)
    · split
      · exact Nat.succ_le_succ (Nat.zero_le budget)
      · exact Nat.succ_le_succ (Nat.zero_le budget)
      · exact Nat.succ_le_succ (ih _)

omit [DecidableEq κ] in
theorem MergedFetch.last_page
    (htr : tracker (state.pageCount + 1) state.request = .result result)
    (hone : MergedPage result state.turn false merged) :
    MergedFetch tracker state ⟨[(state.request, .result result)],
      .ok ⟨merged.utxos, result.sync.map PageSync.toSyncStatus⟩⟩
      ⟨merged.utxos, result.sync.map PageSync.toSyncStatus⟩ [result] := by
  have hnone : result.nextCursor = none := by simpa using hone.more.symm
  exact
    { replies := rfl
      answered := by
        rintro i e he
        cases i with
        | zero =>
          cases he
          exact htr.symm
        | succ i => simp at he
      cursors := rfl
      more := by simp
      last := ⟨result, rfl, hnone, rfl⟩
      utxos := by simpa using hone.utxos
      length_le := hone.length_le
      nodup := by simp [hnone]
      fresh := by simp [hnone]
      same := by
        intro page hpage
        by_cases hz : state.pageCount = 0
        · simp [hz] at hpage
        · rw [if_neg hz] at hpage ⊢
          obtain rfl := List.mem_singleton.mp hpage
          exact hone.same (by simpa using hz) }

omit [DecidableEq κ] in
theorem MergedFetch.cons_page {rest : Fetched κ}
    (htr : tracker (state.pageCount + 1) state.request = .result result)
    (hone : MergedPage result state.turn true merged)
    (hp : MergedFetch tracker merged rest reply pages) :
    MergedFetch tracker state ⟨(state.request, .result result) :: rest.exchanges, rest.outcome⟩
      reply (result :: pages) := by
  obtain ⟨c, hc⟩ := Option.isSome_iff_exists.mp hone.more.symm
  have hne : pages ≠ [] := by
    obtain ⟨page, hpage, -⟩ := hp.last
    rintro rfl
    simp at hpage
  have hcount : merged.pageCount = state.pageCount + 1 := hone.pageCount
  have hpos : merged.pageCount ≠ 0 := by omega
  have hseen : merged.seenCursors = c :: state.seenCursors := by
    rw [hone.seenCursors, hc]
    rfl
  have hcursors : ((result :: pages).map Page.nextCursor).dropLast =
      some c :: (pages.map Page.nextCursor).dropLast := by
    rw [List.map_cons, hc, List.dropLast_cons_of_ne_nil (by simpa using hne)]
  exact
    { replies := by simp [hp.replies]
      answered := by
        rintro i e he
        cases i with
        | zero =>
          cases he
          exact htr.symm
        | succ i =>
          rw [hp.answered i e he, hcount, Nat.add_right_comm _ 1 i, Nat.add_assoc _ i 1]
      cursors := by
        rw [hcursors, List.map_cons, hp.cursors, hone.cursor (by simp [hc]), hc]
        rfl
      more := by
        rw [hcursors]
        rintro c' hc'
        rcases List.mem_cons.mp hc' with rfl | hc'
        · rfl
        · exact hp.more c' hc'
      last := by
        obtain ⟨page, hpage, hlast⟩ := hp.last
        exact ⟨page, by rwa [List.getLast?_cons_of_ne_nil hne], hlast⟩
      utxos := by
        rw [hp.utxos, hone.utxos]
        simp
      length_le := hone.cap ▸ hp.length_le
      nodup := by
        rw [List.filterMap_cons_some hc, List.nodup_cons]
        refine ⟨fun hin => hp.fresh c hin ?_, hp.nodup⟩
        rw [hseen]
        exact List.mem_cons_self
      fresh := by
        rw [List.filterMap_cons_some hc]
        rintro c' hc'
        rcases List.mem_cons.mp hc' with rfl | hc'
        · exact hone.fresh c' hc
        · have hfresh := hp.fresh c' hc'
          rw [hseen] at hfresh
          exact fun hin => hfresh (List.mem_cons_of_mem _ hin)
      same := by
        have hsame := hp.same
        rw [if_neg hpos, if_neg hpos, hone.firstPageSync] at hsame
        by_cases hz : state.pageCount = 0
        · simpa [hz] using hsame
        · simp only [PageState.turn_pageCount, Nat.add_eq_right, hz, if_false] at hsame ⊢
          intro page hpage
          rcases List.mem_cons.mp hpage with rfl | hpage
          · exact hone.same (by simpa using hz)
          · exact hsame page hpage }

/-- **A fetch that returns has merged every page it read.** -/
theorem merged_fetchUtxoPages (budget : ℕ) (state : PageState κ)
    (h : (fetchUtxoPages tracker address budget state).outcome = .ok reply) :
    ∃ pages, MergedFetch tracker state (fetchUtxoPages tracker address budget state) reply
      pages := by
  induction budget generalizing state with
  | zero => cases h
  | succ budget ih =>
    simp only [fetchUtxoPages] at h ⊢
    split at h
    · cases h
    · rename_i result hr
      have htr := readUtxoResult_eq_ok hr
      rw [htr]
      split at h
      · cases h
      · rename_i merged hm
        cases h
        exact ⟨[result], .last_page htr (mergeUtxoPage_eq_ok hm)⟩
      · rename_i merged hm
        obtain ⟨pages, hp⟩ := ih merged h
        exact ⟨result :: pages, .cons_page htr (mergeUtxoPage_eq_ok hm) hp⟩

end Fetch

end XChain
