import XChainEncoder.TrackerPages

/-!
# Fetches from one list

Pagination gives the whole set or an error.

* `ServesList`: a tracker that pages one list by cursor and limit, under one `sync` record;
* `ReadUpTo`: where a fetch from it stands;
* `fetchUtxoPages_whole`: **it never returns part of the list**;
* `PageState.Settles`: a first page that no second one follows;
* `fetchUtxoPages_served`: **it returns the list when that is within the cap, and refuses it when it
  is above**;
* `fetchAllUtxoPages_allOrNothing`: both, with what a fetch from any tracker keeps.
-/

namespace XChain

open PushScript

variable {κ : Type} [DecidableEq κ]

/-! ## A tracker that serves one list -/

/-- The tracker serves `rows` under `sync`: a page is the rows from its cursor's position on, up to
its limit, with a cursor to the next position when rows remain and none when the page is not full.
A page that ends the list exactly may have one or not. -/
structure ServesList (position : κ → ℕ) (rows : List PageRow) (sync : Option PageSync)
    (tracker : PagedTracker κ) : Prop where
  page : ∀ n request, ∃ nextCursor, tracker n request =
      .result ⟨(rows.drop (request.cursor.elim 0 position)).take request.limit, sync, nextCursor⟩ ∧
    (request.cursor.elim 0 position + request.limit < rows.length → nextCursor.isSome) ∧
    (rows.length < request.cursor.elim 0 position + request.limit → nextCursor = none) ∧
    ∀ c ∈ nextCursor, position c = request.cursor.elim 0 position + request.limit

/-- No second page is merged after this one: it has no cursor, or the cap is below a full page. -/
def PageState.Settles (tracker : PagedTracker κ) (state : PageState κ) : Prop :=
  state.pageCount = 0 ∧ (state.cap < utxoPageLimit ∨ ∀ page,
    tracker (state.pageCount + 1) state.request = .result page → page.nextCursor = none)

/-- The state of a fetch that has read the rows up to `p`. -/
structure ReadUpTo (position : κ → ℕ) (rows : List PageRow) (sync : Option PageSync) (p : ℕ)
    (state : PageState κ) : Prop where
  cursor : state.cursor.elim 0 position = p
  utxos : state.utxos = (rows.take p).map PageRow.row
  le_length : p ≤ rows.length
  le_cap : p ≤ state.cap
  seen : ∀ c ∈ state.seenCursors, position c ≤ p
  sync : state.pageCount ≠ 0 → state.firstPageSync = sync

section Serve

variable {position : κ → ℕ} {rows : List PageRow} {sync : Option PageSync} {p : ℕ}
  {tracker : PagedTracker κ} {address : Text} {state merged : PageState κ} {more : Bool}

omit [DecidableEq κ]

theorem readUpTo_start (cap : ℕ) : ReadUpTo position rows sync 0 (.start cap) where
  cursor := rfl
  utxos := rfl
  le_length := Nat.zero_le _
  le_cap := Nat.zero_le _
  seen := by simp [PageState.start]
  sync := fun h => absurd rfl h

theorem ReadUpTo.length (h : ReadUpTo position rows sync p state) : state.utxos.length = p := by
  rw [h.utxos, List.length_map, List.length_take, min_eq_left h.le_length]

theorem ReadUpTo.limit (h : ReadUpTo position rows sync p state) :
    state.request.limit = min utxoPageLimit (state.cap - p + 1) := by
  rw [PageState.request, h.length]

theorem ReadUpTo.limit_pos (h : ReadUpTo position rows sync p state) :
    0 < state.request.limit := by
  rw [h.limit]
  simp [utxoPageLimit]

theorem ReadUpTo.append (h : ReadUpTo position rows sync p state) (n : ℕ) :
    state.utxos ++ ((rows.drop p).take n).map PageRow.row = (rows.take (p + n)).map PageRow.row := by
  rw [h.utxos, ← List.map_append, List.take_add]

/-- **A merged page that has a cursor moves the fetch to its end.** -/
theorem ReadUpTo.next {result : Page κ} (h : ReadUpTo position rows sync p state)
    (hrows : result.rows = (rows.drop p).take state.request.limit) (hsync : result.sync = sync)
    (hle : p + state.request.limit ≤ rows.length)
    (hposition : ∀ c ∈ result.nextCursor, position c = p + state.request.limit)
    (hone : MergedPage result state.turn true merged) :
    ReadUpTo position rows sync (p + state.request.limit) merged := by
  obtain ⟨c, hc⟩ := Option.isSome_iff_exists.mp hone.more.symm
  have hutxos : merged.utxos = (rows.take (p + state.request.limit)).map PageRow.row := by
    rw [hone.utxos, hrows]
    exact h.append _
  have hlength : merged.utxos.length = p + state.request.limit := by
    rw [hutxos, List.length_map, List.length_take, min_eq_left hle]
  exact
    { cursor := by
        rw [hone.cursor (by simp [hc]), hc]
        exact hposition c hc
      utxos := hutxos
      le_length := hle
      le_cap := by
        rw [← hlength, hone.cap]
        exact hone.length_le
      seen := by
        intro c' hc'
        rw [hone.seenCursors, hc] at hc'
        rcases List.mem_cons.mp hc' with rfl | hc'
        · exact (hposition c' hc).le
        · exact (h.seen c' hc').trans (Nat.le_add_right _ _)
      sync := by
        intro _
        rw [hone.firstPageSync]
        split_ifs with hfirst
        · exact hsync
        · exact h.sync (by simpa using hfirst) }

end Serve

section Served

variable {position : κ → ℕ} {rows : List PageRow} {sync : Option PageSync} {p : ℕ}
  {tracker : PagedTracker κ} {address : Text} {state merged : PageState κ} {reply : TrackerReply}

/-- **A fetch from a list never returns part of it.** -/
theorem fetchUtxoPages_whole (hserve : ServesList position rows sync tracker) (budget : ℕ)
    (hread : ReadUpTo position rows sync p state)
    (h : (fetchUtxoPages tracker address budget state).outcome = .ok reply) :
    reply = ⟨rows.map PageRow.row, sync.map PageSync.toSyncStatus⟩ ∧ rows.length ≤ state.cap := by
  induction budget generalizing state p with
  | zero => cases h
  | succ budget ih =>
    obtain ⟨nextCursor, htr, hmore, hend, hposition⟩ :=
      hserve.page (state.pageCount + 1) state.request
    rw [show state.request.cursor.elim 0 position = p from hread.cursor] at htr hmore hend hposition
    simp only [fetchUtxoPages, htr, readUtxoResult] at h
    split at h
    · cases h
    · rename_i merged hm
      have hone := mergeUtxoPage_eq_ok hm
      have hnone : nextCursor = none := by simpa using hone.more.symm
      have hle : rows.length ≤ p + state.request.limit := by
        by_contra hlt
        simpa [hnone] using hmore (by omega)
      have hutxos : merged.utxos = rows.map PageRow.row := by
        rw [hone.utxos]
        refine (hread.append _).trans ?_
        rw [List.take_of_length_le hle]
      cases h
      refine ⟨by rw [hutxos], ?_⟩
      have := hone.length_le
      rwa [hutxos, List.length_map] at this
    · rename_i merged hm
      have hone := mergeUtxoPage_eq_ok hm
      have hsome : nextCursor.isSome = true := hone.more.symm
      have hle : p + state.request.limit ≤ rows.length := by
        by_contra hlt
        rw [hend (by omega)] at hsome
        cases hsome
      have := ih (hread.next rfl rfl hle hposition hone) h
      rwa [hone.cap] at this

omit [DecidableEq κ] in
theorem mergedSync_served {page : Page κ} (hread : ReadUpTo position rows sync p state)
    (hsync : page.sync = sync)
    (hsame : snapshotDivergence sync sync = none ∨ state.pageCount = 0) :
    mergedSync page state.turn address = .ok sync := by
  refine mergedSync_eq_ok.mpr ⟨?_, ?_⟩
  · split_ifs with hfirst
    · exact hsync.symm
    · exact (hread.sync (by simpa using hfirst)).symm
  · intro hfirst
    rw [PageState.turn_firstPageSync, hread.sync (by simpa using hfirst), hsync]
    exact hsame.resolve_right (by simpa using hfirst)

theorem mergeUtxoPage_served {page : Page κ} (hread : ReadUpTo position rows sync p state)
    (hsync : page.sync = sync)
    (hsame : snapshotDivergence sync sync = none ∨ state.pageCount = 0)
    (hwell : ∀ u ∈ page.rows, u.WellFormed) (hcap : p + page.rows.length ≤ state.cap)
    (hfresh : ∀ c ∈ page.nextCursor, p < position c) :
    ∃ merged, mergeUtxoPage page state.turn address = .ok (page.nextCursor.isSome, merged) := by
  have hmerged : mergedSync page state.turn address = .ok sync :=
    mergedSync_served hread hsync hsame
  have hwithin : assertWithinUtxoCap (state.turn.utxos.length + page.rows.length) state.turn.cap =
      .ok () := by
    rw [PageState.turn_utxos, hread.length]
    exact ensure_eq_ok.mpr (decide_eq_true hcap)
  simp only [mergeUtxoPage, hmerged, hwithin, appendPageUtxos_wellFormed hwell, bind, Except.bind]
  cases hc : page.nextCursor with
  | none => exact ⟨_, rfl⟩
  | some c =>
    have hin : c ∉ state.turn.seenCursors := fun hin =>
      absurd (hread.seen c hin) (Nat.not_le.mpr (hfresh c hc))
    have hcursor : assertFreshCursor c state.turn.seenCursors address =
        .ok (c :: state.turn.seenCursors) :=
      bind_eq_ok.mpr ⟨(), ensure_eq_ok.mpr (decide_eq_true hin), rfl⟩
    simp only [hcursor]
    exact ⟨_, rfl⟩

theorem fetchUtxoPages_diverging (hserve : ServesList position rows sync tracker)
    (hself : snapshotDivergence sync sync ≠ none) (budget : ℕ)
    (hread : ReadUpTo position rows sync p state) (hcount : state.pageCount ≠ 0) :
    (fetchUtxoPages tracker address budget state).outcome ≠ .ok reply := by
  intro h
  cases budget with
  | zero => cases h
  | succ budget =>
    obtain ⟨nextCursor, htr, -⟩ := hserve.page (state.pageCount + 1) state.request
    have hrefused : ∀ {more : Bool} {merged : PageState κ} {page : Page κ}, page.sync = sync →
        MergedPage page state.turn more merged → False := fun hsync hone => by
      have hsame := hone.same (by simpa using hcount)
      rw [PageState.turn_firstPageSync, hread.sync hcount, hsync] at hsame
      exact hself hsame
    simp only [fetchUtxoPages, htr, readUtxoResult] at h
    split at h
    · cases h
    · rename_i merged hm
      exact hrefused rfl (mergeUtxoPage_eq_ok hm)
    · rename_i merged hm
      exact hrefused rfl (mergeUtxoPage_eq_ok hm)

/-- Under such a record a list is returned only when its first page is the last one. -/
theorem settles_of_diverging (hserve : ServesList position rows sync tracker)
    (hself : snapshotDivergence sync sync ≠ none) (budget : ℕ)
    (hread : ReadUpTo position rows sync p state) (hfirst : state.pageCount = 0)
    (h : (fetchUtxoPages tracker address budget state).outcome = .ok reply) :
    state.Settles tracker := by
  cases budget with
  | zero => cases h
  | succ budget =>
    obtain ⟨nextCursor, htr, hmore, hend, hposition⟩ :=
      hserve.page (state.pageCount + 1) state.request
    rw [show state.request.cursor.elim 0 position = p from hread.cursor] at htr hmore hend hposition
    refine ⟨hfirst, .inr fun page hpage => ?_⟩
    rw [htr] at hpage
    cases hpage
    by_contra hsome
    have hle : p + state.request.limit ≤ rows.length := by
      by_contra hlt
      exact hsome (hend (by omega))
    simp only [fetchUtxoPages, htr, readUtxoResult] at h
    split at h
    · cases h
    · rename_i merged hm
      have hmore' : false = nextCursor.isSome := (mergeUtxoPage_eq_ok hm).more
      exact hsome (Option.isSome_eq_false_iff.mp hmore'.symm |> Option.isNone_iff_eq_none.mp)
    · rename_i merged hm
      have hone := mergeUtxoPage_eq_ok hm
      have hnext := hread.next rfl rfl hle hposition hone
      refine fetchUtxoPages_diverging hserve hself budget hnext ?_ h
      rw [hone.pageCount, PageState.turn_pageCount]
      omega

omit [DecidableEq κ] in
theorem settles_of_length_lt (hserve : ServesList position rows sync tracker) (cap : ℕ)
    (hlt : rows.length < utxoPageLimit) : (PageState.start cap).Settles tracker := by
  refine ⟨rfl, ?_⟩
  by_cases hcap : cap < utxoPageLimit
  · exact .inl hcap
  · refine .inr fun page hpage => ?_
    obtain ⟨nextCursor, htr, -, hend, -⟩ := hserve.page 1 (PageState.start cap).request
    rw [show (PageState.start cap : PageState κ).pageCount + 1 = 1 from rfl, htr] at hpage
    cases hpage
    refine hend ?_
    have hstart : ReadUpTo position rows sync 0 (.start cap) := readUpTo_start cap
    show rows.length < 0 + _
    rw [hstart.limit]
    show rows.length < 0 + min utxoPageLimit (cap - 0 + 1)
    omega

omit [DecidableEq κ] in
theorem PageState.Settles.length_le {cap : ℕ} (hserve : ServesList position rows sync tracker)
    (h : (PageState.start cap).Settles tracker) :
    cap < utxoPageLimit ∨ rows.length ≤ utxoPageLimit := by
  refine h.2.imp id fun hlast => ?_
  obtain ⟨nextCursor, htr, hmore, -⟩ := hserve.page 1 (PageState.start cap).request
  have hnone := hlast _ htr
  by_contra hlt
  have hlimit : (PageState.start cap : PageState κ).request.limit ≤ utxoPageLimit := min_le_left _ _
  have hsome : nextCursor.isSome = true := hmore (by
    show 0 + (PageState.start cap : PageState κ).request.limit < rows.length
    omega)
  rw [show nextCursor = none from hnone] at hsome
  cases hsome

theorem mergeUtxoPage_tooLarge {page : Page κ} (hread : ReadUpTo position rows sync p state)
    (hsync : page.sync = sync)
    (hsame : snapshotDivergence sync sync = none ∨ state.pageCount = 0)
    (hcap : state.cap < p + page.rows.length) :
    mergeUtxoPage page state.turn address = .error (utxoSetTooLarge state.cap) := by
  have hwithin : assertWithinUtxoCap (state.turn.utxos.length + page.rows.length) state.turn.cap =
      .error (utxoSetTooLarge state.cap) := by
    rw [PageState.turn_utxos, hread.length, PageState.turn_cap, assertWithinUtxoCap, ensure,
      if_neg (by simpa using hcap)]
  have hmerged : mergedSync page state.turn address = .ok sync :=
    mergedSync_served hread hsync hsame
  simp only [mergeUtxoPage, hmerged, hwithin, bind, Except.bind]

/-- **A fetch from a list of well-formed rows returns all of it within the cap, and refuses it
above.** -/
theorem fetchUtxoPages_served (hserve : ServesList position rows sync tracker)
    (hwell : ∀ u ∈ rows, u.WellFormed) (budget : ℕ) (hread : ReadUpTo position rows sync p state)
    (hsame : snapshotDivergence sync sync = none ∨ state.Settles tracker)
    (hbudget : min rows.length state.cap < p + utxoPageLimit * budget) :
    (rows.length ≤ state.cap → (fetchUtxoPages tracker address budget state).outcome =
      .ok ⟨rows.map PageRow.row, sync.map PageSync.toSyncStatus⟩) ∧
    (state.cap < rows.length → (fetchUtxoPages tracker address budget state).outcome =
      .error (utxoSetTooLarge state.cap)) := by
  induction budget generalizing state p with
  | zero =>
    have hp := le_min hread.le_length hread.le_cap
    omega
  | succ budget ih =>
    obtain ⟨nextCursor, htr, hmore, hend, hposition⟩ :=
      hserve.page (state.pageCount + 1) state.request
    rw [show state.request.cursor.elim 0 position = p from hread.cursor] at htr hmore hend hposition
    have hlimit := hread.limit
    have hpos := hread.limit_pos
    have hle := hread.le_cap
    set page : Page κ := ⟨(rows.drop p).take state.request.limit, sync, nextCursor⟩ with hpage
    have hrows : page.rows.length = min state.request.limit (rows.length - p) := by
      rw [hpage, List.length_take, List.length_drop]
    simp only [fetchUtxoPages, htr, readUtxoResult]
    by_cases hcap : p + page.rows.length ≤ state.cap
    · have hin : ∀ u ∈ page.rows, u.WellFormed := fun u hu =>
        hwell u (List.mem_of_mem_drop (List.mem_of_mem_take hu))
      have hfresh : ∀ c ∈ page.nextCursor, p < position c := fun c hc => by
        rw [hposition c hc]
        omega
      obtain ⟨merged, hm⟩ : ∃ merged, mergeUtxoPage page state.turn address =
          .ok (page.nextCursor.isSome, merged) :=
        mergeUtxoPage_served hread rfl (hsame.imp id And.left) hin hcap hfresh
      have hone := mergeUtxoPage_eq_ok hm
      have hmergedCap : merged.cap = state.cap := hone.cap
      simp only [hm]
      cases hc : page.nextCursor with
      | none =>
        have hlast : rows.length ≤ p + state.request.limit := by
          by_contra hlt
          have hsome : page.nextCursor.isSome = true := hmore (by omega)
          rw [hc] at hsome
          cases hsome
        have hutxos : merged.utxos = rows.map PageRow.row := by
          rw [hone.utxos]
          refine (hread.append _).trans ?_
          rw [List.take_of_length_le hlast]
        simp only [Option.isSome_none, hutxos]
        exact ⟨fun _ => rfl, fun h => by omega⟩
      | some c =>
        have hfull : p + state.request.limit ≤ rows.length := by
          by_contra hlt
          have hnone : page.nextCursor = none := hend (by omega)
          rw [hc] at hnone
          cases hnone
        rw [hc] at hone
        have hnext : ReadUpTo position rows sync (p + state.request.limit) merged :=
          hread.next rfl rfl hfull hposition hone
        have hlt : utxoPageLimit < state.cap - p + 1 := by
          by_contra hge
          omega
        -- A page that settles the fetch is not followed by this one.
        have hrecord : snapshotDivergence sync sync = none := by
          refine hsame.resolve_right fun hsettles => ?_
          rcases hsettles.2 with hsmall | hlast
          · omega
          · rw [show page.nextCursor = none from hlast page htr] at hc
            cases hc
        have := ih hnext (.inl hrecord) (by
          rw [hmergedCap, hlimit, min_eq_left hlt.le]
          rw [Nat.mul_succ] at hbudget
          omega)
        rwa [hmergedCap] at this
    · have hm : mergeUtxoPage page state.turn address = .error (utxoSetTooLarge state.cap) :=
        mergeUtxoPage_tooLarge hread rfl (hsame.imp id And.left) (by omega)
      simp only [hm]
      exact ⟨fun h => by omega, fun _ => trivial⟩

end Served

/-- **Pagination is all or nothing.** From any tracker, a fetch makes at most `maxUtxoPages` requests
and returns only what it merged. From a tracker that serves one list it never returns part of it. When
the list is well formed, and its `sync` does not refuse itself or the first page settles the fetch, it
returns the list within the cap and throws `UTXO_SET_TOO_LARGE` above it; otherwise it throws. The
first page settles every list shorter than a page, and under a cap of a page or more no list longer
than one. -/
theorem fetchAllUtxoPages_allOrNothing (tracker : PagedTracker κ) (address : Text) (cap : ℕ) :
    (fetchAllUtxoPages tracker address cap).exchanges.length ≤ maxUtxoPages ∧
    (∀ reply, (fetchAllUtxoPages tracker address cap).outcome = .ok reply → ∃ pages,
      MergedFetch tracker (.start cap) (fetchAllUtxoPages tracker address cap) reply pages) ∧
    ∀ position rows sync, ServesList position rows sync tracker →
      (∀ reply, (fetchAllUtxoPages tracker address cap).outcome = .ok reply →
        reply = ⟨rows.map PageRow.row, sync.map PageSync.toSyncStatus⟩ ∧ rows.length ≤ cap) ∧
      ((∀ u ∈ rows, u.WellFormed) → min rows.length cap < utxoPageLimit * maxUtxoPages →
        snapshotDivergence sync sync = none ∨ (PageState.start cap).Settles tracker →
        (rows.length ≤ cap → (fetchAllUtxoPages tracker address cap).outcome =
          .ok ⟨rows.map PageRow.row, sync.map PageSync.toSyncStatus⟩) ∧
        (cap < rows.length → (fetchAllUtxoPages tracker address cap).outcome =
          .error (utxoSetTooLarge cap))) ∧
      (snapshotDivergence sync sync ≠ none → ¬ (PageState.start cap).Settles tracker →
        ∀ reply, (fetchAllUtxoPages tracker address cap).outcome ≠ .ok reply) ∧
      (rows.length < utxoPageLimit → (PageState.start cap).Settles tracker) ∧
      ((PageState.start cap).Settles tracker →
        cap < utxoPageLimit ∨ rows.length ≤ utxoPageLimit) := by
  refine ⟨length_fetchUtxoPages _ _, fun reply h => merged_fetchUtxoPages _ _ h, ?_⟩
  intro position rows sync hserve
  refine ⟨fun reply h => ?_, fun hwell hbudget hsame => ?_, fun hself hnext reply h => ?_, ?_, ?_⟩
  · exact fetchUtxoPages_whole hserve _ (readUpTo_start cap) h
  · exact fetchUtxoPages_served hserve hwell _ (readUpTo_start cap) hsame (by
      rw [Nat.zero_add]
      exact hbudget)
  · exact hnext (settles_of_diverging hserve hself _ (readUpTo_start cap) rfl h)
  · exact settles_of_length_lt hserve cap
  · exact fun h => h.length_le hserve

/-! ## A tracker whose cursors are positions -/

/-- A tracker over `rows` that gives the next position as its cursor. -/
def listTracker (rows : List PageRow) (sync : Option PageSync) : PagedTracker ℕ := fun _ request =>
  let position := request.cursor.getD 0
  .result ⟨(rows.drop position).take request.limit, sync,
    if position + request.limit < rows.length then some (position + request.limit) else none⟩

theorem servesList_listTracker (rows : List PageRow) (sync : Option PageSync) :
    ServesList id rows sync (listTracker rows sync) where
  page n request := by
    have hposition : request.cursor.elim 0 id = request.cursor.getD 0 := by
      cases request.cursor <;> rfl
    rw [hposition]
    refine ⟨_, rfl, fun h => ?_, fun h => ?_, fun c hc => ?_⟩
    · simp [h]
    · rw [if_neg (by omega)]
    · split_ifs at hc with hlt
      · cases hc
        rfl
      · cases hc

/-- A row as trackers send them. -/
def sampleRow (vout : ℕ) : PageRow where
  isObject := true
  txid := some (List.replicate 64 'a')
  vout := .number vout
  value := .digits 1000
  scriptPubKey := some (List.replicate 4 '0')
  confirmations := some (some 6)

theorem sampleRow_wellFormed (vout : ℕ) : (sampleRow vout).WellFormed := by
  intro i
  have htxid : isTxid (List.replicate 64 'a') = true := by decide +kernel
  simp only [checkRow, sampleRow]
  rw [Option.getD_some, htxid]
  rfl

/-- The record of a tracker that has halted and still answers. -/
def haltedSync : PageSync where
  halted := true
  haltReason := none
  synced := some true
  lag := some 0
  mempoolReady := some true
  trackerHeight := some 800000
  reorgCount := some 0
  mempoolEpoch := some 1
  committedHash := none

/-- The record of a healthy tracker. -/
def healthySync : PageSync := { haltedSync with halted := false }

/-- Rows `0` to `n - 1`. -/
def sampleRows (n : ℕ) : List PageRow := (List.range n).map sampleRow

theorem sampleRows_wellFormed (n : ℕ) : ∀ u ∈ sampleRows n, u.WellFormed := by
  intro u hu
  obtain ⟨vout, -, rfl⟩ := List.mem_map.mp hu
  exact sampleRow_wellFormed vout

theorem length_sampleRows (n : ℕ) : (sampleRows n).length = n := by
  rw [sampleRows, List.length_map, List.length_range]

/-- A healthy tracker's set on two pages is returned under a cap of its length, and refused under a
cap of one row less. A halted one's set of one page is returned. -/
theorem fetchAllUtxoPages_allOrNothing_two :
    (fetchAllUtxoPages (listTracker (sampleRows 10001) (some healthySync)) [] 10001).outcome =
      .ok ⟨(sampleRows 10001).map PageRow.row, some healthySync.toSyncStatus⟩ ∧
    (fetchAllUtxoPages (listTracker (sampleRows 10001) (some healthySync)) [] 10000).outcome =
      .error (utxoSetTooLarge 10000) ∧
    (fetchAllUtxoPages (listTracker (sampleRows 9999) (some haltedSync)) [] 20000).outcome =
      .ok ⟨(sampleRows 9999).map PageRow.row, some haltedSync.toSyncStatus⟩ := by
  have hsame : snapshotDivergence (some healthySync) (some healthySync) = none := by decide
  have hserve := fun n sync => servesList_listTracker (sampleRows n) sync
  refine ⟨?_, ?_, ?_⟩
  · obtain ⟨-, hwhole, -⟩ := (fetchAllUtxoPages_allOrNothing _ [] 10001).2.2 id _ _
      (hserve 10001 (some healthySync))
    exact (hwhole (sampleRows_wellFormed _) (by rw [length_sampleRows]; decide) (.inl hsame)).1
      (length_sampleRows _).le
  · obtain ⟨-, hwhole, -⟩ := (fetchAllUtxoPages_allOrNothing _ [] 10000).2.2 id _ _
      (hserve 10001 (some healthySync))
    exact (hwhole (sampleRows_wellFormed _) (by rw [length_sampleRows]; decide) (.inl hsame)).2
      (by rw [length_sampleRows]; decide)
  · obtain ⟨-, hwhole, -, hshort, -⟩ := (fetchAllUtxoPages_allOrNothing _ [] 20000).2.2 id _ _
      (hserve 9999 (some haltedSync))
    have hsettles := hshort (by rw [length_sampleRows]; decide)
    exact (hwhole (sampleRows_wellFormed _) (by rw [length_sampleRows]; decide) (.inr hsettles)).1
      (by rw [length_sampleRows]; decide)

/-- A halted tracker's set is refused on its second page, within the cap and under one record. -/
theorem haltedTracker_refused :
    ServesList id (sampleRows 10001) (some haltedSync)
      (listTracker (sampleRows 10001) (some haltedSync)) ∧
    (∀ u ∈ sampleRows 10001, u.WellFormed) ∧ (sampleRows 10001).length ≤ 20000 ∧
    ∀ reply, (fetchAllUtxoPages (listTracker (sampleRows 10001) (some haltedSync)) []
      20000).outcome ≠ .ok reply := by
  refine ⟨servesList_listTracker _ _, sampleRows_wellFormed _,
    (length_sampleRows _).le.trans (by decide), fun reply h => ?_⟩
  have hself : snapshotDivergence (some haltedSync) (some haltedSync) ≠ none := by decide
  have hsettles := settles_of_diverging (servesList_listTracker _ _) hself _ (readUpTo_start 20000)
    rfl h
  rcases hsettles.length_le (servesList_listTracker _ _) with hcap | hlength
  · exact absurd hcap (by decide)
  · rw [length_sampleRows] at hlength
    exact absurd hlength (by decide)

end XChain
