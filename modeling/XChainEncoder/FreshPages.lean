import XChainEncoder.ListFetch

/-!
# Freshness of merged pages

The gate on a merged set reads the record of its last page.

* `acceptsFreshness_iff`: what the gate accepts;
* `MergedFetch.last_sync`, `MergedFetch.sameSnapshot`: what a merged page's record says;
* `fetchAllUtxoPages_fresh`: **the last page passes the gate, and each page after a first one that
  had a record can fail it only by its lag ceiling or its mempool**.
-/

namespace XChain

open PushScript

/-- What the gate accepts. -/
structure AcceptedSync (sync : SyncStatus) (maxLagBlocks : ℚ) : Prop where
  halted : sync.halted = false
  synced : sync.synced ≠ some false
  lag_le : ∀ lag ∈ sync.lag, lag ≤ maxLagBlocks
  lag_nonneg : ∀ lag ∈ sync.lag, 0 ≤ lag
  mempoolReady : sync.mempoolReady ≠ some false

theorem acceptsFreshness_iff {sync : SyncStatus} {maxLagBlocks : ℚ} :
    classifyTrackerFreshness (some sync) maxLagBlocks = none ↔ AcceptedSync sync maxLagBlocks := by
  have hover : sync.lag.any (fun lag => maxLagBlocks < lag) = false ↔
      ∀ lag ∈ sync.lag, lag ≤ maxLagBlocks := by
    cases sync.lag <;> simp
  have hbehind : sync.lag.any (fun lag => lag < 0) = false ↔ ∀ lag ∈ sync.lag, 0 ≤ lag := by
    cases sync.lag <;> simp
  simp only [classifyTrackerFreshness]
  constructor
  · intro h
    split_ifs at h with h1 h2 h3
    simp only [Bool.or_eq_true, decide_eq_true_eq, not_or, Bool.not_eq_true] at h2
    exact ⟨by simpa using h1, h2.1.1, hover.mp h2.1.2, hbehind.mp h2.2, h3⟩
  · rintro ⟨h1, h2, h3, h4, h5⟩
    simp [h1, h2, hover.mpr h3, hbehind.mpr h4, h5]

variable {κ : Type} [DecidableEq κ] {tracker : PagedTracker κ} {cap : ℕ} {f : Fetched κ}
  {reply : TrackerReply} {pages : List (Page κ)}

section Merged

omit [DecidableEq κ]

/-- The record of the merged set is the last page's. -/
theorem MergedFetch.last_sync (h : MergedFetch tracker (.start cap) f reply pages) :
    ∃ page ∈ pages.getLast?, reply.sync = page.sync.map PageSync.toSyncStatus := by
  obtain ⟨page, hpage, -, hsync⟩ := h.last
  exact ⟨page, hpage, hsync⟩

/-- A page after the first is at the first one's chain state when both have a record. -/
theorem MergedFetch.sameSnapshot (h : MergedFetch tracker (.start cap) f reply pages)
    {first later : PageSync} {page : Page κ} (hfirst : pages.head?.bind Page.sync = some first)
    (hpage : page ∈ pages.tail) (hlater : page.sync = some later) : SameSnapshot first later := by
  have hsame := h.same page (by simpa [PageState.start] using hpage)
  rw [if_pos (by rfl), hfirst, hlater] at hsame
  exact snapshotDivergence_eq_none.mp hsame

end Merged

/-- A page at the chain state of another can be refused only by its lag ceiling or its mempool. -/
theorem SameSnapshot.accepts_iff {first later : PageSync} {maxLagBlocks : ℚ}
    (h : SameSnapshot first later) :
    classifyTrackerFreshness (some later.toSyncStatus) maxLagBlocks = none ↔
      (∀ lag ∈ later.lag, lag ≤ maxLagBlocks) ∧ later.mempoolReady ≠ some false := by
  rw [acceptsFreshness_iff]
  exact ⟨fun ha => ⟨ha.lag_le, ha.mempoolReady⟩,
    fun ⟨hlag, hmempool⟩ => ⟨h.halted, h.synced, hlag, h.lag, hmempool⟩⟩

/-- **A merged set the gate accepts.** Its last page passes the gate. When its first page had a
record, each later page that had one is at the same chain state, and passes the gate unless its lag
is over the ceiling or its mempool is not ready. -/
theorem fetchAllUtxoPages_fresh (address : Text) (maxLagBlocks : ℚ)
    (hok : (fetchAllUtxoPages tracker address cap).outcome = .ok reply)
    (hgate : classifyTrackerFreshness reply.sync maxLagBlocks = none) :
    ∃ pages, MergedFetch tracker (.start cap) (fetchAllUtxoPages tracker address cap) reply pages ∧
      (∃ page ∈ pages.getLast?, classifyTrackerFreshness (page.sync.map PageSync.toSyncStatus)
        maxLagBlocks = none) ∧
      ∀ first, pages.head?.bind Page.sync = some first → ∀ page ∈ pages.tail, ∀ later,
        page.sync = some later → SameSnapshot first later ∧
          (classifyTrackerFreshness (some later.toSyncStatus) maxLagBlocks = none ↔
            (∀ lag ∈ later.lag, lag ≤ maxLagBlocks) ∧ later.mempoolReady ≠ some false) := by
  obtain ⟨pages, hmerged⟩ := merged_fetchUtxoPages _ _ hok
  refine ⟨pages, hmerged, ?_, ?_⟩
  · obtain ⟨page, hpage, hsync⟩ := hmerged.last_sync
    rw [hsync] at hgate
    exact ⟨page, hpage, hgate⟩
  · intro first hfirst page hpage later hlater
    have hsame := hmerged.sameSnapshot hfirst hpage hlater
    exact ⟨hsame, hsame.accepts_iff⟩

/-! ## Pages the gate would refuse -/

/-- A lagging tracker that has not reconverged its mempool. -/
def laggingSync : PageSync := { healthySync with lag := some 100, mempoolReady := some false }

/-- Three pages of one row, by the position of the cursor. -/
def threePages : PagedTracker ℕ := fun _ request =>
  match request.cursor with
  | none => .result ⟨[sampleRow 0], some haltedSync, some 1⟩
  | some 1 => .result ⟨[sampleRow 1], some laggingSync, some 2⟩
  | some _ => .result ⟨[sampleRow 2], some healthySync, none⟩

def threeRows : TrackerReply := ⟨[0, 1, 2].map fun n => (sampleRow n).row, some healthySync.toSyncStatus⟩

theorem threePages_fetched : (fetchAllUtxoPages threePages [] 10).outcome = .ok threeRows := by
  decide +kernel

/-- The gate accepts the three rows: the last page passes it, and the two later ones are at the
first one's chain state. -/
theorem fetchAllUtxoPages_fresh_three :
    ∃ pages, MergedFetch threePages (.start 10) (fetchAllUtxoPages threePages [] 10) threeRows pages ∧
      (∃ page ∈ pages.getLast?, classifyTrackerFreshness (page.sync.map PageSync.toSyncStatus) 3 =
        none) ∧
      ∀ first, pages.head?.bind Page.sync = some first → ∀ page ∈ pages.tail, ∀ later,
        page.sync = some later → SameSnapshot first later ∧
          (classifyTrackerFreshness (some later.toSyncStatus) 3 = none ↔
            (∀ lag ∈ later.lag, lag ≤ 3) ∧ later.mempoolReady ≠ some false) :=
  fetchAllUtxoPages_fresh [] 3 threePages_fetched (by decide +kernel)

/-- A merged set passes the gate with two pages that would not: a halted one and a lagging one. -/
theorem refusedPages_merged :
    (fetchAllUtxoPages threePages [] 10).outcome = .ok threeRows ∧
    classifyTrackerFreshness threeRows.sync 3 = none ∧
    (∃ e, classifyTrackerFreshness (some haltedSync.toSyncStatus) 3 = some e ∧
      threePages 1 ⟨11, none⟩ = .result ⟨[sampleRow 0], some haltedSync, some 1⟩) ∧
    ∃ e, classifyTrackerFreshness (some laggingSync.toSyncStatus) 3 = some e ∧
      threePages 2 ⟨10, some 1⟩ = .result ⟨[sampleRow 1], some laggingSync, some 2⟩ := by
  refine ⟨threePages_fetched, by decide +kernel, ⟨_, rfl, rfl⟩, ⟨_, rfl, rfl⟩⟩

end XChain
