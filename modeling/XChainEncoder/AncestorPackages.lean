import XChainEncoder.AncestorEntries

/-!
# Unconfirmed ancestor packages

* `Priced`: where the map of entries stands after some roots; `collectBranches_spec`: what a branch
  adds to it;
* `ancestorPackage_union`: **the package is the sum over the union of the branches**, whatever the
  order of the roots.
-/

namespace XChain

/-! ## Maps of entries -/

variable {spelled : NumberText} {node : MempoolNode} {reading : Text → Option PackageEntry} {m staged : PackageMap}

/-- Each key once, with the entry of its transaction. -/
structure Priced (reading : Text → Option PackageEntry) (m : PackageMap) : Prop where
  nodup : m.keys.Nodup
  entries : ∀ p ∈ m, reading p.1 = some p.2

theorem priced_nil : Priced reading [] where
  nodup := List.nodup_nil
  entries p hp := by cases hp

theorem PackageMap.has_iff {key : Text} : m.has key = true ↔ key ∈ m.keys := by
  simp [PackageMap.has]

theorem Priced.reading_isSome (h : Priced reading m) {key : Text} (hkey : key ∈ m.keys) :
    ∃ entry, reading key = some entry := by
  obtain ⟨p, hp, rfl⟩ := List.mem_map.mp hkey
  exact ⟨p.2, h.entries p hp⟩

theorem PackageMap.keys_set_of_has {key : Text} {entry : PackageEntry} :
    PackageMap.keys (m.map fun p => if p.1 = key then (key, entry) else p) = m.keys := by
  unfold PackageMap.keys
  rw [List.map_map]
  refine List.map_congr_left fun p _ => ?_
  by_cases hp : p.1 = key
  · simp [hp]
  · simp [hp]

theorem PackageMap.mem_keys_set {key k : Text} {entry : PackageEntry} :
    k ∈ (m.set key entry).keys ↔ k = key ∨ k ∈ m.keys := by
  unfold PackageMap.set
  split_ifs with hhas
  · rw [PackageMap.has_iff] at hhas
    rw [PackageMap.keys_set_of_has]
    exact ⟨.inr, fun h => h.elim (fun heq => heq ▸ hhas) id⟩
  · simp [PackageMap.keys, or_comm]

theorem Priced.set (h : Priced reading m) {key : Text} {entry : PackageEntry}
    (hentry : reading key = some entry) : Priced reading (m.set key entry) := by
  unfold PackageMap.set
  split_ifs with hhas
  · refine ⟨?_, fun p hp => ?_⟩
    · rw [PackageMap.keys_set_of_has]
      exact h.nodup
    · obtain ⟨q, hq, rfl⟩ := List.mem_map.mp hp
      by_cases hk : q.1 = key
      · rw [if_pos hk]
        exact hentry
      · rw [if_neg hk]
        exact h.entries q hq
  · rw [PackageMap.has_iff] at hhas
    refine ⟨?_, fun p hp => ?_⟩
    · rw [PackageMap.keys, List.map_append, List.map_singleton, ← List.concat_eq_append]
      exact h.nodup.concat hhas
    · rcases List.mem_append.mp hp with hp | hp
      · exact h.entries p hp
      · rw [List.mem_singleton.mp hp]
        exact hentry

/-! ## One branch -/

theorem recordPackageEntry_spec (hm : Priced reading m) (hstaged : Priced reading staged)
    {txid : Text} {entry : Json} (hread : readEntry spelled entry = reading (lower txid)) :
    (recordPackageEntry spelled m staged txid entry = none ↔ readEntry spelled entry = none) ∧
    ∀ staged', recordPackageEntry spelled m staged txid entry = some staged' →
      Priced reading staged' ∧ ∀ k, k ∈ m.keys ∨ k ∈ staged'.keys ↔
        k = lower txid ∨ k ∈ m.keys ∨ k ∈ staged.keys := by
  unfold recordPackageEntry
  dsimp only
  split_ifs with hhas
  · rw [Bool.or_eq_true, PackageMap.has_iff, PackageMap.has_iff] at hhas
    obtain ⟨known, hknown⟩ := hhas.elim hm.reading_isSome hstaged.reading_isSome
    refine ⟨by simp [hread, hknown], fun staged' h => ?_⟩
    cases h
    exact ⟨hstaged, fun k => ⟨.inr, fun h => h.elim (fun heq => heq ▸ hhas) id⟩⟩
  · rw [readEntry] at hread ⊢
    cases hsize : entrySize spelled entry with
    | none => simp
    | some size =>
      cases hfee : entryFee spelled entry with
      | none => simp
      | some fee =>
        rw [hsize, hfee] at hread
        refine ⟨by simp, fun staged' h => ?_⟩
        cases h
        refine ⟨hstaged.set hread.symm, fun k => ?_⟩
        rw [PackageMap.mem_keys_set]
        tauto

theorem recordAncestors_spec (hm : Priced reading m) {result : List (Text × Json)} :
    ∀ {staged : PackageMap}, Priced reading staged →
    (∀ p ∈ result, readEntry spelled p.2 = reading (lower p.1)) →
    (recordAncestors spelled m result staged = none ↔ ∃ p ∈ result, readEntry spelled p.2 = none) ∧
    ∀ staged', recordAncestors spelled m result staged = some staged' →
      Priced reading staged' ∧ ∀ k, k ∈ m.keys ∨ k ∈ staged'.keys ↔
        (∃ p ∈ result, k = lower p.1) ∨ k ∈ m.keys ∨ k ∈ staged.keys := by
  induction result with
  | nil =>
    intro staged hstaged _
    refine ⟨by simp [recordAncestors], fun staged' h => ?_⟩
    cases h
    exact ⟨hstaged, fun k => by simp⟩
  | cons p rest ih =>
    intro staged hstaged hread
    obtain ⟨hnone, hsome⟩ := recordPackageEntry_spec hm hstaged (hread p List.mem_cons_self)
    rw [recordAncestors]
    cases hrecord : recordPackageEntry spelled m staged p.1 p.2 with
    | none =>
      refine ⟨?_, fun _ h => by cases h⟩
      simp only [Option.bind_none, true_iff]
      exact ⟨p, List.mem_cons_self, hnone.mp hrecord⟩
    | some next =>
      obtain ⟨hnext, hkeys⟩ := hsome next hrecord
      obtain ⟨hrest, hresult⟩ := ih hnext fun q hq => hread q (List.mem_cons_of_mem p hq)
      have hp : readEntry spelled p.2 ≠ none := fun h => by
        rw [hnone.mpr h] at hrecord
        cases hrecord
      rw [Option.bind_some]
      refine ⟨?_, fun staged' h => ⟨(hresult staged' h).1, fun k => ?_⟩⟩
      · rw [hrest, List.exists_mem_cons_iff, or_iff_right hp]
      · rw [(hresult staged' h).2, hkeys, List.exists_mem_cons_iff, or_left_comm, or_assoc]

theorem mergeStaged_spec : ∀ {staged m : PackageMap}, Priced reading m →
    (∀ p ∈ staged, reading p.1 = some p.2) → Priced reading (mergeStaged m staged) ∧
      ∀ k, k ∈ (mergeStaged m staged).keys ↔ k ∈ m.keys ∨ k ∈ staged.keys
  | [], m, hm, _ => ⟨hm, fun k => by simp [mergeStaged, PackageMap.keys]⟩
  | p :: staged, m, hm, hstaged => by
    obtain ⟨hmerged, hkeys⟩ := mergeStaged_spec (hm.set (hstaged p List.mem_cons_self))
      fun q hq => hstaged q (List.mem_cons_of_mem p hq)
    refine ⟨hmerged, fun k => ?_⟩
    rw [show mergeStaged m (p :: staged) = mergeStaged (m.set p.1 p.2) staged from rfl, hkeys,
      PackageMap.mem_keys_set]
    simp only [PackageMap.keys, List.map_cons, List.mem_cons]
    tauto

variable {txid : Text} {self : Json} {result : List (Text × Json)}

theorem inBranch_iff (hself : node.getmempoolentry txid = .ok self)
    (hancestors : node.getmempoolancestors txid = .ok (.object result)) {k : Text} :
    InBranch node txid k ↔ k = lower txid ∨ ∃ p ∈ result, k = lower p.1 := by
  constructor
  · rintro ⟨_, _, -, h, hk⟩
    rw [hancestors] at h
    cases h
    exact hk
  · exact fun hk => ⟨self, result, hself, hancestors, hk⟩

theorem unreadable_iff (hself : node.getmempoolentry txid = .ok self)
    (hread : readEntry spelled self ≠ none)
    (hancestors : node.getmempoolancestors txid = .ok (.object result)) :
    Unreadable spelled node txid ↔ ∃ p ∈ result, readEntry spelled p.2 = none := by
  constructor
  · intro h
    cases h with
    | entryFailed h =>
      rw [hself] at h
      cases h
    | entry other h hother =>
      rw [hself] at h
      cases h
      exact absurd hother hread
    | ancestorsFailed _ _ h =>
      rw [hancestors] at h
      cases h
    | notVerbose _ _ _ h hshape =>
      rw [hancestors] at h
      cases h
      exact absurd rfl (hshape result)
    | ancestor _ _ _ h p hp hpread =>
      rw [hancestors] at h
      cases h
      exact ⟨p, hp, hpread⟩
  · rintro ⟨p, hp, hpread⟩
    exact .ancestor self result hself hancestors p hp hpread

/-- A root that is confirmed, or becomes so between the calls, has no unreadable branch and no
branch at all. -/
theorem confirmed_root (h : node.getmempoolentry txid = .absent ∨
      ∃ self, node.getmempoolentry txid = .ok self ∧ readEntry spelled self ≠ none ∧
        node.getmempoolancestors txid = .absent) :
    ¬ Unreadable spelled node txid ∧ ∀ k, ¬ InBranch node txid k := by
  rcases h with hself | ⟨self, hself, hread, hancestors⟩
  · constructor
    · intro h
      cases h with
      | entryFailed h | entry _ h _ | ancestorsFailed _ h _ | notVerbose _ _ h _ _
        | ancestor _ _ h _ _ _ _ =>
        rw [hself] at h
        cases h
    · rintro k ⟨_, _, h, -⟩
      rw [hself] at h
      cases h
  · constructor
    · intro h
      cases h with
      | entryFailed h =>
        rw [hself] at h
        cases h
      | entry other h hother =>
        rw [hself] at h
        cases h
        exact hread hother
      | ancestorsFailed _ _ h | notVerbose _ _ _ h _ | ancestor _ _ _ h _ _ _ =>
        rw [hancestors] at h
        cases h
    · rintro k ⟨_, _, -, h, -⟩
      rw [hancestors] at h
      cases h

/-- **A branch adds itself to the package, nothing of it when its root is confirmed; only an
unreadable branch fails.** -/
theorem collectAncestorBranch_spec (hnode : Consistent spelled node reading) (hm : Priced reading m) :
    (collectAncestorBranch spelled node m txid = none ↔ Unreadable spelled node txid) ∧
    ∀ m', collectAncestorBranch spelled node m txid = some m' →
      Priced reading m' ∧ ∀ k, k ∈ m'.keys ↔ k ∈ m.keys ∨ InBranch node txid k := by
  -- A confirmed root leaves the package as it is.
  have hconfirmed : (¬ Unreadable spelled node txid ∧ ∀ k, ¬ InBranch node txid k) →
      (some m = none ↔ Unreadable spelled node txid) ∧ ∀ m', some m = some m' →
        Priced reading m' ∧ ∀ k, k ∈ m'.keys ↔ k ∈ m.keys ∨ InBranch node txid k :=
    fun h => ⟨iff_of_false (by simp) h.1, fun m' hm' => by
      cases hm'
      exact ⟨hm, fun k => (or_iff_left (h.2 k)).symm⟩⟩
  unfold collectAncestorBranch
  cases hself : node.getmempoolentry txid with
  | failed => exact ⟨iff_of_true rfl (.entryFailed hself), fun _ h => by cases h⟩
  | absent => exact hconfirmed (confirmed_root (.inl hself))
  | ok self =>
    obtain ⟨hnone, hsome⟩ := recordPackageEntry_spec hm priced_nil (hnode.entry txid self hself)
    dsimp only
    cases hrecord : recordPackageEntry spelled m [] txid self with
    | none =>
      exact ⟨iff_of_true rfl (.entry self hself (hnone.mp hrecord)), fun _ h => by cases h⟩
    | some staged =>
      obtain ⟨hstaged, hroot⟩ := hsome staged hrecord
      have hread : readEntry spelled self ≠ none := fun h => by
        rw [hnone.mpr h] at hrecord
        cases hrecord
      dsimp only [Option.bind_some]
      cases hancestors : node.getmempoolancestors txid with
      | failed =>
        exact ⟨iff_of_true rfl (.ancestorsFailed self hself hancestors), fun _ h => by cases h⟩
      | absent => exact hconfirmed (confirmed_root (.inr ⟨self, hself, hread, hancestors⟩))
      | ok result =>
        cases result with
        | null | bool _ | number _ | string _ | array _ =>
          exact ⟨iff_of_true rfl (.notVerbose self _ hself hancestors (by simp)), fun _ h => by cases h⟩
        | object result =>
          obtain ⟨hunread, hrecorded⟩ :=
            recordAncestors_spec hm hstaged (hnode.ancestors txid result hancestors)
          refine ⟨?_, fun m' h => ?_⟩
          · rw [unreadable_iff hself hread hancestors, ← hunread]
            exact Option.map_eq_none_iff
          · obtain ⟨staged', hstaged', rfl⟩ := Option.map_eq_some_iff.mp h
            obtain ⟨hpriced, hlisted⟩ := hrecorded staged' hstaged'
            obtain ⟨hmerged, hkeys⟩ := mergeStaged_spec hm hpriced.entries
            refine ⟨hmerged, fun k => ?_⟩
            have hnil : k ∉ PackageMap.keys [] := List.not_mem_nil
            rw [hkeys, hlisted, hroot k, inBranch_iff hself hancestors, or_iff_left hnil]
            generalize (∃ p ∈ result, k = lower p.1) = listed
            tauto

/-! ## All roots -/

theorem collectBranches_spec (hnode : Consistent spelled node reading) {roots : List Text} :
    ∀ {m : PackageMap}, Priced reading m →
    (collectBranches spelled node roots m = none ↔ ∃ t ∈ roots, Unreadable spelled node t) ∧
    ∀ m', collectBranches spelled node roots m = some m' →
      Priced reading m' ∧ ∀ k, k ∈ m'.keys ↔ k ∈ m.keys ∨ ∃ t ∈ roots, InBranch node t k := by
  induction roots with
  | nil =>
    intro m hm
    refine ⟨by simp [collectBranches], fun m' h => ?_⟩
    cases h
    exact ⟨hm, fun k => by simp⟩
  | cons t roots ih =>
    intro m hm
    obtain ⟨hnone, hsome⟩ := collectAncestorBranch_spec hnode hm
    rw [collectBranches]
    cases hbranch : collectAncestorBranch spelled node m t with
    | none => exact ⟨iff_of_true rfl ⟨t, List.mem_cons_self, hnone.mp hbranch⟩, fun _ h => by cases h⟩
    | some next =>
      obtain ⟨hnext, hkeys⟩ := hsome next hbranch
      obtain ⟨hrest, hresult⟩ := ih hnext
      have ht : ¬ Unreadable spelled node t := fun h => by
        rw [hnone.mpr h] at hbranch
        cases hbranch
      rw [Option.bind_some]
      refine ⟨?_, fun m' h => ⟨(hresult m' h).1, fun k => ?_⟩⟩
      · rw [hrest, List.exists_mem_cons_iff, or_iff_right ht]
      · rw [(hresult m' h).2, hkeys, List.exists_mem_cons_iff, or_assoc]

/-- Dropping repeated and empty txids keeps every other one up to letter case. -/
theorem mem_uniqueTxids {txids : List Text} {key : Text} (hkey : key ≠ []) :
    ∀ {seen : List Text}, key ∈ (uniqueTxids txids seen).map lower ↔
      key ∈ txids.map lower ∧ key ∉ seen := by
  induction txids with
  | nil => simp [uniqueTxids]
  | cons t txids ih =>
    intro seen
    rw [uniqueTxids, List.map_cons, List.mem_cons]
    split_ifs with hempty hseen
    · have hne : key ≠ lower t := fun h => hkey (by rw [h, hempty]; rfl)
      rw [ih, or_iff_right hne]
    · rw [ih]
      have hne : key ∉ seen → key ≠ lower t := fun h heq => h (heq ▸ hseen)
      tauto
    · rw [List.map_cons, List.mem_cons, ih, List.mem_cons]
      rcases eq_or_ne key (lower t) with rfl | hne
      · simp [hseen]
      · simp [hne]

theorem ne_nil_of_mem_uniqueTxids {txids : List Text} {t : Text} :
    ∀ {seen : List Text}, t ∈ uniqueTxids txids seen → t ≠ [] ∧ t ∈ txids := by
  induction txids with
  | nil => simp [uniqueTxids]
  | cons t' txids ih =>
    intro seen ht
    rw [uniqueTxids] at ht
    split_ifs at ht with hempty hseen
    · exact ⟨(ih ht).1, List.mem_cons_of_mem _ (ih ht).2⟩
    · exact ⟨(ih ht).1, List.mem_cons_of_mem _ (ih ht).2⟩
    · rcases List.mem_cons.mp ht with rfl | ht
      · exact ⟨hempty, List.mem_cons_self⟩
      · exact ⟨(ih ht).1, List.mem_cons_of_mem _ (ih ht).2⟩

theorem exists_uniqueTxids {P : Text → Prop} (hP : ∀ t t', lower t = lower t' → P t → P t')
    {txids : List Text} :
    (∃ t ∈ uniqueTxids txids [], P t) ↔ ∃ t ∈ txids, t ≠ [] ∧ P t := by
  constructor
  · rintro ⟨t, ht, h⟩
    obtain ⟨hne, hmem⟩ := ne_nil_of_mem_uniqueTxids ht
    exact ⟨t, hmem, hne, h⟩
  · rintro ⟨t, ht, hne, h⟩
    have hkey : lower t ≠ [] := fun h => hne (List.map_eq_nil_iff.mp h)
    obtain ⟨t', ht', heq⟩ := List.mem_map.mp ((mem_uniqueTxids hkey).mpr
      ⟨List.mem_map_of_mem ht, List.not_mem_nil⟩)
    exact ⟨t', ht', hP t t' heq.symm h⟩

theorem Consistent.unreadable_congr (hnode : Consistent spelled node reading) {t t' : Text}
    (h : lower t = lower t') (ht : Unreadable spelled node t) : Unreadable spelled node t' := by
  obtain ⟨hentry, hancestors⟩ := hnode.letterCase t t' h
  cases ht with
  | entryFailed h => exact .entryFailed (hentry ▸ h)
  | entry self h hread => exact .entry self (hentry ▸ h) hread
  | ancestorsFailed self h hfailed => exact .ancestorsFailed self (hentry ▸ h) (hancestors ▸ hfailed)
  | notVerbose self result h hresult hshape =>
    exact .notVerbose self result (hentry ▸ h) (hancestors ▸ hresult) hshape
  | ancestor self result h hresult p hp hread =>
    exact .ancestor self result (hentry ▸ h) (hancestors ▸ hresult) p hp hread

theorem Consistent.inBranch_congr (hnode : Consistent spelled node reading) {t t' key : Text}
    (h : lower t = lower t') (ht : InBranch node t key) : InBranch node t' key := by
  obtain ⟨hentry, hancestors⟩ := hnode.letterCase t t' h
  obtain ⟨self, result, hself, hresult, hkey⟩ := ht
  exact ⟨self, result, hentry ▸ hself, hancestors ▸ hresult, h ▸ hkey⟩

theorem Priced.sum_eq (h : Priced reading m) (f : PackageEntry → ℚ) :
    (m.map fun p => f p.2).sum = ∑ key ∈ m.keys.toFinset, ((reading key).map f).getD 0 := by
  rw [List.sum_toFinset _ h.nodup, PackageMap.keys, List.map_map]
  refine congrArg List.sum (List.map_congr_left fun p hp => ?_)
  rw [Function.comp_apply, h.entries p hp]
  rfl

/-- The keys of the package: every root unconfirmed at both its calls, and what it listed. -/
def InPackage (node : MempoolNode) (txids : List Text) (key : Text) : Prop :=
  ∃ txid ∈ txids, txid ≠ [] ∧ InBranch node txid key

theorem getUnconfirmedAncestorPackage_eq (txids : List Text) :
    getUnconfirmedAncestorPackage spelled node txids =
      (collectBranches spelled node (uniqueTxids txids []) []).map sumPackageEntries := by
  unfold getUnconfirmedAncestorPackage
  dsimp only
  split_ifs with hempty
  · rw [hempty]
    rfl
  · rfl

theorem ancestorPackage_eq_none (hnode : Consistent spelled node reading) (txids : List Text) :
    getUnconfirmedAncestorPackage spelled node txids = none ↔
      ∃ txid ∈ txids, txid ≠ [] ∧ Unreadable spelled node txid := by
  rw [getUnconfirmedAncestorPackage_eq, Option.map_eq_none_iff,
    (collectBranches_spec hnode priced_nil).1,
    exists_uniqueTxids fun _ _ => hnode.unreadable_congr]

theorem ancestorPackage_eq_some (hnode : Consistent spelled node reading) {txids : List Text}
    {package : AncestorPackage}
    (h : getUnconfirmedAncestorPackage spelled node txids = some package) :
    ∃ counted : Finset Text, (∀ key, key ∈ counted ↔ InPackage node txids key) ∧
      package.size = ∑ key ∈ counted, ((reading key).map PackageEntry.size).getD 0 ∧
      package.fees = ∑ key ∈ counted, ((reading key).map PackageEntry.fee).getD 0 := by
  rw [getUnconfirmedAncestorPackage_eq] at h
  obtain ⟨entries, hentries, rfl⟩ := Option.map_eq_some_iff.mp h
  obtain ⟨hpriced, hkeys⟩ := (collectBranches_spec hnode priced_nil).2 entries hentries
  refine ⟨entries.keys.toFinset, fun key => ?_, hpriced.sum_eq PackageEntry.size,
    hpriced.sum_eq PackageEntry.fee⟩
  have hnil : key ∉ PackageMap.keys [] := List.not_mem_nil
  rw [List.mem_toFinset, hkeys, or_iff_right hnil,
    exists_uniqueTxids fun _ _ => hnode.inBranch_congr]
  rfl

/-- What holds of one spelling of a root is a property of the set of lowercase txids. -/
theorem exists_congr_lower {P : Text → Prop} (hP : ∀ t t', lower t = lower t' → P t → P t')
    {txids txids' : List Text} (h : ∀ key, key ∈ txids.map lower ↔ key ∈ txids'.map lower) :
    (∃ t ∈ txids, t ≠ [] ∧ P t) ↔ ∃ t ∈ txids', t ≠ [] ∧ P t := by
  have hhalf : ∀ l l' : List Text, (∀ key, key ∈ l.map lower → key ∈ l'.map lower) →
      (∃ t ∈ l, t ≠ [] ∧ P t) → ∃ t ∈ l', t ≠ [] ∧ P t := by
    rintro l l' hll ⟨t, ht, hne, hPt⟩
    obtain ⟨t', ht', heq⟩ := List.mem_map.mp (hll _ (List.mem_map_of_mem ht))
    refine ⟨t', ht', fun hnil => hne ?_, hP t t' heq.symm hPt⟩
    rw [hnil] at heq
    exact List.map_eq_nil_iff.mp heq.symm
  exact ⟨hhalf _ _ fun key => (h key).mp, hhalf _ _ fun key => (h key).mpr⟩

/-- **The package is the sum over the union of the branches of all roots, each transaction once,
whatever the order, repetition and letter case of the roots; one unreadable branch makes it none.** -/
theorem ancestorPackage_union (hnode : Consistent spelled node reading) (txids : List Text) :
    (getUnconfirmedAncestorPackage spelled node txids = none ↔
      ∃ txid ∈ txids, txid ≠ [] ∧ Unreadable spelled node txid) ∧
    (∀ package, getUnconfirmedAncestorPackage spelled node txids = some package →
      ∃ counted : Finset Text, (∀ key, key ∈ counted ↔ InPackage node txids key) ∧
        package.size = ∑ key ∈ counted, ((reading key).map PackageEntry.size).getD 0 ∧
        package.fees = ∑ key ∈ counted, ((reading key).map PackageEntry.fee).getD 0) ∧
    (∀ txid, node.getmempoolentry txid = .absent ∨ node.getmempoolancestors txid = .absent →
      ∀ key, ¬ InBranch node txid key) ∧
    ∀ txids' : List Text, (∀ key, key ∈ txids.map lower ↔ key ∈ txids'.map lower) →
      getUnconfirmedAncestorPackage spelled node txids =
        getUnconfirmedAncestorPackage spelled node txids' := by
  refine ⟨ancestorPackage_eq_none hnode txids, fun _ => ancestorPackage_eq_some hnode,
    fun txid habsent => ?_, fun txids' hsame => ?_⟩
  · rintro key ⟨self, result, hself, hresult, -⟩
    rcases habsent with h | h
    · rw [hself] at h
      cases h
    · rw [hresult] at h
      cases h
  have hunread : (∃ t ∈ txids, t ≠ [] ∧ Unreadable spelled node t) ↔
      ∃ t ∈ txids', t ≠ [] ∧ Unreadable spelled node t :=
    exists_congr_lower (fun _ _ => hnode.unreadable_congr) hsame
  rw [← ancestorPackage_eq_none hnode, ← ancestorPackage_eq_none hnode] at hunread
  cases h : getUnconfirmedAncestorPackage spelled node txids with
  | none => exact (hunread.mp h).symm
  | some package =>
    cases h' : getUnconfirmedAncestorPackage spelled node txids' with
    | none =>
      rw [hunread.mpr h'] at h
      cases h
    | some package' =>
      obtain ⟨counted, hcounted, hsize, hfees⟩ := ancestorPackage_eq_some hnode h
      obtain ⟨counted', hcounted', hsize', hfees'⟩ := ancestorPackage_eq_some hnode h'
      have heq : counted = counted' := Finset.ext fun key => by
        rw [hcounted, hcounted']
        exact exists_congr_lower (fun _ _ => hnode.inBranch_congr) hsame
      subst heq
      cases package
      cases package'
      rw [Option.some.injEq, AncestorPackage.mk.injEq]
      exact ⟨hsize.trans hsize'.symm, hfees.trans hfees'.symm⟩

/-- The parent counts once, in either order of its children. -/
theorem ancestorPackage_union_siblings :
    getUnconfirmedAncestorPackage (fun _ => none) siblingNode siblings =
      some ⟨700, 4 / 100000⟩ ∧
    getUnconfirmedAncestorPackage (fun _ => none) siblingNode siblings =
      getUnconfirmedAncestorPackage (fun _ => none) siblingNode siblings.reverse :=
  ⟨by decide +kernel, (ancestorPackage_union consistent_siblingNode siblings).2.2.2 _ fun key => by
    rw [List.map_reverse, List.mem_reverse]⟩

end XChain
