import Mathlib.Algebra.Order.Group.Nat
import Mathlib.Data.List.Nodup
import Mathlib.Logic.Function.Basic
import Mathlib.Tactic.Common

/-!
# Leases with expiry stamps

A table gives each key at most one stamp, the time its reservation lapses, and a list of owners
that share the key. Holders keep leases of their own: an exclusive lease owns its key alone, a
shared one names its owner. The two sides never read each other: a holder recognises its own
reservation by the stamp it wrote.

* `Table`, `Lease`, `latest`, `Table.take`, `Table.join`, `Table.drop`, `Table.clear`, `release`;
* `Consistent`: live exclusive leases are stamped, alone on their key and apart from live owners;
  live shared leases are listed, and a key with live owners is stamped with the latest of them;
  every live stamp and owner is backed by a lease;
* `Consistent.pass`, `Consistent.sweep`, `Consistent.take`, `Consistent.join`: **time, sweeping and
  acquiring keep the table consistent**;
* `Consistent.release`, `Consistent.releaseAll`: **so does giving leases back**, whatever else the
  stamps say.
-/

namespace Lease

variable {K ι : Type}

/-- The reservations of all keys: stamps, and shared owners with their expiries. -/
structure Table (K : Type) where
  stamp : K → Option ℕ
  owners : K → List (ℕ × ℕ)

/-- What one holder was given: a key until `expiry`, exclusively or as a named owner. -/
structure Holding (K : Type) where
  key : K
  expiry : ℕ
  owner : Option ℕ
  deriving DecidableEq

/-- The latest expiry among the owners still live at `now`. -/
def latest (ws : List (ℕ × ℕ)) (now : ℕ) : Option ℕ :=
  ((ws.map Prod.snd).filter fun e => now < e).max?

theorem latest_eq_none {ws : List (ℕ × ℕ)} {now : ℕ} :
    latest ws now = none ↔ ∀ w ∈ ws, ¬ now < w.2 := by
  rw [latest, List.max?_eq_none_iff, List.filter_eq_nil_iff]
  simp only [decide_eq_true_eq]
  constructor
  · exact fun h w hw => h _ (List.mem_map_of_mem hw)
  · intro h e he
    obtain ⟨w, hw, rfl⟩ := List.mem_map.mp he
    exact h w hw

theorem latest_eq_some {ws : List (ℕ × ℕ)} {now m : ℕ} :
    latest ws now = some m ↔
      (∃ w ∈ ws, w.2 = m) ∧ now < m ∧ ∀ w ∈ ws, now < w.2 → w.2 ≤ m := by
  rw [latest, List.max?_eq_some_iff]
  simp only [List.mem_filter, List.mem_map, decide_eq_true_eq]
  constructor
  · rintro ⟨⟨⟨w, hw, rfl⟩, hm⟩, hle⟩
    exact ⟨⟨w, hw, rfl⟩, hm, fun w' hw' hl => hle _ ⟨⟨w', hw', rfl⟩, hl⟩⟩
  · rintro ⟨⟨w, hw, rfl⟩, hm, hle⟩
    refine ⟨⟨⟨w, hw, rfl⟩, hm⟩, ?_⟩
    rintro b ⟨⟨w', hw', rfl⟩, hl⟩
    exact hle w' hw' hl

namespace Table

variable [DecidableEq K] (T : Table K)

/-- No reservation of `k` is live at `now`. -/
def Free (k : K) (now : ℕ) : Prop := ∀ e, T.stamp k = some e → e ≤ now

/-- Stamp `k` with `e`. -/
def take (k : K) (e : ℕ) : Table K := { T with stamp := Function.update T.stamp k (some e) }

/-- Stamp `k` with `e` and list a new owner. -/
def join (k : K) (o e : ℕ) : Table K :=
  { stamp := Function.update T.stamp k (some e)
    owners := Function.update T.owners k (T.owners k ++ [(o, e)]) }

/-- The owners of `k` without `o`. -/
def rest (k : K) (o : ℕ) : List (ℕ × ℕ) := (T.owners k).filter fun w => w.1 ≠ o

/-- Unlist an owner: the key is then worth the latest of the others, or has no owner left. -/
def drop (k : K) (o now : ℕ) : Bool × Table K :=
  match latest (T.rest k o) now with
  | none => (false, { T with owners := Function.update T.owners k [] })
  | some m => (true,
    { stamp := Function.update T.stamp k (some m)
      owners := Function.update T.owners k (T.rest k o) })

/-- Remove the stamp of `k` if it is still `e`. -/
def clear (k : K) (e : ℕ) : Table K :=
  if T.stamp k = some e then { T with stamp := Function.update T.stamp k none } else T

@[simp] theorem clear_owners (k : K) (e : ℕ) : (T.clear k e).owners = T.owners := by
  unfold clear
  split_ifs <;> rfl

theorem clear_stamp {k k' : K} {e e' : ℕ} :
    (T.clear k e).stamp k' = some e' ↔ T.stamp k' = some e' ∧ ¬ (k' = k ∧ e' = e) := by
  unfold clear
  split_ifs with hk
  · by_cases hkk : k' = k
    · subst hkk
      refine ⟨fun hh => ?_, fun hh => ?_⟩
      · simp at hh
      · exact absurd ⟨rfl, Option.some.inj (hh.1.symm.trans hk)⟩ hh.2
    · simp [hkk]
  · refine ⟨fun hh => ⟨hh, fun hc => hk ?_⟩, fun hh => hh.1⟩
    rw [← hc.1, ← hc.2, hh]

theorem take_stamp_self (k : K) (e : ℕ) : (T.take k e).stamp k = some e := Function.update_self ..

theorem take_stamp_of_ne {k k' : K} (h : k' ≠ k) (e : ℕ) : (T.take k e).stamp k' = T.stamp k' :=
  Function.update_of_ne h ..

theorem join_stamp_self (k : K) (o e : ℕ) : (T.join k o e).stamp k = some e :=
  Function.update_self ..

theorem join_stamp_of_ne {k k' : K} (h : k' ≠ k) (o e : ℕ) :
    (T.join k o e).stamp k' = T.stamp k' := Function.update_of_ne h ..

theorem mem_join_owners {k k' : K} {o e : ℕ} {w : ℕ × ℕ} :
    w ∈ (T.join k o e).owners k' ↔ w ∈ T.owners k' ∨ k' = k ∧ w = (o, e) := by
  by_cases hk : k' = k
  · subst hk
    simp [join]
  · simp [join, hk]

/-- Give one holding back: unlist its owner first, then remove the stamp if it is still its own
and no other owner is left. -/
def release (now : ℕ) (c : Holding K) : Table K :=
  match c.owner with
  | none => T.clear c.key c.expiry
  | some o =>
    if (T.drop c.key o now).1 then (T.drop c.key o now).2
    else (T.drop c.key o now).2.clear c.key c.expiry

/-- Give several holdings back, one after the other. -/
def releaseAll (now : ℕ) (cs : List (Holding K)) : Table K :=
  cs.foldl (fun T c => T.release now c) T

end Table

/-- The table and the leases agree at time `t`; no lease runs longer than `ttl`. -/
structure Consistent (ttl t : ℕ) (T : Table K) (F : ι → Option (Holding K)) : Prop where
  stamped : ∀ i c, F i = some c → c.owner = none → t < c.expiry → T.stamp c.key = some c.expiry
  exclusive : ∀ i j c d, F i = some c → F j = some d → c.owner = none → d.owner = none →
    t < c.expiry → t < d.expiry → c.key = d.key → i = j
  listed : ∀ i c o, F i = some c → c.owner = some o → t < c.expiry →
    (o, c.expiry) ∈ T.owners c.key
  apart : ∀ i c, F i = some c → c.owner = none → t < c.expiry →
    ∀ w ∈ T.owners c.key, ¬ t < w.2
  topped : ∀ k w, w ∈ T.owners k → t < w.2 → T.stamp k = latest (T.owners k) t
  bounded : ∀ k w, w ∈ T.owners k → w.2 ≤ t + ttl
  distinct : ∀ i j c d o, F i = some c → F j = some d → c.owner = some o → d.owner = some o →
    i = j
  backedOwner : ∀ k w, w ∈ T.owners k → t < w.2 → ∃ i, F i = some ⟨k, w.2, some w.1⟩
  backedStamp : ∀ k e, T.stamp k = some e → t < e → ∃ i c, F i = some c ∧ c.key = k ∧ c.expiry = e

/-- The leases without those at the given indices. -/
def erase [DecidableEq ι] (F : ι → Option (Holding K)) (is : List ι) : ι → Option (Holding K) :=
  fun i => if i ∈ is then none else F i

namespace Consistent

variable {ttl t : ℕ} {T : Table K} {F : ι → Option (Holding K)}

theorem init : Consistent ttl t (⟨fun _ => none, fun _ => []⟩ : Table K)
    (fun _ : ι => none) where
  stamped := fun _ _ h => by cases h
  exclusive := fun _ _ _ _ h => by cases h
  listed := fun _ _ _ h => by cases h
  apart := fun _ _ h => by cases h
  topped := fun _ _ h => by cases h
  bounded := fun _ _ h => by cases h
  distinct := fun _ _ _ _ _ h => by cases h
  backedOwner := fun _ _ h => by cases h
  backedStamp := fun _ _ h => by cases h

/-- A key with a live owner is stamped live, with the latest of its owners. -/
theorem stamp_of_owner (h : Consistent ttl t T F) {k : K} {w : ℕ × ℕ} (hw : w ∈ T.owners k)
    (hl : t < w.2) : ∃ m, T.stamp k = some m ∧ w.2 ≤ m ∧ ∀ w' ∈ T.owners k, t < w'.2 → w'.2 ≤ m := by
  have ht := h.topped k w hw hl
  cases hm : latest (T.owners k) t with
  | none => exact absurd hl (latest_eq_none.mp hm w hw)
  | some m =>
    have hs := latest_eq_some.mp hm
    exact ⟨m, ht.trans hm, hs.2.2 w hw hl, hs.2.2⟩

variable [DecidableEq K]

omit [DecidableEq K] in
/-- Live owners and live exclusive leases exclude each other on a free key. -/
theorem not_live_of_free (h : Consistent ttl t T F) {k : K} {s : ℕ} (hs : s ≤ t)
    (hfree : T.Free k s) :
    (∀ i c, F i = some c → c.owner = none → c.key = k → ¬ t < c.expiry) ∧
      ∀ w ∈ T.owners k, ¬ t < w.2 := by
  refine ⟨fun i c hc ho hk hl => ?_, fun w hw hl => ?_⟩
  · have := hfree _ (hk ▸ h.stamped i c hc ho hl)
    omega
  · obtain ⟨m, hm, hwm, -⟩ := h.stamp_of_owner hw hl
    have := hfree _ hm
    omega

omit [DecidableEq K] in
/-- Time passes. -/
theorem pass (h : Consistent ttl t T F) {t' : ℕ} (ht : t ≤ t') : Consistent ttl t' T F where
  stamped i c hc ho hl := h.stamped i c hc ho (by omega)
  exclusive i j c d hc hd ho ho' hl hl' hk := h.exclusive i j c d hc hd ho ho' (by omega)
    (by omega) hk
  listed i c o hc ho hl := h.listed i c o hc ho (by omega)
  apart i c hc ho hl w hw hl' := h.apart i c hc ho (by omega) w hw (by omega)
  topped k w hw hl := by
    obtain ⟨m, hm, hwm, hmax⟩ := h.stamp_of_owner hw (by omega : t < w.2)
    rw [hm, eq_comm, latest_eq_some]
    have hm' := (h.topped k w hw (by omega)).symm.trans hm
    exact ⟨(latest_eq_some.mp hm').1, by omega, fun w' hw' hl' => hmax w' hw' (by omega)⟩
  bounded k w hw := by have := h.bounded k w hw; omega
  distinct := h.distinct
  backedOwner k w hw hl := h.backedOwner k w hw (by omega)
  backedStamp k e he hl := h.backedStamp k e he (by omega)

omit [DecidableEq K] in
/-- Lapsed stamps and lapsed owners may be removed. -/
theorem sweep (h : Consistent ttl t T F) {T' : Table K}
    (hs : ∀ k, T'.stamp k = T.stamp k ∨ T'.stamp k = none ∧ T.Free k t)
    (ho : ∀ k w, w ∈ T'.owners k → w ∈ T.owners k)
    (ho' : ∀ k w, w ∈ T.owners k → t < w.2 → w ∈ T'.owners k) : Consistent ttl t T' F := by
  have hstamp : ∀ k e, T.stamp k = some e → t < e → T'.stamp k = some e := by
    intro k e he hl
    rcases hs k with hk | ⟨-, hf⟩
    · rw [hk, he]
    · exact absurd hl (Nat.not_lt.mpr (hf e he))
  have hback : ∀ k e, T'.stamp k = some e → T.stamp k = some e := by
    intro k e he
    rcases hs k with hk | ⟨hk, -⟩
    · rw [← hk, he]
    · rw [hk] at he
      cases he
  refine
    { stamped := fun i c hc hn hl => hstamp _ _ (h.stamped i c hc hn hl) hl
      exclusive := h.exclusive
      listed := fun i c o hc hn hl => ho' _ _ (h.listed i c o hc hn hl) hl
      apart := fun i c hc hn hl w hw => h.apart i c hc hn hl w (ho _ _ hw)
      topped := fun k w hw hl => ?_
      bounded := fun k w hw => h.bounded k w (ho k w hw)
      distinct := h.distinct
      backedOwner := fun k w hw hl => h.backedOwner k w (ho k w hw) hl
      backedStamp := fun k e he hl => h.backedStamp k e (hback k e he) hl }
  obtain ⟨m, hm, hwm, hmax⟩ := h.stamp_of_owner (ho k w hw) hl
  have hl' : latest (T.owners k) t = some m := (h.topped k w (ho k w hw) hl).symm.trans hm
  obtain ⟨⟨v, hv, hvm⟩, hlt, -⟩ := latest_eq_some.mp hl'
  rw [hstamp k m hm hlt, eq_comm, latest_eq_some]
  exact ⟨⟨v, ho' k v hv (hvm ▸ hlt), hvm⟩, hlt, fun w' hw' hl'' => hmax w' (ho k w' hw') hl''⟩

variable [DecidableEq ι]

omit [DecidableEq K] in
theorem leased_cases {i j : ι} {c d : Holding K} (h : Function.update F i (some d) j = some c) :
    j = i ∧ c = d ∨ j ≠ i ∧ F j = some c := by
  by_cases hj : j = i
  · subst hj
    rw [Function.update_self] at h
    exact .inl ⟨rfl, (Option.some.inj h).symm⟩
  · rw [Function.update_of_ne hj] at h
    exact .inr ⟨hj, h⟩

omit [DecidableEq K] in
theorem leased_update {i j : ι} {c d : Holding K} (hi : F i = none) (h : F j = some c) :
    Function.update F i (some d) j = some c := by
  have hj : j ≠ i := fun he => by rw [he, hi] at h; cases h
  rw [Function.update_of_ne hj, h]

/-- Taking a free key exclusively; the clock reading `s` may be old. -/
theorem take (h : Consistent ttl t T F) {i : ι} (hi : F i = none) {k : K} {s : ℕ} (hs : s ≤ t)
    (hfree : T.Free k s) :
    Consistent ttl t (T.take k (s + ttl))
      (Function.update F i (some ⟨k, s + ttl, none⟩)) := by
  obtain ⟨hno, hnw⟩ := h.not_live_of_free hs hfree
  have hself : (T.take k (s + ttl)).stamp k = some (s + ttl) := T.take_stamp_self k _
  have hne : ∀ k' ≠ k, (T.take k (s + ttl)).stamp k' = T.stamp k' := fun k' hk =>
    T.take_stamp_of_ne hk _
  refine
    { stamped := fun j c hc hn hl => ?_
      exclusive := fun j j' c d hc hd hn hn' hl hl' hk => ?_
      listed := fun j c o hc hn hl => ?_
      apart := fun j c hc hn hl w hw hw' => ?_
      topped := fun k' w hw hl => ?_
      bounded := h.bounded
      distinct := fun j j' c d o hc hd hn hn' => ?_
      backedOwner := fun k' w hw hl => ?_
      backedStamp := fun k' e he hl => ?_ }
  · rcases leased_cases hc with ⟨-, rfl⟩ | ⟨-, hc⟩
    · exact hself
    · rw [hne _ fun hk => hno j c hc hn hk hl]
      exact h.stamped j c hc hn hl
  · rcases leased_cases hc with ⟨hji, rfl⟩ | ⟨-, hc'⟩ <;>
      rcases leased_cases hd with ⟨hji', rfl⟩ | ⟨-, hd'⟩
    · exact hji.trans hji'.symm
    · exact absurd hl' (hno j' d hd' hn' hk.symm)
    · exact absurd hl (hno j c hc' hn hk)
    · exact h.exclusive j j' c d hc' hd' hn hn' hl hl' hk
  · rcases leased_cases hc with ⟨-, rfl⟩ | ⟨-, hc⟩
    · cases hn
    · exact h.listed j c o hc hn hl
  · rcases leased_cases hc with ⟨-, rfl⟩ | ⟨-, hc⟩
    · exact hnw w hw hw'
    · exact h.apart j c hc hn hl w hw hw'
  · rw [hne k' fun hk => hnw w (hk ▸ hw) hl]
    exact h.topped k' w hw hl
  · rcases leased_cases hc with ⟨-, rfl⟩ | ⟨-, hc⟩
    · cases hn
    · rcases leased_cases hd with ⟨-, rfl⟩ | ⟨-, hd⟩
      · cases hn'
      · exact h.distinct j j' c d o hc hd hn hn'
  · obtain ⟨j, hj⟩ := h.backedOwner k' w hw hl
    exact ⟨j, leased_update hi hj⟩
  · by_cases hk : k' = k
    · subst hk
      rw [hself] at he
      cases he
      exact ⟨i, _, Function.update_self .., rfl, rfl⟩
    · rw [hne k' hk] at he
      obtain ⟨j, c, hc, hck, hce⟩ := h.backedStamp k' e he hl
      exact ⟨j, c, leased_update hi hc, hck, hce⟩

omit [DecidableEq K] [DecidableEq ι] in
/-- No exclusive lease is live on a key that is free, or held by owners only. -/
theorem not_live_of_joinable (h : Consistent ttl t T F) {k : K}
    (hkey : T.Free k t ∨ T.stamp k = latest (T.owners k) t) :
    ∀ j c, F j = some c → c.owner = none → c.key = k → ¬ t < c.expiry := by
  intro j c hc hn hk hl
  have hst := hk ▸ h.stamped j c hc hn hl
  rcases hkey with hf | hlat
  · exact absurd hl (Nat.not_lt.mpr (hf _ hst))
  · obtain ⟨⟨w, hw, hwe⟩, hlt, -⟩ := latest_eq_some.mp (hlat.symm.trans hst)
    exact h.apart j c hc hn hl w (hk ▸ hw) (hwe ▸ hlt)

omit [DecidableEq ι] in
theorem topped_join (h : Consistent ttl t T F) (k : K) (o : ℕ) {k' : K} {w : ℕ × ℕ}
    (hw : w ∈ (T.join k o (t + ttl)).owners k') (hl : t < w.2) :
    (T.join k o (t + ttl)).stamp k' = latest ((T.join k o (t + ttl)).owners k') t := by
  by_cases hk : k' = k
  · subst hk
    rw [T.join_stamp_self, eq_comm, latest_eq_some]
    refine ⟨⟨_, T.mem_join_owners.mpr (.inr ⟨rfl, rfl⟩), rfl⟩, ?_, fun w' hw' _ => ?_⟩
    · rcases T.mem_join_owners.mp hw with hw | ⟨-, rfl⟩
      · have := h.bounded k' w hw
        omega
      · exact hl
    · rcases T.mem_join_owners.mp hw' with hw' | ⟨-, rfl⟩
      · exact h.bounded k' w' hw'
      · exact le_rfl
  · have howners : (T.join k o (t + ttl)).owners k' = T.owners k' := Function.update_of_ne hk ..
    rw [T.join_stamp_of_ne hk, howners]
    exact h.topped k' w (howners ▸ hw) hl

/-- Joining the owners of a key that is free, or held by owners only. -/
theorem join (h : Consistent ttl t T F) {i : ι} (hi : F i = none) {k : K} {o : ℕ}
    (hkey : T.Free k t ∨ T.stamp k = latest (T.owners k) t)
    (hnew : ∀ j c, F j = some c → c.owner ≠ some o) :
    Consistent ttl t (T.join k o (t + ttl))
      (Function.update F i (some ⟨k, t + ttl, some o⟩)) := by
  have hno := h.not_live_of_joinable hkey
  have hne : ∀ k' ≠ k, (T.join k o (t + ttl)).stamp k' = T.stamp k' := fun k' hk =>
    T.join_stamp_of_ne hk _ _
  refine
    { stamped := fun j c hc hn hl => ?_
      exclusive := fun j j' c d hc hd hn hn' hl hl' hk => ?_
      listed := fun j c o' hc hn hl => ?_
      apart := fun j c hc hn hl w hw hw' => ?_
      topped := fun k' w hw hl => h.topped_join k o hw hl
      bounded := fun k' w hw => ?_
      distinct := fun j j' c d o' hc hd hn hn' => ?_
      backedOwner := fun k' w hw hl => ?_
      backedStamp := fun k' e he hl => ?_ }
  · rcases leased_cases hc with ⟨-, rfl⟩ | ⟨-, hc⟩
    · cases hn
    · rw [hne _ fun hk => hno j c hc hn hk hl]
      exact h.stamped j c hc hn hl
  · rcases leased_cases hc with ⟨-, rfl⟩ | ⟨-, hc⟩
    · cases hn
    · rcases leased_cases hd with ⟨-, rfl⟩ | ⟨-, hd⟩
      · cases hn'
      · exact h.exclusive j j' c d hc hd hn hn' hl hl' hk
  · rcases leased_cases hc with ⟨-, rfl⟩ | ⟨-, hc⟩
    · cases hn
      exact T.mem_join_owners.mpr (.inr ⟨rfl, rfl⟩)
    · exact T.mem_join_owners.mpr (.inl (h.listed j c o' hc hn hl))
  · rcases leased_cases hc with ⟨-, rfl⟩ | ⟨-, hc⟩
    · cases hn
    · rcases T.mem_join_owners.mp hw with hw | ⟨hk, -⟩
      · exact h.apart j c hc hn hl w hw hw'
      · exact hno j c hc hn hk hl
  · rcases T.mem_join_owners.mp hw with hw | ⟨-, rfl⟩
    · exact h.bounded k' w hw
    · exact le_rfl
  · rcases leased_cases hc with ⟨hji, rfl⟩ | ⟨-, hc'⟩ <;>
      rcases leased_cases hd with ⟨hji', rfl⟩ | ⟨-, hd'⟩
    · exact hji.trans hji'.symm
    · exact absurd (hn'.trans hn.symm) (hnew j' d hd')
    · exact absurd (hn.trans hn'.symm) (hnew j c hc')
    · exact h.distinct j j' c d o' hc' hd' hn hn'
  · rcases T.mem_join_owners.mp hw with hw | ⟨rfl, rfl⟩
    · obtain ⟨j, hj⟩ := h.backedOwner k' w hw hl
      exact ⟨j, leased_update hi hj⟩
    · exact ⟨i, Function.update_self ..⟩
  · by_cases hk : k' = k
    · subst hk
      rw [T.join_stamp_self] at he
      cases he
      exact ⟨i, _, Function.update_self .., rfl, rfl⟩
    · rw [hne k' hk] at he
      obtain ⟨j, c, hc, hck, hce⟩ := h.backedStamp k' e he hl
      exact ⟨j, c, leased_update hi hc, hck, hce⟩

omit [DecidableEq K] in
theorem update_none {i j : ι} {d : Holding K} (h : Function.update F i none j = some d) :
    j ≠ i ∧ F j = some d := by
  by_cases hj : j = i
  · subst hj
    rw [Function.update_self] at h
    cases h
  · rw [Function.update_of_ne hj] at h
    exact ⟨hj, h⟩

/-- Giving an exclusive lease back, live or lapsed. -/
theorem clear (h : Consistent ttl t T F) {i : ι} {c : Holding K} (hi : F i = some c)
    (hc : c.owner = none) :
    Consistent ttl t (T.clear c.key c.expiry) (Function.update F i none) := by
  refine
    { stamped := fun j d hd hn hl => ?_
      exclusive := fun j j' d d' hd hd' => h.exclusive j j' d d' (update_none hd).2 (update_none hd').2
      listed := fun j d o hd => by rw [T.clear_owners]; exact h.listed j d o (update_none hd).2
      apart := fun j d hd => by rw [T.clear_owners]; exact h.apart j d (update_none hd).2
      topped := fun k w hw hl => ?_
      bounded := by rw [T.clear_owners]; exact h.bounded
      distinct := fun j j' d d' o hd hd' =>
        h.distinct j j' d d' o (update_none hd).2 (update_none hd').2
      backedOwner := fun k w hw hl => ?_
      backedStamp := fun k e he hl => ?_ }
  · obtain ⟨hji, hd⟩ := update_none hd
    refine T.clear_stamp.mpr ⟨h.stamped j d hd hn hl, fun hh => hji ?_⟩
    exact h.exclusive j i d c hd hi hn hc hl (hh.2 ▸ hl) hh.1
  · rw [T.clear_owners] at hw ⊢
    obtain ⟨m, hm, hwm, -⟩ := h.stamp_of_owner hw hl
    rw [← h.topped k w hw hl, hm]
    -- A live exclusive lease shares its key with no live owner.
    refine T.clear_stamp.mpr ⟨hm, fun hh => ?_⟩
    exact h.apart i c hi hc (by omega) w (hh.1 ▸ hw) hl
  · rw [T.clear_owners] at hw
    obtain ⟨j, hj⟩ := h.backedOwner k w hw hl
    refine ⟨j, ?_⟩
    rw [Function.update_of_ne, hj]
    rintro rfl
    rw [hi] at hj
    cases hj
    cases hc
  · obtain ⟨he, hne⟩ := T.clear_stamp.mp he
    obtain ⟨j, d, hd, hdk, hde⟩ := h.backedStamp k e he hl
    refine ⟨j, d, ?_, hdk, hde⟩
    rw [Function.update_of_ne, hd]
    rintro rfl
    rw [hi] at hd
    cases hd
    exact hne ⟨hdk.symm, hde.symm⟩

/-- Giving a shared lease back while another owner is live: the key is restamped for the others. -/
theorem dropShared (h : Consistent ttl t T F) {i : ι} {c : Holding K} {o m : ℕ}
    (hi : F i = some c) (hc : c.owner = some o) (hm : latest (T.rest c.key o) t = some m) :
    Consistent ttl t
      { stamp := Function.update T.stamp c.key (some m)
        owners := Function.update T.owners c.key (T.rest c.key o) }
      (Function.update F i none) := by
  obtain ⟨⟨v, hv, hvm⟩, hlt, hmax⟩ := latest_eq_some.mp hm
  have hsub : ∀ w, w ∈ T.rest c.key o → w ∈ T.owners c.key ∧ w.1 ≠ o := fun w hw => by
    simpa [Table.rest] using hw
  -- Live owners leave no room for a live exclusive lease.
  have hno : ∀ j d, F j = some d → d.owner = none → d.key = c.key → ¬ t < d.expiry :=
    fun j d hd hn hk hl => h.apart j d hd hn hl v (hk ▸ (hsub v hv).1) (hvm ▸ hlt)
  have hother : ∀ (k : K) (w : ℕ × ℕ) j, F j = some ⟨k, w.2, some w.1⟩ → (k = c.key → w.1 ≠ o) → j ≠ i := by
    rintro k w j hj hne rfl
    rw [hi] at hj
    cases hj
    exact hne rfl (Option.some.inj hc)
  have hmem : ∀ k (w : ℕ × ℕ), w ∈ Function.update T.owners c.key (T.rest c.key o) k →
      w ∈ T.owners k ∧ (k = c.key → w.1 ≠ o) := by
    intro k w hw
    by_cases hk : k = c.key
    · subst hk
      rw [Function.update_self] at hw
      exact ⟨(hsub w hw).1, fun _ => (hsub w hw).2⟩
    · rw [Function.update_of_ne hk] at hw
      exact ⟨hw, fun hh => absurd hh hk⟩
  refine
    { stamped := fun j d hd hn hl => ?_
      exclusive := fun j j' d d' hd hd' => h.exclusive j j' d d' (update_none hd).2 (update_none hd').2
      listed := fun j d o' hd hn hl => ?_
      apart := fun j d hd hn hl w hw => h.apart j d (update_none hd).2 hn hl w (hmem _ w hw).1
      topped := fun k w hw hl => ?_
      bounded := fun k w hw => h.bounded k w (hmem k w hw).1
      distinct := fun j j' d d' o' hd hd' =>
        h.distinct j j' d d' o' (update_none hd).2 (update_none hd').2
      backedOwner := fun k w hw hl => ?_
      backedStamp := fun k e he hl => ?_ }
  · obtain ⟨-, hd⟩ := update_none hd
    show Function.update T.stamp c.key (some m) d.key = _
    rw [Function.update_of_ne fun hk => hno j d hd hn hk hl]
    exact h.stamped j d hd hn hl
  · obtain ⟨hji, hd⟩ := update_none hd
    show (o', d.expiry) ∈ Function.update T.owners c.key (T.rest c.key o) d.key
    have hin := h.listed j d o' hd hn hl
    by_cases hk : d.key = c.key
    · rw [hk, Function.update_self, Table.rest, List.mem_filter]
      refine ⟨hk ▸ hin, ?_⟩
      have hne : o' ≠ o := fun he => hji (h.distinct j i d c o hd hi (he ▸ hn) hc)
      simpa using hne
    · rwa [Function.update_of_ne hk]
  · show Function.update T.stamp c.key (some m) k =
      latest (Function.update T.owners c.key (T.rest c.key o) k) t
    by_cases hk : k = c.key
    · rw [hk, Function.update_self, Function.update_self, hm]
    · rw [Function.update_of_ne hk, Function.update_of_ne hk]
      exact h.topped k w (hmem k w hw).1 hl
  · obtain ⟨hw, hne⟩ := hmem k w hw
    obtain ⟨j, hj⟩ := h.backedOwner k w hw hl
    exact ⟨j, by rw [Function.update_of_ne (hother k w j hj hne), hj]⟩
  · replace he : Function.update T.stamp c.key (some m) k = some e := he
    by_cases hk : k = c.key
    · rw [hk, Function.update_self] at he
      cases he
      obtain ⟨j, hj⟩ := h.backedOwner c.key v (hsub v hv).1 (hvm ▸ hlt)
      refine ⟨j, ⟨c.key, v.2, some v.1⟩, ?_, hk.symm, hvm⟩
      rw [Function.update_of_ne (hother _ v j hj fun _ => (hsub v hv).2), hj]
    · rw [Function.update_of_ne hk] at he
      obtain ⟨j, d, hd, hdk, hde⟩ := h.backedStamp k e he hl
      refine ⟨j, d, ?_, hdk, hde⟩
      rw [Function.update_of_ne, hd]
      rintro rfl
      rw [hi] at hd
      cases hd
      exact hk hdk.symm

/-- Giving back the last live owner of a key: its own stamp goes too. -/
theorem dropLast (h : Consistent ttl t T F) {i : ι} {c : Holding K} {o : ℕ}
    (hi : F i = some c) (hc : c.owner = some o) (hm : latest (T.rest c.key o) t = none) :
    Consistent ttl t
      (({ T with owners := Function.update T.owners c.key [] } : Table K).clear c.key c.expiry)
      (Function.update F i none) := by
  set T' : Table K := { T with owners := Function.update T.owners c.key [] } with hT'
  have howners : T'.owners = Function.update T.owners c.key [] := rfl
  have hrest : ∀ w ∈ T.owners c.key, w.1 ≠ o → ¬ t < w.2 := fun w hw hne =>
    latest_eq_none.mp hm w (by simpa [Table.rest] using ⟨hw, hne⟩)
  have hkey : ∀ j d o', F j = some d → d.owner = some o' → j ≠ i → d.key = c.key →
      ¬ t < d.expiry := fun j d o' hd hn hji hk hl =>
    hrest _ (hk ▸ h.listed j d o' hd hn hl) (fun he => hji (h.distinct j i d c o hd hi (he ▸ hn) hc))
      hl
  have hmem : ∀ k (w : ℕ × ℕ), w ∈ Function.update T.owners c.key [] k → k ≠ c.key ∧ w ∈ T.owners k := by
    intro k w hw
    by_cases hk : k = c.key
    · subst hk
      rw [Function.update_self] at hw
      cases hw
    · rw [Function.update_of_ne hk] at hw
      exact ⟨hk, hw⟩
  refine
    { stamped := fun j d hd hn hl => ?_
      exclusive := fun j j' d d' hd hd' => h.exclusive j j' d d' (update_none hd).2 (update_none hd').2
      listed := fun j d o' hd hn hl => ?_
      apart := fun j d hd hn hl w hw => ?_
      topped := fun k w hw hl => ?_
      bounded := fun k w hw => ?_
      distinct := fun j j' d d' o' hd hd' =>
        h.distinct j j' d d' o' (update_none hd).2 (update_none hd').2
      backedOwner := fun k w hw hl => ?_
      backedStamp := fun k e he hl => ?_ }
  · obtain ⟨-, hd⟩ := update_none hd
    refine T'.clear_stamp.mpr ⟨h.stamped j d hd hn hl, fun hh => ?_⟩
    -- A live stamp of its own would stand beside the live owner `o`.
    exact h.apart j d hd hn hl _ (hh.1 ▸ h.listed i c o hi hc (hh.2 ▸ hl)) (hh.2 ▸ hl)
  · obtain ⟨hji, hd⟩ := update_none hd
    rw [T'.clear_owners, howners, Function.update_of_ne fun hk => hkey j d o' hd hn hji hk hl]
    exact h.listed j d o' hd hn hl
  · rw [T'.clear_owners, howners] at hw
    exact h.apart j d (update_none hd).2 hn hl w (hmem _ _ hw).2
  · rw [T'.clear_owners, howners] at hw ⊢
    obtain ⟨hk, hw⟩ := hmem k w hw
    rw [Function.update_of_ne hk, ← h.topped k w hw hl]
    obtain ⟨m, hst, -, -⟩ := h.stamp_of_owner hw hl
    rw [hst]
    exact T'.clear_stamp.mpr ⟨hst, fun hh => hk hh.1⟩
  · rw [T'.clear_owners, howners] at hw
    exact h.bounded k w (hmem k w hw).2
  · rw [T'.clear_owners, howners] at hw
    obtain ⟨hk, hw⟩ := hmem k w hw
    obtain ⟨j, hj⟩ := h.backedOwner k w hw hl
    refine ⟨j, ?_⟩
    rw [Function.update_of_ne, hj]
    rintro rfl
    rw [hi] at hj
    cases hj
    exact hk rfl
  · obtain ⟨he, hne⟩ := T'.clear_stamp.mp he
    obtain ⟨j, d, hd, hdk, hde⟩ := h.backedStamp k e he hl
    refine ⟨j, d, ?_, hdk, hde⟩
    rw [Function.update_of_ne, hd]
    rintro rfl
    rw [hi] at hd
    cases hd
    exact hne ⟨hdk.symm, hde.symm⟩

/-- **Giving one lease back keeps the table consistent for the others.** -/
theorem release (h : Consistent ttl t T F) {i : ι} {c : Holding K} (hi : F i = some c) :
    Consistent ttl t (T.release t c) (Function.update F i none) := by
  unfold Table.release
  cases hc : c.owner with
  | none => exact h.clear hi hc
  | some o =>
    cases hm : latest (T.rest c.key o) t with
    | none => simpa [Table.drop, hm] using h.dropLast hi hc hm
    | some m => simpa [Table.drop, hm] using h.dropShared hi hc hm

omit [DecidableEq K] in
@[simp] theorem erase_nil : erase F ([] : List ι) = F := by
  funext j
  simp [erase]

omit [DecidableEq K] in
theorem erase_cons (i : ι) (is : List ι) :
    erase (Function.update F i none) is = erase F (i :: is) := by
  funext j
  by_cases hj : j = i
  · subst hj
    simp [erase]
  · simp [erase, hj]

/-- **Giving several leases back keeps the table consistent for the others.** -/
theorem releaseAll (h : Consistent ttl t T F) {l : List (ι × Holding K)}
    (hnd : (l.map Prod.fst).Nodup) (hl : ∀ q ∈ l, F q.1 = some q.2) :
    Consistent ttl t (T.releaseAll t (l.map Prod.snd)) (erase F (l.map Prod.fst)) := by
  induction l generalizing T F with
  | nil => simpa [Table.releaseAll] using h
  | cons q qs ih =>
    simp only [List.map_cons, List.nodup_cons] at hnd ⊢
    have hq := h.release (hl q List.mem_cons_self)
    rw [← erase_cons]
    refine ih hq hnd.2 fun q' hq' => ?_
    have hne : q'.1 ≠ q.1 := fun he => hnd.1 (he ▸ List.mem_map_of_mem hq')
    rw [Function.update_of_ne hne]
    exact hl q' (List.mem_cons_of_mem q hq')

end Consistent

end Lease
