import Mathlib.Data.List.Basic
import Mathlib.Data.List.GetD
import Mathlib.Algebra.Order.Group.Nat
import Mathlib.Tactic.Common
import Mathlib.Tactic.SplitIfs

/-!
# Slicing a list into pieces

`slice size data` cuts `data` into consecutive pieces of `size` elements, the last one shorter.
`rebalance bad data chunks` re-cuts the last two pieces when the last one is a single element that
`bad` refuses, so that the last piece has two elements.

* `flatten_slice`, `length_le_of_mem_slice`, `length_eq_of_mem_dropLast_slice`;
* `exists_flatten_map_pad`: padded pieces add up to padded data;
* `length_slice`, `length_rebalance`: how many pieces there are;
* `rebalance_concat`: what the re-cut does to the last two pieces;
* `flatten_rebalance`: **the pieces still add up to the data**;
* `mem_rebalance`: **a refused one-element piece is left only when it is the whole data**.
-/

namespace Chunking

variable {α : Type}

/-! ## Slices -/

/-- `slice`, cutting at most `n` pieces. -/
def sliceFrom (size : ℕ) : ℕ → List α → List (List α)
  | 0, _ => []
  | _ + 1, [] => []
  | n + 1, a :: l => (a :: l).take size :: sliceFrom size n ((a :: l).drop size)

/-- The consecutive pieces of `size` elements. -/
def slice (size : ℕ) (data : List α) : List (List α) := sliceFrom size data.length data

@[simp] theorem slice_nil (size : ℕ) : slice size ([] : List α) = [] := rfl

theorem sliceFrom_of_le {size n m : ℕ} (hs : 0 < size) {data : List α} (hn : data.length ≤ n)
    (hm : data.length ≤ m) : sliceFrom size n data = sliceFrom size m data := by
  induction n generalizing m data with
  | zero =>
    obtain rfl : data = [] := List.length_eq_zero_iff.mp (Nat.le_zero.mp hn)
    cases m <;> rfl
  | succ n ih =>
    cases data with
    | nil => cases m <;> rfl
    | cons a l =>
      obtain ⟨m, rfl⟩ : ∃ k, m = k + 1 := ⟨m - 1, by simp only [List.length_cons] at hm; omega⟩
      have hd : ((a :: l).drop size).length ≤ l.length := by
        simp only [List.length_drop, List.length_cons]
        omega
      simp only [List.length_cons, Nat.add_le_add_iff_right] at hn hm
      simp only [sliceFrom, ih (hd.trans hn) (hd.trans hm)]

theorem slice_of_ne_nil {size : ℕ} (hs : 0 < size) {data : List α} (hd : data ≠ []) :
    slice size data = data.take size :: slice size (data.drop size) := by
  cases data with
  | nil => exact absurd rfl hd
  | cons a l =>
    simp only [slice, List.length_cons, sliceFrom]
    rw [sliceFrom_of_le hs _ le_rfl]
    simp only [List.length_drop, List.length_cons]
    omega

theorem slice_induction {size : ℕ} (hs : 0 < size) {P : List α → Prop} (hnil : P [])
    (hcut : ∀ data, data ≠ [] → P (data.drop size) → P data) (data : List α) : P data := by
  induction hn : data.length using Nat.strongRecOn generalizing data with
  | ind n ih =>
    by_cases hd : data = []
    · exact hd ▸ hnil
    · have hpos := List.length_pos_iff.mpr hd
      refine hcut data hd (ih (data.drop size).length ?_ _ rfl)
      rw [List.length_drop]
      omega

theorem flatten_slice {size : ℕ} (hs : 0 < size) (data : List α) :
    (slice size data).flatten = data := by
  induction data using slice_induction hs with
  | hnil => rfl
  | hcut data hd ih =>
    rw [slice_of_ne_nil hs hd, List.flatten_cons, ih, List.take_append_drop]

theorem length_le_of_mem_slice {size : ℕ} (hs : 0 < size) (data : List α) :
    ∀ c ∈ slice size data, 0 < c.length ∧ c.length ≤ size := by
  induction data using slice_induction hs with
  | hnil => simp
  | hcut data hd ih =>
    have hpos := List.length_pos_iff.mpr hd
    rw [slice_of_ne_nil hs hd]
    intro c hc
    rcases List.mem_cons.mp hc with rfl | hc
    · rw [List.length_take]
      omega
    · exact ih c hc

/-- Every piece but the last is full. -/
theorem length_eq_of_mem_dropLast_slice {size : ℕ} (hs : 0 < size) (data : List α) :
    ∀ c ∈ (slice size data).dropLast, c.length = size := by
  induction data using slice_induction hs with
  | hnil => simp
  | hcut data hd ih =>
    rw [slice_of_ne_nil hs hd]
    intro c hc
    by_cases hr : data.drop size = []
    · rw [hr, slice_nil] at hc
      cases hc
    · have hlen := List.length_pos_iff.mpr hr
      rw [List.length_drop] at hlen
      rw [slice_of_ne_nil hs hr, List.dropLast_cons_cons, ← slice_of_ne_nil hs hr] at hc
      rcases List.mem_cons.mp hc with rfl | hc
      · rw [List.length_take]
        omega
      · exact ih c hc

/-- Padding every piece to the full size only adds to the end of the data. -/
theorem exists_flatten_map_pad {size : ℕ} (hs : 0 < size) (z : α) (data : List α) :
    ∃ k, ((slice size data).map fun c => c ++ List.replicate (size - c.length) z).flatten =
      data ++ List.replicate k z := by
  induction data using slice_induction hs with
  | hnil => exact ⟨0, rfl⟩
  | hcut data hd ih =>
    obtain ⟨k, hk⟩ := ih
    rw [slice_of_ne_nil hs hd, List.map_cons, List.flatten_cons, hk]
    by_cases hlen : data.length ≤ size
    · refine ⟨size - data.length + k, ?_⟩
      rw [List.take_of_length_le hlen, List.drop_of_length_le hlen, List.nil_append,
        List.append_assoc, List.replicate_append_replicate]
    · refine ⟨k, ?_⟩
      rw [List.length_take, Nat.min_eq_left (by omega), Nat.sub_self, List.replicate_zero,
        List.append_nil, ← List.append_assoc, List.take_append_drop]

theorem slice_ne_nil {size : ℕ} (hs : 0 < size) {data : List α} (hd : data ≠ []) :
    slice size data ≠ [] := by
  rw [slice_of_ne_nil hs hd]
  exact List.cons_ne_nil _ _

/-- One piece for every `size` elements begun. -/
theorem length_slice {size : ℕ} (hs : 0 < size) (data : List α) :
    (slice size data).length = (data.length + (size - 1)) / size := by
  induction data using slice_induction hs with
  | hnil =>
    rw [slice_nil, List.length_nil, List.length_nil, Nat.div_eq_of_lt (by omega)]
  | hcut data hd ih =>
    have hpos := List.length_pos_iff.mpr hd
    rw [slice_of_ne_nil hs hd, List.length_cons, ih, List.length_drop]
    by_cases hlen : data.length ≤ size
    · have hlast : data.length - size + (size - 1) < size := by omega
      have hone : data.length + (size - 1) = data.length - 1 + size := by omega
      rw [Nat.div_eq_of_lt hlast, hone, Nat.add_div_right _ hs, Nat.div_eq_of_lt (by omega)]
    · have hmore : data.length + (size - 1) = data.length - size + (size - 1) + size := by omega
      rw [hmore, Nat.add_div_right _ hs]

/-! ## Re-cutting the last two pieces -/

/-- Re-cut the last two pieces out of `data` when the last one is a refused single element. -/
def rebalance (bad : List α → Bool) (data : List α) (chunks : List (List α)) : List (List α) :=
  if 2 ≤ chunks.length then
    let last := chunks.getD (chunks.length - 1) []
    if last.length = 1 ∧ bad last then
      let prev := chunks.getD (chunks.length - 2) []
      let prevStart := data.length - 1 - prev.length
      (chunks.set (chunks.length - 2) ((data.take (data.length - 2)).drop prevStart)).set
        (chunks.length - 1) (data.drop (data.length - 2))
    else chunks
  else chunks

/-- The re-cut moves no boundary but the last. -/
theorem length_rebalance (bad : List α → Bool) (data : List α) (chunks : List (List α)) :
    (rebalance bad data chunks).length = chunks.length := by
  unfold rebalance
  dsimp only
  split_ifs
  · rw [List.length_set, List.length_set]
  · rfl
  · rfl

theorem rebalance_of_length_lt {bad : List α → Bool} {data : List α} {chunks : List (List α)}
    (h : chunks.length < 2) : rebalance bad data chunks = chunks := by
  unfold rebalance
  rw [if_neg (by omega)]

theorem rebalance_concat_of_not {bad : List α → Bool} {data last : List α}
    {chunks : List (List α)} (h : ¬ (last.length = 1 ∧ bad last)) :
    rebalance bad data (chunks ++ [last]) = chunks ++ [last] := by
  have hlast : (chunks ++ [last]).getD ((chunks ++ [last]).length - 1) [] = last := by
    simp
  unfold rebalance
  split_ifs with h1
  · simp only [hlast, if_neg h]
  · rfl

/-- The re-cut moves the last element of the penultimate piece to the last one. -/
theorem rebalance_concat {bad : List α → Bool} {init : List (List α)} {prev : List α} {x b : α}
    (hb : bad [b]) :
    rebalance bad (init.flatten ++ (prev ++ [x]) ++ [b]) (init ++ [prev ++ [x], [b]]) =
      init ++ [prev, [x, b]] := by
  have hdata : init.flatten ++ (prev ++ [x]) ++ [b] = (init.flatten ++ prev) ++ [x, b] := by
    simp
  have hlast : (init ++ [prev ++ [x], [b]]).getD (init.length + 1) [] = [b] := by
    rw [List.getD_append_right _ _ _ _ (Nat.le_succ _)]
    simp
  have hprev : (init ++ [prev ++ [x], [b]]).getD init.length [] = prev ++ [x] := by
    rw [List.getD_append_right _ _ _ _ le_rfl]
    simp
  have hcount : (init ++ [prev ++ [x], [b]]).length = init.length + 2 := by simp
  have hstart : (init.flatten ++ prev ++ [x, b]).length - 1 - (prev ++ [x]).length =
      init.flatten.length := by
    simp only [List.length_append, List.length_cons, List.length_nil]
    omega
  have hcut : (init.flatten ++ prev ++ [x, b]).length - 2 = (init.flatten ++ prev).length := by
    simp only [List.length_append, List.length_cons, List.length_nil]
    omega
  rw [hdata]
  unfold rebalance
  simp only [hcount, Nat.add_sub_cancel, Nat.add_succ_sub_one, hlast, hprev, hstart, hcut,
    List.take_left, List.drop_left]
  rw [if_pos (by omega), if_pos ⟨List.length_singleton, hb⟩]
  simp

/-- What `rebalance` makes of the slices of `data`, by the shape of the last piece. -/
theorem rebalance_slice_cases {size : ℕ} (hs : 1 < size) (bad : List α → Bool) (data : List α) :
    rebalance bad data (slice size data) = slice size data ∧
        (∀ c ∈ slice size data, c.length = 1 → bad c → data = c) ∨
      ∃ init prev x b, bad [b] ∧ slice size data = init ++ [prev ++ [x], [b]] ∧
        (prev ++ [x]).length = size ∧
        rebalance bad data (slice size data) = init ++ [prev, [x, b]] := by
  have hs0 : 0 < size := by omega
  have hfull := length_eq_of_mem_dropLast_slice hs0 data
  have hflat := flatten_slice hs0 data
  rcases List.eq_nil_or_concat' (slice size data) with hnil | ⟨front, last, hfl⟩
  · exact .inl ⟨by rw [hnil]; rfl, by simp [hnil]⟩
  rw [hfl, List.dropLast_concat] at hfull
  by_cases hbad : last.length = 1 ∧ bad last
  · obtain ⟨b, rfl⟩ := List.length_eq_one_iff.mp hbad.1
    rcases List.eq_nil_or_concat' front with rfl | ⟨init, prev, rfl⟩
    · refine .inl ⟨rebalance_of_length_lt (by simp [hfl]), fun c hc _ _ => ?_⟩
      rw [hfl] at hflat hc
      obtain rfl : c = [b] := by simpa using hc
      simpa using hflat.symm
    · have hlen : prev.length = size := hfull prev (by simp)
      obtain ⟨p, x, rfl⟩ : ∃ p x, prev = p ++ [x] := by
        rcases List.eq_nil_or_concat' prev with rfl | ⟨p, x, rfl⟩
        · simp only [List.length_nil] at hlen
          omega
        · exact ⟨p, x, rfl⟩
      have hsl : slice size data = init ++ [p ++ [x], [b]] := by simpa using hfl
      refine .inr ⟨init, p, x, b, hbad.2, hsl, hlen, ?_⟩
      have hdata : data = init.flatten ++ (p ++ [x]) ++ [b] := by
        rw [← hflat, hsl]
        simp
      rw [hsl, hdata]
      exact rebalance_concat hbad.2
  · rw [hfl]
    refine .inl ⟨rebalance_concat_of_not hbad, fun c hc h1 h2 => ?_⟩
    rcases List.mem_append.mp hc with hc | hc
    · have := hfull c hc
      omega
    · obtain rfl : c = last := by simpa using hc
      exact absurd ⟨h1, h2⟩ hbad

/-- **The pieces still add up to the data.** -/
theorem flatten_rebalance {size : ℕ} (hs : 1 < size) (bad : List α → Bool) (data : List α) :
    (rebalance bad data (slice size data)).flatten = data := by
  have hflat := flatten_slice (by omega : 0 < size) data
  rcases rebalance_slice_cases hs bad data with ⟨h, -⟩ | ⟨init, prev, x, b, -, hsl, -, h⟩
  · rw [h, hflat]
  · rw [h]
    conv_rhs => rw [← hflat, hsl]
    simp

/-- **Pieces keep their bounds, and a refused one-element piece is the whole data.** -/
theorem mem_rebalance {size : ℕ} (hs : 2 < size) (bad : List α → Bool) (data : List α) :
    ∀ c ∈ rebalance bad data (slice size data),
      0 < c.length ∧ c.length ≤ size ∧ (c.length = 1 → bad c → data = c) := by
  have hle := length_le_of_mem_slice (by omega : 0 < size) data
  rcases rebalance_slice_cases (by omega : 1 < size) bad data with
    ⟨h, hone⟩ | ⟨init, prev, x, b, -, hsl, hp, h⟩
  · rw [h]
    exact fun c hc => ⟨(hle c hc).1, (hle c hc).2, hone c hc⟩
  · have hfull := length_eq_of_mem_dropLast_slice (by omega : 0 < size) data
    rw [h]
    intro c hc
    rw [List.length_append, List.length_singleton] at hp
    rcases List.mem_append.mp hc with hc | hc
    · have hcs : c.length = size := by
        refine hfull c ?_
        rw [hsl, show init ++ [prev ++ [x], [b]] = (init ++ [prev ++ [x]]) ++ [[b]] by simp,
          List.dropLast_concat]
        exact List.mem_append_left _ hc
      exact ⟨by omega, by omega, fun h1 => by omega⟩
    · simp only [List.mem_cons, List.not_mem_nil, or_false] at hc
      rcases hc with rfl | rfl
      · exact ⟨by omega, by omega, fun h1 => by omega⟩
      · exact ⟨by simp, by simp only [List.length_cons, List.length_nil]; omega,
          fun h1 => by simp at h1⟩

theorem rebalance_ne_nil {size : ℕ} (hs : 1 < size) (bad : List α → Bool) {data : List α}
    (hd : data ≠ []) : rebalance bad data (slice size data) ≠ [] := by
  intro h
  have := flatten_rebalance hs bad data
  rw [h] at this
  exact hd this.symm

end Chunking
