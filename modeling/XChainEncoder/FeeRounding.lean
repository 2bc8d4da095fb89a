import XChainEncoder.FeePolicy
import Mathlib.Algebra.BigOperators.Group.List.Basic

/-!
# How fees round

The fee of `n` bytes is the ceiling of `n` times one slope: the whole per-kB rate, or the rate shaved
by 1e-12.

* `perKb`, `feeSlope`, **`feeForVsize_eq_ceil`**: the two branches of `feeForVsize` as one ceiling;
* `feeSlope_mono`: the branches agree at their border;
* `feeForVsize_mono`, `feeForVsize_mono_rate`, `feeForVsize_add_le`, `feeForVsize_sum_le`;
* `RoundsSafely`, **`feeForVsize_roundsSafely`**: what the fee owes its callers;
  `feeForVsize_outside`: tiny rates fall below a relative tolerance, and sizes past the safe integers
  are shaved.
-/

namespace XChain

variable {n m : ℕ} {r r' : ℚ}

/-- The rate in base units per kB. -/
def perKb (feePerBytes : ℚ) : ℚ := feePerBytes * 1000 * satoshiUnit

theorem perKb_nonneg (hr : 0 ≤ r) : 0 ≤ perKb r := by
  have hunit : (0 : ℚ) < satoshiUnit := by decide
  unfold perKb
  positivity

theorem perKb_mono (h : r ≤ r') : perKb r ≤ perKb r' := by
  have hunit : (0 : ℚ) < satoshiUnit := by decide
  unfold perKb
  exact mul_le_mul_of_nonneg_right (mul_le_mul_of_nonneg_right h (by norm_num)) hunit.le

instance (r : ℚ) : Decidable (IsWholeRate r) := inferInstanceAs (Decidable (_ ∧ _))

theorem abs_wholeRate_le (r : ℚ) : perKb r - 1 / 2 ≤ wholeRate r ∧ (wholeRate r : ℚ) ≤ perKb r + 1 / 2 := by
  have hle := Int.floor_le (perKb r + 1 / 2)
  have hlt := Int.lt_floor_add_one (perKb r + 1 / 2)
  have hw : (⌊perKb r + 1 / 2⌋ : ℤ) = wholeRate r := rfl
  rw [hw] at hle hlt
  exact ⟨by linarith, hle⟩

theorem wholeRate_mono (h : r ≤ r') : wholeRate r ≤ wholeRate r' :=
  Int.floor_le_floor (by have := perKb_mono h; unfold perKb at this; linarith)

theorem wholeRate_nonneg (hr : 0 ≤ r) : 0 ≤ wholeRate r :=
  Int.floor_nonneg.mpr (by have := perKb_nonneg hr; unfold perKb at this; linarith)

/-- The fee per byte before the ceiling. -/
def feeSlope (r : ℚ) : ℚ :=
  if IsWholeRate r then wholeRate r / 1000 else perKb r / 1000 * (1 - 1 / 10 ^ 12)

/-- The size is one the whole-rate branch takes, or no rate would be. -/
def SafeSize (n : ℕ) (r : ℚ) : Prop := (n : ℤ) ≤ maxSafeInteger ∨ ¬ IsWholeRate r

theorem ediv_ceil (z : ℤ) : (z + 999) / 1000 = ⌈(z : ℚ) / 1000⌉ := by
  have hlo : 1000 * ((z + 999) / 1000) ≤ z + 999 := Int.mul_ediv_self_le (by norm_num)
  have hhi : z + 999 < 1000 * ((z + 999) / 1000) + 1000 := by omega
  have hlo' : (1000 : ℚ) * ((z + 999) / 1000 : ℤ) ≤ z + 999 := by exact_mod_cast hlo
  have hhi' : (z : ℚ) + 999 < 1000 * ((z + 999) / 1000 : ℤ) + 1000 := by exact_mod_cast hhi
  have hz : (z : ℚ) ≤ 1000 * ((z + 999) / 1000 : ℤ) := by
    have : z ≤ 1000 * ((z + 999) / 1000) := by omega
    exact_mod_cast this
  refine (Int.ceil_eq_iff.mpr ⟨?_, ?_⟩).symm
  · rw [lt_div_iff₀ (by norm_num)]
    linarith
  · rw [div_le_iff₀ (by norm_num)]
    linarith

theorem feeForVsize_shaved (hr : 0 ≤ r) (h : ¬ ((n : ℤ) ≤ maxSafeInteger ∧ IsWholeRate r)) :
    feeForVsize n r = ⌈(n : ℚ) * (perKb r / 1000 * (1 - 1 / 10 ^ 12))⌉ := by
  have hexact : (n : ℚ) * r * satoshiUnit = n * (perKb r / 1000) := by
    unfold perKb
    ring
  have hpos : (0 : ℚ) ≤ n * (perKb r / 1000) := by
    have := perKb_nonneg hr
    positivity
  unfold feeForVsize
  dsimp only
  rw [hexact]
  rcases hpos.eq_or_lt with hzero | hpos'
  · rw [if_pos (by rw [← hzero]; exact lt_irrefl 0), ← mul_assoc, ← hzero, zero_mul]
  · rw [if_neg (not_not_intro hpos'), if_neg fun hw => h ⟨hw.1, hw.2⟩, abs_of_nonneg hpos]
    congr 1
    ring

/-- **The fee is the ceiling of one slope.** -/
theorem feeForVsize_eq_ceil (hr : 0 ≤ r) (hn : SafeSize n r) :
    feeForVsize n r = ⌈(n : ℚ) * feeSlope r⌉ := by
  by_cases hw : IsWholeRate r
  · have hsafe := hn.resolve_right (not_not_intro hw)
    rw [feeSlope, if_pos hw]
    rcases Nat.eq_zero_or_pos n with rfl | hpos
    · simp
    rcases hr.eq_or_lt with rfl | hrpos
    · have hzero : wholeRate 0 = 0 := by decide +kernel
      simp [feeForVsize, hzero]
    · rw [feeForVsize_whole hrpos hw hpos hsafe, ediv_ceil]
      congr 1
      push_cast
      ring
  · rw [feeSlope, if_neg hw]
    exact feeForVsize_shaved hr fun h => hw h.2

theorem feeSlope_nonneg (hr : 0 ≤ r) : 0 ≤ feeSlope r := by
  unfold feeSlope
  split_ifs
  · have : (0 : ℚ) ≤ wholeRate r := by exact_mod_cast wholeRate_nonneg hr
    positivity
  · have := perKb_nonneg hr
    have hshave : (0 : ℚ) ≤ 1 - 1 / 10 ^ 12 := by norm_num
    positivity

/-! ## The border between the branches -/

/-- A rate off its whole rate is off by more than the tolerance, unless the whole rate is unsafe. -/
theorem not_isWholeRate (hw : ¬ IsWholeRate r) (hsafe : |wholeRate r| ≤ maxSafeInteger) :
    1 / 10 ^ 9 * max 1 (wholeRate r : ℚ) < |perKb r - wholeRate r| := by
  by_contra h
  exact hw ⟨hsafe, not_lt.mp h⟩

theorem wholeRate_le_shaved (hr : 0 ≤ r) (h : r ≤ r') (hw : IsWholeRate r) (hw' : ¬ IsWholeRate r')
    (hsafe : wholeRate r' ≤ maxSafeInteger) :
    (wholeRate r : ℚ) ≤ perKb r' * (1 - 1 / 10 ^ 12) := by
  have hnonneg : (0 : ℚ) ≤ wholeRate r := by exact_mod_cast wholeRate_nonneg hr
  have hmono := wholeRate_mono h
  have habs : |wholeRate r'| ≤ maxSafeInteger := by
    rwa [abs_of_nonneg (wholeRate_nonneg (hr.trans h))]
  have hoff := not_isWholeRate hw' habs
  obtain ⟨hlo, hhi⟩ := abs_wholeRate_le r'
  have hrate := perKb_mono h
  have hnear : |perKb r - wholeRate r| ≤ 1 / 10 ^ 9 * max 1 (wholeRate r : ℚ) := hw.2
  rcases hmono.eq_or_lt with heq | hlt
  · -- Off the same whole rate by more than the tolerance, and not from below.
    rw [← heq] at hoff hlo hhi
    have hone := le_max_left (1 : ℚ) (wholeRate r)
    have hmax := le_max_right (1 : ℚ) (wholeRate r)
    obtain ⟨hnear', -⟩ := abs_le.mp hnear
    rcases lt_abs.mp hoff with habove | hbelow
    · linarith
    · linarith
  · -- At least half a unit over the next whole rate but one.
    have hstep : (wholeRate r : ℚ) + 1 ≤ wholeRate r' := by exact_mod_cast hlt
    have hhalf : |perKb r' - wholeRate r'| ≤ 1 / 2 := by
      rw [abs_le]
      exact ⟨by linarith, by linarith⟩
    have hsmall : (wholeRate r' : ℚ) ≤ 10 ^ 9 / 2 := by
      have := le_max_right (1 : ℚ) (wholeRate r')
      linarith
    linarith

theorem perKb_le_wholeRate (hr : 0 ≤ r) (h : r ≤ r') (hw : ¬ IsWholeRate r) (hw' : IsWholeRate r') :
    perKb r ≤ wholeRate r' := by
  have hmono := wholeRate_mono h
  have habs : |wholeRate r| ≤ maxSafeInteger := by
    have hsafe' := hw'.1
    rw [abs_of_nonneg (wholeRate_nonneg (hr.trans h))] at hsafe'
    rw [abs_of_nonneg (wholeRate_nonneg hr)]
    exact hmono.trans hsafe'
  have hoff := not_isWholeRate hw habs
  have hnear : |perKb r' - wholeRate r'| ≤ 1 / 10 ^ 9 * max 1 (wholeRate r' : ℚ) := hw'.2
  have hrate := perKb_mono h
  obtain ⟨hlo, -⟩ := abs_wholeRate_le r
  rcases hmono.eq_or_lt with heq | hlt
  · rw [heq] at hoff
    obtain ⟨-, hnear'⟩ := abs_le.mp hnear
    rcases lt_abs.mp hoff with habove | hbelow
    · linarith
    · have hone := le_max_left (1 : ℚ) (wholeRate r')
      linarith
  · have hstep : (wholeRate r : ℚ) + 1 ≤ wholeRate r' := by exact_mod_cast hlt
    linarith

/-- **The slope is monotone**, where both whole rates are safe integers or both are not. -/
theorem feeSlope_mono (hr : 0 ≤ r) (h : r ≤ r')
    (hsafe : wholeRate r' ≤ maxSafeInteger ∨ maxSafeInteger < wholeRate r) :
    feeSlope r ≤ feeSlope r' := by
  have hrate := perKb_mono h
  unfold feeSlope
  split_ifs with hw hw' hw'
  · have hmono : (wholeRate r : ℚ) ≤ wholeRate r' := by exact_mod_cast wholeRate_mono h
    linarith
  · have hle : |wholeRate r| ≤ maxSafeInteger := hw.1
    rw [abs_of_nonneg (wholeRate_nonneg hr)] at hle
    have := wholeRate_le_shaved hr h hw hw' (hsafe.resolve_right (not_lt.mpr hle))
    linarith
  · have hle := perKb_le_wholeRate hr h hw hw'
    have hpos := perKb_nonneg hr
    linarith
  · linarith

/-! ## The fee -/

theorem feeForVsize_nonneg (hr : 0 ≤ r) (n : ℕ) : 0 ≤ feeForVsize n r := by
  by_cases hn : SafeSize n r
  · rw [feeForVsize_eq_ceil hr hn]
    exact Int.ceil_nonneg (mul_nonneg (Nat.cast_nonneg n) (feeSlope_nonneg hr))
  · rw [feeForVsize_shaved hr fun h => hn (.inl h.1)]
    have hpos := perKb_nonneg hr
    have hshave : (0 : ℚ) ≤ 1 - 1 / 10 ^ 12 := by norm_num
    exact Int.ceil_nonneg (by positivity)

theorem SafeSize.mono (h : SafeSize n r) (hm : m ≤ n) : SafeSize m r :=
  h.imp_left fun hn => (Int.ofNat_le.mpr hm).trans hn

/-- The fee grows with the size. -/
theorem feeForVsize_mono (hr : 0 ≤ r) (hn : SafeSize n r) (hm : m ≤ n) :
    feeForVsize m r ≤ feeForVsize n r := by
  rw [feeForVsize_eq_ceil hr hn, feeForVsize_eq_ceil hr (hn.mono hm)]
  have hcast : (m : ℚ) ≤ n := by exact_mod_cast hm
  exact Int.ceil_le_ceil (mul_le_mul_of_nonneg_right hcast (feeSlope_nonneg hr))

/-- The fee grows with the rate. -/
theorem feeForVsize_mono_rate (hr : 0 ≤ r) (h : r ≤ r')
    (hsafe : maxSafeInteger < n ∨ wholeRate r' ≤ maxSafeInteger ∨ maxSafeInteger < wholeRate r) :
    feeForVsize n r ≤ feeForVsize n r' := by
  have hrate := perKb_mono h
  have hn : (0 : ℚ) ≤ n := Nat.cast_nonneg n
  by_cases hsize : (n : ℤ) ≤ maxSafeInteger
  · rw [feeForVsize_eq_ceil hr (.inl hsize), feeForVsize_eq_ceil (hr.trans h) (.inl hsize)]
    have hslope := feeSlope_mono hr h (hsafe.resolve_left (not_lt.mpr hsize))
    exact Int.ceil_le_ceil (mul_le_mul_of_nonneg_left hslope hn)
  · rw [feeForVsize_shaved hr fun hs => hsize hs.1, feeForVsize_shaved (hr.trans h) fun hs => hsize hs.1]
    refine Int.ceil_le_ceil (mul_le_mul_of_nonneg_left ?_ hn)
    linarith

/-- **Parts priced on their own never come to less than the whole.** -/
theorem feeForVsize_add_le (hr : 0 ≤ r) (hsafe : SafeSize (m + n) r) :
    feeForVsize (m + n) r ≤ feeForVsize m r + feeForVsize n r := by
  rw [feeForVsize_eq_ceil hr hsafe, feeForVsize_eq_ceil hr (hsafe.mono (Nat.le_add_right m n)),
    feeForVsize_eq_ceil hr (hsafe.mono (Nat.le_add_left n m)), Nat.cast_add, add_mul]
  exact Int.ceil_add_le ..

theorem feeForVsize_sum_le (hr : 0 ≤ r) (sizes : List ℕ) (hsafe : SafeSize sizes.sum r) :
    feeForVsize sizes.sum r ≤ (sizes.map fun n => feeForVsize n r).sum := by
  induction sizes with
  | nil => simp
  | cons n sizes ih =>
    rw [List.sum_cons] at hsafe ⊢
    rw [List.map_cons, List.sum_cons]
    refine (feeForVsize_add_le hr hsafe).trans (Int.add_le_add_left (ih ?_) _)
    exact hsafe.mono (Nat.le_add_left _ n)

theorem feeForVsize_perKb {k : ℕ} (hk : perKb r = k) (hn : (n : ℤ) ≤ maxSafeInteger)
    (hsafe : (k : ℤ) ≤ maxSafeInteger) : feeForVsize n r = ⌈(n * k : ℚ) / 1000⌉ := by
  have hr : 0 ≤ r := by
    by_contra hneg
    have hunit : (0 : ℚ) < satoshiUnit := by decide
    have hlt : perKb r < 0 := by
      unfold perKb
      exact mul_neg_of_neg_of_pos (by linarith [not_le.mp hneg]) hunit
    rw [hk] at hlt
    exact absurd hlt (not_lt.mpr (Nat.cast_nonneg k))
  have hwhole : wholeRate r = k := by
    show ⌊perKb r + 1 / 2⌋ = (k : ℤ)
    rw [hk, Int.floor_eq_iff]
    constructor
    · push_cast
      linarith
    · push_cast
      linarith
  have hw : IsWholeRate r := by
    refine ⟨by rw [hwhole, Nat.abs_cast]; exact hsafe, ?_⟩
    show |perKb r - wholeRate r| ≤ _
    rw [hwhole, hk]
    have := le_max_left (1 : ℚ) (k : ℤ)
    simp only [Int.cast_natCast, sub_self, abs_zero]
    positivity
  rw [feeForVsize_eq_ceil hr (.inl hn), feeSlope, if_pos hw, hwhole]
  congr 1
  push_cast
  ring

/-- **The fee is at least the size at the rate, up to the tolerance of the whole rates.** -/
theorem le_feeForVsize (hr : 0 ≤ r) (n : ℕ) :
    n * (perKb r - 1 / 10 ^ 9 * max 1 (perKb r)) / 1000 ≤ (feeForVsize n r : ℚ) := by
  have hn : (0 : ℚ) ≤ n := Nat.cast_nonneg n
  have hpos := perKb_nonneg hr
  have hmax := le_max_right (1 : ℚ) (perKb r)
  have hshaved : perKb r - 1 / 10 ^ 9 * max 1 (perKb r) ≤ perKb r * (1 - 1 / 10 ^ 12) := by linarith
  by_cases hsafe : SafeSize n r
  · rw [feeForVsize_eq_ceil hr hsafe]
    refine le_trans ?_ (Int.le_ceil _)
    rw [mul_div_assoc]
    refine mul_le_mul_of_nonneg_left ?_ hn
    unfold feeSlope
    split_ifs with hw
    · have hnear : |perKb r - wholeRate r| ≤ 1 / 10 ^ 9 * max 1 (wholeRate r : ℚ) := hw.2
      obtain ⟨-, habove⟩ := abs_le.mp hnear
      rcases le_total (wholeRate r : ℚ) (perKb r) with hle | hle
      · have := max_le_max (le_refl (1 : ℚ)) hle
        linarith
      · have := le_max_left (1 : ℚ) (perKb r)
        linarith
    · linarith
  · rw [feeForVsize_shaved hr fun h => hsafe (.inl h.1)]
    refine le_trans ?_ (Int.le_ceil _)
    rw [mul_div_assoc]
    refine mul_le_mul_of_nonneg_left ?_ hn
    linarith

/-- What the fee owes its callers at every rate that is not negative. -/
structure RoundsSafely : Prop where
  /-- Not under the size at the rate by more than 1e-9 of it, or of one base unit per kB. -/
  atLeast : ∀ (n : ℕ) (r : ℚ), 0 ≤ r →
    n * (perKb r - 1 / 10 ^ 9 * max 1 (perKb r)) / 1000 ≤ (feeForVsize n r : ℚ)
  /-- Exact at whole rates. -/
  whole : ∀ (n k : ℕ) (r : ℚ), perKb r = k → (n : ℤ) ≤ maxSafeInteger → (k : ℤ) ≤ maxSafeInteger →
    feeForVsize n r = ⌈(n * k : ℚ) / 1000⌉
  size : ∀ (m n : ℕ) (r : ℚ), 0 ≤ r → SafeSize n r → m ≤ n → feeForVsize m r ≤ feeForVsize n r
  rate : ∀ (n : ℕ) (r r' : ℚ), 0 ≤ r → r ≤ r' →
    maxSafeInteger < n ∨ wholeRate r' ≤ maxSafeInteger ∨ maxSafeInteger < wholeRate r →
    feeForVsize n r ≤ feeForVsize n r'
  /-- Parts priced on their own never come to less than the whole. -/
  parts : ∀ (sizes : List ℕ) (r : ℚ), 0 ≤ r → SafeSize sizes.sum r →
    feeForVsize sizes.sum r ≤ (sizes.map fun n => feeForVsize n r).sum

/-- **`feeForVsize` rounds safely.** -/
theorem feeForVsize_roundsSafely : RoundsSafely where
  atLeast n _ hr := le_feeForVsize hr n
  whole _ _ _ hk hn hsafe := feeForVsize_perKb hk hn hsafe
  size _ _ _ hr hn hm := feeForVsize_mono hr hn hm
  rate _ _ _ hr h hsafe := feeForVsize_mono_rate hr h hsafe
  parts sizes _ hr hsafe := feeForVsize_sum_le hr sizes hsafe

/-- **Outside the tolerances**: a rate of 1e-9 base units per kB costs nothing, and one byte past the
safe integers a whole rate is shaved under its exact fee, and under the fee of a smaller size. -/
theorem feeForVsize_outside :
    (∃ n r, 0 ≤ r ∧ (feeForVsize n r : ℚ) < n * perKb r / 1000 * (1 - 1 / 10 ^ 9)) ∧
    (∃ n k : ℕ, ∃ r, perKb r = k ∧ feeForVsize n r ≠ ⌈(n * k : ℚ) / 1000⌉) ∧
    ∃ m n r, 0 ≤ r ∧ m ≤ n ∧ feeForVsize n r < feeForVsize m r := by
  refine ⟨⟨1, 1 / 10 ^ 20, by norm_num, ?_⟩, ⟨9007199254740992, 1000, 1 / 10 ^ 8, ?_, ?_⟩,
    9007199254740991, 9007199254740992, 1 / 10 ^ 8, by norm_num, by norm_num, ?_⟩
  all_goals decide +kernel

end XChain
