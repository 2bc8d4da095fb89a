import XChainEncoder.ActionDataChecks
import XChainEncoder.Psbt
import Mathlib.Data.Nat.Digits.Defs
import Mathlib.Data.Nat.Log

/-!
# Satoshi amounts of a request

What the request surface makes of an amount: a string of digits, a number or a bigint.

* `JsNumber`, `JsValue`, `roundNat`: values of the language, and the double nearest to a whole number;
* `toExactInt`, `JsValue.parseSatoshiAmount`: the parser, with its detour over the double;
* `JsValue.integer?`, `JsValue.ceiling`: the integer a value denotes, and the greatest one it may;
* `isSafeInteger_roundNat`: **the double is a safe integer exactly when the digits are**;
* `parseSatoshiAmount_eq_ok_iff`, **`parseSatoshiAmount_exact`**: what is accepted is the integer that
  is denoted, and reads back as itself.
-/

namespace XChain

/-! ## Values of the language -/

/-- A number: doubles are exact rationals, and `-0` is `0`. -/
inductive JsNumber where
  | nan
  | infinity (negative : Bool)
  | finite (value : ℚ)
  deriving DecidableEq

inductive JsValue where
  | string (s : CodeUnits)
  | number (x : JsNumber)
  | bigint (z : ℤ)
  | other
  deriving DecidableEq

namespace JsNumber

def isNaN : JsNumber → Bool
  | nan => true
  | _ => false

/-- The comparison `x < 0`. -/
def isNegative : JsNumber → Bool
  | nan => false
  | infinity negative => negative
  | finite v => v < 0

def isInteger : JsNumber → Bool
  | finite v => v.den = 1
  | _ => false

def isSafeInteger : JsNumber → Bool
  | finite v => v.den = 1 && |v.num| ≤ maxSafeInteger
  | _ => false

def neg : JsNumber → JsNumber
  | nan => nan
  | infinity negative => infinity !negative
  | finite v => finite (-v)

/-- The double nearest to a whole number, ties to even; past the greatest double it is infinite. -/
def roundNat (n : ℕ) : JsNumber :=
  if n < 2 ^ 53 then finite n
  else
    let e := n.log2 - 52
    let q := n / 2 ^ e
    let up := 2 ^ e < 2 * (n % 2 ^ e) ∨ (2 ^ e = 2 * (n % 2 ^ e) ∧ q % 2 = 1)
    let d : ℕ := (if up then q + 1 else q) * 2 ^ e
    if d < 2 ^ 1024 then finite d else infinity false

end JsNumber

/-! ## Digits -/

def isDigit (u : UInt16) : Bool := 0x30 ≤ u && u ≤ 0x39

/-- White space and line terminators. -/
def isWhiteSpace (u : UInt16) : Bool :=
  [0x09, 0x0a, 0x0b, 0x0c, 0x0d, 0x20, 0xa0, 0x1680, 0x2028, 0x2029, 0x202f, 0x205f, 0x3000,
    0xfeff].contains u || (0x2000 ≤ u && u ≤ 0x200a)

/-- `String.prototype.trim`. -/
def trim (s : CodeUnits) : CodeUnits :=
  ((s.dropWhile isWhiteSpace).reverse.dropWhile isWhiteSpace).reverse

/-- An optional minus sign, and the rest. -/
def splitSign : CodeUnits → Bool × CodeUnits
  | [] => (false, [])
  | u :: rest => if u = 0x2d then (true, rest) else (false, u :: rest)

/-- The sign and the digits of a string that matches `/^-?\d+$/`. -/
def signedDigits? (s : CodeUnits) : Option (Bool × CodeUnits) :=
  if (splitSign s).2 ≠ [] ∧ (splitSign s).2.all isDigit then some (splitSign s) else none

def decimalValue (digits : CodeUnits) : ℕ :=
  digits.foldl (fun v u => 10 * v + (u.toNat - 48)) 0

/-- `BigInt` of a sign and digits. -/
def bigIntOf (sd : Bool × CodeUnits) : ℤ :=
  if sd.1 then -(decimalValue sd.2 : ℤ) else decimalValue sd.2

/-- `Number` of a sign and digits. -/
def numberOf (sd : Bool × CodeUnits) : JsNumber :=
  if sd.1 then (JsNumber.roundNat (decimalValue sd.2)).neg else JsNumber.roundNat (decimalValue sd.2)

/-! ## The parser -/

def unitsText (s : CodeUnits) : String := String.ofList (s.map fun u => Char.ofNat u.toNat)

/-- At most 32 characters of the caller's text. -/
def truncateForMessage (s : CodeUnits) : String :=
  if 32 < s.length then s!"{unitsText (s.take 32)}...({s.length} chars)" else unitsText s

/-- The exact integer a number or a string of digits stands for, as a double. -/
def toExactInt : JsValue → JsNumber
  | .number x => if x.isInteger then x else .nan
  | .string s => match signedDigits? (trim s) with
    | some sd => numberOf sd
    | none => .nan
  | _ => .nan

namespace JsValue

/-- The text of the error about an amount that is too great; `numberText` writes a number out. -/
def tooGreat (numberText : JsNumber → String) (raw : JsValue) (label : String) (allowBig : Bool) :
    BuildError :=
  let quoted := match raw with
    | .string s => truncateForMessage s
    | raw => numberText (toExactInt raw)
  let hint := if allowBig then "; pass amounts above it as an exact decimal string" else ""
  ParamRangeError (s!"{label} ({quoted}) exceeds the maximum safe satoshi amount " ++
    s!"({maxSafeInteger}) and cannot be represented without precision loss" ++ hint)

def parseSatoshiAmount (numberText : JsNumber → String) (raw : JsValue) (label : String)
    (allowBig : Bool) : Except BuildError JsValue :=
  match raw with
  | .bigint z =>
    if z < 0 then .error (ParamRangeError s!"{label} must be a non-negative integer")
    else if z ≤ maxSafeInteger then .ok (.number (.finite z))
    else if !allowBig then .error (ParamRangeError
      (s!"{label} ({z}) exceeds the maximum safe satoshi amount ({maxSafeInteger}) and cannot be " ++
        "represented without precision loss"))
    else if maxSatoshiU64 < z then .error (ParamRangeError
      s!"{label} ({z}) exceeds the maximum 64-bit satoshi amount ({maxSatoshiU64})")
    else .ok (.bigint z)
  | raw =>
    let num := toExactInt raw
    if num.isNaN || num.isNegative then
      .error (ParamRangeError s!"{label} must be a non-negative integer")
    else if num.isSafeInteger then .ok (.number num)
    else
      match allowBig, raw with
      | true, .string s =>
        let big := ((signedDigits? (trim s)).map bigIntOf).getD 0
        if maxSatoshiU64 < big then .error (ParamRangeError
          (s!"{label} ({truncateForMessage (trim s)}) exceeds the maximum 64-bit satoshi amount " ++
            s!"({maxSatoshiU64})"))
        else .ok (.bigint big)
      | _, raw => .error (tooGreat numberText raw label allowBig)

/-! ## What a value denotes -/

/-- The integer a value denotes. -/
def integer? : JsValue → Option ℤ
  | .string s => (signedDigits? (trim s)).map bigIntOf
  | .number (.finite v) => if v.den = 1 then some v.num else none
  | .number _ => none
  | .bigint z => some z
  | .other => none

/-- The greatest amount a value may denote: numbers past the safe integers were rounded already. -/
def ceiling (raw : JsValue) (allowBig : Bool) : ℤ :=
  match raw with
  | .number _ => maxSafeInteger
  | _ => if allowBig then maxSatoshiU64 else maxSafeInteger

/-- An amount as the parser returns it: a number while that is exact. -/
def ofNat (n : ℕ) : JsValue :=
  if (n : ℤ) ≤ maxSafeInteger then .number (.finite n) else .bigint n

end JsValue

/-! ## The double classifies every string -/

theorem maxSafeInteger_eq : maxSafeInteger = ((2 ^ 53 - 1 : ℕ) : ℤ) := by decide

/-- **A whole number survives rounding while it is safe, and stays unsafe when it is not.** -/
theorem roundNat_spec (n : ℕ) :
    ((n : ℤ) ≤ maxSafeInteger ∧ JsNumber.roundNat n = .finite n) ∨
      maxSafeInteger < n ∧ ((∃ d : ℕ, maxSafeInteger < d ∧ JsNumber.roundNat n = .finite d) ∨
        JsNumber.roundNat n = .infinity false) := by
  rw [maxSafeInteger_eq]
  unfold JsNumber.roundNat
  by_cases hn : n < 2 ^ 53
  · refine .inl ⟨?_, if_pos hn⟩
    exact Int.ofNat_le.mpr (Nat.le_pred_of_lt hn)
  · refine .inr ⟨Int.ofNat_lt.mpr (by omega), ?_⟩
    rw [if_neg hn]
    have hge : 2 ^ 53 ≤ n := not_lt.mp hn
    have hlog : 53 ≤ n.log2 := (Nat.le_log2 (by omega)).mpr hge
    obtain ⟨e, he⟩ : ∃ e, n.log2 = e + 53 := ⟨n.log2 - 53, by omega⟩
    -- The kept bits alone are 53 bits long.
    have hq : 2 ^ 52 ≤ n / 2 ^ (e + 1) := by
      rw [Nat.le_div_iff_mul_le (by positivity), ← pow_add]
      calc 2 ^ (52 + (e + 1)) = 2 ^ n.log2 := by rw [he]; ring_nf
        _ ≤ n := Nat.log2_self_le (by omega)
    have hd : ∀ q', n / 2 ^ (e + 1) ≤ q' → 2 ^ 53 ≤ q' * 2 ^ (e + 1) := by
      intro q' hle
      calc 2 ^ 53 = 2 ^ 52 * 2 ^ 1 := by norm_num
        _ ≤ q' * 2 ^ (e + 1) :=
          Nat.mul_le_mul (hq.trans hle) (Nat.pow_le_pow_right (by norm_num) (by omega))
    rw [show n.log2 - 52 = e + 1 by omega]
    dsimp only
    generalize hup : (if 2 ^ (e + 1) < 2 * (n % 2 ^ (e + 1)) ∨
      2 ^ (e + 1) = 2 * (n % 2 ^ (e + 1)) ∧ n / 2 ^ (e + 1) % 2 = 1 then n / 2 ^ (e + 1) + 1
      else n / 2 ^ (e + 1)) = q'
    have hle : n / 2 ^ (e + 1) ≤ q' := by
      rw [← hup]
      split_ifs <;> omega
    have hbig := hd q' hle
    by_cases hmax : q' * 2 ^ (e + 1) < 2 ^ 1024
    · exact .inl ⟨q' * 2 ^ (e + 1), Int.ofNat_lt.mpr (by omega), if_pos hmax⟩
    · exact .inr (if_neg hmax)

theorem isSafeInteger_natCast (n : ℕ) :
    (JsNumber.finite n).isSafeInteger = decide ((n : ℤ) ≤ maxSafeInteger) := by
  simp [JsNumber.isSafeInteger]

/-- **The double is a safe integer exactly when the digits are.** -/
theorem isSafeInteger_roundNat (n : ℕ) :
    (JsNumber.roundNat n).isSafeInteger = decide ((n : ℤ) ≤ maxSafeInteger) := by
  rcases roundNat_spec n with ⟨hn, heq⟩ | ⟨hn, ⟨d, hd, heq⟩ | heq⟩
  · rw [heq, isSafeInteger_natCast]
  · rw [heq, isSafeInteger_natCast, decide_eq_false (not_le.mpr hd), decide_eq_false (not_le.mpr hn)]
  · rw [heq, decide_eq_false (not_le.mpr hn)]
    rfl

theorem roundNat_nonneg (n : ℕ) :
    ((JsNumber.roundNat n).isNaN || (JsNumber.roundNat n).isNegative) = false := by
  have hcast : ∀ d : ℕ, (JsNumber.finite d).isNegative = false := fun d =>
    decide_eq_false (not_lt.mpr (Nat.cast_nonneg d))
  rcases roundNat_spec n with ⟨-, heq⟩ | ⟨-, ⟨d, -, heq⟩ | heq⟩
  · rw [heq, hcast]
    rfl
  · rw [heq, hcast]
    rfl
  · rw [heq]
    rfl

theorem neg_roundNat_isNegative {n : ℕ} (hn : 0 < n) : (JsNumber.roundNat n).neg.isNegative = true := by
  have hcast : ∀ d : ℕ, 0 < d → (JsNumber.finite d).neg.isNegative = true := fun d hd => by
    have : (0 : ℚ) < d := by exact_mod_cast hd
    exact decide_eq_true (by linarith)
  rcases roundNat_spec n with ⟨-, heq⟩ | ⟨-, ⟨d, hd, heq⟩ | heq⟩
  · rw [heq]
    exact hcast n hn
  · rw [heq]
    refine hcast d (Nat.pos_of_ne_zero ?_)
    rintro rfl
    exact absurd hd (by decide)
  · rw [heq]
    rfl

/-! ## What is accepted -/

namespace JsValue

variable (numberText : JsNumber → String) (label : String) (allowBig : Bool)

theorem ofNat_of_le {n : ℕ} (h : (n : ℤ) ≤ maxSafeInteger) : ofNat n = .number (.finite n) := if_pos h

theorem ofNat_of_lt {n : ℕ} (h : maxSafeInteger < n) : ofNat n = .bigint n := if_neg (not_le.mpr h)

theorem integer?_ofNat (n : ℕ) : (ofNat n).integer? = some (n : ℤ) := by
  unfold ofNat
  split_ifs
  · simp [integer?]
  · rfl

/-- What a value denotes, where the parser accepts it. -/
def Accepts (raw : JsValue) (allowBig : Bool) (v : JsValue) : Prop :=
  ∃ n : ℕ, raw.integer? = some (n : ℤ) ∧ (n : ℤ) ≤ raw.ceiling allowBig ∧ v = ofNat n

theorem parse_bigint (z : ℤ) (v : JsValue) :
    parseSatoshiAmount numberText (.bigint z) label allowBig = .ok v ↔
      Accepts (.bigint z) allowBig v := by
  unfold parseSatoshiAmount Accepts
  simp only [integer?, ceiling, Option.some.injEq]
  constructor
  · intro h
    split_ifs at h with hneg hsafe hbig hmax
    · obtain ⟨n, rfl⟩ := Int.eq_ofNat_of_zero_le (not_lt.mp hneg)
      cases h
      refine ⟨n, rfl, ?_, (ofNat_of_le hsafe).symm⟩
      split_ifs
      · exact hsafe.trans (by decide)
      · exact hsafe
    · obtain ⟨n, rfl⟩ := Int.eq_ofNat_of_zero_le (not_lt.mp hneg)
      cases h
      refine ⟨n, rfl, ?_, (ofNat_of_lt (not_le.mp hsafe)).symm⟩
      rw [if_pos (by simpa using hbig)]
      exact not_lt.mp hmax
  · rintro ⟨n, rfl, hle, rfl⟩
    rw [if_neg (not_lt.mpr (Int.natCast_nonneg n))]
    by_cases hsafe : (n : ℤ) ≤ maxSafeInteger
    · rw [if_pos hsafe, ofNat_of_le hsafe]
      rfl
    · cases allowBig with
      | false => exact absurd hle hsafe
      | true =>
        have hmax : (n : ℤ) ≤ maxSatoshiU64 := hle
        rw [if_neg hsafe, if_neg (by decide), if_neg (not_lt.mpr hmax), ofNat_of_lt (not_le.mp hsafe)]

theorem parse_number (x : JsNumber) (v : JsValue) :
    parseSatoshiAmount numberText (.number x) label allowBig = .ok v ↔
      Accepts (.number x) allowBig v := by
  have hbranch : parseSatoshiAmount numberText (.number x) label allowBig =
      if (toExactInt (.number x)).isNaN || (toExactInt (.number x)).isNegative then
        .error (ParamRangeError s!"{label} must be a non-negative integer")
      else if (toExactInt (.number x)).isSafeInteger then .ok (.number (toExactInt (.number x)))
      else .error (tooGreat numberText (.number x) label allowBig) := by
    unfold parseSatoshiAmount
    cases allowBig <;> rfl
  rw [hbranch]
  unfold Accepts
  cases x with
  | nan => simp [toExactInt, JsNumber.isInteger, JsNumber.isNaN, integer?]
  | infinity negative => simp [toExactInt, JsNumber.isInteger, JsNumber.isNaN, integer?]
  | finite q =>
    by_cases hden : q.den = 1
    · obtain ⟨z, rfl⟩ : ∃ z : ℤ, q = z := ⟨q.num, (Rat.den_eq_one_iff q).mp hden |>.symm⟩
      have hexact : toExactInt (.number (.finite z)) = .finite z := by
        simp [toExactInt, JsNumber.isInteger]
      have hsafe : (JsNumber.finite z).isSafeInteger = true ↔ |z| ≤ maxSafeInteger := by
        simp only [JsNumber.isSafeInteger, Bool.and_eq_true, decide_eq_true_eq]
        exact and_iff_right rfl
      rw [hexact]
      simp only [hsafe, integer?, ceiling, JsNumber.isNaN, JsNumber.isNegative, Rat.den_intCast,
        Rat.num_intCast, Bool.false_or, decide_eq_true_eq, if_true, Option.some.injEq]
      constructor
      · intro h
        split_ifs at h with hneg hsafe
        have hnonneg : 0 ≤ z := by exact_mod_cast not_lt.mp hneg
        obtain ⟨n, rfl⟩ := Int.eq_ofNat_of_zero_le hnonneg
        cases h
        rw [Nat.abs_cast] at hsafe
        exact ⟨n, rfl, hsafe, by rw [ofNat_of_le hsafe]; rfl⟩
      · rintro ⟨n, rfl, hle, rfl⟩
        have hneg : ¬ ((n : ℤ) : ℚ) < 0 := not_lt.mpr (by exact_mod_cast Nat.zero_le n)
        rw [if_neg hneg, if_pos (by rwa [Nat.abs_cast]), ofNat_of_le hle]
        rfl
    · simp [toExactInt, JsNumber.isInteger, JsNumber.isNaN, integer?, hden]

theorem parse_digits {s : CodeUnits} {sd : Bool × CodeUnits} (h : signedDigits? (trim s) = some sd) :
    parseSatoshiAmount numberText (.string s) label allowBig =
      if (numberOf sd).isNaN || (numberOf sd).isNegative then
        .error (ParamRangeError s!"{label} must be a non-negative integer")
      else if (numberOf sd).isSafeInteger then .ok (.number (numberOf sd))
      else if allowBig then
        if maxSatoshiU64 < bigIntOf sd then .error (ParamRangeError
          (s!"{label} ({truncateForMessage (trim s)}) exceeds the maximum 64-bit satoshi amount " ++
            s!"({maxSatoshiU64})"))
        else .ok (.bigint (bigIntOf sd))
      else .error (tooGreat numberText (.string s) label allowBig) := by
  have hexact : toExactInt (.string s) = numberOf sd := by
    unfold toExactInt
    simp only [h]
  unfold parseSatoshiAmount
  simp only [hexact]
  cases allowBig with
  | false => rfl
  | true => simp only [h, Option.map_some, Option.getD_some, if_true]

theorem parse_string (s : CodeUnits) (v : JsValue) :
    parseSatoshiAmount numberText (.string s) label allowBig = .ok v ↔
      Accepts (.string s) allowBig v := by
  cases hdigits : signedDigits? (trim s) with
  | none =>
    have hexact : toExactInt (.string s) = .nan := by
      unfold toExactInt
      simp only [hdigits]
    simp [parseSatoshiAmount, hexact, JsNumber.isNaN, Accepts, integer?, hdigits]
  | some sd =>
    rw [parse_digits numberText label allowBig hdigits]
    unfold Accepts
    simp only [integer?, hdigits, Option.map_some, Option.some.injEq, ceiling]
    obtain ⟨negative, digits⟩ := sd
    cases negative with
    | true =>
      -- A minus sign is only accepted before zero.
      simp only [numberOf, bigIntOf, if_true]
      rcases Nat.eq_zero_or_pos (decimalValue digits) with hzero | hpos
      · have hround : (JsNumber.roundNat (decimalValue digits)).neg = .finite 0 := by
          rw [hzero]
          decide +kernel
        rw [hround, hzero]
        have hsafe : (0 : ℤ) ≤ if allowBig then maxSatoshiU64 else maxSafeInteger := by
          cases allowBig <;> decide
        constructor
        · intro h
          cases h
          exact ⟨0, by simp, hsafe, rfl⟩
        · rintro ⟨n, hn, -, rfl⟩
          obtain rfl : n = 0 := by simpa using hn.symm
          rfl
      · rw [neg_roundNat_isNegative hpos, Bool.or_true, if_pos rfl]
        constructor
        · rintro ⟨⟩
        · rintro ⟨n, hn, -⟩
          omega
    | false =>
      simp only [numberOf, bigIntOf, Bool.false_eq_true, if_false, roundNat_nonneg,
        isSafeInteger_roundNat, decide_eq_true_eq, Nat.cast_inj]
      generalize decimalValue digits = n
      by_cases hsafe : (n : ℤ) ≤ maxSafeInteger
      · have hround : JsNumber.roundNat n = .finite n := by
          rcases roundNat_spec n with ⟨-, heq⟩ | ⟨hlt, -⟩
          · exact heq
          · exact absurd hsafe (not_le.mpr hlt)
        rw [if_pos hsafe, hround]
        constructor
        · intro h
          cases h
          refine ⟨n, rfl, ?_, (ofNat_of_le hsafe).symm⟩
          cases allowBig with
          | true => exact hsafe.trans (by decide)
          | false => exact hsafe
        · rintro ⟨m, rfl, -, rfl⟩
          rw [ofNat_of_le hsafe]
      · rw [if_neg hsafe]
        cases allowBig with
        | false =>
          simp only [Bool.false_eq_true, if_false]
          constructor
          · rintro ⟨⟩
          · rintro ⟨m, rfl, hle, -⟩
            exact absurd hle hsafe
        | true =>
          simp only [if_true]
          constructor
          · intro h
            split_ifs at h with hmax
            cases h
            exact ⟨n, rfl, not_lt.mp hmax, (ofNat_of_lt (not_le.mp hsafe)).symm⟩
          · rintro ⟨m, rfl, hle, rfl⟩
            rw [if_neg (not_lt.mpr hle), ofNat_of_lt (not_le.mp hsafe)]

/-- **The parser accepts exactly the amounts under the ceiling, and returns what they denote.** -/
theorem parseSatoshiAmount_eq_ok_iff (raw v : JsValue) :
    parseSatoshiAmount numberText raw label allowBig = .ok v ↔ Accepts raw allowBig v := by
  cases raw with
  | string s => exact parse_string numberText label allowBig s v
  | number x => exact parse_number numberText label allowBig x v
  | bigint z => exact parse_bigint numberText label allowBig z v
  | other => simp [parseSatoshiAmount, toExactInt, JsNumber.isNaN, Accepts, integer?]

end JsValue

/-! ## Decimal strings -/

/-- The decimal string of a whole number. -/
def decimalString (n : ℕ) : CodeUnits :=
  if n = 0 then [0x30] else (Nat.digits 10 n).reverse.map fun d => UInt16.ofNat (0x30 + d)

theorem digit_toNat {d : ℕ} (hd : d < 10) : (UInt16.ofNat (0x30 + d)).toNat = 0x30 + d := by
  rw [UInt16.toNat_ofNat']
  exact Nat.mod_eq_of_lt (by omega)

theorem isDigit_iff (u : UInt16) : isDigit u = true ↔ 48 ≤ u.toNat ∧ u.toNat ≤ 57 := by
  simp [isDigit, UInt16.le_iff_toNat_le]

theorem isWhiteSpace_digit {u : UInt16} (h : isDigit u = true) : isWhiteSpace u = false := by
  obtain ⟨hlo, hhi⟩ := (isDigit_iff u).mp h
  by_contra hws
  simp only [isWhiteSpace, Bool.not_eq_false, Bool.or_eq_true, List.contains_eq_mem,
    decide_eq_true_eq, List.mem_cons, List.not_mem_nil, or_false, Bool.and_eq_true,
    UInt16.le_iff_toNat_le, ← UInt16.toNat_inj] at hws
  simp only [UInt16.reduceToNat] at hws
  omega

theorem trim_of_digits {s : CodeUnits} (h : s.all isDigit = true) : trim s = s := by
  have hdrop : ∀ l : CodeUnits, l.all isDigit = true → l.dropWhile isWhiteSpace = l := by
    intro l hl
    cases l with
    | nil => rfl
    | cons u l =>
      rw [List.all_cons, Bool.and_eq_true] at hl
      rw [List.dropWhile_cons, isWhiteSpace_digit hl.1]
      rfl
  unfold trim
  rw [hdrop s h, hdrop s.reverse (by rw [List.all_reverse]; exact h), List.reverse_reverse]

theorem decimalValue_append (s : CodeUnits) (u : UInt16) :
    decimalValue (s ++ [u]) = 10 * decimalValue s + (u.toNat - 48) := by
  simp [decimalValue, List.foldl_append]

theorem decimalValue_digits {ds : List ℕ} (h : ∀ d ∈ ds, d < 10) :
    decimalValue (ds.reverse.map fun d => UInt16.ofNat (0x30 + d)) = Nat.ofDigits 10 ds := by
  induction ds with
  | nil => rfl
  | cons d ds ih =>
    rw [List.reverse_cons, List.map_append, List.map_singleton, decimalValue_append,
      ih fun d' hd => h d' (List.mem_cons_of_mem d hd), digit_toNat (h d List.mem_cons_self),
      Nat.ofDigits_cons]
    omega

theorem decimalString_spec (n : ℕ) : (decimalString n).all isDigit = true ∧ decimalString n ≠ [] ∧
    decimalValue (decimalString n) = n := by
  unfold decimalString
  split_ifs with hn
  · rw [hn]
    decide
  · refine ⟨?_, ?_, ?_⟩
    · rw [List.all_eq_true]
      intro u hu
      obtain ⟨d, hd, rfl⟩ := List.mem_map.mp hu
      have hlt := Nat.digits_lt_base (by norm_num) (List.mem_reverse.mp hd)
      rw [isDigit_iff, digit_toNat hlt]
      omega
    · rw [Ne, List.map_eq_nil_iff, List.reverse_eq_nil_iff]
      exact Nat.digits_ne_nil_iff_ne_zero.mpr hn
    · rw [decimalValue_digits fun d hd => Nat.digits_lt_base (by norm_num) hd, Nat.ofDigits_digits]

theorem integer?_decimalString (n : ℕ) :
    (JsValue.string (decimalString n)).integer? = some (n : ℤ) := by
  obtain ⟨hdigits, hne, hvalue⟩ := decimalString_spec n
  have hsign : splitSign (decimalString n) = (false, decimalString n) := by
    cases hs : decimalString n with
    | nil => exact absurd hs hne
    | cons u s =>
      rw [hs, List.all_cons, Bool.and_eq_true] at hdigits
      have hminus : u ≠ 0x2d := by
        rintro rfl
        exact absurd hdigits.1 (by decide)
      rw [splitSign, if_neg hminus]
  have hread : signedDigits? (decimalString n) = some (false, decimalString n) := by
    rw [signedDigits?, hsign, if_pos ⟨hne, hdigits⟩]
  simp only [JsValue.integer?, trim_of_digits hdigits, hread, Option.map_some, bigIntOf,
    Bool.false_eq_true, if_false, hvalue]

/-! ## Exact and idempotent -/

namespace JsValue

variable (numberText : JsNumber → String) (label : String) (allowBig : Bool)

theorem ceiling_le (raw : JsValue) :
    raw.ceiling allowBig ≤ if allowBig then maxSatoshiU64 else maxSafeInteger := by
  cases raw with
  | number x => cases allowBig <;> simp only [ceiling] <;> decide
  | string s => exact le_rfl
  | bigint z => exact le_rfl
  | other => exact le_rfl

/-- **An amount that was accepted is accepted again**, as it is and as its decimal string. -/
theorem accepts_again {raw v : JsValue} (h : Accepts raw allowBig v) :
    ∃ n : ℕ, raw.integer? = some (n : ℤ) ∧ v.integer? = some (n : ℤ) ∧ Accepts v allowBig v ∧
      Accepts (.string (decimalString n)) allowBig v := by
  obtain ⟨n, hn, hle, rfl⟩ := h
  have hmax := hle.trans (ceiling_le allowBig raw)
  refine ⟨n, hn, integer?_ofNat n, ⟨n, integer?_ofNat n, ?_, rfl⟩,
    n, integer?_decimalString n, hmax, rfl⟩
  by_cases hsafe : (n : ℤ) ≤ maxSafeInteger
  · rw [ofNat_of_le hsafe]
    exact hsafe
  · rw [ofNat_of_lt (not_le.mp hsafe)]
    exact hmax

/-- **`parseSatoshiAmount` is exact and idempotent**: it returns the one integer the input denotes,
under the ceiling of its type, and throws on every other input. -/
theorem parseSatoshiAmount_exact (raw : JsValue) :
    (∀ v, parseSatoshiAmount numberText raw label allowBig = .ok v →
      ∃ n : ℕ, raw.integer? = some (n : ℤ) ∧ v.integer? = some (n : ℤ) ∧
        (n : ℤ) ≤ (if allowBig then maxSatoshiU64 else maxSafeInteger) ∧
        parseSatoshiAmount numberText v label allowBig = .ok v ∧
        parseSatoshiAmount numberText (.string (decimalString n)) label allowBig = .ok v) ∧
    (∀ n : ℕ, raw.integer? = some (n : ℤ) → (n : ℤ) ≤ raw.ceiling allowBig →
      parseSatoshiAmount numberText raw label allowBig = .ok (ofNat n)) ∧
    (∀ q, raw = .number (.finite q) → (maxSafeInteger : ℚ) < q →
      ∃ e, parseSatoshiAmount numberText raw label allowBig = .error e) ∧
    (raw.integer? = none → ∃ e, parseSatoshiAmount numberText raw label allowBig = .error e) := by
  have hthrows : (∀ v, ¬ Accepts raw allowBig v) →
      ∃ e, parseSatoshiAmount numberText raw label allowBig = .error e := by
    intro hnone
    cases hparse : parseSatoshiAmount numberText raw label allowBig with
    | error e => exact ⟨e, rfl⟩
    | ok v => exact absurd ((parseSatoshiAmount_eq_ok_iff ..).mp hparse) (hnone v)
  refine ⟨fun v hv => ?_, fun n hn hle => ?_, fun q hq hlt => hthrows ?_, fun hn => hthrows ?_⟩
  · have haccepts := (parseSatoshiAmount_eq_ok_iff ..).mp hv
    obtain ⟨n, hn, hv', hagain, hstring⟩ := accepts_again allowBig haccepts
    obtain ⟨m, hm, hle, -⟩ := haccepts
    obtain rfl : m = n := by exact_mod_cast Option.some.inj (hm.symm.trans hn)
    exact ⟨m, hn, hv', hle.trans (ceiling_le allowBig raw),
      (parseSatoshiAmount_eq_ok_iff ..).mpr hagain, (parseSatoshiAmount_eq_ok_iff ..).mpr hstring⟩
  · exact (parseSatoshiAmount_eq_ok_iff ..).mpr ⟨n, hn, hle, rfl⟩
  · rintro v ⟨n, hn, hle, -⟩
    subst hq
    simp only [integer?] at hn
    split_ifs at hn with hden
    have hnum : q = (n : ℤ) := by
      rw [← Option.some.inj hn]
      exact ((Rat.den_eq_one_iff q).mp hden).symm
    rw [hnum] at hlt
    have hle' : ((n : ℤ) : ℚ) ≤ maxSafeInteger := by exact_mod_cast hle
    exact absurd hlt (not_lt.mpr hle')
  · rintro v ⟨n, hn', -⟩
    cases hn.symm.trans hn'

theorem parseSatoshiAmount_refines {raw v : JsValue}
    (h : parseSatoshiAmount numberText raw label allowBig = .ok v) :
    ∃ n : ℕ, v.integer? = some (n : ℤ) ∧ XChain.parseSatoshiAmount n label allowBig = .ok n := by
  obtain ⟨n, -, hv, hle, -, -⟩ := (parseSatoshiAmount_exact numberText label allowBig raw).1 v h
  refine ⟨n, hv, parseSatoshiAmount_eq_ok.mpr ⟨rfl, Int.natCast_nonneg n, ?_, ?_⟩⟩
  · cases allowBig with
    | true => exact .inr rfl
    | false => exact .inl hle
  · cases allowBig with
    | true => exact hle
    | false => exact hle.trans (by decide)

/-- Decimal, exponent and hex spellings denote nothing. -/
example : (JsValue.string [0x31, 0x2e, 0x30]).integer? = none ∧
    (JsValue.string [0x31, 0x65, 0x33]).integer? = none ∧
    (JsValue.string [0x30, 0x78, 0x31, 0x30]).integer? = none ∧
    (JsValue.string [0x20, 0x30, 0x30, 0x37, 0x0a]).integer? = some 7 := by decide +kernel

end JsValue

end XChain
