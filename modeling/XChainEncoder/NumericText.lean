import Mathlib.Data.Rat.Defs
import Mathlib.Algebra.Order.Ring.Unbundled.Rat
import XChainEncoder.Constants

/-!
# Bytes compared with a number

A comparison with a number reads a buffer as its UTF-8 text, and the text as a number.

* `skipWhiteSpace`, `decimalLiteral`, `radixLiteral`: the parts of a numeric text;
* `numberOfBuffer`: the number that the bytes spell, `none` when it is not a finite one;
* `isWitnessVersionNumber`: the comparison with the numbers of witness versions.
-/

namespace XChain

open PushScript

/-- White space in front is left out; past ASCII it takes two or three bytes. -/
def skipWhiteSpace : Bytes → Bytes
  | 0xc2 :: 0xa0 :: rest => skipWhiteSpace rest
  | 0xe1 :: 0x9a :: 0x80 :: rest => skipWhiteSpace rest
  | 0xe2 :: 0x80 :: c :: rest =>
    if (0x80 ≤ c && c ≤ 0x8a) || c = 0xa8 || c = 0xa9 || c = 0xaf then skipWhiteSpace rest
    else 0xe2 :: 0x80 :: c :: rest
  | 0xe2 :: 0x81 :: 0x9f :: rest => skipWhiteSpace rest
  | 0xe3 :: 0x80 :: 0x80 :: rest => skipWhiteSpace rest
  | 0xef :: 0xbb :: 0xbf :: rest => skipWhiteSpace rest
  | b :: rest => if (0x09 ≤ b && b ≤ 0x0d) || b = 0x20 then skipWhiteSpace rest else b :: rest
  | [] => []

def isDecimalDigit (b : UInt8) : Bool := 0x30 ≤ b && b ≤ 0x39

/-- The value of a digit of the radixes up to sixteen, and 16 for any other byte. -/
def digitValue (b : UInt8) : ℕ :=
  if isDecimalDigit b then b.toNat - 0x30
  else if 0x61 ≤ b && b ≤ 0x66 then b.toNat - 0x61 + 10
  else if 0x41 ≤ b && b ≤ 0x46 then b.toNat - 0x41 + 10
  else 16

def digitsValue (radix : ℕ) (digits : Bytes) : ℕ :=
  digits.foldl (fun v b => radix * v + digitValue b) 0

/-- An exponent, when one is written, and the rest. -/
def exponentPart : Bytes → ℤ × Bytes
  | [] => (0, [])
  | e :: rest =>
    let (negative, digits) := match rest with
      | 0x2b :: digits => (false, digits)
      | 0x2d :: digits => (true, digits)
      | digits => (false, digits)
    let exponent := digits.takeWhile isDecimalDigit
    if (e = 0x65 || e = 0x45) && exponent ≠ [] then
      let n : ℤ := digitsValue 10 exponent
      (if negative then -n else n, digits.dropWhile isDecimalDigit)
    else (0, e :: rest)

/-- A decimal literal without a sign, and the rest. -/
def decimalLiteral (s : Bytes) : Option (ℚ × Bytes) :=
  let whole := s.takeWhile isDecimalDigit
  let (fraction, rest) := match s.dropWhile isDecimalDigit with
    | 0x2e :: rest => (rest.takeWhile isDecimalDigit, rest.dropWhile isDecimalDigit)
    | rest => ([], rest)
  if whole = [] ∧ fraction = [] then none
  else
    let (exponent, rest) := exponentPart rest
    some ((digitsValue 10 (whole ++ fraction) : ℚ) * (10 : ℚ) ^ (exponent - fraction.length), rest)

/-- The radix that the letter after a zero names. -/
def radixOf (b : UInt8) : Option ℕ :=
  if b = 0x78 || b = 0x58 then some 16
  else if b = 0x6f || b = 0x4f then some 8
  else if b = 0x62 || b = 0x42 then some 2
  else none

/-- A literal of another radix, which takes no sign, and the rest. -/
def radixLiteral : Bytes → Option (ℚ × Bytes)
  | 0x30 :: b :: s => do
    let radix ← radixOf b
    let digits := s.takeWhile fun d => digitValue d < radix
    if digits = [] then none
    else some (digitsValue radix digits, s.dropWhile fun d => digitValue d < radix)
  | _ => none

/-- A literal with its sign, and the rest. -/
def numericLiteral (s : Bytes) : Option (ℚ × Bytes) :=
  match radixLiteral s with
  | some r => some r
  | none => match s with
    | 0x2b :: s => decimalLiteral s
    | 0x2d :: s => (decimalLiteral s).map fun r => (-r.1, r.2)
    | s => decimalLiteral s

/-- The number that a comparison reads from a buffer: one literal between white space, and zero from
white space alone. -/
def numberOfBuffer (b : Bytes) : Option ℚ :=
  match skipWhiteSpace b with
  | [] => some 0
  | s => match numericLiteral s with
    | some (v, rest) => if skipWhiteSpace rest = [] then some v else none
    | none => none

/-- Between `OP_1` and `OP_16`, both as numbers. A literal is compared as the double next to it, so
half a step of the doubles there, which is `2 ^ (-47)`, is not seen at either end. -/
def isWitnessVersionNumber (b : Bytes) : Bool :=
  (numberOfBuffer b).any fun v => 81 - 1 / 2 ^ 47 ≤ v && v ≤ 96 + 1 / 2 ^ 47

/-- `90` is one, and so are `0x5A` and `.9e2` between blanks. -/
example : isWitnessVersionNumber [0x39, 0x30] = true ∧
    isWitnessVersionNumber [0x20, 0x30, 0x78, 0x35, 0x41, 0x0a] = true ∧
    isWitnessVersionNumber [0xc2, 0xa0, 0x2e, 0x39, 0x65, 0x32] = true ∧
    isWitnessVersionNumber [0x39, 0x30, 0x61] = false := by
  decide +kernel

end XChain
