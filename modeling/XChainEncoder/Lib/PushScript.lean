import Mathlib.Data.List.Basic
import Mathlib.Data.Nat.Basic
import Mathlib.Tactic.Ring
import Mathlib.Tactic.SplitIfs

/-!
# Push scripts

Byte strings that are sequences of opcodes and length-prefixed data pushes, with the minimal-push
rule: a push of no bytes, or of one byte that has an opcode of its own, is written as that opcode.

* `Element`, `compile`, `decompile`: the two directions;
* `asMinimalOP`: the opcode a push collapses to, `Element.normal`: the element read back;
* `decompile_compile_append`: **decompiling a compiled prefix** reads back its normal elements;
* `decompile_replicate_zero`: a run of zero bytes reads as opcodes only.
-/

namespace PushScript

/-- A byte string. -/
abbrev Bytes := List UInt8

/-- One element of a script: an opcode, or a push of data. -/
inductive Element where
  | op (code : UInt8)
  | push (data : Bytes)
  deriving DecidableEq, Repr

/-- The data of a push; an opcode carries none. -/
def Element.data? : Element → Option Bytes
  | .op _ => none
  | .push d => some d

/-- The opcode that the minimal-push rule writes for a push of `d`, if it has one. -/
def asMinimalOP : Bytes → Option UInt8
  | [] => some 0x00
  | [b] =>
    if 0x01 ≤ b ∧ b ≤ 0x10 then some (0x50 + b)
    else if b = 0x81 then some 0x4f
    else none
  | _ => none

/-- The length header of a push of `n` bytes. -/
def pushHeader (n : ℕ) : Bytes :=
  if n < 0x4c then [UInt8.ofNat n]
  else if n ≤ 0xff then [0x4c, UInt8.ofNat n]
  else if n ≤ 0xffff then [0x4d, UInt8.ofNat n, UInt8.ofNat (n / 256)]
  else [0x4e, UInt8.ofNat n, UInt8.ofNat (n / 256), UInt8.ofNat (n / 65536),
    UInt8.ofNat (n / 16777216)]

/-- The bytes of one element. -/
def compileElement : Element → Bytes
  | .op c => [c]
  | .push d =>
    match asMinimalOP d with
    | some o => [o]
    | none => pushHeader d.length ++ d

/-- The bytes of a script. -/
def compile (es : List Element) : Bytes := es.flatMap compileElement

/-- The element that pushed data `d` reads back as. -/
def readElement (d : Bytes) : Element :=
  match asMinimalOP d with
  | some o => .op o
  | none => .push d

/-- The length header at the front of a script whose first byte is a push opcode: the number of
data bytes, and what follows the header. -/
def readHeader : Bytes → Option (ℕ × Bytes)
  | [] => none
  | op :: rest =>
    if op < 0x4c then some (op.toNat, rest)
    else if op = 0x4c then
      match rest with
      | a :: body => some (a.toNat, body)
      | _ => none
    else if op = 0x4d then
      match rest with
      | a :: b :: body => some (a.toNat + 256 * b.toNat, body)
      | _ => none
    else
      match rest with
      | a :: b :: c :: d :: body =>
        some (a.toNat + 256 * b.toNat + 65536 * c.toNat + 16777216 * d.toNat, body)
      | _ => none

/-- `decompile`, reading at most `n` elements. -/
def decompileFrom : ℕ → Bytes → Option (List Element)
  | _, [] => some []
  | 0, _ :: _ => none
  | n + 1, op :: rest =>
    if 0x00 < op ∧ op ≤ 0x4e then
      match readHeader (op :: rest) with
      | none => none
      | some (len, body) =>
        if body.length < len then none
        else (decompileFrom n (body.drop len)).map (readElement (body.take len) :: ·)
    else (decompileFrom n rest).map (.op op :: ·)

/-- The elements of a script, or `none` when a push runs past its end. -/
def decompile (s : Bytes) : Option (List Element) := decompileFrom s.length s

/-! ## Fuel -/

theorem readHeader_length {s body : Bytes} {len : ℕ} (h : readHeader s = some (len, body)) :
    body.length < s.length := by
  cases s with
  | nil => cases h
  | cons op rest =>
    simp only [readHeader] at h
    split_ifs at h
    · cases h
      simp
    all_goals
      split at h
      · cases h
        simp only [List.length_cons]
        omega
      · cases h

/-- Any fuel of at least the script's length reads the same elements. -/
theorem decompileFrom_of_le {n : ℕ} {s : Bytes} (h : s.length ≤ n) :
    decompileFrom n s = decompile s := by
  suffices key : ∀ n m (s : Bytes), s.length ≤ n → s.length ≤ m →
      decompileFrom n s = decompileFrom m s from key _ _ _ h le_rfl
  intro n
  induction n with
  | zero =>
    intro m s hn _
    obtain rfl : s = [] := List.length_eq_zero_iff.mp (Nat.le_zero.mp hn)
    cases m <;> rfl
  | succ n ih =>
    intro m s hn hm
    cases s with
    | nil => cases m <;> rfl
    | cons op rest =>
      obtain ⟨m, rfl⟩ : ∃ k, m = k + 1 := ⟨m - 1, by simp only [List.length_cons] at hm; omega⟩
      simp only [List.length_cons, Nat.add_le_add_iff_right] at hn hm
      simp only [decompileFrom]
      split_ifs with hop
      · cases hr : readHeader (op :: rest) with
        | none => rfl
        | some p =>
          obtain ⟨len, body⟩ := p
          have hl := readHeader_length hr
          simp only [List.length_cons] at hl
          have hd : (body.drop len).length ≤ rest.length := by
            rw [List.length_drop]
            omega
          simp only [ih m _ (hd.trans hn) (hd.trans hm)]
      · rw [ih m rest hn hm]

@[simp] theorem decompile_nil : decompile [] = some [] := rfl

theorem decompile_op {c : UInt8} (hc : c = 0 ∨ 0x4e < c) (tail : Bytes) :
    decompile (c :: tail) = (decompile tail).map (.op c :: ·) := by
  have hne : ¬ (0x00 < c ∧ c ≤ 0x4e) := by
    rintro ⟨h0, h1⟩
    rcases hc with rfl | hc
    · exact absurd h0 (by decide)
    · exact UInt8.not_lt.mpr h1 hc
  simp only [decompile, List.length_cons, decompileFrom, if_neg hne]

/-! ## Reading back one push -/

/-- The header of a push is a push opcode followed by bytes that give the length back. -/
theorem readHeader_pushHeader {n : ℕ} (hn : n < 2 ^ 32) (rest : Bytes) :
    readHeader (pushHeader n ++ rest) = some (n, rest) := by
  unfold pushHeader
  split_ifs with h1 h2 h3
  · have hlt : UInt8.ofNat n < 0x4c := by
      rw [UInt8.lt_iff_toNat_lt, UInt8.toNat_ofNat', Nat.mod_eq_of_lt (by omega)]
      exact h1
    simp only [List.cons_append, List.nil_append, readHeader, if_pos hlt, UInt8.toNat_ofNat']
    rw [Nat.mod_eq_of_lt (by omega)]
  · have : (UInt8.ofNat n).toNat = n := by rw [UInt8.toNat_ofNat']; omega
    simp [readHeader, this]
  · have : (UInt8.ofNat n).toNat + 256 * (UInt8.ofNat (n / 256)).toNat = n := by
      simp only [UInt8.toNat_ofNat']
      omega
    simp only [UInt8.toNat_ofNat'] at this
    simp [readHeader, this]
  · have : (UInt8.ofNat n).toNat + 256 * (UInt8.ofNat (n / 256)).toNat +
        65536 * (UInt8.ofNat (n / 65536)).toNat +
        16777216 * (UInt8.ofNat (n / 16777216)).toNat = n := by
      simp only [UInt8.toNat_ofNat']
      omega
    simp only [UInt8.toNat_ofNat'] at this
    simp [readHeader, this]

/-- A header of a push of at least one byte starts with a push opcode. -/
theorem pushHeader_cons {n : ℕ} (hn : 0 < n) :
    ∃ op t, pushHeader n = op :: t ∧ 0x00 < op ∧ op ≤ 0x4e := by
  unfold pushHeader
  split_ifs with h1
  · have hv : (UInt8.ofNat n).toNat = n := by rw [UInt8.toNat_ofNat']; omega
    refine ⟨_, _, rfl, ?_, ?_⟩
    · rw [UInt8.lt_iff_toNat_lt, hv]
      exact hn
    · rw [UInt8.le_iff_toNat_le, hv]
      exact Nat.le_of_lt (Nat.lt_of_lt_of_le h1 (by decide))
  all_goals exact ⟨_, _, rfl, by decide, by decide⟩

theorem decompile_push {d : Bytes} (hd : asMinimalOP d = none) (hlen : d.length < 2 ^ 32)
    (tail : Bytes) :
    decompile (pushHeader d.length ++ d ++ tail) = (decompile tail).map (.push d :: ·) := by
  have hpos : 0 < d.length := by
    cases d with
    | nil => cases hd
    | cons b l => simp
  obtain ⟨op, t, hcons, h0, h1⟩ := pushHeader_cons hpos
  have hread : readHeader (op :: (t ++ (d ++ tail))) = some (d.length, d ++ tail) := by
    rw [← List.cons_append, ← hcons]
    exact readHeader_pushHeader hlen _
  rw [List.append_assoc, hcons, List.cons_append]
  simp only [decompile, List.length_cons, decompileFrom, if_pos (And.intro h0 h1), hread,
    List.take_left, List.drop_left, readElement, hd]
  rw [if_neg (by simp), decompileFrom_of_le (by simp only [List.length_append]; omega)]
  rfl

/-! ## Reading back a script -/

/-- Opcodes outside the push range, and pushes short enough for a four-byte length. -/
def Element.WellFormed : Element → Prop
  | .op c => c = 0 ∨ 0x4e < c
  | .push d => d.length < 2 ^ 32

/-- The element that an element reads back as: a minimal push becomes its opcode. -/
def Element.normal : Element → Element
  | .op c => .op c
  | .push d => readElement d

@[simp] theorem normal_op (c : UInt8) : (Element.op c).normal = .op c := rfl

theorem normal_push {d : Bytes} (hd : asMinimalOP d = none) :
    (Element.push d).normal = .push d := by
  simp only [Element.normal, readElement, hd]

/-- The opcodes that stand for minimal pushes are outside the push range. -/
theorem asMinimalOP_range {d : Bytes} {o : UInt8} (h : asMinimalOP d = some o) :
    o = 0 ∨ 0x4e < o := by
  match d with
  | [] =>
    cases h
    exact .inl rfl
  | [b] =>
    simp only [asMinimalOP] at h
    split_ifs at h with h1 h2
    · cases h
      obtain ⟨hl, hu⟩ := h1
      refine .inr ?_
      rw [UInt8.le_iff_toNat_le] at hl hu
      rw [UInt8.lt_iff_toNat_lt, UInt8.toNat_add]
      simp only [UInt8.reduceToNat] at *
      omega
    · cases h
      exact .inr (by decide)
  | _ :: _ :: _ => cases h

theorem decompile_compileElement {e : Element} (he : e.WellFormed) (tail : Bytes) :
    decompile (compileElement e ++ tail) = (decompile tail).map (e.normal :: ·) := by
  cases e with
  | op c => exact decompile_op he tail
  | push d =>
    cases hd : asMinimalOP d with
    | some o =>
      simp only [compileElement, Element.normal, readElement, hd]
      exact decompile_op (asMinimalOP_range hd) tail
    | none =>
      simp only [compileElement, normal_push hd, hd]
      exact decompile_push hd he tail

/-- **Decompiling a compiled prefix** reads back its elements, minimal pushes as opcodes. -/
theorem decompile_compile_append {es : List Element} (hes : ∀ e ∈ es, e.WellFormed)
    (tail : Bytes) :
    decompile (compile es ++ tail) = (decompile tail).map (es.map Element.normal ++ ·) := by
  induction es with
  | nil => simp [compile]
  | cons e es ih =>
    have he := decompile_compileElement (hes e List.mem_cons_self) (compile es ++ tail)
    rw [ih fun e' h' => hes e' (List.mem_cons_of_mem _ h')] at he
    simp only [compile, List.flatMap_cons, List.append_assoc] at he ⊢
    rw [he, Option.map_map]
    rfl

theorem decompile_compile {es : List Element} (hes : ∀ e ∈ es, e.WellFormed) :
    decompile (compile es) = some (es.map Element.normal) := by
  have h := decompile_compile_append hes []
  simpa using h

/-- Zero bytes read as opcodes, never as data. -/
theorem decompile_replicate_zero (k : ℕ) :
    decompile (List.replicate k 0x00) = some (List.replicate k (.op 0x00)) := by
  induction k with
  | zero => rfl
  | succ k ih =>
    rw [List.replicate_succ, decompile_op (.inl rfl), ih]
    rfl

/-! ## Sizes -/

theorem length_pushHeader (n : ℕ) : (pushHeader n).length =
    if n < 0x4c then 1 else if n ≤ 0xff then 2 else if n ≤ 0xffff then 3 else 5 := by
  unfold pushHeader
  split_ifs <;> rfl

theorem length_pushHeader_of_le {n : ℕ} (hn : n ≤ 0xffff) : (pushHeader n).length ≤ 3 := by
  unfold pushHeader
  split_ifs <;> simp

theorem length_compile_cons (e : Element) (es : List Element) :
    (compile (e :: es)).length = (compileElement e).length + (compile es).length := by
  simp [compile]

theorem length_compileElement_push_le {d : Bytes} (hd : d.length ≤ 0xffff) :
    (compileElement (.push d)).length ≤ d.length + 3 := by
  simp only [compileElement]
  split
  · simp
  · have := length_pushHeader_of_le hd
    simp only [List.length_append]
    omega

theorem length_compileElement_pos (e : Element) : 0 < (compileElement e).length := by
  cases e with
  | op c => simp [compileElement]
  | push d =>
    simp only [compileElement]
    split
    · simp
    · rename_i hd
      cases d with
      | nil => cases hd
      | cons b l => simp

theorem length_le_compileElement_push (d : Bytes) :
    d.length ≤ (compileElement (.push d)).length := by
  simp only [compileElement]
  split
  · rename_i o ho
    match d with
    | [] => simp
    | [_] => simp
    | _ :: _ :: _ => cases ho
  · simp

end PushScript
