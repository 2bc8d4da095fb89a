import Mathlib.Algebra.BigOperators.Group.List.Basic
import Mathlib.Algebra.Order.Group.Nat
import Mathlib.Tactic.Ring

/-!
# The weight of a transaction

Transactions as the bytes that go on the wire, and what those bytes weigh.

* `compactSize`, `varSlice`: counts and length-prefixed strings;
* `Tx.base`, `Tx.serialize`: without and with witnesses;
* `Tx.weight`, `Tx.virtualSize`: a base byte weighs four, a witness byte one;
* `virtualSize_eq`: **a witness costs a quarter of its bytes, rounded up once**.
-/

namespace TxWeight

/-! ## Numbers and strings -/

/-- The `k` low bytes, the lowest first. -/
def littleEndian (k n : ℕ) : List UInt8 := (List.range k).map fun i => UInt8.ofNat (n / 256 ^ i)

/-- A count: one byte, or a marker and two, four or eight bytes. -/
def compactSize (n : ℕ) : List UInt8 :=
  if n < 0xfd then littleEndian 1 n
  else if n ≤ 0xffff then 0xfd :: littleEndian 2 n
  else if n ≤ 0xffffffff then 0xfe :: littleEndian 4 n
  else 0xff :: littleEndian 8 n

/-- A string behind its length. -/
def varSlice (b : List UInt8) : List UInt8 := compactSize b.length ++ b

@[simp] theorem length_littleEndian (k n : ℕ) : (littleEndian k n).length = k := by
  simp [littleEndian]

theorem length_compactSize (n : ℕ) : (compactSize n).length =
    if n < 0xfd then 1 else if n ≤ 0xffff then 3 else if n ≤ 0xffffffff then 5 else 9 := by
  unfold compactSize
  split_ifs <;> simp

theorem length_compactSize_of_lt {n : ℕ} (hn : n < 0xfd) : (compactSize n).length = 1 := by
  rw [length_compactSize, if_pos hn]

theorem length_compactSize_le {n : ℕ} (hn : n ≤ 0xffffffff) : (compactSize n).length ≤ 5 := by
  rw [length_compactSize]
  split_ifs <;> omega

theorem length_compactSize_mono {m n : ℕ} (h : m ≤ n) :
    (compactSize m).length ≤ (compactSize n).length := by
  rw [length_compactSize, length_compactSize]
  split_ifs <;> omega

@[simp] theorem length_varSlice (b : List UInt8) :
    (varSlice b).length = (compactSize b.length).length + b.length := by
  simp [varSlice]

theorem length_flatMap {α : Type} (f : α → List UInt8) (l : List α) :
    (l.flatMap f).length = (l.map fun a => (f a).length).sum := by
  rw [List.length_flatMap]

/-! ## Transactions -/

/-- An input: the output it spends, its scripts and its witness. -/
structure Input where
  hash : List UInt8
  hash_length : hash.length = 32
  index : ℕ
  scriptSig : List UInt8
  sequence : ℕ
  witness : List (List UInt8)

/-- An output: its value and its script. -/
structure Output where
  value : ℕ
  script : List UInt8

/-- A transaction. -/
structure Tx where
  version : ℕ
  ins : List Input
  outs : List Output
  lockTime : ℕ

/-- An input without its witness. -/
def Input.base (i : Input) : List UInt8 :=
  i.hash ++ littleEndian 4 i.index ++ varSlice i.scriptSig ++ littleEndian 4 i.sequence

/-- The witness stack of an input: its count and its items. -/
def Input.stack (i : Input) : List UInt8 := compactSize i.witness.length ++ i.witness.flatMap varSlice

/-- The bytes of an output. -/
def Output.serialize (o : Output) : List UInt8 := littleEndian 8 o.value ++ varSlice o.script

namespace Tx

variable (tx : Tx)

/-- Some input has a witness. -/
def hasWitness : Bool := tx.ins.any fun i => !i.witness.isEmpty

/-- Inputs and outputs without witnesses. -/
def body : List UInt8 :=
  compactSize tx.ins.length ++ tx.ins.flatMap Input.base ++
    compactSize tx.outs.length ++ tx.outs.flatMap Output.serialize

/-- The bytes without witnesses. -/
def base : List UInt8 := littleEndian 4 tx.version ++ tx.body ++ littleEndian 4 tx.lockTime

/-- The whole transaction; a marker, a flag and the witnesses are there when an input has one. -/
def serialize : List UInt8 :=
  littleEndian 4 tx.version ++ (if tx.hasWitness then [0x00, 0x01] else []) ++ tx.body ++
    (if tx.hasWitness then tx.ins.flatMap Input.stack else []) ++ littleEndian 4 tx.lockTime

/-- Witness bytes count once, the others four times. -/
def weight : ℕ := 3 * tx.base.length + tx.serialize.length

/-- A quarter of the weight, rounded up. -/
def virtualSize : ℕ := (tx.weight + 3) / 4

end Tx

/-! ## Sizes -/

theorem length_base (i : Input) :
    i.base.length = 40 + ((compactSize i.scriptSig.length).length + i.scriptSig.length) := by
  simp only [Input.base, List.length_append, i.hash_length, length_littleEndian, length_varSlice]
  ring

theorem length_stack (i : Input) : i.stack.length = (compactSize i.witness.length).length +
    (i.witness.map fun b => (compactSize b.length).length + b.length).sum := by
  simp only [Input.stack, List.length_append, length_flatMap, length_varSlice]

@[simp] theorem length_serialize (o : Output) :
    o.serialize.length = 8 + ((compactSize o.script.length).length + o.script.length) := by
  simp [Output.serialize]

theorem length_txBase (tx : Tx) : tx.base.length = 8 + (compactSize tx.ins.length).length +
    (tx.ins.map fun i => i.base.length).sum + (compactSize tx.outs.length).length +
    (tx.outs.map fun o => o.serialize.length).sum := by
  simp only [Tx.base, Tx.body, List.length_append, length_littleEndian, length_flatMap]
  ring

/-- The bytes of marker, flag and witnesses. -/
def Tx.witnessBytes (tx : Tx) : ℕ :=
  if tx.hasWitness then 2 + (tx.ins.map fun i => i.stack.length).sum else 0

theorem length_txSerialize (tx : Tx) : tx.serialize.length = tx.base.length + tx.witnessBytes := by
  unfold Tx.serialize Tx.base Tx.witnessBytes
  split_ifs
  · simp only [List.length_append, List.length_cons, List.length_nil, length_flatMap]
    ring
  · simp only [List.length_append, List.length_nil]
    ring

/-- **A witness costs a quarter of its bytes, rounded up once.** -/
theorem virtualSize_eq (tx : Tx) : tx.virtualSize = tx.base.length + (tx.witnessBytes + 3) / 4 := by
  rw [Tx.virtualSize, Tx.weight, length_txSerialize]
  omega

theorem virtualSize_of_legacy {tx : Tx} (h : ∀ i ∈ tx.ins, i.witness = []) :
    tx.virtualSize = tx.base.length := by
  have hnone : tx.hasWitness = false := by
    rw [Tx.hasWitness, List.any_eq_false]
    exact fun i hi => by simp [h i hi]
  rw [virtualSize_eq, Tx.witnessBytes, if_neg (by simp [hnone])]
  norm_num

end TxWeight
