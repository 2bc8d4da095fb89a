import XChainEncoder.AncestorRefusals
import XChainEncoder.SignedInputs

/-!
# Signed sizes

What a funding transaction weighs once its inputs are signed, against the size it was priced at.

* `SignsAs`, `SignsAs.weight`: a signed transaction, and its weight by the kinds of its inputs;
* `exists_signed`: the heaviest of them;
* `signed_within_iff`: **every signing is within a size exactly where the charges are**.
-/

namespace XChain

open PushScript TxWeight Coroutine

/-! ## Signed transactions -/

/-- An output of a script, as it is serialized. -/
def outputBytes (script : Bytes) : ℕ := 8 + Spend.scriptSize script.length

/-- A transaction that signs a PSBT whose inputs are of the given kinds. -/
structure SignsAs (kinds : PsbtInput → Spend) (psbt : Psbt) (tx : Tx) : Prop where
  ins : List.Forall₂ (fun input (i : Input) => Unlocks (kinds input) i.scriptSig i.witness ∧
    i.hash = (hexBytes input.hash).reverse ∧ i.index = input.index ∧ i.sequence = input.sequence)
    psbt.inputs tx.ins
  outs : tx.outs = psbt.outputs.map fun o => ⟨o.value.toNat, o.script⟩

section Signed

variable {L : Library} {kinds : PsbtInput → Spend} {psbt : Psbt} {tx : Tx}

theorem Unlocks.witness {kind : Spend} {script : Bytes} {witness : List Bytes}
    (h : Unlocks kind script witness) : kind.hasWitness = !witness.isEmpty := by
  cases h <;> rfl

theorem Unlocks.stack {kind : Spend} {i : Input} (h : Unlocks kind i.scriptSig i.witness) :
    4 * i.base.length + i.stack.length = kind.inputWeight i + kind.marker := by
  have hwitness := h.witness
  unfold Spend.inputWeight Spend.marker
  cases hkind : kind.hasWitness with
  | true => simp
  | false =>
    rw [hkind] at hwitness
    have hnil : i.witness = [] := by simpa using hwitness.symm
    have hstack : i.stack.length = 1 := by
      rw [length_stack, hnil]
      rfl
    simp [hstack]

/-- The weight of the inputs. -/
def inputsWeight (kinds : PsbtInput → Spend) (inputs : List PsbtInput) (ins : List Input) : ℕ :=
  (List.zipWith (fun input i => (kinds input).inputWeight i) inputs ins).sum

/-- Whether an input has a witness. -/
def anyWitness (kinds : PsbtInput → Spend) (inputs : List PsbtInput) : Bool :=
  inputs.any fun input => (kinds input).hasWitness

/-- The weight of all empty stacks. -/
def markers (kinds : PsbtInput → Spend) (inputs : List PsbtInput) : ℕ :=
  (inputs.map fun input => (kinds input).marker).sum

theorem hasWitness_of_signs (h : SignsAs kinds psbt tx) :
    tx.hasWitness = anyWitness kinds psbt.inputs := by
  unfold Tx.hasWitness anyWitness
  have hins := h.ins
  generalize psbt.inputs = inputs at hins ⊢
  generalize tx.ins = ins at hins ⊢
  induction hins with
  | nil => rfl
  | cons hi _ ih => rw [List.any_cons, List.any_cons, ih, hi.1.witness]

theorem inputsWeight_eq (h : SignsAs kinds psbt tx) :
    4 * (tx.ins.map fun i => i.base.length).sum + (tx.ins.map fun i => i.stack.length).sum =
      inputsWeight kinds psbt.inputs tx.ins + markers kinds psbt.inputs := by
  unfold inputsWeight markers
  have hins := h.ins
  generalize psbt.inputs = inputs at hins ⊢
  generalize tx.ins = ins at hins ⊢
  induction hins with
  | nil => rfl
  | cons hi _ ih =>
    have hone := hi.1.stack
    simp only [List.map_cons, List.sum_cons, List.zipWith_cons_cons]
    omega

theorem inputsWeight_legacy (h : SignsAs kinds psbt tx) (hnone : anyWitness kinds psbt.inputs = false) :
    4 * (tx.ins.map fun i => i.base.length).sum = inputsWeight kinds psbt.inputs tx.ins := by
  unfold inputsWeight
  unfold anyWitness at hnone
  have hins := h.ins
  generalize psbt.inputs = inputs at hins hnone ⊢
  generalize tx.ins = ins at hins ⊢
  induction hins with
  | nil => rfl
  | @cons input i _ _ hi _ ih =>
    rw [List.any_cons, Bool.or_eq_false_iff] at hnone
    have hrest := ih hnone.2
    have hone : (kinds input).inputWeight i = 4 * i.base.length := by
      rw [Spend.inputWeight, hnone.1, if_neg Bool.false_ne_true, add_zero]
    simp only [List.map_cons, List.sum_cons, List.zipWith_cons_cons, hone]
    omega

/-- The weight of what every signing has: counts, outputs, marker, flag and empty stacks. -/
def frameWeight (kinds : PsbtInput → Spend) (psbt : Psbt) : ℕ :=
  4 * (8 + compactSizeLen psbt.inputs.length + compactSizeLen psbt.outputs.length +
    (psbt.outputs.map fun out => outputBytes out.script).sum) +
  if anyWitness kinds psbt.inputs then 2 + markers kinds psbt.inputs else 0

/-- **What a signed transaction weighs.** -/
theorem SignsAs.weight (h : SignsAs kinds psbt tx) : 4 * tx.base.length + tx.witnessBytes =
    frameWeight kinds psbt + inputsWeight kinds psbt.inputs tx.ins := by
  have houts : (tx.outs.map fun o => o.serialize.length).sum =
      (psbt.outputs.map fun out => outputBytes out.script).sum := by
    rw [h.outs, List.map_map]
    refine congrArg List.sum (List.map_congr_left fun out _ => ?_)
    rw [Function.comp_apply, length_serialize, length_compactSize_eq]
    rfl
  have hcount : tx.outs.length = psbt.outputs.length := by rw [h.outs, List.length_map]
  have hins : tx.ins.length = psbt.inputs.length := h.ins.length_eq.symm
  rw [length_txBase, houts, hcount, hins, length_compactSize_eq, length_compactSize_eq, frameWeight,
    Tx.witnessBytes, hasWitness_of_signs h]
  cases hany : anyWitness kinds psbt.inputs with
  | true =>
    have := inputsWeight_eq h
    simp only [if_true]
    omega
  | false =>
    have := inputsWeight_legacy h hany
    simp only [Bool.false_eq_true, if_false]
    omega

/-! ### The heaviest signing -/

/-- What the charges for the inputs leave at the longest signatures. -/
def spareWeights (kinds : PsbtInput → Spend) (inputs : List PsbtInput) : ℤ :=
  (inputs.map fun input => (kinds input).spareWeight).sum

def charges (kinds : PsbtInput → Spend) (inputs : List PsbtInput) : ℕ :=
  (inputs.map fun input => (kinds input).charge).sum

theorem inputsWeight_le (hkinds : ∀ input ∈ psbt.inputs, SpendsAs L input (kinds input))
    (h : SignsAs kinds psbt tx) : (inputsWeight kinds psbt.inputs tx.ins : ℤ) +
      spareWeights kinds psbt.inputs ≤ 4 * charges kinds psbt.inputs := by
  unfold inputsWeight spareWeights charges
  have hins := h.ins
  generalize psbt.inputs = inputs at hkinds hins ⊢
  generalize tx.ins = ins at hins ⊢
  induction hins with
  | nil => simp
  | cons hi _ ih =>
    have hone := hi.1.weight_le (hkinds _ List.mem_cons_self)
    have hrest := ih fun input hinput => hkinds input (List.mem_cons_of_mem _ hinput)
    simp only [List.map_cons, List.sum_cons, List.zipWith_cons_cons]
    push_cast at hrest ⊢
    omega

theorem length_hexBytes {s : Text} (h : isHex s = true) {n : ℕ} (hn : s.length = 2 * n) :
    (hexBytes s).length = n := by
  induction n generalizing s with
  | zero =>
    rw [List.length_eq_zero_iff.mp hn]
    rfl
  | succ n ih =>
    obtain ⟨a, s, rfl⟩ := List.exists_cons_of_length_eq_add_one hn
    obtain ⟨b, s, rfl⟩ := List.exists_cons_of_length_eq_add_one
      (n := 2 * n) (by simpa [Nat.mul_add] using hn)
    simp only [isHex, List.all_cons, Bool.and_eq_true] at h
    obtain ⟨x, hx⟩ := Option.isSome_iff_exists.mp h.1
    obtain ⟨y, hy⟩ := Option.isSome_iff_exists.mp h.2.1
    rw [hexBytes, hx, hy]
    simp only [List.length_cons]
    rw [ih h.2.2 (by simpa [Nat.mul_add] using hn)]

/-- **Some signing leaves no more than the spare weights.** -/
theorem exists_signed (hkinds : ∀ input ∈ psbt.inputs, SpendsAs L input (kinds input))
    (hids : ∀ input ∈ psbt.inputs, isTxid input.hash = true) :
    ∃ tx, SignsAs kinds psbt tx ∧ (inputsWeight kinds psbt.inputs tx.ins : ℤ) +
      spareWeights kinds psbt.inputs = 4 * charges kinds psbt.inputs := by
  have hins : ∃ ins : List Input, List.Forall₂ (fun input (i : Input) =>
      Unlocks (kinds input) i.scriptSig i.witness ∧ i.hash = (hexBytes input.hash).reverse ∧
      i.index = input.index ∧ i.sequence = input.sequence) psbt.inputs ins ∧
      (inputsWeight kinds psbt.inputs ins : ℤ) + spareWeights kinds psbt.inputs =
        4 * charges kinds psbt.inputs := by
    unfold inputsWeight spareWeights charges
    generalize psbt.inputs = inputs at hkinds hids ⊢
    induction inputs with
    | nil => exact ⟨[], .nil, by simp⟩
    | cons input rest ih =>
      obtain ⟨ins, hins, hrest⟩ := ih (fun i hi => hkinds i (List.mem_cons_of_mem _ hi))
        fun i hi => hids i (List.mem_cons_of_mem _ hi)
      obtain ⟨script, witness, hunlocks, hone⟩ := exists_longest (hkinds input List.mem_cons_self)
      have hid := hids input List.mem_cons_self
      simp only [isTxid, Bool.and_eq_true, decide_eq_true_eq] at hid
      have hhash : (hexBytes input.hash).reverse.length = 32 := by
        rw [List.length_reverse, length_hexBytes hid.2 (n := 32) hid.1]
      refine ⟨⟨_, hhash, input.index, script, input.sequence, witness⟩ :: ins,
        .cons ⟨hunlocks, rfl, rfl, rfl⟩ hins, ?_⟩
      have := hone ⟨_, hhash, input.index, script, input.sequence, witness⟩ rfl rfl
      simp only [List.map_cons, List.sum_cons, List.zipWith_cons_cons]
      push_cast at hrest ⊢
      omega
  obtain ⟨ins, hins, hweight⟩ := hins
  exact ⟨⟨2, ins, psbt.outputs.map fun o => ⟨o.value.toNat, o.script⟩, 0⟩, ⟨hins, rfl⟩, hweight⟩

/-- A virtual size is within a number of bytes where the weight is within its fourfold. -/
theorem virtualSize_le {n : ℕ} :
    tx.virtualSize ≤ n ↔ 4 * tx.base.length + tx.witnessBytes ≤ 4 * n := by
  rw [virtualSize_eq]
  omega

/-- **Every signing is within a size exactly where the charges and the spare weight are.** -/
theorem signed_within_iff (hkinds : ∀ input ∈ psbt.inputs, SpendsAs L input (kinds input))
    (hids : ∀ input ∈ psbt.inputs, isTxid input.hash = true) (n : ℕ) :
    (∀ tx, SignsAs kinds psbt tx → tx.virtualSize ≤ n) ↔
      (frameWeight kinds psbt : ℤ) + 4 * charges kinds psbt.inputs ≤
        4 * n + spareWeights kinds psbt.inputs := by
  constructor
  · intro h
    obtain ⟨tx, htx, hweight⟩ := exists_signed hkinds hids
    have hwithin := virtualSize_le.mp (h tx htx)
    rw [htx.weight] at hwithin
    omega
  · intro h tx htx
    have hweight := inputsWeight_le hkinds htx
    rw [virtualSize_le, htx.weight]
    omega

end Signed

end XChain
