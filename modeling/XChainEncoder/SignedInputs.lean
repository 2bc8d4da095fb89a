import XChainEncoder.CancelSweeps
import XChainEncoder.RoundTrip

/-!
# Signed inputs

What an input of each kind weighs once it is signed, against what the builder charges for it.

* `Spend`, `SpendsAs`: the kinds of inputs, and which kind a PSBT's input is of;
* `Unlocks`: the script and the witness that sign an input of a kind;
* `Spend.charge`, `estimateInputSize_eq`: what the builder charges;
* `Unlocks.weight_le`, `exists_longest`: **the longest signatures leave `Spend.spareWeight` of the
  charge**, and any others at least as much;
* `Spend.marker`: the empty stack that an input without a witness has beside one with a witness.
-/

namespace XChain

open PushScript TxWeight

/-! ## Kinds of inputs -/

/-- How an input is spent. -/
inductive Spend where
  | p2wpkh
  | p2tr
  | p2shP2wpkh
  | p2pkh (compressed : Bool)
  | p2shMultisig (m : ℕ) (redeemScript : Bytes)
  deriving DecidableEq

/-- The kind of an input, from the output it spends and the scripts beside it. -/
inductive SpendsAs (L : Library) (input : PsbtInput) : Spend → Prop
  | p2wpkh (hash : Bytes) (value : ℤ) : hash.length = 20 →
    input.witnessUtxo = some ⟨[0x00, 0x14] ++ hash, value⟩ → SpendsAs L input .p2wpkh
  | p2tr (key : Bytes) (value : ℤ) : key.length = 32 →
    input.witnessUtxo = some ⟨[0x51, 0x20] ++ key, value⟩ → SpendsAs L input .p2tr
  | p2shP2wpkh (hash : Bytes) (value : ℤ) : hash.length = 20 →
    input.witnessUtxo = some ⟨[0xa9, 0x14] ++ hash ++ [0x87], value⟩ →
    SpendsAs L input .p2shP2wpkh
  | p2pkh (compressed : Bool) (tx : ParsedTx) (hash : Bytes) (value : ℤ) : hash.length = 20 →
    input.witnessUtxo = none → input.nonWitnessUtxo = some tx →
    tx.outs[input.index]? = some ⟨[0x76, 0xa9, 0x14] ++ hash ++ [0x88, 0xac], value⟩ →
    SpendsAs L input (.p2pkh compressed)
  | p2shMultisig (m : ℕ) (redeemScript : Bytes) (keys : List Bytes) (tx : ParsedTx) (value : ℤ) :
    input.witnessUtxo = none → input.nonWitnessUtxo = some tx →
    tx.outs[input.index]? = some ⟨[0xa9, 0x14] ++ L.hash160 redeemScript ++ [0x87], value⟩ →
    input.redeemScript = some redeemScript → parseP2ms L redeemScript = some (m, keys) →
    -- Every key is pushed in the shortest way, and the script itself fits a push.
    redeemScript.length = 3 + (keys.map fun key => compiledPushSize key.length).sum →
    redeemScript.length ≤ 520 → SpendsAs L input (.p2shMultisig m redeemScript)

/-- The script and the witness that sign an input. -/
inductive Unlocks : Spend → Bytes → List Bytes → Prop
  | p2wpkh (sig : EcdsaSignature) (key : Bytes) : key.length = 33 →
    Unlocks .p2wpkh [] [sig.bytes, key]
  | p2tr (sig : SchnorrSignature) : Unlocks .p2tr [] [sig.bytes]
  | p2shP2wpkh (sig : EcdsaSignature) (key redeemScript : Bytes) : key.length = 33 →
    redeemScript.length = 22 →
    Unlocks .p2shP2wpkh (compile [.push redeemScript]) [sig.bytes, key]
  | p2pkh (compressed : Bool) (sig : EcdsaSignature) (key : Bytes) :
    key.length = (if compressed then 33 else 65) →
    Unlocks (.p2pkh compressed) (compile [.push sig.bytes, .push key]) []
  | p2shMultisig (m : ℕ) (redeemScript : Bytes) (sigs : List EcdsaSignature) : sigs.length = m →
    Unlocks (.p2shMultisig m redeemScript)
      (compile (.op 0x00 :: (sigs.map fun sig => .push sig.bytes) ++ [.push redeemScript])) []

namespace Spend

def hasWitness : Spend → Bool
  | .p2wpkh | .p2tr | .p2shP2wpkh => true
  | .p2pkh _ | .p2shMultisig .. => false

/-- A script of `n` bytes behind its length. -/
def scriptSize (n : ℕ) : ℕ := compactSizeLen n + n

/-- What the builder charges for an input. -/
def charge : Spend → ℕ
  | .p2wpkh => 68
  | .p2tr => 58
  | .p2shP2wpkh => 91
  | .p2pkh _ => 180
  | .p2shMultisig m redeemScript => 40 + scriptSize (1 + m * 74 + compiledPushSize redeemScript.length)

/-- The weight that the longest signatures leave of the charge. -/
def spareWeight : Spend → ℤ
  | .p2wpkh | .p2shP2wpkh => 0
  | .p2tr => 1
  | .p2pkh compressed => if compressed then 128 else 0
  | .p2shMultisig m redeemScript =>
    4 * (scriptSize (1 + m * 74 + compiledPushSize redeemScript.length) -
      scriptSize (1 + m * 73 + compiledPushSize redeemScript.length) : ℤ)

/-- The weight of the empty stack of an input without a witness. -/
def marker (kind : Spend) : ℕ := if kind.hasWitness then 0 else 1

end Spend

/-! ## Charges -/

section Charge

variable {L : Library} {input : PsbtInput} {kind : Spend}

theorem SpendsAs.hasWitness (h : SpendsAs L input kind) :
    input.witnessUtxo.isSome = kind.hasWitness := by
  cases h with
  | p2wpkh _ _ _ hutxo | p2tr _ _ _ hutxo | p2shP2wpkh _ _ _ hutxo =>
    rw [hutxo]
    rfl
  | p2pkh _ _ _ _ _ hutxo | p2shMultisig _ _ _ _ _ hutxo =>
    rw [hutxo]
    rfl

theorem isP2shShape_script {hash : Bytes} (h : hash.length = 20) :
    isP2shShape ([0xa9, 0x14] ++ hash ++ [0x87]) = true := by
  have hsuffix : [0x87] <:+ [0xa9, 0x14] ++ hash ++ [0x87] := List.suffix_append _ _
  simp only [isP2shShape, Bool.and_eq_true, decide_eq_true_eq, List.isPrefixOf_iff_prefix,
    List.isSuffixOf_iff_suffix]
  exact ⟨⟨by simp [h], hash ++ [0x87], by simp⟩, hsuffix⟩

/-- **The estimate of an input is the charge for its kind.** -/
theorem estimateInputSize_eq (h : SpendsAs L input kind) :
    estimateInputSize L input = kind.charge := by
  cases h with
  | p2wpkh hash value hhash hutxo =>
    simp [estimateInputSize, hutxo, inputSizeForScript, Spend.charge]
  | p2tr key value hkey hutxo =>
    simp [estimateInputSize, hutxo, inputSizeForScript, Spend.charge, isP2shShape]
  | p2shP2wpkh hash value hhash hutxo =>
    have hshape := isP2shShape_script hhash
    simp only [List.cons_append, List.nil_append] at hshape
    simp [estimateInputSize, hutxo, inputSizeForScript, Spend.charge, hshape]
  | p2pkh compressed tx hash value hhash hutxo htx hout =>
    have hsuffix : [0x88, 0xac] <:+ 0x76 :: 0xa9 :: 0x14 :: (hash ++ [0x88, 0xac]) :=
      ⟨0x76 :: 0xa9 :: 0x14 :: hash, by simp⟩
    simp [estimateInputSize, hutxo, htx, hout, inputSizeForScript, Spend.charge, hsuffix]
  | p2shMultisig m redeemScript keys tx value hutxo htx hout hredeem hparse hlength hle =>
    have hhash := L.hash160_length redeemScript
    have hsuffix : [0x87] <:+ 0xa9 :: 0x14 :: (L.hash160 redeemScript ++ [0x87]) :=
      ⟨0xa9 :: 0x14 :: L.hash160 redeemScript, by simp⟩
    have hsize : legacyP2shMultisigInputSize L redeemScript =
        some (Spend.p2shMultisig m redeemScript).charge := by
      have hpush : redeemScript.length ≤ compiledPushSize redeemScript.length := by
        unfold compiledPushSize
        split_ifs <;> omega
      have hscript : 1 + m * 74 + (compiledPushSize redeemScript.length - redeemScript.length) +
          redeemScript.length = 1 + m * 74 + compiledPushSize redeemScript.length := by
        omega
      simp only [legacyP2shMultisigInputSize, hparse, Option.bind_eq_bind, Option.bind_some, ← hlength]
      rw [if_neg (not_not.mpr rfl), show compiledPushSize 73 = 74 from rfl, hscript]
      simp only [Spend.charge, Spend.scriptSize, Nat.add_assoc]
    have hmatches : Option.filter (fun r => decide (L.hash160 r = L.hash160 redeemScript))
        (some redeemScript) = some redeemScript := by
      simp [Option.filter]
    simp [estimateInputSize, hutxo, htx, hout, inputSizeForScript, hredeem, hhash, hsuffix]
    rw [hmatches, Option.bind_some, hsize, Option.getD_some]

end Charge

/-! ## Weights -/

section Weight

theorem scriptSize_mono {m n : ℕ} (h : m ≤ n) : Spend.scriptSize m ≤ Spend.scriptSize n := by
  unfold Spend.scriptSize compactSizeLen
  split_ifs <;> omega

theorem scriptSize_of_lt {n : ℕ} (h : n < 253) : Spend.scriptSize n = 1 + n := by
  rw [Spend.scriptSize, compactSizeLen, if_pos h]

theorem length_compileElement_push_of_two_le {d : Bytes} (h : 2 ≤ d.length)
    (hd : d.length ≤ 0xffff) : (compileElement (.push d)).length = compiledPushSize d.length := by
  simp only [compileElement, asMinimalOP_of_two_le h, List.length_append, length_pushHeader,
    compiledPushSize]
  split_ifs <;> omega

theorem length_push_signature (sig : EcdsaSignature) :
    (compileElement (.push sig.bytes)).length = 1 + sig.bytes.length := by
  obtain ⟨hle, hle'⟩ := sig.length_bytes
  rw [length_compileElement_push_of_two_le (by omega) (by omega), compiledPushSize,
    if_pos (by omega)]
  omega

theorem length_push_key {key : Bytes} {compressed : Bool}
    (h : key.length = if compressed then 33 else 65) :
    (compileElement (.push key)).length = if compressed then 34 else 66 := by
  have hle : 33 ≤ key.length ∧ key.length ≤ 65 := by
    split_ifs at h <;> omega
  rw [length_compileElement_push_of_two_le (by omega) (by omega), compiledPushSize,
    if_pos (by omega)]
  split_ifs at h ⊢ <;> omega

theorem length_compile_p2pkh (sig : EcdsaSignature) {key : Bytes} {compressed : Bool}
    (h : key.length = if compressed then 33 else 65) :
    (compile [.push sig.bytes, .push key]).length =
      1 + sig.bytes.length + if compressed then 34 else 66 := by
  rw [length_compile_cons, length_compile_cons, length_push_signature, length_push_key h]
  rfl

theorem sum_signatures_le (sigs : List EcdsaSignature) :
    (sigs.map fun sig => 1 + sig.bytes.length).sum ≤ sigs.length * 73 := by
  induction sigs with
  | nil => rfl
  | cons sig rest ih =>
    have := sig.length_bytes.2
    simp only [List.map_cons, List.sum_cons, List.length_cons]
    omega

theorem length_compile_multisig (sigs : List EcdsaSignature) {redeemScript : Bytes}
    (h : 2 ≤ redeemScript.length) (hd : redeemScript.length ≤ 0xffff) :
    (compile (.op 0x00 :: (sigs.map fun sig => .push sig.bytes) ++ [.push redeemScript])).length =
      1 + (sigs.map fun sig => 1 + sig.bytes.length).sum + compiledPushSize redeemScript.length := by
  have hsigs : (compile ((sigs.map fun sig => .push sig.bytes) ++ [.push redeemScript])).length =
      (sigs.map fun sig => 1 + sig.bytes.length).sum + compiledPushSize redeemScript.length := by
    induction sigs with
    | nil =>
      simp only [List.map_nil, List.nil_append, List.sum_nil, zero_add, length_compile_cons,
        length_compileElement_push_of_two_le h hd]
      rfl
    | cons sig rest ih =>
      simp only [List.map_cons, List.cons_append, length_compile_cons, List.sum_cons, ih,
        length_push_signature]
      omega
  rw [List.cons_append, length_compile_cons, hsigs]
  simp only [compileElement, List.length_singleton]
  omega

/-- What an input weighs, with its stack where its kind has a witness. -/
def Spend.inputWeight (kind : Spend) (i : Input) : ℕ :=
  4 * i.base.length + if kind.hasWitness then i.stack.length else 0

theorem inputWeight_eq (kind : Spend) (i : Input) : kind.inputWeight i =
    4 * (40 + Spend.scriptSize i.scriptSig.length) + if kind.hasWitness then
      compactSizeLen i.witness.length +
        (i.witness.map fun b => Spend.scriptSize b.length).sum else 0 := by
  simp only [Spend.inputWeight, length_base, length_stack, length_compactSize_eq, Spend.scriptSize]

variable {L : Library} {input : PsbtInput} {kind : Spend} {i : Input}

theorem two_le_redeem {redeemScript : Bytes} {keys : List Bytes}
    (h : redeemScript.length = 3 + (keys.map fun key => compiledPushSize key.length).sum) :
    2 ≤ redeemScript.length := by
  omega

/-- **Whatever the signatures, a signed input leaves the spare weight of its kind.** -/
theorem Unlocks.weight_le (hkind : SpendsAs L input kind) (h : Unlocks kind i.scriptSig i.witness) :
    (kind.inputWeight i : ℤ) + kind.spareWeight ≤ 4 * kind.charge := by
  rw [inputWeight_eq]
  generalize i.scriptSig = script at h ⊢
  generalize i.witness = witness at h ⊢
  cases h with
  | p2wpkh sig key hkey =>
    have hsig := sig.length_bytes.2
    simp only [Spend.hasWitness, Spend.spareWeight, Spend.charge, List.length_cons, List.length_nil,
      List.map_cons, List.map_nil, List.sum_cons, List.sum_nil, hkey, if_true]
    rw [scriptSize_of_lt (n := sig.bytes.length) (by omega)]
    simp [Spend.scriptSize, compactSizeLen]
    omega
  | p2tr sig =>
    have hsig := sig.bytes_length
    simp only [Spend.hasWitness, Spend.spareWeight, Spend.charge, List.length_cons, List.length_nil,
      List.map_cons, List.map_nil, List.sum_cons, List.sum_nil, if_true]
    rw [scriptSize_of_lt (n := sig.bytes.length) (by omega)]
    simp [Spend.scriptSize, compactSizeLen]
    omega
  | p2shP2wpkh sig key redeemScript hkey hredeem =>
    have hsig := sig.length_bytes.2
    have hscript : (compile [.push redeemScript]).length = 23 := by
      rw [length_compile_cons, length_compileElement_push_of_two_le (by omega) (by omega), hredeem]
      rfl
    simp only [Spend.hasWitness, Spend.spareWeight, Spend.charge, List.length_cons, List.length_nil,
      List.map_cons, List.map_nil, List.sum_cons, List.sum_nil, hkey, hscript, if_true]
    rw [scriptSize_of_lt (n := sig.bytes.length) (by omega)]
    simp [Spend.scriptSize, compactSizeLen]
    omega
  | p2pkh compressed sig key hkey =>
    have hsig := sig.length_bytes.2
    simp only [Spend.hasWitness, Spend.spareWeight, Spend.charge, length_compile_p2pkh sig hkey,
      Bool.false_eq_true, if_false]
    rw [scriptSize_of_lt (by split_ifs <;> omega)]
    split_ifs <;> push_cast <;> omega
  | p2shMultisig m redeemScript sigs hsigs =>
    cases hkind with
    | p2shMultisig _ _ keys tx value _ _ _ _ _ hlength hle =>
      have hscript := length_compile_multisig sigs (two_le_redeem hlength) (by omega)
      have hsum := hsigs ▸ sum_signatures_le sigs
      have hmono := scriptSize_mono (m := 1 + (sigs.map fun sig => 1 + sig.bytes.length).sum +
        compiledPushSize redeemScript.length)
        (n := 1 + m * 73 + compiledPushSize redeemScript.length) (by omega)
      simp only [Spend.hasWitness, Spend.spareWeight, Spend.charge, hscript, Bool.false_eq_true,
        if_false]
      push_cast
      omega

/-! ### The longest signatures -/

/-- A signature of 72 bytes. -/
def longestSignature : EcdsaSignature where
  r := List.replicate 33 0x7f
  s := List.replicate 32 0x7f
  hashType := 0x01
  r_length := by simp
  s_length := by simp

def longestSchnorr : SchnorrSignature where
  bytes := List.replicate 65 0x7f
  bytes_length := .inr (by simp)

/-- **And the longest signatures leave no more.** -/
theorem exists_longest (hkind : SpendsAs L input kind) :
    ∃ script witness, Unlocks kind script witness ∧ ∀ i : Input, i.scriptSig = script →
      i.witness = witness → (kind.inputWeight i : ℤ) + kind.spareWeight = 4 * kind.charge := by
  have hkey : ∀ n, (List.replicate n (0x02 : UInt8)).length = n := fun n => List.length_replicate
  cases hkind with
  | p2wpkh =>
    refine ⟨_, _, .p2wpkh longestSignature _ (hkey 33), fun i hscript hwitness => ?_⟩
    rw [inputWeight_eq, hscript, hwitness]
    rfl
  | p2tr =>
    refine ⟨_, _, .p2tr longestSchnorr, fun i hscript hwitness => ?_⟩
    rw [inputWeight_eq, hscript, hwitness]
    rfl
  | p2shP2wpkh =>
    refine ⟨_, _, .p2shP2wpkh longestSignature _ _ (hkey 33) (hkey 22), fun i hscript hwitness => ?_⟩
    rw [inputWeight_eq, hscript, hwitness]
    rfl
  | p2pkh compressed =>
    refine ⟨_, _, .p2pkh compressed longestSignature _ (hkey _), fun i hscript hwitness => ?_⟩
    rw [inputWeight_eq, hscript, length_compile_p2pkh longestSignature (hkey _)]
    cases compressed <;> rfl
  | p2shMultisig m redeemScript keys tx value _ _ _ _ _ hlength hle =>
    refine ⟨_, _, .p2shMultisig m redeemScript (List.replicate m longestSignature) (by simp),
      fun i hscript hwitness => ?_⟩
    have hsize := length_compile_multisig (List.replicate m longestSignature)
      (two_le_redeem hlength) (by omega)
    have hsum : ((List.replicate m longestSignature).map fun sig => 1 + sig.bytes.length).sum =
        m * 73 := by
      rw [List.map_replicate, List.sum_replicate]
      rfl
    rw [inputWeight_eq, hscript, hsize, hsum]
    simp only [Spend.hasWitness, Spend.spareWeight, Spend.charge, Bool.false_eq_true, if_false]
    push_cast
    omega

end Weight

end XChain
