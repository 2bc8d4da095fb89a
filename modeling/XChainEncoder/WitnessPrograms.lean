import XChainEncoder.BuildStages
import XChainEncoder.Lib.PushSpellings

/-!
# Witness programs

`isSegwitUTXO` reads the elements of a script; consensus reads its bytes.

* `isWitnessProgram`: a witness program, by its bytes;
* `ProgramSpelling`, `isSegwitScript_iff`: **every spelling of a version and a program** that the
  predicate accepts;
* `Respelled`: a version written as a push, or a program behind one of the longer headers;
* `consensusVerdicts_iff`: the predicate, and what selection makes of it, agree with consensus on
  every other script.
-/

namespace XChain

open PushScript

/-! ## By the bytes -/

def isWitnessVersion (version : UInt8) : Bool :=
  version = 0x00 || (0x51 ≤ version && version ≤ 0x60)

/-- Four to 42 bytes: a version, and the length of the two to 40 bytes that follow. -/
def isWitnessProgram (script : Bytes) : Bool :=
  4 ≤ script.length && script.length ≤ 42 &&
    match script with
    | version :: n :: program => isWitnessVersion version && n.toNat = program.length
    | _ => false

theorem isWitnessProgram_iff {script : Bytes} : isWitnessProgram script = true ↔
    ∃ version n program, script = version :: n :: program ∧ isWitnessVersion version = true ∧
      n.toNat = program.length ∧ 2 ≤ program.length ∧ program.length ≤ 40 := by
  constructor
  · intro h
    match script, h with
    | version :: n :: program, h =>
      simp only [isWitnessProgram, List.length_cons, Bool.and_eq_true, decide_eq_true_eq] at h
      obtain ⟨⟨h4, h42⟩, hversion, hn⟩ := h
      exact ⟨_, _, _, rfl, hversion, hn, by omega, by omega⟩
  · rintro ⟨version, n, program, rfl, hversion, hn, h2, h40⟩
    simp only [isWitnessProgram, List.length_cons, Bool.and_eq_true, decide_eq_true_eq]
    exact ⟨⟨by omega, by omega⟩, hversion, hn⟩

theorem range_of_isWitnessVersion {version : UInt8} (h : isWitnessVersion version = true) :
    version = 0x00 ∨ 0x4e < version := by
  simp only [isWitnessVersion, Bool.or_eq_true, Bool.and_eq_true, decide_eq_true_eq] at h
  rcases h with h0 | ⟨h51, -⟩
  · exact .inl h0
  · exact .inr (UInt8.lt_of_lt_of_le (by decide) h51)

/-! ## By the elements -/

/-- The bytes `p` stand for a witness version: its opcode, a push of its number, or a push of a text
that compares as its number. -/
inductive SpellsVersion : Bytes → Element → Prop where
  | opcode (version : UInt8) (ok : isWitnessVersion version = true) :
      SpellsVersion [version] (.op version)
  | pushed {p d : Bytes} (spells : Spells p d) (ok : isVersionElement (readElement d) = true) :
      SpellsVersion p (readElement d)

/-- The bytes `p` stand for a witness version, and the bytes `q` push the program. -/
structure ProgramSpelling (script p q : Bytes) (version : Element) (program : Bytes) : Prop where
  split : script = p ++ q
  front : SpellsVersion p version
  pushes : Spells q program
  two_le : 2 ≤ program.length
  le_forty : program.length ≤ 40

variable {script p q program : Bytes} {version : Element}

theorem SpellsVersion.decompile (h : SpellsVersion p version) (tail : Bytes) :
    decompile (p ++ tail) = (PushScript.decompile tail).map (version :: ·) := by
  cases h with
  | opcode version ok => exact decompile_op (range_of_isWitnessVersion ok) tail
  | pushed spells ok => exact decompile_spelled spells tail

theorem SpellsVersion.isVersionElement (h : SpellsVersion p version) :
    isVersionElement version = true := by
  cases h with
  | opcode version ok => exact ok
  | pushed spells ok => exact ok

theorem ProgramSpelling.decompile (h : ProgramSpelling script p q version program) :
    decompile script = some [version, .push program] := by
  have hq : PushScript.decompile q = some [.push program] := by
    have hread := decompile_spelled h.pushes []
    rw [List.append_nil] at hread
    rw [hread, readElement_eq_push.mpr ⟨rfl, asMinimalOP_of_two_le h.two_le⟩]
    rfl
  rw [h.split, h.front.decompile, hq]
  rfl

theorem isSegwitScript_eq_true : isSegwitScript script = true ↔ ∃ version program,
    decompile script = some [version, .push program] ∧ isVersionElement version = true ∧
      2 ≤ program.length ∧ program.length ≤ 40 := by
  unfold isSegwitScript
  constructor
  · intro h
    split at h
    · rename_i version program hread
      simp only [Bool.and_eq_true, decide_eq_true_eq] at h
      exact ⟨version, program, hread, h.1, h.2⟩
    · cases h
  · rintro ⟨version, program, hread, hversion, h2, h40⟩
    rw [hread]
    simp only [Bool.and_eq_true, decide_eq_true_eq]
    exact ⟨hversion, h2, h40⟩

/-- **The predicate accepts every spelling** of a version and a program, and nothing else. -/
theorem isSegwitScript_iff : isSegwitScript script = true ↔
    ∃ p q version program, ProgramSpelling script p q version program := by
  rw [isSegwitScript_eq_true]
  constructor
  · rintro ⟨version, program, hread, hversion, h2, h40⟩
    obtain ⟨p, q, rfl, hq, hp⟩ := exists_front hread
    obtain ⟨q', tail, rfl, htail, hq'⟩ := exists_front hq
    rw [decompile_eq_nil htail, List.append_nil]
    have hfront : SpellsVersion p version := by
      rcases hp with ⟨c, rfl, rfl⟩ | ⟨d, hd, rfl⟩
      · exact .opcode c hversion
      · exact .pushed hd hversion
    rcases hq' with ⟨c, -, hc⟩ | ⟨d, hd, hpush⟩
    · cases hc
    · obtain ⟨rfl, -⟩ := readElement_eq_push.mp hpush.symm
      exact ⟨p, q', version, d, rfl, hfront, hd, h2, h40⟩
  · rintro ⟨p, q, version, program, h⟩
    exact ⟨version, program, h.decompile, h.front.isVersionElement, h.two_le, h.le_forty⟩

/-! ## The spellings that consensus does not read -/

/-- The version is written as a push, or the program stands behind the opcode of a longer header. -/
def Respelled (script : Bytes) : Prop :=
  ∃ p q version program, ProgramSpelling script p q version program ∧
    (1 < p.length ∨ ∃ op ∈ q.head?, 0x4c ≤ op)

theorem spelling_of_isWitnessProgram (h : isWitnessProgram script = true) :
    ∃ p q version program, ProgramSpelling script p q version program := by
  obtain ⟨version, n, program, rfl, hversion, hn, h2, h40⟩ := isWitnessProgram_iff.mp h
  have hsmall : n < 0x4c := by
    rw [UInt8.lt_iff_toNat_lt]
    exact Nat.lt_of_le_of_lt (hn.trans_le h40) (by decide)
  exact ⟨[version], n :: program, .op version, program, rfl, .opcode version hversion,
    .direct program n hsmall hn, h2, h40⟩

/-- **No other spelling** of a witness program exists. -/
theorem not_respelled_of_isWitnessProgram (h : isWitnessProgram script = true) :
    ¬ Respelled script := by
  obtain ⟨version, n, program, rfl, hversion, hn, h2, h40⟩ := isWitnessProgram_iff.mp h
  rintro ⟨p, q, version', program', hs, hlong⟩
  -- The first byte is no push opcode, so the version takes that byte alone.
  obtain ⟨op, rfl⟩ : ∃ op, p = [op] := by
    rcases hs.front with ⟨version', -⟩ | ⟨hd, -⟩
    · exact ⟨version', rfl⟩
    · rcases hd.cons with ⟨rfl, -⟩ | ⟨op, t, rfl, h0, h1⟩
      · exact ⟨0x00, rfl⟩
      · have hsplit := hs.split
        simp only [List.cons_append, List.cons.injEq] at hsplit
        rcases range_of_isWitnessVersion hversion with hv | hv
        · rw [← hsplit.1, hv] at h0
          exact absurd h0 (by decide)
        · rw [hsplit.1] at hv
          exact absurd h1 (UInt8.not_le.mpr hv)
  have hsplit := hs.split
  simp only [List.singleton_append, List.cons.injEq] at hsplit
  rcases hlong with hp | ⟨c, hc, hle⟩
  · exact absurd hp (by simp)
  · rw [← hsplit.2] at hc
    cases hc
    rw [UInt8.le_iff_toNat_le, hn] at hle
    exact absurd (hle.trans h40) (by decide)

/-- A spelling with a one-byte version and the one-byte header is a witness program. -/
theorem isWitnessProgram_of_spelling (hs : ProgramSpelling script p q version program)
    (hshort : ¬ (1 < p.length ∨ ∃ op ∈ q.head?, 0x4c ≤ op)) : isWitnessProgram script = true := by
  rw [not_or] at hshort
  obtain ⟨hp, hq⟩ := hshort
  have hfront : ∃ c, p = [c] ∧ isWitnessVersion c = true := by
    rcases hs.front with ⟨c, hc⟩ | ⟨hd, hok⟩
    · exact ⟨c, rfl, hc⟩
    · -- One byte that pushes is the empty push, which reads as `OP_0`.
      rename_i d
      cases hd with
      | direct _ n small len =>
        obtain rfl : d = [] := by simpa using hp
        exact ⟨n, rfl, by rw [UInt8.toNat_inj.mp (len.trans rfl : n.toNat = (0 : UInt8).toNat)]; rfl⟩
      | pushData1 _ a len => simp at hp
      | pushData2 _ a b len => simp at hp
      | pushData4 _ a b c e len => simp at hp
  obtain ⟨c, hc, hversion⟩ := hfront
  rw [isWitnessProgram_iff, hs.split, hc]
  cases hs.pushes with
  | direct _ n small len =>
    exact ⟨c, n, program, rfl, hversion, len, hs.two_le, hs.le_forty⟩
  | pushData1 _ a len => exact absurd ⟨_, rfl, by decide⟩ hq
  | pushData2 _ a b len => exact absurd ⟨_, rfl, by decide⟩ hq
  | pushData4 _ a b c e len => exact absurd ⟨_, rfl, by decide⟩ hq

/-- **Exactly the respelled scripts** are judged otherwise than by consensus. -/
theorem isSegwitScript_eq_isWitnessProgram_iff (script : Bytes) :
    isSegwitScript script = isWitnessProgram script ↔ ¬ Respelled script := by
  constructor
  · intro heq hrespelled
    obtain ⟨p, q, version, program, hs, -⟩ := id hrespelled
    have hsegwit : isSegwitScript script = true := isSegwitScript_iff.mpr ⟨_, _, _, _, hs⟩
    exact not_respelled_of_isWitnessProgram (heq ▸ hsegwit) hrespelled
  · intro hrespelled
    rw [Bool.eq_iff_iff, isSegwitScript_iff]
    constructor
    · rintro ⟨p, q, version, program, hs⟩
      exact isWitnessProgram_of_spelling hs fun hlong => hrespelled ⟨_, _, _, _, hs, hlong⟩
    · exact spelling_of_isWitnessProgram

/-! ## What selection makes of it -/

section Verdicts

variable (enc : Encoder) (u : Utxo)

theorem refuseUnsignableInput_eq_ok (encoding : Encoding) :
    refuseUnsignableInput enc encoding u = .ok () ↔
      (encoding = .taproot → isSegwitUTXO u = true) ∧
      (enc.network.supportsSegwit = false → isSegwitUTXO u = false) := by
  simp only [refuseUnsignableInput, bind_eq_ok, ensure_eq_ok]
  cases isSegwitUTXO u <;> simp

/-- A candidate is refused, and added with or without witness data, as consensus spends it. -/
structure ConsensusVerdicts : Prop where
  segwit : isSegwitUTXO u = isWitnessProgram u.scriptPubKey
  signable : ∀ encoding, refuseUnsignableInput enc encoding u = .ok () ↔
    (encoding = .taproot → isWitnessProgram u.scriptPubKey = true) ∧
    (enc.network.supportsSegwit = false → isWitnessProgram u.scriptPubKey = false)
  input : ∀ plan input, InputFor enc plan u input → nestedRedeem enc plan u = none →
    input.witnessUtxo.isSome = isWitnessProgram u.scriptPubKey

theorem consensusVerdicts_iff : ConsensusVerdicts enc u ↔ ¬ Respelled u.scriptPubKey := by
  constructor
  · intro h
    exact (isSegwitScript_eq_isWitnessProgram_iff _).mp h.segwit
  · intro h
    have hsegwit : isSegwitUTXO u = isWitnessProgram u.scriptPubKey :=
      (isSegwitScript_eq_isWitnessProgram_iff _).mpr h
    refine ⟨hsegwit, fun encoding => ?_, fun plan input hinput hnested => ?_⟩
    · rw [refuseUnsignableInput_eq_ok, hsegwit]
    · rw [← hsegwit]
      cases hkind : isSegwitUTXO u with
      | true => rw [(hinput.witness (by rw [hkind, Bool.or_true])).1]; rfl
      | false => rw [(hinput.legacy (by rw [hnested, hkind]; rfl)).1]; rfl

end Verdicts

/-- A program of two bytes behind `OP_PUSHDATA1`, which consensus spends through its `scriptSig`. -/
def respelledUtxo : Utxo where
  txid := List.replicate 64 'a'
  vout := 0
  value := 100000
  scriptPubKey := [0x00, 0x4c, 0x02, 0xaa, 0xbb]
  confirmations := 1
  redeemScript := none
  txid_hex := by decide

/-- It passes as the witness input of a TAPROOT commit. -/
theorem respelledUtxo_accepted : isWitnessProgram respelledUtxo.scriptPubKey = false ∧
    isSegwitUTXO respelledUtxo = true ∧
    refuseUnsignableInput (sampleEncoder ⟨.btc, .mainnet⟩) .taproot respelledUtxo = .ok () := by
  have hread : isWitnessProgram respelledUtxo.scriptPubKey = false ∧
      isSegwitUTXO respelledUtxo = true := by decide
  refine ⟨hread.1, hread.2, (refuseUnsignableInput_eq_ok ..).mpr ⟨fun _ => hread.2, fun h => ?_⟩⟩
  exact absurd h (by decide)

end XChain
