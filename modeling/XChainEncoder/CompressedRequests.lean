import Mathlib.Data.List.DropRight
import XChainEncoder.ActionDataChecks
import XChainEncoder.BuildStages

/-!
# Compressed requests

What compression does to a payload, and what becomes of a payload handed back compressed.

* `actionField_withCompressionField`: naming the codec changes one field of the action only;
* `Lossless`, `compressionOutcome_lossless`: **a compressed payload is the original deflated**;
* `compressionOutcome_stored`: a payload compressed once is left as it is;
* `compressedInput_stored`, `preparedPayload_refed`: a reported payload, handed back, is kept;
* `compression_reproducible`: **compression is lossless, and its report reproduces the carriers**.
-/

namespace XChain

open PushScript Coroutine

/-! ## Fields of an action -/

/-- A field of the action string, empty when it is not there. -/
def actionField (actionString : Bytes) (index : ℕ) : Bytes :=
  (actionParts actionString)[index]?.getD []

theorem not_mem_of_mem_actionParts {a part : Bytes} (h : part ∈ actionParts a) : 0x7c ∉ part := by
  induction a generalizing part with
  | nil =>
    rw [actionParts, List.splitOn_nil, List.mem_singleton] at h
    rw [h]
    exact List.not_mem_nil
  | cons b a ih =>
    rw [actionParts, List.splitOn_cons_eq_if_modifyHead] at h
    split_ifs at h with hb
    · rcases List.mem_cons.mp h with rfl | h
      · exact List.not_mem_nil
      · exact ih h
    · rw [beq_iff_eq] at hb
      cases hparts : a.splitOn (0x7c : UInt8) with
      | nil => exact absurd hparts (List.splitOn_ne_nil _ _)
      | cons head tail =>
        rw [hparts, List.modifyHead_cons] at h
        have hmem : ∀ p ∈ head :: tail, (0x7c : UInt8) ∉ p := fun p hp =>
          ih (by rw [actionParts, hparts]; exact hp)
        rcases List.mem_cons.mp h with rfl | h
        · rw [List.mem_cons, not_or]
          exact ⟨Ne.symm hb, hmem head List.mem_cons_self⟩
        · exact hmem part (List.mem_cons_of_mem _ h)

theorem getD_append_singleton_nil (parts : List Bytes) (i : ℕ) :
    (parts ++ [[]])[i]?.getD [] = parts[i]?.getD [] := by
  rcases lt_trichotomy i parts.length with h | rfl | h
  · rw [List.getElem?_append_left h]
  · simp
  · rw [List.getElem?_eq_none (by simpa using h.nat_succ_le), List.getElem?_eq_none h.le]

theorem getD_rdropWhile (parts : List Bytes) (i : ℕ) :
    (parts.rdropWhile (· = []))[i]?.getD [] = parts[i]?.getD [] := by
  induction parts using List.reverseRecOn with
  | nil => rfl
  | append_singleton parts part ih =>
    rw [List.rdropWhile_concat]
    split_ifs with h
    · rw [decide_eq_true_eq] at h
      rw [ih, h, getD_append_singleton_nil]
    · rfl

theorem getD_dropEmptyFields (parts : List Bytes) (i : ℕ) :
    (dropEmptyFields parts)[i]?.getD [] = parts[i]?.getD [] := by
  have hdrop : dropEmptyFields parts =
      parts.take 2 ++ (parts.drop 2).rdropWhile (· = []) := rfl
  rw [hdrop]
  rcases lt_or_ge i (parts.take 2).length with h | h
  · rw [List.getElem?_append_left h, List.getElem?_take_of_lt (by simp at h; omega)]
  · rw [List.getElem?_append_right h, getD_rdropWhile, List.getElem?_drop]
    rcases lt_or_ge parts.length 2 with hshort | hlong
    · rw [List.length_take] at h ⊢
      rw [List.getElem?_eq_none (by omega), List.getElem?_eq_none (by omega)]
    · rw [List.length_take, min_eq_left hlong] at h ⊢
      rw [Nat.add_sub_cancel' h]

theorem getD_append_replicate_nil (parts : List Bytes) (n i : ℕ) :
    (parts ++ List.replicate n [])[i]?.getD [] = parts[i]?.getD [] := by
  induction n with
  | zero => simp
  | succ n ih => rw [List.replicate_succ', ← List.append_assoc, getD_append_singleton_nil, ih]

theorem mem_dropEmptyFields {parts : List Bytes} {part : Bytes} (h : part ∈ dropEmptyFields parts) :
    part ∈ parts := by
  rcases List.mem_append.mp h with h | h
  · exact List.mem_of_mem_take h
  · exact List.mem_of_mem_drop ((List.rdropWhile_prefix (· = []) (parts.drop 2)).subset h)

/-- **Naming the codec changes that field of the action and no other.** -/
theorem actionField_withCompressionField (a : Bytes) {value : Bytes} (hvalue : 0x7c ∉ value) (i : ℕ) :
    actionField (withCompressionField a value) i =
      if i = compressionFieldIndex then value else actionField a i := by
  have hlength : compressionFieldIndex < (actionParts a ++
      List.replicate (compressionFieldIndex + 1 - (actionParts a).length) []).length := by
    rw [List.length_append, List.length_replicate]
    omega
  have hparts : actionParts (withCompressionField a value) = dropEmptyFields
      ((actionParts a ++ List.replicate (compressionFieldIndex + 1 - (actionParts a).length) []).set
        compressionFieldIndex value) := by
    refine List.splitOn_intercalate _ (fun part hpart => ?_) fun hnil => ?_
    · rcases List.mem_or_eq_of_mem_set (mem_dropEmptyFields hpart) with h | rfl
      · rcases List.mem_append.mp h with h | h
        · exact not_mem_of_mem_actionParts h
        · rw [List.eq_of_mem_replicate h]
          exact List.not_mem_nil
      · exact hvalue
    · -- The first two fields always stay.
      have htake := (List.append_eq_nil_iff.mp hnil).1
      rw [List.take_eq_nil_iff, or_iff_right two_ne_zero, List.set_eq_nil_iff] at htake
      rw [htake] at hlength
      exact absurd hlength (Nat.not_lt_zero _)
  rw [actionField, hparts, getD_dropEmptyFields, List.getElem?_set]
  rcases eq_or_ne compressionFieldIndex i with rfl | hne
  · rw [if_pos rfl, if_pos hlength, if_pos rfl, Option.getD_some]
  · rw [if_neg hne, if_neg (Ne.symm hne), getD_append_replicate_nil]
    rfl

/-! ## What compression keeps -/

variable (L : Library)

theorem isFileV0Action_iff {a : Bytes} : isFileV0Action (some a) = true ↔
    upperFile (actionField a 0) = [0x46, 0x49, 0x4c, 0x45] ∧ actionField a 1 = [0x30] := by
  have hhead : (actionParts a).head?.map upperFile = some (upperFile (actionField a 0)) := by
    cases hparts : actionParts a with
    | nil => exact absurd hparts (List.splitOn_ne_nil _ _)
    | cons part parts => simp [actionField, hparts]
  have hversion : (actionParts a)[1]? = some [0x30] ↔ actionField a 1 = [0x30] := by
    rw [actionField]
    cases (actionParts a)[1]? <;> simp
  simp only [isFileV0Action, Bool.and_eq_true, decide_eq_true_eq, hhead, Option.some.injEq, hversion]
  constructor
  · rintro ⟨⟨-, hname⟩, hzero⟩
    exact ⟨hname, hzero⟩
  · rintro ⟨hname, hzero⟩
    refine ⟨⟨fun hnil => ?_, hname⟩, hzero⟩
    rw [hnil] at hname
    cases hname

theorem fileField_of_isFileV0Action {a : Bytes} (h : isFileV0Action (some a) = true) (i : ℕ) :
    fileField (some a) i = actionField a i := by
  rw [fileField, if_pos h]
  rfl

/-- What a compression result is to its payload: its own bytes deflated, under an action that names
the codec, or the payload unchanged. -/
structure Lossless (actionString : Option Bytes) (rawDataBuffer : Bytes) (r : CompressionResult) :
    Prop where
  deflated : r.compressed = true → L.deflateRaw rawDataBuffer = some r.rawData
  named : r.compressed = true → ∃ a named, actionString = some a ∧ r.data = some named ∧
    actionField named compressionFieldIndex = compressionCodeDeflateRaw ∧
    ∀ i, i ≠ compressionFieldIndex → actionField named i = actionField a i
  smaller : r.compressed = true → r.rawData.length < rawDataBuffer.length ∧
    rawDataBuffer.length ≤ r.rawData.length * compressionMaxRatio
  declared : r.compressed = true → isFileV0Action actionString = true ∧
    isGatedFileAction actionString = false ∧ compressionFieldOf actionString = []
  unchanged : r.compressed = false → r.data = actionString ∧ r.rawData = rawDataBuffer

theorem lossless_unchangedPayload (actionString : Option Bytes) (rawDataBuffer : Bytes)
    (reason : String) : Lossless L actionString rawDataBuffer
      (unchangedPayload actionString rawDataBuffer reason) where
  deflated h := by cases h
  named h := by cases h
  smaller h := by cases h
  declared h := by cases h
  unchanged _ := ⟨rfl, rfl⟩

/-- A payload past the guard is one of an ungated FILE v0 that declares no codec. -/
theorem guardCompressible_eq_none {actionString : Option Bytes} {rawDataBuffer : Bytes}
    (h : guardCompressible actionString rawDataBuffer = none) :
    isFileV0Action actionString = true ∧ isGatedFileAction actionString = false ∧
      compressionFieldOf actionString = [] := by
  unfold guardCompressible at h
  split_ifs at h with hfile hgated hcodec hcap
  exact ⟨by simpa using hfile, by simpa using hgated, not_not.mp hcodec⟩

variable {L}

/-- **A compressed payload is the original deflated; any other comes back unchanged.** -/
theorem compressionOutcome_lossless {actionString : Option Bytes} {rawDataBuffer : Bytes}
    {explicit : Bool} {r : CompressionResult}
    (h : compressionOutcome L actionString rawDataBuffer explicit = .ok r) :
    Lossless L actionString rawDataBuffer r := by
  unfold compressionOutcome at h
  by_cases hempty : rawDataBuffer = []
  · rw [if_pos hempty] at h
    cases h
    exact lossless_unchangedPayload ..
  rw [if_neg hempty] at h
  cases hguard : guardCompressible actionString rawDataBuffer with
  | some refusal =>
    rw [hguard] at h
    cases explicit
    · cases h
      exact lossless_unchangedPayload ..
    · cases h
  | none =>
    rw [hguard] at h
    obtain ⟨hfile, hgated, hcodec⟩ := guardCompressible_eq_none hguard
    cases hdeflate : L.deflateRaw rawDataBuffer with
    | none =>
      rw [hdeflate] at h
      cases h
      exact lossless_unchangedPayload ..
    | some deflated =>
      rw [hdeflate] at h
      cases h
      unfold acceptDeflated
      split_ifs with hsmaller hratio
      · exact lossless_unchangedPayload ..
      · exact lossless_unchangedPayload ..
      · cases actionString with
        | none => cases hfile
        | some a =>
          refine ⟨fun _ => hdeflate, fun _ => ⟨a, _, rfl, rfl, ?_, fun i hi => ?_⟩,
            fun _ => ⟨not_le.mp hsmaller, not_lt.mp hratio⟩, fun _ => ⟨hfile, hgated, hcodec⟩,
            fun hc => by cases hc⟩
          · rw [actionField_withCompressionField a (by decide), if_pos rfl]
          · rw [actionField_withCompressionField a (by decide), if_neg hi]

/-! ## A stored payload -/

theorem compressionOutcome_of_explicit {actionString : Option Bytes} {rawDataBuffer : Bytes}
    {explicit : Bool} {r : CompressionResult}
    (h : compressionOutcome L actionString rawDataBuffer explicit = .ok r) :
    compressionOutcome L actionString rawDataBuffer false = .ok r := by
  cases explicit with
  | false => exact h
  | true =>
    unfold compressionOutcome at h ⊢
    by_cases hempty : rawDataBuffer = []
    · rw [if_pos hempty] at h ⊢
      exact h
    rw [if_neg hempty] at h ⊢
    cases hguard : guardCompressible actionString rawDataBuffer with
    | some refusal =>
      rw [hguard] at h
      cases h
    | none =>
      rw [hguard] at h
      exact h

/-- **A payload compressed once is left as it is.** -/
theorem compressionOutcome_stored {actionString : Option Bytes} {rawDataBuffer : Bytes}
    {explicit : Bool} {r : CompressionResult}
    (h : compressionOutcome L actionString rawDataBuffer explicit = .ok r) :
    ∃ again, compressionOutcome L r.data r.rawData false = .ok again ∧ again.compressed = false := by
  have hlossless := compressionOutcome_lossless h
  cases hc : r.compressed with
  | false =>
    obtain ⟨hdata, hraw⟩ := hlossless.unchanged hc
    rw [hdata, hraw]
    exact ⟨r, compressionOutcome_of_explicit h, hc⟩
  | true =>
    obtain ⟨a, named, ha, hnamed, hcodec, hkept⟩ := hlossless.named hc
    obtain ⟨hfile, -, -⟩ := hlossless.declared hc
    have hfile' : isFileV0Action (some named) = true := by
      rw [isFileV0Action_iff, hkept 0 (by decide), hkept 1 (by decide)]
      rwa [ha, isFileV0Action_iff] at hfile
    have hcodec' : compressionFieldOf (some named) ≠ [] := by
      rw [compressionFieldOf, fileField_of_isFileV0Action hfile', hcodec]
      decide
    rw [hnamed]
    unfold compressionOutcome
    by_cases hempty : r.rawData = []
    · exact ⟨_, if_pos hempty, rfl⟩
    · cases hgated : isGatedFileAction (some named) with
      | false =>
        rw [if_neg hempty, guardCompressible, if_neg (by simp [hfile']), if_neg (by simp [hgated]),
          if_pos hcodec']
        exact ⟨_, rfl, rfl⟩
      | true =>
        rw [if_neg hempty, guardCompressible, if_neg (by simp [hfile']), if_pos hgated]
        exact ⟨_, rfl, rfl⟩

variable {enc : Encoder} {request : TxRequest}

theorem compressedInput_reported {compress : Option Bool} {data rawData : Option Bytes}
    {input : PayloadInput} {r : CompressionResult}
    (h : compressedInput enc compress data rawData = .ok input)
    (hr : input.compressionResult = some r) :
    input.data = r.data ∧ input.rawData = some r.rawData ∧
      ∃ rawDataBuffer, rawData = some rawDataBuffer ∧
        compressionOutcome enc.lib data rawDataBuffer compress.isSome = .ok r := by
  unfold compressedInput at h
  split at h
  next originalBuffer _ =>
    cases houtcome : compressionOutcome enc.lib data originalBuffer compress.isSome with
    | error e =>
      rw [houtcome] at h
      cases h
    | ok result =>
      rw [houtcome] at h
      cases h
      unfold applyCompression at hr ⊢
      split_ifs at hr ⊢ with hc
      · cases hr
        exact ⟨rfl, rfl, originalBuffer, rfl, houtcome⟩
      · cases hr
        obtain ⟨hdata, hraw⟩ := (compressionOutcome_lossless houtcome).unchanged (by simpa using hc)
        exact ⟨hdata.symm, congrArg some hraw.symm, originalBuffer, rfl, houtcome⟩
  · cases h
    cases hr

/-- **A reported payload, handed back, is not changed again.** -/
theorem compressedInput_stored {compress : Option Bool} {data rawData : Option Bytes}
    {input : PayloadInput} {r : CompressionResult}
    (h : compressedInput enc compress data rawData = .ok input)
    (hr : input.compressionResult = some r) {again : Option Bool} (hagain : again ≠ some true) :
    ∃ result, compressedInput enc again r.data (some r.rawData) =
      .ok ⟨input.data, input.rawData, result⟩ := by
  obtain ⟨hdata, hraw, rawDataBuffer, -, houtcome⟩ := compressedInput_reported h hr
  obtain ⟨result, hresult, hc⟩ := compressionOutcome_stored houtcome
  rw [hdata, hraw]
  unfold compressedInput
  match again with
  | some true => exact absurd rfl hagain
  | some false => exact ⟨none, rfl⟩
  | none =>
    cases enc.defaultCompressionEnabled with
    | false => exact ⟨none, rfl⟩
    | true =>
      refine ⟨some result, ?_⟩
      simp only [Option.getD_none, Option.isSome_none, hresult, Except.map, applyCompression, hc]
      rfl

/-- The request with a reported payload: the raw data has been a string on the way. -/
def TxRequest.refed (request : TxRequest) (r : CompressionResult) (again : Option Bool) : TxRequest :=
  { request with
    data := r.data
    rawData := some (bufferFromBinary (binaryString r.rawData))
    compress := again }

/-- **And prepares the same carriers.** -/
theorem preparedPayload_refed {input : PayloadInput} {r : CompressionResult}
    (h : compressedInput enc request.compress request.data request.rawData = .ok input)
    (hr : input.compressionResult = some r) {again : Option Bool} (hagain : again ≠ some true) :
    preparedPayload enc (request.refed r again) = preparedPayload enc request := by
  obtain ⟨result, hstored⟩ := compressedInput_stored h hr hagain
  unfold preparedPayload TxRequest.refed
  dsimp only
  rw [bufferFromBinary_binaryString, hstored, h]
  rfl

/-! ## Two builds -/

theorem Planned.compression_eq {plan : Plan} (h : Planned enc request plan) :
    ∃ input, compressedInput enc request.compress request.data request.rawData = .ok input ∧
      plan.compression = input.compressionResult := by
  obtain ⟨pre, bound, hpre, hplan⟩ := h.prepared
  obtain ⟨prepared, -, heq⟩ := bind_eq_ok.mp hplan
  cases heq
  exact ⟨pre.input, hpre.input, rfl⟩

theorem Planned.prepared_eq {plan : Plan} (h : Planned enc request plan) :
    preparedPayload enc request = .ok plan.prepared := by
  obtain ⟨pre, bound, hpre, hplan⟩ := h.prepared
  exact (planBuild_eq_ok hpre hplan).2.2

theorem returns_planned (enc : Encoder) (request : TxRequest) :
    Returns (fun b => Planned enc request b.plan) (buildSteps enc request) := by
  refine always_mono (fun b hb => hb.planned) (fun _ h => h)
    (returns_buildSteps (E := fun _ _ _ => True) (S := fun _ _ _ => True) (fun _ _ => ?_)
      fun _ _ _ _ _ _ _ => ?_)
  · exact always_mono (fun _ _ => trivial) (fun _ h => h) always_true
  · exact always_mono (fun _ _ => trivial) (fun _ h => h) always_true

/-- **Compression is lossless, and its report reproduces the carriers.** A compressed payload inflates
to the original under an action that differs in the codec field only; a build of the reported payload,
with compression at its default or off, takes it as it is and prepares the buffers of the first. -/
theorem compression_reproducible (enc : Encoder) (inflate : Bytes → Option Bytes)
    (hinflate : ∀ b d, enc.lib.deflateRaw b = some d → inflate d = some b) :
    (∀ actionString rawDataBuffer explicit, Returns (fun r =>
      Lossless enc.lib actionString rawDataBuffer r ∧
      (r.compressed = true → inflate r.rawData = some rawDataBuffer))
      (compressPayloadForAction enc.lib actionString rawDataBuffer explicit)) ∧
    ∀ request, Returns (fun b => ∀ r, b.plan.compression = some r → ∀ again, again ≠ some true →
      Always (fun input => input.data = r.data ∧ input.rawData = some r.rawData) (fun _ => False)
        (compressPayload enc again r.data (some (bufferFromBinary (binaryString r.rawData)))) ∧
      Returns (fun b' => b'.plan.prepared = b.plan.prepared)
        (buildSteps enc (request.refed r again))) (buildSteps enc request) := by
  refine ⟨fun actionString rawDataBuffer explicit => ?_, fun request => ?_⟩
  · refine always_mono (fun r hr => ?_) (fun _ _ => trivial) (always_compressPayloadForAction ..)
    have hlossless := compressionOutcome_lossless hr
    exact ⟨hlossless, fun hc => hinflate _ _ (hlossless.deflated hc)⟩
  · refine always_mono (fun b hb r hr again hagain => ?_) (fun _ h => h) (returns_planned enc request)
    obtain ⟨input, hinput, hcompression⟩ := hb.compression_eq
    have hreported := hcompression.symm.trans hr
    obtain ⟨hdata, hraw, -⟩ := compressedInput_reported hinput hreported
    obtain ⟨result, hstored⟩ := compressedInput_stored hinput hreported hagain
    constructor
    · rw [bufferFromBinary_binaryString]
      refine always_mono (fun again' h => ?_) (fun e h => ?_) (always_compressPayload ..)
      · rw [hstored] at h
        cases h
        exact ⟨hdata, hraw⟩
      · rw [hstored] at h
        cases h
    · refine always_mono (fun b' hb' => ?_) (fun _ h => h) (returns_planned enc _)
      have hprepared := hb'.prepared_eq
      rw [preparedPayload_refed hinput hreported hagain, hb.prepared_eq] at hprepared
      exact (Except.ok.inj hprepared).symm

/-! ## A run -/

/-- Sixteen bytes `A`, and what `deflateRaw` makes of them. -/
def repeatedPayload : Bytes := List.replicate 16 0x41
def deflatedPayload : Bytes := [0x73, 0x74, 0x44, 0x05, 0x00]

/-- The sample encoder with a library that deflates the sample payload. -/
def deflatingEncoder : Encoder :=
  { sampleEncoder ⟨.btc, .mainnet⟩ with
    lib := { sampleLibrary with
      deflateRaw := fun b => if b = repeatedPayload then some deflatedPayload else none } }

/-- `FILE|0` is stored as `FILE|0|||||||||1`, with five bytes. -/
theorem compression_reproducible_file :
    compressionOutcome deflatingEncoder.lib (some [0x46, 0x49, 0x4c, 0x45, 0x7c, 0x30])
      repeatedPayload true = .ok ⟨some ([0x46, 0x49, 0x4c, 0x45, 0x7c, 0x30] ++
        List.replicate 9 0x7c ++ [0x31]), deflatedPayload, true, 16, 5, none⟩ ∧
    Returns (fun r => Lossless deflatingEncoder.lib (some [0x46, 0x49, 0x4c, 0x45, 0x7c, 0x30])
        repeatedPayload r ∧ (r.compressed = true →
          (if r.rawData = deflatedPayload then some repeatedPayload else none) = some repeatedPayload))
      (compressPayloadForAction deflatingEncoder.lib (some [0x46, 0x49, 0x4c, 0x45, 0x7c, 0x30])
        repeatedPayload true) := by
  refine ⟨by decide +kernel, (compression_reproducible deflatingEncoder
    (fun d => if d = deflatedPayload then some repeatedPayload else none) (fun b d h => ?_)).1 _ _ _⟩
  simp only [deflatingEncoder] at h
  split_ifs at h with hb
  cases h
  rw [hb, if_pos rfl]

end XChain
