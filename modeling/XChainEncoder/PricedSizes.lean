import XChainEncoder.KeyBinding
import XChainEncoder.SignedSizes

/-!
# Priced sizes

The size that a funding build is priced at, in terms of its outputs and its inputs.

* `PlainChunks`, `prepareDataChunks_plain`: the lengths of the buffers of the plain carriers;
* `Emission.Sized`, `returns_emitOutputs_sized`: **emission charges what its outputs take, and 43
  bytes for a payment**;
* `SizedSelection`, `sized_invariant`: **selection charges each input, the marker and the count**.
-/

namespace XChain

open PushScript Coroutine Chunking

variable {enc : Encoder} {plan : Plan} {emitted : Emitted} {request : TxRequest}

/-! ## Output scripts -/

theorem length_embedScript {data : Bytes} (h : 2 ≤ data.length) (hd : data.length ≤ 0xffff) :
    (embedScript data).length = 1 + compiledPushSize data.length := by
  rw [embedScript, length_compile_cons, length_compile_cons, length_compileElement_push_of_two_le h hd]
  rfl

theorem estimateOpReturnOutput_eq {data : Bytes} (h : 2 ≤ data.length) (hd : data.length ≤ 0xffff) :
    estimateOpReturnOutput data.length = outputBytes (embedScript data) := by
  simp only [estimateOpReturnOutput, outputBytes, Spend.scriptSize, length_embedScript h hd]
  omega

theorem outputBytes_of_length {script : Bytes} {n : ℕ} (h : script.length = n) (hn : n < 253) :
    outputBytes script = 9 + n := by
  rw [outputBytes, scriptSize_of_lt (by omega), h]
  omega

theorem outputBytes_p2sh (L : Library) (script : Bytes) : outputBytes (p2shScript L script) = 32 := by
  refine outputBytes_of_length (n := 23) ?_ (by omega)
  have hhash := L.hash160_length script
  simp only [p2shScript, length_compile_cons]
  rw [length_compileElement_push_of_two_le (by omega) (by omega), hhash]
  rfl

theorem outputBytes_p2wsh (L : Library) (script : Bytes) : outputBytes (p2wshScript L script) = 43 := by
  refine outputBytes_of_length (n := 34) ?_ (by omega)
  have hhash := L.sha256_length script
  simp only [p2wshScript, length_compile_cons]
  rw [length_compileElement_push_of_two_le (by omega) (by omega), hhash]
  rfl

theorem outputBytes_p2tr {L : Library} {key data script : Bytes}
    (h : p2trScript L key data = some script) : outputBytes script = 43 := by
  obtain ⟨q, hq, rfl⟩ := Option.map_eq_some_iff.mp h
  refine outputBytes_of_length (n := 34) ?_ (by omega)
  have hlength := L.taprootKey_length _ _ _ hq
  simp only [length_compile_cons]
  rw [length_compileElement_push_of_two_le (by omega) (by omega), hlength]
  rfl

theorem outputBytes_p2ms {L : Library} {a b c script : Bytes} (ha : a.length = 33)
    (hb : b.length = 33) (hc : c.length = 33) (h : p2msScript L [a, b, c] = some script) :
    outputBytes script = 114 := by
  unfold p2msScript at h
  split_ifs at h
  cases h
  refine outputBytes_of_length (n := 105) ?_ (by omega)
  simp only [List.map_cons, List.map_nil, List.cons_append, List.nil_append, length_compile_cons]
  rw [length_compileElement_push_of_two_le (d := a) (by omega) (by omega),
    length_compileElement_push_of_two_le (d := b) (by omega) (by omega),
    length_compileElement_push_of_two_le (d := c) (by omega) (by omega), ha, hb, hc]
  rfl

theorem length_dataToPubkey {d : Bytes} (h : d.length ≤ 32) : (dataToPubkey d).length = 33 := by
  simp only [dataToPubkey, List.length_cons, List.length_append, List.length_replicate]
  omega

/-! ## The buffers of the plain carriers -/

/-- How long the buffers are that go into an output as they are. -/
structure PlainChunk (encoding : Encoding) (chunk : Bytes) : Prop where
  opReturn : encoding = .opReturn → 2 ≤ chunk.length ∧ chunk.length ≤ 0xffff
  multisign : encoding = .multisign → chunk.length ≤ 64

theorem prepareDataChunks_plain {hasActionPayload : Bool} {data : Bytes} {encoding : Option Encoding}
    {pubkey : Text} {key : Option Bytes} {prepared : PreparedData}
    (h : prepareDataChunks enc hasActionPayload data encoding pubkey key = .ok prepared) :
    ∀ chunk ∈ prepared.dataBufferArray, PlainChunk prepared.encoding chunk := by
  unfold prepareDataChunks at h
  split_ifs at h
  · unfold prepareData at h
    dsimp only at h
    generalize encoding.getD _ = carrier at h
    have hother : ∀ {e : Encoding} {chunk : Bytes}, e ≠ .opReturn → e ≠ .multisign →
        PlainChunk e chunk := fun h h' => ⟨fun he => absurd he h, fun he => absurd he h'⟩
    cases carrier with
    | opReturn =>
      obtain ⟨_, hlength, heq⟩ := bind_eq_ok.mp h
      cases heq
      intro chunk hchunk
      rw [List.mem_singleton.mp hchunk]
      have hle : data.length ≤ 76 := of_decide_eq_true (ensure_eq_ok.mp hlength)
      refine ⟨fun _ => ?_, fun he => (by cases he)⟩
      rw [List.length_append, show magicWord.length = 4 from rfl]
      omega
    | multisign =>
      cases h
      intro chunk hchunk
      obtain ⟨slot, hslot, rfl⟩ := List.mem_map.mp hchunk
      refine ⟨fun he => (by cases he), fun _ => (length_multisignSlot ?_).le⟩
      exact (length_le_of_mem_slice (by decide) data slot hslot).2
    | taproot =>
      have h : envelopePayload enc.lib data .taproot key = .ok prepared := h
      unfold envelopePayload at h
      cases key with
      | none => cases h
      | some key =>
        obtain ⟨_, -, heq⟩ := bind_eq_ok.mp h
        cases heq
        exact fun chunk _ => hother (e := .taproot) (by decide) (by decide)
    | p2sh =>
      obtain ⟨_, -, heq⟩ := bind_eq_ok.mp h
      cases heq
      exact fun chunk _ => hother (e := .p2sh) (by decide) (by decide)
    | p2wsh =>
      obtain ⟨_, -, heq⟩ := bind_eq_ok.mp h
      cases heq
      exact fun chunk _ => hother (e := .p2wsh) (by decide) (by decide)
  · cases h
    rintro chunk ⟨⟩

theorem Planned.plain (h : Planned enc request plan) :
    ∀ chunk ∈ plan.prepared.dataBufferArray, PlainChunk plan.prepared.encoding chunk := by
  obtain ⟨pre, bound, -, hplan⟩ := h.prepared
  obtain ⟨prepared, hprepared, heq⟩ := bind_eq_ok.mp hplan
  cases heq
  exact prepareDataChunks_plain hprepared

/-! ## Emission -/

/-- The bytes of all outputs. -/
def outputsBytes (outputs : List TxOut) : ℕ := (outputs.map fun out => outputBytes out.script).sum

/-- The size so far is the header and the outputs. -/
structure Emission.Sized (e : Emission) : Prop where
  size : ∀ psbt, e.psbt = some psbt → e.estimatedTxSize = 10 + outputsBytes psbt.outputs
  inputs : ∀ psbt, e.psbt = some psbt → psbt.inputs = []

theorem outputsBytes_append (outputs : List TxOut) (out : TxOut) :
    outputsBytes (outputs ++ [out]) = outputsBytes outputs + outputBytes out.script := by
  simp [outputsBytes]

theorem sized_start (price : RevealOutputsPrice) : (Emission.start plan price).Sized := by
  refine ⟨fun psbt hpsbt => ?_, fun psbt hpsbt => ?_⟩
  · unfold Emission.start at hpsbt
    dsimp only at hpsbt
    split_ifs at hpsbt
    cases hpsbt
    rfl
  · unfold Emission.start at hpsbt
    dsimp only at hpsbt
    split_ifs at hpsbt
    cases hpsbt
    rfl

theorem sized_output {e e' : Emission} {psbt psbt' : Psbt} {script : Bytes} {value : ℤ}
    {plainNumber : Bool} (he : e.Sized) (hpsbt : e.psbt = some psbt)
    (hout : psbt.addOutput script value plainNumber = .ok psbt') (hpsbt' : e'.psbt = some psbt')
    (hsize : e'.estimatedTxSize = e.estimatedTxSize + outputBytes script) : e'.Sized := by
  obtain ⟨-, -, rfl⟩ := Psbt.addOutput_eq_ok.mp hout
  refine ⟨fun p hp => ?_, fun p hp => ?_⟩
  · cases hpsbt'.symm.trans hp
    rw [hsize, he.size psbt hpsbt, outputsBytes_append, Nat.add_assoc]
  · cases hpsbt'.symm.trans hp
    exact he.inputs psbt hpsbt

theorem emitDataOutput_sized {e e' : Emission} {script : Bytes} {value : ℤ} {size : ℕ}
    (he : e.Sized) (hsize : size = outputBytes script)
    (h : emitDataOutput e script value size = .ok e') : e'.Sized := by
  simp only [emitDataOutput, bind_eq_ok, requirePsbt_eq_ok] at h
  obtain ⟨psbt, hpsbt, psbt', hout, heq⟩ := h
  cases heq
  exact sized_output he hpsbt hout rfl (by rw [hsize])

@[simp] theorem fundCustomOutputs_size (fee : ℤ) (e : Emission) :
    (fundCustomOutputs fee e).2.estimatedTxSize = e.estimatedTxSize := by
  unfold fundCustomOutputs
  split_ifs <;> rfl

@[simp] theorem topUpFirstLeg_size (price : RevealOutputsPrice) (encoding : Encoding)
    (fee : ℤ) (e : Emission) (psbt : Psbt) :
    (topUpFirstLeg enc plan price encoding fee e psbt).2.estimatedTxSize = e.estimatedTxSize := by
  unfold topUpFirstLeg
  split_ifs <;> rfl

theorem fundP2shLeg_sized {price : RevealOutputsPrice} {e e' : Emission} {chunk : Bytes}
    (he : e.Sized) (h : fundP2shLeg enc plan price e chunk = .ok e') : e'.Sized := by
  simp only [fundP2shLeg, bind_eq_ok, requirePsbt_eq_ok] at h
  obtain ⟨psbt, hpsbt, psbt', hout, heq⟩ := h
  cases heq
  refine sized_output he hpsbt hout rfl ?_
  rw [outputBytes_p2sh]
  simp [estimateP2shOutput]

theorem fundP2wshLeg_sized {price : RevealOutputsPrice} {e e' : Emission} {chunk : Bytes}
    (he : e.Sized) (h : fundP2wshLeg enc plan price e chunk = .ok e') : e'.Sized := by
  simp only [fundP2wshLeg, bind_eq_ok, requirePsbt_eq_ok] at h
  obtain ⟨psbt, hpsbt, psbt', hout, heq⟩ := h
  cases heq
  refine sized_output he hpsbt hout rfl ?_
  rw [outputBytes_p2wsh]
  dsimp only
  split_ifs <;> simp [estimateP2wshOutput]

theorem loadFundingTx_sized {e e' : Emission} (he : e.Sized)
    (h : loadFundingTx enc plan e = .ok e') : e'.Sized := by
  unfold loadFundingTx at h
  split at h
  · split at h
    · cases h
    · obtain ⟨_, -, heq⟩ := bind_eq_ok.mp h
      cases heq
      exact ⟨he.size, he.inputs⟩
  · cases h
    exact he

/-- **Every chunk of a funding build is charged what its output takes.** -/
theorem returns_emitChunk_sized {price : RevealOutputsPrice} (hfunding : plan.isReveal = false)
    (hkey : ∀ key, plan.request.compressedPubKey = some key → key.length = 33) {chunk : Bytes}
    (hchunk : PlainChunk plan.prepared.encoding chunk) {e : Emission} (he : e.Sized) :
    Returns Emission.Sized (emitChunk enc plan price e chunk) := by
  have hnone : plan.request.p2shHash = none := by simpa [Plan.isReveal] using hfunding
  unfold emitChunk
  cases hcarrier : plan.prepared.encoding with
  | opReturn =>
    refine .bind (returns_awaitObfuscate chunk e.txidFirstInput) fun d hd => ?_
    refine returns_ofExcept fun e' h => emitDataOutput_sized he ?_ h
    obtain ⟨txid, -, hd⟩ := Option.bind_eq_some_iff.mp hd
    obtain ⟨hle, hle'⟩ := hchunk.opReturn hcarrier
    have hlength := obfuscate_length hd
    exact estimateOpReturnOutput_eq (by omega) (by omega)
  | multisign =>
    refine .bind (returns_awaitObfuscate chunk e.txidFirstInput) fun d hd => ?_
    refine .bind_right fun _ => .bind_right fun _ => returns_ofExcept fun e' h => ?_
    obtain ⟨txid, -, hd⟩ := Option.bind_eq_some_iff.mp hd
    have hlength := obfuscate_length hd
    have hle := hchunk.multisign hcarrier
    unfold emitMultisignOutput at h
    cases hcompressed : plan.request.compressedPubKey with
    | none =>
      rw [hcompressed] at h
      cases h
    | some key =>
      simp only [hcompressed] at h
      cases hscript : p2msScript enc.lib [dataToPubkey (d.take 32), dataToPubkey (d.drop 32), key] with
      | none =>
        rw [hscript] at h
        cases h
      | some script =>
        simp only [hscript] at h
        refine emitDataOutput_sized he (outputBytes_p2ms ?_ ?_ (hkey key hcompressed) hscript).symm h
        · exact length_dataToPubkey (by rw [List.length_take]; omega)
        · exact length_dataToPubkey (by rw [List.length_drop]; omega)
  | taproot =>
    refine returns_ofExcept fun e' h => ?_
    simp only [emitEnvelopeCommit, bind_eq_ok, requirePsbt_eq_ok] at h
    obtain ⟨psbt, hpsbt, h⟩ := h
    cases hscript : p2trScript enc.lib (plan.prepared.internalPubkey.getD []) chunk with
    | none =>
      rw [hscript] at h
      cases h
    | some script =>
      simp only [hscript, bind_eq_ok] at h
      obtain ⟨_, -, e'', hout, heq⟩ := h
      cases heq
      have he'' := emitDataOutput_sized he (outputBytes_p2tr hscript).symm hout
      exact ⟨he''.size, he''.inputs⟩
  | p2sh =>
    refine .bind (returns_ofExcept fun e' h => loadFundingTx_sized he h) fun e' he' => ?_
    rw [hnone]
    exact returns_ofExcept fun e'' h => fundP2shLeg_sized he' h
  | p2wsh =>
    refine .bind (returns_ofExcept fun e' h => loadFundingTx_sized he h) fun e' he' => ?_
    rw [hnone]
    exact returns_ofExcept fun e'' h => fundP2wshLeg_sized he' h

theorem returns_emitDataOutputs_sized {price : RevealOutputsPrice} (hfunding : plan.isReveal = false)
    (hkey : ∀ key, plan.request.compressedPubKey = some key → key.length = 33) (chunks : List Bytes)
    (hchunks : ∀ chunk ∈ chunks, PlainChunk plan.prepared.encoding chunk) {e : Emission}
    (he : e.Sized) : Returns Emission.Sized (emitDataOutputs enc plan price chunks e) := by
  induction chunks generalizing e with
  | nil => exact he
  | cons chunk rest ih =>
    refine .bind (returns_emitChunk_sized hfunding hkey (hchunks chunk List.mem_cons_self) he)
      fun e' he' => ?_
    exact ih (fun c hc => hchunks c (List.mem_cons_of_mem _ hc)) he'

/-! ### Payments -/

/-- The payments that the transaction itself carries. -/
def paidOutputs (plan : Plan) : List CustomOutput :=
  if !plan.isReveal && plan.isP2shFamily then [] else plan.payments.customOutputs

/-- What the 43 bytes that a payment is charged leave. -/
def paymentSpare (enc : Encoder) (o : CustomOutput) : ℤ :=
  43 - outputBytes ((enc.lib.toOutputScript enc.network o.address).getD [])

theorem emitPayments_sized {feeQuoteIndex : Option ℕ} (outputs : List CustomOutput) (i : ℕ)
    (psbt : Psbt) (total : ℤ) (size : ℕ) {acc : Psbt × ℤ × ℕ}
    (h : emitPayments enc feeQuoteIndex outputs i (psbt, total, size) = .ok acc) :
    acc.1.inputs = psbt.inputs ∧ (acc.2.2 : ℤ) = outputsBytes acc.1.outputs +
      (size - outputsBytes psbt.outputs) + (outputs.map (paymentSpare enc)).sum := by
  induction outputs generalizing i psbt total size with
  | nil =>
    cases h
    simp
  | cons o rest ih =>
    obtain ⟨v, psbt', -, -, hadd, hrest⟩ := emitPayments_cons.mp h
    obtain ⟨script, hscript, hout⟩ := Psbt.addAddressOutput_eq_ok.mp hadd
    obtain ⟨-, -, rfl⟩ := Psbt.addOutput_eq_ok.mp hout
    obtain ⟨hinputs, hsize⟩ := ih _ _ _ _ hrest
    refine ⟨hinputs, ?_⟩
    have hone : paymentSpare enc o = 43 - outputBytes script := by
      rw [paymentSpare, hscript, Option.getD_some]
    simp only [outputsBytes_append] at hsize
    rw [List.map_cons, List.sum_cons, hone, hsize]
    push_cast
    omega

/-- What emission has charged. -/
structure EmittedSized (enc : Encoder) (plan : Plan) (emitted : Emitted) : Prop where
  size : (emitted.estimatedTxSize : ℤ) = 10 + outputsBytes emitted.psbt.outputs +
    ((paidOutputs plan).map (paymentSpare enc)).sum
  inputs : emitted.psbt.inputs = []

/-- **A funding build's emission charges what its outputs take, and 43 bytes for a payment.** -/
theorem returns_emitOutputs_sized (hplan : Planned enc request plan)
    (hfunding : plan.isReveal = false)
    (hkey : ∀ key, plan.request.compressedPubKey = some key → key.length = 33) :
    Returns (fun r => EmittedSized enc plan r.2) (emitOutputs enc plan) := by
  refine .bind_right fun price => ?_
  refine .bind (returns_emitDataOutputs_sized hfunding hkey _ hplan.plain (sized_start price))
    fun e he => ?_
  refine .bind (returns_ofExcept fun _ h => h) fun em hem => ?_
  simp only [emitCustomOutputs, bind_eq_ok, requirePsbt_eq_ok] at hem
  obtain ⟨psbt, hpsbt, acc, hacc, heq⟩ := hem
  cases heq
  obtain ⟨hinputs, hsize⟩ := emitPayments_sized _ _ _ _ _ hacc
  refine ⟨?_, hinputs.trans (he.inputs psbt hpsbt)⟩
  have hstart := he.size psbt hpsbt
  show (acc.2.2 : ℤ) = _
  rw [hsize, hstart]
  simp only [paidOutputs]
  push_cast
  ring

/-! ## Selection -/

/-- What selection has charged for its inputs. -/
structure SizedSelection (enc : Encoder) (emitted : Emitted) (start sel : Selection) : Prop where
  outputs : sel.psbt.outputs = emitted.psbt.outputs
  ids : ∀ input ∈ sel.psbt.inputs, isTxid input.hash = true
  count : sel.selectedInputCount = sel.psbt.inputs.length
  marker : sel.segwitMarkerCounted = sel.psbt.inputs.any fun input => input.witnessUtxo.isSome
  size : sel.estimatedTxSize = start.estimatedTxSize +
    (sel.psbt.inputs.map (estimateInputSize enc.lib)).sum +
    (if sel.segwitMarkerCounted then 1 else 0) + (if 253 ≤ sel.selectedInputCount then 2 else 0)

/-- A candidate has a witness exactly where its input names its output. -/
theorem InputFor.witness_iff {u : Utxo} {input : PsbtInput} (h : InputFor enc plan u input) :
    ((nestedRedeem enc plan u).isSome || isSegwitUTXO u) = input.witnessUtxo.isSome := by
  cases hkind : (nestedRedeem enc plan u).isSome || isSegwitUTXO u with
  | true =>
    rw [(h.witness hkind).1]
    rfl
  | false =>
    rw [(h.legacy hkind).1]
    rfl

/-- **Each input, the marker and the count are charged once.** -/
theorem sized_invariant (start : Selection) :
    SelectionInvariant enc plan emitted (SizedSelection enc emitted start) where
  skip _ h := ⟨h.outputs, h.ids, h.count, h.marker, h.size⟩
  add u acc acc' _ h hadds := by
    obtain ⟨input, hinput, hadd⟩ := hadds.input
    obtain ⟨psbt, hpsbt, hacc⟩ := bind_eq_ok.mp hadd
    cases hacc
    obtain ⟨hid, -, rfl⟩ := Psbt.addInput_eq_ok.mp hpsbt
    have hwitness := hinput.witness_iff
    have hcount := h.count
    have hsize := h.size
    have hmarker := h.marker
    refine ⟨h.outputs, fun i hi => ?_, ?_, ?_, ?_⟩
    · rcases List.mem_append.mp hi with hi | hi
      · exact h.ids i hi
      · rw [List.mem_singleton.mp hi]
        exact isTxid_lower hid.1
    · rw [List.length_append, ← hcount]
      rfl
    · dsimp only
      rw [List.any_append, ← hmarker, hwitness]
      simp
    · have hsame : estimateInputSize enc.lib { input with hash := lower input.hash } =
          estimateInputSize enc.lib input := rfl
      simp only [List.map_append, List.sum_append, List.map_cons, List.map_nil, List.sum_cons,
        List.sum_nil, hsame, framingBytesForInput, hwitness, hsize]
      cases acc.segwitMarkerCounted <;> cases input.witnessUtxo.isSome <;>
        simp only [Bool.not_true, Bool.not_false, Bool.and_true, Bool.and_false, Bool.or_true,
          Bool.or_false, if_true, if_false, Bool.false_eq_true] <;>
        split_ifs <;> omega

theorem sized_startSelection {fee : Option ℤ} {start : Selection} (hinputs : emitted.psbt.inputs = [])
    (h : initSelection fee emitted = .ok start) : SizedSelection enc emitted start start := by
  rw [initSelection_eq_ok h]
  refine ⟨rfl, ?_, ?_, ?_, ?_⟩ <;> simp [hinputs]

end XChain
