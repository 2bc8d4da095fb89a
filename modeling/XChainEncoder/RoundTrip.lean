import XChainEncoder.Decoder

/-!
# The wire round trip

Every payload the builder accepts is read back exactly by the reference decoder, whichever
encoding carries it.

* `carriers`, `payloadCarriers`: the scripts a payload is written to;
* `decodeOpReturn_script`, `decodeMultisign_script`, `decodeChunkScript_chunkScript`,
  `decodeEnvelope_script`: each carrier is inverted by its decoder;
* `reassemble_carriers`: the joined bytes are the compiled payload, up to trailing zeros;
* `bufferElements_compiled`, `gateOutcome_compiled`: the compiled payload decompiles to its parts;
* **`payloadCarriers_roundTrip`**: the round trip over every encoding.
-/

namespace XChain

open PushScript Chunking

variable {L : Library}

/-! ## Minimal opcodes -/

theorem asMinimalOP_of_two_le {d : Bytes} (h : 2 ≤ d.length) : asMinimalOP d = none := by
  match d with
  | [] => simp at h
  | [_] => simp at h
  | _ :: _ :: _ => rfl

/-- A push collapses to an opcode exactly when it is empty or a minimal-opcode byte. -/
theorem asMinimalOP_eq_none {d : Bytes} (hne : d ≠ []) (h : isMinimalOpSingleByte d = false) :
    asMinimalOP d = none := by
  match d with
  | [] => exact absurd rfl hne
  | [b] =>
    simp only [isMinimalOpSingleByte, Bool.or_eq_false_iff, Bool.and_eq_false_iff,
      decide_eq_false_iff_not, beq_eq_false_iff_ne] at h
    have h1 : ¬ (0x01 ≤ b ∧ b ≤ 0x10) := by
      rintro ⟨hl, hu⟩
      exact h.1.elim (fun hn => hn hl) fun hn => hn hu
    simp only [asMinimalOP, if_neg h1, if_neg h.2]
  | _ :: _ :: _ => rfl

/-! ## Each carrier and its decoder -/

theorem stripMagic_magic (data : Bytes) : stripMagic (magicWord ++ data) = some data := by
  simp [stripMagic]

/-- The magic word and a payload of at most 76 bytes, through the nulldata script. -/
theorem decodeOpReturn_script {data script : Bytes} {txid : Text} (hlen : data.length ≤ 76)
    (h : opReturnScript L (magicWord ++ data) txid = some script) :
    decodeOpReturn L txid script = some data := by
  simp only [opReturnScript, Option.map_eq_some_iff] at h
  obtain ⟨obf, hobf, rfl⟩ := h
  have hl : obf.length = 4 + data.length := by
    rw [obfuscate_length hobf, List.length_append]
    rfl
  have hmin : asMinimalOP obf = none := asMinimalOP_of_two_le (by omega)
  have hwf : ∀ e ∈ [Element.op 0x6a, .push obf], e.WellFormed := by
    intro e he
    simp only [List.mem_cons, List.not_mem_nil, or_false] at he
    rcases he with rfl | rfl
    · exact .inr (by decide)
    · show obf.length < 2 ^ 32
      omega
  have hdec := decompile_compile hwf
  simp only [List.map_cons, List.map_nil, normal_push hmin, normal_op] at hdec
  simp only [decodeOpReturn, embedScript, hdec, obfuscate_obfuscate hobf, Option.bind_some,
    stripMagic_magic]

theorem length_multisignSlot {chunk : Bytes} (h : chunk.length ≤ multisignChunksSize) :
    (multisignSlot chunk).length = 64 := by
  have h60 : chunk.length ≤ 60 := h
  simp only [multisignSlot, List.length_append, List.length_replicate]
  show magicWord.length + chunk.length + (64 - (magicWord.length + chunk.length)) = 64
  rw [show magicWord.length = 4 from rfl]
  omega

theorem stripMagic_multisignSlot {chunk : Bytes} :
    stripMagic (multisignSlot chunk) =
      some (chunk ++ List.replicate (multisignChunksSize - chunk.length) 0x00) := by
  have hpad : multisignSlotSize - (magicWord ++ chunk).length =
      multisignChunksSize - chunk.length := by
    rw [List.length_append]
    show 64 - (4 + chunk.length) = 60 - chunk.length
    omega
  simp only [multisignSlot, hpad, List.append_assoc, stripMagic_magic]

theorem dataToPubkey_of_length {d : Bytes} (h : d.length = 32) : dataToPubkey d = 0x02 :: d := by
  simp [dataToPubkey, h]

/-- A padded slot through the two data keys of the multisig script. -/
theorem decodeMultisign_script {chunk script key : Bytes} {txid : Text}
    (hlen : chunk.length ≤ multisignChunksSize)
    (h : multisignScript L (multisignSlot chunk) txid key = some script) :
    decodeMultisign L txid script =
      some (chunk ++ List.replicate (multisignChunksSize - chunk.length) 0x00) := by
  simp only [multisignScript, Option.bind_eq_bind, Option.bind_eq_some_iff] at h
  obtain ⟨obf, hobf, hs⟩ := h
  have hl : obf.length = 64 := by rw [obfuscate_length hobf, length_multisignSlot hlen]
  have h1 : (obf.take 32).length = 32 := by rw [List.length_take]; omega
  have h2 : (obf.drop 32).length = 32 := by rw [List.length_drop]; omega
  rw [dataToPubkey_of_length h1, dataToPubkey_of_length h2] at hs
  unfold p2msScript at hs
  split_ifs at hs with hkeys
  cases hs
  have hkey : key.length = 33 ∨ key.length = 65 := by
    refine L.isMultisigKey_length key ?_
    simp only [List.all_cons, Bool.and_eq_true] at hkeys
    exact hkeys.2.2.1
  have hm1 : asMinimalOP (0x02 :: obf.take 32) = none :=
    asMinimalOP_of_two_le (by rw [List.length_cons, h1]; omega)
  have hm2 : asMinimalOP (0x02 :: obf.drop 32) = none :=
    asMinimalOP_of_two_le (by rw [List.length_cons, h2]; omega)
  rw [decodeMultisign, decompile_compile]
  · simp only [List.map_cons, List.map_nil, List.cons_append, List.nil_append, normal_push hm1,
      normal_push hm2, normal_op, List.drop_succ_cons, List.drop_zero,
      List.take_append_drop, obfuscate_obfuscate hobf, Option.bind_some, stripMagic_multisignSlot]
  · intro e he
    simp only [List.map_cons, List.map_nil, List.cons_append, List.nil_append, List.mem_cons,
      List.not_mem_nil, or_false] at he
    rcases he with rfl | rfl | rfl | rfl | rfl | rfl
    · exact .inr (by decide)
    · show (0x02 :: obf.take 32).length < 2 ^ 32
      rw [List.length_cons, h1]
      omega
    · show (0x02 :: obf.drop 32).length < 2 ^ 32
      rw [List.length_cons, h2]
      omega
    · show key.length < 2 ^ 32
      omega
    · refine .inr ?_
      show (0x4e : UInt8) < 0x50 + UInt8.ofNat 3
      decide
    · exact .inr (by decide)

/-- Every chunk of a payload of at least two bytes is a push, within its size. -/
theorem mem_slicePushes {n : ℕ} (hn : 2 < n) {data : Bytes} (hd : 2 ≤ data.length) :
    ∀ c ∈ slicePushes n data, c.length ≤ n ∧ asMinimalOP c = none := by
  intro c hc
  obtain ⟨hpos, hle, hone⟩ := mem_rebalance hn isMinimalOpSingleByte data c hc
  refine ⟨hle, ?_⟩
  by_cases h1 : c.length = 1
  · refine asMinimalOP_eq_none (List.length_pos_iff.mp hpos) ?_
    by_contra hbad
    have := hone h1 (by simpa using hbad)
    rw [this] at hd
    omega
  · exact asMinimalOP_of_two_le (by omega)

theorem decodeChunkScript_chunkScript {chunk hash : Bytes} (hmin : asMinimalOP chunk = none)
    (hc : chunk.length ≤ 476) (hh : hash.length = 20) :
    decodeChunkScript (chunkScript chunk hash) = some chunk := by
  rw [decodeChunkScript, chunkScript, decompile_compile]
  · simp only [List.map_cons, normal_push hmin]
  · intro e he
    simp only [List.mem_cons, List.not_mem_nil, or_false] at he
    rcases he with rfl | rfl | rfl | rfl | rfl | rfl | rfl
    · show chunk.length < 2 ^ 32
      omega
    · exact .inr (by decide)
    · exact .inr (by decide)
    · exact .inr (by decide)
    · show hash.length < 2 ^ 32
      omega
    · exact .inr (by decide)
    · exact .inr (by decide)

theorem length_chunkScript_le {chunk hash : Bytes} (hc : chunk.length ≤ 476)
    (hh : hash.length = 20) : (chunkScript chunk hash).length ≤ 520 := by
  have h1 := length_compileElement_push_le (d := chunk) (by omega)
  have h2 := length_compileElement_push_le (d := hash) (by omega)
  simp only [chunkScript, length_compile_cons]
  simp only [compileElement, compile, List.flatMap_nil, List.length_nil, List.length_singleton]
    at h1 h2 ⊢
  omega

theorem decompile_envelopeScript {chunks : List Bytes} {key : Bytes}
    (hc : ∀ c ∈ chunks, c.length ≤ taprootEnvelopeChunkSize ∧ asMinimalOP c = none)
    (hkey : key.length = 32) :
    decompile (envelopeScript chunks key) =
      some ([.op 0x00, .op 0x63, .push magicWord, .push [taprootEnvelopeFormatV0]] ++
        chunks.map .push ++ [.op 0x68, .push key, .op 0xac]) := by
  have hnormal : (chunks.map Element.push).map Element.normal = chunks.map .push := by
    rw [List.map_map]
    exact List.map_congr_left fun c h => normal_push (hc c h).2
  have hk : asMinimalOP key = none := asMinimalOP_of_two_le (by omega)
  have hm : (Element.push magicWord).normal = .push magicWord := rfl
  have hf : (Element.push [taprootEnvelopeFormatV0]).normal = .push [taprootEnvelopeFormatV0] := rfl
  rw [envelopeScript, decompile_compile]
  · simp only [List.map_append, hnormal, List.map_cons, List.map_nil, normal_push hk, hm, hf]
    rfl
  · intro e he
    simp only [List.mem_append, List.mem_cons, List.not_mem_nil, or_false, List.mem_map] at he
    rcases he with ((rfl | rfl | rfl | rfl) | ⟨c, h, rfl⟩) | rfl | rfl | rfl
    · exact .inl rfl
    · exact .inr (by decide)
    · exact (by decide : magicWord.length < 2 ^ 32)
    · exact (by decide : ([taprootEnvelopeFormatV0] : Bytes).length < 2 ^ 32)
    · have hl : c.length ≤ 520 := (hc c h).1
      show c.length < 2 ^ 32
      omega
    · exact .inr (by decide)
    · show key.length < 2 ^ 32
      omega
    · exact .inr (by decide)

theorem takePushes_map_push (chunks : List Bytes) {e : Element} (he : e.data? = none)
    (es : List Element) : takePushes (chunks.map .push ++ e :: es) = (chunks, e :: es) := by
  induction chunks with
  | nil =>
    cases e with
    | op c => rfl
    | push d => cases he
  | cons c cs ih => simp only [List.map_cons, List.cons_append, takePushes, ih]

theorem decodeEnvelope_script (chunks : List Bytes) (key : Bytes) (hne : chunks ≠ [])
    (hc : ∀ c ∈ chunks, c.length ≤ taprootEnvelopeChunkSize ∧ asMinimalOP c = none)
    (hkey : key.length = 32) :
    decodeEnvelope (envelopeScript chunks key) = some chunks.flatten := by
  simp only [decodeEnvelope, decompile_envelopeScript hc hkey, List.cons_append, List.nil_append,
    and_self, if_true, takePushes_map_push chunks (e := .op 0x68) rfl]
  rw [if_pos ⟨hne, hkey⟩]

/-! ## The compiled payload -/

theorem decompile_compiled {data : Bytes} {rawData : Option Bytes} {c : CompiledPayload}
    (hne : data ≠ []) (h : compilePayload (some data) rawData = .ok c)
    (hlen : c.finalDataBuffer.length < 2 ^ 32) (k : ℕ) :
    decompile (c.finalDataBuffer ++ List.replicate k 0x00) =
      some (.push data :: (rawData.toList.map readElement ++ List.replicate k (.op 0x00))) := by
  simp only [compilePayload, validateActionPushDecodability, bind_eq_ok, ensure_eq_ok,
    Option.any_some, Bool.not_eq_true', Option.getD_some] at h
  obtain ⟨-, ⟨-, hdata, -⟩, hc⟩ := h
  have hmin : (Element.push data).normal = .push data :=
    normal_push (asMinimalOP_eq_none hne hdata)
  cases rawData with
  | none =>
    cases hc
    have hd := length_le_compileElement_push data
    rw [decompile_compile_append, decompile_replicate_zero]
    · simp only [List.map_cons, hmin, List.map_nil, Option.map_some, Option.toList_none]
      rfl
    · intro e he
      rw [List.mem_singleton] at he
      subst he
      simp only [compile, List.flatMap_cons, List.flatMap_nil, List.append_nil] at hlen
      exact lt_of_le_of_lt hd hlen
  | some raw =>
    cases hc
    have hd := length_le_compileElement_push data
    have hr := length_le_compileElement_push raw
    simp only [compile, List.flatMap_cons, List.flatMap_nil, List.append_nil,
      List.length_append] at hlen
    rw [decompile_compile_append, decompile_replicate_zero]
    · simp only [List.map_cons, hmin, List.map_nil, Option.map_some, Option.toList_some]
      rfl
    · intro e he
      simp only [List.mem_cons, List.not_mem_nil, or_false] at he
      rcases he with rfl | rfl
      · show data.length < 2 ^ 32
        omega
      · show raw.length < 2 ^ 32
        omega

/-- `rawData` as the decoder reads it: an empty one is absent. -/
def readRawData (rawData : Option Bytes) : Option Bytes := rawData.filter (· ≠ [])

theorem readElement_rawData {data raw : Bytes} {c : CompiledPayload}
    (h : compilePayload (some data) (some raw) = .ok c) :
    (readElement raw).data? = readRawData (some raw) := by
  simp only [compilePayload, validateActionPushDecodability, bind_eq_ok, ensure_eq_ok,
    Option.any_some, Bool.not_eq_true'] at h
  obtain ⟨-, ⟨-, -, hraw⟩, -⟩ := h
  by_cases hr : raw = []
  · subst hr
    rfl
  · simp [readElement, asMinimalOP_eq_none hr hraw, Element.data?, readRawData, Option.filter, hr]

theorem bufferElements_compiled {data : Bytes} {rawData : Option Bytes} {c : CompiledPayload}
    (hne : data ≠ []) (h : compilePayload (some data) rawData = .ok c)
    (hlen : c.finalDataBuffer.length < 2 ^ 32) (k : ℕ) :
    bufferElements (c.finalDataBuffer ++ List.replicate k 0x00) =
      some (data :: (readRawData rawData).toList) := by
  have hz : (List.replicate k (Element.op 0x00)).filterMap Element.data? = [] :=
    List.filterMap_eq_nil_iff.mpr fun e he => by rw [List.eq_of_mem_replicate he]; rfl
  rw [bufferElements, decompile_compiled hne h hlen k, Option.map_some]
  cases rawData with
  | none => simp [hz, Element.data?, readRawData]
  | some raw =>
    have hr := readElement_rawData h
    simp only [Option.toList_some, List.map_cons, List.map_nil, List.cons_append,
      List.nil_append, List.filterMap_cons, hz, hr]
    cases readRawData (some raw) <;> rfl

theorem gateOutcome_compiled {data : Bytes} {rawData : Option Bytes} {c : CompiledPayload}
    (hne : data ≠ []) (h : compilePayload (some data) rawData = .ok c)
    (hlen : c.finalDataBuffer.length < 2 ^ 32) (k : ℕ) :
    gateOutcome (c.finalDataBuffer ++ List.replicate k 0x00) =
      some (data, readRawData rawData) := by
  rw [gateOutcome, decompile_compiled hne h hlen k]
  cases rawData with
  | none => cases k <;> rfl
  | some raw =>
    simp only [Option.toList_some, List.map_cons, List.map_nil, List.cons_append,
      List.nil_append, List.head?_cons, Option.bind_some, readElement_rawData h]

/-! ## The round trip -/

/-- The scripts that carry the prepared buffers of a payload, under the first input's txid. -/
def carriers (L : Library) (prepared : PreparedData) (txidFirstInput : Text)
    (compressedPubKey : Option Bytes) : Option (List Bytes) :=
  match prepared.encoding with
  | .opReturn => prepared.dataBufferArray.mapM fun chunk => opReturnScript L chunk txidFirstInput
  | .multisign => compressedPubKey.bind fun key =>
    prepared.dataBufferArray.mapM fun slot => multisignScript L slot txidFirstInput key
  | .p2sh | .p2wsh | .taproot => some prepared.dataBufferArray

/-- The payload builder: compile, choose the encoding, cut and carry. -/
def payloadCarriers (L : Library) (network : Network) (encoding : Encoding) (data : Bytes)
    (rawData : Option Bytes) (pubKey : Text) (compressedPubKey : Option Bytes)
    (signerSupportsTapscript : Bool) (txidFirstInput : Text) :
    Except BuildError (List Bytes) := do
  let compiled ← compilePayload (some data) rawData
  let chosen ← chooseEncoding network (.named encoding) compiled.finalDataBuffer compressedPubKey
    signerSupportsTapscript
  let prepared ← prepareData L compiled.finalDataBuffer chosen pubKey compressedPubKey
  match carriers L prepared txidFirstInput compressedPubKey with
  | some scripts => return scripts
  | none => throw (PlainError "carrier script not derivable")

theorem payloadCarriers_cases {network : Network} {encoding : Encoding} {data : Bytes}
    {rawData : Option Bytes} {pubKey : Text} {compressedPubKey : Option Bytes} {signer : Bool}
    {txid : Text} {scripts : List Bytes}
    (h : payloadCarriers L network encoding data rawData pubKey compressedPubKey signer txid =
      .ok scripts) :
    ∃ compiled prepared, compilePayload (some data) rawData = .ok compiled ∧
      compiled.finalDataBuffer.length ≤ envelopeMaxPayload ∧
      prepareData L compiled.finalDataBuffer (some encoding) pubKey compressedPubKey =
        .ok prepared ∧
      carriers L prepared txid compressedPubKey = some scripts := by
  simp only [payloadCarriers, bind_eq_ok] at h
  obtain ⟨compiled, hcomp, chosen, hch, prepared, hprep, hcar⟩ := h
  simp only [chooseEncoding, bind_eq_ok, ensure_eq_ok, decide_eq_true_eq] at hch
  obtain ⟨-, hlen, -, -, hchosen⟩ := hch
  cases hchosen
  refine ⟨compiled, prepared, hcomp, hlen.trans ?_, hprep, ?_⟩
  · unfold compiledCeiling
    split_ifs
    · exact le_rfl
    · decide
  · cases hs : carriers L prepared txid compressedPubKey with
    | none =>
      rw [hs] at hcar
      cases hcar
    | some s =>
      rw [hs] at hcar
      cases hcar
      rfl

theorem mapM_map_option {α β γ : Type} (f : β → Option γ) (g : α → β) (l : List α) :
    (l.map g).mapM f = l.mapM fun a => f (g a) := by
  induction l with
  | nil => rfl
  | cons a l ih => simp [ih]

theorem mapM_eq_of_mapM {α β γ : Type} {f : α → Option β} {g : β → Option γ} {o : α → γ}
    {l : List α} (hinv : ∀ a ∈ l, ∀ b, f a = some b → g b = some (o a)) {bs : List β}
    (h : l.mapM f = some bs) : bs.mapM g = some (l.map o) := by
  induction l generalizing bs with
  | nil =>
    cases h
    rfl
  | cons a l ih =>
    simp only [List.mapM_cons, Option.bind_eq_bind, Option.bind_eq_some_iff] at h
    obtain ⟨b, hb, bs', hbs, hr⟩ := h
    cases hr
    have h1 := hinv a List.mem_cons_self b hb
    have h2 := ih (fun a' ha' => hinv a' (List.mem_cons_of_mem _ ha')) hbs
    simp [h1, h2]

theorem two_le_length_compiled {data : Bytes} {rawData : Option Bytes} {c : CompiledPayload}
    (hne : data ≠ []) (h : compilePayload (some data) rawData = .ok c) :
    2 ≤ c.finalDataBuffer.length := by
  simp only [compilePayload, validateActionPushDecodability, bind_eq_ok, ensure_eq_ok,
    Option.any_some, Bool.not_eq_true', Option.getD_some] at h
  obtain ⟨-, ⟨-, hdata, -⟩, hc⟩ := h
  have hmin := asMinimalOP_eq_none hne hdata
  obtain ⟨op, t, hcons, -, -⟩ := pushHeader_cons (List.length_pos_iff.mpr hne)
  have hd : 2 ≤ (compileElement (.push data)).length := by
    simp only [compileElement, hmin, hcons, List.length_append, List.length_cons]
    have := List.length_pos_iff.mpr hne
    omega
  cases rawData <;>
  · cases hc
    simp only [length_compile_cons]
    omega

/-- **Each encoding's scripts read back as the compiled payload**, up to trailing zeros. -/
theorem reassemble_carriers {encoding : Encoding} {compiled : Bytes} {pubKey txid : Text}
    {compressedPubKey : Option Bytes} {prepared : PreparedData} {scripts : List Bytes}
    (hlen : 2 ≤ compiled.length)
    (hprep : prepareData L compiled (some encoding) pubKey compressedPubKey = .ok prepared)
    (hcar : carriers L prepared txid compressedPubKey = some scripts) :
    ∃ k, reassemble L encoding txid scripts = some (compiled ++ List.replicate k 0x00) := by
  have hne : compiled ≠ [] := List.length_pos_iff.mp (by omega)
  cases encoding with
  | opReturn =>
    simp only [prepareData, Option.getD_some, opReturnPayload, bind_eq_ok, ensure_eq_ok,
      decide_eq_true_eq] at hprep
    obtain ⟨-, h76, hp⟩ := hprep
    cases hp
    refine ⟨0, ?_⟩
    simp only [carriers] at hcar
    have h := mapM_eq_of_mapM (g := decodeOpReturn L txid) (o := List.drop 4) ?_ hcar
    · simp only [reassemble, decodeCarrier, h, List.map_cons, List.map_nil, Option.map_some]
      simp [magicWord]
    · intro chunk hc script hs
      obtain rfl : chunk = magicWord ++ compiled := by simpa using hc
      exact decodeOpReturn_script h76 hs
  | multisign =>
    simp only [prepareData, Option.getD_some, multisignPayload, Except.ok.injEq] at hprep
    subst hprep
    simp only [carriers, Option.bind_eq_some_iff] at hcar
    obtain ⟨key, -, hcar⟩ := hcar
    rw [mapM_map_option] at hcar
    obtain ⟨k, hk⟩ := exists_flatten_map_pad (by decide : 0 < multisignChunksSize) 0x00 compiled
    refine ⟨k, ?_⟩
    have h := mapM_eq_of_mapM (g := decodeMultisign L txid)
      (o := fun c => c ++ List.replicate (multisignChunksSize - c.length) 0x00) ?_ hcar
    · simp only [reassemble, decodeCarrier, h, Option.map_some, hk]
    · intro chunk hc script hs
      exact decodeMultisign_script (length_le_of_mem_slice (by decide) compiled chunk hc).2 hs
  | p2sh | p2wsh =>
    simp only [prepareData, Option.getD_some, scriptHashPayload, bind_eq_ok] at hprep
    obtain ⟨hash, hhash, hp⟩ := hprep
    cases hp
    cases hcar
    refine ⟨0, ?_⟩
    have hmem := mem_slicePushes (n := 476) (by decide) hlen
    have hdec : ∀ c ∈ slicePushes 476 compiled,
        decodeChunkScript (chunkScript c hash) = some c := fun c hc =>
      decodeChunkScript_chunkScript (hmem c hc).2 (hmem c hc).1
        (resolveCallerHash160_length hhash)
    have h := mapM_eq_of_mapM (f := fun c => some (chunkScript c hash))
      (g := decodeChunkScript) (o := id) (l := slicePushes 476 compiled) ?_
      (List.mapM_pure ..)
    · simp only [reassemble, decodeCarrier, sliceScriptHashChunks]
      refine Option.map_eq_some_iff.mpr ⟨_, h, ?_⟩
      rw [List.map_id, slicePushes, flatten_rebalance (by decide), List.replicate_zero,
        List.append_nil]
    · rintro c hc b hb
      cases hb
      exact hdec c hc
  | taproot =>
    simp only [prepareData, Option.getD_some, envelopePayload] at hprep
    cases compressedPubKey with
    | none => cases hprep
    | some key =>
      simp only [bind_eq_ok, validateCompressedPubKey, ensure_eq_ok, Bool.and_eq_true,
        decide_eq_true_eq] at hprep
      obtain ⟨-, ⟨-, ⟨hkey, -⟩, -⟩, hp⟩ := hprep
      cases hp
      cases hcar
      refine ⟨0, ?_⟩
      have hmem := mem_slicePushes (n := taprootEnvelopeChunkSize) (by decide) hlen
      have hdec := decodeEnvelope_script (sliceEnvelopeChunks compiled) (key.drop 1)
        (rebalance_ne_nil (by decide) _ hne) hmem
        (by rw [List.length_drop, hkey])
      simp only [reassemble, decodeCarrier, List.mapM_cons, List.mapM_nil, hdec]
      simp only [sliceEnvelopeChunks, slicePushes, flatten_rebalance (by decide :
        1 < taprootEnvelopeChunkSize)]
      simp

/-- The payload chunks an encoding cuts a compiled payload into. -/
def payloadChunks (encoding : Encoding) (compiled : Bytes) : List Bytes :=
  match encoding with
  | .opReturn => [magicWord ++ compiled]
  | .multisign => (slice multisignChunksSize compiled).map multisignSlot
  | .p2sh | .p2wsh => sliceScriptHashChunks compiled (scriptHashChunksSize encoding)
  | .taproot => sliceEnvelopeChunks compiled

theorem payloadChunks_push {encoding : Encoding} {compiled : Bytes} (hlen : 2 ≤ compiled.length) :
    ∀ c ∈ payloadChunks encoding compiled,
      compileElement (.push c) = pushHeader c.length ++ c := by
  intro c hc
  have hmin : asMinimalOP c = none := by
    cases encoding with
    | opReturn =>
      obtain rfl : c = magicWord ++ compiled := by simpa [payloadChunks] using hc
      exact asMinimalOP_of_two_le (by rw [List.length_append]; omega)
    | multisign =>
      obtain ⟨chunk, hchunk, rfl⟩ := List.mem_map.mp hc
      have hle := (length_le_of_mem_slice (by decide) compiled chunk hchunk).2
      exact asMinimalOP_of_two_le (by rw [length_multisignSlot hle]; omega)
    | p2sh | p2wsh => exact (mem_slicePushes (n := 476) (by decide) hlen c hc).2
    | taproot => exact (mem_slicePushes (n := taprootEnvelopeChunkSize) (by decide) hlen c hc).2
  simp only [compileElement, hmin]

theorem length_le_of_mem_chunkScripts {encoding : Encoding}
    (he : encoding = .p2sh ∨ encoding = .p2wsh) {compiled : Bytes} {pubKey txid : Text}
    {compressedPubKey : Option Bytes} {prepared : PreparedData} {scripts : List Bytes}
    (hlen : 2 ≤ compiled.length)
    (hprep : prepareData L compiled (some encoding) pubKey compressedPubKey = .ok prepared)
    (hcar : carriers L prepared txid compressedPubKey = some scripts) :
    ∀ s ∈ scripts, s.length ≤ p2shSize := by
  rcases he with rfl | rfl <;>
  · simp only [prepareData, Option.getD_some, scriptHashPayload, bind_eq_ok] at hprep
    obtain ⟨hash, hhash, hp⟩ := hprep
    cases hp
    cases hcar
    intro s hs
    obtain ⟨c, hc, rfl⟩ := List.mem_map.mp hs
    exact length_chunkScript_le (mem_slicePushes (n := 476) (by decide) hlen c hc).1
      (resolveCallerHash160_length hhash)

theorem length_le_of_mem_envelope {compiled : Bytes} {pubKey txid : Text}
    {compressedPubKey : Option Bytes} {prepared : PreparedData} {scripts : List Bytes}
    (hlen : 2 ≤ compiled.length)
    (hprep : prepareData L compiled (some .taproot) pubKey compressedPubKey = .ok prepared)
    (hcar : carriers L prepared txid compressedPubKey = some scripts) :
    ∀ s ∈ scripts, ∃ es, decompile s = some es ∧
      ∀ d, Element.push d ∈ es → d.length ≤ taprootEnvelopeChunkSize := by
  simp only [prepareData, Option.getD_some, envelopePayload] at hprep
  cases compressedPubKey with
  | none => cases hprep
  | some key =>
    simp only [bind_eq_ok, validateCompressedPubKey, ensure_eq_ok, Bool.and_eq_true,
      decide_eq_true_eq] at hprep
    obtain ⟨-, ⟨-, ⟨hkey, -⟩, -⟩, hp⟩ := hprep
    cases hp
    cases hcar
    have hmem := mem_slicePushes (n := taprootEnvelopeChunkSize) (by decide) hlen
    have h32 : (key.drop 1).length = 32 := by rw [List.length_drop, hkey]
    intro s hs
    obtain rfl := List.mem_singleton.mp hs
    refine ⟨_, decompile_envelopeScript hmem h32, fun d hd => ?_⟩
    simp only [List.mem_append, List.mem_cons, List.not_mem_nil, or_false, List.mem_map,
      Element.push.injEq, reduceCtorEq, false_or, exists_eq_right] at hd
    rcases hd with ((rfl | rfl) | hd) | rfl
    · decide
    · decide
    · exact (hmem d hd).1
    · rw [h32]
      decide

/-- **The wire round trip.** Whatever the builder accepts, under any encoding, the decoder reads
back as exactly the `data` and `rawData` given, an empty `rawData` as absent; chunk scripts and
envelope pushes stay within a script element, and every payload chunk is compiled as a push. -/
theorem payloadCarriers_roundTrip (L : Library) (network : Network) (encoding : Encoding)
    (data : Bytes) (rawData : Option Bytes) (pubKey : Text) (compressedPubKey : Option Bytes)
    (signerSupportsTapscript : Bool) (txidFirstInput : Text) (scripts : List Bytes)
    (hdata : data ≠ [])
    (h : payloadCarriers L network encoding data rawData pubKey compressedPubKey
      signerSupportsTapscript txidFirstInput = .ok scripts) :
    (∃ joined, reassemble L encoding txidFirstInput scripts = some joined ∧
      bufferElements joined = some (data :: (readRawData rawData).toList) ∧
      gateOutcome joined = some (data, readRawData rawData)) ∧
    (encoding = .p2sh ∨ encoding = .p2wsh → ∀ s ∈ scripts, s.length ≤ 520) ∧
    (encoding = .taproot → ∀ s ∈ scripts, ∃ es, decompile s = some es ∧
      ∀ d, Element.push d ∈ es → d.length ≤ 520) ∧
    (∀ compiled, compilePayload (some data) rawData = .ok compiled →
      ∀ c ∈ payloadChunks encoding compiled.finalDataBuffer,
        compileElement (.push c) = pushHeader c.length ++ c) := by
  obtain ⟨compiled, prepared, hcomp, hle, hprep, hcar⟩ := payloadCarriers_cases h
  have h2 := two_le_length_compiled hdata hcomp
  have h32 : compiled.finalDataBuffer.length < 2 ^ 32 :=
    lt_of_le_of_lt hle (by decide)
  obtain ⟨k, hk⟩ := reassemble_carriers h2 hprep hcar
  refine ⟨⟨_, hk, bufferElements_compiled hdata hcomp h32 k,
    gateOutcome_compiled hdata hcomp h32 k⟩,
    fun he => length_le_of_mem_chunkScripts he h2 hprep hcar, ?_, ?_⟩
  · rintro rfl
    exact length_le_of_mem_envelope h2 hprep hcar
  · intro c hc
    rw [hcomp] at hc
    cases hc
    exact payloadChunks_push h2

/-- The nulldata script of an ISSUE action with three bytes of `rawData`. -/
def issueScript : Bytes :=
  [0x6a, 0x0e, 0xaa, 0x87, 0x41, 0xc0, 0x22, 0xcf, 0x77, 0xb9, 0xa2, 0x3a, 0x06, 0x55, 0x7d, 0xea]

theorem payloadCarriers_roundTrip_issue :
    payloadCarriers sampleLibrary ⟨.btc, .mainnet⟩ .opReturn [0x49, 0x53, 0x53, 0x55, 0x45]
      (some [0x00, 0x01, 0xff]) [] none false sampleTxid = .ok [issueScript] ∧
    ∃ joined, reassemble sampleLibrary .opReturn sampleTxid [issueScript] = some joined ∧
      bufferElements joined = some [[0x49, 0x53, 0x53, 0x55, 0x45], [0x00, 0x01, 0xff]] ∧
      gateOutcome joined = some ([0x49, 0x53, 0x53, 0x55, 0x45], some [0x00, 0x01, 0xff]) :=
  ⟨by decide, (payloadCarriers_roundTrip sampleLibrary ⟨.btc, .mainnet⟩ .opReturn
    [0x49, 0x53, 0x53, 0x55, 0x45] (some [0x00, 0x01, 0xff]) [] none false sampleTxid
    [issueScript] (by decide) (by decide)).1⟩

end XChain
