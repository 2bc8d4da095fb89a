import XChainEncoder.EnvelopeWeights
import XChainEncoder.PricedSizes

/-!
# Footprints of the carriers

`AUTO` writes a payload in the carrier that adds least to the transaction and its reveal.

* `footprint`: the bytes a prepared payload adds, by the sizes that outputs and reveals are priced at;
* `ScriptHashSizes`, `envelope_footprint_le`, `opReturn_footprint_le`, `multisign_footprint`: how it
  grows with the payload;
* **`auto_smallest`**: the carrier that is selected adds no more than any other that the network and
  the signer can use, and where it can add more than a multisig one.
-/

namespace XChain

open PushScript Chunking

/-- The bytes that a carrier adds to a plain payment: its outputs and, where it needs one, its reveal,
whose other outputs take `outputsBytes`. -/
def footprint (network : Network) (prepared : PreparedData) (outputsBytes : ℕ) : ℕ :=
  let chunks := prepared.dataBufferArray
  match prepared.encoding with
  | .opReturn => (chunks.map fun chunk => estimateOpReturnOutput chunk.length).sum
  | .multisign => estimateMultisignOutput * chunks.length
  | .p2sh => estimateP2shOutput * chunks.length + estimateP2shRevealTx chunks outputsBytes
  | .p2wsh => estimateP2wshOutput * chunks.length + estimateP2wshRevealTx network chunks outputsBytes
  | .taproot => (chunks.map fun script => estimateTaprootOutput +
      estimateEnvelopeRevealTx network script.length outputsBytes).sum

/-- The carriers that the network and the signer can use, beside the multisig one. -/
def Available (network : Network) (signerSupportsTapscript : Bool) : Encoding → Prop
  | .opReturn | .p2sh => True
  | .p2wsh => network.supportsSegwit = true
  | .taproot => network.supportsSegwit = true ∧ signerSupportsTapscript = true
  | .multisign => False

/-! ## Script-hash carriers -/

/-- The scripts of a script-hash carrier: their number, and their bytes. -/
structure ScriptHashSizes (data : Bytes) (scripts : List Bytes) : Prop where
  count : scripts.length = (data.length + 475) / 476
  least : data.length + 26 * scripts.length ≤ (scripts.map List.length).sum
  greatest : (scripts.map List.length).sum ≤ data.length + 29 * scripts.length
  short : ∀ s ∈ scripts, s.length ≤ 505
  /-- One chunk of at most 224 bytes is one short script. -/
  single : data.length ≤ 224 → data ≠ [] → ∃ s, scripts = [s] ∧ s.length ≤ data.length + 28

theorem length_le_compileElement_push {d : Bytes} (hd : d.length ≤ 0xffff) :
    d.length ≤ (compileElement (.push d)).length := by
  by_cases h : 2 ≤ d.length
  · rw [length_compileElement_push_of_two_le h hd, compiledPushSize]
    split_ifs <;> omega
  · have := length_compileElement_pos (.push d)
    omega

theorem length_chunkScript {chunk hash160 : Bytes} (hchunk : chunk.length ≤ 476)
    (hhash : hash160.length = 20) :
    (chunkScript chunk hash160).length = (compileElement (.push chunk)).length + 26 ∧
      chunk.length + 26 ≤ (chunkScript chunk hash160).length ∧
      (chunkScript chunk hash160).length ≤ chunk.length + 29 := by
  have hhashPush : (compileElement (.push hash160)).length = 21 := by
    rw [length_compileElement_push_of_two_le (by omega) (by omega), hhash]
    rfl
  have hle := length_compileElement_push_le (d := chunk) (by omega)
  have hge := length_le_compileElement_push (d := chunk) (by omega)
  have hlength : (chunkScript chunk hash160).length =
      (compileElement (.push chunk)).length + 26 := by
    unfold chunkScript
    rw [length_compile_cons, length_compile_cons, length_compile_cons, length_compile_cons,
      length_compile_cons, hhashPush]
    rfl
  exact ⟨hlength, by omega, by omega⟩

theorem sum_scripts_bounds {scripts : List Bytes} {f : Bytes → ℕ} {a b : ℕ}
    (h : ∀ s ∈ scripts, s.length + a ≤ f s ∧ f s ≤ s.length + b) :
    (scripts.map List.length).sum + a * scripts.length ≤ (scripts.map f).sum ∧
      (scripts.map f).sum ≤ (scripts.map List.length).sum + b * scripts.length := by
  induction scripts with
  | nil => exact ⟨le_rfl, le_rfl⟩
  | cons s scripts ih =>
    obtain ⟨hge, hle⟩ := h s List.mem_cons_self
    obtain ⟨ihge, ihle⟩ := ih fun s hs => h s (List.mem_cons_of_mem _ hs)
    simp only [List.map_cons, List.sum_cons, List.length_cons, Nat.mul_add, Nat.mul_one]
    exact ⟨by omega, by omega⟩

theorem sum_length_map_chunkScript {chunks : List Bytes} {hash160 : Bytes}
    (hchunks : ∀ c ∈ chunks, c.length ≤ 476) (hhash : hash160.length = 20) :
    (chunks.map List.length).sum + 26 * chunks.length ≤
        ((chunks.map fun c => chunkScript c hash160).map List.length).sum ∧
      ((chunks.map fun c => chunkScript c hash160).map List.length).sum ≤
        (chunks.map List.length).sum + 29 * chunks.length := by
  rw [List.map_map]
  exact sum_scripts_bounds fun c hc => (length_chunkScript (hchunks c hc) hhash).2

theorem scriptHashSizes_of_ok {L : Library} {data : Bytes} {encoding : Encoding} {pubKey : Text}
    {prepared : PreparedData} (h : scriptHashPayload L data encoding pubKey = .ok prepared) :
    ∃ scripts, prepared = ⟨scripts, encoding, none⟩ ∧ ScriptHashSizes data scripts := by
  unfold scriptHashPayload at h
  obtain ⟨hash160, hhash, h⟩ := bind_eq_ok.mp h
  cases h
  refine ⟨_, rfl, ?_⟩
  have hlength := resolveCallerHash160_length hhash
  have hsize : scriptHashChunksSize encoding = 476 := by cases encoding <;> rfl
  rw [hsize]
  have hmem := mem_rebalance (show 2 < 476 by decide) isMinimalOpSingleByte data
  have hflat := flatten_rebalance (show 1 < 476 by decide) isMinimalOpSingleByte data
  have hcount : (sliceScriptHashChunks data 476).length = (data.length + 475) / 476 :=
    (length_rebalance ..).trans (length_slice (by decide) data)
  have hsum : ((sliceScriptHashChunks data 476).map List.length).sum = data.length := by
    rw [← List.length_flatten]
    exact congrArg List.length hflat
  have hchunks : ∀ c ∈ sliceScriptHashChunks data 476, c.length ≤ 476 := fun c hc => (hmem c hc).2.1
  obtain ⟨hleast, hgreatest⟩ := sum_length_map_chunkScript hchunks hlength
  rw [hsum] at hleast hgreatest
  refine ⟨by rw [List.length_map, hcount], by rwa [List.length_map], by rwa [List.length_map],
    ?_, ?_⟩
  · intro s hs
    obtain ⟨c, hc, rfl⟩ := List.mem_map.mp hs
    have := (length_chunkScript (hchunks c hc) hlength).2
    have := hchunks c hc
    omega
  · intro hshort hne
    have hpos := List.length_pos_iff.mpr hne
    obtain ⟨c, hc⟩ := List.length_eq_one_iff.mp (hcount.trans (by omega))
    have hdata : c = data := by
      have hjoin : (sliceScriptHashChunks data 476).flatten = data := hflat
      rwa [hc, List.flatten_singleton] at hjoin
    refine ⟨chunkScript data hash160, by rw [hc, hdata]; rfl, ?_⟩
    rw [(length_chunkScript (by omega) hlength).1]
    by_cases htwo : 2 ≤ data.length
    · rw [length_compileElement_push_of_two_le htwo (by omega), compiledPushSize]
      split_ifs <;> omega
    · have := length_compileElement_push_le_compiledPushSize (d := data) (by omega)
      rw [compiledPushSize, if_pos (by omega)] at this
      omega

/-! ## Sizes -/

theorem raiseToFloor_eq_max (network : Network) :
    ∃ strippedFloor ≤ 85, ∀ n, raiseToFloor network n = max n strippedFloor := by
  obtain ⟨coin, net⟩ := network
  cases coin with
  | btc => exact ⟨82, by omega, fun n => by simp only [raiseToFloor,
      Network.minStandardTxNonWitnessSize]; split_ifs <;> omega⟩
  | ltc => exact ⟨85, by omega, fun n => by simp only [raiseToFloor,
      Network.minStandardTxNonWitnessSize]; split_ifs <;> omega⟩
  | doge => exact ⟨0, by omega, fun n => by simp [raiseToFloor, Network.minStandardTxNonWitnessSize]⟩

theorem compactSizeLen_bounds {n : ℕ} (h : n ≤ 0xffff) :
    1 ≤ compactSizeLen n ∧ compactSizeLen n ≤ 3 := by
  unfold compactSizeLen
  split_ifs <;> omega

theorem p2wshWitnessBytes_bounds {scripts : List Bytes} (h : ∀ s ∈ scripts, s.length ≤ 505) :
    (scripts.map List.length).sum + 109 * scripts.length ≤ p2wshWitnessBytes scripts ∧
      p2wshWitnessBytes scripts ≤ (scripts.map List.length).sum + 111 * scripts.length := by
  refine sum_scripts_bounds fun s hs => ?_
  have := h s hs
  obtain ⟨hge, hle⟩ := compactSizeLen_bounds (n := s.length) (by omega)
  unfold p2wshLegWitnessBytes
  omega

theorem p2shInputsBytes_bounds {scripts : List Bytes} (h : ∀ s ∈ scripts, s.length ≤ 505) :
    (scripts.map List.length).sum + 157 * scripts.length ≤ p2shInputsBytes scripts ∧
      p2shInputsBytes scripts ≤ (scripts.map List.length).sum + 161 * scripts.length := by
  refine sum_scripts_bounds fun s hs => ?_
  have := h s hs
  dsimp only [estimateP2shInputWithRedeem, compiledPushSize]
  split_ifs <;> omega

section Carriers

variable {L : Library} {data : Bytes} {scripts : List Bytes} {prepared : PreparedData}

theorem footprint_opReturn {encoding : Encoding} (h : opReturnPayload data encoding = .ok prepared) :
    data.length ≤ 76 ∧ prepared = ⟨[magicWord ++ data], encoding, none⟩ := by
  unfold opReturnPayload at h
  obtain ⟨_, hlength, h⟩ := bind_eq_ok.mp h
  cases h
  exact ⟨by simpa [opReturnSize, magicWord] using hlength, rfl⟩

/-- One `OP_RETURN` output adds at most 92 bytes. -/
theorem opReturn_footprint_le (network : Network) (hlength : data.length ≤ 76)
    (outputsBytes : ℕ) :
    footprint network ⟨[magicWord ++ data], .opReturn, none⟩ outputsBytes ≤
      data.length + 16 := by
  have hmagic : (magicWord ++ data).length = data.length + 4 := by
    rw [List.length_append, Nat.add_comm]
    rfl
  simp only [footprint, List.map_cons, List.map_nil, List.sum_cons, List.sum_nil, hmagic,
    estimateOpReturnOutput, compiledPushSize, compactSizeLen]
  split_ifs <;> omega

theorem multisign_footprint (network : Network) (data : Bytes) (outputsBytes : ℕ) :
    footprint network (multisignPayload data .multisign) outputsBytes =
      114 * ((data.length + 59) / 60) := by
  have hcount : (slice multisignChunksSize data).length = (data.length + 59) / 60 :=
    length_slice (by decide) data
  simp only [footprint, multisignPayload, List.length_map, hcount, estimateMultisignOutput]

theorem p2wsh_footprint (network : Network) (h : ScriptHashSizes data scripts)
    (outputsBytes : ℕ) {strippedFloor : ℕ}
    (hfloor : ∀ n, raiseToFloor network n = max n strippedFloor) :
    let k := scripts.length
    let inner := 43 * k + max (41 * k + 30 + outputsBytes) strippedFloor + 8
    inner + (data.length + 135 * k + 5) / 4 ≤
        footprint network ⟨scripts, .p2wsh, none⟩ outputsBytes ∧
      footprint network ⟨scripts, .p2wsh, none⟩ outputsBytes ≤
        inner + (data.length + 140 * k + 5) / 4 := by
  obtain ⟨hge, hle⟩ := p2wshWitnessBytes_bounds h.short
  have hleast := h.least
  have hgreatest := h.greatest
  have hmarker : estimateOpReturnOutput p2wshMarker.length = 20 := by decide
  simp only [footprint, estimateP2wshRevealTx, estimateP2wshOutput, hmarker, hfloor, ceilQuarter]
  rw [show 10 + (36 + 1 + 4) * scripts.length + 20 + outputsBytes =
    41 * scripts.length + 30 + outputsBytes by omega]
  omega

theorem p2sh_footprint (network : Network) (h : ScriptHashSizes data scripts)
    (outputsBytes : ℕ) :
    let k := scripts.length
    data.length + 215 * k + 29 + outputsBytes ≤
        footprint network ⟨scripts, .p2sh, none⟩ outputsBytes ∧
      footprint network ⟨scripts, .p2sh, none⟩ outputsBytes ≤
        data.length + 222 * k + 29 + outputsBytes := by
  obtain ⟨hge, hle⟩ := p2shInputsBytes_bounds h.short
  have hleast := h.least
  have hgreatest := h.greatest
  have hmarker : estimateOpReturnOutput p2shMarker.length = 19 := by decide
  simp only [footprint, estimateP2shRevealTx, estimateP2shOutput, hmarker]
  omega

theorem envelopePayload_eq {encoding : Encoding} {key : Option Bytes}
    (h : envelopePayload L data encoding key = .ok prepared) : ∃ internalPubkey : Bytes,
      internalPubkey.length = 32 ∧ prepared = ⟨[envelopeScript (sliceEnvelopeChunks data)
        internalPubkey], encoding, some internalPubkey⟩ ∧ key.isSome = true := by
  unfold envelopePayload at h
  cases key with
  | none => cases h
  | some key =>
    obtain ⟨_, hkey, h⟩ := bind_eq_ok.mp h
    cases h
    unfold validateCompressedPubKey at hkey
    obtain ⟨_, hshape, -⟩ := bind_eq_ok.mp hkey
    simp only [ensure_eq_ok, Bool.and_eq_true, decide_eq_true_eq] at hshape
    exact ⟨key.drop 1, by rw [List.length_drop]; omega, rfl, rfl⟩

theorem envelope_footprint (network : Network) (data : Bytes) {internalPubkey : Bytes}
    (hkey : internalPubkey.length = 32) (outputsBytes : ℕ) {strippedFloor : ℕ}
    (hfloor : ∀ n, raiseToFloor network n = max n strippedFloor) :
    let inner := 45 + max (51 + outputsBytes) strippedFloor
    let fp := footprint network ⟨[envelopeScript (sliceEnvelopeChunks data) internalPubkey], .taproot,
      some internalPubkey⟩ outputsBytes
    inner + 26 ≤ fp ∧ fp ≤ inner + (data.length + 3 * ((data.length + 519) / 520) + 159) / 4 := by
  have hle := length_envelopeScript_le data hkey
  have hsize : compactSizeLen (envelopeScript (sliceEnvelopeChunks data) internalPubkey).length ≤ 9 := by
    unfold compactSizeLen
    split_ifs <;> omega
  simp only [footprint, List.map_cons, List.map_nil, List.sum_cons, List.sum_nil,
    estimateEnvelopeRevealTx, estimateTaprootOutput, hfloor, ceilQuarter]
  omega

theorem p2wsh_footprint_single (network : Network) (h : ScriptHashSizes data scripts)
    (hshort : data.length ≤ 224) (hne : data ≠ [])
    (outputsBytes : ℕ) {strippedFloor : ℕ} (hfloor : ∀ n, raiseToFloor network n = max n strippedFloor) :
    footprint network ⟨scripts, .p2wsh, none⟩ outputsBytes ≤
      51 + max (71 + outputsBytes) strippedFloor + (data.length + 142) / 4 := by
  obtain ⟨s, rfl, hs⟩ := h.single hshort hne
  have hmarker : estimateOpReturnOutput p2wshMarker.length = 20 := by decide
  have hsize : compactSizeLen s.length = 1 := if_pos (by omega)
  simp only [footprint, estimateP2wshRevealTx, estimateP2wshOutput, p2wshWitnessBytes,
    p2wshLegWitnessBytes, hmarker, hfloor, ceilQuarter, hsize, List.map_cons, List.map_nil,
    List.sum_cons, List.sum_nil, List.length_singleton]
  rw [show 10 + (36 + 1 + 4) * 1 + 20 + outputsBytes = 71 + outputsBytes by omega]
  omega

end Carriers

/-! ## The selected carrier -/

/-- A prepared carrier, by its encoding. -/
inductive PreparedSizes (data : Bytes) (key : Option Bytes) : Encoding → PreparedData → Prop where
  | opReturn (short : data.length ≤ 76) :
      PreparedSizes data key .opReturn ⟨[magicWord ++ data], .opReturn, none⟩
  | p2sh {scripts : List Bytes} (sizes : ScriptHashSizes data scripts) :
      PreparedSizes data key .p2sh ⟨scripts, .p2sh, none⟩
  | multisign : PreparedSizes data key .multisign (multisignPayload data .multisign)
  | p2wsh {scripts : List Bytes} (sizes : ScriptHashSizes data scripts) :
      PreparedSizes data key .p2wsh ⟨scripts, .p2wsh, none⟩
  | taproot {internalPubkey : Bytes} (length : internalPubkey.length = 32) (given : key.isSome = true) :
      PreparedSizes data key .taproot
        ⟨[envelopeScript (sliceEnvelopeChunks data) internalPubkey], .taproot, some internalPubkey⟩

theorem preparedSizes_of_ok {L : Library} {data : Bytes} {encoding : Encoding} {pubKey : Text}
    {key : Option Bytes} {prepared : PreparedData}
    (h : prepareData L data (some encoding) pubKey key = .ok prepared) :
    PreparedSizes data key encoding prepared := by
  cases encoding with
  | opReturn =>
    change opReturnPayload data .opReturn = .ok prepared at h
    obtain ⟨hshort, rfl⟩ := footprint_opReturn h
    exact .opReturn hshort
  | p2sh =>
    change scriptHashPayload L data .p2sh pubKey = .ok prepared at h
    obtain ⟨scripts, rfl, hsizes⟩ := scriptHashSizes_of_ok h
    exact .p2sh hsizes
  | multisign =>
    cases h
    exact .multisign
  | p2wsh =>
    change scriptHashPayload L data .p2wsh pubKey = .ok prepared at h
    obtain ⟨scripts, rfl, hsizes⟩ := scriptHashSizes_of_ok h
    exact .p2wsh hsizes
  | taproot =>
    change envelopePayload L data .taproot key = .ok prepared at h
    obtain ⟨internalPubkey, hlength, rfl, hgiven⟩ := envelopePayload_eq h
    exact .taproot hlength hgiven

theorem selectEncoding_cases (network : Network) (n : ℕ) (key : Option Bytes) (signer : Bool) :
    (n ≤ 76 ∧ selectEncoding network n key signer = .opReturn) ∨
      76 < n ∧
        ((network.supportsSegwit = true ∧ selectEncoding network n key signer = .taproot) ∨
        (network.supportsSegwit = true ∧ (signer = true → key = none) ∧
          selectEncoding network n key signer = .p2wsh) ∨
        (network.supportsSegwit = false ∧ selectEncoding network n key signer = .p2sh)) := by
  have hmagic : magicWord.length = 4 := rfl
  unfold selectEncoding opReturnSize
  rw [hmagic]
  split_ifs with h1 h2 h3
  · exact .inl ⟨by omega, rfl⟩
  · simp only [Bool.and_eq_true] at h2
    exact .inr ⟨by omega, .inl ⟨h2.1.1, rfl⟩⟩
  · refine .inr ⟨by omega, .inr (.inl ⟨h3, fun hs => ?_, rfl⟩)⟩
    rw [h3, hs] at h2
    simpa using h2
  · exact .inr ⟨by omega, .inr (.inr ⟨by simpa using h3, rfl⟩)⟩

/-- **The selected carrier adds no more than any other that can be used; a multisig carrier adds less
only than P2SH up to 540 bytes, and than P2WSH with a wide change output at 114 to 120.** -/
theorem auto_smallest (L : Library) (network : Network) {data : Bytes} (hdata : data ≠ [])
    (pubKey : Text) (key : Option Bytes) (signerSupportsTapscript : Bool) (outputsBytes : ℕ)
    {chosen : PreparedData} (hchosen : prepareData L data (some (selectEncoding network data.length
      key signerSupportsTapscript)) pubKey key = .ok chosen) :
    (∀ encoding other, Available network signerSupportsTapscript encoding →
      prepareData L data (some encoding) pubKey key = .ok other →
      footprint network chosen outputsBytes ≤ footprint network other outputsBytes) ∧
    (outputsBytes ≤ 43 → (chosen.encoding = .p2sh → 540 < data.length) →
      (chosen.encoding = .p2wsh → outputsBytes ≤ 34 ∨ data.length < 114 ∨ 120 < data.length) →
      footprint network chosen outputsBytes ≤
        footprint network (multisignPayload data .multisign) outputsBytes) := by
  have hpos := List.length_pos_iff.mpr hdata
  obtain ⟨strippedFloor, hle, hfloor⟩ := raiseToFloor_eq_max network
  rw [multisign_footprint]
  rcases selectEncoding_cases network data.length key signerSupportsTapscript with
    ⟨hn, hselect⟩ | ⟨hn, ⟨hsegwit, hselect⟩ | ⟨hsegwit, hsigner, hselect⟩ | ⟨hsegwit, hselect⟩⟩
  all_goals
    rw [hselect] at hchosen
    cases preparedSizes_of_ok hchosen
  case inl.opReturn =>
    have hfootprint := opReturn_footprint_le network hn outputsBytes
    refine ⟨fun encoding other havailable hother => ?_, fun _ _ _ => by omega⟩
    cases preparedSizes_of_ok hother with
    | opReturn => exact le_rfl
    | p2sh hsizes =>
      have hcount := hsizes.count
      have hother := (p2sh_footprint network hsizes outputsBytes).1
      omega
    | multisign => exact havailable.elim
    | p2wsh hsizes =>
      have hcount := hsizes.count
      have hother := (p2wsh_footprint network hsizes outputsBytes hfloor).1
      omega
    | taproot hlength =>
      have hother := (envelope_footprint network data hlength outputsBytes hfloor).1
      omega
  case inr.inl.taproot internalPubkey hlength hgiven =>
    have hfootprint := (envelope_footprint network data hlength outputsBytes hfloor).2
    refine ⟨fun encoding other havailable hother => ?_, fun _ _ _ => by omega⟩
    cases preparedSizes_of_ok hother with
    | opReturn hshort => omega
    | p2sh hsizes =>
      have hcount := hsizes.count
      have hother := (p2sh_footprint network hsizes outputsBytes).1
      omega
    | multisign => exact havailable.elim
    | p2wsh hsizes =>
      have hcount := hsizes.count
      have hother := (p2wsh_footprint network hsizes outputsBytes hfloor).1
      omega
    | taproot => exact (congrArg (footprint network · outputsBytes)
        (Except.ok.inj (hchosen.symm.trans hother))).le
  case inr.inr.inl.p2wsh scripts hsizes =>
    have hfootprint := (p2wsh_footprint network hsizes outputsBytes hfloor).2
    have hcount := hsizes.count
    refine ⟨fun encoding other havailable hother => ?_, fun _ _ hwide => ?_⟩
    · cases preparedSizes_of_ok hother with
      | opReturn hshort => omega
      | p2sh hsizes' =>
        have hcount' := hsizes'.count
        have hother := (p2sh_footprint network hsizes' outputsBytes).1
        omega
      | multisign => exact havailable.elim
      | p2wsh => exact (congrArg (footprint network · outputsBytes)
          (Except.ok.inj (hchosen.symm.trans hother))).le
      | taproot hlength hgiven =>
        rw [hsigner havailable.2] at hgiven
        cases hgiven
    · by_cases hshort : data.length ≤ 224
      · have hsingle := p2wsh_footprint_single network hsizes hshort hdata outputsBytes hfloor
        have := hwide rfl
        omega
      · omega
  case inr.inr.inr.p2sh scripts hsizes =>
    have hfootprint := (p2sh_footprint network hsizes outputsBytes).2
    have hcount := hsizes.count
    refine ⟨fun encoding other havailable hother => ?_, fun _ hlong _ => ?_⟩
    · cases preparedSizes_of_ok hother with
      | opReturn hshort => omega
      | p2sh => exact (congrArg (footprint network · outputsBytes)
          (Except.ok.inj (hchosen.symm.trans hother))).le
      | multisign => exact havailable.elim
      | p2wsh => exact absurd (hsegwit.symm.trans havailable) Bool.false_ne_true
      | taproot => exact absurd (hsegwit.symm.trans havailable.1) Bool.false_ne_true
    · have := hlong rfl
      -- Two chunks carry more than 540 bytes; from three on the density decides.
      have hslots : data.length ≤ 60 * ((data.length + 59) / 60) := by omega
      rcases (show scripts.length = 2 ∨ 3 ≤ scripts.length by omega) with htwo | hmany
      · rw [htwo] at hfootprint
        omega
      · omega

/-- A compiled payload of 200 bytes. -/
def chunkPayload : Bytes := List.replicate 200 0x41

/-- Without a tapscript signer it goes to one P2WSH chunk. -/
def chunkCarrier : PreparedData := ⟨[chunkScript chunkPayload sampleHash], .p2wsh, none⟩

theorem auto_smallest_chunk :
    footprint ⟨.btc, .mainnet⟩ chunkCarrier 43 ≤
      footprint ⟨.btc, .mainnet⟩ (multisignPayload chunkPayload .multisign) 43 :=
  (auto_smallest sampleLibrary ⟨.btc, .mainnet⟩ (List.cons_ne_nil _ _)
    (sampleAddress ⟨.btc, .mainnet⟩) none false 43
    (show _ = Except.ok chunkCarrier by decide +kernel)).2 (by decide) (by decide +kernel)
    (by decide +kernel)

end XChain
