import XChainEncoder.EnvelopeReveals
import XChainEncoder.RevealSizes

/-!
# The weight of envelope reveals

Nodes relay no transaction of more than 400,000 weight units, and a commit is paid for before its
reveal is seen.

* `length_envelopeScript_le`: what the pushes of a payload add to it;
* `weight_envelopeReveal_le`: a reveal by its script and outputs;
* `prepareData_envelope`, `PaysChange`: the script and the outputs of a built reveal;
* **`envelopeReveals_standard`**: every payload under the ceiling makes a reveal under the limit, and
  so does every TAPROOT build of every run.
-/

namespace XChain

open PushScript TxWeight Coroutine Chunking

/-- `MAX_STANDARD_TX_WEIGHT`. -/
def maxStandardTxWeight : ℕ := 400000

/-! ## The script -/

/-- A push of at most 65,535 bytes has at most three bytes of header. -/
theorem length_compile_pushes_le {chunks : List Bytes} (h : ∀ c ∈ chunks, c.length ≤ 0xffff) :
    (compile (chunks.map .push)).length ≤ chunks.flatten.length + 3 * chunks.length := by
  induction chunks with
  | nil => exact le_rfl
  | cons c chunks ih =>
    have hc := length_compileElement_push_le (h c List.mem_cons_self)
    have hrest := ih fun c hc => h c (List.mem_cons_of_mem _ hc)
    rw [List.map_cons, length_compile_cons, List.flatten_cons, List.length_append, List.length_cons]
    omega

theorem length_compile_append (es es' : List Element) :
    (compile (es ++ es')).length = (compile es).length + (compile es').length := by
  rw [compile, List.flatMap_append, List.length_append]
  rfl

/-- Every 520 bytes of payload begun cost one header; the frame around them has 44 bytes. -/
theorem length_envelopeScript_le (data : Bytes) {internalPubkey : Bytes}
    (hkey : internalPubkey.length = 32) :
    (envelopeScript (sliceEnvelopeChunks data) internalPubkey).length ≤
      data.length + 3 * ((data.length + 519) / 520) + 44 := by
  have hmem := mem_rebalance (show 2 < taprootEnvelopeChunkSize by decide) isMinimalOpSingleByte data
  have hflat := flatten_rebalance (show 1 < taprootEnvelopeChunkSize by decide)
    isMinimalOpSingleByte data
  have hcount : (sliceEnvelopeChunks data).length = (data.length + 519) / 520 :=
    (length_rebalance ..).trans (length_slice (by decide) data)
  have hpushes : (compile ((sliceEnvelopeChunks data).map .push)).length ≤
      data.length + 3 * ((data.length + 519) / 520) := by
    have h : (compile ((sliceEnvelopeChunks data).map .push)).length ≤
        (sliceEnvelopeChunks data).flatten.length + 3 * (sliceEnvelopeChunks data).length :=
      length_compile_pushes_le fun c hc => (hmem c hc).2.1.trans (by decide)
    rw [hcount] at h
    rwa [sliceEnvelopeChunks, slicePushes, hflat] at h
  have hkeyPush := length_compileElement_push_le_compiledPushSize (d := internalPubkey) (by omega)
  rw [hkey, show compiledPushSize 32 = 33 from rfl] at hkeyPush
  have hhead : (compile [.op 0x00, .op 0x63, .push magicWord, .push [taprootEnvelopeFormatV0]]).length
      = 9 := by decide
  have htail : (compile [.op 0x68, .push internalPubkey, .op 0xac]).length ≤ 35 := by
    rw [length_compile_cons, length_compile_cons]
    show 1 + (_ + 1) ≤ _
    omega
  rw [envelopeScript, length_compile_append, length_compile_append, hhead]
  omega

/-! ## The transaction -/

/-- Every byte outside the witness weighs four. -/
theorem weight_envelopeReveal_le (version lockTime : ℕ) (spend : EnvelopeSpend) {outs : List Output}
    (houts : outs.length < 253) :
    (envelopeReveal version lockTime spend outs).weight ≤
      4 * (51 + (outs.map fun o => o.serialize.length).sum) + 2 +
        (101 + (compactSizeLen spend.envelopeScript.length + spend.envelopeScript.length)) := by
  have hstack := spend.length_stack
  have hwitness := witnessBytes_envelopeReveal version lockTime spend outs
  have hbase : (envelopeReveal version lockTime spend outs).base.length = _ :=
    base_envelopeReveal spend houts
  rw [Tx.weight, length_txSerialize, hbase]
  omega

theorem sum_serialize_le {outs : List Output} (h : ∀ o ∈ outs, o.script.length ≤ 42) :
    (outs.map fun o => o.serialize.length).sum ≤ 51 * outs.length := by
  induction outs with
  | nil => exact le_rfl
  | cons o outs ih =>
    have ho := h o List.mem_cons_self
    have hrest := ih fun o ho => h o (List.mem_cons_of_mem _ ho)
    rw [List.map_cons, List.sum_cons, List.length_cons, length_serialize,
      length_compactSize_of_lt (by omega)]
    omega

/-- **A payload under the ceiling makes a reveal under the limit.** -/
theorem weight_le_of_payload (version lockTime : ℕ) {data internalPubkey : Bytes}
    (hdata : data.length ≤ envelopeMaxPayload) (hkey : internalPubkey.length = 32)
    {spend : EnvelopeSpend}
    (hscript : spend.envelopeScript = envelopeScript (sliceEnvelopeChunks data) internalPubkey)
    {outs : List Output} (houts : outs.length ≤ 2) (hshort : ∀ o ∈ outs, o.script.length ≤ 42) :
    (envelopeReveal version lockTime spend outs).weight ≤ maxStandardTxWeight := by
  have hfew : outs.length < 253 := by omega
  have hweight := weight_envelopeReveal_le version lockTime spend hfew
  have hsum := sum_serialize_le hshort
  have hlength := length_envelopeScript_le data hkey
  have hvarint : compactSizeLen spend.envelopeScript.length ≤ 9 := by
    unfold compactSizeLen
    split_ifs <;> omega
  rw [hscript] at hweight hvarint
  unfold envelopeMaxPayload at hdata
  unfold maxStandardTxWeight
  omega

/-! ## What a build reveals -/

section Builds

variable {enc : Encoder} {request : TxRequest} {plan : Plan}

theorem prepareData_envelope {L : Library} {data : Bytes} {pubKey : Text} {key : Option Bytes}
    {prepared : PreparedData}
    (h : prepareData L data (some .taproot) pubKey key = .ok prepared) :
    ∃ internalPubkey : Bytes, internalPubkey.length = 32 ∧
      prepared.dataBufferArray = [envelopeScript (sliceEnvelopeChunks data) internalPubkey] := by
  replace h : envelopePayload L data .taproot key = .ok prepared := h
  unfold envelopePayload at h
  cases key with
  | none => cases h
  | some key =>
    obtain ⟨_, hvalid, h⟩ := bind_eq_ok.mp h
    cases h
    obtain ⟨_, hshape, -⟩ := bind_eq_ok.mp hvalid
    rw [ensure_eq_ok, Bool.and_eq_true, decide_eq_true_eq] at hshape
    refine ⟨key.drop 1, ?_, rfl⟩
    rw [List.length_drop, hshape.1]

/-- The plan of a TAPROOT build carries a payload under the ceiling. -/
theorem Planned.payload (h : Planned enc request plan) (ht : plan.prepared.encoding = .taproot) :
    ∃ data internalPubkey : Bytes, data.length ≤ envelopeMaxPayload ∧ internalPubkey.length = 32 ∧
      plan.prepared.dataBufferArray =
        [envelopeScript (sliceEnvelopeChunks data) internalPubkey] := by
  obtain ⟨pre, bound, hpre, hplan⟩ := h.prepared
  obtain ⟨prepared, hprepared, heq⟩ := bind_eq_ok.mp hplan
  cases heq
  unfold prepareDataChunks at hprepared
  split_ifs at hprepared
  · have hencoding := (prepareData_taproot hprepared ht).1
    rw [hencoding] at hprepared
    obtain ⟨key, hkey, hbuffers⟩ := prepareData_envelope hprepared
    have hchoice := hpre.encoding
    rw [hencoding] at hchoice
    obtain ⟨_, hlength, hchoice⟩ := bind_eq_ok.mp hchoice
    obtain ⟨_, -, hchosen⟩ := bind_eq_ok.mp hchoice
    rw [ensure_eq_ok, decide_eq_true_eq, Except.ok.inj hchosen] at hlength
    exact ⟨_, key, hlength, hkey, hbuffers⟩
  · cases hprepared
    cases ht

theorem buildRevealPsbt_scripts {psbt : Psbt} {context : EnvelopeContext} {reveal : EnvelopeReveal}
    (h : buildRevealPsbt enc plan psbt context = .ok reveal) :
    reveal.revealPsbt.outputs.length ≤ 2 ∧ ∀ o ∈ reveal.revealPsbt.outputs,
      enc.lib.toOutputScript enc.network context.revealChangeAddress = some o.script := by
  obtain ⟨commitTxid, -, h₁⟩ := bind_eq_ok.mp h
  obtain ⟨psbt₁, hinput, h₂⟩ := bind_eq_ok.mp h₁
  obtain ⟨psbt₂, hchange, h₃⟩ := bind_eq_ok.mp h₂
  obtain ⟨-, -, rfl⟩ := Psbt.addInput_eq_ok.mp hinput
  obtain ⟨script, hscript, hadd⟩ := Psbt.addAddressOutput_eq_ok.mp hchange
  obtain ⟨-, -, rfl⟩ := Psbt.addOutput_eq_ok.mp hadd
  dsimp only at h₃
  split_ifs at h₃
  · obtain ⟨psbt₃, hpad, h₄⟩ := bind_eq_ok.mp h₃
    cases h₄
    obtain ⟨script', hscript', hadd'⟩ := Psbt.addAddressOutput_eq_ok.mp hpad
    obtain ⟨-, -, rfl⟩ := Psbt.addOutput_eq_ok.mp hadd'
    simp [Psbt.empty, hscript, Option.some.inj (hscript.symm.trans hscript')]
  · cases h₃
    simp [Psbt.empty, hscript]

/-- The one input of a reveal, signed over its script. -/
structure SignsReveal (reveal : Psbt) (script : Bytes) (spend : EnvelopeSpend) : Prop where
  envelopeScript : spend.envelopeScript = script
  spends : ∃ input, reveal.inputs = [input] ∧ spend.hash = (hexBytes input.hash).reverse ∧
    spend.index = input.index ∧ spend.sequence = input.sequence

def signedReveal (reveal : Psbt) (spend : EnvelopeSpend) : Tx :=
  envelopeReveal 2 0 spend (reveal.outputs.map fun o => ⟨o.value.toNat, o.script⟩)

/-- The reveal of a result is under the limit, however it is signed. -/
structure StandardReveal (r : TxResult) (reveal : Psbt) (e : EnvelopeResult) : Prop where
  revealPsbt : r.revealPsbt = some reveal
  envelope : r.envelope = some e
  weight : ∀ spend, SignsReveal reveal e.envelopeScript spend →
    (signedReveal reveal spend).weight ≤ maxStandardTxWeight

/-- Witness programs of forty bytes are the longest scripts that have an address. -/
def ShortAddressScripts (enc : Encoder) : Prop :=
  ∀ address script, enc.lib.toOutputScript enc.network address = some script → script.length ≤ 42

/-- **A TAPROOT build returns a reveal under the limit.** -/
theorem returns_standardReveal (hshort : ShortAddressScripts enc) (request : TxRequest) :
    Returns (fun r => r.encoding = .taproot → ∃ reveal e, StandardReveal r reveal e)
      (createTransaction enc request) := by
  refine always_mono ?_ (fun _ h => h) (returns_createTransaction returns_taprootStages)
  rintro r ⟨b, receipt, hb, rfl⟩ ht
  have ht : b.plan.prepared.encoding = .taproot := ht
  obtain ⟨houtputs, -⟩ := hb.selected ht
  obtain ⟨context, reveal, hfirst, hreveal, henvelope, hleaf, -⟩ :=
    hb.settled.reveal hb.planned ht (hb.emitted ht) houtputs
  obtain ⟨-, -, -, -, hscript, -⟩ := buildRevealPsbt_spends hfirst hreveal
  obtain ⟨data, key, hdata, hkey, hbuffers⟩ := hb.planned.payload ht
  obtain ⟨hcount, hpaid⟩ := buildRevealPsbt_scripts hreveal
  have hcontext : context.envelopeScript = envelopeScript (sliceEnvelopeChunks data) key := by
    rw [hleaf] at hbuffers
    exact List.singleton_injective hbuffers
  refine ⟨reveal.revealPsbt, reveal.result, ?_, ?_, fun spend hspend => ?_⟩
  · simp [Built.result, henvelope]
  · simp [Built.result, henvelope]
  · refine weight_le_of_payload 2 0 hdata hkey
      (hspend.envelopeScript.trans (hscript.trans hcontext)) ?_ fun o ho => ?_
    · rwa [List.length_map]
    · obtain ⟨out, hout, rfl⟩ := List.mem_map.mp ho
      exact hshort _ _ (hpaid out hout)

end Builds

/-- **Envelope reveals stay standard.** A payload under the ceiling makes a reveal under the limit
with any change output and pad, and so does every TAPROOT build of every run. -/
theorem envelopeReveals_standard (enc : Encoder) (hshort : ShortAddressScripts enc) :
    (∀ (version lockTime : ℕ) (data internalPubkey : Bytes) (spend : EnvelopeSpend)
      (change : AddressOutput enc.lib enc.network)
      (pad : Option (AddressOutput enc.lib enc.network)),
      data.length ≤ envelopeMaxPayload → internalPubkey.length = 32 →
      spend.envelopeScript = envelopeScript (sliceEnvelopeChunks data) internalPubkey →
      (envelopeReveal version lockTime spend
        ((change :: pad.toList).map AddressOutput.out)).weight ≤ maxStandardTxWeight) ∧
    ∀ (clock : ℕ) (events : List (Event sig Command)) (p : ℕ) (call : EncoderCall),
      (encoderRun enc clock events).cfg.calls p = some call → ∀ (r : TxResult) (t : ℕ),
      call.stage = .returned (.transaction r) t → r.encoding = .taproot →
      ∃ reveal e, StandardReveal r reveal e := by
  constructor
  · intro version lockTime data internalPubkey spend change pad hdata hkey hscript
    refine weight_le_of_payload version lockTime hdata hkey hscript ?_ fun o ho => ?_
    · cases pad <;> simp
    · obtain ⟨out, -, rfl⟩ := List.mem_map.mp ho
      exact out.script_length
  · intro clock events p call hcall r t hreturned ht
    obtain ⟨request, -, h⟩ := transaction_run (returns_standardReveal hshort) clock events p call
      hcall r t hreturned
    exact h ht

/-- Two full pushes, and a last byte that would be an opcode. -/
def recutPayload : Bytes := List.replicate 1041 0x01

def recutSpend : EnvelopeSpend where
  envelopeScript := envelopeScript (sliceEnvelopeChunks recutPayload) (sampleKey.drop 1)
  hash := List.replicate 32 0x2b
  hash_length := by decide
  index := 0
  sequence := 4294967293
  signature := ⟨List.replicate 64 0x07, .inl (by decide)⟩
  controlBlock := List.replicate 33 0xc0
  controlBlock_length := by decide

def regtestChange : AddressOutput sampleLibrary ⟨.btc, .regtest⟩ where
  address := sampleAddress ⟨.btc, .regtest⟩
  value := 546
  script := compile [.op 0x00, .push sampleHash]
  address_ne := by decide
  paid := by decide +kernel
  script_length := by decide

/-- A payload with its change and pad, and the build of `taprootIssue`. -/
theorem envelopeReveals_standard_issue :
    (envelopeReveal 2 0 recutSpend [regtestChange.out, regtestChange.out]).weight ≤
      maxStandardTxWeight ∧
    ∃ call r, taprootRun.cfg.calls 0 = some call ∧
      (∃ t, call.stage = .returned (.transaction r) t) ∧ ∃ reveal e, StandardReveal r reveal e := by
  have hshort : ShortAddressScripts (sampleEncoder ⟨.btc, .regtest⟩) := by
    intro address script h
    simp only [sampleEncoder, sampleLibrary] at h
    split_ifs at h
    cases h
    decide
  obtain ⟨call, r, t, hcall, hreturned, ht⟩ := taprootRun_returned
  obtain ⟨hpayload, hbuilds⟩ := envelopeReveals_standard (sampleEncoder ⟨.btc, .regtest⟩) hshort
  have hlength : recutPayload.length ≤ envelopeMaxPayload := by
    rw [recutPayload, List.length_replicate]
    decide
  exact ⟨hpayload 2 0 recutPayload (sampleKey.drop 1) recutSpend regtestChange (some regtestChange)
      hlength rfl rfl,
    call, r, hcall, ⟨t, hreturned⟩, hbuilds 0 _ 0 call hcall r t hreturned ht⟩

end XChain
