import XChainEncoder.CompressedRequests
import XChainEncoder.EnvelopeReveals
import XChainEncoder.RevealPayouts
import XChainEncoder.RoundTrip

/-!
# What a call publishes

From a request to the bytes a reader finds in the transaction that comes back, whichever carrier was
asked for or chosen, compressed or not.

* `Compiles.reads`: the prepared buffers of a request read back as its payload;
* `restores_compressedInput`: what compression stored is the request's own payload;
* **`transaction_publishes`**: in every run, every returned transaction publishes what was asked.
-/

namespace XChain

open PushScript Coroutine

variable {enc : Encoder} {request : TxRequest}

/-! ## Reading a carrier -/

/-- The payload that the scripts of a carrier hold, under the txid of the first input. -/
def readCarriers (L : Library) (encoding : Encoding) (txid : Text) (scripts : List Bytes) :
    Option (Bytes × Option Bytes) :=
  (reassemble L encoding txid scripts).bind gateOutcome

/-- The encoding that was chosen prepares the same buffers when it is asked for by name. -/
theorem prepareData_chosen {L : Library} {data : Bytes} {encoding : Option Encoding} {pubKey : Text}
    {key : Option Bytes} {prepared : PreparedData}
    (h : prepareData L data encoding pubKey key = .ok prepared) :
    prepareData L data (some prepared.encoding) pubKey key = .ok prepared := by
  unfold prepareData at h ⊢
  dsimp only [Option.getD_some] at h ⊢
  generalize encoding.getD _ = carrier at h
  have hcarrier : prepared.encoding = carrier := by
    cases carrier with
    | opReturn =>
      obtain ⟨_, -, heq⟩ := bind_eq_ok.mp h
      cases heq
      rfl
    | p2sh | p2wsh =>
      obtain ⟨_, -, heq⟩ := bind_eq_ok.mp h
      cases heq
      rfl
    | multisign =>
      cases h
      rfl
    | taproot =>
      unfold envelopePayload at h
      cases key with
      | none => cases h
      | some key =>
        obtain ⟨_, -, heq⟩ := bind_eq_ok.mp h
        cases heq
        rfl
  rw [hcarrier]
  exact h

/-- How the buffers of a request with an action come from its payload. -/
structure Compiles (enc : Encoder) (request : TxRequest) (data : Bytes) (rawData : Option Bytes)
    (prepared : PreparedData) (compiled : CompiledPayload) : Prop where
  payload : compilePayload (some data) rawData = .ok compiled
  short : compiled.finalDataBuffer.length < 2 ^ 32
  prepared : prepareData enc.lib compiled.finalDataBuffer (some prepared.encoding) request.pubkey
    request.compressedPubKey = .ok prepared

theorem preparedPayload_compiles {input : PayloadInput} {data : Bytes} {prepared : PreparedData}
    (hinput : compressedInput enc request.compress request.data request.rawData = .ok input)
    (hdata : input.data = some data) (hne : data ≠ [])
    (hprepared : preparedPayload enc request = .ok prepared) :
    ∃ compiled, Compiles enc request data input.rawData prepared compiled := by
  simp only [preparedPayload, bind_eq_ok] at hprepared
  obtain ⟨input', hinput', compiled, hcompiled, encoding, hencoding, hprep⟩ := hprepared
  rw [hinput] at hinput'
  cases hinput'
  rw [hdata] at hcompiled
  have hbuffer : compiled.dataBuffer = data := by
    simp only [compilePayload, bind_eq_ok] at hcompiled
    obtain ⟨_, -, hcompiled⟩ := hcompiled
    cases input.rawData <;>
    · cases hcompiled
      rfl
  have haction : (classifyPayload compiled.dataBuffer input.rawData).hasActionPayload = true := by
    simp [classifyPayload, hbuffer, List.length_pos_iff.mpr hne]
  rw [haction, prepareDataChunks, if_pos rfl] at hprep
  simp only [chooseEncoding, bind_eq_ok, ensure_eq_ok, decide_eq_true_eq] at hencoding
  obtain ⟨-, hle, -⟩ := hencoding
  refine ⟨compiled, hcompiled, lt_of_le_of_lt hle ?_, prepareData_chosen hprep⟩
  unfold compiledCeiling
  split_ifs <;> decide

/-- **What was prepared for a payload reads back as the payload.** -/
theorem Compiles.reads {data : Bytes} {rawData : Option Bytes} {prepared : PreparedData}
    {compiled : CompiledPayload} (h : Compiles enc request data rawData prepared compiled)
    (hne : data ≠ []) {txid : Text} {scripts : List Bytes}
    (hcarriers : carriers enc.lib prepared txid request.compressedPubKey = some scripts) :
    readCarriers enc.lib prepared.encoding txid scripts = some (data, readRawData rawData) := by
  obtain ⟨k, hk⟩ := reassemble_carriers (two_le_length_compiled hne h.payload) h.prepared hcarriers
  rw [readCarriers, hk, Option.bind_some, gateOutcome_compiled hne h.payload h.short k]

/-- The scripts of an obfuscated carrier are its carriers, each under the key. -/
theorem Compiles.carriers_eq {data : Bytes} {rawData : Option Bytes} {prepared : PreparedData}
    {compiled : CompiledPayload} (h : Compiles enc request data rawData prepared compiled)
    (hne : data ≠ []) (hplain : prepared.encoding = .opReturn ∨ prepared.encoding = .multisign)
    {txid : Text} {scripts : List Bytes} (hscripts : prepared.dataBufferArray.mapM
      (carrierScript enc.lib prepared.encoding request.compressedPubKey txid) = some scripts) :
    carriers enc.lib prepared txid request.compressedPubKey = some scripts := by
  unfold carriers
  rcases hplain with hcarrier | hcarrier
  · rw [hcarrier] at hscripts ⊢
    exact hscripts
  · rw [hcarrier] at hscripts ⊢
    cases hkey : request.compressedPubKey with
    | some key =>
      rw [hkey] at hscripts
      exact hscripts
    | none =>
      -- Without a key no slot has a script, and there is a slot.
      have hprep := h.prepared
      rw [hcarrier] at hprep
      cases hprep
      have hlength := two_le_length_compiled hne h.payload
      have hpos : 0 < multisignChunksSize := by decide
      have hslots := Chunking.slice_ne_nil hpos
        (List.length_pos_iff.mp (by omega : 0 < compiled.finalDataBuffer.length))
      obtain ⟨slot, slots, hcons⟩ := List.exists_cons_of_ne_nil hslots
      rw [hkey] at hscripts
      simp [multisignPayload, hcons, carrierScript] at hscripts

/-! ## The payload of a request -/

/-- A payload that stands for the request's: the same bytes, or a named codec and the deflated bytes. -/
inductive Restores (inflate : Bytes → Option Bytes) (request : TxRequest) :
    Bytes → Option Bytes → Prop where
  | same {action : Bytes} (data : request.data = some action) :
      Restores inflate request action (readRawData request.rawData)
  | inflated {action named original stored : Bytes} (data : request.data = some action)
      (rawData : request.rawData = some original) (inflates : inflate stored = some original)
      (codec : actionField named compressionFieldIndex = compressionCodeDeflateRaw)
      (fields : ∀ i, i ≠ compressionFieldIndex → actionField named i = actionField action i) :
      Restores inflate request named (some stored)

/-- The payload that is compiled stands for the request's. -/
theorem restores_compressedInput {inflate : Bytes → Option Bytes}
    (hinflate : ∀ b d, enc.lib.deflateRaw b = some d → inflate d = some b) {input : PayloadInput}
    {action : Bytes} (haction : request.data = some action) (hne : action ≠ [])
    (h : compressedInput enc request.compress request.data request.rawData = .ok input) :
    ∃ data, input.data = some data ∧ data ≠ [] ∧
      Restores inflate request data (readRawData input.rawData) := by
  have hsame : ∀ result, input = ⟨request.data, request.rawData, result⟩ →
      ∃ data, input.data = some data ∧ data ≠ [] ∧
        Restores inflate request data (readRawData input.rawData) := by
    rintro result rfl
    exact ⟨action, haction, hne, .same haction⟩
  unfold compressedInput at h
  split at h
  next originalBuffer _ hraw =>
    cases houtcome : compressionOutcome enc.lib request.data originalBuffer request.compress.isSome with
    | error e =>
      rw [houtcome] at h
      cases h
    | ok result =>
      rw [houtcome] at h
      have hlossless := compressionOutcome_lossless houtcome
      cases hc : result.compressed with
      | false =>
        refine hsame (some result) ?_
        rw [← Except.ok.inj h, applyCompression, hc, if_neg Bool.false_ne_true]
      | true =>
        obtain ⟨a, named, ha, hnamed, hcodec, hfields⟩ := hlossless.named hc
        obtain ⟨hsmaller, hratio⟩ := hlossless.smaller hc
        have hstored : result.rawData ≠ [] := by
          intro hnil
          rw [hnil] at hsmaller hratio
          simp only [List.length_nil] at hsmaller hratio
          omega
        have hinput : input = ⟨result.data, some result.rawData, some result⟩ := by
          rw [← Except.ok.inj h, applyCompression, if_pos hc]
        subst hinput
        rw [haction] at ha
        cases ha
        have hread : readRawData (some result.rawData) = some result.rawData := by
          simp [readRawData, hstored]
        refine ⟨named, hnamed, fun hnil => ?_, ?_⟩
        · rw [hnil] at hcodec
          exact absurd hcodec (by decide)
        · rw [hread]
          exact .inflated haction hraw (hinflate _ _ (hlossless.deflated hc)) hcodec hfields
  · exact hsame _ (Except.ok.inj h).symm

/-! ## The transaction -/

/-- The output script that a script-hash commit pays a chunk's leg to. -/
def fundedScript (L : Library) (encoding : Encoding) (chunk : Bytes) : Bytes :=
  if encoding = .p2sh then p2shScript L chunk else p2wshScript L chunk

/-- The script that an input shows when it is spent. -/
def PsbtInput.shownScript (input : PsbtInput) : Option Bytes := input.redeemScript.or input.witnessScript

/-- A returned transaction publishes a payload: in its first outputs, under the txid it spends first;
in the legs it funds; in the legs it spends; or in the leaf that its reveal spends. -/
structure Publishes (enc : Encoder) (request : TxRequest) (data : Bytes) (rawData : Option Bytes)
    (r : TxResult) : Prop where
  plain : r.encoding = .opReturn ∨ r.encoding = .multisign → ∃ first more scripts,
    r.psbt.outpoints = first :: more ∧ scripts <+: r.psbt.scripts ∧
    readCarriers enc.lib r.encoding first.txid scripts = some (data, rawData)
  commit : request.p2shHash = none → r.encoding = .p2sh ∨ r.encoding = .p2wsh → ∃ chunks,
    r.carrierScripts = some chunks ∧
    chunks.map (fundedScript enc.lib r.encoding) <+: r.psbt.scripts ∧
    ∀ txid, readCarriers enc.lib r.encoding txid chunks = some (data, rawData)
  reveal : request.p2shHash ≠ none → r.encoding = .p2sh ∨ r.encoding = .p2wsh → ∃ chunks,
    r.psbt.inputs.map PsbtInput.shownScript = chunks.map some ∧
    ∀ txid, readCarriers enc.lib r.encoding txid chunks = some (data, rawData)
  envelope : r.encoding = .taproot → ∃ reveal e vout out, SpendsCommit enc r reveal e vout out ∧
    ∀ txid, readCarriers enc.lib r.encoding txid [e.envelopeScript] = some (data, rawData)

/-- What a finished build knows of its payload, its outputs and its inputs. -/
structure PublishedBuild (enc : Encoder) (request : TxRequest) (b : Built) : Prop where
  planned : Planned enc request b.plan
  keyed : KeyedBuild enc request b
  funding : request.p2shHash = none → PaysFunding enc request b
  reveal : ∀ hash, request.p2shHash = some hash → ∃ tx, PaysReveal enc request hash b tx

theorem returns_publishedBuild : Returns (PublishedBuild enc request) (buildSteps enc request) :=
  always_mono (fun _ h => ⟨h.1, h.2.1, h.2.2.1, h.2.2.2⟩) (fun _ _ => trivial)
    (always_and (returns_planned enc request) (always_and returns_buildSteps_keyed
      (always_and (returns_paysFunding enc request) (returns_paysReveal enc request))))

theorem PaysFunding.legs {b : Built} (h : PaysFunding enc request b)
    (hfamily : b.plan.prepared.encoding = .p2sh ∨ b.plan.prepared.encoding = .p2wsh) :
    b.plan.prepared.dataBufferArray.map (fundedScript enc.lib b.plan.prepared.encoding) <+:
      b.psbt.scripts := by
  obtain ⟨data, pays, own, houtputs, hscripts, -⟩ := h.outputs
  have hleg : ∀ chunk, dataScript enc b.plan b.plan.bound.txidFirstInput chunk =
      some (fundedScript enc.lib b.plan.prepared.encoding chunk) := by
    intro chunk
    unfold dataScript fundedScript
    rcases hfamily with h | h <;> simp [h]
  rw [funext hleg] at hscripts
  have hmap := List.mapM_pure.symm.trans hscripts
  rw [Option.some.inj hmap, Psbt.scripts, houtputs, List.map_append, List.map_append,
    List.append_assoc]
  exact List.prefix_append _ _

theorem PaysReveal.shows {b : Built} {hash : Text} {tx : ParsedTx}
    (h : PaysReveal enc request hash b tx) :
    b.psbt.inputs.map PsbtInput.shownScript = b.plan.prepared.dataBufferArray.map some := by
  have hone : ∀ i chunk, (legInput b.plan hash tx i chunk).shownScript = some chunk := by
    intro i chunk
    unfold legInput PsbtInput.shownScript
    dsimp only
    split_ifs <;> rfl
  rw [h.inputs, List.mapIdx_eq_zipIdx_map, List.map_map]
  refine List.ext_getElem (by simp) fun i _ _ => ?_
  simp [hone]

/-- **A finished build publishes the payload of its request.** -/
theorem publishes_result {b : Built} {input : PayloadInput} {data : Bytes} {r : TxResult}
    {receipt : Option Receipt} (hr : r = { b.result with reservation := receipt })
    (hb : PublishedBuild enc request b)
    (henvelope : r.encoding = .taproot → ∃ reveal e vout out, SpendsCommit enc r reveal e vout out)
    (hinput : compressedInput enc request.compress request.data request.rawData = .ok input)
    (hdata : input.data = some data) (hne : data ≠ []) :
    Publishes enc request data (readRawData input.rawData) r := by
  have hencoding : r.encoding = b.plan.prepared.encoding := by rw [hr]; rfl
  obtain ⟨compiled, hcompiles⟩ := preparedPayload_compiles hinput hdata hne hb.keyed.prepared
  have hshown : ∀ {txid : Text}, r.encoding ≠ .opReturn → r.encoding ≠ .multisign →
      readCarriers enc.lib r.encoding txid b.plan.prepared.dataBufferArray =
        some (data, readRawData input.rawData) := fun hop hmultisign => by
    rw [hencoding]
    refine hcompiles.reads hne ?_
    unfold carriers
    cases h : b.plan.prepared.encoding with
    | opReturn => exact absurd (hencoding.trans h) hop
    | multisign => exact absurd (hencoding.trans h) hmultisign
    | p2sh | p2wsh | taproot => rfl
  refine ⟨fun hplain => ?_, fun hfunding hfamily => ?_, fun hreveal hfamily => ?_, fun ht => ?_⟩
  · have hkeyed : KeyedByFirstInput enc request r := hr ▸ hb.keyed.result receipt
    obtain ⟨prepared, first, more, scripts, hprepared, hout, -, hscripts, hfront⟩ :=
      hkeyed.plain hplain
    rw [hb.keyed.prepared] at hprepared
    cases hprepared
    refine ⟨first, more, scripts, hout, hfront, ?_⟩
    rw [hencoding] at hscripts hplain ⊢
    exact hcompiles.reads hne (hcompiles.carriers_eq hne hplain hscripts)
  · refine ⟨b.plan.prepared.dataBufferArray, ?_, ?_, fun txid => ?_⟩
    · rw [hencoding] at hfamily
      have hp : b.plan.isP2shFamily = true := by
        rcases hfamily with h | h <;> simp [Plan.isP2shFamily, h]
      rw [hr]
      simp [Built.result, hp]
    · have hlegs := (hb.funding hfunding).legs (hencoding ▸ hfamily)
      rw [hencoding, hr]
      exact hlegs
    · refine hshown ?_ ?_ <;> rcases hfamily with h | h <;> simp [h]
  · obtain ⟨hash, hhash⟩ := Option.ne_none_iff_exists'.mp hreveal
    obtain ⟨tx, hpays⟩ := hb.reveal hash hhash
    refine ⟨b.plan.prepared.dataBufferArray, ?_, fun txid => ?_⟩
    · rw [hr]
      exact hpays.shows
    · refine hshown ?_ ?_ <;> rcases hfamily with h | h <;> simp [h]
  · obtain ⟨reveal, e, vout, out, hspends⟩ := henvelope ht
    refine ⟨reveal, e, vout, out, hspends, fun txid => ?_⟩
    have hleaf : b.plan.prepared.dataBufferArray = [e.envelopeScript] := by
      have hcarrier := hspends.leaf
      rw [hr] at hcarrier
      simp only [Built.result] at hcarrier
      split_ifs at hcarrier
      exact Option.some.inj hcarrier
    rw [← hleaf]
    refine hshown ?_ ?_ <;> simp [ht]

/-- **Every returned transaction publishes the payload of its request**, in every run: a reader of its
scripts finds the action and the raw data that were asked for, or the action with its codec named and
the raw data deflated. -/
theorem transaction_publishes (enc : Encoder) (inflate : Bytes → Option Bytes)
    (hinflate : ∀ b d, enc.lib.deflateRaw b = some d → inflate d = some b) (clock : ℕ)
    (events : List (Event sig Command)) (p : ℕ) (call : EncoderCall)
    (hcall : (encoderRun enc clock events).cfg.calls p = some call) (r : TxResult) (t : ℕ)
    (hreturned : call.stage = .returned (.transaction r) t) :
    ∃ request, call.command = .createTransaction request ∧
      ∀ action, request.data = some action → action ≠ [] →
        ∃ data rawData, Restores inflate request data rawData ∧ Publishes enc request data rawData r := by
  refine transaction_run (R := fun request r => ∀ action, request.data = some action → action ≠ [] →
    ∃ data rawData, Restores inflate request data rawData ∧ Publishes enc request data rawData r)
    (fun request => ?_) clock events p call hcall r t hreturned
  refine always_mono (fun r hr action haction hne => ?_) (fun _ _ => trivial)
    (always_and (returns_createTransaction returns_publishedBuild)
      (returns_envelopeReveal enc request))
  obtain ⟨⟨b, receipt, hb, heq⟩, henvelope⟩ := hr
  obtain ⟨pre, bound, hpre, -⟩ := hb.planned.prepared
  obtain ⟨data, hdata, hne', hrestores⟩ := restores_compressedInput hinflate haction hne hpre.input
  exact ⟨data, _, hrestores, publishes_result heq hb henvelope hpre.input hdata hne'⟩

/-- A FILE in a nulldata output, its sixteen bytes deflated to five. -/
def fileRequest : TxRequest :=
  { taprootIssue with
    customOutputs := []
    data := some [0x46, 0x49, 0x4c, 0x45, 0x7c, 0x30]
    rawData := some repeatedPayload
    compress := some true
    encoding := .named .opReturn
    change := some (sampleAddress ⟨.btc, .mainnet⟩) }

def fileRun : EncoderWorld := encoderRun deflatingEncoder 0
  (.start (.createTransaction fileRequest) [] :: List.replicate 6 (answer 0))

theorem transaction_publishes_file : ∃ call r, fileRun.cfg.calls 0 = some call ∧
    returnedTransaction call = some r ∧ r.encoding = .opReturn ∧ ∃ data rawData,
      Restores (fun b => if b = deflatedPayload then some repeatedPayload else none) fileRequest data
        rawData ∧ Publishes deflatingEncoder fileRequest data rawData r := by
  have hrun : ∃ call ∈ fileRun.cfg.calls 0, call.command = .createTransaction fileRequest ∧
      (returnedTransaction call).map TxResult.encoding = some .opReturn := by
    decide +kernel
  obtain ⟨call, hcall, hcommand, hsome⟩ := hrun
  obtain ⟨r, hr, hencoding⟩ := Option.map_eq_some_iff.mp hsome
  obtain ⟨t, hreturned⟩ := returnedTransaction_eq_some hr
  have hinflate : ∀ b d, deflatingEncoder.lib.deflateRaw b = some d →
      (if d = deflatedPayload then some repeatedPayload else none) = some b := by
    intro b d h
    have h : (if b = repeatedPayload then some deflatedPayload else none) = some d := h
    split_ifs at h with hb
    · cases h
      rw [if_pos rfl, hb]
  obtain ⟨request, hrequest, hpublishes⟩ :=
    transaction_publishes deflatingEncoder _ hinflate 0 _ 0 call hcall r t hreturned
  rw [hcommand] at hrequest
  obtain rfl := Command.createTransaction.inj hrequest
  exact ⟨call, r, hcall, hr, hencoding, hpublishes _ rfl (by decide)⟩

end XChain
