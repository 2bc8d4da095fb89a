import XChainEncoder.Lib.TxWeight
import XChainEncoder.TxSize

/-!
# Signed reveals

What a reveal weighs once its signatures are in, against the estimates its fee was made from.

* `EcdsaSignature`, `SchnorrSignature`, `AddressOutput`: the parts that vary in size;
* `p2shReveal`, `p2wshReveal`, `envelopeReveal`: the signed transactions;
* `virtualSize_p2shReveal`, `virtualSize_p2wshReveal`, `virtualSize_paddedReveal`,
  `virtualSize_envelopeReveal`: each weighs at most its estimate;
* **`revealEstimates_upper`**: all estimates are upper bounds.
-/

namespace XChain

open PushScript TxWeight

/-! ## Signatures and outputs -/

/-- A DER signature with a low `s`, and its hash type. -/
structure EcdsaSignature where
  r : Bytes
  s : Bytes
  hashType : UInt8
  r_length : 1 ≤ r.length ∧ r.length ≤ 33
  s_length : 1 ≤ s.length ∧ s.length ≤ 32

def EcdsaSignature.bytes (sig : EcdsaSignature) : Bytes :=
  [0x30, UInt8.ofNat (4 + sig.r.length + sig.s.length), 0x02, UInt8.ofNat sig.r.length] ++ sig.r ++
    [0x02, UInt8.ofNat sig.s.length] ++ sig.s ++ [sig.hashType]

theorem EcdsaSignature.length_bytes (sig : EcdsaSignature) :
    9 ≤ sig.bytes.length ∧ sig.bytes.length ≤ 72 := by
  obtain ⟨hr, hr'⟩ := sig.r_length
  obtain ⟨hs, hs'⟩ := sig.s_length
  simp only [bytes, List.length_append, List.length_cons, List.length_nil]
  omega

/-- A Schnorr signature, with a hash type or without. -/
structure SchnorrSignature where
  bytes : Bytes
  bytes_length : bytes.length = 64 ∨ bytes.length = 65

/-- An output that pays an address. -/
structure AddressOutput (L : Library) (network : Network) where
  address : Text
  value : ℕ
  script : Bytes
  address_ne : address ≠ []
  paid : L.toOutputScript network address = some script
  /-- The longest is a witness program of forty bytes. -/
  script_length : script.length ≤ 42

namespace AddressOutput

variable {L : Library} {network : Network} (o : AddressOutput L network)

def out : Output := ⟨o.value, o.script⟩

/-- `estimateOutputSizeForAddress` of the address. -/
def estimate : ℕ := estimateOutputSizeForAddress L network (some o.address)

theorem length_serialize_out : o.out.serialize.length = 9 + o.script.length := by
  have := o.script_length
  have hlt : o.script.length < 0xfd := by omega
  rw [length_serialize]
  show 8 + ((compactSize o.script.length).length + o.script.length) = _
  rw [length_compactSize_of_lt hlt]
  omega

theorem estimate_eq : o.estimate = o.out.serialize.length := by
  have := o.script_length
  obtain ⟨c, cs, hne⟩ := List.exists_cons_of_ne_nil o.address_ne
  have hpaid := o.paid
  rw [length_serialize_out, estimate, hne]
  rw [hne] at hpaid
  simp only [estimateOutputSizeForAddress, hpaid]
  rw [if_pos (by omega)]

theorem sum_estimate (l : List (AddressOutput L network)) :
    (l.map estimate).sum = (l.map fun o => o.out.serialize.length).sum := by
  rw [List.map_congr_left fun o _ => o.estimate_eq]

end AddressOutput

/-- The output that carries the marker. -/
def markerOutput (payload : Bytes) : Output := ⟨0, embedScript payload⟩

/-! ## Legs -/

/-- One leg with its signature. -/
structure SignedLeg where
  chunkScript : Bytes
  chunkScript_length : chunkScript.length ≤ 520
  hash : Bytes
  hash_length : hash.length = 32
  index : ℕ
  sequence : ℕ
  signature : EcdsaSignature
  pubkey : Bytes
  pubkey_length : pubkey.length = 33

namespace SignedLeg

variable (leg : SignedLeg)

/-- Signature, key and chunk script, pushed. -/
def p2shInput : Input where
  hash := leg.hash
  hash_length := leg.hash_length
  index := leg.index
  scriptSig := compile [.push leg.signature.bytes, .push leg.pubkey, .push leg.chunkScript]
  sequence := leg.sequence
  witness := []

/-- Signature, key and chunk script, in the witness. -/
def p2wshInput : Input where
  hash := leg.hash
  hash_length := leg.hash_length
  index := leg.index
  scriptSig := []
  sequence := leg.sequence
  witness := [leg.signature.bytes, leg.pubkey, leg.chunkScript]

end SignedLeg

theorem length_compileElement_push_le_compiledPushSize {d : Bytes} (hd : d.length ≤ 0xffff) :
    (compileElement (.push d)).length ≤ compiledPushSize d.length := by
  simp only [compileElement, compiledPushSize]
  split
  · rename_i o ho
    rcases d with _ | ⟨_, _ | ⟨_, _⟩⟩
    · simp
    · simp
    · cases ho
  · simp only [List.length_append, length_pushHeader]
    split_ifs <;> omega

/-- **A signed P2SH leg is no larger than its estimate.** -/
theorem SignedLeg.length_p2shInput (leg : SignedLeg) :
    leg.p2shInput.base.length ≤ estimateP2shInputWithRedeem leg.chunkScript.length := by
  have hsig := leg.signature.length_bytes.2
  have hchunk := leg.chunkScript_length
  have hpush := length_compileElement_push_le_compiledPushSize (d := leg.signature.bytes) (by omega)
  have hkey := length_compileElement_push_le_compiledPushSize (d := leg.pubkey)
    (by rw [leg.pubkey_length]; omega)
  have hscript := length_compileElement_push_le_compiledPushSize (d := leg.chunkScript) (by omega)
  have hsize : leg.p2shInput.scriptSig.length ≤
      73 + 34 + compiledPushSize leg.chunkScript.length := by
    simp only [p2shInput, length_compile_cons]
    rw [leg.pubkey_length, show compiledPushSize 33 = 34 from rfl] at hkey
    rw [compiledPushSize, if_pos (by omega)] at hpush
    simp only [compile, List.flatMap_nil, List.length_nil]
    omega
  have hcount := length_compactSize_mono hsize
  rw [length_base, estimateP2shInputWithRedeem]
  rw [length_compactSize (73 + 34 + _)] at hcount
  unfold compiledPushSize at *
  split_ifs at * <;> omega

theorem SignedLeg.length_p2wshInput (leg : SignedLeg) : leg.p2wshInput.base.length = 41 := by
  rw [length_base]
  rfl

/-- **The witness of a signed P2WSH leg is no larger than its estimate.** -/
theorem SignedLeg.length_stack_p2wshInput (leg : SignedLeg) :
    leg.p2wshInput.stack.length ≤ p2wshLegWitnessBytes leg.chunkScript := by
  have hsig := leg.signature.length_bytes.2
  rw [length_stack]
  simp only [p2wshInput, List.map_cons, List.map_nil, List.sum_cons, List.sum_nil, leg.pubkey_length]
  rw [length_compactSize_of_lt (n := leg.signature.bytes.length) (by omega), p2wshLegWitnessBytes,
    compactSizeLen, length_compactSize leg.chunkScript.length,
    show (compactSize 33).length = 1 from rfl, show (compactSize [leg.signature.bytes, leg.pubkey,
      leg.chunkScript].length).length = 1 from rfl]
  split_ifs <;> omega

/-! ## The signed reveals -/

/-- The P2SH reveal of the legs. -/
def p2shReveal (version lockTime : ℕ) (legs : List SignedLeg) (outs : List Output) : Tx :=
  ⟨version, legs.map SignedLeg.p2shInput, outs, lockTime⟩

/-- The P2WSH reveal of the legs. -/
def p2wshReveal (version lockTime : ℕ) (legs : List SignedLeg) (outs : List Output) : Tx :=
  ⟨version, legs.map SignedLeg.p2wshInput, outs, lockTime⟩

/-- The one input of an envelope reveal: signature, envelope script and control block. -/
structure EnvelopeSpend where
  envelopeScript : Bytes
  hash : Bytes
  hash_length : hash.length = 32
  index : ℕ
  sequence : ℕ
  signature : SchnorrSignature
  controlBlock : Bytes
  controlBlock_length : controlBlock.length = 33

def EnvelopeSpend.input (spend : EnvelopeSpend) : Input where
  hash := spend.hash
  hash_length := spend.hash_length
  index := spend.index
  scriptSig := []
  sequence := spend.sequence
  witness := [spend.signature.bytes, spend.envelopeScript, spend.controlBlock]

def envelopeReveal (version lockTime : ℕ) (spend : EnvelopeSpend) (outs : List Output) : Tx :=
  ⟨version, [spend.input], outs, lockTime⟩

section Estimates

variable {L : Library} {network : Network} {version lockTime : ℕ}

/-- What a reveal pays besides its marker. -/
structure RevealPayments (L : Library) (network : Network) where
  customOutputs : List (AddressOutput L network)
  change : Option (AddressOutput L network)

namespace RevealPayments

variable (pay : RevealPayments L network) (marker : Bytes)

/-- Marker, custom outputs, change. -/
def outs : List Output :=
  markerOutput marker :: (pay.customOutputs.map AddressOutput.out ++
    pay.change.toList.map AddressOutput.out)

/-- The bytes an estimate is given: so many for the change, and those of the custom outputs. -/
def extraOutputsBytes (changeBytes : ℕ) : ℕ :=
  changeBytes + (pay.customOutputs.map AddressOutput.estimate).sum

/-- The change fits its bytes, or they are those of the largest standard output and a byte counts
all inputs and a byte all outputs. -/
def Fits (changeBytes : ℕ) (legs : List SignedLeg) : Prop :=
  (∀ o ∈ pay.change, 9 + o.script.length ≤ changeBytes) ∨
    largestStandardOutput ≤ changeBytes ∧ legs.length < 253 ∧ pay.customOutputs.length + 2 < 253

end RevealPayments

theorem RevealPayments.length_outs (pay : RevealPayments L network) {marker : Bytes}
    {changeBytes : ℕ} {legs : List SignedLeg} (hfits : pay.Fits changeBytes legs) (hmarker : marker.length ≤ 75)
    (hins : legs.length < 2 ^ 32) (houts : (pay.outs marker).length < 2 ^ 32) :
    (compactSize legs.length).length + (compactSize (pay.outs marker).length).length +
      ((pay.outs marker).map fun o => o.serialize.length).sum ≤
      10 + estimateOpReturnOutput marker.length + pay.extraOutputsBytes changeBytes := by
  have hscript : (embedScript marker).length ≤ 1 + compiledPushSize marker.length := by
    have := length_compileElement_push_le_compiledPushSize (d := marker) (by omega)
    rw [embedScript, length_compile_cons, length_compile_cons]
    show 1 + (_ + 0) ≤ _
    omega
  have hpush : compiledPushSize marker.length ≤ 76 := by
    rw [compiledPushSize, if_pos hmarker]
    omega
  have hsum : ((pay.outs marker).map fun o => o.serialize.length).sum =
      (markerOutput marker).serialize.length + (pay.customOutputs.map AddressOutput.estimate).sum +
        (pay.change.toList.map fun o => o.out.serialize.length).sum := by
    rw [AddressOutput.sum_estimate]
    simp only [RevealPayments.outs, List.map_cons, List.map_append, List.map_map, List.sum_cons,
      List.sum_append]
    exact (Nat.add_assoc ..).symm
  have hmarkerSize : (markerOutput marker).serialize.length ≤ estimateOpReturnOutput marker.length := by
    rw [length_serialize, estimateOpReturnOutput, compactSizeLen, if_pos (by omega)]
    show 8 + ((compactSize (embedScript marker).length).length + (embedScript marker).length) ≤ _
    rw [length_compactSize_of_lt (by omega)]
    omega
  have hcount := length_compactSize_le (n := legs.length) (by omega)
  have hcount' := length_compactSize_le (n := (pay.outs marker).length) (by omega)
  rw [hsum, RevealPayments.extraOutputsBytes]
  rcases hfits with hchange | ⟨hwide, hl, ho⟩
  · have hsmall : (pay.change.toList.map fun o => o.out.serialize.length).sum ≤ changeBytes := by
      cases hc : pay.change with
      | none => simp
      | some o =>
        have := hchange o hc
        simp only [Option.toList_some, List.map_cons, List.map_nil, List.sum_cons, List.sum_nil,
          AddressOutput.length_serialize_out]
        exact this
    omega
  · have hlong : (pay.change.toList.map fun o => o.out.serialize.length).sum ≤ 51 ∧
        (pay.outs marker).length < 253 := by
      simp only [RevealPayments.outs, List.length_cons, List.length_append, List.length_map]
      cases hc : pay.change with
      | none =>
        simp only [Option.toList_none, List.map_nil, List.sum_nil, List.length_nil]
        omega
      | some o =>
        have := o.script_length
        simp only [Option.toList_some, List.map_cons, List.map_nil, List.sum_cons, List.sum_nil,
          AddressOutput.length_serialize_out, List.length_cons, List.length_nil]
        omega
    rw [length_compactSize_of_lt hl, length_compactSize_of_lt hlong.2]
    rw [largestStandardOutput] at hwide
    omega

/-- A reveal with one marker and its payments, which lists can hold. -/
structure RevealOf (legs : List SignedLeg) (pay : RevealPayments L network) (marker : Bytes)
    (changeBytes : ℕ) : Prop where
  nonempty : legs ≠ []
  fits : pay.Fits changeBytes legs
  marker_length : marker.length ≤ 75
  ins : legs.length < 2 ^ 32
  outs : (pay.outs marker).length < 2 ^ 32

/-- **A signed P2SH reveal is no larger than its estimate.** -/
theorem virtualSize_p2shReveal {legs : List SignedLeg} {pay : RevealPayments L network}
    {marker : Bytes} {changeBytes : ℕ} (h : RevealOf legs pay marker changeBytes)
    (hmarker : marker.length = p2shMarker.length) :
    (p2shReveal version lockTime legs (pay.outs marker)).virtualSize ≤
      estimateP2shRevealTx (legs.map SignedLeg.chunkScript) (pay.extraOutputsBytes changeBytes) := by
  have hins : ∀ l : List SignedLeg, (l.map fun leg => leg.p2shInput.base.length).sum + 8 * l.length ≤
      p2shInputsBytes (l.map SignedLeg.chunkScript) := by
    intro l
    induction l with
    | nil => exact le_rfl
    | cons leg l ih =>
      have := leg.length_p2shInput
      simp only [p2shInputsBytes, List.map_cons, List.sum_cons, List.length_cons] at ih ⊢
      omega
  have houts := pay.length_outs h.fits h.marker_length h.ins h.outs
  have hlegs := hins legs
  have hpos := List.length_pos_of_ne_nil h.nonempty
  rw [virtualSize_of_legacy (by simp [p2shReveal, SignedLeg.p2shInput]), length_txBase,
    estimateP2shRevealTx]
  simp only [p2shReveal, List.length_map, List.map_map, Function.comp_def]
  rw [hmarker] at houts
  omega

variable (version lockTime) in
/-- **A signed P2WSH reveal is no larger than its estimate.** -/
theorem length_p2wshReveal {legs : List SignedLeg} {pay : RevealPayments L network}
    {marker : Bytes} {changeBytes : ℕ} (h : RevealOf legs pay marker changeBytes) :
    (p2wshReveal version lockTime legs (pay.outs marker)).virtualSize ≤
      18 + 41 * legs.length + estimateOpReturnOutput marker.length +
        pay.extraOutputsBytes changeBytes +
        ceilQuarter (2 + p2wshWitnessBytes (legs.map SignedLeg.chunkScript)) := by
  have hstacks : ∀ l : List SignedLeg, (l.map fun leg => leg.p2wshInput.stack.length).sum ≤
      p2wshWitnessBytes (l.map SignedLeg.chunkScript) := by
    intro l
    induction l with
    | nil => exact le_rfl
    | cons leg l ih =>
      have := leg.length_stack_p2wshInput
      simp only [p2wshWitnessBytes, List.map_cons, List.sum_cons] at ih ⊢
      omega
  have hbase : (legs.map fun leg => leg.p2wshInput.base.length).sum = 41 * legs.length := by
    simp [SignedLeg.length_p2wshInput, Nat.mul_comm]
  have hwitness : (p2wshReveal version lockTime legs (pay.outs marker)).witnessBytes ≤
      2 + p2wshWitnessBytes (legs.map SignedLeg.chunkScript) := by
    have := hstacks legs
    unfold Tx.witnessBytes
    simp only [p2wshReveal, List.map_map, Function.comp_def]
    split_ifs <;> omega
  have houts := pay.length_outs h.fits h.marker_length h.ins h.outs
  rw [virtualSize_eq, length_txBase, ceilQuarter]
  simp only [p2wshReveal, List.length_map, List.map_map, Function.comp_def, hbase] at hwitness ⊢
  omega

theorem virtualSize_p2wshReveal {legs : List SignedLeg} {pay : RevealPayments L network}
    {marker : Bytes} {changeBytes : ℕ} (h : RevealOf legs pay marker changeBytes)
    (hmarker : marker.length = p2wshMarker.length) :
    (p2wshReveal version lockTime legs (pay.outs marker)).virtualSize ≤
      estimateP2wshRevealTx network (legs.map SignedLeg.chunkScript)
        (pay.extraOutputsBytes changeBytes) := by
  have hsize := length_p2wshReveal version lockTime h
  rw [estimateP2wshRevealTx, List.length_map, raiseToFloor]
  rw [hmarker] at hsize
  split
  · split_ifs <;> omega
  · omega

/-- **A signed reveal with a pad is no larger than the padded estimate of its leg.** -/
theorem virtualSize_paddedReveal {leg : SignedLeg} {pay : RevealPayments L network}
    {marker : Bytes} {padBytes : ℕ} (hsegwit : network.supportsSegwit = true)
    (h : RevealOf [leg] pay marker padBytes) (hmarker : marker.length = p2wshMarker.length) :
    (p2wshReveal version lockTime [leg] (pay.outs marker)).virtualSize ≤
      estimateSpendingP2wshTx network leg.chunkScript padBytes +
        (pay.customOutputs.map AddressOutput.estimate).sum := by
  have hsize := length_p2wshReveal version lockTime h
  have hop : estimateOpReturnOutput p2wshMarker.length = 20 := rfl
  have hfloor : ∃ floor, network.minStandardTxNonWitnessSize = some floor ∧ 71 < floor := by
    unfold Network.supportsSegwit at hsegwit
    unfold Network.minStandardTxNonWitnessSize
    cases hcoin : network.coin <;> simp_all
  obtain ⟨floor, hnetwork, hlt⟩ := hfloor
  have hwitness : p2wshWitnessBytes ([leg].map SignedLeg.chunkScript) =
      p2wshLegWitnessBytes leg.chunkScript := by
    simp [p2wshWitnessBytes]
  rw [hmarker, hwitness] at hsize
  simp only [estimateSpendingP2wshTx, hnetwork]
  rw [if_pos (by omega)]
  simp only [RevealPayments.extraOutputsBytes, List.length_cons, List.length_nil] at hsize
  omega

theorem EnvelopeSpend.length_input (spend : EnvelopeSpend) : spend.input.base.length = 41 := by
  rw [length_base]
  rfl

theorem EnvelopeSpend.length_stack (spend : EnvelopeSpend) : spend.input.stack.length ≤
    1 + (1 + 65) + (compactSizeLen spend.envelopeScript.length + spend.envelopeScript.length) +
      (1 + 33) := by
  have hsig : spend.signature.bytes.length ≤ 65 := by
    rcases spend.signature.bytes_length with h | h <;> omega
  rw [TxWeight.length_stack]
  simp only [EnvelopeSpend.input, List.map_cons, List.map_nil, List.sum_cons, List.sum_nil,
    spend.controlBlock_length]
  rw [length_compactSize_of_lt (n := spend.signature.bytes.length) (by omega), compactSizeLen,
    length_compactSize spend.envelopeScript.length, show (compactSize 33).length = 1 from rfl,
    show (compactSize [spend.signature.bytes, spend.envelopeScript,
      spend.controlBlock].length).length = 1 from rfl]
  split_ifs <;> omega

variable (version lockTime) in
theorem witnessBytes_envelopeReveal (spend : EnvelopeSpend) (outs : List Output) :
    (envelopeReveal version lockTime spend outs).witnessBytes ≤ 2 + spend.input.stack.length := by
  unfold Tx.witnessBytes
  simp only [envelopeReveal, List.map_cons, List.map_nil, List.sum_cons, List.sum_nil]
  split_ifs <;> omega

theorem base_envelopeReveal (spend : EnvelopeSpend) {outs : List Output} (houts : outs.length < 253) :
    (envelopeReveal version lockTime spend outs).base.length =
      51 + (outs.map fun o => o.serialize.length).sum := by
  rw [length_txBase]
  simp only [envelopeReveal, List.map_cons, List.map_nil, List.sum_cons, List.sum_nil,
    List.length_cons, List.length_nil, spend.length_input]
  rw [length_compactSize_of_lt houts, show (compactSize (0 + 1)).length = 1 from rfl]
  omega

/-- **A signed envelope reveal is no larger than its estimate.** -/
theorem virtualSize_envelopeReveal (spend : EnvelopeSpend) (outs : List (AddressOutput L network))
    (houts : outs.length < 253) :
    (envelopeReveal version lockTime spend (outs.map AddressOutput.out)).virtualSize ≤
      estimateEnvelopeRevealTx network spend.envelopeScript.length
        (outs.map AddressOutput.estimate).sum := by
  have hstack := spend.length_stack
  have hwitness := witnessBytes_envelopeReveal version lockTime spend (outs.map AddressOutput.out)
  have hlen : (outs.map AddressOutput.out).length < 253 := by rwa [List.length_map]
  rw [virtualSize_eq, base_envelopeReveal spend hlen, estimateEnvelopeRevealTx,
    AddressOutput.sum_estimate, List.map_map, Function.comp_def, raiseToFloor, ceilQuarter]
  split
  · split_ifs <;> omega
  · omega

/-- **The reveal estimates are upper bounds.** Whatever the signatures, a signed P2SH or P2WSH
reveal, a padded reveal and an envelope reveal weigh at most what was estimated for them. -/
theorem revealEstimates_upper (L : Library) (network : Network) (version lockTime : ℕ) :
    (∀ (legs : List SignedLeg) (pay : RevealPayments L network) (marker : Bytes),
      RevealOf legs pay marker largestStandardOutput →
      (marker.length = p2shMarker.length →
        (p2shReveal version lockTime legs (pay.outs marker)).virtualSize ≤
          estimateP2shRevealTx (legs.map SignedLeg.chunkScript)
            (pay.extraOutputsBytes largestStandardOutput)) ∧
      (marker.length = p2wshMarker.length →
        (p2wshReveal version lockTime legs (pay.outs marker)).virtualSize ≤
          estimateP2wshRevealTx network (legs.map SignedLeg.chunkScript)
            (pay.extraOutputsBytes largestStandardOutput))) ∧
    (∀ (leg : SignedLeg) (pay : RevealPayments L network) (marker : Bytes) (change : Option Text),
      network.supportsSegwit = true →
      RevealOf [leg] pay marker (estimateOutputSizeForAddress L network change) →
      marker.length = p2wshMarker.length →
      (p2wshReveal version lockTime [leg] (pay.outs marker)).virtualSize ≤
        estimateSpendingP2wshTx network leg.chunkScript
            (estimateOutputSizeForAddress L network change) +
          (pay.customOutputs.map AddressOutput.estimate).sum) ∧
    ∀ (spend : EnvelopeSpend) (outs : List (AddressOutput L network)), outs.length ≤ 2 →
      (envelopeReveal version lockTime spend (outs.map AddressOutput.out)).virtualSize ≤
        estimateEnvelopeRevealTx network spend.envelopeScript.length
          (outs.map AddressOutput.estimate).sum :=
  ⟨fun _ _ _ h => ⟨virtualSize_p2shReveal h, virtualSize_p2wshReveal h⟩,
    fun _ _ _ _ hsegwit h hmarker => virtualSize_paddedReveal hsegwit h hmarker,
    fun spend outs houts => virtualSize_envelopeReveal spend outs (by omega)⟩

end Estimates

/-! ## Two reveals -/

/-- A program of forty bytes for witness version 2, and its address. -/
def wideProgram : Bytes := (List.range 40).map fun i => UInt8.ofNat (i + 1)

def wideAddress : Text := "bc1zqypqxpq9qcrsszg2pvxq6rs0zqg3yyc5z5tpwxqergd3c8g7ruszzg3rysjjvfegxuqxd4".toList

/-- The sample library, with the address of `wideProgram`. -/
def wideLibrary : Library :=
  { sampleLibrary with
    toOutputScript := fun network a =>
      if a = wideAddress then some ([0x52, 0x28] ++ wideProgram)
      else sampleLibrary.toOutputScript network a }

/-- A payment to `sampleAddress`. -/
def narrowOutput : AddressOutput wideLibrary ⟨.btc, .mainnet⟩ where
  address := sampleAddress ⟨.btc, .mainnet⟩
  value := 1000
  script := [0x00, 0x14] ++ sampleHash
  address_ne := by decide
  paid := by decide +kernel
  script_length := by decide

/-- A payment to `wideAddress`. -/
def wideOutput : AddressOutput wideLibrary ⟨.btc, .mainnet⟩ where
  address := wideAddress
  value := 1000
  script := [0x52, 0x28] ++ wideProgram
  address_ne := by decide +kernel
  paid := by decide +kernel
  script_length := by decide

/-- A leg of a hundred bytes under the longest signature. -/
def sampleLeg : SignedLeg where
  chunkScript := List.replicate 100 0x51
  chunkScript_length := by decide
  hash := List.replicate 32 0x11
  hash_length := by decide
  index := 0
  sequence := 4294967295
  signature := ⟨List.replicate 33 0x00, List.replicate 32 0x01, 0x01, by decide, by decide⟩
  pubkey := sampleKey
  pubkey_length := by decide

/-- One leg, one custom output and a wide change output. -/
theorem revealEstimates_upper_leg :
    (p2wshReveal 2 0 [sampleLeg]
      (RevealPayments.outs ⟨[narrowOutput], some wideOutput⟩ p2wshMarker)).virtualSize ≤
      estimateP2wshRevealTx ⟨.btc, .mainnet⟩ [sampleLeg.chunkScript]
        (RevealPayments.extraOutputsBytes ⟨[narrowOutput], some wideOutput⟩ largestStandardOutput) :=
  ((revealEstimates_upper wideLibrary ⟨.btc, .mainnet⟩ 2 0).1 [sampleLeg]
    ⟨[narrowOutput], some wideOutput⟩ p2wshMarker
    ⟨by simp, .inr (by decide), by decide, by decide, by decide⟩).2 rfl

/-- **Beside many custom outputs a wide change output does not fit**: with 251 of them the signed
reveal outweighs its estimate. -/
theorem wideChange_exceeds :
    estimateP2wshRevealTx ⟨.btc, .mainnet⟩ [sampleLeg.chunkScript]
        (RevealPayments.extraOutputsBytes ⟨List.replicate 251 narrowOutput, some wideOutput⟩
          largestStandardOutput) <
      (p2wshReveal 2 0 [sampleLeg] (RevealPayments.outs
        ⟨List.replicate 251 narrowOutput, some wideOutput⟩ p2wshMarker)).virtualSize := by
  decide +kernel

end XChain
