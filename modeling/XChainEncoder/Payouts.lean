import XChainEncoder.KeyBinding
import XChainEncoder.RelayFees

/-!
# What a build pays

Where the value of a finished transaction goes: data outputs first, then the payments asked for, then
the caller's own outputs.

* `dataScript`, `returns_emitDataOutputs_lays`: a funding build's data outputs, one a chunk;
* `paymentOutput`, `emitPayments_paid`: the payments, to the unit;
* `OwnOutput`, `emitChange_own`, `emitRevealPad_own`, `emitSweep_own`: what goes back to the caller;
* `funding_pays`: **what a funding build pays**.
-/

namespace XChain

open PushScript Coroutine

variable {enc : Encoder} {plan : Plan} {emitted : Emitted} {request : TxRequest}

/-! ## Data outputs -/

/-- The output script of one buffer, under the key of the obfuscated carriers. -/
def dataScript (enc : Encoder) (plan : Plan) (key : Option Text) (chunk : Bytes) : Option Bytes :=
  match plan.prepared.encoding with
  | .opReturn | .multisign => key.bind fun txid =>
    carrierScript enc.lib plan.prepared.encoding plan.request.compressedPubKey txid chunk
  | .p2sh => some (p2shScript enc.lib chunk)
  | .p2wsh => some (p2wshScript enc.lib chunk)
  | .taproot => p2trScript enc.lib (plan.prepared.internalPubkey.getD []) chunk

/-- A nulldata output holds nothing, any other data output at least the build's dust value. -/
def DataValue (plan : Plan) (value : ℤ) : Prop :=
  if plan.prepared.encoding = .opReturn then value = 0 else plan.rates.finalDust ≤ value

def Emission.outputs (e : Emission) : List TxOut := (e.psbt.map Psbt.outputs).getD []

/-- The buffers have become outputs. -/
structure Lays (enc : Encoder) (plan : Plan) (chunks : List Bytes) (e e' : Emission) : Prop where
  key : ¬ plan.isP2shFamily → e'.txidFirstInput = e.txidFirstInput
  data : ∃ data, e'.outputs = e.outputs ++ data ∧ (∀ out ∈ data, DataValue plan out.value) ∧
    chunks.mapM (dataScript enc plan e.txidFirstInput) = some (data.map TxOut.script)

theorem lays_one {e e' : Emission} {psbt : Psbt} {out : TxOut} {chunk : Bytes}
    (hkey : ¬ plan.isP2shFamily → e'.txidFirstInput = e.txidFirstInput)
    (hpsbt : e.psbt = some psbt) (hpsbt' : e'.psbt = some ⟨psbt.inputs, psbt.outputs ++ [out]⟩)
    (hvalue : DataValue plan out.value)
    (hscript : dataScript enc plan e.txidFirstInput chunk = some out.script) :
    Lays enc plan [chunk] e e' := by
  refine ⟨hkey, [out], ?_, fun o h => ?_, ?_⟩
  · simp only [Emission.outputs, hpsbt, hpsbt', Option.map_some, Option.getD_some]
  · rw [List.mem_singleton.mp h]
    exact hvalue
  · simp [hscript]

theorem emitDataOutput_lays {e e' : Emission} {chunk script : Bytes} {value : ℤ} {size : ℕ}
    (hvalue : DataValue plan value)
    (hscript : dataScript enc plan e.txidFirstInput chunk = some script)
    (h : emitDataOutput e script value size = .ok e') : Lays enc plan [chunk] e e' := by
  simp only [emitDataOutput, bind_eq_ok, requirePsbt_eq_ok] at h
  obtain ⟨psbt, hpsbt, psbt', hout, heq⟩ := h
  cases heq
  obtain ⟨-, -, rfl⟩ := Psbt.addOutput_eq_ok.mp hout
  exact lays_one (fun _ => rfl) hpsbt rfl hvalue hscript

theorem fundP2shLeg_lays (hcarrier : plan.prepared.encoding = .p2sh) {price : RevealOutputsPrice}
    {e e' : Emission} {chunk : Bytes} (he : e.Owed)
    (h : fundP2shLeg enc plan price e chunk = .ok e') : Lays enc plan [chunk] e e' := by
  simp only [fundP2shLeg, bind_eq_ok, requirePsbt_eq_ok] at h
  obtain ⟨psbt, hpsbt, psbt', hout, heq⟩ := h
  cases heq
  obtain ⟨-, -, rfl⟩ := Psbt.addOutput_eq_ok.mp hout
  have hfamily : plan.isP2shFamily = true := by simp [Plan.isP2shFamily, hcarrier]
  refine lays_one (fun h => absurd hfamily h) hpsbt rfl ?_ ?_
  · rw [DataValue, if_neg (by simp [hcarrier])]
    exact (le_max_right _ _).trans ((fundCustomOutputs_owed _ he).1.trans
      (topUpFirstLeg_owes enc plan price .p2sh _ _ psbt).fee_le)
  · rw [dataScript, hcarrier]

theorem fundP2wshLeg_lays (hcarrier : plan.prepared.encoding = .p2wsh) {price : RevealOutputsPrice}
    {e e' : Emission} {chunk : Bytes} (he : e.Owed)
    (h : fundP2wshLeg enc plan price e chunk = .ok e') : Lays enc plan [chunk] e e' := by
  have hpos := enc.dustAmount_pos
  simp only [fundP2wshLeg, bind_eq_ok, requirePsbt_eq_ok] at h
  obtain ⟨psbt, hpsbt, psbt', hout, heq⟩ := h
  cases heq
  obtain ⟨-, -, rfl⟩ := Psbt.addOutput_eq_ok.mp hout
  have hfamily : plan.isP2shFamily = true := by simp [Plan.isP2shFamily, hcarrier]
  refine lays_one (fun h => absurd hfamily h) hpsbt rfl ?_ ?_
  · rw [DataValue, if_neg (by simp [hcarrier])]
    refine le_trans ?_ ((fundCustomOutputs_owed _ he).1.trans
      (topUpUnless_owes enc plan price .p2wsh _ _ _ psbt).fee_le)
    refine le_add_of_le_of_nonneg (le_max_right _ _) ?_
    split_ifs <;> omega
  · rw [dataScript, hcarrier]

theorem emitEnvelopeCommit_lays (hcarrier : plan.prepared.encoding = .taproot) {e e' : Emission}
    {chunk : Bytes} (h : emitEnvelopeCommit enc plan e chunk = .ok e') :
    Lays enc plan [chunk] e e' := by
  have hpos := enc.dustAmount_pos
  simp only [emitEnvelopeCommit, bind_eq_ok, requirePsbt_eq_ok] at h
  obtain ⟨psbt, hpsbt, h⟩ := h
  cases hscript : p2trScript enc.lib (plan.prepared.internalPubkey.getD []) chunk with
  | none =>
    rw [hscript] at h
    cases h
  | some script =>
    simp only [hscript, bind_eq_ok] at h
    obtain ⟨address, -, e'', hout, heq⟩ := h
    cases heq
    have hlays : Lays enc plan [chunk] e e'' := emitDataOutput_lays ?_ ?_ hout
    · exact ⟨hlays.key, hlays.data⟩
    · rw [DataValue, if_neg (by simp [hcarrier])]
      generalize feeForVsize _ plan.rates.feePerBytes = fee
      have hfee : plan.rates.finalDust ≤ max fee plan.rates.finalDust := le_max_right _ _
      split_ifs <;> omega
    · rw [dataScript, hcarrier]
      exact hscript

theorem loadFundingTx_outputs {e e' : Emission} (h : loadFundingTx enc plan e = .ok e') :
    e'.outputs = e.outputs := by
  unfold loadFundingTx at h
  split at h
  · split at h
    · cases h
    · obtain ⟨_, -, heq⟩ := bind_eq_ok.mp h
      cases heq
      rfl
  · cases h
    rfl

theorem dataScript_family (hfamily : plan.isP2shFamily = true) (key key' : Option Text)
    (chunk : Bytes) : dataScript enc plan key chunk = dataScript enc plan key' chunk := by
  simp only [Plan.isP2shFamily, Bool.or_eq_true, decide_eq_true_eq] at hfamily
  unfold dataScript
  rcases hfamily with h | h <;> rw [h]

theorem Lays.after_load (hfamily : plan.isP2shFamily = true) {chunks : List Bytes}
    {e e' e'' : Emission} (hload : loadFundingTx enc plan e = .ok e')
    (h : Lays enc plan chunks e' e'') : Lays enc plan chunks e e'' := by
  obtain ⟨data, hout, hvalue, hscripts⟩ := h.data
  refine ⟨fun hnot => absurd hfamily hnot, data, ?_, hvalue, ?_⟩
  · rw [hout, loadFundingTx_outputs hload]
  · rw [← hscripts]
    exact congrArg (List.mapM · chunks) (funext fun chunk => dataScript_family hfamily _ _ chunk)

/-- **Every chunk of a funding build becomes one output that carries it.** -/
theorem returns_emitChunk_lays {price : RevealOutputsPrice} (hfunding : plan.isReveal = false)
    {e : Emission} (he : e.Owed) (chunk : Bytes) :
    Returns (Lays enc plan [chunk] e) (emitChunk enc plan price e chunk) := by
  have hnone : plan.request.p2shHash = none := by simpa [Plan.isReveal] using hfunding
  unfold emitChunk
  cases hcarrier : plan.prepared.encoding with
  | opReturn =>
    refine .bind (returns_awaitObfuscate chunk e.txidFirstInput) fun data hdata => ?_
    refine returns_ofExcept fun e' h => emitDataOutput_lays ?_ ?_ h
    · rw [DataValue, if_pos hcarrier]
    · obtain ⟨txid, hkey, hdata⟩ := Option.bind_eq_some_iff.mp hdata
      simp [dataScript, hkey, hcarrier, carrierScript, opReturnScript, hdata]
  | multisign =>
    refine .bind (returns_awaitObfuscate chunk e.txidFirstInput) fun data hdata => ?_
    refine .bind_right fun _ => .bind_right fun _ => returns_ofExcept fun e' h => ?_
    obtain ⟨txid, hkey, hdata⟩ := Option.bind_eq_some_iff.mp hdata
    unfold emitMultisignOutput at h
    cases hcompressed : plan.request.compressedPubKey with
    | none =>
      rw [hcompressed] at h
      cases h
    | some key =>
      simp only [hcompressed] at h
      cases hscript : p2msScript enc.lib [dataToPubkey (data.take 32), dataToPubkey (data.drop 32),
          key] with
      | none =>
        rw [hscript] at h
        cases h
      | some script =>
        simp only [hscript] at h
        refine emitDataOutput_lays ?_ ?_ h
        · rw [DataValue, if_neg (by simp [hcarrier])]
          exact le_max_left _ _
        · simp [dataScript, hkey, hcarrier, carrierScript, multisignScript, hcompressed, hdata,
            hscript]
  | taproot => exact returns_ofExcept fun e' h => emitEnvelopeCommit_lays hcarrier h
  | p2sh =>
    have hfamily : plan.isP2shFamily = true := by simp [Plan.isP2shFamily, hcarrier]
    refine .bind (returns_ofExcept fun e' h => And.intro (loadFundingTx_owed he h) h) fun e' he' => ?_
    rw [hnone]
    exact returns_ofExcept fun e'' h => (fundP2shLeg_lays hcarrier he'.1 h).after_load hfamily he'.2
  | p2wsh =>
    have hfamily : plan.isP2shFamily = true := by simp [Plan.isP2shFamily, hcarrier]
    refine .bind (returns_ofExcept fun e' h => And.intro (loadFundingTx_owed he h) h) fun e' he' => ?_
    rw [hnone]
    exact returns_ofExcept fun e'' h => (fundP2wshLeg_lays hcarrier he'.1 h).after_load hfamily he'.2

theorem returns_emitDataOutputs_lays (hdust : 0 < plan.rates.finalDust) {price : RevealOutputsPrice}
    (hfunding : plan.isReveal = false) (chunks : List Bytes) {e : Emission} (he : e.Owed) :
    Returns (Lays enc plan chunks e) (emitDataOutputs enc plan price chunks e) := by
  induction chunks generalizing e with
  | nil => exact ⟨fun _ => rfl, [], (List.append_nil _).symm, by simp, rfl⟩
  | cons chunk rest ih =>
    refine .bind (always_mono (fun _ h => h) (fun _ _ => trivial)
      (always_and (returns_emitChunk_lays hfunding he chunk)
        (returns_emitChunk_owed hdust hfunding he chunk))) fun e' he' => ?_
    refine always_mono (fun e'' he'' => ?_) (fun _ h => h) (ih he'.2)
    obtain ⟨data, hout, hvalue, hscripts⟩ := he'.1.data
    obtain ⟨more, hmore, hvalues, hrest⟩ := he''.data
    refine ⟨fun hnot => (he''.key hnot).trans (he'.1.key hnot), data ++ more, ?_, ?_, ?_⟩
    · rw [hmore, hout, List.append_assoc]
    · exact fun out h => (List.mem_append.mp h).elim (hvalue out) (hvalues out)
    · have hkey : ∀ c, dataScript enc plan e'.txidFirstInput c =
          dataScript enc plan e.txidFirstInput c := fun c => by
        by_cases hfamily : plan.isP2shFamily = true
        · exact dataScript_family hfamily _ _ c
        · rw [he'.1.key hfamily]
      rw [funext hkey] at hrest
      have hsplit : chunk :: rest = [chunk] ++ rest := rfl
      rw [hsplit, List.mapM_append, hscripts, hrest, List.map_append]
      rfl

/-! ## Payments -/

/-- The output that pays what was asked for. -/
def paymentOutput (enc : Encoder) (o : CustomOutput) : Option TxOut :=
  (enc.lib.toOutputScript enc.network o.address).map fun script => ⟨script, o.value⟩

theorem emitPayments_paid {feeQuoteIndex : Option ℕ} (outputs : List CustomOutput) (i : ℕ)
    (psbt : Psbt) (total : ℤ) (size : ℕ) {acc : Psbt × ℤ × ℕ}
    (h : emitPayments enc feeQuoteIndex outputs i (psbt, total, size) = .ok acc) :
    acc.1.inputs = psbt.inputs ∧ ∃ pays, acc.1.outputs = psbt.outputs ++ pays ∧
      outputs.mapM (paymentOutput enc) = some pays ∧ ∀ out ∈ pays, 0 < out.value := by
  induction outputs generalizing i psbt total size with
  | nil =>
    cases h
    exact ⟨rfl, [], (List.append_nil _).symm, rfl, by simp⟩
  | cons o rest ih =>
    obtain ⟨v, psbt', hv, -, hadd, hrest⟩ := emitPayments_cons.mp h
    obtain ⟨rfl, hpos, -⟩ := customOutputValue_eq_ok.mp hv
    obtain ⟨script, hscript, hout⟩ := Psbt.addAddressOutput_eq_ok.mp hadd
    obtain ⟨-, -, rfl⟩ := Psbt.addOutput_eq_ok.mp hout
    obtain ⟨hinputs, pays, hpays, hmap, hall⟩ := ih _ _ _ _ hrest
    refine ⟨hinputs, ⟨script, o.value⟩ :: pays, ?_, ?_, fun out ho => ?_⟩
    · rw [hpays, List.append_assoc]
      rfl
    · simp [paymentOutput, hscript, hmap]
    · rcases List.mem_cons.mp ho with rfl | ho
      · exact hpos
      · exact hall out ho

/-- What is paid, in its order: the outputs asked for, then the fee quote. -/
def requestedPayments (request : TxRequest) : List CustomOutput :=
  request.customOutputs ++ ((payableQuote request.feeQuote).map fun q => ⟨q.address, q.amount⟩).toList

theorem injectFeeQuoteOutput_outputs (request : TxRequest) :
    (injectFeeQuoteOutput request.feeQuote request.customOutputs).customOutputs =
      requestedPayments request := by
  unfold injectFeeQuoteOutput requestedPayments
  cases payableQuote request.feeQuote with
  | none => exact (List.append_nil _).symm
  | some q => rfl

/-- The plan pays what the request asks for, each output over the dust limit. -/
theorem Planned.payments (h : Planned enc request plan) :
    plan.payments.customOutputs = requestedPayments request ∧
      ∀ o ∈ request.customOutputs, enc.dustAmount ≤ o.value := by
  obtain ⟨pre, bound, hpre, hplan⟩ := h.prepared
  obtain ⟨prepared, -, heq⟩ := bind_eq_ok.mp hplan
  cases heq
  have hpayments := hpre.payments
  simp only [checkPayloadInput, bind_eq_ok] at hpayments
  obtain ⟨_, -, _, hdust, hpay⟩ := hpayments
  have hinject : pre.payments = injectFeeQuoteOutput request.feeQuote request.customOutputs :=
    (Except.ok.inj hpay).symm
  refine ⟨?_, fun o ho => ?_⟩
  · show pre.payments.customOutputs = _
    rw [hinject, injectFeeQuoteOutput_outputs]
  obtain ⟨i, hi⟩ := List.mem_iff_getElem?.mp ho
  have hone := forIndexed_eq_ok.mp hdust i o hi
  simp only [bind_eq_ok, assertPaymentOverDust, ensure_eq_ok, decide_eq_true_eq] at hone
  obtain ⟨v, hv, hfloor⟩ := hone
  obtain ⟨rfl, -, -⟩ := customOutputValue_eq_ok.mp hv
  exact hfloor

/-! ## Emission -/

/-- Data outputs, then payments; a mark is on a data output. -/
structure LaidOut (enc : Encoder) (plan : Plan) (emitted : Emitted) : Prop where
  outputs : ∃ data pays, emitted.psbt.outputs = data ++ pays ∧
    (∀ out ∈ data, DataValue plan out.value) ∧
    plan.prepared.dataBufferArray.mapM (dataScript enc plan plan.bound.txidFirstInput) =
      some (data.map TxOut.script) ∧
    (paidOutputs plan).mapM (paymentOutput enc) = some pays ∧
    Marked emitted.emission.revealPrefund data

variable (enc) in
/-- **A funding build emits its data outputs and the payments it carries, in this order.** -/
theorem returns_emitOutputs_laidOut (hdust : 0 < plan.rates.finalDust)
    (hfunding : plan.isReveal = false) :
    Returns (fun r => LaidOut enc plan r.2) (emitOutputs enc plan) := by
  refine .bind (returns_ofExcept fun _ h => h) fun price hprice => ?_
  refine .bind (always_mono (fun _ h => h) (fun _ _ => trivial)
    (always_and (returns_emitDataOutputs_lays hdust hfunding _ (owed_start hprice))
      (returns_emitDataOutputs_owed hdust hfunding _ (owed_start hprice)))) fun e he => ?_
  refine .bind (returns_ofExcept fun _ h => h) fun em hem => ?_
  simp only [emitCustomOutputs, bind_eq_ok, requirePsbt_eq_ok] at hem
  obtain ⟨psbt, hpsbt, acc, hacc, heq⟩ := hem
  cases heq
  obtain ⟨data, hout, hvalue, hscripts⟩ := he.1.data
  have hstart : (Emission.start plan price).outputs = [] := by
    simp [Emission.start, Emission.outputs, hfunding, Psbt.empty]
  rw [hstart, List.nil_append, Emission.outputs, hpsbt, Option.map_some, Option.getD_some] at hout
  obtain ⟨-, pays, hpays, hmap, -⟩ := emitPayments_paid _ _ _ _ _ hacc
  exact ⟨data, pays, hout ▸ hpays, hvalue, hscripts, hmap, hout ▸ he.2.marked psbt hpsbt⟩

/-! ## The caller's own outputs -/

/-- An output over the dust limit that pays the change address, or the caller where none is given. -/
structure OwnOutput (enc : Encoder) (request : TxRequest) (out : TxOut) : Prop where
  script : ∃ address, changeOrCaller enc request = .ok address ∧
    enc.lib.toOutputScript enc.network address = some out.script
  value : enc.dustAmount ≤ out.value

/-- At most `n` own outputs more. -/
structure AddsOwn (enc : Encoder) (request : TxRequest) (n : ℕ) (psbt psbt' : Psbt) : Prop where
  inputs : psbt'.inputs = psbt.inputs
  outputs : ∃ own, psbt'.outputs = psbt.outputs ++ own ∧ own.length ≤ n ∧
    ∀ out ∈ own, OwnOutput enc request out

theorem AddsOwn.refl (n : ℕ) (psbt : Psbt) : AddsOwn enc request n psbt psbt :=
  ⟨rfl, [], (List.append_nil _).symm, Nat.zero_le n, by simp⟩

theorem addsOwn_address {psbt psbt' : Psbt} {address : Text} {value : ℤ} {plainNumber : Bool}
    (haddress : changeOrCaller enc request = .ok address) (hvalue : enc.dustAmount ≤ value)
    (h : psbt.addAddressOutput enc.lib enc.network address value plainNumber = .ok psbt') :
    AddsOwn enc request 1 psbt psbt' := by
  obtain ⟨script, hscript, hout⟩ := Psbt.addAddressOutput_eq_ok.mp h
  obtain ⟨-, -, rfl⟩ := Psbt.addOutput_eq_ok.mp hout
  refine ⟨rfl, _, rfl, le_rfl, fun out ho => ?_⟩
  rw [List.mem_singleton.mp ho]
  exact ⟨⟨address, haddress, hscript⟩, hvalue⟩

theorem emitChange_own {change : ℤ} {psbt psbt' : Psbt}
    (h : emitChange enc plan change psbt = .ok psbt') : AddsOwn enc plan.request 1 psbt psbt' := by
  unfold emitChange at h
  cases hchange : plan.request.change with
  | none =>
    rw [hchange] at h
    cases h
    exact .refl _ _
  | some address =>
    rw [hchange] at h
    dsimp only at h
    split_ifs at h with hworth
    · exact addsOwn_address (by rw [changeOrCaller, hchange])
        (enc.dustAmount_le_outputFloor.trans hworth.2) h
    · cases h
      exact .refl _ _

theorem emitRevealPad_own {psbt psbt' : Psbt} (h : emitRevealPad enc plan psbt = .ok psbt') :
    AddsOwn enc plan.request 1 psbt psbt' := by
  unfold emitRevealPad at h
  split at h
  · split_ifs at h
    · obtain ⟨address, haddress, hpad⟩ := bind_eq_ok.mp h
      by_cases hnil : address = []
      · rw [if_pos hnil] at hpad
        cases hpad
        exact .refl _ _
      · rw [if_neg hnil] at hpad
        exact addsOwn_address haddress le_rfl hpad
    · cases h
      exact .refl _ _
  · cases h
    exact .refl _ _

theorem emitSweep_own {kept : ℤ} {psbt psbt' : Psbt}
    (h : emitSweep enc plan emitted kept psbt = .ok psbt') :
    AddsOwn enc plan.request 1 psbt psbt' := by
  unfold emitSweep at h
  dsimp only at h
  split_ifs at h with hworth
  · obtain ⟨address, haddress, hsweep⟩ := bind_eq_ok.mp h
    by_cases hnil : address = []
    · rw [if_pos hnil] at hsweep
      cases hsweep
      exact .refl _ _
    · rw [if_neg hnil] at hsweep
      exact addsOwn_address haddress (enc.dustAmount_le_outputFloor.trans hworth) hsweep
  · cases h
    exact .refl _ _

/-! ## Funding builds -/

/-- What a finished funding build pays. -/
structure PaysFunding (enc : Encoder) (request : TxRequest) (b : Built) : Prop where
  floor : ∀ o ∈ request.customOutputs, enc.dustAmount ≤ o.value
  dust : enc.outputFloor ≤ b.plan.rates.finalDust
  outputs : ∃ data pays own, b.psbt.outputs = data ++ pays ++ own ∧
    b.plan.prepared.dataBufferArray.mapM
      (dataScript enc b.plan b.plan.bound.txidFirstInput) = some (data.map TxOut.script) ∧
    (∀ out ∈ data, DataValue b.plan out.value) ∧
    (if b.plan.isP2shFamily then [] else requestedPayments request).mapM (paymentOutput enc) =
      some pays ∧
    own.length ≤ 1 ∧ ∀ out ∈ own, OwnOutput enc request out

theorem modify_append_of_lt {α : Type} {f : α → α} {l : List α} {i : ℕ} (h : i < l.length)
    (l' : List α) : (l ++ l').modify i f = l.modify i f ++ l' := by
  induction l generalizing i with
  | nil => cases h
  | cons a rest ih =>
    cases i with
    | zero => rfl
    | succ i =>
      rw [List.cons_append, List.modify_succ_cons, List.modify_succ_cons, List.cons_append,
        ih (Nat.lt_of_succ_lt_succ h)]

theorem raisedOutputs_append {prefund : Option RevealPrefund} {data : List TxOut}
    (hmarked : Marked prefund data) (pays : List TxOut) (k : ℤ) :
    raisedOutputs prefund (data ++ pays) k = raisedOutputs prefund data k ++ pays := by
  cases prefund with
  | none => rfl
  | some p =>
    obtain ⟨out, hout, -⟩ := hmarked p rfl
    exact modify_append_of_lt (List.getElem?_eq_some_iff.mp hout).1 pays

/-- A raised data output still holds what it should: it was not a nulldata output. -/
theorem dataValue_raised {prefund : Option RevealPrefund} {data : List TxOut}
    (hmarked : Marked prefund data) (hvalue : ∀ out ∈ data, DataValue plan out.value) {k : ℤ}
    (hk : 0 ≤ k) : ∀ out ∈ raisedOutputs prefund data k, DataValue plan out.value := by
  cases prefund with
  | none => exact hvalue
  | some p =>
    obtain ⟨marked, hget, hpos⟩ := hmarked p rfl
    have hmem := List.mem_of_getElem? hget
    have hcarrier : plan.prepared.encoding ≠ .opReturn := fun h => by
      have hzero := hvalue marked hmem
      rw [DataValue, if_pos h] at hzero
      omega
    intro out hout
    obtain ⟨i, hi⟩ := List.mem_iff_getElem?.mp hout
    simp only [raisedOutputs, List.getElem?_modify, Option.map_eq_map,
      Option.map_eq_some_iff] at hi
    obtain ⟨out', hget', heq⟩ := hi
    have hold := hvalue out' (List.mem_of_getElem? hget')
    rw [DataValue, if_neg hcarrier] at hold ⊢
    split_ifs at heq
    · rw [← heq]
      dsimp only
      omega
    · rw [← heq]
      exact hold

/-- What settlement adds to a selection: a raised mark, and own outputs. -/
theorem Settled.adds {b : Built} (h : Settled enc b) (hfunding : b.plan.isReveal = false)
    (hplaced : PrefundPlaced b.emitted.emission.revealPrefund b.selection.psbt.outputs) :
    ∃ k, 0 ≤ k ∧ AddsOwn enc b.plan.request 1 { b.selection.psbt with
      outputs := raisedOutputs b.emitted.emission.revealPrefund b.selection.psbt.outputs k }
        b.psbt := by
  obtain ⟨package, hup⟩ := h.uplifted
  obtain ⟨pre, hpre, hby⟩ := prefundRevealPackage_eq enc b.plan package hplaced
  have hchange := h.change
  rw [hup] at hchange
  simp only [settleChange, bind_eq_ok] at hchange
  obtain ⟨pre', hpre', change, -, psbt, hemit, _, -, heq⟩ := hchange
  have hsame : Except.ok (ε := BuildError) pre' = .ok pre := hpre'.symm.trans hpre
  cases hsame
  rw [emitChangeAndPad_funding hfunding] at hemit
  have hown := emitChange_own hemit
  rw [hby.psbt] at hown
  have hnone : b.plan.request.p2shHash = none := by simpa [Plan.isReveal] using hfunding
  have hpsbt : b.psbt = psbt := (h.swept hnone).trans (congrArg (fun r => r.2.2) (Except.ok.inj heq)).symm
  exact ⟨_, (prefundWith_bounds enc b.plan b.emitted b.selection package).1, hpsbt ▸ hown⟩

/-- A finished funding build pays its data outputs, the payments asked for and the caller's change. -/
theorem returns_paysFunding (enc : Encoder) (request : TxRequest) :
    Returns (fun b => request.p2shHash = none → PaysFunding enc request b)
      (buildSteps enc request) := by
  by_cases hfunding : request.p2shHash = none
  swap
  · exact always_mono (fun _ _ h => absurd h hfunding) (fun _ h => h) always_true
  have hreveal : ∀ {plan : Plan}, Planned enc request plan → plan.isReveal = false := fun hplan => by
    simp [Plan.isReveal, hplan.request_eq, hfunding]
  have hstages : Returns (Staged enc request
      (fun plan _ emitted => 0 < plan.rates.finalDust → LaidOut enc plan emitted)
      (fun _ emitted sel => sel.psbt.outputs = emitted.psbt.outputs)) (buildSteps enc request) := by
    refine returns_buildSteps (fun plan hplan => ?_) fun plan price emitted start hplan hE hstart => ?_
    · by_cases hdust : 0 < plan.rates.finalDust
      · exact always_mono (fun _ h _ => h) (fun _ h => h)
          (returns_emitOutputs_laidOut enc hdust (hreveal hplan))
      · exact always_mono (fun _ _ h => absurd h hdust) (fun _ h => h) always_true
    · have hsame : start.psbt.outputs = emitted.psbt.outputs := by rw [initSelection_psbt hstart]
      exact always_mono (fun _ h => h.invariant (hreveal hplan)) (fun _ h => h)
        (returns_selectFundingInputs outputs_invariant hsame)
  refine always_mono (fun b hb _ => ?_) (fun _ _ => trivial)
    (always_and hstages returns_buildSteps_dust)
  obtain ⟨hb, hdust⟩ := hb
  have hf := hreveal hb.planned
  obtain ⟨hpayments, hfloor⟩ := hb.planned.payments
  obtain ⟨data, pays, hout, hvalue, hscripts, hpays, hmarked⟩ :=
    (hb.emitted ((outputFloor_pos enc).trans_le hdust)).outputs
  have hsel : b.selection.psbt.outputs = data ++ pays := hb.selected.trans hout
  have hplaced : PrefundPlaced b.emitted.emission.revealPrefund b.selection.psbt.outputs := by
    rw [hsel]
    exact (hmarked.append pays).placed
  obtain ⟨k, hk, hadds⟩ := hb.settled.adds hf hplaced
  obtain ⟨own, hown, hlength, hall⟩ := hadds.outputs
  refine ⟨hfloor, hdust, raisedOutputs b.emitted.emission.revealPrefund data k, pays, own, ?_, ?_,
    dataValue_raised hmarked hvalue hk, ?_, hlength, fun out ho => hb.planned.request_eq ▸ hall out ho⟩
  · rw [hown, hsel]
    dsimp only
    rw [raisedOutputs_append hmarked]
  · rw [scripts_raisedOutputs, hscripts]
  · simpa only [paidOutputs, hf, Bool.not_false, Bool.true_and, hpayments] using hpays

/-! ## Every result -/

/-- The result of a build of which `P` holds, with its receipt. -/
def ResultOf (P : Built → Prop) (r : TxResult) : Prop :=
  ∃ b receipt, P b ∧ r = { b.result with reservation := receipt }

/-- **What holds of every build is behind every transaction that a call returned, in every run.** -/
theorem result_run {P : TxRequest → Built → Prop}
    (h : ∀ request, Returns (P request) (buildSteps enc request)) (clock : ℕ)
    (events : List (Event sig Command)) (p : ℕ) (call : EncoderCall)
    (hcall : (encoderRun enc clock events).cfg.calls p = some call) (r : TxResult) (t : ℕ)
    (hreturned : call.stage = .returned (.transaction r) t) :
    ∃ request, call.command = .createTransaction request ∧ ResultOf (P request) r :=
  transaction_run (R := fun request => ResultOf (P request))
    (fun request => returns_createTransaction (h request)) clock events p call hcall r t hreturned

theorem result_of_command {P : TxRequest → TxResult → Prop} {request : TxRequest} {call : EncoderCall}
    {r : TxResult} (hcommand : call.command = .createTransaction request)
    (h : ∃ request, call.command = .createTransaction request ∧ P request r) : P request r := by
  obtain ⟨request', hcommand', h⟩ := h
  rw [hcommand] at hcommand'
  rwa [Command.createTransaction.inj hcommand']

/-- **A funding transaction pays its data outputs, the payments asked for to the unit, and the
caller's change: nothing else and nobody else.** A script-hash commit leaves the payments to its
reveal. -/
theorem funding_pays (enc : Encoder) (clock : ℕ) (events : List (Event sig Command)) (p : ℕ)
    (call : EncoderCall) (hcall : (encoderRun enc clock events).cfg.calls p = some call)
    (r : TxResult) (t : ℕ) (hreturned : call.stage = .returned (.transaction r) t) :
    ∃ request, call.command = .createTransaction request ∧
      ResultOf (fun b => request.p2shHash = none → PaysFunding enc request b) r :=
  result_run (returns_paysFunding enc) clock events p call hcall r t hreturned

theorem taprootRun_command : ∃ call r t, taprootRun.cfg.calls 0 = some call ∧
    call.stage = .returned (.transaction r) t ∧ call.command = .createTransaction taprootIssue := by
  obtain ⟨call, r, t, hcall, hreturned, -⟩ := taprootRun_returned
  have hcommand : (taprootRun.cfg.calls 0).any (fun call =>
      call.command = .createTransaction taprootIssue) = true := by
    decide +kernel
  rw [hcall, Option.any_some, decide_eq_true_eq] at hcommand
  exact ⟨call, r, t, hcall, hreturned, hcommand⟩

/-- The envelope commit of `ISSUE`, with a payment beside it. -/
theorem funding_pays_issue : ∃ call r, taprootRun.cfg.calls 0 = some call ∧
    returnedTransaction call = some r ∧
      ResultOf (PaysFunding (sampleEncoder ⟨.btc, .regtest⟩) taprootIssue) r := by
  obtain ⟨call, r, t, hcall, hreturned, hcommand⟩ := taprootRun_command
  obtain ⟨b, receipt, hpays, heq⟩ := result_of_command hcommand
    (funding_pays (sampleEncoder ⟨.btc, .regtest⟩) 0 _ 0 call hcall r t hreturned)
  exact ⟨call, r, hcall, by rw [returnedTransaction, hreturned], b, receipt, hpays rfl, heq⟩

end XChain
