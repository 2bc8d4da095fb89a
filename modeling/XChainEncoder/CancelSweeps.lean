import XChainEncoder.CancelRuns
import XChainEncoder.RevealSizes

/-!
# Cancel sweeps

What a successful cancel pays, keeps and weighs.

* `cancelOutcome`, `buildEnvelopeCancelTransaction_eq`: a cancel claims its outpoint, asks the node
  for two rates and is a function of the replies;
* `SignsCancel`, `virtualSize_signedCancel`: the signed cancel;
* `cancelOutcome_spec`: **outputs and fee are the commit value**, and each output is over dust;
* **`cancel_sound_iff`**: floor and relay minimum are met exactly when the destination is long enough
  and, at the node's own rate, the fee passes the relay check that a caller's rate has to pass;
  `lowCancel_unsound`: a node that relays above its estimate gets a cancel it will not relay.
-/

namespace XChain

open PushScript Coroutine TxWeight

variable {enc : Encoder}

/-! ## The cancel as a function of the replies -/

/-- The rate of a cancel from the node's estimate. -/
def cancelRateFrom (enc : Encoder) (feeRatePerKb : Option ℚ) (relayFeePerKb : ℚ)
    (node : Except BuildError ℚ) : Except BuildError CancelRate :=
  match callerRate feeRatePerKb with
  | some rate => .ok ⟨(capCallerFeeRate enc (rate / 1000 / satoshiUnit) (node.toOption.map (· / 1000))
      relayFeePerKb).feePerBytes, relayFeePerKb⟩
  | none => node.map fun rate =>
      ⟨(capCallerFeeRate enc (rate / 1000) (some (rate / 1000)) relayFeePerKb).feePerBytes,
        relayFeePerKb⟩

/-- What a cancel of the record comes to. -/
def cancelOutcome (enc : Encoder) (record : CancelRecord) (destination : Text) (relayFeePerKb : ℚ)
    (node : Except BuildError ℚ) : Except BuildError CancelResult := do
  let rate ← cancelRateFrom enc record.feeRatePerKb relayFeePerKb node
  let script ← cancelCommitScript enc record
  let sweep ← sizeCancelSweep enc record destination rate
  cancelPsbt enc record script destination sweep

theorem ofExcept_bind {α β : Type} (r : Except BuildError α) (f : α → Except BuildError β) :
    (Coro.ofExcept (σ := sig) (r >>= f)) =
      (Coro.ofExcept (σ := sig) r).bind fun a => Coro.ofExcept (σ := sig) (f a) := by
  cases r <;> rfl

theorem cancelFeeRate_eq (feeRatePerKb : Option ℚ) : cancelFeeRate enc feeRatePerKb =
    (Coro.request (σ := sig) .networkInfo).bind fun info =>
      (Coro.ofExcept (σ := sig) (relayRateFrom info)).bind fun relayFeePerKb =>
        (Coro.attempt (σ := sig) .feePerKilobyte).bind fun node =>
          Coro.ofExcept (σ := sig) (cancelRateFrom enc feeRatePerKb relayFeePerKb node) := by
  show (resolveRelayFeeRate.bind fun relayFeePerKb => _) = _
  rw [resolveRelayFeeRate_eq, Coro.bind_bind]
  refine congrArg (Coro.bind _) (funext fun info => congrArg (Coro.bind _) (funext fun relay => ?_))
  unfold cancelRateFrom
  cases callerRate feeRatePerKb with
  | some rate => exact congrArg (Coro.await (σ := sig) Rpc.feePerKilobyte) (funext fun node => rfl)
  | none =>
    refine congrArg (Coro.await (σ := sig) Rpc.feePerKilobyte) (funext fun node => ?_)
    cases node <;> rfl

/-- **A cancel is a function of the node's two replies.** -/
theorem buildEnvelopeCancelTransaction_eq (request : CancelRequest) :
    buildEnvelopeCancelTransaction enc request =
      (Coro.ofExcept (σ := sig) (readCancelRecord enc request)).bind fun record =>
        (claimCommitOutpoint record.outpoint).bind fun _ =>
          (Coro.request (σ := sig) .networkInfo).bind fun info =>
            (Coro.ofExcept (σ := sig) (relayRateFrom info)).bind fun relayFeePerKb =>
              (Coro.attempt (σ := sig) .feePerKilobyte).bind fun node => Coro.ofExcept (σ := sig)
                (cancelOutcome enc record request.destination relayFeePerKb node) := by
  show (Coro.ofExcept (σ := sig) (readCancelRecord enc request)).bind (fun record =>
    (claimCommitOutpoint record.outpoint).bind fun _ =>
      (cancelFeeRate enc record.feeRatePerKb).bind fun rate =>
        (Coro.ofExcept (σ := sig) (cancelCommitScript enc record)).bind fun script =>
          (Coro.ofExcept (σ := sig) (sizeCancelSweep enc record request.destination rate)).bind
            fun sweep => Coro.ofExcept (σ := sig)
              (cancelPsbt enc record script request.destination sweep)) = _
  refine congrArg (Coro.bind _) (funext fun record => congrArg (Coro.bind _) (funext fun _ => ?_))
  rw [cancelFeeRate_eq, Coro.bind_bind]
  refine congrArg (Coro.bind _) (funext fun info => ?_)
  rw [Coro.bind_bind]
  refine congrArg (Coro.bind _) (funext fun relay => ?_)
  rw [Coro.bind_bind]
  refine congrArg (Coro.bind _) (funext fun node => ?_)
  refine Eq.trans ?_ (ofExcept_bind _ _).symm
  refine congrArg (Coro.bind _) (funext fun rate => Eq.trans ?_ (ofExcept_bind _ _).symm)
  exact congrArg (Coro.bind _) (funext fun script => (ofExcept_bind _ _).symm)

/-! ## The signed cancel -/

/-- A key-path spend of the cancel's input, under any signature. -/
structure SignsCancel (psbt : Psbt) (tx : Tx) : Prop where
  ins : ∃ (i : Input) (signature : SchnorrSignature), tx.ins = [i] ∧ i.scriptSig = [] ∧
    i.witness = [signature.bytes]
  outs : tx.outs = psbt.outputs.map fun o => ⟨o.value.toNat, o.script⟩

/-- The bytes of the outputs of a cancel to a script of `n` bytes. -/
def cancelOutBytes (enc : Encoder) (n : ℕ) : ℕ :=
  (9 + n) + if (cancelSize enc (9 + n)).1 then 9 + n else 0

/-- The size of a cancel to a script of `n` bytes under the longest signature. -/
def signedCancelSize (enc : Encoder) (n : ℕ) : ℕ := 51 + cancelOutBytes enc n + 18

theorem signedCancelSize_lt (n : ℕ) : signedCancelSize enc n < (cancelSize enc (9 + n)).2 := by
  have hraise : ∀ m, m ≤ raiseToFloor enc.network m := by
    intro m
    unfold raiseToFloor
    split
    · split_ifs <;> omega
    · exact le_rfl
  have hquarter : ceilQuarter (2 + 1 + 1 + 65) = 18 := rfl
  have h := hraise (10 + 41 + (9 + n) + if (cancelSize enc (9 + n)).1 then 9 + n else 0)
  have hsize : (cancelSize enc (9 + n)).2 = raiseToFloor enc.network
      (10 + 41 + (9 + n) + if (cancelSize enc (9 + n)).1 then 9 + n else 0) + 18 + 2 := rfl
  rw [signedCancelSize, cancelOutBytes, hsize]
  omega

/-- What the library reads as an address: a script of at most forty-two bytes. -/
structure ReadsAddresses (L : Library) : Prop where
  short : ∀ network a script, L.toOutputScript network a = some script → script.length ≤ 42

/-- The outputs of a cancel. -/
def cancelOutputs (enc : Encoder) (script : Bytes) (sweep : CancelSweep) : List XChain.TxOut :=
  ⟨script, sweep.sweepValue⟩ :: if sweep.padNeeded then [⟨script, enc.dustAmount⟩] else []

/-- What a successful cancel consists of. -/
structure CancelParts (enc : Encoder) (record : CancelRecord) (destination : Text) (relay : ℚ)
    (node : Except BuildError ℚ) (result : CancelResult) (script : Bytes) (rate : CancelRate)
    (sweep : CancelSweep) : Prop where
  rate_eq : cancelRateFrom enc record.feeRatePerKb relay node = .ok rate
  paid : enc.lib.toOutputScript enc.network destination = some script
  pad : sweep.padNeeded = (cancelSize enc (9 + script.length)).1
  fee : result.fee = max (feeForVsize (cancelSize enc (9 + script.length)).2 rate.feePerBytes)
    enc.dustAmount
  checked : record.feeRatePerKb.isSome = true →
    minimumRelayFee (cancelSize enc (9 + script.length)).2 rate.relayFeePerKb ≤ result.fee
  sweep_fee : sweep.cancelFee = result.fee
  sweep_value : sweep.sweepValue =
    record.value - result.fee - (if sweep.padNeeded then enc.dustAmount else 0)
  over_dust : enc.dustAmount ≤ sweep.sweepValue
  outputs : result.psbt.outputs = cancelOutputs enc script sweep
  inputs : result.psbt.inputs.length = 1

variable {record : CancelRecord} {destination : Text} {relay : ℚ} {node : Except BuildError ℚ}
  {result : CancelResult}

/-- The estimate of an output that the library can read is its size. -/
theorem estimateOutputSize_eq {L : Library} {network : Network} {a : Text} {script : Bytes}
    (hne : a ≠ []) (hpaid : L.toOutputScript network a = some script) (hshort : script.length ≤ 42) :
    estimateOutputSizeForAddress L network (some a) = 9 + script.length := by
  have h := AddressOutput.estimate_eq ⟨a, 0, script, hne, hpaid, hshort⟩
  rwa [AddressOutput.length_serialize_out] at h

theorem cancelPsbt_eq_ok {commit : Bytes} {sweep : CancelSweep}
    (h : cancelPsbt enc record commit destination sweep = .ok result) :
    ∃ script, enc.lib.toOutputScript enc.network destination = some script ∧
      result.fee = sweep.cancelFee ∧ result.psbt.outputs = cancelOutputs enc script sweep ∧
      result.psbt.inputs.length = 1 := by
  obtain ⟨psbt, hin, h⟩ := bind_eq_ok.mp h
  obtain ⟨psbt', hout, h⟩ := bind_eq_ok.mp h
  obtain ⟨-, -, rfl⟩ := Psbt.addInput_eq_ok.mp hin
  obtain ⟨script, hscript, hout⟩ := Psbt.addAddressOutput_eq_ok.mp hout
  obtain ⟨-, -, rfl⟩ := Psbt.addOutput_eq_ok.mp hout
  refine ⟨script, hscript, ?_⟩
  by_cases hpad : sweep.padNeeded = true
  · rw [if_pos hpad] at h
    obtain ⟨psbt'', hout', h⟩ := bind_eq_ok.mp h
    obtain ⟨script', hscript', hout'⟩ := Psbt.addAddressOutput_eq_ok.mp hout'
    cases hscript.symm.trans hscript'
    obtain ⟨-, -, rfl⟩ := Psbt.addOutput_eq_ok.mp hout'
    cases h
    refine ⟨rfl, ?_, rfl⟩
    rw [cancelOutputs, if_pos hpad]
    rfl
  · rw [if_neg hpad] at h
    cases h
    refine ⟨rfl, ?_, rfl⟩
    rw [cancelOutputs, if_neg hpad]
    rfl

/-- **What a successful cancel consists of.** -/
theorem cancelOutcome_parts (hreads : ReadsAddresses enc.lib) (hne : destination ≠ [])
    (h : cancelOutcome enc record destination relay node = .ok result) :
    ∃ script rate sweep,
      CancelParts enc record destination relay node result script rate sweep := by
  obtain ⟨rate, hrate, h⟩ := bind_eq_ok.mp h
  obtain ⟨commit, -, h⟩ := bind_eq_ok.mp h
  obtain ⟨sweep, hsweep, h⟩ := bind_eq_ok.mp h
  obtain ⟨script, hscript, hfee, houts, hins⟩ := cancelPsbt_eq_ok h
  have hsize := estimateOutputSize_eq hne hscript (hreads.short _ _ _ hscript)
  unfold sizeCancelSweep at hsweep
  rw [hsize] at hsweep
  obtain ⟨_, hmin, hsweep⟩ := bind_eq_ok.mp hsweep
  obtain ⟨_, hdust, hsweep⟩ := bind_eq_ok.mp hsweep
  rw [ensure_eq_ok] at hmin hdust
  cases hsweep
  refine ⟨script, rate, _, hrate, hscript, rfl, hfee, fun hcaller => ?_, hfee.symm, ?_,
    of_decide_eq_true hdust, houts, hins⟩
  · obtain ⟨caller, hcaller⟩ := Option.isSome_iff_exists.mp hcaller
    rw [hcaller, Option.isNone_some, Bool.false_or] at hmin
    have hmin' : minimumRelayFee (cancelSize enc (9 + script.length)).2 rate.relayFeePerKb ≤
        feeForVsize (cancelSize enc (9 + script.length)).2 rate.feePerBytes := of_decide_eq_true hmin
    rw [hfee]
    exact hmin'.trans (le_max_left _ _)
  · rw [hfee]

theorem CancelParts.length_outputs {script : Bytes} {rate : CancelRate} {sweep : CancelSweep}
    (h : CancelParts enc record destination relay node result script rate sweep)
    (hshort : script.length ≤ 42) :
    (result.psbt.outputs.map fun o => 8 + compactSizeLen o.script.length + o.script.length).sum =
        cancelOutBytes enc script.length ∧ result.psbt.outputs.length ≤ 2 := by
  have hone : compactSizeLen script.length = 1 := by
    rw [compactSizeLen, if_pos (by omega)]
  rw [h.outputs, cancelOutputs, cancelOutBytes, h.pad]
  split_ifs with hpad
  · simp only [List.map_cons, List.map_nil, List.sum_cons, List.sum_nil, hone, List.length_cons,
      List.length_nil]
    omega
  · simp only [List.map_cons, List.map_nil, List.sum_cons, List.sum_nil, hone, List.length_cons,
      List.length_nil]
    exact ⟨trivial, by omega⟩

theorem length_compactSize_eq (n : ℕ) : (compactSize n).length = compactSizeLen n :=
  length_compactSize n

/-- **The signed cancel** weighs its stripped bytes and seventeen or eighteen for the signature. -/
theorem virtualSize_signedCancel {script : Bytes} {rate : CancelRate} {sweep : CancelSweep}
    (h : CancelParts enc record destination relay node result script rate sweep)
    (hshort : script.length ≤ 42) {tx : Tx} {i : Input} {signature : SchnorrSignature}
    (hins : tx.ins = [i]) (hscriptSig : i.scriptSig = []) (hwitness : i.witness = [signature.bytes])
    (houts : tx.outs = result.psbt.outputs.map fun o => ⟨o.value.toNat, o.script⟩) :
    tx.virtualSize =
      51 + cancelOutBytes enc script.length + (4 + signature.bytes.length + 3) / 4 := by
  obtain ⟨hbytes, hcount⟩ := h.length_outputs hshort
  have hsig : signature.bytes.length < 253 := by
    rcases signature.bytes_length with hl | hl <;> omega
  have hbase : i.base.length = 41 := by
    rw [length_base, hscriptSig]
    rfl
  have hstack : tx.witnessBytes = 4 + signature.bytes.length := by
    have hw : tx.hasWitness = true := by simp [Tx.hasWitness, hins, hwitness]
    rw [Tx.witnessBytes, if_pos hw, hins]
    simp only [List.map_cons, List.map_nil, List.sum_cons, List.sum_nil, length_stack, hwitness]
    rw [length_compactSize_of_lt hsig, show (compactSize [signature.bytes].length).length = 1 from rfl]
    omega
  have hsum : (tx.outs.map fun o => o.serialize.length).sum = cancelOutBytes enc script.length := by
    rw [houts, List.map_map, ← hbytes]
    refine congrArg List.sum (List.map_congr_left fun o _ => ?_)
    show (Output.serialize ⟨o.value.toNat, o.script⟩).length = _
    rw [length_serialize, length_compactSize_eq]
    exact (Nat.add_assoc ..).symm
  have hlen : tx.outs.length < 253 := by
    rw [houts, List.length_map]
    omega
  rw [virtualSize_eq, length_txBase, hsum, hstack, hins, length_compactSize_of_lt hlen]
  simp only [List.map_cons, List.map_nil, List.sum_cons, List.sum_nil, hbase, List.length_cons,
    List.length_nil]
  rw [show (compactSize (0 + 1)).length = 1 from rfl]
  omega

/-! ## What holds of every cancel -/

/-- **Outputs and fee are the commit value, and each output is over dust.** -/
theorem cancelOutcome_spec {script : Bytes} {rate : CancelRate} {sweep : CancelSweep}
    (h : CancelParts enc record destination relay node result script rate sweep) :
    result.psbt.outputTotal + result.fee = record.value ∧
      ∀ o ∈ result.psbt.outputs, enc.dustAmount ≤ o.value := by
  have hvalue := h.sweep_value
  constructor
  · rw [Psbt.outputTotal, h.outputs, cancelOutputs, hvalue]
    split_ifs
    · simp only [List.map_cons, List.map_nil, List.sum_cons, List.sum_nil]
      omega
    · simp only [List.map_cons, List.map_nil, List.sum_cons, List.sum_nil]
      omega
  · intro o ho
    rw [h.outputs, cancelOutputs] at ho
    split_ifs at ho
    · rcases List.mem_cons.mp ho with rfl | ho
      · exact h.over_dust
      · rw [List.mem_singleton.mp ho]
    · rw [List.mem_singleton.mp ho]
      exact h.over_dust

theorem minimumRelayFee_mono {m n : ℕ} (hmn : m ≤ n) {relay : ℚ} (hrelay : 0 < relay) :
    minimumRelayFee m relay ≤ minimumRelayFee n relay := by
  have hunit : (0 : ℚ) < satoshiUnit := by decide
  have hround : (0 : ℤ) ≤ round (relay * satoshiUnit) := by
    refine Int.floor_nonneg.mpr ?_
    positivity
  have hcast : (m : ℚ) ≤ n := by exact_mod_cast hmn
  have hround' : (0 : ℚ) ≤ round (relay * satoshiUnit) := by exact_mod_cast hround
  exact Int.ceil_le_ceil (div_le_div_of_nonneg_right (mul_le_mul_of_nonneg_right hcast hround')
    (by norm_num))

/-- The cancel is as sound as a transaction of `createTransaction`. -/
structure CancelSound (enc : Encoder) (record : CancelRecord) (relay : ℚ) (result : CancelResult) :
    Prop where
  balanced : result.psbt.outputTotal + result.fee = record.value
  dust : ∀ o ∈ result.psbt.outputs, enc.dustAmount ≤ o.value
  floor : coreStrippedFloor enc.network ≤ strippedTxSize result.psbt
  relays : ∀ tx, SignsCancel result.psbt tx → minimumRelayFee tx.virtualSize relay ≤ result.fee

/-- The node's own rate passes the relay check that a caller's rate has to pass, at the size of the
signed cancel. -/
def NodeRateRelays (enc : Encoder) (n : ℕ) (relay : ℚ) (node : Except BuildError ℚ) : Prop :=
  ∀ rate, node = .ok rate → minimumRelayFee (signedCancelSize enc n) relay ≤
    max (feeForVsize (cancelSize enc (9 + n)).2
      (capCallerFeeRate enc (rate / 1000) (some (rate / 1000)) relay).feePerBytes) enc.dustAmount

theorem CancelParts.floor_iff {script : Bytes} {rate : CancelRate} {sweep : CancelSweep}
    (h : CancelParts enc record destination relay node result script rate sweep)
    (hshort : script.length ≤ 42) : coreStrippedFloor enc.network ≤ strippedTxSize result.psbt ↔
      (enc.network.coin = .ltc → 7 ≤ script.length) := by
  obtain ⟨hbytes, hcount⟩ := h.length_outputs hshort
  have hstripped : strippedTxSize result.psbt = 51 + cancelOutBytes enc script.length := by
    have hone : compactSizeLen result.psbt.outputs.length = 1 := by
      rw [compactSizeLen, if_pos (by omega)]
    rw [strippedTxSize, hbytes, h.inputs, hone]
    have : compactSizeLen 1 = 1 := rfl
    omega
  rw [hstripped, cancelOutBytes]
  unfold coreStrippedFloor cancelSize Network.minStandardTxNonWitnessSize
  cases hcoin : enc.network.coin with
  | btc =>
    simp only [decide_eq_true_eq, reduceCtorEq, false_implies, iff_true]
    split_ifs <;> omega
  | ltc =>
    simp only [decide_eq_true_eq, true_implies]
    split_ifs <;> omega
  | doge => simp

theorem cancelRateFrom_eq_ok {feeRatePerKb : Option ℚ} {rate : CancelRate}
    (h : cancelRateFrom enc feeRatePerKb relay node = .ok rate) : rate.relayFeePerKb = relay ∧
      (feeRatePerKb = none → ∃ r, node = .ok r ∧ rate.feePerBytes =
        (capCallerFeeRate enc (r / 1000) (some (r / 1000)) relay).feePerBytes) := by
  unfold cancelRateFrom at h
  cases hcaller : callerRate feeRatePerKb with
  | some caller =>
    rw [hcaller] at h
    cases h
    refine ⟨rfl, fun hnone => ?_⟩
    rw [hnone] at hcaller
    cases hcaller
  | none =>
    rw [hcaller] at h
    cases node with
    | error e => cases h
    | ok r =>
      cases h
      exact ⟨rfl, fun _ => ⟨r, rfl, rfl⟩⟩

theorem CancelParts.relays_iff {script : Bytes} {rate : CancelRate} {sweep : CancelSweep}
    (h : CancelParts enc record destination relay node result script rate sweep)
    (hshort : script.length ≤ 42) (hrelay : 0 < relay) :
    (∀ tx, SignsCancel result.psbt tx → minimumRelayFee tx.virtualSize relay ≤ result.fee) ↔
      record.feeRatePerKb.isSome = true ∨ NodeRateRelays enc script.length relay node := by
  obtain ⟨hrelayRate, hnode⟩ := cancelRateFrom_eq_ok h.rate_eq
  constructor
  · intro hall
    cases hcaller : record.feeRatePerKb with
    | some caller => exact .inl rfl
    | none =>
      refine .inr fun r hr => ?_
      obtain ⟨r', hr', hrate⟩ := hnode hcaller
      cases hr.symm.trans hr'
      rw [← hrate, ← h.fee]
      -- The longest signature is the one to look at.
      let signature : SchnorrSignature := ⟨List.replicate 65 0x00, .inr (by simp)⟩
      let i : Input := ⟨List.replicate 32 0x00, by simp, 0, [], 0, [signature.bytes]⟩
      let tx : Tx := ⟨2, [i], result.psbt.outputs.map fun o => ⟨o.value.toNat, o.script⟩, 0⟩
      have hsigns : SignsCancel result.psbt tx := ⟨⟨i, signature, rfl, rfl, rfl⟩, rfl⟩
      have hsize : tx.virtualSize = 51 + cancelOutBytes enc script.length + (4 + 65 + 3) / 4 :=
        virtualSize_signedCancel h hshort (i := i) rfl rfl rfl hsigns.outs
      rw [signedCancelSize, show 18 = (4 + 65 + 3) / 4 from rfl, ← hsize]
      exact hall tx hsigns
  · rintro hsource tx ⟨⟨i, signature, hins, hscriptSig, hwitness⟩, houts⟩
    have hsize := virtualSize_signedCancel h hshort hins hscriptSig hwitness houts
    have hle : tx.virtualSize ≤ signedCancelSize enc script.length := by
      rw [hsize, signedCancelSize]
      rcases signature.bytes_length with hl | hl <;> omega
    refine (minimumRelayFee_mono hle hrelay).trans ?_
    rcases hsource with hcaller | hrelays
    · have hchecked := h.checked hcaller
      rw [hrelayRate] at hchecked
      exact (minimumRelayFee_mono (signedCancelSize_lt _).le hrelay).trans hchecked
    · cases hcaller : record.feeRatePerKb with
      | some caller =>
        have hchecked := h.checked (by rw [hcaller]; rfl)
        rw [hrelayRate] at hchecked
        exact (minimumRelayFee_mono (signedCancelSize_lt _).le hrelay).trans hchecked
      | none =>
        obtain ⟨r, hr, hrate⟩ := hnode hcaller
        rw [h.fee, hrate]
        exact hrelays r hr

theorem readCancelRecord_destination {request : CancelRequest}
    (h : readCancelRecord enc request = .ok record) : request.destination ≠ [] := by
  obtain ⟨_, -, h⟩ := bind_eq_ok.mp h
  obtain ⟨_, -, h⟩ := bind_eq_ok.mp h
  obtain ⟨value, -, h⟩ := bind_eq_ok.mp h
  cases hkey : xOnlyKey request.internalPubkey with
  | none =>
    rw [hkey] at h
    cases h
  | some key =>
    rw [hkey] at h
    obtain ⟨_, -, h⟩ := bind_eq_ok.mp h
    obtain ⟨_, -, h⟩ := bind_eq_ok.mp h
    obtain ⟨_, haddress, -⟩ := bind_eq_ok.mp h
    obtain ⟨_, hvalid, -⟩ := bind_eq_ok.mp haddress
    obtain ⟨_, hlength, -⟩ := bind_eq_ok.mp hvalid
    rw [ensure_eq_ok, decide_eq_true_eq] at hlength
    exact fun hnil => hlength (by rw [hnil]; rfl)

/-- **When a cancel is sound.** It is what the node's two replies make of the record; its outputs and
its fee are the commit value and its outputs are over dust; and it meets the stripped floor and the
relay minimum exactly when a Litecoin destination has at least seven bytes and, without a caller's
rate, the node's rate passes the relay check. -/
theorem cancel_sound_iff (enc : Encoder) (hreads : ReadsAddresses enc.lib) (request : CancelRequest)
    (record : CancelRecord) (relay : ℚ) (node : Except BuildError ℚ) (result : CancelResult)
    (script : Bytes) (hrecord : readCancelRecord enc request = .ok record)
    (hinfo : relayRateFrom (some relay) = .ok relay)
    (hresult : cancelOutcome enc record request.destination relay node = .ok result)
    (hscript : enc.lib.toOutputScript enc.network request.destination = some script) :
    buildEnvelopeCancelTransaction enc request =
      (Coro.ofExcept (σ := sig) (readCancelRecord enc request)).bind (fun record =>
        (claimCommitOutpoint record.outpoint).bind fun _ =>
          (Coro.request (σ := sig) .networkInfo).bind fun info =>
            (Coro.ofExcept (σ := sig) (relayRateFrom info)).bind fun relayFeePerKb =>
              (Coro.attempt (σ := sig) .feePerKilobyte).bind fun node => Coro.ofExcept (σ := sig)
                (cancelOutcome enc record request.destination relayFeePerKb node)) ∧
    (CancelSound enc record relay result ↔ (enc.network.coin = .ltc → 7 ≤ script.length) ∧
      (record.feeRatePerKb.isSome = true ∨ NodeRateRelays enc script.length relay node)) := by
  refine ⟨buildEnvelopeCancelTransaction_eq request, ?_⟩
  obtain ⟨script', rate, sweep, h⟩ :=
    cancelOutcome_parts hreads (readCancelRecord_destination hrecord) hresult
  cases hscript.symm.trans h.paid
  have hshort := hreads.short _ _ _ hscript
  have hrelay : 0 < relay := by
    unfold relayRateFrom at hinfo
    dsimp only at hinfo
    split_ifs at hinfo with hpos
    exact hpos
  obtain ⟨hbalanced, hdust⟩ := cancelOutcome_spec h
  rw [← h.floor_iff hshort, ← h.relays_iff hshort hrelay]
  exact ⟨fun hs => ⟨hs.floor, hs.relays⟩, fun hc => ⟨hbalanced, hdust, hc.1, hc.2⟩⟩

/-! ## Two cancels -/

theorem sampleLibrary_reads : ReadsAddresses sampleLibrary := by
  refine ⟨fun network a script h => ?_⟩
  rw [show sampleLibrary.toOutputScript network a = if a = sampleAddress network then
    some (compile [.op 0x00, .push sampleHash]) else none from rfl] at h
  split_ifs at h
  cases h
  decide

/-- The record of `sampleCancel`. -/
def sampleRecord : CancelRecord where
  outpoint := sampleCommit
  value := 100000
  internalKey := sampleKey.drop 1
  feeRatePerKb := none
  rbfArmed := false
  tapleafHash := hexBytes sampleTxid

/-- The script `sampleCancel` pays to. -/
def sampleDestination : Bytes := compile [.op 0x00, .push sampleHash]

/-- What `sampleCancel` comes to when the node relays at `relay` and estimates one base unit per
byte. -/
def sampleOutcome (relay : ℚ) : Except BuildError CancelResult :=
  cancelOutcome (sampleEncoder ⟨.btc, .mainnet⟩) sampleRecord sampleCancel.destination relay
    (.ok (1 / 100000))

theorem sampleCancel_read : readCancelRecord (sampleEncoder ⟨.btc, .mainnet⟩) sampleCancel =
    .ok sampleRecord := by
  decide +kernel

theorem cancel_sound_iff_sample : ∃ result, sampleOutcome (1 / 100000) = .ok result ∧
    CancelSound (sampleEncoder ⟨.btc, .mainnet⟩) sampleRecord (1 / 100000) result := by
  have hfacts : (sampleOutcome (1 / 100000)).toOption.isSome = true ∧
      minimumRelayFee (signedCancelSize (sampleEncoder ⟨.btc, .mainnet⟩) sampleDestination.length)
        (1 / 100000) ≤ 546 := by
    decide +kernel
  obtain ⟨hok, hmin⟩ := hfacts
  cases hresult : sampleOutcome (1 / 100000) with
  | error e =>
    rw [hresult] at hok
    cases hok
  | ok result =>
    refine ⟨result, rfl, (cancel_sound_iff (sampleEncoder ⟨.btc, .mainnet⟩) sampleLibrary_reads
      sampleCancel sampleRecord (1 / 100000) (.ok (1 / 100000)) result sampleDestination
      sampleCancel_read (by decide +kernel) hresult (by decide +kernel)).2.mpr ⟨?_, .inr ?_⟩⟩
    · rintro ⟨⟩
    · intro rate _
      exact hmin.trans (le_max_right _ _)

/-- A node that relays at ten base units per byte and estimates one. -/
def lowReply : (q : Rpc) → Except {e : BuildError // sig.Rejects e} (Rpc.Reply q)
  | .networkInfo => .ok (some (1 / 10000 : ℚ))
  | q => sampleReply q

/-- `sampleCancel` at such a node. -/
def lowCancel : List (Event sig Command) :=
  .start (.createEnvelopeCancelTransaction sampleCancel) [] :: List.replicate 3 (.resume 0 lowReply [])

/-- The fee of the cancel a call returned. -/
def cancelFeeOf (call : EncoderCall) : Option ℤ :=
  match call.stage with
  | .returned (.cancel result) _ => some result.fee
  | _ => none

/-- **A node that relays above its estimate gets a cancel it will not relay.** -/
theorem lowCancel_unsound : ∃ result,
    (∃ call ∈ (encoderRun (sampleEncoder ⟨.btc, .mainnet⟩) 0 lowCancel).cfg.calls 0,
      cancelFeeOf call = some result.fee) ∧
    readCancelRecord (sampleEncoder ⟨.btc, .mainnet⟩) sampleCancel = .ok sampleRecord ∧
    sampleOutcome (1 / 10000) = .ok result ∧ result.fee = 546 ∧
    ¬ CancelSound (sampleEncoder ⟨.btc, .mainnet⟩) sampleRecord (1 / 10000) result := by
  have hfacts : (∃ call ∈ (encoderRun (sampleEncoder ⟨.btc, .mainnet⟩) 0 lowCancel).cfg.calls 0,
        cancelFeeOf call = some 546) ∧
      (sampleOutcome (1 / 10000)).toOption.map (fun r => r.fee) = some 546 ∧
      546 < minimumRelayFee (signedCancelSize (sampleEncoder ⟨.btc, .mainnet⟩)
        sampleDestination.length) (1 / 10000) ∧
      feeForVsize (cancelSize (sampleEncoder ⟨.btc, .mainnet⟩) (9 + sampleDestination.length)).2
        (capCallerFeeRate (sampleEncoder ⟨.btc, .mainnet⟩) (1 / 100000 / 1000)
          (some (1 / 100000 / 1000)) (1 / 10000)).feePerBytes ≤ 546 := by
    decide +kernel
  obtain ⟨hcall, hfee, hminimum, hcharged⟩ := hfacts
  cases hresult : sampleOutcome (1 / 10000) with
  | error e =>
    rw [hresult] at hfee
    cases hfee
  | ok result =>
    rw [hresult] at hfee
    have hfee : result.fee = 546 := Option.some.inj hfee
    refine ⟨result, by rwa [hfee], sampleCancel_read, rfl, hfee, fun hsound => ?_⟩
    obtain ⟨script, rate, sweep, hparts⟩ := cancelOutcome_parts sampleLibrary_reads (by decide) hresult
    have hshort := sampleLibrary_reads.short _ _ _ hparts.paid
    rcases (hparts.relays_iff hshort (by norm_num)).mp hsound.relays with hcaller | hrelays
    · cases hcaller
    · have hscript : script = sampleDestination :=
        Option.some.inj (hparts.paid.symm.trans (by decide +kernel))
      have hle := hrelays _ rfl
      rw [hscript] at hle
      have hdust : (sampleEncoder ⟨.btc, .mainnet⟩).dustAmount ≤ 546 := by decide
      exact absurd (hle.trans (max_le hcharged hdust)) (not_le.mpr hminimum)

end XChain
