import XChainEncoder.EncoderRuns
import XChainEncoder.Lib.SoloRuns

/-!
# The stages of a finished build

What a build that finished has gone through, as equations between its stages.

* `InputFor`, `Adds`: the input of a candidate, and the selection it is added to;
* `returns_selectLoop`: **what every added input keeps, selection keeps**;
* `Settled`: the equations from the selection to the transaction and its reveal;
* `Planned`, `Staged`, `returns_buildSteps`: the whole build;
* `returns_createTransaction`, `transaction_run`: what every build returns, every call returned.
-/

namespace XChain

open PushScript Coroutine

variable {enc : Encoder} {plan : Plan} {emitted : Emitted}

/-! ## Selection -/

/-- The redeem script a candidate needs beside its witness. -/
def nestedRedeem (enc : Encoder) (plan : Plan) (u : Utxo) : Option Bytes :=
  nestedP2wpkhRedeem enc.lib enc.network plan.request.pubkey plan.request.compressedPubKey u

/-- The input of a candidate: with its output when it has a witness, else with the checked previous
transaction. -/
structure InputFor (enc : Encoder) (plan : Plan) (u : Utxo) (input : PsbtInput) : Prop where
  hash : input.hash = u.txid
  index : input.index = u.vout
  sequence : input.sequence = plan.utxoSequence
  witness : ((nestedRedeem enc plan u).isSome || isSegwitUTXO u) = true →
    input.witnessUtxo = some ⟨u.scriptPubKey, u.value⟩ ∧ input.redeemScript = nestedRedeem enc plan u
  legacy : ((nestedRedeem enc plan u).isSome || isSegwitUTXO u) = false →
    input.witnessUtxo = none ∧ input.redeemScript = matchingLegacyRedeemScript enc.lib u ∧
    ∃ tx out, input.nonWitnessUtxo = some tx ∧ tx.outs[u.vout]? = some out ∧ out.value = u.value

theorem assertPrevOutValueMatches_eq_ok {hex : Text} {u : Utxo} {fetched : Bool} {tx : ParsedTx}
    (h : assertPrevOutValueMatches enc hex u fetched = .ok tx) :
    ∃ out, tx.outs[u.vout]? = some out ∧ out.value = u.value := by
  unfold assertPrevOutValueMatches at h
  dsimp only at h
  split at h
  · cases h
  · split at h
    · cases h
    · rename_i out hout
      split_ifs at h with hvalue
      cases h
      exact ⟨out, hout, hvalue⟩

theorem returns_inputFor (u : Utxo) :
    Returns (InputFor enc plan u) (selectedInput enc plan u (nestedRedeem enc plan u)) := by
  have hprev : Returns (fun tx => ∃ out, tx.outs[u.vout]? = some out ∧ out.value = u.value)
      (checkedPrevTx enc plan u) :=
    .bind_right fun _ => returns_ofExcept fun _ h => assertPrevOutValueMatches_eq_ok h
  unfold selectedInput
  dsimp only
  split_ifs with hwitness hattach
  · refine .bind_right fun tx => ⟨rfl, rfl, rfl, fun _ => ⟨rfl, rfl⟩, fun h => ?_⟩
    cases hwitness.symm.trans h
  · refine ⟨rfl, rfl, rfl, fun _ => ⟨rfl, rfl⟩, fun h => ?_⟩
    cases hwitness.symm.trans h
  · refine .bind hprev fun tx hout => ⟨rfl, rfl, rfl, fun h => absurd h hwitness, fun _ => ?_⟩
    obtain ⟨out, hout, hvalue⟩ := hout
    exact ⟨rfl, rfl, tx, out, rfl, hout, hvalue⟩

/-- One candidate more: what selection checked of it, and the input it added. -/
structure Adds (enc : Encoder) (plan : Plan) (emitted : Emitted) (u : Utxo)
    (acc acc' : Selection) : Prop where
  signable : refuseUnsignableInput enc plan.prepared.encoding u = .ok ()
  value : 0 ≤ u.value ∧ u.value ≤ maxSatoshiU64
  input : ∃ input, InputFor enc plan u input ∧
    acc.add enc plan emitted u input (nestedRedeem enc plan u).isSome = .ok acc'

/-- What skipping and adding keep. -/
structure SelectionInvariant (enc : Encoder) (plan : Plan) (emitted : Emitted)
    (I : Selection → Prop) : Prop where
  skip : ∀ acc, I acc → I { acc with reservedCandidates := acc.reservedCandidates + 1 }
  add : ∀ u acc acc', u ∈ plan.bound.utxos → I acc → Adds enc plan emitted u acc acc' → I acc'

section Rules

variable {I : Selection → Prop} {acc : Selection} {now : ℕ}

theorem returns_selectStep (hI : SelectionInvariant enc plan emitted I) {index : ℕ} {u : Utxo}
    (hu : u ∈ plan.bound.utxos) (rest : List Utxo) (h : I acc) :
    Returns (fun r => I r.2) (selectStep enc plan emitted now index u rest acc) := by
  rw [selectStep_eq]
  refine .bind_right fun _ => .bind (returns_ofExcept fun _ h => h) fun _ hsign => ?_
  intro s l
  show Returns _ (if _ then _ else _)
  split_ifs
  · exact hI.skip acc h
  · refine .bind (returns_ofExcept fun _ h => h) fun v hv => ?_
    refine .bind (returns_inputFor u) fun input hinput => ?_
    refine .bind (returns_ofExcept fun acc' hacc => ?_) fun acc' hacc => hacc
    obtain ⟨rfl, h0, -, hmax⟩ := parseSatoshiAmount_eq_ok.mp hv
    exact hI.add u acc acc' hu h ⟨hsign, ⟨h0, hmax⟩, input, hinput, hacc⟩

/-- **What every added input keeps, selection keeps.** -/
theorem returns_selectLoop (hI : SelectionInvariant enc plan emitted I) (us : List Utxo) (index : ℕ)
    (hus : ∀ u ∈ us, u ∈ plan.bound.utxos) (h : I acc) :
    Returns I (selectLoop enc plan emitted now index us acc) := by
  induction us generalizing index acc with
  | nil => exact h
  | cons u rest ih =>
    refine .bind (returns_selectStep hI (hus u List.mem_cons_self) rest h) fun r hr => ?_
    obtain ⟨done, acc'⟩ := r
    cases done with
    | true => exact hr
    | false => exact ih (index + 1) (fun v hv => hus v (List.mem_cons_of_mem u hv)) hr

/-- What a selection of a funding build has passed; a reveal selects nothing. -/
structure Chosen (plan : Plan) (emitted : Emitted) (I : Selection → Prop) (start sel : Selection) :
    Prop where
  reveal : plan.isReveal = true → sel = start
  invariant : plan.isReveal = false → I sel
  nonempty : plan.isReveal = false → refuseEmptySelection sel = .ok ()
  race : plan.isReveal = false →
    refuseFirstInputRace plan emitted.emission.txidFirstInput sel.psbt = .ok ()

theorem returns_selectFundingInputs (hI : SelectionInvariant enc plan emitted I) {start : Selection}
    (h : I start) : Returns (Chosen plan emitted I start) (selectFundingInputs enc plan emitted start) := by
  unfold selectFundingInputs
  cases hr : plan.isReveal with
  | true =>
    have hnot : plan.isReveal ≠ false := by simp [hr]
    exact ⟨fun _ => rfl, fun h' => absurd h' hnot, fun h' => absurd h' hnot, fun h' => absurd h' hnot⟩
  | false =>
    have hselect : Returns I (selectInputs enc plan emitted start) := by
      rw [selectInputs_eq]
      exact fun t s l => returns_selectLoop hI plan.bound.utxos 0 (fun _ hu => hu) h
    refine .bind hselect fun sel hsel => ?_
    refine .bind (returns_ofExcept fun _ h => h) fun _ hempty => ?_
    refine .bind (returns_ofExcept fun _ h => h) fun _ hrace => ?_
    have hnot : plan.isReveal ≠ true := by simp [hr]
    exact ⟨fun h' => absurd h' hnot, fun _ => hsel, fun _ => hempty, fun _ => hrace⟩

end Rules

/-! ## Settlement -/

/-- The equations between the stages of a finished build. -/
structure Settled (enc : Encoder) (b : Built) : Prop where
  relay : refuseInsufficientRelayFee enc b.plan b.emitted b.selection = .ok ()
  excess : refuseExcessiveFee enc b.plan b.emitted b.selection = .ok ()
  uplifted : ∃ package, b.uplifted = upliftBy enc b.plan b.emitted b.selection package
  estimatedFee : b.estimatedFee = floorEstimatedFee enc b.emitted b.uplifted.estimatedFee
  change : settleChange enc b.plan b.emitted b.selection b.uplifted =
    .ok (b.prefunded, b.changeSatoshis, b.psbtWithChange)
  swept : b.plan.request.p2shHash = none → b.psbt = b.psbtWithChange
  envelope : buildEnvelopeReveal enc b.plan b.psbt b.prefunded.envelopeContext = .ok b.envelope

theorem returns_upliftForAncestors {sel : Selection} :
    Returns (fun up => ∃ package, up = upliftBy enc plan emitted sel package)
      (upliftForAncestors enc plan emitted sel) := by
  unfold upliftForAncestors
  split_ifs
  · exact .bind_right fun reply => ⟨_, rfl⟩
  · exact ⟨none, rfl⟩

theorem returns_settled (price : RevealOutputsPrice) (sel : Selection) :
    Returns (fun b => b.plan = plan ∧ b.price = price ∧ b.emitted = emitted ∧ b.selection = sel ∧
      Settled enc b) (settleBuild enc plan price emitted sel) := by
  refine .bind (returns_ofExcept fun _ h => h) fun _ hrelay => ?_
  refine .bind (returns_ofExcept fun _ h => h) fun _ hexcess => ?_
  refine .bind returns_upliftForAncestors fun up hup => ?_
  refine .bind (returns_ofExcept fun _ h => h) fun r hchange => ?_
  obtain ⟨prefunded, changeSatoshis, psbtWithChange⟩ := r
  have hsweep : Returns (fun psbt => plan.request.p2shHash = none → psbt = psbtWithChange)
      (sweepP2shReveal enc plan emitted (floorEstimatedFee enc emitted up.estimatedFee)
        psbtWithChange) := by
    unfold sweepP2shReveal
    cases hhash : plan.request.p2shHash with
    | none => exact fun _ => rfl
    | some p2shHash => exact always_mono (fun _ _ h => by cases h) (fun _ h => h) always_true
  refine .bind hsweep fun psbt hpsbt => ?_
  refine .bind (returns_ofExcept fun _ h => h) fun envelope henvelope => ?_
  exact ⟨rfl, rfl, rfl, rfl, hrelay, hexcess, hup, rfl, hchange, hpsbt, henvelope⟩

/-! ## The whole build -/

/-- A plan of the request, past the checks before it. -/
structure Planned (enc : Encoder) (request : TxRequest) (plan : Plan) : Prop where
  prepared : ∃ pre bound, PreparedFor enc request pre ∧ planBuild enc request pre bound = .ok plan
  envelope : plan.prepared.encoding = .taproot →
    request.p2shHash = none ∧ enc.network.supportsSegwit = true

variable {request : TxRequest}

theorem Planned.request_eq (h : Planned enc request plan) : plan.request = request := by
  obtain ⟨pre, bound, hpre, hplan⟩ := h.prepared
  exact (planBuild_eq_ok hpre hplan).1

theorem returns_checkEnvelopeEncoding (encoding : Option Encoding) (isReveal : Bool) :
    Returns (fun _ => encoding = some .taproot → isReveal = false ∧ enc.network.supportsSegwit = true)
      (checkEnvelopeEncoding enc encoding isReveal) := by
  unfold checkEnvelopeEncoding
  split_ifs with h
  · refine .bind (returns_ofExcept fun _ h => ensure_eq_ok.mp h) fun _ hsegwit => ?_
    refine .bind (returns_ofExcept fun _ h => ensure_eq_ok.mp h) fun _ hreveal => ?_
    exact always_mono (fun _ _ _ => ⟨by simpa using hreveal, hsegwit⟩) (fun _ h => h) always_true
  · exact fun h' => absurd h' h

/-- An envelope is built for the encoding `TAPROOT` only, as one chunk. -/
theorem prepareData_taproot {L : Library} {data : Bytes} {encoding : Option Encoding}
    {pubKey : Text} {key : Option Bytes} {prepared : PreparedData}
    (h : prepareData L data encoding pubKey key = .ok prepared)
    (ht : prepared.encoding = .taproot) :
    encoding = some .taproot ∧ ∃ script, prepared.dataBufferArray = [script] := by
  have hencoding : encoding = some .taproot := by
    cases encoding with
    | none =>
      unfold prepareData at h
      dsimp only [Option.getD_none] at h
      split_ifs at h
      · obtain ⟨_, -, h⟩ := bind_eq_ok.mp h
        cases h
        cases ht
      · obtain ⟨_, -, h⟩ := bind_eq_ok.mp h
        cases h
        cases ht
    | some encoding =>
      cases encoding with
      | taproot => rfl
      | multisign =>
        cases h
        cases ht
      | opReturn | p2sh | p2wsh =>
        obtain ⟨_, -, h⟩ := bind_eq_ok.mp h
        cases h
        cases ht
  refine ⟨hencoding, ?_⟩
  subst hencoding
  replace h : envelopePayload L data .taproot key = .ok prepared := h
  unfold envelopePayload at h
  cases key with
  | none => cases h
  | some key =>
    obtain ⟨_, -, h⟩ := bind_eq_ok.mp h
    cases h
    exact ⟨_, rfl⟩

theorem returns_prepareBuild_envelope (request : TxRequest) :
    Returns (fun pre => pre.encoding = some .taproot →
      request.p2shHash = none ∧ enc.network.supportsSegwit = true) (prepareBuild enc request) := by
  refine .bind_right fun payments => .bind_right fun rates => .bind_right fun input => ?_
  refine .bind_right fun compiled => .bind_right fun encoding => ?_
  refine .bind (returns_checkEnvelopeEncoding encoding request.p2shHash.isSome) fun _ hcheck => ?_
  refine .bind_right fun _ => .bind_right fun gathered => .bind_right fun _ => ?_
  refine .bind_right fun candidates hencoding => ?_
  exact ⟨by simpa using (hcheck hencoding).1, (hcheck hencoding).2⟩

/-- A finished build: its plan, what was emitted and selected, and how it was settled. -/
structure Staged (enc : Encoder) (request : TxRequest)
    (E : Plan → RevealOutputsPrice → Emitted → Prop) (S : Plan → Emitted → Selection → Prop)
    (b : Built) : Prop where
  planned : Planned enc request b.plan
  emitted : E b.plan b.price b.emitted
  selected : S b.plan b.emitted b.selection
  settled : Settled enc b

theorem returns_finishBuild {P : Built → Prop} {b : Built} (h : P b) :
    Returns P (finishBuild enc b) := by
  rw [finishBuild_eq]
  intro t s l
  refine always_bind.mpr (returns_ofExcept fun txid _ => ?_)
  rcases s.refuseDuplicateBuild txid t with ⟨_ | _, s'⟩
  · trivial
  · exact h

/-- **What emission and selection guarantee, and the equations of settlement, hold of every finished
build.** -/
theorem returns_buildSteps {E : Plan → RevealOutputsPrice → Emitted → Prop}
    {S : Plan → Emitted → Selection → Prop}
    (hE : ∀ plan, Planned enc request plan → Returns (fun r => E plan r.1 r.2) (emitOutputs enc plan))
    (hS : ∀ plan price emitted start, Planned enc request plan → E plan price emitted →
      initSelection request.fee emitted = .ok start →
      Returns (S plan emitted) (selectFundingInputs enc plan emitted start)) :
    Returns (Staged enc request E S) (buildSteps enc request) := by
  refine .bind (always_mono (fun _ h => h) (fun _ _ => trivial)
    (always_and (returns_prepareBuild request)
      (returns_prepareBuild_envelope request))) fun pre hpre => ?_
  refine .bind_right fun bound => ?_
  refine .bind (R := Staged enc request E S) ?_ fun b hb => ?_
  · refine .bind (returns_ofExcept fun _ h => h) fun plan hplan => ?_
    have hplanned : Planned enc request plan := by
      refine ⟨⟨pre, bound, hpre.1, hplan⟩, fun ht => hpre.2 ?_⟩
      obtain ⟨prepared, hprepared, heq⟩ := bind_eq_ok.mp hplan
      cases heq
      unfold prepareDataChunks at hprepared
      split_ifs at hprepared
      · exact (prepareData_taproot hprepared ht).1
      · cases hprepared
        cases ht
    refine .bind (hE plan hplanned) fun r hr => ?_
    obtain ⟨price, emitted⟩ := r
    refine .bind (returns_ofExcept fun _ h => h) fun start hstart => ?_
    refine .bind (hS plan price emitted start hplanned hr hstart) fun sel hsel => ?_
    refine always_mono (fun b hb => ?_) (fun _ h => h) (returns_settled price sel)
    obtain ⟨rfl, rfl, rfl, rfl, hsettled⟩ := hb
    exact ⟨hplanned, hr, hsel, hsettled⟩
  · exact returns_finishBuild hb

/-! ## What every call returned -/

/-- A call returns its build's result, and a receipt. -/
theorem returns_createTransaction {P : Built → Prop} (h : Returns P (buildSteps enc request)) :
    Returns (fun r => ∃ b receipt, P b ∧ r = { b.result with reservation := receipt })
      (createTransaction enc request) := by
  refine .bind (R := P) (always_tryCatch.mpr ?_) fun b hb => ?_
  · refine always_mono (fun _ h => h) (fun e _ => ?_) (Returns.bind h fun b hb => .bind_right fun _ => hb)
    exact fun _ _ _ _ => trivial
  · exact .bind_right fun receipt => ⟨b, receipt, hb, rfl⟩

/-- **What every build returns, every call returned, in every run.** -/
theorem transaction_run {R : TxRequest → TxResult → Prop}
    (h : ∀ request, Returns (R request) (createTransaction enc request)) (clock : ℕ)
    (events : List (Event sig Command)) (p : ℕ) (call : EncoderCall)
    (hcall : (encoderRun enc clock events).cfg.calls p = some call) (r : TxResult) (t : ℕ)
    (hreturned : call.stage = .returned (.transaction r) t) :
    ∃ request, call.command = .createTransaction request ∧ R request r := by
  refine (always_run (program enc) (R := fun command a => ∀ r, a = .transaction r →
    ∃ request, command = .createTransaction request ∧ R request r) (T := fun _ _ => True)
    (fun command => ?_) Reservations.empty events p call hcall).1 _ t hreturned r rfl
  cases command with
  | createTransaction request =>
    refine Returns.bind (h request) fun r hr r' heq => ?_
    cases heq
    exact ⟨request, rfl, hr⟩
  | createEnvelopeCancelTransaction request => exact Returns.bind_right fun _ _ heq => by cases heq
  | releaseReservation id => exact Returns.bind_right fun _ _ heq => by cases heq

/-- What a call returned, if it is a transaction. -/
def returnedTransaction (call : EncoderCall) : Option TxResult :=
  match call.stage with
  | .returned (.transaction r) _ => some r
  | _ => none

theorem returnedTransaction_eq_some {call : EncoderCall} {r : TxResult}
    (h : returnedTransaction call = some r) : ∃ t, call.stage = .returned (.transaction r) t := by
  unfold returnedTransaction at h
  split at h
  · rename_i r' t hs
    cases h
    exact ⟨t, hs⟩
  · cases h

end XChain
