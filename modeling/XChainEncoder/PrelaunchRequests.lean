import XChainEncoder.FeeQuotes
import XChainEncoder.Publication
import XChainEncoder.ValidatedRequests

/-!
# Before the launch

Behind its interface a mainnet encoder builds, before the launch, only what consensus indexes then:
the actions that validators publish.

* `isValidatorWireAction`: the name and the format of an action, as the refusal reads them;
* `requestOf`, `createTx`: the request that `create_tx` hands to the builder, or the error it answers
  with;
* `ApiEvent`, `apiRun`: runs of an encoder behind its interface;
* `prelaunch_publishes`: **a transaction returned to a call that started before the launch publishes a
  validator's action, as it was given**.
-/

namespace XChain.JsonRpc

open PushScript Coroutine Validator

/-! ## Validator actions -/

/-- The actions of validators, each with the formats they broadcast. -/
def validatorWireFormats : List (String × List ℕ) :=
  [("ANCHOR", [0, 1, 2, 3]), ("PRICE", [0]), ("NODEPROOF", [0]), ("ROLLCALL", [0, 1]),
    ("ATTEST", [1, 3, 4, 5, 6])]

/-- The greatest format that a second field may name. -/
def maxFormat : ℕ := 255

/-- `toUpperCase` of the units that can spell a name of the table: the ASCII letters, the dotless `i`,
the long `s` and the ligatures of `s` and `t`. -/
def upperUnit (u : UInt16) : CodeUnits :=
  if 0x61 ≤ u ∧ u ≤ 0x7a then [u - 0x20]
  else if u = 0x131 then [0x49]
  else if u = 0x17f then [0x53]
  else if u = 0xfb05 ∨ u = 0xfb06 then [0x53, 0x54]
  else [u]

def toUpperCase (s : CodeUnits) : CodeUnits := s.flatMap upperUnit

/-- The format that a second field names; a missing or empty one is 0. -/
def parseFormat : Option CodeUnits → Option ℕ
  | none => some 0
  | some field =>
    let text := (trim field).filter fun u => u ≠ 0x22 && u ≠ 0x27
    if text = [] then some 0
    else if text.all isDigit && decimalValue text ≤ maxFormat then some (decimalValue text)
    else none

/-- The name of an action, as the refusal reads it. -/
def wireName (data : CodeUnits) : CodeUnits := toUpperCase (trim ((data.splitOn 0x7c).headD []))

/-- An action that validators broadcast, in a format of theirs. -/
def isValidatorWireAction (data : CodeUnits) : Bool :=
  data ≠ [] && validatorWireFormats.any fun entry =>
    units entry.1.toList = wireName data &&
      (parseFormat (data.splitOn 0x7c)[1]?).any entry.2.contains

/-! ## `create_tx` -/

/-- The launch, in seconds. -/
def mainnetLaunchTs : ℕ := 1798761600

def lowerUnit (u : UInt16) : UInt16 := if 0x41 ≤ u ∧ u ≤ 0x5a then u + 0x20 else u

/-- The operator's override is set: one of these words, in any case. -/
def overrides (override : Option CodeUnits) : Bool :=
  ["1", "true", "yes", "on"].any fun word =>
    units word.toList = (trim (override.getD [])).map lowerUnit

/-- Before the launch only validators build on the main chain, unless the operator overrides. -/
def assertNotMainnetPrelaunch (enc : Encoder) (now : ℕ) (override data : Option CodeUnits) :
    Except RpcError Unit :=
  if enc.network.net ≠ .mainnet ∨ mainnetLaunchTs ≤ now / 1000 then .ok ()
  else if overrides override then .ok ()
  else if data.any isValidatorWireAction then .ok ()
  else .error ⟨-32010, "Mainnet is not open yet: only validator actions can be built before launch",
    some "MAINNET_PRELAUNCH"⟩

/-- A redeem script is read where it is a string of hexadecimal bytes. -/
def redeemScriptOf : Param → Option Bytes
  | .string s =>
    if s ≠ [] ∧ s.length % 2 = 0 ∧ isHex (text s) = true then some (hexBytes (text s)) else none
  | _ => none

/-- An entry as the builder reads it. -/
def utxoOf (u : UtxoEntry) : Utxo where
  txid := u.txid.val
  vout := u.vout.val
  value := u.value.val
  scriptPubKey := hexBytes u.scriptPubKey.val
  confirmations := u.confirmations
  redeemScript := redeemScriptOf u.redeemScript
  txid_hex := u.txid.property.1

/-- A text, unless it is empty. -/
def given (s : Option CodeUnits) : Option CodeUnits := s.filter (· ≠ [])

/-- The arguments that `create_tx` hands over: text as UTF-8, raw data byte for byte. -/
def requestOf {C : Context} (v : CreateTxParams C) : TxRequest where
  utxos := ((v.payment.utxos.map Subtype.val).getD []).map utxoOf
  pubkey := (v.payment.pubkey.map fun p => text p.source.val).getD []
  customOutputs := ((v.payment.customOutputs.map Subtype.val).getD []).map fun o =>
    ⟨text o.address.val, o.value.val⟩
  data := (given v.action.data).map bufferFromUtf8
  rawData := (given v.action.rawData).map bufferFromBinary
  fee := v.payment.fee.map fun n => (n.val : ℤ)
  replacebyfee := v.policy.rbf.getD false
  encoding := v.action.encoding
  change := v.payment.change.map fun a => text a.val
  p2shHash := v.payment.reveal.map fun r => r.p2shHash.val
  p2shHex := v.payment.reveal.map fun r => r.p2shHex.val
  compressedPubKey := v.payment.compressedPubKey.map fun k => hexBytes k.val
  unconfirmed := v.policy.unconfirmed.getD true
  feePerKb := v.payment.feePerKb.map fun r => r.val
  dust := v.payment.dust.map fun n => (n.val : ℤ)
  feeQuote := v.payment.feeQuote.map fun q => ⟨text q.address.val, q.amount.val⟩
  attachPrevTx := v.policy.attachPrevTx.getD false
  compress := v.policy.compress
  signerSupportsTapscript := v.policy.options.signerSupportsTapscript.getD false
  exactInputs := v.policy.options.exactInputs.getD false

/-- The checks of `create_tx`, up to the call of the builder. -/
def createTx (C : Context) (enc : Encoder) (now : ℕ) (override : Option CodeUnits) (params : Param) :
    Except RpcError TxRequest := do
  let v ← (validateAll C params).mapError toRpcError
  assertNotMainnetPrelaunch enc now override v.action.data
  return requestOf v

/-! ## Runs behind the interface -/

/-- A request of the interface, a reply to a call under way, or time passing. The params of `create_tx`
are checked when they have `arrived`; its call starts once the node's tier has been asked for. -/
inductive ApiEvent where
  | createTx (arrived : ℕ) (override : Option CodeUnits) (params : Param) (delays : List ℕ)
  | createEnvelopeCancelTx (request : CancelRequest) (delays : List ℕ)
  | releaseInputs (reservationId : Option ℕ) (delays : List ℕ)
  | resume (p : ℕ) (reply : (q : sig.Req) → Except {e : sig.Err // sig.Rejects e} (sig.Reply q))
      (delays : List ℕ)
  | pass (d : ℕ)

/-- What the interface makes of it; a refused request starts no call. -/
def ApiEvent.event (C : Context) (enc : Encoder) (now : ℕ) : ApiEvent → Option (Event sig Command)
  | .createTx arrived override params delays =>
    if arrived ≤ now then
      match JsonRpc.createTx C enc arrived override params with
      | .ok request => some (.start (.createTransaction request) delays)
      | .error _ => none
    else none
  | .createEnvelopeCancelTx request delays =>
    some (.start (.createEnvelopeCancelTransaction request) delays)
  | .releaseInputs id delays => some (.start (.releaseReservation id) delays)
  | .resume p reply delays => some (.resume p reply delays)
  | .pass d => some (.pass d)

/-- An event of the interface, as the encoder's run has it. -/
def apiStep (C : Context) (enc : Encoder) (w : EncoderWorld) (e : ApiEvent) : EncoderWorld :=
  match e.event C enc w.cfg.clock with
  | some event => step (program enc) Ledger.empty w event
  | none => w

/-- A run of the interface, from an encoder that has built nothing. -/
def apiRun (C : Context) (enc : Encoder) (clock : ℕ) (events : List ApiEvent) : EncoderWorld :=
  events.foldl (apiStep C enc) (World.init clock Reservations.empty)

variable {C : Context} {enc : Encoder}

theorem apiRun_eq_encoderRun (C : Context) (enc : Encoder) (clock : ℕ) (events : List ApiEvent) :
    ∃ started, apiRun C enc clock events = encoderRun enc clock started := by
  induction events using List.reverseRecOn with
  | nil => exact ⟨[], rfl⟩
  | append_singleton events e ih =>
    obtain ⟨started, hstarted⟩ := ih
    have hstep : apiRun C enc clock (events ++ [e]) =
        apiStep C enc (encoderRun enc clock started) e := by
      rw [apiRun, List.foldl_append, ← hstarted]
      rfl
    rw [hstep, apiStep]
    cases e.event C enc (encoderRun enc clock started).cfg.clock with
    | none => exact ⟨started, rfl⟩
    | some event =>
      refine ⟨started ++ [event], ?_⟩
      rw [encoderRun, encoderRun, Coroutine.run, Coroutine.run, List.foldl_append]
      rfl

/-! ## What is admitted -/

/-- A wire action behind the checks of `create_tx`. -/
def PublishesOnly (request : TxRequest) : Prop :=
  ∃ data, request.data = some (bufferFromUtf8 data) ∧ isValidatorWireAction data = true ∧
    validateActionName (some data) = .ok ()

theorem createTx_admits {now : ℕ} {override : Option CodeUnits} {params : Param} {request : TxRequest}
    (hnet : enc.network.net = .mainnet) (hnow : now < 1000 * mainnetLaunchTs)
    (hoff : overrides override = false) (h : createTx C enc now override params = .ok request) :
    PublishesOnly request := by
  obtain ⟨v, -, h⟩ := bind_eq_ok.mp h
  obtain ⟨_, hadmitted, h⟩ := bind_eq_ok.mp h
  cases h
  have hearly : ¬ (enc.network.net ≠ .mainnet ∨ mainnetLaunchTs ≤ now / 1000) := by
    rintro (hother | hlaunched)
    · exact hother hnet
    · omega
  rw [assertNotMainnetPrelaunch, if_neg hearly, hoff, if_neg Bool.false_ne_true] at hadmitted
  split_ifs at hadmitted with hwire
  · obtain ⟨data, hdata, hwire⟩ := (Option.any_eq_true ..).mp hwire
    have hne : data ≠ [] := by
      rintro rfl
      cases hwire
    refine ⟨data, ?_, hwire, hdata ▸ v.action.known⟩
    simp only [requestOf, given, hdata, Option.filter_some, hne, ne_eq, not_false_eq_true,
      decide_true, if_true, Option.map_some]

/-- What the interface started before the launch publishes only what it may. -/
def Admitted (w : EncoderWorld) : Prop :=
  ∀ p call request, w.cfg.calls p = some call → call.command = .createTransaction request →
    call.startedAt < 1000 * mainnetLaunchTs → PublishesOnly request

/-- The event does not come with the operator's override. -/
def ApiEvent.withoutOverride : ApiEvent → Bool
  | .createTx _ override _ _ => !overrides override
  | _ => true

theorem admitted_step (hnet : enc.network.net = .mainnet) {w : EncoderWorld} (h : Admitted w)
    {e : ApiEvent} (he : e.withoutOverride = true) : Admitted (apiStep C enc w e) := by
  unfold apiStep
  cases hevent : e.event C enc w.cfg.clock with
  | none => exact h
  | some event =>
    intro p call request hcall hcommand hearly
    rcases step_started hcall with ⟨before, hbefore, hsame, hstart⟩ | ⟨ds, hstarted, hclock⟩
    · exact h p before request hbefore (hsame ▸ hcommand) (hstart ▸ hearly)
    · rw [hcommand] at hstarted
      subst hstarted
      cases e with
      | createTx arrived override params delays =>
        rw [ApiEvent.event] at hevent
        split_ifs at hevent with harrived
        cases hrequest : JsonRpc.createTx C enc arrived override params with
        | error err =>
          rw [hrequest] at hevent
          cases hevent
        | ok request' =>
          rw [hrequest] at hevent
          cases hevent
          have hoff : overrides override = false := by simpa [ApiEvent.withoutOverride] using he
          exact createTx_admits hnet (harrived.trans_lt (hclock ▸ hearly)) hoff hrequest
      | createEnvelopeCancelTx request' delays => cases hevent
      | releaseInputs id delays => cases hevent
      | resume q reply delays => cases hevent
      | pass d => cases hevent

theorem admitted_apiRun (hnet : enc.network.net = .mainnet) (clock : ℕ) {events : List ApiEvent}
    (hoff : ∀ e ∈ events, e.withoutOverride = true) : Admitted (apiRun C enc clock events) := by
  induction events using List.reverseRecOn with
  | nil =>
    intro p call request hcall
    cases hcall
  | append_singleton events e ih =>
    rw [apiRun, List.foldl_append]
    exact admitted_step hnet (ih fun e' he' => hoff e' (List.mem_append_left _ he'))
      (hoff e (List.mem_append_right _ (List.mem_singleton_self e)))

/-! ## An admitted action is not compressed -/

/-- The bytes of ASCII text. -/
def asciiBytes (s : CodeUnits) : Bytes := s.map fun u => UInt8.ofNat u.toNat

theorem bufferFromUtf8_cons_of_ascii {u : UInt16} (hu : u < 0x80) (s : CodeUnits) :
    bufferFromUtf8 (u :: s) = UInt8.ofNat u.toNat :: bufferFromUtf8 s := by
  have hlt : u.toNat < 0x80 := UInt16.lt_iff_toNat_lt.mp hu
  have hlead : isLeadSurrogate u = false := by
    simp only [isLeadSurrogate, Bool.and_eq_false_iff, decide_eq_false_iff_not, UInt16.le_iff_toNat_le]
    left
    simp only [UInt16.toNat_ofNat]
    omega
  have htrail : isTrailSurrogate u = false := by
    simp only [isTrailSurrogate, Bool.and_eq_false_iff, decide_eq_false_iff_not, UInt16.le_iff_toNat_le]
    left
    simp only [UInt16.toNat_ofNat]
    omega
  have hpoint : utf8CodePoint (unitCodePoint u) = [UInt8.ofNat u.toNat] := by
    simp only [unitCodePoint, hlead, htrail, Bool.or_self, Bool.false_eq_true, if_false, utf8CodePoint,
      if_pos hlt]
  cases s with
  | nil => exact hpoint
  | cons v rest =>
    rw [bufferFromUtf8, hlead, Bool.false_and, if_neg Bool.false_ne_true, hpoint]
    rfl

theorem bufferFromUtf8_append_of_ascii {token : CodeUnits} (h : ∀ u ∈ token, u < 0x80) (s : CodeUnits) :
    bufferFromUtf8 (token ++ s) = asciiBytes token ++ bufferFromUtf8 s := by
  induction token with
  | nil => rfl
  | cons u token ih =>
    rw [List.cons_append, bufferFromUtf8_cons_of_ascii (h u List.mem_cons_self),
      ih fun v hv => h v (List.mem_cons_of_mem _ hv)]
    rfl

theorem splitOn_headD {α : Type} [DecidableEq α] (bar : α) (s : List α) :
    (s.splitOn bar).headD [] = s.takeWhile (· ≠ bar) := by
  induction s with
  | nil => rfl
  | cons a s ih =>
    rw [List.splitOn_cons_eq_if_modifyHead]
    by_cases ha : a = bar
    · simp [ha]
    · cases hparts : s.splitOn bar with
      | nil => exact absurd hparts (List.splitOn_ne_nil _ _)
      | cons head tail =>
        rw [hparts] at ih
        simpa [ha] using ih

/-- The names and the short forms that the decoder knows. -/
def knownNames : List String := validActionNames ++ actionAliases.map Prod.fst

theorem actionToken_known {data : CodeUnits} (hne : data ≠ [])
    (h : validateActionName (some data) = .ok ()) :
    ∃ name ∈ knownNames, actionToken data = units name.toList := by
  cases data with
  | nil => exact absurd rfl hne
  | cons u rest =>
    have hknown : unknownActionName (some (u :: rest)) = none := by
      cases hname : unknownActionName (some (u :: rest)) with
      | none => rfl
      | some name =>
        rw [validateActionName, hname] at h
        cases h
    simp only [unknownActionName] at hknown
    cases halias : actionAliases.find? fun a => units a.1.toList = actionToken (u :: rest) with
    | some a =>
      have ha := List.find?_some halias
      exact ⟨a.1, List.mem_append_right _ (List.mem_map_of_mem (List.mem_of_find?_eq_some halias)),
        (of_decide_eq_true ha).symm⟩
    | none =>
      rw [halias] at hknown
      split_ifs at hknown with hvalid
      obtain ⟨name, hname, heq⟩ := List.any_eq_true.mp hvalid
      exact ⟨name, List.mem_append_left _ hname, (of_decide_eq_true heq).symm⟩

/-- A known name that the refusal lets through is plain ASCII and not `FILE`. -/
theorem knownNames_wire : ∀ name ∈ knownNames,
    (validatorWireFormats.any fun entry =>
      units entry.1.toList = toUpperCase (trim (units name.toList))) = true →
      (units name.toList).all (fun u => u < 0x80) = true ∧ 0x7c ∉ asciiBytes (units name.toList) ∧
        asciiBytes (units name.toList) ≠ [] ∧
        upperFile (asciiBytes (units name.toList)) ≠ [0x46, 0x49, 0x4c, 0x45] := by
  decide +kernel

/-- What `create_tx` admits is written as its name in ASCII, a bar or the end after it. -/
theorem wireAction_bytes {data : CodeUnits} (hwire : isValidatorWireAction data = true)
    (hknown : validateActionName (some data) = .ok ()) :
    bufferFromUtf8 data ≠ [] ∧ isFileV0Action (some (bufferFromUtf8 data)) = false := by
  rw [isValidatorWireAction, Bool.and_eq_true, decide_eq_true_eq] at hwire
  obtain ⟨hne, hentry⟩ := hwire
  obtain ⟨name, hname, htoken⟩ := actionToken_known hne hknown
  have hread : wireName data = toUpperCase (trim (units name.toList)) := by
    rw [wireName, splitOn_headD, ← htoken]
    rfl
  have hany : (validatorWireFormats.any fun entry =>
      units entry.1.toList = toUpperCase (trim (units name.toList))) = true := by
    obtain ⟨entry, hmem, hentry⟩ := List.any_eq_true.mp hentry
    rw [Bool.and_eq_true, hread] at hentry
    exact List.any_eq_true.mpr ⟨entry, hmem, hentry.1⟩
  obtain ⟨hall, hbar, hnonempty, hfile⟩ := knownNames_wire name hname hany
  have hascii : ∀ u ∈ units name.toList, u < 0x80 := fun u hu =>
    of_decide_eq_true (List.all_eq_true.mp hall u hu)
  have hbytes : bufferFromUtf8 data = asciiBytes (units name.toList) ++
      bufferFromUtf8 (data.dropWhile fun u => u ≠ 0x7c) := by
    rw [← bufferFromUtf8_append_of_ascii hascii, ← htoken, actionToken, List.takeWhile_append_dropWhile]
  have hhead : (actionParts (bufferFromUtf8 data)).headD [] = asciiBytes (units name.toList) := by
    have hstop : (bufferFromUtf8 (data.dropWhile fun u => u ≠ 0x7c)).takeWhile (· ≠ 0x7c) = [] := by
      cases hrest : data.dropWhile fun u => u ≠ 0x7c with
      | nil => rfl
      | cons u rest =>
        have hu : u = 0x7c := by
          have hhead := List.head?_dropWhile_not (fun u => decide (u ≠ 0x7c)) data
          rw [hrest] at hhead
          simpa using hhead
        subst hu
        rw [bufferFromUtf8_cons_of_ascii (by decide)]
        rfl
    rw [actionParts, splitOn_headD, hbytes, List.takeWhile_append_of_pos, hstop, List.append_nil]
    intro b hb
    exact decide_eq_true fun heq => hbar (heq ▸ hb)
  refine ⟨?_, ?_⟩
  · rw [hbytes]
    exact List.append_ne_nil_of_left_ne_nil hnonempty _
  · cases hparts : actionParts (bufferFromUtf8 data) with
    | nil => exact absurd hparts (List.splitOn_ne_nil _ _)
    | cons head tail =>
      rw [hparts, List.headD_cons] at hhead
      simp [isFileV0Action, hparts, hhead, hfile]

theorem compressedInput_same {compress : Option Bool} {data rawData : Option Bytes}
    {input : PayloadInput} (hfile : isFileV0Action data = false)
    (h : compressedInput enc compress data rawData = .ok input) :
    input.data = data ∧ input.rawData = rawData := by
  unfold compressedInput at h
  split at h
  next _ original _ =>
    have hguard : ∃ refusal, guardCompressible data original = some refusal := by
      rw [guardCompressible, if_pos (by simp [hfile])]
      exact ⟨_, rfl⟩
    obtain ⟨refusal, hguard⟩ := hguard
    rw [compressionOutcome, hguard] at h
    split_ifs at h with hempty hexplicit
    · cases h
      exact ⟨rfl, rfl⟩
    · cases h
    · cases h
      exact ⟨rfl, rfl⟩
  next =>
    cases h
    exact ⟨rfl, rfl⟩

/-! ## What is published before the launch -/

/-- **Before the launch a mainnet encoder publishes validators' actions only**: whatever its interface
is asked, in any order, a call that starts before the launch and returns a transaction publishes the
text of its request, unchanged, and that is a wire action. -/
theorem prelaunch_publishes (C : Context) (enc : Encoder) (hnet : enc.network.net = .mainnet)
    (clock : ℕ) (events : List ApiEvent) (hoff : ∀ e ∈ events, e.withoutOverride = true) (p : ℕ)
    (call : EncoderCall) (hcall : (apiRun C enc clock events).cfg.calls p = some call)
    (hearly : call.startedAt < 1000 * mainnetLaunchTs) (r : TxResult) (t : ℕ)
    (hreturned : call.stage = .returned (.transaction r) t) :
    ∃ request data, call.command = .createTransaction request ∧ isValidatorWireAction data = true ∧
      Publishes enc request (bufferFromUtf8 data) (readRawData request.rawData) r := by
  have hadmitted := admitted_apiRun (C := C) hnet clock hoff
  obtain ⟨started, hrun⟩ := apiRun_eq_encoderRun C enc clock events
  rw [hrun] at hcall hadmitted
  obtain ⟨request, hcommand, hpublishes⟩ := transaction_run
    (R := fun request r => ∀ action, request.data = some action → action ≠ [] →
      isFileV0Action (some action) = false →
        Publishes enc request action (readRawData request.rawData) r)
    (fun request => always_mono (fun r hr action haction hne hfile => by
      obtain ⟨⟨b, receipt, hb, heq⟩, henvelope⟩ := hr
      obtain ⟨pre, bound, hpre, -⟩ := hb.planned.prepared
      obtain ⟨hdata, hraw⟩ := compressedInput_same (haction ▸ hfile) hpre.input
      exact hraw ▸ publishes_result heq hb henvelope hpre.input (hdata.trans haction) hne)
      (fun _ _ => trivial)
      (always_and (returns_createTransaction returns_publishedBuild)
        (returns_envelopeReveal enc request)))
    clock started p call hcall r t hreturned
  obtain ⟨data, hdata, hwire, hknown⟩ := hadmitted p call request hcall hcommand hearly
  obtain ⟨hne, hfile⟩ := wireAction_bytes hwire hknown
  exact ⟨request, data, hcommand, hwire, hpublishes _ hdata hne hfile⟩

/-- A request for an anchor in a nulldata output. -/
def anchorParams : Param :=
  .object [
    ("utxos", .array [.object [("txid", .plain sampleTxid), ("vout", .natural 0),
      ("value", .natural 101650),
      ("scriptPubKey", .plain "0014751e76e8199196d454941c45d1b3a323f1433bd6".toList),
      ("confirmations", .natural 6)]]),
    ("pubkey", .plain "0279be667ef9dcbbac55a06295ce870b07029bfcdb2dce28d959f2815b16f81798".toList),
    ("data", .plain "ANCHOR|0".toList),
    ("encoding", .plain "OP_RETURN".toList),
    ("change", .plain (sampleAddress ⟨.btc, .mainnet⟩)),
    ("feePerKb", .natural 10000)]

def sampleContext : Context := ⟨sampleLibrary, 546, fun _ => "", fun _ => .nan⟩

def anchorEvents : List ApiEvent :=
  .createTx 0 none anchorParams [] :: List.replicate 6 (.resume 0 sampleReply [])

def anchorRun : EncoderWorld :=
  apiRun sampleContext (sampleEncoder ⟨.btc, .mainnet⟩) 0 anchorEvents

theorem prelaunch_publishes_anchor : ∃ call r, anchorRun.cfg.calls 0 = some call ∧
    returnedTransaction call = some r ∧ r.encoding = .opReturn ∧ ∃ request data,
      call.command = .createTransaction request ∧ isValidatorWireAction data = true ∧
      Publishes (sampleEncoder ⟨.btc, .mainnet⟩) request (bufferFromUtf8 data)
        (readRawData request.rawData) r := by
  have hrun : ∃ call ∈ anchorRun.cfg.calls 0, call.startedAt = 0 ∧
      (returnedTransaction call).map TxResult.encoding = some .opReturn := by
    decide +kernel
  obtain ⟨call, hcall, hstart, hsome⟩ := hrun
  obtain ⟨r, hr, hencoding⟩ := Option.map_eq_some_iff.mp hsome
  obtain ⟨t, hreturned⟩ := returnedTransaction_eq_some hr
  have hoff : ∀ e ∈ anchorEvents, e.withoutOverride = true := by
    intro e he
    rcases List.mem_cons.mp he with rfl | he
    · decide +kernel
    · rw [List.eq_of_mem_replicate he]
      rfl
  have hearly : call.startedAt < 1000 * mainnetLaunchTs := by
    rw [hstart]
    decide
  exact ⟨call, r, hcall, hr, hencoding, prelaunch_publishes sampleContext
    (sampleEncoder ⟨.btc, .mainnet⟩) rfl 0 anchorEvents hoff 0 call hcall hearly r t hreturned⟩

end XChain.JsonRpc
