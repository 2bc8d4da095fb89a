import XChainEncoder.NodeConnectorSteps

/-!
# Runs of the node's connector

* `Sourced.pos`, `Sourced.of_main`, `Sourced.of_regtest`: what a rate is, by the chain it is for;
* `feePerKilobyte_sourced`: **every rate that is returned has its source in the call's own replies**;
* `estimateFee_tiers`: the tiers of a quote keep their order and their bounds;
* `broadcast_sends`: a broadcast sends its own transaction once, and again only on regtest.
-/

namespace XChain.NodeConnector

open Coroutine

variable {node : NodeSettings} {blocks : ℕ} {log : List Exchange} {rate : ℚ}

/-! ## Rates -/

theorem positive_getD_pos {x : Option ℚ} {d : ℚ} (hd : 0 < d) : 0 < (positive x).getD d := by
  cases h : positive x with
  | none => exact hd
  | some v => exact (positive_eq_some.mp h).2

theorem feeEstimateSanityCeiling_pos (node : NodeSettings) : 0 < feeEstimateSanityCeiling node := by
  refine positive_getD_pos ?_
  cases node.enc.network.coin <;> norm_num [defaultFeeEstimateSanityCeiling]

theorem noEstimateRelayMultiplier_pos (node : NodeSettings) : 0 < noEstimateRelayMultiplier node :=
  positive_getD_pos (by norm_num)

theorem Sourced.pos (h : Sourced node blocks log rate) : 0 < rate := by
  cases h with
  | relay _ _ _ hpos => exact hpos
  | floor => norm_num [regtestFloor]
  | estimate _ _ hpos _ => exact hpos
  | clamped => exact feeEstimateSanityCeiling_pos node
  | fallback _ _ _ _ _ _ _ _ hpos => exact mul_pos hpos (noEstimateRelayMultiplier_pos node)

/-- On the main chain a rate is an estimate, under the ceiling. -/
theorem Sourced.of_main (h : Sourced node blocks log rate)
    (hmain : ∀ name, .named name ∈ log → name = "main") :
    ∃ fee, .estimated blocks (some fee) ∈ log ∧ rate = min fee (feeEstimateSanityCeiling node) := by
  cases h with
  | relay _ hname _ _ => exact absurd (hmain _ hname) (by decide)
  | floor _ hname _ _ => exact absurd (hmain _ hname) (by decide)
  | estimate _ hin _ hle => exact ⟨rate, hin, (min_eq_left hle).symm⟩
  | clamped fee hin hlt _ => exact ⟨fee, hin, (min_eq_right hlt.le).symm⟩
  | fallback _ name _ _ _ hname hne _ _ => exact absurd (hmain name hname) hne

/-- On regtest a rate is the node's relay fee, or the floor where it has none. -/
theorem Sourced.of_regtest {targets : List ℕ} (h : Sourced node blocks log rate)
    (hnoted : Estimating targets log) (hregtest : ∀ name, .named name ∈ log → name = "regtest") :
    (∀ n fee, .estimated n fee ∉ log) ∧
      ∃ relayfee, .relayed relayfee ∈ log ∧ rate = (positive relayfee).getD regtestFloor := by
  have hnone : ∀ n fee, .estimated n fee ∉ log := fun n fee hin => by
    obtain ⟨-, name, hname, hne⟩ := hnoted.estimated n fee hin
    exact hne (hregtest name hname)
  refine ⟨hnone, ?_⟩
  cases h with
  | relay _ _ hin hpos =>
    exact ⟨some rate, hin, by rw [positive_eq_some.mpr ⟨rfl, hpos⟩]; rfl⟩
  | floor fee _ hin hpos => exact ⟨fee, hin, by rw [hpos]; rfl⟩
  | estimate _ hin _ _ => exact absurd hin (hnone _ _)
  | clamped _ hin _ _ => exact absurd hin (hnone _ _)
  | fallback other _ _ hother hne _ _ _ _ => exact absurd (hregtest other hother) hne

/-! ## Every run -/

section Runs

variable {events : List ConnectorEvent} {p t : ℕ} {call : ConnectorCall} {answer : Answer}

theorem callKnown_run (hcall : (connectorRun node events).cfg.calls p = some call) :
    CallKnown (connectorRun node events).cfg.shared call :=
  (connectorRun_sound node events).inv.calls p call hcall

theorem answered_run (hcall : (connectorRun node events).cfg.calls p = some call)
    (hstage : call.stage = .returned answer t) : Answered node call.command call.ledger answer := by
  obtain ⟨y, rfl, hreturned⟩ :=
    ((connectorRun_sound node events).ended p call hcall).returned answer t hstage
  exact hreturned.answered

theorem named_eq {chain name : String} (hcall : (connectorRun node events).cfg.calls p = some call)
    (hchain : ∀ name ∈ (connectorRun node events).cfg.shared.names, name = chain)
    (hname : .named name ∈ call.ledger) : name = chain :=
  hchain name ((callKnown_run hcall).names name hname)

end Runs

/-! ## Sample runs -/

def sampleNode : NodeSettings := ⟨sampleEncoder ⟨.btc, .mainnet⟩, none, none⟩

/-- A node that refuses a transaction for its fee as long as the cap stands. -/
def sampleReply (chain : String) (feerate : ℚ) (q : NodeRequest) : Body q.Result :=
  match q with
  | .getblockchaininfo => ⟨some chain, none⟩
  | .getnetworkinfo => ⟨some ⟨some (1 / 100000)⟩, none⟩
  | .estimatesmartfee _ => ⟨some ⟨some feerate, []⟩, none⟩
  | .sendrawtransaction _ none =>
    ⟨none, some (.object (some (.whole (-25))) "Fee exceeds maximum configured by user" "")⟩
  | .sendrawtransaction _ (some _) => ⟨some "txid", none⟩

/-- The node answers call `p`. -/
def nodeAnswers (p : ℕ) (chain : String) (feerate : ℚ) : ConnectorEvent :=
  .resume p (fun q => .ok (sampleReply chain feerate q)) []

/-- What a call has answered. -/
def answerOf (call : ConnectorCall) : Option Answer :=
  match call.stage with
  | .returned answer _ => some answer
  | _ => none

theorem stage_of_answerOf {call : ConnectorCall} {answer : Answer} (h : answerOf call = some answer) :
    ∃ t, call.stage = .returned answer t := by
  unfold answerOf at h
  split at h
  · cases h
    exact ⟨_, by assumption⟩
  · cases h

/-- Two estimates on the main chain, overlapping; the node's estimate is over the ceiling. -/
def spikedEstimates : List ConnectorEvent :=
  [.start (.getFeePerKilobyte 6) [], .start (.getFeePerKilobyte 1) [], nodeAnswers 0 "main" 1,
    nodeAnswers 1 "main" 1, nodeAnswers 0 "main" 1, nodeAnswers 1 "main" 1]

/-- **Every rate has its source in the call's own replies.** It is over zero; on the main chain it is
an estimate for the call's own target, under the ceiling; and on regtest it is the node's relay fee,
and no estimate is asked for. -/
theorem feePerKilobyte_sourced (node : NodeSettings) (events : List ConnectorEvent) (p : ℕ)
    (call : ConnectorCall) (hcall : (connectorRun node events).cfg.calls p = some call)
    (blocks : ℕ) (hcommand : call.command = .getFeePerKilobyte blocks) (answer : Answer) (t : ℕ)
    (hstage : call.stage = .returned answer t) :
    ∃ rate, answer = .rate rate ∧ 0 < rate ∧ Sourced node blocks call.ledger rate ∧
      ((∀ name ∈ (connectorRun node events).cfg.shared.names, name = "main") →
        ∃ fee, .estimated blocks (some fee) ∈ call.ledger ∧
          rate = min fee (feeEstimateSanityCeiling node)) ∧
      ((∀ name ∈ (connectorRun node events).cfg.shared.names, name = "regtest") →
        (∀ n fee, .estimated n fee ∉ call.ledger) ∧
          ∃ relayfee, .relayed relayfee ∈ call.ledger ∧
            rate = (positive relayfee).getD regtestFloor) := by
  have hanswered := answered_run hcall hstage
  have hnoted := (callKnown_run hcall).noted
  rw [hcommand] at hanswered hnoted
  obtain ⟨rate, hrate, hsourced⟩ := hanswered
  exact ⟨rate, hrate, hsourced.pos, hsourced,
    fun hmain => hsourced.of_main fun _ hname => named_eq hcall hmain hname,
    fun hregtest => hsourced.of_regtest hnoted fun _ hname => named_eq hcall hregtest hname⟩

theorem feePerKilobyte_sourced_spiked :
    ∃ call ∈ (connectorRun sampleNode spikedEstimates).cfg.calls 0, ∃ fee,
      .estimated 6 (some fee) ∈ call.ledger ∧
        answerOf call = some (.rate (min fee (feeEstimateSanityCeiling sampleNode))) := by
  have hfacts : (∃ call ∈ (connectorRun sampleNode spikedEstimates).cfg.calls 0,
      call.command = .getFeePerKilobyte 6 ∧ answerOf call = some (.rate (1 / 100))) ∧
      ∀ name ∈ (connectorRun sampleNode spikedEstimates).cfg.shared.names, name = "main" := by
    decide +kernel
  obtain ⟨⟨call, hcall, hcommand, hanswer⟩, hnames⟩ := hfacts
  obtain ⟨t, hstage⟩ := stage_of_answerOf hanswer
  obtain ⟨rate, hrate, -, -, hmain, -⟩ := feePerKilobyte_sourced sampleNode spikedEstimates 0 call hcall 6
    hcommand _ t hstage
  obtain ⟨fee, hin, rfl⟩ := hmain hnames
  exact ⟨call, hcall, fee, hin, hanswer.trans (congrArg some hrate)⟩

/-! ## Quotes -/

theorem wholeUnits_pos (perVbyte : ℚ) : 1 ≤ wholeUnits perVbyte := le_max_left _ _

theorem capPerVbyte_pos {enc : Encoder} {cap : ℤ} (h : capPerVbyte enc = some cap) : 1 ≤ cap := by
  obtain ⟨perByte, -, rfl⟩ := Option.map_eq_some_iff.mp h
  exact wholeUnits_pos _

/-- A tier is at least one unit, at most the configured ceiling, and at most the rate. -/
theorem quoteTier_bounds (enc : Encoder) (feerate : ℚ) :
    1 ≤ quoteTier enc feerate ∧ (∀ cap ∈ capPerVbyte enc, quoteTier enc feerate ≤ cap) ∧
      quoteTier enc feerate ≤ wholeUnits (feerate * 100000) := by
  unfold quoteTier
  cases hcap : capPerVbyte enc with
  | none => exact ⟨wholeUnits_pos _, fun _ h => (by cases h), le_rfl⟩
  | some cap =>
    dsimp only
    split_ifs with hlt
    · refine ⟨capPerVbyte_pos hcap, fun cap' h => ?_, hlt.le⟩
      cases h
      exact le_rfl
    · refine ⟨wholeUnits_pos _, fun cap' h => ?_, le_rfl⟩
      cases h
      exact not_lt.mp hlt

theorem tiersOf_high_le {enc : Encoder} {slow middle fast : ℚ} {bound : ℤ}
    (hslow : quoteTier enc slow ≤ bound) (hmiddle : quoteTier enc middle ≤ bound)
    (hfast : quoteTier enc fast ≤ bound) : (tiersOf enc slow middle fast).high ≤ bound :=
  max_le hfast (max_le hslow (max_le hmiddle hslow))

/-- **The tiers of a quote.** Each of the three rates has its source; no tier is under a slower one or
under one unit, and none is over the configured ceiling. On the main chain none is over the ceiling of
estimates. -/
theorem estimateFee_tiers (node : NodeSettings) (events : List ConnectorEvent) (p : ℕ)
    (call : ConnectorCall) (hcall : (connectorRun node events).cfg.calls p = some call)
    (hcommand : call.command = .estimateFee) (answer : Answer) (t : ℕ)
    (hstage : call.stage = .returned answer t) :
    ∃ tiers slow middle fast, answer = .tiers tiers ∧ Quoted node call.ledger tiers slow middle fast ∧
      1 ≤ tiers.low ∧ tiers.low ≤ tiers.medium ∧ tiers.medium ≤ tiers.high ∧
      (∀ cap ∈ capPerVbyte node.enc, tiers.high ≤ cap) ∧
      ((∀ name ∈ (connectorRun node events).cfg.shared.names, name = "main") →
        tiers.high ≤ wholeUnits (feeEstimateSanityCeiling node * 100000)) := by
  have hanswered := answered_run hcall hstage
  rw [hcommand] at hanswered
  obtain ⟨tiers, slow, middle, fast, hanswer, hquoted⟩ := hanswered
  have htiers := hquoted.tiers_eq
  subst htiers
  refine ⟨_, slow, middle, fast, hanswer, hquoted, (quoteTier_bounds node.enc slow).1,
    le_max_right _ _, (le_max_right _ _).trans (le_max_right _ _), fun cap hcap => ?_, fun hmain => ?_⟩
  · exact tiersOf_high_le ((quoteTier_bounds node.enc slow).2.1 cap hcap)
      ((quoteTier_bounds node.enc middle).2.1 cap hcap) ((quoteTier_bounds node.enc fast).2.1 cap hcap)
  · have hbound : ∀ {n : ℕ} {rate : ℚ}, Sourced node n call.ledger rate →
        quoteTier node.enc rate ≤ wholeUnits (feeEstimateSanityCeiling node * 100000) := by
      intro n rate hsourced
      obtain ⟨fee, -, rfl⟩ := hsourced.of_main fun _ hname => named_eq hcall hmain hname
      refine (quoteTier_bounds node.enc _).2.2.trans (wholeUnits_mono ?_)
      have hle := min_le_right fee (feeEstimateSanityCeiling node)
      linarith
    exact tiersOf_high_le (hbound hquoted.six) (hbound hquoted.three) (hbound hquoted.one)

/-- A quote on the main chain. -/
def quotedRun : List ConnectorEvent :=
  [.start .estimateFee [], nodeAnswers 0 "main" 1, nodeAnswers 0 "main" (1 / 5000),
    nodeAnswers 0 "main" (1 / 10000), nodeAnswers 0 "main" 1]

theorem estimateFee_tiers_quoted :
    ∃ call ∈ (connectorRun sampleNode quotedRun).cfg.calls 0, ∃ tiers,
      answerOf call = some (.tiers tiers) ∧ 1 ≤ tiers.low ∧ tiers.low ≤ tiers.medium ∧
        tiers.medium ≤ tiers.high ∧ tiers.high ≤ 1000 := by
  have hfacts : (∃ call ∈ (connectorRun sampleNode quotedRun).cfg.calls 0,
      call.command = .estimateFee ∧ answerOf call = some (.tiers ⟨20, 20, 1000⟩)) ∧
      (∀ name ∈ (connectorRun sampleNode quotedRun).cfg.shared.names, name = "main") ∧
      wholeUnits (feeEstimateSanityCeiling sampleNode * 100000) = 1000 := by
    decide +kernel
  obtain ⟨⟨call, hcall, hcommand, hanswer⟩, hnames, hbound⟩ := hfacts
  obtain ⟨t, hstage⟩ := stage_of_answerOf hanswer
  obtain ⟨tiers, slow, middle, fast, htiers, -, hlow, hmedium, hhigh, -, hmain⟩ :=
    estimateFee_tiers sampleNode quotedRun 0 call hcall hcommand _ t hstage
  exact ⟨call, hcall, tiers, hanswer.trans (congrArg some htiers), hlow, hmedium, hhigh,
    hbound ▸ hmain hnames⟩

/-! ## Broadcasts -/

/-- What a call has sent, in order. -/
def sends (log : List Exchange) : List (String × Option ℚ) :=
  log.filterMap fun e =>
    match e with
    | .sent txHex maxfeerate => some (txHex, maxfeerate)
    | _ => none

variable {txHex : String} {maxfeerate : Option ℚ}

theorem sends_attempt (h : Attempt txHex maxfeerate log) : sends log = [(txHex, maxfeerate)] := by
  cases h <;> rfl

/-- A broadcast sends its transaction at most twice, the second time after a complaint. -/
theorem sends_broadcasting (h : Broadcasting txHex log) :
    sends log ∈ [[], [(txHex, none)], [(txHex, none), (txHex, some 0)]] ∧
      (2 ≤ (sends log).length → .named "regtest" ∈ log ∧
        ∃ message, .refused message ∈ log ∧ complainsOfFee message = true) := by
  cases h with
  | idle => exact ⟨by simp [sends], fun h => by simp [sends] at h⟩
  | first _ hattempt =>
    rw [sends_attempt hattempt]
    exact ⟨by simp, fun h => by simp at h⟩
  | named message name _ => exact ⟨by simp [sends], fun h => by simp [sends] at h⟩
  | second message log hcomplaint hattempt =>
    have hsends : sends ([.sent txHex none, .refused message, .named "regtest"] ++ log) =
        (txHex, none) :: sends log := rfl
    rw [hsends, sends_attempt hattempt]
    exact ⟨by simp, fun _ => ⟨by simp, message, by simp, hcomplaint⟩⟩

theorem sends_estimating {targets : List ℕ} (h : Estimating targets log) : sends log = [] := by
  refine List.filterMap_eq_nil_iff.mpr fun e he => ?_
  cases e with
  | sent txHex maxfeerate => exact absurd he (h.sent txHex maxfeerate)
  | _ => rfl

/-- **What the connector sends.** At any moment of any run a broadcast has sent its own transaction at
most once, or a second time without the cap, after the node has complained of the fee and on a
connector that was told it is on regtest; what it returns is the node's last word. No other call sends
anything. -/
theorem broadcast_sends (node : NodeSettings) (events : List ConnectorEvent) (p : ℕ)
    (call : ConnectorCall) (hcall : (connectorRun node events).cfg.calls p = some call) :
    (∀ txHex, call.command = .sendRawTransaction txHex →
      sends call.ledger ∈ [[], [(txHex, none)], [(txHex, none), (txHex, some 0)]] ∧
      (2 ≤ (sends call.ledger).length →
        "regtest" ∈ (connectorRun node events).cfg.shared.names ∧
          ∃ message, .refused message ∈ call.ledger ∧ complainsOfFee message = true) ∧
      ∀ answer t, call.stage = .returned answer t →
        ∃ txid, answer = .text txid ∧ call.ledger.getLast? = some (.accepted txid)) ∧
    ((∀ txHex, call.command ≠ .sendRawTransaction txHex) → sends call.ledger = []) := by
  have hknown := callKnown_run hcall
  constructor
  · intro txHex hcommand
    have hnoted := hknown.noted
    rw [hcommand] at hnoted
    obtain ⟨hsends, hsecond⟩ := sends_broadcasting hnoted
    refine ⟨hsends, fun htwice => ?_, fun answer t hstage => ?_⟩
    · obtain ⟨hname, hmessage⟩ := hsecond htwice
      exact ⟨hknown.names _ hname, hmessage⟩
    · have hanswered := answered_run hcall hstage
      rw [hcommand] at hanswered
      exact hanswered
  · intro hother
    refine sends_estimating ((noted_of_asks ?_ _).mp hknown.noted)
    cases hc : call.command with
    | sendRawTransaction txHex => exact absurd hc (hother txHex)
    | _ => trivial

/-- A broadcast on regtest that the node first refuses for its fee. -/
def refusedBroadcast : List ConnectorEvent :=
  [.start (.sendRawTransaction "00") [], nodeAnswers 0 "regtest" 1, nodeAnswers 0 "regtest" 1,
    nodeAnswers 0 "regtest" 1]

theorem broadcast_sends_refused :
    ∃ call ∈ (connectorRun sampleNode refusedBroadcast).cfg.calls 0,
      (sends call.ledger).length = 2 ∧
      "regtest" ∈ (connectorRun sampleNode refusedBroadcast).cfg.shared.names ∧
      ∃ message, .refused message ∈ call.ledger ∧ complainsOfFee message = true := by
  have hfacts : ∃ call ∈ (connectorRun sampleNode refusedBroadcast).cfg.calls 0,
      call.command = .sendRawTransaction "00" ∧ (sends call.ledger).length = 2 := by
    decide +kernel
  obtain ⟨call, hcall, hcommand, htwice⟩ := hfacts
  exact ⟨call, hcall, htwice,
    ((broadcast_sends sampleNode refusedBroadcast 0 call hcall).1 "00" hcommand).2.1 htwice.ge⟩

end XChain.NodeConnector
