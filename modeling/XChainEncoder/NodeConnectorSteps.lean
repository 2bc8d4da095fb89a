import XChainEncoder.NodeConnector

/-!
# Steps of the node's connector

* `Sourced`: where a rate comes from, in the notes of the call that returns it;
* `Broadcasting`: the notes of a broadcast, at every moment of it;
* `CallKnown`, `Known`: what the notes of every call say, whatever the others do;
* `wp_getFeePerKilobyte`, `wp_sendRawTransaction`, `connector_meets`: every call keeps it.
-/

namespace XChain.NodeConnector

open Coroutine

/-! ## Notes -/

/-- Where a rate for a confirmation target comes from. -/
inductive Sourced (node : NodeSettings) (blocks : ℕ) (log : List Exchange) : ℚ → Prop where
  | relay (fee : ℚ) : .named "regtest" ∈ log → .relayed (some fee) ∈ log → 0 < fee →
      Sourced node blocks log fee
  | floor (fee : Option ℚ) : .named "regtest" ∈ log → .relayed fee ∈ log → positive fee = none →
      Sourced node blocks log regtestFloor
  | estimate (fee : ℚ) : .estimated blocks (some fee) ∈ log → 0 < fee →
      fee ≤ feeEstimateSanityCeiling node → Sourced node blocks log fee
  | clamped (fee : ℚ) : .estimated blocks (some fee) ∈ log → feeEstimateSanityCeiling node < fee →
      .named "main" ∈ log → Sourced node blocks log (feeEstimateSanityCeiling node)
  | fallback (other name : String) (fee : ℚ) : .named other ∈ log → other ≠ "regtest" →
      .named name ∈ log → name ≠ "main" → .relayed (some fee) ∈ log → 0 < fee →
      Sourced node blocks log (fee * noEstimateRelayMultiplier node)

theorem Sourced.mono {node : NodeSettings} {blocks : ℕ} {log log' : List Exchange} {rate : ℚ}
    (h : Sourced node blocks log rate) (hlog : log <+: log') : Sourced node blocks log' rate := by
  have hmem := hlog.subset
  cases h with
  | relay _ hname hfee hpos => exact .relay _ (hmem hname) (hmem hfee) hpos
  | floor fee hname hfee hnone => exact .floor fee (hmem hname) (hmem hfee) hnone
  | estimate _ hfee hpos hle => exact .estimate _ (hmem hfee) hpos hle
  | clamped fee hfee hlt hname => exact .clamped fee (hmem hfee) hlt (hmem hname)
  | fallback other name fee hother hreg hname hmain hfee hpos =>
    exact .fallback other name fee (hmem hother) hreg (hmem hname) hmain (hmem hfee) hpos

/-- How an attempt to send a transaction ends. -/
inductive Attempt (txHex : String) (maxfeerate : Option ℚ) : List Exchange → Prop where
  | sent : Attempt txHex maxfeerate [.sent txHex maxfeerate]
  | accepted (txid : String) : Attempt txHex maxfeerate [.sent txHex maxfeerate, .accepted txid]
  | refused (message : String) : Attempt txHex maxfeerate [.sent txHex maxfeerate, .refused message]

/-- The notes of a broadcast: an attempt; once the node has complained of the fee, the chain name; and
on regtest an attempt without the cap. -/
inductive Broadcasting (txHex : String) : List Exchange → Prop where
  | idle : Broadcasting txHex []
  | first (log : List Exchange) : Attempt txHex none log → Broadcasting txHex log
  | named (message name : String) : complainsOfFee message = true →
      Broadcasting txHex [.sent txHex none, .refused message, .named name]
  | second (message : String) (log : List Exchange) : complainsOfFee message = true →
      Attempt txHex (some 0) log →
      Broadcasting txHex ([.sent txHex none, .refused message, .named "regtest"] ++ log)

/-- The notes of a call that asks for estimates: it sends nothing, and it asks for no other target
than its own, and for none before it has been given a name other than regtest. -/
structure Estimating (targets : List ℕ) (log : List Exchange) : Prop where
  sent : ∀ txHex maxfeerate, .sent txHex maxfeerate ∉ log
  estimated : ∀ blocks fee, .estimated blocks fee ∈ log → blocks ∈ targets ∧
    ∃ name, .named name ∈ log ∧ name ≠ "regtest"

/-- The confirmation targets a call asks about. -/
def ConnectorCommand.targets : ConnectorCommand → List ℕ
  | getFeePerKilobyte blocks => [blocks]
  | estimateFee => [6, 3, 1]
  | sendRawTransaction _ => []
  | chainName => []

/-- What the notes of a call are. -/
def Noted : ConnectorCommand → List Exchange → Prop
  | .sendRawTransaction txHex, log => Broadcasting txHex log
  | command, log => Estimating command.targets log

/-- The call broadcasts nothing. -/
def ConnectorCommand.asks : ConnectorCommand → Prop
  | sendRawTransaction _ => False
  | _ => True

theorem noted_of_asks {command : ConnectorCommand} (h : command.asks) (log : List Exchange) :
    Noted command log ↔ Estimating command.targets log := by
  cases command with
  | sendRawTransaction txHex => cases h
  | _ => exact Iff.rfl

theorem Estimating.append {targets : List ℕ} {log : List Exchange} (h : Estimating targets log)
    {e : Exchange} (hsent : ∀ txHex maxfeerate, e ≠ .sent txHex maxfeerate)
    (hestimated : ∀ blocks fee, e = .estimated blocks fee → blocks ∈ targets ∧
      ∃ name, .named name ∈ log ∧ name ≠ "regtest") : Estimating targets (log ++ [e]) where
  sent := fun txHex maxfeerate hin => by
    rcases List.mem_append.mp hin with hin | hin
    · exact h.sent _ _ hin
    · exact hsent _ _ (List.mem_singleton.mp hin).symm
  estimated := fun blocks fee hin => by
    have hgiven : blocks ∈ targets ∧ ∃ name, .named name ∈ log ∧ name ≠ "regtest" := by
      rcases List.mem_append.mp hin with hin | hin
      · exact h.estimated _ _ hin
      · exact hestimated _ _ (List.mem_singleton.mp hin).symm
    obtain ⟨htarget, name, hname, hne⟩ := hgiven
    exact ⟨htarget, name, List.mem_append_left _ hname, hne⟩

/-! ## What is known of every call -/

/-- The names a call was given were memoized, and its notes are in order. -/
structure CallKnown (s : Connector) (call : ConnectorCall) : Prop where
  names : ∀ name, .named name ∈ call.ledger → name ∈ s.names
  noted : Noted call.command call.ledger

structure Known (g : ConnectorCfg) : Prop where
  cache : ∀ name ∈ g.shared.chainNameCache, name ∈ g.shared.names
  calls : ∀ p call, g.calls p = some call → CallKnown g.shared call

/-- Every call keeps what is known. -/
def connectorContract : Contract connectorSig ConnectorCommand Answer where
  inv := Known
  keeps _ := True
  keeps_enter _ _ := trivial

variable {p : ℕ} {x : ConnectorSnap}

/-- A running call at one of its steps. -/
structure At (p : ℕ) (x : ConnectorSnap) : Prop where
  known : Known (x.cfg p)
  running : x.call.stage = .running

theorem At.self (h : At p x) : CallKnown x.shared x.call := h.known.calls p x.call (x.cfg_self p)

theorem At.others (h : At p x) {q : ℕ} (hq : q ≠ p) {call : ConnectorCall}
    (hcall : x.others q = some call) : CallKnown x.shared call :=
  h.known.calls q call ((Function.update_of_ne hq _ _).trans hcall)

theorem At.store (h : At p x) {s : Connector} {l : List Exchange}
    (hcache : ∀ name ∈ s.chainNameCache, name ∈ s.names) (hnames : x.shared.names ⊆ s.names)
    (hl : CallKnown s { x.call with ledger := l }) : At p (x.store s l) where
  known :=
    { cache := hcache
      calls := fun q call hcall => by
        by_cases hq : q = p
        · subst hq
          cases ((x.store s l).cfg_self q).symm.trans hcall
          exact hl
        · have hother := h.others hq ((Function.update_of_ne hq _ _).symm.trans hcall)
          exact ⟨fun name hname => hnames (hother.names name hname), hother.noted⟩ }
  running := h.running

theorem At.later (h : At p x) {t : ℕ} {s : Connector} {o : ℕ → Option ConnectorCall}
    (hI : Known ((x.later t s o).cfg p)) : At p (x.later t s o) := ⟨hI, h.running⟩

variable {α : Type} {E : NodeError → ConnectorSnap → Prop}

theorem wp_note (h : At p x) {e : Exchange} (hname : ∀ name, e ≠ .named name)
    (hnoted : Noted x.call.command (x.call.ledger ++ [e])) {Q : Unit → ConnectorSnap → Prop}
    (hQ : ∀ y, At p y → y.call = { x.call with ledger := x.call.ledger ++ [e] } → Q () y) :
    wp connectorContract p (note e) Q E x := by
  refine hQ _ (h.store h.known.cache (List.Subset.refl _) ⟨fun name hin => ?_, hnoted⟩) rfl
  rcases List.mem_append.mp hin with hin | hin
  · exact h.self.names name hin
  · exact absurd (List.mem_singleton.mp hin).symm (hname name)

theorem wp_attempted {c : Prog α} {Q : Option α → ConnectorSnap → Prop}
    (h : wp connectorContract p c (fun a => Q (some a)) (fun _ => Q none) x) :
    wp connectorContract p (attempted c) Q E x :=
  (wp_tryCatch x).mpr ((wp_bind x).mpr h)

/-- **Awaiting the chain name.** -/
theorem wp_chainName (h : At p x)
    (hnoted : ∀ name, Noted x.call.command (x.call.ledger ++ [.named name]))
    {Q : String → ConnectorSnap → Prop}
    (hQ : ∀ name y, At p y → y.call = { x.call with ledger := x.call.ledger ++ [.named name] } →
      Q name y)
    (hE : ∀ e y, At p y → y.call = x.call → E e y) :
    wp connectorContract p chainName Q E x := by
  rw [chainName, wp]
  cases hc : x.shared.chainNameCache with
  | some name =>
    refine hQ name _ (h.store h.known.cache (List.Subset.refl _) ⟨fun name' hin => ?_, hnoted name⟩) rfl
    rcases List.mem_append.mp hin with hin | hin
    · exact h.self.names name' hin
    · cases List.mem_singleton.mp hin
      exact h.known.cache name hc
  | none =>
    refine (wp_bind x).mpr ⟨h.known, trivial, fun r _ t s o _ hI => ?_⟩
    have hl := h.later hI
    cases r with
    | error e => exact hE _ _ hl rfl
    | ok body =>
      dsimp only
      cases body.result with
      | none => exact hE _ _ hl rfl
      | some name =>
        refine hQ name _ (hl.store ?_ (List.subset_append_left _ _) ⟨fun name' hin => ?_, hnoted name⟩)
          rfl
        · intro name' hname'
          cases hname'
          exact List.mem_append_right _ (List.mem_singleton_self _)
        · rcases List.mem_append.mp hin with hin | hin
          · exact List.mem_append_left _ (hl.self.names name' hin)
          · cases List.mem_singleton.mp hin
            exact List.mem_append_right _ (List.mem_singleton_self _)

/-! ## A stretch of a call that asks -/

/-- A stretch of one call: it adds to its notes. -/
structure Went (p : ℕ) (x y : ConnectorSnap) : Prop where
  here : At p y
  command : y.call.command = x.call.command
  log : x.call.ledger <+: y.call.ledger

theorem Went.refl (h : At p x) : Went p x x := ⟨h, rfl, List.prefix_rfl⟩

theorem Went.trans {x y z : ConnectorSnap} (h : Went p x y) (h' : Went p y z) : Went p x z :=
  ⟨h'.here, h'.command.trans h.command, h.log.trans h'.log⟩

theorem Went.of_call {y : ConnectorSnap} (h : At p y) {log : List Exchange}
    (hcall : y.call = { x.call with ledger := x.call.ledger ++ log }) : Went p x y where
  here := h
  command := by rw [hcall]
  log := ⟨log, by rw [hcall]⟩

variable {node : NodeSettings} {blocks : ℕ}

/-- A stretch of a call, and where the rate it has found, if any, comes from. -/
structure Priced (node : NodeSettings) (blocks p : ℕ) (x : ConnectorSnap) (rate : Option ℚ)
    (y : ConnectorSnap) : Prop where
  went : Went p x y
  sourced : ∀ fee ∈ rate, Sourced node blocks y.call.ledger fee

theorem Priced.after {x y z : ConnectorSnap} {rate : Option ℚ} (h : Priced node blocks p y rate z)
    (hw : Went p x y) : Priced node blocks p x rate z := ⟨hw.trans h.went, h.sourced⟩

theorem At.estimating (h : At p x) (hasks : x.call.command.asks) :
    Estimating x.call.command.targets x.call.ledger :=
  (noted_of_asks hasks _).mp h.self.noted

theorem wp_askName (h : At p x) (hasks : x.call.command.asks) {Q : String → ConnectorSnap → Prop}
    (hQ : ∀ name y, Went p x y → .named name ∈ y.call.ledger → Q name y)
    (hE : ∀ e y, Went p x y → E e y) : wp connectorContract p chainName Q E x := by
  refine wp_chainName h (fun name => ?_) (fun name y hy hcall => ?_) fun e y hy hcall => ?_
  · exact (noted_of_asks hasks _).mpr ((h.estimating hasks).append (fun _ _ he => by cases he) fun _ _ he => by cases he)
  · refine hQ name y (.of_call hy hcall) ?_
    rw [hcall]
    exact List.mem_append_right _ (List.mem_singleton_self _)
  · exact hE e y (.of_call hy (hcall.trans (by rw [List.append_nil])))

theorem wp_askRegtest (h : At p x) (hasks : x.call.command.asks) {Q : Bool → ConnectorSnap → Prop}
    (hQ : ∀ name y, Went p x y → .named name ∈ y.call.ledger → Q (name = "regtest") y)
    (hE : ∀ e y, Went p x y → E e y) : wp connectorContract p isRegtest Q E x :=
  (wp_bind x).mpr (wp_askName h hasks hQ hE)

theorem wp_getNetworkInfo (h : At p x) (hasks : x.call.command.asks)
    {Q : NetworkInfo → ConnectorSnap → Prop}
    (hQ : ∀ info y, Went p x y → .relayed info.relayfee ∈ y.call.ledger → Q info y)
    (hE : ∀ e y, Went p x y → E e y) : wp connectorContract p getNetworkInfo Q E x := by
  refine ⟨h.known, trivial, fun r _ t s o _ hI => ?_⟩
  have hl := h.later hI
  have hsame : Went p x (x.later t s o) := ⟨hl, rfl, List.prefix_rfl⟩
  cases r with
  | error e => exact hE _ _ hsame
  | ok body =>
    dsimp only
    cases body.result with
    | none => exact hE _ _ hsame
    | some info =>
      refine (wp_bind _).mpr (wp_note hl (fun _ he => by cases he) ?_ fun y hy hcall => ?_)
      · exact (noted_of_asks hasks _).mpr ((h.estimating hasks).append (fun _ _ he => by cases he) fun _ _ he => by cases he)
      · refine hQ info y (.of_call hy hcall) ?_
        rw [hcall]
        exact List.mem_append_right _ (List.mem_singleton_self _)

theorem positive_eq_some {x : Option ℚ} {v : ℚ} : positive x = some v ↔ x = some v ∧ 0 < v := by
  simp [positive, Option.filter_eq_some_iff]

theorem wp_regtestFee (h : At p x) (hasks : x.call.command.asks)
    (hname : .named "regtest" ∈ x.call.ledger) {Q : ℚ → ConnectorSnap → Prop}
    (hQ : ∀ fee y, Priced node blocks p x (some fee) y → Q fee y)
    (hE : ∀ e y, Went p x y → E e y) : wp connectorContract p regtestFee Q E x := by
  refine (wp_tryCatch x).mpr ((wp_bind x).mpr (wp_getNetworkInfo h hasks (fun info y hy hin => ?_)
    fun e y hy => hE _ y hy))
  have hgiven := hy.log.subset hname
  refine hQ _ y ⟨hy, fun fee hfee => ?_⟩
  cases hfee
  cases hpos : positive info.relayfee with
  | none => exact .floor _ hgiven hin hpos
  | some fee =>
    obtain ⟨heq, hlt⟩ := positive_eq_some.mp hpos
    exact .relay fee hgiven (heq ▸ hin) hlt

/-- The call was given a name other than regtest. -/
def NotRegtest (log : List Exchange) : Prop := ∃ name, .named name ∈ log ∧ name ≠ "regtest"

theorem NotRegtest.mono {log log' : List Exchange} (h : NotRegtest log) (hlog : log <+: log') :
    NotRegtest log' := by
  obtain ⟨name, hname, hne⟩ := h
  exact ⟨name, hlog.subset hname, hne⟩

theorem wp_noEstimateRelayFallback (h : At p x) (hasks : x.call.command.asks)
    (hreg : NotRegtest x.call.ledger)
    {Q : Option ℚ → ConnectorSnap → Prop} (hQ : ∀ fee y, Priced node blocks p x fee y → Q fee y)
    (hE : ∀ e y, Went p x y → E e y) :
    wp connectorContract p (noEstimateRelayFallback node) Q E x := by
  refine (wp_bind x).mpr (wp_askName h hasks (fun name y hy hname => ?_) hE)
  split_ifs with hmain
  · exact hQ none y ⟨hy, fun _ => nofun⟩
  · refine (wp_bind y).mpr (wp_getNetworkInfo hy.here (by rw [hy.command]; exact hasks)
      (fun info z hz hin => ?_) fun e z hz => hE e z (hy.trans hz))
    refine hQ _ z ⟨hy.trans hz, fun fee hfee => ?_⟩
    obtain ⟨relayfee, hpos, rfl⟩ := Option.map_eq_some_iff.mp hfee
    obtain ⟨heq, hlt⟩ := positive_eq_some.mp hpos
    obtain ⟨other, hother, hne⟩ := hreg.mono (hy.trans hz).log
    exact .fallback other name relayfee hother hne (hz.log.subset hname) hmain (heq ▸ hin) hlt

theorem wp_requestSmartFee (h : At p x) (hasks : x.call.command.asks)
    (htarget : blocks ∈ x.call.command.targets) (hreg : NotRegtest x.call.ledger)
    {Q : Body SmartFee → ConnectorSnap → Prop}
    (hQ : ∀ body y, Went p x y →
      .estimated blocks (body.result.bind SmartFee.feerate) ∈ y.call.ledger → Q body y)
    (hE : ∀ e y, Went p x y → E e y) :
    wp connectorContract p (requestSmartFee blocks) Q E x := by
  refine ⟨h.known, trivial, fun r hfair t s o _ hI => ?_⟩
  have hl := h.later hI
  have hsame : Went p x (x.later t s o) := ⟨hl, rfl, List.prefix_rfl⟩
  cases r with
  | error e =>
    obtain ⟨error, rfl⟩ := hfair e rfl
    dsimp only
    split_ifs
    · exact hE _ _ hsame
    · exact hE _ _ hsame
  | ok body =>
    refine (wp_bind _).mpr (wp_note hl (fun _ he => by cases he) ?_ fun y hy hcall => ?_)
    · refine (noted_of_asks hasks _).mpr ((h.estimating hasks).append (fun _ _ he => by cases he) ?_)
      intro blocks' fee he
      cases he
      exact ⟨htarget, hreg⟩
    · refine hQ body y (.of_call hy hcall) ?_
      rw [hcall]
      exact List.mem_append_right _ (List.mem_singleton_self _)

theorem wp_usableSmartFee (h : At p x) (hasks : x.call.command.asks) (body : Body SmartFee)
    (hin : .estimated blocks (body.result.bind SmartFee.feerate) ∈ x.call.ledger)
    {Q : Option ℚ → ConnectorSnap → Prop} (hQ : ∀ fee y, Priced node blocks p x fee y → Q fee y)
    (hE : ∀ e y, Went p x y → E e y) :
    wp connectorContract p (usableSmartFee node body) Q E x := by
  unfold usableSmartFee
  cases hpos : positive (body.result.bind SmartFee.feerate) with
  | none => exact hQ none x ⟨.refl h, fun _ => nofun⟩
  | some feerate =>
    obtain ⟨heq, hlt⟩ := positive_eq_some.mp hpos
    rw [heq] at hin
    dsimp only
    split_ifs with hover
    · refine (wp_bind x).mpr (wp_askName h hasks (fun name y hy hname => ?_) hE)
      refine hQ _ y ⟨hy, fun fee hfee => ?_⟩
      split_ifs at hfee with hmain
      · cases hfee
        exact .clamped feerate (hy.log.subset hin) hover (hmain ▸ hname)
      · cases hfee
    · refine hQ _ x ⟨.refl h, fun fee hfee => ?_⟩
      cases hfee
      exact .estimate feerate hin hlt (not_lt.mp hover)

theorem wp_requireNoEstimateFallback (h : At p x) (hasks : x.call.command.asks)
    (hreg : NotRegtest x.call.ledger) (body : Body SmartFee) {Q : ℚ → ConnectorSnap → Prop}
    (hQ : ∀ fee y, Priced node blocks p x (some fee) y → Q fee y)
    (hE : ∀ e y, Went p x y → E e y) :
    wp connectorContract p (requireNoEstimateFallback node body) Q E x := by
  refine (wp_bind x).mpr (wp_noEstimateRelayFallback h hasks hreg
    (fun fallback y (hy : Priced node blocks p x fallback y) => ?_) hE)
  cases fallback with
  | some fee => exact hQ fee y hy
  | none => exact hE _ y hy.went

theorem wp_recoverFeeEstimate (h : At p x) (hasks : x.call.command.asks) (error : NodeError)
    {Q : ℚ → ConnectorSnap → Prop} (hQ : ∀ fee y, Priced node blocks p x (some fee) y → Q fee y)
    (hE : ∀ e y, Went p x y → E e y) :
    wp connectorContract p (recoverFeeEstimate node error) Q E x := by
  have hend : ∀ (recovered : Option ℚ) y, Priced node blocks p x recovered y →
      wp connectorContract p (recoveredOr error recovered) Q E y := by
    intro recovered y hy
    cases recovered with
    | some fee => exact hQ fee y hy
    | none => exact hE _ y hy.went
  refine (wp_bind x).mpr ((wp_tryCatch x).mpr ((wp_bind x).mpr
    (wp_askRegtest h hasks (fun name y hy hname => ?_) fun e y hy => hend none y ⟨hy, fun _ => nofun⟩)))
  have hasks' : y.call.command.asks := by
    rw [hy.command]
    exact hasks
  cases hreg : decide (name = "regtest") with
  | true =>
    obtain rfl := of_decide_eq_true hreg
    exact (wp_bind y).mpr (wp_regtestFee hy.here hasks' hname
      (fun fee z hz => hend (some fee) z (hz.after hy)) fun e z hz => hend none z ⟨hy.trans hz, fun _ => nofun⟩)
  | false =>
    exact wp_noEstimateRelayFallback hy.here hasks' ⟨name, hname, of_decide_eq_false hreg⟩
      (fun fee z hz => hend fee z (hz.after hy))
      fun e z hz => hend none z ⟨hy.trans hz, fun _ => nofun⟩

theorem wp_estimateRate (h : At p x) (hasks : x.call.command.asks)
    (htarget : blocks ∈ x.call.command.targets) {Q : ℚ → ConnectorSnap → Prop}
    (hQ : ∀ fee y, Priced node blocks p x (some fee) y → Q fee y)
    (hE : ∀ e y, Went p x y → E e y) :
    wp connectorContract p (estimateRate node blocks) Q E x := by
  refine (wp_bind x).mpr (wp_askRegtest h hasks (fun name y hy hname => ?_) hE)
  have hasks' : y.call.command.asks := by
    rw [hy.command]
    exact hasks
  cases hreg : decide (name = "regtest") with
  | true =>
    obtain rfl := of_decide_eq_true hreg
    exact wp_regtestFee hy.here hasks' hname (fun fee z hz => hQ fee z (hz.after hy))
      fun e z hz => hE e z (hy.trans hz)
  | false =>
    have hother : NotRegtest y.call.ledger := ⟨name, hname, of_decide_eq_false hreg⟩
    refine (wp_bind y).mpr (wp_requestSmartFee hy.here hasks' (by rw [hy.command]; exact htarget)
      hother (fun body z hz hin => ?_)
      fun e z hz => hE e z (hy.trans hz))
    have hxz := hy.trans hz
    have hasks'' : z.call.command.asks := by
      rw [hxz.command]
      exact hasks
    refine (wp_bind z).mpr (wp_usableSmartFee hz.here hasks'' body hin (fun feerate u hu => ?_)
      fun e u hu => hE e u (hxz.trans hu))
    cases feerate with
    | some fee => exact hQ fee u (hu.after hxz)
    | none =>
      have hxu := hxz.trans hu.went
      exact wp_requireNoEstimateFallback hxu.here (by rw [hxu.command]; exact hasks)
        (hother.mono (hz.trans hu.went).log) body
        (fun fee v hv => hQ fee v (hv.after hxu)) fun e v hv => hE e v (hxu.trans hv)

/-- **The rate of a call is sourced.** -/
theorem wp_getFeePerKilobyte (h : At p x) (hasks : x.call.command.asks)
    (htarget : blocks ∈ x.call.command.targets) {Q : ℚ → ConnectorSnap → Prop}
    (hQ : ∀ fee y, Priced node blocks p x (some fee) y → Q fee y)
    (hE : ∀ e y, Went p x y → E e y) :
    wp connectorContract p (getFeePerKilobyte node blocks) Q E x := by
  refine (wp_tryCatch x).mpr (wp_estimateRate h hasks htarget hQ fun error y hy => ?_)
  have hrecover : wp connectorContract p (recoverFeeEstimate node error) Q E y :=
    wp_recoverFeeEstimate hy.here (by rw [hy.command]; exact hasks) error
      (fun fee z hz => hQ fee z (hz.after hy)) fun e z hz => hE e z (hy.trans hz)
  cases error with
  | operational xchainCode message => exact hE _ y hy
  | http error => exact hrecover
  | plain message nodeCode => exact hrecover

/-- Where the tiers of a quote come from. -/
structure Quoted (node : NodeSettings) (log : List Exchange) (tiers : FeeTiers)
    (slow middle fast : ℚ) : Prop where
  six : Sourced node 6 log slow
  three : Sourced node 3 log middle
  one : Sourced node 1 log fast
  tiers_eq : tiers = tiersOf node.enc slow middle fast

theorem wp_estimateFee (h : At p x) (hcommand : x.call.command = .estimateFee)
    {Q : FeeTiers → ConnectorSnap → Prop}
    (hQ : ∀ tiers y, Went p x y →
      (∃ slow middle fast, Quoted node y.call.ledger tiers slow middle fast) → Q tiers y)
    (hE : ∀ e y, Went p x y → E e y) :
    wp connectorContract p (estimateFee node) Q E x := by
  have hsame : ∀ {y : ConnectorSnap}, Went p x y → y.call.command = .estimateFee :=
    fun hy => hy.command.trans hcommand
  have hasks : ∀ {y : ConnectorSnap}, Went p x y → y.call.command.asks := fun hy => by
    rw [hsame hy]
    trivial
  have htarget : ∀ {y : ConnectorSnap} {n : ℕ}, n ∈ [6, 3, 1] → Went p x y →
      n ∈ y.call.command.targets := fun hn hy => by
    rw [hsame hy]
    exact hn
  have hx : Went p x x := .refl h
  refine (wp_tryCatch x).mpr ((wp_bind x).mpr (wp_getFeePerKilobyte h (hasks hx)
    (htarget (by decide) hx) (fun slow y hslow => ?_) fun e y hy => hE _ y hy))
  have hy := hslow.went
  refine (wp_bind y).mpr (wp_getFeePerKilobyte hy.here (hasks hy) (htarget (by decide) hy)
    (fun middle z hmiddle => ?_) fun e z hz => hE _ z (hy.trans hz))
  have hz := hy.trans hmiddle.went
  refine (wp_bind z).mpr (wp_getFeePerKilobyte hz.here (hasks hz) (htarget (by decide) hz)
    (fun fast u hfast => ?_) fun e u hu => hE _ u (hz.trans hu))
  exact hQ _ u (hz.trans hfast.went) ⟨slow, middle, fast,
    { six := (hslow.sourced slow rfl).mono (hmiddle.went.log.trans hfast.went.log)
      three := (hmiddle.sourced middle rfl).mono hfast.went.log
      one := hfast.sourced fast rfl
      tiers_eq := rfl }⟩

/-! ## Broadcasts -/

variable {txHex : String} {maxfeerate : Option ℚ}

theorem wp_refuse (h : At p x) (error : NodeError)
    (hnoted : Noted x.call.command (x.call.ledger ++ [.refused error.message]))
    {Q : String → ConnectorSnap → Prop}
    (hE : ∀ y, At p y → y.call = { x.call with ledger := x.call.ledger ++ [.refused error.message] } →
      E error y) :
    wp connectorContract p (refuse error) Q E x :=
  (wp_bind x).mpr (wp_note h (fun _ he => by cases he) hnoted fun y hy hcall => hE y hy hcall)

/-- **An attempt to send a transaction.** -/
theorem wp_sendRaw (h : At p x) (hcommand : x.call.command = .sendRawTransaction txHex)
    (hnoted : ∀ log, Attempt txHex maxfeerate log → Broadcasting txHex (x.call.ledger ++ log))
    {Q : String → ConnectorSnap → Prop}
    (hQ : ∀ txid y, At p y → y.call = { x.call with
      ledger := x.call.ledger ++ [.sent txHex maxfeerate, .accepted txid] } → Q txid y)
    (hE : ∀ error y, At p y → y.call = { x.call with
      ledger := x.call.ledger ++ [.sent txHex maxfeerate, .refused error.message] } → E error y) :
    wp connectorContract p (sendRaw txHex maxfeerate) Q E x := by
  have hbroadcast : ∀ log, Attempt txHex maxfeerate log →
      Noted x.call.command (x.call.ledger ++ log) := fun log hlog => by
    rw [hcommand]
    exact hnoted log hlog
  refine (wp_bind x).mpr (wp_note h (fun _ he => by cases he) (hbroadcast _ .sent) fun y hy hcall => ?_)
  refine ⟨hy.known, trivial, fun r _ t s o _ hI => ?_⟩
  have hl := hy.later hI
  have hcall' : (y.later t s o).call =
      { x.call with ledger := x.call.ledger ++ [.sent txHex maxfeerate] } := hcall
  have happend : ∀ e : Exchange, (y.later t s o).call.ledger ++ [e] =
      x.call.ledger ++ [.sent txHex maxfeerate, e] := fun e => by
    rw [hcall', List.append_assoc]
    rfl
  have hrefuse : ∀ error : NodeError, wp connectorContract p (refuse error) Q E (y.later t s o) :=
    fun error => by
    refine wp_refuse hl error ?_ fun z hz hzcall => hE error z hz ?_
    · rw [happend, hcall']
      exact hbroadcast _ (.refused error.message)
    · rw [hzcall, happend, hcall']
  cases r with
  | error e => exact hrefuse _
  | ok body =>
    dsimp only
    cases body.error with
    | some fault => exact hrefuse _
    | none =>
      dsimp only
      cases body.result with
      | none => exact hrefuse _
      | some txid =>
        refine (wp_bind _).mpr (wp_note hl (fun _ he => by cases he) ?_ fun z hz hzcall => hQ txid z hz ?_)
        · rw [happend, hcall']
          exact hbroadcast _ (.accepted txid)
        · rw [hzcall, happend, hcall']

/-- **A broadcast.** What it returns is the node's last word. -/
theorem wp_sendRawTransaction (h : At p x) (hcommand : x.call.command = .sendRawTransaction txHex)
    (hidle : x.call.ledger = []) {Q : String → ConnectorSnap → Prop}
    (hQ : ∀ txid y, At p y → y.call.command = .sendRawTransaction txHex →
      y.call.ledger.getLast? = some (.accepted txid) → Q txid y)
    (hE : ∀ error y, At p y → y.call.command = .sendRawTransaction txHex → E error y) :
    wp connectorContract p (sendRawTransaction txHex) Q E x := by
  refine (wp_tryCatch x).mpr (wp_sendRaw h hcommand (fun log hlog => ?_)
    (fun txid y hy hcall => ?_) fun error y hy hcall => ?_)
  · rw [hidle]
    exact .first log hlog
  · refine hQ txid y hy ?_ ?_
    · rw [hcall]
      exact hcommand
    · rw [hcall, hidle]
      rfl
  · have hycommand : y.call.command = .sendRawTransaction txHex := by
      rw [hcall]
      exact hcommand
    have hlog : y.call.ledger = [.sent txHex none, .refused error.message] := by
      rw [hcall, hidle]
      rfl
    split_ifs with hcomplaint
    · refine (wp_bind y).mpr (wp_attempted ((wp_bind y).mpr (wp_chainName hy (fun name => ?_)
        (fun name z hz hzcall => ?_) fun e z hz hzcall => ?_)))
      · rw [hycommand, hlog]
        exact .named error.message name hcomplaint
      · have hzcommand : z.call.command = .sendRawTransaction txHex := by
          rw [hzcall]
          exact hycommand
        cases hreg : decide (name = "regtest") with
        | false => exact hE error z hz hzcommand
        | true =>
          obtain rfl := of_decide_eq_true hreg
          have hzlog : z.call.ledger =
              [.sent txHex none, .refused error.message, .named "regtest"] := by
            rw [hzcall, hlog]
            rfl
          refine wp_sendRaw hz hzcommand (fun log hattempt => ?_) (fun txid u hu hucall => ?_)
            fun e u hu hucall => ?_
          · rw [hzlog]
            exact .second error.message log hcomplaint hattempt
          · refine hQ txid u hu ?_ ?_
            · rw [hucall]
              exact hzcommand
            · rw [hucall, hzlog]
              rfl
          · refine hE e u hu ?_
            rw [hucall]
            exact hzcommand
      · refine hE error z hz ?_
        rw [hzcall]
        exact hycommand
    · exact hE error y hy hycommand

/-! ## Every call -/

/-- What a call's answer is, in view of its notes. -/
def Answered (node : NodeSettings) : ConnectorCommand → List Exchange → Answer → Prop
  | .getFeePerKilobyte blocks, log, answer =>
    ∃ rate, answer = .rate rate ∧ Sourced node blocks log rate
  | .estimateFee, log, answer =>
    ∃ tiers slow middle fast, answer = .tiers tiers ∧ Quoted node log tiers slow middle fast
  | .sendRawTransaction _, log, answer =>
    ∃ txid, answer = .text txid ∧ log.getLast? = some (.accepted txid)
  | .chainName, log, answer => ∃ name, answer = .text name ∧ .named name ∈ log

/-- What a call that returns leaves behind. -/
structure ReturnedAnswer (node : NodeSettings) (command : ConnectorCommand) (p : ℕ) (answer : Answer)
    (y : ConnectorSnap) : Prop where
  here : At p y
  command_eq : y.call.command = command
  answered : Answered node command y.call.ledger answer

/-- What a call that throws leaves behind. -/
structure ThrewError (command : ConnectorCommand) (p : ℕ) (_ : NodeError) (y : ConnectorSnap) :
    Prop where
  here : At p y
  command_eq : y.call.command = command

theorem noted_nil (command : ConnectorCommand) : Noted command [] := by
  cases command with
  | sendRawTransaction txHex => exact .idle
  | _ => exact ⟨fun _ _ => List.not_mem_nil, fun _ _ h => absurd h List.not_mem_nil⟩

theorem at_start {g : ConnectorCfg} (hI : Known g) (command : ConnectorCommand) :
    At p (g.enter (freshCall [] command g.clock)) where
  known :=
    { cache := hI.cache
      calls := fun q call hcall => by
        by_cases hq : q = p
        · subst hq
          cases ((g.enter (freshCall [] command g.clock)).cfg_self q).symm.trans hcall
          exact ⟨fun _ h => absurd h List.not_mem_nil, noted_nil command⟩
        · exact hI.calls q call ((Function.update_of_ne hq _ _).symm.trans hcall) }
  running := rfl

theorem At.finish (h : At p x) (stage : Stage connectorSig Answer) : Known ((x.finish stage).cfg p) where
  cache := h.known.cache
  calls := fun q call hcall => by
    by_cases hq : q = p
    · subst hq
      cases ((x.finish stage).cfg_self q).symm.trans hcall
      exact ⟨h.self.names, h.self.noted⟩
    · exact h.others hq ((Function.update_of_ne hq _ _).symm.trans hcall)

theorem connector_meets (node : NodeSettings) : Meets (connectorProgram node) [] connectorContract
    (ReturnedAnswer node) ThrewError where
  pass := fun g t _ hI => ⟨hI.cache, hI.calls⟩
  start := by
    intro g p command _ hI
    have hat := at_start (p := p) hI command
    cases command with
    | getFeePerKilobyte blocks =>
      refine (wp_bind _).mpr (wp_getFeePerKilobyte hat trivial (List.mem_singleton_self _)
        (fun fee y hy => ?_) fun e y hy => ⟨hy.here, hy.command⟩)
      exact ⟨hy.went.here, hy.went.command, fee, rfl, hy.sourced fee rfl⟩
    | estimateFee =>
      refine (wp_bind _).mpr (wp_estimateFee hat rfl (fun tiers y hy hquoted => ?_)
        fun e y hy => ⟨hy.here, hy.command⟩)
      obtain ⟨slow, middle, fast, hquoted⟩ := hquoted
      exact ⟨hy.here, hy.command, tiers, slow, middle, fast, rfl, hquoted⟩
    | sendRawTransaction txHex =>
      refine (wp_bind _).mpr (wp_sendRawTransaction hat rfl rfl (fun txid y hy hcommand hlast => ?_)
        fun e y hy hcommand => ⟨hy, hcommand⟩)
      exact ⟨hy, hcommand, txid, rfl, hlast⟩
    | chainName =>
      refine (wp_bind _).mpr (wp_askName hat trivial (fun name y hy hname => ?_)
        fun e y hy => ⟨hy.here, hy.command⟩)
      exact ⟨hy.here, hy.command, name, rfl, hname⟩
  returned := fun command p a x h => ⟨h.here.finish _, trivial⟩
  threw := fun command p e x h => ⟨h.here.finish _, trivial⟩

/-- **Every call of every run is known and has answered as it should.** -/
theorem connectorRun_sound (node : NodeSettings) (events : List ConnectorEvent) :
    Sound connectorContract (ReturnedAnswer node) ThrewError (connectorRun node events) :=
  invariant_run (connector_meets node)
    ⟨fun _ hname => (by cases hname), fun _ _ hcall => (by cases hcall)⟩ events

end XChain.NodeConnector
