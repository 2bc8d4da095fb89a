import XChainEncoder.NodeTierSteps

/-!
# Runs of the node's identity checks

* `memoized_more`: a tier check that begins after a chain name was memoized has it on its record;
* `TierStands`, `GenesisStands`: a refusal with no pass to set against it;
* `nodeTier_stands`: **a standing refusal refuses every later call, until the node has answered
  otherwise**;
* `unreadGenesis_returned`: a run in which a call gets past a recorded mismatch.
-/

namespace XChain.NodeTier

open Coroutine

variable {identity : NodeIdentity} {w : NodeWorld} {p : ℕ} {α : Type}

/-! ## Calls that begin with a memoized name -/

/-- The record says that the name was memoized. -/
def Memoized (l : Visit) : Prop := l.memoized = true

theorem ledgerKept_chainName : LedgerKept (σ := nodeSig) Memoized chainName := by
  intro s l hl
  dsimp only
  cases s.chainNameCache with
  | some name => trivial
  | none =>
    intro r
    cases r with
    | error e => trivial
    | ok name =>
      dsimp only
      split_ifs
      · trivial
      · exact fun _ _ _ => ⟨hl, trivial⟩

theorem ledgerKept_getBlockHash (height : ℕ) : LedgerKept (σ := nodeSig) Memoized (getBlockHash height) := by
  intro r
  cases r with
  | error e => trivial
  | ok result =>
    dsimp only
    split_ifs <;> trivial

theorem ledgerKept_attempted {c : Prog α} (h : LedgerKept (σ := nodeSig) Memoized c) :
    LedgerKept (σ := nodeSig) Memoized (attempted c) :=
  ledgerKept_tryCatch (ledgerKept_bind h fun _ => trivial) fun _ => trivial

theorem ledgerKept_givenChain (chain : Option String) :
    LedgerKept (σ := nodeSig) Memoized (givenChain chain) := by
  cases chain with
  | some name => exact fun _ _ hl => ⟨hl, fun _ => trivial⟩
  | none => exact fun _ _ _ hl => ⟨hl, trivial⟩

theorem ledgerKept_examineChain (network : String) (chain : Option String) :
    LedgerKept (σ := nodeSig) Memoized (examineChain network chain) := by
  intro s l hl
  dsimp only
  cases chainTierMismatch network chain <;> exact ⟨hl, trivial⟩

theorem ledgerKept_passTier : LedgerKept (σ := nodeSig) Memoized passTier :=
  fun _ _ hl => ⟨hl, trivial⟩

theorem ledgerKept_examineGenesis (pinnedHash reported : Option String) :
    LedgerKept (σ := nodeSig) Memoized (examineGenesis pinnedHash reported) := by
  cases reported with
  | none => exact fun _ _ hl => ⟨hl, trivial⟩
  | some hash =>
    intro s l hl
    dsimp only
    cases chainGenesisMismatch pinnedHash hash <;> exact ⟨hl, trivial⟩

theorem ledgerKept_assertNodeGenesis (pinnedHash : Option String) :
    LedgerKept (σ := nodeSig) Memoized (assertNodeGenesis pinnedHash) := by
  intro s l _
  dsimp only
  split_ifs
  · trivial
  · exact ledgerKept_bind (ledgerKept_attempted (ledgerKept_getBlockHash 0))
      (ledgerKept_examineGenesis pinnedHash)

theorem ledgerKept_passed (network : Option String) (s : Connector) :
    LedgerKept (σ := nodeSig) Memoized (match network with
      | none => passTier
      | some network =>
        if network = "" || s.nodeTierOk then passTier
        else (attempted chainName).bind fun chain => (givenChain chain).bind fun chain =>
          (examineChain network chain).bind fun _ => passTier) := by
  cases network with
  | none => exact ledgerKept_passTier
  | some network =>
    dsimp only
    split_ifs
    · exact ledgerKept_passTier
    · exact ledgerKept_bind (ledgerKept_attempted ledgerKept_chainName) fun chain =>
        ledgerKept_bind (ledgerKept_givenChain chain) fun chain =>
          ledgerKept_bind (ledgerKept_examineChain network chain) fun _ => ledgerKept_passTier

/-- **A tier check that begins after a name was memoized has it on its record.** -/
theorem memoized_more (hw : NodeSound identity w) (hcache : w.cfg.shared.chainNameCache.isSome = true)
    (events : List NodeEvent) {call : Call nodeSig NodeCommand Unit} (hnone : w.cfg.calls p = none)
    (hcall : (more identity w events).cfg.calls p = some call)
    (hcommand : call.command = .assertNodeTier) : call.ledger.memoized = true := by
  refine begins_run (L := Memoized) (S := fun s : Connector => s.chainNameCache.isSome = true)
    (P := fun command => command = .assertNodeTier) (nodeTier_meets identity) ?_ ?_ hw hcache events p
    call hnone hcall hcommand
  · intro w' ev hw' hcache'
    obtain ⟨new, hg⟩ := grows_step hw' ev
    rcases hg.cache with hsame | ⟨c, hc, -⟩
    · rw [hsame]
      exact hcache'
    · rw [hc]
      rfl
  · rintro command rfl s l hs
    exact ⟨hs, ledgerKept_bind (ledgerKept_passed identity.consensusNetwork s) fun _ =>
      ledgerKept_assertNodeGenesis identity.chainGenesisHash⟩

/-! ## Standing refusals -/

/-- No tier pass is cached or on its way: the memoized name contradicts the configured tier, and so
did every name a tier check was given. -/
structure TierStands (identity : NodeIdentity) (s : Connector) : Prop where
  armed : ¬ Unarmed identity
  tierOk : s.nodeTierOk = false
  memoized : ∃ c, s.chainNameCache = some c ∧ ¬ Passes identity c
  given : ∀ c, .given c ∈ s.reads → ¬ Passes identity c

/-- A hash is pinned and no match is cached. -/
structure GenesisStands (identity : NodeIdentity) (s : Connector) : Prop where
  pinned : ¬ Unpinned identity
  genesisOk : s.nodeGenesisOk = false

theorem TierStands.grows {s s' : Connector} {new : List Read} (h : TierStands identity s)
    (hg : Grows identity s new s') (hnew : ∀ c, .fetched c ∈ new → ¬ Passes identity c) :
    TierStands identity s' := by
  obtain ⟨c₀, hc₀, hcontra⟩ := h.memoized
  have hgiven : ∀ c, .given c ∈ s'.reads → ¬ Passes identity c := by
    intro c hc
    rw [hg.reads] at hc
    rcases List.mem_append.mp hc with hc | hc
    · exact h.given c hc
    · rcases hg.given c hc with hcache | hin
      · obtain rfl : c₀ = c := by simpa [hc₀] using hcache
        exact hcontra
      · exact hnew c hin
  refine ⟨h.armed, ?_, ?_, hgiven⟩
  · rcases hg.tierOk with hsame | ⟨-, c, hin, hpass⟩
    · exact hsame.trans h.tierOk
    · exact absurd hpass (hgiven c hin)
  · rcases hg.cache with hsame | ⟨c, hc, hin⟩
    · exact ⟨c₀, hsame.trans hc₀, hcontra⟩
    · exact ⟨c, hc, hnew c hin⟩

theorem GenesisStands.grows {s s' : Connector} {new : List Read} (h : GenesisStands identity s)
    (hg : Grows identity s new s') (hnew : ∀ hash, .genesis hash ∈ new → ¬ Matches identity hash) :
    GenesisStands identity s' := by
  refine ⟨h.pinned, ?_⟩
  rcases hg.genesisOk with hsame | ⟨-, hash, hin, hmatch⟩
  · exact hsame.trans h.genesisOk
  · exact absurd hmatch (hnew hash hin)

/-- What was read between two worlds of a run. -/
def readSince (w w' : NodeWorld) : List Read :=
  w'.cfg.shared.reads.drop w.cfg.shared.reads.length

theorem grows_since (hw : NodeSound identity w) (events : List NodeEvent) :
    Grows identity w.cfg.shared (readSince w (more identity w events))
      (more identity w events).cfg.shared := by
  obtain ⟨new, hg⟩ := grows_more hw events
  have hnew : readSince w (more identity w events) = new := by
    rw [readSince, hg.reads, List.drop_left]
  rw [hnew]
  exact hg

/-- A refusal stands when every chain name fetched so far contradicts the tier. -/
theorem tierStands_of_fetched (events : List NodeEvent) (harmed : ¬ Unarmed identity)
    (hcache : (nodeRun identity events).cfg.shared.chainNameCache.isSome = true)
    (hfetched : ∀ c, .fetched c ∈ (nodeRun identity events).cfg.shared.reads → ¬ Passes identity c) :
    TierStands identity (nodeRun identity events).cfg.shared := by
  obtain ⟨new, hg⟩ := grows_more (nodeRun_sound identity []) events
  have hreads : (nodeRun identity events).cfg.shared.reads = new := hg.reads
  have hgiven : ∀ c, .given c ∈ (nodeRun identity events).cfg.shared.reads → ¬ Passes identity c := by
    intro c hc
    rcases hg.given c (hreads ▸ hc) with hnone | hin
    · cases hnone
    · exact hfetched c (hreads ▸ hin)
  obtain ⟨c, hc⟩ := Option.isSome_iff_exists.mp hcache
  refine ⟨harmed, ?_, ⟨c, hc, ?_⟩, hgiven⟩
  · rcases hg.tierOk with hsame | ⟨-, c, hin, hpass⟩
    · exact hsame
    · exact absurd hpass (hgiven c hin)
  · rcases hg.cache with hsame | ⟨c', hc', hin⟩
    · cases hc.symm.trans hsame
    · cases hc.symm.trans hc'
      exact hfetched c (hreads ▸ hin)

theorem refused_of_threw (hw : NodeSound identity w) {call : Call nodeSig NodeCommand Unit}
    (hcall : w.cfg.calls p = some call) (hcommand : call.command = .assertNodeTier) {e : NodeError}
    {t : ℕ} (hthrew : call.stage = .threw e t) : ∃ message, e = .nodeChainMismatch message := by
  obtain ⟨y, -, -, hrefused⟩ := (hw.ended p call hcall).threw e t hthrew
  obtain ⟨message, he, -⟩ := hrefused hcommand
  exact ⟨message, he⟩

/-- **A refusal is recorded** in the step that makes it. -/
theorem recorded_of_threw (hw : NodeSound identity w) (ev : NodeEvent)
    {call : Call nodeSig NodeCommand Unit}
    (hbefore : ∀ c, w.cfg.calls p = some c → c.stage = .running)
    (hcall : (step (nodeProgram identity) Visit.new w ev).cfg.calls p = some call)
    (hcommand : call.command = .assertNodeTier) {e : NodeError} {t : ℕ}
    (hthrew : call.stage = .threw e t) :
    (step (nodeProgram identity) Visit.new w ev).cfg.shared.nodeTierMismatch.isSome = true := by
  obtain ⟨y, -, -, -, -, hend⟩ := step_ended (nodeTier_meets identity) hw hbefore hcall
    (by rw [hthrew]; nofun)
  rcases hend with ⟨a, hcfg, -⟩ | ⟨e', hcfg, -, hrefused⟩
  · rw [hcfg, Snap.cfg_self] at hcall
    cases hcall
    cases hthrew
  · obtain ⟨message, -, hmismatch⟩ := hrefused hcommand
    rw [hcfg]
    exact hmismatch

/-- The tier check was refused, or let through because it could not read block 0. -/
def RefusedOrUnread (call : Call nodeSig NodeCommand Unit) : Prop :=
  (∀ a t, call.stage = .returned a t → call.ledger.genesisFailed = true) ∧
    ∀ e t, call.stage = .threw e t → ∃ message, e = .nodeChainMismatch message

/-- The tier check was refused. -/
def RefusedOnly (call : Call nodeSig NodeCommand Unit) : Prop :=
  (∀ a t, call.stage ≠ .returned a t) ∧
    ∀ e t, call.stage = .threw e t → ∃ message, e = .nodeChainMismatch message

/-- **A refused node stays refused.** A step in which a tier check throws leaves a mismatch recorded,
and it stays recorded until a matching block-0 hash has been read. Until then, where no match is
cached, a tier check that starts is refused or could not read block 0. While no tier pass is cached or
on its way, a tier check that starts is refused until a chain name is fetched that does not
contradict the tier. -/
theorem nodeTier_stands (identity : NodeIdentity) (events events' : List NodeEvent) :
    (∀ ev p call e t, (∀ c, (nodeRun identity events).cfg.calls p = some c → c.stage = .running) →
      (nodeRun identity (events ++ [ev])).cfg.calls p = some call → call.command = .assertNodeTier →
      call.stage = .threw e t →
        (nodeRun identity (events ++ [ev])).cfg.shared.nodeTierMismatch.isSome = true) ∧
    ((∀ hash, .genesis hash ∈
        readSince (nodeRun identity events) (nodeRun identity (events ++ events')) →
          ¬ Matches identity hash) →
      ((probeNodeTier (nodeRun identity events).cfg.shared).1.isSome = true →
        (probeNodeTier (nodeRun identity (events ++ events')).cfg.shared).1.isSome = true) ∧
      (GenesisStands identity (nodeRun identity events).cfg.shared → ∀ p call,
        (nodeRun identity events).cfg.calls p = none →
        (nodeRun identity (events ++ events')).cfg.calls p = some call →
        call.command = .assertNodeTier → RefusedOrUnread call)) ∧
    ((∀ c, .fetched c ∈
        readSince (nodeRun identity events) (nodeRun identity (events ++ events')) →
          ¬ Passes identity c) →
      TierStands identity (nodeRun identity events).cfg.shared → ∀ p call,
        (nodeRun identity events).cfg.calls p = none →
        (nodeRun identity (events ++ events')).cfg.calls p = some call →
        call.command = .assertNodeTier → RefusedOnly call) := by
  have hw := nodeRun_sound identity events
  rw [nodeRun_append]
  have hw' := sound_more hw events'
  have hg := grows_since hw events'
  refine ⟨?_, fun hunmatched => ⟨fun hs => ?_, ?_⟩, ?_⟩
  · intro ev p call e t hbefore hcall hcommand hthrew
    rw [nodeRun_append] at hcall ⊢
    exact recorded_of_threw hw ev hbefore hcall hcommand hthrew
  · rcases hg.mismatch hs with hs' | ⟨hash, hin, hmatch⟩
    · exact hs'
    · exact absurd hmatch (hunmatched hash hin)
  · intro hstands p call _ hcall hcommand
    have hstands' := hstands.grows hg hunmatched
    refine ⟨fun a t hreturned => ?_, fun e t => refused_of_threw hw' hcall hcommand⟩
    rcases ((hw'.inv p call hcall).returned hcommand a t hreturned).2 with h | h | h
    · exact absurd h hstands'.pinned
    · exact h
    · rw [hstands'.genesisOk] at h
      cases h
  · intro hunpassed hstands p call hnone hcall hcommand
    have hstands' := hstands.grows hg hunpassed
    refine ⟨fun a t hreturned => ?_, fun e t => refused_of_threw hw' hcall hcommand⟩
    have hknown := hw'.inv p call hcall
    obtain ⟨c, hc, -⟩ := hstands.memoized
    have hmemoized := memoized_more hw (by rw [hc]; rfl) events' hnone hcall hcommand
    rcases hknown.tierPassed (hknown.returned hcommand a t hreturned).1 with h | h | h
    · exact hstands'.armed h
    · rw [hknown.memoized hmemoized] at h
      cases h
    · rw [hstands'.tierOk] at h
      cases h

/-! ## A mismatch and an unreadable hash -/

/-- Mainnet, pinned to a block-0 hash. -/
def sampleIdentity : NodeIdentity := ⟨some "mainnet", some (String.ofList (List.replicate 64 'a'))⟩

/-- The node answers call `p`. -/
def nodeAnswer (p : ℕ) (reply : String) : NodeEvent := .resume p (fun _ => .ok reply) []

/-- The node fails to answer call `p`. -/
def nodeFailure (p : ℕ) : NodeEvent := .resume p (fun _ => .error ⟨.failed "timeout", _, rfl⟩) []

/-- A tier check reads another chain's block 0. -/
def wrongGenesis : List NodeEvent :=
  [.start .assertNodeTier [], nodeAnswer 0 "main", nodeAnswer 0 "",
    nodeAnswer 0 (String.ofList (List.replicate 64 'b'))]

/-- A tier check that cannot read block 0. -/
def unreadGenesis : List NodeEvent := [.start .assertNodeTier [], nodeFailure 1]

/-- Whether a call has returned. -/
def hasReturned (call : Call nodeSig NodeCommand Unit) : Bool :=
  match call.stage with
  | .returned _ _ => true
  | _ => false

/-- Whether a call has thrown. -/
def hasThrown (call : Call nodeSig NodeCommand Unit) : Bool :=
  match call.stage with
  | .threw _ _ => true
  | _ => false

/-- The next check after a recorded mismatch returns when it cannot read block 0. -/
theorem unreadGenesis_returned :
    (nodeRun sampleIdentity wrongGenesis).cfg.shared.nodeTierMismatch.isSome = true ∧
    (∃ call ∈ (nodeRun sampleIdentity wrongGenesis).cfg.calls 0, hasThrown call = true) ∧
    (nodeRun sampleIdentity wrongGenesis).cfg.calls 1 = none ∧
    (∃ call ∈ (nodeRun sampleIdentity (wrongGenesis ++ unreadGenesis)).cfg.calls 1,
      call.command = .assertNodeTier ∧ hasReturned call = true) ∧
    ∀ hash, .genesis hash ∈ (nodeRun sampleIdentity (wrongGenesis ++ unreadGenesis)).cfg.shared.reads →
      ¬ Matches sampleIdentity hash := by
  have hfacts : (nodeRun sampleIdentity wrongGenesis).cfg.shared.nodeTierMismatch.isSome = true ∧
      (∃ call ∈ (nodeRun sampleIdentity wrongGenesis).cfg.calls 0, hasThrown call = true) ∧
      ((nodeRun sampleIdentity wrongGenesis).cfg.calls 1).isNone = true ∧
      (∃ call ∈ (nodeRun sampleIdentity (wrongGenesis ++ unreadGenesis)).cfg.calls 1,
        call.command = .assertNodeTier ∧ hasReturned call = true) ∧
      (nodeRun sampleIdentity (wrongGenesis ++ unreadGenesis)).cfg.shared.reads =
        [.fetched "main", .given "main", .genesis (String.ofList (List.replicate 64 'b'))] ∧
      (chainGenesisMismatch sampleIdentity.chainGenesisHash
        (String.ofList (List.replicate 64 'b'))).isSome = true := by
    decide +kernel
  obtain ⟨hmismatch, hthrew, hnone, hreturned, hreads, hwrong⟩ := hfacts
  refine ⟨hmismatch, hthrew, Option.isNone_iff_eq_none.mp hnone, hreturned, fun hash hin hmatch => ?_⟩
  rw [hreads] at hin
  obtain rfl : hash = String.ofList (List.replicate 64 'b') := by simpa using hin
  rw [show chainGenesisMismatch _ _ = none from hmatch] at hwrong
  cases hwrong

/-- A tier check reads another tier. -/
def wrongTier : List NodeEvent := [.start .assertNodeTier [], nodeAnswer 0 "test", nodeAnswer 0 ""]

/-- The next tier check runs to its end. -/
def nextCheck : List NodeEvent := [.start .assertNodeTier [], nodeAnswer 1 ""]

/-- A check that starts after another tier was read does not return. -/
theorem nodeTier_stands_wrongTier :
    ∀ call ∈ (nodeRun sampleIdentity (wrongTier ++ nextCheck)).cfg.calls 1,
      ∀ a t, call.stage ≠ .returned a t := by
  have hfacts : (nodeRun sampleIdentity wrongTier).cfg.shared.chainNameCache = some "test" ∧
      (nodeRun sampleIdentity wrongTier).cfg.shared.reads = [.fetched "test", .given "test"] ∧
      readSince (nodeRun sampleIdentity wrongTier) (nodeRun sampleIdentity (wrongTier ++ nextCheck)) =
        [.given "test"] ∧
      ((nodeRun sampleIdentity wrongTier).cfg.calls 1).isNone = true ∧
      (chainTierMismatch "mainnet" (some "test")).isSome = true ∧
      (∀ call ∈ (nodeRun sampleIdentity (wrongTier ++ nextCheck)).cfg.calls 1,
        call.command = .assertNodeTier) := by
    decide +kernel
  obtain ⟨hcache, hreads, hsince, hnone, hcontra, hcommand⟩ := hfacts
  have hwrong : ¬ Passes sampleIdentity "test" := fun hpass => by
    rw [hpass "mainnet" rfl] at hcontra
    cases hcontra
  have hstands : TierStands sampleIdentity (nodeRun sampleIdentity wrongTier).cfg.shared :=
    tierStands_of_fetched wrongTier
      (show sampleIdentity.consensusNetwork.getD "" ≠ "" by decide) (by rw [hcache]; rfl) fun c hc => by
      rw [hreads] at hc
      obtain rfl : c = "test" := by simpa using hc
      exact hwrong
  intro call hcall
  exact ((nodeTier_stands sampleIdentity wrongTier nextCheck).2.2
    (fun c hc => by rw [hsince] at hc; simp at hc) hstands 1 call
    (Option.isNone_iff_eq_none.mp hnone) hcall (hcommand call hcall)).1

end XChain.NodeTier
