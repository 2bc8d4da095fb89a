import XChainEncoder.NodeTier

/-!
# Steps of the node's identity checks

* `Grows`: what a stretch of a run does to the connector;
* `CallKnown`, `Known`: what a call's record says of the connector;
* `wp_assertTier`, `wp_assertNodeGenesis`: the two steps of a tier check;
* `nodeTier_meets`, `nodeRun_sound`, `grows_more`: **every call keeps what is known and grows the
  connector, whatever the others do**.
-/

namespace XChain.NodeTier

open Coroutine

variable {identity : NodeIdentity}

/-- The configured tier accepts the name. -/
def Passes (identity : NodeIdentity) (name : String) : Prop :=
  ∀ network ∈ identity.consensusNetwork, chainTierMismatch network (some name) = none

/-- The pinned hash is the one that was read. -/
def Matches (identity : NodeIdentity) (hash : String) : Prop :=
  chainGenesisMismatch identity.chainGenesisHash hash = none

/-- No tier is configured. -/
def Unarmed (identity : NodeIdentity) : Prop := identity.consensusNetwork.getD "" = ""

/-- No hash is pinned. -/
def Unpinned (identity : NodeIdentity) : Prop :=
  chainGenesisUnpinned identity.chainGenesisHash = true

/-! ## What a stretch of a run does -/

/-- The connector grew from `s` to `s'` while `new` was read. -/
structure Grows (identity : NodeIdentity) (s : Connector) (new : List Read) (s' : Connector) :
    Prop where
  reads : s'.reads = s.reads ++ new
  cache : s'.chainNameCache = s.chainNameCache ∨
    ∃ c, s'.chainNameCache = some c ∧ .fetched c ∈ new
  given : ∀ c, .given c ∈ new → s.chainNameCache = some c ∨ .fetched c ∈ new
  tierOk : s'.nodeTierOk = s.nodeTierOk ∨
    (s'.nodeTierOk = true ∧ ∃ c, .given c ∈ s'.reads ∧ Passes identity c)
  genesisOk : s'.nodeGenesisOk = s.nodeGenesisOk ∨
    (s'.nodeGenesisOk = true ∧ ∃ h, .genesis h ∈ new ∧ Matches identity h)
  mismatch : s.nodeTierMismatch.isSome = true → s'.nodeTierMismatch.isSome = true ∨
    ∃ h, .genesis h ∈ new ∧ Matches identity h

theorem Grows.refl (s : Connector) : Grows identity s [] s where
  reads := (List.append_nil _).symm
  cache := .inl rfl
  given := fun _ h => by cases h
  tierOk := .inl rfl
  genesisOk := .inl rfl
  mismatch := .inl

theorem Grows.trans {s s' s'' : Connector} {new new' : List Read} (h : Grows identity s new s')
    (h' : Grows identity s' new' s'') : Grows identity s (new ++ new') s'' where
  reads := by rw [h'.reads, h.reads, List.append_assoc]
  cache := by
    rcases h'.cache with hc | ⟨c, hc, hin⟩
    · rcases h.cache with hc' | ⟨c, hc', hin⟩
      · exact .inl (hc.trans hc')
      · exact .inr ⟨c, hc.trans hc', List.mem_append_left _ hin⟩
    · exact .inr ⟨c, hc, List.mem_append_right _ hin⟩
  given := by
    intro c hc
    rcases List.mem_append.mp hc with hc | hc
    · exact (h.given c hc).imp_right (List.mem_append_left _)
    · rcases h'.given c hc with hcache | hin
      · rcases h.cache with hsame | ⟨c', hc', hin⟩
        · exact .inl (hsame ▸ hcache)
        · obtain rfl : c' = c := by simpa [hc'] using hcache
          exact .inr (List.mem_append_left _ hin)
      · exact .inr (List.mem_append_right _ hin)
  tierOk := by
    rcases h'.tierOk with hok | hok
    · rcases h.tierOk with hok' | ⟨hok', c, hin, hpass⟩
      · exact .inl (hok.trans hok')
      · refine .inr ⟨hok.trans hok', c, ?_, hpass⟩
        rw [h'.reads]
        exact List.mem_append_left _ hin
    · exact .inr hok
  genesisOk := by
    rcases h'.genesisOk with hok | ⟨hok, hash, hin, hmatch⟩
    · rcases h.genesisOk with hok' | ⟨hok', hash, hin, hmatch⟩
      · exact .inl (hok.trans hok')
      · exact .inr ⟨hok.trans hok', hash, List.mem_append_left _ hin, hmatch⟩
    · exact .inr ⟨hok, hash, List.mem_append_right _ hin, hmatch⟩
  mismatch := by
    intro hs
    rcases h.mismatch hs with hs' | ⟨hash, hin, hmatch⟩
    · exact (h'.mismatch hs').imp_right fun ⟨hash, hin, hmatch⟩ =>
        ⟨hash, List.mem_append_right _ hin, hmatch⟩
    · exact .inr ⟨hash, List.mem_append_left _ hin, hmatch⟩

theorem Grows.tierOk_mono {s s' : Connector} {new : List Read} (h : Grows identity s new s')
    (hok : s.nodeTierOk = true) : s'.nodeTierOk = true :=
  h.tierOk.elim (fun he => he.trans hok) And.left

theorem Grows.genesisOk_mono {s s' : Connector} {new : List Read} (h : Grows identity s new s')
    (hok : s.nodeGenesisOk = true) : s'.nodeGenesisOk = true :=
  h.genesisOk.elim (fun he => he.trans hok) And.left

/-! ## What a call's record says -/

/-- A call holds a name it was given; it finds no memoized name and fails to read one at once; what
is behind it has passed or was let through; and it returns when both steps are behind it. -/
structure CallKnown (identity : NodeIdentity) (s : Connector)
    (call : Call nodeSig NodeCommand Unit) : Prop where
  holding : ∀ c ∈ call.ledger.holding, .given c ∈ s.reads
  memoized : call.ledger.memoized = true → call.ledger.chainFailed = false
  tierPassed : call.ledger.tierPassed = true →
    Unarmed identity ∨ call.ledger.chainFailed = true ∨ s.nodeTierOk = true
  returned : call.command = .assertNodeTier → ∀ a t, call.stage = .returned a t →
    call.ledger.tierPassed = true ∧
      (Unpinned identity ∨ call.ledger.genesisFailed = true ∨ s.nodeGenesisOk = true)

theorem CallKnown.mono {s s' : Connector} {new : List Read} {call : Call nodeSig NodeCommand Unit}
    (h : CallKnown identity s call) (hg : Grows identity s new s') : CallKnown identity s' call where
  holding := fun c hc => by
    rw [hg.reads]
    exact List.mem_append_left _ (h.holding c hc)
  memoized := h.memoized
  tierPassed := fun hp => (h.tierPassed hp).imp_right (Or.imp_right hg.tierOk_mono)
  returned := fun hcmd a t hst =>
    ⟨(h.returned hcmd a t hst).1, (h.returned hcmd a t hst).2.imp_right (Or.imp_right hg.genesisOk_mono)⟩

def Known (identity : NodeIdentity) (g : NodeCfg) : Prop :=
  ∀ p call, g.calls p = some call → CallKnown identity g.shared call

/-- Every call keeps what is known and grows the connector. -/
def nodeContract (identity : NodeIdentity) : Contract nodeSig NodeCommand Unit where
  inv := Known identity
  keeps x := ∃ new, Grows identity x.entered new x.shared
  keeps_enter _ h := ⟨[], h ▸ Grows.refl _⟩

variable {p : ℕ} {x : Snap nodeSig NodeCommand Unit}

theorem known_cfg : Known identity (x.cfg p) ↔ CallKnown identity x.shared x.call ∧
    ∀ q ≠ p, ∀ call, x.others q = some call → CallKnown identity x.shared call := by
  constructor
  · intro h
    refine ⟨h p x.call (x.cfg_self p), fun q hq call hcall => h q call ?_⟩
    rw [Snap.cfg]
    exact (Function.update_of_ne hq _ _).trans hcall
  · rintro ⟨hself, hothers⟩ q call hcall
    by_cases hq : q = p
    · subst hq
      cases (x.cfg_self q).symm.trans hcall
      exact hself
    · exact hothers q hq call ((Function.update_of_ne hq _ _).symm.trans hcall)

/-- A running tier check at one of its steps. -/
structure At (identity : NodeIdentity) (p : ℕ) (x : Snap nodeSig NodeCommand Unit) : Prop where
  known : Known identity (x.cfg p)
  keeps : ∃ new, Grows identity x.entered new x.shared
  running : x.call.stage = .running

theorem At.self (h : At identity p x) : CallKnown identity x.shared x.call :=
  (known_cfg.mp h.known).1

theorem At.store (h : At identity p x) (new : List Read) {s : Connector} {l : Visit}
    (hg : Grows identity x.shared new s) (hl : CallKnown identity s { x.call with ledger := l }) :
    At identity p (x.store s l) where
  known := known_cfg.mpr ⟨hl, fun q hq call hcall =>
    ((known_cfg.mp h.known).2 q hq call hcall).mono hg⟩
  keeps := h.keeps.imp' (· ++ new) fun _ hn => hn.trans hg
  running := h.running

theorem At.later (h : At identity p x) {t : ℕ} {s : Connector}
    {o : ℕ → Option (Call nodeSig NodeCommand Unit)} (hI : Known identity ((x.later t s o).cfg p)) :
    At identity p (x.later t s o) :=
  ⟨hI, ⟨[], Grows.refl _⟩, h.running⟩

theorem callKnown_running {s : Connector} {call : Call nodeSig NodeCommand Unit}
    (hrunning : call.stage = .running) (hholding : ∀ c ∈ call.ledger.holding, .given c ∈ s.reads)
    (hmemoized : call.ledger.memoized = true → call.ledger.chainFailed = false)
    (htier : call.ledger.tierPassed = true →
      Unarmed identity ∨ call.ledger.chainFailed = true ∨ s.nodeTierOk = true) :
    CallKnown identity s call :=
  ⟨hholding, hmemoized, htier, fun _ a t hst => by
    rw [hrunning] at hst
    cases hst⟩

/-! ## The steps of a tier check -/

variable {α : Type} {E : NodeError → Snap nodeSig NodeCommand Unit → Prop}

theorem wp_chainName (h : At identity p x) {Q : String → Snap nodeSig NodeCommand Unit → Prop}
    (hQ : ∀ name y, At identity p y → y.call = x.call → y.shared.chainNameCache = some name → Q name y)
    (hE : ∀ e y, At identity p y → y.call = x.call → x.shared.chainNameCache = none → E e y) :
    wp (nodeContract identity) p chainName Q E x := by
  rw [chainName, wp]
  cases hc : x.shared.chainNameCache with
  | some name => exact hQ name x h rfl hc
  | none =>
    refine ⟨h.known, h.keeps, fun r _ t s o _ hI => ?_⟩
    have hl := h.later hI
    cases r with
    | error e => exact hE e _ hl rfl hc
    | ok name =>
      dsimp only
      split_ifs with hempty
      · exact hE _ _ hl rfl hc
      · refine hQ name _ (hl.store [.fetched name] ?_ ?_) rfl rfl
        · exact
            { reads := rfl
              cache := .inr ⟨name, rfl, List.mem_singleton_self _⟩
              given := by simp
              tierOk := .inl rfl
              genesisOk := .inl rfl
              mismatch := .inl }
        · have hself := hl.self
          exact callKnown_running h.running (fun c hc => List.mem_append_left _ (hself.holding c hc))
            hself.memoized hself.tierPassed

theorem wp_attempted {c : Prog α} {Q : Option α → Snap nodeSig NodeCommand Unit → Prop}
    (h : wp (nodeContract identity) p c (fun a => Q (some a)) (fun _ => Q none) x) :
    wp (nodeContract identity) p (attempted c) Q E x :=
  (wp_tryCatch x).mpr ((wp_bind x).mpr h)

/-- The record of a tier check that has not got its chain name yet. -/
def Visit.begun (memoized : Bool) : Visit := ⟨memoized, false, false, none, false⟩

/-- The record of a tier check that has. -/
def Visit.given (memoized : Bool) (chain : Option String) : Visit :=
  ⟨memoized, chain.isNone, false, chain, false⟩

/-- The record of a tier check whose tier step has let it through. -/
def Visit.through (memoized failed : Bool) : Visit := ⟨memoized, failed, false, none, true⟩

theorem wp_givenChain (h : At identity p x) {memoized : Bool} {chain : Option String}
    (hl : x.call.ledger = .begun memoized) (hchain : ∀ c ∈ chain, x.shared.chainNameCache = some c)
    (hnone : chain = none → memoized = false)
    {Q : Option String → Snap nodeSig NodeCommand Unit → Prop}
    (hQ : ∀ y, At identity p y → y.call = { x.call with ledger := .given memoized chain } →
      (∀ c ∈ chain, .given c ∈ y.shared.reads) → Q chain y) :
    wp (nodeContract identity) p (givenChain chain) Q E x := by
  cases chain with
  | some name =>
    have hstore := h.store [.given name]
      (s := { x.shared with reads := x.shared.reads ++ [.given name] })
      (l := .given memoized (some name)) ?_ ?_
    · have hledger : ({ x.call.ledger with holding := some name } : Visit) =
          .given memoized (some name) := by rw [hl]; rfl
      show wp _ p (.put _ { x.call.ledger with holding := some name } _) Q E x
      rw [hledger]
      refine ⟨hstore.known, hstore.keeps, fun r _ t s o _ hI => ?_⟩
      have hlater := hstore.later hI
      exact hQ _ hlater rfl fun c hc => hlater.self.holding c hc
    · exact
        { reads := rfl
          cache := .inl rfl
          given := fun c hc => by
            cases List.mem_singleton.mp hc
            exact .inl (hchain name rfl)
          tierOk := .inl rfl
          genesisOk := .inl rfl
          mismatch := .inl }
    · refine callKnown_running h.running (fun c hc => ?_) (fun _ => rfl) (fun hp => by cases hp)
      cases hc
      exact List.mem_append_right _ (List.mem_singleton_self _)
  | none =>
    refine ⟨h.known, h.keeps, fun r _ t s o _ hI => ?_⟩
    have hlater := h.later hI
    have hledger : ({ x.call.ledger with chainFailed := true } : Visit) = .given memoized none := by
      rw [hl]; rfl
    show Q none ((x.later t s o).store _ { x.call.ledger with chainFailed := true })
    rw [hledger]
    refine hQ _ (hlater.store [] ⟨(List.append_nil _).symm, .inl rfl, by simp, .inl rfl,
      .inl rfl, .inl⟩ ?_) rfl (by simp)
    exact callKnown_running h.running (by simp [Visit.given]) (fun hm => by
      rw [show (Visit.given memoized none).memoized = memoized from rfl, hnone rfl] at hm
      cases hm) (fun hp => by cases hp)

/-- A tier check that refuses has recorded the reason. -/
def Refused (e : NodeError) (y : Snap nodeSig NodeCommand Unit) : Prop :=
  ∃ message, e = .nodeChainMismatch message ∧ y.shared.nodeTierMismatch.isSome = true

theorem wp_examineChain {network : String} (h : At identity p x) (hnet : identity.consensusNetwork = some network)
    {memoized : Bool} {chain : Option String} (hl : x.call.ledger = .given memoized chain)
    (hchain : ∀ c ∈ chain, .given c ∈ x.shared.reads) (hnone : chain = none → memoized = false)
    {Q : Unit → Snap nodeSig NodeCommand Unit → Prop}
    (hQ : ∀ y, At identity p y → y.call.command = x.call.command →
      y.call.ledger = .through memoized chain.isNone → Q () y)
    (hE : ∀ e y, At identity p y → Refused e y → E e y) :
    wp (nodeContract identity) p ((examineChain network chain).bind fun _ => passTier) Q E x := by
  have hmemoized : memoized = true → chain.isNone = false := fun hm => by
    cases chain with
    | some _ => rfl
    | none =>
      rw [hnone rfl] at hm
      cases hm
  refine (wp_bind x).mpr ?_
  rw [examineChain, wp]
  cases hreason : chainTierMismatch network chain with
  | some reason =>
    refine hE _ _ (h.store [] ⟨(List.append_nil _).symm, .inl rfl, by simp, .inl rfl, .inl rfl,
      fun _ => .inl rfl⟩ ?_) ⟨_, rfl, rfl⟩
    refine callKnown_running h.running (by simp) ?_ ?_
    · rw [hl]
      exact hmemoized
    · rw [hl]
      intro hp
      cases hp
  | none =>
    have hok : (x.shared.nodeTierOk || chain.isSome) = x.shared.nodeTierOk ∨
        (x.shared.nodeTierOk || chain.isSome) = true ∧
          ∃ c, .given c ∈ x.shared.reads ∧ Passes identity c := by
      cases chain with
      | none => exact .inl (Bool.or_false _)
      | some c =>
        refine .inr ⟨Bool.or_true _, c, hchain c rfl, fun network' hnet' => ?_⟩
        rw [hnet] at hnet'
        cases hnet'
        exact hreason
    have hgrows : Grows identity x.shared [] { x.shared with
        nodeTierOk := x.shared.nodeTierOk || chain.isSome } :=
      ⟨(List.append_nil _).symm, .inl rfl, by simp, hok, .inl rfl, .inl⟩
    have hledger : ({ x.call.ledger with holding := none, tierPassed := true } : Visit) =
        .through memoized chain.isNone := by
      rw [hl]
      rfl
    show Q () ((x.store _ _).store _ { x.call.ledger with holding := none, tierPassed := true })
    rw [hledger]
    refine hQ _ (h.store [] hgrows ?_) rfl rfl
    refine callKnown_running h.running (by simp [Visit.through]) hmemoized fun _ => .inr ?_
    cases chain with
    | none => exact .inl rfl
    | some c => exact .inr (Bool.or_true _)

/-- A tier check that its tier step has let through. -/
structure Through (identity : NodeIdentity) (p : ℕ) (x y : Snap nodeSig NodeCommand Unit) : Prop where
  here : At identity p y
  command : y.call.command = x.call.command
  passed : y.call.ledger.tierPassed = true
  genesisFailed : y.call.ledger.genesisFailed = false

/-- **The tier step.** -/
theorem wp_assertTier (h : At identity p x) (hl : x.call.ledger = .new)
    {Q : Unit → Snap nodeSig NodeCommand Unit → Prop} (hQ : ∀ y, Through identity p x y → Q () y)
    (hE : ∀ e y, At identity p y → Refused e y → E e y) :
    wp (nodeContract identity) p (assertTier identity.consensusNetwork) Q E x := by
  have hbegun : ({ x.call.ledger with memoized := x.shared.chainNameCache.isSome } : Visit) =
      .begun x.shared.chainNameCache.isSome := by
    rw [hl]
    rfl
  have hsame : Grows identity x.shared [] x.shared := .refl _
  -- A check without a tier, or with a cached pass, goes through at once.
  have hpass : Unarmed identity ∨ x.shared.nodeTierOk = true →
      wp (nodeContract identity) p passTier Q E
        (x.store x.shared (.begun x.shared.chainNameCache.isSome)) := fun hdone => by
    refine hQ _ ⟨h.store [] hsame ?_, rfl, rfl, rfl⟩
    exact callKnown_running h.running (by simp [Visit.begun, Snap.store]) (fun _ => rfl)
      fun _ => hdone.imp_right .inr
  have hhere : At identity p (x.store x.shared (.begun x.shared.chainNameCache.isSome)) :=
    h.store [] hsame (callKnown_running h.running (by simp [Visit.begun]) (fun _ => rfl)
      (fun hp => by cases hp))
  rw [assertTier, wp, wp, hbegun]
  cases hnet : identity.consensusNetwork with
  | none => exact hpass (.inl (by rw [Unarmed, hnet]; rfl))
  | some network =>
    dsimp only
    split_ifs with hskip
    · refine hpass ?_
      rw [Bool.or_eq_true, decide_eq_true_eq] at hskip
      exact hskip.imp_left fun he => by rw [Unarmed, hnet, he]; rfl
    · refine (wp_bind _).mpr (wp_attempted (wp_chainName hhere ?_ ?_))
      · intro name y hy hcall hcache
        refine (wp_bind y).mpr (wp_givenChain hy (by rw [hcall]; rfl) (fun c hc => ?_)
          (fun hc => by cases hc) ?_)
        · cases hc
          exact hcache
        · intro z hz hzcall hgiven
          refine wp_examineChain hz hnet (by rw [hzcall]) hgiven (fun hc => by cases hc)
            (fun u hu hcmd hlu => ?_) hE
          refine hQ u ⟨hu, hcmd.trans ?_, by rw [hlu]; rfl, by rw [hlu]; rfl⟩
          rw [hzcall, hcall]
          rfl
      · intro e y hy hcall hcache
        have hmemo : x.shared.chainNameCache.isSome = false := by
          rw [show x.shared.chainNameCache = none from hcache]
          rfl
        refine (wp_bind y).mpr (wp_givenChain hy (by rw [hcall]; rfl) (by simp) (fun _ => hmemo) ?_)
        intro z hz hzcall hgiven
        refine wp_examineChain hz hnet (by rw [hzcall]) hgiven (fun _ => hmemo)
          (fun u hu hcmd hlu => ?_) hE
        refine hQ u ⟨hu, hcmd.trans ?_, by rw [hlu]; rfl, by rw [hlu]; rfl⟩
        rw [hzcall, hcall]
        rfl

theorem wp_getBlockHash {height : ℕ} (h : At identity p x)
    {Q : String → Snap nodeSig NodeCommand Unit → Prop}
    (hQ : ∀ hash y, At identity p y → y.call = x.call → Q hash y)
    (hE : ∀ e y, At identity p y → y.call = x.call → E e y) :
    wp (nodeContract identity) p (getBlockHash height) Q E x := by
  refine ⟨h.known, h.keeps, fun r _ t s o _ hI => ?_⟩
  have hl := h.later hI
  cases r with
  | error e => exact hE e _ hl rfl
  | ok result =>
    dsimp only
    split_ifs
    · exact hQ _ _ hl rfl
    · exact hE _ _ hl rfl

/-- A tier check that both steps have let through. -/
structure Done (identity : NodeIdentity) (p : ℕ) (y : Snap nodeSig NodeCommand Unit) : Prop where
  here : At identity p y
  passed : y.call.ledger.tierPassed = true
  genesis : Unpinned identity ∨ y.call.ledger.genesisFailed = true ∨ y.shared.nodeGenesisOk = true

/-- **The block-0 step.** -/
theorem wp_assertNodeGenesis (h : At identity p x) (hpassed : x.call.ledger.tierPassed = true)
    {Q : Unit → Snap nodeSig NodeCommand Unit → Prop}
    (hQ : ∀ y, Done identity p y → y.call.command = x.call.command → Q () y)
    (hE : ∀ e y, At identity p y → Refused e y → E e y) :
    wp (nodeContract identity) p (assertNodeGenesis identity.chainGenesisHash) Q E x := by
  show wp (nodeContract identity) p (if _ then _ else _) Q E x
  split_ifs with hskip
  · rw [Bool.or_eq_true] at hskip
    exact hQ x ⟨h, hpassed, hskip.imp_right .inr⟩ rfl
  · refine (wp_bind x).mpr (wp_attempted (wp_getBlockHash h ?_ ?_))
    · intro hash y hy hcall
      have hself := hy.self
      rw [examineGenesis, wp]
      cases hreason : chainGenesisMismatch identity.chainGenesisHash hash with
      | some reason =>
        refine hE _ _ (hy.store [.genesis hash] ⟨rfl, .inl rfl, by simp, .inl rfl, .inl rfl,
          fun _ => .inl rfl⟩ ?_) ⟨_, rfl, rfl⟩
        exact callKnown_running hy.running (fun c hc => List.mem_append_left _ (hself.holding c hc))
          hself.memoized hself.tierPassed
      | none =>
        have hread : .genesis hash ∈ [Read.genesis hash] ∧ Matches identity hash :=
          ⟨List.mem_singleton_self _, hreason⟩
        refine hQ _ ⟨hy.store [.genesis hash] ⟨rfl, .inl rfl, by simp, .inl rfl,
          .inr ⟨rfl, hash, hread⟩, fun _ => .inr ⟨hash, hread⟩⟩ ?_, ?_, .inr (.inr rfl)⟩
          (congrArg Call.command hcall)
        · exact callKnown_running hy.running
            (fun c hc => List.mem_append_left _ (hself.holding c hc)) hself.memoized hself.tierPassed
        · exact (congrArg (fun c => c.ledger.tierPassed) hcall).trans hpassed
    · intro e y hy hcall
      have hself := hy.self
      have hcommand : y.call.command = x.call.command := congrArg Call.command hcall
      refine hQ _ ⟨hy.store [] ⟨(List.append_nil _).symm, .inl rfl, by simp, .inl rfl, .inl rfl,
        .inl⟩ ?_, ?_, .inr (.inl rfl)⟩ hcommand
      · exact callKnown_running hy.running hself.holding hself.memoized hself.tierPassed
      · exact (congrArg (fun c => c.ledger.tierPassed) hcall).trans hpassed

/-! ## Every call -/

/-- What a call that returns leaves behind. -/
def ReturnedTier (identity : NodeIdentity) (command : NodeCommand) (p : ℕ) (_ : Unit)
    (y : Snap nodeSig NodeCommand Unit) : Prop :=
  At identity p y ∧ y.call.command = command ∧ (command = .assertNodeTier → Done identity p y)

/-- What a call that throws leaves behind. -/
def ThrewTier (identity : NodeIdentity) (command : NodeCommand) (p : ℕ) (e : NodeError)
    (y : Snap nodeSig NodeCommand Unit) : Prop :=
  At identity p y ∧ (command = .assertNodeTier → Refused e y)

theorem at_start {g : NodeCfg} (hI : Known identity g) (command : NodeCommand) :
    At identity p (g.enter (freshCall Visit.new command g.clock)) where
  known := known_cfg.mpr ⟨callKnown_running rfl (by simp [Cfg.enter, freshCall, Visit.new])
    (fun _ => rfl) (fun hp => by cases hp), fun q _ call hcall => hI q call hcall⟩
  keeps := ⟨[], .refl _⟩
  running := rfl

/-- The record of a call that has ended says as much as when it ran. -/
theorem CallKnown.finish {s : Connector} {call : Call nodeSig NodeCommand Unit}
    (h : CallKnown identity s call) {stage : Stage nodeSig Unit}
    (hstage : call.command = .assertNodeTier → ∀ a t, stage = .returned a t →
      call.ledger.tierPassed = true ∧
        (Unpinned identity ∨ call.ledger.genesisFailed = true ∨ s.nodeGenesisOk = true)) :
    CallKnown identity s { call with stage := stage } :=
  ⟨h.holding, h.memoized, h.tierPassed, hstage⟩

theorem nodeTier_meets (identity : NodeIdentity) : Meets (nodeProgram identity) Visit.new
    (nodeContract identity) (ReturnedTier identity) (ThrewTier identity) where
  pass := fun g t _ hI => hI
  start := by
    intro g p command _ hI
    have hat := at_start (p := p) hI command
    cases command with
    | assertNodeTier =>
      refine (wp_bind _).mpr (wp_assertTier hat rfl (fun y hy => ?_) fun e y hy he => ⟨hy, fun _ => he⟩)
      exact wp_assertNodeGenesis hy.here hy.passed
        (fun z hz hcmd => ⟨hz.here, hcmd.trans hy.command, fun _ => hz⟩) fun e z hz he => ⟨hz, fun _ => he⟩
    | chainName =>
      refine (wp_bind _).mpr (wp_chainName hat ?_ ?_)
      · intro name y hy hcall _
        exact ⟨hy, congrArg Call.command hcall, nofun⟩
      · intro e y hy hcall _
        exact ⟨hy, nofun⟩
  returned := by
    rintro command p a x ⟨hat, hcmd, hdone⟩
    have hothers := (known_cfg.mp hat.known).2
    refine ⟨known_cfg.mpr ⟨hat.self.finish fun hc b t _ => ?_, hothers⟩, hat.keeps⟩
    have hd := hdone (hcmd.symm.trans hc)
    exact ⟨hd.passed, hd.genesis⟩
  threw := by
    rintro command p e x ⟨hat, -⟩
    have hothers := (known_cfg.mp hat.known).2
    refine ⟨known_cfg.mpr ⟨hat.self.finish fun _ b t hst => ?_, hothers⟩, hat.keeps⟩
    cases hst

abbrev NodeSound (identity : NodeIdentity) (w : NodeWorld) : Prop :=
  Sound (nodeContract identity) (ReturnedTier identity) (ThrewTier identity) w

theorem nodeRun_sound (identity : NodeIdentity) (events : List NodeEvent) :
    NodeSound identity (nodeRun identity events) :=
  invariant_run (nodeTier_meets identity) (by rintro p call ⟨⟩) events

/-! ## Stretches of a run -/

variable {w : NodeWorld}

/-- The world after some more events. -/
def more (identity : NodeIdentity) (w : NodeWorld) (events : List NodeEvent) : NodeWorld :=
  run (nodeProgram identity) Visit.new w events

theorem nodeRun_append (events more' : List NodeEvent) :
    nodeRun identity (events ++ more') = more identity (nodeRun identity events) more' :=
  List.foldl_append

/-- **One step grows the connector.** -/
theorem grows_step (hw : NodeSound identity w) (ev : NodeEvent) :
    ∃ new, Grows identity w.cfg.shared new (step (nodeProgram identity) Visit.new w ev).cfg.shared := by
  cases hruns : ev.runs w with
  | some p =>
    obtain ⟨y, hentered, ⟨new, hg⟩, hshared, -⟩ := step_keeps (nodeTier_meets identity) hw hruns
    exact ⟨new, by rw [hshared, ← hentered]; exact hg⟩
  | none =>
    refine ⟨[], ?_⟩
    have hsame : (step (nodeProgram identity) Visit.new w ev).cfg.shared = w.cfg.shared := by
      cases ev with
      | start command ds => cases hruns
      | resume q reply ds =>
        cases hpd : w.pending q with
        | none => simp only [step, hpd]
        | some pd => simp [Event.runs, hpd] at hruns
      | pass d => rfl
    rw [hsame]
    exact .refl _

theorem sound_more (hw : NodeSound identity w) (events : List NodeEvent) :
    NodeSound identity (more identity w events) := by
  induction events generalizing w with
  | nil => exact hw
  | cons ev events ih => exact ih (sound_step (nodeTier_meets identity) hw ev)

/-- **A stretch of a run grows the connector.** -/
theorem grows_more (hw : NodeSound identity w) (events : List NodeEvent) :
    ∃ new, Grows identity w.cfg.shared new (more identity w events).cfg.shared := by
  induction events generalizing w with
  | nil => exact ⟨[], .refl _⟩
  | cons ev events ih =>
    obtain ⟨new, hg⟩ := grows_step hw ev
    obtain ⟨new', hg'⟩ := ih (sound_step (nodeTier_meets identity) hw ev)
    exact ⟨new ++ new', hg.trans hg'⟩

end XChain.NodeTier
