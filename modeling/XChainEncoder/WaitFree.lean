import XChainEncoder.BuildStages
import XChainEncoder.BuildWrites
import XChainEncoder.FundableRequests
import XChainEncoder.Lib.OracleRuns

/-!
# Wait-free builds

Greedy funding builds that await nothing between their first claim and their last.

* `WaitFree`, `waitFree_of_carriers`: P2SH, P2WSH, envelope and payment-only builds over inputs with
  a witness are wait-free;
* `selectionClaims`: the claims selection computes from one reservation map;
* `instant_selectLoop`: the walk over the candidates is a single step;
* `buildFromBound_clock`: **over spendable candidates a build succeeds at every time or at none**;
* `SucceedsAlone`, `succeedsAlone`: what a build that succeeds alone comes to.
-/

namespace XChain

open PushScript Coroutine

/-- What the steps before the first claim come to under the replies. -/
def Prepares (enc : Encoder) (reply : Replies sig) (request : TxRequest) (pre : Prepared) : Prop :=
  ((prepareBuild enc request).alone reply 0 Reservations.empty Ledger.empty).1 = .ok pre

/-- A greedy funding build with no await between the bound key and the end of selection. -/
structure WaitFree (enc : Encoder) (reply : Replies sig) (request : TxRequest) : Prop where
  funding : request.p2shHash = none
  greedy : request.exactInputs = false
  emits : ∀ pre bound plan, Prepares enc reply request pre →
    planBuild enc request pre bound = .ok plan → Instant (emitOutputs enc plan)
  selects : ∀ pre bound plan, Prepares enc reply request pre →
    planBuild enc request pre bound = .ok plan →
    ∀ u ∈ pre.candidates, Instant (selectedInput enc plan u (nestedRedeem enc plan u))

variable {enc : Encoder} {request : TxRequest} {reply : Replies sig} {plan : Plan}
  {emitted : Emitted} {pre : Prepared} {bound : Bound}

theorem Prepares.preparedFor (h : Prepares enc reply request pre) : PreparedFor enc request pre :=
  (alone_always (returns_prepareBuild request) Reservations.empty Ledger.empty).1 pre h

theorem prepares_iff (clock : ℕ) (s : Reservations) (l : Ledger) :
    ((prepareBuild enc request).alone reply clock s l).1 = .ok pre ↔
      Prepares enc reply request pre := by
  rw [Prepares, quiet_clock (quiet_prepareBuild request) clock 0 s Reservations.empty l Ledger.empty]

/-! ## Which builds are wait-free -/

/-- A carrier of a funding build that is emitted without an await. -/
def WaitFreeCarrier (prepared : PreparedData) : Prop :=
  prepared.dataBufferArray = [] ∨ prepared.encoding = .p2sh ∨ prepared.encoding = .p2wsh ∨
    prepared.encoding = .taproot

theorem instant_emitDataOutputs (hfunding : plan.request.p2shHash = none)
    (price : RevealOutputsPrice) (chunks : List Bytes)
    (h : chunks = [] ∨ plan.prepared.encoding = .p2sh ∨ plan.prepared.encoding = .p2wsh ∨
      plan.prepared.encoding = .taproot) (e : Emission) :
    Instant (emitDataOutputs enc plan price chunks e) := by
  induction chunks generalizing e with
  | nil => trivial
  | cons chunk rest ih =>
    have hkinds := h.resolve_left (List.cons_ne_nil chunk rest)
    refine instant_bind ?_ fun e => ih (.inr hkinds) e
    unfold emitChunk
    rcases hkinds with hk | hk | hk <;> rw [hk]
    · refine instant_bind (instant_ofExcept (σ := sig) _) fun e => ?_
      rw [hfunding]
      exact instant_ofExcept (σ := sig) _
    · refine instant_bind (instant_ofExcept (σ := sig) _) fun e => ?_
      rw [hfunding]
      exact instant_ofExcept (σ := sig) _
    · exact instant_ofExcept (σ := sig) _

/-- An input with a witness is added without its previous transaction. -/
theorem instant_selectedInput {u : Utxo} (hattach : plan.request.attachPrevTx = false)
    (hwitness : ((nestedRedeem enc plan u).isSome || isSegwitUTXO u) = true) :
    Instant (selectedInput enc plan u (nestedRedeem enc plan u)) := by
  unfold selectedInput
  dsimp only
  rw [if_pos hwitness, hattach]
  exact trivial

/-- **P2SH, P2WSH, envelope and payment-only builds over inputs with a witness are wait-free.** -/
theorem waitFree_of_carriers (hfunding : request.p2shHash = none)
    (hgreedy : request.exactInputs = false) (hattach : request.attachPrevTx = false)
    (hcarrier : ∀ prepared, preparedPayload enc request = .ok prepared → WaitFreeCarrier prepared)
    (hwitness : ∀ pre, Prepares enc reply request pre → ∀ u ∈ pre.candidates,
      ((nestedP2wpkhRedeem enc.lib enc.network request.pubkey request.compressedPubKey u).isSome ||
        isSegwitUTXO u) = true) : WaitFree enc reply request where
  funding := hfunding
  greedy := hgreedy
  emits pre bound plan hpre hplan := by
    obtain ⟨hreq, -, hprepared⟩ := planBuild_eq_ok hpre.preparedFor hplan
    refine instant_bind (instant_ofExcept (σ := sig) _) fun price => ?_
    refine instant_bind (instant_emitDataOutputs (hreq ▸ hfunding) price _
      (hcarrier plan.prepared hprepared) _) fun e => ?_
    exact instant_bind (instant_ofExcept (σ := sig) _) fun _ => trivial
  selects pre bound plan hpre hplan u hu := by
    obtain ⟨hreq, -, -⟩ := planBuild_eq_ok hpre.preparedFor hplan
    refine instant_selectedInput (hreq ▸ hattach) ?_
    rw [nestedRedeem, hreq]
    exact hwitness pre hpre u hu

/-! ## What selection claims -/

/-- Planning, emission and selection from a bound key. -/
def selectFrom (enc : Encoder) (request : TxRequest) (pre : Prepared) (bound : Bound) :
    Prog Selection := do
  let plan ← Coro.ofExcept (σ := sig) (planBuild enc request pre bound)
  let r ← emitOutputs enc plan
  let start ← Coro.ofExcept (σ := sig) (initSelection request.fee r.2)
  selectInputs enc plan r.2 start

/-- The claims selection computes from the reservations `s`: the first free candidate at `now`, and
what the walk over the rest claims at `now'`. -/
def selectionClaims (enc : Encoder) (reply : Replies sig) (request : TxRequest) (now now' : ℕ)
    (s : Reservations) : List Claim :=
  match ((prepareBuild enc request).alone reply 0 Reservations.empty Ledger.empty).1 with
  | .error _ => []
  | .ok pre =>
    let (bound, l, s) := claimFirstFreeInput now pre.candidates Ledger.empty s
    ((selectFrom enc request pre bound).alone reply now' s l).2.2.claims

theorem selectionClaims_eq (hpre : Prepares enc reply request pre) (now now' : ℕ)
    (s : Reservations) :
    selectionClaims enc reply request now now' s =
      ((selectFrom enc request pre (claimFirstFreeInput now pre.candidates Ledger.empty s).1).alone
        reply now' (claimFirstFreeInput now pre.candidates Ledger.empty s).2.2
        (claimFirstFreeInput now pre.candidates Ledger.empty s).2.1).2.2.claims := by
  unfold selectionClaims
  rw [hpre]

/-- What a wait-free build has worked out before it selects. -/
def beforeSelection (enc : Encoder) (reply : Replies sig) (request : TxRequest) (pre : Prepared)
    (bound : Bound) : Except BuildError (Plan × RevealOutputsPrice × Emitted × Selection) := do
  let plan ← planBuild enc request pre bound
  let r ← ((emitOutputs enc plan).alone reply 0 Reservations.empty Ledger.empty).1
  let start ← initSelection request.fee r.2
  return (plan, r.1, r.2, start)

/-- The checks between selection and settlement. -/
def checkSelected (plan : Plan) (emitted : Emitted) (sel : Selection) : Except BuildError Unit := do
  refuseEmptySelection sel
  refuseFirstInputRace plan emitted.emission.txidFirstInput sel.psbt

theorem beforeSelection_plan {q : Plan × RevealOutputsPrice × Emitted × Selection}
    (h : beforeSelection enc reply request pre bound = .ok q) :
    planBuild enc request pre bound = .ok q.1 := by
  obtain ⟨plan, hplan, h⟩ := bind_eq_ok.mp h
  obtain ⟨r, -, h⟩ := bind_eq_ok.mp h
  obtain ⟨start, -, h⟩ := bind_eq_ok.mp h
  cases h
  exact hplan

/-- Under the replies a wait-free build emits its outputs in one step. -/
theorem WaitFree.emitOutputs_eq (h : WaitFree enc reply request) (hpre : Prepares enc reply request pre)
    (hplan : planBuild enc request pre bound = .ok plan) :
    emitOutputs enc plan = Coro.ofExcept (σ := sig)
      ((emitOutputs enc plan).alone reply 0 Reservations.empty Ledger.empty).1 :=
  ofExcept_of_instant (h.emits pre bound plan hpre hplan) quiet_emitOutputs Reservations.empty
    Ledger.empty

theorem WaitFree.selectFrom_eq (h : WaitFree enc reply request)
    (hpre : Prepares enc reply request pre) (bound : Bound) :
    selectFrom enc request pre bound =
      (Coro.ofExcept (σ := sig) (beforeSelection enc reply request pre bound)).bind fun q =>
        selectInputs enc q.1 q.2.2.1 q.2.2.2 := by
  unfold beforeSelection
  rw [ofExcept_bind_bind]
  unfold selectFrom
  cases hplan : planBuild enc request pre bound with
  | error e => rfl
  | ok plan =>
    show (emitOutputs enc plan).bind _ = (Coro.ofExcept (σ := sig) (_ >>= _)).bind _
    rw [ofExcept_bind_bind, h.emitOutputs_eq hpre hplan]
    cases ((emitOutputs enc plan).alone reply 0 Reservations.empty Ledger.empty).1 with
    | error e => rfl
    | ok r =>
      show _ = (Coro.ofExcept (σ := sig) (_ >>= _)).bind _
      rw [ofExcept_bind_bind]
      rfl

/-- A wait-free build: its outputs, its selection, and its settlement. -/
theorem WaitFree.buildFromBound_eq (h : WaitFree enc reply request)
    (hpre : Prepares enc reply request pre) (bound : Bound) :
    buildFromBound enc request pre bound =
      (Coro.ofExcept (σ := sig) (beforeSelection enc reply request pre bound)).bind fun q =>
        (selectInputs enc q.1 q.2.2.1 q.2.2.2).bind fun sel =>
          (Coro.ofExcept (σ := sig) (checkSelected q.1 q.2.2.1 sel)).bind fun _ =>
            settleBuild enc q.1 q.2.1 q.2.2.1 sel := by
  unfold beforeSelection
  rw [ofExcept_bind_bind]
  unfold buildFromBound
  cases hplan : planBuild enc request pre bound with
  | error e => rfl
  | ok plan =>
    have hnoreveal : plan.isReveal = false := by
      simp [Plan.isReveal, (planBuild_eq_ok hpre.preparedFor hplan).1, h.funding]
    show (emitOutputs enc plan).bind _ = (Coro.ofExcept (σ := sig) (_ >>= _)).bind _
    rw [ofExcept_bind_bind, h.emitOutputs_eq hpre hplan]
    cases ((emitOutputs enc plan).alone reply 0 Reservations.empty Ledger.empty).1 with
    | error e => rfl
    | ok r =>
      obtain ⟨price, emitted⟩ := r
      show _ = (Coro.ofExcept (σ := sig) (_ >>= _)).bind _
      rw [ofExcept_bind_bind]
      refine congrArg (Coro.bind (Coro.ofExcept (σ := sig) (initSelection request.fee emitted)))
        (funext fun start => ?_)
      show (selectFundingInputs enc plan emitted start).bind _ =
        (selectInputs enc plan emitted start).bind _
      unfold selectFundingInputs
      rw [hnoreveal, if_neg Bool.false_ne_true]
      simp only [Coro.bind_eq, Coro.bind_bind]
      refine congrArg (Coro.bind _) (funext fun sel => ?_)
      unfold checkSelected
      rw [ofExcept_bind_bind]
      rfl

/-! ## One step -/

theorem instant_refuseCappedSelection {outputSatoshis : ℤ} {now index : ℕ} {rest : List Utxo}
    {acc : Selection} :
    Instant (refuseCappedSelection enc plan outputSatoshis now index rest acc) := by
  unfold refuseCappedSelection
  split_ifs
  · trivial
  · exact fun _ _ => trivial

variable (enc plan emitted) in
theorem instant_selectLoop (now : ℕ) (us : List Utxo) (index : ℕ) (acc : Selection)
    (h : ∀ u ∈ us, Instant (selectedInput enc plan u (nestedRedeem enc plan u))) :
    Instant (selectLoop enc plan emitted now index us acc) := by
  induction us generalizing index acc with
  | nil => trivial
  | cons u rest ih =>
    refine instant_bind ?_ fun r => ?_
    · rw [selectStep_eq]
      refine instant_bind instant_refuseCappedSelection fun _ => ?_
      refine instant_bind (instant_ofExcept (σ := sig) _) fun _ s l => ?_
      show Instant (if _ then _ else _)
      split_ifs
      · trivial
      · refine instant_bind (instant_ofExcept (σ := sig) _) fun _ => ?_
        refine instant_bind (h u List.mem_cons_self) fun input => ?_
        exact instant_bind (instant_ofExcept (σ := sig) _) fun _ => trivial
    · obtain ⟨done, acc'⟩ := r
      cases done with
      | true => trivial
      | false => exact ih (index + 1) acc' fun v hv => h v (List.mem_cons_of_mem u hv)

/-- What selection leaves alone: the recent builds, and the txid of the call's own build. -/
def SameBuild (builds : Text → Option ℕ) (s : Reservations) (l : Ledger) : Prop :=
  s.recentBuilds = builds ∧ l.buildTxid = none

theorem ClaimsOnly.sameBuild {builds : Text → Option ℕ} {n : ℕ} {s s' : Reservations}
    {l l' : Ledger} (h : ClaimsOnly n s l s' l') (hsame : SameBuild builds s l) :
    SameBuild builds s' l' :=
  ⟨h.recentBuilds.trans hsame.1, h.buildTxid.trans hsame.2⟩

theorem sameBuild_alone {α : Type} (reply : Replies sig) {builds : Text → Option ℕ} {clock : ℕ} {c : Prog α}
    {s : Reservations} {l : Ledger} (hc : Writes (σ := sig) ClaimsOnly c clock s l)
    (h : SameBuild builds s l) : SameBuild builds (c.alone reply clock s l).2.1
      (c.alone reply clock s l).2.2 :=
  alone_writes hc h fun _ _ _ _ hsame hw => hw.sameBuild hsame

theorem claimFirstFreeInput_sameBuild (now : ℕ) (utxos : List Utxo) (s : Reservations) :
    SameBuild s.recentBuilds (claimFirstFreeInput now utxos Ledger.empty s).2.2
      (claimFirstFreeInput now utxos Ledger.empty s).2.1 :=
  (claimsOnly_claimFirstFreeInput le_rfl utxos).sameBuild ⟨rfl, rfl⟩

theorem claimFirstFreeInput_mem (now : ℕ) {utxos : List Utxo} {l : Ledger} {s : Reservations}
    {u : Utxo} (h : u ∈ (claimFirstFreeInput now utxos l s).1.utxos) : u ∈ utxos := by
  have hperm := (findFreeInput_spec (le_refl now) utxos [] (s.evictExpiredReservations now)).2.2
  unfold claimFirstFreeInput at h
  rcases hr : findFreeInput now [] utxos (s.evictExpiredReservations now) with ⟨_ | found, s'⟩
  · simpa only [hr] using h
  · rw [hr] at hperm
    simp only [hr] at h
    simpa using (hperm found rfl).1.mem_iff.mp h

/-! ## The same at every time -/

section Clock

variable {clock clock' : ℕ}

theorem extend_clock (acc : Selection) (index : ℕ) (u : Utxo) :
    acc.extend enc plan emitted reply clock index u =
      acc.extend enc plan emitted reply clock' index u := by
  unfold Selection.extend resolvedInput
  dsimp only
  rw [quiet_clock (quiet_selectedInput u _) clock clock' Reservations.empty Reservations.empty
    Ledger.empty Ledger.empty]

theorem returns_refuseCappedSelection {outputSatoshis : ℤ} {now index : ℕ} {rest : List Utxo}
    {acc : Selection} : Returns (fun _ => acc.selectedInputCount < maxUtxoCount)
      (refuseCappedSelection enc plan outputSatoshis now index rest acc) := by
  unfold refuseCappedSelection
  split_ifs with h
  · exact h
  · exact fun _ _ => trivial

theorem selectLoop_cons {now : ℕ} {us : List Utxo} {u : Utxo} {index : ℕ} {acc : Selection} :
    selectLoop enc plan emitted now index (u :: us) acc =
      (selectStep enc plan emitted now index u us acc).bind fun r =>
        if r.1 then .ret r.2 else selectLoop enc plan emitted now (index + 1) us r.2 := rfl

/-- Selection over spendable candidates comes to the same at every time. -/
theorem selectLoop_clock {sel : Selection} (us : List Utxo) {s s' : Reservations} {l l' : Ledger}
    (index : ℕ) (acc : Selection) (hnodup : (us.map outpointKey).Nodup)
    (hfree : ∀ u ∈ us, Spendable plan clock s u) (hfree' : ∀ u ∈ us, Spendable plan clock' s' u)
    (h : ((selectLoop enc plan emitted clock index us acc).alone reply clock s l).1 = .ok sel) :
    ((selectLoop enc plan emitted clock' index us acc).alone reply clock' s' l').1 = .ok sel := by
  induction us generalizing s s' l l' index acc with
  | nil => exact h
  | cons u rest ih =>
    rw [selectLoop_cons] at h ⊢
    obtain ⟨r, s₁, l₁, hstep, hrest⟩ := alone_bind_ok.mp h
    have hcap : acc.selectedInputCount < maxUtxoCount := by
      obtain ⟨_, _, _, hpassed, -⟩ := alone_bind_ok.mp (congrArg Prod.fst hstep)
      exact (alone_always returns_refuseCappedSelection s l).1 _ (congrArg Prod.fst hpassed)
    obtain ⟨hfailed, hadded⟩ := alone_selectStep (l := l) rest hcap (hfree u List.mem_cons_self)
    cases hextend : acc.extend enc plan emitted reply clock index u with
    | error e => cases (congrArg Prod.fst hstep).symm.trans (hfailed e hextend)
    | ok acc' =>
      have hadded' := (alone_selectStep (l := l') rest hcap (hfree' u List.mem_cons_self)).2 acc'
        ((extend_clock acc index u).symm.trans hextend)
      obtain ⟨hr, rfl, rfl⟩ := Prod.mk.injEq .. ▸ (hadded acc' hextend).symm.trans hstep
      obtain rfl := Except.ok.inj hr
      refine alone_bind_ok.mpr ⟨_, _, _, hadded', ?_⟩
      cases henough : acc'.enough enc plan emitted with
      | true =>
        rw [henough, if_pos rfl, alone_ret] at hrest
        rw [if_pos rfl, alone_ret]
        exact hrest
      | false =>
        rw [henough, if_neg Bool.false_ne_true] at hrest
        rw [if_neg Bool.false_ne_true]
        have hapart : ∀ v ∈ rest, outpointKey v ≠ outpointKey u := fun v hv heq =>
          (List.nodup_cons.mp hnodup).1 (heq ▸ List.mem_map_of_mem hv)
        refine ih (index + 1) acc' (List.nodup_cons.mp hnodup).2 (fun v hv => ?_) (fun v hv => ?_) hrest
        · exact (skipReservedInput_spendable (hfree u List.mem_cons_self)).2 v (hapart v hv)
            (hfree v (List.mem_cons_of_mem u hv))
        · exact (skipReservedInput_spendable (hfree' u List.mem_cons_self)).2 v (hapart v hv)
            (hfree' v (List.mem_cons_of_mem u hv))

/-- The build may spend each of its candidates. -/
def AllSpendable (bound : Bound) (clock : ℕ) (s : Reservations) : Prop :=
  ∀ u ∈ bound.utxos, bound.firstReservedOutpoint = some (outpointKey u) ∨
    (s.isOutpointReserved (outpointKey u) clock).1 = false

theorem AllSpendable.evict {s : Reservations} (h : AllSpendable bound clock s) :
    AllSpendable bound clock (s.evictExpiredReservations clock) := fun u hu =>
  (h u hu).imp_right ((Sweeps.evictExpiredReservations le_rfl).isOutpointReserved_eq _).trans

/-- **Over spendable candidates a build succeeds at every time or at none.** -/
theorem buildFromBound_clock {s s' : Reservations} {l l' : Ledger} {built : Built}
    (hfunding : request.p2shHash = none) (hpre : PreparedFor enc request pre)
    (hnodup : (bound.utxos.map outpointKey).Nodup) (hfree : AllSpendable bound clock s)
    (hfree' : AllSpendable bound clock' s')
    (h : ((buildFromBound enc request pre bound).alone reply clock s l).1 = .ok built) :
    ((buildFromBound enc request pre bound).alone reply clock' s' l').1 = .ok built := by
  obtain ⟨plan, hplan, hbuild⟩ := alone_bind_ofExcept_ok.mp h
  obtain ⟨hreq, rfl, -⟩ := planBuild_eq_ok hpre hplan
  have hnoreveal : plan.isReveal = false := by simp [Plan.isReveal, hreq, hfunding]
  obtain ⟨r, hemits, hbuild⟩ := (alone_bind_quiet_ok quiet_emitOutputs).mp hbuild
  obtain ⟨start, hstart, hbuild⟩ := alone_bind_ofExcept_ok.mp hbuild
  obtain ⟨sel, s₁, l₁, hselect, hsettle⟩ := alone_bind_ok.mp hbuild
  have hselect' : ((selectFundingInputs enc plan r.2 start).alone reply clock' s' l').1 = .ok sel := by
    replace hselect := congrArg Prod.fst hselect
    unfold selectFundingInputs at hselect ⊢
    rw [hnoreveal] at hselect ⊢
    -- The walk after its sweep, and the two checks of what it comes to.
    obtain ⟨sel', s₂, l₂, hwalk, hchecks⟩ := alone_bind_ok.mp hselect
    obtain ⟨_, hempty, hchecks⟩ := alone_bind_ofExcept_ok.mp hchecks
    obtain ⟨_, hrace, hdone⟩ := alone_bind_ofExcept_ok.mp hchecks
    have hwalk' : ((selectInputs enc plan r.2 start).alone reply clock' s' l').1 = .ok sel' :=
      selectLoop_clock plan.bound.utxos 0 start hnodup hfree.evict hfree'.evict
        (congrArg Prod.fst hwalk)
    rcases hr : (selectInputs enc plan r.2 start).alone reply clock' s' l' with ⟨r', s₃, l₃⟩
    rw [hr] at hwalk'
    obtain rfl : r' = .ok sel' := hwalk'
    refine alone_bind_ok.mpr ⟨sel', s₃, l₃, hr, ?_⟩
    exact alone_bind_ofExcept_ok.mpr ⟨(), hempty, alone_bind_ofExcept_ok.mpr ⟨(), hrace, hdone⟩⟩
  rcases hr : (selectFundingInputs enc plan r.2 start).alone reply clock' s' l' with ⟨r', s₂, l₂⟩
  rw [hr] at hselect'
  obtain rfl : r' = .ok sel := hselect'
  refine alone_bind_ofExcept_ok.mpr ⟨plan, hplan, (alone_bind_quiet_ok quiet_emitOutputs).mpr ⟨r, ?_, ?_⟩⟩
  · rwa [quiet_clock quiet_emitOutputs clock' clock s' s l' l]
  · refine alone_bind_ofExcept_ok.mpr ⟨start, hstart, alone_bind_ok.mpr ⟨sel, s₂, l₂, hr, ?_⟩⟩
    rwa [quiet_clock (quiet_settleBuild _) clock' clock s₂ s₁ l₂ l₁]

end Clock

/-! ## Alone -/

/-- What a build that succeeds alone from `s` comes to, from every state that lets it spend its
candidates. -/
structure SucceedsAlone (enc : Encoder) (reply : Replies sig) (request : TxRequest) (clock : ℕ)
    (s : Reservations) (pre : Prepared) (built : Built) (txid : Text) : Prop where
  prepares : Prepares enc reply request pre
  builds : ∀ now s' l', AllSpendable (boundTo pre.candidates) now s' →
    ((buildFromBound enc request pre (boundTo pre.candidates)).alone reply now s' l').1 = .ok built
  named : built.psbt.unsignedTxid enc.lib = .ok txid
  unbuilt : ∀ e, s.recentBuilds txid = some e → e ≤ clock

/-- **A greedy funding build that succeeds alone from an empty reservation map.** -/
theorem succeedsAlone {clock : ℕ} {s : Reservations} {r : TxResult}
    (hfunding : request.p2shHash = none) (hgreedy : request.exactInputs = false)
    (hempty : s.outpointReservations = fun _ => none)
    (h : ((createTransaction enc request).alone reply clock s Ledger.empty).1 = .ok r) :
    ∃ pre built txid, SucceedsAlone enc reply request clock s pre built txid := by
  have hbuild : ∃ b, ((buildSteps enc request).alone reply clock s Ledger.empty).1 = .ok b := by
    cases hb : ((buildSteps enc request).alone reply clock s Ledger.empty).1 with
    | ok b => exact ⟨b, rfl⟩
    | error e => cases h.symm.trans (createTransaction_error.mpr hb)
  obtain ⟨b, hbuild⟩ := hbuild
  obtain ⟨pre, hpre, hbuild⟩ := (alone_bind_quiet_ok (quiet_prepareBuild request)).mp hbuild
  have hprepares := (prepares_iff clock s Ledger.empty).mp hpre
  have hfree : ∀ u ∈ pre.candidates, (s.isOutpointReserved (outpointKey u) clock).1 = false := by
    intro u _
    unfold Reservations.isOutpointReserved
    rw [hempty]
  obtain ⟨s₂, l₂, hbind, hspendable⟩ := alone_bindObfuscationKey reply
    (l := Ledger.empty) hprepares.preparedFor.nodup hfree
  have hkeeps : SameBuild s.recentBuilds s₂ l₂ := by
    have hne := hprepares.preparedFor.nonempty hfunding
    rw [bindObfuscationKey_greedy hne] at hbind
    obtain ⟨-, rfl, rfl⟩ := Prod.mk.injEq .. ▸ hbind
    exact claimFirstFreeInput_sameBuild clock pre.candidates s
  obtain ⟨bound, s₃, l₃, hbind', hbuild⟩ := alone_bind_ok.mp hbuild
  rw [hgreedy, hbind] at hbind'
  cases hbind'
  obtain ⟨built, s₄, l₄, hbuilt, hfinish⟩ := alone_bind_ok.mp hbuild
  have hkeeps' : s₄.recentBuilds = s.recentBuilds := by
    have hkept := sameBuild_alone reply
      (writes_buildFromBound enc request pre (boundTo pre.candidates) clock s₂ l₂) hkeeps
    rw [hbuilt] at hkept
    exact hkept.1
  rw [finishBuild_eq] at hfinish
  obtain ⟨txid, htxid, hdup⟩ := alone_bind_ofExcept_ok.mp hfinish
  have hnew : ((s₄.evictExpiredRecentBuilds clock).recentBuilds txid).isSome = false := by
    unfold Reservations.refuseDuplicateBuild at hdup
    dsimp only at hdup
    split_ifs at hdup with hsome
    · cases hdup
    · simpa using hsome
  refine ⟨pre, built, txid, hprepares, fun now s' l' hs' => ?_, htxid, fun e he => ?_⟩
  · exact buildFromBound_clock hfunding hprepares.preparedFor hprepares.preparedFor.nodup hspendable
      hs' (congrArg Prod.fst hbuilt)
  · by_contra hlive
    have hentry : (s₄.evictExpiredRecentBuilds clock).recentBuilds txid = some e := by
      simp only [Reservations.evictExpiredRecentBuilds, hkeeps', he]
      simp [Nat.lt_of_not_le hlive]
    rw [hentry] at hnew
    cases hnew

end XChain
