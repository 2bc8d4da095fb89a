import XChainEncoder.Exclusivity
import XChainEncoder.SelectionCoverage
import XChainEncoder.BuildStages

/-!
# Exact-input mode

A request that names its inputs gets these inputs or no transaction.

* `filterAndOrderUtxos_exact`: **nothing is filtered, merged or reordered**;
* `returns_selectLoop_exact`: selection walks to the end of the list and skips nothing;
* `returns_buildSteps_exact`: **a finished build spends exactly the named outpoints**, in order.
-/

namespace XChain

open PushScript Coroutine

variable {enc : Encoder} {request : TxRequest}

/-! ## The candidates -/

theorem refuseDuplicateOutpoints_eq_ok {utxos : List Utxo} : ∀ {seen : List Outpoint},
    refuseDuplicateOutpoints utxos seen = .ok () ↔
      (utxos.map outpointKey).Nodup ∧ ∀ u ∈ utxos, outpointKey u ∉ seen := by
  induction utxos with
  | nil => simp [refuseDuplicateOutpoints]
  | cons u us ih =>
    intro seen
    rw [refuseDuplicateOutpoints]
    split_ifs with hseen
    · simp [hseen]
    · rw [ih]
      rw [List.map_cons, List.nodup_cons, List.forall_mem_cons]
      simp only [List.mem_map, List.mem_cons, not_or, not_exists, not_and]
      constructor
      · rintro ⟨hnodup, hall⟩
        exact ⟨⟨fun v hv => (hall v hv).1, hnodup⟩, hseen, fun v hv => (hall v hv).2⟩
      · rintro ⟨⟨hne, hnodup⟩, -, hall⟩
        exact ⟨hnodup, fun v hv => ⟨hne v hv, hall v hv⟩⟩

theorem compactUtxos_eq_self {unconfirmed : Bool} {utxos : List Utxo} :
    ∀ {seen : List Outpoint}, (∀ u ∈ utxos, (!unconfirmed && isUnconfirmedUtxo u) = false) →
      (utxos.map outpointKey).Nodup → (∀ u ∈ utxos, outpointKey u ∉ seen) →
      compactUtxos unconfirmed utxos seen = utxos := by
  induction utxos with
  | nil => exact fun _ _ _ => rfl
  | cons u us ih =>
    intro seen hkept hnodup hseen
    have hu := hseen u List.mem_cons_self
    obtain ⟨hfresh, hnodup⟩ := List.nodup_cons.mp hnodup
    rw [compactUtxos, if_neg (by simp [hkept u List.mem_cons_self]), if_neg hu]
    refine congrArg (u :: ·) (ih (fun v hv => hkept v (List.mem_cons_of_mem u hv)) hnodup
      fun v hv => List.not_mem_cons_of_ne_of_not_mem (fun heq => hfresh ?_)
        (hseen v (List.mem_cons_of_mem u hv)))
    exact List.mem_map.mpr ⟨v, hv, heq⟩

/-- Past the check no named output would be dropped, and the names were compared. -/
theorem refuseShrunkExactInputs_eq_ok {utxos : List Utxo} (hexact : request.exactInputs = true)
    (h : refuseShrunkExactInputs request utxos = .ok ()) :
    (∀ u ∈ utxos, (!request.unconfirmed && isUnconfirmedUtxo u) = false) ∧
      refuseDuplicateOutpoints utxos [] = .ok () := by
  unfold refuseShrunkExactInputs at h
  rw [if_pos hexact] at h
  cases hfind : utxos.find? isUnconfirmedUtxo with
  | none =>
    rw [hfind] at h
    exact ⟨fun u hu => by simp [List.find?_eq_none.mp hfind u hu], h⟩
  | some v =>
    rw [hfind] at h
    obtain ⟨_, hunconfirmed, hdistinct⟩ := bind_eq_ok.mp h
    exact ⟨fun u _ => by simp [ensure_eq_ok.mp hunconfirmed], hdistinct⟩

/-- **Past the checks of exact-input mode nothing is filtered, merged or reordered.** -/
theorem filterAndOrderUtxos_exact {utxos candidates : List Utxo}
    (hexact : request.exactInputs = true) (hchecked : refuseShrunkExactInputs request utxos = .ok ())
    (h : filterAndOrderUtxos request utxos = .ok candidates) :
    candidates = utxos ∧ (utxos.map outpointKey).Nodup := by
  obtain ⟨hkept, hdistinct⟩ := refuseShrunkExactInputs_eq_ok hexact hchecked
  obtain ⟨hnodup, hseen⟩ := refuseDuplicateOutpoints_eq_ok.mp hdistinct
  unfold filterAndOrderUtxos at h
  obtain ⟨_, -, h⟩ := bind_eq_ok.mp h
  rw [if_pos hexact] at h
  cases h
  exact ⟨compactUtxos_eq_self hkept hnodup hseen, hnodup⟩

theorem returns_prepareBuild_exact (hexact : request.exactInputs = true) :
    Returns (fun pre => pre.candidates = request.utxos ∧ (request.utxos.map outpointKey).Nodup ∧
      request.utxos ≠ [] ∧ request.p2shHash = none) (prepareBuild enc request) := by
  refine .bind_right fun payments => .bind_right fun rates => .bind_right fun input =>
    .bind_right fun compiled => .bind_right fun encoding => .bind_right fun _ => ?_
  refine .bind (returns_ofExcept fun _ h => h) fun _ hcheck => ?_
  unfold checkExactInputs at hcheck
  rw [if_pos hexact] at hcheck
  obtain ⟨_, hfunding, hne⟩ := bind_eq_ok.mp hcheck
  rw [ensure_eq_ok, decide_eq_true_eq] at hne
  rw [ensure_eq_ok, Option.isNone_iff_eq_none] at hfunding
  refine .bind (returns_gatherUtxos request) fun gathered hgathered => ?_
  rw [hgathered (.inl hne)]
  refine .bind (returns_ofExcept fun _ h => h) fun _ hshrunk => ?_
  refine .bind (returns_ofExcept fun _ h => h) fun candidates hcandidates => ?_
  obtain ⟨hsame, hnodup⟩ := filterAndOrderUtxos_exact hexact hshrunk hcandidates
  exact ⟨hsame, hnodup, hne, hfunding⟩

/-- The key is bound to the first named outpoint, and the list is kept. -/
theorem returns_bindObfuscationKey_exact {utxos : List Utxo} (hne : utxos ≠ []) :
    Returns (fun bound => bound.utxos = utxos ∧
      bound.txidFirstInput = utxos.head?.map fun u => lower u.txid) (bindObfuscationKey true utxos) := by
  rw [bindObfuscationKey_exact hne]
  intro t s l
  refine always_bind.mpr (always_mono (fun _ _ => ?_) (fun _ h => h) always_true)
  exact ⟨rfl, rfl⟩

/-! ## Selection -/

variable {plan : Plan} {emitted : Emitted}

theorem returns_selectStep_exact (hexact : plan.request.exactInputs = true) {now index : ℕ} {u : Utxo}
    {rest : List Utxo} {acc : Selection} :
    Returns (fun r => r.1 = false ∧ r.2.psbt.outpoints = acc.psbt.outpoints ++ [outpointKey u])
      (selectStep enc plan emitted now index u rest acc) := by
  rw [selectStep_eq]
  refine .bind_right fun _ => .bind_right fun _ => ?_
  intro s l
  have hskip : (skipReservedInput plan (outpointKey u) now l s).1 = false := by
    unfold skipReservedInput
    rw [if_pos (.inl hexact)]
  show Returns _ (if _ then _ else _)
  rw [if_neg (by simp [hskip])]
  refine .bind_right fun _ => .bind (returns_selectedInput u _) fun input hinput => ?_
  refine .bind (returns_ofExcept fun _ h => h) fun acc' hacc => ?_
  refine ⟨by simp [Selection.enough, hexact], ?_⟩
  rw [outpoints_add hacc, hinput.1, hinput.2]
  rfl

/-- **Selection spends every named candidate.** -/
theorem returns_selectLoop_exact (hexact : plan.request.exactInputs = true) {now : ℕ}
    (us : List Utxo) : ∀ (index : ℕ) (acc : Selection),
    Returns (fun sel => sel.psbt.outpoints = acc.psbt.outpoints ++ us.map outpointKey)
      (selectLoop enc plan emitted now index us acc) := by
  induction us with
  | nil => exact fun _ acc => (List.append_nil _).symm
  | cons u us ih =>
    intro index acc
    refine .bind (returns_selectStep_exact hexact) fun r hr => ?_
    obtain ⟨done, acc'⟩ := r
    obtain ⟨rfl, hadded⟩ := hr
    refine always_mono (fun sel hsel => ?_) (fun _ h => h) (ih (index + 1) acc')
    rw [hsel, hadded, List.append_assoc]
    rfl

theorem returns_selectFundingInputs_exact (hexact : plan.request.exactInputs = true)
    (hfunding : plan.request.p2shHash = none) {start : Selection} :
    Returns (fun sel => sel.psbt.outpoints = start.psbt.outpoints ++ plan.bound.utxos.map outpointKey)
      (selectFundingInputs enc plan emitted start) := by
  unfold selectFundingInputs
  rw [if_neg (by simp [Plan.isReveal, hfunding])]
  refine .bind ?_ fun sel hsel => .bind_right fun _ => .bind_right fun _ => hsel
  rw [selectInputs_eq]
  exact fun t s l => returns_selectLoop_exact hexact plan.bound.utxos 0 start

/-! ## The build -/

/-- What a finished exact-input build spends, and what its key is. -/
structure SpendsExactly (request : TxRequest) (b : Built) : Prop where
  outpoints : b.psbt.outpoints = request.utxos.map outpointKey
  nodup : (request.utxos.map outpointKey).Nodup
  nonempty : request.utxos ≠ []
  funding : request.p2shHash = none
  key : b.plan.bound.txidFirstInput = request.utxos.head?.map fun u => lower u.txid

/-- **A finished build spends exactly the named outpoints, in their order.** -/
theorem returns_buildSteps_exact (hexact : request.exactInputs = true) :
    Returns (SpendsExactly request) (buildSteps enc request) := by
  refine .bind (always_mono (fun _ h => h) (fun _ _ => trivial)
    (always_and (returns_prepareBuild request) (returns_prepareBuild_exact hexact)))
    fun pre hpre => ?_
  obtain ⟨hprepared, hsame, hnodup, hne, hfunding⟩ := hpre
  rw [hexact, hsame]
  refine .bind (returns_bindObfuscationKey_exact hne) fun bound hbound => ?_
  refine .bind (R := SpendsExactly request) ?_ fun b hb => returns_finishBuild hb
  refine .bind (returns_ofExcept fun _ h => h) fun plan hplan => ?_
  obtain ⟨hrequest, hplanBound, -⟩ := planBuild_eq_ok hprepared hplan
  refine .bind returns_emitOutputs fun r hr => ?_
  obtain ⟨price, emitted⟩ := r
  rw [hrequest, hfunding] at hr
  refine .bind (returns_ofExcept fun _ h => h) fun start hstart => ?_
  refine .bind (returns_selectFundingInputs_exact (hrequest ▸ hexact) (hrequest ▸ hfunding))
    fun sel hsel => ?_
  refine always_mono (fun b hb => ?_) (fun _ _ => trivial)
    (always_and (returns_settleBuild price) (returns_settled price sel))
  obtain ⟨hspent, hplan', -⟩ := hb
  refine ⟨?_, hnodup, hne, hfunding, ?_⟩
  · rw [hspent, hsel, initSelection_psbt hstart, hr.1, hplanBound, hbound.1]
    rfl
  · rw [hplan', hplanBound, hbound.2]

/-! ## Builds in company -/

theorem ReturnedAt.holds {p : ℕ} {a : CallResult} {y : EncoderSnap} (h : ReturnedAt enc p a y)
    {claim : Claim} (hmem : claim ∈ y.call.ledger.claims) : Holds ((y.returned a).cfg p) p claim := by
  have hrecord : records ((y.returned a).cfg p).calls p =
      some ⟨y.call.command, y.call.ledger, .returned a y.clock⟩ := by
    simp only [records, Snap.cfg_self]
    rfl
  refine ⟨_, hrecord, hmem, ?_⟩
  rintro (⟨e, t, hthrew⟩ | ⟨receipt, ⟨a', t, hstage, hreceipt⟩, -, hreleased⟩)
  · cases hthrew
  · -- The ticket is still in the map, so nobody released it.
    cases hstage
    obtain ⟨ticket, hticket⟩ := h.ticketed receipt hreceipt
    exact (h.agrees.tickets.issued receipt.id ticket hticket).2 hreleased

/-- **A funding build that returns within a term of its start holds its inputs alone.** -/
theorem alone_of_returned {w : EncoderWorld} {ev : Event sig Command} {p q : ℕ} {call : EncoderCall}
    {r : TxResult} {t : ℕ} (hw : Sound encoderContract (fun _ p a y => ReturnedAt enc p a y)
      (fun _ p e y => ThrewAt p e y) w) (hev : ev.runs w = some q)
    (hcall : (step (program enc) Ledger.empty w ev).cfg.calls q = some call)
    (hs : call.stage = .returned (.transaction r) t) (hcommand : call.command = .createTransaction request)
    (hfunding : request.p2shHash = none)
    (hterm : (step (program enc) Ledger.empty w ev).cfg.clock < call.startedAt + reservationTtlMs)
    (hpq : p ≠ q) {claim : Claim} (hlive : HoldsLive (step (program enc) Ledger.empty w ev).cfg p claim) :
    claim.key ∉ r.psbt.outpoints := by
  intro hkey
  obtain ⟨y, hself, hcfg, hret⟩ := returned_step hw hev hcall hs
  obtain ⟨request', hcommand', hbuilt⟩ := hret.ended
  have hy : y.call.command = call.command := by rw [← hself]; rfl
  obtain rfl : request' = request := by
    rw [hy, hcommand] at hcommand'
    cases hcommand'
    rfl
  obtain ⟨own, hown, hsame⟩ := List.mem_map.mp ((hbuilt.funding hfunding).symm ▸ hkey)
  have hstart : y.call.startedAt = call.startedAt := by rw [← hself]; rfl
  rw [hcfg] at hlive hterm
  have hmine : HoldsLive ((y.returned (.transaction r)).cfg q) q own :=
    ⟨hret.holds hown, hterm.trans_le (hstart ▸ hret.fresh own hown)⟩
  have hex := exclusive_of_agrees hret.agrees
  have hplain : own.cancelOwnerId = none := by
    have hshape := (agrees_cfg.mp hret.agrees).ledgers.shape q _ set_self
    exact hshape.noOwner request' hcommand' own hown
  cases howner : claim.cancelOwnerId with
  | none => exact hpq (hex.once p q claim own hlive hmine howner hplain hsame.symm).1
  | some owner =>
    refine hex.apart q own (owner, claim.expiry) hmine hplain ?_
    rw [hsame]
    exact hlive.owner hret.agrees howner

/-- **Exact-input mode spends what was asked.** Every finished build spends the named outpoints, all
of them once and in their order, and its key is that of the first; and when a call returns within a
term of its start, no other call holds any of them. -/
theorem exactInputs_spent (enc : Encoder) :
    (∀ request : TxRequest, request.exactInputs = true →
      Returns (SpendsExactly request) (buildSteps enc request)) ∧
    ∀ (clock : ℕ) (events : List (Event sig Command)) (ev : Event sig Command) (q : ℕ)
      (call : EncoderCall) (r : TxResult) (t : ℕ) (request : TxRequest),
      ev.runs (encoderRun enc clock events) = some q →
      (encoderRun enc clock (events ++ [ev])).cfg.calls q = some call →
      call.stage = .returned (.transaction r) t → call.command = .createTransaction request →
      request.exactInputs = true →
      r.psbt.outpoints = request.utxos.map outpointKey ∧
        ((encoderRun enc clock (events ++ [ev])).cfg.clock < call.startedAt + reservationTtlMs →
          ∀ p ≠ q, ∀ claim, HoldsLive (encoderRun enc clock (events ++ [ev])).cfg p claim →
            claim.key ∉ request.utxos.map outpointKey) := by
  have hcreate : ∀ request : TxRequest, Returns (fun r => request.exactInputs = true →
      r.psbt.outpoints = request.utxos.map outpointKey ∧ request.p2shHash = none)
      (createTransaction enc request) := fun request => by
    by_cases hexact : request.exactInputs = true
    · refine always_mono (fun r hr _ => ?_) (fun _ h => h)
        (returns_createTransaction (returns_buildSteps_exact hexact))
      obtain ⟨b, receipt, hb, rfl⟩ := hr
      exact ⟨hb.outpoints, hb.funding⟩
    · exact always_mono (fun r _ h => absurd h hexact) (fun _ h => h) always_true
  refine ⟨fun request => returns_buildSteps_exact, ?_⟩
  intro clock events ev q call r t request hev hcall hs hcommand hexact
  obtain ⟨request', hcommand', hspent⟩ := transaction_run hcreate clock (events ++ [ev]) q call hcall
    r t hs
  cases hcommand.symm.trans hcommand'
  obtain ⟨hout, hfunding⟩ := hspent hexact
  refine ⟨hout, fun hterm p hpq claim hlive => ?_⟩
  rw [encoderRun_append] at hcall hterm hlive
  rw [← hout]
  exact alone_of_returned (encoderRun_sound enc clock events) hev hcall hs hcommand hfunding hterm hpq
    hlive

/-! ## Two runs -/

/-- `softDustPayment` with exactly its two inputs. -/
def exactPayment : TxRequest := { softDustPayment with exactInputs := true }

/-- Whether a call has not ended. -/
def isRunning (call : EncoderCall) : Bool :=
  match call.stage with
  | .running => true
  | _ => false

theorem stage_of_isRunning {call : EncoderCall} (h : isRunning call = true) :
    call.stage = .running := by
  unfold isRunning at h
  split at h
  · assumption
  · cases h

/-- One exact build, up to its last reply. -/
def exactBuild : List (Event sig Command) :=
  .start (.createTransaction exactPayment) [] :: List.replicate 4 (.resume 0 dogeReply [])

theorem exactInputs_spent_payment : ∃ call r,
    (encoderRun dogeEncoder 0 (exactBuild ++ [.resume 0 dogeReply []])).cfg.calls 0 = some call ∧
      returnedTransaction call = some r ∧ r.psbt.outpoints = exactPayment.utxos.map outpointKey ∧
      ∀ p ≠ 0, ∀ claim,
        HoldsLive (encoderRun dogeEncoder 0 (exactBuild ++ [.resume 0 dogeReply []])).cfg p claim →
          claim.key ∉ exactPayment.utxos.map outpointKey := by
  have hfacts : (∃ call ∈ (encoderRun dogeEncoder 0
        (exactBuild ++ [.resume 0 dogeReply []])).cfg.calls 0,
      (returnedTransaction call).isSome = true ∧ call.command = .createTransaction exactPayment ∧
        call.startedAt = 0) ∧
      (encoderRun dogeEncoder 0 (exactBuild ++ [.resume 0 dogeReply []])).cfg.clock <
        0 + reservationTtlMs ∧
      Event.runs (encoderRun dogeEncoder 0 exactBuild) (.resume 0 dogeReply []) = some 0 := by
    decide +kernel
  obtain ⟨⟨call, hcall, hreturned, hcommand, hstart⟩, hterm, hev⟩ := hfacts
  obtain ⟨r, hr⟩ := Option.isSome_iff_exists.mp hreturned
  obtain ⟨t, hs⟩ := returnedTransaction_eq_some hr
  have h := (exactInputs_spent dogeEncoder).2 0 exactBuild (.resume 0 dogeReply []) 0 call r t
    exactPayment hev hcall hs hcommand rfl
  rw [hstart] at h
  exact ⟨call, r, hcall, hr, h.1, h.2 hterm⟩

/-- The first build claims its inputs and awaits a previous transaction for a whole term; the second
one claims them then. -/
def overtakenBuild : List (Event sig Command) :=
  [.start (.createTransaction exactPayment) [], .resume 0 dogeReply [], .resume 0 dogeReply [],
    .pass reservationTtlMs,
    .start (.createTransaction exactPayment) [], .resume 1 dogeReply [], .resume 1 dogeReply [],
    .resume 0 dogeReply [], .resume 0 dogeReply [], .resume 0 dogeReply []]

/-- **A build that outlives its claims succeeds beside the next holder**: call `0` returns its
transaction while call `1` holds a live claim on its first input. -/
theorem overtakenBuild_returns :
    (∃ call r, (encoderRun dogeEncoder 0 overtakenBuild).cfg.calls 0 = some call ∧
      call.command = .createTransaction exactPayment ∧ returnedTransaction call = some r) ∧
    ((encoderRun dogeEncoder 0 overtakenBuild.dropLast).cfg.calls 0).bind returnedTransaction = none ∧
    ∃ claim, HoldsLive (encoderRun dogeEncoder 0 overtakenBuild).cfg 1 claim ∧
      claim.key ∈ exactPayment.utxos.map outpointKey := by
  have hfacts : (∃ call ∈ (encoderRun dogeEncoder 0 overtakenBuild).cfg.calls 0,
        call.command = .createTransaction exactPayment ∧ (returnedTransaction call).isSome = true) ∧
      ((encoderRun dogeEncoder 0 overtakenBuild.dropLast).cfg.calls 0).bind returnedTransaction = none ∧
      ∃ call ∈ (encoderRun dogeEncoder 0 overtakenBuild).cfg.calls 1,
        isRunning call = true ∧ ∃ claim ∈ call.ledger.claims,
          claim.key ∈ exactPayment.utxos.map outpointKey ∧
          (encoderRun dogeEncoder 0 overtakenBuild).cfg.clock < claim.expiry := by
    decide +kernel
  obtain ⟨⟨call, hcall, hcommand, hreturned⟩, hbefore, second, hsecond, hrunning, claim, hmem, hkey,
    hlive⟩ := hfacts
  obtain ⟨r, hr⟩ := Option.isSome_iff_exists.mp hreturned
  have hstage := stage_of_isRunning hrunning
  refine ⟨⟨call, r, hcall, hcommand, hr⟩, hbefore, claim,
    ⟨⟨⟨second.command, second.ledger, second.stage⟩, ?_, hmem, ?_⟩, hlive⟩, hkey⟩
  · simp only [records, Option.mem_def.mp hsecond]
    rfl
  · rw [hstage]
    exact Record.not_gaveBack running_threw running_hasReceipt

end XChain
