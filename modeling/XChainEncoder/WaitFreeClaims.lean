import XChainEncoder.WaitFree

/-!
# Claims of wait-free builds

Any number of wait-free builds over one encoder, under one set of replies: what each of them claims.

* `Computed`: a call's claims are those selection computes from the map of its first reading;
* `Progress`: the first build to read the map found it empty, and is refused only as a duplicate of a
  build that was recorded;
* `Advances`, `Progress.advance`: what one stretch of a call may change, and that it keeps progress;
* `builds_of_claimed`: over an empty map a build comes to what it comes to alone;
* `wp_claims`: **a wait-free build makes all its claims in one step**, as selection computes them.
-/

namespace XChain

open PushScript Coroutine

variable (enc : Encoder) (reply : Replies sig)

/-- The claims of a call are those selection computes from the map of its first reading. -/
def Computed (c : EncoderCall) : Prop :=
  ∀ request, c.command = .createTransaction request →
    match c.seen with
    | [] => c.ledger.claims = []
    | (now, s) :: rest => c.ledger.claims =
        selectionClaims enc reply request now ((rest.head?.map Prod.fst).getD now) s

/-- The call threw. -/
def Thrown (c : EncoderCall) : Prop := ∃ e t, c.stage = .threw e t

/-- At its first reading the call found nothing reserved. -/
def FirstMap (c : EncoderCall) : Prop :=
  ∃ now s rest, c.seen = (now, s) :: rest ∧ s.outpointReservations = fun _ => none

/-- The call recorded its build and did not throw. -/
def Recorded (c : EncoderCall) : Prop := c.ledger.buildTxid ≠ none ∧ ¬ Thrown c

/-- What holds on the way to a success, from the builds recorded in `s₀`. -/
structure Progress (s₀ : Reservations) (g : Cfg sig Command CallResult) : Prop where
  late : ∀ p c, g.calls p = some c → Thrown c →
    c.seen ≠ [] ∧ (FirstMap c → 3 ≤ c.seen.length)
  fresh : (∀ p c, g.calls p = some c → c.seen = []) → g.shared.outpointReservations = fun _ => none
  first : ∀ p c, g.calls p = some c → c.seen ≠ [] → ∃ q d, g.calls q = some d ∧ FirstMap d
  builds : ∀ txid e, g.shared.recentBuilds txid = some e →
    s₀.recentBuilds txid = some e ∨ ∃ q d, g.calls q = some d ∧ Recorded d
  past : ∀ p c, g.calls p = some c → FirstMap c → 3 ≤ c.seen.length →
    ∃ q d, g.calls q = some d ∧ Recorded d

/-- Time has not gone back, all claims are computed, and there is progress where it is asked for. -/
structure Orderly (live : Prop) (clock₀ : ℕ) (s₀ : Reservations) (g : Cfg sig Command CallResult) :
    Prop where
  clock : clock₀ ≤ g.clock
  computed : ∀ p c, g.calls p = some c → Computed enc reply c
  progress : live → Progress s₀ g

/-- The contract of wait-free builds. -/
def waitFreeContract (live : Prop) (clock₀ : ℕ) (s₀ : Reservations) :
    Contract sig Command CallResult where
  inv := Orderly enc reply live clock₀ s₀
  keeps _ := True
  keeps_enter _ _ := trivial

/-! ## One stretch -/

/-- What one stretch of a call may change. -/
structure Advances (s₀ : Reservations) (x y : EncoderSnap) : Prop where
  seen : x.call.seen <+: y.call.seen
  reads : x.call.seen = [] → y.call.seen ≠ [] → ∃ now rest, y.call.seen = (now, x.shared) :: rest
  unread : y.call.seen = [] → y.shared.outpointReservations = x.shared.outpointReservations
  builds : ∀ txid e, y.shared.recentBuilds txid = some e →
    x.shared.recentBuilds txid = some e ∨ Recorded y.call
  recorded : Recorded x.call → Recorded y.call
  past : FirstMap y.call → 3 ≤ y.call.seen.length → 3 ≤ x.call.seen.length ∨ Recorded y.call ∨
    ∃ txid e, x.shared.recentBuilds txid = some e ∧ s₀.recentBuilds txid ≠ some e
  late : Thrown y.call → y.call.seen ≠ [] ∧ (FirstMap y.call → 3 ≤ y.call.seen.length)

variable {enc reply} {live : Prop} {clock₀ p : ℕ} {s₀ : Reservations} {x y z : EncoderSnap}
  {c : EncoderCall}

theorem FirstMap.of_prefix {c c' : EncoderCall} (h : FirstMap c) (hseen : c.seen <+: c'.seen) :
    FirstMap c' := by
  obtain ⟨now, s, rest, hc, hs⟩ := h
  obtain ⟨more, hmore⟩ := hseen
  exact ⟨now, s, rest ++ more, by rw [← hmore, hc]; rfl, hs⟩

theorem FirstMap.earlier {c c' : EncoderCall} (h : FirstMap c') (hseen : c.seen <+: c'.seen)
    (hne : c.seen ≠ []) : FirstMap c := by
  obtain ⟨now, s, rest, hc, hs⟩ := h
  obtain ⟨more, hmore⟩ := hseen
  cases hcs : c.seen with
  | nil => exact absurd hcs hne
  | cons r rest' =>
    rw [hcs, hc] at hmore
    cases hmore
    exact ⟨now, s, rest', hcs, hs⟩

theorem cfg_of_ne {q : ℕ} (hothers : y.others = x.others) (hq : q ≠ p) :
    (y.cfg p).calls q = (x.cfg p).calls q := by
  simp only [Snap.cfg, Function.update_of_ne hq, hothers]

/-- **A stretch that advances keeps progress.** -/
theorem Progress.advance (h : Progress s₀ (x.cfg p)) (hothers : y.others = x.others)
    (ha : Advances s₀ x y) : Progress s₀ (y.cfg p) := by
  have hof : ∀ q d, (y.cfg p).calls q = some d → q ≠ p → (x.cfg p).calls q = some d :=
    fun q d hd hq => (cfg_of_ne hothers hq).symm.trans hd
  have hself : ∀ d, (y.cfg p).calls p = some d → d = y.call := fun d hd =>
    (Option.some.inj ((Snap.cfg_self y p).symm.trans hd)).symm
  have hrecorded : (∃ q d, (x.cfg p).calls q = some d ∧ Recorded d) →
      ∃ q d, (y.cfg p).calls q = some d ∧ Recorded d := by
    rintro ⟨q, d, hd, hr⟩
    by_cases hq : q = p
    · subst hq
      cases (Snap.cfg_self x q).symm.trans hd
      exact ⟨q, y.call, Snap.cfg_self y q, ha.recorded hr⟩
    · exact ⟨q, d, (cfg_of_ne hothers hq).trans hd, hr⟩
  have hfirst : (∃ q d, (x.cfg p).calls q = some d ∧ FirstMap d) →
      ∃ q d, (y.cfg p).calls q = some d ∧ FirstMap d := by
    rintro ⟨q, d, hd, hr⟩
    by_cases hq : q = p
    · subst hq
      cases (Snap.cfg_self x q).symm.trans hd
      exact ⟨q, y.call, Snap.cfg_self y q, hr.of_prefix ha.seen⟩
    · exact ⟨q, d, (cfg_of_ne hothers hq).trans hd, hr⟩
  have hunread : (∀ q d, q ≠ p → (y.cfg p).calls q = some d → d.seen = []) → x.call.seen = [] →
      ∀ q d, (x.cfg p).calls q = some d → d.seen = [] := by
    intro hall hx q d hd
    by_cases hq : q = p
    · subst hq
      cases (Snap.cfg_self x q).symm.trans hd
      exact hx
    · exact hall q d hq ((cfg_of_ne hothers hq).trans hd)
  refine ⟨fun q d hd hthrown => ?_, fun hall => ?_, fun q d hd hne => ?_, fun txid e he => ?_,
    fun q d hd hmap hlen => ?_⟩
  · by_cases hq : q = p
    · subst hq
      cases hself d hd
      exact ha.late hthrown
    · exact h.late q d (hof q d hd hq) hthrown
  · have hy := hall p y.call (Snap.cfg_self y p)
    have hx : x.call.seen = [] := List.prefix_nil.mp (hy ▸ ha.seen)
    exact (ha.unread hy).trans (h.fresh (hunread (fun q d _ hd => hall q d hd) hx))
  · by_cases hsome : ∃ q d, (x.cfg p).calls q = some d ∧ d.seen ≠ []
    · obtain ⟨q', d', hd', hne'⟩ := hsome
      exact hfirst (h.first q' d' hd' hne')
    · -- The call is the first to read the map.
      have hnone : ∀ q d, (x.cfg p).calls q = some d → d.seen = [] := fun q' d' hd' =>
        not_not.mp fun hne' => hsome ⟨q', d', hd', hne'⟩
      have hq : q = p := not_not.mp fun hq => hne (hnone q d (hof q d hd hq))
      subst hq
      cases hself d hd
      obtain ⟨now, rest, hseen⟩ := ha.reads (hnone q x.call (Snap.cfg_self x q)) hne
      exact ⟨q, y.call, hd, now, x.shared, rest, hseen, h.fresh hnone⟩
  · rcases ha.builds txid e he with hx | hr
    · exact (h.builds txid e hx).imp_right hrecorded
    · exact .inr ⟨p, y.call, Snap.cfg_self y p, hr⟩
  · by_cases hq : q = p
    · subst hq
      cases hself d hd
      rcases ha.past hmap hlen with hx | hr | ⟨txid, e, he, hne⟩
      · have hne : x.call.seen ≠ [] := by
          rintro hnil
          rw [hnil] at hx
          cases hx
        exact hrecorded (h.past q x.call (Snap.cfg_self x q) (hmap.earlier ha.seen hne) hx)
      · exact ⟨q, y.call, hd, hr⟩
      · exact hrecorded ((h.builds txid e he).resolve_left hne)
    · exact hrecorded (h.past q d (hof q d hd hq) hmap hlen)

/-- A stretch that advances and leaves computed claims keeps the contract. -/
theorem Orderly.advance (h : Orderly enc reply live clock₀ s₀ (x.cfg p)) (hclock : x.clock ≤ y.clock)
    (hothers : y.others = x.others) (hcomputed : Computed enc reply y.call)
    (ha : live → Advances s₀ x y) : Orderly enc reply live clock₀ s₀ (y.cfg p) where
  clock := h.clock.trans hclock
  computed q d hd := by
    by_cases hq : q = p
    · subst hq
      cases (Snap.cfg_self y q).symm.trans hd
      exact hcomputed
    · exact h.computed q d ((cfg_of_ne hothers hq).symm.trans hd)
  progress hlive := (h.progress hlive).advance hothers (ha hlive)

theorem Computed.more {c c' : EncoderCall} (h : Computed enc reply c) (hcommand : c'.command = c.command)
    (hclaims : c'.ledger.claims = c.ledger.claims)
    (hseen : c'.seen = c.seen ∨ 2 ≤ c.seen.length ∧ c.seen <+: c'.seen) : Computed enc reply c' := by
  intro request hrequest
  have hc := h request (hcommand.symm.trans hrequest)
  rcases hseen with hseen | ⟨hlen, more, hmore⟩
  · rw [hseen, hclaims]
    exact hc
  · rw [← hmore, hclaims]
    match hs : c.seen with
    | [] => simp [hs] at hlen
    | [_] => simp [hs] at hlen
    | _ :: _ :: _ =>
      rw [hs] at hc
      exact hc

/-! ## The claims -/

/-- What a build that succeeds alone can name: its txid, built by no one before. -/
def Names (enc : Encoder) (clock₀ : ℕ) (s₀ : Reservations) (b : Built) : Prop :=
  ∃ txid, b.psbt.unsignedTxid enc.lib = .ok txid ∧ ∀ e, s₀.recentBuilds txid = some e → e ≤ clock₀

/-- A call that will throw: it has recorded no build, and is past the duplicate check if it was to
succeed. -/
structure Failing (enc : Encoder) (reply : Replies sig) (live : Prop) (clock₀ : ℕ)
    (s₀ : Reservations) (p : ℕ) (x : EncoderSnap) : Prop where
  inv : Orderly enc reply live clock₀ s₀ (x.cfg p)
  running : x.call.stage = .running
  unbuilt : x.call.ledger.buildTxid = none
  late : live → x.call.seen ≠ [] ∧ (FirstMap x.call → 3 ≤ x.call.seen.length)

/-- A call with all its claims made. -/
structure HasInputs (enc : Encoder) (reply : Replies sig) (live : Prop) (clock₀ : ℕ)
    (s₀ : Reservations) (p : ℕ) (b : Built) (x : EncoderSnap) : Prop where
  inv : Orderly enc reply live clock₀ s₀ (x.cfg p)
  running : x.call.stage = .running
  unbuilt : x.call.ledger.buildTxid = none
  seen : x.call.seen.length = 2
  names : live → FirstMap x.call → Names enc clock₀ s₀ b

/-- From `x`, where it had claimed nothing, the call has come to `y` in one step. -/
structure Claims (enc : Encoder) (reply : Replies sig) (x y : EncoderSnap) : Prop where
  clock : x.clock ≤ y.clock
  others : y.others = x.others
  stage : y.call.stage = x.call.stage
  seen : ∃ now rest, y.call.seen = (now, x.shared) :: rest ∧ rest.length ≤ 1
  builds : SameBuild x.shared.recentBuilds y.shared y.call.ledger
  computed : Computed enc reply y.call

/-- A call that starts: nothing read, nothing claimed. -/
structure Fresh (request : TxRequest) (x : EncoderSnap) : Prop where
  command : x.call.command = .createTransaction request
  ledger : x.call.ledger = Ledger.empty
  seen : x.call.seen = []
  running : x.call.stage = .running

theorem Claims.firstMap (h : Claims enc reply x y) :
    FirstMap y.call ↔ x.shared.outpointReservations = fun _ => none := by
  obtain ⟨now, rest, hseen, -⟩ := h.seen
  constructor
  · rintro ⟨now', s, rest', hseen', hs⟩
    cases hseen.symm.trans hseen'
    exact hs
  · exact fun hs => ⟨now, x.shared, rest, hseen, hs⟩

theorem AllSpendable.later {bound : Bound} {clock t : ℕ} {s : Reservations}
    (h : AllSpendable bound clock s) (ht : clock ≤ t) : AllSpendable bound t s := fun u hu =>
  (h u hu).imp_right fun hfree => by
    rw [← Bool.not_eq_true, isOutpointReserved_eq_true] at hfree ⊢
    exact fun ⟨e, he, hlive⟩ => hfree ⟨e, he, ht.trans_lt hlive⟩

theorem idle_call (h : x.Idle y) : y.call = x.call := by
  rcases h with rfl | ⟨t, s, o, -, rfl⟩ <;> rfl

theorem Failing.idle (h : Failing enc reply live clock₀ s₀ p x) (hy : x.Idle y)
    (hinv : Orderly enc reply live clock₀ s₀ (y.cfg p)) : Failing enc reply live clock₀ s₀ p y := by
  have hcall := idle_call hy
  exact ⟨hinv, hcall ▸ h.running, hcall ▸ h.unbuilt, hcall ▸ h.late⟩

theorem HasInputs.idle {b : Built} (h : HasInputs enc reply live clock₀ s₀ p b x) (hy : x.Idle y)
    (hinv : Orderly enc reply live clock₀ s₀ (y.cfg p)) :
    HasInputs enc reply live clock₀ s₀ p b y := by
  have hcall := idle_call hy
  exact ⟨hinv, hcall ▸ h.running, hcall ▸ h.unbuilt, hcall ▸ h.seen, hcall ▸ h.names⟩

theorem not_thrown (h : c.stage = .running) : ¬ Thrown c := by
  rintro ⟨e, t, hstage⟩
  cases h.symm.trans hstage

theorem Claims.orderly {request : TxRequest} (h : Claims enc reply x y) (hx : Fresh request x)
    (hinv : Orderly enc reply live clock₀ s₀ (x.cfg p)) :
    Orderly enc reply live clock₀ s₀ (y.cfg p) := by
  obtain ⟨now, rest, hseen, hlen⟩ := h.seen
  refine hinv.advance h.clock h.others h.computed fun _ => ⟨?_, ?_, ?_, ?_, ?_, ?_, ?_⟩
  · rw [hx.seen]
    exact List.nil_prefix
  · exact fun _ _ => ⟨now, rest, hseen⟩
  · intro hnil
    cases hseen.symm.trans hnil
  · intro txid e he
    rw [h.builds.1] at he
    exact .inl he
  · rintro ⟨hbuilt, -⟩
    rw [hx.ledger] at hbuilt
    exact absurd rfl hbuilt
  · intro _ hpast
    rw [hseen, List.length_cons] at hpast
    omega
  · intro hthrown
    exact absurd hthrown (not_thrown (h.stage.trans hx.running))

theorem Claims.failing {request : TxRequest} (h : Claims enc reply x y) (hx : Fresh request x)
    (hinv : Orderly enc reply live clock₀ s₀ (x.cfg p))
    (hfail : live → x.shared.outpointReservations = (fun _ => none) → False) :
    Failing enc reply live clock₀ s₀ p y where
  inv := h.orderly hx hinv
  running := h.stage.trans hx.running
  unbuilt := h.builds.2
  late hlive := by
    obtain ⟨now, rest, hseen, -⟩ := h.seen
    refine ⟨by rw [hseen]; exact List.cons_ne_nil _ _, fun hmap => ?_⟩
    exact (hfail hlive (h.firstMap.mp hmap)).elim

section Claiming

variable {request : TxRequest} {pre : Prepared} {bound : Bound} {now t : ℕ} {s₁ s₂ : Reservations}
  {l₁ l₂ : Ledger} {q : Plan × RevealOutputsPrice × Emitted × Selection}

theorem computed_of_seen {s : Reservations} {rest : List (ℕ × Reservations)}
    (hcommand : c.command = .createTransaction request) (hseen : c.seen = (now, s) :: rest)
    (hclaims : c.ledger.claims =
      selectionClaims enc reply request now ((rest.head?.map Prod.fst).getD now) s) :
    Computed enc reply c := by
  intro request' hrequest
  cases hcommand.symm.trans hrequest
  rw [hseen]
  exact hclaims

/-- Where nothing was reserved, the build comes to what it comes to alone. -/
theorem builds_of_claimed (hpre : Prepares enc reply request pre) (hne : pre.candidates ≠ [])
    (halone : ∃ pre' built txid, SucceedsAlone enc reply request clock₀ s₀ pre' built txid)
    (hclaim : claimFirstFreeInput now pre.candidates Ledger.empty x.shared = (bound, l₁, s₁))
    (hempty : x.shared.outpointReservations = fun _ => none) (ht : now ≤ t) :
    ∃ built, ((buildFromBound enc request pre bound).alone reply t s₁ l₁).1 = .ok built ∧
      Names enc clock₀ s₀ built := by
  obtain ⟨pre', built, txid, hs⟩ := halone
  obtain rfl : pre' = pre := Except.ok.inj (hs.prepares.symm.trans hpre)
  have hfree : ∀ u ∈ pre'.candidates,
      (x.shared.isOutpointReserved (outpointKey u) now).1 = false := fun u _ => by
    unfold Reservations.isOutpointReserved
    rw [hempty]
  obtain ⟨s', l', hbind, hspendable⟩ := alone_bindObfuscationKey reply
    (l := Ledger.empty) (s := x.shared) hpre.preparedFor.nodup hfree
  rw [bindObfuscationKey_greedy hne] at hbind
  obtain ⟨hbound, rfl, rfl⟩ := Prod.mk.injEq .. ▸ hbind
  obtain rfl : bound = boundTo pre'.candidates :=
    (congrArg Prod.fst hclaim).symm.trans (Except.ok.inj hbound)
  have hs₁ : (claimFirstFreeInput now pre'.candidates Ledger.empty x.shared).2.2 = s₁ :=
    congrArg (fun r => r.2.2) hclaim
  exact ⟨built, hs.builds t s₁ l₁ (AllSpendable.later (hs₁ ▸ hspendable) ht), txid, hs.named,
    hs.unbuilt⟩

theorem settles_of_builds (hwait : WaitFree enc reply request)
    (hpre : Prepares enc reply request pre) {r : Except BuildError Selection} {built : Built}
    (hq : beforeSelection enc reply request pre bound = .ok q)
    (hwalk : (selectLoop enc q.1 q.2.2.1 t 0 q.1.bound.utxos q.2.2.2).alone reply t
      (s₁.evictExpiredReservations t) l₁ = (r, s₂, l₂))
    (hbuilt : ((buildFromBound enc request pre bound).alone reply t s₁ l₁).1 = .ok built) :
    ∃ sel, r = .ok sel ∧ checkSelected q.1 q.2.2.1 sel = .ok () ∧
      ((settleBuild enc q.1 q.2.1 q.2.2.1 sel).alone reply t s₂ l₂).1 = .ok built := by
  rw [hwait.buildFromBound_eq hpre] at hbuilt
  obtain ⟨q', hq', hbuilt⟩ := alone_bind_ofExcept_ok.mp hbuilt
  obtain rfl : q = q' := Except.ok.inj (hq.symm.trans hq')
  obtain ⟨sel, s₃, l₃, hselect, hbuilt⟩ := alone_bind_ok.mp hbuilt
  obtain ⟨hr, rfl, rfl⟩ := Prod.mk.injEq .. ▸ hwalk.symm.trans hselect
  obtain ⟨_, hchecked, hbuilt⟩ := alone_bind_ofExcept_ok.mp hbuilt
  exact ⟨sel, hr, hchecked, hbuilt⟩

theorem sameBuild_claimed
    (hclaim : claimFirstFreeInput now pre.candidates Ledger.empty x.shared = (bound, l₁, s₁)) :
    SameBuild x.shared.recentBuilds s₁ l₁ := by
  have h := claimFirstFreeInput_sameBuild now pre.candidates x.shared
  rwa [hclaim] at h

/-- A build that could not be planned has claimed what binding claims. -/
theorem claims_bound (hwait : WaitFree enc reply request) (hpre : Prepares enc reply request pre)
    (hx : Fresh request x) (hnow : x.clock ≤ now)
    (hclaim : claimFirstFreeInput now pre.candidates Ledger.empty x.shared = (bound, l₁, s₁))
    {e : BuildError} (he : beforeSelection enc reply request pre bound = .error e) :
    Claims enc reply x ((x.tick now).store s₁ l₁) := by
  have hseen : x.call.seen ++ [(now, x.shared)] = [(now, x.shared)] := by
    rw [hx.seen, List.nil_append]
  refine ⟨hnow, rfl, rfl, ⟨now, [], hseen, Nat.zero_le _⟩, sameBuild_claimed hclaim, ?_⟩
  refine computed_of_seen hx.command hseen ?_
  show l₁.claims = selectionClaims enc reply request now now x.shared
  rw [selectionClaims_eq hpre, hclaim, hwait.selectFrom_eq hpre, he]
  rfl

theorem claims_selected (hwait : WaitFree enc reply request) (hpre : Prepares enc reply request pre)
    (hx : Fresh request x) (hnow : x.clock ≤ now) (ht : now ≤ t)
    (hclaim : claimFirstFreeInput now pre.candidates Ledger.empty x.shared = (bound, l₁, s₁))
    (hq : beforeSelection enc reply request pre bound = .ok q) {r : Except BuildError Selection}
    (hwalk : (selectLoop enc q.1 q.2.2.1 t 0 q.1.bound.utxos q.2.2.2).alone reply t
      (s₁.evictExpiredReservations t) l₁ = (r, s₂, l₂)) :
    Claims enc reply x ((((x.tick now).store s₁ l₁).tick t).store s₂ l₂) := by
  have hseen : x.call.seen ++ [(now, x.shared)] ++ [(t, s₁)] = [(now, x.shared), (t, s₁)] := by
    rw [hx.seen]
    rfl
  refine ⟨hnow.trans ht, rfl, rfl, ⟨now, [(t, s₁)], hseen, le_rfl⟩, ?_, ?_⟩
  · have hwrites := writes_selectLoop enc q.1 q.2.2.1 (le_refl t) q.1.bound.utxos 0 q.2.2.2
      (s₁.evictExpiredReservations t) l₁
    have hsame : SameBuild x.shared.recentBuilds s₁ l₁ := sameBuild_claimed hclaim
    have hkept := sameBuild_alone reply hwrites hsame
    rwa [hwalk] at hkept
  · refine computed_of_seen hx.command hseen ?_
    show l₂.claims = selectionClaims enc reply request now t x.shared
    rw [selectionClaims_eq hpre, hclaim, hwait.selectFrom_eq hpre, hq]
    exact (congrArg (fun r => r.2.2.claims) hwalk).symm

/-- The checks and the settlement after selection, for a call that has made its claims. -/
theorem wp_settles (hclaims : Claims enc reply x y) (hx : Fresh request x)
    (hinv : Orderly enc reply live clock₀ s₀ (x.cfg p)) (hseen : y.call.seen.length = 2)
    {sel : Selection}
    (hrun : live → x.shared.outpointReservations = (fun _ => none) → ∃ built,
      checkSelected q.1 q.2.2.1 sel = .ok () ∧
      ((settleBuild enc q.1 q.2.1 q.2.2.1 sel).alone reply t s₂ l₂).1 = .ok built ∧
      Names enc clock₀ s₀ built) :
    wp (waitFreeContract enc reply live clock₀ s₀) p
      (((Coro.ofExcept (σ := sig) (checkSelected q.1 q.2.2.1 sel)).bind fun _ =>
        settleBuild enc q.1 q.2.1 q.2.2.1 sel).answered reply)
      (fun b z => HasInputs enc reply live clock₀ s₀ p b z)
      (fun _ z => Failing enc reply live clock₀ s₀ p z) y := by
  rw [answered_bind, answered_ofExcept, wp_bind]
  refine wp_ofExcept (fun _ hchecked => ?_) fun e he => ?_
  · refine wp_answered_quiet t (quiet_settleBuild _) s₂ l₂ _ (hclaims.orderly hx hinv)
      trivial (fun b z hz hinv' hb => ?_) fun e z hz hinv' he => ?_
    · have hinputs : HasInputs enc reply live clock₀ s₀ p b y := by
        refine ⟨hclaims.orderly hx hinv, hclaims.stage.trans hx.running, hclaims.builds.2, hseen,
          fun hlive hmap => ?_⟩
        obtain ⟨built, -, hbuilt, hnames⟩ := hrun hlive (hclaims.firstMap.mp hmap)
        cases hb.symm.trans hbuilt
        exact hnames
      exact hinputs.idle hz hinv'
    · refine Failing.idle (hclaims.failing hx hinv fun hlive hempty => ?_) hz hinv'
      obtain ⟨built, -, hbuilt, -⟩ := hrun hlive hempty
      cases he.symm.trans hbuilt
  · refine hclaims.failing hx hinv fun hlive hempty => ?_
    obtain ⟨-, hchecked, -⟩ := hrun hlive hempty
    cases he.symm.trans hchecked

/-- **A wait-free build makes all its claims in one step**, as selection computes them. -/
theorem wp_claims (hwait : WaitFree enc reply request) (hpre : Prepares enc reply request pre)
    (halone : live → ∃ pre' built txid, SucceedsAlone enc reply request clock₀ s₀ pre' built txid)
    (hx : Fresh request x) (hinv : Orderly enc reply live clock₀ s₀ (x.cfg p)) :
    wp (waitFreeContract enc reply live clock₀ s₀) p
      (((bindObfuscationKey request.exactInputs pre.candidates).bind fun bound =>
        buildFromBound enc request pre bound).answered reply)
      (fun b y => HasInputs enc reply live clock₀ s₀ p b y)
      (fun _ y => Failing enc reply live clock₀ s₀ p y) x := by
  have hne := hpre.preparedFor.nonempty hwait.funding
  rw [hwait.greedy, bindObfuscationKey_greedy hne]
  intro now hnow
  have hledger : (x.tick now).call.ledger = Ledger.empty := hx.ledger
  obtain ⟨bound, l₁, s₁, hclaim⟩ : ∃ bound l₁ s₁,
      claimFirstFreeInput now pre.candidates Ledger.empty x.shared = (bound, l₁, s₁) :=
    ⟨_, _, _, rfl⟩
  have hmem : ∀ u ∈ bound.utxos, u ∈ pre.candidates := by
    intro u hu
    refine claimFirstFreeInput_mem now (l := Ledger.empty) (s := x.shared) ?_
    rwa [hclaim]
  show wp _ p ((buildFromBound enc request pre (claimFirstFreeInput now pre.candidates
      (x.tick now).call.ledger x.shared).1).answered reply) _ _
    ((x.tick now).store (claimFirstFreeInput now pre.candidates (x.tick now).call.ledger x.shared).2.2
      (claimFirstFreeInput now pre.candidates (x.tick now).call.ledger x.shared).2.1)
  rw [hledger, hclaim, hwait.buildFromBound_eq hpre, answered_bind, answered_ofExcept, wp_bind]
  refine wp_ofExcept (fun q hq => ?_) fun e he => ?_
  · have hplan := beforeSelection_plan hq
    have hbound := (planBuild_eq_ok hpre.preparedFor hplan).2.1
    rw [answered_bind, wp_bind, selectInputs_eq]
    intro t ht
    have hinstant := instant_selectLoop enc q.1 q.2.2.1 t q.1.bound.utxos 0 q.2.2.2
      fun u hu => hwait.selects pre bound q.1 hpre hplan u (hmem u (by rwa [hbound] at hu))
    rcases hwalk : (selectLoop enc q.1 q.2.2.1 t 0 q.1.bound.utxos q.2.2.2).alone reply t
      (s₁.evictExpiredReservations t) l₁ with ⟨r, s₂, l₂⟩
    have hclaims := claims_selected hwait hpre hx hnow ht hclaim hq hwalk
    have hrun : live → x.shared.outpointReservations = (fun _ => none) → ∃ sel built, r = .ok sel ∧
        checkSelected q.1 q.2.2.1 sel = .ok () ∧
        ((settleBuild enc q.1 q.2.1 q.2.2.1 sel).alone reply t s₂ l₂).1 = .ok built ∧
        Names enc clock₀ s₀ built := by
      intro hlive hempty
      obtain ⟨built, hbuilt, hnames⟩ := builds_of_claimed hpre hne (halone hlive) hclaim hempty ht
      obtain ⟨sel, hr, hchecked, hsettled⟩ := settles_of_builds hwait hpre hq hwalk hbuilt
      exact ⟨sel, built, hr, hchecked, hsettled, hnames⟩
    show wp _ p ((selectLoop enc q.1 q.2.2.1 t 0 q.1.bound.utxos q.2.2.2).answered reply) _ _
      ((((x.tick now).store s₁ l₁).tick t).store (s₁.evictExpiredReservations t) l₁)
    rw [answered_instant hinstant]
    refine wp_instant_of hinstant hwalk (fun sel hsel => ?_) fun e he => ?_
    · subst hsel
      have hsettled : live → x.shared.outpointReservations = (fun _ => none) → ∃ built,
          checkSelected q.1 q.2.2.1 sel = .ok () ∧
          ((settleBuild enc q.1 q.2.1 q.2.2.1 sel).alone reply t s₂ l₂).1 = .ok built ∧
          Names enc clock₀ s₀ built := by
        intro hlive hempty
        obtain ⟨sel', built, hr, hsettled⟩ := hrun hlive hempty
        cases hr
        exact ⟨built, hsettled⟩
      refine wp_settles hclaims hx hinv ?_ hsettled
      show (x.call.seen ++ [(now, x.shared)] ++ [(t, s₁)]).length = 2
      rw [hx.seen]
      rfl
    · refine hclaims.failing hx hinv fun hlive hempty => ?_
      obtain ⟨sel, -, hr, -⟩ := hrun hlive hempty
      cases he.symm.trans hr
  · refine (claims_bound hwait hpre hx hnow hclaim he).failing hx hinv fun hlive hempty => ?_
    obtain ⟨built, hbuilt, -⟩ := builds_of_claimed hpre hne (halone hlive) hclaim hempty le_rfl
    rw [hwait.buildFromBound_eq hpre] at hbuilt
    obtain ⟨q, hq, -⟩ := alone_bind_ofExcept_ok.mp hbuilt
    cases he.symm.trans hq

end Claiming

end XChain
