import XChainEncoder.WaitFreeClaims

/-!
# Runs of wait-free builds

* `wp_finish`, `wp_waitFree`: a wait-free build keeps its claims computed, and progress;
* **`waitFree_progress`**: in every run the claims are computed so, and if every build would succeed
  alone, one of them succeeds.
-/

namespace XChain

open PushScript Coroutine

variable {enc : Encoder} {reply : Replies sig} {live : Prop} {clock₀ p : ℕ} {s₀ : Reservations}
  {x y z : EncoderSnap} {c : EncoderCall}

/-! ## The duplicate check and the end -/

/-- A call that has recorded its build. -/
structure Finished (enc : Encoder) (reply : Replies sig) (live : Prop) (clock₀ : ℕ)
    (s₀ : Reservations) (p : ℕ) (x : EncoderSnap) : Prop where
  inv : Orderly enc reply live clock₀ s₀ (x.cfg p)
  running : x.call.stage = .running
  recorded : x.call.ledger.buildTxid ≠ none
  seen : 3 ≤ x.call.seen.length

theorem evictExpiredRecentBuilds_le {s : Reservations} {t e : ℕ} {txid : Text}
    (h : (s.evictExpiredRecentBuilds t).recentBuilds txid = some e) :
    s.recentBuilds txid = some e ∧ t < e := by
  simpa [Reservations.evictExpiredRecentBuilds, Option.filter_eq_some_iff] using h

/-- A read before the duplicate check leaves no recorded build unless the check passes. -/
theorem HasInputs.failing {b : Built} {t : ℕ} {s : Reservations}
    (hx : HasInputs enc reply live clock₀ s₀ p b x) (ht : x.clock ≤ t)
    (hs : ∀ txid e, s.recentBuilds txid = some e → x.shared.recentBuilds txid = some e)
    (hmap : live → FirstMap x.call →
      ∃ txid e, x.shared.recentBuilds txid = some e ∧ s₀.recentBuilds txid ≠ some e) :
    Failing enc reply live clock₀ s₀ p ((x.tick t).store s x.call.ledger) := by
  have hlen : (x.call.seen ++ [(t, x.shared)]).length = 3 := by simp [hx.seen]
  have hne : x.call.seen ≠ [] := by
    intro hnil
    cases hnil ▸ hx.seen
  have hne' : x.call.seen ++ [(t, x.shared)] ≠ [] := by simp
  refine ⟨hx.inv.advance ht rfl ?_ fun hlive => ⟨List.prefix_append .., fun h => absurd h hne,
    fun h => absurd h hne', fun txid e he => .inl (hs txid e he), fun h => absurd hx.unbuilt h.1,
    fun hm _ => ?_, fun h => absurd h (not_thrown hx.running)⟩, hx.running, hx.unbuilt,
    fun _ => ⟨hne', fun _ => hlen.ge⟩⟩
  · exact (hx.inv.computed p x.call (Snap.cfg_self x p)).more rfl rfl
      (.inr ⟨hx.seen.ge, List.prefix_append ..⟩)
  · exact .inr (.inr (hmap hlive (hm.earlier (List.prefix_append ..) hne)))

/-- **The duplicate check refuses the first build only where another one was recorded.** -/
theorem wp_finish {b : Built} (hx : HasInputs enc reply live clock₀ s₀ p b x) :
    wp (waitFreeContract enc reply live clock₀ s₀) p ((finishBuild enc b).answered reply)
      (fun _ y => Finished enc reply live clock₀ s₀ p y)
      (fun _ y => Failing enc reply live clock₀ s₀ p y) x := by
  rw [finishBuild_eq]
  intro t ht
  show wp _ p (((Coro.ofExcept (σ := sig) (b.psbt.unsignedTxid enc.lib)).bind _).answered reply) _ _
    ((x.tick t).store (x.shared.evictExpiredRecentBuilds t) x.call.ledger)
  rw [answered_bind, answered_ofExcept, wp_bind]
  refine wp_ofExcept (fun txid htxid => ?_) fun e he => ?_
  · unfold Reservations.refuseDuplicateBuild
    dsimp only
    by_cases hdup : ((x.shared.evictExpiredRecentBuilds t).recentBuilds txid).isSome = true
    · rw [show (x.tick t).shared = x.shared from rfl, if_pos hdup]
      refine hx.failing ht (fun _ _ he => (evictExpiredRecentBuilds_le he).1) fun hlive hmap => ?_
      obtain ⟨txid', htxid', hold⟩ := hx.names hlive hmap
      obtain rfl : txid = txid' := Except.ok.inj (htxid.symm.trans htxid')
      obtain ⟨e, he⟩ := Option.isSome_iff_exists.mp hdup
      obtain ⟨he, hlater⟩ := evictExpiredRecentBuilds_le he
      refine ⟨txid, e, he, fun hs₀ => ?_⟩
      have hclock : clock₀ ≤ x.clock := hx.inv.clock
      have := hold e hs₀
      omega
    · rw [show (x.tick t).shared = x.shared from rfl, if_neg hdup]
      have hne : x.call.seen ≠ [] := by
        intro hnil
        cases hnil ▸ hx.seen
      have hne' : x.call.seen ++ [(t, x.shared)] ≠ [] := by simp
      have hrecorded : Recorded { x.call with
          seen := x.call.seen ++ [(t, x.shared)]
          ledger := { x.call.ledger with buildTxid := some txid } } :=
        ⟨Option.some_ne_none txid, not_thrown hx.running⟩
      refine ⟨hx.inv.advance ht rfl ?_ fun hlive => ⟨List.prefix_append .., fun h => absurd h hne,
        fun h => absurd h hne', fun txid' e he => ?_, fun h => absurd hx.unbuilt h.1,
        fun _ _ => .inr (.inl hrecorded), fun h => absurd h (not_thrown hx.running)⟩, hx.running, ?_, ?_⟩
      · exact (hx.inv.computed p x.call (Snap.cfg_self x p)).more rfl rfl
          (.inr ⟨hx.seen.ge, List.prefix_append ..⟩)
      · exact .inr hrecorded
      · exact Option.some_ne_none txid
      · show 3 ≤ (x.call.seen ++ [(t, x.shared)]).length
        simp [hx.seen]
  · refine hx.failing ht (fun _ _ he => (evictExpiredRecentBuilds_le he).1) fun hlive hmap => ?_
    obtain ⟨txid, htxid, -⟩ := hx.names hlive hmap
    cases he.symm.trans htxid

theorem mintReservationTicket_recentBuilds (s : Reservations) (l : Ledger) (t : ℕ) :
    (s.mintReservationTicket l t).2.recentBuilds = s.recentBuilds := by
  unfold Reservations.mintReservationTicket
  dsimp only [Reservations.evictExpiredReservationTickets]
  split_ifs <;> rfl

theorem wp_failing {α : Type} {e : BuildError} {Q : α → EncoderSnap → Prop}
    (hx : Failing enc reply live clock₀ s₀ p x) :
    wp (waitFreeContract enc reply live clock₀ s₀) p ((releaseAndRethrow (α := α) e).answered reply)
      Q (fun e y => Orderly enc reply live clock₀ s₀ ((y.threw e).cfg p)) x := by
  rw [releaseAndRethrow_eq, answered_bind, wp_bind]
  refine wp_answered_quiet 0 quiet_yieldTick Reservations.empty Ledger.empty x hx.inv trivial
    (fun _ y hy hinv _ => ?_) fun _ _ _ _ he => by cases he
  have hy' := hx.idle hy hinv
  have hbuilds := Reservations.sameBuilds_releaseCallReservations (s := y.shared) y.call.ledger.claims
  refine Orderly.advance (x := y) (y := (y.store (y.shared.releaseCallReservations
    y.call.ledger.claims) y.call.ledger).threw e) hinv le_rfl rfl ?_ fun hlive => ?_
  · exact (hinv.computed p y.call (Snap.cfg_self y p)).more rfl rfl (.inl rfl)
  · refine ⟨List.prefix_rfl, fun h => absurd h (hy'.late hlive).1, fun h => absurd h (hy'.late hlive).1,
      fun txid e he => .inl ?_, fun h => absurd hy'.unbuilt h.1, fun _ hlen => .inl hlen,
      fun _ => hy'.late hlive⟩
    exact hbuilds.recentBuilds ▸ he

theorem wp_finished {α : Type} {f : Option Receipt → α} (hx : Finished enc reply live clock₀ s₀ p x)
    {E : BuildError → EncoderSnap → Prop} {Q : α → EncoderSnap → Prop}
    (hQ : ∀ r y, (∀ a, Orderly enc reply live clock₀ s₀ ((y.returned a).cfg p)) → Q (f r) y) :
    wp (waitFreeContract enc reply live clock₀ s₀) p
      ((mintReceipt.bind fun receipt => .ret (f receipt)).answered reply) Q E x := by
  rw [mintReceipt_eq]
  intro t ht
  have hne : x.call.seen ≠ [] := by
    intro hnil
    cases hnil ▸ hx.seen
  have hne' : x.call.seen ++ [(t, x.shared)] ≠ [] := by simp
  refine hQ _ ((x.tick t).store (x.shared.mintReservationTicket x.call.ledger t).2 x.call.ledger)
    fun a => ?_
  refine Orderly.advance (x := x) hx.inv ht rfl ?_ fun hlive => ?_
  · exact (hx.inv.computed p x.call (Snap.cfg_self x p)).more rfl rfl
      (.inr ⟨by have := hx.seen; omega, List.prefix_append ..⟩)
  · refine ⟨List.prefix_append .., fun h => absurd h hne, fun h => absurd h hne',
      fun txid e he => .inl ?_, fun h => ⟨h.1, ?_⟩, fun _ _ => .inl hx.seen, ?_⟩
    · exact mintReservationTicket_recentBuilds x.shared x.call.ledger t ▸ he
    · rintro ⟨e, t', h⟩
      cases h
    · rintro ⟨e, t', h⟩
      cases h

theorem buildSteps_eq {request : TxRequest} : buildSteps enc request =
    (prepareBuild enc request).bind fun pre =>
      ((bindObfuscationKey request.exactInputs pre.candidates).bind fun bound =>
        buildFromBound enc request pre bound).bind fun built => finishBuild enc built := by
  unfold buildSteps
  simp only [Coro.bind_eq, Coro.bind_bind]

/-- **A whole wait-free build.** -/
theorem wp_waitFree {request : TxRequest} (hwait : WaitFree enc reply request)
    (halone : live → ∃ pre' built txid, SucceedsAlone enc reply request clock₀ s₀ pre' built txid)
    (hx : Fresh request x) (hinv : Orderly enc reply live clock₀ s₀ (x.cfg p)) :
    wp (waitFreeContract enc reply live clock₀ s₀) p
      ((program enc (.createTransaction request)).answered reply)
      (fun a y => Orderly enc reply live clock₀ s₀ ((y.returned a).cfg p))
      (fun e y => Orderly enc reply live clock₀ s₀ ((y.threw e).cfg p)) x := by
  have hprogram : program enc (.createTransaction request) =
      (Coro.tryCatch ((buildSteps enc request).bind fun built => yieldTick.bind fun _ => .ret built)
        releaseAndRethrow).bind fun built => mintReceipt.bind fun receipt =>
          .ret (.transaction { built.result with reservation := receipt }) := by
    show (createTransaction enc request).bind _ = _
    rw [createTransaction_eq, Coro.bind_bind]
    rfl
  rw [hprogram, answered_bind, answered_tryCatch, wp_bind, wp_tryCatch, answered_bind, wp_bind,
    buildSteps_eq, answered_bind, wp_bind]
  refine wp_answered_quiet 0 (quiet_prepareBuild request) Reservations.empty Ledger.empty x
    hinv trivial (fun pre y hy hinv' hpre => ?_) fun e y hy hinv' he => ?_
  · have hcall := idle_call hy
    have hy' : Fresh request y :=
      ⟨hcall ▸ hx.command, hcall ▸ hx.ledger, hcall ▸ hx.seen, hcall ▸ hx.running⟩
    rw [answered_bind, wp_bind]
    refine wp_mono (fun b z hz => ?_) (fun e z hz => wp_failing hz) y
      (wp_claims hwait hpre halone hy' hinv')
    refine wp_mono (fun b z hz => ?_) (fun e z hz => wp_failing hz) z (wp_finish hz)
    rw [answered_bind, wp_bind]
    refine wp_answered_quiet 0 quiet_yieldTick Reservations.empty Ledger.empty z hz.inv
      trivial (fun _ z' hz' hinv'' _ => ?_) fun _ _ _ _ he => by cases he
    have hcall' := idle_call hz'
    exact wp_finished ⟨hinv'', hcall' ▸ hz.running, hcall' ▸ hz.recorded, hcall' ▸ hz.seen⟩
      fun _ _ h => h _
  · have hcall := idle_call hy
    refine wp_failing ⟨hinv', hcall ▸ hx.running, ?_, fun hlive => ?_⟩
    · rw [hcall, hx.ledger]
      rfl
    · obtain ⟨pre, built, txid, hs⟩ := halone hlive
      cases he.symm.trans hs.prepares

/-! ## Runs -/

variable (enc reply) in
/-- The command asks for a wait-free build, which succeeds alone where that is asked for. -/
def StartsWaitFree (live : Prop) (clock₀ : ℕ) (s₀ : Reservations) (command : Command) : Prop :=
  ∃ request, command = .createTransaction request ∧ WaitFree enc reply request ∧
    (live → ∃ pre built txid, SucceedsAlone enc reply request clock₀ s₀ pre built txid)

open Classical in
variable (enc reply) in
/-- Wait-free builds under the replies; any other command returns at once. -/
noncomputable def waitFreeProgram (live : Prop) (clock₀ : ℕ) (s₀ : Reservations)
    (command : Command) : Prog CallResult :=
  if StartsWaitFree enc reply live clock₀ s₀ command then (program enc command).answered reply
  else .ret (.release ⟨0, false, [], []⟩)

theorem Orderly.start {g : Cfg sig Command CallResult} {command : Command}
    (h : Orderly enc reply live clock₀ s₀ g) (hp : g.calls p = none) {stage : Stage sig CallResult}
    (hstage : ∀ e t, stage ≠ .threw e t) :
    Orderly enc reply live clock₀ s₀ ⟨g.clock, g.shared,
      Function.update g.calls p (some ⟨command, Ledger.empty, [], g.clock, stage⟩)⟩ := by
  have hold : ∀ q d, g.calls q = some d → Function.update g.calls p
      (some ⟨command, Ledger.empty, [], g.clock, stage⟩) q = some d := by
    intro q d hd
    have hq : q ≠ p := by
      rintro rfl
      cases hp.symm.trans hd
    rwa [Function.update_of_ne hq]
  have hnew : ∀ q d, Function.update g.calls p
      (some ⟨command, Ledger.empty, [], g.clock, stage⟩) q = some d →
      d = ⟨command, Ledger.empty, [], g.clock, stage⟩ ∨ g.calls q = some d := by
    intro q d hd
    by_cases hq : q = p
    · subst hq
      rw [Function.update_self] at hd
      exact .inl (Option.some.inj hd).symm
    · rw [Function.update_of_ne hq] at hd
      exact .inr hd
  refine ⟨h.clock, fun q d hd => ?_, fun hlive => ?_⟩
  · rcases hnew q d hd with rfl | hd
    · exact fun _ _ => rfl
    · exact h.computed q d hd
  · have hprogress := h.progress hlive
    refine ⟨fun q d hd hthrown => ?_, fun hall => ?_, fun q d hd hne => ?_, fun txid e he => ?_,
      fun q d hd hmap hlen => ?_⟩
    · rcases hnew q d hd with rfl | hd
      · obtain ⟨e, t, ht⟩ := hthrown
        exact absurd ht (hstage e t)
      · exact hprogress.late q d hd hthrown
    · exact hprogress.fresh fun q d hd => hall q d (hold q d hd)
    · rcases hnew q d hd with rfl | hd
      · exact absurd rfl hne
      · obtain ⟨q', d', hd', hfirst⟩ := hprogress.first q d hd hne
        exact ⟨q', d', hold q' d' hd', hfirst⟩
    · refine (hprogress.builds txid e he).imp_right ?_
      rintro ⟨q', d', hd', hr⟩
      exact ⟨q', d', hold q' d' hd', hr⟩
    · rcases hnew q d hd with rfl | hd
      · cases hlen
      · obtain ⟨q', d', hd', hr⟩ := hprogress.past q d hd hmap hlen
        exact ⟨q', d', hold q' d' hd', hr⟩

theorem waitFree_meets : Meets (waitFreeProgram enc reply live clock₀ s₀) Ledger.empty
    (waitFreeContract enc reply live clock₀ s₀)
    (fun _ p a y => Orderly enc reply live clock₀ s₀ ((y.returned a).cfg p))
    (fun _ p e y => Orderly enc reply live clock₀ s₀ ((y.threw e).cfg p)) where
  pass g t ht h := ⟨h.clock.trans ht, h.computed, fun hlive =>
    let hp := h.progress hlive
    ⟨hp.late, hp.fresh, hp.first, hp.builds, hp.past⟩⟩
  start g p command hp h := by
    unfold waitFreeProgram
    split_ifs with hstart
    · obtain ⟨request, rfl, hwait, halone⟩ := hstart
      exact wp_waitFree hwait halone ⟨rfl, rfl, rfl, rfl⟩
        (h.start hp fun e t h => by cases h)
    · exact h.start hp fun e t h => by cases h
  returned _ _ _ _ h := ⟨h, trivial⟩
  threw _ _ _ _ h := ⟨h, trivial⟩

theorem orderly_run {events : List (Event sig Command)} (hempty : s₀.outpointReservations = fun _ => none)
    (hanswers : ∀ ev ∈ events, AnswersWith reply ev)
    (hstarts : ∀ command ds, .start command ds ∈ events →
      StartsWaitFree enc reply live clock₀ s₀ command) :
    Orderly enc reply live clock₀ s₀
      (run (program enc) Ledger.empty (World.init clock₀ s₀) events).cfg := by
  have hinit : Orderly enc reply live clock₀ s₀
      (⟨clock₀, s₀, fun _ => none⟩ : Cfg sig Command CallResult) :=
    ⟨le_rfl, (fun _ _ h => by cases h), fun _ => ⟨(fun _ _ h => by cases h), fun _ => hempty,
      (fun _ _ h => by cases h), fun _ _ he => .inl he, fun _ _ h => by cases h⟩⟩
  have hsound := (invariant_run (waitFree_meets)
    hinit events).inv
  have hsame : ∀ command ds, .start command ds ∈ events →
      waitFreeProgram enc reply live clock₀ s₀ command = (program enc command).answered reply :=
    fun command ds hin => if_pos (hstarts command ds hin)
  rw [run_congr events hsame] at hsound
  have hanswered := run_answered (program enc) Ledger.empty events hanswers
    (World.init clock₀ s₀)
  rw [show (World.init clock₀ s₀ : EncoderWorld).answered reply = World.init clock₀ s₀ from rfl]
    at hanswered
  rw [hanswered] at hsound
  exact hsound

/-- **No mutual starvation.** In every run of wait-free builds from an empty reservation map, under one
set of replies, each call's claims are those selection computes from the map of its first reading; and
when every build would succeed alone and all have ended, one of them has succeeded. -/
theorem waitFree_progress (enc : Encoder) (reply : Replies sig) (clock₀ : ℕ) (s₀ : Reservations)
    (events : List (Event sig Command)) (hempty : s₀.outpointReservations = fun _ => none)
    (hanswers : ∀ ev ∈ events, AnswersWith reply ev)
    (hwait : ∀ command ds, .start command ds ∈ events →
      ∃ request, command = .createTransaction request ∧ WaitFree enc reply request) :
    (∀ p c, (run (program enc) Ledger.empty (World.init clock₀ s₀) events).cfg.calls p = some c →
      Computed enc reply c) ∧
    ((∀ request ds, .start (.createTransaction request) ds ∈ events →
        ∃ r, ((createTransaction enc request).alone reply clock₀ s₀ Ledger.empty).1 = .ok r) →
      (∀ p c, (run (program enc) Ledger.empty (World.init clock₀ s₀) events).cfg.calls p = some c →
        c.stage ≠ .running) →
      (∃ p c, (run (program enc) Ledger.empty (World.init clock₀ s₀) events).cfg.calls p = some c) →
      ∃ p c a t, (run (program enc) Ledger.empty (World.init clock₀ s₀) events).cfg.calls p = some c ∧
        c.stage = .returned a t) := by
  have horderly : ∀ live : Prop, (live → ∀ request ds, .start (.createTransaction request) ds ∈ events →
        ∃ r, ((createTransaction enc request).alone reply clock₀ s₀ Ledger.empty).1 = .ok r) →
      Orderly enc reply live clock₀ s₀
        (run (program enc) Ledger.empty (World.init clock₀ s₀) events).cfg := by
    intro live hlive
    refine orderly_run hempty hanswers fun command ds hin => ?_
    obtain ⟨request, rfl, hfree⟩ := hwait command ds hin
    refine ⟨request, rfl, hfree, fun hl => ?_⟩
    obtain ⟨r, hr⟩ := hlive hl request ds hin
    exact succeedsAlone hfree.funding hfree.greedy hempty hr
  refine ⟨(horderly False False.elim).computed, fun halone hended hsome => ?_⟩
  have hprogress := (horderly True fun _ => halone).progress trivial
  -- A call that ended and did not throw has returned.
  have hreturned : ∀ p c, (run (program enc) Ledger.empty (World.init clock₀ s₀) events).cfg.calls p =
      some c → ¬ Thrown c → ∃ a t, c.stage = .returned a t := by
    intro p c hc hthrown
    cases hstage : c.stage with
    | running => exact absurd hstage (hended p c hc)
    | returned a t => exact ⟨a, t, rfl⟩
    | threw e t => exact absurd ⟨e, t, hstage⟩ hthrown
  obtain ⟨p, c, hc⟩ := hsome
  by_cases hthrown : Thrown c
  · obtain ⟨q, d, hd, hfirst⟩ := hprogress.first p c hc (hprogress.late p c hc hthrown).1
    by_cases hthrown' : Thrown d
    · obtain ⟨q', d', hd', hrecorded⟩ := hprogress.past q d hd hfirst
        ((hprogress.late q d hd hthrown').2 hfirst)
      obtain ⟨a, t, hstage⟩ := hreturned q' d' hd' hrecorded.2
      exact ⟨q', d', a, t, hd', hstage⟩
    · obtain ⟨a, t, hstage⟩ := hreturned q d hd hthrown'
      exact ⟨q, d, a, t, hd, hstage⟩
  · obtain ⟨a, t, hstage⟩ := hreturned p c hc hthrown
    exact ⟨p, c, a, t, hc, hstage⟩

/-- A smaller payment from the same outputs. -/
def contendingPayment : TxRequest :=
  { exactPrefix 101651 600 with customOutputs := [⟨sampleAddress ⟨.btc, .mainnet⟩, 90000⟩] }

/-- Two payments from the same outputs, answered in turn. -/
def contendingPayments : List (Event sig Command) :=
  .start (.createTransaction (exactPrefix 101651 600)) [] ::
    .start (.createTransaction contendingPayment) [] ::
      (List.replicate 12 [answer 0, answer 1]).flatten

/-- Whether the request carries no data and is funded by outputs with a witness. -/
def paysFromWitness (request : TxRequest) : Bool :=
  (preparedPayload btcEncoder request).toOption.all (fun prepared =>
    prepared.dataBufferArray.isEmpty) &&
  ((prepareBuild btcEncoder request).alone sampleReply 0 Reservations.empty
    Ledger.empty).1.toOption.all fun pre => pre.candidates.all isSegwitUTXO

theorem waitFree_paysFromWitness {request : TxRequest} (h : paysFromWitness request = true)
    (hfunding : request.p2shHash = none) (hgreedy : request.exactInputs = false)
    (hattach : request.attachPrevTx = false) : WaitFree btcEncoder sampleReply request := by
  obtain ⟨hdata, hinputs⟩ := Bool.and_eq_true_iff.mp h
  refine waitFree_of_carriers hfunding hgreedy hattach (fun prepared hprepared => .inl ?_)
    fun pre hpre u hu => ?_
  · rw [hprepared] at hdata
    exact List.isEmpty_iff.mp hdata
  · rw [hpre] at hinputs
    rw [List.all_eq_true.mp hinputs u hu, Bool.or_true]

theorem contendingPayments_ended :
    (run (program btcEncoder) Ledger.empty (World.init 0 Reservations.empty)
      contendingPayments).next = 2 ∧
    ∀ p < 2, ∃ c ∈ (run (program btcEncoder) Ledger.empty (World.init 0 Reservations.empty)
      contendingPayments).cfg.calls p, (match c.stage with | .running => false | _ => true) = true := by
  decide +kernel

/-- The two payments contend for one output, and one of them succeeds. -/
theorem waitFree_progress_payments :
    (∀ p c, (run (program btcEncoder) Ledger.empty (World.init 0 Reservations.empty)
      contendingPayments).cfg.calls p = some c → Computed btcEncoder sampleReply c) ∧
    ∃ p c a t, (run (program btcEncoder) Ledger.empty (World.init 0 Reservations.empty)
      contendingPayments).cfg.calls p = some c ∧ c.stage = .returned a t := by
  have hstarts : ∀ command ds, .start command ds ∈ contendingPayments →
      command = .createTransaction (exactPrefix 101651 600) ∨
        command = .createTransaction contendingPayment := by
    intro command ds hin
    rcases List.mem_cons.mp hin with h | hin
    · cases h
      exact .inl rfl
    rcases List.mem_cons.mp hin with h | hin
    · cases h
      exact .inr rfl
    · obtain ⟨_, hl, hin⟩ := List.mem_flatten.mp hin
      rw [List.eq_of_mem_replicate hl] at hin
      simp [answer] at hin
  have hanswers : ∀ ev ∈ contendingPayments, AnswersWith sampleReply ev := by
    intro ev hin
    rcases List.mem_cons.mp hin with rfl | hin
    · trivial
    rcases List.mem_cons.mp hin with rfl | hin
    · trivial
    · obtain ⟨_, hl, hin⟩ := List.mem_flatten.mp hin
      rw [List.eq_of_mem_replicate hl] at hin
      simp only [List.mem_cons, List.not_mem_nil, or_false] at hin
      rcases hin with rfl | rfl <;> rfl
  have hprogress := waitFree_progress btcEncoder sampleReply 0 Reservations.empty contendingPayments rfl
    hanswers fun command ds hin => by
      rcases hstarts command ds hin with rfl | rfl
      · exact ⟨_, rfl, waitFree_paysFromWitness (by decide +kernel) rfl rfl rfl⟩
      · exact ⟨_, rfl, waitFree_paysFromWitness (by decide +kernel) rfl rfl rfl⟩
  refine ⟨hprogress.1, hprogress.2 (fun request ds hin => ?_) (fun p c hc => ?_) ?_⟩
  · have hsome : ∀ r : Except BuildError TxResult, r.toOption.isSome = true → ∃ a, r = .ok a := by
      rintro (_ | a) h
      · cases h
      · exact ⟨a, rfl⟩
    rcases hstarts _ ds hin with h | h <;> cases h <;> exact hsome _ (by decide +kernel)
  · have hp : p < 2 := by
      by_contra hge
      have := (encoderRun_sound btcEncoder 0 contendingPayments).fresh p
        (contendingPayments_ended.1.trans_le (not_lt.mp hge))
      cases hc.symm.trans this
    obtain ⟨c', hc', hstage⟩ := contendingPayments_ended.2 p hp
    cases hc.symm.trans hc'
    intro hrunning
    rw [hrunning] at hstage
    cases hstage
  · obtain ⟨c, hc, -⟩ := contendingPayments_ended.2 0 Nat.two_pos
    exact ⟨0, c, hc⟩

end XChain
