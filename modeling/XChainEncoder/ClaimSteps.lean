import XChainEncoder.ReservationEndings

/-!
# What a running call does to the maps

The rules for one call between two awaits, over the invariant of the maps.

* `records`, `Agrees`: the calls of a configuration as records; its maps agree with them;
* `encoderContract`: what calls rely on and guarantee;
* `Running`, `At`: a call runs and the maps agree with it; tickets and recent builds are as it found
  them;
* `wp_quiet_at`, `At.tick`, `At.store`: awaiting, reading the clock and writing;
* `wp_bindObfuscationKey`: **binding the key claims exactly the candidates claimed ahead**.
-/

namespace XChain

open PushScript Coroutine

/-- One call of the encoder. -/
abbrev EncoderCall : Type := Call sig Command CallResult

/-- What a running call of the encoder sees. -/
abbrev EncoderSnap : Type := Snap sig Command CallResult

/-! ## Configurations as records -/

/-- The calls of a configuration, as records. -/
def records (calls : ℕ → Option EncoderCall) : Records := fun p =>
  (calls p).map fun c => ⟨c.command, c.ledger, c.stage⟩

/-- The maps agree with the calls. -/
def Agrees (g : Cfg sig Command CallResult) : Prop := Inv g.clock g.shared (records g.calls)

theorem agrees_cfg {p : ℕ} {x : EncoderSnap} :
    Agrees (x.cfg p) ↔ Inv x.clock x.shared
      ((records x.others).set p ⟨x.call.command, x.call.ledger, x.call.stage⟩) := by
  have h : records (Function.update x.others p (some x.call)) =
      (records x.others).set p ⟨x.call.command, x.call.ledger, x.call.stage⟩ := by
    funext q
    by_cases hq : q = p
    · subst hq
      simp [records]
    · simp [records, Records.set, Function.update_of_ne hq]
  unfold Agrees Snap.cfg
  rw [h]

/-- The live tickets and recent builds of `s` are in `s'`. -/
structure KeepsLive (t : ℕ) (s s' : Reservations) : Prop where
  liveBuilds : ∀ txid e, s.recentBuilds txid = some e → t < e → s'.recentBuilds txid = some e
  liveTickets : ∀ id ticket, s.reservationTickets id = some ticket → t < ticket.expiry →
    s'.reservationTickets id = some ticket

/-- The tickets and recent builds of `s` are those of `s'`, up to lapsed ones. -/
structure Untouched (t : ℕ) (s s' : Reservations) : Prop extends KeepsLive t s s' where
  recentBuilds : ∀ txid e, s'.recentBuilds txid = some e → s.recentBuilds txid = some e
  tickets : ∀ id ticket, s'.reservationTickets id = some ticket →
    s.reservationTickets id = some ticket

section Keeps

variable {t t' : ℕ} {s s' s'' : Reservations}

theorem KeepsLive.refl (t : ℕ) (s : Reservations) : KeepsLive t s s :=
  ⟨fun _ _ h _ => h, fun _ _ h _ => h⟩

theorem KeepsLive.trans (h : KeepsLive t s s') (h' : KeepsLive t s' s'') : KeepsLive t s s'' where
  liveBuilds txid e he hl := h'.liveBuilds txid e (h.liveBuilds txid e he hl) hl
  liveTickets id ticket ht hl := h'.liveTickets id ticket (h.liveTickets id ticket ht hl) hl

theorem KeepsLive.pass (h : KeepsLive t s s') (ht : t ≤ t') : KeepsLive t' s s' where
  liveBuilds txid e he hl := h.liveBuilds txid e he (by omega)
  liveTickets id ticket hid hl := h.liveTickets id ticket hid (by omega)

namespace Untouched

theorem refl (t : ℕ) (s : Reservations) : Untouched t s s :=
  ⟨.refl t s, fun _ _ h => h, fun _ _ h => h⟩

theorem trans (h : Untouched t s s') (h' : Untouched t s' s'') : Untouched t s s'' where
  toKeepsLive := h.toKeepsLive.trans h'.toKeepsLive
  recentBuilds txid e he := h.recentBuilds txid e (h'.recentBuilds txid e he)
  tickets id ticket ht := h.tickets id ticket (h'.tickets id ticket ht)

theorem pass (h : Untouched t s s') (ht : t ≤ t') : Untouched t' s s' where
  toKeepsLive := h.toKeepsLive.pass ht
  recentBuilds := h.recentBuilds
  tickets := h.tickets

theorem of_sweeps (h : Sweeps t s s') : Untouched t s s' :=
  ⟨⟨h.liveBuilds, h.liveTickets⟩, h.recentBuilds, h.tickets⟩

theorem of_sameBuilds (h : Reservations.SameBuilds s s') : Untouched t s s' where
  recentBuilds _ _ he := by rwa [← h.recentBuilds]
  liveBuilds _ _ he _ := by rwa [h.recentBuilds]
  tickets _ _ ht := by rwa [← h.reservationTickets]
  liveTickets _ _ ht _ := by rwa [h.reservationTickets]

end Untouched

end Keeps

/-- What calls rely on and guarantee: the maps agree with the calls, and only a release call takes
live tickets or recent builds away. -/
def encoderContract : Contract sig Command CallResult where
  inv := Agrees
  keeps x := (∀ id, x.call.command ≠ .releaseReservation id) →
    KeepsLive x.clock x.entered x.shared
  keeps_enter x h _ := h ▸ .refl x.clock x.entered

/-- The call `c` runs in `x`: the maps agree with it, and its claims run for a full term from its
start. -/
structure Running (p : ℕ) (c : EncoderCall) (x : EncoderSnap) : Prop where
  call : x.call = c
  running : c.stage = .running
  started : c.startedAt ≤ x.clock
  fresh : ∀ claim ∈ c.ledger.claims, c.startedAt + reservationTtlMs ≤ claim.expiry
  inv : Inv x.clock x.shared ((records x.others).set p (.running c.command c.ledger))
  keeps : KeepsLive x.clock x.entered x.shared

/-- The call runs, and has left tickets and recent builds alone since it was resumed. -/
structure At (p : ℕ) (c : EncoderCall) (x : EncoderSnap) : Prop extends Running p c x where
  untouched : Untouched x.clock x.entered x.shared

section At

variable {p : ℕ} {c : EncoderCall} {x y : EncoderSnap}

theorem Running.agrees (h : Running p c x) : Agrees (x.cfg p) := by
  rw [agrees_cfg, h.call, h.running]
  exact h.inv

theorem Running.guarantees (h : Running p c x) : encoderContract.keeps x := fun _ => h.keeps

theorem Running.later (h : Running p c x) {t : ℕ} {s : Reservations}
    {o : ℕ → Option EncoderCall} (ht : x.clock ≤ t) (hI : Agrees ((x.later t s o).cfg p)) :
    At p c (x.later t s o) := by
  rw [agrees_cfg] at hI
  have hI' : Inv t s ((records o).set p ⟨x.call.command, x.call.ledger, x.call.stage⟩) := hI
  rw [h.call, h.running] at hI'
  exact
    { call := h.call
      running := h.running
      started := h.started.trans ht
      fresh := h.fresh
      inv := hI'
      keeps := .refl t s
      untouched := .refl t s }

theorem At.idle (h : At p c x) (hi : x.Idle y) (hI : Agrees (y.cfg p)) : At p c y := by
  rcases hi with rfl | ⟨t, s, o, ht, rfl⟩
  · exact h
  · exact h.later ht hI

/-- Reading the clock. -/
theorem At.tick (h : At p c x) {t : ℕ} (ht : x.clock ≤ t) :
    At p { c with seen := c.seen ++ [(t, x.shared)] } (x.tick t) where
  call := by rw [← h.call]; rfl
  running := h.running
  started := h.started.trans ht
  fresh := h.fresh
  inv := h.inv.pass ht
  keeps := h.keeps.pass ht
  untouched := h.untouched.pass ht

theorem Running.store (h : Running p c x) {s : Reservations} {l : Ledger}
    (hI : Inv x.clock s ((records x.others).set p (.running c.command l)))
    (hk : KeepsLive x.clock x.shared s)
    (hf : ∀ claim ∈ l.claims, c.startedAt + reservationTtlMs ≤ claim.expiry) :
    Running p { c with ledger := l } (x.store s l) where
  call := by rw [← h.call]; rfl
  running := h.running
  started := h.started
  fresh := hf
  inv := hI
  keeps := h.keeps.trans hk

theorem At.store (h : At p c x) {s : Reservations} {l : Ledger}
    (hI : Inv x.clock s ((records x.others).set p (.running c.command l)))
    (hu : Untouched x.clock x.shared s)
    (hf : ∀ claim ∈ l.claims, c.startedAt + reservationTtlMs ≤ claim.expiry) :
    At p { c with ledger := l } (x.store s l) where
  toRunning := h.toRunning.store hI hu.toKeepsLive hf
  untouched := h.untouched.trans hu

theorem At.sweep (h : At p c x) {s : Reservations} (hs : Sweeps x.clock x.shared s) :
    At p c (x.store s c.ledger) :=
  h.store (h.inv.sweep hs) (.of_sweeps hs) h.fresh

end At

/-- `c'` is `c` later on: the same command and start, and the clock readings of `c` come first. -/
structure Continues (c c' : EncoderCall) : Prop where
  command : c'.command = c.command
  startedAt : c'.startedAt = c.startedAt
  seen : c.seen <+: c'.seen

namespace Continues

variable {c c' c'' : EncoderCall}

theorem refl (c : EncoderCall) : Continues c c := ⟨rfl, rfl, List.prefix_rfl⟩

theorem trans (h : Continues c c') (h' : Continues c' c'') : Continues c c'' :=
  ⟨h'.command.trans h.command, h'.startedAt.trans h.startedAt, h.seen.trans h'.seen⟩

end Continues

/-- A quiet program leaves the call where it is. -/
theorem wp_quiet_at {α : Type} {p : ℕ} {c : EncoderCall} {x : EncoderSnap} {prog : Prog α}
    {R : α → Prop} {T : BuildError → Prop} {Q : α → EncoderSnap → Prop}
    {E : BuildError → EncoderSnap → Prop} (hx : At p c x) (hq : Quiet prog)
    (ha : Always R T prog) (hQ : ∀ a y, x.clock ≤ y.clock → At p c y → R a → Q a y)
    (hE : ∀ e y, x.clock ≤ y.clock → At p c y → T e → E e y) : wp encoderContract p prog Q E x := by
  have hclock : ∀ {y : EncoderSnap}, x.Idle y → x.clock ≤ y.clock := by
    rintro y (rfl | ⟨t, s, o, ht, rfl⟩)
    · exact le_rfl
    · exact ht
  exact wp_quiet hq ha x hx.agrees hx.toRunning.guarantees
    (fun a y hi hI hR => hQ a y (hclock hi) (hx.idle hi hI) hR)
    (fun e y hi hI hT => hE e y (hclock hi) (hx.idle hi hI) hT)

/-! ## Binding the key -/

section Bind

variable {p now t : ℕ} {s s' : Reservations} {key : Outpoint}

theorem Sweeps.free (h : Sweeps t s s') (hf : s.table.Free key now) : s'.table.Free key now := by
  intro e he
  rcases h.stamp key with hk | ⟨hk, -⟩
  · exact hf e (hk.symm.trans he)
  · cases hk.symm.trans he

theorem free_isOutpointReserved (h : (s.isOutpointReserved key now).1 = false) :
    (s.isOutpointReserved key now).2.table.Free key now := by
  unfold Reservations.isOutpointReserved at h ⊢
  cases hs : s.outpointReservations key with
  | none =>
    intro e he
    cases hs.symm.trans he
  | some expiry =>
    simp only [hs] at h ⊢
    split_ifs at h ⊢
    intro e he
    replace he : Function.update s.outpointReservations key none key = some e := he
    rw [Function.update_self] at he
    cases he

theorem sweeps_heldByOthers (hn : now ≤ t) (keys : List Outpoint) (s : Reservations) :
    Sweeps t s (heldByOthers now keys s).2 := by
  induction keys generalizing s with
  | nil => exact .refl t s
  | cons k ks ih => exact (Sweeps.isOutpointReserved hn k).trans (ih _)

theorem free_heldByOthers (hn : now ≤ t) (keys : List Outpoint) (s : Reservations)
    (h : (heldByOthers now keys s).1 = []) :
    ∀ k ∈ keys, (heldByOthers now keys s).2.table.Free k now := by
  induction keys generalizing s with
  | nil => rintro k ⟨⟩
  | cons k ks ih =>
    simp only [heldByOthers] at h ⊢
    split_ifs at h with hr
    rintro k' hk'
    rcases List.mem_cons.mp hk' with rfl | hk'
    · exact (sweeps_heldByOthers hn ks _).free
        (free_isOutpointReserved (Bool.eq_false_iff.mpr hr))
    · exact ih _ h k' hk'

theorem inv_claimAll {request : TxRequest} {v : Records} (hn : now ≤ t) (us : List Utxo)
    (l : Ledger) (s : Reservations)
    (h : Inv t s (v.set p (.running (.createTransaction request) l)))
    (hfree : ∀ u ∈ us, s.table.Free (outpointKey u) now)
    (hnd : (l.claims.map Claim.key ++ us.map outpointKey).Nodup) :
    Inv t (claimAll now us l s).2
        (v.set p (.running (.createTransaction request) (claimAll now us l s).1)) ∧
      Reservations.SameBuilds s (claimAll now us l s).2 ∧
      (claimAll now us l s).1.buildTxid = l.buildTxid ∧
      (claimAll now us l s).1.claims =
        l.claims ++ us.map fun u => ⟨outpointKey u, now + reservationTtlMs, none⟩ := by
  induction us generalizing l s with
  | nil => exact ⟨h, .refl s, rfl, (List.append_nil _).symm⟩
  | cons u us ih =>
    have hnd' := hnd
    rw [List.map_cons, List.nodup_append] at hnd
    have hu : outpointKey u ∉ l.claims.map Claim.key := fun hin =>
      hnd.2.2 _ hin _ List.mem_cons_self rfl
    have hclaim := h.claim hn (hfree u List.mem_cons_self) hu
    have hrest : ∀ u' ∈ us, (s.claimOutpoint l (outpointKey u) now).2.table.Free (outpointKey u')
        now := by
      intro u' hu' e he
      have hne : outpointKey u' ≠ outpointKey u := fun heq =>
        (List.nodup_cons.mp hnd.2.1).1 (heq ▸ List.mem_map_of_mem hu')
      exact hfree u' (List.mem_cons_of_mem u hu') e ((Function.update_of_ne hne ..).symm.trans he)
    obtain ⟨hI, hs, hb, hc⟩ := ih _ _ hclaim hrest (by
      show ((l.claims ++ [_]).map Claim.key ++ us.map outpointKey).Nodup
      simpa [List.append_assoc] using hnd')
    have hfirst : Reservations.SameBuilds s (s.claimOutpoint l (outpointKey u) now).2 :=
      ⟨rfl, rfl, rfl⟩
    refine ⟨hI, hfirst.trans hs, hb, hc.trans ?_⟩
    show l.claims ++ [_] ++ _ = _
    rw [List.append_assoc]
    rfl

theorem isOutpointReserved_eq_true :
    (s.isOutpointReserved key now).1 = true ↔
      ∃ e, s.outpointReservations key = some e ∧ now < e := by
  unfold Reservations.isOutpointReserved
  cases hs : s.outpointReservations key with
  | none => simp
  | some expiry =>
    simp only [Option.some.injEq, exists_eq_left']
    split_ifs with h
    · simp [h]
    · simp [not_le.mp h]

theorem Sweeps.isOutpointReserved_eq (h : Sweeps now s s') (key : Outpoint) :
    (s'.isOutpointReserved key now).1 = (s.isOutpointReserved key now).1 := by
  rw [Bool.eq_iff_iff, isOutpointReserved_eq_true, isOutpointReserved_eq_true]
  rcases h.stamp key with hk | ⟨hk, hf⟩
  · rw [hk]
  · refine iff_of_false ?_ ?_
    · rintro ⟨e, he, -⟩
      cases hk.symm.trans he
    · rintro ⟨e, he, hl⟩
      exact absurd hl (Nat.not_lt.mpr (hf e he))

/-- The first candidate no other build holds. -/
def firstFree (now : ℕ) (s : Reservations) (utxos : List Utxo) : Option Utxo :=
  utxos.find? fun u => !(s.isOutpointReserved (outpointKey u) now).1

theorem findFreeInput_spec (hn : now ≤ t) (us : List Utxo) (skipped : List Utxo)
    (s : Reservations) :
    Sweeps t s (findFreeInput now skipped us s).2 ∧
      (findFreeInput now skipped us s).1.map Prod.fst = firstFree now s us ∧
      ∀ r ∈ (findFreeInput now skipped us s).1, (r.1 :: r.2).Perm (skipped ++ us) ∧
        (findFreeInput now skipped us s).2.table.Free (outpointKey r.1) now := by
  induction us generalizing skipped s with
  | nil => exact ⟨.refl t s, rfl, by rintro r ⟨⟩⟩
  | cons u us ih =>
    simp only [findFreeInput, firstFree, List.find?_cons]
    by_cases hr : (s.isOutpointReserved (outpointKey u) now).1 = true
    · simp only [hr, if_true, Bool.not_true]
      obtain ⟨hs, hfirst, hrest⟩ := ih (skipped ++ [u]) (s.isOutpointReserved (outpointKey u) now).2
      refine ⟨(Sweeps.isOutpointReserved hn _).trans hs, hfirst.trans ?_, fun r hr' => ?_⟩
      · unfold firstFree
        congr 1
        funext u'
        rw [(Sweeps.isOutpointReserved le_rfl (outpointKey u)).isOutpointReserved_eq]
      · obtain ⟨hp, hf⟩ := hrest r hr'
        exact ⟨by simpa [List.append_assoc] using hp, hf⟩
    · rw [Bool.not_eq_true] at hr
      simp only [hr, Bool.false_eq_true, if_false, Bool.not_false, Option.map_some]
      refine ⟨.isOutpointReserved hn _, trivial, ?_⟩
      rintro r ⟨⟩
      exact ⟨List.perm_middle.symm, free_isOutpointReserved hr⟩

end Bind

/-- The candidates a build claims when it binds its key. -/
def claimedAhead (exactInputs : Bool) (first : Option Outpoint) (u : Utxo) : Bool :=
  exactInputs || first = some (outpointKey u)

/-- What binding leaves behind: the candidates in their new order, and claims on those that are
claimed ahead of selection. -/
structure BoundAt (exactInputs : Bool) (utxos : List Utxo) (c c' : EncoderCall) (b : Bound) :
    Prop where
  perm : b.utxos.Perm utxos
  claims : c'.ledger.claims.map Claim.key =
    (b.utxos.filter (claimedAhead exactInputs b.firstReservedOutpoint)).map outpointKey
  buildTxid : c'.ledger.buildTxid = none
  /-- In greedy mode only the first candidate is claimed ahead. -/
  tail : exactInputs = false → ∀ u ∈ b.utxos.tail, b.firstReservedOutpoint ≠ some (outpointKey u)
  greedy : exactInputs = false → utxos ≠ [] → ∃ r : ℕ × Reservations, c'.seen = c.seen ++ [r] ∧
    b.firstReservedOutpoint = (firstFree r.1 r.2 utxos).map outpointKey
  keys : exactInputs = false →
    c'.ledger.claims.map Claim.key = b.firstReservedOutpoint.toList
  idle : utxos = [] → c' = c

section BindRule

variable {p : ℕ} {c : EncoderCall} {x : EncoderSnap} {request : TxRequest} {utxos : List Utxo}

/-- A call goes on, or has failed before it recorded a build. -/
def FailedAt (p : ℕ) (c : EncoderCall) (y : EncoderSnap) : Prop :=
  ∃ c', At p c' y ∧ Continues c c' ∧ c'.ledger.buildTxid = none

theorem claimedAhead_exact (first : Option Outpoint) (us : List Utxo) :
    us.filter (claimedAhead true first) = us :=
  List.filter_eq_self.mpr fun _ _ => rfl

section Pure

variable {v : Records} {t : ℕ} {s : Reservations}

theorem inv_claimExactInputs
    (h : Inv t s (v.set p (.running (.createTransaction request) Ledger.empty)))
    (hnd : (utxos.map outpointKey).Nodup) :
    Inv t (claimExactInputs t utxos Ledger.empty s).2.2
        (v.set p (.running (.createTransaction request)
          (claimExactInputs t utxos Ledger.empty s).2.1)) ∧
      Untouched t s (claimExactInputs t utxos Ledger.empty s).2.2 ∧
      (claimExactInputs t utxos Ledger.empty s).2.1.buildTxid = none ∧
      (∀ claim ∈ (claimExactInputs t utxos Ledger.empty s).2.1.claims,
        claim.expiry = t + reservationTtlMs) ∧
      ((claimExactInputs t utxos Ledger.empty s).1 = .ok () →
        (claimExactInputs t utxos Ledger.empty s).2.1.claims.map Claim.key =
          utxos.map outpointKey) := by
  have hsw : Sweeps t s (heldByOthers t (utxos.map outpointKey)
      (s.evictExpiredReservations t)).2 :=
    (Sweeps.evictExpiredReservations le_rfl).trans (sweeps_heldByOthers le_rfl _ _)
  have hinv := h.sweep hsw
  unfold claimExactInputs
  by_cases hheld : (heldByOthers t (utxos.map outpointKey) (s.evictExpiredReservations t)).1 = []
  · simp only [hheld, ne_eq, not_true_eq_false, if_false]
    obtain ⟨hI, hsb, hb, hcl⟩ := inv_claimAll le_rfl utxos Ledger.empty _ hinv
      (fun u hu => free_heldByOthers le_rfl _ _ hheld _ (List.mem_map_of_mem hu))
      (by simpa [Ledger.empty] using hnd)
    simp only [Ledger.empty, List.nil_append] at hcl
    refine ⟨hI, (Untouched.of_sweeps hsw).trans (.of_sameBuilds hsb), hb, ?_, fun _ => ?_⟩
    · intro claim hin
      obtain ⟨u, -, rfl⟩ := List.mem_map.mp (hcl ▸ hin)
      rfl
    · exact (congrArg (List.map Claim.key) hcl).trans (List.map_map ..)
  · simp only [hheld, ne_eq, not_false_eq_true, if_true]
    exact ⟨hinv, .of_sweeps hsw, rfl, by rintro _ ⟨⟩, by rintro ⟨⟩⟩

/-- Greedy mode claims the first free candidate and moves it to the front. -/
theorem inv_claimFirstFreeInput
    (h : Inv t s (v.set p (.running (.createTransaction request) Ledger.empty)))
    (hnd : (utxos.map outpointKey).Nodup) :
    Inv t (claimFirstFreeInput t utxos Ledger.empty s).2.2
        (v.set p (.running (.createTransaction request)
          (claimFirstFreeInput t utxos Ledger.empty s).2.1)) ∧
      Untouched t s (claimFirstFreeInput t utxos Ledger.empty s).2.2 ∧
      (claimFirstFreeInput t utxos Ledger.empty s).2.1.buildTxid = none ∧
      (∀ claim ∈ (claimFirstFreeInput t utxos Ledger.empty s).2.1.claims,
        claim.expiry = t + reservationTtlMs) ∧
      (claimFirstFreeInput t utxos Ledger.empty s).1.utxos.Perm utxos ∧
      (claimFirstFreeInput t utxos Ledger.empty s).1.firstReservedOutpoint =
        (firstFree t s utxos).map outpointKey ∧
      (claimFirstFreeInput t utxos Ledger.empty s).2.1.claims.map Claim.key =
        ((claimFirstFreeInput t utxos Ledger.empty s).1.utxos.filter (claimedAhead false
          (claimFirstFreeInput t utxos Ledger.empty s).1.firstReservedOutpoint)).map outpointKey ∧
      (claimFirstFreeInput t utxos Ledger.empty s).2.1.claims.map Claim.key =
        (claimFirstFreeInput t utxos Ledger.empty s).1.firstReservedOutpoint.toList ∧
      ∀ u ∈ (claimFirstFreeInput t utxos Ledger.empty s).1.utxos.tail,
        (claimFirstFreeInput t utxos Ledger.empty s).1.firstReservedOutpoint ≠
          some (outpointKey u) := by
  have hev : Sweeps t s (s.evictExpiredReservations t) := Sweeps.evictExpiredReservations le_rfl
  obtain ⟨hs, hfirst, hfree⟩ := findFreeInput_spec (le_refl t) utxos []
    (s.evictExpiredReservations t)
  have hsame : firstFree t (s.evictExpiredReservations t) utxos = firstFree t s utxos := by
    unfold firstFree
    congr 1
    funext u
    rw [hev.isOutpointReserved_eq]
  rw [hsame] at hfirst
  have hinv := h.sweep (hev.trans hs)
  unfold claimFirstFreeInput
  rcases hr : findFreeInput t [] utxos (s.evictExpiredReservations t) with ⟨found, s'⟩
  rw [hr] at hs hfirst hfree hinv
  cases found with
  | none =>
    simp only [Option.map_none] at hfirst
    simp only [hr, ← hfirst, Option.map_none]
    refine ⟨hinv, .of_sweeps (hev.trans hs), rfl, by rintro _ ⟨⟩, .refl _, trivial, ?_, rfl,
      by simp⟩
    simp [Ledger.empty, claimedAhead]
  | some found =>
    obtain ⟨u, others⟩ := found
    simp only [Option.map_some] at hfirst
    obtain ⟨hperm, hf⟩ := hfree _ rfl
    rw [List.nil_append] at hperm
    have hnd' : ((u :: others).map outpointKey).Nodup :=
      (hperm.map outpointKey).nodup_iff.mpr hnd
    have hothers : ∀ u' ∈ others, outpointKey u ≠ outpointKey u' := fun u' hu' he =>
      (List.nodup_cons.mp hnd').1 (he ▸ List.mem_map_of_mem hu')
    have hclaim := hinv.claim le_rfl hf (by simp [Ledger.empty])
    simp only [hr, ← hfirst, Option.map_some]
    refine ⟨hclaim, (Untouched.of_sweeps (hev.trans hs)).trans (.of_sameBuilds ⟨rfl, rfl, rfl⟩),
      rfl, ?_, hperm, trivial, ?_, rfl, ?_⟩
    · intro claim hin
      obtain rfl := List.mem_singleton.mp hin
      rfl
    · have hnone : others.filter (claimedAhead false (some (outpointKey u))) = [] :=
        List.filter_eq_nil_iff.mpr fun u' hu' => by simpa [claimedAhead] using hothers u' hu'
      simp [claimedAhead, hnone, Reservations.claimOutpoint, Reservations.reserveOutpoint,
        Ledger.empty]
    · exact fun u' hu' he => hothers u' hu' (Option.some.inj he)

end Pure

theorem bindObfuscationKey_exact (he : utxos ≠ []) :
    bindObfuscationKey true utxos = .now fun t => .get fun s l =>
      .put (claimExactInputs t utxos l s).2.2 (claimExactInputs t utxos l s).2.1
        ((Coro.ofExcept (σ := sig) (claimExactInputs t utxos l s).1).bind fun _ =>
          .ret { utxos, firstReservedOutpoint := none,
                 txidFirstInput := utxos.head?.map fun u => lower u.txid }) := by
  rw [bindObfuscationKey, if_neg he]
  rfl

theorem bindObfuscationKey_greedy (he : utxos ≠ []) :
    bindObfuscationKey false utxos = .now fun t => .get fun s l =>
      .put (claimFirstFreeInput t utxos l s).2.2 (claimFirstFreeInput t utxos l s).2.1
        (.ret (claimFirstFreeInput t utxos l s).1) := by
  rw [bindObfuscationKey, if_neg he]
  rfl

/-- **Binding the key claims exactly the candidates that are claimed ahead.** -/
theorem wp_bindObfuscationKey (hx : At p c x) (hc : c.command = .createTransaction request)
    (hl : c.ledger = Ledger.empty) (hnd : (utxos.map outpointKey).Nodup) (exactInputs : Bool) :
    wp encoderContract p (bindObfuscationKey exactInputs utxos)
      (fun b y => ∃ c', At p c' y ∧ Continues c c' ∧ BoundAt exactInputs utxos c c' b)
      (fun _ y => FailedAt p c y) x := by
  by_cases he : utxos = []
  · subst he
    exact ⟨c, hx, .refl c,
      { perm := .refl _
        claims := by simp [hl, Ledger.empty]
        buildTxid := by simp [hl, Ledger.empty]
        tail := fun _ u hu => by cases hu
        greedy := fun _ h => absurd rfl h
        keys := fun _ => by simp [hl, Ledger.empty]
        idle := fun _ => rfl }⟩
  have hledger : x.call.ledger = Ledger.empty := by rw [hx.call, hl]
  have hinv : ∀ t, x.clock ≤ t → Inv t x.shared ((records x.others).set p
      (.running (.createTransaction request) Ledger.empty)) := fun t ht => by
    rw [← hc, ← hl]
    exact hx.inv.pass ht
  have hcont : ∀ (t : ℕ) (l : Ledger),
      Continues c { c with seen := c.seen ++ [(t, x.shared)], ledger := l } := fun _ _ =>
    ⟨rfl, rfl, List.prefix_append ..⟩
  have hlate : ∀ t, x.clock ≤ t → c.startedAt + reservationTtlMs ≤ t + reservationTtlMs :=
    fun t ht => Nat.add_le_add_right (hx.started.trans ht) _
  cases exactInputs with
  | true =>
    rw [bindObfuscationKey_exact he]
    intro t ht
    obtain ⟨hI, hu, hb, hexp, hkeys⟩ := inv_claimExactInputs (hinv t ht) hnd
    have hstore := (hx.tick ht).store (by rw [show (_ : Command) = _ from hc]; exact hI) hu
      fun claim hin => hexp claim hin ▸ hlate t ht
    rw [← hledger] at hstore hkeys hb
    refine (wp_bind _).mpr (wp_ofExcept (fun _ hok => ?_) fun e _ => ?_)
    · exact ⟨_, hstore, hcont t _,
        { perm := .refl _
          claims := by rw [claimedAhead_exact]; exact hkeys hok
          buildTxid := hb
          tail := fun h => by cases h
          greedy := fun h => by cases h
          keys := fun h => by cases h
          idle := fun h => absurd h he }⟩
    · exact ⟨_, hstore, hcont t _, hb⟩
  | false =>
    rw [bindObfuscationKey_greedy he]
    intro t ht
    obtain ⟨hI, hu, hb, hexp, hperm, hfirst, hkeys, honly, htail⟩ :=
      inv_claimFirstFreeInput (hinv t ht) hnd
    have hstore := (hx.tick ht).store (by rw [show (_ : Command) = _ from hc]; exact hI) hu
      fun claim hin => hexp claim hin ▸ hlate t ht
    rw [← hledger] at hstore hb hperm hfirst hkeys honly htail
    exact ⟨_, hstore, hcont t _,
      { perm := hperm
        claims := hkeys
        buildTxid := hb
        tail := fun _ => htail
        greedy := fun _ _ => ⟨_, rfl, hfirst⟩
        keys := fun _ => honly
        idle := fun h => absurd h he }⟩

end BindRule

end XChain
