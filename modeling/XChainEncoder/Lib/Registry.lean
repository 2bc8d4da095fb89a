import Mathlib.Algebra.Order.Group.Nat
import Mathlib.Logic.Function.Basic
import Mathlib.Tactic.Common

/-!
# Registries with stamps and tickets

A registry refuses a key that was registered less than `ttl` ago; the ticket of a registration may
take its stamp back early.

* `Table`, `Entry`: the stamps and tickets, and what one client did;
* `Consistent`: every untaken registration has its stamp until it lapses, and every live ticket is the
  one that may take it back;
* `Consistent.pass`, `Consistent.prune`, `Consistent.register`, `Consistent.mint`,
  `Consistent.release`: **time and every operation keep it**; so two registrations of one key less
  than `ttl` apart have a release between them.
-/

namespace Registry

variable {κ : Type} {ttl : ℕ}

/-- A ticket: until when it is good, and the key and stamp it takes back. -/
structure Ticket (κ : Type) where
  expiry : ℕ
  key : Option κ
  stamp : Option ℕ

/-- The stamps of the keys, and the tickets that are out. -/
structure Table (κ : Type) where
  stamp : κ → Option ℕ
  tickets : ℕ → Option (Ticket κ)
  nextId : ℕ

/-- What one client did: the key it registered and when; the ticket it got and when; the ticket it
released and when. -/
structure Entry (κ : Type) where
  registered : Option (κ × ℕ)
  receipt : Option (ℕ × ℕ)
  releases : Option (ℕ × ℕ)

/-- A client that did nothing yet. -/
def Entry.blank : Entry κ := ⟨none, none, none⟩

/-- All clients by their number. -/
abbrev Log (κ : Type) : Type := ℕ → Entry κ

/-- The ticket of `p` was released, at `m`, after it was given. -/
def ReleasedAt (v : Log κ) (p m : ℕ) : Prop :=
  ∃ id n k, (v p).receipt = some (id, n) ∧ (v k).releases = some (id, m) ∧ n ≤ m

/-- The registry agrees with what its clients did, at time `t`. -/
structure Consistent (ttl t : ℕ) (table : Table κ) (v : Log κ) : Prop where
  registered : ∀ p k c, (v p).registered = some (k, c) → c ≤ t
  receipt : ∀ p id m, (v p).receipt = some (id, m) → m ≤ t ∧ id < table.nextId
  releases : ∀ p id m, (v p).releases = some (id, m) → m ≤ t ∧ id < table.nextId
  once : ∀ p q id m n, (v p).receipt = some (id, m) → (v q).receipt = some (id, n) → p = q
  live : ∀ p k c, (v p).registered = some (k, c) → (∀ m, ¬ ReleasedAt v p m) → t < c + ttl →
    table.stamp k = some (c + ttl)
  ticketId : ∀ id ticket, table.tickets id = some ticket →
    id < table.nextId ∧ ∀ k m, (v k).releases ≠ some (id, m)
  issued : ∀ id ticket, table.tickets id = some ticket → t < ticket.expiry →
    ∃ p m, (v p).receipt = some (id, m) ∧ ∀ k e, ticket.key = some k → ticket.stamp = some e →
      ∃ c, (v p).registered = some (k, c) ∧ e = c + ttl
  apart : ∀ p q k c c', p ≠ q → (v p).registered = some (k, c) → (v q).registered = some (k, c') →
    c < c' + ttl → c' < c + ttl →
    (∃ m ≤ c', ReleasedAt v p m) ∨ ∃ m ≤ c, ReleasedAt v q m

/-! ## One client moves -/

section Moves

variable {v : Log κ} {p q m : ℕ} {b : Entry κ}

theorem eq_some_of_update {α : Type} (f : Entry κ → Option α) {a : α}
    (h : f (Function.update v p b q) = some a) :
    q = p ∧ f b = some a ∨ q ≠ p ∧ f (v q) = some a := by
  by_cases hq : q = p
  · subst hq
    rw [Function.update_self] at h
    exact .inl ⟨rfl, h⟩
  · rw [Function.update_of_ne hq] at h
    exact .inr ⟨hq, h⟩

/-- A client that gets no ticket and releases none leaves the releases alone. -/
theorem releasedAt_update (hreceipt : b.receipt = (v p).receipt) (hreleases : b.releases = (v p).releases) :
    ReleasedAt (Function.update v p b) q m ↔ ReleasedAt v q m := by
  have hr : ∀ x, (Function.update v p b x).receipt = (v x).receipt := fun x => by
    by_cases h : x = p
    · subst h
      simp [hreceipt]
    · simp [h]
  have hs : ∀ x, (Function.update v p b x).releases = (v x).releases := fun x => by
    by_cases h : x = p
    · subst h
      simp [hreleases]
    · simp [h]
  simp only [ReleasedAt, hr, hs]

end Moves

/-! ## Time and operations -/

variable {t t' : ℕ} {table table' : Table κ} {v : Log κ} {p : ℕ}

theorem consistent_empty (t : ℕ) (stamp : κ → Option ℕ) :
    Consistent ttl t ⟨stamp, fun _ => none, 0⟩ fun _ => Entry.blank where
  registered := by rintro p k c ⟨⟩
  receipt := by rintro p id m ⟨⟩
  releases := by rintro p id m ⟨⟩
  once := by rintro p q id m n ⟨⟩
  live := by rintro p k c ⟨⟩
  ticketId := by rintro id ticket ⟨⟩
  issued := by rintro id ticket ⟨⟩
  apart := by rintro p q k c c' - ⟨⟩

theorem Consistent.pass (h : Consistent ttl t table v) (ht : t ≤ t') :
    Consistent ttl t' table v where
  registered := fun p k c hp => (h.registered p k c hp).trans ht
  receipt := fun p id m hp => (h.receipt p id m hp).imp_left fun hm => hm.trans ht
  releases := fun p id m hp => (h.releases p id m hp).imp_left fun hm => hm.trans ht
  once := h.once
  live := fun p k c hp hrel hlt => h.live p k c hp hrel (ht.trans_lt hlt)
  ticketId := h.ticketId
  issued := fun id ticket hid hlt => h.issued id ticket hid (ht.trans_lt hlt)
  apart := h.apart

/-- Only lapsed stamps and tickets are dropped; ids may be drawn. -/
structure Prunes (t : ℕ) (table table' : Table κ) : Prop where
  stamp : ∀ k e, table.stamp k = some e → t < e → table'.stamp k = some e
  tickets : ∀ id ticket, table'.tickets id = some ticket → table.tickets id = some ticket
  nextId : table.nextId ≤ table'.nextId

theorem Prunes.refl (t : ℕ) (table : Table κ) : Prunes t table table :=
  ⟨fun _ _ h _ => h, fun _ _ h => h, le_rfl⟩

theorem Prunes.trans {table'' : Table κ} (h : Prunes t table table') (h' : Prunes t table' table'') :
    Prunes t table table'' :=
  ⟨fun k e hk ht => h'.stamp k e (h.stamp k e hk ht) ht,
    fun id ticket hid => h.tickets id ticket (h'.tickets id ticket hid), h.nextId.trans h'.nextId⟩

theorem Consistent.prune (h : Consistent ttl t table v) (hp : Prunes t table table') :
    Consistent ttl t table' v where
  registered := h.registered
  receipt := fun p id m hr => (h.receipt p id m hr).imp_right fun hid => hid.trans_le hp.nextId
  releases := fun p id m hr => (h.releases p id m hr).imp_right fun hid => hid.trans_le hp.nextId
  once := h.once
  live := fun p k c hr hrel hlt => hp.stamp k _ (h.live p k c hr hrel hlt) hlt
  ticketId := fun id ticket hid =>
    (h.ticketId id ticket (hp.tickets id ticket hid)).imp_left fun hlt => hlt.trans_le hp.nextId
  issued := fun id ticket hid => h.issued id ticket (hp.tickets id ticket hid)
  apart := h.apart

/-- The key is stamped; nothing else that is live is dropped. -/
structure Registers (ttl t : ℕ) (k : κ) (table table' : Table κ) : Prop where
  free : ∀ e, table.stamp k = some e → e ≤ t
  own : table'.stamp k = some (t + ttl)
  stamp : ∀ k' e, k' ≠ k → table.stamp k' = some e → t < e → table'.stamp k' = some e
  tickets : ∀ id ticket, table'.tickets id = some ticket → table.tickets id = some ticket
  nextId : table.nextId ≤ table'.nextId

/-- **A key without a live stamp is registered.** Every earlier registration of it within `ttl` has
been released, or its stamp would be live. -/
theorem Consistent.register {k : κ} (h : Consistent ttl t table v) (hp : v p = .blank)
    (hr : Registers ttl t k table table') :
    Consistent ttl t table' (Function.update v p ⟨some (k, t), none, none⟩) := by
  have hrel : ∀ q m, ReleasedAt (Function.update v p ⟨some (k, t), none, none⟩) q m ↔
      ReleasedAt v q m := fun q m => releasedAt_update (by rw [hp]; rfl) (by rw [hp]; rfl)
  -- Who registered the key less than `ttl` ago has been released.
  have hgone : ∀ q c, (v q).registered = some (k, c) → t < c + ttl → ∃ m ≤ t, ReleasedAt v q m := by
    intro q c hq hlt
    by_contra hnone
    have hle : ∀ m, ReleasedAt v q m → m ≤ t := by
      rintro m ⟨id, n, x, -, hx, -⟩
      exact (h.releases x id m hx).1
    have hstamp := h.live q k c hq (fun m hm => hnone ⟨m, hle m hm, hm⟩) hlt
    exact absurd (hr.free _ hstamp) (not_le.mpr hlt)
  refine ⟨fun q k' c hq => ?_, fun q id m hq => ?_, fun q id m hq => ?_, fun q q' id m n hq hq' => ?_,
    fun q k' c hq hunrel hlt => ?_, fun id ticket hid => ?_, fun id ticket hid hlt => ?_,
    fun q q' k' c c' hne hq hq' hlt hlt' => ?_⟩
  · rcases eq_some_of_update Entry.registered hq with ⟨-, hnew⟩ | ⟨-, hold⟩
    · cases hnew
      exact le_rfl
    · exact h.registered q k' c hold
  · obtain ⟨-, ⟨⟩⟩ | ⟨-, hold⟩ := eq_some_of_update Entry.receipt hq
    exact (h.receipt q id m hold).imp_right fun hlt => hlt.trans_le hr.nextId
  · obtain ⟨-, ⟨⟩⟩ | ⟨-, hold⟩ := eq_some_of_update Entry.releases hq
    exact (h.releases q id m hold).imp_right fun hlt => hlt.trans_le hr.nextId
  · obtain ⟨-, ⟨⟩⟩ | ⟨-, hold⟩ := eq_some_of_update Entry.receipt hq
    obtain ⟨-, ⟨⟩⟩ | ⟨-, hold'⟩ := eq_some_of_update Entry.receipt hq'
    exact h.once q q' id m n hold hold'
  · rcases eq_some_of_update Entry.registered hq with ⟨-, hnew⟩ | ⟨-, hold⟩
    · cases hnew
      exact hr.own
    · have hunrel' : ∀ m, ¬ ReleasedAt v q m := fun m hm => hunrel m ((hrel q m).mpr hm)
      by_cases hk : k' = k
      · subst hk
        obtain ⟨m, -, hm⟩ := hgone q c hold hlt
        exact absurd hm (hunrel' m)
      · exact hr.stamp k' _ hk (h.live q k' c hold hunrel' hlt) hlt
  · refine (h.ticketId id ticket (hr.tickets id ticket hid)).imp (fun hlt => hlt.trans_le hr.nextId)
      fun hnot q m hq => ?_
    obtain ⟨-, ⟨⟩⟩ | ⟨-, hold⟩ := eq_some_of_update Entry.releases hq
    exact hnot q m hold
  · obtain ⟨q, m, hq, hback⟩ := h.issued id ticket (hr.tickets id ticket hid) hlt
    have he : q ≠ p := by
      rintro rfl
      rw [hp] at hq
      cases hq
    refine ⟨q, m, ?_⟩
    rw [Function.update_of_ne he]
    exact ⟨hq, hback⟩
  · simp only [hrel]
    rcases eq_some_of_update Entry.registered hq with ⟨hqp, hnew⟩ | ⟨-, hold⟩
    · cases hnew
      rcases eq_some_of_update Entry.registered hq' with ⟨hqp', -⟩ | ⟨-, hold'⟩
      · exact absurd (hqp.trans hqp'.symm) hne
      · exact .inr (hgone q' c' hold' hlt)
    · rcases eq_some_of_update Entry.registered hq' with ⟨-, hnew'⟩ | ⟨-, hold'⟩
      · cases hnew'
        exact .inl (hgone q c hold hlt')
      · exact h.apart q q' k' c c' hne hold hold' hlt hlt'

/-- **A ticket is minted for what the client registered.** While the ticket is good, so is the stamp it
read back. -/
theorem Consistent.mint {reg : Option (κ × ℕ)} (h : Consistent ttl t table v)
    (hp : v p = ⟨reg, none, none⟩) (ticket : Ticket κ) (hkey : ticket.key = reg.map Prod.fst)
    (hstamp : ticket.stamp = ticket.key.bind table.stamp)
    (hexpiry : ∀ k c, reg = some (k, c) → ticket.expiry ≤ c + ttl) :
    Consistent ttl t
      ⟨table.stamp, Function.update table.tickets table.nextId (some ticket), table.nextId + 1⟩
      (Function.update v p ⟨reg, some (table.nextId, t), none⟩) := by
  have hnone : ∀ m, ¬ ReleasedAt v p m := by
    rintro m ⟨id, n, k, hr, -⟩
    rw [hp] at hr
    cases hr
  have hold : ∀ q, (Function.update v p ⟨reg, some (table.nextId, t), none⟩ q).releases =
      (v q).releases := fun q => by
    by_cases hq : q = p
    · subst hq
      simp [hp]
    · simp [hq]
  have hreg : ∀ q, (Function.update v p ⟨reg, some (table.nextId, t), none⟩ q).registered =
      (v q).registered := fun q => by
    by_cases hq : q = p
    · subst hq
      simp [hp]
    · simp [hq]
  -- Nobody can have released an id that was not drawn yet.
  have hrel : ∀ q m, ReleasedAt (Function.update v p ⟨reg, some (table.nextId, t), none⟩) q m ↔
      ReleasedAt v q m := by
    refine fun q m => ⟨?_, ?_⟩
    · rintro ⟨id, n, k, hr, hs, hn⟩
      rw [hold] at hs
      obtain ⟨-, hnew⟩ | ⟨-, hr⟩ := eq_some_of_update Entry.receipt hr
      · cases hnew
        exact absurd (h.releases k _ m hs).2 (lt_irrefl _)
      · exact ⟨id, n, k, hr, hs, hn⟩
    · rintro ⟨id, n, k, hr, hs, hn⟩
      have hq : q ≠ p := by
        rintro rfl
        exact hnone m ⟨id, n, k, hr, hs, hn⟩
      exact ⟨id, n, k, by rwa [Function.update_of_ne hq], by rwa [hold], hn⟩
  refine ⟨fun q k c hq => h.registered q k c (by rwa [hreg] at hq), fun q id m hq => ?_,
    fun q id m hq => ?_, fun q q' id m n hq hq' => ?_, fun q k c hq hunrel hlt => ?_,
    fun id τ hid => ?_, fun id τ hid hlt => ?_, fun q q' k c c' hne hq hq' hlt hlt' => ?_⟩
  · obtain ⟨-, hnew⟩ | ⟨-, hq⟩ := eq_some_of_update Entry.receipt hq
    · cases hnew
      exact ⟨le_rfl, Nat.lt_succ_self _⟩
    · exact (h.receipt q id m hq).imp_right fun hlt => hlt.trans (Nat.lt_succ_self _)
  · rw [hold] at hq
    exact (h.releases q id m hq).imp_right fun hlt => hlt.trans (Nat.lt_succ_self _)
  · obtain ⟨hqp, hnew⟩ | ⟨-, hq⟩ := eq_some_of_update Entry.receipt hq
    · cases hnew
      obtain ⟨hqp', -⟩ | ⟨-, hq'⟩ := eq_some_of_update Entry.receipt hq'
      · exact hqp.trans hqp'.symm
      · exact absurd (h.receipt q' _ n hq').2 (lt_irrefl _)
    · obtain ⟨-, hnew'⟩ | ⟨-, hq'⟩ := eq_some_of_update Entry.receipt hq'
      · cases hnew'
        exact absurd (h.receipt q _ m hq).2 (lt_irrefl _)
      · exact h.once q q' id m n hq hq'
  · rw [hreg] at hq
    exact h.live q k c hq (fun m hm => hunrel m ((hrel q m).mpr hm)) hlt
  · simp only [hold]
    by_cases hid' : id = table.nextId
    · subst hid'
      exact ⟨Nat.lt_succ_self _, fun k m hk => absurd (h.releases k _ m hk).2 (lt_irrefl _)⟩
    · have hid : table.tickets id = some τ := (Function.update_of_ne hid' ..).symm.trans hid
      exact (h.ticketId id τ hid).imp_left fun hlt => hlt.trans (Nat.lt_succ_self _)
  · simp only [hreg]
    by_cases hid' : id = table.nextId
    · subst hid'
      have hown : Function.update table.tickets table.nextId (some ticket) table.nextId =
          some ticket := Function.update_self ..
      obtain rfl : ticket = τ := Option.some_inj.mp (hown.symm.trans hid)
      refine ⟨p, t, by rw [Function.update_self], fun k e hk he => ?_⟩
      have hpreg : (v p).registered = reg := by rw [hp]
      rw [hkey, Option.map_eq_some_iff] at hk
      obtain ⟨⟨k', c⟩, hkc, rfl⟩ := hk
      refine ⟨c, hpreg.trans hkc, ?_⟩
      have hown := h.live p k' c (hpreg.trans hkc) hnone (hlt.trans_le (hexpiry k' c hkc))
      rw [hstamp, hkey, hkc, Option.map_some, Option.bind_some, hown, Option.some_inj] at he
      exact he.symm
    · have hid : table.tickets id = some τ := (Function.update_of_ne hid' ..).symm.trans hid
      obtain ⟨q, m, hq, hback⟩ := h.issued id τ hid hlt
      have he : q ≠ p := by
        rintro rfl
        rw [hp] at hq
        cases hq
      exact ⟨q, m, by rwa [Function.update_of_ne he], hback⟩
  · rw [hreg] at hq hq'
    simp only [hrel]
    exact h.apart q q' k c c' hne hq hq' hlt hlt'

/-- The ticket `id` is spent, and with it the one stamp it holds. -/
structure Retires (t id : ℕ) (ticket : Ticket κ) (table table' : Table κ) : Prop where
  stamp : ∀ k e, ¬ (ticket.key = some k ∧ ticket.stamp = some e) → table.stamp k = some e → t < e →
    table'.stamp k = some e
  tickets : ∀ i τ, table'.tickets i = some τ → table.tickets i = some τ ∧ i ≠ id
  nextId : table.nextId ≤ table'.nextId

/-- **A live ticket is released.** The stamp it takes back is its own client's: another registration
with that very stamp would be less than `ttl` apart. -/
theorem Consistent.release {id : ℕ} {ticket : Ticket κ} (h : Consistent ttl t table v)
    (hp : v p = .blank) (hid : table.tickets id = some ticket) (hgood : t < ticket.expiry)
    (hr : Retires t id ticket table table') :
    Consistent ttl t table' (Function.update v p ⟨none, none, some (id, t)⟩) := by
  have hreg : ∀ q, (Function.update v p ⟨none, none, some (id, t)⟩ q).registered =
      (v q).registered := fun q => by
    by_cases hq : q = p
    · subst hq
      simp [hp, Entry.blank]
    · simp [hq]
  have hrec : ∀ q, (Function.update v p ⟨none, none, some (id, t)⟩ q).receipt =
      (v q).receipt := fun q => by
    by_cases hq : q = p
    · subst hq
      simp [hp, Entry.blank]
    · simp [hq]
  have hrel : ∀ q m, ReleasedAt v q m →
      ReleasedAt (Function.update v p ⟨none, none, some (id, t)⟩) q m := by
    rintro q m ⟨i, n, k, hq, hk, hn⟩
    have hkp : k ≠ p := by
      rintro rfl
      rw [hp] at hk
      cases hk
    exact ⟨i, n, k, by rwa [hrec], by rwa [Function.update_of_ne hkp], hn⟩
  obtain ⟨hidlt, hfresh⟩ := h.ticketId id ticket hid
  refine ⟨fun q k c hq => h.registered q k c (by rwa [hreg] at hq), fun q i m hq => ?_,
    fun q i m hq => ?_, fun q q' i m n hq hq' => ?_, fun q k c hq hunrel hlt => ?_,
    fun i τ hi => ?_, fun i τ hi hlt => ?_, fun q q' k c c' hne hq hq' hlt hlt' => ?_⟩
  · rw [hrec] at hq
    exact (h.receipt q i m hq).imp_right fun hlt => hlt.trans_le hr.nextId
  · obtain ⟨-, hnew⟩ | ⟨-, hq⟩ := eq_some_of_update Entry.releases hq
    · cases hnew
      exact ⟨le_rfl, hidlt.trans_le hr.nextId⟩
    · exact (h.releases q i m hq).imp_right fun hlt => hlt.trans_le hr.nextId
  · rw [hrec] at hq hq'
    exact h.once q q' i m n hq hq'
  · rw [hreg] at hq
    have hunrel' : ∀ m, ¬ ReleasedAt v q m := fun m hm => hunrel m (hrel q m hm)
    refine hr.stamp k _ ?_ (h.live q k c hq hunrel' hlt) hlt
    -- The ticket's own client registered the same key at the same time, and is not released yet.
    rintro ⟨hk, he⟩
    obtain ⟨q', n, hq', hback⟩ := h.issued id ticket hid hgood
    obtain ⟨c', hreg', hc⟩ := hback k _ hk he
    obtain rfl : c = c' := Nat.add_right_cancel hc
    have hne : q ≠ q' := by
      rintro rfl
      refine hunrel t ⟨id, n, p, by rwa [hrec], by rw [Function.update_self], ?_⟩
      exact (h.receipt q id n hq').1
    have hlt' : c < c + ttl := (h.registered q k c hq).trans_lt hlt
    obtain ⟨m, -, hm⟩ | ⟨m, -, hm⟩ := h.apart q q' k c c hne hq hreg' hlt' hlt'
    · exact hunrel' m hm
    · obtain ⟨i, n', x, hx, hy, -⟩ := hm
      rw [hq', Option.some_inj, Prod.mk.injEq] at hx
      exact hfresh x m (hx.1 ▸ hy)
  · obtain ⟨hi, hne⟩ := hr.tickets i τ hi
    obtain ⟨hlt, hnot⟩ := h.ticketId i τ hi
    refine ⟨hlt.trans_le hr.nextId, fun k m hk => ?_⟩
    obtain ⟨-, hnew⟩ | ⟨-, hk⟩ := eq_some_of_update Entry.releases hk
    · cases hnew
      exact hne rfl
    · exact hnot k m hk
  · obtain ⟨q, m, hq, hback⟩ := h.issued i τ (hr.tickets i τ hi).1 hlt
    exact ⟨q, m, by rwa [hrec], fun k e hk he => by simpa only [hreg] using hback k e hk he⟩
  · rw [hreg] at hq hq'
    exact (h.apart q q' k c c' hne hq hq' hlt hlt').imp
      (fun ⟨m, hm, hm'⟩ => ⟨m, hm, hrel q m hm'⟩) fun ⟨m, hm, hm'⟩ => ⟨m, hm, hrel q' m hm'⟩

end Registry
