import Mathlib.Data.Rat.Floor
import Mathlib.Data.List.Basic
import Mathlib.Tactic.Common

/-!
# The concurrency gate

The gate counts the requests in flight and answers the next one over its limit with a refusal.

* `Slot`, `GateRequest`, `GateState`: the slots it gave out and what became of their requests;
* `GateEvent`, `step`: an arrival, a handler entered through `hold`, a socket event, a settlement;
* `Sane`, `sane_step`: one request's slot, socket and handler agree;
* `Counted`, `counted_step`, `counted_run`: **the counter is the number of slots not yet released**;
* `gateRun_slots`: the slot invariant of every run.
-/

namespace XChain.ConcurrencyGate

/-! ## Slots -/

/-- A slot: `releases` counts how often it gave its place back. -/
structure Slot where
  released : Bool
  claimed : Bool
  releases : ℕ
  deriving DecidableEq, Repr

/-- A handler under `hold`. -/
inductive Held where
  | running
  | settled
  deriving DecidableEq, Repr

/-- A request that reached the gate: whether it was shed, its slot under this gate's key, whether its
socket has finished or closed, and its held handler. -/
structure GateRequest where
  shed : Bool
  slot : Option Slot
  ended : Bool
  handler : Option Held
  deriving DecidableEq, Repr

structure GateState where
  inFlight : ℤ
  shed : ℕ
  requests : List GateRequest
  deriving DecidableEq, Repr

/-- The options of one gate; `limit` of 0 or less disables it. -/
structure GateOptions (Req : Type) where
  limit : ℚ
  skip : Req → Bool

variable {Req : Type}

/-- A cap from the environment: `parsed` is `none` when it does not parse. -/
def resolveLimit (parsed : Option ℤ) (defaultLimit : ℤ) : ℤ :=
  let limit := parsed.getD defaultLimit
  if 0 < limit then limit else 0

/-- The limit the gate enforces. -/
def GateOptions.cap (options : GateOptions Req) : ℕ :=
  if 0 < options.limit then ⌊options.limit⌋₊ else 0

def GateState.start : GateState := ⟨0, 0, []⟩

/-- The slot is given back, once. -/
def Slot.release (slot : Slot) : Slot :=
  if slot.released then slot else { slot with released := true, releases := slot.releases + 1 }

/-- The request still takes a place. -/
def GateRequest.inFlight (r : GateRequest) : Bool := r.slot.any fun slot => !slot.released

/-- Its held handler has not settled. -/
def GateRequest.working (r : GateRequest) : Bool := r.slot.isSome && r.handler == some .running

/-- Release the slot of request `i`. -/
def release (s : GateState) (i : ℕ) (r : GateRequest) : GateState :=
  { s with
    inFlight := if r.inFlight then s.inFlight - 1 else s.inFlight
    requests := s.requests.set i { r with slot := r.slot.map Slot.release } }

/-! ## Events -/

/-- What happens to the requests of one gate; requests are numbered as they arrive. -/
inductive GateEvent (Req : Type) where
  | arrive (req : Req)
  | hold (i : ℕ)
  | finish (i : ℕ)
  | close (i : ℕ)
  | settle (i : ℕ)

/-- The middleware on one request. -/
def middleware (options : GateOptions Req) (s : GateState) (req : Req) : GateState :=
  if options.cap = 0 ∨ options.skip req then
    { s with requests := s.requests ++ [⟨false, none, false, none⟩] }
  else if (options.cap : ℤ) ≤ s.inFlight then
    { s with shed := s.shed + 1, requests := s.requests ++ [⟨true, none, false, none⟩] }
  else
    { s with
      inFlight := s.inFlight + 1
      requests := s.requests ++ [⟨false, some ⟨false, false, 0⟩, false, none⟩] }

/-- A held handler is entered: it claims the slot, or runs without one. -/
def holdSlot (s : GateState) (i : ℕ) (r : GateRequest) : GateState :=
  { s with requests := s.requests.set i { r with
      slot := r.slot.map fun slot => { slot with claimed := true }
      handler := some .running } }

/-- The listener on `finish` and `close`. -/
def releaseIfUnclaimed (s : GateState) (i : ℕ) (r : GateRequest) : GateState :=
  if r.slot.any fun slot => !slot.claimed then release s i r
  else { s with requests := s.requests.set i r }

/-- The held handler's promise has settled. -/
def settleHandler (s : GateState) (i : ℕ) (r : GateRequest) : GateState :=
  release s i { r with handler := some .settled }

/-- The request's socket has finished or closed. -/
def GateRequest.socketEnded (r : GateRequest) : GateRequest := { r with ended := true }

/-- One event. A request is held at most once, and before its own socket ends; a refused one reaches
no handler; only a running handler settles. -/
def step (options : GateOptions Req) (s : GateState) : GateEvent Req → Option GateState
  | .arrive req => some (middleware options s req)
  | .hold i => s.requests[i]?.bind fun r =>
    if !r.shed && !r.ended && r.handler.isNone then some (holdSlot s i r) else none
  | .finish i => s.requests[i]?.map fun r => releaseIfUnclaimed s i r.socketEnded
  | .close i => s.requests[i]?.map fun r => releaseIfUnclaimed s i r.socketEnded
  | .settle i => s.requests[i]?.bind fun r =>
    if r.handler = some .running then some (settleHandler s i r) else none

/-- A run; `none` when an event cannot happen where it stands. -/
def run (options : GateOptions Req) (s : GateState) : List (GateEvent Req) → Option GateState
  | [] => some s
  | e :: es => (step options s e).bind fun s' => run options s' es

def getStats (options : GateOptions Req) (s : GateState) : ℕ × ℤ × ℕ :=
  (options.cap, s.inFlight, s.shed)

/-! ## One request -/

/-- What a request that holds a slot looks like. -/
structure Sane (r : GateRequest) (slot : Slot) : Prop where
  claimed : slot.claimed = r.handler.isSome
  releases : slot.releases = slot.released.toNat
  held : slot.released = true → slot.claimed = true → r.handler = some .settled
  settled : r.handler = some .settled → slot.released = true
  ended : r.ended = true → slot.claimed = false → slot.released = true
  fresh : r.ended = false → r.handler = none → slot.released = false

/-- Every slot that was given out. -/
def AllSane (s : GateState) : Prop :=
  ∀ r ∈ s.requests, ∀ slot ∈ r.slot, Sane r slot

@[simp] theorem Slot.released_release (slot : Slot) : slot.release.released = true := by
  unfold Slot.release
  split_ifs with h
  · exact h
  · rfl

@[simp] theorem Slot.claimed_release (slot : Slot) : slot.release.claimed = slot.claimed := by
  unfold Slot.release
  split_ifs <;> rfl

theorem Slot.releases_release {slot : Slot} (h : slot.releases = slot.released.toNat) :
    slot.release.releases = 1 := by
  unfold Slot.release
  split_ifs with hr
  · rw [h, hr]
    rfl
  · simp only [h, Bool.not_eq_true] at hr ⊢
    rw [hr]
    rfl

theorem sane_ended {r : GateRequest} {slot : Slot} (h : Sane r slot) (hc : slot.claimed = false) :
    Sane { r with ended := true, slot := r.slot.map Slot.release } slot.release where
  claimed := by rw [Slot.claimed_release, h.claimed]
  releases := by rw [Slot.releases_release h.releases, Slot.released_release]; rfl
  held := fun _ hclaimed => by
    rw [Slot.claimed_release, hc] at hclaimed
    cases hclaimed
  settled := fun _ => Slot.released_release slot
  ended := fun _ _ => Slot.released_release slot
  fresh := fun hended => by cases hended

theorem sane_ended_claimed {r : GateRequest} {slot : Slot} (h : Sane r slot)
    (hc : slot.claimed = true) : Sane { r with ended := true } slot :=
  { h with
    ended := fun _ hclaimed => by
      rw [hc] at hclaimed
      cases hclaimed
    fresh := fun hended => by cases hended }

theorem sane_hold {r : GateRequest} {slot : Slot} (h : Sane r slot) (hended : r.ended = false)
    (hnone : r.handler = none) :
    Sane { r with
      slot := r.slot.map fun slot => { slot with claimed := true }
      handler := some .running } { slot with claimed := true } where
  claimed := rfl
  releases := h.releases
  held := fun hreleased _ => by
    rw [show slot.released = false from h.fresh hended hnone] at hreleased
    cases hreleased
  settled := fun hsettled => by cases hsettled
  ended := fun _ hclaimed => by cases hclaimed
  fresh := fun _ hhandler => by cases hhandler

theorem sane_settle {r : GateRequest} {slot : Slot} (h : Sane r slot)
    (hrunning : r.handler = some .running) :
    Sane { r with handler := some .settled, slot := r.slot.map Slot.release } slot.release where
  claimed := by
    rw [Slot.claimed_release, h.claimed, hrunning]
    rfl
  releases := by rw [Slot.releases_release h.releases, Slot.released_release]; rfl
  held := fun _ _ => rfl
  settled := fun _ => Slot.released_release slot
  ended := fun _ _ => Slot.released_release slot
  fresh := fun _ hhandler => by cases hhandler

/-! ## The counter -/

/-- The slot invariant: slots agree with their requests, and the counter with the slots. -/
structure Counted (options : GateOptions Req) (s : GateState) : Prop where
  sane : AllSane s
  counter : s.inFlight = s.requests.countP GateRequest.inFlight
  le_cap : s.inFlight ≤ options.cap

theorem countP_set_add {α : Type} {p : α → Bool} {l : List α} {i : ℕ} {a : α} (b : α)
    (h : l[i]? = some a) :
    (l.set i b).countP p + (p a).toNat = l.countP p + (p b).toNat := by
  obtain ⟨hi, rfl⟩ := List.getElem?_eq_some_iff.mp h
  rw [List.countP_set hi]
  have hle : p l[i] = true → 1 ≤ l.countP p := fun hp =>
    List.countP_pos_iff.mpr ⟨l[i], List.getElem_mem hi, hp⟩
  cases hp : p l[i] <;> cases hb : p b <;> simp only [Bool.toNat_true, Bool.toNat_false]
  · simp
  · simp
  · have := hle hp
    simp only [if_true, Bool.false_eq_true, if_false]
    omega
  · have := hle hp
    simp only [if_true]
    omega

/-- Replacing one request by one whose slot agrees keeps the others. -/
theorem allSane_set {s : GateState} {i : ℕ} {r : GateRequest} (hs : AllSane s)
    (hr : ∀ slot ∈ r.slot, Sane r slot) : AllSane { s with requests := s.requests.set i r } := by
  intro r' hr'
  rcases List.mem_or_eq_of_mem_set hr' with h | rfl
  · exact hs r' h
  · exact hr

variable {options : GateOptions Req} {s s' : GateState} {i : ℕ} {r : GateRequest}

/-- Replacing a request by one that takes the same place leaves the counter right. -/
theorem counted_set (h : Counted options s) (hi : s.requests[i]? = some r) {r' : GateRequest}
    (hsame : r'.inFlight = r.inFlight) (hr : ∀ slot ∈ r'.slot, Sane r' slot) :
    Counted options { s with requests := s.requests.set i r' } where
  sane := allSane_set h.sane hr
  counter := by
    have := countP_set_add (p := GateRequest.inFlight) r' hi
    rw [hsame] at this
    show s.inFlight = ((s.requests.set i r').countP GateRequest.inFlight : ℤ)
    rw [h.counter]
    omega
  le_cap := h.le_cap

theorem inFlight_release (r : GateRequest) :
    GateRequest.inFlight { r with slot := r.slot.map Slot.release } = false := by
  cases hslot : r.slot <;> simp [GateRequest.inFlight]

/-- Giving a slot back takes one off the counter when the slot still counted. -/
theorem counted_release (h : Counted options s) (hi : s.requests[i]? = some r) {r' : GateRequest}
    (hslot : r'.slot = r.slot)
    (hr : ∀ slot ∈ r'.slot, Sane { r' with slot := r'.slot.map Slot.release } slot.release) :
    Counted options (release s i r') where
  sane := allSane_set h.sane fun slot hmem => by
    obtain ⟨slot', hmem', rfl⟩ := Option.mem_map.mp hmem
    exact hr slot' hmem'
  counter := by
    have hcount := countP_set_add (p := GateRequest.inFlight)
      { r' with slot := r'.slot.map Slot.release } hi
    rw [inFlight_release] at hcount
    have hsame : r'.inFlight = r.inFlight := by rw [GateRequest.inFlight, hslot, GateRequest.inFlight]
    show (if r'.inFlight then s.inFlight - 1 else s.inFlight) = _
    rw [hsame, h.counter]
    show _ = ((s.requests.set i { r' with slot := r'.slot.map Slot.release }).countP
      GateRequest.inFlight : ℤ)
    cases hr : r.inFlight <;> simp only [hr, Bool.toNat_true, Bool.toNat_false] at hcount ⊢
    · simp only [Bool.false_eq_true, if_false]
      omega
    · simp only [if_true]
      omega
  le_cap := by
    have hle := h.le_cap
    show (if r'.inFlight then s.inFlight - 1 else s.inFlight) ≤ _
    split_ifs <;> omega

theorem counted_append (h : Counted options s) {r : GateRequest} {n : ℕ} (shed : ℕ)
    (hn : r.inFlight.toNat = n) (hle : s.inFlight + n ≤ options.cap)
    (hr : ∀ slot ∈ r.slot, Sane r slot) :
    Counted options ⟨s.inFlight + n, shed, s.requests ++ [r]⟩ where
  sane := by
    intro r' hr'
    rcases List.mem_append.mp hr' with h' | h'
    · exact h.sane r' h'
    · rw [List.mem_singleton.mp h']
      exact hr
  counter := by
    rw [List.countP_append, h.counter, ← hn]
    cases hb : r.inFlight <;> simp [hb]
  le_cap := hle

/-! ## Every event keeps it -/

theorem counted_middleware (h : Counted options s) (req : Req) :
    Counted options (middleware options s req) := by
  have hle := h.le_cap
  unfold middleware
  split_ifs with h1 h2
  · simpa using counted_append (n := 0) h s.shed rfl (by simpa using hle) (by simp)
  · simpa using counted_append (n := 0) h (s.shed + 1) rfl (by simpa using hle) (by simp)
  · refine counted_append (n := 1) h s.shed rfl (by push_cast; omega) ?_
    rintro slot hslot
    cases hslot
    exact ⟨rfl, rfl, by simp, by simp, by simp, by simp⟩

theorem counted_hold (h : Counted options s) (hi : s.requests[i]? = some r)
    (hended : r.ended = false) (hnone : r.handler = none) : Counted options (holdSlot s i r) := by
  have hsane := h.sane r (List.mem_of_getElem? hi)
  refine counted_set h hi ?_ ?_
  · cases hslot : r.slot <;> simp [GateRequest.inFlight, hslot]
  · intro slot hslot
    obtain ⟨slot', hmem, rfl⟩ := Option.mem_map.mp hslot
    exact sane_hold (hsane slot' hmem) hended hnone

theorem counted_socket (h : Counted options s) (hi : s.requests[i]? = some r) :
    Counted options (releaseIfUnclaimed s i r.socketEnded) := by
  have hsane := h.sane r (List.mem_of_getElem? hi)
  unfold releaseIfUnclaimed
  split_ifs with hfree
  · refine counted_release h hi rfl ?_
    intro slot hslot
    rw [show r.socketEnded.slot = some slot from hslot, Option.any_some] at hfree
    exact sane_ended (r := r) (hsane slot hslot) (by simpa using hfree)
  · refine counted_set h hi rfl ?_
    intro slot hslot
    rw [show r.socketEnded.slot = some slot from hslot, Option.any_some] at hfree
    exact sane_ended_claimed (hsane slot hslot) (by simpa using hfree)

theorem counted_settle (h : Counted options s) (hi : s.requests[i]? = some r)
    (hrunning : r.handler = some .running) : Counted options (settleHandler s i r) := by
  have hsane := h.sane r (List.mem_of_getElem? hi)
  refine counted_release h hi rfl ?_
  intro slot hslot
  exact sane_settle (r := r) (hsane slot hslot) hrunning

/-- **Every event keeps the slot invariant.** -/
theorem counted_step (h : Counted options s) {e : GateEvent Req} (hstep : step options s e = some s') :
    Counted options s' := by
  cases e with
  | arrive req =>
    cases hstep
    exact counted_middleware h req
  | hold i =>
    obtain ⟨r, hi, hstep⟩ := Option.bind_eq_some_iff.mp hstep
    split_ifs at hstep with hguard
    cases hstep
    simp only [Bool.and_eq_true, Bool.not_eq_true', Option.isNone_iff_eq_none] at hguard
    exact counted_hold h hi hguard.1.2 hguard.2
  | finish i =>
    obtain ⟨r, hi, rfl⟩ := Option.map_eq_some_iff.mp hstep
    exact counted_socket h hi
  | close i =>
    obtain ⟨r, hi, rfl⟩ := Option.map_eq_some_iff.mp hstep
    exact counted_socket h hi
  | settle i =>
    obtain ⟨r, hi, hstep⟩ := Option.bind_eq_some_iff.mp hstep
    split_ifs at hstep with hrunning
    cases hstep
    exact counted_settle h hi hrunning

theorem counted_start (options : GateOptions Req) : Counted options .start where
  sane := by simp [AllSane, GateState.start]
  counter := rfl
  le_cap := Int.natCast_nonneg _

/-- **The slot invariant holds along every run.** -/
theorem counted_run (h : Counted options s) {es : List (GateEvent Req)}
    (hrun : run options s es = some s') : Counted options s' := by
  induction es generalizing s with
  | nil =>
    cases hrun
    exact h
  | cons e es ih =>
    obtain ⟨s₁, hstep, hrest⟩ := Option.bind_eq_some_iff.mp hrun
    exact ih (counted_step h hstep) hrest

/-! ## What the counter bounds -/

/-- The slot of request `i`. -/
def GateState.slotAt (s : GateState) (i : ℕ) : Option Slot := s.requests[i]?.bind GateRequest.slot

theorem slotAt_set_of_ne {s : GateState} {i j : ℕ} {r : GateRequest} (hne : j ≠ i) :
    GateState.slotAt { s with requests := s.requests.set j r } i = s.slotAt i := by
  simp only [GateState.slotAt]
  rw [List.getElem?_set_ne hne]

theorem slotAt_set_self {s : GateState} {i : ℕ} {r r' : GateRequest} (hi : s.requests[i]? = some r) :
    GateState.slotAt { s with requests := s.requests.set i r' } i = r'.slot := by
  simp only [GateState.slotAt]
  rw [List.getElem?_set_self (List.getElem?_eq_some_iff.mp hi).1, Option.bind_some]

theorem slotAt_middleware {slot : Slot} (hslot : s.slotAt i = some slot) (req : Req) :
    (middleware options s req).slotAt i = some slot := by
  obtain ⟨r, hi, hr⟩ := Option.bind_eq_some_iff.mp hslot
  have happend : ∀ r' : GateRequest, (s.requests ++ [r'])[i]? = some r := fun r' => by
    rw [List.getElem?_append_left (List.getElem?_eq_some_iff.mp hi).1, hi]
  unfold middleware
  split_ifs <;> simp only [GateState.slotAt] <;> rw [happend] <;> exact hr

theorem slotAt_releaseIfUnclaimed {slot : Slot} {j : ℕ} (hslot : s.slotAt i = some slot)
    (hclaimed : slot.claimed = true) (hj : s.requests[j]? = some r) :
    (releaseIfUnclaimed s j r.socketEnded).slotAt i = some slot := by
  unfold releaseIfUnclaimed
  by_cases hne : j = i
  · subst hne
    rw [GateState.slotAt, hj, Option.bind_some] at hslot
    have hended : r.socketEnded.slot = some slot := hslot
    rw [hended, Option.any_some, hclaimed, Bool.not_true, if_neg Bool.false_ne_true,
      slotAt_set_self hj]
    exact hended
  · split_ifs
    · exact (slotAt_set_of_ne hne).trans hslot
    · exact (slotAt_set_of_ne hne).trans hslot

/-- **A claimed slot changes only when its handler settles.** -/
theorem slotAt_step (h : Counted options s) {e : GateEvent Req} (hstep : step options s e = some s')
    {slot : Slot} (hslot : s.slotAt i = some slot) (hclaimed : slot.claimed = true) :
    e = .settle i ∨ s'.slotAt i = some slot := by
  cases e with
  | arrive req =>
    cases hstep
    exact .inr (slotAt_middleware hslot req)
  | hold j =>
    obtain ⟨r, hj, hstep⟩ := Option.bind_eq_some_iff.mp hstep
    split_ifs at hstep with hguard
    cases hstep
    by_cases hne : j = i
    · subst hne
      rw [GateState.slotAt, hj, Option.bind_some] at hslot
      have hsane := h.sane r (List.mem_of_getElem? hj) slot hslot
      simp only [Bool.and_eq_true, Option.isNone_iff_eq_none] at hguard
      rw [hsane.claimed, hguard.2] at hclaimed
      cases hclaimed
    · exact .inr ((slotAt_set_of_ne hne).trans hslot)
  | finish j =>
    obtain ⟨r, hj, rfl⟩ := Option.map_eq_some_iff.mp hstep
    exact .inr (slotAt_releaseIfUnclaimed hslot hclaimed hj)
  | close j =>
    obtain ⟨r, hj, rfl⟩ := Option.map_eq_some_iff.mp hstep
    exact .inr (slotAt_releaseIfUnclaimed hslot hclaimed hj)
  | settle j =>
    obtain ⟨r, hj, hstep⟩ := Option.bind_eq_some_iff.mp hstep
    split_ifs at hstep with hrunning
    cases hstep
    by_cases hne : j = i
    · exact .inl (by rw [hne])
    · exact .inr ((slotAt_set_of_ne hne).trans hslot)

theorem Counted.working_le (h : Counted options s) :
    (s.requests.countP GateRequest.working : ℤ) ≤ s.inFlight := by
  rw [h.counter]
  refine Int.ofNat_le.mpr (List.countP_mono_left fun r hr hworking => ?_)
  simp only [GateRequest.working, Bool.and_eq_true, beq_iff_eq] at hworking
  obtain ⟨slot, hslot⟩ := Option.isSome_iff_exists.mp hworking.1
  have hsane := h.sane r hr slot hslot
  rw [GateRequest.inFlight, hslot, Option.any_some]
  cases hreleased : slot.released with
  | false => rfl
  | true =>
    have hheld := hsane.held hreleased (by rw [hsane.claimed, hworking.2]; rfl)
    rw [hworking.2] at hheld
    cases hheld

/-- Nothing is left to wait for. -/
def Quiescent (s : GateState) : Prop :=
  ∀ r ∈ s.requests, r.slot.isSome = true → r.ended = true ∧ r.handler ≠ some .running

theorem Counted.quiescent (h : Counted options s) (hq : Quiescent s) : s.inFlight = 0 := by
  rw [h.counter, Int.natCast_eq_zero, List.countP_eq_zero]
  intro r hr hinFlight
  cases hslot : r.slot with
  | none => simp [GateRequest.inFlight, hslot] at hinFlight
  | some slot =>
    rw [GateRequest.inFlight, hslot, Option.any_some, Bool.not_eq_true'] at hinFlight
    have hsane := h.sane r hr slot hslot
    obtain ⟨hended, hidle⟩ := hq r hr (by rw [hslot]; rfl)
    cases hclaimed : slot.claimed with
    | false =>
      rw [hsane.ended hended hclaimed] at hinFlight
      cases hinFlight
    | true =>
      have hsettled : r.handler = some .settled := by
        rw [hsane.claimed] at hclaimed
        cases hhandler : r.handler with
        | none =>
          rw [hhandler] at hclaimed
          cases hclaimed
        | some phase =>
          cases phase with
          | running => exact absurd hhandler hidle
          | settled => rfl
      rw [hsane.settled hsettled] at hinFlight
      cases hinFlight

/-- **The slots of a gate.** After every run the counter is the number of slots given out and not
yet released, between 0 and the limit; every slot was released at most once; the next event changes
a claimed slot only when it settles its handler; the held handlers that run are no more than the
limit; and the counter is 0 once every request with a slot has ended and no held handler runs. -/
theorem gateRun_slots (options : GateOptions Req) (es : List (GateEvent Req))
    (hrun : run options .start es = some s) :
    s.inFlight = s.requests.countP GateRequest.inFlight ∧
    0 ≤ s.inFlight ∧ s.inFlight ≤ options.cap ∧
    (∀ i slot, s.slotAt i = some slot → slot.releases ≤ 1) ∧
    (∀ i slot e s', s.slotAt i = some slot → slot.claimed = true → step options s e = some s' →
      e = .settle i ∨ s'.slotAt i = some slot) ∧
    s.requests.countP GateRequest.working ≤ options.cap ∧
    (Quiescent s → s.inFlight = 0) := by
  have h := counted_run (counted_start options) hrun
  refine ⟨h.counter, ?_, h.le_cap, ?_, ?_, ?_, h.quiescent⟩
  · rw [h.counter]
    exact Int.natCast_nonneg _
  · intro i slot hslot
    obtain ⟨r, hi, hr⟩ := Option.bind_eq_some_iff.mp hslot
    rw [(h.sane r (List.mem_of_getElem? hi) slot hr).releases]
    exact Bool.toNat_le _
  · intro i slot e s' hslot hclaimed hstep
    exact slotAt_step h hstep hslot hclaimed
  · exact Int.ofNat_le.mp (h.working_le.trans h.le_cap)

/-! ## The two gates of the server -/

/-- The reserve of the probes. -/
def probeGate (isProbe : Req → Bool) (maxConcurrentProbes : Option ℤ) : GateOptions Req where
  limit := resolveLimit maxConcurrentProbes 16
  skip req := !isProbe req

/-- The gate of every other request. -/
def requestGate (isProbe : Req → Bool) (maxConcurrentRequests : Option ℤ) : GateOptions Req where
  limit := resolveLimit maxConcurrentRequests 50
  skip := isProbe

/-- A client aborts while its handler runs, another is refused, and the handler settles. -/
theorem gateRun_slots_abort :
    ∃ s, run (requestGate id (some 1))
      .start [.arrive false, .hold 0, .close 0, .arrive false, .settle 0] = some s ∧
        s.inFlight = 0 ∧ s.shed = 1 := by
  have hrun : run (requestGate id (some 1)) .start
      [.arrive false, .hold 0, .close 0, .arrive false, .settle 0] =
        some ⟨0, 1, [⟨false, some ⟨true, true, 1⟩, true, some .settled⟩, ⟨true, none, false, none⟩]⟩ := by
    decide +kernel
  have hslots := gateRun_slots _ _ hrun
  exact ⟨_, hrun, hslots.1, rfl⟩

end XChain.ConcurrencyGate
