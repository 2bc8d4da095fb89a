import Mathlib.Data.List.TakeWhile
import Mathlib.Tactic.Set
import Mathlib.Tactic.SplitIfs

/-!
# Reasons of the upstreams

The node and the tracker word their own failures. What of it reaches a caller must not tell where they
run, so a reason with a URL, a dotted quad or a `host:port` in it is dropped whole.

* `leaksInternalDetail`: the three shapes, sought from every position;
* `safeUpstreamReason`: the reason as it is forwarded, printable and cut;
* `leaksFrom_append`: a text that ends where a word may end leaks nothing its continuation does not;
* **`safeUpstreamReason_safe`**: a forwarded reason leaks nothing, unless the cut fell inside a word.
-/

namespace XChain.Upstream

/-! ## Texts -/

/-- The UTF-16 units of a character. -/
def utf16 (c : Char) : List UInt16 :=
  if c.toNat < 0x10000 then [UInt16.ofNat c.toNat]
  else [UInt16.ofNat (0xd800 + (c.toNat - 0x10000) / 0x400),
    UInt16.ofNat (0xdc00 + (c.toNat - 0x10000) % 0x400)]

/-- A text is read by its units, which need not pair up. -/
def units (s : String) : List UInt16 := s.toList.flatMap utf16

/-- The text of printable units. -/
def text (s : List UInt16) : String := String.ofList (s.map fun c => Char.ofNat c.toNat)

/-! ## The shapes -/

/-- `a` to `z` and `A` to `Z`. -/
def isLetter (c : UInt16) : Bool := (0x61 ≤ c && c ≤ 0x7a) || (0x41 ≤ c && c ≤ 0x5a)

def isDigit (c : UInt16) : Bool := 0x30 ≤ c && c ≤ 0x39

/-- A letter, a digit or `_`. -/
def isWord (c : UInt16) : Bool := isLetter c || isDigit c || c = 0x5f

/-- A unit of a URL's scheme: a letter, a digit, `+`, `.` or `-`. -/
def inScheme (c : UInt16) : Bool := isLetter c || isDigit c || c = 0x2b || c = 0x2e || c = 0x2d

/-- A unit of a host's name: a letter, a digit, `_`, `.` or `-`. -/
def inHost (c : UInt16) : Bool := isLetter c || isDigit c || c = 0x5f || c = 0x2e || c = 0x2d

/-- A word that ends here may be followed by the rest. -/
def boundary (rest : List UInt16) : Bool := !rest.head?.any isWord

def urlMark : List UInt16 := [0x3a, 0x2f, 0x2f]

/-- A letter and units of a scheme, then `://`. -/
def urlAt : List UInt16 → Bool
  | [] => false
  | c :: rest => isLetter c && urlMark.isPrefixOf (rest.dropWhile inScheme)

/-- One to three digits, and what follows them. -/
def octet (s : List UInt16) : Option (List UInt16) :=
  let run := s.takeWhile isDigit
  if 1 ≤ run.length && run.length ≤ 3 then some (s.dropWhile isDigit) else none

/-- An octet, and so many more after a dot each. -/
def octetsAt : ℕ → List UInt16 → Bool
  | 0, s => (octet s).any boundary
  | more + 1, s => (octet s).any fun rest => rest.head? = some 0x2e && octetsAt more rest.tail

/-- A colon and two to five digits. -/
def portAt : List UInt16 → Bool
  | [] => false
  | c :: rest =>
    let run := rest.takeWhile isDigit
    c = 0x3a && 2 ≤ run.length && run.length ≤ 5 && boundary (rest.dropWhile isDigit)

/-- A letter and units of a host, then a port. -/
def endpointAt : List UInt16 → Bool
  | [] => false
  | c :: rest => isLetter c && portAt (rest.dropWhile inHost)

/-- One of the shapes begins here, after the given unit. -/
def leaksAt (before : Option UInt16) (s : List UInt16) : Bool :=
  urlAt s || (!before.any isWord && octetsAt 3 s) || endpointAt s

def leaksFrom : Option UInt16 → List UInt16 → Bool
  | _, [] => false
  | before, c :: rest => leaksAt before (c :: rest) || leaksFrom (some c) rest

def leaksInternalDetail (message : List UInt16) : Bool := leaksFrom none message

example : leaksInternalDetail (units "connect ECONNREFUSED 10.0.0.3:8332") = true := by
  decide +kernel

example : leaksInternalDetail (units "min relay fee not met, 0 < 110") = false := by decide +kernel

/-! ## The reason that is forwarded -/

/-- What went wrong in a request: a failure of the transport, or an answer of the upstream. -/
structure Failure where
  transport : Bool
  message : String
  deriving DecidableEq, Repr

/-- The upstream's own words, or the fallback. -/
def upstreamErrorMessage (err : Failure) (fallback : String) : String :=
  if err.transport then fallback
  else if err.message = "" || leaksInternalDetail (units err.message) then fallback
  else err.message

def maxUpstreamReasonChars : ℕ := 120

def maxCheckedReasonChars : ℕ := 4096

def isPrintable (c : UInt16) : Bool := 0x20 ≤ c && c ≤ 0x7e

/-- An unprintable unit becomes a blank. -/
def blanked (c : UInt16) : UInt16 := if isPrintable c then c else 0x20

/-- Without the blanks at its end. -/
def trimEnd (s : List UInt16) : List UInt16 := (s.reverse.dropWhile (· = 0x20)).reverse

def trim (s : List UInt16) : List UInt16 := trimEnd (s.dropWhile (· = 0x20))

/-- A reason of an upstream as it may be forwarded; none when it may not, or says nothing. -/
def safeUpstreamReason (value : List UInt16) : Option (List UInt16) :=
  if maxCheckedReasonChars < value.length then none
  else if leaksInternalDetail value then none
  else
    let printable := trim ((trim (value.map blanked)).take maxUpstreamReasonChars)
    if printable = [] then none else some printable

/-! ## Continuations -/

section Append

variable {a b : List UInt16} {p : UInt16 → Bool}

theorem takeWhile_append_stop (h : b.head?.any p = false) :
    (a ++ b).takeWhile p = a.takeWhile p := by
  induction a with
  | nil =>
    cases b with
    | nil => rfl
    | cons c b => exact List.takeWhile_cons_of_neg (by simpa using h)
  | cons c a ih =>
    rw [List.cons_append, List.takeWhile_cons, List.takeWhile_cons, ih]

theorem dropWhile_append_stop (h : b.head?.any p = false) :
    (a ++ b).dropWhile p = a.dropWhile p ++ b := by
  induction a with
  | nil =>
    cases b with
    | nil => rfl
    | cons c b => exact List.dropWhile_cons_of_neg (by simpa using h)
  | cons c a ih =>
    rw [List.cons_append, List.dropWhile_cons, List.dropWhile_cons, ih]
    split <;> rfl

theorem dropWhile_append_ne_nil (h : a.dropWhile p ≠ []) :
    (a ++ b).dropWhile p = a.dropWhile p ++ b := by
  rw [List.dropWhile_append, if_neg (by simpa using h)]

theorem boundary_append (ha : boundary a = true) (hb : boundary b = true) :
    boundary (a ++ b) = true := by
  cases a with
  | nil => exact hb
  | cons c a => exact ha

theorem head_not_digit (h : boundary b = true) : b.head?.any isDigit = false := by
  cases b with
  | nil => rfl
  | cons c b =>
    simp only [boundary, isWord, List.head?_cons, Option.any_some, Bool.not_eq_true',
      Bool.or_eq_false_iff] at h
    exact h.1.2

theorem urlAt_append (h : urlAt a = true) : urlAt (a ++ b) = true := by
  cases a with
  | nil => cases h
  | cons c a =>
    simp only [urlAt, List.cons_append, Bool.and_eq_true] at h ⊢
    refine ⟨h.1, ?_⟩
    have hstarts := List.isPrefixOf_iff_prefix.mp h.2
    have hne : a.dropWhile inScheme ≠ [] := by
      intro hnil
      rw [hnil, List.prefix_nil] at hstarts
      cases hstarts
    rw [dropWhile_append_ne_nil hne]
    exact List.isPrefixOf_iff_prefix.mpr (hstarts.trans (List.prefix_append _ _))

theorem octet_append (hb : boundary b = true) : octet (a ++ b) = (octet a).map (· ++ b) := by
  have hstop := head_not_digit hb
  unfold octet
  rw [takeWhile_append_stop hstop, dropWhile_append_stop hstop]
  dsimp only
  split_ifs <;> rfl

theorem octetsAt_append (hb : boundary b = true) {more : ℕ} (h : octetsAt more a = true) :
    octetsAt more (a ++ b) = true := by
  induction more generalizing a with
  | zero =>
    rw [octetsAt, octet_append hb]
    rw [octetsAt] at h
    cases ho : octet a with
    | none =>
      rw [ho] at h
      cases h
    | some rest =>
      rw [ho] at h
      exact boundary_append h hb
  | succ more ih =>
    rw [octetsAt, octet_append hb]
    rw [octetsAt] at h
    cases ho : octet a with
    | none =>
      rw [ho] at h
      cases h
    | some rest =>
      rw [ho] at h
      cases rest with
      | nil => cases h
      | cons c rest =>
        simp only [Option.any_some, Option.map_some, List.cons_append, List.head?_cons,
          List.tail_cons, Bool.and_eq_true] at h ⊢
        exact ⟨h.1, ih h.2⟩

theorem portAt_cons {c : UInt16} {s : List UInt16} : portAt (c :: s) = true ↔ c = 0x3a ∧
    2 ≤ (s.takeWhile isDigit).length ∧ (s.takeWhile isDigit).length ≤ 5 ∧
      boundary (s.dropWhile isDigit) = true := by
  simp [portAt, and_assoc]

theorem portAt_append (hb : boundary b = true) (h : portAt a = true) : portAt (a ++ b) = true := by
  have hstop := head_not_digit hb
  cases a with
  | nil => cases h
  | cons c a =>
    obtain ⟨hc, hmin, hmax, hend⟩ := portAt_cons.mp h
    rw [List.cons_append, portAt_cons, takeWhile_append_stop hstop, dropWhile_append_stop hstop]
    exact ⟨hc, hmin, hmax, boundary_append hend hb⟩

theorem endpointAt_append (hb : boundary b = true) (h : endpointAt a = true) :
    endpointAt (a ++ b) = true := by
  cases a with
  | nil => cases h
  | cons c a =>
    simp only [endpointAt, List.cons_append, Bool.and_eq_true] at h ⊢
    refine ⟨h.1, ?_⟩
    have hne : a.dropWhile inHost ≠ [] := by
      intro hnil
      rw [hnil] at h
      cases h.2
    rw [dropWhile_append_ne_nil hne]
    exact portAt_append hb h.2

theorem leaksAt_append (hb : boundary b = true) {before : Option UInt16}
    (h : leaksAt before a = true) : leaksAt before (a ++ b) = true := by
  simp only [leaksAt, Bool.or_eq_true, Bool.and_eq_true] at h ⊢
  rcases h with (h | ⟨hword, h⟩) | h
  · exact .inl (.inl (urlAt_append h))
  · exact .inl (.inr ⟨hword, octetsAt_append hb h⟩)
  · exact .inr (endpointAt_append hb h)

/-- **A text that ends where a word may end leaks nothing its continuation does not.** -/
theorem leaksFrom_append (hb : boundary b = true) {before : Option UInt16}
    (h : leaksFrom before a = true) : leaksFrom before (a ++ b) = true := by
  induction a generalizing before with
  | nil => cases h
  | cons c a ih =>
    simp only [List.cons_append, leaksFrom, Bool.or_eq_true] at h ⊢
    exact h.imp (leaksAt_append hb) ih

end Append

theorem leaksFrom_blank (s : List UInt16) : leaksFrom none (0x20 :: s) = leaksFrom none s := by
  have hhere : leaksAt none (0x20 :: s) = false := by
    simp [leaksAt, urlAt, endpointAt, octetsAt, octet, isLetter, isDigit]
  have hnext : leaksFrom (some 0x20) s = leaksFrom none s := by
    cases s with
    | nil => rfl
    | cons c s => rfl
  rw [leaksFrom, hhere, hnext, Bool.false_or]

theorem leaksFrom_blanks (s : List UInt16) :
    leaksFrom none (s.dropWhile (· = 0x20)) = leaksFrom none s := by
  induction s with
  | nil => rfl
  | cons c s ih =>
    rw [List.dropWhile_cons]
    split_ifs with hc
    · obtain rfl : c = 0x20 := by simpa using hc
      rw [ih, leaksFrom_blank]
    · rfl

/-! ## Blanked units -/

theorem isPrintable_blanked (c : UInt16) : isPrintable (blanked c) = true := by
  unfold blanked
  split_ifs with h
  · exact h
  · decide

/-- A class of printable units without the blank does not tell a unit from the one that stands for
it. -/
theorem comp_blanked {p : UInt16 → Bool} (hp : ∀ c, p c = true → isPrintable c = true)
    (hblank : p 0x20 = false) : p ∘ blanked = p := by
  funext c
  rw [Function.comp_apply, blanked]
  split_ifs with h
  · rfl
  · exact hblank.trans (Bool.eq_false_iff.mpr fun hc => h (hp c hc)).symm

theorem isPrintable_between {lo hi c : UInt16} (hlo : 0x20 ≤ lo) (hhi : hi ≤ 0x7e)
    (h : (lo ≤ c && c ≤ hi) = true) : isPrintable c = true := by
  simp only [isPrintable, Bool.and_eq_true, decide_eq_true_eq] at h ⊢
  exact ⟨UInt16.le_trans hlo h.1, UInt16.le_trans h.2 hhi⟩

theorem isPrintable_of_isLetter {c : UInt16} (h : isLetter c = true) : isPrintable c = true := by
  rcases (Bool.or_eq_true _ _).mp h with h | h
  · exact isPrintable_between (by decide) (by decide) h
  · exact isPrintable_between (by decide) (by decide) h

theorem isPrintable_of_isDigit {c : UInt16} (h : isDigit c = true) : isPrintable c = true :=
  isPrintable_between (by decide) (by decide) h

theorem isLetter_blanked : isLetter ∘ blanked = isLetter :=
  comp_blanked (fun _ => isPrintable_of_isLetter) (by decide)

theorem isDigit_blanked : isDigit ∘ blanked = isDigit :=
  comp_blanked (fun _ => isPrintable_of_isDigit) (by decide)

theorem isWord_blanked : isWord ∘ blanked = isWord := by
  refine comp_blanked (fun c h => ?_) (by decide)
  simp only [isWord, Bool.or_eq_true, decide_eq_true_eq] at h
  rcases h with (h | h) | rfl
  · exact isPrintable_of_isLetter h
  · exact isPrintable_of_isDigit h
  · decide

theorem inScheme_blanked : inScheme ∘ blanked = inScheme := by
  refine comp_blanked (fun c h => ?_) (by decide)
  simp only [inScheme, Bool.or_eq_true, decide_eq_true_eq] at h
  rcases h with (((h | h) | rfl) | rfl) | rfl
  · exact isPrintable_of_isLetter h
  · exact isPrintable_of_isDigit h
  all_goals decide

theorem inHost_blanked : inHost ∘ blanked = inHost := by
  refine comp_blanked (fun c h => ?_) (by decide)
  simp only [inHost, Bool.or_eq_true, decide_eq_true_eq] at h
  rcases h with (((h | h) | rfl) | rfl) | rfl
  · exact isPrintable_of_isLetter h
  · exact isPrintable_of_isDigit h
  all_goals decide

theorem eq_blanked {d : UInt16} (hd : isPrintable d = true) (hblank : d ≠ 0x20) (c : UInt16) :
    (blanked c = d) ↔ c = d := by
  unfold blanked
  split_ifs with h
  · rfl
  · constructor
    · exact fun he => absurd he.symm hblank
    · rintro rfl
      exact absurd hd h

theorem head?_any_blanked {p : UInt16 → Bool} (hp : p ∘ blanked = p) (s : List UInt16) :
    (s.map blanked).head?.any p = s.head?.any p := by
  cases s with
  | nil => rfl
  | cons c s => exact congrFun hp c

theorem dropWhile_blanked {p : UInt16 → Bool} (hp : p ∘ blanked = p) (s : List UInt16) :
    (s.map blanked).dropWhile p = (s.dropWhile p).map blanked := by
  rw [List.dropWhile_map, hp]

theorem length_takeWhile_blanked {p : UInt16 → Bool} (hp : p ∘ blanked = p) (s : List UInt16) :
    ((s.map blanked).takeWhile p).length = (s.takeWhile p).length := by
  rw [List.takeWhile_map, hp, List.length_map]

theorem boundary_blanked (s : List UInt16) : boundary (s.map blanked) = boundary s :=
  congrArg (! ·) (head?_any_blanked isWord_blanked s)

theorem isPrefixOf_blanked {l : List UInt16} (hl : ∀ d ∈ l, isPrintable d = true ∧ d ≠ 0x20)
    (s : List UInt16) : l.isPrefixOf (s.map blanked) = l.isPrefixOf s := by
  induction l generalizing s with
  | nil => cases s <;> rfl
  | cons d l ih =>
    cases s with
    | nil => rfl
    | cons c s =>
      obtain ⟨hd, hblank⟩ := hl d List.mem_cons_self
      have hsame : (d == blanked c) = (d == c) := by
        rw [Bool.eq_iff_iff, beq_iff_eq, beq_iff_eq, eq_comm, eq_blanked hd hblank, eq_comm]
      rw [List.map_cons, List.isPrefixOf_cons_cons, List.isPrefixOf_cons_cons, hsame,
        ih (fun e he => hl e (List.mem_cons_of_mem _ he))]

theorem printable_urlMark : ∀ d ∈ urlMark, isPrintable d = true ∧ d ≠ 0x20 := by
  intro d hd
  obtain rfl | rfl : d = 0x3a ∨ d = 0x2f := by simpa [urlMark] using hd
  · exact ⟨by decide, by decide⟩
  · exact ⟨by decide, by decide⟩

theorem urlAt_blanked (s : List UInt16) : urlAt (s.map blanked) = urlAt s := by
  cases s with
  | nil => rfl
  | cons c s =>
    rw [List.map_cons, urlAt, urlAt, dropWhile_blanked inScheme_blanked,
      isPrefixOf_blanked printable_urlMark, ← Function.comp_apply (f := isLetter), isLetter_blanked]

theorem octet_blanked (s : List UInt16) : octet (s.map blanked) = (octet s).map (·.map blanked) := by
  unfold octet
  rw [dropWhile_blanked isDigit_blanked]
  dsimp only
  rw [length_takeWhile_blanked isDigit_blanked]
  split_ifs <;> rfl

theorem octetsAt_blanked (more : ℕ) (s : List UInt16) :
    octetsAt more (s.map blanked) = octetsAt more s := by
  induction more generalizing s with
  | zero =>
    rw [octetsAt, octetsAt, octet_blanked]
    cases octet s with
    | none => rfl
    | some rest => exact boundary_blanked rest
  | succ more ih =>
    rw [octetsAt, octetsAt, octet_blanked]
    cases octet s with
    | none => rfl
    | some rest =>
      cases rest with
      | nil => rfl
      | cons c rest =>
        simp only [Option.map_some, Option.any_some, List.map_cons, List.head?_cons, List.tail_cons,
          Option.some.injEq, eq_blanked (d := 0x2e) (by decide) (by decide), ih]

theorem portAt_blanked (s : List UInt16) : portAt (s.map blanked) = portAt s := by
  cases s with
  | nil => rfl
  | cons c s =>
    rw [Bool.eq_iff_iff, List.map_cons, portAt_cons, portAt_cons,
      eq_blanked (d := 0x3a) (by decide) (by decide), length_takeWhile_blanked isDigit_blanked,
      dropWhile_blanked isDigit_blanked, boundary_blanked]

theorem endpointAt_blanked (s : List UInt16) : endpointAt (s.map blanked) = endpointAt s := by
  cases s with
  | nil => rfl
  | cons c s =>
    rw [List.map_cons, endpointAt, endpointAt, dropWhile_blanked inHost_blanked, portAt_blanked,
      ← Function.comp_apply (f := isLetter), isLetter_blanked]

theorem leaksAt_blanked (before : Option UInt16) (s : List UInt16) :
    leaksAt (before.map blanked) (s.map blanked) = leaksAt before s := by
  have hbefore : (before.map blanked).any isWord = before.any isWord := by
    cases before with
    | none => rfl
    | some c => exact congrFun isWord_blanked c
  rw [leaksAt, leaksAt, hbefore, urlAt_blanked, octetsAt_blanked, endpointAt_blanked]

/-- **Blanking what is unprintable hides nothing and shows nothing.** -/
theorem leaksFrom_blanked (before : Option UInt16) (s : List UInt16) :
    leaksFrom (before.map blanked) (s.map blanked) = leaksFrom before s := by
  induction s generalizing before with
  | nil => rfl
  | cons c s ih =>
    have hhere := leaksAt_blanked before (c :: s)
    have hnext := ih (some c)
    rw [List.map_cons] at hhere ⊢
    rw [leaksFrom, leaksFrom, hhere]
    exact congrArg (leaksAt before (c :: s) || ·) hnext

/-! ## What is forwarded -/

theorem trimEnd_append (s : List UInt16) :
    ∃ blanks : List UInt16, s = trimEnd s ++ blanks ∧ ∀ c ∈ blanks, c = 0x20 := by
  refine ⟨(s.reverse.takeWhile (· = 0x20)).reverse, ?_, fun c hc => ?_⟩
  · rw [trimEnd, ← List.reverse_append, List.takeWhile_append_dropWhile, List.reverse_reverse]
  · simpa using List.mem_takeWhile_imp (List.mem_reverse.mp hc)

theorem getLast?_trimEnd (s : List UInt16) : (trimEnd s).getLast? ≠ some 0x20 := by
  rw [trimEnd, List.getLast?_reverse]
  intro h
  have hstop := List.head?_dropWhile_not (· = 0x20) s.reverse
  rw [h] at hstop
  simp at hstop

theorem boundary_blanks {blanks : List UInt16} (h : ∀ c ∈ blanks, c = 0x20) :
    boundary blanks = true := by
  cases blanks with
  | nil => rfl
  | cons c blanks =>
    obtain rfl := h c List.mem_cons_self
    rfl

theorem trim_of_head {s : List UInt16} (h : s.head? ≠ some 0x20) : trim s = trimEnd s := by
  cases s with
  | nil => rfl
  | cons c s =>
    rw [trim, List.dropWhile_cons_of_neg (by simpa using h)]

theorem head?_dropWhile_blank (s : List UInt16) : (s.dropWhile (· = 0x20)).head? ≠ some 0x20 := by
  intro h
  have hstop := List.head?_dropWhile_not (· = 0x20) s
  rw [h] at hstop
  simp at hstop

theorem head?_of_prefix {a b : List UInt16} (hab : a <+: b) (h : b.head? ≠ some 0x20) :
    a.head? ≠ some 0x20 := by
  obtain ⟨t, rfl⟩ := hab
  cases a with
  | nil => exact nofun
  | cons c a => exact h

theorem trimEnd_starts (s : List UInt16) : trimEnd s <+: s := by
  obtain ⟨blanks, hs, -⟩ := trimEnd_append s
  exact ⟨blanks, hs.symm⟩

/-- A text, cut: what is kept of it, and what follows. -/
structure Cut (cleaned reason : List UInt16) : Prop where
  head : reason.head? ≠ some 0x20
  last : reason.getLast? ≠ some 0x20
  length : reason.length ≤ maxUpstreamReasonChars
  parts : ∃ before after, cleaned = before ++ reason ++ after ∧
    cleaned.dropWhile (· = 0x20) = reason ++ after ∧
    (boundary after = false → reason.length = maxUpstreamReasonChars)

theorem cut_trim (cleaned : List UInt16) :
    Cut cleaned (trim ((trim cleaned).take maxUpstreamReasonChars)) := by
  set body := cleaned.dropWhile (· = 0x20) with hbody
  set kept := (trim cleaned).take maxUpstreamReasonChars with hkept
  have hstarts : kept <+: body := (List.take_prefix _ _).trans (trimEnd_starts body)
  have hhead : kept.head? ≠ some 0x20 := head?_of_prefix hstarts (head?_dropWhile_blank cleaned)
  rw [trim_of_head hhead]
  obtain ⟨inner, hinner, hblank⟩ := trimEnd_append kept
  obtain ⟨outer, houter, hblank'⟩ := trimEnd_append body
  have hsplit : trim cleaned = kept ++ (trim cleaned).drop maxUpstreamReasonChars :=
    (List.take_append_drop _ _).symm
  have hrest : body = trimEnd kept ++ (inner ++ ((trim cleaned).drop maxUpstreamReasonChars ++ outer)) := by
    calc body = trim cleaned ++ outer := houter
      _ = kept ++ (trim cleaned).drop maxUpstreamReasonChars ++ outer := by rw [← hsplit]
      _ = _ := by
        rw [← List.append_assoc (trimEnd kept), ← hinner, List.append_assoc]
  refine
    { head := head?_of_prefix (trimEnd_starts kept) hhead
      last := getLast?_trimEnd kept
      length := (trimEnd_starts kept).length_le.trans (List.length_take_le _ _)
      parts := ⟨cleaned.takeWhile (· = 0x20), _, ?_, hrest, fun hword => ?_⟩ }
  · rw [List.append_assoc, ← hrest, hbody, List.takeWhile_append_dropWhile]
  · -- Blanks after the reason, or none left to cut, would end the word.
    cases inner with
    | cons c inner =>
      obtain rfl := hblank c List.mem_cons_self
      cases hword
    | nil =>
      rw [List.append_nil] at hinner
      rw [← hinner, hkept, List.length_take, min_eq_left]
      by_contra hshort
      rw [List.drop_eq_nil_of_le (by omega), List.nil_append, List.nil_append,
        boundary_blanks hblank'] at hword
      cases hword

/-- **What is forwarded of a reason.** It says something, in at most 120 printable units without blanks
around it, and it is a contiguous part of the reason once each unprintable unit is a blank; and it
leaks nothing, unless it was cut at the 120th, inside a word. -/
theorem safeUpstreamReason_safe (value reason : List UInt16)
    (h : safeUpstreamReason value = some reason) :
    reason ≠ [] ∧ reason.length ≤ maxUpstreamReasonChars ∧
      (∀ c ∈ reason, isPrintable c = true) ∧
      reason.head? ≠ some 0x20 ∧ reason.getLast? ≠ some 0x20 ∧
      ∃ before after, value.map blanked = before ++ reason ++ after ∧
        (leaksInternalDetail reason = true →
          reason.length = maxUpstreamReasonChars ∧ boundary after = false) := by
  unfold safeUpstreamReason at h
  dsimp only at h
  split_ifs at h with hlong hleak hempty
  have hcut := cut_trim (value.map blanked)
  obtain rfl := Option.some.inj h
  set reason := trim ((trim (value.map blanked)).take maxUpstreamReasonChars)
  obtain ⟨before, after, hwhole, hbody, hfull⟩ := hcut.parts
  refine ⟨hempty, hcut.length, fun c hc => ?_, hcut.head, hcut.last, before, after, hwhole,
    fun hleaks => ?_⟩
  · have hmem : c ∈ value.map blanked := by
      rw [hwhole]
      exact List.mem_append_left _ (List.mem_append_right _ hc)
    obtain ⟨d, -, rfl⟩ := List.mem_map.mp hmem
    exact isPrintable_blanked d
  · have hclean : leaksFrom none (reason ++ after) = false := by
      rw [← hbody, leaksFrom_blanks]
      exact (leaksFrom_blanked none value).trans (Bool.eq_false_iff.mpr hleak)
    have hword : boundary after = false := Bool.eq_false_iff.mpr fun hb => by
      rw [leaksFrom_append hb hleaks] at hclean
      cases hclean
    exact ⟨hfull hword, hword⟩

/-- A reason that ends in half of a pair, which becomes a blank. -/
theorem timeout_safe :
    units "timeout of 30000ms" ≠ [] ∧ (units "timeout of 30000ms").length ≤ maxUpstreamReasonChars ∧
      (∀ c ∈ units "timeout of 30000ms", isPrintable c = true) ∧
      (units "timeout of 30000ms").head? ≠ some 0x20 ∧
      (units "timeout of 30000ms").getLast? ≠ some 0x20 ∧
      ∃ before after, (units "timeout of\n30000ms" ++ [0xd83d]).map blanked =
          before ++ units "timeout of 30000ms" ++ after ∧
        (leaksInternalDetail (units "timeout of 30000ms") = true →
          (units "timeout of 30000ms").length = maxUpstreamReasonChars ∧ boundary after = false) :=
  safeUpstreamReason_safe (units "timeout of\n30000ms" ++ [0xd83d]) (units "timeout of 30000ms")
    (by decide +kernel)

end XChain.Upstream
