import XChainEncoder.Lib.SoloRuns
import XChainEncoder.SelectionCoverage

/-!
# Selection over free candidates

Selection read as a walk over the prefixes of its candidates.

* `IsFundingRefusal`: the refusals for want of funds;
* `Selection.extend`, `prefixSelection`: the transaction that spends exactly a prefix;
* `Fundable`: some prefix within the input limit covers outputs and final fee and clears the
  stripped-size floor;
* `FirstStop`, `NoStop`, `walks_cases`: **how a walk ends**;
* `walks_selectLoop`: selection over spendable candidates is a walk.
-/

namespace XChain

open PushScript Coroutine

/-! ## Refusals -/

/-- The refusal of a selection that could go on past the input limit. -/
def inputCountRefusal : BuildError :=
  ParamRangeError (s!"selected input count would exceed the maximum " ++
    s!"({maxUtxoCount}) inputs for a single transaction")

/-- A refusal for want of funds. -/
def IsFundingRefusal (e : BuildError) : Prop :=
  IsInsufficientFunds e ∨ e.cls = .operational "NO_CONFIRMED_UTXO" ∨ e = inputCountRefusal

/-- An error of a class, or with a first letter, that no funding refusal has. -/
theorem not_fundingRefusal {e : BuildError}
    (hcode : ∀ code, e.cls = .operational code → code ≠ "INSUFFICIENT_FUNDS" ∧
      code ≠ "NO_CONFIRMED_UTXO")
    (hmessage : e.cls = .paramRange → e.message.toList.head? ≠ some 's') : ¬ IsFundingRefusal e := by
  rintro (h | h | rfl)
  · exact (hcode _ h).1 rfl
  · exact (hcode _ h).2 rfl
  · exact hmessage rfl (by decide +kernel)

theorem not_fundingRefusal_of_plain {e : BuildError} (h : e.cls = .plain) : ¬ IsFundingRefusal e :=
  not_fundingRefusal (fun code hc => by cases h.symm.trans hc) fun hc => by cases h.symm.trans hc

theorem not_fundingRefusal_paramType (message : String) :
    ¬ IsFundingRefusal (ParamTypeError message) :=
  not_fundingRefusal (fun _ hc => by cases hc) fun hc => by cases hc

theorem not_fundingRefusal_paramRange {message : String} (h : message.toList.head? ≠ some 's') :
    ¬ IsFundingRefusal (ParamRangeError message) :=
  not_fundingRefusal (fun _ hc => by cases hc) fun _ => h

theorem not_fundingRefusal_ite {c : Prop} [Decidable c] {e e' : BuildError}
    (h : ¬ IsFundingRefusal e) (h' : ¬ IsFundingRefusal e') :
    ¬ IsFundingRefusal (if c then e else e') := by
  split_ifs
  · exact h
  · exact h'

/-! ## Prefixes -/

section Prefixes

variable (enc : Encoder) (plan : Plan) (emitted : Emitted) (reply : Replies sig) (clock : ℕ)

/-- The input of a candidate, with the previous transaction the node answers. -/
def resolvedInput (u : Utxo) (nestedRedeem : Option Bytes) : Except BuildError PsbtInput :=
  ((selectedInput enc plan u nestedRedeem).alone reply clock Reservations.empty Ledger.empty).1

/-- The selection that spends one candidate more. -/
def Selection.extend (acc : Selection) (index : ℕ) (u : Utxo) : Except BuildError Selection := do
  refuseUnsignableInput enc plan.prepared.encoding u
  let _ ← parseSatoshiAmount u.value s!"utxos[{index}].value" true
  let nestedRedeem := nestedP2wpkhRedeem enc.lib enc.network plan.request.pubkey
    plan.request.compressedPubKey u
  let input ← resolvedInput enc plan reply clock u nestedRedeem
  acc.add enc plan emitted u input nestedRedeem.isSome

/-- The selection that spends all of the candidates, the first one at `index`. -/
def extendAll : ℕ → List Utxo → Selection → Except BuildError Selection
  | _, [], acc => .ok acc
  | index, u :: us, acc => do
    let acc ← acc.extend enc plan emitted reply clock index u
    extendAll (index + 1) us acc

/-- The selection that spends exactly the first `k` candidates. -/
def prefixSelection (start : Selection) (k : ℕ) : Except BuildError Selection :=
  extendAll enc plan emitted reply clock 0 (plan.bound.utxos.take k) start

/-- The change output's bytes, when there is an address for it and it is worth an output. -/
def changeBytes (change : ℤ) : ℕ :=
  match plan.request.change with
  | some address => if enc.outputFloor ≤ change then
      estimateOutputSizeForAddress enc.lib enc.network (some address) else 0
  | none => 0

/-- The fee a selection is finally charged. -/
def finalFee (sel : Selection) (package : Option AncestorPackage) : ℤ :=
  floorEstimatedFee enc emitted (upliftBy enc plan emitted sel package).estimatedFee

/-- The transaction that spends the selection covers its outputs and final fee, and clears the
stripped-size floor. -/
structure Funded (sel : Selection) (package : Option AncestorPackage) : Prop where
  covers : emitted.outputSatoshis + finalFee enc plan emitted sel package ≤ sel.inputSatoshis
  clears : coreStrippedFloor enc.network ≤ predictedStrippedSize sel.psbt (changeBytes enc plan
    (sel.inputSatoshis - emitted.outputSatoshis - finalFee enc plan emitted sel package))

/-- How many candidates may be spent. -/
def reach (us : List Utxo) (index : ℕ) : ℕ := min us.length (maxUtxoCount - index)

/-- Some prefix within the input limit is funded, for some ancestor package. -/
def Fundable (start : Selection) : Prop :=
  ∃ k sel package, 1 ≤ k ∧ k ≤ reach plan.bound.utxos 0 ∧
    prefixSelection enc plan emitted reply clock start k = .ok sel ∧ Funded enc plan emitted sel package

/-- The selection covers its outputs, and its fee at least at the floor. -/
def Covers (sel : Selection) : Prop :=
  emitted.outputSatoshis + max sel.estimatedFee (enc.dustAmount + emitted.softDustSurcharge) ≤
    sel.inputSatoshis

/-- The checks between selection and settlement accept the selection. -/
structure FeeChecked (sel : Selection) : Prop where
  race : refuseFirstInputRace plan emitted.emission.txidFirstInput sel.psbt = .ok ()
  relay : refuseInsufficientRelayFee enc plan emitted sel = .ok ()
  excess : refuseExcessiveFee enc plan emitted sel = .ok ()

/-- Selection stops at the `j`-th of the candidates. -/
structure FirstStop (index : ℕ) (acc : Selection) (us : List Utxo) (j : ℕ) (sel : Selection) :
    Prop where
  pos : 1 ≤ j
  reach : j ≤ reach us index
  spends : extendAll enc plan emitted reply clock index (us.take j) acc = .ok sel
  enough : sel.enough enc plan emitted = true
  earlier : ∀ i sel', 1 ≤ i → i < j →
    extendAll enc plan emitted reply clock index (us.take i) acc = .ok sel' →
    sel'.enough enc plan emitted = false

/-- Selection stops nowhere. -/
def NoStop (index : ℕ) (acc : Selection) (us : List Utxo) : Prop :=
  ∀ j sel, 1 ≤ j → j ≤ reach us index →
    extendAll enc plan emitted reply clock index (us.take j) acc = .ok sel →
    sel.enough enc plan emitted = false

/-! ## The walk over free candidates -/

/-- Selection over free candidates. -/
inductive Walks : ℕ → Selection → List Utxo → Except BuildError Selection → Prop where
  | exhausted (index : ℕ) (acc : Selection) : Walks index acc [] (.ok acc)
  | capped (index : ℕ) (acc : Selection) (u : Utxo) (us : List Utxo) (e : BuildError)
      (hcap : maxUtxoCount ≤ acc.selectedInputCount) (he : IsFundingRefusal e) :
      Walks index acc (u :: us) (.error e)
  | failed (index : ℕ) (acc : Selection) (u : Utxo) (us : List Utxo) (e : BuildError)
      (hcap : acc.selectedInputCount < maxUtxoCount)
      (hextend : acc.extend enc plan emitted reply clock index u = .error e) :
      Walks index acc (u :: us) (.error e)
  | stopped (index : ℕ) (acc : Selection) (u : Utxo) (us : List Utxo) (acc' : Selection)
      (hcap : acc.selectedInputCount < maxUtxoCount)
      (hextend : acc.extend enc plan emitted reply clock index u = .ok acc')
      (henough : acc'.enough enc plan emitted = true) : Walks index acc (u :: us) (.ok acc')
  | next (index : ℕ) (acc : Selection) (u : Utxo) (us : List Utxo) (acc' : Selection)
      (r : Except BuildError Selection) (hcap : acc.selectedInputCount < maxUtxoCount)
      (hextend : acc.extend enc plan emitted reply clock index u = .ok acc')
      (henough : acc'.enough enc plan emitted = false)
      (hrest : Walks (index + 1) acc' us r) : Walks index acc (u :: us) r

end Prefixes

section Walk

variable {enc : Encoder} {plan : Plan} {emitted : Emitted} {reply : Replies sig} {clock : ℕ}
  {index : ℕ} {acc sel : Selection} {u : Utxo} {us : List Utxo}

theorem add_count {acc' : Selection} {input : PsbtInput} {nested : Bool}
    (h : acc.add enc plan emitted u input nested = .ok acc') :
    acc'.selectedInputCount = acc.selectedInputCount + 1 := by
  obtain ⟨psbt, -, hacc⟩ := bind_eq_ok.mp h
  cases hacc
  rfl

theorem extend_count {acc' : Selection}
    (h : acc.extend enc plan emitted reply clock index u = .ok acc') :
    acc'.selectedInputCount = acc.selectedInputCount + 1 := by
  obtain ⟨_, -, h⟩ := bind_eq_ok.mp h
  obtain ⟨_, -, h⟩ := bind_eq_ok.mp h
  obtain ⟨_, -, h⟩ := bind_eq_ok.mp h
  exact add_count h

theorem extendAll_cons (j : ℕ) :
    extendAll enc plan emitted reply clock index ((u :: us).take (j + 1)) acc =
      (acc.extend enc plan emitted reply clock index u >>= fun acc' =>
        extendAll enc plan emitted reply clock (index + 1) (us.take j) acc') := rfl

theorem reach_cons (h : index < maxUtxoCount) :
    reach (u :: us) index = reach us (index + 1) + 1 := by
  simp only [reach, List.length_cons]
  omega

theorem NoStop.cons {acc' : Selection} (hindex : index < maxUtxoCount)
    (hextend : acc.extend enc plan emitted reply clock index u = .ok acc')
    (henough : acc'.enough enc plan emitted = false)
    (h : NoStop enc plan emitted reply clock (index + 1) acc' us) :
    NoStop enc plan emitted reply clock index acc (u :: us) := by
  intro j sel hpos hj hsel
  obtain ⟨j, rfl⟩ : ∃ i, j = i + 1 := ⟨j - 1, by omega⟩
  rw [extendAll_cons, hextend] at hsel
  rcases Nat.eq_zero_or_pos j with rfl | hj'
  · obtain rfl : acc' = sel := Except.ok.inj hsel
    exact henough
  · refine h j sel hj' ?_ hsel
    rw [reach_cons hindex] at hj
    omega

theorem FirstStop.cons {acc' : Selection} {j : ℕ} (hindex : index < maxUtxoCount)
    (hextend : acc.extend enc plan emitted reply clock index u = .ok acc')
    (henough : acc'.enough enc plan emitted = false)
    (h : FirstStop enc plan emitted reply clock (index + 1) acc' us j sel) :
    FirstStop enc plan emitted reply clock index acc (u :: us) (j + 1) sel where
  pos := by omega
  reach := by
    rw [reach_cons hindex]
    exact Nat.succ_le_succ h.reach
  spends := by
    rw [extendAll_cons, hextend]
    exact h.spends
  enough := h.enough
  earlier := fun i sel' hpos hi hsel' => by
    obtain ⟨i, rfl⟩ : ∃ k, i = k + 1 := ⟨i - 1, by omega⟩
    rw [extendAll_cons, hextend] at hsel'
    rcases Nat.eq_zero_or_pos i with rfl | hi'
    · obtain rfl : acc' = sel' := Except.ok.inj hsel'
      exact henough
    · exact h.earlier i sel' hi' (by omega) hsel'

/-- **How a walk ends**: at the first prefix that is enough, at the end of the list, at the input
limit, or at a candidate that cannot be spent. -/
theorem walks_cases {r : Except BuildError Selection}
    (h : Walks enc plan emitted reply clock index acc us r) (hcount : acc.selectedInputCount = index)
    (hindex : index ≤ maxUtxoCount) :
    (∃ j sel, FirstStop enc plan emitted reply clock index acc us j sel ∧ r = .ok sel ∧
      sel.selectedInputCount = index + j) ∨
    (NoStop enc plan emitted reply clock index acc us ∧
      ((us.length ≤ maxUtxoCount - index ∧ ∃ sel,
          extendAll enc plan emitted reply clock index (us.take (reach us index)) acc = .ok sel ∧
          r = .ok sel ∧ sel.selectedInputCount = index + us.length) ∨
        (maxUtxoCount - index < us.length ∧ (∃ sel,
          extendAll enc plan emitted reply clock index (us.take (reach us index)) acc = .ok sel) ∧
          ∃ e, r = .error e ∧ IsFundingRefusal e) ∨
        ∃ e i acc' u', r = .error e ∧ u' ∈ us ∧
          Selection.extend enc plan emitted reply clock acc' i u' = .error e ∧
          ∀ sel, extendAll enc plan emitted reply clock index (us.take (reach us index)) acc ≠
            .ok sel)) := by
  induction h with
  | exhausted index acc =>
    refine .inr ⟨fun j sel hpos hj => ?_, .inl ⟨Nat.zero_le _, acc, ?_, rfl, hcount⟩⟩
    · simp only [reach, List.length_nil] at hj
      omega
    · simp [reach, extendAll]
  | capped index acc u us e hcap he =>
    have hfull : maxUtxoCount - index = 0 := by omega
    refine .inr ⟨fun j sel hpos hj => ?_, .inr (.inl ⟨?_, ⟨acc, ?_⟩, e, rfl, he⟩)⟩
    · rw [reach, hfull] at hj
      omega
    · rw [hfull]
      exact Nat.succ_pos _
    · rw [reach, hfull, Nat.min_zero, List.take_zero]
      rfl
  | failed index acc u us e hcap hextend =>
    have hlt : index < maxUtxoCount := by omega
    have hnone : ∀ j sel, 1 ≤ j →
        extendAll enc plan emitted reply clock index ((u :: us).take j) acc ≠ .ok sel := by
      intro j sel hpos hsel
      obtain ⟨j, rfl⟩ : ∃ i, j = i + 1 := ⟨j - 1, by omega⟩
      rw [extendAll_cons, hextend] at hsel
      cases hsel
    refine .inr ⟨fun j sel hpos _ hsel => absurd hsel (hnone j sel hpos), .inr (.inr
      ⟨e, index, acc, u, rfl, List.mem_cons_self, hextend, fun sel => hnone _ sel ?_⟩)⟩
    rw [reach_cons hlt]
    omega
  | stopped index acc u us acc' hcap hextend henough =>
    have hlt : index < maxUtxoCount := by omega
    refine .inl ⟨1, acc', ⟨le_rfl, ?_, ?_, henough, fun i sel' hpos hi => by omega⟩, rfl, ?_⟩
    · rw [reach_cons hlt]
      omega
    · rw [extendAll_cons, hextend]
      rfl
    · rw [extend_count hextend, hcount]
  | next index acc u us acc' r hcap hextend henough hrest ih =>
    have hlt : index < maxUtxoCount := by omega
    have hreached : extendAll enc plan emitted reply clock index ((u :: us).take (reach (u :: us) index))
        acc = extendAll enc plan emitted reply clock (index + 1) (us.take (reach us (index + 1))) acc' := by
      rw [reach_cons hlt, extendAll_cons, hextend]
      rfl
    rcases ih (by rw [extend_count hextend, hcount]) hlt with ⟨j, sel, hstop, hr, hn⟩ | ⟨hno, hends⟩
    · exact .inl ⟨j + 1, sel, hstop.cons hlt hextend henough, hr, by omega⟩
    · refine .inr ⟨hno.cons hlt hextend henough, ?_⟩
      rw [hreached]
      rcases hends with ⟨hlen, sel, hsel, hr, hn⟩ | ⟨hlen, hsel, he⟩ | ⟨e, i, a, u', hr, hu', hrest⟩
      · exact .inl ⟨by rw [List.length_cons]; omega, sel, hsel, hr, by rw [List.length_cons]; omega⟩
      · exact .inr (.inl ⟨by rw [List.length_cons]; omega, hsel, he⟩)
      · exact .inr (.inr ⟨e, i, a, u', hr, List.mem_cons_of_mem u hu', hrest⟩)

/-! ## Errors that refuse no funds -/

/-- The node rejects no request with one of the encoder's own funding refusals. -/
def RepliesApart (reply : Replies sig) : Prop :=
  ∀ txid e, reply (.transactionHex txid) = .error e → ¬ IsFundingRefusal e.val

theorem wrongPrevOut_refusal {fetched : Bool} {problem : String}
    (h : problem.toList.head? ≠ some 's') : ¬ IsFundingRefusal (wrongPrevOut fetched problem) := by
  unfold wrongPrevOut
  split_ifs
  · exact not_fundingRefusal (fun code hc => by cases hc; decide) fun hc => by cases hc
  · exact not_fundingRefusal_paramRange h

theorem alone_checkedPrevTx (s : Reservations) (l : Ledger) :
    (checkedPrevTx enc plan u).alone reply clock s l =
      (((reply (.transactionHex u.txid)).mapError Subtype.val).bind fun hex : Text =>
        assertPrevOutValueMatches enc hex u plan.fetchedFromTracker, s, l) := by
  show (Coro.bind (Coro.ofExcept (σ := sig) ((reply (.transactionHex u.txid)).mapError Subtype.val))
    fun hex : Text => Coro.ofExcept (σ := sig)
      (assertPrevOutValueMatches enc hex u plan.fetchedFromTracker)).alone reply clock s l = _
  cases reply (.transactionHex u.txid) with
  | error e => rfl
  | ok hex => exact alone_ofExcept (σ := sig) _ s l

theorem checkedPrevTx_refusal (hreply : RepliesApart reply) {s : Reservations} {l : Ledger}
    {e : BuildError} (h : ((checkedPrevTx enc plan u).alone reply clock s l).1 = .error e) :
    ¬ IsFundingRefusal e := by
  rw [alone_checkedPrevTx] at h
  cases hhex : reply (.transactionHex u.txid) with
  | error e' =>
    rw [hhex] at h
    cases h
    exact hreply _ _ hhex
  | ok hex =>
    rw [hhex] at h
    replace h : assertPrevOutValueMatches enc hex u plan.fetchedFromTracker = .error e := h
    unfold assertPrevOutValueMatches at h
    dsimp only at h
    split at h
    · cases h
      exact wrongPrevOut_refusal (by simp [toString])
    · split at h
      · cases h
        exact wrongPrevOut_refusal (by simp [toString])
      · split_ifs at h
        cases h
        exact wrongPrevOut_refusal (by simp [toString])

/-- The input of a candidate fails as its previous transaction does. -/
theorem resolvedInput_refusal (hreply : RepliesApart reply) {nested : Option Bytes} {e : BuildError}
    (h : resolvedInput enc plan reply clock u nested = .error e) : ¬ IsFundingRefusal e := by
  have hfails : ∀ f : ParsedTx → PsbtInput,
      (((checkedPrevTx enc plan u).bind fun tx => .ret (f tx)).alone reply clock Reservations.empty
        Ledger.empty).1 = .error e → ¬ IsFundingRefusal e := by
    intro f hf
    rw [alone_bind] at hf
    cases hc : (checkedPrevTx enc plan u).alone reply clock Reservations.empty Ledger.empty with
    | mk r rest =>
      rw [hc] at hf
      cases r with
      | ok tx => cases hf
      | error e' =>
        cases hf
        exact checkedPrevTx_refusal hreply (congrArg Prod.fst hc)
  unfold resolvedInput selectedInput at h
  dsimp only at h
  split_ifs at h
  · exact hfails _ h
  · cases h
  · exact hfails _ h

/-- A candidate of a valid value that cannot be spent is no funding refusal. -/
theorem extend_refusal (hreply : RepliesApart reply) (hvalue : 0 ≤ u.value ∧ u.value ≤ maxSatoshiU64)
    {e : BuildError} (h : acc.extend enc plan emitted reply clock index u = .error e) :
    ¬ IsFundingRefusal e := by
  rcases bind_eq_error.mp h with hsign | ⟨_, -, h⟩
  · rcases bind_eq_error.mp hsign with hkind | ⟨_, -, hkind⟩ <;>
      obtain ⟨-, rfl⟩ := ensure_eq_error.mp hkind <;> exact not_fundingRefusal_paramType _
  have hparse : parseSatoshiAmount u.value s!"utxos[{index}].value" true = .ok u.value :=
    parseSatoshiAmount_eq_ok.mpr ⟨rfl, hvalue.1, .inr rfl, hvalue.2⟩
  rcases bind_eq_error.mp h with hbad | ⟨_, -, h⟩
  · cases hparse.symm.trans hbad
  rcases bind_eq_error.mp h with hinput | ⟨input, -, hadd⟩
  · exact resolvedInput_refusal hreply hinput
  rcases bind_eq_error.mp hadd with hpsbt | ⟨_, -, hdone⟩
  · rcases bind_eq_error.mp hpsbt with hbad | ⟨_, -, hbad⟩
    · obtain ⟨-, rfl⟩ := ensure_eq_error.mp hbad
      exact not_fundingRefusal_of_plain rfl
    · rcases bind_eq_error.mp hbad with hdup | ⟨_, -, hdone⟩
      · obtain ⟨-, rfl⟩ := ensure_eq_error.mp hdup
        exact not_fundingRefusal_of_plain rfl
      · cases hdone
  · cases hdone

/-! ## Selection over free candidates -/

/-- The build may spend the outpoint: it has claimed it, or no one holds it. -/
def Spendable (plan : Plan) (clock : ℕ) (s : Reservations) (u : Utxo) : Prop :=
  plan.bound.firstReservedOutpoint = some (outpointKey u) ∨
    (s.isOutpointReserved (outpointKey u) clock).1 = false

/-- The value of a candidate is a satoshi amount. -/
def ValidValue (u : Utxo) : Prop := 0 ≤ u.value ∧ u.value ≤ maxSatoshiU64

theorem isOutpointReserved_claim {s : Reservations} {l : Ledger} {key key' : Outpoint}
    (hne : key' ≠ key) :
    ((s.claimOutpoint l key clock).2.isOutpointReserved key' clock).1 =
      (s.isOutpointReserved key' clock).1 := by
  rw [Bool.eq_iff_iff, isOutpointReserved_eq_true, isOutpointReserved_eq_true,
    show (s.claimOutpoint l key clock).2.outpointReservations key' = s.outpointReservations key' from
      Function.update_of_ne hne ..]

/-- A spendable candidate is not skipped, and the others stay spendable. -/
theorem skipReservedInput_spendable {s : Reservations} {l : Ledger}
    (hu : Spendable plan clock s u) :
    (skipReservedInput plan (outpointKey u) clock l s).1 = false ∧
      ∀ v, outpointKey v ≠ outpointKey u → Spendable plan clock s v →
        Spendable plan clock (skipReservedInput plan (outpointKey u) clock l s).2.2 v := by
  unfold skipReservedInput
  split_ifs with hahead
  · exact ⟨rfl, fun v _ hv => hv⟩
  · have hfree := hu.resolve_left (not_or.mp hahead).2
    dsimp only
    rw [hfree]
    refine ⟨rfl, fun v hne hv => hv.imp_right fun hv => ?_⟩
    exact (isOutpointReserved_claim hne).trans
      (((Sweeps.isOutpointReserved le_rfl (outpointKey u)).isOutpointReserved_eq _).trans hv)

/-- At the input limit valid candidates are refused for want of funds. -/
theorem cappedSelectionError_refusal {outputSatoshis : ℤ} {rest : List Utxo}
    (hvalid : ∀ u ∈ rest, ValidValue u) (s : Reservations) :
    IsFundingRefusal (cappedSelectionError enc plan outputSatoshis clock index rest acc s).1 := by
  have hnoerror : ∀ (us : List Utxo) (required available : ℤ) (index : ℕ) (s : Reservations),
      (∀ u ∈ us, ValidValue u) → ∀ e,
        (remainingCandidatesCanFund plan required clock index us available s).1 ≠ .error e := by
    intro us required
    induction us with
    | nil => exact fun _ _ _ _ _ h => by cases h
    | cons u us ih =>
      intro available index s hus e
      have hrest := fun v hv => hus v (List.mem_cons_of_mem u hv)
      have hu := hus u List.mem_cons_self
      have hparse : parseSatoshiAmount u.value s!"utxos[{index}].value" true = .ok u.value :=
        parseSatoshiAmount_eq_ok.mpr ⟨rfl, hu.1, .inr rfl, hu.2⟩
      simp only [remainingCandidatesCanFund, hparse]
      split_ifs
      all_goals first | exact ih _ _ _ hrest e | simp
  unfold cappedSelectionError
  dsimp only
  split <;> rename_i heq
  · exact absurd (congrArg Prod.fst heq) (hnoerror _ _ _ _ _ hvalid _)
  · exact .inr (.inr rfl)
  · exact .inr (.inl rfl)

/-- One spendable candidate within the limit: selection is extended by it. -/
theorem alone_selectStep {s : Reservations} {l : Ledger} (rest : List Utxo)
    (hcap : acc.selectedInputCount < maxUtxoCount) (hu : Spendable plan clock s u) :
    (∀ e, acc.extend enc plan emitted reply clock index u = .error e →
      ((selectStep enc plan emitted clock index u rest acc).alone reply clock s l).1 = .error e) ∧
    ∀ acc', acc.extend enc plan emitted reply clock index u = .ok acc' →
      (selectStep enc plan emitted clock index u rest acc).alone reply clock s l =
        (.ok (acc'.enough enc plan emitted, acc'),
          (skipReservedInput plan (outpointKey u) clock l s).2.2,
          (skipReservedInput plan (outpointKey u) clock l s).2.1) := by
  have hnocap : refuseCappedSelection enc plan emitted.outputSatoshis clock index (u :: rest) acc =
      .ret () := if_pos hcap
  rw [selectStep_eq, hnocap, alone_bind]
  simp only [alone_ret]
  rw [alone_bind, alone_ofExcept]
  unfold Selection.extend
  cases refuseUnsignableInput enc plan.prepared.encoding u with
  | error e => exact ⟨fun e' he' => by cases he'; rfl, fun acc' hacc' => by cases hacc'⟩
  | ok _ =>
    simp only [Coro.alone, (skipReservedInput_spendable (l := l) hu).1, Bool.false_eq_true, if_false]
    generalize (skipReservedInput plan (outpointKey u) clock l s).2.2 = s'
    generalize (skipReservedInput plan (outpointKey u) clock l s).2.1 = l'
    rw [alone_bind, alone_ofExcept]
    cases parseSatoshiAmount u.value s!"utxos[{index}].value" true with
    | error e => exact ⟨fun e' he' => by cases he'; rfl, fun acc' hacc' => by cases hacc'⟩
    | ok _ =>
      dsimp only
      rw [alone_bind, alone_quiet (quiet_selectedInput u _) s' Reservations.empty l' Ledger.empty]
      unfold resolvedInput
      cases ((selectedInput enc plan u (nestedP2wpkhRedeem enc.lib enc.network plan.request.pubkey
        plan.request.compressedPubKey u)).alone reply clock Reservations.empty Ledger.empty).1 with
      | error e => exact ⟨fun e' he' => by cases he'; rfl, fun acc' hacc' => by cases hacc'⟩
      | ok input =>
        dsimp only
        rw [alone_bind, alone_ofExcept]
        refine ⟨fun e he => ?_, fun acc' hacc' => ?_⟩
        · rw [show acc.add enc plan emitted u input _ = .error e from he]
        · rw [show acc.add enc plan emitted u input _ = .ok acc' from hacc']
          rfl

variable (enc emitted reply) in
/-- **Selection over spendable candidates is a walk.** -/
theorem walks_selectLoop (us : List Utxo) (s : Reservations) (l : Ledger) (index : ℕ)
    (acc : Selection) (hnodup : (us.map outpointKey).Nodup)
    (hfree : ∀ u ∈ us, Spendable plan clock s u) (hvalid : ∀ u ∈ us, ValidValue u) :
    Walks enc plan emitted reply clock index acc us
      ((selectLoop enc plan emitted clock index us acc).alone reply clock s l).1 := by
  induction us generalizing s l index acc with
  | nil => exact .exhausted index acc
  | cons u rest ih =>
    have hu := hfree u List.mem_cons_self
    rw [show selectLoop enc plan emitted clock index (u :: rest) acc =
      (selectStep enc plan emitted clock index u rest acc).bind fun r =>
        if r.1 then .ret r.2 else selectLoop enc plan emitted clock (index + 1) rest r.2 from rfl,
      alone_bind]
    rcases Nat.lt_or_ge acc.selectedInputCount maxUtxoCount with hcap | hcap
    · obtain ⟨hfailed, hadded⟩ := alone_selectStep (l := l) rest hcap hu
      cases hextend : acc.extend enc plan emitted reply clock index u with
      | error e =>
        have hr := hfailed e hextend
        cases hs : (selectStep enc plan emitted clock index u rest acc).alone reply clock s l with
        | mk r _ =>
          rw [hs] at hr
          obtain rfl : r = .error e := hr
          exact .failed index acc u rest e hcap hextend
      | ok acc' =>
        rw [hadded acc' hextend]
        cases henough : acc'.enough enc plan emitted with
        | true => exact .stopped index acc u rest acc' hcap hextend henough
        | false =>
          refine .next index acc u rest acc' _ hcap hextend henough (ih _ _ _ _ ?_ ?_ ?_)
          · exact (List.nodup_cons.mp hnodup).2
          · intro v hv
            refine (skipReservedInput_spendable hu).2 v (fun heq => ?_)
              (hfree v (List.mem_cons_of_mem u hv))
            exact (List.nodup_cons.mp hnodup).1 (heq ▸ List.mem_map_of_mem hv)
          · exact fun v hv => hvalid v (List.mem_cons_of_mem u hv)
    · have hstop : ((selectStep enc plan emitted clock index u rest acc).alone reply clock s l).1 =
          .error (cappedSelectionError enc plan emitted.outputSatoshis clock index (u :: rest) acc
            s).1 := by
        rw [selectStep_eq, alone_bind, show refuseCappedSelection enc plan emitted.outputSatoshis clock
          index (u :: rest) acc = .get fun s l => .put (cappedSelectionError enc plan
            emitted.outputSatoshis clock index (u :: rest) acc s).2 l (.throw (cappedSelectionError enc
              plan emitted.outputSatoshis clock index (u :: rest) acc s).1) from
          if_neg (Nat.not_lt.mpr hcap)]
        rfl
      cases hs : (selectStep enc plan emitted clock index u rest acc).alone reply clock s l with
      | mk r _ =>
        rw [hs] at hstop
        rw [show r = _ from hstop]
        exact .capped index acc u rest _ hcap (cappedSelectionError_refusal hvalid s)

end Walk

end XChain
