import Mathlib.Data.Char
import Mathlib.Data.List.Lex
import Mathlib.Data.Prod.Lex
import XChainEncoder.SelectionCoverage

/-!
# The order of candidates

Greedy selection sees its candidates in an order of their own, however they are supplied.

* `compareCandidates`: the comparator of the sort; `candidateLe_iff_key`: it orders by a key;
* `compareCandidates_strict`: **it is a strict total order on distinct outpoints**;
* `mem_compactUtxos`: deduplication keeps one row of each outpoint;
* `filterAndOrderUtxos_perm`: **the candidates do not depend on the order of supply**;
* `createTransaction_perm`: and so neither does any step of the build;
* `supplyOrder_irrelevant`: the two and the comparator's order as one statement.
-/

namespace XChain

open PushScript Coroutine

/-! ## The comparator -/

/-- The sign the sort reads: value descending, then lowercase txid and output index ascending. A
plain number and a `BigInt` compare by the integers they denote. -/
def compareCandidates (a b : Utxo) : ℤ :=
  if a.value < b.value then 1
  else if b.value < a.value then -1
  else if lower a.txid ≠ lower b.txid then (if lower a.txid < lower b.txid then -1 else 1)
  else (a.vout : ℤ) - b.vout

theorem candidateLe_iff {a b : Utxo} : candidateLe a b = true ↔ compareCandidates a b ≤ 0 := by
  unfold candidateLe compareCandidates
  rcases lt_trichotomy a.value b.value with hv | hv | hv
  · simp [hv, hv.ne, hv.not_gt]
  · by_cases ht : lower a.txid = lower b.txid
    · simp [hv, ht]
    · by_cases hlt : lower a.txid < lower b.txid <;> simp [hv, ht, hlt]
  · simp [hv, hv.ne', hv.not_gt]

/-- What the comparator compares. -/
def candidateKey (u : Utxo) : ℤᵒᵈ ×ₗ (List Char ×ₗ ℕ) :=
  toLex (OrderDual.toDual u.value, toLex (lower u.txid, u.vout))

theorem compareCandidates_lt_iff {a b : Utxo} :
    compareCandidates a b < 0 ↔ candidateKey a < candidateKey b := by
  simp only [candidateKey, Prod.Lex.toLex_lt_toLex, OrderDual.toDual_lt_toDual,
    OrderDual.toDual_inj, compareCandidates]
  rcases lt_trichotomy a.value b.value with hv | hv | hv
  · simp [hv, hv.ne, hv.not_gt]
  · by_cases ht : lower a.txid = lower b.txid
    · simp [hv, ht]
    · by_cases hlt : lower a.txid < lower b.txid <;> simp [hv, ht, hlt]
  · simp [hv, hv.not_gt]

theorem candidateLe_iff_key {a b : Utxo} :
    candidateLe a b = true ↔ candidateKey a ≤ candidateKey b := by
  rw [← not_lt, ← compareCandidates_lt_iff, candidateLe_iff]
  unfold compareCandidates
  rcases lt_trichotomy a.value b.value with hv | hv | hv
  · simp [hv, hv.not_gt]
  · by_cases ht : lower a.txid = lower b.txid
    · simp [hv, ht]
    · rcases lt_or_gt_of_ne ht with hlt | hlt <;> simp [hv, ht, Ne.symm ht, hlt, hlt.not_gt]
  · simp [hv, hv.not_gt]

instance : IsTrans Utxo fun a b => candidateLe a b = true := ⟨fun a b c hab hbc => by
  rw [candidateLe_iff_key] at *
  exact hab.trans hbc⟩

instance : Std.Total fun a b : Utxo => candidateLe a b = true := ⟨fun a b => by
  simp only [candidateLe_iff_key]
  exact le_total _ _⟩

theorem candidateKey_outpoint {a b : Utxo} (h : candidateKey a = candidateKey b) :
    outpointKey a = outpointKey b := by
  have h' := toLex_inj.mp (Prod.mk.inj (toLex_inj.mp h)).2
  obtain ⟨htxid, hvout⟩ := Prod.mk.inj h'
  exact congrArg₂ Outpoint.mk htxid hvout

/-- **The comparator is a strict total order on distinct outpoints.** -/
theorem compareCandidates_strict :
    (∀ a, ¬ compareCandidates a a < 0) ∧
    (∀ a b c, compareCandidates a b < 0 → compareCandidates b c < 0 → compareCandidates a c < 0) ∧
    ∀ a b, outpointKey a ≠ outpointKey b →
      (compareCandidates a b < 0 ∧ 0 < compareCandidates b a) ∨
      (compareCandidates b a < 0 ∧ 0 < compareCandidates a b) := by
  have hpos : ∀ a b, compareCandidates a b < 0 → 0 < compareCandidates b a := fun a b h => by
    have hle : ¬ candidateLe b a = true := by
      rw [candidateLe_iff_key, not_le]
      exact compareCandidates_lt_iff.mp h
    rw [candidateLe_iff] at hle
    omega
  refine ⟨fun a h => ?_, fun a b c hab hbc => ?_, fun a b hne => ?_⟩
  · exact lt_irrefl _ (compareCandidates_lt_iff.mp h)
  · rw [compareCandidates_lt_iff] at *
    exact hab.trans hbc
  · rcases lt_trichotomy (candidateKey a) (candidateKey b) with h | h | h
    · exact .inl ⟨compareCandidates_lt_iff.mpr h, hpos a b (compareCandidates_lt_iff.mpr h)⟩
    · exact absurd (candidateKey_outpoint h) hne
    · exact .inr ⟨compareCandidates_lt_iff.mpr h, hpos b a (compareCandidates_lt_iff.mpr h)⟩

/-! ## The candidates -/

/-- Rows of one outpoint are one row. -/
def SameRows (utxos : List Utxo) : Prop :=
  ∀ u ∈ utxos, ∀ v ∈ utxos, outpointKey u = outpointKey v → u = v

/-- Deduplication keeps the row of every outpoint not seen before, unless it drops mempool entries. -/
theorem mem_compactUtxos {unconfirmed : Bool} {utxos : List Utxo} {seen : List Outpoint}
    (h : SameRows utxos) {u : Utxo} : u ∈ compactUtxos unconfirmed utxos seen ↔
      u ∈ utxos ∧ (!unconfirmed && isUnconfirmedUtxo u) = false ∧ outpointKey u ∉ seen := by
  induction utxos generalizing seen with
  | nil => simp [compactUtxos]
  | cons v vs ih =>
    have hvs : SameRows vs := fun a ha b hb =>
      h a (List.mem_cons_of_mem v ha) b (List.mem_cons_of_mem v hb)
    -- Another row of the outpoint `v` is `v` itself.
    have hv : u ∈ vs → outpointKey u = outpointKey v → u = v := fun hu =>
      h u (List.mem_cons_of_mem v hu) v List.mem_cons_self
    simp only [compactUtxos]
    split_ifs with hdrop hseen
    · rw [ih hvs, List.mem_cons]
      constructor
      · rintro ⟨hu, hrest⟩
        exact ⟨.inr hu, hrest⟩
      · rintro ⟨rfl | hu, hkeep, hrest⟩
        · rw [hdrop] at hkeep
          cases hkeep
        · exact ⟨hu, hkeep, hrest⟩
    · rw [ih hvs, List.mem_cons]
      constructor
      · rintro ⟨hu, hrest⟩
        exact ⟨.inr hu, hrest⟩
      · rintro ⟨rfl | hu, hkeep, hrest⟩
        · exact absurd hseen hrest
        · exact ⟨hu, hkeep, hrest⟩
    · simp only [List.mem_cons, ih hvs]
      constructor
      · rintro (rfl | ⟨hu, hkeep, hrest⟩)
        · exact ⟨.inl rfl, Bool.eq_false_iff.mpr hdrop, hseen⟩
        · exact ⟨.inr hu, hkeep, fun hin => hrest (.inr hin)⟩
      · rintro ⟨rfl | hu, hkeep, hrest⟩
        · exact .inl rfl
        · by_cases hkey : outpointKey u = outpointKey v
          · exact .inl (hv hu hkey)
          · exact .inr ⟨hu, hkeep, by simp [hkey, hrest]⟩

theorem perm_compactUtxos (unconfirmed : Bool) {utxos utxos' : List Utxo} (h : SameRows utxos)
    (hperm : utxos.Perm utxos') :
    (compactUtxos unconfirmed utxos []).Perm (compactUtxos unconfirmed utxos' []) := by
  have h' : SameRows utxos' := fun u hu v hv =>
    h u (hperm.mem_iff.mpr hu) v (hperm.mem_iff.mpr hv)
  have hnodup : ∀ l, (compactUtxos unconfirmed l []).Nodup := fun l =>
    (nodup_compactUtxos unconfirmed l []).1.of_map _
  refine (List.perm_ext_iff_of_nodup (hnodup _) (hnodup _)).mpr fun u => ?_
  rw [mem_compactUtxos h, mem_compactUtxos h', hperm.mem_iff]

theorem insertionSort_candidates {l l' : List Utxo} (hnodup : (l.map outpointKey).Nodup)
    (hperm : l.Perm l') : l.insertionSort (fun a b => candidateLe a b = true) =
      l'.insertionSort fun a b => candidateLe a b = true := by
  refine List.Perm.eq_of_pairwise (fun a b ha hb hab hba => ?_) (List.pairwise_insertionSort _ l)
    (List.pairwise_insertionSort _ l') ?_
  · rw [List.mem_insertionSort] at ha hb
    rw [candidateLe_iff_key] at hab hba
    exact List.inj_on_of_nodup_map hnodup ha (hperm.mem_iff.mpr hb)
      (candidateKey_outpoint (le_antisymm hab hba))
  · exact ((List.perm_insertionSort _ l).trans hperm).trans (List.perm_insertionSort _ l').symm

/-- **Outside exact mode the candidates do not depend on the order of supply.** -/
theorem filterAndOrderUtxos_perm {request : TxRequest} {utxos utxos' : List Utxo}
    (hgreedy : request.exactInputs = false) (hrows : SameRows utxos) (hperm : utxos.Perm utxos') :
    filterAndOrderUtxos request utxos = filterAndOrderUtxos request utxos' := by
  have hcompact := perm_compactUtxos request.unconfirmed hrows hperm
  have hempty : (compactUtxos request.unconfirmed utxos [] ≠ []) =
      (compactUtxos request.unconfirmed utxos' [] ≠ []) := by
    rw [ne_eq, ne_eq, ← List.length_eq_zero_iff, ← List.length_eq_zero_iff, hcompact.length_eq]
  have hsort := insertionSort_candidates (nodup_compactUtxos request.unconfirmed utxos []).1 hcompact
  simp only [filterAndOrderUtxos, hgreedy, Bool.false_eq_true, if_false, hempty, hsort]

theorem filterAndOrderUtxos_sorted {request : TxRequest} {utxos candidates : List Utxo}
    (hgreedy : request.exactInputs = false)
    (h : filterAndOrderUtxos request utxos = .ok candidates) :
    candidates.Pairwise fun a b => compareCandidates a b < 0 := by
  unfold filterAndOrderUtxos at h
  obtain ⟨-, -, h⟩ := bind_eq_ok.mp h
  rw [if_neg (by simp [hgreedy])] at h
  cases h
  -- Sorted by the comparator, and no outpoint twice: so never equal under it.
  have hsorted := List.pairwise_insertionSort (fun a b => candidateLe a b = true)
    (compactUtxos request.unconfirmed utxos [])
  have hdistinct := ((List.perm_insertionSort (fun a b => candidateLe a b = true)
    (compactUtxos request.unconfirmed utxos [])).map outpointKey).nodup_iff.mpr
      (nodup_compactUtxos request.unconfirmed utxos []).1
  rw [List.Nodup, List.pairwise_map] at hdistinct
  refine (hsorted.and hdistinct).imp fun {a b} hab => ?_
  rw [compareCandidates_lt_iff]
  exact lt_of_le_of_ne (candidateLe_iff_key.mp hab.1) fun heq => hab.2 (candidateKey_outpoint heq)

/-! ## The build -/

/-- The request with another candidate list. -/
def TxRequest.supplied (request : TxRequest) (utxos : List Utxo) : TxRequest :=
  { request with utxos }

/-- A plan records its request, but nothing after the gathering reads the supplied rows. -/
def Plan.supplied (plan : Plan) (utxos : List Utxo) : Plan :=
  { plan with request := plan.request.supplied utxos }

def Built.supplied (b : Built) (utxos : List Utxo) : Built :=
  { b with plan := b.plan.supplied utxos }

variable (enc : Encoder) (request : TxRequest) (plan : Plan) {utxos utxos' : List Utxo}

theorem prepareBuild_perm (hgreedy : request.exactInputs = false) (hrows : SameRows utxos)
    (hperm : utxos.Perm utxos') :
    prepareBuild enc (request.supplied utxos) = prepareBuild enc (request.supplied utxos') := by
  by_cases hne : utxos = []
  · subst hne
    rw [hperm.nil_eq]
  · have hne' : utxos' ≠ [] := fun h => hne (List.perm_nil.mp (h ▸ hperm))
    have hgather : ∀ l, l ≠ [] →
        gatherUtxos enc (request.supplied l) = Coro.ret ⟨l, false⟩ := fun l hl => by
      unfold gatherUtxos
      exact if_pos hl
    have hexact : ∀ l m, refuseShrunkExactInputs (request.supplied l) m = .ok () := fun l m => by
      unfold refuseShrunkExactInputs
      exact if_neg (by simp [TxRequest.supplied, hgreedy])
    have hcheck : ∀ l, checkExactInputs (request.supplied l) = .ok () := fun l => by
      unfold checkExactInputs
      exact if_neg (by simp [TxRequest.supplied, hgreedy])
    have horder : filterAndOrderUtxos (request.supplied utxos) utxos =
        filterAndOrderUtxos (request.supplied utxos') utxos' :=
      filterAndOrderUtxos_perm hgreedy hrows hperm
    simp only [prepareBuild, hgather _ hne, hgather _ hne', hexact, hcheck, Coro.bind_eq, Coro.bind,
      horder]
    rfl

theorem remainingCandidatesCanFund_supplied (required : ℤ) (now : ℕ) (us : List Utxo) :
    ∀ index available s,
      remainingCandidatesCanFund (plan.supplied utxos) required now index us available s =
        remainingCandidatesCanFund plan required now index us available s := by
  induction us with
  | nil => exact fun _ _ _ => rfl
  | cons u us ih =>
    intro index available s
    simp only [remainingCandidatesCanFund, ih]
    rfl

theorem selectStep_supplied (emitted : Emitted) (now index : ℕ) (u : Utxo) (rest : List Utxo)
    (acc : Selection) : selectStep enc (plan.supplied utxos) emitted now index u rest acc =
      selectStep enc plan emitted now index u rest acc := by
  simp only [selectStep, refuseCappedSelection, cappedSelectionError,
    remainingCandidatesCanFund_supplied]
  rfl

theorem selectLoop_supplied (emitted : Emitted) (now : ℕ) (us : List Utxo) : ∀ index acc,
    selectLoop enc (plan.supplied utxos) emitted now index us acc =
      selectLoop enc plan emitted now index us acc := by
  induction us with
  | nil => exact fun _ _ => rfl
  | cons u us ih =>
    intro index acc
    simp only [selectLoop, selectStep_supplied, ih]

theorem selectFundingInputs_supplied (emitted : Emitted) (acc : Selection) :
    selectFundingInputs enc (plan.supplied utxos) emitted acc =
      selectFundingInputs enc plan emitted acc := by
  simp only [selectFundingInputs, selectInputs, selectLoop_supplied]
  rfl

theorem emitDataOutputs_supplied (price : RevealOutputsPrice) (chunks : List Bytes) : ∀ e,
    emitDataOutputs enc (plan.supplied utxos) price chunks e =
      emitDataOutputs enc plan price chunks e := by
  induction chunks with
  | nil => exact fun _ => rfl
  | cons chunk chunks ih =>
    intro e
    simp only [emitDataOutputs, ih]
    rfl

theorem emitOutputs_supplied : emitOutputs enc (plan.supplied utxos) = emitOutputs enc plan := by
  simp only [emitOutputs, emitDataOutputs_supplied]
  rfl

theorem settleBuild_supplied (price : RevealOutputsPrice) (emitted : Emitted) (sel : Selection) :
    settleBuild enc (plan.supplied utxos) price emitted sel =
      (settleBuild enc plan price emitted sel).bind fun b => .ret (b.supplied utxos) := by
  have hchange : ∀ up, settleChange enc (plan.supplied utxos) emitted sel up =
      settleChange enc plan emitted sel up := fun up => by with_unfolding_all rfl
  have huplift : upliftForAncestors enc (plan.supplied utxos) emitted sel =
      upliftForAncestors enc plan emitted sel := by with_unfolding_all rfl
  have hsweep : ∀ fee psbt, sweepP2shReveal enc (plan.supplied utxos) emitted fee psbt =
      sweepP2shReveal enc plan emitted fee psbt := fun fee psbt => by with_unfolding_all rfl
  simp only [settleBuild, Coro.bind_eq, Coro.bind_bind, hchange, huplift, hsweep]
  rfl

theorem buildFromBound_supplied (pre : Prepared) (bound : Bound) :
    buildFromBound enc (request.supplied utxos) pre bound =
      (buildFromBound enc request pre bound).bind fun b => .ret (b.supplied utxos) := by
  have hplan : planBuild enc (request.supplied utxos) pre bound =
      (planBuild enc request pre bound).map (Plan.supplied · utxos) := by
    unfold planBuild
    dsimp only [TxRequest.supplied]
    cases prepareDataChunks enc (classifyPayload pre.compiled.dataBuffer pre.input.rawData).hasActionPayload
      pre.compiled.finalDataBuffer pre.encoding request.pubkey request.compressedPubKey <;> rfl
  unfold buildFromBound
  rw [hplan]
  cases planBuild enc request pre bound with
  | error e => rfl
  | ok plan =>
    simp only [Except.map, Coro.ofExcept, Coro.bind_eq, Coro.bind, Coro.bind_bind,
      emitOutputs_supplied, selectFundingInputs_supplied, settleBuild_supplied]
    rfl

theorem finishBuild_supplied (b : Built) : finishBuild enc (b.supplied utxos) =
    (finishBuild enc b).bind fun b => .ret (b.supplied utxos) := by
  simp only [finishBuild, Coro.bind_eq, Coro.bind_bind]
  have hpsbt : (b.supplied utxos).psbt = b.psbt := rfl
  rw [hpsbt]
  refine congrArg _ (funext fun now => congrArg _ (funext fun sl => congrArg _ (funext fun _ =>
    congrArg _ (funext fun txid => ?_))))
  rcases sl.1.refuseDuplicateBuild txid now with ⟨_ | _, s⟩ <;> rfl

/-- The steps of a build whose request the result has lost sight of. -/
theorem buildSteps_supplied : buildSteps enc (request.supplied utxos) =
    ((prepareBuild enc (request.supplied utxos)).bind fun pre =>
      (bindObfuscationKey request.exactInputs pre.candidates).bind fun bound =>
        (buildFromBound enc request pre bound).bind (finishBuild enc)).bind
          fun b => .ret (b.supplied utxos) := by
  simp only [buildSteps, Coro.bind_eq, Coro.bind_bind, buildFromBound_supplied, Coro.bind,
    finishBuild_supplied]
  rfl

/-- **Outside exact mode a build does not depend on the order of supply.** -/
theorem createTransaction_perm (hgreedy : request.exactInputs = false) (hrows : SameRows utxos)
    (hperm : utxos.Perm utxos') : createTransaction enc (request.supplied utxos) =
      createTransaction enc (request.supplied utxos') := by
  have hresult : ∀ l, createTransaction enc (request.supplied l) =
      (Coro.tryCatch (((prepareBuild enc (request.supplied l)).bind fun pre =>
        (bindObfuscationKey request.exactInputs pre.candidates).bind fun bound =>
          (buildFromBound enc request pre bound).bind (finishBuild enc)).bind fun b =>
            yieldTick.bind fun _ => .ret b) releaseAndRethrow).bind fun b =>
        mintReceipt.bind fun receipt => .ret { b.result with reservation := receipt } := fun l => by
    have hcatch := Coro.tryCatch_bind_ret (f := (Built.supplied · l))
      (c := ((prepareBuild enc (request.supplied l)).bind fun pre =>
        (bindObfuscationKey request.exactInputs pre.candidates).bind fun bound =>
          (buildFromBound enc request pre bound).bind (finishBuild enc)).bind fun b =>
            yieldTick.bind fun _ => .ret b)
      (show ∀ e, releaseAndRethrow e =
        (releaseAndRethrow e).bind fun b : Built => .ret (b.supplied l) from fun e => rfl)
    simp only [Coro.bind_bind, Coro.bind] at hcatch
    simp only [createTransaction, buildSteps_supplied, Coro.bind_eq, Coro.pure_eq, Coro.bind_bind,
      Coro.bind, hcatch]
    rfl
  rw [hresult, hresult, prepareBuild_perm enc request hgreedy hrows hperm]

/-! ## The order of supply -/

/-- A request whose order of inputs is the caller's. -/
def coinControl : TxRequest := { softDustPayment with exactInputs := true }

/-- In exact-input mode the order of supply is kept. -/
theorem coinControl_ordered : SameRows coinControl.utxos ∧
    coinControl.utxos.Perm coinControl.utxos.reverse ∧
    filterAndOrderUtxos coinControl coinControl.utxos ≠
      filterAndOrderUtxos coinControl coinControl.utxos.reverse := by
  have hfacts : (∀ u ∈ coinControl.utxos, ∀ v ∈ coinControl.utxos,
        outpointKey u = outpointKey v → u = v) ∧
      (filterAndOrderUtxos coinControl coinControl.utxos).toOption ≠
        (filterAndOrderUtxos coinControl coinControl.utxos.reverse).toOption := by
    decide +kernel
  exact ⟨hfacts.1, (List.reverse_perm _).symm, fun h => hfacts.2 (congrArg Except.toOption h)⟩

/-- **Outside exact mode the order of supply changes nothing.** -/
theorem supplyOrder_irrelevant (hgreedy : request.exactInputs = false) (hrows : SameRows utxos)
    (hperm : utxos.Perm utxos') :
    ((∀ a, ¬ compareCandidates a a < 0) ∧
      (∀ a b c, compareCandidates a b < 0 → compareCandidates b c < 0 → compareCandidates a c < 0) ∧
      ∀ a b, outpointKey a ≠ outpointKey b →
        (compareCandidates a b < 0 ∧ 0 < compareCandidates b a) ∨
        (compareCandidates b a < 0 ∧ 0 < compareCandidates a b)) ∧
    filterAndOrderUtxos request utxos = filterAndOrderUtxos request utxos' ∧
    (∀ candidates, filterAndOrderUtxos request utxos = .ok candidates →
      candidates.Pairwise fun a b => compareCandidates a b < 0) ∧
    createTransaction enc (request.supplied utxos) = createTransaction enc (request.supplied utxos') :=
  ⟨compareCandidates_strict, filterAndOrderUtxos_perm hgreedy hrows hperm,
    fun _ h => filterAndOrderUtxos_sorted hgreedy h,
    createTransaction_perm enc request hgreedy hrows hperm⟩

theorem supplyOrder_irrelevant_payment :
    filterAndOrderUtxos softDustPayment softDustPayment.utxos =
      filterAndOrderUtxos softDustPayment softDustPayment.utxos.reverse ∧
    createTransaction dogeEncoder (softDustPayment.supplied softDustPayment.utxos) =
      createTransaction dogeEncoder (softDustPayment.supplied softDustPayment.utxos.reverse) := by
  have hrows : SameRows softDustPayment.utxos := by
    unfold SameRows
    decide +kernel
  have h := supplyOrder_irrelevant dogeEncoder softDustPayment rfl hrows (List.reverse_perm _).symm
  exact ⟨h.2.1, h.2.2.2⟩

end XChain
