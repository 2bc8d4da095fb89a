import XChainEncoder.ExactInputs
import XChainEncoder.KeyRefusals
import XChainEncoder.ReservedInputs
import XChainEncoder.ValueConservation

/-!
# Bound keys

The key that a payload is obfuscated under is bound before selection.

* `bindAt`: what binding does at one reading; `bindAt_first`: what it claims first is the first
  candidate, and its txid is the key;
* `FirstClaimed`, `always_selectInputs`: **selection puts that outpoint first**;
* `CarriedBy`, `returns_emitOutputs_carried`: data outputs are obfuscated under the bound key;
* `MarkedBy`, `returns_emitOutputs_marked`: a reveal's marker under its funding transaction.
-/

namespace XChain

open PushScript Coroutine

variable {enc : Encoder} {plan : Plan} {emitted : Emitted} {request : TxRequest}

/-! ## Binding -/

/-- What binding makes of one reading of clock and state. -/
def bindAt (exactInputs : Bool) (utxos : List Utxo) (now : ℕ) (l : Ledger) (s : Reservations) :
    Except BuildError Bound × Ledger × Reservations :=
  if exactInputs then
    ((claimExactInputs now utxos l s).1.map fun _ =>
        ⟨utxos, none, utxos.head?.map fun u => lower u.txid⟩,
      (claimExactInputs now utxos l s).2)
  else (.ok (claimFirstFreeInput now utxos l s).1, (claimFirstFreeInput now utxos l s).2)

theorem bindObfuscationKey_eq {exactInputs : Bool} {utxos : List Utxo} (hne : utxos ≠ []) :
    bindObfuscationKey exactInputs utxos = .now fun t => .get fun s l =>
      .put (bindAt exactInputs utxos t l s).2.2 (bindAt exactInputs utxos t l s).2.1
        (Coro.ofExcept (bindAt exactInputs utxos t l s).1) := by
  cases exactInputs with
  | true =>
    rw [bindObfuscationKey_exact hne]
    refine congrArg Coro.now (funext fun t => congrArg Coro.get (funext fun s => funext fun l => ?_))
    show Coro.put _ _ _ = Coro.put _ _ _
    refine congrArg (Coro.put _ _) ?_
    simp only [bindAt, if_true]
    cases (claimExactInputs t utxos l s).1 <;> rfl
  | false => exact bindObfuscationKey_greedy hne

/-- The first candidate is claimed ahead: selection will not skip it. -/
structure FirstClaimed (exactInputs : Bool) (bound : Bound) (key : Outpoint) : Prop where
  first : ∃ u others, bound.utxos = u :: others ∧ outpointKey u = key
  ahead : exactInputs = true ∨ bound.firstReservedOutpoint = some key
  txid : bound.txidFirstInput = some key.txid

theorem claimAll_claims (now : ℕ) (us : List Utxo) (l : Ledger) (s : Reservations) :
    (claimAll now us l s).1.claims.map Claim.key = l.claims.map Claim.key ++ us.map outpointKey := by
  induction us generalizing l s with
  | nil => exact (List.append_nil _).symm
  | cons u us ih =>
    rw [claimAll, ih]
    simp [Reservations.claimOutpoint, Reservations.reserveOutpoint]

theorem claimExactInputs_claims {now : ℕ} {utxos : List Utxo} {l : Ledger} {s : Reservations}
    (h : (claimExactInputs now utxos l s).1 = .ok ()) :
    (claimExactInputs now utxos l s).2.1.claims.map Claim.key =
      l.claims.map Claim.key ++ utxos.map outpointKey := by
  unfold claimExactInputs at h ⊢
  dsimp only at h ⊢
  split_ifs at h ⊢
  exact claimAll_claims ..

/-- Greedy binding claims nothing, or the candidate that it moves to the front. -/
theorem claimFirstFreeInput_claims (now : ℕ) (utxos : List Utxo) (l : Ledger) (s : Reservations) :
    (claimFirstFreeInput now utxos l s).2.1 = l ∨
      ∃ u others, (claimFirstFreeInput now utxos l s).1 =
          ⟨u :: others, some (outpointKey u), some (lower u.txid)⟩ ∧
        (claimFirstFreeInput now utxos l s).2.1.claims.map Claim.key =
          l.claims.map Claim.key ++ [outpointKey u] := by
  unfold claimFirstFreeInput
  dsimp only
  generalize findFreeInput now [] utxos (s.evictExpiredReservations now) = found
  obtain ⟨_ | ⟨u, others⟩, s'⟩ := found
  · exact .inl rfl
  · refine .inr ⟨u, others, rfl, ?_⟩
    simp [Reservations.claimOutpoint, Reservations.reserveOutpoint]

/-- **What binding claims first is the first candidate, and its txid is the key.** -/
theorem bindAt_first {exactInputs : Bool} {utxos : List Utxo} {now : ℕ} {l : Ledger}
    {s : Reservations} {bound : Bound} (h : (bindAt exactInputs utxos now l s).1 = .ok bound)
    {key : Outpoint} {more : List Outpoint}
    (hclaimed : (bindAt exactInputs utxos now l s).2.1.claims.map Claim.key =
      l.claims.map Claim.key ++ key :: more) : FirstClaimed exactInputs bound key := by
  unfold bindAt at h hclaimed
  cases exactInputs with
  | true =>
    simp only [if_true] at h hclaimed
    cases hr : (claimExactInputs now utxos l s).1 with
    | error e =>
      rw [hr] at h
      cases h
    | ok _ =>
      rw [hr] at h
      cases h
      rw [claimExactInputs_claims hr, List.append_cancel_left_eq] at hclaimed
      cases utxos with
      | nil => cases hclaimed
      | cons u others =>
        rw [List.map_cons, List.cons.injEq] at hclaimed
        exact ⟨⟨u, others, rfl, hclaimed.1⟩, .inl rfl, by rw [← hclaimed.1]; rfl⟩
  | false =>
    simp only [Bool.false_eq_true, if_false] at h hclaimed
    cases h
    rcases claimFirstFreeInput_claims now utxos l s with hnone | ⟨u, others, hbound, hmap⟩
    · rw [hnone] at hclaimed
      have hlength := congrArg List.length hclaimed
      rw [List.length_append, List.length_cons] at hlength
      omega
    · rw [hmap, List.append_cancel_left_eq, List.cons.injEq] at hclaimed
      rw [hbound, ← hclaimed.1]
      exact ⟨⟨u, others, rfl, rfl⟩, .inr rfl, rfl⟩

/-! ## Selection -/

theorem returns_selectStep_ahead {u : Utxo}
    (hahead : plan.request.exactInputs = true ∨ plan.bound.firstReservedOutpoint = some (outpointKey u))
    {now index : ℕ} {rest : List Utxo} {acc : Selection} :
    Returns (fun r => r.2.psbt.outpoints = acc.psbt.outpoints ++ [outpointKey u])
      (selectStep enc plan emitted now index u rest acc) := by
  rw [selectStep_eq]
  refine .bind_right fun _ => .bind_right fun _ => ?_
  intro s l
  have hskip : (skipReservedInput plan (outpointKey u) now l s).1 = false := by
    unfold skipReservedInput
    rw [if_pos hahead]
  show Returns _ (if _ then _ else _)
  rw [if_neg (by simp [hskip])]
  refine .bind_right fun _ => .bind (returns_selectedInput u _) fun input hinput => ?_
  refine .bind (returns_ofExcept fun _ h => h) fun acc' hacc => ?_
  show acc'.psbt.outpoints = _
  rw [outpoints_add hacc, hinput.1, hinput.2]
  rfl

theorem head_invariant (key : Outpoint) : SelectionInvariant enc plan emitted
    fun sel => sel.psbt.outpoints.head? = some key where
  skip _ h := h
  add u acc acc' _ h hadds := by
    obtain ⟨input, -, hadd⟩ := hadds.input
    rw [outpoints_add hadd, List.head?_append, h]
    rfl

theorem always_selectLoop (now : ℕ) (us : List Utxo) (index : ℕ) (acc : Selection) :
    Always (fun _ => True) NotRace (selectLoop enc plan emitted now index us acc) := by
  induction us generalizing index acc with
  | nil => trivial
  | cons u rest ih =>
    refine always_notRace_bind (always_selectStep now index u rest acc) fun r => ?_
    obtain ⟨done, acc'⟩ := r
    cases done with
    | true => trivial
    | false => exact ih (index + 1) acc'

/-- **Selection puts the claimed candidate first.** -/
theorem always_selectInputs {key : Outpoint}
    (hfirst : FirstClaimed plan.request.exactInputs plan.bound key) {start : Selection}
    (hstart : start.psbt.outpoints = []) :
    Always (fun sel => sel.psbt.outpoints.head? = some key) NotRace
      (selectInputs enc plan emitted start) := by
  obtain ⟨u, others, hutxos, rfl⟩ := hfirst.first
  rw [selectInputs_eq]
  intro t s l
  have hhead : Returns (fun sel => sel.psbt.outpoints.head? = some (outpointKey u))
      (selectLoop enc plan emitted t 0 plan.bound.utxos start) := by
    rw [hutxos]
    refine .bind (returns_selectStep_ahead hfirst.ahead) fun r hr => ?_
    obtain ⟨done, acc'⟩ := r
    have hacc : acc'.psbt.outpoints.head? = some (outpointKey u) := by
      rw [show acc'.psbt.outpoints = _ from hr, hstart]
      rfl
    cases done with
    | true => exact hacc
    | false =>
      refine returns_selectLoop (head_invariant _) others 1 (fun v hv => ?_) hacc
      rw [hutxos]
      exact List.mem_cons_of_mem u hv
  exact always_mono (fun _ h => h.1) (fun _ h => h.2)
    (always_and hhead (always_selectLoop t plan.bound.utxos 0 start))

/-! ## Obfuscated outputs -/

/-- The scripts of the outputs, in order. -/
def Psbt.scripts (psbt : Psbt) : List Bytes := psbt.outputs.map TxOut.script

def Emission.scripts (e : Emission) : List Bytes := (e.psbt.map Psbt.scripts).getD []

theorem Extends.scripts {psbt psbt' : Psbt} (h : Extends psbt psbt') :
    psbt.scripts <+: psbt'.scripts :=
  h.outputs.map TxOut.script

theorem scripts_addOutput {psbt psbt' : Psbt} {script : Bytes} {value : ℤ} {plainNumber : Bool}
    (h : psbt.addOutput script value plainNumber = .ok psbt') :
    psbt'.scripts = psbt.scripts ++ [script] := by
  obtain ⟨-, -, rfl⟩ := Psbt.addOutput_eq_ok.mp h
  simp [Psbt.scripts]

/-- The output script of one buffer of an obfuscated carrier. -/
def carrierScript (L : Library) (encoding : Encoding) (compressedPubKey : Option Bytes)
    (txidFirstInput : Text) (chunk : Bytes) : Option Bytes :=
  if encoding = .multisign then
    compressedPubKey.bind fun key => multisignScript L chunk txidFirstInput key
  else opReturnScript L chunk txidFirstInput

/-- The scripts of the buffers, under a key that may be missing. -/
def carrierScripts (enc : Encoder) (plan : Plan) (key : Option Text) (chunks : List Bytes) :
    Option (List Bytes) :=
  chunks.mapM fun chunk => key.bind fun txid =>
    carrierScript enc.lib plan.prepared.encoding plan.request.compressedPubKey txid chunk

/-- The buffers have become outputs, and the key stays. -/
structure Carries (enc : Encoder) (plan : Plan) (chunks : List Bytes) (e e' : Emission) : Prop where
  key : e'.txidFirstInput = e.txidFirstInput
  scripts : ∃ scripts, carrierScripts enc plan e.txidFirstInput chunks = some scripts ∧
    e'.scripts = e.scripts ++ scripts

theorem returns_awaitObfuscate (data : Bytes) (key : Option Text) :
    Returns (fun out => key.bind (obfuscate enc.lib data) = some out)
      (awaitObfuscate enc data key) := by
  refine .bind_right fun _ => ?_
  cases h : key.bind (obfuscate enc.lib data) with
  | none => trivial
  | some out => rfl

theorem emitDataOutput_scripts {e e' : Emission} {script : Bytes} {value : ℤ} {size : ℕ}
    (h : emitDataOutput e script value size = .ok e') :
    e'.txidFirstInput = e.txidFirstInput ∧ e'.scripts = e.scripts ++ [script] := by
  simp only [emitDataOutput, bind_eq_ok, requirePsbt_eq_ok] at h
  obtain ⟨psbt, hp, psbt', ho, he⟩ := h
  cases he
  refine ⟨rfl, ?_⟩
  simp only [Emission.scripts, hp, Option.map_some, Option.getD_some]
  exact scripts_addOutput ho

/-- A chunk of a plain carrier is obfuscated under the key of the emission. -/
theorem returns_emitChunk_carried {price : RevealOutputsPrice}
    (hplain : plan.prepared.encoding = .opReturn ∨ plan.prepared.encoding = .multisign)
    (e : Emission) (chunk : Bytes) :
    Returns (Carries enc plan [chunk] e) (emitChunk enc plan price e chunk) := by
  have hone : ∀ {e' : Emission} {script : Bytes} {value : ℤ} {size : ℕ},
      (e.txidFirstInput.bind fun txid => carrierScript enc.lib plan.prepared.encoding
        plan.request.compressedPubKey txid chunk) = some script →
      emitDataOutput e script value size = .ok e' → Carries enc plan [chunk] e e' := by
    intro e' script value size hscript ho
    obtain ⟨hkey, hscripts⟩ := emitDataOutput_scripts ho
    refine ⟨hkey, [script], ?_, hscripts⟩
    simp [carrierScripts, hscript]
  unfold emitChunk
  rcases hplain with henc | henc
  · rw [henc]
    refine .bind (returns_awaitObfuscate chunk e.txidFirstInput) fun data hdata => ?_
    refine returns_ofExcept fun e' ho => hone ?_ ho
    obtain ⟨txid, hkey, hdata⟩ := Option.bind_eq_some_iff.mp hdata
    simp [hkey, henc, carrierScript, opReturnScript, hdata]
  · rw [henc]
    refine .bind (returns_awaitObfuscate chunk e.txidFirstInput) fun data hdata => ?_
    refine .bind_right fun _ => .bind_right fun _ => returns_ofExcept fun e' ho => ?_
    obtain ⟨txid, hkey, hdata⟩ := Option.bind_eq_some_iff.mp hdata
    unfold emitMultisignOutput at ho
    split at ho
    · cases ho
    · rename_i key hcompressed
      split at ho
      · cases ho
      · rename_i script hscript
        refine hone ?_ ho
        simp [hkey, henc, carrierScript, multisignScript, hcompressed, hdata, hscript]

theorem returns_emitDataOutputs_carried {price : RevealOutputsPrice}
    (hplain : plan.prepared.encoding = .opReturn ∨ plan.prepared.encoding = .multisign)
    (chunks : List Bytes) (e : Emission) :
    Returns (Carries enc plan chunks e) (emitDataOutputs enc plan price chunks e) := by
  induction chunks generalizing e with
  | nil => exact ⟨rfl, [], rfl, (List.append_nil _).symm⟩
  | cons chunk rest ih =>
    refine .bind (returns_emitChunk_carried hplain e chunk) fun e' he' => ?_
    refine always_mono (fun e'' he'' => ?_) (fun _ h => h) (ih e')
    obtain ⟨scripts, hscripts, happ⟩ := he'.scripts
    obtain ⟨scripts', hscripts', happ'⟩ := he''.scripts
    rw [he'.key] at hscripts'
    refine ⟨he''.key.trans he'.key, scripts ++ scripts', ?_, ?_⟩
    · have hsplit : chunk :: rest = [chunk] ++ rest := rfl
      rw [hsplit, carrierScripts, List.mapM_append]
      rw [carrierScripts] at hscripts hscripts'
      rw [hscripts, hscripts']
      rfl
    · rw [happ', happ, List.append_assoc]

/-- What a plain carrier has emitted: its buffers under the bound key, then payments. -/
structure CarriedBy (enc : Encoder) (plan : Plan) (emitted : Emitted) : Prop where
  funding : plan.isReveal = false
  key : emitted.emission.txidFirstInput = plan.bound.txidFirstInput
  scripts : ∃ scripts, carrierScripts enc plan plan.bound.txidFirstInput
    plan.prepared.dataBufferArray = some scripts ∧ scripts <+: emitted.psbt.scripts

theorem emitCustomOutputs_scripts {e : Emission} (h : emitCustomOutputs enc plan e = .ok emitted) :
    emitted.emission = e ∧ e.psbt ≠ none ∧ e.scripts <+: emitted.psbt.scripts := by
  simp only [emitCustomOutputs, bind_eq_ok, requirePsbt_eq_ok] at h
  obtain ⟨psbt, hp, acc, hacc, heq⟩ := h
  cases heq
  refine ⟨rfl, by simp [hp], ?_⟩
  simp only [Emission.scripts, hp, Option.map_some, Option.getD_some]
  exact (extends_emitPayments _ _ _ _ hacc).scripts

theorem scripts_start (price : RevealOutputsPrice) : (Emission.start plan price).scripts = [] := by
  unfold Emission.start Emission.scripts
  cases plan.isReveal <;> rfl

/-- **A plain carrier is obfuscated under the bound key.** -/
theorem returns_emitOutputs_carried
    (hplain : plan.prepared.encoding = .opReturn ∨ plan.prepared.encoding = .multisign) :
    Returns (fun r => CarriedBy enc plan r.2) (emitOutputs enc plan) := by
  refine .bind_right fun price => ?_
  refine .bind (always_mono (fun _ h => h) (fun _ _ => trivial)
    (always_and (returns_emitDataOutputs_carried hplain _ _)
      (returns_emitDataOutputs price _ (emitting_start price)))) fun e he => ?_
  refine .bind (returns_ofExcept fun _ h => emitCustomOutputs_scripts h) fun emitted hemitted => ?_
  obtain ⟨scripts, hscripts, happ⟩ := he.1.scripts
  rw [scripts_start, List.nil_append] at happ
  have hfamily : plan.isP2shFamily = false := by
    rcases hplain with henc | henc <;> simp [Plan.isP2shFamily, henc]
  refine ⟨?_, hemitted.1 ▸ he.1.key, scripts, hscripts, happ ▸ hemitted.2.2⟩
  -- A reveal of a plain carrier has no transaction to add outputs to.
  by_contra hreveal
  rw [Bool.not_eq_false] at hreveal
  exact hemitted.2.1 (he.2.noPsbt hreveal (.inl hfamily))

/-! ## Markers -/

/-- The marker of a script-hash reveal. -/
def revealMarker (encoding : Encoding) : Bytes :=
  if encoding = .p2sh then p2shMarker else p2wshMarker

/-- What a reveal has emitted once its first leg is spent: the marker under the id of the funding
transaction. -/
structure Revealing (enc : Encoder) (plan : Plan) (hash : Text) (tx : ParsedTx) (e : Emission) :
    Prop where
  parsed : ∃ hex, plan.request.p2shHex = some hex ∧ enc.lib.transactionFromHex hex = some tx
  named : lower hash = lower tx.id
  loaded : e.p2shTx = some tx
  marker : e.psbt ≠ none → ∃ data, obfuscate enc.lib (revealMarker plan.prepared.encoding) tx.id =
    some data ∧ e.scripts = [embedScript data]
  key : e.txidFirstInput = some tx.id

/-- Nothing is emitted, or the funding transaction has been read. -/
def RevealState (enc : Encoder) (plan : Plan) (hash : Text) (e : Emission) : Prop :=
  e.psbt = none ∧ e.p2shTx = none ∨ ∃ tx, Revealing enc plan hash tx e

theorem loadFundingTx_revealing {hash : Text} (hhash : plan.request.p2shHash = some hash)
    {e e' : Emission} (he : RevealState enc plan hash e) (h : loadFundingTx enc plan e = .ok e')
    (htx : e'.p2shTx ≠ none) : ∃ tx, Revealing enc plan hash tx e' := by
  unfold loadFundingTx at h
  split at h
  · rename_i hex hhex hnone
    split at h
    · cases h
    · rename_i tx hparsed
      obtain ⟨_, hmatch, heq⟩ := bind_eq_ok.mp h
      cases heq
      have hnamed : lower hash = lower tx.id := by
        rw [hhash, Option.getD_some] at hmatch
        simpa [assertRevealFundingTxMatches] using hmatch
      rcases he with ⟨hpsbt, -⟩ | ⟨tx', h'⟩
      · exact ⟨tx, ⟨hex, hhex, hparsed⟩, hnamed, rfl, fun hp => absurd hpsbt hp, rfl⟩
      · cases hnone.symm.trans h'.loaded
  · cases h
    rcases he with ⟨-, hnone⟩ | h'
    · exact absurd hnone htx
    · exact h'

theorem returns_startReveal_marker {hash : Text} {tx : ParsedTx} {e : Emission} {marker : Bytes}
    (hmarker : revealMarker plan.prepared.encoding = marker) (he : Revealing enc plan hash tx e) :
    Returns (fun r => ∃ data, obfuscate enc.lib marker tx.id = some data ∧
      r.1.scripts = [embedScript data]) (startReveal enc marker e) := by
  unfold startReveal
  cases hp : e.psbt with
  | some psbt =>
    obtain ⟨data, hdata, hscripts⟩ := he.marker (by simp [hp])
    rw [hmarker] at hdata
    simp only [Emission.scripts, hp, Option.map_some, Option.getD_some] at hscripts
    exact ⟨data, hdata, hscripts⟩
  | none =>
    refine .bind (returns_awaitObfuscate marker e.txidFirstInput) fun data hdata => ?_
    rw [he.key, Option.bind_some] at hdata
    refine .bind (returns_ofExcept fun psbt ho => scripts_addOutput ho) fun psbt hpsbt => ?_
    exact ⟨data, hdata, hpsbt⟩

theorem addLegInput_scripts {e e' : Emission} {psbt : Psbt} {leg : TxOut} {input : PsbtInput}
    {size : ℕ} (h : addLegInput enc psbt e leg input size = .ok e') :
    e'.scripts = psbt.scripts ∧ e'.p2shTx = e.p2shTx ∧ e'.txidFirstInput = e.txidFirstInput := by
  simp only [addLegInput, bind_eq_ok] at h
  obtain ⟨psbt', hp, he⟩ := h
  cases he
  obtain ⟨-, -, rfl⟩ := Psbt.addInput_eq_ok.mp hp
  exact ⟨rfl, rfl, rfl⟩

theorem Revealing.leg {hash : Text} {tx : ParsedTx} {e e' : Emission} {psbt : Psbt} {leg : TxOut}
    {input : PsbtInput} {size : ℕ} (he : Revealing enc plan hash tx e)
    (hmarker : ∃ data, obfuscate enc.lib (revealMarker plan.prepared.encoding) tx.id = some data ∧
      psbt.scripts = [embedScript data])
    (h : addLegInput enc psbt e leg input size = .ok e') : Revealing enc plan hash tx e' := by
  obtain ⟨hscripts, htx, hkey⟩ := addLegInput_scripts h
  obtain ⟨data, hdata, hpsbt⟩ := hmarker
  exact ⟨he.parsed, he.named, htx.trans he.loaded, fun _ => ⟨data, hdata, hscripts.trans hpsbt⟩,
    hkey.trans he.key⟩

theorem returns_spendLeg {hash : Text} {e : Emission} {marker : Bytes}
    (hmarker : revealMarker plan.prepared.encoding = marker)
    (he : e.p2shTx ≠ none → ∃ tx, Revealing enc plan hash tx e)
    (check : TxOut → Except BuildError Unit) (input : TxOut → PsbtInput)
    (size : Psbt × Option Bytes → ℕ) :
    Returns (RevealState enc plan hash) ((startReveal enc marker e).bind fun r =>
      (Coro.ofExcept (σ := sig) (nextLeg e)).bind fun leg =>
      (Coro.ofExcept (σ := sig) (check leg)).bind fun _ =>
      Coro.ofExcept (σ := sig) (addLegInput enc r.1 e leg (input leg) (size r))) := by
  by_cases htx : e.p2shTx = none
  · refine .bind_right fun r => .bind (returns_ofExcept fun leg hleg => nextLeg_tx hleg) ?_
    exact fun leg hleg => absurd htx hleg
  · obtain ⟨tx, hr⟩ := he htx
    refine .bind (returns_startReveal_marker hmarker hr) fun r hr' => .bind_right fun leg => ?_
    refine .bind_right fun _ => returns_ofExcept fun e' h => .inr ⟨tx, hr.leg ?_ h⟩
    rw [hmarker]
    exact hr'

theorem returns_emitChunk_revealing {price : RevealOutputsPrice} {hash : Text}
    (hhash : plan.request.p2shHash = some hash)
    (hfamily : plan.prepared.encoding = .p2sh ∨ plan.prepared.encoding = .p2wsh) {e : Emission}
    (he : RevealState enc plan hash e) (chunk : Bytes) :
    Returns (RevealState enc plan hash) (emitChunk enc plan price e chunk) := by
  unfold emitChunk
  rcases hfamily with henc | henc
  · rw [henc]
    refine .bind (returns_ofExcept fun e' h => loadFundingTx_revealing hhash he h) fun e' he' => ?_
    rw [hhash]
    exact returns_spendLeg (by rw [henc]; rfl) he' _ _ _
  · rw [henc]
    refine .bind (returns_ofExcept fun e' h => loadFundingTx_revealing hhash he h) fun e' he' => ?_
    rw [hhash]
    exact returns_spendLeg (by rw [henc]; rfl) he' _ _ _

/-- What a script-hash reveal has emitted: the marker under the id of the funding transaction. -/
structure MarkedBy (enc : Encoder) (plan : Plan) (hash : Text) (emitted : Emitted) : Prop where
  nonempty : plan.prepared.dataBufferArray ≠ []
  marker : ∃ tx hex data, plan.request.p2shHex = some hex ∧
    enc.lib.transactionFromHex hex = some tx ∧ lower hash = lower tx.id ∧
    obfuscate enc.lib (revealMarker plan.prepared.encoding) tx.id = some data ∧
    [embedScript data] <+: emitted.psbt.scripts

/-- **A reveal's marker is obfuscated under its funding transaction.** -/
theorem returns_emitOutputs_marked {hash : Text} (hhash : plan.request.p2shHash = some hash)
    (hfamily : plan.prepared.encoding = .p2sh ∨ plan.prepared.encoding = .p2wsh) :
    Returns (fun r => MarkedBy enc plan hash r.2) (emitOutputs enc plan) := by
  refine .bind_right fun price => ?_
  have hloop : ∀ (chunks : List Bytes) (e : Emission), RevealState enc plan hash e →
      Returns (fun e' => RevealState enc plan hash e' ∧ (chunks = [] → e' = e))
        (emitDataOutputs enc plan price chunks e) := by
    intro chunks
    induction chunks with
    | nil => exact fun e he => ⟨he, fun _ => rfl⟩
    | cons chunk rest ih =>
      intro e he
      refine .bind (returns_emitChunk_revealing hhash hfamily he chunk) fun e' he' => ?_
      exact always_mono (fun _ h => ⟨h.1, fun hnil => absurd hnil (List.cons_ne_nil _ _)⟩)
        (fun _ h => h) (ih e' he')
  have hnone : (Emission.start plan price).psbt = none := by
    simp [Emission.start, Plan.isReveal, hhash]
  refine .bind (hloop _ _ (.inl ⟨hnone, rfl⟩)) fun e he => ?_
  refine .bind (returns_ofExcept fun _ h => (emitCustomOutputs_scripts h).2) fun em hem => ?_
  refine ⟨fun hnil => hem.1 (he.2 hnil ▸ hnone), ?_⟩
  rcases he.1 with ⟨hpsbt, -⟩ | ⟨tx, hr⟩
  · exact absurd hpsbt hem.1
  · obtain ⟨hex, hhex, hparsed⟩ := hr.parsed
    obtain ⟨data, hdata, hscripts⟩ := hr.marker hem.1
    exact ⟨tx, hex, data, hhex, hparsed, hr.named, hdata, hscripts ▸ hem.2⟩

/-! ## What selection and settlement keep -/

/-- A selection with the outputs emitted, its inputs counted and named in lowercase. -/
structure KeptSelection (emitted : Emitted) (sel : Selection) : Prop where
  outputs : sel.psbt.outputs = emitted.psbt.outputs
  lowercase : ∀ o ∈ sel.psbt.outpoints, lower o.txid = o.txid
  count : sel.selectedInputCount = sel.psbt.outpoints.length

theorem isHex_of_isTxid {s : Text} (h : isTxid s = true) : isHex s = true := by
  simp only [isTxid, Bool.and_eq_true] at h
  exact h.2

theorem KeptSelection.skip {acc : Selection} (h : KeptSelection emitted acc) :
    KeptSelection emitted { acc with reservedCandidates := acc.reservedCandidates + 1 } :=
  ⟨h.outputs, h.lowercase, h.count⟩

theorem kept_invariant : SelectionInvariant enc plan emitted (KeptSelection emitted) where
  skip _ h := h.skip
  add u acc acc' _ h hadds := by
    obtain ⟨input, hinput, hadd⟩ := hadds.input
    have houtpoints := outpoints_add hadd
    obtain ⟨psbt, hpsbt, hacc⟩ := bind_eq_ok.mp hadd
    cases hacc
    obtain ⟨-, -, rfl⟩ := Psbt.addInput_eq_ok.mp hpsbt
    refine ⟨h.outputs, fun o ho => ?_, ?_⟩
    · rw [houtpoints, List.mem_append, List.mem_singleton] at ho
      rcases ho with ho | rfl
      · exact h.lowercase o ho
      · exact lower_lower (isHex_of_isTxid (hinput.hash ▸ u.txid_hex))
    · rw [houtpoints, List.length_append, ← h.count]
      rfl

theorem kept_start {fee : Option ℤ} {start : Selection} (hinputs : emitted.psbt.outpoints = [])
    (h : initSelection fee emitted = .ok start) : KeptSelection emitted start := by
  rw [initSelection_eq_ok h]
  refine ⟨rfl, ?_, ?_⟩
  · show ∀ o ∈ emitted.psbt.outpoints, _
    rw [hinputs]
    rintro o ⟨⟩
  · show 0 = emitted.psbt.outpoints.length
    rw [hinputs]
    rfl

theorem scripts_raiseOutputValue {psbt psbt' : Psbt} {i : ℕ} {delta : ℤ}
    (h : psbt.raiseOutputValue i delta = .ok psbt') : psbt'.scripts = psbt.scripts := by
  obtain ⟨-, out, hout, rfl⟩ := Psbt.raiseOutputValue_eq_ok.mp h
  obtain ⟨hlt, heq⟩ := List.getElem?_eq_some_iff.mp hout
  simp only [Psbt.scripts, List.map_set]
  refine List.ext_getElem (by simp) fun j hj hj' => ?_
  rw [List.getElem_set]
  split_ifs with hij
  · subst hij
    simp [heq]
  · rfl

theorem scripts_prefundRevealPackage {sel : Selection} {up : Uplifted} {fee : ℤ} {pre : Prefunded}
    (h : prefundRevealPackage enc plan emitted sel up fee = .ok pre) :
    pre.psbt.scripts = sel.psbt.scripts := by
  unfold prefundRevealPackage at h
  cases hprefund : emitted.emission.revealPrefund with
  | none =>
    rw [hprefund] at h
    cases h
    rfl
  | some prefund =>
    simp only [hprefund] at h
    split_ifs at h
    · unfold applyRevealPrefund at h
      split_ifs at h
      · obtain ⟨psbt, hraise, heq⟩ := bind_eq_ok.mp h
        cases heq
        exact scripts_raiseOutputValue hraise
      · cases h
        rfl
    · cases h
      rfl
    · cases h
      rfl

/-- **Settlement keeps the scripts that were there, in front.** -/
theorem returns_settleBuild_scripts {price : RevealOutputsPrice} {sel : Selection} :
    Returns (fun b => sel.psbt.scripts <+: b.psbt.scripts)
      (settleBuild enc plan price emitted sel) := by
  refine .bind_right fun _ => .bind_right fun _ => .bind_right fun up => ?_
  refine .bind (returns_ofExcept fun r hr => ?_) (R := fun r => sel.psbt.scripts <+: r.2.2.scripts)
    fun r hr => ?_
  · simp only [settleChange, emitChangeAndPad, bind_eq_ok] at hr
    obtain ⟨pre, hpre, change, -, psbt, ⟨psbt₁, hchange, hpad⟩, _, -, heq⟩ := hr
    cases heq
    rw [← scripts_prefundRevealPackage hpre]
    exact ((extends_emitChange hchange).trans (extends_emitRevealPad hpad)).scripts
  · have hsweep : Returns (fun psbt => r.2.2.scripts <+: psbt.scripts)
        (sweepP2shReveal enc plan emitted (floorEstimatedFee enc emitted up.estimatedFee) r.2.2) := by
      unfold sweepP2shReveal
      split
      · split_ifs
        · refine .bind_right fun kept => returns_ofExcept fun psbt hpsbt => ?_
          unfold emitSweep at hpsbt
          dsimp only at hpsbt
          split_ifs at hpsbt
          · obtain ⟨address, -, hpsbt⟩ := bind_eq_ok.mp hpsbt
            split_ifs at hpsbt
            · cases hpsbt
              exact List.prefix_rfl
            · exact (extends_addAddressOutput hpsbt).scripts
          · cases hpsbt
            exact List.prefix_rfl
        · exact List.prefix_rfl
      · exact List.prefix_rfl
    refine .bind hsweep fun psbt hpsbt => .bind_right fun envelope => ?_
    exact hr.trans hpsbt

end XChain
