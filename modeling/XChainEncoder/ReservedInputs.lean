import XChainEncoder.CancelRuns
import XChainEncoder.ExactInputs

/-!
# Reserved means spent

What a successful build keeps reserved, against what its transaction spends.

* `LeavesReserved`, `leavesReserved_iff`: within a term of its start a build leaves every outpoint
  reserved that it claimed;
* `NoStrayClaim`: the state in which a reveal claims nothing it does not spend;
* **`reserved_iff_spent`**: a funding build keeps exactly its inputs, and a reveal keeps nothing but
  its inputs when it made no stray claim.
-/

namespace XChain

open PushScript Coroutine

variable {enc : Encoder} {request : TxRequest}

/-! ## What is left reserved -/

/-- The call claimed the outpoint, and the map still has its claim. -/
def LeavesReserved (g : EncoderCfg) (q : ℕ) (key : Outpoint) : Prop :=
  ∃ call claim, g.calls q = some call ∧ claim ∈ call.ledger.claims ∧ claim.key = key ∧
    g.shared.outpointReservations key = some claim.expiry

/-- What is left reserved is spent; a build that selects its inputs reserves them. -/
structure ReservedAreSpent (g : EncoderCfg) (q : ℕ) (request : TxRequest) (psbt : Psbt) : Prop where
  spent : ∀ key, LeavesReserved g q key → key ∈ psbt.outpoints
  reserved : request.p2shHash = none → ∀ key ∈ psbt.outpoints, LeavesReserved g q key

/-- A build returns within a term of its start: every outpoint it claimed is left reserved. -/
theorem leavesReserved_iff {q : ℕ} {r : TxResult} {y : EncoderSnap}
    (h : ReturnedAt enc q (.transaction r) y) (hcommand : y.call.command = .createTransaction request)
    (hterm : y.clock < y.call.startedAt + reservationTtlMs) (key : Outpoint) :
    LeavesReserved ((y.returned (.transaction r)).cfg q) q key ↔
      key ∈ y.call.ledger.claims.map Claim.key := by
  constructor
  · rintro ⟨call, claim, hcall, hmem, rfl, -⟩
    rw [Snap.cfg_self] at hcall
    cases hcall
    exact List.mem_map_of_mem hmem
  · intro hkey
    obtain ⟨claim, hmem, rfl⟩ := List.mem_map.mp hkey
    have hlive : HoldsLive ((y.returned (.transaction r)).cfg q) q claim :=
      ⟨h.holds hmem, hterm.trans_le (h.fresh claim hmem)⟩
    have hplain : claim.cancelOwnerId = none :=
      ((agrees_cfg.mp h.agrees).ledgers.shape q _ set_self).noOwner request hcommand claim hmem
    have hstanding := hlive.standing h.agrees
    rw [Standing, hplain] at hstanding
    exact ⟨_, claim, Snap.cfg_self .., hmem, rfl, hstanding⟩

/-! ## Stray claims -/

/-- At its first reading of the clock the call finds no free candidate that its reveal does not
spend. -/
def NoStrayClaim (enc : Encoder) (request : TxRequest) (call : EncoderCall) : Prop :=
  ∀ h candidates prepared reading u, request.p2shHash = some h →
    filterAndOrderUtxos request request.utxos = .ok candidates →
    preparedPayload enc request = .ok prepared → call.seen.head? = some reading →
    firstFree reading.1 reading.2 candidates = some u →
    outpointKey u ∈ legs (some h) prepared.dataBufferArray.length

/-- A finished reveal has claimed at most the candidate that was free when it first read the clock. -/
theorem BuiltAt.claimed_reveal_iff {c : EncoderCall} {psbt : Psbt} (h : BuiltAt enc request c psbt)
    {txid : Text} (hhash : request.p2shHash = some txid) (ok : List Outpoint → Outpoint → Prop) :
    (∀ key ∈ c.ledger.claims.map Claim.key, ok psbt.outpoints key) ↔
      ∀ candidates prepared reading u, filterAndOrderUtxos request request.utxos = .ok candidates →
        preparedPayload enc request = .ok prepared → c.seen.head? = some reading →
        firstFree reading.1 reading.2 candidates = some u →
        ok (legs (some txid) prepared.dataBufferArray.length) (outpointKey u) := by
  obtain ⟨candidates, prepared, hcand, hprep, hout, -, hkeys⟩ := h.reveal txid hhash
  rw [hkeys, hout]
  constructor
  · intro hall candidates' prepared' reading u hcand' hprep' hseen hfree
    cases hcand.symm.trans hcand'
    cases hprep.symm.trans hprep'
    exact hall _ (by simp [hseen, hfree])
  · intro hfirst key hkey
    simp only [Option.mem_toList, Option.map_eq_some_iff, Option.bind_eq_some_iff] at hkey
    obtain ⟨u, ⟨reading, hseen, hfree⟩, rfl⟩ := hkey
    exact hfirst candidates prepared reading u hcand hprep hseen hfree

/-- **A finished build keeps nothing but its inputs exactly when it made no stray claim.** -/
theorem BuiltAt.claims_spent_iff {c : EncoderCall} {psbt : Psbt} (h : BuiltAt enc request c psbt) :
    (∀ key ∈ c.ledger.claims.map Claim.key, key ∈ psbt.outpoints) ↔ NoStrayClaim enc request c := by
  cases hhash : request.p2shHash with
  | none =>
    refine iff_of_true (fun key hkey => h.funding hhash ▸ hkey) ?_
    intro txid _ _ _ _ htxid
    cases hhash.symm.trans htxid
  | some txid =>
    rw [h.claimed_reveal_iff hhash fun outpoints key => key ∈ outpoints]
    constructor
    · intro hclaimed txid' candidates prepared reading u htxid
      cases hhash.symm.trans htxid
      exact hclaimed candidates prepared reading u
    · exact fun hstray candidates prepared reading u => hstray txid candidates prepared reading u hhash

/-- **Reserved means spent**, for every build that returns within a term of its start, exactly when
it made no stray claim. -/
theorem reserved_iff_spent (enc : Encoder) (clock : ℕ) (events : List (Event sig Command))
    (ev : Event sig Command) (q : ℕ) (call : EncoderCall) (r : TxResult) (t : ℕ) (request : TxRequest)
    (hev : ev.runs (encoderRun enc clock events) = some q)
    (hcall : (encoderRun enc clock (events ++ [ev])).cfg.calls q = some call)
    (hs : call.stage = .returned (.transaction r) t) (hcommand : call.command = .createTransaction request)
    (hterm : (encoderRun enc clock (events ++ [ev])).cfg.clock < call.startedAt + reservationTtlMs) :
    ReservedAreSpent (encoderRun enc clock (events ++ [ev])).cfg q request r.psbt ↔
      NoStrayClaim enc request call := by
  rw [encoderRun_append] at hcall hterm ⊢
  obtain ⟨y, rfl, hcfg, hret⟩ := returned_step (encoderRun_sound enc clock events) hev hcall hs
  rw [hcfg] at hterm ⊢
  have hcommand' : y.call.command = .createTransaction request := hcommand
  obtain ⟨request', hrequest', hbuilt⟩ := hret.ended
  cases hcommand'.symm.trans hrequest'
  have hleft := leavesReserved_iff hret hcommand' hterm
  have hspent := hbuilt.claims_spent_iff
  constructor
  · exact fun h => hspent.mp fun key hkey => h.spent key ((hleft key).mpr hkey)
  · refine fun h => ⟨fun key hkey => hspent.mpr h key ((hleft key).mp hkey), fun hfunding key hkey => ?_⟩
    exact (hleft key).mpr ((hbuilt.funding hfunding).symm ▸ hkey)

/-! ## Two reveals -/

/-- The payload of the sample reveals. -/
def revealAction : Bytes := "SEND|0|XCHAIN|1".toList.map fun c => UInt8.ofNat c.toNat

/-- The only chunk script of `revealAction`, and its hash. -/
def revealChunkScript : Bytes := chunkScript (compile [.push revealAction]) sampleHash

def revealScriptHash : Bytes :=
  [0xe8, 0x50, 0x89, 0xc8, 0xb4, 0x7b, 0x3c, 0xa4, 0xa9, 0x86, 0xa6, 0xe8, 0x12, 0x29, 0xde, 0x11,
    0x24, 0xb1, 0xef, 0x55, 0xaf, 0x19, 0x59, 0xc5, 0x0f, 0x87, 0xcc, 0x94, 0x68, 0x8f, 0x3c, 0x06]

/-- The transaction that funds the leg with 2000. -/
def legFunding : ParsedTx where
  id := "f748f53622f44f68fbd6a9a5077cde211168193161f16fd602d37da210979c40".toList
  outs := [⟨compile [.op 0x00, .push revealScriptHash], 2000⟩]

def legFundingHex : Text :=
  ("01000000011111111111111111111111111111111111111111111111111111111111111111" ++
    "0000000000ffffffff01d007000000000000220020" ++
    "e85089c8b47b3ca4a986a6e81229de1124b1ef55af1959c50f87cc94688f3c0600000000").toList

/-- The AES-128-CTR stream under the id of `legFunding`. -/
def legKeystream : Bytes :=
  [0x60, 0xcc, 0x25, 0xe5, 0xa6, 0x1b, 0x47, 0x09, 0xe7, 0x3b, 0x76, 0xc5, 0x2b, 0xef, 0x3b, 0xef]

/-- The sample library, with what the reveals ask of it. -/
def revealLibrary : Library :=
  { sampleLibrary with
    keystream := fun key iv n =>
      if key = legFunding.id.take 16 ∧ iv = (legFunding.id.drop 16).take 16 then
        some (fit n legKeystream)
      else sampleLibrary.keystream key iv n
    sha256 := fun b => if b = revealChunkScript then fit 32 revealScriptHash else sampleLibrary.sha256 b
    transactionFromHex := fun hex => if hex = legFundingHex then some legFunding else none
    getId := fun _ _ => "3763c2c687d5d6976c0bfce8c2d129c0f59da25bea46a48f09f4c23798d6c72f".toList
    keystream_length := by
      intro key iv n ks h
      split_ifs at h
      · cases h
        exact fit_length _ _
      · exact sampleLibrary.keystream_length _ _ _ _ h
    sha256_length := by
      intro b
      split_ifs
      · exact fit_length _ _
      · exact sampleLibrary.sha256_length _ }

def revealEncoder : Encoder := { sampleEncoder ⟨.btc, .mainnet⟩ with lib := revealLibrary }

/-- The P2WSH reveal of `revealAction`, with the given outputs on offer. -/
def sampleReveal (utxos : List Utxo) : TxRequest where
  utxos
  pubkey := "0279be667ef9dcbbac55a06295ce870b07029bfcdb2dce28d959f2815b16f81798".toList
  customOutputs := []
  data := some revealAction
  rawData := none
  fee := none
  replacebyfee := false
  encoding := .named .p2wsh
  change := some (sampleAddress ⟨.btc, .mainnet⟩)
  p2shHash := some legFunding.id
  p2shHex := some legFundingHex
  compressedPubKey := none
  unconfirmed := true
  feePerKb := some 10000
  dust := none
  feeQuote := none
  attachPrevTx := false
  compress := none
  signerSupportsTapscript := false
  exactInputs := false

/-- One reveal, up to its last reply. -/
def revealBuild (utxos : List Utxo) : List (Event sig Command) :=
  .start (.createTransaction (sampleReveal utxos)) [] :: List.replicate 3 (answer 0)

/-- What the run of one reveal comes to. -/
def revealRun (utxos : List Utxo) : EncoderWorld :=
  encoderRun revealEncoder 0 (revealBuild utxos ++ [answer 0])

/-- The output that the leg spends. -/
def legUtxo : Utxo where
  txid := legFunding.id
  vout := 0
  value := 2000
  scriptPubKey := compile [.op 0x00, .push revealScriptHash]
  confirmations := 6
  redeemScript := none
  txid_hex := by decide +kernel

theorem legReveal_run : ∃ call r, (revealRun [legUtxo]).cfg.calls 0 = some call ∧
    returnedTransaction call = some r ∧ call.command = .createTransaction (sampleReveal [legUtxo]) ∧
    call.startedAt = 0 ∧ call.ledger.claims.map Claim.key = [⟨legFunding.id, 0⟩] := by
  have hfacts : ∃ call ∈ (revealRun [legUtxo]).cfg.calls 0,
      (returnedTransaction call).isSome = true ∧
        call.command = .createTransaction (sampleReveal [legUtxo]) ∧ call.startedAt = 0 ∧
        call.ledger.claims.map Claim.key = [⟨legFunding.id, 0⟩] := by
    decide +kernel
  obtain ⟨call, hcall, hreturned, hfacts⟩ := hfacts
  obtain ⟨r, hr⟩ := Option.isSome_iff_exists.mp hreturned
  exact ⟨call, r, hcall, hr, hfacts⟩

theorem legReveal_free {now : ℕ} {s : Reservations} {candidates : List Utxo} {u : Utxo}
    (hcand : filterAndOrderUtxos (sampleReveal [legUtxo]) [legUtxo] = .ok candidates)
    (hfree : firstFree now s candidates = some u) : outpointKey u = ⟨legFunding.id, 0⟩ := by
  have hone : filterAndOrderUtxos (sampleReveal [legUtxo]) [legUtxo] = .ok [legUtxo] := by
    decide +kernel
  cases hone.symm.trans hcand
  rw [List.mem_singleton.mp (List.mem_of_find?_eq_some hfree)]
  decide +kernel

theorem legReveal_legs {prepared : PreparedData}
    (hprep : preparedPayload revealEncoder (sampleReveal [legUtxo]) = .ok prepared) :
    legs (some legFunding.id) prepared.dataBufferArray.length = [⟨legFunding.id, 0⟩] := by
  have hprepared : (preparedPayload revealEncoder (sampleReveal [legUtxo])).toOption.map
      (fun prepared => prepared.dataBufferArray.length) = some 1 := by
    decide +kernel
  rw [hprep] at hprepared
  have hone : prepared.dataBufferArray.length = 1 := Option.some.inj hprepared
  rw [hone]
  decide +kernel

/-- A payment of two inputs keeps both, and a reveal that is offered its own leg keeps that. -/
theorem reserved_iff_spent_payment :
    (∃ call r, (encoderRun dogeEncoder 0 (exactBuild ++ [.resume 0 dogeReply []])).cfg.calls 0 =
        some call ∧ returnedTransaction call = some r ∧
      call.ledger.claims.map Claim.key = exactPayment.utxos.map outpointKey ∧
      ReservedAreSpent (encoderRun dogeEncoder 0 (exactBuild ++ [.resume 0 dogeReply []])).cfg 0
        exactPayment r.psbt) ∧
    ∃ call r, (revealRun [legUtxo]).cfg.calls 0 = some call ∧ returnedTransaction call = some r ∧
      call.ledger.claims.map Claim.key = [⟨legFunding.id, 0⟩] ∧
      ReservedAreSpent (revealRun [legUtxo]).cfg 0 (sampleReveal [legUtxo]) r.psbt := by
  constructor
  · have hfacts : (∃ call ∈ (encoderRun dogeEncoder 0
          (exactBuild ++ [.resume 0 dogeReply []])).cfg.calls 0,
        (returnedTransaction call).isSome = true ∧ call.command = .createTransaction exactPayment ∧
          call.startedAt = 0 ∧
          call.ledger.claims.map Claim.key = exactPayment.utxos.map outpointKey) ∧
        (encoderRun dogeEncoder 0 (exactBuild ++ [.resume 0 dogeReply []])).cfg.clock <
          0 + reservationTtlMs ∧
        Event.runs (encoderRun dogeEncoder 0 exactBuild) (.resume 0 dogeReply []) = some 0 := by
      decide +kernel
    obtain ⟨⟨call, hcall, hreturned, hcommand, hstart, hclaims⟩, hterm, hev⟩ := hfacts
    obtain ⟨r, hr⟩ := Option.isSome_iff_exists.mp hreturned
    obtain ⟨t, hs⟩ := returnedTransaction_eq_some hr
    refine ⟨call, r, hcall, hr, hclaims, (reserved_iff_spent dogeEncoder 0 exactBuild
      (.resume 0 dogeReply []) 0 call r t exactPayment hev hcall hs hcommand
      (by rw [hstart]; exact hterm)).mpr ?_⟩
    intro h _ _ _ _ hhash
    cases hhash
  · obtain ⟨call, r, hcall, hr, hcommand, hstart, hclaims⟩ := legReveal_run
    obtain ⟨t, hs⟩ := returnedTransaction_eq_some hr
    have hrun : (revealRun [legUtxo]).cfg.clock < 0 + reservationTtlMs ∧
        Event.runs (encoderRun revealEncoder 0 (revealBuild [legUtxo])) (answer 0) = some 0 := by
      decide +kernel
    refine ⟨call, r, hcall, hr, hclaims, (reserved_iff_spent revealEncoder 0 (revealBuild [legUtxo])
      (answer 0) 0 call r t (sampleReveal [legUtxo]) hrun.2 hcall hs hcommand
      (by rw [hstart]; exact hrun.1)).mpr ?_⟩
    intro h candidates prepared reading u hhash hcand hprep _ hfree
    cases hhash
    rw [legReveal_free hcand hfree, legReveal_legs hprep]
    exact List.mem_singleton_self _

/-- The reveal that is offered an output claims it, spends the leg alone and leaves the output
reserved. -/
theorem strayReveal_run : (revealRun [witnessUtxo 7 50000]).cfg.clock = 0 ∧
    ∃ call r, (revealRun [witnessUtxo 7 50000]).cfg.calls 0 = some call ∧ call.startedAt = 0 ∧
      returnedTransaction call = some r ∧ r.psbt.outpoints = [⟨legFunding.id, 0⟩] ∧
      call.ledger.claims.map Claim.key = [⟨sampleTxid, 7⟩] ∧
      LeavesReserved (revealRun [witnessUtxo 7 50000]).cfg 0 ⟨sampleTxid, 7⟩ := by
  have hfacts : (∃ call ∈ (revealRun [witnessUtxo 7 50000]).cfg.calls 0, call.startedAt = 0 ∧
        (returnedTransaction call).map (fun r => r.psbt.outpoints) = some [⟨legFunding.id, 0⟩] ∧
        call.ledger.claims.map Claim.key = [⟨sampleTxid, 7⟩] ∧
        ∃ claim ∈ call.ledger.claims, claim.key = ⟨sampleTxid, 7⟩ ∧
          (revealRun [witnessUtxo 7 50000]).cfg.shared.outpointReservations ⟨sampleTxid, 7⟩ =
            some claim.expiry) ∧
      (revealRun [witnessUtxo 7 50000]).cfg.clock = 0 := by
    decide +kernel
  obtain ⟨⟨call, hcall, hstart, hout, hclaims, claim, hmem, hkey, hstamp⟩, hclock⟩ := hfacts
  obtain ⟨r, hr, hpsbt⟩ := Option.map_eq_some_iff.mp hout
  exact ⟨hclock, call, r, hcall, hstart, hr, hpsbt, hclaims, call, claim, hcall, hmem, hkey, hstamp⟩

/-- **A reveal that is offered an output keeps it**: output `7` of `sampleTxid` stays reserved, and
the transaction spends the leg alone. -/
theorem strayReveal_keeps : ∃ call r, (revealRun [witnessUtxo 7 50000]).cfg.calls 0 = some call ∧
    call.startedAt = 0 ∧ (revealRun [witnessUtxo 7 50000]).cfg.clock = 0 ∧
    returnedTransaction call = some r ∧ r.psbt.outpoints = [⟨legFunding.id, 0⟩] ∧
    LeavesReserved (revealRun [witnessUtxo 7 50000]).cfg 0 ⟨sampleTxid, 7⟩ ∧
    ¬ ReservedAreSpent (revealRun [witnessUtxo 7 50000]).cfg 0 (sampleReveal [witnessUtxo 7 50000])
      r.psbt := by
  obtain ⟨hclock, call, r, hcall, hstart, hr, hpsbt, -, hleft⟩ := strayReveal_run
  refine ⟨call, r, hcall, hstart, hclock, hr, hpsbt, hleft, fun h => ?_⟩
  have hin := h.spent _ hleft
  rw [hpsbt, List.mem_singleton] at hin
  have hne : (⟨sampleTxid, 7⟩ : Outpoint) ≠ ⟨legFunding.id, 0⟩ := by decide
  exact hne hin

end XChain
