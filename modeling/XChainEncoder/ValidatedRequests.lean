import XChainEncoder.RequestParams

/-!
# Validated requests

An accepted request of `create_tx`, put through the checks once more.

* `CreateTxParams.params`: an accepted request, written as params again;
* `validateAddress_again`, .., `validateItems_again`: each field is accepted again;
* `validateAll_params`: **an accepted request is accepted again, as itself**.
-/

namespace XChain.Validator

variable {C : Context}

/-! ## Written again -/

namespace Param

def flag : Option Bool → Param
  | none => undefined
  | some b => bool b

/-- An amount as the checks leave it: a number while that is exact. -/
def amount (n : ℕ) : Param := if (n : ℤ) ≤ maxSafeInteger then number (.finite n) else bigint n

def natural (n : ℕ) : Param := number (.finite n)

/-- A plain text. -/
def plain (t : Text) : Param := string (units t)

def optional {α : Type} (write : α → Param) : Option α → Param
  | none => undefined
  | some a => write a

end Param

def UtxoEntry.param (u : UtxoEntry) : Param :=
  .object [("txid", .plain u.txid.val), ("vout", .natural u.vout.val), ("value", .amount u.value.val),
    ("scriptPubKey", .plain u.scriptPubKey.val), ("confirmations", .natural u.confirmations),
    ("redeemScript", u.redeemScript)]

def CustomOutputEntry.param (o : CustomOutputEntry C) : Param :=
  .object [("address", .string o.address.val), ("value", .amount o.value.val)]

def FeeQuoteEntry.param (q : FeeQuoteEntry) : Param :=
  .object [("address", .string q.address.val), ("amount", .natural q.amount.val)]

def CreateTxOptions.param (o : CreateTxOptions) : Param :=
  .object [("signerSupportsTapscript", .flag o.signerSupportsTapscript),
    ("exactInputs", .flag o.exactInputs)]

def encodingParam : EncodingChoice → Param
  | .default => .null
  | .auto => .plain "AUTO".toList
  | .named .opReturn => .plain "OP_RETURN".toList
  | .named .p2sh => .plain "P2SH".toList
  | .named .multisign => .plain "MULTISIGN".toList
  | .named .p2wsh => .plain "P2WSH".toList
  | .named .taproot => .plain "TAPROOT".toList

/-- An accepted request, written as params. -/
def CreateTxParams.params (v : CreateTxParams C) : Param :=
  .object [
    ("utxos", .optional (fun l => .array (l.val.map UtxoEntry.param)) v.payment.utxos),
    ("pubkey", .optional (fun p => .string p.source.val) v.payment.pubkey),
    ("customOutputs",
      .optional (fun l => .array (l.val.map CustomOutputEntry.param)) v.payment.customOutputs),
    ("data", .optional .string v.action.data),
    ("rawData", .optional .string v.action.rawData),
    ("fee", .optional (fun n => .natural n.val) v.payment.fee),
    ("rbf", .flag v.policy.rbf),
    ("encoding", encodingParam v.action.encoding),
    ("change", .optional (fun a => .string a.val) v.payment.change),
    ("p2shHash", .optional (fun r => .plain r.p2shHash.val) v.payment.reveal),
    ("p2shHex", .optional (fun r => .plain r.p2shHex.val) v.payment.reveal),
    ("compressedPubKey", .optional (fun k => .plain k.val) v.payment.compressedPubKey),
    ("unconfirmed", .flag v.policy.unconfirmed),
    ("feePerKb", .optional (fun r => .number (.finite r.val)) v.payment.feePerKb),
    ("dust", .optional (fun n => .natural n.val) v.payment.dust),
    ("feeQuote", .optional FeeQuoteEntry.param v.payment.feeQuote),
    ("attachPrevTx", .flag v.policy.attachPrevTx),
    ("compress", .flag v.policy.compress),
    ("options", v.policy.options.param)]

/-! ## Each field is accepted again -/

section Passed

variable {α β : Type} {e : BuildError} {r : Except BuildError β}

theorem ensure_bind {ok : Bool} {f : Unit → Except BuildError β} (h : ok = true) (hf : f () = r) :
    (ensure ok e >>= f) = r := by
  rw [ensure_eq_ok.mpr h]
  exact hf

theorem require_bind {p : Prop} [Decidable p] {f : PLift p → Except BuildError β} (h : p)
    (hf : f ⟨h⟩ = r) : (require p e >>= f) = r := by
  rw [require, dif_pos h]
  exact hf

theorem passed_bind {x : Except BuildError α} {f : α → Except BuildError β} {a : α}
    (h : x = .ok a) (hf : f a = r) : (x >>= f) = r := by
  rw [h]
  exact hf

end Passed

theorem text_units {t : Text} (h : isHex t = true) : text (units t) = t := by
  simp only [isHex, List.all_eq_true] at h
  rw [text, units, List.map_map]
  refine (List.map_congr_left fun c hc => ?_).trans (List.map_id t)
  have hlt : c.toNat < 2 ^ 16 := by
    rcases hexDigit_cases (h c hc) with hc | hc | hc <;> omega
  simp only [Function.comp, UInt16.toNat_ofNat', Nat.mod_eq_of_lt hlt, Char.ofNat_toNat, id]

theorem keep_eq {α : Type} {x : Except BuildError α} {a : α} (h : x = .ok a) :
    keep x = .ok ⟨a, h⟩ := by
  subst h
  rfl

theorem validateOptionalBoolean_flag (b : Option Bool) (label : String) :
    validateOptionalBoolean (.flag b) label = .ok b := by
  cases b <;> rfl

theorem validateAddress_again (a : AddressText) (label : String) :
    validateAddress (.string a.val) label = .ok a :=
  require_bind a.2.1 (require_bind a.2.2 rfl)

theorem validateChange_again (a : Option AddressText) :
    validateChange (.optional (fun a => .string a.val) a) = .ok a := by
  cases a with
  | none => rfl
  | some a =>
    change (validateAddress (.string a.val) "address").map some = _
    rw [validateAddress_again]
    rfl

theorem validatePubkey_again (p : Option (Pubkey C)) :
    validatePubkey C (.optional (fun p => .string p.source.val) p) = .ok p := by
  cases p with
  | none => rfl
  | some p =>
    have hplain : (!isUncompressedPubkey (text p.source.val)) = true := by rw [p.compressed]; rfl
    refine (if_neg (by simp [Param.optional, Param.isNullish])).trans ?_
    exact ensure_bind hplain (passed_bind (validateAddress_again p.source "pubkey")
      (require_bind p.compressed (require_bind p.onCurve rfl)))

theorem isHex_of_compressed {s : Text} (h : isCompressedPubkey s = true) : isHex s = true := by
  unfold isCompressedPubkey at h
  split at h
  · simp only [Bool.and_eq_true] at h
    simpa [isHex, hexDigit] using h.2
  · simp only [Bool.and_eq_true] at h
    simpa [isHex, hexDigit] using h.2
  · cases h

theorem validateCompressedPubKey_again (k : Option (CompressedKey C)) :
    validateCompressedPubKey C (.optional (fun k => .plain k.val) k) = .ok k := by
  cases k with
  | none => rfl
  | some k =>
    obtain ⟨s, hkey, hcurve⟩ := k
    have htext := text_units (isHex_of_compressed hkey)
    refine (if_neg (by simp [Param.optional, Param.plain, Param.isNullish])).trans ?_
    exact require_bind (by rwa [htext]) (require_bind (by rwa [htext])
      (congrArg (fun k => Except.ok (some k)) (Subtype.ext htext)))

theorem toExactInt_natural (n : ℕ) : toExactInt (Param.natural n).toValue = .finite n := by
  simp [Param.natural, Param.toValue, toExactInt, JsNumber.isInteger]

theorem natural?_again (n : ℕ) : natural? (toExactInt (Param.natural n).toValue) = some n := by
  simp [toExactInt_natural, natural?]

theorem whole_again (n : ℕ) : whole (toExactInt (Param.natural n).toValue) = n := by
  simp [toExactInt_natural, whole]

theorem exceeds_again {n : ℕ} {m : ℤ} (h : (n : ℤ) ≤ m) :
    (!exceeds (toExactInt (Param.natural n).toValue) m) = true := by
  have hcast : (n : ℚ) ≤ m := by exact_mod_cast h
  simpa [toExactInt_natural, exceeds] using hcast

theorem validateFeeAmount_again (n : Option FeeAmount) (malformed label : String)
    (numberText : JsNumber → String) :
    validateFeeAmount (.optional (fun n => .natural n.val) n) malformed label numberText = .ok n := by
  cases n with
  | none => rfl
  | some n =>
    obtain ⟨n, hle⟩ := n
    refine (if_neg (by simp [Param.optional, Param.natural, Param.isOff])).trans ?_
    refine ensure_bind (by simp [Param.optional, toExactInt_natural, JsNumber.isNaN]) ?_
    refine ensure_bind (by simp [Param.optional, toExactInt_natural, JsNumber.isNegative]) ?_
    exact ensure_bind (exceeds_again hle) (require_bind ((whole_again n).symm ▸ hle)
      (congrArg (fun n => Except.ok (some n)) (Subtype.ext (whole_again n))))

theorem validateFeePerKb_again (r : Option FeeRate) :
    validateFeePerKb C (.optional (fun r => .number (.finite r.val)) r) = .ok r := by
  cases r with
  | none => rfl
  | some r => exact require_bind r.2.1 (require_bind r.2.2 rfl)

theorem parseAmount_again (n : Amount) (label : String) :
    parseAmount C (.amount n.val) label = .ok n := by
  obtain ⟨n, hle⟩ := n
  have hvalue : (Param.amount n).toValue = JsValue.ofNat n := by
    unfold Param.amount JsValue.ofNat
    split_ifs <;> rfl
  have haccepts : JsValue.Accepts (JsValue.ofNat n) true (JsValue.ofNat n) := by
    refine ⟨n, JsValue.integer?_ofNat n, ?_, rfl⟩
    by_cases hsafe : (n : ℤ) ≤ maxSafeInteger
    · rw [JsValue.ofNat_of_le hsafe]
      exact hsafe
    · rw [JsValue.ofNat_of_lt (not_le.mp hsafe)]
      exact hle
  have hread : ((JsValue.ofNat n).integer?.getD 0).toNat = n := by rw [JsValue.integer?_ofNat]; rfl
  have hparse : JsValue.parseSatoshiAmount C.numberText (Param.amount n).toValue label true =
      .ok (JsValue.ofNat n) := by
    rw [hvalue]
    exact (JsValue.parseSatoshiAmount_eq_ok_iff ..).mpr haccepts
  exact passed_bind hparse (require_bind (hread.symm ▸ hle)
    (congrArg Except.ok (Subtype.ext hread)))

theorem validateOutpoint_again (txid : LowerTxid) (vout : OutputIndex)
    (txidLabel voutLabel : String) :
    validateOutpoint (.plain txid.val) (.natural vout.val) txidLabel voutLabel =
      .ok (txid, vout) := by
  obtain ⟨txid, htxid, hlower⟩ := txid
  have htext := text_units (isHex_of_isTxid htxid)
  refine require_bind (htext.symm ▸ htxid) ?_
  rw [natural?_again]
  refine require_bind vout.2 (congrArg Except.ok (Prod.ext (Subtype.ext ?_) rfl))
  exact (congrArg lower htext).trans hlower

theorem validateConfirmations_again (n index : ℕ) :
    validateConfirmations (.natural n) index = .ok n := by
  unfold validateConfirmations
  rw [if_neg (by simp [Param.natural, Param.isNullish]), natural?_again]

theorem validateUtxoEntry_again (u : UtxoEntry) (index : ℕ) :
    validateUtxoEntry C u.param index = .ok u := by
  obtain ⟨txid, vout, value, ⟨script, hne, hle, hhex⟩, confirmations, redeemScript⟩ := u
  have htext := text_units hhex.2
  refine ensure_bind rfl (passed_bind (validateOutpoint_again txid vout _ _) ?_)
  refine passed_bind (parseAmount_again value _) ?_
  refine require_bind (htext.symm ▸ hne) (require_bind (htext.symm ▸ hle)
    (require_bind (htext.symm ▸ hhex) ?_))
  refine passed_bind (validateConfirmations_again confirmations index) ?_
  exact congrArg (fun script => Except.ok (UtxoEntry.mk txid vout value script confirmations
    redeemScript)) (Subtype.ext htext)

theorem validateCustomOutput_again (o : CustomOutputEntry C) (index : ℕ) :
    validateCustomOutput C o.param index = .ok o :=
  ensure_bind rfl (passed_bind (validateAddress_again o.address _)
    (passed_bind (parseAmount_again o.value _)
      (require_bind o.positive (require_bind o.relayed rfl))))

theorem checkItems_again {α : Type} {check : Param → ℕ → Except BuildError α} {write : α → Param}
    (h : ∀ a i, check (write a) i = .ok a) (l : List α) (i : ℕ) :
    checkItems check (l.map write) i = .ok l := by
  induction l generalizing i with
  | nil => rfl
  | cons a l ih => exact passed_bind (h a i) (passed_bind (ih (i + 1)) rfl)

/-- A list whose items are each accepted again is accepted again. -/
theorem validateItems_again {α : Type} {check : Param → ℕ → Except BuildError α} {write : α → Param}
    (h : ∀ a i, check (write a) i = .ok a) {most : ℕ} (l : Option {l : List α // l.length ≤ most})
    (label : String) (tooMany : ℕ → String) :
    validateItems check (.optional (fun l => .array (l.val.map write)) l) label most tooMany =
      .ok l := by
  cases l with
  | none => rfl
  | some l =>
    exact ensure_bind (by simpa using l.2) (passed_bind (checkItems_again h l.val 0)
      (require_bind l.2 rfl))

theorem validateFeeQuote_again (q : Option FeeQuoteEntry) :
    validateFeeQuote (.optional FeeQuoteEntry.param q) = .ok q := by
  cases q with
  | none => rfl
  | some q =>
    obtain ⟨address, ⟨n, hle⟩, hpos⟩ := q
    have hsmall : (!((toExactInt (Param.natural n).toValue).isNaN ||
        isNotPositive (toExactInt (Param.natural n).toValue))) = true := by
      have hne : n ≠ 0 := Nat.pos_iff_ne_zero.mp hpos
      simpa [toExactInt_natural, JsNumber.isNaN, isNotPositive] using hne
    refine (if_neg (by simp [Param.optional, FeeQuoteEntry.param, Param.isNullish])).trans ?_
    refine ensure_bind rfl (passed_bind (validateAddress_again address _) ?_)
    refine ensure_bind hsmall (ensure_bind (exceeds_again hle) ?_)
    exact require_bind ((whole_again n).symm ▸ hle)
      (require_bind ((whole_again n).symm ▸ hpos) rfl)

theorem validateP2shParams_again (r : Option RevealParams) :
    validateP2shParams (.optional (fun r => .plain r.p2shHash.val) r)
      (.optional (fun r => .plain r.p2shHex.val) r) = .ok r := by
  cases r with
  | none => rfl
  | some r =>
    obtain ⟨⟨hash, hhash⟩, ⟨hex, hne, hle, hhex⟩⟩ := r
    have hs := text_units (isHex_of_isTxid hhash)
    have ht := text_units hhex.2
    refine (if_neg (by simp [Param.optional, Param.plain, Param.isOff])).trans ?_
    refine ensure_bind rfl (require_bind (hs.symm ▸ hhash) (require_bind (ht.symm ▸ hne)
      (require_bind (ht.symm ▸ hle) (require_bind (ht.symm ▸ hhex) ?_))))
    exact congrArg₂ (fun s t => Except.ok (some (RevealParams.mk s t))) (Subtype.ext hs)
      (Subtype.ext ht)

theorem validateEncoding_again (encoding : EncodingChoice) :
    validateEncoding (encodingParam encoding) = .ok encoding := by
  rcases encoding with _ | _ | (_ | _ | _ | _ | _) <;> rfl

theorem validateDataParam_again {s : Option CodeUnits} {fieldName : String}
    (h : XChain.validateDataParam s fieldName = .ok s) :
    validateDataParam (.optional .string s) fieldName = .ok ⟨s, h⟩ := by
  have hkeep : keep (XChain.validateDataParam s fieldName) = .ok ⟨s, h⟩ := keep_eq h
  cases s <;> exact passed_bind rfl (passed_bind hkeep rfl)

theorem validateActionFields_again (v : CreateTxParams C) :
    validateActionFields v.params = .ok v.action := by
  obtain ⟨⟨data, rawData, encoding, wellFormed, latin1, fits, decodable, known⟩, _⟩ := v
  refine passed_bind (validateDataParam_again wellFormed)
    (passed_bind (validateDataParam_again latin1) ?_)
  refine passed_bind (validateEncoding_again encoding) ?_
  exact passed_bind (keep_eq fits) (passed_bind (keep_eq decodable)
    (passed_bind (keep_eq known) rfl))

theorem validatePaymentFields_again (v : CreateTxParams C) :
    validatePaymentFields C v.params = .ok v.payment := by
  obtain ⟨_, ⟨pubkey, fee, feePerKb, dust, utxos, customOutputs, feeQuote, reveal, compressedPubKey,
    change⟩, _⟩ := v
  refine passed_bind (validatePubkey_again pubkey) ?_
  refine passed_bind (validateFeeAmount_again fee _ _ _) ?_
  refine passed_bind (validateFeePerKb_again feePerKb) ?_
  refine passed_bind (validateFeeAmount_again dust _ _ _) ?_
  refine passed_bind (validateItems_again validateUtxoEntry_again utxos _ _) ?_
  refine passed_bind (validateItems_again validateCustomOutput_again customOutputs _ _) ?_
  refine passed_bind (validateFeeQuote_again feeQuote) ?_
  refine passed_bind (validateP2shParams_again reveal) ?_
  refine passed_bind (validateCompressedPubKey_again compressedPubKey) ?_
  exact passed_bind (validateChange_again change) rfl

theorem validateCreateTxOptions_again (o : CreateTxOptions) :
    validateCreateTxOptions o.param = .ok o := by
  refine ensure_bind rfl (passed_bind rfl ?_)
  exact passed_bind (validateOptionalBoolean_flag o.signerSupportsTapscript _)
    (passed_bind (validateOptionalBoolean_flag o.exactInputs _) rfl)

theorem validatePolicyFields_again (v : CreateTxParams C) :
    validatePolicyFields v.params = .ok v.policy := by
  obtain ⟨_, _, ⟨rbf, unconfirmed, attachPrevTx, compress, options⟩, _⟩ := v
  refine passed_bind (validateOptionalBoolean_flag rbf _) ?_
  refine passed_bind (validateOptionalBoolean_flag unconfirmed _) ?_
  refine passed_bind (validateOptionalBoolean_flag attachPrevTx _) ?_
  refine passed_bind (validateOptionalBoolean_flag compress _) ?_
  exact passed_bind (validateCreateTxOptions_again options) rfl

/-- **An accepted request is accepted again, as itself.** -/
theorem validateAll_params (v : CreateTxParams C) : validateAll C v.params = .ok v := by
  refine ensure_bind rfl (passed_bind rfl ?_)
  refine passed_bind (validateActionFields_again v) (passed_bind (validatePaymentFields_again v) ?_)
  refine require_bind v.multisignKey (require_bind v.taprootKey (require_bind v.taprootReveal
    (require_bind v.identified ?_)))
  exact passed_bind (validatePolicyFields_again v) rfl

end XChain.Validator
