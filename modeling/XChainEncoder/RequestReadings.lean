import XChainEncoder.ValidatedRequests

/-!
# Readings of a request

What an accepted request says of the params it was read from.

* `Reads`, `ReadsUtxo`, `ReadsOutput`, `ReadsQuote`, `Denotes`: every field is the value that was
  written, and is absent only where nothing was;
* `integer?_of_toExactInt`: a double under the safe integers is the integer of the digits;
* `denotes_of_validateAll`: **nothing is accepted as something else**.
-/

namespace XChain.Validator

variable {C : Context}

/-! ## Steps of a check -/

theorem requireString_eq_ok {p : Param} {e : BuildError} {s : CodeUnits} :
    requireString p e = .ok s ↔ p = .string s := by
  unfold requireString
  split
  · simp
  next h =>
    constructor
    · rintro ⟨⟩
    · exact fun hp => absurd hp (h s)

/-! ## Integers -/

/-- A double that no rounding touched is the integer that was written. -/
theorem integer?_of_toExactInt {raw : JsValue} {v : ℚ} (h : toExactInt raw = .finite v)
    (hnonneg : 0 ≤ v) (hle : v ≤ maxSafeInteger) : raw.integer? = some v.num := by
  cases raw with
  | number x =>
    simp only [toExactInt] at h
    split_ifs at h with hint
    subst h
    exact if_pos (by simpa [JsNumber.isInteger] using hint)
  | string s =>
    cases hdigits : signedDigits? (trim s) with
    | none => simp [toExactInt, hdigits] at h
    | some sd =>
      simp only [toExactInt, hdigits, numberOf] at h
      simp only [JsValue.integer?, hdigits, Option.map_some, bigIntOf]
      obtain ⟨negative, digits⟩ := sd
      dsimp only at h ⊢
      generalize decimalValue digits = n at h ⊢
      rcases roundNat_spec n with ⟨-, heq⟩ | ⟨-, ⟨d, hd, heq⟩ | heq⟩
      · rw [heq] at h
        cases negative with
        | false =>
          cases h
          simp
        | true =>
          obtain rfl : -(n : ℚ) = v := by simpa [JsNumber.neg] using h
          obtain rfl : n = 0 := by exact_mod_cast le_antisymm (neg_nonneg.mp hnonneg) n.cast_nonneg
          rfl
      · rw [heq] at h
        have hbig : (maxSafeInteger : ℚ) < d := by exact_mod_cast hd
        cases negative with
        | false =>
          cases h
          exact absurd hle (not_le.mpr hbig)
        | true =>
          obtain rfl : -(d : ℚ) = v := by simpa [JsNumber.neg] using h
          have hpos : (0 : ℚ) ≤ maxSafeInteger := by norm_num [maxSafeInteger]
          linarith
      · rw [heq] at h
        cases negative <;> cases h
  | bigint z => cases h
  | other => cases h

theorem natural?_eq_some {x : JsNumber} {n : ℕ} (h : natural? x = some n) : x = .finite n := by
  unfold natural? at h
  split at h
  · split_ifs at h with hv
    next v =>
      have hnum : ((v.num.toNat : ℕ) : ℤ) = v.num := Int.toNat_of_nonneg hv.2
      have hcast : v = v.num := ((Rat.den_eq_one_iff v).mp hv.1).symm
      obtain rfl := Option.some.inj h
      rw [hcast]
      congr 1
      exact_mod_cast hnum.symm
  · cases h

theorem integer?_of_natural? {raw : JsValue} {n : ℕ} (h : natural? (toExactInt raw) = some n)
    (hle : (n : ℤ) ≤ maxSafeInteger) : raw.integer? = some (n : ℤ) := by
  have hcast : (n : ℚ) ≤ maxSafeInteger := by exact_mod_cast hle
  rw [integer?_of_toExactInt (natural?_eq_some h) n.cast_nonneg hcast]
  rfl

theorem integer?_of_whole {raw : JsValue} (hnan : (toExactInt raw).isNaN = false)
    (hneg : (toExactInt raw).isNegative = false)
    (hle : exceeds (toExactInt raw) maxFeeSatoshis = false) :
    raw.integer? = some (whole (toExactInt raw) : ℤ) := by
  cases hexact : toExactInt raw with
  | nan =>
    rw [hexact] at hnan
    cases hnan
  | infinity negative =>
    rw [hexact] at hneg hle
    cases negative
    · cases hle
    · cases hneg
  | finite v =>
    rw [hexact] at hneg hle
    have hnonneg : 0 ≤ v := by simpa [JsNumber.isNegative] using hneg
    have hmax : v ≤ maxFeeSatoshis := by simpa [exceeds] using hle
    have hsafe : (maxFeeSatoshis : ℚ) ≤ maxSafeInteger := by exact_mod_cast (by decide)
    rw [integer?_of_toExactInt hexact hnonneg (hmax.trans hsafe), whole,
      Int.toNat_of_nonneg (Rat.num_nonneg.mpr hnonneg)]

/-! ## Fields -/

/-- An optional field: absent, or what was written. -/
def Reads {α : Type} (absent : Param → Bool) (R : Param → α → Prop) (p : Param) : Option α → Prop
  | none => absent p = true
  | some a => R p a

def ReadsFlag (p : Param) (b : Option Bool) : Prop := Reads Param.isNullish (fun p b => p = .bool b) p b

def ReadsText (p : Param) (s : Option CodeUnits) : Prop :=
  Reads Param.isNullish (fun p s => p = .string s) p s

/-- The integer that is written. -/
def ReadsInteger (p : Param) (n : ℕ) : Prop := p.toValue.integer? = some (n : ℤ)

structure ReadsUtxo (item : Param) (u : UtxoEntry) : Prop where
  txid : ∃ s, item.get "txid" = .string s ∧ u.txid.val = lower (text s)
  vout : ReadsInteger (item.get "vout") u.vout.val
  value : ReadsInteger (item.get "value") u.value.val
  scriptPubKey : ∃ s, item.get "scriptPubKey" = .string s ∧ u.scriptPubKey.val = text s
  confirmations : ((item.get "confirmations").isNullish = true ∧ u.confirmations = 0) ∨
    ((u.confirmations : ℤ) ≤ maxSafeInteger → ReadsInteger (item.get "confirmations") u.confirmations)
  redeemScript : u.redeemScript = item.get "redeemScript"

structure ReadsOutput (item : Param) (o : CustomOutputEntry C) : Prop where
  address : item.get "address" = .string o.address.val
  value : ReadsInteger (item.get "value") o.value.val

structure ReadsQuote (item : Param) (q : FeeQuoteEntry) : Prop where
  address : item.get "address" = .string q.address.val
  amount : ReadsInteger (item.get "amount") q.amount.val

/-- A rate: the number, or the one that a decimal string is read as. -/
def ReadsRate (C : Context) (p : Param) (r : FeeRate) : Prop :=
  p = .number (.finite r.val) ∨
    ∃ s, p = .string s ∧ isDecimal (trim s) = true ∧ C.readNumber (trim s) = .finite r.val

def ReadsList {α : Type} (R : Param → α → Prop) (p : Param) (l : List α) : Prop :=
  ∃ items, p = .array items ∧ List.Forall₂ R items l

theorem readsFlag_of_ok {raw : Param} {label : String} {b : Option Bool}
    (h : validateOptionalBoolean raw label = .ok b) : ReadsFlag raw b := by
  unfold validateOptionalBoolean at h
  split at h
  · cases h
    rfl
  · cases h
    rfl
  · cases h
    rfl
  · cases h
  · cases h

theorem address_of_ok {p : Param} {label : String} {a : AddressText}
    (h : validateAddress p label = .ok a) : p = .string a.val := by
  unfold validateAddress at h
  obtain ⟨s, hs, h⟩ := bind_eq_ok.mp h
  obtain ⟨⟨hne⟩, -, h⟩ := bind_eq_ok.mp h
  obtain ⟨⟨hle⟩, -, h⟩ := bind_eq_ok.mp h
  cases h
  exact requireString_eq_ok.mp hs

theorem amount_of_ok {raw : Param} {label : String} {n : Amount}
    (h : parseAmount C raw label = .ok n) : ReadsInteger raw n.val := by
  unfold parseAmount at h
  obtain ⟨v, hv, h⟩ := bind_eq_ok.mp h
  obtain ⟨⟨hle⟩, -, h⟩ := bind_eq_ok.mp h
  obtain ⟨m, hm, -, rfl⟩ := (JsValue.parseSatoshiAmount_eq_ok_iff ..).mp hv
  have hval : n.val = m := by
    rw [← Except.ok.inj h]
    simp [JsValue.integer?_ofNat]
  rw [ReadsInteger, hval, hm]

theorem fee_of_ok {raw : Param} {malformed label : String} {numberText : JsNumber → String}
    {n : Option FeeAmount} (h : validateFeeAmount raw malformed label numberText = .ok n) :
    Reads Param.isOff (fun p n => ReadsInteger p n.val) raw n := by
  unfold validateFeeAmount at h
  split_ifs at h with hoff
  · cases h
    exact hoff
  · obtain ⟨_, hnan, h⟩ := bind_eq_ok.mp h
    obtain ⟨_, hneg, h⟩ := bind_eq_ok.mp h
    obtain ⟨_, hle, h⟩ := bind_eq_ok.mp h
    obtain ⟨⟨hmax⟩, -, h⟩ := bind_eq_ok.mp h
    cases h
    exact integer?_of_whole (by simpa using hnan) (by simpa using hneg) (by simpa using hle)

theorem rate_of_ok {feePerKb : Param} {r : Option FeeRate}
    (h : validateFeePerKb C feePerKb = .ok r) : Reads Param.isOff (ReadsRate C) feePerKb r := by
  unfold validateFeePerKb at h
  split_ifs at h with hoff
  · cases h
    exact hoff
  · obtain ⟨num, hnum, h⟩ := bind_eq_ok.mp h
    cases num with
    | finite rate =>
      obtain ⟨⟨hpos⟩, -, h⟩ := bind_eq_ok.mp h
      obtain ⟨⟨hle⟩, -, h⟩ := bind_eq_ok.mp h
      cases h
      cases feePerKb with
      | number x => exact .inl (congrArg Param.number (Except.ok.inj hnum))
      | string s =>
        simp only [feePerKbNumber] at hnum
        split_ifs at hnum with hdecimal
        exact .inr ⟨s, rfl, hdecimal, Except.ok.inj hnum⟩
      | undefined | null | bool | bigint | array | object => cases hnum
    | nan => cases h
    | infinity negative => cases h

theorem outpoint_of_ok {txid vout : Param} {txidLabel voutLabel : String}
    {outpoint : LowerTxid × OutputIndex}
    (h : validateOutpoint txid vout txidLabel voutLabel = .ok outpoint) :
    (∃ s, txid = .string s ∧ outpoint.1.val = lower (text s)) ∧ ReadsInteger vout outpoint.2.val := by
  unfold validateOutpoint at h
  obtain ⟨s, hs, h⟩ := bind_eq_ok.mp h
  obtain ⟨⟨htxid⟩, -, h⟩ := bind_eq_ok.mp h
  cases hexact : natural? (toExactInt vout.toValue) with
  | some exact =>
    simp only [hexact] at h
    obtain ⟨⟨hvout⟩, -, h⟩ := bind_eq_ok.mp h
    cases h
    refine ⟨⟨s, requireString_eq_ok.mp hs, rfl⟩, integer?_of_natural? hexact ?_⟩
    exact le_trans (Int.ofNat_le.mpr hvout) (by decide)
  | none =>
    simp only [hexact] at h
    cases h

theorem confirmations_of_ok {confirmations : Param} {index n : ℕ}
    (h : validateConfirmations confirmations index = .ok n) :
    (confirmations.isNullish = true ∧ n = 0) ∨
      ((n : ℤ) ≤ maxSafeInteger → ReadsInteger confirmations n) := by
  unfold validateConfirmations at h
  split_ifs at h with habsent
  · cases h
    exact .inl ⟨habsent, rfl⟩
  · split at h
    next m hm =>
      cases h
      exact .inr (integer?_of_natural? hm)
    · cases h

theorem utxo_of_ok {entry : Param} {index : ℕ} {u : UtxoEntry}
    (h : validateUtxoEntry C entry index = .ok u) : ReadsUtxo entry u := by
  unfold validateUtxoEntry at h
  obtain ⟨_, -, h⟩ := bind_eq_ok.mp h
  obtain ⟨outpoint, houtpoint, h⟩ := bind_eq_ok.mp h
  obtain ⟨value, hvalue, h⟩ := bind_eq_ok.mp h
  obtain ⟨s, hs, h⟩ := bind_eq_ok.mp h
  obtain ⟨⟨hne⟩, -, h⟩ := bind_eq_ok.mp h
  obtain ⟨⟨hle⟩, -, h⟩ := bind_eq_ok.mp h
  obtain ⟨⟨hhex⟩, -, h⟩ := bind_eq_ok.mp h
  obtain ⟨confirmations, hconfirmations, h⟩ := bind_eq_ok.mp h
  cases h
  obtain ⟨htxid, hvout⟩ := outpoint_of_ok houtpoint
  exact ⟨htxid, hvout, amount_of_ok hvalue, ⟨s, requireString_eq_ok.mp hs, rfl⟩,
    confirmations_of_ok hconfirmations, rfl⟩

theorem output_of_ok {output : Param} {index : ℕ} {o : CustomOutputEntry C}
    (h : validateCustomOutput C output index = .ok o) : ReadsOutput output o := by
  unfold validateCustomOutput at h
  obtain ⟨_, -, h⟩ := bind_eq_ok.mp h
  obtain ⟨address, haddress, h⟩ := bind_eq_ok.mp h
  obtain ⟨value, hvalue, h⟩ := bind_eq_ok.mp h
  obtain ⟨⟨hpos⟩, -, h⟩ := bind_eq_ok.mp h
  obtain ⟨⟨hfloor⟩, -, h⟩ := bind_eq_ok.mp h
  cases h
  exact ⟨address_of_ok haddress, amount_of_ok hvalue⟩

theorem checkItems_forall₂ {α : Type} {check : Param → ℕ → Except BuildError α}
    {R : Param → α → Prop} (hcheck : ∀ item i a, check item i = .ok a → R item a)
    {items : List Param} {i : ℕ} {l : List α} (h : checkItems check items i = .ok l) :
    List.Forall₂ R items l := by
  induction items generalizing i l with
  | nil =>
    cases h
    exact .nil
  | cons item items ih =>
    obtain ⟨a, ha, h⟩ := bind_eq_ok.mp h
    obtain ⟨rest, hrest, h⟩ := bind_eq_ok.mp h
    cases h
    exact .cons (hcheck item i a ha) (ih hrest)

theorem items_of_ok {α : Type} {check : Param → ℕ → Except BuildError α} {R : Param → α → Prop}
    (hcheck : ∀ item i a, check item i = .ok a → R item a) {raw : Param} {label : String} {most : ℕ}
    {tooMany : ℕ → String} {l : Option {l : List α // l.length ≤ most}}
    (h : validateItems check raw label most tooMany = .ok l) :
    Reads Param.isNullish (fun p l => ReadsList R p l.val) raw l := by
  unfold validateItems at h
  split at h
  · cases h
    rfl
  · cases h
    rfl
  next items =>
    obtain ⟨_, -, h⟩ := bind_eq_ok.mp h
    obtain ⟨entries, hentries, h⟩ := bind_eq_ok.mp h
    obtain ⟨⟨hle⟩, -, h⟩ := bind_eq_ok.mp h
    cases h
    exact ⟨items, rfl, checkItems_forall₂ hcheck hentries⟩
  · cases h

theorem isNegative_of_not_isNotPositive {x : JsNumber} (h : isNotPositive x = false) :
    x.isNegative = false := by
  cases x with
  | nan => rfl
  | infinity negative => exact h
  | finite v =>
    have hpos : 0 < v := by simpa [isNotPositive] using h
    exact decide_eq_false (not_lt.mpr hpos.le)

theorem quote_of_ok {feeQuote : Param} {q : Option FeeQuoteEntry}
    (h : validateFeeQuote feeQuote = .ok q) : Reads Param.isNullish ReadsQuote feeQuote q := by
  unfold validateFeeQuote at h
  split_ifs at h with habsent
  · cases h
    exact habsent
  · obtain ⟨_, -, h⟩ := bind_eq_ok.mp h
    obtain ⟨address, haddress, h⟩ := bind_eq_ok.mp h
    obtain ⟨_, hsmall, h⟩ := bind_eq_ok.mp h
    obtain ⟨_, hgreat, h⟩ := bind_eq_ok.mp h
    obtain ⟨⟨hle⟩, -, h⟩ := bind_eq_ok.mp h
    obtain ⟨⟨hpos⟩, -, h⟩ := bind_eq_ok.mp h
    cases h
    simp only [ensure_eq_ok, Bool.not_eq_true', Bool.or_eq_false_iff] at hsmall hgreat
    exact ⟨address_of_ok haddress, integer?_of_whole hsmall.1
      (isNegative_of_not_isNotPositive hsmall.2) hgreat⟩

/-- A reveal: both halves, or neither. -/
def ReadsReveal (p2shHash p2shHex : Param) : Option RevealParams → Prop
  | none => p2shHash.isOff = true ∧ p2shHex.isOff = true
  | some r => (∃ s, p2shHash = .string s ∧ r.p2shHash.val = text s) ∧
      ∃ s, p2shHex = .string s ∧ r.p2shHex.val = text s

theorem reveal_of_ok {p2shHash p2shHex : Param} {r : Option RevealParams}
    (h : validateP2shParams p2shHash p2shHex = .ok r) : ReadsReveal p2shHash p2shHex r := by
  unfold validateP2shParams at h
  split_ifs at h with habsent
  · cases h
    exact Bool.and_eq_true_iff.mp habsent
  · obtain ⟨_, -, h⟩ := bind_eq_ok.mp h
    obtain ⟨hash, hhash, h⟩ := bind_eq_ok.mp h
    obtain ⟨⟨htxid⟩, -, h⟩ := bind_eq_ok.mp h
    obtain ⟨hex, hhex, h⟩ := bind_eq_ok.mp h
    obtain ⟨⟨hne⟩, -, h⟩ := bind_eq_ok.mp h
    obtain ⟨⟨hle⟩, -, h⟩ := bind_eq_ok.mp h
    obtain ⟨⟨heven⟩, -, h⟩ := bind_eq_ok.mp h
    cases h
    exact ⟨⟨hash, requireString_eq_ok.mp hhash, rfl⟩, hex, requireString_eq_ok.mp hhex, rfl⟩

theorem pubkey_of_ok {pubkey : Param} {k : Option (Pubkey C)} (h : validatePubkey C pubkey = .ok k) :
    Reads Param.isNullish (fun p k => p = .string k.source.val) pubkey k := by
  unfold validatePubkey at h
  split_ifs at h with habsent
  · cases h
    exact habsent
  · obtain ⟨_, -, h⟩ := bind_eq_ok.mp h
    obtain ⟨source, hsource, h⟩ := bind_eq_ok.mp h
    obtain ⟨⟨hplain⟩, -, h⟩ := bind_eq_ok.mp h
    obtain ⟨⟨hcurve⟩, -, h⟩ := bind_eq_ok.mp h
    cases h
    exact address_of_ok hsource

theorem compressedPubKey_of_ok {compressedPubKey : Param} {k : Option (CompressedKey C)}
    (h : validateCompressedPubKey C compressedPubKey = .ok k) :
    Reads Param.isNullish (fun p k => ∃ s, p = .string s ∧ k.val = text s) compressedPubKey k := by
  unfold validateCompressedPubKey at h
  split_ifs at h with habsent
  · cases h
    exact habsent
  · obtain ⟨s, hs, h⟩ := bind_eq_ok.mp h
    obtain ⟨⟨hkey⟩, -, h⟩ := bind_eq_ok.mp h
    obtain ⟨⟨hcurve⟩, -, h⟩ := bind_eq_ok.mp h
    cases h
    exact ⟨s, requireString_eq_ok.mp hs, rfl⟩

theorem change_of_ok {change : Param} {a : Option AddressText} (h : validateChange change = .ok a) :
    Reads Param.isNullish (fun p a => p = .string a.val) change a := by
  unfold validateChange at h
  split_ifs at h with habsent
  · cases h
    exact habsent
  · cases haddress : validateAddress change "address" with
    | error e =>
      rw [haddress] at h
      cases h
    | ok address =>
      rw [haddress] at h
      cases h
      exact address_of_ok haddress

theorem data_of_ok {value : Param} {fieldName : String}
    {s : {s : Option CodeUnits // XChain.validateDataParam s fieldName = .ok s}}
    (h : validateDataParam value fieldName = .ok s) : ReadsText value s.val := by
  unfold validateDataParam at h
  obtain ⟨given, hgiven, h⟩ := bind_eq_ok.mp h
  obtain ⟨⟨kept, hkept⟩, -, h⟩ := bind_eq_ok.mp h
  obtain rfl := validateDataParam_same hkept
  cases h
  cases value with
  | undefined | null =>
    cases hgiven
    rfl
  | string s =>
    cases hgiven
    rfl
  | bool | number | bigint | array | object => cases hgiven

/-- An encoding: absent, or a name of the list. -/
def ReadsEncoding (p : Param) (encoding : EncodingChoice) : Prop :=
  (p.isNullish = true ∧ encoding = .default) ∨
    ∃ name, (name, encoding) ∈ validEncodings ∧ p = .plain name.toList

theorem encoding_of_ok {encoding : Param} {choice : EncodingChoice}
    (h : validateEncoding encoding = .ok choice) : ReadsEncoding encoding choice := by
  unfold validateEncoding at h
  split at h
  · cases h
    exact .inl ⟨rfl, rfl⟩
  · cases h
    exact .inl ⟨rfl, rfl⟩
  next s =>
    split at h
    next e he =>
      cases h
      have hname : units e.1.toList = s := by simpa using List.find?_some he
      exact .inr ⟨e.1, List.mem_of_find?_eq_some he, congrArg Param.string hname.symm⟩
    · cases h
  · cases h

/-! ## The request -/

/-- An object whose keys are all known. -/
def KnownKeys (p : Param) (valid : List String) : Prop :=
  ∃ fields, p = .object fields ∧ ∀ f ∈ fields, f.1 ∈ valid

theorem knownKeys_of_ok {p : Param} {valid : List String} {message : String → String} {u : Unit}
    (hobject : p.isObject = true) (h : checkKeys p valid message = .ok u) : KnownKeys p valid := by
  cases p with
  | object fields =>
    refine ⟨fields, rfl, fun f hf => ?_⟩
    simp only [checkKeys] at h
    split at h
    · cases h
    next hnone => simpa using List.find?_eq_none.mp hnone f hf
  | undefined | null | bool | number | string | bigint | array => cases hobject

structure ReadsOptions (p : Param) (o : CreateTxOptions) : Prop where
  known : p.isNullish = true ∨ KnownKeys p validCreateTxOptions
  signerSupportsTapscript : ReadsFlag (p.get "signerSupportsTapscript") o.signerSupportsTapscript
  exactInputs : ReadsFlag (p.get "exactInputs") o.exactInputs

theorem options_of_ok {options : Param} {o : CreateTxOptions}
    (h : validateCreateTxOptions options = .ok o) : ReadsOptions options o := by
  unfold validateCreateTxOptions at h
  split_ifs at h with habsent
  · cases h
    cases options with
    | undefined | null => exact ⟨.inl rfl, rfl, rfl⟩
    | bool | number | string | bigint | array | object => cases habsent
  · obtain ⟨_, hobject, h⟩ := bind_eq_ok.mp h
    obtain ⟨_, hkeys, h⟩ := bind_eq_ok.mp h
    obtain ⟨tapscript, htapscript, h⟩ := bind_eq_ok.mp h
    obtain ⟨exact, hexact, h⟩ := bind_eq_ok.mp h
    cases h
    exact ⟨.inr (knownKeys_of_ok (ensure_eq_ok.mp hobject) hkeys), readsFlag_of_ok htapscript,
      readsFlag_of_ok hexact⟩

/-- Every field of the request is what the params say, and they say nothing else. -/
structure Denotes (p : Param) (v : CreateTxParams C) : Prop where
  known : KnownKeys p validCreateTxParams
  data : ReadsText (p.get "data") v.action.data
  rawData : ReadsText (p.get "rawData") v.action.rawData
  encoding : ReadsEncoding (p.get "encoding") v.action.encoding
  pubkey : Reads Param.isNullish (fun p k => p = .string k.source.val) (p.get "pubkey")
    v.payment.pubkey
  fee : Reads Param.isOff (fun p n => ReadsInteger p n.val) (p.get "fee") v.payment.fee
  feePerKb : Reads Param.isOff (ReadsRate C) (p.get "feePerKb") v.payment.feePerKb
  dust : Reads Param.isOff (fun p n => ReadsInteger p n.val) (p.get "dust") v.payment.dust
  utxos : Reads Param.isNullish (fun p l => ReadsList ReadsUtxo p l.val) (p.get "utxos")
    v.payment.utxos
  customOutputs : Reads Param.isNullish (fun p l => ReadsList ReadsOutput p l.val)
    (p.get "customOutputs") v.payment.customOutputs
  feeQuote : Reads Param.isNullish ReadsQuote (p.get "feeQuote") v.payment.feeQuote
  reveal : ReadsReveal (p.get "p2shHash") (p.get "p2shHex") v.payment.reveal
  compressedPubKey : Reads Param.isNullish (fun p k => ∃ s, p = .string s ∧ k.val = text s)
    (p.get "compressedPubKey") v.payment.compressedPubKey
  change : Reads Param.isNullish (fun p a => p = .string a.val) (p.get "change") v.payment.change
  rbf : ReadsFlag (p.get "rbf") v.policy.rbf
  unconfirmed : ReadsFlag (p.get "unconfirmed") v.policy.unconfirmed
  attachPrevTx : ReadsFlag (p.get "attachPrevTx") v.policy.attachPrevTx
  compress : ReadsFlag (p.get "compress") v.policy.compress
  options : ReadsOptions (p.get "options") v.policy.options

/-- **Nothing is accepted as something else.** -/
theorem denotes_of_validateAll {p : Param} {v : CreateTxParams C} (h : validateAll C p = .ok v) :
    Denotes p v := by
  unfold validateAll at h
  obtain ⟨_, hobject, h⟩ := bind_eq_ok.mp h
  obtain ⟨_, hkeys, h⟩ := bind_eq_ok.mp h
  obtain ⟨action, haction, h⟩ := bind_eq_ok.mp h
  obtain ⟨payment, hpayment, h⟩ := bind_eq_ok.mp h
  obtain ⟨⟨multisignKey⟩, -, h⟩ := bind_eq_ok.mp h
  obtain ⟨⟨taprootKey⟩, -, h⟩ := bind_eq_ok.mp h
  obtain ⟨⟨taprootReveal⟩, -, h⟩ := bind_eq_ok.mp h
  obtain ⟨⟨identified⟩, -, h⟩ := bind_eq_ok.mp h
  obtain ⟨policy, hpolicy, h⟩ := bind_eq_ok.mp h
  cases h
  unfold validateActionFields at haction
  obtain ⟨⟨data, _⟩, hdata, h⟩ := bind_eq_ok.mp haction
  obtain ⟨⟨rawData, _⟩, hrawData, h⟩ := bind_eq_ok.mp h
  obtain ⟨encoding, hencoding, h⟩ := bind_eq_ok.mp h
  obtain ⟨_, -, h⟩ := bind_eq_ok.mp h
  obtain ⟨_, -, h⟩ := bind_eq_ok.mp h
  obtain ⟨_, -, h⟩ := bind_eq_ok.mp h
  cases h
  unfold validatePaymentFields at hpayment
  obtain ⟨pubkey, hpubkey, h⟩ := bind_eq_ok.mp hpayment
  obtain ⟨fee, hfee, h⟩ := bind_eq_ok.mp h
  obtain ⟨feePerKb, hfeePerKb, h⟩ := bind_eq_ok.mp h
  obtain ⟨dust, hdust, h⟩ := bind_eq_ok.mp h
  obtain ⟨utxos, hutxos, h⟩ := bind_eq_ok.mp h
  obtain ⟨customOutputs, hcustomOutputs, h⟩ := bind_eq_ok.mp h
  obtain ⟨feeQuote, hfeeQuote, h⟩ := bind_eq_ok.mp h
  obtain ⟨reveal, hreveal, h⟩ := bind_eq_ok.mp h
  obtain ⟨compressedPubKey, hcompressedPubKey, h⟩ := bind_eq_ok.mp h
  obtain ⟨change, hchange, h⟩ := bind_eq_ok.mp h
  cases h
  unfold validateUtxoArray at hutxos
  unfold validateCustomOutputs at hcustomOutputs
  unfold validatePolicyFields at hpolicy
  obtain ⟨rbf, hrbf, h⟩ := bind_eq_ok.mp hpolicy
  obtain ⟨unconfirmed, hunconfirmed, h⟩ := bind_eq_ok.mp h
  obtain ⟨attachPrevTx, hattachPrevTx, h⟩ := bind_eq_ok.mp h
  obtain ⟨compress, hcompress, h⟩ := bind_eq_ok.mp h
  obtain ⟨options, hoptions, h⟩ := bind_eq_ok.mp h
  cases h
  exact {
    known := knownKeys_of_ok (ensure_eq_ok.mp hobject) hkeys
    data := data_of_ok hdata
    rawData := data_of_ok hrawData
    encoding := encoding_of_ok hencoding
    pubkey := pubkey_of_ok hpubkey
    fee := fee_of_ok hfee
    feePerKb := rate_of_ok hfeePerKb
    dust := fee_of_ok hdust
    utxos := items_of_ok (R := ReadsUtxo) (fun _ _ _ h => utxo_of_ok h) hutxos
    customOutputs := items_of_ok (R := ReadsOutput) (fun _ _ _ h => output_of_ok h) hcustomOutputs
    feeQuote := quote_of_ok hfeeQuote
    reveal := reveal_of_ok hreveal
    compressedPubKey := compressedPubKey_of_ok hcompressedPubKey
    change := change_of_ok hchange
    rbf := readsFlag_of_ok hrbf
    unconfirmed := readsFlag_of_ok hunconfirmed
    attachPrevTx := readsFlag_of_ok hattachPrevTx
    compress := readsFlag_of_ok hcompress
    options := options_of_ok hoptions }

end XChain.Validator
