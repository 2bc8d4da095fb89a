import XChainEncoder.FeeQuotes
import XChainEncoder.RequestReadings

/-!
# Refusals of a request

Why params of `create_tx` are refused, and what is read of those that are not.

* `Invalid`: an error about the params, as the interface reports it;
* `refuses_validateAddress`, .., `refuses_validateAll`: no check raises another;
* `validateAll_reads`: **the checks read every request, refuse the rest as invalid, and take nothing
  for something else**.
-/

namespace XChain.Validator

variable {C : Context}

/-! ## Errors about the params -/

/-- An error about the params, as the interface reports it. -/
def Invalid (e : BuildError) : Prop := (toRpcError e).code = -32602

theorem invalid_type (message : String) : Invalid (ParamTypeError message) := rfl

theorem invalid_range (message : String) : Invalid (ParamRangeError message) := rfl

section Refusals

variable {P : BuildError → Prop} {e : BuildError}

theorem refuses_require {p : Prop} [Decidable p] (h : P e) : Refuses P (require p e) := by
  unfold require
  split_ifs
  · exact refuses_ok _
  · exact refuses_error h

theorem refuses_requireString {p : Param} (h : P e) : Refuses P (requireString p e) := by
  unfold requireString
  split
  · exact refuses_ok _
  · exact refuses_error h

theorem refuses_optionalString {p : Param} (h : P e) : Refuses P (optionalString p e) := by
  unfold optionalString
  split
  · exact refuses_ok _
  · exact refuses_ok _
  · exact refuses_ok _
  · exact refuses_error h

theorem refuses_keep {α : Type} {x : Except BuildError α} (h : Refuses P x) : Refuses P (keep x) := by
  cases x with
  | ok a => exact refuses_ok _
  | error e => exact refuses_error (h.error e rfl)

end Refusals

theorem refuses_parseSatoshiAmount (numberText : JsNumber → String) (raw : JsValue) (label : String)
    (allowBig : Bool) : Refuses Invalid (JsValue.parseSatoshiAmount numberText raw label allowBig) := by
  unfold JsValue.parseSatoshiAmount
  split
  · split_ifs
    all_goals first | exact refuses_ok _ | exact refuses_error (invalid_range _)
  · dsimp only
    split_ifs
    · exact refuses_error (invalid_range _)
    · exact refuses_ok _
    · split
      · split_ifs
        · exact refuses_error (invalid_range _)
        · exact refuses_ok _
      · exact refuses_error (invalid_range _)

theorem refuses_validateAddress (p : Param) (label : String) :
    Refuses Invalid (validateAddress p label) :=
  refuses_bind (refuses_requireString (invalid_type _)) fun _ =>
    refuses_bind (refuses_require (invalid_type _)) fun _ =>
      refuses_bind (refuses_require (invalid_type _)) fun _ => refuses_ok _

theorem refuses_parseAmount (raw : Param) (label : String) :
    Refuses Invalid (parseAmount C raw label) :=
  refuses_bind (refuses_parseSatoshiAmount _ _ _ _) fun _ =>
    refuses_bind (refuses_require (invalid_range _)) fun _ => refuses_ok _

theorem refuses_validateOptionalBoolean (raw : Param) (label : String) :
    Refuses Invalid (validateOptionalBoolean raw label) := by
  unfold validateOptionalBoolean
  split
  all_goals first | exact refuses_ok _ | exact refuses_error (invalid_type _)

theorem refuses_validatePubkey (p : Param) : Refuses Invalid (validatePubkey C p) := by
  unfold validatePubkey
  split_ifs
  · exact refuses_ok _
  · exact refuses_bind (refuses_ensure (invalid_type _)) fun _ =>
      refuses_bind (refuses_validateAddress _ _) fun _ =>
        refuses_bind (refuses_require (invalid_type _)) fun _ =>
          refuses_bind (refuses_require (invalid_type _)) fun _ => refuses_ok _

theorem refuses_validateCompressedPubKey (p : Param) :
    Refuses Invalid (validateCompressedPubKey C p) := by
  unfold validateCompressedPubKey
  split_ifs
  · exact refuses_ok _
  · exact refuses_bind (refuses_requireString (invalid_type _)) fun _ =>
      refuses_bind (refuses_require (invalid_type _)) fun _ =>
        refuses_bind (refuses_require (invalid_type _)) fun _ => refuses_ok _

theorem refuses_validateChange (p : Param) : Refuses Invalid (validateChange p) := by
  unfold validateChange
  split_ifs
  · exact refuses_ok _
  · exact refuses_map (refuses_validateAddress _ _)

theorem refuses_validateFeeAmount (raw : Param) (malformed label : String)
    (numberText : JsNumber → String) :
    Refuses Invalid (validateFeeAmount raw malformed label numberText) := by
  unfold validateFeeAmount
  split_ifs
  · exact refuses_ok _
  · exact refuses_bind (refuses_ensure (invalid_type _)) fun _ =>
      refuses_bind (refuses_ensure (invalid_range _)) fun _ =>
        refuses_bind (refuses_ensure (invalid_range _)) fun _ =>
          refuses_bind (refuses_require (invalid_range _)) fun _ => refuses_ok _

theorem refuses_validateFeePerKb (p : Param) : Refuses Invalid (validateFeePerKb C p) := by
  have hnumber : Refuses Invalid (feePerKbNumber C p) := by
    unfold feePerKbNumber
    split
    · exact refuses_ok _
    · split_ifs
      · exact refuses_ok _
      · exact refuses_error (invalid_type _)
    · exact refuses_error (invalid_type _)
  unfold validateFeePerKb
  split_ifs
  · exact refuses_ok _
  · refine refuses_bind hnumber fun num => ?_
    cases num with
    | finite rate =>
      exact refuses_bind (refuses_require (invalid_range _)) fun _ =>
        refuses_bind (refuses_require (invalid_range _)) fun _ => refuses_ok _
    | nan => exact refuses_error (invalid_type _)
    | infinity negative => exact refuses_error (invalid_type _)

theorem refuses_validateOutpoint (txid vout : Param) (txidLabel voutLabel : String) :
    Refuses Invalid (validateOutpoint txid vout txidLabel voutLabel) := by
  refine refuses_bind (refuses_requireString (invalid_type _)) fun _ =>
    refuses_bind (refuses_require (invalid_type _)) fun _ => ?_
  cases natural? (toExactInt vout.toValue) with
  | some exact => exact refuses_bind (refuses_require (invalid_type _)) fun _ => refuses_ok _
  | none => exact refuses_error (invalid_type _)

theorem refuses_validateUtxoEntry (entry : Param) (index : ℕ) :
    Refuses Invalid (validateUtxoEntry C entry index) := by
  have hconfirmations : ∀ p, Refuses Invalid (validateConfirmations p index) := by
    intro p
    unfold validateConfirmations
    split_ifs
    · exact refuses_ok _
    · split
      · exact refuses_ok _
      · exact refuses_error (invalid_type _)
  exact refuses_bind (refuses_ensure (invalid_type _)) fun _ =>
    refuses_bind (refuses_validateOutpoint _ _ _ _) fun _ =>
      refuses_bind (refuses_parseAmount _ _) fun _ =>
        refuses_bind (refuses_requireString (invalid_type _)) fun _ =>
          refuses_bind (refuses_require (invalid_type _)) fun _ =>
            refuses_bind (refuses_require (invalid_range _)) fun _ =>
              refuses_bind (refuses_require (invalid_type _)) fun _ =>
                refuses_bind (hconfirmations _) fun _ => refuses_ok _

theorem refuses_validateCustomOutput (output : Param) (index : ℕ) :
    Refuses Invalid (validateCustomOutput C output index) :=
  refuses_bind (refuses_ensure (invalid_type _)) fun _ =>
    refuses_bind (refuses_validateAddress _ _) fun _ =>
      refuses_bind (refuses_parseAmount _ _) fun _ =>
        refuses_bind (refuses_require (invalid_range _)) fun _ =>
          refuses_bind (refuses_require (invalid_range _)) fun _ => refuses_ok _

theorem refuses_validateItems {α : Type} {check : Param → ℕ → Except BuildError α}
    (hcheck : ∀ item i, Refuses Invalid (check item i)) (raw : Param) (label : String) (most : ℕ)
    (tooMany : ℕ → String) : Refuses Invalid (validateItems check raw label most tooMany) := by
  have hitems : ∀ items i, Refuses Invalid (checkItems check items i) := by
    intro items
    induction items with
    | nil => exact fun _ => refuses_ok _
    | cons item items ih =>
      exact fun i => refuses_bind (hcheck item i) fun _ => refuses_bind (ih (i + 1)) fun _ =>
        refuses_ok _
  unfold validateItems
  split
  · exact refuses_ok _
  · exact refuses_ok _
  · exact refuses_bind (refuses_ensure (invalid_range _)) fun _ => refuses_bind (hitems _ _) fun _ =>
      refuses_bind (refuses_require (invalid_range _)) fun _ => refuses_ok _
  · exact refuses_error (invalid_type _)

theorem refuses_validateFeeQuote (p : Param) : Refuses Invalid (validateFeeQuote p) := by
  unfold validateFeeQuote
  split_ifs
  · exact refuses_ok _
  · exact refuses_bind (refuses_ensure (invalid_type _)) fun _ =>
      refuses_bind (refuses_validateAddress _ _) fun _ =>
        refuses_bind (refuses_ensure (invalid_range _)) fun _ =>
          refuses_bind (refuses_ensure (invalid_range _)) fun _ =>
            refuses_bind (refuses_require (invalid_range _)) fun _ =>
              refuses_bind (refuses_require (invalid_range _)) fun _ => refuses_ok _

theorem refuses_validateP2shParams (p2shHash p2shHex : Param) :
    Refuses Invalid (validateP2shParams p2shHash p2shHex) := by
  unfold validateP2shParams
  split_ifs
  · exact refuses_ok _
  · exact refuses_bind (refuses_ensure (invalid_type _)) fun _ =>
      refuses_bind (refuses_requireString (invalid_type _)) fun _ =>
        refuses_bind (refuses_require (invalid_type _)) fun _ =>
          refuses_bind (refuses_requireString (invalid_type _)) fun _ =>
            refuses_bind (refuses_require (invalid_type _)) fun _ =>
              refuses_bind (refuses_require (invalid_type _)) fun _ =>
                refuses_bind (refuses_require (invalid_type _)) fun _ => refuses_ok _

theorem refuses_validateDataParam (p : Param) (fieldName : String) :
    Refuses Invalid (validateDataParam p fieldName) := by
  have hsource : ∀ s, Refuses Invalid (XChain.validateDataParam s fieldName) := by
    intro s
    unfold XChain.validateDataParam
    split
    · exact refuses_ok _
    · split_ifs
      · split
        · exact refuses_error (invalid_range _)
        · exact refuses_ok _
      · exact refuses_ok _
      · exact refuses_error (invalid_range _)
  exact refuses_bind (refuses_optionalString (invalid_type _)) fun _ =>
    refuses_bind (refuses_keep (hsource _)) fun _ => refuses_ok _

theorem refuses_validateEncoding (p : Param) : Refuses Invalid (validateEncoding p) := by
  unfold validateEncoding
  split
  · exact refuses_ok _
  · exact refuses_ok _
  · split
    · exact refuses_ok _
    · exact refuses_error (invalid_type _)
  · exact refuses_error (invalid_type _)

theorem refuses_validateActionFields (params : Param) :
    Refuses Invalid (validateActionFields params) := by
  have hlength : ∀ data rawData encoding,
      Refuses Invalid (validateCombinedDataLength data rawData encoding) := by
    intro data rawData encoding
    unfold validateCombinedDataLength
    split_ifs
    · exact refuses_ok _
    · exact refuses_bind (refuses_ensure (invalid_range _)) fun _ =>
        refuses_ensure (invalid_range _)
  have hpush : ∀ data rawData, Refuses Invalid (validateActionPushDecodability data rawData) :=
    fun _ _ => refuses_bind (refuses_ensure (invalid_range _)) fun _ =>
      refuses_ensure (invalid_range _)
  have hname : ∀ data, Refuses Invalid (validateActionName data) := by
    intro data
    unfold validateActionName
    split
    · exact refuses_ok _
    · exact refuses_error (invalid_range _)
  exact refuses_bind (refuses_validateDataParam _ _) fun _ =>
    refuses_bind (refuses_validateDataParam _ _) fun _ =>
      refuses_bind (refuses_validateEncoding _) fun _ =>
        refuses_bind (refuses_keep (hlength _ _ _)) fun _ =>
          refuses_bind (refuses_keep (hpush _ _)) fun _ =>
            refuses_bind (refuses_keep (hname _)) fun _ => refuses_ok _

theorem refuses_validatePaymentFields (params : Param) :
    Refuses Invalid (validatePaymentFields C params) :=
  refuses_bind (refuses_validatePubkey _) fun _ =>
    refuses_bind (refuses_validateFeeAmount _ _ _ _) fun _ =>
      refuses_bind (refuses_validateFeePerKb _) fun _ =>
        refuses_bind (refuses_validateFeeAmount _ _ _ _) fun _ =>
          refuses_bind (refuses_validateItems refuses_validateUtxoEntry _ _ _ _) fun _ =>
            refuses_bind (refuses_validateItems refuses_validateCustomOutput _ _ _ _) fun _ =>
              refuses_bind (refuses_validateFeeQuote _) fun _ =>
                refuses_bind (refuses_validateP2shParams _ _) fun _ =>
                  refuses_bind (refuses_validateCompressedPubKey _) fun _ =>
                    refuses_bind (refuses_validateChange _) fun _ => refuses_ok _

theorem refuses_checkKeys (p : Param) (valid : List String) (message : String → String) :
    Refuses Invalid (checkKeys p valid message) := by
  unfold checkKeys
  split
  · split
    · exact refuses_error (invalid_type _)
    · exact refuses_ok _
  · exact refuses_ok _

theorem refuses_validatePolicyFields (params : Param) :
    Refuses Invalid (validatePolicyFields params) := by
  have hoptions : ∀ p, Refuses Invalid (validateCreateTxOptions p) := by
    intro p
    unfold validateCreateTxOptions
    split_ifs
    · exact refuses_ok _
    · exact refuses_bind (refuses_ensure (invalid_type _)) fun _ =>
        refuses_bind (refuses_checkKeys _ _ _) fun _ =>
          refuses_bind (refuses_validateOptionalBoolean _ _) fun _ =>
            refuses_bind (refuses_validateOptionalBoolean _ _) fun _ => refuses_ok _
  exact refuses_bind (refuses_validateOptionalBoolean _ _) fun _ =>
    refuses_bind (refuses_validateOptionalBoolean _ _) fun _ =>
      refuses_bind (refuses_validateOptionalBoolean _ _) fun _ =>
        refuses_bind (refuses_validateOptionalBoolean _ _) fun _ =>
          refuses_bind (hoptions _) fun _ => refuses_ok _

/-- A refusal is an error about the params. -/
theorem refuses_validateAll (p : Param) : Refuses Invalid (validateAll C p) :=
  refuses_bind (refuses_ensure (invalid_type _)) fun _ =>
    refuses_bind (refuses_checkKeys _ _ _) fun _ =>
      refuses_bind (refuses_validateActionFields _) fun _ =>
        refuses_bind (refuses_validatePaymentFields _) fun _ =>
          refuses_bind (refuses_require (invalid_type _)) fun _ =>
            refuses_bind (refuses_require (invalid_type _)) fun _ =>
              refuses_bind (refuses_require (invalid_type _)) fun _ =>
                refuses_bind (refuses_require (invalid_range _)) fun _ =>
                  refuses_bind (refuses_validatePolicyFields _) fun _ => refuses_ok _

/-- **Every request can be written as params and is read back from them; any params are refused as
such, or read as a request that says what they say.** -/
theorem validateAll_reads (C : Context) :
    (∀ v : CreateTxParams C, validateAll C v.params = .ok v) ∧
      ∀ p, (∃ v, validateAll C p = .ok v ∧ Denotes p v) ∨
        ∃ e, validateAll C p = .error e ∧ (toRpcError e).code = -32602 := by
  refine ⟨validateAll_params, fun p => ?_⟩
  cases h : validateAll C p with
  | ok v => exact .inl ⟨v, rfl, denotes_of_validateAll h⟩
  | error e => exact .inr ⟨e, rfl, (refuses_validateAll p).error e h⟩

end XChain.Validator
