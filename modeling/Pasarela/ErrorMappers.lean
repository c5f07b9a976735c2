import Pasarela.Breaker

/-!
# The error mappers (`providers/adapters/*/*-error.mapper.ts`)

Each adapter turns what its client throws into a `PaymentException`. A mapper never returns: here it
is the value that it throws.

* `throwMapped`: the lookup that all of them end with. A key that names a property of
  `Object.prototype` finds that property, which is no code: the constructor of `PaymentException`
  throws a `TypeError` there.
* `unlessUnavailable`: the check for a status of the server's own errors before it.
* `Named`, `Mapped`: the keys and the answers for which these give a code of the catalog. A theorem
  for each mapper says so of what it reads.
* `FromMapper`: a mapper throws a code of the catalog or a `TypeError`, and nothing of the client's.
-/

namespace Pasarela

open Js (Json Found atLeast isNum nullish optIndex optMember str)

/-- `throw new PaymentException(map[key] ?? other, detail)` (module doc). -/
def throwMapped (map : List (String × PaymentErrorCode)) (other : PaymentErrorCode)
    (key detail : Option Json) : Thrown :=
  match str key with
  | none => .raw .typeError
  | some k =>
    match (Js.lookup map k).orElse other with
    | .own code => .payment code detail
    | _ => .raw .typeError

/-- `if (status >= 500) throw new PaymentException(PROVIDER_UNAVAILABLE)`, and `t` otherwise. -/
def unlessUnavailable (status : Option Json) (t : Thrown) : Thrown :=
  match atLeast 500 status with
  | none => .raw .typeError
  | some true => .payment .providerUnavailable none
  | some false => t

/-- The key has a text, which is no property of `Object.prototype`. -/
def Named (key : Option Json) : Prop := ∃ k ∈ str key, k ∉ Js.objectPrototype

/-- The status says that the server failed, or the key is one that can be looked up. -/
def Mapped (status key : Option Json) : Prop :=
  atLeast 500 status = some true ∨ atLeast 500 status = some false ∧ Named key

instance (key : Option Json) : Decidable (Named key) := inferInstanceAs (Decidable (∃ _ ∈ _, _))

instance (status key : Option Json) : Decidable (Mapped status key) :=
  inferInstanceAs (Decidable (_ ∨ _ ∧ _))

/-- A literal whose names are its own. -/
def Plain (map : List (String × PaymentErrorCode)) : Prop :=
  ∀ k ∈ Js.objectPrototype, map.lookup k = none

theorem classified_throwMapped_iff {map : List (String × PaymentErrorCode)} (hmap : Plain map)
    (other : PaymentErrorCode) (key detail : Option Json) :
    (throwMapped map other key detail).Classified ↔ Named key := by
  unfold throwMapped Named
  cases str key with
  | none => simp
  | some k =>
    by_cases hk : k ∈ Js.objectPrototype
    · simp [Js.lookup, hmap k hk, hk, Found.orElse]
    · cases hl : map.lookup k with
      | none => simp [Js.lookup, hl, hk, Found.orElse]
      | some code => simp [Js.lookup, hl, hk, Found.orElse]

theorem classified_unlessUnavailable_iff {status : Option Json} {t : Thrown} :
    (unlessUnavailable status t).Classified ↔
      atLeast 500 status = some true ∨ atLeast 500 status = some false ∧ t.Classified := by
  unfold unlessUnavailable
  split
  next h => simp [h]
  next h => simp [h]
  next h => simp [h]

/-- A check of the status and then a lookup. -/
theorem classified_mapped_iff {map : List (String × PaymentErrorCode)} (hmap : Plain map)
    (other : PaymentErrorCode) (status key detail : Option Json) :
    (unlessUnavailable status (throwMapped map other key detail)).Classified ↔
      Mapped status key := by
  rw [classified_unlessUnavailable_iff, classified_throwMapped_iff hmap, Mapped]

/-- What a mapper throws (module doc). -/
def FromMapper (t : Thrown) : Prop := t.Classified ∨ t = .raw .typeError

theorem FromMapper.payment (code : PaymentErrorCode) (detail : Option Json) :
    FromMapper (.payment code detail) := .inl (Thrown.classified_payment code detail)

theorem fromMapper_throwMapped (map : List (String × PaymentErrorCode)) (other : PaymentErrorCode)
    (key detail : Option Json) : FromMapper (throwMapped map other key detail) := by
  unfold throwMapped
  split
  next => exact .inr rfl
  next =>
    split
    next => exact .payment _ _
    next => exact .inr rfl

theorem FromMapper.unlessUnavailable {t : Thrown} (h : FromMapper t) (status : Option Json) :
    FromMapper (unlessUnavailable status t) := by
  unfold Pasarela.unlessUnavailable
  split
  next => exact .inr rfl
  next => exact .payment _ _
  next => exact h

/-- The `catch` of the breaker leaves what a mapper throws as it is. -/
theorem FromMapper.classified_reclassify_iff {t : Thrown} (h : FromMapper t) :
    (CircuitBreakerService.reclassify t).Classified ↔ t.Classified := by
  rw [CircuitBreakerService.classified_reclassify_iff, or_iff_left]
  rintro ⟨e, rfl, hrec⟩
  have he : e = .typeError := by
    rcases h with h | h
    · exact absurd h (Thrown.not_classified_raw e)
    · exact Thrown.raw.inj h
  subst he
  rcases hrec with hcode | hname
  · cases hcode
  · revert hname
    simp [RawError.get, RawError.typeError, RawError.json, optMember, Json.prop]

/-! ## Stripe -/

namespace StripeProvider

def cardCodeMap : List (String × PaymentErrorCode) := [
  ("insufficient_funds", .insufficientFunds),
  ("card_declined", .cardDeclined),
  ("expired_card", .cardExpired),
  ("incorrect_number", .cardInvalidNumber),
  ("invalid_number", .cardInvalidNumber),
  ("incorrect_cvc", .cardInvalidCvv),
  ("invalid_cvc", .cardInvalidCvv),
  ("invalid_expiry_month", .cardInvalidExpiry),
  ("invalid_expiry_year", .cardInvalidExpiry),
  ("card_not_supported", .cardNotSupported),
  ("do_not_honor", .doNotHonor),
  ("lost_card", .lostCard),
  ("stolen_card", .stolenCard),
  ("fraudulent", .fraudSuspected),
  ("pickup_card", .fraudSuspected),
  ("transaction_not_allowed", .cardNotSupported),
  ("duplicate_transaction", .duplicateTransaction),
  ("currency_not_supported", .currencyNotSupported),
  ("amount_too_small", .amountTooSmall),
  ("amount_too_large", .amountTooLarge),
  ("authentication_required", .authenticationRequired),
  ("payment_intent_authentication_failure", .authenticationFailed)]

/-- `err.code ?? ''`. -/
def cardCode (err : RawError) : Option Json := nullish (err.get "code") (some (.str ""))

def mapStripeError (err : RawError) : Thrown :=
  match err with
  | .error .stripeCard _ => throwMapped cardCodeMap .cardDeclined (cardCode err) (err.get "message")
  | .error .stripeConnection _ => .payment .providerUnavailable (err.get "message")
  | .error .stripeApi _ => .payment .providerUnavailable (err.get "message")
  | .error .stripeRateLimit _ => .payment .providerUnavailable (some (.str "Stripe rate limit"))
  | .error .stripeAuthentication _ =>
    .payment .providerUnknown (some (.str "Stripe authentication error"))
  | .error .other _ => .payment .providerUnknown (err.get "message")
  | .value v =>
    match str v with
    | some message => .payment .providerUnknown (some (.str message))
    | none => .raw .typeError

/-- The errors that the mapper has a code for. -/
def Maps (err : RawError) : Prop :=
  match err with
  | .error .stripeCard _ => Named (cardCode err)
  | .error _ _ => True
  | .value v => str v ≠ none

theorem classified_mapStripeError_iff {err : RawError} :
    (mapStripeError err).Classified ↔ Maps err := by
  cases err with
  | value v => cases h : str v <;> simp [mapStripeError, Maps, h]
  | error cls props =>
    cases cls with
    | stripeCard => exact classified_throwMapped_iff (by unfold Plain; decide) _ _ _
    | _ => simp [mapStripeError, Maps]

example : mapStripeError (.error .stripeCard [("code", .str "constructor")]) = .raw .typeError := rfl

theorem fromMapper_mapStripeError (err : RawError) : FromMapper (mapStripeError err) := by
  unfold mapStripeError
  split
  next => exact fromMapper_throwMapped _ _ _ _
  iterate 5 exact .payment _ _
  next =>
    split
    next => exact .payment _ _
    next => exact .inr rfl

end StripeProvider

/-! ## MercadoPago -/

namespace MercadoPagoProvider

def statusDetailMap : List (String × PaymentErrorCode) := [
  ("cc_rejected_insufficient_amount", .insufficientFunds),
  ("cc_rejected_bad_filled_card_number", .cardInvalidNumber),
  ("cc_rejected_bad_filled_security_code", .cardInvalidCvv),
  ("cc_rejected_bad_filled_date", .cardInvalidExpiry),
  ("cc_rejected_card_disabled", .cardDeclined),
  ("cc_rejected_duplicated_payment", .duplicateTransaction),
  ("cc_rejected_high_risk", .fraudSuspected),
  ("cc_rejected_max_attempts", .cardDeclined),
  ("cc_rejected_other_reason", .cardDeclined),
  ("cc_rejected_call_for_authorize", .doNotHonor),
  ("cc_amount_rate_limit_exceeded", .exceedsLimit),
  ("pending_waiting_payment", .authenticationRequired),
  ("pending_review_manual", .processingError),
  ("expired", .voucherExpired)]

def mapMercadoPagoError (statusDetail httpStatus : Option Json) : Thrown :=
  if isNum httpStatus 401 || isNum httpStatus 403 then
    .payment .providerUnavailable (some (.str "Credenciales de MercadoPago inválidas"))
  else if httpStatus.any Json.truthy then
    unlessUnavailable httpStatus
      (throwMapped statusDetailMap .cardDeclined statusDetail statusDetail)
  else throwMapped statusDetailMap .cardDeclined statusDetail statusDetail

/-- The pairs that the mapper has a code for. -/
def Maps (statusDetail httpStatus : Option Json) : Prop :=
  httpStatus = some (.num 401) ∨ httpStatus = some (.num 403) ∨ Mapped httpStatus statusDetail

/-- A status that is not truthy is no status of the server's own errors. -/
theorem atLeast_of_not_truthy {v : Option Json} (h : v.any Json.truthy = false) :
    atLeast 500 v = some false := by
  match v with
  | none => rfl
  | some .null => rfl
  | some (.bool b) => cases b <;> rfl
  | some (.num n) =>
    have hn : n = 0 := by simpa [Json.truthy] using h
    subst hn
    rfl
  | some (.str s) =>
    have hs : s = "" := by simpa [Json.truthy] using h
    subst hs
    decide +kernel
  | some (.float _) | some (.arr _) | some (.obj _) => cases h

theorem classified_mapMercadoPagoError_iff {statusDetail httpStatus : Option Json} :
    (mapMercadoPagoError statusDetail httpStatus).Classified ↔ Maps statusDetail httpStatus := by
  have hplain : Plain statusDetailMap := by unfold Plain; decide
  unfold mapMercadoPagoError Maps
  rw [← Js.isNum_iff, ← Js.isNum_iff]
  by_cases hauth : (isNum httpStatus 401 || isNum httpStatus 403) = true
  · have hor : isNum httpStatus 401 = true ∨ isNum httpStatus 403 = true := by
      rwa [← Bool.or_eq_true]
    rw [if_pos hauth, ← or_assoc]
    exact iff_of_true (Thrown.classified_payment _ _) (.inl hor)
  · have hor : ¬ (isNum httpStatus 401 = true ∨ isNum httpStatus 403 = true) := by
      rwa [← Bool.or_eq_true]
    rw [if_neg hauth, ← or_assoc, or_iff_right hor]
    by_cases htruthy : httpStatus.any Json.truthy = true
    · rw [if_pos htruthy, classified_mapped_iff hplain]
    · have hstatus := atLeast_of_not_truthy (Bool.eq_false_of_not_eq_true htruthy)
      rw [if_neg htruthy, classified_throwMapped_iff hplain, Mapped, hstatus]
      simp

theorem fromMapper_mapMercadoPagoError (statusDetail httpStatus : Option Json) :
    FromMapper (mapMercadoPagoError statusDetail httpStatus) := by
  have hlookup := fromMapper_throwMapped statusDetailMap .cardDeclined statusDetail statusDetail
  unfold mapMercadoPagoError
  split
  next => exact .payment _ _
  next =>
    split
    next => exact hlookup.unlessUnavailable httpStatus
    next => exact hlookup

end MercadoPagoProvider

/-! ## Pagar.me -/

namespace PagarmeProvider

def codeMap : List (String × PaymentErrorCode) := [
  ("action_forbidden", .cardDeclined),
  ("card_declined", .cardDeclined),
  ("insufficient_funds", .insufficientFunds),
  ("expired_card", .cardExpired),
  ("invalid_card_number", .cardInvalidNumber),
  ("invalid_cvv", .cardInvalidCvv),
  ("invalid_expiration_date", .cardInvalidExpiry),
  ("fraud_suspected", .fraudSuspected),
  ("processing_error", .processingError),
  ("pix_key_not_found", .pixKeyNotFound),
  ("invalid_document", .documentInvalid)]

/-- `errors[0]`. -/
def firstError (error : RawError) : Option Json :=
  optIndex (nullish (optMember (optMember (error.get "response") "data") "errors")
    (some (.arr []))) 0

def firstCode (error : RawError) : Option Json :=
  nullish (optMember (firstError error) "code") (some (.str ""))

def mapPagarmeError (error : RawError) : Thrown :=
  unlessUnavailable (optMember (error.get "response") "status")
    (throwMapped codeMap .providerUnknown (firstCode error)
      (optMember (firstError error) "message"))

theorem classified_mapPagarmeError_iff {error : RawError} :
    (mapPagarmeError error).Classified ↔
      Mapped (optMember (error.get "response") "status") (firstCode error) :=
  classified_mapped_iff (by unfold Plain; decide) _ _ _ _

theorem fromMapper_mapPagarmeError (error : RawError) : FromMapper (mapPagarmeError error) :=
  (fromMapper_throwMapped _ _ _ _).unlessUnavailable _

end PagarmeProvider

/-! ## Conekta -/

namespace ConektaProvider

def codeMap : List (String × PaymentErrorCode) := [
  ("conekta.errors.processing.bank.insufficient_funds", .insufficientFunds),
  ("conekta.errors.processing.bank.card_declined", .cardDeclined),
  ("conekta.errors.processing.bank.expired_card", .cardExpired),
  ("conekta.errors.processing.bank.invalid_card", .cardInvalidNumber),
  ("conekta.errors.processing.bank.suspected_fraud", .fraudSuspected),
  ("conekta.errors.processing.charge.card_declined", .cardDeclined),
  ("conekta.errors.processing.order.expired", .voucherExpired),
  ("conekta.errors.request.validation.required", .providerUnknown)]

/-- `details[0]`. -/
def firstDetail (error : RawError) : Option Json :=
  optIndex (nullish (optMember (optMember (error.get "response") "data") "details")
    (some (.arr []))) 0

def firstCode (error : RawError) : Option Json :=
  nullish (nullish (optMember (firstDetail error) "code")
    (optMember (optMember (error.get "response") "data") "code")) (some (.str ""))

def mapConektaError (error : RawError) : Thrown :=
  unlessUnavailable (optMember (error.get "response") "status")
    (throwMapped codeMap .providerUnknown (firstCode error)
      (nullish (optMember (firstDetail error) "message") (error.get "message")))

theorem classified_mapConektaError_iff {error : RawError} :
    (mapConektaError error).Classified ↔
      Mapped (optMember (error.get "response") "status") (firstCode error) :=
  classified_mapped_iff (by unfold Plain; decide) _ _ _ _

theorem fromMapper_mapConektaError (error : RawError) : FromMapper (mapConektaError error) :=
  (fromMapper_throwMapped _ _ _ _).unlessUnavailable _

end ConektaProvider

/-! ## dLocal -/

namespace DlocalProvider

def codeMap : List (String × PaymentErrorCode) := [
  ("300", .cardDeclined),
  ("301", .insufficientFunds),
  ("302", .cardDeclined),
  ("303", .cardInvalidCvv),
  ("304", .cardInvalidNumber),
  ("305", .cardExpired),
  ("306", .authenticationRequired),
  ("307", .doNotHonor),
  ("309", .fraudSuspected),
  ("401", .documentInvalid),
  ("402", .blacklistedUser),
  ("500", .processingError)]

/-- `error?.response?.data?.code ?? 500`. -/
def errorCode (error : RawError) : Option Json :=
  nullish (optMember (optMember (error.get "response") "data") "code") (some (.num 500))

def mapDlocalError (error : RawError) : Thrown :=
  unlessUnavailable (optMember (error.get "response") "status")
    (throwMapped codeMap .providerUnknown (errorCode error)
      (optMember (optMember (error.get "response") "data") "message"))

theorem classified_mapDlocalError_iff {error : RawError} :
    (mapDlocalError error).Classified ↔
      Mapped (optMember (error.get "response") "status") (errorCode error) :=
  classified_mapped_iff (by unfold Plain; decide) _ _ _ _

theorem fromMapper_mapDlocalError (error : RawError) : FromMapper (mapDlocalError error) :=
  (fromMapper_throwMapped _ _ _ _).unlessUnavailable _

end DlocalProvider

end Pasarela
