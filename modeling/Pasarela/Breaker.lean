import Pasarela.Errors
import Pasarela.Js.Compare

/-!
# Thrown values and the breaker (`providers/circuit-breaker.service.ts`)

* `RawError`: what the code outside this repository throws, with the properties that an access
  finds. `Thrown`: what the adapters throw, a `PaymentException` or a raw value.
* `Opossum`: what `fire` of the breaker rejects with. It calls the action only if the breaker admits
  the call (`BreakerState.Admits`).
* `CircuitBreakerService.execute`: one call through a breaker. `reclassify` is its `catch`.
-/

namespace Pasarela

open Js (Json Found isStr optMember str)

/-! ## Thrown values -/

/-- The class of an `Error`: one that the mapper of Stripe asks for with `instanceof`, or another. -/
inductive ErrorClass where
  | stripeCard
  | stripeConnection
  | stripeApi
  | stripeRateLimit
  | stripeAuthentication
  | other
  deriving DecidableEq, Repr

/-- What code outside the repository throws (module doc). -/
inductive RawError where
  /-- A value that is no `Error`. -/
  | value (v : Option Json)
  | error (cls : ErrorClass) (props : List (String × Json))

namespace RawError

/-- The value that a property access reads. -/
def json : RawError → Option Json
  | .value v => v
  | .error _ props => some (.obj props)

/-- `err?.k`. -/
def get (e : RawError) (k : String) : Option Json := optMember e.json k

/-- A `TypeError` of the engine. Its message is the engine's, which the model does not have. -/
def typeError : RawError := .error .other [("name", .str "TypeError"), ("message", .str "TypeError")]

end RawError

/-- The text of a code. -/
def PaymentErrorCode.text : PaymentErrorCode → String
  | .insufficientFunds => "INSUFFICIENT_FUNDS"
  | .exceedsLimit => "EXCEEDS_LIMIT"
  | .cardDeclined => "CARD_DECLINED"
  | .cardExpired => "CARD_EXPIRED"
  | .cardInvalidNumber => "CARD_INVALID_NUMBER"
  | .cardInvalidCvv => "CARD_INVALID_CVV"
  | .cardInvalidExpiry => "CARD_INVALID_EXPIRY"
  | .cardNotSupported => "CARD_NOT_SUPPORTED"
  | .fraudSuspected => "FRAUD_SUSPECTED"
  | .doNotHonor => "DO_NOT_HONOR"
  | .lostCard => "LOST_CARD"
  | .stolenCard => "STOLEN_CARD"
  | .blacklistedUser => "BLACKLISTED_USER"
  | .processingError => "PROCESSING_ERROR"
  | .duplicateTransaction => "DUPLICATE_TRANSACTION"
  | .currencyNotSupported => "CURRENCY_NOT_SUPPORTED"
  | .amountTooSmall => "AMOUNT_TOO_SMALL"
  | .amountTooLarge => "AMOUNT_TOO_LARGE"
  | .voucherExpired => "VOUCHER_EXPIRED"
  | .documentInvalid => "DOCUMENT_INVALID"
  | .pixKeyNotFound => "PIX_KEY_NOT_FOUND"
  | .authenticationRequired => "AUTHENTICATION_REQUIRED"
  | .authenticationFailed => "AUTHENTICATION_FAILED"
  | .providerUnavailable => "PROVIDER_UNAVAILABLE"
  | .providerTimeout => "PROVIDER_TIMEOUT"
  | .providerUnknown => "PROVIDER_UNKNOWN"

/-- No code of the catalog is the code of the library. -/
theorem PaymentErrorCode.text_ne (code : PaymentErrorCode) : code.text ≠ "EOPENBREAKER" := by
  cases code <;> decide

/-- What an adapter throws (module doc). -/
inductive Thrown where
  /-- `new PaymentException(code, detail)`. -/
  | payment (code : PaymentErrorCode) (detail : Option Json)
  | raw (e : RawError)

namespace Thrown

/-- `err?.k`. A `PaymentException` has its own fields and those of an `HttpException`. -/
def get : Thrown → String → Option Json
  | .payment code _, k =>
    [("name", .str "PaymentException"), ("code", .str code.text),
      ("retryable", .bool (catalog code).retryable),
      ("status", .num (catalog code).httpStatus)].lookup k
  | .raw e, k => e.get k

/-- The error is in the vocabulary of the catalog. -/
def Classified (t : Thrown) : Prop := ∃ code detail, t = .payment code detail

@[simp] theorem classified_payment (code : PaymentErrorCode) (detail : Option Json) :
    (Thrown.payment code detail).Classified := ⟨code, detail, rfl⟩

@[simp] theorem not_classified_raw (e : RawError) : ¬ (Thrown.raw e).Classified := by
  rintro ⟨code, detail, h⟩
  cases h

end Thrown

/-! ## The breaker -/

/-- The state of a breaker of the library. A half-open breaker takes one trial call. -/
inductive BreakerState where
  | closed
  | opened
  | halfOpen (pendingClose : Bool)
  deriving DecidableEq, Repr

/-- `fire` calls the action. -/
def BreakerState.Admits : BreakerState → Prop
  | .closed => True
  | .opened => False
  | .halfOpen pendingClose => pendingClose = true

instance (b : BreakerState) : Decidable b.Admits := by
  cases b <;> unfold BreakerState.Admits <;> infer_instance

/-- The state of a breaker that was fired: a half-open one has taken its trial call. -/
def BreakerState.fired : BreakerState → BreakerState
  | .halfOpen _ => .halfOpen false
  | b => b

/-- What the library rejects with by itself. -/
structure Opossum where
  openBreaker : RawError
  timeout : RawError
  openBreaker_code : openBreaker.get "code" = some (.str "EOPENBREAKER")
  timeout_code : timeout.get "code" = some (.str "ETIMEDOUT")
  timeout_name : timeout.get "name" = some (.str "Error")

/-- What an admitted call comes to. -/
inductive Attempt (α : Type) where
  /-- The action settles in time. -/
  | settles (r : Except Thrown α)
  | timesOut

variable {α : Type}

/-- `breaker.fire()`. -/
def Opossum.fire (lib : Opossum) (b : BreakerState) (a : Attempt α) : Except Thrown α :=
  if b.Admits then
    match a with
    | .settles r => r
    | .timesOut => .error (.raw lib.timeout)
  else .error (.raw lib.openBreaker)

namespace CircuitBreakerService

/-- What `execute` throws when `fire` rejects. -/
def reclassify (err : Thrown) : Thrown :=
  if isStr (err.get "code") "EOPENBREAKER" then .payment .providerUnavailable none
  else if isStr (err.get "name") "TimeoutError" then .payment .providerTimeout none
  else err

def execute (lib : Opossum) (b : BreakerState) (a : Attempt α) : Except Thrown α :=
  (lib.fire b a).mapError reclassify

@[simp] theorem reclassify_payment (code : PaymentErrorCode) (detail : Option Json) :
    reclassify (.payment code detail) = .payment code detail := by
  have hcode : isStr ((Thrown.payment code detail).get "code") "EOPENBREAKER" = false :=
    decide_eq_false code.text_ne
  unfold reclassify
  rw [hcode]
  rfl

/-- A raw error that the `catch` takes for one of the breaker's own. -/
def Recognised (e : RawError) : Prop :=
  e.get "code" = some (.str "EOPENBREAKER") ∨ e.get "name" = some (.str "TimeoutError")

theorem classified_reclassify_raw_iff {e : RawError} :
    (reclassify (.raw e)).Classified ↔ Recognised e := by
  unfold reclassify Recognised
  rw [← Js.isStr_iff, ← Js.isStr_iff]
  by_cases hcode : isStr (e.get "code") "EOPENBREAKER" = true
  · simp [Thrown.get, hcode]
  · by_cases hname : isStr (e.get "name") "TimeoutError" = true
    · simp [Thrown.get, hcode, hname]
    · simp [Thrown.get, hcode, hname]

/-- The `catch` only adds to the vocabulary. -/
theorem classified_reclassify_iff {err : Thrown} :
    (reclassify err).Classified ↔ err.Classified ∨ ∃ e, err = .raw e ∧ Recognised e := by
  cases err with
  | payment code detail => simp
  | raw e => simp [classified_reclassify_raw_iff]

/-- **A call that the breaker does not admit** is rejected as unavailable. -/
theorem execute_of_not_admits (lib : Opossum) {b : BreakerState} (a : Attempt α)
    (h : ¬ b.Admits) : execute lib b a = .error (.payment .providerUnavailable none) := by
  have hcode : isStr ((Thrown.raw lib.openBreaker).get "code") "EOPENBREAKER" = true :=
    Js.isStr_iff.mpr lib.openBreaker_code
  unfold execute Opossum.fire
  rw [if_neg h]
  show Except.error (reclassify _) = _
  unfold reclassify
  rw [if_pos hcode]

/-- **A timeout** is thrown again as the library made it: its name is not the one that the `catch`
looks for. -/
theorem execute_timesOut (lib : Opossum) {b : BreakerState} (h : b.Admits) :
    execute (α := α) lib b .timesOut = .error (.raw lib.timeout) := by
  have hcode : isStr ((Thrown.raw lib.timeout).get "code") "EOPENBREAKER" = false := by
    rw [Thrown.get, lib.timeout_code]
    decide
  have hname : isStr ((Thrown.raw lib.timeout).get "name") "TimeoutError" = false := by
    rw [Thrown.get, lib.timeout_name]
    decide
  unfold execute Opossum.fire
  rw [if_pos h]
  show Except.error (reclassify _) = _
  unfold reclassify
  rw [hcode, hname]
  rfl

theorem execute_settles (lib : Opossum) {b : BreakerState} (r : Except Thrown α) (h : b.Admits) :
    execute lib b (.settles r) = r.mapError reclassify := by
  unfold execute Opossum.fire
  rw [if_pos h]

end CircuitBreakerService

end Pasarela
