/-!
# Errors (`common/errors`, `common/filters/all-exceptions.filter.ts`)

* `PaymentErrorCode` and `catalog`: the internal codes, each with its HTTP status, its message and
  whether the request may be retried (`payment-error.catalog.ts`).
* `Err`: what the services throw. A NestJS `HttpException` is its status and message, a
  `PaymentException` its code and detail; the database and the JavaScript runtime throw the rest.
* `Err.status`: the status that `AllExceptionsFilter` answers with.
-/

namespace Pasarela

inductive PaymentErrorCode where
  | insufficientFunds
  | exceedsLimit
  | cardDeclined
  | cardExpired
  | cardInvalidNumber
  | cardInvalidCvv
  | cardInvalidExpiry
  | cardNotSupported
  | fraudSuspected
  | doNotHonor
  | lostCard
  | stolenCard
  | blacklistedUser
  | processingError
  | duplicateTransaction
  | currencyNotSupported
  | amountTooSmall
  | amountTooLarge
  | voucherExpired
  | documentInvalid
  | pixKeyNotFound
  | authenticationRequired
  | authenticationFailed
  | providerUnavailable
  | providerTimeout
  | providerUnknown
  deriving DecidableEq, Repr

/-- `PaymentErrorMeta`, without the code. -/
structure PaymentErrorMeta where
  retryable : Bool
  httpStatus : Nat
  message : String
  deriving DecidableEq, Repr

/-- `PAYMENT_ERROR_CATALOG`. -/
def catalog : PaymentErrorCode → PaymentErrorMeta
  | .insufficientFunds => ⟨false, 402, "Fondos insuficientes"⟩
  | .exceedsLimit => ⟨false, 402, "Excede el límite de la cuenta"⟩
  | .cardDeclined => ⟨false, 402, "Tarjeta rechazada"⟩
  | .cardExpired => ⟨false, 402, "Tarjeta vencida"⟩
  | .cardInvalidNumber => ⟨false, 422, "Número de tarjeta inválido"⟩
  | .cardInvalidCvv => ⟨false, 422, "CVV inválido"⟩
  | .cardInvalidExpiry => ⟨false, 422, "Fecha de expiración inválida"⟩
  | .cardNotSupported => ⟨false, 422, "Tipo de tarjeta no soportado"⟩
  | .fraudSuspected => ⟨false, 402, "Transacción sospechosa de fraude"⟩
  | .doNotHonor => ⟨false, 402, "Tarjeta no habilitada para esta operación"⟩
  | .lostCard => ⟨false, 402, "Tarjeta reportada como perdida"⟩
  | .stolenCard => ⟨false, 402, "Tarjeta reportada como robada"⟩
  | .blacklistedUser => ⟨false, 403, "Usuario en lista negra"⟩
  | .processingError => ⟨true, 502, "Error de procesamiento, reintentá"⟩
  | .duplicateTransaction => ⟨false, 409, "Transacción duplicada"⟩
  | .currencyNotSupported => ⟨false, 422, "Moneda no soportada por el provider"⟩
  | .amountTooSmall => ⟨false, 422, "Monto mínimo no alcanzado"⟩
  | .amountTooLarge => ⟨false, 422, "Monto máximo superado"⟩
  | .voucherExpired => ⟨false, 410, "El voucher de pago ha expirado"⟩
  | .documentInvalid => ⟨false, 422, "Documento de identidad inválido"⟩
  | .pixKeyNotFound => ⟨false, 422, "Clave PIX no encontrada"⟩
  | .authenticationRequired => ⟨false, 402, "Se requiere autenticación 3DS"⟩
  | .authenticationFailed => ⟨false, 402, "Autenticación 3DS fallida"⟩
  | .providerUnavailable => ⟨true, 503, "Provider temporalmente no disponible"⟩
  | .providerTimeout => ⟨true, 504, "Timeout del provider"⟩
  | .providerUnknown => ⟨false, 502, "Error desconocido del provider"⟩

/-- What the services throw (module doc). -/
inductive Err where
  /-- A NestJS `HttpException`. -/
  | http (status : Nat) (message : String)
  /-- `new PaymentException(code, detail)`. -/
  | payment (code : PaymentErrorCode) (detail : Option String)
  /-- A unique constraint of the database (Prisma `P2002`), with its columns. -/
  | uniqueViolation (columns : List String)
  /-- The row of an `update` does not exist (Prisma `P2025`). -/
  | rowNotFound
  /-- Any other error: `Error`, `TypeError`, `RangeError`, an error of the database or a library. -/
  | other (message : String)
  deriving DecidableEq, Repr

namespace Err

abbrev badRequest (message : String) : Err := .http 400 message
abbrev unauthorized (message : String) : Err := .http 401 message
abbrev forbidden (message : String) : Err := .http 403 message
abbrev notFound (message : String) : Err := .http 404 message
abbrev conflict (message : String) : Err := .http 409 message
abbrev unprocessable (message : String) : Err := .http 422 message
abbrev throttled : Err := .http 429 "ThrottlerException: Too Many Requests"

/-- `err.message`. -/
def message : Err → String
  | .http _ m => m
  | .payment code detail => detail.getD (catalog code).message
  | .uniqueViolation columns => "Unique constraint failed on the fields: " ++ ",".intercalate columns
  | .rowNotFound => "No record was found for an update."
  | .other m => m

/-- The status of the answer to a request that ends with this error (`AllExceptionsFilter`). -/
def status : Err → Nat
  | .http s _ => s
  | .payment code _ => (catalog code).httpStatus
  | _ => 500

end Err

end Pasarela
