import Pasarela.Adapters
import Pasarela.ErrorMappers

/-!
# The calls of the adapters (`providers/adapters`)

`createCharge`, `refund` and `retrieve` of the adapters that ask a provider: what they make of the
answer of their client, and what they throw when it throws. The client is the library of Stripe or
MercadoPago, or an HTTP client, whose answer is the `data` of the response.

* `guarded`: reading an answer under a `catch` that maps every error.
* `AdapterCharge`, `AdapterRefund`: the results, with fields that are what the property accesses
  find, as in `AdapterEvent`.
* `RemoteAdapter.action`: the function that the breaker runs. `onThrow`: what it throws for what its
  client throws (`action_error`).
* `RemoteAdapter.call`: the call through the breaker.
-/

namespace Pasarela

open Js (Json Found isNullish isStr nullish member optMember optIndex str)

/-- `ProviderChargeResult` of an adapter (module doc). -/
structure AdapterCharge where
  externalId : Option Json
  status : Found ChargeStatus
  redirectUrl : Option Json
  raw : Option Json

/-- `ProviderRefundResult` of an adapter (module doc). -/
structure AdapterRefund where
  externalRefundId : Option Json
  status : RefundStatus
  raw : Option Json

/-- What a client does with a request: its answer, or what it throws. -/
abbrev ClientResult : Type := Except RawError (Option Json)

/-- A reading of an answer, which may throw a `TypeError`. -/
def RawError.orRaise {α : Type} : Option α → Except RawError α
  | some a => .ok a
  | none => .error .typeError

section Guarded

variable {α : Type} (mapper : RawError → Thrown) (read : Option Json → Option α)

/-- `try { .. } catch (err) { mapper(err); }` around the request and the reading of its answer. -/
def guarded (answer : ClientResult) : Except Thrown α :=
  (answer.bind fun data => RawError.orRaise (read data)).mapError mapper

/-- An answer is read, or is a `TypeError` for the mapper. -/
theorem guarded_ok (data : Option Json) :
    guarded mapper read (.ok data) =
      (read data).elim (Except.error (mapper .typeError)) Except.ok := by
  show (RawError.orRaise (read data)).mapError mapper = _
  cases read data <;> rfl

end Guarded

/-! ## Stripe -/

namespace StripeProvider

def intentStatuses : List (String × ChargeStatus) := [
  ("requires_payment_method", .pending),
  ("requires_confirmation", .pending),
  ("requires_action", .pending),
  ("processing", .pending),
  ("requires_capture", .authorized),
  ("canceled", .cancelled),
  ("succeeded", .captured)]

def mapIntentStatus (status : Option Json) : Option (Found ChargeStatus) :=
  (str status).map (statusIn intentStatuses)

/-- The result of `retrieve`. -/
def readIntent (intent : Option Json) : Option AdapterCharge := do
  let id ← member intent "id"
  let status ← mapIntentStatus (optMember intent "status")
  return { externalId := id, status, redirectUrl := none, raw := intent }

/-- The result of `createCharge`. -/
def readCharge (intent : Option Json) : Option AdapterCharge := do
  let c ← readIntent intent
  return { c with
    redirectUrl := optMember (optMember (optMember intent "next_action") "redirect_to_url") "url" }

def readRefund (refund : Option Json) : Option AdapterRefund := do
  let id ← member refund "id"
  let status := optMember refund "status"
  return {
    externalRefundId := nullish id (some (.str ""))
    status :=
      if isStr status "succeeded" then .succeeded
      else if isStr status "pending" then .pending
      else .failed
    raw := refund }

def createCharge (answer : ClientResult) : Except Thrown AdapterCharge :=
  guarded mapStripeError readCharge answer

def refund (answer : ClientResult) : Except Thrown AdapterRefund :=
  guarded mapStripeError readRefund answer

def retrieve (answer : ClientResult) : Except Thrown AdapterCharge :=
  guarded mapStripeError readIntent answer

end StripeProvider

/-! ## MercadoPago -/

namespace MercadoPagoProvider

def mapStatus (s : Option Json) : Option (Found ChargeStatus) := (str s).map (statusIn statuses)

/-- The result of `retrieve`. -/
def readPayment (result : Option Json) : Option AdapterCharge := do
  let id ← member result "id"
  let externalId ← str id
  let status ← mapStatus (nullish (optMember result "status") (some (.str "pending")))
  return { externalId := some (.str externalId), status, redirectUrl := none, raw := result }

/-- The result of `createCharge`. -/
def readCharge (result : Option Json) : Option AdapterCharge := do
  let c ← readPayment result
  let data := optMember (optMember result "point_of_interaction") "transaction_data"
  return { c with redirectUrl := nullish (optMember data "ticket_url") none }

def readRefund (result : Option Json) : Option AdapterRefund := do
  let id ← member result "id"
  let externalRefundId ← str id
  return {
    externalRefundId := some (.str externalRefundId)
    status := if isStr (optMember result "status") "approved" then .succeeded else .pending
    raw := result }

/-- The body of the `try` of `createCharge`. -/
def created (result : Option Json) : Except Thrown AdapterCharge :=
  match member result "status" with
  | none => .error (.raw .typeError)
  | some status =>
    if isStr status "rejected" then
      .error (mapMercadoPagoError
        (nullish (optMember result "status_detail") (some (.str "cc_rejected_other_reason"))) none)
    else (RawError.orRaise (readCharge result)).mapError .raw

/-- `err?.cause?.[0]?.code`. -/
def causeCode (err : Thrown) : Option Json := optMember (optIndex (err.get "cause") 0) "code"

/-- The `catch` of `createCharge`. -/
def rethrown (err : Thrown) : Thrown :=
  if (causeCode err).any Json.truthy then mapMercadoPagoError (causeCode err) (err.get "status")
  else err

def createCharge (answer : ClientResult) : Except Thrown AdapterCharge :=
  ((answer.mapError .raw).bind created).mapError rethrown

/-- There is no `catch` here. -/
def refund (answer : ClientResult) : Except Thrown AdapterRefund := guarded .raw readRefund answer

/-- There is no `catch` here. -/
def retrieve (answer : ClientResult) : Except Thrown AdapterCharge := guarded .raw readPayment answer

end MercadoPagoProvider

/-! ## Pagar.me -/

namespace PagarmeProvider

def mapStatus (s : Option Json) : Option (Found ChargeStatus) := (str s).map (statusIn statuses)

def readCharge (data : Option Json) : Option AdapterCharge := do
  let charges ← member data "charges"
  let charge := optIndex charges 0
  let lastTx := optMember charge "last_transaction"
  let status ← mapStatus (nullish (optMember charge "status") (optMember data "status"))
  return {
    externalId := nullish (optMember charge "id") (optMember data "id")
    status
    redirectUrl := nullish (nullish (optMember lastTx "qr_code_url") (optMember lastTx "qr_code")) none
    raw := data }

def readRefund (data : Option Json) : Option AdapterRefund := do
  let id ← member data "id"
  return {
    externalRefundId := id
    status := if isStr (optMember data "status") "canceled" then .succeeded else .pending
    raw := data }

def readPayment (data : Option Json) : Option AdapterCharge := do
  let id ← member data "id"
  let status ← mapStatus (optMember data "status")
  return { externalId := id, status, redirectUrl := none, raw := data }

def createCharge (answer : ClientResult) : Except Thrown AdapterCharge :=
  guarded mapPagarmeError readCharge answer

def refund (answer : ClientResult) : Except Thrown AdapterRefund :=
  guarded mapPagarmeError readRefund answer

def retrieve (answer : ClientResult) : Except Thrown AdapterCharge :=
  guarded mapPagarmeError readPayment answer

end PagarmeProvider

/-! ## Conekta -/

namespace ConektaProvider

def mapStatus (s : Option Json) : Option (Found ChargeStatus) := (str s).map (statusIn statuses)

def readCharge (data : Option Json) : Option AdapterCharge := do
  let charges ← member data "charges"
  let charge := optIndex (optMember charges "data") 0
  let status ← mapStatus (nullish (optMember charge "status") (optMember data "payment_status"))
  return {
    externalId := nullish (optMember charge "id") (optMember data "id")
    status
    redirectUrl := nullish (optMember (optMember charge "payment_method") "reference") none
    raw := data }

def readRefund (data : Option Json) : Option AdapterRefund := do
  let id ← member data "id"
  return { externalRefundId := id, status := .succeeded, raw := data }

def readOrder (data : Option Json) : Option AdapterCharge := do
  let id ← member data "id"
  let status ← mapStatus (optMember data "payment_status")
  return { externalId := id, status, redirectUrl := none, raw := data }

def createCharge (answer : ClientResult) : Except Thrown AdapterCharge :=
  guarded mapConektaError readCharge answer

def refund (answer : ClientResult) : Except Thrown AdapterRefund :=
  guarded mapConektaError readRefund answer

def retrieve (answer : ClientResult) : Except Thrown AdapterCharge :=
  guarded mapConektaError readOrder answer

end ConektaProvider

/-! ## dLocal -/

namespace DlocalProvider

def mapRefundStatus (s : Option Json) : RefundStatus :=
  if isStr s "SUCCESS" then .succeeded else if isStr s "PENDING" then .pending else .failed

/-- The result of `retrieve`. -/
def readPayment (data : Option Json) : Option AdapterCharge := do
  let id ← member data "id"
  let status ← mapStatus (optMember data "status")
  return { externalId := id, status, redirectUrl := none, raw := data }

/-- The result of `createCharge`. -/
def readCharge (data : Option Json) : Option AdapterCharge := do
  let c ← readPayment data
  return { c with redirectUrl := optMember data "redirect_url" }

def readRefund (data : Option Json) : Option AdapterRefund := do
  let id ← member data "id"
  return {
    externalRefundId := id
    status := mapRefundStatus (optMember data "status")
    raw := data }

def createCharge (answer : ClientResult) : Except Thrown AdapterCharge :=
  guarded mapDlocalError readCharge answer

def refund (answer : ClientResult) : Except Thrown AdapterRefund :=
  guarded mapDlocalError readRefund answer

def retrieve (answer : ClientResult) : Except Thrown AdapterCharge :=
  guarded mapDlocalError readPayment answer

end DlocalProvider

/-! ## All of them -/

/-- The adapters that ask a provider. -/
inductive RemoteAdapter where
  | stripe
  | mercadopago
  | pagarme
  | conekta
  | dlocal
  deriving DecidableEq, Repr

/-- The calls that every adapter has. -/
inductive AdapterMethod where
  | createCharge
  | refund
  | retrieve
  deriving DecidableEq, Repr

inductive CallResult where
  | charge (c : AdapterCharge)
  | refund (r : AdapterRefund)

/-- What the client of an adapter does, and in what time. -/
inductive ClientOutcome where
  | answers (data : Option Json)
  | throws (e : RawError)
  /-- It does neither before the breaker gives up. -/
  | timesOut

namespace RemoteAdapter

/-- The function that the breaker runs (module doc). -/
def action (a : RemoteAdapter) (m : AdapterMethod) (answer : ClientResult) :
    Except Thrown CallResult :=
  match a, m with
  | .stripe, .createCharge => (StripeProvider.createCharge answer).map .charge
  | .stripe, .refund => (StripeProvider.refund answer).map .refund
  | .stripe, .retrieve => (StripeProvider.retrieve answer).map .charge
  | .mercadopago, .createCharge => (MercadoPagoProvider.createCharge answer).map .charge
  | .mercadopago, .refund => (MercadoPagoProvider.refund answer).map .refund
  | .mercadopago, .retrieve => (MercadoPagoProvider.retrieve answer).map .charge
  | .pagarme, .createCharge => (PagarmeProvider.createCharge answer).map .charge
  | .pagarme, .refund => (PagarmeProvider.refund answer).map .refund
  | .pagarme, .retrieve => (PagarmeProvider.retrieve answer).map .charge
  | .conekta, .createCharge => (ConektaProvider.createCharge answer).map .charge
  | .conekta, .refund => (ConektaProvider.refund answer).map .refund
  | .conekta, .retrieve => (ConektaProvider.retrieve answer).map .charge
  | .dlocal, .createCharge => (DlocalProvider.createCharge answer).map .charge
  | .dlocal, .refund => (DlocalProvider.refund answer).map .refund
  | .dlocal, .retrieve => (DlocalProvider.retrieve answer).map .charge

/-- What an adapter throws for what its client throws. -/
def onThrow (a : RemoteAdapter) (m : AdapterMethod) (e : RawError) : Thrown :=
  match a, m with
  | .stripe, _ => StripeProvider.mapStripeError e
  | .mercadopago, .createCharge => MercadoPagoProvider.rethrown (.raw e)
  | .mercadopago, _ => .raw e
  | .pagarme, _ => PagarmeProvider.mapPagarmeError e
  | .conekta, _ => ConektaProvider.mapConektaError e
  | .dlocal, _ => DlocalProvider.mapDlocalError e

theorem action_error (a : RemoteAdapter) (m : AdapterMethod) (e : RawError) :
    a.action m (.error e) = .error (a.onThrow m e) := by
  cases a <;> cases m <;> rfl

/-- What the breaker's call of the action comes to. -/
def attempt (a : RemoteAdapter) (m : AdapterMethod) : ClientOutcome → Attempt CallResult
  | .answers data => .settles (a.action m (.ok data))
  | .throws e => .settles (a.action m (.error e))
  | .timesOut => .timesOut

/-- The key of the breaker of a call. -/
def breakerKey (a : RemoteAdapter) (m : AdapterMethod) : String :=
  (match a with
    | .stripe => "stripe"
    | .mercadopago => "mp"
    | .pagarme => "pagarme"
    | .conekta => "conekta"
    | .dlocal => "dlocal") ++
  match m with
    | .createCharge => ":createCharge"
    | .refund => ":refund"
    | .retrieve => ":retrieve"

/-- A call of an adapter, through a breaker in the state `b`. -/
def call (lib : Opossum) (b : BreakerState) (a : RemoteAdapter) (m : AdapterMethod)
    (o : ClientOutcome) : Except Thrown CallResult :=
  CircuitBreakerService.execute lib b (a.attempt m o)

end RemoteAdapter

end Pasarela
