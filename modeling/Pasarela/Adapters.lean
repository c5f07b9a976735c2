import Pasarela.Provider

/-!
# The webhooks of the adapters (`providers/adapters`)

`verifyWebhook` of each adapter: the check of the signature, and the event of the body. `secret` is
the webhook secret of the configuration, which dLocal calls its secret key.

* `Runtime`: what the adapters call outside their code: the HMAC, `JSON.parse`, the clock, and
  `constructEvent` of the Stripe client.
* `checkSignature`: the check alone. `event` (`readEvent`): the event of a body; `none` is a
  `TypeError`. The body is any JSON value, so the fields of an `AdapterEvent` are what the property
  accesses find. `AdapterEvent.typed` gives those with the types of the interface.
* `Readable`: the bodies of which the adapter makes an event.
-/

namespace Pasarela

open Js (Json Found isNullish nullish member optMember optIndex lastElem str)

/-- What the adapters call (module doc). -/
structure Runtime where
  /-- `createHmac(algorithm, secret).update(data).digest('hex')`. -/
  hmac : (algorithm secret : String) → Buffer → String
  /-- `JSON.parse(raw.toString())`; `none` if it throws. -/
  parse : Buffer → Option Json
  /-- `Date.now()`. -/
  now : Nat
  /-- `String(v - 1)`; `none` if it throws. -/
  pred : Json → Option String
  /-- `stripe.webhooks.constructEvent`: the event, or the message of its error. -/
  constructEvent : Buffer → (sig secret : String) → Except String Json

/-- What `verifyWebhook` of an adapter returns (module doc). -/
structure AdapterEvent where
  providerId : String
  eventType : Option Json
  externalId : Option Json
  status : Found ChargeStatus
  raw : Json

/-- The event, if its fields have the types of `WebhookEvent`. -/
def AdapterEvent.typed (e : AdapterEvent) : Except Err WebhookEvent :=
  match e.eventType, e.externalId, e.status with
  | some (.str eventType), some (.str externalId), .own status =>
    .ok ⟨e.providerId, eventType, externalId, status, e.raw⟩
  | _, _, _ => .error (.other "TypeError")

/-- The result of a computation that may throw a `TypeError`. -/
def orTypeError {α : Type} : Option α → Except Err α
  | some a => .ok a
  | none => .error (.other "TypeError")

variable (rt : Runtime)

/-- `try { body = JSON.parse(raw.toString()); } catch { body = {}; }`. -/
def parseBody (raw : Buffer) : Json := (rt.parse raw).getD (.obj [])

/-- `map[s] ?? 'pending'`. -/
def statusIn (map : List (String × ChargeStatus)) (s : String) : Found ChargeStatus :=
  (Js.lookup map s).orElse .pending

/-! ## MercadoPago -/

namespace MercadoPagoProvider

def statuses : List (String × ChargeStatus) := [
  ("approved", .captured),
  ("authorized", .authorized),
  ("in_process", .pending),
  ("in_mediation", .pending),
  ("pending", .pending),
  ("rejected", .failed),
  ("cancelled", .cancelled),
  ("refunded", .refunded),
  ("charged_back", .refunded),
  ("opened", .pending),
  ("waiting_transfer", .pending)]

/-- The value of the part of `x-signature` that starts with `name`, or `''`. -/
def part (xSig name : String) : String :=
  (((Js.split xSig ',').find? fun p => Js.startsWith p name).bind fun p =>
    (Js.split p '=')[1]?).getD ""

def extractDataId (raw : Buffer) : String :=
  (do
    let body ← rt.parse raw
    let data ← member (some body) "data"
    str (nullish (nullish (optMember data "id") (body.prop "id")) (some (.num rt.now)))).getD
    (toString rt.now)

def signedTemplate (dataId : String) (headers : Headers) : String :=
  let xReqId := (headers.get "x-request-id").getD ""
  let ts := part ((headers.get "x-signature").getD "") "ts="
  s!"id:{dataId};request-id:{xReqId};ts:{ts};"

def checkSignature (secret : String) (raw : Buffer) (headers : Headers) : Except Err Unit :=
  if secret = "" then .ok ()
  else
    let hash := rt.hmac "sha256" secret (signedTemplate (extractDataId rt raw) headers).toUTF8
    let v1 := part ((headers.get "x-signature").getD "") "v1="
    if v1 ≠ "" ∧ hash ≠ v1 then .error (.unauthorized "Firma MercadoPago inválida") else .ok ()

/-- `body.data?.status ?? body.action?.replace('payment.', '') ?? 'pending'`. -/
def mpStatus (data action : Option Json) : Option Json :=
  if isNullish (optMember data "status") then
    match action with
    | none | some .null => some (.str "pending")
    | some (.str s) => some (.str (Js.replaceFirst s "payment." ""))
    | some _ => none
  else optMember data "status"

def event (raw : Buffer) : Option AdapterEvent := do
  let body := parseBody rt raw
  let data ← member (some body) "data"
  let status ← (← mpStatus data (body.prop "action")).toStr
  let externalId ← str (nullish (optMember data "id") (some (.str (extractDataId rt raw))))
  return {
    providerId := "mercadopago"
    eventType := nullish (nullish (body.prop "action") (body.prop "type"))
      (some (.str "payment.updated"))
    externalId := some (.str externalId)
    status := statusIn statuses status
    raw := body }

def verifyWebhook (secret : String) (raw : Buffer) (headers : Headers) :
    Except Err AdapterEvent := do
  checkSignature rt secret raw headers
  orTypeError (event rt raw)

end MercadoPagoProvider

/-! ## dLocal -/

namespace DlocalProvider

def statuses : List (String × ChargeStatus) := [
  ("PAID", .captured),
  ("AUTHORIZED", .authorized),
  ("PENDING", .pending),
  ("PROCESSING", .pending),
  ("REJECTED", .failed),
  ("CANCELLED", .cancelled),
  ("EXPIRED", .failed),
  ("REFUNDED", .refunded)]

def checkSignature (secretKey : String) (raw : Buffer) (headers : Headers) : Except Err Unit :=
  let sig := (headers.get "x-dlocal-signature").getD ""
  let expected := rt.hmac "sha256" secretKey raw
  if sig ≠ "" ∧ sig ≠ expected then .error (.unauthorized "Firma dLocal inválida") else .ok ()

/-- `map[s?.toUpperCase()] ?? 'pending'`. -/
def mapStatus : Option Json → Option (Found ChargeStatus)
  | none | some .null => some (statusIn statuses "undefined")
  | some (.str s) => some (statusIn statuses (Js.toUpperCase s))
  | some _ => none

def event (raw : Buffer) : Option AdapterEvent := do
  let body := parseBody rt raw
  let data ← member (some body) "data"
  let status ← mapStatus (nullish (optMember data "status") (some (.str "PENDING")))
  return {
    providerId := "dlocal"
    eventType := nullish (body.prop "event_type") (some (.str "PAYMENT"))
    externalId := nullish (optMember data "id") (some (.str "unknown"))
    status
    raw := body }

def verifyWebhook (secretKey : String) (raw : Buffer) (headers : Headers) :
    Except Err AdapterEvent := do
  checkSignature rt secretKey raw headers
  orTypeError (event rt raw)

end DlocalProvider

/-! ## Pagar.me -/

namespace PagarmeProvider

def statuses : List (String × ChargeStatus) := [
  ("paid", .captured),
  ("authorized", .authorized),
  ("pending", .pending),
  ("waiting_payment", .pending),
  ("processing", .pending),
  ("failed", .failed),
  ("canceled", .cancelled),
  ("refunded", .refunded),
  ("chargedback", .refunded),
  ("generated", .pending),
  ("waiting", .pending)]

def expectedSignature (webhookSecret : String) (raw : Buffer) : String :=
  "sha1=" ++ rt.hmac "sha1" webhookSecret raw

def checkSignature (webhookSecret : String) (raw : Buffer) (headers : Headers) :
    Except Err Unit :=
  if webhookSecret = "" then .ok ()
  else
    let sig := (headers.get "x-hub-signature").getD ""
    if sig ≠ expectedSignature rt webhookSecret raw then
      .error (.unauthorized "Firma Pagar.me inválida")
    else .ok ()

def event (raw : Buffer) : Option AdapterEvent := do
  let body := parseBody rt raw
  let data ← member (some body) "data"
  let charge := nullish (nullish (optIndex (optMember data "charges") 0) data) (some (.obj []))
  let status ← str (nullish (nullish (optMember charge "status") (optMember data "status"))
    (some (.str "pending")))
  return {
    providerId := "pagarme"
    eventType := nullish (body.prop "type") (some (.str "charge.updated"))
    externalId := nullish (nullish (optMember charge "id") (body.prop "id"))
      (some (.str "unknown"))
    status := statusIn statuses status
    raw := body }

def verifyWebhook (webhookSecret : String) (raw : Buffer) (headers : Headers) :
    Except Err AdapterEvent := do
  checkSignature rt webhookSecret raw headers
  orTypeError (event rt raw)

end PagarmeProvider

/-! ## Conekta -/

namespace ConektaProvider

def statuses : List (String × ChargeStatus) := [
  ("paid", .captured),
  ("partially_paid", .authorized),
  ("pending_payment", .pending),
  ("expired", .failed),
  ("declined", .failed),
  ("refunded", .refunded),
  ("voided", .cancelled)]

/-- `headers['digest']?.replace('sha256=', '') ?? ''`. -/
def incoming (headers : Headers) : String :=
  ((headers.get "digest").map fun h => Js.replaceFirst h "sha256=" "").getD ""

def checkSignature (webhookSecret : String) (raw : Buffer) (headers : Headers) :
    Except Err Unit :=
  if webhookSecret = "" then .ok ()
  else
    let digest := rt.hmac "sha256" webhookSecret raw
    if incoming headers ≠ "" ∧ digest ≠ incoming headers then
      .error (.unauthorized "Firma Conekta inválida")
    else .ok ()

def event (raw : Buffer) : Option AdapterEvent := do
  let body := parseBody rt raw
  let data ← member (some body) "data"
  let order := nullish (optMember data "object") (some (.obj []))
  let charges := nullish (optMember (optMember order "charges") "data") (some (.arr []))
  let last ← lastElem rt.pred (charges.getD .null)
  let charge := nullish last (some (.obj []))
  let status ← str (nullish (nullish (optMember charge "status") (optMember order "payment_status"))
    (some (.str "pending")))
  return {
    providerId := "conekta"
    eventType := nullish (body.prop "type") (some (.str "order.updated"))
    externalId := nullish (nullish (optMember charge "id") (optMember order "id"))
      (some (.str "unknown"))
    status := statusIn statuses status
    raw := body }

def verifyWebhook (webhookSecret : String) (raw : Buffer) (headers : Headers) :
    Except Err AdapterEvent := do
  checkSignature rt webhookSecret raw headers
  orTypeError (event rt raw)

end ConektaProvider

/-! ## Stripe -/

namespace StripeProvider

def eventStatuses : List (String × ChargeStatus) := [
  ("payment_intent.succeeded", .captured),
  ("payment_intent.payment_failed", .failed),
  ("payment_intent.canceled", .cancelled),
  ("payment_intent.amount_capturable_updated", .authorized),
  ("charge.refunded", .refunded)]

def extractExternalId (event : Json) : Option Json :=
  let obj := nullish (optMember (optMember (some event) "data") "object") (some (.obj []))
  nullish (nullish (optMember obj "payment_intent") (optMember obj "id")) (some (.str "unknown"))

def event (e : Json) : Option AdapterEvent := do
  let type ← member (some e) "type"
  let key ← str type
  return {
    providerId := "stripe"
    eventType := type
    externalId := extractExternalId e
    status := statusIn eventStatuses key
    raw := e }

def verifyWebhook (webhookSecret : String) (raw : Buffer) (headers : Headers) :
    Except Err AdapterEvent :=
  match (headers.get "stripe-signature").filter (· ≠ "") with
  | none => .error (.unauthorized "Falta stripe-signature")
  | some sig =>
    match rt.constructEvent raw sig webhookSecret with
    | .error message => .error (.unauthorized s!"Firma Stripe inválida: {message}")
    | .ok e => orTypeError (event e)

/-- The adapter, as the registry has it. -/
def provider (webhookSecret : String) : PaymentProvider where
  id := "stripe"
  countries := ["US", "GB", "DE", "FR", "ES", "IT", "BR", "MX", "AR"]
  currencies := ["USD", "EUR", "GBP", "BRL", "MXN", "ARS"]
  verifyWebhook raw headers := do
    (← verifyWebhook rt webhookSecret raw headers).typed

end StripeProvider

/-! ## Fake -/

namespace FakeProvider

/-- What `verifyWebhook` returns: the status is not mapped. -/
structure Event where
  providerId : String
  eventType : Option Json
  externalId : Option Json
  status : Option Json
  raw : Json

/-- The check; `production` is `process.env.NODE_ENV === 'production'`, and `secret` is
`process.env.WEBHOOK_SIGNING_SECRET`. -/
def checkSignature (production : Bool) (secret : Option String) (raw : Buffer)
    (headers : Headers) : Except Err Unit :=
  let expected := rt.hmac "sha256" (secret.getD "change-me") raw
  let sig := (headers.get "x-fake-signature").map fun h => Js.replaceFirst h "sha256=" ""
  if production ∧ sig ≠ some expected then .error (.unauthorized "Firma HMAC inválida") else .ok ()

def event (raw : Buffer) : Option Event := do
  let body := parseBody rt raw
  let type ← member (some body) "type"
  return {
    providerId := "fake"
    eventType := nullish type (some (.str "payment.captured"))
    externalId := nullish (body.prop "externalId") (some (.str s!"fake_ext_{rt.now}"))
    status := nullish (body.prop "status") (some (.str "captured"))
    raw := body }

def verifyWebhook (production : Bool) (secret : Option String) (raw : Buffer)
    (headers : Headers) : Except Err Event := do
  checkSignature rt production secret raw headers
  orTypeError (event rt raw)

end FakeProvider

end Pasarela
