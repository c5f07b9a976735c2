import Pasarela.Machine
import Pasarela.StateMachine

/-!
# The payment operations (`payments/payments.service.ts`)

* `PaymentsService.create`, `findAll`, `findOne`, `refund`: programs over `machine`, in the order of
  the source. `create` is cut where the source has comments: the lookup of the key (`create`), the
  routing and the insert (`createNew`), the charge and its result (`charge`, the body of the `try`).
* `SerializedPayment`: what `serialize` returns, the columns of the row with the amount as text.

Logs and the counters of `MetricsService.recordPayment` are left out; nothing reads them back.
-/

namespace Pasarela

open Js (Json Found)
open Conc (Prog)

def methodMap : List (String × PaymentMethodKind) := [
  ("card", .card),
  ("wallet", .wallet),
  ("bank_transfer", .bankTransfer),
  ("cash_voucher", .cashVoucher),
  ("pix", .pix),
  ("qr", .qr)]

/-- A property that the map inherits is a function, so it is truthy; the insert of a payment with it
as its method is the next thing that happens, and the database client refuses it. -/
def toPrismaMethod (method : String) : Except Err PaymentMethodKind :=
  match Js.lookup methodMap method with
  | .own mapped => .ok mapped
  | .inherited _ => .error (.other "Invalid value for argument `method`. Expected PaymentMethodKind.")
  | .absent => .error (.badRequest s!"Método de pago inválido: {method}")

namespace PaymentsService

/-- What `serialize` returns (module doc). -/
structure SerializedPayment where
  payment : Payment
  amountMinor : String

def serialize (payment : Payment) : SerializedPayment := ⟨payment, toString payment.amountMinor⟩

/-- A status that the map does not have is PENDING; that is `refunded`. -/
def mapProviderStatus : ChargeStatus → PaymentStatus
  | .authorized => .authorized
  | .captured => .captured
  | .failed => .failed
  | .cancelled => .cancelled
  | .pending => .pending
  | .refunded => .pending

/-! ## Create -/

/-- `!idempotencyKey?.trim()`. -/
def checkKey : Option String → Except Err String
  | some key =>
    if Js.isBlank key then .error (.badRequest "Header idempotency-key requerido para crear pagos")
    else .ok key
  | none => .error (.badRequest "Header idempotency-key requerido para crear pagos")

theorem checkKey_ok {idempotencyKey : Option String} {key : String}
    (h : checkKey idempotencyKey = .ok key) : idempotencyKey = some key := by
  unfold checkKey at h
  split at h
  · split at h
    · cases h
    · cases h; rfl
  · cases h

/-- The argument of `createCharge`. -/
def chargeInput (dto : CreatePaymentDto) (idempotencyKey : String) (payment : Payment) :
    CreateChargeInput where
  amountMinor := dto.amountMinor
  currency := dto.currency
  country := dto.country
  customer := ⟨dto.customerId.getD payment.id, dto.email⟩
  description := dto.description
  method := dto.method
  idempotencyKey
  returnUrl := dto.returnUrl
  metadata := dto.metadata

/-- The entry of the audit log for a payment that was created. -/
def createdEntry (ctx : OrgContext) (updated : Payment) (finalStatus : PaymentStatus)
    (providerId : String) : AuditEntry where
  tenantId := ctx.organizationId
  organizationId := some ctx.organizationId
  actorId := some ctx.userId
  action := "payment.created"
  resourceId := updated.id
  resourceType := "Payment"
  after := some (.obj [("status", .str finalStatus.text), ("providerId", .str providerId)])

/-- The body of the `try`: the charge, and the transaction that records its result. -/
def charge (provider : PaymentProvider) (dto : CreatePaymentDto) (idempotencyKey : String)
    (ctx : OrgContext) (payment : Payment) : Service SerializedPayment := do
  let result ← request (.createCharge provider.id (chargeInput dto idempotencyKey payment))
  let finalStatus := mapProviderStatus result.status
  let updated ← request (.recordCharge payment result finalStatus)
  request (.decrementPending dto.country)
  request (.auditLog (createdEntry ctx updated finalStatus provider.id))
  return serialize updated

/-- The `catch`: it throws the error again. -/
def chargeFailed (dto : CreatePaymentDto) (payment : Payment) (err : Err) :
    Service SerializedPayment := do
  request (.decrementPending dto.country)
  let _ ← request (.failPayment payment err.message)
  .throw err

/-- `create` for a key that the organization has not used. -/
def createNew (registry : ProviderRegistry) (dto : CreatePaymentDto) (idempotencyKey : String)
    (ctx : OrgContext) : Service SerializedPayment := do
  let provider ← .ofExcept (registry.selectFor dto.country dto.currency)
  request (.incrementPending dto.country)
  let prismaMethod ← .ofExcept (toPrismaMethod dto.method)
  let payment ← request
    (.insertPayment ctx.organizationId dto idempotencyKey provider.id prismaMethod)
  (charge provider dto idempotencyKey ctx payment).tryCatch (chargeFailed dto payment)

def create (registry : ProviderRegistry) (dto : CreatePaymentDto)
    (idempotencyKey : Option String) (ctx : OrgContext) : Service SerializedPayment := do
  let key ← .ofExcept (checkKey idempotencyKey)
  let existing ← request (.findPayment {
    organizationId := some ctx.organizationId
    idempotencyKey := some key })
  match existing with
  | some payment => return serialize payment
  | none => createNew registry dto key ctx

theorem create_of_key (registry : ProviderRegistry) (dto : CreatePaymentDto) (ctx : OrgContext)
    {idempotencyKey : Option String} {key : String} (h : checkKey idempotencyKey = .ok key) :
    ∃ f : Option Payment → Service SerializedPayment,
      create registry dto idempotencyKey ctx = (request (.findPayment {
        organizationId := some ctx.organizationId
        idempotencyKey := some key })).bind f ∧
      (∀ p, f (some p) = .ret (serialize p)) ∧ f none = createNew registry dto key ctx := by
  rw [create, h]
  exact ⟨_, rfl, fun _ => rfl, rfl⟩

/-- `createNew` with a method that is not in the map stops after the gauge. -/
theorem createNew_of_bad_method {registry : ProviderRegistry} {dto : CreatePaymentDto}
    {key : String} {ctx : OrgContext} {provider : PaymentProvider} {e : Err}
    (hp : registry.selectFor dto.country dto.currency = .ok provider)
    (hm : toPrismaMethod dto.method = .error e) :
    createNew registry dto key ctx =
      (request (.incrementPending dto.country)).bind fun _ => .throw e := by
  rw [createNew, hp, hm]
  rfl

/-- `createNew` with a provider and a method: the gauge, the insert, and `charge` with its `catch`. -/
theorem createNew_of_ok {registry : ProviderRegistry} {dto : CreatePaymentDto} {key : String}
    {ctx : OrgContext} {provider : PaymentProvider} {method : PaymentMethodKind}
    (hp : registry.selectFor dto.country dto.currency = .ok provider)
    (hm : toPrismaMethod dto.method = .ok method) :
    createNew registry dto key ctx = (request (.incrementPending dto.country)).bind fun _ =>
      (request (.insertPayment ctx.organizationId dto key provider.id method)).bind fun p =>
        (charge provider dto key ctx p).tryCatch (chargeFailed dto p) := by
  rw [createNew, hp, hm]
  rfl

/-! ## Find -/

/-- The `meta` of a page. -/
structure PageMeta where
  total : Nat
  page : Nat
  limit : Nat
  pages : Nat
  deriving DecidableEq, Repr

structure Page where
  data : List SerializedPayment
  pageMeta : PageMeta

def findAll (ctx : OrgContext) (query : ListPaymentsDto) : Service Page := do
  let skip := (query.page - 1) * query.limit
  let (items, total) ← request (.pagePayments
    { organizationId := some ctx.organizationId, status := query.status } skip query.limit)
  return {
    data := items.map serialize
    -- `pages` is `Math.ceil(total / limit)`
    pageMeta := ⟨total, query.page, query.limit, (total + query.limit - 1) / query.limit⟩ }

structure PaymentDetail where
  payment : SerializedPayment
  events : List PaymentEvent

def notFound (id : String) : Err := .notFound s!"Payment {id} no encontrado"

def findOne (id : String) (ctx : OrgContext) : Service PaymentDetail := do
  let payment ← request (.findPaymentWithEvents {
    id := some id
    organizationId := some ctx.organizationId })
  match payment with
  | some (payment, events) => return ⟨serialize payment, events⟩
  | none => .throw (notFound id)

/-! ## Refund -/

/-- The `refund` of the response, with the amount as text. -/
structure SerializedRefund where
  id : String
  amountMinor : String
  externalRefundId : Option String
  status : String
  deriving DecidableEq, Repr

structure RefundedPayment where
  payment : SerializedPayment
  refund : SerializedRefund

/-- The checks on the row: its status, and its id at the provider. -/
def checkRefundable (payment : Payment) : Except Err String :=
  if payment.status ≠ .captured ∧ payment.status ≠ .partiallyRefunded then
    .error (.badRequest s!"No se puede refundar un pago en estado {payment.status.text}")
  else match payment.externalId with
    | some externalId =>
      if externalId = "" then .error (.badRequest "El pago no tiene externalId del provider")
      else .ok externalId
    | none => .error (.badRequest "El pago no tiene externalId del provider")

/-- A row that passes the checks has a status that can be refunded, and an external id. -/
theorem checkRefundable_ok {payment : Payment} {externalId : String}
    (h : checkRefundable payment = .ok externalId) :
    (payment.status = .captured ∨ payment.status = .partiallyRefunded) ∧
      payment.externalId = some externalId ∧ externalId ≠ "" := by
  unfold checkRefundable at h
  split at h
  · cases h
  · rename_i hs
    split at h
    · rename_i e he
      split at h
      · cases h
      · rename_i hne
        cases h
        exact ⟨by rw [not_and_or, not_not, not_not] at hs; exact hs, he, hne⟩
    · cases h

/-- `body.amountMinor ? BigInt(body.amountMinor) : undefined`. -/
def refundAmount (body : RefundBody) : Except Err (Option Int) :=
  match body.amount? with
  | none => .ok none
  | some a =>
    match a.bigInt with
    | some n => .ok (some n)
    | none => .error (.other "Cannot convert the amount to a BigInt")

/-- The status after a refund of `amount`. -/
def refundStatus (payment : Payment) : Option Int → PaymentStatus
  | some n => if n < payment.amountMinor then .partiallyRefunded else .refunded
  | none => .refunded

theorem refundStatus_cases (payment : Payment) (amount : Option Int) :
    refundStatus payment amount = .partiallyRefunded ∨ refundStatus payment amount = .refunded := by
  unfold refundStatus
  split
  · split
    · exact .inl rfl
    · exact .inr rfl
  · exact .inr rfl

/-- The state machine allows the status after a refund of a row that passes the checks. -/
theorem valid_refundStatus {payment : Payment}
    (h : payment.status = .captured ∨ payment.status = .partiallyRefunded) (amount : Option Int) :
    Valid payment.status (refundStatus payment amount) := by
  rcases h with h | h <;> rcases refundStatus_cases payment amount with hst | hst <;>
    rw [h, hst] <;> decide

/-- The entry of the audit log for a refund. -/
def refundedEntry (ctx : OrgContext) (payment : Payment) (newStatus : PaymentStatus)
    (refund : Refund) : AuditEntry where
  tenantId := payment.tenantId
  organizationId := some ctx.organizationId
  actorId := some ctx.userId
  action := "payment.refunded"
  resourceId := payment.id
  resourceType := "Payment"
  before := some (.obj [("status", .str payment.status.text)])
  after := some (.obj [("status", .str newStatus.text), ("refundId", .str refund.id)])

/-- `refund` after the provider accepted: the status, the transaction and the audit log. -/
def refundAccepted (payment : Payment) (body : RefundBody) (ctx : OrgContext)
    (amount : Option Int) (result : RefundResult) : Service RefundedPayment := do
  let newStatus := refundStatus payment amount
  .ofExcept (assertValidTransition payment.status newStatus)
  let (updated, refund) ← request (.recordRefund payment newStatus body amount result)
  request (.auditLog (refundedEntry ctx payment newStatus refund))
  return {
    payment := serialize updated
    refund := ⟨refund.id, toString refund.amountMinor, refund.externalRefundId, refund.status⟩ }

/-- `refund` of a row that was found. -/
def refundFound (registry : ProviderRegistry) (payment : Payment) (body : RefundBody)
    (ctx : OrgContext) : Service RefundedPayment := do
  let externalId ← .ofExcept (checkRefundable payment)
  let provider ← .ofExcept (registry.get payment.providerId)
  let amount ← .ofExcept (refundAmount body)
  let result ← request (.refundCharge provider.id ⟨externalId, amount, body.reason⟩)
  refundAccepted payment body ctx amount result

def refund (registry : ProviderRegistry) (id : String) (body : RefundBody) (ctx : OrgContext) :
    Service RefundedPayment := do
  let payment ← request (.findPayment {
    id := some id
    organizationId := some ctx.organizationId })
  match payment with
  | some payment => refundFound registry payment body ctx
  | none => .throw (notFound id)

end PaymentsService

end Pasarela
