import Mathlib.Data.List.Sort
import Pasarela.Conc.Prog
import Pasarela.Database

/-!
# The requests of the services, and what each does

One constructor of `Op` for each call that a service awaits: a query, a transaction, a request to
a provider, a queue operation, and each change of the gauge. A request is one atomic step, so the
programs over `machine` interleave at the granularity of the database reads, the provider calls
and the transactions.

* The transactions (`insertPayment`, `recordCharge`, ..) are the callbacks of `$transaction` in the
  services, with what the callback captures as arguments. `payment` is the row that the service
  read before.
* `exec`: the answer of a request, and the state after it.
* `Service α`: a program over `machine`; one definition for each request.
-/

namespace Pasarela

open Js (Json)
open Conc (Machine Prog)
open Store (Table)

/-! ## Transactions -/

/-- The row that `create` inserts. -/
def newPayment (d : Decision) (orgId : String) (dto : CreatePaymentDto)
    (idempotencyKey providerId : String) (method : PaymentMethodKind)
    (customerId : Option String) : Payment where
  id := d.newId .payment
  tenantId := orgId
  organizationId := orgId
  customerId
  idempotencyKey
  amountMinor := dto.amountMinor
  currency := dto.currency
  country := dto.country
  method
  status := .pending
  providerId
  externalId := none
  description := dto.description
  metadata := dto.metadata
  failureCode := none
  failureMessage := none
  createdAt := d.now
  updatedAt := d.now

/-- A new event of the payment `paymentId`. -/
def newEvent (d : Decision) (paymentId type : String) (payload : Json) : PaymentEvent where
  id := d.newId .paymentEvent
  paymentId
  type
  payload
  createdAt := d.now

/-- The customer of the request, if it names one. -/
def upsertDtoCustomer (d : Decision) (orgId : String) (dto : CreatePaymentDto) :
    Tx (Option String) :=
  match dto.customerId.filter (· ≠ "") with
  | none => pure none
  | some externalId => do
    let customer ← upsertCustomer {
      id := d.newId .customer
      tenantId := orgId
      organizationId := orgId
      externalId
      email := dto.email
      country := some dto.country
      createdAt := d.now }
    return some customer.id

/-- `create`: the payment, PENDING. -/
def insertPayment (d : Decision) (orgId : String) (dto : CreatePaymentDto)
    (idempotencyKey providerId : String) (method : PaymentMethodKind) : Tx Payment := do
  let customerId ← upsertDtoCustomer d orgId dto
  let p ← createPayment (newPayment d orgId dto idempotencyKey providerId method customerId)
  let _ ← createPaymentEvent (newEvent d p.id "payment.created"
    (.obj [("providerId", .str providerId), ("organizationId", .str orgId)]))
  return p

/-- The update of a payment's status. -/
def setStatus (d : Decision) (status : PaymentStatus) (p : Payment) : Payment :=
  { p with status, updatedAt := d.now }

theorem keeps_setStatus (d : Decision) (status : PaymentStatus) :
    Table.Keeps Payment.id Payment.tenantKey (setStatus d status) :=
  ⟨fun _ => rfl, fun _ => rfl⟩

/-- The update with the result of a charge. -/
def setCharge (d : Decision) (result : ChargeResult) (status : PaymentStatus) (p : Payment) :
    Payment :=
  { p with externalId := some result.externalId, status, updatedAt := d.now }

theorem keeps_setCharge (d : Decision) (result : ChargeResult) (status : PaymentStatus) :
    Table.Keeps Payment.id Payment.tenantKey (setCharge d result status) :=
  ⟨fun _ => rfl, fun _ => rfl⟩

/-- The update after an error of the provider. -/
def setFailed (d : Decision) (message : String) (p : Payment) : Payment :=
  { p with
    status := .failed
    failureCode := some "PROVIDER_ERROR"
    failureMessage := some message
    updatedAt := d.now }

theorem keeps_setFailed (d : Decision) (message : String) :
    Table.Keeps Payment.id Payment.tenantKey (setFailed d message) :=
  ⟨fun _ => rfl, fun _ => rfl⟩

/-- `create`: the result of the charge. -/
def recordCharge (d : Decision) (payment : Payment) (result : ChargeResult)
    (finalStatus : PaymentStatus) : Tx Payment := do
  let p ← updatePayment payment.id (setCharge d result finalStatus) (keeps_setCharge d _ _)
  let _ ← createPaymentEvent
    (newEvent d payment.id ("provider." ++ result.status.text) result.raw)
  return p

/-- The payload of a `payment.refunded` event. -/
def refundPayload (payment : Payment) (body : RefundBody) (result : RefundResult) : Json :=
  .obj ([
    ("refundId", .str result.externalRefundId),
    ("amount", (body.amountMinor.map Amount.json).getD (.str (toString payment.amountMinor)))] ++
    body.reason.toList.map fun r => ("reason", .str r))

/-- The row that `refund` inserts. -/
def newRefund (d : Decision) (payment : Payment) (body : RefundBody) (amount : Option Int)
    (result : RefundResult) : Refund where
  id := d.newId .refund
  paymentId := payment.id
  amountMinor := amount.getD payment.amountMinor
  reason := body.reason
  externalRefundId := some result.externalRefundId
  status := "REFUNDED"
  createdAt := d.now
  updatedAt := d.now

/-- `refund`: the refund, and the status of the payment. `amount` is
`body.amountMinor ? BigInt(body.amountMinor) : undefined`. -/
def recordRefund (d : Decision) (payment : Payment) (newStatus : PaymentStatus) (body : RefundBody)
    (amount : Option Int) (result : RefundResult) : Tx (Payment × Refund) := do
  let p ← updatePayment payment.id (setStatus d newStatus) (keeps_setStatus d _)
  let _ ← createPaymentEvent
    (newEvent d payment.id "payment.refunded" (refundPayload payment body result))
  let r ← createRefund (newRefund d payment body amount result)
  return (p, r)

/-- A status change with its event: `WebhookProcessor.process` and `reconcileOne`. -/
def changeStatus (d : Decision) (paymentId : String) (newStatus : PaymentStatus) (type : String)
    (payload : Json) : Tx Unit := do
  let _ ← updatePayment paymentId (setStatus d newStatus) (keeps_setStatus d _)
  let _ ← createPaymentEvent (newEvent d paymentId type payload)

/-- `WebhookProcessor.process`: the status that the event reports. -/
def applyWebhook (d : Decision) (payment : Payment) (newStatus : PaymentStatus)
    (event : WebhookEvent) : Tx Unit :=
  changeStatus d payment.id newStatus ("webhook." ++ event.eventType) event.raw

/-- `reconcileOne`: the status that the provider reports. -/
def applyReconciliation (d : Decision) (payment : Payment) (newStatus : PaymentStatus)
    (raw : Json) : Tx Unit :=
  changeStatus d payment.id newStatus "reconciliation.updated"
    (.obj [("from", .str payment.status.text), ("to", .str newStatus.text), ("raw", raw)])

/-- `markProcessed`. -/
def setProcessed (d : Decision) (w : WebhookInbound) : WebhookInbound :=
  { w with status := "processed", processedAt := some d.now }

theorem keeps_setProcessed (d : Decision) :
    Table.Keeps WebhookInbound.id WebhookInbound.providerKey (setProcessed d) :=
  ⟨fun _ => rfl, fun _ => rfl⟩

/-- The row that `WebhooksController.handle` inserts. -/
def newInbound (d : Decision) (providerId : String) (event : WebhookEvent) (headers : Headers) :
    WebhookInbound where
  id := d.newId .webhookInbound
  providerId
  externalId := event.externalId
  headers
  body := event.raw
  processedAt := none
  status := "received"
  createdAt := d.now

/-- The job that `WebhooksController.handle` adds. -/
def newJob (d : Decision) (providerId inboundId : String) (event : WebhookEvent) : WebhookJob where
  jobId := "webhook:" ++ providerId ++ ":" ++ event.externalId
  webhookInboundId := inboundId
  event
  enqueuedAt := d.now

/-- `queue.add`: the queue ignores a job whose id it has. -/
def addJob (j : WebhookJob) (l : List WebhookJob) : List WebhookJob :=
  if j.jobId ∈ l.map (·.jobId) then l else l ++ [j]

theorem addJob_of_new {j : WebhookJob} {l : List WebhookJob} (h : ∀ i ∈ l, i.jobId ≠ j.jobId) :
    addJob j l = l ++ [j] := by
  refine if_neg fun hmem => ?_
  obtain ⟨i, hi, hid⟩ := List.mem_map.mp hmem
  exact h i hi hid

/-! ## Requests -/

/-- `AuditEntry`, without the fields that the payments do not set. -/
structure AuditEntry where
  tenantId : String
  organizationId : Option String
  actorId : Option String
  action : String
  resourceId : String
  resourceType : String
  before : Option Json := none
  after : Option Json := none

/-- The row that `AuditService.log` inserts. -/
def newAuditLog (d : Decision) (entry : AuditEntry) : AuditLog where
  id := d.newId .auditLog
  tenantId := entry.tenantId
  organizationId := some (entry.organizationId.getD entry.tenantId)
  actorId := entry.actorId
  action := entry.action
  resourceId := entry.resourceId
  resourceType := entry.resourceType
  before := entry.before
  after := entry.after
  createdAt := d.now

/-- A request of a service (module doc). -/
inductive Op where
  | findPayment (w : PaymentWhere)
  | findPaymentWithEvents (w : PaymentWhere)
  | pagePayments (w : PaymentWhere) (skip take : Nat)
  | incrementPending (country : String)
  | decrementPending (country : String)
  | insertPayment (orgId : String) (dto : CreatePaymentDto) (idempotencyKey providerId : String)
      (method : PaymentMethodKind)
  | createCharge (providerId : String) (input : CreateChargeInput)
  | recordCharge (payment : Payment) (result : ChargeResult) (finalStatus : PaymentStatus)
  | failPayment (payment : Payment) (message : String)
  | auditLog (entry : AuditEntry)
  | refundCharge (providerId : String) (input : RefundInput)
  | recordRefund (payment : Payment) (newStatus : PaymentStatus) (body : RefundBody)
      (amount : Option Int) (result : RefundResult)
  | applyWebhook (payment : Payment) (newStatus : PaymentStatus) (event : WebhookEvent)
  | markProcessed (id : String)
  | retrieveCharge (providerId externalId : String)
  | applyReconciliation (payment : Payment) (newStatus : PaymentStatus) (raw : Json)
  | findInbound (providerId externalId : String)
  | createInbound (providerId : String) (event : WebhookEvent) (headers : Headers)
  | enqueueWebhook (providerId inboundId : String) (event : WebhookEvent)

/-- The type of a request's answer. -/
@[reducible] def Op.Ans : Op → Type
  | .findPayment _ => Option Payment
  | .findPaymentWithEvents _ => Option (Payment × List PaymentEvent)
  | .pagePayments _ _ _ => List Payment × Nat
  | .incrementPending _ => Unit
  | .decrementPending _ => Unit
  | .insertPayment _ _ _ _ _ => Payment
  | .createCharge _ _ => ChargeResult
  | .recordCharge _ _ _ => Payment
  | .failPayment _ _ => Payment
  | .auditLog _ => Unit
  | .refundCharge _ _ => RefundResult
  | .recordRefund _ _ _ _ _ => Payment × Refund
  | .applyWebhook _ _ _ => Unit
  | .markProcessed _ => WebhookInbound
  | .retrieveCharge _ _ => ChargeResult
  | .applyReconciliation _ _ _ => Unit
  | .findInbound _ _ => Option WebhookInbound
  | .createInbound _ _ _ => WebhookInbound
  | .enqueueWebhook _ _ _ => Unit

/-- A query: it fails, or answers `f` of the state. -/
def query {α : Type} (d : Decision) (f : World → α) (s : World) : Except Err α × World :=
  (match d.fail with
    | some e => .error e
    | none => .ok (f s), s)

/-- `payment.findFirst`. -/
def World.firstPayment (d : Decision) (w : PaymentWhere) (s : World) : Option Payment :=
  s.payments.findFirst (fun p => d.rank p.id) w.holds

/-- The events of a payment, the oldest first. -/
def World.eventsOf (d : Decision) (p : Payment) (s : World) : List PaymentEvent :=
  (s.events.rows.filter fun e => e.paymentId = p.id).insertionSort fun a b =>
    a.createdAt < b.createdAt ∨ a.createdAt = b.createdAt ∧ d.rank a.id ≤ d.rank b.id

/-- `payment.findMany`, the newest first. -/
def World.paymentsBy (d : Decision) (w : PaymentWhere) (s : World) : List Payment :=
  (s.payments.rows.filter w.holds).insertionSort fun a b =>
    b.createdAt < a.createdAt ∨ a.createdAt = b.createdAt ∧ d.rank a.id ≤ d.rank b.id

/-- `incrementPending` and `decrementPending`. -/
def World.addPending (s : World) (country : String) (n : Int) : World :=
  { s with activePending := Function.update s.activePending country (s.activePending country + n) }

/-- What a request answers, and the state after it. -/
def exec : (o : Op) → Decision → World → Except Err o.Ans × World
  | .findPayment w, d, s => query d (World.firstPayment d w) s
  | .findPaymentWithEvents w, d, s =>
    query d (fun s => (s.firstPayment d w).map fun p => (p, s.eventsOf d p)) s
  | .pagePayments w skip take, d, s =>
    query d (fun s =>
      (((s.paymentsBy d w).drop skip).take take, (s.payments.rows.filter w.holds).length)) s
  | .incrementPending country, _, s => (.ok (), s.addPending country 1)
  | .decrementPending country, _, s => (.ok (), s.addPending country (-1))
  | .insertPayment orgId dto key providerId method, d, s =>
    atomically d (insertPayment d orgId dto key providerId method) s
  | .createCharge _ _, d, s => (d.charge.answer, s)
  | .recordCharge payment result finalStatus, d, s =>
    atomically d (recordCharge d payment result finalStatus) s
  | .failPayment payment message, d, s =>
    atomically d (updatePayment payment.id (setFailed d message) (keeps_setFailed d _)) s
  -- `log` catches every error
  | .auditLog entry, d, s => (.ok (), (atomically d (createAuditLog (newAuditLog d entry)) s).2)
  | .refundCharge _ _, d, s => (d.refund.answer, s)
  | .recordRefund payment newStatus body amount result, d, s =>
    atomically d (recordRefund d payment newStatus body amount result) s
  | .applyWebhook payment newStatus event, d, s =>
    atomically d (applyWebhook d payment newStatus event) s
  | .markProcessed id, d, s =>
    atomically d (updateWebhookInbound id (setProcessed d) (keeps_setProcessed d)) s
  | .retrieveCharge _ _, d, s => (d.retrieve, s)
  | .applyReconciliation payment newStatus raw, d, s =>
    atomically d (applyReconciliation d payment newStatus raw) s
  | .findInbound providerId externalId, d, s =>
    query d (fun s => s.inbound.rows.find? fun w => w.providerKey = (providerId, externalId)) s
  | .createInbound providerId event headers, d, s =>
    atomically d (createWebhookInbound (newInbound d providerId event headers)) s
  | .enqueueWebhook providerId inboundId event, d, s =>
    atomically d (fun s =>
      .ok ((), { s with jobs := addJob (newJob d providerId inboundId event) s.jobs })) s

/-- What the services share. -/
abbrev machine : Machine where
  Op := Op
  Ans := Op.Ans
  Dec := Decision
  St := World
  Err := Err
  exec := exec

abbrev Service (α : Type) : Type := Prog machine α

/-- The request `o`. -/
abbrev request (o : Op) : Service o.Ans := Prog.perform (M := machine) o

end Pasarela
