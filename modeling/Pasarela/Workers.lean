import Pasarela.Machine
import Pasarela.StateMachine

/-!
# Webhooks and reconciliation

* `WebhooksController.handle` (`webhooks/webhooks.controller.ts`): a delivery of a provider is
  verified, looked up, stored and put into the queue. `raw` is the buffer that it verifies.
* `WebhookProcessor.process` (`webhooks/webhook.processor.ts`): one attempt at a job.
* `ReconciliationService.reconcileOne` (`payments/reconciliation.service.ts`): one payment is
  brought to the status that its provider reports.

Logs and webhook metrics are left out.
-/

namespace Pasarela

open Conc (Prog)

/-- `STATUS_MAP`, the same in the processor and in the reconciliation: every status of the provider
interface has an entry. -/
def statusMap : ChargeStatus → Option PaymentStatus
  | .pending => some .pending
  | .authorized => some .authorized
  | .captured => some .captured
  | .failed => some .failed
  | .cancelled => some .cancelled
  | .refunded => some .refunded

structure Received where
  received : Bool
  deriving DecidableEq, Repr

def invalidSignature : Err := .unauthorized "Firma de webhook inválida"

/-- The event of a delivery: an error of `verifyWebhook` is an invalid signature. -/
def verifyDelivery (provider : PaymentProvider) (raw : Buffer) (headers : Headers) :
    Except Err WebhookEvent :=
  match provider.verifyWebhook raw headers with
  | .ok event => .ok event
  | .error _ => .error invalidSignature

namespace WebhooksController

/-- `handle` after the signature: the lookup, the row and the job. -/
def accept (providerId : String) (event : WebhookEvent) (headers : Headers) :
    Service Received := do
  let existing ← request (.findInbound providerId event.externalId)
  match existing with
  | some _ => return ⟨true⟩
  | none => do
    let inbound ← request (.createInbound providerId event headers)
    request (.enqueueWebhook providerId inbound.id event)
    return ⟨true⟩

def handle (registry : ProviderRegistry) (providerId : String) (raw : Buffer) (headers : Headers) :
    Service Received := do
  let provider ← .ofExcept (registry.get providerId)
  let event ← .ofExcept (verifyDelivery provider raw headers)
  accept providerId event headers

end WebhooksController

namespace WebhookProcessor

def paymentNotFound (event : WebhookEvent) : Err :=
  .other s!"Payment no encontrado: {event.externalId}"

def markProcessed (webhookInboundId : String) : Service Unit := do
  let _ ← request (.markProcessed webhookInboundId)

/-- The part of `process` after the payment was found. -/
def processFound (job : WebhookJob) (payment : Payment) : Service Unit := do
  match statusMap job.event.status with
  | none => markProcessed job.webhookInboundId
  | some newStatus =>
    if payment.status = newStatus then markProcessed job.webhookInboundId
    else do
      .ofExcept (assertValidTransition payment.status newStatus)
      request (.applyWebhook payment newStatus job.event)
      markProcessed job.webhookInboundId

def process (job : WebhookJob) : Service Unit := do
  let payment ← request (.findPayment {
    externalId := some job.event.externalId
    providerId := some job.event.providerId })
  match payment with
  | some payment => processFound job payment
  | none => .throw (paymentNotFound job.event)

end WebhookProcessor

namespace ReconciliationService

/-- The transition that a reconciliation makes, if it is one and the state machine allows it. -/
def transition (status : PaymentStatus) (reported : ChargeStatus) : Option PaymentStatus :=
  (statusMap reported).filter fun newStatus =>
    status ≠ newStatus ∧ (assertValidTransition status newStatus).isOk

theorem transition_some {status newStatus : PaymentStatus} {reported : ChargeStatus}
    (h : transition status reported = some newStatus) : Valid status newStatus := by
  obtain ⟨-, hp⟩ := Option.filter_eq_some_iff.mp h
  rw [decide_eq_true_eq] at hp
  rw [← assertValidTransition_ok]
  cases hv : assertValidTransition status newStatus with
  | ok u => rfl
  | error e => rw [hv] at hp; cases hp.2

def reconcileFound (registry : ProviderRegistry) (payment : Payment) (externalId : String) :
    Service Unit := do
  let provider ← .ofExcept (registry.get payment.providerId)
  let result ← request (.retrieveCharge provider.id externalId)
  match transition payment.status result.status with
  | some newStatus => request (.applyReconciliation payment newStatus result.raw)
  | none => return

def reconcileOne (registry : ProviderRegistry) (paymentId : String) : Service Unit := do
  let payment ← request (.findPayment { id := some paymentId })
  match payment with
  | none => return
  | some payment =>
    match payment.externalId.filter (· ≠ "") with
    | none => return
    | some externalId => reconcileFound registry payment externalId

end ReconciliationService

end Pasarela
