import Pasarela.Payments
import Pasarela.Workers

/-!
# The operations as one type

What can run side by side on the payments: `PaymentsCall` is a call of `PaymentsService`, and
`ServiceCall` also an attempt at a webhook job or a reconciliation. A pool of calls is a function
from thread ids to calls. `ServiceCall.asks` says which requests an operation makes
(`ServiceCall.run_asks`).
-/

namespace Pasarela

open Conc (Prog)
open PaymentsService

inductive PaymentsCall where
  | create (dto : CreatePaymentDto) (idempotencyKey : Option String) (ctx : OrgContext)
  | findAll (ctx : OrgContext) (query : ListPaymentsDto)
  | findOne (id : String) (ctx : OrgContext)
  | refund (id : String) (body : RefundBody) (ctx : OrgContext)

/-- The context that a call runs in. -/
def PaymentsCall.ctx : PaymentsCall → OrgContext
  | .create _ _ ctx => ctx
  | .findAll ctx _ => ctx
  | .findOne _ ctx => ctx
  | .refund _ _ ctx => ctx

inductive PaymentsAnswer where
  | payment (p : SerializedPayment)
  | page (p : Page)
  | detail (p : PaymentDetail)
  | refunded (p : RefundedPayment)

def PaymentsCall.run (registry : ProviderRegistry) : PaymentsCall → Service PaymentsAnswer
  | .create dto key ctx => do return .payment (← PaymentsService.create registry dto key ctx)
  | .findAll ctx query => do return .page (← PaymentsService.findAll ctx query)
  | .findOne id ctx => do return .detail (← PaymentsService.findOne id ctx)
  | .refund id body ctx => do return .refunded (← PaymentsService.refund registry id body ctx)

/-- An operation on the payments. -/
inductive ServiceCall where
  | payments (call : PaymentsCall)
  | webhook (job : WebhookJob)
  | reconcile (paymentId : String)

def ServiceCall.run (registry : ProviderRegistry) : ServiceCall → Service Unit
  | .payments call => do let _ ← call.run registry
  | .webhook job => WebhookProcessor.process job
  | .reconcile paymentId => ReconciliationService.reconcileOne registry paymentId

/-! ## The requests of an operation -/

def PaymentsCall.asks : PaymentsCall → Op → Bool
  | .create _ _ _, .findPayment _ => true
  | .create _ _ _, .incrementPending _ => true
  | .create _ _ _, .decrementPending _ => true
  | .create _ _ _, .insertPayment _ _ _ _ _ => true
  | .create _ _ _, .createCharge _ _ => true
  | .create _ _ _, .recordCharge _ _ _ => true
  | .create _ _ _, .failPayment _ _ => true
  | .create _ _ _, .auditLog _ => true
  | .findAll _ _, .pagePayments _ _ _ => true
  | .findOne _ _, .findPaymentWithEvents _ => true
  | .refund _ _ _, .findPayment _ => true
  | .refund _ _ _, .refundCharge _ _ => true
  | .refund _ _ _, .recordRefund _ _ _ _ _ => true
  | .refund _ _ _, .auditLog _ => true
  | _, _ => false

def ServiceCall.asks : ServiceCall → Op → Bool
  | .payments call, o => call.asks o
  | .webhook _, .findPayment _ => true
  | .webhook _, .applyWebhook _ _ _ => true
  | .webhook _, .markProcessed _ => true
  | .reconcile _, .findPayment _ => true
  | .reconcile _, .retrieveCharge _ _ => true
  | .reconcile _, .applyReconciliation _ _ _ => true
  | _, _ => false

section Asks

variable (registry : ProviderRegistry)

theorem charge_asks {P : Op → Prop} {provider : PaymentProvider} {dto : CreatePaymentDto}
    {key : String} {ctx : OrgContext} {payment : Payment} (hcharge : ∀ id i, P (.createCharge id i))
    (hrecord : ∀ p r st, P (.recordCharge p r st)) (hfail : ∀ p m, P (.failPayment p m))
    (hgauge : ∀ country, P (.decrementPending country)) (haudit : ∀ entry, P (.auditLog entry)) :
    ((charge provider dto key ctx payment).tryCatch (chargeFailed dto payment)).Asks P := by
  refine Prog.Asks.tryCatch ?_ fun err => ?_
  · refine Prog.Asks.bind (.perform (hcharge _ _)) fun result => ?_
    refine Prog.Asks.bind (.perform (hrecord _ _ _)) fun updated => ?_
    refine Prog.Asks.bind (.perform (hgauge _)) fun _ => ?_
    exact Prog.Asks.bind (.perform (haudit _)) fun _ => trivial
  · refine Prog.Asks.bind (.perform (hgauge _)) fun _ => ?_
    exact Prog.Asks.bind (.perform (hfail _ _)) fun _ => trivial

theorem create_asks (dto : CreatePaymentDto) (key : Option String) (ctx : OrgContext) :
    (create registry dto key ctx).Asks fun o => (PaymentsCall.create dto key ctx).asks o := by
  refine Prog.Asks.bind (.ofExcept _) fun key => ?_
  refine Prog.Asks.bind (.perform rfl) fun existing => ?_
  cases existing with
  | some payment => trivial
  | none =>
    refine Prog.Asks.bind (.ofExcept _) fun provider => ?_
    refine Prog.Asks.bind (.perform rfl) fun _ => ?_
    refine Prog.Asks.bind (.ofExcept _) fun method => ?_
    refine Prog.Asks.bind (.perform rfl) fun payment => ?_
    exact charge_asks (fun _ _ => rfl) (fun _ _ _ => rfl) (fun _ _ => rfl) (fun _ => rfl) fun _ => rfl

theorem refund_asks (id : String) (body : RefundBody) (ctx : OrgContext) :
    (refund registry id body ctx).Asks fun o => (PaymentsCall.refund id body ctx).asks o := by
  refine Prog.Asks.bind (.perform rfl) fun payment => ?_
  cases payment with
  | none => trivial
  | some payment =>
    refine Prog.Asks.bind (.ofExcept _) fun externalId => ?_
    refine Prog.Asks.bind (.ofExcept _) fun provider => ?_
    refine Prog.Asks.bind (.ofExcept _) fun amount => ?_
    refine Prog.Asks.bind (.perform rfl) fun result => ?_
    refine Prog.Asks.bind (.ofExcept _) fun _ => ?_
    refine Prog.Asks.bind (.perform rfl) fun updated => ?_
    exact Prog.Asks.bind (.perform rfl) fun _ => trivial

theorem PaymentsCall.run_asks (call : PaymentsCall) : (call.run registry).Asks fun o => call.asks o := by
  cases call with
  | create dto key ctx => exact (create_asks registry dto key ctx).bind fun _ => trivial
  | findAll ctx query =>
    exact Prog.Asks.bind (Prog.Asks.bind (.perform rfl) fun _ => trivial) fun _ => trivial
  | findOne id ctx =>
    refine Prog.Asks.bind (Prog.Asks.bind (.perform rfl) fun found => ?_) fun _ => trivial
    cases found with
    | none => trivial
    | some x => trivial
  | refund id body ctx => exact (refund_asks registry id body ctx).bind fun _ => trivial

theorem process_asks (job : WebhookJob) :
    (WebhookProcessor.process job).Asks fun o => (ServiceCall.webhook job).asks o := by
  have hmark : (WebhookProcessor.markProcessed job.webhookInboundId).Asks fun o =>
      (ServiceCall.webhook job).asks o :=
    Prog.Asks.bind (.perform rfl) fun _ => trivial
  refine Prog.Asks.bind (.perform rfl) fun found => ?_
  cases found with
  | none => trivial
  | some payment =>
    show Prog.Asks _ (WebhookProcessor.processFound job payment)
    unfold WebhookProcessor.processFound
    split
    · exact hmark
    · split
      · exact hmark
      · refine Prog.Asks.bind (.ofExcept _) fun _ => ?_
        exact Prog.Asks.bind (.perform rfl) fun _ => hmark

theorem reconcileOne_asks (id : String) :
    (ReconciliationService.reconcileOne registry id).Asks fun o => (ServiceCall.reconcile id).asks o := by
  refine Prog.Asks.bind (.perform rfl) fun found => ?_
  split
  · trivial
  · split
    · trivial
    · refine Prog.Asks.bind (.ofExcept _) fun provider => ?_
      refine Prog.Asks.bind (.perform rfl) fun result => ?_
      split
      · exact .perform rfl
      · trivial

/-- **The requests of an operation.** -/
theorem ServiceCall.run_asks (call : ServiceCall) : (call.run registry).Asks fun o => call.asks o := by
  cases call with
  | payments call => exact (call.run_asks registry).bind fun _ => trivial
  | webhook job => exact process_asks job
  | reconcile id => exact reconcileOne_asks registry id

end Asks

end Pasarela
