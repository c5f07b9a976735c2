import Pasarela.Effects
import Pasarela.Payments

/-!
# Requests that the validators accept

The validators of `CreatePaymentDto` know the methods of the database (`PaymentMethodKind`), and
`METHOD_MAP` those of the provider interface.

* `toPrismaMethod_text`: no name of the first kind is one of the second.
* `Served`: what `create` should come to for a validated request with a new key.
* `validated_never_served`: so it is refused, whatever the environment does.
-/

namespace Pasarela

open Conc (Outcome Prog)
open PaymentsService

/-- `create` returned a payment that exists with the fields of the request, in the status that
`result` of the charge maps to. -/
def Served (dto : CreatePaymentDto) (key : String) (ctx : OrgContext) (result : ChargeResult)
    (o : Outcome machine SerializedPayment) : Prop :=
  ∃ a, o.result = .ok a ∧ ∃ p ∈ o.state.payments, p.id = a.payment.id ∧
    p.organizationId = ctx.organizationId ∧ p.idempotencyKey = key ∧
    p.amountMinor = dto.amountMinor ∧ p.currency = dto.currency ∧ p.country = dto.country ∧
    p.method.text = dto.method ∧ p.status = mapProviderStatus result.status

/-- A name of the database is not in `METHOD_MAP`. -/
theorem toPrismaMethod_text (m : PaymentMethodKind) :
    toPrismaMethod m.text = .error (.badRequest s!"Método de pago inválido: {m.text}") := by
  cases m <;> rfl

theorem CreatePaymentDto.Accepted.toPrismaMethod {v : Validators} {dto : CreatePaymentDto}
    (h : dto.Accepted v) :
    toPrismaMethod dto.method =
      .error (.badRequest s!"Método de pago inválido: {dto.method}") := by
  obtain ⟨m, -, hm⟩ := List.mem_map.mp h.method
  rw [← hm]
  exact toPrismaMethod_text m

section Refused

variable {ω : Op → Decision} {registry : ProviderRegistry} {dto : CreatePaymentDto} {key : String}
  {ctx : OrgContext} {s : World} {v : Validators} {provider : PaymentProvider}

/-- `createNew` stops at the method. -/
theorem createNew_refused (hv : dto.Accepted v)
    (hp : registry.selectFor dto.country dto.currency = .ok provider) :
    ((createNew registry dto key ctx).run ω s).result =
        .error (.badRequest s!"Método de pago inválido: {dto.method}") ∧
      ((createNew registry dto key ctx).run ω s).state = s.addPending dto.country 1 := by
  rw [createNew_of_bad_method hp hv.toPrismaMethod, run_incrementPending]
  exact ⟨rfl, rfl⟩

theorem create_of_new (hkey : Js.isBlank key = false)
    (hnew : ∀ p ∈ s.payments, ¬ (p.organizationId = ctx.organizationId ∧ p.idempotencyKey = key))
    (hf : ∀ o, (ω o).fail = none) :
    ∃ e, (create registry dto (some key) ctx).run ω s =
      ((createNew registry dto key ctx).run ω s).after [e] := by
  have hcheck : checkKey (some key) = .ok key := by
    rw [checkKey, if_neg (by rw [hkey]; exact Bool.false_ne_true)]
  obtain ⟨f, hcreate, -, hnone⟩ := create_of_key registry dto ctx hcheck
  let w : PaymentWhere :=
    { organizationId := some ctx.organizationId, idempotencyKey := some key }
  have hx : exec (.findPayment w) (ω (.findPayment w)) s = (.ok none, s) :=
    exec_findPayment_of_none (hf _) fun p hp => by
      rw [Bool.eq_false_iff]
      exact fun h => hnew p hp (PaymentWhere.holds_org_key.mp h)
  rw [hcreate, Prog.run_perform_ok (M := machine) hx, hnone]
  exact ⟨_, rfl⟩

end Refused

/-- The database works at every request, and the provider answers a charge with `result`. -/
structure Healthy (ω : Op → Decision) (result : ChargeResult) : Prop where
  fail : ∀ o, (ω o).fail = none
  charge : ∀ o, (ω o).charge = .answered result

/-- **A validated request is never served**: with a new key, a provider that matches, and a database
and a provider that work, it is refused for its method, and no payment is inserted. -/
theorem validated_never_served (v : Validators) (registry : ProviderRegistry)
    (provider : PaymentProvider) (dto : CreatePaymentDto) (key : String) (ctx : OrgContext)
    (ω : Op → Decision) (result : ChargeResult) (s : World) (hv : dto.Accepted v)
    (hkey : Js.isBlank key = false)
    (hnew : ∀ p ∈ s.payments, ¬ (p.organizationId = ctx.organizationId ∧ p.idempotencyKey = key))
    (hp : registry.selectFor dto.country dto.currency = .ok provider) (hω : Healthy ω result) :
    ((create registry dto (some key) ctx).run ω s).result =
        .error (.badRequest s!"Método de pago inválido: {dto.method}") ∧
      ((create registry dto (some key) ctx).run ω s).state.payments = s.payments ∧
      ¬ Served dto key ctx result ((create registry dto (some key) ctx).run ω s) := by
  obtain ⟨e, hrun⟩ : ∃ e, (create registry dto (some key) ctx).run ω s =
      ((createNew registry dto key ctx).run ω s).after [e] := create_of_new hkey hnew hω.fail
  obtain ⟨hresult, hstate⟩ : ((createNew registry dto key ctx).run ω s).result = _ ∧
      ((createNew registry dto key ctx).run ω s).state = _ := createNew_refused hv hp
  rw [hrun, Outcome.after_result, Outcome.after_state, hresult, hstate]
  refine ⟨rfl, rfl, ?_⟩
  rintro ⟨a, ha, -⟩
  rw [Outcome.after_result, hresult] at ha
  cases ha

/-! ### The request of the end-to-end test -/

/-- The predicates of the library on the fields of that request. -/
def sampleValidators : Validators where
  isISO31661Alpha2 c := c = "AR"
  isEmail e := e = "test@example.com"
  isURL _ := false

def basePayload : CreatePaymentDto where
  amountMinor := 10000
  currency := "ARS"
  country := "AR"
  method := "CARD"
  customerId := some "cust_e2e_01"
  email := some "test@example.com"
  description := some "Test payment"
  returnUrl := none
  metadata := none

theorem accepted_basePayload : basePayload.Accepted sampleValidators where
  amountMinor := by decide
  currency := by decide
  country := by decide
  method := by decide
  customerId := ⟨"cust_e2e_01", rfl, by decide⟩
  email := by decide
  returnUrl := rfl
  metadata := rfl

/-- The environment in which the provider captures the charge. -/
def capturingAll : Op → Decision := fun _ =>
  { charge := .answered ⟨"fake_key-001", .captured, .null⟩ }

theorem never_served_sample :
    ¬ Served basePayload "key-001" sampleCtx ⟨"fake_key-001", .captured, .null⟩
      ((create fakeRegistry basePayload (some "key-001") sampleCtx).run capturingAll .empty) :=
  (validated_never_served sampleValidators fakeRegistry _ basePayload "key-001" sampleCtx
    capturingAll ⟨"fake_key-001", .captured, .null⟩ .empty accepted_basePayload (by decide)
    (fun _ hp => absurd hp Store.Table.not_mem_empty) rfl
    ⟨fun _ => rfl, fun _ => rfl⟩).2.2

/-- The request of the test is refused. -/
theorem validated_refused : ¬ ∀ (v : Validators) (registry : ProviderRegistry)
    (provider : PaymentProvider) (dto : CreatePaymentDto) (key : String) (ctx : OrgContext)
    (ω : Op → Decision) (result : ChargeResult) (s : World), dto.Accepted v →
    Js.isBlank key = false →
    (∀ p ∈ s.payments, ¬ (p.organizationId = ctx.organizationId ∧ p.idempotencyKey = key)) →
    ctx.canWrite.truthy = true → registry.selectFor dto.country dto.currency = .ok provider →
    Healthy ω result →
    Served dto key ctx result ((create registry dto (some key) ctx).run ω s) := by
  intro h
  obtain ⟨a, ha, -⟩ := h sampleValidators fakeRegistry _ basePayload "key-001" sampleCtx
    capturingAll ⟨"fake_key-001", .captured, .null⟩ .empty accepted_basePayload (by decide)
    (fun _ hp => absurd hp Store.Table.not_mem_empty) rfl rfl ⟨fun _ => rfl, fun _ => rfl⟩
  cases ha

end Pasarela
