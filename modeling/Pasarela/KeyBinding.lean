import Pasarela.Http
import Pasarela.Idempotency
import Pasarela.Validation

/-!
# A key that is used again with another body

After any run of `create` calls in which one returned a payment, a request to `POST /payments` of
the same organization with the same key.

* `returned_row`: the payment that the call returned is the one row of its key.
* `create_replays`: `create` finds it, and returns it for any body.
* `second_body_answered`: so the request is not refused: nothing on its way compares the bodies.
-/

namespace Pasarela

open Conc (Conf Prog Proto)
open Js (Json)
open PaymentsService

section Replay

variable {ι : Type} [DecidableEq ι] {registry : ProviderRegistry} {calls : ι → CreateCall}
  {w : World} {c : Conf machine ι SerializedPayment} {t : ι} {first : SerializedPayment}
  {key : String}

theorem returned_key (hr : Conf.Reach Conc.Any (startCreates registry calls w) c)
    (ht : c.thr t = .ret first) (hkey : (calls t).idempotencyKey = some key) :
    checkKey (some key) = .ok key := by
  cases hc : checkKey (some key) with
  | ok k => rw [Option.some.inj (checkKey_ok hc)]
  | error e =>
    have hstart : (startCreates registry calls w).thr t = .throw e := by
      show create registry (calls t).dto (calls t).idempotencyKey (calls t).ctx = .throw e
      rw [hkey, create, hc]
      rfl
    rw [Conf.Reach.thr_of_throw hr hstart] at ht
    cases ht

/-- The row of a call that returned is the one row of its key (module doc). -/
theorem returned_row (hw : w.payments = .empty)
    (hr : Conf.Reach Conc.Any (startCreates registry calls w) c) (ht : c.thr t = .ret first)
    (hkey : (calls t).idempotencyKey = some key) :
    ∃ p ∈ c.st.payments, p.id = first.payment.id ∧
      p.organizationId = (calls t).ctx.organizationId ∧ p.idempotencyKey = key ∧
      ∀ q ∈ c.st.payments, q.organizationId = (calls t).ctx.organizationId →
        q.idempotencyKey = key → q = p := by
  obtain ⟨G, hi, hended⟩ := (Proto.sound (createProto_start registry calls hw) hr).returned ht
  obtain ⟨p, hp, hid, hfor⟩ := (hi.1.fact t).1 _ (hended first rfl)
  simp only [CreateCall.isFor, decide_eq_true_eq] at hfor
  have hpkey : p.idempotencyKey = key := Option.some.inj (hfor.2.symm.trans hkey)
  refine ⟨p, hp, hid, hfor.1.symm, hpkey, fun q hq horg hqkey => ?_⟩
  exact hi.2.unique hq hp (horg.trans hfor.1) (hqkey.trans hpkey.symm)

theorem create_replays {registry : ProviderRegistry} {dto : CreatePaymentDto} {ctx : OrgContext}
    {ω : Op → Decision} {s : World} {p : Payment} (hkey : checkKey (some key) = .ok key)
    (hf : ∀ o, (ω o).fail = none) (hp : p ∈ s.payments)
    (horg : p.organizationId = ctx.organizationId) (hpkey : p.idempotencyKey = key)
    (hu : ∀ q ∈ s.payments, q.organizationId = ctx.organizationId → q.idempotencyKey = key →
      q = p) :
    ((create registry dto (some key) ctx).run ω s).result = .ok (serialize p) := by
  obtain ⟨f, hcreate, hsome, -⟩ := create_of_key registry dto ctx hkey
  let w : PaymentWhere :=
    { organizationId := some ctx.organizationId, idempotencyKey := some key }
  have hx : exec (.findPayment w) (ω (.findPayment w)) s = (.ok (some p), s) := by
    refine exec_findPayment_of_mem (hf _) hp (PaymentWhere.holds_org_key.mpr ⟨horg, hpkey⟩) ?_
    intro q hq hw
    obtain ⟨hqorg, hqkey⟩ := PaymentWhere.holds_org_key.mp hw
    exact hu q hq hqorg hqkey
  rw [hcreate, Prog.run_perform_ok (M := machine) hx, hsome]
  rfl

theorem controller_create {env : HttpEnv} {registry : ProviderRegistry} {headers : Headers}
    {body : Json} {ctx : OrgContext} {dto : CreatePaymentDto}
    (hcheck : PaymentsController.checkRequest env headers body = .ok (ctx, dto)) :
    PaymentsController.create env registry headers body =
      PaymentsService.create registry dto (headers.get "idempotency-key") ctx := by
  rw [PaymentsController.create, hcheck]
  rfl

end Replay

/-- The request is rejected with 409. -/
def Conflicts (r : Except Err SerializedPayment) : Prop := ∃ e, r = .error e ∧ e.status = 409

/-- **A second body is answered with the first payment**, and never with a conflict: for every run
of `create` calls, every call that returned a payment, and every later request of its organization
with its key that the guards and the pipe let through. -/
theorem second_body_answered {ι : Type} [DecidableEq ι] (registry : ProviderRegistry)
    (calls : ι → CreateCall) (w : World) (hw : w.payments = .empty)
    (c : Conf machine ι SerializedPayment)
    (hr : Conf.Reach Conc.Any (startCreates registry calls w) c) (t : ι)
    (first : SerializedPayment) (ht : c.thr t = .ret first) (key : String)
    (hkey : (calls t).idempotencyKey = some key) (env : HttpEnv) (headers : Headers) (body : Json)
    (ctx : OrgContext) (dto : CreatePaymentDto)
    (hcheck : PaymentsController.checkRequest env headers body = .ok (ctx, dto))
    (horg : ctx.organizationId = (calls t).ctx.organizationId)
    (hhead : headers.get "idempotency-key" = some key) (ω : Op → Decision)
    (hf : ∀ o, (ω o).fail = none) :
    (∃ second, ((PaymentsController.create env registry headers body).run ω c.st).result =
        .ok second ∧ second.payment.id = first.payment.id) ∧
      ¬ Conflicts ((PaymentsController.create env registry headers body).run ω c.st).result := by
  obtain ⟨p, hp, hid, hporg, hpkey, hu⟩ := returned_row hw hr ht hkey
  rw [← horg] at hporg hu
  have hresult : ((PaymentsService.create registry dto (some key) ctx).run ω c.st).result =
      .ok (serialize p) := create_replays (returned_key hr ht hkey) hf hp hporg hpkey hu
  rw [controller_create hcheck, hhead, hresult]
  refine ⟨⟨serialize p, rfl, hid⟩, ?_⟩
  rintro ⟨e, he, -⟩
  cases he

/-! ### The requests of the end-to-end test -/

/-- The context of a request with the API key of the test. -/
def keyCtx : OrgContext := ⟨"org", "api-key", .bool true, .bool true, true⟩

/-- The first request, with the method in the vocabulary of the service. -/
def firstCall : CreateCall := ⟨{ basePayload with method := "card" }, some "key-idemp-409", keyCtx⟩

/-- The first request alone: it returns its payment. -/
def firstRun : Conf machine Unit SerializedPayment :=
  (startCreates fakeRegistry (fun _ => firstCall) .empty).play [
    ((), {}), ((), {}), ((), { newId := fun _ => "a" }),
    ((), { charge := .answered ⟨"fake_key-idemp-409", .captured, .null⟩ }),
    ((), { newId := fun _ => "b" }), ((), {}), ((), {})]

theorem reach_firstRun :
    Conf.Reach Conc.Any (startCreates fakeRegistry (fun _ : Unit => firstCall) .empty) firstRun :=
  Conf.reach_play (Conf.plays_any _ _)

/-- The body of the second request, with another amount. -/
def secondBody : Json := .obj [
  ("amountMinor", .num 99999), ("currency", .str "ARS"), ("country", .str "AR"),
  ("method", .str "CARD"), ("customerId", .str "cust_e2e_01"),
  ("email", .str "test@example.com"), ("description", .str "Test payment")]

def secondDto : CreatePaymentDto := { basePayload with amountMinor := 99999 }

/-- One tenant with one API key; the pipe accepts the second body. -/
def sampleEnv : HttpEnv where
  auth := {
    nodeEnv := "production"
    apiKeys := [⟨"k", "hash", "abcdefgh", true, none, ⟨"org", "E2E Tenant"⟩, true⟩]
    compare := fun rawKey hash => rawKey = "pk_abcdefgh_abcdefghij" ∧ hash = "hash"
    now := 0
    firebase := none }
  current _ := 0
  limit := 200
  pipe _ := .ok secondDto

def secondHeaders : Headers :=
  [("x-api-key", "pk_abcdefgh_abcdefghij"), ("idempotency-key", "key-idemp-409")]

theorem checkRequest_secondBody : PaymentsController.checkRequest sampleEnv secondHeaders secondBody =
    .ok (keyCtx, secondDto) := by
  have hkeys : ((PciGuard.flatKeys secondBody).any fun k =>
      Js.toLowerCase k ∈ PciGuard.forbiddenFields) = false := by decide +kernel
  have hpan : PciGuard.hasPan (Js.stringify secondBody) = false := by decide +kernel
  have hpci : PciGuard.canActivate secondBody = .ok () := by
    unfold PciGuard.canActivate
    rw [hkeys, hpan]
    rfl
  rw [PaymentsController.checkRequest, hpci]
  rfl

/-- The environment in which the database works. -/
def working : Op → Decision := fun _ => {}

theorem second_body_sample : ∃ first, firstRun.thr () = .ret first ∧
    (∃ second, ((PaymentsController.create sampleEnv fakeRegistry secondHeaders secondBody).run
      working firstRun.st).result = .ok second ∧ second.payment.id = first.payment.id) ∧
    ¬ Conflicts ((PaymentsController.create sampleEnv fakeRegistry secondHeaders secondBody).run
      working firstRun.st).result :=
  ⟨_, rfl, second_body_answered fakeRegistry (fun _ => firstCall) .empty rfl firstRun reach_firstRun
    () _ rfl "key-idemp-409" rfl sampleEnv secondHeaders secondBody _ secondDto
    checkRequest_secondBody rfl rfl working fun _ => rfl⟩

/-- The second request of the test is not refused. -/
theorem second_body_accepted : ¬ ∀ (registry : ProviderRegistry) (calls : Unit → CreateCall)
    (w : World) (c : Conf machine Unit SerializedPayment) (first : SerializedPayment) (key : String)
    (env : HttpEnv) (headers : Headers) (body : Json) (ctx : OrgContext) (dto : CreatePaymentDto)
    (ω : Op → Decision), w.payments = .empty →
    Conf.Reach Conc.Any (startCreates registry calls w) c → c.thr () = .ret first →
    (calls ()).idempotencyKey = some key →
    PaymentsController.checkRequest env headers body = .ok (ctx, dto) →
    ctx.organizationId = (calls ()).ctx.organizationId →
    headers.get "idempotency-key" = some key → (∀ o, (ω o).fail = none) →
    dto ≠ (calls ()).dto →
    Conflicts ((PaymentsController.create env registry headers body).run ω c.st).result := by
  intro h
  have hne : secondDto ≠ firstCall.dto := fun he => by
    have hamount : (99999 : Int) = 10000 := congrArg CreatePaymentDto.amountMinor he
    omega
  obtain ⟨e, he, -⟩ := h fakeRegistry (fun _ => firstCall) .empty firstRun _ "key-idemp-409"
    sampleEnv secondHeaders secondBody _ secondDto working rfl reach_firstRun rfl rfl
    checkRequest_secondBody rfl rfl (fun _ => rfl) hne
  rw [controller_create checkRequest_secondBody] at he
  cases he

end Pasarela
