import Pasarela.Adapters
import Pasarela.Js.NumberText
import Pasarela.RefundRace
import Pasarela.RefundStatus
import Pasarela.WebhookDedup

/-!
# The three amounts of a refund

A refund has an amount in the request to the provider, in its row and in its event, and each has its
own default for a missing one.

* `Adapter.sentAmount`: the `amount` of the request that `refund` of an adapter sends, in the unit of
  the provider. `Adapter.asked`: the minor units that the text of this number denotes; the provider
  takes all that remains of the payment if there is none.
* `RefundDone`: what a refund that returned has asked for and written (`refund_run_ok`).
* `OneAmount`: the three amounts are one integer. `Agrees`: the condition for it (`one_amount_iff`).
-/

namespace Pasarela

open Conc (Outcome Prog)
open Js (Json Number)
open PaymentsService

/-! ## The adapters -/

/-- `input.amountMinor ? Number(input.amountMinor) : undefined`. -/
def RefundInput.number (input : RefundInput) : Option Number :=
  (input.amountMinor.filter (· ≠ 0)).map Number.ofInt

/-- The `amount` of the request of `refund`. -/
def StripeProvider.refundAmount (input : RefundInput) : Option Number := input.number

/-- The `amount` of the request of `refund`. -/
def MercadoPagoProvider.refundAmount (input : RefundInput) : Option Number :=
  input.number.map (Number.div 100)

/-- The `amount` of the request of `refund`. -/
def PagarmeProvider.refundAmount (input : RefundInput) : Option Number := input.number

/-- The `amount` of the request of `refund`. -/
def ConektaProvider.refundAmount (input : RefundInput) : Option Number := input.number

/-- The `amount` of the request of `refund`. -/
def DlocalProvider.refundAmount (input : RefundInput) : Option Number :=
  input.number.map (Number.div 100)

/-- The adapters of the repository. -/
inductive Adapter where
  | stripe
  | mercadopago
  | pagarme
  | conekta
  | dlocal
  | fake
  deriving DecidableEq, Repr

namespace Adapter

def id : Adapter → String
  | .stripe => "stripe"
  | .mercadopago => "mercadopago"
  | .pagarme => "pagarme"
  | .conekta => "conekta"
  | .dlocal => "dlocal"
  | .fake => "fake"

/-- The amount of the request (module doc). `FakeProvider` asks nobody for anything. -/
def sentAmount : Adapter → RefundInput → Option Number
  | .stripe, input => StripeProvider.refundAmount input
  | .mercadopago, input => MercadoPagoProvider.refundAmount input
  | .pagarme, input => PagarmeProvider.refundAmount input
  | .conekta, input => ConektaProvider.refundAmount input
  | .dlocal, input => DlocalProvider.refundAmount input
  | .fake, _ => none

/-- The minor units in one unit of the provider's amounts. -/
def unit : Adapter → ℕ
  | .mercadopago => 100
  | .dlocal => 100
  | _ => 1

/-- The minor units that the provider is asked for, when `remaining` of the payment are not refunded
yet; `none` if the request has an amount that is no number. -/
def asked (a : Adapter) (remaining : ℤ) (input : RefundInput) : Option ℚ :=
  match a.sentAmount input with
  | none => some remaining
  | some x => x.denoted.map fun q => q * a.unit

/-- The number that the adapter sends for `n` minor units denotes them. -/
def Carries (a : Adapter) (remaining n : ℤ) : Prop :=
  match a with
  | .fake => remaining = n
  | .mercadopago | .dlocal => ((Number.ofInt n).div 100).denoted = some ((n : ℚ) / 100)
  | _ => (Number.ofInt n).denoted = some (n : ℚ)

end Adapter

/-- The integer that the amount in the payload of an event denotes. -/
def eventAmount (payload : Json) : Option ℤ :=
  match payload.prop "amount" with
  | some (.num n) => some n
  | some (.str s) => Js.bigInt s
  | _ => none

/-! ## A refund that returns -/

/-- What the refund of `p` has asked the adapter for and written. -/
structure RefundDone (body : RefundBody) (ctx : OrgContext) (s : World) (p : Payment)
    (input : RefundInput) (r : Refund) (ev : PaymentEvent)
    (out : Outcome machine RefundedPayment) : Prop where
  payment : p ∈ s.payments
  org : p.organizationId = ctx.organizationId
  refundable : checkRefundable p = .ok input.externalId
  asked : out.trace.filterMap submittedAt = [(p.providerId, input)]
  refund : s.refunds.insert r = .ok out.state.refunds
  event : s.events.insert ev = .ok out.state.events
  amount : refundAmount body = .ok input.amountMinor
  row : r.amountMinor = input.amountMinor.getD p.amountMinor
  payload : ev.payload.prop "amount" =
    some ((body.amountMinor.map Amount.json).getD (.str (toString p.amountMinor)))

section Run

variable {registry : ProviderRegistry} {id : String} {body : RefundBody} {ctx : OrgContext}
  {ω : Op → Decision} {s : World} {a : RefundedPayment}

theorem refundAccepted_run_ok {p : Payment} {amount : Option Int} {result : RefundResult}
    (h : ((refundAccepted p body ctx amount result).run ω s).result = .ok a) :
    ∃ d, s.refunds.insert (newRefund d p body amount result) =
        .ok ((refundAccepted p body ctx amount result).run ω s).state.refunds ∧
      s.events.insert (newEvent d p.id "payment.refunded" (refundPayload p body result)) =
        .ok ((refundAccepted p body ctx amount result).run ω s).state.events ∧
      ((refundAccepted p body ctx amount result).run ω s).trace.filterMap submittedAt = [] := by
  cases hv : assertValidTransition p.status (refundStatus p amount) with
  | error e =>
    rw [refundAccepted, hv] at h
    cases h
  | ok u =>
    obtain ⟨f, g, heq⟩ : ∃ (f : Payment × Refund → AuditEntry)
        (g : Payment × Refund → RefundedPayment), refundAccepted p body ctx amount result =
          (request (.recordRefund p (refundStatus p amount) body amount result)).bind fun x =>
            (request (.auditLog (f x))).bind fun _ => .ret (g x) := by
      rw [refundAccepted, hv]
      exact ⟨_, _, rfl⟩
    rw [heq] at h ⊢
    obtain ⟨x, s₁, hx, hrun⟩ := Prog.run_perform_returns (M := machine) h
    rw [hrun] at h ⊢
    rw [Outcome.after_result] at h
    obtain ⟨y, s₂, hy, hrun₂⟩ := Prog.run_perform_returns (M := machine) h
    rw [hrun₂]
    rcases exec_recordRefund hx with ⟨e, he, -⟩ | ⟨q, -, hins, hw⟩
    · cases he
    · have hsame := (exec_auditLog hy).2
      refine ⟨ω (.recordRefund p (refundStatus p amount) body amount result), ?_, ?_, rfl⟩
      · show s.refunds.insert _ = .ok s₂.refunds
        rw [hsame]
        exact hins
      · show s.events.insert _ = .ok s₂.events
        rw [hsame]
        exact hw.events

/-- The checks that the payment and the body of a refund that returned have passed. -/
theorem refundFound_run_ok {p : Payment}
    (h : ((refundFound registry p body ctx).run ω s).result = .ok a) :
    ∃ externalId amount, checkRefundable p = .ok externalId ∧ refundAmount body = .ok amount ∧
      refundFound registry p body ctx =
        (request (.refundCharge p.providerId ⟨externalId, amount, body.reason⟩)).bind
          (refundAccepted p body ctx amount) := by
  cases hc : checkRefundable p with
  | error e =>
    rw [refundFound, hc] at h
    cases h
  | ok externalId =>
    cases hprov : registry.get p.providerId with
    | error e =>
      rw [refundFound, hc, hprov] at h
      cases h
    | ok provider =>
      cases hamount : refundAmount body with
      | error e =>
        rw [refundFound, hc, hprov, hamount] at h
        cases h
      | ok amount =>
        refine ⟨externalId, amount, rfl, rfl, ?_⟩
        rw [refundFound, hc, hprov, hamount, ← ProviderRegistry.get_id hprov]
        rfl

/-- **What a refund that returned has done.** -/
theorem refund_run_ok (h : ((refund registry id body ctx).run ω s).result = .ok a) :
    ∃ p input r ev, p.id = id ∧
      RefundDone body ctx s p input r ev ((refund registry id body ctx).run ω s) := by
  obtain ⟨f, hrefund, hnone, hsome⟩ : ∃ f : Option Payment → Service RefundedPayment,
      refund registry id body ctx =
        (request (.findPayment { id := some id, organizationId := some ctx.organizationId })).bind f ∧
      f none = .throw (notFound id) ∧ ∀ p, f (some p) = refundFound registry p body ctx :=
    ⟨_, rfl, rfl, fun _ => rfl⟩
  rw [hrefund] at h ⊢
  obtain ⟨x, s₁, hx, hrun⟩ := Prog.run_perform_returns (M := machine) h
  rw [hrun] at h ⊢
  rw [Outcome.after_result] at h
  obtain ⟨rfl, ⟨e, he⟩ | ⟨he, -⟩ | ⟨p, he, hp, hw⟩⟩ := exec_findPayment hx
  · cases he
  · cases he
    rw [hnone] at h
    cases h
  cases he
  obtain ⟨hid, horg⟩ := PaymentWhere.holds_id_org.mp hw
  rw [hsome] at h ⊢
  obtain ⟨externalId, amount, hc, hamount, hfound⟩ := refundFound_run_ok h
  rw [hfound] at h ⊢
  obtain ⟨result, s₂, hx₂, hrun₂⟩ := Prog.run_perform_returns (M := machine) h
  obtain ⟨-, rfl⟩ := Prod.mk.inj hx₂
  rw [hrun₂] at h ⊢
  rw [Outcome.after_result] at h
  obtain ⟨d, hr, hev, htr⟩ := refundAccepted_run_ok h
  refine ⟨p, ⟨externalId, amount, body.reason⟩, _, _, hid, hp, horg, hc, ?_, hr, hev, hamount,
    rfl, rfl⟩
  simp only [Outcome.after_trace, List.filterMap_append, htr, List.filterMap_cons, submittedAt]
  rfl

end Run

/-! ## The three amounts -/

/-- The request, the row and the event denote one integer (module doc). -/
def OneAmount (a : Adapter) (remaining : ℤ) (input : RefundInput) (r : Refund)
    (ev : PaymentEvent) : Prop :=
  ∃ n : ℤ, a.asked remaining input = some (n : ℚ) ∧ r.amountMinor = n ∧
    eventAmount ev.payload = some n

/-- The body asks for an amount on which the three defaults agree: none, and nothing was refunded
before; a falsy one, and there is nothing to refund; an integer that the adapter's number denotes,
where zero asks for all that remains. -/
def Agrees (a : Adapter) (remaining : ℤ) (p : Payment) (body : RefundBody) : Prop :=
  match body.amountMinor with
  | none => remaining = p.amountMinor
  | some v =>
    if v.truthy then
      ∀ n, v.bigInt = some n → if n = 0 then remaining = 0 else a.Carries remaining n
    else p.amountMinor = 0 ∧ remaining = 0

/-- What the refunds in the database leave of a payment. -/
def World.remaining (s : World) (p : Payment) : ℤ := p.amountMinor - s.refundedSum p.id

section Amounts

variable {a : Adapter} {remaining : ℤ} {input : RefundInput} {p : Payment} {body : RefundBody}

theorem asked_of_none (h : input.number = none) : a.asked remaining input = some (remaining : ℚ) := by
  have hsent : a.sentAmount input = none := by
    cases a with
    | stripe => exact h
    | mercadopago => exact congrArg (Option.map _) h
    | pagarme => exact h
    | conekta => exact h
    | dlocal => exact congrArg (Option.map _) h
    | fake => rfl
  rw [Adapter.asked, hsent]

/-- An amount in cents, sent in hundreds of them. -/
theorem map_mul_hundred {x : Option ℚ} {n : ℤ} :
    x.map (fun q => q * ((100 : ℕ) : ℚ)) = some (n : ℚ) ↔ x = some ((n : ℚ) / 100) := by
  cases x with
  | none => simp
  | some q =>
    have h100 : ((100 : ℕ) : ℚ) = 100 := by norm_num
    rw [Option.map_some, Option.some.injEq, Option.some.injEq, h100,
      eq_div_iff (by norm_num : (100 : ℚ) ≠ 0)]

theorem map_mul_one {x : Option ℚ} {n : ℤ} :
    x.map (fun q => q * ((1 : ℕ) : ℚ)) = some (n : ℚ) ↔ x = some (n : ℚ) := by
  cases x <;> simp

theorem asked_of_number {n : ℤ} (h : input.number = some (Number.ofInt n)) :
    a.asked remaining input = some (n : ℚ) ↔ a.Carries remaining n := by
  have hcents : ∀ b : Adapter, b.sentAmount input = some (Number.ofInt n) → b.unit = 1 →
      (b.asked remaining input = some (n : ℚ) ↔ (Number.ofInt n).denoted = some (n : ℚ)) := by
    intro b hs hu
    rw [Adapter.asked, hs, hu]
    exact map_mul_one
  have hmajor : ∀ b : Adapter, b.sentAmount input = some ((Number.ofInt n).div 100) →
      b.unit = 100 → (b.asked remaining input = some (n : ℚ) ↔
        ((Number.ofInt n).div 100).denoted = some ((n : ℚ) / 100)) := by
    intro b hs hu
    rw [Adapter.asked, hs, hu]
    exact map_mul_hundred
  cases a with
  | stripe => exact hcents .stripe h rfl
  | mercadopago => exact hmajor .mercadopago (congrArg (Option.map _) h) rfl
  | pagarme => exact hcents .pagarme h rfl
  | conekta => exact hcents .conekta h rfl
  | dlocal => exact hmajor .dlocal (congrArg (Option.map _) h) rfl
  | fake =>
    show some (remaining : ℚ) = some (n : ℚ) ↔ remaining = n
    rw [Option.some.injEq, Int.cast_inj]

/-- Stripe, Pagar.me and Conekta are sent what is asked of them, below `2 ^ 53`. -/
theorem carries_of_small {n : ℤ} (ha : a.unit = 1) (hf : a ≠ .fake) (hn : n.natAbs < 2 ^ 53) :
    a.Carries remaining n := by
  cases a with
  | stripe => exact Js.denoted_ofInt hn
  | mercadopago => cases ha
  | pagarme => exact Js.denoted_ofInt hn
  | conekta => exact Js.denoted_ofInt hn
  | dlocal => cases ha
  | fake => exact absurd rfl hf

example : ((Number.ofInt 1999).div 100).denoted = some (1999 / 100) ∧
    (Number.ofInt (2 ^ 60)).denoted = some 1152921504606847000 := by decide +kernel

theorem oneAmount_iff {r : Refund} {ev : PaymentEvent} {k m : ℤ}
    (hrow : r.amountMinor = k) (hev : eventAmount ev.payload = some m) :
    OneAmount a remaining input r ev ↔ k = m ∧ a.asked remaining input = some (k : ℚ) := by
  constructor
  · rintro ⟨n, hasked, hn, he⟩
    have hk : k = n := hrow.symm.trans hn
    have hm : m = n := Option.some.inj (hev.symm.trans he)
    subst hk
    exact ⟨hm.symm, hasked⟩
  · rintro ⟨rfl, hasked⟩
    exact ⟨k, hasked, hrow, hev⟩

/-- The amount of the event is the one of the body, as `BigInt` reads it. -/
theorem eventAmount_body {payload : Json} {v : Amount} (h : payload.prop "amount" = some v.json) :
    eventAmount payload = v.bigInt := by
  rw [eventAmount, h]
  cases v <;> rfl

theorem amount?_of_truthy {v : Amount} (hb : body.amountMinor = some v) (hv : v.truthy = true) :
    body.amount? = some v := by
  rw [RefundBody.amount?, hb, Option.filter_some, if_pos hv]

theorem amount?_of_falsy {v : Amount} (hb : body.amountMinor = some v) (hv : ¬ v.truthy = true) :
    body.amount? = none := by
  rw [RefundBody.amount?, hb, Option.filter_some, if_neg hv]

variable {ctx : OrgContext} {s : World} {r : Refund} {ev : PaymentEvent}
  {out : Outcome machine RefundedPayment}

/-- A falsy amount is zero, as `BigInt` reads it. -/
theorem Amount.bigInt_of_falsy {v : Amount} (hv : ¬ v.truthy = true) : v.bigInt = some 0 := by
  cases v with
  | num n =>
    have hn : n = 0 := by simpa [Amount.truthy] using hv
    rw [hn]
    rfl
  | float t => exact absurd rfl hv
  | str t =>
    have ht : t = "" := by simpa [Amount.truthy] using hv
    rw [ht]
    decide

/-- A body without an amount: what remains is asked for, and the whole payment is written. -/
theorem RefundDone.oneAmount_of_absent (h : RefundDone body ctx s p input r ev out)
    (hbody : body.amountMinor = none) :
    OneAmount a remaining input r ev ↔ remaining = p.amountMinor := by
  have hinput : input.amountMinor = none := by
    simpa [refundAmount, RefundBody.amount?, hbody] using h.amount.symm
  have hnone : input.number = none := by simp [RefundInput.number, hinput]
  have hev : eventAmount ev.payload = some p.amountMinor := by
    have hpayload := h.payload
    rw [hbody] at hpayload
    rw [eventAmount, hpayload]
    exact Js.bigInt_toString p.amountMinor
  have hrow := h.row
  rw [hinput] at hrow
  rw [oneAmount_iff hrow hev, asked_of_none hnone, Option.some.injEq, Int.cast_inj]
  simp

/-- A truthy amount: it is the integer of the row and the event, and zero asks for all. -/
theorem RefundDone.oneAmount_of_truthy (h : RefundDone body ctx s p input r ev out) {v : Amount}
    (hbody : body.amountMinor = some v) (hv : v.truthy = true) :
    OneAmount a remaining input r ev ↔
      ∀ n, v.bigInt = some n → if n = 0 then remaining = 0 else a.Carries remaining n := by
  have hamount := h.amount
  simp only [refundAmount, amount?_of_truthy hbody hv] at hamount
  cases hn : v.bigInt with
  | none =>
    rw [hn] at hamount
    cases hamount
  | some n =>
    have hinput : input.amountMinor = some n := by
      rw [hn] at hamount
      exact (Except.ok.inj hamount).symm
    have hev : eventAmount ev.payload = some n := by
      have hpayload := h.payload
      rw [hbody] at hpayload
      exact (eventAmount_body hpayload).trans hn
    have hrow := h.row
    rw [hinput] at hrow
    rw [oneAmount_iff hrow hev]
    simp only [Option.some.injEq, forall_eq']
    by_cases h0 : n = 0
    · have hnone : input.number = none := by simp [RefundInput.number, hinput, h0]
      rw [asked_of_none hnone, Option.some.injEq, Int.cast_inj]
      simp [h0]
    · have hsome : input.number = some (Number.ofInt n) := by
        simp [RefundInput.number, hinput, h0]
      show n = n ∧ a.asked remaining input = some (n : ℚ) ↔ _
      rw [asked_of_number hsome, if_neg h0]
      exact and_iff_right rfl

/-- A falsy amount: all that remains is asked for, the whole payment is written, and the event has
zero. -/
theorem RefundDone.oneAmount_of_falsy (h : RefundDone body ctx s p input r ev out) {v : Amount}
    (hbody : body.amountMinor = some v) (hv : ¬ v.truthy = true) :
    OneAmount a remaining input r ev ↔ p.amountMinor = 0 ∧ remaining = 0 := by
  have hinput : input.amountMinor = none := by
    have hamount := h.amount
    simp only [refundAmount, amount?_of_falsy hbody hv] at hamount
    exact (Except.ok.inj hamount).symm
  have hnone : input.number = none := by simp [RefundInput.number, hinput]
  have hev : eventAmount ev.payload = some 0 := by
    have hpayload := h.payload
    rw [hbody] at hpayload
    exact (eventAmount_body hpayload).trans (Amount.bigInt_of_falsy hv)
  have hrow := h.row
  rw [hinput] at hrow
  rw [oneAmount_iff hrow hev, asked_of_none hnone, Option.some.injEq, Int.cast_inj, Option.getD_none]
  constructor
  · rintro ⟨hp, hr⟩
    exact ⟨hp, hr.trans hp⟩
  · rintro ⟨hp, hr⟩
    exact ⟨hp, hr.trans hp.symm⟩

/-- The condition, case by case of the body. -/
theorem RefundDone.oneAmount_iff_agrees (h : RefundDone body ctx s p input r ev out) :
    OneAmount a remaining input r ev ↔ Agrees a remaining p body := by
  unfold Agrees
  cases hbody : body.amountMinor with
  | none => exact h.oneAmount_of_absent hbody
  | some v =>
    by_cases hv : v.truthy = true
    · simp only [if_pos hv]
      exact h.oneAmount_of_truthy hbody hv
    · simp only [if_neg hv]
      exact h.oneAmount_of_falsy hbody hv

end Amounts

/-- **When a refund has one amount.** A refund that returns has asked for, recorded and reported one
integer, if and only if its body agrees with the payment (`Agrees`). -/
theorem one_amount_iff (registry : ProviderRegistry) (id : String) (body : RefundBody)
    (ctx : OrgContext) (ω : Op → Decision) (s : World) (a : RefundedPayment)
    (h : ((refund registry id body ctx).run ω s).result = .ok a) :
    ∃ p input r ev, p.id = id ∧
      RefundDone body ctx s p input r ev ((refund registry id body ctx).run ω s) ∧
      ∀ (adapter : Adapter) (remaining : ℤ), adapter.id = p.providerId →
        (OneAmount adapter remaining input r ev ↔ Agrees adapter remaining p body) := by
  obtain ⟨p, input, r, ev, hid, hdone⟩ := refund_run_ok h
  exact ⟨p, input, r, ev, hid, hdone, fun _ _ _ => hdone.oneAmount_iff_agrees⟩

/-! ### A refund of zero of 100 -/

def stripePayment : Payment := { samplePayment .captured with
  providerId := "stripe"
  externalId := some "pi_1" }

/-- The provider accepts the refund. -/
def acceptedDecision (_ : Op) : Decision := { refund := .answered acceptedRefund }

/-- The run of a refund with a body. -/
def stripeRefund (body : RefundBody) : Outcome machine RefundedPayment :=
  (refund stripeRegistry "pay" body sampleCtx).run acceptedDecision (World.withPayment stripePayment)

theorem exists_stripeRefund_ok {b : RefundBody} (h : (stripeRefund b).result.isOk = true) :
    ∃ a, (stripeRefund b).result = .ok a := by
  cases hr : (stripeRefund b).result with
  | ok a => exact ⟨a, rfl⟩
  | error e =>
    rw [hr] at h
    cases h

theorem one_amount_sample : ∃ a, (stripeRefund { amountMinor := some (.num 30) }).result = .ok a ∧
    ∃ p input r ev, p.id = "pay" ∧
      RefundDone { amountMinor := some (.num 30) } sampleCtx (World.withPayment stripePayment) p input
        r ev (stripeRefund { amountMinor := some (.num 30) }) ∧
      ∀ (adapter : Adapter) (remaining : ℤ), adapter.id = p.providerId →
        (OneAmount adapter remaining input r ev ↔
          Agrees adapter remaining p { amountMinor := some (.num 30) }) := by
  obtain ⟨a, ha⟩ := exists_stripeRefund_ok (b := { amountMinor := some (.num 30) })
    (by decide +kernel)
  exact ⟨a, ha, one_amount_iff stripeRegistry "pay" { amountMinor := some (.num 30) } sampleCtx
    acceptedDecision (World.withPayment stripePayment) a ha⟩

/-- Stripe is asked for the whole payment of 100, the row has 100, and the event has 0. -/
theorem zero_refund_disagrees : ¬ ∀ (registry : ProviderRegistry) (id : String) (body : RefundBody)
    (ctx : OrgContext) (ω : Op → Decision) (s : World) (a : RefundedPayment) (p : Payment)
    (input : RefundInput) (r : Refund) (ev : PaymentEvent) (adapter : Adapter),
    ((refund registry id body ctx).run ω s).result = .ok a →
    RefundDone body ctx s p input r ev ((refund registry id body ctx).run ω s) →
    adapter.id = p.providerId → OneAmount adapter (s.remaining p) input r ev := by
  intro h
  obtain ⟨a, ha⟩ := exists_stripeRefund_ok (b := { amountMinor := some (.num 0) })
    (by decide +kernel)
  obtain ⟨p, input, r, ev, -, hdone⟩ := refund_run_ok ha
  have hp : p = stripePayment := List.mem_singleton.mp hdone.payment
  have hone := h _ _ _ _ _ _ a p input r ev .stripe ha hdone (by rw [hp]; rfl)
  have hagree : p.amountMinor = 0 ∧ _ := hdone.oneAmount_iff_agrees.mp hone
  rw [hp] at hagree
  exact absurd hagree.1 (by decide)

end Pasarela
