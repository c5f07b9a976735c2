import Pasarela.Adapters
import Pasarela.Sequential
import Pasarela.WebhookDedup

/-!
# The event of a partial refund

Stripe sends `charge.refunded` for every refund of a charge, a partial one too, with the amount of
the charge and the amount that is refunded so far. The adapter reads the type of the event and not
the amounts: the status of the event is `refunded`, and the processor writes REFUNDED.

* `IsPartialRefund e p r`: `e` is the event of a refund of `r`, less than the amount of the payment.
* `ProcessorCommits`: the processor finds the payment and its transaction commits.
* `partial_refund_closes_iff`: the event leaves the payment open only if the processor does not
  commit.
-/

namespace Pasarela

open Conc (Alone Prog Proto)
open Js (Json)
open Store (Table)

/-- The event `e` reports that `r` of the payment is refunded, of more (module doc). -/
structure IsPartialRefund (e : Json) (p : Payment) (r : Int) : Prop where
  type : e.prop "type" = some (.str "charge.refunded")
  charge : ∃ data charge externalId, e.prop "data" = some data ∧
    data.prop "object" = some charge ∧
    charge.prop "payment_intent" = some (.str externalId) ∧ p.externalId = some externalId ∧
    charge.prop "amount" = some (.num p.amountMinor) ∧
    charge.prop "amount_refunded" = some (.num r)
  positive : 0 < r
  less : r < p.amountMinor

/-- The payment can be refunded, and it is one of Stripe's. -/
structure Payment.OpenAtStripe (p : Payment) : Prop where
  provider : p.providerId = "stripe"
  status : p.status = .captured ∨ p.status = .partiallyRefunded

/-- The processor finds the payment, and the transaction commits (module doc). -/
structure ProcessorCommits (ω : Op → Decision) (event : WebhookEvent) (p : Payment) (s : World) :
    Prop where
  found : ∃ s', exec (.findPayment {
      externalId := some event.externalId
      providerId := some event.providerId }) (ω (.findPayment {
      externalId := some event.externalId
      providerId := some event.providerId })) s = (.ok (some p), s')
  write : ∃ s', exec (.applyWebhook p .refunded event) (ω (.applyWebhook p .refunded event)) s =
    (.ok (), s')

/-! ## The adapter -/

section Adapter

variable {rt : Runtime} {secret sig : String} {raw : Buffer} {headers : Headers} {e : Json}
  {p : Payment} {r : Int}

/-- A value with a property is neither `null` nor `undefined`. -/
theorem nullish_of_prop {v w : Option Json} {x : Json} {k : String}
    (h : Js.optMember v k = some x) :
    Js.nullish v w = v := by
  cases v with
  | none => cases h
  | some v => cases v <;> first | rfl | cases h

theorem nullish_str {s : String} {w : Option Json} :
    Js.nullish (some (.str s)) w = some (.str s) := rfl

/-- **The adapter reads a partial refund as a refund.** -/
theorem verify_partialRefund (hsig : headers.get "stripe-signature" = some sig) (hne : sig ≠ "")
    (he : rt.constructEvent raw sig secret = .ok e) (hr : IsPartialRefund e p r) :
    ∃ event, (StripeProvider.provider rt secret).verifyWebhook raw headers = .ok event ∧
      event.providerId = "stripe" ∧ p.externalId = some event.externalId ∧
      event.status = .refunded := by
  obtain ⟨data, charge, externalId, hdata, hobject, hintent, hext, -, -⟩ := hr.charge
  have hid : StripeProvider.extractExternalId e = some (.str externalId) := by
    have hobj : Js.optMember (Js.optMember (some e) "data") "object" = some charge := by
      rw [show Js.optMember (some e) "data" = some data from hdata]
      exact hobject
    have hpi : Js.optMember (some charge) "payment_intent" = some (.str externalId) := hintent
    rw [StripeProvider.extractExternalId, hobj, nullish_of_prop hpi, hpi, nullish_str, nullish_str]
  have htype : Js.member (some e) "type" = some (some (.str "charge.refunded")) := by
    have ht : Js.optMember (some e) "type" = some (.str "charge.refunded") := hr.type
    have hnull : Js.isNullish (some e) = false := by
      cases e <;> first | rfl | cases ht
    rw [Js.member, hnull, ht]
    rfl
  have hevent : StripeProvider.event e = some {
      providerId := "stripe"
      eventType := some (.str "charge.refunded")
      externalId := some (.str externalId)
      status := .own .refunded
      raw := e } := by
    rw [StripeProvider.event, htype, hid]
    rfl
  refine ⟨⟨"stripe", "charge.refunded", externalId, .refunded, e⟩, ?_, rfl, hext, rfl⟩
  have hfilter : (headers.get "stripe-signature").filter (· ≠ "") = some sig := by
    rw [hsig]
    simp [hne]
  have hverify : StripeProvider.verifyWebhook rt secret raw headers = .ok {
      providerId := "stripe"
      eventType := some (.str "charge.refunded")
      externalId := some (.str externalId)
      status := .own .refunded
      raw := e } := by
    rw [StripeProvider.verifyWebhook, hfilter]
    simp only [he, hevent, orTypeError]
  show (StripeProvider.verifyWebhook rt secret raw headers).bind AdapterEvent.typed = _
  rw [hverify]
  rfl

end Adapter

/-! ## The processor -/

section Processor

variable {ω : Op → Decision} {job : WebhookJob} {s : World} {p q : Payment}

theorem statusOf_of_mem (hp : p ∈ s.payments) : s.statusOf p.id = some p.status := by
  rw [World.statusOf, Table.find_eq_some.mpr ⟨hp, rfl⟩]
  rfl

/-- A request that leaves the payments alone, after what `Q` says of a status. -/
theorem statusOf_exec {s' : World} {o : Op} {d : Decision} {r : Except Err o.Ans} {id : String}
    (ho : o.writesPayments = false) (hx : exec o d s = (r, s')) :
    s'.statusOf id = s.statusOf id := by
  rw [World.statusOf, exec_payments ho hx, World.statusOf]

theorem processFound_other (hid : q.id ≠ p.id) :
    Alone (M := machine) (fun o d => d = ω o) (fun _ s' => s'.statusOf p.id = s.statusOf p.id)
      (WebhookProcessor.processFound job q) s := by
  obtain ⟨st, hst⟩ : ∃ st, statusMap job.event.status = some st := by
    cases job.event.status <;> exact ⟨_, rfl⟩
  rw [WebhookProcessor.processFound, hst]
  have hmark : ∀ s₁ : World, s₁.statusOf p.id = s.statusOf p.id →
      Alone (M := machine) (fun o d => d = ω o) (fun _ s' => s'.statusOf p.id = s.statusOf p.id)
        (WebhookProcessor.markProcessed job.webhookInboundId) s₁ := by
    intro s₁ h₁
    refine Alone.perform_bind fun d r s₂ _ hx => ?_
    have h₂ : s₂.statusOf p.id = s.statusOf p.id :=
      (statusOf_exec (o := .markProcessed job.webhookInboundId) rfl hx).trans h₁
    cases r with
    | ok a => exact h₂
    | error e => exact h₂
  by_cases hq : q.status = st
  · simp only [if_pos hq]
    exact hmark s rfl
  · simp only [if_neg hq]
    refine Proto.WP.ofExcept_bind (fun _ _ => ?_) fun e _ => rfl
    refine Alone.perform_bind fun d r s₁ _ hx => ?_
    rcases exec_applyWebhook hx with ⟨e, rfl, rfl⟩ | ⟨a, rfl, hw⟩
    · rfl
    · refine hmark s₁ ?_
      rw [World.statusOf, Table.find_update_of_ne hw.payments hid.symm, World.statusOf]

/-- A state that has the status of `p` as it was, when the processor does not commit. -/
theorem refunded_iff_of_left {s' : World} (hopen : s.statusOf p.id ≠ some .refunded)
    (hs : s'.statusOf p.id = s.statusOf p.id) (hn : ¬ ProcessorCommits ω job.event p s) :
    s'.statusOf p.id = some .refunded ↔ ProcessorCommits ω job.event p s :=
  iff_of_false (by rw [hs]; exact hopen) hn

/-- The part of `process` after it found the payment, which is open. -/
theorem processFound_closes (hp : p ∈ s.payments)
    (hst : p.status = .captured ∨ p.status = .partiallyRefunded)
    (he : job.event.status = .refunded)
    (hfound : ∃ s', exec (.findPayment {
      externalId := some job.event.externalId
      providerId := some job.event.providerId }) (ω (.findPayment {
      externalId := some job.event.externalId
      providerId := some job.event.providerId })) s = (.ok (some p), s')) :
    Alone (M := machine) (fun o d => d = ω o)
      (fun _ s' => s'.statusOf p.id = some .refunded ↔ ProcessorCommits ω job.event p s)
      (WebhookProcessor.processFound job p) s := by
  have hne : p.status ≠ .refunded := by rcases hst with h | h <;> rw [h] <;> decide
  have hvalid : assertValidTransition p.status .refunded = .ok () := by
    rcases hst with h | h <;> rw [h] <;> rfl
  have hopen : s.statusOf p.id ≠ some .refunded := by
    rw [statusOf_of_mem hp]
    exact fun h => hne (Option.some.inj h)
  rw [WebhookProcessor.processFound, he]
  simp only [statusMap, if_neg hne]
  rw [hvalid]
  refine Alone.perform_bind fun d r s₁ hd hx => ?_
  subst hd
  rcases exec_applyWebhook hx with ⟨e, rfl, rfl⟩ | ⟨a, rfl, hw⟩
  · refine refunded_iff_of_left hopen rfl fun hc => ?_
    obtain ⟨_, hf⟩ := hc.write
    cases hf.symm.trans hx
  · refine Alone.perform_bind fun d r s₂ _ hx₂ => ?_
    have hrow : s₁.statusOf p.id = some .refunded := by
      obtain ⟨b, -, -, hab, -⟩ := Table.update_some hw.payments
      rw [World.statusOf, Table.find_update_self hw.payments, hab]
      rfl
    have hend : s₂.statusOf p.id = some .refunded :=
      (statusOf_exec (o := .markProcessed job.webhookInboundId) rfl hx₂).trans hrow
    have hdone : s₂.statusOf p.id = some .refunded ↔ ProcessorCommits ω job.event p s :=
      iff_of_true hend ⟨hfound, ⟨_, hx⟩⟩
    cases r with
    | ok w => exact hdone
    | error e => exact hdone

/-- **A refund event closes an open payment iff the processor commits.** -/
theorem process_closes (hp : p ∈ s.payments)
    (hst : p.status = .captured ∨ p.status = .partiallyRefunded)
    (he : job.event.status = .refunded) :
    ((WebhookProcessor.process job).run ω s).state.statusOf p.id = some .refunded ↔
      ProcessorCommits ω job.event p s := by
  have hopen : s.statusOf p.id ≠ some .refunded := by
    rw [statusOf_of_mem hp]
    rcases hst with h | h <;> rw [h] <;> simp
  refine Alone.run (M := machine) (A := fun o d => d = ω o)
    (Q := fun _ s' => s'.statusOf p.id = some .refunded ↔ ProcessorCommits ω job.event p s) ?_
    fun _ => rfl
  refine Alone.perform_bind fun d r s₁ hd hx => ?_
  subst hd
  have hanswer : ProcessorCommits ω job.event p s → r = .ok (some p) := fun hc => by
    obtain ⟨_, hf⟩ := hc.found
    exact (congrArg Prod.fst hx).symm.trans (congrArg Prod.fst hf)
  obtain ⟨rfl, ⟨e, rfl⟩ | ⟨rfl, -⟩ | ⟨q, rfl, hq, -⟩⟩ := exec_findPayment hx
  · exact refunded_iff_of_left hopen rfl fun hc => by cases hanswer hc
  · exact refunded_iff_of_left hopen rfl fun hc => by cases hanswer hc
  by_cases hid : q.id = p.id
  · have hqp : q = p := Table.eq_of_key hq hp hid
    subst hqp
    exact processFound_closes hq hst he ⟨_, hx⟩
  · refine (processFound_other (s := s₁) hid).mono fun _ s' hs => ?_
    refine refunded_iff_of_left hopen hs fun hc => ?_
    cases hanswer hc
    exact hid rfl

/-- The processor commits, when the database works, no other payment has the id of the event, and
the id of the new event is new. -/
theorem ProcessorCommits.of_works {event : WebhookEvent} (hp : p ∈ s.payments) (hm : event.Matches p)
    (hu : s.ExternalUnique) (hf : ∀ o, (ω o).fail = none)
    (he : ∀ o, ∀ ev ∈ s.events, ev.id ≠ (ω o).newId .paymentEvent) : ProcessorCommits ω event p s where
  found := ⟨s, exec_findPayment_of_mem (hf _) hp (PaymentWhere.holds_external.mpr hm)
    fun _ hq hw => hu.matches_eq hq hp (PaymentWhere.holds_external.mp hw) hm⟩
  write := exec_applyWebhook_of_fresh (hf _) ⟨p, hp, rfl⟩ (he _)

end Processor

/-- **A partial refund closes the payment.** For a genuine `charge.refunded` event of a partial
refund of a CAPTURED or PARTIALLY_REFUNDED payment of Stripe, whatever the amounts: the payment is
not REFUNDED after `verifyWebhook` and `process`, if and only if the processor does not commit. -/
theorem partial_refund_closes_iff (rt : Runtime) (secret sig : String) (raw : Buffer)
    (headers : Headers) (hsig : headers.get "stripe-signature" = some sig) (hne : sig ≠ "")
    (e : Json) (he : rt.constructEvent raw sig secret = .ok e) (p : Payment) (r : Int)
    (hr : IsPartialRefund e p r) (ho : p.OpenAtStripe) (s : World) (hp : p ∈ s.payments) :
    ∃ event, (StripeProvider.provider rt secret).verifyWebhook raw headers = .ok event ∧
      event.Matches p ∧ ∀ (job : WebhookJob) (ω : Op → Decision), job.event = event →
        (((WebhookProcessor.process job).run ω s).state.statusOf p.id ≠ some .refunded ↔
          ¬ ProcessorCommits ω event p s) := by
  obtain ⟨event, hv, hprov, hext, hst⟩ := verify_partialRefund hsig hne he hr
  refine ⟨event, hv, ⟨hext, ho.provider.trans hprov.symm⟩, fun job ω hjob => ?_⟩
  subst hjob
  exact not_congr (process_closes hp ho.status hst)

/-! ### A refund of 40 of 100 -/

/-- The event of the refund. -/
def partialRefundEvent : Json := .obj [("type", .str "charge.refunded"),
  ("data", .obj [("object", .obj [("id", .str "ch_1"), ("payment_intent", .str "pi_1"),
    ("amount", .num 100), ("amount_refunded", .num 40)])])]

/-- The client verifies the delivery as that event. -/
def partialRefundRuntime : Runtime := { stripeRuntime with
  constructEvent := fun _ _ _ => .ok partialRefundEvent }

def partlyRefundedPayment : Payment := { samplePayment .partiallyRefunded with
  providerId := "stripe"
  externalId := some "pi_1" }

theorem isPartialRefund_sample : IsPartialRefund partialRefundEvent partlyRefundedPayment 40 where
  type := rfl
  charge := ⟨_, _, "pi_1", rfl, rfl, rfl, rfl, rfl, rfl⟩
  positive := by decide
  less := by decide

def partialRefundHeaders : Headers := [("stripe-signature", "t=1,v1=a")]

theorem partial_refund_sample :
    ∃ event, (StripeProvider.provider partialRefundRuntime "whsec").verifyWebhook .empty
        partialRefundHeaders = .ok event ∧
      event.Matches partlyRefundedPayment ∧
      ∀ (job : WebhookJob) (ω : Op → Decision), job.event = event →
        (((WebhookProcessor.process job).run ω
            (World.withPayment partlyRefundedPayment)).state.statusOf "pay" ≠ some .refunded ↔
          ¬ ProcessorCommits ω event partlyRefundedPayment (World.withPayment partlyRefundedPayment)) :=
  partial_refund_closes_iff partialRefundRuntime "whsec" "t=1,v1=a" .empty partialRefundHeaders rfl
    (by decide) partialRefundEvent rfl partlyRefundedPayment 40 isPartialRefund_sample
    ⟨rfl, .inr rfl⟩ (World.withPayment partlyRefundedPayment) (List.mem_singleton.mpr rfl)

/-- The job of that delivery. -/
def partialRefundJob : WebhookJob where
  jobId := "webhook:stripe:pi_1"
  webhookInboundId := "inbound"
  event := ⟨"stripe", "charge.refunded", "pi_1", .refunded, partialRefundEvent⟩
  enqueuedAt := 0

/-- The payment of which 40 of 100 are refunded is REFUNDED after the event. -/
theorem partial_refund_closed : ¬ ∀ (rt : Runtime) (secret sig : String) (raw : Buffer)
    (headers : Headers) (e : Json) (p : Payment) (r : Int) (s : World) (job : WebhookJob)
    (ω : Op → Decision), headers.get "stripe-signature" = some sig → sig ≠ "" →
    rt.constructEvent raw sig secret = .ok e → IsPartialRefund e p r → p.OpenAtStripe →
    p ∈ s.payments →
    (StripeProvider.provider rt secret).verifyWebhook raw headers = .ok job.event →
    ((WebhookProcessor.process job).run ω s).state.statusOf p.id ≠ some .refunded := by
  intro h
  refine h partialRefundRuntime "whsec" "t=1,v1=a" .empty partialRefundHeaders partialRefundEvent
    partlyRefundedPayment 40 (World.withPayment partlyRefundedPayment) partialRefundJob
    (fun _ => {}) rfl (by decide) rfl isPartialRefund_sample ⟨rfl, .inr rfl⟩
    (List.mem_singleton.mpr rfl) rfl ?_
  decide +kernel

end Pasarela
