import Pasarela.Calls
import Pasarela.Conc.Serial
import Pasarela.Effects

/-!
# What each operation does when no other one overlaps it

One lemma for each operation: under any decisions of the environment, how its run ends, from any
state. The results about operations that follow one another use these and never look into the
operations.

* `Unmoved s s'`: the payments, the events and the refunds are the same.
* `StatusWritten p st s s'`: the payment `p` has the status `st`, which the state machine allows,
  and one event of it was written.
* `process_alone`, `reconcile_alone`, `refund_alone`, `create_alone`; `process_run` and `refund_run`
  are about the run under given decisions.
* `Advances s s'`: each payment is there with the same ids, and it is not behind what it was.
  Every operation advances the payments (`call_alone`).
-/

namespace Pasarela

open Conc (Alone Proto Prog)
open Store (Table)
open PaymentsService

/-- The status of the payment. -/
def World.statusOf (s : World) (id : String) : Option PaymentStatus :=
  (s.payments.find id).map (·.status)

/-- The payments, the events and the refunds are the same. -/
structure Unmoved (s s' : World) : Prop where
  payments : s'.payments = s.payments
  events : s'.events = s.events
  refunds : s'.refunds = s.refunds

/-- A status of the payment `p` was written (module doc). -/
structure StatusWritten (p : Payment) (st : PaymentStatus) (s s' : World) : Prop where
  mem : p ∈ s.payments
  valid : Valid p.status st
  payments : ∃ d q, s.payments.update p.id (setStatus d st) (keeps_setStatus d st) =
    some (q, s'.payments)
  events : ∃ ev, ev.paymentId = p.id ∧ s.events.insert ev = .ok s'.events

/-- The payment is one that the event is about. -/
def WebhookEvent.Matches (event : WebhookEvent) (p : Payment) : Prop :=
  p.externalId = some event.externalId ∧ p.providerId = event.providerId

/-- At most one payment has an id at a provider. -/
def World.ExternalUnique (s : World) : Prop :=
  ∀ p ∈ s.payments, ∀ q ∈ s.payments, p.externalId ≠ none → p.externalId = q.externalId →
    p.providerId = q.providerId → p = q

theorem World.ExternalUnique.matches_eq {s : World} (h : s.ExternalUnique) {event : WebhookEvent}
    {p q : Payment} (hp : p ∈ s.payments) (hq : q ∈ s.payments) (hmp : event.Matches p)
    (hmq : event.Matches q) : p = q := by
  refine h p hp q hq ?_ (hmp.1.trans hmq.1.symm) (hmp.2.trans hmq.2.symm)
  rw [hmp.1]
  exact Option.some_ne_none _

section Rows

variable {s s' s'' : World} {p : Payment} {st : PaymentStatus}

theorem Unmoved.refl (s : World) : Unmoved s s := ⟨rfl, rfl, rfl⟩

/-- A request that writes no payments, after an operation that did not move anything. -/
theorem Unmoved.exec (h : Unmoved s s') {o : Op} {d : Decision} {r : Except Err o.Ans}
    (ho : o.writesPayments = false) (hx : exec o d s' = (r, s'')) : Unmoved s s'' := by
  have hs := exec_others ho hx
  exact ⟨by rw [hs]; exact h.payments, by rw [hs]; exact h.events, by rw [hs]; exact h.refunds⟩

theorem StatusWritten.of_written {d : Decision} {ev : PaymentEvent} {q : Payment}
    (hp : p ∈ s.payments) (hv : Valid p.status st) (hev : ev.paymentId = p.id)
    (h : Written p.id (setStatus d st) (keeps_setStatus d st) ev s q s') :
    StatusWritten p st s s' :=
  ⟨hp, hv, ⟨d, q, h.payments⟩, ⟨ev, hev, h.events⟩⟩

/-- A request that writes no payments, after the status was written. -/
theorem StatusWritten.exec (h : StatusWritten p st s s') {o : Op} {d : Decision}
    {r : Except Err o.Ans} (ho : o.writesPayments = false) (hx : exec o d s' = (r, s'')) :
    StatusWritten p st s s'' := by
  have hs := exec_others ho hx
  refine ⟨h.mem, h.valid, ?_, ?_⟩
  · rw [hs]
    exact h.payments
  · rw [hs]
    exact h.events

/-- The rows after the status was written: the others, and `p` with its status. -/
theorem StatusWritten.row (h : StatusWritten p st s s') :
    ∃ d, setStatus d st p ∈ s'.payments ∧
      ∀ q, q ∈ s'.payments ↔ (q ∈ s.payments ∧ q.id ≠ p.id) ∨ q = setStatus d st p := by
  obtain ⟨d, q, hu⟩ := h.payments
  obtain ⟨a, ha, hid, rfl, -⟩ := Table.update_some hu
  have hap : a = p := Table.eq_of_key ha h.mem hid
  rw [hap] at hu
  exact ⟨d, (Table.mem_update hu).mpr (.inr rfl), fun q => Table.mem_update hu⟩

end Rows

/-! ## Webhooks and reconciliation -/

/-- How an attempt at a job ends. It throws, or the payment has the status of the event already, or
the status is written; the mark on the delivery comes last, and may fail. -/
inductive Processed (job : WebhookJob) (s : World) (r : Except Err Unit) (s' : World) : Prop where
  | thrown (e : Err) (hr : r = .error e) (hs : Unmoved s s')
  | skipped (p : Payment) (hp : p ∈ s.payments) (hm : job.event.Matches p)
      (hst : statusMap job.event.status = some p.status) (hs : Unmoved s s')
  | applied (p : Payment) (st : PaymentStatus) (hm : job.event.Matches p)
      (hst : statusMap job.event.status = some st) (hne : p.status ≠ st)
      (hs : StatusWritten p st s s')

section Operations

variable {A : Op → Decision → Prop} {s : World}

theorem process_alone (job : WebhookJob) :
    Alone (M := machine) A (Processed job s) (WebhookProcessor.process job) s := by
  refine Alone.perform_bind fun d r s₁ _ hx => ?_
  obtain ⟨rfl, ⟨e, rfl⟩ | ⟨rfl, -⟩ | ⟨p, rfl, hp, hw⟩⟩ := exec_findPayment hx
  · exact .thrown e rfl (.refl _)
  · exact .thrown _ rfl (.refl _)
  have hm : job.event.Matches p := PaymentWhere.holds_external.mp hw
  obtain ⟨st, hst⟩ : ∃ st, statusMap job.event.status = some st := by
    cases job.event.status <;> exact ⟨_, rfl⟩
  show Alone (M := machine) A _ (WebhookProcessor.processFound job p) s₁
  rw [WebhookProcessor.processFound, hst]
  by_cases he : p.status = st
  · simp only [if_pos he]
    refine Alone.perform_bind fun d r s₂ _ hx => ?_
    have hdone : ∀ r, Processed job s₁ r s₂ := fun r =>
      .skipped p hp hm (by rw [he]; exact hst)
        ((Unmoved.refl s₁).exec (o := .markProcessed job.webhookInboundId) rfl hx)
    cases r with
    | ok w => exact hdone _
    | error e => exact hdone _
  · simp only [if_neg he]
    refine Proto.WP.ofExcept_bind (fun _ hv => ?_) fun e _ => .thrown e rfl (.refl _)
    refine Alone.perform_bind fun d r s₂ _ hx => ?_
    rcases exec_applyWebhook hx with ⟨e, rfl, rfl⟩ | ⟨q, rfl, hwr⟩
    · exact .thrown e rfl (.refl _)
    refine Alone.perform_bind fun d r s₃ _ hx => ?_
    have hw₂ : StatusWritten p st s₁ s₂ :=
      .of_written hp (assertValidTransition_ok.mp hv) rfl hwr
    have hdone : ∀ r, Processed job s₁ r s₃ := fun r => .applied p st hm hst he
      (hw₂.exec (o := .markProcessed job.webhookInboundId) rfl hx)
    cases r with
    | ok w => exact hdone _
    | error e => exact hdone _

theorem process_run (job : WebhookJob) (ω : Op → Decision) (s : World) :
    Processed job s ((WebhookProcessor.process job).run ω s).result
      ((WebhookProcessor.process job).run ω s).state :=
  (process_alone (A := fun _ _ => True) job).run fun _ => trivial

/-- How a reconciliation ends: nothing moved, or the status that the provider reports is written. -/
def Reconciled (K : ChargeStatus → Prop) (id : String) (s s' : World) : Prop :=
  Unmoved s s' ∨ ∃ p st reported, p.id = id ∧ K reported ∧ statusMap reported = some st ∧
    StatusWritten p st s s'

/-- `K` is what the provider reports. -/
theorem reconcile_alone (registry : ProviderRegistry) (id : String) {K : ChargeStatus → Prop}
    (hK : ∀ o d r, A o d → d.retrieve = .ok r → K r.status) :
    Alone (M := machine) A (fun _ s' => Reconciled K id s s')
      (ReconciliationService.reconcileOne registry id) s := by
  refine Alone.perform_bind fun d r s₁ _ hx => ?_
  obtain ⟨rfl, ⟨e, rfl⟩ | ⟨rfl, -⟩ | ⟨p, rfl, hp, hw⟩⟩ := exec_findPayment hx
  · exact .inl (.refl _)
  · exact .inl (.refl _)
  have hid : p.id = id := by simpa [PaymentWhere.holds, eq_comm] using hw
  simp only
  split
  · exact .inl (.refl _)
  refine Proto.WP.ofExcept_bind (fun provider _ => ?_) fun e _ => .inl (.refl _)
  refine Alone.perform_bind fun d r s₂ ha hx => ?_
  obtain ⟨rfl, rfl⟩ := Prod.mk.inj hx
  cases hret : d.retrieve with
  | error e => exact .inl (.refl _)
  | ok result =>
    simp only
    split
    · rename_i st hst
      refine Alone.perform fun d' r s₃ _ hx => ?_
      rcases exec_applyReconciliation hx with ⟨e, rfl, rfl⟩ | ⟨q, rfl, hwr⟩
      · exact .inl (.refl _)
      · refine .inr ⟨p, st, result.status, hid, hK _ d result ha hret, ?_, ?_⟩
        · exact (Option.filter_eq_some_iff.mp hst).1
        · exact .of_written hp (ReconciliationService.transition_some hst) rfl hwr
    · exact .inl (.refl _)

/-! ## Refund -/

/-- The call refunded the payment `p`: the status and the refund are written. -/
structure RefundWritten (id : String) (body : RefundBody) (ctx : OrgContext) (p : Payment)
    (amount : Option Int) (r : Refund) (s s' : World) : Prop where
  id : p.id = id
  org : p.organizationId = ctx.organizationId
  refundable : ∃ externalId, checkRefundable p = .ok externalId
  amount_ok : refundAmount body = .ok amount
  status : StatusWritten p (refundStatus p amount) s s'
  refund : s.refunds.insert r = .ok s'.refunds
  refund_eq : ∃ d result, r = newRefund d p body amount result

/-- How a refund ends: it throws and nothing moved, or it returns and the refund is written. -/
inductive Refunded (id : String) (body : RefundBody) (ctx : OrgContext) (s : World) :
    Except Err RefundedPayment → World → Prop where
  | thrown (e : Err) {s' : World} (hs : Unmoved s s') : Refunded id body ctx s (.error e) s'
  | written (a : RefundedPayment) (p : Payment) (amount : Option Int) (r : Refund) {s' : World}
      (h : RefundWritten id body ctx p amount r s s') : Refunded id body ctx s (.ok a) s'

theorem refund_alone (registry : ProviderRegistry) (id : String) (body : RefundBody)
    (ctx : OrgContext) :
    Alone (M := machine) A (Refunded id body ctx s) (refund registry id body ctx) s := by
  refine Alone.perform_bind fun d r s₁ _ hx => ?_
  obtain ⟨rfl, ⟨e, rfl⟩ | ⟨rfl, -⟩ | ⟨p, rfl, hp, hw⟩⟩ := exec_findPayment hx
  · exact .thrown e (.refl _)
  · exact .thrown _ (.refl _)
  obtain ⟨hid, horg⟩ := PaymentWhere.holds_id_org.mp hw
  refine Proto.WP.ofExcept_bind (fun externalId hc => ?_) fun e _ => .thrown e (.refl _)
  refine Proto.WP.ofExcept_bind (fun provider _ => ?_) fun e _ => .thrown e (.refl _)
  refine Proto.WP.ofExcept_bind (fun amount hamount => ?_) fun e _ => .thrown e (.refl _)
  refine Alone.perform_bind fun d r s₂ _ hx => ?_
  obtain ⟨rfl, rfl⟩ := Prod.mk.inj hx
  cases d.refund.answer with
  | error e => exact .thrown e (.refl _)
  | ok result =>
    refine Proto.WP.ofExcept_bind (fun _ hv => ?_) fun e _ => .thrown e (.refl _)
    refine Alone.perform_bind fun d r s₃ _ hx => ?_
    rcases exec_recordRefund hx with ⟨e, rfl, rfl⟩ | ⟨q, rfl, hr, hwr⟩
    · exact .thrown e (.refl _)
    have hst : StatusWritten p (refundStatus p amount) s₁ s₃ :=
      ⟨hp, assertValidTransition_ok.mp hv, ⟨d, q, hwr.payments⟩, ⟨_, rfl, hwr.events⟩⟩
    refine Alone.perform_bind fun d' r s₄ _ hx => ?_
    obtain ⟨rfl, hs⟩ := exec_auditLog hx
    have hrefunds : s₁.refunds.insert (newRefund d p body amount result) = .ok s₄.refunds := by
      rw [hs]
      exact hr
    exact .written _ p amount _ ⟨hid, horg, ⟨externalId, hc⟩, hamount, hst.exec rfl hx, hrefunds,
      d, result, rfl⟩

theorem refund_run (registry : ProviderRegistry) (id : String) (body : RefundBody)
    (ctx : OrgContext) (ω : Op → Decision) (s : World) :
    Refunded id body ctx s ((refund registry id body ctx).run ω s).result
      ((refund registry id body ctx).run ω s).state :=
  (refund_alone (A := fun _ _ => True) registry id body ctx).run fun _ => trivial

/-! ## Create -/

/-- The rows of `s` are in `s'` as they were, and none of them is the payment `id`. -/
def Kept (id : String) (s s' : World) : Prop :=
  ∀ q ∈ s.payments, q.id ≠ id ∧ q ∈ s'.payments

theorem Kept.exec {id : String} {s s' s'' : World} (h : Kept id s s') {o : Op} {d : Decision}
    {r : Except Err o.Ans} (ho : o.writesPayments = false) (hx : exec o d s' = (r, s'')) :
    Kept id s s'' := by
  rw [Kept, exec_payments ho hx]
  exact h

theorem Kept.update {id : String} {s s' s'' : World} (h : Kept id s s') {f : Payment → Payment}
    {hf : Table.Keeps Payment.id Payment.tenantKey f} {q : Payment}
    (hu : s'.payments.update id f hf = some (q, s''.payments)) : Kept id s s'' := by
  intro a ha
  obtain ⟨hne, hmem⟩ := h a ha
  exact ⟨hne, (Table.mem_update hu).mpr (.inl ⟨hmem, hne⟩)⟩

theorem charge_alone (provider : PaymentProvider) (dto : CreatePaymentDto) (key : String)
    (ctx : OrgContext) (p : Payment) {s₁ : World} (h : Kept p.id s s₁) :
    Alone (M := machine) A (fun _ s' => Kept p.id s s')
      ((charge provider dto key ctx p).tryCatch (chargeFailed dto p)) s₁ := by
  have hfailed : ∀ e s₂, Kept p.id s s₂ →
      Alone (M := machine) A (fun _ s' => Kept p.id s s') (chargeFailed dto p e) s₂ := by
    intro e s₂ h₂
    refine Alone.perform_bind fun d r s₃ _ hx => ?_
    have h₃ : Kept p.id s s₃ := h₂.exec (o := .decrementPending dto.country) (d := d) rfl hx
    cases r with
    | error e => exact h₃
    | ok u =>
      refine Alone.perform_bind fun d r s₄ _ hx => ?_
      rcases exec_failPayment hx with ⟨e, rfl, rfl⟩ | ⟨q, rfl, hu, -⟩
      · exact h₃
      · exact h₃.update hu
  refine Proto.WP.tryCatch ?_
  refine Alone.perform_bind fun d r s₂ _ hx => ?_
  have h₂ : Kept p.id s s₂ :=
    h.exec (o := .createCharge provider.id (chargeInput dto key p)) (d := d) rfl hx
  cases r with
  | error e => exact hfailed e s₂ h₂
  | ok result =>
    refine Alone.perform_bind fun d r s₃ _ hx => ?_
    rcases exec_recordCharge hx with ⟨e, rfl, rfl⟩ | ⟨q, rfl, hw⟩
    · exact hfailed e s₃ h₂
    have h₃ : Kept p.id s s₃ := h₂.update hw.payments
    refine Alone.perform_bind fun d r s₄ _ hx => ?_
    have h₄ : Kept p.id s s₄ := h₃.exec (o := .decrementPending dto.country) (d := d) rfl hx
    cases r with
    | error e => exact hfailed e s₄ h₄
    | ok u =>
      refine Alone.perform_bind fun d r s₅ _ hx => ?_
      have h₅ : Kept p.id s s₅ := by
        rw [Kept, (exec_auditLog hx).2]
        exact h₄
      cases r with
      | error e => exact hfailed e s₅ h₅
      | ok u => exact h₅

theorem create_alone (registry : ProviderRegistry) (dto : CreatePaymentDto) (key : Option String)
    (ctx : OrgContext) :
    Alone (M := machine) A (fun _ s' => ∀ q ∈ s.payments, q ∈ s'.payments)
      (create registry dto key ctx) s := by
  refine Proto.WP.ofExcept_bind (fun key _ => ?_) fun e _ => fun q hq => hq
  refine Alone.perform_bind fun d r s₁ _ hx => ?_
  obtain ⟨rfl, ⟨e, rfl⟩ | ⟨rfl, -⟩ | ⟨p, rfl, -⟩⟩ := exec_findPayment hx
  · exact fun q hq => hq
  · refine Proto.WP.ofExcept_bind (fun provider _ => ?_) fun e _ => fun q hq => hq
    refine Alone.perform_bind fun d r s₂ _ hx => ?_
    obtain ⟨rfl, rfl⟩ := Prod.mk.inj hx
    refine Proto.WP.ofExcept_bind (fun method _ => ?_) fun e _ => fun q hq => hq
    refine Alone.perform_bind fun d r s₃ _ hx => ?_
    rcases exec_insertPayment hx with ⟨e, rfl, rfl⟩ | ⟨p, rfl, hins⟩
    · exact fun q hq => hq
    have h₃ : Kept p.id s₁ s₃ := fun q hq =>
      ⟨(Table.insert_ok hins.payments).2.1 q hq, (Table.mem_insert hins.payments).mpr (.inl hq)⟩
    exact (charge_alone provider dto key ctx p h₃).mono fun _ _ h q hq => (h q hq).2
  · exact fun q hq => hq

/-! ## Every operation -/

/-- The payments go forward only (module doc). -/
def Advances (s s' : World) : Prop :=
  ∀ p ∈ s.payments, ∃ p' ∈ s'.payments, p'.id = p.id ∧ p'.externalId = p.externalId ∧
    p'.providerId = p.providerId ∧ p.status.rank ≤ p'.status.rank

theorem Advances.of_mem {s s' : World} (h : ∀ q ∈ s.payments, q ∈ s'.payments) : Advances s s' :=
  fun q hq => ⟨q, h q hq, rfl, rfl, rfl, Nat.le_refl _⟩

theorem Unmoved.advances {s s' : World} (h : Unmoved s s') : Advances s s' := by
  refine Advances.of_mem fun q hq => ?_
  rw [h.payments]
  exact hq

theorem StatusWritten.advances {p : Payment} {st : PaymentStatus} {s s' : World}
    (h : StatusWritten p st s s') : Advances s s' := by
  intro q hq
  obtain ⟨d, hrow, hmem⟩ := h.row
  by_cases hid : q.id = p.id
  · rw [Table.eq_of_key hq h.mem hid]
    exact ⟨_, hrow, rfl, rfl, rfl, h.valid.rank_le⟩
  · exact ⟨q, (hmem q).mpr (.inl ⟨hq, hid⟩), rfl, rfl, rfl, Nat.le_refl _⟩

theorem Processed.advances {job : WebhookJob} {r : Except Err Unit} {s s' : World}
    (h : Processed job s r s') : Advances s s' := by
  cases h with
  | thrown e hr hs => exact hs.advances
  | skipped p hp hm hst hs => exact hs.advances
  | applied p st hm hst hne hs => exact hs.advances

/-- **Every operation advances the payments.** -/
theorem call_alone (registry : ProviderRegistry) (call : ServiceCall) :
    Alone (M := machine) A (fun _ s' => Advances s s') (call.run registry) s := by
  have hseq : ∀ {α β : Type} {p : Service α} {f : α → Service β}
      (_ : Alone (M := machine) A (fun _ s' => Advances s s') p s)
      (_ : ∀ a, ∃ b, f a = .ret b),
      Alone (M := machine) A (fun _ s' => Advances s s') (p.bind f) s := by
    intro α β p f hp hf
    refine Proto.WP.bind (hp.mono fun r s' h => ?_)
    cases r with
    | error e => exact h
    | ok a =>
      obtain ⟨b, hb⟩ := hf a
      simp only [hb]
      exact h
  cases call with
  | webhook job => exact (process_alone job).mono fun _ _ h => h.advances
  | reconcile id =>
    refine (reconcile_alone registry id (K := fun _ => True) fun _ _ _ _ _ => trivial).mono
      fun _ _ h => ?_
    rcases h with h | ⟨p, st, -, -, -, -, h⟩
    · exact h.advances
    · exact h.advances
  | payments call =>
    refine hseq ?_ fun _ => ⟨_, rfl⟩
    cases call with
    | create dto key ctx =>
      refine hseq ((create_alone registry dto key ctx).mono fun _ _ h => ?_) fun _ => ⟨_, rfl⟩
      exact .of_mem h
    | findAll ctx query =>
      refine hseq ?_ fun _ => ⟨_, rfl⟩
      refine Alone.perform_bind fun d r s' _ hx => ?_
      have h : Advances s s' := ((Unmoved.refl s).exec (o := .pagePayments _ _ _) rfl hx).advances
      cases r with
      | ok a => exact h
      | error e => exact h
    | findOne id ctx =>
      refine hseq ?_ fun _ => ⟨_, rfl⟩
      refine Alone.perform_bind fun d r s' _ hx => ?_
      have h : Advances s s' := ((Unmoved.refl s).exec (o := .findPaymentWithEvents _) rfl hx).advances
      cases r with
      | error e => exact h
      | ok found => cases found <;> exact h
    | refund id body ctx =>
      refine hseq ((refund_alone registry id body ctx).mono fun _ _ h => ?_) fun _ => ⟨_, rfl⟩
      cases h with
      | thrown e hs => exact hs.advances
      | written a p amount r h => exact h.status.advances

end Operations

end Pasarela
