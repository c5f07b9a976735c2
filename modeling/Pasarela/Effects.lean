import Pasarela.Machine

/-!
# What each request does

One lemma for each request that writes: it fails and changes nothing, or it answers and changes the
tables as the lemma says. The proofs about the services use these and never unfold a transaction.

* `Inserted`, `Written`: what a committed transaction that inserts a payment, or writes one with an
  event, did.
* `exec_*`: the outcomes of a request.
-/

namespace Pasarela

open Conc (Prog)
open Js (Json)
open Store (Table)

/-- The transaction inserted the payment `p`, which names the customer `customerId`. -/
structure Inserted (d : Decision) (orgId : String) (dto : CreatePaymentDto)
    (idempotencyKey providerId : String) (method : PaymentMethodKind) (s : World) (p : Payment)
    (s' : World) : Prop where
  row : ∃ customerId, p = newPayment d orgId dto idempotencyKey providerId method customerId ∧
    upsertDtoCustomer d orgId dto s = .ok (customerId, { s with customers := s'.customers })
  payments : s.payments.insert p = .ok s'.payments
  events : s.events.insert (newEvent d p.id "payment.created"
    (.obj [("providerId", .str providerId), ("organizationId", .str orgId)])) = .ok s'.events
  others : s' = { s with
    customers := s'.customers, payments := s'.payments, events := s'.events }

/-- The transaction wrote `f` of the payment `id` and the event `ev`; `q` is the row after it. -/
structure Written (id : String) (f : Payment → Payment)
    (hf : Table.Keeps Payment.id Payment.tenantKey f) (ev : PaymentEvent) (s : World) (q : Payment)
    (s' : World) : Prop where
  payments : s.payments.update id f hf = some (q, s'.payments)
  events : s.events.insert ev = .ok s'.events
  others : s' = { s with payments := s'.payments, events := s'.events }

section Transactions

variable {d : Decision} {s s' : World}

theorem upsertDtoCustomer_ok {orgId : String} {dto : CreatePaymentDto} {c : Option String}
    (h : upsertDtoCustomer d orgId dto s = .ok (c, s')) :
    s' = { s with customers := s'.customers } := by
  cases e : dto.customerId.filter (· ≠ "") with
  | none =>
    simp only [upsertDtoCustomer, e] at h
    obtain ⟨-, rfl⟩ := Tx.pure_ok.mp h
    rfl
  | some externalId =>
    simp only [upsertDtoCustomer, e] at h
    obtain ⟨q, s₁, hq, h⟩ := Tx.bind_ok.mp h
    obtain ⟨-, rfl⟩ := Tx.pure_ok.mp h
    rcases upsertCustomer_ok hq with ⟨-, -, rfl⟩ | ⟨-, t, -, rfl⟩
    · rfl
    · rfl

/-- The customer of a request is found, or inserted, if its id is new. -/
theorem upsertDtoCustomer_of_fresh {orgId : String} {dto : CreatePaymentDto}
    (hc : ∀ c ∈ s.customers, c.id ≠ d.newId .customer) :
    ∃ c t, upsertDtoCustomer d orgId dto s = .ok (c, { s with customers := t }) := by
  cases e : dto.customerId.filter (· ≠ "") with
  | none =>
    simp only [upsertDtoCustomer, e]
    exact ⟨_, _, rfl⟩
  | some externalId =>
    simp only [upsertDtoCustomer, e]
    let row : Customer := ⟨d.newId .customer, orgId, orgId, externalId, dto.email,
      some dto.country, d.now⟩
    cases hfind : s.customers.rows.find? fun a => a.tenantKey = row.tenantKey with
    | some a =>
      refine ⟨_, s.customers, Tx.bind_ok.mpr ⟨a, s, ?_, Tx.pure_ok.mpr ⟨rfl, rfl⟩⟩⟩
      simp only [upsertCustomer]
      rw [hfind]
    | none =>
      have hk : ∀ a ∈ s.customers, a.tenantKey ≠ row.tenantKey := fun a ha => by
        simpa using List.find?_eq_none.mp hfind a ha
      obtain ⟨t, ht⟩ := Table.insert_of_new (a := row) hc hk
      refine ⟨_, t, Tx.bind_ok.mpr ⟨row, _, ?_, Tx.pure_ok.mpr ⟨rfl, rfl⟩⟩⟩
      simp only [upsertCustomer]
      rw [hfind]
      exact insertInto_ok.mpr ⟨rfl, t, ht, rfl⟩

theorem insertPayment_ok {orgId : String} {dto : CreatePaymentDto} {key providerId : String}
    {method : PaymentMethodKind} {p : Payment}
    (h : insertPayment d orgId dto key providerId method s = .ok (p, s')) :
    Inserted d orgId dto key providerId method s p s' := by
  obtain ⟨c, s₁, hc, h⟩ := Tx.bind_ok.mp h
  have h₁ := upsertDtoCustomer_ok hc
  obtain ⟨q, s₂, hq, h⟩ := Tx.bind_ok.mp h
  obtain ⟨rfl, t, ht, rfl⟩ := insertInto_ok.mp hq
  obtain ⟨_, s₃, he, h⟩ := Tx.bind_ok.mp h
  obtain ⟨-, te, hte, rfl⟩ := insertInto_ok.mp he
  obtain ⟨rfl, rfl⟩ := Tx.pure_ok.mp h
  rw [h₁] at hc ht hte
  exact ⟨⟨c, rfl, hc⟩, ht, hte, by rw [h₁]⟩

theorem recordCharge_ok {payment : Payment} {result : ChargeResult} {st : PaymentStatus}
    {q : Payment} (h : recordCharge d payment result st s = .ok (q, s')) :
    Written payment.id (setCharge d result st) (keeps_setCharge d _ _)
      (newEvent d payment.id ("provider." ++ result.status.text) result.raw) s q s' := by
  obtain ⟨p, s₁, hp, h⟩ := Tx.bind_ok.mp h
  obtain ⟨t, ht, rfl⟩ := updateIn_ok.mp hp
  obtain ⟨_, s₂, he, h⟩ := Tx.bind_ok.mp h
  obtain ⟨-, te, hte, rfl⟩ := insertInto_ok.mp he
  obtain ⟨rfl, rfl⟩ := Tx.pure_ok.mp h
  exact ⟨ht, hte, rfl⟩

theorem changeStatus_ok {id type : String} {st : PaymentStatus} {payload : Json} {u : Unit}
    (h : changeStatus d id st type payload s = .ok (u, s')) :
    ∃ q, Written id (setStatus d st) (keeps_setStatus d _) (newEvent d id type payload) s q s' := by
  obtain ⟨p, s₁, hp, h⟩ := Tx.bind_ok.mp h
  obtain ⟨t, ht, rfl⟩ := updateIn_ok.mp hp
  obtain ⟨_, s₂, he, h⟩ := Tx.bind_ok.mp h
  obtain ⟨-, te, hte, rfl⟩ := insertInto_ok.mp he
  obtain ⟨-, rfl⟩ := Tx.pure_ok.mp h
  exact ⟨p, ht, hte, rfl⟩

/-- A refund writes the payment and an event, and then inserts its row. -/
theorem recordRefund_ok {payment : Payment} {st : PaymentStatus} {body : RefundBody}
    {amount : Option Int} {result : RefundResult} {a : Payment × Refund}
    (h : recordRefund d payment st body amount result s = .ok (a, s')) :
    a.2 = newRefund d payment body amount result ∧
      s.refunds.insert a.2 = .ok s'.refunds ∧
      Written payment.id (setStatus d st) (keeps_setStatus d _)
        (newEvent d payment.id "payment.refunded" (refundPayload payment body result)) s a.1
        { s' with refunds := s.refunds } := by
  obtain ⟨p, s₁, hp, h⟩ := Tx.bind_ok.mp h
  obtain ⟨t, ht, rfl⟩ := updateIn_ok.mp hp
  obtain ⟨_, s₂, he, h⟩ := Tx.bind_ok.mp h
  obtain ⟨-, te, hte, rfl⟩ := insertInto_ok.mp he
  obtain ⟨r, s₃, hr, h⟩ := Tx.bind_ok.mp h
  obtain ⟨rfl, tr, htr, rfl⟩ := insertInto_ok.mp hr
  obtain ⟨rfl, rfl⟩ := Tx.pure_ok.mp h
  exact ⟨rfl, htr, ht, hte, rfl⟩

end Transactions

/-! ## The requests -/

section Requests

variable {d : Decision} {s s' : World}

theorem atomically_eq {α : Type} {tx : Tx α} {r : Except Err α}
    (h : atomically d tx s = (r, s')) :
    (∃ e, r = .error e ∧ s' = s) ∨ ∃ a, r = .ok a ∧ tx s = .ok (a, s') := by
  rcases atomically_cases d tx s with ⟨e, he⟩ | ⟨a, s₁, -, htx, ha⟩
  · rw [he] at h
    cases h
    exact .inl ⟨e, rfl, rfl⟩
  · rw [ha] at h
    cases h
    exact .inr ⟨a, rfl, htx⟩

theorem query_eq {α : Type} {f : World → α} {r : Except Err α} (h : query d f s = (r, s')) :
    s' = s ∧ ((∃ e, r = .error e) ∨ r = .ok (f s)) := by
  unfold query at h
  cases hf : d.fail with
  | some e =>
    rw [hf] at h
    cases h
    exact ⟨rfl, .inl ⟨e, rfl⟩⟩
  | none =>
    rw [hf] at h
    cases h
    exact ⟨rfl, .inr rfl⟩

/-- A payment that a query found is a row that satisfies the filter. -/
theorem exec_findPayment {w : PaymentWhere} {r : Except Err (Option Payment)}
    (h : exec (.findPayment w) d s = (r, s')) :
    s' = s ∧ ((∃ e, r = .error e) ∨
      (r = .ok none ∧ ∀ p ∈ s.payments, w.holds p = false) ∨
      ∃ p, r = .ok (some p) ∧ p ∈ s.payments ∧ w.holds p) := by
  obtain ⟨rfl, ⟨e, rfl⟩ | rfl⟩ := query_eq h
  · exact ⟨rfl, .inl ⟨e, rfl⟩⟩
  · cases hf : s'.firstPayment d w with
    | none => exact ⟨rfl, .inr (.inl ⟨rfl, Table.findFirst_eq_none.mp hf⟩)⟩
    | some p => exact ⟨rfl, .inr (.inr ⟨p, rfl, Table.findFirst_some hf⟩)⟩

theorem exec_findPayment_of_mem {w : PaymentWhere} {p : Payment} (hf : d.fail = none)
    (hp : p ∈ s.payments) (hw : w.holds p) (hu : ∀ q ∈ s.payments, w.holds q → q = p) :
    exec (.findPayment w) d s = (.ok (some p), s) := by
  show query d (World.firstPayment d w) s = _
  rw [query, hf, World.firstPayment, Table.findFirst_eq_some hp hw hu]

theorem exec_findPayment_of_none {w : PaymentWhere} (hf : d.fail = none)
    (hw : ∀ p ∈ s.payments, w.holds p = false) : exec (.findPayment w) d s = (.ok none, s) := by
  show query d (World.firstPayment d w) s = _
  rw [query, hf, World.firstPayment, Table.findFirst_eq_none.mpr hw]

theorem exec_insertPayment {orgId key providerId : String} {dto : CreatePaymentDto}
    {method : PaymentMethodKind} {r : Except Err Payment}
    (h : exec (.insertPayment orgId dto key providerId method) d s = (r, s')) :
    (∃ e, r = .error e ∧ s' = s) ∨
      ∃ p, r = .ok p ∧ Inserted d orgId dto key providerId method s p s' := by
  rcases atomically_eq h with he | ⟨p, rfl, htx⟩
  · exact .inl he
  · exact .inr ⟨p, rfl, insertPayment_ok htx⟩

theorem exec_insertPayment_of_fresh {orgId key providerId : String} {dto : CreatePaymentDto}
    {method : PaymentMethodKind} (hf : d.fail = none)
    (hc : ∀ c ∈ s.customers, c.id ≠ d.newId .customer)
    (hp : ∀ p ∈ s.payments, p.id ≠ d.newId .payment)
    (hk : ∀ p ∈ s.payments, p.tenantKey ≠ (orgId, key))
    (he : ∀ e ∈ s.events, e.id ≠ d.newId .paymentEvent) :
    ∃ p s', exec (.insertPayment orgId dto key providerId method) d s = (.ok p, s') := by
  obtain ⟨c, t, hup⟩ : ∃ c t,
      upsertDtoCustomer d orgId dto s = .ok (c, { s with customers := t }) := upsertDtoCustomer_of_fresh hc
  obtain ⟨tp, htp⟩ := Table.insert_of_new
    (a := newPayment d orgId dto key providerId method c) hp hk
  obtain ⟨te, hte⟩ := Table.insert_of_new (a := newEvent d (d.newId .payment) "payment.created"
    (.obj [("providerId", .str providerId), ("organizationId", .str orgId)])) he he
  have h : insertPayment d orgId dto key providerId method s =
      .ok (newPayment d orgId dto key providerId method c,
        { s with customers := t, payments := tp, events := te }) := by
    refine Tx.bind_ok.mpr ⟨_, _, hup, ?_⟩
    refine Tx.bind_ok.mpr ⟨_, _, insertInto_ok.mpr ⟨rfl, _, htp, rfl⟩, ?_⟩
    refine Tx.bind_ok.mpr ⟨_, _, insertInto_ok.mpr ⟨rfl, _, hte, rfl⟩, ?_⟩
    exact Tx.pure_ok.mpr ⟨rfl, rfl⟩
  exact ⟨_, _, atomically_of_ok hf h⟩

theorem exec_recordCharge {payment : Payment} {result : ChargeResult} {st : PaymentStatus}
    {r : Except Err Payment} (h : exec (.recordCharge payment result st) d s = (r, s')) :
    (∃ e, r = .error e ∧ s' = s) ∨
      ∃ q, r = .ok q ∧ Written payment.id (setCharge d result st) (keeps_setCharge d _ _)
        (newEvent d payment.id ("provider." ++ result.status.text) result.raw) s q s' := by
  rcases atomically_eq h with he | ⟨q, rfl, htx⟩
  · exact .inl he
  · exact .inr ⟨q, rfl, recordCharge_ok htx⟩

/-- The result of a charge is recorded, if the payment is there and the id of the event is new. -/
theorem exec_recordCharge_of_fresh {payment : Payment} {result : ChargeResult} {st : PaymentStatus}
    (hf : d.fail = none) (hp : ∃ q ∈ s.payments, q.id = payment.id)
    (he : ∀ e ∈ s.events, e.id ≠ d.newId .paymentEvent) :
    ∃ q s', exec (.recordCharge payment result st) d s = (.ok q, s') := by
  obtain ⟨q, hq, hid⟩ := hp
  obtain ⟨tp, htp⟩ : ∃ t, s.payments.update payment.id (setCharge d result st)
      (keeps_setCharge d result st) = some (setCharge d result st q, t) :=
    Table.update_of_mem hq hid
  obtain ⟨te, hte⟩ := Table.insert_of_new
    (a := newEvent d payment.id ("provider." ++ result.status.text) result.raw) he he
  have h : recordCharge d payment result st s =
      .ok (setCharge d result st q, { s with payments := tp, events := te }) := by
    refine Tx.bind_ok.mpr ⟨_, _, updateIn_ok.mpr ⟨_, htp, rfl⟩, ?_⟩
    refine Tx.bind_ok.mpr ⟨_, _, insertInto_ok.mpr ⟨rfl, _, hte, rfl⟩, ?_⟩
    exact Tx.pure_ok.mpr ⟨rfl, rfl⟩
  exact ⟨_, _, atomically_of_ok hf h⟩

theorem exec_failPayment {payment : Payment} {message : String} {r : Except Err Payment}
    (h : exec (.failPayment payment message) d s = (r, s')) :
    (∃ e, r = .error e ∧ s' = s) ∨
      ∃ q, r = .ok q ∧
        s.payments.update payment.id (setFailed d message) (keeps_setFailed d _) =
          some (q, s'.payments) ∧ s' = { s with payments := s'.payments } := by
  rcases atomically_eq h with he | ⟨q, rfl, htx⟩
  · exact .inl he
  · obtain ⟨t, ht, rfl⟩ := updateIn_ok.mp htx
    exact .inr ⟨q, rfl, ht, rfl⟩

theorem exec_recordRefund {payment : Payment} {st : PaymentStatus} {body : RefundBody}
    {amount : Option Int} {result : RefundResult} {r : Except Err (Payment × Refund)}
    (h : exec (.recordRefund payment st body amount result) d s = (r, s')) :
    (∃ e, r = .error e ∧ s' = s) ∨
      ∃ q, r = .ok (q, newRefund d payment body amount result) ∧
        s.refunds.insert (newRefund d payment body amount result) = .ok s'.refunds ∧
        Written payment.id (setStatus d st) (keeps_setStatus d _)
          (newEvent d payment.id "payment.refunded" (refundPayload payment body result)) s q
          { s' with refunds := s.refunds } := by
  rcases atomically_eq h with he | ⟨⟨q, x⟩, rfl, htx⟩
  · exact .inl he
  · obtain ⟨rfl, hr, hw⟩ := recordRefund_ok htx
    exact .inr ⟨q, rfl, hr, hw⟩

/-- The transaction of a refund commits, if the payment is there and the new ids are new. -/
theorem exec_recordRefund_of_fresh {payment : Payment} {st : PaymentStatus} {body : RefundBody}
    {amount : Option Int} {result : RefundResult} (hf : d.fail = none)
    (hp : ∃ q ∈ s.payments, q.id = payment.id)
    (he : ∀ e ∈ s.events, e.id ≠ d.newId .paymentEvent)
    (hr : ∀ r ∈ s.refunds, r.id ≠ d.newId .refund) :
    ∃ a s', exec (.recordRefund payment st body amount result) d s = (.ok a, s') := by
  obtain ⟨q, hq, hid⟩ := hp
  obtain ⟨tp, htp⟩ : ∃ t, s.payments.update payment.id (setStatus d st) (keeps_setStatus d st) =
      some (setStatus d st q, t) := Table.update_of_mem hq hid
  obtain ⟨te, hte⟩ := Table.insert_of_new (a := newEvent d payment.id "payment.refunded"
    (refundPayload payment body result)) he he
  obtain ⟨tr, htr⟩ := Table.insert_of_new (a := newRefund d payment body amount result) hr hr
  have h : recordRefund d payment st body amount result s =
      .ok ((setStatus d st q, newRefund d payment body amount result),
        { s with payments := tp, events := te, refunds := tr }) := by
    refine Tx.bind_ok.mpr ⟨_, _, updateIn_ok.mpr ⟨_, htp, rfl⟩, ?_⟩
    refine Tx.bind_ok.mpr ⟨_, _, insertInto_ok.mpr ⟨rfl, _, hte, rfl⟩, ?_⟩
    refine Tx.bind_ok.mpr ⟨_, _, insertInto_ok.mpr ⟨rfl, _, htr, rfl⟩, ?_⟩
    exact Tx.pure_ok.mpr ⟨rfl, rfl⟩
  exact ⟨_, _, atomically_of_ok hf h⟩

theorem exec_applyWebhook {payment : Payment} {st : PaymentStatus} {event : WebhookEvent}
    {r : Except Err Unit} (h : exec (.applyWebhook payment st event) d s = (r, s')) :
    (∃ e, r = .error e ∧ s' = s) ∨
      ∃ q, r = .ok () ∧ Written payment.id (setStatus d st) (keeps_setStatus d _)
        (newEvent d payment.id ("webhook." ++ event.eventType) event.raw) s q s' := by
  rcases atomically_eq h with he | ⟨u, rfl, htx⟩
  · exact .inl he
  · obtain ⟨q, hw⟩ := changeStatus_ok htx
    exact .inr ⟨q, rfl, hw⟩

/-- The transaction of a webhook commits, if the payment is there and the id of the event is new. -/
theorem exec_applyWebhook_of_fresh {payment : Payment} {st : PaymentStatus} {event : WebhookEvent}
    (hf : d.fail = none) (hp : ∃ q ∈ s.payments, q.id = payment.id)
    (he : ∀ e ∈ s.events, e.id ≠ d.newId .paymentEvent) :
    ∃ s', exec (.applyWebhook payment st event) d s = (.ok (), s') := by
  obtain ⟨q, hq, hid⟩ := hp
  obtain ⟨tp, htp⟩ : ∃ t, s.payments.update payment.id (setStatus d st) (keeps_setStatus d st) =
      some (setStatus d st q, t) := Table.update_of_mem hq hid
  obtain ⟨te, hte⟩ := Table.insert_of_new
    (a := newEvent d payment.id ("webhook." ++ event.eventType) event.raw) he he
  have h : applyWebhook d payment st event s =
      .ok ((), { s with payments := tp, events := te }) := by
    refine Tx.bind_ok.mpr ⟨_, _, updateIn_ok.mpr ⟨_, htp, rfl⟩, ?_⟩
    refine Tx.bind_ok.mpr ⟨_, _, insertInto_ok.mpr ⟨rfl, _, hte, rfl⟩, ?_⟩
    exact Tx.pure_ok.mpr ⟨rfl, rfl⟩
  exact ⟨_, atomically_of_ok hf h⟩

theorem exec_applyReconciliation {payment : Payment} {st : PaymentStatus} {raw : Json}
    {r : Except Err Unit} (h : exec (.applyReconciliation payment st raw) d s = (r, s')) :
    (∃ e, r = .error e ∧ s' = s) ∨
      ∃ q, r = .ok () ∧ Written payment.id (setStatus d st) (keeps_setStatus d _)
        (newEvent d payment.id "reconciliation.updated" (.obj [("from", .str payment.status.text),
          ("to", .str st.text), ("raw", raw)])) s q s' := by
  rcases atomically_eq h with he | ⟨u, rfl, htx⟩
  · exact .inl he
  · obtain ⟨q, hw⟩ := changeStatus_ok htx
    exact .inr ⟨q, rfl, hw⟩

theorem exec_markProcessed {id : String} {r : Except Err WebhookInbound}
    (h : exec (.markProcessed id) d s = (r, s')) : s' = { s with inbound := s'.inbound } := by
  rcases atomically_eq h with ⟨e, -, rfl⟩ | ⟨w, -, htx⟩
  · rfl
  · obtain ⟨t, -, rfl⟩ := updateIn_ok.mp htx
    rfl

/-- The audit log never fails, and changes the audit log only. -/
theorem exec_auditLog {entry : AuditEntry} {r : Except Err Unit}
    (h : exec (.auditLog entry) d s = (r, s')) :
    r = .ok () ∧ s' = { s with auditLogs := s'.auditLogs } := by
  obtain ⟨rfl, rfl⟩ := Prod.mk.inj h
  rcases atomically_cases d (createAuditLog (newAuditLog d entry)) s with
    ⟨e, he⟩ | ⟨a, s₁, -, htx, ha⟩
  · rw [he]
    exact ⟨rfl, rfl⟩
  · obtain ⟨-, t, -, rfl⟩ := insertInto_ok.mp htx
    rw [ha]
    exact ⟨rfl, rfl⟩

theorem exec_createInbound {providerId : String} {event : WebhookEvent} {headers : Headers}
    {r : Except Err WebhookInbound} (h : exec (.createInbound providerId event headers) d s = (r, s')) :
    (∃ e, r = .error e ∧ s' = s) ∨
      r = .ok (newInbound d providerId event headers) ∧
        s.inbound.insert (newInbound d providerId event headers) = .ok s'.inbound ∧
        s' = { s with inbound := s'.inbound } := by
  rcases atomically_eq h with he | ⟨w, rfl, htx⟩
  · exact .inl he
  · obtain ⟨rfl, t, ht, rfl⟩ := insertInto_ok.mp htx
    exact .inr ⟨rfl, ht, rfl⟩

/-- The lookup of a delivery, when the database works. -/
theorem exec_findInbound {providerId externalId : String} (hf : d.fail = none) :
    exec (.findInbound providerId externalId) d s =
      (.ok (s.inbound.rows.find? fun w => w.providerKey = (providerId, externalId)), s) := by
  simp only [exec, query, hf]

/-- The requests to the database and the queue, which may fail without an effect. -/
def Op.mayFail : Op → Bool
  | .incrementPending _ => false
  | .decrementPending _ => false
  | .createCharge _ _ => false
  | .auditLog _ => false
  | .refundCharge _ _ => false
  | .retrieveCharge _ _ => false
  | _ => true

theorem exec_of_fail {o : Op} {e : Err} (ho : o.mayFail) (hf : d.fail = some e) :
    exec o d s = (.error e, s) := by
  cases o with
  | incrementPending country => cases ho
  | decrementPending country => cases ho
  | createCharge providerId input => cases ho
  | auditLog entry => cases ho
  | refundCharge providerId input => cases ho
  | retrieveCharge providerId externalId => cases ho
  | _ => simp only [exec, query, atomically, hf]

theorem exec_createInbound_of_fresh {providerId : String} {event : WebhookEvent}
    {headers : Headers} (hf : d.fail = none)
    (hid : ∀ w ∈ s.inbound, w.id ≠ d.newId .webhookInbound)
    (hkey : ∀ w ∈ s.inbound, w.providerKey ≠ (providerId, event.externalId)) :
    ∃ t, s.inbound.insert (newInbound d providerId event headers) = .ok t ∧
      exec (.createInbound providerId event headers) d s =
        (.ok (newInbound d providerId event headers), { s with inbound := t }) := by
  obtain ⟨t, ht⟩ := Table.insert_of_new (a := newInbound d providerId event headers) hid hkey
  exact ⟨t, ht, atomically_of_ok hf (insertInto_ok.mpr ⟨rfl, t, ht, rfl⟩)⟩

theorem exec_enqueueWebhook {providerId inboundId : String} {event : WebhookEvent}
    (hf : d.fail = none) :
    exec (.enqueueWebhook providerId inboundId event) d s =
      (.ok (), { s with jobs := addJob (newJob d providerId inboundId event) s.jobs }) := by
  simp only [exec]
  exact atomically_of_ok hf rfl

theorem exec_error {o : Op} {e : Err} (h : exec o d s = (.error e, s')) : s' = s := by
  have hatomic : ∀ {α : Type} {tx : Tx α}, atomically d tx s = (.error e, s') → s' = s := by
    intro α tx hx
    rcases atomically_eq hx with ⟨-, -, hs⟩ | ⟨a, ha, -⟩
    · exact hs
    · cases ha
  cases o with
  | findPayment w => exact (query_eq h).1
  | findPaymentWithEvents w => simp only [exec] at h; exact (query_eq h).1
  | pagePayments w skip take => simp only [exec] at h; exact (query_eq h).1
  | findInbound providerId externalId => simp only [exec] at h; exact (query_eq h).1
  | enqueueWebhook providerId inboundId event => simp only [exec] at h; exact hatomic h
  | incrementPending country => cases (Prod.mk.inj h).1
  | decrementPending country => cases (Prod.mk.inj h).1
  | auditLog entry => cases (Prod.mk.inj h).1
  | createCharge providerId input => exact (Prod.mk.inj h).2.symm
  | refundCharge providerId input => exact (Prod.mk.inj h).2.symm
  | retrieveCharge providerId externalId => exact (Prod.mk.inj h).2.symm
  | _ => exact hatomic h

/-- The requests that write payments. -/
def Op.writesPayments : Op → Bool
  | .insertPayment _ _ _ _ _ => true
  | .recordCharge _ _ _ => true
  | .failPayment _ _ => true
  | .recordRefund _ _ _ _ _ => true
  | .applyWebhook _ _ _ => true
  | .applyReconciliation _ _ _ => true
  | _ => false

/-- The others write only the audit log, the webhooks, the queue and the gauge. -/
theorem exec_others {o : Op} {r : Except Err o.Ans} (ho : o.writesPayments = false)
    (h : exec o d s = (r, s')) :
    s' = { s with
      auditLogs := s'.auditLogs
      inbound := s'.inbound
      jobs := s'.jobs
      activePending := s'.activePending } := by
  cases o with
  | findPayment w => rw [(query_eq h).1]
  | findPaymentWithEvents w => simp only [exec] at h; rw [(query_eq h).1]
  | pagePayments w skip take => simp only [exec] at h; rw [(query_eq h).1]
  | findInbound providerId externalId => simp only [exec] at h; rw [(query_eq h).1]
  | incrementPending country => obtain ⟨-, rfl⟩ := Prod.mk.inj h; rfl
  | decrementPending country => obtain ⟨-, rfl⟩ := Prod.mk.inj h; rfl
  | createCharge providerId input => obtain ⟨-, rfl⟩ := Prod.mk.inj h; rfl
  | refundCharge providerId input => obtain ⟨-, rfl⟩ := Prod.mk.inj h; rfl
  | retrieveCharge providerId externalId => obtain ⟨-, rfl⟩ := Prod.mk.inj h; rfl
  | auditLog entry => rw [(exec_auditLog h).2]
  | markProcessed id => rw [exec_markProcessed h]
  | createInbound providerId event headers =>
    rcases exec_createInbound h with ⟨e, -, rfl⟩ | ⟨-, -, hs⟩
    · rfl
    · rw [hs]
  | enqueueWebhook providerId inboundId event =>
    simp only [exec] at h
    rcases atomically_eq h with ⟨e, -, rfl⟩ | ⟨a, -, htx⟩
    · rfl
    · cases htx; rfl
  | insertPayment orgId dto key providerId method => cases ho
  | recordCharge payment result st => cases ho
  | failPayment payment message => cases ho
  | recordRefund payment st body amount result => cases ho
  | applyWebhook payment st event => cases ho
  | applyReconciliation payment st raw => cases ho

/-- The others leave the payments as they are. -/
theorem exec_payments {o : Op} {r : Except Err o.Ans} (ho : o.writesPayments = false)
    (h : exec o d s = (r, s')) : s'.payments = s.payments := by
  rw [exec_others ho h]

/-! ## The writes of a status -/

/-- The payment whose status a request writes without a check, and the status: the two writes of
`create` after the insert. -/
def Op.ownWrite : Op → Option (Payment × PaymentStatus)
  | .recordCharge payment _ st => some (payment, st)
  | .failPayment payment _ => some (payment, .failed)
  | _ => none

/-- The payment whose status a request writes after a check of the transition, and the status. -/
def Op.checkedWrite : Op → Option (Payment × PaymentStatus)
  | .recordRefund payment st _ _ _ => some (payment, st)
  | .applyWebhook payment st _ => some (payment, st)
  | .applyReconciliation payment st _ => some (payment, st)
  | _ => none

/-- The write of a status without a check fails, or the row has the status. -/
theorem exec_ownWrite {o : Op} {payment : Payment} {st : PaymentStatus} {r : Except Err o.Ans}
    (ho : o.ownWrite = some (payment, st)) (h : exec o d s = (r, s')) :
    (∃ e, r = .error e ∧ s' = s) ∨
      ∃ a f hf q, r = .ok a ∧ s.payments.update payment.id f hf = some (q, s'.payments) ∧
        ∀ p, (f p).status = st ∧ ((f p).externalId = none → st = .failed) := by
  cases o with
  | recordCharge p result st' =>
    cases ho
    rcases exec_recordCharge h with he | ⟨q, rfl, hw⟩
    · exact .inl he
    · exact .inr ⟨q, _, _, q, rfl, hw.payments, fun p => ⟨rfl, fun hn => by cases hn⟩⟩
  | failPayment p message =>
    cases ho
    rcases exec_failPayment h with he | ⟨q, rfl, hu, -⟩
    · exact .inl he
    · exact .inr ⟨q, _, _, q, rfl, hu, fun p => ⟨rfl, fun _ => rfl⟩⟩
  | _ => cases ho

/-- The write of a checked status fails, or the row has the status and an event of the payment is
there, which is not that of its creation. -/
theorem exec_checkedWrite {o : Op} {payment : Payment} {st : PaymentStatus} {r : Except Err o.Ans}
    (ho : o.checkedWrite = some (payment, st)) (h : exec o d s = (r, s')) :
    (∃ e, r = .error e ∧ s' = s) ∨
      ∃ a q type payload, r = .ok a ∧ type ≠ "payment.created" ∧
        s.payments.update payment.id (setStatus d st) (keeps_setStatus d st) =
          some (q, s'.payments) ∧
        s.events.insert (newEvent d payment.id type payload) = .ok s'.events := by
  cases o with
  | recordRefund p st' body amount result =>
    cases ho
    rcases exec_recordRefund h with he | ⟨q, rfl, -, hw⟩
    · exact .inl he
    · exact .inr ⟨_, q, _, _, rfl, by decide, hw.payments, hw.events⟩
  | applyWebhook p st' event =>
    cases ho
    rcases exec_applyWebhook h with he | ⟨q, rfl, hw⟩
    · exact .inl he
    · exact .inr ⟨_, q, _, _, rfl, by simp [String.ext_iff], hw.payments, hw.events⟩
  | applyReconciliation p st' raw =>
    cases ho
    rcases exec_applyReconciliation h with he | ⟨q, rfl, hw⟩
    · exact .inl he
    · exact .inr ⟨_, q, _, _, rfl, by decide, hw.payments, hw.events⟩
  | _ => cases ho

/-! ## Runs -/

theorem run_incrementPending {α : Type} {ω : Op → Decision} {country : String} {f : Unit → Service α} :
    ((request (.incrementPending country)).bind f).run ω s =
      ((f ()).run ω (s.addPending country 1)).after
        [⟨Op.incrementPending country, ω (.incrementPending country), .ok ()⟩] :=
  Prog.run_perform_ok (M := machine) rfl

theorem run_decrementPending {α : Type} {ω : Op → Decision} {country : String} {f : Unit → Service α} :
    ((request (.decrementPending country)).bind f).run ω s =
      ((f ()).run ω (s.addPending country (-1))).after
        [⟨Op.decrementPending country, ω (.decrementPending country), .ok ()⟩] :=
  Prog.run_perform_ok (M := machine) rfl

end Requests

end Pasarela
