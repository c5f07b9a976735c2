import Pasarela.Effects

/-!
# The rows of an organization

A payment and a customer have two columns for their organization: `tenantId`, which the unique
constraints are on, and `organizationId`, which the queries filter by. An event and a refund belong
to the organization of their payment.

* `World.WellFormed`: the two columns are equal, and an event or a refund is of a payment that is
  there. Every request keeps it, of whatever organization (`exec_wellFormed`).
* `SameRows org s₁ s₂`: the two states have the same rows of `org`. A statement about a row of `org`
  that is made in both keeps it.
* `Untouched org w s`: the rows of every other organization, and the audit log of it, are in `s` as
  in `w`. A statement about a row of `org` keeps it.
-/

namespace Pasarela

open Store (Table)

/-- The two columns of the organization are equal in every payment. -/
def World.TenantIsOrg (s : World) : Prop := ∀ p ∈ s.payments, p.tenantId = p.organizationId

/-- The payment `id` is there, and it is of `org`. -/
def World.Owns (s : World) (org id : String) : Prop :=
  ∃ p ∈ s.payments, p.organizationId = org ∧ p.id = id

/-- What every request keeps (module doc). -/
structure World.WellFormed (s : World) : Prop where
  payments : s.TenantIsOrg
  customers : ∀ c ∈ s.customers, c.tenantId = c.organizationId
  events : ∀ e ∈ s.events, ∃ p ∈ s.payments, p.id = e.paymentId
  refunds : ∀ r ∈ s.refunds, ∃ p ∈ s.payments, p.id = r.paymentId

/-- The same rows of `org` (module doc). -/
structure SameRows (org : String) (s₁ s₂ : World) : Prop where
  payments : Table.Agree (fun p => p.organizationId = org) s₁.payments s₂.payments
  customers : Table.Agree (fun c => c.organizationId = org) s₁.customers s₂.customers
  events : Table.Agree (fun e => s₁.Owns org e.paymentId) s₁.events s₂.events
  refunds : Table.Agree (fun r => s₁.Owns org r.paymentId) s₁.refunds s₂.refunds

/-- The rows of the others are the same (module doc). -/
structure Untouched (org : String) (w s : World) : Prop where
  rows : ∀ other, other ≠ org → SameRows other w s
  logs : Table.Agree (fun l => l.tenantId ≠ org ∨ l.organizationId ≠ some org)
    w.auditLogs s.auditLogs

section

variable {s s' s₁ s₂ s₃ : World} {org id : String}

namespace World.TenantIsOrg

theorem of_payments (h : s.TenantIsOrg) (hp : s'.payments = s.payments) : s'.TenantIsOrg := by
  rw [World.TenantIsOrg, hp]
  exact h

theorem insert (h : s.TenantIsOrg) {p : Payment} (hi : s.payments.insert p = .ok s'.payments)
    (hp : p.tenantId = p.organizationId) : s'.TenantIsOrg := by
  intro q hq
  rcases (Table.mem_insert hi).mp hq with hq | rfl
  · exact h q hq
  · exact hp

theorem update (h : s.TenantIsOrg) {id : String} {f : Payment → Payment}
    {hf : Table.Keeps Payment.id Payment.tenantKey f} {q : Payment}
    (hu : s.payments.update id f hf = some (q, s'.payments))
    (ho : ∀ p, (f p).organizationId = p.organizationId) : s'.TenantIsOrg := by
  intro p hp
  rcases (Table.mem_update hu).mp hp with ⟨hp, -⟩ | rfl
  · exact h p hp
  · obtain ⟨a, ha, -, rfl, -⟩ := Table.update_some hu
    have ht : (f a).tenantId = a.tenantId := congrArg Prod.fst (hf.uniq a)
    rw [ho, ht]
    exact h a ha

theorem unique (h : s.TenantIsOrg) {p q : Payment} (hp : p ∈ s.payments) (hq : q ∈ s.payments)
    (horg : p.organizationId = q.organizationId) (hkey : p.idempotencyKey = q.idempotencyKey) :
    p = q := by
  refine Table.eq_of_uniq hp hq (Prod.ext ?_ hkey)
  show p.tenantId = q.tenantId
  rw [h p hp, h q hq, horg]

end World.TenantIsOrg

theorem World.Owns.unique {other : String} (h : s.Owns org id) (h' : s.Owns other id) :
    org = other := by
  obtain ⟨p, hp, rfl, rfl⟩ := h
  obtain ⟨q, hq, rfl, hid⟩ := h'
  rw [Table.eq_of_key hp hq hid.symm]

theorem World.owner (hid : ∃ p ∈ s.payments, p.id = id) :
    s.Owns org id ∨ ∃ other, other ≠ org ∧ s.Owns other id := by
  obtain ⟨p, hp, hpid⟩ := hid
  by_cases ho : p.organizationId = org
  · exact .inl ⟨p, hp, ho, hpid⟩
  · exact .inr ⟨p.organizationId, ho, p, hp, rfl, hpid⟩

/-- An update of a payment keeps which payments there are, and whose. -/
theorem World.owns_update {t : Table Payment.id Payment.tenantKey} {k : String}
    {f : Payment → Payment} {hf : Table.Keeps Payment.id Payment.tenantKey f} {q : Payment}
    (hu : s.payments.update k f hf = some (q, t))
    (ho : ∀ p, (f p).organizationId = p.organizationId) :
    ({ s with payments := t } : World).Owns org id ↔ s.Owns org id :=
  Table.exists_update hu fun a => by rw [ho, hf.key]

/-! ## Each statement keeps the invariant -/

namespace World.WellFormed

variable {payments : Table Payment.id Payment.tenantKey}

theorem empty : World.empty.WellFormed :=
  ⟨fun _ h => absurd h Table.not_mem_empty, fun _ h => absurd h Table.not_mem_empty,
    fun _ h => absurd h Table.not_mem_empty, fun _ h => absurd h Table.not_mem_empty⟩

theorem insertCustomer (h : s.WellFormed) {c : Customer}
    {t : Table Customer.id Customer.tenantKey} (hi : s.customers.insert c = .ok t)
    (hc : c.tenantId = c.organizationId) : ({ s with customers := t } : World).WellFormed := by
  refine { h with customers := fun a ha => ?_ }
  rcases (Table.mem_insert hi).mp ha with ha | rfl
  · exact h.customers a ha
  · exact hc

theorem insertPayment (h : s.WellFormed) {p : Payment} (hi : s.payments.insert p = .ok payments)
    (hp : p.tenantId = p.organizationId) : ({ s with payments } : World).WellFormed := by
  refine { h with payments := h.payments.insert hi hp, events := fun e he => ?_,
                  refunds := fun r hr => ?_ }
  · obtain ⟨q, hq, hid⟩ := h.events e he
    exact ⟨q, (Table.mem_insert hi).mpr (.inl hq), hid⟩
  · obtain ⟨q, hq, hid⟩ := h.refunds r hr
    exact ⟨q, (Table.mem_insert hi).mpr (.inl hq), hid⟩

theorem updatePayment (h : s.WellFormed) {f : Payment → Payment}
    {hf : Table.Keeps Payment.id Payment.tenantKey f} {q : Payment}
    (hu : s.payments.update id f hf = some (q, payments))
    (ho : ∀ p, (f p).organizationId = p.organizationId) :
    ({ s with payments } : World).WellFormed := by
  have hids : ∀ k, (∃ p ∈ payments, p.id = k) ↔ ∃ p ∈ s.payments, p.id = k := fun k =>
    Table.exists_update hu fun a => by rw [hf.key]
  exact { h with
    payments := h.payments.update hu ho
    events := fun e he => (hids e.paymentId).mpr (h.events e he)
    refunds := fun r hr => (hids r.paymentId).mpr (h.refunds r hr) }

theorem insertEvent (h : s.WellFormed) {e : PaymentEvent} {t : Table PaymentEvent.id PaymentEvent.id}
    (hi : s.events.insert e = .ok t) (he : ∃ p ∈ s.payments, p.id = e.paymentId) :
    ({ s with events := t } : World).WellFormed := by
  refine { h with events := fun a ha => ?_ }
  rcases (Table.mem_insert hi).mp ha with ha | rfl
  · exact h.events a ha
  · exact he

theorem insertRefund (h : s.WellFormed) {r : Refund} {t : Table Refund.id Refund.id}
    (hi : s.refunds.insert r = .ok t) (hr : ∃ p ∈ s.payments, p.id = r.paymentId) :
    ({ s with refunds := t } : World).WellFormed := by
  refine { h with refunds := fun a ha => ?_ }
  rcases (Table.mem_insert hi).mp ha with ha | rfl
  · exact h.refunds a ha
  · exact hr

theorem unused (h : s.WellFormed) {p : Payment} (hi : s.payments.insert p = .ok payments) :
    (∀ e ∈ s.events, e.paymentId ≠ p.id) ∧ ∀ r ∈ s.refunds, r.paymentId ≠ p.id := by
  obtain ⟨-, hnew, -⟩ := Table.insert_ok hi
  constructor
  · intro e he heq
    obtain ⟨q, hq, hid⟩ := h.events e he
    exact hnew q hq (hid.trans heq)
  · intro r hr heq
    obtain ⟨q, hq, hid⟩ := h.refunds r hr
    exact hnew q hq (hid.trans heq)

end World.WellFormed

/-! ## Each request keeps the invariant -/

theorem mem_of_update {t : Table Payment.id Payment.tenantKey} {f : Payment → Payment}
    {hf : Table.Keeps Payment.id Payment.tenantKey f} {q : Payment}
    (hu : s.payments.update id f hf = some (q, t)) : ∃ p ∈ t, p.id = id :=
  ⟨q, (Table.mem_update hu).mpr (.inr rfl), Table.key_update hu⟩

theorem Written.wellFormed {f : Payment → Payment}
    {hf : Table.Keeps Payment.id Payment.tenantKey f} {ev : PaymentEvent} {q : Payment}
    (hw : Written id f hf ev s q s') (h : s.WellFormed)
    (ho : ∀ p, (f p).organizationId = p.organizationId) (he : ev.paymentId = id) :
    s'.WellFormed := by
  rw [hw.others]
  refine (h.updatePayment hw.payments ho).insertEvent hw.events ?_
  rw [he]
  exact mem_of_update hw.payments

theorem Inserted.wellFormed {d : Decision} {orgId key providerId : String} {dto : CreatePaymentDto}
    {method : PaymentMethodKind} {p : Payment}
    (hi : Inserted d orgId dto key providerId method s p s') (h : s.WellFormed) :
    s'.WellFormed := by
  obtain ⟨c, hp, hc⟩ := hi.row
  have h₁ : ({ s with customers := s'.customers } : World).WellFormed := by
    cases e : dto.customerId.filter (· ≠ "") with
    | none =>
      simp only [upsertDtoCustomer, e] at hc
      obtain ⟨-, hs⟩ := Tx.pure_ok.mp hc
      rw [hs]
      exact h
    | some externalId =>
      simp only [upsertDtoCustomer, e] at hc
      obtain ⟨a, s₁, ha, hc⟩ := Tx.bind_ok.mp hc
      obtain ⟨-, hs⟩ := Tx.pure_ok.mp hc
      rw [hs]
      rcases upsertCustomer_ok ha with ⟨-, -, rfl⟩ | ⟨-, t, ht, rfl⟩
      · exact h
      · exact h.insertCustomer ht rfl
  have h₂ := h₁.insertPayment hi.payments (by rw [hp]; rfl)
  rw [hi.others]
  exact h₂.insertEvent hi.events ⟨p, (Table.mem_insert hi.payments).mpr (.inr rfl), rfl⟩

theorem exec_wellFormed (o : Op) (d : Decision) (h : s.WellFormed) :
    (exec o d s).2.WellFormed := by
  obtain ⟨r, s', hx⟩ : ∃ r s', exec o d s = (r, s') := ⟨_, _, rfl⟩
  rw [hx]
  by_cases ho : o.writesPayments = false
  · rw [exec_others ho hx]
    exact { h with }
  · cases o with
    | insertPayment orgId dto key providerId method =>
      rcases exec_insertPayment hx with ⟨e, -, rfl⟩ | ⟨p, -, hi⟩
      · exact h
      · exact hi.wellFormed h
    | recordCharge payment result st =>
      rcases exec_recordCharge hx with ⟨e, -, rfl⟩ | ⟨q, -, hw⟩
      · exact h
      · exact hw.wellFormed h (fun _ => rfl) rfl
    | failPayment payment message =>
      rcases exec_failPayment hx with ⟨e, -, rfl⟩ | ⟨q, -, hu, hs⟩
      · exact h
      · rw [hs]
        exact h.updatePayment hu fun _ => rfl
    | recordRefund payment st body amount result =>
      rcases exec_recordRefund hx with ⟨e, -, rfl⟩ | ⟨q, -, hr, hw⟩
      · exact h
      · have hw' := hw.wellFormed h (fun _ => rfl) rfl
        have hmem := mem_of_update hw.payments
        exact hw'.insertRefund hr hmem
    | applyWebhook payment st event =>
      rcases exec_applyWebhook hx with ⟨e, -, rfl⟩ | ⟨q, -, hw⟩
      · exact h
      · exact hw.wellFormed h (fun _ => rfl) rfl
    | applyReconciliation payment st raw =>
      rcases exec_applyReconciliation hx with ⟨e, -, rfl⟩ | ⟨q, -, hw⟩
      · exact h
      · exact hw.wellFormed h (fun _ => rfl) rfl
    | _ => exact absurd rfl ho

/-! ## The rows of one organization in two states -/

namespace SameRows

theorem refl : SameRows org s s := ⟨.refl, .refl, .refl, .refl⟩

theorem owns_iff (h : SameRows org s₁ s₂) : s₁.Owns org id ↔ s₂.Owns org id := by
  constructor
  · rintro ⟨p, hp, ho, hid⟩
    exact ⟨p, (h.payments p ho).mp hp, ho, hid⟩
  · rintro ⟨p, hp, ho, hid⟩
    exact ⟨p, (h.payments p ho).mpr hp, ho, hid⟩

theorem trans (h : SameRows org s₁ s₂) (h' : SameRows org s₂ s₃) : SameRows org s₁ s₃ where
  payments := h.payments.trans h'.payments
  customers := h.customers.trans h'.customers
  events := h.events.trans (h'.events.mono fun _ he => h.owns_iff.mp he)
  refunds := h.refunds.trans (h'.refunds.mono fun _ hr => h.owns_iff.mp hr)

/-- The same new payment in both states. It has no events and no refunds yet. -/
theorem insertPayment (h : SameRows org s₁ s₂) (hw₁ : s₁.WellFormed) (hw₂ : s₂.WellFormed)
    {p : Payment} {t₁ t₂ : Table Payment.id Payment.tenantKey}
    (h₁ : s₁.payments.insert p = .ok t₁) (h₂ : s₂.payments.insert p = .ok t₂) :
    SameRows org { s₁ with payments := t₁ } { s₂ with payments := t₂ } := by
  have hown : ∀ id, ({ s₁ with payments := t₁ } : World).Owns org id →
      s₁.Owns org id ∨ id = p.id := by
    rintro id ⟨q, hq, ho, hid⟩
    rcases (Table.mem_insert h₁).mp hq with hq | rfl
    · exact .inl ⟨q, hq, ho, hid⟩
    · exact .inr hid.symm
  refine ⟨h.payments.insert_both h₁ h₂, h.customers, fun e he => ?_, fun r hr => ?_⟩
  · rcases hown _ he with ho | hid
    · exact h.events e ho
    · exact iff_of_false (fun hm => (hw₁.unused h₁).1 e hm hid)
        fun hm => (hw₂.unused h₂).1 e hm hid
  · rcases hown _ hr with ho | hid
    · exact h.refunds r ho
    · exact iff_of_false (fun hm => (hw₁.unused h₁).2 r hm hid)
        fun hm => (hw₂.unused h₂).2 r hm hid

/-- The same update of a payment in both states. -/
theorem updatePayment (h : SameRows org s₁ s₂) {f : Payment → Payment}
    {hf : Table.Keeps Payment.id Payment.tenantKey f} {q : Payment}
    {t₁ t₂ : Table Payment.id Payment.tenantKey}
    (h₁ : s₁.payments.update id f hf = some (q, t₁))
    (h₂ : s₂.payments.update id f hf = some (q, t₂))
    (ho : ∀ p, (f p).organizationId = p.organizationId) :
    SameRows org { s₁ with payments := t₁ } { s₂ with payments := t₂ } where
  payments := h.payments.update_both h₁ h₂
  customers := h.customers
  events := h.events.mono fun _ he => (World.owns_update h₁ ho).mp he
  refunds := h.refunds.mono fun _ hr => (World.owns_update h₁ ho).mp hr

end SameRows

/-! ## The rows of the others -/

namespace Untouched

variable {w : World}

theorem refl : Untouched org s s := ⟨fun _ _ => .refl, .refl⟩

theorem insertCustomer (h : Untouched org w s) {c : Customer}
    {t : Table Customer.id Customer.tenantKey} (hi : s.customers.insert c = .ok t)
    (hc : c.organizationId = org) : Untouched org w { s with customers := t } := by
  refine ⟨fun other hne => (h.rows other hne).trans ⟨.refl, ?_, .refl, .refl⟩, h.logs⟩
  exact Table.Agree.refl.insert_other (fun ho => hne (ho.symm.trans hc)) hi

theorem insertPayment (h : Untouched org w s) {p : Payment}
    {t : Table Payment.id Payment.tenantKey} (hi : s.payments.insert p = .ok t)
    (hp : p.organizationId = org) : Untouched org w { s with payments := t } := by
  refine ⟨fun other hne => (h.rows other hne).trans ⟨?_, .refl, .refl, .refl⟩, h.logs⟩
  exact Table.Agree.refl.insert_other (fun ho => hne (ho.symm.trans hp)) hi

theorem updatePayment (h : Untouched org w s) {f : Payment → Payment}
    {hf : Table.Keeps Payment.id Payment.tenantKey f} {q : Payment}
    {t : Table Payment.id Payment.tenantKey} (hu : s.payments.update id f hf = some (q, t))
    (ho : ∀ p, (f p).organizationId = p.organizationId) (hid : s.Owns org id) :
    Untouched org w { s with payments := t } := by
  obtain ⟨a, ha, horg, haid⟩ := hid
  have hrow : ∀ b ∈ s.payments, b.id = id → b.organizationId = org := fun b hb hbid => by
    rw [Table.eq_of_key hb ha (hbid.trans haid.symm), horg]
  obtain ⟨b, hb, hbid, rfl, -⟩ := Table.update_some hu
  refine ⟨fun other hne => (h.rows other hne).trans ⟨?_, .refl, .refl, .refl⟩, h.logs⟩
  refine Table.Agree.refl.update_other hu (fun he => hne ?_) fun c hc hcid he => hne ?_
  · rw [← he, ho, hrow b hb hbid]
  · rw [← he, hrow c hc hcid]

theorem insertEvent (h : Untouched org w s) {e : PaymentEvent}
    {t : Table PaymentEvent.id PaymentEvent.id} (hi : s.events.insert e = .ok t)
    (he : s.Owns org e.paymentId) : Untouched org w { s with events := t } := by
  refine ⟨fun other hne => (h.rows other hne).trans ⟨.refl, .refl, ?_, .refl⟩, h.logs⟩
  exact Table.Agree.refl.insert_other (fun ho => hne (ho.unique he)) hi

theorem insertRefund (h : Untouched org w s) {r : Refund} {t : Table Refund.id Refund.id}
    (hi : s.refunds.insert r = .ok t) (hr : s.Owns org r.paymentId) :
    Untouched org w { s with refunds := t } := by
  refine ⟨fun other hne => (h.rows other hne).trans ⟨.refl, .refl, .refl, ?_⟩, h.logs⟩
  exact Table.Agree.refl.insert_other (fun ho => hne (ho.unique hr)) hi

theorem insertAuditLog (h : Untouched org w s) {l : AuditLog} {t : Table AuditLog.id AuditLog.id}
    (hi : s.auditLogs.insert l = .ok t) (ht : l.tenantId = org)
    (ho : l.organizationId = some org) : Untouched org w { s with auditLogs := t } := by
  refine ⟨fun other hne => ⟨(h.rows other hne).payments, (h.rows other hne).customers,
    (h.rows other hne).events, (h.rows other hne).refunds⟩, h.logs.insert_other ?_ hi⟩
  rintro (hne | hne)
  · exact hne ht
  · exact hne ho

end Untouched

end

end Pasarela
