import Mathlib.Logic.Equiv.List
import Pasarela.Calls
import Pasarela.Conc.Pool
import Pasarela.Tenants

/-!
# Tenant isolation

Two databases have the same rows of an organization `org` and any rows of the others. A call of
`org` runs on both, under the same decisions of the environment. The two runs are taken together,
request by request.

* `NewIds`: a generated id is not the id of a row of another organization.
* `Session org w ids s`: what holds along one run of a call of `org` from `w`: the invariant of the
  database, `w` untouched but for the rows of `org`, and the payments `ids`, which the call has seen,
  are of `org`.
* `Twins`: two such runs, with the same rows of `org`. `Tx.Twice` is a transaction that keeps it,
  and `twins` makes it a `Coupling`.
* `tenant_isolation`: the calls of `PaymentsService` keep it, so their results are equal.
-/

namespace Pasarela

open Conc (Conf Coupled Coupling Outcome Prog)
open PaymentsService
open Store (Table)

/-- A row with a generated id is a row of `org` (module doc). The ids of the audit log do not matter:
its errors are not thrown. -/
structure NewIds (org : String) (d : Decision) (s : World) : Prop where
  customer : ∀ c ∈ s.customers, c.id = d.newId .customer → c.organizationId = org
  payment : ∀ p ∈ s.payments, p.id = d.newId .payment → p.organizationId = org
  event : ∀ e ∈ s.events, e.id = d.newId .paymentEvent → s.Owns org e.paymentId
  refund : ∀ r ∈ s.refunds, r.id = d.newId .refund → s.Owns org r.paymentId

/-- What holds along a run (module doc). -/
structure Session (org : String) (w : World) (ids : List String) (s : World) : Prop where
  wellFormed : s.WellFormed
  others : Untouched org w s
  own : ∀ id ∈ ids, s.Owns org id

/-- Two runs of a call (module doc). -/
structure Twins (org : String) (w₁ w₂ : World) (ids : List String) (s₁ s₂ : World) : Prop where
  left : Session org w₁ ids s₁
  right : Session org w₂ ids s₂
  same : SameRows org s₁ s₂

/-- The decisions of the environment: new ids in both databases, and one order for the rows whose order
a query leaves open. -/
structure Fair (org : String) (w₁ w₂ : World) (d : Decision) : Prop where
  left : NewIds org d w₁
  right : NewIds org d w₂
  rank : Function.Injective d.rank

/-- `Twins`, for the rules of two runs. -/
def twins (org : String) (w₁ w₂ : World) : Coupling machine (List String) where
  rel := Twins org w₁ w₂
  allow _ d := Fair org w₁ w₂ d

/-! ## One run -/

section Session

variable {org : String} {w s : World} {ids : List String} {d : Decision}

/-- The ids are still new during the run: the rows of the others are the ones at its start. -/
theorem NewIds.later (h : NewIds org d w) (hs : Session org w ids s) : NewIds org d s where
  customer c hc hid := by
    by_contra hne
    exact hne (h.customer c (((hs.others.rows _ hne).customers c rfl).mpr hc) hid)
  payment p hp hid := by
    by_contra hne
    exact hne (h.payment p (((hs.others.rows _ hne).payments p rfl).mpr hp) hid)
  event e he hid := by
    rcases World.owner (hs.wellFormed.events e he) with ho | ⟨other, hne, ho⟩
    · exact ho
    · have hw : w.Owns other e.paymentId := (hs.others.rows other hne).owns_iff.mpr ho
      have he' := ((hs.others.rows other hne).events e hw).mpr he
      exact absurd (hw.unique (h.event e he' hid)) hne
  refund r hr hid := by
    rcases World.owner (hs.wellFormed.refunds r hr) with ho | ⟨other, hne, ho⟩
    · exact ho
    · have hw : w.Owns other r.paymentId := (hs.others.rows other hne).owns_iff.mpr ho
      have hr' := ((hs.others.rows other hne).refunds r hw).mpr hr
      exact absurd (hw.unique (h.refund r hr' hid)) hne

namespace Session

theorem insertCustomer (h : Session org w ids s) {c : Customer}
    {t : Table Customer.id Customer.tenantKey} (hi : s.customers.insert c = .ok t)
    (ht : c.tenantId = org) (ho : c.organizationId = org) :
    Session org w ids { s with customers := t } :=
  ⟨h.wellFormed.insertCustomer hi (ht.trans ho.symm), h.others.insertCustomer hi ho, h.own⟩

/-- The new payment is one of those that the call has seen. -/
theorem insertPayment (h : Session org w ids s) {p : Payment}
    {t : Table Payment.id Payment.tenantKey} (hi : s.payments.insert p = .ok t)
    (ht : p.tenantId = org) (ho : p.organizationId = org) :
    Session org w (p.id :: ids) { s with payments := t } := by
  refine ⟨h.wellFormed.insertPayment hi (ht.trans ho.symm), h.others.insertPayment hi ho, ?_⟩
  intro id hid
  rcases List.mem_cons.mp hid with rfl | hid
  · exact ⟨p, (Table.mem_insert hi).mpr (.inr rfl), ho, rfl⟩
  · obtain ⟨q, hq, hqo, hqid⟩ := h.own id hid
    exact ⟨q, (Table.mem_insert hi).mpr (.inl hq), hqo, hqid⟩

theorem updatePayment (h : Session org w ids s) {id : String} {f : Payment → Payment}
    {hf : Table.Keeps Payment.id Payment.tenantKey f} {q : Payment}
    {t : Table Payment.id Payment.tenantKey} (hu : s.payments.update id f hf = some (q, t))
    (ho : ∀ p, (f p).organizationId = p.organizationId) (hid : id ∈ ids) :
    Session org w ids { s with payments := t } :=
  ⟨h.wellFormed.updatePayment hu ho, h.others.updatePayment hu ho (h.own id hid),
    fun k hk => (World.owns_update hu ho).mpr (h.own k hk)⟩

theorem payment_mem (h : Session org w ids s) {id : String} (hid : id ∈ ids) :
    ∃ p ∈ s.payments, p.id = id := by
  obtain ⟨p, hp, -, hpid⟩ := h.own id hid
  exact ⟨p, hp, hpid⟩

theorem insertEvent (h : Session org w ids s) {e : PaymentEvent}
    {t : Table PaymentEvent.id PaymentEvent.id} (hi : s.events.insert e = .ok t)
    (he : e.paymentId ∈ ids) : Session org w ids { s with events := t } :=
  ⟨h.wellFormed.insertEvent hi (h.payment_mem he), h.others.insertEvent hi (h.own _ he), h.own⟩

theorem insertRefund (h : Session org w ids s) {r : Refund} {t : Table Refund.id Refund.id}
    (hi : s.refunds.insert r = .ok t) (hr : r.paymentId ∈ ids) :
    Session org w ids { s with refunds := t } :=
  ⟨h.wellFormed.insertRefund hi (h.payment_mem hr), h.others.insertRefund hi (h.own _ hr), h.own⟩

theorem insertAuditLog (h : Session org w ids s) {l : AuditLog}
    {t : Table AuditLog.id AuditLog.id} (hi : s.auditLogs.insert l = .ok t) (ht : l.tenantId = org)
    (ho : l.organizationId = some org) : Session org w ids { s with auditLogs := t } :=
  ⟨{ h.wellFormed with }, h.others.insertAuditLog hi ht ho, h.own⟩

theorem addPending (h : Session org w ids s) (country : String) (n : Int) :
    Session org w ids (s.addPending country n) :=
  ⟨{ h.wellFormed with }, ⟨fun other hne => { h.others.rows other hne with }, h.others.logs⟩, h.own⟩

end Session

end Session

/-! ## Two runs of a transaction -/

/-- An answer has `P`; an error leaves the ghost value. -/
def Answers {α γ : Type} (P : α → γ → Prop) (g : γ) : Except Err α → γ → Prop
  | .ok a, g' => P a g'
  | .error _, g' => g' = g

/-- The transaction in two states related at `g`: both throw the same error, or both answer the same
and their states are related at some `g'` with `Q`. -/
def Tx.Twice {α γ : Type} (R : γ → World → World → Prop) (Q : α → γ → Prop) (tx : Tx α) (g : γ) :
    Prop :=
  ∀ s₁ s₂, R g s₁ s₂ → (∃ e, tx s₁ = .error e ∧ tx s₂ = .error e) ∨
    ∃ a s₁' s₂' g', tx s₁ = .ok (a, s₁') ∧ tx s₂ = .ok (a, s₂') ∧ R g' s₁' s₂' ∧ Q a g'

namespace Tx.Twice

variable {α β γ : Type} {R : γ → World → World → Prop} {g : γ} {s₁ s₂ : World}

theorem pure {Q : α → γ → Prop} {a : α} (h : Q a g) : Twice R Q (Pure.pure a) g :=
  fun s₁ s₂ hs => .inr ⟨a, s₁, s₂, g, rfl, rfl, hs, h⟩

theorem bind {P : α → γ → Prop} {Q : β → γ → Prop} {x : Tx α} {f : α → Tx β}
    (hx : Twice R P x g) (hf : ∀ a g', P a g' → Twice R Q (f a) g') : Twice R Q (x >>= f) g := by
  intro s₁ s₂ hs
  rcases hx s₁ s₂ hs with ⟨e, h₁, h₂⟩ | ⟨a, s₁', s₂', g', h₁, h₂, hs', hP⟩
  · exact .inl ⟨e, bind_of_error h₁, bind_of_error h₂⟩
  · rw [bind_of_ok h₁, bind_of_ok h₂]
    exact hf a g' hP s₁' s₂' hs'

theorem atomically {Q : α → γ → Prop} {tx : Tx α} (h : Twice R Q tx g) (hs : R g s₁ s₂)
    (d : Decision) : ∃ r s₁' s₂', atomically d tx s₁ = (r, s₁') ∧ atomically d tx s₂ = (r, s₂') ∧
      ∃ g', R g' s₁' s₂' ∧ Answers Q g r g' := by
  cases hf : d.fail with
  | some e => exact ⟨_, s₁, s₂, atomically_of_fail hf, atomically_of_fail hf, g, hs, rfl⟩
  | none =>
    rcases h s₁ s₂ hs with ⟨e, h₁, h₂⟩ | ⟨a, s₁', s₂', g', h₁, h₂, hs', hQ⟩
    · exact ⟨_, s₁, s₂, atomically_of_error hf h₁, atomically_of_error hf h₂, g, hs, rfl⟩
    · exact ⟨_, s₁', s₂', atomically_of_ok hf h₁, atomically_of_ok hf h₂, g', hs', hQ⟩

end Tx.Twice

/-- An insert that can only clash with rows that both states have. -/
theorem insertInto_twice {α κ υ : Type} {key : α → κ} {uniq : α → υ} [DecidableEq κ]
    [DecidableEq υ] {get : World → Table key uniq} {set : World → Table key uniq → World}
    {columns : List String} {a : α} {own : α → Prop} {s₁ s₂ : World}
    (h : Table.Agree own (get s₁) (get s₂))
    (h₁ : ∀ b ∈ get s₁, key b = key a ∨ uniq b = uniq a → own b)
    (h₂ : ∀ b ∈ get s₂, key b = key a ∨ uniq b = uniq a → own b) :
    (∃ e, insertInto get set columns a s₁ = .error e ∧ insertInto get set columns a s₂ = .error e) ∨
      ∃ t₁ t₂, (get s₁).insert a = .ok t₁ ∧ (get s₂).insert a = .ok t₂ ∧
        insertInto get set columns a s₁ = .ok (a, set s₁ t₁) ∧
        insertInto get set columns a s₂ = .ok (a, set s₂ t₂) := by
  rcases h.insert h₁ h₂ with ⟨c, e₁, e₂⟩ | ⟨t₁, t₂, e₁, e₂⟩
  · refine .inl ?_
    cases c with
    | key => exact ⟨_, by rw [insertInto, e₁], by rw [insertInto, e₂]⟩
    | uniq => exact ⟨_, by rw [insertInto, e₁], by rw [insertInto, e₂]⟩
  · exact .inr ⟨t₁, t₂, e₁, e₂, by rw [insertInto, e₁], by rw [insertInto, e₂]⟩

section Statements

variable {org : String} {w w₁ w₂ s : World} {ids : List String} {d : Decision}

/-! ### What a new row can clash with -/

theorem Session.clashCustomer (h : Session org w ids s) (hd : NewIds org d w) {c : Customer}
    (hid : c.id = d.newId .customer) (ht : c.tenantId = org) :
    ∀ b ∈ s.customers, b.id = c.id ∨ b.tenantKey = c.tenantKey → b.organizationId = org := by
  rintro b hb (hk | hk)
  · exact (hd.later h).customer b hb (hk.trans hid)
  · rw [← h.wellFormed.customers b hb, ← ht]
    exact congrArg Prod.fst hk

theorem Session.clashPayment (h : Session org w ids s) (hd : NewIds org d w) {p : Payment}
    (hid : p.id = d.newId .payment) (ht : p.tenantId = org) :
    ∀ b ∈ s.payments, b.id = p.id ∨ b.tenantKey = p.tenantKey → b.organizationId = org := by
  rintro b hb (hk | hk)
  · exact (hd.later h).payment b hb (hk.trans hid)
  · rw [← h.wellFormed.payments b hb, ← ht]
    exact congrArg Prod.fst hk

theorem Session.clashEvent (h : Session org w ids s) (hd : NewIds org d w) {e : PaymentEvent}
    (hid : e.id = d.newId .paymentEvent) :
    ∀ b ∈ s.events, b.id = e.id ∨ b.id = e.id → s.Owns org b.paymentId :=
  fun b hb hk => (hd.later h).event b hb ((or_self_iff.mp hk).trans hid)

theorem Session.clashRefund (h : Session org w ids s) (hd : NewIds org d w) {r : Refund}
    (hid : r.id = d.newId .refund) :
    ∀ b ∈ s.refunds, b.id = r.id ∨ b.id = r.id → s.Owns org b.paymentId :=
  fun b hb hk => (hd.later h).refund b hb ((or_self_iff.mp hk).trans hid)

/-! ### The statements -/

theorem upsertCustomer_twice (hd : Fair org w₁ w₂ d) {c : Customer}
    (hid : c.id = d.newId .customer) (ht : c.tenantId = org) (ho : c.organizationId = org) :
    Tx.Twice (Twins org w₁ w₂) (fun _ g => g = ids) (upsertCustomer c) ids := by
  intro s₁ s₂ h
  have hclash₁ := h.left.clashCustomer hd.left hid ht
  have hclash₂ := h.right.clashCustomer hd.right hid ht
  have hfind : (s₁.customers.rows.find? fun a => a.tenantKey = c.tenantKey) =
      s₂.customers.rows.find? fun a => a.tenantKey = c.tenantKey := by
    refine h.same.customers.find?_eq (fun a ha hk => hclash₁ a ha (.inr (by simpa using hk)))
      (fun a ha hk => hclash₂ a ha (.inr (by simpa using hk))) fun a ha b hb hka hkb => ?_
    rw [decide_eq_true_eq] at hka hkb
    exact Table.eq_of_uniq ha hb (hka.trans hkb.symm)
  simp only [upsertCustomer, hfind]
  cases s₂.customers.rows.find? fun a => a.tenantKey = c.tenantKey with
  | some a => exact .inr ⟨a, s₁, s₂, ids, rfl, rfl, h, rfl⟩
  | none =>
    rcases insertInto_twice h.same.customers hclash₁ hclash₂ with he | ⟨t₁, t₂, h₁, h₂, e₁, e₂⟩
    · exact .inl he
    · have hleft := h.left.insertCustomer h₁ ht ho
      have hright := h.right.insertCustomer h₂ ht ho
      have hrows := h.same.customers.insert_both h₁ h₂
      exact .inr ⟨c, _, _, ids, e₁, e₂, ⟨hleft, hright, { h.same with customers := hrows }⟩, rfl⟩

theorem createPayment_twice (hd : Fair org w₁ w₂ d) {p : Payment} (hid : p.id = d.newId .payment)
    (ht : p.tenantId = org) (ho : p.organizationId = org) :
    Tx.Twice (Twins org w₁ w₂) (fun q g => q = p ∧ g = p.id :: ids) (createPayment p) ids := by
  intro s₁ s₂ h
  rcases insertInto_twice h.same.payments (h.left.clashPayment hd.left hid ht)
    (h.right.clashPayment hd.right hid ht) with he | ⟨t₁, t₂, h₁, h₂, e₁, e₂⟩
  · exact .inl he
  · have hleft := h.left.insertPayment h₁ ht ho
    have hright := h.right.insertPayment h₂ ht ho
    have hrows := h.same.insertPayment h.left.wellFormed h.right.wellFormed h₁ h₂
    exact .inr ⟨p, _, _, p.id :: ids, e₁, e₂, ⟨hleft, hright, hrows⟩, rfl, rfl⟩

theorem createPaymentEvent_twice (hd : Fair org w₁ w₂ d) {e : PaymentEvent}
    (hid : e.id = d.newId .paymentEvent) (he : e.paymentId ∈ ids) :
    Tx.Twice (Twins org w₁ w₂) (fun _ g => g = ids) (createPaymentEvent e) ids := by
  intro s₁ s₂ h
  have hclash₂ : ∀ b ∈ s₂.events, b.id = e.id ∨ b.id = e.id → s₁.Owns org b.paymentId :=
    fun b hb hk => h.same.owns_iff.mpr (h.right.clashEvent hd.right hid b hb hk)
  rcases insertInto_twice h.same.events (h.left.clashEvent hd.left hid) hclash₂ with
    herr | ⟨t₁, t₂, h₁, h₂, e₁, e₂⟩
  · exact .inl herr
  · have hleft := h.left.insertEvent h₁ he
    have hright := h.right.insertEvent h₂ he
    have hrows := h.same.events.insert_both h₁ h₂
    exact .inr ⟨e, _, _, ids, e₁, e₂, ⟨hleft, hright, { h.same with events := hrows }⟩, rfl⟩

theorem createRefund_twice (hd : Fair org w₁ w₂ d) {r : Refund} (hid : r.id = d.newId .refund)
    (hr : r.paymentId ∈ ids) :
    Tx.Twice (Twins org w₁ w₂) (fun _ g => g = ids) (createRefund r) ids := by
  intro s₁ s₂ h
  have hclash₂ : ∀ b ∈ s₂.refunds, b.id = r.id ∨ b.id = r.id → s₁.Owns org b.paymentId :=
    fun b hb hk => h.same.owns_iff.mpr (h.right.clashRefund hd.right hid b hb hk)
  rcases insertInto_twice h.same.refunds (h.left.clashRefund hd.left hid) hclash₂ with
    herr | ⟨t₁, t₂, h₁, h₂, e₁, e₂⟩
  · exact .inl herr
  · have hleft := h.left.insertRefund h₁ hr
    have hright := h.right.insertRefund h₂ hr
    have hrows := h.same.refunds.insert_both h₁ h₂
    exact .inr ⟨r, _, _, ids, e₁, e₂, ⟨hleft, hright, { h.same with refunds := hrows }⟩, rfl⟩

/-- A payment that the call has seen is there, so its update does not fail. -/
theorem updatePayment_twice {id : String} {f : Payment → Payment}
    {hf : Table.Keeps Payment.id Payment.tenantKey f}
    (ho : ∀ p, (f p).organizationId = p.organizationId) (hid : id ∈ ids) :
    Tx.Twice (Twins org w₁ w₂) (fun _ g => g = ids) (updatePayment id f hf) ids := by
  intro s₁ s₂ h
  obtain ⟨p, hp, hpo, hpid⟩ := h.left.own id hid
  obtain ⟨t₁, h₁⟩ : ∃ t, s₁.payments.update id f hf = some (f p, t) :=
    Table.update_of_mem hp hpid
  obtain ⟨t₂, h₂⟩ : ∃ t, s₂.payments.update id f hf = some (f p, t) :=
    Table.update_of_mem ((h.same.payments p hpo).mp hp) hpid
  have hleft := h.left.updatePayment h₁ ho hid
  have hright := h.right.updatePayment h₂ ho hid
  have hrows := h.same.updatePayment h₁ h₂ ho
  exact .inr ⟨f p, _, _, ids, updateIn_ok.mpr ⟨t₁, h₁, rfl⟩, updateIn_ok.mpr ⟨t₂, h₂, rfl⟩,
    ⟨hleft, hright, hrows⟩, rfl⟩

/-! ### The transactions -/

theorem insertPayment_twice (hd : Fair org w₁ w₂ d) {dto : CreatePaymentDto}
    {key providerId : String} {method : PaymentMethodKind} :
    Tx.Twice (Twins org w₁ w₂) (fun p g => p.id ∈ g)
      (insertPayment d org dto key providerId method) ids := by
  have hcustomer : Tx.Twice (Twins org w₁ w₂) (fun _ g => g = ids)
      (upsertDtoCustomer d org dto) ids := by
    cases e : dto.customerId.filter (· ≠ "") with
    | none =>
      simp only [upsertDtoCustomer, e]
      exact .pure rfl
    | some externalId =>
      simp only [upsertDtoCustomer, e]
      exact (upsertCustomer_twice hd rfl rfl rfl).bind fun _ _ hg => .pure hg
  refine hcustomer.bind fun c g hg => ?_
  subst hg
  refine (createPayment_twice hd rfl rfl rfl).bind fun p g hp => ?_
  obtain ⟨rfl, rfl⟩ := hp
  refine (createPaymentEvent_twice hd rfl List.mem_cons_self).bind fun _ g hg => ?_
  subst hg
  exact .pure List.mem_cons_self

theorem recordCharge_twice (hd : Fair org w₁ w₂ d) {payment : Payment} {result : ChargeResult}
    {st : PaymentStatus} (hid : payment.id ∈ ids) :
    Tx.Twice (Twins org w₁ w₂) (fun _ g => g = ids) (recordCharge d payment result st) ids := by
  have hupdate : Tx.Twice (Twins org w₁ w₂) (fun _ g => g = ids)
      (updatePayment payment.id (setCharge d result st) (keeps_setCharge d _ _)) ids :=
    updatePayment_twice (fun _ => rfl) hid
  refine hupdate.bind fun p g hg => ?_
  subst hg
  exact (createPaymentEvent_twice hd rfl hid).bind fun _ _ hg => .pure hg

theorem recordRefund_twice (hd : Fair org w₁ w₂ d) {payment : Payment} {st : PaymentStatus}
    {body : RefundBody} {amount : Option Int} {result : RefundResult} (hid : payment.id ∈ ids) :
    Tx.Twice (Twins org w₁ w₂) (fun _ g => g = ids)
      (recordRefund d payment st body amount result) ids := by
  have hupdate : Tx.Twice (Twins org w₁ w₂) (fun _ g => g = ids)
      (updatePayment payment.id (setStatus d st) (keeps_setStatus d _)) ids :=
    updatePayment_twice (fun _ => rfl) hid
  refine hupdate.bind fun p g hg => ?_
  subst hg
  refine (createPaymentEvent_twice hd rfl hid).bind fun _ g hg => ?_
  subst hg
  exact (createRefund_twice hd rfl hid).bind fun _ _ hg => .pure hg

end Statements

/-! ## Two runs of a request -/

section Requests

variable {org : String} {w₁ w₂ s₁ s₂ : World} {ids : List String} {d : Decision}

theorem tx_request {o : Op} {tx : Decision → Tx o.Ans} {P : o.Ans → List String → Prop}
    (ho : ∀ d s, exec o d s = atomically d (tx d) s)
    (htx : ∀ d, Fair org w₁ w₂ d → Tx.Twice (Twins org w₁ w₂) P (tx d) ids) :
    Coupled (twins org w₁ w₂) (Answers P ids) (request o) ids := by
  refine Coupled.perform fun d s₁ s₂ hd hs => ?_
  show ∃ r s₁' s₂', exec o d s₁ = _ ∧ exec o d s₂ = _ ∧ _
  rw [ho, ho]
  exact (htx d hd).atomically hs d

theorem query_request {o : Op} {f : Decision → World → o.Ans} {P : o.Ans → List String → Prop}
    (ho : ∀ d s, exec o d s = query d (f d) s)
    (hf : ∀ d s₁ s₂, Fair org w₁ w₂ d → Twins org w₁ w₂ ids s₁ s₂ →
      f d s₁ = f d s₂ ∧ ∃ g, Twins org w₁ w₂ g s₁ s₂ ∧ P (f d s₁) g) :
    Coupled (twins org w₁ w₂) (Answers P ids) (request o) ids := by
  refine Coupled.perform fun d s₁ s₂ hd hs => ?_
  show ∃ r s₁' s₂', exec o d s₁ = _ ∧ exec o d s₂ = _ ∧ _
  obtain ⟨heq, g, hg, hP⟩ := hf d s₁ s₂ hd hs
  rw [ho, ho, query, query, ← heq]
  cases d.fail with
  | some e => exact ⟨_, s₁, s₂, rfl, rfl, ids, hs, rfl⟩
  | none => exact ⟨_, s₁, s₂, rfl, rfl, g, hg, hP⟩

theorem other_request {o : Op} {r : Decision → Except Err o.Ans} {f : Decision → World → World}
    (ho : ∀ d s, exec o d s = (r d, f d s))
    (hf : ∀ d s₁ s₂, Twins org w₁ w₂ ids s₁ s₂ → Twins org w₁ w₂ ids (f d s₁) (f d s₂)) :
    Coupled (twins org w₁ w₂) (fun _ g => g = ids) (request o) ids := by
  refine Coupled.perform fun d s₁ s₂ _ hs => ?_
  exact ⟨r d, f d s₁, f d s₂, ho d s₁, ho d s₂, ids, hf d s₁ s₂ hs, rfl⟩

theorem Twins.addPending (h : Twins org w₁ w₂ ids s₁ s₂) (country : String) (n : Int) :
    Twins org w₁ w₂ ids (s₁.addPending country n) (s₂.addPending country n) :=
  ⟨h.left.addPending country n, h.right.addPending country n, { h.same with }⟩

theorem Session.auditLog {w s : World} (h : Session org w ids s) {entry : AuditEntry}
    (ht : entry.tenantId = org) (ho : entry.organizationId = some org) :
    Session org w ids (exec (.auditLog entry) d s).2 := by
  simp only [exec]
  rcases atomically_cases d (createAuditLog (newAuditLog d entry)) s with
    ⟨e, he⟩ | ⟨a, s', -, htx, ha⟩
  · rw [he]
    exact h
  · obtain ⟨-, t, hi, rfl⟩ := insertInto_ok.mp htx
    rw [ha]
    exact h.insertAuditLog hi ht (by simp [newAuditLog, ho])

/-- The audit log may be written in one run and fail in the other: the call does not see it. -/
theorem Twins.auditLog (h : Twins org w₁ w₂ ids s₁ s₂) {entry : AuditEntry}
    (ht : entry.tenantId = org) (ho : entry.organizationId = some org) :
    Twins org w₁ w₂ ids (exec (.auditLog entry) d s₁).2 (exec (.auditLog entry) d s₂).2 := by
  refine ⟨h.left.auditLog ht ho, h.right.auditLog ht ho, ?_⟩
  obtain ⟨l₁, h₁⟩ : ∃ l, (exec (.auditLog entry) d s₁).2 = { s₁ with auditLogs := l } :=
    ⟨_, (exec_auditLog rfl).2⟩
  obtain ⟨l₂, h₂⟩ : ∃ l, (exec (.auditLog entry) d s₂).2 = { s₂ with auditLogs := l } :=
    ⟨_, (exec_auditLog rfl).2⟩
  rw [h₁, h₂]
  exact { h.same with }

theorem Twins.cons (h : Twins org w₁ w₂ ids s₁ s₂) {p : Payment} (hp : p ∈ s₁.payments)
    (ho : p.organizationId = org) : Twins org w₁ w₂ (p.id :: ids) s₁ s₂ := by
  have hown : s₁.Owns org p.id := ⟨p, hp, ho, rfl⟩
  refine ⟨⟨h.left.wellFormed, h.left.others, ?_⟩, ⟨h.right.wellFormed, h.right.others, ?_⟩, h.same⟩
  · exact List.forall_mem_cons.mpr ⟨hown, h.left.own⟩
  · exact List.forall_mem_cons.mpr ⟨h.same.owns_iff.mp hown, h.right.own⟩

/-- A filter that one payment of `org` satisfies at most. -/
structure PaymentWhere.Finds (w : PaymentWhere) (org : String) : Prop where
  org : ∀ p, w.holds p → p.organizationId = org
  unique : ∀ s : World, s.WellFormed → ∀ a ∈ s.payments, ∀ b ∈ s.payments,
    w.holds a → w.holds b → a = b

theorem PaymentWhere.finds_id (id : String) :
    Finds { id := some id, organizationId := some org } org where
  org _ hp := (holds_id_org.mp hp).2
  unique _ _ _ ha _ hb hwa hwb :=
    Table.eq_of_key ha hb ((holds_id_org.mp hwa).1.trans (holds_id_org.mp hwb).1.symm)

theorem PaymentWhere.finds_key (key : String) :
    Finds { organizationId := some org, idempotencyKey := some key } org where
  org _ hp := (holds_org_key.mp hp).1
  unique _ hs _ ha _ hb hwa hwb := by
    obtain ⟨hoa, hka⟩ := holds_org_key.mp hwa
    obtain ⟨hob, hkb⟩ := holds_org_key.mp hwb
    exact hs.payments.unique ha hb (hoa.trans hob.symm) (hka.trans hkb.symm)

theorem Twins.firstPayment (h : Twins org w₁ w₂ ids s₁ s₂) {w : PaymentWhere} (hw : w.Finds org) :
    s₁.firstPayment d w = s₂.firstPayment d w :=
  h.same.payments.findFirst_eq hw.org (hw.unique s₁ h.left.wellFormed)

/-- The row that a query found is one of `org`, in both of its columns. -/
theorem Twins.found (h : Twins org w₁ w₂ ids s₁ s₂) {w : PaymentWhere} (hw : w.Finds org)
    {p : Payment} (hp : s₁.firstPayment d w = some p) :
    p ∈ s₁.payments ∧ p.organizationId = org ∧ p.tenantId = org := by
  obtain ⟨hmem, hholds⟩ := Table.findFirst_some hp
  have ho : p.organizationId = org := hw.org p hholds
  exact ⟨hmem, ho, (h.left.wellFormed.payments p hmem).trans ho⟩

theorem findPayment_request {w : PaymentWhere} (hw : w.Finds org) :
    Coupled (twins org w₁ w₂) (Answers (fun r g => ∀ p, r = some p → p.id ∈ g ∧ p.tenantId = org)
      ids) (request (.findPayment w)) ids := by
  refine query_request (fun d s => rfl) fun d s₁ s₂ _ hs => ⟨hs.firstPayment hw, ?_⟩
  cases e : s₁.firstPayment d w with
  | none => exact ⟨ids, hs, fun p hp => by cases hp⟩
  | some p =>
    obtain ⟨hp, ho, ht⟩ := hs.found hw e
    refine ⟨p.id :: ids, hs.cons hp ho, fun q hq => ?_⟩
    cases hq
    exact ⟨List.mem_cons_self, ht⟩

/-- The events of a payment of `org`, in the order of the query. -/
theorem Twins.eventsOf (h : Twins org w₁ w₂ ids s₁ s₂) (hd : Function.Injective d.rank) {p : Payment}
    (hp : s₁.Owns org p.id) : s₁.eventsOf d p = s₂.eventsOf d p := by
  let r : PaymentEvent → PaymentEvent → Prop := fun a b =>
    a.createdAt < b.createdAt ∨ a.createdAt = b.createdAt ∧ d.rank a.id ≤ d.rank b.id
  have htotal : Std.Total r := ⟨fun a b => by simp only [r]; omega⟩
  have htrans : IsTrans _ r := ⟨fun a b c hab hbc => by simp only [r] at *; omega⟩
  refine h.same.events.sort_eq (fun e he => ?_) r fun a ha b hb hab hba => ?_
  · rw [decide_eq_true_eq] at he
    rw [he]
    exact hp
  · have hrank : d.rank a.id = d.rank b.id := by simp only [r] at hab hba; omega
    exact Table.eq_of_key ha hb (hd hrank)

theorem Twins.paymentsBy (h : Twins org w₁ w₂ ids s₁ s₂) (hd : Function.Injective d.rank)
    {w : PaymentWhere} (hw : ∀ p, w.holds p → p.organizationId = org) :
    s₁.paymentsBy d w = s₂.paymentsBy d w := by
  let r : Payment → Payment → Prop := fun a b =>
    b.createdAt < a.createdAt ∨ a.createdAt = b.createdAt ∧ d.rank a.id ≤ d.rank b.id
  have htotal : Std.Total r := ⟨fun a b => by simp only [r]; omega⟩
  have htrans : IsTrans _ r := ⟨fun a b c hab hbc => by simp only [r] at *; omega⟩
  refine h.same.payments.sort_eq hw r fun a ha b hb hab hba => ?_
  have hrank : d.rank a.id = d.rank b.id := by simp only [r] at hab hba; omega
  exact Table.eq_of_key ha hb (hd hrank)

theorem findPaymentWithEvents_request {w : PaymentWhere} (hw : w.Finds org) :
    Coupled (twins org w₁ w₂) (Answers (fun _ _ => True) ids) (request (.findPaymentWithEvents w))
      ids := by
  refine query_request (f := fun d s => (s.firstPayment d w).map fun p => (p, s.eventsOf d p))
    (fun d s => rfl) fun d s₁ s₂ hd hs => ⟨?_, ids, hs, trivial⟩
  show (s₁.firstPayment d w).map _ = (s₂.firstPayment d w).map _
  rw [← hs.firstPayment hw]
  cases e : s₁.firstPayment d w with
  | none => rfl
  | some p =>
    obtain ⟨hp, ho, -⟩ := hs.found hw e
    rw [Option.map_some, Option.map_some, hs.eventsOf hd.rank ⟨p, hp, ho, rfl⟩]

theorem pagePayments_request {w : PaymentWhere} {skip take : Nat}
    (hw : ∀ p, w.holds p → p.organizationId = org) :
    Coupled (twins org w₁ w₂) (Answers (fun _ _ => True) ids) (request (.pagePayments w skip take))
      ids := by
  refine query_request (f := fun d s =>
    (((s.paymentsBy d w).drop skip).take take, (s.payments.rows.filter w.holds).length))
    (fun d s => rfl) fun d s₁ s₂ hd hs => ⟨?_, ids, hs, trivial⟩
  have hcount := (hs.same.payments.filter_perm hw).length_eq
  show (_, _) = (_, _)
  rw [hs.paymentsBy hd.rank hw, hcount]

theorem insertPayment_request {dto : CreatePaymentDto} {key providerId : String}
    {method : PaymentMethodKind} :
    Coupled (twins org w₁ w₂) (Answers (fun p g => p.id ∈ g) ids)
      (request (.insertPayment org dto key providerId method)) ids :=
  tx_request (fun _ _ => rfl) fun _ hd => insertPayment_twice hd

theorem tx_request_keeps {o : Op} {tx : Decision → Tx o.Ans}
    (ho : ∀ d s, exec o d s = atomically d (tx d) s)
    (htx : ∀ d, Fair org w₁ w₂ d → Tx.Twice (Twins org w₁ w₂) (fun _ g => g = ids) (tx d) ids) :
    Coupled (twins org w₁ w₂) (fun _ g => g = ids) (request o) ids := by
  refine (tx_request ho htx).mono fun r g hr => ?_
  cases r with
  | ok a => exact hr
  | error e => exact hr

theorem recordCharge_request {payment : Payment} {result : ChargeResult} {st : PaymentStatus}
    (hid : payment.id ∈ ids) :
    Coupled (twins org w₁ w₂) (fun _ g => g = ids) (request (.recordCharge payment result st)) ids :=
  tx_request_keeps (fun _ _ => rfl) fun _ hd => recordCharge_twice hd hid

theorem failPayment_request {payment : Payment} {message : String} (hid : payment.id ∈ ids) :
    Coupled (twins org w₁ w₂) (fun _ g => g = ids) (request (.failPayment payment message)) ids :=
  tx_request_keeps (fun _ _ => rfl) fun _ _ => updatePayment_twice (fun _ => rfl) hid

theorem recordRefund_request {payment : Payment} {st : PaymentStatus} {body : RefundBody}
    {amount : Option Int} {result : RefundResult} (hid : payment.id ∈ ids) :
    Coupled (twins org w₁ w₂) (fun _ g => g = ids)
      (request (.recordRefund payment st body amount result)) ids :=
  tx_request_keeps (fun _ _ => rfl) fun _ hd => recordRefund_twice hd hid

theorem createCharge_request {providerId : String} {input : CreateChargeInput} :
    Coupled (twins org w₁ w₂) (fun _ g => g = ids) (request (.createCharge providerId input)) ids :=
  other_request (fun _ _ => rfl) fun _ _ _ hs => hs

theorem refundCharge_request {providerId : String} {input : RefundInput} :
    Coupled (twins org w₁ w₂) (fun _ g => g = ids) (request (.refundCharge providerId input)) ids :=
  other_request (fun _ _ => rfl) fun _ _ _ hs => hs

theorem incrementPending_request {country : String} :
    Coupled (twins org w₁ w₂) (fun _ g => g = ids) (request (.incrementPending country)) ids :=
  other_request (fun _ _ => rfl) fun _ _ _ hs => hs.addPending country 1

theorem decrementPending_request {country : String} :
    Coupled (twins org w₁ w₂) (fun _ g => g = ids) (request (.decrementPending country)) ids :=
  other_request (fun _ _ => rfl) fun _ _ _ hs => hs.addPending country (-1)

theorem auditLog_request {entry : AuditEntry} (ht : entry.tenantId = org)
    (ho : entry.organizationId = some org) :
    Coupled (twins org w₁ w₂) (fun _ g => g = ids) (request (.auditLog entry)) ids :=
  other_request (fun _ _ => rfl) fun _ _ _ hs => hs.auditLog ht ho

end Requests

/-! ## Two runs of a call -/

section Calls

variable {w₁ w₂ : World} {registry : ProviderRegistry} {ctx : OrgContext} {ids : List String}

theorem charge_twice {provider : PaymentProvider} {dto : CreatePaymentDto} {key : String}
    {payment : Payment} (hid : payment.id ∈ ids) :
    Coupled (twins ctx.organizationId w₁ w₂) (fun _ g => g = ids)
      (charge provider dto key ctx payment) ids := by
  refine Coupled.seq createCharge_request (fun result g hg => ?_) fun _ _ hg => hg
  subst hg
  refine Coupled.seq (recordCharge_request hid) (fun updated g hg => ?_) fun _ _ hg => hg
  subst hg
  refine Coupled.seq decrementPending_request (fun _ g hg => ?_) fun _ _ hg => hg
  subst hg
  exact Coupled.seq (auditLog_request rfl rfl) (fun _ _ hg => hg) fun _ _ hg => hg

theorem chargeFailed_twice {dto : CreatePaymentDto} {payment : Payment} {err : Err}
    (hid : payment.id ∈ ids) :
    Coupled (twins ctx.organizationId w₁ w₂) (fun _ _ => True) (chargeFailed dto payment err)
      ids := by
  refine Coupled.seq decrementPending_request (fun _ g hg => ?_) fun _ _ _ => trivial
  subst hg
  exact Coupled.seq (failPayment_request hid) (fun _ _ _ => trivial) fun _ _ _ => trivial

theorem create_twice {dto : CreatePaymentDto} {idempotencyKey : Option String} :
    Coupled (twins ctx.organizationId w₁ w₂) (fun _ _ => True)
      (create registry dto idempotencyKey ctx) ids := by
  refine Coupled.ofExcept_bind (fun key _ => ?_) fun _ _ => trivial
  refine Coupled.seq (findPayment_request (PaymentWhere.finds_key key)) (fun existing g _ => ?_)
    fun _ _ _ => trivial
  cases existing with
  | some payment => trivial
  | none =>
    refine Coupled.ofExcept_bind (fun provider _ => ?_) fun _ _ => trivial
    refine Coupled.seq incrementPending_request (fun _ g hg => ?_) fun _ _ _ => trivial
    refine Coupled.ofExcept_bind (fun method _ => ?_) fun _ _ => trivial
    refine Coupled.seq insertPayment_request (fun payment g hid => ?_) fun _ _ _ => trivial
    refine Coupled.handle (charge_twice hid) (fun _ _ _ => trivial) fun e g' hg => ?_
    subst hg
    exact chargeFailed_twice hid

theorem findAll_twice {query : ListPaymentsDto} :
    Coupled (twins ctx.organizationId w₁ w₂) (fun _ _ => True) (findAll ctx query) ids := by
  refine Coupled.seq (pagePayments_request fun p hp => ?_) (fun _ _ _ => trivial)
    fun _ _ _ => trivial
  exact PaymentWhere.holds_org hp

theorem findOne_twice {id : String} :
    Coupled (twins ctx.organizationId w₁ w₂) (fun _ _ => True) (findOne id ctx) ids := by
  refine Coupled.seq (findPaymentWithEvents_request (PaymentWhere.finds_id id)) (fun payment _ _ => ?_)
    fun _ _ _ => trivial
  cases payment with
  | some found => trivial
  | none => trivial

theorem refund_twice {id : String} {body : RefundBody} :
    Coupled (twins ctx.organizationId w₁ w₂) (fun _ _ => True) (refund registry id body ctx)
      ids := by
  refine Coupled.seq (findPayment_request (PaymentWhere.finds_id id)) (fun payment g hfound => ?_)
    fun _ _ _ => trivial
  cases payment with
  | none => trivial
  | some payment =>
    obtain ⟨hid, htenant⟩ := hfound payment rfl
    refine Coupled.ofExcept_bind (fun externalId _ => ?_) fun _ _ => trivial
    refine Coupled.ofExcept_bind (fun provider _ => ?_) fun _ _ => trivial
    refine Coupled.ofExcept_bind (fun amount _ => ?_) fun _ _ => trivial
    refine Coupled.seq refundCharge_request (fun result g' hg => ?_) fun _ _ _ => trivial
    subst hg
    refine Coupled.ofExcept_bind (fun _ _ => ?_) fun _ _ => trivial
    refine Coupled.seq (recordRefund_request hid) (fun updated g hg => ?_) fun _ _ _ => trivial
    exact Coupled.seq (auditLog_request htenant rfl) (fun _ _ _ => trivial) fun _ _ _ => trivial

theorem call_twice (call : PaymentsCall) :
    Coupled (twins call.ctx.organizationId w₁ w₂) (fun _ _ => True) (call.run registry) ids := by
  cases call with
  | create dto key ctx =>
    exact Coupled.seq create_twice (fun _ _ _ => trivial) fun _ _ _ => trivial
  | findAll ctx query =>
    exact Coupled.seq findAll_twice (fun _ _ _ => trivial) fun _ _ _ => trivial
  | findOne id ctx =>
    exact Coupled.seq findOne_twice (fun _ _ _ => trivial) fun _ _ _ => trivial
  | refund id body ctx =>
    exact Coupled.seq refund_twice (fun _ _ _ => trivial) fun _ _ _ => trivial

end Calls

/-! ## Isolation -/

/-- The databases that calls of `PaymentsService` reach, of whatever organizations and however they
interleave. -/
def PaymentsReach (s : World) : Prop :=
  ∃ (ι : Type) (_ : DecidableEq ι) (registry : ProviderRegistry) (calls : ι → PaymentsCall)
    (c : Conf machine ι PaymentsAnswer),
    Conf.Reach Conc.Any (Conf.start World.empty fun t => (calls t).run registry) c ∧ c.st = s

theorem PaymentsReach.wellFormed {s : World} (h : PaymentsReach s) : s.WellFormed := by
  obtain ⟨ι, hdec, registry, calls, c, hr, rfl⟩ := h
  exact hr.inv (fun o d _ hs => exec_wellFormed o d hs) .empty

/-- Two runs of a call of `org`, from `s₁` and `s₂`: the same result or error, the same requests, with
the calls of providers among them, and the same rows of `org` after them; and neither changes a row
of another organization. -/
structure Isolated (org : String) (s₁ s₂ : World) (o₁ o₂ : Outcome machine PaymentsAnswer) :
    Prop where
  result : o₁.result = o₂.result
  trace : o₁.trace = o₂.trace
  rows : SameRows org o₁.state o₂.state
  left : Untouched org s₁ o₁.state
  right : Untouched org s₂ o₂.state

/-- **Tenant isolation**: a call does not depend on the rows of the other organizations, and does
not change them. -/
theorem tenant_isolation (registry : ProviderRegistry) (call : PaymentsCall) (ω : Op → Decision)
    {s₁ s₂ : World} (h₁ : PaymentsReach s₁) (h₂ : PaymentsReach s₂)
    (hsame : SameRows call.ctx.organizationId s₁ s₂)
    (hω : ∀ o, Fair call.ctx.organizationId s₁ s₂ (ω o)) :
    Isolated call.ctx.organizationId s₁ s₂ ((call.run registry).run ω s₁)
      ((call.run registry).run ω s₂) := by
  have hstart : Twins call.ctx.organizationId s₁ s₂ [] s₁ s₂ :=
    ⟨⟨h₁.wellFormed, .refl, List.forall_mem_nil _⟩, ⟨h₂.wellFormed, .refl, List.forall_mem_nil _⟩,
      hsame⟩
  have hcall : Coupled (twins call.ctx.organizationId s₁ s₂) (fun _ _ => True) (call.run registry) [] :=
    call_twice call
  obtain ⟨hr, ht, ids, hend, -⟩ := hcall.run hω hstart
  exact ⟨hr, ht, hend.same, hend.left.others, hend.right.others⟩

/-! ### A refund, beside the payment of another organization -/

/-- An order of the rows, by their ids. -/
def sampleRank (id : String) : Nat := Encodable.encode (id.toList.map Char.toNat)

theorem sampleRank_injective : Function.Injective sampleRank := by
  intro a b h
  have hchars : a.toList.map Char.toNat = b.toList.map Char.toNat := Encodable.encode_injective h
  refine String.toList_inj.mp (List.map_injective_iff.mpr (fun c d hcd => ?_) hchars)
  exact Char.toNat_inj.mp hcd

/-- Everything works, and the new ids have the name `name`. -/
def freshEnv (name : String) (o : Op) : Decision where
  newId _ := match o with
    | .recordCharge _ _ _ => name ++ "2"
    | _ => name
  rank := sampleRank
  charge := .answered ⟨"fake_" ++ name, .captured, .null⟩
  refund := .answered ⟨"fake_" ++ name, .succeeded, .null⟩

/-- The ids of the rows of an organization. -/
def World.ids (s : World) : List String :=
  s.customers.rows.map (·.id) ++ s.payments.rows.map (·.id) ++ s.events.rows.map (·.id) ++
    s.refunds.rows.map (·.id)

theorem newIds_of_fresh {org : String} {d : Decision} {s : World}
    (h : ∀ m, d.newId m ∉ s.ids) : NewIds org d s := by
  have hnot : ∀ m id, id ∈ s.ids → id ≠ d.newId m := fun m id hid he => h m (he ▸ hid)
  simp only [World.ids, List.mem_append, List.mem_map] at hnot
  exact {
    customer := fun c hc he => absurd he (hnot _ _ (.inl (.inl (.inl ⟨c, hc, rfl⟩))))
    payment := fun p hp he => absurd he (hnot _ _ (.inl (.inl (.inr ⟨p, hp, rfl⟩))))
    event := fun e hm he => absurd he (hnot _ _ (.inl (.inr ⟨e, hm, rfl⟩)))
    refund := fun r hr he => absurd he (hnot _ _ (.inr ⟨r, hr, rfl⟩)) }

theorem freshEnv_fair {org name : String} {s₁ s₂ : World}
    (h : name ∉ s₁.ids ++ s₂.ids ∧ name ++ "2" ∉ s₁.ids ++ s₂.ids) (o : Op) :
    Fair org s₁ s₂ (freshEnv name o) := by
  have hid : ∀ m, (freshEnv name o).newId m ∉ s₁.ids ++ s₂.ids := by
    intro m
    unfold freshEnv
    dsimp only
    split
    · exact h.2
    · exact h.1
  simp only [List.mem_append, not_or] at hid
  exact ⟨newIds_of_fresh fun m => (hid m).1, newIds_of_fresh fun m => (hid m).2,
    sampleRank_injective⟩

def otherCtx : OrgContext := { sampleCtx with organizationId := "other" }

/-- A payment of the organization of the context. -/
def sampleCreate (ctx : OrgContext) : PaymentsCall := .create sampleDto (some "key") ctx

/-- The database after the organization made a payment. -/
def ownWorld : World :=
  (((sampleCreate sampleCtx).run fakeRegistry).run (freshEnv "a") World.empty).state

/-- The database after another organization made one too, with the same key. -/
def bothWorld : World :=
  (((sampleCreate otherCtx).run fakeRegistry).run (freshEnv "b") ownWorld).state

theorem worlds_reached : PaymentsReach ownWorld ∧ PaymentsReach bothWorld := by
  let calls : Bool → PaymentsCall := fun own => sampleCreate (if own then sampleCtx else otherCtx)
  let c₀ : Conf machine Bool PaymentsAnswer :=
    Conf.start World.empty fun t => (calls t).run fakeRegistry
  obtain ⟨c₁, h₁, hst₁, hthr⟩ := Conf.reach_run c₀ true (freshEnv "a")
  obtain ⟨c₂, h₂, hst₂, -⟩ := Conf.reach_run c₁ false (freshEnv "b")
  rw [hthr false (by decide), hst₁] at hst₂
  exact ⟨⟨Bool, inferInstance, fakeRegistry, calls, c₁, h₁, hst₁⟩,
    ⟨Bool, inferInstance, fakeRegistry, calls, c₂, h₁.trans h₂, hst₂⟩⟩

def sampleRefund : PaymentsCall := .refund "a" { amountMinor := some (.num 40) } sampleCtx

theorem tenant_isolation_sample :
    Isolated "org" ownWorld bothWorld ((sampleRefund.run fakeRegistry).run (freshEnv "c") ownWorld)
      ((sampleRefund.run fakeRegistry).run (freshEnv "c") bothWorld) ∧
    ownWorld.payments.rows.length = 1 ∧ bothWorld.payments.rows.length = 2 := by
  obtain ⟨hown, hboth⟩ := worlds_reached
  -- the call of the other organization did not touch the rows of this one
  have hother := tenant_isolation fakeRegistry (sampleCreate otherCtx) (freshEnv "b") hown hown
    .refl (freshEnv_fair (by decide +kernel))
  have hsame : SameRows "org" ownWorld bothWorld := hother.left.rows "org" (by decide)
  exact ⟨tenant_isolation fakeRegistry sampleRefund (freshEnv "c") hown hboth hsame
    (freshEnv_fair (by decide +kernel)), by decide +kernel, by decide +kernel⟩

end Pasarela
