import Pasarela.Drafts
import Pasarela.EventLog
import Pasarela.Pages

/-!
# What is never lost

* `Payment.core`: the columns of a payment that no operation writes after the insert.
* `World.Durable s s'`: no row of `s` is lost in `s'`, in any table, and the rows come in the same
  order. The events, the refunds, the customers and the audit log are as they were; a payment has the
  same core.
* `exec_durable`: every request keeps that, so every run does (`reach_durable`).
* `ReadStage`, `readProto`: what a call of `PaymentsService` has shown to its caller, while others
  run. `answers_last`: what it answered is what `findOne` answers to that organization from then on,
  and to no other.
-/

namespace Pasarela

open Conc (Any Conf Event Prog Proto)
open Store (Table)
open PaymentsService

/-- What an operation does not write (module doc). -/
def Payment.core (p : Payment) : Payment :=
  { p with
    status := .pending
    externalId := none
    failureCode := none
    failureMessage := none
    updatedAt := 0 }

/-- No row is lost (module doc). -/
structure World.Durable (s s' : World) : Prop where
  payments : s.payments.rows.map Payment.core <+: s'.payments.rows.map Payment.core
  customers : s.customers.rows <+: s'.customers.rows
  events : s.events.rows <+: s'.events.rows
  refunds : s.refunds.rows <+: s'.refunds.rows
  auditLogs : s.auditLogs.rows <+: s'.auditLogs.rows
  inbound : s.inbound.rows.map WebhookInbound.providerKey <+:
    s'.inbound.rows.map WebhookInbound.providerKey

section Rows

variable {s s' s'' : World} {p q : Payment}

namespace Payment

/-- A column of the core is the same in all rows of a payment. -/
theorem eq_of_core {α : Type} (f : Payment → α) (hf : ∀ p, f p.core = f p) (h : q.core = p.core) :
    f q = f p := by
  rw [← hf q, h, hf p]

variable (h : q.core = p.core)

include h

theorem core_id : q.id = p.id := eq_of_core (·.id) (fun _ => rfl) h

theorem core_org : q.organizationId = p.organizationId :=
  eq_of_core (·.organizationId) (fun _ => rfl) h

theorem core_tenant : q.tenantId = p.tenantId := eq_of_core (·.tenantId) (fun _ => rfl) h

theorem core_providerId : q.providerId = p.providerId := eq_of_core (·.providerId) (fun _ => rfl) h

theorem core_key : q.idempotencyKey = p.idempotencyKey :=
  eq_of_core (·.idempotencyKey) (fun _ => rfl) h

theorem core_amount : q.amountMinor = p.amountMinor := eq_of_core (·.amountMinor) (fun _ => rfl) h

theorem core_currency : q.currency = p.currency := eq_of_core (·.currency) (fun _ => rfl) h

theorem core_customer : q.customerId = p.customerId := eq_of_core (·.customerId) (fun _ => rfl) h

end Payment

namespace World.Durable

theorem refl (s : World) : Durable s s :=
  ⟨List.prefix_rfl, List.prefix_rfl, List.prefix_rfl, List.prefix_rfl, List.prefix_rfl,
    List.prefix_rfl⟩

/-- The queue and the gauge do not matter. -/
theorem of_same (h : s' = { s with jobs := s'.jobs, activePending := s'.activePending }) :
    Durable s s' := by
  rw [h]
  exact ⟨List.prefix_rfl, List.prefix_rfl, List.prefix_rfl, List.prefix_rfl, List.prefix_rfl,
    List.prefix_rfl⟩

theorem trans (h : Durable s s') (h' : Durable s' s'') : Durable s s'' where
  payments := h.payments.trans h'.payments
  customers := h.customers.trans h'.customers
  events := h.events.trans h'.events
  refunds := h.refunds.trans h'.refunds
  auditLogs := h.auditLogs.trans h'.auditLogs
  inbound := h.inbound.trans h'.inbound

theorem later (h : Durable s s') (hp : p ∈ s.payments) :
    ∃ p' ∈ s'.payments, p'.core = p.core := by
  obtain ⟨p', hp', he⟩ := List.mem_map.mp (h.payments.subset (List.mem_map_of_mem hp))
  exact ⟨p', hp', he⟩

end World.Durable

end Rows

/-! ## One request -/

section Request

variable {d : Decision} {s s' : World}

theorem map_core_update {id : String} {f : Payment → Payment}
    {hf : Table.Keeps Payment.id Payment.tenantKey f} {q : Payment}
    (hu : s.payments.update id f hf = some (q, s'.payments)) (hcore : ∀ p, (f p).core = p.core) :
    s'.payments.rows.map Payment.core = s.payments.rows.map Payment.core := by
  obtain ⟨a, -, -, -, hrows⟩ := Table.update_some hu
  rw [hrows, Table.modifyRows, List.map_map]
  refine List.map_congr_left fun p _ => ?_
  show Payment.core (if p.id = id then f p else p) = p.core
  split
  · exact hcore p
  · rfl

theorem Written.durable {id : String} {f : Payment → Payment}
    {hf : Table.Keeps Payment.id Payment.tenantKey f} {ev : PaymentEvent} {q : Payment}
    (h : Written id f hf ev s q s') (hcore : ∀ p, (f p).core = p.core) : s.Durable s' := by
  have hs := h.others
  refine ⟨?_, ?_, ?_, ?_, ?_, ?_⟩
  · rw [map_core_update h.payments hcore]
  · rw [hs]
  · rw [(Table.insert_ok h.events).1]
    exact List.prefix_append _ _
  · rw [hs]
  · rw [hs]
  · rw [hs]

theorem customers_prefix {orgId : String} {dto : CreatePaymentDto} {c : Option String}
    (h : upsertDtoCustomer d orgId dto s = .ok (c, s')) :
    s.customers.rows <+: s'.customers.rows := by
  cases e : dto.customerId.filter (· ≠ "") with
  | none =>
    simp only [upsertDtoCustomer, e] at h
    obtain ⟨-, rfl⟩ := Tx.pure_ok.mp h
    exact List.prefix_rfl
  | some externalId =>
    simp only [upsertDtoCustomer, e] at h
    obtain ⟨q, s₁, hq, h⟩ := Tx.bind_ok.mp h
    obtain ⟨-, rfl⟩ := Tx.pure_ok.mp h
    rcases upsertCustomer_ok hq with ⟨-, -, rfl⟩ | ⟨-, t, ht, rfl⟩
    · exact List.prefix_rfl
    · rw [(Table.insert_ok ht).1]
      exact List.prefix_append _ _

theorem Inserted.durable {orgId key providerId : String} {dto : CreatePaymentDto}
    {method : PaymentMethodKind} {p : Payment}
    (h : Inserted d orgId dto key providerId method s p s') : s.Durable s' := by
  have hs := h.others
  obtain ⟨c, -, hc⟩ := h.row
  have hcustomers := customers_prefix hc
  refine ⟨?_, hcustomers, ?_, ?_, ?_, ?_⟩
  · rw [(Table.insert_ok h.payments).1, List.map_append]
    exact List.prefix_append _ _
  · rw [(Table.insert_ok h.events).1]
    exact List.prefix_append _ _
  · rw [hs]
  · rw [hs]
  · rw [hs]

theorem others_durable {o : Op} {r : Except Err o.Ans} (ho : o.writesPayments = false)
    (hl : s.auditLogs.rows <+: s'.auditLogs.rows)
    (hi : s.inbound.rows.map WebhookInbound.providerKey <+:
      s'.inbound.rows.map WebhookInbound.providerKey)
    (hx : exec o d s = (r, s')) : s.Durable s' := by
  have hs := exec_others ho hx
  refine ⟨?_, ?_, ?_, ?_, hl, hi⟩
  · rw [hs]
  · rw [hs]
  · rw [hs]
  · rw [hs]

/-- **No request loses a row.** -/
theorem exec_durable {o : Op} {r : Except Err o.Ans} (hx : exec o d s = (r, s')) : s.Durable s' := by
  cases o with
  | insertPayment orgId dto key providerId method =>
    rcases exec_insertPayment hx with ⟨e, -, rfl⟩ | ⟨p, -, h⟩
    · exact .refl s'
    · exact h.durable
  | recordCharge payment result st =>
    rcases exec_recordCharge hx with ⟨e, -, rfl⟩ | ⟨q, -, h⟩
    · exact .refl s'
    · exact h.durable fun p => rfl
  | failPayment payment message =>
    -- the only update of a payment without an event
    rcases exec_failPayment hx with ⟨e, -, rfl⟩ | ⟨q, -, hu, hs⟩
    · exact .refl s'
    · refine ⟨by rw [map_core_update hu fun p => rfl], ?_, ?_, ?_, ?_, ?_⟩ <;> rw [hs]
  | recordRefund payment st body amount result =>
    rcases exec_recordRefund hx with ⟨e, -, rfl⟩ | ⟨q, -, hr, h⟩
    · exact .refl s'
    · -- the refund is appended after the payment and its event were written
      have hd := h.durable fun p => rfl
      have hrefunds : s.refunds.rows <+: s'.refunds.rows := by
        rw [(Table.insert_ok hr).1]
        exact List.prefix_append _ _
      exact { hd with refunds := hrefunds }
  | applyWebhook payment st event =>
    rcases exec_applyWebhook hx with ⟨e, -, rfl⟩ | ⟨q, -, h⟩
    · exact .refl s'
    · exact h.durable fun p => rfl
  | applyReconciliation payment st raw =>
    rcases exec_applyReconciliation hx with ⟨e, -, rfl⟩ | ⟨q, -, h⟩
    · exact .refl s'
    · exact h.durable fun p => rfl
  | auditLog entry =>
    -- the entry is appended, or the insert failed and the error is swallowed
    have hs := (exec_auditLog hx).2
    refine others_durable rfl ?_ (by rw [hs]) hx
    obtain ⟨-, rfl⟩ := Prod.mk.inj hx
    rcases atomically_cases d (createAuditLog (newAuditLog d entry)) s with
      ⟨e, he⟩ | ⟨a, s₁, -, htx, ha⟩
    · rw [he]
    · obtain ⟨-, t, ht, rfl⟩ := insertInto_ok.mp htx
      rw [ha, (Table.insert_ok ht).1]
      exact List.prefix_append _ _
  | markProcessed id =>
    refine others_durable rfl (by rw [exec_markProcessed hx]) ?_ hx
    rcases atomically_eq hx with ⟨e, -, rfl⟩ | ⟨w, -, htx⟩
    · exact List.prefix_rfl
    · obtain ⟨t, ht, rfl⟩ := updateIn_ok.mp htx
      obtain ⟨a, -, -, -, hrows⟩ := Table.update_some ht
      rw [hrows, Table.modifyRows, List.map_map]
      -- the mark is no part of the key of a webhook
      have hkeys : s.inbound.rows.map (WebhookInbound.providerKey ∘ fun w =>
          if w.id = id then setProcessed d w else w) = s.inbound.rows.map WebhookInbound.providerKey := by
        refine List.map_congr_left fun w _ => ?_
        show WebhookInbound.providerKey (if w.id = id then setProcessed d w else w) = w.providerKey
        split
        · rfl
        · rfl
      rw [hkeys]
  | createInbound providerId event headers =>
    rcases exec_createInbound hx with ⟨e, -, rfl⟩ | ⟨-, hins, hs⟩
    · exact .refl s'
    · refine others_durable rfl (by rw [hs]) ?_ hx
      rw [(Table.insert_ok hins).1, List.map_append]
      exact List.prefix_append _ _
  | enqueueWebhook providerId inboundId event =>
    have hx' := hx
    simp only [exec] at hx'
    rcases atomically_eq hx' with ⟨e, -, rfl⟩ | ⟨a, -, htx⟩
    · exact .refl s'
    · cases htx
      exact .of_same rfl
  -- a read, a gauge or a question to a provider leaves every row as it is
  | findPayment w => rw [(query_eq hx).1]; exact .refl s
  | findPaymentWithEvents w => simp only [exec] at hx; rw [(query_eq hx).1]; exact .refl s
  | pagePayments w skip take => simp only [exec] at hx; rw [(query_eq hx).1]; exact .refl s
  | findInbound providerId externalId => simp only [exec] at hx; rw [(query_eq hx).1]; exact .refl s
  | incrementPending country => obtain ⟨-, rfl⟩ := Prod.mk.inj hx; exact .of_same rfl
  | decrementPending country => obtain ⟨-, rfl⟩ := Prod.mk.inj hx; exact .of_same rfl
  | createCharge providerId input => obtain ⟨-, rfl⟩ := Prod.mk.inj hx; exact .refl s
  | refundCharge providerId input => obtain ⟨-, rfl⟩ := Prod.mk.inj hx; exact .refl s
  | retrieveCharge providerId externalId => obtain ⟨-, rfl⟩ := Prod.mk.inj hx; exact .refl s

end Request

theorem reach_durable {ι α : Type} [DecidableEq ι] {c c' : Conf machine ι α}
    (hr : Conf.Reach Any c c') : c.st.Durable c'.st :=
  hr.inv (I := fun s => c.st.Durable s) (fun _ _ _ h => h.trans (exec_durable rfl)) (.refl _)

/-- What a provider called a payment stays, if the writes of `create` find their payment PENDING. -/
theorem exec_externalId {d : Decision} {s s' : World} {o : Op} {r : Except Err o.Ans}
    (hx : exec o d s = (r, s')) (hfinds : FindsPending ⟨o, d, r⟩ s) {p : Payment}
    (hp : p ∈ s.payments) {x : String} (he : p.externalId = some x) :
    ∃ p' ∈ s'.payments, p'.id = p.id ∧ p'.externalId = some x := by
  have hsame : s'.payments = s.payments → ∃ p' ∈ s'.payments, p'.id = p.id ∧ p'.externalId = some x :=
    fun h => ⟨p, by rw [h]; exact hp, rfl, he⟩
  cases hw : o.ownWrite with
  | some w =>
    obtain ⟨payment, st⟩ := w
    obtain ⟨q, hq, hid, -, hnone⟩ := hfinds payment st hw
    rcases exec_ownWrite hw hx with ⟨e, -, rfl⟩ | ⟨a, f, hf, q', -, hu, -⟩
    · exact hsame rfl
    · have hne : p.id ≠ payment.id := fun h => by
        rw [Table.eq_of_key hp hq (h.trans hid.symm), hnone] at he
        cases he
      exact ⟨p, (Table.mem_update hu).mpr (.inl ⟨hp, hne⟩), rfl, he⟩
  | none =>
    cases hc : o.checkedWrite with
    | some w =>
      obtain ⟨payment, st⟩ := w
      rcases exec_checkedWrite hc hx with ⟨e, -, rfl⟩ | ⟨a, q, type, payload, -, -, hu, -⟩
      · exact hsame rfl
      · obtain ⟨a, ha, haid, rfl, -⟩ := Table.update_some hu
        by_cases hid : p.id = payment.id
        · rw [Table.eq_of_key ha hp (haid.trans hid.symm)] at hu
          exact ⟨_, (Table.mem_update hu).mpr (.inr rfl), rfl, he⟩
        · exact ⟨p, (Table.mem_update hu).mpr (.inl ⟨hp, hid⟩), rfl, he⟩
    | none =>
      cases o with
      | insertPayment orgId dto key providerId method =>
        rcases exec_insertPayment hx with ⟨e, -, rfl⟩ | ⟨q, -, hins⟩
        · exact hsame rfl
        · exact ⟨p, (Table.mem_insert hins.payments).mpr (.inl hp), rfl, he⟩
      | recordCharge payment result st => cases hw
      | failPayment payment message => cases hw
      | recordRefund payment st body amount result => cases hc
      | applyWebhook payment st event => cases hc
      | applyReconciliation payment st raw => cases hc
      | _ => exact hsame (exec_payments rfl hx)

/-- What the tables keep of `s` in the later state `s'`. -/
structure StillThere (s s' : World) : Prop where
  rows : s.Durable s'
  externalId : ∀ p ∈ s.payments, ∀ x, p.externalId = some x →
    ∃ p' ∈ s'.payments, p'.id = p.id ∧ p'.externalId = some x

/-- **The tables only grow**: however operations interleave, no row of any table is ever lost, the
rows of the history are never changed, a payment keeps what it was created with, and what the
provider called it. -/
theorem tables_only_grow {ι : Type} [DecidableEq ι] (registry : ProviderRegistry)
    (calls : ι → ServiceCall) (w : World) (c c' : Conf machine ι Unit)
    (hr : Conf.Reach Any (startCalls registry calls w) c) (hr' : Conf.Reach Any c c') :
    StillThere c.st c'.st := by
  refine ⟨reach_durable hr', ?_⟩
  induction hr' with
  | refl => exact fun p hp x he => ⟨p, hp, rfl, he⟩
  | tail hrun hs ih =>
    intro p hp x he
    obtain ⟨p', hp', hid, he'⟩ := ih p hp x he
    have hnext := (hr.trans hrun).tail hs
    obtain ⟨d, -, -⟩ := hs
    have hlast := (Conc.along_snoc.mp (finds_pending_along hnext)).2
    rw [← Conf.Reach.replay (hr.trans hrun)] at hlast
    obtain ⟨p'', hp'', hid', he''⟩ := exec_externalId rfl hlast hp' he'
    exact ⟨p'', hp'', hid'.trans hid, he''⟩

/-- The payment is inserted, and then captured. -/
theorem tables_only_grow_sample :
    StillThere (oneCreate.play ((createSteps (.refused (.other ""))).take 3)).st
      ((oneCreate.play ((createSteps (.refused (.other ""))).take 3)).play
        ((createSteps (.answered ⟨"fake_key", .captured, .null⟩)).drop 3)).st :=
  tables_only_grow fakeRegistry _ World.empty _ _ (Conf.reach_play (Conf.plays_any _ _))
    (Conf.reach_play (Conf.plays_any _ _))

/-! ## What the calls show -/

def PaymentsAnswer.payments : PaymentsAnswer → List Payment
  | .payment p => [p.payment]
  | .page p => p.data.map (·.payment)
  | .detail p => [p.payment.payment]
  | .refunded p => [p.payment.payment]

def PaymentsAnswer.events : PaymentsAnswer → List PaymentEvent
  | .detail p => p.events
  | _ => []

/-- An operation, with the answer of a call of `PaymentsService`. -/
def ServiceCall.answer (registry : ProviderRegistry) :
    ServiceCall → Service (Option PaymentsAnswer)
  | .payments call => do return some (← call.run registry)
  | .webhook job => do
    WebhookProcessor.process job
    return none
  | .reconcile paymentId => do
    ReconciliationService.reconcileOne registry paymentId
    return none

def ServiceCall.org : ServiceCall → Option String
  | .payments call => some call.ctx.organizationId
  | _ => none

/-- The payment is a row of the organization, later versions of it included. -/
def World.Shows (s : World) (org : String) (p : Payment) : Prop :=
  p.organizationId = org ∧ ∃ p' ∈ s.payments, p'.core = p.core

theorem World.Shows.durable {s s' : World} {org : String} {p : Payment} (h : s.Shows org p)
    (hd : s.Durable s') : s'.Shows org p := by
  obtain ⟨horg, p', hp', hcore⟩ := h
  obtain ⟨p'', hp'', hcore'⟩ := hd.later hp'
  exact ⟨horg, p'', hp'', hcore'.trans hcore⟩

/-- How far a call is: what it has to answer with. -/
inductive ReadStage where
  | idle
  | shown (payments : List Payment) (events : List PaymentEvent)

section Pool

variable {ι : Type} (calls : ι → ServiceCall)

def readFact (t : ι) (g : ReadStage) (s : World) : Prop :=
  match g with
  | .idle => True
  | .shown payments events => (∀ org, (calls t).org = some org → ∀ p ∈ payments, s.Shows org p) ∧
    ∀ ev ∈ events, ev ∈ s.events ∧ ∀ p ∈ payments, ev.paymentId = p.id

/-- The calls, none of which loses what another one has shown. -/
def readProto : Proto machine ι ReadStage where
  allow := Any
  inv G s _ := ∀ t, readFact calls t (G t) s

variable {calls} {t : ι} {α β : Type} {g : ReadStage}

theorem readFact_durable {s s' : World} (h : readFact calls t g s) (hd : s.Durable s') :
    readFact calls t g s' := by
  cases g with
  | idle => trivial
  | shown payments events =>
    obtain ⟨hp, he⟩ := h
    exact ⟨fun org horg p hmem => (hp org horg p hmem).durable hd,
      fun ev hev => ⟨hd.events.subset (he ev hev).1, (he ev hev).2⟩⟩

theorem readFact_written {s s' : World} {p q : Payment} {id : String} {f : Payment → Payment}
    {hf : Table.Keeps Payment.id Payment.tenantKey f} (h : readFact calls t (.shown [p] []) s)
    (hid : id = p.id) (hu : s.payments.update id f hf = some (q, s'.payments))
    (hcore : ∀ x, (f x).core = x.core) : readFact calls t (.shown [q] []) s' := by
  refine ⟨fun org horg x hx => ?_, fun ev hev => absurd hev List.not_mem_nil⟩
  rw [List.mem_singleton] at hx
  subst hx
  obtain ⟨hporg, p', hp', hpcore⟩ := h.1 org horg p (List.mem_singleton_self p)
  obtain ⟨a, ha, haid, rfl, -⟩ := Table.update_some hu
  have hap : a = p' := Table.eq_of_key ha hp' ((haid.trans hid).trans (Payment.core_id hpcore).symm)
  have hq : (f a).core = p.core := (hcore a).trans ((congrArg Payment.core hap).trans hpcore)
  exact ⟨(Payment.core_org hq).trans hporg, f a, (Table.mem_update hu).mpr (.inr rfl), rfl⟩

variable [DecidableEq ι]

theorem read_wp {o : Op} {f : o.Ans → Service β} {Q : Except Err β → ReadStage → Prop}
    (h : ∀ d s r s', readFact calls t g s → exec o d s = (r, s') → ∃ g', readFact calls t g' s' ∧
      (∀ a, r = .ok a → (readProto calls).WP t Q (f a) g') ∧ ∀ e, r = .error e → Q (.error e) g') :
    (readProto calls).WP t Q ((request o).bind f) g := by
  refine Proto.WP.perform_bind fun G s tr d r s' hG hi _ hx => ⟨trivial, ?_⟩
  have hfact := hi t
  rw [hG] at hfact
  obtain ⟨g', hf, hok, herr⟩ := h d s r s' hfact hx
  refine ⟨g', fun u => ?_, ?_⟩
  · by_cases hu : u = t
    · rw [hu, Function.update_self]
      exact hf
    · rw [Function.update_of_ne hu]
      exact readFact_durable (hi u) (exec_durable hx)
  · cases r with
    | ok a => exact hok a rfl
    | error e => exact herr e rfl

theorem keep_wp {o : Op} {f : o.Ans → Service β} {Q : Except Err β → ReadStage → Prop}
    (hok : ∀ a, (readProto calls).WP t Q (f a) g) (herr : ∀ e, Q (.error e) g) :
    (readProto calls).WP t Q ((request o).bind f) g :=
  read_wp fun _ _ _ _ hf hx =>
    ⟨g, readFact_durable hf (exec_durable hx), fun a _ => hok a, fun e _ => herr e⟩

theorem idle_wp (p : Service α) : (readProto calls).WP t (fun _ _ => True) p .idle := by
  induction p with
  | ret a => trivial
  | throw e => trivial
  | op o k ih =>
    intro G s tr d hG hi _
    refine ⟨trivial, .idle, fun u => ?_, ih _⟩
    by_cases hu : u = t
    · rw [hu, Function.update_self]
      trivial
    · rw [Function.update_of_ne hu]
      exact readFact_durable (hi u) (exec_durable rfl)

/-! ### The programs -/

theorem charge_shows (provider : PaymentProvider) (dto : CreatePaymentDto) (key : String)
    (ctx : OrgContext) (p : Payment) :
    (readProto calls).WP t (fun r g => ∀ a, r = .ok a → g = .shown [a.payment] [])
      ((charge provider dto key ctx p).tryCatch (chargeFailed dto p)) (.shown [p] []) := by
  refine Proto.WP.tryCatch ?_
  have hfailed : ∀ e g, (readProto calls).WP t (fun r g => ∀ a, r = .ok a → g = .shown [a.payment] [])
      (chargeFailed dto p e) g := by
    intro e g
    refine keep_wp (fun _ => ?_) fun _ _ h => by cases h
    exact keep_wp (fun _ _ h => by cases h) fun _ _ h => by cases h
  refine keep_wp (fun result => ?_) fun e => hfailed e _
  refine read_wp fun d s r s' hf hx => ?_
  rcases exec_recordCharge hx with ⟨e, rfl, rfl⟩ | ⟨q, rfl, hw⟩
  · exact ⟨.shown [p] [], hf, (fun a h => by cases h), fun e _ => hfailed e _⟩
  · refine ⟨.shown [q] [], readFact_written hf rfl hw.payments fun _ => rfl, fun a h => ?_,
      fun e h => by cases h⟩
    cases h
    refine keep_wp (fun _ => keep_wp (fun _ a h => ?_) fun e => hfailed e _) fun e => hfailed e _
    cases h
    rfl

theorem create_shows (registry : ProviderRegistry) (dto : CreatePaymentDto) (key : Option String)
    (ctx : OrgContext) (horg : (calls t).org = some ctx.organizationId) :
    (readProto calls).WP t (fun r g => ∀ a, r = .ok a → g = .shown [a.payment] [])
      (create registry dto key ctx) .idle := by
  refine Proto.WP.ofExcept_bind (fun key _ => ?_) fun _ _ _ h => by cases h
  refine read_wp fun d s r s' hf hx => ?_
  obtain ⟨rfl, ⟨e, rfl⟩ | ⟨rfl, -⟩ | ⟨p, rfl, hp, hw⟩⟩ := exec_findPayment hx
  · exact ⟨.idle, trivial, (fun a h => by cases h), fun _ _ _ h => by cases h⟩
  · refine ⟨.idle, trivial, (fun a h => ?_), fun _ h => by cases h⟩
    cases h
    refine Proto.WP.ofExcept_bind (fun provider _ => ?_) fun _ _ _ h => by cases h
    refine keep_wp (fun _ => ?_) fun _ _ h => by cases h
    refine Proto.WP.ofExcept_bind (fun method _ => ?_) fun _ _ _ h => by cases h
    refine read_wp fun d s r s' hf hx => ?_
    rcases exec_insertPayment hx with ⟨e, rfl, rfl⟩ | ⟨p, rfl, hins⟩
    · exact ⟨.idle, trivial, (fun a h => by cases h), fun _ _ _ h => by cases h⟩
    · refine ⟨.shown [p] [], ⟨fun org ho x hx => ?_, fun _ h => absurd h List.not_mem_nil⟩,
        (fun a h => ?_), fun _ h => by cases h⟩
      · rw [List.mem_singleton] at hx
        subst hx
        rw [horg] at ho
        cases ho
        obtain ⟨c, rfl, -⟩ := hins.row
        exact ⟨rfl, _, (Table.mem_insert hins.payments).mpr (.inr rfl), rfl⟩
      · cases h
        exact charge_shows provider dto key ctx p
  · refine ⟨.shown [p] [], ⟨fun org ho x hx => ?_, fun _ h => absurd h List.not_mem_nil⟩,
      (fun a h => ?_), fun _ h => by cases h⟩
    · rw [List.mem_singleton] at hx
      subst hx
      rw [horg] at ho
      cases ho
      exact ⟨(PaymentWhere.holds_org_key.mp hw).1, x, hp, rfl⟩
    · cases h
      intro a h
      cases h
      rfl

theorem refund_shows (registry : ProviderRegistry) (id : String) (body : RefundBody)
    (ctx : OrgContext) (horg : (calls t).org = some ctx.organizationId) :
    (readProto calls).WP t (fun r g => ∀ a, r = .ok a → g = .shown [a.payment.payment] [])
      (refund registry id body ctx) .idle := by
  refine read_wp fun d s r s' hf hx => ?_
  obtain ⟨rfl, ⟨e, rfl⟩ | ⟨rfl, -⟩ | ⟨p, rfl, hp, hw⟩⟩ := exec_findPayment hx
  · exact ⟨.idle, trivial, (fun a h => by cases h), fun _ _ _ h => by cases h⟩
  · refine ⟨.idle, trivial, (fun a h => ?_), fun _ h => by cases h⟩
    cases h
    exact fun _ h => by cases h
  · refine ⟨.shown [p] [], ⟨fun org ho x hx => ?_, fun _ h => absurd h List.not_mem_nil⟩,
      (fun a h => ?_), fun _ h => by cases h⟩
    · rw [List.mem_singleton] at hx
      subst hx
      rw [horg] at ho
      cases ho
      exact ⟨(PaymentWhere.holds_id_org.mp hw).2, x, hp, rfl⟩
    cases h
    refine Proto.WP.ofExcept_bind (fun externalId _ => ?_) fun _ _ _ h => by cases h
    refine Proto.WP.ofExcept_bind (fun provider _ => ?_) fun _ _ _ h => by cases h
    refine Proto.WP.ofExcept_bind (fun amount _ => ?_) fun _ _ _ h => by cases h
    refine keep_wp (fun result => ?_) fun _ _ h => by cases h
    refine Proto.WP.ofExcept_bind (fun _ _ => ?_) fun _ _ _ h => by cases h
    refine read_wp fun d s r s' hf hx => ?_
    rcases exec_recordRefund hx with ⟨e, rfl, rfl⟩ | ⟨q, rfl, -, hwr⟩
    · exact ⟨.shown [p] [], hf, (fun a h => by cases h), fun _ _ _ h => by cases h⟩
    · refine ⟨.shown [q] [], readFact_written hf rfl hwr.payments fun _ => rfl, (fun a h => ?_),
        fun e h => by cases h⟩
      cases h
      refine keep_wp (fun _ a h => ?_) fun _ _ h => by cases h
      cases h
      rfl

theorem findAll_shows (ctx : OrgContext) (page : ListPaymentsDto)
    (horg : (calls t).org = some ctx.organizationId) :
    (readProto calls).WP t
      (fun r g => ∀ a, r = .ok a → g = .shown (a.data.map (·.payment)) [])
      (findAll ctx page) .idle := by
  refine read_wp fun d s r s' _ hx => ?_
  simp only [exec] at hx
  obtain ⟨rfl, ⟨e, rfl⟩ | rfl⟩ := query_eq hx
  · exact ⟨.idle, trivial, (fun a h => by cases h), fun _ _ _ h => by cases h⟩
  · let items := ((s'.paymentsBy d
      { organizationId := some ctx.organizationId, status := page.status }).drop
        ((page.page - 1) * page.limit)).take page.limit
    refine ⟨.shown ((items.map serialize).map (·.payment)) [], ⟨fun org ho p hp => ?_,
      fun _ h => absurd h List.not_mem_nil⟩, (fun a h => ?_), fun _ h => by cases h⟩
    · rw [horg] at ho
      cases ho
      rw [List.map_map, List.mem_map] at hp
      obtain ⟨x, hx, rfl⟩ := hp
      have hmem := List.mem_of_mem_drop (List.mem_of_mem_take hx)
      obtain ⟨hrow, hw⟩ := List.mem_filter.mp ((List.mem_insertionSort _).mp hmem)
      exact ⟨PaymentWhere.holds_org hw, x, hrow, rfl⟩
    · cases h
      intro a h
      cases h
      rfl

theorem findOne_shows (id : String) (ctx : OrgContext)
    (horg : (calls t).org = some ctx.organizationId) :
    (readProto calls).WP t (fun r g => ∀ a, r = .ok a → g = .shown [a.payment.payment] a.events)
      (findOne id ctx) .idle := by
  refine read_wp fun d s r s' _ hx => ?_
  simp only [exec] at hx
  obtain ⟨rfl, ⟨e, rfl⟩ | rfl⟩ := query_eq hx
  · exact ⟨.idle, trivial, (fun a h => by cases h), fun _ _ _ h => by cases h⟩
  cases hf : s'.firstPayment d { id := some id, organizationId := some ctx.organizationId } with
  | none =>
    refine ⟨.idle, trivial, (fun a h => ?_), fun _ h => by cases h⟩
    cases h
    exact fun _ h => by cases h
  | some p =>
    obtain ⟨hp, hw⟩ := Table.findFirst_some hf
    refine ⟨.shown [p] (s'.eventsOf d p), ⟨fun org ho x hx => ?_, fun ev hev => ?_⟩,
      (fun a h => ?_), fun _ h => by cases h⟩
    · rw [List.mem_singleton] at hx
      subst hx
      rw [horg] at ho
      cases ho
      exact ⟨(PaymentWhere.holds_id_org.mp hw).2, x, hp, rfl⟩
    · obtain ⟨hrow, hid⟩ := List.mem_filter.mp ((List.mem_insertionSort _).mp hev)
      refine ⟨hrow, fun x hx => ?_⟩
      rw [List.mem_singleton] at hx
      rw [hx]
      exact of_decide_eq_true hid
    · cases h
      intro a h
      cases h
      rfl

/-- A call answers with what it has shown. -/
def ShowsAnswer (r : Except Err (Option PaymentsAnswer)) (g : ReadStage) : Prop :=
  ∀ a, r = .ok (some a) → g = .shown a.payments a.events

theorem answer_wp {γ : Type} {p : Service γ} {f : γ → PaymentsAnswer}
    (hp : (readProto calls).WP t (fun r g => ∀ a, r = .ok a → g = .shown (f a).payments (f a).events)
      p .idle) :
    (readProto calls).WP t ShowsAnswer
      ((p.bind fun a => .ret (f a)).bind fun a => .ret (some a)) .idle := by
  refine Proto.WP.bind (Proto.WP.bind (hp.mono fun r g hr => ?_))
  cases r with
  | error e => exact fun _ h => by cases h
  | ok a =>
    intro x h
    cases h
    exact hr a rfl

/-- **Every call answers with what it has shown.** -/
theorem call_shows (registry : ProviderRegistry) (t : ι) :
    (readProto calls).WP t ShowsAnswer ((calls t).answer registry) .idle := by
  have hother : ∀ p : Service Unit, (readProto calls).WP t ShowsAnswer
      (p.bind fun _ => .ret none) .idle := by
    refine fun p => Proto.WP.bind ((idle_wp p).mono fun r g _ => ?_)
    cases r with
    | error e => exact fun _ h => by cases h
    | ok a => exact fun _ h => by cases h
  cases hcall : calls t with
  | payments call =>
    have horg : (calls t).org = some call.ctx.organizationId := by
      rw [hcall]
      rfl
    cases call with
    | create dto key ctx => exact answer_wp (f := .payment) (create_shows registry dto key ctx horg)
    | findAll ctx page => exact answer_wp (f := .page) (findAll_shows ctx page horg)
    | findOne id ctx => exact answer_wp (f := .detail) (findOne_shows id ctx horg)
    | refund id body ctx => exact answer_wp (f := .refunded) (refund_shows registry id body ctx horg)
  | webhook job => exact hother _
  | reconcile id => exact hother _

end Pool

/-! ## The runs -/

/-- The operations, with their answers, at their start. -/
def startAnswers {ι : Type} (registry : ProviderRegistry) (calls : ι → ServiceCall) (w : World) :
    Conf machine ι (Option PaymentsAnswer) :=
  Conf.start w fun t => (calls t).answer registry

/-- The payments that were shown are of the organization, and what `findOne` answers in `s` about them
when the database works: the payment, as it was created, with every event that was shown; and to
another organization, that there is none. -/
structure Lasting (org : String) (a : PaymentsAnswer) (s : World) : Prop where
  shown : ∀ p ∈ a.payments, p.organizationId = org
  own : ∀ p ∈ a.payments, ∀ ctx ω, ctx.organizationId = org → (∀ o, (ω o).fail = none) →
    ∃ detail, ((findOne p.id ctx).run ω s).result = .ok detail ∧
      detail.payment.payment.core = p.core ∧ ∀ ev ∈ a.events, ev ∈ detail.events
  others : ∀ p ∈ a.payments, ∀ ctx ω, ctx.organizationId ≠ org → (∀ o, (ω o).fail = none) →
    ((findOne p.id ctx).run ω s).result = .error (notFound p.id)

theorem findOne_run (id : String) (ctx : OrgContext) (s : World) {ω : Op → Decision}
    (hf : ∀ o, (ω o).fail = none) : ∃ d : Decision, ((findOne id ctx).run ω s).result =
      match s.firstPayment d { id := some id, organizationId := some ctx.organizationId } with
      | some p => .ok ⟨serialize p, s.eventsOf d p⟩
      | none => .error (notFound id) := by
  let w : PaymentWhere := { id := some id, organizationId := some ctx.organizationId }
  refine ⟨ω (.findPaymentWithEvents w), ?_⟩
  have hx : exec (.findPaymentWithEvents w) (ω (.findPaymentWithEvents w)) s =
      (.ok ((s.firstPayment (ω (.findPaymentWithEvents w)) w).map fun p =>
        (p, s.eventsOf (ω (.findPaymentWithEvents w)) p)), s) := by
    simp only [exec, query, hf]
  have hrun : (findOne id ctx).run ω s = _ :=
    Prog.run_perform_ok (M := machine) (o := .findPaymentWithEvents w) hx
  refine (congrArg Conc.Outcome.result hrun).trans ?_
  cases s.firstPayment (ω (.findPaymentWithEvents w)) w with
  | none => rfl
  | some p => rfl

/-- **What the API has answered stays so.** However the calls, the workers and the provider
interleave, a payment that a call answered with is one of its organization; and from then on `findOne`
answers that organization with it, unchanged but for its status, and with all the events that were
shown, and answers every other one that there is none. -/
theorem answers_last {ι : Type} [DecidableEq ι] (registry : ProviderRegistry)
    (calls : ι → ServiceCall) (w : World) (c c' : Conf machine ι (Option PaymentsAnswer))
    (hr : Conf.Reach Any (startAnswers registry calls w) c) (hr' : Conf.Reach Any c c') (t : ι)
    (call : PaymentsCall) (hcall : calls t = .payments call) (a : PaymentsAnswer)
    (ha : c.thr t = .ret (some a)) : Lasting call.ctx.organizationId a c'.st := by
  have hstart : (readProto calls).Ok (fun _ => ShowsAnswer) (startAnswers registry calls w) :=
    ⟨fun _ => .idle, fun _ => trivial, fun u => call_shows registry u⟩
  obtain ⟨G, hi, hshown⟩ := (Proto.sound hstart hr).returned ha
  have hfact := readFact_durable (hi t) (reach_durable hr')
  rw [hshown a rfl] at hfact
  obtain ⟨hrows, hevents⟩ := hfact
  have horg : (calls t).org = some call.ctx.organizationId := by
    rw [hcall]
    rfl
  -- the row of a payment that was shown is the only one with its id
  refine ⟨fun p hp => (hrows _ horg p hp).1, fun p hp ctx ω hctx hf => ?_,
    fun p hp ctx ω hctx hf => ?_⟩
  · obtain ⟨hporg, p', hp', hcore⟩ := hrows _ horg p hp
    obtain ⟨d, hrun⟩ := findOne_run p.id ctx c'.st hf
    have hid := Payment.core_id hcore
    have hfirst : c'.st.firstPayment d
        { id := some p.id, organizationId := some ctx.organizationId } = some p' :=
      Table.findFirst_eq_some hp' (PaymentWhere.holds_id_org.mpr ⟨hid, by
        rw [Payment.core_org hcore, hporg, hctx]⟩) fun q hq hw =>
          Table.eq_of_key hq hp' ((PaymentWhere.holds_id_org.mp hw).1.trans hid.symm)
    rw [hfirst] at hrun
    refine ⟨_, hrun, hcore, fun ev hev => ?_⟩
    obtain ⟨hrow, hof⟩ := hevents ev hev
    refine (List.mem_insertionSort _).mpr (List.mem_filter.mpr ⟨hrow, ?_⟩)
    rw [decide_eq_true_eq, hof p hp, hid]
  · obtain ⟨hporg, p', hp', hcore⟩ := hrows _ horg p hp
    obtain ⟨d, hrun⟩ := findOne_run p.id ctx c'.st hf
    have hnone : c'.st.firstPayment d
        { id := some p.id, organizationId := some ctx.organizationId } = none := by
      refine Table.findFirst_eq_none.mpr fun q hq => ?_
      by_contra hw
      obtain ⟨hid, ho⟩ := PaymentWhere.holds_id_org.mp (by simpa using hw)
      rw [Table.eq_of_key hq hp' (hid.trans (Payment.core_id hcore).symm)] at ho
      exact hctx (by rw [← ho, Payment.core_org hcore, hporg])
    rw [hnone] at hrun
    exact hrun

/-- A call of each organization: the first creates, the other one reads. -/
def createAndRead : Bool → ServiceCall
  | true => .payments (.create sampleDto (some "key") sampleCtx)
  | false => .payments (.findAll { sampleCtx with organizationId := "other" } singly)

/-- The payment is created and captured, and then the other call reads. -/
def answeredRun : Conf machine Bool (Option PaymentsAnswer) :=
  (startAnswers fakeRegistry createAndRead World.empty).play
    (((createSteps (.answered ⟨"fake_key", .captured, .null⟩)).map fun x => (true, x.2)) ++
      [(true, { newId := fun _ => "entry" })])

theorem answers_last_sample : ∃ a, answeredRun.thr true = .ret (some a) ∧
    a.payments.map (·.id) = ["pay"] ∧ Lasting "org" a (answeredRun.play [(false, {})]).st := by
  have hsome : ((answeredRun.thr true).returned.bind id).map (·.payments.map (·.id)) =
      some ["pay"] := by decide +kernel
  obtain ⟨a, ha, hids⟩ := Option.map_eq_some_iff.mp hsome
  obtain ⟨b, hb, hba⟩ := Option.bind_eq_some_iff.mp ha
  have hret := Prog.eq_ret_of_returned (hb.trans (congrArg some hba))
  exact ⟨a, hret, hids, answers_last fakeRegistry createAndRead World.empty answeredRun _
    (Conf.reach_play (Conf.plays_any _ _)) (Conf.reach_play (Conf.plays_any _ _)) true
    (.create sampleDto (some "key") sampleCtx) rfl a hret⟩

end Pasarela
