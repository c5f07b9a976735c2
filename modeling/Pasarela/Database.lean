import Pasarela.Dto
import Pasarela.Errors
import Pasarela.Provider

/-!
# The shared state, and the statements of a transaction

* `World`: the tables, the webhook queue, and the gauge of pending payments.
* `Decision`: what the environment decides at a request: that the database fails it, the time, the
  generated ids, the order of rows that the query leaves open, what a provider does.
* `Tx`: a transaction, which runs on the tables and commits, or throws and leaves them as they
  were (`atomically`). The statements have the names of the Prisma calls.

What makes the database refuse a statement other than its constraints (a connection that drops, a
foreign key to a tenant that does not exist, an integer that does not fit the column) is one of the
failures in `Decision.fail`.
-/

namespace Pasarela

open Js (Json)
open Store (Table)

/-- A model of the schema. -/
inductive Model where
  | customer
  | payment
  | paymentEvent
  | refund
  | auditLog
  | webhookInbound
  deriving DecidableEq, Repr

/-- What a provider does with a request that changes something there. -/
inductive Remote (α : Type) where
  /-- It does it and answers. -/
  | answered (r : α)
  /-- It does it, with the result `r`, but the caller gets the error `e`. -/
  | lost (r : α) (e : Err)
  /-- It does not do it. -/
  | refused (e : Err)
  deriving Repr

/-- What the caller gets. -/
def Remote.answer {α : Type} : Remote α → Except Err α
  | .answered r => .ok r
  | .lost _ e => .error e
  | .refused e => .error e

theorem Remote.answer_ok {α : Type} {x : Remote α} {r : α} (h : x.answer = .ok r) :
    x = .answered r := by
  cases x with
  | answered r' => cases h; rfl
  | lost r' e => cases h
  | refused e => cases h

/-- What the provider did, if it did it. -/
def Remote.performed {α : Type} : Remote α → Option α
  | .answered r => some r
  | .lost r _ => some r
  | .refused _ => none

/-- What the environment decides at a request (module doc). -/
structure Decision where
  fail : Option Err := none
  now : Nat := 0
  newId : Model → String := fun _ => ""
  rank : String → Nat := fun _ => 0
  charge : Remote ChargeResult := .refused (.other "")
  refund : Remote RefundResult := .refused (.other "")
  retrieve : Except Err ChargeResult := .error (.other "")

/-- A job of the webhook queue, with `WebhookJobData`. -/
structure WebhookJob where
  jobId : String
  webhookInboundId : String
  event : WebhookEvent
  enqueuedAt : Nat
  deriving Repr

/-- The shared state (module doc). -/
structure World where
  customers : Table Customer.id Customer.tenantKey
  payments : Table Payment.id Payment.tenantKey
  events : Table PaymentEvent.id PaymentEvent.id
  refunds : Table Refund.id Refund.id
  auditLogs : Table AuditLog.id AuditLog.id
  inbound : Table WebhookInbound.id WebhookInbound.providerKey
  jobs : List WebhookJob
  activePending : String → Int

/-- The state before the first request. -/
def World.empty : World :=
  ⟨.empty, .empty, .empty, .empty, .empty, .empty, [], fun _ => 0⟩

/-- A payment of 100 by one provider, to evaluate runs on. -/
def samplePayment (status : PaymentStatus) : Payment where
  id := "pay"
  tenantId := "org"
  organizationId := "org"
  customerId := none
  idempotencyKey := "key"
  amountMinor := 100
  currency := "ARS"
  country := "AR"
  method := .card
  status
  providerId := "fake"
  externalId := some "fake_key"
  description := none
  metadata := none
  failureCode := none
  failureMessage := none
  createdAt := 0
  updatedAt := 0

/-- The state with one payment. -/
def World.withPayment (p : Payment) : World :=
  { World.empty with payments := ⟨[p], List.nodup_singleton _, List.nodup_singleton _⟩ }

/-- The filter of a query. A field that is `none` does not filter. -/
structure PaymentWhere where
  id : Option String := none
  organizationId : Option String := none
  idempotencyKey : Option String := none
  status : Option PaymentStatus := none
  externalId : Option String := none
  providerId : Option String := none
  deriving DecidableEq, Repr

/-- The row satisfies the filter. -/
def PaymentWhere.holds (w : PaymentWhere) (p : Payment) : Bool :=
  w.id.all (· = p.id) && w.organizationId.all (· = p.organizationId) &&
    w.idempotencyKey.all (· = p.idempotencyKey) && w.status.all (· = p.status) &&
    w.externalId.all (some · = p.externalId) && w.providerId.all (· = p.providerId)

namespace PaymentWhere

variable {p : Payment}

theorem holds_id_org {id org : String} :
    holds { id := some id, organizationId := some org } p ↔ p.id = id ∧ p.organizationId = org := by
  simp [holds, eq_comm (a := id), eq_comm (a := org)]

theorem holds_org_key {org key : String} :
    holds { organizationId := some org, idempotencyKey := some key } p ↔
      p.organizationId = org ∧ p.idempotencyKey = key := by
  simp [holds, eq_comm (a := org), eq_comm (a := key)]

theorem holds_org {org : String} {status : Option PaymentStatus}
    (h : holds { organizationId := some org, status } p) : p.organizationId = org := by
  simp only [holds, Bool.and_eq_true] at h
  simpa [eq_comm] using h.1.1.1.1.2

theorem holds_external {externalId providerId : String} :
    holds { externalId := some externalId, providerId := some providerId } p ↔
      p.externalId = some externalId ∧ p.providerId = providerId := by
  simp [holds, eq_comm (a := some externalId), eq_comm (a := providerId)]

end PaymentWhere

/-! ## Transactions -/

/-- A transaction (module doc). -/
def Tx (α : Type) : Type := World → Except Err (α × World)

namespace Tx

variable {α β : Type}

instance : Monad Tx where
  pure a := fun s => .ok (a, s)
  bind x f := fun s => match x s with
    | .ok (a, s') => f a s'
    | .error e => .error e

theorem pure_ok {a b : α} {s s' : World} :
    (pure a : Tx α) s = .ok (b, s') ↔ b = a ∧ s' = s := by
  show Except.ok (a, s) = Except.ok (b, s') ↔ _
  simp [eq_comm]

theorem bind_of_ok {x : Tx α} {f : α → Tx β} {s s' : World} {a : α} (h : x s = .ok (a, s')) :
    (x >>= f) s = f a s' := by
  show (match x s with
    | .ok (a, s') => f a s'
    | .error e => .error e) = _
  rw [h]

theorem bind_of_error {x : Tx α} {f : α → Tx β} {s : World} {e : Err} (h : x s = .error e) :
    (x >>= f) s = .error e := by
  show (match x s with
    | .ok (a, s') => f a s'
    | .error e => .error e) = _
  rw [h]

theorem bind_ok {x : Tx α} {f : α → Tx β} {s s'' : World} {b : β} :
    (x >>= f) s = .ok (b, s'') ↔ ∃ a s', x s = .ok (a, s') ∧ f a s' = .ok (b, s'') := by
  cases h : x s with
  | error e => simp [bind_of_error h]
  | ok r => obtain ⟨a, s'⟩ := r; simp [bind_of_ok h]

end Tx

/-- The transaction, committed; or rolled back, when the database fails it or it throws. -/
def atomically {α : Type} (d : Decision) (tx : Tx α) (s : World) : Except Err α × World :=
  match d.fail with
  | some e => (.error e, s)
  | none => match tx s with
    | .ok (a, s') => (.ok a, s')
    | .error e => (.error e, s)

theorem atomically_of_fail {α : Type} {d : Decision} {tx : Tx α} {s : World} {e : Err}
    (h : d.fail = some e) : atomically d tx s = (.error e, s) := by
  rw [atomically, h]

theorem atomically_of_error {α : Type} {d : Decision} {tx : Tx α} {s : World} {e : Err}
    (hf : d.fail = none) (h : tx s = .error e) : atomically d tx s = (.error e, s) := by
  rw [atomically, hf, h]

theorem atomically_of_ok {α : Type} {d : Decision} {tx : Tx α} {s s' : World} {a : α}
    (hf : d.fail = none) (h : tx s = .ok (a, s')) : atomically d tx s = (.ok a, s') := by
  rw [atomically, hf, h]

theorem atomically_cases {α : Type} (d : Decision) (tx : Tx α) (s : World) :
    (∃ e, atomically d tx s = (.error e, s)) ∨
      ∃ a s', d.fail = none ∧ tx s = .ok (a, s') ∧ atomically d tx s = (.ok a, s') := by
  unfold atomically
  cases d.fail with
  | some e => exact .inl ⟨e, rfl⟩
  | none =>
    cases tx s with
    | error e => exact .inl ⟨e, rfl⟩
    | ok r => exact .inr ⟨r.1, r.2, rfl, rfl, rfl⟩

section Statements

variable {α κ υ : Type} {key : α → κ} {uniq : α → υ} [DecidableEq κ]

/-- An update of the row with key `k` in the table `get` of the state. -/
def updateIn (get : World → Table key uniq) (set : World → Table key uniq → World) (k : κ)
    (f : α → α) (hf : Table.Keeps key uniq f) : Tx α := fun s =>
  match (get s).update k f hf with
  | some (a, t) => .ok (a, set s t)
  | none => .error .rowNotFound

theorem updateIn_ok {get : World → Table key uniq} {set : World → Table key uniq → World} {k : κ}
    {f : α → α} {hf : Table.Keeps key uniq f} {b : α} {s s' : World} :
    updateIn get set k f hf s = .ok (b, s') ↔
      ∃ t, (get s).update k f hf = some (b, t) ∧ s' = set s t := by
  unfold updateIn
  cases h : (get s).update k f hf with
  | none => simp
  | some r =>
    obtain ⟨a, t⟩ := r
    simp only [Except.ok.injEq, Prod.mk.injEq, Option.some.injEq]
    constructor
    · rintro ⟨rfl, rfl⟩
      exact ⟨t, ⟨rfl, rfl⟩, rfl⟩
    · rintro ⟨t', ⟨rfl, rfl⟩, rfl⟩
      exact ⟨rfl, rfl⟩

variable [DecidableEq υ]

/-- An insert into the table `get` of the state, refused with the columns of the constraint that it
violates. -/
def insertInto (get : World → Table key uniq) (set : World → Table key uniq → World)
    (columns : List String) (a : α) : Tx α := fun s =>
  match (get s).insert a with
  | .ok t => .ok (a, set s t)
  | .error .key => .error (.uniqueViolation ["id"])
  | .error .uniq => .error (.uniqueViolation columns)

theorem insertInto_ok {get : World → Table key uniq} {set : World → Table key uniq → World}
    {columns : List String} {a b : α} {s s' : World} :
    insertInto get set columns a s = .ok (b, s') ↔
      b = a ∧ ∃ t, (get s).insert a = .ok t ∧ s' = set s t := by
  unfold insertInto
  cases h : (get s).insert a with
  | error c => cases c <;> simp
  | ok t => simp [eq_comm]

end Statements

/-- `tx.customer.upsert` with an empty `update`. -/
def upsertCustomer (c : Customer) : Tx Customer := fun s =>
  match s.customers.rows.find? fun a => a.tenantKey = c.tenantKey with
  | some a => .ok (a, s)
  | none =>
    insertInto (·.customers) (fun s t => { s with customers := t }) ["tenantId", "externalId"] c s

/-- `tx.payment.create`. -/
def createPayment : Payment → Tx Payment :=
  insertInto (·.payments) (fun s t => { s with payments := t }) ["tenantId", "idempotencyKey"]

/-- `tx.paymentEvent.create`. -/
def createPaymentEvent : PaymentEvent → Tx PaymentEvent :=
  insertInto (·.events) (fun s t => { s with events := t }) []

/-- `tx.refund.create`. -/
def createRefund : Refund → Tx Refund :=
  insertInto (·.refunds) (fun s t => { s with refunds := t }) []

/-- `auditLog.create`. -/
def createAuditLog : AuditLog → Tx AuditLog :=
  insertInto (·.auditLogs) (fun s t => { s with auditLogs := t }) []

/-- `webhookInbound.create`. -/
def createWebhookInbound : WebhookInbound → Tx WebhookInbound :=
  insertInto (·.inbound) (fun s t => { s with inbound := t }) ["providerId", "externalId"]

/-- `payment.update` with `where: { id }`. -/
def updatePayment (id : String) (f : Payment → Payment)
    (hf : Table.Keeps Payment.id Payment.tenantKey f) : Tx Payment :=
  updateIn (·.payments) (fun s t => { s with payments := t }) id f hf

/-- `webhookInbound.update` with `where: { id }`. -/
def updateWebhookInbound (id : String) (f : WebhookInbound → WebhookInbound)
    (hf : Table.Keeps WebhookInbound.id WebhookInbound.providerKey f) : Tx WebhookInbound :=
  updateIn (·.inbound) (fun s t => { s with inbound := t }) id f hf

/-- What an upsert does to the customers: nothing, when the tenant has one with that external id;
else it inserts the row. -/
theorem upsertCustomer_ok {c q : Customer} {s s' : World}
    (h : upsertCustomer c s = .ok (q, s')) :
    (q ∈ s.customers ∧ q.tenantKey = c.tenantKey ∧ s' = s) ∨
      q = c ∧ ∃ t, s.customers.insert c = .ok t ∧ s' = { s with customers := t } := by
  unfold upsertCustomer at h
  split at h
  · rename_i a e
    cases h
    exact .inl ⟨List.mem_of_find?_eq_some e, by simpa using List.find?_some e, rfl⟩
  · exact .inr (insertInto_ok.mp h)

end Pasarela
