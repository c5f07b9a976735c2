import Pasarela.Js.Json
import Pasarela.Store.Table

/-!
# The rows of the database (`prisma/schema.prisma`)

One structure for each model that the operations read or write, with the columns they use. Every
model has `id` as its primary key; `Payment.tenantKey`, `Customer.tenantKey` and
`WebhookInbound.providerKey` are the columns of the unique constraints. A time is a number of
milliseconds. Optional columns that are null are `none`.
-/

namespace Pasarela

open Js (Json)

inductive PaymentStatus where
  | pending
  | authorized
  | captured
  | failed
  | cancelled
  | refunded
  | partiallyRefunded
  deriving DecidableEq, Repr

/-- The name of a status in the database and in JSON. -/
def PaymentStatus.text : PaymentStatus → String
  | .pending => "PENDING"
  | .authorized => "AUTHORIZED"
  | .captured => "CAPTURED"
  | .failed => "FAILED"
  | .cancelled => "CANCELLED"
  | .refunded => "REFUNDED"
  | .partiallyRefunded => "PARTIALLY_REFUNDED"

/-- `PaymentMethodKind` of the database. -/
inductive PaymentMethodKind where
  | card
  | wallet
  | bankTransfer
  | cashVoucher
  | pix
  | qr
  deriving DecidableEq, Repr

/-- The name of a method in the database and in JSON. -/
def PaymentMethodKind.text : PaymentMethodKind → String
  | .card => "CARD"
  | .wallet => "WALLET"
  | .bankTransfer => "BANK_TRANSFER"
  | .cashVoucher => "CASH_VOUCHER"
  | .pix => "PIX"
  | .qr => "QR"

/-- All the methods. -/
def PaymentMethodKind.all : List PaymentMethodKind :=
  [.card, .wallet, .bankTransfer, .cashVoucher, .pix, .qr]

structure Customer where
  id : String
  tenantId : String
  organizationId : String
  externalId : String
  email : Option String
  country : Option String
  createdAt : Nat
  deriving Repr

/-- `@@unique([tenantId, externalId])`. -/
def Customer.tenantKey (c : Customer) : String × String := (c.tenantId, c.externalId)

structure Payment where
  id : String
  tenantId : String
  organizationId : String
  customerId : Option String
  idempotencyKey : String
  amountMinor : Int
  currency : String
  country : String
  method : PaymentMethodKind
  status : PaymentStatus
  providerId : String
  externalId : Option String
  description : Option String
  metadata : Option Json
  failureCode : Option String
  failureMessage : Option String
  createdAt : Nat
  updatedAt : Nat
  deriving Repr

/-- `@@unique([tenantId, idempotencyKey])`. -/
def Payment.tenantKey (p : Payment) : String × String := (p.tenantId, p.idempotencyKey)

structure PaymentEvent where
  id : String
  paymentId : String
  type : String
  payload : Json
  createdAt : Nat
  deriving Repr

structure Refund where
  id : String
  paymentId : String
  amountMinor : Int
  reason : Option String
  externalRefundId : Option String
  status : String
  createdAt : Nat
  updatedAt : Nat
  deriving Repr

structure AuditLog where
  id : String
  tenantId : String
  organizationId : Option String
  actorId : Option String
  action : String
  resourceId : String
  resourceType : String
  before : Option Json
  after : Option Json
  createdAt : Nat
  deriving Repr

structure WebhookInbound where
  id : String
  providerId : String
  externalId : String
  headers : List (String × String)
  body : Json
  processedAt : Option Nat
  status : String
  createdAt : Nat
  deriving Repr

/-- `@@unique([providerId, externalId])`. -/
def WebhookInbound.providerKey (w : WebhookInbound) : String × String := (w.providerId, w.externalId)

end Pasarela
