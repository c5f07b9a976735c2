import Pasarela.Js.Json
import Pasarela.Schema

/-!
# What the controllers hand to the services

* `OrgContext` (`common/interfaces/org-context.interface.ts`).
* `CreatePaymentDto` and its validators (`payments/dto/create-payment.dto.ts`). The predicates of
  the validator library are a parameter (`Validators`).
* `ListPaymentsDto` (`payments/dto/list-payments.dto.ts`): its validators are the type, so a value
  is a validated query with the defaults filled in.
* `RefundBody`: the body of a refund, which no validator checks. `Amount` is any value that the
  service reads as an amount: its truth value, `BigInt` of it, and the value in JSON.
-/

namespace Pasarela

open Js (Json)

/-- `canRead` and `canWrite` are claims of a token, which no guard checks the type of. -/
structure OrgContext where
  organizationId : String
  userId : String
  canRead : Json
  canWrite : Json
  isApiKey : Bool
  deriving Repr

/-- A user of one organization, to evaluate runs on. -/
def sampleCtx : OrgContext := ⟨"org", "user", .bool true, .bool true, false⟩

/-! ## Create -/

structure CreatePaymentDto where
  amountMinor : Int
  currency : String
  country : String
  method : String
  customerId : Option String
  email : Option String
  description : Option String
  returnUrl : Option String
  metadata : Option Json
  deriving Repr

/-- The predicates of the validator library that the decorators name. -/
structure Validators where
  isISO31661Alpha2 : String → Bool
  isEmail : String → Bool
  isURL : String → Bool

def isObject : Json → Bool
  | .obj _ => true
  | _ => false

/-- The decorators of `CreatePaymentDto` accept the value. `IsEnum(PaymentMethodKind)` is about the
enum of the database. -/
structure CreatePaymentDto.Accepted (v : Validators) (dto : CreatePaymentDto) : Prop where
  amountMinor : 1 ≤ dto.amountMinor
  currency : dto.currency.length = 3
  country : v.isISO31661Alpha2 dto.country
  method : dto.method ∈ PaymentMethodKind.all.map PaymentMethodKind.text
  customerId : ∃ c, dto.customerId = some c ∧ c ≠ ""
  email : dto.email.all v.isEmail
  returnUrl : dto.returnUrl.all v.isURL
  metadata : dto.metadata.all isObject

/-- A request for a payment of 100, which is valid for `METHOD_MAP`. -/
def sampleDto : CreatePaymentDto where
  amountMinor := 100
  currency := "ARS"
  country := "AR"
  method := "card"
  customerId := some "customer"
  email := none
  description := none
  returnUrl := none
  metadata := none

/-! ## List -/

structure ListPaymentsDto where
  status : Option PaymentStatus := none
  page : Nat := 1
  limit : Nat := 20
  one_le_page : 1 ≤ page := by decide
  one_le_limit : 1 ≤ limit := by decide
  limit_le : limit ≤ 100 := by decide

/-! ## Refund -/

/-- A value that stands for an amount (module doc). -/
inductive Amount where
  /-- A number whose value is an integer. -/
  | num (n : Int)
  /-- A number that is not an integer, with the text it prints. -/
  | float (repr : String)
  | str (s : String)
  deriving DecidableEq, Repr

namespace Amount

def truthy : Amount → Bool
  | .num n => n ≠ 0
  | .float _ => true
  | .str s => s ≠ ""

/-- `BigInt(v)`; `none` if it throws. -/
def bigInt : Amount → Option Int
  | .num n => some n
  | .float _ => none
  | .str s => Js.bigInt s

def json : Amount → Json
  | .num n => .num n
  | .float r => .float r
  | .str s => .str s

end Amount

structure RefundBody where
  amountMinor : Option Amount := none
  reason : Option String := none
  deriving DecidableEq, Repr

/-- `body.amountMinor`, if it is truthy. -/
def RefundBody.amount? (body : RefundBody) : Option Amount := body.amountMinor.filter Amount.truthy

end Pasarela
