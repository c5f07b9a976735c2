import Pasarela.Guards
import Pasarela.Js.Stringify
import Pasarela.Payments

/-!
# `POST /payments` (`payments.controller.ts`, `app.module.ts`, `common/guards/pci.guard.ts`)

What a request goes through before `PaymentsService.create`, as the module and the controller wire
it: the global guard (`TenantThrottlerGuard`), the guards of the controller (`AuthGuard`,
`TenantGuard`) and of the method (`WriteGuard`, `PciGuard`), and the validation pipe. No interceptor
is bound to the route.

* `PciGuard`: the forbidden field names, and the digits of a card number anywhere in the body.
* `HttpEnv`: what the guards and the pipe ask. The pipe, of the validator library, is a parameter.
* `PaymentsController.create`: the whole request.
-/

namespace Pasarela

open Conc (Prog)
open Js (Json)
open PaymentsService (SerializedPayment)

namespace PciGuard

def forbiddenFields : List String := [
  "card_number", "cardnumber", "pan",
  "cvv", "cvc", "cvc2", "cvv2", "security_code",
  "track1", "track2", "magnetic_stripe"]

mutual

/-- `flatKeys`: the field names, at any depth below objects. -/
def flatKeys : Json → List String
  | .obj kvs => memberKeys kvs
  | .arr xs => itemKeys 0 xs
  | _ => []

/-- The names of a nested value: an array below the body is not searched. -/
def nestedKeys : Json → List String
  | .obj kvs => memberKeys kvs
  | _ => []

def memberKeys : List (String × Json) → List String
  | [] => []
  | m :: ms => keysOf m ++ memberKeys ms

def keysOf : String × Json → List String
  | (k, v) => k :: nestedKeys v

/-- The keys of an array are its indices. -/
def itemKeys (i : Nat) : List Json → List String
  | [] => []
  | x :: xs => toString i :: nestedKeys x ++ itemKeys (i + 1) xs

end

/-- `\w`. -/
def isWord (c : Char) : Bool :=
  ('a' ≤ c ∧ c ≤ 'z') ∨ ('A' ≤ c ∧ c ≤ 'Z') ∨ ('0' ≤ c ∧ c ≤ '9') ∨ c = '_'

/-- `PAN_REGEX.test(s)`: some word of `s` is 13 to 19 digits. A word is a longest run of `\w`. -/
def hasPan (s : String) : Bool :=
  (s.toList.splitOnP fun c => !isWord c).any fun w =>
    13 ≤ w.length ∧ w.length ≤ 19 ∧ w.all fun c => '0' ≤ c ∧ c ≤ '9'

def cardData : Err := .unprocessable
  ("No envíes datos de tarjeta directamente. " ++
    "Tokenizá con el SDK del provider en el frontend.")

/-- `!body || typeof body !== 'object'`. -/
def isScanned : Json → Bool
  | .obj _ => true
  | .arr _ => true
  | _ => false

def canActivate (body : Json) : Except Err Unit :=
  if !isScanned body then .ok ()
  else if (flatKeys body).any fun k => Js.toLowerCase k ∈ forbiddenFields then .error cardData
  else if hasPan (Js.stringify body) then .error cardData
  else .ok ()

end PciGuard

/-- What the guards and the pipe ask (module doc). `current` and `limit` are those of
`TenantThrottlerGuard`. -/
structure HttpEnv where
  auth : AuthEnv
  current : String → Nat
  limit : Nat
  pipe : Json → Except Err CreatePaymentDto

namespace PaymentsController

/-- The guards and the pipe of `POST /payments`. -/
def checkRequest (env : HttpEnv) (headers : Headers) (body : Json) :
    Except Err (OrgContext × CreatePaymentDto) := do
  let req ← TenantThrottlerGuard.canActivate env.current env.limit false { headers }
  let req ← AuthGuard.canActivate env.auth false req
  let req ← TenantGuard.canActivate env.auth false req
  let req ← WriteGuard.canActivate req
  PciGuard.canActivate body
  let dto ← env.pipe body
  match req.orgContext with
  | some ctx => return (ctx, dto)
  -- the handler would read a field of `undefined`; `WriteGuard` does not let this happen
  | none => .error (.other "TypeError")

/-- `POST /payments`. -/
def create (env : HttpEnv) (registry : ProviderRegistry) (headers : Headers) (body : Json) :
    Service SerializedPayment := do
  let (ctx, dto) ← .ofExcept (checkRequest env headers body)
  PaymentsService.create registry dto (headers.get "idempotency-key") ctx

end PaymentsController

end Pasarela
