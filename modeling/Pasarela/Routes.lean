import Mathlib.Logic.Function.Basic
import Pasarela.Conc.Prog
import Pasarela.Http

/-!
# The routes of the payments (`payments.controller.ts`, `app.module.ts`)

A request to a route of `PaymentsController` on its way to the handler, with what its guards await:
the global guard first, then the guards of the controller and of the method, then the pipes.

* `guardMachine`: the clock, the counters in Redis, and what `AuthGuard` asks. A counter expires when
  its window has been over for five seconds (`EXPIRE`); its name has the number of the window, so
  nothing reads it any more, and `expire` is a request without an effect here.
* `TenantThrottlerGuard.throttle` (`common/guards/tenant-throttler.guard.ts`).
* `PaymentsRoute.enter`: what the request goes through after the global guard.
* `PaymentsRequest.handle`: the whole way. It returns the context that the handler is called with.

The pipes, of the validator library, are parameters. The body of a refund has no class, so no pipe
looks at it.
-/

namespace Pasarela

open Conc (Machine Prog)
open Js (Json)

/-! ## What the guards await -/

inductive GuardOp where
  /-- `Date.now()`. -/
  | now
  /-- `redis.incr`. -/
  | incr (key : String)
  /-- `redis.expire`. -/
  | expire (key : String) (seconds : Nat)
  /-- The stored keys and the token service. -/
  | authenticate

@[reducible] def GuardOp.Ans : GuardOp → Type
  | .now => Nat
  | .incr _ => Nat
  | .expire _ _ => Unit
  | .authenticate => AuthEnv

/-- What the environment decides: that Redis or the database fails, the time, and what `AuthGuard`
gets. -/
structure GuardDecision where
  fail : Option Err
  now : Nat
  auth : AuthEnv

/-- The counters in Redis. -/
abbrev Counters : Type := String → Nat

abbrev guardMachine : Machine where
  Op := GuardOp
  Ans := GuardOp.Ans
  Dec := GuardDecision
  St := Counters
  Err := Err
  exec
    | .now, d, s => (.ok d.now, s)
    | .incr key, d, s =>
      match d.fail with
      | some e => (.error e, s)
      | none => (.ok (s key + 1), Function.update s key (s key + 1))
    | .expire _ _, d, s =>
      match d.fail with
      | some e => (.error e, s)
      | none => (.ok (), s)
    | .authenticate, d, s =>
      match d.fail with
      | some e => (.error e, s)
      | none => (.ok d.auth, s)

section Requests

variable {d : GuardDecision} {s s' : Counters}

theorem exec_incr {key : String} {r : Except Err Nat}
    (h : guardMachine.exec (.incr key) d s = (r, s')) : (∃ e, r = .error e ∧ s' = s) ∨
      r = .ok (s key + 1) ∧ s' = Function.update s key (s key + 1) := by
  simp only at h
  split at h
  · obtain ⟨rfl, rfl⟩ := Prod.mk.inj h
    exact .inl ⟨_, rfl, rfl⟩
  · obtain ⟨rfl, rfl⟩ := Prod.mk.inj h
    exact .inr ⟨rfl, rfl⟩

theorem exec_incr_of_works {key : String} (hf : d.fail = none) : guardMachine.exec (.incr key) d s =
    (.ok (s key + 1), Function.update s key (s key + 1)) := by
  simp only [hf]

theorem exec_expire {key : String} {seconds : Nat} {r : Except Err Unit}
    (h : guardMachine.exec (.expire key seconds) d s = (r, s')) :
    s' = s ∧ ((∃ e, r = .error e) ∨ r = .ok ()) := by
  simp only at h
  split at h
  · obtain ⟨rfl, rfl⟩ := Prod.mk.inj h
    exact ⟨rfl, .inl ⟨_, rfl⟩⟩
  · obtain ⟨rfl, rfl⟩ := Prod.mk.inj h
    exact ⟨rfl, .inr rfl⟩

theorem exec_expire_of_works {key : String} {seconds : Nat} (hf : d.fail = none) :
    guardMachine.exec (.expire key seconds) d s = (.ok (), s) := by
  simp only [hf]

theorem exec_authenticate {r : Except Err AuthEnv}
    (h : guardMachine.exec .authenticate d s = (r, s')) :
    s' = s ∧ ((∃ e, r = .error e) ∨ r = .ok d.auth) := by
  simp only at h
  split at h
  · obtain ⟨rfl, rfl⟩ := Prod.mk.inj h
    exact ⟨rfl, .inl ⟨_, rfl⟩⟩
  · obtain ⟨rfl, rfl⟩ := Prod.mk.inj h
    exact ⟨rfl, .inr rfl⟩

theorem exec_authenticate_of_works (hf : d.fail = none) :
    guardMachine.exec .authenticate d s = (.ok d.auth, s) := by
  simp only [hf]

end Requests

/-- A guard that awaits something. -/
abbrev Guarded (α : Type) : Type := Prog guardMachine α

abbrev ask (o : GuardOp) : Guarded o.Ans := Prog.perform (M := guardMachine) o

/-! ## The rate limit -/

/-- `THROTTLE_TTL` and `THROTTLE_LIMIT_PER_TENANT`. -/
structure ThrottleConfig where
  ttl : Nat
  limit : Nat
  deriving DecidableEq, Repr

/-- `req.tenant?.id`, if it is truthy. -/
def Request.tenantId (req : Request) : Option String := (req.tenant.map (·.id)).filter (· ≠ "")

namespace TenantThrottlerGuard

/-- The counter of a tenant in a window. -/
def counterKey (tenantId : String) (window : Nat) : String :=
  "rl:" ++ tenantId ++ ":" ++ toString window

/-- `canActivate` for a request with a tenant. -/
def count (cfg : ThrottleConfig) (req : Request) (tenantId : String) : Guarded Request := do
  let now ← ask .now
  let key := counterKey tenantId (now / 1000 / cfg.ttl)
  let current ← ask (.incr key)
  let _ ← if current = 1 then ask (.expire key (cfg.ttl + 5)) else .ret ()
  if cfg.limit < current then .throw .throttled else .ret req

/-- `canActivate`, with the counter. -/
def throttle (cfg : ThrottleConfig) (isPublic : Bool) (req : Request) : Guarded Request :=
  if isPublic then .ret req
  else match req.tenantId with
    | none => .ret req
    | some tenantId => count cfg req tenantId

end TenantThrottlerGuard

/-! ## The routes -/

/-- The pipes of the arguments that have a class. -/
structure Pipes where
  createPayment : Json → Except Err CreatePaymentDto
  listPayments : Json → Except Err ListPaymentsDto

/-- A route, with what of the request its guards and pipes look at. -/
inductive PaymentsRoute where
  | create (body : Json)
  | findAll (query : Json)
  | findOne (id : String)
  | refund (id : String) (body : Json)

namespace PaymentsRoute

/-- The guards of the method. -/
def guard (req : Request) : PaymentsRoute → Except Err Unit
  | .create body => do
    let _ ← WriteGuard.canActivate req
    PciGuard.canActivate body
  | .findAll _ => .ok ()
  | .findOne _ => .ok ()
  | .refund _ _ => do
    let _ ← WriteGuard.canActivate req

def pipe (pipes : Pipes) : PaymentsRoute → Except Err Unit
  | .create body => do
    let _ ← pipes.createPayment body
  | .findAll query => do
    let _ ← pipes.listPayments query
  | .findOne _ => .ok ()
  | .refund _ _ => .ok ()

/-- The guards and pipes after the global guard (module doc). -/
def enter (env : AuthEnv) (pipes : Pipes) (req : Request) (route : PaymentsRoute) :
    Except Err OrgContext := do
  let req ← AuthGuard.canActivate env false req
  let req ← TenantGuard.canActivate env false req
  route.guard req
  route.pipe pipes
  match req.orgContext with
  | some ctx => return ctx
  -- `TenantGuard` does not let this happen
  | none => .error (.other "TypeError")

end PaymentsRoute

/-- `POST /payments` of the whole request (`PaymentsController.checkRequest`) lets through what this
route does, whatever the counter of the global guard: no guard has set the tenant yet. -/
theorem checkRequest_context (env : HttpEnv) (pipes : Pipes) (hp : pipes.createPayment = env.pipe)
    (headers : Headers) (body : Json) :
    (PaymentsController.checkRequest env headers body).map Prod.fst =
      PaymentsRoute.enter env.auth pipes { headers } (.create body) := by
  have hglobal : TenantThrottlerGuard.canActivate env.current env.limit false { headers } =
      .ok { headers } := rfl
  rw [PaymentsController.checkRequest, hglobal, PaymentsRoute.enter]
  simp only [bind, Except.bind, pure, Except.pure, PaymentsRoute.guard, PaymentsRoute.pipe, hp]
  cases AuthGuard.canActivate env.auth false { headers } with
  | error e => rfl
  | ok req =>
    dsimp only
    cases TenantGuard.canActivate env.auth false req with
    | error e => rfl
    | ok req =>
      dsimp only
      cases hw : WriteGuard.canActivate req with
      | error e => rfl
      | ok req' =>
        -- `WriteGuard` leaves the request as it is
        have hreq : req' = req := by
          unfold WriteGuard.canActivate at hw
          split at hw
          · exact (Except.ok.inj hw).symm
          · cases hw
        dsimp only
        cases PciGuard.canActivate body with
        | error e => rfl
        | ok u =>
          dsimp only
          cases env.pipe body with
          | error e => rfl
          | ok dto =>
            dsimp only
            rw [hreq]
            cases req.orgContext <;> rfl

/-- A request to a route. -/
structure PaymentsRequest where
  headers : Headers
  route : PaymentsRoute

/-- The request on its way (module doc). -/
def PaymentsRequest.handle (cfg : ThrottleConfig) (pipes : Pipes) (x : PaymentsRequest) :
    Guarded OrgContext := do
  let req ← TenantThrottlerGuard.throttle cfg false { headers := x.headers }
  let env ← ask .authenticate
  .ofExcept (x.route.enter env pipes req)

end Pasarela
