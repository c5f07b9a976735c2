import Pasarela.Authorization

/-!
# What the front end is told of a token (`modules/auth/auth.controller.ts`)

* `AuthController.me`: the context of the request, behind `AuthGuard` and `TenantGuard`.
* `AuthController.verify`: whether a token is valid and has access to the payments. It is public.
* `me_iff_verify`: `me` answers a request with a token iff `verify` says that it has access, outside
  production also if the token does not say whether it has, and its claims do not exclude the
  organization of the header.

The claim `email`, which `verify` answers too, is left out, as it is in `DecodedToken`.
-/

namespace Pasarela

open Js (Json isNullish nullish optMember)

namespace AuthController

structure Me where
  organizationId : String
  userId : String
  canRead : Json
  canWrite : Json
  product : String
  deriving Repr

def me (ctx : OrgContext) : Me where
  organizationId := ctx.organizationId
  userId := ctx.userId
  canRead := ctx.canRead
  canWrite := ctx.canWrite
  product := "payments"

/-- `GET /auth/me`, with its guards. -/
def getMe (env : AuthEnv) (headers : Headers) : Except Err Me := do
  let req ← authorize env headers
  match req.orgContext with
  | some ctx => return me ctx
  -- the handler would read a field of `undefined`; `TenantGuard` does not let this happen
  | none => .error (.other "TypeError")

structure Verified where
  valid : Bool
  uid : String
  hasPaymentsAccess : Bool
  deriving DecidableEq, Repr

/-- `POST /auth/verify`. -/
def verify (env : AuthEnv) (authHeader : Option String) : Except Err Verified :=
  match authHeader.bind fun h => if Js.startsWith h "Bearer " then some (Js.drop h 7) else none with
  | none => .error (.unauthorized "Falta Bearer token")
  | some token => do
    let decoded ← FirebaseAuthService.verifyToken env.firebase token
    return {
      valid := true
      uid := decoded.uid
      hasPaymentsAccess := (decoded.permission "canRead").any Json.truthy }

end AuthController

section Token

open AuthController

variable {env : AuthEnv} {headers : Headers} {decoded : DecodedToken} {req : Request}
  {orgId name : String}

/-- A token that `verify` accepts. -/
theorem verify_ok {v : Verified} : verify env (headers.get "authorization") = .ok v ↔
    ∃ decoded, CarriesToken env headers decoded ∧
      v = ⟨true, decoded.uid, (decoded.permission "canRead").any Json.truthy⟩ := by
  unfold verify
  change (match headers.bearer with
    | none => _
    | some token => _) = _ ↔ _
  cases hb : headers.bearer with
  | none =>
    refine iff_of_false (fun h => by cases h) ?_
    rintro ⟨decoded, ⟨token, ht, -⟩, -⟩
    rw [hb] at ht
    cases ht
  | some token =>
    dsimp only
    cases hv : FirebaseAuthService.verifyToken env.firebase token with
    | error e =>
      refine iff_of_false (fun h => by cases h) ?_
      rintro ⟨decoded, ⟨token', ht, hd⟩, -⟩
      rw [hb] at ht
      cases ht
      rw [hv] at hd
      cases hd
    | ok decoded =>
      constructor
      · intro h
        exact ⟨decoded, ⟨token, hb, hv⟩, (Except.ok.inj h).symm⟩
      · rintro ⟨decoded', htoken, rfl⟩
        obtain rfl : decoded = decoded' := CarriesToken.unique ⟨token, hb, hv⟩ htoken
        rfl

/-- A permission is truthy, in production or not. -/
theorem permission_eq : (TenantGuard.permission env decoded.user name).truthy =
    if isNullish (decoded.permission name) then decide (env.nodeEnv ≠ "production")
    else (decoded.permission name).any Json.truthy := by
  have hobj : optMember (some decoded.user.productPermissions) "payments" =
      optMember decoded.productPermissions "payments" := by
    unfold DecodedToken.user nullish
    cases hp : decoded.productPermissions with
    | none => rfl
    | some v => cases v <;> rfl
  unfold TenantGuard.permission DecodedToken.permission
  rw [hobj]
  split
  · rename_i hv
    simp [hv, Json.truthy]
  · rename_i hv
    simp [hv, Json.truthy]
  · rename_i v hnull hv
    cases v with
    | null => exact absurd rfl hnull
    | _ => rw [hv]; rfl

/-- `TenantGuard` lets a user through iff the claims do not exclude the organization of the header,
and the user may read. -/
theorem authorizeUser_iff (req : Request) {user : RequestUser} {req' : Request}
    (hu : req.user = some user) :
    TenantGuard.authorizeUser env req = .ok req' ↔ ∃ orgId,
      req.headers.truthy "x-organization-id" = some orgId ∧ user.uid ≠ "" ∧
      TenantGuard.isOutsider user.organizations orgId = .ok false ∧
      (TenantGuard.permission env user "canRead").truthy = true ∧
      req' = { req with
        orgContext := some ⟨orgId, user.uid, TenantGuard.permission env user "canRead",
          TenantGuard.permission env user "canWrite", false⟩
        organizationId := some orgId
        tenant := some ⟨orgId, orgId⟩ } := by
  unfold TenantGuard.authorizeUser
  cases horg : req.headers.truthy "x-organization-id" with
  | none => simp
  | some orgId =>
    by_cases huid : user.uid = ""
    · have hf : req.user.filter (·.uid ≠ "") = none := by
        rw [hu, Option.filter_some, if_neg (by simpa using huid)]
      simp only [hf]
      simp [huid]
    · have hf : req.user.filter (·.uid ≠ "") = some user := by
        rw [hu, Option.filter_some, if_pos (by simpa using huid)]
      simp only [hf]
      cases hout : TenantGuard.isOutsider user.organizations orgId with
      | error e => simp [hout]
      | ok b =>
        cases b with
        | true => simp [hout]
        | false =>
          cases hread : (TenantGuard.permission env user "canRead").truthy with
          | false => simp
          | true => simp [hout, huid, eq_comm]

/-- The guards on a request with a token. -/
theorem authorize_token (hkey : headers.truthy "x-api-key" = none) :
    authorize env headers = .ok req ↔ ∃ decoded, CarriesToken env headers decoded ∧
      TenantGuard.authorizeUser env { headers, user := some decoded.user } = .ok req := by
  unfold authorize
  constructor
  · intro h
    cases hauth : AuthGuard.canActivate env false { headers } with
    | error e => rw [hauth] at h; cases h
    | ok r =>
      rw [hauth] at h
      rcases authGuard_ok hauth with ⟨tenant, ⟨key, hk, -⟩, -⟩ | ⟨-, decoded, htoken, rfl⟩
      · rw [hkey] at hk
        cases hk
      · exact ⟨decoded, htoken, h⟩
  · rintro ⟨decoded, ⟨token, hb, hv⟩, h⟩
    have hauth : AuthGuard.canActivate env false { headers } =
        .ok { headers, user := some decoded.user } := by
      unfold AuthGuard.canActivate
      rw [if_neg Bool.false_ne_true]
      simp only [hkey, hb, hv]
      rfl
    rw [hauth]
    exact h

end Token

open AuthController

/-- `verify` says that the token has access, or it is not asked outside production. -/
def AuthController.Verified.Opens (env : AuthEnv) (decoded : DecodedToken) (v : Verified) : Prop :=
  v.hasPaymentsAccess = true ∨
    env.nodeEnv ≠ "production" ∧ isNullish (decoded.permission "canRead")

/-- What an answer of `me` rests on: `verify` lets the token in, its claims do not exclude the
organization of the header, and the answer is about this organization and the user that `verify`
names. -/
def AuthController.Grounds (env : AuthEnv) (headers : Headers) (answer : Me) : Prop :=
  ∃ v decoded orgId, verify env (headers.get "authorization") = .ok v ∧
    CarriesToken env headers decoded ∧ v.Opens env decoded ∧ v.uid ≠ "" ∧
    headers.truthy "x-organization-id" = some orgId ∧
    TenantGuard.isOutsider decoded.user.organizations orgId = .ok false ∧
    answer = ⟨orgId, v.uid, TenantGuard.permission env decoded.user "canRead",
      TenantGuard.permission env decoded.user "canWrite", "payments"⟩

/-- **`me` and `verify` agree**: a request with a token gets an answer of `me` iff `verify` lets the
token in and its claims do not exclude the organization of the header. -/
theorem me_iff_verify (env : AuthEnv) (headers : Headers) (answer : Me)
    (hkey : headers.truthy "x-api-key" = none) :
    getMe env headers = .ok answer ↔ Grounds env headers answer := by
  have hread : ∀ decoded : DecodedToken,
      (TenantGuard.permission env decoded.user "canRead").truthy = true ↔
      (⟨true, decoded.uid, (decoded.permission "canRead").any Json.truthy⟩ : Verified).Opens env
        decoded := by
    intro decoded
    rw [permission_eq, Verified.Opens]
    cases hnull : isNullish (decoded.permission "canRead") with
    | true =>
      rcases Js.isNullish_eq hnull with hv | hv
      · simp [hv]
      · simp [hv, Json.truthy]
    | false => simp
  unfold getMe
  constructor
  · intro h
    cases hauth : authorize env headers with
    | error e => rw [hauth] at h; cases h
    | ok req =>
      rw [hauth] at h
      obtain ⟨decoded, htoken, huser⟩ := (authorize_token hkey).mp hauth
      obtain ⟨orgId, horg, huid, hout, hcan, rfl⟩ := (authorizeUser_iff _ rfl).mp huser
      exact ⟨_, decoded, orgId, verify_ok.mpr ⟨decoded, htoken, rfl⟩, htoken,
        (hread decoded).mp hcan, huid, horg, hout, (Except.ok.inj h).symm⟩
  · rintro ⟨v, decoded, orgId, hv, htoken, hopens, huid, horg, hout, rfl⟩
    obtain ⟨decoded', htoken', rfl⟩ := verify_ok.mp hv
    obtain rfl := htoken'.unique htoken
    have huser := (authorizeUser_iff { headers, user := some decoded'.user } rfl).mpr
      ⟨orgId, horg, huid, hout, (hread decoded').mpr hopens, rfl⟩
    rw [(authorize_token hkey).mpr ⟨decoded', htoken', huser⟩]
    rfl

theorem me_iff_verify_sample :
    Grounds (productionEnv (some (.arr [.str "org"]))) sampleHeaders
      ⟨"org", "user", .bool true, .bool true, "payments"⟩ :=
  (me_iff_verify (productionEnv (some (.arr [.str "org"]))) sampleHeaders
    ⟨"org", "user", .bool true, .bool true, "payments"⟩ (by decide)).mp rfl

end Pasarela
