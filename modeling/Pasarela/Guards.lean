import Pasarela.Dto
import Pasarela.Errors
import Pasarela.Js.Compare
import Pasarela.Provider

/-!
# Who may make a request (`common/guards`, `firebase-auth.service.ts`, `api-key.service.ts`)

* `Request`: the headers, and the fields that the guards write and read. A guard returns the
  request as it leaves it, or the error of the response.
* `ApiKeyService.validate`: the tenant of an API key. `FirebaseAuthService.verifyToken`: the claims
  of a token.
* `AuthGuard`, `TenantGuard`, `WriteGuard`, `TenantThrottlerGuard`. `isPublic` is the metadata of the
  route: the routes of the payments are not public.

The claims of a token are any JSON values. The claims `email`, `name` and `organizationId`, which no
guard reads, are left out, and so is `lastUsedAt` of a key.
-/

namespace Pasarela

open Js (Json greaterThan isNullish nullish optMember)

/-- `req.tenant`. -/
structure TenantRef where
  id : String
  name : String
  deriving DecidableEq, Repr

/-! ## API keys -/

/-- A row of `TenantApiKey`, with its tenant. -/
structure TenantApiKey where
  id : String
  keyHash : String
  hashPrefix : String
  active : Bool
  expiresAt : Option Nat
  tenant : TenantRef
  tenantActive : Bool
  deriving DecidableEq, Repr

namespace ApiKeyService

def prefixLen : Nat := 8

/-- The filter of the candidates: the prefix, not revoked, not expired. -/
def isCandidate (now : Nat) (keyPrefix : String) (k : TenantApiKey) : Bool :=
  k.hashPrefix = keyPrefix ∧ k.active ∧ k.expiresAt.all (now < ·)

/-- The tenant of a raw key. `apiKeys` are the rows in the order that the query returns them, and
`compare` is `bcrypt.compare`. -/
def validate (compare : String → String → Bool) (now : Nat) (apiKeys : List TenantApiKey)
    (rawKey : String) : Option TenantRef :=
  if Js.startsWith rawKey "pk_" then
    let keyPrefix := Js.slice rawKey 3 (3 + prefixLen)
    ((apiKeys.filter (isCandidate now keyPrefix)).find? fun k =>
      k.tenantActive && compare rawKey k.keyHash).map (·.tenant)
  else none

end ApiKeyService

/-! ## Tokens -/

/-- `FirebaseDecodedToken` (module doc). -/
structure DecodedToken where
  uid : String
  productPermissions : Option Json
  organizations : Option Json

namespace FirebaseAuthService

/-- `verifyToken`. `firebase` is the application, if one is configured; its `verifyIdToken` gives
the claims of a token, or rejects it. -/
def verifyToken (firebase : Option (String → Option DecodedToken)) (token : String) :
    Except Err DecodedToken :=
  match firebase with
  | none => .error (.unauthorized "Firebase Auth no está configurado en este servidor")
  | some verifyIdToken =>
    match verifyIdToken token with
    | some decoded => .ok decoded
    | none => .error (.unauthorized "Token inválido o expirado")

end FirebaseAuthService

/-! ## The request -/

/-- `req.user`. -/
structure RequestUser where
  uid : String
  productPermissions : Json
  organizations : Json

def DecodedToken.user (decoded : DecodedToken) : RequestUser where
  uid := decoded.uid
  productPermissions := (nullish decoded.productPermissions (some (.obj []))).getD .null
  organizations := (nullish decoded.organizations (some (.arr []))).getD .null

/-- A request (module doc). -/
structure Request where
  headers : Headers
  tenant : Option TenantRef := none
  organizationId : Option String := none
  user : Option RequestUser := none
  orgContext : Option OrgContext := none

/-- What the guards ask: the configuration, the stored keys, the token service and the clock. -/
structure AuthEnv where
  nodeEnv : String
  apiKeys : List TenantApiKey
  compare : String → String → Bool
  now : Nat
  firebase : Option (String → Option DecodedToken)

/-- A header that is there and not empty. -/
def Headers.truthy (headers : Headers) (name : String) : Option String :=
  (headers.get name).filter (· ≠ "")

def Headers.bearer (headers : Headers) : Option String :=
  (headers.get "authorization").bind fun h =>
    if Js.startsWith h "Bearer " then some (Js.drop h 7) else none

namespace AuthGuard

def canActivate (env : AuthEnv) (isPublic : Bool) (req : Request) : Except Err Request :=
  if isPublic then .ok req
  else match req.headers.truthy "x-api-key" with
    | some apiKey =>
      match ApiKeyService.validate env.compare env.now env.apiKeys apiKey with
      | none => .error (.unauthorized "API key inválida o expirada")
      | some tenant => .ok { req with tenant := some tenant, organizationId := some tenant.id }
    | none =>
      match req.headers.bearer with
      | none => .error (.unauthorized
        "Autenticación requerida: x-api-key o Authorization: Bearer <token>")
      | some token => do
        let decoded ← FirebaseAuthService.verifyToken env.firebase token
        return { req with user := some decoded.user }

end AuthGuard

namespace TenantGuard

/-- `v === s`. -/
def isText (s : String) : Json → Bool
  | .str t => t = s
  | _ => false

/-- `userOrgs.length > 0 && !userOrgs.includes(orgId)`, or the error that it throws. An object has no
method `includes`. -/
def isOutsider (userOrgs : Json) (orgId : String) : Except Err Bool :=
  match userOrgs with
  | .arr xs => .ok (!xs.isEmpty && !xs.any (isText orgId))
  | .str s => .ok (s ≠ "" && !Js.includes s orgId)
  | .obj kvs =>
    match greaterThan 0 (kvs.lookup "length") with
    | none => .error (.other "Cannot convert object to primitive value")
    | some true => .error (.other "userOrgs.includes is not a function")
    | some false => .ok false
  | _ => .ok false

/-- `user.productPermissions?.['payments']?.[name] ?? isDev`. -/
def permission (env : AuthEnv) (user : RequestUser) (name : String) : Json :=
  match optMember (optMember (some user.productPermissions) "payments") name with
  | none | some .null => .bool (env.nodeEnv ≠ "production")
  | some v => v

/-- The path of a user: the organization of the header, checked against the claims. -/
def authorizeUser (env : AuthEnv) (req : Request) : Except Err Request :=
  match req.headers.truthy "x-organization-id" with
  | none => .error (.badRequest "Header x-organization-id requerido")
  | some orgId =>
    match req.user.filter (·.uid ≠ "") with
    | none => .error (.badRequest
      "Usuario no autenticado — FirebaseAuthGuard debe correr antes de TenantGuard")
    | some user =>
      match isOutsider user.organizations orgId with
      | .error e => .error e
      | .ok true => .error (.forbidden "No pertenecés a la organización indicada")
      | .ok false =>
        if (permission env user "canRead").truthy then .ok { req with
          orgContext := some {
            organizationId := orgId
            userId := user.uid
            canRead := permission env user "canRead"
            canWrite := permission env user "canWrite"
            isApiKey := false }
          organizationId := some orgId
          tenant := some ⟨orgId, orgId⟩ }
        else .error (.forbidden "Sin acceso al módulo \"payments\" en esta organización")

def canActivate (env : AuthEnv) (isPublic : Bool) (req : Request) : Except Err Request :=
  if isPublic then .ok req
  else match req.organizationId, req.user with
    | some organizationId, none => .ok { req with
      orgContext := some {
        organizationId
        userId := "api-key"
        canRead := .bool true
        canWrite := .bool true
        isApiKey := true }
      tenant := some ⟨organizationId, "api-key-tenant"⟩ }
    | _, _ => authorizeUser env req

end TenantGuard

namespace WriteGuard

def canActivate (req : Request) : Except Err Request :=
  if req.orgContext.any (·.canWrite.truthy) then .ok req
  else .error (.forbidden "No tenés permisos de escritura en este módulo")

end WriteGuard

namespace TenantThrottlerGuard

/-- `current` is the counter of the tenant in the window after `INCR`, and `limit` the configured
limit. -/
def canActivate (current : String → Nat) (limit : Nat) (isPublic : Bool) (req : Request) :
    Except Err Request :=
  if isPublic then .ok req
  else match (req.tenant.map (·.id)).filter (· ≠ "") with
    | none => .ok req
    | some tenantId => if limit < current tenantId then .error .throttled else .ok req

end TenantThrottlerGuard

end Pasarela
