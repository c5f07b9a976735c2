import Pasarela.Guards

/-!
# Whose organization a request acts for

A request to a route of the payments that passes `AuthGuard` and `TenantGuard` in production, with
any headers, stored keys and token claims.

* `authorize`: the two guards, in the order of the controller.
* `Authorized`: what the organization of the request should rest on: an API key of it, or a token
  whose claims name it and grant the permissions.
* `authorize_ok`: what it does rest on. A token without organizations passes for any of them.
* `authorized_iff_member_claim`: so a request is authorized iff it uses an API key, or the claims of
  its token have organizations, and permissions that are truth values.
-/

namespace Pasarela

open Js (Json isNullish nullish optMember)

/-- The guards of the controller, on a request that no guard has seen. -/
def authorize (env : AuthEnv) (headers : Headers) : Except Err Request := do
  let req ← AuthGuard.canActivate env false { headers }
  TenantGuard.canActivate env false req

/-- The request passes `WriteGuard`. -/
def Request.Writes (req : Request) : Prop := (WriteGuard.canActivate req).isOk

/-- The claim `productPermissions.payments[name]`. -/
def DecodedToken.permission (decoded : DecodedToken) (name : String) : Option Json :=
  optMember (optMember decoded.productPermissions "payments") name

/-- The request carries a token with these claims. -/
def CarriesToken (env : AuthEnv) (headers : Headers) (decoded : DecodedToken) : Prop :=
  ∃ token, headers.bearer = some token ∧
    FirebaseAuthService.verifyToken env.firebase token = .ok decoded

/-- The request carries an API key of this tenant. -/
def CarriesKey (env : AuthEnv) (headers : Headers) (tenant : TenantRef) : Prop :=
  ∃ key, headers.truthy "x-api-key" = some key ∧
    ApiKeyService.validate env.compare env.now env.apiKeys key = some tenant

/-- What the organization of a request should rest on (module doc). -/
def Authorized (env : AuthEnv) (headers : Headers) (ctx : OrgContext) (req : Request) : Prop :=
  (∃ tenant, CarriesKey env headers tenant ∧ ctx.organizationId = tenant.id) ∨
  ∃ decoded, CarriesToken env headers decoded ∧
    (∃ xs, decoded.organizations = some (.arr xs) ∧ .str ctx.organizationId ∈ xs) ∧
    decoded.permission "canRead" = some (.bool true) ∧
    (req.Writes → decoded.permission "canWrite" = some (.bool true))

/-- The claims say of which organizations the user is a member, and say of the permissions yes or
no. -/
structure DecodedToken.Explicit (decoded : DecodedToken) (req : Request) : Prop where
  organizations : ∃ x xs, decoded.organizations = some (.arr (x :: xs))
  canRead : ∃ b, decoded.permission "canRead" = some (.bool b)
  canWrite : req.Writes → ∃ b, decoded.permission "canWrite" = some (.bool b)

section Guards

variable {env : AuthEnv} {headers : Headers} {req req' : Request} {ctx : OrgContext}
  {decoded : DecodedToken}

/-- `AuthGuard` accepts an API key of a tenant, or a token. -/
theorem authGuard_ok (h : AuthGuard.canActivate env false { headers } = .ok req) :
    (∃ tenant, CarriesKey env headers tenant ∧
      req = { headers, tenant := some tenant, organizationId := some tenant.id }) ∨
    (headers.truthy "x-api-key" = none ∧ ∃ decoded, CarriesToken env headers decoded ∧
      req = { headers, user := some decoded.user }) := by
  unfold AuthGuard.canActivate at h
  rw [if_neg Bool.false_ne_true] at h
  cases hkey : headers.truthy "x-api-key" with
  | some key =>
    simp only [hkey] at h
    cases hv : ApiKeyService.validate env.compare env.now env.apiKeys key with
    | none => rw [hv] at h; cases h
    | some tenant =>
      rw [hv] at h
      cases h
      exact .inl ⟨tenant, ⟨key, hkey, hv⟩, rfl⟩
  | none =>
    simp only [hkey] at h
    cases hb : headers.bearer with
    | none => simp only [hb] at h; cases h
    | some token =>
      simp only [hb] at h
      cases hv : FirebaseAuthService.verifyToken env.firebase token with
      | error e => rw [hv] at h; cases h
      | ok decoded =>
        rw [hv] at h
        cases h
        exact .inr ⟨rfl, decoded, ⟨token, hb, hv⟩, rfl⟩

/-- `TenantGuard` accepts a user of whom the claims do not say that the organization is another's,
and who may read. -/
theorem authorizeUser_ok {user : RequestUser} (hu : req.user = some user)
    (h : TenantGuard.authorizeUser env req = .ok req') :
    ∃ orgId, TenantGuard.isOutsider user.organizations orgId = .ok false ∧
      (TenantGuard.permission env user "canRead").truthy = true ∧
      req'.orgContext = some ⟨orgId, user.uid, TenantGuard.permission env user "canRead",
        TenantGuard.permission env user "canWrite", false⟩ := by
  unfold TenantGuard.authorizeUser at h
  cases horg : req.headers.truthy "x-organization-id" with
  | none => simp only [horg] at h; cases h
  | some orgId =>
    simp only [horg, hu] at h
    split at h
    · cases h
    · rename_i user' huser
      obtain ⟨heq, -⟩ := Option.filter_eq_some_iff.mp huser
      cases heq
      cases hout : TenantGuard.isOutsider user.organizations orgId with
      | error e => rw [hout] at h; cases h
      | ok b =>
        cases b with
        | true => rw [hout] at h; cases h
        | false =>
          simp only [hout] at h
          split at h
          next hread =>
            cases h
            exact ⟨orgId, hout, hread, rfl⟩
          next => cases h

/-- **What the organization of a request rests on** (module doc). -/
theorem authorize_ok (h : authorize env headers = .ok req) (hc : req.orgContext = some ctx) :
    (∃ tenant, CarriesKey env headers tenant ∧ ctx.organizationId = tenant.id) ∨
    (headers.truthy "x-api-key" = none ∧ ∃ decoded, CarriesToken env headers decoded ∧
      TenantGuard.isOutsider decoded.user.organizations ctx.organizationId = .ok false ∧
      (TenantGuard.permission env decoded.user "canRead").truthy = true ∧
      ctx.canWrite = TenantGuard.permission env decoded.user "canWrite") := by
  unfold authorize at h
  cases hauth : AuthGuard.canActivate env false { headers } with
  | error e => rw [hauth] at h; cases h
  | ok r =>
    rw [hauth] at h
    change TenantGuard.canActivate env false r = .ok req at h
    rcases authGuard_ok hauth with ⟨tenant, hkey, rfl⟩ | ⟨hnone, decoded, htoken, rfl⟩
    · cases h
      cases hc
      exact .inl ⟨tenant, hkey, rfl⟩
    · obtain ⟨orgId, hout, hread, hctx⟩ := authorizeUser_ok rfl h
      rw [hc] at hctx
      cases hctx
      exact .inr ⟨hnone, decoded, htoken, hout, hread, rfl⟩

/-- In production a permission is a claim that is truthy. -/
theorem permission_iff (hprod : env.nodeEnv = "production") {name : String} :
    (TenantGuard.permission env decoded.user name).truthy = true ↔
      ∃ v, decoded.permission name = some v ∧ v.truthy := by
  have hobj : optMember (some decoded.user.productPermissions) "payments" =
      optMember decoded.productPermissions "payments" := by
    unfold DecodedToken.user nullish
    cases hp : decoded.productPermissions with
    | none => rfl
    | some v => cases v <;> rfl
  unfold TenantGuard.permission DecodedToken.permission
  rw [hobj]
  split
  · rename_i hv
    simp [hv, hprod, Json.truthy]
  · rename_i hv
    simp [hv, hprod, Json.truthy]
  · rename_i v hv
    simp [hv]

/-- Where the claims have organizations, the organization of the request is one of them. -/
theorem mem_of_not_outsider {orgId : String} {x : Json} {xs : List Json}
    (h : TenantGuard.isOutsider decoded.user.organizations orgId = .ok false)
    (ho : decoded.organizations = some (.arr (x :: xs))) : .str orgId ∈ x :: xs := by
  have huser : decoded.user.organizations = .arr (x :: xs) := by
    unfold DecodedToken.user
    rw [ho]
    rfl
  rw [huser] at h
  have hnot : (!(x :: xs).any (TenantGuard.isText orgId)) = false := Except.ok.inj h
  rw [Bool.not_eq_false'] at hnot
  obtain ⟨y, hy, ht⟩ := List.any_eq_true.mp hnot
  cases y with
  | str t =>
    have heq : t = orgId := of_decide_eq_true ht
    rw [← heq]
    exact hy
  | null => cases ht
  | bool b => cases ht
  | num n => cases ht
  | float r => cases ht
  | arr ys => cases ht
  | obj kvs => cases ht

/-- A claim that is truthy and a truth value is `true`. -/
theorem DecodedToken.permission_of_bool {name : String}
    (hb : ∃ b, decoded.permission name = some (.bool b))
    (hv : ∃ v, decoded.permission name = some v ∧ v.truthy) :
    decoded.permission name = some (.bool true) := by
  obtain ⟨b, hb⟩ := hb
  obtain ⟨v, hv, ht⟩ := hv
  rw [hb] at hv
  cases hv
  have hbt : b = true := ht
  rw [hb, hbt]

theorem CarriesToken.unique {decoded' : DecodedToken} (h : CarriesToken env headers decoded)
    (h' : CarriesToken env headers decoded') : decoded = decoded' := by
  obtain ⟨token, hb, hv⟩ := h
  obtain ⟨token', hb', hv'⟩ := h'
  rw [hb] at hb'
  cases hb'
  rw [hv] at hv'
  cases hv'
  rfl

theorem writes_iff (hc : req.orgContext = some ctx) : req.Writes ↔ ctx.canWrite.truthy = true := by
  unfold Request.Writes WriteGuard.canActivate
  rw [hc]
  cases hw : ctx.canWrite.truthy <;> simp [hw, Except.isOk, Except.toBool]

end Guards

/-- **When a request is authorized**: in production, of all the requests that pass the guards, those
with an API key, or with a token whose claims have organizations and explicit permissions. -/
theorem authorized_iff_member_claim (env : AuthEnv) (headers : Headers) (req : Request)
    (ctx : OrgContext) (hprod : env.nodeEnv = "production") (h : authorize env headers = .ok req)
    (hc : req.orgContext = some ctx) :
    Authorized env headers ctx req ↔ (headers.truthy "x-api-key").isSome ∨
      ∃ decoded, CarriesToken env headers decoded ∧ decoded.Explicit req := by
  rcases authorize_ok h hc with ⟨tenant, hkey, hid⟩ | ⟨hnone, decoded, htoken, hout, hread, hwrite⟩
  · obtain ⟨key, hk, -⟩ := id hkey
    refine iff_of_true (.inl ⟨tenant, hkey, hid⟩) (.inl ?_)
    rw [hk]
    rfl
  · have hw : req.Writes ↔ ∃ v, decoded.permission "canWrite" = some v ∧ v.truthy := by
      rw [writes_iff hc, hwrite, permission_iff hprod]
    constructor
    · rintro (⟨tenant, ⟨key, hk, -⟩, -⟩ | ⟨decoded', htoken', ⟨xs, ho, hmem⟩, hr, hwr⟩)
      · rw [hnone] at hk
        cases hk
      · refine .inr ⟨decoded', htoken', ?_, ⟨true, hr⟩, fun hwrites => ⟨true, hwr hwrites⟩⟩
        cases xs with
        | nil => cases hmem
        | cons x xs => exact ⟨x, xs, ho⟩
    · rintro (hk | ⟨decoded', htoken', ⟨x, xs, ho⟩, hb, hbw⟩)
      · rw [hnone] at hk
        cases hk
      · cases htoken.unique htoken'
        exact .inr ⟨decoded, htoken, ⟨x :: xs, ho, mem_of_not_outsider hout ho⟩,
          DecodedToken.permission_of_bool hb ((permission_iff hprod).mp hread),
          fun hwrites => DecodedToken.permission_of_bool (hbw hwrites) (hw.mp hwrites)⟩

/-! ### Tokens with and without organizations -/

/-- A token of a user with all permissions on the payments, and these organizations. -/
def sampleToken (organizations : Option Json) : DecodedToken where
  uid := "user"
  productPermissions :=
    some (.obj [("payments", .obj [("canRead", .bool true), ("canWrite", .bool true)])])
  organizations

/-- The production environment in which the token service accepts one token. -/
def productionEnv (organizations : Option Json) : AuthEnv where
  nodeEnv := "production"
  apiKeys := []
  compare _ _ := false
  now := 0
  firebase := some fun token => if token = "t" then some (sampleToken organizations) else none

def sampleHeaders : Headers := [("authorization", "Bearer t"), ("x-organization-id", "org")]

theorem authorized_sample : ∃ req ctx,
    authorize (productionEnv (some (.arr [.str "org"]))) sampleHeaders = .ok req ∧
    req.orgContext = some ctx ∧
    (Authorized (productionEnv (some (.arr [.str "org"]))) sampleHeaders ctx req ↔
      (sampleHeaders.truthy "x-api-key").isSome ∨ ∃ decoded,
        CarriesToken (productionEnv (some (.arr [.str "org"]))) sampleHeaders decoded ∧
          decoded.Explicit req) :=
  ⟨_, sampleCtx, rfl, rfl,
    authorized_iff_member_claim (productionEnv (some (.arr [.str "org"]))) sampleHeaders _
      sampleCtx rfl rfl rfl⟩

/-- A token without the claim passes for an organization of the caller's choice. -/
theorem outsider_admitted : ¬ ∀ (env : AuthEnv) (headers : Headers) (req : Request)
    (ctx : OrgContext), env.nodeEnv = "production" → authorize env headers = .ok req →
    req.orgContext = some ctx → Authorized env headers ctx req := by
  intro h
  rcases h (productionEnv none) sampleHeaders _ sampleCtx rfl rfl rfl with
    ⟨tenant, ⟨key, hk, -⟩, -⟩ | ⟨decoded, ⟨token, hb, hv⟩, ⟨xs, ho, -⟩, -⟩
  · cases hk
  · cases hb
    cases hv
    cases ho

end Pasarela
