import Pasarela.Conc.Acts
import Pasarela.KeyStore
import Pasarela.Machine

/-!
# The requests about API keys (`tenants/tenants.controller.ts`, `common/guards/api-key.guard.ts`)

* `KeyAdmin`: the table `TenantApiKey`, with the columns that nothing but `list` reads apart; the
  tenants; the audit log; and the updates of `lastUsedAt` that a request started and did not await.
* `adminMachine`: the queries. Those of `KeyStore` are the ones of `keyMachine`, and the programs of
  `ApiKeyService` there run in it as they are (`inAdmin`).
* `ApiKeyGuard`, `TenantsController`: a request with its headers. What the validation pipe makes of
  a body is an argument: `CreateApiKeyDto` is a body that it accepts.
* `AdminCall`: a request, an update of `lastUsedAt` that comes to its end, or a change of a tenant
  from outside.

The guard of the rate limit runs before, finds no tenant in the request and lets it pass. Logs are
left out.
-/

namespace Pasarela

open Conc (Machine Prog)
open Js (Json)
open Store (Table)

/-! ## Dates -/

/-- The digits of `n`, with zeros up to the width. -/
def padded (width n : Nat) : String :=
  String.ofList (List.replicate (width - (toString n).length) '0') ++ toString n

/-- The year, the month and the day of a day after 1970-01-01. -/
def civilDate (days : Nat) : Nat × Nat × Nat :=
  -- days since 0000-03-01, in eras of 400 years that begin in March
  let shifted := days + 719468
  let inEra := shifted % 146097
  let yearOfEra := (inEra - inEra / 1460 + inEra / 36524 - inEra / 146096) / 365
  let dayOfYear := inEra - (365 * yearOfEra + yearOfEra / 4 - yearOfEra / 100)
  let march := (5 * dayOfYear + 2) / 153
  let month := if march < 10 then march + 3 else march - 9
  (yearOfEra + shifted / 146097 * 400 + (if month ≤ 2 then 1 else 0), month,
    dayOfYear - (153 * march + 2) / 5 + 1)

/-- `new Date(ms).toISOString()`, which is what a date is in JSON. -/
def isoDate (ms : Nat) : String :=
  let (year, month, day) := civilDate (ms / 86400000)
  (if year ≤ 9999 then padded 4 year else "+" ++ padded 6 year) ++ "-" ++ padded 2 month ++ "-" ++
    padded 2 day ++ "T" ++ padded 2 (ms / 3600000 % 24) ++ ":" ++ padded 2 (ms / 60000 % 60) ++
    ":" ++ padded 2 (ms / 1000 % 60) ++ "." ++ padded 3 (ms % 1000) ++ "Z"

example : isoDate 1709210096789 = "2024-02-29T12:34:56.789Z" := by decide +kernel

/-! ## The shared state -/

/-- What the requests about API keys share (module doc). -/
structure KeyAdmin where
  keys : KeyStore
  /-- The column `createdAt`, by the id of the row. -/
  createdAt : String → Nat
  /-- The column `lastUsedAt`, by the id of the row. -/
  lastUsedAt : String → Option Nat
  tenants : String → TenantRow
  auditLogs : Table AuditLog.id AuditLog.id
  /-- The updates of `lastUsedAt` under way: the row and the time. -/
  touches : List (String × Nat)

/-- A row as `list` selects it. -/
structure ListedKey where
  id : String
  label : String
  hashPrefix : String
  active : Bool
  expiresAt : Option Nat
  revokedAt : Option Nat
  lastUsedAt : Option Nat
  createdAt : Nat
  deriving DecidableEq, Repr

namespace KeyAdmin

/-- The columns of a row that `list` selects. -/
def listed (s : KeyAdmin) (row : ApiKeyRow) : ListedKey where
  id := row.id
  label := row.label
  hashPrefix := row.hashPrefix
  active := row.active
  expiresAt := row.expiresAt
  revokedAt := row.revokedAt
  lastUsedAt := s.lastUsedAt row.id
  createdAt := s.createdAt row.id

/-- `orderBy: { createdAt: 'desc' }`. -/
def newestFirst (s : KeyAdmin) (row row' : ApiKeyRow) : Prop :=
  s.createdAt row'.id ≤ s.createdAt row.id

instance (s : KeyAdmin) : DecidableRel s.newestFirst :=
  fun row row' => inferInstanceAs (Decidable (s.createdAt row'.id ≤ s.createdAt row.id))

end KeyAdmin

/-! ## Requests -/

/-- What the environment decides at a query. `rank` is the order of rows that a query leaves open. -/
structure AdminDecision extends KeyDecision where
  rank : String → Nat := fun _ => 0

/-- The queries. -/
inductive AdminOp where
  | findCandidates (hashPrefix : String)
  /-- `void this.prisma.tenantApiKey.update({ .. lastUsedAt .. }).catch(() => {})`. -/
  | touch (id : String)
  | key (o : KeyOp)
  | findKeys (tenantId : String)
  | auditLog (entry : AuditEntry)
  /-- An update of `lastUsedAt` that is under way comes to its end. -/
  | settle (n : Nat)
  | setTenant (id : String) (row : TenantRow)

@[reducible] def AdminOp.Ans : AdminOp → Type
  | .findCandidates _ => List TenantApiKey
  | .touch _ => Unit
  | .key o => o.Ans
  | .findKeys _ => List ListedKey
  | .auditLog _ => Unit
  | .settle _ => Unit
  | .setTenant _ _ => Unit

/-- `@default(now())` of the row that an insert makes. -/
def stampCreated : (o : KeyOp) → Except Err o.Ans → Nat → (String → Nat) → String → Nat
  | .insertKey _ _ _ _ _, .ok row, now, createdAt => Function.update createdAt row.id now
  | _, _, _, createdAt => createdAt

/-- The row of the audit log. -/
def newKeyLog (d : AdminDecision) (entry : AuditEntry) : AuditLog :=
  newAuditLog { now := d.now, newId := fun _ => d.newId } entry

/-- `AuditService.log`: what makes the insert fail is caught. -/
def logEntry (d : AdminDecision) (entry : AuditEntry) (s : KeyAdmin) : KeyAdmin :=
  match d.fail, s.auditLogs.insert (newKeyLog d entry) with
  | none, .ok t => { s with auditLogs := t }
  | _, _ => s

/-- What an update of `lastUsedAt` that is under way does in the end. -/
def settleTouch (d : AdminDecision) (n : Nat) (s : KeyAdmin) : KeyAdmin :=
  let rest := { s with touches := s.touches.eraseIdx n }
  match d.fail, s.touches[n]? with
  | none, some (id, usedAt) =>
    if (s.keys.find id).isSome then
      { rest with lastUsedAt := Function.update s.lastUsedAt id (some usedAt) }
    else rest
  | _, _ => rest

/-- The rows in the order in which a query without one returns them. -/
def inSomeOrder (d : AdminDecision) (rows : List ApiKeyRow) : List ApiKeyRow :=
  rows.insertionSort fun a b => d.rank a.id ≤ d.rank b.id

def execAdmin : (o : AdminOp) → AdminDecision → KeyAdmin → Except Err o.Ans × KeyAdmin
  | .findCandidates hashPrefix, d, s =>
    match d.fail with
    | some e => (.error e, s)
    | none => (.ok (((inSomeOrder d s.keys.rows).map (·.withTenant s.tenants)).filter
        (ApiKeyService.isCandidate d.now hashPrefix)), s)
  | .touch id, d, s => (.ok (), { s with touches := s.touches ++ [(id, d.now)] })
  | .key o, d, s =>
    let r := keyMachine.exec o d.toKeyDecision s.keys
    (r.1, { s with keys := r.2, createdAt := stampCreated o r.1 d.now s.createdAt })
  | .findKeys tenantId, d, s =>
    match d.fail with
    | some e => (.error e, s)
    | none => (.ok ((((inSomeOrder d s.keys.rows).filter fun row => row.tenantId = tenantId)
        |>.insertionSort s.newestFirst).map s.listed), s)
  | .auditLog entry, d, s => (.ok (), logEntry d entry s)
  | .settle n, d, s => (.ok (), settleTouch d n s)
  | .setTenant id row, _, s => (.ok (), { s with tenants := Function.update s.tenants id row })

abbrev adminMachine : Machine where
  Op := AdminOp
  Ans := AdminOp.Ans
  Dec := AdminDecision
  St := KeyAdmin
  Err := Err
  exec := execAdmin

/-! ## The services -/

abbrev AdminService (α : Type) : Type := Prog adminMachine α

def adminRequest (o : AdminOp) : AdminService o.Ans := Prog.perform (M := adminMachine) o

/-- A program of `KeyStore`. -/
def inAdmin {α : Type} : KeyService α → AdminService α
  | .ret a => .ret a
  | .throw e => .throw e
  | .op o k => .op (M := adminMachine) (.key o) fun r => inAdmin (k r)

namespace KeyAdminService

/-- The entry for a key that was created. -/
def createdEntry (tenantId label : String) (result : CreateApiKeyResult) : AuditEntry where
  tenantId := tenantId
  organizationId := none
  actorId := none
  action := "apikey.created"
  resourceId := result.id
  resourceType := "TenantApiKey"
  after := some (.obj [("label", .str label), ("prefix", .str result.hashPrefix),
    ("expiresAt", (result.expiresAt.map fun ms => Json.str (isoDate ms)).getD .null)])

/-- The entry for a key that was revoked. -/
def revokedEntry (tenantId keyId : String) : AuditEntry where
  tenantId := tenantId
  organizationId := none
  actorId := none
  action := "apikey.revoked"
  resourceId := keyId
  resourceType := "TenantApiKey"
  before := some (.obj [("active", .bool true)])
  after := some (.obj [("active", .bool false)])

def create (hash : String → String → String) (tenantId label : String)
    (expiresInDays : Option Nat) (draw : Draw) : AdminService CreateApiKeyResult := do
  let result ← inAdmin (ApiKeyService.create hash tenantId label expiresInDays draw)
  adminRequest (.auditLog (createdEntry tenantId label result))
  return result

def revoke (keyId tenantId : String) : AdminService Unit := do
  inAdmin (ApiKeyService.revoke keyId tenantId)
  adminRequest (.auditLog (revokedEntry tenantId keyId))

def list (tenantId : String) : AdminService (List ListedKey) := adminRequest (.findKeys tenantId)

def validate (compare : String → String → Bool) (rawKey : String) :
    AdminService (Option TenantRef) :=
  if Js.startsWith rawKey "pk_" then do
    let candidates ← adminRequest (.findCandidates (Js.slice rawKey 3 (3 + ApiKeyService.prefixLen)))
    match candidates.find? fun k => k.tenantActive && compare rawKey k.keyHash with
    | none => return none
    | some candidate => do
      adminRequest (.touch candidate.id)
      return some candidate.tenant
  else return none

end KeyAdminService

/-- `ApiKeyGuard.canActivate`: the tenant that it writes into the request. -/
def ApiKeyGuard.canActivate (compare : String → String → Bool) (headers : Headers) :
    AdminService TenantRef :=
  match headers.truthy "x-api-key" with
  | none => .throw (.unauthorized "Falta el header x-api-key")
  | some rawKey => do
    match ← KeyAdminService.validate compare rawKey with
    | none => .throw (.unauthorized "API key inválida o expirada")
    | some tenant => return tenant

/-! ## The routes -/

/-- `CreateApiKeyDto`, as the validation pipe accepts it. -/
structure CreateApiKeyDto where
  label : String
  expiresInDays : Option Nat
  days : ∀ days ∈ expiresInDays, 1 ≤ days ∧ days ≤ 365

/-- A request after its guard. The body of a `create` is a value that the validation pipe accepts, or
its error. -/
inductive KeyRoute where
  | create (body : Except Err CreateApiKeyDto) (draw : Draw)
  | list
  | revoke (keyId : String)

inductive AdminAnswer where
  | created (result : CreateApiKeyResult)
  | listed (rows : List ListedKey)
  | done

namespace TenantsController

/-- The handler of the route, for the tenant of the request. -/
def handle (hash : String → String → String) (t : TenantRef) : KeyRoute → AdminService AdminAnswer
  | .create body draw => do
    let dto ← .ofExcept body
    return .created (← KeyAdminService.create hash t.id dto.label dto.expiresInDays draw)
  | .list => do return .listed (← KeyAdminService.list t.id)
  | .revoke keyId => do
    KeyAdminService.revoke keyId t.id
    return .done

end TenantsController

/-- What happens to the API keys (module doc). -/
inductive AdminCall where
  | request (headers : Headers) (route : KeyRoute)
  | settle (n : Nat)
  | setTenant (id : String) (row : TenantRow)

def AdminCall.run (hash : String → String → String) (compare : String → String → Bool) :
    AdminCall → AdminService AdminAnswer
  | .request headers route => do
    let t ← ApiKeyGuard.canActivate compare headers
    TenantsController.handle hash t route
  | .settle n => do
    adminRequest (.settle n)
    return .done
  | .setTenant id row => do
    adminRequest (.setTenant id row)
    return .done

end Pasarela
