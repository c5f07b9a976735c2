import Pasarela.Conc.Prog
import Pasarela.Guards
import Pasarela.Store.Table

/-!
# The API keys of the tenants (`tenants/api-key.service.ts`)

* `KeyStore`: the table `TenantApiKey`. `keyMachine`: the queries of `ApiKeyService.create` and
  `revoke` on it, which the database may fail.
* `Draw`: what the libraries and the clock give a `create`. `hash` is `bcrypt.hash` with its salt.
* `KeyStore.joined`: the rows with their tenants, which `ApiKeyService.validate` reads.

The audit log is left out: nothing reads it, and `AuditService.log` never throws. A date out of the
range of `Date` is one of the failures of the insert.
-/

namespace Pasarela

open Conc (Machine Prog)
open Store (Table)

structure ApiKeyRow where
  id : String
  tenantId : String
  label : String
  keyHash : String
  hashPrefix : String
  active : Bool
  expiresAt : Option Nat
  revokedAt : Option Nat
  deriving DecidableEq, Repr

abbrev KeyStore : Type := Table ApiKeyRow.id ApiKeyRow.id

/-- The columns of a tenant that `validate` reads. -/
structure TenantRow where
  name : String
  active : Bool
  deriving DecidableEq, Repr

/-- The row with its tenant. -/
def ApiKeyRow.withTenant (tenants : String → TenantRow) (row : ApiKeyRow) : TenantApiKey where
  id := row.id
  keyHash := row.keyHash
  hashPrefix := row.hashPrefix
  active := row.active
  expiresAt := row.expiresAt
  tenant := ⟨row.tenantId, (tenants row.tenantId).name⟩
  tenantActive := (tenants row.tenantId).active

/-- The rows with their tenants. -/
def KeyStore.joined (s : KeyStore) (tenants : String → TenantRow) : List TenantApiKey :=
  s.rows.map (ApiKeyRow.withTenant tenants)

/-! ## Requests -/

/-- What the environment decides at a query. -/
structure KeyDecision where
  fail : Option Err := none
  now : Nat := 0
  newId : String := ""

/-- The queries of the service. -/
inductive KeyOp where
  | insertKey (tenantId label keyHash hashPrefix : String) (expiresAt : Option Nat)
  | findKey (id tenantId : String)
  | revokeKey (id : String)

@[reducible] def KeyOp.Ans : KeyOp → Type
  | .insertKey _ _ _ _ _ => ApiKeyRow
  | .findKey _ _ => Option ApiKeyRow
  | .revokeKey _ => ApiKeyRow

/-- `active: false, revokedAt: new Date()`. -/
def setRevoked (now : Nat) (row : ApiKeyRow) : ApiKeyRow :=
  { row with active := false, revokedAt := some now }

theorem keeps_setRevoked (now : Nat) : Table.Keeps ApiKeyRow.id ApiKeyRow.id (setRevoked now) :=
  ⟨fun _ => rfl, fun _ => rfl⟩

/-- The query, when the database works. -/
def execKey : (o : KeyOp) → KeyDecision → KeyStore → Except Err o.Ans × KeyStore
  | .insertKey tenantId label keyHash hashPrefix expiresAt, d, s =>
    let row : ApiKeyRow :=
      ⟨d.newId, tenantId, label, keyHash, hashPrefix, true, expiresAt, none⟩
    match s.insert row with
    | .ok s' => (.ok row, s')
    | .error _ => (.error (.uniqueViolation ["id"]), s)
  | .findKey id tenantId, _, s =>
    (.ok (s.rows.find? fun row => row.id = id ∧ row.tenantId = tenantId), s)
  | .revokeKey id, d, s =>
    match s.update id (setRevoked d.now) (keeps_setRevoked d.now) with
    | some (row, s') => (.ok row, s')
    | none => (.error .rowNotFound, s)

/-- The key store that the calls share. -/
abbrev keyMachine : Machine where
  Op := KeyOp
  Ans := KeyOp.Ans
  Dec := KeyDecision
  St := KeyStore
  Err := Err
  exec o d s :=
    match d.fail with
    | some e => (.error e, s)
    | none => execKey o d s

section Requests

variable {d : KeyDecision} {s s' : KeyStore}

theorem exec_key {o : KeyOp} {r : Except Err o.Ans} (h : keyMachine.exec o d s = (r, s')) :
    (∃ e, r = .error e ∧ s' = s) ∨ execKey o d s = (r, s') := by
  simp only [keyMachine] at h
  split at h
  · obtain ⟨rfl, rfl⟩ := Prod.mk.inj h
    exact .inl ⟨_, rfl, rfl⟩
  · exact .inr h

theorem exec_insertKey {tenantId label keyHash hashPrefix : String} {expiresAt : Option Nat}
    {r : Except Err ApiKeyRow}
    (h : keyMachine.exec (.insertKey tenantId label keyHash hashPrefix expiresAt) d s = (r, s')) :
    (∃ e, r = .error e ∧ s' = s) ∨ ∃ id,
      let row : ApiKeyRow := ⟨id, tenantId, label, keyHash, hashPrefix, true, expiresAt, none⟩
      r = .ok row ∧ s.insert row = .ok s' := by
  rcases exec_key h with he | h
  · exact .inl he
  simp only [execKey] at h
  split at h
  · rename_i t ht
    obtain ⟨rfl, rfl⟩ := Prod.mk.inj h
    exact .inr ⟨_, rfl, ht⟩
  · obtain ⟨rfl, rfl⟩ := Prod.mk.inj h
    exact .inl ⟨_, rfl, rfl⟩

theorem exec_findKey {id tenantId : String} {r : Except Err (Option ApiKeyRow)}
    (h : keyMachine.exec (.findKey id tenantId) d s = (r, s')) :
    s' = s ∧ ((∃ e, r = .error e) ∨ r = .ok none ∨
      ∃ row ∈ s, r = .ok (some row) ∧ row.id = id ∧ row.tenantId = tenantId) := by
  rcases exec_key h with ⟨e, rfl, rfl⟩ | h
  · exact ⟨rfl, .inl ⟨e, rfl⟩⟩
  obtain ⟨rfl, rfl⟩ := Prod.mk.inj h
  refine ⟨rfl, .inr ?_⟩
  cases hf : s.rows.find? fun row => row.id = id ∧ row.tenantId = tenantId with
  | none => exact .inl rfl
  | some row =>
    have hp := List.find?_some hf
    rw [decide_eq_true_eq] at hp
    exact .inr ⟨row, List.mem_of_find?_eq_some hf, rfl, hp.1, hp.2⟩

theorem exec_revokeKey {id : String} {r : Except Err ApiKeyRow}
    (h : keyMachine.exec (.revokeKey id) d s = (r, s')) :
    (∃ e, r = .error e ∧ s' = s) ∨ ∃ row, r = .ok row ∧
      s.update id (setRevoked d.now) (keeps_setRevoked d.now) = some (row, s') := by
  rcases exec_key h with he | h
  · exact .inl he
  simp only [execKey] at h
  split at h
  · rename_i row t ht
    obtain ⟨rfl, rfl⟩ := Prod.mk.inj h
    exact .inr ⟨_, rfl, ht⟩
  · obtain ⟨rfl, rfl⟩ := Prod.mk.inj h
    exact .inl ⟨_, rfl, rfl⟩

end Requests

/-! ## The service -/

abbrev KeyService (α : Type) : Type := Prog keyMachine α

/-- What `nanoid(32)`, `bcrypt` and `Date.now()` give a `create`. -/
structure Draw where
  random : String
  salt : String
  now : Nat
  deriving DecidableEq, Repr

structure CreateApiKeyResult where
  id : String
  rawKey : String
  hashPrefix : String
  expiresAt : Option Nat
  deriving DecidableEq, Repr

namespace ApiKeyService

/-- The prefix of a key: the first characters of its random part. -/
def keyPrefix (random : String) : String := Js.slice random 0 prefixLen

/-- The key with the random part `random`. -/
def rawKey (random : String) : String := "pk_" ++ keyPrefix random ++ "_" ++ random

/-- `expiresInDays ? new Date(Date.now() + expiresInDays * 24 * 60 * 60 * 1000) : null`. -/
def expiry (expiresInDays : Option Nat) (now : Nat) : Option Nat :=
  (expiresInDays.filter (· ≠ 0)).map fun days => now + days * 24 * 60 * 60 * 1000

def create (hash : String → String → String) (tenantId label : String)
    (expiresInDays : Option Nat) (draw : Draw) : KeyService CreateApiKeyResult := do
  let rawKey := rawKey draw.random
  let expiresAt := expiry expiresInDays draw.now
  let apiKey ← Prog.perform (M := keyMachine)
    (.insertKey tenantId label (hash draw.salt rawKey) (keyPrefix draw.random) expiresAt)
  return { id := apiKey.id, rawKey, hashPrefix := keyPrefix draw.random, expiresAt }

def revoke (keyId tenantId : String) : KeyService Unit := do
  let key ← Prog.perform (M := keyMachine) (.findKey keyId tenantId)
  match key with
  | none => .throw (.notFound "API key no encontrada")
  | some _ => do let _ ← Prog.perform (M := keyMachine) (.revokeKey keyId)

end ApiKeyService

inductive ApiKeyCall where
  | create (tenantId label : String) (expiresInDays : Option Nat) (draw : Draw)
  | revoke (keyId tenantId : String)

inductive ApiKeyAnswer where
  | created (result : CreateApiKeyResult)
  | revoked

def ApiKeyCall.run (hash : String → String → String) : ApiKeyCall → KeyService ApiKeyAnswer
  | .create tenantId label expiresInDays draw => do
    return .created (← ApiKeyService.create hash tenantId label expiresInDays draw)
  | .revoke keyId tenantId => do
    ApiKeyService.revoke keyId tenantId
    return .revoked

end Pasarela
