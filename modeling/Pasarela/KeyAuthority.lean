import Pasarela.ApiKeys
import Pasarela.Conc.History
import Pasarela.Conc.Owned
import Pasarela.KeyAdmin
import Pasarela.Store.Journal

/-!
# What the requests about API keys know

* `PassedAt`: a request passed its guard: its key opened a row of the tenant then.
* `LogTells`: what an entry of the audit log says is so.
* `AdminInv`: the rows of a tenant change only by a request that passed its guard for that tenant; the
  entries tell the truth if they did before, one at most for the creation of a key; and
  `lastUsedAt` is the time of a use.
* `AdminStage`: how far a request is, with what it knows (`adminFact`). A request that inserted a row
  owns it until its entry is written.
* `adminProto`: the protocol. `AdminInv.next` is the rule for a request.
-/

namespace Pasarela

open Conc (Any Event Owning Proto getElem?_snoc getElem?_snoc_of_some lt_of_getElem?
  replay replay_snoc)
open Store (AskedAt Journal.Right Table)

/-! ## The rows of the keys -/

/-- The row later: what a `revoke` changes apart, it is the same. -/
structure ApiKeyRow.Later (row row' : ApiKeyRow) : Prop where
  id : row'.id = row.id
  tenantId : row'.tenantId = row.tenantId
  label : row'.label = row.label
  hashPrefix : row'.hashPrefix = row.hashPrefix
  expiresAt : row'.expiresAt = row.expiresAt
  active : row.active = false → row'.active = false

theorem ApiKeyRow.Later.refl (row : ApiKeyRow) : row.Later row := ⟨rfl, rfl, rfl, rfl, rfl, fun h => h⟩

/-- No row is lost, and no key that is not active gets active again. -/
def KeyStore.Grows (s s' : KeyStore) : Prop := ∀ row ∈ s, ∃ row' ∈ s', row.Later row'

theorem KeyStore.Grows.refl (s : KeyStore) : KeyStore.Grows s s := fun row hr => ⟨row, hr, .refl row⟩

/-- The rows of the tenant are the same. -/
def SameKeys (tenantId : String) (s s' : KeyStore) : Prop :=
  Table.Agree (fun row => row.tenantId = tenantId) s s'

section Rows

variable {s s' : KeyStore} {row : ApiKeyRow} {now : Nat} {tenantId : String}

theorem KeyStore.grows_insert (h : s.insert row = .ok s') : KeyStore.Grows s s' :=
  fun a ha => ⟨a, (Table.mem_insert h).mpr (.inl ha), .refl a⟩

theorem KeyStore.grows_revoke {id : String}
    (h : s.update id (setRevoked now) (keeps_setRevoked now) = some (row, s')) :
    KeyStore.Grows s s' := by
  intro a ha
  obtain ⟨old, hold, hid, rfl, -⟩ := Table.update_some h
  by_cases haid : a.id = id
  · rw [Table.eq_of_key ha hold (haid.trans hid.symm)]
    exact ⟨_, (Table.mem_update h).mpr (.inr rfl), rfl, rfl, rfl, rfl, rfl, fun _ => rfl⟩
  · exact ⟨a, (Table.mem_update h).mpr (.inl ⟨ha, haid⟩), .refl a⟩

/-- An insert is the row of its tenant. -/
theorem SameKeys.of_insert (h : s.insert row = .ok s') (hne : row.tenantId ≠ tenantId) :
    SameKeys tenantId s s' :=
  Table.Agree.refl.insert_other hne h

/-- A revocation is of the row of one tenant. -/
theorem SameKeys.of_revoke {id : String} {a : ApiKeyRow} (ha : a ∈ s) (hid : a.id = id)
    (h : s.update id (setRevoked now) (keeps_setRevoked now) = some (row, s'))
    (hne : a.tenantId ≠ tenantId) : SameKeys tenantId s s' := by
  obtain ⟨old, hold, hoid, rfl, -⟩ := Table.update_some h
  have hof : ∀ x ∈ s, x.id = id → x.tenantId ≠ tenantId := fun x hx hxid => by
    rw [Table.eq_of_key hx ha (hxid.trans hid.symm)]
    exact hne
  exact Table.Agree.refl.update_other h (hof old hold hoid) hof

end Rows

/-! ## The invariant -/

def AdminCall.rawKey? : AdminCall → Option String
  | .request headers _ => headers.truthy "x-api-key"
  | _ => none

/-- What `validate` asks for: the key `k` opens the row `id`, which is of the tenant. -/
def KeyAdmin.Opens (b : Bcrypt) (s : KeyAdmin) (now : Nat) (k tenantId id : String) : Prop :=
  Js.startsWith k "pk_" ∧
    ∃ row ∈ s.keys, row.id = id ∧ row.tenantId = tenantId ∧ row.Opens b s.tenants now k

/-- A row of the tenant with what a `create` returned. -/
def KeyAdmin.Has (s : KeyAdmin) (tenantId label : String) (result : CreateApiKeyResult) : Prop :=
  ∃ row ∈ s.keys, row.id = result.id ∧ row.tenantId = tenantId ∧ row.label = label ∧
    row.hashPrefix = result.hashPrefix ∧ row.expiresAt = result.expiresAt

def KeyAdmin.Revoked (s : KeyAdmin) (tenantId id : String) : Prop :=
  ∃ row ∈ s.keys, row.id = id ∧ row.tenantId = tenantId ∧ row.active = false

/-- What an entry of the audit log says is so. -/
structure LogTells (s : KeyAdmin) (log : AuditLog) : Prop where
  created : log.action = "apikey.created" → ∃ label result, s.Has log.tenantId label result ∧
    log.resourceId = result.id ∧
      log.after = (KeyAdminService.createdEntry log.tenantId label result).after
  revoked : log.action = "apikey.revoked" → s.Revoked log.tenantId log.resourceId

/-- The entry for the creation of the key `id`. -/
def AuditLog.Creates (log : AuditLog) (id : String) : Prop :=
  log.action = "apikey.created" ∧ log.resourceId = id

/-- The audit log tells the truth, and of the creation of a key once at most. -/
abbrev KeyAdmin.AuditOk (s : KeyAdmin) : Prop :=
  Journal.Right (LogTells s) AuditLog.Creates s.auditLogs.rows

section Run

variable {ι : Type} (b : Bcrypt) (calls : ι → AdminCall) (s₀ : KeyAdmin)
  (tr : List (ι × Event adminMachine))

/-- At the place `i` the request `t` passed its guard (module doc). -/
structure PassedAt (t : ι) (tenantId id : String) (i : Nat) : Prop where
  query : ∃ e hashPrefix k, tr[i]? = some (t, e) ∧ e.op = .findCandidates hashPrefix ∧
    (calls t).rawKey? = some k ∧ (replay s₀ (tr.take i)).Opens b e.dec.now k tenantId id

/-- The request passed its guard for the tenant. -/
def Passed (t : ι) (tenantId : String) : Prop := ∃ id i, PassedAt b calls s₀ tr t tenantId id i

/-- The key `id` was used at the time `now`, by a request that passed its guard with it. -/
def UsedAt (id : String) (now : Nat) : Prop :=
  ∃ t tenantId i j e, i < j ∧ PassedAt b calls s₀ tr t tenantId id i ∧ tr[j]? = some (t, e) ∧
    e.op = .touch id ∧ e.dec.now = now

/-- The rows of the tenant that the request at the place `j` changed. -/
def ChangedAt (tenantId : String) (j : Nat) : Prop :=
  ¬ SameKeys tenantId (replay s₀ (tr.take j)).keys (replay s₀ (tr.take (j + 1))).keys

/-- The column `lastUsedAt` of the row, now or when an update that is under way ends. -/
def KeyAdmin.Told (s : KeyAdmin) (id : String) (now : Nat) : Prop :=
  s.lastUsedAt id = some now ∨ (id, now) ∈ s.touches

/-- What holds after the requests `tr` from `s₀` (module doc). -/
structure AdminInv (s : KeyAdmin) : Prop where
  replayed : s = replay s₀ tr
  changes : ∀ j < tr.length, ∀ tenantId, ChangedAt s₀ tr tenantId j → ∃ t e i id,
    tr[j]? = some (t, e) ∧ i < j ∧ PassedAt b calls s₀ tr t tenantId id i
  told : ∀ id now, s.Told id now → s₀.Told id now ∨ UsedAt b calls s₀ tr id now
  audit : s₀.AuditOk → s.AuditOk

end Run

/-- The rows of the tenant, newest first. -/
def KeyAdmin.Lists (s : KeyAdmin) (tenantId : String) (rows : List ListedKey) : Prop :=
  rows.Perm ((s.keys.rows.filter fun row => row.tenantId = tenantId).map s.listed) ∧
    rows.Pairwise fun row row' => row'.createdAt ≤ row.createdAt

inductive AdminStage where
  | idle
  /-- Its key opened a row of the tenant. -/
  | passed (tenantId id : String)
  /-- It inserted a row. -/
  | made (tenantId label : String) (result : CreateApiKeyResult)
  /-- It found a row to revoke. -/
  | found (tenantId keyId : String)
  /-- It revoked a row. -/
  | revoked (tenantId keyId : String)
  /-- It answered. -/
  | answered (tenantId : String) (a : AdminAnswer)

section Run

variable {ι : Type} (b : Bcrypt) (calls : ι → AdminCall) (s₀ : KeyAdmin)

/-- The entry that the query is for. -/
def keyEntryOf : Event adminMachine → Option AuditLog
  | ⟨.auditLog entry, d, _⟩ => some (newKeyLog d entry)
  | _ => none

/-- The request has asked for an entry with the action for the resource, which is in the audit log,
or the database refused it. -/
def Logged (t : ι) (action resourceId : String)
    (x : KeyAdmin × List (ι × Event adminMachine)) : Prop :=
  ∃ i log, AskedAt (M := adminMachine) (·.auditLogs.rows) keyEntryOf s₀ x.2 t i log
    x.1.auditLogs.rows ∧ log.action = action ∧ log.resourceId = resourceId

/-- What the answer of a request of the tenant tells. -/
def AnswerTells (t : ι) (tenantId : String) (x : KeyAdmin × List (ι × Event adminMachine)) :
    AdminAnswer → Prop
  | .created result =>
    (∃ label, x.1.Has tenantId label result) ∧ Logged s₀ t "apikey.created" result.id x
  | .listed rows => ∃ j ≤ x.2.length, (replay s₀ (x.2.take j)).Lists tenantId rows
  | .done => ∃ headers keyId, calls t = .request headers (.revoke keyId) ∧
    x.1.Revoked tenantId keyId ∧ Logged s₀ t "apikey.revoked" keyId x

/-- What a request knows: the state, and the requests made so far. -/
def adminFact (t : ι) (g : AdminStage) (x : KeyAdmin × List (ι × Event adminMachine)) : Prop :=
  match g with
  | .idle => True
  | .passed tenantId id => ∃ i, PassedAt b calls s₀ x.2 t tenantId id i
  | .made tenantId label result => Passed b calls s₀ x.2 t tenantId ∧
    x.1.Has tenantId label result ∧
      (s₀.AuditOk → ∀ log ∈ x.1.auditLogs, ¬ log.Creates result.id)
  | .found tenantId keyId => Passed b calls s₀ x.2 t tenantId ∧
    ∃ row ∈ x.1.keys, row.id = keyId ∧ row.tenantId = tenantId
  | .revoked tenantId keyId => Passed b calls s₀ x.2 t tenantId ∧ x.1.Revoked tenantId keyId
  | .answered tenantId a => Passed b calls s₀ x.2 t tenantId ∧ AnswerTells calls s₀ t tenantId x a

/-- The key whose creation a request is to enter. -/
def AdminStage.owner : AdminStage → Option String
  | .made _ _ result => some result.id
  | _ => none

/-- The requests (module doc). -/
def adminOwning : Owning ι AdminStage (KeyAdmin × List (ι × Event adminMachine)) String where
  fact := adminFact b calls s₀
  owner := AdminStage.owner

def adminProto : Proto adminMachine ι AdminStage where
  allow := Any
  inv G s tr := (adminOwning b calls s₀).Inv G (s, tr) ∧ AdminInv b calls s₀ tr s

end Run

/-! ## One request -/

section Step

variable {ι : Type} {b : Bcrypt} {calls : ι → AdminCall} {s₀ s s' : KeyAdmin}
  {tr : List (ι × Event adminMachine)} {t u : ι} {e : Event adminMachine} {tenantId id : String}

theorem PassedAt.snoc {i : Nat} (h : PassedAt b calls s₀ tr t tenantId id i) :
    PassedAt b calls s₀ (tr ++ [(u, e)]) t tenantId id i := by
  obtain ⟨e', hashPrefix, k, hi, hop, hk, ho⟩ := h.query
  refine ⟨e', hashPrefix, k, getElem?_snoc_of_some hi, hop, hk, ?_⟩
  rw [List.take_append_of_le_length (lt_of_getElem? hi).le]
  exact ho

theorem PassedAt.lt {i : Nat} (h : PassedAt b calls s₀ tr t tenantId id i) : i < tr.length := by
  obtain ⟨e', _, _, hi, _⟩ := h.query
  exact lt_of_getElem? hi

theorem Passed.snoc (h : Passed b calls s₀ tr t tenantId) :
    Passed b calls s₀ (tr ++ [(u, e)]) t tenantId := by
  obtain ⟨id, i, hi⟩ := h
  exact ⟨id, i, hi.snoc⟩

theorem UsedAt.snoc {now : Nat} (h : UsedAt b calls s₀ tr id now) :
    UsedAt b calls s₀ (tr ++ [(u, e)]) id now := by
  obtain ⟨t, tenantId, i, j, e', hij, hp, hj, ht⟩ := h
  exact ⟨t, tenantId, i, j, e', hij, hp.snoc, getElem?_snoc_of_some hj, ht⟩

theorem KeyAdmin.Has.grows {label : String} {result : CreateApiKeyResult}
    (h : s.Has tenantId label result) (hg : KeyStore.Grows s.keys s'.keys) :
    s'.Has tenantId label result := by
  obtain ⟨row, hr, hid, hten, hlabel, hpre, hexp⟩ := h
  obtain ⟨row', hr', hl⟩ := hg row hr
  exact ⟨row', hr', hl.id.trans hid, hl.tenantId.trans hten, hl.label.trans hlabel,
    hl.hashPrefix.trans hpre, hl.expiresAt.trans hexp⟩

theorem KeyAdmin.Revoked.grows (h : s.Revoked tenantId id)
    (hg : KeyStore.Grows s.keys s'.keys) : s'.Revoked tenantId id := by
  obtain ⟨row, hr, hid, hten, hact⟩ := h
  obtain ⟨row', hr', hl⟩ := hg row hr
  exact ⟨row', hr', hl.id.trans hid, hl.tenantId.trans hten, hl.active hact⟩

theorem LogTells.grows {log : AuditLog} (h : LogTells s log)
    (hg : KeyStore.Grows s.keys s'.keys) : LogTells s' log := by
  refine ⟨fun ha => ?_, fun ha => (h.revoked ha).grows hg⟩
  obtain ⟨label, result, hhas, hid⟩ := h.created ha
  exact ⟨label, result, hhas.grows hg, hid⟩

theorem KeyAdmin.AuditOk.grows (h : s.AuditOk) (hg : KeyStore.Grows s.keys s'.keys)
    (hl : s'.auditLogs = s.auditLogs) : s'.AuditOk := by
  rw [KeyAdmin.AuditOk, hl]
  exact h.mono fun log ht => ht.grows hg

/-- What a request knows stays so, if no entry is written that it is to write. -/
theorem adminFact_mono {g : AdminStage} (h : adminFact b calls s₀ t g (s, tr))
    (hg : KeyStore.Grows s.keys s'.keys) (hl : ∀ log ∈ s.auditLogs, log ∈ s'.auditLogs)
    (ho : ∀ id, g.owner = some id → ∀ log ∈ s'.auditLogs, log.Creates id → log ∈ s.auditLogs) :
    adminFact b calls s₀ t g (s', tr ++ [(u, e)]) := by
  have hlogged : ∀ action resourceId, Logged s₀ t action resourceId (s, tr) →
      Logged s₀ t action resourceId (s', tr ++ [(u, e)]) := by
    rintro action resourceId ⟨i, log, hasked, ha⟩
    exact ⟨i, log, hasked.snoc fun log hlog => hl log hlog, ha⟩
  cases g with
  | idle => trivial
  | passed tenantId id =>
    obtain ⟨i, hi⟩ := h
    exact ⟨i, hi.snoc⟩
  | made tenantId label result =>
    obtain ⟨hp, hhas, hnone⟩ := h
    exact ⟨hp.snoc, hhas.grows hg, fun h₀ log hlog hc => hnone h₀ log (ho _ rfl log hlog hc) hc⟩
  | found tenantId keyId =>
    obtain ⟨hp, row, hr, hid, hten⟩ := h
    obtain ⟨row', hr', hlater⟩ := hg row hr
    exact ⟨hp.snoc, row', hr', hlater.id.trans hid, hlater.tenantId.trans hten⟩
  | revoked tenantId keyId => exact ⟨h.1.snoc, h.2.grows hg⟩
  | answered tenantId a =>
    refine ⟨h.1.snoc, ?_⟩
    have ha := h.2
    cases a with
    | created result =>
      obtain ⟨⟨label, hhas⟩, hlog⟩ := ha
      exact ⟨⟨label, hhas.grows hg⟩, hlogged _ _ hlog⟩
    | listed rows =>
      obtain ⟨j, hj, hrows⟩ := ha
      refine ⟨j, hj.trans (by simp), ?_⟩
      rw [List.take_append_of_le_length hj]
      exact hrows
    | done =>
      obtain ⟨headers, keyId, hcall, hrev, hlog⟩ := ha
      exact ⟨headers, keyId, hcall, hrev.grows hg, hlogged _ _ hlog⟩

/-- **A request.** It passed its guard for the tenants whose rows it changes, `lastUsedAt` tells of a
use, and the audit log stays right. -/
theorem AdminInv.next (h : AdminInv b calls s₀ tr s) (hx : execAdmin e.op e.dec s = (e.ans, s'))
    (hkeys : ∀ tenantId, ¬ SameKeys tenantId s.keys s'.keys → Passed b calls s₀ tr t tenantId)
    (htold : ∀ id now, s'.Told id now → s.Told id now ∨ UsedAt b calls s₀ (tr ++ [(t, e)]) id now)
    (haudit : s₀.AuditOk → s'.AuditOk) : AdminInv b calls s₀ (tr ++ [(t, e)]) s' where
  replayed := by
    rw [replay_snoc, ← h.replayed]
    exact (congrArg Prod.snd hx).symm
  changes j hj tenantId hch := by
    rw [List.length_append, List.length_singleton] at hj
    rcases Nat.lt_succ_iff_lt_or_eq.mp hj with hlt | rfl
    · rw [ChangedAt, List.take_append_of_le_length hlt.le, List.take_append_of_le_length hlt] at hch
      obtain ⟨u, e', i, id, hju, hij, hp⟩ := h.changes j hlt tenantId hch
      exact ⟨u, e', i, id, getElem?_snoc_of_some hju, hij, hp.snoc⟩
    · have hst : replay s₀ (tr ++ [(t, e)]) = s' := by
        rw [replay_snoc, ← h.replayed]
        exact congrArg Prod.snd hx
      rw [ChangedAt, List.take_left, List.take_of_length_le (by simp), hst, ← h.replayed] at hch
      obtain ⟨id, i, hp⟩ := hkeys tenantId hch
      exact ⟨t, e, i, id, List.getElem?_concat_length, hp.lt, hp.snoc⟩
  told id now ht := by
    rcases htold id now ht with ht | hu
    · exact (h.told id now ht).imp_right UsedAt.snoc
    · exact .inr hu
  audit := haudit

section Moves

variable [DecidableEq ι] {G : ι → AdminStage} {g : AdminStage}

/-- A request, and what its thread knows afterwards: it writes the entry of no creation but the one
that it owns. -/
theorem admin_move (h : (adminProto b calls s₀).inv G s tr)
    (hx : execAdmin e.op e.dec s = (e.ans, s'))
    (hkeys : ∀ tenantId, ¬ SameKeys tenantId s.keys s'.keys → Passed b calls s₀ tr t tenantId)
    (htold : ∀ id now, s'.Told id now → s.Told id now ∨ UsedAt b calls s₀ (tr ++ [(t, e)]) id now)
    (haudit : s₀.AuditOk → s'.AuditOk) (hg : KeyStore.Grows s.keys s'.keys)
    (hl : ∀ log ∈ s.auditLogs, log ∈ s'.auditLogs)
    (hnew : ∀ id, ∀ log ∈ s'.auditLogs, log.Creates id → log ∈ s.auditLogs ∨ (G t).owner = some id)
    (hf : adminFact b calls s₀ t g (s', tr ++ [(t, e)]))
    (ho : ∀ id, g.owner = some id → ∀ u, (G u).owner ≠ some id) :
    (adminProto b calls s₀).inv (Function.update G t g) s' (tr ++ [(t, e)]) := by
  refine ⟨h.1.step hf (fun id hid => .inr (ho id hid)) fun u g' _ hu hne => ?_,
    h.2.next hx hkeys htold haudit⟩
  exact adminFact_mono hu hg hl fun id hid log hlog hc =>
    (hnew id log hlog hc).resolve_right (hne id hid)

theorem admin_quiet (h : (adminProto b calls s₀).inv G s tr)
    (hx : execAdmin e.op e.dec s = (e.ans, s')) (hk : s'.keys = s.keys)
    (hl : s'.auditLogs = s.auditLogs)
    (htold : ∀ id now, s'.Told id now → s.Told id now ∨ UsedAt b calls s₀ (tr ++ [(t, e)]) id now)
    (hf : adminFact b calls s₀ t g (s', tr ++ [(t, e)])) (ho : g.owner = none) :
    (adminProto b calls s₀).inv (Function.update G t g) s' (tr ++ [(t, e)]) := by
  have hg : KeyStore.Grows s.keys s'.keys := by
    rw [hk]
    exact .refl _
  refine admin_move h hx (fun tenantId hne => ?_) htold (fun h₀ => (h.2.audit h₀).grows hg hl) hg
    (fun log hlog => ?_) (fun id log hlog _ => ?_) hf fun id hid => ?_
  · rw [hk] at hne
    exact absurd Table.Agree.refl hne
  · rw [hl]
    exact hlog
  · rw [hl] at hlog
    exact .inl hlog
  · rw [ho] at hid
    cases hid

end Moves

end Step

end Pasarela
