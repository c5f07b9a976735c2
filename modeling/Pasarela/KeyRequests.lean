import Pasarela.KeyAuthority

/-!
# Who changes the API keys of a tenant, and what the audit log tells

Any run of requests of `TenantsController`, of updates of `lastUsedAt` that come to their end in any
order, and of changes of the tenants, from any rows (`startAdmin`).

* `adminCall_wp`: every call keeps the protocol.
* `key_changes_authorized`: the rows of a tenant are changed by requests that bear a key of it.
* `locked_out`: a tenant without a key gets none.
* `key_audit_tells`: the entries of the audit log.
* `last_used_tells`: the column `lastUsedAt`.
-/

namespace Pasarela

open Conc (Any Conf Event Prog Proto replay replay_snoc)
open Store (Table)

/-! ## The queries -/

section Queries

variable {d : AdminDecision} {s s' : KeyAdmin}

theorem mem_inSomeOrder {rows : List ApiKeyRow} {row : ApiKeyRow} :
    row ∈ inSomeOrder d rows ↔ row ∈ rows :=
  List.mem_insertionSort _

/-- The candidates are rows with the prefix that are neither revoked nor expired. -/
theorem exec_findCandidates {hashPrefix : String} {r : Except Err (List TenantApiKey)}
    (h : execAdmin (.findCandidates hashPrefix) d s = (r, s')) :
    s' = s ∧ ((∃ e, r = .error e) ∨ ∃ rows, r = .ok rows ∧ ∀ k ∈ rows,
      ApiKeyService.isCandidate d.now hashPrefix k ∧ ∃ row ∈ s.keys, row.withTenant s.tenants = k) := by
  simp only [execAdmin] at h
  split at h
  · obtain ⟨rfl, rfl⟩ := Prod.mk.inj h
    exact ⟨rfl, .inl ⟨_, rfl⟩⟩
  · obtain ⟨rfl, rfl⟩ := Prod.mk.inj h
    refine ⟨rfl, .inr ⟨_, rfl, fun k hk => ?_⟩⟩
    obtain ⟨hk, hcand⟩ := List.mem_filter.mp hk
    obtain ⟨row, hr, rfl⟩ := List.mem_map.mp hk
    exact ⟨hcand, row, mem_inSomeOrder.mp hr, rfl⟩

theorem exec_findKeys {tenantId : String} {r : Except Err (List ListedKey)}
    (h : execAdmin (.findKeys tenantId) d s = (r, s')) :
    s' = s ∧ ((∃ e, r = .error e) ∨ ∃ rows, r = .ok rows ∧ s.Lists tenantId rows) := by
  simp only [execAdmin] at h
  split at h
  · obtain ⟨rfl, rfl⟩ := Prod.mk.inj h
    exact ⟨rfl, .inl ⟨_, rfl⟩⟩
  · obtain ⟨rfl, rfl⟩ := Prod.mk.inj h
    refine ⟨rfl, .inr ⟨_, rfl, ?_, ?_⟩⟩
    · refine List.Perm.map _ ((List.perm_insertionSort _ _).trans ?_)
      exact (List.perm_insertionSort _ _).filter _
    · rw [List.pairwise_map]
      have : Std.Total s.newestFirst := ⟨fun a a' => Nat.le_total _ _⟩
      have : IsTrans ApiKeyRow s.newestFirst := ⟨fun a a' a'' h h' => Nat.le_trans h' h⟩
      exact List.pairwise_insertionSort s.newestFirst _

theorem exec_adminKey {o : KeyOp} {r : Except Err o.Ans} (h : execAdmin (.key o) d s = (r, s')) :
    keyMachine.exec o d.toKeyDecision s.keys = (r, s'.keys) ∧ s'.auditLogs = s.auditLogs ∧
      s'.lastUsedAt = s.lastUsedAt ∧ s'.touches = s.touches := by
  obtain ⟨rfl, rfl⟩ := Prod.mk.inj h
  exact ⟨rfl, rfl, rfl, rfl⟩

theorem exec_logEntry {entry : AuditEntry} {r : Except Err Unit}
    (h : execAdmin (.auditLog entry) d s = (r, s')) : r = .ok () ∧
      (s' = s ∨ ∃ t, s.auditLogs.insert (newKeyLog d entry) = .ok t ∧
        s' = { s with auditLogs := t }) := by
  obtain ⟨rfl, rfl⟩ := Prod.mk.inj h
  refine ⟨rfl, ?_⟩
  unfold logEntry
  split
  · rename_i t _ ht
    exact .inr ⟨t, ht, rfl⟩
  · exact .inl rfl

/-- An update of `lastUsedAt` that ends tells what it was to tell, or nothing. -/
theorem settle_told {n : Nat} {id : String} {now : Nat} (h : (settleTouch d n s).Told id now) :
    s.Told id now := by
  have hrest : (id, now) ∈ s.touches.eraseIdx n → s.Told id now :=
    fun hm => .inr (List.mem_of_mem_eraseIdx hm)
  unfold settleTouch at h
  split at h
  · rename_i id' usedAt _ hn
    simp only at h
    split at h
    · rcases h with h | h
      · change Function.update s.lastUsedAt id' (some usedAt) id = some now at h
        by_cases hid : id = id'
        · subst hid
          rw [Function.update_self] at h
          cases h
          exact .inr (List.mem_of_getElem? hn)
        · rw [Function.update_of_ne hid] at h
          exact .inl h
      · exact hrest h
    · exact h.imp_right fun hm => List.mem_of_mem_eraseIdx hm
  · exact h.imp_right fun hm => List.mem_of_mem_eraseIdx hm

theorem settle_rest {n : Nat} : (settleTouch d n s).keys = s.keys ∧
    (settleTouch d n s).auditLogs = s.auditLogs := by
  unfold settleTouch
  split
  · simp only
    split
    · exact ⟨rfl, rfl⟩
    · exact ⟨rfl, rfl⟩
  · exact ⟨rfl, rfl⟩

/-- No query takes an entry out of the audit log. -/
theorem exec_auditLogs {o : AdminOp} {r : Except Err o.Ans} (h : execAdmin o d s = (r, s')) :
    s.auditLogs.rows <+: s'.auditLogs.rows := by
  cases o with
  | findCandidates hashPrefix => rw [(exec_findCandidates h).1]
  | touch id =>
    obtain ⟨-, rfl⟩ := Prod.mk.inj h
    exact List.prefix_rfl
  | key o => rw [(exec_adminKey h).2.1]
  | findKeys tenantId => rw [(exec_findKeys h).1]
  | auditLog entry =>
    obtain ⟨-, rfl | ⟨t, hins, rfl⟩⟩ := exec_logEntry h
    · exact List.prefix_rfl
    · rw [(Table.insert_ok hins).1]
      exact List.prefix_append _ _
  | settle n =>
    obtain ⟨-, rfl⟩ := Prod.mk.inj h
    rw [settle_rest.2]
  | setTenant id row =>
    obtain ⟨-, rfl⟩ := Prod.mk.inj h
    exact List.prefix_rfl

end Queries

/-! ## The programs -/

section Calls

variable {ι : Type} [DecidableEq ι] {b : Bcrypt} {calls : ι → AdminCall} {s₀ : KeyAdmin} {t : ι}
  {tenantId : String} {α β : Type}

/-- One query that changes neither rows nor entries nor `lastUsedAt`. -/
theorem ask_wp {o : AdminOp} {f : o.Ans → AdminService β} {Q : Except Err β → AdminStage → Prop}
    {g : AdminStage}
    (h : ∀ s tr d r s', adminFact b calls s₀ t g (s, tr) → AdminInv b calls s₀ tr s →
      execAdmin o d s = (r, s') → s'.keys = s.keys ∧ s'.auditLogs = s.auditLogs ∧
        (∀ id now, s'.Told id now →
          s.Told id now ∨ UsedAt b calls s₀ (tr ++ [(t, ⟨o, d, r⟩)]) id now) ∧
        ∃ g', g'.owner = none ∧ adminFact b calls s₀ t g' (s', tr ++ [(t, ⟨o, d, r⟩)]) ∧
          (∀ a, r = .ok a → (adminProto b calls s₀).WP t Q (f a) g') ∧
          ∀ e, r = .error e → Q (.error e) g') :
    (adminProto b calls s₀).WP t Q ((adminRequest o).bind f) g := by
  refine Proto.WP.perform_bind fun G s tr d r s' hG hi _ hx => ⟨trivial, ?_⟩
  have hfact : adminFact b calls s₀ t (G t) (s, tr) := hi.1.fact t
  rw [hG] at hfact
  obtain ⟨hk, hl, htold, g', ho, hf, hok, herr⟩ := h s tr d r s' hfact hi.2 hx
  refine ⟨g', admin_quiet hi hx hk hl htold hf ho, ?_⟩
  cases r with
  | ok a => exact hok a rfl
  | error e => exact herr e rfl

/-- The update of `lastUsedAt` that a request starts. -/
theorem touch_wp {tenant : TenantRef} {id : String} (htenant : tenant.id = tenantId) :
    (adminProto b calls s₀).WP t
      (fun r g => ∀ a, r = .ok (some a) → ∃ id, g = .passed a.id id)
      ((adminRequest (.touch id)).bind fun _ => .ret (some tenant)) (.passed tenantId id) := by
  refine ask_wp fun s tr d r s' hfact _ hx => ?_
  obtain ⟨i, hpassed⟩ := hfact
  obtain ⟨rfl, rfl⟩ := Prod.mk.inj hx
  refine ⟨rfl, rfl, fun id' now ht => ?_, .passed tenantId id, rfl, ⟨i, hpassed.snoc⟩,
    fun _ _ a ha => ?_, fun _ h => by cases h⟩
  · rcases ht with ht | ht
    · exact .inl (.inl ht)
    · rcases List.mem_append.mp ht with ht | ht
      · exact .inl (.inr ht)
      · rw [List.mem_singleton] at ht
        cases ht
        exact .inr ⟨t, tenantId, i, tr.length, _, hpassed.lt, hpassed.snoc, List.getElem?_concat_length, rfl,
          rfl⟩
  · cases ha
    exact ⟨id, by rw [htenant]⟩

/-- `validate`: a tenant that it returns has a row that the key opens. -/
theorem validate_wp {k : String} (hk : (calls t).rawKey? = some k) :
    (adminProto b calls s₀).WP t
      (fun r g => ∀ tenant, r = .ok (some tenant) → ∃ id, g = .passed tenant.id id)
      (KeyAdminService.validate b.compare k) .idle := by
  unfold KeyAdminService.validate
  split
  · rename_i hpk
    refine ask_wp fun s tr d r s' _ hinv hx => ?_
    obtain ⟨rfl, hans⟩ := exec_findCandidates hx
    refine ⟨rfl, rfl, fun _ _ h => .inl h, ?_⟩
    rcases hans with ⟨e, rfl⟩ | ⟨rows, rfl, hrows⟩
    · exact ⟨.idle, rfl, trivial, (fun _ h => by cases h), fun _ _ _ h => by cases h⟩
    cases hfind : rows.find? fun j => j.tenantActive && b.compare k j.keyHash with
    | none =>
      refine ⟨.idle, rfl, trivial, fun a ha => ?_, fun _ h => by cases h⟩
      cases ha
      rw [hfind]
      exact fun _ h => by cases h
    | some candidate =>
      -- the guard is passed here: the row that the loop stops at is one that the key opens
      obtain ⟨hcand, row, hr, rfl⟩ := hrows candidate (List.mem_of_find?_eq_some hfind)
      have hboth := List.find?_some hfind
      rw [Bool.and_eq_true] at hboth
      simp only [ApiKeyService.isCandidate, decide_eq_true_eq] at hcand
      have hopens : s'.Opens b d.now k row.tenantId row.id :=
        ⟨hpk, row, hr, rfl, rfl, hcand.1, hcand.2.1, hcand.2.2, hboth.1, hboth.2⟩
      refine ⟨.passed row.tenantId row.id, rfl, ⟨tr.length, ⟨_, _, k, List.getElem?_concat_length, rfl, hk, ?_⟩⟩,
        fun a ha => ?_, fun _ h => by cases h⟩
      · rw [List.take_left, ← hinv.replayed]
        exact hopens
      · cases ha
        rw [hfind]
        exact touch_wp rfl
  · exact fun _ h => by cases h

/-- The guard. -/
theorem guard_wp {headers : Headers} {route : KeyRoute} (hcall : calls t = .request headers route) :
    (adminProto b calls s₀).WP t (fun r g => ∀ tenant, r = .ok tenant → ∃ id, g = .passed tenant.id id)
      (ApiKeyGuard.canActivate b.compare headers) .idle := by
  unfold ApiKeyGuard.canActivate
  cases hk : headers.truthy "x-api-key" with
  | none => exact fun _ h => by cases h
  | some k =>
    have hkey : (calls t).rawKey? = some k := by
      rw [hcall]
      exact hk
    refine Proto.WP.bind ((validate_wp hkey).mono fun r g hr => ?_)
    rcases r with e | _ | tenant
    · exact fun _ h => by cases h
    · exact fun _ h => by cases h
    · intro tenant' h
      cases h
      exact hr tenant rfl

theorem inAdmin_bind (p : KeyService α) (f : α → KeyService β) :
    inAdmin (p.bind f) = (inAdmin p).bind fun a => inAdmin (f a) := by
  induction p with
  | ret a => rfl
  | throw e => rfl
  | op o k ih => exact congrArg (Prog.op (M := adminMachine) (.key o)) (funext ih)

theorem inAdmin_perform (o : KeyOp) :
    inAdmin (Prog.perform (M := keyMachine) o) = adminRequest (.key o) := by
  refine congrArg (Prog.op (M := adminMachine) (.key o)) (funext fun r => ?_)
  cases r with
  | ok a => rfl
  | error e => rfl

/-- The post-condition of a request of the tenant. -/
abbrev AnswersTenant (tenantId : String) (r : Except Err AdminAnswer) (g : AdminStage) : Prop :=
  ∀ a, r = .ok a → g = .answered tenantId a

theorem log_wp (tenantId : String) {entry : AuditEntry} {g : AdminStage} {a : AdminAnswer}
    (htells : ∀ s tr d, adminFact b calls s₀ t g (s, tr) → Passed b calls s₀ tr t tenantId ∧
      LogTells s (newKeyLog d entry) ∧ ∀ id, (newKeyLog d entry).Creates id →
        g.owner = some id ∧ (s₀.AuditOk → ∀ log ∈ s.auditLogs, ¬ log.Creates id))
    (hans : ∀ s tr s' e, adminFact b calls s₀ t g (s, tr) → s'.keys = s.keys →
      Logged s₀ t entry.action entry.resourceId (s', tr ++ [(t, e)]) →
        AnswerTells calls s₀ t tenantId (s', tr ++ [(t, e)]) a) :
    (adminProto b calls s₀).WP t (fun _ g => g = .answered tenantId a)
      (adminRequest (.auditLog entry)) g := by
  refine Proto.WP.perform fun G s tr d r s' hG hi _ hx => ⟨trivial, .answered tenantId a, ?_⟩
  have hfact : adminFact b calls s₀ t (G t) (s, tr) := hi.1.fact t
  rw [hG] at hfact
  obtain ⟨hp, hlog, hnew⟩ := htells s tr d hfact
  have hreplay : replay s₀ (tr ++ [(t, (⟨.auditLog entry, d, r⟩ : Event adminMachine))]) = s' := by
    rw [replay_snoc, ← hi.2.replayed]
    exact congrArg Prod.snd hx
  obtain ⟨rfl, rfl | ⟨logs, hins, rfl⟩⟩ := exec_logEntry hx
  · refine ⟨admin_quiet hi hx rfl rfl (fun _ _ h => .inl h) ⟨hp.snoc, ?_⟩ rfl, rfl⟩
    refine hans s' tr s' _ hfact rfl ⟨tr.length, newKeyLog d entry, .last rfl (.inr ?_), rfl, rfl⟩
    rw [hreplay, ← hi.2.replayed]
  · have hmem : newKeyLog d entry ∈ logs := (Table.mem_insert hins).mpr (.inr rfl)
    have haudit : s₀.AuditOk → ({ s with auditLogs := logs } : KeyAdmin).AuditOk := fun h₀ =>
      ((hi.2.audit h₀).insert hins hlog fun id hc => (hnew id hc).2 h₀).mono fun log ht =>
        ht.grows (.refl _)
    refine ⟨admin_move hi hx (fun T hne => absurd Table.Agree.refl hne) (fun _ _ h => .inl h) haudit
      (.refl _) (fun log hl => (Table.mem_insert hins).mpr (.inl hl)) (fun id log hl hc => ?_)
      ⟨hp.snoc, hans s tr _ _ hfact rfl ⟨tr.length, _, .last rfl (.inl hmem), rfl, rfl⟩⟩ (fun _ h => by cases h), rfl⟩
    rcases (Table.mem_insert hins).mp hl with hl | rfl
    · exact .inl hl
    · rw [hG]
      exact .inr (hnew id hc).1

/-- What a `create` returns for its row. -/
def createdResult (expiresInDays : Option Nat) (draw : Draw) (row : ApiKeyRow) : CreateApiKeyResult where
  id := row.id
  rawKey := ApiKeyService.rawKey draw.random
  hashPrefix := ApiKeyService.keyPrefix draw.random
  expiresAt := ApiKeyService.expiry expiresInDays draw.now

theorem create_eq (hash : String → String → String) (tenantId label : String)
    (expiresInDays : Option Nat) (draw : Draw) :
    inAdmin (ApiKeyService.create hash tenantId label expiresInDays draw) =
      (adminRequest (.key (.insertKey tenantId label (hash draw.salt (ApiKeyService.rawKey draw.random))
        (ApiKeyService.keyPrefix draw.random) (ApiKeyService.expiry expiresInDays draw.now)))).bind
          fun row => .ret (createdResult expiresInDays draw row) := by
  rw [← inAdmin_perform]
  exact inAdmin_bind _ _

/-- The row of a `create`: the tenant is that of the guard, and the key is new. -/
theorem insertKey_wp {label id : String} {expiresInDays : Option Nat} {draw : Draw} :
    (adminProto b calls s₀).WP t
      (fun r g => ∀ result, r = .ok result → g = .made tenantId label result)
      (inAdmin (ApiKeyService.create b.hash tenantId label expiresInDays draw))
      (.passed tenantId id) := by
  rw [create_eq]
  refine Proto.WP.perform_bind fun G s tr d r s' hG hi _ hx => ⟨trivial, ?_⟩
  have hfact : adminFact b calls s₀ t (G t) (s, tr) := hi.1.fact t
  rw [hG] at hfact
  obtain ⟨i, hpassed⟩ := hfact
  obtain ⟨hkey, hl, hused, htouch⟩ := exec_adminKey hx
  have htold : ∀ id now, s'.Told id now → s.Told id now := fun id now h => by
    rw [KeyAdmin.Told, hused, htouch] at h
    exact h
  rcases exec_insertKey hkey with ⟨e, rfl, hk⟩ | ⟨rowId, rfl, hins⟩
  · exact ⟨.passed tenantId id, admin_quiet hi hx hk hl (fun id now h => .inl (htold id now h))
      ⟨i, hpassed.snoc⟩ rfl, fun _ h => by cases h⟩
  set row : ApiKeyRow := ⟨rowId, tenantId, label, _, _, true, _, none⟩
  let result := createdResult expiresInDays draw row
  have hgrows : KeyStore.Grows s.keys s'.keys := KeyStore.grows_insert hins
  -- the id is new, so no entry and no other request has it
  have hfresh : ∀ T l (x : CreateApiKeyResult), s.Has T l x → x.id ≠ rowId := by
    rintro T l x ⟨row', hr', hid, -⟩ he
    exact (Table.insert_ok hins).2.1 row' hr' (hid.trans he)
  have hnone : s₀.AuditOk → ∀ log ∈ s'.auditLogs, ¬ log.Creates rowId := by
    intro h₀ log hlog hc
    rw [hl] at hlog
    obtain ⟨l, x, hhas, hid, -⟩ := ((hi.2.audit h₀).tells log hlog).created hc.1
    exact hfresh _ l x hhas (hid.symm.trans hc.2)
  refine ⟨.made tenantId label result, ?_, fun _ h => by cases h; rfl⟩
  refine admin_move hi hx (fun T hne => ?_) (fun id now h => .inl (htold id now h))
    (fun h₀ => (hi.2.audit h₀).grows hgrows hl) hgrows (fun log hlog => ?_) (fun id log hlog _ => ?_)
    ⟨⟨id, i, hpassed.snoc⟩, ⟨row, (Table.mem_insert hins).mpr (.inr rfl), rfl, rfl, rfl, rfl, rfl⟩,
      hnone⟩ fun id hid u hu => ?_
  · have hT : T = tenantId := by
      by_contra hT
      exact hne (.of_insert hins fun h => hT h.symm)
    rw [hT]
    exact ⟨id, i, hpassed⟩
  · rw [hl]
    exact hlog
  · rw [hl] at hlog
    exact .inl hlog
  · have hfu : adminFact b calls s₀ u (G u) (s, tr) := hi.1.fact u
    cases hGu : G u with
    | made T l x =>
      rw [hGu] at hfu hu
      cases hid
      cases hu
      exact hfresh T l x hfu.2.1 rfl
    | _ =>
      rw [hGu] at hu
      cases hu

theorem create_wp {label id : String} {expiresInDays : Option Nat} {draw : Draw} :
    (adminProto b calls s₀).WP t
      (fun r g => ∀ result, r = .ok result → g = .answered tenantId (.created result))
      (KeyAdminService.create b.hash tenantId label expiresInDays draw) (.passed tenantId id) := by
  refine Proto.WP.bind (insertKey_wp.mono fun r g hr => ?_)
  cases r with
  | error e => exact fun _ h => by cases h
  | ok result =>
    rw [hr result rfl]
    refine Proto.WP.bind (Proto.WP.mono (log_wp tenantId (a := .created result) ?_ ?_)
      fun r g hg => ?_)
    · rintro s tr d ⟨hp, hhas, hnone⟩
      refine ⟨hp, ⟨fun _ => ⟨label, result, hhas, rfl, rfl⟩, fun h => ?_⟩, fun id hc => ?_⟩
      · exact absurd (show "apikey.created" = "apikey.revoked" from h) (by decide)
      obtain rfl : result.id = id := hc.2
      exact ⟨rfl, hnone⟩
    · rintro s tr s' e ⟨-, hhas, -⟩ hk hlog
      exact ⟨⟨label, hhas.grows (by rw [hk]; exact .refl _)⟩, hlog⟩
    · cases r with
      | error e => exact fun _ h => by cases h
      | ok u => exact fun _ h => by cases h; exact hg

/-- The programs of `revoke` in `KeyStore`, query by query. -/
theorem revoke_eq (keyId tenantId : String) : inAdmin (ApiKeyService.revoke keyId tenantId) =
    (adminRequest (.key (.findKey keyId tenantId))).bind fun key => match key with
      | none => .throw (.notFound "API key no encontrada")
      | some _ => (adminRequest (.key (.revokeKey keyId))).bind fun _ => .ret () := by
  rw [← inAdmin_perform]
  refine (inAdmin_bind _ _).trans (congrArg (Prog.bind _) (funext fun key => ?_))
  cases key with
  | none => rfl
  | some row =>
    rw [← inAdmin_perform]
    exact inAdmin_bind _ _

/-- The update of a `revoke`. -/
theorem revokeKey_wp {keyId : String} :
    (adminProto b calls s₀).WP t (fun r g => r = .ok () → g = .revoked tenantId keyId)
      ((adminRequest (.key (.revokeKey keyId))).bind fun _ => .ret ()) (.found tenantId keyId) := by
  refine Proto.WP.perform_bind fun G s tr d r s' hG hi _ hx => ⟨trivial, ?_⟩
  have hfact : adminFact b calls s₀ t (G t) (s, tr) := hi.1.fact t
  rw [hG] at hfact
  obtain ⟨hp, row, hr, hid, hten⟩ := hfact
  obtain ⟨hkey, hl, hused, htouch⟩ := exec_adminKey hx
  have htold : ∀ id now, s'.Told id now → s.Told id now := fun id now h => by
    rw [KeyAdmin.Told, hused, htouch] at h
    exact h
  rcases exec_revokeKey hkey with ⟨e, rfl, hk⟩ | ⟨row', rfl, hup⟩
  · refine ⟨.idle, admin_quiet hi hx hk hl (fun id now h => .inl (htold id now h)) trivial rfl,
      fun h => by cases h⟩
  have hgrows : KeyStore.Grows s.keys s'.keys := KeyStore.grows_revoke hup
  refine ⟨.revoked tenantId keyId, ?_, fun _ => rfl⟩
  refine admin_move hi hx (fun T hne => ?_) (fun id now h => .inl (htold id now h))
    (fun h₀ => (hi.2.audit h₀).grows hgrows hl) hgrows (fun log hlog => by rw [hl]; exact hlog)
    (fun id log hlog _ => .inl (by rw [hl] at hlog; exact hlog)) ⟨hp.snoc, ?_⟩ fun id h => by cases h
  · have hT : T = tenantId := by
      by_contra hT
      exact hne (.of_revoke hr hid hup fun h => hT (h.symm.trans hten))
    rw [hT]
    exact hp
  · obtain ⟨old, hold, hoid, rfl, -⟩ := Table.update_some hup
    obtain rfl := Table.eq_of_key hold hr (hoid.trans hid.symm)
    exact ⟨_, (Table.mem_update hup).mpr (.inr rfl), hid, hten, rfl⟩

theorem revoke_wp {headers : Headers} {keyId id : String}
    (hcall : calls t = .request headers (.revoke keyId)) :
    (adminProto b calls s₀).WP t (fun r g => r = .ok () → g = .answered tenantId .done)
      (KeyAdminService.revoke keyId tenantId) (.passed tenantId id) := by
  have hfind : (adminProto b calls s₀).WP t (fun r g => r = .ok () → g = .revoked tenantId keyId)
      (inAdmin (ApiKeyService.revoke keyId tenantId)) (.passed tenantId id) := by
    rw [revoke_eq]
    refine ask_wp fun s tr d r s' hfact hinv hx => ?_
    obtain ⟨i, hpassed⟩ := hfact
    obtain ⟨hkey, hl, hused, htouch⟩ := exec_adminKey hx
    obtain ⟨hk, hans⟩ := exec_findKey hkey
    refine ⟨hk, hl, fun id now h => .inl (by rw [KeyAdmin.Told, hused, htouch] at h; exact h), ?_⟩
    rcases hans with ⟨e, rfl⟩ | rfl | ⟨row, hr, rfl, hid, hten⟩
    · exact ⟨.idle, rfl, trivial, (fun _ h => by cases h), fun _ _ h => by cases h⟩
    · refine ⟨.idle, rfl, trivial, (fun a h => ?_), fun _ h => by cases h⟩
      cases h
      exact fun h => by cases h
    · refine ⟨.found tenantId keyId, rfl, ⟨⟨id, i, hpassed.snoc⟩, row, by rw [hk]; exact hr, hid, hten⟩,
        (fun a h => ?_), fun _ h => by cases h⟩
      cases h
      exact revokeKey_wp
  refine Proto.WP.bind (hfind.mono fun r g hr => ?_)
  cases r with
  | error e => exact fun h => by cases h
  | ok u =>
    rw [hr rfl]
    refine Proto.WP.mono (log_wp tenantId (a := .done) ?_ ?_) fun r g hg _ => hg
    · rintro s tr d ⟨hp, hrev⟩
      have hne : (newKeyLog d (KeyAdminService.revokedEntry tenantId keyId)).action ≠
          "apikey.created" := fun h =>
        absurd (show "apikey.revoked" = "apikey.created" from h) (by decide)
      exact ⟨hp, ⟨fun h => absurd h hne, fun _ => hrev⟩, fun id hc => absurd hc.1 hne⟩
    · rintro s tr s' e ⟨-, hrev⟩ hk hlog
      exact ⟨headers, keyId, hcall, hrev.grows (by rw [hk]; exact .refl _), hlog⟩

/-- A `list` of the tenant. -/
theorem list_wp {id : String} : (adminProto b calls s₀).WP t (AnswersTenant tenantId)
    ((adminRequest (.findKeys tenantId)).bind fun rows => .ret (.listed rows))
      (.passed tenantId id) := by
  refine ask_wp fun s tr d r s' hfact hinv hx => ?_
  obtain ⟨i, hpassed⟩ := hfact
  obtain ⟨rfl, ⟨e, rfl⟩ | ⟨rows, rfl, hrows⟩⟩ := exec_findKeys hx
  · exact ⟨rfl, rfl, fun _ _ h => .inl h, .idle, rfl, trivial, (fun _ h => by cases h),
      fun _ _ _ h => by cases h⟩
  · refine ⟨rfl, rfl, fun _ _ h => .inl h, .answered tenantId (.listed rows), rfl,
      ⟨⟨id, i, hpassed.snoc⟩, tr.length, by simp, ?_⟩, (fun a h => ?_), fun _ h => by cases h⟩
    · rw [List.take_left, ← hinv.replayed]
      exact hrows
    · cases h
      exact fun _ h => by cases h; rfl

/-- The handler of a request that passed its guard. -/
theorem keyRoute_wp {tenant : TenantRef} {headers : Headers} {route : KeyRoute} {id : String}
    (hcall : calls t = .request headers route) :
    (adminProto b calls s₀).WP t (AnswersTenant tenant.id) (TenantsController.handle b.hash tenant route)
      (.passed tenant.id id) := by
  cases route with
  | create body draw =>
    refine Proto.WP.ofExcept_bind (fun dto _ => ?_) fun _ _ _ h => by cases h
    refine Proto.WP.bind (create_wp.mono fun r g hr => ?_)
    cases r with
    | error e => exact fun _ h => by cases h
    | ok result =>
      intro a h
      cases h
      exact hr result rfl
  | list => exact list_wp
  | revoke keyId =>
    refine Proto.WP.bind ((revoke_wp hcall).mono fun r g hr => ?_)
    cases r with
    | error e => exact fun _ h => by cases h
    | ok u =>
      intro a h
      cases h
      exact hr rfl

/-- A request that answers is one of a tenant. -/
def AdminEnd (calls : ι → AdminCall) (t : ι) (r : Except Err AdminAnswer) (g : AdminStage) : Prop :=
  ∀ headers route, calls t = .request headers route → ∀ a, r = .ok a → ∃ T, g = .answered T a

theorem adminCall_wp (t : ι) : (adminProto b calls s₀).WP t (AdminEnd calls t)
    ((calls t).run b.hash b.compare) .idle := by
  cases hcall : calls t with
  | request headers route =>
    refine Proto.WP.bind ((guard_wp hcall).mono fun r g hr => ?_)
    cases r with
    | error e => exact fun _ _ _ _ h => by cases h
    | ok tenant =>
      obtain ⟨id, rfl⟩ := hr tenant rfl
      exact (keyRoute_wp hcall).mono fun r g hr _ _ _ a ha => ⟨tenant.id, hr a ha⟩
  | settle n =>
    refine ask_wp fun s tr d r s' _ _ hx => ?_
    obtain ⟨rfl, rfl⟩ := Prod.mk.inj hx
    refine ⟨settle_rest.1, settle_rest.2, fun _ _ h => .inl (settle_told h), .idle, rfl, trivial,
      fun _ _ headers route h => ?_, fun _ h => by cases h⟩
    rw [hcall] at h
    cases h
  | setTenant id row =>
    refine ask_wp fun s tr d r s' _ _ hx => ?_
    obtain ⟨rfl, rfl⟩ := Prod.mk.inj hx
    refine ⟨rfl, rfl, fun _ _ h => .inl h, .idle, rfl, trivial, fun _ _ headers route h => ?_,
      fun _ h => by cases h⟩
    rw [hcall] at h
    cases h

end Calls

/-! ## The runs -/

section Runs

variable {ι : Type} [DecidableEq ι] (b : Bcrypt) (calls : ι → AdminCall) (s₀ : KeyAdmin)

def startAdmin : Conf adminMachine ι AdminAnswer :=
  .start s₀ fun t => (calls t).run b.hash b.compare

variable {b calls s₀} {c c' : Conf adminMachine ι AdminAnswer}

theorem adminProto_start :
    (adminProto b calls s₀).Ok (AdminEnd calls) (startAdmin b calls s₀) :=
  ⟨fun _ => .idle, ⟨Conc.Owning.Inv.start (fun _ => trivial) rfl, {
    replayed := rfl
    changes := fun _ hj => absurd hj (Nat.not_lt_zero _)
    told := fun _ _ h => .inl h
    audit := fun h => h }⟩, fun t => adminCall_wp t⟩

/-- What holds in every state that a run reaches, and of the answers. -/
theorem admin_inv (hr : Conf.Reach Any (startAdmin b calls s₀) c) :
    AdminInv b calls s₀ c.trace c.st ∧ ∀ t headers route, calls t = .request headers route →
      ∀ a, c.thr t = .ret a → ∃ T, Passed b calls s₀ c.trace t T ∧
        AnswerTells calls s₀ t T (c.st, c.trace) a := by
  obtain ⟨G, hi, hend⟩ := (Proto.sound adminProto_start hr).ended
  refine ⟨hi.2, fun t headers route hcall a ha => ?_⟩
  obtain ⟨T, hG⟩ := hend t (.ok a) ha headers route hcall a rfl
  have hfact : adminFact b calls s₀ t (G t) (c.st, c.trace) := hi.1.fact t
  rw [hG] at hfact
  exact ⟨T, hfact⟩

omit [DecidableEq ι] in
/-- A place of a run keeps its meaning when the run goes on. -/
theorem PassedAt.of_prefix {tr tr' : List (ι × Event adminMachine)} {t : ι} {tenantId id : String}
    {i : Nat} (h : PassedAt b calls s₀ tr' t tenantId id i) (hp : tr <+: tr') (hi : i < tr.length) :
    PassedAt b calls s₀ tr t tenantId id i := by
  obtain ⟨tail, rfl⟩ := hp
  obtain ⟨e, hashPrefix, k, hplace, hop, hk, ho⟩ := h.query
  rw [List.getElem?_append_left hi] at hplace
  rw [List.take_append_of_le_length hi.le] at ho
  exact ⟨e, hashPrefix, k, hplace, hop, hk, ho⟩

/-- The entries of the audit log stay, in their order. -/
theorem auditLogs_mono (hr : Conf.Reach Any c c') :
    c.st.auditLogs.rows <+: c'.st.auditLogs.rows :=
  hr.inv (I := fun s => c.st.auditLogs.rows <+: s.auditLogs.rows)
    (fun _ _ _ h => h.trans (exec_auditLogs rfl)) List.prefix_rfl

end Runs

/-- What holds of the requests `tr`, and of the threads after them. -/
structure KeysGuarded {ι : Type} (b : Bcrypt) (calls : ι → AdminCall) (s₀ : KeyAdmin)
    (c : Conf adminMachine ι AdminAnswer) : Prop where
  /-- Rows of a tenant change by a request that bore a key of the tenant. -/
  changes : ∀ j < c.trace.length, ∀ tenantId, ChangedAt s₀ c.trace tenantId j → ∃ t e i id,
    c.trace[j]? = some (t, e) ∧ i < j ∧ PassedAt b calls s₀ c.trace t tenantId id i
  /-- The answer of a request is about rows of the tenant whose key it bore. -/
  answers : ∀ t headers route a, calls t = .request headers route → c.thr t = .ret a →
    ∃ tenantId, Passed b calls s₀ c.trace t tenantId ∧
      AnswerTells calls s₀ t tenantId (c.st, c.trace) a

/-- **The keys of a tenant are in the hands of those who bear one.** However requests interleave, the
rows of a tenant are inserted and revoked by requests whose own key opened a row of that tenant
before, and what a request answers is about rows of that tenant. -/
theorem key_changes_authorized {ι : Type} [DecidableEq ι] (b : Bcrypt) (calls : ι → AdminCall)
    (s₀ : KeyAdmin) (c : Conf adminMachine ι AdminAnswer)
    (hr : Conf.Reach Any (startAdmin b calls s₀) c) : KeysGuarded b calls s₀ c :=
  ⟨(admin_inv hr).1.changes, fun t headers route a hcall ha =>
    (admin_inv hr).2 t headers route hcall a ha⟩

/-- No key of the tenant opens a row at `now` or later. -/
def KeyAdmin.LockedOut (s : KeyAdmin) (tenantId : String) (now : Nat) : Prop :=
  ∀ row ∈ s.keys, row.tenantId = tenantId → row.active = false ∨ row.expiresAt.any (· ≤ now)

/-- The clock shows `now` or later. -/
def NotBefore {ι : Type} (now : Nat) : Conc.Allow adminMachine ι := fun _ _ d _ => now ≤ d.now

/-- What does not happen after `c`. -/
structure StaysLockedOut {ι : Type} (b : Bcrypt) (calls : ι → AdminCall) (s₀ : KeyAdmin)
    (tenantId : String) (c c' : Conf adminMachine ι AdminAnswer) : Prop where
  keys : SameKeys tenantId c.st.keys c'.st.keys
  /-- No request passed its guard for the tenant after `c`. -/
  guard : ∀ t id i, PassedAt b calls s₀ c'.trace t tenantId id i → i < c.trace.length

section LockedOut

variable {ι : Type} [DecidableEq ι] {b : Bcrypt} {calls : ι → AdminCall} {s₀ : KeyAdmin}
  {c c' : Conf adminMachine ι AdminAnswer} {tenantId : String} {now : Nat}

omit [DecidableEq ι] in
/-- No key opens a row of a tenant that is locked out. -/
theorem KeyAdmin.LockedOut.not_opens {s : KeyAdmin} (h : s.LockedOut tenantId now) {later : Nat}
    (hl : now ≤ later) {k id : String} : ¬ s.Opens b later k tenantId id := by
  rintro ⟨-, row, hr, -, hten, hopens⟩
  rcases h row hr hten with hact | hexp
  · rw [hopens.active] at hact
    cases hact
  · have hlt := hopens.expiresAt
    cases he : row.expiresAt with
    | none =>
      rw [he] at hexp
      cases hexp
    | some ms =>
      rw [he] at hexp hlt
      simp only [Option.any_some, Option.all_some, decide_eq_true_eq] at hexp hlt
      omega

/-- The run went on to `c'` while the tenant was locked out. -/
structure LockedRun (b : Bcrypt) (calls : ι → AdminCall) (s₀ : KeyAdmin) (tenantId : String)
    (c c' : Conf adminMachine ι AdminAnswer) : Prop where
  longer : c.trace <+: c'.trace
  stays : StaysLockedOut b calls s₀ tenantId c c'
  ended : ∀ t, Passed b calls s₀ c.trace t tenantId → ∃ r, c'.thr t = .ofExcept r

/-- One request more: it is not one of the tenant, so it changes none of its rows. -/
theorem LockedRun.step {c'' : Conf adminMachine ι AdminAnswer} (h : LockedRun b calls s₀ tenantId c c')
    (hlocked : c.st.LockedOut tenantId now) (hr : Conf.Reach Any (startAdmin b calls s₀) c')
    (hs : Conf.Step (NotBefore now) c' c'') : LockedRun b calls s₀ tenantId c c'' := by
  obtain ⟨d, hop, hnow⟩ := hs
  rename_i t o k
  have hinv := (admin_inv (hr.tail (.mk d hop trivial))).1
  have hreplay : replay s₀ c'.trace = c'.st := (admin_inv hr).1.replayed.symm
  have hnot : ∀ u id i, PassedAt b calls s₀ (c'.next t o k d).trace u tenantId id i →
      i < c.trace.length := by
    intro u id i hp
    rcases Nat.lt_succ_iff_lt_or_eq.mp (by simpa [Conf.next] using hp.lt) with hlt | rfl
    · exact h.stays.guard u id i (hp.of_prefix (List.prefix_append _ _) hlt)
    · -- the query of a guard now: the rows of the tenant are those of `c`
      obtain ⟨e, hashPrefix, key, hplace, -, -, hopens⟩ := hp.query
      rw [Conf.next, List.take_left, hreplay] at hopens
      have he : e = .of o d c'.st := by
        rw [Conf.next] at hplace
        have hlast := List.getElem?_concat_length.symm.trans hplace
        exact (Prod.mk.inj (Option.some.inj hlast)).2.symm
      rw [he] at hopens
      obtain ⟨hpk, row, hrow, hid, hten, ho⟩ := hopens
      have hlocked' : c'.st.LockedOut tenantId now := fun row hr hten =>
        hlocked row ((h.stays.keys row hten).mpr hr) hten
      exact absurd ⟨hpk, row, hrow, hid, hten, ho⟩ (hlocked'.not_opens hnow)
  have hended : ∀ u, Passed b calls s₀ c.trace u tenantId → u ≠ t := by
    rintro u hu rfl
    obtain ⟨r, hret⟩ := h.ended u hu
    rw [hret] at hop
    cases r with
    | ok a => cases hop
    | error e => cases hop
  refine ⟨h.longer.trans (List.prefix_append _ _), ⟨?_, hnot⟩, fun u hu => ?_⟩
  · refine h.stays.keys.trans ?_
    by_contra hne
    have hchanged : ChangedAt s₀ (c'.next t o k d).trace tenantId c'.trace.length := by
      have hbefore : replay s₀ ((c'.next t o k d).trace.take c'.trace.length) = c'.st := by
        rw [Conf.next, List.take_left, hreplay]
      have hafter : replay s₀ ((c'.next t o k d).trace.take (c'.trace.length + 1)) =
          (c'.next t o k d).st := by
        rw [List.take_of_length_le (by simp [Conf.next]), ← hinv.replayed]
      rw [ChangedAt, hbefore, hafter]
      exact hne
    obtain ⟨u, e, i, id, hplace, -, hp⟩ := hinv.changes _ (by simp [Conf.next]) tenantId hchanged
    obtain rfl : t = u := congrArg Prod.fst (Option.some.inj (List.getElem?_concat_length.symm.trans hplace))
    have hbefore := hp.of_prefix (h.longer.trans (List.prefix_append _ _)) (hnot t id i hp)
    exact hended t ⟨id, i, hbefore⟩ rfl
  · obtain ⟨r, hret⟩ := h.ended u hu
    exact ⟨r, (Function.update_of_ne (hended u hu) _ _).trans hret⟩

end LockedOut

/-- What the audit log tells in `c'`, a state after `c`. -/
structure AuditTells {ι : Type} (calls : ι → AdminCall) (s₀ : KeyAdmin)
    (c c' : Conf adminMachine ι AdminAnswer) : Prop where
  /-- Each entry tells the truth, and of the creation of a key one tells at most. -/
  ok : c'.st.AuditOk
  /-- Entries are added at the end only. -/
  kept : c.st.auditLogs.rows <+: c'.st.auditLogs.rows
  /-- A request that returned a key asked for its entry, which the database refused at most. -/
  created : ∀ t headers route result, calls t = .request headers route →
    c'.thr t = .ret (.created result) → Logged s₀ t "apikey.created" result.id (c'.st, c'.trace)
  /-- And so did each that revoked one. -/
  revoked : ∀ t headers keyId, calls t = .request headers (.revoke keyId) →
    c'.thr t = .ret .done → Logged s₀ t "apikey.revoked" keyId (c'.st, c'.trace)

/-- **The audit log of the keys**, if it was right before. -/
theorem key_audit_tells {ι : Type} [DecidableEq ι] (b : Bcrypt) (calls : ι → AdminCall)
    (s₀ : KeyAdmin) (h₀ : s₀.AuditOk) (c c' : Conf adminMachine ι AdminAnswer)
    (hr : Conf.Reach Any (startAdmin b calls s₀) c) (hr' : Conf.Reach Any c c') :
    AuditTells calls s₀ c c' := by
  obtain ⟨hinv, hans⟩ := admin_inv (hr.trans hr')
  refine ⟨hinv.audit h₀, auditLogs_mono hr', fun t headers route result hcall ht => ?_,
    fun t headers keyId hcall ht => ?_⟩
  · obtain ⟨T, -, -, hlog⟩ := hans t headers route hcall _ ht
    exact hlog
  · obtain ⟨T, -, headers', keyId', hcall', -, hlog⟩ := hans t headers _ hcall _ ht
    rw [hcall] at hcall'
    cases hcall'
    exact hlog

/-- **`lastUsedAt` tells of a use**: what it shows after the start is the time at which some request
passed its guard with that very key. -/
theorem last_used_tells {ι : Type} [DecidableEq ι] (b : Bcrypt) (calls : ι → AdminCall)
    (s₀ : KeyAdmin) (c : Conf adminMachine ι AdminAnswer)
    (hr : Conf.Reach Any (startAdmin b calls s₀) c) (id : String) (now : Nat)
    (h : c.st.lastUsedAt id = some now) :
    s₀.Told id now ∨ UsedAt b calls s₀ c.trace id now :=
  (admin_inv hr).1.told id now (.inl h)

/-! ### The last key of a tenant -/

/-- The rows before: a tenant with one key. -/
def adminStart : KeyAdmin where
  keys := ⟨[⟨"k0", "acme", "first", "$2a$10$" ++ ApiKeyService.rawKey "abcdefgh1",
    ApiKeyService.keyPrefix "abcdefgh1", true, none, none⟩], List.nodup_singleton _,
      List.nodup_singleton _⟩
  createdAt _ := 0
  lastUsedAt _ := none
  tenants := sampleTenants
  auditLogs := .empty
  touches := []

def bearing (random : String) : Headers := [("x-api-key", ApiKeyService.rawKey random)]

/-- The key of the tenant makes a second one, which revokes the first, and then itself. -/
def adminCalls : Fin 5 → AdminCall := ![
  .request (bearing "abcdefgh1")
    (.create (.ok ⟨"second", some 30, by decide⟩) ⟨"ijklmnop2", "salt", 1000⟩),
  .request (bearing "ijklmnop2") (.revoke "k0"),
  .request (bearing "ijklmnop2") (.revoke "k1"),
  .settle 0,
  .request (bearing "ijklmnop2") .list]

/-- Three requests, and one update of `lastUsedAt` that ends. -/
def adminRun : Conf adminMachine (Fin 5) AdminAnswer :=
  (startAdmin sampleBcrypt adminCalls adminStart).play [
    (0, { now := 1000 }), (0, { now := 1000 }), (0, { now := 1001, newId := "k1" }),
    (0, { now := 1002, newId := "log0" }), (1, { now := 2000 }), (1, { now := 2000 }), (1, {}),
    (1, { now := 2001 }), (1, { now := 2002, newId := "log1" }), (2, { now := 3000 }),
    (2, { now := 3000 }), (2, {}), (2, { now := 3001 }), (2, { now := 3002, newId := "log2" }),
    (3, {})]

theorem adminRun_reach : Conf.Reach Any (startAdmin sampleBcrypt adminCalls adminStart) adminRun :=
  Conf.reach_play (Conf.plays_any _ _)

theorem key_changes_sample : KeysGuarded sampleBcrypt adminCalls adminStart adminRun ∧
    adminRun.st.keys.rows.map (fun row => (row.id, row.active)) = [("k0", false), ("k1", false)] :=
  ⟨key_changes_authorized sampleBcrypt adminCalls adminStart adminRun adminRun_reach,
    by decide +kernel⟩

theorem adminStart_auditOk : adminStart.AuditOk :=
  ⟨fun _ h => absurd h Table.not_mem_empty, fun _ _ h => absurd h Table.not_mem_empty⟩

theorem key_audit_sample : AuditTells adminCalls adminStart adminRun adminRun ∧
    adminRun.st.auditLogs.rows.map (fun log => (log.action, log.resourceId)) =
      [("apikey.created", "k1"), ("apikey.revoked", "k0"), ("apikey.revoked", "k1")] :=
  ⟨key_audit_tells sampleBcrypt adminCalls adminStart adminStart_auditOk adminRun adminRun
    adminRun_reach .refl, by decide +kernel⟩

theorem last_used_sample :
    adminStart.Told "k0" 1000 ∨ UsedAt sampleBcrypt adminCalls adminStart adminRun.trace "k0" 1000 :=
  last_used_tells sampleBcrypt adminCalls adminStart adminRun adminRun_reach "k0" 1000
    (by decide +kernel)

end Pasarela
