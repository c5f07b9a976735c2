import Mathlib.Data.Fin.VecNotation
import Pasarela.Conc.Serial
import Pasarela.KeyStore

/-!
# What an API key opens

Any calls of `ApiKeyService.create` and `revoke`, of any tenants, from an empty table. They may
overlap; a sequence is the case in which they do not.

* `rawKey_slice`, `rawKey_injective`: the prefix that `validate` cuts out of a key is the stored one,
  and keys with different random parts are different.
* `Bcrypt`: `compare` accepts a hash exactly for the key it was made of.
* `KeyInv`: a row is that of a `create` which inserted it, and it is not active exactly when some
  `revoke` of its tenant updated it.
* `validate_iff`: what `validate` finds among the rows of such a table, in any order.
* `api_key_accepted_iff`.
-/

namespace Pasarela

open Conc (Alone Event Proto Prog Conf)
open Store (Table)

namespace ApiKeyService

/-! ## The text of a key -/

theorem toList_keyPrefix (random : String) :
    (keyPrefix random).toList = random.toList.take prefixLen := by
  simp [keyPrefix, Js.slice]

theorem toList_rawKey (random : String) : (rawKey random).toList =
    ['p', 'k', '_'] ++ (random.toList.take prefixLen ++ '_' :: random.toList) := by
  simp [rawKey, toList_keyPrefix, String.toList_append]

theorem startsWith_rawKey (random : String) : Js.startsWith (rawKey random) "pk_" := by
  rw [Js.startsWith, toList_rawKey]
  rfl

variable {random : String}

/-- `validate` cuts the stored prefix out of a key. -/
theorem rawKey_slice (h : prefixLen ≤ random.length) :
    Js.slice (rawKey random) 3 (3 + prefixLen) = keyPrefix random := by
  have hlen : (random.toList.take prefixLen).length = prefixLen := by
    rw [List.length_take, String.length_toList]
    omega
  apply String.toList_inj.mp
  rw [Js.slice, String.toList_ofList, toList_rawKey, toList_keyPrefix]
  show ((random.toList.take prefixLen ++ '_' :: random.toList).take prefixLen) = _
  rw [List.take_append_of_le_length (by omega), List.take_of_length_le (by omega)]

/-- Two keys are equal only if their random parts are. -/
theorem rawKey_injective {random' : String} (h : prefixLen ≤ random.length)
    (h' : prefixLen ≤ random'.length) (he : rawKey random = rawKey random') : random = random' := by
  have hchars := congrArg String.toList he
  rw [toList_rawKey, toList_rawKey] at hchars
  have hlen : (random.toList.take prefixLen).length = (random'.toList.take prefixLen).length := by
    rw [List.length_take, List.length_take, String.length_toList, String.length_toList]
    omega
  have htail := (List.append_inj (List.append_cancel_left hchars) hlen).2
  exact String.toList_inj.mp (List.cons.inj htail).2

end ApiKeyService

/-- `bcrypt` (module doc). -/
structure Bcrypt where
  hash : String → String → String
  compare : String → String → Bool
  compare_hash : ∀ salt key key', compare key (hash salt key') ↔ key = key'

/-! ## The rows and the calls -/

/-- The random part that the call draws. -/
def ApiKeyCall.random? : ApiKeyCall → Option String
  | .create _ _ _ draw => some draw.random
  | .revoke _ _ => none

/-- The call inserts the row, up to its revocation. -/
def ApiKeyCall.Inserts (b : Bcrypt) : ApiKeyCall → ApiKeyRow → Prop
  | .create tenantId label expiresInDays draw, row =>
    row.tenantId = tenantId ∧ row.label = label ∧
      row.keyHash = b.hash draw.salt (ApiKeyService.rawKey draw.random) ∧
      row.hashPrefix = ApiKeyService.keyPrefix draw.random ∧
      row.expiresAt = ApiKeyService.expiry expiresInDays draw.now
  | .revoke _ _, _ => False

def ApiKeyCall.Revokes : ApiKeyCall → ApiKeyRow → Prop
  | .create _ _ _ _, _ => False
  | .revoke keyId tenantId, row => row.id = keyId ∧ row.tenantId = tenantId

inductive KeyStage where
  | idle
  /-- It inserted the row. -/
  | issued (id : String)
  /-- It found the row, and has not updated it. -/
  | found (id : String)
  /-- It updated the row. -/
  | revoked (id : String)
  deriving DecidableEq

section Pool

variable {ι : Type} [DecidableEq ι] (b : Bcrypt) (calls : ι → ApiKeyCall)

/-- The random parts have the characters of a prefix, and no two are equal. -/
structure DistinctRandoms : Prop where
  length : ∀ t r, (calls t).random? = some r → ApiKeyService.prefixLen ≤ r.length
  distinct : ∀ t u r, (calls t).random? = some r → (calls u).random? = some r → t = u

def startKeys : Conf keyMachine ι ApiKeyAnswer :=
  Conf.start .empty fun t => (calls t).run b.hash

/-- The invariant (module doc). -/
structure KeyInv (G : ι → KeyStage) (s : KeyStore) : Prop where
  issued : ∀ t id, G t = .issued id → ∃ row ∈ s, row.id = id ∧ (calls t).Inserts b row
  row : ∀ row ∈ s, ∃ t, G t = .issued row.id
  revokes : ∀ t id, G t = .found id ∨ G t = .revoked id →
    ∃ row ∈ s, row.id = id ∧ (calls t).Revokes row
  active : ∀ row ∈ s, row.active = false ↔ ∃ t, G t = .revoked row.id

def keyProto : Proto keyMachine ι KeyStage where
  allow := Conc.Any
  inv G s _ := KeyInv b calls G s

variable {b calls} {G : ι → KeyStage} {s s' : KeyStore} {t : ι}

theorem KeyInv.insert (h : KeyInv b calls G s) (hG : G t = .idle) {row : ApiKeyRow}
    (hi : s.insert row = .ok s') (hins : (calls t).Inserts b row) (ha : row.active = true) :
    KeyInv b calls (Function.update G t (.issued row.id)) s' := by
  have hnew : ∀ a ∈ s, a.id ≠ row.id := (Table.insert_ok hi).2.1
  refine ⟨fun u id hu => ?_, fun a ha' => ?_, fun u id hu => ?_, fun a ha' => ?_⟩
  · by_cases hut : u = t
    · rw [hut, Function.update_self] at hu
      cases hu
      rw [hut]
      exact ⟨row, (Table.mem_insert hi).mpr (.inr rfl), rfl, hins⟩
    · rw [Function.update_of_ne hut] at hu
      obtain ⟨a, ha', hid, hc⟩ := h.issued u id hu
      exact ⟨a, (Table.mem_insert hi).mpr (.inl ha'), hid, hc⟩
  · rcases (Table.mem_insert hi).mp ha' with ha' | rfl
    · obtain ⟨u, hu⟩ := h.row a ha'
      have hne : KeyStage.issued a.id ≠ .issued row.id := by simpa using hnew a ha'
      exact ⟨u, (Conc.update_eq_iff hG (by simp) hne).mpr hu⟩
    · exact ⟨t, Function.update_self ..⟩
  · have hu' : G u = .found id ∨ G u = .revoked id :=
      hu.imp (Conc.update_eq_iff hG (by simp) (by simp)).mp
        (Conc.update_eq_iff hG (by simp) (by simp)).mp
    obtain ⟨a, ha', hid, hc⟩ := h.revokes u id hu'
    exact ⟨a, (Table.mem_insert hi).mpr (.inl ha'), hid, hc⟩
  · have hiff : (∃ u, Function.update G t (.issued row.id) u = .revoked a.id) ↔
        ∃ u, G u = .revoked a.id :=
      exists_congr fun u => Conc.update_eq_iff hG (by simp) (by simp)
    rw [hiff]
    rcases (Table.mem_insert hi).mp ha' with ha' | rfl
    · exact h.active a ha'
    · -- no call has updated the row yet
      rw [ha]
      refine iff_of_false Bool.noConfusion ?_
      rintro ⟨u, hu⟩
      obtain ⟨a', ha'', hid, -⟩ := h.revokes u _ (.inr hu)
      exact hnew a' ha'' hid

theorem KeyInv.find (h : KeyInv b calls G s) (hG : G t = .idle) {row : ApiKeyRow} (hr : row ∈ s)
    (hrev : (calls t).Revokes row) : KeyInv b calls (Function.update G t (.found row.id)) s := by
  refine ⟨fun u id hu => ?_, fun a ha => ?_, fun u id hu => ?_, fun a ha => ?_⟩
  · exact h.issued u id ((Conc.update_eq_iff hG (by simp) (by simp)).mp hu)
  · obtain ⟨u, hu⟩ := h.row a ha
    exact ⟨u, (Conc.update_eq_iff hG (by simp) (by simp)).mpr hu⟩
  · by_cases hut : u = t
    · rw [hut, Function.update_self] at hu
      rcases hu with hu | hu
      · cases hu
        rw [hut]
        exact ⟨row, hr, rfl, hrev⟩
      · cases hu
    · rw [Function.update_of_ne hut] at hu
      exact h.revokes u id hu
  · rw [h.active a ha]
    exact exists_congr fun u => (Conc.update_eq_iff hG (by simp) (by simp)).symm

omit [DecidableEq ι] in
/-- The revocation of a row changes nothing that its calls know. -/
theorem Inserts.setRevoked {now : Nat} {row : ApiKeyRow} :
    (calls t).Inserts b (setRevoked now row) ↔ (calls t).Inserts b row := by
  cases calls t <;> rfl

omit [DecidableEq ι] in
theorem Revokes.setRevoked {now : Nat} {row : ApiKeyRow} :
    (calls t).Revokes (setRevoked now row) ↔ (calls t).Revokes row := by
  cases calls t <;> rfl

theorem KeyInv.revoke (h : KeyInv b calls G s) {id : String} (hG : G t = .found id) {now : Nat}
    {row : ApiKeyRow} (hu : s.update id (setRevoked now) (keeps_setRevoked now) = some (row, s')) :
    KeyInv b calls (Function.update G t (.revoked id)) s' := by
  refine ⟨fun u id' hu' => ?_, fun a ha => ?_, fun u id' hu' => ?_, fun a ha => ?_⟩
  · have hrow := h.issued u id' ((Conc.update_eq_iff hG (by simp) (by simp)).mp hu')
    exact (Table.exists_update hu fun a => and_congr Iff.rfl Inserts.setRevoked).mpr hrow
  · obtain ⟨a', ha', hid⟩ := (Table.exists_update (P := fun a' => a'.id = a.id) hu
      fun _ => Iff.rfl).mp ⟨a, ha, rfl⟩
    obtain ⟨u, hu'⟩ := h.row a' ha'
    exact ⟨u, (Conc.update_eq_iff hG (by simp) (by simp)).mpr (by rw [hu', hid])⟩
  · have hrow : ∃ row ∈ s, row.id = id' ∧ (calls u).Revokes row := by
      by_cases hut : u = t
      · rw [hut, Function.update_self] at hu'
        rcases hu' with hu' | hu'
        · cases hu'
        · cases hu'
          rw [hut]
          exact h.revokes t id (.inl hG)
      · rw [Function.update_of_ne hut] at hu'
        exact h.revokes u id' hu'
    exact (Table.exists_update hu fun a => and_congr Iff.rfl Revokes.setRevoked).mpr hrow
  · rcases (Table.mem_update hu).mp ha with ⟨ha, hne⟩ | rfl
    · rw [h.active a ha]
      exact exists_congr fun u =>
        (Conc.update_eq_iff hG (by simp) (by simpa using hne)).symm
    · obtain ⟨a', -, hid, rfl, -⟩ := Table.update_some hu
      exact iff_of_true rfl ⟨t, by rw [Function.update_self, ← hid]; rfl⟩

/-! ## Each call keeps the invariant -/

def KeyEnded (call : ApiKeyCall) (r : Except Err ApiKeyAnswer) (g : KeyStage) : Prop :=
  match r with
  | .ok (.created result) => g = .issued result.id ∧ ∃ tenantId label expiresInDays draw,
      call = .create tenantId label expiresInDays draw ∧
        result.rawKey = ApiKeyService.rawKey draw.random ∧
        result.expiresAt = ApiKeyService.expiry expiresInDays draw.now
  | .ok .revoked => ∃ keyId tenantId, call = .revoke keyId tenantId ∧ g = .revoked keyId
  | .error _ => g = .idle ∨ ∃ id, g = .found id

theorem KeyEnded.of_issued {call : ApiKeyCall} {r : Except Err ApiKeyAnswer} {id : String}
    (h : KeyEnded call r (.issued id)) : ∃ result, r = .ok (.created result) ∧ result.id = id := by
  match r with
  | .error e => rcases h with h | ⟨id', h⟩ <;> cases h
  | .ok .revoked => obtain ⟨_, _, _, h⟩ := h; cases h
  | .ok (.created result) => exact ⟨result, rfl, (KeyStage.issued.inj h.1).symm⟩

theorem KeyEnded.of_revoked {call : ApiKeyCall} {r : Except Err ApiKeyAnswer} {id : String}
    (h : KeyEnded call r (.revoked id)) : r = .ok .revoked := by
  match r with
  | .error e => rcases h with h | ⟨id', h⟩ <;> cases h
  | .ok .revoked => rfl
  | .ok (.created result) => cases h.1

theorem keyProto_create {tenantId label : String} {expiresInDays : Option Nat} {draw : Draw}
    (ht : calls t = .create tenantId label expiresInDays draw) :
    (keyProto b calls).WP t (KeyEnded (.create tenantId label expiresInDays draw))
      ((ApiKeyCall.create tenantId label expiresInDays draw).run b.hash) .idle := by
  refine Proto.WP.bind ?_
  refine Proto.WP.perform_bind fun G s tr d r s' hG hi _ hx => ⟨trivial, ?_⟩
  rcases exec_insertKey hx with ⟨e, rfl, rfl⟩ | ⟨id, rfl, hins⟩
  · exact Proto.keep hG hi (.inl rfl)
  · refine ⟨_, KeyInv.insert hi hG hins ?_ rfl, ?_⟩
    · rw [ht]
      exact ⟨rfl, rfl, rfl, rfl, rfl⟩
    · exact ⟨rfl, tenantId, label, expiresInDays, draw, rfl, rfl, rfl⟩

theorem keyProto_revoke {keyId tenantId : String} (ht : calls t = .revoke keyId tenantId) :
    (keyProto b calls).WP t (KeyEnded (.revoke keyId tenantId))
      ((ApiKeyCall.revoke keyId tenantId).run b.hash) .idle := by
  refine Proto.WP.bind ?_
  refine Proto.WP.perform_bind fun G s tr d r s' hG hi _ hx => ⟨trivial, ?_⟩
  obtain ⟨rfl, ⟨e, rfl⟩ | rfl | ⟨row, hr, rfl, hid, hten⟩⟩ := exec_findKey hx
  · exact Proto.keep hG hi (.inl rfl)
  · exact Proto.keep hG hi (.inl rfl)
  · refine ⟨_, KeyInv.find hi hG hr (by rw [ht]; exact ⟨hid, hten⟩), ?_⟩
    refine Proto.WP.perform_bind fun G s tr d r s' hG hi _ hx => ⟨trivial, ?_⟩
    rcases exec_revokeKey hx with ⟨e, rfl, rfl⟩ | ⟨row', rfl, hu⟩
    · exact Proto.keep hG hi (.inr ⟨_, rfl⟩)
    · rw [← hid] at hu
      exact ⟨_, KeyInv.revoke hi hG hu, keyId, tenantId, rfl, by rw [hid]⟩

theorem keyProto_start :
    (keyProto b calls).Ok (fun t => KeyEnded (calls t)) (startKeys b calls) := by
  refine ⟨fun _ => .idle, ⟨?_, ?_, ?_, ?_⟩, fun t => ?_⟩
  · exact fun t id h => by cases h
  · exact fun row h => absurd h Table.not_mem_empty
  · exact fun t id h => by rcases h with h | h <;> cases h
  · exact fun row h => absurd h Table.not_mem_empty
  · show (keyProto b calls).WP t (KeyEnded (calls t)) ((calls t).run b.hash) .idle
    cases ht : calls t with
    | create tenantId label expiresInDays draw => exact keyProto_create ht
    | revoke keyId tenantId => exact keyProto_revoke ht

omit [DecidableEq ι] in
/-- The hash of a row that a `create` inserted is that of the key of the call. -/
theorem ApiKeyCall.Inserts.compare {row : ApiKeyRow} {k : String} (h : (calls t).Inserts b row) :
    ∃ tenantId label expiresInDays draw, calls t = .create tenantId label expiresInDays draw ∧
      (b.compare k row.keyHash ↔ k = ApiKeyService.rawKey draw.random) := by
  cases ht : calls t with
  | revoke keyId tenantId => rw [ht] at h; exact h.elim
  | create tenantId label expiresInDays draw =>
    rw [ht] at h
    obtain ⟨-, -, hhash, -, -⟩ := h
    exact ⟨tenantId, label, expiresInDays, draw, rfl, by rw [hhash, b.compare_hash]⟩

omit [DecidableEq ι] in
theorem KeyInv.unique (h : KeyInv b calls G s) (hrandom : DistinctRandoms calls) {k : String}
    {row row' : ApiKeyRow} (hr : row ∈ s) (hr' : row' ∈ s) (hc : b.compare k row.keyHash)
    (hc' : b.compare k row'.keyHash) : row = row' := by
  have hof : ∀ a ∈ s, b.compare k a.keyHash → ∃ t r, G t = .issued a.id ∧
      (calls t).random? = some r ∧ k = ApiKeyService.rawKey r := by
    intro a ha hca
    obtain ⟨t, ht⟩ := h.row a ha
    obtain ⟨a', ha', hid, hins⟩ := h.issued t _ ht
    rw [Table.eq_of_key ha' ha hid] at hins
    obtain ⟨_, _, _, draw, hcall, hiff⟩ := hins.compare (k := k)
    exact ⟨t, draw.random, ht, by rw [hcall]; rfl, hiff.mp hca⟩
  obtain ⟨t, r, ht, hrt, hk⟩ := hof row hr hc
  obtain ⟨u, r', hu, hru, hk'⟩ := hof row' hr' hc'
  have hrr : r = r' := ApiKeyService.rawKey_injective (hrandom.length t r hrt)
    (hrandom.length u r' hru) (hk.symm.trans hk')
  have htu : t = u := hrandom.distinct t u r hrt (by rw [hru, hrr])
  rw [htu, hu] at ht
  exact Table.eq_of_key hr hr' (KeyStage.issued.inj ht).symm

end Pool

/-! ## What `validate` finds -/

section Validate

variable {b : Bcrypt} {tenants : String → TenantRow} {now : Nat} {k : String} {s s' : KeyStore}
  {rows : List TenantApiKey} {ref : TenantRef}

/-- What `validate` asks of a row. -/
structure ApiKeyRow.Opens (b : Bcrypt) (tenants : String → TenantRow) (now : Nat) (k : String)
    (row : ApiKeyRow) : Prop where
  hashPrefix : row.hashPrefix = Js.slice k 3 (3 + ApiKeyService.prefixLen)
  active : row.active = true
  expiresAt : row.expiresAt.all (now < ·)
  tenant : (tenants row.tenantId).active = true
  compare : b.compare k row.keyHash

/-- `validate` returns the tenant of the row that a key opens, whatever the order of the rows, if a
key is that of one row at most. -/
theorem validate_iff (hrows : rows.Perm (KeyStore.joined s tenants))
    (hu : ∀ a ∈ s, ∀ a' ∈ s, b.compare k a.keyHash → b.compare k a'.keyHash → a = a') :
    ApiKeyService.validate b.compare now rows k = some ref ↔ Js.startsWith k "pk_" ∧
      ∃ row ∈ s, row.Opens b tenants now k ∧ ref = ⟨row.tenantId, (tenants row.tenantId).name⟩ := by
  have hmem : ∀ j, j ∈ rows ↔ ∃ row ∈ s, row.withTenant tenants = j := fun j => by
    rw [hrows.mem_iff, KeyStore.joined, List.mem_map]
    rfl
  have hopens : ∀ row : ApiKeyRow, row.Opens b tenants now k ↔
      ApiKeyService.isCandidate now (Js.slice k 3 (3 + ApiKeyService.prefixLen))
        (row.withTenant tenants) ∧ ((row.withTenant tenants).tenantActive &&
          b.compare k (row.withTenant tenants).keyHash) := by
    intro row
    simp only [ApiKeyService.isCandidate, decide_eq_true_eq, Bool.and_eq_true]
    exact ⟨fun h => ⟨⟨h.hashPrefix, h.active, h.expiresAt⟩, h.tenant, h.compare⟩,
      fun ⟨⟨h₁, h₂, h₃⟩, h₄, h₅⟩ => ⟨h₁, h₂, h₃, h₄, h₅⟩⟩
  unfold ApiKeyService.validate
  by_cases hk : Js.startsWith k "pk_"
  · rw [if_pos hk, Option.map_eq_some_iff]
    simp only [hk, true_and]
    constructor
    · rintro ⟨j, hj, rfl⟩
      obtain ⟨hjm, hcand⟩ := List.mem_filter.mp (List.mem_of_find?_eq_some hj)
      obtain ⟨row, hr, rfl⟩ := (hmem j).mp hjm
      have hfind := List.find?_some hj
      exact ⟨row, hr, (hopens row).mpr ⟨hcand, hfind⟩, rfl⟩
    · rintro ⟨row, hr, ho, rfl⟩
      obtain ⟨hcand, hfind⟩ := (hopens row).mp ho
      have hin := List.mem_filter.mpr ⟨(hmem _).mpr ⟨row, hr, rfl⟩, hcand⟩
      -- another row that the loop stops at would be one of the same key
      obtain ⟨j, hj⟩ := Option.isSome_iff_exists.mp (List.find?_isSome
        (p := fun j : TenantApiKey => j.tenantActive && b.compare k j.keyHash).mpr ⟨_, hin, hfind⟩)
      obtain ⟨row', hr', rfl⟩ := (hmem j).mp (List.mem_of_mem_filter (List.mem_of_find?_eq_some hj))
      have hfind' := List.find?_some hj
      rw [hu row hr row' hr' ho.compare (Bool.and_eq_true_iff.mp hfind').2]
      exact ⟨_, hj, rfl⟩
  · rw [if_neg hk]
    exact iff_of_false (by simp) fun h => hk h.1

/-- What a `revoke` by the tenant `revoker` does to the rows. -/
structure RevokedOnly (revoker : String) (s s' : KeyStore) : Prop where
  others : ∀ row, row.tenantId ≠ revoker → (row ∈ s' ↔ row ∈ s)
  same : ∀ row ∈ s', ∃ old ∈ s, old.id = row.id ∧ old.keyHash = row.keyHash

theorem RevokedOnly.refl (revoker : String) (s : KeyStore) : RevokedOnly revoker s s :=
  ⟨fun _ _ => Iff.rfl, fun row hr => ⟨row, hr, rfl, rfl⟩⟩

theorem revoke_alone (keyId revoker : String) (s : KeyStore) :
    Alone (fun _ _ => True) (fun _ s' => RevokedOnly revoker s s')
      (ApiKeyService.revoke keyId revoker) s := by
  refine Alone.perform_bind fun d r s₁ _ hx => ?_
  obtain ⟨rfl, ⟨e, rfl⟩ | rfl | ⟨row, hr, rfl, hid, hten⟩⟩ := exec_findKey hx
  · exact .refl revoker s₁
  · exact .refl revoker s₁
  · refine Alone.perform_bind fun d r s₂ _ hx => ?_
    rcases exec_revokeKey hx with ⟨e, rfl, rfl⟩ | ⟨row', rfl, hu⟩
    · exact .refl revoker s₂
    · obtain ⟨a, ha, haid, rfl, -⟩ := Table.update_some hu
      have hrow : a = row := Table.eq_of_key ha hr (haid.trans hid.symm)
      refine ⟨fun x hx => ?_, fun x hx => ?_⟩
      · rw [Table.mem_update hu]
        have hne : x ≠ setRevoked d.now a := by
          rintro rfl
          exact hx (by rw [hrow]; exact hten)
        rw [or_iff_left hne]
        refine ⟨And.left, fun hxs => ⟨hxs, fun hxid => hx ?_⟩⟩
        rw [Table.eq_of_key hxs hr (hxid.trans hid.symm)]
        exact hten
      · exact (Table.exists_update (P := fun o => o.id = x.id ∧ o.keyHash = x.keyHash) hu
          fun _ => Iff.rfl).mp ⟨x, hx, rfl, rfl⟩

/-- The rows of the other tenants open the same keys after a `revoke`. -/
theorem RevokedOnly.validate {revoker : String} (h : RevokedOnly revoker s s')
    {rows' : List TenantApiKey} (hrows : rows.Perm (KeyStore.joined s tenants))
    (hrows' : rows'.Perm (KeyStore.joined s' tenants))
    (hu : ∀ a ∈ s, ∀ a' ∈ s, b.compare k a.keyHash → b.compare k a'.keyHash → a = a')
    (href : ref.id ≠ revoker) :
    ApiKeyService.validate b.compare now rows' k = some ref ↔
      ApiKeyService.validate b.compare now rows k = some ref := by
  have hu' : ∀ a ∈ s', ∀ a' ∈ s', b.compare k a.keyHash → b.compare k a'.keyHash → a = a' := by
    intro a ha a' ha' hc hc'
    obtain ⟨o, ho, hoid, hohash⟩ := h.same a ha
    obtain ⟨o', ho', hoid', hohash'⟩ := h.same a' ha'
    have hoo : o = o' := hu o ho o' ho' (by rw [hohash]; exact hc) (by rw [hohash']; exact hc')
    exact Table.eq_of_key ha ha' (by rw [← hoid, hoo, hoid'])
  rw [validate_iff hrows hu, validate_iff hrows' hu']
  refine and_congr_right fun _ => exists_congr fun row => ?_
  constructor
  · rintro ⟨hr, ho, rfl⟩
    exact ⟨(h.others row href).mp hr, ho, rfl⟩
  · rintro ⟨hr, ho, rfl⟩
    exact ⟨(h.others row href).mpr hr, ho, rfl⟩

end Validate

/-! ## The keys that are accepted -/

section Accepted

variable {ι : Type} (b : Bcrypt) (calls : ι → ApiKeyCall) (c : Conf keyMachine ι ApiKeyAnswer)
  (tenants : String → TenantRow) (now : Nat) (k : String)

/-- The tenant is active, and `k` is the key that a `create` returned for it, which no `revoke`
revoked and which has not expired. -/
structure KeyAccepted (tenantId : String) : Prop where
  tenant : (tenants tenantId).active = true
  key : ∃ t label expiresInDays draw result,
    calls t = .create tenantId label expiresInDays draw ∧ c.thr t = .ret (.created result) ∧
      result.rawKey = k ∧ result.expiresAt.all (now < ·) ∧
      ∀ u revoker, calls u = .revoke result.id revoker → c.thr u ≠ .ret .revoked

/-- What `validate` does with the key `k`, when it reads `rows`: it accepts it for the tenant that
it was issued to; and a further `revoke` makes no difference to the keys of the other tenants. -/
structure ValidatesExactly (rows : List TenantApiKey) : Prop where
  accepts : ∀ ref, ApiKeyService.validate b.compare now rows k = some ref ↔
    ∃ tenantId, KeyAccepted calls c tenants now k tenantId ∧
      ref = ⟨tenantId, (tenants tenantId).name⟩
  others : ∀ keyId revoker ω rows',
    rows'.Perm (KeyStore.joined ((ApiKeyService.revoke keyId revoker).run ω c.st).state tenants) →
    ∀ ref : TenantRef, ref.id ≠ revoker →
      (ApiKeyService.validate b.compare now rows' k = some ref ↔
        ApiKeyService.validate b.compare now rows k = some ref)

variable {b calls c tenants now k} {G : ι → KeyStage} {tenantId : String}

theorem KeyAccepted.opens (h : KeyAccepted calls c tenants now k tenantId)
    (hrandom : DistinctRandoms calls) (hi : KeyInv b calls G c.st)
    (hend : ∀ t r, c.thr t = .ofExcept r → KeyEnded (calls t) r (G t))
    (hall : ∀ t, ∃ r, c.thr t = .ofExcept r) :
    ∃ row ∈ c.st, row.Opens b tenants now k ∧ row.tenantId = tenantId := by
  obtain ⟨htenant, t, label, expiresInDays, draw, result, hcall, hret, hk, hexp, hnot⟩ := h
  obtain ⟨hG, _, _, _, _, hcall', hraw, hexpiry⟩ := hend t (.ok (.created result)) hret
  cases hcall.symm.trans hcall'
  obtain ⟨row, hr, hid, hins⟩ := hi.issued t result.id hG
  rw [hcall] at hins
  obtain ⟨hten, -, hhash, hpre, hexpires⟩ := hins
  refine ⟨row, hr, ⟨?_, ?_, ?_, ?_, ?_⟩, hten⟩
  · rw [← hk, hraw, ApiKeyService.rawKey_slice (hrandom.length t _ (by rw [hcall]; rfl))]
    exact hpre
  · -- a row that is not active was revoked by a call that returned
    by_contra hact
    obtain ⟨u, hu⟩ := (hi.active row hr).mp (Bool.eq_false_iff.mpr hact)
    obtain ⟨r, hur⟩ := hall u
    have hended := hend u r hur
    rw [hu] at hended
    cases hended.of_revoked
    obtain ⟨keyId, revoker, hcu, hg⟩ := hended
    cases hg
    exact hnot u revoker (by rw [hcu, hid]) hur
  · rw [hexpires, ← hexpiry]
    exact hexp
  · rw [hten]
    exact htenant
  · rw [hhash, b.compare_hash, ← hraw, hk]

theorem ApiKeyRow.Opens.accepted {row : ApiKeyRow} (h : row.Opens b tenants now k) (hr : row ∈ c.st)
    (hi : KeyInv b calls G c.st)
    (hend : ∀ t r, c.thr t = .ofExcept r → KeyEnded (calls t) r (G t))
    (hall : ∀ t, ∃ r, c.thr t = .ofExcept r) :
    KeyAccepted calls c tenants now k row.tenantId := by
  obtain ⟨t, ht⟩ := hi.row row hr
  obtain ⟨row', hr', hid, hins⟩ := hi.issued t _ ht
  rw [Table.eq_of_key hr' hr hid] at hins
  obtain ⟨tenantId, label, expiresInDays, draw, hcall, hiff⟩ := hins.compare (k := k)
  rw [hcall] at hins
  obtain ⟨rfl, -, -, -, hexpires⟩ := hins
  refine ⟨h.tenant, t, label, expiresInDays, draw, ?_⟩
  obtain ⟨r, htr⟩ := hall t
  have hended := hend t r htr
  rw [ht, hcall] at hended
  obtain ⟨result, rfl, hid'⟩ := hended.of_issued
  obtain ⟨-, _, _, _, _, hc, hraw, hexpiry⟩ := hended
  cases hc
  refine ⟨result, hcall, htr, ?_, ?_, fun u revoker hu hret => ?_⟩
  · rw [hraw]
    exact (hiff.mp h.compare).symm
  · rw [hexpiry, ← hexpires]
    exact h.expiresAt
  · -- a `revoke` that returned would have updated the row
    obtain ⟨keyId, revoker', hcu, hg⟩ := hend u (.ok .revoked) hret
    cases hu.symm.trans hcu
    rw [hid'] at hg
    have hact := (hi.active row hr).mpr ⟨u, hg⟩
    rw [h.active] at hact
    cases hact

end Accepted

/-- **API keys: issued, not revoked and not expired, and nothing else.** After any calls of `create`
and `revoke`, when all of them have ended. -/
theorem api_key_accepted_iff {ι : Type} [DecidableEq ι] (b : Bcrypt) (calls : ι → ApiKeyCall)
    (hrandom : DistinctRandoms calls) (c : Conf keyMachine ι ApiKeyAnswer)
    (hr : Conf.Reach Conc.Any (startKeys b calls) c) (hall : ∀ t, ∃ r, c.thr t = .ofExcept r)
    (tenants : String → TenantRow) (rows : List TenantApiKey)
    (hrows : rows.Perm (KeyStore.joined c.st tenants)) (now : Nat) (k : String) :
    ValidatesExactly b calls c tenants now k rows := by
  obtain ⟨G, hi, hend⟩ := (Proto.sound keyProto_start hr).ended
  have hu : ∀ a ∈ c.st, ∀ a' ∈ c.st, b.compare k a.keyHash → b.compare k a'.keyHash → a = a' :=
    fun a ha a' ha' => hi.unique hrandom ha ha'
  refine ⟨fun ref => ?_, fun keyId revoker ω rows' hrows' ref href => ?_⟩
  · rw [validate_iff hrows hu]
    constructor
    · rintro ⟨-, row, hrow, hopens, rfl⟩
      exact ⟨row.tenantId, hopens.accepted hrow hi hend hall, rfl⟩
    · rintro ⟨tenantId, hacc, rfl⟩
      obtain ⟨row, hrow, hopens, rfl⟩ := hacc.opens hrandom hi hend hall
      refine ⟨?_, row, hrow, hopens, rfl⟩
      obtain ⟨t, -, -, draw, result, hcall, hret, rfl, -, -⟩ := hacc.key
      obtain ⟨-, -, -, -, draw', -, hraw, -⟩ := hend t (.ok (.created result)) hret
      rw [hraw]
      exact ApiKeyService.startsWith_rawKey draw'.random
  · exact ((revoke_alone keyId revoker c.st).run fun _ => trivial).validate hrows hrows' hu href

/-! ### Two keys with one prefix -/

def sampleBcrypt : Bcrypt where
  hash _ key := "$2a$10$" ++ key
  compare key hash := hash = "$2a$10$" ++ key
  compare_hash salt key key' := by
    rw [decide_eq_true_eq, ← String.toList_inj, String.toList_append, String.toList_append,
      List.append_cancel_left_eq, String.toList_inj]
    exact eq_comm

/-- Two tenants make a key each, one of them tries to revoke the key of the other, and the other one
revokes it. -/
def apiKeyCalls : Fin 4 → ApiKeyCall := ![
  .create "acme" "server" none ⟨"abcdefgh1", "salt", 1000⟩,
  .create "other" "server" (some 30) ⟨"abcdefgh2", "pepper", 1000⟩,
  .revoke "k1" "other", .revoke "k1" "acme"]

def apiKeyRun : Conf keyMachine (Fin 4) ApiKeyAnswer :=
  (startKeys sampleBcrypt apiKeyCalls).play [
    (0, { newId := "k1" }), (1, { newId := "k2" }), (2, {}), (3, {}), (3, { now := 1500 })]

def sampleTenants (id : String) : TenantRow := ⟨id, true⟩

theorem api_key_sample :
    ValidatesExactly sampleBcrypt apiKeyCalls apiKeyRun sampleTenants 2000
        (ApiKeyService.rawKey "abcdefgh2") (KeyStore.joined apiKeyRun.st sampleTenants) ∧
      ApiKeyService.validate sampleBcrypt.compare 2000 (KeyStore.joined apiKeyRun.st sampleTenants)
        (ApiKeyService.rawKey "abcdefgh2") = some ⟨"other", "other"⟩ ∧
      ApiKeyService.validate sampleBcrypt.compare 2000 (KeyStore.joined apiKeyRun.st sampleTenants)
        (ApiKeyService.rawKey "abcdefgh1") = none := by
  have hlength : ∀ t, (apiKeyCalls t).random?.all (ApiKeyService.prefixLen ≤ ·.length) := by decide
  have hdistinct : ∀ t u, (apiKeyCalls t).random?.isSome →
      (apiKeyCalls t).random? = (apiKeyCalls u).random? → t = u := by decide
  have hrandom : DistinctRandoms apiKeyCalls := by
    refine ⟨fun t r ht => ?_, fun t u r ht hu => hdistinct t u (by rw [ht]; rfl) (ht.trans hu.symm)⟩
    have h := hlength t
    rw [ht] at h
    exact of_decide_eq_true h
  have hall : ∀ t, ∃ r, apiKeyRun.thr t = .ofExcept r
    | 0 => ⟨.ok (.created ⟨"k1", _, _, _⟩), rfl⟩
    | 1 => ⟨.ok (.created ⟨"k2", _, _, _⟩), rfl⟩
    | 2 => ⟨.error (.notFound "API key no encontrada"), rfl⟩
    | 3 => ⟨.ok .revoked, rfl⟩
  exact ⟨api_key_accepted_iff sampleBcrypt apiKeyCalls hrandom apiKeyRun
    (Conf.reach_play (Conf.plays_any _ _)) hall sampleTenants _ (List.Perm.refl _) 2000 _,
    by decide +kernel, by decide +kernel⟩

end Pasarela
