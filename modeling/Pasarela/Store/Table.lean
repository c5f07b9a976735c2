import Mathlib.Data.Fintype.EquivFin
import Mathlib.Data.List.MinMax
import Mathlib.Data.List.Nodup
import Mathlib.Data.List.Sort

/-!
# Tables with a key and a unique constraint

`Table key uniq` is a table of a relational database: its rows in the order they were inserted,
with the proof that no two rows have the same `key` (the primary key) or the same `uniq` (the
columns of a unique constraint; a table without one takes its key for `uniq`).

* `insert`: refused, with the violated `Constraint`, if a row with that key or those columns is
  there already.
* `update k f`: the row with key `k` becomes `f` of it; `none` if there is no such row. `f` keeps
  the key and the unique columns. `updateAll f`: so does every row.
* `find`: the row with a key. `findFirst`: a row that satisfies a predicate. A database returns any
  of them; `rank` says which one it returns now. `first_of_insertionSort`: the first row of a query
  with an order that satisfies one. `first_unique`, `exists_first`: the first one of a list.
* `mem_insert`, `mem_update`: the rows afterwards.
* `Agree own`: two tables have the same rows among those with `own`. An insert or an update of such
  a row keeps it, and so does one of another row in one of the tables. Queries for such rows have
  the same answers (`Agree.find?_eq`, `Agree.sort_eq`, `Agree.filter_perm`).
-/

namespace Store

/-- The constraint that an insert violates. -/
inductive Constraint where
  | key
  | uniq
  deriving DecidableEq, Repr

/-- A table (module doc). -/
structure Table {α κ υ : Type} (key : α → κ) (uniq : α → υ) where
  rows : List α
  nodup_key : (rows.map key).Nodup
  nodup_uniq : (rows.map uniq).Nodup

namespace Table

variable {α κ υ : Type} {key : α → κ} {uniq : α → υ}

instance : Membership α (Table key uniq) := ⟨fun t a => a ∈ t.rows⟩

theorem mem_def {t : Table key uniq} {a : α} : a ∈ t ↔ a ∈ t.rows := Iff.rfl

/-- The table without rows. -/
def empty : Table key uniq := ⟨[], List.nodup_nil, List.nodup_nil⟩

@[simp] theorem not_mem_empty {a : α} : a ∉ (empty : Table key uniq) := List.not_mem_nil

theorem eq_of_key {t : Table key uniq} {a b : α} (ha : a ∈ t) (hb : b ∈ t)
    (h : key a = key b) : a = b :=
  List.inj_on_of_nodup_map t.nodup_key ha hb h

theorem eq_of_uniq {t : Table key uniq} {a b : α} (ha : a ∈ t) (hb : b ∈ t)
    (h : uniq a = uniq b) : a = b :=
  List.inj_on_of_nodup_map t.nodup_uniq ha hb h

/-! ## Reading -/

/-- A predicate that one row satisfies at most: the order does not matter. -/
theorem find?_of_unique {t : Table key uniq} {p : α → Bool} {a : α} (ha : a ∈ t) (hp : p a)
    (hu : ∀ b ∈ t, p b → b = a) : t.rows.find? p = some a := by
  cases h : t.rows.find? p with
  | none => exact absurd hp (List.find?_eq_none.mp h a ha)
  | some b => rw [hu b (List.mem_of_find?_eq_some h) (List.find?_some h)]

section Read

variable [DecidableEq κ]

/-- The row with key `k`. -/
def find (t : Table key uniq) (k : κ) : Option α := t.rows.find? fun a => key a = k

theorem find_eq_some {t : Table key uniq} {k : κ} {a : α} :
    t.find k = some a ↔ a ∈ t ∧ key a = k := by
  constructor
  · intro h
    exact ⟨List.mem_of_find?_eq_some h, by simpa using List.find?_some h⟩
  · rintro ⟨ha, rfl⟩
    refine find?_of_unique ha (by simp) fun b hb hk => ?_
    exact eq_of_key hb ha (by simpa using hk)

end Read

/-- The first row that satisfies `p`, in the order `rank`. -/
def findFirst (t : Table key uniq) (rank : α → Nat) (p : α → Bool) : Option α :=
  (t.rows.filter p).argmin rank

theorem findFirst_some {t : Table key uniq} {rank : α → Nat} {p : α → Bool} {a : α}
    (h : t.findFirst rank p = some a) : a ∈ t ∧ p a := by
  have hm := List.argmin_mem (Option.mem_def.mpr h)
  exact ⟨List.mem_of_mem_filter hm, List.of_mem_filter hm⟩

theorem findFirst_eq_none {t : Table key uniq} {rank : α → Nat} {p : α → Bool} :
    t.findFirst rank p = none ↔ ∀ a ∈ t, p a = false := by
  simp [findFirst, List.argmin_eq_none, List.filter_eq_nil_iff, mem_def]

theorem findFirst_eq_some {t : Table key uniq} {rank : α → Nat} {p : α → Bool} {a : α} (ha : a ∈ t)
    (hp : p a) (hu : ∀ b ∈ t, p b → b = a) : t.findFirst rank p = some a := by
  cases h : t.findFirst rank p with
  | none => rw [findFirst_eq_none.mp h a ha] at hp; cases hp
  | some b =>
    obtain ⟨hb, hpb⟩ := findFirst_some h
    rw [hu b hb hpb]

theorem findFirst_of_unique {t : Table key uniq} {rank : α → Nat} {p : α → Bool}
    (hu : ∀ a ∈ t, ∀ b ∈ t, p a → p b → a = b) : t.findFirst rank p = t.rows.find? p := by
  cases h : t.findFirst rank p with
  | none =>
    refine (List.find?_eq_none.mpr fun a ha hpa => ?_).symm
    rw [findFirst_eq_none.mp h a ha] at hpa
    cases hpa
  | some a =>
    obtain ⟨ha, hpa⟩ := findFirst_some h
    exact (find?_of_unique ha hpa fun b hb hpb => hu b hb a ha hpb hpa).symm

/-- The rows that satisfy a predicate, when one at most does. -/
theorem length_filter_le_one {t : Table key uniq} {p : α → Bool}
    (hu : ∀ a ∈ t, ∀ b ∈ t, p a → p b → a = b) : (t.rows.filter p).length ≤ 1 := by
  have hnd : (t.rows.filter p).Nodup := (List.Nodup.of_map _ t.nodup_key).filter _
  have hin : ∀ a ∈ t.rows.filter p, a ∈ t ∧ p a := fun a ha =>
    ⟨List.mem_of_mem_filter ha, List.of_mem_filter ha⟩
  match h : t.rows.filter p with
  | [] => exact Nat.zero_le 1
  | [a] => exact Nat.le_refl 1
  | a :: b :: l =>
    rw [h] at hnd hin
    obtain ⟨ha, hpa⟩ := hin a (by simp)
    obtain ⟨hb, hpb⟩ := hin b (by simp)
    have hne : a ≠ b := fun e => (List.nodup_cons.mp hnd).1 (by simp [e])
    exact absurd (hu a ha b hb hpa hpb) hne

/-- In a sorted list, the first element that satisfies `p` comes before the others that do. -/
theorem first_of_insertionSort {r : α → α → Prop} [DecidableRel r] [Std.Total r] [IsTrans α r]
    {p : α → Prop} {l l₁ l₂ : List α} {a : α} (h : l.insertionSort r = l₁ ++ a :: l₂)
    (hl : ∀ b ∈ l₁, ¬ p b) : a ∈ l ∧ ∀ b ∈ l, p b → b = a ∨ r a b := by
  have hmem : ∀ b, b ∈ l ↔ b ∈ l₁ ∨ b = a ∨ b ∈ l₂ := fun b => by
    rw [← List.mem_insertionSort r, h, List.mem_append, List.mem_cons]
  have hsorted : (l₁ ++ a :: l₂).Pairwise r := h ▸ List.pairwise_insertionSort r l
  refine ⟨(hmem a).mpr (.inr (.inl rfl)), fun b hb hp => ?_⟩
  rcases (hmem b).mp hb with hb | rfl | hb
  · exact absurd hp (hl b hb)
  · exact .inl rfl
  · exact .inr ((List.pairwise_cons.mp (List.pairwise_append.mp hsorted).2.1).1 b hb)

/-- The first element that satisfies `p` stands at one place. -/
theorem first_unique {p : α → Prop} {l₁ l₂ r₁ r₂ : List α} {a b : α}
    (h : l₁ ++ a :: r₁ = l₂ ++ b :: r₂) (ha : p a) (hb : p b) (hl₁ : ∀ x ∈ l₁, ¬ p x)
    (hl₂ : ∀ x ∈ l₂, ¬ p x) : l₁ = l₂ ∧ a = b := by
  classical
  have hwhile : ∀ {l r : List α} {c : α}, p c → (∀ x ∈ l, ¬ p x) →
      (l ++ c :: r).takeWhile (fun x => decide (¬ p x)) = l := by
    intro l r c hc hl
    rw [List.takeWhile_append_of_pos (by simpa using hl)]
    simp [hc]
  obtain rfl : l₁ = l₂ := by rw [← hwhile ha hl₁, h, hwhile hb hl₂]
  exact ⟨rfl, (List.cons.inj (List.append_cancel_left h)).1⟩

theorem exists_first {p : α → Prop} {l : List α} (h : ∃ x ∈ l, p x) :
    ∃ l₁ x l₂, l = l₁ ++ x :: l₂ ∧ p x ∧ ∀ y ∈ l₁, ¬ p y := by
  classical
  obtain ⟨x, hx, hp⟩ := h
  cases hf : l.find? (fun y => decide (p y)) with
  | none => exact absurd hp (by simpa using List.find?_eq_none.mp hf x hx)
  | some y =>
    obtain ⟨hy, l₁, l₂, hl, hbefore⟩ := List.find?_eq_some_iff_append.mp hf
    exact ⟨l₁, y, l₂, hl, by simpa using hy, fun z hz => by simpa using hbefore z hz⟩

/-! ## Inserting -/

section Insert

variable [DecidableEq κ] [DecidableEq υ]

/-- A new row at the end (module doc). -/
def insert (t : Table key uniq) (a : α) : Except Constraint (Table key uniq) :=
  if hk : key a ∈ t.rows.map key then .error .key
  else if hu : uniq a ∈ t.rows.map uniq then .error .uniq
  else .ok {
    rows := t.rows ++ [a]
    nodup_key := by
      rw [List.map_append]
      exact t.nodup_key.append (List.nodup_singleton _) (by simpa using hk)
    nodup_uniq := by
      rw [List.map_append]
      exact t.nodup_uniq.append (List.nodup_singleton _) (by simpa using hu) }

/-- What an insert does: the new row is at the end, and its key and columns are new. -/
theorem insert_ok {t t' : Table key uniq} {a : α} (h : t.insert a = .ok t') :
    t'.rows = t.rows ++ [a] ∧ (∀ b ∈ t, key b ≠ key a) ∧ ∀ b ∈ t, uniq b ≠ uniq a := by
  unfold insert at h
  split at h
  · cases h
  · rename_i hk
    split at h
    · cases h
    · rename_i hu
      cases h
      simp only [List.mem_map, not_exists, not_and] at hk hu
      exact ⟨rfl, hk, hu⟩

theorem mem_insert {t t' : Table key uniq} {a b : α} (h : t.insert a = .ok t') :
    b ∈ t' ↔ b ∈ t ∨ b = a := by
  rw [mem_def, (insert_ok h).1, List.mem_append, List.mem_singleton, mem_def]

/-- An insert keeps the row of each key. -/
theorem find_insert {t t' : Table key uniq} {a b : α} {k : κ} (h : t.insert a = .ok t')
    (hb : t.find k = some b) : t'.find k = some b := by
  obtain ⟨hmem, hk⟩ := find_eq_some.mp hb
  exact find_eq_some.mpr ⟨(mem_insert h).mpr (.inl hmem), hk⟩

/-- A row whose key and columns are new is inserted. -/
theorem insert_of_new {t : Table key uniq} {a : α} (hk : ∀ b ∈ t, key b ≠ key a)
    (hu : ∀ b ∈ t, uniq b ≠ uniq a) : ∃ t', t.insert a = .ok t' := by
  have hk' : ¬ key a ∈ t.rows.map key := by
    rw [List.mem_map]
    rintro ⟨b, hb, e⟩
    exact hk b hb e
  have hu' : ¬ uniq a ∈ t.rows.map uniq := by
    rw [List.mem_map]
    rintro ⟨b, hb, e⟩
    exact hu b hb e
  exact ⟨_, by rw [insert, dif_neg hk', dif_neg hu']⟩

end Insert

/-! ## Updating -/

/-- `f` keeps the key and the unique columns. -/
structure Keeps (key : α → κ) (uniq : α → υ) (f : α → α) : Prop where
  key : ∀ a, key (f a) = key a
  uniq : ∀ a, uniq (f a) = uniq a

/-- Every row becomes `f` of it. -/
def updateAll (t : Table key uniq) (f : α → α) (hf : Keeps key uniq f) : Table key uniq where
  rows := t.rows.map f
  nodup_key := by
    have h : key ∘ f = key := funext hf.key
    rw [List.map_map, h]
    exact t.nodup_key
  nodup_uniq := by
    have h : uniq ∘ f = uniq := funext hf.uniq
    rw [List.map_map, h]
    exact t.nodup_uniq

theorem mem_updateAll {t : Table key uniq} {f : α → α} {hf : Keeps key uniq f} {b : α} :
    b ∈ t.updateAll f hf ↔ ∃ a ∈ t, f a = b :=
  List.mem_map

section Update

variable [DecidableEq κ]

/-- The rows with key `k` replaced by `f` of them. -/
def modifyRows (key : α → κ) (k : κ) (f : α → α) (l : List α) : List α :=
  l.map fun a => if key a = k then f a else a

/-- The row with key `k` becomes `f` of it (module doc): the new row and the table. -/
def update (t : Table key uniq) (k : κ) (f : α → α) (hf : Keeps key uniq f) :
    Option (α × Table key uniq) :=
  match t.find k with
  | none => none
  | some a => some (f a, {
    rows := modifyRows key k f t.rows
    nodup_key := by
      have h : (modifyRows key k f t.rows).map key = t.rows.map key := by
        rw [modifyRows, List.map_map]
        refine List.map_congr_left fun b _ => ?_
        show key (if key b = k then f b else b) = key b
        split
        · exact hf.key b
        · rfl
      rw [h]
      exact t.nodup_key
    nodup_uniq := by
      have h : (modifyRows key k f t.rows).map uniq = t.rows.map uniq := by
        rw [modifyRows, List.map_map]
        refine List.map_congr_left fun b _ => ?_
        show uniq (if key b = k then f b else b) = uniq b
        split
        · exact hf.uniq b
        · rfl
      rw [h]
      exact t.nodup_uniq })

variable {t t' : Table key uniq} {k : κ} {f : α → α} {hf : Keeps key uniq f} {a b : α}

/-- What an update does: the row `b` after it was the row `a` with key `k`. -/
theorem update_some (h : t.update k f hf = some (b, t')) :
    ∃ a ∈ t, key a = k ∧ b = f a ∧ t'.rows = modifyRows key k f t.rows := by
  unfold update at h
  split at h
  · cases h
  · rename_i a e
    cases h
    exact ⟨a, (find_eq_some.mp e).1, (find_eq_some.mp e).2, rfl, rfl⟩

theorem update_of_mem (ha : a ∈ t) (hk : key a = k) :
    ∃ t', t.update k f hf = some (f a, t') := by
  have e : t.find k = some a := find_eq_some.mpr ⟨ha, hk⟩
  unfold update
  split
  · rename_i e'; rw [e] at e'; cases e'
  · rename_i a' e'
    rw [e] at e'
    cases e'
    exact ⟨_, rfl⟩

/-- The rows after an update: the others, and the new one. -/
theorem mem_update (h : t.update k f hf = some (b, t')) {c : α} :
    c ∈ t' ↔ (c ∈ t ∧ key c ≠ k) ∨ c = b := by
  obtain ⟨a, ha, hk, rfl, hr⟩ := update_some h
  rw [mem_def, hr, modifyRows, List.mem_map]
  constructor
  · rintro ⟨c', hc', rfl⟩
    by_cases hck : key c' = k
    · rw [if_pos hck, eq_of_key hc' ha (hck.trans hk.symm)]
      exact .inr rfl
    · rw [if_neg hck]
      exact .inl ⟨hc', hck⟩
  · rintro (⟨hc, hck⟩ | rfl)
    · exact ⟨c, hc, if_neg hck⟩
    · exact ⟨a, ha, if_pos hk⟩

theorem key_update (h : t.update k f hf = some (b, t')) : key b = k := by
  obtain ⟨a, -, hk, rfl, -⟩ := update_some h
  rw [hf.key, hk]

/-- Whether some row has a property that the update keeps. -/
theorem exists_update (h : t.update k f hf = some (b, t')) {P : α → Prop}
    (hP : ∀ a, P (f a) ↔ P a) : (∃ a ∈ t', P a) ↔ ∃ a ∈ t, P a := by
  obtain ⟨a, ha, hka, rfl, -⟩ := update_some h
  constructor
  · rintro ⟨c, hc, hPc⟩
    rcases (mem_update h).mp hc with ⟨hc, -⟩ | rfl
    · exact ⟨c, hc, hPc⟩
    · exact ⟨a, ha, (hP a).mp hPc⟩
  · rintro ⟨c, hc, hPc⟩
    by_cases hk : key c = k
    · rw [eq_of_key hc ha (hk.trans hka.symm)] at hPc
      exact ⟨f a, (mem_update h).mpr (.inr rfl), (hP a).mpr hPc⟩
    · exact ⟨c, (mem_update h).mpr (.inl ⟨hc, hk⟩), hPc⟩

theorem find_update_self (h : t.update k f hf = some (b, t')) : t'.find k = some b :=
  find_eq_some.mpr ⟨(mem_update h).mpr (.inr rfl), key_update h⟩

theorem find_update_of_ne (h : t.update k f hf = some (b, t')) {k' : κ} (hk : k' ≠ k) :
    t'.find k' = t.find k' := by
  ext c
  simp only [find_eq_some, mem_update h]
  constructor
  · rintro ⟨⟨hc, -⟩ | rfl, rfl⟩
    · exact ⟨hc, rfl⟩
    · exact absurd (key_update h) hk
  · rintro ⟨hc, rfl⟩
    exact ⟨.inl ⟨hc, hk⟩, rfl⟩

end Update

/-! ## Two tables with the same rows of one kind -/

/-- The tables have the same rows among those with `own`. -/
def Agree (own : α → Prop) (t₁ t₂ : Table key uniq) : Prop := ∀ a, own a → (a ∈ t₁ ↔ a ∈ t₂)

namespace Agree

variable {own : α → Prop} {t t₁ t₂ t' t₁' t₂' : Table key uniq}

theorem refl : Agree own t t := fun _ _ => Iff.rfl

theorem trans (h : Agree own t₁ t₂) (h' : Agree own t₂ t') : Agree own t₁ t' :=
  fun a ha => (h a ha).trans (h' a ha)

theorem mono {own' : α → Prop} (h : Agree own t₁ t₂) (ho : ∀ a, own' a → own a) :
    Agree own' t₁ t₂ :=
  fun a ha => h a (ho a ha)

/-- The rows with `own` that satisfy a predicate are the same, in some order. -/
theorem filter_perm (h : Agree own t₁ t₂) {p : α → Bool} (hp : ∀ a, p a → own a) :
    (t₁.rows.filter p).Perm (t₂.rows.filter p) := by
  have h₁ : (t₁.rows.filter p).Nodup := (List.Nodup.of_map _ t₁.nodup_key).filter _
  have h₂ : (t₂.rows.filter p).Nodup := (List.Nodup.of_map _ t₂.nodup_key).filter _
  refine (List.perm_ext_iff_of_nodup h₁ h₂).mpr fun a => ?_
  rw [List.mem_filter, List.mem_filter]
  exact and_congr_left fun hpa => h a (hp a hpa)

/-- A query for a row with `own` that no other satisfies. -/
theorem find?_eq (h : Agree own t₁ t₂) {p : α → Bool} (h₁ : ∀ a ∈ t₁, p a → own a)
    (h₂ : ∀ a ∈ t₂, p a → own a) (hu : ∀ a ∈ t₁, ∀ b ∈ t₁, p a → p b → a = b) :
    t₁.rows.find? p = t₂.rows.find? p := by
  cases e : t₁.rows.find? p with
  | none =>
    rw [List.find?_eq_none] at e
    refine (List.find?_eq_none.mpr fun a ha hpa => ?_).symm
    exact e a ((h a (h₂ a ha hpa)).mpr ha) hpa
  | some a =>
    have ha : a ∈ t₁ := List.mem_of_find?_eq_some e
    have hpa : p a := List.find?_some e
    refine (find?_of_unique ((h a (h₁ a ha hpa)).mp ha) hpa fun b hb hpb => ?_).symm
    exact hu b ((h b (h₂ b hb hpb)).mpr hb) a ha hpb hpa

theorem findFirst_eq (h : Agree own t₁ t₂) {rank : α → Nat} {p : α → Bool}
    (hp : ∀ a, p a → own a) (hu : ∀ a ∈ t₁, ∀ b ∈ t₁, p a → p b → a = b) :
    t₁.findFirst rank p = t₂.findFirst rank p := by
  have hu₂ : ∀ a ∈ t₂, ∀ b ∈ t₂, p a → p b → a = b := fun a ha b hb hpa hpb =>
    hu a ((h a (hp a hpa)).mpr ha) b ((h b (hp b hpb)).mpr hb) hpa hpb
  rw [findFirst_of_unique hu, findFirst_of_unique hu₂]
  exact h.find?_eq (fun a _ => hp a) (fun a _ => hp a) hu

/-- A query for the rows with `own`, in an order without ties. -/
theorem sort_eq (h : Agree own t₁ t₂) {p : α → Bool} (hp : ∀ a, p a → own a) (r : α → α → Prop)
    [DecidableRel r] [Std.Total r] [IsTrans α r]
    (hr : ∀ a ∈ t₁, ∀ b ∈ t₁, r a b → r b a → a = b) :
    (t₁.rows.filter p).insertionSort r = (t₂.rows.filter p).insertionSort r := by
  have hperm : ((t₁.rows.filter p).insertionSort r).Perm ((t₂.rows.filter p).insertionSort r) :=
    (List.perm_insertionSort r _).trans
      ((h.filter_perm hp).trans (List.perm_insertionSort r _).symm)
  have hmem : ∀ a ∈ (t₁.rows.filter p).insertionSort r, a ∈ t₁ := fun a ha =>
    List.mem_of_mem_filter ((List.mem_insertionSort r).mp ha)
  exact List.Perm.eq_of_pairwise
    (fun a b ha hb => hr a (hmem a ha) b (hmem b (hperm.mem_iff.mpr hb)))
    (List.pairwise_insertionSort r _) (List.pairwise_insertionSort r _) hperm

/-- A value that only rows with `own` have is in both tables or in none. -/
theorem mem_map_iff {β : Type} (h : Agree own t₁ t₂) {f : α → β} {b : β}
    (h₁ : ∀ a ∈ t₁, f a = b → own a) (h₂ : ∀ a ∈ t₂, f a = b → own a) :
    b ∈ t₁.rows.map f ↔ b ∈ t₂.rows.map f := by
  rw [List.mem_map, List.mem_map]
  constructor
  · rintro ⟨a, ha, hb⟩
    exact ⟨a, (h a (h₁ a ha hb)).mp ha, hb⟩
  · rintro ⟨a, ha, hb⟩
    exact ⟨a, (h a (h₂ a ha hb)).mpr ha, hb⟩

section Insert

variable [DecidableEq κ] [DecidableEq υ] {a : α}

/-- A row that can only clash with rows with `own` is inserted in both tables, or refused by both
for the same constraint. -/
theorem insert (h : Agree own t₁ t₂)
    (h₁ : ∀ b ∈ t₁, key b = key a ∨ uniq b = uniq a → own b)
    (h₂ : ∀ b ∈ t₂, key b = key a ∨ uniq b = uniq a → own b) :
    (∃ c, t₁.insert a = .error c ∧ t₂.insert a = .error c) ∨
      ∃ t₁' t₂', t₁.insert a = .ok t₁' ∧ t₂.insert a = .ok t₂' := by
  have hk : key a ∈ t₁.rows.map key ↔ key a ∈ t₂.rows.map key :=
    h.mem_map_iff (fun b hb e => h₁ b hb (.inl e)) fun b hb e => h₂ b hb (.inl e)
  have hu : uniq a ∈ t₁.rows.map uniq ↔ uniq a ∈ t₂.rows.map uniq :=
    h.mem_map_iff (fun b hb e => h₁ b hb (.inr e)) fun b hb e => h₂ b hb (.inr e)
  unfold Table.insert
  by_cases hka : key a ∈ t₁.rows.map key
  · exact .inl ⟨.key, by rw [dif_pos hka], by rw [dif_pos (hk.mp hka)]⟩
  · have hka₂ := fun h => hka (hk.mpr h)
    by_cases hua : uniq a ∈ t₁.rows.map uniq
    · exact .inl ⟨.uniq, by rw [dif_neg hka, dif_pos hua],
        by rw [dif_neg hka₂, dif_pos (hu.mp hua)]⟩
    · exact .inr ⟨_, _, by rw [dif_neg hka, dif_neg hua],
        by rw [dif_neg hka₂, dif_neg fun h => hua (hu.mpr h)]⟩

/-- The tables agree after the insert of one row in both. -/
theorem insert_both (h : Agree own t₁ t₂) (h₁ : t₁.insert a = .ok t₁')
    (h₂ : t₂.insert a = .ok t₂') : Agree own t₁' t₂' := by
  intro b hb
  rw [mem_insert h₁, mem_insert h₂, h b hb]

/-- The rows with `own` are the same after the insert of a row without it. -/
theorem insert_other (h : Agree own t t₁) (ha : ¬ own a) (h₁ : t₁.insert a = .ok t₁') :
    Agree own t t₁' := by
  intro b hb
  have hne : b ≠ a := fun e => ha (e ▸ hb)
  rw [mem_insert h₁, or_iff_left hne, h b hb]

end Insert

section Update

variable [DecidableEq κ] {k : κ} {f : α → α} {hf : Keeps key uniq f} {q : α}

/-- The tables agree after the update of a row that both have. -/
theorem update_both (h : Agree own t₁ t₂) (h₁ : t₁.update k f hf = some (q, t₁'))
    (h₂ : t₂.update k f hf = some (q, t₂')) : Agree own t₁' t₂' := by
  intro b hb
  rw [mem_update h₁, mem_update h₂, h b hb]

/-- The rows with `own` are the same after the update of a row without it. -/
theorem update_other (h : Agree own t t₁) (h₁ : t₁.update k f hf = some (q, t₁'))
    (hq : ¬ own q) (hk : ∀ a ∈ t₁, key a = k → ¬ own a) : Agree own t t₁' := by
  intro b hb
  have hne : b ≠ q := fun e => hq (e ▸ hb)
  rw [mem_update h₁, or_iff_left hne, h b hb]
  exact ⟨fun hm => ⟨hm, fun e => hk b hm e hb⟩, And.left⟩

end Update

end Agree

end Table

/-- There is an id that no row has. -/
theorem exists_fresh {α κ : Type} [Infinite κ] (key : α → κ) (l : List α) :
    ∃ k, ∀ a ∈ l, key a ≠ k := by
  classical
  obtain ⟨k, hk⟩ := Infinite.exists_notMem_finset (l.map key).toFinset
  refine ⟨k, fun a ha e => hk ?_⟩
  rw [List.mem_toFinset, ← e]
  exact List.mem_map_of_mem ha

end Store
