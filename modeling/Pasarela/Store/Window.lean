import Mathlib.Data.List.Nodup
import Mathlib.Data.List.Sort

/-!
# Windows of a sorted list

A query with an order, an offset and a limit returns a window of the sorted rows. The order is by
a key `f`, the newest (largest) first; rows with one key come in any order, and each query may
choose another.

* `NewestFirst f l`, `Newest f g`: the order, and the order with `g` for the ties.
  `exists_rank`: each sorted list of the rows is the sort by a rank of their ids.
* `window n i l`: the elements from `i * n` on, `n` at most. `windows n m L`: the first `m` windows,
  each of its own list.
* `Split n ks`: a boundary between two windows has one key on both sides.
* `newestFirst_windows`: the windows are sorted, whatever the ties. `windows_perm`: they have each
  element once, if no boundary splits two equal keys. `exists_windows_dup`: if one does, the ties
  can be chosen so that an element is there twice.
-/

namespace Store

open scoped List

variable {α κ : Type} [LinearOrder κ]

/-! ## The order -/

/-- The keys do not increase. -/
def NewestFirst (f : α → κ) (l : List α) : Prop := l.Pairwise fun a b => f b ≤ f a

/-- The order by `f`, the ties by `g`. -/
def Newest (f : α → κ) (g : α → Nat) (a b : α) : Prop := f b < f a ∨ f a = f b ∧ g a ≤ g b

instance {f : α → κ} {g : α → Nat} : DecidableRel (Newest f g) :=
  fun a b => inferInstanceAs (Decidable (f b < f a ∨ f a = f b ∧ g a ≤ g b))

section Order

variable {f : α → κ} {g : α → Nat}

theorem Newest.le {a b : α} (h : Newest f g a b) : f b ≤ f a := by
  rcases h with h | ⟨h, -⟩
  · exact h.le
  · exact h.ge

instance : Std.Total (Newest f g) where
  total a b := by
    rcases lt_trichotomy (f a) (f b) with h | h | h
    · exact .inr (.inl h)
    · rcases Nat.le_total (g a) (g b) with hg | hg
      · exact .inl (.inr ⟨h, hg⟩)
      · exact .inr (.inr ⟨h.symm, hg⟩)
    · exact .inl (.inl h)

instance : IsTrans α (Newest f g) where
  trans a b c hab hbc := by
    rcases hab with hab | ⟨hab, hg⟩
    · exact .inl (lt_of_le_of_lt hbc.le hab)
    · rcases hbc with hbc | ⟨hbc, hg'⟩
      · exact .inl (hab ▸ hbc)
      · exact .inr ⟨hab.trans hbc, hg.trans hg'⟩

theorem newestFirst_insertionSort (l : List α) : NewestFirst f (l.insertionSort (Newest f g)) :=
  (List.pairwise_insertionSort (Newest f g) l).imp Newest.le

/-- A sorted list of the rows is the sort by a `g` that increases along it. -/
theorem insertionSort_newest {l l' : List α} (hl : NewestFirst f l') (hp : l'.Perm l)
    (hg : l'.Pairwise fun a b => g a < g b) : l.insertionSort (Newest f g) = l' := by
  have hnodup : (l'.map g).Nodup := List.pairwise_map.mpr (hg.imp Nat.ne_of_lt)
  have hsorted : l'.Pairwise (Newest f g) :=
    hl.imp₂ (fun a b hf hlt => (lt_or_eq_of_le hf).imp id fun he => ⟨he.symm, Nat.le_of_lt hlt⟩) hg
  refine List.Perm.eq_of_pairwise ?_ (List.pairwise_insertionSort _ _) hsorted
    ((List.perm_insertionSort _ _).trans hp.symm)
  intro a b ha hb hab hba
  have hf : f a = f b := le_antisymm hba.le hab.le
  have ha' : a ∈ l' := hp.mem_iff.mpr ((List.mem_insertionSort _).mp ha)
  refine List.inj_on_of_nodup_map hnodup ha' hb ?_
  rcases hab with h | ⟨-, h⟩
  · exact absurd hf h.ne'
  · rcases hba with h' | ⟨-, h'⟩
    · exact absurd hf h'.ne
    · exact Nat.le_antisymm h h'

/-- Two sorted lists of the same rows have the same keys, place by place. -/
theorem NewestFirst.map_eq {l l' : List α} (h : NewestFirst f l) (h' : NewestFirst f l')
    (hp : l.Perm l') : l.map f = l'.map f := by
  exact List.Perm.eq_of_pairwise (fun a b _ _ (hab : b ≤ a) (hba : a ≤ b) => le_antisymm hba hab)
    (List.pairwise_map.mpr h) (List.pairwise_map.mpr h') (hp.map f)

omit [LinearOrder κ] in
theorem pairwise_idxOf [DecidableEq α] {l : List α} (h : l.Nodup) :
    l.Pairwise fun a b => l.idxOf a < l.idxOf b := by
  refine List.pairwise_iff_getElem.mpr fun i j hi hj hij => ?_
  rw [h.idxOf_getElem, h.idxOf_getElem]
  exact hij

/-- Every sorted list of rows with different ids is the sort by a rank of the ids. -/
theorem exists_rank {ι : Type} [DecidableEq ι] {id : α → ι} {l l' : List α}
    (hid : (l.map id).Nodup) (hl : NewestFirst f l') (hp : l'.Perm l) :
    ∃ rank : ι → Nat, l.insertionSort (Newest f fun a => rank (id a)) = l' := by
  have hnodup : (l'.map id).Nodup := (hp.map id).nodup_iff.mpr hid
  have hlt := List.pairwise_map.mp (pairwise_idxOf hnodup)
  exact ⟨fun i => (l'.map id).idxOf i, insertionSort_newest hl hp hlt⟩

end Order

/-! ## Windows -/

/-- The elements from `i * n` on, `n` at most. -/
def window (n i : Nat) (l : List α) : List α := (l.drop (i * n)).take n

/-- The windows `0 .. m - 1`, each of its own list. -/
def windows (n m : Nat) (L : Nat → List α) : List α :=
  (List.range m).flatMap fun i => window n i (L i)

/-- The first `i + 1` windows of one list. -/
theorem take_window (n i : Nat) (l : List α) :
    l.take (i * n) ++ window n i l = l.take ((i + 1) * n) := by
  rw [window, Nat.succ_mul, List.take_add]

theorem window_eq_nil {n i : Nat} {l : List α} (h : l.length ≤ i * n) : window n i l = [] := by
  rw [window, List.drop_eq_nil_of_le h, List.take_nil]

omit [LinearOrder κ] in
theorem map_window (f : α → κ) (n i : Nat) (l : List α) :
    (window n i l).map f = window n i (l.map f) := by
  rw [window, window, List.map_take, List.map_drop]

theorem windows_succ (n m : Nat) (L : Nat → List α) :
    windows n (m + 1) L = windows n m L ++ window n m (L m) := by
  rw [windows, windows, List.range_succ, List.flatMap_append, List.flatMap_singleton]

/-- The windows of one list are its first elements. -/
theorem windows_const (n m : Nat) (l : List α) : windows n m (fun _ => l) = l.take (m * n) := by
  induction m with
  | zero => simp [windows]
  | succ m ih => rw [windows_succ, ih, take_window]

omit [LinearOrder κ] in
theorem map_windows_eq (f : α → κ) (n m : Nat) (L : Nat → List α) :
    (windows n m L).map f = windows n m fun i => (L i).map f := by
  simp only [windows, List.map_flatMap, map_window]

/-! ## Windows of lists with one order -/

section Ties

variable {f : α → κ} {rows : List α} {L : Nat → List α} {n m : Nat}

/-- The windows have the sorted keys. -/
theorem map_windows {l : List α} (hl : NewestFirst f l) (hp : l.Perm rows)
    (hL : ∀ i, NewestFirst f (L i) ∧ (L i).Perm rows) (hm : rows.length ≤ m * n) :
    (windows n m L).map f = l.map f := by
  have hkeys : (fun i => (L i).map f) = fun _ => l.map f := by
    funext i
    exact (hL i).1.map_eq hl ((hL i).2.trans hp.symm)
  rw [map_windows_eq, hkeys, windows_const, List.take_of_length_le]
  rw [List.length_map, hp.length_eq]
  exact hm

/-- The windows are sorted, whatever the ties. -/
theorem newestFirst_windows {l : List α} (hl : NewestFirst f l) (hp : l.Perm rows)
    (hL : ∀ i, NewestFirst f (L i) ∧ (L i).Perm rows) (hm : rows.length ≤ m * n) :
    NewestFirst f (windows n m L) := by
  have h : ((windows n m L).map f).Pairwise fun a b => b ≤ a := by
    rw [map_windows hl hp hL hm]
    exact List.pairwise_map.mpr hl
  exact List.pairwise_map.mp h

/-- A boundary between two windows has one key on both sides. -/
def Split (n : Nat) (ks : List κ) : Prop :=
  ∃ k, 0 < k * n ∧ k * n < ks.length ∧ ks[k * n - 1]? = ks[k * n]?

theorem take_eq_filter {l : List α} {j : Nat} {p : α → Bool} (ht : ∀ a ∈ l.take j, p a)
    (hd : ∀ a ∈ l.drop j, ¬ p a) : l.take j = l.filter p := by
  have h : (l.take j ++ l.drop j).filter p = l.take j := by
    rw [List.filter_append, List.filter_eq_self.mpr ht, List.filter_eq_nil_iff.mpr hd,
      List.append_nil]
  rw [← h, List.take_append_drop]

/-- The first elements of a sorted list, up to a place where the key changes, are those with a
larger key than the next one. -/
theorem NewestFirst.take_eq_filter {l : List α} (hl : NewestFirst f l) {j : Nat} {x : κ}
    (h0 : 0 < j) (hx : (l.map f)[j]? = some x) (hne : (l.map f)[j - 1]? ≠ some x) :
    l.take j = l.filter fun a => x < f a := by
  have hle := List.pairwise_iff_getElem.mp hl
  rw [List.getElem?_map, Option.map_eq_some_iff] at hx
  obtain ⟨a, ha, rfl⟩ := hx
  obtain ⟨hj, rfl⟩ := List.getElem?_eq_some_iff.mp ha
  have hlast : f l[j] < f l[j - 1] := by
    refine lt_of_le_of_ne (hle _ _ _ hj (by omega)) fun he => hne ?_
    rw [List.getElem?_map, List.getElem?_eq_getElem (by omega), Option.map_some, he]
  refine Store.take_eq_filter (fun a ha => ?_) (fun a ha => ?_)
  · obtain ⟨i, hi, rfl⟩ := List.mem_take_iff_getElem.mp ha
    rw [decide_eq_true_eq]
    rcases Nat.lt_or_ge i (j - 1) with hi' | hi'
    · exact lt_of_lt_of_le hlast (hle _ _ _ _ hi')
    · have he : i = j - 1 := by omega
      simpa only [he] using hlast
  · obtain ⟨i, hi, rfl⟩ := List.mem_drop_iff_getElem.mp ha
    rw [decide_eq_true_eq, not_lt]
    rcases Nat.eq_zero_or_pos i with rfl | hi'
    · exact le_of_eq (by simp)
    · exact hle _ _ hj (by omega) (by omega)

/-- Up to a boundary that splits no equal keys, sorted lists of the same rows have the same
elements. -/
theorem take_perm {l l' : List α} (hl : NewestFirst f l) (hl' : NewestFirst f l')
    (hp : l.Perm l') (hs : ¬ Split n (l.map f)) (k : Nat) :
    (l.take (k * n)).Perm (l'.take (k * n)) := by
  rcases Nat.lt_or_ge (k * n) l.length with hlt | hge
  · rcases Nat.eq_zero_or_pos (k * n) with h0 | h0
    · rw [h0, List.take_zero, List.take_zero]
    · have hlt' : k * n < (l.map f).length := by rwa [List.length_map]
      obtain ⟨x, hx⟩ : ∃ x, (l.map f)[k * n]? = some x := ⟨_, List.getElem?_eq_getElem hlt'⟩
      have hne : (l.map f)[k * n - 1]? ≠ some x := fun he => hs ⟨k, h0, hlt', he.trans hx.symm⟩
      have hkeys := hl.map_eq hl' hp
      rw [hl.take_eq_filter h0 hx hne, hl'.take_eq_filter h0 (hkeys ▸ hx) (hkeys ▸ hne)]
      exact hp.filter _
  · rw [List.take_of_length_le hge, List.take_of_length_le (hp.length_eq ▸ hge)]
    exact hp

/-- **The windows have each element once**, if no boundary splits two equal keys. -/
theorem windows_perm {l : List α} (hl : NewestFirst f l) (hp : l.Perm rows)
    (hL : ∀ i, NewestFirst f (L i) ∧ (L i).Perm rows) (hs : ¬ Split n (l.map f))
    (hm : rows.length ≤ m * n) : (windows n m L).Perm rows := by
  have htake : ∀ i k, (l.take (k * n)).Perm ((L i).take (k * n)) := fun i k =>
    take_perm hl (hL i).1 (hp.trans (hL i).2.symm) hs k
  have hw : ∀ k, (windows n k L).Perm (l.take (k * n)) := by
    intro k
    induction k with
    | zero => simp [windows]
    | succ k ih =>
      rw [windows_succ]
      calc windows n k L ++ window n k (L k)
        _ ~ l.take (k * n) ++ window n k (L k) := ih.append_right _
        _ ~ (L k).take (k * n) ++ window n k (L k) := (htake k k).append_right _
        _ ~ (L k).take ((k + 1) * n) := .of_eq (take_window n k (L k))
        _ ~ l.take ((k + 1) * n) := (htake k (k + 1)).symm
  refine (hw m).trans ?_
  rw [List.take_of_length_le (hp.length_eq ▸ hm)]
  exact hp

omit [LinearOrder κ] in
/-- An element of two windows is there twice. -/
theorem not_nodup_windows {i j : Nat} {a : α} (hij : i < j) (hj : j < m)
    (hi : a ∈ window n i (L i)) (hj' : a ∈ window n j (L j)) : ¬ (windows n m L).Nodup := by
  intro hnd
  have hpair := (List.nodup_flatMap.mp hnd).2
  have hlen : ∀ {k}, k < m → k < (List.range m).length := fun h => by rwa [List.length_range]
  have hdisj := List.pairwise_iff_getElem.mp hpair i j (hlen (hij.trans hj)) (hlen hj) hij
  rw [List.getElem_range, List.getElem_range] at hdisj
  exact hdisj hi hj'

omit [LinearOrder κ] in
theorem mem_window {i p : Nat} {l : List α} {a : α} (ha : l[p]? = some a) (hi : i * n ≤ p)
    (hp : p < (i + 1) * n) : a ∈ window n i l := by
  rw [Nat.succ_mul] at hp
  refine List.mem_iff_getElem?.mpr ⟨p - i * n, ?_⟩
  rw [window, List.getElem?_take_of_lt (by omega), List.getElem?_drop, Nat.add_sub_cancel' hi]
  exact ha

omit [LinearOrder κ] in
/-- The two elements of a boundary that splits their key. -/
theorem Split.exists_append {l : List α} (hs : Split n (l.map f)) :
    ∃ k l₁ a b l₂, l = l₁ ++ a :: b :: l₂ ∧ l₁.length + 1 = (k + 1) * n ∧ f a = f b := by
  obtain ⟨k, h0, hk, he⟩ := hs
  rw [List.length_map] at hk
  rw [List.getElem?_map, List.getElem?_map, List.getElem?_eq_getElem hk,
    List.getElem?_eq_getElem (by omega), Option.map_some, Option.map_some, Option.some_inj] at he
  obtain ⟨i, rfl⟩ : ∃ i, k = i + 1 :=
    Nat.exists_eq_succ_of_ne_zero (Nat.pos_of_mul_pos_right h0).ne'
  obtain ⟨j, hj⟩ : ∃ j, (i + 1) * n = j + 1 := ⟨(i + 1) * n - 1, by omega⟩
  simp only [hj, Nat.add_sub_cancel] at he hk
  refine ⟨i, l.take j, l[j], l[j + 1], l.drop (j + 2), ?_, ?_, he⟩
  · rw [List.getElem_cons_drop, List.getElem_cons_drop, List.take_append_drop]
  · rw [List.length_take_of_le (by omega), hj]

/-- **If a boundary splits two equal keys**, an element is in two windows when the two change
places in the list of the second window. -/
theorem exists_windows_dup {l : List α} (hl : NewestFirst f l) (hs : Split n (l.map f)) :
    ∃ k l', NewestFirst f l' ∧ l' ~ l ∧ k * n < l.length ∧
      ∀ m, k < m → ¬ (windows n m fun i => if i = k then l' else l).Nodup := by
  obtain ⟨k, l₁, a, b, l₂, rfl, hk, he⟩ := hs.exists_append
  have hn : 0 < n := Nat.pos_of_mul_pos_left (by omega : 0 < (k + 1) * n)
  refine ⟨k + 1, l₁ ++ b :: a :: l₂, ?_, (List.Perm.swap a b l₂).append_left l₁, ?_,
    fun m hm => ?_⟩
  · simp only [NewestFirst, List.pairwise_append, List.pairwise_cons, List.mem_cons,
      forall_eq_or_imp] at hl ⊢
    grind
  · simp only [List.length_append, List.length_cons]
    omega
  · refine not_nodup_windows (a := a) k.lt_succ_self hm ?_ ?_
    · rw [if_neg (by omega)]
      refine mem_window (p := l₁.length) (by simp) ?_ (by omega)
      rw [Nat.succ_mul] at hk
      omega
    · rw [if_pos rfl]
      refine mem_window (i := k + 1) (p := l₁.length + 1) (by simp) hk.ge ?_
      rw [Nat.succ_mul (k + 1)]
      omega

end Ties

end Store
