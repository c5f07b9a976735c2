/-!
# Words between separators

`l.splitOnP q` are the longest runs of `l` without a separator. `Cut q a w b`: such a run, `w`, with
what stands before and after it. `mem_splitOnP_iff`: the runs are the `w` that a cut has.
-/

namespace Js

variable {α : Type} {q : α → Bool}

/-- `w` is a longest run without a separator, after `a` and before `b`. -/
structure Cut (q : α → Bool) (a w b : List α) : Prop where
  word : ∀ x ∈ w, q x = false
  before : ∀ x ∈ a.getLast?, q x = true
  after : ∀ x ∈ b.head?, q x = true

/-- A list without separators, or one with a first separator. -/
theorem first_separator (q : α → Bool) (l : List α) :
    (∀ x ∈ l, q x = false) ∨
      ∃ a s b, l = a ++ s :: b ∧ (∀ x ∈ a, q x = false) ∧ q s = true := by
  induction l with
  | nil => exact .inl nofun
  | cons x l ih =>
    cases hx : q x with
    | true => exact .inr ⟨[], x, l, rfl, nofun, hx⟩
    | false =>
      rcases ih with h | ⟨a, s, b, rfl, ha, hs⟩
      · exact .inl (by simpa [hx] using h)
      · exact .inr ⟨x :: a, s, b, rfl, by simpa [hx] using ha, hs⟩

/-- A run of a cut is one of the words. -/
theorem mem_splitOnP_of_cut {a w b : List α} (h : Cut q a w b) :
    w ∈ (a ++ w ++ b).splitOnP q := by
  have hright : w ∈ (w ++ b).splitOnP q := by
    cases b with
    | nil => simp [List.splitOnP_eq_singleton h.word]
    | cons t b =>
      rw [List.splitOnP_append_cons_of_forall_mem h.word t (h.after t rfl)]
      exact List.mem_cons_self
  rcases List.eq_nil_or_concat a with rfl | ⟨a, s, rfl⟩
  · exact hright
  · have hs : q s = true := h.before s (by simp)
    rw [List.concat_eq_append, List.append_assoc, List.append_assoc, List.singleton_append,
      List.splitOnP_append_cons a (w ++ b) hs]
    exact List.mem_append_right _ hright

/-- **The words are the runs of the cuts.** -/
theorem mem_splitOnP_iff {l w : List α} :
    w ∈ l.splitOnP q ↔ ∃ a b, l = a ++ w ++ b ∧ Cut q a w b := by
  constructor
  · intro h
    induction hn : l.length using Nat.strongRecOn generalizing l with
    | ind n ih =>
      rcases first_separator q l with hl | ⟨a, s, b, rfl, ha, hs⟩
      · rw [List.splitOnP_eq_singleton hl, List.mem_singleton] at h
        subst h
        exact ⟨[], [], by simp, hl, nofun, nofun⟩
      · rw [List.splitOnP_append_cons_of_forall_mem ha s hs, List.mem_cons] at h
        rcases h with rfl | h
        · exact ⟨[], s :: b, rfl, ha, nofun, by simpa using hs⟩
        · obtain ⟨a', b', rfl, hcut⟩ := ih b.length (by simp [← hn]; omega) h rfl
          refine ⟨a ++ s :: a', b', by simp, hcut.word, fun x hx => ?_, hcut.after⟩
          cases a' with
          | nil =>
            have hxs : s = x := by simpa using hx
            exact hxs ▸ hs
          | cons y a' =>
            rw [List.append_cons, List.getLast?_append, List.getLast?_cons] at hx
            exact hcut.before x (List.getLast?_cons.trans hx)
  · rintro ⟨a, b, rfl, h⟩
    exact mem_splitOnP_of_cut h

end Js
