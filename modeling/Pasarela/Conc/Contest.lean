import Mathlib.Algebra.BigOperators.Group.Finset.Piecewise
import Pasarela.Conc.Pool

/-!
# A lookup, and an insert if it finds nothing

Each thread looks a row up and inserts it where it finds none; an insert is refused when the row is
there. The threads whose lookup found nothing contend: one of them inserts the row, and the others
lose.

* `Place`: how far a thread is, as its ghost value says (`pl`).
* `Contest pl row₀ row G n`: the row is there or not (`row₀`: it was there at the start), and `n`
  threads looked before it was. The rules say what each step does: `look_absent`, `look_present`,
  `insert_absent`, `insert_present`, and `keep` for a step of another kind.
* `nobody_lost_iff`: when all have ended, none has lost iff at most one looked too early.
-/

namespace Conc

/-- How far a thread is (module doc). -/
inductive Place where
  | start
  /-- Its lookup found the row. -/
  | found
  /-- Its lookup found nothing. -/
  | missed
  /-- It inserted the row. -/
  | won
  /-- Its insert was refused. -/
  | lost
  deriving DecidableEq

/-- Its lookup found nothing. -/
def Place.contends : Place → Bool
  | .missed => true
  | .won => true
  | .lost => true
  | _ => false

@[simp] theorem Place.contends_won : Place.won.contends = true := rfl

@[simp] theorem Place.contends_lost : Place.lost.contends = true := rfl

/-- Neither its lookup nor its insert is ahead. -/
def Place.over : Place → Bool
  | .found => true
  | .won => true
  | .lost => true
  | _ => false

variable {ι γ : Type}

/-- What the threads know of the row (module doc). -/
structure Contest [Fintype ι] (pl : γ → Place) (row₀ row : Prop) (G : ι → γ) (n : Nat) : Prop where
  absent : ¬ row → ∀ t, pl (G t) = .start ∨ pl (G t) = .missed
  present : row → (∃ t, pl (G t) = .won) ∨ row₀ ∧ ∀ t, pl (G t) = .start ∨ pl (G t) = .found
  unique : ∀ t u, pl (G t) = .won → pl (G u) = .won → t = u
  count : n = ∑ t, (pl (G t)).contends.toNat

namespace Contest

variable {pl : γ → Place} {row₀ row row' : Prop} {G : ι → γ} {n : Nat} {t : ι} {g : γ}

/-- No thread has looked yet. -/
theorem start [Fintype ι] (hg : pl g = .start) : Contest pl row row (fun _ : ι => g) 0 where
  absent _ _ := .inl hg
  present hr := .inr ⟨hr, fun _ => .inl hg⟩
  unique t u ht := by rw [hg] at ht; cases ht
  count := by simp [hg, Place.contends]

section Steps

variable [DecidableEq ι]

/-- A property of the places, after thread `t` moves. -/
theorem forall_update {X : Place → Prop} (h : ∀ u ≠ t, X (pl (G u))) (ht : X (pl g)) (u : ι) :
    X (pl (Function.update G t g u)) := by
  by_cases hu : u = t
  · rw [hu, Function.update_self]
    exact ht
  · rw [Function.update_of_ne hu]
    exact h u hu

variable [Fintype ι]

/-- How the count changes when a thread moves. -/
theorem count_update (h : Contest pl row₀ row G n) :
    (∑ u, (pl (Function.update G t g u)).contends.toNat) + (pl (G t)).contends.toNat =
      n + (pl g).contends.toNat := by
  rw [h.count]
  exact sum_update (fun _ g => (pl g).contends.toNat) G t g

/-- A step after which the thread is where it was. -/
theorem keep (h : Contest pl row₀ row G n) (hg : pl g = pl (G t)) (hrow : row' ↔ row) :
    Contest pl row₀ row' (Function.update G t g) n := by
  have hsame : ∀ u, pl (Function.update G t g u) = pl (G u) := by
    intro u
    by_cases hu : u = t
    · rw [hu, Function.update_self, hg]
    · rw [Function.update_of_ne hu]
  constructor
  · intro hn u
    rw [hsame]
    exact h.absent (fun hr => hn (hrow.mpr hr)) u
  · intro hr
    simp only [hsame]
    exact h.present (hrow.mp hr)
  · intro u v
    rw [hsame, hsame]
    exact h.unique u v
  · simp only [hsame]
    exact h.count

/-- The lookup finds nothing. -/
theorem look_absent (h : Contest pl row₀ row G n) (hrow : ¬ row) (ht : pl (G t) = .start)
    (hg : pl g = .missed) : Contest pl row₀ row (Function.update G t g) (n + 1) := by
  have hall : ∀ u, pl (Function.update G t g u) = .start ∨
      pl (Function.update G t g u) = .missed :=
    forall_update (X := fun x => x = .start ∨ x = .missed) (fun u _ => h.absent hrow u) (.inr hg)
  constructor
  · exact fun _ => hall
  · exact fun hr => absurd hr hrow
  · intro u v hu
    rcases hall u with hs | hm
    · rw [hs] at hu; cases hu
    · rw [hm] at hu; cases hu
  · have hc := h.count_update (t := t) (g := g)
    rw [ht, hg] at hc
    exact hc.symm

/-- The lookup finds the row. -/
theorem look_present (h : Contest pl row₀ row G n) (hrow : row) (ht : pl (G t) = .start)
    (hg : pl g = .found) : Contest pl row₀ row (Function.update G t g) n := by
  have hwon : ∀ u, pl (Function.update G t g u) = .won → pl (G u) = .won := by
    intro u hu
    by_cases hut : u = t
    · rw [hut, Function.update_self, hg] at hu; cases hu
    · rwa [Function.update_of_ne hut] at hu
  constructor
  · exact fun hn => absurd hrow hn
  · intro _
    rcases h.present hrow with ⟨u, hu⟩ | ⟨h₀, hall⟩
    · have hut : u ≠ t := fun e => by rw [e, ht] at hu; cases hu
      exact .inl ⟨u, by rwa [Function.update_of_ne hut]⟩
    · refine .inr ⟨h₀, forall_update (X := fun x => x = .start ∨ x = .found) (fun u _ => hall u) ?_⟩
      exact .inr hg
  · exact fun u v hu hv => h.unique u v (hwon u hu) (hwon v hv)
  · have hc := h.count_update (t := t) (g := g)
    rw [ht, hg] at hc
    exact hc.symm

/-- The insert puts the row there. -/
theorem insert_absent (h : Contest pl row₀ row G n) (hrow : ¬ row) (hrow' : row')
    (ht : pl (G t) = .missed) (hg : pl g = .won) :
    Contest pl row₀ row' (Function.update G t g) n := by
  have hwon : ∀ u, pl (Function.update G t g u) = .won → u = t := by
    intro u hu
    by_contra hut
    rw [Function.update_of_ne hut] at hu
    rcases h.absent hrow u with hs | hm
    · rw [hs] at hu; cases hu
    · rw [hm] at hu; cases hu
  constructor
  · exact fun hn => absurd hrow' hn
  · exact fun _ => .inl ⟨t, by rw [Function.update_self, hg]⟩
  · exact fun u v hu hv => (hwon u hu).trans (hwon v hv).symm
  · have hc := h.count_update (t := t) (g := g)
    rw [ht, hg] at hc
    exact Nat.add_right_cancel hc.symm

/-- The insert is refused. -/
theorem insert_present (h : Contest pl row₀ row G n) (hrow : row) (ht : pl (G t) = .missed)
    (hg : pl g = .lost) : Contest pl row₀ row (Function.update G t g) n := by
  obtain ⟨u, hu⟩ : ∃ u, pl (G u) = .won := by
    rcases h.present hrow with hwon | ⟨-, hall⟩
    · exact hwon
    · rcases hall t with hs | hf
      · rw [ht] at hs; cases hs
      · rw [ht] at hf; cases hf
  have hwon : ∀ u, pl (Function.update G t g u) = .won → pl (G u) = .won := by
    intro v hv
    by_cases hvt : v = t
    · rw [hvt, Function.update_self, hg] at hv; cases hv
    · rwa [Function.update_of_ne hvt] at hv
  constructor
  · exact fun hn => absurd hrow hn
  · have hut : u ≠ t := fun e => by rw [e, ht] at hu; cases hu
    exact fun _ => .inl ⟨u, by rwa [Function.update_of_ne hut]⟩
  · exact fun u v hu hv => h.unique u v (hwon u hu) (hwon v hv)
  · have hc := h.count_update (t := t) (g := g)
    rw [ht, hg] at hc
    exact Nat.add_right_cancel hc.symm

end Steps

/-- When all have ended, the row is there. -/
theorem row_of_over [Fintype ι] [Nonempty ι] (h : Contest pl row₀ row G n)
    (hover : ∀ t, (pl (G t)).over) : row := by
  by_contra hn
  obtain ⟨t⟩ := ‹Nonempty ι›
  have ht := hover t
  rcases h.absent hn t with hs | hm
  · rw [hs] at ht; cases ht
  · rw [hm] at ht; cases ht

/-- **When all have ended, none has lost iff at most one looked before the row was there.** -/
theorem nobody_lost_iff [Fintype ι] (h : Contest pl row₀ row G n) (hover : ∀ t, (pl (G t)).over) :
    (∀ t, pl (G t) ≠ .lost) ↔ n ≤ 1 := by
  have hcontends : ∀ t, pl (G t) ≠ .lost → (pl (G t)).contends → pl (G t) = .won := by
    intro t hl hc
    have ho := hover t
    cases hp : pl (G t) with
    | start => rw [hp] at ho; cases ho
    | found => rw [hp] at hc; cases hc
    | missed => rw [hp] at ho; cases ho
    | won => rfl
    | lost => exact absurd hp hl
  have hcard : n = (Finset.univ.filter fun t => (pl (G t)).contends = true).card := by
    rw [h.count, Finset.card_filter]
    exact Finset.sum_congr rfl fun t _ => by cases (pl (G t)).contends <;> rfl
  rw [hcard, Finset.card_le_one]
  constructor
  · intro hl t ht u hu
    exact h.unique t u (hcontends t (hl t) (Finset.mem_filter.mp ht).2)
      (hcontends u (hl u) (Finset.mem_filter.mp hu).2)
  · -- a thread that lost and the one that won would be two
    intro hone t hlost
    have hrow : row := by
      by_contra hn
      rcases h.absent hn t with hs | hm
      · rw [hs] at hlost; cases hlost
      · rw [hm] at hlost; cases hlost
    rcases h.present hrow with ⟨u, hu⟩ | ⟨-, hall⟩
    · have htu : t = u := hone t (by simp [hlost]) u (by simp [hu])
      rw [← htu, hlost] at hu
      cases hu
    · rcases hall t with hs | hf
      · rw [hs] at hlost; cases hlost
      · rw [hf] at hlost; cases hlost

end Contest

end Conc
