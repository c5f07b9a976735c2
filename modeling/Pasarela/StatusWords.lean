import Pasarela.Adapters

/-!
# The words of a status map

An adapter looks the provider's word for a status up in an object literal, and reads a word that is
not there as `pending`.

* `Sorts map outcomes`: the lists of `outcomes` are the words of each status but `pending`, and the
  names of `Object.prototype` (`inheritedWords`), each of which finds a value of its own. It is decided
  by the words of the map.
* `Sorts.same_iff`: two words are read as one status iff they stand in the same lists.
-/

namespace Pasarela

open Js (Found objectPrototype)

theorem statusIn_of_not_mem {map : List (String × ChargeStatus)} {t : String}
    (h : t ∉ map.map (·.1)) (hp : t ∉ objectPrototype) : statusIn map t = .own .pending := by
  have hl : map.lookup t = none := by
    rw [List.lookup_eq_none_iff]
    intro x hx
    have hne : t ≠ x.1 := fun he => h (he ▸ List.mem_map_of_mem hx)
    simpa using hne
  rw [statusIn, Js.lookup, hl, if_neg hp]
  rfl

/-- The words that a lookup finds. -/
def foundWords (map : List (String × ChargeStatus)) : List String :=
  map.map (·.1) ++ objectPrototype

/-- The names of `Object.prototype`, with what they find. -/
def inheritedWords : List (List String × Found ChargeStatus) :=
  objectPrototype.map fun k => ([k], .inherited k)

/-- The lists are the words of each status but `pending` (module doc). -/
structure Sorts (map : List (String × ChargeStatus))
    (outcomes : List (List String × Found ChargeStatus)) : Prop where
  known : ∀ t ∈ foundWords map, ∀ x ∈ outcomes, t ∈ x.1 ↔ statusIn map t = x.2
  listed : ∀ t ∈ foundWords map,
    statusIn map t = .own .pending ∨ ∃ x ∈ outcomes, statusIn map t = x.2
  found : ∀ x ∈ outcomes, ∀ t ∈ x.1, t ∈ foundWords map
  notPending : ∀ x ∈ outcomes, Found.own ChargeStatus.pending ≠ x.2

namespace Sorts

variable {map : List (String × ChargeStatus)} {outcomes : List (List String × Found ChargeStatus)}

theorem statusIn_of_not_found {t : String} (ht : t ∉ foundWords map) :
    statusIn map t = .own .pending := by
  rw [foundWords, List.mem_append, not_or] at ht
  exact statusIn_of_not_mem ht.1 ht.2

/-- The texts of each status. -/
theorem mem_iff (h : Sorts map outcomes) (t : String) :
    ∀ x ∈ outcomes, t ∈ x.1 ↔ statusIn map t = x.2 := by
  by_cases ht : t ∈ foundWords map
  · exact h.known t ht
  · rw [statusIn_of_not_found ht]
    intro x hx
    exact iff_of_false (fun htx => ht (h.found x hx t htx)) (h.notPending x hx)

/-- A status is one of the outcomes, or `pending`. -/
theorem cases (h : Sorts map outcomes) (t : String) :
    statusIn map t = .own .pending ∨ ∃ x ∈ outcomes, statusIn map t = x.2 := by
  by_cases ht : t ∈ foundWords map
  · exact h.listed t ht
  · exact .inl (statusIn_of_not_found ht)

/-- **Two texts with the same outcome are those with one status.** -/
theorem same_iff (h : Sorts map outcomes) {t₁ t₂ : String} :
    (∀ x ∈ outcomes, t₁ ∈ x.1 ↔ t₂ ∈ x.1) ↔ statusIn map t₁ = statusIn map t₂ := by
  constructor
  · intro hsame
    rcases h.cases t₁ with h₁ | ⟨x, hx, h₁⟩
    · rcases h.cases t₂ with h₂ | ⟨x, hx, h₂⟩
      · rw [h₁, h₂]
      · have hmem := (hsame x hx).mpr ((h.mem_iff t₂ x hx).mpr h₂)
        rw [(h.mem_iff t₁ x hx).mp hmem, h₂]
    · have hmem := (hsame x hx).mp ((h.mem_iff t₁ x hx).mpr h₁)
      rw [(h.mem_iff t₂ x hx).mp hmem, h₁]
  · intro heq x hx
    rw [h.mem_iff t₁ x hx, h.mem_iff t₂ x hx, heq]

end Sorts

end Pasarela
