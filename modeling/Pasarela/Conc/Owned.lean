import Mathlib.Logic.Function.Basic

/-!
# Ghost values that own things

Each thread `t : ι` has a ghost value, which stands for what the thread knows about the shared state
(`fact t`) and for the one thing that it owns, if any (`owner`): what no other thread changes.
`Owning.Inv` says that all that the threads know is so, and that no two threads own the same thing.

`Owning.Inv.step` is the rule for one step of one thread: it says what the thread knows afterwards,
that what it owns afterwards is not another thread's, and that the step keeps what the others know,
who do not own what this thread owns.
-/

namespace Conc

/-- What a ghost value stands for (module doc). -/
structure Owning (ι γ σ κ : Type) where
  fact : ι → γ → σ → Prop
  owner : γ → Option κ

namespace Owning

variable {ι γ σ κ : Type} (O : Owning ι γ σ κ)

/-- The invariant of the threads with ghost values `G` (module doc). -/
structure Inv (G : ι → γ) (s : σ) : Prop where
  fact : ∀ t, O.fact t (G t) s
  excl : ∀ t u k, O.owner (G t) = some k → O.owner (G u) = some k → t = u

variable {O} {G : ι → γ} {s s' : σ}

theorem Inv.start {g : γ} (hf : ∀ t, O.fact t g s) (ho : O.owner g = none) :
    O.Inv (fun _ => g) s :=
  ⟨hf, fun _ _ k h _ => by rw [ho] at h; cases h⟩

/-- A step that keeps what every thread knows, whoever makes it. -/
theorem Inv.mono (h : O.Inv G s) (hr : ∀ t g, O.fact t g s → O.fact t g s') : O.Inv G s' :=
  ⟨fun t => hr t _ (h.fact t), h.excl⟩

variable [DecidableEq ι] {t : ι} {g' : γ}

/-- A step of thread `t` (module doc). -/
theorem Inv.step (h : O.Inv G s) (hf : O.fact t g' s')
    (ho : ∀ k, O.owner g' = some k → O.owner (G t) = some k ∨ ∀ u, O.owner (G u) ≠ some k)
    (hr : ∀ u g, u ≠ t → O.fact u g s → (∀ k, O.owner g = some k → O.owner (G t) ≠ some k) →
      O.fact u g s') : O.Inv (Function.update G t g') s' := by
  have hother : ∀ u k, u ≠ t → O.owner (G u) = some k → O.owner g' ≠ some k := by
    intro u k hu hk hg
    rcases ho k hg with ht | hfree
    · exact hu (h.excl u t k hk ht)
    · exact hfree u hk
  constructor
  · intro u
    by_cases hu : u = t
    · rw [hu, Function.update_self]
      exact hf
    · rw [Function.update_of_ne hu]
      exact hr u _ hu (h.fact u) fun k hk ht => hu (h.excl u t k hk ht)
  · intro u v k hu hv
    by_cases hut : u = t
    · by_cases hvt : v = t
      · rw [hut, hvt]
      · rw [hut, Function.update_self] at hu
        rw [Function.update_of_ne hvt] at hv
        exact absurd hu (hother v k hvt hv)
    · by_cases hvt : v = t
      · rw [Function.update_of_ne hut] at hu
        rw [hvt, Function.update_self] at hv
        exact absurd hv (hother u k hut hu)
      · rw [Function.update_of_ne hut] at hu
        rw [Function.update_of_ne hvt] at hv
        exact h.excl u v k hu hv

end Owning

end Conc
