import Mathlib.Logic.Function.Basic
import Mathlib.Logic.Relation

/-!
# Tasks that run until they wait

Tasks that share a state and run one at a time: a task that was taken up goes on, one statement
after another, until it waits. While no task runs, any waiting task can be taken up, and the
environment can change the state.

* `EventLoop ι`: the statements of the tasks `ι`, and which places of a task are waits.
  `EventLoop.Step`: one statement, of the running task if there is one.
* `Reach.running_iff`: only the running task is not at a wait.
* `Reach.each`: the rule for an invariant of each task. A step of another task meets it at a wait
  only, since a task that is not at a wait has the loop for itself.
* `Reach.idle`: the running task gets to a wait.
-/

namespace Conc

/-- Tasks and their statements (module doc). -/
structure EventLoop (ι : Type) where
  Shared : Type
  Local : Type
  /-- A task here has given up control. -/
  waits : Local → Bool
  step : ι → Local → Shared → Local → Shared → Prop
  /-- What happens between the tasks. -/
  env : Shared → Shared → Prop

namespace EventLoop

/-- The shared state, the place of each task, and the task that runs. -/
structure Conf {ι : Type} (L : EventLoop ι) where
  shared : L.Shared
  task : ι → L.Local
  running : Option ι

variable {ι : Type} {L : EventLoop ι}

/-- Every task waits. -/
structure Conf.Idle (c : L.Conf) : Prop where
  running : c.running = none
  waits : ∀ i, L.waits (c.task i) = true

section Run

variable {c : L.Conf}

/-- Only the running task is not at a wait. -/
def Conf.OneRuns (c : L.Conf) : Prop := ∀ i, L.waits (c.task i) = false ↔ c.running = some i

theorem Conf.OneRuns.waits_of_idle (h : c.OneRuns) (hrun : c.running = none) (i : ι) :
    L.waits (c.task i) = true := by
  by_contra hw
  rw [(h i).mp (Bool.eq_false_iff.mpr hw)] at hrun
  cases hrun

/-- While a task makes a statement, the others wait. -/
theorem Conf.OneRuns.others_wait (h : c.OneRuns) {j : ι}
    (hrun : c.running = if L.waits (c.task j) then none else some j) {i : ι} (hij : i ≠ j) :
    L.waits (c.task i) = true := by
  by_contra hw
  rw [(h i).mp (Bool.eq_false_iff.mpr hw)] at hrun
  split at hrun
  · cases hrun
  · exact hij (Option.some.inj hrun)

end Run

variable [DecidableEq ι]

/-- Task `i` goes on to `l`, and keeps control unless it waits there. -/
def Conf.next (c : L.Conf) (i : ι) (l : L.Local) (s : L.Shared) : L.Conf where
  shared := s
  task := Function.update c.task i l
  running := if L.waits l then none else some i

/-- One statement: of a waiting task if no task runs, or of the one that runs. -/
inductive Step : L.Conf → L.Conf → Prop
  | task {c : L.Conf} {i : ι} {l : L.Local} {s : L.Shared}
      (hrun : c.running = if L.waits (c.task i) then none else some i)
      (h : L.step i (c.task i) c.shared l s) : Step c (c.next i l s)
  | env {c : L.Conf} {s : L.Shared} (hrun : c.running = none) (h : L.env c.shared s) :
      Step c { c with shared := s }

/-- The states that a run from `c₀` reaches. -/
abbrev Reach (c₀ c : L.Conf) : Prop := Relation.ReflTransGen Step c₀ c

section Run

variable {c₀ c : L.Conf}

/-- **Only the running task is not at a wait**, in every state of a run. -/
theorem Reach.running_iff (h₀ : c₀.Idle) (h : Reach c₀ c) : c.OneRuns := by
  induction h with
  | refl =>
    intro i
    simp [h₀.running, h₀.waits i]
  | @tail b c _ hstep ih =>
    cases hstep with
    | @task j l s hrun hs =>
      intro i
      by_cases hij : i = j
      · subst hij
        simp [Conf.next]
      · simp only [Conf.next, Function.update_of_ne hij, ih.others_wait hrun hij]
        split <;> simp [Ne.symm hij]
    | env hrun _ => exact ih

/-- **The rule for an invariant of each task** (module doc). -/
theorem Reach.each {J : ι → L.Local → L.Shared → Prop} (h₀ : c₀.Idle) (h : Reach c₀ c)
    (hstart : ∀ i, J i (c₀.task i) c₀.shared)
    (hown : ∀ i l s l' s', J i l s → L.step i l s l' s' → J i l' s')
    (hframe : ∀ i j m l s l' s', j ≠ i → L.waits m = true → J i l s → J j m s →
      L.step i l s l' s' → J j m s')
    (henv : ∀ j m s s', L.waits m = true → J j m s → L.env s s' → J j m s') :
    ∀ i, J i (c.task i) c.shared := by
  induction h with
  | refl => exact hstart
  | @tail b c hb hstep ih =>
    have hone := Reach.running_iff h₀ hb
    cases hstep with
    | @task j l s hrun hs =>
      intro i
      by_cases hij : i = j
      · subst hij
        simp only [Conf.next, Function.update_self]
        exact hown i _ _ _ _ (ih i) hs
      · simp only [Conf.next, Function.update_of_ne hij]
        exact hframe j i _ _ _ _ _ hij (hone.others_wait hrun hij) (ih j) (ih i) hs
    | env hrun he => exact fun i => henv i _ _ _ (hone.waits_of_idle hrun i) (ih i) he

/-- **The running task gets to a wait**, and leaves the others where they are: each of its
statements can be run and takes it closer to a wait. -/
theorem Reach.idle {J : ι → L.Local → L.Shared → Prop} (rank : L.Local → Nat)
    (hgo : ∀ i l s, L.waits l = false → J i l s →
      ∃ l' s', L.step i l s l' s' ∧ rank l' < rank l ∧ J i l' s')
    (i : ι) (hrun : c.running = some i) (hw : L.waits (c.task i) = false)
    (hJ : J i (c.task i) c.shared) :
    ∃ c', Reach c c' ∧ c'.running = none ∧ L.waits (c'.task i) = true ∧
      J i (c'.task i) c'.shared ∧ ∀ j, j ≠ i → c'.task j = c.task j := by
  induction hr : rank (c.task i) using Nat.strongRecOn generalizing c with
  | ind n ih =>
    obtain ⟨l, s, hs, hlt, hJ'⟩ := hgo i _ _ hw hJ
    have hstep : Step c (c.next i l s) := by
      refine .task ?_ hs
      rw [hrun, hw]
      rfl
    have htask : (c.next i l s).task i = l := Function.update_self ..
    have hothers : ∀ j, j ≠ i → (c.next i l s).task j = c.task j := fun j hj =>
      Function.update_of_ne hj ..
    by_cases hl : L.waits l = true
    · exact ⟨_, .single hstep, if_pos hl, by rw [htask]; exact hl, by rw [htask]; exact hJ', hothers⟩
    · obtain ⟨c', hreach, hnone, hwait, hJc, hsame⟩ := ih (rank l) (hr ▸ hlt) (if_neg hl)
        (by rw [htask]; exact Bool.eq_false_iff.mpr hl) (by rw [htask]; exact hJ') (by rw [htask])
      exact ⟨c', .head hstep hreach, hnone, hwait, hJc,
        fun j hj => (hsame j hj).trans (hothers j hj)⟩

end Run

end EventLoop

end Conc
