import Mathlib.Algebra.Group.Defs
import Mathlib.Algebra.BigOperators.Group.List.Basic
import Pasarela.Conc.Pool

/-!
# The states that a run went through

A configuration keeps the requests made so far and the last state. A request and the decision
taken at it determine what it does, so the states in between come back by making the requests
again from the first state.

* `replay s tr`: the state after the requests `tr`. A run ends in the replay of its requests
  (`Conf.Reach.replay`).
* `Along P s tr`: each request of `tr` satisfies `P` in the state that it met. What holds of each
  request alone holds along every run (`Conf.Reach.along`), and a run along which `P` holds is one
  in which `P` is asked of the requests (`Conf.Reach.restrict`).
* `tally f s tr`: the sum of `f` over the requests, each in the state that it met.
-/

namespace Conc

variable {M : Machine} {ι α : Type}

/-- The state after the requests `tr` (module doc). -/
def replay (s : M.St) : List (ι × Event M) → M.St
  | [] => s
  | (_, e) :: tr => replay (M.exec e.op e.dec s).2 tr

/-- Each request satisfies `P` in the state that it met (module doc). -/
def Along (P : ι → Event M → M.St → Prop) (s : M.St) : List (ι × Event M) → Prop
  | [] => True
  | (t, e) :: tr => P t e s ∧ Along P (M.exec e.op e.dec s).2 tr

/-- The sum of `f` over the requests (module doc). -/
def tally {N : Type} [AddMonoid N] (f : ι → Event M → M.St → N) (s : M.St) :
    List (ι × Event M) → N
  | [] => 0
  | (t, e) :: tr => f t e s + tally f (M.exec e.op e.dec s).2 tr

variable {s : M.St} {tr tr' : List (ι × Event M)} {t : ι} {e : Event M}

@[simp] theorem replay_nil : replay s ([] : List (ι × Event M)) = s := rfl

theorem replay_append : replay s (tr ++ tr') = replay (replay s tr) tr' := by
  induction tr generalizing s with
  | nil => rfl
  | cons x tr ih => exact ih

theorem replay_snoc : replay s (tr ++ [(t, e)]) = (M.exec e.op e.dec (replay s tr)).2 := by
  rw [replay_append]
  rfl

/-- The state after one more request of the list. -/
theorem replay_take_succ {i : Nat} (h : tr[i]? = some (t, e)) :
    replay s (tr.take (i + 1)) = (M.exec e.op e.dec (replay s (tr.take i))).2 := by
  rw [List.take_add_one, h, Option.toList_some, replay_snoc]

/-- The answers are what the requests answer. -/
abbrev Genuine (s : M.St) (tr : List (ι × Event M)) : Prop :=
  Along (fun _ e s => e.ans = (M.exec e.op e.dec s).1) s tr

section Along

variable {P Q : ι → Event M → M.St → Prop}

theorem along_append : Along P s (tr ++ tr') ↔ Along P s tr ∧ Along P (replay s tr) tr' := by
  induction tr generalizing s with
  | nil => simp [Along, replay]
  | cons x tr ih => simp [Along, replay, ih, and_assoc]

theorem along_snoc : Along P s (tr ++ [(t, e)]) ↔ Along P s tr ∧ P t e (replay s tr) := by
  rw [along_append]
  simp [Along]

theorem Along.take (h : Along P s tr) (i : Nat) : Along P s (tr.take i) := by
  rw [← List.take_append_drop i tr] at h
  exact (along_append.mp h).1

/-- What holds along the requests holds of the one at the place `i`. -/
theorem Along.of_getElem? {i : Nat} (h : Along P s tr) (hi : tr[i]? = some (t, e)) :
    P t e (replay s (tr.take i)) := by
  have hnext := h.take (i + 1)
  rw [List.take_add_one, hi, Option.toList_some] at hnext
  exact (along_snoc.mp hnext).2

theorem Along.mono (h : Along P s tr) (hPQ : ∀ t e s, P t e s → Q t e s) : Along Q s tr := by
  induction tr generalizing s with
  | nil => trivial
  | cons x tr ih => exact ⟨hPQ _ _ _ h.1, ih h.2⟩

theorem Along.and (h : Along P s tr) (h' : Along Q s tr) :
    Along (fun t e s => P t e s ∧ Q t e s) s tr := by
  induction tr generalizing s with
  | nil => trivial
  | cons x tr ih => exact ⟨⟨h.1, h'.1⟩, ih h.2 h'.2⟩

theorem Along.of_mem (h : Along P s tr) (ht : (t, e) ∈ tr) : ∃ s', P t e s' := by
  induction tr generalizing s with
  | nil => cases ht
  | cons x tr ih =>
    rcases List.mem_cons.mp ht with rfl | ht
    · exact ⟨s, h.1⟩
    · exact ih h.2 ht

/-- A property of the requests alone. -/
theorem along_iff_forall {P : ι → Event M → Prop} :
    Along (fun t e _ => P t e) s tr ↔ ∀ x ∈ tr, P x.1 x.2 := by
  induction tr generalizing s with
  | nil => simp [Along]
  | cons x tr ih => simp [Along, ih]

end Along

section Tally

variable {N : Type} [AddMonoid N] {f : ι → Event M → M.St → N}

theorem tally_append : tally f s (tr ++ tr') = tally f s tr + tally f (replay s tr) tr' := by
  induction tr generalizing s with
  | nil => simp [tally, replay]
  | cons x tr ih => simp [tally, replay, ih, add_assoc]

theorem tally_snoc : tally f s (tr ++ [(t, e)]) = tally f s tr + f t e (replay s tr) := by
  rw [tally_append]
  simp [tally]

end Tally

namespace Conf

variable [DecidableEq ι] {allow : Allow M ι} {thr : ι → Prog M α} {c : Conf M ι α}

/-- **A run ends in the replay of its requests.** -/
theorem Reach.replay (h : Reach allow (start s thr) c) : c.st = replay s c.trace := by
  induction h with
  | refl => rfl
  | tail _ hs ih =>
    obtain ⟨d, -, -⟩ := hs
    rw [next, replay_snoc, ih]
    rfl

/-- What every allowed request satisfies holds along every run. -/
theorem Reach.along {P : ι → Event M → M.St → Prop}
    (hP : ∀ t o d s, allow t o d s → P t (.of o d s) s) (h : Reach allow (start s thr) c) :
    Along P s c.trace := by
  induction h with
  | refl => trivial
  | tail hr hs ih =>
    have hst := Reach.replay hr
    obtain ⟨d, -, ha⟩ := hs
    rw [next]
    refine along_snoc.mpr ⟨ih, ?_⟩
    rw [hst] at ha ⊢
    exact hP _ _ d _ ha

/-- A run whose requests satisfy `P` is a run in which `P` is asked of them. -/
theorem Reach.restrict {P : ι → Event M → M.St → Prop} (h : Reach allow (start s thr) c)
    (hP : Along P s c.trace) : Reach (fun t o d s => P t (.of o d s) s) (start s thr) c := by
  induction h with
  | refl => exact .refl
  | tail hr hs ih =>
    have hst := Reach.replay hr
    obtain ⟨d, ht, -⟩ := hs
    obtain ⟨hP, hlast⟩ := along_snoc.mp hP
    rw [← hst] at hlast
    exact (ih hP).tail (.mk d ht hlast)

/-- The answers of a run are what its requests answer. -/
theorem Reach.answered (h : Reach allow (start s thr) c) : Genuine s c.trace :=
  h.along fun _ _ _ _ _ => rfl

end Conf

end Conc
