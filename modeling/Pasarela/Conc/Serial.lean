import Pasarela.Conc.Pool

/-!
# Programs that run one after another

A program that no other one overlaps runs to its end from the state that it finds.

* `Alone A Q p s`: under decisions that `A` allows, the run of `p` from `s` ends with `Q` of its
  result and of the state. It is `Proto.WP` for one thread whose ghost value is the state, so the
  rules for `bind`, `tryCatch` and `ofExcept` are those of `Proto.WP`; `Alone.perform_bind` is the
  rule for one request, and `Alone.run` takes it to `Prog.run`.
* `Task`, `serial`: programs, each under its own decisions, one after another.
* `Conf.finish`: one thread of a configuration runs to its end. It is a run like any other
  (`Conf.reach_finish`).
-/

namespace Conc

variable {M : Machine} {ι α β : Type}

/-! ## One program -/

def alone (A : M.Op → M.Dec → Prop) : Proto M Unit M.St where
  allow _ o d _ := A o d
  inv G s _ := G () = s

/-- How the run of a program ends (module doc). -/
abbrev Alone (A : M.Op → M.Dec → Prop) (Q : Except M.Err α → M.St → Prop) (p : Prog M α)
    (s : M.St) : Prop :=
  (alone A).WP () Q p s

namespace Alone

variable {A : M.Op → M.Dec → Prop} {s : M.St}

/-- One request: its error ends the program, its answer goes to `f`. -/
theorem perform_bind {Q : Except M.Err β → M.St → Prop} {o : M.Op} {f : M.Ans o → Prog M β}
    (h : ∀ d r s', A o d → M.exec o d s = (r, s') →
      match r with
      | .ok a => Alone A Q (f a) s'
      | .error e => Q (.error e) s') : Alone A Q ((Prog.perform o).bind f) s := by
  refine Proto.WP.perform_bind fun G s₀ tr d r s' hG hi ha hx => ?_
  have hs : s₀ = s := Eq.trans (Eq.symm hi) hG
  rw [hs] at hx
  exact ⟨trivial, s', Function.update_self .., h d r s' ha hx⟩

/-- The last request of a program. -/
theorem perform {o : M.Op} {Q : Except M.Err (M.Ans o) → M.St → Prop}
    (h : ∀ d r s', A o d → M.exec o d s = (r, s') → Q r s') : Alone A Q (Prog.perform o) s := by
  refine Proto.WP.perform fun G s₀ tr d r s' hG hi ha hx => ?_
  have hs : s₀ = s := Eq.trans (Eq.symm hi) hG
  rw [hs] at hx
  exact ⟨trivial, s', Function.update_self .., h d r s' ha hx⟩

/-- **The run of the program ends with `Q`.** -/
theorem run {Q : Except M.Err α → M.St → Prop} {p : Prog M α} {ω : M.Op → M.Dec}
    (h : Alone A Q p s) (hω : ∀ o, A o (ω o)) : Q (p.run ω s).result (p.run ω s).state := by
  induction p generalizing s with
  | ret a => exact h
  | throw e => exact h
  | op o k ih =>
    obtain ⟨-, g', hg, hk⟩ := h (fun _ => s) s [] (ω o) rfl rfl (hω o)
    have hself : Function.update (fun _ => s) () g' () = g' := Function.update_self ..
    have hs : g' = (M.exec o (ω o) s).2 := hself.symm.trans hg
    rw [hs] at hk
    exact ih _ hk

end Alone

/-! ## A sequence of programs -/

/-- A program and the decisions of the environment at its requests. -/
structure Task (M : Machine) (α : Type) where
  prog : Prog M α
  ω : M.Op → M.Dec

/-- A program that ran: the state before it, and its outcome. -/
structure Ran (M : Machine) (α : Type) where
  before : M.St
  outcome : Outcome M α

/-- The task from state `s`. -/
def Task.ran (x : Task M α) (s : M.St) : Ran M α := ⟨s, x.prog.run x.ω s⟩

/-- The tasks one after another. -/
def serial : M.St → List (Task M α) → List (Ran M α)
  | _, [] => []
  | s, x :: xs => x.ran s :: serial (x.ran s).outcome.state xs

/-! ## One thread of a configuration -/

/-- The decisions `ω` are allowed at each request of the program's run. -/
def Prog.Allowed (A : M.Op → M.Dec → M.St → Prop) (ω : M.Op → M.Dec) : Prog M α → M.St → Prop
  | .op o k, s => A o (ω o) s ∧ (k (M.exec o (ω o) s).1).Allowed A ω (M.exec o (ω o) s).2
  | _, _ => True

theorem Prog.Allowed.of_forall {A : M.Op → M.Dec → M.St → Prop} {ω : M.Op → M.Dec}
    (h : ∀ o s, A o (ω o) s) (p : Prog M α) (s : M.St) : p.Allowed A ω s := by
  induction p generalizing s with
  | ret a => trivial
  | throw e => trivial
  | op o k ih => exact ⟨h o s, ih _ _⟩

namespace Conf

variable [DecidableEq ι]

/-- Thread `t` runs to its end. -/
def finish (c : Conf M ι α) (t : ι) (ω : M.Op → M.Dec) : Conf M ι α where
  st := ((c.thr t).run ω c.st).state
  thr := Function.update c.thr t (.ofExcept ((c.thr t).run ω c.st).result)
  trace := c.trace ++ ((c.thr t).run ω c.st).trace.map fun e => (t, e)

theorem finish_self (c : Conf M ι α) (t : ι) (ω : M.Op → M.Dec) :
    (c.finish t ω).thr t = .ofExcept ((c.thr t).run ω c.st).result :=
  Function.update_self ..

theorem finish_of_ne (c : Conf M ι α) {t u : ι} (ω : M.Op → M.Dec) (h : u ≠ t) :
    (c.finish t ω).thr u = c.thr u :=
  Function.update_of_ne h ..

/-- Thread `t` and then thread `u`: how each ends. -/
theorem finish_finish (c : Conf M ι α) {t u : ι} (ω ω' : M.Op → M.Dec) (h : u ≠ t) :
    ((c.finish t ω).finish u ω').thr t = .ofExcept ((c.thr t).run ω c.st).result ∧
    ((c.finish t ω).finish u ω').thr u =
      .ofExcept ((c.thr u).run ω' ((c.thr t).run ω c.st).state).result ∧
    ((c.finish t ω).finish u ω').st = ((c.thr u).run ω' ((c.thr t).run ω c.st).state).state := by
  refine ⟨?_, ?_, ?_⟩
  · rw [finish_of_ne _ _ h.symm, finish_self]
  · rw [finish_self, finish_of_ne _ _ h]
    rfl
  · rw [finish, finish_of_ne _ _ h]
    rfl

/-- A thread that ended stays as it is. -/
theorem finish_of_ended (c : Conf M ι α) {t : ι} {ω : M.Op → M.Dec} {r : Except M.Err α}
    (h : c.thr t = .ofExcept r) : c.finish t ω = c := by
  have hrun : (c.thr t).run ω c.st = ⟨r, c.st, []⟩ := by
    rw [h]
    cases r <;> rfl
  rw [finish, hrun, ← h, Function.update_eq_self, List.map_nil, List.append_nil]

/-- A thread that makes a request and then runs to its end. -/
theorem finish_of_op (c : Conf M ι α) {t : ι} {ω : M.Op → M.Dec} {o : M.Op}
    {k : Except M.Err (M.Ans o) → Prog M α} (h : c.thr t = .op o k) :
    c.finish t ω = (c.next t o k (ω o)).finish t ω := by
  simp [finish, next, h, Prog.run_op]

/-- The run of one thread to its end is a run. -/
theorem reach_finish {allow : Allow M ι} (c : Conf M ι α) (t : ι) (ω : M.Op → M.Dec)
    (h : (c.thr t).Allowed (allow t) ω c.st) : Reach allow c (c.finish t ω) := by
  induction e : c.thr t generalizing c with
  | ret a => rw [c.finish_of_ended (r := .ok a) e]
  | throw er => rw [c.finish_of_ended (r := .error er) e]
  | op o k ih =>
    rw [e] at h
    have hself : (c.next t o k (ω o)).thr t = k (M.exec o (ω o) c.st).1 := Function.update_self ..
    rw [c.finish_of_op e]
    refine .head (.mk (ω o) e h.1) (ih _ _ ?_ hself)
    rw [hself]
    exact h.2

end Conf

end Conc
