import Mathlib.Algebra.BigOperators.Group.Finset.Basic
import Mathlib.Logic.Relation
import Mathlib.Logic.Function.Basic
import Pasarela.Conc.Prog

/-!
# Programs that run side by side

`Conf M ι α`: a shared state and one program for each thread `t : ι`, with the requests made so
far. A step runs one request of one thread (`Conf.Step`), so a run is any interleaving of the
threads at the granularity of their requests. A step is taken under `allow`, which says which
requests and decisions the run may make: the assumptions about the environment, or a condition on
the runs that a result is about.

* `Proto`: what a proof about all interleavings says. `inv` is the invariant, over the ghost value
  of each thread, the state and the requests so far; `guar` holds between the states before and
  after each step.
* `Proto.WP t Q p g`: thread `t`, with ghost value `g` and the program `p` left to run, keeps the
  protocol at each of its steps, whatever the other threads did in between, and ends with `Q`.
  `WP.perform_bind` is the rule for one request.
* `Proto.sound`: if the invariant holds at the start and each thread has `WP`, then the invariant
  holds in every state that a run reaches; `Proto.guar_step`: each step of a run has `guar`.
* `Conf.play`: the run of a given schedule, to evaluate one; `Conf.reach_perform` builds a run
  request by request.
-/

namespace Conc

/-- A shared state, the programs of the threads, and the requests made so far, each with the
thread that made it. -/
structure Conf (M : Machine) (ι α : Type) where
  st : M.St
  thr : ι → Prog M α
  trace : List (ι × Event M)

variable {M : Machine} {ι α β : Type} [DecidableEq ι]

/-- The runs a result is about: which requests a thread may make, under which decisions, in which
states. -/
abbrev Allow (M : Machine) (ι : Type) : Type := ι → M.Op → M.Dec → M.St → Prop

/-- Every run. -/
def Any : Allow M ι := fun _ _ _ _ => True

namespace Conf

/-- The threads `thr` at their start in state `s`. -/
def start (s : M.St) (thr : ι → Prog M α) : Conf M ι α := ⟨s, thr, []⟩

/-- Thread `t` makes the request `o` and goes on with `k`. -/
def next (c : Conf M ι α) (t : ι) (o : M.Op) (k : Except M.Err (M.Ans o) → Prog M α)
    (d : M.Dec) : Conf M ι α where
  st := (M.exec o d c.st).2
  thr := Function.update c.thr t (k (M.exec o d c.st).1)
  trace := c.trace ++ [(t, .of o d c.st)]

/-- One request of one thread. -/
inductive Step (allow : Allow M ι) : Conf M ι α → Conf M ι α → Prop
  | mk {c : Conf M ι α} {t : ι} {o : M.Op} {k : Except M.Err (M.Ans o) → Prog M α} (d : M.Dec) :
    c.thr t = .op o k → allow t o d c.st → Step allow c (c.next t o k d)

/-- The states that a run from `c₀` reaches. -/
abbrev Reach (allow : Allow M ι) (c₀ c : Conf M ι α) : Prop :=
  Relation.ReflTransGen (Step allow) c₀ c

/-- The step of thread `t` under decision `d`; a thread that ended does nothing. -/
def stepAt (c : Conf M ι α) (t : ι) (d : M.Dec) : Conf M ι α :=
  match c.thr t with
  | .op o k => c.next t o k d
  | _ => c

/-- The run of a schedule: which thread makes the next request, and what the environment decides. -/
def play (c : Conf M ι α) : List (ι × M.Dec) → Conf M ι α
  | [] => c
  | (t, d) :: l => (c.stepAt t d).play l

/-- Each step of the schedule is allowed. -/
def Plays (allow : Allow M ι) (c : Conf M ι α) : List (ι × M.Dec) → Prop
  | [] => True
  | (t, d) :: l =>
    (match c.thr t with
      | .op o _ => allow t o d c.st
      | _ => True) ∧ Plays allow (c.stepAt t d) l

theorem reach_stepAt {allow : Allow M ι} {c : Conf M ι α} {t : ι} {d : M.Dec}
    (h : match c.thr t with
      | .op o _ => allow t o d c.st
      | _ => True) : Reach allow c (c.stepAt t d) := by
  unfold stepAt
  cases e : c.thr t with
  | ret a => exact .refl
  | throw er => exact .refl
  | op o k =>
    rw [e] at h
    exact .single (.mk d e h)

/-- A thread makes a request, which answers. -/
theorem reach_perform (allow : Allow M ι) {c : Conf M ι α} {t : ι} {o : M.Op}
    {f : M.Ans o → Prog M α} {d : M.Dec} {a : M.Ans o} {s' : M.St}
    (ht : c.thr t = (Prog.perform o).bind f) (ha : allow t o d c.st)
    (hx : M.exec o d c.st = (.ok a, s')) :
    ∃ c', Reach allow c c' ∧ c'.st = s' ∧ c'.thr = Function.update c.thr t (f a) := by
  refine ⟨_, .single (.mk d ht ha), ?_, ?_⟩
  · rw [next, hx]
  · simp only [next, hx]
    rfl

/-- A thread makes a request, which answers, where it handles errors. -/
theorem reach_perform_tryCatch (allow : Allow M ι) {c : Conf M ι α} {t : ι} {o : M.Op}
    {f : M.Ans o → Prog M α} {h : M.Err → Prog M α} {d : M.Dec} {a : M.Ans o} {s' : M.St}
    (ht : c.thr t = ((Prog.perform o).bind f).tryCatch h) (ha : allow t o d c.st)
    (hx : M.exec o d c.st = (.ok a, s')) :
    ∃ c', Reach allow c c' ∧ c'.st = s' ∧
      c'.thr = Function.update c.thr t ((f a).tryCatch h) := by
  refine ⟨_, .single (.mk d ht ha), ?_, ?_⟩
  · rw [next, hx]
  · simp only [next, hx]
    rfl

/-- A schedule whose steps are allowed is a run. -/
theorem reach_play {allow : Allow M ι} {c : Conf M ι α} {l : List (ι × M.Dec)}
    (h : Plays allow c l) : Reach allow c (c.play l) := by
  induction l generalizing c with
  | nil => exact .refl
  | cons a l ih => exact (reach_stepAt h.1).trans (ih h.2)

theorem plays_any (c : Conf M ι α) (l : List (ι × M.Dec)) : Plays Any c l := by
  induction l generalizing c with
  | nil => trivial
  | cons a l ih => exact ⟨by split <;> trivial, ih _⟩

/-- One thread runs to its end, alone. -/
theorem reach_run (c : Conf M ι α) (t : ι) (ω : M.Op → M.Dec) :
    ∃ c', Reach Any c c' ∧ c'.st = ((c.thr t).run ω c.st).state ∧ ∀ u ≠ t, c'.thr u = c.thr u := by
  induction e : c.thr t generalizing c with
  | ret a => exact ⟨c, .refl, rfl, fun _ _ => rfl⟩
  | throw er => exact ⟨c, .refl, rfl, fun _ _ => rfl⟩
  | op o k ih =>
    obtain ⟨c', hr, hst, hthr⟩ := ih (M.exec o (ω o) c.st).1 (c.next t o k (ω o))
      (Function.update_self ..)
    refine ⟨c', .head (.mk (ω o) e trivial) hr, hst, fun u hu => ?_⟩
    rw [hthr u hu]
    exact Function.update_of_ne hu _ _

/-- A property of the state that every request keeps. -/
theorem Reach.inv {allow : Allow M ι} {c₀ c : Conf M ι α} (h : Reach allow c₀ c) {I : M.St → Prop}
    (hstep : ∀ o d s, I s → I (M.exec o d s).2) (h₀ : I c₀.st) : I c.st := by
  induction h with
  | refl => exact h₀
  | tail _ hs ih =>
    obtain ⟨d, -, -⟩ := hs
    exact hstep _ d _ ih

/-- The requests made so far stay. -/
theorem Reach.trace_mono {allow : Allow M ι} {c₀ c : Conf M ι α} (h : Reach allow c₀ c) :
    c₀.trace <+: c.trace := by
  induction h with
  | refl => exact List.prefix_rfl
  | tail _ hs ih =>
    obtain ⟨d, -, -⟩ := hs
    exact ih.trans (List.prefix_append _ _)

/-- A run under assumptions is a run. -/
theorem Reach.any {allow : Allow M ι} {c₀ c : Conf M ι α} (h : Reach allow c₀ c) :
    Reach Any c₀ c := by
  induction h with
  | refl => exact .refl
  | tail _ hs ih =>
    obtain ⟨d, hop, -⟩ := hs
    exact ih.tail (.mk d hop trivial)

/-- A thread that threw an error makes no more steps. -/
theorem Reach.thr_of_throw {allow : Allow M ι} {c₀ c : Conf M ι α} (h : Reach allow c₀ c) {t : ι}
    {e : M.Err} (ht : c₀.thr t = .throw e) : c.thr t = .throw e := by
  induction h with
  | refl => exact ht
  | tail _ hs ih =>
    obtain ⟨d, hop, -⟩ := hs
    rename_i u o k
    by_cases hu : t = u
    · subst hu
      rw [ih] at hop
      cases hop
    · exact (Function.update_of_ne hu _ _).trans ih

end Conf

/-- What a proof about all interleavings says (module doc). -/
structure Proto (M : Machine) (ι γ : Type) where
  allow : Allow M ι
  inv : (ι → γ) → M.St → List (ι × Event M) → Prop
  guar : M.St → M.St → Prop := fun _ _ => True

namespace Proto

variable {γ : Type} (P : Proto M ι γ)

/-- Thread `t` keeps the protocol from here on (module doc). -/
def WP (t : ι) (Q : Except M.Err α → γ → Prop) : Prog M α → γ → Prop
  | .ret a, g => Q (.ok a) g
  | .throw e, g => Q (.error e) g
  | .op o k, g => ∀ G s tr d, G t = g → P.inv G s tr → P.allow t o d s →
      P.guar s (M.exec o d s).2 ∧
      ∃ g', P.inv (Function.update G t g') (M.exec o d s).2 (tr ++ [(t, .of o d s)]) ∧
        WP t Q (k (M.exec o d s).1) g'

variable {P} {t : ι}

/-- A step after which thread `t` has the same ghost value. -/
theorem keep {G : ι → γ} {g : γ} {s : M.St} {tr : List (ι × Event M)} {X : γ → Prop} (h : G t = g)
    (hi : P.inv G s tr) (hX : X g) : ∃ g', P.inv (Function.update G t g') s tr ∧ X g' :=
  ⟨g, by rw [← h, Function.update_eq_self]; exact hi, hX⟩

namespace WP

theorem bind {Q : Except M.Err β → γ → Prop} {p : Prog M α} {f : α → Prog M β} {g : γ}
    (h : P.WP t (fun r g' => match r with
      | .ok a => P.WP t Q (f a) g'
      | .error e => Q (.error e) g') p g) : P.WP t Q (p.bind f) g := by
  induction p generalizing g with
  | ret a => exact h
  | throw e => exact h
  | op o k ih =>
    intro G s tr d hg hi ha
    obtain ⟨hgu, g', hi', hk⟩ := h G s tr d hg hi ha
    exact ⟨hgu, g', hi', ih _ hk⟩

theorem tryCatch {Q : Except M.Err α → γ → Prop} {p : Prog M α} {f : M.Err → Prog M α} {g : γ}
    (h : P.WP t (fun r g' => match r with
      | .ok a => Q (.ok a) g'
      | .error e => P.WP t Q (f e) g') p g) : P.WP t Q (p.tryCatch f) g := by
  induction p generalizing g with
  | ret a => exact h
  | throw e => exact h
  | op o k ih =>
    intro G s tr d hg hi ha
    obtain ⟨hgu, g', hi', hk⟩ := h G s tr d hg hi ha
    exact ⟨hgu, g', hi', ih _ hk⟩

/-- One request: its error ends the program, its answer goes to `f`. -/
theorem perform_bind {Q : Except M.Err β → γ → Prop} {o : M.Op} {f : M.Ans o → Prog M β} {g : γ}
    (h : ∀ G s tr d r s', G t = g → P.inv G s tr → P.allow t o d s → M.exec o d s = (r, s') →
      P.guar s s' ∧ ∃ g', P.inv (Function.update G t g') s' (tr ++ [(t, ⟨o, d, r⟩)]) ∧
        match r with
        | .ok a => P.WP t Q (f a) g'
        | .error e => Q (.error e) g') :
    P.WP t Q ((Prog.perform o).bind f) g := by
  intro G s tr d hg hi ha
  obtain ⟨hgu, g', hi', hk⟩ := h G s tr d _ _ hg hi ha rfl
  refine ⟨hgu, g', hi', ?_⟩
  cases e : (M.exec o d s).1 with
  | error er => rw [e] at hk; exact hk
  | ok a => rw [e] at hk; exact hk

/-- The last request of a program. -/
theorem perform {o : M.Op} {Q : Except M.Err (M.Ans o) → γ → Prop} {g : γ}
    (h : ∀ G s tr d r s', G t = g → P.inv G s tr → P.allow t o d s → M.exec o d s = (r, s') →
      P.guar s s' ∧ ∃ g', P.inv (Function.update G t g') s' (tr ++ [(t, ⟨o, d, r⟩)]) ∧ Q r g') :
    P.WP t Q (Prog.perform o) g := by
  intro G s tr d hg hi ha
  obtain ⟨hgu, g', hi', hk⟩ := h G s tr d _ _ hg hi ha rfl
  refine ⟨hgu, g', hi', ?_⟩
  cases e : (M.exec o d s).1 with
  | error er => rw [e] at hk; exact hk
  | ok a => rw [e] at hk; exact hk

theorem ofExcept {Q : Except M.Err α → γ → Prop} {r : Except M.Err α} {g : γ} (h : Q r g) :
    P.WP t Q (Prog.ofExcept r) g := by
  cases r with
  | ok a => exact h
  | error e => exact h

theorem ofExcept_bind {Q : Except M.Err β → γ → Prop} {r : Except M.Err α}
    {f : α → Prog M β} {g : γ} (hok : ∀ a, r = .ok a → P.WP t Q (f a) g)
    (herr : ∀ e, r = .error e → Q (.error e) g) : P.WP t Q ((Prog.ofExcept r).bind f) g := by
  cases r with
  | ok a => exact hok a rfl
  | error e => exact herr e rfl

theorem mono {Q Q' : Except M.Err α → γ → Prop} {p : Prog M α} {g : γ} (h : P.WP t Q p g)
    (hQ : ∀ r g, Q r g → Q' r g) : P.WP t Q' p g := by
  induction p generalizing g with
  | ret a => exact hQ _ _ h
  | throw e => exact hQ _ _ h
  | op o k ih =>
    intro G s tr d hg hi ha
    obtain ⟨hgu, g', hi', hk⟩ := h G s tr d hg hi ha
    exact ⟨hgu, g', hi', ih _ hk⟩

/-- A program whose requests keep the invariant, with the ghost value as it is. -/
theorem of_asks {A : M.Op → Prop} {p : Prog M α} {g : γ} (hp : p.Asks A)
    (h : ∀ G s tr o d, G t = g → A o → P.inv G s tr → P.allow t o d s →
      P.guar s (M.exec o d s).2 ∧ P.inv G (M.exec o d s).2 (tr ++ [(t, .of o d s)])) :
    P.WP t (fun _ g' => g' = g) p g := by
  induction p with
  | ret a => rfl
  | throw e => rfl
  | op o k ih =>
    intro G s tr d hG hi ha
    obtain ⟨hgu, hi'⟩ := h G s tr o d hG hp.1 hi ha
    refine ⟨hgu, g, ?_, ih _ (hp.2 _)⟩
    rw [← hG, Function.update_eq_self]
    exact hi'

/-- A program whose outcome does not matter, and then another. -/
theorem bind_true {p : Prog M α} {f : α → Prog M β} {g : γ} (hp : P.WP t (fun _ _ => True) p g)
    (hf : ∀ a g', P.WP t (fun _ _ => True) (f a) g') : P.WP t (fun _ _ => True) (p.bind f) g := by
  refine bind (hp.mono fun r g' _ => ?_)
  cases r with
  | ok a => exact hf a g'
  | error e => trivial

end WP

/-- The invariant holds of a configuration, and each thread keeps the protocol from there on. -/
def Ok (P : Proto M ι γ) (Q : ι → Except M.Err α → γ → Prop) (c : Conf M ι α) : Prop :=
  ∃ G, P.inv G c.st c.trace ∧ ∀ t, P.WP t (Q t) (c.thr t) (G t)

variable {Q : ι → Except M.Err α → γ → Prop}

/-- A step keeps the protocol and has its guarantee. -/
theorem Ok.step {c c' : Conf M ι α} (h : P.Ok Q c) (hs : Conf.Step P.allow c c') :
    P.guar c.st c'.st ∧ P.Ok Q c' := by
  obtain ⟨G, hi, hw⟩ := h
  obtain ⟨d, ht, ha⟩ := hs
  rename_i t o k
  have hwt := hw t
  rw [ht] at hwt
  obtain ⟨hgu, g', hi', hk⟩ := hwt G c.st c.trace d rfl hi ha
  refine ⟨hgu, Function.update G t g', hi', fun u => ?_⟩
  by_cases hu : u = t
  · subst hu
    simpa [Conf.next] using hk
  · simpa [Conf.next, Function.update_of_ne hu] using hw u

/-- **Every state that a run reaches keeps the protocol.** -/
theorem sound {c₀ c : Conf M ι α} (h₀ : P.Ok Q c₀) (hr : Conf.Reach P.allow c₀ c) : P.Ok Q c := by
  induction hr with
  | refl => exact h₀
  | tail _ hs ih => exact (ih.step hs).2

/-- Every step of a run has the guarantee. -/
theorem guar_step {c₀ c c' : Conf M ι α} (h₀ : P.Ok Q c₀) (hr : Conf.Reach P.allow c₀ c)
    (hs : Conf.Step P.allow c c') : P.guar c.st c'.st :=
  ((sound h₀ hr).step hs).1

/-- What a thread that ended ends with. -/
theorem Ok.ended {c : Conf M ι α} (h : P.Ok Q c) :
    ∃ G, P.inv G c.st c.trace ∧ ∀ t r, c.thr t = .ofExcept r → Q t r (G t) := by
  obtain ⟨G, hi, hw⟩ := h
  refine ⟨G, hi, fun t r ht => ?_⟩
  have hwt := hw t
  rw [ht] at hwt
  cases r with
  | ok a => exact hwt
  | error e => exact hwt

/-- What a thread that returned `a` ends with. -/
theorem Ok.returned {c : Conf M ι α} (h : P.Ok Q c) {t : ι} {a : α} (ht : c.thr t = .ret a) :
    ∃ G, P.inv G c.st c.trace ∧ Q t (.ok a) (G t) := by
  obtain ⟨G, hi, hw⟩ := h
  have := hw t
  rw [ht] at this
  exact ⟨G, hi, this⟩

end Proto

/-- Which threads have a ghost value that thread `t` neither loses nor gets. -/
theorem update_eq_iff {γ : Type} {G : ι → γ} {t u : ι} {g₀ g₁ g : γ} (hG : G t = g₀) (h₀ : g ≠ g₀)
    (h₁ : g ≠ g₁) : Function.update G t g₁ u = g ↔ G u = g := by
  by_cases hu : u = t
  · rw [hu, Function.update_self, hG]
    exact iff_of_false h₁.symm h₀.symm
  · rw [Function.update_of_ne hu]

/-- How a sum over the threads changes when thread `t` gets the ghost value `g`. -/
theorem sum_update {γ N : Type} [AddCommMonoid N] [Fintype ι] (F : ι → γ → N) (G : ι → γ) (t : ι)
    (g : γ) : ∑ u, F u (Function.update G t g u) + F t (G t) = ∑ u, F u (G u) + F t g := by
  rw [← Finset.add_sum_erase _ _ (Finset.mem_univ t),
    ← Finset.add_sum_erase _ (fun u => F u (G u)) (Finset.mem_univ t), Function.update_self]
  have he : ∑ u ∈ Finset.univ.erase t, F u (Function.update G t g u) =
      ∑ u ∈ Finset.univ.erase t, F u (G u) := by
    refine Finset.sum_congr rfl fun u hu => ?_
    rw [Function.update_of_ne (Finset.ne_of_mem_erase hu)]
  rw [he, add_right_comm, add_comm (F t g), add_right_comm]

end Conc
