import Pasarela.Conc.Pool

/-!
# The acts of a run, by their places

What a proof needs of the requests of a run is often only what each of them came to, and which of
two was first.

* `acts f tr`: what `f` makes of each request, with the thread. `(acts f tr)[i]? = some (t, a)` says
  that thread `t` did `a` at the place `i`; `getElem?_snoc` is the rule for one more request.
* `Machine.plus M change`: `M`, with changes of its state from outside as requests. `Prog.lift`: a
  program over `M`, as one over it; `lift_bind` takes it apart.
-/

namespace Conc

variable {M : Machine} {ι α β A : Type}

/-! ## Places -/

/-- What `f` makes of each request (module doc). -/
def acts (f : Event M → A) (tr : List (ι × Event M)) : List (ι × A) := tr.map fun x => (x.1, f x.2)

@[simp] theorem acts_nil (f : Event M → A) : acts f ([] : List (ι × Event M)) = [] := rfl

theorem acts_snoc (f : Event M → A) (tr : List (ι × Event M)) (t : ι) (e : Event M) :
    acts f (tr ++ [(t, e)]) = acts f tr ++ [(t, f e)] := by
  simp [acts]

theorem acts_take (f : Event M → A) (tr : List (ι × Event M)) (i : Nat) :
    acts f (tr.take i) = (acts f tr).take i := by
  simp [acts]

theorem getElem?_acts {f : Event M → A} {tr : List (ι × Event M)} {i : Nat} {t : ι} {a : A} :
    (acts f tr)[i]? = some (t, a) ↔ ∃ e, tr[i]? = some (t, e) ∧ f e = a := by
  simp [acts, Option.map_eq_some_iff]

section Places

variable {l : List α} {x y : α} {i : Nat}

/-- A place of a list is one before its end. -/
theorem lt_of_getElem? (h : l[i]? = some y) : i < l.length := (List.getElem?_eq_some_iff.mp h).1

theorem getElem?_snoc : (l ++ [x])[i]? = some y ↔ l[i]? = some y ∨ i = l.length ∧ x = y := by
  constructor
  · intro h
    rcases Nat.lt_or_ge i l.length with hi | hi
    · rw [List.getElem?_append_left hi] at h
      exact .inl h
    · have hlt : i < (l ++ [x]).length := lt_of_getElem? h
      rw [List.length_append, List.length_singleton] at hlt
      obtain rfl : i = l.length := by omega
      rw [List.getElem?_concat_length] at h
      exact .inr ⟨rfl, Option.some.inj h⟩
  · rintro (h | ⟨rfl, rfl⟩)
    · rw [List.getElem?_append_left (lt_of_getElem? h)]
      exact h
    · exact List.getElem?_concat_length

theorem getElem?_snoc_of_some (h : l[i]? = some y) : (l ++ [x])[i]? = some y :=
  getElem?_snoc.mpr (.inl h)

/-- What is in a list stays in a longer one. -/
theorem exists_getElem?_snoc (h : ∃ i : Nat, l[i]? = some y) :
    ∃ i : Nat, (l ++ [x])[i]? = some y := by
  obtain ⟨i, hi⟩ := h
  exact ⟨i, getElem?_snoc_of_some hi⟩

/-- The last member is none that `y` can be. -/
theorem getElem?_snoc_of_ne (hne : x ≠ y) : (l ++ [x])[i]? = some y ↔ l[i]? = some y := by
  rw [getElem?_snoc, or_iff_left fun h => hne h.2]

end Places

/-! ## Changes from outside -/

/-- `M` with changes of its state (module doc). -/
abbrev Machine.plus {X : Type} (M : Machine) (change : X → M.St → M.St) : Machine where
  Op := M.Op ⊕ X
  Ans
    | .inl o => M.Ans o
    | .inr _ => Unit
  Dec := M.Dec
  St := M.St
  Err := M.Err
  exec
    | .inl o, d, s => M.exec o d s
    | .inr x, _, s => (.ok (), change x s)

variable {X : Type} {change : X → M.St → M.St}

/-- A program that makes no changes from outside (module doc). -/
def Prog.lift (change : X → M.St → M.St) : Prog M α → Prog (M.plus change) α
  | .ret a => .ret a
  | .throw e => .throw e
  | .op o k => .op (.inl o) fun r => (k r).lift change

theorem Prog.lift_bind (p : Prog M α) (f : α → Prog M β) :
    (p.bind f).lift change = (p.lift change).bind fun a => (f a).lift change := by
  induction p with
  | ret a => rfl
  | throw e => rfl
  | op o k ih => exact congrArg (Prog.op (M := M.plus change) (.inl o)) (funext ih)

theorem Prog.lift_perform (o : M.Op) :
    (Prog.perform o).lift change = Prog.perform (M := M.plus change) (.inl o) := by
  refine congrArg (Prog.op (M := M.plus change) (.inl o)) (funext fun r => ?_)
  cases r with
  | ok a => rfl
  | error e => rfl

theorem Prog.lift_ofExcept (r : Except M.Err α) :
    (Prog.ofExcept r).lift change = .ofExcept r := by
  cases r with
  | ok a => rfl
  | error e => rfl

end Conc
