/-!
# Programs that ask a shared machine

A service operation is a sequence of requests to things it shares with the other operations: a
database, a remote service, a queue. Between two requests it only computes. `Prog M α` is such
an operation over a machine `M`: it returns, throws, or makes a request and goes on with the
answer, which is a value or an error.

* `Machine`: the requests, their answers, what the environment decides at a request (that it
  fails, the remote answer, a generated id, the time), the shared state, the errors, and what a
  request does (`exec`). One request is one atomic step.
* `Prog`: a monad with `throw` and `tryCatch`.
* `Prog.run`: the program alone, from a state, under decisions `ω` of the environment.
  `run_perform_ok`, `run_perform_error`, `run_bind` and `run_tryCatch` take a run apart along the
  program.
* `Prog.Asks P`: every request that the program may make, whatever the answers, satisfies `P`. So
  does every request of its runs (`Asks.run`).
* `Coupled`: two runs of one program under the same decisions. A relation that each request keeps,
  with equal answers, is kept by the whole run (`Coupled.run`).
-/

namespace Conc

/-- What programs share (module doc). -/
structure Machine where
  /-- The requests. -/
  Op : Type
  /-- The answers of a request. -/
  Ans : Op → Type
  /-- What the environment decides at a request. -/
  Dec : Type
  /-- The shared state. -/
  St : Type
  /-- The errors a request or a program throws. -/
  Err : Type
  /-- What a request answers, and the state after it. -/
  exec : (o : Op) → Dec → St → Except Err (Ans o) × St

/-- A program over `M` (module doc). -/
inductive Prog (M : Machine) (α : Type) where
  | ret (a : α)
  | throw (e : M.Err)
  | op (o : M.Op) (k : Except M.Err (M.Ans o) → Prog M α)

variable {M : Machine} {α β : Type}

namespace Prog

/-- `p`, then `f` of its result; an error of `p` is the result. -/
def bind : Prog M α → (α → Prog M β) → Prog M β
  | .ret a, f => f a
  | .throw e, _ => .throw e
  | .op o k, f => .op o fun r => (k r).bind f

/-- `p`; if it throws `e`, then `h e`. -/
def tryCatch : Prog M α → (M.Err → Prog M α) → Prog M α
  | .ret a, _ => .ret a
  | .throw e, h => h e
  | .op o k, h => .op o fun r => (k r).tryCatch h

/-- The request `o`: its answer, or its error thrown. -/
def perform (o : M.Op) : Prog M (M.Ans o) :=
  .op o fun
    | .ok a => .ret a
    | .error e => .throw e

/-- A value that was computed, or its error thrown. -/
def ofExcept : Except M.Err α → Prog M α
  | .ok a => .ret a
  | .error e => .throw e

instance : Monad (Prog M) where
  pure := .ret
  bind := bind

@[simp] theorem ret_bind (a : α) (f : α → Prog M β) : (Prog.ret a).bind f = f a := rfl

@[simp] theorem throw_bind (e : M.Err) (f : α → Prog M β) :
    (Prog.throw e : Prog M α).bind f = .throw e := rfl

@[simp] theorem op_bind (o : M.Op) (k : Except M.Err (M.Ans o) → Prog M α) (f : α → Prog M β) :
    (Prog.op o k).bind f = .op o fun r => (k r).bind f := rfl

@[simp] theorem ofExcept_ok (a : α) : (ofExcept (.ok a) : Prog M α) = .ret a := rfl

@[simp] theorem ofExcept_error (e : M.Err) : (ofExcept (.error e) : Prog M α) = .throw e := rfl

/-- The program has ended. -/
def ended : Prog M α → Bool
  | .ret _ => true
  | .throw _ => true
  | .op _ _ => false

theorem exists_ofExcept {p : Prog M α} (h : p.ended) : ∃ r, p = .ofExcept r := by
  cases p with
  | ret a => exact ⟨.ok a, rfl⟩
  | throw e => exact ⟨.error e, rfl⟩
  | op o k => cases h

/-- What the program has returned. -/
def returned : Prog M α → Option α
  | .ret a => some a
  | .throw _ => none
  | .op _ _ => none

theorem eq_ret_of_returned {p : Prog M α} {a : α} (h : p.returned = some a) : p = .ret a := by
  cases p with
  | ret b => exact congrArg Prog.ret (Option.some.inj h)
  | throw e => cases h
  | op o k => cases h

end Prog

/-- One request of a run: what was asked, what the environment decided, what was answered. -/
structure Event (M : Machine) where
  op : M.Op
  dec : M.Dec
  ans : Except M.Err (M.Ans op)

/-- The event of the request `o` in state `s`. -/
def Event.of (o : M.Op) (d : M.Dec) (s : M.St) : Event M := ⟨o, d, (M.exec o d s).1⟩

/-- How a run ends: its result, the state, and its requests in order. -/
structure Outcome (M : Machine) (α : Type) where
  result : Except M.Err α
  state : M.St
  trace : List (Event M)

/-- The outcome with the requests `es` before it. -/
def Outcome.after (es : List (Event M)) (r : Outcome M α) : Outcome M α :=
  { r with trace := es ++ r.trace }

@[simp] theorem Outcome.after_result (es : List (Event M)) (r : Outcome M α) :
    (r.after es).result = r.result := rfl

@[simp] theorem Outcome.after_state (es : List (Event M)) (r : Outcome M α) :
    (r.after es).state = r.state := rfl

@[simp] theorem Outcome.after_trace (es : List (Event M)) (r : Outcome M α) :
    (r.after es).trace = es ++ r.trace := rfl

theorem Outcome.after_after (es es' : List (Event M)) (r : Outcome M α) :
    (r.after es').after es = r.after (es ++ es') := by
  simp [Outcome.after]

namespace Prog

/-- The program alone, from state `s`, when the environment decides `ω o` at the request `o`. -/
def run (ω : M.Op → M.Dec) : Prog M α → M.St → Outcome M α
  | .ret a, s => ⟨.ok a, s, []⟩
  | .throw e, s => ⟨.error e, s, []⟩
  | .op o k, s => ((k (M.exec o (ω o) s).1).run ω (M.exec o (ω o) s).2).after [.of o (ω o) s]

variable {ω : M.Op → M.Dec}

@[simp] theorem run_ret (a : α) (s : M.St) : (Prog.ret a).run ω s = ⟨.ok a, s, []⟩ := rfl

@[simp] theorem run_throw (e : M.Err) (s : M.St) :
    (Prog.throw e : Prog M α).run ω s = ⟨.error e, s, []⟩ := rfl

theorem run_op (o : M.Op) (k : Except M.Err (M.Ans o) → Prog M α) (s : M.St) :
    (Prog.op o k).run ω s =
      ((k (M.exec o (ω o) s).1).run ω (M.exec o (ω o) s).2).after [.of o (ω o) s] := rfl

theorem run_bind (p : Prog M α) (f : α → Prog M β) (s : M.St) :
    (p.bind f).run ω s =
      match (p.run ω s).result with
      | .ok a => ((f a).run ω (p.run ω s).state).after (p.run ω s).trace
      | .error e => ⟨.error e, (p.run ω s).state, (p.run ω s).trace⟩ := by
  induction p generalizing s with
  | ret a => simp [Outcome.after]
  | throw e => rfl
  | op o k ih =>
    rw [op_bind, run_op, run_op, ih]
    simp only [Outcome.after_result, Outcome.after_state, Outcome.after_trace]
    split <;> simp [Outcome.after]

theorem run_tryCatch (p : Prog M α) (h : M.Err → Prog M α) (s : M.St) :
    (p.tryCatch h).run ω s =
      match (p.run ω s).result with
      | .ok a => ⟨.ok a, (p.run ω s).state, (p.run ω s).trace⟩
      | .error e => ((h e).run ω (p.run ω s).state).after (p.run ω s).trace := by
  induction p generalizing s with
  | ret a => rfl
  | throw e => simp [tryCatch, Outcome.after]
  | op o k ih =>
    rw [tryCatch, run_op, run_op, ih]
    simp only [Outcome.after_result, Outcome.after_state, Outcome.after_trace]
    split <;> simp [Outcome.after]

/-- A request that answers. -/
theorem run_perform_ok {o : M.Op} {f : M.Ans o → Prog M β} {s s' : M.St} {a : M.Ans o}
    (h : M.exec o (ω o) s = (.ok a, s')) :
    ((perform o).bind f).run ω s = ((f a).run ω s').after [⟨o, ω o, .ok a⟩] := by
  simp only [perform, op_bind, run_op, Event.of, h, ret_bind]

/-- A request that fails. -/
theorem run_perform_error {o : M.Op} {f : M.Ans o → Prog M β} {s s' : M.St} {e : M.Err}
    (h : M.exec o (ω o) s = (.error e, s')) :
    ((perform o).bind f).run ω s = ⟨.error e, s', [⟨o, ω o, .error e⟩]⟩ := by
  simp only [perform, op_bind, run_op, Event.of, h, throw_bind, run_throw]
  rfl

/-- A program that returns got an answer to its request. -/
theorem run_perform_returns {o : M.Op} {f : M.Ans o → Prog M β} {s : M.St} {b : β}
    (h : (((perform o).bind f).run ω s).result = .ok b) :
    ∃ a s', M.exec o (ω o) s = (.ok a, s') ∧
      ((perform o).bind f).run ω s = ((f a).run ω s').after [⟨o, ω o, .ok a⟩] := by
  cases hx : M.exec o (ω o) s with
  | mk r s' =>
    cases r with
    | error e =>
      rw [run_perform_error hx] at h
      cases h
    | ok a => exact ⟨a, s', rfl, run_perform_ok hx⟩

/-- Every request that the program may make satisfies `P` (module doc). -/
def Asks (P : M.Op → Prop) : Prog M α → Prop
  | .ret _ => True
  | .throw _ => True
  | .op o k => P o ∧ ∀ r, (k r).Asks P

namespace Asks

variable {P : M.Op → Prop}

theorem bind {p : Prog M α} {f : α → Prog M β} (hp : p.Asks P) (hf : ∀ a, (f a).Asks P) :
    (p.bind f).Asks P := by
  induction p with
  | ret a => exact hf a
  | throw e => trivial
  | op o k ih => exact ⟨hp.1, fun r => ih r (hp.2 r)⟩

theorem tryCatch {p : Prog M α} {h : M.Err → Prog M α} (hp : p.Asks P) (hh : ∀ e, (h e).Asks P) :
    (p.tryCatch h).Asks P := by
  induction p with
  | ret a => trivial
  | throw e => exact hh e
  | op o k ih => exact ⟨hp.1, fun r => ih r (hp.2 r)⟩

theorem mono {P' : M.Op → Prop} {p : Prog M α} (h : p.Asks P) (hP : ∀ o, P o → P' o) :
    p.Asks P' := by
  induction p with
  | ret a => trivial
  | throw e => trivial
  | op o k ih => exact ⟨hP o h.1, fun r => ih r (h.2 r)⟩

theorem ofExcept (r : Except M.Err α) : (Prog.ofExcept r).Asks P := by
  cases r with
  | ok a => trivial
  | error e => trivial

theorem perform {o : M.Op} (ho : P o) : (perform o).Asks P := by
  refine ⟨ho, fun r => ?_⟩
  cases r with
  | ok a => trivial
  | error e => trivial

/-- The requests of a run. -/
theorem run {p : Prog M α} (hp : p.Asks P) (s : M.St) : ∀ e ∈ (p.run ω s).trace, P e.op := by
  induction p generalizing s with
  | ret a => exact fun e he => absurd he List.not_mem_nil
  | throw er => exact fun e he => absurd he List.not_mem_nil
  | op o k ih =>
    intro e he
    rcases List.mem_cons.mp he with rfl | he
    · exact hp.1
    · exact ih _ (hp.2 _) _ e he

end Asks

end Prog

/-! ## Two runs of one program -/

/-- A relation between the states of two runs, with a ghost value that changes along them, and
the decisions it is about. -/
structure Coupling (M : Machine) (γ : Type) where
  rel : γ → M.St → M.St → Prop
  allow : M.Op → M.Dec → Prop

/-- Each request of the program, in related states and under one allowed decision, has the same
answer in both and leaves them related; the program ends with `Q`. -/
def Coupled {γ : Type} (C : Coupling M γ) (Q : Except M.Err α → γ → Prop) : Prog M α → γ → Prop
  | .ret a, g => Q (.ok a) g
  | .throw e, g => Q (.error e) g
  | .op o k, g => ∀ d s₁ s₂, C.allow o d → C.rel g s₁ s₂ →
      (M.exec o d s₁).1 = (M.exec o d s₂).1 ∧
      ∃ g', C.rel g' (M.exec o d s₁).2 (M.exec o d s₂).2 ∧ Coupled C Q (k (M.exec o d s₁).1) g'

namespace Coupled

variable {γ : Type} {C : Coupling M γ}

/-- **Two runs from related states** have the same result and the same requests with the same
answers, and end in related states. -/
theorem run {Q : Except M.Err α → γ → Prop} {ω : M.Op → M.Dec} (hω : ∀ o, C.allow o (ω o))
    {p : Prog M α} {g : γ} (hp : Coupled C Q p g) {s₁ s₂ : M.St} (hs : C.rel g s₁ s₂) :
    (p.run ω s₁).result = (p.run ω s₂).result ∧ (p.run ω s₁).trace = (p.run ω s₂).trace ∧
      ∃ g', C.rel g' (p.run ω s₁).state (p.run ω s₂).state ∧ Q (p.run ω s₁).result g' := by
  induction p generalizing g s₁ s₂ with
  | ret a => exact ⟨rfl, rfl, g, hs, hp⟩
  | throw e => exact ⟨rfl, rfl, g, hs, hp⟩
  | op o k ih =>
    obtain ⟨ha, g', hs', hk⟩ := hp (ω o) s₁ s₂ (hω o) hs
    obtain ⟨hr, ht, hg⟩ := ih _ hk hs'
    simp only [Prog.run_op, Outcome.after_result, Outcome.after_state, Outcome.after_trace,
      Event.of, ← ha]
    exact ⟨hr, by rw [ht], hg⟩

theorem bind {Q : Except M.Err β → γ → Prop} {p : Prog M α} {f : α → Prog M β} {g : γ}
    (h : Coupled C (fun r g' => match r with
      | .ok a => Coupled C Q (f a) g'
      | .error e => Q (.error e) g') p g) : Coupled C Q (p.bind f) g := by
  induction p generalizing g with
  | ret a => exact h
  | throw e => exact h
  | op o k ih =>
    intro d s₁ s₂ hd hs
    obtain ⟨ha, g', hs', hk⟩ := h d s₁ s₂ hd hs
    exact ⟨ha, g', hs', ih _ hk⟩

theorem tryCatch {Q : Except M.Err α → γ → Prop} {p : Prog M α} {f : M.Err → Prog M α} {g : γ}
    (h : Coupled C (fun r g' => match r with
      | .ok a => Q (.ok a) g'
      | .error e => Coupled C Q (f e) g') p g) : Coupled C Q (p.tryCatch f) g := by
  induction p generalizing g with
  | ret a => exact h
  | throw e => exact h
  | op o k ih =>
    intro d s₁ s₂ hd hs
    obtain ⟨ha, g', hs', hk⟩ := h d s₁ s₂ hd hs
    exact ⟨ha, g', hs', ih _ hk⟩

theorem mono {Q Q' : Except M.Err α → γ → Prop} {p : Prog M α} {g : γ} (h : Coupled C Q p g)
    (hQ : ∀ r g, Q r g → Q' r g) : Coupled C Q' p g := by
  induction p generalizing g with
  | ret a => exact hQ _ _ h
  | throw e => exact hQ _ _ h
  | op o k ih =>
    intro d s₁ s₂ hd hs
    obtain ⟨ha, g', hs', hk⟩ := h d s₁ s₂ hd hs
    exact ⟨ha, g', hs', ih _ hk⟩

/-- A value that was computed goes to `f`; an error ends the program. -/
theorem ofExcept_bind {Q : Except M.Err β → γ → Prop} {r : Except M.Err α} {f : α → Prog M β}
    {g : γ} (hok : ∀ a, r = .ok a → Coupled C Q (f a) g)
    (herr : ∀ e, r = .error e → Q (.error e) g) : Coupled C Q ((Prog.ofExcept r).bind f) g := by
  cases r with
  | ok a => exact hok a rfl
  | error e => exact herr e rfl

/-- One request. -/
theorem perform {o : M.Op} {Q : Except M.Err (M.Ans o) → γ → Prop} {g : γ}
    (h : ∀ d s₁ s₂, C.allow o d → C.rel g s₁ s₂ → ∃ r s₁' s₂',
      M.exec o d s₁ = (r, s₁') ∧ M.exec o d s₂ = (r, s₂') ∧ ∃ g', C.rel g' s₁' s₂' ∧ Q r g') :
    Coupled C Q (Prog.perform o) g := by
  intro d s₁ s₂ hd hs
  obtain ⟨r, s₁', s₂', h₁, h₂, g', hg, hk⟩ := h d s₁ s₂ hd hs
  rw [h₁, h₂]
  refine ⟨rfl, g', hg, ?_⟩
  cases r with
  | ok a => exact hk
  | error e => exact hk

/-- A program that ends with `P`, and then another: an error ends both. -/
theorem seq {P : Except M.Err α → γ → Prop} {Q : Except M.Err β → γ → Prop} {p : Prog M α}
    {f : α → Prog M β} {g : γ} (hp : Coupled C P p g)
    (hok : ∀ a g', P (.ok a) g' → Coupled C Q (f a) g')
    (herr : ∀ e g', P (.error e) g' → Q (.error e) g') : Coupled C Q (p.bind f) g := by
  refine bind (hp.mono fun r g' hr => ?_)
  cases r with
  | ok a => exact hok a g' hr
  | error e => exact herr e g' hr

/-- A program that ends with `P`, and the handler of its errors. -/
theorem handle {P Q : Except M.Err α → γ → Prop} {p : Prog M α} {f : M.Err → Prog M α} {g : γ}
    (hp : Coupled C P p g) (hok : ∀ a g', P (.ok a) g' → Q (.ok a) g')
    (herr : ∀ e g', P (.error e) g' → Coupled C Q (f e) g') : Coupled C Q (p.tryCatch f) g := by
  refine tryCatch (hp.mono fun r g' hr => ?_)
  cases r with
  | ok a => exact hok a g' hr
  | error e => exact herr e g' hr

end Coupled

end Conc
