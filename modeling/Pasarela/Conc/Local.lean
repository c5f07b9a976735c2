import Mathlib.Data.List.NodupEquivFin
import Pasarela.Conc.Pool

/-!
# What one thread does, whatever the others do

A thread goes on with the answers that it gets, so its requests and its result can be followed
along its own program: the states that the requests meet are any states.

* `ownEvents t tr`: the requests of thread `t`.
* `Prog.Ends Q p es`: the program `p`, which made the requests `es` before, ends with all its
  requests and its result as `Q` says. `Ends.perform_bind` is the rule for one request.
* `Conf.Reach.ended`: so ends each thread of a run.
* `LastOnly P es`: no request but the last one satisfies `P`, so a thread does nothing after it
  (`LastOnly.le`). `Free P es`: none does. `Ends.free_bind` is the rule for a request before it.
* `sum_ownEvents`: a sum over the requests of a run is the sum over the threads.
-/

namespace Conc

variable {M : Machine} {ι α β : Type}

section Own

variable [DecidableEq ι]

/-- The requests of thread `t` (module doc). -/
def ownEvents (t : ι) (tr : List (ι × Event M)) : List (Event M) :=
  (tr.filter fun x => x.1 = t).map (·.2)

variable {t u : ι} {tr : List (ι × Event M)} {e : Event M}

@[simp] theorem ownEvents_nil : ownEvents t ([] : List (ι × Event M)) = [] := rfl

theorem ownEvents_snoc_self : ownEvents t (tr ++ [(t, e)]) = ownEvents t tr ++ [e] := by
  simp [ownEvents]

theorem ownEvents_snoc_of_ne (h : u ≠ t) : ownEvents u (tr ++ [(t, e)]) = ownEvents u tr := by
  simp [ownEvents, h.symm]

theorem mem_ownEvents : e ∈ ownEvents t tr ↔ (t, e) ∈ tr := by
  unfold ownEvents
  rw [List.mem_map]
  constructor
  · rintro ⟨x, hx, rfl⟩
    obtain ⟨hmem, ht⟩ := List.mem_filter.mp hx
    rwa [← of_decide_eq_true ht]
  · exact fun h => ⟨(t, e), List.mem_filter.mpr ⟨h, decide_eq_true rfl⟩, rfl⟩

/-- The requests of a thread come in the order of the run. -/
theorem exists_place_ownEvents (t : ι) (tr : List (ι × Event M)) :
    ∃ f : ℕ ↪o ℕ, ∀ i e, (ownEvents t tr)[i]? = some e → tr[f i]? = some (t, e) := by
  have hown : (ownEvents t tr).map (fun e => (t, e)) = tr.filter fun x => x.1 = t := by
    rw [ownEvents, List.map_map]
    refine (List.map_congr_left fun x hx => ?_).trans (List.map_id _)
    have hxt : x.1 = t := of_decide_eq_true (List.mem_filter.mp hx).2
    exact Prod.ext hxt.symm rfl
  have hsub : List.Sublist ((ownEvents t tr).map fun e => (t, e)) tr := hown ▸ List.filter_sublist
  obtain ⟨f, hf⟩ := List.sublist_iff_exists_orderEmbedding_getElem?_eq.mp hsub
  refine ⟨f, fun i e hi => ?_⟩
  rw [← hf i, List.getElem?_map, hi, Option.map_some]

/-- Only the last of the requests satisfies `P`. -/
def LastOnly (P : M.Op → Prop) (es : List (Event M)) : Prop := ∀ e ∈ es.dropLast, ¬ P e.op

/-- None of the requests does. -/
def Free (P : M.Op → Prop) (es : List (Event M)) : Prop := ∀ e ∈ es, ¬ P e.op

theorem Free.lastOnly {P : M.Op → Prop} {es : List (Event M)} (h : Free P es) : LastOnly P es :=
  fun e he => h e (List.dropLast_subset _ he)

theorem Free.snoc {P : M.Op → Prop} {es : List (Event M)} (h : Free P es) (he : ¬ P e.op) :
    Free P (es ++ [e]) := by
  intro e' he'
  rcases List.mem_append.mp he' with he' | he'
  · exact h e' he'
  · rwa [List.mem_singleton.mp he']

theorem Free.lastOnly_snoc {P : M.Op → Prop} {es : List (Event M)} (h : Free P es) :
    LastOnly P (es ++ [e]) := by
  intro e' he'
  rw [List.dropLast_concat] at he'
  exact h e' he'

/-- A thread does nothing after a request with `P`. -/
theorem LastOnly.le {P : M.Op → Prop} (h : LastOnly P (ownEvents t tr)) {i j : Nat} {e' : Event M}
    (hi : tr[i]? = some (t, e)) (he : P e.op) (hj : tr[j]? = some (t, e')) : j ≤ i := by
  by_contra hlt
  obtain ⟨hi', hget⟩ := List.getElem?_eq_some_iff.mp hi
  have hsplit : tr = tr.take i ++ (t, e) :: tr.drop (i + 1) := by
    rw [← hget, List.cons_getElem_drop_succ, List.take_append_drop]
  have hlater : e' ∈ ownEvents t (tr.drop (i + 1)) := by
    refine mem_ownEvents.mpr (List.mem_of_getElem? (i := j - (i + 1)) ?_)
    rw [List.getElem?_drop, ← hj]
    congr 1
    omega
  have hown : ownEvents t tr = ownEvents t (tr.take i) ++ e :: ownEvents t (tr.drop (i + 1)) := by
    conv_lhs => rw [hsplit]
    simp [ownEvents]
  refine h e ?_ he
  rw [hown, List.dropLast_append_of_ne_nil (List.cons_ne_nil _ _),
    List.dropLast_cons_of_ne_nil (List.ne_nil_of_mem hlater)]
  exact List.mem_append_right _ List.mem_cons_self

/-- A sum over the requests of a run (module doc). -/
theorem sum_ownEvents {N : Type} [AddCommMonoid N] [Fintype ι] (f : Event M → N) :
    ∑ t, ((ownEvents t tr).map f).sum = (tr.map fun x => f x.2).sum := by
  induction tr using List.reverseRecOn with
  | nil => simp
  | append_singleton tr x ih =>
    obtain ⟨t, e⟩ := x
    have hother : ∑ u ∈ Finset.univ.erase t, ((ownEvents u (tr ++ [(t, e)])).map f).sum =
        ∑ u ∈ Finset.univ.erase t, ((ownEvents u tr).map f).sum := by
      refine Finset.sum_congr rfl fun u hu => ?_
      rw [ownEvents_snoc_of_ne (Finset.ne_of_mem_erase hu)]
    rw [← Finset.add_sum_erase _ _ (Finset.mem_univ t), hother, ownEvents_snoc_self,
      List.map_append, List.sum_append, add_right_comm,
      Finset.add_sum_erase _ (fun u => ((ownEvents u tr).map f).sum) (Finset.mem_univ t), ih]
    simp

end Own

namespace Prog

/-- How the program ends (module doc). -/
def Ends (Q : List (Event M) → Except M.Err α → Prop) : Prog M α → List (Event M) → Prop
  | .ret a, es => Q es (.ok a)
  | .throw e, es => Q es (.error e)
  | .op o k, es => ∀ d s, (k (M.exec o d s).1).Ends Q (es ++ [.of o d s])

namespace Ends

variable {es : List (Event M)}

theorem bind {Q : List (Event M) → Except M.Err β → Prop} {p : Prog M α} {f : α → Prog M β}
    (h : p.Ends (fun es r => match r with
      | .ok a => (f a).Ends Q es
      | .error e => Q es (.error e)) es) : (p.bind f).Ends Q es := by
  induction p generalizing es with
  | ret a => exact h
  | throw e => exact h
  | op o k ih => exact fun d s => ih _ (h d s)

theorem tryCatch {Q : List (Event M) → Except M.Err α → Prop} {p : Prog M α}
    {f : M.Err → Prog M α} (h : p.Ends (fun es r => match r with
      | .ok a => Q es (.ok a)
      | .error e => (f e).Ends Q es) es) : (p.tryCatch f).Ends Q es := by
  induction p generalizing es with
  | ret a => exact h
  | throw e => exact h
  | op o k ih => exact fun d s => ih _ (h d s)

/-- One request: its error ends the program, its answer goes to `f`. -/
theorem perform_bind {Q : List (Event M) → Except M.Err β → Prop} {o : M.Op}
    {f : M.Ans o → Prog M β}
    (h : ∀ d s r s', M.exec o d s = (r, s') → match r with
      | .ok a => (f a).Ends Q (es ++ [⟨o, d, r⟩])
      | .error e => Q (es ++ [⟨o, d, r⟩]) (.error e)) :
    ((Prog.perform o).bind f).Ends Q es := by
  intro d s
  have hr := h d s _ _ rfl
  rw [Event.of]
  cases e : (M.exec o d s).1 with
  | error er => rw [e] at hr; exact hr
  | ok a => rw [e] at hr; exact hr

/-- What is so of all requests and results. -/
theorem of_forall {Q : List (Event M) → Except M.Err α → Prop} {p : Prog M α}
    (h : ∀ es r, Q es r) : p.Ends Q es := by
  induction p generalizing es with
  | ret a => exact h _ _
  | throw e => exact h _ _
  | op o k ih => exact fun d s => ih _

/-- The last request of a program. -/
theorem perform {o : M.Op} {Q : List (Event M) → Except M.Err (M.Ans o) → Prop}
    (h : ∀ d s r s', M.exec o d s = (r, s') → Q (es ++ [⟨o, d, r⟩]) r) :
    (Prog.perform o).Ends Q es := by
  intro d s
  have hr := h d s _ _ rfl
  rw [Event.of]
  cases e : (M.exec o d s).1 with
  | error er => rw [e] at hr; exact hr
  | ok a => rw [e] at hr; exact hr

/-- What is so of the requests alone stays so when the result is used. -/
theorem map {Q : List (Event M) → Prop} {p : Prog M α} {f : α → β}
    (h : p.Ends (fun es _ => Q es) es) :
    (p.bind fun a => .ret (f a)).Ends (fun es _ => Q es) es := by
  induction p generalizing es with
  | ret a => exact h
  | throw e => exact h
  | op o k ih => exact fun d s => ih _ (h d s)

/-- A program that makes no request with `P`. -/
theorem of_asks {P : M.Op → Prop} {p : Prog M α} (hp : p.Asks fun o => ¬ P o) (hes : Free P es) :
    p.Ends (fun es _ => Free P es) es := by
  induction p generalizing es with
  | ret a => exact hes
  | throw e => exact hes
  | op o k ih => exact fun d s => ih _ (hp.2 _) (hes.snoc hp.1)

/-- One request without `P`, before which there was none with `P`. -/
theorem free_bind {P : M.Op → Prop} {Q : List (Event M) → Except M.Err β → Prop} {o : M.Op}
    {f : M.Ans o → Prog M β} (ho : ¬ P o) (hes : Free P es)
    (hok : ∀ es a, Free P es → (f a).Ends Q es) (herr : ∀ es e, Free P es → Q es (.error e)) :
    ((Prog.perform o).bind f).Ends Q es := by
  refine perform_bind fun d s r s' _ => ?_
  have hfree : Free P (es ++ [⟨o, d, r⟩]) := hes.snoc ho
  cases r with
  | ok a => exact hok _ a hfree
  | error e => exact herr _ e hfree

theorem mono {Q Q' : List (Event M) → Except M.Err α → Prop} {p : Prog M α} (h : p.Ends Q es)
    (hQ : ∀ es r, Q es r → Q' es r) : p.Ends Q' es := by
  induction p generalizing es with
  | ret a => exact hQ _ _ h
  | throw e => exact hQ _ _ h
  | op o k ih => exact fun d s => ih _ (h d s)

theorem ofExcept_bind {Q : List (Event M) → Except M.Err β → Prop} {r : Except M.Err α}
    {f : α → Prog M β} (hok : ∀ a, r = .ok a → (f a).Ends Q es)
    (herr : ∀ e, r = .error e → Q es (.error e)) : ((Prog.ofExcept r).bind f).Ends Q es := by
  cases r with
  | ok a => exact hok a rfl
  | error e => exact herr e rfl

end Ends

end Prog

namespace Conf

variable [DecidableEq ι] {allow : Allow M ι} {thr : ι → Prog M α} {c : Conf M ι α} {s : M.St}
  {Q : ι → List (Event M) → Except M.Err α → Prop}

/-- Each thread goes on from its own requests. -/
theorem Reach.ends (h : Reach allow (start s thr) c) (hp : ∀ t, (thr t).Ends (Q t) []) (t : ι) :
    (c.thr t).Ends (Q t) (ownEvents t c.trace) := by
  induction h generalizing t with
  | refl => exact hp t
  | tail _ hs ih =>
    obtain ⟨d, hop, -⟩ := hs
    rename_i u o k
    by_cases ht : t = u
    · subst ht
      have hk := ih t
      rw [hop] at hk
      simp only [next, Function.update_self, ownEvents_snoc_self]
      exact hk d _
    · simp only [next, Function.update_of_ne ht, ownEvents_snoc_of_ne ht]
      exact ih t

/-- **How a thread of a run ends** (module doc). -/
theorem Reach.ended (h : Reach allow (start s thr) c) (hp : ∀ t, (thr t).Ends (Q t) []) {t : ι}
    {r : Except M.Err α} (ht : c.thr t = .ofExcept r) : Q t (ownEvents t c.trace) r := by
  have he := h.ends hp t
  rw [ht] at he
  cases r with
  | ok a => exact he
  | error e => exact he

end Conf

end Conc
