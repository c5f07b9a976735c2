import Pasarela.Conc.Pool

/-!
# The run of some threads without the others

A run of all the threads is compared with a run of some of them alone, from a state that these do
not tell from the first. A thread that is compared makes each request in two states. They are not
the two runs of `Coupled`, which nobody else takes part in: between two requests of a thread the
other threads make theirs.

* `Rebased C Q p g`: as `Coupled`, with a coupling `C s₁ s₂` for the two states that a request
  meets, so that it may speak of what the request changes.
* `Projection`: which threads the second run has, the requests of the first run, a coupling of each
  thread with itself, and the relation between the two runs. `Projection.Sound` asks of a request
  of an own thread that it keeps the relation, made in both states, and of a request of another
  one that it keeps the relation, made in the first state alone.
* `Projection.project`: then each run has a run of its own threads alone, which makes the requests
  that these made, with the same answers, and leaves them in the same programs.
-/

namespace Conc

variable {M : Machine} {ι α β γ : Type}

/-- Each request, in states that the coupling of these states relates, has the same answer in both
and leaves them related; the program ends with `Q` (module doc). -/
def Rebased (C : M.St → M.St → Coupling M γ) (Q : Except M.Err α → γ → Prop) :
    Prog M α → γ → Prop
  | .ret a, g => Q (.ok a) g
  | .throw e, g => Q (.error e) g
  | .op o k, g => ∀ d s₁ s₂, (C s₁ s₂).allow o d → (C s₁ s₂).rel g s₁ s₂ →
      (M.exec o d s₁).1 = (M.exec o d s₂).1 ∧
      ∃ g', (C s₁ s₂).rel g' (M.exec o d s₁).2 (M.exec o d s₂).2 ∧
        Rebased C Q (k (M.exec o d s₁).1) g'

namespace Rebased

variable {C : M.St → M.St → Coupling M γ}

theorem bind {Q : Except M.Err β → γ → Prop} {p : Prog M α} {f : α → Prog M β} {g : γ}
    (h : Rebased C (fun r g' => match r with
      | .ok a => Rebased C Q (f a) g'
      | .error e => Q (.error e) g') p g) : Rebased C Q (p.bind f) g := by
  induction p generalizing g with
  | ret a => exact h
  | throw e => exact h
  | op o k ih =>
    intro d s₁ s₂ hd hs
    obtain ⟨ha, g', hs', hk⟩ := h d s₁ s₂ hd hs
    exact ⟨ha, g', hs', ih _ hk⟩

theorem tryCatch {Q : Except M.Err α → γ → Prop} {p : Prog M α} {f : M.Err → Prog M α} {g : γ}
    (h : Rebased C (fun r g' => match r with
      | .ok a => Q (.ok a) g'
      | .error e => Rebased C Q (f e) g') p g) : Rebased C Q (p.tryCatch f) g := by
  induction p generalizing g with
  | ret a => exact h
  | throw e => exact h
  | op o k ih =>
    intro d s₁ s₂ hd hs
    obtain ⟨ha, g', hs', hk⟩ := h d s₁ s₂ hd hs
    exact ⟨ha, g', hs', ih _ hk⟩

theorem mono {Q Q' : Except M.Err α → γ → Prop} {p : Prog M α} {g : γ} (h : Rebased C Q p g)
    (hQ : ∀ r g, Q r g → Q' r g) : Rebased C Q' p g := by
  induction p generalizing g with
  | ret a => exact hQ _ _ h
  | throw e => exact hQ _ _ h
  | op o k ih =>
    intro d s₁ s₂ hd hs
    obtain ⟨ha, g', hs', hk⟩ := h d s₁ s₂ hd hs
    exact ⟨ha, g', hs', ih _ hk⟩

/-- A value that was computed goes to `f`; an error ends the program. -/
theorem ofExcept_bind {Q : Except M.Err β → γ → Prop} {r : Except M.Err α} {f : α → Prog M β}
    {g : γ} (hok : ∀ a, r = .ok a → Rebased C Q (f a) g)
    (herr : ∀ e, r = .error e → Q (.error e) g) : Rebased C Q ((Prog.ofExcept r).bind f) g := by
  cases r with
  | ok a => exact hok a rfl
  | error e => exact herr e rfl

/-- A request that is coupled, wherever the coupling is taken. -/
theorem perform {o : M.Op} {Q : Except M.Err (M.Ans o) → γ → Prop} {g : γ}
    (h : ∀ w₁ w₂, Coupled (C w₁ w₂) Q (Prog.perform o) g) : Rebased C Q (Prog.perform o) g := by
  intro d s₁ s₂ hd hs
  obtain ⟨ha, g', hg, hk⟩ := h s₁ s₂ d s₁ s₂ hd hs
  refine ⟨ha, g', hg, ?_⟩
  cases e : (M.exec o d s₁).1 with
  | ok a => rw [e] at hk; exact hk
  | error er => rw [e] at hk; exact hk

/-- A program that ends with `P`, and then another: an error ends both. -/
theorem seq {P : Except M.Err α → γ → Prop} {Q : Except M.Err β → γ → Prop} {p : Prog M α}
    {f : α → Prog M β} {g : γ} (hp : Rebased C P p g)
    (hok : ∀ a g', P (.ok a) g' → Rebased C Q (f a) g')
    (herr : ∀ e g', P (.error e) g' → Q (.error e) g') : Rebased C Q (p.bind f) g := by
  refine bind (hp.mono fun r g' hr => ?_)
  cases r with
  | ok a => exact hok a g' hr
  | error e => exact herr e g' hr

/-- A program that ends with `P`, and the handler of its errors. -/
theorem handle {P Q : Except M.Err α → γ → Prop} {p : Prog M α} {f : M.Err → Prog M α} {g : γ}
    (hp : Rebased C P p g) (hok : ∀ a g', P (.ok a) g' → Q (.ok a) g')
    (herr : ∀ e g', P (.error e) g' → Rebased C Q (f e) g') : Rebased C Q (p.tryCatch f) g := by
  refine tryCatch (hp.mono fun r g' hr => ?_)
  cases r with
  | ok a => exact hok a g' hr
  | error e => exact herr e g' hr

end Rebased

/-- A run, and a run of its own threads alone (module doc). -/
structure Projection (M : Machine) (ι γ : Type) where
  own : ι → Prop
  allow : Allow M ι
  pair : ι → M.St → M.St → Coupling M γ
  inv : (ι → γ) → M.St → M.St → Prop

namespace Projection

variable [DecidableEq ι]

/-- Each request keeps the relation between the two runs (module doc). -/
structure Sound (P : Projection M ι γ) : Prop where
  own : ∀ {t G s₁ s₂ o d}, P.own t → P.inv G s₁ s₂ → P.allow t o d s₁ →
    (P.pair t s₁ s₂).allow o d ∧ (P.pair t s₁ s₂).rel (G t) s₁ s₂ ∧
    ∀ g, (P.pair t s₁ s₂).rel g (M.exec o d s₁).2 (M.exec o d s₂).2 →
      P.inv (Function.update G t g) (M.exec o d s₁).2 (M.exec o d s₂).2
  other : ∀ {t G s₁ s₂ o d}, ¬ P.own t → P.inv G s₁ s₂ → P.allow t o d s₁ →
    (P.pair t s₁ s₁).allow o d ∧ (P.pair t s₁ s₁).rel (G t) s₁ s₁ ∧
    ∀ g, (P.pair t s₁ s₁).rel g (M.exec o d s₁).2 (M.exec o d s₁).2 →
      P.inv (Function.update G t g) (M.exec o d s₁).2 s₂

/-- The two runs so far: the second one has made the requests of the own threads, with the answers
that these got, and each thread can go on. -/
structure Follows (P : Projection M ι γ) [DecidablePred P.own] (c c' : Conf M ι α) : Prop where
  trace : c'.trace = c.trace.filter fun x => P.own x.1
  thr : ∀ t, P.own t → c'.thr t = c.thr t
  inv : ∃ G, P.inv G c.st c'.st ∧ ∀ t, Rebased (P.pair t) (fun _ _ => True) (c.thr t) (G t)

variable {P : Projection M ι γ} [DecidablePred P.own] {c c' : Conf M ι α} {t : ι} {o : M.Op}
  {k : Except M.Err (M.Ans o) → Prog M α} {d : M.Dec}

/-- A request of an own thread is made in both runs. -/
theorem Follows.own (h : P.Follows c c') (hP : P.Sound) (ht : c.thr t = .op o k)
    (ha : P.allow t o d c.st) (hown : P.own t) :
    c'.thr t = .op o k ∧ P.Follows (c.next t o k d) (c'.next t o k d) := by
  refine ⟨(h.thr t hown).trans ht, ?_⟩
  obtain ⟨G, hi, hthr⟩ := h.inv
  obtain ⟨hd, hrel, hnext⟩ := hP.own hown hi ha
  have hreb := hthr t
  rw [ht] at hreb
  obtain ⟨hans, g, hg, hk⟩ := hreb d c.st c'.st hd hrel
  have hev : (Event.of o d c'.st : Event M) = .of o d c.st := by rw [Event.of, Event.of, hans]
  constructor
  · simp only [Conf.next, List.filter_append, h.trace, hev]
    simp [hown]
  · intro u hu
    by_cases hut : u = t
    · subst hut
      simp [Conf.next, hans]
    · simpa [Conf.next, Function.update_of_ne hut] using h.thr u hu
  · refine ⟨Function.update G t g, hnext g hg, fun u => ?_⟩
    by_cases hut : u = t
    · subst hut
      simpa [Conf.next] using hk
    · simpa [Conf.next, Function.update_of_ne hut] using hthr u

/-- A request of another thread is made in the first run alone. -/
theorem Follows.other (h : P.Follows c c') (hP : P.Sound) (ht : c.thr t = .op o k)
    (ha : P.allow t o d c.st) (hown : ¬ P.own t) : P.Follows (c.next t o k d) c' := by
  obtain ⟨G, hi, hthr⟩ := h.inv
  obtain ⟨hd, hrel, hnext⟩ := hP.other hown hi ha
  have hreb := hthr t
  rw [ht] at hreb
  obtain ⟨-, g, hg, hk⟩ := hreb d c.st c.st hd hrel
  constructor
  · simp only [Conf.next, List.filter_append, h.trace]
    simp [hown]
  · intro u hu
    have hut : u ≠ t := fun he => hown (he ▸ hu)
    simpa [Conf.next, Function.update_of_ne hut] using h.thr u hu
  · refine ⟨Function.update G t g, hnext g hg, fun u => ?_⟩
    by_cases hut : u = t
    · subst hut
      simpa [Conf.next] using hk
    · simpa [Conf.next, Function.update_of_ne hut] using hthr u

/-- **Each run has a run of its own threads alone.** -/
theorem project (hP : P.Sound) {s₁ s₂ : M.St} {thr : ι → Prog M α} {G : ι → γ}
    (h₀ : P.inv G s₁ s₂) (hthr : ∀ t, Rebased (P.pair t) (fun _ _ => True) (thr t) (G t))
    (hr : Conf.Reach P.allow (.start s₁ thr) c) :
    ∃ c', Conf.Reach (fun t _ _ _ => P.own t) (.start s₂ thr) c' ∧ P.Follows c c' := by
  induction hr with
  | refl => exact ⟨_, .refl, rfl, fun _ _ => rfl, G, h₀, hthr⟩
  | tail _ hs ih =>
    obtain ⟨c', hr', hf⟩ := ih
    obtain ⟨d, ht, ha⟩ := hs
    rename_i t o k
    by_cases hown : P.own t
    · obtain ⟨ht', hf'⟩ := hf.own hP ht ha hown
      exact ⟨_, hr'.tail (.mk d ht' hown), hf'⟩
    · exact ⟨c', hr', hf.other hP ht ha hown⟩

end Projection

end Conc
