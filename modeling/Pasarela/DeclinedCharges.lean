import Mathlib.Logic.Relation
import Pasarela.ErrorVocabulary
import Pasarela.RollingBreaker

/-!
# Declined charges and the breaker

An adapter throws for a declined card inside the function that its breaker runs, so a decline counts
as a failure of the provider.

* `Answered`: the provider answered the request, with a success or a decline that is not worth a
  retry.
* `ChargeStep`: the calls of `createCharge` of one adapter, through its breaker; a call can begin
  while others are pending.
* `Tolerated`: the steps that do not trip the breaker. `declines_tolerated_iff`: the breaker stays
  closed, and no call is refused, exactly as long as the steps are such.
-/

namespace Pasarela

/-- The provider answered (module doc). -/
def RemoteAdapter.Answered (a : RemoteAdapter) (answer : ClientResult) : Prop :=
  match a.action .createCharge answer with
  | .ok _ => True
  | .error t => ∃ code detail, t = .payment code detail ∧ (catalog code).retryable = false

/-- What the settling of the action is for the breaker. -/
def settleEvent {α : Type} : Except Thrown α → BreakerEvent
  | .ok _ => .success
  | .error _ => .failure

section Steps

variable (lib : BreakerLib) (errors : Opossum) (a : RemoteAdapter)

/-- The breaker of `createCharge`, how many calls are pending, and what the calls that have ended
returned. -/
structure ChargeState where
  breaker : lib.Breaker
  pending : Nat
  results : List (Except Thrown CallResult)

/-- What happens to it. -/
inductive ChargeEvent where
  | call
  /-- The client of a pending call answers. -/
  | settle (answer : ClientResult)
  | time

/-- The calls of `createCharge` when the provider answers every request (module doc). -/
inductive ChargeStep : ChargeEvent → ChargeState lib → ChargeState lib → Prop
  | admitted {s : ChargeState lib} {b : lib.Breaker} (hadmits : (lib.state s.breaker).Admits)
      (h : lib.On .fire s.breaker b) :
      ChargeStep .call s { s with breaker := b, pending := s.pending + 1 }
  | refused {s : ChargeState lib} {b : lib.Breaker} (hadmits : ¬ (lib.state s.breaker).Admits)
      (h : lib.On .fire s.breaker b) :
      ChargeStep .call s
        { s with
          breaker := b
          results := s.results ++ [a.call errors (lib.state s.breaker) .createCharge .timesOut] }
  | settled {s : ChargeState lib} {b : lib.Breaker} {answer : ClientResult}
      (hpending : 0 < s.pending) (hanswer : a.Answered answer)
      (h : lib.On (settleEvent (a.action .createCharge answer)) s.breaker b) :
      ChargeStep (.settle answer) s
        { breaker := b
          pending := s.pending - 1
          results := s.results ++
            [CircuitBreakerService.execute errors .closed
              (.settles (a.action .createCharge answer))] }
  | time {s : ChargeState lib} {b : lib.Breaker} (h : lib.On .time s.breaker b) :
      ChargeStep .time s { s with breaker := b }

/-- A run from a state: the events, each with the state after it. -/
inductive AnsweredRun : ChargeState lib → List (ChargeEvent × ChargeState lib) → Prop
  | nil {s : ChargeState lib} : AnsweredRun s []
  | cons {s s' : ChargeState lib} {e : ChargeEvent} {l : List (ChargeEvent × ChargeState lib)}
      (h : ChargeStep lib errors a e s s') (hl : AnsweredRun s' l) : AnsweredRun s ((e, s') :: l)

/-- The breaker that the first call of `createCharge` makes. -/
def ChargeState.start : ChargeState lib where
  breaker := lib.create
    (CircuitBreakerService.opossumOptions (a.breakerKey .createCharge) {})
  pending := 0
  results := []

variable {lib}

/-- The breaker is closed, and no call was refused. -/
structure ChargeState.Serving (s : ChargeState lib) : Prop where
  closed : lib.state s.breaker = .closed
  available : ∀ r ∈ s.results, ∀ detail, r ≠ .error (.payment .providerUnavailable detail)

/-- If the action of the call fails, there are fewer than five calls in the window, or at most half
of them have failed, with this one. -/
def Tolerated (s : ChargeState lib) : ChargeEvent → Prop
  | .settle answer => ∀ t, a.action .createCharge answer = .error t →
    lib.calls s.breaker < 5 ∨ 2 * (lib.failures s.breaker + 1) ≤ lib.calls s.breaker
  | _ => True

/-- Each step of a run is tolerated. -/
def AllTolerated : ChargeState lib → List (ChargeEvent × ChargeState lib) → Prop
  | _, [] => True
  | s, (e, s') :: l => Tolerated a s e ∧ AllTolerated s' l

end Steps

/-! ## One step -/

section OneStep

variable {lib : BreakerLib} {errors : Opossum} {a : RemoteAdapter} {s s' : ChargeState lib}
  {e : ChargeEvent}

theorem trips_default {key : String} {calls failures : Nat} :
    (CircuitBreakerService.opossumOptions key {}).Trips calls failures ↔
      5 ≤ calls ∧ calls < 2 * failures := by
  show 5 ≤ calls ∧ 50 * calls < 100 * failures ↔ _
  omega

theorem options_step (h : ChargeStep lib errors a e s s') :
    lib.options s'.breaker = lib.options s.breaker := by
  cases h with
  | admitted _ h => exact lib.options_on h
  | refused _ h => exact lib.options_on h
  | settled _ _ h => exact lib.options_on h
  | time h => exact lib.options_on h

theorem answered_ne_unavailable {answer : ClientResult} (h : a.Answered answer)
    (detail : Option Js.Json) :
    CircuitBreakerService.execute errors .closed (.settles (a.action .createCharge answer)) ≠
      .error (.payment .providerUnavailable detail) := by
  have hadmits : BreakerState.closed.Admits := trivial
  rw [CircuitBreakerService.execute_settles errors _ hadmits]
  unfold RemoteAdapter.Answered at h
  cases hact : a.action .createCharge answer with
  | ok c => exact nofun
  | error t =>
    rw [hact] at h
    obtain ⟨code, detail', rfl, hretry⟩ := h
    intro heq
    have hcode : Thrown.payment code detail' = .payment .providerUnavailable detail := by
      rw [← CircuitBreakerService.reclassify_payment code detail']
      exact Except.error.inj heq
    cases hcode
    exact absurd hretry (by decide)

/-- **One step from a closed breaker**: it keeps it closed iff it is tolerated. -/
theorem serving_step (hs : s.Serving)
    (ho : ∃ key, lib.options s.breaker = CircuitBreakerService.opossumOptions key {})
    (h : ChargeStep lib errors a e s s') : s'.Serving ↔ Tolerated a s e := by
  obtain ⟨hclosed, havail⟩ := hs
  obtain ⟨key, ho⟩ := ho
  cases h with
  | admitted hadmits h =>
    refine iff_of_true ⟨?_, havail⟩ trivial
    rw [(lib.on_fire h).1, hclosed]
    rfl
  | refused hadmits h =>
    rw [hclosed] at hadmits
    exact absurd trivial hadmits
  | time h =>
    refine iff_of_true ⟨?_, havail⟩ trivial
    rcases (lib.on_time h).1 with hsame | ⟨hopen, -⟩
    · exact hsame.trans hclosed
    · rw [hclosed] at hopen
      cases hopen
  | @settled _ b answer hpending hanswer h =>
    have hresults : ∀ r ∈ s.results ++ [CircuitBreakerService.execute errors .closed
        (.settles (a.action .createCharge answer))],
        ∀ detail, r ≠ .error (.payment .providerUnavailable detail) := by
      intro r hr detail
      rcases List.mem_append.mp hr with hr | hr
      · exact havail r hr detail
      · rw [List.mem_singleton.mp hr]
        exact answered_ne_unavailable hanswer detail
    obtain ⟨c, hact⟩ | ⟨t, hact⟩ : (∃ c, a.action .createCharge answer = .ok c) ∨
        ∃ t, a.action .createCharge answer = .error t := by
      cases a.action .createCharge answer with
      | ok c => exact .inl ⟨c, rfl⟩
      | error t => exact .inr ⟨t, rfl⟩
    · rw [hact] at h
      refine iff_of_true ⟨?_, hresults⟩ fun t ht => ?_
      · rw [(lib.on_success h).1, hclosed]
        rfl
      · rw [hact] at ht
        cases ht
    · rw [hact] at h
      -- a decline is a failure for the library, which trips on the share of them in the window
      have hstate := (lib.on_failure h).1
      simp only [ho, trips_default, hclosed, BreakerState.failed] at hstate
      constructor
      · intro hserving t' _
        have hb : lib.state b = .closed := hserving.closed
        by_contra hno
        rw [hstate, if_pos (by omega)] at hb
        cases hb
      · intro htol
        refine ⟨?_, hresults⟩
        have hle := htol t hact
        show lib.state b = .closed
        rw [hstate, if_neg (by omega)]

end OneStep

/-- **Declines trip the breaker**: in a run in which the provider answers every request, the breaker
stays closed and no call is refused, if and only if every step is tolerated. -/
theorem declines_tolerated_iff (lib : BreakerLib) (errors : Opossum) (a : RemoteAdapter)
    (l : List (ChargeEvent × ChargeState lib))
    (h : AnsweredRun lib errors a (ChargeState.start lib a) l) :
    (∀ x ∈ l, x.2.Serving) ↔ AllTolerated a (ChargeState.start lib a) l := by
  have hrun : ∀ s, s.Serving →
      (∃ key, lib.options s.breaker = CircuitBreakerService.opossumOptions key {}) →
      AnsweredRun lib errors a s l → ((∀ x ∈ l, x.2.Serving) ↔ AllTolerated a s l) := by
    clear h
    induction l with
    | nil => exact fun s _ _ _ => iff_of_true (fun _ hx => absurd hx List.not_mem_nil) trivial
    | cons x l ih =>
      intro s hs ho hrun
      cases hrun with
      | @cons _ s' e _ hstep hl =>
        rw [List.forall_mem_cons, AllTolerated, serving_step hs ho hstep]
        refine and_congr_right fun htol => ?_
        exact ih s' ((serving_step hs ho hstep).mpr htol) (by rwa [options_step hstep]) hl
  obtain ⟨hoptions, hclosed, -, -⟩ := lib.created
    (CircuitBreakerService.opossumOptions (a.breakerKey .createCharge) {})
  exact hrun _ ⟨hclosed, fun r hr => absurd hr List.not_mem_nil⟩ ⟨_, hoptions⟩ h

/-! ### Five declined cards -/

/-- What the client of Stripe throws for a declined card. -/
def cardDeclined : ClientResult :=
  .error (.error .stripeCard
    [("code", .str "card_declined"), ("message", .str "Your card was declined.")])

theorem answered_cardDeclined : RemoteAdapter.stripe.Answered cardDeclined :=
  ⟨.cardDeclined, some (.str "Your card was declined."), rfl, rfl⟩

/-- The state after a call that is admitted. -/
def ChargeState.called (s : ChargeState rolling) : ChargeState rolling :=
  { s with breaker := s.breaker.on .fire, pending := s.pending + 1 }

/-- The state after the decline of a call. -/
def ChargeState.declined (s : ChargeState rolling) : ChargeState rolling where
  breaker := s.breaker.on .failure
  pending := s.pending - 1
  results := s.results ++ [CircuitBreakerService.execute opossum .closed
    (.settles (RemoteAdapter.stripe.action .createCharge cardDeclined))]

/-- Charges that are declined, one after another. -/
def declinedCharges : Nat → ChargeState rolling → List (ChargeEvent × ChargeState rolling)
  | 0, _ => []
  | n + 1, s =>
    (.call, s.called) :: (.settle cardDeclined, s.called.declined) ::
      declinedCharges n s.called.declined

/-- A declined charge, and the charges after it. -/
theorem declinedCharges_cons {n : Nat} {s : ChargeState rolling}
    (hadmits : (rolling.state s.breaker).Admits)
    (h : AnsweredRun rolling opossum .stripe s.called.declined
      (declinedCharges n s.called.declined)) :
    AnsweredRun rolling opossum .stripe s (declinedCharges (n + 1) s) :=
  .cons (.admitted hadmits rfl) (.cons (.settled (Nat.succ_pos _) answered_cardDeclined rfl) h)

theorem declines_tolerated_once :
    (∀ x ∈ declinedCharges 1 (ChargeState.start rolling .stripe), x.2.Serving) ↔
      AllTolerated .stripe (ChargeState.start rolling .stripe)
        (declinedCharges 1 (ChargeState.start rolling .stripe)) :=
  declines_tolerated_iff rolling opossum .stripe _ (declinedCharges_cons trivial .nil)

/-- Five customers with declined cards, and the breaker is open for everybody. -/
theorem declines_trip :
    AnsweredRun rolling opossum .stripe (ChargeState.start rolling .stripe)
      (declinedCharges 5 (ChargeState.start rolling .stripe)) ∧
    ¬ ∀ x ∈ declinedCharges 5 (ChargeState.start rolling .stripe), x.2.Serving := by
  constructor
  · exact declinedCharges_cons trivial (declinedCharges_cons trivial (declinedCharges_cons trivial
      (declinedCharges_cons trivial (declinedCharges_cons trivial .nil))))
  · intro h
    have hlast := (h _ (List.mem_of_getLast? rfl)).closed
    exact absurd hlast (by decide)

end Pasarela
