import Pasarela.Breaker

/-!
# Breakers as they run

A breaker of the library counts the calls and the failures of a rolling window, opens when too many
of its calls fail, and tries one call some time later.

* `OpossumOptions`: the options with which `getOrCreate` makes a breaker. There is no `errorFilter`
  among them, so every rejection of the action is a failure.
* `BreakerLib`: what the code relies on of the library: what each event does to the state of a
  breaker and to its counts.
* `rolling`: breakers that do so, with the events of the window as a list.
-/

namespace Pasarela

structure CircuitBreakerOptions where
  timeout : Option Nat := none
  errorThreshold : Option Nat := none
  resetTimeout : Option Nat := none
  volumeThreshold : Option Nat := none
  deriving DecidableEq, Repr

/-- The options of `new CircuitBreaker` (module doc). -/
structure OpossumOptions where
  timeout : Nat
  errorThresholdPercentage : Nat
  resetTimeout : Nat
  volumeThreshold : Nat
  name : String
  deriving DecidableEq, Repr

/-- The options that `getOrCreate` gives to a new breaker. -/
def CircuitBreakerService.opossumOptions (key : String) (opts : CircuitBreakerOptions) :
    OpossumOptions where
  timeout := opts.timeout.getD 10000
  errorThresholdPercentage := opts.errorThreshold.getD 50
  resetTimeout := opts.resetTimeout.getD 30000
  volumeThreshold := opts.volumeThreshold.getD 5
  name := key

/-- Enough calls in the window, and too many of them have failed. -/
def OpossumOptions.Trips (o : OpossumOptions) (calls failures : Nat) : Prop :=
  o.volumeThreshold ≤ calls ∧ o.errorThresholdPercentage * calls < 100 * failures

instance {o : OpossumOptions} {calls failures : Nat} : Decidable (o.Trips calls failures) :=
  inferInstanceAs (Decidable (_ ∧ _))

/-- What happens to a breaker. -/
inductive BreakerEvent where
  /-- `fire` is called. -/
  | fire
  /-- The action is fulfilled in time. -/
  | success
  /-- The action is rejected, or not settled in time. -/
  | failure
  /-- Time passes. -/
  | time
  deriving DecidableEq, Repr

namespace BreakerState

/-- The state after a success: it closes a half-open breaker. -/
def succeeded : BreakerState → BreakerState
  | .halfOpen _ => .closed
  | b => b

/-- The state after a failure, which opens a half-open breaker; `trips` says that it opens a closed
one. -/
def failed (trips : Prop) [Decidable trips] : BreakerState → BreakerState
  | .halfOpen _ => .opened
  | b => if trips then .opened else b

end BreakerState

/-- The breakers of the library (module doc): `calls` and `failures` count those of the window. -/
structure BreakerLib where
  Breaker : Type
  create : OpossumOptions → Breaker
  options : Breaker → OpossumOptions
  state : Breaker → BreakerState
  calls : Breaker → Nat
  failures : Breaker → Nat
  On : BreakerEvent → Breaker → Breaker → Prop
  created (o : OpossumOptions) : options (create o) = o ∧ state (create o) = .closed ∧
    calls (create o) = 0 ∧ failures (create o) = 0
  options_on {e : BreakerEvent} {b b' : Breaker} : On e b b' → options b' = options b
  on_fire {b b' : Breaker} : On .fire b b' →
    state b' = (state b).fired ∧ calls b' = calls b + 1 ∧ failures b' = failures b
  on_success {b b' : Breaker} : On .success b b' →
    state b' = (state b).succeeded ∧ calls b' = calls b ∧ failures b' = failures b
  on_failure {b b' : Breaker} : On .failure b b' →
    state b' = (state b).failed ((options b).Trips (calls b) (failures b + 1)) ∧
      calls b' = calls b ∧ failures b' = failures b + 1
  /-- What is old leaves the window, and an open breaker gets half-open. -/
  on_time {b b' : Breaker} : On .time b b' →
    (state b' = state b ∨ state b = .opened ∧ state b' = .halfOpen true) ∧
      calls b' ≤ calls b ∧ failures b' ≤ failures b

/-! ## Breakers with a list -/

/-- A breaker with the events of its window. -/
structure RollingBreaker where
  options : OpossumOptions
  state : BreakerState
  window : List BreakerEvent
  deriving DecidableEq, Repr

namespace RollingBreaker

/-- The events of one kind in the window. -/
def count (b : RollingBreaker) (e : BreakerEvent) : Nat := b.window.count e

/-- What an event other than time does. -/
def on (e : BreakerEvent) (b : RollingBreaker) : RollingBreaker where
  options := b.options
  window := b.window ++ [e]
  state :=
    match e with
    | .fire => b.state.fired
    | .success => b.state.succeeded
    | .failure => b.state.failed (b.options.Trips (b.count .fire) (b.count .failure + 1))
    | .time => b.state

/-- The events, in which time drops the oldest of the window. -/
def On : BreakerEvent → RollingBreaker → RollingBreaker → Prop
  | .time, b, b' => b'.options = b.options ∧ b'.window.Sublist b.window ∧
    (b'.state = b.state ∨ b.state = .opened ∧ b'.state = .halfOpen true)
  | e, b, b' => b' = b.on e

theorem count_on (e f : BreakerEvent) (b : RollingBreaker) :
    (b.on e).count f = b.count f + if e = f then 1 else 0 := by
  simp only [count, on, List.count_append, List.count_singleton, beq_iff_eq]

end RollingBreaker

/-- Those breakers, as a library. -/
def rolling : BreakerLib where
  Breaker := RollingBreaker
  create o := ⟨o, .closed, []⟩
  options := RollingBreaker.options
  state := RollingBreaker.state
  calls b := b.count .fire
  failures b := b.count .failure
  On := RollingBreaker.On
  created o := ⟨rfl, rfl, rfl, rfl⟩
  options_on {e b b'} h := by
    cases e with
    | time => exact h.1
    | _ => cases h; rfl
  on_fire {b b'} h := by
    cases h
    exact ⟨rfl, b.count_on .fire .fire, b.count_on .fire .failure⟩
  on_success {b b'} h := by
    cases h
    exact ⟨rfl, b.count_on .success .fire, b.count_on .success .failure⟩
  on_failure {b b'} h := by
    cases h
    exact ⟨rfl, b.count_on .failure .fire, b.count_on .failure .failure⟩
  on_time {b b'} h := ⟨h.2.2, h.2.1.count_le _, h.2.1.count_le _⟩

end Pasarela
