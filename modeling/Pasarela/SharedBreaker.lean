import Mathlib.Data.List.Nodup
import Pasarela.Conc.EventLoop
import Pasarela.ErrorVocabulary

/-!
# A breaker that many calls share (`providers/circuit-breaker.service.ts`)

The calls of `execute` with one key share a breaker, and each of them puts its own function into it
before it fires it. `execute` gives up control at its only `await`, after `fire` has called the
function.

* `Calls`: the calls of `execute`, with the keys and the functions that they were given, and what
  the promises of the functions come to. `BreakerHeap`: what the calls share. It keeps each `fire`,
  with the state of the breaker and the function that was called, if one was.
* `ExecutePlace`, `ExecuteStep`: `execute` and `getOrCreate`, statement by statement.
* `serviceLoop`: any number of calls on the event loop. What the breakers make of their own state
  between the calls is left open.
* `RunsOwn`: each call fires once, which calls its own function if the breaker admits the call and
  nothing if not, and the call gets the outcome of that (`shared_breaker_runs_own`).
-/

namespace Pasarela

open Conc (EventLoop)

/-- A breaker of the library, with the function that it calls. -/
structure BreakerObject (F : Type) where
  action : F
  state : BreakerState

/-- A `fire`: the call that made it, the state of the breaker then, and the function that the
breaker called. -/
structure Fire (ι F : Type) where
  call : ι
  state : BreakerState
  called : Option F

/-- What the calls share: the breakers, the map of the service, and the fires so far. -/
structure BreakerHeap (ι F : Type) where
  objects : List (BreakerObject F)
  breakers : String → Option Nat
  fires : List (Fire ι F)

/-- The calls of `execute` (module doc). -/
structure Calls (ι F α : Type) where
  key : ι → String
  fn : ι → F
  result : F → Except Thrown α

inductive ExecutePlace (F α : Type) where
  | notCalled
  /-- Before `this.breakers.has(key)`. -/
  | called
  /-- Before `this.breakers.get(key)!`. -/
  | found
  /-- Before `existing.action = fn`. -/
  | existing (a : Nat)
  /-- Before `new CircuitBreaker(fn, ..)`. -/
  | missing
  /-- Before `this.breakers.set(key, breaker)`. -/
  | created (a : Nat)
  /-- Before `breaker.fire()`. -/
  | firing (a : Nat)
  /-- It awaits the promise of a breaker in the state `b`, which has called `g`. -/
  | awaiting (b : BreakerState) (g : F)
  /-- It awaits the promise of a breaker in the state `b`, which has called nothing. -/
  | refused (b : BreakerState)
  | ended (r : Except Thrown α)

/-- The call has not begun, or awaits, or has ended. -/
def ExecutePlace.waits {F α : Type} : ExecutePlace F α → Bool
  | .notCalled => true
  | .awaiting _ _ => true
  | .refused _ => true
  | .ended _ => true
  | _ => false

namespace CircuitBreakerService

variable {ι F α : Type}

section Steps

variable (lib : Opossum) (calls : Calls ι F α)

/-- The statements of `execute` for the call `i` (module doc). -/
inductive ExecuteStep (i : ι) :
    ExecutePlace F α → BreakerHeap ι F → ExecutePlace F α → BreakerHeap ι F → Prop
  | call {s : BreakerHeap ι F} : ExecuteStep i .notCalled s .called s
  | has {s : BreakerHeap ι F} {a : Nat} (h : s.breakers (calls.key i) = some a) :
      ExecuteStep i .called s .found s
  | hasNot {s : BreakerHeap ι F} (h : s.breakers (calls.key i) = none) :
      ExecuteStep i .called s .missing s
  | get {s : BreakerHeap ι F} {a : Nat} (h : s.breakers (calls.key i) = some a) :
      ExecuteStep i .found s (.existing a) s
  | getUndefined {s : BreakerHeap ι F} (h : s.breakers (calls.key i) = none) :
      ExecuteStep i .found s (.ended (.error (.raw .typeError))) s
  | assign {s : BreakerHeap ι F} {a : Nat} {o : BreakerObject F} (h : s.objects[a]? = some o) :
      ExecuteStep i (.existing a) s (.firing a)
        { s with objects := s.objects.set a { o with action := calls.fn i } }
  | create {s : BreakerHeap ι F} :
      ExecuteStep i .missing s (.created s.objects.length)
        { s with objects := s.objects ++ [⟨calls.fn i, .closed⟩] }
  | set {s : BreakerHeap ι F} {a : Nat} :
      ExecuteStep i (.created a) s (.firing a)
        { s with breakers := Function.update s.breakers (calls.key i) (some a) }
  | fire {s : BreakerHeap ι F} {a : Nat} {o : BreakerObject F} (h : s.objects[a]? = some o)
      (hadmits : o.state.Admits) :
      ExecuteStep i (.firing a) s (.awaiting o.state o.action)
        { s with
          objects := s.objects.set a { o with state := o.state.fired }
          fires := s.fires ++ [⟨i, o.state, some o.action⟩] }
  | fireOpen {s : BreakerHeap ι F} {a : Nat} {o : BreakerObject F} (h : s.objects[a]? = some o)
      (hadmits : ¬ o.state.Admits) :
      ExecuteStep i (.firing a) s (.refused o.state)
        { s with fires := s.fires ++ [⟨i, o.state, none⟩] }
  | settle {s : BreakerHeap ι F} {b : BreakerState} {g : F} :
      ExecuteStep i (.awaiting b g) s (.ended (execute lib b (.settles (calls.result g)))) s
  | timeOut {s : BreakerHeap ι F} {b : BreakerState} {g : F} :
      ExecuteStep i (.awaiting b g) s (.ended (execute lib b .timesOut)) s
  | refuse {s : BreakerHeap ι F} {b : BreakerState} :
      ExecuteStep i (.refused b) s (.ended (execute lib b .timesOut)) s

/-- A breaker changes its state by itself, as its calls settle and its timers run. -/
def BreakerTurn (s s' : BreakerHeap ι F) : Prop :=
  ∃ a o b, s.objects[a]? = some o ∧
    s' = { s with objects := s.objects.set a { o with state := b } }

/-- The calls on the event loop (module doc). -/
def serviceLoop : EventLoop ι where
  Shared := BreakerHeap ι F
  Local := ExecutePlace F α
  waits := ExecutePlace.waits
  step := ExecuteStep lib calls
  env := BreakerTurn

/-- No call has begun, and the service has no breaker yet. -/
def noCalls : (serviceLoop lib calls).Conf where
  shared := ⟨[], fun _ => none, []⟩
  task _ := .notCalled
  running := none

/-- What the function of the call comes to, as `execute` passes it on. -/
def ownResult (i : ι) : Except Thrown α := (calls.result (calls.fn i)).mapError reclassify

/-- What a call may come to: if its breaker admitted it, it called its own function and has the
outcome of it or a timeout; if not, it called nothing and was refused. -/
def OwnOutcome (i : ι) (fires : List (Fire ι F)) (r : Except Thrown α) : Prop :=
  (∃ b : BreakerState, b.Admits ∧ ⟨i, b, some (calls.fn i)⟩ ∈ fires ∧
      (r = ownResult calls i ∨ r = .error (.raw lib.timeout))) ∨
    ∃ b : BreakerState, ¬ b.Admits ∧ ⟨i, b, none⟩ ∈ fires ∧
      r = .error (.payment .providerUnavailable none)

/-- The fire called the function of its call exactly if the breaker admitted the call. -/
def CallsOwn (x : Fire ι F) : Prop :=
  x.called = if x.state.Admits then some (calls.fn x.call) else none

/-- The map of the service has breakers, and each call has fired once, for its own function. -/
structure HeapValid (s : BreakerHeap ι F) : Prop where
  object : ∀ k a, s.breakers k = some a → a < s.objects.length
  own : ∀ x ∈ s.fires, CallsOwn calls x
  once : (s.fires.map (·.call)).Nodup

/-- What holds of the call `i` at each place. From the test of the map to `fire` it relies on what no
other call can have changed. -/
def PlaceInv (i : ι) : ExecutePlace F α → BreakerHeap ι F → Prop
  | .notCalled, s => i ∉ s.fires.map (·.call)
  | .called, s => i ∉ s.fires.map (·.call)
  | .found, s => i ∉ s.fires.map (·.call) ∧ (s.breakers (calls.key i)).isSome
  | .existing a, s => i ∉ s.fires.map (·.call) ∧ a < s.objects.length
  | .missing, s => i ∉ s.fires.map (·.call)
  | .created a, s => i ∉ s.fires.map (·.call) ∧ s.objects[a]?.map (·.action) = some (calls.fn i)
  | .firing a, s => i ∉ s.fires.map (·.call) ∧ s.objects[a]?.map (·.action) = some (calls.fn i)
  | .awaiting b g, s => g = calls.fn i ∧ b.Admits ∧ ⟨i, b, some (calls.fn i)⟩ ∈ s.fires
  | .refused b, s => ¬ b.Admits ∧ ⟨i, b, none⟩ ∈ s.fires
  | .ended r, s => OwnOutcome lib calls i s.fires r

/-- Both, for the call `i` (`reach_callInv`). -/
def CallInv (i : ι) (l : ExecutePlace F α) (s : BreakerHeap ι F) : Prop :=
  HeapValid calls s ∧ PlaceInv lib calls i l s

end Steps

section Invariant

variable {lib : Opossum} {calls : Calls ι F α} {i j : ι} {l l' m : ExecutePlace F α}
  {s s' : BreakerHeap ι F}

theorem OwnOutcome.mono {fires fires' : List (Fire ι F)} {r : Except Thrown α}
    (h : OwnOutcome lib calls i fires r) (hsub : fires ⊆ fires') :
    OwnOutcome lib calls i fires' r := by
  rcases h with ⟨b, hadmits, hx, hr⟩ | ⟨b, hadmits, hx, hr⟩
  · exact .inl ⟨b, hadmits, hsub hx, hr⟩
  · exact .inr ⟨b, hadmits, hsub hx, hr⟩

/-- A value comes from the function of the call. -/
theorem OwnOutcome.value {fires : List (Fire ι F)} {v : α}
    (h : OwnOutcome lib calls i fires (.ok v)) : calls.result (calls.fn i) = .ok v := by
  rcases h with ⟨-, -, -, hr | hr⟩ | ⟨-, -, -, hr⟩
  · rw [ownResult] at hr
    cases hres : calls.result (calls.fn i) with
    | ok w =>
      rw [hres] at hr
      exact hr.symm
    | error e =>
      rw [hres] at hr
      cases hr
  · cases hr
  · cases hr

theorem lt_of_action {a : Nat} {f : F} (h : s.objects[a]?.map (·.action) = some f) :
    a < s.objects.length := by
  obtain ⟨o, ho, -⟩ := Option.map_eq_some_iff.mp h
  exact (List.getElem?_eq_some_iff.mp ho).1

/-- The object that is fired has the action of the call. -/
theorem action_eq {a : Nat} {o : BreakerObject F} (h : s.objects[a]? = some o)
    (ha : s.objects[a]?.map (·.action) = some (calls.fn i)) : o.action = calls.fn i := by
  rw [h] at ha
  exact Option.some.inj ha

/-- A fire of a call that has not fired yet keeps the fires as they are to be. -/
theorem HeapValid.fire {x : Fire ι F} {objects : List (BreakerObject F)} (hv : HeapValid calls s)
    (hlen : objects.length = s.objects.length) (hx : CallsOwn calls x)
    (hnot : x.call ∉ s.fires.map (·.call)) :
    HeapValid calls { s with objects := objects, fires := s.fires ++ [x] } := by
  refine ⟨fun k a hk => by rw [hlen]; exact hv.object k a hk, ?_, ?_⟩
  · intro y hy
    rcases List.mem_append.mp hy with hy | hy
    · exact hv.own y hy
    · rw [List.mem_singleton.mp hy]
      exact hx
  · rw [List.map_append, List.nodup_append]
    refine ⟨hv.once, List.nodup_singleton _, ?_⟩
    intro y hy z hz hyz
    rw [hyz.trans (List.mem_singleton.mp hz)] at hy
    exact hnot hy

theorem heapValid_step (h : CallInv lib calls i l s) (hs : ExecuteStep lib calls i l s l' s') :
    HeapValid calls s' := by
  obtain ⟨hv, hp⟩ := h
  cases hs with
  | assign ho => exact ⟨fun k a hk => by simpa using hv.object k a hk, hv.own, hv.once⟩
  | create =>
    refine ⟨fun k a hk => ?_, hv.own, hv.once⟩
    have hlt := hv.object k a hk
    rw [List.length_append]
    exact Nat.lt_add_right _ hlt
  | @set _ a =>
    refine ⟨fun k a' hk => ?_, hv.own, hv.once⟩
    by_cases hkey : k = calls.key i
    · rw [hkey] at hk
      have ha : Function.update s.breakers (calls.key i) (some a) (calls.key i) = some a' := hk
      rw [Function.update_self] at ha
      rw [← Option.some.inj ha]
      exact lt_of_action hp.2
    · exact hv.object k a' ((Function.update_of_ne hkey ..).symm.trans hk)
  | @fire _ a o ho hadmits =>
    -- no other call ran since this one put its function into the breaker
    have hact := action_eq ho hp.2
    exact hv.fire List.length_set (by rw [CallsOwn, if_pos hadmits, hact]) hp.1
  | fireOpen ho hadmits => exact hv.fire rfl (if_neg hadmits).symm hp.1
  | _ => exact hv

theorem placeInv_step (h : CallInv lib calls i l s) (hs : ExecuteStep lib calls i l s l' s') :
    PlaceInv lib calls i l' s' := by
  obtain ⟨hv, hp⟩ := h
  cases hs with
  | call => exact hp
  | has h => exact ⟨hp, by rw [h]; rfl⟩
  | hasNot h => exact hp
  | get h => exact ⟨hp.1, hv.object _ _ h⟩
  | getUndefined h =>
    have hsome := hp.2
    rw [h] at hsome
    cases hsome
  | @assign _ a o ho =>
    refine ⟨hp.1, ?_⟩
    show (s.objects.set a _)[a]?.map _ = _
    rw [List.getElem?_set_self hp.2]
    rfl
  | create =>
    refine ⟨hp, ?_⟩
    show (s.objects ++ [_])[s.objects.length]?.map _ = _
    rw [List.getElem?_append_right le_rfl, Nat.sub_self]
    rfl
  | set => exact hp
  | @fire _ a o ho hadmits =>
    have hact := action_eq ho hp.2
    refine ⟨hact, hadmits, List.mem_append_right _ ?_⟩
    rw [← hact]
    exact List.mem_singleton_self _
  | fireOpen _ hadmits => exact ⟨hadmits, List.mem_append_right _ (List.mem_singleton_self _)⟩
  | settle =>
    obtain ⟨rfl, hadmits, hmem⟩ := hp
    rw [PlaceInv, execute_settles lib _ hadmits]
    exact .inl ⟨_, hadmits, hmem, .inl rfl⟩
  | timeOut =>
    obtain ⟨-, hadmits, hmem⟩ := hp
    rw [PlaceInv, execute_timesOut lib hadmits]
    exact .inl ⟨_, hadmits, hmem, .inr rfl⟩
  | refuse =>
    obtain ⟨hadmits, hmem⟩ := hp
    rw [PlaceInv, execute_of_not_admits lib _ hadmits]
    exact .inr ⟨_, hadmits, hmem, rfl⟩

theorem fires_step (hs : ExecuteStep lib calls i l s l' s') :
    s'.fires = s.fires ∨ ∃ x, x.call = i ∧ s'.fires = s.fires ++ [x] := by
  cases hs with
  | fire => exact .inr ⟨_, rfl, rfl⟩
  | fireOpen => exact .inr ⟨_, rfl, rfl⟩
  | _ => exact .inl rfl

theorem placeInv_of_waits (hm : m.waits = true) (hp : PlaceInv lib calls j m s)
    (hsub : s.fires ⊆ s'.fires)
    (hown : j ∉ s.fires.map (·.call) → j ∉ s'.fires.map (·.call)) : PlaceInv lib calls j m s' := by
  cases m with
  | notCalled => exact hown hp
  | awaiting b g => exact ⟨hp.1, hp.2.1, hsub hp.2.2⟩
  | refused b => exact ⟨hp.1, hsub hp.2⟩
  | ended r => exact hp.mono hsub
  | _ => cases hm

variable [DecidableEq ι]

/-- **The invariant of the calls**, in every interleaving. -/
theorem reach_callInv {c : (serviceLoop lib calls).Conf}
    (h : EventLoop.Reach (noCalls lib calls) c) :
    ∀ i, CallInv lib calls i (c.task i) c.shared := by
  refine EventLoop.Reach.each (J := CallInv lib calls) ⟨rfl, fun _ => rfl⟩ h ?_ ?_ ?_ ?_
  · intro i
    have hnone : (noCalls lib calls).shared.fires = [] := rfl
    refine ⟨⟨fun k a hk => (nomatch hk), ?_, List.nodup_nil⟩, ?_⟩
    · rw [hnone]
      exact fun x hx => absurd hx List.not_mem_nil
    · show i ∉ List.map _ (noCalls lib calls).shared.fires
      rw [hnone]
      exact List.not_mem_nil
  · intro i l s l' s' hJ hs
    exact ⟨heapValid_step hJ hs, placeInv_step hJ hs⟩
  · intro i j m l s l' s' hij hm hJ hJm hs
    refine ⟨heapValid_step hJ hs, placeInv_of_waits hm hJm.2 ?_ ?_⟩
    · rcases fires_step hs with h | ⟨x, -, h⟩
      · rw [h]
        exact fun _ hx => hx
      · rw [h]
        exact List.subset_append_left _ _
    · intro hj
      rcases fires_step hs with h | ⟨x, hx, h⟩
      · rwa [h]
      · rw [h, List.map_append, List.mem_append, not_or]
        exact ⟨hj, by simpa [hx] using hij⟩
  · rintro j m s s' hm ⟨hv, hp⟩ ⟨a, o, b, ho, rfl⟩
    exact ⟨⟨fun k a' hk => by simpa using hv.object k a' hk, hv.own, hv.once⟩,
      placeInv_of_waits hm hp (fun _ hx => hx) fun hj => hj⟩

end Invariant

/-! ## The calls settle -/

/-- How many statements are left before the call gives up control. -/
def statementsLeft : ExecutePlace F α → Nat
  | .called => 4
  | .found => 3
  | .missing => 3
  | .existing _ => 2
  | .created _ => 2
  | .firing _ => 1
  | _ => 0

section Settles

variable {lib : Opossum} {calls : Calls ι F α}

variable (lib calls) in
/-- A call that has begun. -/
def Begun (i : ι) (l : ExecutePlace F α) (s : BreakerHeap ι F) : Prop :=
  CallInv lib calls i l s ∧ l ≠ .notCalled

/-- The statements before the `await` do not get stuck. -/
theorem step_of_running {i : ι} {l : ExecutePlace F α} {s : BreakerHeap ι F}
    (hw : l.waits = false) (h : Begun lib calls i l s) :
    ∃ l' s', ExecuteStep lib calls i l s l' s' ∧ statementsLeft l' < statementsLeft l ∧
      Begun lib calls i l' s' := by
  obtain ⟨l', s', hs, hlt, hne⟩ : ∃ l' s', ExecuteStep lib calls i l s l' s' ∧
      statementsLeft l' < statementsLeft l ∧ l' ≠ .notCalled := by
    obtain ⟨⟨-, hp⟩, hne⟩ := h
    cases l with
    | called =>
      cases hk : s.breakers (calls.key i) with
      | none => exact ⟨_, _, .hasNot hk, by simp [statementsLeft], nofun⟩
      | some a => exact ⟨_, _, .has hk, by simp [statementsLeft], nofun⟩
    | found =>
      obtain ⟨a, ha⟩ := Option.isSome_iff_exists.mp hp.2
      exact ⟨_, _, .get ha, by simp [statementsLeft], nofun⟩
    | existing a => exact ⟨_, _, .assign (List.getElem?_eq_getElem hp.2), by simp [statementsLeft], nofun⟩
    | missing => exact ⟨_, _, .create, by simp [statementsLeft], nofun⟩
    | created a => exact ⟨_, _, .set, by simp [statementsLeft], nofun⟩
    | firing a =>
      obtain ⟨o, ho, -⟩ := Option.map_eq_some_iff.mp hp.2
      by_cases hadmits : o.state.Admits
      · exact ⟨_, _, .fire ho hadmits, by simp [statementsLeft], nofun⟩
      · exact ⟨_, _, .fireOpen ho hadmits, by simp [statementsLeft], nofun⟩
    | notCalled => exact absurd rfl hne
    | _ => cases hw
  exact ⟨l', s', hs, hlt, ⟨heapValid_step h.1 hs, placeInv_step h.1 hs⟩, hne⟩

variable [DecidableEq ι] {c : (serviceLoop lib calls).Conf}

/-- **Every call that has begun gets to its `await`**, and one that is there stays as it is. -/
theorem reach_waits (h : EventLoop.Reach (noCalls lib calls) c) : ∃ c', EventLoop.Reach c c' ∧
    c'.running = none ∧ ∀ i, c.task i ≠ .notCalled → (c'.task i).waits = true ∧
      c'.task i ≠ .notCalled ∧ ((c.task i).waits = true → c'.task i = c.task i) := by
  have hone : c.OneRuns := EventLoop.Reach.running_iff ⟨rfl, fun _ => rfl⟩ h
  cases hrun : c.running with
  | none => exact ⟨c, .refl, hrun, fun i hne => ⟨hone.waits_of_idle hrun i, hne, fun _ => rfl⟩⟩
  | some j =>
    have hwj : (c.task j).waits = false := (hone j).mpr hrun
    have hj : c.task j ≠ .notCalled := by
      intro hj
      rw [hj] at hwj
      cases hwj
    obtain ⟨c', hreach, hnone, hwait, hbegun, hsame⟩ := EventLoop.Reach.idle
      (J := Begun lib calls) statementsLeft
      (fun i l s hw hJ => step_of_running hw hJ) j hrun hwj ⟨reach_callInv h j, hj⟩
    refine ⟨c', hreach, hnone, fun i hne => ?_⟩
    by_cases hij : i = j
    · subst hij
      exact ⟨hwait, hbegun.2, fun hw => by rw [hwj] at hw; cases hw⟩
    · have hw : (c.task i).waits = true := by
        refine hone.others_wait (j := j) ?_ hij
        rw [hrun]
        exact (if_neg (Bool.eq_false_iff.mp hwj)).symm
      rw [hsame i hij]
      exact ⟨hw, hne, fun _ => rfl⟩

theorem reach_turn {i : ι} {l : ExecutePlace F α} {s : BreakerHeap ι F} (hrun : c.running = none)
    (hw : (c.task i).waits = true) (hs : ExecuteStep lib calls i (c.task i) c.shared l s) :
    EventLoop.Reach c (c.next i l s) := by
  refine .single (.task ?_ hs)
  rw [hrun]
  exact (if_pos hw).symm

/-- **A call that has begun can end**, whatever the others do. -/
theorem reach_ended (h : EventLoop.Reach (noCalls lib calls) c) {i : ι}
    (hne : c.task i ≠ .notCalled) : ∃ c' r, EventLoop.Reach c c' ∧ c'.task i = .ended r := by
  obtain ⟨c', hreach, hrun, hwaits⟩ := reach_waits h
  obtain ⟨hw, hne', -⟩ := hwaits i hne
  have hturn := fun l s => reach_turn (i := i) (l := l) (s := s) hrun hw
  cases hl : c'.task i with
  | notCalled => exact absurd hl hne'
  | awaiting b g =>
    rw [hl] at hturn
    exact ⟨_, _, hreach.trans (hturn _ _ .settle), Function.update_self ..⟩
  | refused b =>
    rw [hl] at hturn
    exact ⟨_, _, hreach.trans (hturn _ _ .refuse), Function.update_self ..⟩
  | ended r => exact ⟨c', r, hreach, hl⟩
  | _ =>
    rw [hl] at hw
    cases hw

/-- **A call that awaits can end with the outcome of its function.** -/
theorem reach_own (h : EventLoop.Reach (noCalls lib calls) c) {i : ι} {b : BreakerState} {g : F}
    (hi : c.task i = .awaiting b g) :
    ∃ c', EventLoop.Reach c c' ∧ c'.task i = .ended (ownResult calls i) := by
  have hp := (reach_callInv h i).2
  rw [hi] at hp
  obtain ⟨rfl, hadmits, -⟩ := hp
  obtain ⟨c', hreach, hrun, hwaits⟩ := reach_waits h
  obtain ⟨hw, -, hsame⟩ := hwaits i (by rw [hi]; exact nofun)
  have hi' : c'.task i = .awaiting b (calls.fn i) := (hsame (by rw [hi]; rfl)).trans hi
  have hturn := fun l s => reach_turn (i := i) (l := l) (s := s) hrun hw
  rw [hi'] at hturn
  have hturn := hturn _ _ (.settle (b := b))
  rw [execute_settles lib _ hadmits] at hturn
  exact ⟨_, hreach.trans hturn, Function.update_self ..⟩

end Settles

end CircuitBreakerService

open CircuitBreakerService

/-- Each call runs its own function, at most once, and gets its own outcome. -/
structure RunsOwn {ι F α : Type} [DecidableEq ι] (lib : Opossum) (calls : Calls ι F α)
    (c : (serviceLoop lib calls).Conf) : Prop where
  /-- A breaker that admits a call calls the function of this call; otherwise it calls nothing. -/
  own : ∀ x ∈ c.shared.fires, CallsOwn calls x
  single : (c.shared.fires.map (·.call)).Nodup
  /-- No function is called twice. -/
  once : (c.shared.fires.filterMap (·.called)).Nodup
  outcome : ∀ i r, c.task i = .ended r → OwnOutcome lib calls i c.shared.fires r
  /-- A value that a call returns is that of its own function. -/
  value : ∀ i v, c.task i = .ended (.ok v) → calls.result (calls.fn i) = .ok v
  settles : ∀ i, c.task i ≠ .notCalled → ∃ c' r, EventLoop.Reach c c' ∧ c'.task i = .ended r
  /-- A call whose function is pending ends with the outcome of it, if no timer is faster. -/
  settlesOwn : ∀ i b g, c.task i = .awaiting b g →
    ∃ c', EventLoop.Reach c c' ∧ c'.task i = .ended (ownResult calls i)

/-- The functions that were called are those of their calls. -/
theorem called_eq {ι F α : Type} {calls : Calls ι F α} {fires : List (Fire ι F)}
    (hown : ∀ x ∈ fires, CallsOwn calls x) : fires.filterMap (·.called) =
      ((fires.filter fun x => x.state.Admits).map (·.call)).map calls.fn := by
  induction fires with
  | nil => rfl
  | cons x fires ih =>
    have hx : x.called = _ := hown x List.mem_cons_self
    rw [List.filterMap_cons, hx, ih fun y hy => hown y (List.mem_cons_of_mem _ hy)]
    by_cases hadmits : x.state.Admits <;> simp [hadmits]

/-- **A shared breaker runs each caller's own function**, in every interleaving of calls with
different functions. -/
theorem shared_breaker_runs_own {ι F α : Type} [DecidableEq ι] (lib : Opossum)
    (calls : Calls ι F α) (hfn : Function.Injective calls.fn) (c : (serviceLoop lib calls).Conf)
    (h : EventLoop.Reach (noCalls lib calls) c) : RunsOwn lib calls c := by
  have hinv := reach_callInv h
  have hown : ∀ x ∈ c.shared.fires, CallsOwn calls x := fun x hx => (hinv x.call).1.own x hx
  have hsingle : (c.shared.fires.map (·.call)).Nodup := by
    cases hl : c.shared.fires with
    | nil => exact List.nodup_nil
    | cons x l =>
      rw [← hl]
      exact (hinv x.call).1.once
  have houtcome : ∀ i r, c.task i = .ended r → OwnOutcome lib calls i c.shared.fires r := by
    intro i r hr
    have hp := (hinv i).2
    rw [hr] at hp
    exact hp
  refine ⟨hown, hsingle, ?_, houtcome, fun i v hr => (houtcome i _ hr).value,
    fun i hne => reach_ended h hne, fun i b g hi => reach_own h hi⟩
  rw [called_eq hown]
  exact (hsingle.sublist (List.filter_sublist.map _)).map hfn

/-! ### Two calls, of which the second begins while the first is pending -/

def pairedCalls : Calls Bool Bool Nat where
  key _ := "mp:createCharge"
  fn i := i
  result g := .ok (if g then 1 else 0)

theorem reach_statement {c c' : (serviceLoop opossum pairedCalls).Conf} (i : Bool)
    {l : ExecutePlace Bool Nat} {s : BreakerHeap Bool Bool} (h : EventLoop.Reach c c')
    (hrun : c'.running = if (c'.task i).waits then none else some i)
    (hs : ExecuteStep opossum pairedCalls i (c'.task i) c'.shared l s) :
    EventLoop.Reach c (c'.next i l s) :=
  h.tail (.task hrun hs)

theorem shared_breaker_two_calls :
    ∃ c : (serviceLoop opossum pairedCalls).Conf,
      (c.task false = .awaiting .closed false ∧ c.task true = .awaiting .closed true) ∧
        RunsOwn opossum pairedCalls c := by
  have h₁ := reach_statement false (.refl (a := noCalls opossum pairedCalls)) rfl .call
  have h₂ := reach_statement false h₁ rfl (.hasNot rfl)
  have h₃ := reach_statement false h₂ rfl .create
  have h₄ := reach_statement false h₃ rfl .set
  have h₅ := reach_statement false h₄ rfl (.fire rfl trivial)
  have h₆ := reach_statement true h₅ rfl .call
  have h₇ := reach_statement true h₆ rfl (.has rfl)
  have h₈ := reach_statement true h₇ rfl (.get rfl)
  have h₉ := reach_statement true h₈ rfl (.assign rfl)
  have h₁₀ := reach_statement true h₉ rfl (.fire rfl trivial)
  exact ⟨_, ⟨rfl, rfl⟩, shared_breaker_runs_own opossum pairedCalls (fun _ _ h => h) _ h₁₀⟩

end Pasarela
