import Pasarela.Conc.Acts
import Pasarela.Routing

/-!
# The cache of the routes (`providers/routing.service.ts`)

`selectProvider` takes the provider ids from the cache, or reads the table and stores them.
Operators edit the table and then call `invalidateRoute`.

* `RouteChange`: the table is edited, or an entry of the cache expires.
* `RouteCall`: the calls and changes for one country, currency and method, which run side by side.
* `RouteAct`: what a request comes to. `DecidesOn`: the list that a selection takes.
* `ReadAfter l t g ids`: the list was read at or after the last edit before any invalidation that
  comes before the place `g`. It was read before that place, or by the call `t` itself.
* `Timely`: no list is stored that is older than an edit which an invalidation has followed. In such
  runs each selection decides on a list that is not older (`invalidation_effective`).
-/

namespace Pasarela

open Conc (Any Conf Event Machine Prog Proto acts acts_snoc getElem?_snoc
  getElem?_snoc_of_ne getElem?_snoc_of_some lt_of_getElem?)
open RoutingService (cacheKey firstAvailable invalidateRoute providerIds selectProvider)

/-! ## Calls -/

/-- What happens to the routes and the cache from outside the service. -/
inductive RouteChange where
  | update (routes : RouteTable)
  | expire (key : String)

def RouteChange.apply : RouteChange → RouteStore → RouteStore
  | .update routes, s => { s with routes }
  | .expire key, s => { s with cache := Function.update s.cache key none }

abbrev routingMachine : Machine := routeMachine.plus RouteChange.apply

inductive RouteCall where
  | select (breakers : CircuitBreakerService)
  | invalidate
  | change (x : RouteChange)

/-- The choice among the ids of a list. -/
def RoutingService.choose (registry : ProviderRegistry) (breakers : CircuitBreakerService)
    (country currency method : String) (ids : List String) : Except Err PaymentProvider :=
  match firstAvailable registry breakers ids with
  | some provider => .ok provider
  | none =>
    match registry.selectFor country currency with
    | .ok provider => .ok provider
    | .error _ => .error (.notFound s!"Sin provider disponible para {country}/{currency}/{method}")

section Calls

variable (registry : ProviderRegistry) (country currency method : String)

/-- A call; a selection returns its provider. -/
def RouteCall.prog : RouteCall → Prog routingMachine (Option PaymentProvider)
  | .select breakers =>
    ((selectProvider registry breakers country currency method).bind fun p =>
      .ret (some p)).lift RouteChange.apply
  | .invalidate =>
    ((invalidateRoute country currency method).bind fun _ => .ret none).lift RouteChange.apply
  | .change x => (Prog.perform (M := routingMachine) (.inr x)).bind fun _ => .ret none

/-- The calls at their start, with an empty cache. -/
def startRouting {ι : Type} (calls : ι → RouteCall) (routes : RouteTable) :
    Conf routingMachine ι (Option PaymentProvider) :=
  .start (.cold routes) fun t => (calls t).prog registry country currency method

end Calls

/-! ## Acts -/

/-- What a request of a call comes to. -/
inductive RouteAct where
  | hit (ids : List String)
  | miss
  | read (ids : List String)
  | store (ids : List String)
  | delete
  | update
  /-- It failed, or an entry expired. -/
  | other
  deriving DecidableEq, Repr

def routeAct : Event routingMachine → RouteAct
  | ⟨.inl (.cacheGet _), _, .ok (some ids)⟩ => .hit ids
  | ⟨.inl (.cacheGet _), _, .ok none⟩ => .miss
  | ⟨.inl (.findRoutes _ _ _), _, .ok ids⟩ => .read ids
  | ⟨.inl (.cacheSet _ ids), _, .ok ()⟩ => .store ids
  | ⟨.inl (.cacheDel _), _, .ok ()⟩ => .delete
  | ⟨.inr (.update _), _, _⟩ => .update
  | _ => .other

section Acts

variable {ι : Type}

/-- The list that the selection `t` decides on, which began at the place `g`. -/
inductive DecidesOn (l : List (ι × RouteAct)) (t : ι) (g : Nat) (ids : List String) : Prop
  | hit (h : l[g]? = some (t, .hit ids))
  | read {r : Nat} (hg : l[g]? = some (t, .miss)) (hlt : g < r) (h : l[r]? = some (t, .read ids))

/-- The list was read in time (module doc). -/
def ReadAfter (l : List (ι × RouteAct)) (t : ι) (g : Nat) (ids : List String) : Prop :=
  ∃ r u, l[r]? = some (u, .read ids) ∧ (r < g ∨ u = t) ∧
    ∀ (i j : Nat) v w, l[i]? = some (v, .update) → l[j]? = some (w, .delete) → i < j → j < g → i < r

/-- No list is stored too late (module doc). -/
def Timely (l : List (ι × RouteAct)) : Prop :=
  ∀ (r k : Nat) t ids ids', l[r]? = some (t, .read ids) → l[k]? = some (t, .store ids') →
    ∀ (i j : Nat) v w, l[i]? = some (v, .update) → l[j]? = some (w, .delete) → r < i → i < j → ¬ j < k

variable {l : List (ι × RouteAct)} {t u : ι} {a : RouteAct} {g : Nat} {ids : List String}

theorem Timely.of_snoc {x : ι × RouteAct} (h : Timely (l ++ [x])) : Timely l := by
  intro r k t ids ids' hr hk i j v w hi hj
  exact h r k t ids ids' (getElem?_snoc_of_some hr) (getElem?_snoc_of_some hk) i j v w
    (getElem?_snoc_of_some hi) (getElem?_snoc_of_some hj)

/-- What comes later does not matter. -/
theorem ReadAfter.snoc {x : ι × RouteAct} (h : ReadAfter l t g ids) (hg : g ≤ l.length) :
    ReadAfter (l ++ [x]) t g ids := by
  obtain ⟨r, u, hr, hplace, h⟩ := h
  refine ⟨r, u, getElem?_snoc_of_some hr, hplace, fun i j v w hi hj hij hjg => ?_⟩
  rcases getElem?_snoc.mp hj with hj | ⟨rfl, -⟩
  · rcases getElem?_snoc.mp hi with hi | ⟨rfl, -⟩
    · exact h i j v w hi hj hij hjg
    · omega
  · omega

theorem ReadAfter.next (h : ReadAfter l u l.length ids) (ha : a ≠ .delete) :
    ReadAfter (l ++ [(t, a)]) u (l.length + 1) ids := by
  obtain ⟨r, v, hr, hplace, h⟩ := h
  refine ⟨r, v, getElem?_snoc_of_some hr, hplace.imp_left (Nat.lt_succ_of_lt ·),
    fun i j v w hi hj hij _ => ?_⟩
  have hj : l[j]? = some (w, .delete) := (getElem?_snoc_of_ne fun he => ha (Prod.mk.inj he).2).mp hj
  have hjl := lt_of_getElem? hj
  rcases getElem?_snoc.mp hi with hi | ⟨rfl, -⟩
  · exact h i j v w hi hj hij hjl
  · omega

/-- A list that is stored in time. -/
theorem readAfter_of_timely {r : Nat} (hr : l[r]? = some (t, .read ids))
    (h : Timely (l ++ [(t, .store ids)])) : ReadAfter l u l.length ids := by
  refine ⟨r, t, hr, .inl (lt_of_getElem? hr), fun i j v w hi hj hij hjl => ?_⟩
  have hlate := h r l.length t ids ids (getElem?_snoc_of_some hr) List.getElem?_concat_length i j v w
    (getElem?_snoc_of_some hi) (getElem?_snoc_of_some hj)
  by_contra hir
  rcases Nat.lt_or_ge r i with hlt | hge
  · exact hlate hlt hij hjl
  · obtain rfl : i = r := by omega
    rw [hr] at hi
    cases hi

/-- A list that is stored too late: the places of its read, of the edit, of the invalidation and of
the store. -/
def lateAt [DecidableEq ι] (l : List (ι × RouteAct)) (r i j k : Nat) : Bool :=
  match l[r]?, l[i]?, l[j]?, l[k]? with
  | some (t, .read _), some (_, .update), some (_, .delete), some (u, .store _) =>
    t = u ∧ r < i ∧ i < j ∧ j < k
  | _, _, _, _ => false

theorem timely_iff [DecidableEq ι] : Timely l ↔ ∀ r < l.length, ∀ i < l.length, ∀ j < l.length,
    ∀ k < l.length, lateAt l r i j k = false := by
  constructor
  · intro h r _ i _ j _ k _
    unfold lateAt
    split
    next t ids v w u ids' hr hi hj hk =>
      refine decide_eq_false ?_
      rintro ⟨rfl, hri, hij, hjk⟩
      exact h r k t ids ids' hr hk i j v w hi hj hri hij hjk
    next => rfl
  · intro h r k t ids ids' hr hk i j v w hi hj hri hij hjk
    have hl := h r (lt_of_getElem? hr) i (lt_of_getElem? hi) j (lt_of_getElem? hj) k
      (lt_of_getElem? hk)
    rw [lateAt, hr, hi, hj, hk] at hl
    exact of_decide_eq_false hl ⟨rfl, hri, hij, hjk⟩

instance [DecidableEq ι] : Decidable (Timely l) := decidable_of_iff _ timely_iff.symm

end Acts

/-! ## The protocol -/

inductive Seen where
  | start
  | missed (g : Nat)
  | hit (g : Nat) (ids : List String)
  | read (g r : Nat) (ids : List String)

section Protocol

variable {ι : Type} {l : List (ι × RouteAct)} {t : ι} {a : RouteAct} {ids : List String}

/-- What a selection did to get so far. -/
def Seen.Holds (l : List (ι × RouteAct)) (t : ι) : Seen → Prop
  | .start => True
  | .missed g => l[g]? = some (t, .miss)
  | .hit g ids => l[g]? = some (t, .hit ids)
  | .read g r ids => l[g]? = some (t, .miss) ∧ g < r ∧ l[r]? = some (t, .read ids)

theorem Seen.Holds.snoc {x : ι × RouteAct} {g : Seen} (h : g.Holds l t) :
    g.Holds (l ++ [x]) t := by
  cases g with
  | start => trivial
  | missed g => exact getElem?_snoc_of_some h
  | hit g ids => exact getElem?_snoc_of_some h
  | read g r ids => exact ⟨getElem?_snoc_of_some h.1, h.2.1, getElem?_snoc_of_some h.2.2⟩

/-- The cache has no old list, and no selection got one. -/
structure CacheInv (l : List (ι × RouteAct)) (cache : Option (List String)) (G : ι → Seen) :
    Prop where
  cached : ∀ t ids, cache = some ids → ReadAfter l t l.length ids
  hits : ∀ t (g : Nat) ids, l[g]? = some (t, .hit ids) → ReadAfter l t g ids
  seen : ∀ t, (G t).Holds l t

variable {cache cache' : Option (List String)} {G : ι → Seen}

theorem CacheInv.start : CacheInv ([] : List (ι × RouteAct)) none fun _ => .start where
  cached t ids h := by cases h
  hits t g ids h := by cases h
  seen t := trivial

theorem CacheInv.snoc [DecidableEq ι] {g : Seen} (h : CacheInv l cache G)
    (hcache : ∀ u ids, cache' = some ids → ReadAfter (l ++ [(t, a)]) u (l.length + 1) ids)
    (hhit : ∀ ids, a = .hit ids → cache = some ids) (hg : g.Holds (l ++ [(t, a)]) t) :
    CacheInv (l ++ [(t, a)]) cache' (Function.update G t g) where
  cached u ids hc := by
    rw [List.length_append, List.length_singleton]
    exact hcache u ids hc
  hits u k ids hk := by
    rcases getElem?_snoc.mp hk with hk | ⟨rfl, he⟩
    · exact (h.hits u k ids hk).snoc (Nat.le_of_lt (lt_of_getElem? hk))
    · exact (h.cached u ids (hhit ids (Prod.mk.inj he).2)).snoc le_rfl
  seen u := by
    by_cases hu : u = t
    · rw [hu, Function.update_self]
      exact hg
    · rw [Function.update_of_ne hu]
      exact (h.seen u).snoc

theorem CacheInv.keep [DecidableEq ι] {g : Seen} (h : CacheInv l cache G)
    (hcache : ∀ ids, cache' = some ids → cache = some ids ∧ a ≠ .delete)
    (hhit : ∀ ids, a = .hit ids → cache = some ids) (hg : g.Holds (l ++ [(t, a)]) t) :
    CacheInv (l ++ [(t, a)]) cache' (Function.update G t g) :=
  h.snoc (fun u ids hc => (h.cached u ids (hcache ids hc).1).next (hcache ids hc).2) hhit hg

end Protocol

section Run

variable {ι : Type} [DecidableEq ι] (registry : ProviderRegistry)
  (country currency method : String)

/-- In timely runs, the cache has no old list (`CacheInv`). -/
def routeCache : Proto routingMachine ι Seen where
  allow := Any
  inv G s tr := Timely (acts routeAct tr) →
    CacheInv (acts routeAct tr) (s.cache (cacheKey country currency method)) G

/-- The selection got the list. -/
def Seen.Got (ids : List String) (g : Seen) : Prop := ∃ k, g = .hit k ids ∨ ∃ n, g = .read k n ids

/-- How a call ends: a selection returns its choice from the list that it got. -/
def RouteCall.End (call : RouteCall) (r : Except Err (Option PaymentProvider)) (g : Seen) : Prop :=
  ∀ breakers p, call = .select breakers → r = .ok (some p) →
    ∃ ids, g.Got ids ∧ RoutingService.choose registry breakers country currency method ids = .ok p

variable {registry country currency method}

theorem exec_routing {o : RouteOp} {d : Decision} {s s' : RouteStore}
    {r : Except Err (routingMachine.Ans (.inl o))}
    (hx : routingMachine.exec (.inl o) d s = (r, s')) :
    (∃ e, r = .error e ∧ s' = s) ∨ execRoute o d s = (r, s') := by
  cases hf : d.fail with
  | some e =>
    simp only [routeMachine, hf] at hx
    obtain ⟨rfl, rfl⟩ := Prod.mk.inj hx
    exact .inl ⟨e, rfl, rfl⟩
  | none =>
    simp only [routeMachine, hf] at hx
    exact .inr hx

theorem routeAct_error {o : RouteOp} {d : Decision} {e : Err} :
    routeAct ⟨.inl o, d, .error e⟩ = .other := by
  cases o <;> rfl

theorem selectProvider_eq (breakers : CircuitBreakerService) :
    selectProvider registry breakers country currency method =
      (providerIds country currency method).bind fun ids =>
        .ofExcept (RoutingService.choose registry breakers country currency method ids) := by
  refine congrArg (Prog.bind _) (funext fun ids => ?_)
  unfold RoutingService.choose
  cases firstAvailable registry breakers ids with
  | some provider => rfl
  | none =>
    cases registry.selectFor country currency with
    | ok provider => rfl
    | error e => rfl

variable {t : ι} {G : ι → Seen} {s s' : RouteStore} {tr : List (ι × Event routingMachine)}
  {e : Event routingMachine}

theorem routeCache_keep {g : Seen} (hi : (routeCache country currency method).inv G s tr)
    (hcache : ∀ ids, s'.cache (cacheKey country currency method) = some ids →
      s.cache (cacheKey country currency method) = some ids ∧ routeAct e ≠ .delete)
    (hhit : ∀ ids, routeAct e = .hit ids → s.cache (cacheKey country currency method) = some ids)
    (hg : (G t).Holds (acts routeAct tr) t →
      g.Holds (acts routeAct tr ++ [(t, routeAct e)]) t) :
    (routeCache country currency method).inv (Function.update G t g) s' (tr ++ [(t, e)]) := by
  intro ht
  rw [acts_snoc] at ht ⊢
  have h := hi ht.of_snoc
  exact h.keep hcache hhit (hg (h.seen t))

theorem routeCache_error {g : Seen} {o : RouteOp} {d : Decision} {er : Err} (hG : G t = g)
    (hi : (routeCache country currency method).inv G s tr) :
    (routeCache country currency method).inv (Function.update G t g) s
      (tr ++ [(t, ⟨.inl o, d, .error er⟩)]) := by
  refine routeCache_keep hi (fun ids hc => ⟨hc, ?_⟩) (fun ids h => ?_) fun h => ?_
  · rw [routeAct_error]
    exact nofun
  · rw [routeAct_error] at h
    cases h
  · rw [hG] at h
    exact h.snoc

theorem execRoute_findRoutes_state {d : Decision} {r : Except Err (List String)}
    (hx : execRoute (.findRoutes country currency method) d s = (r, s')) : s' = s := by
  simp only [execRoute] at hx
  split at hx
  · exact (Prod.mk.inj hx).2.symm
  · exact (Prod.mk.inj hx).2.symm

/-- A list that a selection has read is stored. -/
theorem routeCache_store (t : ι) {k n : Nat} (ids : List String) :
    (routeCache country currency method).WP t (fun r g => ∀ ids, r = .ok ids → g.Got ids)
      ((Prog.perform (M := routingMachine)
        (.inl (.cacheSet (cacheKey country currency method) ids))).bind fun _ => .ret ids)
      (.read k n ids) := by
  refine Proto.WP.perform_bind fun G s tr d r s' hG hi _ hx => ⟨trivial, ?_⟩
  rcases exec_routing hx with ⟨er, rfl, rfl⟩ | hx
  · exact ⟨_, routeCache_error hG hi, nofun⟩
  obtain ⟨rfl, rfl⟩ := Prod.mk.inj hx
  refine ⟨.read k n ids, fun ht => ?_, ?_⟩
  · rw [acts_snoc] at ht ⊢
    have h := hi ht.of_snoc
    have hseen := h.seen t
    rw [hG] at hseen
    refine h.snoc (fun u ids' hc => ?_) nofun hseen.snoc
    obtain rfl : ids = ids' := by simpa using hc
    exact (readAfter_of_timely hseen.2.2 ht).next nofun
  · rintro ids' ⟨⟩
    exact ⟨k, .inr ⟨n, rfl⟩⟩

/-- **The list of a selection.** -/
theorem routeCache_providerIds (t : ι) :
    (routeCache country currency method).WP t (fun r g => ∀ ids, r = .ok ids → g.Got ids)
      ((providerIds country currency method).lift RouteChange.apply) .start := by
  unfold providerIds
  show (routeCache country currency method).WP t _
    (((Prog.perform (M := routeMachine) (.cacheGet _)).bind _).lift _) _
  rw [Prog.lift_bind, Prog.lift_perform]
  refine Proto.WP.perform_bind fun G s tr d r s' hG hi _ hx => ⟨trivial, ?_⟩
  rcases exec_routing hx with ⟨er, rfl, rfl⟩ | hx
  · exact ⟨.start, routeCache_error hG hi, nofun⟩
  obtain ⟨rfl, rfl⟩ := Prod.mk.inj hx
  cases hc : s.cache (cacheKey country currency method) with
  | some ids =>
    let k := (acts routeAct tr).length
    refine ⟨.hit k ids, routeCache_keep hi (fun _ h => ⟨h, nofun⟩) ?_ ?_, ?_⟩
    · rintro ids' ⟨⟩
      exact hc
    · exact fun _ => List.getElem?_concat_length
    · rintro ids' ⟨⟩
      exact ⟨_, .inl rfl⟩
  | none =>
    let k := (acts routeAct tr).length
    refine ⟨.missed k, routeCache_keep hi (fun _ h => ⟨h, nofun⟩) nofun
      fun _ => List.getElem?_concat_length, ?_⟩
    show (routeCache country currency method).WP t _
      (((Prog.perform (M := routeMachine) (.findRoutes _ _ _)).bind _).lift _) _
    rw [Prog.lift_bind, Prog.lift_perform]
    refine Proto.WP.perform_bind fun G s tr d r s' hG hi _ hx => ⟨trivial, ?_⟩
    obtain rfl : s' = s := by
      rcases exec_routing hx with ⟨er, -, hs⟩ | hx
      · exact hs
      · exact execRoute_findRoutes_state hx
    cases r with
    | error er => exact ⟨_, routeCache_error hG hi, nofun⟩
    | ok ids =>
      have hread := routeCache_keep (e := ⟨.inl (.findRoutes country currency method), d, .ok ids⟩)
        (g := .read k (acts routeAct tr).length ids) hi (fun _ h => ⟨h, nofun⟩) nofun fun h => by
          rw [hG] at h
          exact ⟨getElem?_snoc_of_some h, lt_of_getElem? h, List.getElem?_concat_length⟩
      refine ⟨_, hread, ?_⟩
      show (routeCache country currency method).WP t _
        (((Prog.perform (M := routeMachine) (.cacheSet _ ids)).bind fun _ => .ret ids).lift _) _
      rw [Prog.lift_bind, Prog.lift_perform]
      exact routeCache_store t ids

theorem routeCache_select (breakers : CircuitBreakerService) (t : ι) :
    (routeCache country currency method).WP t
      ((RouteCall.select breakers).End registry country currency method)
      ((RouteCall.select breakers).prog registry country currency method) .start := by
  rw [RouteCall.prog, selectProvider_eq, Prog.lift_bind, Prog.lift_bind]
  refine Proto.WP.bind (Proto.WP.bind ((routeCache_providerIds t).mono fun r g hgot => ?_))
  cases r with
  | error er => exact nofun
  | ok ids =>
    show (routeCache country currency method).WP t _ (Prog.lift _ (Prog.ofExcept _)) g
    rw [Prog.lift_ofExcept]
    cases hc : RoutingService.choose registry breakers country currency method ids with
    | error er => exact nofun
    | ok p =>
      rintro _ _ ⟨⟩ ⟨⟩
      exact ⟨ids, hgot ids rfl, hc⟩

theorem routeCache_invalidate (t : ι) :
    (routeCache country currency method).WP t
      (RouteCall.invalidate.End registry country currency method)
      (RouteCall.invalidate.prog registry country currency method) .start := by
  rw [RouteCall.prog, invalidateRoute, Prog.lift_bind, Prog.lift_perform]
  refine Proto.WP.perform_bind fun G s tr d r s' hG hi _ hx => ⟨trivial, ?_⟩
  rcases exec_routing hx with ⟨er, rfl, rfl⟩ | hx
  · exact ⟨_, routeCache_error hG hi, fun _ _ hcall => by cases hcall⟩
  obtain ⟨rfl, rfl⟩ := Prod.mk.inj hx
  refine ⟨.start, routeCache_keep hi (fun ids hc => ?_) (fun _ h => by cases h) fun _ => trivial,
    fun _ _ hcall => by cases hcall⟩
  simp at hc

theorem routeCache_change (x : RouteChange) (t : ι) :
    (routeCache country currency method).WP t
      ((RouteCall.change x).End registry country currency method)
      ((RouteCall.change x).prog registry country currency method) .start := by
  refine Proto.WP.perform_bind fun G s tr d r s' hG hi _ hx => ⟨trivial, ?_⟩
  obtain ⟨rfl, rfl⟩ := Prod.mk.inj hx
  refine ⟨.start, ?_, nofun⟩
  cases x with
  | update routes => exact routeCache_keep hi (fun ids hc => ⟨hc, nofun⟩) nofun fun _ => trivial
  | expire key =>
    refine routeCache_keep hi (fun ids hc => ⟨?_, nofun⟩) nofun fun _ => trivial
    by_cases hk : cacheKey country currency method = key
    · rw [hk] at hc
      simp [RouteChange.apply] at hc
    · replace hc :
        Function.update s.cache key none (cacheKey country currency method) = some ids := hc
      rwa [Function.update_of_ne hk] at hc

theorem routeCache_prog (call : RouteCall) (t : ι) :
    (routeCache country currency method).WP t (call.End registry country currency method)
      (call.prog registry country currency method) .start := by
  cases call with
  | select breakers => exact routeCache_select breakers t
  | invalidate => exact routeCache_invalidate t
  | change x => exact routeCache_change x t

end Run

/-- **Invalidation is effective in timely runs**: in any interleaving of the calls, a selection
decides on a list that was read at or after the last edit of the table before any invalidation that
had returned when the selection began, by the selection itself or before it began; and its provider is
its choice from that list. -/
theorem invalidation_effective {ι : Type} [DecidableEq ι] (registry : ProviderRegistry)
    (country currency method : String) (calls : ι → RouteCall) (routes : RouteTable)
    (c : Conf routingMachine ι (Option PaymentProvider))
    (hr : Conf.Reach Any (startRouting registry country currency method calls routes) c)
    (ht : Timely (acts routeAct c.trace)) :
    (∀ t g ids, DecidesOn (acts routeAct c.trace) t g ids →
      ReadAfter (acts routeAct c.trace) t g ids) ∧
    ∀ t breakers p, calls t = .select breakers → c.thr t = .ret (some p) →
      ∃ g ids, DecidesOn (acts routeAct c.trace) t g ids ∧
        RoutingService.choose registry breakers country currency method ids = .ok p := by
  have h₀ : (routeCache (ι := ι) country currency method).Ok
      (fun t => (calls t).End registry country currency method)
      (startRouting registry country currency method calls routes) :=
    ⟨fun _ => .start, fun _ => CacheInv.start, fun t => routeCache_prog (calls t) t⟩
  have hok := Proto.sound h₀ hr
  constructor
  · rintro t g ids (h | ⟨hg, hlt, h⟩)
    · obtain ⟨G, hi, -⟩ := hok
      exact (hi ht).hits t g ids h
    · exact ⟨_, t, h, .inr rfl, fun i j v w _ _ hij hjg => by omega⟩
  · intro t breakers p hcall hret
    obtain ⟨G, hi, hend⟩ := hok.returned hret
    obtain ⟨ids, ⟨k, hgot⟩, hchoose⟩ := hend breakers p hcall rfl
    have hseen := (hi ht).seen t
    rcases hgot with hg | ⟨n, hg⟩
    · rw [hg] at hseen
      exact ⟨k, ids, .hit hseen, hchoose⟩
    · rw [hg] at hseen
      exact ⟨k, ids, .read hseen.1 hseen.2.1 hseen.2.2, hchoose⟩

/-! ### A route that is taken out -/

/-- A route of `FakeProvider`, where it is not the fallback. -/
def peruRoutes : RouteTable where
  rows := [⟨"route", "PE", "PEN", .card, "fake", 10, true⟩]
  nodup_key := List.nodup_singleton _
  nodup_uniq := List.nodup_singleton _

/-- A selection, the first step of the runbook with the invalidation, and another selection. -/
def peruCalls : Nat → RouteCall
  | 0 => .select fun _ => none
  | 1 => .change (.update (peruRoutes.deactivate "fake" "PE"))
  | 2 => .invalidate
  | _ => .select fun _ => none

def peruStart : Conf routingMachine Nat (Option PaymentProvider) :=
  startRouting fakeRegistry "PE" "PEN" "CARD" peruCalls peruRoutes

/-- One call after another. -/
def peruInTurn : List (Nat × Decision) :=
  [(0, {}), (0, {}), (0, {}), (1, {}), (2, {}), (3, {}), (3, {}), (3, {})]

/-- The first selection stores its list last. -/
def peruLate : List (Nat × Decision) := [(0, {}), (0, {}), (1, {}), (2, {}), (0, {}), (3, {})]

theorem acts_peruInTurn : acts routeAct (peruStart.play peruInTurn).trace =
    [(0, .miss), (0, .read ["fake"]), (0, .store ["fake"]), (1, .update), (2, .delete), (3, .miss),
      (3, .read []), (3, .store [])] := by
  decide +kernel

theorem acts_peruLate : acts routeAct (peruStart.play peruLate).trace =
    [(0, .miss), (0, .read ["fake"]), (1, .update), (2, .delete), (0, .store ["fake"]),
      (3, .hit ["fake"])] := by
  decide +kernel

/-- In turn, the second selection decides on the new list, which is empty. -/
theorem invalidation_effective_in_turn :
    DecidesOn (acts routeAct (peruStart.play peruInTurn).trace) 3 5 [] ∧
      ReadAfter (acts routeAct (peruStart.play peruInTurn).trace) 3 5 [] := by
  have hdec : DecidesOn (acts routeAct (peruStart.play peruInTurn).trace) 3 5 [] := by
    rw [acts_peruInTurn]
    exact .read rfl (by decide : 5 < 6) rfl
  have htimely : Timely (acts routeAct (peruStart.play peruInTurn).trace) := by
    rw [acts_peruInTurn]
    decide +kernel
  exact ⟨hdec, (invalidation_effective fakeRegistry "PE" "PEN" "CARD" peruCalls peruRoutes _
    (Conf.reach_play (Conf.plays_any peruStart peruInTurn)) htimely).1 3 5 [] hdec⟩

/-- A slow selection stores the old list after the invalidation, and the next one takes the provider
that was taken out. -/
theorem invalidation_undone :
    Conf.Reach Any peruStart (peruStart.play peruLate) ∧
      DecidesOn (acts routeAct (peruStart.play peruLate).trace) 3 5 ["fake"] ∧
      ¬ ReadAfter (acts routeAct (peruStart.play peruLate).trace) 3 5 ["fake"] ∧
      ∃ p, (peruStart.play peruLate).thr 3 = .ret (some p) ∧ p.id = "fake" := by
  refine ⟨Conf.reach_play (Conf.plays_any _ _), ?_, ?_, ⟨_, rfl, rfl⟩⟩
  · rw [acts_peruLate]
    exact .hit rfl
  · rw [acts_peruLate]
    rintro ⟨r, u, hr, -, h⟩
    have hlt : 2 < r := h 2 3 1 2 rfl rfl (by decide) (by decide)
    have hlen : r < 6 := lt_of_getElem? hr
    obtain rfl | rfl | rfl : r = 3 ∨ r = 4 ∨ r = 5 := by omega
    · cases hr
    · cases hr
    · cases hr

end Pasarela
