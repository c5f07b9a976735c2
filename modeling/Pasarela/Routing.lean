import Mathlib.Logic.Function.Basic
import Pasarela.Conc.Prog
import Pasarela.Database

/-!
# The route table (`providers/routing.service.ts`)

The selection of a provider by the routes that the operators edit.

* `ProviderRoute`: the rows, `RouteTable` the table.
* `CircuitBreakerService.healthOf` (`providers/circuit-breaker.service.ts`): what the selection reads
  of the breakers.
* `routeMachine`: the cache of the service and its query. An entry of the cache expires after five
  minutes; that is the state without it.
* `RoutingService.selectProvider`, `RoutingService.invalidateRoute`, without their logs.
* `selectProvider_spec`: what the selection returns from an empty cache.
  `selectProvider_of_deactivate`: what the first step of the runbook does to it.
-/

namespace Pasarela

open Conc (Machine Outcome Prog)
open Store (Table)

/-! ## Breakers -/

inductive Health where
  | closed
  | opened
  | halfOpen
  | unknown
  deriving DecidableEq, Repr

/-- What `healthOf` reads of a breaker. -/
structure CircuitBreaker where
  opened : Bool
  halfOpen : Bool
  deriving DecidableEq, Repr

/-- The breakers by key. -/
abbrev CircuitBreakerService : Type := String → Option CircuitBreaker

def CircuitBreakerService.healthOf (breakers : CircuitBreakerService) (key : String) : Health :=
  match breakers key with
  | none => .unknown
  | some b => if b.opened then .opened else if b.halfOpen then .halfOpen else .closed

/-- `health === 'closed' || health === 'unknown'`. -/
def Health.Available (h : Health) : Prop := h = .closed ∨ h = .unknown

instance (h : Health) : Decidable h.Available := inferInstanceAs (Decidable (_ ∨ _))

/-! ## Routes -/

structure ProviderRoute where
  id : String
  country : String
  currency : String
  method : PaymentMethodKind
  providerId : String
  priority : Int
  active : Bool
  deriving DecidableEq, Repr

/-- `@@unique([country, currency, method, providerId])`. -/
def ProviderRoute.routeKey (r : ProviderRoute) : String × String × PaymentMethodKind × String :=
  (r.country, r.currency, r.method, r.providerId)

abbrev RouteTable : Type := Table ProviderRoute.id ProviderRoute.routeKey

/-- The `where` of the query. -/
def ProviderRoute.Serves (country currency : String) (method : PaymentMethodKind)
    (r : ProviderRoute) : Prop :=
  r.country = country ∧ r.currency = currency ∧ r.method = method ∧ r.active

instance {country currency : String} {method : PaymentMethodKind} :
    DecidablePred (ProviderRoute.Serves country currency method) :=
  fun _ => inferInstanceAs (Decidable (_ ∧ _ ∧ _ ∧ _))

/-- The route `a` comes before `b` in the answer: its priority is higher, or it is the same and the
database returns `a` first. -/
def ProviderRoute.Before (rank : String → Nat) (a b : ProviderRoute) : Prop :=
  b.priority < a.priority ∨ a.priority = b.priority ∧ rank a.id ≤ rank b.id

section Before

variable {rank : String → Nat}

instance : DecidableRel (ProviderRoute.Before rank) :=
  fun _ _ => inferInstanceAs (Decidable (_ ∨ _ ∧ _))

instance : Std.Total (ProviderRoute.Before rank) where
  total a b := by
    unfold ProviderRoute.Before
    omega

instance : IsTrans ProviderRoute (ProviderRoute.Before rank) where
  trans a b c hab hbc := by
    unfold ProviderRoute.Before at *
    omega

theorem ProviderRoute.Before.priority_le {a b : ProviderRoute} (h : a.Before rank b) :
    b.priority ≤ a.priority := by
  unfold ProviderRoute.Before at h
  omega

end Before

/-- The rows of the query, in its order. -/
def RouteTable.routesFor (t : RouteTable) (rank : String → Nat) (country currency : String)
    (method : PaymentMethodKind) : List ProviderRoute :=
  (t.rows.filter fun r => r.Serves country currency method).insertionSort
    (ProviderRoute.Before rank)

/-- The method with a name, if it is one. The database client refuses another. -/
def PaymentMethodKind.parse (text : String) : Option PaymentMethodKind :=
  PaymentMethodKind.all.find? fun m => m.text = text

theorem PaymentMethodKind.parse_text (m : PaymentMethodKind) : parse m.text = some m := by
  cases m <;> decide

/-- `SET active = false` for the routes of a provider in a country. -/
def setInactive (providerId country : String) (r : ProviderRoute) : ProviderRoute :=
  if r.providerId = providerId ∧ r.country = country then { r with active := false } else r

theorem keeps_setInactive (providerId country : String) :
    Table.Keeps ProviderRoute.id ProviderRoute.routeKey (setInactive providerId country) := by
  refine ⟨fun r => ?_, fun r => ?_⟩
  · unfold setInactive
    split <;> rfl
  · unfold setInactive
    split <;> rfl

/-- The first step of the runbook (`docs/runbooks/provider-caido.md`). -/
def RouteTable.deactivate (t : RouteTable) (providerId country : String) : RouteTable :=
  t.updateAll (setInactive providerId country) (keeps_setInactive providerId country)

theorem RouteTable.mem_deactivate {t : RouteTable} {providerId country : String}
    {r : ProviderRoute} :
    r ∈ t.deactivate providerId country ↔ ∃ a ∈ t, setInactive providerId country a = r :=
  Table.mem_updateAll

/-! ## Requests -/

/-- The routes, and the provider ids that the cache has. -/
structure RouteStore where
  routes : RouteTable
  cache : String → Option (List String)

/-- The routes with an empty cache. -/
def RouteStore.cold (routes : RouteTable) : RouteStore := ⟨routes, fun _ => none⟩

inductive RouteOp where
  | cacheGet (key : String)
  | cacheSet (key : String) (providerIds : List String)
  | cacheDel (key : String)
  | findRoutes (country currency method : String)

@[reducible] def RouteOp.Ans : RouteOp → Type
  | .cacheGet _ => Option (List String)
  | .cacheSet _ _ => Unit
  | .cacheDel _ => Unit
  | .findRoutes _ _ _ => List String

/-- The request, when the database and the cache work. -/
def execRoute : (o : RouteOp) → Decision → RouteStore → Except Err o.Ans × RouteStore
  | .cacheGet key, _, s => (.ok (s.cache key), s)
  | .cacheSet key ids, _, s =>
    (.ok (), { s with cache := Function.update s.cache key (some ids) })
  | .cacheDel key, _, s => (.ok (), { s with cache := Function.update s.cache key none })
  | .findRoutes country currency method, d, s =>
    match PaymentMethodKind.parse method with
    | none =>
      (.error (.other "Invalid value for argument `method`. Expected PaymentMethodKind."), s)
    | some kind =>
      (.ok ((s.routes.routesFor d.rank country currency kind).map (·.providerId)), s)

/-- What the routing service shares with the operators. -/
abbrev routeMachine : Machine where
  Op := RouteOp
  Ans := RouteOp.Ans
  Dec := Decision
  St := RouteStore
  Err := Err
  exec o d s :=
    match d.fail with
    | some e => (.error e, s)
    | none => execRoute o d s

theorem run_route {α : Type} {δ : RouteOp → Decision} (hδ : ∀ o, (δ o).fail = none) {o : RouteOp}
    {f : o.Ans → Prog routeMachine α} {s s' : RouteStore} {a : o.Ans}
    (hx : execRoute o (δ o) s = (.ok a, s')) :
    (((Prog.perform (M := routeMachine) o).bind f).run δ s).result = ((f a).run δ s').result := by
  have hexec : routeMachine.exec o (δ o) s = (.ok a, s') := by
    simp only [routeMachine, hδ o]
    exact hx
  rw [Prog.run_perform_ok (M := routeMachine) hexec, Outcome.after_result]

/-! ## The service -/

namespace RoutingService

def cacheKey (country currency method : String) : String :=
  "route:" ++ country ++ ":" ++ currency ++ ":" ++ method

/-- The loop over the ids: the first provider with its breaker closed. -/
def firstAvailable (registry : ProviderRegistry) (breakers : CircuitBreakerService) :
    List String → Option PaymentProvider
  | [] => none
  | id :: ids =>
    if (breakers.healthOf (id ++ ":createCharge")).Available then
      match registry.get id with
      | .ok provider => some provider
      -- a row whose provider did not register
      | .error _ => firstAvailable registry breakers ids
    else firstAvailable registry breakers ids

/-- The ids of the cache, or of the table; an empty list in the cache counts. -/
def providerIds (country currency method : String) : Prog routeMachine (List String) := do
  let cached ← Prog.perform (M := routeMachine) (.cacheGet (cacheKey country currency method))
  match cached with
  | some ids => return ids
  | none =>
    let ids ← Prog.perform (M := routeMachine) (.findRoutes country currency method)
    Prog.perform (M := routeMachine) (.cacheSet (cacheKey country currency method) ids)
    return ids

def selectProvider (registry : ProviderRegistry) (breakers : CircuitBreakerService)
    (country currency method : String) : Prog routeMachine PaymentProvider := do
  let ids ← providerIds country currency method
  match firstAvailable registry breakers ids with
  | some provider => return provider
  | none =>
    -- the fallback does not look at the breakers
    match registry.selectFor country currency with
    | .ok provider => return provider
    | .error _ =>
      .throw (.notFound s!"Sin provider disponible para {country}/{currency}/{method}")

def invalidateRoute (country currency method : String) : Prog routeMachine Unit :=
  Prog.perform (M := routeMachine) (.cacheDel (cacheKey country currency method))

/-! ### The loop -/

section Loop

variable {registry : ProviderRegistry} {breakers : CircuitBreakerService}

/-- The loop can take the provider: it registered and its breaker is closed, or there is none yet. -/
def Usable (registry : ProviderRegistry) (breakers : CircuitBreakerService) (id : String) : Prop :=
  (breakers.healthOf (id ++ ":createCharge")).Available ∧ ∃ p, registry.get id = .ok p

theorem firstAvailable_some {ids : List String} {p : PaymentProvider}
    (h : firstAvailable registry breakers ids = some p) :
    Usable registry breakers p.id ∧
      ∃ l₁ l₂, ids = l₁ ++ p.id :: l₂ ∧ ∀ id ∈ l₁, ¬ Usable registry breakers id := by
  induction ids with
  | nil => cases h
  | cons id ids ih =>
    -- an id that the loop leaves goes in front of those that it left later
    have hskip : ¬ Usable registry breakers id → firstAvailable registry breakers ids = some p →
        Usable registry breakers p.id ∧
          ∃ l₁ l₂, id :: ids = l₁ ++ p.id :: l₂ ∧ ∀ id ∈ l₁, ¬ Usable registry breakers id := by
      intro hn hids
      obtain ⟨hu, l₁, l₂, rfl, hl⟩ := ih hids
      refine ⟨hu, id :: l₁, l₂, rfl, fun id' hid => ?_⟩
      rcases List.mem_cons.mp hid with rfl | hid
      · exact hn
      · exact hl id' hid
    unfold firstAvailable at h
    by_cases ha : (breakers.healthOf (id ++ ":createCharge")).Available
    · rw [if_pos ha] at h
      cases hget : registry.get id with
      | ok q =>
        rw [hget] at h
        obtain rfl := Option.some.inj h
        obtain rfl := ProviderRegistry.get_id hget
        exact ⟨⟨ha, q, hget⟩, [], ids, rfl, fun _ hid => absurd hid List.not_mem_nil⟩
      | error e =>
        rw [hget] at h
        refine hskip (fun hu => ?_) h
        obtain ⟨q, hq⟩ := hu.2
        rw [hget] at hq
        cases hq
    · rw [if_neg ha] at h
      exact hskip (fun hu => ha hu.1) h

theorem firstAvailable_none {ids : List String} (h : firstAvailable registry breakers ids = none) :
    ∀ id ∈ ids, ¬ Usable registry breakers id := by
  induction ids with
  | nil => exact fun _ hid => absurd hid List.not_mem_nil
  | cons id ids ih =>
    rintro id' hid ⟨ha, p, hget⟩
    unfold firstAvailable at h
    rcases List.mem_cons.mp hid with rfl | hid
    · rw [if_pos ha, hget] at h
      cases h
    · refine ih ?_ id' hid ⟨ha, p, hget⟩
      split at h
      · split at h
        · cases h
        · exact h
      · exact h

end Loop

/-- The loop can take the route. -/
def Candidate (registry : ProviderRegistry) (breakers : CircuitBreakerService)
    (country currency : String) (method : PaymentMethodKind) (r : ProviderRoute) : Prop :=
  r.Serves country currency method ∧ Usable registry breakers r.providerId

/-! ### The selection -/

section Run

variable {registry : ProviderRegistry} {breakers : CircuitBreakerService} {s : RouteStore}
  {country currency : String} {method : PaymentMethodKind} {δ : RouteOp → Decision}

/-- The order of the routes of one priority, which the query leaves open. -/
abbrev order (δ : RouteOp → Decision) (country currency : String) (method : PaymentMethodKind) :
    String → Nat :=
  (δ (.findRoutes country currency method.text)).rank

theorem execRoute_findRoutes {d : Decision} :
    execRoute (.findRoutes country currency method.text) d s =
      (.ok ((s.routes.routesFor d.rank country currency method).map (·.providerId)), s) := by
  simp only [execRoute, PaymentMethodKind.parse_text]

/-- The routes of the table, when the cache has none. -/
theorem run_providerIds (hδ : ∀ o, (δ o).fail = none)
    (hs : s.cache (cacheKey country currency method.text) = none) :
    ((providerIds country currency method.text).run δ s).result =
      .ok ((s.routes.routesFor (order δ country currency method) country currency method).map
        (·.providerId)) := by
  have hmiss : execRoute (.cacheGet (cacheKey country currency method.text))
      (δ (.cacheGet (cacheKey country currency method.text))) s = (.ok none, s) := by
    rw [execRoute, hs]
  refine (run_route hδ hmiss).trans ?_
  refine (run_route hδ execRoute_findRoutes).trans ?_
  exact (run_route hδ (o := .cacheSet _ _) (f := fun _ => pure _) rfl).trans rfl

/-- The selection: the loop over the ids of the cache or of the table, or the fallback. -/
theorem run_selectProvider_of_ids {text : String} {ids : List String}
    (h : ((providerIds country currency text).run δ s).result = .ok ids) :
    ((selectProvider registry breakers country currency text).run δ s).result =
      match firstAvailable registry breakers ids with
      | some provider => .ok provider
      | none => match registry.selectFor country currency with
        | .ok provider => .ok provider
        | .error _ =>
          .error (.notFound s!"Sin provider disponible para {country}/{currency}/{text}") := by
  show (((providerIds country currency text).bind _).run δ _).result = _
  rw [Prog.run_bind, h]
  simp only [Outcome.after_result]
  cases firstAvailable registry breakers _ with
  | some provider => rfl
  | none =>
    cases registry.selectFor country currency with
    | ok provider => rfl
    | error e => rfl

/-- The selection, when the loop can take a provider of the list: the first one. -/
theorem run_selectProvider_first {text : String} {ids : List String}
    (hids : ((providerIds country currency text).run δ s).result = .ok ids)
    (h : ∃ id ∈ ids, Usable registry breakers id) :
    ∃ p l₁ l₂,
      ((selectProvider registry breakers country currency text).run δ s).result = .ok p ∧
      ids = l₁ ++ p.id :: l₂ ∧ Usable registry breakers p.id ∧
      ∀ id ∈ l₁, ¬ Usable registry breakers id := by
  rw [run_selectProvider_of_ids hids]
  cases hf : firstAvailable registry breakers ids with
  | none =>
    obtain ⟨id, hid, hu⟩ := h
    exact absurd hu (firstAvailable_none hf id hid)
  | some p =>
    obtain ⟨hu, l₁, l₂, hl, hfirst⟩ := firstAvailable_some hf
    exact ⟨p, l₁, l₂, rfl, hl, hu, hfirst⟩

/-- **The selection**, when there is a route that the loop can take: the provider of such a route,
before which no other one comes. -/
theorem selectProvider_spec (hδ : ∀ o, (δ o).fail = none)
    (hs : s.cache (cacheKey country currency method.text) = none)
    (h : ∃ r ∈ s.routes, Candidate registry breakers country currency method r) :
    ∃ r ∈ s.routes, ∃ p,
      ((selectProvider registry breakers country currency method.text).run δ s).result = .ok p ∧
      Candidate registry breakers country currency method r ∧ r.providerId = p.id ∧
      ∀ a ∈ s.routes, Candidate registry breakers country currency method a →
        a = r ∨ r.Before (order δ country currency method) a := by
  let rank := order δ country currency method
  have hmem : ∀ a, a ∈ s.routes.routesFor rank country currency method ↔
      a ∈ s.routes ∧ a.Serves country currency method := fun a => by
    rw [RouteTable.routesFor, List.mem_insertionSort, List.mem_filter, decide_eq_true_eq]
    rfl
  obtain ⟨r₀, hr₀, hserves₀, hu₀⟩ := h
  obtain ⟨p, l₁, l₂, hp, hids, hu, hl⟩ := run_selectProvider_first (run_providerIds hδ hs)
    ⟨r₀.providerId, List.mem_map.mpr ⟨r₀, (hmem r₀).mpr ⟨hr₀, hserves₀⟩, rfl⟩, hu₀⟩
  obtain ⟨rows₁, rest, hrows, rfl, hrest⟩ := List.map_eq_append_iff.mp hids
  obtain ⟨r, rows₂, rfl, hid, -⟩ := List.map_eq_cons_iff.mp hrest
  have hr := (hmem r).mp (by rw [hrows]; exact List.mem_append_right _ List.mem_cons_self)
  obtain ⟨-, hfirst⟩ := Table.first_of_insertionSort
    (p := fun a => Usable registry breakers a.providerId) hrows
    fun a ha => hl _ (List.mem_map.mpr ⟨a, ha, rfl⟩)
  refine ⟨r, hr.1, p, hp, ⟨hr.2, by rw [hid]; exact hu⟩, hid, fun a ha hc => ?_⟩
  exact hfirst a (List.mem_filter.mpr ⟨ha, decide_eq_true hc.1⟩) hc.2

/-- **The runbook works for the selection**: it does not return a provider whose routes in the
country were deactivated, as long as there is another route to take. -/
theorem selectProvider_of_deactivate (hδ : ∀ o, (δ o).fail = none) {t : RouteTable}
    {providerId : String}
    (h : ∃ r ∈ t.deactivate providerId country,
      Candidate registry breakers country currency method r) :
    ∃ p, ((selectProvider registry breakers country currency method.text).run δ
        (.cold (t.deactivate providerId country))).result = .ok p ∧ p.id ≠ providerId := by
  obtain ⟨r, hr, p, hp, hc, hid, -⟩ := selectProvider_spec
    (s := .cold (t.deactivate providerId country)) hδ rfl h
  refine ⟨p, hp, fun he => ?_⟩
  obtain ⟨a, -, rfl⟩ := RouteTable.mem_deactivate.mp hr
  obtain ⟨hcountry, -, -, hactive⟩ := hc.1
  by_cases hset : a.providerId = providerId ∧ a.country = country
  · simp [setInactive, if_pos hset] at hactive
  · simp only [setInactive, if_neg hset] at hcountry hid
    exact hset ⟨hid.trans he, hcountry⟩

end Run

end RoutingService

end Pasarela
