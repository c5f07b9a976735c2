import Mathlib.Logic.Relation
import Pasarela.ChargeAmounts
import Pasarela.RollingBreaker
import Pasarela.Routing

/-!
# The breakers that the routing looks at

The routing reads the breaker under the id of a provider, in the service that the modules share. The
adapter of MercadoPago has its breakers under another name there, and the module of Stripe has a
service of its own.

* `BreakerServices`: both services. `ServiceStep`: the calls of the adapters, and what happens to
  their breakers.
* `OwnAvailable`: the breaker of a provider's own `createCharge` is closed, or there is none yet.
* `RoutesAround`: the selection returns the first provider that registered and is available.
* `NoneHidden`: no provider whose breaker the routing does not see stands before it
  (`routes_around_iff`).
-/

namespace Pasarela

open Store (Table)
open RoutingService (Usable providerIds selectProvider)

/-! ## The services -/

/-- The breakers of the service that the modules share, and those of the module of Stripe. -/
structure BreakerServices (lib : BreakerLib) where
  shared : String → Option lib.Breaker
  stripe : String → Option lib.Breaker

section Services

variable {lib : BreakerLib}

/-- The breakers of the service that an adapter was given. -/
def BreakerServices.of (s : BreakerServices lib) : RemoteAdapter → String → Option lib.Breaker
  | .stripe => s.stripe
  | _ => s.shared

/-- A breaker of the service that an adapter was given is replaced. -/
def BreakerServices.put (s : BreakerServices lib) (a : RemoteAdapter) (key : String)
    (b : lib.Breaker) : BreakerServices lib :=
  match a with
  | .stripe => { s with stripe := Function.update s.stripe key (some b) }
  | _ => { s with shared := Function.update s.shared key (some b) }

def BreakerServices.getOrCreate (s : BreakerServices lib) (a : RemoteAdapter) (key : String) :
    lib.Breaker :=
  (s.of a key).getD (lib.create (CircuitBreakerService.opossumOptions key {}))

inductive ServiceStep : BreakerServices lib → BreakerServices lib → Prop
  | call {s : BreakerServices lib} (a : RemoteAdapter) (m : AdapterMethod) {b : lib.Breaker}
      (h : lib.On .fire (s.getOrCreate a (a.breakerKey m)) b) :
      ServiceStep s (s.put a (a.breakerKey m) b)
  | event {s : BreakerServices lib} (a : RemoteAdapter) {key : String} (e : BreakerEvent)
      {b b' : lib.Breaker} (hb : s.of a key = some b) (h : lib.On e b b') :
      ServiceStep s (s.put a key b')

/-- No breaker was made yet. -/
def BreakerServices.start : BreakerServices lib := ⟨fun _ => none, fun _ => none⟩

/-- The services after some calls. -/
abbrev Called (s : BreakerServices lib) : Prop := Relation.ReflTransGen ServiceStep .start s

/-- What `healthOf` reads of the breakers of a service. -/
def healthBreakers (breakers : String → Option lib.Breaker) : CircuitBreakerService := fun key =>
  (breakers key).map fun b =>
    { opened := lib.state b = .opened, halfOpen := lib.state b matches .halfOpen _ }

/-- What the routing reads. -/
def BreakerServices.routed (s : BreakerServices lib) : CircuitBreakerService :=
  healthBreakers s.shared

/-- The breaker of a provider's own `createCharge` is closed, or there is none (yet). -/
def OwnAvailable (s : BreakerServices lib) (id : String) : Prop :=
  ∀ a : RemoteAdapter, a.adapter.id = id →
    ((healthBreakers (s.of a)).healthOf (a.breakerKey .createCharge)).Available

end Services

/-! ## The selection -/

def Registered (registry : ProviderRegistry) (id : String) : Prop := ∃ p, registry.get id = .ok p

/-- The providers are adapters of the repository. -/
def OfAdapters (registry : ProviderRegistry) : Prop :=
  ∀ id, Registered registry id → ∃ a : Adapter, a.id = id

section Selection

variable {lib : BreakerLib} (registry : ProviderRegistry) (s : BreakerServices lib)

/-- The provider registered, and its own breaker is closed or not made yet. -/
def OwnUsable (id : String) : Prop := Registered registry id ∧ OwnAvailable s id

/-- If the list has such a provider, the first one is the result. -/
def RoutesAround (ids : List String) (result : Except Err PaymentProvider) : Prop :=
  (∃ id ∈ ids, OwnUsable registry s id) →
    ∃ p l₁ l₂, result = .ok p ∧ ids = l₁ ++ p.id :: l₂ ∧ OwnUsable registry s p.id ∧
      ∀ id ∈ l₁, ¬ OwnUsable registry s id

/-- Before the first such provider, neither Stripe nor MercadoPago stands in the list, if it
registered. -/
def NoneHidden (ids : List String) : Prop :=
  ∀ l₁ id l₂, ids = l₁ ++ id :: l₂ → OwnUsable registry s id →
    (∀ x ∈ l₁, ¬ OwnUsable registry s x) →
    ∀ x ∈ l₁, Registered registry x → x ≠ "stripe" ∧ x ≠ "mercadopago"

end Selection

/-! ### The keys -/

section Keys

variable {lib : BreakerLib} {s s' : BreakerServices lib}

/-- The shared service has the breakers of the other adapters, under their keys. -/
def SharedKeys (s : BreakerServices lib) : Prop :=
  ∀ key, s.shared key ≠ none → ∃ a m, a ≠ RemoteAdapter.stripe ∧ key = a.breakerKey m

theorem sharedKeys_put {a : RemoteAdapter} {key : String} {b : lib.Breaker} (h : SharedKeys s)
    (hkey : a ≠ .stripe → ∃ a' m, a' ≠ RemoteAdapter.stripe ∧ key = a'.breakerKey m) :
    SharedKeys (s.put a key b) := by
  have hupdate : a ≠ .stripe →
      ∀ k, Function.update s.shared key (some b) k ≠ none →
        ∃ a m, a ≠ RemoteAdapter.stripe ∧ k = a.breakerKey m := by
    intro ha k hk
    by_cases hkk : k = key
    · rw [hkk]
      exact hkey ha
    · rw [Function.update_of_ne hkk] at hk
      exact h k hk
  cases a with
  | stripe => exact h
  | _ => exact hupdate nofun

theorem of_eq_shared {a : RemoteAdapter} (ha : a ≠ .stripe) : s.of a = s.shared := by
  cases a with
  | stripe => exact absurd rfl ha
  | _ => rfl

/-- **The keys of the shared service**, after any calls. -/
theorem Called.sharedKeys (h : Called s) : SharedKeys s := by
  induction h with
  | refl => exact fun key hkey => absurd rfl hkey
  | tail _ hstep ih =>
    cases hstep with
    | call a m h => exact sharedKeys_put ih fun ha => ⟨a, m, ha, rfl⟩
    | @event a key e b b' hb h =>
      refine sharedKeys_put ih fun ha => ih key fun hnone => ?_
      rw [of_eq_shared ha, hnone] at hb
      cases hb

theorem shared_eq_none (h : SharedKeys s) {key : String}
    (hkey : ∀ a m, a ≠ RemoteAdapter.stripe → a.breakerKey m ≠ key) : s.shared key = none := by
  by_contra hne
  obtain ⟨a, m, ha, he⟩ := h key hne
  exact hkey a m ha he.symm

theorem available_of_none {breakers : String → Option lib.Breaker} {key : String}
    (h : breakers key = none) : ((healthBreakers breakers).healthOf key).Available := by
  right
  unfold CircuitBreakerService.healthOf healthBreakers
  rw [h]
  rfl

/-- The routing never finds a breaker of Stripe or of MercadoPago, and `FakeProvider` has none. -/
theorem available_of_hidden (h : SharedKeys s) {a : Adapter}
    (ha : a = .stripe ∨ a = .mercadopago ∨ a = .fake) :
    (s.routed.healthOf (a.id ++ ":createCharge")).Available := by
  have hkey : ∀ b m, b ≠ RemoteAdapter.stripe → b.breakerKey m ≠ a.id ++ ":createCharge" := by
    intro b m hb
    rcases ha with rfl | rfl | rfl <;> cases b <;> cases m <;> first | decide | exact absurd rfl hb
  exact available_of_none (shared_eq_none h hkey)

/-- The breaker of an adapter that asks a provider. -/
theorem ownAvailable_iff (a : RemoteAdapter) :
    OwnAvailable s a.adapter.id ↔
      ((healthBreakers (s.of a)).healthOf (a.breakerKey .createCharge)).Available := by
  have hinj : ∀ a b : RemoteAdapter, a.adapter.id = b.adapter.id → a = b := by
    intro a b
    cases a <;> cases b <;> decide
  constructor
  · exact fun h => h a rfl
  · intro h b hb
    rw [hinj b a hb]
    exact h

/-- An adapter whose breaker is in the shared service, under its id. -/
theorem available_iff_of_seen (a : RemoteAdapter) (ha : a ≠ .stripe)
    (hkey : a.adapter.id ++ ":createCharge" = a.breakerKey .createCharge)
    (hs : a.adapter.id ≠ "stripe") (hm : a.adapter.id ≠ "mercadopago") :
    (s.routed.healthOf (a.adapter.id ++ ":createCharge")).Available ↔
      a.adapter.id = "stripe" ∨ a.adapter.id = "mercadopago" ∨ OwnAvailable s a.adapter.id := by
  rw [hkey, BreakerServices.routed, ownAvailable_iff, of_eq_shared ha]
  constructor
  · exact fun h => .inr (.inr h)
  · rintro (he | he | h)
    · exact absurd he hs
    · exact absurd he hm
    · exact h

/-- **What the loop of the routing can take**, after any calls. -/
theorem usable_iff {registry : ProviderRegistry} (hreg : OfAdapters registry) (h : Called s)
    {id : String} :
    Usable registry s.routed id ↔
      Registered registry id ∧ (id = "stripe" ∨ id = "mercadopago" ∨ OwnAvailable s id) := by
  rw [Usable, and_comm]
  refine and_congr_right fun hid => ?_
  obtain ⟨a, rfl⟩ := hreg id hid
  have hkeys := h.sharedKeys
  cases a with
  | stripe => exact iff_of_true (available_of_hidden hkeys (.inl rfl)) (.inl rfl)
  | mercadopago => exact iff_of_true (available_of_hidden hkeys (.inr (.inl rfl))) (.inr (.inl rfl))
  | fake =>
    refine iff_of_true (available_of_hidden hkeys (.inr (.inr rfl))) (.inr (.inr fun b hb => ?_))
    exact absurd hb (by cases b <;> decide)
  -- the three whose breakers the routing does find
  | pagarme => exact available_iff_of_seen .pagarme (by decide) (by decide) (by decide) (by decide)
  | conekta => exact available_iff_of_seen .conekta (by decide) (by decide) (by decide) (by decide)
  | dlocal => exact available_iff_of_seen .dlocal (by decide) (by decide) (by decide) (by decide)

end Keys

/-! ## The routing -/

section Routing

variable {lib : BreakerLib} {registry : ProviderRegistry} {s : BreakerServices lib}
  {country currency method : String} {δ : RouteOp → Decision} {st : RouteStore}
  {ids : List String}

/-- **The routing avoids the breakers that are not closed** exactly when it sees all that stand
before the provider to take. -/
theorem routes_around_iff (hreg : OfAdapters registry) (h : Called s)
    (hids : ((providerIds country currency method).run δ st).result = .ok ids) :
    RoutesAround registry s ids
        ((selectProvider registry s.routed country currency method).run δ st).result ↔
      NoneHidden registry s ids := by
  have hown : ∀ id, OwnUsable registry s id → Usable registry s.routed id := fun id ho =>
    (usable_iff hreg h).mpr ⟨ho.1, .inr (.inr ho.2)⟩
  constructor
  · intro hr l₁ id l₂ hl ho hl₁ x hx hxreg
    have hid : id ∈ ids := by
      rw [hl]
      exact List.mem_append_right _ List.mem_cons_self
    obtain ⟨p, m₁, m₂, hp, hm, hpo, hm₁⟩ := hr ⟨id, hid, ho⟩
    obtain ⟨q, k₁, k₂, hq, hk, -, hk₁⟩ :=
      RoutingService.run_selectProvider_first hids ⟨id, hid, hown id ho⟩
    -- the provider that the loop took is the one to take
    obtain rfl : p = q := Except.ok.inj (hp.symm.trans hq)
    have hk₁o : ∀ x ∈ k₁, ¬ OwnUsable registry s x := fun x hx ho => hk₁ x hx (hown x ho)
    obtain ⟨rfl, -⟩ := Table.first_unique (hl.symm.trans hk) ho hpo hl₁ hk₁o
    have hxu : ¬ (x = "stripe" ∨ x = "mercadopago" ∨ OwnAvailable s x) := fun hc =>
      hk₁ x hx ((usable_iff hreg h).mpr ⟨hxreg, hc⟩)
    exact ⟨fun he => hxu (.inl he), fun he => hxu (.inr (.inl he))⟩
  · intro hn ho
    obtain ⟨l₁, id, l₂, hl, ho, hl₁⟩ := Table.exists_first ho
    have hid : id ∈ ids := by
      rw [hl]
      exact List.mem_append_right _ List.mem_cons_self
    obtain ⟨p, k₁, k₂, hp, hk, hpu, hk₁⟩ :=
      RoutingService.run_selectProvider_first hids ⟨id, hid, hown id ho⟩
    -- the loop can take none of those before it either
    have hl₁u : ∀ x ∈ l₁, ¬ Usable registry s.routed x := by
      intro x hx hu
      obtain ⟨hxreg, hc⟩ := (usable_iff hreg h).mp hu
      obtain ⟨hstripe, hmp⟩ := hn l₁ id l₂ hl ho hl₁ x hx hxreg
      rcases hc with he | he | ha
      · exact hstripe he
      · exact hmp he
      · exact hl₁ x hx ⟨hxreg, ha⟩
    obtain ⟨rfl, rfl⟩ := Table.first_unique (hl.symm.trans hk) (hown id ho) hpu hl₁u hk₁
    exact ⟨p, l₁, k₂, hp, hk, ho, hl₁⟩

end Routing

/-! ## Failing charges -/

section Fails

variable {s : BreakerServices rolling}

theorem of_put {lib : BreakerLib} {s : BreakerServices lib} {a : RemoteAdapter} {key : String}
    {b : lib.Breaker} : (s.put a key b).of a key = some b := by
  cases a with
  | _ => exact Function.update_self ..

/-- The services after a charge that fails. -/
def BreakerServices.failed (s : BreakerServices rolling) (a : RemoteAdapter) :
    BreakerServices rolling :=
  let key := a.breakerKey .createCharge
  let b := RollingBreaker.on .fire (s.getOrCreate a key)
  (s.put a key b).put a key (b.on .failure)

theorem Called.failed (h : Called s) (a : RemoteAdapter) : Called (s.failed a) :=
  (h.tail (.call a .createCharge rfl)).tail (.event a .failure of_put rfl)

/-- The services after some charges that fail. -/
def BreakerServices.failing (a : RemoteAdapter) : Nat → BreakerServices rolling
  | 0 => .start
  | n + 1 => (failing a n).failed a

theorem called_failing (a : RemoteAdapter) (n : Nat) : Called (BreakerServices.failing a n) := by
  induction n with
  | zero => exact .refl
  | succ n ih => exact ih.failed a

end Fails

/-- MercadoPago and dLocal, without their webhooks. -/
def twoAdapters : ProviderRegistry where
  providers := [
    ⟨"mercadopago", ["PE"], ["PEN"], fun _ _ => .error (.other "")⟩,
    ⟨"dlocal", ["PE"], ["PEN"], fun _ _ => .error (.other "")⟩]
  nodup := by decide

theorem ofAdapters_twoAdapters : OfAdapters twoAdapters := by
  rintro id ⟨p, hp⟩
  unfold ProviderRegistry.get at hp
  split at hp
  · rename_i q hq
    obtain rfl : q.id = id := by simpa using List.find?_some hq
    rcases List.mem_cons.mp (List.mem_of_find?_eq_some hq) with rfl | hq
    · exact ⟨.mercadopago, rfl⟩
    · rw [List.mem_singleton.mp hq]
      exact ⟨.dlocal, rfl⟩
  · cases hp

/-- No routes, and the cache of one key. -/
def cachedRoutes (ids : List String) : RouteStore where
  routes := ⟨[], .nil, .nil⟩
  cache := fun key => if key = RoutingService.cacheKey "PE" "PEN" "CARD" then some ids else none

/-- Requests that do not fail. -/
def noneFails : RouteOp → Decision := fun _ => {}

/-- Five charges of MercadoPago failed, and its breaker opened. -/
abbrev mercadopagoFailing : BreakerServices rolling := .failing .mercadopago 5

theorem ownUsable_dlocal : OwnUsable twoAdapters mercadopagoFailing "dlocal" := by
  refine ⟨⟨_, rfl⟩, (ownAvailable_iff .dlocal).mpr ?_⟩
  decide +kernel

/-- dLocal stands first, so the routing need not see the breaker of MercadoPago. -/
theorem routes_around_mercadopago :
    RoutesAround twoAdapters mercadopagoFailing ["dlocal", "mercadopago"]
      ((selectProvider twoAdapters mercadopagoFailing.routed "PE" "PEN" "CARD").run noneFails
        (cachedRoutes ["dlocal", "mercadopago"])).result := by
  refine (routes_around_iff ofAdapters_twoAdapters (called_failing .mercadopago 5) rfl).mpr ?_
  intro l₁ id l₂ hl ho hl₁ x hx _
  obtain ⟨rfl, -⟩ : [] = l₁ ∧ "dlocal" = id :=
    Table.first_unique hl ownUsable_dlocal ho (fun _ hx => absurd hx List.not_mem_nil) hl₁
  exact absurd hx List.not_mem_nil

/-- With MercadoPago first, the routing takes it, with its breaker open and dLocal behind it. -/
theorem routes_into_mercadopago :
    ¬ RoutesAround twoAdapters mercadopagoFailing ["mercadopago", "dlocal"]
        ((selectProvider twoAdapters mercadopagoFailing.routed "PE" "PEN" "CARD").run noneFails
          (cachedRoutes ["mercadopago", "dlocal"])).result ∧
      Called mercadopagoFailing ∧
      (mercadopagoFailing.of .mercadopago "mp:createCharge").map rolling.state = some .opened := by
  refine ⟨fun h => ?_, called_failing .mercadopago 5, by decide +kernel⟩
  obtain ⟨p, l₁, l₂, hp, -, ho, -⟩ := h ⟨"dlocal", by decide, ownUsable_dlocal⟩
  have hid : p.id = "mercadopago" := by
    cases hp
    rfl
  rw [hid] at ho
  exact absurd ((ownAvailable_iff .mercadopago).mp ho.2) (by decide +kernel)

end Pasarela
