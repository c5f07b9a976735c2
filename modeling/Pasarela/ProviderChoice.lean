import Pasarela.Effects
import Pasarela.Payments
import Pasarela.Routing

/-!
# Who is charged, and the route table

`create` takes the provider that registered first among those that declare the country and the
currency (`FirstFor`). `RoutingService.selectProvider` takes one with a route of the highest
priority (`RoutingService.selectProvider_spec`). `FollowsRoutes` says that `create` charges what the
selection returns; it does exactly when the two rules agree on the routes of the request
(`create_follows_routes_iff`). An operator who deactivates routes changes the second rule only
(`create_ignores_deactivation`).
-/

namespace Pasarela

open Conc (Outcome Prog)
open PaymentsService
open RoutingService (Candidate)

/-- The provider declares the country and the currency. -/
def PaymentProvider.Declares (country currency : String) (p : PaymentProvider) : Prop :=
  country ∈ p.countries ∧ currency ∈ p.currencies

/-- The provider declares the country and the currency, and none that registered before it does. -/
structure FirstFor (registry : ProviderRegistry) (country currency : String)
    (p : PaymentProvider) : Prop where
  declares : p.Declares country currency
  first : ∃ l₁ l₂, registry.providers = l₁ ++ p :: l₂ ∧ ∀ q ∈ l₁, ¬ q.Declares country currency

theorem selectFor_ok {registry : ProviderRegistry} {country currency : String}
    {p : PaymentProvider} :
    registry.selectFor country currency = .ok p ↔ FirstFor registry country currency p := by
  have hdeclares : ∀ q : PaymentProvider,
      (q.countries.contains country && q.currencies.contains currency) = true ↔
        q.Declares country currency := fun q => by
    simp [PaymentProvider.Declares]
  have hfind : registry.selectFor country currency = .ok p ↔ registry.providers.find?
      (fun q => q.countries.contains country && q.currencies.contains currency) = some p := by
    unfold ProviderRegistry.selectFor
    split
    · rename_i q hq
      rw [hq]
      simp
    · rename_i hq
      rw [hq]
      simp
  rw [hfind, List.find?_eq_some_iff_append]
  constructor
  · rintro ⟨hp, l₁, l₂, hl, hn⟩
    refine ⟨(hdeclares p).mp hp, l₁, l₂, hl, fun q hq hd => ?_⟩
    have := hn q hq
    rw [(hdeclares q).mpr hd] at this
    cases this
  · rintro ⟨hp, l₁, l₂, hl, hn⟩
    refine ⟨(hdeclares p).mpr hp, l₁, l₂, hl, fun q hq => ?_⟩
    rw [Bool.not_eq_true']
    exact Bool.eq_false_iff.mpr fun hd => hn q hq ((hdeclares q).mp hd)

theorem FirstFor.unique {registry : ProviderRegistry} {country currency : String}
    {p q : PaymentProvider} (hp : FirstFor registry country currency p)
    (hq : FirstFor registry country currency q) : p = q :=
  Except.ok.inj ((selectFor_ok.mpr hp).symm.trans (selectFor_ok.mpr hq))

/-! ## The charges of `create` -/

/-- The provider that the request charges. -/
def Op.chargedAt : Op → Option String
  | .createCharge providerId _ => some providerId
  | _ => none

/-- The providers that the run charged. -/
def charged {α : Type} (o : Outcome machine α) : List String :=
  o.trace.filterMap fun e => e.op.chargedAt

/-- The lookup of the key. -/
abbrev keyLookup (key : String) (ctx : OrgContext) : Op :=
  .findPayment { organizationId := some ctx.organizationId, idempotencyKey := some key }

/-- The run comes to its charge, if `create` finds a provider: the lookup finds no payment with the
key, and the insert commits. -/
structure Unhindered (ω : Op → Decision) (dto : CreatePaymentDto) (key : String) (ctx : OrgContext)
    (s : World) : Prop where
  unused : exec (keyLookup key ctx) (ω (keyLookup key ctx)) s = (.ok none, s)
  inserts : ∀ providerId method, ∃ p s',
    exec (.insertPayment ctx.organizationId dto key providerId method)
      (ω (.insertPayment ctx.organizationId dto key providerId method))
      (s.addPending dto.country 1) = (.ok p, s')

section Charges

variable {registry : ProviderRegistry} {dto : CreatePaymentDto} {key : String} {ctx : OrgContext}
  {ω : Op → Decision} {s : World}

/-- The request is no charge, or one at the first provider for the country and the currency. -/
def OnlyFirst (registry : ProviderRegistry) (dto : CreatePaymentDto) (o : Op) : Prop :=
  ∀ id, o.chargedAt = some id → ∃ q, FirstFor registry dto.country dto.currency q ∧ id = q.id

theorem onlyFirst_of_none {o : Op} (h : o.chargedAt = none) : OnlyFirst registry dto o :=
  fun id hid => by rw [h] at hid; cases hid

theorem asks_chargeFailed (p : Payment) (e : Err) :
    Prog.Asks (M := machine) (fun o => o.chargedAt = none) (chargeFailed dto p e) := by
  unfold chargeFailed
  refine Prog.Asks.bind (.perform rfl) fun _ => ?_
  exact Prog.Asks.bind (.perform rfl) fun _ => trivial

/-- `charge` with its `catch`: one charge, and then none. -/
theorem charge_op (provider : PaymentProvider) (dto : CreatePaymentDto) (key : String)
    (ctx : OrgContext) (p : Payment) :
    ∃ k, (charge provider dto key ctx p).tryCatch (chargeFailed dto p) =
        .op (.createCharge provider.id (chargeInput dto key p)) k ∧
      ∀ r, Prog.Asks (M := machine) (fun o => o.chargedAt = none) (k r) := by
  refine ⟨_, rfl, fun r => .tryCatch ?_ (asks_chargeFailed p)⟩
  cases r with
  | error e => trivial
  | ok result =>
    show Prog.Asks (M := machine) _
      ((request (.recordCharge p result (mapProviderStatus result.status))).bind _)
    refine Prog.Asks.bind (.perform rfl) fun updated => ?_
    refine Prog.Asks.bind (.perform rfl) fun _ => ?_
    exact Prog.Asks.bind (.perform rfl) fun _ => trivial

theorem asks_createNew : (createNew registry dto key ctx).Asks (OnlyFirst registry dto) := by
  cases hsel : registry.selectFor dto.country dto.currency with
  | error e =>
    rw [createNew, hsel]
    trivial
  | ok provider =>
    cases hmethod : toPrismaMethod dto.method with
    | error e =>
      rw [createNew_of_bad_method hsel hmethod]
      exact Prog.Asks.bind (.perform (onlyFirst_of_none rfl)) fun _ => trivial
    | ok method =>
      rw [createNew_of_ok hsel hmethod]
      refine Prog.Asks.bind (.perform (onlyFirst_of_none rfl)) fun _ => ?_
      refine Prog.Asks.bind (.perform (onlyFirst_of_none rfl)) fun p => ?_
      obtain ⟨k, hop, hk⟩ := charge_op provider dto key ctx p
      rw [hop]
      refine ⟨fun id hid => ⟨provider, selectFor_ok.mp hsel, ?_⟩, fun r => ?_⟩
      · exact (Option.some.inj hid).symm
      · exact (hk r).mono fun o => onlyFirst_of_none

/-- Every charge that `create` may ask for is at the provider that registered first. -/
theorem asks_create {idempotencyKey : Option String} :
    (create registry dto idempotencyKey ctx).Asks (OnlyFirst registry dto) := by
  cases hkey : checkKey idempotencyKey with
  | error e =>
    rw [create, hkey]
    trivial
  | ok key =>
    obtain ⟨f, hcreate, hsome, hnone⟩ := create_of_key registry dto ctx hkey
    rw [hcreate]
    refine Prog.Asks.bind (.perform (onlyFirst_of_none rfl)) fun existing => ?_
    cases existing with
    | some p =>
      rw [hsome]
      trivial
    | none =>
      rw [hnone]
      exact asks_createNew

theorem charged_first {idempotencyKey : Option String} {id : String}
    (h : id ∈ charged ((create registry dto idempotencyKey ctx).run ω s)) :
    ∃ q, FirstFor registry dto.country dto.currency q ∧ id = q.id := by
  obtain ⟨e, he, hid⟩ := List.mem_filterMap.mp h
  exact asks_create.run s e he id hid

/-- A run that comes to its charge makes one, if the method is known. -/
theorem charged_of_unhindered {idempotencyKey : Option String} {method : PaymentMethodKind}
    {q : PaymentProvider} (hkey : checkKey idempotencyKey = .ok key)
    (hq : FirstFor registry dto.country dto.currency q)
    (hmethod : toPrismaMethod dto.method = .ok method) (h : Unhindered ω dto key ctx s) :
    charged ((create registry dto idempotencyKey ctx).run ω s) = [q.id] := by
  obtain ⟨f, hcreate, -, hnone⟩ := create_of_key registry dto ctx hkey
  obtain ⟨p, s', hinsert⟩ := h.inserts q.id method
  rw [hcreate, Prog.run_perform_ok (M := machine) h.unused, hnone,
    createNew_of_ok (selectFor_ok.mpr hq) hmethod, run_incrementPending,
    Prog.run_perform_ok (M := machine) hinsert]
  obtain ⟨k, hop, hk⟩ := charge_op q dto key ctx p
  rw [hop, Prog.run_op]
  have htail : ∀ (r : Except Err ChargeResult) (s : World), charged ((k r).run ω s) = [] := by
    intro r s
    rw [charged, List.filterMap_eq_nil_iff]
    exact (hk r).run s
  simp only [charged, Outcome.after_trace, List.filterMap_append] at htail ⊢
  rw [htail]
  rfl

/-- An environment in which nothing fails, with an empty database. -/
theorem unhindered_empty : Unhindered (fun _ => {}) dto key ctx World.empty := by
  refine ⟨rfl, fun providerId method => ?_⟩
  apply exec_insertPayment_of_fresh
  · rfl
  · exact fun c hc => absurd hc Store.Table.not_mem_empty
  · exact fun p hp => absurd hp Store.Table.not_mem_empty
  · exact fun p hp => absurd hp Store.Table.not_mem_empty
  · exact fun e he => absurd he Store.Table.not_mem_empty

end Charges

/-! ## The two rules -/

section Rules

variable (registry : ProviderRegistry) (breakers : CircuitBreakerService) (t : RouteTable)
  (dto : CreatePaymentDto) (method : PaymentMethodKind)

/-- What the selection returns for the request, from an empty cache. -/
def selected (δ : RouteOp → Decision) : Except Err PaymentProvider :=
  ((RoutingService.selectProvider registry breakers dto.country dto.currency method.text).run δ
    (.cold t)).result

/-- A route that the selection can take for the request. -/
abbrev Eligible (r : ProviderRoute) : Prop :=
  Candidate registry breakers dto.country dto.currency method r

/-- The selection returns a provider, and the runs of `create` charge that one and no other: all of
them, if they come to their charge. -/
def FollowsRoutes : Prop :=
  ∀ δ, (∀ o, (δ o).fail = none) → ∃ p, selected registry breakers t dto method δ = .ok p ∧
    ∀ ctx idempotencyKey ω s,
      (∀ id ∈ charged ((create registry dto idempotencyKey ctx).run ω s), id = p.id) ∧
      ∀ key, checkKey idempotencyKey = .ok key → Unhindered ω dto key ctx s →
        charged ((create registry dto idempotencyKey ctx).run ω s) = [p.id]

/-- The eligible routes of the highest priority lead to the provider that registered first among
those that declare the country and the currency. -/
def RulesAgree : Prop :=
  ∃ q, FirstFor registry dto.country dto.currency q ∧
    ∀ r ∈ t, Eligible registry breakers dto method r →
      (∀ a ∈ t, Eligible registry breakers dto method a → a.priority ≤ r.priority) →
      r.providerId = q.id

variable {registry breakers t dto method}

/-- What the selection may return: the provider of an eligible route of the highest priority. -/
theorem selected_top {δ : RouteOp → Decision} (hδ : ∀ o, (δ o).fail = none)
    (h : ∃ r ∈ t, Eligible registry breakers dto method r) :
    ∃ p, selected registry breakers t dto method δ = .ok p ∧
      ∃ r ∈ t, Eligible registry breakers dto method r ∧ r.providerId = p.id ∧
        ∀ a ∈ t, Eligible registry breakers dto method a → a.priority ≤ r.priority := by
  obtain ⟨r, hr, p, hp, hc, hid, hbefore⟩ := RoutingService.selectProvider_spec
    (s := .cold t) hδ rfl h
  refine ⟨p, hp, r, hr, hc, hid, fun a ha hca => ?_⟩
  rcases hbefore a ha hca with rfl | hb
  · exact le_refl _
  · exact hb.priority_le

/-- A decision of the database that returns the route before the others of its priority. -/
def preferring (r : ProviderRoute) : Decision := { rank := fun id => if id = r.id then 0 else 1 }

/-- Each eligible route of the highest priority is taken under some order of the rows. -/
theorem selected_preferring {r : ProviderRoute} (hr : r ∈ t)
    (hc : Eligible registry breakers dto method r)
    (htop : ∀ a ∈ t, Eligible registry breakers dto method a → a.priority ≤ r.priority) :
    ∃ p, selected registry breakers t dto method (fun _ => preferring r) = .ok p ∧
      r.providerId = p.id := by
  obtain ⟨r', hr', p, hp, hc', hid, hbefore⟩ := RoutingService.selectProvider_spec
    (s := .cold t) (δ := fun _ => preferring r) (fun _ => rfl) rfl ⟨r, hr, hc⟩
  refine ⟨p, hp, ?_⟩
  rcases hbefore r hr hc with rfl | hlt | ⟨-, hrank⟩
  · exact hid
  · exact absurd (htop r' hr' hc') (by omega)
  · -- the rank of `r` is 0, so that of `r'` is too
    have hsame : r'.id = r.id := by
      by_contra hne
      simp [RoutingService.order, preferring, hne] at hrank
    rw [← Store.Table.eq_of_key hr' hr hsame]
    exact hid

/-- **`create` charges the provider that the route table selects, exactly when** the eligible routes
of the highest priority lead to the provider that registered first. -/
theorem create_follows_routes_iff (registry : ProviderRegistry) (breakers : CircuitBreakerService)
    (t : RouteTable) (dto : CreatePaymentDto) (method : PaymentMethodKind)
    (hmethod : toPrismaMethod dto.method = .ok method)
    (hroute : ∃ r ∈ t, Eligible registry breakers dto method r) :
    FollowsRoutes registry breakers t dto method ↔
      RulesAgree registry breakers t dto method := by
  constructor
  · intro h
    -- one run that comes to its charge, for each order of the rows
    have hone : ∀ δ, (∀ o, (δ o).fail = none) → ∃ p,
        selected registry breakers t dto method δ = .ok p ∧
          ∃ q, FirstFor registry dto.country dto.currency q ∧ p.id = q.id := by
      intro δ hδ
      obtain ⟨p, hp, hruns⟩ := h δ hδ
      have hcharged := (hruns sampleCtx (some "key") (fun _ => {}) World.empty).2 "key" rfl
        unhindered_empty
      exact ⟨p, hp, charged_first (by rw [hcharged]; exact List.mem_singleton.mpr rfl)⟩
    obtain ⟨-, -, q, hq, -⟩ := hone (fun _ => {}) fun _ => rfl
    refine ⟨q, hq, fun r hr hc htop => ?_⟩
    obtain ⟨p, hp, hid⟩ := selected_preferring hr hc htop
    obtain ⟨p', hp', q', hq', hid'⟩ := hone (fun _ => preferring r) fun _ => rfl
    obtain rfl : p = p' := Except.ok.inj (hp.symm.trans hp')
    obtain rfl : q = q' := hq.unique hq'
    exact hid.trans hid'
  · rintro ⟨q, hq, hagree⟩ δ hδ
    obtain ⟨p, hp, r, hr, hc, hid, htop⟩ := selected_top hδ hroute
    have hpq : p.id = q.id := hid.symm.trans (hagree r hr hc htop)
    refine ⟨p, hp, fun ctx idempotencyKey ω s => ⟨fun id h => ?_, fun key hkey hun => ?_⟩⟩
    · obtain ⟨q', hq', rfl⟩ := charged_first h
      obtain rfl : q = q' := hq.unique hq'
      exact hpq.symm
    · rw [hpq]
      exact charged_of_unhindered hkey hq hmethod hun

end Rules

/-! ## The runbook -/

/-- The adapters of two providers, with the countries and currencies that they declare. -/
def usRegistry : ProviderRegistry :=
  (ProviderRegistry.empty.register ⟨"stripe",
    ["US", "GB", "DE", "FR", "ES", "IT", "BR", "MX", "AR"],
    ["USD", "EUR", "GBP", "BRL", "MXN", "ARS"], fun _ _ => .error (.other "")⟩).register ⟨"dlocal",
    ["PE", "CL", "CO", "UY", "BO", "PY", "CR", "GT", "EC"],
    ["PEN", "CLP", "COP", "UYU", "BOB", "PYG", "CRC", "GTQ", "USD"], fun _ _ => .error (.other "")⟩

def usRoutes : RouteTable where
  rows := [
    ⟨"r1", "US", "USD", .card, "stripe", 100, true⟩,
    ⟨"r2", "US", "USD", .card, "dlocal", 1, true⟩]
  nodup_key := by decide
  nodup_uniq := by decide

def allClosed : CircuitBreakerService := fun _ => some ⟨false, false⟩

def usDto : CreatePaymentDto := { sampleDto with country := "US", currency := "USD" }

theorem usRoutes_followed : FollowsRoutes usRegistry allClosed usRoutes usDto .card := by
  have hstripe : Eligible usRegistry allClosed usDto .card
      ⟨"r1", "US", "USD", .card, "stripe", 100, true⟩ := ⟨by decide, .inl rfl, _, rfl⟩
  refine (create_follows_routes_iff usRegistry allClosed usRoutes usDto .card rfl
    ⟨_, List.mem_cons_self, hstripe⟩).mpr ⟨_, selectFor_ok.mp rfl, fun r hr _ htop => ?_⟩
  have h100 := htop _ List.mem_cons_self hstripe
  rcases List.mem_cons.mp hr with rfl | hr
  · rfl
  · rw [List.mem_singleton.mp hr] at h100
    cases h100

/-- The routes of one provider are deactivated, those of the other are not, every breaker is closed:
`create` still charges the first one. -/
theorem create_ignores_deactivation :
    (∃ r ∈ usRoutes.deactivate "stripe" "US", Eligible usRegistry allClosed usDto .card r) ∧
      charged ((create usRegistry usDto (some "key") sampleCtx).run (fun _ => {}) .empty) =
        ["stripe"] ∧
      ¬ FollowsRoutes usRegistry allClosed (usRoutes.deactivate "stripe" "US") usDto .card := by
  have hroute : ∃ r ∈ usRoutes.deactivate "stripe" "US",
      Eligible usRegistry allClosed usDto .card r :=
    ⟨_, RouteTable.mem_deactivate.mpr ⟨⟨"r2", "US", "USD", .card, "dlocal", 1, true⟩,
      List.mem_cons_of_mem _ List.mem_cons_self, rfl⟩, by decide, .inl rfl, _, rfl⟩
  have hcharged : charged ((create usRegistry usDto (some "key") sampleCtx).run (fun _ => {})
      .empty) = ["stripe"] :=
    charged_of_unhindered (q := ⟨"stripe", _, _, _⟩) rfl (selectFor_ok.mp rfl) rfl unhindered_empty
  refine ⟨hroute, hcharged, fun h => ?_⟩
  obtain ⟨p, hp, hruns⟩ := h (fun _ => {}) fun _ => rfl
  obtain ⟨p', hp', hne⟩ := RoutingService.selectProvider_of_deactivate (δ := fun _ => {})
    (fun _ => rfl) hroute
  obtain rfl : p = p' := Except.ok.inj (hp.symm.trans hp')
  have := (hruns sampleCtx (some "key") (fun _ => {}) .empty).1 "stripe" (by rw [hcharged]; simp)
  exact hne this.symm

end Pasarela
