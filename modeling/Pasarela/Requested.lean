import Pasarela.Durability

/-!
# What a payment was asked for

* `Requested`: the payment is what a call of `create` asked for: its organization, its key, its
  amount and its other fields are those of the request, its provider is the one that the registry
  selects, and its customer is the one of the organization that the request names.
* `Introduced`: the customer is as the call that named it first has it.
* `RequestedBy made w s`: the calls that made the rows. `made t` is the payment that the call `t`
  made: a call makes at most one, and no two make the same.
* `payments_requested`: however calls and workers interleave, every row that is not in the first
  database was made so.
-/

namespace Pasarela

open Conc (Any Conf Event Prog Proto)
open Store (Table)
open PaymentsService

section Calls

variable {ι : Type} (registry : ProviderRegistry) (calls : ι → ServiceCall)

/-- The customer of a payment, in the database `s`: the one of the organization that the request
names, if it names one. -/
structure NamesCustomer (dto : CreatePaymentDto) (org : String) (s : World)
    (customerId : Option String) : Prop where
  unnamed : dto.customerId.filter (· ≠ "") = none → customerId = none
  named : ∀ externalId, dto.customerId.filter (· ≠ "") = some externalId →
    ∃ c ∈ s.customers, customerId = some c.id ∧ c.tenantKey = (org, externalId)

/-- The payment is what the call `t` asked for (module doc). -/
structure Requested (t : ι) (s : World) (p : Payment) (dto : CreatePaymentDto)
    (idempotencyKey : Option String) (ctx : OrgContext) : Prop where
  call : calls t = .payments (.create dto idempotencyKey ctx)
  core : ∃ d key provider method, checkKey idempotencyKey = .ok key ∧
    registry.selectFor dto.country dto.currency = .ok provider ∧
    toPrismaMethod dto.method = .ok method ∧
    p.core = (newPayment d ctx.organizationId dto key provider.id method p.customerId).core
  customer : NamesCustomer dto ctx.organizationId s p.customerId

/-- The customer is the one that the call `t` named (module doc). -/
structure Introduced (t : ι) (c : Customer) (dto : CreatePaymentDto)
    (idempotencyKey : Option String) (ctx : OrgContext) : Prop where
  call : calls t = .payments (.create dto idempotencyKey ctx)
  named : dto.customerId.filter (· ≠ "") = some c.externalId
  tenant : c.tenantId = ctx.organizationId
  org : c.organizationId = ctx.organizationId
  email : c.email = dto.email
  country : c.country = some dto.country

/-- Each row was there in `w`, or was made by a call (module doc). -/
structure RequestedBy (made : ι → Option String) (w s : World) : Prop where
  durable : w.Durable s
  payments : ∀ p ∈ s.payments, (∃ q ∈ w.payments, q.core = p.core) ∨
    ∃ t dto key ctx, made t = some p.id ∧ Requested registry calls t s p dto key ctx
  customers : ∀ c ∈ s.customers, c ∈ w.customers ∨
    ∃ t dto key ctx, made t ≠ none ∧ Introduced calls t c dto key ctx
  there : ∀ t id, made t = some id → ∃ p ∈ s.payments, p.id = id
  new : ∀ t id, made t = some id → ∀ q ∈ w.payments, q.id ≠ id
  one : ∀ t u id, made t = some id → made u = some id → t = u

end Calls

/-! ## One request -/

section Step

variable {ι : Type} {registry : ProviderRegistry} {calls : ι → ServiceCall} {w s s' : World}
  {made : ι → Option String} {t : ι} {p q : Payment} {dto : CreatePaymentDto}
  {key : Option String} {ctx : OrgContext} {d : Decision}

/-- The request is not the insert. -/
def Op.notInsert (o : Op) : Prop :=
  ∀ org dto key providerId method, o ≠ .insertPayment org dto key providerId method

/-- The requests other than the insert write neither the core of a payment nor a customer. -/
theorem exec_cores {o : Op} {r : Except Err o.Ans} (ho : o.notInsert)
    (hx : exec o d s = (r, s')) :
    s'.payments.rows.map Payment.core = s.payments.rows.map Payment.core ∧
      s'.customers = s.customers := by
  have hwritten : ∀ {id : String} {f : Payment → Payment}
      {hf : Table.Keeps Payment.id Payment.tenantKey f} {ev : PaymentEvent} {q : Payment}
      {s' : World}, Written id f hf ev s q s' → (∀ p, (f p).core = p.core) →
      s'.payments.rows.map Payment.core = s.payments.rows.map Payment.core ∧
        s'.customers = s.customers := fun h hcore => ⟨map_core_update h.payments hcore, by rw [h.others]⟩
  by_cases hw : o.writesPayments = false
  · have hs := exec_others hw hx
    rw [hs]
    exact ⟨rfl, rfl⟩
  cases o with
  | insertPayment org dto key providerId method => exact absurd rfl (ho org dto key providerId method)
  | recordCharge payment result st =>
    rcases exec_recordCharge hx with ⟨e, -, rfl⟩ | ⟨q, -, h⟩
    · exact ⟨rfl, rfl⟩
    · exact hwritten h fun _ => rfl
  | failPayment payment message =>
    rcases exec_failPayment hx with ⟨e, -, rfl⟩ | ⟨q, -, hu, hs⟩
    · exact ⟨rfl, rfl⟩
    · exact ⟨map_core_update hu fun _ => rfl, by rw [hs]⟩
  | recordRefund payment st body amount result =>
    rcases exec_recordRefund hx with ⟨e, -, rfl⟩ | ⟨q, -, -, h⟩
    · exact ⟨rfl, rfl⟩
    · obtain ⟨hcore, hcust⟩ := hwritten h fun _ => rfl
      exact ⟨hcore, hcust⟩
  | applyWebhook payment st event =>
    rcases exec_applyWebhook hx with ⟨e, -, rfl⟩ | ⟨q, -, h⟩
    · exact ⟨rfl, rfl⟩
    · exact hwritten h fun _ => rfl
  | applyReconciliation payment st raw =>
    rcases exec_applyReconciliation hx with ⟨e, -, rfl⟩ | ⟨q, -, h⟩
    · exact ⟨rfl, rfl⟩
    · exact hwritten h fun _ => rfl
  | _ => exact absurd rfl hw

theorem NamesCustomer.durable {org : String} {customerId : Option String}
    (h : NamesCustomer dto org s customerId) (hd : s.Durable s') :
    NamesCustomer dto org s' customerId where
  unnamed := h.unnamed
  named externalId hx := by
    obtain ⟨c, hc, hid, hkey⟩ := h.named externalId hx
    exact ⟨c, hd.customers.subset hc, hid, hkey⟩

theorem Requested.later (h : Requested registry calls t s p dto key ctx) (hd : s.Durable s')
    (hc : q.core = p.core) : Requested registry calls t s' q dto key ctx := by
  refine ⟨h.call, ?_, ?_⟩
  · rw [hc, Payment.core_customer hc]
    exact h.core
  · rw [Payment.core_customer hc]
    exact h.customer.durable hd

theorem RequestedBy.start (w : World) : RequestedBy registry calls (fun _ => none) w w where
  durable := .refl w
  payments p hp := .inl ⟨p, hp, rfl⟩
  customers _ hc := .inl hc
  there _ _ h := by cases h
  new _ _ h := by cases h
  one _ _ _ h := by cases h

/-- A request that writes neither the core of a payment nor a customer. -/
theorem RequestedBy.next (h : RequestedBy registry calls made w s) (hd : s.Durable s')
    (hcore : s'.payments.rows.map Payment.core = s.payments.rows.map Payment.core)
    (hcust : s'.customers = s.customers) : RequestedBy registry calls made w s' where
  durable := h.durable.trans hd
  payments p hp := by
    have hmem : p.core ∈ s.payments.rows.map Payment.core := hcore ▸ List.mem_map_of_mem hp
    obtain ⟨q, hq, hc⟩ := List.mem_map.mp hmem
    rcases h.payments q hq with ⟨x, hx, hxc⟩ | ⟨t, dto, key, ctx, hmade, hreq⟩
    · exact .inl ⟨x, hx, hxc.trans hc⟩
    · exact .inr ⟨t, dto, key, ctx, hmade.trans (congrArg some (Payment.core_id hc)),
        hreq.later hd hc.symm⟩
  customers c hc := h.customers c (hcust ▸ hc)
  there t id hmade := by
    obtain ⟨p, hp, hid⟩ := h.there t id hmade
    obtain ⟨p', hp', hc⟩ := hd.later hp
    exact ⟨p', hp', (Payment.core_id hc).trans hid⟩
  new := h.new
  one := h.one

/-- The customer of a request: the database has the one that it names, which is new at most. -/
theorem upsertDtoCustomer_names {orgId : String} {customerId : Option String}
    (h : upsertDtoCustomer d orgId dto s = .ok (customerId, s')) :
    NamesCustomer dto orgId s' customerId ∧ ∀ c ∈ s'.customers, c ∈ s.customers ∨
      dto.customerId.filter (· ≠ "") = some c.externalId ∧ c.tenantId = orgId ∧
      c.organizationId = orgId ∧ c.email = dto.email ∧ c.country = some dto.country := by
  cases e : dto.customerId.filter (· ≠ "") with
  | none =>
    simp only [upsertDtoCustomer, e] at h
    obtain ⟨rfl, rfl⟩ := Tx.pure_ok.mp h
    refine ⟨⟨fun _ => rfl, fun externalId he => ?_⟩, fun c hc => .inl hc⟩
    rw [e] at he
    cases he
  | some externalId =>
    simp only [upsertDtoCustomer, e] at h
    obtain ⟨q, s₁, hq, h⟩ := Tx.bind_ok.mp h
    obtain ⟨rfl, rfl⟩ := Tx.pure_ok.mp h
    have hnames : ∀ c ∈ s'.customers, c.id = q.id → c.tenantKey = (orgId, externalId) →
        NamesCustomer dto orgId s' (some q.id) := by
      refine fun c hc hid hkey => ⟨fun he => ?_, fun x hx => ?_⟩
      · rw [e] at he
        cases he
      · rw [e] at hx
        cases hx
        exact ⟨c, hc, congrArg some hid.symm, hkey⟩
    rcases upsertCustomer_ok hq with ⟨hmem, hkey, rfl⟩ | ⟨rfl, tab, ht, rfl⟩
    · exact ⟨hnames q hmem rfl hkey, fun c hc => .inl hc⟩
    · refine ⟨hnames _ ((Table.mem_insert ht).mpr (.inr rfl)) rfl rfl, fun c hc => ?_⟩
      rcases (Table.mem_insert ht).mp hc with hc | rfl
      · exact .inl hc
      · exact .inr ⟨rfl, rfl, rfl, rfl, rfl⟩

/-- **The insert of a call**: the payment that it makes is what it asked for. -/
theorem RequestedBy.insert [DecidableEq ι] (h : RequestedBy registry calls made w s)
    (hcall : calls t = .payments (.create dto key ctx)) (hnone : made t = none) {k : String}
    (hk : checkKey key = .ok k) {provider : PaymentProvider}
    (hprov : registry.selectFor dto.country dto.currency = .ok provider)
    {method : PaymentMethodKind} (hmethod : toPrismaMethod dto.method = .ok method)
    (hins : Inserted d ctx.organizationId dto k provider.id method s p s') :
    RequestedBy registry calls (Function.update made t (some p.id)) w s' := by
  have hd : s.Durable s' := hins.durable
  obtain ⟨customerId, hp, hc⟩ := hins.row
  obtain ⟨hnames, hcustomers⟩ := upsertDtoCustomer_names hc
  obtain ⟨-, hfresh, -⟩ := Table.insert_ok hins.payments
  have hold : ∀ {u id}, made u = some id → Function.update made t (some p.id) u = some id :=
    fun {u id} hu => by
      have hne : u ≠ t := fun he => by rw [he, hnone] at hu; cases hu
      rw [Function.update_of_ne hne, hu]
  have hmade : ∀ {u id}, Function.update made t (some p.id) u = some id →
      (u = t ∧ id = p.id) ∨ (u ≠ t ∧ made u = some id) := fun {u id} hu => by
    by_cases hut : u = t
    · rw [hut, Function.update_self] at hu
      exact .inl ⟨hut, (Option.some.inj hu).symm⟩
    · rw [Function.update_of_ne hut] at hu
      exact .inr ⟨hut, hu⟩
  have hnew : ∀ u, made u ≠ some p.id := fun u hu => by
    obtain ⟨q, hq, hid⟩ := h.there u _ hu
    exact hfresh q hq hid
  -- the rows of before keep the call that made them; the new ones are the call's own
  refine ⟨h.durable.trans hd, fun q hq => ?_, fun c hc => ?_, fun u id hu => ?_, fun u id hu x hx => ?_,
    fun u v id hu hv => ?_⟩
  · rcases (Table.mem_insert hins.payments).mp hq with hq | rfl
    · rcases h.payments q hq with hq | ⟨u, dto, key, ctx, hu, hreq⟩
      · exact .inl hq
      · exact .inr ⟨u, dto, key, ctx, hold hu, hreq.later hd rfl⟩
    · refine .inr ⟨t, dto, key, ctx, Function.update_self .., hcall, ?_, ?_⟩
      · refine ⟨d, k, provider, method, hk, hprov, hmethod, ?_⟩
        rw [hp]
        rfl
      · rw [hp]
        exact ⟨hnames.unnamed, hnames.named⟩
  · rcases hcustomers c hc with hc | ⟨hnamed, ht, ho, hemail, hcountry⟩
    · rcases h.customers c hc with hc | ⟨u, dto, key, ctx, hu, hintro⟩
      · exact .inl hc
      · obtain ⟨id, hid⟩ := Option.ne_none_iff_exists'.mp hu
        exact .inr ⟨u, dto, key, ctx, by rw [hold hid]; exact Option.some_ne_none id, hintro⟩
    · refine .inr ⟨t, dto, key, ctx, ?_, hcall, hnamed, ht, ho, hemail, hcountry⟩
      rw [Function.update_self]
      exact Option.some_ne_none _
  · rcases hmade hu with ⟨-, rfl⟩ | ⟨-, hu⟩
    · exact ⟨p, (Table.mem_insert hins.payments).mpr (.inr rfl), rfl⟩
    · obtain ⟨q, hq, hid⟩ := h.there u id hu
      exact ⟨q, (Table.mem_insert hins.payments).mpr (.inl hq), hid⟩
  · rcases hmade hu with ⟨-, rfl⟩ | ⟨-, hu⟩
    · obtain ⟨y, hy, hyc⟩ := h.durable.later hx
      exact fun hid => hfresh y hy ((Payment.core_id hyc).trans hid)
    · exact h.new u id hu x hx
  · rcases hmade hu with ⟨rfl, rfl⟩ | ⟨-, hu'⟩
    · rcases hmade hv with ⟨rfl, -⟩ | ⟨-, hv'⟩
      · rfl
      · exact absurd hv' (hnew v)
    · rcases hmade hv with ⟨-, rfl⟩ | ⟨-, hv'⟩
      · exact absurd hu' (hnew u)
      · exact h.one u v id hu' hv'

end Step

/-! ## The programs -/

section Programs

variable {ι : Type} [DecidableEq ι] {registry : ProviderRegistry} {calls : ι → ServiceCall}
  {w : World} {t : ι} {α β : Type}

/-- The ghost value of a call is the payment that it made. -/
def requestedProto (registry : ProviderRegistry) (calls : ι → ServiceCall) (w : World) :
    Proto machine ι (Option String) where
  allow _ _ _ _ := True
  inv G s _ := RequestedBy registry calls G w s

theorem others_wp {p : Service α} {g : Option String} (hp : p.Asks Op.notInsert) :
    (requestedProto registry calls w).WP t (fun _ g' => g' = g) p g := by
  refine Proto.WP.of_asks hp fun G s tr o d _ ho hi _ => ⟨trivial, ?_⟩
  obtain ⟨hcore, hcust⟩ := exec_cores (r := (exec o d s).1) ho rfl
  exact RequestedBy.next hi (exec_durable rfl) hcore hcust

theorem other_wp {o : Op} {f : o.Ans → Service β} {g : Option String} (ho : o.notInsert)
    (hf : ∀ a, (requestedProto registry calls w).WP t (fun _ _ => True) (f a) g) :
    (requestedProto registry calls w).WP t (fun _ _ => True) ((request o).bind f) g := by
  refine Proto.WP.bind ((others_wp (.perform ho)).mono fun r g' hg => ?_)
  rw [hg]
  cases r with
  | ok a => exact hf a
  | error e => trivial

theorem create_requested {dto : CreatePaymentDto} {key : Option String} {ctx : OrgContext}
    (hcall : calls t = .payments (.create dto key ctx)) :
    (requestedProto registry calls w).WP t (fun _ _ => True) (create registry dto key ctx) none := by
  refine Proto.WP.ofExcept_bind (fun k hk => ?_) fun _ _ => trivial
  refine other_wp (fun _ _ _ _ _ h => by cases h) fun existing => ?_
  cases existing with
  | some payment => trivial
  | none =>
    refine Proto.WP.ofExcept_bind (fun provider hprov => ?_) fun _ _ => trivial
    refine other_wp (fun _ _ _ _ _ h => by cases h) fun _ => ?_
    refine Proto.WP.ofExcept_bind (fun method hmethod => ?_) fun _ _ => trivial
    refine Proto.WP.perform_bind fun G s tr d r s' hG hi _ hx => ⟨trivial, ?_⟩
    rcases exec_insertPayment hx with ⟨e, rfl, rfl⟩ | ⟨p, rfl, hins⟩
    · exact Proto.keep hG hi trivial
    · refine ⟨some p.id, RequestedBy.insert hi hcall hG hk hprov hmethod hins, ?_⟩
      refine (others_wp (charge_asks ?_ ?_ ?_ ?_ ?_)).mono fun _ _ _ => trivial
      all_goals
        intros
        exact fun _ _ _ _ _ h => by cases h

theorem ServiceCall.asks_notInsert {call : ServiceCall} {o : Op} (ho : call.asks o)
    (hcall : ∀ dto key ctx, call ≠ .payments (.create dto key ctx)) : o.notInsert := by
  rintro org dto key providerId method rfl
  cases call with
  | payments call =>
    cases call with
    | create dto key ctx => exact hcall dto key ctx rfl
    | findAll ctx query => cases ho
    | findOne id ctx => cases ho
    | refund id body ctx => cases ho
  | webhook job => cases ho
  | reconcile id => cases ho

theorem service_requested (t : ι) :
    (requestedProto registry calls w).WP t (fun _ _ => True) ((calls t).run registry) none := by
  by_cases hcall : ∃ dto key ctx, calls t = .payments (.create dto key ctx)
  · obtain ⟨dto, key, ctx, hcall⟩ := hcall
    rw [hcall]
    exact Proto.WP.bind_true (Proto.WP.bind_true (create_requested hcall) fun _ _ => trivial)
      fun _ _ => trivial
  · have hother : ∀ dto key ctx, calls t ≠ .payments (.create dto key ctx) :=
      fun dto key ctx h => hcall ⟨dto, key, ctx, h⟩
    refine (others_wp (((calls t).run_asks registry).mono fun o ho => ?_)).mono fun _ _ _ => trivial
    exact ServiceCall.asks_notInsert ho hother

end Programs

/-! ## The runs -/

/-- **A payment is what its call asked for.** However calls and workers interleave, from any
database: the rows of payments and customers that were not there at the start were made by calls of
`create`, as these asked for them, at most one payment by each call. -/
theorem payments_requested {ι : Type} [DecidableEq ι] (registry : ProviderRegistry)
    (calls : ι → ServiceCall) (w : World) (c : Conf machine ι Unit)
    (hr : Conf.Reach Any (startCalls registry calls w) c) :
    ∃ made, RequestedBy registry calls made w c.st := by
  have hstart : (requestedProto registry calls w).Ok (fun _ _ _ => True)
      (startCalls registry calls w) :=
    ⟨fun _ => none, RequestedBy.start w, fun t => service_requested t⟩
  obtain ⟨made, hi, -⟩ := Proto.sound hstart hr
  exact ⟨made, hi⟩

/-- A payment of a customer. -/
def namedCall (_ : Unit) : ServiceCall :=
  .payments (.create { sampleDto with customerId := some "customer" } (some "key") sampleCtx)

def namedCreate : Conf machine Unit Unit :=
  (startCalls fakeRegistry namedCall World.empty).play
    (createSteps (.answered ⟨"fake_key", .captured, .null⟩))

theorem payments_requested_sample :
    (∃ made, RequestedBy fakeRegistry namedCall made World.empty namedCreate.st) ∧
    namedCreate.st.payments.rows.map (·.customerId) = [some "pay"] ∧
    namedCreate.st.customers.rows.map (·.externalId) = ["customer"] :=
  ⟨payments_requested fakeRegistry namedCall World.empty namedCreate
    (Conf.reach_play (Conf.plays_any _ _)), by decide +kernel, by decide +kernel⟩

end Pasarela
