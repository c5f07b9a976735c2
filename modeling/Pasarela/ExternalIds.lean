import Pasarela.Idempotency
import Pasarela.OrphanCharge
import Pasarela.Sequential

/-!
# The payment that an external id names

Any number of `create` calls of any organizations run side by side, from a table without payments.
The provider answers a repeated idempotency key with the charge that it made for the key
(`KeyedProviders`). A webhook names a payment by the id at the provider alone, so two payments with
one such id would be confused.

* `KeyedProviders.fake`: `FakeProvider.createCharge` (`providers/adapters/fake/fake.provider.ts`).
* `CreateCall.Aims`: the provider and the key of the charge that a call asks for, if it asks.
* `ChargesIdentified`: no two payments share an id at a provider, and what a webhook about a charge
  finds is the payment of the call that made the charge.
* `IdsInv`: a payment has the provider and the key of the call that inserted it, and no other id
  than the one of the charge for these.
* `charges_identified_iff`: the calls of two organizations must not aim at one key of a provider.
  The keys are unique in an organization only, and the account at the provider is shared.
-/

namespace Pasarela

open Js (Json)
open Conc (Event Proto Prog Conf)
open Store (Table)
open PaymentsService

/-! ## Providers that know a repeated key -/

/-- How the providers charge: `charges id input r` says that provider `id` may have made the charge
`r` for `input`. Its external id is that of the key. -/
structure KeyedProviders where
  charges : String → CreateChargeInput → ChargeResult → Prop
  externalId : String → String → String
  keyed : ∀ {id input r}, charges id input r → r.externalId = externalId id input.idempotencyKey
  inj : ∀ id, Function.Injective (externalId id)
  answers : ∀ id input, ∃ r, charges id input r

/-- `FakeProvider.createCharge`. `raw` holds the input, with an amount that JSON does not have. -/
def FakeProvider.createCharge (input : CreateChargeInput) (raw : Json) : ChargeResult where
  externalId := "fake_" ++ input.idempotencyKey
  status := .captured
  raw

theorem fakeExternalId_injective : Function.Injective fun key : String => "fake_" ++ key := by
  intro a b h
  have hchars : ("fake_" ++ a).toList = ("fake_" ++ b).toList := congrArg String.toList h
  rw [String.toList_append, String.toList_append] at hchars
  exact String.toList_inj.mp (List.append_cancel_left hchars)

def KeyedProviders.fake : KeyedProviders where
  charges _ input r := ∃ raw, r = FakeProvider.createCharge input raw
  externalId _ key := "fake_" ++ key
  keyed := by
    rintro _ input _ ⟨raw, rfl⟩
    rfl
  inj _ := fakeExternalId_injective
  answers _ _ := ⟨_, .null, rfl⟩

variable {ι : Type} [DecidableEq ι]

/-- The runs in which the providers make the charges that they may make. -/
def KeyedProviders.Allow (K : KeyedProviders) : Conc.Allow machine ι := fun _ o d _ =>
  match o with
  | .createCharge id input => ∀ r, d.charge.performed = some r → K.charges id input r
  | _ => True

/-! ## Calls and their charges -/

/-- The call asks provider `id` for a charge for `key`, if nothing fails. -/
structure CreateCall.Aims (registry : ProviderRegistry) (call : CreateCall) (id key : String) :
    Prop where
  key : checkKey call.idempotencyKey = .ok key
  provider : ∃ p, registry.selectFor call.dto.country call.dto.currency = .ok p ∧ p.id = id
  method : ∃ m, toPrismaMethod call.dto.method = .ok m

/-- The charge that a provider made at the event, and the provider. -/
def chargeMade : Event machine → Option (String × ChargeResult)
  | ⟨.createCharge id _, d, _⟩ => d.charge.performed.map fun r => (id, r)
  | _ => none

/-- Call `t` inserted a payment with this id. -/
def InsertedBy (tr : List (ι × Event machine)) (t : ι) (id : String) : Prop :=
  ∃ e, (t, e) ∈ tr ∧ ∃ p, insertedRow e = some p ∧ p.id = id

/-- An id at a provider names one payment: that of the call whose charge has the id. -/
structure ChargesIdentified (calls : ι → CreateCall) (c : Conf machine ι SerializedPayment) :
    Prop where
  unique : c.st.ExternalUnique
  found : ∀ t e id r, (t, e) ∈ c.trace → chargeMade e = some (id, r) →
    ∀ d q, c.st.firstPayment d
      { externalId := some r.externalId, providerId := some id } = some q →
    InsertedBy c.trace t q.id ∧ q.organizationId = (calls t).ctx.organizationId

/-! ## The invariant -/

/-- What no update of a payment changes. -/
def Payment.origin (p : Payment) : String × String × String × String :=
  (p.id, p.organizationId, p.idempotencyKey, p.providerId)

theorem Payment.origin_inj {p q : Payment} : p.origin = q.origin ↔ p.id = q.id ∧
    p.organizationId = q.organizationId ∧ p.idempotencyKey = q.idempotencyKey ∧
      p.providerId = q.providerId := by
  simp [Payment.origin]

section Invariant

variable (registry : ProviderRegistry) (K : KeyedProviders) (calls : ι → CreateCall)

/-- The payment `p`, which call `t` inserted, is there, and is for what the call aims at. -/
structure OwnRow (s : World) (tr : List (ι × Event machine)) (t : ι) (p : Payment) : Prop where
  row : ∃ q ∈ s.payments, q.origin = p.origin
  org : p.organizationId = (calls t).ctx.organizationId
  aims : (calls t).Aims registry p.providerId p.idempotencyKey
  inserted : InsertedBy tr t p.id

/-- The invariant (module doc); the ghost value of a call is the payment that it inserted. -/
structure IdsInv (G : ι → Option Payment) (s : World) (tr : List (ι × Event machine)) : Prop where
  tenant : s.TenantIsOrg
  rows : ∀ q ∈ s.payments, ∃ t p, G t = some p ∧ q.origin = p.origin
  external : ∀ q ∈ s.payments, ∀ x, q.externalId = some x →
    x = K.externalId q.providerId q.idempotencyKey
  own : ∀ t p, G t = some p → OwnRow registry calls s tr t p
  made : ∀ t e id r, (t, e) ∈ tr → chargeMade e = some (id, r) →
    ∃ p, G t = some p ∧ p.providerId = id ∧ r.externalId = K.externalId id p.idempotencyKey

def idsProto : Proto machine ι (Option Payment) where
  allow := K.Allow
  inv := IdsInv registry K calls

variable {registry K calls} {G : ι → Option Payment} {s s' : World}
  {tr : List (ι × Event machine)} {t : ι} {e : Event machine}

omit [DecidableEq ι] in
theorem InsertedBy.append {id : String} (h : InsertedBy tr t id) (es : List (ι × Event machine)) :
    InsertedBy (tr ++ es) t id := by
  obtain ⟨e, he, hp⟩ := h
  exact ⟨e, List.mem_append_left _ he, hp⟩

omit [DecidableEq ι] in
theorem IdsInv.step (h : IdsInv registry K calls G s tr) (ht : s'.TenantIsOrg)
    (hkeep : ∀ q ∈ s.payments, ∃ q' ∈ s'.payments, q'.origin = q.origin)
    (hold : ∀ q' ∈ s'.payments, ∃ q ∈ s.payments, q'.origin = q.origin)
    (hext : ∀ q ∈ s'.payments, ∀ x, q.externalId = some x →
      x = K.externalId q.providerId q.idempotencyKey)
    (hmade : ∀ id r, chargeMade e = some (id, r) →
      ∃ p, G t = some p ∧ p.providerId = id ∧ r.externalId = K.externalId id p.idempotencyKey) :
    IdsInv registry K calls G s' (tr ++ [(t, e)]) := by
  refine ⟨ht, fun q' hq' => ?_, hext, fun u p hu => ?_, fun u e' id r he' hc => ?_⟩
  · obtain ⟨q, hq, ho⟩ := hold q' hq'
    obtain ⟨u, p, hu, hp⟩ := h.rows q hq
    exact ⟨u, p, hu, ho.trans hp⟩
  · obtain ⟨⟨q, hq, ho⟩, horg, haims, hins⟩ := h.own u p hu
    obtain ⟨q', hq', ho'⟩ := hkeep q hq
    exact ⟨⟨q', hq', ho'.trans ho⟩, horg, haims, hins.append _⟩
  · rcases List.mem_append.mp he' with he' | he'
    · exact h.made u e' id r he' hc
    · obtain ⟨rfl, rfl⟩ := Prod.mk.inj (List.mem_singleton.mp he')
      exact hmade id r hc

omit [DecidableEq ι] in
theorem IdsInv.same (h : IdsInv registry K calls G s tr) (hp : s'.payments = s.payments)
    (hmade : ∀ id r, chargeMade e = some (id, r) →
      ∃ p, G t = some p ∧ p.providerId = id ∧ r.externalId = K.externalId id p.idempotencyKey) :
    IdsInv registry K calls G s' (tr ++ [(t, e)]) := by
  refine h.step (World.TenantIsOrg.of_payments h.tenant hp) ?_ ?_ ?_ hmade
  · exact fun q hq => ⟨q, by rw [hp]; exact hq, rfl⟩
  · exact fun q hq => ⟨q, by rw [← hp]; exact hq, rfl⟩
  · rw [hp]
    exact h.external

omit [DecidableEq ι] in
/-- An update of a payment. The external id stays, or becomes that of the provider and the key. -/
theorem IdsInv.update (h : IdsInv registry K calls G s tr) {id : String} {f : Payment → Payment}
    {hf : Table.Keeps Payment.id Payment.tenantKey f} {q : Payment}
    (hu : s.payments.update id f hf = some (q, s'.payments)) (ho : ∀ p, (f p).origin = p.origin)
    (hext : ∀ p ∈ s.payments, p.id = id → ∀ x, (f p).externalId = some x →
      x = K.externalId p.providerId p.idempotencyKey) (hc : chargeMade e = none) :
    IdsInv registry K calls G s' (tr ++ [(t, e)]) := by
  have hparts := fun p => Payment.origin_inj.mp (ho p)
  refine h.step (World.TenantIsOrg.update h.tenant hu fun p => (hparts p).2.1) ?_ ?_ ?_
    fun id r hc' => by rw [hc] at hc'; cases hc'
  · intro p hp
    exact (Table.exists_update hu fun a => by rw [ho]).mpr ⟨p, hp, rfl⟩
  · intro p' hp'
    exact (Table.exists_update (P := fun a => p'.origin = a.origin) hu fun a => by rw [ho]).mp
      ⟨p', hp', rfl⟩
  · intro p' hp' x hx
    rcases (Table.mem_update hu).mp hp' with ⟨hp, -⟩ | rfl
    · exact h.external p' hp x hx
    · obtain ⟨a, ha, hid, rfl, -⟩ := Table.update_some hu
      rw [(hparts a).2.2.1, (hparts a).2.2.2]
      exact hext a ha hid x hx

theorem IdsInv.insert (h : IdsInv registry K calls G s tr) (hG : G t = none) {p : Payment}
    (hi : s.payments.insert p = .ok s'.payments) (hto : p.tenantId = p.organizationId)
    (hx : p.externalId = none) (horg : p.organizationId = (calls t).ctx.organizationId)
    (haims : (calls t).Aims registry p.providerId p.idempotencyKey)
    (he : insertedRow e = some p) (hc : chargeMade e = none) :
    IdsInv registry K calls (Function.update G t (some p)) s' (tr ++ [(t, e)]) := by
  have hother : ∀ u a, G u = some a → Function.update G t (some p) u = some a := by
    intro u a hu
    have hne : u ≠ t := fun hut => by rw [hut, hG] at hu; cases hu
    rw [Function.update_of_ne hne]
    exact hu
  refine ⟨h.tenant.insert hi hto, fun q hq => ?_, fun q hq x hqx => ?_, fun u a hu => ?_,
    fun u e' id r he' hc' => ?_⟩
  · rcases (Table.mem_insert hi).mp hq with hq | rfl
    · obtain ⟨u, a, hu, ho⟩ := h.rows q hq
      exact ⟨u, a, hother u a hu, ho⟩
    · exact ⟨t, q, Function.update_self .., rfl⟩
  · rcases (Table.mem_insert hi).mp hq with hq | rfl
    · exact h.external q hq x hqx
    · rw [hx] at hqx
      cases hqx
  · by_cases hut : u = t
    · subst hut
      rw [Function.update_self] at hu
      cases hu
      exact ⟨⟨p, (Table.mem_insert hi).mpr (.inr rfl), rfl⟩, horg, haims,
        ⟨e, List.mem_append_right _ (List.mem_singleton.mpr rfl), p, he, rfl⟩⟩
    · rw [Function.update_of_ne hut] at hu
      obtain ⟨⟨q, hq, ho⟩, horg', haims', hins⟩ := h.own u a hu
      exact ⟨⟨q, (Table.mem_insert hi).mpr (.inl hq), ho⟩, horg', haims', hins.append _⟩
  · rcases List.mem_append.mp he' with he' | he'
    · obtain ⟨a, hu, ha⟩ := h.made u e' id r he' hc'
      exact ⟨a, hother u a hu, ha⟩
    · obtain ⟨-, rfl⟩ := Prod.mk.inj (List.mem_singleton.mp he')
      rw [hc] at hc'
      cases hc'

/-! ## Each call keeps the invariant -/

theorem idsProto_quiet {α : Type} {Q : Except Err α → Option Payment → Prop} {o : Op}
    {f : o.Ans → Service α} {g : Option Payment} (ho : o.writesPayments = false)
    (hc : ∀ d r, chargeMade ⟨o, d, r⟩ = none)
    (hok : ∀ a, (idsProto registry K calls).WP t Q (f a) g)
    (herr : ∀ e d s s', exec o d s = (.error e, s') → Q (.error e) g) :
    (idsProto registry K calls).WP t Q ((request o).bind f) g := by
  refine Proto.WP.perform_bind fun G s tr d r s' hG hi _ hx => ?_
  refine ⟨trivial, Proto.keep hG (IdsInv.same hi (exec_payments ho hx) fun id r' h => ?_) ?_⟩
  · rw [hc] at h
    cases h
  · cases r with
    | ok a => exact hok a
    | error e => exact herr e d s s' hx

theorem idsProto_failed {dto : CreatePaymentDto} {p : Payment} {err : Err} :
    (idsProto registry K calls).WP t (fun _ _ => True) (chargeFailed dto p err) (some p) := by
  refine idsProto_quiet rfl (fun _ _ => rfl) (fun _ => ?_) fun _ _ _ _ _ => trivial
  refine Proto.WP.perform_bind fun G s tr d r s' hG hi _ hx => ⟨trivial, ?_⟩
  rcases exec_failPayment hx with ⟨e, rfl, rfl⟩ | ⟨q, rfl, hu, -⟩
  · exact Proto.keep hG (IdsInv.same hi rfl fun _ _ h => by cases h) trivial
  · refine Proto.keep hG (IdsInv.update hi hu (fun _ => rfl) (fun a ha _ x hx => ?_) rfl) trivial
    exact hi.external a ha x hx

/-- The charge of the payment `p`, by the provider and for the key of `p`. -/
theorem idsProto_charging {provider : PaymentProvider} {dto : CreatePaymentDto} {key : String}
    {ctx : OrgContext} {p : Payment} (hprov : p.providerId = provider.id)
    (hkey : p.idempotencyKey = key) :
    (idsProto registry K calls).WP t (fun _ _ => True)
      ((charge provider dto key ctx p).tryCatch (chargeFailed dto p)) (some p) := by
  refine Proto.WP.tryCatch ?_
  refine Proto.WP.perform_bind fun G s tr d r s' hG hi ha hx => ?_
  obtain ⟨rfl, rfl⟩ := Prod.mk.inj hx
  have hid : ∀ r, d.charge.performed = some r →
      r.externalId = K.externalId p.providerId p.idempotencyKey := by
    intro r hr
    rw [hprov, hkey]
    exact K.keyed (ha r hr)
  refine ⟨trivial, Proto.keep hG (IdsInv.same hi rfl fun id r h => ?_) ?_⟩
  · obtain ⟨r', hr', he⟩ := Option.map_eq_some_iff.mp h
    cases he
    exact ⟨p, hG, hprov, by rw [hid r hr', hprov]⟩
  cases hanswer : d.charge.answer with
  | error e => exact idsProto_failed
  | ok result =>
    have hresult : result.externalId = K.externalId p.providerId p.idempotencyKey :=
      hid result (by rw [Remote.answer_ok hanswer]; rfl)
    refine Proto.WP.perform_bind fun G s tr d r s' hG hi _ hx => ⟨trivial, ?_⟩
    rcases exec_recordCharge hx with ⟨e, rfl, rfl⟩ | ⟨q, rfl, hw⟩
    · exact Proto.keep hG (IdsInv.same hi rfl fun _ _ h => by cases h) idsProto_failed
    · have hext : ∀ a ∈ s.payments, a.id = p.id → ∀ x,
          (setCharge d result (mapProviderStatus result.status) a).externalId = some x →
          x = K.externalId a.providerId a.idempotencyKey := by
        intro a ha hap x hx
        obtain ⟨b, hb, hbo⟩ := (hi.own t p hG).row
        obtain ⟨hbid, -, hbkey, hbprov⟩ := Payment.origin_inj.mp hbo
        rw [Table.eq_of_key ha hb (hap.trans hbid.symm), hbkey, hbprov]
        exact (Option.some.inj hx).symm.trans hresult
      refine Proto.keep hG (IdsInv.update hi hw.payments (fun _ => rfl) hext rfl) ?_
      refine idsProto_quiet rfl (fun _ _ => rfl) (fun _ => ?_) fun e d s s' hx => by cases hx
      refine idsProto_quiet rfl (fun _ _ => rfl) (fun _ => trivial) fun e d s s' hx => ?_
      cases (exec_auditLog hx).1

theorem idsProto_create (t : ι) :
    (idsProto registry K calls).WP t (fun _ _ => True)
      (create registry (calls t).dto (calls t).idempotencyKey (calls t).ctx) none := by
  refine Proto.WP.ofExcept_bind (fun key hkey => ?_) fun _ _ => trivial
  refine idsProto_quiet rfl (fun _ _ => rfl) (fun existing => ?_) fun _ _ _ _ _ => trivial
  cases existing with
  | some p => trivial
  | none =>
    refine Proto.WP.ofExcept_bind (fun provider hprov => ?_) fun _ _ => trivial
    refine idsProto_quiet rfl (fun _ _ => rfl) (fun _ => ?_) fun _ _ _ _ _ => trivial
    refine Proto.WP.ofExcept_bind (fun method hmethod => ?_) fun _ _ => trivial
    refine Proto.WP.perform_bind fun G s tr d r s' hG hi _ hx => ⟨trivial, ?_⟩
    rcases exec_insertPayment hx with ⟨e, rfl, rfl⟩ | ⟨p, rfl, hins⟩
    · exact Proto.keep hG (IdsInv.same hi rfl fun _ _ h => by cases h) trivial
    · obtain ⟨c, rfl, -⟩ := hins.row
      exact ⟨_, IdsInv.insert hi hG hins.payments rfl rfl rfl
        ⟨hkey, ⟨provider, hprov, rfl⟩, method, hmethod⟩ rfl rfl, idsProto_charging rfl rfl⟩

theorem idsProto_start {w : World} (hw : w.payments = .empty) :
    (idsProto registry K calls).Ok (fun _ _ _ => True) (startCreates registry calls w) := by
  have hno : ∀ q, q ∉ w.payments := fun q hq => by rw [hw] at hq; exact Table.not_mem_empty hq
  refine ⟨fun _ => none, ⟨?_, ?_, ?_, ?_, ?_⟩, idsProto_create⟩
  · exact fun q hq => absurd hq (hno q)
  · exact fun q hq => absurd hq (hno q)
  · exact fun q hq => absurd hq (hno q)
  · exact fun t p h => by cases h
  · exact fun t e id r h => absurd h List.not_mem_nil

omit [DecidableEq ι] in
/-- Calls that aim at one key of a provider only if they are of one organization. -/
theorem IdsInv.identified (h : IdsInv registry K calls G s tr)
    (hcalls : ∀ t u id key, (calls t).Aims registry id key → (calls u).Aims registry id key →
      (calls t).ctx.organizationId = (calls u).ctx.organizationId)
    {thr : ι → Service SerializedPayment} : ChargesIdentified calls ⟨s, thr, tr⟩ := by
  -- payments of one provider and one key are of calls of one organization
  have hsame : ∀ a ∈ s.payments, ∀ b ∈ s.payments, a.providerId = b.providerId →
      a.idempotencyKey = b.idempotencyKey → a = b := by
    intro a ha b hb hprov hkey
    obtain ⟨t, p, ht, hap⟩ := h.rows a ha
    obtain ⟨u, q, hu, hbq⟩ := h.rows b hb
    obtain ⟨-, haorg, hakey, haprov⟩ := Payment.origin_inj.mp hap
    obtain ⟨-, hborg, hbkey, hbprov⟩ := Payment.origin_inj.mp hbq
    have hp := h.own t p ht
    have hq := h.own u q hu
    have haims := hq.aims
    rw [← hbprov, ← hbkey, ← hprov, ← hkey, haprov, hakey] at haims
    refine h.tenant.unique ha hb ?_ hkey
    rw [haorg, hborg, hp.org, hq.org]
    exact hcalls t u _ _ hp.aims haims
  constructor
  · intro a ha b hb hne hab hprov
    obtain ⟨x, hx⟩ := Option.ne_none_iff_exists'.mp hne
    have hax := h.external a ha x hx
    have hbx := h.external b hb x (hab.symm.trans hx)
    refine hsame a ha b hb hprov (K.inj a.providerId ?_)
    rw [← hax, hbx, hprov]
  · intro t e id r he hc d q hq
    obtain ⟨hmem, hholds⟩ := Table.findFirst_some hq
    obtain ⟨hqx, hqprov⟩ := PaymentWhere.holds_external.mp hholds
    obtain ⟨p, ht, hpprov, hr⟩ := h.made t e id r he hc
    obtain ⟨⟨a, ha, hap⟩, horg, -, hins⟩ := h.own t p ht
    obtain ⟨haid, haorg, hakey, haprov⟩ := Payment.origin_inj.mp hap
    have hkey : q.idempotencyKey = p.idempotencyKey := by
      refine K.inj id ?_
      rw [← hr, ← hqprov]
      exact (h.external q hmem _ hqx).symm
    have hqa : q = a := hsame q hmem a ha (by rw [hqprov, haprov, hpprov]) (hkey.trans hakey.symm)
    rw [hqa, haid, haorg]
    exact ⟨hins, horg⟩

end Invariant

/-! ## A call that charges -/

/-- A call of the organization put a payment with the charge for the key into the table, beside what
was there. -/
structure ChargedFor (K : KeyedProviders) (org id key : String) (s s' : World) : Prop where
  row : ∃ q ∈ s'.payments, q.organizationId = org ∧ q.providerId = id ∧
    q.externalId = some (K.externalId id key)
  kept : ∀ q ∈ s.payments, q ∈ s'.payments
  others : ∀ q ∈ s'.payments, q ∈ s.payments ∨ q.organizationId = org

/-- There are ids that no row has. -/
theorem World.exists_fresh (s : World) : ∃ newId : Model → String,
    (∀ c ∈ s.customers, c.id ≠ newId .customer) ∧ (∀ p ∈ s.payments, p.id ≠ newId .payment) ∧
      ∀ e ∈ s.events, e.id ≠ newId .paymentEvent := by
  obtain ⟨c, hc⟩ := Store.exists_fresh Customer.id s.customers.rows
  obtain ⟨p, hp⟩ := Store.exists_fresh Payment.id s.payments.rows
  obtain ⟨e, he⟩ := Store.exists_fresh PaymentEvent.id s.events.rows
  let newId : Model → String := fun
    | .customer => c
    | .payment => p
    | _ => e
  exact ⟨newId, hc, hp, he⟩

section Charged

variable {registry : ProviderRegistry} {K : KeyedProviders} {calls : ι → CreateCall}
  {c : Conf machine ι SerializedPayment} {t : ι} {id key : String}

/-- A call of an organization without payments inserts its payment, if it aims at a charge. -/
theorem reach_inserted {provider : PaymentProvider} {method : PaymentMethodKind}
    (hkey : checkKey (calls t).idempotencyKey = .ok key)
    (hprov : registry.selectFor (calls t).dto.country (calls t).dto.currency = .ok provider)
    (hmethod : toPrismaMethod (calls t).dto.method = .ok method)
    (hthr : c.thr t = create registry (calls t).dto (calls t).idempotencyKey (calls t).ctx)
    (hto : c.st.TenantIsOrg)
    (hn : ∀ q ∈ c.st.payments, q.organizationId ≠ (calls t).ctx.organizationId) :
    ∃ c' d customerId, Conf.Reach K.Allow c c' ∧ (∀ u ≠ t, c'.thr u = c.thr u) ∧
      let p := newPayment d (calls t).ctx.organizationId (calls t).dto key provider.id method customerId
      c.st.payments.insert p = .ok c'.st.payments ∧
      c'.thr t = (charge provider (calls t).dto key (calls t).ctx p).tryCatch
        (chargeFailed (calls t).dto p) := by
  obtain ⟨f, hcreate, -, hnew⟩ := create_of_key registry (calls t).dto (calls t).ctx hkey
  rw [hcreate] at hthr
  -- the key is not found
  have hnone : ∀ q ∈ c.st.payments, PaymentWhere.holds
      { organizationId := some (calls t).ctx.organizationId, idempotencyKey := some key } q =
        false := by
    intro q hq
    rw [Bool.eq_false_iff]
    exact fun h => hn q hq (PaymentWhere.holds_org_key.mp h).1
  have hx₁ := exec_findPayment_of_none (d := {}) rfl hnone
  obtain ⟨c₁, hr₁, hst₁, hthr₁⟩ := Conf.reach_perform K.Allow (d := {}) hthr trivial hx₁
  have ht₁ := congrFun hthr₁ t
  rw [Function.update_self, hnew, createNew_of_ok hprov hmethod] at ht₁
  -- the gauge
  obtain ⟨c₂, hr₂, hst₂, hthr₂⟩ := Conf.reach_perform K.Allow (d := {}) ht₁ trivial rfl
  have ht₂ := congrFun hthr₂ t
  rw [Function.update_self] at ht₂
  -- the insert
  obtain ⟨newId, hc, hp, he⟩ := c₂.st.exists_fresh
  have hpay₂ : c₂.st.payments = c.st.payments := by rw [hst₂, hst₁]; rfl
  have huniq : ∀ q ∈ c₂.st.payments, q.tenantKey ≠ ((calls t).ctx.organizationId, key) := by
    intro q hq hqk
    rw [hpay₂] at hq
    exact hn q hq ((hto q hq).symm.trans (congrArg Prod.fst hqk))
  obtain ⟨p, s₃, hx₃⟩ : ∃ p s₃, exec (.insertPayment (calls t).ctx.organizationId (calls t).dto key
      provider.id method) { newId } c₂.st = (.ok p, s₃) :=
    exec_insertPayment_of_fresh rfl hc hp huniq he
  obtain ⟨c₃, hr₃, rfl, hthr₃⟩ := Conf.reach_perform K.Allow (d := { newId }) ht₂ trivial hx₃
  rcases exec_insertPayment hx₃ with ⟨e, he, -⟩ | ⟨q, hq, hins⟩
  · cases he
  · cases hq
    obtain ⟨customerId, rfl, -⟩ := hins.row
    refine ⟨c₃, { newId }, customerId, (hr₁.trans hr₂).trans hr₃, fun u hu => ?_, ?_, ?_⟩
    · rw [hthr₃, Function.update_of_ne hu, hthr₂, Function.update_of_ne hu, hthr₁,
        Function.update_of_ne hu]
    · rw [← hpay₂]
      exact hins.payments
    · rw [hthr₃, Function.update_self]

/-- A call of an organization without payments gets its charge and records it, if it aims at one. -/
theorem reach_charged (haims : (calls t).Aims registry id key)
    (hthr : c.thr t = create registry (calls t).dto (calls t).idempotencyKey (calls t).ctx)
    (hto : c.st.TenantIsOrg)
    (hn : ∀ q ∈ c.st.payments, q.organizationId ≠ (calls t).ctx.organizationId) :
    ∃ c', Conf.Reach K.Allow c c' ∧ (∀ u ≠ t, c'.thr u = c.thr u) ∧
      ChargedFor K (calls t).ctx.organizationId id key c.st c'.st := by
  obtain ⟨hkey, ⟨provider, hprov, rfl⟩, method, hmethod⟩ := haims
  obtain ⟨c₁, d₁, customerId, hr₁, hother, hins, ht₁⟩ :=
    reach_inserted (K := K) hkey hprov hmethod hthr hto hn
  generalize hpdef : newPayment d₁ (calls t).ctx.organizationId (calls t).dto key provider.id method
    customerId = p at hins ht₁
  -- the charge
  obtain ⟨result, hresult⟩ := K.answers provider.id (chargeInput (calls t).dto key p)
  have hallow : K.Allow t (.createCharge provider.id (chargeInput (calls t).dto key p))
      { charge := .answered result } c₁.st := by
    intro r hr
    obtain rfl := Option.some.inj hr
    exact hresult
  obtain ⟨c₂, hr₂, hst₂, hthr₂⟩ := Conf.reach_perform_tryCatch K.Allow
    (d := { charge := .answered result }) ht₁ hallow rfl
  -- its record
  obtain ⟨newId, -, -, he⟩ := c₂.st.exists_fresh
  have hp₂ : p ∈ c₂.st.payments := by
    rw [hst₂]
    exact (Table.mem_insert hins).mpr (.inr rfl)
  obtain ⟨q, s₃, hx₃⟩ : ∃ q s₃, exec (.recordCharge p result (mapProviderStatus result.status))
      { newId } c₂.st = (.ok q, s₃) := exec_recordCharge_of_fresh rfl ⟨p, hp₂, rfl⟩ he
  have ht₂ := congrFun hthr₂ t
  rw [Function.update_self] at ht₂
  obtain ⟨c₃, hr₃, rfl, hthr₃⟩ := Conf.reach_perform_tryCatch K.Allow (d := { newId }) ht₂ trivial hx₃
  rcases exec_recordCharge hx₃ with ⟨e, he, -⟩ | ⟨q, -, hw⟩
  · cases he
  have hmem : ∀ a, a ∈ c₃.st.payments ↔ a ∈ c.st.payments ∨ a = q := by
    intro a
    rw [Table.mem_update hw.payments, hst₂]
    refine or_congr_left ⟨fun ⟨ha, hne⟩ => ?_, fun ha => ?_⟩
    · rcases (Table.mem_insert hins).mp ha with ha | rfl
      · exact ha
      · exact absurd rfl hne
    · exact ⟨(Table.mem_insert hins).mpr (.inl ha), (Table.insert_ok hins).2.1 a ha⟩
  have hq : q = setCharge { newId } result (mapProviderStatus result.status) p := by
    obtain ⟨a, ha, hid, hqa, -⟩ := Table.update_some hw.payments
    rw [hqa, Table.eq_of_key ha hp₂ hid]
  rw [← hpdef] at hq
  refine ⟨c₃, (hr₁.trans hr₂).trans hr₃, fun u hu => ?_, ⟨q, (hmem q).mpr (.inr rfl), ?_⟩, ?_, ?_⟩
  · rw [hthr₃, Function.update_of_ne hu, hthr₂, Function.update_of_ne hu]
    exact hother u hu
  · rw [hq]
    exact ⟨rfl, rfl, congrArg some (K.keyed hresult)⟩
  · exact fun a ha => (hmem a).mpr (.inl ha)
  · intro a ha
    rcases (hmem a).mp ha with ha | rfl
    · exact .inl ha
    · rw [hq]
      exact .inr rfl

/-- Two calls of two organizations that aim at one key of a provider get one id for two payments. -/
theorem reach_shared_id {w : World} (hw : w.payments = .empty) {u : ι}
    (ht : (calls t).Aims registry id key) (hu : (calls u).Aims registry id key)
    (hne : (calls t).ctx.organizationId ≠ (calls u).ctx.organizationId) :
    ∃ c, Conf.Reach K.Allow (startCreates registry calls w) c ∧ ¬ c.st.ExternalUnique := by
  have hempty : ∀ q, q ∉ (startCreates registry calls w).st.payments := by
    intro q hq
    change q ∈ w.payments at hq
    rw [hw] at hq
    exact Table.not_mem_empty hq
  obtain ⟨c₁, hr₁, hthr₁, ⟨p, hp, hporg, hpprov, hpx⟩, -, hothers⟩ :=
    reach_charged (K := K) ht rfl (fun q hq => absurd hq (hempty q)) fun q hq => absurd hq (hempty q)
  obtain ⟨G, hi, -⟩ := Proto.sound (idsProto_start (K := K) hw) hr₁
  have hut : u ≠ t := fun hut => hne (by rw [hut])
  obtain ⟨c₂, hr₂, -, ⟨q, hq, hqorg, hqprov, hqx⟩, hkept, -⟩ :=
    reach_charged (K := K) hu (hthr₁ u hut) hi.tenant fun a ha => by
      rcases hothers a ha with ha | ha
      · exact absurd ha (hempty a)
      · rw [ha]
        exact hne
  refine ⟨c₂, hr₁.trans hr₂, fun hunique => hne ?_⟩
  have hpq : p = q := hunique p (hkept p hp) q hq (by rw [hpx]; exact Option.some_ne_none _)
    (hpx.trans hqx.symm) (hpprov.trans hqprov.symm)
  rw [← hporg, hpq, hqorg]

end Charged

/-- **An external id names one payment**, that of the call whose charge has the id, in every run of
`create` calls from a table without payments, if and only if no calls of two organizations aim at
one key of a provider. -/
theorem charges_identified_iff (registry : ProviderRegistry) (K : KeyedProviders)
    (calls : ι → CreateCall) (w : World) (hw : w.payments = .empty) :
    (∀ c, Conf.Reach K.Allow (startCreates registry calls w) c → ChargesIdentified calls c) ↔
      ∀ t u id key, (calls t).Aims registry id key → (calls u).Aims registry id key →
        (calls t).ctx.organizationId = (calls u).ctx.organizationId := by
  constructor
  · intro h t u id key ht hu
    by_contra hne
    obtain ⟨c, hr, hshared⟩ := reach_shared_id (K := K) hw ht hu hne
    exact hshared (h c hr).unique
  · intro hcalls c hr
    obtain ⟨G, hi, -⟩ := Proto.sound (idsProto_start (K := K) hw) hr
    exact hi.identified hcalls

/-! ### Two organizations -/

/-- A call of each of two organizations, with the keys `keys`. -/
def keyCalls (keys : Bool → String) (own : Bool) : CreateCall :=
  ⟨sampleDto, some (keys own), if own then sampleCtx else { sampleCtx with organizationId := "other" }⟩

def keyCreates (keys : Bool → String) : Conf machine Bool SerializedPayment :=
  startCreates fakeRegistry (keyCalls keys) World.empty

/-- The provider charges for the key. -/
def fakeAnswer (key : String) : Decision :=
  { charge := .answered ⟨"fake_" ++ key, .captured, .null⟩ }

theorem fakeAnswer_performed {input : CreateChargeInput} {key : String}
    (hkey : input.idempotencyKey = key) (r : ChargeResult)
    (h : (fakeAnswer key).charge.performed = some r) :
    KeyedProviders.fake.charges "fake" input r := by
  subst hkey
  exact ⟨.null, (Option.some.inj h).symm⟩

/-- One call after the other inserts its payment, charges and records the charge. -/
def bothCharged (keys : Bool → String) : List (Bool × Decision) := [
  (true, {}), (true, {}), (true, { newId := fun _ => "a" }), (true, fakeAnswer (keys true)),
  (true, { newId := fun _ => "b" }),
  (false, {}), (false, {}), (false, { newId := fun _ => "c" }), (false, fakeAnswer (keys false)),
  (false, { newId := fun _ => "d" })]

/-- A key for each organization. -/
def ownKeys (own : Bool) : String := if own then "own" else "other"

theorem charges_identified_sample :
    ChargesIdentified (keyCalls ownKeys) ((keyCreates ownKeys).play (bothCharged ownKeys)) := by
  refine (charges_identified_iff fakeRegistry KeyedProviders.fake (keyCalls ownKeys) World.empty
    rfl).mpr (fun t u id key ht hu => ?_) _ (Conf.reach_play ?_)
  · have hkeys : ownKeys t = ownKeys u := Option.some.inj
      ((checkKey_ok ht.key).trans (checkKey_ok hu.key).symm)
    have htu : t = u := by revert hkeys; cases t <;> cases u <;> decide
    rw [htu]
  · exact ⟨trivial, trivial, trivial, fakeAnswer_performed rfl, trivial, trivial, trivial,
      trivial, fakeAnswer_performed rfl, trivial, trivial⟩

/-- With one key, the charge of one organization is taken for the payment of the other. -/
theorem same_key_confused : ¬ ∀ c,
    Conf.Reach KeyedProviders.fake.Allow (keyCreates fun _ => "key") c →
      ChargesIdentified (keyCalls fun _ => "key") c := by
  intro h
  have hplays : Conf.Plays KeyedProviders.fake.Allow (keyCreates fun _ => "key")
      (bothCharged fun _ => "key") :=
    ⟨trivial, trivial, trivial, fakeAnswer_performed rfl, trivial, trivial, trivial, trivial,
      fakeAnswer_performed rfl, trivial, trivial⟩
  have hc := h _ (Conf.reach_play hplays)
  have horg : (World.firstPayment {}
      { externalId := some "fake_key", providerId := some "fake" }
      ((keyCreates fun _ => "key").play (bothCharged fun _ => "key")).st).map (·.organizationId) =
        some "org" := by decide +kernel
  obtain ⟨q, hq, hqorg⟩ := Option.map_eq_some_iff.mp horg
  obtain ⟨-, hother⟩ := hc.found false _ "fake" ⟨"fake_key", .captured, .null⟩
    (List.mem_of_getElem? (i := 8) rfl) rfl {} q hq
  rw [hqorg] at hother
  exact absurd hother (by decide)

end Pasarela
