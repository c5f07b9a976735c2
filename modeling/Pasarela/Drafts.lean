import Pasarela.Conc.History
import Pasarela.ExternalIds
import Pasarela.Ownership

/-!
# Payments whose charge is not recorded yet

A payment without an external id is the business of the `create` call that inserted it: the other
operations find payments by an external id, or stop at one that has none. So the two writes of
`create` that do not look at the status they replace find it as the insert left it.

* `writtenId`: the payment that a committed request inserted or wrote.
* `FindsPending`: a write of `create` finds its payment PENDING, without an external id.
* `DraftInv`: the invariant, beside the ownership: what the requests so far say of the payments.
  `DraftInv.step` is its step, for a request of any kind.
* `drafts_belong_to_create`: so in every state of every run.
-/

namespace Pasarela

open Conc (Along Conf Event Owning Proto replay)
open Store (Table)

/-- The payment that a committed request inserted or wrote. -/
def writtenId : Event machine → Option String
  | ⟨.insertPayment _ _ _ _ _, _, .ok p⟩ => some p.id
  | ⟨o, _, .ok _⟩ => (o.ownWrite.or o.checkedWrite).map fun w => w.1.id
  | ⟨_, _, .error _⟩ => none

/-- A write of `create` finds its payment as the insert left it. -/
def FindsPending (e : Event machine) (s : World) : Prop :=
  ∀ payment st, e.op.ownWrite = some (payment, st) →
    ∃ q ∈ s.payments, q.id = payment.id ∧ q.status = .pending ∧ q.externalId = none

/-- The status of a payment whose charge is not recorded. -/
def Payment.Unsettled (p : Payment) : Prop := p.status = .pending ∨ p.status = .failed

/-- The payments without an external id are PENDING or FAILED. -/
def World.DraftsUnsettled (s : World) : Prop :=
  ∀ p ∈ s.payments, p.externalId = none → p.Unsettled

def ServiceCall.IsCreate (call : ServiceCall) : Prop :=
  ∃ dto key ctx, call = .payments (.create dto key ctx)

section Trace

variable {ι : Type} {tr : List (ι × Event machine)} {t u : ι} {e : Event machine} {id : String}

theorem writtenId_of_insertedRow {p : Payment} (h : insertedRow e = some p) :
    writtenId e = some p.id := by
  unfold insertedRow at h
  split at h
  · cases h
    rfl
  · cases h

theorem insertedBy_snoc : InsertedBy (tr ++ [(t, e)]) u id ↔
    InsertedBy tr u id ∨ u = t ∧ ∃ p, insertedRow e = some p ∧ p.id = id := by
  constructor
  · rintro ⟨e', he, hp⟩
    rcases List.mem_append.mp he with he | he
    · exact .inl ⟨e', he, hp⟩
    · obtain ⟨rfl, rfl⟩ := Prod.mk.inj (List.mem_singleton.mp he)
      exact .inr ⟨rfl, hp⟩
  · rintro (h | ⟨rfl, hp⟩)
    · exact h.append _
    · exact ⟨e, by simp, hp⟩

end Trace

/-! ## The invariant -/

section Invariant

variable {ι : Type} [DecidableEq ι] (calls : ι → ServiceCall) (w : World)

/-- The invariant (module doc). -/
structure DraftInv (G : ι → Ghost) (s : World) (tr : List (ι × Event machine)) : Prop where
  owned : ownership.Inv G s
  replayed : s = replay w tr
  pending : Along (fun _ => FindsPending) w tr
  inserter : ∀ t id, G t = .owns id → InsertedBy tr t id
  creates : ∀ t id, InsertedBy tr t id → (calls t).IsCreate
  once : ∀ t u id, InsertedBy tr t id → InsertedBy tr u id → t = u
  there : ∀ t e id, (t, e) ∈ tr → writtenId e = some id → ∃ p ∈ s.payments, p.id = id
  writers : ∀ p ∈ s.payments, p.externalId = none →
    ∀ t e, (t, e) ∈ tr → writtenId e = some p.id → InsertedBy tr t p.id
  unsettled : w.DraftsUnsettled → s.DraftsUnsettled

def drafts : Proto machine ι Ghost where
  allow := Conc.Any
  inv := DraftInv calls w

variable {calls w} {G G' : ι → Ghost} {s s' : World} {tr : List (ι × Event machine)} {t : ι}
  {e : Event machine}

omit [DecidableEq ι] in
/-- A request of any kind (module doc). A payment without an external id after it was one before it,
or is new. -/
theorem DraftInv.step (h : DraftInv calls w G s tr) (hs : s' = (exec e.op e.dec s).2)
    (ho : ownership.Inv G' s') (hpend : FindsPending e s)
    (hown : ∀ u id, G' u = .owns id →
      G u = .owns id ∨ u = t ∧ ∃ p, insertedRow e = some p ∧ p.id = id)
    (hins : ∀ p, insertedRow e = some p → (calls t).IsCreate ∧ ∀ q ∈ s.payments, q.id ≠ p.id)
    (hkeep : ∀ p ∈ s.payments, ∃ p' ∈ s'.payments, p'.id = p.id)
    (hwrite : ∀ id, writtenId e = some id → ∃ p ∈ s'.payments, p.id = id)
    (hdraft : ∀ p ∈ s'.payments, p.externalId = none →
      (p ∈ s.payments ∨ p.Unsettled ∧
        ∀ q ∈ s.payments, q.id = p.id → q.externalId = none) ∧
      (writtenId e = some p.id → InsertedBy (tr ++ [(t, e)]) t p.id)) :
    DraftInv calls w G' s' (tr ++ [(t, e)]) := by
  -- a payment that a call inserted before is there, so it is not inserted again
  have hnew : ∀ u id, InsertedBy tr u id → ¬ ∃ p, insertedRow e = some p ∧ p.id = id := by
    rintro u id ⟨e', he', q, hq, rfl⟩ ⟨p, hp, hid⟩
    obtain ⟨a, ha, haid⟩ := h.there u e' _ he' (writtenId_of_insertedRow hq)
    exact (hins p hp).2 a ha (haid.trans hid.symm)
  refine ⟨ho, ?_, ?_, ?_, ?_, ?_, ?_, ?_, ?_⟩
  · rw [Conc.replay_snoc, ← h.replayed]
    exact hs
  · refine Conc.along_snoc.mpr ⟨h.pending, ?_⟩
    rw [← h.replayed]
    exact hpend
  · intro u id hu
    rcases hown u id hu with hu | hu
    · exact insertedBy_snoc.mpr (.inl (h.inserter u id hu))
    · exact insertedBy_snoc.mpr (.inr hu)
  · intro u id hu
    rcases insertedBy_snoc.mp hu with hu | ⟨rfl, p, hp, -⟩
    · exact h.creates u id hu
    · exact (hins p hp).1
  · intro u v id hu hv
    rcases insertedBy_snoc.mp hu with hu | ⟨rfl, hp⟩
    · rcases insertedBy_snoc.mp hv with hv | ⟨-, hp⟩
      · exact h.once u v id hu hv
      · exact absurd hp (hnew u id hu)
    · rcases insertedBy_snoc.mp hv with hv | ⟨rfl, -⟩
      · exact absurd hp (hnew v id hv)
      · rfl
  · intro u e' id he' hid
    rcases List.mem_append.mp he' with he' | he'
    · obtain ⟨p, hp, rfl⟩ := h.there u e' id he' hid
      exact hkeep p hp
    · obtain ⟨-, rfl⟩ := Prod.mk.inj (List.mem_singleton.mp he')
      exact hwrite id hid
  · intro p hp hnone u e' he' hid
    obtain ⟨hold, hnow⟩ := hdraft p hp hnone
    rcases List.mem_append.mp he' with he' | he'
    · obtain ⟨q, hq, hqid⟩ := h.there u e' _ he' hid
      have hqn : q.externalId = none := by
        rcases hold with hold | ⟨-, hold⟩
        · rw [Table.eq_of_key hq hold hqid]
          exact hnone
        · exact hold q hq hqid
      rw [← hqid] at hid ⊢
      exact insertedBy_snoc.mpr (.inl (h.writers q hq hqn u e' he' hid))
    · obtain ⟨rfl, rfl⟩ := Prod.mk.inj (List.mem_singleton.mp he')
      exact hnow hid
  · intro hw p hp hnone
    rcases (hdraft p hp hnone).1 with hold | ⟨hst, -⟩
    · exact h.unsettled hw p hold hnone
    · exact hst

omit [DecidableEq ι] in
theorem DraftInv.same (h : DraftInv calls w G s tr) (hs : s' = (exec e.op e.dec s).2)
    (hp : s'.payments = s.payments) (hpend : FindsPending e s) (hr : insertedRow e = none)
    (hw : writtenId e = none) : DraftInv calls w G s' (tr ++ [(t, e)]) := by
  have ho : ownership.Inv G s' :=
    Owning.Inv.mono h.owned fun _ _ hg => Ghost.fact_of_payments hp hg
  refine h.step hs ho hpend (fun u id hu => .inl hu) ?_ ?_ ?_ ?_
  · intro p hins
    rw [hr] at hins
    cases hins
  · rw [hp]
    exact fun p hmem => ⟨p, hmem, rfl⟩
  · intro id hid
    rw [hw] at hid
    cases hid
  · rw [hp]
    refine fun p hmem _ => ⟨.inl hmem, fun hid => ?_⟩
    rw [hw] at hid
    cases hid

omit [DecidableEq ι] in
theorem DraftInv.finds_pending (h : DraftInv calls w G s tr) {payment : Payment}
    {st : PaymentStatus} (ho : e.op.ownWrite = some (payment, st))
    (hG : G t = .owns payment.id) : FindsPending e s := by
  intro p st' hp
  rw [ho] at hp
  cases hp
  have hf := h.owned.fact t
  rw [hG] at hf
  exact hf

omit [DecidableEq ι] in
/-- A write of one payment, whose event has neither inserted it nor written another one. -/
theorem DraftInv.update (h : DraftInv calls w G s tr) (hs : s' = (exec e.op e.dec s).2)
    (ho : ownership.Inv G' s') (hown : ∀ u id, G' u = .owns id → G u = .owns id)
    (hpend : FindsPending e s) (hr : insertedRow e = none) {id : String}
    {f : Payment → Payment} {hf : Table.Keeps Payment.id Payment.tenantKey f} {q : Payment}
    (hu : s.payments.update id f hf = some (q, s'.payments)) (hid : writtenId e = some id)
    (hdraft : ∀ p ∈ s.payments, p.id = id → (f p).externalId = none →
      (f p).Unsettled ∧ p.externalId = none ∧ InsertedBy tr t id) :
    DraftInv calls w G' s' (tr ++ [(t, e)]) := by
  refine h.step hs ho hpend (fun u id hu => .inl (hown u id hu)) ?_ ?_ ?_ ?_
  · intro p hins
    rw [hr] at hins
    cases hins
  · intro p hp
    exact (Table.exists_update hu fun a => by rw [hf.key]).mpr ⟨p, hp, rfl⟩
  · intro id' hid'
    rw [hid] at hid'
    cases hid'
    obtain ⟨a, ha, hak, rfl, -⟩ := Table.update_some hu
    exact ⟨f a, (Table.mem_update hu).mpr (.inr rfl), (hf.key a).trans hak⟩
  · intro p hp hnone
    rcases (Table.mem_update hu).mp hp with ⟨hp, hne⟩ | rfl
    · refine ⟨.inl hp, fun hid' => ?_⟩
      rw [hid] at hid'
      exact absurd (Option.some.inj hid').symm hne
    · obtain ⟨a, ha, hak, rfl, -⟩ := Table.update_some hu
      obtain ⟨hst, hane, hins⟩ := hdraft a ha hak hnone
      refine ⟨.inr ⟨hst, fun b hb hbid => ?_⟩, fun _ => ?_⟩
      · rw [Table.eq_of_key hb ha (hbid.trans (hf.key a))]
        exact hane
      · rw [hf.key, hak]
        exact hins.append _

theorem writtenId_of_write {o : Op} {d : Decision} {a : o.Ans} {payment : Payment}
    {st : PaymentStatus}
    (h : o.ownWrite = some (payment, st) ∨ o.checkedWrite = some (payment, st)) :
    writtenId ⟨o, d, .ok a⟩ = some payment.id ∧ insertedRow ⟨o, d, .ok a⟩ = none := by
  cases o with
  | recordCharge p r st' => rcases h with h | h <;> cases h; exact ⟨rfl, rfl⟩
  | failPayment p m => rcases h with h | h <;> cases h; exact ⟨rfl, rfl⟩
  | recordRefund p st' b n r => rcases h with h | h <;> cases h; exact ⟨rfl, rfl⟩
  | applyWebhook p st' ev => rcases h with h | h <;> cases h; exact ⟨rfl, rfl⟩
  | applyReconciliation p st' raw => rcases h with h | h <;> cases h; exact ⟨rfl, rfl⟩
  | _ => rcases h with h | h <;> cases h

/-- A request that fails, or does not write payments, inserts none and writes none. -/
theorem writtenId_of_quiet {o : Op} {d : Decision} {r : Except Err o.Ans}
    (h : o.writesPayments = false ∨ ∃ e, r = .error e) :
    writtenId ⟨o, d, r⟩ = none ∧ insertedRow ⟨o, d, r⟩ = none := by
  rcases h with h | ⟨e, rfl⟩
  · cases o <;> first | (cases r <;> exact ⟨rfl, rfl⟩) | cases h
  · cases o <;> exact ⟨rfl, rfl⟩

/-- Only the two writes of `create` have something to find. -/
theorem findsPending_of_none (h : e.op.ownWrite = none) : FindsPending e s := by
  intro p st hp
  rw [h] at hp
  cases hp

theorem DraftInv.see (h : DraftInv calls w G s tr) {p : Payment} (hp : p ∈ s.payments)
    (he : p.externalId ≠ none) : DraftInv calls w (Function.update G t (.seen p.id)) s tr := by
  refine ⟨own_read h.owned hp he, h.replayed, h.pending, fun u id hu => ?_, h.creates,
    h.once, h.there, h.writers, h.unsettled⟩
  by_cases hut : u = t
  · rw [hut, Function.update_self] at hu
    cases hu
  · rw [Function.update_of_ne hut] at hu
    exact h.inserter u id hu

theorem DraftInv.insert (h : DraftInv calls w G s tr) (ht : (calls t).IsCreate)
    {orgId : String} {dto : CreatePaymentDto} {key providerId : String} {method : PaymentMethodKind}
    {d : Decision} {p : Payment}
    (hs : s' = (exec (.insertPayment orgId dto key providerId method) d s).2)
    (hp : s.payments.insert p = .ok s'.payments) (hst : p.status = .pending)
    (hnone : p.externalId = none) :
    DraftInv calls w (Function.update G t (.owns p.id)) s'
      (tr ++ [(t, ⟨.insertPayment orgId dto key providerId method, d, .ok p⟩)]) := by
  have hfresh := (Table.insert_ok hp).2.1
  refine h.step hs (own_insert h.owned hp hst hnone) (findsPending_of_none rfl) ?_ ?_ ?_ ?_ ?_
  · intro u id hu
    by_cases hut : u = t
    · rw [hut, Function.update_self] at hu
      cases hu
      exact .inr ⟨hut, p, rfl, rfl⟩
    · rw [Function.update_of_ne hut] at hu
      exact .inl hu
  · rintro q hq
    cases hq
    exact ⟨ht, hfresh⟩
  · exact fun q hq => ⟨q, (Table.mem_insert hp).mpr (.inl hq), rfl⟩
  · rintro id hid
    cases hid
    exact ⟨p, (Table.mem_insert hp).mpr (.inr rfl), rfl⟩
  · intro q hq _
    rcases (Table.mem_insert hp).mp hq with hq | rfl
    · refine ⟨.inl hq, fun hid => ?_⟩
      exact absurd (Option.some.inj hid).symm (hfresh q hq)
    · refine ⟨.inr ⟨.inl hst, fun a ha hid => absurd hid (hfresh a ha)⟩, fun _ => ?_⟩
      exact insertedBy_snoc.mpr (.inr ⟨rfl, q, rfl, rfl⟩)

/-- **The requests of every operation keep the invariant.** -/
theorem drafts_rules : WriteRules (drafts calls w) fun t => (calls t).IsCreate where
  owned hi := hi.owned
  see hi hp he := hi.see hp he
  quiet {G s s' tr t o d r} hi _ hx ho := by
    obtain ⟨hw, hr⟩ := writtenId_of_quiet (d := d) (r := r) (.inl ho)
    have hpend : FindsPending ⟨o, d, r⟩ s :=
      findsPending_of_none (by cases o <;> first | rfl | cases ho)
    exact ⟨trivial, hi.same (by rw [hx]) (exec_payments ho hx) hpend hr hw⟩
  insert {G s s' tr t orgId dto key providerId method d r} ht hi _ hx := by
    have hpend : FindsPending ⟨.insertPayment orgId dto key providerId method, d, r⟩ s :=
      findsPending_of_none rfl
    rcases exec_insertPayment hx with ⟨e, rfl, rfl⟩ | ⟨p, rfl, hp⟩
    · rw [Function.update_eq_self]
      exact ⟨trivial, hi.same (by rw [hx]) rfl hpend rfl rfl⟩
    · obtain ⟨c, hrow, -⟩ := hp.row
      have hnone : p.externalId = none := by rw [hrow]; rfl
      have hst : p.status = .pending := by rw [hrow]; rfl
      exact ⟨trivial, hi.insert ht (by rw [hx]) hp.payments hst hnone⟩
  own {G s s' tr t o d r payment st} hi _ hx ho hG _ := by
    have hpend : FindsPending ⟨o, d, r⟩ s := hi.finds_pending ho hG
    rcases exec_ownWrite ho hx with ⟨e, rfl, rfl⟩ | ⟨a, f, hf, q, rfl, hu, hst⟩
    · obtain ⟨hw, hr⟩ := writtenId_of_quiet (o := o) (d := d) (r := .error e) (.inr ⟨e, rfl⟩)
      rw [Function.update_eq_self]
      exact ⟨trivial, hi.same (by rw [hx]) rfl hpend hr hw⟩
    · obtain ⟨hw, hr⟩ := writtenId_of_write (d := d) (a := a) (.inl ho)
      -- after its own write the thread owns nothing, and the payment may have an external id
      refine ⟨trivial, hi.update (by rw [hx]) (own_write hi.owned hG hu) ?_ hpend hr hu hw ?_⟩
      · intro u id hu'
        by_cases hut : u = t
        · rw [hut, Function.update_self] at hu'
          cases hu'
        · rwa [Function.update_of_ne hut] at hu'
      · intro p hp hid hnone
        refine ⟨.inr ?_, (own_row hi.owned hG hp hid).2, hi.inserter t _ hG⟩
        rw [(hst p).1]
        exact (hst p).2 hnone
  checked {G s s' tr t o d r payment st} hi _ hx ho hG _ := by
    have hpend : FindsPending ⟨o, d, r⟩ s :=
      findsPending_of_none (by cases o <;> first | rfl | cases ho)
    rcases exec_checkedWrite ho hx with ⟨e, rfl, rfl⟩ | ⟨a, q, type, payload, rfl, -, hu, -⟩
    · obtain ⟨hw, hr⟩ := writtenId_of_quiet (o := o) (d := d) (r := .error e) (.inr ⟨e, rfl⟩)
      exact ⟨trivial, hi.same (by rw [hx]) rfl hpend hr hw⟩
    · obtain ⟨hw, hr⟩ := writtenId_of_write (d := d) (a := a) (.inr ho)
      refine ⟨trivial, hi.update (by rw [hx]) (seen_write hi.owned hG hu) (fun _ _ h => h) hpend hr
        hu hw ?_⟩
      intro p hp hid hnone
      -- a worker writes only payments that it has seen with an external id
      have hf := hi.owned.fact t
      rw [hG] at hf
      obtain ⟨b, hb, hbid, hne⟩ := hf
      rw [Table.eq_of_key hb hp (hbid.trans hid.symm)] at hne
      exact absurd hnone hne

theorem drafts_start (registry : ProviderRegistry) :
    (drafts calls w).Ok (fun _ _ _ => True) (startCalls registry calls w) := by
  refine ⟨fun _ => .idle, ?_, fun t => drafts_rules.call registry (calls t)
    fun dto key ctx h => ⟨dto, key, ctx, h⟩⟩
  refine ⟨Owning.Inv.start (fun _ => trivial) rfl, rfl, trivial, ?_, ?_, ?_, ?_, ?_, id⟩
  · exact fun t id h => by cases h
  · exact fun t id ⟨e, he, _⟩ => absurd he List.not_mem_nil
  · exact fun t u id ⟨e, he, _⟩ => absurd he List.not_mem_nil
  · exact fun t e id he => absurd he List.not_mem_nil
  · exact fun p _ _ t e he => absurd he List.not_mem_nil

/-- The writes of `create` find their payment PENDING, along every run from any state. -/
theorem finds_pending_along {registry : ProviderRegistry} {c : Conf machine ι Unit}
    (hr : Conf.Reach Conc.Any (startCalls registry calls w) c) :
    Along (fun _ => FindsPending) w c.trace := by
  obtain ⟨G, hi, -⟩ := Proto.sound (drafts_start registry) hr
  exact hi.pending

end Invariant

/-! ## Every run -/

/-- The payment is PENDING or FAILED, and it was inserted by one call at most, a `create`, which
alone has written it. -/
structure BelongsToCreate {ι : Type} (calls : ι → ServiceCall) (tr : List (ι × Event machine))
    (p : Payment) : Prop where
  unsettled : p.Unsettled
  writer : ∀ t e, (t, e) ∈ tr → writtenId e = some p.id →
    (calls t).IsCreate ∧ InsertedBy tr t p.id
  once : ∀ t u, InsertedBy tr t p.id → InsertedBy tr u p.id → t = u

/-- **Until its charge is recorded, a payment belongs to its `create`**: in every state of every run
of any operations, from any state in which the payments without an external id are PENDING or
FAILED; and whenever a call is about to write a status that it has not read, the payment is
PENDING. -/
theorem drafts_belong_to_create {ι : Type} [DecidableEq ι] (registry : ProviderRegistry)
    (calls : ι → ServiceCall) (w : World) (hw : w.DraftsUnsettled) (c : Conf machine ι Unit)
    (hr : Conf.Reach Conc.Any (startCalls registry calls w) c) :
    (∀ p ∈ c.st.payments, p.externalId = none → BelongsToCreate calls c.trace p) ∧
      ∀ t o k, c.thr t = .op o k → ∀ payment st, o.ownWrite = some (payment, st) →
        ∃ q ∈ c.st.payments, q.id = payment.id ∧ q.status = .pending := by
  obtain ⟨G, hi, -⟩ := Proto.sound (drafts_start registry) hr
  refine ⟨fun p hp hnone =>
      ⟨hi.unsettled hw p hp hnone, fun t e he hid => ?_, fun t u => hi.once t u _⟩,
    fun t o k ht payment st ho => ?_⟩
  · have hins := hi.writers p hp hnone t e he hid
    exact ⟨hi.creates t _ hins, hins⟩
  · -- the request that the call is about to make is the last one of a longer run
    have hstep : Conf.Reach Conc.Any (startCalls registry calls w) (c.next t o k ({} : Decision)) :=
      hr.tail (.mk _ ht trivial)
    have hlast := (Conc.along_snoc.mp (finds_pending_along hstep)).2
    rw [← hi.replayed] at hlast
    obtain ⟨q, hq, hid, hst, -⟩ := hlast payment st ho
    exact ⟨q, hq, hid, hst⟩

/-! ### A `create` and a reconciliation of its payment -/

/-- A `create` call, and a reconciliation of the payment that it inserts. -/
def createAndReconcile (create : Bool) : ServiceCall :=
  if create then .payments (.create sampleDto (some "key") sampleCtx) else .reconcile "pay"

/-- The payment is inserted, the reconciliation reads it, and the provider refuses the charge. -/
def refusedMeanwhile : List (Bool × Decision) := [
  (true, {}), (true, {}), (true, { newId := fun _ => "pay" }), (false, {}), (true, {}), (true, {})]

theorem drafts_sample :
    let c := (startCalls fakeRegistry createAndReconcile World.empty).play refusedMeanwhile
    (∀ p ∈ c.st.payments, p.externalId = none → BelongsToCreate createAndReconcile c.trace p) ∧
      ∀ t o k, c.thr t = .op o k → ∀ payment st, o.ownWrite = some (payment, st) →
        ∃ q ∈ c.st.payments, q.id = payment.id ∧ q.status = .pending :=
  drafts_belong_to_create fakeRegistry createAndReconcile World.empty
    (fun _ hp => absurd hp Table.not_mem_empty) _ (Conf.reach_play (Conf.plays_any _ _))

end Pasarela
