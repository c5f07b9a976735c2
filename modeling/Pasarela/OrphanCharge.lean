import Pasarela.Effects
import Pasarela.Payments

/-!
# Charges that no payment records

One `create` call that reaches the provider, under any decisions of the environment. If the
provider performs the charge and it stands, the payment should carry its external id and not be
FAILED (`NoOrphan`): webhooks and the reconciliation find a payment by that id only.

* `insertedRow`, `performedCharge`, `recordedCharge`: what an event of the run says of the payment,
  of the charge at the provider, and of the transaction that records it.
* `create_reaches`: a run that reaches the provider inserted its payment, without an external id,
  and ends like `charge` with its `catch`.
* `charge_run`: either the provider answers and its result is recorded, or the payment ends without
  an external id, whatever the provider did (`no_orphan_iff`).
-/

namespace Pasarela

open Conc (Event Outcome Prog)
open Store (Table)
open PaymentsService

/-- The charge stands: the provider did not refuse or cancel it. -/
def ChargeResult.Stands (r : ChargeResult) : Prop := r.status ≠ .failed ∧ r.status ≠ .cancelled

/-- The payment that the event inserted. -/
def insertedRow : Event machine → Option Payment
  | ⟨.insertPayment _ _ _ _ _, _, .ok p⟩ => some p
  | _ => none

/-- The charge that the provider performed at the event, answered or not. -/
def performedCharge : Event machine → Option ChargeResult
  | ⟨.createCharge _ _, d, _⟩ => d.charge.performed
  | _ => none

theorem filterMap_performedCharge {providerId : String} {input : CreateChargeInput} {d : Decision}
    {r : Except Err ChargeResult} :
    [(⟨Op.createCharge providerId input, d, r⟩ : Event machine)].filterMap performedCharge =
      d.charge.performed.toList := by
  simp only [List.filterMap_cons, List.filterMap_nil, performedCharge]
  cases d.charge.performed <;> rfl

/-- The charge that the provider answered with at the event. -/
def answeredCharge : Event machine → Option ChargeResult
  | ⟨.createCharge _ _, _, .ok r⟩ => some r
  | _ => none

/-- The charge that a committed transaction recorded at the event. -/
def recordedCharge : Event machine → Option ChargeResult
  | ⟨.recordCharge _ r _, _, .ok _⟩ => some r
  | _ => none

/-- The event is a charge. -/
def isChargeEvent : Event machine → Bool
  | ⟨.createCharge _ _, _, _⟩ => true
  | _ => false

/-- Each charge that the provider performed and that stands is carried by the payment of the call,
which is not FAILED. -/
def NoOrphan (o : Outcome machine SerializedPayment) : Prop :=
  ∀ p ∈ o.trace.filterMap insertedRow, ∀ r ∈ o.trace.filterMap performedCharge, r.Stands →
    ∃ q ∈ o.state.payments, q.id = p.id ∧ q.status ≠ .failed ∧ q.externalId = some r.externalId

/-- Each charge that the provider performed and that stands was answered, and the transaction that
records it committed. -/
def AnsweredAndRecorded (o : Outcome machine SerializedPayment) : Prop :=
  ∀ r ∈ o.trace.filterMap performedCharge, r.Stands →
    r ∈ o.trace.filterMap answeredCharge ∧ r ∈ o.trace.filterMap recordedCharge

section Run

variable {ω : Op → Decision} {registry : ProviderRegistry} {dto : CreatePaymentDto}
  {idempotencyKey : Option String} {key : String} {ctx : OrgContext} {s s' : World}

/-- The run made a charge. -/
def Charges {α : Type} (o : Outcome machine α) : Prop := ∃ e ∈ o.trace, isChargeEvent e

theorem not_charges_nil {α : Type} {r : Except Err α} : ¬ Charges (⟨r, s, []⟩ : Outcome machine α) :=
  fun ⟨_, he, _⟩ => List.not_mem_nil he

theorem Charges.of_after {α : Type} {e : Event machine} {o : Outcome machine α}
    (h : Charges (o.after [e])) (he : isChargeEvent e = false) : Charges o := by
  obtain ⟨e', he', hc⟩ := h
  rcases List.mem_cons.mp he' with rfl | he'
  · rw [he] at hc
    cases hc
  · exact ⟨e', he', hc⟩

/-- The payment of the call is inserted, without an external id, in the state `s₁`, after the
requests `pre`, and `charge` with its `catch` follows. -/
structure Reaches (ω : Op → Decision) (dto : CreatePaymentDto) (ctx : OrgContext)
    (o : Outcome machine SerializedPayment) (provider : PaymentProvider) (key : String)
    (p : Payment) (s₁ : World) (pre : List (Event machine)) : Prop where
  run : o = (((charge provider dto key ctx p).tryCatch (chargeFailed dto p)).run ω s₁).after pre
  mem : p ∈ s₁.payments
  externalId : p.externalId = none
  inserted : pre.filterMap insertedRow = [p]
  performed : pre.filterMap performedCharge = []
  recorded : pre.filterMap recordedCharge = []

theorem createNew_reaches (h : Charges ((createNew registry dto key ctx).run ω s)) :
    ∃ provider p s₁ pre,
      Reaches ω dto ctx ((createNew registry dto key ctx).run ω s) provider key p s₁ pre := by
  cases hsel : registry.selectFor dto.country dto.currency with
  | error e =>
    have hnew : createNew registry dto key ctx = .throw e := by
      rw [createNew, hsel]
      rfl
    rw [hnew] at h
    exact absurd h not_charges_nil
  | ok provider =>
    cases hmethod : toPrismaMethod dto.method with
    | error e =>
      rw [createNew_of_bad_method hsel hmethod, run_incrementPending] at h
      exact absurd (h.of_after rfl) not_charges_nil
    | ok method =>
      rw [createNew_of_ok hsel hmethod, run_incrementPending] at h ⊢
      have hins := h.of_after rfl
      cases hx : exec (.insertPayment ctx.organizationId dto key provider.id method)
          (ω (.insertPayment ctx.organizationId dto key provider.id method))
          (s.addPending dto.country 1) with
      | mk r s₁ =>
        rcases exec_insertPayment hx with ⟨e, rfl, rfl⟩ | ⟨p, rfl, hp⟩
        · rw [Prog.run_perform_error (M := machine) hx] at hins
          obtain ⟨e', he', hc⟩ := hins
          rw [List.mem_singleton.mp he'] at hc
          cases hc
        · rw [Prog.run_perform_ok (M := machine) hx, Outcome.after_after]
          obtain ⟨c, hrow, -⟩ := hp.row
          exact ⟨provider, p, s₁, _, rfl, (Table.mem_insert hp.payments).mpr (.inr rfl),
            by rw [hrow]; rfl, rfl, rfl, rfl⟩

/-- A run that reaches the provider (module doc). -/
theorem create_reaches (h : Charges ((create registry dto idempotencyKey ctx).run ω s)) :
    ∃ provider key p s₁ pre, Reaches ω dto ctx ((create registry dto idempotencyKey ctx).run ω s)
      provider key p s₁ pre := by
  cases hkey : checkKey idempotencyKey with
  | error e =>
    have hcreate : create registry dto idempotencyKey ctx = .throw e := by
      rw [create, hkey]
      rfl
    rw [hcreate] at h
    exact absurd h not_charges_nil
  | ok key =>
    let w : PaymentWhere :=
      { organizationId := some ctx.organizationId, idempotencyKey := some key }
    obtain ⟨f, hcreate, hsome, hnone⟩ := create_of_key registry dto ctx hkey
    rw [hcreate] at h ⊢
    cases hx : exec (.findPayment w) (ω (.findPayment w)) s with
    | mk r s' =>
      obtain ⟨rfl, ⟨e, rfl⟩ | ⟨rfl, -⟩ | ⟨q, rfl, -⟩⟩ := exec_findPayment hx
      · rw [Prog.run_perform_error (M := machine) hx] at h
        obtain ⟨e', he', hc⟩ := h
        rw [List.mem_singleton.mp he'] at hc
        cases hc
      · rw [Prog.run_perform_ok (M := machine) hx, hnone] at h ⊢
        obtain ⟨provider, p, s₁, pre, hr⟩ := createNew_reaches (h.of_after rfl)
        refine ⟨provider, key, p, s₁, [⟨.findPayment w, ω (.findPayment w), .ok none⟩] ++ pre, ?_,
          hr.mem, hr.externalId, ?_, ?_, ?_⟩
        · rw [hr.run, Outcome.after_after]
        · rw [List.filterMap_append, hr.inserted]
          rfl
        · rw [List.filterMap_append, hr.performed]
          rfl
        · rw [List.filterMap_append, hr.recorded]
          rfl
      · rw [Prog.run_perform_ok (M := machine) hx, hsome] at h
        exact absurd (h.of_after rfl) not_charges_nil

/-- The row of `p` has no external id. -/
def Unlinked (p : Payment) (s : World) : Prop :=
  ∀ q ∈ s.payments, q.id = p.id → q.externalId = none

variable {p : Payment}

theorem Unlinked.of_mem (hp : p ∈ s.payments) (he : p.externalId = none) : Unlinked p s := by
  intro q hq hid
  rw [Table.eq_of_key hq hp hid]
  exact he

theorem Unlinked.update_failed (h : Unlinked p s) {d : Decision} {message : String} {q : Payment}
    (hu : s.payments.update p.id (setFailed d message) (keeps_setFailed d _) =
      some (q, s'.payments)) : Unlinked p s' := by
  intro a ha hid
  rcases (Table.mem_update hu).mp ha with ⟨-, hne⟩ | rfl
  · exact absurd hid hne
  · obtain ⟨b, hb, hbid, rfl, -⟩ := Table.update_some hu
    exact h b hb hbid

/-- The requests of the run say nothing of a charge. -/
structure Silent (tr : List (Event machine)) : Prop where
  inserted : tr.filterMap insertedRow = []
  performed : tr.filterMap performedCharge = []
  recorded : tr.filterMap recordedCharge = []

/-- The `catch` leaves the payment as it is, or FAILED, without an external id. -/
theorem chargeFailed_run (h : Unlinked p s) (e : Err) :
    Unlinked p ((chargeFailed dto p e).run ω s).state ∧
      Silent ((chargeFailed dto p e).run ω s).trace := by
  have hfailed : chargeFailed dto p e = (request (.decrementPending dto.country)).bind fun _ =>
      (request (.failPayment p e.message)).bind fun _ => .throw e := rfl
  rw [hfailed, run_decrementPending]
  cases hx : exec (.failPayment p e.message) (ω (.failPayment p e.message))
      (s.addPending dto.country (-1)) with
  | mk r s' =>
    rcases exec_failPayment hx with ⟨e', rfl, rfl⟩ | ⟨q, rfl, hu, -⟩
    · rw [Prog.run_perform_error (M := machine) hx]
      exact ⟨h, rfl, rfl, rfl⟩
    · rw [Prog.run_perform_ok (M := machine) hx]
      exact ⟨Unlinked.update_failed h hu, rfl, rfl, rfl⟩

/-- What `charge` with its `catch` comes to: the provider answered `r` and the row records it, or
the row has no external id. -/
structure ChargeRun (d : Decision) (p : Payment) (o : Outcome machine SerializedPayment) :
    Prop where
  inserted : o.trace.filterMap insertedRow = []
  performed : o.trace.filterMap performedCharge = d.charge.performed.toList
  cases :
    (∃ r, d.charge = .answered r ∧ o.trace.filterMap answeredCharge = [r] ∧
      o.trace.filterMap recordedCharge = [r] ∧ ∃ q ∈ o.state.payments, q.id = p.id ∧
        q.status = mapProviderStatus r.status ∧ q.externalId = some r.externalId) ∨
    o.trace.filterMap recordedCharge = [] ∧ Unlinked p o.state

theorem ChargeRun.failed {provider : PaymentProvider} {d : Decision} (h : Unlinked p s) {e : Err}
    {tr : List (Event machine)}
    (hrun : (charge provider dto key ctx p).run ω s = ⟨.error e, s, tr⟩)
    (hi : tr.filterMap insertedRow = [])
    (hp : tr.filterMap performedCharge = d.charge.performed.toList)
    (hr : tr.filterMap recordedCharge = []) :
    ChargeRun d p
      (((charge provider dto key ctx p).tryCatch (chargeFailed dto p)).run ω s) := by
  obtain ⟨hu, hs⟩ : Unlinked p ((chargeFailed dto p e).run ω s).state ∧
      Silent ((chargeFailed dto p e).run ω s).trace := chargeFailed_run h e
  rw [Prog.run_tryCatch, hrun]
  refine ⟨?_, ?_, .inr ⟨?_, hu⟩⟩
  · rw [Outcome.after_trace, List.filterMap_append, hi, hs.inserted]
    rfl
  · rw [Outcome.after_trace, List.filterMap_append, hp, hs.performed, List.append_nil]
  · rw [Outcome.after_trace, List.filterMap_append, hr, hs.recorded]
    rfl

theorem charge_run {provider : PaymentProvider} (h : Unlinked p s) :
    ChargeRun (ω (.createCharge provider.id (chargeInput dto key p))) p
      (((charge provider dto key ctx p).tryCatch (chargeFailed dto p)).run ω s) := by
  have hcharge : charge provider dto key ctx p =
      (request (.createCharge provider.id (chargeInput dto key p))).bind fun result =>
        (request (.recordCharge p result (mapProviderStatus result.status))).bind fun updated =>
          (request (.decrementPending dto.country)).bind fun _ =>
            (request (.auditLog (createdEntry ctx updated (mapProviderStatus result.status)
              provider.id))).bind fun _ => .ret (serialize updated) := rfl
  cases hans : (ω (.createCharge provider.id (chargeInput dto key p))).charge.answer with
  | error e =>
    have hx : exec (.createCharge provider.id (chargeInput dto key p))
        (ω (.createCharge provider.id (chargeInput dto key p))) s = (.error e, s) := by
      rw [exec, hans]
    refine ChargeRun.failed h (by rw [hcharge, Prog.run_perform_error (M := machine) hx]) rfl ?_ rfl
    exact filterMap_performedCharge
  | ok r =>
    have hd := Remote.answer_ok hans
    have hx : exec (.createCharge provider.id (chargeInput dto key p))
        (ω (.createCharge provider.id (chargeInput dto key p))) s = (.ok r, s) := by
      rw [exec, hans]
    -- whether the result is recorded decides; the `catch` leaves the external id as it is
    cases hrec : exec (.recordCharge p r (mapProviderStatus r.status))
        (ω (.recordCharge p r (mapProviderStatus r.status))) s with
    | mk a s₁ =>
      rcases exec_recordCharge hrec with ⟨e, rfl, rfl⟩ | ⟨q, rfl, hw⟩
      · have hrun : (charge provider dto key ctx p).run ω s₁ = ⟨.error e, s₁, [
            ⟨.createCharge provider.id (chargeInput dto key p),
              ω (.createCharge provider.id (chargeInput dto key p)), .ok r⟩,
            ⟨.recordCharge p r (mapProviderStatus r.status),
              ω (.recordCharge p r (mapProviderStatus r.status)), .error e⟩]⟩ := by
          rw [hcharge, Prog.run_perform_ok (M := machine) hx,
            Prog.run_perform_error (M := machine) hrec]
          rfl
        refine ChargeRun.failed h hrun rfl ?_ rfl
        simp [performedCharge, hd, Remote.performed]
      · obtain ⟨b, hb, hbid, hq, -⟩ := Table.update_some hw.payments
        cases haud : exec (.auditLog (createdEntry ctx q (mapProviderStatus r.status) provider.id))
            (ω (.auditLog (createdEntry ctx q (mapProviderStatus r.status) provider.id)))
            (s₁.addPending dto.country (-1)) with
        | mk u s₂ =>
          obtain ⟨rfl, hs₂⟩ := exec_auditLog haud
          have hpay : s₂.payments = s₁.payments := by rw [hs₂]; rfl
          rw [Prog.run_tryCatch, hcharge, Prog.run_perform_ok (M := machine) hx,
            Prog.run_perform_ok (M := machine) hrec,
            run_decrementPending,
            Prog.run_perform_ok (M := machine) haud]
          refine ⟨rfl, ?_, .inl ⟨r, hd, rfl, rfl, q, ?_, ?_, ?_, ?_⟩⟩
          · simp [performedCharge, hd, Remote.performed, Outcome.after]
          · show q ∈ s₂.payments
            rw [hpay]
            exact (Table.mem_update hw.payments).mpr (.inr rfl)
          · exact Table.key_update hw.payments
          · rw [hq]; rfl
          · rw [hq]; rfl

theorem mapProviderStatus_ne_failed {r : ChargeResult} (h : r.Stands) :
    mapProviderStatus r.status ≠ .failed := by
  obtain ⟨hf, -⟩ := h
  cases hs : r.status with
  | failed => exact absurd hs hf
  | pending => decide
  | authorized => decide
  | captured => decide
  | cancelled => decide
  | refunded => decide

end Run

/-- **When a charge is orphaned.** In every run of `create` that reaches the provider, under any
decisions of the environment and from any state, the charge is carried by its payment iff a charge
that stands was answered and recorded. -/
theorem no_orphan_iff (registry : ProviderRegistry) (dto : CreatePaymentDto)
    (idempotencyKey : Option String) (ctx : OrgContext) (ω : Op → Decision) (s : World)
    (h : Charges ((create registry dto idempotencyKey ctx).run ω s)) :
    NoOrphan ((create registry dto idempotencyKey ctx).run ω s) ↔
      AnsweredAndRecorded ((create registry dto idempotencyKey ctx).run ω s) := by
  obtain ⟨provider, key, p, s₁, pre, hr⟩ := create_reaches h
  have hc : ChargeRun (ω (.createCharge provider.id (chargeInput dto key p))) p
      (((charge provider dto key ctx p).tryCatch (chargeFailed dto p)).run ω s₁) :=
    charge_run (Unlinked.of_mem hr.mem hr.externalId)
  rw [hr.run]
  generalize ((charge provider dto key ctx p).tryCatch (chargeFailed dto p)).run ω s₁ = o at hc
  have hins : (o.after pre).trace.filterMap insertedRow = [p] := by
    rw [Outcome.after_trace, List.filterMap_append, hr.inserted, hc.inserted]
    rfl
  have hper : (o.after pre).trace.filterMap performedCharge =
      (ω (.createCharge provider.id (chargeInput dto key p))).charge.performed.toList := by
    rw [Outcome.after_trace, List.filterMap_append, hr.performed, hc.performed, List.nil_append]
  -- the run made one charge for one payment: it was answered and recorded, or nothing was recorded
  rcases hc.cases with ⟨r, hd, hans, hrec, q, hq, hid, hst, hext⟩ | ⟨hrec, hu⟩
  · rw [hd] at hper
    have hr' : ∀ r' ∈ (o.after pre).trace.filterMap performedCharge, r' = r := by
      rw [hper]
      exact fun r' hr' => List.mem_singleton.mp hr'
    refine iff_of_true ?_ ?_
    · intro p' hp' r' hmem hs
      rw [hins, List.mem_singleton] at hp'
      rw [hr' r' hmem] at hs ⊢
      exact ⟨q, hq, by rw [hid, hp'], by rw [hst]; exact mapProviderStatus_ne_failed hs, hext⟩
    · intro r' hmem _
      rw [hr' r' hmem, Outcome.after_trace, List.filterMap_append, List.filterMap_append, hans,
        hrec]
      exact ⟨List.mem_append_right _ (List.mem_singleton_self r),
        List.mem_append_right _ (List.mem_singleton_self r)⟩
  · constructor
    · intro hno r hmem hs
      obtain ⟨q, hq, hid, -, hext⟩ := hno p (by rw [hins]; exact List.mem_singleton_self p) r hmem hs
      rw [hu q hq hid] at hext
      cases hext
    · intro hrecorded p' _ r hmem hs
      have hnone : (o.after pre).trace.filterMap recordedCharge = [] := by
        rw [Outcome.after_trace, List.filterMap_append, hr.recorded, hrec]
        rfl
      have hin := (hrecorded r hmem hs).2
      rw [hnone] at hin
      cases hin

/-! ### A charge that is answered, and one whose answer is lost -/

/-- The decisions: the charge is captured, and the ids of the events differ. -/
def capturing : Op → Decision
  | .recordCharge _ _ _ => { newId := fun _ => "event" }
  | _ => { charge := .answered ⟨"fake_key", .captured, .null⟩ }

theorem no_orphan_sample :
    Charges ((create fakeRegistry sampleDto (some "key") sampleCtx).run capturing .empty) ∧
    (NoOrphan ((create fakeRegistry sampleDto (some "key") sampleCtx).run capturing .empty) ↔
      AnsweredAndRecorded
        ((create fakeRegistry sampleDto (some "key") sampleCtx).run capturing .empty)) := by
  have h : Charges ((create fakeRegistry sampleDto (some "key") sampleCtx).run capturing .empty) :=
    ⟨_, .tail _ (.tail _ (.tail _ (.head _))), rfl⟩
  exact ⟨h, no_orphan_iff fakeRegistry sampleDto (some "key") sampleCtx capturing .empty h⟩

/-- The decisions: the provider captures the charge, and the caller gets a timeout. -/
def losing : Op → Decision := fun _ =>
  { charge := .lost ⟨"fake_key", .captured, .null⟩ (.payment .providerTimeout none) }

/-- A charge whose answer is lost: the payment is FAILED, and has no external id. -/
theorem lost_charge_orphaned : ¬ ∀ (registry : ProviderRegistry) (dto : CreatePaymentDto)
    (idempotencyKey : Option String) (ctx : OrgContext) (ω : Op → Decision) (s : World),
    dto.method ∈ methodMap.map (·.1) →
    Charges ((create registry dto idempotencyKey ctx).run ω s) →
    NoOrphan ((create registry dto idempotencyKey ctx).run ω s) := by
  intro h
  have hno := h fakeRegistry sampleDto (some "key") sampleCtx losing .empty (by decide)
    ⟨_, .tail _ (.tail _ (.tail _ (.head _))), rfl⟩
  obtain ⟨q, hq, -, -, hext⟩ := hno _ (.head _) ⟨"fake_key", .captured, .null⟩ (.head _)
    ⟨by decide, by decide⟩
  rw [List.mem_singleton.mp hq] at hext
  cases hext

end Pasarela
