import Mathlib.Algebra.Ring.Int.Defs
import Pasarela.Conc.Local
import Pasarela.Idempotency

/-!
# The gauge of pending payments

`create` adds one to the gauge of the country before it maps the method and inserts the payment,
outside its `try`; it takes one away after the result of the charge is recorded, or in the `catch`.

* `pendingMoves country es`: what the requests `es` add to the gauge of the country.
* `Leaks`: the call stopped between the gauge and its `try`.
* `create_moves`: a call that ended has taken away what it added, but for one that leaks, which
  leaves one in the gauge of its country.
* `pending_gauge_balanced_iff`: when all calls of a run have ended, the gauge is what it was iff
  none of them leaks.
-/

namespace Pasarela

open Conc (Conf Event Prog ownEvents)
open PaymentsService

/-- What a request adds to the gauge of a country. -/
def Op.pendingMove (country : String) : Op → Int
  | .incrementPending c => if country = c then 1 else 0
  | .decrementPending c => if country = c then -1 else 0
  | _ => 0

/-- What the requests add to the gauge of a country (module doc). -/
def pendingMoves (country : String) (es : List (Event machine)) : Int :=
  (es.map fun e => e.op.pendingMove country).sum

/-- The lookup of a key that no payment has. -/
def missedKey : Event machine → Bool
  | ⟨.findPayment _, _, .ok none⟩ => true
  | _ => false

/-- The transaction that inserts a payment, aborted. -/
def abortedInsert : Event machine → Bool
  | ⟨.insertPayment _ _ _ _ _, _, .error _⟩ => true
  | _ => false

/-- The call with the requests `es` found no payment of its key and has a provider, and then its
method is not one of the map or its insert is aborted (module doc). -/
def Leaks (registry : ProviderRegistry) (dto : CreatePaymentDto) (es : List (Event machine)) :
    Bool :=
  es.any missedKey && (registry.selectFor dto.country dto.currency).isOk &&
    (!(toPrismaMethod dto.method).isOk || es.any abortedInsert)

/-! ## One call -/

section Call

variable {country : String} {es es' : List (Event machine)} {e : Event machine}

@[simp] theorem pendingMoves_nil : pendingMoves country [] = 0 := rfl

@[simp] theorem pendingMoves_append :
    pendingMoves country (es ++ es') = pendingMoves country es + pendingMoves country es' := by
  simp [pendingMoves]

@[simp] theorem pendingMoves_cons :
    pendingMoves country (e :: es) = e.op.pendingMove country + pendingMoves country es := by
  simp [pendingMoves]

theorem activePending_addPending (s : World) (c country : String) (n : Int) :
    (s.addPending c n).activePending country =
      s.activePending country + if country = c then n else 0 := by
  by_cases hc : country = c
  · simp [World.addPending, hc]
  · simp [World.addPending, hc]

/-- A transaction that writes a payment and an event leaves the gauge alone. -/
theorem Written.activePending {id : String} {f : Payment → Payment}
    {hf : Store.Table.Keeps Payment.id Payment.tenantKey f} {ev : PaymentEvent} {s s' : World}
    {q : Payment} (h : Written id f hf ev s q s') : s'.activePending = s.activePending := by
  rw [h.others]

/-- A request moves the gauge of a country as `Op.pendingMove` says. -/
theorem exec_activePending {o : Op} {d : Decision} {s s' : World} {r : Except Err o.Ans}
    (h : exec o d s = (r, s')) (country : String) :
    s'.activePending country = s.activePending country + o.pendingMove country := by
  have hsame : s'.activePending = s.activePending → s'.activePending country =
      s.activePending country + 0 := fun hs => by rw [hs, add_zero]
  cases o with
  | incrementPending c => obtain ⟨-, rfl⟩ := Prod.mk.inj h; exact activePending_addPending s c country 1
  | decrementPending c => obtain ⟨-, rfl⟩ := Prod.mk.inj h; exact activePending_addPending s c country (-1)
  -- no other request names the gauge
  | insertPayment orgId dto key providerId method =>
    rcases exec_insertPayment h with ⟨e, -, rfl⟩ | ⟨p, -, hp⟩
    · exact hsame rfl
    · exact hsame (by rw [hp.others])
  | recordCharge payment result st =>
    rcases exec_recordCharge h with ⟨e, -, rfl⟩ | ⟨q, -, hw⟩
    · exact hsame rfl
    · exact hsame hw.activePending
  | failPayment payment message =>
    rcases exec_failPayment h with ⟨e, -, rfl⟩ | ⟨q, -, -, hs⟩
    · exact hsame rfl
    · exact hsame (by rw [hs])
  | recordRefund payment st body amount result =>
    rcases exec_recordRefund h with ⟨e, -, rfl⟩ | ⟨q, -, -, hw⟩
    · exact hsame rfl
    · have hs := hw.activePending
      exact hsame hs
  | applyWebhook payment st event =>
    rcases exec_applyWebhook h with ⟨e, -, rfl⟩ | ⟨q, -, hw⟩
    · exact hsame rfl
    · exact hsame hw.activePending
  | applyReconciliation payment st raw =>
    rcases exec_applyReconciliation h with ⟨e, -, rfl⟩ | ⟨q, -, hw⟩
    · exact hsame rfl
    · exact hsame hw.activePending
  | auditLog entry => exact hsame (by rw [(exec_auditLog h).2])
  | markProcessed id => exact hsame (by rw [exec_markProcessed h])
  | createInbound providerId event headers =>
    rcases exec_createInbound h with ⟨e, -, rfl⟩ | ⟨-, -, hs⟩
    · exact hsame rfl
    · exact hsame (by rw [hs])
  | enqueueWebhook providerId inboundId event =>
    simp only [exec] at h
    rcases atomically_eq h with ⟨e, -, rfl⟩ | ⟨a, -, htx⟩
    · exact hsame rfl
    · cases htx; exact hsame rfl
  | findPayment w => exact hsame (by rw [(query_eq h).1])
  | findPaymentWithEvents w => simp only [exec] at h; exact hsame (by rw [(query_eq h).1])
  | pagePayments w skip take => simp only [exec] at h; exact hsame (by rw [(query_eq h).1])
  | findInbound providerId externalId => simp only [exec] at h; exact hsame (by rw [(query_eq h).1])
  | createCharge providerId input => obtain ⟨-, rfl⟩ := Prod.mk.inj h; exact hsame rfl
  | refundCharge providerId input => obtain ⟨-, rfl⟩ := Prod.mk.inj h; exact hsame rfl
  | retrieveCharge providerId externalId => obtain ⟨-, rfl⟩ := Prod.mk.inj h; exact hsame rfl

/-- A call that ended leaves one in the gauge of its country if it leaks, and else nothing. -/
def Settled (registry : ProviderRegistry) (dto : CreatePaymentDto) (es : List (Event machine)) :
    Prop :=
  ∀ country, pendingMoves country es =
    if country = dto.country ∧ Leaks registry dto es then 1 else 0

/-- The requests of a call added `n` to the gauge of its country, and its insert is not aborted. -/
structure Owes (dto : CreatePaymentDto) (n : Int) (es : List (Event machine)) : Prop where
  moves : ∀ country, pendingMoves country es = if country = dto.country then n else 0
  insert : es.any abortedInsert = false

variable {registry : ProviderRegistry} {dto : CreatePaymentDto}

theorem Owes.quiet {n : Int} (h : Owes dto n es) (he : ∀ country, e.op.pendingMove country = 0)
    (hi : abortedInsert e = false) : Owes dto n (es ++ [e]) := by
  refine ⟨fun country => ?_, by simp [h.insert, hi]⟩
  rw [pendingMoves_append, h.moves, pendingMoves_cons, he, pendingMoves_nil, add_zero, add_zero]

theorem Owes.down (h : Owes dto 1 es) {d : Decision} {r : Except Err Unit} :
    Owes dto 0 (es ++ [⟨.decrementPending dto.country, d, r⟩]) := by
  refine ⟨fun country => ?_, by simp [h.insert, abortedInsert]⟩
  rw [pendingMoves_append, h.moves]
  by_cases hc : country = dto.country <;> simp [Op.pendingMove, hc]

theorem Owes.settled (h : Owes dto 0 es) (hm : (toPrismaMethod dto.method).isOk) :
    Settled registry dto es := by
  intro country
  simp [h.moves, Leaks, h.insert, hm]

/-- The `catch` takes away what the call added, also when its update is aborted. -/
theorem chargeFailed_settled {payment : Payment} {err : Err} (h : Owes dto 1 es)
    (hm : (toPrismaMethod dto.method).isOk) :
    (chargeFailed dto payment err).Ends (fun es _ => Settled registry dto es) es := by
  refine Prog.Ends.perform_bind fun d s r s' hx => ?_
  obtain ⟨rfl, rfl⟩ := Prod.mk.inj hx
  refine Prog.Ends.perform_bind fun d s r s' hx => ?_
  cases r with
  | ok a => exact (h.down.quiet (fun _ => rfl) rfl).settled hm
  | error e => exact (h.down.quiet (fun _ => rfl) rfl).settled hm

/-- After the insert the call takes away what it added, whatever happens. -/
theorem charge_settled {provider : PaymentProvider} {key : String} {ctx : OrgContext}
    {payment : Payment} (h : Owes dto 1 es) (hm : (toPrismaMethod dto.method).isOk) :
    ((charge provider dto key ctx payment).tryCatch (chargeFailed dto payment)).Ends
      (fun es _ => Settled registry dto es) es := by
  refine Prog.Ends.tryCatch ?_
  refine Prog.Ends.perform_bind fun d s r s' hx => ?_
  have h := h.quiet (e := ⟨.createCharge _ _, d, r⟩) (fun _ => rfl) rfl
  cases r with
  | error e => exact chargeFailed_settled h hm
  | ok result =>
    refine Prog.Ends.perform_bind fun d s r s' hx => ?_
    have h := h.quiet (e := ⟨.recordCharge _ _ _, d, r⟩) (fun _ => rfl) rfl
    cases r with
    | error e => exact chargeFailed_settled h hm
    | ok q =>
      refine Prog.Ends.perform_bind fun d s r s' hx => ?_
      obtain ⟨rfl, rfl⟩ := Prod.mk.inj hx
      refine Prog.Ends.perform_bind fun d s r s' hx => ?_
      obtain ⟨rfl, -⟩ := exec_auditLog hx
      exact (h.down.quiet (fun _ => rfl) rfl).settled hm

/-- **How a call leaves the gauge** (module doc). -/
theorem create_settled (idempotencyKey : Option String) (ctx : OrgContext) :
    (create registry dto idempotencyKey ctx).Ends (fun es _ => Settled registry dto es) [] := by
  refine Prog.Ends.ofExcept_bind (fun key _ => ?_) fun e _ => fun country => by simp [Leaks]
  refine Prog.Ends.perform_bind fun d s r s' hx => ?_
  cases r with
  | error e => exact fun country => by simp [Leaks, missedKey, Op.pendingMove]
  | ok existing =>
    cases existing with
    | some p => exact fun country => by simp [Leaks, missedKey, Op.pendingMove]
    | none =>
      refine Prog.Ends.ofExcept_bind (fun provider hp => ?_) fun e hp => fun country => ?_
      · refine Prog.Ends.perform_bind fun d s r s' hx => ?_
        obtain ⟨rfl, rfl⟩ := Prod.mk.inj hx
        refine Prog.Ends.ofExcept_bind (fun method hm => ?_) fun e hm => fun country => ?_
        · refine Prog.Ends.perform_bind fun d s r s' hx => ?_
          cases r with
          | ok p =>
            refine charge_settled ⟨fun country => ?_, rfl⟩ (by rw [hm]; rfl)
            simp [Op.pendingMove]
          | error e =>
            intro country
            simp [Leaks, missedKey, abortedInsert, hp, Except.isOk, Except.toBool, Op.pendingMove]
        · simp [Leaks, missedKey, hp, hm, Except.isOk, Except.toBool, Op.pendingMove]
      · simp [Leaks, hp, Except.isOk, Except.toBool, Op.pendingMove]

end Call

/-! ## Runs -/

section Runs

variable {ι : Type} [DecidableEq ι] {registry : ProviderRegistry} {calls : ι → CreateCall}
  {w : World} {c : Conf machine ι SerializedPayment}

/-- The gauge of a country is what it was and what the requests added. -/
theorem activePending_eq {allow : Conc.Allow machine ι}
    (hr : Conf.Reach allow (startCreates registry calls w) c) (country : String) :
    c.st.activePending country =
      w.activePending country + (c.trace.map fun x => x.2.op.pendingMove country).sum := by
  induction hr with
  | refl => simp [startCreates, Conf.start]
  | tail _ hs ih =>
    obtain ⟨d, -, -⟩ := hs
    simp only [Conf.next, List.map_append, List.sum_append, ← add_assoc, ← ih]
    simp only [Event.of, List.map_cons, List.map_nil, List.sum_cons, List.sum_nil, add_zero]
    exact exec_activePending rfl country

/-- The gauge moved by one for each call that leaks, when all calls have ended. -/
theorem activePending_of_ended [Fintype ι]
    (hr : Conf.Reach Conc.Any (startCreates registry calls w) c)
    (hend : ∀ t, ∃ r, c.thr t = .ofExcept r) (country : String) :
    c.st.activePending country = w.activePending country +
      ∑ t, if country = (calls t).dto.country ∧
        Leaks registry (calls t).dto (ownEvents t c.trace) then 1 else 0 := by
  rw [activePending_eq hr, ← Conc.sum_ownEvents fun e : Event machine => e.op.pendingMove country]
  congr 1
  refine Finset.sum_congr rfl fun t _ => ?_
  obtain ⟨r, ht⟩ := hend t
  exact Conf.Reach.ended hr (fun t => create_settled (calls t).idempotencyKey (calls t).ctx) ht
    country

/-- The gauge is balanced: a call that ended took away what it added, and when all have ended the
gauge of every country is what it was. -/
structure GaugeBalanced (w : World) (c : Conf machine ι SerializedPayment) : Prop where
  each : ∀ t r, c.thr t = .ofExcept r → ∀ country, pendingMoves country (ownEvents t c.trace) = 0
  total : (∀ t, ∃ r, c.thr t = .ofExcept r) → c.st.activePending = w.activePending

end Runs

/-- **The gauge of pending payments is balanced** after a run of any `create` calls, if and only if
no call that ended found its key free, had a provider, and then had a method outside the map or an
insert that was aborted. -/
theorem pending_gauge_balanced_iff {ι : Type} [DecidableEq ι] [Fintype ι]
    (registry : ProviderRegistry) (calls : ι → CreateCall) (w : World)
    (c : Conf machine ι SerializedPayment)
    (hr : Conf.Reach Conc.Any (startCreates registry calls w) c) :
    GaugeBalanced w c ↔ ∀ t r, c.thr t = .ofExcept r →
      Leaks registry (calls t).dto (ownEvents t c.trace) = false := by
  have hended : ∀ t r, c.thr t = .ofExcept r →
      Settled registry (calls t).dto (ownEvents t c.trace) := fun t r ht =>
    Conf.Reach.ended hr (fun t => create_settled (calls t).idempotencyKey (calls t).ctx) ht
  constructor
  · intro h t r ht
    have hzero := h.each t r ht (calls t).dto.country
    rw [hended t r ht] at hzero
    simpa using hzero
  · intro h
    refine ⟨fun t r ht country => ?_, fun hend => funext fun country => ?_⟩
    · rw [hended t r ht country, h t r ht]
      simp
    · rw [activePending_of_ended hr hend, Finset.sum_eq_zero fun t _ => ?_, add_zero]
      obtain ⟨r, ht⟩ := hend t
      simp [h t r ht]

/-! ### One call -/

/-- A call with a method. -/
def createWith (method : String) : Conf machine Unit SerializedPayment :=
  startCreates fakeRegistry (fun _ => ⟨{ sampleDto with method }, some "key", sampleCtx⟩)
    World.empty

theorem pending_gauge_sample :
    GaugeBalanced World.empty ((createWith "card").play [((), {}), ((), {}),
      ((), { newId := fun _ => "pay" }), ((), {}), ((), {}),
      ((), { fail := some .rowNotFound })]) := by
  refine (pending_gauge_balanced_iff fakeRegistry _ World.empty _
    (Conf.reach_play (Conf.plays_any _ _))).mpr fun t r _ => ?_
  cases t
  decide +kernel

/-- A method that is not in the map: one more pending payment, and no payment. -/
theorem pending_gauge_drifts : ¬ ∀ c, Conf.Reach Conc.Any (createWith "bitcoin") c →
    GaugeBalanced World.empty c := by
  intro h
  have hb := h ((createWith "bitcoin").play [((), {}), ((), {})])
    (Conf.reach_play (Conf.plays_any _ _))
  have hend : ∀ t, ∃ r, ((createWith "bitcoin").play [((), {}), ((), {})]).thr t = .ofExcept r := by
    rintro ⟨⟩
    exact ⟨.error _, rfl⟩
  have hg := congrFun (hb.total hend) "AR"
  revert hg
  decide +kernel

end Pasarela
