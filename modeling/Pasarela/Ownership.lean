import Pasarela.Calls
import Pasarela.Conc.Owned
import Pasarela.Conc.Pool
import Pasarela.Effects

/-!
# Who may write a payment

Any number of operations run side by side on any payments. `create` writes the status of its
payment twice without reading it again; the others read a payment that has an external id, check
the transition against the status they read, and later write the payment by its id.

* `Ghost`: what a thread knows between its requests. It `owns` the payment that its `create`
  inserted, which has no external id yet, so no other operation can find it; or it has `seen` a
  payment with an external id. `ownership` is the invariant; `own_read`, `own_insert`, `own_write`
  and `seen_write` are its steps.
* `WriteRules`: a protocol whose invariant contains `ownership`, with what it says of each kind of
  request: one that leaves the payments alone, an insert, a write of the owner, a checked write.
  `WriteRules.call`: then every operation keeps the protocol. What the requests of an operation know
  when they are made is proved here, once for all such protocols.
-/

namespace Pasarela

open Conc (Owning Proto Prog Conf)
open Store (Table)
open PaymentsService

/-- What a thread knows (module doc). -/
inductive Ghost where
  | idle
  | owns (id : String)
  | seen (id : String)

/-- What a ghost value says of the payments. -/
def Ghost.fact : Ghost → World → Prop
  | .idle, _ => True
  | .owns id, s => ∃ p ∈ s.payments, p.id = id ∧ p.status = .pending ∧ p.externalId = none
  | .seen id, s => ∃ p ∈ s.payments, p.id = id ∧ p.externalId ≠ none

def Ghost.owner : Ghost → Option String
  | .owns id => some id
  | _ => none

/-- The threads own the payments whose `create` has not recorded a charge yet. -/
def ownership {ι : Type} : Owning ι Ghost World String := ⟨fun _ => Ghost.fact, Ghost.owner⟩

/-! ## Steps -/

theorem Ghost.fact_update {s s' : World} {id : String} {f : Payment → Payment}
    {hf : Table.Keeps Payment.id Payment.tenantKey f} {q : Payment}
    (h : s.payments.update id f hf = some (q, s'.payments)) {g : Ghost} (hg : g.fact s)
    (ho : g ≠ .owns id) (hn : g ≠ .seen id) : g.fact s' := by
  cases g with
  | idle => trivial
  | owns id' =>
    obtain ⟨p, hp, rfl, hrest⟩ := hg
    have hne : p.id ≠ id := fun e => ho (by rw [e])
    exact ⟨p, (Table.mem_update h).mpr (.inl ⟨hp, hne⟩), rfl, hrest⟩
  | seen id' =>
    obtain ⟨p, hp, rfl, hrest⟩ := hg
    have hne : p.id ≠ id := fun e => hn (by rw [e])
    exact ⟨p, (Table.mem_update h).mpr (.inl ⟨hp, hne⟩), rfl, hrest⟩

theorem Ghost.fact_of_payments {s s' : World} (h : s'.payments = s.payments) {g : Ghost}
    (hg : g.fact s) : g.fact s' := by
  cases g with
  | idle => trivial
  | owns id => rw [Ghost.fact, h]; exact hg
  | seen id => rw [Ghost.fact, h]; exact hg

section Steps

variable {ι : Type} {G : ι → Ghost} {s s' : World} {t : ι}

theorem own_row (h : ownership.Inv G s) {id : String} (hG : G t = .owns id) {p : Payment}
    (hp : p ∈ s.payments) (hid : p.id = id) : p.status = .pending ∧ p.externalId = none := by
  have hf := h.fact t
  rw [hG] at hf
  obtain ⟨q, hq, hqid, hrest⟩ := hf
  rw [Table.eq_of_key hp hq (hid.trans hqid.symm)]
  exact hrest

theorem seen_write (h : ownership.Inv G s) {id : String} (hG : G t = .seen id) {d : Decision}
    {st : PaymentStatus} {q : Payment}
    (hu : s.payments.update id (setStatus d st) (keeps_setStatus d st) = some (q, s'.payments)) :
    ownership.Inv G s' := by
  have hf := h.fact t
  rw [hG] at hf
  obtain ⟨p, hp, hid, hne⟩ := hf
  refine h.mono fun u g hg => ?_
  cases g with
  | idle => trivial
  | owns id' =>
    refine Ghost.fact_update (g := .owns id') hu hg ?_ (fun hc => by cases hc)
    rintro hc
    cases hc
    obtain ⟨p', hp', hid', -, he'⟩ := hg
    rw [Table.eq_of_key hp' hp (hid'.trans hid.symm)] at he'
    exact hne he'
  | seen id' =>
    by_cases hc : id' = id
    · obtain ⟨a, ha, hak, rfl, -⟩ := Table.update_some hu
      rw [Table.eq_of_key ha hp (hak.trans hid.symm)] at *
      exact ⟨_, (Table.mem_update hu).mpr (.inr rfl), by rw [hc]; exact hid, hne⟩
    · refine Ghost.fact_update (g := .seen id') hu hg (fun hn => by cases hn) ?_
      rintro hn
      cases hn
      exact hc rfl

variable [DecidableEq ι]

theorem own_read (h : ownership.Inv G s) {p : Payment} (hp : p ∈ s.payments)
    (he : p.externalId ≠ none) : ownership.Inv (Function.update G t (.seen p.id)) s :=
  h.step ⟨p, hp, rfl, he⟩ (fun _ hk => by cases hk) fun _ _ _ hg _ => hg

theorem own_insert (h : ownership.Inv G s) {p : Payment}
    (hi : s.payments.insert p = .ok s'.payments) (hs : p.status = .pending)
    (he : p.externalId = none) : ownership.Inv (Function.update G t (.owns p.id)) s' := by
  refine h.step ⟨p, (Table.mem_insert hi).mpr (.inr rfl), rfl, hs, he⟩ ?_ ?_
  · rintro k hk
    cases hk
    refine .inr fun u hu => ?_
    have hf := h.fact u
    cases hg : G u with
    | idle => rw [hg] at hu; cases hu
    | seen id => rw [hg] at hu; cases hu
    | owns id =>
      rw [hg] at hu hf
      cases hu
      obtain ⟨q, hq, hid, -⟩ := hf
      exact (Table.insert_ok hi).2.1 q hq hid
  · intro u g _ hg _
    cases g with
    | idle => trivial
    | owns id =>
      obtain ⟨q, hq, hrest⟩ := hg
      exact ⟨q, (Table.mem_insert hi).mpr (.inl hq), hrest⟩
    | seen id =>
      obtain ⟨q, hq, hrest⟩ := hg
      exact ⟨q, (Table.mem_insert hi).mpr (.inl hq), hrest⟩

theorem own_write (h : ownership.Inv G s) {id : String} (hG : G t = .owns id)
    {f : Payment → Payment} {hf : Table.Keeps Payment.id Payment.tenantKey f} {q : Payment}
    (hu : s.payments.update id f hf = some (q, s'.payments)) :
    ownership.Inv (Function.update G t .idle) s' := by
  refine h.step trivial (fun _ hk => by cases hk) fun u g _ hg ho => ?_
  refine Ghost.fact_update hu hg ?_ ?_
  · rintro rfl
    exact ho id rfl (by rw [hG]; rfl)
  · rintro rfl
    obtain ⟨p, hp, hid, hne⟩ := hg
    exact hne (own_row h hG hp hid).2

end Steps

/-! ## The operations -/

/-- A protocol that contains the ownership, and in which the threads that `creates` names may insert
(module doc). -/
structure WriteRules {ι : Type} [DecidableEq ι] (P : Proto machine ι Ghost) (creates : ι → Prop) :
    Prop where
  owned : ∀ {G s tr}, P.inv G s tr → ownership.Inv G s
  see : ∀ {G s tr t p}, P.inv G s tr → p ∈ s.payments → p.externalId ≠ none →
    P.inv (Function.update G t (.seen p.id)) s tr
  quiet : ∀ {G s s' tr t o d r}, P.inv G s tr → P.allow t o d s → exec o d s = (r, s') →
    o.writesPayments = false → P.guar s s' ∧ P.inv G s' (tr ++ [(t, ⟨o, d, r⟩)])
  insert : ∀ {G s s' tr t orgId dto key providerId method d r}, creates t → P.inv G s tr →
    P.allow t (.insertPayment orgId dto key providerId method) d s →
    exec (.insertPayment orgId dto key providerId method) d s = (r, s') →
    P.guar s s' ∧ P.inv (Function.update G t (match r with
        | .ok p => .owns p.id
        | .error _ => G t)) s'
      (tr ++ [(t, ⟨.insertPayment orgId dto key providerId method, d, r⟩)])
  own : ∀ {G s s' tr t o d r payment st}, P.inv G s tr → P.allow t o d s →
    exec o d s = (r, s') → o.ownWrite = some (payment, st) → G t = .owns payment.id →
    Valid .pending st →
    P.guar s s' ∧ P.inv (Function.update G t (match r with
        | .ok _ => .idle
        | .error _ => G t)) s' (tr ++ [(t, ⟨o, d, r⟩)])
  checked : ∀ {G s s' tr t o d r payment st}, P.inv G s tr → P.allow t o d s →
    exec o d s = (r, s') → o.checkedWrite = some (payment, st) → G t = .seen payment.id →
    Valid payment.status st → P.guar s s' ∧ P.inv G s' (tr ++ [(t, ⟨o, d, r⟩)])

namespace WriteRules

variable {ι : Type} [DecidableEq ι] {P : Proto machine ι Ghost} {creates : ι → Prop} {t : ι}
  {α : Type} {Q : Except Err α → Ghost → Prop} {g : Ghost}

theorem quiet_wp (h : WriteRules P creates) {o : Op} {f : o.Ans → Service α}
    (ho : o.writesPayments = false) (hok : ∀ a, P.WP t Q (f a) g)
    (herr : ∀ e d s s', exec o d s = (.error e, s') → Q (.error e) g) :
    P.WP t Q ((request o).bind f) g := by
  refine Proto.WP.perform_bind fun G s tr d r s' hG hi ha hx => ?_
  obtain ⟨hgu, hi'⟩ := h.quiet hi ha hx ho
  refine ⟨hgu, Proto.keep hG hi' ?_⟩
  cases r with
  | ok a => exact hok a
  | error e => exact herr e d s s' hx

theorem see_wp (h : WriteRules P creates) {w : PaymentWhere} {f : Option Payment → Service α}
    (hnone : P.WP t Q (f none) g)
    (hsome : ∀ p, w.holds p → (p.externalId = none → P.WP t Q (f (some p)) g) ∧
      (p.externalId ≠ none → P.WP t Q (f (some p)) (.seen p.id)))
    (herr : ∀ e, Q (.error e) g) :
    P.WP t Q ((request (.findPayment w)).bind f) g := by
  refine Proto.WP.perform_bind fun G s tr d r s' hG hi ha hx => ?_
  obtain ⟨hgu, hi'⟩ := h.quiet hi ha hx rfl
  obtain ⟨rfl, ⟨e, rfl⟩ | ⟨rfl, -⟩ | ⟨p, rfl, hp, hw⟩⟩ := exec_findPayment hx
  · exact ⟨hgu, Proto.keep hG hi' (herr e)⟩
  · exact ⟨hgu, Proto.keep hG hi' hnone⟩
  · by_cases he : p.externalId = none
    · exact ⟨hgu, Proto.keep hG hi' ((hsome p hw).1 he)⟩
    · exact ⟨hgu, .seen p.id, h.see hi' hp he, (hsome p hw).2 he⟩

/-- A write of the owner, which owns the payment no more if it answers. -/
theorem own_wp (h : WriteRules P creates) {o : Op} {f : o.Ans → Service α} {payment : Payment}
    {st : PaymentStatus} (ho : o.ownWrite = some (payment, st)) (hv : Valid .pending st)
    (hok : ∀ a, P.WP t Q (f a) .idle) (herr : ∀ e, Q (.error e) (.owns payment.id)) :
    P.WP t Q ((request o).bind f) (.owns payment.id) := by
  refine Proto.WP.perform_bind fun G s tr d r s' hG hi ha hx => ?_
  obtain ⟨hgu, hi'⟩ := h.own hi ha hx ho hG hv
  cases r with
  | ok a => exact ⟨hgu, .idle, hi', hok a⟩
  | error e => exact ⟨hgu, _, hi', by rw [hG]; exact herr e⟩

/-- A checked write of a payment that the thread has seen. -/
theorem checked_wp (h : WriteRules P creates) {o : Op} {f : o.Ans → Service α} {payment : Payment}
    {st : PaymentStatus} (ho : o.checkedWrite = some (payment, st)) (hv : Valid payment.status st)
    (hok : ∀ a, P.WP t Q (f a) (.seen payment.id)) (herr : ∀ e, Q (.error e) (.seen payment.id)) :
    P.WP t Q ((request o).bind f) (.seen payment.id) := by
  refine Proto.WP.perform_bind fun G s tr d r s' hG hi ha hx => ?_
  obtain ⟨hgu, hi'⟩ := h.checked hi ha hx ho hG hv
  refine ⟨hgu, Proto.keep hG hi' ?_⟩
  cases r with
  | ok a => exact hok a
  | error e => exact herr e

/-- `create` after the insert: its thread owns the payment until it has written it. -/
theorem charge (h : WriteRules P creates) (provider : PaymentProvider) (dto : CreatePaymentDto)
    (key : String) (ctx : OrgContext) (payment : Payment) :
    P.WP t (fun _ _ => True)
      ((charge provider dto key ctx payment).tryCatch (chargeFailed dto payment))
      (.owns payment.id) := by
  refine Proto.WP.tryCatch ?_
  have hfailed : ∀ e, P.WP t (fun _ _ => True) (chargeFailed dto payment e)
      (.owns payment.id) := by
    intro e
    refine h.quiet_wp rfl (fun _ => ?_) fun _ _ _ _ _ => trivial
    exact h.own_wp (o := .failPayment payment e.message) rfl (by decide) (fun _ => trivial)
      fun _ => trivial
  refine h.quiet_wp rfl (fun result => ?_) fun e _ _ _ _ => hfailed e
  have hv : Valid .pending (mapProviderStatus result.status) := by
    cases result.status <;> decide
  refine h.own_wp (o := .recordCharge payment result (mapProviderStatus result.status)) rfl hv
    (fun _ => ?_) hfailed
  -- the gauge and the audit log do not fail, so the `catch` is not reached from here
  refine h.quiet_wp rfl (fun _ => ?_) fun e d s s' hx => by cases hx
  exact h.quiet_wp rfl (fun _ => trivial) fun e d s s' hx => by cases (exec_auditLog hx).1

theorem create (h : WriteRules P creates) (ht : creates t) (registry : ProviderRegistry)
    (dto : CreatePaymentDto) (key : Option String) (ctx : OrgContext) :
    P.WP t (fun _ _ => True) (create registry dto key ctx) .idle := by
  refine Proto.WP.ofExcept_bind (fun key _ => ?_) fun _ _ => trivial
  refine h.quiet_wp rfl (fun existing => ?_) fun _ _ _ _ _ => trivial
  cases existing with
  | some payment => trivial
  | none =>
    refine Proto.WP.ofExcept_bind (fun provider _ => ?_) fun _ _ => trivial
    refine h.quiet_wp rfl (fun _ => ?_) fun _ _ _ _ _ => trivial
    refine Proto.WP.ofExcept_bind (fun method _ => ?_) fun _ _ => trivial
    refine Proto.WP.perform_bind fun G s tr d r s' hG hi ha hx => ?_
    obtain ⟨hgu, hi'⟩ := h.insert ht hi ha hx
    cases r with
    | error e => exact ⟨hgu, _, hi', trivial⟩
    | ok p => exact ⟨hgu, _, hi', h.charge provider dto key ctx p⟩

/-- `refund` of a payment. -/
theorem refund (h : WriteRules P creates) (registry : ProviderRegistry) (id : String)
    (body : RefundBody) (ctx : OrgContext) :
    P.WP t (fun _ _ => True) (refund registry id body ctx) .idle := by
  refine h.see_wp trivial (fun payment _ => ⟨fun he => ?_, fun _ => ?_⟩) fun _ => trivial
  · refine Proto.WP.ofExcept_bind (fun e hc => ?_) fun _ _ => trivial
    rw [(checkRefundable_ok hc).2.1] at he
    cases he
  · refine Proto.WP.ofExcept_bind (fun externalId _ => ?_) fun _ _ => trivial
    refine Proto.WP.ofExcept_bind (fun provider _ => ?_) fun _ _ => trivial
    refine Proto.WP.ofExcept_bind (fun amount _ => ?_) fun _ _ => trivial
    refine h.quiet_wp rfl (fun result => ?_) fun _ _ _ _ _ => trivial
    refine Proto.WP.ofExcept_bind (fun _ hv => ?_) fun _ _ => trivial
    refine h.checked_wp (o := .recordRefund payment _ body amount result) rfl
      (assertValidTransition_ok.mp hv) (fun _ => ?_) fun _ => trivial
    exact h.quiet_wp rfl (fun _ => trivial) fun _ _ _ _ _ => trivial

/-- An attempt at a webhook job. -/
theorem process (h : WriteRules P creates) (job : WebhookJob) :
    P.WP t (fun _ _ => True) (WebhookProcessor.process job) .idle := by
  have hmark : ∀ g, P.WP t (fun _ _ => True)
      (WebhookProcessor.markProcessed job.webhookInboundId) g :=
    fun g => h.quiet_wp rfl (fun _ => trivial) fun _ _ _ _ _ => trivial
  refine h.see_wp trivial (fun payment hw => ⟨fun he => ?_, fun _ => ?_⟩) fun _ => trivial
  · rw [(PaymentWhere.holds_external.mp hw).1] at he
    cases he
  · show P.WP t _ (WebhookProcessor.processFound job payment) _
    unfold WebhookProcessor.processFound
    split
    · exact hmark _
    · split
      · exact hmark _
      · refine Proto.WP.ofExcept_bind (fun _ hv => ?_) fun _ _ => trivial
        exact h.checked_wp (o := .applyWebhook payment _ job.event) rfl
          (assertValidTransition_ok.mp hv) (fun _ => hmark _) fun _ => trivial

theorem reconcileOne (h : WriteRules P creates) (registry : ProviderRegistry) (id : String) :
    P.WP t (fun _ _ => True) (ReconciliationService.reconcileOne registry id) .idle := by
  refine h.see_wp trivial (fun payment _ => ⟨fun he => ?_, fun _ => ?_⟩) fun _ => trivial
  · simp only [he]
    trivial
  · simp only
    split
    · trivial
    · refine Proto.WP.ofExcept_bind (fun provider _ => ?_) fun _ _ => trivial
      refine h.quiet_wp rfl (fun result => ?_) fun _ _ _ _ _ => trivial
      split
      · rename_i hv
        refine Proto.WP.perform fun G s tr d r s' hG hi ha hx => ?_
        obtain ⟨hgu, hi'⟩ := h.checked (o := .applyReconciliation payment _ result.raw) hi ha hx
          rfl hG (ReconciliationService.transition_some hv)
        exact ⟨hgu, Proto.keep hG hi' trivial⟩
      · trivial

/-- **Every operation keeps the protocol.** -/
theorem call (h : WriteRules P creates) (registry : ProviderRegistry) (call : ServiceCall)
    (ht : ∀ dto key ctx, call = .payments (.create dto key ctx) → creates t) :
    P.WP t (fun _ _ => True) (call.run registry) .idle := by
  cases call with
  | payments call =>
    refine Proto.WP.bind_true ?_ fun _ _ => trivial
    cases call with
    | create dto key ctx =>
      exact Proto.WP.bind_true (h.create (ht dto key ctx rfl) registry dto key ctx)
        fun _ _ => trivial
    | findAll ctx query =>
      refine Proto.WP.bind_true ?_ fun _ _ => trivial
      exact h.quiet_wp rfl (fun _ => trivial) fun _ _ _ _ _ => trivial
    | findOne id ctx =>
      refine Proto.WP.bind_true ?_ fun _ _ => trivial
      refine h.quiet_wp rfl (fun found => ?_) fun _ _ _ _ _ => trivial
      cases found <;> trivial
    | refund id body ctx =>
      exact Proto.WP.bind_true (h.refund registry id body ctx) fun _ _ => trivial
  | webhook job => exact h.process job
  | reconcile paymentId => exact h.reconcileOne registry paymentId

end WriteRules

/-! ## The pool -/

section Runs

variable {ι : Type} [DecidableEq ι] (registry : ProviderRegistry) (calls : ι → ServiceCall)

def startCalls (w : World) : Conf machine ι Unit := Conf.start w fun t => (calls t).run registry

end Runs

end Pasarela
