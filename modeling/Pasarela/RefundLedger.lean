import Mathlib.Algebra.BigOperators.Group.Finset.Basic
import Mathlib.Algebra.Order.BigOperators.Group.Finset
import Mathlib.Algebra.Ring.Int.Defs
import Mathlib.Data.Fin.VecNotation
import Pasarela.Conc.Pool
import Pasarela.Effects
import Pasarela.Payments

/-!
# The ledger of a payment's refunds

Any number of `refund` calls on one payment run side by side. The ledger is conserved when each
refund is positive and together they are at most the amount of the payment (`Conserved`).

* `requested`: the amount that a call records when nothing stops it, if the call is one that can
  record a refund at all.
* `LedgerInv`: the rows of the ledger are what the calls that recorded asked for: `G t` says that
  call `t` recorded.
* A call checks its amount against nothing but the original amount, to choose between the two
  statuses, so the ledger holds whatever the calls ask for: `conserved_iff`.
-/

namespace Pasarela

open Conc (Proto Prog Conf)
open Store (Table)
open PaymentsService

/-- The arguments of a `refund` call on a payment. -/
structure RefundCall where
  body : RefundBody
  ctx : OrgContext

/-- The amount that the call records (module doc). -/
def requested (p : Payment) (call : RefundCall) : Option Int :=
  if call.ctx.organizationId = p.organizationId then
    match refundAmount call.body with
    | .ok amount => some (amount.getD p.amountMinor)
    | .error _ => none
  else none

/-- The refunds of a payment. -/
def World.refundsOf (s : World) (id : String) : List Refund :=
  s.refunds.rows.filter fun r => r.paymentId = id

theorem World.refundsOf_eq_nil {s : World} {id : String} (h : ∀ r ∈ s.refunds, r.paymentId ≠ id) :
    s.refundsOf id = [] := by
  rw [World.refundsOf, List.filter_eq_nil_iff]
  intro r hr
  simpa using h r hr

theorem World.refundsOf_insert {s s' : World} {r : Refund} {id : String}
    (h : s.refunds.insert r = .ok s'.refunds) (hid : r.paymentId = id) :
    s'.refundsOf id = s.refundsOf id ++ [r] := by
  rw [World.refundsOf, (Table.insert_ok h).1, List.filter_append]
  simp [World.refundsOf, hid]

theorem World.refundsOf_insert_of_ne {s s' : World} {r : Refund} {id : String}
    (h : s.refunds.insert r = .ok s'.refunds) (hid : r.paymentId ≠ id) :
    s'.refundsOf id = s.refundsOf id := by
  rw [World.refundsOf, (Table.insert_ok h).1, List.filter_append]
  simp [World.refundsOf, hid]

/-- Each refund of the payment is positive, and together they are at most `amount`. -/
def Conserved (id : String) (amount : Int) (s : World) : Prop :=
  (∀ r ∈ s.refundsOf id, 0 < r.amountMinor) ∧
    ((s.refundsOf id).map (·.amountMinor)).sum ≤ amount

instance (id : String) (amount : Int) (s : World) : Decidable (Conserved id amount s) :=
  inferInstanceAs (Decidable (_ ∧ _))

/-- The provider accepts each refund that it is asked for. -/
def Accepting {ι : Type} : Conc.Allow machine ι := fun _ o d _ =>
  match o with
  | .refundCharge _ _ => ∃ r, d.refund = .answered r
  | _ => True

section Pool

variable {ι : Type} (registry : ProviderRegistry) (calls : ι → RefundCall)

/-- The calls on the payment `id`, at their start. -/
def refundPool (id : String) (t : ι) : Service RefundedPayment :=
  refund registry id (calls t).body (calls t).ctx

variable [Fintype ι]

/-- The amount that the calls which recorded asked for. -/
def recorded (p : Payment) (G : ι → Bool) : Int :=
  ∑ t, if G t then (requested p (calls t)).getD 0 else 0

/-- The invariant of the pool (module doc). -/
structure LedgerInv (p : Payment) (G : ι → Bool) (s : World) : Prop where
  row : ∃ q ∈ s.payments, q.id = p.id ∧ q.organizationId = p.organizationId ∧
    q.amountMinor = p.amountMinor
  sum : ((s.refundsOf p.id).map (·.amountMinor)).sum = recorded calls p G
  amounts : ∀ r ∈ s.refundsOf p.id, ∃ t, requested p (calls t) = some r.amountMinor

section Inv

variable {calls} {p : Payment}

/-- A row that a call found has the id, the organization and the amount of the payment. -/
theorem LedgerInv.found {G : ι → Bool} {s : World} (h : LedgerInv calls p G s) {q : Payment}
    (hq : q ∈ s.payments) (hid : q.id = p.id) :
    q.organizationId = p.organizationId ∧ q.amountMinor = p.amountMinor := by
  obtain ⟨q', hq', hid', horg, ha⟩ := h.row
  rw [Table.eq_of_key hq hq' (hid.trans hid'.symm)]
  exact ⟨horg, ha⟩

/-- A request that leaves the payments and the refunds alone keeps the invariant. -/
theorem LedgerInv.same {G : ι → Bool} {s s' : World} (h : LedgerInv calls p G s)
    (hp : s'.payments = s.payments) (hr : s'.refunds = s.refunds) : LedgerInv calls p G s' := by
  have hl : s'.refundsOf p.id = s.refundsOf p.id := by rw [World.refundsOf, World.refundsOf, hr]
  exact ⟨by rw [hp]; exact h.row, by rw [hl]; exact h.sum, by rw [hl]; exact h.amounts⟩

end Inv

variable [DecidableEq ι]

def ledger (p : Payment) : Proto machine ι Bool where
  allow := Accepting
  inv G s _ := LedgerInv calls p G s

variable {registry calls} {p : Payment}

theorem recorded_update {G : ι → Bool} {t : ι} {m : Int} (hG : G t = false)
    (hm : requested p (calls t) = some m) :
    recorded calls p (Function.update G t true) = recorded calls p G + m := by
  have hsum := Conc.sum_update (fun u (g : Bool) => if g then (requested p (calls u)).getD 0 else 0)
    G t true
  rw [hG, hm] at hsum
  simpa [recorded] using hsum

theorem LedgerInv.record {G : ι → Bool} {s s' : World} (h : LedgerInv calls p G s) {t : ι}
    (hG : G t = false) {payment : Payment} {st : PaymentStatus} {body : RefundBody}
    {amount : Option Int} {result : RefundResult} {d : Decision} {q : Payment} {ev : PaymentEvent}
    (hid : payment.id = p.id)
    (hm : requested p (calls t) = some (amount.getD payment.amountMinor))
    (hr : s.refunds.insert (newRefund d payment body amount result) = .ok s'.refunds)
    (hw : Written payment.id (setStatus d st) (keeps_setStatus d _) ev s q
      { s' with refunds := s.refunds }) :
    LedgerInv calls p (Function.update G t true) s' := by
  have hl : s'.refundsOf p.id = s.refundsOf p.id ++ [newRefund d payment body amount result] :=
    World.refundsOf_insert hr hid
  refine ⟨?_, ?_, ?_⟩
  · obtain ⟨a, ha, hak, rfl, -⟩ := Table.update_some hw.payments
    obtain ⟨horg, ham⟩ := h.found ha (hak.trans hid)
    exact ⟨_, (Table.mem_update hw.payments).mpr (.inr rfl), hak.trans hid, horg, ham⟩
  · rw [hl, List.map_append, List.sum_append, h.sum, recorded_update hG hm]
    simp [newRefund]
  · intro r hr'
    rw [hl, List.mem_append, List.mem_singleton] at hr'
    rcases hr' with hr' | rfl
    · exact h.amounts r hr'
    · exact ⟨t, hm⟩

/-- **Each call keeps the ledger**: it records at most once, what it asks for. -/
theorem ledger_refund (t : ι) :
    (ledger calls p).WP t (fun _ _ => True) (refundPool registry calls p.id t) false := by
  refine Proto.WP.perform_bind fun G s tr d r s' hG hi _ hx => ?_
  obtain ⟨rfl, ⟨e, rfl⟩ | ⟨rfl, -⟩ | ⟨payment, rfl, hmem, hw⟩⟩ := exec_findPayment hx
  · exact ⟨trivial, Proto.keep hG hi trivial⟩
  · exact ⟨trivial, Proto.keep hG hi trivial⟩
  refine ⟨trivial, Proto.keep hG hi ?_⟩
  obtain ⟨hid, hctx⟩ := PaymentWhere.holds_id_org.mp hw
  obtain ⟨horg, ham⟩ := LedgerInv.found hi hmem hid
  refine Proto.WP.ofExcept_bind (fun externalId _ => ?_) fun _ _ => trivial
  refine Proto.WP.ofExcept_bind (fun provider _ => ?_) fun _ _ => trivial
  refine Proto.WP.ofExcept_bind (fun amount hamount => ?_) fun _ _ => trivial
  have hm : requested p (calls t) = some (amount.getD payment.amountMinor) := by
    rw [requested, if_pos (hctx.symm.trans horg), hamount, ham]
  refine Proto.WP.perform_bind fun G s₁ tr d r s₂ hG hi _ hx => ?_
  obtain ⟨rfl, rfl⟩ := Prod.mk.inj hx
  refine ⟨trivial, Proto.keep hG hi ?_⟩
  cases d.refund.answer with
  | error e => trivial
  | ok result =>
    refine Proto.WP.ofExcept_bind (fun _ _ => ?_) fun _ _ => trivial
    refine Proto.WP.perform_bind fun G s₃ tr d r s₄ hG hi _ hx => ?_
    rcases exec_recordRefund hx with ⟨e, rfl, rfl⟩ | ⟨q, rfl, hr, hwr⟩
    · exact ⟨trivial, Proto.keep hG hi trivial⟩
    refine ⟨trivial, true, LedgerInv.record hi hG hid hm hr hwr, ?_⟩
    refine Proto.WP.perform_bind fun G s₅ tr d r s₆ hG hi _ hx => ?_
    obtain ⟨rfl, hs⟩ := exec_auditLog hx
    have hi' : LedgerInv calls p G s₆ := LedgerInv.same hi (by rw [hs]) (by rw [hs])
    exact ⟨trivial, Proto.keep hG hi' trivial⟩

/-! ## When the ledger is conserved -/

variable (calls) in
/-- What the calls ask for is positive, and together at most the amount of the payment. -/
def WithinAmount (p : Payment) : Prop :=
  (∀ t, ∀ m ∈ requested p (calls t), 0 < m) ∧
    ∑ t, (requested p (calls t)).getD 0 ≤ p.amountMinor

omit [DecidableEq ι] in
theorem LedgerInv.conserved {G : ι → Bool} {s : World} (h : LedgerInv calls p G s)
    (hw : WithinAmount calls p) : Conserved p.id p.amountMinor s := by
  obtain ⟨hpos, hsum⟩ := hw
  constructor
  · intro r hr
    obtain ⟨t, ht⟩ := h.amounts r hr
    exact hpos t _ ht
  · have hle : recorded calls p G ≤ ∑ t, (requested p (calls t)).getD 0 := by
      refine Finset.sum_le_sum fun t _ => ?_
      cases ht : requested p (calls t) with
      | none => simp
      | some m =>
        have := hpos t m ht
        split
        · exact le_refl _
        · exact this.le
    rw [h.sum]
    omega

omit [DecidableEq ι] in
/-- No call has recorded, and the payment has no refunds. -/
theorem LedgerInv.start {s : World} (hp : p ∈ s.payments)
    (hr : ∀ r ∈ s.refunds, r.paymentId ≠ p.id) : LedgerInv calls p (fun _ => false) s := by
  have hl : s.refundsOf p.id = [] := World.refundsOf_eq_nil hr
  exact ⟨⟨p, hp, rfl, rfl, rfl⟩, by simp [hl, recorded], by simp [hl]⟩

end Pool

/-! ## The run in which every call records

All the calls read the payment while it is CAPTURED, and then record one after another. -/

/-- The payment can be refunded through `registry`. -/
structure Refundable (registry : ProviderRegistry) (p : Payment) : Prop where
  status : p.status = .captured
  externalId : ∃ e, p.externalId = some e ∧ e ≠ ""
  provider : ∃ q, registry.get p.providerId = .ok q

/-- What the provider answers in that run. -/
def acceptedRefund : RefundResult := ⟨"re", .succeeded, .null⟩

section Run

variable {ι : Type} {registry : ProviderRegistry} {calls : ι → RefundCall} {p : Payment}

variable (calls) in
/-- Call `t` after the provider accepted. -/
def afterProvider (p : Payment) (t : ι) : Service RefundedPayment :=
  refundAccepted p (calls t).body (calls t).ctx
    (match refundAmount (calls t).body with
      | .ok amount => amount
      | .error _ => none) acceptedRefund

theorem requested_some {t : ι} {m : Int} (h : requested p (calls t) = some m) :
    (calls t).ctx.organizationId = p.organizationId ∧
      ∃ amount, refundAmount (calls t).body = .ok amount ∧ m = amount.getD p.amountMinor := by
  unfold requested at h
  split at h
  · rename_i horg
    cases ha : refundAmount (calls t).body with
    | error e => rw [ha] at h; cases h
    | ok amount => rw [ha] at h; cases h; exact ⟨horg, amount, rfl, rfl⟩
  · cases h

variable [DecidableEq ι]

section Steps

variable {allow : Conc.Allow machine ι} {c : Conf machine ι RefundedPayment} {t : ι}
  {body : RefundBody} {ctx : OrgContext} {amount : Option Int} {result : RefundResult}

theorem reach_accepted (hallow : ∀ o d s, d.refund = .answered result → allow t o d s)
    (hmem : p ∈ c.st.payments) (horg : ctx.organizationId = p.organizationId) {externalId : String}
    (hc : checkRefundable p = .ok externalId) {provider : PaymentProvider}
    (hprov : registry.get p.providerId = .ok provider) (ha : refundAmount body = .ok amount)
    (ht : c.thr t = refund registry p.id body ctx) :
    ∃ c', Conf.Reach allow c c' ∧ c'.st = c.st ∧
      c'.thr = Function.update c.thr t (refundAccepted p body ctx amount result) := by
  have hfound : ∀ q ∈ c.st.payments, PaymentWhere.holds
      { id := some p.id, organizationId := some ctx.organizationId } q → q = p :=
    fun q hq hw => Table.eq_of_key hq hmem (PaymentWhere.holds_id_org.mp hw).1
  let d : Decision := { refund := .answered result }
  have hx := exec_findPayment_of_mem (d := d) rfl hmem
    (PaymentWhere.holds_id_org.mpr ⟨rfl, horg.symm⟩) hfound
  obtain ⟨c₁, hr₁, hs₁, ht₁⟩ := Conf.reach_perform allow (d := d) ht (hallow _ _ _ rfl) hx
  have hthr : c₁.thr t = (request (.refundCharge provider.id ⟨externalId, amount, body.reason⟩)).bind
      (refundAccepted p body ctx amount) := by
    rw [ht₁, Function.update_self]
    show refundFound registry p body ctx = _
    rw [refundFound, hc, hprov, ha]
    rfl
  obtain ⟨c₂, hr₂, hs₂, ht₂⟩ := Conf.reach_perform allow (d := d) hthr (hallow _ _ _ rfl) rfl
  refine ⟨c₂, hr₁.trans hr₂, hs₂.trans hs₁, ?_⟩
  rw [ht₂, ht₁, Function.update_idem]

/-- What follows the answer of the provider: the transaction and the audit log. -/
theorem refundAccepted_eq (hst : p.status = .captured ∨ p.status = .partiallyRefunded) :
    ∃ (f : Payment × Refund → AuditEntry) (g : Payment × Refund → RefundedPayment),
      refundAccepted p body ctx amount result =
        (request (.recordRefund p (refundStatus p amount) body amount result)).bind fun x =>
          (request (.auditLog (f x))).bind fun _ => .ret (g x) := by
  rw [refundAccepted, assertValidTransition_ok.mpr (valid_refundStatus hst amount)]
  exact ⟨_, _, rfl⟩

/-- A call that the provider accepted records its refund, and returns. -/
theorem reach_committed (hallow : ∀ o d s, d.refund = .answered result → allow t o d s)
    (hrow : ∃ q ∈ c.st.payments, q.id = p.id)
    (hst : p.status = .captured ∨ p.status = .partiallyRefunded)
    (ht : c.thr t = refundAccepted p body ctx amount result) :
    ∃ c' d a, Conf.Reach allow c c' ∧ c'.thr = Function.update c.thr t (.ret a) ∧
      c.st.refunds.insert (newRefund d p body amount result) = .ok c'.st.refunds ∧
      ∃ q ∈ c'.st.payments, q.id = p.id ∧ q.status = refundStatus p amount := by
  obtain ⟨ide, hide⟩ := Store.exists_fresh PaymentEvent.id c.st.events.rows
  obtain ⟨idr, hidr⟩ := Store.exists_fresh Refund.id c.st.refunds.rows
  let d : Decision := {
    newId := fun model => if model = .refund then idr else ide
    refund := .answered result }
  obtain ⟨a, s', hx⟩ : ∃ a s', exec (.recordRefund p (refundStatus p amount) body amount result) d
      c.st = (.ok a, s') := exec_recordRefund_of_fresh rfl hrow hide hidr
  obtain ⟨f, g, heq⟩ := @refundAccepted_eq p body ctx amount result hst
  rw [heq] at ht
  obtain ⟨c₁, hr₁, rfl, ht₁⟩ := Conf.reach_perform allow (d := d) ht (hallow _ _ _ rfl) hx
  rcases exec_recordRefund hx with ⟨e, he, -⟩ | ⟨q, -, hins, hw⟩
  · cases he
  have hx₂ : exec (.auditLog (f a)) d c₁.st = (.ok (), _) := rfl
  obtain ⟨c₂, hr₂, hs₂, ht₂⟩ := Conf.reach_perform allow (d := d)
    (by rw [ht₁, Function.update_self]) (hallow _ _ _ rfl) hx₂
  have hsame := (exec_auditLog hx₂).2
  rw [← hs₂] at hsame
  refine ⟨c₂, d, _, hr₁.trans hr₂, by rw [ht₂, ht₁, Function.update_idem], ?_, q, ?_, ?_, ?_⟩
  · rw [hsame]
    exact hins
  · rw [hsame]
    exact (Table.mem_update hw.payments).mpr (.inr rfl)
  · exact Table.key_update hw.payments
  · obtain ⟨q₀, -, -, rfl, -⟩ := Table.update_some hw.payments
    rfl

end Steps

omit [DecidableEq ι] in
theorem accepting_of_answered (t : ι) (o : Op) (d : Decision) (s : World)
    (h : d.refund = .answered acceptedRefund) : Accepting t o d s := by
  cases o with
  | refundCharge providerId input => exact ⟨_, h⟩
  | _ => trivial

/-- A call reads the payment while it is CAPTURED, and the provider accepts. -/
theorem reach_provider (hp : Refundable registry p) {c : Conf machine ι RefundedPayment}
    (hmem : p ∈ c.st.payments) {t : ι} {m : Int} (hm : requested p (calls t) = some m)
    (ht : c.thr t = refundPool registry calls p.id t) :
    ∃ c', Conf.Reach Accepting c c' ∧ c'.st = c.st ∧
      c'.thr = Function.update c.thr t (afterProvider calls p t) := by
  obtain ⟨horg, amount, ha, -⟩ := requested_some hm
  obtain ⟨e, he, hne⟩ := hp.externalId
  obtain ⟨provider, hprov⟩ := hp.provider
  have hcheck : checkRefundable p = .ok e := by simp [checkRefundable, hp.status, he, hne]
  rw [afterProvider, ha]
  exact reach_accepted (accepting_of_answered t) hmem horg hcheck hprov ha ht

theorem reach_record (hp : Refundable registry p) {c : Conf machine ι RefundedPayment}
    (hrow : ∃ q ∈ c.st.payments, q.id = p.id) {t : ι} {m : Int}
    (hm : requested p (calls t) = some m) (ht : c.thr t = afterProvider calls p t) :
    ∃ c' r, Conf.Reach Accepting c c' ∧ (∃ q ∈ c'.st.payments, q.id = p.id) ∧
      (∀ u, u ≠ t → c'.thr u = c.thr u) ∧ r.amountMinor = m ∧
      c'.st.refundsOf p.id = c.st.refundsOf p.id ++ [r] := by
  obtain ⟨-, amount, ha, rfl⟩ := requested_some hm
  rw [afterProvider, ha] at ht
  obtain ⟨c', d, a, hr, hthr, hins, q, hq, hid, -⟩ :=
    reach_committed (accepting_of_answered t) hrow (.inl hp.status) ht
  refine ⟨c', _, hr, ⟨q, hq, hid⟩, fun u hu => ?_, rfl, World.refundsOf_insert hins rfl⟩
  rw [hthr, Function.update_of_ne hu]

theorem reach_all_read (hp : Refundable registry p) {w : World} (hmem : p ∈ w.payments)
    (S : Finset ι) (hS : ∀ t ∈ S, ∃ m, requested p (calls t) = some m) :
    ∃ c, Conf.Reach Accepting (Conf.start w (refundPool registry calls p.id)) c ∧ c.st = w ∧
      (∀ t ∈ S, c.thr t = afterProvider calls p t) ∧
      ∀ t ∉ S, c.thr t = refundPool registry calls p.id t := by
  induction S using Finset.induction_on with
  | empty => exact ⟨_, .refl, rfl, by simp, fun t _ => rfl⟩
  | insert t S ht ih =>
    obtain ⟨c, hr, rfl, hin, hout⟩ := ih fun u hu => hS u (Finset.mem_insert_of_mem hu)
    obtain ⟨m, hm⟩ := hS t (Finset.mem_insert_self t S)
    obtain ⟨c', hr', hst, hthr⟩ := reach_provider hp hmem hm (hout t ht)
    refine ⟨c', hr.trans hr', hst, fun u hu => ?_, fun u hu => ?_⟩
    · by_cases hut : u = t
      · rw [hut, hthr, Function.update_self]
      · rw [hthr, Function.update_of_ne hut]
        exact hin u (Finset.mem_of_mem_insert_of_ne hu hut)
    · rw [Finset.mem_insert, not_or] at hu
      rw [hthr, Function.update_of_ne hu.1]
      exact hout u hu.2

theorem reach_all_record (hp : Refundable registry p) {c₀ : Conf machine ι RefundedPayment}
    (hrow : ∃ q ∈ c₀.st.payments, q.id = p.id) (S : Finset ι)
    (hS : ∀ t ∈ S, (∃ m, requested p (calls t) = some m) ∧ c₀.thr t = afterProvider calls p t) :
    ∃ c, Conf.Reach Accepting c₀ c ∧ (∃ q ∈ c.st.payments, q.id = p.id) ∧
      (∀ t ∉ S, c.thr t = c₀.thr t) ∧
      (∀ t ∈ S, ∃ r ∈ c.st.refundsOf p.id, requested p (calls t) = some r.amountMinor) ∧
      ((c.st.refundsOf p.id).map (·.amountMinor)).sum =
        ((c₀.st.refundsOf p.id).map (·.amountMinor)).sum +
          ∑ t ∈ S, (requested p (calls t)).getD 0 := by
  induction S using Finset.induction_on with
  | empty => exact ⟨c₀, .refl, hrow, by simp, by simp, by simp⟩
  | insert t S ht ih =>
    obtain ⟨c, hr, hrow', hout, hin, hsum⟩ := ih fun u hu => hS u (Finset.mem_insert_of_mem hu)
    obtain ⟨⟨m, hm⟩, hthr⟩ := hS t (Finset.mem_insert_self t S)
    obtain ⟨c', r, hr', hrow'', hne, ham, hl⟩ :=
      reach_record hp hrow' hm ((hout t ht).trans hthr)
    refine ⟨c', hr.trans hr', hrow'', fun u hu => ?_, fun u hu => ?_, ?_⟩
    · rw [Finset.mem_insert, not_or] at hu
      rw [hne u hu.1, hout u hu.2]
    · rw [hl]
      by_cases hut : u = t
      · exact ⟨r, by simp, by rw [hut, hm, ham]⟩
      · obtain ⟨r', hr', hm'⟩ := hin u (Finset.mem_of_mem_insert_of_ne hu hut)
        exact ⟨r', List.mem_append_left _ hr', hm'⟩
    · rw [hl, List.map_append, List.sum_append, hsum, Finset.sum_insert ht, hm]
      simp [ham]
      omega

end Run

/-- **When the refunds of a payment are conserved**: in every state that any interleaving of the
calls reaches, if and only if the calls ask for positive amounts that together are at most the
amount of the payment. -/
theorem refund_conserved_iff {ι : Type} [DecidableEq ι] [Fintype ι] (registry : ProviderRegistry)
    (calls : ι → RefundCall) (w : World) (p : Payment) (hmem : p ∈ w.payments)
    (hp : Refundable registry p) (hr : ∀ r ∈ w.refunds, r.paymentId ≠ p.id) :
    (∀ c, Conf.Reach Accepting (Conf.start w (refundPool registry calls p.id)) c →
      Conserved p.id p.amountMinor c.st) ↔ WithinAmount calls p := by
  constructor
  · intro h
    let S : Finset ι := Finset.univ.filter fun t => (requested p (calls t)).isSome
    have hS : ∀ t ∈ S, ∃ m, requested p (calls t) = some m := fun t ht =>
      Option.isSome_iff_exists.mp (Finset.mem_filter.mp ht).2
    obtain ⟨c₁, hr₁, rfl, hin₁, -⟩ := reach_all_read hp hmem S hS
    obtain ⟨c₂, hr₂, -, -, hin₂, hsum⟩ := reach_all_record hp ⟨p, hmem, rfl⟩ S
      fun t ht => ⟨hS t ht, hin₁ t ht⟩
    obtain ⟨hpos, hle⟩ := h c₂ (hr₁.trans hr₂)
    have hnil : c₁.st.refundsOf p.id = [] := World.refundsOf_eq_nil hr
    refine ⟨fun t m hm => ?_, ?_⟩
    · have ht : t ∈ S := Finset.mem_filter.mpr ⟨Finset.mem_univ t, by rw [hm]; rfl⟩
      obtain ⟨r, hmr, hreq⟩ := hin₂ t ht
      rw [Option.mem_def.mp hm] at hreq
      cases hreq
      exact hpos r hmr
    · rw [hsum, hnil, Finset.sum_filter_of_ne] at hle
      · simpa using hle
      · intro t _ hne
        cases hm : requested p (calls t) with
        | none => rw [hm] at hne; exact absurd rfl hne
        | some m => rfl
  · intro hw c hc
    have h₀ : (ledger calls p).Ok (fun _ _ _ => True)
        (Conf.start w (refundPool registry calls p.id)) :=
      ⟨fun _ => false, LedgerInv.start hmem hr, fun t => ledger_refund t⟩
    obtain ⟨G, hi, -⟩ := Proto.sound h₀ hc
    exact LedgerInv.conserved hi hw

/-! ### A payment of 100 -/

def capturedPayment : Payment := samplePayment .captured

/-- The calls that ask for the amounts `n`. -/
def asking {ι : Type} (n : ι → Int) (t : ι) : RefundCall :=
  ⟨{ amountMinor := some (.num (n t)) }, sampleCtx⟩

theorem refundable_capturedPayment : Refundable fakeRegistry capturedPayment :=
  ⟨rfl, ⟨"fake_key", rfl, by decide⟩, ⟨_, rfl⟩⟩

/-- 60 and 40 of 100, in any interleaving. -/
theorem refund_conserved_sample :
    WithinAmount (asking ![60, 40]) capturedPayment ∧
      ∀ c, Conf.Reach Accepting
        (Conf.start (World.withPayment capturedPayment)
          (refundPool fakeRegistry (asking ![60, 40]) "pay")) c →
        Conserved "pay" 100 c.st := by
  have hw : WithinAmount (asking ![60, 40]) capturedPayment := ⟨by decide, by decide⟩
  have hiff := refund_conserved_iff fakeRegistry (asking ![60, 40])
    (World.withPayment capturedPayment) capturedPayment (List.mem_singleton.mpr rfl)
    refundable_capturedPayment (by simp [World.withPayment, World.empty])
  exact ⟨hw, hiff.mpr hw⟩

/-- 60 of 100, and then 60 again. -/
def twoRefunds : List (Fin 2 × Decision) := [
  (0, {}), (0, { refund := .answered acceptedRefund }), (0, { newId := fun _ => "a" }), (0, {}),
  (1, {}), (1, { refund := .answered acceptedRefund }), (1, { newId := fun _ => "b" })]

/-- Two refunds of 60 of a payment of 100 are both recorded. -/
theorem refund_exceeds :
    ¬ ∀ c, Conf.Reach Accepting
      (Conf.start (World.withPayment capturedPayment)
        (refundPool fakeRegistry (asking ![60, 60]) "pay")) c →
      Conserved "pay" 100 c.st := by
  intro h
  have hplays : Conf.Plays Accepting (Conf.start (World.withPayment capturedPayment)
      (refundPool fakeRegistry (asking ![60, 60]) "pay")) twoRefunds :=
    ⟨trivial, ⟨_, rfl⟩, trivial, trivial, trivial, ⟨_, rfl⟩, trivial, trivial⟩
  have hc := h _ (Conf.reach_play hplays)
  revert hc
  decide

end Pasarela
