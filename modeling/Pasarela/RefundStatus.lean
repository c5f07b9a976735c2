import Pasarela.RefundLedger
import Pasarela.Sequential

/-!
# The status of a payment that is refunded in parts

Refund calls on one payment, one after another, which ask for the amount of the payment at most.

* `served`: the calls that succeeded, each with the state before and after it.
* `StatusFollows`: the status says whether all of the amount is refunded, or a part of it.
* `RefundPhase`: the status and the sum of the refunds, as they are while the status follows. The
  new status compares one request with the original amount, so a call that completes the amount in
  parts leaves the phases, and so does one without an amount after a part.
* `refund_status_follows_iff`: the status follows, if and only if each call that succeeds finds no
  refund or stays below the amount.
-/

namespace Pasarela

open Conc (Alone Ran Task)
open Store (Table)
open PaymentsService

/-- A refund call, and what the environment decides at its requests. -/
structure RefundTurn where
  call : RefundCall
  ω : Op → Decision

/-- What was refunded of a payment. -/
def World.refundedSum (s : World) (id : String) : Int :=
  ((s.refundsOf id).map (·.amountMinor)).sum

/-- The status says what `sum` is to the amount of the payment. -/
def Follows (amount sum : Int) (status : PaymentStatus) : Prop :=
  (status = .refunded ↔ sum = amount) ∧ (status = .partiallyRefunded ↔ 0 < sum ∧ sum < amount)

instance (amount sum : Int) (status : PaymentStatus) : Decidable (Follows amount sum status) :=
  inferInstanceAs (Decidable (_ ∧ _))

/-- The status follows the refunds of a payment of `amount` (module doc). -/
def StatusFollows (id : String) (amount : Int) (s : World) : Prop :=
  ∃ q ∈ s.payments.rows, q.id = id ∧ Follows amount (s.refundedSum id) q.status

instance (id : String) (amount : Int) (s : World) : Decidable (StatusFollows id amount s) :=
  inferInstanceAs (Decidable (∃ q ∈ s.payments.rows, _))

/-- Nothing is refunded yet, or the request names an amount and leaves a rest. -/
def LeavesRest (amount sum : Int) (request : Option Int) : Prop :=
  sum = 0 ∨ ∃ n ∈ request, sum + n < amount

instance (amount sum : Int) (request : Option Int) : Decidable (LeavesRest amount sum request) :=
  inferInstanceAs (Decidable (_ ∨ ∃ n ∈ request, _))

/-- The call finds no refund, or stays below the amount (module doc). -/
def StaysBelow (id : String) (amount : Int) (s : World) (call : RefundCall) : Prop :=
  ∃ request, refundAmount call.body = .ok request ∧
    LeavesRest amount (s.refundedSum id) request

instance (id : String) (amount : Int) (s : World) (call : RefundCall) :
    Decidable (StaysBelow id amount s call) :=
  match h : refundAmount call.body with
  | .ok request =>
    decidable_of_iff (LeavesRest amount (s.refundedSum id) request) (by simp [StaysBelow, h])
  | .error _ => isFalse (by simp [StaysBelow, h])

/-- The amounts are positive, and together at most `rest`; a call without one asks for the rest. -/
def RefundsFit : Int → List RefundTurn → Prop
  | _, [] => True
  | rest, x :: xs =>
    match refundAmount x.call.body with
    | .ok (some n) => 0 < n ∧ n ≤ rest ∧ RefundsFit (rest - n) xs
    | .ok none => RefundsFit 0 xs
    | .error _ => False

section Run

variable (registry : ProviderRegistry) (id : String)

/-- The call as a program of the sequence. -/
def RefundTurn.task (x : RefundTurn) : Task machine RefundedPayment :=
  ⟨refund registry id x.call.body x.call.ctx, x.ω⟩

/-- The calls that succeeded (module doc). -/
def served (w : World) (xs : List RefundTurn) : List (RefundTurn × Ran machine RefundedPayment) :=
  (xs.zip (Conc.serial w (xs.map (RefundTurn.task registry id)))).filter fun e =>
    e.2.outcome.result.isOk

variable {registry id} {s s' : World}

theorem served_cons (x : RefundTurn) (xs : List RefundTurn) :
    served registry id s (x :: xs) =
      if ((x.task registry id).ran s).outcome.result.isOk then
        (x, (x.task registry id).ran s) ::
          served registry id ((x.task registry id).ran s).outcome.state xs
      else served registry id ((x.task registry id).ran s).outcome.state xs := by
  simp only [served, List.map_cons, Conc.serial, List.zip_cons_cons, List.filter_cons]

end Run

/-! ## The phases -/

/-- The sum of the refunds of a payment of `amount`, and its status (module doc). -/
inductive RefundPhase (amount : Int) : Int → PaymentStatus → Prop
  | untouched : RefundPhase amount 0 .captured
  | part {sum : Int} (hpos : 0 < sum) (hlt : sum < amount) : RefundPhase amount sum .partiallyRefunded
  | whole : RefundPhase amount amount .refunded

/-- The payment `p` is in a phase. -/
def InPhase (p : Payment) (s : World) : Prop :=
  ∃ q ∈ s.payments, q.id = p.id ∧ q.amountMinor = p.amountMinor ∧
    RefundPhase p.amountMinor (s.refundedSum p.id) q.status

section Step

variable {p q : Payment} {s s' : World} {body : RefundBody} {ctx : OrgContext}
  {request : Option Int} {r : Refund} {sum : Int} {st : PaymentStatus}

/-- **A request in a phase**, for at most the rest: the status follows after it if and only if the
request leaves a rest or is the first one, and then the payment is in a phase again. -/
theorem RefundPhase.next (h : RefundPhase q.amountMinor sum st)
    (hst : st = .captured ∨ st = .partiallyRefunded)
    (hfit : ∀ n ∈ request, 0 < n ∧ sum + n ≤ q.amountMinor) :
    (Follows q.amountMinor (sum + request.getD q.amountMinor) (refundStatus q request) ↔
      LeavesRest q.amountMinor sum request) ∧
    (LeavesRest q.amountMinor sum request →
      RefundPhase q.amountMinor (sum + request.getD q.amountMinor) (refundStatus q request)) := by
  cases request with
  | none =>
    have hnext : refundStatus q none = .refunded := rfl
    have hrest : LeavesRest q.amountMinor sum none ↔ sum = 0 := by simp [LeavesRest]
    rw [hnext, hrest, Option.getD_none]
    refine ⟨⟨fun hf => ?_, fun h0 => ?_⟩, fun h0 => ?_⟩
    · have hsum : sum + q.amountMinor = q.amountMinor := hf.1.mp rfl
      omega
    · rw [h0, Int.zero_add]
      exact ⟨by simp, by simp⟩
    · rw [h0, Int.zero_add]
      exact .whole
  | some n =>
    obtain ⟨hn, hle⟩ := hfit n rfl
    have hrest : LeavesRest q.amountMinor sum (some n) ↔ sum = 0 ∨ sum + n < q.amountMinor := by
      simp [LeavesRest]
    have hsum : 0 ≤ sum := by
      cases h with
      | untouched => omega
      | part hpos hlt => omega
      | whole => rcases hst with h | h <;> cases h
    rw [hrest, Option.getD_some]
    by_cases hlt : n < q.amountMinor
    · have hnext : refundStatus q (some n) = .partiallyRefunded := by
        rw [refundStatus, if_pos hlt]
      rw [hnext]
      refine ⟨⟨fun hf => .inr (hf.2.mp rfl).2, fun hs => ?_⟩, fun hs => ?_⟩
      · have hbelow : sum + n < q.amountMinor := by omega
        exact ⟨by simpa using (by omega : ¬ sum + n = q.amountMinor), by simp; omega⟩
      · exact .part (by omega) (by omega)
    · -- the request is for all of the amount, so nothing was refunded before
      have hnext : refundStatus q (some n) = .refunded := by rw [refundStatus, if_neg hlt]
      have h0 : sum = 0 := by omega
      have hwhole : n = q.amountMinor := by omega
      rw [hnext, h0, Int.zero_add, hwhole]
      exact ⟨⟨fun _ => .inl rfl, fun _ => ⟨by simp, by simp⟩⟩, fun _ => .whole⟩

theorem Unmoved.refundedSum (hs : Unmoved s s') (id : String) :
    s'.refundedSum id = s.refundedSum id := by
  rw [World.refundedSum, World.refundedSum, World.refundsOf, World.refundsOf, hs.refunds]

theorem InPhase.unmoved (h : InPhase p s) (hs : Unmoved s s') : InPhase p s' := by
  rw [InPhase, hs.payments, hs.refundedSum]
  exact h

theorem RefundWritten.result (h : RefundWritten p.id body ctx q request r s s') :
    (∃ q' ∈ s'.payments, q'.id = p.id ∧ q'.amountMinor = q.amountMinor ∧
      q'.status = refundStatus q request) ∧
    s'.refundedSum p.id = s.refundedSum p.id + request.getD q.amountMinor := by
  obtain ⟨d, hrow, -⟩ := h.status.row
  obtain ⟨d', result, rfl⟩ := h.refund_eq
  refine ⟨⟨_, hrow, h.id, rfl, rfl⟩, ?_⟩
  have hl : s'.refundsOf p.id = s.refundsOf p.id ++ [newRefund d' q body request result] :=
    World.refundsOf_insert h.refund h.id
  rw [World.refundedSum, hl, List.map_append, List.sum_append]
  simp [newRefund, World.refundedSum]

theorem InPhase.written (h : InPhase p s) (hw : RefundWritten p.id body ctx q request r s s')
    (hfit : ∀ n ∈ request, 0 < n ∧ s.refundedSum p.id + n ≤ p.amountMinor) :
    (StatusFollows p.id p.amountMinor s' ↔ StaysBelow p.id p.amountMinor s ⟨body, ctx⟩) ∧
      (StaysBelow p.id p.amountMinor s ⟨body, ctx⟩ → InPhase p s') := by
  obtain ⟨q₀, hq₀, hid, ham, hphase⟩ := h
  obtain rfl : q = q₀ := Table.eq_of_key hw.status.mem hq₀ (hw.id.trans hid.symm)
  obtain ⟨⟨q', hq', hid', ham', hst'⟩, hsum⟩ := hw.result
  obtain ⟨externalId, hc⟩ := hw.refundable
  rw [← ham] at hphase hfit
  obtain ⟨hiff, hnext⟩ := hphase.next (checkRefundable_ok hc).1 hfit
  have hstays : StaysBelow p.id p.amountMinor s ⟨body, ctx⟩ ↔
      LeavesRest q.amountMinor (s.refundedSum p.id) request := by
    simp [StaysBelow, hw.amount_ok, ham]
  have hfollows : StatusFollows p.id p.amountMinor s' ↔
      Follows q.amountMinor (s'.refundedSum p.id) (refundStatus q request) := by
    rw [← hst', ham]
    constructor
    · rintro ⟨a, ha, hia, h⟩
      rw [Table.eq_of_key ha hq' (hia.trans hid'.symm)] at h
      exact h
    · exact fun h => ⟨q', hq', hid', h⟩
  rw [hstays, hfollows, hsum]
  refine ⟨hiff, fun hs => ⟨q', hq', hid', ham'.trans ham, ?_⟩⟩
  rw [hst', hsum, ← ham]
  exact hnext hs

end Step

/-! ## A sequence of calls -/

section Sequence

variable {registry : ProviderRegistry} {p : Payment}

/-- The calls from a state in a phase, in which `rest` is not more than the payment still has. -/
theorem served_iff {xs : List RefundTurn} {s : World} {rest : Int} (h : InPhase p s)
    (hrest : ∀ n, 0 < n → n ≤ rest → s.refundedSum p.id + n ≤ p.amountMinor)
    (hfit : RefundsFit rest xs) :
    (∀ e ∈ served registry p.id s xs, StatusFollows p.id p.amountMinor e.2.outcome.state) ↔
      ∀ e ∈ served registry p.id s xs, StaysBelow p.id p.amountMinor e.2.before e.1.call := by
  induction xs generalizing s rest with
  | nil => exact ⟨fun _ e he => absurd he List.not_mem_nil, fun _ e he => absurd he List.not_mem_nil⟩
  | cons x xs ih =>
    have hrun : Refunded p.id x.call.body x.call.ctx s ((x.task registry p.id).ran s).outcome.result
        ((x.task registry p.id).ran s).outcome.state :=
      refund_run registry p.id x.call.body x.call.ctx x.ω s
    obtain ⟨request, hreq, hrequest, hrest'⟩ : ∃ request, refundAmount x.call.body = .ok request ∧
        (∀ n ∈ request, 0 < n ∧ n ≤ rest) ∧
        RefundsFit (request.elim 0 fun n => rest - n) xs := by
      unfold RefundsFit at hfit
      split at hfit
      · rename_i n hn
        exact ⟨_, hn, by simpa using ⟨hfit.1, hfit.2.1⟩, hfit.2.2⟩
      · rename_i hn
        exact ⟨_, hn, by simp, hfit⟩
      · exact hfit.elim
    -- what is left for the other calls, whether this one succeeds or not
    have hleft : ∀ sum', sum' = s.refundedSum p.id ∨
        sum' = s.refundedSum p.id + request.getD p.amountMinor →
        ∀ m, 0 < m → m ≤ request.elim 0 (fun n => rest - n) → sum' + m ≤ p.amountMinor := by
      intro sum' hsum' m hm hle
      cases request with
      | none =>
        simp only [Option.elim_none] at hle
        omega
      | some n =>
        have hn := hrequest n rfl
        simp only [Option.elim_some, Option.getD_some] at hle hsum'
        have hroom := hrest (n + m) (by omega) (by omega)
        omega
    obtain ⟨ran, hran, hbefore⟩ : ∃ ran, (x.task registry p.id).ran s = ran ∧ ran.before = s :=
      ⟨_, rfl, rfl⟩
    rw [served_cons, hran]
    rw [hran] at hrun
    cases hres : ran.outcome.result with
    | error e =>
      rw [hres] at hrun
      cases hrun with
      | thrown _ hs =>
        rw [if_neg (by simp [Except.isOk, Except.toBool])]
        refine ih (h.unmoved hs) (hleft _ (.inl (hs.refundedSum p.id))) hrest'
    | ok a =>
      rw [hres] at hrun
      cases hrun with
      | written _ q request' r hw =>
        obtain rfl : request' = request := Except.ok.inj (hw.amount_ok.symm.trans hreq)
        have hfits : ∀ n ∈ request', 0 < n ∧ s.refundedSum p.id + n ≤ p.amountMinor := fun n hn =>
          ⟨(hrequest n hn).1, hrest n (hrequest n hn).1 (hrequest n hn).2⟩
        obtain ⟨hiff, hphase⟩ := h.written hw hfits
        have hsum : ran.outcome.state.refundedSum p.id =
            s.refundedSum p.id + request'.getD p.amountMinor := by
          obtain ⟨q₀, hq₀, hid, ham, -⟩ := h
          rw [hw.result.2, Table.eq_of_key hw.status.mem hq₀ (hw.id.trans hid.symm), ham]
        rw [if_pos (by rfl), List.forall_mem_cons, List.forall_mem_cons, hbefore]
        rw [hiff]
        refine and_congr_right fun hs => ?_
        exact ih (hphase hs) (hleft _ (.inr hsum)) hrest'

/-- **When the status follows the refunds**: over every sequence of calls with positive amounts that
fit the payment, whatever the environment decides, the status follows after each call that succeeds,
if and only if each of them finds no refund or stays below the amount of the payment. -/
theorem refund_status_follows_iff (registry : ProviderRegistry) (w : World) (p : Payment)
    (hmem : p ∈ w.payments) (hst : p.status = .captured)
    (hr : ∀ r ∈ w.refunds, r.paymentId ≠ p.id) (xs : List RefundTurn)
    (hfit : RefundsFit p.amountMinor xs) :
    (∀ e ∈ served registry p.id w xs, StatusFollows p.id p.amountMinor e.2.outcome.state) ↔
      ∀ e ∈ served registry p.id w xs, StaysBelow p.id p.amountMinor e.2.before e.1.call := by
  have hsum : w.refundedSum p.id = 0 := by
    rw [World.refundedSum, World.refundsOf_eq_nil hr]
    rfl
  refine served_iff ⟨p, hmem, rfl, rfl, ?_⟩ (fun n _ hle => ?_) hfit
  · rw [hst, hsum]
    exact .untouched
  · rw [hsum, Int.zero_add]
    exact hle

end Sequence

/-! ### Parts of 100 -/

/-- Refunds of the amounts `n`, which the provider accepts. -/
def inParts (n : List Int) : List RefundTurn :=
  n.mapIdx fun i n => ⟨⟨{ amountMinor := some (.num n) }, sampleCtx⟩,
    fun _ => { refund := .answered acceptedRefund, newId := fun _ => toString i }⟩

/-- Refunds of 60 and of 30 both succeed, and the status follows after each. -/
theorem refund_status_sample :
    (served fakeRegistry "pay" (World.withPayment capturedPayment) (inParts [60, 30])).length = 2 ∧
      ∀ e ∈ served fakeRegistry "pay" (World.withPayment capturedPayment) (inParts [60, 30]),
        StatusFollows "pay" 100 e.2.outcome.state := by
  refine ⟨by decide, ?_⟩
  refine (refund_status_follows_iff fakeRegistry (World.withPayment capturedPayment) capturedPayment
    (List.mem_singleton.mpr rfl) rfl (by simp [World.withPayment, World.empty]) _ ?_).mpr ?_
  · exact ⟨by decide, by decide, by decide, by decide, trivial⟩
  · decide

/-- 60 and then 40 of 100 leave the payment PARTIALLY_REFUNDED. -/
theorem refund_in_parts_stays_partial :
    ¬ ∀ e ∈ served fakeRegistry "pay" (World.withPayment capturedPayment) (inParts [60, 40]),
      StatusFollows "pay" 100 e.2.outcome.state := by
  decide

end Pasarela
