import Pasarela.RefundLedger

/-!
# The refunds and the provider's verdict

Any number of `refund` calls on any payments run side by side, and the provider answers each with a
result that is pending, succeeded or failed. The code records whatever it gets, so the ledger is
right in the runs where the transaction of a call commits just when the verdict is `succeeded`
(`FollowsVerdict`).

* `AnsweredWith`: the verdict on a call, in the requests made so far.
* `VerdictStage`: how far a call is; `VerdictInv`: what the stages say of the refunds and of the
  requests.
* `refunds_follow_verdict`: a call that the provider answered with `failed` changes nothing, and
  when no call is between its answer and its transaction, the refunds of each payment are those that
  succeeded.
-/

namespace Pasarela

open Conc (Proto Prog Conf Event)
open Store (Table)
open PaymentsService

/-- A `refund` call. -/
structure RefundRequest where
  id : String
  call : RefundCall

/-- The provider's verdict at the event. -/
def verdictOf : Event machine → Option RefundStatus
  | ⟨.refundCharge _ _, _, .ok r⟩ => some r.status
  | _ => none

/-- What a committed transaction needs: the database works, the payment is there, and the new ids
are new. -/
structure Commits (payment : Payment) (d : Decision) (s : World) : Prop where
  fail : d.fail = none
  row : ∃ q ∈ s.payments, q.id = payment.id
  event : ∀ e ∈ s.events, e.id ≠ d.newId .paymentEvent
  refund : ∀ r ∈ s.refunds, r.id ≠ d.newId .refund

/-- The transaction of a refund commits just when the verdict on it is `succeeded` (module doc). -/
def FollowsVerdict {ι : Type} : Conc.Allow machine ι := fun _ o d s =>
  match o with
  | .recordRefund payment _ _ _ result => Commits payment d s ↔ result.status = .succeeded
  | _ => True

/-- The sum of the refunds of a payment that are marked as refunded. -/
def World.returnedSum (s : World) (id : String) : Int :=
  (((s.refundsOf id).filter fun r => r.status = "REFUNDED").map (·.amountMinor)).sum

theorem exec_recordRefund_commits {payment : Payment} {st : PaymentStatus} {body : RefundBody}
    {amount : Option Int} {result : RefundResult} {d : Decision} {s s' : World}
    {a : Payment × Refund}
    (h : exec (.recordRefund payment st body amount result) d s = (.ok a, s')) :
    Commits payment d s := by
  have hfail : d.fail = none := by
    cases hf : d.fail with
    | none => rfl
    | some e =>
      rw [exec_of_fail (o := .recordRefund _ _ _ _ _) rfl hf] at h
      cases h
  rcases exec_recordRefund h with ⟨e, he, -⟩ | ⟨q, -, hr, hw⟩
  · cases he
  · obtain ⟨q₀, hq₀, hid, -⟩ := Table.update_some hw.payments
    exact ⟨hfail, ⟨q₀, hq₀, hid⟩, (Table.insert_ok hw.events).2.1, (Table.insert_ok hr).2.1⟩

theorem exec_recordRefund_error {payment : Payment} {st : PaymentStatus} {body : RefundBody}
    {amount : Option Int} {result : RefundResult} {d : Decision} {s s' : World} {e : Err}
    (h : exec (.recordRefund payment st body amount result) d s = (.error e, s')) :
    ¬ Commits payment d s := by
  intro hc
  obtain ⟨a, s₁, hok⟩ : ∃ a s₁, exec (.recordRefund payment st body amount result) d s = (.ok a, s₁) :=
    exec_recordRefund_of_fresh hc.fail hc.row hc.event hc.refund
  rw [hok] at h
  cases h

section Pool

variable {ι : Type}

/-- A member of a list, or the last one. -/
theorem exists_mem_snoc {α : Type} {P : α → Prop} {l : List α} {y : α} :
    (∃ x ∈ l ++ [y], P x) ↔ (∃ x ∈ l, P x) ∨ P y := by
  constructor
  · rintro ⟨x, hx, h⟩
    rcases List.mem_append.mp hx with hx | hx
    · exact .inl ⟨x, hx, h⟩
    · rw [List.mem_singleton.mp hx] at h
      exact .inr h
  · rintro (⟨x, hx, h⟩ | h)
    · exact ⟨x, List.mem_append_left _ hx, h⟩
    · exact ⟨y, List.mem_append_right _ (List.mem_singleton_self y), h⟩

/-- The verdict on call `t`, in the requests made so far (module doc). -/
def AnsweredWith (tr : List (ι × Event machine)) (t : ι) (st : RefundStatus) : Prop :=
  ∃ e ∈ tr, e.1 = t ∧ verdictOf e.2 = some st

instance [DecidableEq ι] (tr : List (ι × Event machine)) (t : ι) (st : RefundStatus) :
    Decidable (AnsweredWith tr t st) :=
  inferInstanceAs (Decidable (∃ e ∈ tr, e.1 = t ∧ verdictOf e.2 = some st))

theorem answeredWith_append {tr : List (ι × Event machine)} {t u : ι} {e : Event machine}
    {st : RefundStatus} : AnsweredWith (tr ++ [(t, e)]) u st ↔
      AnsweredWith tr u st ∨ t = u ∧ verdictOf e = some st :=
  exists_mem_snoc

/-- The request is the transaction of a refund. -/
def Op.isRecordRefund : Op → Bool
  | .recordRefund _ _ _ _ _ => true
  | _ => false

theorem Op.isRecordRefund_eq_false {o : Op} (h : o.writesPayments = false) :
    o.isRecordRefund = false := by
  cases o <;> first | rfl | cases h

/-- Call `t` made its transaction, which committed or failed. -/
def Attempted (tr : List (ι × Event machine)) (t : ι) : Prop :=
  ∃ e ∈ tr, e.1 = t ∧ e.2.op.isRecordRefund

instance [DecidableEq ι] (tr : List (ι × Event machine)) (t : ι) : Decidable (Attempted tr t) :=
  inferInstanceAs (Decidable (∃ e ∈ tr, e.1 = t ∧ e.2.op.isRecordRefund))

theorem attempted_append {tr : List (ι × Event machine)} {t u : ι} {e : Event machine} :
    Attempted (tr ++ [(t, e)]) u ↔ Attempted tr u ∨ t = u ∧ e.op.isRecordRefund :=
  exists_mem_snoc

/-- How far a call is (module doc). -/
inductive VerdictStage where
  | idle
  /-- The provider answered, and the transaction comes next. -/
  | answered (st : RefundStatus)
  /-- The transaction committed or failed. -/
  | done (st : RefundStatus)

def VerdictStage.verdict? : VerdictStage → Option RefundStatus
  | .idle => none
  | .answered st => some st
  | .done st => some st

/-- The refund of the call is recorded. -/
def VerdictStage.counts : VerdictStage → Bool
  | .done .succeeded => true
  | _ => false

/-- The amount of the call, if it is on the payment `p`. -/
def RefundRequest.amountOn (x : RefundRequest) (p : Payment) : Int :=
  if x.id = p.id then (requested p x.call).getD 0 else 0

variable (registry : ProviderRegistry) (calls : ι → RefundRequest)

def verdictPool (t : ι) : Service RefundedPayment :=
  refund registry (calls t).id (calls t).call.body (calls t).call.ctx

variable [Fintype ι]

/-- The amounts on `p` of the calls whose refund is recorded. -/
def counted (p : Payment) (G : ι → VerdictStage) : Int :=
  ∑ t, if (G t).counts then (calls t).amountOn p else 0

/-- What the stages say of the rows, from the state `w` (module doc). -/
structure VerdictRows (w : World) (G : ι → VerdictStage) (s : World) : Prop where
  rows : ∀ q ∈ s.payments, ∃ p ∈ w.payments, p.id = q.id ∧ p.organizationId = q.organizationId ∧
    p.amountMinor = q.amountMinor
  sum : ∀ p ∈ w.payments, s.returnedSum p.id = w.returnedSum p.id + counted calls p G

omit [Fintype ι] in
/-- What the stages say of the requests made so far (module doc). -/
structure VerdictTrace (G : ι → VerdictStage) (tr : List (ι × Event machine)) : Prop where
  verdict : ∀ t st, AnsweredWith tr t st ↔ (G t).verdict? = some st
  attempted : ∀ t, Attempted tr t → ∃ st, G t = .done st
  writes : ∀ e ∈ tr, e.2.op.writesPayments → e.2.ans.isOk → AnsweredWith tr e.1 .succeeded

variable [DecidableEq ι]

def verdicts (w : World) : Proto machine ι VerdictStage where
  allow := FollowsVerdict
  inv G s tr := VerdictRows calls w G s ∧ VerdictTrace G tr

variable {registry calls} {w s s' : World} {G : ι → VerdictStage} {tr : List (ι × Event machine)}
  {t : ι}

theorem counted_update {p : Payment} {g g' : VerdictStage} (hG : G t = g) :
    counted calls p (Function.update G t g') + (if g.counts then (calls t).amountOn p else 0) =
      counted calls p G + if g'.counts then (calls t).amountOn p else 0 := by
  rw [← hG]
  exact Conc.sum_update
    (fun u (g : VerdictStage) => if g.counts then (calls u).amountOn p else 0) G t g'

/-- Call `t` goes to another stage, and its refund is recorded in neither. -/
theorem counted_same {p : Payment} {g g' : VerdictStage} (hG : G t = g) (hc : g.counts = false)
    (hc' : g'.counts = false) : counted calls p (Function.update G t g') = counted calls p G := by
  have h : counted calls p (Function.update G t g') + _ = _ := counted_update hG
  rw [hc, hc'] at h
  simpa using h

omit [DecidableEq ι] in
/-- A step that leaves the payments and the refunds alone, after which the same refunds count. -/
theorem VerdictRows.same (h : VerdictRows calls w G s) {G' : ι → VerdictStage}
    (hp : s'.payments = s.payments) (hr : s'.refunds = s.refunds)
    (hG : ∀ p, counted calls p G' = counted calls p G) : VerdictRows calls w G' s' := by
  refine ⟨by rw [hp]; exact h.rows, fun p hmem => ?_⟩
  rw [World.returnedSum, World.refundsOf, hr, hG]
  exact h.sum p hmem

theorem VerdictRows.record (h : VerdictRows calls w G s) {g : VerdictStage} (hG : G t = g)
    (hg : g.counts = false) {payment : Payment} {st : PaymentStatus} {body : RefundBody}
    {amount : Option Int} {result : RefundResult} {d : Decision} {q : Payment} {ev : PaymentEvent}
    (hid : payment.id = (calls t).id)
    (hm : ∀ p ∈ w.payments, p.id = payment.id →
      requested p (calls t).call = some (amount.getD payment.amountMinor))
    (hr : s.refunds.insert (newRefund d payment body amount result) = .ok s'.refunds)
    (hw : Written payment.id (setStatus d st) (keeps_setStatus d _) ev s q
      { s' with refunds := s.refunds }) :
    VerdictRows calls w (Function.update G t (.done .succeeded)) s' := by
  refine ⟨fun a ha => ?_, fun p hp => ?_⟩
  · rcases (Table.mem_update hw.payments).mp ha with ⟨ha, -⟩ | rfl
    · exact h.rows a ha
    · obtain ⟨a₀, ha₀, -, rfl, -⟩ := Table.update_some hw.payments
      exact h.rows a₀ ha₀
  have hsum : counted calls p (Function.update G t (.done .succeeded)) =
      counted calls p G + (calls t).amountOn p := by
    have h : counted calls p (Function.update G t (.done .succeeded)) + _ = _ := counted_update hG
    rw [hg] at h
    simpa [VerdictStage.counts] using h
  by_cases hpid : p.id = payment.id
  · have hl : s'.refundsOf p.id = s.refundsOf p.id ++ [newRefund d payment body amount result] :=
      World.refundsOf_insert hr hpid.symm
    have hamount : (calls t).amountOn p = amount.getD payment.amountMinor := by
      rw [RefundRequest.amountOn, if_pos (hid.symm.trans hpid.symm), hm p hp hpid]
      rfl
    rw [hsum, ← Int.add_assoc, ← h.sum p hp, hamount, World.returnedSum, hl, List.filter_append,
      List.map_append, List.sum_append]
    simp [newRefund, World.returnedSum]
  · have hl : s'.refundsOf p.id = s.refundsOf p.id :=
      World.refundsOf_insert_of_ne hr (Ne.symm hpid)
    have hamount : (calls t).amountOn p = 0 := by
      rw [RefundRequest.amountOn, if_neg fun he => hpid (he.symm.trans hid.symm)]
    rw [hsum, hamount, Int.add_zero, ← h.sum p hp, World.returnedSum, World.returnedSum, hl]

omit [Fintype ι] [DecidableEq ι] in
/-- The writes after a request that does not write payments. -/
theorem VerdictTrace.writes_quiet (h : VerdictTrace G tr) {e : Event machine}
    (ho : e.op.writesPayments = false) : ∀ x ∈ tr ++ [(t, e)], x.2.op.writesPayments →
      x.2.ans.isOk → AnsweredWith (tr ++ [(t, e)]) x.1 .succeeded := by
  intro x hx hw hok
  rw [answeredWith_append]
  rcases List.mem_append.mp hx with hx | hx
  · exact .inl (h.writes x hx hw hok)
  · rw [List.mem_singleton.mp hx, ho] at hw
    cases hw

omit [Fintype ι] [DecidableEq ι] in
theorem VerdictTrace.quiet (h : VerdictTrace G tr) {e : Event machine} (hv : verdictOf e = none)
    (ho : e.op.writesPayments = false) : VerdictTrace G (tr ++ [(t, e)]) := by
  refine ⟨fun u st => ?_, fun u ha => ?_, h.writes_quiet ho⟩
  · rw [answeredWith_append, hv, h.verdict]
    simp
  · rcases attempted_append.mp ha with ha | ⟨-, ha⟩
    · exact h.attempted u ha
    · rw [Op.isRecordRefund_eq_false ho] at ha
      cases ha

omit [Fintype ι] in
/-- The provider answers call `t`. -/
theorem VerdictTrace.answer (h : VerdictTrace G tr) (hG : G t = .idle) {e : Event machine}
    {st : RefundStatus} (hv : verdictOf e = some st) (ho : e.op.writesPayments = false) :
    VerdictTrace (Function.update G t (.answered st)) (tr ++ [(t, e)]) := by
  refine ⟨fun u st' => ?_, fun u ha => ?_, h.writes_quiet ho⟩
  · rw [answeredWith_append, h.verdict, hv]
    by_cases hu : u = t
    · rw [hu, Function.update_self, hG]
      simp [VerdictStage.verdict?]
    · rw [Function.update_of_ne hu]
      simp [Ne.symm hu]
  · rcases attempted_append.mp ha with ha | ⟨-, ha⟩
    · obtain ⟨st', hst'⟩ := h.attempted u ha
      have hu : u ≠ t := by
        rintro rfl
        rw [hG] at hst'
        cases hst'
      exact ⟨st', by rw [Function.update_of_ne hu]; exact hst'⟩
    · rw [Op.isRecordRefund_eq_false ho] at ha
      cases ha

omit [Fintype ι] in
/-- Call `t` makes its transaction, which commits only if the verdict is `succeeded`. -/
theorem VerdictTrace.done (h : VerdictTrace G tr) {st : RefundStatus} (hG : G t = .answered st)
    {e : Event machine} (hv : verdictOf e = none) (hok : e.ans.isOk → st = .succeeded) :
    VerdictTrace (Function.update G t (.done st)) (tr ++ [(t, e)]) := by
  have hans : ∀ u st', AnsweredWith (tr ++ [(t, e)]) u st' ↔ AnsweredWith tr u st' := by
    intro u st'
    rw [answeredWith_append, hv]
    simp
  refine ⟨fun u st' => ?_, fun u ha => ?_, fun x hx hw hok' => ?_⟩
  · rw [hans, h.verdict]
    by_cases hu : u = t
    · rw [hu, Function.update_self, hG]
      rfl
    · rw [Function.update_of_ne hu]
  · by_cases hut : u = t
    · exact ⟨st, by rw [hut, Function.update_self]⟩
    · rw [Function.update_of_ne hut]
      rcases attempted_append.mp ha with ha | ⟨htu, -⟩
      · exact h.attempted u ha
      · exact absurd htu.symm hut
  · rw [hans]
    rcases List.mem_append.mp hx with hx | hx
    · exact h.writes x hx hw hok'
    · rw [List.mem_singleton.mp hx] at hok'
      rw [List.mem_singleton.mp hx, h.verdict, hG, hok hok']
      rfl

omit [DecidableEq ι] in
/-- A request of the call that leaves the payments and the refunds alone and is no verdict. -/
theorem verdicts_quiet (h : (verdicts calls w).inv G s tr) {e : Event machine}
    (hp : s'.payments = s.payments) (hr : s'.refunds = s.refunds) (hv : verdictOf e = none)
    (ho : e.op.writesPayments = false) : (verdicts calls w).inv G s' (tr ++ [(t, e)]) :=
  ⟨h.1.same hp hr fun _ => rfl, h.2.quiet hv ho⟩

/-- **Each call keeps the invariant**, in the runs that follow the verdicts. -/
theorem verdicts_refund (t : ι) :
    (verdicts calls w).WP t (fun _ _ => True) (verdictPool registry calls t) .idle := by
  refine Proto.WP.perform_bind fun G s tr d r s' hG hi _ hx => ?_
  obtain ⟨rfl, hcases⟩ := exec_findPayment hx
  rcases hcases with ⟨e, rfl⟩ | ⟨rfl, -⟩ | ⟨payment, rfl, hmem, hw⟩
  · exact ⟨trivial, Proto.keep hG (verdicts_quiet hi rfl rfl rfl rfl) trivial⟩
  · exact ⟨trivial, Proto.keep hG (verdicts_quiet hi rfl rfl rfl rfl) trivial⟩
  refine ⟨trivial, Proto.keep hG (verdicts_quiet hi rfl rfl rfl rfl) ?_⟩
  obtain ⟨hid, hctx⟩ := PaymentWhere.holds_id_org.mp hw
  obtain ⟨p', hp', hid', horg, ham⟩ := hi.1.rows payment hmem
  refine Proto.WP.ofExcept_bind (fun externalId hc => ?_) fun _ _ => trivial
  refine Proto.WP.ofExcept_bind (fun provider _ => ?_) fun _ _ => trivial
  refine Proto.WP.ofExcept_bind (fun amount hamount => ?_) fun _ _ => trivial
  -- the amount that the call records is the one that the payment of the start gives it
  have hm : ∀ p ∈ w.payments, p.id = payment.id →
      requested p (calls t).call = some (amount.getD payment.amountMinor) := by
    intro p hp hpid
    rw [Table.eq_of_key hp hp' (hpid.trans hid'.symm), requested,
      if_pos (hctx.symm.trans horg.symm), hamount, ham]
  refine Proto.WP.perform_bind fun G s₁ tr d r s₂ hG hi _ hx => ?_
  obtain ⟨rfl, rfl⟩ := Prod.mk.inj hx
  cases hans : d.refund.answer with
  | error e => exact ⟨trivial, Proto.keep hG (verdicts_quiet hi rfl rfl rfl rfl) trivial⟩
  | ok result =>
    refine ⟨trivial, .answered result.status,
      ⟨hi.1.same rfl rfl fun p => counted_same hG rfl rfl, hi.2.answer hG rfl rfl⟩, ?_⟩
    refine Proto.WP.ofExcept_bind (fun _ _ => ?_) fun _ _ => trivial
    refine Proto.WP.perform_bind fun G s₃ tr d r s₄ hG hi ha hx => ?_
    rcases exec_recordRefund hx with ⟨e, rfl, rfl⟩ | ⟨q, rfl, hr, hwr⟩
    · have hcounts : (VerdictStage.done result.status).counts = false := by
        cases hst : result.status with
        | succeeded => exact absurd (ha.mpr hst) (exec_recordRefund_error hx)
        | pending => rfl
        | failed => rfl
      exact ⟨trivial, .done result.status, ⟨hi.1.same rfl rfl fun p => counted_same hG rfl hcounts,
        hi.2.done hG rfl fun h => by cases h⟩, trivial⟩
    · have hst : result.status = .succeeded := ha.mp (exec_recordRefund_commits hx)
      rw [hst] at hG
      refine ⟨trivial, .done .succeeded, ⟨hi.1.record hG rfl hid hm hr hwr,
        hi.2.done hG rfl fun _ => rfl⟩, ?_⟩
      refine Proto.WP.perform_bind fun G s₅ tr d r s₆ hG hi _ hx => ?_
      obtain ⟨rfl, hs⟩ := exec_auditLog hx
      exact ⟨trivial, Proto.keep hG (verdicts_quiet hi (by rw [hs]) (by rw [hs]) rfl rfl) trivial⟩

/-! ## The runs -/

variable (calls) in
/-- The amounts on `p` of the calls that the provider answered with `succeeded`. -/
def succeededSum (tr : List (ι × Event machine)) (p : Payment) : Int :=
  ∑ t, if AnsweredWith tr t .succeeded then (calls t).amountOn p else 0

omit [Fintype ι] [DecidableEq ι] in
/-- No call is between the answer of the provider and its transaction. -/
def NoneWaiting (tr : List (ι × Event machine)) : Prop :=
  ∀ t st, AnsweredWith tr t st → Attempted tr t

/-- A step of call `t` in such a run. -/
def StepOf (t : ι) (c₁ c₂ : Conf machine ι RefundedPayment) : Prop :=
  Conf.Step FollowsVerdict c₁ c₂ ∧ ∃ e, c₂.trace = c₁.trace ++ [(t, e)]

theorem counted_eq_succeededSum (h : VerdictTrace G tr) (hn : NoneWaiting tr) (p : Payment) :
    counted calls p G = succeededSum calls tr p := by
  refine Finset.sum_congr rfl fun t _ => ?_
  have hiff : (G t).counts = true ↔ AnsweredWith tr t .succeeded := by
    constructor
    · intro hc
      rw [h.verdict]
      cases hG : G t with
      | idle => rw [hG] at hc; cases hc
      | answered st => rw [hG] at hc; cases hc
      | done st =>
        rw [hG] at hc
        cases st with
        | succeeded => rfl
        | pending => cases hc
        | failed => cases hc
    · intro ha
      obtain ⟨st, hst⟩ := h.attempted t (hn t _ ha)
      have hv := (h.verdict t _).mp ha
      rw [hst] at hv ⊢
      cases hv
      rfl
  exact if_congr hiff rfl rfl

theorem verdicts_start (w : World) :
    (verdicts calls w).Ok (fun _ _ _ => True) (Conf.start w (verdictPool registry calls)) := by
  refine ⟨fun _ => .idle, ⟨⟨fun q hq => ⟨q, hq, rfl, rfl, rfl⟩, fun p _ => ?_⟩,
    ⟨fun t st => ?_, fun t ha => ?_, fun e he => absurd he List.not_mem_nil⟩⟩,
    fun t => verdicts_refund t⟩
  · show w.returnedSum p.id = w.returnedSum p.id + counted calls p fun _ => .idle
    simp [counted, VerdictStage.counts]
  · refine ⟨fun ⟨_, he, _⟩ => absurd he List.not_mem_nil, fun h => by cases h⟩
  · obtain ⟨_, he, -⟩ := ha
    exact absurd he List.not_mem_nil

omit [Fintype ι] in
/-- A step of a call that changes the payments or the refunds is its transaction, and the provider
answered it with `succeeded`. -/
theorem StepOf.changes {t : ι} {c₁ c₂ : Conf machine ι RefundedPayment} (hs : StepOf t c₁ c₂)
    (h₂ : VerdictTrace G c₂.trace) :
    (c₂.st.payments = c₁.st.payments ∧ c₂.st.refunds = c₁.st.refunds) ∨
      AnsweredWith c₂.trace t .succeeded := by
  obtain ⟨⟨d, hthr, -⟩, e, htr⟩ := hs
  rename_i u o k
  have he : (u, Event.of o d c₁.st) = (t, e) := by
    have hlast := List.append_cancel_left htr
    exact (List.cons.inj hlast).1
  cases hw : o.writesPayments with
  | false =>
    have hx : exec o d c₁.st = ((exec o d c₁.st).1, (exec o d c₁.st).2) := rfl
    have hsame := exec_others hw hx
    left
    show (exec o d c₁.st).2.payments = _ ∧ (exec o d c₁.st).2.refunds = _
    rw [hsame]
    exact ⟨rfl, rfl⟩
  | true =>
    cases hr : (exec o d c₁.st).1 with
    | error er =>
      have hsame : (exec o d c₁.st).2 = c₁.st := exec_error (Prod.ext hr rfl)
      left
      show (exec o d c₁.st).2.payments = _ ∧ (exec o d c₁.st).2.refunds = _
      rw [hsame]
      exact ⟨rfl, rfl⟩
    | ok a =>
      right
      have hmem : (t, e) ∈ (c₁.next u o k d).trace := by
        rw [htr]
        exact List.mem_append_right _ List.mem_cons_self
      have hok : (Event.of (M := machine) o d c₁.st).ans.isOk := by
        show (exec o d c₁.st).1.isOk = true
        rw [hr]
        rfl
      rw [← he] at hmem
      have hans := h₂.writes _ hmem hw hok
      rw [he] at hans
      exact hans

end Pool

/-- **The refunds follow the verdict of the provider**, in every run of calls on any payments whose
transactions commit just when the verdict is `succeeded`: no step of a call that the provider
answered with `failed` changes a payment or a refund, and while no call is between its answer and
its transaction, what is refunded of a payment is what succeeded. -/
theorem refunds_follow_verdict {ι : Type} [DecidableEq ι] [Fintype ι] (registry : ProviderRegistry)
    (calls : ι → RefundRequest) (w : World) (c : Conf machine ι RefundedPayment)
    (hr : Conf.Reach FollowsVerdict (Conf.start w (verdictPool registry calls)) c) :
    (∀ t c₁ c₂, Conf.Reach FollowsVerdict (Conf.start w (verdictPool registry calls)) c₁ →
      StepOf t c₁ c₂ → Conf.Reach FollowsVerdict c₂ c → AnsweredWith c.trace t .failed →
      c₂.st.payments = c₁.st.payments ∧ c₂.st.refunds = c₁.st.refunds) ∧
    (NoneWaiting c.trace → ∀ p ∈ w.payments,
      c.st.returnedSum p.id = w.returnedSum p.id + succeededSum calls c.trace p) := by
  obtain ⟨G, ⟨hrows, htrace⟩, -⟩ := Proto.sound (verdicts_start w) hr
  constructor
  · intro t c₁ c₂ h₁ hs h₂ hfailed
    obtain ⟨G₂, ⟨-, htrace₂⟩, -⟩ := Proto.sound (verdicts_start w) (h₁.tail hs.1)
    rcases hs.changes htrace₂ with h | ⟨e, he, hans⟩
    · exact h
    · -- the verdict of a call does not change
      have hsucceeded : AnsweredWith c.trace t .succeeded := ⟨e, h₂.trace_mono.subset he, hans⟩
      have hv := ((htrace.verdict t _).mp hfailed).symm.trans ((htrace.verdict t _).mp hsucceeded)
      cases hv
  · intro hn p hp
    rw [hrows.sum p hp, counted_eq_succeededSum htrace hn]

/-! ### Two calls on a payment of 100, of which one fails -/

/-- A refund of 60, and one of 30 (`true`). -/
def mixedCalls (t : Bool) : RefundRequest :=
  ⟨"pay", asking (fun t : Bool => if t then 30 else 60) t⟩

/-- The provider refunds the 60 and not the 30, and the database is down at the second transaction. -/
def mixedVerdicts : List (Bool × Decision) := [
  (false, {}), (true, {}), (false, { refund := .answered acceptedRefund }),
  (true, { refund := .answered ⟨"re_2", .failed, .null⟩ }), (false, { newId := fun _ => "a" }),
  (true, { fail := some (.other "Can't reach database server") }), (false, {})]

/-- The state after the schedule. -/
def mixedRun : Conf machine Bool RefundedPayment :=
  (Conf.start (World.withPayment capturedPayment) (verdictPool fakeRegistry mixedCalls)).play
    mixedVerdicts

theorem reach_mixedRun : Conf.Reach FollowsVerdict
    (Conf.start (World.withPayment capturedPayment) (verdictPool fakeRegistry mixedCalls))
    mixedRun := by
  refine Conf.reach_play ⟨trivial, trivial, trivial, trivial, ?_, ?_, trivial, trivial⟩
  · refine iff_of_true ⟨rfl, ⟨_, List.mem_singleton.mpr rfl, rfl⟩, ?_, ?_⟩ rfl
    · exact fun _ he => absurd he Table.not_mem_empty
    · exact fun _ he => absurd he Table.not_mem_empty
  · refine iff_of_false (fun h => ?_) (by decide)
    cases h.fail

theorem refunds_follow_verdict_sample :
    mixedRun.st.returnedSum "pay" = (World.withPayment capturedPayment).returnedSum "pay" +
      succeededSum mixedCalls mixedRun.trace capturedPayment := by
  have hattempted : ∀ t : Bool, Attempted mixedRun.trace t := by decide
  exact (refunds_follow_verdict fakeRegistry mixedCalls (World.withPayment capturedPayment) mixedRun
    reach_mixedRun).2 (fun t _ _ => hattempted t) capturedPayment (List.mem_singleton.mpr rfl)

/-- The provider does not refund the 30, and everything else works. -/
def failedRun : Conf machine Bool RefundedPayment :=
  (Conf.start (World.withPayment capturedPayment) (verdictPool fakeRegistry mixedCalls)).play [
    (true, {}), (true, { refund := .answered ⟨"re_2", .failed, .null⟩ }),
    (true, { newId := fun _ => "a" })]

/-- A refund that the provider answered with `failed` is recorded as refunded. -/
theorem failed_refund_recorded : ¬ ∀ (ι : Type) [DecidableEq ι] [Fintype ι]
    (registry : ProviderRegistry) (calls : ι → RefundRequest) (w : World)
    (c : Conf machine ι RefundedPayment),
    Conf.Reach Conc.Any (Conf.start w (verdictPool registry calls)) c → NoneWaiting c.trace →
    ∀ p ∈ w.payments,
      c.st.returnedSum p.id = w.returnedSum p.id + succeededSum calls c.trace p := by
  intro h
  have hanswered : ∀ t : Bool, (∃ e ∈ failedRun.trace, e.1 = t ∧ (verdictOf e.2).isSome) →
      Attempted failedRun.trace t := by decide
  have hsum := h Bool fakeRegistry mixedCalls _ failedRun (Conf.reach_play (Conf.plays_any _ _))
    (fun t st ⟨e, he, ht, hv⟩ => hanswered t ⟨e, he, ht, by rw [hv]; rfl⟩) capturedPayment
    (List.mem_singleton.mpr rfl)
  revert hsum
  decide

end Pasarela
