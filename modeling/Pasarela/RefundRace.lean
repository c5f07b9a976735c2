import Mathlib.Data.Multiset.Basic
import Pasarela.RefundLedger
import Pasarela.Sequential

/-!
# Two refunds of one payment at the same time

Two `refund` calls on one payment interleave, and the provider accepts what they submit. They are
serializable when what can be observed at the end is what some order of the two, one after the
other, gives too.

* `Observed`: the refunds that each call submitted, the rows of the payment's refunds without ids
  and times, the status, and which calls threw.
* `Goes`: the call gets to the provider, if nothing fails.
* `RaceStage`: how far a call is. While the calls do not get in each other's way, the stages
  determine what is observed (`race_observed`), and one call after the other gets to any two stages
  (`serial_stages`).
* `refunds_serializable_iff`: the calls are serializable, if and only if both are for a part of the
  payment, whenever both go.
-/

namespace Pasarela

open Conc (Alone Event Proto Prog Conf)
open Store (Table)
open PaymentsService

/-! ## What is observed -/

/-- What a refund says, without its id and its times. -/
structure RefundData where
  amountMinor : Int
  reason : Option String
  externalRefundId : Option String
  status : String
  deriving DecidableEq, Repr

def Refund.data (r : Refund) : RefundData := ⟨r.amountMinor, r.reason, r.externalRefundId, r.status⟩

/-- The refund that the event submits to a provider. -/
def submittedAt : Event machine → Option (String × RefundInput)
  | ⟨.refundCharge providerId input, _, _⟩ => some (providerId, input)
  | _ => none

/-- What is observed when the calls have ended (module doc). -/
structure Observed where
  submitted : Bool → List (String × RefundInput)
  rows : Multiset RefundData
  status : Option PaymentStatus
  threw : Bool → Bool

/-- The call threw. -/
def threw {α : Type} : Service α → Bool
  | .throw _ => true
  | _ => false

theorem threw_ofExcept {α : Type} (r : Except Err α) :
    threw (.ofExcept r : Service α) = !r.isOk := by
  cases r <;> rfl

/-- The refunds that call `t` submitted. -/
def submittedBy (tr : List (Bool × Event machine)) (t : Bool) : List (String × RefundInput) :=
  (tr.filter fun e => e.1 = t).filterMap fun e => submittedAt e.2

/-- The refunds of the payment, as data. -/
def World.refundData (s : World) (id : String) : Multiset RefundData :=
  ↑((s.refundsOf id).map Refund.data)

def observe (id : String) (c : Conf machine Bool RefundedPayment) : Observed where
  submitted := submittedBy c.trace
  rows := c.st.refundData id
  status := c.st.statusOf id
  threw t := threw (c.thr t)

/-- Both calls have ended. -/
def Finished (c : Conf machine Bool RefundedPayment) : Prop := ∀ t, ∃ r, c.thr t = .ofExcept r

section Race

variable (registry : ProviderRegistry) (calls : Bool → RefundCall) (results : Bool → RefundResult)

/-- The provider accepts what call `t` submits, with `results t`. -/
def AcceptingWith : Conc.Allow machine Bool := fun t o d _ =>
  match o with
  | .refundCharge _ _ => d.refund = .answered (results t)
  | _ => True

/-- The decisions `ω` for call `t` are such. -/
def AcceptsWith (t : Bool) (ω : Op → Decision) : Prop :=
  ∀ providerId input, (ω (.refundCharge providerId input)).refund = .answered (results t)

def raceStart (id : String) (w : World) : Conf machine Bool RefundedPayment :=
  Conf.start w (refundPool registry calls id)

/-- One order of the calls, one after the other, gives what `c` gives. -/
def Serializable (id : String) (w : World) (c : Conf machine Bool RefundedPayment) : Prop :=
  ∃ first ω₁ ω₂, AcceptsWith results first ω₁ ∧ AcceptsWith results (!first) ω₂ ∧
    observe id c =
      observe id (((raceStart registry calls id w).finish first ω₁).finish (!first) ω₂)

/-! ## The stages -/

/-- The amount of the call. -/
def givenAmount (call : RefundCall) : Option Int :=
  match refundAmount call.body with
  | .ok amount => amount
  | .error _ => none

/-- The call gets to the provider, if nothing fails (module doc). -/
structure Goes (p : Payment) (call : RefundCall) : Prop where
  org : call.ctx.organizationId = p.organizationId
  check : ∃ externalId, checkRefundable p = .ok externalId
  provider : ∃ provider, registry.get p.providerId = .ok provider
  amount : refundAmount call.body = .ok (givenAmount call)

/-- What the call submits. -/
def raceInput (p : Payment) (call : RefundCall) : String × RefundInput :=
  (p.providerId, ⟨p.externalId.getD "", givenAmount call, call.body.reason⟩)

/-- What the call records. -/
def raceData (p : Payment) (call : RefundCall) (result : RefundResult) : RefundData :=
  ⟨(givenAmount call).getD p.amountMinor, call.body.reason, some result.externalRefundId, "REFUNDED"⟩

/-- How far a call is (module doc). -/
inductive RaceStage where
  | idle
  /-- It submitted its refund, and has not recorded it. -/
  | asked
  | recorded
  deriving DecidableEq

/-- The status of a payment after some call recorded: `next`, which is the same for both. -/
structure IsNext (p : Payment) (next : PaymentStatus) : Prop where
  each : ∀ t, Goes registry p (calls t) → refundStatus p (givenAmount (calls t)) = next
  both : (∀ t, Goes registry p (calls t)) → next = .partiallyRefunded

/-- What is observed, by the stages. -/
def observedOf (w : World) (p : Payment) (next : PaymentStatus) (G : Bool → RaceStage) :
    Observed where
  submitted t := if G t = .idle then [] else [raceInput p (calls t)]
  rows := w.refundData p.id +
    ∑ t, if G t = .recorded then {raceData p (calls t) (results t)} else 0
  status := some (if ∃ t, G t = .recorded then next else p.status)
  threw t := G t ≠ .recorded

/-- The invariant of the two calls: what is observed is what the stages say. -/
structure RaceInv (w : World) (p : Payment) (next : PaymentStatus) (G : Bool → RaceStage)
    (s : World) (tr : List (Bool × Event machine)) : Prop where
  row : ∃ q ∈ s.payments, ∃ updatedAt, q = { p with
    status := if ∃ t, G t = .recorded then next else p.status
    updatedAt }
  rows : s.refundData p.id = (observedOf calls results w p next G).rows
  submitted : submittedBy tr = (observedOf calls results w p next G).submitted
  goes : ∀ t, G t ≠ .idle → Goes registry p (calls t)

def raceProto (w : World) (p : Payment) (next : PaymentStatus) : Proto machine Bool RaceStage where
  allow := AcceptingWith results
  inv G s tr := RaceInv registry calls results w p next G s tr

variable {registry calls results} {w s s' : World} {p : Payment} {next : PaymentStatus}
  {G : Bool → RaceStage} {tr : List (Bool × Event machine)} {t : Bool}

theorem submittedBy_append (tr : List (Bool × Event machine)) (t u : Bool) (e : Event machine) :
    submittedBy (tr ++ [(t, e)]) u =
      submittedBy tr u ++ if t = u then (submittedAt e).toList else [] := by
  by_cases h : t = u
  · cases hs : submittedAt e <;> simp [submittedBy, h, hs]
  · simp [submittedBy, h]

theorem submittedBy_quiet (tr : List (Bool × Event machine)) (t : Bool) {e : Event machine}
    (h : submittedAt e = none) : submittedBy (tr ++ [(t, e)]) = submittedBy tr := by
  funext u
  rw [submittedBy_append, h]
  simp

/-- A request that leaves the payments and the refunds alone and submits nothing. -/
theorem RaceInv.quiet (h : RaceInv registry calls results w p next G s tr) {e : Event machine}
    (hp : s'.payments = s.payments) (hr : s'.refunds = s.refunds) (he : submittedAt e = none) :
    RaceInv registry calls results w p next G s' (tr ++ [(t, e)]) := by
  refine ⟨by rw [hp]; exact h.row, ?_, by rw [submittedBy_quiet tr t he]; exact h.submitted, h.goes⟩
  rw [World.refundData, World.refundsOf, hr]
  exact h.rows

theorem RaceInv.ask (h : RaceInv registry calls results w p next G s tr) (hG : G t = .idle)
    (hgo : Goes registry p (calls t)) {e : Event machine}
    (he : submittedAt e = some (raceInput p (calls t))) :
    RaceInv registry calls results w p next (Function.update G t .asked) s (tr ++ [(t, e)]) := by
  have hrec : ∀ u, Function.update G t .asked u = .recorded ↔ G u = .recorded := by
    intro u
    by_cases hu : u = t
    · rw [hu, Function.update_self, hG]
      simp
    · rw [Function.update_of_ne hu]
  refine ⟨?_, ?_, ?_, fun u hu => ?_⟩
  · simp only [hrec]
    exact h.row
  · rw [h.rows]
    simp only [observedOf, hrec]
  · funext u
    rw [submittedBy_append, h.submitted, he]
    by_cases hu : u = t
    · simp [observedOf, hu, hG]
    · simp [observedOf, hu, Ne.symm hu]
  · by_cases hut : u = t
    · rw [hut]
      exact hgo
    · rw [Function.update_of_ne hut] at hu
      exact h.goes u hu

theorem RaceInv.record (h : RaceInv registry calls results w p next G s tr) (hG : G t = .asked)
    {q b : Payment} {d : Decision} {ev : PaymentEvent} (hid : q.id = p.id)
    (ham : q.amountMinor = p.amountMinor)
    (hr : s.refunds.insert (newRefund d q (calls t).body (givenAmount (calls t)) (results t)) =
      .ok s'.refunds)
    (hw : Written q.id (setStatus d next) (keeps_setStatus d _) ev s b
      { s' with refunds := s.refunds }) {e : Event machine} (he : submittedAt e = none) :
    RaceInv registry calls results w p next (Function.update G t .recorded) s' (tr ++ [(t, e)]) := by
  have hsome : ∃ u, Function.update G t .recorded u = .recorded := ⟨t, Function.update_self ..⟩
  refine ⟨?_, ?_, ?_, fun u hu => ?_⟩
  · obtain ⟨a, ha, hk, rfl, -⟩ := Table.update_some hw.payments
    obtain ⟨a', ha', u, hu⟩ := h.row
    have haa : a = a' := Table.eq_of_key ha ha' (by rw [hk, hid, hu])
    refine ⟨_, (Table.mem_update hw.payments).mpr (.inr rfl), d.now, ?_⟩
    rw [if_pos hsome, haa, hu]
    rfl
  · have hsum := Conc.sum_update (fun u (g : RaceStage) =>
      if g = .recorded then ({raceData p (calls u) (results u)} : Multiset RefundData) else 0) G t
      .recorded
    rw [hG, if_neg (by decide), if_pos rfl, add_zero] at hsum
    have hdata : (newRefund d q (calls t).body (givenAmount (calls t)) (results t)).data =
        raceData p (calls t) (results t) := by
      simp [Refund.data, newRefund, raceData, ham]
    have hl : s'.refundData p.id = s.refundData p.id + {raceData p (calls t) (results t)} := by
      rw [World.refundData, World.refundsOf_insert hr hid, List.map_append, ← Multiset.coe_add,
        List.map_singleton, hdata]
      rfl
    rw [hl, h.rows, observedOf, observedOf, hsum, add_assoc]
  · rw [submittedBy_quiet tr t he, h.submitted]
    funext u
    by_cases hu : u = t
    · simp [observedOf, hu, hG]
    · simp [observedOf, hu]
  · by_cases hut : u = t
    · rw [hut]
      exact h.goes t (by rw [hG]; decide)
    · rw [Function.update_of_ne hut] at hu
      exact h.goes u hu

/-- A row that call `t` found and may refund: it has the columns of `p`, and the call goes. -/
theorem RaceInv.found (h : RaceInv registry calls results w p next G s tr)
    (hnext : IsNext registry calls p next) {q : Payment} (hq : q ∈ s.payments) (hid : q.id = p.id)
    (horg : q.organizationId = (calls t).ctx.organizationId) {externalId : String}
    (hc : checkRefundable q = .ok externalId) {provider : PaymentProvider}
    (hprov : registry.get q.providerId = .ok provider) {amount : Option Int}
    (hamount : refundAmount (calls t).body = .ok amount) :
    Goes registry p (calls t) ∧ amount = givenAmount (calls t) ∧ q.amountMinor = p.amountMinor ∧
      refundStatus q amount = next ∧
      (provider.id, ⟨externalId, amount, (calls t).body.reason⟩) = raceInput p (calls t) := by
  have hgiven : amount = givenAmount (calls t) := by rw [givenAmount, hamount]
  obtain ⟨q', hq', u, hrow⟩ := h.row
  have hqq : q = q' := Table.eq_of_key hq hq' (by rw [hid, hrow])
  rw [hrow] at hqq
  have hcheck : ∃ externalId, checkRefundable p = .ok externalId := by
    by_cases hrec : ∃ u, G u = .recorded
    · -- another call recorded, so it went, and it found the payment refundable
      obtain ⟨u, hu⟩ := hrec
      exact (h.goes u (by rw [hu]; decide)).check
    · rw [if_neg hrec] at hqq
      refine ⟨externalId, ?_⟩
      rw [← hc, hqq]
      rfl
  have hgo : Goes registry p (calls t) := by
    refine ⟨?_, hcheck, ⟨provider, ?_⟩, by rw [hamount, hgiven]⟩
    · rw [← horg, hqq]
    · rw [← hprov, hqq]
  have ham : q.amountMinor = p.amountMinor := by rw [hqq]
  refine ⟨hgo, hgiven, ham, ?_, ?_⟩
  · rw [hgiven, ← hnext.each t hgo]
    unfold refundStatus
    rw [ham]
  · have hext : q.externalId = p.externalId := by rw [hqq]
    have hpid : q.providerId = p.providerId := by rw [hqq]
    rw [raceInput, ← hgiven, ← hext, (checkRefundable_ok hc).2.1, ProviderRegistry.get_id hprov,
      hpid]
    rfl

/-- What a call ends with: it returns just when it recorded. -/
def RaceEnds (r : Except Err RefundedPayment) (g : RaceStage) : Prop := r.isOk ↔ g = .recorded

theorem raceEnds_error {e : Err} {g : RaceStage} (hg : g ≠ .recorded) : RaceEnds (.error e) g :=
  ⟨fun h => (by cases h), fun h => absurd h hg⟩

/-- **Each call keeps the invariant**, if the calls have one next status. -/
theorem race_refund (hnext : IsNext registry calls p next) (t : Bool) :
    (raceProto registry calls results w p next).WP t RaceEnds (refundPool registry calls p.id t)
      .idle := by
  have hidle : ∀ e, RaceEnds (.error e) .idle := fun e => raceEnds_error (by decide)
  have hasked : ∀ e, RaceEnds (.error e) .asked := fun e => raceEnds_error (by decide)
  refine Proto.WP.perform_bind fun G s tr d r s' hG hi _ hx => ?_
  obtain ⟨rfl, hcases⟩ := exec_findPayment hx
  rcases hcases with ⟨e, rfl⟩ | ⟨rfl, -⟩ | ⟨q, rfl, hq, hw⟩
  · exact ⟨trivial, Proto.keep hG (RaceInv.quiet hi rfl rfl rfl) (hidle _)⟩
  · exact ⟨trivial, Proto.keep hG (RaceInv.quiet hi rfl rfl rfl) (hidle _)⟩
  refine ⟨trivial, Proto.keep hG (RaceInv.quiet hi rfl rfl rfl) ?_⟩
  obtain ⟨hid, horg⟩ := PaymentWhere.holds_id_org.mp hw
  refine Proto.WP.ofExcept_bind (fun externalId hc => ?_) fun _ _ => hidle _
  refine Proto.WP.ofExcept_bind (fun provider hprov => ?_) fun _ _ => hidle _
  refine Proto.WP.ofExcept_bind (fun amount hamount => ?_) fun _ _ => hidle _
  obtain ⟨hgo, hgiven, ham, hstatus, hinput⟩ := RaceInv.found hi hnext hq hid horg hc hprov hamount
  refine Proto.WP.perform_bind fun G s₁ tr d r s₂ hG hi ha hx => ?_
  obtain ⟨rfl, rfl⟩ := Prod.mk.inj hx
  have hans : d.refund = .answered (results t) := ha
  have hasks : submittedAt ⟨Op.refundCharge provider.id ⟨externalId, amount, (calls t).body.reason⟩,
      d, d.refund.answer⟩ = some (raceInput p (calls t)) := congrArg some hinput
  refine ⟨trivial, .asked, RaceInv.ask hi hG hgo hasks, ?_⟩
  simp only [hans, Remote.answer]
  refine Proto.WP.ofExcept_bind (fun _ _ => ?_) fun _ _ => hasked _
  refine Proto.WP.perform_bind fun G s₃ tr d r s₄ hG hi _ hx => ?_
  rcases exec_recordRefund hx with ⟨e, rfl, rfl⟩ | ⟨b, rfl, hr, hwr⟩
  · exact ⟨trivial, Proto.keep hG (RaceInv.quiet hi rfl rfl rfl) (hasked _)⟩
  rw [hgiven] at hr
  rw [hstatus] at hwr
  refine ⟨trivial, .recorded, RaceInv.record hi hG hid ham hr hwr rfl, ?_⟩
  refine Proto.WP.perform_bind fun G s₅ tr d r s₆ hG hi _ hx => ?_
  obtain ⟨rfl, hs⟩ := exec_auditLog hx
  refine ⟨trivial, Proto.keep hG (RaceInv.quiet hi (by rw [hs]) (by rw [hs]) rfl) ?_⟩
  exact ⟨fun _ => rfl, fun _ => rfl⟩

theorem race_start (hnext : IsNext registry calls p next) (hp : p ∈ w.payments) :
    (raceProto registry calls results w p next).Ok (fun _ => RaceEnds)
      (raceStart registry calls p.id w) := by
  have hnone : ¬ ∃ t : Bool, (fun _ => RaceStage.idle) t = RaceStage.recorded := by simp
  refine ⟨fun _ => .idle, ⟨⟨p, hp, p.updatedAt, ?_⟩, ?_, ?_, fun t ht => absurd rfl ht⟩,
    fun t => race_refund hnext t⟩
  · rw [if_neg hnone]
  · show w.refundData p.id = _
    simp [observedOf]
  · funext t
    simp [observedOf, submittedBy, raceStart, Conf.start]

/-- What is observed when the calls have ended is what the stages say. -/
theorem race_observed (hnext : IsNext registry calls p next) (hp : p ∈ w.payments)
    {c : Conf machine Bool RefundedPayment}
    (hr : Conf.Reach (AcceptingWith results) (raceStart registry calls p.id w) c)
    (hf : Finished c) :
    ∃ G, (∀ t, G t ≠ .idle → Goes registry p (calls t)) ∧
      observe p.id c = observedOf calls results w p next G := by
  obtain ⟨G, hi, hends⟩ := Proto.Ok.ended (Proto.sound (race_start hnext hp) hr)
  refine ⟨G, hi.goes, ?_⟩
  obtain ⟨q, hq, u, hrow⟩ := hi.row
  have hstatus : c.st.statusOf p.id = (observedOf calls results w p next G).status := by
    have hfind : c.st.payments.find p.id = some q := Table.find_eq_some.mpr ⟨hq, by rw [hrow]⟩
    rw [World.statusOf, hfind, hrow]
    rfl
  have hthrew : (fun t => threw (c.thr t)) = (observedOf calls results w p next G).threw := by
    funext t
    obtain ⟨r, hthr⟩ := hf t
    have hend : r.isOk ↔ G t = .recorded := hends t r hthr
    rw [hthr, threw_ofExcept]
    by_cases hG : G t = .recorded
    · simp [observedOf, hG, hend.mpr hG]
    · have hr : r.isOk = false := Bool.eq_false_iff.mpr fun h => hG (hend.mp h)
      simp [observedOf, hG, hr]
  rw [observe, hi.rows, hi.submitted, hstatus, hthrew]

/-! ## One call after the other -/

section Run

variable {call : RefundCall} {result : RefundResult} {q : Payment} {ω : Op → Decision}

/-- The run of a call that gets to the provider, and what comes after its answer. -/
theorem refund_run_accepted (hq : q ∈ s.payments) (horg : q.organizationId = call.ctx.organizationId)
    {externalId : String} (hc : checkRefundable q = .ok externalId) {provider : PaymentProvider}
    (hprov : registry.get q.providerId = .ok provider) {amount : Option Int}
    (hamount : refundAmount call.body = .ok amount) (hfind : ∀ o, (ω o).fail = none ∨ o.writesPayments)
    (hans : ∀ o, (ω o).refund = .answered result) :
    ∃ tr, (refund registry q.id call.body call.ctx).run ω s =
      ((refundAccepted q call.body call.ctx amount result).run ω s).after tr ∧
        tr.filterMap submittedAt = [(provider.id, ⟨externalId, amount, call.body.reason⟩)] := by
  have hx : exec (.findPayment { id := some q.id, organizationId := some call.ctx.organizationId })
      (ω (.findPayment { id := some q.id, organizationId := some call.ctx.organizationId })) s =
        (.ok (some q), s) := by
    refine exec_findPayment_of_mem ?_ hq (PaymentWhere.holds_id_org.mpr ⟨rfl, horg⟩)
      fun a ha hw => Table.eq_of_key ha hq (PaymentWhere.holds_id_org.mp hw).1
    rcases hfind (.findPayment { id := some q.id, organizationId := some call.ctx.organizationId })
      with h | h
    · exact h
    · cases h
  have hfound : refundFound registry q call.body call.ctx =
      (request (.refundCharge provider.id ⟨externalId, amount, call.body.reason⟩)).bind
        (refundAccepted q call.body call.ctx amount) := by
    rw [refundFound, hc, hprov, hamount]
    rfl
  have hx' : exec (.refundCharge provider.id ⟨externalId, amount, call.body.reason⟩)
      (ω (.refundCharge provider.id ⟨externalId, amount, call.body.reason⟩)) s = (.ok result, s) := by
    show ((ω _).refund.answer, s) = _
    rw [hans]
    rfl
  obtain ⟨f, hrefund, hsome⟩ : ∃ f : Option Payment → Service RefundedPayment,
      refund registry q.id call.body call.ctx =
        (request (.findPayment { id := some q.id
                                 organizationId := some call.ctx.organizationId })).bind f ∧
      f (some q) = refundFound registry q call.body call.ctx := ⟨_, rfl, rfl⟩
  rw [hrefund, Prog.run_perform_ok (M := machine) hx, hsome, hfound,
    Prog.run_perform_ok (M := machine) hx', Conc.Outcome.after_after]
  exact ⟨_, rfl, rfl⟩

variable (registry call result) in
/-- The call alone gets to the stage, with `result` as the answer of the provider. -/
def GetsTo (id : String) (s : World) (K : RaceStage) : Prop :=
  ∃ ω : Op → Decision, (∀ o, (ω o).refund = .answered result) ∧
    (((refund registry id call.body call.ctx).run ω s).result.isOk ↔ K = .recorded) ∧
    (((refund registry id call.body call.ctx).run ω s).trace.filterMap submittedAt = [] ↔
      K = .idle)

theorem getsTo_idle (id : String) : GetsTo registry call result id s .idle := by
  let ω : Op → Decision := fun _ => { fail := some (.other ""), refund := .answered result }
  obtain ⟨w, f, hrefund⟩ : ∃ (w : PaymentWhere) (f : Option Payment → Service RefundedPayment),
      refund registry id call.body call.ctx = (request (.findPayment w)).bind f := ⟨_, _, rfl⟩
  have hx : exec (.findPayment w) (ω (.findPayment w)) s = (.error (.other ""), s) :=
    exec_of_fail rfl rfl
  refine ⟨ω, fun _ => rfl, ?_⟩
  rw [hrefund, Prog.run_perform_error (M := machine) hx]
  exact ⟨⟨fun h => (by cases h), fun h => (by cases h)⟩, fun _ => rfl, fun _ => rfl⟩

theorem getsTo_asked (hq : q ∈ s.payments) (hg : Goes registry q call) :
    GetsTo registry call result q.id s .asked := by
  obtain ⟨externalId, hc⟩ := hg.check
  obtain ⟨provider, hprov⟩ := hg.provider
  obtain ⟨f, g, heq⟩ := @refundAccepted_eq q call.body call.ctx (givenAmount call) result
    (checkRefundable_ok hc).1
  let ω : Op → Decision := fun o => {
    fail := if o.writesPayments then some (.other "") else none
    refund := .answered result }
  have hx : exec (.recordRefund q (refundStatus q (givenAmount call)) call.body
      (givenAmount call) result) (ω (.recordRefund q (refundStatus q (givenAmount call)) call.body
      (givenAmount call) result)) s = (.error (.other ""), s) :=
    exec_of_fail rfl rfl
  have hfail : ∀ o, (ω o).fail = none ∨ o.writesPayments := by
    intro o
    by_cases ho : o.writesPayments
    · exact .inr ho
    · exact .inl (if_neg ho)
  obtain ⟨tr, hrun, hsub⟩ := refund_run_accepted (ω := ω) hq hg.org.symm hc hprov hg.amount hfail
    fun _ => rfl
  refine ⟨ω, fun _ => rfl, ?_⟩
  rw [hrun, heq, Prog.run_perform_error (M := machine) hx]
  refine ⟨⟨fun h => (by cases h), fun h => (by cases h)⟩, fun h => ?_, fun h => (by cases h)⟩
  rw [Conc.Outcome.after_trace, List.filterMap_append, hsub] at h
  cases h

theorem getsTo_recorded (hq : q ∈ s.payments) (hg : Goes registry q call) :
    GetsTo registry call result q.id s .recorded := by
  obtain ⟨externalId, hc⟩ := hg.check
  obtain ⟨provider, hprov⟩ := hg.provider
  obtain ⟨f, g, heq⟩ := @refundAccepted_eq q call.body call.ctx (givenAmount call) result
    (checkRefundable_ok hc).1
  obtain ⟨ide, hide⟩ := Store.exists_fresh PaymentEvent.id s.events.rows
  obtain ⟨idr, hidr⟩ := Store.exists_fresh Refund.id s.refunds.rows
  let ω : Op → Decision := fun _ => {
    newId := fun model => if model = .refund then idr else ide
    refund := .answered result }
  obtain ⟨a, s', hx⟩ : ∃ a s', exec (.recordRefund q (refundStatus q (givenAmount call)) call.body
      (givenAmount call) result) (ω (.recordRefund q (refundStatus q (givenAmount call)) call.body
      (givenAmount call) result)) s = (.ok a, s') :=
    exec_recordRefund_of_fresh rfl ⟨q, hq, rfl⟩ hide hidr
  obtain ⟨tr, hrun, hsub⟩ := refund_run_accepted (ω := ω) hq hg.org.symm hc hprov hg.amount
    (fun _ => .inl rfl) fun _ => rfl
  have hx' : exec (.auditLog (f a)) (ω (.auditLog (f a))) s' = (.ok (), _) := rfl
  refine ⟨ω, fun _ => rfl, ?_⟩
  rw [hrun, heq, Prog.run_perform_ok (M := machine) hx, Prog.run_perform_ok (M := machine) hx']
  refine ⟨⟨fun _ => rfl, fun _ => rfl⟩, fun h => ?_, fun h => by cases h⟩
  rw [Conc.Outcome.after_trace, List.filterMap_append, hsub] at h
  cases h

theorem refund_gets_to (K : RaceStage) (result : RefundResult) {id : String}
    (hgo : K ≠ .idle → ∃ q ∈ s.payments, q.id = id ∧ Goes registry q call) :
    GetsTo registry call result id s K := by
  cases K with
  | idle => exact getsTo_idle id
  | asked =>
    obtain ⟨q, hq, rfl, hg⟩ := hgo (by decide)
    exact getsTo_asked hq hg
  | recorded =>
    obtain ⟨q, hq, rfl, hg⟩ := hgo (by decide)
    exact getsTo_recorded hq hg

end Run

theorem submittedBy_append_map (tr : List (Bool × Event machine)) (t u : Bool)
    (l : List (Event machine)) :
    submittedBy (tr ++ l.map fun e => (t, e)) u =
      submittedBy tr u ++ if t = u then l.filterMap submittedAt else [] := by
  induction l generalizing tr with
  | nil => simp
  | cons e l ih =>
    have hcons : tr ++ (e :: l).map (fun e => (t, e)) = (tr ++ [(t, e)]) ++ l.map fun e => (t, e) := by
      simp
    rw [hcons, ih, submittedBy_append]
    by_cases h : t = u
    · cases hs : submittedAt e <;> simp [h, hs]
    · simp [h]

theorem reach_finish_with {c : Conf machine Bool RefundedPayment} {ω : Op → Decision}
    (hω : AcceptsWith results t ω) : Conf.Reach (AcceptingWith results) c (c.finish t ω) := by
  refine Conf.reach_finish c t ω (Prog.Allowed.of_forall (fun o s => ?_) _ _)
  cases o with
  | refundCharge providerId input => exact hω providerId input
  | _ => trivial

theorem stage_of_observed {c : Conf machine Bool RefundedPayment} {G' : Bool → RaceStage}
    (h : observe p.id c = observedOf calls results w p next G') {u : Bool} {r : Except Err RefundedPayment}
    (hthr : c.thr u = .ofExcept r) (hok : r.isOk ↔ G u = .recorded)
    (hsub : submittedBy c.trace u = [] ↔ G u = .idle) : G' u = G u := by
  have hsub' : submittedBy c.trace u = if G' u = .idle then [] else [raceInput p (calls u)] :=
    congrFun (congrArg Observed.submitted h) u
  have hthrew : threw (c.thr u) = decide (G' u ≠ .recorded) := congrFun (congrArg Observed.threw h) u
  have hidle : G' u = .idle ↔ G u = .idle := by
    rw [← hsub, hsub']
    by_cases hi : G' u = .idle <;> simp [hi]
  have hrec : G' u = .recorded ↔ G u = .recorded := by
    rw [← hok]
    rw [hthr, threw_ofExcept] at hthrew
    by_cases hi : G' u = .recorded <;> simp [hi] at hthrew ⊢ <;> exact hthrew
  cases hG : G u with
  | idle => exact hidle.mpr hG
  | recorded => exact hrec.mpr hG
  | asked =>
    cases hG' : G' u with
    | idle =>
      have := hidle.mp hG'
      rw [hG] at this
      cases this
    | recorded =>
      have := hrec.mp hG'
      rw [hG] at this
      cases this
    | asked => rfl

/-- A call that goes at the start goes also after the other one, as long as it did not submit. -/
theorem RaceInv.goes_unsubmitted (h : RaceInv registry calls results w p next G s tr)
    (hnext : IsNext registry calls p next) (hg : Goes registry p (calls t))
    (hsub : submittedBy tr t = []) : ∃ q ∈ s.payments, q.id = p.id ∧ Goes registry q (calls t) := by
  obtain ⟨q, hq, u, hrow⟩ := h.row
  have hidle : G t = .idle := by
    by_contra hne
    have hsubmitted := congrFun h.submitted t
    rw [hsub] at hsubmitted
    simp [observedOf, hne] at hsubmitted
  have hcheck : ∃ externalId, checkRefundable q = .ok externalId := by
    obtain ⟨externalId, hc⟩ := hg.check
    refine ⟨externalId, ?_⟩
    by_cases hrec : ∃ u, G u = .recorded
    · -- the other call recorded its refund, which is for a part of the payment
      have hboth : ∀ u, Goes registry p (calls u) := by
        obtain ⟨v, hv⟩ := hrec
        have hvt : v ≠ t := fun e => by
          rw [e, hidle] at hv
          cases hv
        intro u
        by_cases hut : u = t
        · rw [hut]
          exact hg
        · have huv : u = v := by cases u <;> cases v <;> cases t <;> simp at hvt hut ⊢
          rw [huv]
          exact h.goes v (by rw [hv]; decide)
      obtain ⟨-, hext, hnil⟩ := checkRefundable_ok hc
      rw [if_pos hrec, hnext.both hboth] at hrow
      simp [checkRefundable, hrow, hext, hnil]
    · rw [if_neg hrec] at hrow
      rw [← hc, hrow]
      rfl
  refine ⟨q, hq, by rw [hrow], ?_, hcheck, ?_, hg.amount⟩
  · rw [hrow]
    exact hg.org
  · rw [hrow]
    exact hg.provider

variable (results) in
/-- **One call after the other gets to any stages** that the calls can get to. -/
theorem serial_stages (hnext : IsNext registry calls p next) (hp : p ∈ w.payments)
    (hgo : ∀ t, G t ≠ .idle → Goes registry p (calls t)) :
    ∃ ω₁ ω₂, AcceptsWith results false ω₁ ∧ AcceptsWith results true ω₂ ∧
      observe p.id (((raceStart registry calls p.id w).finish false ω₁).finish true ω₂) =
        observedOf calls results w p next G := by
  let c := raceStart registry calls p.id w
  obtain ⟨ω₁, hω₁, hok₁, hsub₁⟩ := refund_gets_to (s := w) (G false) (results false)
    fun h => ⟨p, hp, rfl, hgo false h⟩
  have ha₁ : AcceptsWith results false ω₁ := fun _ _ => hω₁ _
  have hr₁ : Conf.Reach (AcceptingWith results) c (c.finish false ω₁) := reach_finish_with ha₁
  obtain ⟨G₁, hi₁, -⟩ := Proto.sound (race_start hnext hp) hr₁
  have htrace₁ : ∀ u, submittedBy (c.finish false ω₁).trace u =
      if false = u then ((refundPool registry calls p.id false).run ω₁ w).trace.filterMap submittedAt
      else [] := fun u => submittedBy_append_map [] false u _
  -- the second call finds the payment as it was, or with the status that the first one wrote
  obtain ⟨ω₂, hω₂, hok₂, hsub₂⟩ := refund_gets_to (s := (c.finish false ω₁).st) (G true)
    (results true) fun h => hi₁.goes_unsubmitted hnext (hgo true h) (htrace₁ true)
  have ha₂ : AcceptsWith results true ω₂ := fun _ _ => hω₂ _
  refine ⟨ω₁, ω₂, ha₁, ha₂, ?_⟩
  obtain ⟨hfalse, htrue, -⟩ := c.finish_finish ω₁ ω₂ (t := false) (u := true) (by decide)
  have hthr : ∀ u, ((c.finish false ω₁).finish true ω₂).thr u = .ofExcept (match u with
      | false => ((refundPool registry calls p.id false).run ω₁ w).result
      | true => ((refundPool registry calls p.id true).run ω₂ (c.finish false ω₁).st).result) := by
    intro u
    cases u with
    | false => exact hfalse
    | true => exact htrue
  have htrace : ∀ u, submittedBy ((c.finish false ω₁).finish true ω₂).trace u = match u with
      | false => ((refundPool registry calls p.id false).run ω₁ w).trace.filterMap submittedAt
      | true => ((refundPool registry calls p.id true).run ω₂
          (c.finish false ω₁).st).trace.filterMap submittedAt := by
    intro u
    have hprog : (c.finish false ω₁).thr true = refundPool registry calls p.id true :=
      Conf.finish_of_ne _ _ (by decide)
    rw [Conf.finish, hprog, submittedBy_append_map, htrace₁]
    cases u with
    | false => simp
    | true => simp
  obtain ⟨G₂, -, hobs⟩ := race_observed hnext hp (hr₁.trans (reach_finish_with ha₂))
    fun u => ⟨_, hthr u⟩
  have hG : G₂ = G := by
    funext u
    refine stage_of_observed hobs (hthr u) ?_ ?_
    · cases u with
      | false => exact hok₁
      | true => exact hok₂
    · rw [htrace]
      cases u with
      | false => exact hsub₁
      | true => exact hsub₂
  rw [hobs, hG]

/-! ## When the calls are serializable -/

variable (results) in
theorem acceptingWith_of_answered (t : Bool) (o : Op) (d : Decision) (s : World)
    (h : d.refund = .answered (results t)) : AcceptingWith results t o d s := by
  cases o with
  | refundCharge providerId input => exact h
  | _ => trivial

variable (results) in
/-- Both calls read the payment and submit, and then call `a` records, and then the other. -/
theorem reach_both_recorded (hp : p ∈ w.payments) (hgo : ∀ t, Goes registry p (calls t)) (a : Bool) :
    ∃ c, Conf.Reach (AcceptingWith results) (raceStart registry calls p.id w) c ∧
      (∀ t, ∃ r, c.thr t = .ret r) ∧
      c.st.statusOf p.id = some (refundStatus p (givenAmount (calls (!a)))) := by
  have hne : (!a) ≠ a := by cases a <;> decide
  obtain ⟨externalId, hc⟩ := (hgo a).check
  obtain ⟨provider, hprov⟩ := (hgo a).provider
  have hst := (checkRefundable_ok hc).1
  obtain ⟨c₁, hr₁, hs₁, ht₁⟩ := reach_accepted (c := raceStart registry calls p.id w)
    (acceptingWith_of_answered results a) hp (hgo a).org hc hprov (hgo a).amount rfl
  have hthr₁ : c₁.thr (!a) = refund registry p.id (calls (!a)).body (calls (!a)).ctx := by
    rw [ht₁, Function.update_of_ne hne]
    rfl
  obtain ⟨c₂, hr₂, hs₂, ht₂⟩ := reach_accepted
    (acceptingWith_of_answered results (!a)) (by rw [hs₁]; exact hp) (hgo (!a)).org hc
    hprov (hgo (!a)).amount hthr₁
  have hthr₂ : c₂.thr a = refundAccepted p (calls a).body (calls a).ctx (givenAmount (calls a))
      (results a) := by
    rw [ht₂, Function.update_of_ne hne.symm, ht₁, Function.update_self]
  obtain ⟨c₃, d₃, a₃, hr₃, ht₃, -, q₃, hq₃, hid₃, -⟩ := reach_committed
    (acceptingWith_of_answered results a) (by rw [hs₂, hs₁]; exact ⟨p, hp, rfl⟩) hst hthr₂
  have hthr₃ : c₃.thr (!a) = refundAccepted p (calls (!a)).body (calls (!a)).ctx
      (givenAmount (calls (!a))) (results (!a)) := by
    rw [ht₃, Function.update_of_ne hne, ht₂, Function.update_self]
  obtain ⟨c₄, d₄, a₄, hr₄, ht₄, -, q₄, hq₄, hid₄, hst₄⟩ := reach_committed
    (acceptingWith_of_answered results (!a)) ⟨q₃, hq₃, hid₃⟩ hst hthr₃
  refine ⟨c₄, ((hr₁.trans hr₂).trans hr₃).trans hr₄, fun t => ?_, ?_⟩
  · by_cases ht : t = !a
    · exact ⟨a₄, by rw [ht, ht₄, Function.update_self]⟩
    · have hta : t = a := by
        cases t <;> cases a <;> simp at ht ⊢
      exact ⟨a₃, by rw [hta, ht₄, Function.update_of_ne hne.symm, ht₃, Function.update_self]⟩
  · have hfind : c₄.st.payments.find p.id = some q₄ := Table.find_eq_some.mpr ⟨hq₄, hid₄⟩
    rw [World.statusOf, hfind, ← hst₄]
    rfl

theorem refund_returns {id : String} {call : RefundCall} {ω : Op → Decision} {x : RefundedPayment}
    (h : ((refund registry id call.body call.ctx).run ω s).result = .ok x) :
    ∃ q r, RefundWritten id call.body call.ctx q (givenAmount call) r s
      ((refund registry id call.body call.ctx).run ω s).state := by
  have hrun := refund_run registry id call.body call.ctx ω s
  rw [h] at hrun
  cases hrun with
  | written _ q amount r hw =>
    have hamount : amount = givenAmount call := by rw [givenAmount, hw.amount_ok]
    exact ⟨q, r, hamount ▸ hw⟩

/-- Two calls that return, one after the other: each wrote its refund. -/
theorem finish_returns {first : Bool} {ω₁ ω₂ : Op → Decision} {id : String}
    {c : Conf machine Bool RefundedPayment}
    (hc : c = ((raceStart registry calls id w).finish first ω₁).finish (!first) ω₂)
    (hret : ∀ t r, c.thr t = .ofExcept r → ∃ x, r = .ok x) : ∃ q₁ r₁ s₁ q₂ r₂,
    RefundWritten id (calls first).body (calls first).ctx q₁ (givenAmount (calls first)) r₁ w s₁ ∧
    RefundWritten id (calls (!first)).body (calls (!first)).ctx q₂ (givenAmount (calls (!first))) r₂
      s₁ c.st := by
  have hne : (!first) ≠ first := by cases first <;> decide
  obtain ⟨hfirst, hsecond, hst⟩ := (raceStart registry calls id w).finish_finish ω₁ ω₂ hne
  rw [← hc] at hfirst hsecond hst
  obtain ⟨x₁, hx₁⟩ := hret first _ hfirst
  obtain ⟨x₂, hx₂⟩ := hret (!first) _ hsecond
  obtain ⟨q₁, r₁, hw₁⟩ := refund_returns hx₁
  obtain ⟨q₂, r₂, hw₂⟩ := refund_returns hx₂
  refine ⟨q₁, r₁, _, q₂, r₂, hw₁, ?_⟩
  rw [hst]
  exact hw₂

/-- **Serializable calls that both go are for a part of the payment.** After a call for all of it,
the other one would be rejected. -/
theorem partial_of_serializable (hp : p ∈ w.payments) (hgo : ∀ t, Goes registry p (calls t))
    (h : ∀ c, Conf.Reach (AcceptingWith results) (raceStart registry calls p.id w) c → Finished c →
      Serializable registry calls results p.id w c) (a : Bool) :
    refundStatus p (givenAmount (calls a)) = .partiallyRefunded := by
  obtain ⟨c, hr, hret, hstatus⟩ := reach_both_recorded results hp hgo a
  have hfin : Finished c := fun t => (hret t).imp' .ok fun r hr => hr
  obtain ⟨first, ω₁, ω₂, -, -, hobs⟩ := h c hr hfin
  generalize hc' : ((raceStart registry calls p.id w).finish first ω₁).finish (!first) ω₂ = c' at hobs
  -- both calls return in this order too
  have hreturn : ∀ t r, c'.thr t = .ofExcept r → ∃ x, r = .ok x := by
    intro t r hthr
    have hthrew : threw (c.thr t) = threw (c'.thr t) := congrFun (congrArg Observed.threw hobs) t
    obtain ⟨x, hx⟩ := hret t
    rw [hthr, hx, threw_ofExcept] at hthrew
    cases r with
    | ok y => exact ⟨y, rfl⟩
    | error e => cases hthrew
  obtain ⟨q₁, r₁, s₁, q₂, r₂, hw₁, hw₂⟩ := finish_returns hc'.symm hreturn
  have hq₁ : q₁ = p := Table.eq_of_key hw₁.status.mem hp hw₁.id
  rw [hq₁] at hw₁
  obtain ⟨d₁, hrow₁, -⟩ := hw₁.status.row
  have hq₂ : q₂ = setStatus d₁ (refundStatus p (givenAmount (calls first))) p :=
    Table.eq_of_key hw₂.status.mem hrow₁ hw₂.id
  -- the second call found the payment refundable, so the first one was for a part
  have hfirst : refundStatus p (givenAmount (calls first)) = .partiallyRefunded := by
    obtain ⟨externalId, hc⟩ := hw₂.refundable
    have hst := (checkRefundable_ok hc).1
    rw [hq₂] at hst
    rcases refundStatus_cases p (givenAmount (calls first)) with h | h
    · exact h
    · rw [h] at hst
      rcases hst with hst | hst <;> cases hst
  obtain ⟨d₂, hrow₂, -⟩ := hw₂.status.row
  have hsecond : refundStatus p (givenAmount (calls (!a))) =
      refundStatus p (givenAmount (calls (!first))) := by
    have hsame : c.st.statusOf p.id = c'.st.statusOf p.id := congrArg Observed.status hobs
    have hfind : c'.st.payments.find p.id =
        some (setStatus d₂ (refundStatus q₂ (givenAmount (calls (!first)))) q₂) :=
      Table.find_eq_some.mpr ⟨hrow₂, hw₂.id⟩
    rw [hstatus, World.statusOf, hfind] at hsame
    have hst := Option.some.inj hsame
    rw [hst, hq₂]
    rfl
  by_cases hfa : first = a
  · rw [← hfa]
    exact hfirst
  · have hother : (!first) = a := by cases first <;> cases a <;> simp at hfa ⊢
    have hfirst' : first = !a := by rw [← hother, Bool.not_not]
    rw [hother, ← hfirst', hfirst] at hsecond
    exact hsecond.symm

end Race

/-- **When two refunds of one payment are serializable**: every interleaving of the calls, with the
provider accepting what they submit, ends with what one of the two orders gives, if and only if both
calls are for a part of the payment, whenever both go. -/
theorem refunds_serializable_iff (registry : ProviderRegistry) (calls : Bool → RefundCall)
    (results : Bool → RefundResult) (w : World) (p : Payment) (hp : p ∈ w.payments) :
    (∀ c, Conf.Reach (AcceptingWith results) (raceStart registry calls p.id w) c → Finished c →
      Serializable registry calls results p.id w c) ↔
    ((∀ t, Goes registry p (calls t)) →
      ∀ t, refundStatus p (givenAmount (calls t)) = .partiallyRefunded) := by
  constructor
  · exact fun h hgo => partial_of_serializable hp hgo h
  · intro hpart c hr hf
    obtain ⟨next, hnext⟩ : ∃ next, IsNext registry calls p next := by
      by_cases hgo : ∀ t, Goes registry p (calls t)
      · exact ⟨.partiallyRefunded, fun t _ => hpart hgo t, fun _ => rfl⟩
      · obtain ⟨t₀, ht₀⟩ := not_forall.mp hgo
        refine ⟨refundStatus p (givenAmount (calls (!t₀))), fun t ht => ?_, fun h => absurd h hgo⟩
        have htt : t = !t₀ := by
          by_contra hne
          have heq : t = t₀ := by cases t <;> cases t₀ <;> simp at hne ⊢
          exact ht₀ (heq ▸ ht)
        rw [htt]
    obtain ⟨G, hgo, hobs⟩ := race_observed hnext hp hr hf
    obtain ⟨ω₁, ω₂, ha₁, ha₂, hserial⟩ := serial_stages results hnext hp hgo
    exact ⟨false, ω₁, ω₂, ha₁, ha₂, by rw [hobs, ← hserial]; rfl⟩

/-! ### Two refunds of a payment of 100 -/

/-- Refunds of 60 and of 40. -/
def twoParts (t : Bool) : RefundCall := asking (fun t : Bool => if t then 60 else 40) t

/-- A refund of 100 and one of 40. -/
def wholeAndPart (t : Bool) : RefundCall := asking (fun t : Bool => if t then 100 else 40) t

theorem refunds_serializable_sample :
    (∀ t, refundStatus capturedPayment (givenAmount (twoParts t)) = .partiallyRefunded) ∧
      ∀ c, Conf.Reach (AcceptingWith fun _ => acceptedRefund)
        (raceStart fakeRegistry twoParts "pay" (World.withPayment capturedPayment)) c →
        Finished c → Serializable fakeRegistry twoParts (fun _ => acceptedRefund) "pay"
          (World.withPayment capturedPayment) c := by
  have hpart : ∀ t, refundStatus capturedPayment (givenAmount (twoParts t)) = .partiallyRefunded := by
    decide
  exact ⟨hpart, (refunds_serializable_iff fakeRegistry twoParts (fun _ => acceptedRefund)
    (World.withPayment capturedPayment) capturedPayment (List.mem_singleton.mpr rfl)).mpr
      fun _ => hpart⟩

/-- A refund of all of the payment and one of a part, which both read it before either recorded: the
provider refunds 140, and the payment ends PARTIALLY_REFUNDED. -/
theorem whole_and_part_not_serializable : ¬ ∀ (registry : ProviderRegistry)
    (calls : Bool → RefundCall) (results : Bool → RefundResult) (w : World) (p : Payment),
    p ∈ w.payments →
    ∀ c, Conf.Reach (AcceptingWith results) (raceStart registry calls p.id w) c → Finished c →
      Serializable registry calls results p.id w c := by
  intro h
  have hgo : ∀ t, Goes fakeRegistry capturedPayment (wholeAndPart t) := fun t =>
    ⟨rfl, ⟨"fake_key", rfl⟩, ⟨_, rfl⟩, by cases t <;> rfl⟩
  have hpart := partial_of_serializable (List.mem_singleton.mpr rfl) hgo
    (h fakeRegistry wholeAndPart (fun _ => acceptedRefund) (World.withPayment capturedPayment)
      capturedPayment (List.mem_singleton.mpr rfl)) true
  revert hpart
  decide

end Pasarela
