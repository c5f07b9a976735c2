import Pasarela.Conc.Projection
import Pasarela.Durability
import Pasarela.Isolation

/-!
# Tenant isolation over a whole run

Calls of `PaymentsService` of any organizations run side by side. What the calls of an organization
`org` answer, and what they leave in its rows, is what they answer and leave when no other call is
made: the run has a run of the calls of `org` alone.

* `NewToOthers`: the assumption on the generated ids, `NewIds` for the organization of the call.
* `apart`: the relation between the two runs: the same rows of `org`, and the payments that a call
  has seen are of its organization. Another organization's request keeps it, since it leaves the
  rows of `org` as they are (`SameRows.left`), and a request of `org` keeps it by the lemmas of one
  request in two states (`Isolation`).
* `run_isolation`: the run alone may start from another database, if the rows of `org` are the same.
-/

namespace Pasarela

open Conc (Conf Coupling Prog Projection Rebased)
open PaymentsService
open Store (Table)

/-! ## The rows of an organization -/

section Rows

variable {s s' s₁ s₂ w : World} {org id : String}

theorem SameRows.symm (h : SameRows org s₁ s₂) : SameRows org s₂ s₁ where
  payments p hp := (h.payments p hp).symm
  customers c hc := (h.customers c hc).symm
  events e he := (h.events e (h.owns_iff.mpr he)).symm
  refunds r hr := (h.refunds r (h.owns_iff.mpr hr)).symm

/-- What the rows of `org` are the same as, when the rows on the left are left as they are. -/
theorem SameRows.left (h : SameRows org s₁ s₂) (hs : SameRows org s₁ s') : SameRows org s' s₂ :=
  hs.symm.trans h

theorem Untouched.trans (h : Untouched org w s) (h' : Untouched org s s') : Untouched org w s' where
  rows other hne := (h.rows other hne).trans (h'.rows other hne)
  logs l hl := (h.logs l hl).trans (h'.logs l hl)

theorem World.Owns.durable (h : s.Owns org id) (hd : s.Durable s') : s'.Owns org id := by
  obtain ⟨p, hp, ho, hid⟩ := h
  obtain ⟨p', hp', hcore⟩ := hd.later hp
  exact ⟨p', hp', (Payment.core_org hcore).trans ho, (Payment.core_id hcore).trans hid⟩

end Rows

/-! ## A call, request by request -/

section Calls

variable {registry : ProviderRegistry} {ctx : OrgContext} {ids : List String}

theorem charge_rebased {provider : PaymentProvider} {dto : CreatePaymentDto} {key : String}
    {payment : Payment} (hid : payment.id ∈ ids) :
    Rebased (twins ctx.organizationId) (fun _ g => g = ids)
      (charge provider dto key ctx payment) ids := by
  refine Rebased.seq (.perform fun _ _ => createCharge_request) (fun result g hg => ?_)
    fun _ _ hg => hg
  subst hg
  refine Rebased.seq (.perform fun _ _ => recordCharge_request hid) (fun updated g hg => ?_)
    fun _ _ hg => hg
  subst hg
  refine Rebased.seq (.perform fun _ _ => decrementPending_request) (fun _ g hg => ?_)
    fun _ _ hg => hg
  subst hg
  exact Rebased.seq (.perform fun _ _ => auditLog_request rfl rfl) (fun _ _ hg => hg)
    fun _ _ hg => hg

theorem chargeFailed_rebased {dto : CreatePaymentDto} {payment : Payment} {err : Err}
    (hid : payment.id ∈ ids) :
    Rebased (twins ctx.organizationId) (fun _ _ => True) (chargeFailed dto payment err) ids := by
  refine Rebased.seq (.perform fun _ _ => decrementPending_request) (fun _ g hg => ?_)
    fun _ _ _ => trivial
  subst hg
  exact Rebased.seq (.perform fun _ _ => failPayment_request hid) (fun _ _ _ => trivial)
    fun _ _ _ => trivial

theorem create_rebased {dto : CreatePaymentDto} {idempotencyKey : Option String} :
    Rebased (twins ctx.organizationId) (fun _ _ => True) (create registry dto idempotencyKey ctx)
      ids := by
  refine Rebased.ofExcept_bind (fun key _ => ?_) fun _ _ => trivial
  refine Rebased.seq (.perform fun _ _ => findPayment_request (PaymentWhere.finds_key key))
    (fun existing g _ => ?_) fun _ _ _ => trivial
  cases existing with
  | some payment => trivial
  | none =>
    refine Rebased.ofExcept_bind (fun provider _ => ?_) fun _ _ => trivial
    refine Rebased.seq (.perform fun _ _ => incrementPending_request) (fun _ g hg => ?_)
      fun _ _ _ => trivial
    refine Rebased.ofExcept_bind (fun method _ => ?_) fun _ _ => trivial
    refine Rebased.seq (.perform fun _ _ => insertPayment_request) (fun payment g hid => ?_)
      fun _ _ _ => trivial
    refine Rebased.handle (charge_rebased hid) (fun _ _ _ => trivial) fun e g' hg => ?_
    subst hg
    exact chargeFailed_rebased hid

theorem findAll_rebased {query : ListPaymentsDto} :
    Rebased (twins ctx.organizationId) (fun _ _ => True) (findAll ctx query) ids :=
  Rebased.seq (.perform fun _ _ => pagePayments_request fun _ hp => PaymentWhere.holds_org hp)
    (fun _ _ _ => trivial) fun _ _ _ => trivial

theorem findOne_rebased {id : String} :
    Rebased (twins ctx.organizationId) (fun _ _ => True) (findOne id ctx) ids := by
  refine Rebased.seq (.perform fun _ _ => findPaymentWithEvents_request (PaymentWhere.finds_id id))
    (fun payment _ _ => ?_) fun _ _ _ => trivial
  cases payment with
  | some found => trivial
  | none => trivial

theorem refund_rebased {id : String} {body : RefundBody} :
    Rebased (twins ctx.organizationId) (fun _ _ => True) (refund registry id body ctx) ids := by
  refine Rebased.seq (.perform fun _ _ => findPayment_request (PaymentWhere.finds_id id))
    (fun payment g hfound => ?_) fun _ _ _ => trivial
  cases payment with
  | none => trivial
  | some payment =>
    obtain ⟨hid, htenant⟩ := hfound payment rfl
    refine Rebased.ofExcept_bind (fun externalId _ => ?_) fun _ _ => trivial
    refine Rebased.ofExcept_bind (fun provider _ => ?_) fun _ _ => trivial
    refine Rebased.ofExcept_bind (fun amount _ => ?_) fun _ _ => trivial
    refine Rebased.seq (.perform fun _ _ => refundCharge_request) (fun result g' hg => ?_)
      fun _ _ _ => trivial
    subst hg
    refine Rebased.ofExcept_bind (fun _ _ => ?_) fun _ _ => trivial
    refine Rebased.seq (.perform fun _ _ => recordRefund_request hid) (fun updated g hg => ?_)
      fun _ _ _ => trivial
    exact Rebased.seq (.perform fun _ _ => auditLog_request htenant rfl) (fun _ _ _ => trivial)
      fun _ _ _ => trivial

theorem call_rebased (call : PaymentsCall) :
    Rebased (twins call.ctx.organizationId) (fun _ _ => True) (call.run registry) ids := by
  cases call with
  | create dto key ctx =>
    exact Rebased.seq create_rebased (fun _ _ _ => trivial) fun _ _ _ => trivial
  | findAll ctx query =>
    exact Rebased.seq findAll_rebased (fun _ _ _ => trivial) fun _ _ _ => trivial
  | findOne id ctx =>
    exact Rebased.seq findOne_rebased (fun _ _ _ => trivial) fun _ _ _ => trivial
  | refund id body ctx =>
    exact Rebased.seq refund_rebased (fun _ _ _ => trivial) fun _ _ _ => trivial

end Calls

/-! ## The run of all calls, and the run of the calls of `org` -/

section Runs

variable {ι : Type} [DecidableEq ι] (calls : ι → PaymentsCall) (org : String) (w : World)

/-- The call is one of `org`. -/
def ofOrg (t : ι) : Prop := (calls t).ctx.organizationId = org

instance : DecidablePred (ofOrg calls org) := fun t =>
  inferInstanceAs (Decidable ((calls t).ctx.organizationId = org))

/-- The ids are new to the other organizations (module doc), in the database at the request, and for
a call of `org` also in `w`, where the run of these alone starts. -/
structure NewToOthers (t : ι) (o : Op) (d : Decision) (s : World) : Prop where
  here : NewIds (calls t).ctx.organizationId d s
  alone : ofOrg calls org t → NewIds org d w
  rank : Function.Injective d.rank

/-- The two runs so far (module doc). -/
structure Apart (G : ι → List String) (s₁ s₂ : World) : Prop where
  left : s₁.WellFormed
  right : s₂.WellFormed
  same : SameRows org s₁ s₂
  others : Untouched org w s₂
  seen : ∀ t, ∀ id ∈ G t, s₁.Owns (calls t).ctx.organizationId id

def apart : Projection machine ι (List String) where
  own := ofOrg calls org
  allow := NewToOthers calls org w
  pair t := twins (calls t).ctx.organizationId
  inv := Apart calls org w

variable {calls org w} {G : ι → List String} {s₁ s₂ s₁' s₂' : World} {t : ι} {o : Op} {d : Decision}
  {ids : List String}

/-- After a request of call `t`, which has now seen the payments `ids`. -/
theorem Apart.seen_update (h : Apart calls org w G s₁ s₂) (hd : s₁.Durable s₁')
    (hids : ∀ id ∈ ids, s₁'.Owns (calls t).ctx.organizationId id) :
    ∀ u, ∀ id ∈ Function.update G t ids u, s₁'.Owns (calls u).ctx.organizationId id := by
  intro u id hid
  by_cases hu : u = t
  · subst hu
    rw [Function.update_self] at hid
    exact hids id hid
  · rw [Function.update_of_ne hu] at hid
    exact (h.seen u id hid).durable hd

omit [DecidableEq ι] in
/-- The two states, for the lemmas of one request. -/
theorem Apart.twins (h : Apart calls org w G s₁ s₂) (ht : ofOrg calls org t) :
    Twins org s₁ s₂ (G t) s₁ s₂ := by
  have hseen : ∀ id ∈ G t, s₁.Owns org id := fun id hid => ht ▸ h.seen t id hid
  exact ⟨⟨h.left, .refl, hseen⟩, ⟨h.right, .refl, fun id hid => h.same.owns_iff.mp (hseen id hid)⟩,
    h.same⟩

theorem apart_sound : (apart calls org w).Sound where
  own {t G s₁ s₂ o d} ht h ha := by
    have hnew : NewIds org d s₂ := (ha.alone ht).later ⟨h.right, h.others, List.forall_mem_nil _⟩
    have hd : s₁.Durable (exec o d s₁).2 := exec_durable (r := (exec o d s₁).1) rfl
    have horg : (calls t).ctx.organizationId = org := ht
    simp only [apart, horg]
    refine ⟨⟨horg ▸ ha.here, hnew, ha.rank⟩, h.twins ht, fun g hg => ?_⟩
    exact ⟨hg.left.wellFormed, hg.right.wellFormed, hg.same, h.others.trans hg.right.others,
      h.seen_update hd (horg ▸ hg.left.own)⟩
  other {t G s₁ s₂ o d} ht h ha := by
    have hd : s₁.Durable (exec o d s₁).2 := exec_durable (r := (exec o d s₁).1) rfl
    have hself : Session (calls t).ctx.organizationId s₁ (G t) s₁ := ⟨h.left, .refl, h.seen t⟩
    refine ⟨⟨ha.here, ha.here, ha.rank⟩, ⟨hself, hself, .refl⟩, fun g hg => ?_⟩
    have hrows : SameRows org s₁ (exec o d s₁).2 := hg.left.others.rows org (Ne.symm ht)
    exact ⟨hg.left.wellFormed, h.right, h.same.left hrows, h.others,
      h.seen_update hd hg.left.own⟩

/-- A run `c` of all the calls and a run `c'` of the calls of `org` alone, which starts in `w`: the
requests of the calls of `org` are the same, with their answers, so these calls are as far and return
the same; and so are the rows of `org`. The rows of the others are those of `w`. -/
structure RunIsolated (calls : ι → PaymentsCall) (org : String) (w : World)
    (c c' : Conf machine ι PaymentsAnswer) : Prop where
  requests : c'.trace = c.trace.filter fun x => ofOrg calls org x.1
  programs : ∀ t, ofOrg calls org t → c'.thr t = c.thr t
  rows : SameRows org c.st c'.st
  others : Untouched org w c'.st

/-- **Tenant isolation of a run**: for the calls of `org`, whatever the other calls do in between is
as if they were not made. -/
theorem run_isolation (registry : ProviderRegistry) (calls : ι → PaymentsCall) (org : String)
    {s₁ s₂ : World} (h₁ : s₁.WellFormed) (h₂ : s₂.WellFormed) (hsame : SameRows org s₁ s₂)
    {c : Conf machine ι PaymentsAnswer}
    (hr : Conf.Reach (NewToOthers calls org s₂) (.start s₁ fun t => (calls t).run registry) c) :
    ∃ c', Conf.Reach (fun t _ _ _ => ofOrg calls org t) (.start s₂ fun t => (calls t).run registry) c' ∧
      RunIsolated calls org s₂ c c' := by
  have h₀ : (apart calls org s₂).inv (fun _ => []) s₁ s₂ :=
    ⟨h₁, h₂, hsame, .refl, fun _ => List.forall_mem_nil _⟩
  have hdec : DecidablePred (apart calls org s₂).own :=
    inferInstanceAs (DecidablePred (ofOrg calls org))
  obtain ⟨c', hr', hf⟩ := Projection.project apart_sound h₀ (fun t => call_rebased (calls t)) hr
  obtain ⟨G, hi, -⟩ := hf.inv
  refine ⟨c', hr', ?_, hf.thr, hi.same, hi.others⟩
  rw [hf.trace]
  exact List.filter_congr fun _ _ => decide_eq_decide.mpr Iff.rfl

end Runs

/-! ### Two organizations use one key at the same time -/

/-- Everything works, and the new id is `name`. -/
def namedEnv (name : String) : Decision where
  newId _ := name
  rank := sampleRank
  charge := .answered ⟨"fake_" ++ name, .captured, .null⟩

section Names

variable {ι : Type} [DecidableEq ι] {calls : ι → PaymentsCall} {org : String}

/-- Which names are new where the run uses them. -/
def freshNames (c : Conf machine ι PaymentsAnswer) : List (ι × String) → Bool
  | [] => true
  | (t, name) :: l =>
    decide (name ∉ c.st.ids) && freshNames (c.stepAt t (namedEnv name)) l

theorem plays_freshNames {c : Conf machine ι PaymentsAnswer} {l : List (ι × String)}
    (h : freshNames c l) : Conf.Plays (NewToOthers calls org World.empty) c
      (l.map fun x => (x.1, namedEnv x.2)) := by
  induction l generalizing c with
  | nil => trivial
  | cons x l ih =>
    obtain ⟨hnew, hl⟩ := Bool.and_eq_true_iff.mp h
    refine ⟨?_, ih hl⟩
    split
    · have hempty : x.2 ∉ World.empty.ids := List.not_mem_nil
      exact ⟨newIds_of_fresh fun _ => of_decide_eq_true hnew,
        fun _ => newIds_of_fresh fun _ => hempty, sampleRank_injective⟩
    · trivial

end Names

def twoOrgs (own : Bool) : PaymentsCall := sampleCreate (if own then sampleCtx else otherCtx)

def twoStart : Conf machine Bool PaymentsAnswer :=
  .start World.empty fun t => (twoOrgs t).run fakeRegistry

/-- The calls take turns. -/
def takeTurns : List (Bool × String) := [
  (false, "b1"), (true, "a1"), (false, "b2"), (true, "a2"), (false, "b3"), (true, "a3"),
  (false, "b4"), (true, "a4"), (false, "b5"), (true, "a5"), (false, "b6"), (true, "a6"),
  (false, "b7"), (true, "a7")]

def bothCreated : Conf machine Bool PaymentsAnswer :=
  twoStart.play (takeTurns.map fun x => (x.1, namedEnv x.2))

theorem run_isolation_sample :
    bothCreated.st.payments.rows.length = 2 ∧ ∃ c',
      Conf.Reach (fun t _ _ _ => ofOrg twoOrgs "org" t) twoStart c' ∧
      RunIsolated twoOrgs "org" World.empty bothCreated c' ∧ c'.trace.length = 7 := by
  have hplays : Conf.Plays (NewToOthers twoOrgs "org" World.empty) twoStart
      (takeTurns.map fun x => (x.1, namedEnv x.2)) := plays_freshNames (by decide +kernel)
  obtain ⟨c', hr, h⟩ := run_isolation fakeRegistry twoOrgs "org" .empty .empty .refl
    (Conf.reach_play hplays)
  refine ⟨by decide +kernel, c', hr, h, ?_⟩
  rw [h.requests]
  decide +kernel

end Pasarela
