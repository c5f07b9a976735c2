import Pasarela.Durability

/-!
# Where the status of a payment comes from

* `Sourced`: what the provider said, about the charge of this very payment, that gave it the status
  that it has: the answer to its charge, a webhook, the answer to a lookup, or that a refund was
  accepted. A payment whose charge failed has the error.
* `SourceStage`: what a call knows between the provider's word and the write of the status.
* `status_sourced`: however calls and workers interleave, every payment has its status from there.
-/

namespace Pasarela

open Conc (Any Conf Event Prog Proto)
open Store (Table)
open PaymentsService

section Sources

variable {ι : Type} (calls : ι → ServiceCall) (w : World) (tr : List (ι × Event machine))

/-- A charge of the payment: its amount, under its key. -/
structure ChargeOf (input : CreateChargeInput) (p : Payment) : Prop where
  key : input.idempotencyKey = p.idempotencyKey
  amount : input.amountMinor = p.amountMinor
  currency : input.currency = p.currency

/-- The provider of the payment answered `result` to its charge. -/
def AnsweredCharge (p : Payment) (result : ChargeResult) : Prop :=
  ∃ t input d, ChargeOf input p ∧ (t, ⟨.createCharge p.providerId input, d, .ok result⟩) ∈ tr

/-- The charge of the payment, or the record of its result, failed with `err`. -/
def FailedCharge (p : Payment) (err : Err) : Prop :=
  (∃ t input d, ChargeOf input p ∧ (t, ⟨.createCharge p.providerId input, d, .error err⟩) ∈ tr) ∨
  ∃ t q result st d, q.id = p.id ∧ (t, ⟨.recordCharge q result st, d, .error err⟩) ∈ tr

/-- The provider accepted the refund of `amount` of its charge `externalId`. -/
def AcceptedRefund (providerId externalId : String) (amount : Option Int) : Prop :=
  ∃ t input d result, input.externalId = externalId ∧ input.amountMinor = amount ∧
    (t, ⟨.refundCharge providerId input, d, .ok result⟩) ∈ tr

/-- The provider answered `result` to a lookup of its charge `externalId`. -/
def AnsweredLookup (providerId externalId : String) (result : ChargeResult) : Prop :=
  ∃ t d, (t, ⟨.retrieveCharge providerId externalId, d, .ok result⟩) ∈ tr

/-- What gave the payment its status (module doc). -/
inductive Sourced (p : Payment) : Prop where
  | before : (∃ q ∈ w.payments, q.id = p.id ∧ q.status = p.status) → Sourced p
  | inserted : p.status = .pending → Sourced p
  | charged (result : ChargeResult) : AnsweredCharge tr p result →
      p.externalId = some result.externalId → p.status = mapProviderStatus result.status → Sourced p
  | failed (err : Err) : FailedCharge tr p err →
      p.failureMessage = some err.message → p.status = .failed → Sourced p
  | refunded (externalId : String) (amount : Option Int) :
      AcceptedRefund tr p.providerId externalId amount → p.externalId = some externalId →
      p.status = refundStatus p amount → Sourced p
  | webhook (t : ι) (job : WebhookJob) : calls t = .webhook job →
      job.event.providerId = p.providerId → p.externalId = some job.event.externalId →
      statusMap job.event.status = some p.status → Sourced p
  | lookup (externalId : String) (result : ChargeResult) :
      AnsweredLookup tr p.providerId externalId result → p.externalId = some externalId →
      statusMap result.status = some p.status → Sourced p

/-- How far a call is: what it has heard from the provider. -/
inductive SourceStage where
  | idle
  /-- It inserted the payment. -/
  | inserted (p : Payment)
  /-- The provider answered its charge. -/
  | charged (p : Payment) (result : ChargeResult)
  /-- Its charge failed. -/
  | failing (p : Payment) (err : Err)
  /-- It found the payment, which the provider calls `externalId`. -/
  | found (p : Payment) (externalId : String)
  /-- The provider accepted its refund. -/
  | accepted (p : Payment) (externalId : String) (amount : Option Int)
  /-- The provider answered its lookup. -/
  | told (p : Payment) (externalId : String) (result : ChargeResult)

def World.HasRow (s : World) (p : Payment) : Prop := ∃ q ∈ s.payments, q.core = p.core

/-- A row of the payment, which the provider calls `externalId`. -/
def World.HasExternal (s : World) (p : Payment) (externalId : String) : Prop :=
  ∃ q ∈ s.payments, q.core = p.core ∧ q.externalId = some externalId

def sourceFact (g : SourceStage) (x : World × List (ι × Event machine)) : Prop :=
  match g with
  | .idle => True
  | .inserted p => x.1.HasRow p
  | .charged p result => x.1.HasRow p ∧ AnsweredCharge x.2 p result
  | .failing p err => x.1.HasRow p ∧ FailedCharge x.2 p err
  | .found p externalId => x.1.HasExternal p externalId
  | .accepted p externalId amount => x.1.HasExternal p externalId ∧
      AcceptedRefund x.2 p.providerId externalId amount
  | .told p externalId result => x.1.HasExternal p externalId ∧
      AnsweredLookup x.2 p.providerId externalId result

/-- The calls. The writes of `create` find their payment PENDING, so no payment ever changes the name
that the provider has for it. -/
def sourceProto : Proto machine ι SourceStage where
  allow _ o d s := FindsPending (.of o d s) s
  inv G s tr := (∀ t, sourceFact (G t) (s, tr)) ∧ ∀ p ∈ s.payments, Sourced calls w tr p

end Sources

/-! ## One request -/

section Step

variable {ι : Type} {calls : ι → ServiceCall} {w s s' : World} {tr : List (ι × Event machine)}
  {t u : ι} {o : Op} {d : Decision} {r : Except Err o.Ans} {p q : Payment} {e : Event machine}
  {externalId : String} {amount : Option Int} {result : ChargeResult} {err : Err} {g : SourceStage}

/-! What was heard stays so, and it is about the later versions of the row too. -/

theorem ChargeOf.of_core {input : CreateChargeInput} (h : ChargeOf input p) (hc : q.core = p.core) :
    ChargeOf input q :=
  ⟨h.key.trans (Payment.core_key hc).symm, h.amount.trans (Payment.core_amount hc).symm,
    h.currency.trans (Payment.core_currency hc).symm⟩

theorem AnsweredCharge.snoc (h : AnsweredCharge tr p result) :
    AnsweredCharge (tr ++ [(u, e)]) p result := by
  obtain ⟨t, input, d, hof, ht⟩ := h
  exact ⟨t, input, d, hof, List.mem_append_left _ ht⟩

theorem AnsweredCharge.of_core (h : AnsweredCharge tr p result) (hc : q.core = p.core) :
    AnsweredCharge tr q result := by
  obtain ⟨t, input, d, hof, ht⟩ := h
  refine ⟨t, input, d, hof.of_core hc, ?_⟩
  rw [Payment.core_providerId hc]
  exact ht

theorem FailedCharge.snoc (h : FailedCharge tr p err) : FailedCharge (tr ++ [(u, e)]) p err := by
  rcases h with ⟨t, input, d, hof, ht⟩ | ⟨t, q, result, st, d, hid, ht⟩
  · exact .inl ⟨t, input, d, hof, List.mem_append_left _ ht⟩
  · exact .inr ⟨t, q, result, st, d, hid, List.mem_append_left _ ht⟩

theorem FailedCharge.of_core (h : FailedCharge tr p err) (hc : q.core = p.core) :
    FailedCharge tr q err := by
  rcases h with ⟨t, input, d, hof, ht⟩ | ⟨t, x, result, st, d, hid, ht⟩
  · refine .inl ⟨t, input, d, hof.of_core hc, ?_⟩
    rw [Payment.core_providerId hc]
    exact ht
  · exact .inr ⟨t, x, result, st, d, hid.trans (Payment.core_id hc).symm, ht⟩

theorem AcceptedRefund.snoc {providerId : String} (h : AcceptedRefund tr providerId externalId amount) :
    AcceptedRefund (tr ++ [(u, e)]) providerId externalId amount := by
  obtain ⟨t, input, d, result, hx, ha, ht⟩ := h
  exact ⟨t, input, d, result, hx, ha, List.mem_append_left _ ht⟩

theorem AnsweredLookup.snoc {providerId : String} (h : AnsweredLookup tr providerId externalId result) :
    AnsweredLookup (tr ++ [(u, e)]) providerId externalId result := by
  obtain ⟨t, d, ht⟩ := h
  exact ⟨t, d, List.mem_append_left _ ht⟩

theorem Sourced.snoc (h : Sourced calls w tr p) : Sourced calls w (tr ++ [(u, e)]) p := by
  cases h with
  | before h => exact .before h
  | inserted h => exact .inserted h
  | charged result h he hst => exact .charged result h.snoc he hst
  | failed err h hm hst => exact .failed err h.snoc hm hst
  | refunded externalId amount h he hst => exact .refunded externalId amount h.snoc he hst
  | webhook t job hc hp he hst => exact .webhook t job hc hp he hst
  | lookup externalId result h he hst => exact .lookup externalId result h.snoc he hst

/-! The rows of the payments. -/

theorem World.HasRow.durable (h : s.HasRow p) (hd : s.Durable s') : s'.HasRow p := by
  obtain ⟨q, hq, hc⟩ := h
  obtain ⟨q', hq', hc'⟩ := hd.later hq
  exact ⟨q', hq', hc'.trans hc⟩

theorem World.HasExternal.next (h : s.HasExternal p externalId) (hx : exec o d s = (r, s'))
    (hfinds : FindsPending ⟨o, d, r⟩ s) : s'.HasExternal p externalId := by
  obtain ⟨q, hq, hc, he⟩ := h
  obtain ⟨q', hq', hid, he'⟩ := exec_externalId hx hfinds hq he
  obtain ⟨q'', hq'', hc''⟩ := (exec_durable hx).later hq
  rw [Table.eq_of_key hq'' hq' ((Payment.core_id hc'').trans hid.symm)] at hc''
  exact ⟨q', hq', hc''.trans hc, he'⟩

theorem sourceFact_next (h : sourceFact g (s, tr)) (hx : exec o d s = (r, s'))
    (hfinds : FindsPending ⟨o, d, r⟩ s) : sourceFact g (s', tr ++ [(u, e)]) := by
  have hd := exec_durable hx
  cases g with
  | idle => trivial
  | inserted p => exact World.HasRow.durable h hd
  | charged p result => exact ⟨h.1.durable hd, h.2.snoc⟩
  | failing p err => exact ⟨h.1.durable hd, h.2.snoc⟩
  | found p externalId => exact World.HasExternal.next h hx hfinds
  | accepted p externalId amount => exact ⟨h.1.next hx hfinds, h.2.snoc⟩
  | told p externalId result => exact ⟨h.1.next hx hfinds, h.2.snoc⟩

/-- The rows after a write of the payment: the one that was written has its source. -/
theorem written_sourced {f : Payment → Payment} {hf : Table.Keeps Payment.id Payment.tenantKey f}
    (hrow : s.HasRow p) (hu : s.payments.update p.id f hf = some (q, s'.payments))
    (hsrc : ∀ a ∈ s.payments, a.core = p.core → Sourced calls w tr (f a)) :
    ∀ x ∈ s'.payments, x ∈ s.payments ∨ Sourced calls w tr x := by
  obtain ⟨a, ha, hid, rfl, -⟩ := Table.update_some hu
  obtain ⟨b, hb, hc⟩ := hrow
  obtain rfl : a = b := Table.eq_of_key ha hb (hid.trans (Payment.core_id hc).symm)
  intro x hx
  rcases (Table.mem_update hu).mp hx with ⟨hx, -⟩ | rfl
  · exact .inl hx
  · exact .inr (hsrc a ha hc)

/-- The rows after a write of the status of a payment that the provider calls `externalId`. -/
theorem status_sourced_of {st : PaymentStatus} (hrow : s.HasExternal p externalId)
    (hu : s.payments.update p.id (setStatus d st) (keeps_setStatus d st) = some (q, s'.payments))
    (hsrc : ∀ a : Payment, a.core = p.core → a.externalId = some externalId → a.status = st →
      Sourced calls w tr a) :
    ∀ x ∈ s'.payments, x ∈ s.payments ∨ Sourced calls w tr x := by
  obtain ⟨b, hb, hc, he⟩ := hrow
  refine written_sourced ⟨b, hb, hc⟩ hu fun a ha hac => hsrc _ hac ?_ rfl
  rw [Table.eq_of_key ha hb ((Payment.core_id hac).trans (Payment.core_id hc).symm)]
  exact he

end Step

/-! ## The programs -/

section Calls

variable {ι : Type} [DecidableEq ι] {calls : ι → ServiceCall} {w : World} {t : ι} {α β : Type}
  {g : SourceStage}

/-- **One request**: each row that it wrote has its source. -/
theorem source_step {G : ι → SourceStage} {s s' : World} {tr : List (ι × Event machine)} {o : Op}
    {d : Decision} {r : Except Err o.Ans} (hi : (sourceProto calls w).inv G s tr)
    (hx : exec o d s = (r, s')) (hfinds : FindsPending ⟨o, d, r⟩ s)
    (hf : sourceFact g (s', tr ++ [(t, (⟨o, d, r⟩ : Event machine))]))
    (hrows : ∀ p ∈ s'.payments, p ∈ s.payments ∨
      Sourced calls w (tr ++ [(t, (⟨o, d, r⟩ : Event machine))]) p) :
    (sourceProto calls w).inv (Function.update G t g) s'
      (tr ++ [(t, (⟨o, d, r⟩ : Event machine))]) := by
  refine ⟨fun u => ?_, fun p hp => ?_⟩
  · by_cases hu : u = t
    · rw [hu, Function.update_self]
      exact hf
    · rw [Function.update_of_ne hu]
      exact sourceFact_next (hi.1 u) hx hfinds
  · rcases hrows p hp with hp | hp
    · exact (hi.2 p hp).snoc
    · exact hp

omit [DecidableEq ι] in
/-- A request that is allowed finds its payment PENDING, if it is a write of `create`. -/
theorem finds_of_allow {s s' : World} {o : Op} {d : Decision} {r : Except Err o.Ans}
    (ha : (sourceProto calls w).allow t o d s) (hx : exec o d s = (r, s')) :
    FindsPending ⟨o, d, r⟩ s := by
  have ha : FindsPending (.of o d s) s := ha
  rw [Event.of, show machine.exec o d s = (r, s') from hx] at ha
  exact ha

theorem source_wp {o : Op} {f : o.Ans → Service β} {Q : Except Err β → SourceStage → Prop}
    (h : ∀ s tr d r s', sourceFact g (s, tr) → exec o d s = (r, s') → FindsPending ⟨o, d, r⟩ s →
      ∃ g', sourceFact g' (s', tr ++ [(t, (⟨o, d, r⟩ : Event machine))]) ∧
        (∀ p ∈ s'.payments, p ∈ s.payments ∨
          Sourced calls w (tr ++ [(t, (⟨o, d, r⟩ : Event machine))]) p) ∧
        (∀ a, r = .ok a → (sourceProto calls w).WP t Q (f a) g') ∧
        ∀ e, r = .error e → Q (.error e) g') :
    (sourceProto calls w).WP t Q ((request o).bind f) g := by
  refine Proto.WP.perform_bind fun G s tr d r s' hG hi ha hx => ⟨trivial, ?_⟩
  have hfinds := finds_of_allow ha hx
  have hfact := hi.1 t
  rw [hG] at hfact
  obtain ⟨g', hf, hrows, hok, herr⟩ := h s tr d r s' hfact hx hfinds
  refine ⟨g', source_step hi hx hfinds hf hrows, ?_⟩
  cases r with
  | ok a => exact hok a rfl
  | error e => exact herr e rfl

theorem plain_wp {o : Op} {f : o.Ans → Service β} {Q : Except Err β → SourceStage → Prop}
    (ho : o.writesPayments = false) (hok : ∀ a, (sourceProto calls w).WP t Q (f a) g)
    (herr : ∀ e, Q (.error e) g) : (sourceProto calls w).WP t Q ((request o).bind f) g := by
  refine source_wp fun s tr d r s' hf hx hfinds => ⟨g, sourceFact_next hf hx hfinds, fun p hp => ?_,
    fun a _ => hok a, fun e _ => herr e⟩
  rw [exec_payments ho hx] at hp
  exact .inl hp

theorem sure_wp {o : Op} {f : o.Ans → Service β} {Q : Except Err β → SourceStage → Prop}
    (ho : o.writesPayments = false) (hsure : ∀ d s r s', exec o d s = (r, s') → ∃ a, r = .ok a)
    (hok : ∀ a, (sourceProto calls w).WP t Q (f a) g) :
    (sourceProto calls w).WP t Q ((request o).bind f) g := by
  refine source_wp fun s tr d r s' hf hx hfinds => ⟨g, sourceFact_next hf hx hfinds, fun p hp => ?_,
    fun a _ => hok a, fun e h => ?_⟩
  · rw [exec_payments ho hx] at hp
    exact .inl hp
  · obtain ⟨a, ha⟩ := hsure d s r s' hx
    rw [ha] at h
    cases h

/-- No more is asked of a call that ends. -/
abbrev Whatever (_ : Except Err α) (_ : SourceStage) : Prop := True

/-! ### Create -/

theorem chargeFailed_sourced {dto : CreatePaymentDto} {p : Payment} {err : Err} :
    (sourceProto calls w).WP t Whatever (chargeFailed dto p err) (.failing p err) := by
  refine plain_wp rfl (fun _ => ?_) fun _ => trivial
  refine source_wp fun s tr d r s' hf hx hfinds => ?_
  rcases exec_failPayment hx with ⟨e, rfl, rfl⟩ | ⟨q, rfl, hu, -⟩
  · exact ⟨.idle, trivial, fun p hp => .inl hp, (fun _ _ => trivial), fun _ _ => trivial⟩
  · refine ⟨.idle, trivial, written_sourced hf.1 hu fun a ha hc => ?_, (fun _ _ => trivial),
      fun _ _ => trivial⟩
    have hcore : (setFailed d err.message a).core = p.core := hc
    exact .failed err (hf.2.snoc.of_core hcore) rfl rfl

theorem charge_sourced {provider : PaymentProvider} {dto : CreatePaymentDto} {key : String}
    {ctx : OrgContext} {p : Payment} (hprov : p.providerId = provider.id)
    (hof : ChargeOf (chargeInput dto key p) p) :
    (sourceProto calls w).WP t Whatever
      ((charge provider dto key ctx p).tryCatch (chargeFailed dto p)) (.inserted p) := by
  refine Proto.WP.tryCatch ?_
  refine source_wp fun s tr d r s' hf hx hfinds => ?_
  have hrow : s'.HasRow p := World.HasRow.durable hf (exec_durable hx)
  have hrows : ∀ x ∈ s'.payments, x ∈ s.payments := fun x h => by
    rwa [exec_payments rfl hx] at h
  cases r with
  | error e =>
    refine ⟨.failing p e, ⟨hrow, .inl ⟨t, _, d, hof, ?_⟩⟩, fun x h => .inl (hrows x h),
      (fun _ h => by cases h), fun e' h => ?_⟩
    · rw [hprov]
      exact List.mem_append_right _ (List.mem_singleton_self _)
    · cases h
      exact chargeFailed_sourced
  | ok result =>
    refine ⟨.charged p result, ⟨hrow, t, _, d, hof, ?_⟩, fun x h => .inl (hrows x h),
      (fun a h => ?_), fun _ h => by cases h⟩
    · rw [hprov]
      exact List.mem_append_right _ (List.mem_singleton_self _)
    cases h
    refine source_wp fun s tr d r s' hf hx hfinds => ?_
    rcases exec_recordCharge hx with ⟨e, rfl, rfl⟩ | ⟨q, rfl, hw⟩
    · refine ⟨.failing p e,
        ⟨hf.1, .inr ⟨t, p, result, mapProviderStatus result.status, d, rfl, ?_⟩⟩, fun x h => .inl h,
        (fun _ h => by cases h), fun e' h => ?_⟩
      · exact List.mem_append_right _ (List.mem_singleton_self _)
      · cases h
        exact chargeFailed_sourced
    · refine ⟨.idle, trivial, written_sourced hf.1 hw.payments fun a ha hc => ?_, (fun a h => ?_),
        fun _ h => by cases h⟩
      · have hcore : (setCharge d result (mapProviderStatus result.status) a).core = p.core := hc
        exact .charged result (hf.2.snoc.of_core hcore) rfl rfl
      · -- neither the gauge nor the audit log fails, so the `catch` is not reached
        refine sure_wp rfl (fun _ _ _ _ h => ⟨(), (Prod.mk.inj h).1.symm⟩) fun _ => ?_
        exact sure_wp rfl (fun _ _ _ _ h => ⟨(), (exec_auditLog h).1⟩) fun _ => trivial

theorem create_sourced (registry : ProviderRegistry) {dto : CreatePaymentDto} {key : Option String}
    {ctx : OrgContext} :
    (sourceProto calls w).WP t Whatever (create registry dto key ctx) .idle := by
  refine Proto.WP.ofExcept_bind (fun key _ => ?_) fun _ _ => trivial
  refine plain_wp rfl (fun existing => ?_) fun _ => trivial
  cases existing with
  | some payment => trivial
  | none =>
    refine Proto.WP.ofExcept_bind (fun provider _ => ?_) fun _ _ => trivial
    refine plain_wp rfl (fun _ => ?_) fun _ => trivial
    refine Proto.WP.ofExcept_bind (fun method _ => ?_) fun _ _ => trivial
    refine source_wp fun s tr d r s' hf hx hfinds => ?_
    rcases exec_insertPayment hx with ⟨e, rfl, rfl⟩ | ⟨p, rfl, hins⟩
    · exact ⟨.idle, trivial, fun p hp => .inl hp, (fun _ h => by cases h), fun _ _ => trivial⟩
    obtain ⟨c, hp, -⟩ := hins.row
    refine ⟨.inserted p, ⟨p, (Table.mem_insert hins.payments).mpr (.inr rfl), rfl⟩, fun x hx => ?_,
      (fun a h => ?_), fun _ h => by cases h⟩
    · rcases (Table.mem_insert hins.payments).mp hx with hx | rfl
      · exact .inl hx
      · refine .inr (.inserted ?_)
        rw [hp]
        rfl
    · cases h
      refine charge_sourced ?_ ⟨?_, ?_, ?_⟩
      all_goals
        rw [hp]
        rfl

/-! ### Refund -/

theorem refund_sourced (registry : ProviderRegistry) {id : String} {body : RefundBody}
    {ctx : OrgContext} :
    (sourceProto calls w).WP t Whatever (refund registry id body ctx) .idle := by
  refine source_wp fun s tr d r s' _ hx _ => ?_
  obtain ⟨rfl, ⟨e, rfl⟩ | ⟨rfl, -⟩ | ⟨p, rfl, hp, hw⟩⟩ := exec_findPayment hx
  · exact ⟨.idle, trivial, fun p hp => .inl hp, (fun _ h => by cases h), fun _ _ => trivial⟩
  · refine ⟨.idle, trivial, fun p hp => .inl hp, (fun a h => ?_), fun _ _ => trivial⟩
    cases h
    trivial
  cases hext : checkRefundable p with
  | error e =>
    refine ⟨.idle, trivial, fun p hp => .inl hp, (fun a h => ?_), fun _ _ => trivial⟩
    cases h
    refine Proto.WP.ofExcept_bind (fun externalId h => ?_) fun _ _ => trivial
    rw [hext] at h
    cases h
  | ok externalId =>
    refine ⟨.found p externalId, ⟨p, hp, rfl, (checkRefundable_ok hext).2.1⟩, fun p hp => .inl hp,
      (fun a h => ?_), fun _ _ => trivial⟩
    cases h
    refine Proto.WP.ofExcept_bind (fun x h => ?_) fun _ _ => trivial
    rw [hext] at h
    cases h
    refine Proto.WP.ofExcept_bind (fun provider hprov => ?_) fun _ _ => trivial
    refine Proto.WP.ofExcept_bind (fun amount _ => ?_) fun _ _ => trivial
    refine source_wp fun s tr d r s' hf hx hfinds => ?_
    have hrows : ∀ x ∈ s'.payments, x ∈ s.payments := fun x h => by
      rwa [exec_payments rfl hx] at h
    cases r with
    | error e => exact ⟨.idle, trivial, fun x h => .inl (hrows x h), (fun _ h => by cases h),
        fun _ _ => trivial⟩
    | ok result =>
      refine ⟨.accepted p externalId amount, ⟨World.HasExternal.next hf hx hfinds, t,
        ⟨externalId, amount, body.reason⟩, d, result, rfl, rfl, ?_⟩, fun x h => .inl (hrows x h),
        (fun a h => ?_), fun _ h => by cases h⟩
      · rw [← ProviderRegistry.get_id hprov]
        exact List.mem_append_right _ (List.mem_singleton_self _)
      cases h
      refine Proto.WP.ofExcept_bind (fun _ _ => ?_) fun _ _ => trivial
      refine source_wp fun s tr d r s' hf hx hfinds => ?_
      rcases exec_recordRefund hx with ⟨e, rfl, rfl⟩ | ⟨q, rfl, hr, hw⟩
      · exact ⟨.idle, trivial, fun p hp => .inl hp, (fun _ h => by cases h), fun _ _ => trivial⟩
      · -- the write has the refund that the provider has accepted for its source
        refine ⟨.idle, trivial, status_sourced_of hf.1 hw.payments fun a hc he hst => ?_,
          (fun _ h => ?_), fun _ h => by cases h⟩
        · refine .refunded externalId amount ?_ he ?_
          · rw [Payment.core_providerId hc]
            exact hf.2.snoc
          · rw [hst]
            simp only [refundStatus, Payment.core_amount hc]
        · cases h
          exact plain_wp rfl (fun _ => trivial) fun _ => trivial

/-! ### The workers -/

theorem process_sourced {job : WebhookJob} (hcall : calls t = .webhook job) :
    (sourceProto calls w).WP t Whatever (WebhookProcessor.process job) .idle := by
  have hmark : ∀ g, (sourceProto calls w).WP t Whatever
      (WebhookProcessor.markProcessed job.webhookInboundId) g :=
    fun g => plain_wp rfl (fun _ => trivial) fun _ => trivial
  refine source_wp fun s tr d r s' _ hx _ => ?_
  obtain ⟨rfl, ⟨e, rfl⟩ | ⟨rfl, -⟩ | ⟨p, rfl, hp, hw⟩⟩ := exec_findPayment hx
  · exact ⟨.idle, trivial, fun p hp => .inl hp, (fun _ h => by cases h), fun _ _ => trivial⟩
  · refine ⟨.idle, trivial, fun p hp => .inl hp, (fun a h => ?_), fun _ _ => trivial⟩
    cases h
    trivial
  obtain ⟨hext, hprov⟩ := PaymentWhere.holds_external.mp hw
  refine ⟨.found p job.event.externalId, ⟨p, hp, rfl, hext⟩, fun p hp => .inl hp, (fun a h => ?_),
    fun _ _ => trivial⟩
  cases h
  show (sourceProto calls w).WP t Whatever (WebhookProcessor.processFound job p) _
  unfold WebhookProcessor.processFound
  split
  · exact hmark _
  · rename_i st hmap
    split
    · exact hmark _
    · refine Proto.WP.ofExcept_bind (fun _ _ => ?_) fun _ _ => trivial
      refine source_wp fun s tr d r s' hf hx hfinds => ?_
      rcases exec_applyWebhook hx with ⟨e, rfl, rfl⟩ | ⟨q, rfl, hw⟩
      · exact ⟨.idle, trivial, fun p hp => .inl hp, (fun _ h => by cases h), fun _ _ => trivial⟩
      · refine ⟨.idle, trivial, status_sourced_of hf hw.payments fun a hc he hst => ?_,
          (fun _ _ => hmark _), fun _ h => by cases h⟩
        refine .webhook t job hcall ?_ he ?_
        · rw [Payment.core_providerId hc, hprov]
        · rw [hst, hmap]

theorem reconcile_sourced (registry : ProviderRegistry) {id : String} :
    (sourceProto calls w).WP t Whatever (ReconciliationService.reconcileOne registry id) .idle := by
  refine source_wp fun s tr d r s' _ hx _ => ?_
  obtain ⟨rfl, ⟨e, rfl⟩ | ⟨rfl, -⟩ | ⟨p, rfl, hp, hw⟩⟩ := exec_findPayment hx
  · exact ⟨.idle, trivial, fun p hp => .inl hp, (fun _ h => by cases h), fun _ _ => trivial⟩
  · refine ⟨.idle, trivial, fun p hp => .inl hp, (fun a h => ?_), fun _ _ => trivial⟩
    cases h
    trivial
  cases hext : p.externalId.filter (· ≠ "") with
  | none =>
    refine ⟨.idle, trivial, fun p hp => .inl hp, (fun a h => ?_), fun _ _ => trivial⟩
    cases h
    simp only [hext]
    trivial
  | some externalId =>
    refine ⟨.found p externalId, ⟨p, hp, rfl, (Option.filter_eq_some_iff.mp hext).1⟩,
      fun p hp => .inl hp, (fun a h => ?_), fun _ _ => trivial⟩
    cases h
    simp only [hext]
    refine Proto.WP.ofExcept_bind (fun provider hprov => ?_) fun _ _ => trivial
    refine source_wp fun s tr d r s' hf hx hfinds => ?_
    have hrows : ∀ x ∈ s'.payments, x ∈ s.payments := fun x h => by
      rwa [exec_payments rfl hx] at h
    cases r with
    | error e => exact ⟨.idle, trivial, fun x h => .inl (hrows x h), (fun _ h => by cases h),
        fun _ _ => trivial⟩
    | ok result =>
      refine ⟨.told p externalId result, ⟨World.HasExternal.next hf hx hfinds, t, d, ?_⟩,
        fun x h => .inl (hrows x h), (fun a h => ?_), fun _ h => by cases h⟩
      · rw [← ProviderRegistry.get_id hprov]
        exact List.mem_append_right _ (List.mem_singleton_self _)
      cases h
      split
      · rename_i st htrans
        -- the reconciliation writes what the lookup has reported
        have hmap : statusMap result.status = some st := (Option.filter_eq_some_iff.mp htrans).1
        refine Proto.WP.perform fun G s tr d r s' hG hi ha hx => ⟨trivial, .idle, ?_, trivial⟩
        have hfinds := finds_of_allow ha hx
        have hf := hi.1 t
        rw [hG] at hf
        rcases exec_applyReconciliation hx with ⟨e, rfl, rfl⟩ | ⟨q, rfl, hw⟩
        · exact source_step hi hx hfinds trivial fun p hp => .inl hp
        · refine source_step hi hx hfinds trivial
            (status_sourced_of hf.1 hw.payments fun a hc he hst => ?_)
          refine .lookup externalId result ?_ he ?_
          · rw [Payment.core_providerId hc]
            exact hf.2.snoc
          · rw [hst, hmap]
      · trivial

theorem service_sourced (registry : ProviderRegistry) (t : ι) :
    (sourceProto calls w).WP t Whatever ((calls t).run registry) .idle := by
  have hbind : ∀ {α β : Type} {p : Service α} {f : α → β},
      (sourceProto calls w).WP t Whatever p .idle →
        (sourceProto calls w).WP t Whatever (p.bind fun a => .ret (f a)) .idle :=
    fun hp => Proto.WP.bind_true hp fun _ _ => trivial
  cases hcall : calls t with
  | payments call =>
    refine hbind ?_
    cases call with
    | create dto key ctx => exact hbind (create_sourced registry)
    | findAll ctx page => exact hbind (plain_wp rfl (fun _ => trivial) fun _ => trivial)
    | findOne id ctx =>
      refine hbind (plain_wp rfl (fun found => ?_) fun _ => trivial)
      cases found with
      | none => trivial
      | some x => trivial
    | refund id body ctx => exact hbind (refund_sourced registry)
  | webhook job => exact process_sourced hcall
  | reconcile id => exact reconcile_sourced registry

end Calls

/-! ## The runs -/

/-- **No status is made up.** However calls, workers and the provider interleave, from any payments:
every payment has the status that it had, or was inserted with; or one that its provider gave to its
own charge, in the answer to the charge, to a refund or to a lookup, or in the event of a webhook; or
it is FAILED, with the message of the error of its charge. -/
theorem status_sourced {ι : Type} [DecidableEq ι] (registry : ProviderRegistry)
    (calls : ι → ServiceCall) (w : World) (c : Conf machine ι Unit)
    (hr : Conf.Reach Any (startCalls registry calls w) c) :
    ∀ p ∈ c.st.payments, Sourced calls w c.trace p := by
  have hstart : (sourceProto calls w).Ok (fun _ => Whatever) (startCalls registry calls w) :=
    ⟨fun _ => .idle, ⟨fun _ => trivial, fun p hp => .before ⟨p, hp, rfl, rfl⟩⟩,
      fun t => service_sourced registry t⟩
  have hfinds : Conf.Reach (sourceProto calls w).allow (startCalls registry calls w) c :=
    Conf.Reach.restrict (P := fun _ => FindsPending) hr (finds_pending_along hr)
  obtain ⟨G, hi, -⟩ := Proto.sound hstart hfinds
  exact hi.2

theorem status_sourced_sample :
    (∀ p ∈ capturedCreate.st.payments, Sourced (fun _ : Unit =>
      .payments (.create sampleDto (some "key") sampleCtx)) World.empty capturedCreate.trace p) ∧
    capturedCreate.st.payments.rows.map (·.status) = [.captured] :=
  ⟨status_sourced fakeRegistry _ World.empty capturedCreate (Conf.reach_play (Conf.plays_any _ _)),
    by decide +kernel⟩

end Pasarela
