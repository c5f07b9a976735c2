import Pasarela.Ownership

/-!
# The life cycle of a payment under concurrency

Each operation reads a payment, checks the transition against the status it read, and later writes
the payment by its id; which payments it can write is the matter of `Pasarela.Ownership`.

* `LifeCycle s s'`: each payment of `s` is in `s'`, and its status went along the state machine.
* `FreshWrites`: the runs in which no refund, webhook or reconciliation writes a payment whose
  status has changed since the operation read it. In these every step has `LifeCycle`
  (`lifecycle_of_fresh_writes`); without it, a webhook takes a payment out of a terminal state
  (`stale_write_leaves_failed`).
-/

namespace Pasarela

open Js (Json)
open Conc (Owning Proto Prog Conf)
open Store (Table)
open PaymentsService

/-- Each payment of `s` is in `s'`, and its status went along the state machine. -/
def LifeCycle (s s' : World) : Prop :=
  ∀ p ∈ s.payments, ∃ p' ∈ s'.payments, p'.id = p.id ∧ Valid p.status p'.status

instance (s s' : World) : Decidable (LifeCycle s s') :=
  inferInstanceAs (Decidable (∀ p ∈ s.payments.rows, ∃ p' ∈ s'.payments.rows,
    p'.id = p.id ∧ Valid p.status p'.status))

/-- No write of a status that changed since it was read (module doc). -/
def FreshWrites {ι : Type} : Conc.Allow machine ι := fun _ o _ s =>
  match o with
  | .recordRefund payment _ _ _ _ => ∀ q ∈ s.payments, q.id = payment.id → q.status = payment.status
  | .applyWebhook payment _ _ => ∀ q ∈ s.payments, q.id = payment.id → q.status = payment.status
  | .applyReconciliation payment _ _ =>
    ∀ q ∈ s.payments, q.id = payment.id → q.status = payment.status
  | _ => True

/-- What such a run says of a checked write. -/
theorem freshWrites_row {ι : Type} {t : ι} {o : Op} {d : Decision} {s : World} {payment : Payment}
    {st : PaymentStatus} (h : FreshWrites t o d s) (ho : o.checkedWrite = some (payment, st)) :
    ∀ q ∈ s.payments, q.id = payment.id → q.status = payment.status := by
  cases o with
  | recordRefund p st' body amount result => cases ho; exact h
  | applyWebhook p st' event => cases ho; exact h
  | applyReconciliation p st' raw => cases ho; exact h
  | _ => cases ho

/-! ## Steps -/

theorem LifeCycle.of_payments {s s' : World} (h : s'.payments = s.payments) : LifeCycle s s' := by
  rw [LifeCycle, h]
  exact fun p hp => ⟨p, hp, rfl, Valid.refl _⟩

theorem LifeCycle.insert {s s' : World} {p : Payment}
    (h : s.payments.insert p = .ok s'.payments) : LifeCycle s s' :=
  fun q hq => ⟨q, (Table.mem_insert h).mpr (.inl hq), rfl, Valid.refl _⟩

/-- A write of one payment, from each status that the payment can have there. -/
theorem LifeCycle.update {s s' : World} {id : String} {f : Payment → Payment}
    {hf : Table.Keeps Payment.id Payment.tenantKey f} {q : Payment}
    (h : s.payments.update id f hf = some (q, s'.payments))
    (hv : ∀ p ∈ s.payments, p.id = id → Valid p.status (f p).status) : LifeCycle s s' := by
  intro p hp
  by_cases hid : p.id = id
  · obtain ⟨a, ha, hak, rfl, -⟩ := Table.update_some h
    rw [Table.eq_of_key hp ha (hid.trans hak.symm)]
    exact ⟨f a, (Table.mem_update h).mpr (.inr rfl), hf.key a, hv a ha hak⟩
  · exact ⟨p, (Table.mem_update h).mpr (.inl ⟨hp, hid⟩), rfl, Valid.refl _⟩

section Steps

variable {ι : Type} {G : ι → Ghost} {s s' : World}

/-- A status that a thread has seen, checked and found unchanged, goes along the state machine. -/
theorem seen_guar {t : ι} (hi : ownership.Inv G s) {payment : Payment}
    (hG : G t = .seen payment.id) {d : Decision} {st : PaymentStatus} {q : Payment}
    (hu : s.payments.update payment.id (setStatus d st) (keeps_setStatus d st) =
      some (q, s'.payments))
    (hv : Valid payment.status st)
    (hfresh : ∀ q ∈ s.payments, q.id = payment.id → q.status = payment.status) :
    LifeCycle s s' ∧ ownership.Inv G s' := by
  refine ⟨LifeCycle.update hu fun p hp hid => ?_, seen_write hi hG hu⟩
  rw [hfresh p hp hid]
  exact hv

end Steps

/-! ## The operations -/

section Pool

variable {ι : Type} [DecidableEq ι]

variable (ι) in
def lifecycle : Proto machine ι Ghost where
  allow := FreshWrites
  inv G s _ := ownership.Inv G s
  guar := LifeCycle

/-- The writes of statuses that have not changed since they were read keep the life cycle. -/
theorem lifecycle_rules : WriteRules (lifecycle ι) fun _ => True where
  owned hi := hi
  see hi hp he := own_read hi hp he
  quiet hi _ hx ho := by
    have hp := exec_payments ho hx
    exact ⟨LifeCycle.of_payments hp,
      Owning.Inv.mono hi fun _ _ hg => Ghost.fact_of_payments hp hg⟩
  insert _ hi _ hx := by
    rcases exec_insertPayment hx with ⟨e, rfl, rfl⟩ | ⟨p, rfl, hp⟩
    · exact ⟨LifeCycle.of_payments rfl, by rw [Function.update_eq_self]; exact hi⟩
    · obtain ⟨c, rfl, -⟩ := hp.row
      exact ⟨LifeCycle.insert hp.payments, own_insert hi hp.payments rfl rfl⟩
  own hi _ hx ho hG hv := by
    rcases exec_ownWrite ho hx with ⟨e, rfl, rfl⟩ | ⟨a, f, hf, q, rfl, hu, hst⟩
    · exact ⟨LifeCycle.of_payments rfl, by rw [Function.update_eq_self]; exact hi⟩
    · refine ⟨LifeCycle.update hu fun p hp hid => ?_, own_write hi hG hu⟩
      rw [(own_row hi hG hp hid).1, (hst p).1]
      exact hv
  checked {_ _ _ _ t _ d _ _ _} hi ha hx ho hG hv := by
    rcases exec_checkedWrite ho hx with ⟨e, rfl, rfl⟩ | ⟨a, q, type, payload, rfl, -, hu, -⟩
    · exact ⟨LifeCycle.of_payments rfl, hi⟩
    · exact seen_guar hi hG hu hv (freshWrites_row (t := t) (d := d) ha ho)

end Pool

/-! ## Runs -/

section Runs

variable {ι : Type} [DecidableEq ι] (registry : ProviderRegistry) (calls : ι → ServiceCall)

theorem lifecycle_start (w : World) :
    (lifecycle ι).Ok (fun _ _ _ => True) (startCalls registry calls w) :=
  ⟨fun _ => .idle, Owning.Inv.start (fun _ => trivial) rfl, fun t => lifecycle_rules.call registry (calls t) fun _ _ _ _ => trivial⟩

variable {registry calls}

theorem terminal_stays {w : World} {c c' : Conf machine ι Unit}
    (hr : Conf.Reach FreshWrites (startCalls registry calls w) c)
    (hr' : Conf.Reach FreshWrites c c') {p : Payment} (hp : p ∈ c.st.payments)
    (ht : isTerminal p.status) : ∃ p' ∈ c'.st.payments, p'.id = p.id ∧ p'.status = p.status := by
  induction hr' with
  | refl => exact ⟨p, hp, rfl, rfl⟩
  | tail hr₂ hs ih =>
    obtain ⟨q, hq, hid, hst⟩ := ih
    obtain ⟨q', hq', hid', hv⟩ :=
      Proto.guar_step (lifecycle_start registry calls w) (hr.trans hr₂) hs q hq
    rw [← hst] at ht
    exact ⟨q', hq', hid'.trans hid, (hv.terminal ht).trans hst⟩

end Runs

/-- **The life cycle of a payment**: in every run of any operations, from any state, in which no
write is of a status that changed since it was read, every step takes each payment along the state
machine, and no payment leaves a terminal state. -/
theorem lifecycle_of_fresh_writes {ι : Type} [DecidableEq ι] (registry : ProviderRegistry)
    (calls : ι → ServiceCall) (w : World) (c : Conf machine ι Unit)
    (hr : Conf.Reach FreshWrites (startCalls registry calls w) c) :
    (∀ c', Conf.Step FreshWrites c c' → LifeCycle c.st c'.st) ∧
      ∀ c', Conf.Reach FreshWrites c c' → ∀ p ∈ c.st.payments, isTerminal p.status →
        ∃ p' ∈ c'.st.payments, p'.id = p.id ∧ p'.status = p.status :=
  ⟨fun _ hs => Proto.guar_step (lifecycle_start registry calls w) hr hs,
    fun _ hr' _ hp ht => terminal_stays hr hr' hp ht⟩

/-! ### Two webhooks for one payment -/

/-- A webhook job that reports `status`. -/
def sampleJob (status : ChargeStatus) : WebhookJob :=
  ⟨"webhook:fake:fake_key", "inbound", ⟨"fake", "payment.updated", "fake_key", status, .null⟩, 0⟩

/-- A job that reports a capture and one that reports a failure, on an AUTHORIZED payment. -/
def twoJobs : Conf machine Bool Unit :=
  startCalls .empty (fun t => .webhook (sampleJob (if t then .captured else .failed)))
    (World.withPayment (samplePayment .authorized))

/-- The first job reads the payment and writes it. -/
def firstJob : List (Bool × Decision) := [(true, {}), (true, {})]

theorem plays_firstJob : Conf.Plays FreshWrites twoJobs firstJob := by
  refine ⟨trivial, ?_, trivial⟩
  show ∀ q ∈ [samplePayment .authorized], q.id = "pay" → q.status = .authorized
  simp [samplePayment]

/-- The first job alone. -/
theorem lifecycle_sample :
    (∀ c', Conf.Step FreshWrites (twoJobs.play firstJob) c' →
        LifeCycle (twoJobs.play firstJob).st c'.st) ∧
      ∀ c', Conf.Reach FreshWrites (twoJobs.play firstJob) c' →
        ∀ p ∈ (twoJobs.play firstJob).st.payments, isTerminal p.status →
          ∃ p' ∈ c'.st.payments, p'.id = p.id ∧ p'.status = p.status :=
  lifecycle_of_fresh_writes .empty
    (fun t : Bool => .webhook (sampleJob (if t then .captured else .failed)))
    (World.withPayment (samplePayment .authorized)) _ (Conf.reach_play plays_firstJob)

/-- Both jobs read the payment, and the second one writes it. -/
def secondWrites : List (Bool × Decision) := [(true, {}), (false, {}), (false, {})]

/-- The payment has failed, and then it is captured. -/
theorem stale_write_leaves_failed :
    ¬ ∀ c c', Conf.Reach Conc.Any twoJobs c → Conf.Step Conc.Any c c' → LifeCycle c.st c'.st := by
  intro h
  have hl := h _ _ (Conf.reach_play (Conf.plays_any twoJobs secondWrites))
    (.mk (t := true) ({ newId := fun _ => "event" } : Decision) rfl trivial)
  revert hl
  decide

end Pasarela
