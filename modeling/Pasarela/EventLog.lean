import Pasarela.Drafts
import Pasarela.Sequential

/-!
# The event log of a payment

A status is written by the two transactions of `create` and by those of a refund, a webhook and a
reconciliation, each with an event of the payment, and by the `catch` of `create`, alone.

* `LogsChanges`: with each status that a request changes, it adds one event of that payment.
* `changesOf`: how often the requests changed the status of a payment; `changesLogged`: the
  events of a payment after `payment.created`.
* `EventLogComplete`: no change is missing from the log, and the log only grows.
* `exec_logsChanges`: every request logs its changes, but for the update of the `catch`, which
  finds the payment PENDING (`finds_pending_along`) and so changes it. So the log of a run is
  complete iff none of its requests is that update, committed (`event_log_complete_iff`).
-/

namespace Pasarela

open Conc (Along Conf Event replay tally)
open Store (Table)

/-- The events of the payment after `payment.created`. -/
def World.changesLogged (s : World) (id : String) : Nat :=
  s.events.rows.countP fun ev => ev.paymentId = id ∧ ev.type ≠ "payment.created"

/-- The request changes the status of the payment. -/
def Changes (id : String) (e : Event machine) (s : World) : Prop :=
  s.statusOf id ≠ none ∧ (exec e.op e.dec s).2.statusOf id ≠ s.statusOf id

instance (id : String) (e : Event machine) (s : World) : Decidable (Changes id e s) :=
  inferInstanceAs (Decidable (_ ∧ _))

/-- A status that the request changes comes with one event (module doc). -/
def LogsChanges (e : Event machine) (s : World) : Prop :=
  ∀ id, Changes id e s → ∃ ev, ev.paymentId = id ∧ ev.type ≠ "payment.created" ∧
    (exec e.op e.dec s).2.events.rows = s.events.rows ++ [ev]

section Pool

variable {ι : Type}

/-- How often the requests changed the status of the payment. -/
def changesOf (id : String) (w : World) (tr : List (ι × Event machine)) : Nat :=
  tally (M := machine) (fun _ e s => if Changes id e s then 1 else 0) w tr

/-- The log after the requests `tr` from `w` (module doc). -/
structure EventLogComplete (w : World) (tr : List (ι × Event machine)) (s : World) : Prop where
  steps : Along (fun _ => LogsChanges) w tr
  counts : ∀ id, w.changesLogged id + changesOf id w tr ≤ s.changesLogged id
  grows : w.events.rows <+: s.events.rows

/-- The update of the `catch` of `create`, committed. -/
def failedUpdate : Event machine → Bool
  | ⟨.failPayment _ _, _, .ok _⟩ => true
  | _ => false

end Pool

/-! ## One request -/

section Request

variable {d : Decision} {s s' : World} {id : String}

theorem World.statusOf_of_payments (h : s'.payments = s.payments) :
    s'.statusOf id = s.statusOf id := by
  rw [World.statusOf, h, World.statusOf]

theorem World.statusOf_update_of_ne {id' : String} {f : Payment → Payment}
    {hf : Table.Keeps Payment.id Payment.tenantKey f} {q : Payment}
    (h : s.payments.update id' f hf = some (q, s'.payments)) (hne : id ≠ id') :
    s'.statusOf id = s.statusOf id := by
  rw [World.statusOf, Table.find_update_of_ne h hne, World.statusOf]

/-- A request that adds no event and writes no payment but new ones. -/
theorem logsChanges_of_same {e : Event machine}
    (h : ∀ id, s.statusOf id ≠ none → (exec e.op e.dec s).2.statusOf id = s.statusOf id) :
    LogsChanges e s :=
  fun id hc => absurd (h id hc.1) hc.2

theorem logsChanges_of_write {o : Op} {r : Except Err o.Ans} (hx : exec o d s = (r, s'))
    {id : String} {f : Payment → Payment} {hf : Table.Keeps Payment.id Payment.tenantKey f}
    {q : Payment} (hu : s.payments.update id f hf = some (q, s'.payments)) {type : String}
    {payload : Js.Json} (htype : type ≠ "payment.created")
    (hev : s.events.insert (newEvent d id type payload) = .ok s'.events) :
    LogsChanges ⟨o, d, r⟩ s := by
  intro id' hc
  obtain ⟨-, hne⟩ := hc
  rw [show (exec o d s).2 = s' by rw [hx]] at hne ⊢
  have hid : id' = id := by
    by_contra h
    exact hne (World.statusOf_update_of_ne hu h)
  exact ⟨_, hid.symm, htype, (Table.insert_ok hev).1⟩

/-- **Every request logs its changes**, but for the committed update of the `catch`. -/
theorem exec_logsChanges {o : Op} {r : Except Err o.Ans} (hx : exec o d s = (r, s'))
    (hf : failedUpdate ⟨o, d, r⟩ = false) : LogsChanges ⟨o, d, r⟩ s := by
  have hs : (exec o d s).2 = s' := by rw [hx]
  -- what a request that fails leaves
  have hfail : s' = s → LogsChanges ⟨o, d, r⟩ s := by
    rintro rfl
    exact logsChanges_of_same fun id _ => by rw [hs]
  have hchecked : ∀ payment st, o.checkedWrite = some (payment, st) → LogsChanges ⟨o, d, r⟩ s := by
    intro payment st ho
    rcases exec_checkedWrite ho hx with ⟨e, -, rfl⟩ | ⟨a, q, type, payload, -, ht, hu, hev⟩
    · exact hfail rfl
    · exact logsChanges_of_write hx hu ht hev
  cases o with
  | recordRefund payment st body amount result => exact hchecked payment st rfl
  | applyWebhook payment st event => exact hchecked payment st rfl
  | applyReconciliation payment st raw => exact hchecked payment st rfl
  | recordCharge payment result st =>
    rcases exec_recordCharge hx with ⟨e, -, rfl⟩ | ⟨q, -, hw⟩
    · exact hfail rfl
    · refine logsChanges_of_write hx hw.payments ?_ hw.events
      cases result.status <;> decide
  | failPayment payment message =>
    rcases exec_failPayment hx with ⟨e, -, rfl⟩ | ⟨q, rfl, -, -⟩
    · exact hfail rfl
    · cases hf
  | insertPayment orgId dto key providerId method =>
    rcases exec_insertPayment hx with ⟨e, -, rfl⟩ | ⟨p, -, hins⟩
    · exact hfail rfl
    · refine logsChanges_of_same fun id hid => ?_
      rw [hs]
      cases hfind : s.payments.find id with
      | none => rw [World.statusOf, hfind] at hid; exact absurd rfl hid
      | some q => rw [World.statusOf, World.statusOf, Table.find_insert hins.payments hfind, hfind]
  | _ =>
    refine logsChanges_of_same fun id _ => ?_
    rw [hs]
    exact World.statusOf_of_payments (exec_payments rfl hx)

theorem exec_events {o : Op} {r : Except Err o.Ans} (hx : exec o d s = (r, s')) :
    s.events.rows <+: s'.events.rows := by
  have hsame : s'.events = s.events → s.events.rows <+: s'.events.rows := fun h => by rw [h]
  have hins : ∀ {ev : PaymentEvent}, s.events.insert ev = .ok s'.events →
      s.events.rows <+: s'.events.rows := fun h => by
    rw [(Table.insert_ok h).1]
    exact List.prefix_append _ _
  have hchecked : ∀ payment st, o.checkedWrite = some (payment, st) →
      s.events.rows <+: s'.events.rows := by
    intro payment st ho
    rcases exec_checkedWrite ho hx with ⟨e, -, rfl⟩ | ⟨a, q, type, payload, -, -, -, hev⟩
    · exact hsame rfl
    · exact hins hev
  cases o with
  | recordRefund payment st body amount result => exact hchecked payment st rfl
  | applyWebhook payment st event => exact hchecked payment st rfl
  | applyReconciliation payment st raw => exact hchecked payment st rfl
  | recordCharge payment result st =>
    rcases exec_recordCharge hx with ⟨e, -, rfl⟩ | ⟨q, -, hw⟩
    · exact hsame rfl
    · exact hins hw.events
  | failPayment payment message =>
    rcases exec_failPayment hx with ⟨e, -, rfl⟩ | ⟨q, -, -, hs⟩
    · exact hsame rfl
    · exact hsame (by rw [hs])
  | insertPayment orgId dto key providerId method =>
    rcases exec_insertPayment hx with ⟨e, -, rfl⟩ | ⟨p, -, hp⟩
    · exact hsame rfl
    · exact hins hp.events
  | _ => exact hsame (by rw [exec_others rfl hx])

/-- The committed update of the `catch` changes a PENDING payment, and logs nothing. -/
theorem not_logsChanges_of_failedUpdate {e : Event machine}
    (hans : e.ans = (exec e.op e.dec s).1) (hf : failedUpdate e = true) (hp : FindsPending e s) :
    ¬ LogsChanges e s := by
  intro hlog
  obtain ⟨o, d, r⟩ := e
  unfold failedUpdate at hf
  split at hf
  · rename_i payment message d' p heq
    cases heq
    have hx : exec (.failPayment payment message) d s =
        (.ok p, (exec (.failPayment payment message) d s).2) := Prod.ext hans.symm rfl
    obtain ⟨q, hq, hid, hst, -⟩ := hp payment .failed rfl
    rcases exec_failPayment hx with ⟨e, he, -⟩ | ⟨a, ha, hu, hs⟩
    · cases he
    · obtain ⟨b, hb, hbid, hab, -⟩ := Table.update_some hu
      have hbefore : s.statusOf payment.id = some .pending := by
        rw [World.statusOf, Table.find_eq_some.mpr ⟨hq, hid⟩, ← hst]
        rfl
      have hafter : (exec (.failPayment payment message) d s).2.statusOf payment.id =
          some .failed := by
        rw [World.statusOf, Table.find_update_self hu, hab]
        rfl
      obtain ⟨ev, -, -, hev⟩ := hlog payment.id ⟨by rw [hbefore]; simp, by
        rw [show (exec _ d s).2.statusOf payment.id = _ from hafter, hbefore]; simp⟩
      rw [hs] at hev
      have hlen := congrArg List.length hev
      simp at hlen
  · cases hf

end Request

/-! ## Runs -/

section Runs

variable {ι : Type} {w : World} {tr : List (ι × Event machine)}

theorem changesOf_le (h : Along (fun _ => LogsChanges) w tr) (id : String) :
    w.changesLogged id + changesOf id w tr ≤ (replay (M := machine) w tr).changesLogged id := by
  induction tr generalizing w with
  | nil => simp [changesOf, tally]
  | cons x tr ih =>
    obtain ⟨t, e⟩ := x
    obtain ⟨hlog, hrest⟩ := h
    have hstep : w.changesLogged id + (if Changes id e w then 1 else 0) ≤
        (exec e.op e.dec w).2.changesLogged id := by
      by_cases hc : Changes id e w
      · obtain ⟨ev, hid, htype, hrows⟩ := hlog id hc
        have hone : World.changesLogged (exec e.op e.dec w).2 id = w.changesLogged id + 1 := by
          rw [World.changesLogged, hrows, List.countP_append, ← World.changesLogged]
          simp [hid, htype]
        rw [if_pos hc, hone]
      · rw [if_neg hc, Nat.add_zero]
        exact (exec_events (r := (exec e.op e.dec w).1) rfl).sublist.countP_le
    have hrest := ih hrest
    simp only [changesOf, tally, replay] at hrest ⊢
    omega

theorem events_prefix : w.events.rows <+: (replay (M := machine) w tr).events.rows := by
  induction tr generalizing w with
  | nil => exact List.prefix_rfl
  | cons x tr ih => exact (exec_events (r := (exec x.2.op x.2.dec w).1) rfl).trans ih

end Runs

/-- **The event log has every status change**: in every run of any operations, from any state, each
change of a payment's status is committed with one new event of that payment, and the changes of a
payment are no more than its events after `payment.created`, if and only if the run has no committed
update of the `catch` of `create`. -/
theorem event_log_complete_iff {ι : Type} [DecidableEq ι] (registry : ProviderRegistry)
    (calls : ι → ServiceCall) (w : World) (c : Conf machine ι Unit)
    (hr : Conf.Reach Conc.Any (startCalls registry calls w) c) :
    EventLogComplete w c.trace c.st ↔ ∀ t e, (t, e) ∈ c.trace → failedUpdate e = false := by
  have hfind := finds_pending_along hr
  have hans := Conf.Reach.answered hr
  constructor
  · rintro h t e he
    obtain ⟨s, ⟨hlog, hp⟩, ha⟩ := ((h.steps.and hfind).and hans).of_mem he
    by_contra hf
    exact not_logsChanges_of_failedUpdate ha (by simpa using hf) hp hlog
  · intro h
    have hall : Along (M := machine) (fun _ e _ => failedUpdate e = false) w c.trace :=
      Conc.along_iff_forall.mpr fun x hx => h x.1 x.2 hx
    have hsteps : Along (fun _ => LogsChanges) w c.trace := by
      refine (hall.and hans).mono fun t e s ⟨hf, ha⟩ => ?_
      obtain ⟨o, d, r⟩ := e
      exact exec_logsChanges (Prod.ext ha.symm rfl) hf
    refine ⟨hsteps, fun id => ?_, ?_⟩
    · rw [Conf.Reach.replay hr]
      exact changesOf_le hsteps id
    · rw [Conf.Reach.replay hr]
      exact events_prefix

/-! ### One `create` call -/

def oneCreate : Conf machine Unit Unit :=
  startCalls fakeRegistry (fun _ => .payments (.create sampleDto (some "key") sampleCtx))
    World.empty

/-- The payment is inserted, and the provider does `x`. -/
def createSteps (x : Remote ChargeResult) : List (Unit × Decision) := [
  ((), {}), ((), {}), ((), { newId := fun _ => "pay" }), ((), { charge := x }),
  ((), { newId := fun _ => "event" }), ((), { newId := fun _ => "other" })]

/-- The provider captures the charge. -/
def capturedCreate : Conf machine Unit Unit :=
  oneCreate.play (createSteps (.answered ⟨"fake_key", .captured, .null⟩))

theorem event_log_sample :
    EventLogComplete World.empty capturedCreate.trace capturedCreate.st := by
  refine (event_log_complete_iff fakeRegistry _ World.empty capturedCreate
    (Conf.reach_play (Conf.plays_any _ _))).mpr fun t e he => ?_
  have hall : capturedCreate.trace.all (fun x => !failedUpdate x.2) = true := by decide +kernel
  simpa using List.all_eq_true.mp hall (t, e) he

/-- The provider refuses the charge. -/
def refusedCreate : Conf machine Unit Unit :=
  oneCreate.play (createSteps (.refused (.other "refused")))

/-- The payment has failed, and its log ends with its creation. -/
theorem failure_not_logged : ¬ ∀ c, Conf.Reach Conc.Any oneCreate c →
    EventLogComplete World.empty c.trace c.st := by
  intro h
  have hcounts := (h refusedCreate (Conf.reach_play (Conf.plays_any _ _))).counts "pay"
  revert hcounts
  decide +kernel

end Pasarela
