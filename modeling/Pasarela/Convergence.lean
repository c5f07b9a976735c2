import Pasarela.Sequential

/-!
# Webhooks converge

The provider takes a payment through a history of statuses, each of which is the one before or one
that the state machine allows after it. There is one webhook job for each status; the jobs are
attempted in any order, and one that throws stays. Reconciliations run in between, and report any
status of the history. No two of these overlap.

* `Delivered`: the database, and the jobs that are left. `Delivered.Step`: an attempt, or a
  reconciliation.
* `Tracks`: the status of the payment is one of the history, and a job that is gone has a status
  that the payment is not behind (`PaymentStatus.rank`).
* `successor_of_ne_last`: a status of the history which is not the last one has a successor in it.
  Its job is not gone, so an attempt at it changes the payment, until the last status is reached
  (`webhooks_converge`).
-/

namespace Pasarela

open Conc (Alone Prog)
open Store (Table)

/-! ## The history of a payment at its provider -/

/-- Each status is the one before or one that the state machine allows after it. -/
def ValidHistory : PaymentStatus → List ChargeStatus → Prop
  | _, [] => True
  | st, c :: cs => ∃ st', statusMap c = some st' ∧ Valid st st' ∧ ValidHistory st' cs

/-- The last status of the history. -/
def lastStatus : PaymentStatus → List ChargeStatus → PaymentStatus
  | st, [] => st
  | st, c :: cs => lastStatus ((statusMap c).getD st) cs

/-- The status is one of the history. -/
def OnHistory (st₀ : PaymentStatus) (cs : List ChargeStatus) (st : PaymentStatus) : Prop :=
  st = st₀ ∨ ∃ c ∈ cs, statusMap c = some st

/-- A status of the history which is not the last one has a successor. -/
theorem successor_of_ne_last {st₀ : PaymentStatus} {cs : List ChargeStatus} {st : PaymentStatus}
    (hv : ValidHistory st₀ cs) (ho : OnHistory st₀ cs st) (hl : st ≠ lastStatus st₀ cs) :
    ∃ c ∈ cs, ∃ st', statusMap c = some st' ∧ Valid st st' ∧ st ≠ st' := by
  induction cs generalizing st₀ with
  | nil =>
    rcases ho with rfl | ⟨c, hc, -⟩
    · exact absurd rfl hl
    · cases hc
  | cons c cs ih =>
    obtain ⟨st₁, hc, hv₁, hvs⟩ := hv
    rw [lastStatus, hc, Option.getD_some] at hl
    by_cases ho₁ : OnHistory st₁ cs st
    · obtain ⟨c', hc', h⟩ := ih hvs ho₁ hl
      exact ⟨c', List.mem_cons_of_mem _ hc', h⟩
    · rcases ho with rfl | ⟨c', hc', hst⟩
      · exact ⟨c, List.mem_cons_self, st₁, hc, hv₁, fun e => ho₁ (.inl e)⟩
      · rcases List.mem_cons.mp hc' with rfl | hc'
        · exact absurd (.inl (Option.some.inj (hst.symm.trans hc))) ho₁
        · exact absurd (.inr ⟨c', hc', hst⟩) ho₁

/-! ## The run -/

/-- The database, and the jobs that are left. -/
structure Delivered where
  world : World
  left : List WebhookJob

/-- An attempt, or a reconciliation of the payment `id` to which the provider reports a status with
`K` (module doc). -/
inductive Delivered.Step (registry : ProviderRegistry) (id : String) (K : ChargeStatus → Prop) :
    Delivered → Delivered → Prop
  | done {s : World} {l r : List WebhookJob} {job : WebhookJob} (ω : Op → Decision) :
    ((WebhookProcessor.process job).run ω s).result = .ok () →
    Step registry id K ⟨s, l ++ job :: r⟩
      ⟨((WebhookProcessor.process job).run ω s).state, l ++ r⟩
  | thrown {s : World} {l r : List WebhookJob} {job : WebhookJob} {e : Err} (ω : Op → Decision) :
    ((WebhookProcessor.process job).run ω s).result = .error e →
    Step registry id K ⟨s, l ++ job :: r⟩
      ⟨((WebhookProcessor.process job).run ω s).state, l ++ job :: r⟩
  | reconcile {s : World} {l : List WebhookJob} (ω : Op → Decision) :
    (∀ o r, (ω o).retrieve = .ok r → K r.status) →
    Step registry id K ⟨s, l⟩
      ⟨((ReconciliationService.reconcileOne registry id).run ω s).state, l⟩

/-- The run and the history agree so far (module doc). -/
structure Tracks (p : Payment) (jobs : List WebhookJob) (x : Delivered) (q : Payment) : Prop where
  mem : q ∈ x.world.payments
  id : q.id = p.id
  externalId : q.externalId = p.externalId
  providerId : q.providerId = p.providerId
  unique : ∀ a ∈ x.world.payments, a.externalId = p.externalId → a.providerId = p.providerId →
    a.id = p.id
  status : OnHistory .pending (jobs.map (·.event.status)) q.status
  gone : ∀ job ∈ jobs, job ∈ x.left ∨
    ∃ st, statusMap job.event.status = some st ∧ st.rank ≤ q.status.rank

section Run

variable {p q : Payment} {jobs : List WebhookJob} {s s' : World} {left : List WebhookJob}

theorem Tracks.unmoved (h : Tracks p jobs ⟨s, left⟩ q) (hs : Unmoved s s') :
    Tracks p jobs ⟨s', left⟩ q :=
  ⟨by rw [hs.payments]; exact h.mem, h.id, h.externalId, h.providerId,
    by rw [hs.payments]; exact h.unique, h.status, h.gone⟩

theorem Tracks.written (h : Tracks p jobs ⟨s, left⟩ q) {st : PaymentStatus}
    (hs : StatusWritten q st s s') (ho : OnHistory .pending (jobs.map (·.event.status)) st) :
    ∃ q', Tracks p jobs ⟨s', left⟩ q' ∧ q'.status = st := by
  obtain ⟨d, hrow, hmem⟩ := hs.row
  refine ⟨setStatus d st q, ⟨hrow, h.id, h.externalId, h.providerId, ?_, ho, ?_⟩, rfl⟩
  · intro a ha hext hprov
    rcases (hmem a).mp ha with ⟨ha, -⟩ | rfl
    · exact h.unique a ha hext hprov
    · exact h.id
  · intro job hjob
    rcases h.gone job hjob with hleft | ⟨st', hst', hle⟩
    · exact .inl hleft
    · exact .inr ⟨st', hst', hle.trans hs.valid.rank_le⟩

theorem Tracks.done {l r : List WebhookJob} {job : WebhookJob}
    (h : Tracks p jobs ⟨s, l ++ job :: r⟩ q) (hst : statusMap job.event.status = some q.status) :
    Tracks p jobs ⟨s, l ++ r⟩ q := by
  refine ⟨h.mem, h.id, h.externalId, h.providerId, h.unique, h.status, fun j hj => ?_⟩
  rcases h.gone j hj with hleft | hgone
  · rcases List.mem_append.mp hleft with hl | hr
    · exact .inl (List.mem_append_left _ hl)
    · rcases List.mem_cons.mp hr with rfl | hr
      · exact .inr ⟨q.status, hst, Nat.le_refl _⟩
      · exact .inl (List.mem_append_right _ hr)
  · exact .inr hgone

theorem Tracks.found {x : Delivered} (h : Tracks p jobs x q) {job : WebhookJob}
    (hjob : job.event.Matches p) {a : Payment} (ha : a ∈ x.world.payments)
    (hm : job.event.Matches a) : a = q :=
  Table.eq_of_key ha h.mem ((h.unique a ha (hm.1.trans hjob.1.symm)
    (hm.2.trans hjob.2.symm)).trans h.id.symm)

/-- An attempt: the run and the history agree after it, and if it did not throw, then the payment
has the status of the job. -/
theorem Tracks.attempt (h : Tracks p jobs ⟨s, left⟩ q) {job : WebhookJob} (hjob : job ∈ jobs)
    (hm : job.event.Matches p) (ω : Op → Decision) :
    ∃ q', Tracks p jobs ⟨((WebhookProcessor.process job).run ω s).state, left⟩ q' ∧
      (((WebhookProcessor.process job).run ω s).result = .ok () →
        statusMap job.event.status = some q'.status) := by
  cases process_run job ω s with
  | thrown e hr hs => exact ⟨q, h.unmoved hs, fun hok => by rw [hr] at hok; cases hok⟩
  | skipped a ha hma hst hs =>
    rw [h.found hm ha hma] at hst
    exact ⟨q, h.unmoved hs, fun _ => hst⟩
  | applied a st hma hst hne hs =>
    rw [h.found hm hs.mem hma] at hs
    obtain ⟨q', hq', rfl⟩ := h.written hs
      (.inr ⟨job.event.status, List.mem_map.mpr ⟨job, hjob, rfl⟩, hst⟩)
    exact ⟨q', hq', fun _ => hst⟩

theorem Tracks.reconcile (h : Tracks p jobs ⟨s, left⟩ q) (registry : ProviderRegistry)
    {ω : Op → Decision} (hω : ∀ o r, (ω o).retrieve = .ok r →
      r.status ∈ ChargeStatus.pending :: jobs.map (·.event.status)) :
    ∃ q', Tracks p jobs
      ⟨((ReconciliationService.reconcileOne registry p.id).run ω s).state, left⟩ q' := by
  have hrun : Reconciled (· ∈ ChargeStatus.pending :: jobs.map (·.event.status)) p.id s
      ((ReconciliationService.reconcileOne registry p.id).run ω s).state :=
    (reconcile_alone (A := fun o d => d = ω o) registry p.id fun o d r hd hr =>
      hω o r (by rw [← hd]; exact hr)).run fun _ => rfl
  rcases hrun with hs | ⟨a, st, c, hid, hc, hst, hs⟩
  · exact ⟨q, h.unmoved hs⟩
  · have ha : a = q := Table.eq_of_key hs.mem h.mem (hid.trans h.id.symm)
    rw [ha] at hs
    have ho : OnHistory .pending (jobs.map (·.event.status)) st := by
      rcases List.mem_cons.mp hc with rfl | hc
      · exact .inl (Option.some.inj hst).symm
      · exact .inr ⟨c, hc, hst⟩
    obtain ⟨q', hq', -⟩ := h.written hs ho
    exact ⟨q', hq'⟩

/-- An attempt, while database and queue work, at a job whose status the state machine allows. -/
theorem process_changes {job : WebhookJob} {st : PaymentStatus} (hq : q ∈ s.payments)
    (hm : job.event.Matches q) (hu : ∀ a ∈ s.payments, job.event.Matches a → a = q)
    (hst : statusMap job.event.status = some st) (hv : Valid q.status st) (hne : q.status ≠ st) :
    ∃ ω, ∃ a ∈ ((WebhookProcessor.process job).run ω s).state.payments,
      a.id = q.id ∧ a.status = st := by
  obtain ⟨ide, hide⟩ := Store.exists_fresh PaymentEvent.id s.events.rows
  let ω : Op → Decision := fun _ => { newId := fun _ => ide }
  refine ⟨ω, ?_⟩
  have halone : Alone (M := machine) (fun o d => d = ω o)
      (fun _ s' => ∃ a ∈ s'.payments, a.id = q.id ∧ a.status = st)
      (WebhookProcessor.process job) s := by
    refine Alone.perform_bind fun d r s₁ hd hx => ?_
    have hfound := exec_findPayment_of_mem (d := ω (.findPayment {
      externalId := some job.event.externalId, providerId := some job.event.providerId })) rfl hq
      (PaymentWhere.holds_external.mpr hm) fun a ha hw => hu a ha (PaymentWhere.holds_external.mp hw)
    rw [hd] at hx
    obtain ⟨rfl, rfl⟩ := Prod.mk.inj (hfound.symm.trans hx)
    show Alone (M := machine) _ _ (WebhookProcessor.processFound job q) s
    rw [WebhookProcessor.processFound, hst]
    simp only [if_neg hne, assertValidTransition_ok.mpr hv]
    refine Alone.perform_bind fun d r s₂ hd hx => ?_
    obtain ⟨s₂', hx'⟩ : ∃ s', exec (.applyWebhook q st job.event)
        (ω (.applyWebhook q st job.event)) s = (.ok (), s') :=
      exec_applyWebhook_of_fresh rfl ⟨q, hq, rfl⟩ hide
    rw [hd] at hx
    obtain ⟨rfl, rfl⟩ := Prod.mk.inj (hx'.symm.trans hx)
    rcases exec_applyWebhook hx' with ⟨e, he, -⟩ | ⟨q', -, hw⟩
    · cases he
    have hs : StatusWritten q st s s₂' := .of_written hq hv rfl hw
    refine Alone.perform_bind fun d r s₃ _ hx => ?_
    obtain ⟨d', hrow, -⟩ := (hs.exec (o := .markProcessed job.webhookInboundId) rfl hx).row
    cases r with
    | ok w => exact ⟨_, hrow, rfl, rfl⟩
    | error e => exact ⟨_, hrow, rfl, rfl⟩
  exact halone.run fun _ => rfl

theorem Tracks.step {x x' : Delivered} (h : Tracks p jobs x q) {registry : ProviderRegistry}
    (hm : ∀ job ∈ jobs, job.event.Matches p) (hl : ∀ job ∈ x.left, job ∈ jobs)
    (hs : Delivered.Step registry p.id (· ∈ ChargeStatus.pending :: jobs.map (·.event.status)) x x') :
    (∃ q', Tracks p jobs x' q') ∧ ∀ job ∈ x'.left, job ∈ jobs := by
  cases hs with
  | @done s l r job ω hok =>
    have hjob : job ∈ jobs := hl job (List.mem_append_right _ List.mem_cons_self)
    obtain ⟨q', hq', hst⟩ := h.attempt hjob (hm job hjob) ω
    refine ⟨⟨q', hq'.done (hst hok)⟩, fun j hj => hl j ?_⟩
    rcases List.mem_append.mp hj with hj | hj
    · exact List.mem_append_left _ hj
    · exact List.mem_append_right _ (List.mem_cons_of_mem _ hj)
  | @thrown s l r job e ω herr =>
    have hjob : job ∈ jobs := hl job (List.mem_append_right _ List.mem_cons_self)
    obtain ⟨q', hq', -⟩ := h.attempt hjob (hm job hjob) ω
    exact ⟨⟨q', hq'⟩, hl⟩
  | @reconcile s l ω hω => exact ⟨h.reconcile registry hω, hl⟩

theorem Tracks.reach {x x' : Delivered} (h : ∃ q, Tracks p jobs x q) {registry : ProviderRegistry}
    (hm : ∀ job ∈ jobs, job.event.Matches p) (hl : ∀ job ∈ x.left, job ∈ jobs)
    (hr : Relation.ReflTransGen (Delivered.Step registry p.id
      (· ∈ ChargeStatus.pending :: jobs.map (·.event.status))) x x') :
    (∃ q, Tracks p jobs x' q) ∧ ∀ job ∈ x'.left, job ∈ jobs := by
  induction hr with
  | refl => exact ⟨h, hl⟩
  | tail _ hs ih =>
    obtain ⟨⟨q, hq⟩, hl'⟩ := ih
    exact hq.step hm hl' hs

theorem Tracks.statusOf {x : Delivered} (h : Tracks p jobs x q) :
    x.world.statusOf p.id = some q.status := by
  have hfind : x.world.payments.find p.id = some q := Table.find_eq_some.mpr ⟨h.mem, h.id⟩
  rw [World.statusOf, hfind]
  rfl

/-- While the payment does not have the last status, some job that is left changes it. -/
theorem Tracks.progress {x : Delivered} (h : Tracks p jobs x q)
    (hm : ∀ job ∈ jobs, job.event.Matches p)
    (hv : ValidHistory .pending (jobs.map (·.event.status)))
    (hne : q.status ≠ lastStatus .pending (jobs.map (·.event.status))) :
    ∃ job ∈ x.left, ∃ ω, ((WebhookProcessor.process job).run ω x.world).state.statusOf p.id ≠
      some q.status := by
  obtain ⟨c, hc, st, hst, hvalid, hst_ne⟩ := successor_of_ne_last hv h.status hne
  obtain ⟨job, hjob, rfl⟩ := List.mem_map.mp hc
  have hleft : job ∈ x.left := by
    rcases h.gone job hjob with hleft | ⟨st', hst', hle⟩
    · exact hleft
    · obtain rfl : st = st' := Option.some.inj (hst.symm.trans hst')
      rcases hvalid.rank with he | hlt
      · exact absurd he hst_ne
      · omega
  have hmq : job.event.Matches q :=
    ⟨h.externalId.trans (hm job hjob).1, h.providerId.trans (hm job hjob).2⟩
  obtain ⟨ω, a, ha, hid, hsta⟩ := process_changes h.mem hmq
    (fun a ha hma => h.found (hm job hjob) ha hma) hst hvalid hst_ne
  refine ⟨job, hleft, ω, fun hsame => ?_⟩
  have hfind : ((WebhookProcessor.process job).run ω x.world).state.payments.find p.id = some a :=
    Table.find_eq_some.mpr ⟨ha, hid.trans h.id⟩
  rw [World.statusOf, hfind] at hsame
  exact hst_ne ((Option.some.inj hsame).symm.trans hsta)

end Run

/-- **Webhooks converge**: a payment that starts PENDING, and whose jobs report a history of its
provider, has the last status of the history in every state that a run reaches in which no attempt
at a job that is left would change its status. -/
theorem webhooks_converge (registry : ProviderRegistry) (w : World) (p : Payment)
    (jobs : List WebhookJob) (hp : p ∈ w.payments) (hpending : p.status = .pending)
    (hm : ∀ job ∈ jobs, job.event.Matches p)
    (hu : ∀ a ∈ w.payments, a.externalId = p.externalId → a.providerId = p.providerId → a = p)
    (hv : ValidHistory .pending (jobs.map (·.event.status))) (x : Delivered)
    (hr : Relation.ReflTransGen (Delivered.Step registry p.id
      (· ∈ ChargeStatus.pending :: jobs.map (·.event.status))) ⟨w, jobs⟩ x)
    (hstuck : ∀ job ∈ x.left, ∀ ω,
      ((WebhookProcessor.process job).run ω x.world).state.statusOf p.id = x.world.statusOf p.id) :
    x.world.statusOf p.id = some (lastStatus .pending (jobs.map (·.event.status))) := by
  have h₀ : Tracks p jobs ⟨w, jobs⟩ p :=
    ⟨hp, rfl, rfl, rfl, fun a ha he hprov => by rw [hu a ha he hprov], .inl hpending,
      fun job hjob => .inl hjob⟩
  obtain ⟨⟨q, hq⟩, -⟩ := Tracks.reach ⟨p, h₀⟩ hm (fun _ h => h) hr
  by_contra hne
  rw [hq.statusOf] at hne
  obtain ⟨job, hleft, ω, hchange⟩ := hq.progress hm hv fun e => hne (by rw [e])
  exact hchange ((hstuck job hleft ω).trans hq.statusOf)

/-! ### A capture that arrives before the authorization -/

/-- A job that reports `status`, with the delivery that it marks. -/
def reportJob (status : ChargeStatus) : WebhookJob :=
  ⟨"webhook:fake:fake_key", "inbound", ⟨"fake", "payment.updated", "fake_key", status, .null⟩, 0⟩

/-- The state with a PENDING payment and a delivery. -/
def deliveredWorld : World :=
  { World.withPayment (samplePayment .pending) with
    inbound := ⟨[⟨"inbound", "fake", "fake_key", [], .null, none, "received", 0⟩],
      List.nodup_singleton _, List.nodup_singleton _⟩ }

/-- The decisions under which nothing fails. -/
def noFailure : Op → Decision := fun _ => {}

/-- The state after the job that reports the capture. -/
def capturedWorld : World :=
  ((WebhookProcessor.process (reportJob .captured)).run noFailure deliveredWorld).state

theorem reach_capturedWorld (registry : ProviderRegistry) :
    Relation.ReflTransGen (Delivered.Step registry "pay"
      (· ∈ [ChargeStatus.pending, .authorized, .captured]))
      ⟨deliveredWorld, [reportJob .authorized, reportJob .captured]⟩
      ⟨capturedWorld, [reportJob .authorized]⟩ := by
  have h : Delivered.Step registry "pay" (· ∈ [ChargeStatus.pending, .authorized, .captured])
      ⟨deliveredWorld, [reportJob .authorized] ++ reportJob .captured :: []⟩
      ⟨capturedWorld, [reportJob .authorized] ++ []⟩ := .done noFailure rfl
  exact .single h

/-- No attempt at the job that reports the authorization changes the captured payment. -/
theorem authorization_stuck (ω : Op → Decision) :
    ((WebhookProcessor.process (reportJob .authorized)).run ω capturedWorld).state.statusOf "pay" =
      capturedWorld.statusOf "pay" := by
  have hstatus : ∀ q ∈ capturedWorld.payments, ¬ Valid q.status .authorized := by
    intro q hq
    rw [List.mem_singleton.mp hq]
    decide
  cases process_run (reportJob .authorized) ω capturedWorld with
  | thrown e hr hs => rw [World.statusOf, World.statusOf, hs.payments]
  | skipped q hq hm hst hs => rw [World.statusOf, World.statusOf, hs.payments]
  | applied q st hm hst hne hs =>
    obtain rfl : PaymentStatus.authorized = st := Option.some.inj hst
    exact absurd hs.valid (hstatus q hs.mem)

theorem webhooks_converge_sample : capturedWorld.statusOf "pay" = some .captured := by
  have h := webhooks_converge fakeRegistry deliveredWorld (samplePayment .pending)
    [reportJob .authorized, reportJob .captured] (List.mem_singleton.mpr rfl) rfl
    (fun job hj => by
      rcases List.mem_cons.mp hj with rfl | hj
      · exact ⟨rfl, rfl⟩
      · rw [List.mem_singleton.mp hj]
        exact ⟨rfl, rfl⟩)
    (fun a ha _ _ => List.mem_singleton.mp ha)
    ⟨_, rfl, by decide, _, rfl, by decide, trivial⟩ _ (reach_capturedWorld fakeRegistry)
    (fun job hj ω => by
      rw [List.mem_singleton.mp hj]
      exact authorization_stuck ω)
  exact h

end Pasarela
