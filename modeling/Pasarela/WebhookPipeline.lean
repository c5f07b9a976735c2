import Pasarela.WebhookStages

/-!
# What becomes of a webhook

Any run of deliveries, workers at their jobs, and what BullMQ and the other parts of the program do
in between (`startPipeline`).

* `call_wp`: every call keeps the protocol.
* `webhook_attempts_bounded`: one job is added for an event, and workers take it a few times.
* `given_up_for_good`: a job that has finished, complete or not, is done with.
* `inbound_tells`: what the rows of the deliveries say is so.
-/

namespace Pasarela

open Conc (Any Conf Event Owning Prog Proto replay)
open Store (Life RetryLib Table Taken)

section Machine

variable {n : Nat} {lib : WebhookLib n} {ι : Type}

/-! ## The calls -/

section Calls

variable {α β : Type}

theorem inPipeline_bind (p : Prog machine α) (f : α → Prog machine β) :
    inPipeline lib (p.bind f) = (inPipeline lib p).bind fun a => inPipeline lib (f a) := by
  induction p with
  | ret a => rfl
  | throw e => rfl
  | op o k ih => exact congrArg (Prog.op (M := pipelineMachine lib) (.inl o)) (funext ih)

theorem inPipeline_request (o : Op) :
    inPipeline lib (request o) = Prog.perform (M := pipelineMachine lib) (.inl o) := by
  refine congrArg (Prog.op (M := pipelineMachine lib) (.inl o)) (funext fun r => ?_)
  cases r with
  | ok a => rfl
  | error e => rfl

theorem inPipeline_ofExcept (r : Except Err α) : inPipeline lib (.ofExcept r) = .ofExcept r := by
  cases r with
  | ok a => rfl
  | error e => rfl

variable [DecidableEq ι] {w₀ : Pipeline lib} {t : ι}

theorem service_bind {o : Op} {f : o.Ans → Prog machine β}
    {Q : Except Err β → JobStage → Prop} {g : JobStage} (ho : ∀ p i x, o ≠ .enqueueWebhook p i x)
    (h : ∀ G s tr d r (w : World), G t = g → (jobProto ι w₀).inv G s tr →
      exec o d s.world = (r, w) → Made s ⟨.inl o, d, r⟩ { s with world := w } →
      queueAct (⟨.inl o, d, r⟩ : Event (pipelineMachine lib)) = none →
      ∃ g', (jobProto ι w₀).inv (Function.update G t g') { s with world := w }
          (tr ++ [(t, ⟨.inl o, d, r⟩)]) ∧
        (∀ a, r = .ok a → (jobProto ι w₀).WP t Q (inPipeline lib (f a)) g') ∧
        ∀ err, r = .error err → Q (.error err) g') :
    (jobProto ι w₀).WP t Q (inPipeline lib ((request o).bind f)) g := by
  rw [inPipeline_bind, inPipeline_request]
  refine Proto.WP.perform_bind fun G s tr d r s' hG hi _ hx => ⟨trivial, ?_⟩
  have hexec := hx
  rw [exec_inl ho] at hx
  obtain ⟨hr, rfl⟩ := Prod.mk.inj hx
  have hq : queueAct (⟨.inl o, d, r⟩ : Event (pipelineMachine lib)) = none := by
    cases o with
    | enqueueWebhook p i x => exact absurd rfl (ho p i x)
    | _ => rfl
  obtain ⟨g', hi', hok, herr⟩ :=
    h G s tr d r _ hG hi (Prod.ext hr rfl) hexec hq
  refine ⟨g', hi', ?_⟩
  cases r with
  | ok a => exact hok a rfl
  | error err => exact herr err rfl

theorem enqueue_wp {providerId inboundId : String} {event : WebhookEvent} :
    (jobProto ι w₀).WP t (fun _ _ => True) (inPipeline lib
      ((request (.enqueueWebhook providerId inboundId event)).bind fun _ => .ret (⟨true⟩ : Received)))
      (.stored providerId event.externalId inboundId) := by
  rw [inPipeline_bind, inPipeline_request]
  refine Proto.WP.perform_bind fun G s tr d r s' hG hi _ hx => ⟨trivial, ?_⟩
  have hfact : jobFact w₀ (G t) (s, tr) := hi.1.fact t
  rw [hG] at hfact
  obtain ⟨hp, hrow, hnil⟩ := hfact
  have hexec : Made s ⟨.inl (.enqueueWebhook providerId inboundId event), d, r⟩ s' := hx
  obtain ⟨hr, hs'⟩ := Prod.mk.inj hx
  cases hd : d.fail with
  | some err =>
    have hfail := exec_of_fail (s := s.world)
      (o := .enqueueWebhook providerId inboundId event) rfl hd
    rw [hfail] at hr hs'
    subst hr
    refine ⟨.idle, learn hi hexec rfl ?_ trivial rfl, trivial⟩
    rw [← hs', Pipeline.enqueue_world]
  | none =>
    rw [exec_enqueueWebhook hd] at hr hs'
    subst hr
    have hin : s'.world.inbound = s.world.inbound := by
      rw [← hs', Pipeline.enqueue_world]
    refine ⟨.idle, ⟨hi.1.step trivial (fun k hk => by cases hk) ?_,
      hi.2.enqueue (newJob d providerId inboundId event) hexec rfl hin hp hrow hnil⟩, trivial⟩
    -- the other calls are to add other jobs
    intro u g _ hu hne
    refine jobFact_mono hu (.of_inbound hin) fun p x hown => ?_
    have hp' : ':' ∉ p.toList := by
      cases g with
      | stored p' x' id =>
        cases hown
        exact hu.1
      | _ => cases hown
    simp only [queueAct, ofJob]
    split
    · rename_i hk
      obtain ⟨rfl, rfl⟩ := webhookJobId_key hp hp' hk
      exact absurd (by rw [hG]; rfl) (hne _ hown)
    · rfl

omit [DecidableEq ι] in
/-- The id of a registered provider. -/
theorem registered_id {registry : ProviderRegistry} {providerId : String}
    {provider : PaymentProvider}
    (hids : ∀ provider ∈ registry.providers, ':' ∉ provider.id.toList)
    (hp : registry.get providerId = .ok provider) : ':' ∉ providerId.toList := by
  rw [ProviderRegistry.get] at hp
  split at hp
  · rename_i q hq
    have hid : q.id = providerId := by simpa using List.find?_some hq
    rw [← hid]
    exact hids q (List.mem_of_find?_eq_some hq)
  · cases hp

/-- **A delivery keeps the protocol.** -/
theorem handle_wp {registry : ProviderRegistry}
    (hids : ∀ provider ∈ registry.providers, ':' ∉ provider.id.toList) (providerId : String)
    (raw : Buffer) (headers : Headers) :
    (jobProto ι w₀).WP t (fun _ _ => True)
      (inPipeline lib (WebhooksController.handle registry providerId raw headers)) .idle := by
  show (jobProto ι w₀).WP t _ (inPipeline lib ((Prog.ofExcept (M := machine) _).bind _)) _
  rw [inPipeline_bind, inPipeline_ofExcept]
  refine Proto.WP.ofExcept_bind (fun provider hprov => ?_) fun _ _ => trivial
  show (jobProto ι w₀).WP t _ (inPipeline lib ((Prog.ofExcept (M := machine) _).bind _)) _
  rw [inPipeline_bind, inPipeline_ofExcept]
  refine Proto.WP.ofExcept_bind (fun event _ => ?_) fun _ _ => trivial
  have hp : ':' ∉ providerId.toList := registered_id hids hprov
  refine service_bind (fun p i x h => by cases h) fun G s tr d r w hG hi hx hm hq => ?_
  have hw : s.world = w := by
    simp only [exec, query] at hx
    exact (Prod.mk.inj hx).2
  refine ⟨.idle, learn hi hm hq (by rw [← hw]) trivial rfl, fun existing _ => ?_, fun _ _ => trivial⟩
  cases existing with
  | some row => trivial
  | none =>
    refine service_bind (fun p i x h => by cases h) fun G s tr d r w hG hi hx hm hq => ?_
    rcases exec_createInbound hx with ⟨err, rfl, rfl⟩ | ⟨rfl, hins, -⟩
    · exact ⟨.idle, learn hi hm hq rfl trivial rfl, (fun _ h => by cases h), fun _ _ => trivial⟩
    · obtain ⟨hinv, hg⟩ := hi.2.create hins hm hq rfl
      have hadd : NoAdd (⟨.inl (.createInbound providerId event headers), d, _⟩ :
          Event (pipelineMachine lib)) := fun k => by
        rw [hq]
        rfl
      refine ⟨.stored providerId event.externalId (d.newId .webhookInbound),
        ⟨move_on hi.1 hadd hg ⟨hp, ?_, ?_⟩ fun k hk => .inr fun u hu => ?_, hinv⟩,
        fun row hrow => ?_, (fun _ h => by cases h)⟩
      · exact ⟨_, (Table.mem_insert hins).mpr (.inr rfl), rfl, rfl⟩
      · rw [hadd.jobsAdded]
        exact created_fresh hi.2 hp hins
      · -- a call that stored a row with this key has it in the table
        cases hk
        have hfact : jobFact w₀ (G u) (s, tr) := hi.1.fact u
        cases hgu : G u with
        | stored p x id =>
          rw [hgu] at hu hfact
          cases hu
          obtain ⟨-, ⟨row, hr, -, hkey⟩, -⟩ := hfact
          exact (Table.insert_ok hins).2.2 row hr hkey
        | _ => rw [hgu] at hu; cases hu
      · cases hrow
        exact enqueue_wp

/-- `process` returned, and its delivery is marked; or it threw. -/
def ProcessEnd (jobId : String) (job : WebhookJob) (r : Except Err Unit) (g : JobStage) : Prop :=
  r = .ok () → g = .applied jobId job

/-- Every status of an event has an entry. -/
theorem statusMap_isSome (status : ChargeStatus) : (statusMap status).isSome := by
  cases status <;> rfl

/-- The mark of a job that is reflected. -/
theorem markProcessed_wp {jobId : String} {job : WebhookJob} :
    (jobProto ι w₀).WP t (ProcessEnd jobId job)
      (inPipeline lib (WebhookProcessor.markProcessed job.webhookInboundId))
      (.reflected jobId job) := by
  refine service_bind (fun p i x h => by cases h) fun G s tr d r w hG hi hx hm hq => ?_
  have hfact : jobFact w₀ (G t) (s, tr) := hi.1.fact t
  rw [hG] at hfact
  obtain ⟨hjob, href⟩ := hfact
  rcases atomically_eq hx with ⟨err, rfl, rfl⟩ | ⟨row, rfl, htx⟩
  · exact ⟨.reflected jobId job, keep_stage hi hG hm hq rfl, (fun _ h => by cases h),
      fun _ _ h => by cases h⟩
  · obtain ⟨inbound, hup, rfl⟩ := updateIn_ok.mp htx
    obtain ⟨hinv, hg, hmark⟩ := hi.2.mark hup hm hq rfl hjob href
    have hadd : NoAdd (⟨.inl (.markProcessed job.webhookInboundId), d, .ok row⟩ :
        Event (pipelineMachine lib)) := fun k => by
      rw [hq]
      rfl
    exact ⟨.applied jobId job, ⟨move_on hi.1 hadd hg ⟨mem_jobsAdded_snoc hjob, hmark⟩
      (fun k hk => by cases hk), hinv⟩, (fun _ _ _ => rfl), fun _ h => by cases h⟩

theorem processFound_same {jobId : String} {job : WebhookJob} {payment : Payment}
    (hst : statusMap job.event.status = some payment.status) :
    (jobProto ι w₀).WP t (ProcessEnd jobId job)
      (inPipeline lib (WebhookProcessor.processFound job payment)) (.reflected jobId job) := by
  have heq : WebhookProcessor.processFound job payment =
      WebhookProcessor.markProcessed job.webhookInboundId := by
    rw [WebhookProcessor.processFound, hst]
    exact if_pos rfl
  rw [heq]
  exact markProcessed_wp

theorem processFound_apply {jobId : String} {job : WebhookJob} {payment : Payment}
    (hst : statusMap job.event.status ≠ some payment.status) :
    (jobProto ι w₀).WP t (ProcessEnd jobId job)
      (inPipeline lib (WebhookProcessor.processFound job payment))
      (.found jobId job payment.id) := by
  obtain ⟨newStatus, hnew⟩ := Option.isSome_iff_exists.mp (statusMap_isSome job.event.status)
  have heq : WebhookProcessor.processFound job payment =
      (Prog.ofExcept (M := machine) (assertValidTransition payment.status newStatus)).bind fun _ =>
        (request (.applyWebhook payment newStatus job.event)).bind fun _ =>
          WebhookProcessor.markProcessed job.webhookInboundId := by
    rw [WebhookProcessor.processFound, hnew]
    exact if_neg fun he => hst (by rw [hnew, he])
  rw [heq, inPipeline_bind, inPipeline_ofExcept]
  refine Proto.WP.ofExcept_bind (fun _ _ => ?_) fun _ _ h => by cases h
  refine service_bind (fun p i x h => by cases h) fun G s tr d r w hG hi hx hm hq => ?_
  rcases exec_applyWebhook hx with ⟨err, rfl, rfl⟩ | ⟨q, rfl, hw⟩
  · exact ⟨_, keep_stage hi hG hm hq rfl, (fun _ h => by cases h), fun _ _ h => by cases h⟩
  have hin : w.inbound = s.world.inbound := by rw [hw.others]
  have hfact : jobFact w₀ (G t) (s, tr) := hi.1.fact t
  rw [hG] at hfact
  obtain ⟨hjob, hfound⟩ := hfact
  obtain ⟨old, -, hid, rfl, -⟩ := Table.update_some hw.payments
  have hrow := (Table.mem_update hw.payments).mpr (.inr rfl)
  refine ⟨.reflected jobId job, learn hi hm hq hin ⟨mem_jobsAdded_snoc hjob, ?_⟩ rfl, fun _ _ => ?_,
    fun _ h => by cases h⟩
  · exact hfound.snoc.reflected (hi.2.quiet hm hq hin).replayed hrow hid hnew
  · exact markProcessed_wp

/-- **An attempt of `process`**: when it returns, its delivery is marked. -/
theorem process_wp {jobId : String} {job : WebhookJob} :
    (jobProto ι w₀).WP t (ProcessEnd jobId job) (inPipeline lib (WebhookProcessor.process job))
      (.working jobId job) := by
  refine service_bind (fun p i x h => by cases h) fun G s tr d r w hG hi hx hm hq => ?_
  have hfact : jobFact w₀ (G t) (s, tr) := hi.1.fact t
  rw [hG] at hfact
  obtain ⟨rfl, ⟨err, rfl⟩ | ⟨rfl, -⟩ | ⟨payment, rfl, hp, hholds⟩⟩ := exec_findPayment hx
  · exact ⟨_, keep_stage hi hG hm hq rfl, (fun _ h => by cases h), fun _ _ h => by cases h⟩
  · refine ⟨_, keep_stage hi hG hm hq rfl, fun _ h => ?_, fun _ h => by cases h⟩
    cases h
    exact fun h => by cases h
  have hfound : FoundPayment w₀ job tr payment.id := by
    refine ⟨tr.length, le_rfl, payment, ?_, rfl, PaymentWhere.holds_external.mp hholds⟩
    rw [List.take_length, ← hi.2.replayed]
    exact hp
  by_cases hst : statusMap job.event.status = some payment.status
  · refine ⟨.reflected jobId job, learn hi hm hq rfl ⟨mem_jobsAdded_snoc hfact, ?_⟩ rfl,
      fun a ha => ?_, fun _ h => by cases h⟩
    · exact (hfound.reflected hi.2.replayed hp rfl hst).snoc
    · cases ha
      exact processFound_same hst
  · refine ⟨.found jobId job payment.id, learn hi hm hq rfl ⟨mem_jobsAdded_snoc hfact, hfound.snoc⟩
      rfl, fun a ha => ?_, fun _ _ h => by cases h⟩
    cases ha
    exact processFound_apply hst

section Requests

variable {G : ι → JobStage} {g : JobStage} {s s' : Pipeline lib}
  {tr : List (ι × Event (pipelineMachine lib))} {o : JobOp} {d : Decision} {r : Except Err o.Ans}

/-- A call that is to report that a job is complete has processed it. -/
def MayReport (o : JobOp) (g : JobStage) : Prop :=
  ∀ k token, o.event = some (k, .complete token) → ∃ job, g = .applied k job

theorem request_keep (hi : (jobProto ι w₀).inv G s tr) (hG : G t = g)
    (hm : Made s ⟨.inr o, d, r⟩ s') (hdone : MayReport o g) :
    (jobProto ι w₀).inv (Function.update G t g) s' (tr ++ [(t, ⟨.inr o, d, r⟩)]) ∧
      NoAdd (⟨.inr o, d, r⟩ : Event (pipelineMachine lib)) := by
  have hfact : jobFact w₀ (G t) (s, tr) := hi.1.fact t
  rw [hG] at hfact
  have quiet : ∀ {s' : Pipeline lib}, Made s ⟨.inr o, d, r⟩ s' →
      queueAct (⟨.inr o, d, r⟩ : Event (pipelineMachine lib)) = none →
      s'.world.inbound = s.world.inbound →
      (jobProto ι w₀).inv (Function.update G t g) s' (tr ++ [(t, ⟨.inr o, d, r⟩)]) ∧
        NoAdd (⟨.inr o, d, r⟩ : Event (pipelineMachine lib)) :=
    fun hm hq hin => ⟨keep_stage hi hG hm hq hin, fun k => by rw [hq]; rfl⟩
  rcases made_inr hm with ⟨err, rfl, rfl⟩ | ⟨a, rfl, h⟩
  · exact quiet hm (queueAct_error o d err) rfl
  rcases execJob_ok h with ⟨k, ev, ho, rfl⟩ | ⟨ho, -, hin⟩
  · have hadd : addedJob ev = none := by cases o <;> cases ho <;> rfl
    obtain ⟨hinv, hno⟩ := hi.2.event (t := t) hm ((queueAct_ok o d a).trans ho) hadd rfl
      fun token he => by
        obtain ⟨job, rfl⟩ := hdone k token (by rw [ho, he])
        exact ⟨job, hfact⟩
    refine ⟨⟨move_on hi.1 hno (.of_inbound rfl) ?_ fun x hx => .inl (by rw [hG]; exact hx), hinv⟩,
      hno⟩
    exact jobFact_mono hfact (.of_inbound rfl) fun p x _ => hno (webhookJobId p x)
  · exact quiet hm ((queueAct_ok o d a).trans ho) hin

/-- The last request of a worker. -/
theorem jobRequest_wp {o : JobOp} (hdone : MayReport o g) :
    (jobProto ι w₀).WP t (fun _ _ => True) (jobRequest lib o) g :=
  Proto.WP.perform fun _ _ _ _ _ _ hG hi _ hx =>
    ⟨trivial, g, (request_keep hi hG hx hdone).1, trivial⟩

/-- **An attempt keeps the protocol.** -/
theorem attempt_wp (jobId : String) :
    (jobProto ι w₀).WP t (fun _ _ => True) (attempt lib jobId) .idle := by
  refine Proto.WP.perform_bind fun G s tr d r s' hG hi _ hx => ⟨trivial, ?_⟩
  have hmay : MayReport (.take jobId) .idle := fun k token h => by cases h
  obtain ⟨⟨hown, hinv⟩, hno⟩ := request_keep hi hG hx hmay
  cases r with
  | error err => exact ⟨.idle, ⟨hown, hinv⟩, trivial⟩
  | ok a =>
    obtain ⟨job, token⟩ := a
    obtain ⟨live, hl, rfl, rfl⟩ : ∃ live, lib.life s.queue jobId = .live live ∧ job = live.data ∧
        s' = s.on jobId .take := by
      rcases made_inr hx with ⟨err, herr, -⟩ | ⟨a, ha, h⟩
      · cases herr
      · cases ha
        obtain ⟨⟨live, hl, -, hdata⟩, hs⟩ := take_ok h
        exact ⟨live, hl, hdata, hs⟩
    refine ⟨.working jobId live.data, ⟨move_on hi.1 hno (.of_inbound rfl) ?_
      (fun k hk => by cases hk), hinv⟩, ?_⟩
    · exact mem_jobsAdded_snoc (hi.2.live jobId live hl)
    · -- what the attempt came to decides what the worker reports
      have hdone : (jobProto ι w₀).WP t (fun r g => r = .ok true → g = .applied jobId live.data)
          (((inPipeline lib (WebhookProcessor.process live.data)).bind fun _ => .ret true).tryCatch
            fun _ => .ret false) (.working jobId live.data) := by
        refine Proto.WP.tryCatch (Proto.WP.bind (process_wp.mono fun r g hr => ?_))
        cases r with
        | ok u => exact fun _ => hr rfl
        | error err => exact fun h => by cases h
      refine Proto.WP.bind (hdone.mono fun r g hr => ?_)
      cases r with
      | error err => trivial
      | ok done =>
        cases done with
        | true =>
          obtain rfl := hr rfl
          exact jobRequest_wp fun k tok h => by cases h; exact ⟨live.data, rfl⟩
        | false => exact jobRequest_wp fun k tok h => by cases h

end Requests

/-- **Every call keeps the protocol.** -/
theorem call_wp {registry : ProviderRegistry}
    (hids : ∀ provider ∈ registry.providers, ':' ∉ provider.id.toList) (call : PipelineCall) :
    (jobProto ι w₀).WP t (fun _ _ => True) (call.prog lib registry) .idle := by
  cases call with
  | deliver providerId raw headers =>
    refine Proto.WP.bind ((handle_wp hids providerId raw headers).mono fun r g _ => ?_)
    cases r <;> trivial
  | attempt jobId => exact attempt_wp jobId
  | promote jobId => exact jobRequest_wp fun k tok h => by cases h
  | stall jobId => exact jobRequest_wp fun k tok h => by cases h
  | remove jobId => exact jobRequest_wp fun k tok h => by cases h
  | change w => exact jobRequest_wp fun k tok h => by cases h

end Calls

/-! ## Runs -/

section Runs

variable [DecidableEq ι] {registry : ProviderRegistry} {calls : ι → PipelineCall} {w : World}
  {c c' : Conf (pipelineMachine lib) ι Unit} {jobId : String}

variable (lib) in
/-- The state before the first request. -/
def firstState (w : World) : Pipeline lib := ⟨{ w with inbound := .empty }, lib.empty⟩

theorem jobProto_start (hids : ∀ provider ∈ registry.providers, ':' ∉ provider.id.toList) :
    (jobProto ι (firstState lib w)).Ok (fun _ _ _ => True) (startPipeline lib registry calls w) := by
  refine ⟨fun _ => .idle, ⟨Owning.Inv.start (fun _ => trivial) rfl, ?_⟩, fun t =>
    call_wp hids (calls t)⟩
  exact
    { replayed := rfl
      genuine := trivial
      once := fun _ => Nat.zero_le _
      row := fun _ _ h => by cases h
      live := fun k job h => by
        have habsent : lib.life lib.empty k = .live job := h
        rw [lib.life_empty] at habsent
        cases habsent
      completed := fun _ _ h => by cases h
      status := fun _ h => by cases h }

/-- The invariant holds in every state that a run reaches. -/
theorem pipeline_inv (hids : ∀ provider ∈ registry.providers, ':' ∉ provider.id.toList)
    (hr : Conf.Reach Any (startPipeline lib registry calls w) c) :
    Pipeline.Inv (firstState lib w) c.st c.trace := by
  obtain ⟨G, hi, -⟩ := Proto.sound (jobProto_start hids) hr
  exact hi.2

/-- The counts of a run. -/
theorem pipeline_taken (hr : Conf.Reach Any (startPipeline lib registry calls w) c)
    (jobId : String) : Taken (webhookRetries n) (lib.life c.st.queue jobId)
      (jobsAdded jobId c.trace).length (takes jobId c.trace) := by
  have hreplay : c.st = replay (firstState lib w) c.trace := hr.replay
  rw [hreplay]
  exact taken_replay (fun k => lib.life_empty k) hr.answered jobId

omit [DecidableEq ι] in
/-- One more request, after the job of an id has finished: the job stays finished. -/
theorem finished_step {w₀ s s' : Pipeline lib} {tr : List (ι × Event (pipelineMachine lib))} {t : ι}
    {e : Event (pipelineMachine lib)} (hx : Made s e s') (hadded : jobsAdded jobId tr ≠ [])
    (hfin : (lib.life s.queue jobId).job? = none)
    (hinv : Pipeline.Inv w₀ s' (tr ++ [(t, e)])) :
    (lib.life s'.queue jobId).job? = none ∧ jobsAdded jobId (tr ++ [(t, e)]) ≠ [] ∧
      takes jobId (tr ++ [(t, e)]) = takes jobId tr := by
  have honce := hinv.once jobId
  have hpos : 0 < (jobsAdded jobId tr).length := List.length_pos_iff.mpr hadded
  rw [jobsAdded_snoc, List.length_append] at honce
  have hnone : (ofJob jobId (queueAct e)).bind addedJob = none := by
    cases h : (ofJob jobId (queueAct e)).bind addedJob with
    | none => rfl
    | some job =>
      rw [h, Option.toList_some, List.length_singleton] at honce
      omega
  obtain ⟨hlife, hready⟩ := queue_step hx jobId
  rw [jobsAdded_snoc, hnone, takes_snoc, hlife, actOn]
  refine ⟨?_, by simpa using hadded, ?_⟩
  · cases hev : ofJob jobId (queueAct e) with
    | none => exact hfin
    | some ev =>
      refine Life.job?_on hfin ?_
      rw [hev] at hnone
      cases ev with
      | add job => cases hnone
      | _ => rfl
  · cases hev : ofJob jobId (queueAct e) with
    | none => rfl
    | some ev =>
      cases ev with
      | take =>
        have hr := hready hev
        cases hl : lib.life s.queue jobId with
        | live job => rw [hl] at hfin; cases hfin
        | absent => rw [hl] at hr; cases hr
        | ended en => rw [hl] at hr; cases hr
      | _ => rfl

theorem finished_run (hids : ∀ provider ∈ registry.providers, ':' ∉ provider.id.toList)
    (hr : Conf.Reach Any (startPipeline lib registry calls w) c) (hr' : Conf.Reach Any c c')
    (hadded : jobsAdded jobId c.trace ≠ []) (hfin : (lib.life c.st.queue jobId).job? = none) :
    (lib.life c'.st.queue jobId).job? = none ∧ jobsAdded jobId c'.trace ≠ [] ∧
      takes jobId c'.trace = takes jobId c.trace := by
  induction hr' with
  | refl => exact ⟨hfin, hadded, rfl⟩
  | tail hrun hstep ih =>
    obtain ⟨hfin', hadded', htakes⟩ := ih
    have hinv := pipeline_inv hids ((hr.trans hrun).tail hstep)
    obtain ⟨d, -, -⟩ := hstep
    rename_i b t o k
    have hx : Made b.st (.of o d b.st) (b.next t o k d).st := rfl
    obtain ⟨h₁, h₂, h₃⟩ := finished_step hx hadded' hfin' hinv
    exact ⟨h₁, h₂, h₃.trans htakes⟩

/-- The delivery of a job is stored. -/
theorem recorded_of_added (hids : ∀ provider ∈ registry.providers, ':' ∉ provider.id.toList)
    (hr : Conf.Reach Any (startPipeline lib registry calls w) c) {providerId externalId : String}
    {provider : PaymentProvider} (hp : registry.get providerId = .ok provider)
    (hadded : jobsAdded (webhookJobId providerId externalId) c.trace ≠ []) :
    Recorded providerId externalId c.st.world := by
  obtain ⟨job, hjob⟩ := List.exists_mem_of_ne_nil _ hadded
  obtain ⟨p, hpc, hk, row, hrow, -, hkey⟩ := (pipeline_inv hids hr).row _ job hjob
  obtain ⟨rfl, rfl⟩ := webhookJobId_key (registered_id hids hp) hpc hk
  exact ⟨row, hrow, hkey⟩

end Runs

/-- **A webhook is tried a limited number of times.** However the deliveries, the workers and BullMQ
interleave, one job at most is added under an id, and workers take it five times at most, and once
more each time that it may lose its worker. -/
theorem webhook_attempts_bounded {n : Nat} (lib : WebhookLib n) {ι : Type} [DecidableEq ι]
    (registry : ProviderRegistry)
    (hids : ∀ provider ∈ registry.providers, ':' ∉ provider.id.toList) (calls : ι → PipelineCall)
    (w : World) (c : Conf (pipelineMachine lib) ι Unit)
    (hr : Conf.Reach Any (startPipeline lib registry calls w) c) (jobId : String) :
    (jobsAdded jobId c.trace).length ≤ 1 ∧ takes jobId c.trace ≤ 5 + n := by
  have honce := (pipeline_inv hids hr).once jobId
  refine ⟨honce, (pipeline_taken hr jobId).most.trans ?_⟩
  calc (jobsAdded jobId c.trace).length * (webhookRetries n).most
    _ ≤ 1 * (webhookRetries n).most := Nat.mul_le_mul_right _ honce
    _ = 5 + n := Nat.one_mul _

/-! ### A webhook that comes before its payment -/

/-- The queues of the samples: a job may lose its worker once. -/
def sampleQueues : WebhookLib 1 := RetryLib.functions String WebhookJob (webhookRetries 1)

def capturedWebhook : PipelineCall :=
  .deliver "stripe" (stripeBody "payment_intent.succeeded") [("stripe-signature", "t=2,v1=b")]

def capturedJob : String := webhookJobId "stripe" "pi_1"

/-- A delivery, workers, a second delivery, and delays that are over. -/
def captureCalls : Nat → PipelineCall
  | 0 | 10 => capturedWebhook
  | 1 | 3 | 5 | 7 | 9 => .attempt capturedJob
  | _ => .promote capturedJob

/-- No payment has the external id: the job fails five times. -/
def lostRun : Conf (pipelineMachine sampleQueues) Nat Unit :=
  (startPipeline sampleQueues stripeRegistry captureCalls .empty).play
    ([0, 0, 0, 1, 1, 1, 2, 3, 3, 3, 4, 5, 5, 5, 6, 7, 7, 7, 8, 9, 9, 9].map fun t => (t, {}))

theorem stripe_colonFree : ∀ provider ∈ stripeRegistry.providers, ':' ∉ provider.id.toList := by
  intro provider hp
  obtain rfl := List.mem_singleton.mp hp
  decide

theorem webhook_attempts_sample : ((jobsAdded capturedJob lostRun.trace).length ≤ 1 ∧
    takes capturedJob lostRun.trace ≤ 5 + 1) ∧ takes capturedJob lostRun.trace = 5 :=
  ⟨webhook_attempts_bounded sampleQueues stripeRegistry stripe_colonFree captureCalls .empty lostRun
    (Conf.reach_play (Conf.plays_any _ _)) capturedJob, by decide +kernel⟩

/-- What becomes of an event whose job has finished in `c`, in the later state `c'`. -/
structure GivenUp {n : Nat} {lib : WebhookLib n} {ι : Type} (registry : ProviderRegistry)
    (jobId : String) (c c' : Conf (pipelineMachine lib) ι Unit) : Prop where
  takes : takes jobId c'.trace = Pasarela.takes jobId c.trace
  queue : (lib.life c'.st.queue jobId).job? = none
  /-- A further delivery is answered `received`, and changes nothing. -/
  delivery : ∀ providerId provider (x : Delivery), registry.get providerId = .ok provider →
    provider.verifyWebhook x.raw x.headers = .ok x.event →
    jobId = webhookJobId providerId x.event.externalId → x.Works c'.st.world →
    (x.handle registry providerId c'.st.world).outcome.result = .ok ⟨true⟩ ∧
      (x.handle registry providerId c'.st.world).Dropped

/-- **A job that has finished is done with for good**: when BullMQ has given it up, or it is
complete, no worker takes it again in the rest of the run, and every further delivery of its event
is acknowledged and dropped. -/
theorem given_up_for_good {n : Nat} (lib : WebhookLib n) {ι : Type} [DecidableEq ι]
    (registry : ProviderRegistry)
    (hids : ∀ provider ∈ registry.providers, ':' ∉ provider.id.toList) (calls : ι → PipelineCall)
    (w : World) (c c' : Conf (pipelineMachine lib) ι Unit)
    (hr : Conf.Reach Any (startPipeline lib registry calls w) c) (hr' : Conf.Reach Any c c')
    (jobId : String) (hadded : jobsAdded jobId c.trace ≠ [])
    (hfin : (lib.life c.st.queue jobId).job? = none) : GivenUp registry jobId c c' := by
  obtain ⟨hqueue, hadded', htakes⟩ := finished_run hids hr hr' hadded hfin
  refine ⟨htakes, hqueue, fun providerId provider x hp hv hid hw => ?_⟩
  rw [hid] at hadded'
  exact handle_recorded hp hv hw (recorded_of_added hids (hr.trans hr') hp hadded')

theorem given_up_sample :
    GivenUp stripeRegistry capturedJob lostRun (lostRun.play [(10, {})]) :=
  given_up_for_good sampleQueues stripeRegistry stripe_colonFree captureCalls .empty lostRun _
    (Conf.reach_play (Conf.plays_any _ _)) (Conf.reach_play (Conf.plays_any _ _)) capturedJob
    (List.length_pos_iff.mp (by decide +kernel)) rfl

end Machine

end Pasarela
