import Pasarela.Conc.History
import Pasarela.Store.RetryQueue
import Pasarela.WebhookQueue

/-!
# The jobs of the webhooks (`webhooks.controller.ts`, `webhook.processor.ts`, `queue.module.ts`)

Deliveries put jobs into the queue, workers run `WebhookProcessor.process` on them, and BullMQ tries
a job that failed again. All of it runs side by side.

* `pipelineMachine lib`: the services and the queue. `lib` is BullMQ, and `maxStalledCount` its limit
  for jobs that lose their worker, which the program does not set.
* `PipelineCall`: a delivery; a worker at a job; the delay of a job that is over, a worker that is
  gone, a finished job that is removed; and what the other parts of the program do to the tables.
* `queueAct`: what a request does to the queue. `jobsAdded`, `takes`: the jobs that a run added under
  an id, and how often workers took one. `taken_replay`: the queue after a run, by these numbers.
-/

namespace Pasarela

open Conc (Conf Event Genuine Machine Prog along_snoc replay replay_snoc)
open Store (Life LifeEvent LiveJob Retries RetryLib Taken)

/-! ## The services and the queue -/

/-- The `attempts` of a job. -/
def webhookRetries (maxStalledCount : Nat) : Retries := ⟨5, maxStalledCount, by decide⟩

/-- BullMQ, for the queue of the webhooks. -/
abbrev WebhookLib (maxStalledCount : Nat) : Type 1 :=
  RetryLib String WebhookJob (webhookRetries maxStalledCount)

/-- The tables and the queue. -/
structure Pipeline {n : Nat} (lib : WebhookLib n) where
  world : World
  queue : lib.Queue

/-- What the workers and BullMQ do. -/
inductive JobOp where
  /-- A worker takes a waiting job. -/
  | take (jobId : String)
  | complete (jobId : String) (token : Nat)
  | fail (jobId : String) (token : Nat)
  | promote (jobId : String)
  | stall (jobId : String)
  | remove (jobId : String)
  /-- The other parts of the program change the tables; the deliveries they leave alone. -/
  | change (w : World)

/-- What it does to the queue. -/
def JobOp.event : JobOp → Option (String × LifeEvent WebhookJob)
  | .take jobId => some (jobId, .take)
  | .complete jobId token => some (jobId, .complete token)
  | .fail jobId token => some (jobId, .fail token)
  | .promote jobId => some (jobId, .promote)
  | .stall jobId => some (jobId, .stall)
  | .remove jobId => some (jobId, .remove)
  | .change _ => none

/-- A worker gets the job, and the token that it reports with. -/
@[reducible] def JobOp.Ans : JobOp → Type
  | .take _ => WebhookJob × Nat
  | _ => Unit

section Machine

variable {n : Nat} {lib : WebhookLib n}

namespace Pipeline

/-- An event of a job. -/
def on (s : Pipeline lib) (jobId : String) (e : LifeEvent WebhookJob) : Pipeline lib :=
  { s with queue := lib.on jobId e s.queue }

/-- The worker that has the job reports. -/
def report (s : Pipeline lib) (jobId : String) (token : Nat) (e : LifeEvent WebhookJob) :
    Except Err Unit × Pipeline lib :=
  if (lib.life s.queue jobId).job?.any (·.Held token) then (.ok (), s.on jobId e)
  else (.error (.other "Missing lock"), s)

def take (s : Pipeline lib) (jobId : String) : Except Err (WebhookJob × Nat) × Pipeline lib :=
  match (lib.life s.queue jobId).job? with
  | some job =>
    if job.state = .waiting then (.ok (job.data, job.taken + 1), s.on jobId .take)
    else (.error (.other "no job"), s)
  | none => (.error (.other "no job"), s)

/-- `queue.add`. -/
def enqueue (o : Op) (d : Decision) (s : Pipeline lib) : Pipeline lib :=
  match o, d.fail with
  | .enqueueWebhook providerId inboundId event, none =>
    s.on (webhookJobId providerId event.externalId) (.add (newJob d providerId inboundId event))
  | _, _ => s

theorem enqueue_world (o : Op) (d : Decision) (s : Pipeline lib) :
    (s.enqueue o d).world = s.world := by
  unfold enqueue
  split <;> rfl

end Pipeline

def execJob : (o : JobOp) → Pipeline lib → Except Err o.Ans × Pipeline lib
  | .take jobId, s => s.take jobId
  | .complete jobId token, s => s.report jobId token (.complete token)
  | .fail jobId token, s => s.report jobId token (.fail token)
  | .promote jobId, s => (.ok (), s.on jobId .promote)
  | .stall jobId, s => (.ok (), s.on jobId .stall)
  | .remove jobId, s => (.ok (), s.on jobId .remove)
  | .change w, s => (.ok (), { s with world := { w with inbound := s.world.inbound } })

variable (lib) in
/-- The services and the queue (module doc). -/
abbrev pipelineMachine : Machine where
  Op := Op ⊕ JobOp
  Ans
    | .inl o => o.Ans
    | .inr o => o.Ans
  Dec := Decision
  St := Pipeline lib
  Err := Err
  exec
    | .inl o, d, s =>
      ((exec o d s.world).1, ({ s with world := (exec o d s.world).2 } : Pipeline lib).enqueue o d)
    | .inr o, d, s =>
      match d.fail with
      | some e => (.error e, s)
      | none => execJob o s

variable (lib) in
/-- A program of the services. -/
def inPipeline {α : Type} : Prog machine α → Prog (pipelineMachine lib) α
  | .ret a => .ret a
  | .throw e => .throw e
  | .op o k => .op (.inl o) fun r => inPipeline (k r)

variable (lib) in
def jobRequest (o : JobOp) : Prog (pipelineMachine lib) o.Ans :=
  Prog.perform (M := pipelineMachine lib) (.inr o)

variable (lib) in
/-- A worker at a job. -/
def attempt (jobId : String) : Prog (pipelineMachine lib) Unit := do
  let (job, token) ← jobRequest lib (.take jobId)
  let done ← ((inPipeline lib (WebhookProcessor.process job)).bind fun _ => .ret true).tryCatch
    fun _ => .ret false
  if done then jobRequest lib (.complete jobId token) else jobRequest lib (.fail jobId token)

/-- What runs side by side (module doc). -/
inductive PipelineCall where
  | deliver (providerId : String) (raw : Buffer) (headers : Headers)
  | attempt (jobId : String)
  | promote (jobId : String)
  | stall (jobId : String)
  | remove (jobId : String)
  | change (w : World)

variable (lib) in
def PipelineCall.prog (registry : ProviderRegistry) : PipelineCall → Prog (pipelineMachine lib) Unit
  | .deliver providerId raw headers =>
    (inPipeline lib (WebhooksController.handle registry providerId raw headers)).bind fun _ => .ret ()
  | .attempt jobId => Pasarela.attempt lib jobId
  | .promote jobId => jobRequest lib (.promote jobId)
  | .stall jobId => jobRequest lib (.stall jobId)
  | .remove jobId => jobRequest lib (.remove jobId)
  | .change w => jobRequest lib (.change w)

variable (lib) in
/-- The calls at their start, with nothing delivered. -/
def startPipeline {ι : Type} (registry : ProviderRegistry) (calls : ι → PipelineCall) (w : World) :
    Conf (pipelineMachine lib) ι Unit :=
  .start ⟨{ w with inbound := .empty }, lib.empty⟩ fun t => (calls t).prog lib registry

/-! ## Acts -/

/-- What a request does to the queue (module doc). -/
def queueAct : Event (pipelineMachine lib) → Option (String × LifeEvent WebhookJob)
  | ⟨.inl (.enqueueWebhook providerId inboundId event), d, .ok ()⟩ =>
    some (webhookJobId providerId event.externalId, .add (newJob d providerId inboundId event))
  | ⟨.inr (.take jobId), _, .ok _⟩ => some (jobId, .take)
  | ⟨.inr (.complete jobId token), _, .ok ()⟩ => some (jobId, .complete token)
  | ⟨.inr (.fail jobId token), _, .ok ()⟩ => some (jobId, .fail token)
  | ⟨.inr (.promote jobId), _, .ok ()⟩ => some (jobId, .promote)
  | ⟨.inr (.stall jobId), _, .ok ()⟩ => some (jobId, .stall)
  | ⟨.inr (.remove jobId), _, .ok ()⟩ => some (jobId, .remove)
  | _ => none

/-- The job that an event adds. -/
def addedJob : LifeEvent WebhookJob → Option WebhookJob
  | .add job => some job
  | _ => none

/-- The event of the id `jobId`, if an act is one. -/
def ofJob (jobId : String) : Option (String × LifeEvent WebhookJob) → Option (LifeEvent WebhookJob)
  | some (k, ev) => if k = jobId then some ev else none
  | none => none

variable {ι : Type}

/-- What a run did to the id `jobId` of the queue. -/
def jobEvents (jobId : String) (tr : List (ι × Event (pipelineMachine lib))) :
    List (LifeEvent WebhookJob) :=
  tr.filterMap fun x => ofJob jobId (queueAct x.2)

/-- The jobs that a run added under an id (module doc). -/
def jobsAdded (jobId : String) (tr : List (ι × Event (pipelineMachine lib))) : List WebhookJob :=
  (jobEvents jobId tr).filterMap addedJob

/-- The event gives a worker the job. -/
def isTake : LifeEvent WebhookJob → Bool
  | .take => true
  | _ => false

/-- How often workers took a job (module doc). -/
def takes (jobId : String) (tr : List (ι × Event (pipelineMachine lib))) : Nat :=
  (jobEvents jobId tr).countP isTake

/-! ## The queue over a run -/

section Run

variable {s s' : Pipeline lib} {e : Event (pipelineMachine lib)} {t : ι} {w : Pipeline lib}
  {tr : List (ι × Event (pipelineMachine lib))} {jobId : String}

/-- The request was made in the state `s`, and left `s'`. -/
def Made (s : Pipeline lib) (e : Event (pipelineMachine lib)) (s' : Pipeline lib) : Prop :=
  (pipelineMachine lib).exec e.op e.dec s = (e.ans, s')

/-- What an act does to the life of the id `jobId`. -/
def actOn (n : Nat) (jobId : String) (a : Option (String × LifeEvent WebhookJob))
    (l : Life WebhookJob) : Life WebhookJob :=
  match ofJob jobId a with
  | some ev => l.on (webhookRetries n) ev
  | none => l

theorem life_on (s : Pipeline lib) (k jobId : String) (ev : LifeEvent WebhookJob) :
    lib.life (s.on k ev).queue jobId = actOn n jobId (some (k, ev)) (lib.life s.queue jobId) := by
  rw [Pipeline.on, lib.life_on, actOn, ofJob]
  by_cases hk : k = jobId
  · rw [← hk, Function.update_self, if_pos rfl]
  · rw [Function.update_of_ne fun he => hk he.symm, if_neg hk]

/-- A worker that gets a job found it waiting. -/
theorem take_ok {a : WebhookJob × Nat} (h : s.take jobId = (.ok a, s')) :
    (∃ job, lib.life s.queue jobId = .live job ∧ job.state = .waiting ∧ a.1 = job.data) ∧
      s' = s.on jobId .take := by
  unfold Pipeline.take at h
  cases hl : lib.life s.queue jobId with
  | live job =>
    rw [hl] at h
    simp only [Life.job?] at h
    split at h
    · rename_i hw
      cases h
      exact ⟨⟨job, rfl, hw, rfl⟩, rfl⟩
    · cases h
  | absent => rw [hl] at h; cases h
  | ended en => rw [hl] at h; cases h

theorem execJob_ok {o : JobOp} {a : o.Ans} (h : execJob o s = (.ok a, s')) :
    (∃ k ev, o.event = some (k, ev) ∧ s' = s.on k ev) ∨
      o.event = none ∧ s'.queue = s.queue ∧ s'.world.inbound = s.world.inbound := by
  have hreport : ∀ {k token ev}, s.report k token ev = (.ok (), s') → s' = s.on k ev := by
    intro k token ev h
    unfold Pipeline.report at h
    split at h
    · exact (Prod.mk.inj h).2.symm
    · cases h
  cases o with
  | take k => exact .inl ⟨k, _, rfl, (take_ok h).2⟩
  | complete k token => exact .inl ⟨k, _, rfl, hreport h⟩
  | fail k token => exact .inl ⟨k, _, rfl, hreport h⟩
  | promote k => exact .inl ⟨k, _, rfl, (Prod.mk.inj h).2.symm⟩
  | stall k => exact .inl ⟨k, _, rfl, (Prod.mk.inj h).2.symm⟩
  | remove k => exact .inl ⟨k, _, rfl, (Prod.mk.inj h).2.symm⟩
  | change w =>
    cases h
    exact .inr ⟨rfl, rfl, rfl⟩

theorem execJob_error {o : JobOp} {err : Err} (h : execJob o s = (.error err, s')) : s' = s := by
  cases o with
  | take k =>
    rw [execJob, Pipeline.take] at h
    split at h
    · split at h <;> cases h
      rfl
    · cases h
      rfl
  | complete k token => rw [execJob, Pipeline.report] at h; split at h <;> cases h; rfl
  | fail k token => rw [execJob, Pipeline.report] at h; split at h <;> cases h; rfl
  | _ => cases h

theorem made_inr {o : JobOp} {d : Decision} {r : Except Err o.Ans}
    (hm : Made s ⟨.inr o, d, r⟩ s') :
    (∃ err, r = .error err ∧ s' = s) ∨ ∃ a, r = .ok a ∧ execJob o s = (.ok a, s') := by
  simp only [Made, pipelineMachine] at hm
  cases hd : d.fail with
  | some err =>
    rw [hd] at hm
    obtain ⟨rfl, rfl⟩ := Prod.mk.inj hm
    exact .inl ⟨err, rfl, rfl⟩
  | none =>
    rw [hd] at hm
    cases r with
    | error err => exact .inl ⟨err, rfl, execJob_error hm⟩
    | ok a => exact .inr ⟨a, rfl, hm⟩

theorem queueAct_ok (o : JobOp) (d : Decision) (a : o.Ans) :
    queueAct (⟨.inr o, d, .ok a⟩ : Event (pipelineMachine lib)) = o.event := by
  cases o <;> rfl

theorem queueAct_error (o : JobOp) (d : Decision) (err : Err) :
    queueAct (⟨.inr o, d, .error err⟩ : Event (pipelineMachine lib)) = none := by
  cases o <;> rfl

/-- What a request does to the queue, and that a worker that gets a job found it waiting. -/
theorem queue_step (hx : Made s e s') (jobId : String) :
    lib.life s'.queue jobId = actOn n jobId (queueAct e) (lib.life s.queue jobId) ∧
      (ofJob jobId (queueAct e) = some .take → (lib.life s.queue jobId).ready) := by
  have quiet : ∀ {s' : Pipeline lib} {a}, s'.queue = s.queue → a = none →
      lib.life s'.queue jobId = actOn n jobId a (lib.life s.queue jobId) ∧
        (ofJob jobId a = some .take → (lib.life s.queue jobId).ready) := by
    intro s' a hq ha
    rw [ha, hq]
    exact ⟨rfl, fun h => by cases h⟩
  obtain ⟨o, d, r⟩ := e
  cases o with
  | inl o =>
    obtain ⟨hr, rfl⟩ := Prod.mk.inj hx
    cases o with
    | enqueueWebhook providerId inboundId event =>
      cases hd : d.fail with
      | some err =>
        rw [exec_of_fail rfl hd] at hr ⊢
        subst hr
        refine quiet ?_ rfl
        simp only [Pipeline.enqueue, hd]
      | none =>
        rw [exec_enqueueWebhook hd] at hr ⊢
        subst hr
        simp only [Pipeline.enqueue, hd]
        refine ⟨life_on _ _ jobId _, fun h => ?_⟩
        simp only [queueAct, ofJob] at h
        split at h <;> cases h
    | _ => exact quiet rfl rfl
  | inr o =>
    rcases made_inr hx with ⟨err, rfl, rfl⟩ | ⟨a, rfl, h⟩
    · exact quiet rfl (queueAct_error o d err)
    · rw [queueAct_ok]
      rcases execJob_ok h with ⟨k, ev, ho, rfl⟩ | ⟨ho, hq, -⟩
      · rw [ho]
        refine ⟨life_on s k jobId ev, fun htake => ?_⟩
        rw [ofJob] at htake
        split at htake
        · rename_i hk
          -- of the worker's requests only `take` is a take, and it answers for a waiting job
          obtain rfl := Option.some.inj htake
          cases o with
          | take k' =>
            obtain ⟨rfl, -⟩ := Prod.mk.inj (Option.some.inj ho)
            obtain ⟨⟨job, hl, hw, -⟩, -⟩ := take_ok h
            rw [← hk, hl, Life.ready, decide_eq_true_eq]
            exact hw
          | _ => cases ho
        · cases htake
      · exact quiet hq ho

theorem jobEvents_snoc : jobEvents jobId (tr ++ [(t, e)]) =
    jobEvents jobId tr ++ (ofJob jobId (queueAct e)).toList := by
  cases h : ofJob jobId (queueAct e) <;> simp [jobEvents, h]

theorem jobsAdded_snoc : jobsAdded jobId (tr ++ [(t, e)]) =
    jobsAdded jobId tr ++ ((ofJob jobId (queueAct e)).bind addedJob).toList := by
  rw [jobsAdded, jobEvents_snoc, List.filterMap_append, jobsAdded]
  cases h : ofJob jobId (queueAct e) with
  | none => rfl
  | some ev => cases ev <;> rfl

theorem takes_snoc : takes jobId (tr ++ [(t, e)]) =
    takes jobId tr + ((ofJob jobId (queueAct e)).toList.countP isTake) := by
  rw [takes, jobEvents_snoc, List.countP_append, takes]

/-- **What the queue has of an id is what its events made of it.** -/
theorem taken_replay (hw : ∀ k, lib.life w.queue k = .absent) (hans : Genuine w tr)
    (jobId : String) :
    Taken (webhookRetries n) (lib.life (replay w tr).queue jobId) (jobsAdded jobId tr).length
      (takes jobId tr) := by
  induction tr using List.reverseRecOn with
  | nil =>
    rw [replay, hw]
    exact Taken.start _
  | append_singleton tr x ih =>
    obtain ⟨t, e⟩ := x
    obtain ⟨hans, he⟩ := along_snoc.mp hans
    have hx : Made (replay w tr) e (replay w (tr ++ [(t, e)])) := by
      rw [Made, he, replay_snoc]
    obtain ⟨hlife, htake⟩ := queue_step hx jobId
    rw [hlife, jobsAdded_snoc, takes_snoc, actOn, List.length_append]
    cases hev : ofJob jobId (queueAct e) with
    | none => exact ih hans
    | some ev =>
      have h := (ih hans).on ev
      cases ev with
      | take => simpa [LifeEvent.adds, LifeEvent.takes, htake hev, isTake, addedJob] using h
      | _ => simpa [LifeEvent.adds, LifeEvent.takes, isTake, addedJob] using h

end Run

end Machine

end Pasarela
