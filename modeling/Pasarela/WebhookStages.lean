import Pasarela.Conc.Owned
import Pasarela.WebhookJobs

/-!
# What the calls about a webhook know

* `Reflected`: a payment of the event had the status that the event reports.
* `Pipeline.Inv`: one job at most is added under an id, for a delivery that is stored; a delivery is
  marked as processed only if its event is reflected, and it is when its job is complete.
* `JobStage`: how far a call is, with what it knows (`jobFact`). A delivery that stored its row owns
  its key: no other call adds the job.
* `jobProto`: the protocol. `Pipeline.Inv.next`, `create`, `enqueue`, `mark`, `event`: what each kind
  of request keeps.
-/

namespace Pasarela

open Conc (Any Event Genuine Owning Proto along_snoc replay replay_snoc)
open Store (Life LifeEvent LiveJob Table)

section Machine

variable {n : Nat} {lib : WebhookLib n} {ι : Type}

/-! ## Deliveries and their jobs -/

/-- The row of a delivery. -/
def RowOf (w : World) (inboundId providerId externalId : String) : Prop :=
  ∃ row ∈ w.inbound, row.id = inboundId ∧ row.providerKey = (providerId, externalId)

/-- The row says that its delivery was processed. -/
def Marked (w : World) (inboundId : String) : Prop :=
  ∃ row ∈ w.inbound, row.id = inboundId ∧ row.status = "processed"

/-- The payment is one that `process` finds for the job. -/
def Concerns (job : WebhookJob) (p : Payment) : Prop :=
  p.externalId = some job.event.externalId ∧ p.providerId = job.event.providerId

section Reflected

variable (w₀ : Pipeline lib) (job : WebhookJob) (tr : List (ι × Event (pipelineMachine lib)))

/-- At some place of the run the payment was one of the job. -/
def FoundPayment (paymentId : String) : Prop :=
  ∃ i ≤ tr.length, ∃ p ∈ (replay w₀ (tr.take i)).world.payments, p.id = paymentId ∧ Concerns job p

/-- At some place of the run a payment was one of the job, and then or later it had the status that
the event of the job reports. -/
def Reflected : Prop :=
  ∃ i j, i ≤ j ∧ j ≤ tr.length ∧ ∃ p ∈ (replay w₀ (tr.take i)).world.payments, Concerns job p ∧
    ∃ q ∈ (replay w₀ (tr.take j)).world.payments,
      q.id = p.id ∧ statusMap job.event.status = some q.status

end Reflected

/-- What holds after the requests `tr` from `w₀` (module doc). -/
structure Pipeline.Inv (w₀ s : Pipeline lib) (tr : List (ι × Event (pipelineMachine lib))) : Prop where
  replayed : s = replay w₀ tr
  genuine : Genuine w₀ tr
  once : ∀ k, (jobsAdded k tr).length ≤ 1
  row : ∀ k, ∀ job ∈ jobsAdded k tr, ∃ p, ':' ∉ p.toList ∧
    k = webhookJobId p job.event.externalId ∧
      RowOf s.world job.webhookInboundId p job.event.externalId
  live : ∀ k job, lib.life s.queue k = .live job → job.data ∈ jobsAdded k tr
  completed : ∀ k token, .complete token ∈ jobEvents k tr →
    ∃ job ∈ jobsAdded k tr, Marked s.world job.webhookInboundId
  status : ∀ row ∈ s.world.inbound, row.status = "received" ∨ row.status = "processed" ∧
    ∃ k, ∃ job ∈ jobsAdded k tr, job.webhookInboundId = row.id ∧ Reflected w₀ job tr

inductive JobStage where
  | idle
  /-- A delivery that stored its row. -/
  | stored (providerId externalId inboundId : String)
  /-- A worker that has a job. -/
  | working (jobId : String) (job : WebhookJob)
  | found (jobId : String) (job : WebhookJob) (paymentId : String)
  | reflected (jobId : String) (job : WebhookJob)
  /-- `process` returned. -/
  | applied (jobId : String) (job : WebhookJob)

/-- What a call knows: the tables and the queue, and the requests made so far. -/
def jobFact (w₀ : Pipeline lib) (g : JobStage)
    (x : Pipeline lib × List (ι × Event (pipelineMachine lib))) : Prop :=
  match g with
  | .idle => True
  | .stored providerId externalId inboundId => ':' ∉ providerId.toList ∧
    RowOf x.1.world inboundId providerId externalId ∧
      jobsAdded (webhookJobId providerId externalId) x.2 = []
  | .working jobId job => job ∈ jobsAdded jobId x.2
  | .found jobId job paymentId => job ∈ jobsAdded jobId x.2 ∧ FoundPayment w₀ job x.2 paymentId
  | .reflected jobId job => job ∈ jobsAdded jobId x.2 ∧ Reflected w₀ job x.2
  | .applied jobId job => job ∈ jobsAdded jobId x.2 ∧ Marked x.1.world job.webhookInboundId

/-- The key of the delivery whose job a call is to add. -/
def JobStage.owner : JobStage → Option (String × String)
  | .stored providerId externalId _ => some (providerId, externalId)
  | _ => none

/-- The calls (module doc). -/
def jobOwning (ι : Type) (w₀ : Pipeline lib) :
    Owning ι JobStage (Pipeline lib × List (ι × Event (pipelineMachine lib))) (String × String) where
  fact _ := jobFact w₀
  owner := JobStage.owner

def jobProto (ι : Type) (w₀ : Pipeline lib) : Proto (pipelineMachine lib) ι JobStage where
  allow := Any
  inv G s tr := (jobOwning ι w₀).Inv G (s, tr) ∧ Pipeline.Inv w₀ s tr

/-! ### One step -/

section Step

variable {w₀ s s' : Pipeline lib} {tr : List (ι × Event (pipelineMachine lib))} {t : ι}
  {e : Event (pipelineMachine lib)} {job : WebhookJob} {jobId : String}

theorem mem_jobsAdded_snoc (h : job ∈ jobsAdded jobId tr) :
    job ∈ jobsAdded jobId (tr ++ [(t, e)]) := by
  rw [jobsAdded_snoc]
  exact List.mem_append_left _ h

/-- A request that adds no job. -/
def NoAdd (e : Event (pipelineMachine lib)) : Prop :=
  ∀ k, (ofJob k (queueAct e)).bind addedJob = none

theorem NoAdd.jobsAdded (h : NoAdd e) : jobsAdded jobId (tr ++ [(t, e)]) = jobsAdded jobId tr := by
  rw [jobsAdded_snoc, h, Option.toList_none, List.append_nil]

theorem take_snoc {i : Nat} (hi : i ≤ tr.length) : (tr ++ [(t, e)]).take i = tr.take i :=
  List.take_append_of_le_length hi

theorem FoundPayment.snoc {paymentId : String} (h : FoundPayment w₀ job tr paymentId) :
    FoundPayment w₀ job (tr ++ [(t, e)]) paymentId := by
  obtain ⟨i, hi, h⟩ := h
  refine ⟨i, ?_, ?_⟩
  · rw [List.length_append]
    omega
  · rw [take_snoc hi]
    exact h

theorem Reflected.snoc (h : Reflected w₀ job tr) : Reflected w₀ job (tr ++ [(t, e)]) := by
  obtain ⟨i, j, hij, hj, h⟩ := h
  refine ⟨i, j, hij, ?_, ?_⟩
  · rw [List.length_append]
    omega
  · rw [take_snoc hj, take_snoc (hij.trans hj)]
    exact h

theorem FoundPayment.reflected {paymentId : String} (h : FoundPayment w₀ job tr paymentId)
    (hs : s = replay w₀ tr) {q : Payment} (hq : q ∈ s.world.payments) (hid : q.id = paymentId)
    (hst : statusMap job.event.status = some q.status) : Reflected w₀ job tr := by
  obtain ⟨i, hi, p, hp, hpid, hc⟩ := h
  refine ⟨i, tr.length, hi, le_rfl, p, hp, hc, q, ?_, hid.trans hpid.symm, hst⟩
  rw [List.take_length, ← hs]
  exact hq

/-- The rows of the deliveries stay, and so do their marks. -/
structure Grows (s s' : Pipeline lib) : Prop where
  row : ∀ id p x, RowOf s.world id p x → RowOf s'.world id p x
  marked : ∀ id, Marked s.world id → Marked s'.world id

theorem Grows.of_inbound (h : s'.world.inbound = s.world.inbound) : Grows s s' := by
  refine ⟨fun id p x hr => ?_, fun id hm => ?_⟩
  · rw [RowOf, h]
    exact hr
  · rw [Marked, h]
    exact hm

/-- What a call knows stays so, if the request adds no job that it is to add. -/
theorem jobFact_mono {g : JobStage} (h : jobFact w₀ g (s, tr)) (hg : Grows s s')
    (hadd : ∀ p x, g.owner = some (p, x) →
      (ofJob (webhookJobId p x) (queueAct e)).bind addedJob = none) :
    jobFact w₀ g (s', tr ++ [(t, e)]) := by
  cases g with
  | idle => trivial
  | stored p x id =>
    obtain ⟨hp, hr, hnil⟩ := h
    refine ⟨hp, hg.row _ _ _ hr, ?_⟩
    rw [jobsAdded_snoc, hnil, hadd p x rfl]
    rfl
  | working k j => exact mem_jobsAdded_snoc h
  | found k j id => exact ⟨mem_jobsAdded_snoc h.1, h.2.snoc⟩
  | reflected k j => exact ⟨mem_jobsAdded_snoc h.1, h.2.snoc⟩
  | applied k j => exact ⟨mem_jobsAdded_snoc h.1, hg.marked _ h.2⟩

/-- A job that is live after the request was so before, or the request adds it. -/
theorem live_step (hx : Made s e s') {job : LiveJob WebhookJob}
    (hl : lib.life s'.queue jobId = .live job) :
    (∃ old, lib.life s.queue jobId = .live old ∧ old.data = job.data) ∨
      (ofJob jobId (queueAct e)).bind addedJob = some job.data := by
  rw [(queue_step hx jobId).1, actOn] at hl
  cases hev : ofJob jobId (queueAct e) with
  | none =>
    rw [hev] at hl
    exact .inl ⟨job, hl, rfl⟩
  | some ev =>
    simp only [hev] at hl
    rcases Life.data_on (by rw [hl]; rfl : (Life.on _ ev _).job? = some job) with
      ⟨old, hold, hdata⟩ | rfl
    · refine .inl ⟨old, ?_, hdata⟩
      cases hl' : lib.life s.queue jobId with
      | live j => rw [hl'] at hold; cases hold; rfl
      | absent => rw [hl'] at hold; cases hold
      | ended en => rw [hl'] at hold; cases hold
    · exact .inr rfl

/-- What a row of a delivery says is what it said, or the truth. -/
def Says (w₀ s : Pipeline lib) (tr : List (ι × Event (pipelineMachine lib))) (row : WebhookInbound) :
    Prop :=
  (∃ old ∈ s.world.inbound, old.id = row.id ∧ old.status = row.status) ∨ row.status = "received" ∨
    row.status = "processed" ∧
      ∃ k, ∃ job ∈ jobsAdded k tr, job.webhookInboundId = row.id ∧ Reflected w₀ job tr

/-- **A request that adds no job.** -/
theorem Pipeline.Inv.next (h : Pipeline.Inv w₀ s tr)
    (hx : Made s e s') (hadd : NoAdd e) (hg : Grows s s')
    (hrow : ∀ row ∈ s'.world.inbound, Says w₀ s tr row)
    (hdone : ∀ k token, ofJob k (queueAct e) = some (.complete token) → ∃ job ∈ jobsAdded k tr,
      Marked s'.world job.webhookInboundId) :
    Pipeline.Inv w₀ s' (tr ++ [(t, e)]) where
  replayed := by rw [replay_snoc, ← h.replayed, hx]
  genuine := along_snoc.mpr ⟨h.genuine, by rw [← h.replayed, hx]⟩
  once k := by
    rw [hadd.jobsAdded]
    exact h.once k
  row k job hjob := by
    rw [hadd.jobsAdded] at hjob
    obtain ⟨p, hp, hk, hr⟩ := h.row k job hjob
    exact ⟨p, hp, hk, hg.row _ _ _ hr⟩
  live k job hl := by
    rw [hadd.jobsAdded]
    rcases live_step hx hl with ⟨old, hold, hdata⟩ | hnew
    · rw [← hdata]
      exact h.live k old hold
    · rw [hadd k] at hnew
      cases hnew
  completed k token hc := by
    rw [hadd.jobsAdded]
    rw [jobEvents_snoc, List.mem_append, Option.mem_toList] at hc
    rcases hc with hc | hc
    · obtain ⟨job, hjob, hm⟩ := h.completed k token hc
      exact ⟨job, hjob, hg.marked _ hm⟩
    · exact hdone k token hc
  status row hr := by
    rcases hrow row hr with ⟨old, hold, hid, hst⟩ | hst | ⟨hst, k, job, hjob, hid, href⟩
    · rw [← hst, ← hid]
      rcases h.status old hold with hst | ⟨hst, k, job, hjob, hid, href⟩
      · exact .inl hst
      · exact .inr ⟨hst, k, job, mem_jobsAdded_snoc hjob, hid, href.snoc⟩
    · exact .inl hst
    · exact .inr ⟨hst, k, job, mem_jobsAdded_snoc hjob, hid, href.snoc⟩

theorem Pipeline.Inv.quiet (h : Pipeline.Inv w₀ s tr)
    (hx : Made s e s') (hq : queueAct e = none)
    (hin : s'.world.inbound = s.world.inbound) : Pipeline.Inv w₀ s' (tr ++ [(t, e)]) := by
  refine h.next hx (fun k => ?_) (.of_inbound hin) (fun row hr => ?_) fun k token hc => ?_
  · rw [hq]
    rfl
  · rw [hin] at hr
    exact .inl ⟨row, hr, rfl, rfl⟩
  · rw [hq] at hc
    cases hc

section Moves

variable [DecidableEq ι] {G : ι → JobStage} {g : JobStage}

theorem move_on (h : (jobOwning ι w₀).Inv G (s, tr)) (hadd : NoAdd e) (hg : Grows s s')
    (hf : jobFact w₀ g (s', tr ++ [(t, e)]))
    (ho : ∀ k, g.owner = some k → (G t).owner = some k ∨ ∀ u, (G u).owner ≠ some k) :
    (jobOwning ι w₀).Inv (Function.update G t g) (s', tr ++ [(t, e)]) :=
  h.step hf ho fun _ _ _ hu _ => jobFact_mono hu hg fun p x _ => hadd (webhookJobId p x)

/-- A request that leaves the deliveries alone and the queue: the call knows what it knew. -/
theorem keep_stage (h : (jobProto ι w₀).inv G s tr) (hG : G t = g)
    (hx : Made s e s') (hq : queueAct e = none)
    (hin : s'.world.inbound = s.world.inbound) :
    (jobProto ι w₀).inv (Function.update G t g) s' (tr ++ [(t, e)]) := by
  have hadd : NoAdd e := fun k => by
    rw [hq]
    rfl
  refine ⟨move_on h.1 hadd (.of_inbound hin) ?_ fun k hk => .inl (by rw [hG]; exact hk),
    h.2.quiet hx hq hin⟩
  have hfact : jobFact w₀ (G t) (s, tr) := h.1.fact t
  rw [hG] at hfact
  exact jobFact_mono hfact (.of_inbound hin) fun p x _ => hadd (webhookJobId p x)

/-- A request that leaves the deliveries alone and the queue: the call learns something that is so
of the requests made so far. -/
theorem learn (h : (jobProto ι w₀).inv G s tr)
    (hx : Made s e s') (hq : queueAct e = none)
    (hin : s'.world.inbound = s.world.inbound) (hf : jobFact w₀ g (s', tr ++ [(t, e)]))
    (ho : g.owner = none) : (jobProto ι w₀).inv (Function.update G t g) s' (tr ++ [(t, e)]) := by
  have hadd : NoAdd e := fun k => by
    rw [hq]
    rfl
  refine ⟨move_on h.1 hadd (.of_inbound hin) hf fun k hk => ?_, h.2.quiet hx hq hin⟩
  rw [ho] at hk
  cases hk

end Moves

/-! ### The requests -/

theorem exec_inl {o : Op} (ho : ∀ p i x, o ≠ .enqueueWebhook p i x) (d : Decision)
    (s : Pipeline lib) : (pipelineMachine lib).exec (.inl o) d s =
      ((exec o d s.world).1, { s with world := (exec o d s.world).2 }) := by
  cases o with
  | enqueueWebhook p i x => exact absurd rfl (ho p i x)
  | _ => rfl

/-- The row of a delivery that `handle` stores is the only one with its key, and has no job. -/
theorem created_fresh (h : Pipeline.Inv w₀ s tr) {d : Decision} {providerId : String}
    {event : WebhookEvent} {headers : Headers}
    {inbound : Table WebhookInbound.id WebhookInbound.providerKey} (hp : ':' ∉ providerId.toList)
    (hins : s.world.inbound.insert (newInbound d providerId event headers) = .ok inbound) :
    jobsAdded (webhookJobId providerId event.externalId) tr = [] := by
  by_contra hne
  obtain ⟨job, hjob⟩ := List.exists_mem_of_ne_nil _ hne
  obtain ⟨p, hp', hk, row, hr, -, hkey⟩ := h.row _ job hjob
  obtain ⟨rfl, hx⟩ := webhookJobId_key hp hp' hk
  exact (Table.insert_ok hins).2.2 row hr (by rw [hkey, ← hx]; rfl)

/-- The insert of a delivery. -/
theorem Pipeline.Inv.create (h : Pipeline.Inv w₀ s tr) {d : Decision} {providerId : String}
    {event : WebhookEvent} {headers : Headers}
    {inbound : Table WebhookInbound.id WebhookInbound.providerKey}
    (hins : s.world.inbound.insert (newInbound d providerId event headers) = .ok inbound)
    (hx : Made s e s') (hq : queueAct e = none)
    (hin : s'.world.inbound = inbound) :
    Pipeline.Inv w₀ s' (tr ++ [(t, e)]) ∧ Grows s s' := by
  have hmem : ∀ row, row ∈ s'.world.inbound ↔
      row ∈ s.world.inbound ∨ row = newInbound d providerId event headers := fun row => by
    rw [hin]
    exact Table.mem_insert hins
  have hg : Grows s s' := by
    refine ⟨fun id p x ⟨row, hr, hrow⟩ => ⟨row, (hmem row).mpr (.inl hr), hrow⟩,
      fun id ⟨row, hr, hrow⟩ => ⟨row, (hmem row).mpr (.inl hr), hrow⟩⟩
  refine ⟨h.next hx (fun k => by rw [hq]; rfl) hg (fun row hr => ?_) fun k token hc => ?_, hg⟩
  · rcases (hmem row).mp hr with hr | rfl
    · exact .inl ⟨row, hr, rfl, rfl⟩
    · exact .inr (.inl rfl)
  · rw [hq] at hc
    cases hc

/-- **The add of a job**: the first one under its id. -/
theorem Pipeline.Inv.enqueue (h : Pipeline.Inv w₀ s tr) {providerId : String} (job : WebhookJob)
    (hx : Made s e s')
    (hq : queueAct e = some (webhookJobId providerId job.event.externalId, .add job))
    (hin : s'.world.inbound = s.world.inbound) (hp : ':' ∉ providerId.toList)
    (hrow : RowOf s.world job.webhookInboundId providerId job.event.externalId)
    (hnil : jobsAdded (webhookJobId providerId job.event.externalId) tr = []) :
    Pipeline.Inv w₀ s' (tr ++ [(t, e)]) := by
  have hg : Grows s s' := .of_inbound hin
  have hadd : ∀ k, jobsAdded k (tr ++ [(t, e)]) =
      if webhookJobId providerId job.event.externalId = k then [job] else jobsAdded k tr := by
    intro k
    rw [jobsAdded_snoc, hq, ofJob]
    by_cases hk : webhookJobId providerId job.event.externalId = k
    · rw [if_pos hk, if_pos hk, ← hk, hnil]
      rfl
    · rw [if_neg hk, if_neg hk]
      exact List.append_nil _
  refine
    { replayed := by rw [replay_snoc, ← h.replayed, hx]
      genuine := along_snoc.mpr ⟨h.genuine, by rw [← h.replayed, hx]⟩
      once := fun k => ?_
      row := fun k job' hjob' => ?_
      live := fun k lj hl => ?_
      completed := fun k token hc => ?_
      status := fun row hr => ?_ }
  · rw [hadd]
    split
    · exact le_rfl
    · exact h.once k
  · rw [hadd] at hjob'
    split at hjob'
    · rename_i hk
      obtain rfl := List.mem_singleton.mp hjob'
      exact ⟨providerId, hp, hk.symm, hg.row _ _ _ hrow⟩
    · obtain ⟨p, hp', hk, hr⟩ := h.row k job' hjob'
      exact ⟨p, hp', hk, hg.row _ _ _ hr⟩
  · -- a live job has the data that it was added with, by now or by this add
    rcases live_step hx hl with ⟨old, hold, hdata⟩ | hnew
    · rw [← hdata]
      exact mem_jobsAdded_snoc (h.live k old hold)
    · rw [jobsAdded_snoc, hnew]
      exact List.mem_append_right _ (List.mem_singleton_self _)
  · rw [jobEvents_snoc, List.mem_append, Option.mem_toList] at hc
    rcases hc with hc | hc
    · obtain ⟨job', hjob', hm⟩ := h.completed k token hc
      exact ⟨job', mem_jobsAdded_snoc hjob', hg.marked _ hm⟩
    · rw [hq, ofJob] at hc
      split at hc <;> cases hc
  · rw [hin] at hr
    rcases h.status row hr with hst | ⟨hst, k, job', hjob', hid, href⟩
    · exact .inl hst
    · exact .inr ⟨hst, k, job', mem_jobsAdded_snoc hjob', hid, href.snoc⟩

/-- The mark of a delivery whose job is reflected. -/
theorem Pipeline.Inv.mark (h : Pipeline.Inv w₀ s tr) {d : Decision} {job : WebhookJob}
    {row : WebhookInbound} {inbound : Table WebhookInbound.id WebhookInbound.providerKey}
    (hup : s.world.inbound.update job.webhookInboundId (setProcessed d) (keeps_setProcessed d) =
      some (row, inbound))
    (hx : Made s e s') (hq : queueAct e = none)
    (hin : s'.world.inbound = inbound) (hjob : job ∈ jobsAdded jobId tr)
    (href : Reflected w₀ job tr) :
    Pipeline.Inv w₀ s' (tr ++ [(t, e)]) ∧ Grows s s' ∧ Marked s'.world job.webhookInboundId := by
  obtain ⟨old, hold, hid, rfl, -⟩ := Table.update_some hup
  have hmem : ∀ r, r ∈ s'.world.inbound ↔
      (r ∈ s.world.inbound ∧ r.id ≠ job.webhookInboundId) ∨ r = setProcessed d old := fun r => by
    rw [hin]
    exact Table.mem_update hup
  have hnew : setProcessed d old ∈ s'.world.inbound := (hmem _).mpr (.inr rfl)
  have hg : Grows s s' := by
    constructor
    · rintro id p x ⟨r, hr, hrid, hkey⟩
      by_cases hri : r.id = job.webhookInboundId
      · rw [Table.eq_of_key hr hold (hri.trans hid.symm)] at hrid hkey
        exact ⟨_, hnew, hrid, hkey⟩
      · exact ⟨r, (hmem r).mpr (.inl ⟨hr, hri⟩), hrid, hkey⟩
    · rintro id ⟨r, hr, hrid, hst⟩
      by_cases hri : r.id = job.webhookInboundId
      · exact ⟨_, hnew, hid.trans (hri.symm.trans hrid), rfl⟩
      · exact ⟨r, (hmem r).mpr (.inl ⟨hr, hri⟩), hrid, hst⟩
  refine ⟨h.next hx (fun k => by rw [hq]; rfl) hg (fun r hr => ?_) (fun k token hc => ?_), hg,
    _, hnew, hid, rfl⟩
  · rcases (hmem r).mp hr with ⟨hr, -⟩ | rfl
    · exact .inl ⟨r, hr, rfl, rfl⟩
    · exact .inr (.inr ⟨rfl, jobId, job, hjob, hid.symm, href⟩)
  · rw [hq] at hc
    cases hc

/-- A report, or another event of a job, that leaves the deliveries alone. -/
theorem Pipeline.Inv.event (h : Pipeline.Inv w₀ s tr) {k : String} {ev : LifeEvent WebhookJob}
    (hx : Made s e s') (hq : queueAct e = some (k, ev))
    (hev : addedJob ev = none) (hin : s'.world.inbound = s.world.inbound)
    (hdone : ∀ token, ev = .complete token →
      ∃ job ∈ jobsAdded k tr, Marked s.world job.webhookInboundId) :
    Pipeline.Inv w₀ s' (tr ++ [(t, e)]) ∧ NoAdd e := by
  have hadd : NoAdd e := fun k' => by
    rw [hq, ofJob]
    split
    · exact hev
    · rfl
  refine ⟨h.next hx hadd (.of_inbound hin) (fun row hr => ?_) fun k' token hc => ?_, hadd⟩
  · rw [hin] at hr
    exact .inl ⟨row, hr, rfl, rfl⟩
  · rw [hq, ofJob] at hc
    split at hc
    · rename_i hk
      obtain ⟨job, hjob, hm⟩ := hdone token (Option.some.inj hc)
      exact ⟨job, hk ▸ hjob, (Grows.of_inbound hin).marked _ hm⟩
    · cases hc

end Step

end Machine

end Pasarela
