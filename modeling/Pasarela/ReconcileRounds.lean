import Pasarela.Conc.Acts
import Pasarela.Conc.History
import Pasarela.Conc.Local
import Pasarela.Store.JobQueue
import Pasarela.Workers

/-!
# The rounds of the reconciliation (`payments/reconciliation.service.ts`)

Every five minutes `schedulePendingReconciliation` selects old PENDING payments and adds a job for
each; the processor runs `reconcileOne`. The id of a job is `reconcile:` and that of its payment, and
the queue module keeps the last jobs that completed or failed.

* `Payment.Stale`: what a round selects. `reconcileJob`: the job of a payment, with the options of
  the service over those of the queue module.
* `roundMachine lib`: the services and the queue. `lib` is BullMQ, which refuses the jobs of a round
  if one of the ids has a `:` and not three parts (`ThreeParts lib`).
* `RoundCall`: the rounds, the attempts at jobs, and what else happens; they run side by side.
* `RoundAct`: what a step comes to. `RoundAt l t j i ids`: the round `t` selected the payments `ids`
  at the place `j` and asked the queue for their jobs at the place `i`.
* `endedIds e l`: the jobs that finished, the latest first. `NoneRefused`, `NoneKept`: no round asks
  for a job whose id is refused, or is one of the last that are kept. Exactly in such runs each round
  leaves a job that will run for each payment it selected (`rounds_enqueue_iff`). The ids that the
  database makes (`cuid`) have no `:`, so their jobs are refused, each time.
-/

namespace Pasarela

open Conc (Any Conf Event Genuine Machine Prog acts acts_snoc acts_take along_snoc
  exists_place_ownEvents getElem?_acts mem_ownEvents ownEvents replay replay_snoc replay_take_succ)
open Store (JobEnd JobLib JobQueue JobState)

/-! ## Jobs -/

/-- The options of a job that BullMQ reads. -/
structure JobOptions where
  attempts : Nat
  backoffDelay : Nat
  removeOnComplete : Nat
  removeOnFail : Nat
  deriving DecidableEq, Repr

/-- `defaultJobOptions` of the queue module. -/
def defaultJobOptions : JobOptions where
  attempts := 5
  backoffDelay := 1000
  removeOnComplete := 200
  removeOnFail := 500

/-- A job of the queue `payments-reconcile`. -/
structure ReconcileJob where
  name : String
  paymentId : String
  jobId : String
  opts : JobOptions
  deriving DecidableEq, Repr

/-- The options of the service over the default ones. -/
def reconcileOptions : JobOptions := { defaultJobOptions with attempts := 3, backoffDelay := 5000 }

/-- How many finished jobs stay in the queue. -/
def retention : JobEnd → Nat
  | .completed => reconcileOptions.removeOnComplete
  | .failed => reconcileOptions.removeOnFail

/-- BullMQ takes an id with a `:` only if it has three parts. -/
def ThreeParts (lib : JobLib String retention) : Prop :=
  ∀ id, ':' ∈ id.toList → (lib.accepts id = true ↔ id.toList.count ':' = 2)

/-- `PENDING_THRESHOLD_MIN`, in milliseconds. -/
def pendingThreshold : Nat := 30 * 60 * 1000

/-- PENDING, with an external id, and older than the threshold. -/
def Payment.Stale (now : Nat) (p : Payment) : Prop :=
  p.status = .pending ∧ p.externalId ≠ none ∧ p.createdAt + pendingThreshold < now

instance (now : Nat) (p : Payment) : Decidable (p.Stale now) :=
  inferInstanceAs (Decidable (_ ∧ _ ∧ _))

namespace ReconciliationService

/-- `stale`: the ids of at most a hundred payments, in any order. -/
def findStale (d : Decision) (s : World) : List String :=
  (((s.payments.rows.filter fun p => p.Stale d.now).insertionSort
    fun a b => d.rank a.id ≤ d.rank b.id).take 100).map (·.id)

def reconcileJob (paymentId : String) : ReconcileJob where
  name := "reconcile-payment"
  paymentId
  jobId := "reconcile:" ++ paymentId
  opts := reconcileOptions

/-- The id of a job has two parts, if that of its payment has one. -/
theorem refused_of_cuid {lib : JobLib String retention} (hlib : ThreeParts lib) {paymentId : String}
    (h : ':' ∉ paymentId.toList) : lib.accepts (reconcileJob paymentId).jobId = false := by
  have hlist : (reconcileJob paymentId).jobId.toList = "reconcile:".toList ++ paymentId.toList :=
    String.toList_append
  have hcount : (reconcileJob paymentId).jobId.toList.count ':' = 1 := by
    rw [hlist, List.count_append, List.count_eq_zero_of_not_mem h]
    rfl
  have hmem : ':' ∈ (reconcileJob paymentId).jobId.toList :=
    List.count_pos_iff.mp (by rw [hcount]; exact Nat.one_pos)
  by_contra haccepts
  have htwo := (hlib _ hmem).mp (Bool.eq_true_of_not_eq_false haccepts)
  rw [hcount] at htwo
  cases htwo

theorem mem_findStale {d : Decision} {s : World} {id : String} (h : id ∈ findStale d s) :
    ∃ p ∈ s.payments.rows, p.id = id ∧ p.Stale d.now := by
  obtain ⟨p, hp, rfl⟩ := List.mem_map.mp h
  have hsorted := (List.mem_insertionSort _).mp (List.mem_of_mem_take hp)
  obtain ⟨hrow, hstale⟩ := List.mem_filter.mp hsorted
  exact ⟨p, hrow, rfl, of_decide_eq_true hstale⟩

end ReconciliationService

def ReconcileProcessor.process (registry : ProviderRegistry) (job : ReconcileJob) : Service Unit :=
  ReconciliationService.reconcileOne registry job.paymentId

/-! ## The services and the queue -/

/-- What the rounds and the workers ask of the database and the queue. -/
inductive RoundOp where
  | findStale
  | addBulk (jobs : List ReconcileJob)
  /-- A worker takes a waiting job. -/
  | take (jobId : String)
  | finish (e : JobEnd) (jobId : String)
  /-- The job failed and has attempts left. -/
  | delay (jobId : String)
  /-- The delay is over, or the worker of the job is gone. -/
  | wait (jobId : String)
  /-- The other parts of the program change the tables. -/
  | change (w : World)

@[reducible] def RoundOp.Ans : RoundOp → Type
  | .findStale => List String
  | _ => Unit

section Machine

variable (lib : JobLib String retention)

/-- A change of a job in one of the states `ok`. -/
def onJob (ok : Option JobState → Bool) (event : Store.JobEvent String) (jobId : String)
    (s : World × lib.Queue) : Except Err Unit × (World × lib.Queue) :=
  if ok (lib.live s.2 jobId) then (.ok (), (s.1, lib.on event s.2)) else (.error (.other ""), s)

def execRound : (o : RoundOp) → Decision → World × lib.Queue →
    Except Err o.Ans × (World × lib.Queue)
  | .findStale, d, s => (.ok (ReconciliationService.findStale d s.1), s)
  | .addBulk jobs, _, s =>
    (if (jobs.map (·.jobId)).all lib.accepts then .ok ()
      else .error (.other "Custom Id cannot contain :"),
      (s.1, lib.on (.add (jobs.map (·.jobId))) s.2))
  | .take jobId, _, s => onJob lib (· = some .waiting) (.move jobId .active) jobId s
  | .finish e jobId, _, s => onJob lib (· = some .active) (.finish e jobId) jobId s
  | .delay jobId, _, s => onJob lib (· = some .active) (.move jobId .delayed) jobId s
  | .wait jobId, _, s =>
    onJob lib (fun state => state = some .delayed ∨ state = some .active) (.move jobId .waiting)
      jobId s
  | .change w, _, s => (.ok (), (w, s.2))

/-- The services and the queue (module doc). -/
abbrev roundMachine : Machine where
  Op := Op ⊕ RoundOp
  Ans
    | .inl o => o.Ans
    | .inr o => o.Ans
  Dec := Decision
  St := World × lib.Queue
  Err := Err
  exec
    | .inl o, d, s => ((machine.exec o d s.1).1, ((machine.exec o d s.1).2, s.2))
    | .inr o, d, s =>
      match d.fail with
      | some e => (.error e, s)
      | none => execRound lib o d s

/-- A program of the services. -/
def serve {α : Type} : Prog machine α → Prog (roundMachine lib) α
  | .ret a => .ret a
  | .throw e => .throw e
  | .op o k => .op (.inl o) fun r => serve (k r)

def roundRequest (o : RoundOp) : Prog (roundMachine lib) o.Ans :=
  Prog.perform (M := roundMachine lib) (.inr o)

def schedulePendingReconciliation : Prog (roundMachine lib) Unit := do
  let stale ← roundRequest lib .findStale
  if stale = [] then return
  else roundRequest lib (.addBulk (stale.map ReconciliationService.reconcileJob))

/-- What runs side by side (module doc). -/
inductive RoundCall where
  | round
  /-- An attempt of a worker at the job of a payment, the last one or not. -/
  | attempt (paymentId : String) (last : Bool)
  | wait (paymentId : String)
  /-- The worker of a job is gone again, and BullMQ gives the job up. -/
  | giveUp (paymentId : String)
  | change (w : World)

def RoundCall.prog (registry : ProviderRegistry) : RoundCall → Prog (roundMachine lib) Unit
  | .round => schedulePendingReconciliation lib
  | .attempt paymentId last => do
    let job := ReconciliationService.reconcileJob paymentId
    let _ ← roundRequest lib (.take job.jobId)
    let done ← ((serve lib (ReconcileProcessor.process registry job)).bind fun _ =>
      .ret true).tryCatch fun _ => .ret false
    if done then roundRequest lib (.finish .completed job.jobId)
    else if last then roundRequest lib (.finish .failed job.jobId)
    else roundRequest lib (.delay job.jobId)
  | .wait paymentId => roundRequest lib (.wait (ReconciliationService.reconcileJob paymentId).jobId)
  | .giveUp paymentId =>
    roundRequest lib (.finish .failed (ReconciliationService.reconcileJob paymentId).jobId)
  | .change w => roundRequest lib (.change w)

/-- The calls at their start, with an empty queue. -/
def startRounds {ι : Type} (registry : ProviderRegistry) (calls : ι → RoundCall) (w : World) :
    Conf (roundMachine lib) ι Unit :=
  .start (w, lib.empty) fun t => (calls t).prog lib registry

end Machine

/-! ## Acts -/

/-- What a step comes to. -/
inductive RoundAct where
  | selected (ids : List String)
  /-- A round asks the queue for jobs, which adds or refuses them. -/
  | adds (jobs : List ReconcileJob)
  | finished (e : JobEnd) (jobId : String)
  /-- The database or the queue does not work. -/
  | failed
  | other
  deriving DecidableEq, Repr

section Acts

variable {lib : JobLib String retention} {ι : Type}

def roundAct : Event (roundMachine lib) → RoundAct
  | ⟨.inr .findStale, _, .ok ids⟩ => .selected ids
  | ⟨.inr .findStale, _, .error _⟩ => .failed
  | ⟨.inr (.addBulk jobs), d, _⟩ => if d.fail.isNone then .adds jobs else .failed
  | ⟨.inr (.finish e jobId), _, .ok ()⟩ => .finished e jobId
  | _ => .other

/-- A round that asked for the jobs of what it selected (module doc). -/
structure RoundAt (l : List (ι × RoundAct)) (t : ι) (j i : Nat) (ids : List String) : Prop where
  lt : j < i
  selects : l[j]? = some (t, .selected ids)
  adds : l[i]? = some (t, .adds (ids.map ReconciliationService.reconcileJob))

/-- The job that an act finishes with `e`. -/
def RoundAct.ends (e : JobEnd) : RoundAct → Option String
  | .finished e' jobId => if e' = e then some jobId else none
  | _ => none

/-- The jobs that finished with `e` (module doc). -/
def endedIds (e : JobEnd) (l : List (ι × RoundAct)) : List String :=
  (l.filterMap fun x => x.2.ends e).reverse

/-- No round asks for a job whose id BullMQ refuses (module doc). -/
def NoneRefused (lib : JobLib String retention) (l : List (ι × RoundAct)) : Prop :=
  ∀ t j i ids, RoundAt l t j i ids → ∀ id ∈ ids,
    lib.accepts (ReconciliationService.reconcileJob id).jobId = true

/-- No round asks for a job whose id is kept (module doc). -/
def NoneKept (l : List (ι × RoundAct)) : Prop :=
  ∀ t j i ids, RoundAt l t j i ids → ∀ id ∈ ids, ∀ e,
    (ReconciliationService.reconcileJob id).jobId ∉ (endedIds e (l.take i)).take (retention e)

/-- Right after a round, each payment that it selected has a job that will run. -/
def RoundsEnqueue (lib : JobLib String retention) (w : World)
    (tr : List (ι × Event (roundMachine lib))) : Prop :=
  ∀ t j i ids, RoundAt (acts roundAct tr) t j i ids → ∀ id ∈ ids,
    (lib.live (replay (M := roundMachine lib) (w, lib.empty) (tr.take (i + 1))).2
      (ReconciliationService.reconcileJob id).jobId).isSome

theorem endedIds_snoc {e : JobEnd} {l : List (ι × RoundAct)} {t : ι} {a : RoundAct} :
    endedIds e (l ++ [(t, a)]) = (a.ends e).toList ++ endedIds e l := by
  cases h : a.ends e <;> simp [endedIds, h]

end Acts

/-! ## The queue over a run -/

section Run

variable {lib : JobLib String retention} {ι : Type} {s : World × lib.Queue} {w : World} {t : ι}
  {e : Event (roundMachine lib)} {tr : List (ι × Event (roundMachine lib))}

/-- Adds and failures finish no job. -/
theorem ends_addBulk (jobs : List ReconcileJob) (d : Decision) (a : Except Err Unit) (k : JobEnd) :
    (roundAct (⟨.inr (.addBulk jobs), d, a⟩ : Event (roundMachine lib))).ends k = none := by
  cases hd : d.fail <;> simp [roundAct, hd, RoundAct.ends]

theorem ends_error (o : RoundOp) (d : Decision) (er : Err) (k : JobEnd) :
    (roundAct (⟨.inr o, d, .error er⟩ : Event (roundMachine lib))).ends k = none := by
  cases o with
  | addBulk jobs => exact ends_addBulk jobs d _ k
  | _ => rfl

/-- A change of a job is made, in one of the states, or refused. -/
theorem onJob_cases (ok : Option JobState → Bool) (event : Store.JobEvent String) (jobId : String)
    (s : World × lib.Queue) :
    ok (lib.live s.2 jobId) = true ∧
        onJob lib ok event jobId s = (.ok (), (s.1, lib.on event s.2)) ∨
      onJob lib ok event jobId s = (.error (.other ""), s) := by
  unfold onJob
  cases h : ok (lib.live s.2 jobId) with
  | true => exact .inl ⟨rfl, if_pos rfl⟩
  | false => exact .inr (if_neg (by simp))

theorem records_move {h : JobEnd → List String} (hr : JobLib.Records s.2 h)
    {ok : Option JobState → Bool} (hok : ∀ state, ok state = true → state.isSome) (st : JobState)
    (jobId : String) : JobLib.Records (onJob lib ok (.move jobId st) jobId s).2.2 h := by
  rcases onJob_cases ok (.move jobId st) jobId s with ⟨hlive, heq⟩ | heq
  · rw [heq]
    exact hr.move (hok _ hlive) st
  · rw [heq]
    exact hr

/-- One request of the rounds and the workers keeps the records of the queue. -/
theorem records_execRound {h : JobEnd → List String} (hr : JobLib.Records s.2 h) (o : RoundOp)
    (d : Decision) : JobLib.Records (execRound lib o d s).2.2 fun k => ((roundAct
      (⟨.inr o, d, (execRound lib o d s).1⟩ : Event (roundMachine lib))).ends k).toList ++ h k := by
  cases o with
  | findStale => exact hr
  | addBulk jobs =>
    simp only [ends_addBulk]
    exact hr.add _
  | change w => exact hr
  | take jobId =>
    refine records_move hr (fun state hok => ?_) .active jobId
    rw [of_decide_eq_true hok]
    rfl
  | delay jobId =>
    refine records_move hr (fun state hok => ?_) .delayed jobId
    rw [of_decide_eq_true hok]
    rfl
  | wait jobId =>
    refine records_move hr (fun state hok => ?_) .waiting jobId
    rcases of_decide_eq_true hok with hstate | hstate <;> rw [hstate] <;> rfl
  | finish e jobId =>
    have hx : execRound lib (.finish e jobId) d s =
        onJob lib (· = some .active) (.finish e jobId) jobId s := rfl
    rw [hx]
    rcases onJob_cases (· = some .active) (.finish e jobId) jobId s with ⟨hlive, heq⟩ | heq
    · have hends : Function.update h e (jobId :: h e) =
          fun k => ((RoundAct.finished e jobId).ends k).toList ++ h k := by
        funext k
        by_cases hk : k = e
        · subst hk
          simp [RoundAct.ends]
        · simp [RoundAct.ends, Function.update_of_ne hk, Ne.symm hk]
      have hfin := hr.finish (of_decide_eq_true hlive) e
      rw [hends] at hfin
      rw [heq]
      exact hfin
    · rw [heq]
      exact hr

theorem records_step {h : JobEnd → List String} (hr : JobLib.Records s.2 h)
    (hans : e.ans = ((roundMachine lib).exec e.op e.dec s).1) :
    JobLib.Records ((roundMachine lib).exec e.op e.dec s).2.2
      fun k => ((roundAct e).ends k).toList ++ h k := by
  obtain ⟨o, d, a⟩ := e
  cases o with
  | inl o => exact hr
  | inr o =>
    cases hd : d.fail with
    | some er =>
      simp only [roundMachine, hd] at hans ⊢
      subst hans
      have hends : ∀ k, (roundAct (⟨.inr o, d, .error er⟩ : Event (roundMachine lib))).ends k = none :=
        ends_error o d er
      simp only [hends]
      exact hr
    | none =>
      simp only [roundMachine, hd] at hans ⊢
      subst hans
      exact records_execRound hr o d

/-- **What the queue keeps is the last of the run.** -/
theorem records_replay
    (hans : Genuine (M := roundMachine lib) (w, lib.empty) tr) :
    JobLib.Records (replay (M := roundMachine lib) (w, lib.empty) tr).2
      fun k => endedIds k (acts roundAct tr) := by
  induction tr using List.reverseRecOn with
  | nil => exact JobLib.Records.empty
  | append_singleton tr x ih =>
    obtain ⟨t, e⟩ := x
    obtain ⟨hans, he⟩ := along_snoc.mp hans
    have h := records_step (ih hans) he
    rw [replay_snoc, acts_snoc]
    simp only [endedIds_snoc]
    exact h

theorem roundAct_adds {jobs : List ReconcileJob} (h : roundAct e = .adds jobs) :
    ∃ d a, e = ⟨.inr (.addBulk jobs), d, a⟩ ∧ d.fail = none := by
  obtain ⟨o, d, a⟩ := e
  rcases o with o | o
  · cases h
  · cases o with
    | addBulk jobs' =>
      cases hd : d.fail with
      | some er => simp [roundAct, hd] at h
      | none =>
        obtain rfl : jobs' = jobs := by simpa [roundAct, hd] using h
        exact ⟨d, a, rfl, hd⟩
    | _ => cases a <;> cases h

theorem roundAct_selected {ids : List String} (h : roundAct e = .selected ids) :
    ∃ d, e = ⟨.inr .findStale, d, .ok ids⟩ := by
  obtain ⟨o, d, a⟩ := e
  rcases o with o | o
  · cases h
  · cases o with
    | addBulk jobs => cases hd : d.fail <;> simp [roundAct, hd] at h
    | _ => cases a <;> cases h <;> exact ⟨d, rfl⟩

/-- **What a round selects**: payments that are PENDING, with an external id, and old. -/
theorem selected_stale (hans : Genuine (M := roundMachine lib) (w, lib.empty) tr) {j : Nat}
    {ids : List String} (h : (acts roundAct tr)[j]? = some (t, .selected ids)) {id : String} (hid : id ∈ ids) :
    ∃ now, ∃ p ∈ (replay (M := roundMachine lib) (w, lib.empty) (tr.take j)).1.payments.rows,
      p.id = id ∧ p.Stale now := by
  obtain ⟨e, hj, hact⟩ := getElem?_acts.mp h
  obtain ⟨d, rfl⟩ := roundAct_selected hact
  have hans := hans.of_getElem? hj
  cases hd : d.fail with
  | some er =>
    simp only [roundMachine, hd] at hans
    cases hans
  | none =>
    simp only [roundMachine, hd] at hans
    cases hans
    exact ⟨d.now, ReconciliationService.mem_findStale hid⟩

/-- What an add answers and does, while the queue works. -/
theorem exec_addBulk {jobs : List ReconcileJob} {d : Decision} (hd : d.fail = none) :
    (roundMachine lib).exec (.inr (.addBulk jobs)) d s =
      execRound lib (.addBulk jobs) d s := by
  simp only [roundMachine, hd]

/-- The jobs that a round asked for, right after the round. -/
theorem live_after_round (hans : Genuine (M := roundMachine lib) (w, lib.empty) tr) {j i : Nat}
    {ids : List String} (hround : RoundAt (acts roundAct tr) t j i ids) :
    (∀ id ∈ ids, (lib.live (replay (M := roundMachine lib) (w, lib.empty) (tr.take (i + 1))).2
      (ReconciliationService.reconcileJob id).jobId).isSome) ↔
    ∀ id ∈ ids, lib.accepts (ReconciliationService.reconcileJob id).jobId = true ∧
      ∀ e, (ReconciliationService.reconcileJob id).jobId ∉
        (endedIds e ((acts roundAct tr).take i)).take (retention e) := by
  obtain ⟨e, hi, hact⟩ := getElem?_acts.mp hround.adds
  obtain ⟨d, a, rfl, hd⟩ := roundAct_adds hact
  have hiff := (records_replay (hans.take i)).live_add_iff
    (ids.map fun id => (ReconciliationService.reconcileJob id).jobId)
  rw [replay_take_succ hi, exec_addBulk hd, ← acts_take]
  simpa [execRound, Function.comp_def] using hiff

/-- How a round ends. -/
def RoundEnds (es : List (Event (roundMachine lib))) (r : Except Err Unit) : Prop :=
  (∃ d er, es = [⟨.inr .findStale, d, .error er⟩]) ∨ (∃ d, es = [⟨.inr .findStale, d, .ok []⟩]) ∨
    ∃ d ids d', es = [⟨.inr .findStale, d, .ok ids⟩,
      ⟨.inr (.addBulk (ids.map ReconciliationService.reconcileJob)), d', r⟩]

theorem ends_schedule : (schedulePendingReconciliation lib).Ends RoundEnds [] := by
  refine Prog.Ends.perform_bind fun d s r s' hx => ?_
  cases r with
  | error er => exact .inl ⟨d, er, rfl⟩
  | ok ids =>
    by_cases hids : ids = []
    · subst hids
      exact .inr (.inl ⟨d, rfl⟩)
    · show Prog.Ends _ (if ids = [] then _ else _) _
      rw [if_neg hids]
      refine Prog.Ends.perform (M := roundMachine lib) (o := .inr (.addBulk _)) (Q := RoundEnds) ?_
      exact fun d' s r s' _ => .inr (.inr ⟨d, ids, d', rfl⟩)

def RoundCall.Ends : RoundCall → List (Event (roundMachine lib)) → Except Err Unit → Prop
  | .round => RoundEnds
  | _ => fun _ _ => True

theorem ends_call (lib : JobLib String retention) (registry : ProviderRegistry)
    (calls : ι → RoundCall) (t : ι) : ((calls t).prog lib registry).Ends (calls t).Ends [] := by
  cases calls t with
  | round => exact ends_schedule
  | attempt paymentId last => exact Prog.Ends.of_forall fun _ _ => trivial
  | wait paymentId => exact Prog.Ends.of_forall fun _ _ => trivial
  | giveUp paymentId => exact Prog.Ends.of_forall fun _ _ => trivial
  | change w => exact Prog.Ends.of_forall fun _ _ => trivial

variable [DecidableEq ι] {registry : ProviderRegistry} {calls : ι → RoundCall}
  {c : Conf (roundMachine lib) ι Unit}

/-- A round that has ended met a failure, or selected nothing, or asked for the jobs of what it
selected. -/
theorem exists_roundAt (hr : Conf.Reach Any (startRounds lib registry calls w) c)
    (hcall : calls t = .round) (ht : (c.thr t).ended) :
    (∃ j : Nat, (acts roundAct c.trace)[j]? = some (t, .failed)) ∨
      ∃ (j : Nat) (ids : List String), (acts roundAct c.trace)[j]? = some (t, .selected ids) ∧
        (ids = [] ∨ ∃ i, RoundAt (acts roundAct c.trace) t j i ids) := by
  obtain ⟨r, hres⟩ := Prog.exists_ofExcept ht
  have hends := hr.ended (ends_call lib registry calls) hres
  rw [hcall] at hends
  obtain ⟨f, hf⟩ := exists_place_ownEvents t c.trace
  have hact : ∀ k e, (ownEvents t c.trace)[k]? = some e →
      (acts roundAct c.trace)[f k]? = some (t, roundAct e) :=
    fun k e hk => getElem?_acts.mpr ⟨e, hf k e hk, rfl⟩
  rcases hends with ⟨d, er, hown⟩ | ⟨d, hown⟩ | ⟨d, ids, d', hown⟩ <;> rw [hown] at hact
  · exact .inl ⟨f 0, hact 0 _ rfl⟩
  · exact .inr ⟨f 0, [], hact 0 _ rfl, .inl rfl⟩
  · have hadds := hact 1 _ rfl
    by_cases hd : d'.fail.isNone
    · rw [roundAct, if_pos hd] at hadds
      exact .inr ⟨f 0, ids, hact 0 _ rfl, .inr ⟨f 1, f.strictMono Nat.zero_lt_one, hact 0 _ rfl, hadds⟩⟩
    · rw [roundAct, if_neg hd] at hadds
      exact .inl ⟨f 1, hadds⟩

/-- **A round of which one job is refused does not return.** -/
theorem not_returned_of_refused (hr : Conf.Reach Any (startRounds lib registry calls w) c)
    (hcall : calls t = .round) {j i : Nat} {ids : List String}
    (hround : RoundAt (acts roundAct c.trace) t j i ids) {id : String} (hid : id ∈ ids)
    (hrefused : lib.accepts (ReconciliationService.reconcileJob id).jobId = false) :
    c.thr t ≠ .ret () := by
  intro ht
  obtain ⟨e, hi, hact⟩ := getElem?_acts.mp hround.adds
  obtain ⟨d, a, rfl, hd⟩ := roundAct_adds hact
  have hmem := mem_ownEvents.mpr (List.mem_of_getElem? hi)
  have hends := hr.ended (ends_call lib registry calls) (r := .ok ()) ht
  rw [hcall] at hends
  -- the add is the last request of the round, so its answer is the result
  have ha : a = .ok () := by
    rcases hends with ⟨d, er, hown⟩ | ⟨d, hown⟩ | ⟨d, ids', d', hown⟩ <;> rw [hown] at hmem
    · cases List.mem_singleton.mp hmem
    · cases List.mem_singleton.mp hmem
    · rcases List.mem_cons.mp hmem with h | h
      · cases h
      · exact eq_of_heq (Event.mk.inj (List.mem_singleton.mp h)).2.2
  have hans := (Conf.Reach.answered hr).of_getElem? hi
  rw [exec_addBulk hd, ha] at hans
  have hall : ((ids.map ReconciliationService.reconcileJob).map (·.jobId)).all lib.accepts = true := by
    by_contra hnot
    rw [execRound, if_neg hnot] at hans
    cases hans
  have haccepts := List.all_eq_true.mp hall (ReconciliationService.reconcileJob id).jobId
    (List.mem_map_of_mem (List.mem_map_of_mem hid))
  rw [hrefused] at haccepts
  cases haccepts

end Run

/-- **When each round enqueues what it selects**: a round selects old PENDING payments with an
external id; one that has ended, and met no failure, has selected nothing or asked for a job for each
of them; and in any interleaving, right after each round the payments that it selected have jobs that
will run, iff none of these jobs was refused or was one of the last finished ones that are kept. A
round that selected a payment whose id has no `:` does not return, so where no payment id has one the
rounds enqueue what they select only if they select nothing. -/
theorem rounds_enqueue_iff {ι : Type} [DecidableEq ι] (lib : JobLib String retention)
    (hlib : ThreeParts lib) (registry : ProviderRegistry) (calls : ι → RoundCall) (w : World)
    (c : Conf (roundMachine lib) ι Unit)
    (hr : Conf.Reach Any (startRounds lib registry calls w) c) :
    (∀ t j ids, (acts roundAct c.trace)[j]? = some (t, .selected ids) → ∀ id ∈ ids, ∃ now,
      ∃ p ∈ (replay (M := roundMachine lib) (w, lib.empty) (c.trace.take j)).1.payments.rows,
        p.id = id ∧ p.Stale now) ∧
    (∀ t, calls t = .round → (c.thr t).ended →
      (∃ j : Nat, (acts roundAct c.trace)[j]? = some (t, .failed)) ∨
      ∃ (j : Nat) (ids : List String), (acts roundAct c.trace)[j]? = some (t, .selected ids) ∧
        (ids = [] ∨ ∃ i, RoundAt (acts roundAct c.trace) t j i ids)) ∧
    (RoundsEnqueue lib w c.trace ↔
      NoneRefused lib (acts roundAct c.trace) ∧ NoneKept (acts roundAct c.trace)) ∧
    (∀ t j i ids, calls t = .round → RoundAt (acts roundAct c.trace) t j i ids →
      ∀ id ∈ ids, ':' ∉ id.toList → c.thr t ≠ .ret ()) ∧
    ((∀ t j i ids, RoundAt (acts roundAct c.trace) t j i ids → ∀ id ∈ ids, ':' ∉ id.toList) →
      (RoundsEnqueue lib w c.trace ↔
        ∀ t j i ids, RoundAt (acts roundAct c.trace) t j i ids → ids = [])) := by
  have hans := Conf.Reach.answered hr
  have hiff : RoundsEnqueue lib w c.trace ↔
      NoneRefused lib (acts roundAct c.trace) ∧ NoneKept (acts roundAct c.trace) := by
    constructor
    · intro h
      have hclear := fun t j i ids hround => (live_after_round hans hround).mp (h t j i ids hround)
      exact ⟨fun t j i ids hround id hid => (hclear t j i ids hround id hid).1,
        fun t j i ids hround id hid => (hclear t j i ids hround id hid).2⟩
    · rintro ⟨hrefused, hkept⟩ t j i ids hround
      exact (live_after_round hans hround).mpr fun id hid =>
        ⟨hrefused t j i ids hround id hid, hkept t j i ids hround id hid⟩
  refine ⟨fun t j ids h id hid => selected_stale hans h hid,
    fun t hcall ht => exists_roundAt hr hcall ht, hiff, ?_, fun hcuid => ?_⟩
  · intro t j i ids hcall hround id hid hcuid
    exact not_returned_of_refused hr hcall hround hid
      (ReconciliationService.refused_of_cuid hlib hcuid)
  · rw [hiff]
    constructor
    · rintro ⟨hrefused, -⟩ t j i ids hround
      refine List.eq_nil_iff_forall_not_mem.mpr fun id hid => ?_
      have haccepts := hrefused t j i ids hround id hid
      rw [ReconciliationService.refused_of_cuid hlib (hcuid t j i ids hround id hid)] at haccepts
      cases haccepts
    · intro hnil
      refine ⟨fun t j i ids hround id hid => ?_, fun t j i ids hround id hid => ?_⟩ <;>
        · rw [hnil t j i ids hround] at hid
          cases hid

/-! ### Rounds of one payment -/

def twoRounds : Bool → RoundCall := fun _ => .round

/-- An old PENDING payment. -/
def staleWorld (id : String) : World := .withPayment { samplePayment .pending with id }

/-- Queues of which the ids have three parts, or one. -/
def listedQueues : JobLib String retention :=
  JobQueue.listed retention fun id => ':' ∉ id.toList || id.toList.count ':' == 2

theorem listedQueues_threeParts : ThreeParts listedQueues := by
  intro id hid
  show (decide (':' ∉ id.toList) || id.toList.count ':' == 2) = true ↔ _
  simp [hid]

def roundsStart (id : String) : Conf (roundMachine listedQueues) Bool Unit :=
  startRounds _ fakeRegistry twoRounds (staleWorld id)

/-- More than half an hour after the payment. -/
def later : Decision := { now := 2000000 }

/-- Both rounds, one after the other. -/
def roundsInTurn : List (Bool × Decision) := [(false, later), (false, {}), (true, later), (true, {})]

theorem acts_roundsInTurn : acts roundAct ((roundsStart "pay:1").play roundsInTurn).trace =
    [(false, .selected ["pay:1"]), (false, .adds [ReconciliationService.reconcileJob "pay:1"]),
      (true, .selected ["pay:1"]), (true, .adds [ReconciliationService.reconcileJob "pay:1"])] := by
  decide +kernel

/-- An id of three parts is taken, and the second round finds the job of the first one. -/
theorem rounds_enqueue_waiting :
    RoundsEnqueue listedQueues (staleWorld "pay:1") ((roundsStart "pay:1").play roundsInTurn).trace := by
  have hrefused : NoneRefused listedQueues
      (acts roundAct ((roundsStart "pay:1").play roundsInTurn).trace) := by
    intro t j i ids hround id hid
    have hselects := List.mem_of_getElem? hround.selects
    rw [acts_roundsInTurn] at hselects
    obtain rfl : ids = ["pay:1"] := by
      simp at hselects
      exact hselects.elim (·.2) (·.2)
    rw [List.mem_singleton.mp hid]
    decide
  have hkept : NoneKept (acts roundAct ((roundsStart "pay:1").play roundsInTurn).trace) := by
    rw [acts_roundsInTurn]
    intro t j i ids _ id _ e hmem
    rw [endedIds, List.filterMap_eq_nil_iff.mpr, List.reverse_nil, List.take_nil] at hmem
    · cases hmem
    · intro x hx
      have hx := List.mem_of_mem_take hx
      simp only [List.mem_cons, List.not_mem_nil, or_false] at hx
      rcases hx with rfl | rfl | rfl | rfl <;> rfl
  exact (rounds_enqueue_iff _ listedQueues_threeParts fakeRegistry twoRounds _ _
    (Conf.reach_play (Conf.plays_any (roundsStart "pay:1") roundsInTurn))).2.2.1.mpr ⟨hrefused, hkept⟩

/-- The id of the payment has no `:`, so the queue refuses the job and stays empty, and the round
throws. -/
theorem stale_not_enqueued :
    Conf.Reach Any (roundsStart "pay") ((roundsStart "pay").play (roundsInTurn.take 2)) ∧
      ((roundsStart "pay").play (roundsInTurn.take 2)).thr false =
        .throw (.other "Custom Id cannot contain :") ∧
      ¬ RoundsEnqueue listedQueues (staleWorld "pay")
        ((roundsStart "pay").play (roundsInTurn.take 2)).trace := by
  refine ⟨Conf.reach_play (Conf.plays_any _ _), rfl, fun h => ?_⟩
  have hround : RoundAt (acts roundAct ((roundsStart "pay").play (roundsInTurn.take 2)).trace)
      false 0 1 ["pay"] := ⟨by decide, by decide +kernel, by decide +kernel⟩
  have hlive := h false 0 1 ["pay"] hround "pay" (List.mem_singleton_self _)
  have hnone : (listedQueues.live
      (replay (M := roundMachine listedQueues) (staleWorld "pay", listedQueues.empty)
        (((roundsStart "pay").play (roundsInTurn.take 2)).trace.take 2)).2
      (ReconciliationService.reconcileJob "pay").jobId).isSome = false := by
    decide +kernel
  rw [hnone] at hlive
  cases hlive

end Pasarela
