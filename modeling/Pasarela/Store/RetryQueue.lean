import Pasarela.Store.JobQueue

/-!
# Queues that try a job again

A job that was added waits until a worker takes it. A job that fails waits again, after a delay, as
long as it has attempts left, and so does a job whose worker is gone, a few times. A finished job
stays stored for a while, and an add with the id of a stored job is ignored.

* `Life`: what a queue has of one id. `Life.on lim`: what an event does to it. A worker that took a
  job as the `token`-th one reports with that token, and is not heard when another took it since.
* `RetryLib`: what a program relies on of a library of such queues: that each event does what
  `Life.on` says to its id, and nothing to the others.
* `Taken lim l adds takes`: `l` is the life of an id after `adds` adds, and workers took it `takes`
  times. Every event keeps it (`Taken.on`), so no job is taken more than `lim.most` times for each
  add (`Taken.most`).
-/

namespace Store

/-- How often a job may fail, and how often it may lose its worker. -/
structure Retries where
  attempts : Nat
  stalls : Nat
  attempts_pos : 0 < attempts

/-- How often a job can be taken. -/
def Retries.most (lim : Retries) : Nat := lim.attempts + lim.stalls

/-- A job that is not finished, with how often it was taken, failed, and lost its worker. -/
structure LiveJob (δ : Type) where
  data : δ
  state : JobState
  taken : Nat := 0
  failed : Nat := 0
  stalled : Nat := 0

/-- What a queue has of one id. -/
inductive Life (δ : Type) where
  /-- Nothing: never added, or removed after it finished. -/
  | absent
  | live (job : LiveJob δ)
  | ended (e : JobEnd)

/-- What happens to one id. -/
inductive LifeEvent (δ : Type) where
  | add (data : δ)
  | take
  | complete (token : Nat)
  | fail (token : Nat)
  /-- The delay is over. -/
  | promote
  /-- The worker is gone. -/
  | stall
  /-- A finished job is removed. -/
  | remove

variable {δ : Type}

/-- The worker that took the job as the `token`-th one has it. -/
def LiveJob.Held (job : LiveJob δ) (token : Nat) : Prop := job.state = .active ∧ job.taken = token

instance (job : LiveJob δ) (token : Nat) : Decidable (job.Held token) :=
  inferInstanceAs (Decidable (_ ∧ _))

/-- The job of a life. -/
def Life.job? : Life δ → Option (LiveJob δ)
  | .live job => some job
  | _ => none

/-- What an event does to a life (module doc). -/
def Life.on (lim : Retries) : LifeEvent δ → Life δ → Life δ
  | .add data, .absent => .live { data, state := .waiting }
  | .take, .live job =>
    .live (if job.state = .waiting then { job with state := .active, taken := job.taken + 1 } else job)
  | .complete token, .live job => if job.Held token then .ended .completed else .live job
  | .fail token, .live job =>
    if job.Held token then
      if job.failed + 1 < lim.attempts then .live { job with state := .delayed, failed := job.failed + 1 }
      else .ended .failed
    else .live job
  | .promote, .live job => .live (if job.state = .delayed then { job with state := .waiting } else job)
  | .stall, .live job =>
    if job.state = .active then
      if job.stalled < lim.stalls then .live { job with state := .waiting, stalled := job.stalled + 1 }
      else .ended .failed
    else .live job
  | .remove, .ended _ => .absent
  | _, l => l

/-- What a program relies on (module doc). -/
structure RetryLib (κ δ : Type) [DecidableEq κ] (lim : Retries) where
  Queue : Type
  empty : Queue
  life : Queue → κ → Life δ
  on : κ → LifeEvent δ → Queue → Queue
  life_empty (k : κ) : life empty k = .absent
  life_on (k : κ) (e : LifeEvent δ) (q : Queue) :
    life (on k e q) = Function.update (life q) k ((life q k).on lim e)

/-- The queues that are functions. -/
def RetryLib.functions (κ δ : Type) [DecidableEq κ] (lim : Retries) : RetryLib κ δ lim where
  Queue := κ → Life δ
  empty _ := .absent
  life q := q
  on k e q := Function.update q k ((q k).on lim e)
  life_empty _ := rfl
  life_on _ _ _ := rfl

/-! ## How often a job is taken -/

/-- A worker that asks for the job gets it. -/
def Life.ready : Life δ → Bool
  | .live job => job.state = .waiting
  | _ => false

/-- The counts of a job. -/
structure LiveJob.Ok (lim : Retries) (job : LiveJob δ) : Prop where
  failed : job.failed < lim.attempts
  stalled : job.stalled ≤ lim.stalls
  taken : job.taken = job.failed + job.stalled + if job.state = .active then 1 else 0

theorem LiveJob.Ok.taken_le {lim : Retries} {job : LiveJob δ} (h : job.Ok lim) :
    job.taken ≤ lim.most := by
  obtain ⟨hf, hs, ht⟩ := h
  rw [Retries.most, ht]
  split <;> omega

/-- The past of an id (module doc). -/
structure Taken (lim : Retries) (l : Life δ) (adds takes : Nat) : Prop where
  most : takes ≤ adds * lim.most
  live : ∀ job, l = .live job → job.Ok lim ∧ ∃ n, adds = n + 1 ∧ takes ≤ n * lim.most + job.taken

section Counts

variable {lim : Retries} {job : LiveJob δ}

theorem LiveJob.Ok.taken_of_active (h : job.Ok lim) (ha : job.state = .active) :
    job.taken = job.failed + job.stalled + 1 := by
  rw [h.taken, if_pos ha]

theorem LiveJob.Ok.taken_of_ne (h : job.Ok lim) (ha : job.state ≠ .active) :
    job.taken = job.failed + job.stalled := by
  rw [h.taken, if_neg ha, Nat.add_zero]

/-- A job that no worker has. -/
theorem LiveJob.Ok.of_ne (hf : job.failed < lim.attempts) (hs : job.stalled ≤ lim.stalls)
    (ha : job.state ≠ .active) (ht : job.taken = job.failed + job.stalled) : job.Ok lim :=
  ⟨hf, hs, by rw [if_neg ha, ht, Nat.add_zero]⟩

end Counts

/-- How many adds an event is. -/
def LifeEvent.adds : LifeEvent δ → Nat
  | .add _ => 1
  | _ => 0

/-- How often an event gives a worker the job. -/
def LifeEvent.takes (l : Life δ) : LifeEvent δ → Nat
  | .take => if l.ready then 1 else 0
  | _ => 0

namespace Taken

variable {lim : Retries} {l : Life δ} {adds takes : Nat}

theorem start (lim : Retries) : Taken lim (.absent : Life δ) 0 0 where
  most := Nat.zero_le _
  live _ h := by cases h

/-- A life that is not live. -/
theorem of_not_live (h : takes ≤ adds * lim.most) (hl : l.job? = none) : Taken lim l adds takes where
  most := h
  live job hj := by rw [hj] at hl; cases hl

/-- A live job whose counts are right after a step. -/
theorem of_live {job : LiveJob δ} {n : Nat} (hok : job.Ok lim)
    (ht : takes ≤ n * lim.most + job.taken) : Taken lim (.live job) (n + 1) takes where
  most := by
    have hle := hok.taken_le
    rw [Nat.succ_mul]
    omega
  live job' hj := by
    cases hj
    exact ⟨hok, n, rfl, ht⟩

/-- An add of a stored job is ignored. -/
theorem ignored (h : Taken lim l adds takes) : Taken lim l (adds + 1) takes where
  most := by
    have hm := h.most
    rw [Nat.succ_mul]
    omega
  live job hj := by
    obtain ⟨hok, n, rfl, ht⟩ := h.live job hj
    refine ⟨hok, n + 1, rfl, ?_⟩
    rw [Nat.succ_mul]
    omega

/-- **Every event keeps the counts.** -/
theorem on (h : Taken lim l adds takes) (e : LifeEvent δ) :
    Taken lim (l.on lim e) (adds + e.adds) (takes + e.takes l) := by
  cases l with
  | absent =>
    cases e with
    | add data =>
      refine of_live ⟨lim.attempts_pos, Nat.zero_le _, rfl⟩ ?_
      exact h.most
    | take => exact h
    | complete token => exact h
    | fail token => exact h
    | promote => exact h
    | stall => exact h
    | remove => exact h
  | ended e' =>
    cases e with
    | add data => exact h.ignored
    | take => exact h
    | complete token => exact h
    | fail token => exact h
    | promote => exact h
    | stall => exact h
    | remove => exact of_not_live h.most rfl
  | live job =>
    obtain ⟨hok, n, rfl, hn⟩ := h.live job rfl
    cases e with
    | add data => exact h.ignored
    | take =>
      simp only [Life.on, LifeEvent.takes, Life.ready, decide_eq_true_eq]
      split
      · rename_i hw
        -- a waiting job has failed or stalled as often as it was taken
        refine of_live ⟨hok.failed, hok.stalled, ?_⟩ (Nat.succ_le_succ hn)
        rw [if_pos rfl, hok.taken_of_ne (by rw [hw]; decide)]
      · exact h
    | complete token =>
      simp only [Life.on]
      split
      · exact of_not_live h.most rfl
      · exact h
    | fail token =>
      simp only [Life.on]
      split
      · rename_i hheld
        split
        · rename_i hlt
          -- a failure makes up for the take that it ends
          have ht := hok.taken_of_active hheld.1
          exact of_live (.of_ne hlt hok.stalled (fun he => by cases he) (by simp only; omega)) hn
        · exact of_not_live h.most rfl
      · exact h
    | promote =>
      simp only [Life.on]
      split
      · rename_i hd
        have ht := hok.taken_of_ne (by rw [hd]; decide)
        exact of_live (.of_ne hok.failed hok.stalled (fun he => by cases he) ht) hn
      · exact h
    | stall =>
      simp only [Life.on]
      split
      · rename_i ha
        split
        · rename_i hlt
          have ht := hok.taken_of_active ha
          exact of_live (.of_ne hok.failed hlt (fun he => by cases he) (by simp only; omega)) hn
        · exact of_not_live h.most rfl
      · exact h
    | remove => exact h

end Taken

/-! ## A job that has finished -/

/-- A job is live after an event only if it was before, or the event adds it. -/
theorem Life.job?_on {lim : Retries} {l : Life δ} {e : LifeEvent δ} (h : l.job? = none)
    (he : e.adds = 0) : (l.on lim e).job? = none := by
  cases l with
  | live job => cases h
  | absent =>
    cases e with
    | add data => cases he
    | _ => rfl
  | ended e' => cases e <;> rfl

/-- The data of a job stay. -/
theorem Life.data_on {lim : Retries} {l : Life δ} {e : LifeEvent δ} {job : LiveJob δ}
    (h : (l.on lim e).job? = some job) :
    (∃ job', l.job? = some job' ∧ job'.data = job.data) ∨ e = .add job.data := by
  cases l with
  | absent => cases e <;> cases h; exact .inr rfl
  | ended e' => cases e <;> cases h
  | live job' =>
    refine .inl ⟨job', rfl, ?_⟩
    cases e <;> grind [Life.on, Life.job?]

end Store
