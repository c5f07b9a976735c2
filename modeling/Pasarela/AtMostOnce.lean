import Pasarela.Sequential

/-!
# A webhook job takes effect once

Webhook jobs are attempted any number of times, with other operations in between, one after
another. An attempt writes the status and marks the delivery in two commits, so an attempt that
failed in the mark is made again after its own effect.

* `Turn`: an operation of the run, with the decisions of the environment. `contribution f i`: what
  the attempts at job `i` add up to, by the measure `f` of the states before and after one.
* `Past job s`: the payment of the job is not behind the status of the job. No operation undoes
  this, and an attempt then changes nothing: a status that was left does not come back
  (`Valid.rank`).
* `webhook_applied_once`.
-/

namespace Pasarela

open Conc (Alone Task)
open Store (Table)

/-- An operation of a run (module doc). The jobs have names, as one event may be in two of them. -/
inductive Operation (ι : Type) where
  | payments (call : PaymentsCall)
  | attempt (job : ι)
  | reconcile (paymentId : String)

/-- An operation, and what the environment decides at its requests. -/
structure Turn (ι : Type) where
  op : Operation ι
  ω : Op → Decision

/-- The operation is an attempt at the job. -/
def Operation.isAttempt {ι : Type} [DecidableEq ι] (i : ι) : Operation ι → Bool
  | .attempt j => i = j
  | _ => false

/-- The events of `s'` that `s` does not have. -/
def newEvents (s s' : World) : Nat :=
  (s'.events.rows.filter fun e => e.id ∉ s.events.rows.map (·.id)).length

/-- The payments of `s` that have another status in `s'`. -/
def statusChanges (s s' : World) : Nat :=
  (s.payments.rows.filter fun p => (s'.payments.find p.id).any fun p' => p'.status ≠ p.status).length

section Measure

variable {s s' : World} {p : Payment} {st : PaymentStatus}

theorem newEvents_of_unmoved (h : Unmoved s s') : newEvents s s' = 0 := by
  rw [newEvents, h.events, List.length_eq_zero_iff, List.filter_eq_nil_iff]
  intro e he
  simpa using ⟨e, he, rfl⟩

theorem newEvents_of_written (h : StatusWritten p st s s') : newEvents s s' ≤ 1 := by
  obtain ⟨ev, -, hev⟩ := h.events
  have hold : s.events.rows.filter (fun e => e.id ∉ s.events.rows.map (·.id)) = [] := by
    rw [List.filter_eq_nil_iff]
    intro e he
    simpa using ⟨e, he, rfl⟩
  rw [newEvents, (Table.insert_ok hev).1, List.filter_append, hold, List.nil_append]
  exact List.length_filter_le _ [ev]

theorem statusChanges_of_unmoved (h : Unmoved s s') : statusChanges s s' = 0 := by
  rw [statusChanges, h.payments, List.length_eq_zero_iff, List.filter_eq_nil_iff]
  intro q hq
  have hfind : s.payments.find q.id = some q := Table.find_eq_some.mpr ⟨hq, rfl⟩
  simp [hfind]

theorem statusChanges_of_written (h : StatusWritten p st s s') : statusChanges s s' ≤ 1 := by
  obtain ⟨d, -, hmem⟩ := h.row
  have hself : ∀ q ∈ s.payments,
      ((s'.payments.find q.id).any fun p' => p'.status ≠ q.status) → q = p := by
    intro q hq hc
    by_contra hne
    have hid : q.id ≠ p.id := fun e => hne (Table.eq_of_key hq h.mem e)
    have hfind : s'.payments.find q.id = some q :=
      Table.find_eq_some.mpr ⟨(hmem q).mpr (.inl ⟨hq, hid⟩), rfl⟩
    simp [hfind] at hc
  exact Table.length_filter_le_one fun a ha b hb hpa hpb =>
    (hself a ha hpa).trans (hself b hb hpb).symm

end Measure

section Run

variable {ι : Type} (registry : ProviderRegistry) (jobs : ι → WebhookJob)

def Operation.call : Operation ι → ServiceCall
  | .payments call => .payments call
  | .attempt i => .webhook (jobs i)
  | .reconcile id => .reconcile id

/-- The operation as a program of the sequence. -/
def Turn.task (x : Turn ι) : Task machine Unit := ⟨(x.op.call jobs).run registry, x.ω⟩

/-- The state after the operation. -/
def Turn.after (x : Turn ι) (s : World) : World := ((x.task registry jobs).ran s).outcome.state

variable [DecidableEq ι]

/-- What the attempts at job `i` add up to (module doc). -/
def contribution (f : World → World → Nat) (i : ι) : World → List (Turn ι) → Nat
  | _, [] => 0
  | s, x :: xs =>
    (if x.op.isAttempt i then f s (x.after registry jobs s) else 0) +
      contribution f i (x.after registry jobs s) xs

variable {registry jobs}

/-- The payment of the job is not behind its status (module doc). -/
def Past (job : WebhookJob) (s : World) : Prop :=
  ∃ p ∈ s.payments, ∃ st, job.event.Matches p ∧ statusMap job.event.status = some st ∧
    st.rank ≤ p.status.rank

theorem Past.advances {job : WebhookJob} {s s' : World} (h : Past job s) (ha : Advances s s') :
    Past job s' := by
  obtain ⟨p, hp, st, hm, hst, hle⟩ := h
  obtain ⟨p', hp', -, hext, hprov, hrank⟩ := ha p hp
  exact ⟨p', hp', st, ⟨hext.trans hm.1, hprov.trans hm.2⟩, hst, hle.trans hrank⟩

/-- An attempt that writes its status is past it. -/
theorem StatusWritten.past {job : WebhookJob} {p : Payment} {st : PaymentStatus} {s s' : World}
    (h : StatusWritten p st s s') (hm : job.event.Matches p)
    (hst : statusMap job.event.status = some st) : Past job s' := by
  obtain ⟨d, hrow, -⟩ := h.row
  exact ⟨_, hrow, st, hm, hst, Nat.le_refl _⟩

omit [DecidableEq ι] in
theorem Turn.advances (x : Turn ι) (s : World) : Advances s (x.after registry jobs s) :=
  (call_alone (A := fun _ _ => True) registry (x.op.call jobs)).run fun _ => trivial

/-- An attempt at the job: it moves nothing, or it writes the status and the job was not past. -/
theorem Turn.attempt_cases {i : ι} {x : Turn ι} (hx : x.op.isAttempt i) {s : World}
    (hu : s.ExternalUnique) : Unmoved s (x.after registry jobs s) ∨
      ∃ p st, StatusWritten p st s (x.after registry jobs s) ∧ ¬ Past (jobs i) s ∧
        Past (jobs i) (x.after registry jobs s) := by
  obtain ⟨op, ω⟩ := x
  cases op with
  | payments call => cases hx
  | reconcile id => cases hx
  | attempt j =>
    obtain rfl : i = j := by simpa [Operation.isAttempt] using hx
    have h : Processed (jobs i) s
        ((WebhookProcessor.process (jobs i)).run ω s).result
        (Turn.after registry jobs ⟨.attempt i, ω⟩ s) :=
      process_run (jobs i) ω s
    cases h with
    | thrown e hr hs => exact .inl hs
    | skipped p hp hm hst hs => exact .inl hs
    | applied p st hm hst hne hs =>
      refine .inr ⟨p, st, hs, ?_, hs.past hm hst⟩
      rintro ⟨q, hq, st', hmq, hst', hle⟩
      obtain rfl : st = st' := Option.some.inj (hst.symm.trans hst')
      rw [hu.matches_eq hq hs.mem hmq hm] at hle
      rcases hs.valid.rank with he | hlt
      · exact hne he
      · omega

variable {f : World → World → Nat} (h₀ : ∀ s s', Unmoved s s' → f s s' = 0)
  (h₁ : ∀ p st s s', StatusWritten p st s s' → f s s' ≤ 1)

include h₀

theorem contribution_of_past {i : ι} {s : World} {xs : List (Turn ι)} (hp : Past (jobs i) s)
    (hu : ∀ r ∈ Conc.serial s (xs.map (Turn.task registry jobs)), r.before.ExternalUnique) :
    contribution registry jobs f i s xs = 0 := by
  induction xs generalizing s with
  | nil => rfl
  | cons x xs ih =>
    have hrest : contribution registry jobs f i (x.after registry jobs s) xs = 0 :=
      ih (hp.advances (x.advances s)) fun r hr => hu r (List.mem_cons_of_mem _ hr)
    have hs : s.ExternalUnique := hu _ List.mem_cons_self
    rw [contribution, hrest, Nat.add_zero]
    split
    · rename_i hx
      rcases Turn.attempt_cases hx hs with hs | ⟨-, -, -, hn, -⟩
      · exact h₀ _ _ hs
      · exact absurd hp hn
    · rfl

include h₁

theorem contribution_le_one (i : ι) {s : World} {xs : List (Turn ι)}
    (hu : ∀ r ∈ Conc.serial s (xs.map (Turn.task registry jobs)), r.before.ExternalUnique) :
    contribution registry jobs f i s xs ≤ 1 := by
  induction xs generalizing s with
  | nil => exact Nat.zero_le 1
  | cons x xs ih =>
    have hrest : ∀ r ∈ Conc.serial (x.after registry jobs s) (xs.map (Turn.task registry jobs)),
        r.before.ExternalUnique := fun r hr => hu r (List.mem_cons_of_mem _ hr)
    have hs : s.ExternalUnique := hu _ List.mem_cons_self
    rw [contribution]
    split
    · rename_i hx
      rcases Turn.attempt_cases hx hs with hs | ⟨p, st, hs, -, hp⟩
      · rw [h₀ _ _ hs, Nat.zero_add]
        exact ih hrest
      · rw [contribution_of_past h₀ hp hrest]
        exact h₁ p st _ _ hs
    · rw [Nat.zero_add]
      exact ih hrest

end Run

/-- **A webhook job takes effect once at most**: over every run of operations that do not overlap,
from any state, in which at most one payment has an id at a provider, the attempts at a job write
one event at most and change one status at most. -/
theorem webhook_applied_once {ι : Type} [DecidableEq ι] (registry : ProviderRegistry)
    (jobs : ι → WebhookJob) (w : World) (xs : List (Turn ι))
    (hu : ∀ r ∈ Conc.serial w (xs.map (Turn.task registry jobs)), r.before.ExternalUnique) (i : ι) :
    contribution registry jobs newEvents i w xs ≤ 1 ∧
      contribution registry jobs statusChanges i w xs ≤ 1 :=
  ⟨contribution_le_one (fun _ _ => newEvents_of_unmoved) (fun _ _ _ _ => newEvents_of_written) i hu,
    contribution_le_one (fun _ _ => statusChanges_of_unmoved)
      (fun _ _ _ _ => statusChanges_of_written) i hu⟩

/-! ### A job that is attempted again -/

/-- A job that reports a capture. -/
def captureJob : WebhookJob :=
  ⟨"webhook:fake:fake_key", "inbound", ⟨"fake", "payment.captured", "fake_key", .captured, .null⟩, 0⟩

/-- An attempt that fails in the mark, as there is no such delivery, and another one. -/
def twoAttempts : List (Turn Unit) := [
  ⟨.attempt (), fun _ => { newId := fun _ => "a" }⟩,
  ⟨.attempt (), fun _ => { newId := fun _ => "b" }⟩]

theorem externalUnique_singleton {s : World} {p : Payment} (h : s.payments.rows = [p]) :
    s.ExternalUnique := by
  intro q hq r hr _ _ _
  rw [Table.mem_def, h, List.mem_singleton] at hq hr
  rw [hq, hr]

theorem webhook_once_sample :
    contribution fakeRegistry (fun _ => captureJob) newEvents ()
        (World.withPayment (samplePayment .pending)) twoAttempts ≤ 1 ∧
      contribution fakeRegistry (fun _ => captureJob) statusChanges ()
        (World.withPayment (samplePayment .pending)) twoAttempts ≤ 1 := by
  refine webhook_applied_once fakeRegistry (fun _ => captureJob) _ twoAttempts (fun r hr => ?_) ()
  rcases List.mem_cons.mp hr with rfl | hr
  · exact externalUnique_singleton rfl
  · rw [List.mem_singleton.mp hr]
    exact externalUnique_singleton rfl

end Pasarela
