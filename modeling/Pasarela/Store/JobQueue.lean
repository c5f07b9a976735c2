import Mathlib.Logic.Function.Basic

/-!
# Queues that keep their last finished jobs

A queue stores jobs under ids, of which it takes only some, and an add with the id of a stored job
is ignored. A job that has finished, completed or failed, stays stored as long as it is one of the
last `keep` that finished so.

* `JobLib`: what a program relies on of a library of such queues. It `accepts` an id or refuses an
  add with it. `live q id` is the state of a job that is not finished, `ended e q` are the ids of the
  stored jobs that finished with `e`, the latest first.
* `Records q h`: `h e` are the ids of all jobs that finished with `e`, the latest first, and a live
  job has an id that the library accepts. Every event keeps it (`Records.add`, `Records.move`,
  `Records.finish`).
* `Records.live_add_iff`: when an add makes all its jobs live.
* `JobQueue`: queues that are so, with lists. `listed` is their library.
-/

namespace Store

inductive JobState where
  | waiting
  | delayed
  | active
  deriving DecidableEq, Repr

inductive JobEnd where
  | completed
  | failed
  deriving DecidableEq, Repr

/-- What happens to a queue. -/
inductive JobEvent (κ : Type) where
  | add (ids : List κ)
  /-- A job that is not finished gets another state. -/
  | move (id : κ) (st : JobState)
  | finish (e : JobEnd) (id : κ)

/-- What a program relies on (module doc). -/
structure JobLib (κ : Type) [DecidableEq κ] (keep : JobEnd → Nat) where
  Queue : Type
  empty : Queue
  live : Queue → κ → Option JobState
  ended : JobEnd → Queue → List κ
  on : JobEvent κ → Queue → Queue
  /-- The library takes jobs with this id. -/
  accepts : κ → Bool
  live_empty (id : κ) : live empty id = none
  ended_empty (e : JobEnd) : ended e empty = []
  /-- What an add does with the other ids when it refuses one is left open. -/
  live_add {ids : List κ} {q : Queue} {id : κ} : (∀ k ∈ ids, accepts k = true) → id ∈ ids →
    live q id = none → (∀ e, id ∉ ended e q) → live (on (.add ids) q) id = some .waiting
  /-- A job that is stored, is not added, or has a refused id stays as it is. -/
  live_add_else {ids : List κ} {q : Queue} {id : κ} :
    id ∉ ids ∨ accepts id = false ∨ (live q id).isSome ∨ (∃ e, id ∈ ended e q) →
      live (on (.add ids) q) id = live q id
  ended_add (ids : List κ) (q : Queue) (e : JobEnd) : ended e (on (.add ids) q) = ended e q
  live_move {id : κ} {q : Queue} (st : JobState) : (live q id).isSome →
    live (on (.move id st) q) = Function.update (live q) id (some st)
  ended_move {id : κ} {q : Queue} (st : JobState) (e : JobEnd) : (live q id).isSome →
    ended e (on (.move id st) q) = ended e q
  live_finish {id : κ} {q : Queue} (e : JobEnd) : live q id = some .active →
    live (on (.finish e id) q) = Function.update (live q) id none
  ended_finish {id : κ} {q : Queue} (e : JobEnd) : live q id = some .active →
    ended e (on (.finish e id) q) = (id :: ended e q).take (keep e)
  ended_finish_of_ne {id : κ} {q : Queue} {e e' : JobEnd} : live q id = some .active → e' ≠ e →
    ended e' (on (.finish e id) q) = ended e' q

namespace JobLib

variable {κ : Type} [DecidableEq κ] {keep : JobEnd → Nat} {lib : JobLib κ keep} {q : lib.Queue}
  {h : JobEnd → List κ} {id : κ} {ids : List κ}

/-- What a queue has of its past (module doc). -/
structure Records (q : lib.Queue) (h : JobEnd → List κ) : Prop where
  kept : ∀ e, lib.ended e q = (h e).take (keep e)
  once : ∀ id, (lib.live q id).isSome → ∀ e, id ∉ lib.ended e q
  accepted : ∀ id, (lib.live q id).isSome → lib.accepts id = true

theorem Records.empty : Records lib.empty (fun _ => []) where
  kept e := by simp [lib.ended_empty]
  once id hlive := by simp [lib.live_empty] at hlive
  accepted id hlive := by simp [lib.live_empty] at hlive

theorem Records.add (hr : Records q h) (ids : List κ) : Records (lib.on (.add ids) q) h where
  kept e := by rw [lib.ended_add, hr.kept]
  once id hlive e := by
    rw [lib.ended_add]
    intro hmem
    rw [lib.live_add_else (.inr (.inr (.inr ⟨e, hmem⟩)))] at hlive
    exact hr.once id hlive e hmem
  accepted id hlive := by
    by_contra hrefused
    rw [lib.live_add_else (.inr (.inl (Bool.eq_false_iff.mpr hrefused)))] at hlive
    exact hrefused (hr.accepted id hlive)

theorem Records.move (hr : Records q h) (hlive : (lib.live q id).isSome) (st : JobState) :
    Records (lib.on (.move id st) q) h where
  kept e := by rw [lib.ended_move st e hlive, hr.kept]
  once k hk e := by
    rw [lib.ended_move st e hlive]
    rw [lib.live_move st hlive] at hk
    by_cases hid : k = id
    · rw [hid]
      exact hr.once id hlive e
    · rw [Function.update_of_ne hid] at hk
      exact hr.once k hk e
  accepted k hk := by
    rw [lib.live_move st hlive] at hk
    by_cases hid : k = id
    · rw [hid]
      exact hr.accepted id hlive
    · rw [Function.update_of_ne hid] at hk
      exact hr.accepted k hk

/-- The first `n` of a list do not need more than the first `n` of its tail. -/
theorem take_cons_take {α : Type} (a : α) (l : List α) (n : Nat) :
    (a :: l.take n).take n = (a :: l).take n := by
  cases n with
  | zero => rfl
  | succ n => simp [List.take_take]

theorem Records.finish (hr : Records q h) (hlive : lib.live q id = some .active) (e : JobEnd) :
    Records (lib.on (.finish e id) q) (Function.update h e (id :: h e)) := by
  have hold : ∀ k, (lib.live (lib.on (.finish e id) q) k).isSome → k ≠ id ∧ (lib.live q k).isSome := by
    intro k hk
    rw [lib.live_finish e hlive] at hk
    have hid : k ≠ id := by
      rintro rfl
      simp at hk
    exact ⟨hid, by rwa [Function.update_of_ne hid] at hk⟩
  refine ⟨fun e' => ?_, fun k hk e' => ?_, fun k hk => hr.accepted k (hold k hk).2⟩
  · by_cases he : e' = e
    · rw [he, Function.update_self, lib.ended_finish e hlive, hr.kept, take_cons_take]
    · rw [Function.update_of_ne he, lib.ended_finish_of_ne hlive he, hr.kept]
  · obtain ⟨hid, hk⟩ := hold k hk
    have hout := hr.once k hk e'
    by_cases he : e' = e
    · rw [he, lib.ended_finish e hlive]
      rw [he] at hout
      intro hmem
      rcases List.mem_cons.mp (List.mem_of_mem_take hmem) with hid' | hmem
      · exact hid hid'
      · exact hout hmem
    · rwa [lib.ended_finish_of_ne hlive he]

/-- **The jobs of an add are live after it, if the library accepts their ids and keeps no finished
one of them**, and only then. -/
theorem Records.live_add_iff (hr : Records q h) (ids : List κ) :
    (∀ id ∈ ids, (lib.live (lib.on (.add ids) q) id).isSome) ↔
      ∀ id ∈ ids, lib.accepts id = true ∧ ∀ e, id ∉ (h e).take (keep e) := by
  simp only [← hr.kept]
  constructor
  · intro hlive id hid
    refine ⟨(hr.add ids).accepted id (hlive id hid), fun e hmem => ?_⟩
    rw [← lib.ended_add ids q e] at hmem
    exact (hr.add ids).once id (hlive id hid) e hmem
  · intro hids id hid
    cases hlive : lib.live q id with
    | some state =>
      rw [lib.live_add_else (.inr (.inr (.inl (by rw [hlive]; rfl)))), hlive]
      rfl
    | none =>
      rw [lib.live_add (fun k hk => (hids k hk).1) hid hlive (hids id hid).2]
      rfl

end JobLib

/-! ## Queues with lists -/

/-- A queue with the lists of its finished jobs (module doc). -/
structure JobQueue (κ : Type) where
  live : κ → Option JobState
  ended : JobEnd → List κ

namespace JobQueue

variable {κ : Type} [DecidableEq κ]

/-- An add with an id that is refused adds nothing. -/
def add (accepts : κ → Bool) (q : JobQueue κ) (ids : List κ) : JobQueue κ where
  live id :=
    if ids.all accepts ∧ id ∈ ids ∧ q.live id = none ∧ id ∉ q.ended .completed ∧
        id ∉ q.ended .failed then
      some .waiting
    else q.live id
  ended := q.ended

def move (q : JobQueue κ) (id : κ) (st : JobState) : JobQueue κ :=
  { q with live := Function.update q.live id (some st) }

def finish (keep : JobEnd → Nat) (q : JobQueue κ) (e : JobEnd) (id : κ) : JobQueue κ where
  live := Function.update q.live id none
  ended := Function.update q.ended e ((id :: q.ended e).take (keep e))

/-- The library of these queues. -/
def listed (keep : JobEnd → Nat) (accepts : κ → Bool) : JobLib κ keep where
  Queue := JobQueue κ
  empty := ⟨fun _ => none, fun _ => []⟩
  live := JobQueue.live
  ended e q := q.ended e
  on
    | .add ids, q => q.add accepts ids
    | .move id st, q => q.move id st
    | .finish e id, q => q.finish keep e id
  accepts := accepts
  live_empty _ := rfl
  ended_empty _ := rfl
  live_add hids hid hlive hout :=
    if_pos ⟨List.all_eq_true.mpr hids, hid, hlive, hout _, hout _⟩
  live_add_else h := if_neg (by
    rintro ⟨hids, hid, hlive, hc, hf⟩
    rcases h with h | h | h | ⟨_ | _, h⟩
    · exact h hid
    · rw [List.all_eq_true.mp hids _ hid] at h
      cases h
    · rw [hlive] at h
      cases h
    · exact hc h
    · exact hf h)
  ended_add _ _ _ := rfl
  live_move _ _ := rfl
  ended_move _ _ _ := rfl
  live_finish _ _ := rfl
  ended_finish _ _ := Function.update_self ..
  ended_finish_of_ne _ he := Function.update_of_ne he ..

end JobQueue

end Store
