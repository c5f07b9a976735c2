import Pasarela.Errors
import Pasarela.Schema

/-!
# The states of a payment (`payments/payment-state.machine.ts`)

* `validTransitions`, `assertValidTransition`, `isTerminal`: as in the source.
* `Valid s s'`: what the state machine is for. A payment goes from `s` to `s'` in one step, or
  stays. `assertValidTransition` decides it (`assertValidTransition_ok`).
* `Valid.terminal`: no step leaves a terminal state.
* `PaymentStatus.rank`: how far a payment is. A step that changes the status raises it
  (`Valid.rank`), so a status that a payment has left does not come back.
-/

namespace Pasarela

def validTransitions : PaymentStatus → List PaymentStatus
  | .pending => [.authorized, .captured, .failed, .cancelled]
  | .authorized => [.captured, .failed, .cancelled]
  | .captured => [.refunded, .partiallyRefunded]
  | .partiallyRefunded => [.refunded]
  | .failed => []
  | .cancelled => []
  | .refunded => []

def assertValidTransition (source target : PaymentStatus) : Except Err Unit :=
  if source = target then .ok ()
  else if target ∈ validTransitions source then .ok ()
  else .error (.badRequest s!"Transición de estado inválida: {source.text} → {target.text}")

def isTerminal (status : PaymentStatus) : Bool := (validTransitions status).length = 0

/-- A payment may go from `s` to `s'` (module doc). -/
def Valid (s s' : PaymentStatus) : Prop := s = s' ∨ s' ∈ validTransitions s

instance (s s' : PaymentStatus) : Decidable (Valid s s') := inferInstanceAs (Decidable (_ ∨ _))

theorem Valid.refl (s : PaymentStatus) : Valid s s := .inl rfl

theorem assertValidTransition_ok {s s' : PaymentStatus} :
    assertValidTransition s s' = .ok () ↔ Valid s s' := by
  unfold assertValidTransition Valid
  by_cases h : s = s'
  · simp [h]
  · by_cases hm : s' ∈ validTransitions s
    · simp [h, hm]
    · simp [h, hm]

/-- How far a payment in this state is (module doc). -/
def PaymentStatus.rank : PaymentStatus → Nat
  | .pending => 0
  | .authorized => 1
  | .captured => 2
  | .partiallyRefunded => 3
  | .failed => 4
  | .cancelled => 4
  | .refunded => 4

theorem Valid.rank {s s' : PaymentStatus} (h : Valid s s') : s = s' ∨ s.rank < s'.rank := by
  revert h
  cases s <;> cases s' <;> decide

theorem Valid.rank_le {s s' : PaymentStatus} (h : Valid s s') : s.rank ≤ s'.rank := by
  rcases h.rank with rfl | h
  · exact Nat.le_refl _
  · exact Nat.le_of_lt h

/-- No step leaves a terminal state. -/
theorem Valid.terminal {s s' : PaymentStatus} (h : Valid s s') (ht : isTerminal s) : s' = s := by
  rcases h with rfl | h
  · rfl
  · rw [isTerminal, decide_eq_true_eq, List.length_eq_zero_iff] at ht
    rw [ht] at h
    cases h

end Pasarela
