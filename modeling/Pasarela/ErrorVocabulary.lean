import Pasarela.AdapterCalls

/-!
# The errors of a failed call

A call fails when the client of the adapter throws, when the breaker gives up on it, or when the
breaker does not admit it. Its caller looks for a `PaymentException`, which is the only error with a
code of the catalog and the `retryable` flag.

* `InVocabulary`: the call is rejected with a `PaymentException`, which is `PROVIDER_TIMEOUT` after a
  timeout.
* `RemoteAdapter.Classifies`: the errors of the client for which it is.
* `in_vocabulary_iff`: exactly when it is. A timeout never is: `execute` looks for an error with the
  name `TimeoutError`, which is not the one of the library.
* `call_answers`: an answer that makes no sense is an error of the vocabulary too, but for
  MercadoPago.
-/

namespace Pasarela

open CircuitBreakerService (Recognised classified_reclassify_iff classified_reclassify_raw_iff
  execute_of_not_admits execute_settles execute_timesOut reclassify reclassify_payment)
open Js (Json Found optMember)

/-- How an admitted call fails. -/
inductive Failure where
  | throws (e : RawError)
  | timesOut

def Failure.outcome : Failure → ClientOutcome
  | .throws e => .throws e
  | .timesOut => .timesOut

/-- The end of a call that fails (module doc). -/
def InVocabulary (b : BreakerState) (f : Failure) (r : Except Thrown CallResult) : Prop :=
  ∃ code detail, r = .error (.payment code detail) ∧
    (b.Admits → f = .timesOut → code = .providerTimeout)

/-- The errors of the client that `createCharge` of MercadoPago has a code for: those with the code
of a cause. -/
def MercadoPagoProvider.MapsCreate (e : RawError) : Prop :=
  if (causeCode (.raw e)).any Json.truthy then Maps (causeCode (.raw e)) (e.get "status")
  else Recognised e

/-- The errors of the client that a call rejects with a `PaymentException`. -/
def RemoteAdapter.Classifies (a : RemoteAdapter) (m : AdapterMethod) (e : RawError) : Prop :=
  match a, m with
  | .stripe, _ => StripeProvider.Maps e
  | .mercadopago, .createCharge => MercadoPagoProvider.MapsCreate e
  | .mercadopago, _ => Recognised e
  | .pagarme, _ => Mapped (optMember (e.get "response") "status") (PagarmeProvider.firstCode e)
  | .conekta, _ => Mapped (optMember (e.get "response") "status") (ConektaProvider.firstCode e)
  | .dlocal, _ => Mapped (optMember (e.get "response") "status") (DlocalProvider.errorCode e)

theorem MercadoPagoProvider.classified_rethrown_iff {e : RawError} :
    (reclassify (rethrown (.raw e))).Classified ↔ MapsCreate e := by
  unfold rethrown MapsCreate
  by_cases hcode : (causeCode (.raw e)).any Json.truthy = true
  · rw [if_pos hcode, if_pos hcode, (fromMapper_mapMercadoPagoError _ _).classified_reclassify_iff]
    exact classified_mapMercadoPagoError_iff
  · rw [if_neg hcode, if_neg hcode]
    exact classified_reclassify_raw_iff

namespace RemoteAdapter

variable (lib : Opossum) (a : RemoteAdapter) (m : AdapterMethod)

/-- **An error of the client**, after the mapper and the `catch` of the breaker. -/
theorem classified_onThrow_iff (e : RawError) :
    (reclassify (a.onThrow m e)).Classified ↔ a.Classifies m e := by
  cases a with
  | stripe =>
    exact (StripeProvider.fromMapper_mapStripeError e).classified_reclassify_iff.trans
      StripeProvider.classified_mapStripeError_iff
  | mercadopago =>
    cases m with
    | createCharge => exact MercadoPagoProvider.classified_rethrown_iff
    | refund => exact classified_reclassify_raw_iff
    | retrieve => exact classified_reclassify_raw_iff
  | pagarme =>
    exact (PagarmeProvider.fromMapper_mapPagarmeError e).classified_reclassify_iff.trans
      PagarmeProvider.classified_mapPagarmeError_iff
  | conekta =>
    exact (ConektaProvider.fromMapper_mapConektaError e).classified_reclassify_iff.trans
      ConektaProvider.classified_mapConektaError_iff
  | dlocal =>
    exact (DlocalProvider.fromMapper_mapDlocalError e).classified_reclassify_iff.trans
      DlocalProvider.classified_mapDlocalError_iff

theorem call_throws {b : BreakerState} (hb : b.Admits) (e : RawError) :
    call lib b a m (.throws e) = .error (reclassify (a.onThrow m e)) := by
  unfold call attempt
  rw [execute_settles lib _ hb, action_error]
  rfl

/-- **Exactly when a failed call stays in the vocabulary.** -/
theorem in_vocabulary_iff (b : BreakerState) (f : Failure) :
    InVocabulary b f (call lib b a m f.outcome) ↔
      ¬ b.Admits ∨ ∃ e, f = .throws e ∧ a.Classifies m e := by
  by_cases hb : b.Admits
  · cases f with
    | timesOut =>
      -- the error of the library goes through unchanged
      have hcall : call lib b a m .timesOut = .error (.raw lib.timeout) := execute_timesOut lib hb
      refine iff_of_false ?_ ?_
      · rintro ⟨code, detail, h, -⟩
        cases hcall.symm.trans h
      · rintro (h | ⟨e, h, -⟩)
        · exact h hb
        · cases h
    | throws e =>
      have hcall : call lib b a m (.throws e) = .error (reclassify (a.onThrow m e)) :=
        call_throws lib a m hb e
      have hclass := classified_onThrow_iff a m e
      constructor
      · rintro ⟨code, detail, h, -⟩
        exact .inr ⟨e, rfl, hclass.mp ⟨code, detail, Except.error.inj (hcall.symm.trans h)⟩⟩
      · rintro (h | ⟨e', he, h⟩)
        · exact absurd hb h
        · cases he
          obtain ⟨code, detail, hpay⟩ := hclass.mpr h
          refine ⟨code, detail, hcall.trans (congrArg Except.error hpay), fun _ h => ?_⟩
          cases h
  · have hcall : call lib b a m f.outcome = .error (.payment .providerUnavailable none) :=
      execute_of_not_admits lib _ hb
    exact iff_of_true ⟨_, _, hcall, fun h => absurd h hb⟩ (.inl hb)

end RemoteAdapter

/-- The errors of the library, as it makes them. -/
def opossum : Opossum where
  openBreaker := .error .other
    [("name", .str "Error"), ("message", .str "Breaker is open"), ("code", .str "EOPENBREAKER")]
  timeout := .error .other
    [("name", .str "Error"), ("message", .str "Timed out after 10000ms"), ("code", .str "ETIMEDOUT")]
  openBreaker_code := rfl
  timeout_code := rfl
  timeout_name := rfl

/-- A charge at Conekta times out, and the caller gets an error without a code of the catalog. -/
theorem conekta_timeout_not_in_vocabulary :
    ¬ InVocabulary .closed .timesOut
      (RemoteAdapter.call opossum .closed .conekta .createCharge Failure.timesOut.outcome) := by
  rintro ⟨code, detail, h, -⟩
  have hcall : RemoteAdapter.call opossum .closed .conekta .createCharge .timesOut =
      .error (.raw opossum.timeout) := execute_timesOut opossum trivial
  cases hcall.symm.trans h

/-! ## Answers that make no sense -/

/-- An error, if there is one, is in the vocabulary. -/
def OnlyClassified {α : Type} (r : Except Thrown α) : Prop := ∀ t, r = .error t → t.Classified

namespace OnlyClassified

variable {α β : Type}

theorem map {r : Except Thrown α} (h : OnlyClassified r) (f : α → β) :
    OnlyClassified (r.map f) := by
  intro t ht
  cases r with
  | ok a => cases ht
  | error t' =>
    cases ht
    exact h t rfl

theorem mapError {r : Except Thrown α} (h : OnlyClassified r) :
    OnlyClassified (r.mapError reclassify) := by
  intro t ht
  cases r with
  | ok a => cases ht
  | error t' =>
    obtain ⟨code, detail, rfl⟩ := h t' rfl
    cases ht
    exact classified_reclassify_iff.mpr (.inl (Thrown.classified_payment code detail))

/-- A reading under a mapper that has a code for a `TypeError`. -/
theorem guarded {mapper : RawError → Thrown} (h : (mapper .typeError).Classified)
    (read : Option Json → Option α) (data : Option Json) :
    OnlyClassified (guarded mapper read (.ok data)) := by
  intro t ht
  rw [guarded_ok] at ht
  cases hread : read data with
  | some a =>
    rw [hread] at ht
    cases ht
  | none =>
    rw [hread] at ht
    cases ht
    exact h

end OnlyClassified

namespace RemoteAdapter

/-- A mapper has a code for the `TypeError` of a reading. -/
theorem action_answer {a : RemoteAdapter} (ha : a ≠ .mercadopago) (m : AdapterMethod)
    (data : Option Json) : OnlyClassified (a.action m (.ok data)) := by
  cases a with
  | mercadopago => exact absurd rfl ha
  | stripe =>
    have hmap : (StripeProvider.mapStripeError .typeError).Classified :=
      StripeProvider.classified_mapStripeError_iff.mpr trivial
    cases m <;> exact (OnlyClassified.guarded hmap _ data).map _
  | pagarme =>
    have hmap : (PagarmeProvider.mapPagarmeError .typeError).Classified :=
      PagarmeProvider.classified_mapPagarmeError_iff.mpr (by decide)
    cases m <;> exact (OnlyClassified.guarded hmap _ data).map _
  | conekta =>
    have hmap : (ConektaProvider.mapConektaError .typeError).Classified :=
      ConektaProvider.classified_mapConektaError_iff.mpr (by decide)
    cases m <;> exact (OnlyClassified.guarded hmap _ data).map _
  | dlocal =>
    have hmap : (DlocalProvider.mapDlocalError .typeError).Classified :=
      DlocalProvider.classified_mapDlocalError_iff.mpr (by decide)
    cases m <;> exact (OnlyClassified.guarded hmap _ data).map _

/-- **An answer** that cannot be read is an error of the vocabulary, but for MercadoPago. -/
theorem call_answers (lib : Opossum) {a : RemoteAdapter} (ha : a ≠ .mercadopago) (b : BreakerState)
    (m : AdapterMethod) (data : Option Json) :
    OnlyClassified (call lib b a m (.answers data)) := by
  by_cases hb : b.Admits
  · unfold call attempt
    rw [execute_settles lib _ hb]
    exact (action_answer ha m data).mapError
  · intro t ht
    have hcall : call lib b a m (.answers data) = .error (.payment .providerUnavailable none) :=
      execute_of_not_admits lib _ hb
    cases hcall.symm.trans ht
    exact Thrown.classified_payment _ _

end RemoteAdapter

end Pasarela
