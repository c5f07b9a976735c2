import Mathlib.Logic.Function.Basic
import Pasarela.Adapters

/-!
# Rotating the secret of `WebhookSecretService` (`webhooks/webhook-secret.service.ts`)

`WebhookSecretService` takes signatures with two secrets, the one that is in use and the one before,
so that the secret can be replaced while webhooks are on their way. Nothing calls it: the routes check
webhooks with the adapters, of which `FakeProvider` takes the current secret only
(`fake_takes_current`). What follows is about `verify`.

* `verify`, `sign`: the methods. An instance reads the two settings once, when its process starts, so
  the fields of the service are the settings of that time. `verify_iff`: what `verify` accepts.
* `Rotation`: the settings, the instance of the service in each process, the secret that each provider
  signs with, and the webhooks on their way. `RotationStep`: the steps of the rotation (the docstring
  of the source has them as 1, 2, 3 and 5), a process that starts, a webhook that is sent, or whose
  signature is checked.
* `RotationStep.Allowed`: what a step waits for. Step 4 of the source is what `remove` waits for.
  The source does not say that step 3 waits for the processes, but an instance may have read the
  settings before step 2.
* `Covered`: every instance, and every one that is made now, takes every secret in use. The allowed
  steps keep it (`Covered.step`).
* `rotation_safe`: so `verify` refuses no webhook in a rotation, and a secret that was rotated out
  stays out.
-/

namespace Pasarela

/-- The service, with the settings that it has read (module doc). `envSchema` asks the first one for
at least eight characters. -/
structure WebhookSecretService where
  /-- `WEBHOOK_SIGNING_SECRET`. -/
  current : String
  /-- `WEBHOOK_SIGNING_SECRET_PREVIOUS`. -/
  previous : Option String
  current_ne : current ≠ ""

namespace WebhookSecretService

variable (rt : Runtime)

def hmac (data : Buffer) (secret : String) : String := rt.hmac "sha256" secret data

/-- The previous secret, if it is set and not empty. -/
def kept (s : WebhookSecretService) : Option String := s.previous.filter (· ≠ "")

def verify (s : WebhookSecretService) (raw : Buffer) (signature : String) : Bool :=
  let clean := Js.replaceFirst signature "sha256=" ""
  let matchCurrent := hmac rt raw s.current == clean
  let matchPrevious := s.kept.any fun previous => hmac rt raw previous == clean
  matchCurrent || matchPrevious

/-- `sha256=` and the HMAC. -/
def signWith (raw : Buffer) (secret : String) : String := "sha256=" ++ hmac rt raw secret

def sign (s : WebhookSecretService) (raw : Buffer) : String := signWith rt raw s.current

/-- The service checks signatures with this secret. -/
def Takes (s : WebhookSecretService) (secret : String) : Prop :=
  secret = s.current ∨ s.kept = some secret

variable {rt} {s : WebhookSecretService} {raw : Buffer} {signature secret : String}

theorem verify_iff : s.verify rt raw signature = true ↔
    ∃ secret, s.Takes secret ∧ hmac rt raw secret = Js.replaceFirst signature "sha256=" "" := by
  unfold verify Takes
  rw [Bool.or_eq_true, beq_iff_eq, Option.any_eq_true]
  constructor
  · rintro (h | ⟨secret, hkept, h⟩)
    · exact ⟨s.current, .inl rfl, h⟩
    · exact ⟨secret, .inr hkept, by simpa using h⟩
  · rintro ⟨secret, rfl | hkept, h⟩
    · exact .inl h
    · exact .inr ⟨secret, hkept, by simpa using h⟩

/-- The first `sha256=` of a signature is the one that `sign` has put there. -/
theorem clean_signWith :
    Js.replaceFirst (signWith rt raw secret) "sha256=" "" = hmac rt raw secret := by
  unfold signWith Js.replaceFirst
  rw [String.toList_append]
  simp [Js.replaceFirstChars]

theorem Takes.verify (h : s.Takes secret) : s.verify rt raw (signWith rt raw secret) = true :=
  verify_iff.mpr ⟨secret, h, clean_signWith.symm⟩

/-- The service accepts what it signs. -/
theorem verify_sign : s.verify rt raw (s.sign rt raw) = true := Takes.verify (.inl rfl)

/-- **The adapter takes the current secret only**: in production, a signature with another secret
passes exactly if its HMAC is the same. -/
theorem fake_takes_current {headers : Headers} {current : String}
    (h : headers.get "x-fake-signature" = some (signWith rt raw secret)) :
    FakeProvider.checkSignature rt true (some current) raw headers = .ok () ↔
      hmac rt raw secret = hmac rt raw current := by
  unfold FakeProvider.checkSignature
  rw [h, Option.map_some, clean_signWith]
  simp [hmac]

end WebhookSecretService

/-! ## The steps of a rotation -/

/-- A webhook on its way, and the secret that its provider has signed it with. -/
structure SentWebhook where
  raw : Buffer
  secret : String

def SentWebhook.signature (rt : Runtime) (m : SentWebhook) : String :=
  WebhookSecretService.signWith rt m.raw m.secret

/-- Providers `ι`, and processes `κ` with an instance of the service each (module doc). -/
structure Rotation (ι κ : Type) where
  /-- What an instance that is made now reads. -/
  settings : WebhookSecretService
  instances : κ → WebhookSecretService
  /-- The secret that a provider signs with. -/
  secrets : ι → String
  inFlight : List SentWebhook

inductive RotationStep (ι κ : Type) where
  /-- Step 1: the previous secret is the one in use. -/
  | keep
  /-- Step 2. -/
  | replace (secret : String) (ne : secret ≠ "")
  /-- Step 3, for one provider. -/
  | update (i : ι)
  /-- Step 5. -/
  | remove
  | start (k : κ)
  | send (i : ι) (raw : Buffer)
  /-- The signature of the `n`-th webhook is checked. -/
  | check (n : Nat)

variable {ι κ : Type}

namespace RotationStep

variable [DecidableEq ι] [DecidableEq κ]

def act (s : Rotation ι κ) : RotationStep ι κ → Rotation ι κ
  | .keep => { s with settings := { s.settings with previous := some s.settings.current } }
  | .replace secret ne =>
    { s with settings := { s.settings with current := secret, current_ne := ne } }
  | .update i => { s with secrets := Function.update s.secrets i s.settings.current }
  | .remove => { s with settings := { s.settings with previous := none } }
  | .start k => { s with instances := Function.update s.instances k s.settings }
  | .send i raw => { s with inFlight := s.inFlight ++ [⟨raw, s.secrets i⟩] }
  | .check n => { s with inFlight := s.inFlight.eraseIdx n }

/-- What a step waits for (module doc). -/
def Allowed (s : Rotation ι κ) : RotationStep ι κ → Prop
  | .keep => s.settings.kept = none
  | .replace _ _ => s.settings.previous = some s.settings.current
  | .update _ => ∀ k, (s.instances k).current = s.settings.current
  | .remove => (∀ i, s.secrets i = s.settings.current) ∧
      ∀ m ∈ s.inFlight, m.secret = s.settings.current
  | .start _ => True
  | .send _ _ => True
  | .check n => n < s.inFlight.length

/-- The secret that a step sets. -/
def sets : RotationStep ι κ → Option String
  | .replace secret _ => some secret
  | _ => none

end RotationStep

namespace Rotation

variable {s : Rotation ι κ} {secret : String}

/-- The state after the steps. -/
def after [DecidableEq ι] [DecidableEq κ] (s : Rotation ι κ) (steps : List (RotationStep ι κ)) :
    Rotation ι κ :=
  steps.foldl RotationStep.act s

/-- Each step waits for what it is to wait for. -/
def Follows [DecidableEq ι] [DecidableEq κ] (s : Rotation ι κ) : List (RotationStep ι κ) → Prop
  | [] => True
  | a :: steps => a.Allowed s ∧ Follows (a.act s) steps

/-- A provider signs with the secret, or a webhook that it signed is on its way. -/
def InUse (s : Rotation ι κ) (secret : String) : Prop :=
  (∃ i, s.secrets i = secret) ∨ ∃ m ∈ s.inFlight, m.secret = secret

/-- The settings or an instance take the secret. -/
def Taken (s : Rotation ι κ) (secret : String) : Prop :=
  s.settings.Takes secret ∨ ∃ k, (s.instances k).Takes secret

/-- No rotation is going on: nothing knows another secret than the one of the settings. -/
structure Settled (s : Rotation ι κ) : Prop where
  taken : ∀ secret, s.Taken secret → secret = s.settings.current
  inUse : ∀ secret, s.InUse secret → secret = s.settings.current

/-- The invariant (module doc). -/
structure Covered (s : Rotation ι κ) : Prop where
  settings : ∀ secret, s.InUse secret → s.settings.Takes secret
  instances : ∀ secret, s.InUse secret → ∀ k, (s.instances k).Takes secret

theorem Settled.covered (hs : s.Settled) : s.Covered where
  settings secret h := .inl (hs.inUse secret h)
  instances secret h k := by
    obtain rfl := hs.inUse secret h
    exact .inl (hs.taken _ (.inr ⟨k, .inl rfl⟩)).symm

/-- The end of a rotation: the previous secret is removed, and every process has started since. -/
theorem Covered.settled (hs : s.Covered) (hkept : s.settings.kept = none)
    (hstarted : ∀ k, s.instances k = s.settings) : s.Settled := by
  have hone : ∀ secret, s.settings.Takes secret → secret = s.settings.current := fun secret h => by
    rcases h with h | h
    · exact h
    · rw [hkept] at h
      cases h
  refine ⟨fun secret h => ?_, fun secret h => hone secret (hs.settings secret h)⟩
  rcases h with h | ⟨k, h⟩
  · exact hone secret h
  · rw [hstarted k] at h
    exact hone secret h

/-! ## What a step does to the secrets -/

variable [DecidableEq ι] [DecidableEq κ] {a : RotationStep ι κ}

/-- A secret that is in use after a step was so before, or a provider has got it. -/
theorem inUse_act (h : (a.act s).InUse secret) :
    s.InUse secret ∨ (∃ i, a = .update i) ∧ secret = s.settings.current := by
  cases a with
  | update i =>
    rcases h with ⟨j, hj⟩ | h
    · by_cases e : j = i
      · subst e
        exact .inr ⟨⟨j, rfl⟩, by rw [← hj]; exact Function.update_self ..⟩
      · exact .inl (.inl ⟨j, by rw [← hj]; exact (Function.update_of_ne e ..).symm⟩)
    · exact .inl (.inr h)
  | send i raw =>
    rcases h with h | ⟨m, hm, he⟩
    · exact .inl (.inl h)
    · rcases List.mem_append.mp hm with hm | hm
      · exact .inl (.inr ⟨m, hm, he⟩)
      · rw [List.mem_singleton.mp hm] at he
        exact .inl (.inl ⟨i, he⟩)
  | check n =>
    rcases h with h | ⟨m, hm, he⟩
    · exact .inl (.inl h)
    · exact .inl (.inr ⟨m, List.mem_of_mem_eraseIdx hm, he⟩)
  | keep | replace | remove | start => exact .inl h

/-- The settings take a secret after a step that they took before, or that the step has set. -/
theorem takes_act (h : (a.act s).settings.Takes secret) :
    s.settings.Takes secret ∨ a.sets = some secret := by
  unfold WebhookSecretService.Takes WebhookSecretService.kept at h ⊢
  cases a with
  | keep =>
    rcases h with h | h
    · exact .inl (.inl h)
    · exact .inl (.inl (Option.some.inj (Option.filter_eq_some_iff.mp h).1).symm)
  | replace new ne =>
    rcases h with h | h
    · exact .inr (congrArg some h.symm)
    · exact .inl (.inr h)
  | remove =>
    rcases h with h | h
    · exact .inl (.inl h)
    · cases h
  | update | start | send | check => exact .inl h

theorem taken_act (h : (a.act s).Taken secret) : s.Taken secret ∨ a.sets = some secret := by
  rcases h with h | ⟨k, h⟩
  · exact (takes_act h).imp .inl id
  · cases a with
    | start k' =>
      by_cases e : k = k'
      · subst e
        exact .inl (.inl (by simpa [RotationStep.act] using h))
      · exact .inl (.inr ⟨k, by simpa [RotationStep.act, e] using h⟩)
    | keep | replace | update | remove | send | check => exact .inl (.inr ⟨k, h⟩)

/-- The secrets that are in use stay taken by the settings. -/
theorem Covered.settings_step (hs : s.Covered) (ha : a.Allowed s) (h : s.InUse secret) :
    (a.act s).settings.Takes secret := by
  have ht := hs.settings secret h
  cases a with
  | keep =>
    rcases ht with rfl | ht
    · exact .inl rfl
    · rw [show s.settings.kept = none from ha] at ht
      cases ht
  | replace new ne =>
    -- what the settings took before step 2 is the secret that step 1 has kept
    have hkept : s.settings.kept = some s.settings.current := by
      rw [WebhookSecretService.kept, show s.settings.previous = _ from ha]
      simp [s.settings.current_ne]
    rcases ht with rfl | ht
    · exact .inr hkept
    · exact .inr ht
  | remove =>
    refine .inl ?_
    rcases h with ⟨i, rfl⟩ | ⟨m, hm, rfl⟩
    · exact ha.1 i
    · exact ha.2 m hm
  | update | start | send | check => exact ht

theorem Covered.step (hs : s.Covered) (ha : a.Allowed s) : (a.act s).Covered where
  settings secret h := by
    rcases inUse_act h with h | ⟨⟨i, rfl⟩, rfl⟩
    · exact hs.settings_step ha h
    · exact .inl rfl
  instances secret h k := by
    rcases inUse_act h with hu | ⟨⟨i, rfl⟩, rfl⟩
    · cases a with
      | start k' =>
        by_cases e : k = k'
        · subst e
          simpa [RotationStep.act] using hs.settings secret hu
        · simpa [RotationStep.act, e] using hs.instances secret hu k
      | keep | replace | update | remove | send | check => exact hs.instances secret hu k
    · exact .inl (ha k).symm

/-! ## Whole rotations -/

theorem Covered.after (hs : s.Covered) {steps : List (RotationStep ι κ)} (h : s.Follows steps) :
    (s.after steps).Covered := by
  induction steps generalizing s with
  | nil => exact hs
  | cons a steps ih => exact ih (hs.step h.1) h.2

theorem taken_after {steps : List (RotationStep ι κ)} (h : (s.after steps).Taken secret) :
    s.Taken secret ∨ ∃ a ∈ steps, a.sets = some secret := by
  induction steps generalizing s with
  | nil => exact .inl h
  | cons a steps ih =>
    rcases ih h with h | ⟨a', ha', hsets⟩
    · exact (taken_act h).imp id fun hsets => ⟨a, List.mem_cons_self, hsets⟩
    · exact .inr ⟨a', List.mem_cons_of_mem _ ha', hsets⟩

end Rotation

/-- **`verify` in a rotation.** From a state in which no rotation is going on, in any order of the
steps: if the steps wait for what they are to wait for, then the instance of every process accepts
every webhook that is on its way, and when the previous secret has been removed and the processes have
started since, no rotation is going on again. And whatever the steps wait for, a signature that an
instance accepts is the HMAC with the secret of that first state, or with one that was set since. -/
theorem rotation_safe (rt : Runtime) [DecidableEq ι] [DecidableEq κ] {s : Rotation ι κ}
    (hs : s.Settled) (steps : List (RotationStep ι κ)) :
    (s.Follows steps →
      (∀ k, ∀ m ∈ (s.after steps).inFlight,
        ((s.after steps).instances k).verify rt m.raw (m.signature rt) = true) ∧
      ((s.after steps).settings.kept = none →
        (∀ k, (s.after steps).instances k = (s.after steps).settings) →
          (s.after steps).Settled)) ∧
    ∀ k raw signature, ((s.after steps).instances k).verify rt raw signature = true →
      ∃ secret, (secret = s.settings.current ∨ ∃ a ∈ steps, a.sets = some secret) ∧
        WebhookSecretService.hmac rt raw secret = Js.replaceFirst signature "sha256=" "" := by
  refine ⟨fun hf => ?_, fun k raw signature h => ?_⟩
  · have hcov := hs.covered.after hf
    exact ⟨fun k m hm => (hcov.instances m.secret (.inr ⟨m, hm, rfl⟩) k).verify, hcov.settled⟩
  · obtain ⟨secret, htakes, hmac⟩ := WebhookSecretService.verify_iff.mp h
    exact ⟨secret, (Rotation.taken_after (.inr ⟨k, htakes⟩)).imp (hs.taken secret) id, hmac⟩

/-- The HMAC is the secret. -/
def secretRuntime : Runtime where
  hmac _ secret _ := secret
  parse _ := none
  now := 0
  pred _ := none
  constructEvent _ _ _ := .error ""

/-- No rotation is going on, with the secret `old`. -/
def oldSecret : Rotation Bool Bool where
  settings := ⟨"old", none, by decide⟩
  instances _ := ⟨"old", none, by decide⟩
  secrets _ := "old"
  inFlight := []

theorem oldSecret_settled : oldSecret.Settled where
  taken secret h := by
    rcases h with (h | h) | ⟨k, h | h⟩
    · exact h
    · cases h
    · exact h
    · cases h
  inUse secret h := by
    rcases h with ⟨i, h⟩ | ⟨m, hm, -⟩
    · exact h.symm
    · cases hm

/-- One provider has the new secret, and the webhooks of both are on their way. -/
def halfRotated : List (RotationStep Bool Bool) := [
  .send true .empty, .keep, .replace "new" (by decide), .start true, .start false, .update false,
  .send false .empty]

theorem rotation_safe_sample :
    ((oldSecret.after halfRotated).instances false).verify secretRuntime .empty
        (SentWebhook.signature secretRuntime ⟨.empty, "old"⟩) = true ∧
      ((oldSecret.after halfRotated).instances true).verify secretRuntime .empty
        (SentWebhook.signature secretRuntime ⟨.empty, "new"⟩) = true := by
  have hfollows : oldSecret.Follows halfRotated :=
    ⟨trivial, rfl, rfl, trivial, trivial, (fun k => by cases k <;> rfl), trivial, trivial⟩
  have h := ((rotation_safe secretRuntime oldSecret_settled halfRotated).1 hfollows).1
  exact ⟨h false ⟨.empty, "old"⟩ List.mem_cons_self,
    h true ⟨.empty, "new"⟩ (List.mem_cons_of_mem _ List.mem_cons_self)⟩

/-- An instance that has not read the new secret refuses a provider that has it. -/
example : ((oldSecret.after [.keep, .replace "new" (by decide), .start true, .update false]).instances
    false).verify secretRuntime .empty
      (SentWebhook.signature secretRuntime ⟨.empty, "new"⟩) = false := by decide

end Pasarela
