import Mathlib.Data.List.Nodup
import Pasarela.Errors
import Pasarela.Js.Json

/-!
# Payment providers (`providers/provider.interface.ts`, `providers/provider.registry.ts`)

* The types of the provider interface. A charge, a refund and a lookup at a provider are requests
  to a remote system (`Pasarela.Op`); a `PaymentProvider` here is what the process itself decides:
  the id, the countries and currencies, and `verifyWebhook`, which computes on the raw body and
  the headers only.
* `ProviderRegistry`: the adapters in the order of registration, each id once, as in the `Map` of
  the source.
-/

namespace Pasarela

open Js (Json)

/-- `ProviderChargeResult['status']`. -/
inductive ChargeStatus where
  | pending
  | authorized
  | captured
  | failed
  | cancelled
  | refunded
  deriving DecidableEq, Repr

/-- The name of a status in the provider interface. -/
def ChargeStatus.text : ChargeStatus → String
  | .pending => "pending"
  | .authorized => "authorized"
  | .captured => "captured"
  | .failed => "failed"
  | .cancelled => "cancelled"
  | .refunded => "refunded"

/-- `CreateChargeInput.customer`. -/
structure ChargeCustomer where
  id : String
  email : Option String
  deriving DecidableEq, Repr

/-- `CreateChargeInput`. The method is the text of the request, which the source casts. -/
structure CreateChargeInput where
  amountMinor : Int
  currency : String
  country : String
  customer : ChargeCustomer
  description : Option String
  method : String
  idempotencyKey : String
  returnUrl : Option String
  metadata : Option Json
  deriving Repr

/-- `ProviderChargeResult`. -/
structure ChargeResult where
  externalId : String
  status : ChargeStatus
  raw : Json
  deriving Repr

structure RefundInput where
  externalId : String
  amountMinor : Option Int
  reason : Option String
  deriving DecidableEq, Repr

/-- `ProviderRefundResult['status']`. -/
inductive RefundStatus where
  | pending
  | succeeded
  | failed
  deriving DecidableEq, Repr

/-- `ProviderRefundResult`. -/
structure RefundResult where
  externalRefundId : String
  status : RefundStatus
  raw : Json
  deriving Repr

structure WebhookEvent where
  providerId : String
  eventType : String
  externalId : String
  status : ChargeStatus
  raw : Json
  deriving Repr

/-- The bytes of a request's body. -/
abbrev Buffer : Type := ByteArray

/-- A request's headers. Node gives the names in lower case. -/
abbrev Headers : Type := List (String × String)

/-- `headers[name]`. -/
def Headers.get (h : Headers) (name : String) : Option String := h.lookup name

/-- `PaymentProvider` (module doc). -/
structure PaymentProvider where
  id : String
  countries : List String
  currencies : List String
  verifyWebhook : Buffer → Headers → Except Err WebhookEvent

/-- `ProviderRegistry` (module doc). -/
structure ProviderRegistry where
  providers : List PaymentProvider
  nodup : (providers.map (·.id)).Nodup

namespace ProviderRegistry

/-- The registry before any adapter has registered. -/
def empty : ProviderRegistry := ⟨[], List.nodup_nil⟩

/-- The adapters after `p` has registered: in the place of the one with its id, or last. -/
def registered (p : PaymentProvider) (l : List PaymentProvider) : List PaymentProvider :=
  if p.id ∈ l.map (·.id) then l.map fun q => if q.id = p.id then p else q else l ++ [p]

theorem nodup_registered {p : PaymentProvider} {l : List PaymentProvider}
    (h : (l.map (·.id)).Nodup) : ((registered p l).map (·.id)).Nodup := by
  unfold registered
  by_cases hp : p.id ∈ l.map (·.id)
  · rw [if_pos hp, List.map_map]
    have he : ((fun q : PaymentProvider => q.id) ∘ fun q => if q.id = p.id then p else q) =
        fun q => q.id := by
      funext q
      by_cases hq : q.id = p.id
      · simp [hq]
      · simp [hq]
    rw [he]
    exact h
  · rw [if_neg hp, List.map_append]
    exact h.append (List.nodup_singleton _) (by simpa using hp)

def register (r : ProviderRegistry) (p : PaymentProvider) : ProviderRegistry :=
  ⟨registered p r.providers, nodup_registered r.nodup⟩

def get (r : ProviderRegistry) (id : String) : Except Err PaymentProvider :=
  match r.providers.find? fun p => p.id = id with
  | some p => .ok p
  | none => .error (.other s!"Provider no registrado: {id}")

def selectFor (r : ProviderRegistry) (country currency : String) : Except Err PaymentProvider :=
  match r.providers.find? fun p => p.countries.contains country && p.currencies.contains currency with
  | some p => .ok p
  | none => .error (.other s!"Sin provider para {country}/{currency}")

/-- A provider that `get` returns has the id that was asked for. -/
theorem get_id {r : ProviderRegistry} {id : String} {p : PaymentProvider} (h : r.get id = .ok p) :
    p.id = id := by
  unfold get at h
  split at h
  · rename_i e
    cases h
    simpa using List.find?_some e
  · cases h

end ProviderRegistry

/-- A registry with one provider, which verifies no webhook. -/
def fakeRegistry : ProviderRegistry :=
  ProviderRegistry.empty.register ⟨"fake", ["AR"], ["ARS"], fun _ _ => .error (.other "")⟩

end Pasarela
