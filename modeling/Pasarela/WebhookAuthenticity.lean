import Pasarela.Adapters

/-!
# Which webhook deliveries are authentic

The four adapters that check an HMAC, each with a webhook secret that is not empty.

* `signature`: the signature that a delivery carries, if it is there and not empty; `mac`: the one
  that the adapter computes. `Authentic`: they are equal.
* `checkSignature_ok`: Pagar.me accepts the authentic deliveries. The others accept also those that
  carry no signature.
* `Readable`: the bodies of which the adapter makes an event (`event_isSome`).
* `authentic_iff_signed`: so a delivery is accepted without being authentic iff the adapter is not
  Pagar.me, the delivery carries no signature, and its body is readable.
-/

namespace Pasarela

open Js (Json isNullish nullish member optMember optIndex lastElem str)

/-- The adapters that check an HMAC. -/
inductive HmacAdapter where
  | mercadopago
  | dlocal
  | pagarme
  | conekta
  deriving DecidableEq, Repr

namespace HmacAdapter

def checkSignature (rt : Runtime) :
    HmacAdapter → (secret : String) → Buffer → Headers → Except Err Unit
  | .mercadopago => MercadoPagoProvider.checkSignature rt
  | .dlocal => DlocalProvider.checkSignature rt
  | .pagarme => PagarmeProvider.checkSignature rt
  | .conekta => ConektaProvider.checkSignature rt

def event (rt : Runtime) : HmacAdapter → Buffer → Option AdapterEvent
  | .mercadopago => MercadoPagoProvider.event rt
  | .dlocal => DlocalProvider.event rt
  | .pagarme => PagarmeProvider.event rt
  | .conekta => ConektaProvider.event rt

def verifyWebhook (rt : Runtime) :
    HmacAdapter → (secret : String) → Buffer → Headers → Except Err AdapterEvent
  | .mercadopago => MercadoPagoProvider.verifyWebhook rt
  | .dlocal => DlocalProvider.verifyWebhook rt
  | .pagarme => PagarmeProvider.verifyWebhook rt
  | .conekta => ConektaProvider.verifyWebhook rt

/-- The text in which the adapter looks for the signature, or `''`. -/
def signatureText : HmacAdapter → Headers → String
  | .mercadopago, headers =>
    MercadoPagoProvider.part ((headers.get "x-signature").getD "") "v1="
  | .dlocal, headers => (headers.get "x-dlocal-signature").getD ""
  | .pagarme, headers => (headers.get "x-hub-signature").getD ""
  | .conekta, headers => ConektaProvider.incoming headers

/-- The signature that the delivery carries (module doc). -/
def signature (a : HmacAdapter) (headers : Headers) : Option String :=
  (some (a.signatureText headers)).filter (· ≠ "")

/-- The signature that the adapter computes. -/
def mac (rt : Runtime) : HmacAdapter → (secret : String) → Buffer → Headers → String
  | .mercadopago, secret, raw, headers =>
    rt.hmac "sha256" secret
      (MercadoPagoProvider.signedTemplate (MercadoPagoProvider.extractDataId rt raw) headers).toUTF8
  | .dlocal, secret, raw, _ => rt.hmac "sha256" secret raw
  | .pagarme, secret, raw, _ => PagarmeProvider.expectedSignature rt secret raw
  | .conekta, secret, raw, _ => rt.hmac "sha256" secret raw

/-- The delivery carries the signature that the adapter computes. -/
def Authentic (rt : Runtime) (a : HmacAdapter) (secret : String) (raw : Buffer)
    (headers : Headers) : Prop :=
  a.signature headers = some (a.mac rt secret raw headers)

/-! ## The check -/

theorem signature_eq_none {a : HmacAdapter} {headers : Headers} :
    a.signature headers = none ↔ a.signatureText headers = "" := by
  simp [signature, Option.filter]

theorem signature_eq_some {a : HmacAdapter} {headers : Headers} {m : String} :
    a.signature headers = some m ↔ a.signatureText headers = m ∧ m ≠ "" := by
  rw [signature, Option.filter_eq_some_iff]
  constructor
  · rintro ⟨h, hm⟩
    exact ⟨Option.some.inj h, of_decide_eq_true hm⟩
  · rintro ⟨rfl, hm⟩
    exact ⟨rfl, decide_eq_true hm⟩

/-- A check that is made only if there is a signature. -/
theorem lenient_ok {sig m : String} {e : Err} :
    (if sig ≠ "" ∧ m ≠ sig then Except.error e else .ok ()) = (.ok () : Except Err Unit) ↔
      sig = "" ∨ sig = m ∧ m ≠ "" := by
  by_cases hs : sig = ""
  · simp [hs]
  · by_cases hm : m = sig
    · simp [hm, hs]
    · have hne : sig ≠ m := fun h => hm h.symm
      simp [hs, hm, hne]

/-- The deliveries that the check accepts (module doc). -/
theorem checkSignature_ok {rt : Runtime} {a : HmacAdapter} {secret : String} (hs : secret ≠ "")
    {raw : Buffer} {headers : Headers} :
    a.checkSignature rt secret raw headers = .ok () ↔
      (a ≠ .pagarme ∧ a.signature headers = none) ∨ a.Authentic rt secret raw headers := by
  rw [Authentic, signature_eq_none, signature_eq_some]
  cases a with
  | mercadopago =>
    simp only [checkSignature, MercadoPagoProvider.checkSignature, if_neg hs, lenient_ok]
    simp [signatureText, mac]
  | dlocal =>
    simp only [checkSignature, DlocalProvider.checkSignature, ne_comm (b := rt.hmac _ _ _),
      lenient_ok]
    simp [signatureText, mac]
  | conekta =>
    simp only [checkSignature, ConektaProvider.checkSignature, if_neg hs, lenient_ok]
    simp [signatureText, mac]
  | pagarme =>
    have hne : PagarmeProvider.expectedSignature rt secret raw ≠ "" := by
      simp [PagarmeProvider.expectedSignature]
    simp [checkSignature, PagarmeProvider.checkSignature, hs, signatureText, mac, hne]

/-! ## The event -/

/-- The adapter makes an event of the body: its `data` can be read, and the conversions of its fields
have a result. -/
def Readable (rt : Runtime) (a : HmacAdapter) (body : Json) : Prop :=
  let data := body.prop "data"
  isNullish (some body) = false ∧
  match a with
  | .mercadopago =>
    (str (optMember data "id")).isSome ∧
    if isNullish (optMember data "status") then
      isNullish (body.prop "action") ∨ ∃ s, body.prop "action" = some (.str s)
    else (str (optMember data "status")).isSome
  | .dlocal =>
    isNullish (optMember data "status") ∨ ∃ s, optMember data "status" = some (.str s)
  | .pagarme =>
    let charge := nullish (optIndex (optMember data "charges") 0) data
    (str (nullish (optMember charge "status") (optMember data "status"))).isSome
  | .conekta =>
    let order := optMember data "object"
    let charges := nullish (optMember (optMember order "charges") "data") (some (.arr []))
    ∃ last, lastElem rt.pred (charges.getD .null) = some last ∧
      (str (nullish (optMember last "status") (optMember order "payment_status"))).isSome

theorem isSome_bind {α β : Type} {x : Option α} {f : α → Option β} :
    (x >>= f).isSome ↔ ∃ a, x = some a ∧ (f a).isSome := by
  cases x with
  | none => simp
  | some a => simp

/-- A computation whose second part has a result or not, whatever the first part's is. -/
theorem isSome_bind_of {α β : Type} {x : Option α} {f : α → Option β} {p : Prop}
    (h : ∀ a, (f a).isSome ↔ p) : (x >>= f).isSome ↔ x.isSome ∧ p := by
  cases x with
  | none => simp
  | some a => simpa using h a

/-- What is read of a body that is not nullish. -/
theorem isSome_member_bind {α : Type} {body : Json} {k : String} {f : Option Json → Option α} :
    (member (some body) k >>= f).isSome ↔
      isNullish (some body) = false ∧ (f (body.prop k)).isSome := by
  unfold member
  cases isNullish (some body) with
  | true => simp
  | false => simp [optMember]

theorem optMember_nullish_obj {v : Option Json} {k : String} :
    optMember (nullish v (some (.obj []))) k = optMember v k := by
  unfold nullish
  split
  · rename_i h
    rcases Js.isNullish_eq h with rfl | rfl <;> rfl
  · rfl

/-- A value, or a text where it is nullish, has a conversion if the value has one. -/
theorem isSome_str_nullish {v : Option Json} {s : String} :
    (str (nullish v (some (.str s)))).isSome ↔ (str v).isSome := by
  unfold nullish
  split
  · rename_i h
    rcases Js.isNullish_eq h with rfl | rfl <;> simp [str, Json.toStr]
  · rfl

theorem isSome_mpStatus {data action : Option Json} :
    (∃ v, MercadoPagoProvider.mpStatus data action = some v ∧ v.toStr.isSome) ↔
      if isNullish (optMember data "status") then isNullish action ∨ ∃ s, action = some (.str s)
      else (str (optMember data "status")).isSome := by
  unfold MercadoPagoProvider.mpStatus
  by_cases h : isNullish (optMember data "status")
  · simp only [h, if_true]
    match action with
    | none => simp [Json.toStr]
    | some .null => simp [Json.toStr]
    | some (.str s) => simp [Json.toStr]
    | some (.bool b) => simp [isNullish]
    | some (.num n) => simp [isNullish]
    | some (.float r) => simp [isNullish]
    | some (.arr xs) => simp [isNullish]
    | some (.obj kvs) => simp [isNullish]
  · cases hv : optMember data "status" with
    | none => rw [hv] at h; exact absurd rfl h
    | some v => rw [hv] at h; simp [h, str]

theorem isSome_mapStatus {v : Option Json} {s : String} :
    (DlocalProvider.mapStatus (nullish v (some (.str s)))).isSome ↔
      isNullish v ∨ ∃ s, v = some (.str s) := by
  match v with
  | none => simp [nullish, DlocalProvider.mapStatus]
  | some .null => simp [nullish, DlocalProvider.mapStatus]
  | some (.str s) => simp [nullish, isNullish, DlocalProvider.mapStatus]
  | some (.bool b) => simp [nullish, isNullish, DlocalProvider.mapStatus]
  | some (.num n) => simp [nullish, isNullish, DlocalProvider.mapStatus]
  | some (.float r) => simp [nullish, isNullish, DlocalProvider.mapStatus]
  | some (.arr xs) => simp [nullish, isNullish, DlocalProvider.mapStatus]
  | some (.obj kvs) => simp [nullish, isNullish, DlocalProvider.mapStatus]

/-- A last conversion, and then the event. -/
theorem isSome_bind_pure {α β : Type} {x : Option α} {f : α → β} :
    (x >>= fun a => pure (f a)).isSome ↔ x.isSome := by
  cases x with
  | none => simp
  | some a => simp

/-- **The bodies of which an adapter makes an event** (module doc). -/
theorem event_isSome {rt : Runtime} {a : HmacAdapter} {raw : Buffer} :
    (a.event rt raw).isSome ↔ a.Readable rt (parseBody rt raw) := by
  cases a with
  | mercadopago =>
    simp only [event, MercadoPagoProvider.event, isSome_member_bind, Readable]
    refine and_congr_right fun _ => ?_
    rw [← isSome_mpStatus, isSome_bind, and_comm, ← exists_and_right]
    refine exists_congr fun v => ?_
    rw [and_assoc]
    refine and_congr_right fun _ => isSome_bind_of fun _ => ?_
    rw [isSome_bind_pure, isSome_str_nullish]
  | dlocal =>
    simp only [event, DlocalProvider.event, isSome_member_bind, isSome_bind_pure, Readable]
    rw [isSome_mapStatus]
  | pagarme =>
    simp only [event, PagarmeProvider.event, isSome_member_bind, isSome_bind_pure,
      isSome_str_nullish, optMember_nullish_obj, Readable]
  | conekta =>
    simp only [event, ConektaProvider.event, isSome_member_bind, Readable]
    refine and_congr_right fun _ => ?_
    rw [isSome_bind]
    simp only [isSome_bind_pure, isSome_str_nullish, optMember_nullish_obj]

/-- What `verifyWebhook` returns: the check accepts the delivery, and the body is readable. -/
theorem verifyWebhook_ok {rt : Runtime} {a : HmacAdapter} {secret : String} {raw : Buffer}
    {headers : Headers} {e : AdapterEvent} :
    a.verifyWebhook rt secret raw headers = .ok e ↔
      a.checkSignature rt secret raw headers = .ok () ∧ a.event rt raw = some e := by
  have h : a.verifyWebhook rt secret raw headers =
      a.checkSignature rt secret raw headers >>= fun _ => orTypeError (a.event rt raw) := by
    cases a <;> rfl
  rw [h]
  cases a.checkSignature rt secret raw headers with
  | error er => simp [bind, Except.bind]
  | ok u =>
    cases a.event rt raw with
    | none => simp [bind, Except.bind, orTypeError]
    | some e' => simp [bind, Except.bind, orTypeError]

end HmacAdapter

/-- **When every accepted delivery is authentic**: for each adapter with a secret, each body and
headers. -/
theorem authentic_iff_signed (rt : Runtime) (a : HmacAdapter) (secret : String)
    (hs : secret ≠ "") (raw : Buffer) (headers : Headers) :
    (∀ e, a.verifyWebhook rt secret raw headers = .ok e → a.Authentic rt secret raw headers) ↔
      a = .pagarme ∨ (a.signature headers).isSome ∨ ¬ a.Readable rt (parseBody rt raw) := by
  simp only [HmacAdapter.verifyWebhook_ok, HmacAdapter.checkSignature_ok hs,
    ← HmacAdapter.event_isSome]
  constructor
  · intro h
    by_cases ha : a = .pagarme
    · exact .inl ha
    · refine .inr ?_
      cases hsig : a.signature headers with
      | some sig => exact .inl rfl
      | none =>
        refine .inr fun hev => ?_
        obtain ⟨e, he⟩ := Option.isSome_iff_exists.mp hev
        have hauth := h e ⟨.inl ⟨ha, hsig⟩, he⟩
        rw [HmacAdapter.Authentic, hsig] at hauth
        cases hauth
  · rintro h e ⟨⟨ha, hsig⟩ | hauth, he⟩
    · rcases h with h | h | h
      · exact absurd h ha
      · rw [hsig] at h
        cases h
      · rw [he] at h
        exact absurd rfl h
    · exact hauth

/-! ### A delivery without a signature -/

/-- The HMAC-SHA256 of the empty body under the secret `secret`. -/
def sampleMac : String := "f9e66e179b6747ae54108f82f8ade8b3c25d76fd30afde6c395822c530196169"

/-- A runtime for deliveries of the empty body, which is not JSON. -/
def sampleRuntime : Runtime where
  hmac _ _ _ := sampleMac
  parse _ := none
  now := 0
  pred _ := none
  constructEvent _ _ _ := .error "No webhook payload was provided."

theorem authentic_sample :
    (∀ e, HmacAdapter.verifyWebhook sampleRuntime .dlocal "secret" .empty
        [("x-dlocal-signature", sampleMac)] = .ok e →
      HmacAdapter.Authentic sampleRuntime .dlocal "secret" .empty
        [("x-dlocal-signature", sampleMac)]) ↔
    HmacAdapter.dlocal = .pagarme ∨
      (HmacAdapter.signature .dlocal [("x-dlocal-signature", sampleMac)]).isSome ∨
      ¬ HmacAdapter.Readable sampleRuntime .dlocal (parseBody sampleRuntime .empty) :=
  authentic_iff_signed sampleRuntime .dlocal "secret" (by decide) .empty
    [("x-dlocal-signature", sampleMac)]

/-- dLocal accepts a delivery without headers. -/
theorem unsigned_accepted : ¬ ∀ (rt : Runtime) (a : HmacAdapter) (secret : String) (raw : Buffer)
    (headers : Headers), secret ≠ "" →
    ∀ e, a.verifyWebhook rt secret raw headers = .ok e → a.Authentic rt secret raw headers := by
  intro h
  have ha := h sampleRuntime .dlocal "secret" .empty [] (by decide) _ rfl
  cases ha

end Pasarela
