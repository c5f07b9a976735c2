import Mathlib.Data.Bool.AllAny
import Pasarela.AdapterCalls
import Pasarela.StatusWords
import Pasarela.WebhookAuthenticity

/-!
# One order, read from an answer and from a webhook

Conekta and Pagar.me answer `createCharge` with the order that their webhooks carry later.
`createCharge` reads the first charge of the order. The webhook of Conekta reads the last one, and
that of Pagar.me takes a missing id from the body and not from the order.

* `OrderAdapter.ReadsAlike`: `createCharge` and `verifyWebhook` make one id and one status of the
  order.
* `OrderAdapter.Unambiguous`: the orders of which they do (`reads_alike_iff`).
-/

namespace Pasarela

open Js (Json Found isNullish nullish member optMember optIndex lastElem str)

/-! ## Values with a default -/

/-- A value that is also read with a text for a default. -/
theorem eq_nullish_iff {x y : Option Json} {d : String} :
    x = nullish y (some (.str d)) ↔
      isNullish x = false ∧ (y = x ∨ isNullish y = true ∧ x = some (.str d)) := by
  unfold nullish
  split
  next hy =>
    constructor
    · rintro rfl
      exact ⟨rfl, .inr ⟨hy, rfl⟩⟩
    · rintro ⟨hx, rfl | ⟨-, h⟩⟩
      · rw [hx] at hy
        cases hy
      · exact h
  next hy =>
    constructor
    · rintro rfl
      exact ⟨Bool.eq_false_iff.mpr hy, .inl rfl⟩
    · rintro ⟨-, h | ⟨h, -⟩⟩
      · exact h.symm
      · exact absurd h hy

/-- The ids of the first charge, of the last charge and of the order give one id: where a charge has
none, the id of the order stands for it. -/
inductive SameId (first last order : Option Json) : Prop
  | charges (hf : isNullish first = false) (hl : last = first)
  | last (hf : isNullish first = true) (hl : isNullish last = false) (ho : last = order)
  | first (hf : isNullish first = false) (hl : isNullish last = true) (ho : order = first)
  | order (hf : isNullish first = true) (hl : isNullish last = true) (ho : isNullish order = false)
  /-- The id of the first charge is the default that the webhook has. -/
  | unknown (hf : first = some (.str "unknown")) (hl : isNullish last = true)
    (ho : isNullish order = true)

theorem sameId_iff {first last order : Option Json} :
    nullish first order = nullish (nullish last order) (some (.str "unknown")) ↔
      SameId first last order := by
  rw [eq_nullish_iff]
  by_cases hf : isNullish first = true
  · rw [nullish, if_pos hf]
    by_cases hl : isNullish last = true
    · rw [nullish, if_pos hl]
      constructor
      · exact fun h => .order hf hl h.1
      · rintro (⟨h, -⟩ | ⟨-, h, -⟩ | ⟨h, -, -⟩ | ⟨-, -, ho⟩ | ⟨rfl, -, -⟩)
        · rw [hf] at h
          cases h
        · rw [hl] at h
          cases h
        · rw [hf] at h
          cases h
        · exact ⟨ho, .inl rfl⟩
        · cases hf
    · rw [nullish, if_neg hl]
      have hl' : isNullish last = false := Bool.eq_false_iff.mpr hl
      constructor
      · rintro ⟨-, h | ⟨h, -⟩⟩
        · exact .last hf hl' h
        · exact absurd h hl
      · rintro (⟨h, -⟩ | ⟨-, h, ho⟩ | ⟨h, -, -⟩ | ⟨-, h, -⟩ | ⟨rfl, -, -⟩)
        · rw [hf] at h
          cases h
        · exact ⟨ho ▸ h, .inl ho⟩
        · rw [hf] at h
          cases h
        · exact absurd h hl
        · cases hf
  · rw [nullish, if_neg hf]
    have hf' : isNullish first = false := Bool.eq_false_iff.mpr hf
    rw [and_iff_right hf']
    by_cases hl : isNullish last = true
    · rw [nullish, if_pos hl]
      constructor
      · rintro (h | ⟨h, hu⟩)
        · exact .first hf' hl h
        · exact .unknown hu hl h
      · rintro (⟨-, rfl⟩ | ⟨h, -, -⟩ | ⟨-, -, ho⟩ | ⟨h, -, -⟩ | ⟨hu, -, ho⟩)
        · exact absurd hl hf
        · exact absurd h hf
        · exact .inl ho
        · exact absurd h hf
        · exact .inr ⟨ho, hu⟩
    · rw [nullish, if_neg hl]
      constructor
      · rintro (h | ⟨h, -⟩)
        · exact .charges hf' h
        · exact absurd h hl
      · rintro (⟨-, h⟩ | ⟨h, -, -⟩ | ⟨-, h, -⟩ | ⟨h, -, -⟩ | ⟨-, h, -⟩)
        · exact .inl h
        · exact absurd h hf
        · exact absurd h hl
        · exact absurd h hf
        · exact absurd h hl

/-- A status that is looked up, with `pending` for a default. -/
theorem mapStatus_default {map : List (String × ChargeStatus)} {v : Option Json}
    (hp : statusIn map "pending" = .own .pending)
    (hu : statusIn map "undefined" = .own .pending) (hn : statusIn map "null" = .own .pending) :
    (str (nullish v (some (.str "pending")))).map (statusIn map) = (str v).map (statusIn map) := by
  unfold nullish
  split
  next h =>
    rcases Js.isNullish_eq h with rfl | rfl
    · exact congrArg some (hp.trans hu.symm)
    · exact congrArg some (hp.trans hn.symm)
  next => rfl

namespace ConektaProvider

/-- The words with a status of their own; the adapter reads every other one as `pending`. -/
def outcomes : List (List String × Found ChargeStatus) := [
  (["paid"], .own .captured),
  (["partially_paid"], .own .authorized),
  (["expired", "declined"], .own .failed),
  (["refunded"], .own .refunded),
  (["voided"], .own .cancelled)] ++ inheritedWords

theorem sorts_outcomes : Sorts statuses outcomes where
  known := by decide
  listed := by decide
  found := by decide
  notPending := by decide

end ConektaProvider

/-- The adapters that read an order. -/
inductive OrderAdapter where
  | pagarme
  | conekta
  deriving DecidableEq, Repr

namespace OrderAdapter

/-- `createCharge`, for the answer of the client. -/
def createCharge : OrderAdapter → ClientResult → Except Thrown AdapterCharge
  | .pagarme => PagarmeProvider.createCharge
  | .conekta => ConektaProvider.createCharge

/-- The adapter, as one that checks webhooks. -/
def hmac : OrderAdapter → HmacAdapter
  | .pagarme => .pagarme
  | .conekta => .conekta

/-- The body of a webhook carries the order. -/
def Carries (a : OrderAdapter) (body order : Json) : Prop :=
  match a with
  | .pagarme => body.prop "data" = some order
  | .conekta => optMember (body.prop "data") "object" = some order

/-- The charges of an order; those of an order without a list are none. -/
def charges (a : OrderAdapter) (order : Json) : Option Json :=
  nullish (match a with
    | .pagarme => order.prop "charges"
    | .conekta => optMember (order.prop "charges") "data") (some (.arr []))

/-- `createCharge` and `verifyWebhook` make one id and one status of the order. -/
def ReadsAlike (rt : Runtime) (a : OrderAdapter) (secret : String) (raw : Buffer)
    (headers : Headers) (order : Json) : Prop :=
  ∃ c e, a.createCharge (.ok (some order)) = .ok c ∧
    a.hmac.verifyWebhook rt secret raw headers = .ok e ∧
    c.externalId = e.externalId ∧ c.status = e.status

/-- The orders that are read alike (module doc): `items` are the charges of the order, and `body` is
that of the webhook. -/
def Unambiguous (a : OrderAdapter) (body order : Json) (items : List Json) : Prop :=
  match a with
  | .pagarme =>
    (if isNullish items.head? then isNullish (order.prop "id") = false
      else isNullish (optMember items.head? "id") = false ∨
        isNullish (order.prop "id") = false ∧
          (body.prop "id" = order.prop "id" ∨
            isNullish (body.prop "id") = true ∧ order.prop "id" = some (.str "unknown"))) ∧
    (str (nullish (optMember items.head? "status") (order.prop "status"))).isSome
  | .conekta =>
    SameId (optMember items.head? "id") (optMember items.getLast? "id") (order.prop "id") ∧
    ∃ t₁ t₂, str (nullish (optMember items.head? "status") (order.prop "payment_status")) = some t₁ ∧
      str (nullish (optMember items.getLast? "status") (order.prop "payment_status")) = some t₂ ∧
      ∀ x ∈ ConektaProvider.outcomes, t₁ ∈ x.1 ↔ t₂ ∈ x.1

/-! ## Both readings -/

section Readings

variable {rt : Runtime} {a : OrderAdapter} {secret : String} {raw : Buffer} {headers : Headers}
  {order : Json}

/-- The readings by the ids and the statuses that both have, if they have a status. -/
theorem readsAlike_iff {id₁ id₂ : Option Json} {s₁ s₂ : Option (Found ChargeStatus)}
    (hsig : a.hmac.checkSignature rt secret raw headers = .ok ())
    (h₁ : (a.createCharge (.ok (some order))).toOption.map (fun c => (c.externalId, c.status)) =
      s₁.map fun s => (id₁, s))
    (h₂ : (a.hmac.event rt raw).map (fun e => (e.externalId, e.status)) =
      s₂.map fun s => (id₂, s)) :
    a.ReadsAlike rt secret raw headers order ↔
      id₁ = id₂ ∧ ∃ st, s₁ = some st ∧ s₂ = some st := by
  constructor
  · rintro ⟨c, e, hc, he, hid, hst⟩
    have he := (HmacAdapter.verifyWebhook_ok.mp he).2
    rw [hc] at h₁
    rw [he] at h₂
    cases s₁ with
    | none => cases h₁
    | some f₁ =>
      cases s₂ with
      | none => cases h₂
      | some f₂ =>
        obtain ⟨rfl, rfl⟩ := Prod.mk.inj (Option.some.inj h₁)
        obtain ⟨rfl, rfl⟩ := Prod.mk.inj (Option.some.inj h₂)
        exact ⟨hid, _, rfl, congrArg some hst.symm⟩
  · rintro ⟨rfl, st, rfl, rfl⟩
    obtain ⟨c, hc, hc'⟩ := Option.map_eq_some_iff.mp h₁
    obtain ⟨e, he, he'⟩ := Option.map_eq_some_iff.mp h₂
    obtain ⟨hid₁, hst₁⟩ := Prod.mk.inj hc'
    obtain ⟨hid₂, hst₂⟩ := Prod.mk.inj he'
    refine ⟨c, e, ?_, HmacAdapter.verifyWebhook_ok.mpr ⟨hsig, he⟩, hid₁.trans hid₂.symm,
      hst₁.trans hst₂.symm⟩
    cases hcreate : a.createCharge (.ok (some order)) with
    | error t =>
      rw [hcreate] at hc
      cases hc
    | ok c' =>
      rw [hcreate] at hc
      exact congrArg Except.ok (Option.some.inj hc)

variable {fields : List (String × Json)} {items : List Json} {body : Json}

/-- The first item of a list, or of what stands for it. -/
theorem optIndex_zero {v : Option Json} (h : nullish v (some (.arr [])) = some (.arr items)) :
    optIndex v 0 = items.head? := by
  unfold nullish at h
  split at h
  next hv =>
    cases h
    rcases Js.isNullish_eq hv with rfl | rfl <;> rfl
  next =>
    cases h
    exact List.head?_eq_getElem?.symm

/-- A charge that was read under a `catch`. -/
theorem guarded_charge {mapper : RawError → Thrown} {read : Option Json → Option AdapterCharge}
    {data id : Option Json} {s : Option (Found ChargeStatus)}
    (h : (read data).map (fun c => (c.externalId, c.status)) = s.map fun s => (id, s)) :
    (guarded mapper read (.ok data)).toOption.map (fun c => (c.externalId, c.status)) =
      s.map fun s => (id, s) := by
  rw [guarded_ok, ← h]
  cases read data <;> rfl

theorem conekta_created (hlist : OrderAdapter.conekta.charges (.obj fields) = some (.arr items)) :
    (OrderAdapter.conekta.createCharge (.ok (some (.obj fields)))).toOption.map
        (fun c => (c.externalId, c.status)) =
      (ConektaProvider.mapStatus (nullish (optMember items.head? "status")
        ((Json.obj fields).prop "payment_status"))).map
          fun s => (nullish (optMember items.head? "id") ((Json.obj fields).prop "id"), s) := by
  have hmember : member (some (.obj fields)) "charges" = some ((Json.obj fields).prop "charges") :=
    rfl
  have hfirst : optIndex (optMember ((Json.obj fields).prop "charges") "data") 0 = items.head? :=
    optIndex_zero hlist
  have hstatus : optMember (some (.obj fields)) "payment_status" =
      (Json.obj fields).prop "payment_status" := rfl
  refine guarded_charge ?_
  simp only [ConektaProvider.readCharge, hmember, Option.bind_eq_bind, Option.bind_some, hfirst,
    hstatus]
  cases ConektaProvider.mapStatus (nullish (optMember items.head? "status")
    ((Json.obj fields).prop "payment_status")) <;> rfl

theorem pagarme_created (hlist : OrderAdapter.pagarme.charges (.obj fields) = some (.arr items)) :
    (OrderAdapter.pagarme.createCharge (.ok (some (.obj fields)))).toOption.map
        (fun c => (c.externalId, c.status)) =
      (PagarmeProvider.mapStatus (nullish (optMember items.head? "status")
        ((Json.obj fields).prop "status"))).map
          fun s => (nullish (optMember items.head? "id") ((Json.obj fields).prop "id"), s) := by
  have hmember : member (some (.obj fields)) "charges" = some ((Json.obj fields).prop "charges") :=
    rfl
  have hfirst : optIndex ((Json.obj fields).prop "charges") 0 = items.head? :=
    optIndex_zero hlist
  have hstatus : optMember (some (.obj fields)) "status" = (Json.obj fields).prop "status" := rfl
  refine guarded_charge ?_
  simp only [PagarmeProvider.readCharge, hmember, Option.bind_eq_bind, Option.bind_some, hfirst,
    hstatus]
  cases PagarmeProvider.mapStatus (nullish (optMember items.head? "status")
    ((Json.obj fields).prop "status")) <;> rfl

theorem parseBody_of_parse (hraw : rt.parse raw = some body) : parseBody rt raw = body := by
  rw [parseBody, hraw]
  rfl

theorem member_data {v : Json} (h : body.prop "data" = some v) :
    member (some body) "data" = some (some v) := by
  rw [← h]
  match body with
  | .obj kvs => rfl
  | .null => cases h

theorem conekta_event (hraw : rt.parse raw = some body)
    (hbody : OrderAdapter.conekta.Carries body (.obj fields))
    (hlist : OrderAdapter.conekta.charges (.obj fields) = some (.arr items)) :
    (ConektaProvider.event rt raw).map (fun e => (e.externalId, e.status)) =
      (ConektaProvider.mapStatus (nullish (optMember items.getLast? "status")
        ((Json.obj fields).prop "payment_status"))).map
          fun s => (nullish (nullish (optMember items.getLast? "id") ((Json.obj fields).prop "id"))
            (some (.str "unknown")), s) := by
  have hobject : optMember (body.prop "data") "object" = some (.obj fields) := hbody
  obtain ⟨data, hdata⟩ : ∃ data, body.prop "data" = some data := by
    cases h : body.prop "data" with
    | none =>
      rw [h] at hobject
      cases hobject
    | some data => exact ⟨data, rfl⟩
  rw [hdata] at hobject
  have hcharges : nullish (optMember (optMember (some (.obj fields)) "charges") "data")
      (some (.arr [])) = some (.arr items) := hlist
  have hlast : lastElem rt.pred ((some (Json.arr items)).getD .null) = some items.getLast? := rfl
  have hprop (k : String) : optMember (some (.obj fields)) k = (Json.obj fields).prop k := rfl
  simp only [ConektaProvider.event, parseBody_of_parse hraw, member_data hdata,
    Option.bind_eq_bind, Option.bind_some, hobject, hcharges, hlast,
    HmacAdapter.optMember_nullish_obj]
  rw [ConektaProvider.mapStatus, ← mapStatus_default rfl rfl rfl]
  simp only [hprop]
  cases str (nullish (nullish (optMember items.getLast? "status")
    ((Json.obj fields).prop "payment_status")) (some (.str "pending"))) <;> rfl

theorem pagarme_event (hraw : rt.parse raw = some body)
    (hbody : OrderAdapter.pagarme.Carries body (.obj fields))
    (hlist : OrderAdapter.pagarme.charges (.obj fields) = some (.arr items)) :
    (PagarmeProvider.event rt raw).map (fun e => (e.externalId, e.status)) =
      (PagarmeProvider.mapStatus (nullish (optMember items.head? "status")
        ((Json.obj fields).prop "status"))).map
          fun s => (nullish (nullish
            (if isNullish items.head? then (Json.obj fields).prop "id" else optMember items.head? "id")
            (body.prop "id")) (some (.str "unknown")), s) := by
  have hdata : body.prop "data" = some (.obj fields) := hbody
  have hfirst : optIndex (optMember (some (.obj fields)) "charges") 0 = items.head? :=
    optIndex_zero hlist
  have hcharge (k : String) : optMember (nullish items.head? (some (.obj fields))) k =
      if isNullish items.head? then (Json.obj fields).prop k else optMember items.head? k := by
    rw [nullish]
    split <;> rfl
  have hstatus : nullish (optMember (nullish items.head? (some (.obj fields))) "status")
      ((Json.obj fields).prop "status") =
        nullish (optMember items.head? "status") ((Json.obj fields).prop "status") := by
    rw [hcharge]
    split
    next h => rcases Js.isNullish_eq h with h | h <;> rw [h] <;> exact ite_self _
    next => rfl
  have hprop : optMember (some (.obj fields)) "status" = (Json.obj fields).prop "status" := rfl
  simp only [PagarmeProvider.event, parseBody_of_parse hraw, member_data hdata,
    Option.bind_eq_bind, Option.bind_some, hfirst, HmacAdapter.optMember_nullish_obj, hprop, hstatus]
  rw [PagarmeProvider.mapStatus, ← mapStatus_default rfl rfl rfl, hcharge]
  cases str (nullish (nullish (optMember items.head? "status") ((Json.obj fields).prop "status"))
    (some (.str "pending"))) <;> rfl

end Readings

/-! ## The ids and the statuses -/

theorem isNullish_optMember {v : Option Json} {k : String} (h : isNullish v = true) :
    isNullish (optMember v k) = true := by
  rcases Js.isNullish_eq h with rfl | rfl <;> rfl

theorem pagarme_id_iff {first order body : Option Json} :
    nullish (optMember first "id") order =
        nullish (nullish (if isNullish first then order else optMember first "id") body)
          (some (.str "unknown")) ↔
      if isNullish first then isNullish order = false
      else isNullish (optMember first "id") = false ∨
        isNullish order = false ∧
          (body = order ∨ isNullish body = true ∧ order = some (.str "unknown")) := by
  rw [eq_nullish_iff]
  split
  next hfirst =>
    rw [nullish, if_pos (isNullish_optMember hfirst)]
    constructor
    · exact And.left
    · intro h
      exact ⟨h, .inl (if_neg (Bool.eq_false_iff.mp h))⟩
  next =>
    by_cases hid : isNullish (optMember first "id") = true
    · rw [nullish, if_pos hid, nullish, if_pos hid, hid]
      simp
    · rw [nullish, if_neg hid, nullish, if_neg hid, Bool.eq_false_iff.mpr hid]
      simp

/-- A word is looked up iff it has a text. -/
theorem mapped_iff {map : List (String × ChargeStatus)} {v : Option Json} :
    (∃ st, (str v).map (statusIn map) = some st ∧ (str v).map (statusIn map) = some st) ↔
      (str v).isSome := by
  cases str v <;> simp

/-- Two words are looked up and give one status. -/
theorem mapped_alike_iff {map : List (String × ChargeStatus)}
    {outcomes : List (List String × Found ChargeStatus)} {v w : Option Json}
    (hsorts : Sorts map outcomes) :
    (∃ st, (str v).map (statusIn map) = some st ∧ (str w).map (statusIn map) = some st) ↔
      ∃ t₁ t₂, str v = some t₁ ∧ str w = some t₂ ∧ ∀ x ∈ outcomes, t₁ ∈ x.1 ↔ t₂ ∈ x.1 := by
  constructor
  · rintro ⟨st, hv, hw⟩
    obtain ⟨t₁, ht₁, hst₁⟩ := Option.map_eq_some_iff.mp hv
    obtain ⟨t₂, ht₂, hst₂⟩ := Option.map_eq_some_iff.mp hw
    exact ⟨t₁, t₂, ht₁, ht₂, hsorts.same_iff.mpr (hst₁.trans hst₂.symm)⟩
  · rintro ⟨t₁, t₂, ht₁, ht₂, hsame⟩
    refine ⟨statusIn map t₁, ?_, ?_⟩
    · rw [ht₁, Option.map_some]
    · rw [ht₂, Option.map_some, hsorts.same_iff.mp hsame]

/-- **The orders that both readings agree on**, for any list of charges. -/
theorem reads_alike_iff (rt : Runtime) (a : OrderAdapter) (secret : String) (raw : Buffer)
    (headers : Headers) (body : Json) (fields : List (String × Json)) (items : List Json)
    (hraw : rt.parse raw = some body) (hbody : a.Carries body (.obj fields))
    (hlist : a.charges (.obj fields) = some (.arr items))
    (hsig : a.hmac.checkSignature rt secret raw headers = .ok ()) :
    a.ReadsAlike rt secret raw headers (.obj fields) ↔ a.Unambiguous body (.obj fields) items := by
  cases a with
  | pagarme =>
    rw [readsAlike_iff hsig (pagarme_created hlist) (pagarme_event hraw hbody hlist)]
    exact and_congr pagarme_id_iff mapped_iff
  | conekta =>
    rw [readsAlike_iff hsig (conekta_created hlist) (conekta_event hraw hbody hlist)]
    exact and_congr sameId_iff (mapped_alike_iff ConektaProvider.sorts_outcomes)

/-! ### A second charge, and a charge without an id -/

/-- A charge with an id and a status. -/
def charge (id status : String) : Json := .obj [("id", .str id), ("status", .str status)]

/-- An order of Conekta with two charges, of which the first was declined. -/
def retriedOrder : List (String × Json) :=
  [("id", .str "ord_1"), ("charges", .obj [("data",
    .arr [charge "ch_1" "declined", charge "ch_2" "paid"])])]

/-- An order of Pagar.me whose charge has no id. -/
def anonymousOrder : List (String × Json) :=
  [("id", .str "or_1"), ("charges", .arr [.obj [("status", .str "paid")]])]

/-- An order of Pagar.me with one charge. -/
def chargedOrder : List (String × Json) :=
  [("id", .str "or_1"), ("charges", .arr [charge "ch_1" "paid"])]

/-- A webhook of Conekta or of Pagar.me, in a runtime that parses every body as `body`. -/
def conektaWebhook (order : List (String × Json)) : Json :=
  .obj [("data", .obj [("object", .obj order)])]

def pagarmeWebhook (order : List (String × Json)) : Json :=
  .obj [("id", .str "hook_1"), ("data", .obj order)]

def parsing (body : Json) : Runtime where
  hmac _ _ _ := ""
  parse _ := some body
  now := 0
  pred _ := none
  constructEvent _ _ _ := .error ""

theorem reads_alike_charged :
    OrderAdapter.pagarme.ReadsAlike (parsing (pagarmeWebhook chargedOrder)) "" .empty []
        (.obj chargedOrder) ↔
      OrderAdapter.pagarme.Unambiguous (pagarmeWebhook chargedOrder) (.obj chargedOrder)
        [charge "ch_1" "paid"] :=
  reads_alike_iff (parsing (pagarmeWebhook chargedOrder)) .pagarme "" .empty []
    (pagarmeWebhook chargedOrder) chargedOrder [charge "ch_1" "paid"] rfl rfl rfl rfl

/-- The payment stored for `ch_1` is not found by the webhook of the order, which says `ch_2`; the
webhook of an order whose charge has no id says `hook_1`. -/
theorem read_differently :
    ¬ OrderAdapter.conekta.ReadsAlike (parsing (conektaWebhook retriedOrder)) "" .empty []
      (.obj retriedOrder) ∧
    ¬ OrderAdapter.pagarme.ReadsAlike (parsing (pagarmeWebhook anonymousOrder)) "" .empty []
      (.obj anonymousOrder) := by
  constructor
  · rintro ⟨c, e, hc, he, hid, -⟩
    cases hc
    cases he
    have hsame : some (Json.str "ch_1") = some (.str "ch_2") := hid
    exact absurd (Json.str.inj (Option.some.inj hsame)) (by decide)
  · rintro ⟨c, e, hc, he, hid, -⟩
    cases hc
    cases he
    have hsame : some (Json.str "or_1") = some (.str "hook_1") := hid
    exact absurd (Json.str.inj (Option.some.inj hsame)) (by decide)

end OrderAdapter

end Pasarela
