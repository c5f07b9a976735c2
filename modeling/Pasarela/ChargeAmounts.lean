import Pasarela.AdapterCalls
import Pasarela.Js.Cents
import Pasarela.RefundAmounts

/-!
# The amount of a charge in its currency

An amount is an integer of minor units of its currency. MercadoPago and dLocal take major units and
are sent the hundredth part of the integer, whatever the currency; the other providers take minor
units.

* `minorDigits`: the digits after the point that ISO 4217 gives a currency.
* `RemoteAdapter.charged`, `RemoteAdapter.refunded`: what the text of the number that is sent
  denotes, in major units.
* `RightAmount`: the provider is asked for the amount, a refund for the same part of it, and every
  other adapter for the country and the currency asks for the same. `right_amount_iff`.
-/

namespace Pasarela

open Js (Number)

/-- The `amount` of the request of `createCharge`. -/
def StripeProvider.chargeAmount (input : CreateChargeInput) : Number := .ofInt input.amountMinor

/-- The `transaction_amount` of the request of `createCharge`. -/
def MercadoPagoProvider.chargeAmount (input : CreateChargeInput) : Number :=
  (Number.ofInt input.amountMinor).div 100

/-- The `amount` of the only item in the request of `createCharge`. -/
def PagarmeProvider.chargeAmount (input : CreateChargeInput) : Number := .ofInt input.amountMinor

/-- The `unit_price` of the only item in the request of `createCharge`. -/
def ConektaProvider.chargeAmount (input : CreateChargeInput) : Number := .ofInt input.amountMinor

/-- The `amount` of the request of `createCharge`. -/
def DlocalProvider.chargeAmount (input : CreateChargeInput) : Number :=
  (Number.ofInt input.amountMinor).div 100

/-- The minor digits of the currencies that the adapters declare. -/
def iso4217 : List (String × ℕ) := [
  ("ARS", 2), ("BOB", 2), ("BRL", 2), ("CLP", 0), ("COP", 2), ("CRC", 2), ("EUR", 2), ("GBP", 2),
  ("GTQ", 2), ("MXN", 2), ("PEN", 2), ("PYG", 0), ("USD", 2), ("UYU", 2)]

/-- The digits of the minor units of a currency; most have two. -/
def minorDigits (currency : String) : ℕ := (iso4217.lookup currency).getD 2

namespace RemoteAdapter

def countries : RemoteAdapter → List String
  | .stripe => ["US", "GB", "DE", "FR", "ES", "IT", "BR", "MX", "AR"]
  | .mercadopago => ["AR", "BR", "MX", "CO", "CL", "PE", "UY", "BO", "PY"]
  | .pagarme => ["BR"]
  | .conekta => ["MX"]
  | .dlocal => ["PE", "CL", "CO", "UY", "BO", "PY", "CR", "GT", "EC"]

def currencies : RemoteAdapter → List String
  | .stripe => ["USD", "EUR", "GBP", "BRL", "MXN", "ARS"]
  | .mercadopago => ["ARS", "BRL", "MXN", "COP", "CLP", "PEN", "UYU", "BOB", "PYG"]
  | .pagarme => ["BRL"]
  | .conekta => ["MXN"]
  | .dlocal => ["PEN", "CLP", "COP", "UYU", "BOB", "PYG", "CRC", "GTQ", "USD"]

/-- The amount of the request of `createCharge`. -/
def chargeAmount : RemoteAdapter → CreateChargeInput → Number
  | .stripe => StripeProvider.chargeAmount
  | .mercadopago => MercadoPagoProvider.chargeAmount
  | .pagarme => PagarmeProvider.chargeAmount
  | .conekta => ConektaProvider.chargeAmount
  | .dlocal => DlocalProvider.chargeAmount

/-- The adapter, among all those of the repository. -/
def adapter : RemoteAdapter → Adapter
  | .stripe => .stripe
  | .mercadopago => .mercadopago
  | .pagarme => .pagarme
  | .conekta => .conekta
  | .dlocal => .dlocal

/-- The provider takes amounts in major units. -/
def takesMajor : RemoteAdapter → Bool
  | .mercadopago => true
  | .dlocal => true
  | _ => false

/-- An amount of the provider in major units of the currency. -/
def inMajor (a : RemoteAdapter) (currency : String) (q : ℚ) : ℚ :=
  if a.takesMajor then q else q / 10 ^ minorDigits currency

/-- What the provider is asked to charge (module doc). -/
def charged (a : RemoteAdapter) (input : CreateChargeInput) : Option ℚ :=
  (a.chargeAmount input).denoted.map (a.inMajor input.currency)

/-- What the provider is asked to pay back of a charge in the currency; `none` for all of it. -/
def refunded (a : RemoteAdapter) (currency : String) (input : RefundInput) : Option ℚ :=
  ((a.adapter.sentAmount input).bind Number.denoted).map (a.inMajor currency)

/-- The adapter is one for the country and the currency. -/
def Accepts (a : RemoteAdapter) (input : CreateChargeInput) : Prop :=
  input.country ∈ a.countries ∧ input.currency ∈ a.currencies

/-- The text of the number that the adapter makes of `n` denotes `n`, or its hundredth part. -/
def SendsText (a : RemoteAdapter) (n : ℤ) : Prop :=
  if a.takesMajor then ((Number.ofInt n).div 100).denoted = some ((n : ℚ) / 100)
  else (Number.ofInt n).denoted = some (n : ℚ)

end RemoteAdapter

/-- The provider is asked for the right amount (module doc). -/
structure RightAmount (a : RemoteAdapter) (input : CreateChargeInput) : Prop where
  exact : a.charged input = some ((input.amountMinor : ℚ) / 10 ^ minorDigits input.currency)
  refund : ∀ r : RefundInput, r.amountMinor = some input.amountMinor →
    a.refunded input.currency r = a.charged input
  alike : ∀ b : RemoteAdapter, a.Accepts input → b.Accepts input → b.charged input = a.charged input

namespace RemoteAdapter

variable {a : RemoteAdapter} {input : CreateChargeInput} {n : ℤ}

theorem chargeAmount_eq : a.chargeAmount input =
    if a.takesMajor then (Number.ofInt input.amountMinor).div 100
    else Number.ofInt input.amountMinor := by
  cases a <;> rfl

theorem sentAmount_eq {r : RefundInput} (h : r.amountMinor = some n) (hn : n ≠ 0) :
    a.adapter.sentAmount r =
      some (if a.takesMajor then (Number.ofInt n).div 100 else Number.ofInt n) := by
  have hnumber : r.number = some (Number.ofInt n) := by
    rw [RefundInput.number, h, Option.filter_some, if_pos (by simpa using hn), Option.map_some]
  have hdiv : r.number.map (Number.div 100) = some ((Number.ofInt n).div 100) := by
    rw [hnumber, Option.map_some]
  cases a with
  | mercadopago => exact hdiv
  | dlocal => exact hdiv
  | stripe => exact hnumber
  | pagarme => exact hnumber
  | conekta => exact hnumber

/-- **A refund is sent on the scale of the charge.** -/
theorem refunded_eq_charged {r : RefundInput} (h : r.amountMinor = some input.amountMinor)
    (hn : 0 < input.amountMinor) : a.refunded input.currency r = a.charged input := by
  rw [refunded, charged, sentAmount_eq h hn.ne', chargeAmount_eq, Option.bind_some]

/-- The declared currencies have no minor digit or two; those of the providers that take minor
units have two. -/
theorem minorDigits_cases : ∀ a : RemoteAdapter, ∀ c ∈ a.currencies,
    minorDigits c = 2 ∨ minorDigits c = 0 ∧ a.takesMajor = true := by
  intro a
  cases a <;> decide

/-- **The amount of a charge is the right one** iff the currency has two minor digits and the text
of the number is exact. -/
theorem charged_iff (hn : 0 < input.amountMinor) (hc : input.currency ∈ a.currencies) :
    a.charged input = some ((input.amountMinor : ℚ) / 10 ^ minorDigits input.currency) ↔
      minorDigits input.currency = 2 ∧ a.SendsText input.amountMinor := by
  rw [charged, chargeAmount_eq, SendsText]
  rcases minorDigits_cases a _ hc with h2 | ⟨h0, hmajor⟩
  · rw [and_iff_right h2]
    cases hm : a.takesMajor with
    | true =>
      have hid : ∀ q, a.inMajor input.currency q = q := fun q => by rw [inMajor, hm, if_pos rfl]
      have hsquare : (10 : ℚ) ^ 2 = 100 := by norm_num
      rw [if_pos rfl, if_pos rfl, h2, hsquare]
      cases ((Number.ofInt input.amountMinor).div 100).denoted <;> simp [hid]
    | false =>
      have hdiv : ∀ q, a.inMajor input.currency q = q / 10 ^ 2 := fun q => by
        rw [inMajor, hm, if_neg Bool.false_ne_true, h2]
      rw [if_neg Bool.false_ne_true, if_neg Bool.false_ne_true, h2]
      cases (Number.ofInt input.amountMinor).denoted with
      | none => simp
      | some q =>
        rw [Option.map_some, hdiv, Option.some.injEq, Option.some.injEq,
          div_left_inj' (by norm_num)]
  · -- an amount without minor digits is divided all the same
    refine iff_of_false ?_ fun h => by omega
    have hid : ∀ q, a.inMajor input.currency q = q := fun q => by rw [inMajor, hmajor, if_pos rfl]
    rw [hmajor, if_pos rfl, h0, pow_zero, div_one]
    have hne := Js.denoted_div_hundred_ne hn
    cases hden : ((Number.ofInt input.amountMinor).div 100).denoted with
    | none => simp
    | some q =>
      rw [Option.map_some, hid]
      rwa [hden] at hne

/-- The text is exact up to `10 ^ 15`. -/
theorem sendsText_of_le (hn : 0 < n) (h : n ≤ 10 ^ 15) : a.SendsText n := by
  unfold SendsText
  split
  · exact Js.denoted_div_hundred hn h
  · exact Js.denoted_ofInt (by omega)

/-- **When the provider is asked for the right amount**: the currency has two minor digits, and the
number has an exact text for the adapter and every other one for the country and the currency. -/
theorem right_amount_iff (a : RemoteAdapter) (input : CreateChargeInput)
    (hn : 0 < input.amountMinor) (hc : input.currency ∈ a.currencies) :
    RightAmount a input ↔
      minorDigits input.currency = 2 ∧ a.SendsText input.amountMinor ∧
        ∀ b : RemoteAdapter, a.Accepts input → b.Accepts input → b.SendsText input.amountMinor := by
  constructor
  · intro h
    obtain ⟨h2, htext⟩ := (charged_iff hn hc).mp h.exact
    refine ⟨h2, htext, fun b ha hb => ?_⟩
    have hexact := (h.alike b ha hb).trans h.exact
    exact ((charged_iff hn hb.2).mp hexact).2
  · rintro ⟨h2, htext, hall⟩
    have hexact := (charged_iff hn hc).mpr ⟨h2, htext⟩
    refine ⟨hexact, fun r hr => refunded_eq_charged hr hn, fun b ha hb => ?_⟩
    rw [hexact, (charged_iff hn hb.2).mpr ⟨h2, hall b ha hb⟩]

/-- **Up to `10 ^ 15` the minor digits decide.** -/
theorem right_amount_of_le (hn : 0 < input.amountMinor) (h : input.amountMinor ≤ 10 ^ 15)
    (hc : input.currency ∈ a.currencies) :
    RightAmount a input ↔ minorDigits input.currency = 2 := by
  rw [right_amount_iff a input hn hc]
  exact and_iff_left ⟨sendsText_of_le hn h, fun b _ _ => sendsText_of_le hn h⟩

/-! ### A charge in Chilean pesos -/

/-- A charge in a country and its currency. -/
def chargeIn (country currency : String) (amountMinor : ℤ) : CreateChargeInput where
  amountMinor
  currency
  country
  customer := { id := "cus_1", email := none }
  description := none
  method := "card"
  idempotencyKey := "key-1"
  returnUrl := none
  metadata := none

theorem right_amount_dollars :
    RightAmount .stripe (chargeIn "US" "USD" 1999) ↔
      minorDigits "USD" = 2 ∧ RemoteAdapter.stripe.SendsText 1999 ∧
        ∀ b : RemoteAdapter, RemoteAdapter.stripe.Accepts (chargeIn "US" "USD" 1999) →
          b.Accepts (chargeIn "US" "USD" 1999) → b.SendsText 1999 :=
  right_amount_iff .stripe (chargeIn "US" "USD" 1999) (by decide) (by decide)

/-- Of a thousand pesos MercadoPago is asked for ten. -/
theorem right_amount_pesos : ¬ RightAmount .mercadopago (chargeIn "CL" "CLP" 1000) := by
  intro h
  have hexact := h.exact
  revert hexact
  decide +kernel

end RemoteAdapter

end Pasarela
