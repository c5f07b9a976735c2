import Mathlib.Data.Bool.AllAny
import Mathlib.Data.Nat.Prime.Pow
import Pasarela.Js.Double

/-!
# The text of a number

`Number.text` is `String(x)` of a finite number: the fewest digits that give the number back, of
these the closest to it, in the form for their order of magnitude. `readNumber` reads a number of a
JSON text.

* `literal`: the sign, the digits and the exponent of a JSON number.
* `shortestWith q k`: the digits of `q`, if `k` of them are enough. `shortest` tries one to
  seventeen, which are always enough; it ends with the exact digits, so that it is total.
* `readNumber_text`: what is written is read back, but for the sign of zero.
-/

namespace Js

/-! ## Reading -/

/-- A decimal number: its sign, its digits and the exponent of ten. -/
structure Decimal where
  neg : Bool
  digits : ℕ
  exp : ℤ
  deriving DecidableEq, Repr

/-- The magnitude that a decimal number denotes. -/
def Decimal.mag (d : Decimal) : ℚ := d.digits * 10 ^ d.exp

/-- The digits at the start of a text, and the rest. -/
def leadingDigits (cs : List Char) : List Char × List Char :=
  (cs.takeWhile Char.isDigit, cs.dropWhile Char.isDigit)

/-- The digits of an integer, with no zero before them. -/
def integerPart : List Char → Option (List Char × List Char)
  | '0' :: cs => some (['0'], cs)
  | cs => if (leadingDigits cs).1 = [] then none else some (leadingDigits cs)

/-- The digits after the point, if there is one. -/
def fractionPart : List Char → Option (List Char × List Char)
  | '.' :: cs => if (leadingDigits cs).1 = [] then none else some (leadingDigits cs)
  | cs => some ([], cs)

/-- The value of one or more digits. -/
def natural (cs : List Char) : Option ℕ :=
  if cs ≠ [] ∧ cs.all Char.isDigit then some (Nat.ofDigitChars 10 cs 0) else none

/-- The exponent, with its sign. -/
def signedExponent : List Char → Option ℤ
  | '-' :: cs => (natural cs).map fun n => -(n : ℤ)
  | '+' :: cs => (natural cs).map fun n => (n : ℤ)
  | cs => (natural cs).map fun n => (n : ℤ)

/-- The exponent at the end of a number. -/
def exponentPart : List Char → Option ℤ
  | [] => some 0
  | c :: cs => if c = 'e' ∨ c = 'E' then signedExponent cs else none

/-- A number of a JSON text without its sign. -/
def unsignedLiteral (neg : Bool) (cs : List Char) : Option Decimal := do
  let i ← integerPart cs
  let f ← fractionPart i.2
  let e ← exponentPart f.2
  return ⟨neg, Nat.ofDigitChars 10 (i.1 ++ f.1) 0, e - f.1.length⟩

/-- A number of a JSON text. -/
def literal : List Char → Option Decimal
  | '-' :: cs => unsignedLiteral true cs
  | cs => unsignedLiteral false cs

/-- The characters of the numbers of a JSON text. -/
def isNumberChar (c : Char) : Bool := c.isDigit || c ∈ ['+', '-', '.', 'e', 'E']

/-- The number that a number of a JSON text becomes. -/
def readNumber (cs : List Char) : Option Number :=
  (literal cs).map fun d => .round d.neg d.mag

/-! ## Writing -/

/-- A decimal number is read as the magnitude `q`. -/
abbrev Fits (q : ℚ) (s : ℕ) (e : ℤ) : Prop := nearest (s * 10 ^ e) = q

/-- The decimal number of `k` digits that is read as `q` and is the closest to it, if there is one.
It is one of the two around `q`; of two that are as close, the even one. -/
def shortestWith (q : ℚ) (k : ℕ) : Option (ℕ × ℤ) :=
  let e := Int.log 10 q + 1 - k
  let s := ⌊q / 10 ^ e⌋₊
  let r := q / 10 ^ e - s
  if Fits q s e ∧ ¬ (Fits q (s + 1) e ∧ (1 / 2 < r ∨ r = 1 / 2 ∧ s % 2 = 1)) then some (s, e)
  else if Fits q (s + 1) e then some (s + 1, e)
  else none

/-- All the digits of a binary fraction. -/
def exactDecimal (q : ℚ) : ℕ × ℤ := (q.num.toNat * 5 ^ Nat.log 2 q.den, -Nat.log 2 q.den)

/-- The digits of the first length that is enough (module doc). -/
def fewestDigits (q : ℚ) : ℕ × ℤ :=
  ((List.range' 1 17).findSome? (shortestWith q)).getD (exactDecimal q)

/-- The digits of `q` and the exponent of ten of the last one. The number over a digit nine has a
zero at its end. -/
def shortest (q : ℚ) : ℕ × ℤ :=
  if (fewestDigits q).1 % 10 = 0 then ((fewestDigits q).1 / 10, (fewestDigits q).2 + 1)
  else fewestDigits q

/-- A point and digits, or nothing. -/
def fractionText (f : List Char) : List Char := if f = [] then [] else '.' :: f

/-- An exponent with its sign. -/
def exponentText (e : ℤ) : List Char :=
  'e' :: (if e < 0 then '-' else '+') :: Nat.toDigits 10 e.natAbs

/-- The digits `ds` with the point after the first `n` of them, as `String(x)` writes them. -/
def decimalText (ds : List Char) (n : ℤ) : List Char :=
  if ds.length ≤ n ∧ n ≤ 21 then ds ++ List.replicate (n - ds.length).toNat '0'
  else if 0 < n ∧ n ≤ 21 then ds.take n.toNat ++ '.' :: ds.drop n.toNat
  else if -6 < n ∧ n ≤ 0 then '0' :: '.' :: (List.replicate (-n).toNat '0' ++ ds)
  else ds.take 1 ++ fractionText (ds.drop 1) ++ exponentText (n - 1)

def signText (neg : Bool) : List Char := if neg then ['-'] else []

/-- `String(x)`, if `x` is finite. -/
def Number.text : Number → Option (List Char)
  | .finite neg m =>
    if m.val = 0 then some ['0']
    else
      let d := shortest m.val
      let ds := Nat.toDigits 10 d.1
      some (signText neg ++ decimalText ds (ds.length + d.2))
  | .infinity _ => none

/-- The number that the text denotes: there is no text of `-0`. -/
def Number.written : Number → Number
  | .finite neg m => .finite (neg && m.val ≠ 0) m
  | .infinity neg => .infinity neg

/-! ## The digits -/

theorem fits_of_shortestWith {q : ℚ} {k s : ℕ} {e : ℤ} (h : shortestWith q k = some (s, e)) :
    Fits q s e := by
  simp only [shortestWith] at h
  split at h
  next hs => cases h; exact hs.1
  next =>
    split at h
    next hs => cases h; exact hs
    next => cases h

/-- The denominator of a magnitude is a power of two. -/
theorem Magnitude.den_eq (m : Magnitude) : m.val.den = 2 ^ Nat.log 2 m.val.den := by
  obtain ⟨n, e, -, he, hq⟩ := exists_dyadic m.val
  rw [m.nearest_val] at hq
  obtain ⟨k, l, hkl⟩ : ∃ k l : ℕ, e = k - l := ⟨(e + 1074).toNat, 1074, by omega⟩
  have hval : m.val = Rat.divInt ((n * 2 ^ k : ℕ) : ℤ) ((2 ^ l : ℕ) : ℤ) := by
    rw [hq, hkl, zpow_sub₀ (by decide), Rat.divInt_eq_div, zpow_natCast, zpow_natCast]
    push_cast
    ring
  have hdvd : m.val.den ∣ 2 ^ l := by
    have h := Rat.den_dvd ((n * 2 ^ k : ℕ) : ℤ) ((2 ^ l : ℕ) : ℤ)
    rw [← hval] at h
    exact_mod_cast h
  obtain ⟨j, -, hj⟩ := (Nat.dvd_prime_pow Nat.prime_two).mp hdvd
  rw [hj, Nat.log_pow (by decide)]

theorem exactDecimal_mag (m : Magnitude) :
    ((exactDecimal m.val).1 : ℚ) * 10 ^ (exactDecimal m.val).2 = m.val := by
  have hden := m.den_eq
  set j := Nat.log 2 m.val.den with hj
  have hnum : ((m.val.num.toNat : ℕ) : ℚ) = m.val.num := by
    have h : ((m.val.num.toNat : ℕ) : ℤ) = m.val.num :=
      Int.toNat_of_nonneg (Rat.num_nonneg.mpr m.nonneg)
    exact_mod_cast h
  have hten : (10 : ℚ) ^ j = 5 ^ j * 2 ^ j := by
    rw [← mul_pow]
    norm_num
  have hpos : (5 : ℚ) ^ j ≠ 0 := by positivity
  calc ((m.val.num.toNat * 5 ^ j : ℕ) : ℚ) * 10 ^ (-(j : ℤ))
      = m.val.num * 5 ^ j / 10 ^ j := by
        rw [zpow_neg, zpow_natCast]
        push_cast
        rw [hnum, div_eq_mul_inv]
    _ = m.val.num / 2 ^ j := by
        rw [hten]
        field_simp
    _ = m.val := by
        have h : ((2 : ℚ) ^ j) = m.val.den := by
          rw [hden]
          push_cast
          rfl
        rw [h, Rat.num_div_den]

theorem fewestDigits_fits (m : Magnitude) :
    Fits m.val (fewestDigits m.val).1 (fewestDigits m.val).2 := by
  unfold fewestDigits
  cases hf : (List.range' 1 17).findSome? (shortestWith m.val) with
  | none =>
    show nearest _ = _
    rw [Option.getD_none, exactDecimal_mag, m.nearest_val]
  | some d =>
    obtain ⟨k, -, hk⟩ := List.exists_of_findSome?_eq_some hf
    exact fits_of_shortestWith hk

/-- A zero at the end is worth nothing. -/
theorem shortest_value (q : ℚ) :
    ((shortest q).1 : ℚ) * 10 ^ (shortest q).2 =
      (fewestDigits q).1 * 10 ^ (fewestDigits q).2 := by
  unfold shortest
  split
  next hz =>
    have hdiv : (((fewestDigits q).1 / 10 : ℕ) : ℚ) * 10 = (fewestDigits q).1 := by
      exact_mod_cast Nat.div_mul_cancel (Nat.dvd_of_mod_eq_zero hz)
    show (((fewestDigits q).1 / 10 : ℕ) : ℚ) * 10 ^ ((fewestDigits q).2 + 1) = _
    rw [zpow_add₀ (by decide), zpow_one, mul_comm ((10 : ℚ) ^ (fewestDigits q).2), ← mul_assoc,
      hdiv]
  next => rfl

/-- **The digits of a number denote it**, once they are rounded. -/
theorem shortest_fits (m : Magnitude) : Fits m.val (shortest m.val).1 (shortest m.val).2 := by
  rw [Fits, shortest_value]
  exact fewestDigits_fits m

/-! ## The text is read back -/

/-- The integer part of a text: zero, or digits of which the first one is not zero. -/
structure IsInteger (i : List Char) : Prop where
  digit : ∀ c ∈ i, c.isDigit = true
  head : i = ['0'] ∨ ∃ c cs, i = c :: cs ∧ c ≠ '0'

/-- No digit comes first. -/
def EndsDigits (x : List Char) : Prop := ∀ c ∈ x.head?, c.isDigit = false

theorem leadingDigits_append {i x : List Char} (hi : ∀ c ∈ i, c.isDigit = true)
    (hx : EndsDigits x) : leadingDigits (i ++ x) = (i, x) := by
  unfold leadingDigits
  rw [List.takeWhile_append_of_pos hi, List.dropWhile_append_of_pos hi]
  cases x with
  | nil => simp
  | cons c x =>
    have hc : c.isDigit = false := hx c rfl
    simp [hc]

theorem integerPart_append {i x : List Char} (hi : IsInteger i) (hx : EndsDigits x) :
    integerPart (i ++ x) = some (i, x) := by
  rcases hi.head with rfl | ⟨c, cs, rfl, hc⟩
  · rfl
  · have h := leadingDigits_append hi.digit hx
    unfold integerPart
    split
    next heq => exact absurd (List.cons.inj heq).1 hc
    next => rw [h, if_neg (List.cons_ne_nil c cs)]

theorem fractionPart_append {f x : List Char} (hf : ∀ c ∈ f, c.isDigit = true)
    (hx : EndsDigits x) (hdot : x.head? ≠ some '.') :
    fractionPart (fractionText f ++ x) = some (f, x) := by
  unfold fractionText
  by_cases h : f = []
  · subst h
    rw [if_pos rfl, List.nil_append]
    unfold fractionPart
    split
    next => exact absurd rfl hdot
    next => rfl
  · rw [if_neg h]
    show (if (leadingDigits (f ++ x)).1 = [] then none else some (leadingDigits (f ++ x))) = _
    rw [leadingDigits_append hf hx, if_neg h]

theorem natural_toDigits (n : ℕ) : natural (Nat.toDigits 10 n) = some n := by
  have hall : (Nat.toDigits 10 n).all Char.isDigit = true :=
    List.all_eq_true.mpr fun c hc =>
      Nat.isDigit_of_mem_toDigits (by decide) (by decide) hc
  unfold natural
  rw [if_pos ⟨Nat.toDigits_ne_nil, hall⟩, Nat.ofDigitChars_ten_toDigits]

theorem exponentPart_text (e : ℤ) : exponentPart (exponentText e) = some e := by
  unfold exponentText
  by_cases he : e < 0
  · rw [if_pos he]
    show (natural (Nat.toDigits 10 e.natAbs)).map (fun n => -(n : ℤ)) = some e
    rw [natural_toDigits]
    have habs : -((e.natAbs : ℕ) : ℤ) = e := by omega
    exact congrArg some habs
  · rw [if_neg he]
    show (natural (Nat.toDigits 10 e.natAbs)).map (fun n => (n : ℤ)) = some e
    rw [natural_toDigits]
    have habs : ((e.natAbs : ℕ) : ℤ) = e := by omega
    exact congrArg some habs

/-- The three parts of a text, and what they are worth. -/
structure Parts (cs : List Char) (v : ℚ) where
  int : List Char
  frac : List Char
  tail : List Char
  exp : ℤ
  eq : cs = int ++ (fractionText frac ++ tail)
  isInteger : IsInteger int
  digit : ∀ c ∈ frac, c.isDigit = true
  isExponent : exponentPart tail = some exp
  head : tail.head? = none ∨ tail.head? = some 'e'
  isNumber : ∀ c ∈ tail, isNumberChar c = true
  value : (Nat.ofDigitChars 10 (int ++ frac) 0 : ℚ) * 10 ^ (exp - frac.length) = v

namespace Parts

variable {cs : List Char} {v : ℚ} (P : Parts cs v)

theorem endsDigits_tail : EndsDigits P.tail := by
  intro c hc
  rcases P.head with h | h
  · rw [h] at hc
    cases hc
  · rw [h] at hc
    cases hc
    rfl

theorem endsDigits : EndsDigits (fractionText P.frac ++ P.tail) := by
  unfold fractionText
  split
  next => exact P.endsDigits_tail
  next =>
    intro c hc
    cases hc
    rfl

/-- The literal of the text. -/
def decimal (neg : Bool) : Decimal :=
  ⟨neg, Nat.ofDigitChars 10 (P.int ++ P.frac) 0, P.exp - P.frac.length⟩

theorem unsignedLiteral_eq (neg : Bool) : unsignedLiteral neg cs = some (P.decimal neg) := by
  have hdot : P.tail.head? ≠ some '.' := by
    rcases P.head with h | h <;> rw [h] <;> decide
  have hf := fractionPart_append P.digit P.endsDigits_tail hdot
  have hi : integerPart cs = some (P.int, fractionText P.frac ++ P.tail) := by
    conv_lhs => rw [P.eq]
    exact integerPart_append P.isInteger P.endsDigits
  rw [unsignedLiteral, hi]
  simp only [Option.bind_eq_bind, Option.bind_some, hf, P.isExponent]
  rfl

theorem literal_eq (neg : Bool) : literal (signText neg ++ cs) = some (P.decimal neg) := by
  cases neg with
  | true => exact P.unsignedLiteral_eq true
  | false =>
    have hhead : cs.head? ≠ some '-' := by
      rw [P.eq]
      rcases P.isInteger.head with h | ⟨c, i, h, -⟩
      · rw [h]
        intro he
        cases he
      · have hc := P.isInteger.digit c (by rw [h]; exact List.mem_cons_self)
        rw [h]
        intro he
        cases he
        exact absurd hc (by decide)
    rw [show signText false ++ cs = cs from rfl]
    unfold literal
    split
    next => exact absurd rfl hhead
    next => exact P.unsignedLiteral_eq false

theorem isNumberChar_of_mem (P : Parts cs v) {c : Char} (hc : c ∈ cs) : isNumberChar c = true := by
  have hdigit : c.isDigit = true → isNumberChar c = true := fun h => by simp [isNumberChar, h]
  rw [P.eq, List.mem_append, List.mem_append] at hc
  rcases hc with h | h | h
  · exact hdigit (P.isInteger.digit c h)
  · unfold fractionText at h
    split at h
    next => cases h
    next =>
      rcases List.mem_cons.mp h with rfl | h
      · rfl
      · exact hdigit (P.digit c h)
  · exact P.isNumber c h

end Parts

section Forms

variable {c : Char} {cs : List Char}

theorem isDigit_replicate_zero (k : ℕ) : ∀ x ∈ List.replicate k '0', x.isDigit = true := by
  intro x hx
  rw [List.eq_of_mem_replicate hx]
  rfl

theorem isDigit_append {ds es : List Char} (hds : ∀ x ∈ ds, x.isDigit = true)
    (hes : ∀ x ∈ es, x.isDigit = true) : ∀ x ∈ ds ++ es, x.isDigit = true := by
  intro x hx
  rcases List.mem_append.mp hx with h | h
  · exact hds x h
  · exact hes x h

/-- The characters of an exponent are those of numbers. -/
theorem isNumberChar_exponentText (e : ℤ) : ∀ x ∈ exponentText e, isNumberChar x = true := by
  intro x hx
  rcases List.mem_cons.mp hx with rfl | hx
  · rfl
  rcases List.mem_cons.mp hx with rfl | hx
  · split <;> rfl
  · have hdigit := Nat.isDigit_of_mem_toDigits (by decide) (by decide) hx
    simp [isNumberChar, hdigit]

/-- The digits with zeros after them. -/
theorem integer_parts (hds : ∀ x ∈ c :: cs, x.isDigit = true) (hc : c ≠ '0') {n : ℤ}
    (hn : (c :: cs).length ≤ n) :
    Nonempty (Parts (c :: cs ++ List.replicate (n - (c :: cs).length).toNat '0')
      (Nat.ofDigitChars 10 (c :: cs) 0 * 10 ^ (n - (c :: cs).length))) := by
  refine ⟨⟨c :: cs ++ List.replicate (n - (c :: cs).length).toNat '0', [], [], 0,
    by simp [fractionText],
    ⟨isDigit_append hds (isDigit_replicate_zero _), .inr ⟨c, _, rfl, hc⟩⟩,
    by simp, rfl, .inl rfl, by simp, ?_⟩⟩
  have hexp : ((10 : ℚ)) ^ (n - (c :: cs).length) = 10 ^ (n - (c :: cs).length).toNat := by
    rw [← zpow_natCast]
    congr 1
    omega
  rw [List.append_nil, Nat.ofDigitChars_append, Nat.ofDigitChars_replicate_zero, hexp]
  push_cast
  simp [mul_comm]

/-- The digits with the point among them. -/
theorem pointed_parts (hds : ∀ x ∈ c :: cs, x.isDigit = true) (hc : c ≠ '0') {n : ℤ} (h0 : 0 < n)
    (hn : n < (c :: cs).length) :
    Nonempty (Parts ((c :: cs).take n.toNat ++ '.' :: (c :: cs).drop n.toNat)
      (Nat.ofDigitChars 10 (c :: cs) 0 * 10 ^ (n - (c :: cs).length))) := by
  obtain ⟨k, hk⟩ : ∃ k, n.toNat = k + 1 := ⟨n.toNat - 1, by omega⟩
  have hdrop : (c :: cs).drop n.toNat ≠ [] := by
    intro h
    have := List.drop_eq_nil_iff.mp h
    omega
  refine ⟨⟨(c :: cs).take n.toNat, (c :: cs).drop n.toNat, [], 0, by simp [fractionText, hdrop],
    ⟨fun x hx => hds x (List.mem_of_mem_take hx),
      .inr ⟨c, cs.take k, by rw [hk, List.take_succ_cons], hc⟩⟩,
    fun x hx => hds x (List.mem_of_mem_drop hx), rfl, .inl rfl, by simp, ?_⟩⟩
  rw [List.take_append_drop, List.length_drop]
  congr 2
  omega

/-- The point, and zeros before the digits. -/
theorem fraction_parts (hds : ∀ x ∈ c :: cs, x.isDigit = true) {n : ℤ} (hn : n ≤ 0) :
    Nonempty (Parts ('0' :: '.' :: (List.replicate (-n).toNat '0' ++ c :: cs))
      (Nat.ofDigitChars 10 (c :: cs) 0 * 10 ^ (n - (c :: cs).length))) := by
  refine ⟨⟨['0'], List.replicate (-n).toNat '0' ++ c :: cs, [], 0, by simp [fractionText],
    ⟨by simp, .inl rfl⟩, isDigit_append (isDigit_replicate_zero _) hds, rfl, .inl rfl, by simp, ?_⟩⟩
  have hz : Nat.ofDigitChars 10 ['0'] 0 = 0 := rfl
  rw [List.length_append, List.length_replicate, Nat.ofDigitChars_append, Nat.ofDigitChars_append,
    Nat.ofDigitChars_replicate_zero, hz, Nat.mul_zero]
  congr 2
  omega

/-- One digit before the point, and an exponent. -/
theorem exponent_parts (hds : ∀ x ∈ c :: cs, x.isDigit = true) (hc : c ≠ '0') (n : ℤ) :
    Nonempty (Parts ([c] ++ fractionText cs ++ exponentText (n - 1))
      (Nat.ofDigitChars 10 (c :: cs) 0 * 10 ^ (n - (c :: cs).length))) := by
  refine ⟨⟨[c], cs, exponentText (n - 1), n - 1, rfl, ⟨?_, .inr ⟨c, [], rfl, hc⟩⟩,
    fun x hx => hds x (List.mem_cons_of_mem c hx), exponentPart_text _, .inr rfl,
    isNumberChar_exponentText _, ?_⟩⟩
  · intro x hx
    rw [List.mem_singleton.mp hx]
    exact hds c List.mem_cons_self
  · rw [List.singleton_append, List.length_cons]
    congr 2
    omega

/-- The parts of the text of a decimal number that does not start with a zero. -/
theorem decimalText_parts (hds : ∀ x ∈ c :: cs, x.isDigit = true) (hc : c ≠ '0') (n : ℤ) :
    Nonempty (Parts (decimalText (c :: cs) n)
      (Nat.ofDigitChars 10 (c :: cs) 0 * 10 ^ (n - (c :: cs).length))) := by
  unfold decimalText
  by_cases h₁ : (c :: cs).length ≤ n ∧ n ≤ 21
  · rw [if_pos h₁]
    exact integer_parts hds hc h₁.1
  rw [if_neg h₁]
  by_cases h₂ : 0 < n ∧ n ≤ 21
  · rw [if_pos h₂]
    exact pointed_parts hds hc h₂.1 (by omega)
  rw [if_neg h₂]
  by_cases h₃ : -6 < n ∧ n ≤ 0
  · rw [if_pos h₃]
    exact fraction_parts hds h₃.2
  · rw [if_neg h₃]
    exact exponent_parts hds hc n

end Forms

/-- A positive number is written with digits of which the first one is not zero. -/
theorem toDigits_head {n : ℕ} (hn : n ≠ 0) : ∃ c cs, Nat.toDigits 10 n = c :: cs ∧ c ≠ '0' := by
  induction n using Nat.strong_induction_on with
  | _ n ih =>
    by_cases hlt : n < 10
    · exact ⟨n.digitChar, [], Nat.toDigits_of_lt_base hlt, by simpa using hn⟩
    · obtain ⟨c, cs, hcs, hc⟩ := ih (n / 10) (by omega) (by omega)
      refine ⟨c, cs ++ [(n % 10).digitChar], ?_, hc⟩
      rw [Nat.toDigits_of_base_le (by decide) (by omega), hcs]
      rfl

theorem Number.text_zero (neg : Bool) {m : Magnitude} (h : m.val = 0) :
    (Number.finite neg m).text = some ['0'] := if_pos h

/-- **The text of a number**: its decimal number is read as the number. -/
theorem Number.text_parts (neg : Bool) {m : Magnitude} (h : m.val ≠ 0) :
    ∃ cs, (Number.finite neg m).text = some (signText neg ++ cs) ∧
      Nonempty (Parts cs ((shortest m.val).1 * 10 ^ (shortest m.val).2)) := by
  have hfit := shortest_fits m
  have hne : (shortest m.val).1 ≠ 0 := by
    intro h0
    rw [h0] at hfit
    refine h (hfit.symm.trans ?_)
    simp [nearest, roundEven]
  obtain ⟨c, cs, hcs, hc⟩ := toDigits_head hne
  have hdigits : ∀ x ∈ c :: cs, x.isDigit = true := fun x hx => by
    rw [← hcs] at hx
    exact Nat.isDigit_of_mem_toDigits (by decide) (by decide) hx
  have hparts := decimalText_parts hdigits hc ((c :: cs).length + (shortest m.val).2)
  rw [← hcs, Nat.ofDigitChars_ten_toDigits, add_sub_cancel_left] at hparts
  exact ⟨_, if_neg h, hparts⟩

/-- **What is written is read back**, but for the sign of zero. -/
theorem readNumber_text {x : Number} {cs : List Char} (h : x.text = some cs) :
    readNumber cs = some x.written := by
  cases x with
  | infinity neg => cases h
  | finite neg m =>
    by_cases h0 : m.val = 0
    · have hcs : cs = ['0'] := Option.some.inj (h.symm.trans (Number.text_zero neg h0))
      have hlit : literal ['0'] = some ⟨false, 0, 0⟩ := by decide
      have hval : (Decimal.mag ⟨false, 0, 0⟩) = m.val := by
        rw [h0]
        simp [Decimal.mag]
      rw [hcs, readNumber, hlit, Option.map_some, hval, m.round_val]
      simp [Number.written, h0]
    · obtain ⟨t, ht, ⟨P⟩⟩ := Number.text_parts neg h0
      cases h.symm.trans ht
      have hround : Number.round neg (P.decimal neg).mag = .finite neg m := by
        have hval : (P.decimal neg).mag = (shortest m.val).1 * 10 ^ (shortest m.val).2 := P.value
        have hfit : nearest ((shortest m.val).1 * 10 ^ (shortest m.val).2) = m.val :=
          shortest_fits m
        rw [hval, Number.round]
        simp only [hfit]
        rw [dif_pos m.lt]
      rw [readNumber, P.literal_eq, Option.map_some]
      show some (Number.round neg (P.decimal neg).mag) = _
      rw [hround]
      simp [Number.written, h0]

/-- The text of a number is one token. -/
theorem isNumberChar_of_text {x : Number} {cs : List Char} (h : x.text = some cs) :
    cs ≠ [] ∧ ∀ c ∈ cs, isNumberChar c = true := by
  cases x with
  | infinity neg => cases h
  | finite neg m =>
    by_cases h0 : m.val = 0
    · cases h.symm.trans (Number.text_zero neg h0)
      exact ⟨List.cons_ne_nil _ _, List.all_iff_forall_prop.mp (by decide)⟩
    · obtain ⟨t, ht, ⟨P⟩⟩ := Number.text_parts neg h0
      cases h.symm.trans ht
      refine ⟨?_, fun c hc => ?_⟩
      · intro hnil
        have ht := (List.append_eq_nil_iff.mp hnil).2
        have hint := (List.append_eq_nil_iff.mp (P.eq.symm.trans ht)).1
        rcases P.isInteger.head with h | ⟨c, cs, h, -⟩ <;> rw [hint] at h <;> cases h
      · rcases List.mem_append.mp hc with hs | ht
        · unfold signText at hs
          split at hs
          next =>
            rw [List.mem_singleton.mp hs]
            rfl
          next => cases hs
        · exact P.isNumberChar_of_mem ht

/-! ## What a text denotes -/

/-- The number that a decimal number denotes. -/
def Decimal.value (d : Decimal) : ℚ := if d.neg then -d.mag else d.mag

/-- The number that the text of `x` denotes, exactly. -/
def Number.denoted (x : Number) : Option ℚ := (x.text.bind literal).map Decimal.value

theorem denoted_zero (neg : Bool) {m : Magnitude} (h : m.val = 0) :
    (Number.finite neg m).denoted = some 0 := by
  have hlit : literal ['0'] = some ⟨false, 0, 0⟩ := by decide
  rw [Number.denoted, Number.text_zero neg h, Option.bind_some, hlit]
  simp [Decimal.value, Decimal.mag]

theorem denoted_finite (neg : Bool) {m : Magnitude} (h : m.val ≠ 0) :
    (Number.finite neg m).denoted =
      some ((if neg then -1 else 1) *
        (((fewestDigits m.val).1 : ℚ) * 10 ^ (fewestDigits m.val).2)) := by
  obtain ⟨cs, ht, ⟨P⟩⟩ := Number.text_parts neg h
  have hval : (P.decimal neg).mag = (fewestDigits m.val).1 * 10 ^ (fewestDigits m.val).2 :=
    P.value.trans (shortest_value m.val)
  rw [Number.denoted, ht, Option.bind_some, P.literal_eq, Option.map_some, Decimal.value, hval]
  cases neg <;> simp [Parts.decimal]

/-- The value of the digits, when one length is enough and every shorter one that is enough gives
the same value. -/
theorem fewestDigits_value {q v : ℚ} (k₀ : ℕ) (hk : k₀ ∈ List.range' 1 17)
    (hsome : (shortestWith q k₀).isSome)
    (hval : ∀ k s e, 1 ≤ k → k ≤ k₀ → shortestWith q k = some (s, e) → (s : ℚ) * 10 ^ e = v) :
    ((fewestDigits q).1 : ℚ) * 10 ^ (fewestDigits q).2 = v := by
  cases hf : (List.range' 1 17).findSome? (shortestWith q) with
  | none =>
    rw [List.findSome?_eq_none_iff.mp hf k₀ hk] at hsome
    cases hsome
  | some d =>
    obtain ⟨l, k, l', hl, hd, hno⟩ := List.findSome?_eq_some_iff.mp hf
    have hsorted : (l ++ k :: l').Pairwise (· < ·) := hl ▸ List.pairwise_lt_range'
    have hone : 1 ≤ k := by
      have hmem : k ∈ List.range' 1 17 := hl ▸ by simp
      exact (List.mem_range'_1.mp hmem).1
    have hle : k ≤ k₀ := by
      by_contra hgt
      rcases List.mem_append.mp (hl ▸ hk) with hm | hm
      · rw [hno _ hm] at hsome
        cases hsome
      rcases List.mem_cons.mp hm with he | hm
      · omega
      · have hlt := List.rel_of_pairwise_cons (List.pairwise_append.mp hsorted).2.1 hm
        omega
    rw [fewestDigits, hf, Option.getD_some]
    exact hval k d.1 d.2 hone hle hd

/-- The exponent of the digits of one length. -/
theorem exp_of_shortestWith {q : ℚ} {k s : ℕ} {e : ℤ} (h : shortestWith q k = some (s, e)) :
    e = Int.log 10 q + 1 - k := by
  simp only [shortestWith] at h
  split at h
  next => cases h; rfl
  next =>
    split at h
    next => cases h; rfl
    next => cases h

section Integers

variable {n : ℕ}

/-- An integer below `2 ^ 53` fits with all its digits. -/
theorem shortestWith_all (h : n < 2 ^ 53) :
    shortestWith n (Nat.log 10 n + 1) = some (n, 0) := by
  have hfit : nearest n = n := by
    have hd := nearest_dyadic (m := n) (e := 0) h.le (by decide)
    simpa using hd
  have hlog : Int.log 10 (n : ℚ) + 1 - ((Nat.log 10 n + 1 : ℕ) : ℤ) = 0 := by
    rw [Int.log_natCast]
    push_cast
    ring
  have hfits : Fits n n 0 := by
    rw [Fits, zpow_zero, mul_one]
    exact hfit
  have hno : ¬ (Fits n (n + 1) 0 ∧
      ((1 : ℚ) / 2 < 0 ∨ (0 : ℚ) = 1 / 2 ∧ n % 2 = 1)) := by
    rintro ⟨-, hr | ⟨hr, -⟩⟩ <;> norm_num at hr
  simp only [shortestWith, hlog, zpow_zero, div_one, Nat.floor_natCast, sub_self]
  exact if_pos ⟨hfits, hno⟩

/-- Fewer digits of an integer below `2 ^ 53` that fit are the same integer. -/
theorem eq_of_shortestWith (h : n < 2 ^ 53) {k s : ℕ} {e : ℤ}
    (hk : k ≤ Nat.log 10 n + 1) (hs : shortestWith n k = some (s, e)) :
    (s : ℚ) * 10 ^ e = n := by
  have hfit := fits_of_shortestWith hs
  have he : e = (Nat.log 10 n + 1 - k : ℕ) := by
    rw [exp_of_shortestWith hs, Int.log_natCast]
    omega
  obtain ⟨M, hM⟩ : ∃ M : ℕ, (s : ℚ) * 10 ^ e = M :=
    ⟨s * 10 ^ (Nat.log 10 n + 1 - k), by rw [he, zpow_natCast]; push_cast; rfl⟩
  rw [Fits, hM] at hfit
  rw [hM]
  by_cases hle : M ≤ 2 ^ 53
  · have hd := nearest_dyadic (m := M) (e := 0) hle (by decide)
    rw [zpow_zero, mul_one] at hd
    exact hd.symm.trans hfit
  · -- a larger integer is not rounded below `2 ^ 53`
    have hlt : 2 ^ 53 < M := by omega
    have hpos : (0 : ℚ) < M := by exact_mod_cast (by omega : 0 < M)
    have hlog : 53 ≤ Int.log 2 (M : ℚ) := by
      rw [Int.log_natCast]
      exact_mod_cast Nat.le_log_of_pow_le (by decide) hlt.le
    have hge := zpow_log_le_nearest hpos (by omega)
    have hpow : (2 : ℚ) ^ (53 : ℤ) ≤ 2 ^ Int.log 2 (M : ℚ) := zpow_le_zpow_right₀ (by norm_num) hlog
    have hcast : (n : ℚ) < 2 ^ (53 : ℤ) := by exact_mod_cast h
    rw [hfit] at hge
    exact absurd (hpow.trans hge) (not_le.mpr hcast)

theorem fewestDigits_natCast (h0 : n ≠ 0) (h : n < 2 ^ 53) :
    ((fewestDigits n).1 : ℚ) * 10 ^ (fewestDigits n).2 = n := by
  have hlog : Nat.log 10 n < 16 := Nat.log_lt_of_lt_pow h0 (h.trans (by norm_num))
  refine fewestDigits_value (Nat.log 10 n + 1) (List.mem_range'_1.mpr (by omega)) ?_ ?_
  · rw [shortestWith_all h]
    rfl
  · intro k s e _ hk hs
    exact eq_of_shortestWith h hk hs

end Integers

theorem Number.round_finite (neg : Bool) {q : ℚ} (h : nearest q < 2 ^ 1024) :
    ∃ m : Magnitude, Number.round neg q = .finite neg m ∧ m.val = nearest q := by
  refine ⟨⟨_, nearest_nearest q, h⟩, ?_, rfl⟩
  rw [Number.round, dif_pos h]

theorem Number.round_cases (neg : Bool) (q : ℚ) :
    Number.round neg q = .infinity neg ∨
      ∃ m : Magnitude, Number.round neg q = .finite neg m ∧ m.val = nearest q := by
  by_cases h : nearest q < 2 ^ 1024
  · exact .inr (Number.round_finite neg h)
  · left
    rw [Number.round, dif_neg h]

/-- An integer below `2 ^ 53` is a number. -/
theorem Number.ofInt_finite {n : ℤ} (h : n.natAbs < 2 ^ 53) :
    ∃ m : Magnitude, Number.ofInt n = .finite (n < 0) m ∧ m.val = n.natAbs := by
  have hnear : nearest n.natAbs = n.natAbs := by
    have hd := nearest_dyadic (m := n.natAbs) (e := 0) h.le (by decide)
    simpa using hd
  have hlt : nearest n.natAbs < 2 ^ 1024 := by
    rw [hnear]
    exact lt_trans (by exact_mod_cast h) (pow_lt_pow_right₀ (by norm_num) (by decide))
  obtain ⟨m, hm, hval⟩ := Number.round_finite _ hlt
  exact ⟨m, hm, hval.trans hnear⟩

/-- **The text of an integer below `2 ^ 53` denotes it.** -/
theorem denoted_ofInt {n : ℤ} (h : n.natAbs < 2 ^ 53) : (Number.ofInt n).denoted = some n := by
  obtain ⟨m, hm, hval⟩ := Number.ofInt_finite h
  rw [hm]
  by_cases h0 : n = 0
  · rw [denoted_zero _ (by rw [hval, h0]; rfl), h0]
    rfl
  · have hne : n.natAbs ≠ 0 := by omega
    rw [denoted_finite _ (by rw [hval]; exact_mod_cast hne), hval, fewestDigits_natCast hne h]
    have habs : ((n.natAbs : ℕ) : ℚ) = ((|n| : ℤ) : ℚ) := by
      rw [Int.abs_eq_natAbs, Int.cast_natCast]
    rw [habs]
    by_cases hneg : n < 0
    · simp [hneg, abs_of_neg hneg]
    · simp [hneg, abs_of_nonneg (not_lt.mp hneg)]

end Js
