/-!
# JavaScript strings and object literals

The string methods and the object-literal lookups of the sources, on `String` through its
characters, so that they evaluate.

* `isBlank s`: `s.trim()` is empty. `startsWith`, `includes`, `split`, `replaceFirst`, `drop` are
  the methods of those names (`replace` changes the first occurrence only).
* `toUpperCase`, `toLowerCase`: exact on the question whether the result is a given ASCII string.
  The characters outside ASCII whose image is ASCII are listed; every other character outside
  ASCII has an image outside ASCII, and the model leaves it as it is.
* `bigInt s`: `BigInt(s)`, `none` if it throws a `SyntaxError`.
* `lookup t k`: `t[k]` for an object literal `t`. A name that the literal does not have but
  `Object.prototype` has is found there (`Found.inherited`), and the value is a function or an
  object, so it is truthy. No two names of `Object.prototype` have one value, so the name stands for
  the value.
-/

namespace Js

/-- The characters that `trim` removes: white space and line terminators. -/
def isSpace (c : Char) : Bool :=
  c.toNat ∈ [0x9, 0xA, 0xB, 0xC, 0xD, 0x20, 0xA0, 0x1680, 0x2000, 0x2001, 0x2002, 0x2003, 0x2004,
    0x2005, 0x2006, 0x2007, 0x2008, 0x2009, 0x200A, 0x2028, 0x2029, 0x202F, 0x205F, 0x3000, 0xFEFF]

/-- `!s.trim()`. -/
def isBlank (s : String) : Bool := s.toList.all isSpace

/-- `s.startsWith(p)`. -/
def startsWith (s p : String) : Bool := p.toList.isPrefixOf s.toList

/-- The characters `p` occur in a row. -/
def occurs (p : List Char) : List Char → Bool
  | [] => p.isEmpty
  | c :: cs => p.isPrefixOf (c :: cs) || occurs p cs

/-- `s.includes(p)`. -/
def includes (s p : String) : Bool := occurs p.toList s.toList

/-- `s.split(c)` for a one-character separator. -/
def split (s : String) (c : Char) : List String := (s.toList.splitOn c).map String.ofList

/-- `s.slice(n)` for `n ≥ 0`. -/
def drop (s : String) (n : Nat) : String := String.ofList (s.toList.drop n)

/-- `s.slice(i, j)` for `0 ≤ i ≤ j`. -/
def slice (s : String) (i j : Nat) : String := String.ofList ((s.toList.take j).drop i)

/-- The characters of `s` with the first occurrence of `p` replaced by `r`. -/
def replaceFirstChars (p r : List Char) : List Char → List Char
  | [] => if p = [] then r else []
  | c :: cs =>
    if p.isPrefixOf (c :: cs) then r ++ (c :: cs).drop p.length
    else c :: replaceFirstChars p r cs

/-- `s.replace(p, r)` for a string pattern `p`. -/
def replaceFirst (s p r : String) : String :=
  String.ofList (replaceFirstChars p.toList r.toList s.toList)

/-- The image of a character under `toUpperCase`, if it is ASCII (module doc). -/
def upperChar (c : Char) : List Char :=
  if 'a' ≤ c ∧ c ≤ 'z' then [Char.ofNat (c.toNat - 32)]
  else match c.toNat with
    | 0xDF => ['S', 'S']
    | 0x131 => ['I']
    | 0x17F => ['S']
    | 0xFB00 => ['F', 'F']
    | 0xFB01 => ['F', 'I']
    | 0xFB02 => ['F', 'L']
    | 0xFB03 => ['F', 'F', 'I']
    | 0xFB04 => ['F', 'F', 'L']
    | 0xFB05 => ['S', 'T']
    | 0xFB06 => ['S', 'T']
    | _ => [c]

/-- `s.toUpperCase()`. -/
def toUpperCase (s : String) : String := String.ofList (s.toList.flatMap upperChar)

/-- The image of a character under `toLowerCase`, if it is ASCII: the Kelvin sign is the one
character outside ASCII with such an image. -/
def lowerChar (c : Char) : Char :=
  if 'A' ≤ c ∧ c ≤ 'Z' then Char.ofNat (c.toNat + 32)
  else if c.toNat = 0x212A then 'k' else c

/-- `s.toLowerCase()`. -/
def toLowerCase (s : String) : String := String.ofList (s.toList.map lowerChar)

/-! ## Integers -/

/-- The value of a digit in a base up to 16. -/
def digit (base : Nat) (c : Char) : Option Nat :=
  let v :=
    if '0' ≤ c ∧ c ≤ '9' then some (c.toNat - 48)
    else if 'a' ≤ c ∧ c ≤ 'f' then some (c.toNat - 87)
    else if 'A' ≤ c ∧ c ≤ 'F' then some (c.toNat - 55)
    else none
  v.filter (· < base)

/-- The number that one or more digits denote. -/
def digits (base : Nat) : List Char → Option Nat
  | [] => none
  | cs => cs.foldlM (fun n c => (digit base c).map fun v => n * base + v) 0

/-- The characters without the white space at both ends. -/
def trimChars (cs : List Char) : List Char :=
  ((cs.dropWhile isSpace).reverse.dropWhile isSpace).reverse

/-- `BigInt(s)` (module doc). -/
def bigInt (s : String) : Option Int :=
  match trimChars s.toList with
  | [] => some 0
  | '0' :: c :: cs =>
    if c = 'x' ∨ c = 'X' then (digits 16 cs).map Int.ofNat
    else if c = 'o' ∨ c = 'O' then (digits 8 cs).map Int.ofNat
    else if c = 'b' ∨ c = 'B' then (digits 2 cs).map Int.ofNat
    else (digits 10 (c :: cs)).map Int.ofNat
  | '+' :: cs => (digits 10 cs).map Int.ofNat
  | '-' :: cs => (digits 10 cs).map fun n => -Int.ofNat n
  | cs => (digits 10 cs).map Int.ofNat

example : bigInt " -0120 " = some (-120) ∧ bigInt "0x1F" = some 31 ∧ bigInt "1.5" = none := by
  decide

theorem digit_of_isDigit {c : Char} (h : c.isDigit = true) :
    digit 10 c = some (c.toNat - '0'.toNat) := by
  simp only [Char.isDigit, Bool.and_eq_true, decide_eq_true_eq] at h
  have h₁ : '0' ≤ c ∧ c ≤ '9' := h
  have hlt : c.toNat - 48 < 10 := by
    have hle : c.toNat ≤ 57 := h.2
    omega
  unfold digit
  rw [if_pos h₁]
  simp [hlt]

theorem isSpace_of_isDigit {c : Char} (h : c.isDigit = true) : isSpace c = false := by
  simp only [Char.isDigit, Bool.and_eq_true, decide_eq_true_eq] at h
  have h₁ : 48 ≤ c.toNat := h.1
  have h₂ : c.toNat ≤ 57 := h.2
  unfold isSpace
  simp only [List.mem_cons, List.not_mem_nil, or_false, decide_eq_false_iff_not]
  omega

theorem digits_toDigits (n : Nat) : digits 10 (Nat.toDigits 10 n) = some n := by
  have hfold : ∀ (cs : List Char) (m : Nat), (∀ c ∈ cs, c.isDigit = true) →
      cs.foldlM (fun n c => (digit 10 c).map fun v => n * 10 + v) m =
        some (Nat.ofDigitChars 10 cs m) := by
    intro cs
    induction cs with
    | nil => exact fun m _ => rfl
    | cons c cs ih =>
      intro m h
      rw [List.foldlM_cons, digit_of_isDigit (h c List.mem_cons_self), Nat.ofDigitChars_cons,
        ← ih _ fun x hx => h x (List.mem_cons_of_mem c hx), Nat.mul_comm 10]
      rfl
  have hdigits : ∀ c ∈ Nat.toDigits 10 n, c.isDigit = true := fun c hc =>
    Nat.isDigit_of_mem_toDigits (by decide) (by decide) hc
  have h := hfold _ 0 hdigits
  rw [Nat.ofDigitChars_ten_toDigits] at h
  rw [← h]
  unfold digits
  split
  next he => exact absurd he Nat.toDigits_ne_nil
  next => rfl

theorem trimChars_eq {cs : List Char} (h : ∀ c ∈ cs, isSpace c = false) : trimChars cs = cs := by
  have hdrop : ∀ cs : List Char, (∀ c ∈ cs, isSpace c = false) → cs.dropWhile isSpace = cs := by
    intro cs h
    cases cs with
    | nil => rfl
    | cons c cs => rw [List.dropWhile_cons_of_neg (by simp [h c List.mem_cons_self])]
  rw [trimChars, hdrop cs h, hdrop cs.reverse fun c hc => h c (List.mem_reverse.mp hc),
    List.reverse_reverse]

/-- `BigInt(String(n))` of a natural number. -/
theorem bigInt_toString_nat (n : Nat) : bigInt (toString n) = some (n : Int) := by
  have hlist : (toString n).toList = Nat.toDigits 10 n := Nat.toList_repr
  have hdigits : ∀ c ∈ Nat.toDigits 10 n, c.isDigit = true := fun c hc =>
    Nat.isDigit_of_mem_toDigits (by decide) (by decide) hc
  have hvalue := digits_toDigits n
  rw [bigInt, hlist, trimChars_eq fun c hc => isSpace_of_isDigit (hdigits c hc)]
  generalize Nat.toDigits 10 n = cs at hdigits hvalue
  split
  next => cases hvalue
  next c cs =>
    -- the second digit makes no prefix of another base
    have hc : ∀ x, x.isDigit = false → c ≠ x := by
      rintro x hx rfl
      rw [hdigits c (by simp)] at hx
      cases hx
    have hvalue' : digits 10 (c :: cs) = some n := hvalue
    rw [if_neg (not_or.mpr ⟨hc 'x' rfl, hc 'X' rfl⟩), if_neg (not_or.mpr ⟨hc 'o' rfl, hc 'O' rfl⟩),
      if_neg (not_or.mpr ⟨hc 'b' rfl, hc 'B' rfl⟩), hvalue']
    rfl
  next => exact absurd (hdigits '+' (by simp)) (by decide)
  next => exact absurd (hdigits '-' (by simp)) (by decide)
  next => rw [hvalue]; rfl

/-- **`BigInt(String(n))`** is `n`. -/
theorem bigInt_toString (n : Int) : bigInt (toString n) = some n := by
  cases n with
  | ofNat n => exact bigInt_toString_nat n
  | negSucc n =>
    have hlist : (toString (Int.negSucc n)).toList = '-' :: Nat.toDigits 10 (n + 1) := by
      show ("-" ++ toString (n + 1)).toList = _
      rw [String.toList_append, Nat.toString_eq_repr, Nat.toList_repr]
      rfl
    have hdigits : ∀ c ∈ Nat.toDigits 10 (n + 1), c.isDigit = true := fun c hc =>
      Nat.isDigit_of_mem_toDigits (by decide) (by decide) hc
    have hspace : ∀ c ∈ '-' :: Nat.toDigits 10 (n + 1), isSpace c = false := by
      intro c hc
      rcases List.mem_cons.mp hc with rfl | hc
      · rfl
      · exact isSpace_of_isDigit (hdigits c hc)
    rw [bigInt, hlist, trimChars_eq hspace]
    show (digits 10 (Nat.toDigits 10 (n + 1))).map _ = _
    rw [digits_toDigits]
    rfl

/-! ## Object literals -/

/-- What `t[k]` finds. -/
inductive Found (α : Type) where
  /-- A property of the literal. -/
  | own (a : α)
  /-- The property of `Object.prototype` with this name. -/
  | inherited (name : String)
  /-- `undefined`. -/
  | absent
  deriving DecidableEq, Repr

/-- The property names of `Object.prototype`. -/
def objectPrototype : List String :=
  ["constructor", "__defineGetter__", "__defineSetter__", "hasOwnProperty", "__lookupGetter__",
    "__lookupSetter__", "isPrototypeOf", "propertyIsEnumerable", "toString", "valueOf",
    "__proto__", "toLocaleString"]

variable {α : Type}

/-- `t[k]` for an object literal (module doc). -/
def lookup (t : List (String × α)) (k : String) : Found α :=
  match t.lookup k with
  | some a => .own a
  | none => if k ∈ objectPrototype then .inherited k else .absent

/-- `t[k] ?? a`: an inherited property is not nullish. -/
def Found.orElse : Found α → α → Found α
  | .absent, a => .own a
  | f, _ => f

/-! ## Names before a colon -/

/-- What comes before the first `c` of a list. -/
theorem takeWhile_ne_append [DecidableEq α] {c : α} {l r : List α} (h : c ∉ l) :
    (l ++ c :: r).takeWhile (· ≠ c) = l := by
  have hl : ∀ a ∈ l, decide (a ≠ c) = true := by
    intro a ha
    simpa using fun e : a = c => h (e ▸ ha)
  rw [List.takeWhile_append_of_pos hl, List.takeWhile_cons]
  simp

/-- A name without colons and what follows it can be told apart. -/
theorem colon_inj {a p p' e e' : String} (hp : ':' ∉ p.toList) (hp' : ':' ∉ p'.toList)
    (h : a ++ p ++ ":" ++ e = a ++ p' ++ ":" ++ e') : p = p' ∧ e = e' := by
  have hl := congrArg String.toList h
  simp only [String.toList_append, List.append_assoc] at hl
  have hcons : ":".toList = [':'] := rfl
  have htail := List.append_cancel_left hl
  rw [hcons, List.singleton_append, List.singleton_append] at htail
  have hname : p.toList = p'.toList := by
    rw [← takeWhile_ne_append (r := e.toList) hp, htail, takeWhile_ne_append hp']
  rw [hname] at htail
  have hrest := List.append_cancel_left htail
  exact ⟨String.toList_inj.mp hname, String.toList_inj.mp (List.cons.inj hrest).2⟩

end Js
