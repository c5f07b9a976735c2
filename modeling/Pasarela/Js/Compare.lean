import Pasarela.Js.Json
import Pasarela.Js.NumberText

/-!
# Comparisons of a JSON value

* `isStr v s`: `v === s` for a string `s`. `isNum v n`: `v === n` for an integer `n`.
* `stringNumber s`: `Number(s)`; `none` is `NaN`.
* `atLeast k v`, `greaterThan k v`: `v >= k` and `v > k` for a natural number `k`; `none` if it
  throws. A value that is no number is made one first; an array and an object by their text.
-/

namespace Js

/-- `v === s`. -/
def isStr (v : Option Json) (s : String) : Bool :=
  match v with
  | some (.str t) => t = s
  | _ => false

/-- `v === n`. -/
def isNum (v : Option Json) (n : ℤ) : Bool :=
  match v with
  | some (.num m) => m = n
  | _ => false

theorem isStr_iff {v : Option Json} {s : String} : isStr v s = true ↔ v = some (.str s) := by
  unfold isStr
  split <;> simp_all

theorem isNum_iff {v : Option Json} {n : ℤ} : isNum v n = true ↔ v = some (.num n) := by
  unfold isNum
  split <;> simp_all

/-- The digits after the point, which may be none. -/
def looseFraction : List Char → List Char × List Char
  | '.' :: cs => leadingDigits cs
  | cs => ([], cs)

/-- A decimal number without its sign: there are digits before or after the point. -/
def looseDecimal (neg : Bool) (cs : List Char) : Option Number :=
  if cs = ['I', 'n', 'f', 'i', 'n', 'i', 't', 'y'] then some (.infinity neg)
  else
    let i := leadingDigits cs
    let f := looseFraction i.2
    if i.1 = [] ∧ f.1 = [] then none
    else (exponentPart f.2).map fun e =>
      .round neg (Decimal.mag ⟨neg, Nat.ofDigitChars 10 (i.1 ++ f.1) 0, e - f.1.length⟩)

/-- `Number(s)` (module doc). -/
def stringNumber (s : String) : Option Number :=
  match trimChars s.toList with
  | [] => some (.round false 0)
  | '0' :: c :: cs =>
    if c = 'x' ∨ c = 'X' then (digits 16 cs).map fun n => .ofInt n
    else if c = 'o' ∨ c = 'O' then (digits 8 cs).map fun n => .ofInt n
    else if c = 'b' ∨ c = 'B' then (digits 2 cs).map fun n => .ofInt n
    else looseDecimal false ('0' :: c :: cs)
  | '+' :: cs => looseDecimal false cs
  | '-' :: cs => looseDecimal true cs
  | cs => looseDecimal false cs

/-- `x >= k`. -/
def Number.atLeast (k : ℕ) : Number → Bool
  | .finite neg m => if neg then m.val = 0 ∧ k = 0 else k ≤ m.val
  | .infinity neg => !neg

/-- `x > k`. -/
def Number.greaterThan (k : ℕ) : Number → Bool
  | .finite neg m => !neg && k < m.val
  | .infinity neg => !neg

/-- A comparison of `Number(v)`, which `NaN` fails: `int` is the one of an integer. -/
def compared (int : ℤ → Bool) (number : Number → Bool) : Option Json → Option Bool
  | none => some false
  | some .null => some (int 0)
  | some (.bool b) => some (int b.toNat)
  | some (.num n) => some (int n)
  | some v => v.toStr.map fun s => ((stringNumber s).map number).getD false

/-- `v >= k` (module doc). -/
def atLeast (k : ℕ) : Option Json → Option Bool :=
  compared (fun n => k ≤ n) (Number.atLeast k)

/-- `v > k` (module doc). -/
def greaterThan (k : ℕ) : Option Json → Option Bool :=
  compared (fun n => k < n) (Number.greaterThan k)

example : atLeast 500 (some (.str " 5.03e2 ")) = some true ∧
    atLeast 500 (some (.arr [.str "0x1F5"])) = some true ∧
    atLeast 500 (some (.float "499.5")) = some false ∧
    atLeast 500 (some (.obj [])) = some false ∧
    greaterThan 0 (some (.str "1e-9")) = some true ∧
    greaterThan 0 (some .null) = some false := by
  decide +kernel

end Js
