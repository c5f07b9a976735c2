import Pasarela.Js.Text

/-!
# JSON values as JavaScript reads them

`Json` is a value that `JSON.parse` returns; `undefined` is `none` in `Option Json`. The adapters
read such values through property accesses, optional chaining, `??` and `String(..)`, which can
throw a `TypeError` (`none` in the result of `member`, `lastElem`, `str`).

* A number is `num n` if JavaScript prints it as the integer `n`, else `float` with the text it
  prints.
* `prop`: an own property of a value. No name that the sources read is a property of an array, a
  string, a number or `Object.prototype`; elements are read by `index` and `lastElem`.
* `member v k`: `v.k`; `optMember v k`: `v?.k`; `nullish v w`: `v ?? w`.
* `str v`: `String(v)`, by `toStr`. An object with an own `toString` has no primitive value and throws.
-/

namespace Js

/-- A JSON value (module doc). -/
inductive Json where
  | null
  | bool (b : Bool)
  | num (n : Int)
  | float (repr : String)
  | str (s : String)
  | arr (xs : List Json)
  | obj (kvs : List (String × Json))
  deriving Repr

namespace Json

instance : Inhabited Json := ⟨.null⟩

/-- `v` is truthy. -/
def truthy : Json → Bool
  | .null => false
  | .bool b => b
  | .num n => n ≠ 0
  | .str s => s ≠ ""
  | _ => true

/-- The own property `k` of a value; `none` is `undefined`. -/
def prop : Json → String → Option Json
  | .obj kvs, k => kvs.lookup k
  | _, _ => none

/-- `v[i]` for a value that is not nullish and an index `i`. -/
def index : Json → Nat → Option Json
  | .obj kvs, i => kvs.lookup (toString i)
  | .arr xs, i => xs[i]?
  | .str s, i => s.toList[i]?.map fun c => .str (String.ofList [c])
  | _, _ => none

mutual

/-- `String(v)`; `none` if it throws (module doc). -/
def toStr : Json → Option String
  | .null => some "null"
  | .bool b => some (if b then "true" else "false")
  | .num n => some (toString n)
  | .float r => some r
  | .str s => some s
  | .arr [] => some ""
  | .arr (x :: xs) =>
    do return (← if x matches .null then some "" else toStr x) ++ (← joinTail xs)
  | .obj kvs => if kvs.any (·.1 == "toString") then none else some "[object Object]"

/-- The items after the first one of an array, as `join` writes them: `null` is empty. -/
def joinTail : List Json → Option String
  | [] => some ""
  | x :: xs =>
    do return "," ++ (← if x matches .null then some "" else toStr x) ++ (← joinTail xs)

end

end Json

open Json

/-- `v == null`. -/
def isNullish : Option Json → Bool
  | none | some .null => true
  | _ => false

/-- `v ?? w`. -/
def nullish (v w : Option Json) : Option Json := if isNullish v then w else v

/-- `v?.k`. -/
def optMember : Option Json → String → Option Json
  | some v, k => v.prop k
  | none, _ => none

/-- `v.k`; `none` if it throws. -/
def member (v : Option Json) (k : String) : Option (Option Json) :=
  if isNullish v then none else some (optMember v k)

/-- `v?.[i]`. -/
def optIndex : Option Json → Nat → Option Json
  | some v, i => v.index i
  | none, _ => none

/-- `v[v.length - 1]` for a value `v` that is not nullish; `none` if it throws. `pred n` is
`String(n - 1)`, which is the key of an object with a `length` of its own. -/
def lastElem (pred : Json → Option String) : Json → Option (Option Json)
  | .arr xs => some xs.getLast?
  | .str s => some (s.toList.getLast?.map fun c => .str (String.ofList [c]))
  | .obj kvs =>
    match kvs.lookup "length" with
    | some n => (pred n).map fun k => kvs.lookup k
    | none => some (kvs.lookup "NaN")
  | _ => some none

/-- `String(v)`; `none` if it throws. -/
def str : Option Json → Option String
  | some v => v.toStr
  | none => some "undefined"

@[simp] theorem isNullish_none : isNullish none = true := rfl

@[simp] theorem isNullish_null : isNullish (some .null) = true := rfl

theorem isNullish_eq {v : Option Json} (h : isNullish v = true) : v = none ∨ v = some .null := by
  cases v with
  | none => exact .inl rfl
  | some v =>
    cases v with
    | null => exact .inr rfl
    | _ => cases h

end Js
