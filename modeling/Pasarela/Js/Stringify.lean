import Pasarela.Js.Json

/-!
# `JSON.stringify`

The text of a JSON value without spaces, as `JSON.stringify(v)` writes it. The members of an object
are in the order of the value.
-/

namespace Js

/-- A hexadecimal digit. -/
def hexDigit (n : Nat) : String := String.ofList [Nat.digitChar n]

/-- A character between the quotes of a string. -/
def escapeChar (c : Char) : String :=
  match c.toNat with
  | 0x22 => "\\\""
  | 0x5C => "\\\\"
  | 0x8 => "\\b"
  | 0x9 => "\\t"
  | 0xA => "\\n"
  | 0xC => "\\f"
  | 0xD => "\\r"
  | n => if n < 0x20 then "\\u00" ++ hexDigit (n / 16) ++ hexDigit (n % 16) else String.ofList [c]

/-- A string in quotes. -/
def quote (s : String) : String := "\"" ++ s.toList.foldr (fun c r => escapeChar c ++ r) "\""

mutual

/-- `JSON.stringify(v)`. -/
def stringify : Json → String
  | .null => "null"
  | .bool b => if b then "true" else "false"
  | .num n => toString n
  | .float r => r
  | .str s => quote s
  | .arr [] => "[]"
  | .arr (x :: xs) => "[" ++ stringify x ++ stringifyItems xs
  | .obj [] => "\x7b\x7d"
  | .obj (m :: ms) => "\x7b" ++ stringifyMember m ++ stringifyMembers ms

/-- The items after the first one, and the bracket. -/
def stringifyItems : List Json → String
  | [] => "]"
  | x :: xs => "," ++ stringify x ++ stringifyItems xs

/-- A member of an object. -/
def stringifyMember : String × Json → String
  | (k, v) => quote k ++ ":" ++ stringify v

/-- The members after the first one, and the brace. -/
def stringifyMembers : List (String × Json) → String
  | [] => "\x7d"
  | m :: ms => "," ++ stringifyMember m ++ stringifyMembers ms

end

example : stringify (.obj [("a", .arr [.num (-1), .str "x\"y"]), ("b", .obj [])]) =
    "\x7b\"a\":[-1,\"x\\\"y\"],\"b\":\x7b\x7d\x7d" := by decide

end Js
