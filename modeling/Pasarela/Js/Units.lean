import Pasarela.Js.Stringify

/-!
# Strings of code units in a JSON text

A string of JavaScript is a list of 16-bit units, and a surrogate can be alone in it.

* `charUnits`: the units of a character. `unitsText`: the units between the quotes of a JSON text, a
  pair of surrogates as one character and a surrogate that is alone as an escape.
* `Mode`: the reader of a string, character by character; the quote at the end is not its affair.
* `read_unitsText`: the reader gives the units back.
-/

namespace Js

/-- A string of JavaScript. -/
abbrev Units : Type := List UInt16

/-- The units of a character. -/
def charUnits (c : Char) : Units :=
  if c.toNat < 0x10000 then [UInt16.ofNat c.toNat]
  else
    [UInt16.ofNat (0xD800 + (c.toNat - 0x10000) / 0x400),
      UInt16.ofNat (0xDC00 + (c.toNat - 0x10000) % 0x400)]

def isHighSurrogate (u : UInt16) : Bool := 0xD800 ≤ u.toNat && u.toNat < 0xDC00

def isLowSurrogate (u : UInt16) : Bool := 0xDC00 ≤ u.toNat && u.toNat < 0xE000

/-- The character of a pair of surrogates. -/
def pairChar (u v : UInt16) : Char :=
  Char.ofNat (0x10000 + (u.toNat - 0xD800) * 0x400 + (v.toNat - 0xDC00))

/-! ## Writing -/

/-- A unit as four hexadecimal digits. -/
def unicodeEscape (u : UInt16) : List Char :=
  ['\\', 'u', Nat.digitChar (u.toNat / 4096), Nat.digitChar (u.toNat / 256 % 16),
    Nat.digitChar (u.toNat / 16 % 16), Nat.digitChar (u.toNat % 16)]

/-- A unit that is not one of a pair. -/
def unitText (u : UInt16) : List Char :=
  if isHighSurrogate u || isLowSurrogate u then unicodeEscape u
  else (escapeChar (Char.ofNat u.toNat)).toList

/-- The units between the quotes (module doc). -/
def unitsText : Units → List Char
  | [] => []
  | [u] => unitText u
  | u :: v :: s =>
    if isHighSurrogate u && isLowSurrogate v then pairChar u v :: unitsText s
    else unitText u ++ unitsText (v :: s)

/-- Induction over units as their text takes them: a pair of surrogates together. -/
@[elab_as_elim]
theorem Units.induct {P : Units → Prop} (nil : P []) (single : ∀ u, P [u])
    (pair : ∀ u v s, (isHighSurrogate u && isLowSurrogate v) = true → P s → P (u :: v :: s))
    (cons : ∀ u v s, ¬ (isHighSurrogate u && isLowSurrogate v) = true → P (v :: s) →
      P (u :: v :: s)) (s : Units) : P s := by
  match s with
  | [] => exact nil
  | [u] => exact single u
  | u :: v :: s =>
    by_cases h : (isHighSurrogate u && isLowSurrogate v) = true
    · exact pair u v s h (Units.induct nil single pair cons s)
    · exact cons u v s h (Units.induct nil single pair cons (v :: s))

/-! ## Reading -/

/-- The unit of an escape of one character. -/
def escaped : Char → Option UInt16
  | '"' => some 0x22
  | '\\' => some 0x5C
  | '/' => some 0x2F
  | 'b' => some 0x8
  | 'f' => some 0xC
  | 'n' => some 0xA
  | 'r' => some 0xD
  | 't' => some 0x9
  | _ => none

/-- Where the reader of a string is: outside of an escape, after its backslash, or after `k` of its
four digits, which have the value `n`. -/
inductive Mode where
  | plain
  | escape
  | hex (n k : Nat)
  deriving DecidableEq

/-- One character of a string, and the units it gives. -/
def Mode.step : Mode → Char → Option (Mode × Units)
  | .plain, c =>
    if c = '\\' then some (.escape, [])
    else if c = '"' ∨ c.toNat < 0x20 then none
    else some (.plain, charUnits c)
  | .escape, c =>
    if c = 'u' then some (.hex 0 0, []) else (escaped c).map fun u => (.plain, [u])
  | .hex n k, c =>
    (digit 16 c).map fun d =>
      if k = 3 then (.plain, [UInt16.ofNat (16 * n + d)]) else (.hex (16 * n + d) (k + 1), [])

/-- The reader on a text, after the units `s`. -/
def Mode.read (x : Mode × Units) (cs : List Char) : Option (Mode × Units) :=
  cs.foldlM (fun x c => (x.1.step c).map fun y => (y.1, x.2 ++ y.2)) x

namespace Mode

variable {x : Mode × Units} {s : Units} {c : Char} {cs : List Char}

@[simp] theorem read_nil : read x [] = some x := rfl

theorem read_cons :
    read x (c :: cs) = (x.1.step c).bind fun y => read (y.1, x.2 ++ y.2) cs := by
  unfold read
  rw [List.foldlM_cons]
  cases x.1.step c <;> rfl

theorem read_append {cs' : List Char} :
    read x (cs ++ cs') = (read x cs).bind fun y => read y cs' := by
  unfold read
  rw [List.foldlM_append]
  rfl

theorem step_digit {n k d : Nat} (h : digit 16 c = some d) (hk : k ≠ 3) :
    (Mode.hex n k).step c = some (.hex (16 * n + d) (k + 1), []) := by
  simp only [step, h, Option.map_some, if_neg hk]

theorem step_lastDigit {n d : Nat} (h : digit 16 c = some d) :
    (Mode.hex n 3).step c = some (.plain, [UInt16.ofNat (16 * n + d)]) := by
  simp only [step, h, Option.map_some, if_pos]

theorem step_plain (h : c ≠ '\\') (hq : c ≠ '"') (hc : 0x20 ≤ c.toNat) :
    Mode.plain.step c = some (.plain, charUnits c) := by
  have hno : ¬ (c = '"' ∨ c.toNat < 0x20) := by
    rintro (h | h)
    · exact hq h
    · omega
  simp only [step, if_neg h, if_neg hno]

end Mode

/-! ## The units are read back -/

section

variable {u v : UInt16} {s : Units}

theorem digit_digitChar {n : Nat} (h : n < 16) : digit 16 (Nat.digitChar n) = some n := by
  have hall : ∀ n < 16, digit 16 (Nat.digitChar n) = some n := by decide
  exact hall n h

theorem read_unicodeEscape : Mode.read (.plain, s) (unicodeEscape u) = some (.plain, s ++ [u]) := by
  have hu : u.toNat < 65536 := u.toNat_lt
  have h₁ : digit 16 (Nat.digitChar (u.toNat / 4096)) = some (u.toNat / 4096) :=
    digit_digitChar (by omega)
  have h₂ := digit_digitChar (n := u.toNat / 256 % 16) (by omega)
  have h₃ := digit_digitChar (n := u.toNat / 16 % 16) (by omega)
  have h₄ := digit_digitChar (n := u.toNat % 16) (by omega)
  have hval : 16 * (16 * (16 * (16 * 0 + u.toNat / 4096) + u.toNat / 256 % 16) +
      u.toNat / 16 % 16) + u.toNat % 16 = u.toNat := by omega
  have hword : UInt16.ofNat u.toNat = u := UInt16.ofNat_toNat
  have hu' : Mode.escape.step 'u' = some (.hex 0 0, []) := rfl
  have hb : Mode.plain.step '\\' = some (.escape, []) := rfl
  simp only [unicodeEscape, Mode.read_cons, hb, hu', Mode.step_digit h₁ (k := 0) (by decide),
    Mode.step_digit h₂ (k := 1) (by decide), Mode.step_digit h₃ (k := 2) (by decide),
    Mode.step_lastDigit h₄, Option.bind_some, List.append_nil, Mode.read_nil, hval, hword]

theorem read_escaped {c : Char} (h : escaped c = some u) (hc : c ≠ 'u') :
    Mode.read (.plain, s) ['\\', c] = some (.plain, s ++ [u]) := by
  have hb : Mode.plain.step '\\' = some (.escape, []) := rfl
  have he : Mode.escape.step c = some (.plain, [u]) := by simp only [Mode.step, if_neg hc, h]; rfl
  simp only [Mode.read_cons, hb, he, Option.bind_some, List.append_nil, Mode.read_nil]

/-- A unit that is not a surrogate, as the number of a character. -/
theorem toNat_ofNat (h : (isHighSurrogate u || isLowSurrogate u) = false) :
    (Char.ofNat u.toNat).toNat = u.toNat := by
  have hu : u.toNat < 65536 := u.toNat_lt
  have hv : u.toNat.isValidChar := by
    simp only [isHighSurrogate, isLowSurrogate, Bool.or_eq_false_iff, Bool.and_eq_false_iff,
      decide_eq_false_iff_not] at h
    unfold Nat.isValidChar
    omega
  unfold Char.ofNat
  rw [dif_pos hv]
  rfl

/-- The reader gives a unit back. -/
theorem read_unitText : Mode.read (.plain, s) (unitText u) = some (.plain, s ++ [u]) := by
  unfold unitText
  split
  next => exact read_unicodeEscape
  next h =>
    have hc := toNat_ofNat (Bool.eq_false_iff.mpr h)
    have hu : u.toNat < 65536 := u.toNat_lt
    generalize Char.ofNat u.toNat = c at hc
    have hword : ∀ v : UInt16, c.toNat = v.toNat → u = v := fun v hv =>
      UInt16.toNat_inj.mp (hc.symm.trans hv)
    unfold escapeChar
    split
    next h => exact hword 0x22 h ▸ read_escaped rfl (by decide)
    next h => exact hword 0x5C h ▸ read_escaped rfl (by decide)
    next h => exact hword 0x8 h ▸ read_escaped rfl (by decide)
    next h => exact hword 0x9 h ▸ read_escaped rfl (by decide)
    next h => exact hword 0xA h ▸ read_escaped rfl (by decide)
    next h => exact hword 0xC h ▸ read_escaped rfl (by decide)
    next h => exact hword 0xD h ▸ read_escaped rfl (by decide)
    next hq hb _ _ _ _ _ =>
      split
      next hlt =>
        -- the escape of a control character has four digits, too
        have htext : ("\\u00" ++ hexDigit (c.toNat / 16) ++ hexDigit (c.toNat % 16)).toList =
            unicodeEscape u := by
          have h₁ : u.toNat / 4096 = 0 := by omega
          have h₂ : u.toNat / 256 % 16 = 0 := by omega
          have h₃ : u.toNat / 16 % 16 = u.toNat / 16 := by omega
          rw [unicodeEscape, h₁, h₂, h₃, hc]
          simp [hexDigit]
        rw [htext]
        exact read_unicodeEscape
      next hge =>
        have hstep : Mode.plain.step c = some (.plain, charUnits c) := by
          refine Mode.step_plain ?_ ?_ (by omega)
          · rintro rfl
            exact hb rfl
          · rintro rfl
            exact hq rfl
        have hunits : charUnits c = [u] := by
          unfold charUnits
          rw [if_pos (by omega), hc, UInt16.ofNat_toNat]
        simp only [String.toList_ofList, Mode.read_cons, hstep, Option.bind_some, Mode.read_nil,
          hunits]

/-- A pair of surrogates, as the number of a character. -/
theorem toNat_pairChar (hu : isHighSurrogate u = true) (hv : isLowSurrogate v = true) :
    (pairChar u v).toNat = 0x10000 + (u.toNat - 0xD800) * 0x400 + (v.toNat - 0xDC00) := by
  simp only [isHighSurrogate, isLowSurrogate, Bool.and_eq_true, decide_eq_true_eq] at hu hv
  have hvalid : (0x10000 + (u.toNat - 0xD800) * 0x400 + (v.toNat - 0xDC00)).isValidChar := by
    unfold Nat.isValidChar
    omega
  unfold pairChar Char.ofNat
  rw [dif_pos hvalid]
  rfl

theorem charUnits_pairChar (hu : isHighSurrogate u = true) (hv : isLowSurrogate v = true) :
    charUnits (pairChar u v) = [u, v] := by
  have hn := toNat_pairChar hu hv
  simp only [isHighSurrogate, isLowSurrogate, Bool.and_eq_true, decide_eq_true_eq] at hu hv
  have h₁ : 0xD800 + ((pairChar u v).toNat - 0x10000) / 0x400 = u.toNat := by omega
  have h₂ : 0xDC00 + ((pairChar u v).toNat - 0x10000) % 0x400 = v.toNat := by omega
  unfold charUnits
  rw [if_neg (by omega), h₁, h₂, UInt16.ofNat_toNat, UInt16.ofNat_toNat]

/-- The reader gives a pair of surrogates back. -/
theorem step_pairChar (hu : isHighSurrogate u = true) (hv : isLowSurrogate v = true) :
    Mode.plain.step (pairChar u v) = some (.plain, [u, v]) := by
  have hn := toNat_pairChar hu hv
  rw [Mode.step_plain ?_ ?_ (by omega), charUnits_pairChar hu hv]
  · intro h
    rw [h] at hn
    have : ('\\').toNat = 0x5C := rfl
    omega
  · intro h
    rw [h] at hn
    have : ('"').toNat = 0x22 := rfl
    omega

/-- **The reader gives the units of a text back.** -/
theorem read_unitsText (t : Units) :
    Mode.read (.plain, s) (unitsText t) = some (.plain, s ++ t) := by
  induction t using Units.induct generalizing s with
  | nil => simp [unitsText]
  | single u => exact read_unitText
  | pair u v t h ih =>
    obtain ⟨hu, hv⟩ := (Bool.and_eq_true_iff).mp h
    rw [unitsText, if_pos h, Mode.read_cons, step_pairChar hu hv, Option.bind_some, ih]
    simp
  | cons u v t h ih =>
    rw [unitsText, if_neg h, Mode.read_append, read_unitText, Option.bind_some, ih]
    simp

end

end Js
