import Pasarela.Js.Units

/-!
# Strings of code units as bytes

* `toWellFormed s`: `s` with U+FFFD for each surrogate that is alone, which is what a string becomes
  in UTF-8. `chars s` are its characters. `isWellFormed s`: `s` has no such surrogate.
* `toHex b`: `b.toString('hex')`. `fromHex s`: `Buffer.from(s, 'hex')`, up to the first pair that is
  not two digits.
* `toUtf8 s`, `ofUtf8 lossy b`: `Buffer.from(s, 'utf8')` and `b.toString('utf8')`, where `lossy` is the
  text of bytes that are not UTF-8.
-/

namespace Js

/-! ## Well-formed strings -/

def isSurrogate (u : UInt16) : Bool := isHighSurrogate u || isLowSurrogate u

/-- The character of a unit that is not one of a pair. -/
def unitChar (u : UInt16) : Char := if isSurrogate u then '\uFFFD' else Char.ofNat u.toNat

/-- The characters of a string (module doc). -/
def chars : Units → List Char
  | [] => []
  | [u] => [unitChar u]
  | u :: v :: s =>
    if isHighSurrogate u && isLowSurrogate v then pairChar u v :: chars s
    else unitChar u :: chars (v :: s)

/-- `s.toWellFormed()`. -/
def toWellFormed (s : Units) : Units := (chars s).flatMap charUnits

/-- `s.isWellFormed()`. -/
def isWellFormed : Units → Bool
  | [] => true
  | [u] => !isSurrogate u
  | u :: v :: s =>
    if isHighSurrogate u && isLowSurrogate v then isWellFormed s
    else !isSurrogate u && isWellFormed (v :: s)

theorem charUnits_unitChar {u : UInt16} (h : isSurrogate u = false) :
    charUnits (unitChar u) = [u] := by
  have hu : u.toNat < 0x10000 := u.toNat_lt
  rw [unitChar, if_neg (by simp [h]), charUnits, toNat_ofNat h, if_pos hu, UInt16.ofNat_toNat]

/-- A well-formed string is not changed. -/
theorem toWellFormed_eq {s : Units} (h : isWellFormed s = true) : toWellFormed s = s := by
  unfold toWellFormed
  induction s using isWellFormed.induct with
  | case1 => rfl
  | case2 u =>
    have hu : isSurrogate u = false := by simpa [isWellFormed] using h
    simp [chars, charUnits_unitChar hu]
  | case3 u v s hp ih =>
    rw [isWellFormed, if_pos hp] at h
    obtain ⟨hu, hv⟩ := Bool.and_eq_true_iff.mp hp
    rw [chars, if_pos hp, List.flatMap_cons, charUnits_pairChar hu hv, ih h]
    rfl
  | case4 u v s hp ih =>
    rw [isWellFormed, if_neg hp, Bool.and_eq_true, Bool.not_eq_true'] at h
    rw [chars, if_neg hp, List.flatMap_cons, charUnits_unitChar h.1, ih h.2]
    rfl

/-! ## Hexadecimal -/

/-- The unit of a hexadecimal digit. -/
def hexUnit (n : Nat) : UInt16 := UInt16.ofNat (Nat.digitChar n).toNat

/-- The value of a unit that is a hexadecimal digit. -/
def unitDigit (u : UInt16) : Option Nat := digit 16 (unitChar u)

/-- The two digits of a byte. -/
def byteUnits (x : UInt8) : Units := [hexUnit (x.toNat / 16), hexUnit (x.toNat % 16)]

def toHex (b : ByteArray) : Units := b.data.toList.flatMap byteUnits

/-- The bytes of the pairs of digits that the string begins with. -/
def hexBytes : Units → List UInt8
  | u :: v :: s =>
    match unitDigit u, unitDigit v with
    | some x, some y => UInt8.ofNat (16 * x + y) :: hexBytes s
    | _, _ => []
  | _ => []

def fromHex (s : Units) : ByteArray := ⟨(hexBytes s).toArray⟩

theorem unitDigit_hexUnit {n : Nat} (h : n < 16) : unitDigit (hexUnit n) = some n := by
  have hall : ∀ n < 16, unitDigit (hexUnit n) = some n := by decide
  exact hall n h

theorem hexBytes_byteUnits (xs : List UInt8) : hexBytes (xs.flatMap byteUnits) = xs := by
  induction xs with
  | nil => rfl
  | cons x xs ih =>
    have hx : x.toNat < 256 := x.toNat_lt
    have hhigh := unitDigit_hexUnit (n := x.toNat / 16) (by omega)
    have hlow := unitDigit_hexUnit (n := x.toNat % 16) (by omega)
    have hbyte : 16 * (x.toNat / 16) + x.toNat % 16 = x.toNat := by omega
    simp only [List.flatMap_cons, byteUnits, List.cons_append, List.nil_append, hexBytes, hhigh,
      hlow, hbyte, UInt8.ofNat_toNat]
    rw [ih]

/-- **The bytes are read back.** -/
theorem fromHex_toHex (b : ByteArray) : fromHex (toHex b) = b := by
  rw [fromHex, toHex, hexBytes_byteUnits, Array.toArray_toList]

/-- Every unit of the text is a digit. -/
theorem isSome_of_mem_toHex {b : ByteArray} {u : UInt16} (h : u ∈ toHex b) :
    (unitDigit u).isSome := by
  obtain ⟨x, -, hu⟩ := List.mem_flatMap.mp h
  have hx : x.toNat < 256 := x.toNat_lt
  have hd : ∀ n < 16, (unitDigit (hexUnit n)).isSome := by decide
  simp only [byteUnits, List.mem_cons, List.not_mem_nil, or_false] at hu
  rcases hu with rfl | rfl
  · exact hd _ (by omega)
  · exact hd _ (by omega)

/-- Digits denote half as many bytes. -/
theorem length_hexBytes {s : Units} (h : ∀ u ∈ s, (unitDigit u).isSome) :
    (hexBytes s).length = s.length / 2 := by
  induction s using hexBytes.induct with
  | case1 u v s x y hu hv ih =>
    have ih := ih fun w hw => h w (by simp [hw])
    simp only [hexBytes, hu, hv, List.length_cons, ih]
    omega
  | case2 u v s hno =>
    obtain ⟨x, hx⟩ := Option.isSome_iff_exists.mp (h u (by simp))
    obtain ⟨y, hy⟩ := Option.isSome_iff_exists.mp (h v (by simp))
    exact (hno x y hx hy).elim
  | case3 s hno =>
    match s with
    | [] => rfl
    | [u] => simp [hexBytes]
    | u :: v :: s => exact (hno u v s rfl).elim

theorem size_fromHex {s : Units} (h : ∀ u ∈ s, (unitDigit u).isSome) :
    (fromHex s).size = s.length / 2 :=
  length_hexBytes h

/-! ## UTF-8 -/

def toUtf8 (s : Units) : ByteArray := (String.ofList (chars s)).toUTF8

def ofUtf8 (lossy : ByteArray → List Char) (b : ByteArray) : Units :=
  ((b.utf8Decode?.map Array.toList).getD (lossy b)).flatMap charUnits

/-- **The text comes back well-formed.** -/
theorem ofUtf8_toUtf8 (lossy : ByteArray → List Char) (s : Units) :
    ofUtf8 lossy (toUtf8 s) = toWellFormed s := by
  rw [ofUtf8, toUtf8, String.toUTF8_eq_toByteArray, String.toByteArray_ofList,
    List.utf8Decode?_utf8Encode, Option.map_some, Option.getD_some, List.toList_toArray, toWellFormed]

end Js
