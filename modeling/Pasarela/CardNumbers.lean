import Pasarela.CardData

/-!
# Card numbers in strings, and in their serialised form

`JSON.stringify` writes an escape for a control character or a surrogate that is alone, and the escape
ends in a letter or a digit: digits right after it are no word of their own in the text.

* `matchesPan s`: `PAN_REGEX.test(s)`. `PanAfter s a w`: `w` is a card number of `s`, after `a`.
* `endsInEscape a`: the text of `a` ends in such an escape. `VisiblePan s`: `s` has a card number that
  is not right after one.
* `testPan_unitsText`: the text of `s` has a card number iff `s` has a visible one.
* `pan_rejected_iff`: when the guard rejects a body because of a string in it.
-/

namespace Pasarela

open Js (Units Value Cut unitsText unitText unitChar isHighSurrogate isLowSurrogate isSurrogate pairChar)

namespace CardData

open PciGuard (isWord cardData)

/-! ## Card numbers of a string -/

/-- `PAN_REGEX.test(s)`. -/
def matchesPan (s : Units) : Bool := testPan (s.map unitChar)

/-- The unit is none of a word. -/
def isSep (u : UInt16) : Bool := !isWord (unitChar u)

/-- `w` is a card number of `s`, after `a` (module doc). -/
def PanAfter (s a w : Units) : Prop :=
  ∃ b, s = a ++ w ++ b ∧ isPan (w.map unitChar) = true ∧ Cut isSep a w b

/-- The escape of a unit that is not one of a pair ends in a letter or a digit. -/
def isEscaped (u : UInt16) : Bool := u.toNat < 0x20 || isSurrogate u

/-- The text of `a` ends in such an escape: a surrogate after the first one of a pair is not alone. -/
def endsInEscape (a : Units) : Bool :=
  match a.reverse with
  | [] => false
  | u :: r => isEscaped u && !(isLowSurrogate u && r.head?.any isHighSurrogate)

/-- `s` has a card number that is not right after an escape. -/
def VisiblePan (s : Units) : Prop := ∃ a w, PanAfter s a w ∧ endsInEscape a = false

theorem testPan_iff {cs : List Char} :
    testPan cs = true ↔ ∃ a w b, cs = a ++ w ++ b ∧ isPan w = true ∧ Cut (fun c => !isWord c) a w b := by
  rw [testPan, List.any_eq_true]
  constructor
  · rintro ⟨w, hw, hp⟩
    obtain ⟨a, b, rfl, hcut⟩ := Js.mem_splitOnP_iff.mp hw
    exact ⟨a, w, b, rfl, hp, hcut⟩
  · rintro ⟨a, w, b, rfl, hp, hcut⟩
    exact ⟨w, Js.mem_splitOnP_iff.mpr ⟨a, b, rfl, hcut⟩, hp⟩

/-! ## The text of a unit -/

section UnitText

variable {u v : UInt16} {c : Char}

def isDigit (c : Char) : Bool := '0' ≤ c ∧ c ≤ '9'

theorem isWord_of_isDigit (h : isDigit c = true) : isWord c = true := by
  simp only [isDigit, decide_eq_true_eq] at h
  simp [isWord, h]

theorem isWord_of_mem_singleton (h : isWord c = true) : ∀ x ∈ [c], isWord x = true := by
  intro x hx
  rw [List.mem_singleton.mp hx]
  exact h

theorem isWord_digitChar {n : Nat} (h : n < 16) : isWord (Nat.digitChar n) = true := by
  have hall : ∀ n < 16, isWord (Nat.digitChar n) = true := by decide
  exact hall n h

theorem le_toNat_of_isWord (h : isWord c = true) : 0x30 ≤ c.toNat := by
  simp only [isWord, decide_eq_true_eq] at h
  rcases h with (⟨h, -⟩ | ⟨h, -⟩ | ⟨h, -⟩ | rfl)
  · have h : 97 ≤ c.toNat := h
    omega
  · have h : 65 ≤ c.toNat := h
    omega
  · exact h
  · decide

theorem toNat_le_of_isWord (h : isWord c = true) : c.toNat ≤ 0x7A := by
  simp only [isWord, decide_eq_true_eq] at h
  rcases h with (⟨-, h⟩ | ⟨-, h⟩ | ⟨-, h⟩ | rfl)
  · exact h
  · have h : c.toNat ≤ 90 := h
    omega
  · have h : c.toNat ≤ 57 := h
    omega
  · decide

/-- What the text of a unit that is not one of a pair looks like: a word character as it is, an
escape that is a word after its backslash, or characters that are none of a word. -/
inductive UnitText (u : UInt16) : Prop where
  | word (hsep : isSep u = false) (he : isEscaped u = false) (ht : unitText u = [unitChar u])
  | sep (hsep : isSep u = true) (he : isEscaped u = false) (hne : unitText u ≠ [])
      (ht : ∀ c ∈ unitText u, isWord c = false)
  | escape (hsep : isSep u = true) (he : isEscaped u = true) (c : Char) (q : List Char)
      (ht : unitText u = '\\' :: c :: q) (hc : isDigit c = false)
      (hw : ∀ x ∈ c :: q, isWord x = true)

/-- A character below the digits is none of a word. -/
theorem isSep_of_lt (h : (unitChar u).toNat < 0x30) : isSep u = true := by
  rw [isSep, Bool.not_eq_true', ← Bool.not_eq_true]
  intro hw
  have hle := le_toNat_of_isWord hw
  omega

theorem unitChar_of_not_surrogate (hs : isSurrogate u = false) :
    unitChar u = Char.ofNat u.toNat := by
  rw [unitChar, hs]
  exact if_neg Bool.false_ne_true

theorem isEscaped_of_not_surrogate (hs : isSurrogate u = false) :
    isEscaped u = decide ((unitChar u).toNat < 0x20) := by
  rw [isEscaped, hs, Bool.or_false, unitChar_of_not_surrogate hs, Js.toNat_ofNat hs]

theorem isSep_of_isSurrogate (h : isSurrogate u = true) : isSep u = true := by
  rw [isSep, unitChar, if_pos h]
  rfl

theorem UnitText.of_surrogate (hs : isSurrogate u = true) : UnitText u := by
  have hu : u.toNat < 65536 := u.toNat_lt
  have ht : unitText u = Js.unicodeEscape u := if_pos hs
  refine .escape (isSep_of_isSurrogate hs) ?_ 'u' _ ht rfl ?_
  · rw [isEscaped, hs, Bool.or_true]
  · simp only [List.mem_cons, List.not_mem_nil, or_false]
    rintro x (rfl | rfl | rfl | rfl | rfl)
    · rfl
    all_goals exact isWord_digitChar (by omega)

/-- A control character is written as an escape. -/
theorem UnitText.of_control (hs : isSurrogate u = false) (hlt : (unitChar u).toNat < 0x20)
    {q : List Char} (ht : unitText u = '\\' :: c :: q) (hc : isDigit c = false)
    (hw : ∀ x ∈ c :: q, isWord x = true) : UnitText u := by
  refine .escape (isSep_of_lt (by omega)) ?_ c q ht hc hw
  rw [isEscaped_of_not_surrogate hs]
  exact decide_eq_true hlt

theorem UnitText.of (u : UInt16) : UnitText u := by
  cases hs : isSurrogate u with
  | true => exact .of_surrogate hs
  | false =>
    have ht : unitText u = (Js.escapeChar (unitChar u)).toList := by
      rw [unitChar_of_not_surrogate hs]
      exact if_neg (Bool.eq_false_iff.mp hs)
    have hplain : 0x20 ≤ (unitChar u).toNat → isEscaped u = false := by
      intro h
      rw [isEscaped_of_not_surrogate hs]
      exact decide_eq_false (by omega)
    unfold Js.escapeChar at ht
    split at ht
    next h =>
      exact .sep (isSep_of_lt (by omega)) (hplain (by omega)) (by simp [ht]) (by simp [ht, isWord])
    next h =>
      have hc : unitChar u = '\\' := Char.toNat_inj.mp h
      exact .sep (by rw [isSep, hc]; rfl) (hplain (by omega)) (by simp [ht]) (by simp [ht, isWord])
    -- the control characters with an escape of one letter
    next h => exact .of_control hs (by omega) ht rfl (isWord_of_mem_singleton rfl)
    next h => exact .of_control hs (by omega) ht rfl (isWord_of_mem_singleton rfl)
    next h => exact .of_control hs (by omega) ht rfl (isWord_of_mem_singleton rfl)
    next h => exact .of_control hs (by omega) ht rfl (isWord_of_mem_singleton rfl)
    next h => exact .of_control hs (by omega) ht rfl (isWord_of_mem_singleton rfl)
    next =>
      split at ht
      next hlt =>
        have htext : unitText u = '\\' :: 'u' :: ['0', '0', Nat.digitChar ((unitChar u).toNat / 16),
            Nat.digitChar ((unitChar u).toNat % 16)] := by
          rw [ht]
          simp [Js.hexDigit]
        refine .of_control hs hlt htext rfl ?_
        simp only [List.mem_cons, List.not_mem_nil, or_false]
        rintro x (rfl | rfl | rfl | rfl | rfl)
        · rfl
        · rfl
        · rfl
        all_goals exact isWord_digitChar (by omega)
      next hge =>
        have htext : unitText u = [unitChar u] := by rw [ht, String.toList_ofList]
        cases hw : isWord (unitChar u) with
        | true => exact .word (by rw [isSep, hw]; rfl) (hplain (by omega)) htext
        | false =>
          refine .sep (by rw [isSep, hw]; rfl) (hplain (by omega)) (by simp [htext]) ?_
          rw [htext]
          simpa using hw

theorem isWord_unitChar (u : UInt16) : isWord (unitChar u) = !isSep u := (Bool.not_not _).symm

theorem unitText_ne_nil (u : UInt16) : unitText u ≠ [] := by
  rcases UnitText.of u with ⟨-, -, ht⟩ | ⟨-, -, hne, -⟩ | ⟨-, -, c, q, ht, -, -⟩
  · simp [ht]
  · exact hne
  · simp [ht]

/-- The text of a unit begins with a character of a word iff the unit is one. -/
theorem isWord_head_unitText (h : c ∈ (unitText u).head?) : isWord c = !isSep u := by
  rcases UnitText.of u with ⟨hs, -, ht⟩ | ⟨hs, -, -, ht⟩ | ⟨hs, -, x, q, ht, -, -⟩
  · rw [ht] at h
    cases h
    exact isWord_unitChar u
  · rw [hs]
    exact ht c (List.mem_of_head? h)
  · rw [ht] at h
    cases h
    rw [hs]
    rfl

/-- It ends in one iff the unit is one, or is written as an escape of one. -/
theorem isWord_last_unitText (h : c ∈ (unitText u).getLast?) :
    isWord c = (!isSep u || isEscaped u) := by
  rcases UnitText.of u with ⟨hs, -, ht⟩ | ⟨hs, he, -, ht⟩ | ⟨hs, he, x, q, ht, -, hw⟩
  · rw [ht, List.getLast?_singleton] at h
    cases h
    rw [isWord_unitChar, hs]
    rfl
  · rw [hs, he]
    exact ht c (List.mem_of_getLast? h)
  · rw [ht, List.getLast?_cons_cons] at h
    rw [hs, he]
    exact hw c (List.mem_of_getLast? h)

/-- A digit in the text of a unit, after no character of a word, is the whole text. -/
theorem unitText_digit {a b : List Char} (h : unitText u = a ++ c :: b) (hc : isDigit c = true)
    (ha : ∀ x ∈ a.getLast?, isWord x = false) : a = [] ∧ b = [] ∧ unitChar u = c := by
  have hword := isWord_of_isDigit hc
  rcases UnitText.of u with ⟨-, -, ht⟩ | ⟨-, -, -, ht⟩ | ⟨-, -, x, q, ht, hx, hw⟩
  · rw [ht] at h
    cases a with
    | nil =>
      obtain ⟨rfl, rfl⟩ := List.cons.inj h
      exact ⟨rfl, rfl, rfl⟩
    | cons y a => simp at h
  · have hno := ht c (by simp [h])
    rw [hword] at hno
    cases hno
  · rw [ht] at h
    rcases a with - | ⟨y, - | ⟨z, a⟩⟩
    · obtain ⟨rfl, -⟩ := List.cons.inj h
      cases hc
    · obtain ⟨-, h⟩ := List.cons.inj h
      obtain ⟨rfl, -⟩ := List.cons.inj h
      rw [hc] at hx
      cases hx
    · obtain ⟨-, h⟩ := List.cons.inj h
      rw [List.getLast?_cons_cons] at ha
      have hlast := List.getLast_mem (List.cons_ne_nil z a)
      have hno := ha _ (List.getLast?_eq_some_getLast (List.cons_ne_nil z a))
      rw [hw _ (by rw [h]; exact List.mem_append_left _ hlast)] at hno
      cases hno

/-- The character of a pair is none of a word. -/
theorem isWord_pairChar (hu : isHighSurrogate u = true) (hv : isLowSurrogate v = true) :
    isWord (pairChar u v) = false := by
  have hn := Js.toNat_pairChar hu hv
  have hw : ¬ isWord (pairChar u v) = true := by
    intro h
    have hle := toNat_le_of_isWord h
    omega
  exact Bool.eq_false_iff.mpr hw

end UnitText

/-! ## The text of a string -/

section UnitsText

variable {a b s w : Units} {u v : UInt16} {c : Char}

/-- No pair is cut. -/
def Seam (a b : Units) : Prop :=
  ∀ u ∈ a.getLast?, ∀ v ∈ b.head?, (isHighSurrogate u && isLowSurrogate v) = false

theorem unitsText_pair (h : (isHighSurrogate u && isLowSurrogate v) = true) :
    unitsText (u :: v :: s) = pairChar u v :: unitsText s := by
  rw [unitsText, if_pos h]

theorem unitsText_cons (h : Seam [u] s) : unitsText (u :: s) = unitText u ++ unitsText s := by
  cases s with
  | nil => simp [unitsText]
  | cons v s => rw [unitsText, if_neg (Bool.eq_false_iff.mp (h u rfl v rfl))]

theorem seam_cons (h : ¬ (isHighSurrogate u && isLowSurrogate v) = true) : Seam [u] (v :: s) := by
  rintro _ ⟨rfl⟩ _ ⟨rfl⟩
  exact Bool.eq_false_iff.mpr h

theorem unitsText_append (h : Seam a b) : unitsText (a ++ b) = unitsText a ++ unitsText b := by
  induction a using Units.induct with
  | nil => rfl
  | single u =>
    rw [List.singleton_append, unitsText_cons h]
    simp [unitsText]
  | pair u v s hp ih =>
    have hs : Seam s b := by
      intro x hx
      refine h x ?_
      cases s with
      | nil => cases hx
      | cons y s => simpa [List.getLast?_cons_cons] using hx
    rw [List.cons_append, List.cons_append, unitsText_pair hp, unitsText_pair hp, ih hs,
      List.cons_append]
  | cons u v s hp ih =>
    have hs : Seam (v :: s) b := fun x hx => h x (by rwa [List.getLast?_cons_cons])
    have hcons := ih hs
    rw [List.cons_append] at hcons ⊢
    rw [List.cons_append, unitsText_cons (seam_cons hp), unitsText_cons (seam_cons hp), hcons,
      List.append_assoc]

theorem unitsText_eq_nil (h : unitsText s = []) : s = [] := by
  induction s using Units.induct with
  | nil => rfl
  | single u => exact absurd h (unitText_ne_nil u)
  | pair u v s hp _ =>
    rw [unitsText_pair hp] at h
    cases h
  | cons u v s hp _ =>
    rw [unitsText_cons (seam_cons hp), List.append_eq_nil_iff] at h
    exact absurd h.1 (unitText_ne_nil u)

theorem isSep_of_isHighSurrogate (h : isHighSurrogate u = true) : isSep u = true :=
  isSep_of_isSurrogate (by rw [isSurrogate, h, Bool.true_or])

theorem isLowSurrogate_of_isHighSurrogate (h : isHighSurrogate u = true) :
    isLowSurrogate u = false := by
  simp only [isHighSurrogate, isLowSurrogate, Bool.and_eq_true, Bool.and_eq_false_iff,
    decide_eq_true_eq, decide_eq_false_iff_not] at h ⊢
  omega

theorem isSep_of_isLowSurrogate (h : isLowSurrogate u = true) : isSep u = true :=
  isSep_of_isSurrogate (by rw [isSurrogate, h, Bool.or_true])

/-- No pair is cut next to a unit of a word. -/
theorem seam_left (h : ∀ u ∈ a.getLast?, isSep u = false) : Seam a b := by
  intro u hu v _
  cases hhigh : isHighSurrogate u with
  | false => rfl
  | true =>
    have hno := h u hu
    rw [isSep_of_isHighSurrogate hhigh] at hno
    cases hno

theorem seam_right (h : ∀ v ∈ b.head?, isSep v = false) : Seam a b := by
  intro u _ v hv
  cases hlow : isLowSurrogate v with
  | false => exact Bool.and_false _
  | true =>
    have hno := h v hv
    rw [isSep_of_isLowSurrogate hlow] at hno
    cases hno

/-- The text of units of words is their characters. -/
theorem unitsText_of_word (h : ∀ u ∈ w, isSep u = false) : unitsText w = w.map unitChar := by
  induction w with
  | nil => rfl
  | cons u w ih =>
    have hu : isSep u = false := h u List.mem_cons_self
    have hseam : Seam [u] w := seam_left fun v hv => by cases hv; exact hu
    rw [unitsText_cons hseam, ih fun v hv => h v (List.mem_cons_of_mem u hv), List.map_cons]
    rcases UnitText.of u with ⟨-, -, ht⟩ | ⟨hs, -, -, -⟩ | ⟨hs, -, -, -, -, -, -⟩
    · rw [ht, List.singleton_append]
    · rw [hu] at hs
      cases hs
    · rw [hu] at hs
      cases hs

/-- The text begins with a character of a word iff the string begins with a unit of one. -/
theorem head_unitsText :
    (∀ c ∈ (unitsText b).head?, isWord c = false) ↔ ∀ u ∈ b.head?, isSep u = true := by
  have hunit : ∀ {u s}, Seam [u] s → ((∀ c ∈ (unitsText (u :: s)).head?, isWord c = false) ↔
      isSep u = true) := by
    intro u s hseam
    obtain ⟨c, q, hcq⟩ := List.exists_cons_of_ne_nil (unitText_ne_nil u)
    have hc : isWord c = !isSep u := isWord_head_unitText (by rw [hcq]; rfl)
    rw [unitsText_cons hseam, hcq]
    simp [hc]
  match b with
  | [] => exact iff_of_true nofun nofun
  | [u] =>
    rw [hunit fun _ _ _ hv => by cases hv]
    simp
  | u :: v :: s =>
    by_cases hp : (isHighSurrogate u && isLowSurrogate v) = true
    · obtain ⟨hu, hv⟩ := Bool.and_eq_true_iff.mp hp
      rw [unitsText_pair hp]
      simp [isWord_pairChar hu hv, isSep_of_isHighSurrogate hu]
    · rw [hunit (seam_cons hp)]
      simp

theorem endsInEscape_concat :
    endsInEscape (a ++ [u]) = (isEscaped u && !(isLowSurrogate u && a.getLast?.any isHighSurrogate)) := by
  simp [endsInEscape, List.head?_reverse]

/-- The text ends in no character of a word iff the string does, and not in an escape of one. -/
theorem last_unitsText : (∀ c ∈ (unitsText a).getLast?, isWord c = false) ↔
    (∀ u ∈ a.getLast?, isSep u = true) ∧ endsInEscape a = false := by
  rcases List.eq_nil_or_concat a with rfl | ⟨a, u, rfl⟩
  · exact iff_of_true nofun ⟨nofun, rfl⟩
  rw [List.concat_eq_append, endsInEscape_concat, List.getLast?_append]
  by_cases hseam : Seam a [u]
  · have hno : (isLowSurrogate u && a.getLast?.any isHighSurrogate) = false := by
      cases hl : a.getLast? with
      | none => simp
      | some v =>
        rw [Bool.and_comm]
        exact hseam v hl u rfl
    have hlast := List.getLast?_eq_some_getLast (unitText_ne_nil u)
    have hc := isWord_last_unitText hlast
    rw [unitsText_append hseam, List.getLast?_append, hno]
    show (∀ c ∈ (unitText u).getLast?.or _, _) ↔ _
    rw [hlast]
    simp [hc]
  · -- the last two units are a pair
    obtain ⟨v, hv, hp⟩ : ∃ v ∈ a.getLast?, (isHighSurrogate v && isLowSurrogate u) = true := by
      simpa [Seam] using hseam
    obtain ⟨a', rfl⟩ := List.getLast?_eq_some_iff.mp hv
    obtain ⟨hhigh, hlow⟩ := Bool.and_eq_true_iff.mp hp
    have hseam' : Seam a' [v, u] := by
      rintro _ _ _ ⟨rfl⟩
      rw [isLowSurrogate_of_isHighSurrogate hhigh]
      exact Bool.and_false _
    rw [List.append_assoc, List.singleton_append, unitsText_append hseam', unitsText_pair hp]
    simp [unitsText, isWord_pairChar hhigh hlow, isSep_of_isLowSurrogate hlow, hlow, hhigh]

/-- A digit in the text, after no character of a word, is a unit of the string. -/
theorem unitsText_digit {t r : List Char} (h : unitsText s = t ++ c :: r) (hc : isDigit c = true)
    (ht : ∀ x ∈ t.getLast?, isWord x = false) :
    ∃ a u b, s = a ++ u :: b ∧ unitsText a = t ∧ unitChar u = c ∧ unitsText b = r := by
  induction s using Units.induct generalizing t with
  | nil => simp [unitsText] at h
  | single u =>
    obtain ⟨rfl, rfl, hu⟩ := unitText_digit h hc ht
    exact ⟨[], u, [], rfl, rfl, hu, rfl⟩
  | pair u v s hp ih =>
    rw [unitsText_pair hp] at h
    cases t with
    | nil =>
      obtain ⟨hu, hv⟩ := Bool.and_eq_true_iff.mp hp
      obtain ⟨rfl, -⟩ := List.cons.inj h
      -- the character of a pair is no digit
      have hw := isWord_of_isDigit hc
      rw [isWord_pairChar hu hv] at hw
      cases hw
    | cons x t =>
      obtain ⟨rfl, h'⟩ := List.cons.inj h
      have ht' : ∀ x ∈ t.getLast?, isWord x = false := fun x hx => ht x (by
        cases t with
        | nil => cases hx
        | cons y t => rwa [List.getLast?_cons_cons])
      obtain ⟨a, w, b, rfl, rfl, hw, hb⟩ := ih h' ht'
      exact ⟨u :: v :: a, w, b, rfl, unitsText_pair hp, hw, hb⟩
  | cons u v s hp ih =>
    rw [unitsText_cons (seam_cons hp)] at h
    have hrest : ∀ t', unitsText (v :: s) = t' ++ c :: r → t = unitText u ++ t' →
        ∃ a w b, u :: v :: s = a ++ w :: b ∧ unitsText a = t ∧ unitChar w = c ∧ unitsText b = r := by
      rintro t' h' rfl
      have ht' : ∀ x ∈ t'.getLast?, isWord x = false := fun x hx => ht x (by
        rw [List.getLast?_append, hx]
        rfl)
      obtain ⟨a, w, b, hs, ha, hw, hb⟩ := ih h' ht'
      have hseam : Seam [u] a := by
        cases a with
        | nil => exact fun _ _ _ hv => by cases hv
        | cons x a =>
          obtain ⟨rfl, -⟩ := List.cons.inj hs
          exact seam_cons hp
      exact ⟨u :: a, w, b, by rw [hs]; rfl, by rw [unitsText_cons hseam, ha], hw, hb⟩
    -- the digit comes after the text of `u`, or it is part of it
    rcases List.append_eq_append_iff.mp h with ⟨t', htt, h'⟩ | ⟨r', hu, h'⟩
    · exact hrest t' h' htt
    · cases r' with
      | nil => exact hrest [] h'.symm (by simp [hu])
      | cons x r' =>
        obtain ⟨rfl, rfl⟩ := List.cons.inj h'
        obtain ⟨rfl, rfl, hc'⟩ := unitText_digit hu hc ht
        exact ⟨[], u, v :: s, rfl, rfl, hc', rfl⟩

theorem unitsText_digits {t r : List Char} (h : unitsText s = t ++ r)
    (ht : ∀ c ∈ t, isDigit c = true) :
    ∃ w b, s = w ++ b ∧ w.map unitChar = t ∧ unitsText b = r := by
  induction t generalizing s with
  | nil => exact ⟨[], s, rfl, rfl, h⟩
  | cons c t ih =>
    obtain ⟨a, u, b, rfl, ha, hu, hb⟩ :=
      unitsText_digit (t := []) h (ht c List.mem_cons_self) nofun
    obtain ⟨w, b', rfl, hw, hb'⟩ := ih hb fun x hx => ht x (List.mem_cons_of_mem c hx)
    rw [unitsText_eq_nil ha]
    exact ⟨u :: w, b', rfl, by rw [List.map_cons, hu, hw], hb'⟩

theorem digits_of_isPan {t : List Char} (h : isPan t = true) :
    t ≠ [] ∧ ∀ c ∈ t, isDigit c = true := by
  simp only [isPan, decide_eq_true_eq, List.all_eq_true] at h
  refine ⟨?_, fun c hc => decide_eq_true (h.2.2 c hc)⟩
  rintro rfl
  exact absurd h.1 (by decide)

/-- **The text of a string has a card number** iff the string has one that is not right after an
escape. -/
theorem testPan_unitsText : testPan (unitsText s) = true ↔ VisiblePan s := by
  rw [testPan_iff]
  constructor
  · rintro ⟨a', w', b', hs, hp, hcut⟩
    obtain ⟨hne, hdigits⟩ := digits_of_isPan hp
    obtain ⟨c, t, rfl⟩ := List.exists_cons_of_ne_nil hne
    have hbefore : ∀ x ∈ a'.getLast?, isWord x = false := fun x hx => by
      simpa using hcut.before x hx
    rw [List.append_assoc, List.cons_append] at hs
    obtain ⟨a, u, b, rfl, rfl, rfl, hb⟩ := unitsText_digit hs (hdigits c List.mem_cons_self) hbefore
    obtain ⟨w, b, rfl, rfl, rfl⟩ :=
      unitsText_digits hb fun x hx => hdigits x (List.mem_cons_of_mem _ hx)
    obtain ⟨hsep, hesc⟩ := last_unitsText.mp hbefore
    have hword : ∀ v ∈ u :: w, isSep v = false := by
      intro v hv
      rw [isSep, isWord_of_isDigit (hdigits _ (List.mem_map.mpr ⟨v, hv, rfl⟩))]
      rfl
    have hafter : ∀ v ∈ b.head?, isSep v = true :=
      head_unitsText.mp fun x hx => by simpa using hcut.after x hx
    exact ⟨a, u :: w, ⟨b, by simp, hp, ⟨hword, hsep, hafter⟩⟩, hesc⟩
  · rintro ⟨a, w, ⟨b, rfl, hp, hcut⟩, hesc⟩
    obtain ⟨hne, -⟩ := digits_of_isPan hp
    have hseam : Seam (a ++ w) b := seam_left fun u hu => by
      rw [List.getLast?_append] at hu
      cases hw : w.getLast? with
      | none => exact absurd (List.getLast?_eq_none_iff.mp hw) (fun h => hne (by rw [h]; rfl))
      | some v =>
        rw [hw] at hu
        cases hu
        exact hcut.word _ (List.mem_of_getLast? hw)
    have hseam' : Seam a w := seam_right fun u hu => hcut.word u (List.mem_of_head? hu)
    refine ⟨unitsText a, w.map unitChar, unitsText b, ?_, hp, fun c hc => ?_, fun c hc => ?_,
      fun c hc => ?_⟩
    · rw [unitsText_append hseam, unitsText_append hseam', unitsText_of_word hcut.word]
    · obtain ⟨u, hu, rfl⟩ := List.mem_map.mp hc
      exact hcut.word u hu
    · simpa using last_unitsText.mpr ⟨hcut.before, hesc⟩ c hc
    · simpa using head_unitsText.mpr hcut.after c hc

end UnitsText

/-! ## The guard -/

/-- Some string value in the body is a text with a card number. -/
def HasPan (body : Value) : Prop := ∃ s, Within body (.str s) ∧ matchesPan s = true

/-- A value shows a card number: the text of a number has one, or a string or a key has one that is
not right after an escape. -/
def ShowsPan : Value → Prop
  | .num x => testPan (Value.num x).text = true
  | .str s => VisiblePan s
  | .obj ms => ∃ m ∈ ms, VisiblePan m.1
  | _ => False

theorem showsPan_iff {w : Value} : (∃ t ∈ ownTexts w, testPan t = true) ↔ ShowsPan w := by
  cases w with
  | num x => simp [ownTexts, ShowsPan]
  | str s => simp [ownTexts, ShowsPan, testPan_unitsText]
  | obj ms => simp [ownTexts, ShowsPan, testPan_unitsText]
  | _ => simp [ownTexts, ShowsPan]

/-- **When a card number in a string is found**: the body is an object or an array, and it exposes a
forbidden key or some value in it shows a card number. -/
theorem pan_rejected_iff (body : Value) :
    (HasPan body → canActivate body = .error cardData) ↔
      (¬ HasPan body ∨ isScanned body = true ∧
        (ExposesForbidden body ∨ ∃ w, Within body w ∧ ShowsPan w)) := by
  rw [canActivate_eq_error_iff, mem_flatKeys, testPan_text]
  simp only [showsPan_iff]
  constructor
  · intro h
    by_cases hp : HasPan body
    · exact .inr (h hp)
    · exact .inl hp
  · rintro (hno | h) hp
    · exact absurd hp hno
    · exact h

/-- `{"note": "\n4111111111111111"}`. -/
def panAfterNewline : Value :=
  .obj [(units "note", .str (0xA :: units "4111111111111111"))]

/-- The card number after a line break is not found. -/
theorem pan_not_found : HasPan panAfterNewline ∧ canActivate panAfterNewline = .ok () := by
  refine ⟨⟨_, .member List.mem_cons_self (.refl _), by decide +kernel⟩, ?_⟩
  have hkeys : (flatKeys panAfterNewline).any isForbidden = false := by decide +kernel
  have hpan : testPan panAfterNewline.text = false := by decide +kernel
  simp [canActivate, hkeys, hpan]

end CardData

end Pasarela
