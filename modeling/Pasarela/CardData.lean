import Pasarela.Http
import Pasarela.Js.Bytes
import Pasarela.Js.Words
import Pasarela.RawBody

/-!
# What `PciGuard` finds (`common/guards/pci.guard.ts`)

The guard on every JSON body, with the strings as JavaScript holds them.

* `CardData.canActivate`: the guard. `testPan`: `PAN_REGEX.test`.
* `Within v w`: `w` stands anywhere in `v`. `Reached v w`: it does so through objects only.
* `mem_flatKeys`: the keys that the guard looks at are those of the objects that are reached from the
  body, or from an item of it. `card_field_rejected_iff`: when a forbidden key is found.
* `testPan_text`: a card number in the serialised body is one in the text of a number, a string or a
  key.
-/

namespace Pasarela

open Js (Units Value Cut)

namespace CardData

open PciGuard (forbiddenFields isWord cardData)

/-! ## The guard -/

/-- A unit of `key.toLowerCase()`: exact on the question whether the result is ASCII. -/
def lowerUnit (u : UInt16) : UInt16 :=
  if 0x41 ≤ u.toNat ∧ u.toNat ≤ 0x5A then u + 32 else if u.toNat = 0x212A then 0x6B else u

/-- `FORBIDDEN_FIELDS.has(key.toLowerCase())`. -/
def isForbidden (key : Units) : Bool := key.map lowerUnit ∈ forbiddenFields.map units

mutual

def flatKeys : Value → List Units
  | .obj ms => memberKeys ms
  | .arr xs => itemKeys 0 xs
  | _ => []

/-- The keys of a nested value: an array below the body is not searched. -/
def nestedKeys : Value → List Units
  | .obj ms => memberKeys ms
  | _ => []

def memberKeys : List (Units × Value) → List Units
  | [] => []
  | (k, v) :: ms => k :: nestedKeys v ++ memberKeys ms

/-- The keys of an array are its indices. -/
def itemKeys (i : Nat) : List Value → List Units
  | [] => []
  | x :: xs => units (toString i) :: nestedKeys x ++ itemKeys (i + 1) xs

end

/-- A card number: 13 to 19 digits. -/
def isPan (w : List Char) : Bool := 13 ≤ w.length ∧ w.length ≤ 19 ∧ w.all fun c => '0' ≤ c ∧ c ≤ '9'

/-- `PAN_REGEX.test`, on the characters of a text. -/
def testPan (cs : List Char) : Bool := (cs.splitOnP fun c => !isWord c).any isPan

/-- `!body || typeof body !== 'object'`. -/
def isScanned : Value → Bool
  | .obj _ => true
  | .arr _ => true
  | _ => false

def canActivate (body : Value) : Except Err Unit :=
  if !isScanned body then .ok ()
  else if (flatKeys body).any isForbidden then .error cardData
  else if testPan body.text then .error cardData
  else .ok ()

theorem canActivate_eq_error_iff {body : Value} : canActivate body = .error cardData ↔
    isScanned body = true ∧ ((∃ k ∈ flatKeys body, isForbidden k) ∨ testPan body.text = true) := by
  rw [← List.any_eq_true]
  unfold canActivate
  cases isScanned body <;> cases (flatKeys body).any isForbidden <;> cases testPan body.text <;>
    simp

/-! ## Places in a value -/

/-- `w` stands anywhere in `v`. -/
inductive Within : Value → Value → Prop where
  | refl (v : Value) : Within v v
  | item {xs : List Value} {x w : Value} (hx : x ∈ xs) (h : Within x w) : Within (.arr xs) w
  | member {ms : List (Units × Value)} {k : Units} {x w : Value} (hx : (k, x) ∈ ms)
      (h : Within x w) : Within (.obj ms) w

/-- `w` stands in `v`, below objects only. -/
inductive Reached : Value → Value → Prop where
  | refl (v : Value) : Reached v v
  | member {ms : List (Units × Value)} {k : Units} {x w : Value} (hx : (k, x) ∈ ms)
      (h : Reached x w) : Reached (.obj ms) w

/-- Some object anywhere in the body has a forbidden key. -/
def HasForbidden (body : Value) : Prop :=
  ∃ ms k x, Within body (.obj ms) ∧ (k, x) ∈ ms ∧ isForbidden k

/-- Some object that is reached from the body, or from an item of it, has a forbidden key. -/
def ExposesForbidden (body : Value) : Prop :=
  ∃ ms k x, (Reached body (.obj ms) ∨ ∃ xs, body = .arr xs ∧ ∃ y ∈ xs, Reached y (.obj ms)) ∧
    (k, x) ∈ ms ∧ isForbidden k

/-! ## Forbidden keys -/

section Keys

variable {k : Units} {v : Value}

theorem mem_memberKeys {ms : List (Units × Value)} :
    k ∈ memberKeys ms ↔ ∃ k' x, (k', x) ∈ ms ∧ (k = k' ∨ k ∈ nestedKeys x) := by
  induction ms with
  | nil => simp [memberKeys]
  | cons m ms ih =>
    obtain ⟨k', x⟩ := m
    rw [memberKeys, List.mem_append, List.mem_cons, ih]
    constructor
    · rintro (h | ⟨l, y, hy, h⟩)
      · exact ⟨k', x, List.mem_cons_self, h⟩
      · exact ⟨l, y, List.mem_cons_of_mem _ hy, h⟩
    · rintro ⟨l, y, hy, h⟩
      rcases List.mem_cons.mp hy with he | hy
      · cases he
        exact .inl h
      · exact .inr ⟨l, y, hy, h⟩

/-- The keys of a nested value are those of the objects that are reached from it. -/
theorem mem_nestedKeys :
    k ∈ nestedKeys v ↔ ∃ ms x, Reached v (.obj ms) ∧ (k, x) ∈ ms := by
  constructor
  · intro h
    induction v using Value.induct with
    | leaf v _ hobj =>
      cases v with
      | obj ms => exact absurd rfl (hobj ms)
      | _ => simp [nestedKeys] at h
    | arr xs _ => simp [nestedKeys] at h
    | obj ms ih =>
      rw [nestedKeys, mem_memberKeys] at h
      obtain ⟨k', x, hx, rfl | h⟩ := h
      · exact ⟨ms, x, .refl _, hx⟩
      · obtain ⟨ms', y, hr, hy⟩ := ih k' x hx h
        exact ⟨ms', y, .member hx hr, hy⟩
  · rintro ⟨ms, x, hr, hx⟩
    generalize hw : Value.obj ms = w at hr
    induction hr with
    | refl v =>
      subst hw
      exact mem_memberKeys.mpr ⟨k, x, hx, .inl rfl⟩
    | member hx' _ ih => exact mem_memberKeys.mpr ⟨_, _, hx', .inr (ih hw)⟩

theorem mem_itemKeys {xs : List Value} {i : Nat} :
    k ∈ itemKeys i xs ↔
      (∃ j, i ≤ j ∧ j < i + xs.length ∧ k = units (toString j)) ∨ ∃ x ∈ xs, k ∈ nestedKeys x := by
  induction xs generalizing i with
  | nil => simp [itemKeys]; omega
  | cons x xs ih =>
    rw [itemKeys, List.mem_append, List.mem_cons, ih]
    constructor
    · rintro ((rfl | h) | ⟨j, hi, hj, rfl⟩ | ⟨y, hy, h⟩)
      · exact .inl ⟨i, Nat.le_refl i, by simp, rfl⟩
      · exact .inr ⟨x, List.mem_cons_self, h⟩
      · exact .inl ⟨j, by omega, by rw [List.length_cons]; omega, rfl⟩
      · exact .inr ⟨y, List.mem_cons_of_mem x hy, h⟩
    · rintro (⟨j, hi, hj, rfl⟩ | ⟨y, hy, h⟩)
      · rw [List.length_cons] at hj
        rcases Nat.eq_or_lt_of_le hi with rfl | hi
        · exact .inl (.inl rfl)
        · exact .inr (.inl ⟨j, hi, by omega, rfl⟩)
      · rcases List.mem_cons.mp hy with rfl | hy
        · exact .inl (.inr h)
        · exact .inr (.inr ⟨y, hy, h⟩)

/-- The unit of a digit. -/
def isDigitUnit (u : UInt16) : Bool := 0x30 ≤ u.toNat ∧ u.toNat ≤ 0x39

theorem isDigitUnit_of_mem_toString {n : Nat} {u : UInt16} (h : u ∈ units (toString n)) :
    isDigitUnit u = true := by
  obtain ⟨c, hc, hu⟩ := List.mem_flatMap.mp h
  have hlist : (toString n).toList = Nat.toDigits 10 n := Nat.toList_repr
  rw [hlist] at hc
  have hd : c.isDigit = true := Nat.isDigit_of_mem_toDigits (by decide) (by decide) hc
  simp only [Char.isDigit, Bool.and_eq_true, decide_eq_true_eq] at hd
  have h₁ : 48 ≤ c.toNat := hd.1
  have h₂ : c.toNat ≤ 57 := hd.2
  rw [Js.charUnits, if_pos (by omega), List.mem_singleton] at hu
  have hn : u.toNat = c.toNat := by
    rw [hu, UInt16.toNat_ofNat', Nat.mod_eq_of_lt (by omega)]
  simp only [isDigitUnit, hn, decide_eq_true_eq]
  omega

theorem lowerUnit_of_isDigitUnit {u : UInt16} (h : isDigitUnit u = true) : lowerUnit u = u := by
  simp only [isDigitUnit, decide_eq_true_eq] at h
  rw [lowerUnit, if_neg (by omega), if_neg (by omega)]

/-- An index is no forbidden name. -/
theorem isForbidden_toString (n : Nat) : isForbidden (units (toString n)) = false := by
  have hdigits : ∀ u ∈ units (toString n), isDigitUnit u = true := fun u hu =>
    isDigitUnit_of_mem_toString hu
  have hlower : (units (toString n)).map lowerUnit = units (toString n) :=
    (List.map_congr_left fun u hu => lowerUnit_of_isDigitUnit (hdigits u hu)).trans (List.map_id' _)
  rw [isForbidden, hlower, decide_eq_false_iff_not]
  intro hmem
  have hletters : ((forbiddenFields.map units).all fun f => f.any fun u => !isDigitUnit u) = true := by
    decide +kernel
  obtain ⟨u, hu, hno⟩ := List.any_eq_true.mp (List.all_eq_true.mp hletters _ hmem)
  rw [hdigits u hu] at hno
  cases hno

/-- **The guard looks at the keys** of the objects that are reached from the body, or from an item of
it. -/
theorem mem_flatKeys {body : Value} :
    (∃ k ∈ flatKeys body, isForbidden k) ↔ ExposesForbidden body := by
  constructor
  · rintro ⟨k, hk, hf⟩
    cases body with
    | obj ms =>
      have hk : k ∈ nestedKeys (.obj ms) := hk
      obtain ⟨ms', x, hr, hx⟩ := mem_nestedKeys.mp hk
      exact ⟨ms', k, x, .inl hr, hx, hf⟩
    | arr xs =>
      rcases mem_itemKeys.mp hk with ⟨j, -, -, rfl⟩ | ⟨y, hy, hk⟩
      · rw [isForbidden_toString] at hf
        cases hf
      · obtain ⟨ms', x, hr, hx⟩ := mem_nestedKeys.mp hk
        exact ⟨ms', k, x, .inr ⟨xs, rfl, y, hy, hr⟩, hx, hf⟩
    | _ => simp [flatKeys] at hk
  · rintro ⟨ms, k, x, hr | ⟨xs, rfl, y, hy, hr⟩, hx, hf⟩
    · have hk := mem_nestedKeys.mpr ⟨ms, x, hr, hx⟩
      cases hr with
      | refl => exact ⟨k, hk, hf⟩
      | member _ _ => exact ⟨k, hk, hf⟩
    · exact ⟨k, mem_itemKeys.mpr (.inr ⟨y, hy, mem_nestedKeys.mpr ⟨ms, x, hr, hx⟩⟩), hf⟩

theorem isScanned_of_hasForbidden {body : Value} (h : HasForbidden body) :
    isScanned body = true := by
  obtain ⟨ms, k, x, hw, -⟩ := h
  cases hw <;> rfl

/-- **When a forbidden key is found**: some object with one is reached without going through an array
below the body, or the serialised body has a card number. -/
theorem card_field_rejected_iff (body : Value) :
    (HasForbidden body → canActivate body = .error cardData) ↔
      (¬ HasForbidden body ∨ ExposesForbidden body ∨ testPan body.text = true) := by
  rw [canActivate_eq_error_iff, mem_flatKeys]
  constructor
  · intro h
    by_cases hf : HasForbidden body
    · exact .inr (h hf).2
    · exact .inl hf
  · rintro (hno | h) hf
    · exact absurd hf hno
    · exact ⟨isScanned_of_hasForbidden hf, h⟩

end Keys

/-- `{"items": [{"cvv": "123"}]}`. -/
def nestedCvv : Value :=
  .obj [(units "items", .arr [.obj [(units "cvv", .str (units "123"))]])]

/-- The `cvv` of an object in an array below the body is not found. -/
theorem card_field_not_found : HasForbidden nestedCvv ∧ canActivate nestedCvv = .ok () := by
  refine ⟨⟨_, _, _, .member List.mem_cons_self (.item List.mem_cons_self (.refl _)),
    List.mem_cons_self, by decide +kernel⟩, ?_⟩
  have hkeys : (flatKeys nestedCvv).any isForbidden = false := by decide +kernel
  have hpan : testPan nestedCvv.text = false := by decide +kernel
  simp [canActivate, hkeys, hpan]

/-! ## Card numbers in the text of a body -/

section Text

variable {a b : List Char} {c : Char}

theorem testPan_append (hc : isWord c = false) :
    testPan (a ++ c :: b) = (testPan a || testPan b) := by
  rw [testPan, List.splitOnP_append_cons a b (by simp [hc]), List.any_append]
  rfl

theorem testPan_cons (hc : isWord c = false) : testPan (c :: b) = testPan b :=
  (testPan_append (a := []) hc).trans (Bool.false_or _)

theorem testPan_quoted (s : Units) : testPan (Js.quoted s) = testPan (Js.unitsText s) := by
  rw [Js.quoted, testPan_cons rfl, testPan_append rfl]
  exact Bool.or_false _

theorem testPan_append_items {xs : List Value} :
    testPan (a ++ Js.itemsText xs) = (testPan a || testPan (Js.itemsText xs)) := by
  cases xs with
  | nil => exact testPan_append rfl
  | cons x xs =>
    rw [Js.itemsText, testPan_append rfl, testPan_cons rfl]

theorem testPan_append_members {ms : List (Units × Value)} :
    testPan (a ++ Js.membersText ms) = (testPan a || testPan (Js.membersText ms)) := by
  cases ms with
  | nil => exact testPan_append rfl
  | cons m ms =>
    obtain ⟨k, v⟩ := m
    rw [Js.membersText, testPan_append rfl, testPan_cons rfl]

theorem testPan_itemsText (xs : List Value) :
    testPan (Js.itemsText xs) = xs.any fun x => testPan x.text := by
  induction xs with
  | nil => rfl
  | cons x xs ih => rw [Js.itemsText, testPan_cons rfl, testPan_append_items, ih, List.any_cons]

theorem testPan_member {k : Units} {v : Value} {ms : List (Units × Value)} :
    testPan (Js.quoted k ++ ':' :: (v.text ++ Js.membersText ms)) =
      ((testPan (Js.unitsText k) || testPan v.text) || testPan (Js.membersText ms)) := by
  rw [testPan_append rfl, testPan_quoted, testPan_append_members, Bool.or_assoc]

theorem testPan_membersText (ms : List (Units × Value)) :
    testPan (Js.membersText ms) =
      ms.any fun m => testPan (Js.unitsText m.1) || testPan m.2.text := by
  induction ms with
  | nil => rfl
  | cons m ms ih =>
    obtain ⟨k, v⟩ := m
    rw [Js.membersText, testPan_cons rfl, testPan_member, ih, List.any_cons]

theorem testPan_arr (xs : List Value) :
    testPan (Value.arr xs).text = xs.any fun x => testPan x.text := by
  cases xs with
  | nil => rfl
  | cons x xs =>
    rw [Value.text, testPan_cons rfl, testPan_append_items, testPan_itemsText, List.any_cons]

theorem testPan_obj (ms : List (Units × Value)) :
    testPan (Value.obj ms).text =
      ms.any fun m => testPan (Js.unitsText m.1) || testPan m.2.text := by
  cases ms with
  | nil => rfl
  | cons m ms =>
    obtain ⟨k, v⟩ := m
    rw [Value.text, testPan_cons rfl, testPan_member, testPan_membersText, List.any_cons]

end Text

/-- The texts that a value has of its own: a number, a string, the keys of an object. -/
def ownTexts : Value → List (List Char)
  | .num x => [(Value.num x).text]
  | .str s => [Js.unitsText s]
  | .obj ms => ms.map fun m => Js.unitsText m.1
  | _ => []

/-- **A card number in the serialised body** is one in a number, a string or a key. -/
theorem testPan_text {v : Value} :
    testPan v.text = true ↔ ∃ w, Within v w ∧ ∃ t ∈ ownTexts w, testPan t = true := by
  induction v using Value.induct with
  | leaf v harr hobj =>
    -- nothing stands in a leaf but itself
    have hleaf : ∀ w, Within v w → w = v := by
      intro w hw
      cases hw with
      | refl => rfl
      | item => exact absurd rfl (harr _)
      | member => exact absurd rfl (hobj _)
    have hiff : (∃ w, Within v w ∧ ∃ t ∈ ownTexts w, testPan t = true) ↔
        ∃ t ∈ ownTexts v, testPan t = true := by
      constructor
      · rintro ⟨w, hw, h⟩
        exact hleaf w hw ▸ h
      · exact fun h => ⟨v, .refl v, h⟩
    rw [hiff]
    cases v with
    | null => exact iff_of_false (by decide) nofun
    | bool b => cases b <;> exact iff_of_false (by decide) nofun
    | num x => simp [ownTexts]
    | str s => simp [ownTexts, Value.text, testPan_quoted]
    | arr xs => exact absurd rfl (harr xs)
    | obj ms => exact absurd rfl (hobj ms)
  | arr xs ih =>
    rw [testPan_arr, List.any_eq_true]
    constructor
    · rintro ⟨x, hx, h⟩
      obtain ⟨w, hw, ht⟩ := (ih x hx).mp h
      exact ⟨w, .item hx hw, ht⟩
    · rintro ⟨w, hw, ht⟩
      cases hw with
      | refl => simp [ownTexts] at ht
      | item hx hw => exact ⟨_, hx, (ih _ hx).mpr ⟨w, hw, ht⟩⟩
  | obj ms ih =>
    rw [testPan_obj, List.any_eq_true]
    constructor
    · rintro ⟨m, hm, h⟩
      -- the number is in the key, which is a text of the object's own, or in the value
      rcases Bool.or_eq_true_iff.mp h with h | h
      · exact ⟨_, .refl _, _, List.mem_map.mpr ⟨m, hm, rfl⟩, h⟩
      · obtain ⟨w, hw, ht⟩ := (ih m.1 m.2 hm).mp h
        exact ⟨w, .member hm hw, ht⟩
    · rintro ⟨w, hw, ht⟩
      cases hw with
      | refl =>
        obtain ⟨t, ht, hpan⟩ := ht
        obtain ⟨m, hm, rfl⟩ := List.mem_map.mp ht
        exact ⟨m, hm, Bool.or_eq_true_iff.mpr (.inl hpan)⟩
      | member hx hw =>
        exact ⟨_, hx, Bool.or_eq_true_iff.mpr (.inr ((ih _ _ hx).mpr ⟨w, hw, ht⟩))⟩

end CardData

end Pasarela
