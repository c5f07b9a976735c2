import Pasarela.Js.NumberText
import Pasarela.Js.Units

/-!
# `JSON.parse` and `JSON.stringify` on every text

`Value` is a JSON value as JavaScript holds it: numbers are binary64, strings are lists of units,
and the members of an object are in the order of its properties.

* `Value.text`: `JSON.stringify(v)`.
* `put`: a property of an object is set. The keys that are array indices come first, in ascending
  order, and then the other keys, in the order of their insertion.
* `parse`: `JSON.parse`, by a reader (`Reader.step`) that takes the text character by character,
  makes tokens of it and hands them to a machine with a stack (`Parser.feed`). A word is what stands
  between white space, punctuation and strings.
* `parse_text`: what is parsed of the text of a value is its `normal` form.
* `Value.Canonical`: the values that are their own normal form (`normal_eq_iff`).
-/

namespace Js

/-- A JSON value (module doc). -/
inductive Value where
  | null
  | bool (b : Bool)
  | num (x : Number)
  | str (s : Units)
  | arr (xs : List Value)
  | obj (ms : List (Units × Value))

instance : Inhabited Value := ⟨.null⟩

/-- Induction over a value: arrays by their items, objects by their members. -/
@[elab_as_elim]
theorem Value.induct {P : Value → Prop}
    (leaf : ∀ v, (∀ xs, v ≠ .arr xs) → (∀ ms, v ≠ .obj ms) → P v)
    (arr : ∀ xs, (∀ x ∈ xs, P x) → P (.arr xs))
    (obj : ∀ ms, (∀ k x, (k, x) ∈ ms → P x) → P (.obj ms)) (v : Value) : P v := by
  match v with
  | .null | .bool _ | .num _ | .str _ => exact leaf _ nofun nofun
  | .arr xs => exact arr xs fun x _ => Value.induct leaf arr obj x
  | .obj ms => exact obj ms fun k x _ => Value.induct leaf arr obj x
termination_by sizeOf v
decreasing_by
  · have h := List.sizeOf_lt_of_mem ‹x ∈ xs›
    simp only [Value.arr.sizeOf_spec]
    omega
  · have h := List.sizeOf_lt_of_mem ‹(k, x) ∈ ms›
    simp only [Value.obj.sizeOf_spec, Prod.mk.sizeOf_spec] at h ⊢
    omega

/-! ## Writing -/

def quoted (s : Units) : List Char := '"' :: (unitsText s ++ ['"'])

mutual

/-- `JSON.stringify(v)`. -/
def Value.text : Value → List Char
  | .null => ['n', 'u', 'l', 'l']
  | .bool b => if b then ['t', 'r', 'u', 'e'] else ['f', 'a', 'l', 's', 'e']
  | .num x => x.text.getD ['n', 'u', 'l', 'l']
  | .str s => quoted s
  | .arr [] => ['[', ']']
  | .arr (x :: xs) => '[' :: (x.text ++ itemsText xs)
  | .obj [] => ['\x7b', '\x7d']
  | .obj ((k, v) :: ms) => '\x7b' :: (quoted k ++ ':' :: (v.text ++ membersText ms))

/-- The items after the first one, and the bracket. -/
def itemsText : List Value → List Char
  | [] => [']']
  | x :: xs => ',' :: (x.text ++ itemsText xs)

/-- The members after the first one, and the brace. -/
def membersText : List (Units × Value) → List Char
  | [] => ['\x7d']
  | (k, v) :: ms => ',' :: (quoted k ++ ':' :: (v.text ++ membersText ms))

end

/-! ## Objects -/

/-- The number of an array index: an integer below `2 ^ 32 - 1`, written as JavaScript prints it. -/
def arrayIndex (k : Units) : Option Nat :=
  let cs := k.map fun u => Char.ofNat u.toNat
  let n := Nat.ofDigitChars 10 cs 0
  if cs = Nat.toDigits 10 n ∧ n < 2 ^ 32 - 1 then some n else none

/-- The place of a key in the order of the properties: all keys but the indices have the same. -/
def keyRank (k : Units) : Nat := (arrayIndex k).getD (2 ^ 32 - 1)

/-- The property `k` is set (module doc). -/
def put (k : Units) (v : Value) : List (Units × Value) → List (Units × Value)
  | [] => [(k, v)]
  | m :: ms =>
    if m.1 = k then (k, v) :: ms
    else if keyRank k < keyRank m.1 then (k, v) :: m :: ms
    else m :: put k v ms

/-! ## Reading -/

/-- What the machine reads. -/
inductive Token where
  | punct (c : Char)
  | text (s : Units)
  /-- `null`, a boolean or a number. -/
  | word (v : Value)

/-- An array or object that is open, around a value. -/
inductive Frame where
  | item (xs : List Value)
  | member (ms : List (Units × Value)) (k : Units)

/-- Where the machine is; `fs` is what is open, the innermost first. -/
inductive Parser where
  /-- Before a value. -/
  | value (fs : List Frame)
  /-- After a bracket. -/
  | bracket (fs : List Frame)
  /-- After a brace. -/
  | brace (fs : List Frame)
  /-- After a comma in an object. -/
  | key (fs : List Frame) (ms : List (Units × Value))
  /-- After a key. -/
  | colon (fs : List Frame) (ms : List (Units × Value)) (k : Units)
  /-- After a value. -/
  | done (fs : List Frame) (v : Value)

/-- The first token of a value. -/
def feedValue (fs : List Frame) : Token → Option Parser
  | .text s => some (.done fs (.str s))
  | .word v => some (.done fs v)
  | .punct '[' => some (.bracket fs)
  | .punct '\x7b' => some (.brace fs)
  | _ => none

/-- One token. -/
def Parser.feed : Parser → Token → Option Parser
  | .value fs, t => feedValue fs t
  | .bracket fs, .punct ']' => some (.done fs (.arr []))
  | .bracket fs, t => feedValue (.item [] :: fs) t
  | .brace fs, .punct '\x7d' => some (.done fs (.obj []))
  | .brace fs, .text k => some (.colon fs [] k)
  | .key fs ms, .text k => some (.colon fs ms k)
  | .colon fs ms k, .punct ':' => some (.value (.member ms k :: fs))
  | .done (.item xs :: fs) v, .punct ',' => some (.value (.item (xs ++ [v]) :: fs))
  | .done (.item xs :: fs) v, .punct ']' => some (.done fs (.arr (xs ++ [v])))
  | .done (.member ms k :: fs) v, .punct ',' => some (.key fs (put k v ms))
  | .done (.member ms k :: fs) v, .punct '\x7d' => some (.done fs (.obj (put k v ms)))
  | _, _ => none

/-- The value of a whole text. -/
def Parser.result : Parser → Option Value
  | .done [] v => some v
  | _ => none

/-- The value of a word. -/
def wordValue (w : List Char) : Option Value :=
  if w = ['n', 'u', 'l', 'l'] then some .null
  else if w = ['t', 'r', 'u', 'e'] then some (.bool true)
  else if w = ['f', 'a', 'l', 's', 'e'] then some (.bool false)
  else (readNumber w).map .num

def isBlankChar (c : Char) : Bool := c ∈ [' ', '\t', '\n', '\r']

def isPunct (c : Char) : Bool := c ∈ ['\x7b', '\x7d', '[', ']', ',', ':']

/-- A character of a word. -/
def isWordChar (c : Char) : Bool := !isBlankChar c && !isPunct c && c ≠ '"'

/-- The token that the reader is in, and the machine. -/
inductive Reader where
  | between (p : Parser)
  | word (w : List Char) (p : Parser)
  | text (x : Mode × Units) (p : Parser)

/-- A character between two tokens. -/
def Reader.start (p : Parser) (c : Char) : Option Reader :=
  if isBlankChar c then some (.between p)
  else if isPunct c then (p.feed (.punct c)).map .between
  else if c = '"' then some (.text (.plain, []) p)
  else some (.word [c] p)

/-- The end of a word. -/
def feedWord (w : List Char) (p : Parser) : Option Parser :=
  (wordValue w).bind fun v => p.feed (.word v)

/-- One character. -/
def Reader.step : Reader → Char → Option Reader
  | .between p, c => start p c
  | .word w p, c => if isWordChar c then some (.word (w ++ [c]) p) else (feedWord w p).bind (start · c)
  | .text x p, c =>
    match x.1.step c with
    | some y => some (.text (y.1, x.2 ++ y.2) p)
    | none => if c = '"' ∧ x.1 = .plain then (p.feed (.text x.2)).map .between else none

/-- The end of the text. -/
def Reader.result : Reader → Option Value
  | .between p => p.result
  | .word w p => (feedWord w p).bind Parser.result
  | .text _ _ => none

/-- The rest of a text. -/
def Reader.read (r : Reader) (cs : List Char) : Option Value := (cs.foldlM step r).bind result

/-- `JSON.parse`; `none` if it throws. -/
def parse (cs : List Char) : Option Value := (Reader.between (.value [])).read cs

example : (parse "\x7b\"b\": 1.50, \"7\":[true ,\"\\u0041\"],\"b\":-0\x7d".toList).map Value.text =
    some "\x7b\"7\":[true,\"A\"],\"b\":0\x7d".toList := by decide +kernel

/-! ## The normal form -/

mutual

/-- The value that is parsed of the text of a value (module doc). -/
def Value.normal : Value → Value
  | .null => .null
  | .bool b => .bool b
  | .num x => if x.text = none then .null else .num x.written
  | .str s => .str s
  | .arr xs => .arr (normalItems xs)
  | .obj ms => .obj (normalMembers [] ms)

def normalItems : List Value → List Value
  | [] => []
  | x :: xs => x.normal :: normalItems xs

/-- The members are set one after the other, in an object that has `acc`. -/
def normalMembers (acc : List (Units × Value)) : List (Units × Value) → List (Units × Value)
  | [] => acc
  | (k, v) :: ms => normalMembers (put k v.normal acc) ms

end

namespace Reader

variable {p : Parser} {c : Char} {cs rest : List Char}

theorem read_nil {r : Reader} : read r [] = r.result := rfl

theorem read_cons {r : Reader} : read r (c :: cs) = (r.step c).bind fun r' => read r' cs := by
  unfold read
  rw [List.foldlM_cons]
  cases r.step c <;> rfl

theorem read_punct (h : isPunct c = true) :
    read (.between p) (c :: rest) = (p.feed (.punct c)).bind fun p' => read (.between p') rest := by
  have hblank : isBlankChar c = false := by
    have hall : ∀ c ∈ ['\x7b', '\x7d', '[', ']', ',', ':'], isBlankChar c = false :=
      List.all_iff_forall_prop.mp (by decide)
    exact hall c (by simpa [isPunct] using h)
  have hstep : (between p).step c = (p.feed (.punct c)).map .between := by
    simp only [step, start, hblank, h]
    rfl
  rw [read_cons, hstep]
  cases p.feed (.punct c) <;> rfl

/-- Between the quotes, the reader does what the reader of strings does. -/
theorem read_text_append {x y : Mode × Units} (h : Mode.read x cs = some y) :
    read (.text x p) (cs ++ rest) = read (.text y p) rest := by
  induction cs generalizing x with
  | nil =>
    cases h
    rfl
  | cons c cs ih =>
    rw [Mode.read_cons] at h
    obtain ⟨z, hz, hread⟩ := Option.bind_eq_some_iff.mp h
    have hstep : (text x p).step c = some (.text (z.1, x.2 ++ z.2) p) := by
      simp only [step, hz]
    rw [List.cons_append, read_cons, hstep, Option.bind_some]
    exact ih hread

/-- A string in quotes is one token. -/
theorem read_quoted {s : Units} :
    read (.between p) (quoted s ++ rest) =
      (p.feed (.text s)).bind fun p' => read (.between p') rest := by
  have hopen : (between p).step '"' = some (.text (.plain, []) p) := rfl
  have hclose : (text (.plain, s) p).step '"' = (p.feed (.text s)).map .between := rfl
  have hunits : Mode.read (.plain, []) (unitsText s) = some (.plain, s) := read_unitsText s
  rw [quoted, List.cons_append, read_cons, hopen, Option.bind_some, List.append_assoc,
    read_text_append hunits, List.singleton_append, read_cons, hclose]
  cases p.feed (.text s) <;> rfl

/-- No word goes on. -/
def EndsWord (cs : List Char) : Prop := ∀ c ∈ cs.head?, isWordChar c = false

/-- In a word, until its end. -/
theorem read_word {w v : List Char} (hv : ∀ c ∈ v, isWordChar c = true) (h : EndsWord rest) :
    read (.word w p) (v ++ rest) =
      (feedWord (w ++ v) p).bind fun p' => read (.between p') rest := by
  induction v generalizing w with
  | nil =>
    rw [List.nil_append, List.append_nil]
    cases rest with
    | nil => rfl
    | cons c rest =>
      have hc : isWordChar c = false := h c rfl
      have hstep : (word w p).step c = (feedWord w p).bind (start · c) := by
        simp [step, hc]
      rw [read_cons, hstep, Option.bind_assoc]
      congr 1
      funext p'
      rw [read_cons]
      rfl
  | cons c v ih =>
    have hc : isWordChar c = true := hv c List.mem_cons_self
    have hstep : (word w p).step c = some (.word (w ++ [c]) p) := by
      simp only [step, if_pos hc]
    rw [List.cons_append, read_cons, hstep, Option.bind_some,
      ih fun x hx => hv x (List.mem_cons_of_mem c hx)]
    simp

/-- A word is one token. -/
theorem read_word_start {c : Char} {v : List Char} (hv : ∀ x ∈ c :: v, isWordChar x = true)
    (h : EndsWord rest) :
    read (.between p) (c :: v ++ rest) =
      (feedWord (c :: v) p).bind fun p' => read (.between p') rest := by
  have hc : isWordChar c = true := hv c List.mem_cons_self
  simp only [isWordChar, Bool.and_eq_true, Bool.not_eq_true', decide_eq_true_eq] at hc
  have hstep : (between p).step c = some (.word [c] p) := by
    simp [step, start, hc.1.1, hc.1.2, hc.2]
  rw [List.cons_append, read_cons, hstep, Option.bind_some,
    read_word (fun x hx => hv x (List.mem_cons_of_mem c hx)) h]
  rfl

/-- The machine is before a value: it takes the first token of one. -/
def Opens (p : Parser) (fs : List Frame) : Prop :=
  ∀ t, t ≠ .punct ']' → p.feed t = feedValue fs t

theorem opens_value (fs : List Frame) : Opens (.value fs) fs := fun _ _ => rfl

theorem opens_bracket (fs : List Frame) : Opens (.bracket fs) (.item [] :: fs) := by
  intro t ht
  unfold Parser.feed
  split <;> simp_all

/-- A word that has a value. -/
theorem read_wordValue {fs : List Frame} {c : Char} {w : List Char} {v : Value} (hp : Opens p fs)
    (hw : ∀ x ∈ c :: w, isWordChar x = true) (hv : wordValue (c :: w) = some v)
    (h : EndsWord rest) :
    read (.between p) (c :: w ++ rest) = read (.between (.done fs v)) rest := by
  have hfeed : feedWord (c :: w) p = some (.done fs v) := by
    rw [feedWord, hv, Option.bind_some, hp (.word v) nofun]
    rfl
  rw [read_word_start hw h, hfeed, Option.bind_some]

theorem isWordChar_of_isNumberChar (h : isNumberChar c = true) : isWordChar c = true := by
  have hall : ∀ c ∈ [' ', '\t', '\n', '\r', '\x7b', '\x7d', '[', ']', ',', ':', '"'],
      isNumberChar c = false := List.all_iff_forall_prop.mp (by decide)
  by_contra hc
  have hmem : c ∈ [' ', '\t', '\n', '\r', '\x7b', '\x7d', '[', ']', ',', ':', '"'] := by
    simp only [isWordChar, isBlankChar, isPunct] at hc
    grind
  rw [hall c hmem] at h
  cases h

theorem wordValue_number {x : Number} (h : x.text = some cs) :
    wordValue cs = some (.num x.written) := by
  have hword : ∀ c w, isNumberChar c = false → cs ≠ c :: w := by
    rintro c w hc rfl
    have hall := (isNumberChar_of_text h).2 c List.mem_cons_self
    rw [hc] at hall
    cases hall
  rw [wordValue, if_neg (hword _ _ (by decide)), if_neg (hword _ _ (by decide)),
    if_neg (hword _ _ (by decide)), readNumber_text h]
  rfl

theorem read_number {fs : List Frame} {x : Number} (hp : Opens p fs) (h : EndsWord rest) :
    read (.between p) ((Value.num x).text ++ rest) =
      read (.between (.done fs (Value.num x).normal)) rest := by
  rw [Value.text, Value.normal]
  cases hx : x.text with
  | none =>
    rw [if_pos rfl]
    exact read_wordValue hp (List.all_iff_forall_prop.mp (by decide)) rfl h
  | some cs =>
    obtain ⟨hne, hchars⟩ := isNumberChar_of_text hx
    obtain ⟨c, w, rfl⟩ := List.exists_cons_of_ne_nil hne
    rw [if_neg nofun]
    exact read_wordValue hp (fun y hy => isWordChar_of_isNumberChar (hchars y hy))
      (wordValue_number hx) h

theorem endsWord_itemsText (xs : List Value) : EndsWord (itemsText xs ++ rest) := by
  cases xs with
  | nil => exact fun c hc => by cases hc; rfl
  | cons x xs => exact fun c hc => by cases hc; rfl

theorem endsWord_membersText (ms : List (Units × Value)) : EndsWord (membersText ms ++ rest) := by
  cases ms with
  | nil => exact fun c hc => by cases hc; rfl
  | cons m ms => exact fun c hc => by cases hc; rfl

mutual

/-- **The machine on the text of a value** puts the normal form of the value where it is. -/
theorem read_text {p : Parser} {fs : List Frame} {rest : List Char} (v : Value) (hp : Opens p fs)
    (h : EndsWord rest) :
    read (.between p) (v.text ++ rest) = read (.between (.done fs v.normal)) rest := by
  match v with
  | .null => exact read_wordValue hp (List.all_iff_forall_prop.mp (by decide)) rfl h
  | .bool true => exact read_wordValue hp (List.all_iff_forall_prop.mp (by decide)) rfl h
  | .bool false => exact read_wordValue hp (List.all_iff_forall_prop.mp (by decide)) rfl h
  | .num x => exact read_number hp h
  | .str s =>
    rw [Value.text, read_quoted, hp (.text s) nofun]
    rfl
  | .arr [] =>
    have hopen : p.feed (.punct '[') = some (.bracket fs) := hp _ (by simp)
    rw [Value.text, List.cons_append, read_punct rfl, hopen, Option.bind_some, List.cons_append,
      read_punct rfl]
    rfl
  | .arr (x :: xs) =>
    have hopen : p.feed (.punct '[') = some (.bracket fs) := hp _ (by simp)
    rw [Value.text, List.cons_append, read_punct rfl, hopen, Option.bind_some, List.append_assoc,
      read_text x (opens_bracket fs) (endsWord_itemsText xs), read_itemsText xs h]
    rfl
  | .obj [] =>
    have hopen : p.feed (.punct '\x7b') = some (.brace fs) := hp _ (by simp)
    rw [Value.text, List.cons_append, read_punct rfl, hopen, Option.bind_some, List.cons_append,
      read_punct rfl]
    rfl
  | .obj ((k, v) :: ms) =>
    have hopen : p.feed (.punct '\x7b') = some (.brace fs) := hp _ (by simp)
    have hkey : (Parser.brace fs).feed (.text k) = some (.colon fs [] k) := rfl
    have hcolon : (Parser.colon fs [] k).feed (.punct ':') = some (.value (.member [] k :: fs)) := rfl
    rw [Value.text, List.cons_append, read_punct rfl, hopen, Option.bind_some, List.append_assoc,
      read_quoted, hkey, Option.bind_some, List.cons_append, read_punct rfl, hcolon,
      Option.bind_some, List.append_assoc, read_text v (opens_value _) (endsWord_membersText ms),
      read_membersText ms h]
    rfl

/-- The items after the first one are added to the array. -/
theorem read_itemsText {fs : List Frame} {ys : List Value} {y : Value} {rest : List Char}
    (xs : List Value) (h : EndsWord rest) :
    read (.between (.done (.item ys :: fs) y)) (itemsText xs ++ rest) =
      read (.between (.done fs (.arr (ys ++ y :: normalItems xs)))) rest := by
  match xs with
  | [] =>
    rw [itemsText, List.cons_append, read_punct rfl]
    rfl
  | x :: xs =>
    have hcomma : (Parser.done (.item ys :: fs) y).feed (.punct ',') =
        some (.value (.item (ys ++ [y]) :: fs)) := rfl
    rw [itemsText, List.cons_append, read_punct rfl, hcomma, Option.bind_some, List.append_assoc,
      read_text x (opens_value _) (endsWord_itemsText xs), read_itemsText xs h, normalItems,
      List.append_assoc, List.singleton_append]

/-- The members after the first one are set in the object. -/
theorem read_membersText {fs : List Frame} {acc : List (Units × Value)} {k : Units} {v : Value}
    {rest : List Char} (ms : List (Units × Value)) (h : EndsWord rest) :
    read (.between (.done (.member acc k :: fs) v)) (membersText ms ++ rest) =
      read (.between (.done fs (.obj (normalMembers (put k v acc) ms)))) rest := by
  match ms with
  | [] =>
    rw [membersText, List.cons_append, read_punct rfl]
    rfl
  | (k', v') :: ms =>
    have hcomma : (Parser.done (.member acc k :: fs) v).feed (.punct ',') =
        some (.key fs (put k v acc)) := rfl
    have hkey : (Parser.key fs (put k v acc)).feed (.text k') =
        some (.colon fs (put k v acc) k') := rfl
    have hcolon : (Parser.colon fs (put k v acc) k').feed (.punct ':') =
        some (.value (.member (put k v acc) k' :: fs)) := rfl
    rw [membersText, List.cons_append, read_punct rfl, hcomma, Option.bind_some, List.append_assoc,
      read_quoted, hkey, Option.bind_some, List.cons_append, read_punct rfl, hcolon,
      Option.bind_some, List.append_assoc, read_text v' (opens_value _) (endsWord_membersText ms),
      read_membersText ms h, normalMembers]

end

end Reader

/-- **What is parsed of the text of a value is its normal form.** -/
theorem parse_text (v : Value) : parse v.text = some v.normal := by
  have hend : Reader.EndsWord [] := nofun
  have h := Reader.read_text v (Reader.opens_value []) hend
  rw [List.append_nil] at h
  exact h

/-! ## Canonical values -/

/-- Keys in the order of the properties of one object. -/
def OrderedKeys (ks : List Units) : Prop := ks.Pairwise fun k l => k ≠ l ∧ keyRank k ≤ keyRank l

mutual

/-- A value that is its own normal form: its numbers are finite and not `-0`, and no object has a
key twice or out of order. -/
def Value.Canonical : Value → Prop
  | .num x => x.text ≠ none ∧ x.written = x
  | .arr xs => CanonicalItems xs
  | .obj ms => OrderedKeys (ms.map (·.1)) ∧ CanonicalMembers ms
  | _ => True

def CanonicalItems : List Value → Prop
  | [] => True
  | x :: xs => x.Canonical ∧ CanonicalItems xs

def CanonicalMembers : List (Units × Value) → Prop
  | [] => True
  | (_, v) :: ms => v.Canonical ∧ CanonicalMembers ms

end

section Members

variable {k : Units} {v : Value} {acc ms : List (Units × Value)}

theorem put_last (h : OrderedKeys (acc.map (·.1) ++ [k])) : put k v acc = acc ++ [(k, v)] := by
  induction acc with
  | nil => rfl
  | cons m acc ih =>
    obtain ⟨hm, hacc⟩ := List.pairwise_cons.mp h
    have hk : m.1 ≠ k ∧ keyRank m.1 ≤ keyRank k :=
      hm k (List.mem_append_right _ (List.mem_singleton_self k))
    rw [put, if_neg hk.1, if_neg (by omega), ih hacc, List.cons_append]

/-- Members in the order of the properties are only made normal. -/
theorem normalMembers_of_ordered (h : OrderedKeys (acc.map (·.1) ++ ms.map (·.1))) :
    normalMembers acc ms = acc ++ ms.map fun m => (m.1, m.2.normal) := by
  induction ms generalizing acc with
  | nil => simp [normalMembers]
  | cons m ms ih =>
    obtain ⟨k, v⟩ := m
    have hput : put k v.normal acc = acc ++ [(k, v.normal)] := by
      refine put_last (List.Pairwise.sublist ?_ h)
      exact List.Sublist.append_left (List.Sublist.cons_cons k (List.nil_sublist _)) _
    rw [normalMembers, hput, ih (by simpa using h)]
    simp

theorem normalMembers_nil (h : OrderedKeys (ms.map (·.1))) :
    normalMembers [] ms = ms.map fun m => (m.1, m.2.normal) :=
  normalMembers_of_ordered h

theorem normal_obj (h : OrderedKeys (ms.map (·.1))) :
    (Value.obj ms).normal = .obj (ms.map fun m => (m.1, m.2.normal)) := by
  rw [Value.normal, normalMembers_nil h]

theorem mem_keys_put {l : Units} (h : l ∈ (put k v ms).map (·.1)) : l = k ∨ l ∈ ms.map (·.1) := by
  induction ms with
  | nil => exact .inl (by simpa [put] using h)
  | cons m ms ih =>
    unfold put at h
    split at h
    next => grind
    next =>
      split at h
      next => grind
      next =>
        rcases List.mem_cons.mp h with rfl | h
        · simp
        · rcases ih h with h | h
          · exact .inl h
          · exact .inr (List.mem_cons_of_mem _ h)

theorem orderedKeys_put (h : OrderedKeys (ms.map (·.1))) :
    OrderedKeys ((put k v ms).map (·.1)) := by
  induction ms with
  | nil => exact List.pairwise_singleton _ _
  | cons m ms ih =>
    obtain ⟨l, w⟩ := m
    obtain ⟨hm, hms⟩ := List.pairwise_cons.mp h
    replace hm : ∀ x ∈ ms.map (·.1), l ≠ x ∧ keyRank l ≤ keyRank x := hm
    unfold put
    split
    next heq =>
      have hk : l = k := heq
      exact List.pairwise_cons.mpr ⟨hk ▸ hm, hms⟩
    next hne =>
      split
      next hlt =>
        replace hlt : keyRank k < keyRank l := hlt
        refine List.pairwise_cons.mpr ⟨fun x hx => ?_, h⟩
        have hle : keyRank k < keyRank x := by
          rcases List.mem_cons.mp hx with rfl | hx
          · exact hlt
          · exact hlt.trans_le (hm x hx).2
        refine ⟨fun he => ?_, hle.le⟩
        rw [← he] at hle
        exact lt_irrefl _ hle
      next hge =>
        replace hge : ¬ keyRank k < keyRank l := hge
        refine List.pairwise_cons.mpr ⟨fun x hx => ?_, ih hms⟩
        show l ≠ x ∧ keyRank l ≤ keyRank x
        rcases mem_keys_put hx with rfl | hx
        · exact ⟨hne, by omega⟩
        · exact hm x hx

theorem orderedKeys_normalMembers (h : OrderedKeys (acc.map (·.1))) :
    OrderedKeys ((normalMembers acc ms).map (·.1)) := by
  induction ms generalizing acc with
  | nil => exact h
  | cons m ms ih =>
    rw [normalMembers]
    exact ih (orderedKeys_put h)

end Members

mutual

theorem normal_eq_iff (v : Value) : v.normal = v ↔ v.Canonical := by
  match v with
  | .null => exact iff_of_true rfl trivial
  | .bool b => exact iff_of_true rfl trivial
  | .str s => exact iff_of_true rfl trivial
  | .num x =>
    rw [Value.normal, Value.Canonical]
    by_cases h : x.text = none
    · rw [if_pos h]
      exact iff_of_false nofun fun hc => hc.1 h
    · rw [if_neg h, Value.num.injEq]
      exact (and_iff_right h).symm
  | .arr xs =>
    rw [Value.normal, Value.Canonical, Value.arr.injEq]
    exact normalItems_eq_iff xs
  | .obj ms =>
    rw [Value.normal, Value.Canonical, Value.obj.injEq, ← normalPairs_eq_iff ms]
    constructor
    · intro h
      have hord : OrderedKeys (ms.map (·.1)) := by
        rw [← h]
        exact orderedKeys_normalMembers List.Pairwise.nil
      exact ⟨hord, (normalMembers_nil hord).symm.trans h⟩
    · rintro ⟨hord, h⟩
      exact (normalMembers_nil hord).trans h

theorem normalItems_eq_iff (xs : List Value) : normalItems xs = xs ↔ CanonicalItems xs := by
  match xs with
  | [] => exact iff_of_true rfl trivial
  | x :: xs =>
    rw [normalItems, CanonicalItems, List.cons.injEq, normal_eq_iff x, normalItems_eq_iff xs]

theorem normalPairs_eq_iff (ms : List (Units × Value)) :
    (ms.map fun m => (m.1, m.2.normal)) = ms ↔ CanonicalMembers ms := by
  match ms with
  | [] => exact iff_of_true rfl trivial
  | (k, v) :: ms =>
    rw [List.map_cons, CanonicalMembers, List.cons.injEq, Prod.mk.injEq, normal_eq_iff v,
      normalPairs_eq_iff ms, eq_self_iff_true, true_and]

end

end Js
