import Pasarela.Js.Document
import Pasarela.Workers

/-!
# The bytes whose signature is checked

`main.ts` mounts `express.raw` on the webhooks, which leaves the body as a `Buffer` in `req.body` and
sets no `rawBody`; `handle` then writes `req.body` as JSON and passes these bytes.

* `WebhookRequest`: what `handle` reads of the request. `LeavesBody`: the forms in which the
  middleware leaves the bytes `b`.
* `jsonBody`: the body that `express.json` parses. The decoder drops a byte order mark, and `lossy` is
  the text it makes of bytes that are not UTF-8.
* `IsCompact`: the bytes are a JSON text without white space, in the only spelling that is written
  back as it is.
* `rawBody_eq_iff`: the bytes passed are the bytes received iff there is a `rawBody`, or the parsed
  body of a compact text.
-/

namespace Pasarela

open Js (Number Units Value)

/-- `req.body`. -/
inductive RequestBody where
  | undefined
  | buffer (b : Buffer)
  | json (v : Value)

/-- What `handle` reads of a request. -/
structure WebhookRequest where
  rawBody : Option Buffer := none
  body : RequestBody := .undefined

/-! ## The middleware -/

/-- The text without a byte order mark. -/
def dropMark : List Char → List Char
  | c :: cs => if c = '\uFEFF' then cs else c :: cs
  | [] => []

/-- The body that `express.json` parses, if it does (module doc). -/
def jsonBody (lossy : Buffer → List Char) (b : Buffer) : Option Value :=
  Js.parse (dropMark ((b.utf8Decode?.map Array.toList).getD (lossy b)))

/-- The middleware leaves the bytes `b` in the request (module doc). -/
inductive LeavesBody (lossy : Buffer → List Char) (b : Buffer) : WebhookRequest → Prop where
  | rawBody (body : RequestBody) : LeavesBody lossy b { rawBody := some b, body := body }
  | buffer : LeavesBody lossy b { body := .buffer b }
  | parsed {v : Value} (h : jsonBody lossy b = some v) : LeavesBody lossy b { body := .json v }

/-! ## The controller -/

def units (s : String) : Units := s.toList.flatMap Js.charUnits

/-- `Buffer.from(s)`. -/
def bufferFrom (cs : List Char) : Buffer := (String.ofList cs).toUTF8

/-- What `JSON.stringify` writes of a `Buffer`. -/
def bufferValue (b : Buffer) : Value :=
  .obj [(units "type", .str (units "Buffer")),
    (units "data", .arr (b.data.toList.map fun x => .num (.round false x.toNat)))]

example : (bufferValue ⟨#[1, 255]⟩).text =
    "\x7b\"type\":\"Buffer\",\"data\":[1,255]\x7d".toList := by decide +kernel

/-- `req.body ?? {}`, as `JSON.stringify` reads it. -/
def RequestBody.orEmpty : RequestBody → Value
  | .undefined => .obj []
  | .buffer b => bufferValue b
  | .json .null => .obj []
  | .json v => v

namespace WebhooksController

/-- `req.rawBody ?? Buffer.from(JSON.stringify(req.body ?? {}))`. -/
def rawBody (req : WebhookRequest) : Buffer :=
  req.rawBody.getD (bufferFrom req.body.orEmpty.text)

/-- `handle`, from the request. -/
def handleRequest (registry : ProviderRegistry) (providerId : String) (req : WebhookRequest)
    (headers : Headers) : Service Received :=
  handle registry providerId (rawBody req) headers

end WebhooksController

/-- The bytes are the text of a canonical value other than `null` (module doc). -/
def IsCompact (b : Buffer) : Prop :=
  ∃ v : Value, v.Canonical ∧ v ≠ .null ∧ b = bufferFrom v.text

/-! ## A buffer -/

section Length

theorem bufferFrom_eq (cs : List Char) : bufferFrom cs = cs.utf8Encode := by
  rw [bufferFrom, String.toUTF8_eq_toByteArray, String.toByteArray_ofList]

theorem size_bufferFrom (cs : List Char) : cs.length ≤ (bufferFrom cs).size := by
  rw [bufferFrom_eq]
  induction cs with
  | nil => simp
  | cons c cs ih =>
    have hpos : 0 < (String.utf8EncodeChar c).length :=
      List.length_pos_iff.mpr String.utf8EncodeChar_ne_nil
    rw [List.utf8Encode_cons, ByteArray.size_append, List.utf8Encode_singleton,
      List.size_toByteArray, List.length_cons]
    omega

theorem length_itemsText (xs : List Value) : xs.length < (Js.itemsText xs).length := by
  induction xs with
  | nil => simp [Js.itemsText]
  | cons x xs ih =>
    rw [Js.itemsText, List.length_cons, List.length_cons, List.length_append]
    omega

theorem length_text_arr (xs : List Value) : xs.length < (Value.arr xs).text.length := by
  cases xs with
  | nil => simp [Value.text]
  | cons x xs =>
    have h := length_itemsText xs
    rw [Value.text, List.length_cons, List.length_cons, List.length_append]
    omega

theorem length_text_second (k l : Units) (v w : Value) :
    w.text.length ≤ (Value.obj [(k, v), (l, w)]).text.length := by
  simp only [Value.text, Js.membersText, List.length_cons, List.length_append]
  omega

/-- The JSON of a buffer is longer than the buffer. -/
theorem size_bufferValue (b : Buffer) : b.size < (bufferFrom (bufferValue b).text).size := by
  refine lt_of_lt_of_le ?_ ((length_text_second _ _ _ _).trans (size_bufferFrom _))
  have h := length_text_arr (b.data.toList.map fun x => .num (.round false x.toNat))
  have hlen : (b.data.toList.map fun x => Value.num (.round false x.toNat)).length = b.size := by
    rw [List.length_map, Array.length_toList]
    rfl
  omega

end Length

/-! ## A parsed body -/

section Parsed

variable {lossy : Buffer → List Char} {b : Buffer} {v : Value}

/-- A text of JSON does not start with a byte order mark. -/
theorem dropMark_text (v : Value) : dropMark v.text = v.text := by
  have hhead : v.text.head? ≠ some '\uFEFF' := by
    match v with
    | .null => simp [Value.text]
    | .bool true => simp [Value.text]
    | .bool false => simp [Value.text]
    | .str s => simp [Value.text, Js.quoted]
    | .arr [] => simp [Value.text]
    | .arr (x :: xs) => simp [Value.text]
    | .obj [] => simp [Value.text]
    | .obj (m :: ms) => simp [Value.text]
    | .num x =>
      rw [Value.text]
      cases hx : x.text with
      | none => simp
      | some cs =>
        intro h
        have hc := (Js.isNumberChar_of_text hx).2 '\uFEFF' (List.mem_of_head? h)
        exact absurd hc (by decide)
  cases h : v.text with
  | nil => rfl
  | cons c cs =>
    rw [h] at hhead
    have hc : c ≠ '\uFEFF' := fun he => hhead (congrArg some he)
    rw [dropMark, if_neg hc]

theorem jsonBody_text (v : Value) : jsonBody lossy (bufferFrom v.text) = some v.normal := by
  rw [jsonBody, bufferFrom_eq, List.utf8Decode?_utf8Encode, Option.map_some, Option.getD_some,
    dropMark_text, Js.parse_text]

/-- A parsed body is written back as it was iff the bytes are compact. -/
theorem text_jsonBody_iff (h : jsonBody lossy b = some v) :
    bufferFrom (RequestBody.json v).orEmpty.text = b ↔ IsCompact b := by
  constructor
  · rintro rfl
    have hv : v = (RequestBody.json v).orEmpty.normal :=
      Option.some.inj (h.symm.trans (jsonBody_text _))
    have hne : v ≠ .null := by
      rintro rfl
      cases hv
    have horEmpty : (RequestBody.json v).orEmpty = v := by
      cases v <;> first | rfl | exact absurd rfl hne
    rw [horEmpty] at hv ⊢
    exact ⟨v, (Js.normal_eq_iff v).mp hv.symm, hne, rfl⟩
  · rintro ⟨w, hw, hne, rfl⟩
    rw [jsonBody_text, (Js.normal_eq_iff w).mpr hw] at h
    obtain rfl := Option.some.inj h
    cases w <;> first | rfl | exact absurd rfl hne

end Parsed

/-- **When the signature is checked on the bytes received**: there is a `rawBody`, or the body was
parsed and the bytes are compact. A `Buffer` in `req.body` is never passed as it is. -/
theorem rawBody_eq_iff (lossy : Buffer → List Char) (b : Buffer) (req : WebhookRequest)
    (h : LeavesBody lossy b req) :
    WebhooksController.rawBody req = b ↔
      req.rawBody ≠ none ∨ (∃ v, req.body = .json v) ∧ IsCompact b := by
  cases h with
  | rawBody body => exact iff_of_true rfl (.inl nofun)
  | buffer =>
    have hsize := size_bufferValue b
    refine iff_of_false (fun he => ?_) ?_
    · have hb : bufferFrom (bufferValue b).text = b := he
      rw [hb] at hsize
      exact lt_irrefl _ hsize
    · rintro (hne | ⟨⟨v, hv⟩, -⟩)
      · exact hne rfl
      · cases hv
  | @parsed v hv =>
    have hiff : WebhooksController.rawBody { body := .json v } = b ↔ IsCompact b :=
      text_jsonBody_iff hv
    rw [hiff]
    constructor
    · exact fun hc => .inr ⟨⟨v, rfl⟩, hc⟩
    · rintro (hne | ⟨-, hc⟩)
      · exact absurd rfl hne
      · exact hc

/-! ### A body of two bytes -/

def emptyObjectBody : Buffer := bufferFrom ['\x7b', '\x7d']

theorem leavesBody_parsed (lossy : Buffer → List Char) :
    LeavesBody lossy emptyObjectBody { body := .json (.obj []) } :=
  .parsed (jsonBody_text (.obj []))

theorem rawBody_emptyObject :
    WebhooksController.rawBody { body := .json (.obj []) } = emptyObjectBody ↔
      (none : Option Buffer) ≠ none ∨
        (∃ v, RequestBody.json (.obj []) = .json v) ∧ IsCompact emptyObjectBody :=
  rawBody_eq_iff (fun _ => []) emptyObjectBody { body := .json (.obj []) }
    (leavesBody_parsed fun _ => [])

/-- `express.raw` leaves the two bytes of an empty object, and 34 bytes are passed. -/
theorem rawBody_buffer_changed : ¬ ∀ (lossy : Buffer → List Char) (b : Buffer)
    (req : WebhookRequest), LeavesBody lossy b req → WebhooksController.rawBody req = b := by
  intro h
  have he := h (fun _ => []) emptyObjectBody { body := .buffer emptyObjectBody } .buffer
  have hsize := size_bufferValue emptyObjectBody
  rw [show bufferFrom (bufferValue emptyObjectBody).text = emptyObjectBody from he] at hsize
  exact lt_irrefl _ hsize

end Pasarela
