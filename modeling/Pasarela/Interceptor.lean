import Pasarela.Conc.Acts
import Pasarela.Guards
import Pasarela.RawBody

/-!
# The idempotency interceptor (`common/interceptors/idempotency.interceptor.ts`)

`intercept` looks the key up in Redis, runs the handler when there is no entry, and stores the
answer while the response goes out. There is nothing between the lookup and the entry that says that
a handler runs.

* `InterceptedRequest`: what `intercept` reads of a request. `sha256 cs` is the hash of the text
  `cs`, in hexadecimal digits.
* `redisMachine`: Redis, within the time to live of its entries, and the handlers. A handler starts
  (`InterceptOp.handle`), and later it has answered or failed (`InterceptOp.handled`).
* `InterceptAct`: what a step of a request comes to. `SameKey`: the requests have one Redis key,
  which is one tenant and one header (`sameKey_iff`).
* `Spaced`: no lookup comes between one that found nothing and the end of what it led to, which is
  the failure of the handler or the entry. In such runs there is at most one run of the handler at a
  time and none after one that succeeded (`AtMostOneRun`), and the other requests get its answer
  (`interceptor_once`).
-/

namespace Pasarela

open Js (Number Units Value)
open Conc (Any Conf Event Machine Prog Proto acts acts_snoc exists_getElem?_snoc getElem?_snoc
  getElem?_snoc_of_ne getElem?_snoc_of_some lt_of_getElem?)

/-! ## Requests and entries -/

/-- What `intercept` reads of a request. -/
structure InterceptedRequest where
  headers : Headers
  tenant : Option TenantRef := none
  body : RequestBody := .undefined

namespace InterceptedRequest

variable (req : InterceptedRequest)

/-- The header, unless it is empty. -/
def idempKey : Option String := (req.headers.get "idempotency-key").filter (· ≠ "")

def tenantId : String := (req.tenant.map (·.id)).getD "anonymous"

def redisKey : Option String := req.idempKey.map fun key => "idemp:" ++ req.tenantId ++ ":" ++ key

/-- The hash of `JSON.stringify(req.body ?? {})`. -/
def bodyHash (sha256 : List Char → Units) : Units := sha256 req.body.orEmpty.text

end InterceptedRequest

/-- What a handler comes to: `res.statusCode`, and what it returns. -/
structure HandlerResult where
  resStatus : Option Number := none
  response : Option Value := none

/-- What the client gets. -/
structure Reply where
  statusCode : Option Value
  response : Option Value

namespace HandlerResult

variable (r : HandlerResult)

/-- `res.statusCode ?? 201`. -/
def statusCode : Number := r.resStatus.getD (.ofInt 201)

def reply : Reply := ⟨r.resStatus.map .num, r.response⟩

/-- `{ bodyHash, statusCode, response }`; JSON has no member for `undefined`. -/
def entry (bodyHash : Units) : Value :=
  .obj ([(units "bodyHash", .str bodyHash), (units "statusCode", .num r.statusCode)] ++
    (r.response.map fun v => (units "response", v)).toList)

/-- The stored answer, as JSON gives it back. -/
def replayed : Reply := ⟨some (Value.num r.statusCode).normal, r.response.map Value.normal⟩

end HandlerResult

namespace IdempotencyInterceptor

def TTL_SECONDS : Nat := 86400

/-- A property of the entry; the names are on no prototype. -/
def entryProp (entry : Value) (name : String) : Option Value :=
  match entry with
  | .obj ms => ms.lookup (units name)
  | _ => none

/-- The answer from an entry. -/
def fromEntry (bodyHash : Units) (cached : List Char) : Except Err Reply :=
  match Js.parse cached with
  | none => .error (.other "SyntaxError")
  | some .null => .error (.other "TypeError")
  | some entry =>
    match entryProp entry "bodyHash" with
    | some (.str hash) =>
      if hash = bodyHash then .ok ⟨entryProp entry "statusCode", entryProp entry "response"⟩
      else .error (.conflict "Idempotency-Key reutilizada con un body diferente")
    | _ => .error (.conflict "Idempotency-Key reutilizada con un body diferente")

end IdempotencyInterceptor

/-! ## The interceptor -/

inductive InterceptOp where
  | get (key : String)
  /-- `next.handle()`. -/
  | handle
  /-- The handler has ended. -/
  | handled
  | setex (key : String) (seconds : Nat) (text : List Char)

def InterceptOp.Ans : InterceptOp → Type
  | .get _ => Option (List Char)
  | .handle => Unit
  | .handled => HandlerResult
  | .setex _ _ _ => Unit

/-- What Redis and the handler decide. -/
structure InterceptDecision where
  fail : Option Err := none
  result : HandlerResult := {}

/-- Redis and the handlers (module doc). -/
abbrev redisMachine : Machine where
  Op := InterceptOp
  Ans := InterceptOp.Ans
  Dec := InterceptDecision
  St := String → Option (List Char)
  Err := Err
  exec
    | .get key, d, s =>
      match d.fail with
      | some e => (.error e, s)
      | none => (.ok (s key), s)
    | .handle, _, s => (.ok (), s)
    | .handled, d, s =>
      match d.fail with
      | some e => (.error e, s)
      | none => (.ok d.result, s)
    | .setex key _ text, d, s =>
      match d.fail with
      | some e => (.error e, s)
      | none => (.ok (), Function.update s key (some text))

namespace IdempotencyInterceptor

def intercept (sha256 : List Char → Units) (req : InterceptedRequest) : Prog redisMachine Reply :=
  match req.redisKey with
  | none => do
    Prog.perform (M := redisMachine) .handle
    let r ← Prog.perform (M := redisMachine) .handled
    return r.reply
  | some redisKey => do
    let cached ← Prog.perform (M := redisMachine) (.get redisKey)
    -- an empty string is no entry
    match cached.filter (· ≠ []) with
    | some text => .ofExcept (fromEntry (req.bodyHash sha256) text)
    | none =>
      Prog.perform (M := redisMachine) .handle
      let r ← Prog.perform (M := redisMachine) .handled
      -- the response does not wait for it, and nobody hears of its error
      (Prog.perform (M := redisMachine)
        (.setex redisKey TTL_SECONDS (r.entry (req.bodyHash sha256)).text)).tryCatch
          fun _ => .ret ()
      return r.reply

end IdempotencyInterceptor

open IdempotencyInterceptor (TTL_SECONDS entryProp fromEntry intercept)

/-- The requests at their start, with nothing in Redis. -/
def startIntercept {ι : Type} (sha256 : List Char → Units) (reqs : ι → InterceptedRequest) :
    Conf redisMachine ι Reply :=
  .start (fun _ => none) fun t => intercept sha256 (reqs t)

/-! ## Acts -/

/-- What a step of a request comes to. -/
inductive InterceptAct where
  | hit (text : List Char)
  | missed
  /-- Redis did not answer the lookup. -/
  | unanswered
  | started
  | failed
  | succeeded (r : HandlerResult)
  | stored
  /-- The entry was not stored. -/
  | lost

def interceptAct : Event redisMachine → InterceptAct
  | ⟨.get _, _, .ok cached⟩ =>
    match cached.filter (· ≠ []) with
    | some text => .hit text
    | none => .missed
  | ⟨.get _, _, .error _⟩ => .unanswered
  | ⟨.handle, _, _⟩ => .started
  | ⟨.handled, _, .ok r⟩ => .succeeded r
  | ⟨.handled, _, .error _⟩ => .failed
  | ⟨.setex _ _ _, _, .ok ()⟩ => .stored
  | ⟨.setex _ _ _, _, .error _⟩ => .lost

/-- Redis answered a lookup. -/
def InterceptAct.Looks (a : InterceptAct) : Prop := a = .missed ∨ ∃ text, a = .hit text

section Acts

variable {ι : Type}

/-- The requests have one Redis key. -/
def SameKey (reqs : ι → InterceptedRequest) (t u : ι) : Prop :=
  ∃ key, (reqs t).redisKey = some key ∧ (reqs u).redisKey = some key

/-- No lookup comes between one that found nothing and the end of what it led to (module doc). -/
def Spaced (reqs : ι → InterceptedRequest) (l : List (ι × InterceptAct)) : Prop :=
  ∀ (m g : Nat) u t a, l[m]? = some (u, .missed) → l[g]? = some (t, a) → a.Looks →
    SameKey reqs u t → m < g →
    ∃ k : Nat, k < g ∧ (l[k]? = some (u, .failed) ∨ l[k]? = some (u, .stored))

/-- A handler starts only when each earlier one of the key has failed. -/
def AtMostOneRun (reqs : ι → InterceptedRequest) (l : List (ι × InterceptAct)) : Prop :=
  ∀ (j i : Nat) u t, l[j]? = some (u, .started) → l[i]? = some (t, .started) →
    SameKey reqs u t → j < i → ∃ k : Nat, j < k ∧ k < i ∧ l[k]? = some (u, .failed)

/-- Redis answers every lookup. -/
def LooksAnswered (l : List (ι × InterceptAct)) : Prop :=
  ∀ (i : Nat) t, l[i]? ≠ some (t, .unanswered)

def NotStarted (l : List (ι × InterceptAct)) (t : ι) : Prop :=
  ∀ j : Nat, l[j]? ≠ some (t, .started)

/-- What the request `t` gets of the stored answer `r` of the request `u`. -/
def storedAnswer (sha256 : List Char → Units) (reqs : ι → InterceptedRequest) (t u : ι)
    (r : HandlerResult) : Except Err Reply :=
  if (reqs u).bodyHash sha256 = (reqs t).bodyHash sha256 then .ok r.replayed
  else .error (.conflict "Idempotency-Key reutilizada con un body diferente")

variable {reqs : ι → InterceptedRequest} {t u : ι}

/-- Tenants whose ids have no colon, such as UUIDs, have different Redis keys. -/
theorem sameKey_iff (ht : ':' ∉ (reqs t).tenantId.toList) (hu : ':' ∉ (reqs u).tenantId.toList) :
    SameKey reqs t u ↔ (reqs t).tenantId = (reqs u).tenantId ∧
      ∃ key, (reqs t).idempKey = some key ∧ (reqs u).idempKey = some key := by
  unfold SameKey InterceptedRequest.redisKey
  constructor
  · rintro ⟨key, hkt, hku⟩
    obtain ⟨kt, hkt', rfl⟩ := Option.map_eq_some_iff.mp hkt
    obtain ⟨ku, hku', heq⟩ := Option.map_eq_some_iff.mp hku
    obtain ⟨htenant, rfl⟩ := Js.colon_inj hu ht heq
    exact ⟨htenant.symm, ku, hkt', hku'⟩
  · rintro ⟨htenant, key, hkt, hku⟩
    exact ⟨_, by rw [hkt, Option.map_some], by rw [hku, Option.map_some, htenant]⟩

end Acts

/-! ## Entries -/

section Entries

variable (r : HandlerResult) (bodyHash bodyHash' : Units)

theorem entry_text_ne_nil : (r.entry bodyHash).text ≠ [] := by
  simp [HandlerResult.entry, Value.text]

theorem entry_normal : (r.entry bodyHash).normal =
    .obj ([(units "bodyHash", .str bodyHash),
        (units "statusCode", (Value.num r.statusCode).normal)] ++
      (r.response.map fun v => (units "response", v.normal)).toList) := by
  have hkeys : Js.OrderedKeys [units "bodyHash", units "statusCode", units "response"] := by
    unfold Js.OrderedKeys
    decide +kernel
  unfold HandlerResult.entry
  cases r.response with
  | none =>
    rw [Js.normal_obj]
    · simp [Value.normal]
    · exact hkeys.sublist (List.sublist_append_left [_, _] [units "response"])
  | some v =>
    rw [Js.normal_obj]
    · simp [Value.normal]
    · exact hkeys

/-- **An entry gives back the answer that was stored**, to a request with the same body. -/
theorem fromEntry_entry : fromEntry bodyHash (r.entry bodyHash').text =
    if bodyHash' = bodyHash then .ok r.replayed
    else .error (.conflict "Idempotency-Key reutilizada con un body diferente") := by
  have hstatus : (units "statusCode" == units "bodyHash") = false := by decide +kernel
  have hresponse : (units "response" == units "bodyHash") = false ∧
      (units "response" == units "statusCode") = false := by decide +kernel
  unfold fromEntry
  rw [Js.parse_text, entry_normal]
  cases h : r.response with
  | none => simp [entryProp, HandlerResult.replayed, h, List.lookup_cons, hstatus, hresponse]
  | some v => simp [entryProp, HandlerResult.replayed, h, List.lookup_cons, hstatus, hresponse]

end Entries

/-! ## The protocol -/

inductive InterceptStage where
  | start
  | hit (text : List Char)
  | unanswered
  | missed
  | running
  | succeeded (r : HandlerResult)

section Protocol

variable {ι : Type} {sha256 : List Char → Units} {reqs : ι → InterceptedRequest}
  {l : List (ι × InterceptAct)} {x : ι × InterceptAct} {t u : ι} {a : InterceptAct}

def InterceptStage.Holds (l : List (ι × InterceptAct)) (t : ι) : InterceptStage → Prop
  | .start => NotStarted l t
  | .hit text => ∃ g : Nat, l[g]? = some (t, .hit text)
  | .unanswered => ∃ g : Nat, l[g]? = some (t, .unanswered)
  | .missed => NotStarted l t ∧ ∃ m : Nat, l[m]? = some (t, .missed)
  | .running => ∃ j : Nat, l[j]? = some (t, .started)
  | .succeeded r =>
    (∃ j : Nat, l[j]? = some (t, .started)) ∧ ∃ i : Nat, l[i]? = some (t, .succeeded r)

theorem NotStarted.snoc (h : NotStarted l t) (hx : x ≠ (t, .started)) :
    NotStarted (l ++ [x]) t := by
  intro j hj
  exact h j ((getElem?_snoc_of_ne hx).mp hj)

theorem InterceptStage.Holds.snoc {g : InterceptStage} (h : g.Holds l t)
    (hx : x ≠ (t, .started)) : g.Holds (l ++ [x]) t := by
  cases g with
  | start => exact NotStarted.snoc h hx
  | hit text => exact exists_getElem?_snoc h
  | unanswered => exact exists_getElem?_snoc h
  | missed => exact ⟨h.1.snoc hx, exists_getElem?_snoc h.2⟩
  | running => exact exists_getElem?_snoc h
  | succeeded r => exact ⟨exists_getElem?_snoc h.1, exists_getElem?_snoc h.2⟩

/-- The text is the entry of a run of the key that succeeded. -/
def StoredBy (sha256 : List Char → Units) (reqs : ι → InterceptedRequest)
    (l : List (ι × InterceptAct)) (key : String) (text : List Char) : Prop :=
  ∃ u r, (∃ i : Nat, l[i]? = some (u, .succeeded r)) ∧ (reqs u).redisKey = some key ∧
    text = (r.entry ((reqs u).bodyHash sha256)).text

theorem StoredBy.snoc {key : String} {text : List Char} (h : StoredBy sha256 reqs l key text) :
    StoredBy sha256 reqs (l ++ [x]) key text := by
  obtain ⟨u, r, hrun, h⟩ := h
  exact ⟨u, r, exists_getElem?_snoc hrun, h⟩

theorem StoredBy.ne_nil {key : String} {text : List Char} (h : StoredBy sha256 reqs l key text) :
    text ≠ [] := by
  obtain ⟨u, r, -, -, rfl⟩ := h
  exact entry_text_ne_nil r _

/-- What an act says of the past and of Redis. -/
def InterceptAct.Says (reqs : ι → InterceptedRequest) (l : List (ι × InterceptAct))
    (redis : String → Option (List Char)) (t : ι) : InterceptAct → Prop
  | .hit text => ∃ key, (reqs t).redisKey = some key ∧ redis key = some text
  | .missed => ∃ key, (reqs t).redisKey = some key ∧ redis key = none
  | .started => NotStarted l t ∧
      ((reqs t).redisKey ≠ none → ∃ m : Nat, l[m]? = some (t, .missed))
  | .failed => ∃ j : Nat, l[j]? = some (t, .started)
  | _ => True

/-- The order of the acts of each request, and what Redis has. -/
structure InterceptInv (sha256 : List Char → Units) (reqs : ι → InterceptedRequest)
    (l : List (ι × InterceptAct)) (redis : String → Option (List Char)) (G : ι → InterceptStage) :
    Prop where
  once : ∀ (i j : Nat) t, l[i]? = some (t, .started) → l[j]? = some (t, .started) → i = j
  looked : ∀ (j : Nat) t, l[j]? = some (t, .started) → (reqs t).redisKey ≠ none →
    ∃ m : Nat, m < j ∧ l[m]? = some (t, .missed)
  ended : ∀ (k : Nat) t, l[k]? = some (t, .failed) → ∃ j : Nat, j < k ∧ l[j]? = some (t, .started)
  /-- No lookup finds nothing after the entry is stored. -/
  before : ∀ (i g : Nat) u t, l[i]? = some (u, .stored) → l[g]? = some (t, .missed) →
    SameKey reqs u t → g < i
  stored : ∀ (i : Nat) u key, l[i]? = some (u, .stored) → (reqs u).redisKey = some key →
    redis key ≠ none
  hits : ∀ (g : Nat) t text, l[g]? = some (t, .hit text) →
    ∃ key, (reqs t).redisKey = some key ∧ StoredBy sha256 reqs l key text
  entries : ∀ key text, redis key = some text → StoredBy sha256 reqs l key text
  stage : ∀ t, (G t).Holds l t

variable {redis redis' : String → Option (List Char)} {G : ι → InterceptStage}

theorem InterceptInv.start :
    InterceptInv sha256 reqs [] (fun _ => none) fun _ => .start where
  once i j t h := by cases h
  looked j t h := by cases h
  ended k t h := by cases h
  before i g u t h := by cases h
  stored i u key h := by cases h
  hits g t text h := by cases h
  entries key text h := by cases h
  stage t := nofun

theorem InterceptInv.snoc [DecidableEq ι] {g : InterceptStage}
    (h : InterceptInv sha256 reqs l redis G) (hpast : a.Says reqs l redis t)
    (hkept : ∀ key, redis key ≠ none → redis' key ≠ none)
    (hput : a = .stored → ∀ key, (reqs t).redisKey = some key → redis' key ≠ none)
    (hnew : ∀ key text, redis' key = some text → StoredBy sha256 reqs (l ++ [(t, a)]) key text)
    (hg : g.Holds (l ++ [(t, a)]) t) :
    InterceptInv sha256 reqs (l ++ [(t, a)]) redis' (Function.update G t g) where
  once i j v hi hj := by
    rcases getElem?_snoc.mp hi with hi' | ⟨rfl, he⟩ <;>
      rcases getElem?_snoc.mp hj with hj' | ⟨rfl, he'⟩
    · exact h.once i j v hi' hj'
    · obtain ⟨rfl, rfl⟩ := Prod.mk.inj he'
      exact absurd hi' (hpast.1 i)
    · obtain ⟨rfl, rfl⟩ := Prod.mk.inj he
      exact absurd hj' (hpast.1 j)
    · rfl
  looked j v hj hkey := by
    rcases getElem?_snoc.mp hj with hj | ⟨rfl, he⟩
    · obtain ⟨m, hm, hmiss⟩ := h.looked j v hj hkey
      exact ⟨m, hm, getElem?_snoc_of_some hmiss⟩
    · obtain ⟨rfl, rfl⟩ := Prod.mk.inj he
      obtain ⟨m, hm⟩ := hpast.2 hkey
      exact ⟨m, lt_of_getElem? hm, getElem?_snoc_of_some hm⟩
  ended k v hk := by
    rcases getElem?_snoc.mp hk with hk | ⟨rfl, he⟩
    · obtain ⟨j, hj, hstart⟩ := h.ended k v hk
      exact ⟨j, hj, getElem?_snoc_of_some hstart⟩
    · obtain ⟨rfl, rfl⟩ := Prod.mk.inj he
      obtain ⟨j, hj⟩ := hpast
      exact ⟨j, lt_of_getElem? hj, getElem?_snoc_of_some hj⟩
  before i k u v hi hk hkey := by
    rcases getElem?_snoc.mp hk with hk | ⟨rfl, he⟩
    · rcases getElem?_snoc.mp hi with hi | ⟨rfl, -⟩
      · exact h.before i k u v hi hk hkey
      · exact lt_of_getElem? hk
    · obtain ⟨rfl, rfl⟩ := Prod.mk.inj he
      -- a lookup that found nothing comes before every store under its key
      have hi : l[i]? = some (u, .stored) := (getElem?_snoc_of_ne fun he => by cases he).mp hi
      obtain ⟨key, hku, hkt⟩ := hkey
      obtain ⟨key', hkt', hnone⟩ := hpast
      obtain rfl : key = key' := Option.some.inj (hkt.symm.trans hkt')
      exact absurd hnone (h.stored i u key hi hku)
  stored i u key hi hkey := by
    rcases getElem?_snoc.mp hi with hi | ⟨rfl, he⟩
    · exact hkept key (h.stored i u key hi hkey)
    · obtain ⟨rfl, rfl⟩ := Prod.mk.inj he
      exact hput rfl key hkey
  hits k v text hk := by
    rcases getElem?_snoc.mp hk with hk | ⟨rfl, he⟩
    · obtain ⟨key, hkey, hby⟩ := h.hits k v text hk
      exact ⟨key, hkey, hby.snoc⟩
    · obtain ⟨rfl, rfl⟩ := Prod.mk.inj he
      obtain ⟨key, hkey, hsome⟩ := hpast
      exact ⟨key, hkey, (h.entries key text hsome).snoc⟩
  entries := hnew
  stage u := by
    by_cases hu : u = t
    · rw [hu, Function.update_self]
      exact hg
    · rw [Function.update_of_ne hu]
      exact (h.stage u).snoc fun he => hu (Prod.mk.inj he).1.symm

theorem InterceptInv.keep [DecidableEq ι] {g : InterceptStage}
    (h : InterceptInv sha256 reqs l redis G) (hpast : a.Says reqs l redis t) (ha : a ≠ .stored)
    (hg : g.Holds (l ++ [(t, a)]) t) :
    InterceptInv sha256 reqs (l ++ [(t, a)]) redis (Function.update G t g) :=
  h.snoc hpast (fun _ hkey => hkey) (fun he => absurd he ha)
    (fun key text hsome => (h.entries key text hsome).snoc) hg

theorem InterceptInv.store [DecidableEq ι] {key : String} {r : HandlerResult}
    (h : InterceptInv sha256 reqs l redis G) (hkey : (reqs t).redisKey = some key)
    (hstage : (InterceptStage.succeeded r).Holds l t) :
    InterceptInv sha256 reqs (l ++ [(t, .stored)])
      (Function.update redis key (some (r.entry ((reqs t).bodyHash sha256)).text))
      (Function.update G t (.succeeded r)) := by
  refine h.snoc trivial (fun k hk => ?_) (fun _ k hk => ?_) (fun k text hsome => ?_)
    (hstage.snoc nofun)
  · by_cases he : k = key
    · simp [he]
    · rwa [Function.update_of_ne he]
  · obtain rfl : k = key := Option.some.inj (hk.symm.trans hkey)
    simp
  · by_cases he : k = key
    · subst he
      rw [Function.update_self] at hsome
      exact ⟨t, r, exists_getElem?_snoc hstage.2, hkey, (Option.some.inj hsome).symm⟩
    · rw [Function.update_of_ne he] at hsome
      exact (h.entries k text hsome).snoc

/-- **At most one run**, when the lookups are spaced. -/
theorem InterceptInv.atMostOneRun (h : InterceptInv sha256 reqs l redis G) (hs : Spaced reqs l) :
    AtMostOneRun reqs l := by
  intro j i u t hj hi hkey hji
  obtain ⟨key, hku, hkt⟩ := hkey
  obtain ⟨m, hmj, hm⟩ := h.looked j u hj (by simp [hku])
  obtain ⟨g, hgi, hg⟩ := h.looked i t hi (by simp [hkt])
  rcases Nat.lt_trichotomy m g with hlt | heq | hgt
  · obtain ⟨k, hkg, hfail | hstore⟩ := hs m g u t _ hm hg (.inl rfl) ⟨key, hku, hkt⟩ hlt
    · obtain ⟨j', hj'k, hj'⟩ := h.ended k u hfail
      obtain rfl : j' = j := h.once j' j u hj' hj
      exact ⟨k, hj'k, hkg.trans hgi, hfail⟩
    · have := h.before k g u t hstore hg ⟨key, hku, hkt⟩
      omega
  · -- one lookup, so one request, which starts once
    subst heq
    rw [hm] at hg
    cases hg
    have := h.once j i u hj hi
    omega
  · obtain ⟨k, hkm, hfail | hstore⟩ := hs g m t u _ hg hm (.inl rfl) ⟨key, hkt, hku⟩ hgt
    · -- `t` failed before `u` looked, so it started before
      obtain ⟨i', hi'k, hi'⟩ := h.ended k t hfail
      have := h.once i' i t hi' hi
      omega
    · have := h.before k m t u hstore hm ⟨key, hkt, hku⟩
      omega

end Protocol

section Run

variable {ι : Type} [DecidableEq ι] (sha256 : List Char → Units) (reqs : ι → InterceptedRequest)

/-- Every run keeps `InterceptInv`. -/
def interceptProto : Proto redisMachine ι InterceptStage where
  allow := Any
  inv G s tr := InterceptInv sha256 reqs (acts interceptAct tr) s G

/-- The request ran the handler. -/
def InterceptStage.Ran (g : InterceptStage) : Prop := g = .running ∨ ∃ r, g = .succeeded r

/-- How a request with a key ends: it ran the handler, or its lookup did not answer, or it has the
answer of the entry that it found. -/
def InterceptEnd (t : ι) (r : Except Err Reply) (g : InterceptStage) : Prop :=
  (reqs t).redisKey ≠ none → g.Ran ∨ g = .unanswered ∨
    ∃ text, g = .hit text ∧ r = fromEntry ((reqs t).bodyHash sha256) text

variable {sha256 reqs} {t : ι} {G : ι → InterceptStage} {s : redisMachine.St}
  {tr : List (ι × Event redisMachine)} {e : Event redisMachine}

theorem interceptProto_keep {g g' : InterceptStage} (hG : G t = g)
    (hi : (interceptProto sha256 reqs).inv G s tr)
    (hpast : g.Holds (acts interceptAct tr) t →
      (interceptAct e).Says reqs (acts interceptAct tr) s t)
    (he : interceptAct e ≠ .stored)
    (hg : g.Holds (acts interceptAct tr) t →
      g'.Holds (acts interceptAct tr ++ [(t, interceptAct e)]) t) :
    (interceptProto sha256 reqs).inv (Function.update G t g') s (tr ++ [(t, e)]) := by
  have hstage : g.Holds (acts interceptAct tr) t := hG ▸ hi.stage t
  show InterceptInv sha256 reqs (acts interceptAct (tr ++ [_])) _ _
  rw [acts_snoc]
  exact hi.keep (hpast hstage) he (hg hstage)

/-- The handler runs, after a lookup that found nothing or for a request without a key. -/
theorem interceptProto_handler {g : InterceptStage} {Q : Except Err Reply → InterceptStage → Prop}
    {f : HandlerResult → Prog redisMachine Reply}
    (hg : g = .missed ∨ g = .start ∧ (reqs t).redisKey = none)
    (hfail : ∀ e, Q (.error e) .running)
    (hf : ∀ r, (interceptProto sha256 reqs).WP t Q (f r) (.succeeded r)) :
    (interceptProto sha256 reqs).WP t Q
      ((Prog.perform (M := redisMachine) .handle).bind fun _ =>
        (Prog.perform (M := redisMachine) .handled).bind f) g := by
  refine Proto.WP.perform_bind fun G s tr d r s' hG hi _ hx => ⟨trivial, ?_⟩
  obtain ⟨rfl, rfl⟩ := Prod.mk.inj hx
  refine ⟨.running, interceptProto_keep hG hi (fun hstage => ?_) nofun
    fun _ => ⟨_, List.getElem?_concat_length⟩, ?_⟩
  · rcases hg with rfl | ⟨rfl, hkey⟩
    · exact ⟨hstage.1, fun _ => hstage.2⟩
    · exact ⟨hstage, fun hne => absurd hkey hne⟩
  refine Proto.WP.perform_bind fun G s tr d r s' hG hi _ hx => ⟨trivial, ?_⟩
  cases hd : d.fail with
  | some er =>
    simp only [redisMachine, hd] at hx
    obtain ⟨rfl, rfl⟩ := Prod.mk.inj hx
    exact ⟨.running, interceptProto_keep hG hi id nofun
      fun hstage => exists_getElem?_snoc hstage, hfail er⟩
  | none =>
    simp only [redisMachine, hd] at hx
    obtain ⟨rfl, rfl⟩ := Prod.mk.inj hx
    exact ⟨.succeeded d.result, interceptProto_keep hG hi (fun _ => trivial) nofun
      fun hstage => ⟨exists_getElem?_snoc hstage, _, List.getElem?_concat_length⟩, hf d.result⟩

theorem interceptProto_setex {key : String} (hkey : (reqs t).redisKey = some key)
    (r : HandlerResult) : (interceptProto sha256 reqs).WP t (InterceptEnd sha256 reqs t)
      (((Prog.perform (M := redisMachine)
        (.setex key TTL_SECONDS (r.entry ((reqs t).bodyHash sha256)).text)).tryCatch
          fun _ => .ret ()).bind fun _ => .ret r.reply) (.succeeded r) := by
  refine Proto.WP.bind (Proto.WP.tryCatch (Proto.WP.perform fun G s tr d r' s' hG hi _ hx =>
    ⟨trivial, .succeeded r, ?_⟩))
  cases hd : d.fail with
  | some er =>
    simp only [redisMachine, hd] at hx
    obtain ⟨rfl, rfl⟩ := Prod.mk.inj hx
    exact ⟨interceptProto_keep hG hi (fun _ => trivial) nofun
      fun hstage => hstage.snoc nofun, fun _ => .inl (.inr ⟨r, rfl⟩)⟩
  | none =>
    simp only [redisMachine, hd] at hx
    obtain ⟨rfl, rfl⟩ := Prod.mk.inj hx
    refine ⟨?_, fun _ => .inl (.inr ⟨r, rfl⟩)⟩
    have hstage : (InterceptStage.succeeded r).Holds (acts interceptAct tr) t := hG ▸ hi.stage t
    show InterceptInv sha256 reqs (acts interceptAct (tr ++ [_])) _ _
    rw [acts_snoc]
    exact hi.store hkey hstage

/-- **A request keeps the protocol.** -/
theorem interceptProto_intercept (t : ι) :
    (interceptProto sha256 reqs).WP t (InterceptEnd sha256 reqs t) (intercept sha256 (reqs t))
      .start := by
  unfold intercept
  cases hkey : (reqs t).redisKey with
  | none =>
    have hfree : ∀ r g, InterceptEnd sha256 reqs t r g := fun r g hne => absurd hkey hne
    exact interceptProto_handler (.inr ⟨rfl, hkey⟩) (fun e => hfree _ _) fun r => hfree _ _
  | some key =>
    refine Proto.WP.perform_bind fun G s tr d r s' hG hi _ hx => ⟨trivial, ?_⟩
    cases hd : d.fail with
    | some er =>
      simp only [redisMachine, hd] at hx
      obtain ⟨rfl, rfl⟩ := Prod.mk.inj hx
      exact ⟨.unanswered, interceptProto_keep hG hi (fun _ => trivial) (fun h => by cases h)
        fun _ => ⟨_, List.getElem?_concat_length⟩, fun _ => .inr (.inl rfl)⟩
    | none =>
      simp only [redisMachine, hd] at hx
      obtain ⟨rfl, rfl⟩ := Prod.mk.inj hx
      cases hc : (s key).filter (· ≠ []) with
      | some text =>
        have hact : interceptAct ⟨.get key, d, .ok (s key)⟩ = .hit text := by
          simp only [interceptAct, hc]
        have htext : s key = some text := (Option.filter_eq_some_iff.mp hc).1
        refine ⟨.hit text, interceptProto_keep hG hi ?_ ?_ ?_, ?_⟩
        · rw [hact]
          exact fun _ => ⟨key, hkey, htext⟩
        · rw [hact]
          exact fun h => by cases h
        · rw [hact]
          exact fun _ => ⟨_, List.getElem?_concat_length⟩
        · simp only [hc]
          exact Proto.WP.ofExcept fun _ => .inr (.inr ⟨text, rfl, rfl⟩)
      | none =>
        have hact : interceptAct ⟨.get key, d, .ok (s key)⟩ = .missed := by
          simp only [interceptAct, hc]
        have hnone : s key = none := by
          cases htext : s key with
          | none => rfl
          | some text =>
            rw [htext] at hc
            have hne := (hi.entries key text htext).ne_nil
            simp [hne] at hc
        refine ⟨.missed, interceptProto_keep hG hi ?_ ?_ ?_, ?_⟩
        · rw [hact]
          exact fun _ => ⟨key, hkey, hnone⟩
        · rw [hact]
          exact fun h => by cases h
        · rw [hact]
          exact fun hstage => ⟨NotStarted.snoc hstage (fun h => by cases h), _, List.getElem?_concat_length⟩
        · simp only [hc]
          exact interceptProto_handler (.inl rfl) (fun _ _ => .inl (.inl rfl))
            (interceptProto_setex hkey)

omit [DecidableEq ι] in
theorem InterceptInv.answer {l : List (ι × InterceptAct)} {r : Except Err Reply}
    (h : InterceptInv sha256 reqs l s G) (ha : LooksAnswered l) (hkey : (reqs t).redisKey ≠ none)
    (hnot : NotStarted l t) (hend : InterceptEnd sha256 reqs t r (G t)) :
    ∃ (i : Nat) (u : ι) (res : HandlerResult), l[i]? = some (u, .succeeded res) ∧
      SameKey reqs u t ∧ r = storedAnswer sha256 reqs t u res := by
  have hstage := h.stage t
  rcases hend hkey with hran | hgone | ⟨text, hhit, rfl⟩
  · rcases hran with hran | ⟨res, hran⟩ <;> rw [hran] at hstage
    · obtain ⟨j, hj⟩ := hstage
      exact absurd hj (hnot j)
    · obtain ⟨⟨j, hj⟩, -⟩ := hstage
      exact absurd hj (hnot j)
  · rw [hgone] at hstage
    obtain ⟨g, hg⟩ := hstage
    exact absurd hg (ha g t)
  · rw [hhit] at hstage
    obtain ⟨g, hg⟩ := hstage
    obtain ⟨key, hkt, u, res, ⟨i, hi⟩, hku, rfl⟩ := h.hits g t text hg
    exact ⟨i, u, res, hi, ⟨key, hku, hkt⟩, fromEntry_entry res _ _⟩

end Run

/-- **The interceptor runs the handler once when the lookups are spaced**: in any interleaving, a
handler starts only when each earlier one of the key has failed; and a request that did not start it
has the stored answer of one that succeeded, or a conflict. -/
theorem interceptor_once {ι : Type} [DecidableEq ι] (sha256 : List Char → Units)
    (reqs : ι → InterceptedRequest) (c : Conf redisMachine ι Reply)
    (hr : Conf.Reach Any (startIntercept sha256 reqs) c)
    (hs : Spaced reqs (acts interceptAct c.trace))
    (ha : LooksAnswered (acts interceptAct c.trace)) :
    AtMostOneRun reqs (acts interceptAct c.trace) ∧
      ∀ t r, (reqs t).redisKey ≠ none → c.thr t = .ofExcept r →
        NotStarted (acts interceptAct c.trace) t →
        ∃ (i : Nat) (u : ι) (res : HandlerResult),
          (acts interceptAct c.trace)[i]? = some (u, .succeeded res) ∧ SameKey reqs u t ∧
          r = storedAnswer sha256 reqs t u res := by
  have h₀ : (interceptProto sha256 reqs).Ok (InterceptEnd sha256 reqs)
      (startIntercept sha256 reqs) :=
    ⟨fun _ => .start, InterceptInv.start, interceptProto_intercept⟩
  obtain ⟨G, hi, hend⟩ := (Proto.sound h₀ hr).ended
  exact ⟨hi.atMostOneRun hs, fun t r hkey ht hnot => hi.answer ha hkey hnot (hend t r ht)⟩

/-! ### A request that is sent twice -/

/-- The hash of `{}`. -/
def emptyBodyHash (_ : List Char) : Units :=
  units "44136fa355b3678a1146ad16f7e8649e94fb4fc21fe77e8310c060f61caaff8a"

def twinReqs (_ : Nat) : InterceptedRequest where
  headers := [("idempotency-key", "order-1")]
  tenant := some ⟨"6f1c2f0e", "Tienda"⟩

def twinStart : Conf redisMachine Nat Reply := startIntercept emptyBodyHash twinReqs

/-- The answer of the handler. -/
def twinResult : HandlerResult where
  response := some (.obj [(units "status", .str (units "PENDING"))])

/-- The second request comes when the entry is stored. -/
def twinInTurn : List (Nat × InterceptDecision) :=
  [(0, {}), (0, {}), (0, { result := twinResult }), (0, {}), (1, {})]

/-- The second request comes while the handler runs. -/
def twinDuring : List (Nat × InterceptDecision) := [(0, {}), (0, {}), (1, {}), (1, {})]

/-- The second request comes after the response, before the entry. -/
def twinAfter : List (Nat × InterceptDecision) :=
  [(0, {}), (0, {}), (0, { result := twinResult }), (1, {}), (1, {})]

theorem acts_twinInTurn : acts interceptAct (twinStart.play twinInTurn).trace =
    [(0, .missed), (0, .started), (0, .succeeded twinResult), (0, .stored),
      (1, .hit (twinResult.entry (emptyBodyHash [])).text)] := by
  rfl

theorem acts_twinDuring : acts interceptAct (twinStart.play twinDuring).trace =
    [(0, .missed), (0, .started), (1, .missed), (1, .started)] := by
  rfl

theorem acts_twinAfter : acts interceptAct (twinStart.play twinAfter).trace =
    [(0, .missed), (0, .started), (0, .succeeded twinResult), (1, .missed), (1, .started)] := by
  rfl

theorem sameKey_twins (t u : Nat) : SameKey twinReqs t u := ⟨_, rfl, rfl⟩

/-- The second request gets the stored answer. -/
theorem interceptor_once_in_turn :
    (twinStart.play twinInTurn).thr 1 = .ofExcept (.ok twinResult.replayed) ∧
      ∃ (i : Nat) (u : Nat) (res : HandlerResult),
        (acts interceptAct (twinStart.play twinInTurn).trace)[i]? = some (u, .succeeded res) ∧
        SameKey twinReqs u 1 ∧
        .ok twinResult.replayed = storedAnswer emptyBodyHash twinReqs 1 u res := by
  have hthr : (twinStart.play twinInTurn).thr 1 = .ofExcept (.ok twinResult.replayed) := by
    have hentry := fromEntry_entry twinResult (emptyBodyHash []) (emptyBodyHash [])
    rw [if_pos rfl] at hentry
    rw [← hentry]
    rfl
  have hspaced : Spaced twinReqs (acts interceptAct (twinStart.play twinInTurn).trace) := by
    rw [acts_twinInTurn]
    intro m g u t a hm hg ha _ hlt
    have hgl : g < 5 := lt_of_getElem? hg
    obtain rfl | hm' : m = 0 ∨ m = 1 ∨ m = 2 ∨ m = 3 := by omega
    · cases hm
      obtain rfl | rfl | rfl | rfl : g = 1 ∨ g = 2 ∨ g = 3 ∨ g = 4 := by omega
      · cases hg
        rcases ha with h | ⟨_, h⟩ <;> cases h
      · cases hg
        rcases ha with h | ⟨_, h⟩ <;> cases h
      · cases hg
        rcases ha with h | ⟨_, h⟩ <;> cases h
      · exact ⟨3, by decide, .inr rfl⟩
    · rcases hm' with rfl | rfl | rfl <;> cases hm
  have hanswered : LooksAnswered (acts interceptAct (twinStart.play twinInTurn).trace) := by
    rw [acts_twinInTurn]
    intro i t hi
    simpa using List.mem_of_getElem? hi
  have hnot : NotStarted (acts interceptAct (twinStart.play twinInTurn).trace) 1 := by
    rw [acts_twinInTurn]
    intro j hj
    simpa using List.mem_of_getElem? hj
  have hreach := Conf.reach_play (Conf.plays_any twinStart twinInTurn)
  exact ⟨hthr, (interceptor_once emptyBodyHash twinReqs _ hreach hspaced hanswered).2 1 _
    nofun hthr hnot⟩

/-- A request that comes while the handler runs, or between the response and the entry, runs the
handler again. -/
theorem interceptor_runs_twice :
    (Conf.Reach Any twinStart (twinStart.play twinDuring) ∧
      ¬ AtMostOneRun twinReqs (acts interceptAct (twinStart.play twinDuring).trace)) ∧
    (Conf.Reach Any twinStart (twinStart.play twinAfter) ∧
      ¬ AtMostOneRun twinReqs (acts interceptAct (twinStart.play twinAfter).trace)) := by
  refine ⟨⟨Conf.reach_play (Conf.plays_any _ _), ?_⟩, Conf.reach_play (Conf.plays_any _ _), ?_⟩
  · rw [acts_twinDuring]
    intro h
    obtain ⟨k, hk, hk', hfail⟩ := h 1 3 0 1 rfl rfl (sameKey_twins 0 1) (by decide)
    obtain rfl : k = 2 := by omega
    cases hfail
  · rw [acts_twinAfter]
    intro h
    obtain ⟨k, hk, hk', hfail⟩ := h 1 4 0 1 rfl rfl (sameKey_twins 0 1) (by decide)
    obtain rfl | rfl : k = 2 ∨ k = 3 := by omega
    · cases hfail
    · cases hfail

end Pasarela
