import Pasarela.Adapters
import Pasarela.Effects
import Pasarela.Workers

/-!
# What the deduplication of webhooks drops

Deliveries of one provider, verified, handled one after another while the database and the queue
work. The key of a delivery is its provider and its external id, in the lookup, in the unique
constraint and in the job id; the external id is the id of the payment at the provider.

* `Delivery`: a request to `handle`, with the event that `verifyWebhook` makes of it.
  `deliver`: each delivery with the state before it and its outcome.
* `handle_recorded`, `handle_new`: a delivery whose key is recorded changes nothing; another one is
  stored and enqueued.
* `dedup_by_external_id`: so the first delivery for each external id is enqueued, and no other.
-/

namespace Pasarela

open Conc (Outcome Prog)
open Js (Json)
open Store (Table)

/-- A delivery (module doc). -/
structure Delivery where
  raw : Buffer
  headers : Headers
  event : WebhookEvent
  ω : Op → Decision

/-- A delivery that was handled. -/
structure Handled where
  before : World
  outcome : Outcome machine Received

def Delivery.handle (registry : ProviderRegistry) (providerId : String) (x : Delivery)
    (s : World) : Handled :=
  ⟨s, (WebhooksController.handle registry providerId x.raw x.headers).run x.ω s⟩

/-- The deliveries, one after another. -/
def deliver (registry : ProviderRegistry) (providerId : String) :
    World → List Delivery → List Handled
  | _, [] => []
  | s, x :: xs =>
    let h := x.handle registry providerId s
    h :: deliver registry providerId h.outcome.state xs

/-- A job with the event was added to the queue. -/
def Handled.Enqueued (h : Handled) (event : WebhookEvent) : Prop :=
  ∃ job, job.event = event ∧ h.outcome.state.jobs = h.before.jobs ++ [job]

/-- Nothing was stored and nothing was enqueued. -/
def Handled.Dropped (h : Handled) : Prop := h.outcome.state = h.before

/-- The database and the queue work at the delivery, and the id of its row is new. -/
structure Delivery.Works (x : Delivery) (s : World) : Prop where
  fail : ∀ o, (x.ω o).fail = none
  fresh : ∀ o, ∀ w ∈ s.inbound, w.id ≠ (x.ω o).newId .webhookInbound

/-- The database and the queue work at each delivery. -/
def AllWork (registry : ProviderRegistry) (providerId : String) : World → List Delivery → Prop
  | _, [] => True
  | s, x :: xs =>
    x.Works s ∧ AllWork registry providerId (x.handle registry providerId s).outcome.state xs

/-- A delivery of the provider with the external id is stored. -/
def Recorded (providerId externalId : String) (s : World) : Prop :=
  ∃ w ∈ s.inbound, w.providerKey = (providerId, externalId)

/-- The job id of `handle`. -/
def webhookJobId (providerId externalId : String) : String :=
  "webhook:" ++ providerId ++ ":" ++ externalId

/-- The queue has jobs of the provider for stored deliveries only. -/
def QueueRecorded (providerId : String) (s : World) : Prop :=
  ∀ j ∈ s.jobs, ∀ e, j.jobId = webhookJobId providerId e → Recorded providerId e s

section Handle

variable {registry : ProviderRegistry} {providerId : String} {provider : PaymentProvider}
  {x : Delivery} {s : World}

theorem webhookJobId_inj {e e' : String} (h : webhookJobId providerId e = webhookJobId providerId e') :
    e = e' := by
  unfold webhookJobId at h
  exact String.append_right_inj _ |>.mp h

/-- A verified delivery goes on to `accept`. -/
theorem handle_eq (hp : registry.get providerId = .ok provider)
    (hv : provider.verifyWebhook x.raw x.headers = .ok x.event) :
    WebhooksController.handle registry providerId x.raw x.headers =
      WebhooksController.accept providerId x.event x.headers := by
  have hd : verifyDelivery provider x.raw x.headers = .ok x.event := by
    rw [verifyDelivery, hv]
  rw [WebhooksController.handle, hp]
  show (Prog.ofExcept (M := machine) (verifyDelivery provider x.raw x.headers)).bind _ = _
  rw [hd]
  rfl

theorem handle_outcome (hp : registry.get providerId = .ok provider)
    (hv : provider.verifyWebhook x.raw x.headers = .ok x.event) :
    (x.handle registry providerId s).outcome =
      (WebhooksController.accept providerId x.event x.headers).run x.ω s := by
  rw [Delivery.handle, handle_eq hp hv]

theorem handle_recorded (hp : registry.get providerId = .ok provider)
    (hv : provider.verifyWebhook x.raw x.headers = .ok x.event) (hw : x.Works s)
    (hr : Recorded providerId x.event.externalId s) :
    (x.handle registry providerId s).outcome.result = .ok ⟨true⟩ ∧
      (x.handle registry providerId s).Dropped := by
  obtain ⟨f, haccept, hsome⟩ : ∃ f : Option WebhookInbound → Service Received,
      WebhooksController.accept providerId x.event x.headers =
        (request (.findInbound providerId x.event.externalId)).bind f ∧
        ∀ w, f (some w) = .ret ⟨true⟩ := ⟨_, rfl, fun _ => rfl⟩
  obtain ⟨w, hw', hk⟩ := hr
  have hfound : (s.inbound.rows.find? fun w =>
      w.providerKey = (providerId, x.event.externalId)).isSome := by
    rw [List.find?_isSome]
    exact ⟨w, hw', by simpa using hk⟩
  obtain ⟨a, ha⟩ := Option.isSome_iff_exists.mp hfound
  have hx : exec (.findInbound providerId x.event.externalId)
      (x.ω (.findInbound providerId x.event.externalId)) s = (.ok (some a), s) := by
    rw [exec_findInbound (hw.fail _), ha]
  rw [Handled.Dropped, handle_outcome hp hv, haccept, Prog.run_perform_ok (M := machine) hx, hsome]
  exact ⟨rfl, rfl⟩

/-- The queue takes the job of a delivery whose key is not stored. -/
theorem addJob_new (hq : QueueRecorded providerId s) {e : String} (hr : ¬ Recorded providerId e s)
    {job : WebhookJob} (hid : job.jobId = webhookJobId providerId e) :
    addJob job s.jobs = s.jobs ++ [job] :=
  addJob_of_new fun j hj hjid => hr (hq j hj e (hjid.trans hid))

/-- `accept` of a delivery whose key is not stored: the row, and then the job. -/
theorem accept_new (hw : x.Works s) (hq : QueueRecorded providerId s)
    (hr : ¬ Recorded providerId x.event.externalId s) :
    ∃ inbound t job tr, inbound.providerKey = (providerId, x.event.externalId) ∧
      s.inbound.insert inbound = .ok t ∧ job.event = x.event ∧
      job.jobId = webhookJobId providerId x.event.externalId ∧
      (WebhooksController.accept providerId x.event x.headers).run x.ω s =
        ⟨.ok ⟨true⟩, { s with inbound := t, jobs := s.jobs ++ [job] }, tr⟩ := by
  have hkey : ∀ w ∈ s.inbound, w.providerKey ≠ (providerId, x.event.externalId) :=
    fun w hw' hk => hr ⟨w, hw', hk⟩
  have hnone : (s.inbound.rows.find? fun w =>
      w.providerKey = (providerId, x.event.externalId)) = none := by
    rw [List.find?_eq_none]
    intro w hw'
    simpa using hkey w hw'
  have hx : exec (.findInbound providerId x.event.externalId)
      (x.ω (.findInbound providerId x.event.externalId)) s = (.ok none, s) := by
    rw [exec_findInbound (hw.fail _), hnone]
  let inbound := newInbound (x.ω (.createInbound providerId x.event x.headers)) providerId x.event
    x.headers
  let job := newJob (x.ω (.enqueueWebhook providerId inbound.id x.event)) providerId inbound.id
    x.event
  obtain ⟨t, ht, hc⟩ : ∃ t, s.inbound.insert inbound = .ok t ∧
      exec (.createInbound providerId x.event x.headers)
        (x.ω (.createInbound providerId x.event x.headers)) s =
          (.ok inbound, { s with inbound := t }) :=
    exec_createInbound_of_fresh (hw.fail _) (hw.fresh _) hkey
  have he : exec (.enqueueWebhook providerId inbound.id x.event)
      (x.ω (.enqueueWebhook providerId inbound.id x.event)) { s with inbound := t } =
        (.ok (), { s with inbound := t, jobs := addJob job s.jobs }) :=
    exec_enqueueWebhook (hw.fail _)
  rw [addJob_new hq hr rfl] at he
  -- the program, one request at a time
  obtain ⟨f, g, hfind, hcreate, hadd⟩ : ∃ (f : Option WebhookInbound → Service Received)
      (g : WebhookInbound → Service Received),
      WebhooksController.accept providerId x.event x.headers =
        (request (.findInbound providerId x.event.externalId)).bind f ∧
      f none = (request (.createInbound providerId x.event x.headers)).bind g ∧
      g inbound = (request (.enqueueWebhook providerId inbound.id x.event)).bind fun _ =>
        .ret ⟨true⟩ := ⟨_, _, rfl, rfl, rfl⟩
  have hrun : ∃ tr, (WebhooksController.accept providerId x.event x.headers).run x.ω s =
      ⟨.ok ⟨true⟩, { s with inbound := t, jobs := s.jobs ++ [job] }, tr⟩ := by
    rw [hfind, Prog.run_perform_ok (M := machine) hx, hcreate, Prog.run_perform_ok (M := machine) hc,
      hadd, Prog.run_perform_ok (M := machine) he]
    exact ⟨_, rfl⟩
  obtain ⟨tr, hrun⟩ := hrun
  exact ⟨inbound, t, job, tr, rfl, ht, rfl, rfl, hrun⟩

/-- What is stored after a row was inserted. -/
theorem recorded_insert {w : WebhookInbound} {t : Table WebhookInbound.id WebhookInbound.providerKey}
    (ht : s.inbound.insert w = .ok t) {p e : String} (jobs : List WebhookJob) :
    Recorded p e { s with inbound := t, jobs } ↔ Recorded p e s ∨ w.providerKey = (p, e) := by
  constructor
  · rintro ⟨v, hv, hvk⟩
    rcases (Table.mem_insert ht).mp hv with hv | rfl
    · exact .inl ⟨v, hv, hvk⟩
    · exact .inr hvk
  · rintro (⟨v, hv, hvk⟩ | hk)
    · exact ⟨v, (Table.mem_insert ht).mpr (.inl hv), hvk⟩
    · exact ⟨w, (Table.mem_insert ht).mpr (.inr rfl), hk⟩

/-- Another delivery is stored and enqueued. -/
theorem handle_new (hp : registry.get providerId = .ok provider)
    (hv : provider.verifyWebhook x.raw x.headers = .ok x.event) (hw : x.Works s)
    (hq : QueueRecorded providerId s) (hr : ¬ Recorded providerId x.event.externalId s) :
    (x.handle registry providerId s).outcome.result = .ok ⟨true⟩ ∧
      (x.handle registry providerId s).Enqueued x.event ∧
      QueueRecorded providerId (x.handle registry providerId s).outcome.state ∧
      ∀ e, Recorded providerId e (x.handle registry providerId s).outcome.state ↔
        Recorded providerId e s ∨ e = x.event.externalId := by
  obtain ⟨inbound, t, job, tr, hk, ht, hevent, hid, haccept⟩ := accept_new hw hq hr
  have hrecorded : ∀ e, Recorded providerId e { s with inbound := t, jobs := s.jobs ++ [job] } ↔
      Recorded providerId e s ∨ e = x.event.externalId := by
    intro e
    rw [recorded_insert ht, hk, Prod.mk.injEq, eq_comm (a := e)]
    simp
  rw [Handled.Enqueued, handle_outcome hp hv, haccept]
  refine ⟨rfl, ⟨job, hevent, rfl⟩, ?_, hrecorded⟩
  intro j hj e hjid
  rw [hrecorded]
  rcases List.mem_append.mp hj with hj | hj
  · exact .inl (hq j hj e hjid)
  · rw [List.mem_singleton.mp hj] at hjid
    exact .inr (webhookJobId_inj (hjid.symm.trans hid))

theorem Handled.Enqueued.not_dropped {h : Handled} {event : WebhookEvent} (he : h.Enqueued event) :
    ¬ h.Dropped := by
  intro hd
  obtain ⟨job, -, hj⟩ := he
  rw [hd] at hj
  have hlen := congrArg List.length hj
  simp at hlen

/-- A delivery for the external id is among the first `i`. -/
def Earlier (xs : List Delivery) (i : Nat) (externalId : String) : Prop :=
  ∃ x ∈ xs.take i, x.event.externalId = externalId

/-- A delivery that is a duplicate is dropped, and another one is enqueued. -/
structure Handled.Deduplicated (h : Handled) (event : WebhookEvent) (duplicate : Prop) : Prop where
  received : h.outcome.result = .ok ⟨true⟩
  dropped : h.Dropped ↔ duplicate
  enqueued : h.Enqueued event ↔ ¬ duplicate

theorem Handled.Deduplicated.of_cases {h : Handled} {event : WebhookEvent} {duplicate : Prop}
    (hr : h.outcome.result = .ok ⟨true⟩) (hd : duplicate → h.Dropped)
    (he : ¬ duplicate → h.Enqueued event) : h.Deduplicated event duplicate where
  received := hr
  dropped := ⟨fun h => by_contra fun hn => (he hn).not_dropped h, hd⟩
  enqueued := ⟨fun h hn => h.not_dropped (hd hn), he⟩

/-- One delivery. -/
theorem handle_step (hp : registry.get providerId = .ok provider)
    (hv : provider.verifyWebhook x.raw x.headers = .ok x.event) (hw : x.Works s)
    (hq : QueueRecorded providerId s) :
    (x.handle registry providerId s).Deduplicated x.event
        (Recorded providerId x.event.externalId s) ∧
      QueueRecorded providerId (x.handle registry providerId s).outcome.state ∧
      ∀ e, Recorded providerId e (x.handle registry providerId s).outcome.state ↔
        Recorded providerId e s ∨ e = x.event.externalId := by
  by_cases hr : Recorded providerId x.event.externalId s
  · obtain ⟨hok, hd⟩ := handle_recorded hp hv hw hr
    refine ⟨.of_cases hok (fun _ => hd) fun hn => absurd hr hn, ?_⟩
    rw [Handled.Dropped] at hd
    rw [hd]
    refine ⟨hq, fun e => ⟨.inl, ?_⟩⟩
    rintro (he | rfl)
    · exact he
    · exact hr
  · obtain ⟨hok, he, hq', hrec⟩ := handle_new hp hv hw hq hr
    exact ⟨.of_cases hok (fun h => absurd h hr) fun _ => he, hq', hrec⟩

/-- The deliveries, from a state in which some may be stored already. -/
theorem deliver_spec (hp : registry.get providerId = .ok provider) {xs : List Delivery}
    (hv : ∀ x ∈ xs, provider.verifyWebhook x.raw x.headers = .ok x.event)
    (hw : AllWork registry providerId s xs) (hq : QueueRecorded providerId s) {i : Nat}
    (hi : i < xs.length) :
    ∃ h, (deliver registry providerId s xs)[i]? = some h ∧ h.Deduplicated xs[i].event
      (Recorded providerId xs[i].event.externalId s ∨ Earlier xs i xs[i].event.externalId) := by
  induction xs generalizing s i with
  | nil => cases hi
  | cons x xs ih =>
    obtain ⟨hx, hq', hrec⟩ := handle_step hp (hv x List.mem_cons_self) hw.1 hq
    cases i with
    | zero =>
      have hnone : ¬ Earlier (x :: xs) 0 x.event.externalId := fun ⟨_, h, _⟩ => List.not_mem_nil h
      refine ⟨_, rfl, ?_⟩
      show Handled.Deduplicated _ x.event
        (Recorded providerId x.event.externalId s ∨ Earlier (x :: xs) 0 x.event.externalId)
      rw [or_iff_left hnone]
      exact hx
    | succ i =>
      have hi' : i < xs.length := Nat.lt_of_succ_lt_succ hi
      obtain ⟨h, hget, hdedup⟩ := ih (fun y hy => hv y (List.mem_cons_of_mem _ hy)) hw.2 hq' hi'
      refine ⟨h, hget, ?_⟩
      have hiff : ∀ e, Recorded providerId e (x.handle registry providerId s).outcome.state ∨
          Earlier xs i e ↔ Recorded providerId e s ∨ Earlier (x :: xs) (i + 1) e := by
        intro e
        have hcons : Earlier (x :: xs) (i + 1) e ↔ e = x.event.externalId ∨ Earlier xs i e := by
          simp [Earlier, eq_comm (a := e)]
        rw [hrec, hcons, or_assoc]
      rw [hiff] at hdedup
      exact hdedup

end Handle

/-- **Deduplication is by external id.** Of the verified deliveries of a provider, from a state in
which none is stored or enqueued, the first one for each external id is enqueued and the others are
dropped; each is answered `received`. -/
theorem dedup_by_external_id (registry : ProviderRegistry) (providerId : String)
    (provider : PaymentProvider) (hp : registry.get providerId = .ok provider) (s : World)
    (hs : ∀ e, ¬ Recorded providerId e s)
    (hj : ∀ j ∈ s.jobs, ∀ e, j.jobId ≠ webhookJobId providerId e) (xs : List Delivery)
    (hv : ∀ x ∈ xs, provider.verifyWebhook x.raw x.headers = .ok x.event)
    (hw : AllWork registry providerId s xs) (i : Nat) (hi : i < xs.length) :
    ∃ h, (deliver registry providerId s xs)[i]? = some h ∧
      h.Deduplicated xs[i].event (Earlier xs i xs[i].event.externalId) := by
  have hq : QueueRecorded providerId s := fun j hmem e hid => absurd hid (hj j hmem e)
  obtain ⟨h, hget, hd⟩ := deliver_spec hp hv hw hq hi
  rw [or_iff_right (hs _)] at hd
  exact ⟨h, hget, hd⟩

/-! ### Two events of one Stripe payment -/

/-- An event of the payment intent `pi_1`. -/
def stripeEvent (type : String) : Json :=
  .obj [("type", .str type), ("data", .obj [("object", .obj [("id", .str "pi_1")])])]

/-- The body of the delivery of that event. -/
def stripeBody (type : String) : Buffer :=
  ("\x7b\"type\":\"" ++ type ++ "\",\"data\":\x7b\"object\":\x7b\"id\":\"pi_1\"\x7d\x7d\x7d").toUTF8

/-- A runtime for two deliveries of Stripe, which the client verifies. -/
def stripeRuntime : Runtime where
  hmac _ _ _ := ""
  parse _ := none
  now := 0
  pred _ := none
  constructEvent _ sig _ :=
    if sig = "t=1,v1=a" then .ok (stripeEvent "payment_intent.amount_capturable_updated")
    else if sig = "t=2,v1=b" then .ok (stripeEvent "payment_intent.succeeded")
    else .error "No signatures found matching the expected signature for payload."

def stripeAdapter : PaymentProvider := StripeProvider.provider stripeRuntime "whsec"

def stripeRegistry : ProviderRegistry := ProviderRegistry.empty.register stripeAdapter

/-- The payment is authorized, and later captured. -/
def stripeDeliveries : List Delivery := [
  ⟨stripeBody "payment_intent.amount_capturable_updated", [("stripe-signature", "t=1,v1=a")],
    ⟨"stripe", "payment_intent.amount_capturable_updated", "pi_1", .authorized,
      stripeEvent "payment_intent.amount_capturable_updated"⟩, fun _ => { newId := fun _ => "a" }⟩,
  ⟨stripeBody "payment_intent.succeeded", [("stripe-signature", "t=2,v1=b")],
    ⟨"stripe", "payment_intent.succeeded", "pi_1", .captured,
      stripeEvent "payment_intent.succeeded"⟩, fun _ => { newId := fun _ => "b" }⟩]

theorem verified_stripeDeliveries : ∀ x ∈ stripeDeliveries,
    stripeAdapter.verifyWebhook x.raw x.headers = .ok x.event := by
  intro x hx
  rcases List.mem_cons.mp hx with rfl | hx
  · rfl
  · rw [List.mem_singleton.mp hx]
    rfl

theorem allWork_stripeDeliveries : AllWork stripeRegistry "stripe" .empty stripeDeliveries := by
  refine ⟨⟨fun _ => rfl, fun _ w hw => absurd hw Table.not_mem_empty⟩,
    ⟨fun _ => rfl, fun _ w hw => ?_⟩, trivial⟩
  rw [List.mem_singleton.mp hw]
  have hne : ("a" : String) ≠ "b" := by decide
  exact hne

theorem dedup_sample :
    ∃ h, (deliver stripeRegistry "stripe" .empty stripeDeliveries)[1]? = some h ∧
      h.Deduplicated stripeDeliveries[1].event
        (Earlier stripeDeliveries 1 stripeDeliveries[1].event.externalId) :=
  dedup_by_external_id stripeRegistry "stripe" stripeAdapter rfl .empty
    (fun _ ⟨_, hw, _⟩ => Table.not_mem_empty hw) (fun _ hj => absurd hj List.not_mem_nil)
    stripeDeliveries verified_stripeDeliveries allWork_stripeDeliveries 1 (by decide)

/-- Two deliveries for a payment that report another status: the second one is dropped. -/
theorem later_event_dropped : ¬ ∀ (registry : ProviderRegistry) (providerId : String)
    (provider : PaymentProvider) (s : World) (xs : List Delivery),
    registry.get providerId = .ok provider →
    (∀ e, ¬ Recorded providerId e s) →
    (∀ j ∈ s.jobs, ∀ e, j.jobId ≠ webhookJobId providerId e) →
    (∀ x ∈ xs, provider.verifyWebhook x.raw x.headers = .ok x.event) →
    AllWork registry providerId s xs →
    ∀ (i j : Nat) (hi : i < xs.length) (hj : j < xs.length),
      xs[i].event.externalId = xs[j].event.externalId →
      (xs[i].event.eventType, xs[i].event.status) ≠ (xs[j].event.eventType, xs[j].event.status) →
      ∀ h, (deliver registry providerId s xs)[j]? = some h → h.Enqueued xs[j].event := by
  intro h
  obtain ⟨job, -, hjobs⟩ := h stripeRegistry "stripe" stripeAdapter .empty stripeDeliveries rfl
    (fun _ ⟨_, hw, _⟩ => Table.not_mem_empty hw) (fun _ hj => absurd hj List.not_mem_nil)
    verified_stripeDeliveries allWork_stripeDeliveries 0 1 (by decide) (by decide) rfl (by decide)
    _ rfl
  have hlen : 1 = 1 + 1 := congrArg List.length hjobs
  omega

end Pasarela
