import Pasarela.Conc.Contest
import Pasarela.Conc.History
import Pasarela.WebhookDedup

/-!
# Deliveries of one event, side by side

Any number of deliveries of one verified event are handled at once, step by step, while the database
and the queue work. `handle` looks the key up, and inserts the row if it finds none; the unique
constraint refuses a second row.

* `earlyLookups`: the lookups that a run makes before the row is there.
* `deliveryRace`: where each delivery is (`Conc.Contest`), and the job that the one which stored the
  row puts into the queue.
* `one_row_one_job`: however the deliveries interleave, there is one row and one job at the end.
* `concurrent_deliveries_iff`: all of them are answered `received` iff at most one lookup is early:
  a delivery with an early lookup that does not store the row is answered with the error of the
  constraint.
-/

namespace Pasarela

open Conc (Allow Conf Contest Event Place Prog Proto replay tally)
open Store (Table)

/-- The lookup of a delivery whose key is not stored. -/
def earlyLookup (e : Event machine) (s : World) : Nat :=
  match e.op with
  | .findInbound providerId externalId =>
    if s.inbound.rows.any fun w => w.providerKey = (providerId, externalId) then 0 else 1
  | _ => 0

/-- The deliveries of an event: what each thread handles. -/
structure Deliveries (ι : Type) where
  providerId : String
  event : WebhookEvent
  raw : ι → Buffer
  headers : ι → Headers

/-- Where a delivery is, and whether its job is in the queue. -/
structure DeliveryPlace where
  place : Place
  enqueued : Bool

section Race

variable {ι : Type}

/-- The lookups that the requests make before the row is there (module doc). -/
def earlyLookups (w : World) (tr : List (ι × Event machine)) : Nat :=
  tally (M := machine) (fun _ => earlyLookup) w tr

/-- The database and the queue work, and the ids of new rows are new. -/
def InboundWorks : Allow machine ι := fun _ _ d s =>
  d.fail = none ∧ ∀ w ∈ s.inbound, w.id ≠ d.newId .webhookInbound

variable [DecidableEq ι]

def startDeliveries (registry : ProviderRegistry) (x : Deliveries ι) (w : World) :
    Conf machine ι Received :=
  Conf.start w fun t =>
    WebhooksController.handle registry x.providerId (x.raw t) (x.headers t)

/-- Every delivery is verified as the event. -/
def Deliveries.Verified (registry : ProviderRegistry) (x : Deliveries ι) : Prop :=
  ∃ provider, registry.get x.providerId = .ok provider ∧
    ∀ t, provider.verifyWebhook (x.raw t) (x.headers t) = .ok x.event

/-- The row of the event is stored. -/
def Deliveries.Stored (x : Deliveries ι) (s : World) : Prop :=
  Recorded x.providerId x.event.externalId s

/-- The queue has the jobs of `w`, and the job of the event if a delivery put it there. -/
def Deliveries.Queued (x : Deliveries ι) (w : World) (G : ι → DeliveryPlace) (s : World) : Prop :=
  (s.jobs = w.jobs ∧ ∀ t, (G t).enqueued = false) ∨
    ∃ job t, job.jobId = webhookJobId x.providerId x.event.externalId ∧ job.event = x.event ∧
      s.jobs = w.jobs ++ [job] ∧ (G t).enqueued

/-- What holds after the requests `tr` from `w` (module doc). -/
structure DeliveryInv [Fintype ι] (x : Deliveries ι) (w : World) (G : ι → DeliveryPlace) (s : World)
    (tr : List (ι × Event machine)) : Prop where
  contest : Contest (·.place) (x.Stored w) (x.Stored s) G (earlyLookups w tr)
  state : s = replay w tr
  queued : x.Queued w G s
  stored : ∀ t, (G t).enqueued → (G t).place = .won

def deliveryRace [Fintype ι] (x : Deliveries ι) (w : World) : Proto machine ι DeliveryPlace where
  allow := InboundWorks
  inv := DeliveryInv x w

def DeliveryEnd (r : Except Err Received) (g : DeliveryPlace) : Prop :=
  (g.place = .found ∧ r = .ok ⟨true⟩) ∨ (g.place = .won ∧ g.enqueued ∧ r = .ok ⟨true⟩) ∨
    (g.place = .lost ∧ ∃ e, r = .error e)

/-! ## The steps of a delivery -/

variable {x : Deliveries ι} {w s s' : World} {G : ι → DeliveryPlace} {t : ι}
  {tr : List (ι × Event machine)} {d : Decision}

omit [DecidableEq ι] in
theorem stored_iff_any : x.Stored s ↔ (s.inbound.rows.any fun v =>
    v.providerKey = (x.providerId, x.event.externalId)) = true := by
  simp [Deliveries.Stored, Recorded, Table.mem_def]

omit [DecidableEq ι] in
theorem DeliveryInv.replay_snoc [Fintype ι] (h : DeliveryInv x w G s tr) {o : Op}
    {r : Except Err o.Ans} (hx : exec o d s = (r, s')) :
    s' = replay w (tr ++ [(t, (⟨o, d, r⟩ : Event machine))]) ∧
      earlyLookups w (tr ++ [(t, (⟨o, d, r⟩ : Event machine))]) =
        earlyLookups w tr + earlyLookup ⟨o, d, r⟩ s := by
  constructor
  · rw [Conc.replay_snoc, ← h.state]
    exact (congrArg Prod.snd hx).symm
  · rw [earlyLookups, Conc.tally_snoc, ← h.state]
    rfl

/-- The job of the event is there as before, if the delivery that moves has not put it there. -/
theorem Deliveries.Queued.move (h : x.Queued w G s) (hjobs : s'.jobs = s.jobs)
    {g : DeliveryPlace} (hg : (G t).enqueued = false) (hg' : g.enqueued = false) :
    x.Queued w (Function.update G t g) s' := by
  rcases h with ⟨hsame, hnone⟩ | ⟨job, u, hid, hevent, hjob, hu⟩
  · refine .inl ⟨hjobs.trans hsame, fun u => ?_⟩
    by_cases hut : u = t
    · rw [hut, Function.update_self, hg']
    · rw [Function.update_of_ne hut, hnone]
  · have hut : u ≠ t := fun e => by rw [e, hg] at hu; cases hu
    exact .inr ⟨job, u, hid, hevent, hjobs.trans hjob, by rw [Function.update_of_ne hut]; exact hu⟩

variable [Fintype ι]

theorem DeliveryInv.move (h : DeliveryInv x w G s tr) {o : Op} {r : Except Err o.Ans}
    (hx : exec o d s = (r, s')) (hjobs : s'.jobs = s.jobs) {p : Place}
    (hg : (G t).enqueued = false)
    (hc : Contest (·.place) (x.Stored w) (x.Stored s') (Function.update G t ⟨p, false⟩)
      (earlyLookups w tr + earlyLookup ⟨o, d, r⟩ s)) :
    DeliveryInv x w (Function.update G t ⟨p, false⟩) s' (tr ++ [(t, ⟨o, d, r⟩)]) := by
  obtain ⟨hstate, hearly⟩ := h.replay_snoc (t := t) hx
  refine ⟨by rw [hearly]; exact hc, hstate, h.queued.move hjobs hg rfl, fun u hu => ?_⟩
  by_cases hut : u = t
  · rw [hut, Function.update_self] at hu
    cases hu
  · rw [Function.update_of_ne hut] at hu ⊢
    exact h.stored u hu

theorem DeliveryInv.lookup (h : DeliveryInv x w G s tr) (hg : G t = ⟨.start, false⟩)
    (hd : d.fail = none) {r : Except Err (Option WebhookInbound)}
    (hx : exec (.findInbound x.providerId x.event.externalId) d s = (r, s')) :
    (∃ a, r = .ok (some a) ∧ DeliveryInv x w (Function.update G t ⟨.found, false⟩) s'
      (tr ++ [(t, ⟨.findInbound x.providerId x.event.externalId, d, r⟩)])) ∨
    (r = .ok none ∧ DeliveryInv x w (Function.update G t ⟨.missed, false⟩) s'
      (tr ++ [(t, ⟨.findInbound x.providerId x.event.externalId, d, r⟩)])) := by
  rw [exec_findInbound hd] at hx
  obtain ⟨rfl, rfl⟩ := Prod.mk.inj hx
  have hg' : (G t).enqueued = false := by rw [hg]
  by_cases hs : x.Stored s
  · have hany := stored_iff_any.mp hs
    obtain ⟨a, ha⟩ : ∃ a, s.inbound.rows.find? (fun v =>
        v.providerKey = (x.providerId, x.event.externalId)) = some a := by
      rw [← Option.isSome_iff_exists, List.find?_isSome]
      simpa using hany
    refine .inl ⟨a, by rw [ha], h.move (exec_findInbound hd) rfl hg' ?_⟩
    simp only [earlyLookup, if_pos hany]
    exact h.contest.look_present hs (by rw [hg]) rfl
  · have hany : ¬ (s.inbound.rows.any fun v =>
        v.providerKey = (x.providerId, x.event.externalId)) = true :=
      fun ha => hs (stored_iff_any.mpr ha)
    have hnone : s.inbound.rows.find? (fun v =>
        v.providerKey = (x.providerId, x.event.externalId)) = none := by
      rw [List.find?_eq_none]
      simpa using hany
    refine .inr ⟨by rw [hnone], h.move (exec_findInbound hd) rfl hg' ?_⟩
    simp only [earlyLookup, if_neg hany]
    exact h.contest.look_absent hs (by rw [hg]) rfl

theorem DeliveryInv.insert (h : DeliveryInv x w G s tr) (hg : G t = ⟨.missed, false⟩)
    (hd : InboundWorks t (.createInbound x.providerId x.event (x.headers t)) d s)
    {r : Except Err WebhookInbound}
    (hx : exec (.createInbound x.providerId x.event (x.headers t)) d s = (r, s')) :
    (∃ a, r = .ok a ∧ DeliveryInv x w (Function.update G t ⟨.won, false⟩) s'
      (tr ++ [(t, ⟨.createInbound x.providerId x.event (x.headers t), d, r⟩)])) ∨
    (∃ e, r = .error e ∧ DeliveryInv x w (Function.update G t ⟨.lost, false⟩) s'
      (tr ++ [(t, ⟨.createInbound x.providerId x.event (x.headers t), d, r⟩)])) := by
  have hg' : (G t).enqueued = false := by rw [hg]
  rcases exec_createInbound hx with ⟨e, rfl, rfl⟩ | ⟨rfl, hins, hs⟩
  · have hstored : x.Stored s' := by
      by_contra hn
      have hkey : ∀ v ∈ s'.inbound, v.providerKey ≠ (x.providerId, x.event.externalId) :=
        fun v hv hk => hn ⟨v, hv, hk⟩
      obtain ⟨_, hok⟩ : ∃ a, exec (.createInbound x.providerId x.event (x.headers t)) d s' =
          (.ok (newInbound d x.providerId x.event (x.headers t)), a) := by
        obtain ⟨a, -, ha⟩ := exec_createInbound_of_fresh hd.1 hd.2 hkey
        exact ⟨_, ha⟩
      rw [hok] at hx
      cases hx
    exact .inr ⟨e, rfl, h.move hx rfl hg' (h.contest.insert_present hstored (by rw [hg]) rfl)⟩
  · have hn : ¬ x.Stored s := fun ⟨v, hv, hk⟩ => (Table.insert_ok hins).2.2 v hv hk
    have hstored : x.Stored s' := ⟨_, (Table.mem_insert hins).mpr (.inr rfl), rfl⟩
    exact .inl ⟨_, rfl, h.move hx (by rw [hs]) hg'
      (h.contest.insert_absent hn hstored (by rw [hg]) rfl)⟩

theorem DeliveryInv.enqueue (h : DeliveryInv x w G s tr) (hg : G t = ⟨.won, false⟩)
    (hw : ∀ j ∈ w.jobs, j.jobId ≠ webhookJobId x.providerId x.event.externalId)
    (hd : d.fail = none) {inboundId : String} {r : Except Err Unit}
    (hx : exec (.enqueueWebhook x.providerId inboundId x.event) d s = (r, s')) :
    r = .ok () ∧ DeliveryInv x w (Function.update G t ⟨.won, true⟩) s'
      (tr ++ [(t, ⟨.enqueueWebhook x.providerId inboundId x.event, d, r⟩)]) := by
  obtain ⟨hstate, hearly⟩ := h.replay_snoc (t := t) hx
  -- no other delivery stored the row
  have hjobs : s.jobs = w.jobs := by
    rcases h.queued with ⟨hsame, -⟩ | ⟨-, u, -, -, -, hu⟩
    · exact hsame
    · have hut : u = t := h.contest.unique u t (h.stored u hu) (by rw [hg])
      rw [hut, hg] at hu
      cases hu
  rw [exec_enqueueWebhook hd] at hx
  obtain ⟨rfl, rfl⟩ := Prod.mk.inj hx
  refine ⟨rfl, ?_, hstate, ?_, fun u hu => ?_⟩
  · rw [hearly]
    exact h.contest.keep (by rw [hg]) Iff.rfl
  · refine .inr ⟨newJob d x.providerId inboundId x.event, t, rfl, rfl, ?_, by
      rw [Function.update_self]⟩
    show addJob _ s.jobs = _
    rw [hjobs]
    exact addJob_of_new hw
  · by_cases hut : u = t
    · rw [hut, Function.update_self]
    · rw [Function.update_of_ne hut] at hu ⊢
      exact h.stored u hu

/-- **A delivery keeps the protocol.** -/
theorem deliveryRace_handle {registry : ProviderRegistry} (hv : x.Verified registry)
    (hw : ∀ j ∈ w.jobs, j.jobId ≠ webhookJobId x.providerId x.event.externalId) (t : ι) :
    (deliveryRace x w).WP t DeliveryEnd
      (WebhooksController.handle registry x.providerId (x.raw t) (x.headers t))
      ⟨.start, false⟩ := by
  obtain ⟨provider, hp, hev⟩ := hv
  have heq : WebhooksController.handle registry x.providerId (x.raw t) (x.headers t) =
      WebhooksController.accept x.providerId x.event (x.headers t) :=
    handle_eq (x := ⟨x.raw t, x.headers t, x.event, fun _ => {}⟩) hp (hev t)
  rw [heq]
  refine Proto.WP.perform_bind fun G s tr d r s' hG hi ha hx => ⟨trivial, ?_⟩
  rcases DeliveryInv.lookup hi hG ha.1 hx with ⟨a, rfl, hi'⟩ | ⟨rfl, hi'⟩
  · exact ⟨_, hi', .inl ⟨rfl, rfl⟩⟩
  refine ⟨_, hi', Proto.WP.perform_bind fun G s tr d r s' hG hi ha hx => ⟨trivial, ?_⟩⟩
  rcases DeliveryInv.insert hi hG ha hx with ⟨a, rfl, hi'⟩ | ⟨e, rfl, hi'⟩
  · refine ⟨_, hi', Proto.WP.perform_bind fun G s tr d r s' hG hi ha hx => ⟨trivial, ?_⟩⟩
    obtain ⟨rfl, hi'⟩ := DeliveryInv.enqueue hi hG hw ha.1 hx
    exact ⟨_, hi', .inr (.inl ⟨rfl, rfl, rfl⟩)⟩
  · exact ⟨_, hi', .inr (.inr ⟨rfl, e, rfl⟩)⟩

end Race

/-! ## Runs -/

section Runs

variable {ι : Type} [DecidableEq ι] [Fintype ι] {registry : ProviderRegistry} {x : Deliveries ι}
  {w : World} {c : Conf machine ι Received}

theorem deliveryRace_ended (hv : x.Verified registry)
    (hw : ∀ j ∈ w.jobs, j.jobId ≠ webhookJobId x.providerId x.event.externalId)
    (hr : Conf.Reach InboundWorks (startDeliveries registry x w) c)
    (hend : ∀ t, ∃ r, c.thr t = .ofExcept r) :
    ∃ G, DeliveryInv x w G c.st c.trace ∧ (∀ t, (G t).place.over) ∧
      (∀ t, (G t).place ≠ .lost ↔ c.thr t = .ret ⟨true⟩) ∧
      ∀ t, (G t).place = .won → (G t).enqueued := by
  have hstart : DeliveryInv x w (fun _ => ⟨.start, false⟩) w [] :=
    ⟨Contest.start rfl, rfl, .inl ⟨rfl, fun _ => rfl⟩, fun _ h => by cases h⟩
  have h₀ : (deliveryRace x w).Ok (fun _ => DeliveryEnd) (startDeliveries registry x w) :=
    ⟨fun _ => ⟨.start, false⟩, hstart, deliveryRace_handle hv hw⟩
  obtain ⟨G, hi, hq⟩ := (Proto.sound h₀ hr).ended
  refine ⟨G, hi, fun t => ?_, fun t => ?_, fun t hwon => ?_⟩
  · obtain ⟨r, ht⟩ := hend t
    rcases hq t r ht with ⟨hp, -⟩ | ⟨hp, -, -⟩ | ⟨hp, -⟩ <;> rw [hp] <;> rfl
  · obtain ⟨r, ht⟩ := hend t
    rw [ht]
    rcases hq t r ht with ⟨hp, rfl⟩ | ⟨hp, -, rfl⟩ | ⟨hp, e, rfl⟩
    · exact iff_of_true (by rw [hp]; decide) rfl
    · exact iff_of_true (by rw [hp]; decide) rfl
    · exact iff_of_false (fun h => h hp) fun h => by cases h
  · obtain ⟨r, ht⟩ := hend t
    rcases hq t r ht with ⟨hp, -⟩ | ⟨-, he, -⟩ | ⟨hp, -⟩
    · rw [hp] at hwon; cases hwon
    · exact he
    · rw [hp] at hwon; cases hwon

/-- One row and one job for the event, more than in `w`. -/
structure Deliveries.Once (x : Deliveries ι) (w s : World) : Prop where
  row : ∃ v ∈ s.inbound, v.providerKey = (x.providerId, x.event.externalId) ∧
    ∀ u ∈ s.inbound, u.providerKey = (x.providerId, x.event.externalId) → u = v
  job : ∃ job, job.jobId = webhookJobId x.providerId x.event.externalId ∧ job.event = x.event ∧
    s.jobs = w.jobs ++ [job]

/-- **One row and one job**, however the deliveries interleave. -/
theorem one_row_one_job [Nonempty ι] (hv : x.Verified registry) (hn : ¬ x.Stored w)
    (hw : ∀ j ∈ w.jobs, j.jobId ≠ webhookJobId x.providerId x.event.externalId)
    (hr : Conf.Reach InboundWorks (startDeliveries registry x w) c)
    (hend : ∀ t, ∃ r, c.thr t = .ofExcept r) : x.Once w c.st := by
  obtain ⟨G, hi, hover, -, henq⟩ := deliveryRace_ended hv hw hr hend
  have hrow : x.Stored c.st := hi.contest.row_of_over hover
  obtain ⟨v, hv, hk⟩ := hrow
  refine ⟨⟨v, hv, hk, fun u hu huk => Table.eq_of_uniq hu hv (huk.trans hk.symm)⟩, ?_⟩
  rcases hi.contest.present ⟨v, hv, hk⟩ with ⟨t, ht⟩ | ⟨h₀, -⟩
  · rcases hi.queued with ⟨-, hnone⟩ | ⟨job, -, hid, hevent, hjobs, -⟩
    · have he := henq t ht
      rw [hnone] at he
      cases he
    · exact ⟨job, hid, hevent, hjobs⟩
  · exact absurd h₀ hn

end Runs

/-- **Concurrent deliveries of one event**, more than none, of an event that is not stored, while
the database and the queue work: when all have ended, there is one row and one job, and all of them
were answered `received`, if and only if at most one of them looked the key up before the row was
there. -/
theorem concurrent_deliveries_iff {ι : Type} [DecidableEq ι] [Fintype ι] [Nonempty ι]
    (registry : ProviderRegistry) (x : Deliveries ι) (hv : x.Verified registry) (w : World)
    (hn : ¬ x.Stored w)
    (hw : ∀ j ∈ w.jobs, j.jobId ≠ webhookJobId x.providerId x.event.externalId)
    (c : Conf machine ι Received)
    (hr : Conf.Reach InboundWorks (startDeliveries registry x w) c)
    (hend : ∀ t, ∃ r, c.thr t = .ofExcept r) :
    (x.Once w c.st ∧ ∀ t, c.thr t = .ret ⟨true⟩) ↔ earlyLookups w c.trace ≤ 1 := by
  obtain ⟨G, hi, hover, hans, -⟩ := deliveryRace_ended hv hw hr hend
  rw [← hi.contest.nobody_lost_iff hover]
  constructor
  · rintro ⟨-, hret⟩ t
    exact (hans t).mpr (hret t)
  · intro hlost
    exact ⟨one_row_one_job hv hn hw hr hend, fun t => (hans t).mp (hlost t)⟩

/-! ### Two deliveries -/

/-- The delivery of a payment that was captured, twice. -/
def twoDeliveries : Deliveries Bool where
  providerId := "stripe"
  event := ⟨"stripe", "payment_intent.succeeded", "pi_1", .captured,
    stripeEvent "payment_intent.succeeded"⟩
  raw _ := stripeBody "payment_intent.succeeded"
  headers _ := [("stripe-signature", "t=2,v1=b")]

theorem verified_twoDeliveries : twoDeliveries.Verified stripeRegistry :=
  ⟨stripeAdapter, rfl, fun _ => rfl⟩

def bothStart : Conf machine Bool Received :=
  startDeliveries stripeRegistry twoDeliveries .empty

/-- A decision that gives the id `id`. -/
def withId (id : String) : Decision := { newId := fun _ => id }

/-- The second delivery starts when the first one has ended. -/
def inTurn : List (Bool × Decision) :=
  [(true, withId "a"), (true, withId "a"), (true, withId "b"), (false, withId "b")]

/-- Both look the key up, and then both insert. -/
def atOnce : List (Bool × Decision) :=
  [(true, withId "a"), (false, withId "a"), (true, withId "a"), (false, withId "b"),
    (true, withId "b")]

/-- The id is new in a table with no row, or with the row `a`. -/
theorem inboundWorks_withId {id : String} {t : Bool} {o : Op} {s : World}
    (hs : (s.inbound.rows.map (·.id)) = [] ∨ (s.inbound.rows.map (·.id)) = ["a"] ∧ "a" ≠ id) :
    InboundWorks t o (withId id) s := by
  refine ⟨rfl, fun w hw => ?_⟩
  have hmem : w.id ∈ s.inbound.rows.map (·.id) := List.mem_map_of_mem hw
  rcases hs with h | ⟨h, hne⟩
  · rw [h] at hmem
    cases hmem
  · rw [h, List.mem_singleton] at hmem
    rw [hmem]
    exact hne

theorem plays_inTurn : Conf.Plays InboundWorks bothStart inTurn :=
  ⟨inboundWorks_withId (.inl rfl), inboundWorks_withId (.inl rfl),
    inboundWorks_withId (.inr ⟨rfl, by decide⟩), inboundWorks_withId (.inr ⟨rfl, by decide⟩),
    trivial⟩

theorem plays_atOnce : Conf.Plays InboundWorks bothStart atOnce :=
  ⟨inboundWorks_withId (.inl rfl), inboundWorks_withId (.inl rfl), inboundWorks_withId (.inl rfl),
    inboundWorks_withId (.inr ⟨rfl, by decide⟩), inboundWorks_withId (.inr ⟨rfl, by decide⟩),
    trivial⟩

theorem concurrent_deliveries_sample :
    twoDeliveries.Once .empty (bothStart.play inTurn).st ∧
      ∀ t, (bothStart.play inTurn).thr t = .ret ⟨true⟩ := by
  refine (concurrent_deliveries_iff stripeRegistry twoDeliveries verified_twoDeliveries .empty
    (fun ⟨_, hw, _⟩ => Table.not_mem_empty hw) (fun _ hj => absurd hj List.not_mem_nil) _
    (Conf.reach_play plays_inTurn) fun t => ?_).mpr (by decide +kernel)
  cases t with
  | true => exact ⟨.ok ⟨true⟩, rfl⟩
  | false => exact ⟨.ok ⟨true⟩, rfl⟩

/-- Two deliveries that look the key up before the row is there: one of them is answered with the
error of the unique constraint. -/
theorem concurrent_delivery_refused : ¬ ∀ c, Conf.Reach InboundWorks bothStart c →
    (∀ t, ∃ r, c.thr t = .ofExcept r) → ∀ t, c.thr t = .ret ⟨true⟩ := by
  intro h
  have hend : ∀ t, ∃ r, (bothStart.play atOnce).thr t = .ofExcept r := by
    intro t
    cases t with
    | true => exact ⟨.ok ⟨true⟩, rfl⟩
    | false => exact ⟨.error (.uniqueViolation ["providerId", "externalId"]), rfl⟩
  have ht := h _ (Conf.reach_play plays_atOnce) hend false
  cases ht

end Pasarela
