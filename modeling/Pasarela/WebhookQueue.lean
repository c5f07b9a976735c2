import Pasarela.Conc.Serial
import Pasarela.WebhookDedup

/-!
# An acknowledged webhook and the queue

Verified deliveries of any providers, one after another, redeliveries included; the lookup, the
insert and the queue may fail at each of them.

* `ProviderDelivery.Stranded`: the row of the delivery is stored, and the queue fails then. The
  delivery is answered with an error, but its key is recorded, so a redelivery passes for a
  duplicate.
* `ProviderDelivery.Accepted`: how a delivery ends; `accept_alone`.
* `Backed`: a delivery that is answered `received` has a job for its key, added by it or by an
  earlier one. `acknowledged_enqueued_iff`: all have, if and only if no delivery with a working
  lookup follows a stranded one for the same key.

The ids of the adapters have no colon, so the job ids of two keys are different.
-/

namespace Pasarela

open Conc (Alone Prog)
open Store (Table)

/-- A delivery to the endpoint of a provider. -/
structure ProviderDelivery where
  providerId : String
  delivery : Delivery

namespace ProviderDelivery

/-- What the deduplication goes by. -/
def key (x : ProviderDelivery) : String × String := (x.providerId, x.delivery.event.externalId)

/-- The provider is registered, its id is one of the adapters', and it verifies the delivery. -/
def Verified (registry : ProviderRegistry) (x : ProviderDelivery) : Prop :=
  ∃ provider, registry.get x.providerId = .ok provider ∧ ':' ∉ x.providerId.toList ∧
    provider.verifyWebhook x.delivery.raw x.delivery.headers = .ok x.delivery.event

/-- The delivery, handled. -/
def handle (registry : ProviderRegistry) (x : ProviderDelivery) (s : World) : Handled :=
  x.delivery.handle registry x.providerId s

/-- What the environment decides at the lookup. -/
def lookup (x : ProviderDelivery) : Decision :=
  x.delivery.ω (.findInbound x.providerId x.delivery.event.externalId)

/-- What the environment decides at the insert. -/
def store (x : ProviderDelivery) : Decision :=
  x.delivery.ω (.createInbound x.providerId x.delivery.event x.delivery.headers)

/-- What the environment decides at the queue. -/
def add (x : ProviderDelivery) : Decision :=
  x.delivery.ω (.enqueueWebhook x.providerId (x.store.newId .webhookInbound) x.delivery.event)

/-- The delivery stores its row in state `s`. -/
structure Stores (x : ProviderDelivery) (s : World) : Prop where
  lookup : x.lookup.fail = none
  unseen : ¬ Recorded x.key.1 x.key.2 s
  store : x.store.fail = none
  fresh : ∀ w ∈ s.inbound, w.id ≠ x.store.newId .webhookInbound

/-- The delivery stores its row in state `s`, and the queue fails (module doc). -/
def Stranded (x : ProviderDelivery) (s : World) : Prop := x.Stores s ∧ x.add.fail ≠ none

end ProviderDelivery

/-- The deliveries, one after another, each with how it was handled. -/
def receive (registry : ProviderRegistry) :
    World → List ProviderDelivery → List (ProviderDelivery × Handled)
  | _, [] => []
  | s, x :: xs => (x, x.handle registry s) :: receive registry (x.handle registry s).outcome.state xs

/-- The delivery `e`, after the deliveries `l`, has a job for its key if it is answered `received`
(module doc). -/
def Backed (l : List (ProviderDelivery × Handled)) (e : ProviderDelivery × Handled) : Prop :=
  e.2.outcome.result = .ok ⟨true⟩ →
    ∃ e' ∈ l ++ [e], e'.1.key = e.1.key ∧ e'.2.Enqueued e'.1.delivery.event

/-- Each delivery is backed by the ones before it. -/
def AllBacked (h : List (ProviderDelivery × Handled)) : Prop :=
  ∀ l e r, h = l ++ e :: r → Backed l e

/-- No delivery with a working lookup follows a stranded one for the same key. -/
def NoneFollowsStranded (h : List (ProviderDelivery × Handled)) : Prop :=
  h.Pairwise fun e e' => e.1.key = e'.1.key → e.1.Stranded e.2.before → e'.1.lookup.fail ≠ none

/-! ## Keys and job ids -/

/-- The job ids of two keys are different. -/
theorem webhookJobId_key {p p' e e' : String} (hp : ':' ∉ p.toList) (hp' : ':' ∉ p'.toList)
    (h : webhookJobId p e = webhookJobId p' e') : p = p' ∧ e = e' :=
  Js.colon_inj hp hp' h

/-- The queue has jobs for stored deliveries only. -/
def Queued (s : World) : Prop :=
  ∀ j ∈ s.jobs, ∃ p e, ':' ∉ p.toList ∧ j.jobId = webhookJobId p e ∧ Recorded p e s

/-! ## One delivery -/

/-- How a delivery ends (module doc). -/
inductive ProviderDelivery.Accepted (x : ProviderDelivery) (s : World) :
    Except Err Received → World → Prop
  /-- The key is recorded. -/
  | known (hl : x.lookup.fail = none) (hr : Recorded x.key.1 x.key.2 s) : Accepted x s (.ok ⟨true⟩) s
  /-- The lookup fails, or the insert. -/
  | failed (e : Err) (hl : x.lookup.fail = none → ¬ Recorded x.key.1 x.key.2 s)
      (hs : ¬ x.Stores s) : Accepted x s (.error e) s
  | stranded (e : Err) {t : Table WebhookInbound.id WebhookInbound.providerKey}
      {inbound : WebhookInbound} (hs : x.Stranded s) (hk : inbound.providerKey = x.key)
      (ht : s.inbound.insert inbound = .ok t) : Accepted x s (.error e) { s with inbound := t }
  | enqueued {t : Table WebhookInbound.id WebhookInbound.providerKey} {inbound : WebhookInbound}
      {job : WebhookJob} (hs : x.Stores s) (hn : ¬ x.Stranded s) (hk : inbound.providerKey = x.key)
      (ht : s.inbound.insert inbound = .ok t) (he : job.event = x.delivery.event)
      (hid : job.jobId = webhookJobId x.key.1 x.key.2) :
      Accepted x s (.ok ⟨true⟩) { s with inbound := t, jobs := addJob job s.jobs }

section Accept

variable {x : ProviderDelivery} {s : World}

theorem ProviderDelivery.Stores.of_inserted (hl : x.lookup.fail = none)
    (hr : ¬ Recorded x.key.1 x.key.2 s) (hs : x.store.fail = none)
    {t : Table WebhookInbound.id WebhookInbound.providerKey}
    (ht : s.inbound.insert (newInbound x.store x.providerId x.delivery.event x.delivery.headers) =
      .ok t) : x.Stores s :=
  ⟨hl, hr, hs, fun w hw => (Table.insert_ok ht).2.1 w hw⟩

/-- The queue, after the row was stored. -/
theorem enqueue_alone (hs : x.Stores s) {t : Table WebhookInbound.id WebhookInbound.providerKey}
    (ht : s.inbound.insert (newInbound x.store x.providerId x.delivery.event x.delivery.headers) =
      .ok t) :
    Alone (M := machine) (fun o d => d = x.delivery.ω o) (x.Accepted s)
      ((request (.enqueueWebhook x.providerId (x.store.newId .webhookInbound)
        x.delivery.event)).bind fun _ => .ret ⟨true⟩) { s with inbound := t } := by
  refine Alone.perform_bind fun d r s' hd hx => ?_
  obtain rfl : d = x.add := hd
  replace hx : exec (.enqueueWebhook x.providerId (x.store.newId .webhookInbound)
    x.delivery.event) x.add { s with inbound := t } = (r, s') := hx
  cases hf : x.add.fail with
  | some e =>
    rw [exec_of_fail (o := .enqueueWebhook _ _ _) rfl hf] at hx
    cases hx
    exact .stranded e ⟨hs, by rw [hf]; exact Option.some_ne_none e⟩ rfl ht
  | none =>
    rw [exec_enqueueWebhook hf] at hx
    cases hx
    exact .enqueued hs (fun h => h.2 hf) rfl ht rfl rfl

/-- The insert and the queue, after the lookup found nothing. -/
theorem store_alone {g : WebhookInbound → Service Received} (hl : x.lookup.fail = none)
    (hkey : ∀ w ∈ s.inbound, w.providerKey ≠ x.key)
    (hg : ∀ w, g w = (request (.enqueueWebhook x.providerId w.id x.delivery.event)).bind
      fun _ => .ret ⟨true⟩) :
    Alone (M := machine) (fun o d => d = x.delivery.ω o) (x.Accepted s)
      ((request (.createInbound x.providerId x.delivery.event x.delivery.headers)).bind g) s := by
  have hunseen : ¬ Recorded x.key.1 x.key.2 s := fun ⟨w, hw, hk⟩ => hkey w hw hk
  refine Alone.perform_bind fun d r s' hd hx => ?_
  obtain rfl : d = x.store := hd
  replace hx : exec (.createInbound x.providerId x.delivery.event x.delivery.headers) x.store s =
    (r, s') := hx
  rcases exec_createInbound hx with ⟨e, rfl, rfl⟩ | ⟨rfl, ht, hs'⟩
  · refine .failed e (fun _ => hunseen) fun hs => ?_
    obtain ⟨t, -, hok⟩ := @exec_createInbound_of_fresh _ _ _ _ x.delivery.headers hs.store
      hs.fresh hkey
    rw [hok] at hx
    cases hx
  · have hstore : x.store.fail = none := by
      cases hf : x.store.fail with
      | none => rfl
      | some e =>
        rw [exec_of_fail (o := .createInbound _ _ _) rfl hf] at hx
        cases hx
    show Alone (M := machine) _ _ (g _) s'
    rw [hg, hs']
    exact enqueue_alone (.of_inserted hl hunseen hstore ht) ht

theorem accept_alone (x : ProviderDelivery) (s : World) :
    Alone (M := machine) (fun o d => d = x.delivery.ω o) (x.Accepted s)
      (WebhooksController.accept x.providerId x.delivery.event x.delivery.headers) s := by
  refine Alone.perform_bind fun d r s' hd hx => ?_
  obtain rfl : d = x.lookup := hd
  replace hx : exec (.findInbound x.providerId x.delivery.event.externalId) x.lookup s = (r, s') := hx
  cases hf : x.lookup.fail with
  | some e =>
    rw [exec_of_fail (o := .findInbound _ _) rfl hf] at hx
    cases hx
    refine .failed e (fun h => ?_) fun hs => ?_
    · rw [hf] at h
      cases h
    · have hlookup := hs.lookup
      rw [hf] at hlookup
      cases hlookup
  | none =>
    rw [exec_findInbound hf] at hx
    obtain ⟨rfl, rfl⟩ := Prod.mk.inj hx
    cases hfind : s.inbound.rows.find? fun w =>
        w.providerKey = (x.providerId, x.delivery.event.externalId) with
    | some w =>
      exact .known hf ⟨w, List.mem_of_find?_eq_some hfind,
        by simpa [ProviderDelivery.key] using List.find?_some hfind⟩
    | none =>
      refine store_alone hf (fun w hw => ?_) fun _ => rfl
      simpa [ProviderDelivery.key] using List.find?_eq_none.mp hfind w hw

end Accept

/-- What the result of a delivery, its row and its job are to one another. -/
structure ProviderDelivery.Accounted (x : ProviderDelivery) (s : World) (h : Handled) : Prop where
  queued : Queued h.outcome.state
  recorded : ∀ k : String × String, Recorded k.1 k.2 h.outcome.state ↔
    Recorded k.1 k.2 s ∨ x.key = k ∧ (x.Stranded s ∨ h.Enqueued x.delivery.event)
  unseen : x.Stranded s ∨ h.Enqueued x.delivery.event → ¬ Recorded x.key.1 x.key.2 s
  exclusive : x.Stranded s → ¬ h.Enqueued x.delivery.event
  received : h.outcome.result = .ok ⟨true⟩ ↔
    h.Enqueued x.delivery.event ∨ Recorded x.key.1 x.key.2 s ∧ x.lookup.fail = none

theorem Queued.insert {s : World} (hq : Queued s) {w : WebhookInbound}
    {t : Table WebhookInbound.id WebhookInbound.providerKey} (ht : s.inbound.insert w = .ok t) :
    Queued { s with inbound := t } := by
  intro j hj
  obtain ⟨p, e, hp, hid, hr⟩ := hq j hj
  exact ⟨p, e, hp, hid, (recorded_insert ht s.jobs).mpr (.inl hr)⟩

/-- The queue takes the job of a delivery whose key is not recorded. -/
theorem Queued.addJob {s : World} (hq : Queued s) {p e : String} (hp : ':' ∉ p.toList)
    (hr : ¬ Recorded p e s) {job : WebhookJob} (hid : job.jobId = webhookJobId p e) :
    Pasarela.addJob job s.jobs = s.jobs ++ [job] := by
  refine addJob_of_new fun j hj hjid => ?_
  obtain ⟨p', e', hp', hid', hr'⟩ := hq j hj
  obtain ⟨rfl, rfl⟩ := webhookJobId_key hp' hp (hid'.symm.trans (hjid.trans hid))
  exact hr hr'

/-- **One delivery.** -/
theorem ProviderDelivery.Accepted.accounted {x : ProviderDelivery} {s s' : World}
    {r : Except Err Received} (h : x.Accepted s r s') (hcolon : ':' ∉ x.providerId.toList)
    (hq : Queued s) (tr : List (Conc.Event machine)) : x.Accounted s ⟨s, ⟨r, s', tr⟩⟩ := by
  cases h with
  | known hl hr =>
    have hn : ¬ Handled.Enqueued ⟨s, ⟨.ok ⟨true⟩, s, tr⟩⟩ x.delivery.event := fun h =>
      h.not_dropped rfl
    have hs : ¬ x.Stranded s := fun h => h.1.unseen hr
    exact ⟨hq, fun k => by simp [hn, hs], fun h => by simp [hn, hs] at h, fun h => absurd h hs,
      ⟨fun _ => .inr ⟨hr, hl⟩, fun _ => rfl⟩⟩
  | failed e hl hs =>
    have hn : ¬ Handled.Enqueued ⟨s, ⟨.error e, s, tr⟩⟩ x.delivery.event := fun h =>
      h.not_dropped rfl
    have hs' : ¬ x.Stranded s := fun h => hs h.1
    refine ⟨hq, fun k => by simp [hn, hs'], fun h => by simp [hn, hs'] at h,
      fun h => absurd h hs', ⟨fun h => (by cases h), fun h => ?_⟩⟩
    rcases h with h | ⟨hr, hf⟩
    · exact absurd h hn
    · exact absurd hr (hl hf)
  | @stranded e t inbound hs hk ht =>
    have hn : ¬ Handled.Enqueued ⟨s, ⟨.error e, { s with inbound := t }, tr⟩⟩ x.delivery.event := by
      rintro ⟨job, -, hj⟩
      have hlen := congrArg List.length hj
      simp at hlen
    refine ⟨hq.insert ht, fun k => ?_, fun _ => hs.1.unseen, fun _ => hn,
      ⟨fun h => (by cases h), fun h => ?_⟩⟩
    · rw [recorded_insert ht s.jobs, hk]
      simp [hs]
    · rcases h with h | ⟨hr, -⟩
      · exact absurd h hn
      · exact absurd hr hs.1.unseen
  | @enqueued t inbound job hs hn hk ht he hid =>
    -- the key is new, so the id of the job is, and the queue takes it
    have hadd : addJob job s.jobs = s.jobs ++ [job] := hq.addJob hcolon hs.unseen hid
    have henq : Handled.Enqueued
        ⟨s, ⟨.ok ⟨true⟩, { s with inbound := t, jobs := addJob job s.jobs }, tr⟩⟩
        x.delivery.event := ⟨job, he, hadd⟩
    have hrec : ∀ k : String × String,
        Recorded k.1 k.2 { s with inbound := t, jobs := addJob job s.jobs } ↔
          Recorded k.1 k.2 s ∨ x.key = k := by
      intro k
      rw [recorded_insert ht, hk]
    refine ⟨fun j hj => ?_, fun k => ?_, fun _ => hs.unseen, fun h => absurd h hn,
      ⟨fun _ => .inl henq, fun _ => rfl⟩⟩
    · rw [hadd] at hj
      rcases List.mem_append.mp hj with hj | hj
      · obtain ⟨p, e, hp, hjid, hr⟩ := hq j hj
        exact ⟨p, e, hp, hjid, (hrec (p, e)).mpr (.inl hr)⟩
      · rw [List.mem_singleton.mp hj]
        exact ⟨x.key.1, x.key.2, hcolon, hid, (hrec x.key).mpr (.inr rfl)⟩
    · rw [hrec, and_iff_left (.inr henq)]

theorem handle_accounted {registry : ProviderRegistry} {x : ProviderDelivery} {s : World}
    (hv : x.Verified registry) (hq : Queued s) : x.Accounted s (x.handle registry s) := by
  obtain ⟨provider, hp, hcolon, hverify⟩ := hv
  have hrun := (accept_alone x s).run fun _ => rfl
  have hout : (x.delivery.handle registry x.providerId s).outcome = _ := handle_outcome hp hverify
  rw [← hout] at hrun
  exact ProviderDelivery.Accepted.accounted hrun hcolon hq _

/-! ## A sequence of deliveries -/

/-- Each delivery is backed by the ones before it, or its key has a job already. -/
def BackedFrom (E : String × String → Prop) (h : List (ProviderDelivery × Handled)) : Prop :=
  ∀ l e r, h = l ++ e :: r → e.2.outcome.result = .ok ⟨true⟩ →
    E e.1.key ∨ ∃ e' ∈ l ++ [e], e'.1.key = e.1.key ∧ e'.2.Enqueued e'.1.delivery.event

theorem backedFrom_cons {E : String × String → Prop} {e : ProviderDelivery × Handled}
    {h : List (ProviderDelivery × Handled)} :
    BackedFrom E (e :: h) ↔
      (e.2.outcome.result = .ok ⟨true⟩ → E e.1.key ∨ e.2.Enqueued e.1.delivery.event) ∧
        BackedFrom (fun k => E k ∨ e.1.key = k ∧ e.2.Enqueued e.1.delivery.event) h := by
  constructor
  · intro hb
    refine ⟨fun hok => ?_, fun l e' r hl hok => ?_⟩
    · rcases hb [] e h rfl hok with he | ⟨e', he', -, henq⟩
      · exact .inl he
      · rw [List.nil_append, List.mem_singleton] at he'
        rw [he'] at henq
        exact .inr henq
    · rcases hb (e :: l) e' r (by rw [hl]; rfl) hok with he | ⟨e'', he'', hk, henq⟩
      · exact .inl (.inl he)
      · rw [List.cons_append, List.mem_cons] at he''
        rcases he'' with rfl | he''
        · exact .inl (.inr ⟨hk, henq⟩)
        · exact .inr ⟨e'', he'', hk, henq⟩
  · rintro ⟨hhead, htail⟩ l e' r hl hok
    cases l with
    | nil =>
      obtain ⟨rfl, rfl⟩ := List.cons.inj hl
      rcases hhead hok with he | henq
      · exact .inl he
      · exact .inr ⟨e, by simp, rfl, henq⟩
    | cons a l =>
      obtain ⟨rfl, rfl⟩ := List.cons.inj hl
      rcases htail l e' r rfl hok with (he | ⟨hk, henq⟩) | ⟨e'', he'', hk, henq⟩
      · exact .inl he
      · exact .inr ⟨e, List.mem_cons_self, hk, henq⟩
      · exact .inr ⟨e'', List.mem_cons_of_mem _ he'', hk, henq⟩

theorem noneFollowsStranded_cons {e : ProviderDelivery × Handled}
    {h : List (ProviderDelivery × Handled)} :
    NoneFollowsStranded (e :: h) ↔
      (∀ e' ∈ h, e.1.key = e'.1.key → e.1.Stranded e.2.before → e'.1.lookup.fail ≠ none) ∧
        NoneFollowsStranded h :=
  List.pairwise_cons

section Sequence

variable {registry : ProviderRegistry}

/-- The deliveries from a state in which the keys with `E` have a job. -/
theorem receive_backed_iff {xs : List ProviderDelivery} {s : World} {E : String × String → Prop}
    (hE : ∀ k, E k → Recorded k.1 k.2 s) (hq : Queued s) (hv : ∀ x ∈ xs, x.Verified registry) :
    BackedFrom E (receive registry s xs) ↔
      (∀ e ∈ receive registry s xs, Recorded e.1.key.1 e.1.key.2 s → ¬ E e.1.key →
        e.1.lookup.fail ≠ none) ∧ NoneFollowsStranded (receive registry s xs) := by
  induction xs generalizing s E with
  | nil =>
    refine ⟨fun _ => ⟨fun e he => absurd he List.not_mem_nil, List.Pairwise.nil⟩, fun _ l e r hl => ?_⟩
    exact absurd hl.symm (by simp [receive])
  | cons x xs ih =>
    have hx := handle_accounted (hv x List.mem_cons_self) hq
    have hE' : ∀ k, E k ∨ x.key = k ∧ (x.handle registry s).Enqueued x.delivery.event →
        Recorded k.1 k.2 (x.handle registry s).outcome.state := by
      rintro k (hk | ⟨hk, henq⟩)
      · exact (hx.recorded k).mpr (.inl (hE k hk))
      · exact (hx.recorded k).mpr (.inr ⟨hk, .inr henq⟩)
    rw [receive, backedFrom_cons, ih hE' hx.queued fun y hy => hv y (List.mem_cons_of_mem _ hy),
      noneFollowsStranded_cons, List.forall_mem_cons]
    constructor
    · rintro ⟨hhead, htail, hrest⟩
      refine ⟨⟨fun hr hne hf => ?_, fun e he hr hne => ?_⟩, fun e he hk hs => ?_, hrest⟩
      · rcases hhead (hx.received.mpr (.inr ⟨hr, hf⟩)) with h | h
        · exact hne h
        · exact hx.unseen (.inr h) hr
      · refine htail e he ((hx.recorded _).mpr (.inl hr)) ?_
        rintro (h | ⟨hk, h⟩)
        · exact hne h
        · exact hx.unseen (.inr h) (by rw [show x.key = e.1.key from hk]; exact hr)
      · refine htail e he ((hx.recorded _).mpr (.inr ⟨hk, .inl hs⟩)) ?_
        rintro (h | ⟨-, h⟩)
        · exact hx.unseen (.inl hs) (by rw [show x.key = e.1.key from hk]; exact hE _ h)
        · exact hx.exclusive hs h
    · rintro ⟨⟨hhead, htail⟩, hstranded, hrest⟩
      refine ⟨fun hok => ?_, fun e he hr hne => ?_, hrest⟩
      · rcases hx.received.mp hok with h | ⟨hr, hf⟩
        · exact .inr h
        · exact .inl (by_contra fun hne => hhead hr hne hf)
      · rcases (hx.recorded _).mp hr with hr | ⟨hk, hs | h⟩
        · exact htail e he hr fun h => hne (.inl h)
        · exact hstranded e he hk hs
        · exact absurd (.inr ⟨hk, h⟩) hne

end Sequence

/-- **When an acknowledged webhook is in the queue**: over every sequence of verified deliveries,
whatever fails, each delivery that is answered `received` has a job for its key, which it or an
earlier one added, if and only if no delivery with a working lookup follows a stranded one for the
same key. -/
theorem acknowledged_enqueued_iff (registry : ProviderRegistry) (s : World)
    (hs : ∀ p e, ¬ Recorded p e s) (hj : s.jobs = []) (xs : List ProviderDelivery)
    (hv : ∀ x ∈ xs, x.Verified registry) :
    AllBacked (receive registry s xs) ↔ NoneFollowsStranded (receive registry s xs) := by
  have hq : Queued s := by
    intro j hmem
    rw [hj] at hmem
    cases hmem
  have hnone : ∀ e ∈ receive registry s xs, Recorded e.1.key.1 e.1.key.2 s →
      ¬ False → e.1.lookup.fail ≠ none := fun e _ hr => absurd hr (hs _ _)
  have hiff := receive_backed_iff (E := fun _ => False) (fun _ h => h.elim) hq hv
  rw [and_iff_right hnone] at hiff
  rw [← hiff]
  refine forall_congr' fun l => forall_congr' fun e => forall_congr' fun r => ?_
  rw [Backed, false_or]

/-! ### A delivery of Stripe, and its redelivery -/

theorem mem_receive {registry : ProviderRegistry} {xs : List ProviderDelivery} {s : World}
    {e : ProviderDelivery × Handled} (he : e ∈ receive registry s xs) : e.1 ∈ xs := by
  induction xs generalizing s with
  | nil => cases he
  | cons x xs ih =>
    rcases List.mem_cons.mp he with rfl | he
    · exact List.mem_cons_self
    · exact List.mem_cons_of_mem _ (ih he)

/-- No delivery is stranded while the queue works. -/
theorem noneFollowsStranded_of_add {registry : ProviderRegistry} {xs : List ProviderDelivery}
    {s : World} (h : ∀ x ∈ xs, x.add.fail = none) :
    NoneFollowsStranded (receive registry s xs) :=
  List.pairwise_of_forall_mem_list fun e he _ _ _ hs => absurd (h e.1 (mem_receive he)) hs.2

/-- The capture of the payment intent `pi_1`, delivered under the decisions `ω`. -/
def captureDelivery (ω : Op → Decision) : ProviderDelivery :=
  ⟨"stripe", stripeBody "payment_intent.succeeded", [("stripe-signature", "t=2,v1=b")],
    ⟨"stripe", "payment_intent.succeeded", "pi_1", .captured,
      stripeEvent "payment_intent.succeeded"⟩, ω⟩

theorem verified_captureDelivery (ω : Op → Decision) :
    (captureDelivery ω).Verified stripeRegistry :=
  ⟨stripeAdapter, rfl, (by decide : ':' ∉ "stripe".toList), rfl⟩

/-- The lookup fails at the first delivery, and everything works at the two that follow. -/
def lookupFails : List ProviderDelivery := [
  captureDelivery fun o => match o with
    | .findInbound _ _ => { fail := some (.other "Can't reach database server") }
    | _ => {},
  captureDelivery fun _ => { newId := fun _ => "a" },
  captureDelivery fun _ => { newId := fun _ => "b" }]

theorem acknowledged_sample : AllBacked (receive stripeRegistry .empty lookupFails) := by
  have hall : ∀ x ∈ lookupFails, x.Verified stripeRegistry ∧ x.add.fail = none := by
    intro x hx
    rcases List.mem_cons.mp hx with rfl | hx
    · exact ⟨verified_captureDelivery _, rfl⟩
    rcases List.mem_cons.mp hx with rfl | hx
    · exact ⟨verified_captureDelivery _, rfl⟩
    · rw [List.mem_singleton.mp hx]
      exact ⟨verified_captureDelivery _, rfl⟩
  exact (acknowledged_enqueued_iff stripeRegistry .empty
    (fun _ _ ⟨_, hw, _⟩ => Table.not_mem_empty hw) rfl lookupFails fun x hx => (hall x hx).1).mpr
    (noneFollowsStranded_of_add fun x hx => (hall x hx).2)

/-- The queue fails at the first delivery, and everything works at the second. -/
def queueFails : List ProviderDelivery := [
  captureDelivery fun o => match o with
    | .enqueueWebhook _ _ _ => { fail := some (.other "Connection is closed.") }
    | _ => { newId := fun _ => "a" },
  captureDelivery fun _ => { newId := fun _ => "b" }]

/-- The redelivery is answered `received`, and no job was ever added. -/
theorem redelivery_not_enqueued : ¬ ∀ (registry : ProviderRegistry) (s : World)
    (xs : List ProviderDelivery), (∀ p e, ¬ Recorded p e s) → s.jobs = [] →
    (∀ x ∈ xs, x.Verified registry) → AllBacked (receive registry s xs) := by
  intro h
  have hb := h stripeRegistry .empty queueFails (fun _ _ ⟨_, hw, _⟩ => Table.not_mem_empty hw) rfl
    fun x hx => by
      rcases List.mem_cons.mp hx with rfl | hx
      · exact verified_captureDelivery _
      · rw [List.mem_singleton.mp hx]
        exact verified_captureDelivery _
  have hjobs : ∀ e ∈ receive stripeRegistry .empty queueFails, e.2.outcome.state.jobs.length = 0 := by
    intro e he
    rcases List.mem_cons.mp he with rfl | he
    · rfl
    · rw [List.mem_singleton.mp he]
      rfl
  obtain ⟨e', he', -, job, -, hjob⟩ := hb [_] _ [] rfl rfl
  have hlen := hjobs e' he'
  rw [hjob] at hlen
  simp at hlen

end Pasarela
