import Pasarela.Durability

/-!
# The workers settle on the provider's word

The provider has made up its mind: `word providerId externalId` is the status of a charge, which
every lookup answers and every webhook tells. Any number of attempts at webhook jobs and of
reconciliations run, at any time and overlapping.

* `settledStatus word p`: the status that the payment `p` comes to: the one of the provider, if the
  state machine allows it, and otherwise its own.
* `Comes word p₀ q`: the row `q` of the payment `p₀`: it has its first status or the settled one.
* `SettleStage`: a worker that is about to write writes the settled status. A reconciliation that
  found nothing to write found it settled.
* `reconciliation_settles`: every row comes to it, and a reconciliation that ends has brought it
  there, for good.
-/

namespace Pasarela

open Conc (Conf Event Prog Proto)
open ReconciliationService (transition)
open Store (Table)

section Words

variable (word : String → String → ChargeStatus)

/-- Where the provider's word takes the payment (module doc). -/
def toldStatus (p : Payment) : Option PaymentStatus :=
  p.externalId.bind fun externalId => transition p.status (word p.providerId externalId)

def settledStatus (p : Payment) : PaymentStatus := (toldStatus word p).getD p.status

/-- A row of the payment (module doc). -/
structure Comes (p₀ q : Payment) : Prop where
  core : q.core = p₀.core
  externalId : q.externalId = p₀.externalId
  status : q.status = p₀.status ∨ q.status = settledStatus word p₀

/-- The worker repeats the provider's word. -/
def Repeats : ServiceCall → Prop
  | .payments _ => False
  | .webhook job => job.event.status = word job.event.providerId job.event.externalId
  | .reconcile _ => True

/-- The lookups answer the provider's word. -/
def AnswersWord {ι : Type} (_ : ι) (o : Op) (d : Decision) (_ : World) : Prop :=
  ∀ providerId externalId result, o = .retrieveCharge providerId externalId →
    d.retrieve = .ok result → result.status = word providerId externalId

/-- The payment `id` is settled, if it has a name at its provider. -/
def SettledRow (w s : World) (id : String) : Prop :=
  ∀ q ∈ s.payments, q.id = id → q.externalId.filter (· ≠ "") ≠ none →
    ∀ p₀ ∈ w.payments, p₀.id = id → q.status = settledStatus word p₀

/-- How far a worker is (module doc). -/
inductive SettleStage where
  | idle
  | writing (id : String) (status : PaymentStatus)
  | done (id : String)

def settleFact (w : World) (g : SettleStage) (s : World) : Prop :=
  match g with
  | .idle => True
  | .writing id status => ∃ p₀ ∈ w.payments, p₀.id = id ∧ status = settledStatus word p₀
  | .done id => SettledRow word w s id

/-- The rows and the workers. -/
structure Settling {ι : Type} (w : World) (G : ι → SettleStage) (s : World) : Prop where
  durable : w.Durable s
  rows : ∀ q ∈ s.payments, ∃ p₀ ∈ w.payments, Comes word p₀ q
  fact : ∀ t, settleFact word w (G t) s

def settleProto {ι : Type} (w : World) : Proto machine ι SettleStage where
  allow := AnswersWord word
  inv G s _ := Settling word w G s

end Words

/-! ## The status -/

section Status

variable {word : String → String → ChargeStatus} {w s s' : World} {p₀ p q : Payment}
  {st : PaymentStatus} {d : Decision}

/-- The status after a transition is one that no word of the same provider moves. -/
theorem transition_told {source : PaymentStatus} {reported : ChargeStatus}
    (h : transition source reported = some st) : transition st reported = none := by
  have hmap : statusMap reported = some st := (Option.filter_eq_some_iff.mp h).1
  unfold transition
  rw [hmap]
  simp

theorem toldStatus_of_same (hstatus : q.status = p.status) (hext : q.externalId = p.externalId)
    (hprov : q.providerId = p.providerId) : toldStatus word q = toldStatus word p := by
  unfold toldStatus
  rw [hstatus, hext, hprov]

/-- What a row is told is what the payment was told first, or nothing. -/
theorem Comes.told (h : Comes word p₀ q) :
    toldStatus word q = none ∧ q.status = settledStatus word p₀ ∨
      ∃ st, toldStatus word q = some st ∧ st = settledStatus word p₀ := by
  rcases h.status with hst | hst
  · have htold : toldStatus word q = toldStatus word p₀ :=
      toldStatus_of_same hst h.externalId (Payment.core_providerId h.core)
    unfold settledStatus
    rw [htold]
    cases e : toldStatus word p₀ with
    | none => exact .inl ⟨rfl, hst⟩
    | some st => exact .inr ⟨st, rfl, rfl⟩
  · cases e : toldStatus word p₀ with
    | none =>
      have hsame : q.status = p₀.status := by rw [hst, settledStatus, e]; rfl
      refine .inl ⟨?_, hst⟩
      rw [toldStatus_of_same hsame h.externalId (Payment.core_providerId h.core), e]
    | some st =>
      refine .inl ⟨?_, hst⟩
      obtain ⟨externalId, hext, htrans⟩ := Option.bind_eq_some_iff.mp e
      have hsettled : q.status = st := by rw [hst, settledStatus, e]; rfl
      unfold toldStatus
      rw [h.externalId, hext, Payment.core_providerId h.core, hsettled]
      exact transition_told htrans

theorem Comes.write (h : Comes word p₀ q) : Comes word p₀ (setStatus d (settledStatus word p₀) q) :=
  ⟨h.core, h.externalId, .inr rfl⟩

theorem Comes.unique (h : Comes word p₀ q) (hp₀ : p₀ ∈ w.payments) (hp : p ∈ w.payments)
    (hid : p.id = q.id) : p = p₀ :=
  Table.eq_of_key hp hp₀ (hid.trans (Payment.core_id h.core))

end Status

/-! ## One request -/

section Step

variable {ι : Type} {word : String → String → ChargeStatus} {w s s' : World}
  {G : ι → SettleStage} {g : SettleStage} {p q : Payment} {st : PaymentStatus} {d : Decision}

theorem settleFact_same (h : settleFact word w g s) (hs : s'.payments = s.payments) :
    settleFact word w g s' := by
  cases g with
  | idle => trivial
  | writing id st => exact h
  | done id =>
    intro q hq
    rw [hs] at hq
    exact h q hq

theorem settleFact_write (h : settleFact word w g s) {p₀ : Payment} (hp₀ : p₀ ∈ w.payments)
    (hu : s.payments.update p₀.id (setStatus d (settledStatus word p₀)) (keeps_setStatus d _) =
      some (q, s'.payments)) : settleFact word w g s' := by
  cases g with
  | idle => trivial
  | writing id st => exact h
  | done id =>
    intro x hx hid hext p hp hpid
    rcases (Table.mem_update hu).mp hx with ⟨hx, -⟩ | rfl
    · exact h x hx hid hext p hp hpid
    · obtain ⟨a, ha, haid, rfl, -⟩ := Table.update_some hu
      have hsame : p = p₀ := Table.eq_of_key hp hp₀ (hpid.trans (hid.symm.trans haid))
      rw [hsame]
      rfl

theorem Settling.write (h : Settling word w G s) {p₀ : Payment} (hp₀ : p₀ ∈ w.payments)
    (hd : s.Durable s') (hu : s.payments.update p₀.id (setStatus d (settledStatus word p₀))
      (keeps_setStatus d _) = some (q, s'.payments)) :
    (∀ x ∈ s'.payments, ∃ p ∈ w.payments, Comes word p x) ∧ w.Durable s' ∧
      (∀ u, settleFact word w (G u) s') ∧ SettledRow word w s' p₀.id := by
  refine ⟨fun x hx => ?_, h.durable.trans hd, fun u => settleFact_write (h.fact u) hp₀ hu,
    fun x hx hid _ p hp hpid => ?_⟩
  · rcases (Table.mem_update hu).mp hx with ⟨hx, -⟩ | rfl
    · exact h.rows x hx
    · obtain ⟨a, ha, haid, rfl, -⟩ := Table.update_some hu
      obtain ⟨p, hp, hcomes⟩ := h.rows a ha
      obtain rfl : p₀ = p := hcomes.unique hp hp₀ haid.symm
      exact ⟨p₀, hp₀, hcomes.write⟩
  · obtain rfl : p = p₀ := Table.eq_of_key hp hp₀ hpid
    rcases (Table.mem_update hu).mp hx with ⟨-, hne⟩ | rfl
    · exact absurd hid hne
    · obtain ⟨a, -, -, rfl, -⟩ := Table.update_some hu
      rfl

end Step

/-! ## The programs -/

section Programs

variable {ι : Type} [DecidableEq ι] {word : String → String → ChargeStatus} {w : World} {t : ι}
  {β : Type} {g : SettleStage}

theorem Settling.next {G : ι → SettleStage} {s : World} (hd : w.Durable s)
    (hrows : ∀ q ∈ s.payments, ∃ p₀ ∈ w.payments, Comes word p₀ q)
    (hfact : ∀ u, settleFact word w (G u) s) (hg : settleFact word w g s) :
    Settling word w (Function.update G t g) s := by
  refine ⟨hd, hrows, fun u => ?_⟩
  by_cases hu : u = t
  · rw [hu, Function.update_self]
    exact hg
  · rw [Function.update_of_ne hu]
    exact hfact u

theorem heard_wp {o : Op} {f : o.Ans → Service β} {Q : Except Err β → SettleStage → Prop}
    (ho : o.writesPayments = false)
    (h : ∀ s d r s', (∀ q ∈ s.payments, ∃ p₀ ∈ w.payments, Comes word p₀ q) →
      AnswersWord word t o d s → exec o d s = (r, s') →
      ∃ g', (settleFact word w g s → settleFact word w g' s) ∧
        (∀ a, r = .ok a → (settleProto word w).WP t Q (f a) g') ∧ ∀ e, r = .error e → Q (.error e) g') :
    (settleProto word w).WP t Q ((request o).bind f) g := by
  refine Proto.WP.perform_bind fun G s tr d r s' hG hi ha hx => ⟨trivial, ?_⟩
  obtain ⟨g', hg, hok, herr⟩ := h s d r s' hi.rows ha hx
  have hpay : s'.payments = s.payments := exec_payments ho hx
  have hfact := hi.fact t
  rw [hG] at hfact
  refine ⟨g', Settling.next (hi.durable.trans (exec_durable hx)) ?_
    (fun u => settleFact_same (hi.fact u) hpay) (settleFact_same (hg hfact) hpay), ?_⟩
  · rw [hpay]
    exact hi.rows
  · cases r with
    | ok a => exact hok a rfl
    | error e => exact herr e rfl

theorem settled_step {G : ι → SettleStage} {s s' : World} {tr : List (ι × Event machine)} {o : Op}
    {d : Decision} {r : Except Err o.Ans} {p : Payment} {st : PaymentStatus}
    (ho : o.checkedWrite = some (p, st)) (hG : G t = .writing p.id st)
    (hi : (settleProto word w).inv G s tr) (hx : exec o d s = (r, s')) :
    ∃ g', Settling word w (Function.update G t g') s' ∧ (∀ a, r = .ok a → g' = .done p.id) := by
  have hfact := hi.fact t
  rw [hG] at hfact
  obtain ⟨p₀, hp₀, hid, rfl⟩ := hfact
  rcases exec_checkedWrite ho hx with ⟨e, rfl, rfl⟩ | ⟨a, q, type, payload, rfl, -, hu, -⟩
  · exact ⟨.idle, Settling.next hi.durable hi.rows hi.fact trivial, fun _ h => by cases h⟩
  · rw [← hid] at hu ⊢
    obtain ⟨hrows, hd, hfact, hdone⟩ := Settling.write hi hp₀ (exec_durable hx) hu
    exact ⟨.done p₀.id, Settling.next hd hrows hfact hdone, fun _ _ => rfl⟩

/-- The stage of a worker that found the payment: it will write the settled status, or the payment
is settled. -/
theorem found_stage {s : World} {p : Payment} {externalId : String} (hp : p ∈ s.payments)
    (hrows : ∀ q ∈ s.payments, ∃ p₀ ∈ w.payments, Comes word p₀ q)
    (hext : p.externalId = some externalId) :
    (transition p.status (word p.providerId externalId) = none ∧
      settleFact word w (.done p.id) s) ∨
    ∃ st, transition p.status (word p.providerId externalId) = some st ∧
      settleFact word w (.writing p.id st) s := by
  have htold : toldStatus word p = transition p.status (word p.providerId externalId) := by
    unfold toldStatus
    rw [hext]
    rfl
  obtain ⟨p₀, hp₀, hcomes⟩ := hrows p hp
  rcases hcomes.told with ⟨hnone, hst⟩ | ⟨st, hsome, hst⟩
  · refine .inl ⟨htold.symm.trans hnone, fun q hq hid _ p₁ hp₁ hp₁id => ?_⟩
    obtain rfl : q = p := Table.eq_of_key hq hp hid
    obtain rfl : p₁ = p₀ := hcomes.unique hp₀ hp₁ hp₁id
    exact hst
  · exact .inr ⟨st, htold.symm.trans hsome, p₀, hp₀, (Payment.core_id hcomes.core).symm, hst⟩

/-- A reconciliation that ends has settled its payment. -/
abbrev EndsDone (id : String) (r : Except Err Unit) (g : SettleStage) : Prop := r = .ok () → g = .done id

theorem reconcile_settles (registry : ProviderRegistry) {id : String} :
    (settleProto word w).WP t (EndsDone id) (ReconciliationService.reconcileOne registry id) .idle := by
  refine heard_wp rfl fun s d r s' hrows _ hx => ?_
  obtain ⟨rfl, ⟨e, rfl⟩ | ⟨rfl, hnone⟩ | ⟨p, rfl, hp, hw⟩⟩ := exec_findPayment hx
  · exact ⟨.idle, fun h => h, (fun _ h => by cases h), fun _ _ h => by cases h⟩
  · refine ⟨.done id, fun _ q hq hid => ?_, (fun a h => ?_), fun _ h => by cases h⟩
    · have hholds := hnone q hq
      simp [PaymentWhere.holds, hid] at hholds
    · cases h
      exact fun _ => rfl
  obtain rfl : p.id = id := by simpa [PaymentWhere.holds, eq_comm] using hw
  cases hext : p.externalId.filter (· ≠ "") with
  | none =>
    refine ⟨.done p.id, fun _ q hq hid hne => ?_, (fun a h => ?_), fun _ h => by cases h⟩
    · rw [Table.eq_of_key hq hp hid] at hne
      exact absurd hext hne
    · cases h
      simp only [hext]
      exact fun _ => rfl
  | some externalId =>
    have hsome : p.externalId = some externalId := (Option.filter_eq_some_iff.mp hext).1
    -- the lookup will answer the word, so the outcome is known here
    have hrest : ∀ g, (transition p.status (word p.providerId externalId) = none ∧ g = .done p.id ∨
        ∃ st, transition p.status (word p.providerId externalId) = some st ∧ g = .writing p.id st) →
        (settleProto word w).WP t (EndsDone p.id)
          (ReconciliationService.reconcileFound registry p externalId) g := by
      intro g hg
      refine Proto.WP.ofExcept_bind (fun provider hprov => ?_) fun _ _ h => by cases h
      refine heard_wp rfl fun s d r s' _ ha hx =>
        ⟨g, fun h => h, (fun result h => ?_), fun _ _ h => by cases h⟩
      have hword : result.status = word p.providerId externalId := by
        rw [← ProviderRegistry.get_id hprov]
        refine ha _ _ result rfl ?_
        rw [← h]
        exact congrArg Prod.fst hx
      simp only [hword]
      rcases hg with ⟨htrans, rfl⟩ | ⟨st, htrans, rfl⟩
      · rw [htrans]
        exact fun _ => rfl
      · rw [htrans]
        refine Proto.WP.perform fun G s tr d r s' hG hi _ hx => ⟨trivial, ?_⟩
        obtain ⟨g', hi', hdone⟩ :=
          settled_step (o := .applyReconciliation p st result.raw) rfl hG hi hx
        exact ⟨g', hi', fun h => hdone () h⟩
    rcases found_stage hp hrows hsome with ⟨htrans, hdone⟩ | ⟨st, htrans, hwriting⟩
    · refine ⟨.done p.id, fun _ => hdone, (fun a h => ?_), fun _ h => by cases h⟩
      cases h
      simp only [hext]
      exact hrest _ (.inl ⟨htrans, rfl⟩)
    · refine ⟨.writing p.id st, fun _ => hwriting, (fun a h => ?_), fun _ h => by cases h⟩
      cases h
      simp only [hext]
      exact hrest _ (.inr ⟨st, htrans, rfl⟩)

theorem process_settles {job : WebhookJob}
    (hword : job.event.status = word job.event.providerId job.event.externalId) :
    (settleProto word w).WP t (fun _ _ => True) (WebhookProcessor.process job) .idle := by
  have hmark : ∀ g, (settleProto word w).WP t (fun _ _ => True)
      (WebhookProcessor.markProcessed job.webhookInboundId) g := fun g =>
    heard_wp rfl fun s d r s' _ _ _ => ⟨g, fun h => h, (fun _ _ => trivial), fun _ _ => trivial⟩
  refine heard_wp rfl fun s d r s' hrows _ hx => ?_
  obtain ⟨rfl, ⟨e, rfl⟩ | ⟨rfl, -⟩ | ⟨p, rfl, hp, hw⟩⟩ := exec_findPayment hx
  · exact ⟨.idle, fun h => h, (fun _ h => by cases h), fun _ _ => trivial⟩
  · refine ⟨.idle, fun h => h, (fun a h => ?_), fun _ _ => trivial⟩
    cases h
    trivial
  obtain ⟨hext, hprov⟩ := PaymentWhere.holds_external.mp hw
  have hstatus : job.event.status = word p.providerId job.event.externalId := by rw [hword, hprov]
  rcases found_stage hp hrows hext with ⟨htrans, -⟩ | ⟨st, htrans, hwriting⟩
  · refine ⟨.idle, fun _ => trivial, (fun a h => ?_), fun _ _ => trivial⟩
    cases h
    show (settleProto word w).WP t _ (WebhookProcessor.processFound job p) _
    unfold WebhookProcessor.processFound
    split
    · exact hmark _
    · rename_i st hmap
      split
      · exact hmark _
      · rename_i hne
        refine Proto.WP.ofExcept_bind (fun u hvalid => ?_) fun _ _ => trivial
        -- a transition that the state machine allows would have been made
        rw [← hstatus, transition, hmap, Option.filter_eq_none_iff] at htrans
        have hnot := htrans st rfl
        rw [hvalid] at hnot
        simp [hne, Except.isOk, Except.toBool] at hnot
  · refine ⟨.writing p.id st, fun _ => hwriting, (fun a h => ?_), fun _ _ => trivial⟩
    cases h
    rw [← hstatus] at htrans
    obtain ⟨hmap, -⟩ := Option.filter_eq_some_iff.mp htrans
    show (settleProto word w).WP t _ (WebhookProcessor.processFound job p) _
    unfold WebhookProcessor.processFound
    rw [hmap]
    dsimp only
    split
    · exact hmark _
    · refine Proto.WP.ofExcept_bind (fun u _ => ?_) fun _ _ => trivial
      refine Proto.WP.perform_bind fun G s tr d r s' hG hi _ hx => ⟨trivial, ?_⟩
      obtain ⟨g', hi', -⟩ := settled_step (o := .applyWebhook p st job.event) rfl hG hi hx
      refine ⟨g', hi', ?_⟩
      cases r with
      | ok a => exact hmark g'
      | error e => trivial

theorem worker_settles (registry : ProviderRegistry) {call : ServiceCall} (hcall : Repeats word call) :
    (settleProto word w).WP t (fun r g => ∀ id, call = .reconcile id → EndsDone id r g)
      (call.run registry) .idle := by
  cases call with
  | payments call => exact absurd hcall id
  | webhook job => exact (process_settles hcall).mono fun _ _ _ _ h => by cases h
  | reconcile id =>
    refine (reconcile_settles registry).mono fun r g hg id' h => ?_
    cases h
    exact hg

end Programs

/-! ## The runs -/

/-- What the workers have come to. -/
structure Agreed {ι : Type} (word : String → String → ChargeStatus) (calls : ι → ServiceCall)
    (w : World) (c : Conf machine ι Unit) : Prop where
  rows : ∀ q ∈ c.st.payments, ∃ p₀ ∈ w.payments, Comes word p₀ q
  ended : ∀ t id, calls t = .reconcile id → c.thr t = .ret () → SettledRow word w c.st id

/-- **Reconciliation settles**: while the provider keeps to its word, every payment has its first
status or the one that the word takes it to, however the workers overlap and whatever fails; and once
one reconciliation of it has ended, the latter. -/
theorem reconciliation_settles {ι : Type} [DecidableEq ι] (registry : ProviderRegistry)
    (word : String → String → ChargeStatus) (calls : ι → ServiceCall)
    (hcalls : ∀ t, Repeats word (calls t)) (w : World) (c : Conf machine ι Unit)
    (hr : Conf.Reach (AnswersWord word) (startCalls registry calls w) c) : Agreed word calls w c := by
  have hstart : (settleProto word w).Ok (fun t r g => ∀ id, calls t = .reconcile id → EndsDone id r g)
      (startCalls registry calls w) := by
    refine ⟨fun _ => .idle, ⟨.refl w, fun q hq => ⟨q, hq, rfl, rfl, .inl rfl⟩, fun _ => trivial⟩,
      fun t => worker_settles registry (hcalls t)⟩
  have hok := Proto.sound hstart hr
  refine ⟨?_, fun t id hcall ht => ?_⟩
  · obtain ⟨G, hi, -⟩ := hok
    exact hi.rows
  · obtain ⟨G, hi, hQ⟩ := hok.returned ht
    have hfact := hi.fact t
    rw [hQ id hcall rfl] at hfact
    exact hfact

/-! ### A webhook and a reconciliation at the same time -/

/-- The provider has captured every charge. -/
def capturedWord (_ _ : String) : ChargeStatus := .captured

def bothWorkers (reconciles : Bool) : ServiceCall :=
  if reconciles then .reconcile "pay"
  else .webhook ⟨"job", "inbound", ⟨"fake", "payment.captured", "fake_key", .captured, .null⟩, 0⟩

/-- Both read the payment PENDING, and then both write it. -/
def bothWrite : List (Bool × Decision) := [
  (true, {}), (false, {}), (true, { retrieve := .ok ⟨"fake_key", .captured, .null⟩ }),
  (true, { newId := fun _ => "a" }), (false, { newId := fun _ => "b" }), (false, {})]

def bothWritten : Conf machine Bool Unit :=
  (startCalls fakeRegistry bothWorkers (World.withPayment (samplePayment .pending))).play bothWrite

theorem reconciliation_settles_sample :
    Agreed capturedWord bothWorkers (World.withPayment (samplePayment .pending)) bothWritten ∧
    bothWritten.st.payments.rows.map (·.status) = [.captured] ∧
    bothWritten.st.events.rows.length = 2 := by
  have hplays : Conf.Plays (AnswersWord capturedWord)
      (startCalls fakeRegistry bothWorkers (World.withPayment (samplePayment .pending))) bothWrite := by
    have hother : ∀ {t : Bool} {o : Op} {d : Decision} {s : World},
        (∀ providerId externalId, o ≠ .retrieveCharge providerId externalId) →
          AnswersWord capturedWord t o d s :=
      fun h providerId externalId result ho _ => absurd ho (h providerId externalId)
    refine ⟨hother nofun, hother nofun, ?_, hother nofun, hother nofun, hother nofun, trivial⟩
    intro providerId externalId result _ h
    cases h
    rfl
  have hcalls : ∀ t, Repeats capturedWord (bothWorkers t) := fun t => by
    cases t with
    | true => exact trivial
    | false => exact rfl
  exact ⟨reconciliation_settles fakeRegistry capturedWord bothWorkers hcalls _ _
    (Conf.reach_play hplays), by decide +kernel, by decide +kernel⟩

end Pasarela
