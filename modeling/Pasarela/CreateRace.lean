import Pasarela.Conc.Contest
import Pasarela.Conc.History
import Pasarela.Idempotency

/-!
# Calls of `create` for one key, side by side

Any number of calls of one organization with one key and one body, step by step, while the database
and the provider work. `create` looks the key up, and inserts the payment if it finds none, with the
routing and the gauge in between; the unique constraint refuses a second payment.

* `earlyKeyLookups`: the lookups that a run makes before the payment is there.
* `createRace`: where each call is (`Conc.Contest`), and the payment that it found or inserted.
* `concurrent_creates_iff`: all of them return the one payment iff at most one lookup is early: a
  call with an early lookup that does not insert the payment throws the error of the constraint.
-/

namespace Pasarela

open Conc (Allow Conf Contest Event Place Prog Proto replay tally)
open PaymentsService
open Store (Table)

/-- The lookup of a key that no payment has. -/
def earlyKeyLookup (e : Event machine) (s : World) : Nat :=
  match e.op with
  | .findPayment w => if s.payments.rows.any w.holds then 0 else 1
  | _ => 0

/-- The organization has a payment with the key. -/
def World.HasKey (s : World) (org key : String) : Prop :=
  ∃ p ∈ s.payments, p.organizationId = org ∧ p.idempotencyKey = key

/-- Calls of one organization with one key and one body. -/
structure CreateCalls (ι : Type) where
  org : String
  key : String
  dto : CreatePaymentDto
  ctx : ι → OrgContext
  sameOrg : ∀ t, (ctx t).organizationId = org

def CreateCalls.call {ι : Type} (x : CreateCalls ι) (t : ι) : CreateCall :=
  ⟨x.dto, some x.key, x.ctx t⟩

/-- Where a call is, and the id of the payment that it found or inserted. -/
structure CreatePlace where
  place : Place
  row : Option String

section Race

variable {ι : Type}

/-- The lookups that the requests make before the payment is there (module doc). -/
def earlyKeyLookups (w : World) (tr : List (ι × Event machine)) : Nat :=
  tally (M := machine) (fun _ => earlyKeyLookup) w tr

/-- The database works, the ids of new rows are new, and the provider answers. -/
structure CreateWorks (_ : ι) (_ : Op) (d : Decision) (s : World) : Prop where
  fail : d.fail = none
  customer : ∀ c ∈ s.customers, c.id ≠ d.newId .customer
  payment : ∀ p ∈ s.payments, p.id ≠ d.newId .payment
  event : ∀ e ∈ s.events, e.id ≠ d.newId .paymentEvent
  charge : ∃ result, d.charge = .answered result

/-- What holds after the requests `tr` from `w` (module doc). -/
structure CreateRaceInv [Fintype ι] (x : CreateCalls ι) (w : World) (G : ι → CreatePlace)
    (s : World) (tr : List (ι × Event machine)) : Prop where
  contest : Contest (·.place) (w.HasKey x.org x.key) (s.HasKey x.org x.key) G
    (earlyKeyLookups w tr)
  state : s = replay w tr
  tenant : s.TenantIsOrg
  row : ∀ t id, (G t).row = some id →
    ∃ p ∈ s.payments, p.id = id ∧ p.organizationId = x.org ∧ p.idempotencyKey = x.key

variable [DecidableEq ι] [Fintype ι]

def createRace (x : CreateCalls ι) (w : World) : Proto machine ι CreatePlace where
  allow := CreateWorks
  inv := CreateRaceInv x w

def CreateRaceEnd (r : Except Err SerializedPayment) (g : CreatePlace) : Prop :=
  (g.place = .lost ∧ ∃ e, r = .error e) ∨
    ((g.place = .found ∨ g.place = .won) ∧ ∃ a, r = .ok a ∧ g.row = some a.payment.id)

/-! ## The steps of a call -/

variable {x : CreateCalls ι} {w s s' : World} {G : ι → CreatePlace} {t : ι}
  {tr : List (ι × Event machine)} {d : Decision}

theorem CreateRaceInv.move (h : CreateRaceInv x w G s tr) {o : Op} {r : Except Err o.Ans}
    (hx : exec o d s = (r, s')) (hp : Persist s s') (ht : s'.TenantIsOrg) {g : CreatePlace}
    (hrow : ∀ id, g.row = some id → ∃ p ∈ s'.payments, p.id = id ∧ p.organizationId = x.org ∧
      p.idempotencyKey = x.key)
    (hc : Contest (·.place) (w.HasKey x.org x.key) (s'.HasKey x.org x.key) (Function.update G t g)
      (earlyKeyLookups w tr + earlyKeyLookup ⟨o, d, r⟩ s)) :
    CreateRaceInv x w (Function.update G t g) s' (tr ++ [(t, ⟨o, d, r⟩)]) := by
  refine ⟨?_, ?_, ht, fun u id hu => ?_⟩
  · rw [earlyKeyLookups, Conc.tally_snoc, ← h.state]
    exact hc
  · rw [Conc.replay_snoc, ← h.state]
    exact (congrArg Prod.snd hx).symm
  · by_cases hut : u = t
    · rw [hut, Function.update_self] at hu
      exact hrow id hu
    · rw [Function.update_of_ne hut] at hu
      obtain ⟨p, hmem, hid, horg, hkey⟩ := h.row u id hu
      obtain ⟨p', hmem', hid', horg', hkey'⟩ := hp p hmem
      exact ⟨p', hmem', hid'.trans hid, horg'.trans horg, hkey'.trans hkey⟩

theorem CreateRaceInv.quiet (h : CreateRaceInv x w G s tr) {o : Op} {r : Except Err o.Ans}
    (hx : exec o d s = (r, s')) (he : earlyKeyLookup ⟨o, d, r⟩ s = 0) (hp : Persist s s')
    (ht : s'.TenantIsOrg) (hk : s'.HasKey x.org x.key ↔ s.HasKey x.org x.key) :
    CreateRaceInv x w G s' (tr ++ [(t, ⟨o, d, r⟩)]) := by
  have hmove := h.move (t := t) (g := G t) hx hp ht (fun id hid => by
    obtain ⟨p, hmem, hpid, horg, hkey⟩ := h.row t id hid
    obtain ⟨p', hmem', hid', horg', hkey'⟩ := hp p hmem
    exact ⟨p', hmem', hid'.trans hpid, horg'.trans horg, hkey'.trans hkey⟩)
    (by rw [he]; exact h.contest.keep rfl hk)
  rwa [Function.update_eq_self] at hmove

theorem CreateRaceInv.same (h : CreateRaceInv x w G s tr) {o : Op} {r : Except Err o.Ans}
    (hx : exec o d s = (r, s')) (he : earlyKeyLookup ⟨o, d, r⟩ s = 0)
    (ho : o.writesPayments = false) : CreateRaceInv x w G s' (tr ++ [(t, ⟨o, d, r⟩)]) := by
  have hp := exec_payments ho hx
  exact h.quiet hx he (Persist.of_payments hp) (h.tenant.of_payments hp)
    (by rw [World.HasKey, World.HasKey, hp])

theorem CreateRaceInv.lookup (h : CreateRaceInv x w G s tr) (hg : G t = ⟨.start, none⟩)
    (hd : d.fail = none) {r : Except Err (Option Payment)}
    (hx : exec (.findPayment { organizationId := some x.org, idempotencyKey := some x.key }) d s =
      (r, s')) :
    (∃ p, r = .ok (some p) ∧ CreateRaceInv x w (Function.update G t ⟨.found, some p.id⟩) s'
      (tr ++ [(t, ⟨.findPayment { organizationId := some x.org, idempotencyKey := some x.key }, d,
        r⟩)])) ∨
    (r = .ok none ∧ CreateRaceInv x w (Function.update G t ⟨.missed, none⟩) s'
      (tr ++ [(t, ⟨.findPayment { organizationId := some x.org, idempotencyKey := some x.key }, d,
        r⟩)])) := by
  obtain ⟨rfl, ⟨e, rfl⟩ | ⟨rfl, hnone⟩ | ⟨p, rfl, hp, hw⟩⟩ := exec_findPayment hx
  · exact absurd (congrArg Prod.fst hx) (by simp [exec, query, hd])
  · refine .inr ⟨rfl, h.move hx (Persist.of_payments rfl) h.tenant (fun id hid => by cases hid) ?_⟩
    have hkey : ¬ s'.HasKey x.org x.key := by
      rintro ⟨q, hq, hqk⟩
      have hholds := PaymentWhere.holds_org_key.mpr hqk
      rw [hnone q hq] at hholds
      cases hholds
    have hany : ¬ (s'.payments.rows.any (PaymentWhere.holds
        { organizationId := some x.org, idempotencyKey := some x.key })) = true := by
      simpa [Table.mem_def] using hnone
    simp only [earlyKeyLookup, if_neg hany]
    exact h.contest.look_absent hkey (by rw [hg]) rfl
  · obtain ⟨horg, hk⟩ := PaymentWhere.holds_org_key.mp hw
    refine .inl ⟨p, rfl, h.move hx (Persist.of_payments rfl) h.tenant (fun id hid => ?_) ?_⟩
    · cases hid
      exact ⟨p, hp, rfl, horg, hk⟩
    · have hany : (s'.payments.rows.any (PaymentWhere.holds
          { organizationId := some x.org, idempotencyKey := some x.key })) = true :=
        List.any_eq_true.mpr ⟨p, hp, hw⟩
      simp only [earlyKeyLookup, if_pos hany]
      exact h.contest.look_present ⟨p, hp, horg, hk⟩ (by rw [hg]) rfl

theorem CreateRaceInv.insert (h : CreateRaceInv x w G s tr) (hg : G t = ⟨.missed, none⟩)
    {providerId : String} {method : PaymentMethodKind}
    (hd : CreateWorks t (.insertPayment x.org x.dto x.key providerId method) d s)
    {r : Except Err Payment}
    (hx : exec (.insertPayment x.org x.dto x.key providerId method) d s = (r, s')) :
    (∃ p, r = .ok p ∧ CreateRaceInv x w (Function.update G t ⟨.won, some p.id⟩) s'
      (tr ++ [(t, ⟨.insertPayment x.org x.dto x.key providerId method, d, r⟩)])) ∨
    (∃ e, r = .error e ∧ CreateRaceInv x w (Function.update G t ⟨.lost, none⟩) s'
      (tr ++ [(t, ⟨.insertPayment x.org x.dto x.key providerId method, d, r⟩)])) := by
  rcases exec_insertPayment hx with ⟨e, rfl, rfl⟩ | ⟨p, rfl, hins⟩
  · refine .inr ⟨e, rfl,
      h.move hx (Persist.of_payments rfl) h.tenant (fun id hid => by cases hid) ?_⟩
    refine h.contest.insert_present ?_ (by rw [hg]) rfl
    by_contra hn
    have hkey : ∀ q ∈ s'.payments, q.tenantKey ≠ (x.org, x.key) := fun q hq hk =>
      hn ⟨q, hq, (h.tenant q hq).symm.trans (congrArg Prod.fst hk), congrArg Prod.snd hk⟩
    obtain ⟨q, s₁, hok⟩ : ∃ q s₁,
        exec (.insertPayment x.org x.dto x.key providerId method) d s' = (.ok q, s₁) :=
      exec_insertPayment_of_fresh hd.fail hd.customer hd.payment hkey hd.event
    rw [hok] at hx
    cases hx
  · obtain ⟨c, rfl, -⟩ := hins.row
    have hnew := (Table.insert_ok hins.payments).2.2
    have hn : ¬ s.HasKey x.org x.key := fun ⟨q, hq, horg, hk⟩ =>
      hnew q hq (Prod.ext ((h.tenant q hq).trans horg) hk)
    have hmem := (Table.mem_insert hins.payments).mpr (.inr rfl)
    exact .inl ⟨_, rfl, h.move hx (Persist.insert hins.payments)
      (h.tenant.insert hins.payments rfl)
      (fun id hid => by cases hid; exact ⟨_, hmem, rfl, rfl, rfl⟩)
      (h.contest.insert_absent hn ⟨_, hmem, rfl, rfl⟩ (by rw [hg]) rfl)⟩

/-- After the insert, the call returns its payment. -/
theorem createRace_charge (provider : PaymentProvider) (dto : CreatePaymentDto) (key : String)
    (ctx : OrgContext) (payment : Payment) :
    (createRace x w).WP t CreateRaceEnd
      ((charge provider dto key ctx payment).tryCatch (chargeFailed dto payment))
      ⟨.won, some payment.id⟩ := by
  refine Proto.WP.tryCatch (Proto.WP.perform_bind fun G s tr d r s' hG hi ha hx => ⟨trivial, ?_⟩)
  obtain ⟨result, hcharge⟩ := ha.charge
  have hr : r = .ok result := by
    obtain ⟨hr, -⟩ := Prod.mk.inj hx
    rw [← hr, hcharge]
    rfl
  subst hr
  refine Proto.keep hG (hi.same hx rfl rfl) ?_
  refine Proto.WP.perform_bind fun G s tr d r s' hG hi ha hx => ⟨trivial, ?_⟩
  obtain ⟨p, hp, hid, -, -⟩ := hi.row t payment.id (by rw [hG])
  rcases exec_recordCharge hx with ⟨e, rfl, rfl⟩ | ⟨q, rfl, hw⟩
  · obtain ⟨q, s₁, hok⟩ : ∃ q s₁, exec (.recordCharge payment result
        (mapProviderStatus result.status)) d s' = (.ok q, s₁) :=
      exec_recordCharge_of_fresh ha.fail ⟨p, hp, hid⟩ ha.event
    cases hok.symm.trans hx
  · have hkeys : s'.HasKey x.org x.key ↔ s.HasKey x.org x.key :=
      Table.exists_update hw.payments fun _ => Iff.rfl
    refine Proto.keep hG (hi.quiet hx rfl (Persist.update hw.payments fun _ => rfl)
      (hi.tenant.update hw.payments fun _ => rfl) hkeys) ?_
    refine Proto.WP.perform_bind fun G s tr d r s' hG hi ha hx => ⟨trivial, ?_⟩
    obtain ⟨hr, -⟩ := Prod.mk.inj hx
    subst hr
    refine Proto.keep hG (hi.same hx rfl rfl) ?_
    refine Proto.WP.perform_bind fun G s tr d r s' hG hi ha hx => ⟨trivial, ?_⟩
    obtain ⟨rfl, -⟩ := exec_auditLog hx
    refine Proto.keep hG (hi.same hx rfl rfl) (.inr ⟨.inr rfl, _, rfl, ?_⟩)
    exact congrArg some (Table.key_update hw.payments).symm

/-- **A call keeps the protocol**, when its key passes the check, a provider serves it and its
method is one of the map. -/
theorem createRace_create {registry : ProviderRegistry} {provider : PaymentProvider}
    {method : PaymentMethodKind} (hk : checkKey (some x.key) = .ok x.key)
    (hp : registry.selectFor x.dto.country x.dto.currency = .ok provider)
    (hm : toPrismaMethod x.dto.method = .ok method) (t : ι) :
    (createRace x w).WP t CreateRaceEnd
      (create registry (x.call t).dto (x.call t).idempotencyKey (x.call t).ctx) ⟨.start, none⟩ := by
  obtain ⟨f, hcreate, hfound, hnew⟩ := create_of_key registry x.dto (x.ctx t) hk
  rw [x.sameOrg t] at hcreate
  rw [show create registry (x.call t).dto (x.call t).idempotencyKey (x.call t).ctx = _ from hcreate]
  refine Proto.WP.perform_bind fun G s tr d r s' hG hi ha hx => ⟨trivial, ?_⟩
  rcases hi.lookup hG ha.fail hx with ⟨p, rfl, hi'⟩ | ⟨rfl, hi'⟩
  · refine ⟨_, hi', ?_⟩
    show (createRace x w).WP t CreateRaceEnd (f (some p)) _
    rw [hfound]
    exact .inr ⟨.inl rfl, _, rfl, rfl⟩
  refine ⟨_, hi', ?_⟩
  show (createRace x w).WP t CreateRaceEnd (f none) _
  rw [hnew, createNew_of_ok hp hm, x.sameOrg t]
  refine Proto.WP.perform_bind fun G s tr d r s' hG hi ha hx => ⟨trivial, ?_⟩
  obtain ⟨hr, -⟩ := Prod.mk.inj hx
  subst hr
  refine Proto.keep hG (hi.same hx rfl rfl) ?_
  refine Proto.WP.perform_bind fun G s tr d r s' hG hi ha hx => ⟨trivial, ?_⟩
  rcases hi.insert hG ha hx with ⟨p, rfl, hi'⟩ | ⟨e, rfl, hi'⟩
  · exact ⟨_, hi', createRace_charge provider _ _ _ _⟩
  · exact ⟨_, hi', .inl ⟨rfl, e, rfl⟩⟩

end Race

/-! ## Runs -/

/-- All calls returned the one payment of the key. -/
structure CreateCalls.OnePayment {ι : Type} (x : CreateCalls ι)
    (c : Conf machine ι SerializedPayment) : Prop where
  only : ∀ p ∈ c.st.payments, ∀ q ∈ c.st.payments, p.organizationId = x.org →
    p.idempotencyKey = x.key → q.organizationId = x.org → q.idempotencyKey = x.key → p = q
  returned : ∀ t, ∃ a, c.thr t = .ret a ∧ ∃ p ∈ c.st.payments, p.id = a.payment.id ∧
    p.organizationId = x.org ∧ p.idempotencyKey = x.key

/-- **Concurrent calls of `create` for one key**, of one organization and with one body, whose key
passes the check, whose method is one of the map and that a provider serves, while the database and
the provider work: when all have ended, all of them returned the one payment, if and only if at most
one of them looked the key up before the payment was there. -/
theorem concurrent_creates_iff {ι : Type} [DecidableEq ι] [Fintype ι]
    (registry : ProviderRegistry) (x : CreateCalls ι) (hk : checkKey (some x.key) = .ok x.key)
    (provider : PaymentProvider)
    (hp : registry.selectFor x.dto.country x.dto.currency = .ok provider)
    (method : PaymentMethodKind) (hm : toPrismaMethod x.dto.method = .ok method)
    (w : World) (hw : w.TenantIsOrg) (c : Conf machine ι SerializedPayment)
    (hr : Conf.Reach CreateWorks (startCreates registry x.call w) c)
    (hend : ∀ t, ∃ r, c.thr t = .ofExcept r) :
    x.OnePayment c ↔ earlyKeyLookups w c.trace ≤ 1 := by
  have hstart : CreateRaceInv x w (fun _ => ⟨.start, none⟩) w [] :=
    ⟨Contest.start rfl, rfl, hw, fun t id h => by cases h⟩
  have h₀ : (createRace x w).Ok (fun _ => CreateRaceEnd) (startCreates registry x.call w) :=
    ⟨fun _ => ⟨.start, none⟩, hstart, createRace_create hk hp hm⟩
  obtain ⟨G, hi, hq⟩ := (Proto.sound h₀ hr).ended
  have hover : ∀ t, (G t).place.over := by
    intro t
    obtain ⟨r, ht⟩ := hend t
    rcases hq t r ht with ⟨hl, -⟩ | ⟨hf | hwon, -⟩
    · rw [hl]; rfl
    · rw [hf]; rfl
    · rw [hwon]; rfl
  rw [← hi.contest.nobody_lost_iff hover]
  constructor
  · intro h t hlost
    obtain ⟨a, ht, -⟩ := h.returned t
    rcases hq t (.ok a) ht with ⟨-, e, he⟩ | ⟨hf | hwon, -⟩
    · cases he
    · exact absurd (hlost.symm.trans hf) (by decide)
    · exact absurd (hlost.symm.trans hwon) (by decide)
  · intro h
    refine ⟨fun p hpm q hqm hporg hpkey hqorg hqkey => ?_, fun t => ?_⟩
    · exact hi.tenant.unique hpm hqm (hporg.trans hqorg.symm) (hpkey.trans hqkey.symm)
    · obtain ⟨r, ht⟩ := hend t
      rcases hq t r ht with ⟨hl, -⟩ | ⟨-, a, rfl, hrow⟩
      · exact absurd hl (h t)
      · exact ⟨a, ht, hi.row t _ hrow⟩

/-! ### Two calls -/

def twoCalls : CreateCalls Bool := ⟨"org", "key", sampleDto, fun _ => sampleCtx, fun _ => rfl⟩

def bothCalls : Conf machine Bool SerializedPayment :=
  startCreates fakeRegistry twoCalls.call .empty

/-- A decision that gives the id `id`, and with which the provider captures the charge. -/
def answering (id : String) : Decision :=
  { newId := fun _ => id, charge := .answered ⟨"fake_key", .captured, .null⟩ }

theorem createWorks_answering {id : String} {t : Bool} {o : Op} {s : World}
    (h : (s.customers.rows.map (·.id) ++ s.payments.rows.map (·.id) ++ s.events.rows.map (·.id)).all
      (· ≠ id) = true) : CreateWorks t o (answering id) s := by
  simp only [List.all_append, List.all_map, Bool.and_eq_true, List.all_eq_true, Function.comp_apply,
    decide_eq_true_eq] at h
  exact ⟨rfl, h.1.1, h.1.2, h.2, _, rfl⟩

/-- The second call starts when the first one has ended. -/
def oneThenOther : List (Bool × Decision) :=
  [(true, answering "a"), (true, answering "a"), (true, answering "a"), (true, answering "b"),
    (true, answering "b"), (true, answering "c"), (true, answering "c"), (false, answering "c")]

theorem plays_oneThenOther : Conf.Plays CreateWorks bothCalls oneThenOther :=
  ⟨createWorks_answering rfl, createWorks_answering rfl, createWorks_answering rfl,
    createWorks_answering (by decide +kernel), createWorks_answering (by decide +kernel),
    createWorks_answering (by decide +kernel), createWorks_answering (by decide +kernel),
    createWorks_answering (by decide +kernel), trivial⟩

theorem concurrent_creates_sample : twoCalls.OnePayment (bothCalls.play oneThenOther) := by
  refine (concurrent_creates_iff fakeRegistry twoCalls rfl _ rfl .card rfl .empty
    (fun p hp => absurd hp Table.not_mem_empty) _ (Conf.reach_play plays_oneThenOther)
    fun t => ?_).mpr (by decide +kernel)
  cases t with
  | true => exact ⟨.ok _, rfl⟩
  | false => exact ⟨.ok _, rfl⟩

/-- Both look the key up, and then both insert. -/
def bothMiss : List (Bool × Decision) :=
  [(true, answering "a"), (false, answering "a"), (true, answering "a"), (false, answering "a"),
    (true, answering "a"), (false, answering "b"), (true, answering "b"), (true, answering "b"),
    (true, answering "c"), (true, answering "c")]

theorem plays_bothMiss : Conf.Plays CreateWorks bothCalls bothMiss :=
  ⟨createWorks_answering rfl, createWorks_answering rfl, createWorks_answering rfl,
    createWorks_answering rfl, createWorks_answering rfl, createWorks_answering (by decide +kernel),
    createWorks_answering (by decide +kernel), createWorks_answering (by decide +kernel),
    createWorks_answering (by decide +kernel), createWorks_answering (by decide +kernel), trivial⟩

/-- Two calls that look the key up before the payment is there: one of them throws the error of the
unique constraint. -/
theorem concurrent_create_refused : ¬ ∀ c, Conf.Reach CreateWorks bothCalls c →
    (∀ t, ∃ r, c.thr t = .ofExcept r) → twoCalls.OnePayment c := by
  intro h
  have hend : ∀ t, ∃ r, (bothCalls.play bothMiss).thr t = .ofExcept r := by
    intro t
    cases t with
    | true => exact ⟨.ok _, rfl⟩
    | false => exact ⟨.error (.uniqueViolation ["tenantId", "idempotencyKey"]), rfl⟩
  obtain ⟨a, ha, -⟩ := (h _ (Conf.reach_play plays_bothMiss) hend).returned false
  have hrefused : (bothCalls.play bothMiss).thr false =
      .throw (.uniqueViolation ["tenantId", "idempotencyKey"]) := rfl
  rw [hrefused] at ha
  cases ha

end Pasarela
