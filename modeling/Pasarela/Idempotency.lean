import Mathlib.Data.List.Count
import Pasarela.Conc.Owned
import Pasarela.Conc.Pool
import Pasarela.Payments
import Pasarela.Tenants

/-!
# One charge for each idempotency key

Any number of `create` calls of any organizations run side by side, from a table without payments.
The lookup of the key is by `organizationId` and the unique constraint is on `tenantId`, so the
first part of the invariant is that the two columns are equal (`World.TenantIsOrg`).

* `Persist s s'`: the rows of `s` are in `s'`, with their key.
* `CreateStage`: how far a call is. A call that inserted its row owns it, before and after its
  charge; a call that found the row of its key ends.
* `createOwnership`: what the stage says of the rows and of the requests made so far: a call has
  made a charge only after it inserted its row, and at most one.
* `one_charge_per_key`: two calls that charge for one key would own the same row.
-/

namespace Pasarela

open Conc (Owning Proto Prog Conf Event)
open Store (Table)
open PaymentsService

/-- The rows of `s` are in `s'`, with their key (module doc). -/
def Persist (s s' : World) : Prop :=
  ∀ p ∈ s.payments, ∃ p' ∈ s'.payments, p'.id = p.id ∧ p'.organizationId = p.organizationId ∧
    p'.idempotencyKey = p.idempotencyKey

section Rows

variable {s s' : World}

theorem Persist.of_payments (h : s'.payments = s.payments) : Persist s s' := by
  rw [Persist, h]
  exact fun p hp => ⟨p, hp, rfl, rfl, rfl⟩

theorem Persist.insert {p : Payment} (h : s.payments.insert p = .ok s'.payments) : Persist s s' :=
  fun q hq => ⟨q, (Table.mem_insert h).mpr (.inl hq), rfl, rfl, rfl⟩

theorem Persist.update {id : String} {f : Payment → Payment}
    {hf : Table.Keeps Payment.id Payment.tenantKey f} {q : Payment}
    (h : s.payments.update id f hf = some (q, s'.payments))
    (ho : ∀ p, (f p).organizationId = p.organizationId) : Persist s s' := by
  intro p hp
  have hkey : ∀ a, (f a).idempotencyKey = a.idempotencyKey := fun a => congrArg Prod.snd (hf.uniq a)
  refine (Table.exists_update h fun a => ?_).mpr ⟨p, hp, rfl, rfl, rfl⟩
  rw [hf.key, ho, hkey]

end Rows

/-! ## The calls and their charges -/

/-- The arguments of a `create` call. -/
structure CreateCall where
  dto : CreatePaymentDto
  idempotencyKey : Option String
  ctx : OrgContext

/-- The call is for the key of the organization. -/
def CreateCall.isFor (call : CreateCall) (org key : String) : Bool :=
  call.ctx.organizationId = org ∧ call.idempotencyKey = some key

def Op.isCharge : Op → Bool
  | .createCharge _ _ => true
  | _ => false

/-- How far a call is (module doc). -/
inductive CreateStage where
  | idle
  /-- It inserted the row, and has not charged. -/
  | owns (id : String)
  /-- It inserted the row and charged. -/
  | charged (id : String)
  /-- It found the row. -/
  | found (id : String)

def CreateStage.id? : CreateStage → Option String
  | .idle => none
  | .owns id => some id
  | .charged id => some id
  | .found id => some id

/-- The row that the call inserted. -/
def CreateStage.owner : CreateStage → Option String
  | .owns id => some id
  | .charged id => some id
  | _ => none

/-- The charges that the call may have made. -/
def CreateStage.budget : CreateStage → Nat
  | .charged _ => 1
  | _ => 0

theorem CreateStage.budget_le (g : CreateStage) : g.budget ≤ 1 := by
  cases g <;> simp [CreateStage.budget]

section Pool

variable {ι : Type} [DecidableEq ι]

/-- The charges that thread `t` made. -/
def charges (t : ι) (tr : List (ι × Event machine)) : Nat :=
  tr.countP fun e => e.1 = t ∧ e.2.op.isCharge

theorem charges_append_self (t : ι) (tr : List (ι × Event machine)) (e : Event machine) :
    charges t (tr ++ [(t, e)]) = charges t tr + if e.op.isCharge then 1 else 0 := by
  simp [charges, List.countP_append, List.countP_cons]

theorem charges_append_of_ne {t u : ι} (tr : List (ι × Event machine)) (e : Event machine)
    (h : u ≠ t) : charges u (tr ++ [(t, e)]) = charges u tr := by
  simp [charges, List.countP_append, Ne.symm h]

theorem charges_append_quiet (t u : ι) (tr : List (ι × Event machine)) (e : Event machine)
    (h : e.op.isCharge = false) : charges u (tr ++ [(t, e)]) = charges u tr := by
  simp [charges, List.countP_append, h]

variable (calls : ι → CreateCall)

/-- The charges for the key of the organization. -/
def chargesFor (org key : String) (tr : List (ι × Event machine)) : Nat :=
  tr.countP fun e => e.2.op.isCharge && (calls e.1).isFor org key

/-- What the stage of call `t` says (module doc). -/
def stageFact (t : ι) (g : CreateStage) (x : World × List (ι × Event machine)) : Prop :=
  (∀ id, g.id? = some id → ∃ p ∈ x.1.payments, p.id = id ∧
    (calls t).isFor p.organizationId p.idempotencyKey) ∧ charges t x.2 ≤ g.budget

/-- The calls own the rows that they inserted. -/
def createOwnership : Owning ι CreateStage (World × List (ι × Event machine)) String :=
  ⟨stageFact calls, CreateStage.owner⟩

def createProto : Proto machine ι CreateStage where
  allow := Conc.Any
  inv G s tr := (createOwnership calls).Inv G (s, tr) ∧ s.TenantIsOrg
  guar := Persist

variable {calls}

/-- What a stage says, after a step of another kind or another thread. -/
theorem stageFact_of_persist {t : ι} {g : CreateStage} {s s' : World}
    {tr tr' : List (ι × Event machine)} (h : stageFact calls t g (s, tr)) (hp : Persist s s')
    (hc : charges t tr' = charges t tr) : stageFact calls t g (s', tr') := by
  refine ⟨fun id hid => ?_, by rw [hc]; exact h.2⟩
  obtain ⟨p, hmem, rfl, hfor⟩ := h.1 id hid
  obtain ⟨p', hmem', hid', horg, hkey⟩ := hp p hmem
  exact ⟨p', hmem', hid', by rw [horg, hkey]; exact hfor⟩

variable {t : ι} {G : ι → CreateStage} {s s' : World} {tr : List (ι × Event machine)}

theorem createProto_step (h : (createProto calls).inv G s tr) (hp : Persist s s')
    (ht : s'.TenantIsOrg) {e : Event machine} (he : e.op.isCharge = false) :
    (createProto calls).inv G s' (tr ++ [(t, e)]) := by
  refine ⟨⟨fun u => ?_, h.1.excl⟩, ht⟩
  exact stageFact_of_persist (h.1.fact u) hp (charges_append_quiet t u tr e he)

theorem createProto_same (h : (createProto calls).inv G s tr) (hp : s'.payments = s.payments)
    {e : Event machine} (he : e.op.isCharge = false) :
    (createProto calls).inv G s' (tr ++ [(t, e)]) :=
  createProto_step h (Persist.of_payments hp) (World.TenantIsOrg.of_payments h.2 hp) he

theorem createProto_update (h : (createProto calls).inv G s tr) {id : String}
    {f : Payment → Payment} {hf : Table.Keeps Payment.id Payment.tenantKey f} {q : Payment}
    (hu : s.payments.update id f hf = some (q, s'.payments))
    (ho : ∀ p, (f p).organizationId = p.organizationId) {e : Event machine}
    (he : e.op.isCharge = false) : (createProto calls).inv G s' (tr ++ [(t, e)]) :=
  createProto_step h (Persist.update hu ho) (World.TenantIsOrg.update h.2 hu ho) he

theorem createProto_found (h : (createProto calls).inv G s tr) (hG : G t = .idle) {p : Payment}
    (hp : p ∈ s.payments) (hfor : (calls t).isFor p.organizationId p.idempotencyKey)
    {e : Event machine} (he : e.op.isCharge = false) :
    (createProto calls).inv (Function.update G t (.found p.id)) s (tr ++ [(t, e)]) := by
  have hpers : Persist s s := Persist.of_payments rfl
  refine ⟨h.1.step ⟨fun id hid => ?_, ?_⟩ (fun k hk => by cases hk) ?_, h.2⟩
  · cases hid
    exact ⟨p, hp, rfl, hfor⟩
  · have hc := (h.1.fact t).2
    rw [hG] at hc
    rw [charges_append_quiet t t tr e he]
    exact hc
  · exact fun u g _ hg _ => stageFact_of_persist hg hpers (charges_append_quiet t u tr e he)

theorem createProto_insert (h : (createProto calls).inv G s tr) (hG : G t = .idle) {p : Payment}
    (hi : s.payments.insert p = .ok s'.payments) (hto : p.tenantId = p.organizationId)
    (hfor : (calls t).isFor p.organizationId p.idempotencyKey) {e : Event machine}
    (he : e.op.isCharge = false) :
    (createProto calls).inv (Function.update G t (.owns p.id)) s' (tr ++ [(t, e)]) := by
  have hpers : Persist s s' := Persist.insert hi
  refine ⟨h.1.step ⟨fun id hid => ?_, ?_⟩ ?_ ?_, h.2.insert hi hto⟩
  · cases hid
    exact ⟨p, (Table.mem_insert hi).mpr (.inr rfl), rfl, hfor⟩
  · have hc := (h.1.fact t).2
    rw [hG] at hc
    rw [charges_append_quiet t t tr e he]
    exact hc
  · rintro k hk
    cases hk
    refine .inr fun u hu => ?_
    have hid : (G u).id? = some p.id := by
      cases hg : G u with
      | idle => rw [hg] at hu; cases hu
      | owns id => rw [hg] at hu; exact hu
      | charged id => rw [hg] at hu; exact hu
      | found id => rw [hg] at hu; cases hu
    obtain ⟨q, hq, hqid, -⟩ := (h.1.fact u).1 _ hid
    exact (Table.insert_ok hi).2.1 q hq hqid
  · exact fun u g _ hg _ => stageFact_of_persist hg hpers (charges_append_quiet t u tr e he)

theorem createProto_charge (h : (createProto calls).inv G s tr) {id : String}
    (hG : G t = .owns id) {e : Event machine} :
    (createProto calls).inv (Function.update G t (.charged id)) s (tr ++ [(t, e)]) := by
  have hpers : Persist s s := Persist.of_payments rfl
  have hf := h.1.fact t
  rw [hG] at hf
  refine ⟨h.1.step ⟨hf.1, ?_⟩ (fun k hk => .inl (by rw [hG]; exact hk)) ?_, h.2⟩
  · have hc : charges t tr ≤ 0 := hf.2
    rw [charges_append_self]
    show _ ≤ 1
    split <;> omega
  · exact fun u g hu hg _ => stageFact_of_persist hg hpers (charges_append_of_ne tr e hu)

variable {α : Type} {Q : Except Err α → CreateStage → Prop} {g : CreateStage}

theorem createProto_quiet {o : Op} {f : o.Ans → Service α} (ho : o.writesPayments = false)
    (hc : o.isCharge = false) (hok : ∀ a, (createProto calls).WP t Q (f a) g)
    (herr : ∀ e d s s', exec o d s = (.error e, s') → Q (.error e) g) :
    (createProto calls).WP t Q ((request o).bind f) g := by
  refine Proto.WP.perform_bind fun G s tr d r s' hG hi _ hx => ?_
  have hp := exec_payments ho hx
  refine ⟨Persist.of_payments hp, Proto.keep hG (createProto_same hi hp hc) ?_⟩
  cases r with
  | ok a => exact hok a
  | error e => exact herr e d s s' hx

/-- What a call ends with: if it returns, then the payment of its row. -/
def Ended (r : Except Err SerializedPayment) (g : CreateStage) : Prop :=
  ∀ a, r = .ok a → g.id? = some a.payment.id

theorem ended_error {e : Err} {g : CreateStage} : Ended (.error e) g := fun _ h => by cases h

/-- `create` after the insert: one charge, and the row of the call is returned. -/
theorem createProto_charging (provider : PaymentProvider) (dto : CreatePaymentDto) (key : String)
    (ctx : OrgContext) (payment : Payment) :
    (createProto calls).WP t Ended
      ((charge provider dto key ctx payment).tryCatch (chargeFailed dto payment))
      (.owns payment.id) := by
  refine Proto.WP.tryCatch ?_
  have hfailed : ∀ e, (createProto calls).WP t Ended (chargeFailed dto payment e)
      (.charged payment.id) := by
    intro e
    refine createProto_quiet rfl rfl (fun _ => ?_) fun _ _ _ _ _ => ended_error
    refine Proto.WP.perform_bind fun G s tr d r s' hG hi _ hx => ?_
    rcases exec_failPayment hx with ⟨e, rfl, rfl⟩ | ⟨q, rfl, hu, -⟩
    · exact ⟨Persist.of_payments rfl, Proto.keep hG (createProto_same hi rfl rfl) ended_error⟩
    · exact ⟨Persist.update hu (fun _ => rfl),
        Proto.keep hG (createProto_update hi hu (fun _ => rfl) rfl) ended_error⟩
  refine Proto.WP.perform_bind fun G s tr d r s' hG hi _ hx => ?_
  obtain ⟨rfl, rfl⟩ := Prod.mk.inj hx
  refine ⟨Persist.of_payments rfl, .charged payment.id, createProto_charge hi hG, ?_⟩
  cases d.charge.answer with
  | error e => exact hfailed e
  | ok result =>
    refine Proto.WP.perform_bind fun G s tr d r s' hG hi _ hx => ?_
    rcases exec_recordCharge hx with ⟨e, rfl, rfl⟩ | ⟨q, rfl, hw⟩
    · exact ⟨Persist.of_payments rfl, Proto.keep hG (createProto_same hi rfl rfl) (hfailed e)⟩
    · refine ⟨Persist.update hw.payments (fun _ => rfl),
        Proto.keep hG (createProto_update hi hw.payments (fun _ => rfl) rfl) ?_⟩
      refine createProto_quiet rfl rfl (fun _ => ?_) fun e d s s' hx => by cases hx
      refine createProto_quiet rfl rfl (fun _ => ?_) fun e d s s' hx => by
        cases (exec_auditLog hx).1
      rintro a h
      cases h
      exact congrArg some (Table.key_update hw.payments).symm

/-- **Each call keeps the protocol.** -/
theorem createProto_create (registry : ProviderRegistry) (t : ι) :
    (createProto calls).WP t Ended
      (create registry (calls t).dto (calls t).idempotencyKey (calls t).ctx) .idle := by
  refine Proto.WP.ofExcept_bind (fun key hkey => ?_) fun _ _ => ended_error
  have hfor : ∀ p : Payment, p.organizationId = (calls t).ctx.organizationId →
      p.idempotencyKey = key → (calls t).isFor p.organizationId p.idempotencyKey := by
    intro p horg hk
    simp [CreateCall.isFor, horg, hk, checkKey_ok hkey]
  refine Proto.WP.perform_bind fun G s tr d r s' hG hi _ hx => ?_
  obtain ⟨rfl, ⟨e, rfl⟩ | ⟨rfl, -⟩ | ⟨p, rfl, hp, hw⟩⟩ := exec_findPayment hx
  · exact ⟨Persist.of_payments rfl, Proto.keep hG (createProto_same hi rfl rfl) ended_error⟩
  · refine ⟨Persist.of_payments rfl, Proto.keep hG (createProto_same hi rfl rfl) ?_⟩
    refine Proto.WP.ofExcept_bind (fun provider _ => ?_) fun _ _ => ended_error
    refine createProto_quiet rfl rfl (fun _ => ?_) fun _ _ _ _ _ => ended_error
    refine Proto.WP.ofExcept_bind (fun method _ => ?_) fun _ _ => ended_error
    refine Proto.WP.perform_bind fun G s tr d r s' hG hi _ hx => ?_
    rcases exec_insertPayment hx with ⟨e, rfl, rfl⟩ | ⟨p, rfl, hins⟩
    · exact ⟨Persist.of_payments rfl, Proto.keep hG (createProto_same hi rfl rfl) ended_error⟩
    · obtain ⟨c, rfl, -⟩ := hins.row
      exact ⟨Persist.insert hins.payments, _,
        createProto_insert hi hG hins.payments rfl (hfor _ rfl rfl) rfl,
        createProto_charging provider _ key _ _⟩
  · obtain ⟨horg, hk⟩ := PaymentWhere.holds_org_key.mp hw
    refine ⟨Persist.of_payments rfl, .found p.id,
      createProto_found hi hG hp (hfor p horg hk) rfl, ?_⟩
    rintro a h
    cases h
    rfl

end Pool

/-! ## Runs -/

section Runs

variable {ι : Type} [DecidableEq ι] (registry : ProviderRegistry) (calls : ι → CreateCall)

def startCreates (w : World) : Conf machine ι SerializedPayment :=
  Conf.start w fun t => create registry (calls t).dto (calls t).idempotencyKey (calls t).ctx

/-- What holds of a key of an organization after a run: it has one row at most, now and later; it
was charged once at most; and the calls for it that returned, returned that row. -/
structure OneCharge (c : Conf machine ι SerializedPayment) (org key : String) : Prop where
  row : ∀ c', Conf.Reach Conc.Any c c' → ∀ p ∈ c.st.payments, ∀ q ∈ c'.st.payments,
    p.organizationId = org → p.idempotencyKey = key →
      q.organizationId = org → q.idempotencyKey = key → p.id = q.id
  charge : chargesFor calls org key c.trace ≤ 1
  returned : ∀ t a, (calls t).isFor org key → c.thr t = .ret a →
    ∃ p ∈ c.st.payments, p.organizationId = org ∧ p.idempotencyKey = key ∧ a.payment.id = p.id

theorem createProto_start {w : World} (hw : w.payments = .empty) :
    (createProto calls).Ok (fun _ => Ended) (startCreates registry calls w) := by
  refine ⟨fun _ => .idle, ⟨Owning.Inv.start (fun t => ?_) rfl, ?_⟩, createProto_create registry⟩
  · exact ⟨(fun id hid => by cases hid), le_refl 0⟩
  · intro p hp
    change p ∈ w.payments at hp
    rw [hw] at hp
    exact absurd hp Table.not_mem_empty

variable {registry calls}

theorem reach_persist {w : World} (hw : w.payments = .empty)
    {c c' : Conf machine ι SerializedPayment}
    (hr : Conf.Reach Conc.Any (startCreates registry calls w) c)
    (hr' : Conf.Reach Conc.Any c c') : Persist c.st c'.st := by
  induction hr' with
  | refl => exact Persist.of_payments rfl
  | tail hr₂ hs ih =>
    intro p hp
    obtain ⟨q, hq, hid, horg, hkey⟩ := ih p hp
    obtain ⟨q', hq', hid', horg', hkey'⟩ :=
      Proto.guar_step (createProto_start registry calls hw) (hr.trans hr₂) hs q hq
    exact ⟨q', hq', hid'.trans hid, horg'.trans horg, hkey'.trans hkey⟩

/-- Two calls that charged for one key are the same call: they own the same row. -/
theorem charged_unique {G : ι → CreateStage} {s : World} {tr : List (ι × Event machine)}
    (h : (createProto calls).inv G s tr) {org key : String} {e e' : ι × Event machine}
    (he : e ∈ tr) (he' : e' ∈ tr) (hc : e.2.op.isCharge) (hc' : e'.2.op.isCharge)
    (hf : (calls e.1).isFor org key) (hf' : (calls e'.1).isFor org key) : e.1 = e'.1 := by
  have hrow : ∀ e ∈ tr, e.2.op.isCharge → (calls e.1).isFor org key →
      ∃ p ∈ s.payments, (G e.1).owner = some p.id ∧ p.organizationId = org ∧
        p.idempotencyKey = key := by
    intro e he hc hf
    have hpos : 0 < charges e.1 tr := List.countP_pos_iff.mpr ⟨e, he, by simp [hc]⟩
    obtain ⟨hid, hle⟩ := h.1.fact e.1
    have hbudget : 0 < (G e.1).budget := hpos.trans_le hle
    cases hg : G e.1 with
    | charged id =>
      rw [hg] at hid
      obtain ⟨p, hp, rfl, hfor⟩ := hid id rfl
      simp only [CreateCall.isFor, decide_eq_true_eq] at hf hfor
      refine ⟨p, hp, rfl, hfor.1.symm.trans hf.1, ?_⟩
      exact Option.some.inj (hfor.2.symm.trans hf.2)
    | idle => rw [hg] at hbudget; exact absurd hbudget (Nat.lt_irrefl 0)
    | owns id => rw [hg] at hbudget; exact absurd hbudget (Nat.lt_irrefl 0)
    | found id => rw [hg] at hbudget; exact absurd hbudget (Nat.lt_irrefl 0)
  obtain ⟨p, hp, ho, horg, hkey⟩ := hrow e he hc hf
  obtain ⟨p', hp', ho', horg', hkey'⟩ := hrow e' he' hc' hf'
  have hpp : p = p' := h.2.unique hp hp' (horg.trans horg'.symm) (hkey.trans hkey'.symm)
  rw [hpp] at ho
  exact h.1.excl _ _ _ ho ho'

theorem chargesFor_le_one {G : ι → CreateStage} {s : World} {tr : List (ι × Event machine)}
    (h : (createProto calls).inv G s tr) (org key : String) : chargesFor calls org key tr ≤ 1 := by
  by_cases hpos : 0 < chargesFor calls org key tr
  · obtain ⟨e, he, hpe⟩ := List.countP_pos_iff.mp hpos
    rw [Bool.and_eq_true] at hpe
    have hle : chargesFor calls org key tr ≤ charges e.1 tr := by
      refine List.countP_mono_left fun e' he' hpe' => ?_
      rw [Bool.and_eq_true] at hpe'
      have hsame : e'.1 = e.1 := charged_unique h he' he hpe'.1 hpe.1 hpe'.2 hpe.2
      simp [hsame, hpe'.1]
    exact hle.trans ((h.1.fact e.1).2.trans (G e.1).budget_le)
  · omega

end Runs

/-- **One charge for each idempotency key**, in every run of `create` calls of any organizations
from a table without payments. -/
theorem one_charge_per_key {ι : Type} [DecidableEq ι] (registry : ProviderRegistry)
    (calls : ι → CreateCall) (w : World) (hw : w.payments = .empty)
    (c : Conf machine ι SerializedPayment)
    (hr : Conf.Reach Conc.Any (startCreates registry calls w) c) (org key : String) :
    OneCharge calls c org key := by
  have h₀ := createProto_start registry calls hw
  refine ⟨fun c' hr' p hp q hq horg hkey horg' hkey' => ?_, ?_, fun t a hfor ht => ?_⟩
  · obtain ⟨p', hp', hid, horg'', hkey''⟩ := reach_persist hw hr hr' p hp
    obtain ⟨G, hi, -⟩ := Proto.sound h₀ (hr.trans hr')
    have hpq : p' = q := hi.2.unique hp' hq (by rw [horg'', horg, horg'])
      (by rw [hkey'', hkey, hkey'])
    rw [← hpq, hid]
  · obtain ⟨G, hi, -⟩ := Proto.sound h₀ hr
    exact chargesFor_le_one hi org key
  · obtain ⟨G, hi, hended⟩ := (Proto.sound h₀ hr).returned ht
    obtain ⟨p, hp, hid, hfor'⟩ := (hi.1.fact t).1 _ (hended a rfl)
    simp only [CreateCall.isFor, decide_eq_true_eq] at hfor hfor'
    refine ⟨p, hp, hfor'.1.symm.trans hfor.1, ?_, hid.symm⟩
    exact Option.some.inj (hfor'.2.symm.trans hfor.2)

/-! ### Two calls for one key -/

def twoCreates : Conf machine Bool SerializedPayment :=
  startCreates fakeRegistry (fun _ => ⟨sampleDto, some "key", sampleCtx⟩) World.empty

/-- Neither call finds the key; the first one inserts, the second one is refused, and the first one
charges. -/
def race : List (Bool × Decision) := [
  (true, {}), (false, {}), (true, {}), (false, {}),
  (true, { newId := fun _ => "a" }), (false, { newId := fun _ => "b" }),
  (true, { charge := .answered ⟨"fake_key", .captured, .null⟩ }),
  (true, { newId := fun _ => "c" }), (true, {}), (true, {})]

theorem one_charge_sample :
    OneCharge (fun _ => ⟨sampleDto, some "key", sampleCtx⟩) (twoCreates.play race) "org" "key" :=
  one_charge_per_key fakeRegistry (fun _ => ⟨sampleDto, some "key", sampleCtx⟩) World.empty rfl _
    (Conf.reach_play (Conf.plays_any twoCreates race)) "org" "key"

end Pasarela
