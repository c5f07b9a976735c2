import Pasarela.Conc.Acts
import Pasarela.Conc.Owned
import Pasarela.Durability
import Pasarela.Store.Journal

/-!
# The audit log of the payments

* `EntryKey`: what an entry is about: the charge of a payment, or a refund. `recording?`: the
  transaction that it is the entry of.
* `PaymentLogTells`: what an entry says is so.
* `TrailStage`: how far a call is. A call that inserted a payment, or recorded a refund, owns the
  entry about it until it asks for it.
* `TrailInv`: the audit log is right if it was, the new entries are of what the calls recorded, and
  for what a call recorded it has asked for the entry (`Entered`), or is about to. `trail_step` and
  `trail_log` are the rules for a request.
-/

namespace Pasarela

open Conc (Any Conf Event Owning Prog Proto replay replay_snoc)
open Store (AskedAt Journal.Right Table)
open PaymentsService

namespace AuditService

/-- `findByResource`: the oldest first. -/
def findByResource (d : Decision) (resourceId organizationId : String) (s : World) : List AuditLog :=
  (s.auditLogs.rows.filter fun log =>
    log.resourceId = resourceId ∧ log.organizationId = some organizationId).insertionSort
      fun a b => a.createdAt < b.createdAt ∨ a.createdAt = b.createdAt ∧ d.rank a.id ≤ d.rank b.id

theorem mem_findByResource {d : Decision} {resourceId organizationId : String} {s : World}
    {log : AuditLog} : log ∈ findByResource d resourceId organizationId s ↔
      log ∈ s.auditLogs ∧ log.resourceId = resourceId ∧ log.organizationId = some organizationId := by
  rw [findByResource, List.mem_insertionSort, List.mem_filter, decide_eq_true_eq]
  rfl

end AuditService

/-! ## The entries -/

/-- What an entry is about (module doc). -/
inductive EntryKey where
  | created (paymentId : String)
  | refunded (paymentId refundId : String)
  deriving DecidableEq, Repr

def EntryKey.payment : EntryKey → String
  | .created paymentId => paymentId
  | .refunded paymentId _ => paymentId

/-- The row that the entry is about is there. -/
def World.Keeps (s : World) : EntryKey → Prop
  | .created paymentId => ∃ p ∈ s.payments, p.id = paymentId
  | .refunded _ refundId => ∃ x ∈ s.refunds, x.id = refundId

/-- The entry is about `k`. -/
def AuditLog.About (log : AuditLog) : EntryKey → Prop
  | .created paymentId => log.action = "payment.created" ∧ log.resourceId = paymentId
  | .refunded paymentId refundId => log.action = "payment.refunded" ∧ log.resourceId = paymentId ∧
      ∃ status, log.after = some (.obj [("status", .str status), ("refundId", .str refundId)])

/-- The status that a refund leaves. -/
def Refund.leaves (x : Refund) (p : Payment) : PaymentStatus :=
  if x.amountMinor < p.amountMinor then .partiallyRefunded else .refunded

/-- The entry is about the charge of `p`, for which the provider reported `reported`. -/
structure TellsCharge (s : World) (log : AuditLog) (p : Payment) (reported : ChargeStatus) : Prop where
  tenant : log.tenantId = p.organizationId
  resource : log.resourceId = p.id
  organization : log.organizationId = some p.organizationId
  after : log.after = some (.obj [("status", .str (mapProviderStatus reported).text),
    ("providerId", .str p.providerId)])
  event : ∃ ev ∈ s.events, ev.paymentId = p.id ∧ ev.type = "provider." ++ reported.text

/-- The entry is about the refund `x` of `p`, which had the status `status`. -/
structure TellsRefund (log : AuditLog) (p : Payment) (x : Refund) (status : PaymentStatus) : Prop where
  tenant : log.tenantId = p.tenantId
  resource : log.resourceId = p.id
  organization : log.organizationId = some p.organizationId
  refund : x.paymentId = p.id
  refundable : status = .captured ∨ status = .partiallyRefunded
  before : log.before = some (.obj [("status", .str status.text)])
  after : log.after = some (.obj [("status", .str (x.leaves p).text), ("refundId", .str x.id)])

/-- What the entry says is so. -/
structure PaymentLogTells (s : World) (log : AuditLog) : Prop where
  created : log.action = "payment.created" → ∃ p ∈ s.payments, ∃ reported,
    TellsCharge s log p reported
  refunded : log.action = "payment.refunded" → ∃ p ∈ s.payments, ∃ x ∈ s.refunds, ∃ status,
    TellsRefund log p x status

/-- The audit log tells the truth, and once at most of each charge and of each refund. -/
abbrev World.AuditOk (s : World) : Prop :=
  Journal.Right (PaymentLogTells s) AuditLog.About s.auditLogs.rows

section Entries

variable {s s' : World} {log : AuditLog} {k : EntryKey} {p q : Payment} {x : Refund}

/-- Later versions of the rows do as well. -/
theorem PaymentLogTells.durable (h : PaymentLogTells s log) (hd : s.Durable s') :
    PaymentLogTells s' log := by
  constructor
  · intro ha
    obtain ⟨p, hp, reported, ht⟩ := h.created ha
    obtain ⟨q, hq, hcore⟩ := hd.later hp
    obtain ⟨ev, hev, hof, htype⟩ := ht.event
    refine ⟨q, hq, reported, ?_, ?_, ?_, ?_, ev, hd.events.subset hev, ?_, htype⟩
    · rw [ht.tenant, Payment.core_org hcore]
    · rw [ht.resource, Payment.core_id hcore]
    · rw [ht.organization, Payment.core_org hcore]
    · rw [ht.after, Payment.core_providerId hcore]
    · rw [hof, Payment.core_id hcore]
  · intro ha
    obtain ⟨p, hp, x, hx, status, ht⟩ := h.refunded ha
    obtain ⟨q, hq, hcore⟩ := hd.later hp
    refine ⟨q, hq, x, hd.refunds.subset hx, status, ?_, ?_, ?_, ?_, ht.refundable, ht.before, ?_⟩
    · rw [ht.tenant, Payment.core_tenant hcore]
    · rw [ht.resource, Payment.core_id hcore]
    · rw [ht.organization, Payment.core_org hcore]
    · rw [ht.refund, Payment.core_id hcore]
    · rw [ht.after, Refund.leaves, Refund.leaves, Payment.core_amount hcore]

theorem PaymentLogTells.keeps (h : PaymentLogTells s log) (hk : log.About k) : s.Keeps k := by
  cases k with
  | created paymentId =>
    obtain ⟨p, hp, reported, ht⟩ := h.created hk.1
    exact ⟨p, hp, ht.resource.symm.trans hk.2⟩
  | refunded paymentId refundId =>
    obtain ⟨ha, -, text, hafter⟩ := hk
    obtain ⟨p, hp, x, hx, status, ht⟩ := h.refunded ha
    rw [ht.after] at hafter
    simp only [Option.some.injEq, Js.Json.obj.injEq, List.cons.injEq, Prod.mk.injEq,
      Js.Json.str.injEq, true_and, and_true] at hafter
    exact ⟨x, hx, hafter.2⟩

theorem PaymentLogTells.payment (h : PaymentLogTells s log) (hk : log.About k) :
    ∃ p ∈ s.payments, p.id = k.payment ∧ log.resourceId = p.id ∧
      log.organizationId = some p.organizationId := by
  cases k with
  | created paymentId =>
    obtain ⟨p, hp, reported, ht⟩ := h.created hk.1
    exact ⟨p, hp, ht.resource.symm.trans hk.2, ht.resource, ht.organization⟩
  | refunded paymentId refundId =>
    obtain ⟨ha, hres, -⟩ := hk
    obtain ⟨p, hp, x, hx, status, ht⟩ := h.refunded ha
    exact ⟨p, hp, ht.resource.symm.trans hres, ht.resource, ht.organization⟩

theorem World.AuditOk.durable (h : s.AuditOk) (hd : s.Durable s') (hl : s'.auditLogs = s.auditLogs) :
    s'.AuditOk := by
  rw [World.AuditOk, hl]
  exact h.mono fun log ht => ht.durable hd

end Entries

/-! ## The calls -/

/-- What the transaction of the request has to be entered as. -/
def recording? : Event machine → Option EntryKey
  | ⟨.recordCharge payment _ _, _, .ok _⟩ => some (.created payment.id)
  | ⟨.recordRefund payment _ _ _ _, _, .ok a⟩ => some (.refunded payment.id a.2.id)
  | _ => none

/-- The entry that the request is for. -/
def entryOf : Event machine → Option AuditLog
  | ⟨.auditLog entry, d, _⟩ => some (newAuditLog d entry)
  | _ => none

/-- The requests that neither record anything nor write an entry. -/
def Op.quiet : Op → Bool
  | .recordCharge _ _ _ => false
  | .recordRefund _ _ _ _ _ => false
  | .auditLog _ => false
  | _ => true

/-- How far a call is (module doc). -/
inductive TrailStage where
  | idle
  /-- It found the payment. -/
  | found (p : Payment)
  /-- It inserted the payment. -/
  | inserted (p : Payment)
  /-- It recorded `k`, and has not asked for the entry. -/
  | due (k : EntryKey) (entry : AuditEntry)

def TrailStage.owner : TrailStage → Option EntryKey
  | .inserted p => some (.created p.id)
  | .due k _ => some k
  | _ => none

def TrailStage.due? : TrailStage → Option EntryKey
  | .due k _ => some k
  | _ => none

section Pool

variable {ι : Type} (calls : ι → ServiceCall) (w : World)

/-- The call is one of the user and of the organization. -/
def CalledBy (t : ι) (organizationId actorId : Option String) : Prop :=
  ∃ call, calls t = .payments call ∧ organizationId = some call.ctx.organizationId ∧
    actorId = some call.ctx.userId

/-- What a call knows about the entry that it has to write. -/
structure IsDue (t : ι) (k : EntryKey) (entry : AuditEntry) (s : World)
    (tr : List (ι × Event machine)) : Prop where
  recorded : ∃ e, (t, e) ∈ tr ∧ recording? e = some k
  caller : CalledBy calls t entry.organizationId entry.actorId
  tells : ∀ d, PaymentLogTells s (newAuditLog d entry)
  about : ∀ d k', (newAuditLog d entry).About k' ↔ k' = k
  fresh : w.AuditOk → ∀ log ∈ s.auditLogs, ¬ log.About k

def trailFact (t : ι) (g : TrailStage) (x : World × List (ι × Event machine)) : Prop :=
  match g with
  | .idle => True
  | .found p => ∃ q ∈ x.1.payments, q.core = p.core
  | .inserted p => (∃ q ∈ x.1.payments, q.core = p.core) ∧
      (w.AuditOk → ∀ log ∈ x.1.auditLogs, ¬ log.About (.created p.id))
  | .due k entry => IsDue calls w t k entry x.1 x.2

/-- The calls, which own the entries that they are to write. -/
def trailOwning : Owning ι TrailStage (World × List (ι × Event machine)) EntryKey where
  fact := trailFact calls w
  owner := TrailStage.owner

/-- The call has asked for the entry about `k`, which is in the audit log, or the database refused
it. -/
def Entered (t : ι) (k : EntryKey) (s : World) (tr : List (ι × Event machine)) : Prop :=
  ∃ i log, AskedAt (M := machine) (·.auditLogs.rows) entryOf w tr t i log s.auditLogs.rows ∧
    log.About k

/-- The entry is of what a call recorded. -/
def OfRun (tr : List (ι × Event machine)) (log : AuditLog) : Prop :=
  ∃ t e k, (t, e) ∈ tr ∧ recording? e = some k ∧ log.About k ∧
    CalledBy calls t log.organizationId log.actorId

/-- What holds after the requests `tr` from `w` (module doc). -/
structure TrailInv (G : ι → TrailStage) (s : World) (tr : List (ι × Event machine)) : Prop where
  owning : (trailOwning calls w).Inv G (s, tr)
  replayed : s = replay w tr
  audit : w.AuditOk → s.AuditOk
  ofRun : ∀ log ∈ s.auditLogs, log ∈ w.auditLogs ∨ OfRun calls tr log
  entered : ∀ t e k, (t, e) ∈ tr → recording? e = some k →
    (G t).due? = some k ∨ Entered w t k s tr

def trailProto : Proto machine ι TrailStage where
  allow := Any
  inv := TrailInv calls w

end Pool

/-! ## One request -/

section Request

variable {d : Decision} {s s' : World} {o : Op}

theorem exec_entry {entry : AuditEntry} {r : Except Err Unit}
    (hx : exec (.auditLog entry) d s = (r, s')) : r = .ok () ∧
      (s' = s ∨ ∃ t, s.auditLogs.insert (newAuditLog d entry) = .ok t ∧
        s' = { s with auditLogs := t }) := by
  refine ⟨(exec_auditLog hx).1, ?_⟩
  obtain ⟨-, rfl⟩ := Prod.mk.inj hx
  rcases atomically_cases d (createAuditLog (newAuditLog d entry)) s with
    ⟨e, he⟩ | ⟨a, s₁, -, htx, ha⟩
  · rw [he]
    exact .inl rfl
  · obtain ⟨-, t, ht, rfl⟩ := insertInto_ok.mp htx
    rw [ha]
    exact .inr ⟨t, ht, rfl⟩

/-- The other requests leave the audit log as it is. -/
theorem exec_auditLogs_eq {r : Except Err o.Ans} (ho : ∀ entry, o ≠ .auditLog entry)
    (hx : exec o d s = (r, s')) : s'.auditLogs = s.auditLogs := by
  cases o with
  | auditLog entry => exact absurd rfl (ho entry)
  | insertPayment orgId dto key providerId method =>
    rcases exec_insertPayment hx with ⟨e, -, rfl⟩ | ⟨p, -, h⟩
    · rfl
    · rw [h.others]
  | recordCharge payment result st =>
    rcases exec_recordCharge hx with ⟨e, -, rfl⟩ | ⟨q, -, h⟩
    · rfl
    · rw [h.others]
  | failPayment payment message =>
    rcases exec_failPayment hx with ⟨e, -, rfl⟩ | ⟨q, -, -, hs⟩
    · rfl
    · rw [hs]
  | recordRefund payment st body amount result =>
    rcases exec_recordRefund hx with ⟨e, -, rfl⟩ | ⟨q, -, -, h⟩
    · rfl
    · have hl := congrArg World.auditLogs h.others
      exact hl
  | applyWebhook payment st event =>
    rcases exec_applyWebhook hx with ⟨e, -, rfl⟩ | ⟨q, -, h⟩
    · rfl
    · rw [h.others]
  | applyReconciliation payment st raw =>
    rcases exec_applyReconciliation hx with ⟨e, -, rfl⟩ | ⟨q, -, h⟩
    · rfl
    · rw [h.others]
  | markProcessed id => rw [exec_markProcessed hx]
  | createInbound providerId event headers =>
    rcases exec_createInbound hx with ⟨e, -, rfl⟩ | ⟨-, -, hs⟩
    · rfl
    · rw [hs]
  | enqueueWebhook providerId inboundId event =>
    simp only [exec] at hx
    rcases atomically_eq hx with ⟨e, -, rfl⟩ | ⟨a, -, htx⟩
    · rfl
    · cases htx; rfl
  | findPayment w => rw [(query_eq hx).1]
  | findPaymentWithEvents w => simp only [exec] at hx; rw [(query_eq hx).1]
  | pagePayments w skip take => simp only [exec] at hx; rw [(query_eq hx).1]
  | findInbound providerId externalId => simp only [exec] at hx; rw [(query_eq hx).1]
  | incrementPending country => obtain ⟨-, rfl⟩ := Prod.mk.inj hx; rfl
  | decrementPending country => obtain ⟨-, rfl⟩ := Prod.mk.inj hx; rfl
  | createCharge providerId input => obtain ⟨-, rfl⟩ := Prod.mk.inj hx; rfl
  | refundCharge providerId input => obtain ⟨-, rfl⟩ := Prod.mk.inj hx; rfl
  | retrieveCharge providerId externalId => obtain ⟨-, rfl⟩ := Prod.mk.inj hx; rfl

theorem recording?_of_quiet {e : Event machine} (ho : Op.quiet e.op) : recording? e = none := by
  obtain ⟨o, d, r⟩ := e
  cases o with
  | recordCharge payment result st => cases ho
  | recordRefund payment st body amount result => cases ho
  | _ => rfl

end Request

section Step

variable {ι : Type} {calls : ι → ServiceCall} {w s s' : World} {tr : List (ι × Event machine)}
  {t u : ι} {e : Event machine} {k : EntryKey} {entry : AuditEntry} {g : TrailStage}
  {G : ι → TrailStage}

/-- What a call knows stays so, if no entry is written that it is to write. -/
theorem trailFact_mono (h : trailFact calls w t g (s, tr)) (hd : s.Durable s')
    (hl : ∀ k, g.owner = some k → ∀ log ∈ s'.auditLogs, log.About k → log ∈ s.auditLogs) :
    trailFact calls w t g (s', tr ++ [(u, e)]) := by
  have hlater : ∀ p : Payment, (∃ q ∈ s.payments, q.core = p.core) →
      ∃ q ∈ s'.payments, q.core = p.core := by
    rintro p ⟨q, hq, hcore⟩
    obtain ⟨q', hq', hcore'⟩ := hd.later hq
    exact ⟨q', hq', hcore'.trans hcore⟩
  cases g with
  | idle => trivial
  | found p => exact hlater p h
  | inserted p =>
    exact ⟨hlater p h.1, fun h₀ log hlog hk => h.2 h₀ log (hl _ rfl log hlog hk) hk⟩
  | due k entry =>
    have h : IsDue calls w t k entry s tr := h
    obtain ⟨e', he', hrec⟩ := h.recorded
    exact ⟨⟨e', List.mem_append_left _ he', hrec⟩, h.caller, fun d => (h.tells d).durable hd, h.about,
      fun h₀ log hlog hk => h.fresh h₀ log (hl _ rfl log hlog hk) hk⟩

theorem trailFact_keeps (h : trailFact calls w t g (s, tr)) (hk : g.owner = some k) : s.Keeps k := by
  cases g with
  | inserted p =>
    cases hk
    obtain ⟨⟨q, hq, hcore⟩, -⟩ := h
    exact ⟨q, hq, Payment.core_id hcore⟩
  | due k' entry =>
    cases hk
    have h : IsDue calls w t k entry s tr := h
    exact (h.tells {}).keeps ((h.about {} k).mpr rfl)
  | _ => cases hk

theorem Entered.snoc (h : Entered w t k s tr) (hl : ∀ log ∈ s.auditLogs, log ∈ s'.auditLogs) :
    Entered w t k s' (tr ++ [(u, e)]) := by
  obtain ⟨i, log, hasked, hk⟩ := h
  exact ⟨i, log, hasked.snoc fun log hlog => hl log hlog, hk⟩

theorem OfRun.snoc {log : AuditLog} (h : OfRun calls tr log) : OfRun calls (tr ++ [(u, e)]) log := by
  obtain ⟨t, e', k, ht, hk⟩ := h
  exact ⟨t, e', k, List.mem_append_left _ ht, hk⟩

theorem TrailInv.replay_snoc (h : TrailInv calls w G s tr)
    (hx : exec e.op e.dec s = (e.ans, s')) : s' = replay w (tr ++ [(t, e)]) := by
  rw [Conc.replay_snoc, ← h.replayed]
  exact (congrArg Prod.snd hx).symm

variable [DecidableEq ι]

/-- **A request that writes no entry.** The call knows `g` afterwards; what it recorded is due. -/
theorem trail_step (h : TrailInv calls w G s tr) (hx : exec e.op e.dec s = (e.ans, s'))
    (ho : ∀ entry, e.op ≠ .auditLog entry) (hf : trailFact calls w t g (s', tr ++ [(t, e)]))
    (hown : ∀ k, g.owner = some k → (G t).owner = some k ∨ ∀ u, (G u).owner ≠ some k)
    (hrec : ∀ k, recording? e = some k → g.due? = some k)
    (hdue : ∀ k, (G t).due? = some k → g.due? = some k) :
    TrailInv calls w (Function.update G t g) s' (tr ++ [(t, e)]) := by
  have hl := exec_auditLogs_eq ho hx
  have hd := exec_durable hx
  refine ⟨h.owning.step hf hown fun u g' _ hu _ => ?_, h.replay_snoc hx, fun h₀ => ?_,
    fun log hlog => ?_, fun u e' k hmem hk => ?_⟩
  · exact trailFact_mono hu hd fun k _ log hlog _ => by rwa [hl] at hlog
  · exact (h.audit h₀).durable hd hl
  · rw [hl] at hlog
    exact (h.ofRun log hlog).imp_right OfRun.snoc
  · rcases List.mem_append.mp hmem with hmem | hmem
    · rcases h.entered u e' k hmem hk with hu | hu
      · by_cases hut : u = t
        · subst hut
          rw [Function.update_self]
          exact .inl (hdue k hu)
        · rw [Function.update_of_ne hut]
          exact .inl hu
      · exact .inr (hu.snoc fun log hlog => by rwa [hl])
    · rw [List.mem_singleton] at hmem
      cases hmem
      rw [Function.update_self]
      exact .inl (hrec k hk)

/-- **The request for an entry.** It is written, or the database refused it. -/
theorem trail_log (h : TrailInv calls w G s tr) (hG : G t = .due k entry) {d : Decision}
    {r : Except Err Unit} (hx : exec (.auditLog entry) d s = (r, s')) :
    TrailInv calls w (Function.update G t .idle) s'
      (tr ++ [(t, (⟨.auditLog entry, d, r⟩ : Event machine))]) := by
  have hfact : trailFact calls w t (G t) (s, tr) := h.owning.fact t
  rw [hG] at hfact
  have hk : IsDue calls w t k entry s tr := hfact
  have hd := exec_durable hx
  have hreplay := h.replay_snoc (e := ⟨.auditLog entry, d, r⟩) (t := t) hx
  -- the entry is about `k` only, and this call is the only one that is to write it
  have hnew : ∀ log ∈ s'.auditLogs, log ∈ s.auditLogs ∨ log = newAuditLog d entry := by
    intro log hlog
    rcases (exec_entry hx).2 with rfl | ⟨logs, hins, rfl⟩
    · exact .inl hlog
    · exact (Table.mem_insert hins).mp hlog
  have hmono : ∀ log ∈ s.auditLogs, log ∈ s'.auditLogs := fun log hlog => hd.auditLogs.subset hlog
  refine ⟨h.owning.step trivial (fun k hk => by cases hk) fun u g' _ hu hne => ?_, hreplay,
    fun h₀ => ?_, fun log hlog => ?_, fun u e' k' hmem hk' => ?_⟩
  · refine trailFact_mono hu hd fun k' hk' log hlog hab => ?_
    rcases hnew log hlog with hlog | rfl
    · exact hlog
    · refine absurd ?_ (hne k' hk')
      rw [hG, (hk.about d k').mp hab]
      rfl
  · rcases (exec_entry hx).2 with rfl | ⟨logs, hins, rfl⟩
    · exact h.audit h₀
    · refine ((h.audit h₀).insert hins (hk.tells d) fun k' hab log hlog => ?_).mono
        fun log ht => ht.durable hd
      rw [(hk.about d k').mp hab]
      exact hk.fresh h₀ log hlog
  · rcases hnew log hlog with hlog | rfl
    · exact (h.ofRun log hlog).imp_right OfRun.snoc
    · obtain ⟨e', he', hrec⟩ := hk.recorded
      refine .inr ⟨t, e', k, List.mem_append_left _ he', hrec, (hk.about d k).mpr rfl, ?_⟩
      obtain ⟨call, hcall, horg, hactor⟩ := hk.caller
      refine ⟨call, hcall, ?_, hactor⟩
      show some (entry.organizationId.getD entry.tenantId) = _
      rw [horg]
      rfl
  · have hmem' : (u, e') ∈ tr := by
      rcases List.mem_append.mp hmem with hmem | hmem
      · exact hmem
      · rw [List.mem_singleton] at hmem
        cases hmem
        cases hk'
    rcases h.entered u e' k' hmem' hk' with hu | hu
    · by_cases hut : u = t
      · subst hut
        rw [hG] at hu
        cases hu
        refine .inr ⟨tr.length, newAuditLog d entry, .last rfl ?_, (hk.about d k).mpr rfl⟩
        rcases (exec_entry hx).2 with rfl | ⟨logs, hins, rfl⟩
        · rw [← hreplay, ← h.replayed]
          exact .inr rfl
        · exact .inl ((Table.mem_insert hins).mpr (.inr rfl))
      · rw [Function.update_of_ne hut]
        exact .inl hu
    · exact .inr (hu.snoc hmono)

end Step

end Pasarela
