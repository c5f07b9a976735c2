import Pasarela.Conc.Local
import Pasarela.EventLog
import Pasarela.PaymentAudit

/-!
# What the audit log tells of the payments

* `trail_wp`, `quiet_wp`, `entry_wp`: one request of a call. `asks_quiet_wp`: a program that records
  nothing.
* `charge_trail`, `refund_trail`: the two programs that write entries. The entry is their last
  request (`service_last`).
* `payment_audit_tells`, `payment_audit_complete`: the audit log after a run.
-/

namespace Pasarela

open Conc (Any Conf Event Free LastOnly Prog Proto ownEvents)
open Store (AskedAt Journal.Right Table)
open PaymentsService

section Calls

variable {ι : Type} [DecidableEq ι] {calls : ι → ServiceCall} {w : World} {t : ι} {α β : Type}
  {g : TrailStage}

/-- A call that ends has nothing to enter. -/
abbrev NothingDue (_ : Except Err α) (g : TrailStage) : Prop := g.due? = none

theorem trail_wp {o : Op} {f : o.Ans → Service β} {Q : Except Err β → TrailStage → Prop}
    (ho : ∀ entry, o ≠ .auditLog entry)
    (h : ∀ G s tr d r s', TrailInv calls w G s tr → trailFact calls w t g (s, tr) →
      exec o d s = (r, s') → ∃ g', trailFact calls w t g' (s', tr ++ [(t, ⟨o, d, r⟩)]) ∧
        (∀ k, g'.owner = some k → g.owner = some k ∨ ∀ u, (G u).owner ≠ some k) ∧
        (∀ k, recording? ⟨o, d, r⟩ = some k → g'.due? = some k) ∧
        (∀ k, g.due? = some k → g'.due? = some k) ∧
        (∀ a, r = .ok a → (trailProto calls w).WP t Q (f a) g') ∧
        ∀ e, r = .error e → Q (.error e) g') :
    (trailProto calls w).WP t Q ((request o).bind f) g := by
  refine Proto.WP.perform_bind fun G s tr d r s' hG hi _ hx => ⟨trivial, ?_⟩
  have hfact : trailFact calls w t (G t) (s, tr) := hi.owning.fact t
  rw [hG] at hfact
  obtain ⟨g', hf, hown, hrec, hdue, hok, herr⟩ := h G s tr d r s' hi hfact hx
  rw [← hG] at hown hdue
  refine ⟨g', trail_step (e := ⟨o, d, r⟩) hi hx ho hf hown hrec hdue, ?_⟩
  cases r with
  | ok a => exact hok a rfl
  | error e => exact herr e rfl

theorem quiet_wp {o : Op} {f : o.Ans → Service β} {Q : Except Err β → TrailStage → Prop}
    (hq : o.quiet) (hok : ∀ a, (trailProto calls w).WP t Q (f a) g) (herr : ∀ e, Q (.error e) g) :
    (trailProto calls w).WP t Q ((request o).bind f) g := by
  have ho : ∀ entry, o ≠ .auditLog entry := fun entry h => by rw [h] at hq; cases hq
  refine trail_wp ho fun G s tr d r s' hi hf hx =>
    ⟨g, ?_, fun k hk => .inl hk, fun k hk => ?_, fun k hk => hk, fun a _ => hok a, fun e _ => herr e⟩
  · exact trailFact_mono hf (exec_durable hx) fun k _ log hlog _ => by
      rwa [exec_auditLogs_eq ho hx] at hlog
  · rw [recording?_of_quiet hq] at hk
    cases hk

theorem asks_quiet_wp {p : Service α} (hp : p.Asks (fun o : Op => o.quiet)) (hg : g.due? = none) :
    (trailProto calls w).WP t NothingDue p g := by
  refine (Proto.WP.of_asks hp fun G s tr o d _ hq hi _ => ⟨trivial, ?_⟩).mono fun r g' h => by
    rw [h]
    exact hg
  have ho : ∀ entry, o ≠ .auditLog entry := fun entry h => by
    rw [h] at hq
    cases hq
  have hl : (exec o d s).2.auditLogs = s.auditLogs := exec_auditLogs_eq ho rfl
  have hf : trailFact calls w t (G t) ((exec o d s).2, tr ++ [(t, .of o d s)]) :=
    trailFact_mono (hi.owning.fact t) (exec_durable rfl) fun k _ log hlog _ => hl ▸ hlog
  have hnext := trail_step hi rfl ho hf (fun k hk => .inl hk) (fun k hk => by
    rw [recording?_of_quiet hq] at hk
    cases hk) fun k hk => hk
  rwa [Function.update_eq_self] at hnext

theorem entry_wp {k : EntryKey} {entry : AuditEntry} {f : Unit → Service β}
    {Q : Except Err β → TrailStage → Prop} (hok : (trailProto calls w).WP t Q (f ()) .idle) :
    (trailProto calls w).WP t Q ((request (.auditLog entry)).bind f) (.due k entry) := by
  refine Proto.WP.perform_bind fun G s tr d r s' hG hi _ hx => ⟨trivial, .idle, ?_⟩
  obtain rfl : r = .ok () := (exec_entry hx).1
  exact ⟨trail_log hi hG hx, hok⟩

/-! ## The charge -/

omit [DecidableEq ι] in
/-- The entry for the charge of `p`, after its result was recorded. -/
theorem isDue_charge {s s' : World} {tr : List (ι × Event machine)} {d : Decision} {p q : Payment}
    {ctx : OrgContext} {provider : PaymentProvider} {result : ChargeResult}
    (hcall : CalledBy calls t (some ctx.organizationId) (some ctx.userId))
    (horg : p.organizationId = ctx.organizationId) (hprov : p.providerId = provider.id)
    (hf : trailFact calls w t (.inserted p) (s, tr))
    (hw : Written p.id (setCharge d result (mapProviderStatus result.status)) (keeps_setCharge d _ _)
      (newEvent d p.id ("provider." ++ result.status.text) result.raw) s q s') :
    IsDue calls w t (.created p.id)
      (createdEntry ctx q (mapProviderStatus result.status) provider.id) s'
      (tr ++ [(t, ⟨.recordCharge p result (mapProviderStatus result.status), d, .ok q⟩)]) := by
  obtain ⟨⟨p', hp', hcore⟩, hfresh⟩ := hf
  obtain ⟨a, ha, hid, rfl, -⟩ := Table.update_some hw.payments
  obtain rfl : a = p' := Table.eq_of_key ha hp' (hid.trans (Payment.core_id hcore).symm)
  have hqid : (setCharge d result (mapProviderStatus result.status) a).id = p.id :=
    Payment.core_id hcore
  have hqorg : (setCharge d result (mapProviderStatus result.status) a).organizationId =
      ctx.organizationId := (Payment.core_org hcore).trans horg
  refine ⟨⟨_, List.mem_append_right _ (List.mem_singleton_self _), rfl⟩, hcall, fun d' => ?_,
    fun d' k => ?_, fun h₀ log hlog => ?_⟩
  · refine ⟨fun _ => ⟨_, (Table.mem_update hw.payments).mpr (.inr rfl), result.status, ?_⟩, fun h => ?_⟩
    · refine ⟨hqorg.symm, rfl, congrArg some hqorg.symm, ?_, _,
        (Table.mem_insert hw.events).mpr (.inr rfl), hqid.symm, rfl⟩
      have hqprov : (setCharge d result (mapProviderStatus result.status) a).providerId =
          provider.id := (Payment.core_providerId hcore).trans hprov
      rw [hqprov]
      rfl
    · exact absurd (show "payment.created" = "payment.refunded" from h) (by decide)
  · constructor
    · intro hk
      cases k with
      | created id => exact congrArg EntryKey.created (hk.2.symm.trans hqid)
      | refunded id refundId =>
        exact absurd (show "payment.created" = "payment.refunded" from hk.1) (by decide)
    · rintro rfl
      exact ⟨rfl, hqid⟩
  · rw [hw.others] at hlog
    exact hfresh h₀ log hlog

theorem charge_trail {dto : CreatePaymentDto} {key : String} {ctx : OrgContext} {p : Payment}
    {provider : PaymentProvider}
    (hcall : CalledBy calls t (some ctx.organizationId) (some ctx.userId))
    (horg : p.organizationId = ctx.organizationId) (hprov : p.providerId = provider.id) :
    (trailProto calls w).WP t NothingDue
      ((charge provider dto key ctx p).tryCatch (chargeFailed dto p)) (.inserted p) := by
  have hfailed : ∀ e, (trailProto calls w).WP t NothingDue (chargeFailed dto p e) (.inserted p) := by
    refine fun e => asks_quiet_wp ?_ rfl
    refine Prog.Asks.bind (.perform rfl) fun _ => ?_
    exact Prog.Asks.bind (.perform rfl) fun _ => trivial
  refine Proto.WP.tryCatch (quiet_wp rfl (fun result => ?_) hfailed)
  refine trail_wp (fun _ h => by cases h) fun G s tr d r s' hi hf hx => ?_
  rcases exec_recordCharge hx with ⟨e, rfl, rfl⟩ | ⟨q, rfl, hw⟩
  · refine ⟨.inserted p, ?_, fun k hk => .inl hk, (fun k hk => by cases hk), (fun k hk => by cases hk),
      (fun a h => by cases h), fun e _ => hfailed e⟩
    exact trailFact_mono hf (.refl s') fun k _ log hlog _ => hlog
  · refine ⟨.due _ _, isDue_charge hcall horg hprov hf hw, fun k hk => .inl hk, fun k hk => hk,
      (fun k hk => by cases hk), (fun a h => ?_), fun e h => by cases h⟩
    cases h
    -- the gauge never fails, so the entry is asked for
    refine trail_wp (fun _ h => by cases h) fun G s tr d r s' hi hf hx => ?_
    refine ⟨_, trailFact_mono hf (exec_durable hx) fun k _ log hlog _ => ?_, fun k hk => .inl hk,
      (fun k hk => by cases hk), fun k hk => hk, (fun a _ => entry_wp rfl), fun e h => ?_⟩
    · rwa [exec_auditLogs_eq (fun _ h => by cases h) hx] at hlog
    · obtain ⟨rfl, -⟩ := Prod.mk.inj hx
      cases h

theorem create_trail (registry : ProviderRegistry) {dto : CreatePaymentDto} {key : Option String}
    {ctx : OrgContext} (hcall : CalledBy calls t (some ctx.organizationId) (some ctx.userId)) :
    (trailProto calls w).WP t NothingDue (create registry dto key ctx) .idle := by
  refine Proto.WP.ofExcept_bind (fun key _ => ?_) fun _ _ => rfl
  refine quiet_wp rfl (fun existing => ?_) fun _ => rfl
  cases existing with
  | some payment => exact rfl
  | none =>
    refine Proto.WP.ofExcept_bind (fun provider _ => ?_) fun _ _ => rfl
    refine quiet_wp rfl (fun _ => ?_) fun _ => rfl
    refine Proto.WP.ofExcept_bind (fun method _ => ?_) fun _ _ => rfl
    refine trail_wp (fun _ h => by cases h) fun G s tr d r s' hi hf hx => ?_
    rcases exec_insertPayment hx with ⟨e, rfl, rfl⟩ | ⟨p, rfl, hins⟩
    · exact ⟨.idle, trivial, fun k hk => .inl hk, (fun k hk => by cases hk), (fun k hk => by cases hk),
        (fun a h => by cases h), fun _ _ => rfl⟩
    -- the payment is new, so there is no entry about it, and no call has one to write
    have hnew : ¬ s.Keeps (.created p.id) := fun ⟨q, hq, hid⟩ =>
      (Table.insert_ok hins.payments).2.1 q hq hid
    refine ⟨.inserted p, ⟨⟨p, (Table.mem_insert hins.payments).mpr (.inr rfl), rfl⟩,
      fun h₀ log hlog hk => ?_⟩, fun k hk => .inr fun u hu => ?_, (fun k hk => by cases hk),
      (fun k hk => by cases hk), (fun a h => ?_), fun e h => by cases h⟩
    · rw [hins.others] at hlog
      exact hnew (((hi.audit h₀).tells log hlog).keeps hk)
    · cases hk
      exact hnew (trailFact_keeps (hi.owning.fact u) hu)
    · cases h
      obtain ⟨c, hp, -⟩ := hins.row
      refine charge_trail hcall ?_ ?_
      · rw [hp]
        rfl
      · rw [hp]
        rfl

/-! ## The refund -/

theorem refundStatus_eq_leaves {d : Decision} {p q : Payment} {body : RefundBody}
    {amount : Option Int} {result : RefundResult} (h : q.amountMinor = p.amountMinor) :
    (newRefund d p body amount result).leaves q = refundStatus p amount := by
  unfold Refund.leaves refundStatus newRefund
  cases amount with
  | none => simp [h]
  | some n => simp [h]

omit [DecidableEq ι] in
theorem isDue_refund {G : ι → TrailStage} {s s' : World} {tr : List (ι × Event machine)} {d : Decision}
    {p q : Payment} {ctx : OrgContext} {body : RefundBody} {amount : Option Int} {result : RefundResult}
    (hi : TrailInv calls w G s tr)
    (hcall : CalledBy calls t (some ctx.organizationId) (some ctx.userId))
    (horg : p.organizationId = ctx.organizationId)
    (hst : p.status = .captured ∨ p.status = .partiallyRefunded)
    (hf : trailFact calls w t (.found p) (s, tr))
    (hr : s.refunds.insert (newRefund d p body amount result) = .ok s'.refunds)
    (hw : Written p.id (setStatus d (refundStatus p amount)) (keeps_setStatus d _)
      (newEvent d p.id "payment.refunded" (refundPayload p body result)) s q
      { s' with refunds := s.refunds }) :
    IsDue calls w t (.refunded p.id (newRefund d p body amount result).id)
      (refundedEntry ctx p (refundStatus p amount) (newRefund d p body amount result)) s'
      (tr ++ [(t, ⟨.recordRefund p (refundStatus p amount) body amount result, d,
        .ok (q, newRefund d p body amount result)⟩)]) := by
  obtain ⟨p', hp', hcore⟩ := hf
  obtain ⟨a, ha, hid, rfl, -⟩ := Table.update_some hw.payments
  obtain rfl : a = p' := Table.eq_of_key ha hp' (hid.trans (Payment.core_id hcore).symm)
  set x := newRefund d p body amount result with hxdef
  have hqid : (setStatus d (refundStatus p amount) a).id = p.id := Payment.core_id hcore
  refine ⟨⟨_, List.mem_append_right _ (List.mem_singleton_self _), rfl⟩, hcall, fun d' => ?_,
    fun d' k => ?_, fun h₀ log hlog hk => ?_⟩
  · refine ⟨fun h => ?_, fun _ => ⟨_, (Table.mem_update hw.payments).mpr (.inr rfl), x,
      (Table.mem_insert hr).mpr (.inr rfl), p.status, ?_⟩⟩
    · exact absurd (show "payment.refunded" = "payment.created" from h) (by decide)
    · refine ⟨(Payment.core_tenant hcore).symm, hqid.symm, ?_, hqid.symm, hst, rfl, ?_⟩
      · exact congrArg some ((Payment.core_org hcore).trans horg).symm
      · have hamount : (setStatus d (refundStatus p amount) a).amountMinor = p.amountMinor :=
          Payment.core_amount hcore
        rw [hxdef, refundStatus_eq_leaves hamount]
        rfl
  · constructor
    · intro hk
      cases k with
      | created id =>
        exact absurd (show "payment.refunded" = "payment.created" from hk.1) (by decide)
      | refunded id refundId =>
        obtain ⟨-, hres, text, hafter⟩ := hk
        have hres : p.id = id := hres
        have hafter : (refundedEntry ctx p (refundStatus p amount) x).after =
          some (.obj [("status", .str text), ("refundId", .str refundId)]) := hafter
        simp only [refundedEntry, Option.some.injEq, Js.Json.obj.injEq, List.cons.injEq,
          Prod.mk.injEq, Js.Json.str.injEq, true_and, and_true] at hafter
        rw [hres, hafter.2]
    · rintro rfl
      exact ⟨rfl, rfl, _, rfl⟩
  · -- an entry about this refund would be about a row that was there before
    have hl := congrArg World.auditLogs hw.others
    have hlog' : log ∈ s.auditLogs := by
      rw [← show s'.auditLogs = s.auditLogs from hl]
      exact hlog
    obtain ⟨y, hy, hyid⟩ := ((hi.audit h₀).tells log hlog').keeps hk
    exact (Table.insert_ok hr).2.1 y hy hyid

theorem refund_trail (registry : ProviderRegistry) {id : String} {body : RefundBody}
    {ctx : OrgContext} (hcall : CalledBy calls t (some ctx.organizationId) (some ctx.userId)) :
    (trailProto calls w).WP t NothingDue (refund registry id body ctx) .idle := by
  refine trail_wp (fun _ h => by cases h) fun G s tr d r s' hi _ hx => ?_
  obtain ⟨rfl, ⟨e, rfl⟩ | ⟨rfl, -⟩ | ⟨p, rfl, hp, hw⟩⟩ := exec_findPayment hx
  · exact ⟨.idle, trivial, fun k hk => .inl hk, (fun k hk => by cases hk), (fun k hk => by cases hk),
      (fun a h => by cases h), fun _ _ => rfl⟩
  · refine ⟨.idle, trivial, fun k hk => .inl hk, (fun k hk => by cases hk), (fun k hk => by cases hk),
      (fun a h => ?_), fun _ h => by cases h⟩
    cases h
    exact rfl
  refine ⟨.found p, ⟨p, hp, rfl⟩, (fun k hk => by cases hk), (fun k hk => by cases hk),
    (fun k hk => by cases hk), (fun a h => ?_), fun _ h => by cases h⟩
  cases h
  refine Proto.WP.ofExcept_bind (fun externalId hext => ?_) fun _ _ => rfl
  refine Proto.WP.ofExcept_bind (fun provider _ => ?_) fun _ _ => rfl
  refine Proto.WP.ofExcept_bind (fun amount _ => ?_) fun _ _ => rfl
  refine quiet_wp rfl (fun result => ?_) fun _ => rfl
  refine Proto.WP.ofExcept_bind (fun _ _ => ?_) fun _ _ => rfl
  refine trail_wp (fun _ h => by cases h) fun G s tr d r s' hi hf hx => ?_
  rcases exec_recordRefund hx with ⟨e, rfl, rfl⟩ | ⟨q, rfl, hr, hwr⟩
  · refine ⟨.found p, trailFact_mono hf (.refl s') fun k _ log hlog _ => hlog, fun k hk => .inl hk,
      (fun k hk => by cases hk), (fun k hk => by cases hk), (fun a h => by cases h), fun _ _ => rfl⟩
  · have hnew : ∀ pid, ¬ s.Keeps (.refunded pid (newRefund d p body amount result).id) :=
      fun pid ⟨y, hy, hyid⟩ => (Table.insert_ok hr).2.1 y hy hyid
    refine ⟨.due _ _, isDue_refund hi hcall (PaymentWhere.holds_id_org.mp hw).2
      (checkRefundable_ok hext).1 hf hr hwr, fun k hk => .inr fun u hu => ?_, fun k hk => hk,
      (fun k hk => by cases hk), (fun a h => ?_), fun e h => by cases h⟩
    · cases hk
      exact hnew _ (trailFact_keeps (hi.owning.fact u) hu)
    · cases h
      exact entry_wp rfl

/-! ## The calls -/

theorem service_trail (registry : ProviderRegistry) (t : ι) :
    (trailProto calls w).WP t NothingDue ((calls t).run registry) .idle := by
  have hbind : ∀ {α β : Type} {p : Service α} {f : α → β},
      (trailProto calls w).WP t NothingDue p .idle →
        (trailProto calls w).WP t NothingDue (p.bind fun a => .ret (f a)) .idle := by
    intro α β p f hp
    refine Proto.WP.bind (hp.mono fun r g hr => ?_)
    cases r with
    | error e => exact hr
    | ok a => exact hr
  have hquiet : ∀ call : ServiceCall, (∀ o, call.asks o → o.quiet) →
      (trailProto calls w).WP t NothingDue (call.run registry) .idle :=
    fun call h => asks_quiet_wp ((call.run_asks registry).mono h) rfl
  cases hcall : calls t with
  | payments call =>
    have hby : CalledBy calls t (some call.ctx.organizationId) (some call.ctx.userId) :=
      ⟨call, hcall, rfl, rfl⟩
    cases call with
    | create dto key ctx => exact hbind (hbind (create_trail registry hby))
    | findAll ctx query =>
      exact hquiet _ fun o ho => by cases o with
        | pagePayments => rfl
        | _ => cases ho
    | findOne id ctx =>
      exact hquiet _ fun o ho => by cases o with
        | findPaymentWithEvents => rfl
        | _ => cases ho
    | refund id body ctx => exact hbind (hbind (refund_trail registry hby))
  | webhook job =>
    exact hquiet _ fun o ho => by cases o with
      | findPayment | applyWebhook | markProcessed => rfl
      | _ => cases ho
  | reconcile id =>
    exact hquiet _ fun o ho => by cases o with
      | findPayment | retrieveCharge | applyReconciliation => rfl
      | _ => cases ho

end Calls

/-! ## The entry is the last request -/

def Op.isEntry : Op → Bool
  | .auditLog _ => true
  | _ => false

theorem isEntry_of_entryOf {e : Event machine} {log : AuditLog} (h : entryOf e = some log) :
    Op.isEntry e.op := by
  obtain ⟨o, d, r⟩ := e
  cases o with
  | auditLog entry => rfl
  | _ => cases h

section Last

variable {es : List (Event machine)}

/-- How a call ends: it makes no request after one for an entry. -/
abbrev EndsLast {α : Type} (es : List (Event machine)) (_ : Except Err α) : Prop :=
  LastOnly (M := machine) (fun o : Op => o.isEntry) es

/-- `log` never fails, so the `catch` is not run after the entry. -/
theorem charge_last (provider : PaymentProvider) (dto : CreatePaymentDto) (key : String)
    (ctx : OrgContext) (p : Payment) (hes : Free (M := machine) (fun o : Op => o.isEntry) es) :
    ((charge provider dto key ctx p).tryCatch (chargeFailed dto p)).Ends EndsLast es := by
  have hfailed : ∀ {es} (err : Err), Free (M := machine) (fun o : Op => o.isEntry) es →
      (chargeFailed dto p err).Ends EndsLast es := by
    intro es err hes
    refine Prog.Ends.free_bind (by exact nofun) hes (fun es _ hes => ?_) fun _ _ h => h.lastOnly
    exact Prog.Ends.free_bind (by exact nofun) hes (fun es _ hes => hes.lastOnly)
      fun _ _ h => h.lastOnly
  refine Prog.Ends.tryCatch ?_
  refine Prog.Ends.free_bind (by exact nofun) hes (fun es result hes => ?_) fun _ err h => hfailed err h
  refine Prog.Ends.free_bind (by exact nofun) hes (fun es updated hes => ?_) fun _ err h => hfailed err h
  refine Prog.Ends.free_bind (by exact nofun) hes (fun es _ hes => ?_) fun _ err h => hfailed err h
  refine Prog.Ends.perform_bind fun d s r s' hx => ?_
  obtain rfl : r = .ok () := (exec_entry hx).1
  exact hes.lastOnly_snoc

theorem create_last (registry : ProviderRegistry) (dto : CreatePaymentDto) (key : Option String)
    (ctx : OrgContext) : (create registry dto key ctx).Ends EndsLast [] := by
  have hnil : Free (M := machine) (fun o : Op => o.isEntry) [] := fun _ h => absurd h List.not_mem_nil
  refine Prog.Ends.ofExcept_bind (fun key _ => ?_) fun _ _ => hnil.lastOnly
  refine Prog.Ends.free_bind (by exact nofun) hnil (fun es existing hes => ?_) fun _ _ h => h.lastOnly
  cases existing with
  | some payment => exact hes.lastOnly
  | none =>
    refine Prog.Ends.ofExcept_bind (fun provider _ => ?_) fun _ _ => hes.lastOnly
    refine Prog.Ends.free_bind (by exact nofun) hes (fun es _ hes => ?_) fun _ _ h => h.lastOnly
    refine Prog.Ends.ofExcept_bind (fun method _ => ?_) fun _ _ => hes.lastOnly
    refine Prog.Ends.free_bind (by exact nofun) hes (fun es payment hes => ?_) fun _ _ h => h.lastOnly
    exact charge_last provider dto key ctx payment hes

theorem refund_last (registry : ProviderRegistry) (id : String) (body : RefundBody)
    (ctx : OrgContext) : (refund registry id body ctx).Ends EndsLast [] := by
  have hnil : Free (M := machine) (fun o : Op => o.isEntry) [] := fun _ h => absurd h List.not_mem_nil
  refine Prog.Ends.free_bind (by exact nofun) hnil (fun es found hes => ?_) fun _ _ h => h.lastOnly
  cases found with
  | none => exact hes.lastOnly
  | some payment =>
    refine Prog.Ends.ofExcept_bind (fun externalId _ => ?_) fun _ _ => hes.lastOnly
    refine Prog.Ends.ofExcept_bind (fun provider _ => ?_) fun _ _ => hes.lastOnly
    refine Prog.Ends.ofExcept_bind (fun amount _ => ?_) fun _ _ => hes.lastOnly
    refine Prog.Ends.free_bind (by exact nofun) hes (fun es result hes => ?_) fun _ _ h => h.lastOnly
    refine Prog.Ends.ofExcept_bind (fun _ _ => ?_) fun _ _ => hes.lastOnly
    refine Prog.Ends.free_bind (by exact nofun) hes (fun es updated hes => ?_) fun _ _ h => h.lastOnly
    exact Prog.Ends.perform_bind fun d s r s' hx => by
      obtain rfl : r = .ok () := (exec_entry hx).1
      exact hes.lastOnly_snoc

theorem service_last (registry : ProviderRegistry) (call : ServiceCall) :
    (call.run registry).Ends EndsLast [] := by
  -- the other calls ask for no entry
  have hfree : ∀ call : ServiceCall, (∀ o, call.asks o → ¬ o.isEntry) →
      (call.run registry).Ends EndsLast [] := fun call h =>
    (Prog.Ends.of_asks ((call.run_asks registry).mono h) fun _ h => absurd h List.not_mem_nil).mono
      fun _ _ hes => hes.lastOnly
  cases call with
  | payments call =>
    cases call with
    | create dto key ctx => exact (create_last registry dto key ctx).map.map
    | refund id body ctx => exact (refund_last registry id body ctx).map.map
    | findAll ctx query =>
      exact hfree _ fun o ho => by cases o with
        | pagePayments => exact nofun
        | _ => cases ho
    | findOne id ctx =>
      exact hfree _ fun o ho => by cases o with
        | findPaymentWithEvents => exact nofun
        | _ => cases ho
  | webhook job =>
    exact hfree _ fun o ho => by cases o with
      | findPayment | applyWebhook | markProcessed => exact nofun
      | _ => cases ho
  | reconcile id =>
    exact hfree _ fun o ho => by cases o with
      | findPayment | retrieveCharge | applyReconciliation => exact nofun
      | _ => cases ho

end Last

/-! ## The runs -/

section Runs

variable {ι : Type} [DecidableEq ι] (registry : ProviderRegistry) (calls : ι → ServiceCall)
  (w : World)

theorem trail_start : (trailProto calls w).Ok (fun _ => NothingDue) (startCalls registry calls w) :=
  ⟨fun _ => .idle, {
    owning := Conc.Owning.Inv.start (fun _ => trivial) rfl
    replayed := rfl
    audit := fun h => h
    ofRun := fun _ h => .inl h
    entered := fun _ _ _ h => absurd h List.not_mem_nil }, fun t => service_trail registry t⟩

/-- **The audit log tells the truth.** However calls, workers and the provider interleave, every entry
about a payment says what is so; there is one at most about each charge and about each refund; and a
new entry is of a transaction of the run, by the user of that call. -/
theorem payment_audit_tells (h₀ : w.AuditOk) (c : Conf machine ι Unit)
    (hr : Conf.Reach Any (startCalls registry calls w) c) :
    c.st.AuditOk ∧ ∀ log ∈ c.st.auditLogs, log ∈ w.auditLogs ∨ OfRun calls c.trace log := by
  obtain ⟨G, hi, -⟩ := (Proto.sound (trail_start registry calls w) hr).ended
  exact ⟨hi.audit h₀, hi.ofRun⟩

end Runs

/-- At the place `i`, as its last request, the call asked for the entry `log` about `k`. -/
structure HasEntry {ι : Type} (w : World) (c : Conf machine ι Unit) (t : ι) (k : EntryKey) (i : Nat)
    (log : AuditLog) : Prop where
  /-- It is in the audit log, or the database refused it. -/
  asked : AskedAt (M := machine) (·.auditLogs.rows) entryOf w c.trace t i log c.st.auditLogs.rows
  about : log.About k
  last : ∀ j e, c.trace[j]? = some (t, e) → j ≤ i
  /-- An entry that is in the audit log is found under its payment, as the only one about `k`. -/
  found : log ∈ c.st.auditLogs → ∃ p ∈ c.st.payments, p.id = k.payment ∧ ∀ d log',
    log' ∈ AuditService.findByResource d p.id p.organizationId c.st ∧ log'.About k ↔ log' = log

/-- **Nothing that a call recorded is missing from the audit log**, once the call has ended. -/
theorem payment_audit_complete {ι : Type} [DecidableEq ι] (registry : ProviderRegistry)
    (calls : ι → ServiceCall) (w : World) (h₀ : w.AuditOk) (c : Conf machine ι Unit)
    (hr : Conf.Reach Any (startCalls registry calls w) c) (t : ι) (hend : (c.thr t).ended)
    (e : Event machine) (he : (t, e) ∈ c.trace) (k : EntryKey) (hk : recording? e = some k) :
    ∃ i log, HasEntry w c t k i log := by
  obtain ⟨G, hi, hdone⟩ := (Proto.sound (trail_start registry calls w) hr).ended
  obtain ⟨r, hthr⟩ := Prog.exists_ofExcept hend
  have hnothing : (G t).due? = none := hdone t r hthr
  have haudit := hi.audit h₀
  have hlast : LastOnly (M := machine) (fun o : Op => o.isEntry) (ownEvents t c.trace) :=
    hr.ended (fun t => service_last registry (calls t)) hthr
  rcases hi.entered t e k he hk with hdue | ⟨i, log, hasked, hab⟩
  · rw [hnothing] at hdue
    cases hdue
  refine ⟨i, log, hasked, hab, fun j e' hj => ?_, fun hlog => ?_⟩
  · obtain ⟨ev, hplace, hentry⟩ := hasked.request
    exact hlast.le hplace (isEntry_of_entryOf hentry) hj
  · obtain ⟨p, hp, hid, hres, horg⟩ := (haudit.tells log hlog).payment hab
    refine ⟨p, hp, hid, fun d log' => ⟨fun h' => ?_, ?_⟩⟩
    · have hlog' := (AuditService.mem_findByResource.mp h'.1).1
      exact haudit.once k log' hlog' log hlog h'.2 hab
    · rintro rfl
      exact ⟨AuditService.mem_findByResource.mpr ⟨hlog, hres, horg⟩, hab⟩

/-! ### One `create` call -/

/-- The payment is captured, and the entry is written. -/
def auditedCreate : Conf machine Unit Unit :=
  oneCreate.play (createSteps (.answered ⟨"fake_key", .captured, .null⟩) ++
    [((), { newId := fun _ => "entry" })])

theorem empty_auditOk : World.empty.AuditOk := .nil

theorem payment_audit_sample :
    (auditedCreate.st.AuditOk ∧ ∀ log ∈ auditedCreate.st.auditLogs,
      log ∈ World.empty.auditLogs ∨ OfRun (fun _ : Unit => .payments (.create sampleDto (some "key")
        sampleCtx)) auditedCreate.trace log) ∧
    auditedCreate.st.auditLogs.rows.map (·.action) = ["payment.created"] :=
  ⟨payment_audit_tells fakeRegistry _ World.empty empty_auditOk auditedCreate
    (Conf.reach_play (Conf.plays_any _ _)), by decide +kernel⟩

theorem complete_sample : ∃ i log, HasEntry World.empty auditedCreate () (.created "pay") i log := by
  have hmem : auditedCreate.trace.filterMap (fun x => recording? x.2) = [.created "pay"] := by
    decide +kernel
  obtain ⟨⟨u, e⟩, he, hk⟩ := List.mem_filterMap.mp (hmem ▸ List.mem_singleton_self _)
  exact payment_audit_complete fakeRegistry _ World.empty empty_auditOk auditedCreate
    (Conf.reach_play (Conf.plays_any _ _)) () (by decide +kernel) e he _ hk

end Pasarela
