import Mathlib.Data.Finset.Card
import Mathlib.Data.Fintype.Basic
import Mathlib.Order.Interval.Finset.Nat
import Pasarela.Conc.Pool
import Pasarela.Routes

/-!
# The rate limit of a tenant

Any number of requests to the routes of the payments go through their guards side by side, within
one window.

* `throttler_binds`: of the requests with a tenant that `TenantThrottlerGuard` sees, it lets `limit`
  of each tenant through at most. Each of them got a number of its own from `INCR`
  (`CountInv`).
* `handle_unthrottled`: on a route, the guard runs before any guard has set the tenant of the request, and lets
  it through.
* `rate_limit_binds_iff`: so the limit holds only where it is not needed: when the other guards let
  no more than `limit` requests of the tenant through.
-/

namespace Pasarela

open Conc (Proto Prog Conf)

/-- The thread returned. -/
def returned {α : Type} : Guarded α → Bool
  | .ret _ => true
  | _ => false

/-! ## The guard alone -/

namespace TenantThrottlerGuard

theorem throttle_of_none {cfg : ThrottleConfig} {req : Request} (h : req.tenantId = none) :
    throttle cfg false req = .ret req := by
  rw [throttle, h]
  rfl

theorem throttle_of_some {cfg : ThrottleConfig} {req : Request} {tenantId : String}
    (h : req.tenantId = some tenantId) : throttle cfg false req = count cfg req tenantId := by
  rw [throttle, h]
  rfl

/-- `throttle` decides as `canActivate` does with the number that it got, when Redis works. -/
theorem run_throttle {cfg : ThrottleConfig} {isPublic : Bool} {req : Request}
    {ω : GuardOp → GuardDecision} {s : Counters} (hf : ∀ o, (ω o).fail = none) :
    ((throttle cfg isPublic req).run ω s).result =
      canActivate (fun id => s (counterKey id ((ω .now).now / 1000 / cfg.ttl)) + 1) cfg.limit isPublic
        req := by
  cases isPublic with
  | true => rfl
  | false =>
    cases hid : req.tenantId with
    | none =>
      have hcan : ∀ current, canActivate current cfg.limit false req = .ok req := by
        intro current
        rw [Request.tenantId] at hid
        simp only [canActivate, hid]
        rfl
      rw [throttle_of_none hid, hcan]
      rfl
    | some id =>
      have hcan : ∀ current, canActivate current cfg.limit false req =
          if cfg.limit < current id then .error .throttled else .ok req := by
        intro current
        rw [Request.tenantId] at hid
        simp only [canActivate, hid]
        rfl
      rw [throttle_of_some hid, hcan]
      have hfinal : ∀ (n : Nat) (s' : Counters),
          ((if cfg.limit < n then .throw .throttled else .ret req : Guarded Request).run ω s').result =
            if cfg.limit < n then .error .throttled else .ok req := by
        intro n s'
        split <;> rfl
      show (((ask .now).bind _).run ω s).result = _
      rw [Prog.run_perform_ok (M := guardMachine) rfl, Conc.Outcome.after_result]
      show (((ask (.incr _)).bind _).run ω s).result = _
      rw [Prog.run_perform_ok (M := guardMachine) (exec_incr_of_works (hf _)),
        Conc.Outcome.after_result]
      by_cases hone : s (counterKey id ((ω .now).now / 1000 / cfg.ttl)) + 1 = 1
      · rw [if_pos hone]
        show (((ask (.expire _ _)).bind _).run ω _).result = _
        rw [Prog.run_perform_ok (M := guardMachine) (exec_expire_of_works (hf _)),
          Conc.Outcome.after_result]
        exact hfinal _ _
      · rw [if_neg hone]
        exact hfinal _ _

end TenantThrottlerGuard

section Count

variable {ι : Type} [DecidableEq ι] (cfg : ThrottleConfig) (window : Nat)

/-- The clock of every request is in the window. -/
def InWindow : Conc.Allow guardMachine ι := fun _ o d _ =>
  match o with
  | .now => d.now / 1000 / cfg.ttl = window
  | _ => True

variable (reqs : ι → Request) (tenantId : String)

/-- The numbers that the requests of the tenant got so far are different, and the counter is not
behind them. -/
structure CountInv (G : ι → Option Nat) (s : Counters) : Prop where
  le : ∀ t n, (reqs t).tenantId = some tenantId → G t = some n →
    1 ≤ n ∧ n ≤ s (TenantThrottlerGuard.counterKey tenantId window)
  inj : ∀ t u n, (reqs t).tenantId = some tenantId → (reqs u).tenantId = some tenantId →
    G t = some n → G u = some n → t = u

def countProto : Proto guardMachine ι (Option Nat) where
  allow := InWindow cfg window
  inv G s _ := CountInv window reqs tenantId G s

/-- A request of the tenant that passed got a number up to the limit. -/
def Counted (t : ι) (r : Except Err Request) (g : Option Nat) : Prop :=
  ∀ req, r = .ok req → (reqs t).tenantId = some tenantId → ∃ n, g = some n ∧ n ≤ cfg.limit

variable {cfg window reqs tenantId} {t : ι} {G : ι → Option Nat} {s : Counters}

theorem CountInv.incr (h : CountInv window reqs tenantId G s) {id : String}
    (ht : (reqs t).tenantId = some id) :
    CountInv window reqs tenantId
      (Function.update G t (some (s (TenantThrottlerGuard.counterKey id window) + 1)))
      (Function.update s (TenantThrottlerGuard.counterKey id window)
        (s (TenantThrottlerGuard.counterKey id window) + 1)) := by
  generalize hkey : TenantThrottlerGuard.counterKey id window = key
  -- a counter never goes back
  have hmono : ∀ k, s k ≤ Function.update s key (s key + 1) k := by
    intro k
    by_cases hk : k = key
    · rw [hk, Function.update_self]
      omega
    · rw [Function.update_of_ne hk]
  have hself : (reqs t).tenantId = some tenantId →
      TenantThrottlerGuard.counterKey tenantId window = key := by
    intro h'
    rw [← hkey, Option.some.inj (h'.symm.trans ht)]
  have hfresh : ∀ u n, (reqs t).tenantId = some tenantId → (reqs u).tenantId = some tenantId →
      G u = some n → n ≠ s key + 1 := by
    intro u n ht' hu hG
    have hle := (h.le u n hu hG).2
    rw [hself ht'] at hle
    omega
  refine ⟨fun u n hu hG => ?_, fun u v n hu hv hGu hGv => ?_⟩
  · by_cases hut : u = t
    · rw [hut, Function.update_self] at hG
      rw [hut] at hu
      cases hG
      rw [hself hu, Function.update_self]
      omega
    · rw [Function.update_of_ne hut] at hG
      exact ⟨(h.le u n hu hG).1, (h.le u n hu hG).2.trans (hmono _)⟩
  · by_cases hut : u = t <;> by_cases hvt : v = t
    · rw [hut, hvt]
    · rw [hut, Function.update_self] at hGu
      rw [Function.update_of_ne hvt] at hGv
      rw [hut] at hu
      cases hGu
      exact absurd rfl (hfresh v _ hu hv hGv)
    · rw [hvt, Function.update_self] at hGv
      rw [Function.update_of_ne hut] at hGu
      rw [hvt] at hv
      cases hGv
      exact absurd rfl (hfresh u _ hv hu hGu)
    · rw [Function.update_of_ne hut] at hGu
      rw [Function.update_of_ne hvt] at hGv
      exact h.inj u v n hu hv hGu hGv

theorem countProto_throttle (t : ι) :
    (countProto cfg window reqs tenantId).WP t (Counted cfg reqs tenantId t)
      (TenantThrottlerGuard.throttle cfg false (reqs t)) none := by
  cases hid : (reqs t).tenantId with
  | none =>
    rw [TenantThrottlerGuard.throttle_of_none hid]
    intro req _ h
    rw [hid] at h
    cases h
  | some id =>
    have herr : ∀ e g, Counted cfg reqs tenantId t (.error e) g := fun e g req h => by cases h
    rw [TenantThrottlerGuard.throttle_of_some hid]
    refine Proto.WP.perform_bind fun G s tr d r s' hG hi ha hx => ⟨trivial, ?_⟩
    obtain ⟨rfl, rfl⟩ := Prod.mk.inj hx
    have hnow : d.now / 1000 / cfg.ttl = window := ha
    refine Proto.keep hG hi ?_
    refine Proto.WP.perform_bind fun G s tr d' r s' hG hi _ hx => ⟨trivial, ?_⟩
    rcases exec_incr hx with ⟨e, rfl, rfl⟩ | ⟨rfl, rfl⟩
    · exact Proto.keep hG hi (herr e none)
    · rw [hnow]
      refine ⟨_, hi.incr hid, ?_⟩
      generalize s (TenantThrottlerGuard.counterKey id window) + 1 = n
      have hlast : (countProto cfg window reqs tenantId).WP t (Counted cfg reqs tenantId t)
          (if cfg.limit < n then .throw .throttled else .ret (reqs t)) (some n) := by
        by_cases hlimit : cfg.limit < n
        · rw [if_pos hlimit]
          exact herr _ _
        · rw [if_neg hlimit]
          exact fun req _ _ => ⟨n, rfl, Nat.le_of_not_lt hlimit⟩
      show Proto.WP _ t _ (if n = 1 then (ask (.expire _ _)).bind _ else _) (some n)
      by_cases hone : n = 1
      · rw [if_pos hone]
        refine Proto.WP.perform_bind fun G s tr d r s' hG hi _ hx => ⟨trivial, ?_⟩
        obtain ⟨rfl, ⟨e, rfl⟩ | rfl⟩ := exec_expire hx
        · exact Proto.keep hG hi (herr e _)
        · exact Proto.keep hG hi hlast
      · rw [if_neg hone]
        exact hlast

/-- **The guard binds**: of the requests with a tenant that it sees in one window, it lets `limit` of
each tenant through at most. -/
theorem throttler_binds [Fintype ι] {c : Conf guardMachine ι Request}
    (hr : Conf.Reach (InWindow cfg window)
      (Conf.start s fun t => TenantThrottlerGuard.throttle cfg false (reqs t)) c) :
    (Finset.univ.filter fun t => (reqs t).tenantId = some tenantId ∧ returned (c.thr t)).card ≤
      cfg.limit := by
  have h₀ : (countProto cfg window reqs tenantId).Ok (Counted cfg reqs tenantId)
      (Conf.start s fun t => TenantThrottlerGuard.throttle cfg false (reqs t)) :=
    ⟨fun _ => none, ⟨fun _ _ _ h => (by cases h), fun _ _ _ _ _ h => (by cases h)⟩,
      countProto_throttle⟩
  obtain ⟨G, hi, hend⟩ := (Proto.sound h₀ hr).ended
  have hnumber : ∀ t, (reqs t).tenantId = some tenantId → returned (c.thr t) →
      ∃ n, G t = some n ∧ n ≤ cfg.limit := by
    intro t ht hret
    cases e : c.thr t with
    | ret req => exact hend t (.ok req) e req rfl ht
    | throw err => rw [e] at hret; cases hret
    | op o k => rw [e] at hret; cases hret
  have hcard : (Finset.Icc 1 cfg.limit).card = cfg.limit := by simp
  rw [← hcard]
  -- each request that passed is mapped to the number that it got
  refine Finset.card_le_card_of_injOn (fun t => (G t).getD 0) (fun t ht => ?_) fun t ht u hu he => ?_
  · obtain ⟨-, htid, hret⟩ := Finset.mem_filter.mp (Finset.mem_coe.mp ht)
    obtain ⟨n, hn, hle⟩ := hnumber t htid hret
    simp only [hn, Option.getD_some, Finset.coe_Icc, Set.mem_Icc]
    exact ⟨(hi.le t n htid hn).1, hle⟩
  · obtain ⟨-, htid, htret⟩ := Finset.mem_filter.mp (Finset.mem_coe.mp ht)
    obtain ⟨-, huid, huret⟩ := Finset.mem_filter.mp (Finset.mem_coe.mp hu)
    obtain ⟨n, hn, -⟩ := hnumber t htid htret
    obtain ⟨m, hm, -⟩ := hnumber u huid huret
    simp only [hn, hm, Option.getD_some] at he
    rw [he] at hn
    exact hi.inj t u m htid huid hn hm

end Count

/-! ## The guard on a route -/

section Route

variable {ι : Type} (cfg : ThrottleConfig) (pipes : Pipes) (env : ι → AuthEnv)
  (requests : ι → PaymentsRequest)

/-- The global guard lets every request through: no other guard has run yet. -/
theorem handle_unthrottled (x : PaymentsRequest) : x.handle cfg pipes =
    (ask .authenticate).bind fun auth =>
      .ofExcept (x.route.enter auth pipes { headers := x.headers }) := by
  rw [PaymentsRequest.handle, TenantThrottlerGuard.throttle_of_none rfl]
  rfl

/-- The requests at their start. -/
def startRequests (s : Counters) : Conf guardMachine ι OrgContext :=
  Conf.start s fun t => (requests t).handle cfg pipes

/-- The requests are in one window, and `AuthGuard` gets `env t` for request `t`. -/
def OneWindow (window : Nat) : Conc.Allow guardMachine ι := fun t o d _ =>
  match o with
  | .now => d.now / 1000 / cfg.ttl = window
  | .authenticate => d.auth = env t
  | _ => True

/-- The request passes what comes after the global guard, for the tenant. -/
def enters (tenantId : String) (t : ι) : Bool :=
  match (requests t).route.enter (env t) pipes { headers := (requests t).headers } with
  | .ok ctx => ctx.organizationId = tenantId
  | .error _ => false

/-- The handler is called, for the tenant. -/
def handledFor (tenantId : String) : Guarded OrgContext → Bool
  | .ret ctx => ctx.organizationId = tenantId
  | _ => false

theorem handledFor_ofExcept (tenantId : String) (t : ι) :
    handledFor tenantId (.ofExcept ((requests t).route.enter (env t) pipes
      { headers := (requests t).headers })) = enters pipes env requests tenantId t := by
  unfold enters
  split
  · rename_i e
    rw [e]
    rfl
  · rename_i e
    rw [e]
    rfl

variable {cfg pipes env requests} [DecidableEq ι] {window : Nat} {s : Counters} {tenantId : String}

/-- A request whose handler is called passes what comes after the global guard. -/
theorem enters_of_handled {c : Conf guardMachine ι OrgContext}
    (hr : Conf.Reach (OneWindow cfg env window) (startRequests cfg pipes requests s) c) {t : ι}
    (h : handledFor tenantId (c.thr t)) : enters pipes env requests tenantId t := by
  let P : Proto guardMachine ι Unit := ⟨OneWindow cfg env window, fun _ _ _ => True, fun _ _ => True⟩
  let Q : ι → Except Err OrgContext → Unit → Prop := fun t r _ => ∀ ctx, r = .ok ctx →
    (requests t).route.enter (env t) pipes { headers := (requests t).headers } = .ok ctx
  have h₀ : P.Ok Q (startRequests cfg pipes requests s) := by
    refine ⟨fun _ => (), trivial, fun u => ?_⟩
    show P.WP u (Q u) ((requests u).handle cfg pipes) ()
    rw [handle_unthrottled]
    refine Proto.WP.perform_bind fun G s tr d r s' hG hi ha hx => ⟨trivial, ?_⟩
    obtain ⟨rfl, ⟨e, rfl⟩ | rfl⟩ := exec_authenticate hx
    · exact Proto.keep hG hi fun ctx hctx => by cases hctx
    · have hauth : d.auth = env u := ha
      refine Proto.keep hG hi ?_
      rw [hauth]
      show P.WP u (Q u) (.ofExcept _) ()
      cases e : (requests u).route.enter (env u) pipes { headers := (requests u).headers } with
      | error err => exact fun ctx hctx => by cases hctx
      | ok ctx => exact fun ctx' hctx => by rw [e, ← hctx]
  cases e : c.thr t with
  | throw err => rw [e] at h; cases h
  | op o k => rw [e] at h; cases h
  | ret ctx =>
    obtain ⟨G, -, hq⟩ := (Proto.sound h₀ hr).returned e
    rw [e] at h
    rw [enters, hq ctx rfl]
    exact h

theorem reach_entered (S : Finset ι) :
    ∃ c, Conf.Reach (OneWindow cfg env window) (startRequests cfg pipes requests s) c ∧
      (∀ t ∈ S, c.thr t = .ofExcept ((requests t).route.enter (env t) pipes
        { headers := (requests t).headers })) ∧
      ∀ t ∉ S, c.thr t = (requests t).handle cfg pipes := by
  induction S using Finset.induction_on with
  | empty => exact ⟨_, .refl, fun t ht => absurd ht (Finset.notMem_empty t), fun t _ => rfl⟩
  | insert t S ht ih =>
    obtain ⟨c, hr, hin, hout⟩ := ih
    have hthr := hout t ht
    rw [handle_unthrottled] at hthr
    obtain ⟨c', hr', -, hthr'⟩ := Conf.reach_perform (OneWindow cfg env window)
      (d := ⟨none, 0, env t⟩) hthr rfl (exec_authenticate_of_works rfl)
    refine ⟨c', hr.trans hr', fun u hu => ?_, fun u hu => ?_⟩
    · by_cases hut : u = t
      · rw [hut, hthr', Function.update_self]
      · rw [hthr', Function.update_of_ne hut]
        exact hin u (Finset.mem_of_mem_insert_of_ne hu hut)
    · have hut : u ≠ t := fun e => hu (e ▸ Finset.mem_insert_self t S)
      rw [hthr', Function.update_of_ne hut]
      exact hout u fun h => hu (Finset.mem_insert_of_mem h)

end Route

/-- **The rate limit binds only where it is not needed**: at most `limit` requests of a tenant reach
their handlers in every run within one window, if and only if the guards and pipes after the global
guard let no more than `limit` of them through. -/
theorem rate_limit_binds_iff {ι : Type} [Fintype ι] [DecidableEq ι] (cfg : ThrottleConfig)
    (pipes : Pipes) (env : ι → AuthEnv) (requests : ι → PaymentsRequest) (s : Counters)
    (window : Nat) (tenantId : String) :
    (∀ c, Conf.Reach (OneWindow cfg env window) (startRequests cfg pipes requests s) c →
      (Finset.univ.filter fun t => handledFor tenantId (c.thr t)).card ≤ cfg.limit) ↔
    (Finset.univ.filter fun t => enters pipes env requests tenantId t).card ≤ cfg.limit := by
  constructor
  · intro h
    obtain ⟨c, hr, hall, -⟩ : ∃ c,
        Conf.Reach (OneWindow cfg env window) (startRequests cfg pipes requests s) c ∧ _ ∧ _ :=
      reach_entered Finset.univ
    refine le_trans (Finset.card_le_card fun t ht => ?_) (h c hr)
    rw [Finset.mem_filter] at ht ⊢
    rw [hall t ht.1, handledFor_ofExcept]
    exact ht
  · intro h c hr
    refine le_trans (Finset.card_le_card fun t ht => ?_) h
    rw [Finset.mem_filter] at ht ⊢
    exact ⟨ht.1, enters_of_handled hr ht.2⟩

/-! ### Two requests, and a limit of one -/

/-- One tenant with one API key. -/
def keyEnv : AuthEnv where
  nodeEnv := "production"
  apiKeys := [⟨"k", "hash", "abcdefgh", true, none, ⟨"acme", "Acme"⟩, true⟩]
  compare rawKey hash := rawKey = "pk_abcdefgh_abcdefghij" ∧ hash = "hash"
  now := 0
  firebase := none

/-- A request of the tenant for one payment. -/
def getPayment : PaymentsRequest := ⟨[("x-api-key", "pk_abcdefgh_abcdefghij")], .findOne "pay"⟩

def noPipes : Pipes := ⟨fun _ => .error (.other ""), fun _ => .error (.other "")⟩

/-- The request twice, with a limit of one in a minute. -/
def twoGets : Conf guardMachine Bool OrgContext :=
  startRequests ⟨60, 1⟩ noPipes (fun _ => getPayment) fun _ => 0

/-- Both requests reach their handlers. -/
theorem limit_exceeded : ¬ ∀ c, Conf.Reach (OneWindow ⟨60, 1⟩ (fun _ => keyEnv) 0) twoGets c →
    (Finset.univ.filter fun t => handledFor "acme" (c.thr t)).card ≤ 1 := by
  intro h
  have hplays : Conf.Plays (OneWindow ⟨60, 1⟩ (fun _ => keyEnv) 0) twoGets
      [(true, ⟨none, 0, keyEnv⟩), (false, ⟨none, 0, keyEnv⟩)] := ⟨rfl, rfl, trivial⟩
  have hc := h _ (Conf.reach_play hplays)
  revert hc
  decide +kernel

end Pasarela
