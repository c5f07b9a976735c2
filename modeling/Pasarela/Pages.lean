import Pasarela.Payments
import Pasarela.Store.Window

/-!
# The pages of `findAll`

`findAll` orders by `createdAt` alone. Payments with one `createdAt` come in an order that each
query chooses for itself (`Decision.rank`), and the pages are queries of their own.

* `page`: what `findAll` returns in a state, as a window of the matching payments (`run_findAll`).
* `Partition`: the pages 1 to `meta.pages` have each matching payment once, the newest first, and
  the later pages are empty.
* `partition_of_not_split`, `not_partition_of_split`: whatever the ties, the pages are a partition
  if no boundary between two pages has one `createdAt` on both sides; and if one has, the ties can
  be such that a payment is on two pages.
-/

namespace Pasarela

open Store
open Conc (Prog)

/-- The query for page `i + 1`. -/
def ListPaymentsDto.forPage (query : ListPaymentsDto) (i : Nat) : ListPaymentsDto :=
  { query with page := i + 1, one_le_page := Nat.le_add_left 1 i }

namespace PaymentsService

/-! ## One page -/

/-- The payments that the query asks for. -/
def matching (s : World) (ctx : OrgContext) (query : ListPaymentsDto) : List Payment :=
  s.payments.rows.filter fun p =>
    p.organizationId = ctx.organizationId ∧ ∀ status ∈ query.status, p.status = status

/-- Their `createdAt`, the newest first. -/
def createdAts (s : World) (ctx : OrgContext) (query : ListPaymentsDto) : List Nat :=
  ((matching s ctx query).map (·.createdAt)).insertionSort (· ≥ ·)

/-- The matching payments, in the order of a query with the ties `rank`. -/
def sorted (s : World) (ctx : OrgContext) (query : ListPaymentsDto) (rank : String → Nat) :
    List Payment :=
  (matching s ctx query).insertionSort (Newest (·.createdAt) fun p => rank p.id)

/-- Page `i + 1`, when the query chooses the ties `rank`. -/
def page (s : World) (ctx : OrgContext) (query : ListPaymentsDto) (rank : String → Nat) (i : Nat) :
    Page where
  data := (window query.limit i (sorted s ctx query rank)).map serialize
  pageMeta := {
    total := (matching s ctx query).length
    page := i + 1
    limit := query.limit
    pages := ((matching s ctx query).length + query.limit - 1) / query.limit }

section OnePage

variable {s : World} {ctx : OrgContext} {query : ListPaymentsDto}

theorem filter_holds :
    s.payments.rows.filter (PaymentWhere.holds {
      organizationId := some ctx.organizationId
      status := query.status }) = matching s ctx query := by
  refine List.filter_congr fun p _ => ?_
  rw [Bool.eq_iff_iff, decide_eq_true_eq, eq_comm (a := p.organizationId)]
  cases query.status with
  | none => simp [PaymentWhere.holds]
  | some status => simp [PaymentWhere.holds, eq_comm (a := p.status)]

variable (s ctx query) in
/-- `findAll` returns the page, with the ties that the query chooses. -/
theorem run_findAll {δ : Op → Decision} (hδ : ∀ o, (δ o).fail = none) (i : Nat) :
    ∃ o, ((findAll ctx (query.forPage i)).run δ s).result =
      .ok (page s ctx query (δ o).rank i) := by
  let w : PaymentWhere := { organizationId := some ctx.organizationId, status := query.status }
  let o : Op := .pagePayments w (i * query.limit) query.limit
  refine ⟨o, ?_⟩
  have hx : machine.exec o (δ o) s =
      (.ok (window query.limit i (s.paymentsBy (δ o) w), (s.payments.rows.filter w.holds).length),
        s) := by
    show exec o (δ o) s = _
    rw [exec, Pasarela.query, hδ o]
    rfl
  have hsorted : s.paymentsBy (δ o) w = sorted s ctx query (δ o).rank := by
    rw [sorted, ← filter_holds]
    rfl
  show (((Prog.perform (M := machine) o).bind _).run δ s).result = _
  rw [Prog.run_perform_ok hx, hsorted, filter_holds]
  rfl

theorem nodup_matching : ((matching s ctx query).map Payment.id).Nodup :=
  s.payments.nodup_key.sublist (List.filter_sublist.map _)

theorem sorted_perm (rank : String → Nat) :
    (sorted s ctx query rank).Perm (matching s ctx query) :=
  List.perm_insertionSort _ _

theorem newestFirst_sorted (rank : String → Nat) :
    NewestFirst (·.createdAt) (sorted s ctx query rank) :=
  newestFirst_insertionSort _

/-- The ties do not change the dates. -/
theorem map_sorted (rank : String → Nat) :
    (sorted s ctx query rank).map (·.createdAt) = createdAts s ctx query := by
  refine List.Perm.eq_of_pairwise
    (fun a b _ _ (hab : a ≥ b) (hba : b ≥ a) => Nat.le_antisymm hba hab)
    (List.pairwise_map.mpr (newestFirst_sorted rank)) (List.pairwise_insertionSort _ _) ?_
  exact ((sorted_perm rank).map _).trans (List.perm_insertionSort _ _).symm

end OnePage

/-! ## All pages -/

/-- The data of the pages 1 to `meta.pages`. -/
def allData (pages : Nat → Page) : List SerializedPayment :=
  (List.range (pages 0).pageMeta.pages).flatMap fun i => (pages i).data

/-- The pages are a partition of the matching payments (module doc). -/
structure Partition (s : World) (ctx : OrgContext) (query : ListPaymentsDto)
    (pages : Nat → Page) : Prop where
  same : ∀ i, (pages i).pageMeta.pages = (pages 0).pageMeta.pages
  once : (allData pages).Perm ((matching s ctx query).map serialize)
  newestFirst : NewestFirst (·.payment.createdAt) (allData pages)
  later : ∀ i, (pages 0).pageMeta.pages ≤ i → (pages i).data = []

section AllPages

variable {s : World} {ctx : OrgContext} {query : ListPaymentsDto}

variable (s ctx query) in
/-- `meta.pages` pages have room for every payment. -/
theorem length_le_pages (ranks : Nat → String → Nat) :
    (matching s ctx query).length ≤ (page s ctx query (ranks 0) 0).pageMeta.pages * query.limit := by
  have hlimit := query.one_le_limit
  show _ ≤ ((matching s ctx query).length + query.limit - 1) / query.limit * query.limit
  have h := Nat.lt_div_mul_add (a := (matching s ctx query).length + query.limit - 1) hlimit
  omega

theorem allData_page (ranks : Nat → String → Nat) :
    allData (fun i => page s ctx query (ranks i) i) =
      (windows query.limit (page s ctx query (ranks 0) 0).pageMeta.pages
        fun i => sorted s ctx query (ranks i)).map serialize := by
  rw [allData, windows, List.map_flatMap]
  rfl

/-- **The pages are a partition**, whatever the ties, if no boundary splits equal dates. -/
theorem partition_of_not_split (h : ¬ Split query.limit (createdAts s ctx query))
    (ranks : Nat → String → Nat) :
    Partition s ctx query fun i => page s ctx query (ranks i) i := by
  have hL : ∀ i, NewestFirst (·.createdAt) (sorted s ctx query (ranks i)) ∧
      (sorted s ctx query (ranks i)).Perm (matching s ctx query) := fun i =>
    ⟨newestFirst_sorted _, sorted_perm _⟩
  have hm := length_le_pages s ctx query ranks
  refine ⟨fun _ => rfl, ?_, ?_, fun i hi => ?_⟩
  · rw [allData_page]
    refine (windows_perm (hL 0).1 (hL 0).2 hL ?_ hm).map serialize
    rwa [map_sorted]
  · rw [allData_page]
    exact List.pairwise_map.mpr (newestFirst_windows (hL 0).1 (hL 0).2 hL hm)
  · show (window _ _ _).map _ = []
    rw [window_eq_nil, List.map_nil]
    rw [(sorted_perm _).length_eq]
    exact hm.trans (Nat.mul_le_mul_right _ hi)

/-- **If a boundary splits equal dates**, there are ties such that a payment is on two pages. -/
theorem not_partition_of_split (h : Split query.limit (createdAts s ctx query)) :
    ∃ ranks : Nat → String → Nat,
      ¬ (allData fun i => page s ctx query (ranks i) i).Perm
        ((matching s ctx query).map serialize) := by
  let l := sorted s ctx query fun _ => 0
  have hl : l.Perm (matching s ctx query) := sorted_perm _
  rw [← map_sorted fun _ => 0] at h
  obtain ⟨k, l', hnew, hp, hk, hdup⟩ := exists_windows_dup (newestFirst_sorted _) h
  obtain ⟨rank, hrank⟩ := exists_rank nodup_matching hnew (hp.trans hl)
  let ranks : Nat → String → Nat := fun i => if i = k then rank else fun _ => 0
  have hranks : (fun i => sorted s ctx query (ranks i)) = fun i => if i = k then l' else l := by
    funext i
    by_cases hi : i = k
    · simp only [ranks, if_pos hi]
      exact hrank
    · simp only [ranks, if_neg hi]
      rfl
  refine ⟨ranks, fun hperm => ?_⟩
  rw [allData_page, hranks] at hperm
  have hnodup : ((matching s ctx query).map serialize).Nodup := by
    refine List.Nodup.of_map (fun p => p.payment.id) ?_
    rw [List.map_map]
    exact nodup_matching
  have hm : k < (page s ctx query (ranks 0) 0).pageMeta.pages := by
    rw [hl.length_eq] at hk
    exact Nat.lt_of_mul_lt_mul_right (hk.trans_le (length_le_pages s ctx query ranks))
  exact hdup _ hm ((hperm.nodup_iff.mpr hnodup).of_map _)

/-- **The pages partition the list** in every choice of the ties, exactly when no boundary between
two pages splits payments with one `createdAt`. -/
theorem findAll_partition_iff (s : World) (ctx : OrgContext) (query : ListPaymentsDto) :
    (∀ δ : Nat → Op → Decision, (∀ i o, (δ i o).fail = none) → ∃ pages : Nat → Page,
      (∀ i, ((findAll ctx (query.forPage i)).run (δ i) s).result = .ok (pages i)) ∧
        Partition s ctx query pages) ↔
      ¬ Split query.limit (createdAts s ctx query) := by
  constructor
  · intro h hsplit
    obtain ⟨ranks, hranks⟩ := not_partition_of_split hsplit
    obtain ⟨pages, hpages, hpart⟩ := h (fun i _ => { rank := ranks i }) fun _ _ => rfl
    have he : pages = fun i => page s ctx query (ranks i) i := by
      funext i
      obtain ⟨o, ho⟩ := run_findAll s ctx query
        (δ := fun _ => { rank := ranks i }) (fun _ => rfl) i
      exact Except.ok.inj ((hpages i).symm.trans ho)
    exact hranks (he ▸ hpart.once)
  · intro h δ hδ
    choose o ho using fun i => run_findAll s ctx query (hδ i) i
    exact ⟨_, ho, partition_of_not_split h fun i => (δ i (o i)).rank⟩

end AllPages

/-- Two payments with one `createdAt`. -/
def tiedWorld : World :=
  { World.empty with
    payments := ⟨[
      { samplePayment .captured with id := "a", idempotencyKey := "key-a" },
      { samplePayment .captured with id := "b", idempotencyKey := "key-b" }], by decide, by decide⟩ }

/-- Pages of one payment. -/
def singly : ListPaymentsDto := { limit := 1 }

/-- The first query puts `a` before `b`, the others put `b` before `a`. -/
def changingTies (i : Nat) (_ : Op) : Decision :=
  { rank := fun id => if id = "a" then 2 * i else 1 }

/-- `a` is on page 1, and on page 2 too; `b` is on none. -/
theorem findAll_repeats_tied :
    (∀ i o, (changingTies i o).fail = none) ∧
    ¬ ∃ pages : Nat → Page,
      (∀ i, ((findAll sampleCtx (singly.forPage i)).run (changingTies i) tiedWorld).result =
        .ok (pages i)) ∧ Partition tiedWorld sampleCtx singly pages := by
  refine ⟨fun _ _ => rfl, ?_⟩
  rintro ⟨pages, hpages, hpart⟩
  have h0 : (pages 0).data.map (·.payment.id) = ["a"] ∧ (pages 0).pageMeta.pages = 2 := by
    have h := Except.ok.inj (hpages 0)
    rw [← h]
    decide
  have h1 : (pages 1).data.map (·.payment.id) = ["a"] := by
    have h := Except.ok.inj (hpages 1)
    rw [← h]
    decide
  have hall : (allData pages).map (·.payment.id) = ["a", "a"] := by
    rw [allData, h0.2]
    show List.map _ ((pages 0).data ++ ((pages 1).data ++ [])) = _
    rw [List.append_nil, List.map_append, h0.1, h1]
    rfl
  have hperm := hpart.once.map (·.payment.id)
  rw [hall] at hperm
  exact absurd hperm (by decide)

end PaymentsService

end Pasarela
