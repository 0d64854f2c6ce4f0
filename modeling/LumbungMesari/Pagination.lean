import LumbungMesari.Statements
import LumbungMesari.Sql.Evaluation
import LumbungMesari.Sql.Pages

/-!
# Pagination

A paginated query counts the rows and reads one page of them. A loop over the pages of rows that
stay as they are goes over every row once, in order.
-/

namespace LumbungMesari

open Sql
open Prog (onPool)

/-- `PaginationResult` -/
structure Page (α : Type) where
  data : List α
  page : ℕ
  limit : ℕ
  totalData : ℕ
  totalPage : ℕ
  next : Bool
  prev : Bool

def createPaginationMetadata {α : Type} (data : List α) (page limit totalData : ℕ) : Page α :=
  let totalPage := (totalData + limit - 1) / limit
  { data, page, limit, totalData, totalPage, next := page < totalPage, prev := 1 < page }

/-- A count of the rows and one page of them, with its metadata. -/
def paginate {α : Type} (rows : Database → List α) (page limit : ℕ) : Program (Page α) := do
  let totalData ← onPool (select fun d => (rows d).length)
  let data ← onPool (select fun d => ((rows d).drop ((page - 1) * limit)).take limit)
  pure (createPaginationMetadata data page limit totalData)

/-- A paginated query whose order leaves ties: every page is cut from an order of its own. -/
def paginateBy {α : Type} {o : OrderBy α} (plan : Plan o) (rows : Database → List α)
    (page limit : ℕ) : Program (Page α) :=
  paginate (fun d => plan.list page (rows d)) page limit

/-- Fetch page after page, as long as there is a next one, and go over the rows of each. -/
def forEachPage {α σ : Type} (fetch : ℕ → Program (Page α)) (step : σ → α → σ) :
    ℕ → ℕ → σ → Program (Option σ)
  | 0, _, _ => pure none
  | fuel + 1, page, state => do
      let result ← fetch page
      let state := result.data.foldl step state
      if result.next then forEachPage fetch step fuel (page + 1) state else pure (some state)

variable {α σ : Type} {rows : Database → List α} {limit : ℕ} {d : Database}

theorem createPaginationMetadata_next (hlimit : 0 < limit) {data : List α} {page totalData : ℕ} :
    (createPaginationMetadata data page limit totalData).next = true ↔
      page * limit < totalData := by
  rw [createPaginationMetadata, decide_eq_true_eq, Nat.lt_div_iff_mul_lt hlimit]
  omega

/-! ### Ties -/

section Ties

variable {o : OrderBy α} {plan : Plan o}

theorem paginateBy_returns {k : ℕ} {s : Trx} : (paginateBy plan rows (k + 1) limit).Returns d s
    (createPaginationMetadata (page (plan.list (k + 1) (rows d)) limit k) (k + 1) limit
      (rows d).length) d s := by
  rw [← (plan.lists (k + 1) (rows d)).perm.length_eq]
  rfl

/-- The loop over pages that are each cut from an order of their own. -/
theorem forEachPage_paginateBy (hlimit : 0 < limit) (step : σ → α → σ) {fuel k : ℕ} (state : σ)
    (hfuel : (rows d).length - k * limit < fuel) :
    (forEachPage (paginateBy plan rows · limit) step fuel (k + 1) state).Returns d .idle
      (some ((pages (fun j => plan.list (j + 1) (rows d)) limit k fuel).foldl step state)) d
      .idle := by
  induction fuel generalizing k state with
  | zero => cases hfuel
  | succ fuel ih =>
      refine Prog.returns_bind.2 ⟨_, d, .idle, paginateBy_returns, ?_⟩
      dsimp only
      rw [pages, List.foldl_append]
      by_cases hmore : (k + 1) * limit < (rows d).length
      · rw [if_pos ((createPaginationMetadata_next hlimit).2 hmore)]
        refine ih _ ?_
        rw [Nat.succ_mul] at hmore ⊢
        omega
      · have hrest : pages (fun j => plan.list (j + 1) (rows d)) limit (k + 1) fuel = [] := by
          refine List.eq_nil_iff_forall_not_mem.2 fun a ha => ?_
          obtain ⟨j, hkj, -, ha⟩ := mem_pages.1 ha
          have hplace : (k + 1) * limit ≤ j * limit := Nat.mul_le_mul_right limit hkj
          have hlength := (plan.lists (j + 1) (rows d)).perm.length_eq
          rw [page_eq_nil (by omega)] at ha
          cases ha
        rw [if_neg fun hnext => hmore ((createPaginationMetadata_next hlimit).1 hnext), hrest]
        rfl

/-! ### Partitions -/

/-- The pages up to the last one show every row once, none shows a row of another, and each says
whether one is left. -/
structure PagesPartition (result : ℕ → Page α) (rows : List α) : Prop where
  totalPage : ∀ number, 1 ≤ number → (result number).totalPage = (result 1).totalPage
  next : ∀ number, 1 ≤ number →
    ((result number).next = false ↔ (result 1).totalPage ≤ number)
  once : ((List.range' 1 (result 1).totalPage).flatMap fun number => (result number).data).Perm rows
  disjoint : ∀ i j, 1 ≤ i → i < j → (result i).data.Disjoint (result j).data

/-- What a paginated query returns for the content that stays as it is. -/
def FetchPartitions (fetch : ℕ → Program (Page α)) (rows : List α) (d : Database) : Prop :=
  ∃ result : ℕ → Page α, (∀ number, 1 ≤ number → (fetch number).result d = .ok (result number)) ∧
    PagesPartition result rows

/-- The page of a number, cut from its own order of the rows. -/
def pageBy (plan : Plan o) (rows : List α) (limit number : ℕ) : Page α :=
  createPaginationMetadata (page (plan.list number rows) limit (number - 1)) number limit rows.length

theorem result_paginateBy {number : ℕ} (hnumber : 1 ≤ number) :
    (paginateBy plan rows number limit).result d = .ok (pageBy plan (rows d) limit number) := by
  obtain ⟨k, rfl⟩ := Nat.exists_eq_add_of_le' hnumber
  exact Prog.result_eq_ok.2 ⟨d, .idle, paginateBy_returns⟩

theorem fetchPartitions_paginateBy :
    FetchPartitions (paginateBy plan rows · limit) (rows d) d ↔
      PagesPartition (pageBy plan (rows d) limit) (rows d) := by
  refine ⟨fun ⟨result, hresult, h⟩ => ?_, fun h => ⟨_, fun _ => result_paginateBy, h⟩⟩
  have hsame : ∀ number, 1 ≤ number → result number = pageBy plan (rows d) limit number := by
    intro number hnumber
    have hreturned := hresult number hnumber
    rw [result_paginateBy hnumber] at hreturned
    exact (Except.ok.inj hreturned).symm
  have hfirst := hsame 1 (Nat.le_refl 1)
  refine ⟨fun number hnumber => ?_, fun number hnumber => ?_, ?_, fun i j hi hij => ?_⟩
  · rw [← hsame number hnumber, ← hfirst]
    exact h.totalPage number hnumber
  · rw [← hsame number hnumber, ← hfirst]
    exact h.next number hnumber
  · rw [← hfirst]
    refine .trans (.of_eq (List.flatMap_congr fun number hnumber => ?_)) h.once
    rw [hsame number (List.mem_range'_1.1 hnumber).1]
  · rw [← hsame i hi, ← hsame j (by omega)]
    exact h.disjoint i j hi hij

section Partition

variable {xs : List α}

theorem length_le_totalPage_mul (hlimit : 0 < limit) (n : ℕ) :
    n ≤ (n + limit - 1) / limit * limit := by
  have hdiv := Nat.div_add_mod (n + limit - 1) limit
  have hmod := Nat.mod_lt (n + limit - 1) hlimit
  rw [Nat.mul_comm] at hdiv
  omega

theorem flatMap_pageBy (plan : Plan o) (xs : List α) (limit n : ℕ) :
    ((List.range' 1 n).flatMap fun number => (pageBy plan xs limit number).data) =
      pages (fun j => plan.list (j + 1) xs) limit 0 n := by
  rw [pages_eq_flatMap]
  refine List.flatMap_congr fun number hnumber => ?_
  have hpos := (List.mem_range'_1.1 hnumber).1
  rw [pageBy, createPaginationMetadata, Nat.sub_add_cancel hpos]

/-- The numbers of a page are right for every order of the ties. Its rows are as long as the pages
show every row once. -/
theorem pagesPartition_pageBy (hlimit : 0 < limit) (hnodup : xs.Nodup) :
    PagesPartition (pageBy plan xs limit) xs ↔
      (pages (fun j => plan.list (j + 1) xs) limit 0 ((xs.length + limit - 1) / limit)).Perm xs := by
  constructor
  · intro h
    rw [← flatMap_pageBy]
    exact h.once
  intro hperm
  rw [← flatMap_pageBy] at hperm
  refine ⟨fun _ _ => rfl, fun number _ => ?_, hperm, fun i j hi hij => ?_⟩
  · change decide (number < (xs.length + limit - 1) / limit) = false ↔
      (xs.length + limit - 1) / limit ≤ number
    rw [decide_eq_false_iff_not, Nat.not_lt]
  have hdisjoint := (List.nodup_flatMap.1 (hperm.nodup_iff.2 hnodup)).2
  have : Std.Symm (Function.onFun List.Disjoint fun number => (pageBy plan xs limit number).data) :=
    ⟨fun _ _ h => h.symm⟩
  by_cases hj : j ≤ (xs.length + limit - 1) / limit
  · have hi' := List.mem_range'_1.2 ⟨hi, Nat.lt_add_left 1 (Nat.lt_of_lt_of_le hij hj)⟩
    have hj' := List.mem_range'_1.2 ⟨Nat.le_trans hi (Nat.le_of_lt hij), Nat.lt_one_add_iff.2 hj⟩
    exact hdisjoint.forall hi' hj' (Nat.ne_of_lt hij)
  · -- There is nothing on a page after the last one.
    have hbehind : (xs.length + limit - 1) / limit * limit ≤ (j - 1) * limit :=
      Nat.mul_le_mul_right limit (by omega)
    have hlast := length_le_totalPage_mul hlimit xs.length
    have hlength := (plan.lists j xs).perm.length_eq
    have hempty : (pageBy plan xs limit j).data = [] := page_eq_nil (by omega)
    rw [hempty]
    exact List.disjoint_nil_right _

/-- A loop that reaches the last page goes over every row once. -/
theorem FetchPartitions.pages_perm (hlimit : 0 < limit)
    (h : FetchPartitions (paginateBy plan rows · limit) (rows d) d) {n : ℕ}
    (hn : (rows d).length ≤ n) :
    (pages (fun j => plan.list (j + 1) (rows d)) limit 0 n).Perm (rows d) := by
  have honce := (fetchPartitions_paginateBy.1 h).once
  rw [flatMap_pageBy] at honce
  have hlast : ((rows d).length + limit - 1) / limit ≤ n := by
    rw [Nat.div_le_iff_le_mul_add_pred hlimit]
    have hle := Nat.mul_le_mul_left limit hn
    have hone := Nat.le_mul_of_pos_left (rows d).length hlimit
    omega
  rw [pages_eq_of_le (fun j => ?_) hlast]
  · exact honce
  · rw [(plan.lists (j + 1) (rows d)).perm.length_eq, Nat.zero_add]
    exact length_le_totalPage_mul hlimit _

end Partition

/-- The pages are a partition, whatever order of the ties each of them is cut from, exactly when none
of them ends among tied rows. -/
theorem fetchPartitions_iff (hlimit : 0 < limit) (hnodup : (rows d).Nodup) :
    (∀ plan : Plan o, FetchPartitions (paginateBy plan rows · limit) (rows d) d) ↔
      ∀ a ∈ rows d, ∀ k, ¬ o.Straddles (rows d) a (k * limit) := by
  have hlength := length_le_totalPage_mul hlimit (rows d).length
  rw [← pages_perm_iff hnodup hlength]
  constructor
  · intro h list hlist
    obtain ⟨plan, rfl⟩ := exists_plan hlist
    exact (pagesPartition_pageBy hlimit hnodup).1 (fetchPartitions_paginateBy.1 (h plan))
  · intro h plan
    exact fetchPartitions_paginateBy.2
      ((pagesPartition_pageBy hlimit hnodup).2 (h _ fun j => plan.lists (j + 1) _))

/-- Pages that are cut from one order of the ties are a partition. -/
theorem fetchPartitions_sorted (hlimit : 0 < limit) (hnodup : (rows d).Nodup) :
    FetchPartitions (paginateBy (.sorted o) rows · limit) (rows d) d := by
  have hlists := o.lists_mergeSort (rows d)
  refine fetchPartitions_paginateBy.2 ((pagesPartition_pageBy hlimit hnodup).2 ?_)
  refine .trans (.of_eq (pages_const ?_)) hlists.perm
  rw [hlists.perm.length_eq]
  exact length_le_totalPage_mul hlimit _

end Ties

end LumbungMesari
