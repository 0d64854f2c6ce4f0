import LumbungMesari.LoanFile
import Mathlib.Data.Finset.Card

/-!
# Penalties of a loan

What overdue runs and settlements do to the file of a disbursed loan. A run marks the first
installment past due and, when others are overdue, charges the penalty to one that has none. So at
most one overdue installment is ever without a penalty, and fewer are charged than are marked.
-/

namespace LumbungMesari

open Sql Js

/-- The penalty of a loan as it is stored, in units. -/
def penaltyUnits (loan : Loan) (loanPeriod : LoanPeriod) : ℤ :=
  roundHalfAway (loan.principalAmount.toRat * loanPeriod.interestRate.toRat * 10 ^ 4)

namespace LoanFile

variable {f f' generated : LoanFile} {loan : Loan} {loanPeriod : LoanPeriod}

/-- What a run of the overdue job does to a loan. -/
inductive Charge (f : LoanFile) : LoanFile → Prop where
  | mark {i : Installment} {ps : List Posting} (mem : (i, ps) ∈ f.installments)
      (due : i.status = .due)
      (first : ∀ x ∈ f.installments, x.1.status = .due → x.1.dueDate.le i.dueDate →
        i.installmentNumber ≤ x.1.installmentNumber)
      (reason : (∀ x ∈ f.installments, x.1.status ≠ .overdue) ∨ i.penaltyAmount.units ≠ 0) :
      Charge f (f.rewrite (i.setStatus .overdue) [])
  | penalize {loan : Loan} {loanPeriod : LoanPeriod} {i j new : Installment} {ps : List Posting}
      (mem : (i, ps) ∈ f.installments) (due : i.status = .due)
      (first : ∀ x ∈ f.installments, x.1.status = .due → x.1.dueDate.le i.dueDate →
        i.installmentNumber ≤ x.1.installmentNumber)
      (found : f.loan = some (loan, loanPeriod)) (charges : f.Charges i j)
      (set : penalized (j.penaltyAmount.plus (loan.penaltyAmount loanPeriod))
        (j.totalAmount.plus (loan.penaltyAmount loanPeriod)) j = .ok new) :
      Charge f ((f.rewrite (i.setStatus .overdue) []).rewrite new [])

/-! ### The order of a schedule -/

/-- A schedule whose later numbers are not due earlier. -/
def InOrder (generated : LoanFile) : Prop :=
  ∀ x ∈ generated.installments, ∀ y ∈ generated.installments,
    x.1.installmentNumber ≤ y.1.installmentNumber → x.1.dueDate.le y.1.dueDate

theorem InOrder.congr (hgenerated : generated.InOrder)
    (hdates : f.installments.map (fun x => (x.1.installmentNumber, x.1.dueDate)) =
      generated.installments.map fun x => (x.1.installmentNumber, x.1.dueDate)) : f.InOrder := by
  have hpair : ∀ x ∈ f.installments, ∃ x' ∈ generated.installments,
      x'.1.installmentNumber = x.1.installmentNumber ∧ x'.1.dueDate = x.1.dueDate := by
    intro x hx
    have hmem := List.mem_map_of_mem (f := fun x : Installment × List Posting =>
      (x.1.installmentNumber, x.1.dueDate)) hx
    rw [hdates] at hmem
    obtain ⟨x', hx', he⟩ := List.mem_map.1 hmem
    rw [Prod.mk.injEq] at he
    exact ⟨x', hx', he⟩
  intro x hx y hy hle
  obtain ⟨x', hx', hnumber, hdate⟩ := hpair x hx
  obtain ⟨y', hy', hnumber', hdate'⟩ := hpair y hy
  rw [← hdate, ← hdate']
  exact hgenerated x' hx' y' hy' (by rw [hnumber, hnumber']; exact hle)

/-- The installments of a schedule in their order: what is overdue comes before what is due. -/
structure Lined (generated f : LoanFile) : Prop where
  distinct : f.Distinct
  dates : f.installments.map (fun x => (x.1.installmentNumber, x.1.dueDate)) =
    generated.installments.map fun x => (x.1.installmentNumber, x.1.dueDate)
  order : ∀ x ∈ f.installments, ∀ y ∈ f.installments, x.1.status = .due → y.1.status = .overdue →
    y.1.installmentNumber ≤ x.1.installmentNumber

section Order

variable {i new : Installment} {ps postings : List Posting}

/-- A new version of an installment that is no longer due keeps the order, unless it is overdue
with one due before it. -/
theorem Lined.rewrite (h : Lined generated f) (hmem : (i, ps) ∈ f.installments)
    (hid : new.id = i.id)
    (hdate : (new.installmentNumber, new.dueDate) = (i.installmentNumber, i.dueDate))
    (hnotDue : new.status ≠ .due)
    (horder : new.status = .overdue → ∀ x ∈ f.installments, x.1.status = .due →
      i.installmentNumber ≤ x.1.installmentNumber) :
    Lined generated (f.rewrite new postings) := by
  refine ⟨h.distinct.rewrite hmem hid, ?_, fun x hx y hy hdue hoverdue => ?_⟩
  · rw [map_rewrite (fun r => (r.installmentNumber, r.dueDate)) h.distinct hmem hid hdate]
    exact h.dates
  · rcases mem_rewrite h.distinct hmem hid hx with rfl | ⟨hx, -⟩
    · exact absurd hdue hnotDue
    · rcases mem_rewrite h.distinct hmem hid hy with rfl | ⟨hy, -⟩
      · rw [(Prod.mk.inj hdate).1]
        exact horder hoverdue x hx hdue
      · exact h.order x hx y hy hdue hoverdue

/-- The first due installment is marked, so what stays due comes after it. -/
theorem Lined.mark (h : Lined generated f) (hgenerated : generated.InOrder)
    (hmem : (i, ps) ∈ f.installments)
    (hfirst : ∀ x ∈ f.installments, x.1.status = .due → x.1.dueDate.le i.dueDate →
      i.installmentNumber ≤ x.1.installmentNumber) :
    Lined generated (f.rewrite (i.setStatus .overdue) []) := by
  refine h.rewrite hmem rfl rfl (by simp [Installment.setStatus]) fun _ x hx hdue => ?_
  by_contra hlt
  have hdate := (hgenerated.congr h.dates) x hx (i, ps) hmem (not_le.1 hlt).le
  exact hlt (hfirst x hx hdue hdate)

theorem Lined.penalize (h : Lined generated f) (hmem : (i, ps) ∈ f.installments)
    (hoverdue : i.status = .overdue) {loan : Loan} {loanPeriod : LoanPeriod}
    (hset : penalized (i.penaltyAmount.plus (loan.penaltyAmount loanPeriod))
      (i.totalAmount.plus (loan.penaltyAmount loanPeriod)) i = .ok new) :
    Lined generated (f.rewrite new postings) := by
  obtain ⟨_, _, -, -, rfl⟩ := penalized_ok hset
  exact h.rewrite hmem rfl rfl (by simp [hoverdue])
    fun _ x hx hdue => h.order x hx _ hmem hdue hoverdue

theorem Lined.settle (h : Lined generated f) (hmem : (i, ps) ∈ f.installments) (adminId : Uuid)
    (now : Date) (postings : List Posting) :
    Lined generated (f.rewrite (i.settle adminId now) postings) :=
  h.rewrite hmem rfl rfl (by simp [Installment.settle]) (by simp [Installment.settle])

end Order

/-- What a run takes in the file of a loan is in its order, and stays so. -/
theorem Charge.lined (h : Charge f f') (hgenerated : generated.InOrder) (hf : Lined generated f) :
    Lined generated f' := by
  cases h with
  | mark mem due first => exact hf.mark hgenerated mem first
  | penalize mem due first found charges set =>
      obtain ⟨qs, picked, hoverdue, -⟩ := charges.picked
      exact (hf.mark hgenerated mem first).penalize picked hoverdue set

/-! ### Bills -/

/-- What is charged for the installments of a schedule. -/
structure Bills (penalty : ℤ) (generated f : LoanFile) : Prop where
  amounts : ∀ x ∈ f.installments,
    x.1.penaltyAmount.units = 0 ∨ x.1.penaltyAmount.units = penalty
  totals : f.installments.map (fun x =>
      (x.1.id, x.1.totalAmount.units - x.1.penaltyAmount.units)) =
    generated.installments.map fun x => (x.1.id, x.1.totalAmount.units)

/-- The penalties of a loan between two calls. -/
structure PenaltyStates (penalty : ℤ) (generated f : LoanFile) : Prop
    extends Bills penalty generated f where
  due : ∀ x ∈ f.installments, x.1.status = .due → x.1.penaltyAmount.units = 0
  order : ∀ x ∈ f.installments, ∀ y ∈ f.installments, x.1.status = .due → y.1.status = .overdue →
    y.1.installmentNumber ≤ x.1.installmentNumber
  one : ∀ x ∈ f.installments, ∀ y ∈ f.installments, Uncharged x → Uncharged y → x = y

/-- In numbers, the penalty and the total with it come out as the exact ones rounded. -/
def ChargesRounded (f : LoanFile) (i : Installment) : Prop :=
  ∀ loan loanPeriod, f.loan = some (loan, loanPeriod) →
    (loan.penaltyAmount loanPeriod).toFixed 4 * 10 ^ 4 = penaltyUnits loan loanPeriod ∧
      i.totalAmount.plus (loan.penaltyAmount loanPeriod) * 10 ^ 4 =
        i.totalAmount.units + penaltyUnits loan loanPeriod

/-- The bills of a disbursed loan. -/
structure Billed (loan : Loan) (loanPeriod : LoanPeriod) (generated f : LoanFile) : Prop
    extends Bills (penaltyUnits loan loanPeriod) generated f where
  found : f.loan = some (loan, loanPeriod)
  active : loan.status = .active
  distinct : f.Distinct

/-- A new version of an installment, with what is added to its penalty added to its total. -/
theorem Billed.rewrite (h : Billed loan loanPeriod generated f) {i new : Installment}
    {ps postings : List Posting} (hmem : (i, ps) ∈ f.installments) (hid : new.id = i.id)
    (hamount : new.penaltyAmount.units = 0 ∨
      new.penaltyAmount.units = penaltyUnits loan loanPeriod)
    (htotal : new.totalAmount.units - new.penaltyAmount.units =
      i.totalAmount.units - i.penaltyAmount.units) :
    Billed loan loanPeriod generated (f.rewrite new postings) := by
  refine ⟨⟨fun x hx => ?_, ?_⟩, h.found, h.active, h.distinct.rewrite hmem hid⟩
  · rcases mem_rewrite h.distinct hmem hid hx with rfl | ⟨hx, -⟩
    · exact hamount
    · exact h.amounts x hx
  · rw [map_rewrite (fun r => (r.id, r.totalAmount.units - r.penaltyAmount.units)) h.distinct hmem
      hid (by rw [hid, htotal])]
    exact h.totals

/-- Bills stay as they are where penalties come out rounded. -/
theorem Step.billed {c : Conduct} (h : Step c f f')
    (hc : ∀ f i, c.charges f i → f.ChargesRounded i)
    (hf : Billed loan loanPeriod generated f) : Billed loan loanPeriod generated f' := by
  have hsame : ∀ {loan' : Loan} {loanPeriod' : LoanPeriod},
      f.loan = some (loan', loanPeriod') → loan' = loan ∧ loanPeriod' = loanPeriod := by
    intro loan' loanPeriod' hloan
    exact Prod.mk.inj (Option.some.inj (hloan.symm.trans hf.found))
  cases h with
  | create absent => cases absent.symm.trans hf.found
  | decide found pending =>
      rw [(hsame found).1, hf.active] at pending
      cases pending
  | disburse found approved =>
      rw [(hsame found).1, hf.active] at approved
      cases approved
  | settle mem => exact hf.rewrite mem rfl (hf.amounts _ mem) rfl
  | mark mem => exact hf.rewrite mem rfl (hf.amounts _ mem) rfl
  | @penalize loan' loanPeriod' i new ps found mem overdue unpenalized charges set =>
      obtain ⟨rfl, rfl⟩ := hsame found
      obtain ⟨hrounded, hgrown⟩ := hc _ _ charges _ _ found
      obtain ⟨hpenalty, htotal⟩ := penalized_toRat set
      rw [Money.plus_of_units unpenalized] at hpenalty
      rw [← hpenalty, Numeric.toRat_mul] at hrounded
      rw [← htotal, Numeric.toRat_mul] at hgrown
      have hpenalty : new.penaltyAmount.units = penaltyUnits loan' loanPeriod' := by
        exact_mod_cast hrounded
      have htotal : new.totalAmount.units =
          i.totalAmount.units + penaltyUnits loan' loanPeriod' := by
        exact_mod_cast hgrown
      have hid : new.id = i.id := by
        obtain ⟨_, _, -, -, rfl⟩ := penalized_ok set
        rfl
      refine hf.rewrite mem hid (.inr hpenalty) ?_
      rw [htotal, hpenalty, unpenalized]
      ring

theorem WholePenalty.chargesRounded (h : f.WholePenalty) (i : Installment) :
    f.ChargesRounded i := by
  intro loan loanPeriod hloan
  obtain ⟨hdecimal, hsmall⟩ := h loan loanPeriod hloan
  have hpenalty := Money.plus_ofRat 0 hdecimal hsmall
  rw [Money.plus_of_units rfl, Numeric.toRat_zero, zero_add] at hpenalty
  rw [penaltyUnits, hdecimal.round, h.penaltyAmount_eq hloan, hpenalty,
    Money.plus_ofRat _ hdecimal hsmall, add_mul, Numeric.toRat_mul]
  exact ⟨rfl, rfl⟩

/-! ### Running loans -/

/-- A disbursed loan in the order of its schedule, with no penalty on what is due. -/
structure Running (loan : Loan) (loanPeriod : LoanPeriod) (generated f : LoanFile) : Prop
    extends Lined generated f where
  found : f.loan = some (loan, loanPeriod)
  due : ∀ x ∈ f.installments, x.1.status = .due → x.1.penaltyAmount.units = 0

section Running

variable {i new : Installment} {ps postings : List Posting}

theorem Running.rewrite (h : Running loan loanPeriod generated f)
    (hlined : Lined generated (f.rewrite new postings)) (hmem : (i, ps) ∈ f.installments)
    (hid : new.id = i.id) (hnotDue : new.status ≠ .due) :
    Running loan loanPeriod generated (f.rewrite new postings) := by
  refine ⟨hlined, h.found, fun x hx hdue => ?_⟩
  rcases mem_rewrite h.distinct hmem hid hx with rfl | ⟨hx, -⟩
  · exact absurd hdue hnotDue
  · exact h.due x hx hdue

theorem Running.settle (h : Running loan loanPeriod generated f) (hmem : (i, ps) ∈ f.installments)
    (adminId : Uuid) (now : Date) (postings : List Posting) :
    Running loan loanPeriod generated (f.rewrite (i.settle adminId now) postings) :=
  h.rewrite (h.toLined.settle hmem adminId now postings) hmem rfl (by simp [Installment.settle])

theorem Running.mark (h : Running loan loanPeriod generated f) (hgenerated : generated.InOrder)
    (hmem : (i, ps) ∈ f.installments)
    (hfirst : ∀ x ∈ f.installments, x.1.status = .due → x.1.dueDate.le i.dueDate →
      i.installmentNumber ≤ x.1.installmentNumber) :
    Running loan loanPeriod generated (f.rewrite (i.setStatus .overdue) []) :=
  h.rewrite (h.toLined.mark hgenerated hmem hfirst) hmem rfl (by simp [Installment.setStatus])

theorem penalized_pos
    (hpenalty : 1 / 10 ^ 4 ≤ loan.principalAmount.toRat * loanPeriod.interestRate.toRat)
    (hzero : i.penaltyAmount.units = 0)
    (hset : penalized (i.penaltyAmount.plus (loan.penaltyAmount loanPeriod))
      (i.totalAmount.plus (loan.penaltyAmount loanPeriod)) i = .ok new) :
    0 < new.penaltyAmount.units := by
  rw [← Numeric.toRat_pos, (penalized_toRat hset).1, Money.plus_of_units hzero]
  have hpos : 0 < loan.principalAmount.toRat * loanPeriod.interestRate.toRat :=
    lt_of_lt_of_le (by norm_num) hpenalty
  have hkept := abs_le.1 (abs_decimal_sub_le
    (loan.principalAmount.toRat * loanPeriod.interestRate.toRat))
  rw [abs_of_pos hpos] at hkept
  exact Double.toFixed_ofRat_pos (by linarith)

end Running

/-! ### Installments by what has happened to them -/

/-- The ids of the installments that meet a condition. -/
def idsWhere (f : LoanFile) (p : Installment → Bool) : Finset Uuid :=
  ((f.installments.filter fun x => p x.1).map fun x => x.1.id).toFinset

theorem mem_idsWhere {p : Installment → Bool} {id : Uuid} :
    id ∈ f.idsWhere p ↔ ∃ x ∈ f.installments, p x.1 = true ∧ x.1.id = id := by
  simp [idsWhere, and_assoc]

section Rewrite

variable {p : Installment → Bool} {i new : Installment} {ps postings : List Posting}

theorem idsWhere_rewrite_of_pos (hdistinct : f.Distinct) (hmem : (i, ps) ∈ f.installments)
    (hid : new.id = i.id) (hnew : p new = true) :
    (f.rewrite new postings).idsWhere p = insert i.id (f.idsWhere p) := by
  ext id
  rw [Finset.mem_insert, mem_idsWhere, mem_idsWhere]
  constructor
  · rintro ⟨x, hx, hp, rfl⟩
    rcases mem_rewrite hdistinct hmem hid hx with rfl | ⟨hx, -⟩
    · exact .inl hid
    · exact .inr ⟨x, hx, hp, rfl⟩
  · intro h
    by_cases hsame : id = i.id
    · exact ⟨_, mem_rewrite_self hmem hid, hnew, hid.trans hsame.symm⟩
    · obtain ⟨x, hx, hp, rfl⟩ := h.resolve_left hsame
      exact ⟨x, mem_rewrite_ne hid hx hsame, hp, rfl⟩

theorem idsWhere_rewrite_of_neg (hdistinct : f.Distinct) (hmem : (i, ps) ∈ f.installments)
    (hid : new.id = i.id) (hnew : p new = false) :
    (f.rewrite new postings).idsWhere p ⊆ f.idsWhere p := by
  intro id h
  obtain ⟨x, hx, hp, rfl⟩ := mem_idsWhere.1 h
  rcases mem_rewrite hdistinct hmem hid hx with rfl | ⟨hx, -⟩
  · cases hnew.symm.trans hp
  · exact mem_idsWhere.2 ⟨x, hx, hp, rfl⟩

end Rewrite

def isOverdue (i : Installment) : Bool := i.status = .overdue

def isCharged (i : Installment) : Bool := i.penaltyAmount.units ≠ 0

/-! ### What is marked and what is charged -/

/-- A running loan of whose installments some were ever marked, and fewer ever charged. -/
structure Tracked (loan : Loan) (loanPeriod : LoanPeriod) (generated : LoanFile)
    (marked charged : Finset Uuid) (f : LoanFile) : Prop
    extends Running loan loanPeriod generated f where
  one : ∀ x ∈ f.installments, ∀ y ∈ f.installments, Uncharged x → Uncharged y → x = y
  unmarked : ∀ x ∈ f.installments, x.1.status = .due → x.1.id ∉ marked
  fewer : charged.card ≤ marked.card - 1

variable {marked charged : Finset Uuid} {i : Installment} {ps : List Posting}

theorem Tracked.states (h : Tracked loan loanPeriod generated marked charged f)
    (hbilled : Billed loan loanPeriod generated f) :
    PenaltyStates (penaltyUnits loan loanPeriod) generated f :=
  ⟨hbilled.toBills, h.due, h.order, h.one⟩

theorem Tracked.settle (h : Tracked loan loanPeriod generated marked charged f)
    (hmem : (i, ps) ∈ f.installments) (adminId : Uuid) (now : Date) (postings : List Posting) :
    Tracked loan loanPeriod generated marked charged
      (f.rewrite (i.settle adminId now) postings) := by
  have hid : (i.settle adminId now).id = i.id := rfl
  have hold : ∀ x ∈ (f.rewrite (i.settle adminId now) postings).installments,
      x.1.status ≠ .paid → x ∈ f.installments := by
    intro x hx hunpaid
    rcases mem_rewrite h.distinct hmem hid hx with rfl | ⟨hx, -⟩
    · exact absurd rfl hunpaid
    · exact hx
  refine ⟨h.toRunning.settle hmem adminId now postings, fun x hx y hy hx' hy' => ?_,
    fun x hx hdue => h.unmarked x (hold x hx (by simp [hdue])) hdue, h.fewer⟩
  exact h.one x (hold x hx (by simp [hx'.1])) y (hold y hy (by simp [hy'.1])) hx' hy'

theorem idsWhere_settle (hdistinct : f.Distinct) (hmem : (i, ps) ∈ f.installments) (adminId : Uuid)
    (now : Date) (postings : List Posting) :
    (f.rewrite (i.settle adminId now) postings).idsWhere isOverdue ⊆ f.idsWhere isOverdue ∧
      (f.rewrite (i.settle adminId now) postings).idsWhere isCharged ⊆ f.idsWhere isCharged := by
  have hid : (i.settle adminId now).id = i.id := rfl
  refine ⟨idsWhere_rewrite_of_neg hdistinct hmem hid (by simp [isOverdue, Installment.settle]),
    fun id hmem' => ?_⟩
  obtain ⟨x, hx, hp, rfl⟩ := mem_idsWhere.1 hmem'
  rcases mem_rewrite hdistinct hmem hid hx with rfl | ⟨hx, -⟩
  · exact mem_idsWhere.2 ⟨_, hmem, hp, rfl⟩
  · exact mem_idsWhere.2 ⟨x, hx, hp, rfl⟩

section Mark

theorem idsWhere_mark (hdistinct : f.Distinct) (hmem : (i, ps) ∈ f.installments)
    (hzero : i.penaltyAmount.units = 0) :
    (f.rewrite (i.setStatus .overdue) []).idsWhere isOverdue =
        insert i.id (f.idsWhere isOverdue) ∧
      (f.rewrite (i.setStatus .overdue) []).idsWhere isCharged ⊆ f.idsWhere isCharged := by
  have hid : (i.setStatus .overdue).id = i.id := rfl
  exact ⟨idsWhere_rewrite_of_pos hdistinct hmem hid (by simp [isOverdue, Installment.setStatus]),
    idsWhere_rewrite_of_neg hdistinct hmem hid (by simp [isCharged, Installment.setStatus, hzero])⟩

theorem Uncharged.of_mark (hdistinct : f.Distinct) (hmem : (i, ps) ∈ f.installments)
    {x : Installment × List Posting} (h : Uncharged x)
    (hx : x ∈ (f.rewrite (i.setStatus .overdue) []).installments) :
    x = (i.setStatus .overdue, ps ++ []) ∨ x ∈ f.installments ∧ Uncharged x := by
  rcases mem_rewrite hdistinct hmem (show (i.setStatus .overdue).id = i.id from rfl) hx with
    rfl | ⟨hx, -⟩
  · exact .inl rfl
  · exact .inr ⟨hx, h⟩

theorem Tracked.two_mark (h : Tracked loan loanPeriod generated marked charged f)
    (hmem : (i, ps) ∈ f.installments) {x y z : Installment × List Posting}
    (hx : x ∈ (f.rewrite (i.setStatus .overdue) []).installments)
    (hy : y ∈ (f.rewrite (i.setStatus .overdue) []).installments)
    (hz : z ∈ (f.rewrite (i.setStatus .overdue) []).installments)
    (hx' : Uncharged x) (hy' : Uncharged y) (hz' : Uncharged z) : x = y ∨ x = z ∨ y = z := by
  rcases hx'.of_mark h.distinct hmem hx with rfl | ⟨hx, hx'⟩
  · rcases hy'.of_mark h.distinct hmem hy with rfl | ⟨hy, hy'⟩
    · exact .inl rfl
    · rcases hz'.of_mark h.distinct hmem hz with rfl | ⟨hz, hz'⟩
      · exact .inr (.inl rfl)
      · exact .inr (.inr (h.one y hy z hz hy' hz'))
  · rcases hy'.of_mark h.distinct hmem hy with rfl | ⟨hy, hy'⟩
    · rcases hz'.of_mark h.distinct hmem hz with rfl | ⟨hz, hz'⟩
      · exact .inr (.inr rfl)
      · exact .inr (.inl (h.one x hx z hz hx' hz'))
    · exact .inl (h.one x hx y hy hx' hy')

theorem Tracked.unmarked_mark (h : Tracked loan loanPeriod generated marked charged f)
    (hmem : (i, ps) ∈ f.installments) {x : Installment × List Posting}
    (hx : x ∈ (f.rewrite (i.setStatus .overdue) []).installments) (hdue : x.1.status = .due) :
    x.1.id ∉ insert i.id marked := by
  rcases mem_rewrite h.distinct hmem (show (i.setStatus .overdue).id = i.id from rfl) hx with
    rfl | ⟨hx, hne⟩
  · simp [Installment.setStatus] at hdue
  · rw [Finset.mem_insert, not_or]
    exact ⟨hne, h.unmarked x hx hdue⟩

end Mark

/-- A run of the job marks an installment that was never marked, and charges another only when one
was marked before. -/
theorem Charge.tracked (h : Charge f f') (hgenerated : generated.InOrder)
    (hpenalty : 1 / 10 ^ 4 ≤ loan.principalAmount.toRat * loanPeriod.interestRate.toRat)
    (hf : Tracked loan loanPeriod generated (marked ∪ f.idsWhere isOverdue)
      (charged ∪ f.idsWhere isCharged) f) :
    Tracked loan loanPeriod generated (marked ∪ f'.idsWhere isOverdue)
      (charged ∪ f'.idsWhere isCharged) f' := by
  have hfewer := hf.fewer
  cases h with
  | @mark i ps mem due first reason =>
      have hzero : i.penaltyAmount.units = 0 := hf.due _ mem due
      obtain ⟨hoverdue, hcharged⟩ := idsWhere_mark hf.distinct mem hzero
      have hnone : ∀ x ∈ f.installments, ¬ Uncharged x :=
        fun x hx hx' => reason.resolve_right (fun hne => hne hzero) x hx hx'.1
      rw [hoverdue, Finset.union_insert]
      refine ⟨hf.toRunning.mark hgenerated mem first, fun x hx y hy hx' hy' => ?_,
        fun x hx hdue => hf.unmarked_mark mem hx hdue, ?_⟩
      · rcases hx'.of_mark hf.distinct mem hx with rfl | ⟨hx, hx'⟩
        · rcases hy'.of_mark hf.distinct mem hy with rfl | ⟨hy, hy'⟩
          · rfl
          · exact absurd hy' (hnone y hy)
        · exact absurd hx' (hnone x hx)
      · rw [Finset.card_insert_of_notMem (hf.unmarked _ mem due)]
        have hcard : (charged ∪ (f.rewrite (i.setStatus .overdue) []).idsWhere isCharged).card ≤
            (charged ∪ f.idsWhere isCharged).card :=
          Finset.card_le_card (Finset.union_subset_union_right hcharged)
        omega
  | @penalize loan' loanPeriod' i j new ps mem due first found charges set =>
      obtain ⟨rfl, rfl⟩ := Prod.mk.inj (Option.some.inj (found.symm.trans hf.found))
      obtain ⟨qs, picked, (overdue : j.status = .overdue), unpenalized⟩ := charges.picked
      have hmarked := hf.toRunning.mark hgenerated mem first
      obtain ⟨hoverdue, hcharged⟩ := idsWhere_mark hf.distinct mem (hf.due _ mem due)
      have hpos := penalized_pos hpenalty unpenalized set
      obtain ⟨hid, hstatus⟩ : new.id = j.id ∧ new.status = .overdue := by
        obtain ⟨_, _, -, -, rfl⟩ := penalized_ok set
        exact ⟨rfl, overdue⟩
      -- the charged installment was overdue already
      have hoverdue' : ((f.rewrite (i.setStatus .overdue) []).rewrite new []).idsWhere isOverdue =
          insert i.id (f.idsWhere isOverdue) := by
        rw [idsWhere_rewrite_of_pos hmarked.distinct picked hid (by simp [isOverdue, hstatus]),
          ← hoverdue]
        refine Finset.insert_eq_of_mem (mem_idsWhere.2 ⟨_, picked, ?_, rfl⟩)
        simp [isOverdue, overdue]
      have hcharged' : ((f.rewrite (i.setStatus .overdue) []).rewrite new []).idsWhere isCharged ⊆
          insert j.id (f.idsWhere isCharged) := by
        rw [idsWhere_rewrite_of_pos hmarked.distinct picked hid (by simp [isCharged, hpos.ne'])]
        exact Finset.insert_subset_insert _ hcharged
      rw [hoverdue', Finset.union_insert]
      refine ⟨hmarked.rewrite (hmarked.toLined.penalize picked overdue set) picked hid
        (by simp [hstatus]), fun x hx y hy hx' hy' => ?_,
        fun x hx hdue => ?_, ?_⟩
      · have hback : ∀ z ∈ ((f.rewrite (i.setStatus .overdue) []).rewrite new []).installments,
            Uncharged z → z ∈ (f.rewrite (i.setStatus .overdue) []).installments ∧ z ≠ (j, qs) := by
          intro z hz hz'
          rcases mem_rewrite hmarked.distinct picked hid hz with rfl | ⟨hz, hne⟩
          · exact absurd hz'.2 hpos.ne'
          · exact ⟨hz, fun he => hne (by rw [he])⟩
        obtain ⟨hx, hxj⟩ := hback x hx hx'
        obtain ⟨hy, hyj⟩ := hback y hy hy'
        rcases hf.two_mark mem hx hy picked hx' hy' ⟨overdue, unpenalized⟩ with hxy | hxj' | hyj'
        · exact hxy
        · exact absurd hxj' hxj
        · exact absurd hyj' hyj
      · rcases mem_rewrite hmarked.distinct picked hid hx with rfl | ⟨hx, -⟩
        · simp [hstatus] at hdue
        · exact hf.unmarked_mark mem hx hdue
      · rw [Finset.card_insert_of_notMem (hf.unmarked _ mem due)]
        have hsome : 0 < (marked ∪ f.idsWhere isOverdue).card := by
          obtain ⟨x, hx, hx'⟩ := charges.others
          refine Finset.card_pos.2 ⟨x.1.id, Finset.mem_union_right _ (mem_idsWhere.2 ⟨x, hx, ?_, rfl⟩)⟩
          simp [isOverdue, hx']
        have hcard : (charged ∪ ((f.rewrite (i.setStatus .overdue) []).rewrite new []).idsWhere
            isCharged).card ≤ (insert j.id (charged ∪ f.idsWhere isCharged)).card := by
          rw [← Finset.union_insert]
          exact Finset.card_le_card (Finset.union_subset_union_right hcharged')
        have hinsert := Finset.card_insert_le j.id (charged ∪ f.idsWhere isCharged)
        omega

/-! ### Fresh schedules -/

section Generated

variable {rs : List Installment}

theorem new_generated (hinstallments : f.installments = rs.map (·, []))
    (hrs : ∀ r ∈ rs, r.status = .due ∧ r.penaltyAmount.units = 0) {x : Installment × List Posting}
    (hx : x ∈ f.installments) : x.1.status = .due ∧ x.1.penaltyAmount.units = 0 := by
  rw [hinstallments] at hx
  obtain ⟨r, hr, rfl⟩ := List.mem_map.1 hx
  exact hrs r hr

theorem distinct_generated (hinstallments : f.installments = rs.map (·, []))
    (hnodup : (rs.map Installment.id).Nodup) : f.Distinct := by
  rw [Distinct, hinstallments, List.map_map]
  exact hnodup

theorem tracked_generated (hloan : f.loan = some (loan, loanPeriod))
    (hinstallments : f.installments = rs.map (·, [])) (hnodup : (rs.map Installment.id).Nodup)
    (hrs : ∀ r ∈ rs, r.status = .due ∧ r.penaltyAmount.units = 0) :
    Tracked loan loanPeriod f (∅ ∪ f.idsWhere isOverdue) (∅ ∪ f.idsWhere isCharged) f := by
  have hnew : ∀ x ∈ f.installments, x.1.status = .due ∧ x.1.penaltyAmount.units = 0 :=
    fun _ hx => new_generated hinstallments hrs hx
  have hnone : ∀ p : Installment → Bool, (∀ x ∈ f.installments, p x.1 = false) →
      f.idsWhere p = ∅ := by
    intro p hp
    refine Finset.eq_empty_of_forall_notMem fun id hid => ?_
    obtain ⟨x, hx, hx', -⟩ := mem_idsWhere.1 hid
    cases (hp x hx).symm.trans hx'
  have hoverdue := hnone isOverdue fun x hx => by simp [isOverdue, (hnew x hx).1]
  have hcharged := hnone isCharged fun x hx => by simp [isCharged, (hnew x hx).2]
  rw [hoverdue, hcharged]
  refine ⟨⟨⟨distinct_generated hinstallments hnodup, rfl, fun x _ y hy _ hlate => ?_⟩, hloan,
    fun x hx _ => (hnew x hx).2⟩, fun x hx y _ hx' _ => ?_, fun _ _ _ => Finset.notMem_empty _,
    le_refl 0⟩
  · rw [(hnew y hy).1] at hlate
    cases hlate
  · rw [Uncharged, (hnew x hx).1] at hx'
    cases hx'.1

theorem billed_generated (hloan : f.loan = some (loan, loanPeriod)) (hactive : loan.status = .active)
    (hinstallments : f.installments = rs.map (·, [])) (hnodup : (rs.map Installment.id).Nodup)
    (hrs : ∀ r ∈ rs, r.status = .due ∧ r.penaltyAmount.units = 0) :
    Billed loan loanPeriod f f := by
  have hnew : ∀ x ∈ f.installments, x.1.penaltyAmount.units = 0 :=
    fun _ hx => (new_generated hinstallments hrs hx).2
  refine ⟨⟨fun x hx => .inl (hnew x hx), ?_⟩, hloan, hactive,
    distinct_generated hinstallments hnodup⟩
  exact List.map_congr_left fun x hx => by rw [hnew x hx, sub_zero]

end Generated

end LoanFile

/-! ### Due dates -/

namespace Date

/-- Months since year 0. -/
def monthIndex (d : Date) : ℤ := 12 * d.year + (d.month - 1 : ℕ)

theorem firstOfMonth_spec (d : Date) (n : ℕ) :
    (d.firstOfMonth n).monthIndex = d.monthIndex + n ∧ 1 ≤ (d.firstOfMonth n).month ∧
      (d.firstOfMonth n).month ≤ 12 := by
  simp only [firstOfMonth, monthIndex]
  omega

theorem setMonth_spec (d : Date) (n : ℕ) :
    (d.monthIndex + n ≤ (d.setMonth n).monthIndex ∧
      (d.setMonth n).monthIndex ≤ d.monthIndex + n + 1) ∧
      1 ≤ (d.setMonth n).month ∧ (d.setMonth n).month ≤ 12 := by
  obtain ⟨hfirst, hmonth⟩ := d.firstOfMonth_spec n
  obtain ⟨hnext, hmonth'⟩ := (d.firstOfMonth n).firstOfMonth_spec 1
  unfold setMonth
  dsimp only
  split
  · refine ⟨?_, hmonth⟩
    simp only [monthIndex] at hfirst ⊢
    omega
  · refine ⟨?_, hmonth'⟩
    simp only [monthIndex] at hfirst hnext ⊢
    omega

theorem le_of_monthIndex {a b : Date} (ha : 1 ≤ a.month ∧ a.month ≤ 12)
    (hb : 1 ≤ b.month ∧ b.month ≤ 12) (hday : a.day ≤ b.day) (h : a.monthIndex ≤ b.monthIndex) :
    a.le b = true := by
  simp only [monthIndex] at h
  simp only [le, Bool.or_eq_true, Bool.and_eq_true, decide_eq_true_eq]
  omega

end Date

theorem dueDate_mono (now : Date) {i j : ℕ} (h : i ≤ j) :
    (dueDate now i).le (dueDate now j) = true := by
  rcases h.eq_or_lt with rfl | hlt
  · simp [Date.le]
  · obtain ⟨hi, hmonth⟩ := now.setMonth_spec i
    obtain ⟨hj, hmonth'⟩ := now.setMonth_spec j
    refine Date.le_of_monthIndex hmonth hmonth' (le_refl 20) ?_
    have hnext : (now.setMonth i).monthIndex ≤ (now.setMonth j).monthIndex := by omega
    exact hnext

theorem generateInstallments_dueDate {loan : Loan} {tenor : ℕ} {processedBy : Uuid} {now : Date}
    {ids : ℕ → Uuid} {rs : List Installment}
    (h : generateInstallments loan tenor processedBy now ids = .ok rs) {r : Installment}
    (hr : r ∈ rs) : r.dueDate = dueDate now r.installmentNumber := by
  obtain ⟨i, hi⟩ := LoanFile.exists_of_forall₂ (mapM_ok h) hr
  obtain ⟨_, -, hi⟩ := bind_ok hi
  obtain ⟨_, -, hi⟩ := bind_ok hi
  obtain ⟨_, -, hi⟩ := bind_ok hi
  cases hi
  rfl

theorem LoanFile.inOrder_generated {f : LoanFile} {loan : Loan} {tenor : ℕ} {processedBy : Uuid}
    {now : Date} {ids : ℕ → Uuid} {rs : List Installment}
    (h : generateInstallments loan tenor processedBy now ids = .ok rs)
    (hinstallments : f.installments = rs.map (·, [])) : f.InOrder := by
  have hdate : ∀ x ∈ f.installments, x.1.dueDate = dueDate now x.1.installmentNumber := by
    intro x hx
    rw [hinstallments] at hx
    obtain ⟨r, hr, rfl⟩ := List.mem_map.1 hx
    exact generateInstallments_dueDate h hr
  intro x hx y hy hle
  rw [hdate x hx, hdate y hy]
  exact dueDate_mono now hle

end LumbungMesari
