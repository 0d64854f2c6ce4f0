import LumbungMesari.LoanRules
import LumbungMesari.ScheduleRules

/-!
# The file of a loan

What a loan is, apart from the tables: its row, its installments with what has been posted for each,
and the postings of its expenses and of its own incomes. A file is opened by a request, decided on,
disbursed once and then repaid; `LoanFile.Step` is everything that can happen to it. What holds of
every file that was opened empty is proved here, before any table is looked at.
-/

namespace LumbungMesari

open Sql Js

/-! ### Postings -/

/-- A posted row: its direction, what it posts to SHU and what to capital. -/
abbrev Posting := Direction × Money × Money

/-- What a posting moves a balance by. -/
def Posting.signed (b : BalanceType) (p : Posting) : ℤ :=
  p.1.sign * match b with
    | .shu => p.2.1.units
    | .capital => p.2.2.units
    | .total => p.2.1.units + p.2.2.units

def postedTo (b : BalanceType) (ps : List Posting) : ℤ := (ps.map (Posting.signed b)).sum

@[simp] theorem postedTo_nil (b : BalanceType) : postedTo b [] = 0 := rfl

@[simp] theorem postedTo_append (b : BalanceType) (ps ps' : List Posting) :
    postedTo b (ps ++ ps') = postedTo b ps + postedTo b ps' := by
  simp [postedTo]

theorem postedTo_total (ps : List Posting) :
    postedTo .total ps = postedTo .shu ps + postedTo .capital ps := by
  induction ps with
  | nil => rfl
  | cons p ps ih =>
      simp only [postedTo, List.map_cons, List.sum_cons, Posting.signed] at ih ⊢
      rw [ih]
      ring

theorem postedTo_flatMap {α : Type} (b : BalanceType) (f : α → List Posting) (xs : List α) :
    postedTo b (xs.flatMap f) = (xs.map fun x => postedTo b (f x)).sum := by
  induction xs with
  | nil => rfl
  | cons x xs ih => rw [List.flatMap_cons, postedTo_append, ih, List.map_cons, List.sum_cons]

section Settled

variable (i : Installment)

theorem postedTo_capital_installment :
    postedTo .capital (installmentPostings i) = i.principalAmount.units := by
  unfold installmentPostings
  split <;> simp [postedTo, Posting.signed, Direction.sign]

theorem postedTo_shu_installment (h : 0 ≤ i.penaltyAmount.units) :
    postedTo .shu (installmentPostings i) = i.interestAmount.units + i.penaltyAmount.units := by
  unfold installmentPostings
  split
  · simp [postedTo, Posting.signed, Direction.sign]
  · rename_i hpenalty
    rw [Numeric.toRat_pos] at hpenalty
    have hzero : i.penaltyAmount.units = 0 := by omega
    simp [postedTo, Posting.signed, Direction.sign, hzero]

end Settled

/-! ### Files -/

@[ext] structure LoanFile where
  loan : Option (Loan × LoanPeriod)
  installments : List (Installment × List Posting)
  expenses : List (Expense × List Posting)
  fees : List (Income × List Posting)

/-- Positive amounts that the column of a loan can hold. -/
def InUnits (amount : ℚ) : Prop := ∃ m : Money, 0 < m.units ∧ amount = m.toRat

/-- What may be asked of the service for a loan: the amounts that are requested, the installments
that are settled, the loans that are disbursed with their periods, and the installments that a penalty
is added to. -/
structure Conduct where
  asks : ℚ → Prop
  settles : LoanFile → Installment → Prop
  disburses : Loan → LoanPeriod → Prop
  charges : LoanFile → Installment → Prop

namespace LoanFile

/-- Nothing has been disbursed. -/
structure Untouched (f : LoanFile) : Prop where
  installments : f.installments = []
  expenses : f.expenses = []
  fees : f.fees = []

/-- A new version of an installment, and what is posted with it. -/
def rewrite (f : LoanFile) (new : Installment) (postings : List Posting) : LoanFile :=
  { f with
    installments := f.installments.map fun x =>
      if x.1.id = new.id then (new, x.2 ++ postings) else x }

/-- An overdue installment without a penalty. -/
def Uncharged (x : Installment × List Posting) : Prop :=
  x.1.status = .overdue ∧ x.1.penaltyAmount.units = 0

/-- The installment that is charged when another one has been marked: of those that are overdue
without a penalty, the one with the lowest number. -/
structure Charges (f : LoanFile) (i j : Installment) : Prop where
  others : ∃ x ∈ f.installments, x.1.status = .overdue
  picked : ∃ qs, (j, qs) ∈ (f.rewrite (i.setStatus .overdue) []).installments ∧ Uncharged (j, qs)
  oldest : ∀ x ∈ (f.rewrite (i.setStatus .overdue) []).installments, Uncharged x →
    j.installmentNumber ≤ x.1.installmentNumber

/-- Everything that can happen to a loan. -/
inductive Step (c : Conduct) (f : LoanFile) : LoanFile → Prop where
  | create {id userId : Uuid} {loanPeriod : LoanPeriod} {amount adminFeeRate : ℚ} {loan : Loan}
      (absent : f.loan = none) (asked : c.asks amount)
      (created : LoanCreated id userId loanPeriod amount adminFeeRate loan) :
      Step c f { f with loan := some (loan, loanPeriod) }
  | decide {loan : Loan} {loanPeriod : LoanPeriod} {status : LoanStatus} {approvedBy : Option Uuid}
      {notes : Option String} {now : Date} (found : f.loan = some (loan, loanPeriod))
      (pending : loan.status = .pending) (decision : status = .approved ∨ status = .rejected) :
      Step c f { f with loan := some (loan.setStatus status approvedBy notes now, loanPeriod) }
  | disburse {loan : Loan} {loanPeriod : LoanPeriod} {ids : ℕ → Uuid} {adminId : Uuid} {now : Date}
      {rs : List Installment} {e : Expense} {fee : Income}
      (found : f.loan = some (loan, loanPeriod)) (approved : loan.status = .approved)
      (disburses : c.disburses loan loanPeriod)
      (schedule : generateInstallments loan loanPeriod.tenor adminId now ids = .ok rs)
      (nodup : (rs.map Installment.id).Nodup) :
      Step c f
        { loan := some (loan.disburse now, loanPeriod)
          installments := f.installments ++ rs.map (·, [])
          expenses := f.expenses ++ [(e, [(.out, 0, loan.disbursedAmount)])]
          fees := f.fees ++ [(fee, [(.in_, loan.adminFeeAmount, 0)])] }
  | settle {i : Installment} {ps : List Posting} {adminId : Uuid} {now : Date}
      (mem : (i, ps) ∈ f.installments) (unpaid : i.status ≠ .paid) (settles : c.settles f i)
      (principal : 0 < i.principalAmount.units) (interest : 0 < i.interestAmount.units) :
      Step c f (f.rewrite (i.settle adminId now) (installmentPostings i))
  | mark {i : Installment} {ps : List Posting} (mem : (i, ps) ∈ f.installments)
      (due : i.status = .due) : Step c f (f.rewrite (i.setStatus .overdue) [])
  | penalize {loan : Loan} {loanPeriod : LoanPeriod} {i new : Installment} {ps : List Posting}
      (found : f.loan = some (loan, loanPeriod)) (mem : (i, ps) ∈ f.installments)
      (overdue : i.status = .overdue) (unpenalized : i.penaltyAmount.units = 0)
      (charges : c.charges f i)
      (set : penalized (i.penaltyAmount.plus (loan.penaltyAmount loanPeriod))
        (i.totalAmount.plus (loan.penaltyAmount loanPeriod)) i = .ok new) :
      Step c f (f.rewrite new [])

/-- Any number of steps. -/
abbrev Steps (c : Conduct) : LoanFile → LoanFile → Prop := Relation.ReflTransGen (Step c)

variable {c : Conduct} {f f' : LoanFile}

theorem Steps.keeps {I : LoanFile → Prop} (hstep : ∀ {f f'}, Step c f f' → I f → I f')
    (h : Steps c f f') (hf : I f) : I f' := by
  induction h with
  | refl => exact hf
  | tail _ hlast ih => exact hstep hlast ih

/-! ### Rewriting one installment -/

/-- Installments of a file have different ids. -/
def Distinct (f : LoanFile) : Prop := (f.installments.map fun x => x.1.id).Nodup

section Rewrite

variable {i new : Installment} {ps postings : List Posting}

theorem eq_of_id (hdistinct : f.Distinct) (hmem : (i, ps) ∈ f.installments)
    {x : Installment × List Posting} (hx : x ∈ f.installments) (hid : x.1.id = i.id) :
    x = (i, ps) :=
  List.inj_on_of_nodup_map hdistinct hx hmem hid

theorem mem_rewrite (hdistinct : f.Distinct) (hmem : (i, ps) ∈ f.installments)
    (hid : new.id = i.id) {x : Installment × List Posting}
    (hx : x ∈ (f.rewrite new postings).installments) :
    x = (new, ps ++ postings) ∨ (x ∈ f.installments ∧ x.1.id ≠ i.id) := by
  obtain ⟨y, hy, rfl⟩ := List.mem_map.1 hx
  split
  · rename_i hy'
    rw [eq_of_id hdistinct hmem hy (hy'.trans hid)]
    exact .inl rfl
  · rename_i hy'
    exact .inr ⟨hy, fun h => hy' (h.trans hid.symm)⟩

theorem mem_rewrite_self (hmem : (i, ps) ∈ f.installments) (hid : new.id = i.id) :
    (new, ps ++ postings) ∈ (f.rewrite new postings).installments := by
  refine List.mem_map.2 ⟨(i, ps), hmem, ?_⟩
  rw [if_pos hid.symm]

theorem mem_rewrite_ne (hid : new.id = i.id) {x : Installment × List Posting}
    (hx : x ∈ f.installments) (hne : x.1.id ≠ i.id) :
    x ∈ (f.rewrite new postings).installments := by
  refine List.mem_map.2 ⟨x, hx, ?_⟩
  rw [if_neg fun h => hne (h.trans hid)]

theorem map_rewrite {β : Type} (g : Installment → β) (hdistinct : f.Distinct)
    (hmem : (i, ps) ∈ f.installments) (hid : new.id = i.id) (hg : g new = g i) :
    ((f.rewrite new postings).installments.map fun x => g x.1) =
      f.installments.map fun x => g x.1 := by
  rw [rewrite, List.map_map]
  refine List.map_congr_left fun x hx => ?_
  simp only [Function.comp_apply]
  split
  · rename_i hx'
    rw [eq_of_id hdistinct hmem hx (hx'.trans hid)]
    exact hg
  · rfl

theorem Distinct.rewrite (hdistinct : f.Distinct) (hmem : (i, ps) ∈ f.installments)
    (hid : new.id = i.id) : (f.rewrite new postings).Distinct := by
  rw [Distinct, map_rewrite (·.id) hdistinct hmem hid hid]
  exact hdistinct

end Rewrite

/-! ### Orderly files -/

/-- What has been posted for an installment is what its status says. -/
def Posted (x : Installment × List Posting) : Prop :=
  x.2 = if x.1.status = .paid then installmentPostings x.1 else []

/-- The books of a disbursed loan. -/
structure DisbursedAs (f : LoanFile) (loan : Loan) (tenor : ℕ) : Prop where
  expense : ∃ e, f.expenses = [(e, [(.out, 0, loan.disbursedAmount)])]
  fee : ∃ fee, f.fees = [(fee, [(.in_, loan.adminFeeAmount, 0)])]
  numbers : (f.installments.map fun x => x.1.installmentNumber) = List.range' 1 tenor
  principals : 1 ≤ tenor →
    (f.installments.map fun x => x.1.principalAmount.units).sum = loan.principalAmount.units
  interests : ∀ x ∈ f.installments, x.1.interestAmount = loan.interestAmount
  distinct : f.Distinct
  posted : ∀ x ∈ f.installments, Posted x

/-- Only a disbursed loan has books, and a disbursed loan is active. -/
structure Orderly (f : LoanFile) : Prop where
  absent : f.loan = none → f.Untouched
  waiting : ∀ loan loanPeriod, f.loan = some (loan, loanPeriod) → loan.status ≠ .active →
    loan.status ≠ .completed ∧ f.Untouched
  active : ∀ loan loanPeriod, f.loan = some (loan, loanPeriod) → loan.status = .active →
    f.DisbursedAs loan loanPeriod.tenor

theorem Orderly.active_of_mem (hf : f.Orderly) {x : Installment × List Posting}
    (hx : x ∈ f.installments) : ∃ loan loanPeriod, f.loan = some (loan, loanPeriod) ∧
      loan.status = .active ∧ f.DisbursedAs loan loanPeriod.tenor := by
  have hnot : ¬ f.Untouched := fun h => by
    rw [h.installments] at hx
    cases hx
  cases hloan : f.loan with
  | none => exact absurd (hf.absent hloan) hnot
  | some p =>
      by_cases hactive : p.1.status = .active
      · exact ⟨p.1, p.2, rfl, hactive, hf.active p.1 p.2 hloan hactive⟩
      · exact absurd (hf.waiting p.1 p.2 hloan hactive).2 hnot

theorem Orderly.active_of_disbursed (hf : f.Orderly) {loan : Loan} {loanPeriod : LoanPeriod}
    (hloan : f.loan = some (loan, loanPeriod))
    (hdisbursed : loan.status = .active ∨ loan.status = .completed) : loan.status = .active := by
  by_contra hne
  exact (hf.waiting loan loanPeriod hloan hne).1 (hdisbursed.resolve_left hne)

/-- A new version of an installment that keeps its number, principal and interest, with the postings
its status asks for. -/
theorem Orderly.rewrite (hf : f.Orderly) {i new : Installment} {ps postings : List Posting}
    (hmem : (i, ps) ∈ f.installments) (hid : new.id = i.id)
    (hnumber : new.installmentNumber = i.installmentNumber)
    (hprincipal : new.principalAmount = i.principalAmount)
    (hinterest : new.interestAmount = i.interestAmount)
    (hposted : Posted (i, ps) → Posted (new, ps ++ postings)) :
    (f.rewrite new postings).Orderly := by
  obtain ⟨loan, loanPeriod, hloan, hactive, h⟩ := hf.active_of_mem hmem
  have hsame : ∀ {loan' loanPeriod'}, (f.rewrite new postings).loan = some (loan', loanPeriod') →
      loan' = loan ∧ loanPeriod' = loanPeriod := by
    intro loan' loanPeriod' hloan'
    have hpair : (loan', loanPeriod') = (loan, loanPeriod) :=
      Option.some.inj (hloan'.symm.trans hloan)
    cases hpair
    exact ⟨rfl, rfl⟩
  refine ⟨fun hnone => ?_, fun loan' loanPeriod' hloan' hstatus => ?_,
    fun loan' loanPeriod' hloan' _ => ?_⟩
  · rw [show f.loan = none from hnone] at hloan
    cases hloan
  · obtain ⟨rfl, rfl⟩ := hsame hloan'
    exact absurd hactive hstatus
  · obtain ⟨rfl, rfl⟩ := hsame hloan'
    refine ⟨h.expense, h.fee, ?_, fun htenor => ?_, fun x hx => ?_, h.distinct.rewrite hmem hid,
      fun x hx => ?_⟩
    · rw [map_rewrite (·.installmentNumber) h.distinct hmem hid hnumber]
      exact h.numbers
    · rw [map_rewrite (·.principalAmount.units) h.distinct hmem hid (by rw [hprincipal])]
      exact h.principals htenor
    · rcases mem_rewrite h.distinct hmem hid hx with rfl | ⟨hx, -⟩
      · exact hinterest.trans (h.interests _ hmem)
      · exact h.interests x hx
    · rcases mem_rewrite h.distinct hmem hid hx with rfl | ⟨hx, -⟩
      · exact hposted (h.posted _ hmem)
      · exact h.posted x hx

theorem posted_of_unpaid {i new : Installment} {ps : List Posting} (hunpaid : i.status ≠ .paid)
    (hnew : new.status ≠ .paid) (h : Posted (i, ps)) : Posted (new, ps ++ []) := by
  simp only [Posted, if_neg hunpaid, if_neg hnew] at h ⊢
  rw [h]
  rfl

theorem exists_of_forall₂ {α β : Type} {R : α → β → Prop} {as : List α} {bs : List β}
    (h : List.Forall₂ R as bs) {b : β} (hb : b ∈ bs) : ∃ a, R a b := by
  induction h with
  | nil => cases hb
  | cons hhead _ ih =>
      rcases List.mem_cons.1 hb with rfl | hb
      · exact ⟨_, hhead⟩
      · exact ih hb

theorem numbers_generateInstallments {loan : Loan} {tenor : ℕ} {ids : ℕ → Uuid}
    {rs : List Installment}
    (h : List.Forall₂ (fun i r => InstallmentCreated loan tenor (ids (i + 1)) (i + 1) r)
      (List.range tenor) rs) : rs.map (·.installmentNumber) = List.range' 1 tenor := by
  have hmap : ∀ {is : List ℕ} {rs : List Installment},
      List.Forall₂ (fun i r => InstallmentCreated loan tenor (ids (i + 1)) (i + 1) r) is rs →
      rs.map (·.installmentNumber) = is.map (1 + ·) := by
    intro is rs h
    induction h with
    | nil => rfl
    | cons hhead _ ih =>
        rw [List.map_cons, List.map_cons, ih, hhead.installmentNumber, Nat.add_comm]
  rw [hmap h, List.range_eq_range', List.map_add_range']

theorem Step.orderly (h : Step c f f') (hf : f.Orderly) : f'.Orderly := by
  cases h with
  | @create _ _ loanPeriod _ _ loan absent asked created =>
      have huntouched := hf.absent absent
      refine ⟨fun hnone => ?_, fun loan' loanPeriod' hloan' _ => ?_,
        fun loan' loanPeriod' hloan' hactive => ?_⟩
      · cases hnone
      · cases hloan'
        exact ⟨by simp [created.status], ⟨huntouched.1, huntouched.2, huntouched.3⟩⟩
      · cases hloan'
        simp [created.status] at hactive
  | @decide loan loanPeriod status approvedBy notes now found pending decision =>
      have huntouched := (hf.waiting loan loanPeriod found (by simp [pending])).2
      have hstatus : (loan.setStatus status approvedBy notes now).status = status := by
        cases status <;> rfl
      refine ⟨fun hnone => ?_, fun loan' loanPeriod' hloan' _ => ?_,
        fun loan' loanPeriod' hloan' hactive => ?_⟩
      · cases hnone
      · cases hloan'
        refine ⟨?_, ⟨huntouched.1, huntouched.2, huntouched.3⟩⟩
        rcases decision with rfl | rfl <;> simp [hstatus]
      · cases hloan'
        rcases decision with rfl | rfl <;> simp [hstatus] at hactive
  | @disburse loan loanPeriod ids adminId now rs e fee found approved disburses schedule nodup =>
      have huntouched := (hf.waiting loan loanPeriod found (by simp [approved])).2
      have hcreated := generateInstallments_ok schedule
      refine ⟨fun hnone => ?_, fun loan' loanPeriod' hloan' hstatus => ?_,
        fun loan' loanPeriod' hloan' _ => ?_⟩
      · cases hnone
      · cases hloan'
        exact absurd rfl hstatus
      · cases hloan'
        refine ⟨⟨e, ?_⟩, ⟨fee, ?_⟩, ?_, fun htenor => ?_, fun x hx => ?_, ?_, fun x hx => ?_⟩
        · rw [huntouched.expenses]
          rfl
        · rw [huntouched.fees]
          rfl
        · rw [huntouched.installments, List.nil_append, List.map_map]
          exact numbers_generateInstallments hcreated
        · rw [huntouched.installments, List.nil_append, List.map_map]
          have hsum := sum_generateInstallments htenor hcreated
          exact hsum
        · rw [huntouched.installments, List.nil_append] at hx
          obtain ⟨r, hr, rfl⟩ := List.mem_map.1 hx
          obtain ⟨i, hi⟩ := exists_of_forall₂ hcreated hr
          exact Numeric.ext hi.interest
        · rw [Distinct, huntouched.installments, List.nil_append, List.map_map]
          exact nodup
        · rw [huntouched.installments, List.nil_append] at hx
          obtain ⟨r, hr, rfl⟩ := List.mem_map.1 hx
          obtain ⟨i, hi⟩ := exists_of_forall₂ hcreated hr
          simp [Posted, hi.status]
  | @settle i ps adminId now mem unpaid settles principal interest =>
      refine hf.rewrite mem rfl rfl rfl rfl fun hposted => ?_
      simp only [Posted, if_neg unpaid] at hposted
      rw [hposted]
      rfl
  | @mark i ps mem due =>
      exact hf.rewrite mem rfl rfl rfl rfl
        (posted_of_unpaid (by simp [due]) (by simp [Installment.setStatus]))
  | @penalize loan loanPeriod i new ps found mem overdue unpenalized charges set =>
      obtain ⟨penalty, total, -, -, rfl⟩ := penalized_ok set
      exact hf.rewrite mem rfl rfl rfl rfl
        (posted_of_unpaid (by simp [overdue]) (by simp [overdue]))

theorem Steps.orderly (h : Steps c f f') (hf : f.Orderly) : f'.Orderly := h.keeps Step.orderly hf

/-! ### Priced files -/

/-- A loan that bears interest is of a positive amount at a positive rate, and its columns are
consistent where its interest has few decimals. -/
structure PricedAs (loan : Loan) (loanPeriod : LoanPeriod) : Prop where
  principal : 0 < loan.principalAmount.units
  rate : 0 < loanPeriod.interestRate.units
  scheduled : Decimal 7 (loan.principalAmount.toRat * loanPeriod.interestRate.toRat) →
    loan.Scheduled loanPeriod.tenor

def Priced (f : LoanFile) : Prop :=
  ∀ loan loanPeriod, f.loan = some (loan, loanPeriod) → 1 ≤ loanPeriod.tenor →
    0 < loan.interestAmount.units → PricedAs loan loanPeriod

/-- The installments of a loan that bears interest. -/
def Each (p : Installment → Prop) (f : LoanFile) : Prop :=
  ∀ loan loanPeriod, f.loan = some (loan, loanPeriod) → 1 ≤ loanPeriod.tenor →
    0 < loan.interestAmount.units → ∀ x ∈ f.installments, p x.1

def PenaltiesNonneg (f : LoanFile) : Prop := f.Each fun i => 0 ≤ i.penaltyAmount.units

/-- The parts of an installment make up its total, unless it has no principal to pay. -/
def InParts (i : Installment) : Prop :=
  0 < i.principalAmount.units → i.totalAmount.units =
    i.principalAmount.units + i.interestAmount.units + i.penaltyAmount.units

/-- In numbers, the total of an installment grows by its penalty as it is stored. -/
def ChargesAlike (f : LoanFile) (i : Installment) : Prop :=
  ∀ loan loanPeriod, f.loan = some (loan, loanPeriod) →
    i.totalAmount.plus (loan.penaltyAmount loanPeriod) =
      i.totalAmount.toRat + (loan.penaltyAmount loanPeriod).toFixed 4

/-- A paid installment had principal and interest to pay. -/
def PaidInFull (f : LoanFile) : Prop :=
  ∀ x ∈ f.installments, x.1.status = .paid →
    0 < x.1.principalAmount.units ∧ 0 < x.1.interestAmount.units

/-- Principal times rate has four decimals. -/
def WholePenalty (f : LoanFile) : Prop :=
  ∀ loan loanPeriod, f.loan = some (loan, loanPeriod) →
    Decimal 4 (loan.principalAmount.toRat * loanPeriod.interestRate.toRat) ∧
      |loan.principalAmount.toRat * loanPeriod.interestRate.toRat| ≤ 5 * 10 ^ 8

theorem WholePenalty.penaltyAmount_eq (h : f.WholePenalty) {loan : Loan} {loanPeriod : LoanPeriod}
    (hloan : f.loan = some (loan, loanPeriod)) : loan.penaltyAmount loanPeriod =
      .ofRat (loan.principalAmount.toRat * loanPeriod.interestRate.toRat) := by
  obtain ⟨hdecimal, hsmall⟩ := h loan loanPeriod hloan
  rw [Loan.penaltyAmount, decimal_of_decimal hdecimal (by linarith)]

/-- Then nothing is rounded. -/
theorem WholePenalty.chargesAlike (h : f.WholePenalty) (i : Installment) : f.ChargesAlike i := by
  intro loan loanPeriod hloan
  obtain ⟨hdecimal, hsmall⟩ := h loan loanPeriod hloan
  have hzero : (0 : Money).plus (loan.penaltyAmount loanPeriod) =
      (loan.penaltyAmount loanPeriod).toFixed 4 := Money.plus_of_units rfl _
  rw [← hzero, h.penaltyAmount_eq hloan, Money.plus_ofRat _ hdecimal hsmall,
    Money.plus_ofRat _ hdecimal hsmall, Numeric.toRat_zero, zero_add]

theorem interestAmount_setStatus (loan : Loan) (status : LoanStatus) (approvedBy : Option Uuid)
    (notes : Option String) (now : Date) :
    (loan.setStatus status approvedBy notes now).interestAmount = loan.interestAmount := by
  cases status <;> rfl

theorem PricedAs.setStatus {loan : Loan} {loanPeriod : LoanPeriod} (h : PricedAs loan loanPeriod)
    (status : LoanStatus) (approvedBy : Option Uuid) (notes : Option String) (now : Date) :
    PricedAs (loan.setStatus status approvedBy notes now) loanPeriod := by
  cases status <;> exact ⟨h.principal, h.rate, h.scheduled⟩

theorem Orderly.distinct_of_mem (hf : f.Orderly) {x : Installment × List Posting}
    (hx : x ∈ f.installments) : f.Distinct := by
  obtain ⟨_, _, _, _, h⟩ := hf.active_of_mem hx
  exact h.distinct

theorem Step.priced (h : Step c f f') (hc : ∀ amount, c.asks amount → InUnits amount)
    (hpriced : f.Priced) : f'.Priced := by
  cases h with
  | create absent asked created =>
      rintro loan loanPeriod hloan htenor hinterest
      cases hloan
      obtain ⟨m, hm, rfl⟩ := hc _ asked
      have hrate := created.rate_pos hm hinterest
      refine ⟨created.principal_eq ▸ hm, hrate, fun hseven => ?_⟩
      exact created.scheduled hm hrate htenor (created.principal_eq ▸ hseven)
  | @decide loan loanPeriod status approvedBy notes now found pending decision =>
      rintro loan' loanPeriod' hloan htenor hinterest
      cases hloan
      rw [interestAmount_setStatus] at hinterest
      exact (hpriced _ _ found htenor hinterest).setStatus ..
  | disburse found approved disburses schedule nodup =>
      rintro loan' loanPeriod hloan htenor hinterest
      cases hloan
      have h := hpriced _ _ found htenor hinterest
      exact ⟨h.principal, h.rate, h.scheduled⟩
  | settle | mark | penalize => exact hpriced

theorem Each.rewrite {p : Installment → Prop} (hp : f.Each p) (hdistinct : f.Distinct)
    {i new : Installment} {ps postings : List Posting} (hmem : (i, ps) ∈ f.installments)
    (hid : new.id = i.id)
    (hnew : ∀ loan loanPeriod, f.loan = some (loan, loanPeriod) → 1 ≤ loanPeriod.tenor →
      0 < loan.interestAmount.units → p i → p new) : (f.rewrite new postings).Each p := by
  intro loan loanPeriod hloan htenor hinterest x hx
  have hall := hp loan loanPeriod hloan htenor hinterest
  rcases mem_rewrite hdistinct hmem hid hx with rfl | ⟨hx, -⟩
  · exact hnew loan loanPeriod hloan htenor hinterest (hall _ hmem)
  · exact hall x hx

/-- What is met by a schedule and kept by every penalty is met throughout, unless it depends on the
status of an installment. -/
theorem Step.each {p : Installment → Prop} (h : Step c f f') (hf : f.Orderly)
    (hpriced : f.Priced) (hcreated : ∀ {loan : Loan} {loanPeriod : LoanPeriod} {i : ℕ} {id : Uuid}
      {r : Installment}, c.disburses loan loanPeriod → 0 < loan.interestAmount.units →
        InstallmentCreated loan loanPeriod.tenor id i r → p r)
    (hsettled : ∀ {i : Installment} {adminId : Uuid} {now : Date}, p i → p (i.settle adminId now))
    (hmarked : ∀ {i : Installment}, p i → p (i.setStatus .overdue))
    (hpenalized : ∀ {loan : Loan} {loanPeriod : LoanPeriod} {i new : Installment},
      f.loan = some (loan, loanPeriod) → PricedAs loan loanPeriod → i.penaltyAmount.units = 0 →
      c.charges f i → penalized (i.penaltyAmount.plus (loan.penaltyAmount loanPeriod))
        (i.totalAmount.plus (loan.penaltyAmount loanPeriod)) i = .ok new → p i → p new)
    (hp : f.Each p) : f'.Each p := by
  cases h with
  | create absent asked created =>
      rintro loan loanPeriod - - - x hx
      rw [show f.installments = [] from (hf.absent absent).installments] at hx
      cases hx
  | @decide loan loanPeriod status approvedBy notes now found pending decision =>
      rintro loan' loanPeriod' hloan htenor hinterest
      cases hloan
      rw [interestAmount_setStatus] at hinterest
      exact hp _ _ found htenor hinterest
  | disburse found approved disburses schedule nodup =>
      rintro loan' loanPeriod hloan htenor hinterest x hx
      cases hloan
      rw [(hf.waiting _ _ found (by simp [approved])).2.installments, List.nil_append] at hx
      obtain ⟨r, hr, rfl⟩ := List.mem_map.1 hx
      obtain ⟨i, hi⟩ := exists_of_forall₂ (generateInstallments_ok schedule) hr
      exact hcreated disburses hinterest hi
  | settle mem => exact hp.rewrite (hf.distinct_of_mem mem) mem rfl fun _ _ _ _ _ => hsettled
  | mark mem => exact hp.rewrite (hf.distinct_of_mem mem) mem rfl fun _ _ _ _ _ => hmarked
  | @penalize loan loanPeriod i new ps found mem overdue unpenalized charges set =>
      have hid : new.id = i.id := by
        obtain ⟨_, _, -, -, rfl⟩ := penalized_ok set
        rfl
      refine hp.rewrite (hf.distinct_of_mem mem) mem hid fun _ _ hloan htenor hinterest => ?_
      obtain ⟨rfl, rfl⟩ := Prod.mk.inj (Option.some.inj (found.symm.trans hloan))
      exact hpenalized found (hpriced _ _ found htenor hinterest) unpenalized charges set

theorem Step.penaltiesNonneg (h : Step c f f') (hf : f.Orderly) (hpriced : f.Priced)
    (hpenalties : f.PenaltiesNonneg) : f'.PenaltiesNonneg :=
  h.each hf hpriced (fun _ _ hr => hr.penalty.ge) id id
    (fun _ hloan _ _ hset hi => by
      rw [← Numeric.toRat_nonneg, (penalized_toRat hset).1]
      exact Money.plus_nonneg hi (Loan.penaltyAmount_nonneg hloan.principal.le hloan.rate.le))
    hpenalties

theorem Step.inParts (h : Step c f f') (hdisburses : ∀ loan loanPeriod,
      c.disburses loan loanPeriod → 0 < loan.interestAmount.units → loan.Scheduled loanPeriod.tenor)
    (hcharges : ∀ f i, c.charges f i → f.ChargesAlike i) (hf : f.Orderly) (hpriced : f.Priced)
    (hparts : f.Each InParts) : f'.Each InParts := by
  refine h.each hf hpriced (fun hloan hinterest hr hpos => ?_) id id
    (fun {_ _ i new} hloan _ hzero hcharged hset hi hpos => ?_) hparts
  · rw [hr.total_eq (hdisburses _ _ hloan hinterest) hpos, hr.penalty, add_zero]
  · obtain ⟨hpenalty, htotal⟩ := penalized_toRat hset
    rw [hcharges _ _ hcharged _ _ hloan, ← Money.plus_of_units hzero, ← hpenalty] at htotal
    have hunits : new.totalAmount.units = i.totalAmount.units + new.penaltyAmount.units := by
      have hscaled : new.totalAmount.toRat * 10 ^ 4 =
          i.totalAmount.toRat * 10 ^ 4 + new.penaltyAmount.toRat * 10 ^ 4 := by
        rw [htotal, add_mul]
      simp only [Numeric.toRat_mul] at hscaled
      exact_mod_cast hscaled
    obtain ⟨_, _, -, -, rfl⟩ := penalized_ok hset
    rw [hunits, hi hpos, hzero, add_zero]

theorem Step.paidInFull (h : Step c f f') (hf : f.Orderly) (hpaid : f.PaidInFull) :
    f'.PaidInFull := by
  have hrewrite : ∀ {i new : Installment} {ps postings : List Posting}, (i, ps) ∈ f.installments →
      new.id = i.id → (new.status = .paid →
        0 < new.principalAmount.units ∧ 0 < new.interestAmount.units) →
      (f.rewrite new postings).PaidInFull := by
    intro i new ps postings hmem hid hnew x hx
    rcases mem_rewrite (hf.distinct_of_mem hmem) hmem hid hx with rfl | ⟨hx, -⟩
    · exact hnew
    · exact hpaid x hx
  cases h with
  | create | decide => exact hpaid
  | disburse found approved disburses schedule nodup =>
      intro x hx hstatus
      rcases List.mem_append.1 hx with hx | hx
      · exact hpaid x hx hstatus
      · obtain ⟨r, hr, rfl⟩ := List.mem_map.1 hx
        obtain ⟨i, hi⟩ := exists_of_forall₂ (generateInstallments_ok schedule) hr
        simp [hi.status] at hstatus
  | settle mem unpaid settles principal interest =>
      exact hrewrite mem rfl fun _ => ⟨principal, interest⟩
  | mark mem due => exact hrewrite mem rfl (by simp [Installment.setStatus])
  | penalize found mem overdue unpenalized charges set =>
      obtain ⟨_, _, -, -, rfl⟩ := penalized_ok set
      exact hrewrite mem rfl (by simp [overdue])

/-- What holds of a file that was opened empty. -/
structure Kept (f : LoanFile) : Prop where
  orderly : f.Orderly
  paidInFull : f.PaidInFull

theorem Step.kept (h : Step c f f') (hf : f.Kept) : f'.Kept :=
  ⟨h.orderly hf.orderly, h.paidInFull hf.orderly hf.paidInFull⟩

theorem Steps.kept (h : Steps c f f') (hf : f.Kept) : f'.Kept := h.keeps Step.kept hf

/-- What holds of a file whose loan is requested for an amount its column can hold. -/
structure KeptPriced (f : LoanFile) : Prop extends f.Kept where
  priced : f.Priced
  penalties : f.PenaltiesNonneg

theorem Step.keptPriced (h : Step c f f') (hc : ∀ amount, c.asks amount → InUnits amount)
    (hf : f.KeptPriced) : f'.KeptPriced :=
  ⟨h.kept hf.toKept, h.priced hc hf.priced,
    h.penaltiesNonneg hf.orderly hf.priced hf.penalties⟩

theorem Steps.keptPriced (h : Steps c f f') (hc : ∀ amount, c.asks amount → InUnits amount)
    (hf : f.KeptPriced) : f'.KeptPriced := h.keeps (fun hstep hf => hstep.keptPriced hc hf) hf

theorem Steps.inParts (h : Steps c f f') (hc : ∀ amount, c.asks amount → InUnits amount)
    (hdisburses : ∀ loan loanPeriod, c.disburses loan loanPeriod → 0 < loan.interestAmount.units →
      loan.Scheduled loanPeriod.tenor)
    (hcharges : ∀ f i, c.charges f i → f.ChargesAlike i) (hf : f.KeptPriced)
    (hparts : f.Each InParts) : f'.Each InParts :=
  (h.keeps (I := fun f => f.KeptPriced ∧ f.Each InParts) (fun hstep hf =>
    ⟨hstep.keptPriced hc hf.1, hstep.inParts hdisburses hcharges hf.1.orderly hf.1.priced hf.2⟩)
    ⟨hf, hparts⟩).2

/-- The file of a loan that has not been requested. -/
def empty : LoanFile := ⟨none, [], [], []⟩

theorem empty_kept : empty.Kept where
  orderly := ⟨fun _ => ⟨rfl, rfl, rfl⟩, fun _ _ h => (by cases h), fun _ _ h => (by cases h)⟩
  paidInFull _ hx := by cases hx

theorem empty_each (p : Installment → Prop) : empty.Each p := fun _ _ h => by cases h

theorem empty_keptPriced : empty.KeptPriced := ⟨empty_kept, fun _ _ h => (by cases h), empty_each _⟩

/-! ### Repayment -/

theorem postedTo_paid {x : Installment × List Posting} (hx : Posted x)
    (hpaid : x.1.status = .paid) : x.2 = installmentPostings x.1 := by
  rw [hx, if_pos hpaid]

theorem collected_add_outstanding {xs : List (Installment × List Posting)}
    (hxs : ∀ x ∈ xs, Posted x) :
    postedTo .capital ((xs.filter fun x => x.1.status = .paid).flatMap (·.2)) +
        ((xs.filter fun x => x.1.status ≠ .paid).map fun x => x.1.principalAmount.units).sum =
      (xs.map fun x => x.1.principalAmount.units).sum := by
  induction xs with
  | nil => rfl
  | cons x xs ih =>
      rw [List.forall_mem_cons] at hxs
      have ih := ih hxs.2
      by_cases hpaid : x.1.status = .paid
      · rw [List.filter_cons_of_pos (by simpa using hpaid),
          List.filter_cons_of_neg (by simpa using hpaid), List.flatMap_cons, postedTo_append,
          postedTo_paid hxs.1 hpaid, postedTo_capital_installment, List.map_cons, List.sum_cons,
          ← ih]
        ring
      · rw [List.filter_cons_of_neg (by simpa using hpaid),
          List.filter_cons_of_pos (by simpa using hpaid), List.map_cons, List.sum_cons,
          List.map_cons, List.sum_cons, ← ih]
        ring

section Paid

variable {loan : Loan} {loanPeriod : LoanPeriod} {x : Installment × List Posting}

theorem Kept.bears_interest (hf : f.Kept) (hloan : f.loan = some (loan, loanPeriod))
    (hx : x ∈ f.installments) (hpaid : x.1.status = .paid) : 0 < loan.interestAmount.units := by
  obtain ⟨loan', loanPeriod', hloan', -, hbooks⟩ := hf.orderly.active_of_mem hx
  obtain ⟨rfl, rfl⟩ := Prod.mk.inj (Option.some.inj (hloan.symm.trans hloan'))
  exact hbooks.interests x hx ▸ (hf.paidInFull x hx hpaid).2

theorem KeptPriced.posted_parts (hf : f.KeptPriced) (hloan : f.loan = some (loan, loanPeriod))
    (htenor : 1 ≤ loanPeriod.tenor) (hx : x ∈ f.installments) (hpaid : x.1.status = .paid) :
    postedTo .capital x.2 = x.1.principalAmount.units ∧
      postedTo .shu x.2 = x.1.interestAmount.units + x.1.penaltyAmount.units := by
  obtain ⟨_, _, _, -, hbooks⟩ := hf.orderly.active_of_mem hx
  have hnonneg := hf.penalties loan loanPeriod hloan htenor (hf.bears_interest hloan hx hpaid) x hx
  rw [postedTo_paid (hbooks.posted x hx) hpaid, postedTo_capital_installment,
    postedTo_shu_installment x.1 hnonneg]
  exact ⟨rfl, rfl⟩

theorem KeptPriced.posted_total (hf : f.KeptPriced) (hparts : f.Each InParts)
    (hloan : f.loan = some (loan, loanPeriod)) (htenor : 1 ≤ loanPeriod.tenor)
    (hx : x ∈ f.installments) (hpaid : x.1.status = .paid) :
    postedTo .total x.2 = x.1.totalAmount.units := by
  obtain ⟨hcapital, hshu⟩ := hf.posted_parts hloan htenor hx hpaid
  rw [postedTo_total, hcapital, hshu, hparts loan loanPeriod hloan htenor
    (hf.bears_interest hloan hx hpaid) x hx (hf.paidInFull x hx hpaid).1]
  ring

end Paid

/-! ### The whole life of a loan -/

/-- Every posting of a loan: of its expenses, of its own incomes, of its installments. -/
def postings (f : LoanFile) : List Posting :=
  f.expenses.flatMap (·.2) ++ f.fees.flatMap (·.2) ++ f.installments.flatMap (·.2)

/-- A column of the installments, added up. -/
def sumOf (f : LoanFile) (amount : Installment → Money) : ℤ :=
  (f.installments.map fun x => (amount x.1).units).sum

/-- What a loan should leave behind: no capital, the income to SHU, and in total the cash that came
in less the cash that went out. -/
structure CashExact (f : LoanFile) (loan : Loan) : Prop where
  capital : postedTo .capital f.postings = 0
  shu : postedTo .shu f.postings = loan.adminFeeAmount.units + f.sumOf (·.interestAmount) +
    f.sumOf (·.penaltyAmount)
  total : postedTo .total f.postings = f.sumOf (·.totalAmount) - loan.disbursedAmount.units

/-- What the totals of the installments ask for beyond their parts. -/
def overcharge (f : LoanFile) : ℤ :=
  f.sumOf (·.totalAmount) - f.sumOf (·.principalAmount) - f.sumOf (·.interestAmount) -
    f.sumOf (·.penaltyAmount)

theorem sum_postedTo {xs : List (Installment × List Posting)} (b : BalanceType)
    (g : Installment → ℤ) (h : ∀ x ∈ xs, postedTo b x.2 = g x.1) :
    postedTo b (xs.flatMap (·.2)) = (xs.map fun x => g x.1).sum := by
  rw [postedTo_flatMap, List.map_congr_left h]

section PaidBack

variable {loan : Loan} {loanPeriod : LoanPeriod}

/-- What a fully paid loan leaves behind: its income in SHU, and in capital what was never handed
out. -/
theorem KeptPriced.postings_of_paid (hf : f.KeptPriced) (hloan : f.loan = some (loan, loanPeriod))
    (hactive : loan.status = .active) (htenor : 1 ≤ loanPeriod.tenor)
    (hpaid : ∀ x ∈ f.installments, x.1.status = .paid) :
    postedTo .capital f.postings = loan.principalAmount.units - loan.disbursedAmount.units ∧
      postedTo .shu f.postings = loan.adminFeeAmount.units + f.sumOf (·.interestAmount) +
        f.sumOf (·.penaltyAmount) := by
  have hbooks := hf.orderly.active loan loanPeriod hloan hactive
  obtain ⟨e, hexpense⟩ := hbooks.expense
  obtain ⟨fee, hfee⟩ := hbooks.fee
  have hposted := fun x hx => hf.posted_parts hloan htenor hx (hpaid x hx)
  have hsum : ∀ b, postedTo b f.postings =
      Posting.signed b (.out, 0, loan.disbursedAmount) +
        Posting.signed b (.in_, loan.adminFeeAmount, 0) +
        postedTo b (f.installments.flatMap (·.2)) := by
    intro b
    rw [postings, postedTo_append, postedTo_append, hexpense, hfee]
    simp [postedTo]
  have hcapital : postedTo .capital (f.installments.flatMap (·.2)) = loan.principalAmount.units := by
    rw [sum_postedTo .capital (·.principalAmount.units) fun x hx => (hposted x hx).1]
    exact hbooks.principals htenor
  have hshu : postedTo .shu (f.installments.flatMap (·.2)) =
      f.sumOf (·.interestAmount) + f.sumOf (·.penaltyAmount) := by
    rw [sum_postedTo .shu (fun i => i.interestAmount.units + i.penaltyAmount.units)
      fun x hx => (hposted x hx).2, List.sum_map_add]
    rfl
  rw [hsum, hsum, hcapital, hshu]
  simp only [Posting.signed, Direction.sign, Numeric.units_zero]
  constructor <;> ring

/-- A fully paid loan is cash-exact only if nothing of it was held back, and its installments have
brought in too much by just the fee. -/
theorem KeptPriced.cashExact_iff (hf : f.KeptPriced) (hloan : f.loan = some (loan, loanPeriod))
    (hactive : loan.status = .active) (htenor : 1 ≤ loanPeriod.tenor)
    (hpaid : ∀ x ∈ f.installments, x.1.status = .paid) :
    f.CashExact loan ↔ loan.disbursedAmount.units = loan.principalAmount.units ∧
      f.overcharge = loan.adminFeeAmount.units := by
  obtain ⟨hcapital, hshu⟩ := hf.postings_of_paid hloan hactive htenor hpaid
  have htotal := postedTo_total f.postings
  have hprincipal : f.sumOf (·.principalAmount) = loan.principalAmount.units :=
    (hf.orderly.active loan loanPeriod hloan hactive).principals htenor
  unfold overcharge
  constructor
  · intro hexact
    have hcapital' := hexact.capital
    have htotal' := hexact.total
    omega
  · rintro ⟨hall, hover⟩
    exact ⟨by omega, hshu, by omega⟩

end PaidBack

/-- A fee of more than a unit is held back. -/
def Withheld (f : LoanFile) : Prop :=
  ∀ loan loanPeriod, f.loan = some (loan, loanPeriod) → 1 < loan.adminFeeAmount.units →
    loan.disbursedAmount.units < loan.principalAmount.units

theorem withheld_created {id userId : Uuid} {loanPeriod : LoanPeriod} {amount adminFeeRate : ℚ}
    {loan : Loan} (h : LoanCreated id userId loanPeriod amount adminFeeRate loan)
    (hamount : InUnits amount) (hfee : 1 < loan.adminFeeAmount.units) :
    loan.disbursedAmount.units < loan.principalAmount.units := by
  obtain ⟨m, hm, rfl⟩ := hamount
  rw [h.principal_eq]
  have hpositive : 0 < m.toRat * adminFeeRate := by
    by_contra hneg
    have hprinted := printed_nonpos (decimal_nonpos (not_lt.1 hneg))
    rw [Numeric.ofRat?_some h.adminFeeAmount] at hfee
    exact (pos_of_roundHalfAway_pos (zero_lt_one.trans hfee)).not_ge
      (mul_nonpos_of_nonpos_of_nonneg hprinted (by positivity))
  have hheld := abs_le.1 (abs_units_sub_le hpositive.le h.adminFeeAmount)
  have hkept := abs_le.1 (abs_decimal_sub_le (m.toRat * adminFeeRate))
  have hsmall := le_of_ofRat?_printed_decimal h.adminFeeAmount
  rw [abs_of_pos hpositive] at hkept
  have hfee' : (2 : ℚ) ≤ loan.adminFeeAmount.units := by exact_mod_cast hfee
  rcases le_total (m.toRat - adminFee m.toRat adminFeeRate) 0 with hneg | hpos
  · have hprinted := printed_nonpos (decimal_nonpos hneg)
    refine lt_of_le_of_lt ?_ hm
    rw [Numeric.ofRat?_some h.disbursedAmount]
    exact roundHalfAway_nonpos (mul_nonpos_of_nonpos_of_nonneg hprinted (by positivity))
  · have hpaid := abs_le.1 (abs_units_sub_le hpos h.disbursedAmount)
    rw [sub_mul, Numeric.toRat_mul, adminFee] at hpaid
    have hlt : (loan.disbursedAmount.units : ℚ) < m.units := by linarith
    exact_mod_cast hlt

theorem Step.withheld (h : Step c f f') (hc : ∀ amount, c.asks amount → InUnits amount)
    (hf : f.Withheld) : f'.Withheld := by
  cases h with
  | create absent asked created =>
      rintro _ _ hloan
      cases hloan
      exact withheld_created created (hc _ asked)
  | @decide loan loanPeriod status approvedBy notes now found pending decision =>
      rintro _ _ hloan
      cases hloan
      have h := hf loan loanPeriod found
      cases status <;> exact h
  | @disburse loan loanPeriod ids adminId now rs e fee found =>
      rintro _ _ hloan
      cases hloan
      exact hf loan loanPeriod found
  | settle | mark | penalize => exact hf

/-! ### Completion -/

/-- A disbursed loan is completed just when all of it is paid. -/
def Completes (f : LoanFile) : Prop :=
  ∀ loan loanPeriod, f.loan = some (loan, loanPeriod) →
    loan.status = .active ∨ loan.status = .completed →
    (loan.status = .completed ↔ ∀ x ∈ f.installments, x.1.status = .paid)

/-- An installment that can be collected and is the last of its loan to be paid. -/
structure LastUnpaid (f : LoanFile) (i : Installment) : Prop where
  principal : 0 < i.principalAmount.units
  interest : 0 < i.interestAmount.units
  unpaid : i.status ≠ .paid
  others : ∀ x ∈ f.installments, x.1.id ≠ i.id → x.1.status = .paid

/-- No call leaves a disbursed loan with nothing to pay. -/
def leavingOpen : Conduct where
  asks _ := True
  settles f i := ¬ f.LastUnpaid i
  disburses _ loanPeriod := loanPeriod.tenor ≠ 0
  charges _ _ := True

/-- Some installment is not paid. -/
def Owed (f : LoanFile) : Prop :=
  ∀ loan loanPeriod, f.loan = some (loan, loanPeriod) → loan.status = .active →
    ∃ x ∈ f.installments, x.1.status ≠ .paid

theorem Step.owed (h : Step leavingOpen f f') : f'.Owed := by
  have hrewrite : ∀ {i new : Installment} {ps postings : List Posting}, (i, ps) ∈ f.installments →
      new.id = i.id → new.status ≠ .paid → (f.rewrite new postings).Owed :=
    fun hmem hid hnew _ _ _ _ => ⟨_, mem_rewrite_self hmem hid, hnew⟩
  cases h with
  | create absent asked created =>
      rintro _ _ hloan hactive
      cases hloan
      simp [created.status] at hactive
  | @decide loan loanPeriod status approvedBy notes now found pending decision =>
      rintro _ _ hloan hactive
      cases hloan
      rcases decision with rfl | rfl <;> simp [Loan.setStatus] at hactive
  | @disburse loan loanPeriod ids adminId now rs e fee found approved disburses schedule nodup =>
      rintro _ _ hloan -
      cases hloan
      have hcreated := generateInstallments_ok schedule
      have hlength : rs.length ≠ 0 := by
        rw [← hcreated.length_eq, List.length_range]
        exact disburses
      obtain ⟨r, hr⟩ := List.exists_mem_of_length_pos (Nat.pos_of_ne_zero hlength)
      obtain ⟨i, hi⟩ := exists_of_forall₂ hcreated hr
      exact ⟨_, List.mem_append_right _ (List.mem_map_of_mem hr), by simp [hi.status]⟩
  | @settle i ps adminId now mem unpaid settles principal interest =>
      rintro _ _ - -
      have hother : ∃ x ∈ f.installments, x.1.id ≠ i.id ∧ x.1.status ≠ .paid := by
        by_contra hall
        push Not at hall
        exact settles ⟨principal, interest, unpaid, hall⟩
      obtain ⟨x, hx, hne, hx'⟩ := hother
      exact ⟨x, mem_rewrite_ne rfl hx hne, hx'⟩
  | mark mem due => exact hrewrite mem rfl (by simp [Installment.setStatus])
  | penalize found mem overdue unpenalized charges set =>
      obtain ⟨_, _, -, -, rfl⟩ := penalized_ok set
      exact hrewrite mem rfl (by simp [overdue])

theorem Kept.completes (hf : f.Kept) (howed : f.Owed) : f.Completes := by
  intro loan loanPeriod hloan hdisbursed
  have hactive := hf.orderly.active_of_disbursed hloan hdisbursed
  obtain ⟨x, hx, hunpaid⟩ := howed loan loanPeriod hloan hactive
  refine ⟨fun hcompleted => ?_, fun hall => absurd (hall x hx) hunpaid⟩
  rw [hactive] at hcompleted
  cases hcompleted

end LoanFile

end LumbungMesari
