import LumbungMesari.OverdueJob
import LumbungMesari.Seeds

/-!
# Loans from request to repayment

Complete calls of the loans service, one after another, with anything done to other records in
between. Every call is a sequence of commits on files, so what holds of every file that was opened
empty holds in every state reached.
-/

namespace LumbungMesari

open Sql

variable {d d' : Database} {c : Uuid → Conduct}

/-! ### Calls -/

/-- A call made in a state keeps to a conduct. -/
def LoanCall.Follows (c : Uuid → Conduct) (d : Database) : LoanCall → Prop
  | createLoan id _ _ amount _ _ _ => (c id).asks amount
  | disburseLoan _ loanId _ _ => ∀ loan loanPeriod, d.loanWithPeriod loanId = some (loan, loanPeriod) →
      (c loanId).disburses loan loanPeriod
  | settleInstallment _ installmentId _ _ => ∀ i, d.find .installments installmentId = some i →
      (c i.loanId).settles (d.file i.loanId) i
  | processOverdueInstallments now => FollowsCharges c d (d.overdueWork (now.setDate 20))
  | _ => True

theorem LoanCall.program_alone {x : LoanCall} (hx : x.Follows c d) :
    x.program.wp (Prog.alone (LoanStep c)) (fun _ _ _ => True) d .idle := by
  cases x with
  | createLoan id userId loanPeriodId amount notes adminFeeRate now =>
      rw [program, Prog.wp_bind']
      refine createLoan_wp fun d₁ d' loanPeriod loan l henv₁ henv₂ hperiod hcreated hinserted => ?_
      obtain rfl : d = d₁ := henv₁
      obtain rfl : d = d' := henv₂
      have hasked : (c loan.id).asks amount := by
        rw [hcreated.id]
        exact hx
      exact ⟨.created hinserted.fresh (Database.find_self hperiod) hasked hcreated, trivial⟩
  | approveLoan loanId notes adminId now =>
      refine decideLoan_wp fun d' loan l henv hfound hpending _ => ⟨?_, trivial⟩
      obtain rfl : d = d' := henv
      exact .decided (Database.find_self hfound) hpending (.inl rfl)
  | rejectLoan loanId reason now =>
      refine decideLoan_wp fun d' loan l henv hfound hpending _ => ⟨?_, trivial⟩
      obtain rfl : d = d' := henv
      exact .decided (Database.find_self hfound) hpending (.inr rfl)
  | disburseLoan ids loanId adminId now =>
      refine disburseLoan_wp fun d₁ d₂ d' loan loanPeriod current rows l l₂ henv₁ hloan happroved
        henv₂ hcurrent _ henv₃ _ _ hdisbursed => ⟨?_, trivial⟩
      obtain rfl : d = d₁ := henv₁
      obtain rfl : d = d₂ := henv₂
      obtain rfl : d = d' := henv₃
      have hfound := (loanWithPeriod_some hloan).1
      obtain rfl : loan = current := Option.some.inj (hfound.symm.trans hcurrent)
      have hid : loan.id = loanId := Database.find_id hfound
      subst hid
      exact .disbursed hloan happroved (hx loan loanPeriod hloan) hdisbursed
  | settleInstallment ids installmentId adminId now =>
      refine settleInstallment_wp fun d' i ps l henv hfound hunpaid hrecorded => ⟨?_, trivial⟩
      obtain rfl : d = d' := henv
      exact .settled (Database.find_self hfound) hunpaid (hx i hfound) hrecorded
  | processOverdueInstallments now =>
      exact processOverdueInstallments_alone (processLoans_alone (listed_overdueWork _ _) hx)

theorem LoanCall.after_keeps {I : Database → Prop}
    (hstep : ∀ {d d'}, LoanStep c d d' → I d → I d') {x : LoanCall} (hx : x.Follows c d)
    (hd : I d) : I (x.program.after d) := by
  refine Prog.after_keeps (I := I) ?_ (program_alone hx) hd
  exact fun hd h => hstep h hd

/-! ### Runs -/

/-- Every call of a sequence keeps to a conduct in the state it is made in. -/
def FollowsAll (c : Uuid → Conduct) : Database → List LoanCall → Prop
  | _, [] => True
  | d, x :: xs => x.Follows c d ∧ FollowsAll c (x.program.after d) xs

/-- The life of a loan: complete calls on loans, and between them anything that leaves the records
of this loan, and the foreign keys, as they are. -/
inductive LoanLife (c : Uuid → Conduct) (loanId : Uuid) (d₀ : Database) : Database → Prop where
  | start : LoanLife c loanId d₀ d₀
  | call {d : Database} (x : LoanCall) : LoanLife c loanId d₀ d → x.Follows c d →
      LoanLife c loanId d₀ (x.program.after d)
  | other {d d' : Database} : LoanLife c loanId d₀ d → d'.file loanId = d.file loanId →
      d'.ForeignKeys → LoanLife c loanId d₀ d'

theorem LoanLife.calls {loanId : Uuid} {d₀ : Database} {xs : List LoanCall}
    (h : LoanLife c loanId d₀ d) (hxs : FollowsAll c d xs) :
    LoanLife c loanId d₀ (runCalls LoanCall.program d xs) := by
  induction xs generalizing d with
  | nil => exact h
  | cons x xs ih => exact ih (h.call x hxs.1) hxs.2

theorem approved_life {amount : ℚ} {loanPeriodId : Uuid} (hasks : (c 1).asks amount) :
    LoanLife c 1 seeded (approved amount loanPeriodId) :=
  LoanLife.start.calls ⟨hasks, trivial, trivial⟩

/-- In the life of a loan its file goes through steps of a loan. -/
theorem LoanLife.simulates {loanId : Uuid} {d₀ : Database} (h : LoanLife c loanId d₀ d)
    (h₀ : Linked d₀) : Linked d ∧ LoanFile.Steps (c loanId) (d₀.file loanId) (d.file loanId) := by
  induction h with
  | start => exact ⟨h₀, .refl⟩
  | @call d x hlife hx ih =>
      refine LoanCall.after_keeps (I := fun d =>
        Linked d ∧ LoanFile.Steps (c loanId) (d₀.file loanId) (d.file loanId))
        (fun hstep hd => ?_) hx ih
      obtain ⟨hlinked, hsteps⟩ := LoanStep.simulates hstep hd.1
      exact ⟨hlinked, hd.2.trans (hsteps loanId)⟩
  | other hlife hfile hkeys ih =>
      rw [hfile]
      exact ⟨hkeys.linked, ih.2⟩

theorem LoanLife.kept {loanId : Uuid} {d₀ : Database} (h : LoanLife c loanId d₀ d)
    (h₀ : d₀.ForeignKeys) (hnone : d₀.find .loans loanId = none) :
    (d.file loanId).Kept := by
  obtain ⟨-, hsteps⟩ := h.simulates h₀.linked
  rw [h₀.file_eq_empty hnone] at hsteps
  exact hsteps.kept LoanFile.empty_kept

theorem LoanLife.keptPriced {loanId : Uuid} {d₀ : Database} (h : LoanLife c loanId d₀ d)
    (h₀ : d₀.ForeignKeys) (hnone : d₀.find .loans loanId = none)
    (hc : ∀ amount, (c loanId).asks amount → InUnits amount) :
    (d.file loanId).KeptPriced ∧ (d.file loanId).Withheld ∧
      ((∀ loan loanPeriod, (c loanId).disburses loan loanPeriod → 0 < loan.interestAmount.units →
          loan.Scheduled loanPeriod.tenor) →
        (∀ f i, (c loanId).charges f i → f.ChargesAlike i) →
        (d.file loanId).Each LoanFile.InParts) := by
  obtain ⟨-, hsteps⟩ := h.simulates h₀.linked
  rw [h₀.file_eq_empty hnone] at hsteps
  have hwithheld : (d.file loanId).Withheld := hsteps.keeps
    (fun hstep hf => hstep.withheld hc hf) fun _ _ hloan => by cases hloan
  exact ⟨hsteps.keptPriced hc LoanFile.empty_keptPriced, hwithheld,
    fun hdisburses hcharges => hsteps.inParts hc hdisburses hcharges LoanFile.empty_keptPriced
      (LoanFile.empty_each _)⟩

/-! ### Reconciliation -/

/-- One loan is requested for an amount its column can hold. Anything else may be asked. -/
def requesting (loanId id : Uuid) : Conduct where
  asks amount := id = loanId → InUnits amount
  settles _ _ := True
  disburses _ _ := True
  charges _ _ := True

/-- And its last payment takes the rest of its principal and the interest when it is disbursed, and
every penalty that is added to it is added to a total just as it is stored. -/
def chargingAlike (loanId id : Uuid) : Conduct where
  asks amount := id = loanId → InUnits amount
  settles _ _ := True
  disburses loan loanPeriod :=
    id = loanId → 0 < loan.interestAmount.units → loan.Scheduled loanPeriod.tenor
  charges f i := id = loanId → f.ChargesAlike i

/-- The receivables of a loan reconcile: what the settled installments have posted to capital and
what the others are to bring in add up to its principal, and a paid installment has posted its parts
and its total. -/
structure LoanFile.Reconciles (f : LoanFile) (loan : Loan) : Prop where
  capital : postedTo .capital ((f.installments.filter fun x => x.1.status = .paid).flatMap (·.2)) +
      ((f.installments.filter fun x => x.1.status ≠ .paid).map (·.1.principalAmount.units)).sum =
    loan.principalAmount.units
  parts : ∀ x ∈ f.installments, x.1.status = .paid →
    postedTo .capital x.2 = x.1.principalAmount.units ∧
      postedTo .shu x.2 = x.1.interestAmount.units + x.1.penaltyAmount.units
  totals : ∀ x ∈ f.installments, x.1.status = .paid →
    postedTo .total x.2 = x.1.totalAmount.units

/-- **Receivables reconcile** in every run in which penalties are added to totals as they are
stored. -/
theorem receivables_reconcile {d₀ : Database} (h₀ : d₀.ForeignKeys) {loanId : Uuid}
    (hnone : d₀.find .loans loanId = none) {xs : List LoanCall}
    (hxs : FollowsAll (chargingAlike loanId) d₀ xs) {loan : Loan} {loanPeriod : LoanPeriod}
    (hloan : (runCalls LoanCall.program d₀ xs).loanWithPeriod loanId = some (loan, loanPeriod))
    (hdisbursed : loan.status = .active ∨ loan.status = .completed)
    (htenor : 1 ≤ loanPeriod.tenor) :
    ((runCalls LoanCall.program d₀ xs).file loanId).Reconciles loan := by
  obtain ⟨hkept, -, hparts⟩ := (LoanLife.start.calls hxs).keptPriced h₀ hnone fun _ hasked =>
    hasked rfl
  have hactive := hkept.orderly.active_of_disbursed hloan hdisbursed
  have hbooks := hkept.orderly.active loan loanPeriod hloan hactive
  refine ⟨?_, fun x hx hpaid => hkept.posted_parts hloan htenor hx hpaid, fun x hx hpaid =>
    hkept.posted_total (hparts (fun _ _ hscheduled => hscheduled rfl)
      fun _ _ hcharges => hcharges rfl) hloan htenor hx hpaid⟩
  rw [LoanFile.collected_add_outstanding hbooks.posted]
  exact hbooks.principals htenor

/-- The last payment is as it is to be where the interest has seven decimals at most. -/
theorem LoanLife.scheduled {loanId : Uuid} {d₀ : Database} (h : LoanLife c loanId d₀ d)
    (h₀ : d₀.ForeignKeys) (hnone : d₀.find .loans loanId = none)
    (hc : ∀ amount, (c loanId).asks amount → InUnits amount) {loan : Loan} {loanPeriod : LoanPeriod}
    (hloan : d.loanWithPeriod loanId = some (loan, loanPeriod)) (htenor : 1 ≤ loanPeriod.tenor)
    (hseven : Decimal 7 (loan.principalAmount.toRat * loanPeriod.interestRate.toRat))
    (hinterest : 0 < loan.interestAmount.units) : loan.Scheduled loanPeriod.tenor :=
  ((h.keptPriced h₀ hnone hc).1.priced loan loanPeriod hloan htenor hinterest).scheduled hseven

theorem seeded_foreignKeys : seeded.ForeignKeys := by
  intro t r hr ref href
  cases t with
  | loans | installments | principalSavings | mandatorySavings | incomes | expenses
  | cashbookTransactions => cases hr
  | users | loanPeriods | incomeCategories | expenseCategories => cases href

/-- Two months late, then paid with a penalty. -/
def lateRun (amount : ℚ) : List LoanCall :=
  lending amount ++ [.processOverdueInstallments ⟨2026, 2, 20⟩,
    .processOverdueInstallments ⟨2026, 3, 20⟩, settling 10 1 3]

/-- The interest of a loan of 3,000,000 at one percent is a whole number. -/
theorem interest_of_threeMillion {loanId : Uuid} {loan : Loan} {loanPeriod : LoanPeriod}
    (h : (d.loanWithPeriod loanId).all (fun p => p.1.principalAmount.units = 3000000 * 10 ^ 4 &&
      p.2.interestRate.units = 100) = true)
    (hloan : d.loanWithPeriod loanId = some (loan, loanPeriod)) :
    loan.principalAmount.toRat * loanPeriod.interestRate.toRat = 30000 := by
  rw [hloan, Option.all_some, Bool.and_eq_true, decide_eq_true_eq, decide_eq_true_eq] at h
  rw [Numeric.toRat, Numeric.toRat, h.1, h.2]
  norm_num

theorem followsCharges_of_whole {loanId : Uuid} {rs : List Installment}
    (hc : ∀ id f i, (id = loanId → f.WholePenalty) → (c id).charges f i)
    (h : (d.loanWithPeriod loanId).all (fun p => p.1.principalAmount.units = 3000000 * 10 ^ 4 &&
      p.2.interestRate.units = 100) = true) : FollowsCharges c d rs := by
  intro r hr j hcharges
  refine hc _ _ _ ?_
  rintro rfl loan loanPeriod hloan
  rw [interest_of_threeMillion h hloan]
  exact ⟨⟨30000 * 10 ^ 4, by norm_num⟩, by norm_num⟩

theorem receivables_reconcile_lateRun :
    ∃ loan, ((runCalls LoanCall.program seeded (lateRun 3000000)).file 1).Reconciles loan ∧
      ((runCalls LoanCall.program seeded (lateRun 3000000)).file 1).installments.any (fun x =>
        x.1.status = .paid && x.1.penaltyAmount.units = 30000 * 10 ^ 4) = true := by
  have hrun : ((runCalls LoanCall.program seeded (lateRun 3000000)).loanWithPeriod 1).any (fun p =>
      p.1.status = .active && 1 ≤ p.2.tenor) = true := by
    decide +kernel
  obtain ⟨⟨loan, loanPeriod⟩, hloan, h⟩ := Option.any_eq_true .. |>.1 hrun
  rw [Bool.and_eq_true, decide_eq_true_eq, decide_eq_true_eq] at h
  have hasked : (chargingAlike 1 1).asks 3000000 := fun _ => ⟨⟨3000000 * 10 ^ 4, by norm_num⟩,
    by norm_num, by
    rw [Numeric.toRat]
    norm_num⟩
  have happroved : ((approved 3000000 1).loanWithPeriod 1).all (fun p =>
      p.1.principalAmount.units = 3000000 * 10 ^ 4 && p.2.interestRate.units = 100) = true ∧
      ((approved 3000000 1).loanWithPeriod 1).all (fun p => 1 ≤ p.2.tenor) = true := by
    decide +kernel
  have hdisburses : ∀ loan loanPeriod, (approved 3000000 1).loanWithPeriod 1 =
      some (loan, loanPeriod) → (chargingAlike 1 1).disburses loan loanPeriod := by
    intro loan loanPeriod hloan _
    have htenor := happroved.2
    rw [hloan, Option.all_some, decide_eq_true_eq] at htenor
    refine (approved_life (c := chargingAlike 1) hasked).scheduled seeded_foreignKeys rfl
      (fun _ hasked => hasked rfl) hloan htenor ?_
    rw [interest_of_threeMillion happroved.1 hloan]
    exact ⟨30000 * 10 ^ 7, by norm_num⟩
  have hcharges : ∀ id f i, (id = 1 → f.WholePenalty) → (chargingAlike 1 id).charges f i :=
    fun _ _ i hwhole hid => (hwhole hid).chargesAlike i
  have hfollows : FollowsAll (chargingAlike 1) seeded (lateRun 3000000) :=
    ⟨hasked, trivial, hdisburses, followsCharges_of_whole hcharges (by decide +kernel),
      followsCharges_of_whole hcharges (by decide +kernel), fun _ _ => trivial, trivial⟩
  exact ⟨loan, receivables_reconcile seeded_foreignKeys (by decide) hfollows hloan (.inl h.1) h.2,
    by decide +kernel⟩

/-- A total of 1,060,500.0005 and postings of 1,060,500.0006. -/
theorem lateRun_not_reconciles :
    FollowsAll (requesting 1) seeded (lateRun (3000000 + 1 / 40)) ∧
      ∃ loan loanPeriod, (runCalls LoanCall.program seeded (lateRun (3000000 + 1 / 40))).loanWithPeriod
          1 = some (loan, loanPeriod) ∧ loan.status = .active ∧ 1 ≤ loanPeriod.tenor ∧
        ¬((runCalls LoanCall.program seeded (lateRun (3000000 + 1 / 40))).file 1).Reconciles loan := by
  have hasked : (requesting 1 1).asks (3000000 + 1 / 40) := fun _ =>
    ⟨⟨30000000250, by norm_num⟩, by norm_num, by
      rw [Numeric.toRat]
      norm_num⟩
  refine ⟨⟨hasked, trivial, fun _ _ _ => trivial, fun _ _ _ _ => trivial, fun _ _ _ _ => trivial,
    fun _ _ => trivial, trivial⟩, ?_⟩
  have hrun : ((runCalls LoanCall.program seeded (lateRun (3000000 + 1 / 40))).loanWithPeriod 1).any
      (fun p => p.1.status = .active && 1 ≤ p.2.tenor) = true ∧
    ((runCalls LoanCall.program seeded (lateRun (3000000 + 1 / 40))).file 1).installments.any
      (fun x => x.1.status = .paid && x.1.totalAmount.units = 10605000005 &&
        postedTo .total x.2 = 10605000006) = true := by decide +kernel
  obtain ⟨hloan, hpaid⟩ := hrun
  obtain ⟨⟨loan, loanPeriod⟩, hloan, h⟩ := Option.any_eq_true .. |>.1 hloan
  obtain ⟨x, hx, hx'⟩ := List.any_eq_true.1 hpaid
  simp only [Bool.and_eq_true, decide_eq_true_eq] at h hx'
  refine ⟨loan, loanPeriod, hloan, h.1, h.2, fun hreconciles => ?_⟩
  have htotal := hreconciles.totals x hx hx'.1.1
  omega

/-! ### Cash -/

/-- **A loan's life is not cash-exact.** A loan whose installments are all paid leaves its income in
SHU, and in capital what was held back as the fee. Only where nothing was held back, which takes a fee
of one unit, and penalties have brought in a unit too much, do the books agree with the cash. -/
theorem loan_counts_fee_twice {d₀ d : Database} (h₀ : d₀.ForeignKeys) {loanId : Uuid}
    (hnone : d₀.find .loans loanId = none) (hlife : LoanLife (requesting loanId) loanId d₀ d)
    {loan : Loan} {loanPeriod : LoanPeriod}
    (hloan : d.loanWithPeriod loanId = some (loan, loanPeriod))
    (hdisbursed : loan.status = .active ∨ loan.status = .completed)
    (htenor : 1 ≤ loanPeriod.tenor)
    (hpaid : ∀ x ∈ (d.file loanId).installments, x.1.status = .paid) :
    (postedTo .capital (d.file loanId).postings =
        loan.principalAmount.units - loan.disbursedAmount.units ∧
      postedTo .shu (d.file loanId).postings = loan.adminFeeAmount.units +
        (d.file loanId).sumOf (·.interestAmount) + (d.file loanId).sumOf (·.penaltyAmount)) ∧
      ((d.file loanId).CashExact loan ↔
        loan.disbursedAmount.units = loan.principalAmount.units ∧
          (d.file loanId).overcharge = loan.adminFeeAmount.units) ∧
      (1 < loan.adminFeeAmount.units → ¬(d.file loanId).CashExact loan) := by
  obtain ⟨hkept, hwithheld, -⟩ := hlife.keptPriced h₀ hnone fun _ hasked => hasked rfl
  have hactive := hkept.orderly.active_of_disbursed hloan hdisbursed
  have hexact := hkept.cashExact_iff hloan hactive htenor hpaid
  refine ⟨hkept.postings_of_paid hloan hactive htenor hpaid, hexact, fun hfee hcash => ?_⟩
  exact (hwithheld loan loanPeriod hloan hfee).ne (hexact.1 hcash).1

theorem wholeLife_follows (h : (c 1).asks 300000)
    (hdisburses : ∀ loan loanPeriod, (c 1).disburses loan loanPeriod)
    (hsettles : ∀ loanId f i, (c loanId).settles f i) : FollowsAll c seeded (wholeLife 1) :=
  ⟨h, trivial, fun loan loanPeriod _ => hdisburses loan loanPeriod, fun _ _ => hsettles _ _ _,
    fun _ _ => hsettles _ _ _, fun _ _ => hsettles _ _ _, trivial⟩

theorem loan_counts_fee_twice_wholeLife :
    ∃ loan, ¬ ((runCalls LoanCall.program seeded (wholeLife 1)).file 1).CashExact loan := by
  have hrun : ((runCalls LoanCall.program seeded (wholeLife 1)).loanWithPeriod 1).any (fun p =>
      p.1.status = .active && 1 ≤ p.2.tenor && 1 < p.1.adminFeeAmount.units) = true := by
    decide +kernel
  have hpaid : ((runCalls LoanCall.program seeded (wholeLife 1)).file 1).installments.all (fun x =>
      x.1.status = .paid) = true := by
    decide +kernel
  obtain ⟨⟨loan, loanPeriod⟩, hloan, h⟩ := Option.any_eq_true .. |>.1 hrun
  simp only [Bool.and_eq_true, decide_eq_true_eq] at h
  have hasked : (requesting 1 1).asks 300000 := fun _ =>
    ⟨⟨300000 * 10 ^ 4, by norm_num⟩, by norm_num, by
      rw [Numeric.toRat]
      norm_num⟩
  have hlife : LoanLife (requesting 1) 1 seeded _ := LoanLife.start.calls
    (wholeLife_follows hasked (fun _ _ => trivial) fun _ _ _ => trivial)
  exact ⟨loan, (loan_counts_fee_twice seeded_foreignKeys rfl hlife hloan (.inl h.1.1) h.1.2
    fun x hx => of_decide_eq_true (List.all_eq_true.1 hpaid x hx)).2.2 h.2⟩

/-- A loan of 300,000 that brings in 309,000 against 294,000 leaves 21,000 in the books. -/
theorem wholeLife_not_cashExact :
    ∃ loan loanPeriod, (runCalls LoanCall.program seeded (wholeLife 1)).loanWithPeriod 1 =
        some (loan, loanPeriod) ∧ loan.status = .active ∧
      (∀ x ∈ ((runCalls LoanCall.program seeded (wholeLife 1)).file 1).installments,
        x.1.status = .paid) ∧
      ¬ ((runCalls LoanCall.program seeded (wholeLife 1)).file 1).CashExact loan := by
  have hrun : ((runCalls LoanCall.program seeded (wholeLife 1)).loanWithPeriod 1).any (fun p =>
      p.1.status = .active && p.1.disbursedAmount.units = 294000 * 10 ^ 4) = true := by
    decide +kernel
  have hfile : ((runCalls LoanCall.program seeded (wholeLife 1)).file 1).installments.all (fun x =>
      x.1.status = .paid) = true ∧
      ((runCalls LoanCall.program seeded (wholeLife 1)).file 1).sumOf (·.totalAmount) =
        309000 * 10 ^ 4 ∧
      postedTo .total ((runCalls LoanCall.program seeded (wholeLife 1)).file 1).postings =
        21000 * 10 ^ 4 := by
    decide +kernel
  obtain ⟨⟨loan, loanPeriod⟩, hloan, h⟩ := Option.any_eq_true .. |>.1 hrun
  simp only [Bool.and_eq_true, decide_eq_true_eq] at h
  refine ⟨loan, loanPeriod, hloan, h.1, fun x hx => ?_, fun hexact => ?_⟩
  · exact of_decide_eq_true (List.all_eq_true.1 hfile.1 x hx)
  · have htotal := hexact.total
    rw [hfile.2.1, hfile.2.2, h.2] at htotal
    norm_num at htotal

/-! ### Completion -/

/-- Every loan has its period. -/
def Database.PeriodsExist (d : Database) : Prop :=
  ∀ loan ∈ d.rows .loans, d.find .loanPeriods loan.loanPeriodId ≠ none

theorem PeriodsExist.congr (h : d.PeriodsExist) (hloans : d'.table .loans = d.table .loans)
    (hperiods : d'.table .loanPeriods = d.table .loanPeriods) : d'.PeriodsExist := by
  intro loan hloan
  rw [Database.rows, hloans] at hloan
  rw [Database.find_congr hperiods]
  exact h loan hloan

theorem PeriodsExist.update (h : d.PeriodsExist) {loan : Loan} (new : Loan)
    (hfound : d.find .loans loan.id = some loan) (hperiod : new.loanPeriodId = loan.loanPeriodId) :
    (d.apply (.update .loans new)).PeriodsExist := by
  intro loan' hloan'
  rw [Database.find_congr (d.table_update_ne (t := .loans) (by decide) new)]
  rw [Database.rows, Database.table_update_self] at hloan'
  rcases Table.mem_rows_replace hloan' with rfl | ⟨hmem, -⟩
  · rw [hperiod]
    exact h loan (Table.find?_some hfound).1
  · exact h loan' hmem

theorem LoanStep.periodsExist (h : LoanStep c d d') (hd : d.PeriodsExist) : d'.PeriodsExist := by
  have hinstallments : ∀ {d : Database} (new : Installment), d.PeriodsExist →
      (d.apply (.update .installments new)).PeriodsExist := fun {d} new hd =>
    PeriodsExist.congr hd (d.table_update_ne (t := .installments) (by decide) new)
      (d.table_update_ne (t := .installments) (by decide) new)
  cases h with
  | @created id userId loanPeriod amount adminFeeRate loan fresh period asked created =>
      intro loan' hloan'
      rw [Database.find_congr (d.table_insert_ne (t := .loans) (by decide) loan)]
      rw [Database.rows, Database.table_insert_self, Table.rows_insert fresh, List.mem_append,
        List.mem_singleton] at hloan'
      rcases hloan' with hmem | rfl
      · exact hd loan' hmem
      · rw [created.loanPeriodId, period]
        simp
  | @decided loan status approvedBy notes now found pending decision =>
      exact PeriodsExist.update hd _ found (by cases status <;> rfl)
  | @disbursed ids adminId now loan loanPeriod rows period approved disburses inserted =>
      have hactive := PeriodsExist.update hd (loan.disburse now) (loanWithPeriod_some period).1 rfl
      have htable : ∀ {t : TableName}, TableName.installments ≠ t → TableName.expenses ≠ t →
          TableName.incomes ≠ t → TableName.cashbookTransactions ≠ t →
          (applyAll d (disbursement loan now rows)).table t =
            (d.apply (.update .loans (loan.disburse now))).table t := by
        intro t h₁ h₂ h₃ h₄
        rw [disbursement, applyAll_append, applyAll_append, Recorded.table_ne _ _ _ h₃ h₄,
          table_spending_ne _ _ _ h₂ h₄, activation, applyAll_cons, table_inserts_ne h₁]
        rfl
      exact PeriodsExist.congr hactive (htable (by decide) (by decide) (by decide) (by decide))
        (htable (by decide) (by decide) (by decide) (by decide))
  | @settled ids adminId now i ps found unpaid settles recorded =>
      exact PeriodsExist.congr (hinstallments (i.settle adminId now) hd)
        (RecordedAll.table_ne _ ps (by decide) (by decide))
        (RecordedAll.table_ne _ ps (by decide) (by decide))
  | @marked old found due => exact hinstallments (old.setStatus .overdue) hd
  | @penalized old cur new loan loanPeriod found due period foundCur sameLoan overdue set =>
      exact hinstallments new (hinstallments (old.setStatus .overdue) hd)

/-- Something is still to be decided, handed out or paid. -/
def Database.Outstanding (d : Database) (loan : Loan) : Prop :=
  loan.status = .pending ∨ loan.status = .approved ∨
    ∃ i ∈ d.rows .installments, i.loanId = loan.id ∧ i.status ≠ .paid

/-- A loan that was rejected, or disbursed and paid back. -/
def Database.Closed (d : Database) (loan : Loan) : Prop :=
  loan.status = .rejected ∨ (loan.status = .active ∨ loan.status = .completed) ∧
    ∀ i ∈ d.rows .installments, i.loanId = loan.id → i.status = .paid

/-- What the loans of a database are like when loans complete. -/
structure LoansComplete (d : Database) : Prop where
  completes : ∀ loanId, (d.file loanId).Completes
  counted : ∀ loan ∈ d.rows .loans, loan.status.open = true → d.Outstanding loan
  granted : ∀ new : Loan, (∀ loan ∈ d.rows .loans, loan.userId = new.userId → loan.id ≠ new.id →
    d.Closed loan) → checkMaxLoansPerUser d new = .ok ()

theorem loansComplete_of_owed (hperiods : d.PeriodsExist)
    (h : ∀ loanId, (d.file loanId).Kept ∧ (d.file loanId).Owed) : LoansComplete d := by
  have howed : ∀ loan ∈ d.rows .loans, loan.status = .active →
      ∃ i ∈ d.rows .installments, i.loanId = loan.id ∧ i.status ≠ .paid := by
    intro loan hloan hactive
    have hfind : d.find .loans loan.id = some loan := Table.find?_of_mem hloan
    obtain ⟨loanPeriod, hperiod⟩ := Option.ne_none_iff_exists'.1 (hperiods loan hloan)
    have hjoin : d.loanWithPeriod loan.id = some (loan, loanPeriod) := by
      rw [Database.loanWithPeriod, hfind, Option.bind_some, hperiod, Option.map_some]
    obtain ⟨x, hx, hunpaid⟩ := (h loan.id).2 loan loanPeriod hjoin hactive
    obtain ⟨hfound, hmine⟩ := loanId_of_mem_file hx
    exact ⟨x.1, (Table.find?_some hfound).1, hmine, hunpaid⟩
  have hcounted : ∀ loan ∈ d.rows .loans, loan.status.open = true → d.Outstanding loan := by
    intro loan hloan hopen
    cases hstatus : loan.status with
    | pending => exact .inl hstatus
    | approved => exact .inr (.inl hstatus)
    | active => exact .inr (.inr (howed loan hloan hstatus))
    | rejected | completed => simp [hstatus, LoanStatus.open] at hopen
  refine ⟨fun loanId => (h loanId).1.completes (h loanId).2, hcounted, fun new hclosed => ?_⟩
  have hnone : (d.rows .loans).countP (fun loan => loan.userId = new.userId ∧ loan.status.open ∧
      loan.id ≠ new.id) = 0 := by
    rw [List.countP_eq_zero]
    intro loan hloan hp
    obtain ⟨huser, hopen, hne⟩ := of_decide_eq_true hp
    rcases hclosed loan hloan huser hne with hrejected | ⟨hstatus, hall⟩
    · simp [hrejected, LoanStatus.open] at hopen
    · rcases hstatus with hactive | hcompleted
      · obtain ⟨i, hi, hmine, hunpaid⟩ := howed loan hloan hactive
        exact hunpaid (hall i hi hmine)
      · simp [hcompleted, LoanStatus.open] at hopen
  rw [checkMaxLoansPerUser, hnone, if_neg (by simp)]

/-- **Loans complete** in every run in which no call leaves a disbursed loan with nothing to pay. -/
theorem loans_complete {d₀ : Database} (h₀ : d₀.ForeignKeys) (hloans : d₀.rows .loans = [])
    {xs : List LoanCall} (hxs : FollowsAll (fun _ => LoanFile.leavingOpen) d₀ xs) :
    LoansComplete (runCalls LoanCall.program d₀ xs) := by
  have hnone : ∀ loanId, d₀.find .loans loanId = none := by
    intro loanId
    cases hfind : d₀.find .loans loanId with
    | none => rfl
    | some loan =>
        have hmem : loan ∈ d₀.rows .loans := (Table.find?_some hfind).1
        rw [hloans] at hmem
        cases hmem
  have hperiods : ∀ {d : Database} {xs : List LoanCall},
      FollowsAll (fun _ => LoanFile.leavingOpen) d xs → d.PeriodsExist →
      (runCalls LoanCall.program d xs).PeriodsExist := by
    intro d xs hxs hd
    induction xs generalizing d with
    | nil => exact hd
    | cons x xs ih =>
        have hnext : (x.program.after d).PeriodsExist :=
          LoanCall.after_keeps LoanStep.periodsExist hxs.1 hd
        exact ih hxs.2 hnext
  refine loansComplete_of_owed (hperiods hxs fun loan hloan => ?_) fun loanId => ?_
  · rw [hloans] at hloan
    cases hloan
  · have hlife : LoanLife _ loanId d₀ _ := LoanLife.start.calls hxs
    obtain ⟨-, hsteps⟩ := hlife.simulates h₀.linked
    rw [h₀.file_eq_empty (hnone loanId)] at hsteps
    exact ⟨hsteps.kept LoanFile.empty_kept,
      hsteps.keeps (fun hstep _ => hstep.owed) fun _ _ hloan => by cases hloan⟩

theorem loans_complete_firstPayment :
    LoansComplete (runCalls LoanCall.program seeded (lending 3000000 ++ [settling 10 1 2])) := by
  refine loans_complete seeded_foreignKeys rfl
    ⟨trivial, trivial, fun loan loanPeriod hloan => ?_, fun i hi hlast => ?_, trivial⟩
  · have htenor : (((LoanCall.approveLoan 1 none 1 ⟨2026, 1, 6⟩).program.after
        ((LoanCall.createLoan 1 3 1 3000000 none (2 / 100) ⟨2026, 1, 5⟩).program.after
          seeded)).loanWithPeriod 1).all (fun p => p.2.tenor ≠ 0) = true := by decide +kernel
    rw [hloan, Option.all_some, decide_eq_true_eq] at htenor
    exact htenor
  · have hloan : (withLoan.find .installments 1).all (fun i => i.loanId = 1 && i.id = 1) = true := by
      decide +kernel
    have hother : (withLoan.file 1).installments.any (fun x => x.1.id ≠ 1 && x.1.status ≠ .paid) =
        true := by decide +kernel
    have hi : withLoan.find .installments 1 = some i := hi
    rw [hi, Option.all_some, Bool.and_eq_true, decide_eq_true_eq, decide_eq_true_eq] at hloan
    obtain ⟨x, hx, hx'⟩ := List.any_eq_true.1 hother
    rw [Bool.and_eq_true, decide_eq_true_eq, decide_eq_true_eq] at hx'
    have hlast : (withLoan.file i.loanId).LastUnpaid i := hlast
    rw [hloan.1] at hlast
    have hid : i.id = 1 := hloan.2
    exact hx'.2 (hlast.others x hx fun h => hx'.1 (h.trans hid))

/-- Three loans are paid back and stay active, so a fourth is refused. -/
theorem repaid_loans_stay_active :
    let d := runCalls LoanCall.program seeded ((List.range 3).flatMap fun n => wholeLife (n + 1))
    ¬ LoansComplete d ∧
      (LoanCall.createLoan 4 3 1 300000 none (2 / 100) ⟨2026, 5, 5⟩).program.result d =
        .error (.httpException 400 "User cannot have more than 3 loans") := by
  intro d
  have hrun : ((d.loanWithPeriod 1).any (fun p => p.1.status = .active) = true ∧
      (d.file 1).installments.all (fun x => x.1.status = .paid) = true) ∧
      (LoanCall.createLoan 4 3 1 300000 none (2 / 100) ⟨2026, 5, 5⟩).program.result d =
        .error (.httpException 400 "User cannot have more than 3 loans") := by
    decide +kernel
  obtain ⟨⟨hloan, hpaid⟩, hrefused⟩ := hrun
  refine ⟨fun h => ?_, hrefused⟩
  obtain ⟨⟨loan, loanPeriod⟩, hloan, hactive⟩ := Option.any_eq_true .. |>.1 hloan
  rw [decide_eq_true_eq] at hactive
  have hcompleted := (h.completes 1 loan loanPeriod hloan (.inl hactive)).2 fun x hx =>
    of_decide_eq_true (List.all_eq_true.1 hpaid x hx)
  rw [hactive] at hcompleted
  cases hcompleted

end LumbungMesari
