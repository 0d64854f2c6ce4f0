import LumbungMesari.LoanSchedule
import LumbungMesari.Expenses
import LumbungMesari.Incomes
import Mathlib.Data.List.Sort

/-!
# Loans

`LoansRepository` and `LoansService`: a loan is requested, approved or rejected, disbursed and repaid
in installments, and a monthly job marks installments overdue and adds penalties.
-/

namespace LumbungMesari

open Sql Js
open Prog (inTrx onPool commitTrx)

/-! ### LoansRepository -/

def findLoanPeriodById (id : Uuid) : Program (Option LoanPeriod) :=
  onPool (select fun d => d.find .loanPeriods id)

/-- A loan joined with its period. -/
def Database.loanWithPeriod (d : Database) (id : Uuid) : Option (Loan × LoanPeriod) :=
  (d.find .loans id).bind fun loan => (d.find .loanPeriods loan.loanPeriodId).map (loan, ·)

/-- `findById` without a transaction. -/
def findLoanById (id : Uuid) : Program (Option (Loan × LoanPeriod)) :=
  onPool (select fun d => d.loanWithPeriod id)

/-- `findById` in a transaction locks both rows of the join. -/
def findLoanByIdForUpdate (id : Uuid) : Program (Option (Loan × LoanPeriod)) :=
  inTrx (selectForUpdate
    (fun d => (d.loanWithPeriod id).elim [] fun (loan, loanPeriod) =>
      [.row .loans loan.id, .row .loanPeriods loanPeriod.id])
    fun d => d.loanWithPeriod id)

/-- The update of a row by its id, which fails when there is none. -/
def updateOrThrow {t : TableName} (label : Label) (id : Uuid) (set : Row t → Except Error (Row t))
    (notFound : Error) : Program (Row t) := do
  match ← inTrx (updateById label t id set) with
  | none => .throw notFound
  | some result => pure result

def loanNotFoundError (loanId : Uuid) : Error := .error s!"Loan with id {loanId} not found"

def installmentNotFoundError (installmentId : Uuid) : Error :=
  .error s!"Installment with id {installmentId} not found"

def Loan.setStatus (status : LoanStatus) (approvedBy : Option Uuid) (notes : Option String)
    (now : Date) (r : Loan) : Loan :=
  match status with
  | .approved => { r with status, notes, approvedBy, approvedAt := some now }
  | _ => { r with status, notes }

def updateLoanStatus (loanId : Uuid) (status : LoanStatus) (approvedBy : Option Uuid)
    (notes : Option String) (now : Date) : Program Loan :=
  updateOrThrow (t := .loans) .other loanId (fun r => .ok (r.setStatus status approvedBy notes now))
    (loanNotFoundError loanId)

def Loan.disburse (now : Date) (r : Loan) : Loan :=
  { r with status := .active, disbursedAt := some now }

def disburseLoanRow (loanId : Uuid) (now : Date) : Program Loan :=
  updateOrThrow (t := .loans) .other loanId (fun r => .ok (r.disburse now))
    (loanNotFoundError loanId)

def createInstallments (installments : Except Error (List Installment)) :
    Program (List Installment) :=
  inTrx (insertAll .installments installments)

def findInstallmentById (installmentId : Uuid) : Program (Option Installment) :=
  inTrx (selectForUpdate
    (fun d => (d.find .installments installmentId).elim [] fun r => [.row .installments r.id])
    fun d => d.find .installments installmentId)

/-- By loan, then by number. -/
def Installment.le (a b : Installment) : Bool :=
  a.loanId < b.loanId || a.loanId = b.loanId && a.installmentNumber ≤ b.installmentNumber

def findOverdueInstallments (beforeDate : Date) : Program (List Installment) :=
  onPool (select fun d =>
    ((d.rows .installments).filter fun r =>
      r.status = .due && r.dueDate.le beforeDate).insertionSort fun a b => a.le b)

def countOverdueInstallmentsByLoanId (loanId : Uuid) : Program ℕ :=
  inTrx (select fun d =>
    (d.rows .installments).countP fun r => r.loanId = loanId && r.status = .overdue)

/-- The overdue installment of a loan with the lowest number and no penalty. -/
def Database.oldestUnpenalized (d : Database) (loanId : Uuid) : Option Installment :=
  (((d.rows .installments).filter fun r =>
    r.loanId = loanId && r.status = .overdue && r.penaltyAmount.units = 0).insertionSort
      fun a b => a.installmentNumber ≤ b.installmentNumber).head?

def findOldestUnpenalizedOverdueInstallment (loanId : Uuid) : Program (Option Installment) :=
  inTrx (select fun d => d.oldestUnpenalized loanId)

def Installment.settle (adminId : Uuid) (now : Date) (r : Installment) : Installment :=
  { r with status := .paid, processedBy := some adminId, paidAt := some now }

def settleInstallmentRow (installmentId adminId : Uuid) (now : Date) : Program Installment :=
  updateOrThrow (t := .installments) (.settleInstallment installmentId) installmentId
    (fun r => .ok (r.settle adminId now)) (installmentNotFoundError installmentId)

def Installment.setStatus (status : InstallmentStatus) (r : Installment) : Installment :=
  { r with status }

def updateInstallmentStatus (installmentId : Uuid) (status : InstallmentStatus) :
    Program Installment :=
  updateOrThrow (t := .installments) (.updateInstallmentStatus installmentId) installmentId
    (fun r => .ok (r.setStatus status)) (installmentNotFoundError installmentId)

/-- The penalty and the total of an installment with a penalty added. -/
def penalized (penaltyAmount totalAmount : ℚ) (r : Installment) : Except Error Installment := do
  pure { r with
    penaltyAmount := ← money penaltyAmount
    totalAmount := ← money totalAmount }

/-- An amount and a number, added as numbers and written with `toFixed(4)`. -/
def Money.plus (m : Money) (x : Double) : ℚ := (.ofRat m.toRat + x : Double).toFixed 4

/-- Read the amounts, then write the new ones. -/
def addPenaltyToInstallment (installmentId : Uuid) (penaltyAmount : Double) :
    Program (Option Installment) := do
  match ← inTrx (select fun d => d.find .installments installmentId) with
  | none => .throw (installmentNotFoundError installmentId)
  | some currentInstallment =>
      let newPenalty := currentInstallment.penaltyAmount.plus penaltyAmount
      let newTotal := currentInstallment.totalAmount.plus penaltyAmount
      inTrx (updateById (.addPenaltyToInstallment installmentId) .installments installmentId
        (penalized newPenalty newTotal))

/-! ### LoansService -/

/-- A status as the database spells it. -/
def LoanStatus.text : LoanStatus → String
  | pending => "pending"
  | approved => "approved"
  | rejected => "rejected"
  | active => "active"
  | completed => "completed"

/-- `createLoan` reports the errors of the database as bad requests. -/
def createLoanError : Error → Error
  | .raised message =>
      if message = maxLoansMessage then .httpException 400 "User cannot have more than 3 loans"
      else .badRequest (.raised message)
  | e => .badRequest e

/-- One statement on the pool: nothing to commit. -/
def createLoan (id userId loanPeriodId : Uuid) (amount : ℚ) (notes : Option String)
    (adminFeeRate : ℚ) (now : Date) : Program Loan := do
  match ← findLoanPeriodById loanPeriodId with
  | none => .throw (.httpException 404 "Loan period not found")
  | some loanPeriod =>
      onPool (catchError
        (insertInto .loans (newLoan id userId loanPeriod amount notes adminFeeRate now))
        createLoanError)

structure CalculateLoanResponse where
  principalAmount : ℚ
  adminFee : ℚ
  disbursedAmount : ℚ
  tenor : ℕ
  interestRate : ℚ
  monthlyInterest : ℚ
  monthlyPayment : ℚ
  lastMonthPayment : Option ℚ
  deriving DecidableEq

/-- The numbers of the answer as they are printed. The last payment is only part of it where it
differs from the others. -/
def calculateLoan (loanPeriodId : Uuid) (amount adminFeeRate : ℚ) :
    Program CalculateLoanResponse := do
  match ← findLoanPeriodById loanPeriodId with
  | none => .throw (.httpException 404 "Loan period not found")
  | some loanPeriod =>
      let payments := loanPeriod.payments amount
      pure {
        principalAmount := printed amount
        adminFee := printed (adminFee amount adminFeeRate)
        disbursedAmount := printed (disbursedAmount amount adminFeeRate)
        tenor := loanPeriod.tenor
        interestRate := printed loanPeriod.interestRate.toRat
        monthlyInterest := printed payments.monthlyInterest
        monthlyPayment := printed payments.monthlyPayment
        lastMonthPayment :=
          if payments.lastMonthPayment ≠ payments.monthlyPayment then
            some (printed payments.lastMonthPayment)
          else none }

/-- The status check of `approveLoan` and `rejectLoan`, on the locked row, and the update behind
it. -/
def decideLoan (loanId : Uuid) (verb : String) (status : LoanStatus) (approvedBy : Option Uuid)
    (notes : Option String) (now : Date) : Program Unit := do
  match ← findLoanByIdForUpdate loanId with
  | none => .throw (.httpException 404 "Loan not found")
  | some (loan, _) =>
      if loan.status ≠ .pending then
        .throw (.httpException 400 s!"Cannot {verb} loan with status: {loan.status.text}")
      else do
        let _ ← updateLoanStatus loanId status approvedBy notes now
        commitTrx

def approveLoan (loanId : Uuid) (notes : Option String) (adminId : Uuid) (now : Date) :
    Program Unit :=
  decideLoan loanId "approve" .approved (some adminId) notes now

def rejectLoan (loanId : Uuid) (reason : String) (now : Date) : Program Unit :=
  decideLoan loanId "reject" .rejected none (some reason) now

/-- The ids a disbursement draws. -/
structure DisburseIds where
  installment : ℕ → Uuid
  expense : ExpenseIds
  income : Uuid
  ledger : Uuid

/-- The transaction of `disburseLoan`. The loan was read, and its status checked, before it. -/
def disburseLoanInTransaction (ids : DisburseIds) (loan : Loan) (loanPeriod : LoanPeriod)
    (disbursementCategory : ExpenseCategory) (adminId : Uuid) (now : Date) : Program Unit := do
  let _ ← disburseLoanRow loan.id now
  let _ ← createInstallments
    (generateInstallments loan loanPeriod.tenor adminId now ids.installment)
  let _ ← createExpenseInTransaction ids.expense {
    expenseCategoryId := disbursementCategory.id
    name := "Pencairan Pinjaman"
    amount := loan.disbursedAmount.toRat
    loanId := some loan.id
    notes := some "Pencairan pinjaman kepada anggota"
    source := some .capital
    transactionDate := none } adminId now
  let adminFeeIncome ← createLoanAdminFeeIncome ids.income loan.id loan.adminFeeAmount.toRat
    (some "Biaya administrasi pinjaman") now
  let _ ← createIncomeTransaction ids.ledger adminFeeIncome.id loan.adminFeeAmount.toRat .shu none now
  pure ()

def disburseLoan (ids : DisburseIds) (loanId adminId : Uuid) (now : Date) : Program Unit := do
  match ← findLoanById loanId with
  | none => .throw (.httpException 404 "Loan not found")
  | some (loan, loanPeriod) =>
      if loan.status ≠ .approved then
        .throw (.httpException 400
          s!"Cannot disburse loan with status: {loan.status.text}. Loan must be approved first.")
      else do
        match ← findExpenseCategoryByCode "loan_disbursement" with
        | none => .throw (.httpException 404
            "Expense category \"loan_disbursement\" not found. Please run seed.")
        | some disbursementCategory => do
            disburseLoanInTransaction ids loan loanPeriod disbursementCategory adminId now
            commitTrx

/-- The ids a settlement draws. -/
structure SettleIds where
  principal : IncomeIds
  interest : IncomeIds
  penalty : IncomeIds

/-- The incomes of a settled installment: principal to capital, interest and penalty to SHU. -/
def postInstallment (ids : SettleIds) (installment : Installment) (now : Date) : Program Unit := do
  let principalAmount := installment.principalAmount.toRat
  let interestAmount := installment.interestAmount.toRat
  let penaltyAmount := installment.penaltyAmount.toRat
  let principalIncome ← createInstallmentPrincipalIncome ids.principal.income installment.id
    "Pembayaran pokok angsuran" principalAmount s!"Cicilan ke-{installment.installmentNumber}" now
  let _ ← createIncomeTransaction ids.principal.ledger principalIncome.id principalAmount .capital
    none now
  let interestIncome ← createInstallmentInterestIncome ids.interest.income installment.id
    "Bunga angsuran" interestAmount
    s!"Bunga angsuran dari cicilan ke-{installment.installmentNumber}" now
  let _ ← createIncomeTransaction ids.interest.ledger interestIncome.id interestAmount .shu none now
  if 0 < penaltyAmount then do
    let penaltyIncome ← createInstallmentPenaltyIncome ids.penalty.income installment.id
      "Denda angsuran" penaltyAmount
      s!"Denda angsuran dari cicilan ke-{installment.installmentNumber}" now
    let _ ← createIncomeTransaction ids.penalty.ledger penaltyIncome.id penaltyAmount .shu none now
    pure ()
  else pure ()

def settleInstallment (ids : SettleIds) (installmentId adminId : Uuid) (now : Date) :
    Program Unit := do
  match ← findInstallmentById installmentId with
  | none => .throw (.httpException 404 "Installment not found")
  | some installment =>
      if installment.status = .paid then .throw (.httpException 400 "Installment already paid")
      else do
        let _ ← settleInstallmentRow installmentId adminId now
        postInstallment ids installment now
        commitTrx

/-- The number that the product of the principal and the rate comes to. -/
def Loan.penaltyAmount (loan : Loan) (loanPeriod : LoanPeriod) : Double :=
  .ofRat (decimal (loan.principalAmount.toRat * loanPeriod.interestRate.toRat))

/-- One loan of the overdue job: mark its first listed installment, and penalize the oldest overdue
one from the second on. -/
def processLoanOverdueInstallments (loanId : Uuid) (installment : Installment) : Program Unit := do
  match ← findLoanById loanId with
  | none => .throw (.httpException 404
      s!"Loan {loanId} not found while processing overdue installments")
  | some (loan, loanPeriod) => do
      let penaltyAmount := loan.penaltyAmount loanPeriod
      let previouslyOverdueCount ← countOverdueInstallmentsByLoanId loanId
      let _ ← updateInstallmentStatus installment.id .overdue
      let totalOverdueCount := previouslyOverdueCount + 1
      if 2 ≤ totalOverdueCount then do
        match ← findOldestUnpenalizedOverdueInstallment loanId with
        | none => commitTrx
        | some oldestUnpenalized => do
            let _ ← addPenaltyToInstallment oldestUnpenalized.id penaltyAmount
            commitTrx
      else commitTrx

/-- The first installment of every loan in a list, in the order of the list. -/
def firstByLoan : List Installment → List Installment
  | [] => []
  | r :: rs => r :: (firstByLoan rs).filter fun r' => decide (r'.loanId ≠ r.loanId)

/-- An error aborts the loans that are left. -/
def processLoans : List Installment → Program Unit
  | [] => pure ()
  | r :: rs => do
      processLoanOverdueInstallments r.loanId r
      processLoans rs

/-- `now` is a date in UTC. Of the installments of a loan, only the first is used. -/
def processOverdueInstallments (now : Date) : Program Unit := do
  let overdueInstallments ← findOverdueInstallments (now.setDate 20)
  processLoans (firstByLoan overdueInstallments)

/-- The calls on loans. `adminFeeRate` is `ADMIN_FEE_RATE`, 0.02 unless configured. -/
inductive LoanCall where
  | createLoan (id userId loanPeriodId : Uuid) (amount : ℚ) (notes : Option String)
      (adminFeeRate : ℚ) (now : Date)
  | approveLoan (loanId : Uuid) (notes : Option String) (adminId : Uuid) (now : Date)
  | rejectLoan (loanId : Uuid) (reason : String) (now : Date)
  | disburseLoan (ids : DisburseIds) (loanId adminId : Uuid) (now : Date)
  | settleInstallment (ids : SettleIds) (installmentId adminId : Uuid) (now : Date)
  | processOverdueInstallments (now : Date)

def LoanCall.program : LoanCall → Program Unit
  | createLoan id userId loanPeriodId amount notes adminFeeRate now => do
      let _ ← LumbungMesari.createLoan id userId loanPeriodId amount notes adminFeeRate now
      pure ()
  | approveLoan loanId notes adminId now => LumbungMesari.approveLoan loanId notes adminId now
  | rejectLoan loanId reason now => LumbungMesari.rejectLoan loanId reason now
  | disburseLoan ids loanId adminId now => LumbungMesari.disburseLoan ids loanId adminId now
  | settleInstallment ids installmentId adminId now =>
      LumbungMesari.settleInstallment ids installmentId adminId now
  | processOverdueInstallments now => LumbungMesari.processOverdueInstallments now

end LumbungMesari
