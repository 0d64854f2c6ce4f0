import LumbungMesari.Js.Digits
import LumbungMesari.Statements

/-!
# Loan schedules

The pure part of the loans service: the rounding of `utils.ts`, the figures of a loan, and the
installments they are turned into at disbursement. The figures are computed by decimal.js and
returned as numbers; the total payable is computed in numbers.
-/

namespace LumbungMesari

open Sql Js

/-! ### Dates -/

namespace Date

def isLeap (year : ℤ) : Bool := year % 4 = 0 && (year % 100 ≠ 0 || year % 400 = 0)

def daysInMonth (year : ℤ) (month : ℕ) : ℕ :=
  if month = 2 then if isLeap year then 29 else 28
  else if month ∈ [4, 6, 9, 11] then 30 else 31

/-- The first day of the month `n` months after the month of a date. -/
def firstOfMonth (d : Date) (n : ℕ) : Date :=
  ⟨d.year + ((d.month - 1 + n) / 12 : ℕ), (d.month - 1 + n) % 12 + 1, 1⟩

/-- `setMonth(getMonth() + n)`: a day the target month does not have runs over into the next. -/
def setMonth (d : Date) (n : ℕ) : Date :=
  let first := d.firstOfMonth n
  let days := daysInMonth first.year first.month
  if d.day ≤ days then { first with day := d.day }
  else { first.firstOfMonth 1 with day := d.day - days }

/-- `setDate(day)` of a day every month has. -/
def setDate (d : Date) (day : ℕ) : Date := { d with day := day }

/-- `due_date <= beforeDate` -/
def le (a b : Date) : Bool :=
  a.year < b.year || a.year = b.year &&
    (a.month < b.month || a.month = b.month && a.day ≤ b.day)

theorem le_trans {a b c : Date} (h : a.le b = true) (h' : b.le c = true) : a.le c = true := by
  simp only [le, Bool.or_eq_true, Bool.and_eq_true, decide_eq_true_eq] at h h' ⊢
  omega

theorem le_total (a b : Date) : a.le b = true ∨ b.le a = true := by
  simp only [le, Bool.or_eq_true, Bool.and_eq_true, decide_eq_true_eq]
  omega

theorem le_antisymm {a b : Date} (h : a.le b = true) (h' : b.le a = true) : a = b := by
  simp only [le, Bool.or_eq_true, Bool.and_eq_true, decide_eq_true_eq] at h h'
  ext <;> omega

end Date

/-! ### Figures -/

/-- `amount % 1000` of an amount that is not negative. -/
def remainder (amount : ℚ) : ℚ := amount - 1000 * ⌊amount / 1000⌋

/-- Round up to the next multiple of 500. -/
def roundUpToNearest500Or1000 (amount : ℚ) : ℚ :=
  let remainder := remainder amount
  if remainder = 0 ∨ remainder = 500 then amount
  else if remainder < 500 then amount + (500 - remainder)
  else amount + (1000 - remainder)

structure LoanPayments where
  monthlyInterest : ℚ
  monthlyPayment : ℚ
  lastMonthPayment : ℚ
  totalPayable : ℚ

/-- `decimal` is what decimal.js keeps of a result, `number` what a number makes of a value. The
rounded principal and its multiples are whole numbers, and exact. -/
def calculateLoanPayments (decimal number : ℚ → ℚ) (principalAmount interestRate : ℚ) (tenor : ℕ) :
    LoanPayments :=
  let monthlyInterest := decimal (principalAmount * interestRate)
  let monthlyPrincipal := decimal (principalAmount / tenor)
  let roundedMonthlyPrincipal := roundUpToNearest500Or1000 (number monthlyPrincipal)
  let monthlyPayment := decimal (roundedMonthlyPrincipal + monthlyInterest)
  let principalPaidInFirstMonths := roundedMonthlyPrincipal * (tenor - 1)
  let lastMonthPrincipal := max (decimal (principalAmount - principalPaidInFirstMonths)) 0
  let lastMonthPayment := decimal (lastMonthPrincipal + monthlyInterest)
  let totalPayable :=
    number (number principalAmount + number (number monthlyInterest * tenor))
  { monthlyInterest := number monthlyInterest
    monthlyPayment := number monthlyPayment
    lastMonthPayment := number lastMonthPayment
    totalPayable }

/-- The figures of an amount over a period. -/
def LoanPeriod.payments (loanPeriod : LoanPeriod) (amount : ℚ) : LoanPayments :=
  calculateLoanPayments decimal nearest amount loanPeriod.interestRate.toRat loanPeriod.tenor

def adminFee (amount adminFeeRate : ℚ) : ℚ := decimal (amount * adminFeeRate)

def disbursedAmount (amount adminFeeRate : ℚ) : ℚ :=
  decimal (amount - adminFee amount adminFeeRate)

/-- A number is written into a column as it is printed. -/
def moneyOfNumber (q : ℚ) : Except Error Money := money (printed q)

/-- The row `createLoan` inserts. -/
def newLoan (id userId : Uuid) (loanPeriod : LoanPeriod) (amount : ℚ) (notes : Option String)
    (adminFeeRate : ℚ) (now : Date) : Except Error Loan := do
  let paymentDetails := loanPeriod.payments amount
  pure {
    id, userId, loanPeriodId := loanPeriod.id
    principalAmount := ← moneyOfNumber amount
    adminFeeAmount := ← moneyOfNumber (adminFee amount adminFeeRate)
    disbursedAmount := ← moneyOfNumber (disbursedAmount amount adminFeeRate)
    interestAmount := ← moneyOfNumber paymentDetails.monthlyInterest
    monthlyPayment := ← moneyOfNumber paymentDetails.monthlyPayment
    lastMonthPayment := ← moneyOfNumber paymentDetails.lastMonthPayment
    totalPayableAmount := ← moneyOfNumber paymentDetails.totalPayable
    disbursedAt := none
    startDate := now
    endDate := now.firstOfMonth loanPeriod.tenor
    status := .pending
    notes, approvedBy := none, approvedAt := none }

/-! ### Installments -/

/-- The dates of a schedule: the 20th of each month after the disbursement. -/
def dueDate (disbursementDate : Date) (i : ℕ) : Date := (disbursementDate.setMonth i).setDate 20

/-- Installment number `i` of a loan. The last one takes what is left of the principal. -/
def generateInstallment (loan : Loan) (tenor : ℕ) (processedBy : Uuid) (disbursementDate : Date)
    (id : Uuid) (i : ℕ) : Except Error Installment := do
  let monthlyPayment := loan.monthlyPayment.toRat
  let lastMonthPayment := loan.lastMonthPayment.toRat
  let monthlyInterest := loan.interestAmount.toRat
  let roundedMonthlyPrincipal := monthlyPayment - monthlyInterest
  let principalPaidInFirstMonths := roundedMonthlyPrincipal * (tenor - 1)
  let lastMonthPrincipal := loan.principalAmount.toRat - principalPaidInFirstMonths
  let isLastMonth := i = tenor
  pure {
    id, loanId := loan.id, installmentNumber := i, dueDate := dueDate disbursementDate i
    principalAmount := ← money (if isLastMonth then lastMonthPrincipal else roundedMonthlyPrincipal)
    interestAmount := ← money monthlyInterest
    penaltyAmount := 0
    totalAmount := ← money (if isLastMonth then lastMonthPayment else monthlyPayment)
    paidAt := none, status := .due, processedBy := some processedBy }

/-- Installments `1` to `tenor`, with the ids their column draws. -/
def generateInstallments (loan : Loan) (tenor : ℕ) (processedBy : Uuid) (disbursementDate : Date)
    (ids : ℕ → Uuid) : Except Error (List Installment) :=
  (List.range tenor).mapM fun i =>
    generateInstallment loan tenor processedBy disbursementDate (ids (i + 1)) (i + 1)

end LumbungMesari
