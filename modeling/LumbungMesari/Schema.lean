import LumbungMesari.Sql.Table
import LumbungMesari.Sql.Numeric

/-!
# The schema

The tables of the migrations, one structure a row, with the columns the modelled services read or
write. A `CHECK` constraint is a field of the row it constrains, so that no row can violate it.
`created_at` and `updated_at` are left out: a table keeps its rows in insertion order, and the lists
that sort by them take them as parameters.
-/

namespace LumbungMesari

open Sql

/-- Identifiers drawn by `uuidv7()`. -/
abbrev Uuid := ℕ

/-- `DECIMAL(12, 4)`. -/
abbrev Money := Numeric 12 4

/-- A calendar day, as a `DATE` column keeps it. `month` counts from 1. -/
@[ext] structure Date where
  year : ℤ
  month : ℕ
  day : ℕ
  deriving DecidableEq, Repr

/-- An instant, in milliseconds since the epoch. -/
abbrev Timestamp := ℤ

/-! ### Enumerations -/

inductive UserStatus where
  | pending
  | waitingDeposit
  | active
  | inactive
  | rejected
  deriving DecidableEq, Repr

inductive UserRole where
  | superadmin
  | admin
  | member
  deriving DecidableEq, Repr

inductive LoanStatus where
  | pending
  | approved
  | rejected
  | active
  | completed
  deriving DecidableEq, Repr

inductive InstallmentStatus where
  | due
  | paid
  | overdue
  | partlyPaid
  deriving DecidableEq, Repr

inductive MandatorySavingsStatus where
  | due
  | paid
  | overdue
  deriving DecidableEq, Repr

inductive PrincipalSavingsStatus where
  | pending
  | paid
  | cancelled
  deriving DecidableEq, Repr

inductive BalanceType where
  | total
  | capital
  | shu
  deriving DecidableEq, Repr

/-- `'in'` and `'out'`. -/
inductive Direction where
  | in_
  | out
  deriving DecidableEq, Repr

inductive ExpenseSource where
  | auto
  | total
  | capital
  | shu
  deriving DecidableEq, Repr

inductive IncomeDestination where
  | shu
  | capital
  deriving DecidableEq, Repr

/-! ### Rows -/

structure User where
  id : Uuid
  email : String
  fullname : String
  username : String
  password : String
  status : UserStatus
  roleId : UserRole
  otpCode : Option String
  otpExpiresAt : Option Timestamp
  otpVerified : Bool
  deriving DecidableEq

structure LoanPeriod where
  id : Uuid
  tenor : ℕ
  interestRate : Numeric 10 4
  deriving DecidableEq

structure Loan where
  id : Uuid
  userId : Uuid
  loanPeriodId : Uuid
  principalAmount : Money
  adminFeeAmount : Money
  disbursedAmount : Money
  interestAmount : Money
  monthlyPayment : Money
  lastMonthPayment : Money
  totalPayableAmount : Money
  disbursedAt : Option Date
  startDate : Date
  endDate : Date
  status : LoanStatus
  notes : Option String
  approvedBy : Option Uuid
  approvedAt : Option Date
  deriving DecidableEq

structure Installment where
  id : Uuid
  loanId : Uuid
  installmentNumber : ℕ
  dueDate : Date
  principalAmount : Money
  interestAmount : Money
  penaltyAmount : Money
  totalAmount : Money
  paidAt : Option Date
  status : InstallmentStatus
  processedBy : Option Uuid
  deriving DecidableEq

structure PrincipalSavings where
  id : Uuid
  userId : Uuid
  amount : Money
  status : PrincipalSavingsStatus
  processedBy : Option Uuid
  paidAt : Option Date
  deriving DecidableEq

structure MandatorySavings where
  id : Uuid
  userId : Uuid
  periodDate : Date
  amount : Money
  status : MandatorySavingsStatus
  paidAt : Option Date
  processedBy : Option Uuid
  deriving DecidableEq

structure IncomeCategory where
  id : Uuid
  code : String
  deriving DecidableEq

structure Income where
  id : Uuid
  name : String
  incomeCategoryId : Uuid
  amount : Money
  loanId : Option Uuid
  installmentId : Option Uuid
  principalSavingId : Option Uuid
  mandatorySavingId : Option Uuid
  notes : Option String
  txnDate : Date
  deriving DecidableEq

structure ExpenseCategory where
  id : Uuid
  code : String
  defaultSource : ExpenseSource
  deriving DecidableEq

structure Expense where
  id : Uuid
  expenseCategoryId : Uuid
  name : String
  shuAmount : Money
  capitalAmount : Money
  createdBy : Uuid
  loanId : Option Uuid
  notes : Option String
  source : Option ExpenseSource
  txnDate : Date
  /-- `chk_expense_amounts_positive` -/
  amountsPositive : 0 < shuAmount.units + capitalAmount.units
  deriving DecidableEq

structure CashbookTransaction where
  id : Uuid
  txnDate : Date
  direction : Direction
  shuAmount : Money
  capitalAmount : Money
  shuBalanceBefore : Money
  shuBalanceAfter : Money
  capitalBalanceBefore : Money
  capitalBalanceAfter : Money
  totalBalanceBefore : Money
  totalBalanceAfter : Money
  incomeId : Option Uuid
  expenseId : Option Uuid
  isReversal : Bool
  reversalOf : Option Uuid
  deletedAt : Option Date
  /-- `chk_cashbook_amounts_positive` -/
  amountsPositive : 0 < shuAmount.units + capitalAmount.units
  deriving DecidableEq

/-! ### Tables -/

inductive TableName where
  | users
  | loanPeriods
  | loans
  | installments
  | principalSavings
  | mandatorySavings
  | incomeCategories
  | incomes
  | expenseCategories
  | expenses
  | cashbookTransactions
  deriving DecidableEq, Repr

abbrev Row : TableName → Type
  | .users => User
  | .loanPeriods => LoanPeriod
  | .loans => Loan
  | .installments => Installment
  | .principalSavings => PrincipalSavings
  | .mandatorySavings => MandatorySavings
  | .incomeCategories => IncomeCategory
  | .incomes => Income
  | .expenseCategories => ExpenseCategory
  | .expenses => Expense
  | .cashbookTransactions => CashbookTransaction

/-- The primary key. -/
@[reducible] def Row.id : (t : TableName) → Row t → Uuid
  | .users => User.id
  | .loanPeriods => LoanPeriod.id
  | .loans => Loan.id
  | .installments => Installment.id
  | .principalSavings => PrincipalSavings.id
  | .mandatorySavings => MandatorySavings.id
  | .incomeCategories => IncomeCategory.id
  | .incomes => Income.id
  | .expenseCategories => ExpenseCategory.id
  | .expenses => Expense.id
  | .cashbookTransactions => CashbookTransaction.id

/-- The entry a row has in a unique index other than its primary key. -/
inductive UniqueKey where
  | userEmail (email : String)
  | userUsername (username : String)
  | installmentNumber (loanId : Uuid) (number : ℕ)
  | principalSavingsUser (userId : Uuid)
  | mandatorySavingsPeriod (userId : Uuid) (periodDate : Date)
  | incomeCategoryCode (code : String)
  | expenseCategoryCode (code : String)
  deriving DecidableEq

def Row.uniqueKeys : (t : TableName) → Row t → List UniqueKey
  | .users, r => [.userEmail r.email, .userUsername r.username]
  | .installments, r => [.installmentNumber r.loanId r.installmentNumber]
  | .principalSavings, r => [.principalSavingsUser r.userId]
  | .mandatorySavings, r => [.mandatorySavingsPeriod r.userId r.periodDate]
  | .incomeCategories, r => [.incomeCategoryCode r.code]
  | .expenseCategories, r => [.expenseCategoryCode r.code]
  | _, _ => []

/-- The rows a row refers to by a foreign key. -/
def Row.references : (t : TableName) → Row t → List (TableName × Uuid)
  | .loans, r => [(.users, r.userId), (.loanPeriods, r.loanPeriodId)] ++
      r.approvedBy.toList.map (.users, ·)
  | .installments, r => (.loans, r.loanId) :: r.processedBy.toList.map (.users, ·)
  | .principalSavings, r => (.users, r.userId) :: r.processedBy.toList.map (.users, ·)
  | .mandatorySavings, r => (.users, r.userId) :: r.processedBy.toList.map (.users, ·)
  | .incomes, r => (.incomeCategories, r.incomeCategoryId) ::
      (r.loanId.toList.map (.loans, ·) ++ r.installmentId.toList.map (.installments, ·) ++
        r.principalSavingId.toList.map (.principalSavings, ·) ++
        r.mandatorySavingId.toList.map (.mandatorySavings, ·))
  | .expenses, r => [(.expenseCategories, r.expenseCategoryId), (.users, r.createdBy)] ++
      r.loanId.toList.map (.loans, ·)
  | .cashbookTransactions, r =>
      r.incomeId.toList.map (.incomes, ·) ++ r.expenseId.toList.map (.expenses, ·)
  | _, _ => []

end LumbungMesari
