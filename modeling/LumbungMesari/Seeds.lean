import LumbungMesari.Loans
import LumbungMesari.Sql.Alone

/-!
# The seeded database

What the migrations and the seeds leave behind: the three balances, the categories, the loan periods,
the two administrators and the first of the members. Everything else is empty.
-/

namespace LumbungMesari

open Sql

/-- `cashbook_balances` as its migration fills it, in units. -/
def seededBalance : BalanceType → ℤ
  | .shu => 0
  | .capital => 5000000 * 10 ^ 4
  | .total => 5000000 * 10 ^ 4

/-- Password hashes are salted, so no seeding gives the same; none is kept here. -/
def seededUser (id : Uuid) (email fullname username : String) (roleId : UserRole) : User where
  id := id
  email := email
  fullname := fullname
  username := username
  password := ""
  status := .active
  roleId := roleId
  otpCode := none
  otpExpiresAt := none
  otpVerified := false

def seededUsers : List User := [
  seededUser 1 "admin@lumbungmesari.com" "System Administrator" "admin" .admin,
  seededUser 2 "superadmin@lumbungmesari.com" "System Super Administrator" "superadmin"
    .superadmin,
  seededUser 3 "andi.setiawan@gmail.com" "Andi Setiawan" "andi_setiawan" .member]

def seededIncomeCategories : List IncomeCategory := [
  ⟨1, "principal_savings"⟩, ⟨2, "mandatory_savings"⟩, ⟨3, "loan_interest"⟩, ⟨4, "loan_admin_fee"⟩,
  ⟨5, "late_payment_penalty"⟩, ⟨6, "installment_principal"⟩, ⟨7, "donation"⟩, ⟨8, "others"⟩]

def seededExpenseCategories : List ExpenseCategory := [
  ⟨1, "operational", .auto⟩, ⟨2, "administrative", .auto⟩, ⟨3, "maintenance", .auto⟩,
  ⟨4, "legal_compliance", .capital⟩, ⟨5, "loan_disbursement", .auto⟩, ⟨6, "others", .auto⟩]

/-- 3, 6, 9 and 12 months at `DEFAULT_INTEREST_RATE`. -/
def seededLoanPeriods : List LoanPeriod := [
  ⟨1, 3, ⟨100, by decide⟩⟩, ⟨2, 6, ⟨100, by decide⟩⟩, ⟨3, 9, ⟨100, by decide⟩⟩,
  ⟨4, 12, ⟨100, by decide⟩⟩]

def seeded : Database where
  balances := seededBalance
  table
    | .users => ⟨seededUsers, by decide⟩
    | .loanPeriods => ⟨seededLoanPeriods, by decide⟩
    | .incomeCategories => ⟨seededIncomeCategories, by decide⟩
    | .expenseCategories => ⟨seededExpenseCategories, by decide⟩
    | .loans => .empty
    | .installments => .empty
    | .principalSavings => .empty
    | .mandatorySavings => .empty
    | .incomes => .empty
    | .expenses => .empty
    | .cashbookTransactions => .empty

/-! ### One loan -/

/-- A member asks for an amount over a period. -/
def borrowing (amount : ℚ) (loanPeriodId : Uuid) : List LoanCall := [
  .createLoan 1 3 loanPeriodId amount none (2 / 100) ⟨2026, 1, 5⟩,
  .approveLoan 1 none 1 ⟨2026, 1, 6⟩]

/-- The seeded database after the request and its approval. -/
def approved (amount : ℚ) (loanPeriodId : Uuid) : Database :=
  runCalls LoanCall.program seeded (borrowing amount loanPeriodId)

/-- The disbursement of the loan. -/
def handOut : Program Unit := disburseLoan ⟨id, ⟨1, 1, 2⟩, 1, 2⟩ 1 1 ⟨2026, 1, 7⟩

/-- A loan over three months is requested, approved and disbursed. -/
def lending (amount : ℚ) : List LoanCall := borrowing amount 1 ++ [
  .disburseLoan ⟨id, ⟨1, 1, 2⟩, 1, 2⟩ 1 1 ⟨2026, 1, 7⟩]

/-- A loan of 3,000,000. -/
def withLoan : Database := runCalls LoanCall.program seeded (lending 3000000)

example : (withLoan.rows .installments).map (fun i => (i.dueDate.month, i.totalAmount.units)) =
    [(2, 1030000 * 10 ^ 4), (3, 1030000 * 10 ^ 4), (4, 1030000 * 10 ^ 4)] := by decide +kernel

/-! ### Loans that are paid back -/

def settling (k installmentId : Uuid) (month : ℕ) : LoanCall :=
  .settleInstallment ⟨⟨k, k⟩, ⟨k + 1, k + 1⟩, ⟨k + 2, k + 2⟩⟩ installmentId 1 ⟨2026, month, 20⟩

/-- A loan of 300,000 over three months is requested, disbursed and paid back. -/
def wholeLife (n : Uuid) : List LoanCall := [
  .createLoan n 3 1 300000 none (2 / 100) ⟨2026, 1, 5⟩,
  .approveLoan n none 1 ⟨2026, 1, 6⟩,
  .disburseLoan ⟨(100 * n + ·), ⟨n, 100 * n, 100 * n + 1⟩, 100 * n, 100 * n + 2⟩ n 1 ⟨2026, 1, 7⟩,
  settling (100 * n + 10) (100 * n + 1) 2, settling (100 * n + 20) (100 * n + 2) 3,
  settling (100 * n + 30) (100 * n + 3) 4]

end LumbungMesari
