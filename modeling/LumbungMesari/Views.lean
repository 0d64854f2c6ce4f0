import LumbungMesari.Listings
import LumbungMesari.Reports

/-!
# What the services show

The queries behind the pages of a user: the loans and their installments, the records of mandatory
savings, and the cashbook. An administrator is shown everything, another user what is their own, and
the cashbook is open to all.
-/

namespace LumbungMesari

open Sql
open Prog (onPool)

/-- What the service is configured with, how it compares names, and what its queries read besides the
modelled columns. -/
structure ApiContext extends ListContext where
  localeCompare : OrderBy String
  offset : UtcOffset
  mandatorySavings : Uuid → Timestamps
  cashbookTransactions : Uuid → Timestamp
  adminFeeRate : ℚ
  mandatorySavingsAmount : Option ℚ
  compare : String → String → Bool

/-- `user.role === 'administrator' || user.role === 'superadministrator'` -/
def UserJWT.isAdmin (user : UserJWT) : Bool :=
  user.role = some .admin ∨ user.role = some .superadmin

/-! ### Loans -/

def findAllPeriods : Program (List LoanPeriod) :=
  onPool (select fun d => (d.rows .loanPeriods).mergeSort fun a b => a.tenor ≤ b.tenor)

/-- A loan and the tenor of its period. -/
structure UserLoan where
  loan : Loan
  tenor : ℕ
  deriving DecidableEq

/-- `ORDER BY created_at DESC` -/
def newestLoans (context : ListContext) : OrderBy UserLoan :=
  ((OrderBy.ofLinearOrder Timestamp).on fun row => (context.loans row.loan.id).createdAt).reverse

def Database.loansOfUser (userId : Uuid) (d : Database) : List UserLoan :=
  ((d.rows .loans).filter fun l => l.userId = userId).filterMap fun l =>
    (d.find .loanPeriods l.loanPeriodId).map fun period => ⟨l, period.tenor⟩

/-- The three newest loans of a user, whatever has become of them. -/
def findUserLoans (context : ListContext) (userId : Uuid) (plan : Plan (newestLoans context)) :
    Program (List UserLoan) :=
  onPool (select fun d => (plan.list 1 (d.loansOfUser userId)).take 3)

def findInstallmentsByLoanId (loanId : Uuid) : Program (List Installment) :=
  onPool (select fun d => ((d.rows .installments).filter fun i => i.loanId = loanId).mergeSort
    fun a b => a.installmentNumber ≤ b.installmentNumber)

def findInstallmentsByLoan (loanId : Uuid) (user : UserJWT) : Program (List Installment) := do
  match ← findLoanById loanId with
  | none => .throw (.httpException 404 "Loan not found")
  | some (loan, _) =>
      if !user.isAdmin && loan.userId ≠ user.id then
        .throw (.httpException 403 "You do not have permission to view this loan's installments")
      else findInstallmentsByLoanId loanId

/-- A loan, its user and its period. -/
def findByIdWithUser (id : Uuid) : Program (Option (Loan × User × LoanPeriod)) :=
  onPool (select fun d => (d.find .loans id).bind d.joinLoan)

/-- A loan as it is shown. -/
structure LoanDetails where
  loan : Loan
  tenor : ℕ
  interestRate : Numeric 10 4
  fullname : String
  userEmail : String

def findById (loanId : Uuid) (user : UserJWT) : Program LoanDetails := do
  match ← findByIdWithUser loanId with
  | none => .throw (.httpException 404 "Loan not found")
  | some (loan, u, loanPeriod) =>
      if !user.isAdmin && loan.userId ≠ user.id then
        .throw (.httpException 403 "You do not have permission to view this loan")
      else pure ⟨loan, loanPeriod.tenor, loanPeriod.interestRate, u.fullname, u.email⟩

/-! ### Mandatory savings -/

/-- The columns that the records can be sorted by. Another text counts as `period_date`. -/
inductive SavingsSortBy where
  | periodDate
  | amount
  | status
  | paidAt
  | createdAt
  | updatedAt
  deriving DecidableEq, Repr

structure SavingsQuery where
  period : Option String := none
  year : Option ℤ := none
  sortBy : SavingsSortBy := .periodDate
  sortOrder : SortOrder := .desc

/-- A record, its user, and the name of the administrator who settled it. -/
structure MandatorySavingsWithUser where
  record : MandatorySavings
  timestamps : Timestamps
  fullname : String
  email : String
  username : String
  processedByUser : Option String
  deriving DecidableEq

def MandatorySavingsStatus.text : MandatorySavingsStatus → String
  | due => "due"
  | paid => "paid"
  | overdue => "overdue"

def SavingsSortBy.column (context : ApiContext) : SavingsSortBy → OrderBy MandatorySavingsWithUser
  | .periodDate => Date.orderBy.on (·.record.periodDate)
  | .amount => (OrderBy.ofLinearOrder ℤ).on (·.record.amount.units)
  | .status => context.collation.on (·.record.status.text)
  | .paidAt => Date.orderBy.nullsLast.on (·.record.paidAt)
  | .createdAt => (OrderBy.ofLinearOrder Timestamp).on (·.timestamps.createdAt)
  | .updatedAt => (OrderBy.ofLinearOrder Timestamp).on (·.timestamps.updatedAt)

def SavingsQuery.orderBy (context : ApiContext) (query : SavingsQuery) :
    OrderBy MandatorySavingsWithUser :=
  query.sortOrder.of (query.sortBy.column context)

/-- `orderBy('u.fullname', 'asc')` as the second column. -/
def SavingsQuery.orderByWithName (context : ApiContext) (query : SavingsQuery) :
    OrderBy MandatorySavingsWithUser :=
  (query.orderBy context).thenBy (context.collation.on (·.fullname))

def invalidPeriodException (period : String) : Error :=
  .httpException 400 (s!"Invalid period parameter: {period}. " ++
    "Must be a valid month name in English (e.g., january, february, etc.)")

def validatePeriodParameter (period : String) : Except Error Unit :=
  if period.toLower ∈ periodNames then .ok () else .error (invalidPeriodException period)

/-- The dates a query asks for: a month, or the last thirty days. -/
def SavingsQuery.dates (o : UtcOffset) (now : Instant) (query : SavingsQuery) :
    Except Error (Date → Bool) :=
  let period := query.period.getD ""
  if period = "" then .ok fun date => (Date.prev^[30] (now.toLocal o).date).le date
  else do
    validatePeriodParameter period
    let (startDate, endDate) ← convertPeriodToDateRange o period query.year now
    return whereBetween o startDate endDate

def Database.savingsWithUsers (context : ApiContext) (accepts : MandatorySavings → Bool)
    (d : Database) : List MandatorySavingsWithUser :=
  ((d.rows .mandatorySavings).filter accepts).filterMap fun r =>
    (d.find .users r.userId).map fun u => {
      record := r, timestamps := context.mandatorySavings r.id
      fullname := u.fullname, email := u.email, username := u.username
      processedByUser := (r.processedBy.bind (d.find .users)).map (·.fullname) }

def findAllMandatorySavings (context : ApiContext) (now : Instant) (query : SavingsQuery)
    (plan : Plan (query.orderByWithName context)) (page limit : ℕ) :
    Program (Page MandatorySavingsWithUser) :=
  match query.dates context.offset now with
  | .error e => .throw e
  | .ok dates => paginateBy plan (Database.savingsWithUsers context fun r => dates r.periodDate) page
      limit

def findUserMandatorySavings (context : ApiContext) (now : Instant) (userId : Uuid)
    (query : SavingsQuery) (plan : Plan (query.orderBy context)) (page limit : ℕ) :
    Program (Page MandatorySavingsWithUser) :=
  match query.dates context.offset now with
  | .error e => .throw e
  | .ok dates => paginateBy plan (Database.savingsWithUsers context fun r =>
      r.userId = userId && dates r.periodDate) page limit

/-! ### The cashbook -/

def getCurrentBalances : Program Balances :=
  onPool (select fun d => ⟨d.balance .shu, d.balance .capital, d.balance .total⟩)

/-- A row of the cashbook as it is shown. -/
structure CashbookEntry where
  id : Uuid
  txnDate : Date
  direction : Direction
  shuAmount : Money
  capitalAmount : Money
  totalBalanceAfter : Money
  category : Option (Uuid × String)
  createdAt : Timestamp
  deriving DecidableEq

/-- The id and the code of the category of the income, or else of the expense. -/
def Database.categoryOf (d : Database) (r : CashbookTransaction) : Option (Uuid × String) :=
  let income := r.incomeId.bind (d.find .incomes)
  let incomeCategory := income.bind fun i => d.find .incomeCategories i.incomeCategoryId
  let expense := r.expenseId.bind (d.find .expenses)
  let expenseCategory := expense.bind fun e => d.find .expenseCategories e.expenseCategoryId
  (incomeCategory.map fun c => (c.id, c.code)) <|> expenseCategory.map fun c => (c.id, c.code)

def Database.cashbook (context : ApiContext) (d : Database) : List CashbookEntry :=
  ((d.rows .cashbookTransactions).filter (·.visible)).map fun r => {
    id := r.id, txnDate := r.txnDate, direction := r.direction
    shuAmount := r.shuAmount, capitalAmount := r.capitalAmount
    totalBalanceAfter := r.totalBalanceAfter, category := d.categoryOf r
    createdAt := context.cashbookTransactions r.id }

/-- `ORDER BY created_at DESC` -/
def newestEntries : OrderBy CashbookEntry :=
  ((OrderBy.ofLinearOrder Timestamp).on (·.createdAt)).reverse

/-- The page and the count are two queries that are sent at once. -/
def listTransactions (context : ApiContext) (plan : Plan newestEntries) (page limit : ℕ) :
    Program (Page CashbookEntry) := do
  let rows ← onPool (select fun d =>
    ((plan.list page (d.cashbook context)).drop ((page - 1) * limit)).take limit)
  let totalData ← onPool (select fun d =>
    (d.rows .cashbookTransactions).countP (·.visible))
  pure (createPaginationMetadata rows page limit totalData)

end LumbungMesari
