import LumbungMesari.Users

/-!
# ExpensesController

The routes of the controller behind `JwtAuthGuard` and `RolesGuard`. A request comes with the ids its
rows will draw and the day it is handled on. Its body or query has been through the validation pipe,
which hands on a value or an error of its own, after the guards and before the handler. The rate
limit in front of all controllers is left out: a request that it refuses reaches no guard.
-/

namespace LumbungMesari

open Sql
open Prog (inTrx onPool commitTrx)

/-! ### ExpensesService -/

/-- A query for expenses, with its filters and its order as what they do to rows. -/
structure ExpensesQuery where
  page : ℕ
  limit : ℕ
  filter : Expense → Option ExpenseCategory → Bool
  sort : List Expense → List Expense

structure ExpensesPaginatedResponse where
  data : List Expense
  page : ℕ
  limit : ℕ
  totalData : ℕ
  totalPage : ℕ
  next : Bool
  prev : Bool

def Database.matching (d : Database) (query : ExpensesQuery) : List Expense :=
  (d.rows .expenses).filter fun e =>
    query.filter e (d.find .expenseCategories e.expenseCategoryId)

def findAllExpenses (query : ExpensesQuery) : Program ExpensesPaginatedResponse := do
  let totalData ← onPool (select fun d => (d.matching query).length)
  let data ← onPool (select fun d =>
    ((query.sort (d.matching query)).drop ((query.page - 1) * query.limit)).take query.limit)
  let totalPage := (totalData + query.limit - 1) / query.limit
  pure {
    data, page := query.page, limit := query.limit, totalData, totalPage
    next := query.page < totalPage
    prev := 1 < query.page }

def findExpenseById (id : Uuid) : Program (Expense × Option ExpenseCategory) := do
  match ← findByIdWithCategory id with
  | none => .throw (expenseNotFoundError id)
  | some expense => pure expense

def getAllCategories : Program (List ExpenseCategory) :=
  onPool (select fun d => d.rows .expenseCategories)

/-! ### Routes -/

inductive ExpensesRoute where
  | createExpense (ids : ExpenseIds) (body : Except Error CreateExpenseDto)
  | findAllExpenses (query : Except Error ExpensesQuery)
  | getExpenseCategories
  | findExpenseById (id : Uuid)
  | updateExpense (ids : ExpenseIds) (id : Uuid) (body : Except Error UpdateExpenseDto)
  | deleteExpense (id : Uuid)

inductive ExpensesResponse where
  | expense (expense : Expense)
  | expenses (page : ExpensesPaginatedResponse)
  | categories (categories : List ExpenseCategory)
  | noContent

/-- What the pipe hands on. -/
def piped {α : Type} : Except Error α → Program α
  | .error e => .throw e
  | .ok a => pure a

namespace ExpensesRoute

/-- The `@Roles` of a handler. -/
def roles : ExpensesRoute → Option (List UserRole)
  | createExpense .. => some [.admin, .superadmin]
  | findAllExpenses .. => some [.admin, .superadmin]
  | getExpenseCategories => some [.admin, .superadmin]
  | findExpenseById .. => some [.admin, .superadmin]
  | updateExpense .. => some [.admin, .superadmin]
  | deleteExpense .. => some [.admin, .superadmin]

def handle (user : UserJWT) (now : Date) : ExpensesRoute → Program ExpensesResponse
  | createExpense ids body => do
      let createExpenseDto ← piped body
      return .expense (← LumbungMesari.createExpense ids createExpenseDto user.id now)
  | findAllExpenses query => do
      let query ← piped query
      return .expenses (← LumbungMesari.findAllExpenses query)
  | getExpenseCategories => return .categories (← getAllCategories)
  | findExpenseById id => return .expense (← LumbungMesari.findExpenseById id).1
  | updateExpense ids id body => do
      let updateExpenseDto ← piped body
      return .expense (← LumbungMesari.updateExpense ids id updateExpenseDto now)
  | deleteExpense id => do
      LumbungMesari.deleteExpense id now
      return .noContent

end ExpensesRoute

/-! ### Requests -/

/-- A request with a token for a user. -/
structure ExpensesRequest where
  sub : Uuid
  now : Date
  route : ExpensesRoute

/-- The class has no `@Roles`. -/
def expensesControllerRoles : Option (List UserRole) := none

def ExpensesRequest.handle (request : ExpensesRequest) : Program ExpensesResponse := do
  let user ← jwtAuthGuard request.sub
  match canActivate request.route.roles expensesControllerRoles user with
  | .error e => .throw e
  | .ok () => request.route.handle user request.now

def ExpensesRequest.program (request : ExpensesRequest) : Program Unit := do
  let _ ← request.handle
  pure ()

end LumbungMesari
