import LumbungMesari.Cashbook
import LumbungMesari.Js.Double

/-!
# Expenses

`ExpenseCategoriesRepository`, `ExpensesRepository` and `ExpensesService`. An amount of a request is
the decimal that its number prints as.
-/

namespace LumbungMesari

open Sql Js
open Prog (inTrx onPool commitTrx)

structure CreateExpenseDto where
  expenseCategoryId : Uuid
  name : String
  amount : ℚ
  loanId : Option Uuid
  notes : Option String
  source : Option ExpenseSource
  transactionDate : Option Date

structure UpdateExpenseDto where
  expenseCategoryId : Option Uuid
  name : Option String
  amount : Option ℚ
  loanId : Option Uuid
  notes : Option String
  source : Option ExpenseSource
  transactionDate : Option Date

/-! ### Exceptions -/

def expenseNotFoundError (expenseId : Uuid) : Error :=
  .httpException 404 s!"Expense with ID {expenseId} not found"

def expenseCategoryNotFoundError (categoryId : Uuid) : Error :=
  .httpException 404 s!"Expense category with ID {categoryId} not found"

def insufficientFundsError (source : String) : Error :=
  .httpException 400 s!"Insufficient funds in {source} balance"

def expenseValidationError (message : String) : Error :=
  .httpException 400 s!"Expense validation failed: {message}"

/-! ### Repositories -/

def findExpenseCategoryByCode (code : String) : Program (Option ExpenseCategory) :=
  onPool (select fun d => (d.rows .expenseCategories).find? fun c => decide (c.code = code))

def findExpenseCategoryById (id : Uuid) : Program (Option ExpenseCategory) :=
  onPool (select fun d => d.find .expenseCategories id)

/-- The columns of a new row of `expenses`. -/
structure NewExpense where
  expenseCategoryId : Uuid
  name : String
  shuAmount : ℚ
  capitalAmount : ℚ
  txnDate : Date
  createdBy : Uuid
  loanId : Option Uuid
  notes : Option String
  source : ExpenseSource

def NewExpense.toRow (data : NewExpense) (id : Uuid) : Except Error Expense := do
  let shuAmount ← money data.shuAmount
  let capitalAmount ← money data.capitalAmount
  if h : 0 < shuAmount.units + capitalAmount.units then
    pure {
      id, expenseCategoryId := data.expenseCategoryId, name := data.name, shuAmount, capitalAmount,
      createdBy := data.createdBy, loanId := data.loanId, notes := data.notes,
      source := some data.source, txnDate := data.txnDate, amountsPositive := h }
  else throw (.checkViolation "chk_expense_amounts_positive")

def createExpenseRow (id : Uuid) (data : NewExpense) : Program Expense :=
  inTrx (insertInto .expenses (data.toRow id))

/-- An expense with its category. -/
def findByIdWithCategory (id : Uuid) : Program (Option (Expense × Option ExpenseCategory)) :=
  onPool (select fun d =>
    (d.find .expenses id).map fun e => (e, d.find .expenseCategories e.expenseCategoryId))

/-- What an expense takes from each bucket, in the four decimals of the columns. -/
structure Allocation where
  shuAmount : ℚ
  capitalAmount : ℚ

/-- The columns an update of an expense sets. -/
structure UpdateExpense where
  amounts : Option Allocation
  expenseCategoryId : Option Uuid
  name : Option String
  loanId : Option Uuid
  notes : Option String
  txnDate : Option Date

def UpdateExpense.set (data : UpdateExpense) (r : Expense) : Except Error Expense := do
  let shuAmount ← data.amounts.elim (pure r.shuAmount) fun a => money a.shuAmount
  let capitalAmount ← data.amounts.elim (pure r.capitalAmount) fun a => money a.capitalAmount
  if h : 0 < shuAmount.units + capitalAmount.units then
    pure { r with
      shuAmount, capitalAmount
      expenseCategoryId := data.expenseCategoryId.getD r.expenseCategoryId
      name := data.name.getD r.name
      loanId := data.loanId <|> r.loanId
      notes := data.notes <|> r.notes
      txnDate := data.txnDate.getD r.txnDate
      amountsPositive := h }
  else throw (.checkViolation "chk_expense_amounts_positive")

def updateExpenseById (label : Label) (id : Uuid) (data : UpdateExpense) :
    Program (Option Expense) :=
  inTrx (updateById label .expenses id data.set)

/-- Deleting an expense sets `expense_id` of its ledger rows to null (`ON DELETE SET NULL`). -/
def deleteExpenseById (id : Uuid) : Program (Option Expense) :=
  inTrx (statement .other (fun _ => []) fun d =>
    match d.find .expenses id with
    | none => pure ([], none)
    | some e => do
        let ws ← updateRows (d.apply (.delete .expenses id)) .cashbookTransactions
          CashbookTransaction.disown
          ((d.rows .cashbookTransactions).filter (Owner.expense id).owns)
        pure (.delete .expenses id :: ws, some e))

/-! ### ExpensesService -/

/-- The numbers that `allocateAmounts` returns. -/
structure Split where
  shuAmount : Double
  capitalAmount : Double

/-- The numbers go into columns of four decimals, of the expense and of its ledger row. -/
def Split.stored (s : Split) : Allocation := ⟨s.shuAmount.toNumeric 4, s.capitalAmount.toNumeric 4⟩

/-- The decision of `allocateAmounts` on the balances it has locked. -/
def allocate (totalAmount : Double) (source : Option ExpenseSource)
    (shuBalance capitalBalance : Double) : Except Error Split :=
  match source with
  | some .shu =>
      if shuBalance < totalAmount then throw (insufficientFundsError "shu")
      else pure ⟨totalAmount, 0⟩
  | some .capital =>
      if capitalBalance < totalAmount then throw (insufficientFundsError "capital")
      else pure ⟨0, totalAmount⟩
  | some .total =>
      if shuBalance + capitalBalance < totalAmount then throw (insufficientFundsError "total")
      else if totalAmount ≤ capitalBalance then pure ⟨0, totalAmount⟩
      else pure ⟨totalAmount - capitalBalance, capitalBalance⟩
  | some .auto =>
      if totalAmount ≤ capitalBalance then pure ⟨0, totalAmount⟩
      else if totalAmount ≤ shuBalance + capitalBalance then
        pure ⟨totalAmount - capitalBalance, capitalBalance⟩
      else throw (insufficientFundsError "auto")
  | none => throw (expenseValidationError "Unsupported expense source: undefined")

/-- A balance as a number, with what is given back added to it. -/
def restored (balance : ℚ) (restore : Option ℚ) : Double :=
  .ofRat balance + restore.elim 0 .ofRat

/-- `restore` is what the expense being corrected has already taken from each bucket. -/
def allocateAmounts (totalAmount : ℚ) (source : Option ExpenseSource)
    (restore : Option Allocation) : Program Allocation := do
  let (shu, capital) ← inTrx (selectForUpdate (fun _ => [.balance .shu, .balance .capital])
    fun d => (d.balance .shu, d.balance .capital))
  let shuBalance := restored shu (restore.map (·.shuAmount))
  let capitalBalance := restored capital (restore.map (·.capitalAmount))
  match allocate (.ofRat totalAmount) source shuBalance capitalBalance with
  | .error e => .throw e
  | .ok split => pure split.stored

/-- The ids the columns' defaults draw in one call. -/
structure ExpenseIds where
  expense : Uuid
  ledger : Uuid
  reversal : Uuid

def createExpenseInTransaction (ids : ExpenseIds) (dto : CreateExpenseDto) (currentUserId : Uuid)
    (now : Date) : Program Expense := do
  match ← findExpenseCategoryById dto.expenseCategoryId with
  | none => .throw (expenseCategoryNotFoundError dto.expenseCategoryId)
  | some category => do
      let effectiveSource := dto.source.getD category.defaultSource
      let allocation ← allocateAmounts dto.amount (some effectiveSource) none
      let expense ← createExpenseRow ids.expense {
        expenseCategoryId := dto.expenseCategoryId
        name := dto.name
        shuAmount := allocation.shuAmount
        capitalAmount := allocation.capitalAmount
        txnDate := dto.transactionDate.getD now
        createdBy := currentUserId
        loanId := dto.loanId
        notes := dto.notes
        source := effectiveSource }
      let _ ← createExpenseTransaction ids.ledger expense.id allocation.shuAmount
        allocation.capitalAmount (some expense.txnDate) now
      pure expense

def maxAmount : ℚ := 9999999999999999 / 10 ^ 4

/-- The checks of an amount that `createExpense` and `updateExpense` share. -/
def checkAmount (amount : ℚ) : Except Error Unit :=
  if amount ≤ 0 then throw (.invalidExpenseAmount amount)
  else if maxAmount < amount then throw (.expenseAmountTooLarge amount)
  else pure ()

/-- The response of a call: the expense as it is read again after the commit. -/
def readExpense (id : Uuid) : Program Expense := do
  match ← findByIdWithCategory id with
  | none => .throw (.error "Cannot read properties of null (reading 'shu_amount')")
  | some (expense, _) => pure expense

def createExpense (ids : ExpenseIds) (dto : CreateExpenseDto) (currentUserId : Uuid) (now : Date) :
    Program Expense := do
  match checkAmount dto.amount with
  | .error e => .throw e
  | .ok () => do
      let result ← createExpenseInTransaction ids dto currentUserId now
      commitTrx
      readExpense result.id

/-- The new category of an update, when it names one. -/
def findNewCategory (dto : UpdateExpenseDto) : Program (Option ExpenseCategory) := do
  match dto.expenseCategoryId with
  | none => pure none
  | some categoryId =>
      match ← findExpenseCategoryById categoryId with
      | none => .throw (expenseCategoryNotFoundError categoryId)
      | some category => pure (some category)

/-- What an expense has taken. -/
def Expense.allocation (e : Expense) : Allocation := ⟨e.shuAmount.toRat, e.capitalAmount.toRat⟩

/-- A new amount is allocated with the old one given back first. -/
def reallocate (dto : UpdateExpenseDto) (existing : Expense)
    (effectiveCategory : Option ExpenseCategory) : Program (Option Allocation) :=
  match dto.amount with
  | none => pure none
  | some amount => do
      let allocation ← allocateAmounts amount
        (dto.source <|> existing.source <|> effectiveCategory.map (·.defaultSource))
        (some existing.allocation)
      pure (some allocation)

/-- An update with a new date and no new amounts posts the existing ones again. -/
def repostLabel (id : Uuid) (amounts : Option Allocation) (transactionDate : Option Date)
    (existing : Expense) : Label :=
  if amounts.isNone && transactionDate.isSome then
    .repostExpense id existing.allocation.shuAmount existing.allocation.capitalAmount
  else .other

/-- The transaction of `updateExpense`. The existing expense was read before it, without a lock. -/
def updateExpenseInTransaction (ids : ExpenseIds) (id : Uuid) (dto : UpdateExpenseDto)
    (existing : Expense) (effectiveCategory : Option ExpenseCategory) (now : Date) :
    Program Unit := do
  let amounts ← reallocate dto existing effectiveCategory
  let _ ← updateExpenseById (repostLabel id amounts dto.transactionDate existing) id {
    amounts := amounts
    expenseCategoryId := dto.expenseCategoryId
    name := dto.name
    loanId := dto.loanId
    notes := dto.notes
    txnDate := dto.transactionDate }
  if amounts.isSome || dto.transactionDate.isSome then
    let posted := amounts.getD existing.allocation
    updateExpenseTransaction ids.reversal ids.ledger id posted.shuAmount posted.capitalAmount
      dto.transactionDate now
  else pure ()

def updateExpense (ids : ExpenseIds) (id : Uuid) (dto : UpdateExpenseDto) (now : Date) :
    Program Expense := do
  match ← findByIdWithCategory id with
  | none => .throw (expenseNotFoundError id)
  | some (existing, category) =>
      match dto.amount.elim (.ok ()) checkAmount with
      | .error e => .throw e
      | .ok () => do
          let newCategory ← findNewCategory dto
          updateExpenseInTransaction ids id dto existing (newCategory <|> category) now
          commitTrx
          readExpense id

def deleteExpense (id : Uuid) (now : Date) : Program Unit := do
  match ← onPool (select fun d => d.find .expenses id) with
  | none => .throw (expenseNotFoundError id)
  | some _ => do
      deleteExpenseTransaction id now
      let _ ← deleteExpenseById id
      commitTrx

end LumbungMesari
