import LumbungMesari.Statements

/-!
# The cashbook

`CashbookBalanceRepository`, `CashbookTransactionRepository` and `CashbookTransactionService`. A
ledger row belongs to an income or to an expense; the functions that come once for each of the two
are one function of the owner here.
-/

namespace LumbungMesari

open Sql
open Prog (inTrx onPool commitTrx)

/-! ### CashbookBalanceRepository -/

/-- The value a balance is read as. -/
def Database.balance (d : Database) (b : BalanceType) : ℚ := d.balances b / 10 ^ 4

structure Balances where
  shu : ℚ
  capital : ℚ
  total : ℚ

def lockAllForUpdate : Program Balances :=
  inTrx (selectForUpdate (fun _ => [.balance .shu, .balance .capital, .balance .total]) fun d =>
    ⟨d.balance .shu, d.balance .capital, d.balance .total⟩)

def getBalance (balanceType : BalanceType) : Program ℚ :=
  inTrx (selectForUpdate (fun _ => [.balance balanceType]) fun d => d.balance balanceType)

/-- Every increment the code makes is a whole number of units. -/
def adjustBalance (label : Label) (type : BalanceType) (delta : ℚ) : Program Unit :=
  inTrx (statement label (fun _ => []) fun d => do
    let ws ← updateBalance d type (roundHalfAway (delta * 10 ^ 4))
    pure (ws, ()))

/-! ### CashbookTransactionRepository -/

/-- The income or the expense a ledger row is posted for. -/
inductive Owner where
  | income (id : Uuid)
  | expense (id : Uuid)
  deriving DecidableEq

namespace Owner

def incomeId : Owner → Option Uuid
  | income id => some id
  | expense _ => none

def expenseId : Owner → Option Uuid
  | income _ => none
  | expense id => some id

/-- The direction of an entry of the owner. -/
def direction : Owner → Direction
  | income _ => .in_
  | expense _ => .out

def owns (o : Owner) (r : CashbookTransaction) : Bool :=
  match o with
  | income id => r.incomeId = some id
  | expense id => r.expenseId = some id

end Owner

def Direction.opposite : Direction → Direction
  | in_ => out
  | out => in_

def Direction.sign : Direction → ℤ
  | in_ => 1
  | out => -1

namespace CashbookTransaction

/-- The rows of the history: not deleted, not a reversal. -/
def visible (r : CashbookTransaction) : Bool := r.deletedAt.isNone && !r.isReversal

end CashbookTransaction

/-- The columns of a new row of `cashbook_transactions`. -/
structure CashbookTransactionData where
  txnDate : Date
  direction : Direction
  shuAmount : ℚ
  capitalAmount : ℚ
  shuBalanceBefore : ℚ
  shuBalanceAfter : ℚ
  capitalBalanceBefore : ℚ
  capitalBalanceAfter : ℚ
  totalBalanceBefore : ℚ
  totalBalanceAfter : ℚ
  owner : Owner
  isReversal : Bool
  reversalOf : Option Uuid

def CashbookTransactionData.toRow (data : CashbookTransactionData) (id : Uuid) :
    Except Error CashbookTransaction := do
  let shuAmount ← money data.shuAmount
  let capitalAmount ← money data.capitalAmount
  let shuBalanceBefore ← money data.shuBalanceBefore
  let shuBalanceAfter ← money data.shuBalanceAfter
  let capitalBalanceBefore ← money data.capitalBalanceBefore
  let capitalBalanceAfter ← money data.capitalBalanceAfter
  let totalBalanceBefore ← money data.totalBalanceBefore
  let totalBalanceAfter ← money data.totalBalanceAfter
  if h : 0 < shuAmount.units + capitalAmount.units then
    pure {
      id, txnDate := data.txnDate, direction := data.direction, shuAmount, capitalAmount,
      shuBalanceBefore, shuBalanceAfter, capitalBalanceBefore, capitalBalanceAfter,
      totalBalanceBefore, totalBalanceAfter, incomeId := data.owner.incomeId,
      expenseId := data.owner.expenseId, isReversal := data.isReversal,
      reversalOf := data.reversalOf, deletedAt := none, amountsPositive := h }
  else throw (.checkViolation "chk_cashbook_amounts_positive")

def createTransaction (id : Uuid) (data : CashbookTransactionData) : Program CashbookTransaction :=
  inTrx (insertInto .cashbookTransactions (data.toRow id))

/-- The newest visible row of an owner. Rows are in insertion order. -/
def findLatestActive (o : Owner) : Program (Option CashbookTransaction) :=
  inTrx (select fun d => (d.rows .cashbookTransactions).reverse.find? fun r => o.owns r && r.visible)

def findLatestActiveByExpenseId (expenseId : Uuid) : Program (Option CashbookTransaction) :=
  findLatestActive (.expense expenseId)

def findLatestActiveByIncomeId (incomeId : Uuid) : Program (Option CashbookTransaction) :=
  findLatestActive (.income incomeId)

/-- Every row of an owner, deleted rows included. -/
def findAll (o : Owner) : Program (List CashbookTransaction) :=
  inTrx (select fun d => (d.rows .cashbookTransactions).filter o.owns)

def findAllByExpenseId (expenseId : Uuid) : Program (List CashbookTransaction) :=
  findAll (.expense expenseId)

def findAllByIncomeId (incomeId : Uuid) : Program (List CashbookTransaction) :=
  findAll (.income incomeId)

def CashbookTransaction.softDelete (now : Date) (r : CashbookTransaction) : CashbookTransaction :=
  { r with deletedAt := some now }

/-- What `ON DELETE SET NULL` leaves of a row whose expense is deleted. -/
def CashbookTransaction.disown (r : CashbookTransaction) : CashbookTransaction :=
  { r with expenseId := none }

def softDeleteById (id : Uuid) (now : Date) : Program Unit :=
  inTrx (updateWhere .cashbookTransactions (fun r => decide (r.id = id) && r.deletedAt.isNone)
    (.softDelete now))

/-- The rows to update are picked when the statement starts and looked at again under their locks;
rows that were committed while it waited are not picked. -/
def softDelete (o : Owner) (now : Date) : Program Unit := do
  let ids ← inTrx (select fun d =>
    ((d.rows .cashbookTransactions).filter fun r => o.owns r && r.deletedAt.isNone).map (·.id))
  inTrx (updateWhere .cashbookTransactions
    (fun r => decide (r.id ∈ ids) && (o.owns r && r.deletedAt.isNone)) (.softDelete now))

def softDeleteByExpenseId (expenseId : Uuid) (now : Date) : Program Unit :=
  softDelete (.expense expenseId) now

def softDeleteByIncomeId (incomeId : Uuid) (now : Date) : Program Unit :=
  softDelete (.income incomeId) now

/-! ### CashbookTransactionService -/

/-- The ledger row of an income, with the balances before and after it. -/
def incomeEntry (incomeId : Uuid) (amount : ℚ) (destination : IncomeDestination)
    (before : Balances) (txnDate : Date) : CashbookTransactionData :=
  let shuAmount := if destination = .shu then amount else 0
  let capitalAmount := if destination = .capital then amount else 0
  { txnDate
    direction := .in_
    shuAmount
    capitalAmount
    shuBalanceBefore := before.shu
    shuBalanceAfter := before.shu + shuAmount
    capitalBalanceBefore := before.capital
    capitalBalanceAfter := before.capital + capitalAmount
    totalBalanceBefore := before.total
    totalBalanceAfter := before.total + amount
    owner := .income incomeId
    isReversal := false
    reversalOf := none }

def createIncomeTransaction (id incomeId : Uuid) (amount : ℚ) (destination : IncomeDestination)
    (txnDate : Option Date) (now : Date) : Program CashbookTransaction := do
  let before ← lockAllForUpdate
  createTransaction id (incomeEntry incomeId amount destination before (txnDate.getD now))

/-- The ledger row of an expense. -/
def expenseEntry (expenseId : Uuid) (shuAmount capitalAmount : ℚ) (before : Balances)
    (txnDate : Date) : CashbookTransactionData where
  txnDate := txnDate
  direction := .out
  shuAmount := shuAmount
  capitalAmount := capitalAmount
  shuBalanceBefore := before.shu
  shuBalanceAfter := before.shu - shuAmount
  capitalBalanceBefore := before.capital
  capitalBalanceAfter := before.capital - capitalAmount
  totalBalanceBefore := before.total
  totalBalanceAfter := before.total - (shuAmount + capitalAmount)
  owner := .expense expenseId
  isReversal := false
  reversalOf := none

def createExpenseTransaction (id expenseId : Uuid) (shuAmount capitalAmount : ℚ)
    (txnDate : Option Date) (now : Date) : Program CashbookTransaction := do
  let before ← lockAllForUpdate
  createTransaction id (expenseEntry expenseId shuAmount capitalAmount before (txnDate.getD now))

/-- The balances after the reversal of an entry. -/
def afterReversal (o : Owner) (original : CashbookTransaction) (current : Balances) : Balances where
  shu := current.shu - o.direction.sign * original.shuAmount.toRat
  capital := current.capital - o.direction.sign * original.capitalAmount.toRat
  total := current.total -
    o.direction.sign * (original.shuAmount.toRat + original.capitalAmount.toRat)

/-- The row that takes an entry of an owner back. -/
def reversalEntry (o : Owner) (original : CashbookTransaction) (current : Balances) :
    CashbookTransactionData where
  txnDate := original.txnDate
  direction := o.direction.opposite
  shuAmount := original.shuAmount.toRat
  capitalAmount := original.capitalAmount.toRat
  shuBalanceBefore := current.shu
  shuBalanceAfter := (afterReversal o original current).shu
  capitalBalanceBefore := current.capital
  capitalBalanceAfter := (afterReversal o original current).capital
  totalBalanceBefore := current.total
  totalBalanceAfter := (afterReversal o original current).total
  owner := o
  isReversal := true
  reversalOf := some original.id

/-- The row that posts the corrected amounts. Its snapshots are computed, not read again. -/
def correctedEntry (o : Owner) (newShuAmount newCapitalAmount : ℚ) (reversed : Balances)
    (txnDate : Date) : CashbookTransactionData where
  txnDate := txnDate
  direction := o.direction
  shuAmount := newShuAmount
  capitalAmount := newCapitalAmount
  shuBalanceBefore := reversed.shu
  shuBalanceAfter := reversed.shu + o.direction.sign * newShuAmount
  capitalBalanceBefore := reversed.capital
  capitalBalanceAfter := reversed.capital + o.direction.sign * newCapitalAmount
  totalBalanceBefore := reversed.total
  totalBalanceAfter := reversed.total + o.direction.sign * (newShuAmount + newCapitalAmount)
  owner := o
  isReversal := false
  reversalOf := none

/-- The immutable-ledger correction behind `updateExpenseTransaction` and `updateIncomeTransaction`:
hide the entry, insert its reversal, insert the new entry. -/
def updateTransaction (reversalId newId : Uuid) (o : Owner) (notFound : Error)
    (newShuAmount newCapitalAmount : ℚ) (txnDate : Option Date) (now : Date) : Program Unit := do
  match ← findLatestActive o with
  | none => .throw notFound
  | some original => do
      let current ← lockAllForUpdate
      softDeleteById original.id now
      let _ ← createTransaction reversalId (reversalEntry o original current)
      let _ ← createTransaction newId (correctedEntry o newShuAmount newCapitalAmount
        (afterReversal o original current) (txnDate.getD original.txnDate))
      pure ()

def updateExpenseTransaction (reversalId newId expenseId : Uuid)
    (newShuAmount newCapitalAmount : ℚ) (txnDate : Option Date) (now : Date) : Program Unit :=
  updateTransaction reversalId newId (.expense expenseId)
    (.error s!"Cashbook transaction not found for expense {expenseId}")
    newShuAmount newCapitalAmount txnDate now

def updateIncomeTransaction (reversalId newId incomeId : Uuid) (amount : ℚ)
    (destination : IncomeDestination) (txnDate : Option Date) (now : Date) : Program Unit :=
  updateTransaction reversalId newId (.income incomeId)
    (.error s!"Cashbook transaction not found for income {incomeId}")
    (if destination = .shu then amount else 0) (if destination = .capital then amount else 0)
    txnDate now

/-- The signed amounts of ledger rows, added up. -/
def netAmount (amount : CashbookTransaction → Money) (rows : List CashbookTransaction) : ℚ :=
  rows.foldl (fun net r => net + r.direction.sign * (amount r).toRat) 0

/-- A balance is adjusted when there is something to take back from it. -/
def takeBack (label : Label) (type : BalanceType) (netAmount : ℚ) : Program Unit :=
  if netAmount ≠ 0 then adjustBalance label type (-netAmount) else pure ()

/-- `deleteExpenseTransaction` and `deleteIncomeTransaction`: take the net of every row of the owner
back from the balances, then hide the rows. `label` names the balance updates. -/
def deleteTransaction (o : Owner) (label : ℚ → ℚ → Label) (now : Date) : Program Unit := do
  let rows ← findAll o
  if rows.isEmpty then
    pure ()
  else do
    let netShu := netAmount (·.shuAmount) rows
    let netCapital := netAmount (·.capitalAmount) rows
    takeBack (label netShu netCapital) .shu netShu
    takeBack (label netShu netCapital) .capital netCapital
    takeBack (label netShu netCapital) .total (netShu + netCapital)
    softDelete o now

def deleteExpenseTransaction (expenseId : Uuid) (now : Date) : Program Unit :=
  deleteTransaction (.expense expenseId) (.adjustBalance expenseId) now

def deleteIncomeTransaction (incomeId : Uuid) (now : Date) : Program Unit :=
  deleteTransaction (.income incomeId) (fun _ _ => .other) now

end LumbungMesari
