import LumbungMesari.Database

/-!
# SQL statements

The statements the repositories issue: plain selects, `SELECT .. FOR UPDATE`, and inserts, updates
and deletes with the constraints and triggers PostgreSQL runs inside them.
-/

namespace LumbungMesari

open Sql

/-- What a call can throw: an error of PostgreSQL, or an exception of the service with its HTTP
status. -/
inductive Error where
  | uniqueViolation
  | foreignKeyViolation
  | checkViolation (constraint : String)
  | numericFieldOverflow
  /-- `RAISE EXCEPTION` -/
  | raised (message : String)
  /-- The guard of `cashbook_insert_balance`. -/
  | insufficientBalance (b : BalanceType) (available required : ℤ)
  /-- `new Error(message)` -/
  | error (message : String)
  | httpException (status : ℕ) (message : String)
  /-- `Invalid expense amount: ${amount}. Amount must be a positive number` -/
  | invalidExpenseAmount (amount : ℚ)
  /-- `Amount ${amount} exceeds maximum allowed value of 999,999,999,999.9999` -/
  | expenseAmountTooLarge (amount : ℚ)
  /-- `BadRequestException` with the message of a `DatabaseError`. -/
  | badRequest (cause : Error)
  /-- A deadlock, a timeout or a lost connection. -/
  | connection
  deriving DecidableEq, Repr

/-- The names of the statements that runs are described by. -/
inductive Label where
  | other
  | updateInstallmentStatus (installmentId : Uuid)
  | addPenaltyToInstallment (installmentId : Uuid)
  | settleInstallment (installmentId : Uuid)
  | updateMandatorySavings (id : Uuid)
  | updateUserStatus (userId : Uuid)
  /-- A refund of the net amounts a deletion of an expense computed. -/
  | adjustBalance (expenseId : Uuid) (netShu netCapital : ℚ)
  /-- An update of an expense that posts the amounts it has read before its transaction. -/
  | repostExpense (expenseId : Uuid) (shuAmount capitalAmount : ℚ)
  deriving DecidableEq

abbrev Statement (β : Type) := Stmt Database Write LockTarget Label Error β

abbrev Program (α : Type) := Prog Database Write LockTarget Label Error α

abbrev Trx := Session Write LockTarget

abbrev Locks := List (LockTarget × LockMode)

variable {β : Type}

/-- A statement takes the locks of its writes and those it names. -/
def statement (label : Label) (locks : Database → Locks)
    (exec : Database → Except Error (List Write × β)) : Statement β where
  label := label
  locks d := locks d ++
    match exec d with
    | .ok (ws, _) => ws.flatMap needs
    | .error _ => []
  exec := exec
  covered := by
    intro d ws b hexec w hw
    rw [hexec]
    exact fun k hk => List.mem_append_right _ (List.mem_flatMap.2 ⟨w, hw, hk⟩)

def select (read : Database → β) : Statement β :=
  statement .other (fun _ => []) fun d => .ok ([], read d)

def selectForUpdate (targets : Database → List LockTarget) (read : Database → β) : Statement β :=
  statement .other (fun d => (targets d).map (·, .update)) fun d => .ok ([], read d)

/-! ### Column values -/

/-- What a `DECIMAL(12, 4)` column stores. -/
def money (q : ℚ) : Except Error Money :=
  match Numeric.ofRat? q with
  | some m => .ok m
  | none => .error .numericFieldOverflow

theorem money_ok {q : ℚ} {m : Money} (h : money q = .ok m) : Numeric.ofRat? q = some m := by
  unfold money at h
  split at h
  · cases h
    assumption
  · cases h

/-! ### Triggers -/

/-- `UPDATE cashbook_balances SET balance = balance + delta`, with the column's range and
`chk_cashbook_balance_non_negative`. -/
def updateBalance (d : Database) (b : BalanceType) (delta : ℤ) : Except Error (List Write) :=
  if 10 ^ 12 ≤ (d.balances b + delta).natAbs then .error .numericFieldOverflow
  else if d.balances b + delta < 0 then .error (.checkViolation "chk_cashbook_balance_non_negative")
  else .ok [.addBalance b delta]

/-- A bucket is updated when its amount is positive. -/
def moveBucket (d : Database) (b : BalanceType) (sign amount : ℤ) : Except Error (List Write) :=
  if 0 < amount then updateBalance d b (sign * amount) else pure []

/-- The balance updates both cashbook triggers make for one direction: the buckets, and the
total. -/
def moveBalances (d : Database) (sign : ℤ) (shuAmount capitalAmount : ℤ) :
    Except Error (List Write) := do
  let shu ← moveBucket d .shu sign shuAmount
  let capital ← moveBucket d .capital sign capitalAmount
  let total ← updateBalance d .total (sign * (shuAmount + capitalAmount))
  pure (shu ++ capital ++ total)

/-- `cashbook_insert_balance`, run after a cashbook row is inserted. -/
def cashbookInsertBalance (d : Database) (new : CashbookTransaction) : Except Error (List Write) :=
  match new.direction with
  | .in_ => moveBalances d 1 new.shuAmount.units new.capitalAmount.units
  | .out =>
      if 0 < new.shuAmount.units ∧ d.balances .shu < new.shuAmount.units then
        .error (.insufficientBalance .shu (d.balances .shu) new.shuAmount.units)
      else if 0 < new.capitalAmount.units ∧ d.balances .capital < new.capitalAmount.units then
        .error (.insufficientBalance .capital (d.balances .capital) new.capitalAmount.units)
      else moveBalances d (-1) new.shuAmount.units new.capitalAmount.units

/-- `cashbook_update_balance`, run after a cashbook row is updated. -/
def cashbookUpdateBalance (d : Database) (old new : CashbookTransaction) :
    Except Error (List Write) :=
  if old.shuAmount ≠ new.shuAmount ∨ old.capitalAmount ≠ new.capitalAmount ∨
      old.direction ≠ new.direction then do
    let reversed ← moveBalances d (match old.direction with | .in_ => -1 | .out => 1)
      old.shuAmount.units old.capitalAmount.units
    let applied ← moveBalances (applyAll d reversed)
      (match new.direction with | .in_ => 1 | .out => -1)
      new.shuAmount.units new.capitalAmount.units
    pure (reversed ++ applied)
  else pure []

/-- The statuses `trg_check_max_loans` counts. -/
def LoanStatus.open : LoanStatus → Bool
  | .pending => true
  | .approved => true
  | .active => true
  | _ => false

def maxLoansMessage : String :=
  "User cannot have more than 3 loans in pending/approved/active status"

/-- `check_max_loans_per_user`, run before a loan is inserted or updated. -/
def checkMaxLoansPerUser (d : Database) (new : Loan) : Except Error Unit :=
  if new.status.open ∧
      3 ≤ (d.rows .loans).countP (fun l => l.userId = new.userId ∧ l.status.open ∧ l.id ≠ new.id)
  then .error (.raised maxLoansMessage)
  else .ok ()

def beforeWrite (d : Database) : (t : TableName) → Row t → Except Error Unit
  | .loans, r => checkMaxLoansPerUser d r
  | _, _ => .ok ()

def afterInsert (d : Database) : (t : TableName) → Row t → Except Error (List Write)
  | .cashbookTransactions, r => cashbookInsertBalance d r
  | _, _ => .ok []

def afterUpdate (d : Database) : (t : TableName) → Row t → Row t → Except Error (List Write)
  | .cashbookTransactions, old, new => cashbookUpdateBalance d old new
  | _, _, _ => .ok []

/-! ### Inserts, updates -/

namespace Database

/-- Some row has the entry in a unique index. -/
def taken (d : Database) (t : TableName) (k : UniqueKey) : Bool :=
  (d.rows t).any fun r => decide (k ∈ Row.uniqueKeys t r)

def exists? (d : Database) (ref : TableName × Uuid) : Bool := (d.find ref.1 ref.2).isSome

end Database

/-- One row of an `INSERT`. -/
def insertRow (d : Database) (t : TableName) (r : Row t) : Except Error (List Write) := do
  beforeWrite d t r
  if d.exists? (t, Row.id t r) || (Row.uniqueKeys t r).any (d.taken t) then
    throw .uniqueViolation
  if !(Row.references t r).all d.exists? then
    throw .foreignKeyViolation
  let ws ← afterInsert d t r
  pure (.insert t r :: ws)

/-- The rows of an `INSERT`, one after another. -/
def insertRows (d : Database) (t : TableName) : List (Row t) → Except Error (List Write)
  | [] => pure []
  | r :: rs => do
      let ws ← insertRow d t r
      let ws' ← insertRows (applyAll d ws) t rs
      pure (ws ++ ws')

/-- `INSERT .. RETURNING *` of one row, whose column values may be rejected. -/
def insertInto (t : TableName) (row : Except Error (Row t)) : Statement (Row t) :=
  statement .other (fun _ => []) fun d => do
    let r ← row
    let ws ← insertRow d t r
    pure (ws, r)

/-- `INSERT .. RETURNING *` of several rows. -/
def insertAll (t : TableName) (rows : Except Error (List (Row t))) : Statement (List (Row t)) :=
  statement .other (fun _ => []) fun d => do
    let rs ← rows
    let ws ← insertRows d t rs
    pure (ws, rs)

/-- One row of an `INSERT .. ON CONFLICT (..) DO NOTHING`. It is left out when its entry in the unique
index is taken. -/
def insertRowIgnoring (d : Database) (t : TableName) (key : Row t → UniqueKey) (r : Row t) :
    Except Error (List Write) :=
  if d.taken t (key r) then pure [] else insertRow d t r

/-- The rows of an `INSERT .. ON CONFLICT (..) DO NOTHING`, one after another. -/
def insertRowsIgnoring (d : Database) (t : TableName) (key : Row t → UniqueKey) :
    List (Row t) → Except Error (List Write)
  | [] => pure []
  | r :: rs => do
      let ws ← insertRowIgnoring d t key r
      let ws' ← insertRowsIgnoring (applyAll d ws) t key rs
      pure (ws ++ ws')

/-- `INSERT .. ON CONFLICT (..) DO NOTHING` of several rows. -/
def insertAllIgnoring (t : TableName) (key : Row t → UniqueKey)
    (rows : Except Error (List (Row t))) : Statement Unit :=
  statement .other (fun _ => []) fun d => do
    let rs ← rows
    let ws ← insertRowsIgnoring d t key rs
    pure (ws, ())

/-- A statement whose errors are caught and thrown as others. -/
def catchError (st : Statement β) (f : Error → Error) : Statement β where
  label := st.label
  locks := st.locks
  exec d := (st.exec d).mapError f
  covered := by
    intro d ws b hexec
    cases hst : st.exec d with
    | error e =>
        rw [hst] at hexec
        cases hexec
    | ok a =>
        rw [hst] at hexec
        cases hexec
        exact st.covered hst

/-- The foreign keys an update sets anew. -/
def newReferences (t : TableName) (old new : Row t) : List (TableName × Uuid) :=
  (Row.references t new).filter fun ref => decide (ref ∉ Row.references t old)

/-- One row of an `UPDATE`. No update of this repository changes a key. -/
def updateRow (d : Database) (t : TableName) (old new : Row t) : Except Error (List Write) := do
  beforeWrite d t new
  if !(newReferences t old new).all d.exists? then
    throw .foreignKeyViolation
  let ws ← afterUpdate d t old new
  pure (.update t new :: ws)

/-- `UPDATE .. WHERE id = .. RETURNING *`. -/
def updateById (label : Label) (t : TableName) (id : Uuid)
    (set : Row t → Except Error (Row t)) : Statement (Option (Row t)) :=
  statement label
    (fun d =>
      match d.find t id with
      | none => []
      | some old =>
          match set old with
          | .error _ => []
          | .ok new => (newReferences t old new).map fun ref => (.row ref.1 ref.2, .keyShare))
    fun d =>
      match d.find t id with
      | none => pure ([], none)
      | some old => do
          let new ← set old
          let ws ← updateRow d t old new
          pure (ws, some new)

/-- The rows of an `UPDATE`, one after another. -/
def updateRows (d : Database) (t : TableName) (set : Row t → Row t) :
    List (Row t) → Except Error (List Write)
  | [] => pure []
  | old :: rest => do
      let ws ← updateRow d t old (set old)
      let ws' ← updateRows (applyAll d ws) t set rest
      pure (ws ++ ws')

/-- `UPDATE .. WHERE ..` of the rows that meet a condition. -/
def updateWhere (t : TableName) (p : Row t → Bool) (set : Row t → Row t) : Statement Unit :=
  statement .other (fun _ => []) fun d => do
    let ws ← updateRows d t set ((d.rows t).filter p)
    pure (ws, ())

end LumbungMesari
