import LumbungMesari.LoanRules
import LumbungMesari.ExpenseRules
import LumbungMesari.ScheduleRules

/-!
# Rules for disbursements

What `createLoan`, `approveLoan`, `rejectLoan` and `disburseLoan` add to a transaction. A
disbursement activates the loan, inserts its schedule, pays the net amount out of capital and books
the retained fee as an income.
-/

namespace LumbungMesari

open Sql
open Prog (inTrx onPool commitTrx)

variable {S : Contract Database LockTarget Label} {d : Database} {s : Trx}

/-! ### Requests and decisions -/

theorem createLoan_wp [S.Stable (W := Write)] {id userId loanPeriodId : Uuid} {amount : ℚ}
    {notes : Option String} {adminFeeRate : ℚ} {now : Date} {Q : Loan → Database → Trx → Prop}
    (h : ∀ d₁ d' loanPeriod loan l, S.env s.locks d d₁ → S.env s.locks d₁ d' →
      d₁.find .loanPeriods loanPeriodId = some loanPeriod →
      LoanCreated id userId loanPeriod amount adminFeeRate loan → Inserted d' .loans loan →
      S.guar l d' (d'.apply (.insert .loans loan)) ∧ Q loan (d'.apply (.insert .loans loan)) s) :
    (createLoan id userId loanPeriodId amount notes adminFeeRate now).wp S Q d s := by
  unfold createLoan findLoanPeriodById
  rw [Prog.wp_bind']
  refine wp_selectOnPool fun d₁ henv₁ => ?_
  split
  · trivial
  rename_i loanPeriod hperiod
  intro d₂ henv₂ ws loan hexec _
  cases hinsert : (insertInto .loans
      (newLoan id userId loanPeriod amount notes adminFeeRate now)).exec d₂ with
  | error e =>
      simp only [catchError, hinsert] at hexec
      cases hexec
  | ok result =>
      simp only [catchError, hinsert] at hexec
      cases hexec
      obtain ⟨loan', hrow, hinsert⟩ := bind_ok hinsert
      obtain ⟨ws', hrows, hinsert⟩ := bind_ok hinsert
      cases hinsert
      obtain ⟨hinserted, rfl⟩ := insertRow_plain (by decide) hrows
      obtain ⟨hguar, hQ⟩ := h d₁ d₂ loanPeriod loan _ henv₁ henv₂ hperiod (newLoan_ok hrow) hinserted
      exact ⟨fun _ => hguar, hQ⟩

theorem loanWithPeriod_some {d : Database} {id : Uuid} {loan : Loan} {loanPeriod : LoanPeriod}
    (h : d.loanWithPeriod id = some (loan, loanPeriod)) :
    d.find .loans id = some loan ∧ d.find .loanPeriods loan.loanPeriodId = some loanPeriod := by
  obtain ⟨loan', hloan, hperiod⟩ := Option.bind_eq_some_iff.1 h
  obtain ⟨loanPeriod', hperiod, hpair⟩ := Option.map_eq_some_iff.1 hperiod
  cases hpair
  exact ⟨hloan, hperiod⟩

theorem decideLoan_wp [S.Stable (W := Write)] {loanId : Uuid} {verb : String} {status : LoanStatus}
    {approvedBy : Option Uuid} {notes : Option String} {now : Date}
    {Q : Unit → Database → Trx → Prop}
    (h : ∀ d' loan l, S.env [] d d' → d'.find .loans loanId = some loan → loan.status = .pending →
      (LockTarget.row .loans loanId, LockMode.update) ∈ l →
      S.guar l d' (d'.apply (.update .loans (loan.setStatus status approvedBy notes now))) ∧
        Q () (d'.apply (.update .loans (loan.setStatus status approvedBy notes now))) .idle) :
    (decideLoan loanId verb status approvedBy notes now).wp S Q d .idle := by
  unfold decideLoan findLoanByIdForUpdate updateLoanStatus
  rw [Prog.wp_bind']
  refine wp_selectForUpdate fun d₁ l₁ henv₁ hlock₁ => ?_
  rw [Session.view_idle] at hlock₁ ⊢
  split
  · trivial
  rename_i loan loanPeriod hloan
  split
  · trivial
  rename_i hpending
  rw [ne_eq, not_not] at hpending
  have hid : loan.id = loanId := Database.find_id (loanWithPeriod_some hloan).1
  rw [hloan] at hlock₁
  have hlock : (LockTarget.row .loans loanId, LockMode.update) ∈ l₁ :=
    hid ▸ hlock₁ (.row .loans loan.id) (List.mem_cons_self ..)
  rw [Prog.wp_bind']
  refine updateOrThrow_wp (by decide) fun d₂ loan₂ new l₂ henv₂ hfind₂ hset _ _ _ => ?_
  obtain rfl : loan₂.setStatus status approvedBy notes now = new := Except.ok.inj hset
  rw [Session.locks_extend] at henv₂
  rw [Session.view_extend_nil, Session.view_idle] at hfind₂
  have hsame : d₁.find .loans loanId = d₂.find .loans loanId :=
    find_view_eq (s := .idle) henv₂ (List.mem_append_right _ hlock) rfl
  rw [(loanWithPeriod_some hloan).1, hfind₂, Option.some.injEq] at hsame
  subst hsame
  rw [extend_extend, List.nil_append]
  refine Prog.wp_commitTrx.2 fun d₃ henv₃ => ?_
  rw [Session.locks_extend] at henv₃
  have hfind₃ : d₃.find .loans loanId = some loan := by
    rw [← hfind₂]
    exact (find_view_eq (s := .idle) henv₃
      (List.mem_append_right _ (List.mem_append_left _ hlock)) rfl).symm
  exact h d₃ loan _ (env_trans henv₁
    (env_trans (env_nil henv₂) (env_nil henv₃))) hfind₃ hpending
    (List.mem_append_right _ (List.mem_append_left _ hlock))

/-! ### Expenses from capital -/

/-- An expense that is paid out of capital, and its ledger row, over the state before them. -/
structure CapitalExpense (d : Database) (ids : ExpenseIds) (dto : CreateExpenseDto) (e : Expense)
    (r : CashbookTransaction) : Prop where
  id : e.id = ids.expense
  loanId : e.loanId = dto.loanId
  fresh : d.find .expenses e.id = none
  rowFresh : d.find .cashbookTransactions r.id = none
  rowId : r.id = ids.ledger
  incomeId : r.incomeId = none
  expenseId : r.expenseId = some e.id
  visible : r.visible = true
  direction : r.direction = .out
  shuAmount : r.shuAmount = 0
  capitalAmount : Numeric.ofRat? dto.amount = some r.capitalAmount

theorem table_insert_expenses (d : Database) (e : Expense) :
    (d.apply (.insert .expenses e)).table .cashbookTransactions = d.table .cashbookTransactions :=
  d.table_insert_ne (t := .expenses) (by decide) e

/-- The writes that record an expense. -/
def spending (e : Expense) (r : CashbookTransaction) : List Write := .insert .expenses e :: r.postings

theorem createCapitalExpense_wp [S.Stable (W := Write)] {ids : ExpenseIds} {dto : CreateExpenseDto}
    {currentUserId : Uuid} {now : Date} {Q : Expense → Database → Trx → Prop}
    {m : Money} (hsource : dto.source = some .capital) (hamount : dto.amount = m.toRat)
    (h : ∀ d' e r l, S.env s.locks d d' → CapitalExpense (s.view d') ids dto e r →
      (spending e r).flatMap needs ⊆ l → Q e d' (s.extend (spending e r) l)) :
    (createExpenseInTransaction ids dto currentUserId now).wp S Q d s := by
  unfold createExpenseInTransaction findExpenseCategoryById allocateAmounts createExpenseRow
  rw [Prog.wp_bind']
  refine wp_selectOnPool fun d₁ henv₁ => ?_
  split
  · trivial
  rw [hsource, Option.getD_some, Prog.wp_bind', Prog.wp_bind']
  refine wp_selectForUpdate fun d₂ l₂ henv₂ _ => ?_
  dsimp only
  split
  · trivial
  rename_i allocation hallocate
  rw [hamount] at hallocate
  rw [Prog.wp_pure, Prog.wp_bind', stored_capital hallocate, ← hamount]
  refine wp_insertInto fun d₃ e ws l₃ henv₃ hrow hinsert hneeds₃ => ?_
  obtain ⟨hinserted, rfl⟩ := insertRow_plain (by decide) hinsert
  have hstored := NewExpense.toRow_ok hrow
  rw [Prog.wp_bind']
  refine createExpenseTransaction_wp fun d₄ r l₄ henv₄ hr hposted _ hneeds₄ => ?_
  rw [extend_extend, extend_extend, Prog.wp_pure, List.nil_append]
  rw [extend_extend, Session.locks_extend, ← List.append_assoc] at henv₄
  rw [Session.locks_extend] at henv₃
  rw [Session.view_extend_nil] at hinserted
  have hrowFresh := hposted.fresh
  rw [extend_extend, List.nil_append, Session.view_extend] at hrowFresh
  have hlock : (LockTarget.row .expenses e.id, LockMode.update) ∈ s.locks ++ l₂ ++ l₃ :=
    List.mem_append_right _ (hneeds₃ (List.mem_append_left _ (List.mem_cons_self ..)))
  refine h d₄ e r _ ?_ ⟨hstored.id, hstored.loanId, ?_, ?_, hr.id, hr.incomeId, hr.expenseId, ?_,
    hr.direction, ?_, hr.capitalAmount⟩ ?_
  · exact env_trans henv₁
      (env_append henv₂ (env_append henv₃ henv₄))
  · rw [← find_view_eq henv₄ hlock rfl]
    exact hinserted.fresh
  · exact (Database.find_congr (table_insert_expenses _ e) r.id).symm.trans hrowFresh
  · rw [hr.visible]
    rfl
  · have hzero := hr.shuAmount
    simp only [expenseEntry, Numeric.ofRat?_zero, Option.some.injEq] at hzero
    exact hzero.symm
  · rw [spending, ← List.singleton_append, List.flatMap_append]
    exact List.append_subset.2
      ⟨List.subset_append_of_subset_right _ (List.subset_append_of_subset_left _ hneeds₃),
        List.subset_append_of_subset_right _ (List.subset_append_of_subset_right _ hneeds₄)⟩

theorem CapitalExpense.env [S.Stable (W := Write)] {ids : ExpenseIds} {dto : CreateExpenseDto}
    {e : Expense} {r : CashbookTransaction} {l : Locks} {d₁ d₂ : Database}
    (h : CapitalExpense (s.view d₁) ids dto e r) (henv : S.env l d₁ d₂)
    (hl : (spending e r).flatMap needs ⊆ l) : CapitalExpense (s.view d₂) ids dto e r :=
  { h with
    fresh := by
      have hlock : (LockTarget.row .expenses e.id, LockMode.update) ∈ l :=
        hl (List.mem_append_left _ (List.mem_cons_self ..))
      rw [← find_view_eq henv hlock rfl]
      exact h.fresh
    rowFresh := by
      rw [← find_view_eq henv (hl (List.mem_append_right _ r.mem_needs_postings)) rfl]
      exact h.rowFresh }

/-! ### Rows inserted together -/

/-- Rows of a table without an insert trigger: none of their keys is in use, and no two of them
share a primary key. -/
structure InsertedTogether (d : Database) (t : TableName) (rs : List (Row t)) : Prop where
  fresh : ∀ r ∈ rs, d.find t (Row.id t r) = none
  nodup : (rs.map (Row.id t)).Nodup
  unique : ∀ r ∈ rs, ∀ k ∈ Row.uniqueKeys t r, d.taken t k = false

theorem taken_insert {t : TableName} {r : Row t} {k : UniqueKey}
    (hfresh : d.find t (Row.id t r) = none) (h : (d.apply (.insert t r)).taken t k = false) :
    d.taken t k = false := by
  rw [Database.taken, Database.rows, Database.table_insert_self, Table.rows_insert hfresh,
    List.any_append, Bool.or_eq_false_iff] at h
  exact h.1

theorem insertRows_plain {t : TableName} {rs : List (Row t)} {ws : List Write}
    (ht : t ≠ .cashbookTransactions) (h : insertRows d t rs = .ok ws) :
    ws = rs.map (Write.insert t) ∧ InsertedTogether d t rs := by
  induction rs generalizing d ws with
  | nil =>
      cases h
      exact ⟨rfl, by simp, List.nodup_nil, by simp⟩
  | cons r rs ih =>
      obtain ⟨ws₁, hrow, h⟩ := bind_ok h
      obtain ⟨ws₂, hrest, h⟩ := bind_ok h
      cases h
      obtain ⟨hinserted, rfl⟩ := insertRow_plain ht hrow
      obtain ⟨rfl, htail⟩ : _ ∧ InsertedTogether (d.apply (.insert t r)) t rs := ih hrest
      have hothers : ∀ r' ∈ rs, Row.id t r ≠ Row.id t r' ∧ d.find t (Row.id t r') = none := by
        intro r' hr'
        have hfresh := htail.fresh r' hr'
        rw [Database.find_insert] at hfresh
        split at hfresh
        · simp at hfresh
        · exact ⟨‹_›, hfresh⟩
      refine ⟨rfl, ?_, List.nodup_cons.2 ⟨?_, htail.nodup⟩, ?_⟩
      · exact List.forall_mem_cons.2 ⟨hinserted.fresh, fun r' hr' => (hothers r' hr').2⟩
      · intro hmem
        obtain ⟨r', hr', hid⟩ := List.mem_map.1 hmem
        exact (hothers r' hr').1 hid.symm
      · exact List.forall_mem_cons.2 ⟨hinserted.unique, fun r' hr' k hk =>
          taken_insert hinserted.fresh (htail.unique r' hr' k hk)⟩

theorem rows_inserts {t : TableName} {rs : List (Row t)}
    (hfresh : ∀ r ∈ rs, d.find t (Row.id t r) = none) (hnodup : (rs.map (Row.id t)).Nodup) :
    (applyAll d (rs.map (Write.insert t))).rows t = d.rows t ++ rs := by
  induction rs generalizing d with
  | nil => simp
  | cons r rs ih =>
      rw [List.map_cons, List.nodup_cons] at hnodup
      rw [List.forall_mem_cons] at hfresh
      rw [List.map_cons, applyAll_cons, Database.store_apply, ih ?_ hnodup.2]
      · rw [Database.rows, Database.table_insert_self, Table.rows_insert hfresh.1,
          List.append_assoc]
        rfl
      · intro r' hr'
        rw [Database.find_insert, if_neg, hfresh.2 r' hr']
        intro hid
        exact hnodup.1 (hid ▸ List.mem_map_of_mem hr')

theorem table_inserts_ne {t t' : TableName} (h : t ≠ t') (rs : List (Row t)) :
    (applyAll d (rs.map (Write.insert t))).table t' = d.table t' :=
  Database.table_applyAll fun w hw => by
    obtain ⟨r, -, rfl⟩ := List.mem_map.1 hw
    simpa [Write.table?] using h

theorem createInstallments_wp {installments : Except Error (List Installment)}
    {Q : List Installment → Database → Trx → Prop}
    (h : ∀ d' rs l, S.env s.locks d d' → installments = .ok rs →
      InsertedTogether (s.view d') .installments rs →
      (rs.map (Write.insert .installments)).flatMap needs ⊆ l →
      Q rs d' (s.extend (rs.map (Write.insert .installments)) l)) :
    (createInstallments installments).wp S Q d s := by
  refine wp_statement fun d' ws rs l henv hexec _ _ hneeds => ?_
  obtain ⟨rs', hrows, hexec⟩ := bind_ok hexec
  obtain ⟨ws', hinsert, hexec⟩ := bind_ok hexec
  cases hexec
  obtain ⟨rfl, hinserted⟩ := insertRows_plain (by decide) hinsert
  exact h d' _ l henv hrows hinserted hneeds

/-! ### The disbursement -/

/-- The expense of a disbursement. -/
def disbursementDto (loan : Loan) (disbursementCategory : ExpenseCategory) : CreateExpenseDto where
  expenseCategoryId := disbursementCategory.id
  name := "Pencairan Pinjaman"
  amount := loan.disbursedAmount.toRat
  loanId := some loan.id
  notes := some "Pencairan pinjaman kepada anggota"
  source := some .capital
  transactionDate := none

/-- The income of a disbursement. -/
def adminFeeData (loan : Loan) : IncomeData where
  name := "Biaya Administrasi Pinjaman"
  amount := loan.adminFeeAmount.toRat
  loanId := some loan.id
  installmentId := none
  principalSavingId := none
  mandatorySavingId := none
  notes := "Biaya administrasi pinjaman"

/-- The first writes of a disbursement: the loan and its installments. -/
def activation (current : Loan) (now : Date) (rs : List Installment) : List Write :=
  .update .loans (current.disburse now) :: rs.map (Write.insert .installments)

/-- What a disbursement inserts. -/
structure DisbursedRows where
  installments : List Installment
  expense : Expense
  expenseEntry : CashbookTransaction
  fee : Income
  feeEntry : CashbookTransaction

def disbursement (current : Loan) (now : Date) (rows : DisbursedRows) : List Write :=
  activation current now rows.installments ++ spending rows.expense rows.expenseEntry ++
    recording rows.fee rows.feeEntry

/-- A disbursement over the state it is committed to. The figures come from `loan`, the row as it
was read before the transaction. -/
structure Disbursed (d : Database) (ids : DisburseIds) (adminId : Uuid) (now : Date) (loan : Loan)
    (loanPeriod : LoanPeriod) (current : Loan) (rows : DisbursedRows) : Prop where
  found : d.find .loans loan.id = some current
  schedule : generateInstallments loan loanPeriod.tenor adminId now ids.installment =
    .ok rows.installments
  fresh : ∀ i ∈ rows.installments, d.find .installments i.id = none
  nodup : (rows.installments.map Installment.id).Nodup
  expense : ∃ category, CapitalExpense (applyAll d (activation current now rows.installments))
    ids.expense (disbursementDto loan category) rows.expense rows.expenseEntry
  fee : Recorded (applyAll d (activation current now rows.installments ++
    spending rows.expense rows.expenseEntry)) (adminFeeData loan) ⟨ids.income, ids.ledger⟩ .shu
    rows.fee rows.feeEntry

/-- A disbursement reads the loan before its transaction, and finds the keys of its installments free
some time later, when it has locked the loan. -/
theorem disburseLoan_wp [S.Stable (W := Write)] {ids : DisburseIds} {loanId adminId : Uuid}
    {now : Date} {Q : Unit → Database → Trx → Prop}
    (h : ∀ d₁ d₂ d' loan loanPeriod current rows l l₂, S.env [] d d₁ →
      d₁.loanWithPeriod loanId = some (loan, loanPeriod) → loan.status = .approved →
      S.env [] d₁ d₂ → d₂.find .loans loanId = some current →
      (∀ i ∈ rows.installments, ∀ k ∈ Row.uniqueKeys .installments i,
        d₂.taken .installments k = false) →
      S.env l₂ d₂ d' → (LockTarget.row .loans loanId, LockMode.noKeyUpdate) ∈ l₂ →
      (LockTarget.row .loans loanId, LockMode.noKeyUpdate) ∈ l →
      Disbursed d' ids adminId now loan loanPeriod current rows →
      S.guar l d' (applyAll d' (disbursement current now rows)) ∧
        Q () (applyAll d' (disbursement current now rows)) .idle) :
    (disburseLoan ids loanId adminId now).wp S Q d .idle := by
  unfold disburseLoan findLoanById findExpenseCategoryByCode
  rw [Prog.wp_bind']
  refine wp_selectOnPool fun d₁ henv₁ => ?_
  split
  · trivial
  rename_i loan loanPeriod hloan
  split
  · trivial
  rename_i happroved
  rw [ne_eq, not_not] at happroved
  rw [Prog.wp_bind']
  refine wp_selectOnPool fun d₂ henv₂ => ?_
  split
  · trivial
  rename_i category _
  have hid : loan.id = loanId := Database.find_id (loanWithPeriod_some hloan).1
  subst hid
  rw [Prog.wp_bind', disburseLoanInTransaction, Prog.wp_bind', disburseLoanRow]
  refine updateOrThrow_wp (by decide) fun d₃ current new l₃ henv₃ hfind hset _ _ hlock => ?_
  obtain rfl : current.disburse now = new := Except.ok.inj hset
  rw [Session.view_idle] at hfind
  have hrow : (LockTarget.row .loans loan.id, LockMode.noKeyUpdate) ∈ l₃ := by
    have hcurrent : Row.id .loans (current.disburse now) = loan.id :=
      show current.id = loan.id from Database.find_id hfind
    rwa [hcurrent] at hlock
  rw [Prog.wp_bind']
  refine createInstallments_wp fun d₄ rs l₄ henv₄ hschedule hinserted hneeds₄ => ?_
  rw [Session.locks_extend] at henv₄
  rw [Session.view_extend] at hinserted
  rw [extend_extend, Prog.wp_bind']
  refine createCapitalExpense_wp rfl rfl fun d₅ e r l₅ henv₅ hexpense hneeds₅ => ?_
  rw [extend_extend, Prog.wp_bind', createLoanAdminFeeIncome]
  refine record_wp ⟨ids.income, ids.ledger⟩ fun d₆ inc r' l₆ henv₆ hfee hneeds₆ => ?_
  rw [extend_extend]
  refine Prog.wp_commitTrx.2 fun d₇ henv₇ => ?_
  have henv₄₅ : S.env (l₃ ++ l₄) d₄ d₅ := henv₅
  have henv₅₆ : S.env (l₃ ++ l₄ ++ l₅) d₅ d₆ := henv₆
  have henv₆₇ : S.env (l₃ ++ l₄ ++ l₅ ++ l₆) d₆ d₇ := henv₇
  have henv₅₇ : S.env (l₃ ++ l₄ ++ l₅) d₅ d₇ := env_append henv₅₆ henv₆₇
  have henv₄₇ : S.env (l₃ ++ l₄) d₄ d₇ := env_append henv₄₅ henv₅₇
  have henv₃₄ : S.env l₃ d₃ d₄ := henv₄
  have hkept : ∀ {d' : Database}, S.env l₃ d₃ d' → d'.find .loans loan.id = some current := by
    intro d' henv
    rw [← hfind]
    exact (find_view_eq (s := .idle) henv hrow rfl).symm
  have hfree : ∀ i ∈ rs, ∀ k ∈ Row.uniqueKeys .installments i, d₄.taken .installments k = false := by
    intro i hi k hk
    have hunique := hinserted.unique i hi k hk
    rwa [Session.view_idle, applyAll_cons, applyAll_nil, Database.store_apply, Database.taken,
      Database.rows, Database.table_update_ne _ (by decide)] at hunique
  have hwrites : Session.idle.extend
      ([.update .loans (current.disburse now)] ++ rs.map (Write.insert .installments) ++
        spending e r ++ recording inc r') (l₃ ++ l₄ ++ l₅ ++ l₆) =
      Session.idle.extend (disbursement current now ⟨rs, e, r, inc, r'⟩) (l₃ ++ l₄ ++ l₅ ++ l₆) := rfl
  rw [hwrites, Session.view_extend, Session.view_idle]
  refine h d₁ d₄ d₇ loan loanPeriod current ⟨rs, e, r, inc, r'⟩ _ (l₃ ++ l₄) henv₁ hloan happroved
    ?_ ?_ hfree henv₄₇ (List.mem_append_left _ hrow) ?_ ⟨?_, hschedule, ?_, hinserted.nodup,
      ⟨category, ?_⟩, ?_⟩
  · exact env_trans henv₂
      (env_trans (env_nil henv₃) (env_nil henv₄))
  · exact hkept henv₃₄
  · simp [hrow]
  · exact hkept (env_append henv₃₄ henv₄₇)
  · intro i hi
    have hlock : (LockTarget.row .installments i.id, LockMode.update) ∈ l₃ ++ l₄ :=
      List.mem_append_right _ (hneeds₄ (List.mem_flatMap.2
        ⟨_, List.mem_map_of_mem hi, List.mem_cons_self ..⟩))
    rw [← Database.agree_row (Contract.Stable.agree (W := Write) henv₄₇ hlock rfl)]
    exact (Database.find_congr (d₄.table_update_ne (t := .loans) (by decide) _) i.id).symm.trans
      (hinserted.fresh i hi)
  · exact hexpense.env henv₅₇ (List.subset_append_of_subset_right _ hneeds₅)
  · exact hfee.env henv₆₇ (List.subset_append_of_subset_right _ hneeds₆)

end LumbungMesari
