import LumbungMesari.ExpenseRules
import LumbungMesari.Sql.Alone

/-!
# The ledger invariant

The operations that move the balances, one complete call after another. Balances move in two ways,
by the trigger on inserted rows and by hand when rows are removed; over the visible rows the two
agree.
-/

namespace LumbungMesari

open Sql
open Prog (inTrx onPool commitTrx)

/-- The calls that post, correct and remove ledger rows. -/
inductive LedgerCall where
  | createIncomeTransaction (id incomeId : Uuid) (amount : ℚ) (destination : IncomeDestination)
      (txnDate : Option Date) (now : Date)
  | createExpense (ids : ExpenseIds) (dto : CreateExpenseDto) (currentUserId : Uuid) (now : Date)
  | updateExpense (ids : ExpenseIds) (id : Uuid) (dto : UpdateExpenseDto) (now : Date)
  | updateIncomeTransaction (reversalId newId incomeId : Uuid) (amount : ℚ)
      (destination : IncomeDestination) (txnDate : Option Date) (now : Date)
  | deleteExpense (id : Uuid) (now : Date)
  | deleteIncomeTransaction (incomeId : Uuid) (now : Date)

namespace LedgerCall

/-- Each call in its own transaction. -/
def program : LedgerCall → Program Unit
  | createIncomeTransaction id incomeId amount destination txnDate now => do
      let _ ← LumbungMesari.createIncomeTransaction id incomeId amount destination txnDate now
      commitTrx
  | createExpense ids dto currentUserId now => do
      let _ ← LumbungMesari.createExpense ids dto currentUserId now
      pure ()
  | updateExpense ids id dto now => do
      let _ ← LumbungMesari.updateExpense ids id dto now
      pure ()
  | updateIncomeTransaction reversalId newId incomeId amount destination txnDate now => do
      LumbungMesari.updateIncomeTransaction reversalId newId incomeId amount destination txnDate now
      commitTrx
  | deleteExpense id now => LumbungMesari.deleteExpense id now
  | deleteIncomeTransaction incomeId now => do
      LumbungMesari.deleteIncomeTransaction incomeId now
      commitTrx

/-- The income whose ledger rows a call is to remove, when it has any. -/
def incomeToRemove (d : Database) : LedgerCall → Option Uuid
  | deleteIncomeTransaction incomeId _ =>
      if d.owned (.income incomeId) = [] then none else some incomeId
  | _ => none

/-- The income whose ledger rows a call has removed, when it returns. -/
def removedIncome (d : Database) (x : LedgerCall) : Option Uuid :=
  if (x.program.result d).isOk then x.incomeToRemove d else none

/-- The incomes whose ledger rows a sequence of calls has removed. -/
def removedIncomes : Database → List LedgerCall → List Uuid
  | _, [] => []
  | d, x :: xs => (x.removedIncome d).toList ++ removedIncomes (x.program.after d) xs

end LedgerCall

/-- An expense and its ledger row have the same amounts and the same day. -/
structure Expense.Agrees (e : Expense) (r : CashbookTransaction) : Prop where
  shuAmount : r.shuAmount = e.shuAmount
  capitalAmount : r.capitalAmount = e.capitalAmount
  txnDate : r.txnDate = e.txnDate

/-- Every expense has its one visible ledger row and agrees with it, and ledger rows only name
expenses that exist. -/
structure ExpenseBooks (agrees : Expense → CashbookTransaction → Prop) (d : Database) : Prop where
  entry : ∀ id e, d.find .expenses id = some e → ∃ r,
    (d.owned (.expense id)).filter (·.visible) = [r] ∧ agrees e r
  named : ∀ id, d.find .expenses id = none → d.owned (.expense id) = []

/-- The ledger invariant. `removed` are the incomes whose rows have been removed. -/
structure LedgerInvariant (agrees : Expense → CashbookTransaction → Prop)
    (initial : BalanceType → ℤ) (removed : Uuid → Prop) (d : Database) : Prop where
  inRange : d.InRange
  books : Books initial (fun o => ∃ i, o = .income i ∧ removed i) d.balances
    (d.rows .cashbookTransactions)
  expenses : ExpenseBooks agrees d

theorem Expense.Agrees.allocation {e : Expense} {r : CashbookTransaction} (h : e.Agrees r)
    (hr : r.Nonneg) : e.allocation.Nonneg :=
  ⟨Numeric.toRat_nonneg.2 (h.shuAmount ▸ hr.shu), Numeric.toRat_nonneg.2 (h.capitalAmount ▸ hr.capital)⟩

theorem ExpenseCreated.agrees {d : Database} {ids : ExpenseIds} {dto : CreateExpenseDto}
    {source : ExpenseSource} {e : Expense} {r : CashbookTransaction}
    (h : ExpenseCreated d ids dto source e r) : e.Agrees r :=
  ⟨h.shuAmount, h.capitalAmount, h.txnDate⟩

theorem ExpenseSet.agrees {e e' : Expense} {r : CashbookTransaction} (h : ExpenseSet none none e e')
    (hr : e.Agrees r) : e'.Agrees r where
  shuAmount := hr.shuAmount.trans (h.kept rfl).1.symm
  capitalAmount := hr.capitalAmount.trans (h.kept rfl).2.symm
  txnDate := hr.txnDate.trans h.txnDate.symm

/-- A correction posts what it has written to the expense, or what it has read of it. -/
theorem ExpenseCorrected.agrees {d : Database} {now : Date} {ids : ExpenseIds} {id : Uuid}
    {existing : Expense} {amounts : Option Allocation} {txnDate : Option Date} {e e' : Expense}
    {original reversal new : CashbookTransaction}
    (h : ExpenseCorrected d now ids id existing amounts txnDate e e' original reversal new)
    (hexisting : amounts = none → existing.allocation = e.allocation) (hr : e.Agrees original) :
    e'.Agrees new := by
  have hdate : new.txnDate = e'.txnDate := by
    rw [h.corrected.corrected.txnDate, h.set.txnDate, ← hr.txnDate]
    rfl
  have hshu := h.corrected.corrected.shuAmount
  have hcapital := h.corrected.corrected.capitalAmount
  cases amounts with
  | none =>
      have hkept := h.set.kept rfl
      rw [Option.getD_none, hexisting rfl] at hshu hcapital
      exact ⟨(ofRat?_toRat_eq hshu).trans hkept.1.symm, (ofRat?_toRat_eq hcapital).trans hkept.2.symm,
        hdate⟩
  | some a =>
      have hstored := h.set.stored a rfl
      exact ⟨Option.some.inj (hshu.symm.trans hstored.1),
        Option.some.inj (hcapital.symm.trans hstored.2), hdate⟩

/-! ### What the writes do to the expenses -/

section Expenses

variable {agrees : Expense → CashbookTransaction → Prop} {d d' : Database} {o : Owner}

theorem ExpenseBooks.change (h : ExpenseBooks agrees d) (id : Uuid)
    (hfind : ∀ id', id' ≠ id → d'.find .expenses id' = d.find .expenses id')
    (howned : ∀ id', id' ≠ id → d'.owned (.expense id') = d.owned (.expense id'))
    (hentry : ∀ e, d'.find .expenses id = some e → ∃ r,
      (d'.owned (.expense id)).filter (·.visible) = [r] ∧ agrees e r)
    (hnamed : d'.find .expenses id = none → d'.owned (.expense id) = []) :
    ExpenseBooks agrees d' where
  entry id' e he := by
    by_cases hid : id' = id
    · subst hid
      exact hentry e he
    · rw [hfind id' hid] at he
      rw [howned id' hid]
      exact h.entry id' e he
  named id' hnone := by
    by_cases hid : id' = id
    · subst hid
      exact hnamed hnone
    · rw [hfind id' hid] at hnone
      rw [howned id' hid]
      exact h.named id' hnone

theorem ExpenseBooks.congr (h : ExpenseBooks agrees d)
    (hexpenses : d'.table .expenses = d.table .expenses)
    (howned : ∀ id, d'.owned (.expense id) = d.owned (.expense id)) : ExpenseBooks agrees d' where
  entry id e he := by
    rw [howned]
    exact h.entry id e (Database.find_congr hexpenses id ▸ he)
  named id hnone := by
    rw [howned]
    exact h.named id (Database.find_congr hexpenses id ▸ hnone)

theorem filter_owns_map {f : CashbookTransaction → CashbookTransaction}
    {rows : List CashbookTransaction}
    (h : ∀ r ∈ rows, f r = r ∨ o.owns (f r) = false ∧ o.owns r = false) :
    (rows.map f).filter o.owns = rows.filter o.owns := by
  induction rows with
  | nil => rfl
  | cons r rows ih =>
      have ih := ih fun r' hr' => h r' (List.mem_cons_of_mem _ hr')
      rw [List.map_cons, List.filter_cons, List.filter_cons, ih]
      rcases h r (List.mem_cons_self ..) with hsame | ⟨hafter, hbefore⟩
      · rw [hsame]
      · rw [hafter, hbefore]
        rfl

theorem filter_owns_hide {now : Date} {p : CashbookTransaction → Bool}
    {rows : List CashbookTransaction} (h : ∀ r ∈ rows, p r = true → o.owns r = false) :
    (hide now p rows).filter o.owns = rows.filter o.owns := by
  refine filter_owns_map fun r hr => ?_
  cases hp : p r with
  | false => exact .inl rfl
  | true => exact .inr ⟨h r hr hp, h r hr hp⟩

theorem owns_expense_disown {r : CashbookTransaction} {id : Uuid} :
    (Owner.expense id).owns r.disown = false := by
  simp [Owner.owns, CashbookTransaction.disown]

end Expenses

namespace LedgerInvariant

variable {agrees : Expense → CashbookTransaction → Prop} {initial : BalanceType → ℤ}
  {removed removed' : Uuid → Prop} {d : Database} {now : Date}

theorem mono (h : LedgerInvariant agrees initial removed d) (hremoved : ∀ i, removed i → removed' i) :
    LedgerInvariant agrees initial removed' d :=
  { h with books := h.books.mono fun _ ⟨i, ho, hi⟩ => ⟨i, ho, hremoved i hi⟩ }

theorem allocation_nonneg (h : LedgerInvariant agrees initial removed d)
    (hagrees : ∀ {e r}, agrees e r → r.Nonneg → e.allocation.Nonneg) {id : Uuid} {e : Expense}
    (hfound : d.find .expenses id = some e) : e.allocation.Nonneg := by
  obtain ⟨r, hr, hentry⟩ := h.expenses.entry id e hfound
  have hmem : r ∈ (d.owned (.expense id)).filter (·.visible) := hr ▸ List.mem_singleton_self r
  exact hagrees hentry (h.books.nonneg r (mem_owned.1 (List.mem_filter.1 hmem).1).1)

theorem expense_alive (id : Uuid) : ¬∃ i, Owner.expense id = .income i ∧ removed i := by
  rintro ⟨i, ho, -⟩
  cases ho

/-! ### Incomes -/

theorem owns_expense_of_income {r : CashbookTransaction} {incomeId : Uuid}
    (howns : ∀ o : Owner, o.owns r = true ↔ o = .income incomeId) (id : Uuid) :
    (Owner.expense id).owns r = false := by
  rw [Bool.eq_false_iff]
  intro h
  cases (howns _).1 h

theorem postIncome (h : LedgerInvariant agrees initial removed d) {r : CashbookTransaction}
    {incomeId id : Uuid} {amount : ℚ} {destination : IncomeDestination} {before : Balances}
    {txnDate : Date} (hr : (incomeEntry incomeId amount destination before txnDate).Stored id r)
    (hposted : Posted d r) : LedgerInvariant agrees initial removed (applyAll d r.postings) := by
  have hnonneg : r.Nonneg := nonneg_of_destination hr.shuAmount hr.capitalAmount
  have hrows := CashbookTransaction.rows_postings d hposted.fresh
  refine ⟨hposted.inRange hnonneg h.inRange, ?_, h.expenses.congr ?_ fun id' => ?_⟩
  · rw [hrows]
    exact h.books.post (Table.find?_eq_none.1 hposted.fresh) hnonneg hr.owns
      (by rw [hr.visible]; rfl) hr.direction fun b =>
        CashbookTransaction.balances_postings d hnonneg b
  · exact CashbookTransaction.table_postings_ne d (by decide)
  · rw [owned_append hrows, owns_expense_of_income hr.owns]
    simp [Database.owned]

theorem correctIncome (h : LedgerInvariant agrees initial removed d) {reversalId newId incomeId : Uuid}
    {amount : ℚ} {destination : IncomeDestination} {txnDate : Option Date}
    {original reversal new : CashbookTransaction}
    (hc : Corrected d now reversalId newId (.income incomeId)
      (if destination = .shu then amount else 0) (if destination = .capital then amount else 0)
      txnDate original reversal new) :
    LedgerInvariant agrees initial removed (applyAll d (correction now original reversal new)) := by
  have hnonneg : new.Nonneg :=
    nonneg_of_destination hc.corrected.shuAmount hc.corrected.capitalAmount
  refine ⟨hc.inRange (hc.reversal_nonneg (h.books.nonneg _ hc.mem)) hnonneg h.inRange,
    hc.books hnonneg h.books, h.expenses.congr (table_correction_ne (by decide)) fun id => ?_⟩
  have hother : ∀ r ∈ d.rows .cashbookTransactions, Books.only original r = true →
      (Owner.expense id).owns r = false := by
    intro r hr honly
    rw [Books.eq_of_only h.books.toEntries hc.mem hr honly, Bool.eq_false_iff]
    intro howns
    cases h.books.single original hc.mem _ _ howns hc.owned
  rw [owned_append hc.rows, List.filter_append, filter_owns_hide hother, List.filter_singleton,
    owns_expense_of_income hc.reversed.owns, owns_expense_of_income hc.corrected.owns]
  simp [Database.owned]

theorem expenses_removeIncome (h : LedgerInvariant agrees initial removed d) {incomeId : Uuid} :
    ExpenseBooks agrees (applyAll d (removal now (d.owned (.income incomeId)))) := by
  refine h.expenses.congr (table_removal_ne (by decide)) fun id => ?_
  rw [Database.owned, rows_removal, filter_owns_hide, Database.owned]
  intro r hr howns
  rw [Bool.and_eq_true] at howns
  rw [Bool.eq_false_iff]
  intro hexpense
  cases h.books.single r hr _ _ hexpense howns.1

theorem removeIncome (h : LedgerInvariant agrees initial removed d) {incomeId : Uuid}
    (halive : ¬removed incomeId)
    (hrange : (applyAll d (removal now (d.owned (.income incomeId)))).InRange) :
    LedgerInvariant agrees initial (fun i => removed i ∨ i = incomeId)
      (applyAll d (removal now (d.owned (.income incomeId)))) := by
  have ho : ¬∃ i, Owner.income incomeId = .income i ∧ removed i := by
    rintro ⟨i, hi, hremoved⟩
    cases hi
    exact halive hremoved
  refine ⟨hrange, (removal_books ho h.books).mono ?_, h.expenses_removeIncome⟩
  rintro o (⟨i, rfl, hi⟩ | rfl)
  · exact ⟨i, rfl, .inl hi⟩
  · exact ⟨incomeId, rfl, .inr rfl⟩

/-! ### Expenses -/

theorem owns_expense_ne {r : CashbookTransaction} {id id' : Uuid}
    (howns : ∀ o : Owner, o.owns r = true ↔ o = .expense id) (h : id' ≠ id) :
    (Owner.expense id').owns r = false := by
  rw [Bool.eq_false_iff]
  intro hr
  cases (howns _).1 hr
  exact h rfl

theorem createExpense (h : LedgerInvariant agrees initial removed d) {ids : ExpenseIds}
    {dto : CreateExpenseDto} {source : ExpenseSource} {e : Expense} {r : CashbookTransaction}
    (hc : ExpenseCreated d ids dto source e r) (hagrees : agrees e r) :
    LedgerInvariant agrees initial removed (applyAll d (.insert .expenses e :: r.postings)) := by
  have hledger : (d.apply (.insert .expenses e)).table .cashbookTransactions =
      d.table .cashbookTransactions := Database.table_insert_ne d (t := .expenses) (by decide) e
  have hrows : (applyAll d (.insert .expenses e :: r.postings)).rows .cashbookTransactions =
      d.rows .cashbookTransactions ++ [r] := by
    rw [applyAll_cons, Database.store_apply, CashbookTransaction.rows_postings _ hc.posted.fresh,
      Database.rows, hledger]
    rfl
  have hfind : ∀ id, (applyAll d (.insert .expenses e :: r.postings)).find .expenses id =
      if e.id = id then (d.find .expenses id).or (some e) else d.find .expenses id := by
    intro id
    rw [applyAll_cons, Database.store_apply,
      Database.find_congr (CashbookTransaction.table_postings_ne _ (by decide)),
      Database.find_insert]
  have hfresh : r.id ∉ (d.rows .cashbookTransactions).map CashbookTransaction.id :=
    Table.find?_eq_none.1 ((Database.find_congr hledger r.id).symm.trans hc.posted.fresh)
  refine ⟨hc.posted.inRange hc.nonneg h.inRange, ?_,
    h.expenses.change e.id (fun id hid => ?_) (fun id hid => ?_) (fun e' he' => ?_) fun hnone => ?_⟩
  · rw [hrows]
    exact h.books.post hfresh hc.nonneg hc.owns hc.visible hc.direction fun b =>
      CashbookTransaction.balances_postings _ hc.nonneg b
  · rw [hfind, if_neg (Ne.symm hid)]
  · rw [owned_append hrows, owns_expense_ne hc.owns hid]
    simp [Database.owned]
  · rw [hfind, if_pos rfl, hc.fresh] at he'
    cases he'
    have hnone := h.expenses.named e.id hc.fresh
    rw [Database.owned] at hnone
    refine ⟨r, ?_, hagrees⟩
    rw [owned_append hrows, hnone, (hc.owns _).2 rfl]
    simp [hc.visible]
  · rw [hfind, if_pos rfl, hc.fresh] at hnone
    cases hnone

theorem setExpense (h : LedgerInvariant agrees initial removed d) {id : Uuid} {e e' : Expense}
    (hfound : d.find .expenses id = some e) (hset : ExpenseSet none none e e')
    (hagrees : ∀ r, agrees e r → agrees e' r) :
    LedgerInvariant agrees initial removed (d.apply (.update .expenses e')) := by
  have hid : e'.id = id := hset.id.trans (Database.find_id hfound)
  have hledger : (d.apply (.update .expenses e')).table .cashbookTransactions =
      d.table .cashbookTransactions := Database.table_update_ne d (t := .expenses) (by decide) e'
  have howned : ∀ o : Owner, (d.apply (.update .expenses e')).owned o = d.owned o := by
    intro o
    rw [Database.owned, Database.rows, hledger]
    rfl
  refine ⟨h.inRange, ?_, h.expenses.change id (fun id' hid' => ?_) (fun id' _ => howned _)
    (fun e'' he'' => ?_) fun hnone => ?_⟩
  · rw [Database.rows, hledger]
    exact h.books
  · rw [Database.find_update, if_neg fun he => hid' (he.symm.trans hid)]
  · rw [Database.find_update, if_pos hid, hfound] at he''
    cases he''
    rw [howned]
    obtain ⟨r, hr, he⟩ := h.expenses.entry id e hfound
    exact ⟨r, hr, hagrees r he⟩
  · rw [Database.find_update, if_pos hid, hfound] at hnone
    cases hnone

section Correction

variable {ids : ExpenseIds} {id : Uuid} {existing : Expense} {amounts : Option Allocation}
  {txnDate : Option Date} {e e' : Expense} {original reversal new : CashbookTransaction}

theorem find_expenseCorrection
    (hc : ExpenseCorrected d now ids id existing amounts txnDate e e' original reversal new)
    (id' : Uuid) :
    (applyAll d (expenseCorrection now e' original reversal new)).find .expenses id' =
      if id' = id then some e' else d.find .expenses id' := by
  have hid : e'.id = id := hc.set.id.trans (Database.find_id hc.found)
  rw [expenseCorrection, applyAll_cons, Database.store_apply,
    Database.find_congr (table_correction_ne (by decide)), Database.find_update]
  by_cases he : id' = id
  · rw [if_pos he, if_pos (hid.trans he.symm), he, hc.found]
    rfl
  · rw [if_neg he, if_neg fun h => he (h.symm.trans hid)]

theorem rows_expenseCorrection
    (hc : ExpenseCorrected d now ids id existing amounts txnDate e e' original reversal new) :
    (applyAll d (expenseCorrection now e' original reversal new)).rows .cashbookTransactions =
      hide now (Books.only original) (d.rows .cashbookTransactions) ++ [reversal] ++ [new] := by
  rw [expenseCorrection, applyAll_cons, Database.store_apply, hc.corrected.rows,
    d.rows_update_ne (t := .expenses) (by decide)]

theorem mem_of_corrected
    (hc : ExpenseCorrected d now ids id existing amounts txnDate e e' original reversal new) :
    original ∈ d.rows .cashbookTransactions := by
  have hmem := hc.corrected.mem
  rwa [Database.rows, d.table_update_ne (t := .expenses) (by decide)] at hmem

theorem owned_expenseCorrection_ne (h : LedgerInvariant agrees initial removed d)
    (hc : ExpenseCorrected d now ids id existing amounts txnDate e e' original reversal new)
    {id' : Uuid} (hid : id' ≠ id) :
    (applyAll d (expenseCorrection now e' original reversal new)).owned (.expense id') =
      d.owned (.expense id') := by
  have hother : ∀ r ∈ d.rows .cashbookTransactions, Books.only original r = true →
      (Owner.expense id').owns r = false := by
    intro r hr honly
    rw [Books.eq_of_only h.books.toEntries (mem_of_corrected hc) hr honly, Bool.eq_false_iff]
    intro howns
    cases h.books.single original (mem_of_corrected hc) _ _ howns hc.corrected.owned
    exact hid rfl
  rw [owned_append (rows_expenseCorrection hc), List.filter_append, filter_owns_hide hother,
    List.filter_singleton, owns_expense_ne hc.corrected.reversed.owns hid,
    owns_expense_ne hc.corrected.corrected.owns hid]
  simp [Database.owned]

/-- A correction of an expense hides the row that was visible and shows the new one. -/
theorem visible_expenseCorrection (h : LedgerInvariant agrees initial removed d)
    (hc : ExpenseCorrected d now ids id existing amounts txnDate e e' original reversal new) :
    (d.owned (.expense id)).filter (·.visible) = [original] ∧
      ((applyAll d (expenseCorrection now e' original reversal new)).owned
        (.expense id)).filter (·.visible) = [new] := by
  obtain ⟨r₀, hentry, -⟩ := h.expenses.entry id e hc.found
  obtain rfl : original = r₀ := List.mem_singleton.1
    (hentry ▸ List.mem_filter.2 ⟨mem_owned.2 ⟨mem_of_corrected hc, hc.corrected.owned⟩,
      hc.corrected.visible⟩)
  refine ⟨hentry, ?_⟩
  have hposted : posted (.expense id) (d.rows .cashbookTransactions) = [original] := by
    rw [← hentry, Database.owned, List.filter_filter]
    exact List.filter_congr fun r _ => Bool.and_comm ..
  have hhidden : ((hide now (Books.only original) (d.rows .cashbookTransactions)).filter
      (Owner.expense id).owns).filter (·.visible) = [] := by
    have hempty := posted_hide now (Books.only original) (d.rows .cashbookTransactions)
      (.expense id)
    rw [hposted, List.filter_cons_of_neg (by
      simp [Books.only, Books.deletedAt_of_visible hc.corrected.visible]), List.filter_nil, posted]
      at hempty
    rw [List.filter_filter, ← hempty]
    exact List.filter_congr fun r _ => Bool.and_comm ..
  have howned : (Owner.expense id).owns new = true := (hc.corrected.corrected.owns _).2 rfl
  have hlast : new.visible = true := by rw [hc.corrected.corrected.visible]; rfl
  have hreversed : reversal.visible = false := by rw [hc.corrected.reversed.visible]; rfl
  rw [owned_append (rows_expenseCorrection hc), howned, List.filter_append, List.filter_append,
    List.filter_append, hhidden, List.filter_filter]
  simp [hlast, hreversed]

theorem correctExpense (h : LedgerInvariant agrees initial removed d)
    (hc : ExpenseCorrected d now ids id existing amounts txnDate e e' original reversal new)
    (hagrees : agrees e original → agrees e' new) :
    LedgerInvariant agrees initial removed
      (applyAll d (expenseCorrection now e' original reversal new)) := by
  have hledger : (d.apply (.update .expenses e')).rows .cashbookTransactions =
      d.rows .cashbookTransactions := d.rows_update_ne (t := .expenses) (by decide) e'
  have hnew : new.Nonneg := hc.corrected.corrected.nonneg hc.nonneg.1 hc.nonneg.2
  have hbooks := h.books
  rw [← hledger] at hbooks
  have hreversal := hc.corrected.reversal_nonneg (hbooks.nonneg _ hc.corrected.mem)
  refine ⟨hc.corrected.inRange hreversal hnew h.inRange, hc.corrected.books hnew hbooks,
    h.expenses.change id (fun id' hid' => ?_) (fun id' hid' => h.owned_expenseCorrection_ne hc hid')
      (fun e'' he'' => ?_) fun hnone => ?_⟩
  · rw [find_expenseCorrection hc, if_neg hid']
  · rw [find_expenseCorrection hc, if_pos rfl] at he''
    cases he''
    obtain ⟨hbefore, hafter⟩ := h.visible_expenseCorrection hc
    obtain ⟨r₀, hentry, hagreed⟩ := h.expenses.entry id e hc.found
    obtain rfl : original = r₀ := List.singleton_inj.1 (hbefore.symm.trans hentry)
    exact ⟨new, hafter, hagrees hagreed⟩
  · rw [find_expenseCorrection hc, if_pos rfl] at hnone
    cases hnone

end Correction

section Deletion

variable {id : Uuid}

theorem find_expenseDeletion {rows : List CashbookTransaction} (id' : Uuid) :
    (applyAll d (expenseDeletion now id rows)).find .expenses id' =
      if id' = id then none else d.find .expenses id' := by
  rw [Database.find, table_expenses_expenseDeletion]
  simp only [eq_comm (a := id')]
  exact Table.find?_erase ..

theorem owned_expenseDeletion_ne (h : LedgerInvariant agrees initial removed d) {id' : Uuid}
    (hid : id' ≠ id) : (applyAll d (expenseDeletion now id (d.owned (.expense id)))).owned
      (.expense id') = d.owned (.expense id') := by
  rw [Database.owned, rows_expenseDeletion, rows_removal, filter_owns_map, filter_owns_hide,
    Database.owned]
  · intro r hr howns
    rw [Bool.and_eq_true] at howns
    exact owns_expense_ne (fun o => ⟨fun ho => h.books.single r hr _ _ ho howns.1,
      fun ho => ho ▸ howns.1⟩) hid
  · intro r _
    cases howns : (Owner.expense id).owns r with
    | false => exact .inl rfl
    | true =>
        refine .inr ⟨owns_expense_disown, ?_⟩
        simp only [Owner.owns, decide_eq_true_eq] at howns
        simpa [Owner.owns, howns] using Ne.symm hid

theorem owned_expenseDeletion : (applyAll d (expenseDeletion now id
    (d.owned (.expense id)))).owned (.expense id) = [] := by
  rw [Database.owned, rows_expenseDeletion, List.filter_eq_nil_iff]
  intro r hr
  obtain ⟨r₀, -, rfl⟩ := List.mem_map.1 hr
  split
  · simp [owns_expense_disown]
  · assumption

theorem deleteExpense (h : LedgerInvariant agrees initial removed d)
    (hrange : (applyAll d (removal now (d.owned (.expense id)))).InRange) :
    LedgerInvariant agrees initial removed
      (applyAll d (expenseDeletion now id (d.owned (.expense id)))) := by
  refine ⟨fun b => ?_, expenseDeletion_books (expense_alive id) h.books,
    h.expenses.change id (fun id' hid' => ?_) (fun id' hid' => h.owned_expenseDeletion_ne hid')
      (fun e he => ?_) fun _ => owned_expenseDeletion⟩
  · rw [balances_expenseDeletion]
    exact hrange b
  · rw [find_expenseDeletion, if_neg hid']
  · rw [find_expenseDeletion, if_pos rfl] at he
    cases he

end Deletion

end LedgerInvariant

end LumbungMesari
