import LumbungMesari.LoanFile
import LumbungMesari.DisbursementRules

/-!
# Commits on loans

What the database holds for a loan is its file, and every commit of the loans service takes the file
of one loan through steps of `LoanFile.Step` and leaves the files of all others alone.
-/

namespace LumbungMesari

open Sql

/-! ### The file of a loan in the database -/

def Database.file (d : Database) (loanId : Uuid) : LoanFile where
  loan := d.loanWithPeriod loanId
  installments := ((d.rows .installments).filter fun i => i.loanId = loanId).map fun i =>
    (i, postedAmounts (d.entries (forInstallment i.id)))
  expenses := ((d.rows .expenses).filter fun e => e.loanId = some loanId).map fun e =>
    (e, postedAmounts (d.owned (.expense e.id)))
  fees := ((d.rows .incomes).filter fun inc => inc.loanId = some loanId).map fun inc =>
    (inc, postedAmounts (d.owned (.income inc.id)))

/-- Every reference leads to a row, as the foreign keys of the schema demand. -/
def Database.ForeignKeys (d : Database) : Prop :=
  ∀ t, ∀ r ∈ d.rows t, ∀ ref ∈ Row.references t r, d.exists? ref = true

/-- The foreign keys that keep a new row from finding old rows that refer to it. -/
structure Linked (d : Database) : Prop where
  incomes : d.IncomesExist
  expenses : ∀ r ∈ d.rows .cashbookTransactions, ∀ e ∈ r.expenseId, d.find .expenses e ≠ none
  installments : ∀ inc ∈ d.rows .incomes, ∀ i ∈ inc.installmentId, d.find .installments i ≠ none

variable {d d' : Database}

theorem Database.ForeignKeys.find {d : Database} (h : d.ForeignKeys) {t : TableName} {r : Row t}
    (hr : r ∈ d.rows t) (ref : TableName × Uuid) (href : ref ∈ Row.references t r) :
    d.find ref.1 ref.2 ≠ none := by
  have hexists := h t r hr ref href
  rw [Database.exists?] at hexists
  intro hnone
  rw [hnone] at hexists
  cases hexists

theorem Database.ForeignKeys.linked (h : d.ForeignKeys) : Linked d where
  incomes r hr i hi := h.find (t := .cashbookTransactions) hr (.incomes, i) (by
    simp [Row.references, Option.mem_def.1 hi])
  expenses r hr e he := h.find (t := .cashbookTransactions) hr (.expenses, e) (by
    simp [Row.references, Option.mem_def.1 he])
  installments inc hinc i hi := h.find (t := .incomes) hinc (.installments, i) (by
    simp [Row.references, Option.mem_def.1 hi])

theorem Database.ForeignKeys.file_eq_empty (h : d.ForeignKeys) {loanId : Uuid}
    (hnone : d.find .loans loanId = none) : d.file loanId = .empty := by
  have hfilter : ∀ {t : TableName} {p : Row t → Bool},
      (∀ r, p r = true → (TableName.loans, loanId) ∈ Row.references t r) →
      (d.rows t).filter p = [] := by
    intro t p hp
    refine List.filter_eq_nil_iff.2 fun r hr hpr => ?_
    exact h.find hr _ (hp r hpr) hnone
  rw [Database.file, Database.loanWithPeriod, hnone, hfilter (t := .installments),
    hfilter (t := .expenses), hfilter (t := .incomes)]
  · rfl
  all_goals
    intro r hr
    simp only [decide_eq_true_eq] at hr
    simp [Row.references, hr]

/-! ### What leaves files alone -/

theorem loanWithPeriod_congr (hloans : d'.table .loans = d.table .loans)
    (hperiods : d'.table .loanPeriods = d.table .loanPeriods) (loanId : Uuid) :
    d'.loanWithPeriod loanId = d.loanWithPeriod loanId := by
  have hfind : ∀ id, d'.find .loanPeriods id = d.find .loanPeriods id :=
    Database.find_congr hperiods
  rw [Database.loanWithPeriod, Database.loanWithPeriod, Database.find_congr hloans]
  simp only [hfind]

theorem file_congr (hinstallments : d'.table .installments = d.table .installments)
    (hexpenses : d'.table .expenses = d.table .expenses)
    (hincomes : d'.table .incomes = d.table .incomes)
    (hledger : d'.table .cashbookTransactions = d.table .cashbookTransactions) (loanId : Uuid) :
    d'.file loanId = { d.file loanId with loan := d'.loanWithPeriod loanId } := by
  simp only [Database.file, Database.rows, Database.owned, hinstallments, hexpenses, hincomes,
    hledger, entries_congr hincomes hledger]

theorem Linked.congr (h : Linked d) (hincomes : d'.table .incomes = d.table .incomes)
    (hexpenses : d'.table .expenses = d.table .expenses)
    (hledger : d'.table .cashbookTransactions = d.table .cashbookTransactions)
    (hinstallments : ∀ id, d.find .installments id ≠ none → d'.find .installments id ≠ none) :
    Linked d' where
  incomes := IncomesExist.congr h.incomes hincomes hledger
  expenses r hr e he := by
    rw [Database.rows, hledger] at hr
    rw [Database.find_congr hexpenses]
    exact h.expenses r hr e he
  installments inc hinc i hi := by
    rw [Database.rows, hincomes] at hinc
    exact hinstallments i (h.installments inc hinc i hi)

theorem owned_eq_nil_of_expense (h : Linked d) {id : Uuid} (hfresh : d.find .expenses id = none) :
    d.owned (.expense id) = [] := by
  refine List.filter_eq_nil_iff.2 fun r hr howns => ?_
  simp only [Owner.owns, decide_eq_true_eq] at howns
  exact h.expenses r hr id howns hfresh

theorem owned_eq_nil_of_income (h : Linked d) {id : Uuid} (hfresh : d.find .incomes id = none) :
    d.owned (.income id) = [] := by
  refine List.filter_eq_nil_iff.2 fun r hr howns => ?_
  simp only [Owner.owns, decide_eq_true_eq] at howns
  exact h.incomes r hr id howns hfresh

theorem entries_eq_nil_of_installment (h : Linked d) {id : Uuid}
    (hfresh : d.find .installments id = none) : d.entries (forInstallment id) = [] := by
  refine entries_eq_nil fun inc hinc => ?_
  rw [forInstallment, decide_eq_false_iff_not]
  exact fun hi => h.installments inc hinc id hi hfresh

/-! ### Rows of loans -/

section Loans

variable {loan : Loan}

theorem file_insertLoan (hfresh : d.find .loans loan.id = none) {loanPeriod : LoanPeriod}
    (hperiod : d.find .loanPeriods loan.loanPeriodId = some loanPeriod) (loanId : Uuid) :
    (d.apply (.insert .loans loan)).file loanId =
      if loan.id = loanId then { d.file loanId with loan := some (loan, loanPeriod) }
      else d.file loanId := by
  rw [file_congr (d.table_insert_ne (t := .loans) (by decide) loan)
    (d.table_insert_ne (t := .loans) (by decide) loan)
    (d.table_insert_ne (t := .loans) (by decide) loan)
    (d.table_insert_ne (t := .loans) (by decide) loan)]
  have hperiods : ∀ id, (d.apply (.insert .loans loan)).find .loanPeriods id =
      d.find .loanPeriods id :=
    Database.find_congr (d.table_insert_ne (t := .loans) (by decide) loan)
  rw [Database.loanWithPeriod, Database.find_insert]
  simp only [hperiods]
  split
  · rename_i hid
    subst hid
    rw [hfresh, Option.none_or, Option.bind_some, hperiod, Option.map_some]
  · rfl

theorem file_updateLoan (new : Loan) (hfound : d.find .loans loan.id = some loan)
    (hid : new.id = loan.id) (hperiod : new.loanPeriodId = loan.loanPeriodId) (loanId : Uuid) :
    (d.apply (.update .loans new)).file loanId =
      if loan.id = loanId then
        { d.file loanId with loan := (d.loanWithPeriod loanId).map fun p => (new, p.2) }
      else d.file loanId := by
  rw [file_congr (d.table_update_ne (t := .loans) (by decide) new)
    (d.table_update_ne (t := .loans) (by decide) new)
    (d.table_update_ne (t := .loans) (by decide) new)
    (d.table_update_ne (t := .loans) (by decide) new)]
  have hperiods : ∀ id, (d.apply (.update .loans new)).find .loanPeriods id =
      d.find .loanPeriods id :=
    Database.find_congr (d.table_update_ne (t := .loans) (by decide) new)
  rw [Database.loanWithPeriod, Database.find_update]
  simp only [hperiods, hid]
  split
  · rename_i hloan
    subst hloan
    simp only [Database.loanWithPeriod, hfound, Option.map_some, Option.bind_some, hperiod,
      Option.map_map, Function.comp_def]
  · rfl

end Loans

/-! ### Rows of installments -/

section Installments

variable {i : Installment}

theorem filter_replace {α : Type} {p : α → Bool} {g : α → α} {xs : List α}
    (h : ∀ x ∈ xs, p (g x) = p x) : (xs.map g).filter p = (xs.filter p).map g := by
  induction xs with
  | nil => rfl
  | cons x xs ih =>
      rw [List.forall_mem_cons] at h
      rw [List.map_cons, List.filter_cons, List.filter_cons, h.1, ih h.2]
      split <;> rfl

theorem file_updateInstallment (new : Installment) (hfound : d.find .installments i.id = some i)
    (hid : new.id = i.id) (hloan : new.loanId = i.loanId) (loanId : Uuid) :
    (d.apply (.update .installments new)).file loanId = (d.file loanId).rewrite new [] := by
  have htable := fun {t : TableName} (ht : TableName.installments ≠ t) => d.table_update_ne ht new
  have hincomes : _ = d.table .incomes := htable (by decide)
  have hledger : _ = d.table .cashbookTransactions := htable (by decide)
  have hexpenses : _ = d.table .expenses := htable (by decide)
  have hsame : ∀ r ∈ d.rows .installments, r.id = new.id → r = i := by
    intro r hr hr'
    have hmem : i ∈ d.rows .installments := (Table.find?_some hfound).1
    exact Table.eq_of_key hr hmem (hr'.trans hid)
  have hrows : (d.apply (.update .installments new)).rows .installments =
      (d.rows .installments).map fun r => if r.id = new.id then new else r := by
    rw [Database.rows, Database.table_update_self]
    rfl
  have hbooks : ∀ p, (d.apply (.update .installments new)).entries p = d.entries p :=
    entries_congr hincomes hledger
  refine LoanFile.ext ?_ ?_ ?_ ?_
  · exact loanWithPeriod_congr (d.table_update_ne (t := .installments) (by decide) new)
      (d.table_update_ne (t := .installments) (by decide) new) loanId
  · simp only [Database.file, LoanFile.rewrite, hrows, hbooks, List.map_map]
    rw [filter_replace fun r hr => ?_, List.map_map]
    · refine List.map_congr_left fun r hr => ?_
      simp only [Function.comp_apply]
      split
      · rename_i hr'
        rw [hr', List.append_nil]
      · rfl
    · split
      · rename_i hr'
        rw [hsame r hr hr', hloan]
      · rfl
  · simp only [Database.file, Database.rows, Database.owned, hexpenses, hledger, LoanFile.rewrite]
  · simp only [Database.file, Database.rows, Database.owned, hincomes, hledger, LoanFile.rewrite]

theorem Linked.updateInstallment (h : Linked d) (new : Installment) :
    Linked (d.apply (.update .installments new)) :=
  h.congr (d.table_update_ne (t := .installments) (by decide) new)
    (d.table_update_ne (t := .installments) (by decide) new)
    (d.table_update_ne (t := .installments) (by decide) new)
    fun _ => Database.find_update_ne_none (t := .installments) new

theorem file_insertInstallments (h : Linked d) {rs : List Installment}
    (hfresh : ∀ r ∈ rs, d.find .installments r.id = none)
    (hnodup : (rs.map Installment.id).Nodup) {owner : Uuid} (howner : ∀ r ∈ rs, r.loanId = owner)
    (loanId : Uuid) :
    (applyAll d (rs.map (Write.insert .installments))).file loanId =
      if owner = loanId then
        { d.file loanId with installments := (d.file loanId).installments ++ rs.map (·, []) }
      else d.file loanId := by
  have hincomes : (applyAll d (rs.map (Write.insert .installments))).table .incomes =
      d.table .incomes := table_inserts_ne (t := .installments) (by decide) rs
  have hledger : (applyAll d (rs.map (Write.insert .installments))).table .cashbookTransactions =
      d.table .cashbookTransactions := table_inserts_ne (t := .installments) (by decide) rs
  have hexpenses : (applyAll d (rs.map (Write.insert .installments))).table .expenses =
      d.table .expenses := table_inserts_ne (t := .installments) (by decide) rs
  have hrows := rows_inserts (t := .installments) hfresh hnodup
  have hbooks : ∀ p, (applyAll d (rs.map (Write.insert .installments))).entries p = d.entries p :=
    entries_congr hincomes hledger
  have hnew : (rs.filter fun r => r.loanId = loanId).map (fun r =>
      (r, postedAmounts (d.entries (forInstallment r.id)))) =
        if owner = loanId then rs.map (·, []) else [] := by
    split
    · rename_i hloan
      rw [List.filter_eq_self.2 fun r hr => by simp [howner r hr, hloan]]
      refine List.map_congr_left fun r hr => ?_
      rw [entries_eq_nil_of_installment h (hfresh r hr)]
      rfl
    · rename_i hloan
      rw [List.filter_eq_nil_iff.2 fun r hr => by simp [howner r hr, hloan], List.map_nil]
  have hloan : (applyAll d (rs.map (Write.insert .installments))).loanWithPeriod loanId =
      d.loanWithPeriod loanId :=
    loanWithPeriod_congr (table_inserts_ne (t := .installments) (by decide) rs)
      (table_inserts_ne (t := .installments) (by decide) rs) loanId
  split
  · rename_i howner
    rw [if_pos howner] at hnew
    refine LoanFile.ext hloan ?_ ?_ ?_
    · simp only [Database.file, hrows, hbooks, List.filter_append, List.map_append, hnew]
    · simp only [Database.file, Database.rows, Database.owned, hexpenses, hledger]
    · simp only [Database.file, Database.rows, Database.owned, hincomes, hledger]
  · rename_i howner
    rw [if_neg howner] at hnew
    refine LoanFile.ext hloan ?_ ?_ ?_
    · simp only [Database.file, hrows, hbooks, List.filter_append, List.map_append, hnew,
        List.append_nil]
    · simp only [Database.file, Database.rows, Database.owned, hexpenses, hledger]
    · simp only [Database.file, Database.rows, Database.owned, hincomes, hledger]

end Installments

/-! ### Incomes and expenses -/

section Recorded

variable {data : IncomeData} {ids : IncomeIds} {destination : IncomeDestination} {inc : Income}
  {r : CashbookTransaction}

theorem Recorded.owned_expense (h : Recorded d data ids destination inc r) (id : Uuid) :
    (applyAll d (recording inc r)).owned (.expense id) = d.owned (.expense id) := by
  rw [owned_append h.rows, ← Database.owned]
  simp [Owner.owns, h.expenseId]

theorem Recorded.owned_income_ne (h : Recorded d data ids destination inc r) {inc' : Income}
    (hinc' : inc' ∈ d.rows .incomes) :
    (applyAll d (recording inc r)).owned (.income inc'.id) = d.owned (.income inc'.id) := by
  have hne : inc.id ≠ inc'.id := by
    intro hid
    have hfind : d.find .incomes inc'.id = some inc' := Table.find?_of_mem hinc'
    rw [← hid, h.fresh] at hfind
    cases hfind
  rw [owned_append h.rows, ← Database.owned]
  simp [Owner.owns, h.incomeId, hne]

theorem Recorded.owned_income (h : Recorded d data ids destination inc r) (hd : Linked d) :
    (applyAll d (recording inc r)).owned (.income inc.id) = [r] := by
  rw [owned_append h.rows, ← Database.owned, owned_eq_nil_of_income hd h.fresh]
  simp [Owner.owns, h.incomeId]

/-- A recorded income is posted for its installment, or is an income of its loan. -/
theorem Recorded.file (h : Recorded d data ids destination inc r) (hd : Linked d) (loanId : Uuid) :
    (applyAll d (recording inc r)).file loanId =
      { d.file loanId with
        installments := (d.file loanId).installments.map fun x =>
          (x.1, x.2 ++ if inc.installmentId = some x.1.id then postedAmounts [r] else [])
        fees := (d.file loanId).fees ++
          if inc.loanId = some loanId then [(inc, postedAmounts [r])] else [] } := by
  have htable : ∀ {t : TableName}, TableName.incomes ≠ t → TableName.cashbookTransactions ≠ t →
      (applyAll d (recording inc r)).table t = d.table t := Recorded.table_ne d inc r
  refine LoanFile.ext ?_ ?_ ?_ ?_
  · exact loanWithPeriod_congr (htable (by decide) (by decide)) (htable (by decide) (by decide))
      loanId
  · simp only [Database.file, Database.rows, htable (t := .installments) (by decide) (by decide),
      List.map_map]
    refine List.map_congr_left fun i _ => ?_
    rw [h.entries hd.incomes]
    simp only [Function.comp_apply, postedAmounts, List.map_append, forInstallment,
      decide_eq_true_eq]
    split <;> rfl
  · simp only [Database.file, Database.rows, htable (t := .expenses) (by decide) (by decide),
      h.owned_expense]
  · simp only [Database.file, h.incomes, List.filter_append, List.map_append]
    congr 1
    · refine List.map_congr_left fun inc' hinc' => ?_
      rw [h.owned_income_ne (List.mem_filter.1 hinc').1]
    · rw [List.filter_singleton]
      by_cases hloan : inc.loanId = some loanId
      · rw [if_pos hloan, decide_eq_true hloan, cond_true, List.map_singleton, h.owned_income hd]
      · rw [if_neg hloan, decide_eq_false hloan, cond_false, List.map_nil]

theorem Recorded.linked (h : Recorded d data ids destination inc r) (hd : Linked d)
    (hinstallment : ∀ i ∈ inc.installmentId, d.find .installments i ≠ none) :
    Linked (applyAll d (recording inc r)) where
  incomes := h.incomesExist hd.incomes
  expenses r' hr' e he := by
    rw [Database.find_congr (Recorded.table_ne d inc r (by decide) (by decide))]
    rw [h.rows, List.mem_append, List.mem_singleton] at hr'
    rcases hr' with hr' | rfl
    · exact hd.expenses r' hr' e he
    · rw [h.expenseId] at he
      cases he
  installments inc' hinc' i hi := by
    rw [Database.find_congr (Recorded.table_ne d inc r (by decide) (by decide))]
    rw [h.incomes, List.mem_append, List.mem_singleton] at hinc'
    rcases hinc' with hinc' | rfl
    · exact hd.installments inc' hinc' i hi
    · exact hinstallment i hi

end Recorded

section Spent

variable {ids : ExpenseIds} {dto : CreateExpenseDto} {e : Expense} {r : CashbookTransaction}

theorem table_spending_ne (d : Database) (e : Expense) (r : CashbookTransaction) {t : TableName}
    (hexpenses : TableName.expenses ≠ t) (hledger : TableName.cashbookTransactions ≠ t) :
    (applyAll d (spending e r)).table t = d.table t := by
  rw [spending, applyAll_cons, CashbookTransaction.table_postings_ne _ hledger]
  exact d.table_insert_ne hexpenses e

namespace CapitalExpense

theorem rows (h : CapitalExpense d ids dto e r) :
    (applyAll d (spending e r)).rows .cashbookTransactions =
      d.rows .cashbookTransactions ++ [r] := by
  rw [spending, applyAll_cons, Database.store_apply,
    CashbookTransaction.rows_postings _
      ((Database.find_congr (table_insert_expenses d e) r.id).trans h.rowFresh)]
  exact congrArg (Table.rows · ++ [r]) (table_insert_expenses d e)

theorem expenses (h : CapitalExpense d ids dto e r) :
    (applyAll d (spending e r)).rows .expenses = d.rows .expenses ++ [e] := by
  rw [spending, applyAll_cons, Database.rows,
    CashbookTransaction.table_postings_ne _ (by decide), Database.store_apply,
    Database.table_insert_self]
  exact Table.rows_insert h.fresh

theorem entries (h : CapitalExpense d ids dto e r) (p : Income → Bool) :
    (applyAll d (spending e r)).entries p = d.entries p := by
  have hfind : ∀ i, (applyAll d (spending e r)).find .incomes i = d.find .incomes i :=
    Database.find_congr (table_spending_ne d e r (by decide) (by decide))
  rw [Database.entries, h.rows, List.filter_append, List.filter_singleton, h.incomeId]
  simp only [hfind]
  exact List.append_nil _

theorem owned_income (h : CapitalExpense d ids dto e r) (id : Uuid) :
    (applyAll d (spending e r)).owned (.income id) = d.owned (.income id) := by
  rw [owned_append h.rows]
  simp [Owner.owns, h.incomeId, Database.owned]

theorem owned_expense_ne (h : CapitalExpense d ids dto e r) {e' : Expense}
    (he' : e' ∈ d.rows .expenses) :
    (applyAll d (spending e r)).owned (.expense e'.id) = d.owned (.expense e'.id) := by
  have hne : e.id ≠ e'.id := by
    intro hid
    have hfind : d.find .expenses e'.id = some e' := Table.find?_of_mem he'
    rw [← hid, h.fresh] at hfind
    cases hfind
  rw [owned_append h.rows]
  simp [Owner.owns, h.expenseId, hne, Database.owned]

theorem owned_expense (h : CapitalExpense d ids dto e r) (hd : Linked d) :
    (applyAll d (spending e r)).owned (.expense e.id) = [r] := by
  rw [owned_append h.rows, ← Database.owned, owned_eq_nil_of_expense hd h.fresh]
  simp [Owner.owns, h.expenseId]

theorem file (h : CapitalExpense d ids dto e r) (hd : Linked d) (loanId : Uuid) :
    (applyAll d (spending e r)).file loanId =
      { d.file loanId with
        expenses := (d.file loanId).expenses ++
          if e.loanId = some loanId then [(e, postedAmounts [r])] else [] } := by
  have htable : ∀ {t : TableName}, TableName.expenses ≠ t → TableName.cashbookTransactions ≠ t →
      (applyAll d (spending e r)).table t = d.table t := table_spending_ne d e r
  refine LoanFile.ext ?_ ?_ ?_ ?_
  · exact loanWithPeriod_congr (htable (by decide) (by decide)) (htable (by decide) (by decide))
      loanId
  · simp only [Database.file, Database.rows, htable (t := .installments) (by decide) (by decide),
      h.entries]
  · simp only [Database.file, h.expenses, List.filter_append, List.map_append]
    congr 1
    · refine List.map_congr_left fun e' he' => ?_
      rw [h.owned_expense_ne (List.mem_filter.1 he').1]
    · rw [List.filter_singleton]
      by_cases hloan : e.loanId = some loanId
      · rw [if_pos hloan, decide_eq_true hloan, cond_true, List.map_singleton, h.owned_expense hd]
      · rw [if_neg hloan, decide_eq_false hloan, cond_false, List.map_nil]
  · simp only [Database.file, Database.rows, htable (t := .incomes) (by decide) (by decide),
      h.owned_income]

theorem linked (h : CapitalExpense d ids dto e r) (hd : Linked d) :
    Linked (applyAll d (spending e r)) where
  incomes r' hr' i hi := by
    rw [Database.find_congr (table_spending_ne d e r (by decide) (by decide))]
    rw [h.rows, List.mem_append, List.mem_singleton] at hr'
    rcases hr' with hr' | rfl
    · exact hd.incomes r' hr' i hi
    · rw [h.incomeId] at hi
      cases hi
  expenses r' hr' id hid hnone := by
    have hmem : id ∉ ((applyAll d (spending e r)).rows .expenses).map Expense.id :=
      Table.find?_eq_none.1 hnone
    rw [h.expenses, List.map_append, List.mem_append, not_or] at hmem
    rw [h.rows, List.mem_append, List.mem_singleton] at hr'
    rcases hr' with hr' | rfl
    · exact hd.expenses r' hr' id hid (Table.find?_eq_none.2 hmem.1)
    · rw [h.expenseId, Option.mem_some_iff] at hid
      exact hmem.2 (List.mem_singleton.2 hid.symm)
  installments inc hinc i hi := by
    rw [Database.find_congr (table_spending_ne d e r (by decide) (by decide))]
    rw [Database.rows, table_spending_ne d e r (by decide) (by decide)] at hinc
    exact hd.installments inc hinc i hi

theorem posted {m : Money} (h : CapitalExpense d ids dto e r) (hm : dto.amount = m.toRat) :
    postedAmounts [r] = [(.out, 0, m)] := by
  have hcapital := h.capitalAmount
  rw [hm] at hcapital
  rw [postedAmounts, List.map_singleton, h.direction, h.shuAmount, ofRat?_toRat_eq hcapital]

end CapitalExpense

end Spent

/-! ### Settlements and disbursements -/

theorem recordings_file {specs : List IncomeSpec} {ps : List (Income × CashbookTransaction)}
    (h : RecordedAll d specs ps) (hd : Linked d) {id : Uuid}
    (hmine : ∀ p ∈ ps, p.1.installmentId = some id ∧ p.1.loanId = none)
    (hfound : d.find .installments id ≠ none) :
    Linked (applyAll d (recordings ps)) ∧
      ∀ loanId, (applyAll d (recordings ps)).file loanId =
        { d.file loanId with
          installments := (d.file loanId).installments.map fun x =>
            (x.1, x.2 ++ if x.1.id = id then postedAmounts (ps.map Prod.snd) else []) } := by
  induction h with
  | nil =>
      refine ⟨hd, fun loanId => ?_⟩
      simp [recordings, postedAmounts]
  | @cons d spec specs inc r ps head tail ih =>
      obtain ⟨hhead, hrest⟩ := List.forall_mem_cons.1 hmine
      have hinstallment : inc.installmentId = some id := hhead.1
      have hloan : inc.loanId = none := hhead.2
      have hfind : (applyAll d (recording inc r)).find .installments id ≠ none := by
        rw [Database.find_congr (Recorded.table_ne d inc r (by decide) (by decide))]
        exact hfound
      have hlinked := head.linked hd fun i hi => by
        rw [hinstallment, Option.mem_some_iff] at hi
        rwa [← hi]
      rw [recordings, List.flatMap_cons, applyAll_append]
      obtain ⟨hlast, hfile⟩ := ih hlinked hrest hfind
      refine ⟨hlast, fun loanId => (hfile loanId).trans ?_⟩
      rw [head.file hd]
      refine LoanFile.ext rfl ?_ rfl ?_
      · simp only [List.map_map]
        refine List.map_congr_left fun x _ => ?_
        simp only [Function.comp_apply, hinstallment, Option.some.injEq]
        by_cases hx : x.1.id = id
        · simp [hx, postedAmounts]
        · simp [hx, Ne.symm hx]
      · simp [hloan]

/-- What is recorded for an installment that is settled, and where it is found. -/
theorem settled_file {ids : SettleIds} {adminId : Uuid} {now : Date} {i : Installment}
    {ps : List (Income × CashbookTransaction)} (hd : Linked d)
    (hfound : d.find .installments i.id = some i)
    (h : RecordedAll (d.apply (.update .installments (i.settle adminId now)))
      (installmentIncomes ids i) ps) :
    Linked (applyAll (d.apply (.update .installments (i.settle adminId now))) (recordings ps)) ∧
      ∀ loanId, (applyAll (d.apply (.update .installments (i.settle adminId now)))
        (recordings ps)).file loanId =
          (d.file loanId).rewrite (i.settle adminId now) (installmentPostings i) := by
  obtain ⟨hposted, hmine⟩ := installmentIncomes_post h
  have hrow : (d.apply (.update .installments (i.settle adminId now))).find .installments i.id ≠
      none := by
    rw [find_updateInstallment (i.settle adminId now) hfound rfl, if_pos rfl]
    simp
  obtain ⟨hlinked, hfile⟩ := recordings_file h
    (hd.updateInstallment (i.settle adminId now)) hmine hrow
  refine ⟨hlinked, fun loanId => (hfile loanId).trans ?_⟩
  rw [file_updateInstallment (i.settle adminId now) hfound rfl rfl, hposted]
  refine LoanFile.ext rfl ?_ rfl rfl
  simp only [LoanFile.rewrite, List.map_map]
  refine List.map_congr_left fun x _ => ?_
  simp only [Function.comp_apply]
  by_cases hx : x.1.id = i.id
  · simp [hx, Installment.settle]
  · simp [hx, Installment.settle]

section Disbursement

variable {ids : DisburseIds} {adminId : Uuid} {now : Date} {loan : Loan} {loanPeriod : LoanPeriod}
  {rows : DisbursedRows}

theorem activated_file (hd : Linked d) (h : Disbursed d ids adminId now loan loanPeriod loan rows)
    (hperiod : d.loanWithPeriod loan.id = some (loan, loanPeriod)) :
    Linked (applyAll d (activation loan now rows.installments)) ∧
      ∀ loanId, (applyAll d (activation loan now rows.installments)).file loanId =
        if loan.id = loanId then
          { d.file loanId with
            loan := some (loan.disburse now, loanPeriod)
            installments := (d.file loanId).installments ++ rows.installments.map (·, []) }
        else d.file loanId := by
  have hloans := fun {t : TableName} (ht : TableName.loans ≠ t) =>
    d.table_update_ne ht (loan.disburse now)
  have hinstallments : ∀ id, (d.apply (.update .loans (loan.disburse now))).find .installments id =
      d.find .installments id := Database.find_congr (hloans (by decide))
  have hd₁ : Linked (d.apply (.update .loans (loan.disburse now))) :=
    hd.congr (hloans (by decide)) (hloans (by decide)) (hloans (by decide))
      fun id hid => by rwa [hinstallments]
  have hfresh : ∀ r ∈ rows.installments,
      (d.apply (.update .loans (loan.disburse now))).find .installments r.id = none := by
    intro r hr
    rw [hinstallments]
    exact h.fresh r hr
  have howner : ∀ r ∈ rows.installments, r.loanId = loan.id := by
    intro r hr
    obtain ⟨i, hi⟩ := LoanFile.exists_of_forall₂ (generateInstallments_ok h.schedule) hr
    exact hi.loanId
  refine ⟨hd₁.congr (table_inserts_ne (t := .installments) (by decide) _)
    (table_inserts_ne (t := .installments) (by decide) _)
    (table_inserts_ne (t := .installments) (by decide) _)
    fun _ => Database.find_inserts_ne_none _, fun loanId => ?_⟩
  rw [activation, applyAll_cons, Database.store_apply,
    file_insertInstallments hd₁ hfresh h.nodup howner,
    file_updateLoan (loan.disburse now) h.found rfl rfl]
  split
  · rename_i hid
    subst hid
    rw [hperiod]
    rfl
  · rfl

theorem disbursed_file (hd : Linked d) (h : Disbursed d ids adminId now loan loanPeriod loan rows)
    (hperiod : d.loanWithPeriod loan.id = some (loan, loanPeriod)) :
    Linked (applyAll d (disbursement loan now rows)) ∧
      ∀ loanId, (applyAll d (disbursement loan now rows)).file loanId =
        if loan.id = loanId then
          { loan := some (loan.disburse now, loanPeriod)
            installments := (d.file loanId).installments ++ rows.installments.map (·, [])
            expenses := (d.file loanId).expenses ++
              [(rows.expense, [(.out, 0, loan.disbursedAmount)])]
            fees := (d.file loanId).fees ++ [(rows.fee, [(.in_, loan.adminFeeAmount, 0)])] }
        else d.file loanId := by
  obtain ⟨hd₂, hactivated⟩ := activated_file hd h hperiod
  obtain ⟨category, hexpense⟩ := h.expense
  have hd₃ := hexpense.linked hd₂
  have hfee := h.fee
  rw [applyAll_append] at hfee
  have hd₄ := hfee.linked hd₃ fun i hi => by
    rw [hfee.income.installmentId] at hi
    cases hi
  have hwrites : applyAll d (disbursement loan now rows) =
      applyAll (applyAll (applyAll d (activation loan now rows.installments))
        (spending rows.expense rows.expenseEntry)) (recording rows.fee rows.feeEntry) := by
    rw [disbursement, applyAll_append, applyAll_append]
  rw [hwrites]
  refine ⟨hd₄, fun loanId => ?_⟩
  have hposted : postedAmounts [rows.feeEntry] = [(.in_, loan.adminFeeAmount, 0)] := by
    rw [postedAmounts, List.map_singleton, shuIncome_posts hfee rfl]
  have hloanId : rows.expense.loanId = some loan.id := hexpense.loanId
  rw [hfee.file hd₃, hexpense.file hd₂, hactivated, hposted, hexpense.posted rfl,
    hfee.income.installmentId, hfee.income.loanId, hloanId]
  have hkept : ∀ xs : List (Installment × List Posting), (xs.map fun x =>
      (x.1, x.2 ++ if (adminFeeData loan).installmentId = some x.1.id then
        [(Direction.in_, loan.adminFeeAmount, (0 : Money))] else [])) = xs := by
    intro xs
    simp [adminFeeData]
  rw [hkept]
  by_cases hid : loan.id = loanId
  · simp [hid, adminFeeData]
  · simp [hid, adminFeeData]

end Disbursement

/-! ### Commits -/

/-- What a commit of the loans service does to a state, under a conduct towards every loan. -/
inductive LoanStep (c : Uuid → Conduct) (d : Database) : Database → Prop where
  | created {id userId : Uuid} {loanPeriod : LoanPeriod} {amount adminFeeRate : ℚ} {loan : Loan}
      (fresh : d.find .loans loan.id = none)
      (period : d.find .loanPeriods loanPeriod.id = some loanPeriod)
      (asked : (c loan.id).asks amount)
      (created : LoanCreated id userId loanPeriod amount adminFeeRate loan) :
      LoanStep c d (d.apply (.insert .loans loan))
  | decided {loan : Loan} {status : LoanStatus} {approvedBy : Option Uuid} {notes : Option String}
      {now : Date} (found : d.find .loans loan.id = some loan) (pending : loan.status = .pending)
      (decision : status = .approved ∨ status = .rejected) :
      LoanStep c d (d.apply (.update .loans (loan.setStatus status approvedBy notes now)))
  | disbursed {ids : DisburseIds} {adminId : Uuid} {now : Date} {loan : Loan}
      {loanPeriod : LoanPeriod} {rows : DisbursedRows}
      (period : d.loanWithPeriod loan.id = some (loan, loanPeriod))
      (approved : loan.status = .approved) (disburses : (c loan.id).disburses loan loanPeriod)
      (inserted : Disbursed d ids adminId now loan loanPeriod loan rows) :
      LoanStep c d (applyAll d (disbursement loan now rows))
  | settled {ids : SettleIds} {adminId : Uuid} {now : Date} {i : Installment}
      {ps : List (Income × CashbookTransaction)} (found : d.find .installments i.id = some i)
      (unpaid : i.status ≠ .paid) (settles : (c i.loanId).settles (d.file i.loanId) i)
      (recorded : RecordedAll (d.apply (.update .installments (i.settle adminId now)))
        (installmentIncomes ids i) ps) :
      LoanStep c d
        (applyAll (d.apply (.update .installments (i.settle adminId now))) (recordings ps))
  | marked {old : Installment} (found : d.find .installments old.id = some old)
      (due : old.status = .due) : LoanStep c d (marking old d)
  | penalized {old cur new : Installment} {loan : Loan} {loanPeriod : LoanPeriod}
      (found : d.find .installments old.id = some old) (due : old.status = .due)
      (period : d.loanWithPeriod old.loanId = some (loan, loanPeriod))
      (foundCur : (marking old d).find .installments cur.id = some cur)
      (sameLoan : cur.loanId = old.loanId) (overdue : cur.status = .overdue)
      (unpenalized : cur.penaltyAmount.units = 0)
      (charges : (c old.loanId).charges
        ((d.file old.loanId).rewrite (old.setStatus .overdue) []) cur)
      (set : penalized (cur.penaltyAmount.plus (loan.penaltyAmount loanPeriod))
        (cur.totalAmount.plus (loan.penaltyAmount loanPeriod)) cur = .ok new) :
      LoanStep c d ((marking old d).apply (.update .installments new))

theorem mem_file_installments {loanId : Uuid} {i : Installment}
    (hfound : d.find .installments i.id = some i) (hloan : i.loanId = loanId) :
    (i, postedAmounts (d.entries (forInstallment i.id))) ∈ (d.file loanId).installments := by
  refine List.mem_map_of_mem (List.mem_filter.2 ⟨?_, by simpa using hloan⟩)
  exact (Table.find?_some hfound).1

theorem loanId_of_mem_file {loanId : Uuid} {x : Installment × List Posting}
    (hx : x ∈ (d.file loanId).installments) :
    d.find .installments x.1.id = some x.1 ∧ x.1.loanId = loanId := by
  obtain ⟨i, hi, rfl⟩ := List.mem_map.1 hx
  obtain ⟨hmem, hloan⟩ := List.mem_filter.1 hi
  exact ⟨Table.find?_of_mem hmem, of_decide_eq_true hloan⟩

theorem rewrite_file_ne {loanId : Uuid} {i : Installment} (new : Installment) (postings : List Posting)
    (hfound : d.find .installments i.id = some i) (hid : new.id = i.id) (hne : i.loanId ≠ loanId) :
    (d.file loanId).rewrite new postings = d.file loanId := by
  refine LoanFile.ext rfl ?_ rfl rfl
  rw [LoanFile.rewrite]
  conv_rhs => rw [← List.map_id (d.file loanId).installments]
  refine List.map_congr_left fun x hx => ?_
  rw [if_neg, id]
  intro hx'
  obtain ⟨hfind, hloan⟩ := loanId_of_mem_file hx
  rw [hx', hid, hfound, Option.some.injEq] at hfind
  exact hne (hfind ▸ hloan)

/-- **Simulation.** A commit takes the file of every loan through steps of a loan. -/
theorem LoanStep.simulates {c : Uuid → Conduct} (h : LoanStep c d d') (hd : Linked d) :
    Linked d' ∧ ∀ loanId, LoanFile.Steps (c loanId) (d.file loanId) (d'.file loanId) := by
  cases h with
  | @created id userId loanPeriod amount adminFeeRate loan fresh period asked created =>
      have hloans := fun {t : TableName} (ht : TableName.loans ≠ t) => d.table_insert_ne ht loan
      refine ⟨hd.congr (hloans (by decide)) (hloans (by decide)) (hloans (by decide)) fun id hid => ?_,
        fun loanId => ?_⟩
      · rwa [Database.find_congr (hloans (by decide))]
      · rw [file_insertLoan fresh (by rw [created.loanPeriodId]; exact period)]
        split
        · rename_i hid
          subst hid
          refine .single (.create ?_ asked created)
          show d.loanWithPeriod loan.id = none
          rw [Database.loanWithPeriod, fresh]
          rfl
        · exact .refl
  | @decided loan status approvedBy notes now found pending decision =>
      have hid : (loan.setStatus status approvedBy notes now).id = loan.id := by cases status <;> rfl
      have hperiod : (loan.setStatus status approvedBy notes now).loanPeriodId =
          loan.loanPeriodId := by cases status <;> rfl
      have hloans := fun {t : TableName} (ht : TableName.loans ≠ t) =>
        d.table_update_ne ht (loan.setStatus status approvedBy notes now)
      refine ⟨hd.congr (hloans (by decide)) (hloans (by decide)) (hloans (by decide)) fun id hid => ?_,
        fun loanId => ?_⟩
      · rwa [Database.find_congr (hloans (by decide))]
      · rw [file_updateLoan _ found hid hperiod]
        split
        · rename_i hloan
          subst hloan
          cases hfile : d.loanWithPeriod loan.id with
          | none =>
              rw [Option.map_none, ← hfile]
              exact .refl
          | some p =>
              have hsame := (loanWithPeriod_some (d := d) hfile).1
              rw [found, Option.some.injEq] at hsame
              rw [Option.map_some]
              exact .single (.decide (hsame ▸ hfile) pending decision)
        · exact .refl
  | @disbursed ids adminId now loan loanPeriod rows period approved disburses hrows =>
      obtain ⟨hlinked, hfile⟩ := disbursed_file hd hrows period
      refine ⟨hlinked, fun loanId => ?_⟩
      rw [hfile]
      split
      · rename_i hid
        subst hid
        exact .single (.disburse period approved disburses hrows.schedule hrows.nodup)
      · exact .refl
  | @settled ids adminId now i ps found unpaid settles recorded =>
      obtain ⟨hlinked, hfile⟩ := settled_file hd found recorded
      refine ⟨hlinked, fun loanId => ?_⟩
      rw [hfile]
      by_cases hloan : i.loanId = loanId
      · subst hloan
        obtain ⟨hprincipal, hinterest⟩ := installmentIncomes_positive recorded
        exact .single (.settle (mem_file_installments found rfl) unpaid settles hprincipal hinterest)
      · rw [rewrite_file_ne (i.settle adminId now) _ found rfl hloan]
  | @marked old found due =>
      refine ⟨hd.updateInstallment (old.setStatus .overdue), fun loanId => ?_⟩
      rw [marking, file_updateInstallment (old.setStatus .overdue) found rfl rfl]
      by_cases hloan : old.loanId = loanId
      · subst hloan
        exact .single (.mark (mem_file_installments found rfl) due)
      · rw [rewrite_file_ne (old.setStatus .overdue) _ found rfl hloan]
  | @penalized old cur new loan loanPeriod found due period foundCur sameLoan overdue unpenalized
      charges set =>
      obtain ⟨hid, hloan⟩ : new.id = cur.id ∧ new.loanId = cur.loanId := by
        obtain ⟨_, _, -, -, rfl⟩ := penalized_ok set
        exact ⟨rfl, rfl⟩
      have hmarked : Linked (marking old d) :=
        hd.updateInstallment (old.setStatus .overdue)
      have hmark : ∀ loanId, (marking old d).file loanId =
          (d.file loanId).rewrite (old.setStatus .overdue) [] := fun loanId =>
        file_updateInstallment (old.setStatus .overdue) found rfl rfl loanId
      refine ⟨hmarked.updateInstallment new, fun loanId => ?_⟩
      rw [file_updateInstallment new foundCur hid hloan]
      by_cases hmine : old.loanId = loanId
      · subst hmine
        refine .tail (.single (.mark (mem_file_installments found rfl) due)) ?_
        have hcur := mem_file_installments foundCur sameLoan
        rw [hmark] at hcur ⊢
        exact .penalize period hcur overdue unpenalized charges set
      · rw [rewrite_file_ne new [] foundCur hid (fun h => hmine (sameLoan.symm.trans h)), hmark,
          rewrite_file_ne (old.setStatus .overdue) _ found rfl hmine]

end LumbungMesari
