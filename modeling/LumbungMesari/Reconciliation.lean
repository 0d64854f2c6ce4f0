import LumbungMesari.Collecting
import LumbungMesari.ContinuityRuns
import LumbungMesari.Entries
import LumbungMesari.LoanRuns
import LumbungMesari.MemberRuns

/-!
# What the records say

The balances are moved by ledger rows only. The records of the services say on their own what has
come in and what has gone out: the installments and savings that are paid, the fees of the loans that
were disbursed, the expenses. After any complete calls the two have moved by the same.
-/

namespace LumbungMesari

open Sql
open Prog (inTrx onPool commitTrx)

/-! ### The worth of the records -/

/-- What a record adds to a balance, by its own columns. -/
def Row.worth (b : BalanceType) : (t : TableName) → Row t → ℤ
  | .loans, loan =>
      if loan.status = .active ∨ loan.status = .completed then amountsOf loan.adminFeeAmount 0 b else 0
  | .installments, i => if i.status = .paid then i.collected b else 0
  | .principalSavings, p => if p.status = .paid then amountsOf 0 p.amount b else 0
  | .mandatorySavings, m => if m.status = .paid then m.collected b else 0
  | .expenses, e => -amountsOf e.shuAmount e.capitalAmount b
  | _, _ => 0

theorem worth_undisbursed {loan : Loan} (hactive : loan.status ≠ .active)
    (hcompleted : loan.status ≠ .completed) (b : BalanceType) : Row.worth b .loans loan = 0 :=
  if_neg (not_or.2 ⟨hactive, hcompleted⟩)

theorem worth_unpaidInstallment {i : Installment} (h : i.status ≠ .paid) (b : BalanceType) :
    Row.worth b .installments i = 0 := if_neg h

namespace Database

def worthOf (d : Database) (b : BalanceType) (t : TableName) : ℤ :=
  ((d.rows t).map (Row.worth b t)).sum

/-- What all records add to a balance. -/
def worth (d : Database) (b : BalanceType) : ℤ :=
  d.worthOf b .loans + d.worthOf b .installments + d.worthOf b .principalSavings +
    d.worthOf b .mandatorySavings + d.worthOf b .expenses

variable {d d' : Database} {b : BalanceType} {t : TableName} {r old : Row t}

theorem worthOf_congr (h : d'.table t = d.table t) : d'.worthOf b t = d.worthOf b t := by
  rw [worthOf, worthOf, rows, rows, h]

theorem worthOf_eq_zero (h : ∀ r, Row.worth b t r = 0) : d.worthOf b t = 0 := by
  rw [worthOf, List.map_congr_left fun r _ => h r, List.map_const', List.sum_replicate,
    nsmul_zero]

/-- A change of one table changes the worth by as much as the worth of that table. -/
theorem worth_change {change : ℤ} (hothers : ∀ t', t ≠ t' → d'.table t' = d.table t')
    (hchange : d'.worthOf b t = d.worthOf b t + change) : d'.worth b = d.worth b + change := by
  have hother : ∀ t', t ≠ t' → d'.worthOf b t' = d.worthOf b t' := fun t' h =>
    worthOf_congr (hothers t' h)
  have hzero : (∀ r, Row.worth b t r = 0) → change = 0 := by
    intro h
    rw [worthOf_eq_zero h, worthOf_eq_zero h, zero_add] at hchange
    exact hchange.symm
  unfold worth
  cases t with
  | loans | installments | principalSavings | mandatorySavings | expenses =>
      simp only [hchange, hother, ne_eq, reduceCtorEq, not_false_eq_true]
      ring
  | _ =>
      simp only [hother, ne_eq, reduceCtorEq, not_false_eq_true]
      rw [hzero fun _ => rfl, add_zero]

theorem worth_congr (h : ∀ t, t ≠ .incomes → t ≠ .cashbookTransactions → d'.table t = d.table t) :
    d'.worth b = d.worth b := by
  have hother : ∀ t, t ≠ .incomes → t ≠ .cashbookTransactions → d'.worthOf b t = d.worthOf b t :=
    fun t hincomes hledger => worthOf_congr (h t hincomes hledger)
  unfold worth
  simp only [hother, ne_eq, reduceCtorEq, not_false_eq_true]

theorem worth_insert (h : d.find t (Row.id t r) = none) :
    (d.apply (.insert t r)).worth b = d.worth b + Row.worth b t r := by
  refine worth_change (t := t) (fun t' ht' => d.table_insert_ne ht' r) ?_
  rw [worthOf, rows, table_insert_self]
  exact Table.sum_insert _ h

theorem worth_insert_zero (h : Row.worth b t r = 0) : (d.apply (.insert t r)).worth b = d.worth b := by
  rw [← add_zero (d.worth b)]
  refine worth_change (t := t) (fun t' ht' => d.table_insert_ne ht' r) ?_
  rw [worthOf, rows, table_insert_self, add_zero]
  exact Table.sum_insert_zero _ h

theorem worth_delete {id : Uuid} (h : d.find t id = some old) :
    (d.apply (.delete t id)).worth b = d.worth b - Row.worth b t old := by
  rw [sub_eq_add_neg]
  refine worth_change (t := t) (fun t' ht' => d.table_delete_ne ht' id) ?_
  rw [worthOf, rows, table_delete_self, ← sub_eq_add_neg]
  exact Table.sum_erase _ h

theorem worth_update (h : d.find t (Row.id t r) = some old) :
    (d.apply (.update t r)).worth b = d.worth b + (Row.worth b t r - Row.worth b t old) := by
  refine worth_change (t := t) (fun t' ht' => d.table_update_ne ht' r) ?_
  rw [worthOf, rows, table_update_self]
  exact Table.sum_replace _ h

end Database

/-! ### Reconciled states -/

/-- The ledger invariant, with the balances accounted for by the records over some start. -/
structure Reconciled (initial : BalanceType → ℤ) (d : Database) : Prop where
  books : ∃ (start : BalanceType → ℤ) (removed : Uuid → Prop),
    Books start (fun o => ∃ i, o = .income i ∧ removed i) d.balances (d.rows .cashbookTransactions)
  expenses : ExpenseBooks Expense.Agrees d
  balance : ∀ b, d.balances b = initial b + d.worth b

namespace Reconciled

variable {initial initial' : BalanceType → ℤ} {d d' : Database} {now : Date}

theorem ledgerInvariant (h : Reconciled initial d) (hrange : d.InRange) :
    ∃ (start : BalanceType → ℤ) (removed : Uuid → Prop),
      LedgerInvariant Expense.Agrees start removed d := by
  obtain ⟨start, removed, hbooks⟩ := h.books
  exact ⟨start, removed, hrange, hbooks, h.expenses⟩

theorem of_ledgerInvariant {start : BalanceType → ℤ} {removed : Uuid → Prop}
    (h : LedgerInvariant Expense.Agrees start removed d)
    (hbalance : ∀ b, d.balances b = initial b + d.worth b) : Reconciled initial d :=
  ⟨⟨start, removed, h.books⟩, h.expenses, hbalance⟩

theorem start (h : Reconciled initial d) (hinitial : ∀ b, initial b = initial' b) :
    Reconciled initial' d := by
  rwa [← show initial = initial' from funext hinitial]

/-! #### Rows of other tables -/

theorem congr (h : Reconciled initial d) {change : BalanceType → ℤ}
    (hbalances : d'.balances = d.balances)
    (hledger : d'.table .cashbookTransactions = d.table .cashbookTransactions)
    (hexpenses : d'.table .expenses = d.table .expenses)
    (hworth : ∀ b, d'.worth b = d.worth b + change b) :
    Reconciled (fun b => initial b - change b) d' where
  books := by
    rw [hbalances, Database.rows, hledger]
    exact h.books
  expenses := h.expenses.congr hexpenses fun id => by
    rw [Database.owned, Database.rows, hledger]
    rfl
  balance b := by
    rw [hbalances, h.balance, hworth]
    ring

theorem update {t : TableName} {r old : Row t} (h : Reconciled initial d)
    (hledger : t ≠ .cashbookTransactions) (hexpenses : t ≠ .expenses)
    (hfound : d.find t (Row.id t r) = some old) :
    Reconciled (fun b => initial b - (Row.worth b t r - Row.worth b t old))
      (d.apply (.update t r)) :=
  h.congr rfl (d.table_update_ne hledger r) (d.table_update_ne hexpenses r) fun _ =>
    Database.worth_update hfound

theorem update_same {t : TableName} {r old : Row t} (h : Reconciled initial d)
    (hledger : t ≠ .cashbookTransactions) (hexpenses : t ≠ .expenses)
    (hfound : d.find t (Row.id t r) = some old)
    (hworth : ∀ b, Row.worth b t r = Row.worth b t old) :
    Reconciled initial (d.apply (.update t r)) :=
  (h.update hledger hexpenses hfound).start fun b => by rw [hworth, sub_self, sub_zero]

theorem insert {t : TableName} {r : Row t} (h : Reconciled initial d)
    (hledger : t ≠ .cashbookTransactions) (hexpenses : t ≠ .expenses)
    (hworth : ∀ b, Row.worth b t r = 0) : Reconciled initial (d.apply (.insert t r)) := by
  have hsame : Reconciled (fun b => initial b - 0) (d.apply (.insert t r)) :=
    h.congr (d.balances_insert t r) (d.table_insert_ne hledger r) (d.table_insert_ne hexpenses r)
      fun b => by rw [Database.worth_insert_zero (hworth b), add_zero]
  exact hsame.start fun b => sub_zero _

theorem inserts {t : TableName} {rs : List (Row t)} (h : Reconciled initial d)
    (hledger : t ≠ .cashbookTransactions) (hexpenses : t ≠ .expenses)
    (hworth : ∀ r ∈ rs, ∀ b, Row.worth b t r = 0) :
    Reconciled initial (applyAll d (rs.map (Write.insert t))) := by
  induction rs generalizing d with
  | nil => exact h
  | cons r rs ih =>
      exact ih (h.insert hledger hexpenses (hworth r (List.mem_cons_self ..))) fun r' hr' =>
        hworth r' (List.mem_cons_of_mem _ hr')

/-! #### Incomes -/

theorem record (h : Reconciled initial d) {data : IncomeData} {ids : IncomeIds}
    {destination : IncomeDestination} {inc : Income} {r : CashbookTransaction}
    (hr : Recorded d data ids destination inc r) :
    Reconciled (fun b => initial b + r.signed b) (applyAll d (recording inc r)) where
  books := by
    obtain ⟨start, removed, hbooks⟩ := h.books
    refine ⟨start, removed, ?_⟩
    rw [hr.rows]
    refine hbooks.post (o := .income inc.id) (Table.find?_eq_none.1 hr.rowFresh) hr.nonneg
      (fun o => ?_) hr.visible hr.direction fun b => Recorded.balances d inc hr.nonneg b
    cases o with
    | income i => simp [Owner.owns, hr.incomeId, eq_comm]
    | expense e => simp [Owner.owns, hr.expenseId]
  expenses := h.expenses.congr (Recorded.table_ne d inc r (by decide) (by decide)) fun id => by
    rw [owned_append hr.rows]
    simp [Owner.owns, hr.expenseId, Database.owned]
  balance b := by
    rw [Recorded.balances d inc hr.nonneg, h.balance, Database.worth_congr fun t hincomes hledger =>
      Recorded.table_ne d inc r hincomes.symm hledger.symm]
    ring

theorem recordAll (h : Reconciled initial d) {specs : List IncomeSpec}
    {ps : List (Income × CashbookTransaction)} (hps : RecordedAll d specs ps) :
    Reconciled (fun b => initial b + (ps.map fun p => p.2.signed b).sum)
      (applyAll d (recordings ps)) := by
  induction hps generalizing initial with
  | nil => exact h.start fun b => (add_zero _).symm
  | cons head tail ih =>
      rw [recordings, List.flatMap_cons, applyAll_append]
      refine (ih (h.record head)).start fun b => ?_
      rw [List.map_cons, List.sum_cons, add_assoc]

theorem receipts (h : Reconciled initial d) {xs : List Receipt}
    {ps : List (Income × CashbookTransaction)} (hps : RecordedAll d (xs.map (·.spec)) ps) :
    Reconciled (fun b => initial b + (xs.map (Receipt.adds b)).sum)
      (applyAll d (recordings ps)) := by
  refine (h.recordAll hps).start fun b => ?_
  have hreceipts := hps.balances_receipts b
  rw [hps.balances, add_right_inj] at hreceipts
  rw [hreceipts]

/-! #### Expenses -/

theorem signed_of_agrees {e : Expense} {r : CashbookTransaction} (h : e.Agrees r)
    (hdirection : r.direction = .out) (b : BalanceType) : r.signed b = Row.worth b .expenses e := by
  rw [CashbookTransaction.signed, hdirection]
  cases b <;>
    simp [Row.worth, amountsOf, CashbookTransaction.amount, Direction.sign, h.shuAmount,
      h.capitalAmount]

theorem createExpense (h : Reconciled initial d) (hrange : d.InRange) {ids : ExpenseIds}
    {dto : CreateExpenseDto} {source : ExpenseSource} {e : Expense} {r : CashbookTransaction}
    (hc : ExpenseCreated d ids dto source e r) :
    Reconciled initial (applyAll d (.insert .expenses e :: r.postings)) := by
  obtain ⟨start, removed, hledger⟩ := h.ledgerInvariant hrange
  refine of_ledgerInvariant (hledger.createExpense hc hc.agrees) fun b => ?_
  have hbalances : (applyAll d (.insert .expenses e :: r.postings)).balances b =
      d.balances b + r.signed b := CashbookTransaction.balances_postings _ hc.nonneg b
  have hworth : (applyAll d (.insert .expenses e :: r.postings)).worth b =
      (d.apply (.insert .expenses e)).worth b :=
    Database.worth_congr fun t _ ht => CashbookTransaction.table_postings_ne _ ht.symm
  rw [hbalances, hworth, Database.worth_insert (t := .expenses) hc.fresh, h.balance,
    signed_of_agrees hc.agrees hc.direction, add_assoc]

theorem setExpense (h : Reconciled initial d) (hrange : d.InRange) {id : Uuid} {e e' : Expense}
    (hfound : d.find .expenses id = some e) (hset : ExpenseSet none none e e') :
    Reconciled initial (d.apply (.update .expenses e')) := by
  obtain ⟨start, removed, hledger⟩ := h.ledgerInvariant hrange
  refine of_ledgerInvariant (hledger.setExpense hfound hset fun _ => hset.agrees) fun b => ?_
  have hid : Row.id .expenses e' = id := hset.id.trans (Database.find_id hfound)
  obtain ⟨hshu, hcapital⟩ := hset.kept rfl
  rw [Database.worth_update (t := .expenses) (hid ▸ hfound), Row.worth, Row.worth, hshu, hcapital,
    sub_self, add_zero]
  exact h.balance b

theorem correctExpense (h : Reconciled initial d) (hrange : d.InRange) {ids : ExpenseIds} {id : Uuid}
    {existing : Expense} {amounts : Option Allocation} {txnDate : Option Date} {e e' : Expense}
    {original reversal new : CashbookTransaction}
    (hc : ExpenseCorrected d now ids id existing amounts txnDate e e' original reversal new)
    (hagrees : e.Agrees original → e'.Agrees new) :
    Reconciled initial (applyAll d (expenseCorrection now e' original reversal new)) := by
  obtain ⟨start, removed, hledger⟩ := h.ledgerInvariant hrange
  refine of_ledgerInvariant (hledger.correctExpense hc hagrees) fun b => ?_
  -- the row that is taken back is the one that agrees with the expense as it was
  obtain ⟨hvisible, -⟩ := hledger.visible_expenseCorrection hc
  obtain ⟨r, hentry, hagreed⟩ := hledger.expenses.entry id e hc.found
  obtain rfl : original = r := List.singleton_inj.1 (hvisible.symm.trans hentry)
  have hmem := LedgerInvariant.mem_of_corrected hc
  have hdirection := hledger.books.direction original hmem hc.corrected.visible _ hc.corrected.owned
  have hnew : new.Nonneg := hc.corrected.corrected.nonneg hc.nonneg.1 hc.nonneg.2
  have hreversal := hc.corrected.reversal_nonneg (hledger.books.nonneg _ hmem)
  have hopposite : reversal.signed b = -original.signed b := by
    rw [CashbookTransaction.signed, CashbookTransaction.signed, hdirection,
      hc.corrected.reversed.direction]
    cases b <;>
      simp [CashbookTransaction.amount, ofRat?_toRat_eq hc.corrected.reversed.shuAmount,
        ofRat?_toRat_eq hc.corrected.reversed.capitalAmount, reversalEntry, Owner.direction,
        Direction.opposite, Direction.sign]
  have hbalances : (applyAll d (expenseCorrection now e' original reversal new)).balances b =
      d.balances b + reversal.signed b + new.signed b := by
    rw [expenseCorrection, correction, applyAll_cons, applyAll_cons, applyAll_append,
      CashbookTransaction.balances_postings _ hnew, CashbookTransaction.balances_postings _ hreversal]
    rfl
  have hworth : (applyAll d (expenseCorrection now e' original reversal new)).worth b =
      (d.apply (.update .expenses e')).worth b :=
    Database.worth_congr fun t _ ht => table_correction_ne ht.symm
  have hid : Row.id .expenses e' = id := hc.set.id.trans (Database.find_id hc.found)
  rw [hbalances, hworth, Database.worth_update (t := .expenses) (hid ▸ hc.found), hopposite,
    signed_of_agrees hagreed hdirection,
    signed_of_agrees (hagrees hagreed) hc.corrected.corrected.direction, h.balance]
  ring

theorem deleteExpense (h : Reconciled initial d) (hrange : d.InRange) {id : Uuid} {e : Expense}
    (hfound : d.find .expenses id = some e)
    (hrange' : (applyAll d (removal now (d.owned (.expense id)))).InRange) :
    Reconciled initial (applyAll d (expenseDeletion now id (d.owned (.expense id)))) := by
  obtain ⟨start, removed, hledger⟩ := h.ledgerInvariant hrange
  refine of_ledgerInvariant (hledger.deleteExpense hrange') fun b => ?_
  obtain ⟨r, hentry, hagreed⟩ := hledger.expenses.entry id e hfound
  have hr : r ∈ (d.owned (.expense id)).filter (·.visible) := hentry ▸ List.mem_singleton_self r
  obtain ⟨howned, hvisible⟩ := List.mem_filter.1 hr
  obtain ⟨hmem, howns⟩ := mem_owned.1 howned
  have hnet : net (Owner.expense id).owns b (d.rows .cashbookTransactions) = r.signed b := by
    rw [hledger.books.net_owner (LedgerInvariant.expense_alive id), ← netOf_filter]
    have hrows : (d.rows .cashbookTransactions).filter
        (fun r => (Owner.expense id).owns r && r.visible) = [r] := by
      rw [← hentry, Database.owned, List.filter_filter]
      exact List.filter_congr fun r _ => Bool.and_comm ..
    rw [hrows]
    simp [netOf]
  have hworth : (applyAll d (expenseDeletion now id (d.owned (.expense id)))).worth b =
      (d.apply (.delete .expenses id)).worth b := by
    refine Database.worth_congr fun t _ ht => ?_
    rw [expenseDeletion, applyAll_append, applyAll_cons, table_updates_ne ht.symm,
      Database.store_apply]
    by_cases he : TableName.expenses = t
    · subst he
      rw [Database.table_delete_self, Database.table_delete_self, table_removal_ne (by decide)]
    · rw [Database.table_delete_ne _ he, Database.table_delete_ne _ he, table_removal_ne ht.symm]
  rw [balances_expenseDeletion, balances_removal, hnet, hworth,
    Database.worth_delete (t := .expenses) hfound,
    signed_of_agrees hagreed (hledger.books.direction r hmem hvisible _ howns), h.balance]
  ring

end Reconciled
end LumbungMesari
