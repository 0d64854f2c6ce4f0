import LumbungMesari.Corrections

/-!
# Deletions within the balances

A deletion of an expense gives back what its visible row has taken: the rows that its corrections
have hidden cancel out. The only limit of a deletion is that the columns have to hold what is given
back.
-/

namespace LumbungMesari

open Sql
open Prog (inTrx onPool commitTrx)

variable {d : Database} {s : Trx} {R : Error → Prop} {now : Date}

/-! ### Disowning a row -/

theorem updateRow_disown_eq (d : Database) (r : CashbookTransaction) :
    updateRow d .cashbookTransactions r r.disown = .ok [.update .cashbookTransactions r.disown] := by
  have hreferences : newReferences .cashbookTransactions r r.disown = [] := by
    rw [newReferences, List.filter_eq_nil_iff]
    intro ref href
    rw [decide_eq_true_eq, not_not]
    exact List.mem_append_left _ (by simpa [Row.references, CashbookTransaction.disown] using href)
  have hbalances : afterUpdate d .cashbookTransactions r r.disown = .ok [] := by
    simp [afterUpdate, cashbookUpdateBalance, CashbookTransaction.disown]
    rfl
  rw [updateRow, hreferences, hbalances]
  rfl

theorem deleteExpenseById_throws {id : Uuid} : (deleteExpenseById id).Throws R d s := by
  have hrows : ∀ v rs, updateRows v .cashbookTransactions CashbookTransaction.disown rs =
      .ok ((rs.map CashbookTransaction.disown).map (.update .cashbookTransactions)) :=
    updateRows_eq updateRow_disown_eq
  refine Prog.throws_inTrx fun e he => ?_
  simp only [statement, hrows] at he
  cases hfind : (s.view d).find .expenses id with
  | none =>
      rw [hfind] at he
      cases he
  | some x =>
      rw [hfind] at he
      cases he

/-! ### Taking back -/

theorem takeBack_throws {label : Label} {b : BalanceType} {n : ℤ} (hn : n ≤ 0)
    (hb : 0 ≤ (s.view d).balances b)
    (h : ¬ (s.view d).balances b - n < 10 ^ 12 → R .numericFieldOverflow) :
    (takeBack label b ((n : ℚ) / 10 ^ 4)).Throws R d s := by
  unfold takeBack
  split
  · refine Prog.throws_inTrx fun e he => ?_
    rcases bind_error he with he | ⟨ws, -, he⟩
    · rw [roundHalfAway_neg_units] at he
      obtain ⟨rfl, hfull⟩ := updateBalance_overflow (by omega) he
      exact h (by omega)
    · cases he
  · exact Prog.throws_pure _

theorem takeBack_returns {label : Label} {b : BalanceType} {n : ℤ} {d' : Database} {s' : Trx}
    (h : (takeBack label b ((n : ℚ) / 10 ^ 4)).Returns d s () d' s') :
    d = d' ∧ ∃ l, s' = s.extend (backout b n) l := by
  refine h.of_wp (Q := fun _ d' s' => d = d' ∧ ∃ l, s' = s.extend (backout b n) l)
    (takeBack_wp fun d' l henv _ _ _ => ?_)
  obtain rfl : d = d' := henv
  exact ⟨rfl, l, rfl⟩

theorem balances_backout (v : Database) (b b' : BalanceType) (n : ℤ) :
    (applyAll v (backout b n)).balances b' = v.balances b' + if b = b' then -n else 0 := by
  rw [Database.balances_applyAll, delta_backout]

theorem softDelete_throws {o : Owner} : (softDelete o now).Throws R d s :=
  Prog.throws_of_returns throws_select fun _ _ _ _ => throws_updateWhere updateRow_softDelete_eq

/-- A removal of rows that have taken from the balances only fails where what they have taken does
not fit any more. -/
theorem deleteTransaction_throws {o : Owner} {label : ℚ → ℚ → Label}
    (htaken : ∀ b, netOf ((s.view d).owned o) b ≤ 0) (hrange : (s.view d).InRange)
    (h : ∀ b, ¬ (s.view d).balances b - netOf ((s.view d).owned o) b < 10 ^ 12 →
      R .numericFieldOverflow) : (deleteTransaction o label now).Throws R d s := by
  unfold deleteTransaction findAll
  refine Prog.throws_bind throws_select select_alone ?_
  rintro _ _ _ ⟨rfl, rfl, rfl⟩
  rw [← Database.owned]
  split
  · exact Prog.throws_pure _
  generalize (s.view d).owned o = rows at htaken h ⊢
  have htotal : (netOf rows .shu : ℚ) / 10 ^ 4 + (netOf rows .capital : ℚ) / 10 ^ 4 =
      (netOf rows .total : ℚ) / 10 ^ 4 := by
    rw [netOf_total]
    push_cast
    ring
  have hshu : netAmount (·.shuAmount) rows = (netOf rows .shu : ℚ) / 10 ^ 4 := netAmount_eq ..
  have hcapital : netAmount (·.capitalAmount) rows = (netOf rows .capital : ℚ) / 10 ^ 4 :=
    netAmount_eq ..
  simp only [hshu, hcapital, htotal]
  refine Prog.throws_of_returns (takeBack_throws (htaken _) (hrange _).1 (h _)) fun _ d₁ s₁ h₁ => ?_
  obtain ⟨rfl, l₁, rfl⟩ := takeBack_returns h₁
  have hcapital' : ((s.extend (backout .shu (netOf rows .shu)) l₁).view d).balances .capital =
      (s.view d).balances .capital := by
    rw [Session.view_extend, balances_backout, if_neg (by decide), add_zero]
  refine Prog.throws_of_returns (takeBack_throws (htaken _) (hcapital' ▸ (hrange _).1)
    (hcapital' ▸ h .capital)) fun _ d₂ s₂ h₂ => ?_
  obtain ⟨rfl, l₂, rfl⟩ := takeBack_returns h₂
  have htotal' : (((s.extend (backout .shu (netOf rows .shu)) l₁).extend
      (backout .capital (netOf rows .capital)) l₂).view d).balances .total =
      (s.view d).balances .total := by
    rw [Session.view_extend, balances_backout, if_neg (by decide), add_zero, Session.view_extend,
      balances_backout, if_neg (by decide), add_zero]
  exact Prog.throws_of_returns (takeBack_throws (htaken _) (htotal' ▸ (hrange _).1)
    (htotal' ▸ h .total)) fun _ _ _ _ => softDelete_throws

/-! ### Deleting an expense -/

section Deletion

variable {initial : BalanceType → ℤ} {removed : Uuid → Prop} {id : Uuid} {x : Expense}

theorem table_expenseDeletion_ne {rows : List CashbookTransaction} {t : TableName}
    (hexpenses : TableName.expenses ≠ t) (hledger : TableName.cashbookTransactions ≠ t) :
    (applyAll d (expenseDeletion now id rows)).table t = d.table t := by
  rw [expenseDeletion, applyAll_append, applyAll_cons, table_updates_ne hledger,
    Database.store_apply, Database.table_delete_ne _ hexpenses, table_removal_ne hledger]

theorem find_expenseDeletion_none {rowId : Uuid}
    (h : d.find .cashbookTransactions rowId = none) :
    (applyAll d (expenseDeletion now id (d.owned (.expense id)))).find .cashbookTransactions
      rowId = none := by
  have hids := Table.find?_eq_none.1 h
  refine Table.find?_eq_none.2 fun hmem => hids ?_
  obtain ⟨r, hr, rfl⟩ := List.mem_map.1 hmem
  rw [show ((applyAll d (expenseDeletion now id (d.owned (.expense id)))).table
    .cashbookTransactions).rows = _ from rows_expenseDeletion, rows_removal, hide, List.map_map]
    at hr
  obtain ⟨r₀, hr₀, rfl⟩ := List.mem_map.1 hr
  refine List.mem_map.2 ⟨r₀, hr₀, ?_⟩
  simp only [Function.comp_apply]
  split <;> split <;> rfl

theorem signed_of_out {r : CashbookTransaction} (h : r.direction = .out) (b : BalanceType) :
    r.signed b = -amountsOf r.shuAmount r.capitalAmount b := by
  rw [CashbookTransaction.signed, h]
  cases b <;> simp [Direction.sign, CashbookTransaction.amount, amountsOf]

theorem netOf_owned (h : LedgerInvariant Expense.Agrees initial removed d)
    (hfound : d.find .expenses id = some x) (b : BalanceType) :
    netOf (d.owned (.expense id)) b = -amountsOf x.shuAmount x.capitalAmount b := by
  obtain ⟨r, hvisible, hagrees⟩ := h.expenses.entry id x hfound
  have hr := List.mem_filter.1 (hvisible ▸ List.mem_singleton_self r)
  obtain ⟨hmem, howns⟩ := mem_owned.1 hr.1
  have hdirection : r.direction = .out := h.books.direction r hmem hr.2 _ howns
  rw [Database.owned, netOf_filter, h.books.net_owner (LedgerInvariant.expense_alive id),
    ← netOf_filter]
  rw [Database.owned, List.filter_filter] at hvisible
  rw [show (fun r => (Owner.expense id).owns r && r.visible) =
    fun r => r.visible && (Owner.expense id).owns r from funext fun r => Bool.and_comm .., hvisible]
  rw [netOf, List.map_singleton, List.sum_singleton, signed_of_out hdirection, hagrees.shuAmount,
    hagrees.capitalAmount]

theorem balances_deleted (h : LedgerInvariant Expense.Agrees initial removed d)
    (hfound : d.find .expenses id = some x) (now : Date) :
    (applyAll d (expenseDeletion now id (d.owned (.expense id)))).balances =
      givenBack d.balances x.shuAmount x.capitalAmount := by
  funext b
  rw [balances_expenseDeletion, balances_removal, givenBack, ← netOf_filter, ← Database.owned,
    netOf_owned h hfound, sub_neg_eq_add]

theorem deleteExpense_throws (h : LedgerInvariant Expense.Agrees initial removed d)
    (hfound : d.find .expenses id = some x) :
    (deleteExpense id now).Throws
      (fun _ => ¬ Holds d.balances 1 x.shuAmount x.capitalAmount) d .idle := by
  have hx := h.allocation_nonneg Expense.Agrees.allocation hfound
  unfold deleteExpense
  refine throws_selectOnPool ?_
  rw [hfound]
  refine Prog.throws_of_returns (deleteTransaction_throws (fun b => ?_) h.inRange fun b hfull => ?_)
    fun _ _ _ _ => Prog.throws_of_returns deleteExpenseById_throws fun _ _ _ _ =>
      Prog.throws_commitTrx
  · rw [Session.view_idle, netOf_owned h hfound]
    have hshu := Numeric.toRat_nonneg.1 hx.1
    have hcapital := Numeric.toRat_nonneg.1 hx.2
    cases b <;> simp only [amountsOf] <;> omega
  · rw [Session.view_idle, netOf_owned h hfound] at hfull
    exact fun hholds => hfull (by linarith [hholds b])

theorem deleteExpense_returns (h : LedgerInvariant Expense.Agrees initial removed d)
    (hfound : d.find .expenses id = some x) {d' : Database} {s' : Trx}
    (hreturns : (deleteExpense id now).Returns d .idle () d' s') :
    Holds d.balances 1 x.shuAmount x.capitalAmount ∧
      d' = applyAll d (expenseDeletion now id (d.owned (.expense id))) := by
  refine hreturns.of_wp (Q := fun _ d' _ => Holds d.balances 1 x.shuAmount x.capitalAmount ∧
    d' = applyAll d (expenseDeletion now id (d.owned (.expense id))))
    (h.deleteExpense_alone fun _ _ hrange => ⟨trivial, fun b => ?_, rfl⟩)
  have hb := (hrange b).2
  rw [← balances_expenseDeletion, balances_deleted h hfound now, givenBack] at hb
  rwa [one_mul]

/-- An expense can be deleted exactly while the columns hold what it gives back. -/
theorem deleteExpense_isOk (h : LedgerInvariant Expense.Agrees initial removed d)
    (hfound : d.find .expenses id = some x) (now : Date) :
    ((deleteExpense id now).result d).isOk = true ↔
      Holds d.balances 1 x.shuAmount x.capitalAmount :=
  Prog.isOk_iff (deleteExpense_throws h hfound) fun _ _ _ hreturns =>
    (deleteExpense_returns h hfound hreturns).1

end Deletion

end LumbungMesari
