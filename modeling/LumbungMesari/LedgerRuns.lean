import LumbungMesari.LedgerInvariant
import LumbungMesari.Seeds

/-!
# Runs of the ledger

The ledger invariant along a sequence of complete calls, each in its own transaction.
-/

namespace LumbungMesari

open Sql
open Prog (inTrx onPool commitTrx)

/-! ### What one call does -/

/-- The commit of a call that runs alone, if it commits at all. -/
inductive LedgerStep (d : Database) : LedgerCall → Database → Prop where
  | nothing (x : LedgerCall) : LedgerStep d x d
  | createIncomeTransaction {id incomeId : Uuid} {amount : ℚ} {destination : IncomeDestination}
      {txnDate : Option Date} {now : Date} {r : CashbookTransaction}
      (stored : (incomeEntry incomeId amount destination d.current (txnDate.getD now)).Stored id r)
      (posted : Posted d r) :
      LedgerStep d (.createIncomeTransaction id incomeId amount destination txnDate now)
        (applyAll d r.postings)
  | updateIncomeTransaction {reversalId newId incomeId : Uuid} {amount : ℚ}
      {destination : IncomeDestination} {txnDate : Option Date} {now : Date}
      {original reversal new : CashbookTransaction}
      (corrected : Corrected d now reversalId newId (.income incomeId)
        (if destination = .shu then amount else 0) (if destination = .capital then amount else 0)
        txnDate original reversal new) :
      LedgerStep d (.updateIncomeTransaction reversalId newId incomeId amount destination txnDate now)
        (applyAll d (correction now original reversal new))
  | createExpense {ids : ExpenseIds} {dto : CreateExpenseDto} {currentUserId : Uuid} {now : Date}
      {source : ExpenseSource} {e : Expense} {r : CashbookTransaction}
      (created : ExpenseCreated d ids dto source e r) :
      LedgerStep d (.createExpense ids dto currentUserId now)
        (applyAll d (.insert .expenses e :: r.postings))
  | setExpense {ids : ExpenseIds} {id : Uuid} {dto : UpdateExpenseDto} {now : Date}
      {e e' : Expense} (found : d.find .expenses id = some e) (set : ExpenseSet none none e e') :
      LedgerStep d (.updateExpense ids id dto now) (d.apply (.update .expenses e'))
  | updateExpense {ids : ExpenseIds} {id : Uuid} {dto : UpdateExpenseDto} {now : Date}
      {amounts : Option Allocation} {e e' : Expense} {original reversal new : CashbookTransaction}
      (corrected : ExpenseCorrected d now ids id e amounts dto.transactionDate e e' original
        reversal new) :
      LedgerStep d (.updateExpense ids id dto now)
        (applyAll d (expenseCorrection now e' original reversal new))
  | deleteExpense {id : Uuid} {now : Date} {e : Expense} (found : d.find .expenses id = some e)
      (inRange : (applyAll d (removal now (d.owned (.expense id)))).InRange) :
      LedgerStep d (.deleteExpense id now)
        (applyAll d (expenseDeletion now id (d.owned (.expense id))))
  | deleteIncomeTransaction {incomeId : Uuid} {now : Date} (rows : d.owned (.income incomeId) ≠ [])
      (inRange : (applyAll d (removal now (d.owned (.income incomeId)))).InRange) :
      LedgerStep d (.deleteIncomeTransaction incomeId now)
        (applyAll d (removal now (d.owned (.income incomeId))))

section Calls

variable {initial : BalanceType → ℤ} {removed removed' : Uuid → Prop} {d d' : Database}
  {x : LedgerCall} {now : Date}

/-- What a call that runs alone has to have done when it commits. -/
abbrev steps (x : LedgerCall) (d : Database) : Contract Database LockTarget Label :=
  Prog.alone fun _ d' => LedgerStep d x d'

theorem readExpense_wp {S : Contract Database LockTarget Label} {id : Uuid} {s : Trx}
    {Q : Expense → Database → Trx → Prop} (h : ∀ d' e, S.env s.locks d d' → Q e d' s) :
    (readExpense id).wp S Q d s := by
  unfold readExpense findByIdWithCategory
  rw [Prog.wp_bind']
  refine wp_selectOnPool fun d' henv => ?_
  split
  · trivial
  · exact h d' _ henv

theorem steps_commit {ws : List Write} {l : Locks} (h : LedgerStep d x (applyAll d ws)) :
    (commitTrx : Program Unit).wp (steps x d) (fun _ _ _ => True) d (Session.idle.extend ws l) := by
  refine Prog.wp_commitTrx.2 fun d' henv => ?_
  cases henv
  rw [Session.view_extend]
  exact ⟨h, trivial⟩

theorem steps_unchanged :
    (commitTrx : Program Unit).wp (steps x d) (fun _ _ _ => True) d .idle := by
  refine Prog.wp_commitTrx.2 fun d' henv => ?_
  cases henv
  exact ⟨.nothing x, trivial⟩

theorem checkAmount_ok {amount : ℚ} (h : checkAmount amount = .ok ()) : 0 < amount := by
  unfold checkAmount at h
  split at h
  · cases h
  · rename_i hpos
    exact not_le.1 hpos

theorem findNewCategory_wp {S : Contract Database LockTarget Label} [S.Stable (W := Write)]
    {dto : UpdateExpenseDto} {s : Trx} {Q : Option ExpenseCategory → Database → Trx → Prop}
    (h : ∀ d' category, S.env s.locks d d' → Q category d' s) :
    (findNewCategory dto).wp S Q d s := by
  unfold findNewCategory findExpenseCategoryById
  split
  · exact h d none (Contract.Stable.refl (W := Write) _ _)
  · rw [Prog.wp_bind']
    refine wp_selectOnPool fun d' henv => ?_
    split
    · trivial
    · exact h d' _ henv

namespace LedgerCall

theorem createIncomeTransaction_wp {id incomeId : Uuid} {amount : ℚ}
    {destination : IncomeDestination} {txnDate : Option Date} :
    (createIncomeTransaction id incomeId amount destination txnDate now).program.wp
      (steps (.createIncomeTransaction id incomeId amount destination txnDate now) d)
      (fun _ _ _ => True) d .idle := by
  rw [program, Prog.wp_bind']
  refine LumbungMesari.createIncomeTransaction_wp fun d' r l henv hr hposted _ _ => ?_
  cases henv
  exact steps_commit (.createIncomeTransaction hr hposted)

theorem updateIncomeTransaction_wp {reversalId newId incomeId : Uuid} {amount : ℚ}
    {destination : IncomeDestination} {txnDate : Option Date} :
    (updateIncomeTransaction reversalId newId incomeId amount destination txnDate now).program.wp
      (steps (.updateIncomeTransaction reversalId newId incomeId amount destination txnDate now) d)
      (fun _ _ _ => True) d .idle := by
  rw [program, Prog.wp_bind', LumbungMesari.updateIncomeTransaction]
  refine updateTransaction_wp (fun d₁ d₂ original henv₁ henv₂ hmem _ _ => ?_)
    fun d' original reversal new l henv hcorrected _ _ => ?_
  · cases henv₁
    cases henv₂
    exact hmem
  · cases henv
    exact steps_commit (.updateIncomeTransaction hcorrected)

theorem createExpense_wp (hinRange : d.InRange) {ids : ExpenseIds} {dto : CreateExpenseDto}
    {currentUserId : Uuid} : (createExpense ids dto currentUserId now).program.wp
      (steps (.createExpense ids dto currentUserId now) d) (fun _ _ _ => True) d .idle := by
  rw [program, Prog.wp_bind', LumbungMesari.createExpense]
  split
  · trivial
  rename_i hamount
  rw [Prog.wp_bind']
  refine createExpenseInTransaction_wp (checkAmount_ok hamount) (fun d' henv => ?_)
    fun d₁ d' category e r l henv₁ henv _ hcreated _ => ?_
  · cases henv
    exact hinRange
  · cases henv₁
    cases henv
    rw [Prog.wp_bind']
    exact Prog.wp_mono (fun _ _ _ _ => readExpense_wp fun _ _ _ => trivial)
      (steps_commit (.createExpense hcreated))

end LedgerCall

namespace LedgerInvariant

theorem updateExpense_wp (h : LedgerInvariant Expense.Agrees initial removed d) {ids : ExpenseIds}
    {id : Uuid} {dto : UpdateExpenseDto} : (LedgerCall.updateExpense ids id dto now).program.wp
      (steps (.updateExpense ids id dto now) d) (fun _ _ _ => True) d .idle := by
  rw [LedgerCall.program, Prog.wp_bind', LumbungMesari.updateExpense, findByIdWithCategory,
    Prog.wp_bind']
  refine wp_selectOnPool fun d' henv => ?_
  cases henv
  split
  · trivial
  rename_i existing category hfound
  obtain ⟨existing, hexisting, hpair⟩ := Option.map_eq_some_iff.1 hfound
  cases hpair
  split
  · trivial
  rename_i hamount
  rw [Prog.wp_bind']
  refine findNewCategory_wp fun d' newCategory henv => ?_
  cases henv
  rw [Prog.wp_bind']
  have hread : ∀ {ws : List Write} {l : Locks},
      LedgerStep d (.updateExpense ids id dto now) (applyAll d ws) →
      (do commitTrx; readExpense id : Program Expense).wp (steps (.updateExpense ids id dto now) d)
        (fun _ _ _ => True) d (Session.idle.extend ws l) := fun hws =>
    Prog.wp_bind'.2 (Prog.wp_mono (fun _ _ _ _ => readExpense_wp fun _ _ _ => trivial)
      (steps_commit hws))
  refine updateExpenseInTransaction_wp (fun q hq => ?_)
    (h.allocation_nonneg Expense.Agrees.allocation hexisting)
    (fun d' henv => ?_) (fun d₁ d₂ henv₁ henv₂ hnone => ?_) (fun d₁ d₂ l _ henv _ => ?_)
    (fun d' l henv => ?_) (fun d' e e' l henv hfind hset _ => ?_)
    fun d₁ d' amounts e e' original reversal new l henv _ _ hcorrected _ _ _ => ?_
  · rw [Option.mem_def] at hq
    rw [hq] at hamount
    exact checkAmount_ok hamount
  · cases henv
    exact h.inRange
  · cases henv₁
    cases henv₂
    exact h.expenses.named id hnone
  · cases henv
    rfl
  · cases henv
    exact hread (show LedgerStep d _ (applyAll d []) from .nothing _)
  · cases henv
    exact hread (.setExpense hfind hset)
  · cases henv
    obtain rfl : existing = e := Option.some.inj (hexisting.symm.trans hcorrected.found)
    exact hread (.updateExpense hcorrected)

/-- A deletion that runs alone and commits has removed the expense with its ledger rows. -/
theorem deleteExpense_alone (h : LedgerInvariant Expense.Agrees initial removed d) {id : Uuid}
    {guar : Database → Database → Prop} {Q : Unit → Database → Trx → Prop}
    (hdone : ∀ e, d.find .expenses id = some e →
      (applyAll d (removal now (d.owned (.expense id)))).InRange →
        guar d (applyAll d (expenseDeletion now id (d.owned (.expense id)))) ∧
          Q () (applyAll d (expenseDeletion now id (d.owned (.expense id)))) .idle) :
    (LumbungMesari.deleteExpense id now).wp (Prog.alone guar) Q d .idle := by
  rw [LumbungMesari.deleteExpense, Prog.wp_bind']
  refine wp_selectOnPool fun d' henv => ?_
  cases henv
  split
  · trivial
  rename_i e hfound
  rw [Prog.wp_bind', deleteExpenseTransaction]
  refine deleteTransaction_wp (fun d' henv hnil => ?_) (fun d₁ d₂ _ henv _ => ?_)
    (fun d₁ d₂ l _ henv _ _ _ => ?_) fun d' l henv _ hrange _ => ?_
  · -- an expense always has a ledger row
    cases henv
    obtain ⟨r, hr, -⟩ := h.expenses.entry id e hfound
    rw [Session.view_idle] at hnil
    rw [hnil] at hr
    cases hr
  · cases henv
    rfl
  · cases henv
    rfl
  · cases henv
    rw [Session.view_idle] at hrange ⊢
    rw [Prog.wp_bind']
    have hexpense : ((Session.idle.extend (removal now (d.owned (.expense id))) l).view d).find
        .expenses id = some e := by
      rw [Session.view_extend, Database.find_congr (table_removal_ne (by decide))]
      exact hfound
    refine deleteExpenseById_wp (fun d' l' henv hnone => ?_) fun d' e' ws l' henv _ hws _ => ?_
    · cases henv
      rw [hexpense] at hnone
      cases hnone
    · cases henv
      subst hws
      rw [extend_extend, Session.view_extend, Session.view_idle, owned_removal]
      refine Prog.wp_commitTrx.2 fun d' henv => ?_
      cases henv
      rw [Session.view_extend]
      exact hdone e hfound (hrange h.inRange)

theorem deleteExpense_wp (h : LedgerInvariant Expense.Agrees initial removed d) {id : Uuid} :
    (LedgerCall.deleteExpense id now).program.wp (steps (.deleteExpense id now) d)
      (fun _ _ _ => True) d .idle :=
  h.deleteExpense_alone fun _ hfound hrange => ⟨.deleteExpense hfound hrange, trivial⟩

theorem deleteIncomeTransaction_wp (hinRange : d.InRange) {incomeId : Uuid} :
    (LedgerCall.deleteIncomeTransaction incomeId now).program.wp
      (steps (.deleteIncomeTransaction incomeId now) d) (fun _ _ _ => True) d .idle := by
  rw [LedgerCall.program, Prog.wp_bind', LumbungMesari.deleteIncomeTransaction]
  refine deleteTransaction_wp (fun d' henv _ => ?_) (fun d₁ d₂ _ henv _ => ?_)
    (fun d₁ d₂ l _ henv _ _ _ => ?_) fun d' l henv hrows hrange _ => ?_
  · cases henv
    exact steps_unchanged
  · cases henv
    rfl
  · cases henv
    rfl
  · cases henv
    exact steps_commit (.deleteIncomeTransaction hrows (hrange hinRange))

theorem ledgerStep (h : LedgerInvariant Expense.Agrees initial removed d) (x : LedgerCall) :
    LedgerStep d x (x.program.after d) := by
  have hstep : x.program.wp (steps x d) (fun _ _ _ => True) d .idle := by
    cases x with
    | createIncomeTransaction => exact LedgerCall.createIncomeTransaction_wp
    | createExpense => exact LedgerCall.createExpense_wp h.inRange
    | updateExpense => exact h.updateExpense_wp
    | updateIncomeTransaction => exact LedgerCall.updateIncomeTransaction_wp
    | deleteExpense => exact h.deleteExpense_wp
    | deleteIncomeTransaction => exact deleteIncomeTransaction_wp h.inRange
  exact Prog.after_keeps (I := LedgerStep d x) (fun _ hd' => hd') hstep (.nothing x)

theorem step (h : LedgerInvariant Expense.Agrees initial removed d) (hstep : LedgerStep d x d')
    (halive : ∀ i, x.incomeToRemove d = some i → ¬removed i) :
    LedgerInvariant Expense.Agrees initial (fun i => removed i ∨ x.incomeToRemove d = some i) d' := by
  cases hstep with
  | nothing => exact h.mono fun _ => Or.inl
  | createIncomeTransaction stored posted =>
      exact (h.postIncome stored posted).mono fun _ => Or.inl
  | updateIncomeTransaction corrected => exact (h.correctIncome corrected).mono fun _ => Or.inl
  | createExpense created =>
      exact (h.createExpense created created.agrees).mono fun _ => Or.inl
  | setExpense found set => exact (h.setExpense found set fun _ => set.agrees).mono fun _ => Or.inl
  | updateExpense corrected =>
      exact (h.correctExpense corrected (corrected.agrees fun _ => rfl)).mono fun _ => Or.inl
  | deleteExpense found inRange => exact (h.deleteExpense inRange).mono fun _ => Or.inl
  | @deleteIncomeTransaction incomeId now rows inRange =>
      have hremoved : (LedgerCall.deleteIncomeTransaction incomeId now).incomeToRemove d =
          some incomeId := by
        rw [LedgerCall.incomeToRemove, if_neg rows]
      refine (h.removeIncome (halive _ hremoved) inRange).mono fun i hi => hi.imp id fun he => ?_
      rw [hremoved, he]

theorem after_of_failed_removal {x : LedgerCall} {incomeId : Uuid} {e : Error}
    (hx : x.incomeToRemove d = some incomeId) (herror : x.program.result d = .error e) :
    x.program.after d = d := by
  cases x with
  | deleteIncomeTransaction incomeId now =>
      refine Prog.after_bind_commitTrx_of_error ?_ herror
      refine deleteTransaction_wp (fun _ _ _ => trivial) (fun d₁ d₂ _ henv _ => ?_)
        (fun d₁ d₂ l _ henv _ _ _ => ?_) fun _ _ _ _ _ _ => trivial
      · cases henv
        rfl
      · cases henv
        rfl
  | _ => cases hx

/-- A complete call keeps the ledger invariant, as long as it does not remove the rows of an income a
second time. -/
theorem after (h : LedgerInvariant Expense.Agrees initial removed d) (x : LedgerCall)
    (halive : ∀ i, x.removedIncome d = some i → ¬removed i) :
    LedgerInvariant Expense.Agrees initial (fun i => removed i ∨ x.removedIncome d = some i)
      (x.program.after d) := by
  cases hresult : x.program.result d with
  | ok a =>
      have hremoved : x.removedIncome d = x.incomeToRemove d := by
        rw [LedgerCall.removedIncome, hresult]
        rfl
      rw [hremoved] at halive ⊢
      exact h.step (h.ledgerStep x) halive
  | error e =>
      have hkept : LedgerInvariant Expense.Agrees initial removed (x.program.after d) := by
        cases htarget : x.incomeToRemove d with
        | none =>
            refine (h.step (h.ledgerStep x) fun i hi => ?_).mono fun i hi => ?_
            · rw [htarget] at hi
              cases hi
            · simpa [htarget] using hi
        | some incomeId =>
            rw [after_of_failed_removal htarget hresult]
            exact h
      exact hkept.mono fun _ => Or.inl

/-- The run lemma. -/
theorem after_calls (h : LedgerInvariant Expense.Agrees initial removed d) (xs : List LedgerCall)
    (honce : (LedgerCall.removedIncomes d xs).Nodup)
    (halive : ∀ i ∈ LedgerCall.removedIncomes d xs, ¬removed i) :
    ∃ removed', LedgerInvariant Expense.Agrees initial removed' (runCalls LedgerCall.program d xs) := by
  induction xs generalizing d removed with
  | nil => exact ⟨removed, h⟩
  | cons x xs ih =>
      rw [LedgerCall.removedIncomes, List.nodup_append] at honce
      obtain ⟨-, hrest, hdisjoint⟩ := honce
      have hx := h.after x fun i hi => halive i (List.mem_append_left _ (Option.mem_toList.2 hi))
      refine ih hx hrest fun i hi hdead => ?_
      rcases hdead with hdead | hremoved
      · exact halive i (List.mem_append_right _ hi) hdead
      · exact hdisjoint i (Option.mem_toList.2 hremoved) i hi rfl

end LedgerInvariant

end Calls

/-! ### From the migrated state -/

/-- The state after the migrations: 5,000,000 rupiah of capital, and nothing in the books. -/
structure Migrated (d : Database) : Prop where
  shu : d.balances .shu = 0
  capital : d.balances .capital = 5000000 * 10 ^ 4
  total : d.balances .total = 5000000 * 10 ^ 4
  expenses : d.rows .expenses = []
  cashbookTransactions : d.rows .cashbookTransactions = []

theorem Migrated.ledgerInvariant {d : Database} (h : Migrated d) :
    LedgerInvariant Expense.Agrees d.balances (fun _ => False) d where
  inRange b := by
    cases b <;> simp [h.shu, h.capital, h.total]
  books := by
    rw [h.cashbookTransactions]
    exact {
      ids := List.nodup_nil
      nonneg := fun _ hr => by cases hr
      single := fun _ hr => by cases hr
      direction := fun _ hr => by cases hr
      balance := fun b => by rw [net_nil, add_zero]
      hidden := fun _ _ _ => net_nil }
  expenses := {
    entry := fun id e he => by
      have hmem : e ∈ d.rows .expenses := (Table.find?_some he).1
      rw [h.expenses] at hmem
      cases hmem
    named := fun id _ => by
      rw [Database.owned, h.cashbookTransactions]
      rfl }

/-- **The ledger invariant.** After any complete calls from the migrated state, of which
none that returns removes the ledger rows of an income a second time: the total is the two buckets, every balance is
what it was plus the visible rows, and every expense has its one visible row. -/
theorem ledger_invariant {d₀ : Database} (h₀ : Migrated d₀) (xs : List LedgerCall)
    (honce : (LedgerCall.removedIncomes d₀ xs).Nodup) :
    let d := runCalls LedgerCall.program d₀ xs
    d.balances .total = d.balances .shu + d.balances .capital ∧
    (∀ b, d.balances b = d₀.balances b + net (·.visible) b (d.rows .cashbookTransactions)) ∧
    ∀ e ∈ d.rows .expenses, ∃ r,
      (d.rows .cashbookTransactions).filter (fun r => (Owner.expense e.id).owns r && r.visible) =
        [r] ∧ r.shuAmount = e.shuAmount ∧ r.capitalAmount = e.capitalAmount := by
  obtain ⟨removed, hd⟩ := h₀.ledgerInvariant.after_calls xs honce fun _ _ hdead => hdead
  refine ⟨hd.books.total ?_, hd.books.balance, fun e he => ?_⟩
  · rw [h₀.total, h₀.shu, h₀.capital, zero_add]
  · obtain ⟨r, hr, hamounts⟩ := hd.expenses.entry e.id e (Table.find?_of_mem he)
    refine ⟨r, ?_, hamounts.shuAmount, hamounts.capitalAmount⟩
    rw [← hr, Database.owned, List.filter_filter]
    exact List.filter_congr fun r' _ => Bool.and_comm ..

/-- The seeded books with one recorded donation. -/
def withDonationOf (amount : Money) : Database :=
  seeded.apply (.insert .incomes {
    id := 1, name := "Donasi", incomeCategoryId := 7, amount, loanId := none,
    installmentId := none, principalSavingId := none, mandatorySavingId := none, notes := none,
    txnDate := ⟨2026, 5, 1⟩ })

/-- A donation of one rupiah. -/
def withDonation : Database := withDonationOf ⟨10000, by decide⟩

theorem migrated_withDonation : Migrated withDonation :=
  ⟨rfl, rfl, rfl, by decide +kernel, by decide +kernel⟩

/-- Post the donation, correct it, pay an expense from it, move and delete the expense, and take the
donation back. -/
def ledgerCalls : List LedgerCall :=
  let today : Date := ⟨2026, 5, 1⟩
  [.createIncomeTransaction 1 1 1 .capital none today,
    .updateIncomeTransaction 2 3 1 2 .capital none today,
    .createExpense ⟨1, 4, 5⟩ ⟨1, "Listrik", 2, none, none, none, none⟩ 1 today,
    .updateExpense ⟨1, 6, 7⟩ 1 ⟨none, none, some 1, none, none, none, none⟩ today,
    .deleteExpense 1 today,
    .deleteIncomeTransaction 1 today]

theorem ledger_invariant_withDonation :
    let d := runCalls LedgerCall.program withDonation ledgerCalls
    (LedgerCall.removedIncomes withDonation ledgerCalls).Nodup ∧
    allReturn LedgerCall.program withDonation ledgerCalls = true ∧
    d.balances .total = d.balances .shu + d.balances .capital :=
  ⟨by decide +kernel, by decide +kernel,
    (ledger_invariant migrated_withDonation ledgerCalls (by decide +kernel)).1⟩

/-- A second `deleteIncomeTransaction` of one income takes its amount back again: it nets the rows
that are already hidden. -/
theorem second_deleteIncomeTransaction_unbalances :
    let calls : List LedgerCall := [
      .createIncomeTransaction 1 1 1 .capital none ⟨2026, 5, 1⟩,
      .deleteIncomeTransaction 1 ⟨2026, 5, 1⟩,
      .deleteIncomeTransaction 1 ⟨2026, 5, 1⟩]
    let d := runCalls LedgerCall.program withDonation calls
    Migrated withDonation ∧ allReturn LedgerCall.program withDonation calls = true ∧
    d.balances .capital ≠
      withDonation.balances .capital + net (·.visible) .capital (d.rows .cashbookTransactions) :=
  ⟨migrated_withDonation, by decide +kernel, by decide +kernel⟩

end LumbungMesari
