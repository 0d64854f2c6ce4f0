import LumbungMesari.Amounts
import LumbungMesari.Expenses
import LumbungMesari.CorrectionRules

/-!
# Rules for expenses

What the three operations on expenses add to a transaction.
-/

namespace LumbungMesari

open Sql Js
open Prog (inTrx)

variable {S : Contract Database LockTarget Label} {d : Database} {s : Trx}

/-! ### Allocation -/

/-- From one bucket, or all of the capital and the rest from the SHU. -/
theorem allocate_ok {totalAmount shuBalance capitalBalance : Double} {source : Option ExpenseSource}
    {a : Split} (h : allocate totalAmount source shuBalance capitalBalance = .ok a) :
    a = ⟨totalAmount, 0⟩ ∨ a = ⟨0, totalAmount⟩ ∨
      capitalBalance < totalAmount ∧ a = ⟨totalAmount - capitalBalance, capitalBalance⟩ := by
  unfold allocate at h
  split at h
  · split at h
    · cases h
    · cases h
      exact .inl rfl
  · split at h
    · cases h
    · cases h
      exact .inr (.inl rfl)
  · split at h
    · cases h
    · split at h
      · cases h
        exact .inr (.inl rfl)
      · rename_i hle
        cases h
        exact .inr (.inr ⟨not_le.1 hle, rfl⟩)
  · split at h
    · cases h
      exact .inr (.inl rfl)
    · rename_i hle
      split at h
      · cases h
        exact .inr (.inr ⟨not_le.1 hle, rfl⟩)
      · cases h
  · cases h

theorem stored_capital {totalAmount : Money} {shuBalance capitalBalance : Double} {a : Split}
    (h : allocate (.ofRat totalAmount.toRat) (some .capital) shuBalance capitalBalance = .ok a) :
    a.stored = ⟨0, totalAmount.toRat⟩ := by
  unfold allocate at h
  dsimp only at h
  split at h
  · cases h
  · cases h
    rw [Split.stored, Double.toNumeric_zero, Money.toNumeric_ofRat]

/-- What an expense may give back to the buckets is not negative. -/
def Allocation.Nonneg (a : Allocation) : Prop := 0 ≤ a.shuAmount ∧ 0 ≤ a.capitalAmount

def Allocation.Decimal (a : Allocation) : Prop :=
  Sql.Decimal 4 a.shuAmount ∧ Sql.Decimal 4 a.capitalAmount

theorem Database.decimal_balance (d : Database) (b : BalanceType) :
    Sql.Decimal 4 (d.balance b) := ⟨d.balances b, by rw [Database.balance]; field_simp⟩

theorem Expense.decimal_allocation (e : Expense) : e.allocation.Decimal :=
  ⟨e.shuAmount.decimal_toRat, e.capitalAmount.decimal_toRat⟩

theorem Split.decimal_stored (a : Split) : a.stored.Decimal :=
  ⟨Double.decimal_toNumeric 4 _, Double.decimal_toNumeric 4 _⟩

theorem Split.stored_nonneg {totalAmount shuBalance capitalBalance : Double}
    {source : Option ExpenseSource} {a : Split} (htotal : 0 ≤ totalAmount.val)
    (hcapital : 0 ≤ capitalBalance.val)
    (h : allocate totalAmount source shuBalance capitalBalance = .ok a) : a.stored.Nonneg := by
  have hzero : 0 ≤ (0 : Double).val := le_refl _
  rcases allocate_ok h with rfl | rfl | ⟨hlt, rfl⟩
  · exact ⟨Double.toNumeric_nonneg htotal, Double.toNumeric_nonneg hzero⟩
  · exact ⟨Double.toNumeric_nonneg hzero, Double.toNumeric_nonneg htotal⟩
  · exact ⟨Double.toNumeric_nonneg (Double.sub_nonneg hlt.le), Double.toNumeric_nonneg hcapital⟩

theorem restored_nonneg {balance : ℚ} {restore : Option ℚ} (hbalance : 0 ≤ balance)
    (hrestore : ∀ q ∈ restore, 0 ≤ q) : 0 ≤ (restored balance restore).val := by
  refine Double.add_nonneg (nearest_nonneg hbalance) ?_
  cases restore with
  | none => exact le_refl _
  | some q => exact nearest_nonneg (hrestore q rfl)

theorem balance_nonneg (hrange : d.InRange) (b : BalanceType) : 0 ≤ d.balance b := by
  have hb := (hrange b).1
  rw [Database.balance]
  positivity

theorem allocateAmounts_wp {totalAmount : ℚ} {source : Option ExpenseSource}
    {restore : Option Allocation} {Q : Allocation → Database → Trx → Prop}
    (htotal : 0 < totalAmount) (hrestore : ∀ a ∈ restore, a.Nonneg)
    (hinRange : ∀ d', S.env s.locks d d' → (s.view d').InRange)
    (h : ∀ d' a l, S.env s.locks d d' → a.Nonneg → a.Decimal →
      (∀ b, b ≠ .total → (LockTarget.balance b, LockMode.update) ∈ l) →
      Q a d' (s.extend [] l)) :
    (allocateAmounts totalAmount source restore).wp S Q d s := by
  unfold allocateAmounts
  rw [Prog.wp_bind']
  refine wp_selectForUpdate fun d' l henv hl => ?_
  dsimp only
  split
  · trivial
  rename_i a hallocate
  refine h d' a.stored l henv ?_ a.decimal_stored fun b hb => hl _ ?_
  · have hgiven : ∀ q ∈ restore.map (·.capitalAmount), 0 ≤ q := by
      rintro q hq
      obtain ⟨a, ha, rfl⟩ := Option.map_eq_some_iff.1 hq
      exact (hrestore a ha).2
    exact Split.stored_nonneg (nearest_nonneg htotal.le)
      (restored_nonneg (balance_nonneg (hinRange d' henv) .capital) hgiven) hallocate
  · cases b <;> simp_all

/-! ### Creation -/

/-- An expense as it was stored from the columns of an insert. -/
structure NewExpense.Stored (data : NewExpense) (id : Uuid) (e : Expense) : Prop where
  id : e.id = id
  expenseCategoryId : e.expenseCategoryId = data.expenseCategoryId
  loanId : e.loanId = data.loanId
  source : e.source = some data.source
  txnDate : e.txnDate = data.txnDate
  shuAmount : Numeric.ofRat? data.shuAmount = some e.shuAmount
  capitalAmount : Numeric.ofRat? data.capitalAmount = some e.capitalAmount

theorem NewExpense.toRow_ok {data : NewExpense} {id : Uuid} {e : Expense}
    (h : data.toRow id = .ok e) : data.Stored id e := by
  obtain ⟨_, h₁, h⟩ := bind_ok h
  obtain ⟨_, h₂, h⟩ := bind_ok h
  split at h
  · cases h
    exact ⟨rfl, rfl, rfl, rfl, rfl, money_ok h₁, money_ok h₂⟩
  · cases h

/-- What `createExpenseInTransaction` has inserted, over the state before it. -/
structure ExpenseCreated (d : Database) (ids : ExpenseIds) (dto : CreateExpenseDto)
    (source : ExpenseSource) (e : Expense) (r : CashbookTransaction) : Prop where
  id : e.id = ids.expense
  expenseCategoryId : e.expenseCategoryId = dto.expenseCategoryId
  loanId : e.loanId = dto.loanId
  source : e.source = some source
  fresh : d.find .expenses e.id = none
  posted : Posted (d.apply (.insert .expenses e)) r
  rowId : r.id = ids.ledger
  owns : ∀ o : Owner, o.owns r = true ↔ o = .expense e.id
  visible : r.visible = true
  direction : r.direction = .out
  shuAmount : r.shuAmount = e.shuAmount
  capitalAmount : r.capitalAmount = e.capitalAmount
  txnDate : r.txnDate = e.txnDate
  nonneg : r.Nonneg

theorem createExpenseInTransaction_wp [S.Stable (W := Write)] {ids : ExpenseIds}
    {dto : CreateExpenseDto} {currentUserId : Uuid} {now : Date}
    {Q : Expense → Database → Trx → Prop} (hamount : 0 < dto.amount)
    (hinRange : ∀ d', S.env s.locks d d' → (s.view d').InRange)
    (h : ∀ d₁ d' category e r l, S.env s.locks d d₁ → S.env s.locks d₁ d' →
      d₁.find .expenseCategories dto.expenseCategoryId = some category →
      ExpenseCreated (s.view d') ids dto (dto.source.getD category.defaultSource) e r →
      (.insert .expenses e :: r.postings).flatMap needs ⊆ l →
      Q e d' (s.extend (.insert .expenses e :: r.postings) l)) :
    (createExpenseInTransaction ids dto currentUserId now).wp S Q d s := by
  unfold createExpenseInTransaction findExpenseCategoryById
  rw [Prog.wp_bind']
  refine wp_selectOnPool fun d₁ henv₁ => ?_
  split
  · trivial
  rename_i category hcategory
  rw [Prog.wp_bind']
  refine allocateAmounts_wp hamount (by simp)
    (fun d' henv => hinRange d' (env_trans henv₁ henv))
    fun d₂ a l₂ henv₂ ha _ hl₂ => ?_
  rw [Prog.wp_bind', createExpenseRow]
  refine wp_insertInto fun d₃ e ws l₃ henv₃ hrow hinsert hneeds₃ => ?_
  obtain ⟨hinserted, rfl⟩ := insertRow_plain (by decide) hinsert
  have hstored := NewExpense.toRow_ok hrow
  rw [extend_extend, List.nil_append, Prog.wp_bind']
  rw [Session.locks_extend] at henv₃
  refine createExpenseTransaction_wp fun d₄ r l₄ henv₄ hr hposted hl₄ hneeds₄ => ?_
  rw [Session.locks_extend, ← List.append_assoc] at henv₄
  rw [Session.view_extend] at hposted
  rw [Session.view_extend_nil] at hinserted
  have hfresh : (s.view d₄).find .expenses e.id = none := by
    have hlock : (LockTarget.row .expenses e.id, LockMode.update) ∈ s.locks ++ l₂ ++ l₃ :=
      List.mem_append_right _ (hneeds₃ (List.mem_flatMap.2
        ⟨_, List.mem_singleton_self _, List.mem_cons_self ..⟩))
    rw [← find_view_eq henv₄ hlock rfl]
    exact hinserted.fresh
  rw [extend_extend, Prog.wp_pure]
  refine h d₁ d₄ category e r (l₂ ++ l₃ ++ l₄) henv₁ (env_append henv₂ (env_append henv₃ henv₄))
    hcategory ?_ ?_
  · refine ⟨hstored.id, hstored.expenseCategoryId, hstored.loanId, hstored.source, hfresh, hposted,
      hr.id, hr.owns, hr.visible, hr.direction, ?_, ?_, hr.txnDate, hr.nonneg ha.1 ha.2⟩
    · exact Option.some.inj (hr.shuAmount.symm.trans hstored.shuAmount)
    · exact Option.some.inj (hr.capitalAmount.symm.trans hstored.capitalAmount)
  · intro k hk
    rw [← List.singleton_append, List.flatMap_append] at hk
    rcases List.mem_append.1 hk with hk | hk
    · exact List.mem_append_left _ (List.mem_append_right _ (hneeds₃ hk))
    · exact List.mem_append_right _ (hneeds₄ hk)

/-! ### Correction -/

/-- What an update of an expense does to the columns of the books. -/
structure ExpenseSet (amounts : Option Allocation) (txnDate : Option Date) (e e' : Expense) :
    Prop where
  id : e'.id = e.id
  txnDate : e'.txnDate = txnDate.getD e.txnDate
  kept : amounts = none → e'.shuAmount = e.shuAmount ∧ e'.capitalAmount = e.capitalAmount
  stored : ∀ a ∈ amounts, Numeric.ofRat? a.shuAmount = some e'.shuAmount ∧
    Numeric.ofRat? a.capitalAmount = some e'.capitalAmount

theorem UpdateExpense.set_ok {data : UpdateExpense} {e e' : Expense} (h : data.set e = .ok e') :
    ExpenseSet data.amounts data.txnDate e e' := by
  obtain ⟨_, h₁, h⟩ := bind_ok h
  obtain ⟨_, h₂, h⟩ := bind_ok h
  split at h
  · cases h
    refine ⟨rfl, rfl, fun hnone => ?_, fun a ha => ?_⟩
    · rw [hnone] at h₁ h₂
      cases h₁
      cases h₂
      exact ⟨rfl, rfl⟩
    · rw [ha] at h₁ h₂
      exact ⟨money_ok h₁, money_ok h₂⟩
  · cases h

/-- The writes of a correction of an expense. -/
def expenseCorrection (now : Date) (e : Expense) (original reversal new : CashbookTransaction) :
    List Write :=
  .update .expenses e :: correction now original reversal new

/-- What a correction of an expense has read and written. `existing` is the expense as it was read
before the transaction. -/
structure ExpenseCorrected (d : Database) (now : Date) (ids : ExpenseIds) (id : Uuid)
    (existing : Expense) (amounts : Option Allocation) (txnDate : Option Date) (e e' : Expense)
    (original reversal new : CashbookTransaction) : Prop where
  found : d.find .expenses id = some e
  posts : (amounts.isSome || txnDate.isSome) = true
  set : ExpenseSet amounts txnDate e e'
  nonneg : (amounts.getD existing.allocation).Nonneg
  corrected : Corrected (d.apply (.update .expenses e')) now ids.reversal ids.ledger
    (.expense id) (amounts.getD existing.allocation).shuAmount
    (amounts.getD existing.allocation).capitalAmount txnDate original reversal new

theorem owned_update_expense (d : Database) (e : Expense) (o : Owner) :
    (d.apply (.update .expenses e)).owned o = d.owned o :=
  congrArg (List.filter o.owns) (d.rows_update_ne (t := .expenses) (by decide) e)

theorem ExpenseCorrected.congr {d d' : Database} {now : Date} {ids : ExpenseIds} {id : Uuid}
    {existing : Expense} {amounts : Option Allocation} {txnDate : Option Date} {e e' : Expense}
    {original reversal new : CashbookTransaction}
    (h : ExpenseCorrected d now ids id existing amounts txnDate e e' original reversal new)
    (hfound : d'.find .expenses id = d.find .expenses id)
    (howned : d'.owned (.expense id) = d.owned (.expense id))
    (hbalances : ∀ b, d'.balances b = d.balances b)
    (hreversal : d'.find .cashbookTransactions reversal.id =
      d.find .cashbookTransactions reversal.id)
    (hnew : d'.find .cashbookTransactions new.id = d.find .cashbookTransactions new.id) :
    ExpenseCorrected d' now ids id existing amounts txnDate e e' original reversal new := by
  have hfind : ∀ (d : Database) (id : Uuid), (d.apply (.update .expenses e')).find
      .cashbookTransactions id = d.find .cashbookTransactions id := fun d id =>
    Database.find_congr (d.table_update_ne (by decide) _) id
  refine ⟨hfound ▸ h.found, h.posts, h.set, h.nonneg, h.corrected.congr ?_ hbalances ?_ ?_⟩
  · rw [owned_update_expense, owned_update_expense, howned]
  · rw [hfind, hreversal, ← hfind, h.corrected.reversalFresh]
  · rw [hfind, hnew, ← hfind, h.corrected.newFresh]

theorem reallocate_wp [S.Stable (W := Write)] {dto : UpdateExpenseDto} {existing : Expense}
    {effectiveCategory : Option ExpenseCategory} {Q : Option Allocation → Database → Trx → Prop}
    (hamount : ∀ q ∈ dto.amount, 0 < q) (hexisting : existing.allocation.Nonneg)
    (hinRange : ∀ d', S.env s.locks d d' → (s.view d').InRange)
    (h : ∀ d' amounts l, S.env s.locks d d' →
      (amounts.getD existing.allocation).Nonneg →
      (amounts.getD existing.allocation).Decimal →
      Q amounts d' (s.extend [] l)) :
    (reallocate dto existing effectiveCategory).wp S Q d s := by
  unfold reallocate
  split
  · rename_i hnone
    rw [Prog.wp_pure]
    have hdone := h d none [] (Contract.Stable.refl (W := Write) _ _) hexisting
      existing.decimal_allocation
    rwa [extend_nil] at hdone
  · rename_i q hsome
    rw [Prog.wp_bind']
    refine allocateAmounts_wp (hamount q hsome) (fun a ha => ?_) hinRange
      fun d' a l henv ha hdecimal _ => ?_
    · cases ha
      exact hexisting
    · exact h d' (some a) l henv ha hdecimal

theorem updateExpenseInTransaction_wp [S.Stable (W := Write)] {ids : ExpenseIds} {id : Uuid}
    {dto : UpdateExpenseDto} {existing : Expense} {effectiveCategory : Option ExpenseCategory}
    {now : Date} {Q : Unit → Database → Trx → Prop}
    (hamount : ∀ q ∈ dto.amount, 0 < q) (hexisting : existing.allocation.Nonneg)
    (hinRange : ∀ d', S.env s.locks d d' → (s.view d').InRange)
    (hmissing : ∀ d₁ d₂, S.env s.locks d d₁ → S.env s.locks d₁ d₂ →
      (s.view d₁).find .expenses id = none → (s.view d₂).owned (.expense id) = [])
    (hstable : ∀ d₁ d₂ l, S.env s.locks d d₁ → S.env (s.locks ++ l) d₁ d₂ →
      (LockTarget.row .expenses id, LockMode.noKeyUpdate) ∈ l →
      (s.view d₂).owned (.expense id) = (s.view d₁).owned (.expense id))
    (hnothing : ∀ d' l, S.env s.locks d d' → Q () d' (s.extend [] l))
    (hcolumns : ∀ d' e e' l, S.env s.locks d d' → (s.view d').find .expenses id = some e →
      ExpenseSet none none e e' → (LockTarget.row .expenses id, LockMode.noKeyUpdate) ∈ l →
      Q () d' (s.extend [.update .expenses e'] l))
    (hcorrected' : ∀ d₁ d' amounts e e' original reversal new l, S.env s.locks d d' →
      S.allows (repostLabel id amounts dto.transactionDate existing) (s.view d₁) →
      (s.view d₁).find .expenses id = some e →
      ExpenseCorrected (s.view d') now ids id existing amounts dto.transactionDate e e' original
        reversal new →
      (∀ b, (LockTarget.balance b, LockMode.update) ∈ l) →
      (LockTarget.row .expenses id, LockMode.noKeyUpdate) ∈ l →
      (expenseCorrection now e' original reversal new).flatMap needs ⊆ l →
      Q () d' (s.extend (expenseCorrection now e' original reversal new) l)) :
    (updateExpenseInTransaction ids id dto existing effectiveCategory now).wp S Q d s := by
  unfold updateExpenseInTransaction updateExpenseById
  rw [Prog.wp_bind']
  refine reallocate_wp hamount hexisting hinRange fun d₁ amounts l₁ henv₁ hamounts _ => ?_
  rw [Prog.wp_bind']
  refine wp_updateById (fun d₂ l₂ henv₂ hnone => ?_)
    fun d₂ e e' ws l₂ henv₂ hfind hset hupdate hallowed hneeds₂ => ?_
  · -- the expense is gone, and its ledger rows have no owner any more
    rw [extend_extend, List.nil_append]
    rw [Session.locks_extend] at henv₂
    rw [Session.view_extend_nil] at hnone
    have henv := env_trans henv₁ (env_append
      (Contract.Stable.refl (W := Write) _ _) henv₂)
    have hgone : ∀ {d' : Database} {l : Locks} {r : CashbookTransaction},
        S.env (s.locks ++ l) d₂ d' → r ∈ (s.view d').rows .cashbookTransactions →
        (Owner.expense id).owns r = true → False := by
      intro d' l r henv' hr howns
      have hnil := hmissing d₂ d' henv (Contract.Stable.mono (W := Write)
        (List.subset_append_left ..) henv') hnone
      have howned := mem_owned.2 ⟨hr, howns⟩
      rw [hnil] at howned
      exact List.not_mem_nil howned
    split
    · refine updateTransaction_wp (fun d₃ d₄ original henv₃ _ hmem howns _ => ?_)
        fun d₃ original reversal new l henv₃ hcorrected _ _ => ?_
      · rw [Session.view_extend_nil] at hmem
        exact (hgone henv₃ hmem howns).elim
      · have hmem := hcorrected.mem
        rw [Session.view_extend_nil] at hmem
        exact (hgone henv₃ hmem hcorrected.owned).elim
    · exact hnothing d₂ _ henv
  · obtain ⟨-, rfl⟩ := updateRow_plain (by decide) hupdate
    rw [extend_extend, List.nil_append]
    rw [Session.locks_extend] at henv₂
    rw [Session.view_extend_nil] at hfind hallowed
    have henv := env_trans henv₁ (env_append
      (Contract.Stable.refl (W := Write) _ _) henv₂)
    have hset : ExpenseSet amounts dto.transactionDate e e' := UpdateExpense.set_ok hset
    have hlock : (LockTarget.row .expenses id, LockMode.noKeyUpdate) ∈ l₁ ++ l₂ := by
      have hrow : e'.id = id := hset.id.trans (Database.find_id hfind)
      have hneeded : (LockTarget.row .expenses e'.id, LockMode.noKeyUpdate) ∈ l₂ :=
        hneeds₂ (List.mem_singleton_self _)
      rw [hrow] at hneeded
      exact List.mem_append_right _ hneeded
    have hrows : ∀ d' : Database, ((s.extend [.update .expenses e'] (l₁ ++ l₂)).view d').rows
        .cashbookTransactions = (s.view d').rows .cashbookTransactions := by
      intro d'
      rw [Session.view_extend]
      exact congrArg Table.rows (Database.table_update_ne _ (by decide) _)
    split
    · rename_i hposts
      rw [updateExpenseTransaction]
      refine updateTransaction_wp (fun d₃ d₄ original henv₃ henv₄ hmem howns _ => ?_)
        fun d₃ original reversal new l henv₃ hcorrected hbalances hneeds => ?_
      · rw [hrows] at hmem ⊢
        rw [Session.locks_extend] at henv₃ henv₄
        have hstill := hstable d₃ d₄ (l₁ ++ l₂) (env_append henv henv₃) henv₄ hlock
        have howned := mem_owned.2 ⟨hmem, howns⟩
        rw [← hstill] at howned
        exact (mem_owned.1 howned).1
      · rw [extend_extend]
        rw [Session.locks_extend] at henv₃
        rw [Session.view_extend] at hcorrected
        refine hcorrected' d₂ d₃ amounts e e' original reversal new _ (env_append henv henv₃)
          hallowed hfind ⟨?_, hposts, hset, hamounts, hcorrected⟩ (fun b => ?_)
          (List.mem_append_left _ hlock) ?_
        · rw [← find_view_eq henv₃ (List.mem_append_right _ hlock) rfl]
          exact hfind
        · exact List.mem_append_right _ (hbalances b)
        · intro k hk
          rw [expenseCorrection, ← List.singleton_append, List.flatMap_append] at hk
          rcases List.mem_append.1 hk with hk | hk
          · exact List.mem_append_left _ (List.mem_append_right _ (hneeds₂ hk))
          · exact List.mem_append_right _ (hneeds hk)
    · rename_i hno
      rw [Bool.or_eq_true, not_or, Option.not_isSome_iff_eq_none, Option.not_isSome_iff_eq_none]
        at hno
      obtain ⟨rfl, hdate⟩ := hno
      rw [hdate] at hset
      exact hcolumns d₂ e e' _ henv hfind hset hlock

/-! ### Deletion -/

theorem updateRow_disown {d : Database} {r : CashbookTransaction} {ws : List Write}
    (h : updateRow d .cashbookTransactions r r.disown = .ok ws) :
    ws = [.update .cashbookTransactions r.disown] := by
  refine updateRow_cashbook ?_ ?_ ?_ h <;> rfl

theorem deleteExpenseById_wp {id : Uuid} {Q : Option Expense → Database → Trx → Prop}
    (hnone : ∀ d' l, S.env s.locks d d' → (s.view d').find .expenses id = none →
      Q none d' (s.extend [] l))
    (hsome : ∀ d' e ws l, S.env s.locks d d' → (s.view d').find .expenses id = some e →
      ws = .delete .expenses id ::
        (((s.view d').owned (.expense id)).map CashbookTransaction.disown).map
          (Write.update .cashbookTransactions) →
      ws.flatMap needs ⊆ l → Q (some e) d' (s.extend ws l)) :
    (deleteExpenseById id).wp S Q d s := by
  refine wp_statement fun d' ws b l henv hexec _ _ hneeds => ?_
  split at hexec
  · rename_i hfind
    cases hexec
    exact hnone d' l henv hfind
  · rename_i e hfind
    obtain ⟨ws', hupdates, hexec⟩ := bind_ok hexec
    cases hexec
    have hws := updateRows_ok (fun _ _ _ => updateRow_disown) hupdates
    exact hsome d' e _ l henv hfind (by rw [hws]; rfl) hneeds

/-- A row of a removed expense when the expense is deleted. -/
def CashbookTransaction.buried (now : Date) (r : CashbookTransaction) : CashbookTransaction :=
  if r.deletedAt.isNone then r.softDelete now else r

/-- The writes of a deletion of an expense with its ledger rows. -/
def expenseDeletion (now : Date) (id : Uuid) (rows : List CashbookTransaction) : List Write :=
  removal now rows ++ .delete .expenses id ::
    ((rows.map (CashbookTransaction.buried now)).map CashbookTransaction.disown).map
      (Write.update .cashbookTransactions)

section Deletion

variable {d : Database} {now : Date} {id : Uuid}

theorem owned_removal (o : Owner) : (applyAll d (removal now (d.owned o))).owned o =
    (d.owned o).map (CashbookTransaction.buried now) := by
  rw [Database.owned, rows_removal, hide, List.filter_map, Database.owned]
  have howns : (o.owns ∘ fun r => if (o.owns r && r.deletedAt.isNone) = true then
      r.softDelete now else r) = o.owns := by
    funext r
    simp only [Function.comp_apply]
    split <;> simp
  rw [howns]
  refine List.map_congr_left fun r hr => ?_
  rw [(List.mem_filter.1 hr).2, Bool.true_and, CashbookTransaction.buried]

theorem table_expenses_expenseDeletion {rows : List CashbookTransaction} :
    (applyAll d (expenseDeletion now id rows)).table .expenses = (d.table .expenses).erase id := by
  rw [expenseDeletion, applyAll_append, applyAll_cons, table_updates_ne (by decide),
    Database.store_apply, Database.table_delete_self, table_removal_ne (by decide)]

theorem rows_expenseDeletion :
    (applyAll d (expenseDeletion now id (d.owned (.expense id)))).rows .cashbookTransactions =
      ((applyAll d (removal now (d.owned (.expense id)))).rows .cashbookTransactions).map
        fun r => if (Owner.expense id).owns r then r.disown else r := by
  have hrows : ((applyAll d (removal now (d.owned (.expense id)))).apply
      (.delete .expenses id)).rows .cashbookTransactions =
      (applyAll d (removal now (d.owned (.expense id)))).rows .cashbookTransactions :=
    congrArg Table.rows (Database.table_delete_ne _ (by decide) _)
  rw [expenseDeletion, applyAll_append, applyAll_cons, Database.store_apply,
    rows_updates .cashbookTransactions (p := (Owner.expense id).owns) CashbookTransaction.disown
      (fun _ => rfl), hrows]
  rw [hrows]
  exact owned_removal (.expense id)

theorem balances_expenseDeletion (b : BalanceType) :
    (applyAll d (expenseDeletion now id (d.owned (.expense id)))).balances b =
      (applyAll d (removal now (d.owned (.expense id)))).balances b := by
  rw [expenseDeletion, applyAll_append, applyAll_cons, Database.balances_applyAll, delta_updates,
    add_zero]
  rfl

theorem expenseDeletion_books {initial : BalanceType → ℤ} {dead : Owner → Prop}
    (ho : ¬dead (.expense id))
    (hbooks : Books initial dead d.balances (d.rows .cashbookTransactions)) :
    Books initial dead
      (applyAll d (expenseDeletion now id (d.owned (.expense id)))).balances
      ((applyAll d (expenseDeletion now id (d.owned (.expense id)))).rows .cashbookTransactions) := by
  rw [rows_expenseDeletion, show (applyAll d _).balances = _ from funext balances_expenseDeletion]
  exact (removal_books ho hbooks).disown

end Deletion

end LumbungMesari
