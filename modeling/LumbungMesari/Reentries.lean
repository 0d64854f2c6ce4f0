import LumbungMesari.Deletions
import LumbungMesari.LedgerHistory

/-!
# A correction is a deletion and a new entry

A correction of an expense gives its amounts back in a reversal row and posts the new ones; a
deletion gives them back by hand, and a new expense is posted afterwards. Both can be made under the
same condition, on the amount and on what the expense has taken, and both leave the same. Only an
amount that is all of the funds can be refused by one and taken by the other: the correction adds
up numbers that are already added after a deletion.
-/

namespace LumbungMesari

open Sql Js

variable {d : Database} {amount : ℚ} {source : ExpenseSource} {x : Expense}

/-- The amounts of an expense that is not deleted are the amounts of its one visible row. -/
structure Database.Split (d : Database) (id : Uuid) (shu capital : Money) : Prop where
  row : ∃ x, d.find .expenses id = some x ∧ x.shuAmount = shu ∧ x.capitalAmount = capital
  entry : ∃ r, (d.owned (.expense id)).filter (·.visible) = [r] ∧ r.shuAmount = shu ∧
    r.capitalAmount = capital

/-- Two states with the same balances and with the same split of an expense, under its id in each. -/
structure SameSplit (d d' : Database) (id id' : Uuid) : Prop where
  balances : d.balances = d'.balances
  split : ∃ shu capital, d.Split id shu capital ∧ d'.Split id' shu capital

/-- The funds of a source after the deletion of an expense, as a new entry adds them up. -/
def Database.reentryFunds (d : Database) (source : ExpenseSource) (x : Expense) : Double :=
  source.funds (.ofRat (d.balance .shu + x.shuAmount.toRat))
    (.ofRat (d.balance .capital + x.capitalAmount.toRat))

/-- An amount that an expense can be given: what it has taken can be given back, and then the funds
suffice. -/
structure Reenterable (d : Database) (x : Expense) (amount : ℚ) (funds : Double) : Prop where
  checked : checkAmount amount = .ok ()
  room : Holds d.balances 1 x.shuAmount x.capitalAmount
  funded : .ofRat amount ≤ funds

/-- Where an amount is all of the funds, both ways to add them up find it covered, or neither. -/
def FundsAgree (d : Database) (x : Expense) (amount : ℚ) (source : ExpenseSource) : Prop :=
  checkAmount amount = .ok () → Holds d.balances 1 x.shuAmount x.capitalAmount →
    d.funds source (some x.allocation) = amount →
      (.ofRat amount ≤ d.numberFunds source (some x.allocation) ↔
        .ofRat amount ≤ d.reentryFunds source x)

/-- An update of the amount and the source, and of nothing else. -/
def amountAndSource (amount : ℚ) (source : ExpenseSource) : UpdateExpenseDto where
  expenseCategoryId := none
  name := none
  amount := some amount
  loanId := none
  notes := none
  source := some source
  transactionDate := none

section Ledger

variable {initial : BalanceType → ℤ} {removed : Uuid → Prop} {ids : ExpenseIds} {id : Uuid}
  {now : Date}

theorem split_of_find (h : LedgerInvariant Expense.Agrees initial removed d)
    (hfound : d.find .expenses id = some x) : d.Split id x.shuAmount x.capitalAmount := by
  obtain ⟨r, hvisible, hagrees⟩ := h.expenses.entry id x hfound
  exact ⟨⟨x, hfound, rfl, rfl⟩, r, hvisible, hagrees.shuAmount, hagrees.capitalAmount⟩

/-! ### Corrections -/

theorem CashbookTransactionData.Over.holds {data : CashbookTransactionData} {shu capital : Money}
    {rowId : Uuid} {r : CashbookTransaction} (h : data.Over d shu capital)
    (hstored : data.Stored rowId r) : Holds d.balances data.direction.sign shu capital := by
  have hcolumn : ∀ {q : ℚ} {m : Money} (z : ℤ), q = z / 10 ^ 4 → Numeric.ofRat? q = some m →
      z < 10 ^ 12 := by
    rintro _ m z rfl hm
    have hunits := Numeric.ofRat?_some hm
    rw [div_mul_cancel₀ _ (by norm_num), roundHalfAway_intCast] at hunits
    have hm := m.inRange
    omega
  intro b
  cases b with
  | shu =>
      refine hcolumn _ ?_ hstored.shuBalanceAfter
      rw [h.shuBalanceAfter, Database.balance, Numeric.toRat, amountsOf]
      push_cast
      ring
  | capital =>
      refine hcolumn _ ?_ hstored.capitalBalanceAfter
      rw [h.capitalBalanceAfter, Database.balance, Numeric.toRat, amountsOf]
      push_cast
      ring
  | total =>
      refine hcolumn _ ?_ hstored.totalBalanceAfter
      rw [h.totalBalanceAfter, Database.balance, Numeric.toRat, Numeric.toRat, amountsOf]
      push_cast
      ring

section Correction

variable {amounts : Option Allocation} {txnDate : Option Date} {x' : Expense}
  {original reversal new : CashbookTransaction}

theorem original_agrees (h : LedgerInvariant Expense.Agrees initial removed d)
    (hc : ExpenseCorrected d now ids id x amounts txnDate x x' original reversal new) :
    x.Agrees original := by
  obtain ⟨hvisible, -⟩ := h.visible_expenseCorrection hc
  obtain ⟨r, hr, hagrees⟩ := h.expenses.entry id x hc.found
  obtain rfl : original = r := List.singleton_inj.1 (hvisible.symm.trans hr)
  exact hagrees

theorem holds_corrected (h : LedgerInvariant Expense.Agrees initial removed d)
    (hc : ExpenseCorrected d now ids id x amounts txnDate x x' original reversal new) :
    Holds d.balances 1 x.shuAmount x.capitalAmount := by
  have hagrees := original_agrees h hc
  rw [← hagrees.shuAmount, ← hagrees.capitalAmount]
  have hover : (reversalEntry (.expense id) original
      (d.apply (.update .expenses x')).current).Over (d.apply (.update .expenses x'))
      original.shuAmount original.capitalAmount := reversalEntry_over rfl
  exact hover.holds hc.corrected.reversed

theorem balances_corrected (h : LedgerInvariant Expense.Agrees initial removed d)
    (hc : ExpenseCorrected d now ids id x amounts txnDate x x' original reversal new)
    (b : BalanceType) : (applyAll d (expenseCorrection now x' original reversal new)).balances b =
      givenBack d.balances x.shuAmount x.capitalAmount b -
        amountsOf x'.shuAmount x'.capitalAmount b := by
  have hagrees := original_agrees h hc
  have hnew := hc.agrees (fun _ => rfl) hagrees
  have hnonneg : reversal.Nonneg :=
    hc.corrected.reversal_nonneg (h.books.nonneg _ (LedgerInvariant.mem_of_corrected hc))
  rw [expenseCorrection, applyAll_cons, correction, applyAll_cons, applyAll_append,
    CashbookTransaction.balances_postings _
      (hc.corrected.corrected.nonneg hc.nonneg.1 hc.nonneg.2),
    balances_givenBack hnonneg hc.corrected.reversed.direction,
    ofRat?_toRat_eq hc.corrected.reversed.shuAmount,
    ofRat?_toRat_eq hc.corrected.reversed.capitalAmount, hagrees.shuAmount, hagrees.capitalAmount,
    signed_of_out hc.corrected.corrected.direction, hnew.shuAmount, hnew.capitalAmount]
  rfl

end Correction

/-! ### What both leave -/

/-- A state in which an expense has taken an amount from the balances with what `x` had taken given
back. -/
structure Retaken (d : Database) (x : Expense) (amount : ℚ) (source : ExpenseSource)
    (d' : Database) (id' : Uuid) (x' : Expense) : Prop where
  found : d'.find .expenses id' = some x'
  shuAmount : Numeric.ofRat? (source.split amount
    (d.balance .capital + x.capitalAmount.toRat)).shuAmount = some x'.shuAmount
  capitalAmount : Numeric.ofRat? (source.split amount
    (d.balance .capital + x.capitalAmount.toRat)).capitalAmount = some x'.capitalAmount
  balances : ∀ b, d'.balances b = givenBack d.balances x.shuAmount x.capitalAmount b -
    amountsOf x'.shuAmount x'.capitalAmount b

theorem Retaken.sameSplit {d₁ d₂ : Database} {id₁ id₂ : Uuid} {x₁ x₂ : Expense}
    (h₁ : Retaken d x amount source d₁ id₁ x₁) (h₂ : Retaken d x amount source d₂ id₂ x₂)
    (hledger₁ : LedgerSound d₁) (hledger₂ : LedgerSound d₂) : SameSplit d₁ d₂ id₁ id₂ := by
  obtain ⟨_, _, -, hledger₁⟩ := hledger₁
  obtain ⟨_, _, -, hledger₂⟩ := hledger₂
  have hshu : x₁.shuAmount = x₂.shuAmount := Option.some.inj (h₁.shuAmount.symm.trans h₂.shuAmount)
  have hcapital : x₁.capitalAmount = x₂.capitalAmount :=
    Option.some.inj (h₁.capitalAmount.symm.trans h₂.capitalAmount)
  refine ⟨funext fun b => ?_, x₁.shuAmount, x₁.capitalAmount, split_of_find hledger₁ h₁.found, ?_⟩
  · rw [h₁.balances, h₂.balances, hshu, hcapital]
  · rw [hshu, hcapital]
    exact split_of_find hledger₂ h₂.found

theorem split_of_allocates {restore : Option Allocation} {a : Allocation} (hrange : d.InRange)
    (hrestore : ∀ a ∈ restore, a.Taken) (hamount : 0 < amount) (hdecimal : Sql.Decimal 4 amount)
    (h : d.allocates amount (some source) restore = .ok a) :
    .ofRat amount ≤ d.numberFunds source restore ∧
      a = source.split amount (d.balance .capital + restore.elim 0 (·.capitalAmount)) := by
  rcases d.allocates_cases hrange hrestore hamount hdecimal source with
    ⟨-, -, he⟩ | ⟨henough, -, ha⟩
  · cases h.symm.trans he
  · exact ⟨henough, Except.ok.inj (h.symm.trans ha)⟩

theorem funded_iff {restore : Option Allocation} (hrange : d.InRange)
    (hrestore : ∀ a ∈ restore, a.Taken) (hamount : 0 < amount) (hdecimal : Sql.Decimal 4 amount)
    (hne : d.funds source restore ≠ amount) :
    .ofRat amount ≤ d.numberFunds source restore ↔ amount ≤ d.funds source restore := by
  rcases d.allocates_cases hrange hrestore hamount hdecimal source with
    ⟨hshort, hle, -⟩ | ⟨henough, hle, -⟩
  · exact iff_of_false (not_le.2 hshort) (not_le.2 (hle.lt_of_ne hne))
  · exact iff_of_true henough hle

/-! ### Correcting -/

theorem correct_returns (h : LedgerInvariant Expense.Agrees initial removed d)
    (hfound : d.find .expenses id = some x) (hdecimal : Sql.Decimal 4 amount) {x' : Expense}
    {d' : Database} {s' : Trx}
    (hreturns : (updateExpense ids id (amountAndSource amount source) now).Returns d .idle x' d' s') :
    Reenterable d x amount (d.numberFunds source (some x.allocation)) ∧
      Retaken d x amount source d' id x' := by
  obtain ⟨x₀, amounts, ws, hfound₀, hchecked, hrevised, hposted, rfl⟩ :=
    updateExpense_returns h hreturns
  obtain rfl : x = x₀ := Option.some.inj (hfound.symm.trans hfound₀)
  have hx := h.allocation_nonneg Expense.Agrees.allocation hfound
  cases amounts with
  | none => cases hrevised.asked.1 rfl
  | some a =>
      obtain ⟨hfunded, rfl⟩ := split_of_allocates h.inRange (Allocation.some_taken hx)
        (checkAmount_ok hchecked) hdecimal (hrevised.allocated amount rfl a rfl)
      obtain ⟨hshu, hcapital⟩ := hrevised.set.stored _ rfl
      cases hposted with
      | columns hnone => cases hnone
      | posted hc =>
          refine ⟨⟨hchecked, holds_corrected h hc, hfunded⟩, ?_, hshu, hcapital,
            balances_corrected h hc⟩
          rw [LedgerInvariant.find_expenseCorrection hc, if_pos rfl]

/-- An expense can be corrected exactly while the amount is reenterable. -/
theorem correct_isOk (h : LedgerInvariant Expense.Agrees initial removed d)
    (htotal : d.balances .total = d.balances .shu + d.balances .capital)
    (hfound : d.find .expenses id = some x) (hdecimal : Sql.Decimal 4 amount)
    (hreversal : d.find .cashbookTransactions ids.reversal = none)
    (hledger : d.find .cashbookTransactions ids.ledger = none) (hne : ids.reversal ≠ ids.ledger)
    (source : ExpenseSource) (now : Date) :
    ((updateExpense ids id (amountAndSource amount source) now).result d).isOk = true ↔
      Reenterable d x amount (d.numberFunds source (some x.allocation)) := by
  refine Prog.isOk_iff (fun e he hreenterable => ?_) fun _ _ _ hreturns =>
    (correct_returns h hfound hdecimal hreturns).1
  have hthrows : (updateExpense ids id (amountAndSource amount source) now).Throws
      (Uncorrectable d ids id (amountAndSource amount source)) d .idle :=
    updateExpense_throws h htotal fun q hq => by cases hq; exact hdecimal
  cases hthrows e he with
  | missing hnone => cases hfound.symm.trans hnone
  | amount hasked hrefused =>
      cases hasked
      cases hreenterable.checked.symm.trans hrefused
  | category hasked => cases hasked
  | source hfound' hnone => cases hnone
  | funds hfound' hasked heffective hshort =>
      obtain rfl : x = _ := Option.some.inj (hfound.symm.trans hfound')
      cases hasked
      cases heffective
      exact absurd hreenterable.funded (not_le.2 hshort)
  | duplicate htaken => simp [hreversal, hledger, hne] at htaken
  | reference hasked => cases hasked
  | overflow hfound' hfull =>
      obtain rfl : x = _ := Option.some.inj (hfound.symm.trans hfound')
      exact hfull hreenterable.room

/-! ### Deleting and entering again -/

/-- What a new expense names is there, and its ids are not taken. -/
structure Creatable (d : Database) (ids : ExpenseIds) (dto : CreateExpenseDto)
    (currentUserId : Uuid) : Prop where
  category : d.find .expenseCategories dto.expenseCategoryId ≠ none
  user : d.find .users currentUserId ≠ none
  loan : ∀ loanId ∈ dto.loanId, d.find .loans loanId ≠ none
  expense : d.find .expenses ids.expense = none
  ledger : d.find .cashbookTransactions ids.ledger = none

variable {dto : CreateExpenseDto} {currentUserId : Uuid}

theorem create_isOk (hrange : d.InRange)
    (htotal : d.balances .total = d.balances .shu + d.balances .capital)
    (hdecimal : Sql.Decimal 4 dto.amount) (hsource : dto.source = some source)
    (hcreatable : Creatable d ids dto currentUserId) :
    ((createExpense ids dto currentUserId now).result d).isOk = true ↔
      checkAmount dto.amount = .ok () ∧ .ofRat dto.amount ≤ d.numberFunds source none := by
  refine Prog.isOk_iff (fun e he hfunded => ?_) fun x d' s' hreturns => ?_
  · cases createExpense_throws hrange htotal hdecimal e he with
    | amount hrefused => cases hfunded.1.symm.trans hrefused
    | category hmissing => exact hcreatable.category hmissing
    | funds hfound hshort =>
        rw [hsource] at hshort
        exact absurd hfunded.2 (not_le.2 hshort)
    | duplicate htaken => simp [hcreatable.expense, hcreatable.ledger] at htaken
    | reference hmem hmissing =>
        rcases List.mem_cons.1 hmem with rfl | hmem
        · exact hcreatable.user hmissing
        · obtain ⟨loanId, hloan, rfl⟩ := List.mem_map.1 hmem
          exact hcreatable.loan loanId (Option.mem_toList.1 hloan) hmissing
  · obtain ⟨hchecked, category, a, r, hcreated, -⟩ := createExpense_returns hrange hreturns
    have hallocated := hcreated.allocated
    rw [hsource] at hallocated
    exact ⟨hchecked, (split_of_allocates hrange Allocation.none_taken (checkAmount_ok hchecked)
      hdecimal hallocated).1⟩

/-- The state after the deletion of an expense. -/
def Database.deleted (d : Database) (id : Uuid) (now : Date) : Database :=
  applyAll d (expenseDeletion now id (d.owned (.expense id)))

theorem Creatable.deleted (h : Creatable d ids dto currentUserId) :
    Creatable (d.deleted id now) ids dto currentUserId := by
  have hfind : ∀ {t : TableName}, TableName.expenses ≠ t → TableName.cashbookTransactions ≠ t →
      ∀ id', (d.deleted id now).find t id' = d.find t id' := fun he hc =>
    Database.find_congr (table_expenseDeletion_ne he hc)
  refine ⟨?_, ?_, fun loanId hloan => ?_, ?_, ?_⟩
  · rw [hfind (by decide) (by decide)]
    exact h.category
  · rw [hfind (by decide) (by decide)]
    exact h.user
  · rw [hfind (by decide) (by decide)]
    exact h.loan loanId hloan
  · rw [Database.deleted, LedgerInvariant.find_expenseDeletion, h.expense, ite_self]
  · exact find_expenseDeletion_none h.ledger

theorem balance_deleted (h : LedgerInvariant Expense.Agrees initial removed d)
    (hfound : d.find .expenses id = some x) (now : Date) :
    (d.deleted id now).balance .shu = d.balance .shu + x.shuAmount.toRat ∧
      (d.deleted id now).balance .capital = d.balance .capital + x.capitalAmount.toRat := by
  have hbalances := balances_deleted h hfound now
  constructor <;> rw [Database.balance, Database.deleted, hbalances, givenBack] <;>
    simp only [amountsOf, Database.balance, Numeric.toRat] <;> push_cast <;> ring

theorem funds_deleted (h : LedgerInvariant Expense.Agrees initial removed d)
    (hfound : d.find .expenses id = some x) (now : Date) :
    (d.deleted id now).funds source none = d.funds source (some x.allocation) ∧
      (d.deleted id now).numberFunds source none = d.reentryFunds source x := by
  obtain ⟨hshu, hcapital⟩ := balance_deleted h hfound now
  constructor
  · rw [Database.funds, hshu, hcapital, Option.elim_none, Option.elim_none, add_zero, add_zero]
    rfl
  · rw [Database.numberFunds, Option.map_none, Option.map_none, restored_none, restored_none, hshu,
      hcapital]
    rfl

theorem reenter_returns (h : LedgerInvariant Expense.Agrees initial removed d)
    (hrange : (d.deleted id now).InRange) (hdecimal : Sql.Decimal 4 dto.amount)
    (hfound : d.find .expenses id = some x) (hsource : dto.source = some source) {now' : Date}
    {x' : Expense} {d' : Database} {s' : Trx}
    (hreturns : (createExpense ids dto currentUserId now').Returns (d.deleted id now) .idle x' d'
      s') : Retaken d x dto.amount source d' ids.expense x' := by
  obtain ⟨hchecked, category, a, r, hcreated, rfl⟩ := createExpense_returns hrange hreturns
  have hallocated := hcreated.allocated
  rw [hsource] at hallocated
  obtain ⟨-, rfl⟩ := split_of_allocates hrange Allocation.none_taken (checkAmount_ok hchecked)
    hdecimal hallocated
  have hshu := hcreated.shuAmount
  have hcapital := hcreated.capitalAmount
  rw [Option.elim_none, add_zero, (balance_deleted h hfound now).2] at hshu hcapital
  refine ⟨?_, hshu, hcapital, fun b => ?_⟩
  · rw [← hcreated.created.id, hcreated.find, if_pos rfl]
  · rw [applyAll_cons, CashbookTransaction.balances_postings _ hcreated.created.nonneg,
      signed_of_out hcreated.created.direction, hcreated.created.shuAmount,
      hcreated.created.capitalAmount, ← balances_deleted h hfound now, ← sub_eq_add_neg]
    rfl

theorem deleteExpense_after (h : LedgerInvariant Expense.Agrees initial removed d)
    (hfound : d.find .expenses id = some x)
    (hok : ((deleteExpense id now).result d).isOk = true) :
    (deleteExpense id now).after d = d.deleted id now := by
  obtain ⟨_, d', s', hreturns⟩ := Prog.exists_returns_of_isOk hok
  exact hreturns.after.trans (deleteExpense_returns h hfound hreturns).2

/-- After a deletion, an entry is made exactly while the funds suffice with what the deletion gave
back. -/
theorem reenter_isOk (h : LedgerInvariant Expense.Agrees initial removed d)
    (hfound : d.find .expenses id = some x) (hdeleted : LedgerSound (d.deleted id now))
    (hdecimal : Sql.Decimal 4 dto.amount) (hsource : dto.source = some source) {ids' : ExpenseIds}
    (hcreatable : Creatable d ids' dto currentUserId) (now' : Date) :
    ((createExpense ids' dto currentUserId now').result (d.deleted id now)).isOk = true ↔
      checkAmount dto.amount = .ok () ∧ .ofRat dto.amount ≤ d.reentryFunds source x := by
  have htotal := hdeleted.total
  obtain ⟨_, _, -, hledger⟩ := hdeleted
  rw [← (funds_deleted h hfound now).2]
  exact create_isOk hledger.inRange htotal hdecimal hsource hcreatable.deleted

/-- The two ways agree on an amount exactly while the ways to add up the funds do. -/
theorem reenterable_agree (h : LedgerInvariant Expense.Agrees initial removed d)
    (hfound : d.find .expenses id = some x)
    (hrange : Holds d.balances 1 x.shuAmount x.capitalAmount → (d.deleted id now).InRange)
    (hdecimal : Sql.Decimal 4 amount) :
    (Reenterable d x amount (d.numberFunds source (some x.allocation)) ↔
      Reenterable d x amount (d.reentryFunds source x)) ↔ FundsAgree d x amount source := by
  have hx := h.allocation_nonneg Expense.Agrees.allocation hfound
  obtain ⟨hfunds, hnumber⟩ : (d.deleted id now).funds source none = _ ∧ _ :=
    funds_deleted h hfound now
  constructor
  · rintro hiff hchecked hroom -
    exact ⟨fun hfunded => (hiff.1 ⟨hchecked, hroom, hfunded⟩).funded,
      fun hfunded => (hiff.2 ⟨hchecked, hroom, hfunded⟩).funded⟩
  · intro hagree
    have hboth (hchecked : checkAmount amount = .ok ())
        (hroom : Holds d.balances 1 x.shuAmount x.capitalAmount) :
        .ofRat amount ≤ d.numberFunds source (some x.allocation) ↔
          .ofRat amount ≤ d.reentryFunds source x := by
      by_cases hall : d.funds source (some x.allocation) = amount
      · exact hagree hchecked hroom hall
      · have hamount := checkAmount_ok hchecked
        rw [funded_iff h.inRange (Allocation.some_taken hx) hamount hdecimal hall, ← hnumber,
          funded_iff (hrange hroom) Allocation.none_taken hamount hdecimal (hfunds ▸ hall), hfunds]
    exact ⟨fun hre => ⟨hre.checked, hre.room, (hboth hre.checked hre.room).1 hre.funded⟩,
      fun hre => ⟨hre.checked, hre.room, (hboth hre.checked hre.room).2 hre.funded⟩⟩

/-- In a state with a sound ledger, an expense can be corrected exactly when it can be deleted and
entered again, while the funds agree, and both leave the same. -/
theorem corrected_iff_reentered (h : LedgerSound d) (hfound : d.find .expenses id = some x)
    (hdecimal : Sql.Decimal 4 amount) (hamount : dto.amount = amount)
    (hsource : dto.source = some source)
    (hreversal : d.find .cashbookTransactions ids.reversal = none)
    (hledger : d.find .cashbookTransactions ids.ledger = none) (hne : ids.reversal ≠ ids.ledger)
    {ids' : ExpenseIds} (hcreatable : Creatable d ids' dto currentUserId) (now' now'' : Date) :
    let correct := updateExpense ids id (amountAndSource amount source) now
    let delete := deleteExpense id now'
    let reenter := createExpense ids' dto currentUserId now''
    (((correct.result d).isOk = true ↔
        (delete.result d).isOk = true ∧ (reenter.result (delete.after d)).isOk = true) ↔
      FundsAgree d x amount source) ∧
    ((correct.result d).isOk = true → (delete.result d).isOk = true →
      (reenter.result (delete.after d)).isOk = true →
      SameSplit (correct.after d) (reenter.after (delete.after d)) id ids'.expense) := by
  have htotal := h.total
  have hcorrected := (h.after (.updateExpense ids id (amountAndSource amount source) now)).2
  have hdeleted := (h.after (.deleteExpense id now')).2
  have hreentered := (hdeleted.after (.createExpense ids' dto currentUserId now'')).2
  simp only [LedgerCall.program, Prog.after_bind_pure] at hcorrected hdeleted hreentered
  obtain ⟨initial, removed, -, hd⟩ := h
  subst hamount
  have hcorrect := correct_isOk hd htotal hfound hdecimal hreversal hledger hne source now
  have hdelete := deleteExpense_isOk hd hfound now'
  have hsound : ((deleteExpense id now').result d).isOk = true →
      LedgerSound (d.deleted id now') := fun hok => deleteExpense_after hd hfound hok ▸ hdeleted
  have hrange : Holds d.balances 1 x.shuAmount x.capitalAmount →
      (d.deleted id now').InRange := fun hroom => by
    obtain ⟨_, _, -, hledger'⟩ := hsound (hdelete.2 hroom)
    exact hledger'.inRange
  have hreenter : (((deleteExpense id now').result d).isOk = true ∧
      ((createExpense ids' dto currentUserId now'').result
        ((deleteExpense id now').after d)).isOk = true) ↔
      Reenterable d x dto.amount (d.reentryFunds source x) := by
    constructor
    · rintro ⟨hok, hreenter⟩
      rw [deleteExpense_after hd hfound hok] at hreenter
      obtain ⟨hchecked, hfunded⟩ := (reenter_isOk hd hfound (hsound hok) hdecimal hsource
        hcreatable now'').1 hreenter
      exact ⟨hchecked, hdelete.1 hok, hfunded⟩
    · rintro ⟨hchecked, hroom, hfunded⟩
      have hok := hdelete.2 hroom
      rw [deleteExpense_after hd hfound hok]
      exact ⟨hok, (reenter_isOk hd hfound (hsound hok) hdecimal hsource hcreatable now'').2
        ⟨hchecked, hfunded⟩⟩
  dsimp only
  refine ⟨?_, fun hok hdeleteOk hreenterOk => ?_⟩
  · rw [hcorrect, hreenter]
    exact reenterable_agree hd hfound hrange hdecimal
  · obtain ⟨x₁, d₁, s₁, hreturns₁⟩ := Prog.exists_returns_of_isOk hok
    obtain ⟨x₂, d₂, s₂, hreturns₂⟩ := Prog.exists_returns_of_isOk hreenterOk
    rw [hreturns₁.after] at hcorrected ⊢
    rw [hreturns₂.after] at hreentered ⊢
    rw [deleteExpense_after hd hfound hdeleteOk] at hreturns₂
    exact (correct_returns hd hfound hdecimal hreturns₁).2.sameSplit
      (reenter_returns hd (hrange (hdelete.1 hdeleteOk)) hdecimal hfound hsource hreturns₂)
      hcorrected hreentered

end Ledger

/-! ### From the migrated state -/

/-- **A correction is a deletion and a new entry.** In every state that complete calls reach, an
expense with any number of corrections takes a new amount and source exactly when it can be deleted
and entered again with them, unless the amount is all of the funds and only one of the two sums is
rounded below it. Where both succeed they leave the same balances and the same split. -/
theorem correction_is_reentry_iff {d₀ : Database} (h₀ : Migrated d₀) (xs : List LedgerCall)
    {id : Uuid} {x : Expense}
    (hfound : (runCalls LedgerCall.program d₀ xs).find .expenses id = some x)
    (amount : ℚ) (hdecimal : Sql.Decimal 4 amount) (source : ExpenseSource) (ids ids' : ExpenseIds)
    (dto : CreateExpenseDto) (currentUserId : Uuid) (hamount : dto.amount = amount)
    (hsource : dto.source = some source)
    (hreversal : (runCalls LedgerCall.program d₀ xs).find .cashbookTransactions ids.reversal = none)
    (hledger : (runCalls LedgerCall.program d₀ xs).find .cashbookTransactions ids.ledger = none)
    (hne : ids.reversal ≠ ids.ledger)
    (hcreatable : Creatable (runCalls LedgerCall.program d₀ xs) ids' dto currentUserId)
    (now now' now'' : Date) :
    let d := runCalls LedgerCall.program d₀ xs
    let correct := updateExpense ids id (amountAndSource amount source) now
    let delete := deleteExpense id now'
    let reenter := createExpense ids' dto currentUserId now''
    (((correct.result d).isOk = true ↔
        (delete.result d).isOk = true ∧ (reenter.result (delete.after d)).isOk = true) ↔
      FundsAgree d x amount source) ∧
    ((correct.result d).isOk = true → (delete.result d).isOk = true →
      (reenter.result (delete.after d)).isOk = true →
      SameSplit (correct.after d) (reenter.after (delete.after d)) id ids'.expense) :=
  corrected_iff_reentered (h₀.ledgerSound.calls xs) hfound hdecimal hamount hsource hreversal
    hledger hne hcreatable now' now''

/-- An expense of 1 rupiah that was corrected to 2, corrected to 3 rupiah of capital. -/
theorem correction_is_reentry_iff_correctedTwice :
    let today : Date := ⟨2026, 5, 1⟩
    let d := runCalls LedgerCall.program withDonation
      [.createExpense ⟨1, 4, 5⟩ ⟨1, "Listrik", 1, none, none, none, none⟩ 1 today,
        .updateExpense ⟨1, 6, 7⟩ 1 (amountAndSource 2 .total) today]
    ((updateExpense ⟨1, 8, 9⟩ 1 (amountAndSource 3 .capital) today).result d).isOk = true ∧
    SameSplit ((updateExpense ⟨1, 8, 9⟩ 1 (amountAndSource 3 .capital) today).after d)
      ((createExpense ⟨2, 10, 11⟩ ⟨1, "Listrik", 3, none, none, some .capital, none⟩ 1 today).after
        ((deleteExpense 1 today).after d)) 1 2 := by
  have hpresent : ((runCalls LedgerCall.program withDonation
      [.createExpense ⟨1, 4, 5⟩ ⟨1, "Listrik", 1, none, none, none, none⟩ 1 ⟨2026, 5, 1⟩,
        .updateExpense ⟨1, 6, 7⟩ 1 (amountAndSource 2 .total) ⟨2026, 5, 1⟩]).find .expenses
          1).isSome = true := by decide +kernel
  obtain ⟨x, hfound⟩ := Option.isSome_iff_exists.1 hpresent
  obtain ⟨-, hsame⟩ := correction_is_reentry_iff migrated_withDonation _ hfound 3
    ⟨30000, by norm_num⟩ .capital ⟨1, 8, 9⟩ ⟨2, 10, 11⟩
    ⟨1, "Listrik", 3, none, none, some .capital, none⟩ 1 rfl rfl (by decide +kernel)
    (by decide +kernel) (by decide)
    ⟨by decide +kernel, by decide +kernel, by simp, by decide +kernel, by decide +kernel⟩
    ⟨2026, 5, 1⟩ ⟨2026, 5, 1⟩ ⟨2026, 5, 1⟩
  exact ⟨by decide +kernel, hsame (by decide +kernel) (by decide +kernel) (by decide +kernel)⟩

/-- 378.9 of a donation of 68,253.1 are spent, and corrected to all of it: 67,874.2 and 378.9 are
68,253.09999999999. -/
theorem not_correctable_reenterable :
    let today : Date := ⟨2026, 5, 1⟩
    let d := runCalls LedgerCall.program (withDonationOf ⟨682531000, by decide⟩)
      [.createIncomeTransaction 1 1 (682531 / 10) .shu none today,
        .createExpense ⟨1, 4, 5⟩ ⟨1, "Listrik", 3789 / 10, none, none, some .shu, none⟩ 1 today]
    let correct := updateExpense ⟨1, 8, 9⟩ 1 (amountAndSource (682531 / 10) .shu) today
    let delete := deleteExpense 1 today
    let reenter := createExpense ⟨2, 10, 11⟩
      ⟨1, "Listrik", 682531 / 10, none, none, some .shu, none⟩ 1 today
    ¬((correct.result d).isOk = true ↔
      (delete.result d).isOk = true ∧ (reenter.result (delete.after d)).isOk = true) := by
  decide +kernel

end LumbungMesari
