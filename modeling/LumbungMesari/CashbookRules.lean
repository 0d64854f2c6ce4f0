import LumbungMesari.Cashbook
import LumbungMesari.StatementRules

/-!
# Rules for the cashbook

What the functions of the cashbook add to a transaction. A posting is a ledger row together with the
balance updates of the insert trigger; it moves every balance by the signed amount of the row.
-/

namespace LumbungMesari

open Sql
open Prog (inTrx)

/-! ### Postings -/

namespace CashbookTransaction

/-- What a row moves a balance by, up to its direction. -/
def amount (r : CashbookTransaction) : BalanceType → ℤ
  | .shu => r.shuAmount.units
  | .capital => r.capitalAmount.units
  | .total => r.shuAmount.units + r.capitalAmount.units

def signed (b : BalanceType) (r : CashbookTransaction) : ℤ := r.direction.sign * r.amount b

/-- Neither amount is negative. -/
structure Nonneg (r : CashbookTransaction) : Prop where
  shu : 0 ≤ r.shuAmount.units
  capital : 0 ≤ r.capitalAmount.units

end CashbookTransaction

/-- The balance updates of `moveBalances` when none of them fails. -/
def moves (sign shuAmount capitalAmount : ℤ) : List Write :=
  (if 0 < shuAmount then [.addBalance .shu (sign * shuAmount)] else []) ++
    (if 0 < capitalAmount then [.addBalance .capital (sign * capitalAmount)] else []) ++
    [.addBalance .total (sign * (shuAmount + capitalAmount))]

/-- The writes of the insertion of a ledger row. -/
def CashbookTransaction.postings (r : CashbookTransaction) : List Write :=
  .insert .cashbookTransactions r ::
    moves r.direction.sign r.shuAmount.units r.capitalAmount.units

theorem updateBalance_ok {d : Database} {b : BalanceType} {delta : ℤ} {ws : List Write}
    (h : updateBalance d b delta = .ok ws) :
    ws = [.addBalance b delta] ∧ 0 ≤ d.balances b + delta ∧ d.balances b + delta < 10 ^ 12 := by
  unfold updateBalance at h
  split at h
  · cases h
  · split at h
    · cases h
    · cases h
      refine ⟨rfl, ?_, ?_⟩ <;> omega

/-- A movement of one balance that passed the constraints. -/
def MovesInRange (d : Database) (b : BalanceType) (delta : ℤ) : Prop :=
  0 ≤ d.balances b + delta ∧ d.balances b + delta < 10 ^ 12

theorem moveBucket_ok {d : Database} {b : BalanceType} {sign amount : ℤ} {ws : List Write}
    (h : moveBucket d b sign amount = .ok ws) :
    ws = (if 0 < amount then [.addBalance b (sign * amount)] else []) ∧
      (0 < amount → MovesInRange d b (sign * amount)) := by
  unfold moveBucket at h
  split at h
  · rw [if_pos ‹_›]
    exact ⟨(updateBalance_ok h).1, fun _ => (updateBalance_ok h).2⟩
  · rw [if_neg ‹_›]
    cases h
    exact ⟨rfl, fun hpos => absurd hpos ‹_›⟩

theorem moveBalances_ok {d : Database} {sign shuAmount capitalAmount : ℤ} {ws : List Write}
    (h : moveBalances d sign shuAmount capitalAmount = .ok ws) :
    ws = moves sign shuAmount capitalAmount ∧
      (0 < shuAmount → MovesInRange d .shu (sign * shuAmount)) ∧
      (0 < capitalAmount → MovesInRange d .capital (sign * capitalAmount)) ∧
      MovesInRange d .total (sign * (shuAmount + capitalAmount)) := by
  obtain ⟨shu, hshu, h⟩ := bind_ok h
  obtain ⟨capital, hcapital, h⟩ := bind_ok h
  obtain ⟨total, htotal, h⟩ := bind_ok h
  cases h
  obtain ⟨rfl, hshuRange⟩ := moveBucket_ok hshu
  obtain ⟨rfl, hcapitalRange⟩ := moveBucket_ok hcapital
  obtain ⟨rfl, htotalRange⟩ := updateBalance_ok htotal
  exact ⟨rfl, hshuRange, hcapitalRange, htotalRange⟩

theorem cashbookInsertBalance_ok {d : Database} {r : CashbookTransaction} {ws : List Write}
    (h : cashbookInsertBalance d r = .ok ws) :
    moveBalances d r.direction.sign r.shuAmount.units r.capitalAmount.units = .ok ws := by
  unfold cashbookInsertBalance at h
  split at h
  · rename_i hdir
    rw [hdir]
    exact h
  · rename_i hdir
    rw [hdir]
    split at h
    · cases h
    · split at h
      · cases h
      · exact h

theorem table?_moves {sign shuAmount capitalAmount : ℤ} {w : Write}
    (h : w ∈ moves sign shuAmount capitalAmount) : w.table? = none := by
  unfold moves at h
  simp only [List.mem_append, List.mem_singleton] at h
  rcases h with (h | h) | h
  · split at h
    · rw [List.mem_singleton.1 h]
      rfl
    · cases h
  · split at h
    · rw [List.mem_singleton.1 h]
      rfl
    · cases h
  · rw [h]
    rfl

theorem delta_moves {sign shuAmount capitalAmount : ℤ} (hshu : 0 ≤ shuAmount)
    (hcapital : 0 ≤ capitalAmount) (b : BalanceType) :
    ((moves sign shuAmount capitalAmount).map (Write.delta b)).sum =
      match b with
      | .shu => sign * shuAmount
      | .capital => sign * capitalAmount
      | .total => sign * (shuAmount + capitalAmount) := by
  rcases hshu.eq_or_lt with rfl | hs <;> rcases hcapital.eq_or_lt with rfl | hc <;>
    cases b <;> simp [moves, Write.delta, *]

namespace CashbookTransaction

variable {r : CashbookTransaction} (d : Database)

theorem delta_postings (hr : r.Nonneg) (b : BalanceType) :
    (r.postings.map (Write.delta b)).sum = r.signed b := by
  rw [postings, List.map_cons, List.sum_cons, delta_moves hr.shu hr.capital]
  cases b <;> simp [Write.delta, signed, amount]

theorem balances_postings (hr : r.Nonneg) (b : BalanceType) :
    (applyAll d r.postings).balances b = d.balances b + r.signed b := by
  rw [Database.balances_applyAll, delta_postings hr]

theorem table_postings : (applyAll d r.postings).table .cashbookTransactions =
    (d.table .cashbookTransactions).insert r := by
  rw [postings, applyAll_cons, Database.table_applyAll fun w hw => by simp [table?_moves hw]]
  exact d.table_insert_self .cashbookTransactions r

theorem table_postings_ne {t : TableName} (ht : TableName.cashbookTransactions ≠ t) :
    (applyAll d r.postings).table t = d.table t := by
  rw [postings, applyAll_cons, Database.table_applyAll fun w hw => by simp [table?_moves hw]]
  exact d.table_insert_ne ht r

theorem find_postings (id : Uuid) : (applyAll d r.postings).find .cashbookTransactions id =
    if r.id = id then (d.find .cashbookTransactions id).or (some r)
    else d.find .cashbookTransactions id := by
  rw [Database.find, table_postings]
  exact Table.find?_insert ..

theorem mem_needs_postings : (LockTarget.row .cashbookTransactions r.id, LockMode.update) ∈
    r.postings.flatMap needs :=
  List.mem_flatMap.2 ⟨_, List.mem_cons_self .., List.mem_cons_self ..⟩

theorem rows_postings (h : d.find .cashbookTransactions r.id = none) :
    (applyAll d r.postings).rows .cashbookTransactions =
      d.rows .cashbookTransactions ++ [r] := by
  rw [Database.rows, table_postings]
  exact Table.rows_insert h

end CashbookTransaction

/-- The balances can take a posting. -/
structure Fits (d : Database) (r : CashbookTransaction) : Prop where
  shu : 0 < r.shuAmount.units → MovesInRange d .shu (r.signed .shu)
  capital : 0 < r.capitalAmount.units → MovesInRange d .capital (r.signed .capital)
  total : MovesInRange d .total (r.signed .total)

theorem Fits.congr {d d' : Database} {r : CashbookTransaction} (h : Fits d r)
    (hd : ∀ b, d.balances b = d'.balances b) : Fits d' r := by
  obtain ⟨hshu, hcapital, htotal⟩ := h
  simp only [MovesInRange, hd] at hshu hcapital htotal
  exact ⟨hshu, hcapital, htotal⟩

theorem Fits.inRange {d : Database} {r : CashbookTransaction} (h : Fits d r) (hr : r.Nonneg)
    (hd : d.InRange) : (applyAll d r.postings).InRange := by
  intro b
  rw [CashbookTransaction.balances_postings d hr]
  cases b with
  | total => exact h.total
  | shu =>
      rcases hr.shu.eq_or_lt with hz | hpos
      · simpa [CashbookTransaction.signed, CashbookTransaction.amount, ← hz] using hd .shu
      · exact h.shu hpos
  | capital =>
      rcases hr.capital.eq_or_lt with hz | hpos
      · simpa [CashbookTransaction.signed, CashbookTransaction.amount, ← hz] using hd .capital
      · exact h.capital hpos

/-- What an inserted ledger row has passed, the trigger included. -/
structure Posted (d : Database) (r : CashbookTransaction) : Prop
    extends Inserted d .cashbookTransactions r, Fits d r

theorem insertRow_cashbook {d : Database} {r : CashbookTransaction} {ws : List Write}
    (h : insertRow d .cashbookTransactions r = .ok ws) : Posted d r ∧ ws = r.postings := by
  obtain ⟨hinserted, ws', hafter, rfl⟩ := insertRow_ok h
  obtain ⟨rfl, hshu, hcapital, htotal⟩ := moveBalances_ok (cashbookInsertBalance_ok hafter)
  exact ⟨⟨hinserted, hshu, hcapital, htotal⟩, rfl⟩

/-! ### New rows -/

/-- A row as it was stored from the columns of an insert. -/
structure CashbookTransactionData.Stored (data : CashbookTransactionData) (id : Uuid)
    (r : CashbookTransaction) : Prop where
  id : r.id = id
  txnDate : r.txnDate = data.txnDate
  direction : r.direction = data.direction
  shuAmount : Numeric.ofRat? data.shuAmount = some r.shuAmount
  capitalAmount : Numeric.ofRat? data.capitalAmount = some r.capitalAmount
  shuBalanceBefore : Numeric.ofRat? data.shuBalanceBefore = some r.shuBalanceBefore
  shuBalanceAfter : Numeric.ofRat? data.shuBalanceAfter = some r.shuBalanceAfter
  capitalBalanceBefore : Numeric.ofRat? data.capitalBalanceBefore = some r.capitalBalanceBefore
  capitalBalanceAfter : Numeric.ofRat? data.capitalBalanceAfter = some r.capitalBalanceAfter
  totalBalanceBefore : Numeric.ofRat? data.totalBalanceBefore = some r.totalBalanceBefore
  totalBalanceAfter : Numeric.ofRat? data.totalBalanceAfter = some r.totalBalanceAfter
  incomeId : r.incomeId = data.owner.incomeId
  expenseId : r.expenseId = data.owner.expenseId
  isReversal : r.isReversal = data.isReversal
  reversalOf : r.reversalOf = data.reversalOf
  deletedAt : r.deletedAt = none

theorem toRow_ok {data : CashbookTransactionData} {id : Uuid} {r : CashbookTransaction}
    (h : data.toRow id = .ok r) : data.Stored id r := by
  obtain ⟨_, h₁, h⟩ := bind_ok h
  obtain ⟨_, h₂, h⟩ := bind_ok h
  obtain ⟨_, h₃, h⟩ := bind_ok h
  obtain ⟨_, h₄, h⟩ := bind_ok h
  obtain ⟨_, h₅, h⟩ := bind_ok h
  obtain ⟨_, h₆, h⟩ := bind_ok h
  obtain ⟨_, h₇, h⟩ := bind_ok h
  obtain ⟨_, h₈, h⟩ := bind_ok h
  split at h
  · cases h
    exact ⟨rfl, rfl, rfl, money_ok h₁, money_ok h₂, money_ok h₃, money_ok h₄, money_ok h₅,
      money_ok h₆, money_ok h₇, money_ok h₈, rfl, rfl, rfl, rfl, rfl⟩
  · cases h

namespace CashbookTransactionData.Stored

variable {data : CashbookTransactionData} {id : Uuid} {r : CashbookTransaction}

theorem owns (h : data.Stored id r) (o : Owner) : o.owns r = true ↔ o = data.owner := by
  cases o <;> cases ho : data.owner <;>
    simp [Owner.owns, h.incomeId, h.expenseId, ho, Owner.incomeId, Owner.expenseId, eq_comm]

theorem visible (h : data.Stored id r) : r.visible = !data.isReversal := by
  simp [CashbookTransaction.visible, h.deletedAt, h.isReversal]

theorem nonneg (h : data.Stored id r) (hshu : 0 ≤ data.shuAmount)
    (hcapital : 0 ≤ data.capitalAmount) : r.Nonneg where
  shu := by
    rw [Numeric.ofRat?_some h.shuAmount]
    exact roundHalfAway_nonneg (by positivity)
  capital := by
    rw [Numeric.ofRat?_some h.capitalAmount]
    exact roundHalfAway_nonneg (by positivity)

end CashbookTransactionData.Stored

theorem units_eq_zero {m : Money} (h : Numeric.ofRat? 0 = some m) : m.units = 0 := by
  rw [Numeric.ofRat?_some h, zero_mul]
  exact roundHalfAway_intCast 0

/-- An amount that is posted to one bucket only is not negative: the row's `CHECK` sees the other
bucket at zero. -/
theorem nonneg_of_destination {r : CashbookTransaction} {amount : ℚ}
    {destination : IncomeDestination}
    (hshu : Numeric.ofRat? (if destination = .shu then amount else 0) = some r.shuAmount)
    (hcapital : Numeric.ofRat? (if destination = .capital then amount else 0) =
      some r.capitalAmount) : r.Nonneg := by
  have hpositive := r.amountsPositive
  cases destination with
  | shu =>
      have hz := units_eq_zero hcapital
      exact ⟨by omega, by omega⟩
  | capital =>
      have hz := units_eq_zero hshu
      exact ⟨by omega, by omega⟩

/-! ### The functions of the cashbook -/

/-- The three balances as they are read under lock. -/
def Database.current (d : Database) : Balances :=
  ⟨d.balance .shu, d.balance .capital, d.balance .total⟩

variable {S : Contract Database LockTarget Label} {d : Database} {s : Trx}

theorem lockAllForUpdate_wp {Q : Balances → Database → Trx → Prop}
    (h : ∀ d' l, S.env s.locks d d' → (∀ b, (LockTarget.balance b, LockMode.update) ∈ l) →
      Q (s.view d').current d' (s.extend [] l)) :
    lockAllForUpdate.wp S Q d s := by
  refine wp_selectForUpdate fun d' l henv hl => h d' l henv fun b => hl _ ?_
  cases b <;> simp

theorem createTransaction_wp {id : Uuid} {data : CashbookTransactionData}
    {Q : CashbookTransaction → Database → Trx → Prop}
    (h : ∀ d' r l, S.env s.locks d d' → data.Stored id r →
      Posted (s.view d') r → r.postings.flatMap needs ⊆ l →
      Q r d' (s.extend r.postings l)) :
    (createTransaction id data).wp S Q d s := by
  refine wp_insertInto fun d' r ws l henv hrow hinsert hneeds => ?_
  obtain ⟨hinserted, rfl⟩ := insertRow_cashbook hinsert
  exact h d' r l henv (toRow_ok hrow) hinserted hneeds

variable [S.Stable (W := Write)]

theorem balance_eq {l : Locks} {d₁ d₂ : Database} {b : BalanceType} {m : LockMode}
    (henv : S.env l d₁ d₂) (hl : (LockTarget.balance b, m) ∈ l) (hm : m.exclusive = true) :
    (s.view d₁).balances b = (s.view d₂).balances b := by
  have hagree := Contract.Stable.agree (W := Write) henv hl hm
  rw [view_balances, view_balances, Database.agree_balance hagree]

theorem current_eq {l : Locks} {d₁ d₂ : Database} (henv : S.env l d₁ d₂)
    (hl : ∀ b, (LockTarget.balance b, LockMode.update) ∈ l) :
    (s.view d₁).current = (s.view d₂).current := by
  simp only [Database.current, Database.balance, balance_eq henv (hl _) rfl]

/-- A locked read of the balances followed by the insertion of a row that records them. -/
theorem lock_createTransaction_wp {id : Uuid} {data : Balances → CashbookTransactionData}
    {Q : CashbookTransaction → Database → Trx → Prop}
    (h : ∀ d' r l, S.env s.locks d d' → (data (s.view d').current).Stored id r →
      Posted (s.view d') r →
      (∀ b, (LockTarget.balance b, LockMode.update) ∈ l) → r.postings.flatMap needs ⊆ l →
      Q r d' (s.extend r.postings l)) :
    (do let before ← lockAllForUpdate; createTransaction id (data before)).wp S Q d s := by
  rw [Prog.wp_bind']
  refine lockAllForUpdate_wp fun d₁ l₁ henv₁ hl₁ => createTransaction_wp fun d₂ r l₂ henv₂ hr hins
    hneeds => ?_
  rw [Session.locks_extend] at henv₂
  rw [current_eq henv₂ fun b => List.mem_append_right _ (hl₁ b)] at hr
  rw [Session.view_extend_nil] at hins
  rw [extend_extend]
  refine h d₂ r (l₁ ++ l₂) ?_ hr hins (fun b => List.mem_append_left _ (hl₁ b))
    (List.Subset.trans hneeds (List.subset_append_right ..))
  exact env_append henv₁ henv₂

theorem createIncomeTransaction_wp {id incomeId : Uuid} {amount : ℚ}
    {destination : IncomeDestination} {txnDate : Option Date} {now : Date}
    {Q : CashbookTransaction → Database → Trx → Prop}
    (h : ∀ d' r l, S.env s.locks d d' →
      (incomeEntry incomeId amount destination (s.view d').current (txnDate.getD now)).Stored id r →
      Posted (s.view d') r →
      (∀ b, (LockTarget.balance b, LockMode.update) ∈ l) → r.postings.flatMap needs ⊆ l →
      Q r d' (s.extend r.postings l)) :
    (createIncomeTransaction id incomeId amount destination txnDate now).wp S Q d s :=
  lock_createTransaction_wp h

theorem createExpenseTransaction_wp {id expenseId : Uuid} {shuAmount capitalAmount : ℚ}
    {txnDate : Option Date} {now : Date} {Q : CashbookTransaction → Database → Trx → Prop}
    (h : ∀ d' r l, S.env s.locks d d' →
      (expenseEntry expenseId shuAmount capitalAmount (s.view d').current
        (txnDate.getD now)).Stored id r →
      Posted (s.view d') r →
      (∀ b, (LockTarget.balance b, LockMode.update) ∈ l) → r.postings.flatMap needs ⊆ l →
      Q r d' (s.extend r.postings l)) :
    (createExpenseTransaction id expenseId shuAmount capitalAmount txnDate now).wp S Q d s :=
  lock_createTransaction_wp h

end LumbungMesari
