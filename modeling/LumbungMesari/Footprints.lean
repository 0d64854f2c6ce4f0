import LumbungMesari.CashbookRules
import LumbungMesari.ExpensesController
import LumbungMesari.Incomes
import LumbungMesari.Sql.Each

/-!
# Footprints

What the statements write, and what the functions of the ledger and of the expenses service write by
way of them: expenses, incomes, ledger rows and balances. No statement takes a balance out of its
range, and statements on the pool move none.
-/

namespace LumbungMesari

open Sql
open Prog (inTrx onPool commitTrx each_onPool each_inTrx)

/-- A write to another table, or to a balance. -/
def Write.Spares (t : TableName) (w : Write) : Prop := w.table? ≠ some t

/-! ### Statements -/

section Statements

variable {P : Write → Prop} {t t' : TableName} {β : Type}

theorem writes_select {read : Database → β} : (select read).Writes P := by
  intro d ws b hexec w hw
  cases hexec
  cases hw

theorem writes_selectForUpdate {targets : Database → List LockTarget} {read : Database → β} :
    (selectForUpdate targets read).Writes P := by
  intro d ws b hexec w hw
  cases hexec
  cases hw

theorem spares_moves {sign shuAmount capitalAmount : ℤ} {w : Write}
    (h : w ∈ moves sign shuAmount capitalAmount) : w.Spares t := by
  rw [Write.Spares, table?_moves h]
  simp

theorem spares_afterInsert {d : Database} {r : Row t'} {ws : List Write}
    (h : afterInsert d t' r = .ok ws) : ∀ w ∈ ws, w.Spares t := by
  cases t' with
  | cashbookTransactions =>
      obtain ⟨rfl, -⟩ := moveBalances_ok (cashbookInsertBalance_ok h)
      exact fun w hw => spares_moves hw
  | users | loanPeriods | loans | installments | principalSavings | mandatorySavings
  | incomeCategories | incomes | expenseCategories | expenses =>
      cases h
      exact fun w hw => by cases hw

theorem spares_afterUpdate {d : Database} {old new : Row t'} {ws : List Write}
    (h : afterUpdate d t' old new = .ok ws) : ∀ w ∈ ws, w.Spares t := by
  cases t' with
  | cashbookTransactions =>
      simp only [afterUpdate, cashbookUpdateBalance] at h
      split at h
      · obtain ⟨reversed, hreversed, h⟩ := bind_ok h
        obtain ⟨applied, happlied, h⟩ := bind_ok h
        cases h
        obtain ⟨rfl, -⟩ := moveBalances_ok hreversed
        obtain ⟨rfl, -⟩ := moveBalances_ok happlied
        exact fun w hw => (List.mem_append.1 hw).elim spares_moves spares_moves
      · cases h
        exact fun w hw => by cases hw
  | users | loanPeriods | loans | installments | principalSavings | mandatorySavings
  | incomeCategories | incomes | expenseCategories | expenses =>
      cases h
      exact fun w hw => by cases hw

theorem spares_of_table? {w : Write} (hw : w.table? = some t') (ht : t ≠ t') : w.Spares t := by
  rw [Write.Spares, hw, ne_eq, Option.some.injEq]
  exact ht.symm

theorem spares_updateRow {d : Database} (ht : t ≠ t') {old new : Row t'} {ws : List Write}
    (h : updateRow d t' old new = .ok ws) : ∀ w ∈ ws, w.Spares t := by
  obtain ⟨-, ws', hafter, rfl⟩ := updateRow_ok h
  intro w hw
  rcases List.mem_cons.1 hw with rfl | hw
  · exact spares_of_table? rfl ht
  · exact spares_afterUpdate hafter w hw

theorem spares_updateRows {d : Database} (ht : t ≠ t') {set : Row t' → Row t'} {rs : List (Row t')}
    {ws : List Write} (h : updateRows d t' set rs = .ok ws) : ∀ w ∈ ws, w.Spares t := by
  induction rs generalizing d ws with
  | nil =>
      cases h
      exact fun w hw => by cases hw
  | cons r rs ih =>
      obtain ⟨ws₁, hrow, h⟩ := bind_ok h
      obtain ⟨ws₂, hrest, h⟩ := bind_ok h
      cases h
      exact fun w hw => (List.mem_append.1 hw).elim (spares_updateRow ht hrow w) (ih hrest w)

theorem spares_insertRow {d : Database} (ht : t ≠ t') {r : Row t'} {ws : List Write}
    (h : insertRow d t' r = .ok ws) : ∀ w ∈ ws, w.Spares t := by
  obtain ⟨-, ws', hafter, rfl⟩ := insertRow_ok h
  intro w hw
  rcases List.mem_cons.1 hw with rfl | hw
  · exact spares_of_table? rfl ht
  · exact spares_afterInsert hafter w hw

theorem writes_insertInto (ht : t ≠ t') {row : Except Error (Row t')} :
    (insertInto t' row).Writes (Write.Spares t) := by
  intro d ws b hexec
  obtain ⟨r, -, hexec⟩ := bind_ok hexec
  obtain ⟨ws', hinsert, hexec⟩ := bind_ok hexec
  cases hexec
  exact spares_insertRow ht hinsert

theorem spares_insertRows {d : Database} (ht : t ≠ t') {rs : List (Row t')} {ws : List Write}
    (h : insertRows d t' rs = .ok ws) : ∀ w ∈ ws, w.Spares t := by
  induction rs generalizing d ws with
  | nil =>
      cases h
      exact fun w hw => by cases hw
  | cons r rs ih =>
      obtain ⟨ws₁, hrow, h⟩ := bind_ok h
      obtain ⟨ws₂, hrest, h⟩ := bind_ok h
      cases h
      exact fun w hw => (List.mem_append.1 hw).elim (spares_insertRow ht hrow w) (ih hrest w)

theorem writes_insertAll (ht : t ≠ t') {rows : Except Error (List (Row t'))} :
    (insertAll t' rows).Writes (Write.Spares t) := by
  intro d ws b hexec
  obtain ⟨rs, -, hexec⟩ := bind_ok hexec
  obtain ⟨ws', hinsert, hexec⟩ := bind_ok hexec
  cases hexec
  exact spares_insertRows ht hinsert

theorem writes_updateById (ht : t ≠ t') {label : Label} {id : Uuid}
    {set : Row t' → Except Error (Row t')} :
    (updateById label t' id set).Writes (Write.Spares t) := by
  intro d ws b hexec
  simp only [updateById, statement] at hexec
  split at hexec
  · cases hexec
    exact fun w hw => by cases hw
  · obtain ⟨new, -, hexec⟩ := bind_ok hexec
    obtain ⟨ws', hupdate, hexec⟩ := bind_ok hexec
    cases hexec
    exact spares_updateRow ht hupdate

theorem writes_updateWhere (ht : t ≠ t') {p : Row t' → Bool} {set : Row t' → Row t'} :
    (updateWhere t' p set).Writes (Write.Spares t) := by
  intro d ws b hexec
  obtain ⟨ws', hupdate, hexec⟩ := bind_ok hexec
  cases hexec
  exact spares_updateRows ht hupdate

theorem spares_insertRowsIgnoring {d : Database} (ht : t ≠ t') {key : Row t' → UniqueKey}
    {rs : List (Row t')} {ws : List Write} (h : insertRowsIgnoring d t' key rs = .ok ws) :
    ∀ w ∈ ws, w.Spares t := by
  induction rs generalizing d ws with
  | nil =>
      cases h
      exact fun w hw => by cases hw
  | cons r rs ih =>
      obtain ⟨ws₁, hrow, h⟩ := bind_ok h
      obtain ⟨ws₂, hrest, h⟩ := bind_ok h
      cases h
      refine fun w hw => (List.mem_append.1 hw).elim (fun hw => ?_) (ih hrest w)
      unfold insertRowIgnoring at hrow
      split at hrow
      · cases hrow
        cases hw
      · exact spares_insertRow ht hrow w hw

theorem writes_insertAllIgnoring (ht : t ≠ t') {key : Row t' → UniqueKey}
    {rows : Except Error (List (Row t'))} :
    (insertAllIgnoring t' key rows).Writes (Write.Spares t) := by
  intro d ws b hexec
  obtain ⟨rs, -, hexec⟩ := bind_ok hexec
  obtain ⟨ws', hinsert, hexec⟩ := bind_ok hexec
  cases hexec
  exact spares_insertRowsIgnoring ht hinsert

theorem catchError_ok {st : Statement β} {f : Error → Error} {d : Database} {ws : List Write} {b : β}
    (h : (catchError st f).exec d = .ok (ws, b)) : st.exec d = .ok (ws, b) := by
  cases hexec : st.exec d with
  | error e =>
      simp only [catchError, hexec] at h
      cases h
  | ok r =>
      simp only [catchError, hexec] at h
      exact h

theorem writes_catchError {st : Statement β} {f : Error → Error} (h : st.Writes P) :
    (catchError st f).Writes P :=
  fun d ws b hexec => h d ws b (catchError_ok hexec)

end Statements

/-! ### Ranges -/

/-- A write that moves no balance. -/
def Write.Still (w : Write) : Prop := ∀ b, w.delta b = 0

section Ranges

variable {d : Database} {ws : List Write} {t : TableName}

theorem balances_of_still (h : ∀ w ∈ ws, w.Still) (b : BalanceType) :
    (applyAll d ws).balances b = d.balances b := by
  have hzero : (ws.map (Write.delta b)).sum = 0 := by
    refine List.sum_eq_zero fun z hz => ?_
    obtain ⟨w, hw, rfl⟩ := List.mem_map.1 hz
    exact h w hw b
  rw [Database.balances_applyAll, hzero, add_zero]

/-- The range of the balances is not affected by a write that moves none. -/
theorem inRange_cons {w : Write} (hw : w.Still) (h : (applyAll d ws).InRange) :
    (applyAll d (w :: ws)).InRange := by
  intro b
  have hb := h b
  rw [Database.balances_applyAll] at hb
  rwa [Database.balances_applyAll, List.map_cons, List.sum_cons, hw b, zero_add]

theorem still_of_table? {w : Write} (h : w.table? ≠ none) : w.Still := by
  intro b
  cases w with
  | addBalance => exact absurd rfl h
  | insert | update | delete => rfl

theorem delta_bucket {b b' : BalanceType} {sign amount : ℤ} :
    ((if 0 < amount then [Write.addBalance b (sign * amount)] else []).map (Write.delta b')).sum =
      if b = b' ∧ 0 < amount then sign * amount else 0 := by
  split <;> simp [Write.delta, *]

theorem inRange_moves {sign shuAmount capitalAmount : ℤ}
    (h : moveBalances d sign shuAmount capitalAmount = .ok ws) (hd : d.InRange) :
    (applyAll d ws).InRange := by
  obtain ⟨rfl, hshu, hcapital, htotal⟩ := moveBalances_ok h
  intro b
  rw [Database.balances_applyAll, moves, List.map_append, List.map_append, List.sum_append,
    List.sum_append, delta_bucket, delta_bucket]
  cases b with
  | total => simpa [Write.delta, MovesInRange] using htotal
  | shu =>
      by_cases hpos : 0 < shuAmount
      · simpa [Write.delta, MovesInRange, hpos] using hshu hpos
      · simpa [Write.delta, hpos] using hd .shu
  | capital =>
      by_cases hpos : 0 < capitalAmount
      · simpa [Write.delta, MovesInRange, hpos] using hcapital hpos
      · simpa [Write.delta, hpos] using hd .capital

theorem inRange_insertRow {r : Row t} (h : insertRow d t r = .ok ws) (hd : d.InRange) :
    (applyAll d ws).InRange := by
  obtain ⟨-, ws', hafter, rfl⟩ := insertRow_ok h
  refine inRange_cons (still_of_table? (by simp [Write.table?])) ?_
  cases t with
  | cashbookTransactions => exact inRange_moves (cashbookInsertBalance_ok hafter) hd
  | users | loanPeriods | loans | installments | principalSavings | mandatorySavings
  | incomeCategories | incomes | expenseCategories | expenses =>
      cases hafter
      exact hd

theorem inRange_updateRow {old new : Row t} (h : updateRow d t old new = .ok ws) (hd : d.InRange) :
    (applyAll d ws).InRange := by
  obtain ⟨-, ws', hafter, rfl⟩ := updateRow_ok h
  refine inRange_cons (still_of_table? (by simp [Write.table?])) ?_
  cases t with
  | cashbookTransactions =>
      simp only [afterUpdate, cashbookUpdateBalance] at hafter
      split at hafter
      · obtain ⟨reversed, hreversed, hafter⟩ := bind_ok hafter
        obtain ⟨applied, happlied, hafter⟩ := bind_ok hafter
        cases hafter
        rw [applyAll_append]
        exact inRange_moves happlied (inRange_moves hreversed hd)
      · cases hafter
        exact hd
  | users | loanPeriods | loans | installments | principalSavings | mandatorySavings
  | incomeCategories | incomes | expenseCategories | expenses =>
      cases hafter
      exact hd

theorem inRange_insertRows {rs : List (Row t)} (h : insertRows d t rs = .ok ws) (hd : d.InRange) :
    (applyAll d ws).InRange := by
  induction rs generalizing d ws with
  | nil =>
      cases h
      exact hd
  | cons r rs ih =>
      obtain ⟨ws₁, hrow, h⟩ := bind_ok h
      obtain ⟨ws₂, hrest, h⟩ := bind_ok h
      cases h
      rw [applyAll_append]
      exact ih hrest (inRange_insertRow hrow hd)

theorem inRange_insertRowsIgnoring {key : Row t → UniqueKey} {rs : List (Row t)}
    (h : insertRowsIgnoring d t key rs = .ok ws) (hd : d.InRange) : (applyAll d ws).InRange := by
  induction rs generalizing d ws with
  | nil =>
      cases h
      exact hd
  | cons r rs ih =>
      obtain ⟨ws₁, hrow, h⟩ := bind_ok h
      obtain ⟨ws₂, hrest, h⟩ := bind_ok h
      cases h
      rw [applyAll_append]
      refine ih hrest ?_
      unfold insertRowIgnoring at hrow
      split at hrow
      · cases hrow
        exact hd
      · exact inRange_insertRow hrow hd

theorem inRange_updateRows {set : Row t → Row t} {rs : List (Row t)}
    (h : updateRows d t set rs = .ok ws) (hd : d.InRange) : (applyAll d ws).InRange := by
  induction rs generalizing d ws with
  | nil =>
      cases h
      exact hd
  | cons r rs ih =>
      obtain ⟨ws₁, hrow, h⟩ := bind_ok h
      obtain ⟨ws₂, hrest, h⟩ := bind_ok h
      cases h
      rw [applyAll_append]
      exact ih hrest (inRange_updateRow hrow hd)

end Ranges

/-! ### Tame statements -/

/-- A statement that spares a table and takes no balance out of its range. -/
structure TameStatement (t : TableName) {β : Type} (st : Statement β) : Prop where
  spares : st.Writes (Write.Spares t)
  inRange : ∀ {d ws b}, st.exec d = .ok (ws, b) → d.InRange → (applyAll d ws).InRange

/-- A statement that spares a table and moves no balance. -/
structure StillStatement (t : TableName) {β : Type} (st : Statement β) : Prop where
  spares : st.Writes (Write.Spares t)
  still : st.Writes Write.Still

/-- A program that spares a table and takes no balance out of its range. -/
abbrev Tame (t : TableName) {α : Type} (p : Program α) : Prop :=
  p.Each (fun _ => StillStatement t) fun _ => TameStatement t

theorem Tame.writes {t : TableName} {α : Type} {p : Program α} (h : Tame t p) :
    p.Writes (Write.Spares t) :=
  Prog.Each.writes (h.mono StillStatement.spares TameStatement.spares)

section Tame

variable {t t' : TableName} {β : Type}

theorem still_select {read : Database → β} : StillStatement t (select read) :=
  ⟨writes_select, writes_select⟩

theorem tame_select {read : Database → β} : TameStatement t (select read) where
  spares := writes_select
  inRange hexec hd := by
    cases hexec
    exact hd

theorem tame_selectForUpdate {targets : Database → List LockTarget} {read : Database → β} :
    TameStatement t (selectForUpdate targets read) where
  spares := writes_selectForUpdate
  inRange hexec hd := by
    cases hexec
    exact hd

theorem tame_insertInto (ht : t ≠ t') {row : Except Error (Row t')} :
    TameStatement t (insertInto t' row) where
  spares := writes_insertInto ht
  inRange hexec hd := by
    obtain ⟨r, -, hexec⟩ := bind_ok hexec
    obtain ⟨ws', hinsert, hexec⟩ := bind_ok hexec
    cases hexec
    exact inRange_insertRow hinsert hd

theorem still_insertInto (ht : t ≠ t') (hledger : t' ≠ .cashbookTransactions)
    {row : Except Error (Row t')} : StillStatement t (insertInto t' row) where
  spares := writes_insertInto ht
  still d ws b hexec w hw := by
    obtain ⟨r, -, hexec⟩ := bind_ok hexec
    obtain ⟨ws', hinsert, hexec⟩ := bind_ok hexec
    cases hexec
    obtain ⟨-, rfl⟩ := insertRow_plain hledger hinsert
    rw [List.mem_singleton.1 hw]
    exact still_of_table? (by simp [Write.table?])

theorem tame_insertAll (ht : t ≠ t') {rows : Except Error (List (Row t'))} :
    TameStatement t (insertAll t' rows) where
  spares := writes_insertAll ht
  inRange hexec hd := by
    obtain ⟨rs, -, hexec⟩ := bind_ok hexec
    obtain ⟨ws', hinsert, hexec⟩ := bind_ok hexec
    cases hexec
    exact inRange_insertRows hinsert hd

theorem tame_insertAllIgnoring (ht : t ≠ t') {key : Row t' → UniqueKey}
    {rows : Except Error (List (Row t'))} :
    TameStatement t (insertAllIgnoring t' key rows) where
  spares := writes_insertAllIgnoring ht
  inRange hexec hd := by
    obtain ⟨rs, -, hexec⟩ := bind_ok hexec
    obtain ⟨ws', hinsert, hexec⟩ := bind_ok hexec
    cases hexec
    exact inRange_insertRowsIgnoring hinsert hd

theorem tame_updateById (ht : t ≠ t') {label : Label} {id : Uuid}
    {set : Row t' → Except Error (Row t')} : TameStatement t (updateById label t' id set) where
  spares := writes_updateById ht
  inRange hexec hd := by
    simp only [updateById, statement] at hexec
    split at hexec
    · cases hexec
      exact hd
    · obtain ⟨new, -, hexec⟩ := bind_ok hexec
      obtain ⟨ws', hupdate, hexec⟩ := bind_ok hexec
      cases hexec
      exact inRange_updateRow hupdate hd

theorem still_updateById (ht : t ≠ t') (hledger : t' ≠ .cashbookTransactions) {label : Label}
    {id : Uuid} {set : Row t' → Except Error (Row t')} :
    StillStatement t (updateById label t' id set) where
  spares := writes_updateById ht
  still d ws b hexec w hw := by
    simp only [updateById, statement] at hexec
    split at hexec
    · cases hexec
      cases hw
    · obtain ⟨new, -, hexec⟩ := bind_ok hexec
      obtain ⟨ws', hupdate, hexec⟩ := bind_ok hexec
      cases hexec
      obtain ⟨-, rfl⟩ := updateRow_plain hledger hupdate
      rw [List.mem_singleton.1 hw]
      exact still_of_table? (by simp [Write.table?])

theorem tame_updateWhere (ht : t ≠ t') {p : Row t' → Bool} {set : Row t' → Row t'} :
    TameStatement t (updateWhere t' p set) where
  spares := writes_updateWhere ht
  inRange hexec hd := by
    obtain ⟨ws', hupdate, hexec⟩ := bind_ok hexec
    cases hexec
    exact inRange_updateRows hupdate hd

theorem tame_catchError {st : Statement β} {f : Error → Error} (h : TameStatement t st) :
    TameStatement t (catchError st f) :=
  ⟨writes_catchError h.spares, fun hexec => h.inRange (catchError_ok hexec)⟩

theorem still_catchError {st : Statement β} {f : Error → Error} (h : StillStatement t st) :
    StillStatement t (catchError st f) :=
  ⟨writes_catchError h.spares, writes_catchError h.still⟩

end Tame

/-! ### Functions -/

section Functions

variable {t : TableName}

theorem tame_adjustBalance {label : Label} {type : BalanceType} {delta : ℚ} :
    Tame t (adjustBalance label type delta) := by
  refine each_inTrx ⟨fun d ws b hexec w hw => ?_, fun {d ws b} hexec hd b' => ?_⟩
  · obtain ⟨ws', hupdate, hexec⟩ := bind_ok hexec
    cases hexec
    obtain ⟨rfl, -⟩ := updateBalance_ok hupdate
    rw [List.mem_singleton.1 hw, Write.Spares]
    simp [Write.table?]
  · obtain ⟨ws', hupdate, hexec⟩ := bind_ok hexec
    cases hexec
    obtain ⟨rfl, hrange⟩ := updateBalance_ok hupdate
    rw [Database.balances_applyAll, List.map_singleton, List.sum_singleton, Write.delta]
    split
    · rename_i hb
      exact hb ▸ hrange
    · rw [add_zero]
      exact hd b'

theorem tame_takeBack {label : Label} {type : BalanceType} {netAmount : ℚ} :
    Tame t (takeBack label type netAmount) := by
  unfold takeBack
  split
  · exact tame_adjustBalance
  · trivial

theorem tame_createTransaction (hledger : t ≠ .cashbookTransactions) {id : Uuid}
    {data : CashbookTransactionData} : Tame t (createTransaction id data) :=
  each_inTrx (tame_insertInto hledger)

theorem tame_createExpenseTransaction (hledger : t ≠ .cashbookTransactions) {id expenseId : Uuid}
    {shuAmount capitalAmount : ℚ} {txnDate : Option Date} {now : Date} :
    Tame t (createExpenseTransaction id expenseId shuAmount capitalAmount txnDate now) :=
  .bind (each_inTrx tame_selectForUpdate) fun _ => tame_createTransaction hledger

theorem tame_updateTransaction (hledger : t ≠ .cashbookTransactions) {reversalId newId : Uuid}
    {o : Owner} {notFound : Error} {newShuAmount newCapitalAmount : ℚ} {txnDate : Option Date}
    {now : Date} : Tame t (updateTransaction reversalId newId o notFound newShuAmount newCapitalAmount
      txnDate now) := by
  refine .bind (each_inTrx tame_select) fun original => ?_
  cases original with
  | none => trivial
  | some original =>
      refine .bind (each_inTrx tame_selectForUpdate) fun current => ?_
      refine .bind (each_inTrx (tame_updateWhere hledger)) fun _ => ?_
      refine .bind (tame_createTransaction hledger) fun _ => ?_
      exact .bind (tame_createTransaction hledger) fun _ => trivial

theorem tame_deleteTransaction (hledger : t ≠ .cashbookTransactions) {o : Owner}
    {label : ℚ → ℚ → Label} {now : Date} :
    Tame t (deleteTransaction o label now) := by
  refine .bind (each_inTrx tame_select) fun rows => ?_
  dsimp only
  split
  · trivial
  · refine .bind tame_takeBack fun _ => .bind tame_takeBack fun _ =>
      .bind tame_takeBack fun _ => ?_
    exact .bind (each_inTrx tame_select) fun _ => each_inTrx (tame_updateWhere hledger)

theorem tame_allocateAmounts {totalAmount : ℚ} {source : Option ExpenseSource}
    {restore : Option Allocation} :
    Tame t (allocateAmounts totalAmount source restore) := by
  refine .bind (each_inTrx tame_selectForUpdate) fun balances => ?_
  dsimp only
  split <;> trivial

theorem tame_findNewCategory {dto : UpdateExpenseDto} :
    Tame t (findNewCategory dto) := by
  unfold findNewCategory
  split
  · trivial
  · refine .bind (each_onPool still_select) fun category => ?_
    cases category <;> trivial

theorem tame_reallocate {dto : UpdateExpenseDto} {existing : Expense}
    {effectiveCategory : Option ExpenseCategory} :
    Tame t (reallocate dto existing effectiveCategory) := by
  unfold reallocate
  split
  · trivial
  · exact .bind tame_allocateAmounts fun _ => trivial

theorem tame_readExpense {id : Uuid} : Tame t (readExpense id) := by
  refine .bind (each_onPool still_select) fun found => ?_
  cases found <;> trivial

theorem tame_deleteExpenseById (hexpenses : t ≠ .expenses) (hledger : t ≠ .cashbookTransactions)
    {id : Uuid} : Tame t (deleteExpenseById id) := by
  refine each_inTrx ⟨fun d ws b hexec w hw => ?_, fun {d ws b} hexec hd => ?_⟩
  · simp only [statement] at hexec
    split at hexec
    · cases hexec
      cases hw
    · obtain ⟨ws', hdisown, hexec⟩ := bind_ok hexec
      cases hexec
      rcases List.mem_cons.1 hw with rfl | hw
      · exact spares_of_table? rfl hexpenses
      · exact spares_updateRows hledger hdisown w hw
  · simp only [statement] at hexec
    split at hexec
    · cases hexec
      exact hd
    · obtain ⟨ws', hdisown, hexec⟩ := bind_ok hexec
      cases hexec
      rw [applyAll_cons]
      exact inRange_updateRows hdisown hd

theorem tame_createIncomeTransaction (hledger : t ≠ .cashbookTransactions) {id incomeId : Uuid}
    {amount : ℚ} {destination : IncomeDestination} {txnDate : Option Date} {now : Date} :
    Tame t (createIncomeTransaction id incomeId amount destination txnDate now) :=
  .bind (each_inTrx tame_selectForUpdate) fun _ => tame_createTransaction hledger

theorem tame_createIncomeOf (hincomes : t ≠ .incomes) {code : String} {id : Uuid}
    {data : IncomeData} {now : Date} :
    Tame t (createIncomeOf code id data now) := by
  refine .bind (each_inTrx tame_select) fun category => ?_
  cases category with
  | none => trivial
  | some category => exact each_inTrx (tame_insertInto hincomes)

theorem tame_createExpenseInTransaction (hexpenses : t ≠ .expenses)
    (hledger : t ≠ .cashbookTransactions) {ids : ExpenseIds} {dto : CreateExpenseDto}
    {currentUserId : Uuid} {now : Date} :
    Tame t (createExpenseInTransaction ids dto currentUserId now) := by
  refine .bind (each_onPool still_select) fun category => ?_
  cases category with
  | none => trivial
  | some category =>
      refine .bind tame_allocateAmounts fun allocation => ?_
      refine .bind (each_inTrx (tame_insertInto hexpenses)) fun expense => ?_
      exact .bind (tame_createExpenseTransaction hledger) fun _ => trivial

theorem tame_createExpense (hexpenses : t ≠ .expenses) (hledger : t ≠ .cashbookTransactions)
    {ids : ExpenseIds} {dto : CreateExpenseDto} {currentUserId : Uuid} {now : Date} :
    Tame t (createExpense ids dto currentUserId now) := by
  unfold createExpense
  split
  · trivial
  · exact .bind (tame_createExpenseInTransaction hexpenses hledger) fun _ => tame_readExpense

theorem tame_updateExpenseInTransaction (hexpenses : t ≠ .expenses)
    (hledger : t ≠ .cashbookTransactions) {ids : ExpenseIds} {id : Uuid} {dto : UpdateExpenseDto}
    {existing : Expense} {effectiveCategory : Option ExpenseCategory} {now : Date} :
    Tame t (updateExpenseInTransaction ids id dto existing effectiveCategory now) := by
  refine .bind tame_reallocate fun amounts => ?_
  refine .bind (each_inTrx (tame_updateById hexpenses)) fun _ => ?_
  split
  · exact tame_updateTransaction hledger
  · trivial

theorem tame_updateExpense (hexpenses : t ≠ .expenses) (hledger : t ≠ .cashbookTransactions)
    {ids : ExpenseIds} {id : Uuid} {dto : UpdateExpenseDto} {now : Date} :
    Tame t (updateExpense ids id dto now) := by
  refine .bind (each_onPool still_select) fun found => ?_
  cases found with
  | none => trivial
  | some found =>
      obtain ⟨existing, category⟩ := found
      dsimp only
      split
      · trivial
      · exact .bind tame_findNewCategory fun newCategory =>
          .bind (tame_updateExpenseInTransaction hexpenses hledger) fun _ => tame_readExpense

theorem tame_deleteExpense (hexpenses : t ≠ .expenses) (hledger : t ≠ .cashbookTransactions)
    {id : Uuid} {now : Date} : Tame t (deleteExpense id now) := by
  refine .bind (each_onPool still_select) fun found => ?_
  cases found with
  | none => trivial
  | some expense =>
      exact .bind (tame_deleteTransaction hledger) fun _ =>
        .bind (tame_deleteExpenseById hexpenses hledger) fun _ => trivial

theorem tame_piped {α : Type} {x : Except Error α} : Tame t (piped x) := by
  cases x <;> trivial

theorem ExpensesRoute.tame_handle (hexpenses : t ≠ .expenses)
    (hledger : t ≠ .cashbookTransactions) {user : UserJWT} {now : Date} (route : ExpensesRoute) :
    Tame t (route.handle user now) := by
  cases route with
  | createExpense ids body =>
      exact .bind tame_piped fun _ => .bind (tame_createExpense hexpenses hledger) fun _ => trivial
  | findAllExpenses query =>
      refine .bind tame_piped fun _ => .bind ?_ fun _ => trivial
      exact .bind (each_onPool still_select) fun _ =>
        .bind (each_onPool still_select) fun _ => trivial
  | getExpenseCategories => exact .bind (each_onPool still_select) fun _ => trivial
  | findExpenseById id =>
      refine .bind (.bind (each_onPool still_select) fun found => ?_) fun _ => trivial
      cases found <;> trivial
  | updateExpense ids id body =>
      exact .bind tame_piped fun _ => .bind (tame_updateExpense hexpenses hledger) fun _ => trivial
  | deleteExpense id => exact .bind (tame_deleteExpense hexpenses hledger) fun _ => trivial

end Functions

end LumbungMesari
