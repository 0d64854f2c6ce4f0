import LumbungMesari.Sql.Serial
import LumbungMesari.DisbursementRules

/-!
# What the calls on loans hold on to

A decision locks the loan it has read, a settlement its installment, and every posting the balances it
records. What these calls read without a lock stays as it was for other reasons: nothing changes the
periods and the categories, rows that are referred to do not vanish, no user gets another open loan,
and a loan that is locked gets no installments.
-/

namespace LumbungMesari

open Sql
open Prog (inTrx onPool commitTrx)

variable {d d' : Database} {l l' : Locks}

/-! ### What happens beside a transaction -/

/-- The tables that none of the calls writes. -/
def referenceTables : List TableName := [.loanPeriods, .incomeCategories, .expenseCategories]

/-- A loan stays with its user, and is open only if it was. -/
inductive LoanKept : Option Loan → Option Loan → Prop where
  | same (r : Option Loan) : LoanKept r r
  | moved {loan loan' : Loan} (userId : loan'.userId = loan.userId)
      (opened : loan'.status.open = true → loan.status.open = true) :
      LoanKept (some loan) (some loan')

/-- An installment of a loan was one before, with the same number. -/
def NumberKept (loanId : Uuid) (r r' : Option Installment) : Prop :=
  ∀ i' ∈ r', i'.loanId = loanId →
    ∃ i ∈ r, i.loanId = loanId ∧ i.installmentNumber = i'.installmentNumber

/-- What the other calls may have changed beside a session that holds locks. -/
structure Beside (l : Locks) (d d' : Database) : Prop where
  locked : ∀ {k m}, (k, m) ∈ l → LockMode.exclusive m = true → Database.agree k d d'
  reference : ∀ t ∈ referenceTables, d'.table t = d.table t
  found : ∀ t id, d.find t id ≠ none → d'.find t id ≠ none
  loans : ∀ id, LoanKept (d.find .loans id) (d'.find .loans id)
  numbers : ∀ {loanId m}, (LockTarget.row .loans loanId, m) ∈ l → m.exclusive = true →
    ∀ id, NumberKept loanId (d.find .installments id) (d'.find .installments id)

/-- A write does the same to the row it locks, and leaves the others as they are. -/
theorem related_apply {t : TableName} {id : Uuid} {R : Option (Row t) → Option (Row t) → Prop}
    (hrefl : ∀ r, R r r) {w : Write}
    (hlocked : ∀ m, (LockTarget.row t id, m) ∈ w.needs → m.exclusive = true →
      d.find t id = d'.find t id) (h : R (d.find t id) (d'.find t id)) :
    R ((d.apply w).find t id) ((d'.apply w).find t id) := by
  by_cases hlock : ∃ m, (LockTarget.row t id, m) ∈ w.needs ∧ m.exclusive = true
  · obtain ⟨m, hm, hexclusive⟩ := hlock
    have hsame : (d.apply w).find t id = (d'.apply w).find t id :=
      Database.agree_apply_congr (k := .row t id) (hlocked m hm hexclusive) w
    rw [hsame]
    exact hrefl _
  · have hkept : ∀ d : Database, (d.apply w).find t id = d.find t id := by
      intro d
      refine (Database.agree_apply (k := .row t id) fun m hm => ?_).symm
      rw [← Bool.not_eq_true]
      exact fun hexclusive => hlock ⟨m, hm, hexclusive⟩
    rwa [hkept, hkept]

theorem table_apply_congr {t : TableName} (h : d'.table t = d.table t) (w : Write) :
    (d'.apply w).table t = (d.apply w).table t := by
  by_cases ht : w.table? = some t
  · cases w with
    | addBalance => cases ht
    | insert t' r =>
        cases ht
        rw [Database.table_insert_self, Database.table_insert_self, h]
    | update t' r =>
        cases ht
        rw [Database.table_update_self, Database.table_update_self, h]
    | delete t' id =>
        cases ht
        rw [Database.table_delete_self, Database.table_delete_self, h]
  · rw [Database.table_apply ht, Database.table_apply ht, h]

theorem NumberKept.refl {loanId : Uuid} (r : Option Installment) : NumberKept loanId r r :=
  fun i hi hloan => ⟨i, hi, hloan, rfl⟩

theorem Beside.refl (l : Locks) (d : Database) : Beside l d d where
  locked _ _ := Store.agree_refl (W := Write) _ d
  reference _ _ := rfl
  found _ _ h := h
  loans _ := .same _
  numbers _ _ _ := .refl _

/-- Two states that differ by the work of others differ by it after a write of the session. -/
theorem Beside.apply {w : Write} (h : Beside l d d') (hw : w.needs ⊆ l) :
    Beside l (d.apply w) (d'.apply w) := by
  have hrow : ∀ {t : TableName} {id : Uuid} (m : LockMode), (LockTarget.row t id, m) ∈ w.needs →
      m.exclusive = true → d.find t id = d'.find t id :=
    fun m hm hexclusive => h.locked (hw hm) hexclusive
  exact {
    locked := fun hk hexclusive => Database.agree_apply_congr (h.locked hk hexclusive) w
    reference := fun t ht => table_apply_congr (h.reference t ht) w
    found := fun t id => related_apply (R := fun r r' => r ≠ none → r' ≠ none) (fun _ h => h) hrow
      (h.found t id)
    loans := fun id => related_apply .same hrow (h.loans id)
    numbers := fun hloan hexclusive id =>
      related_apply .refl hrow (h.numbers hloan hexclusive id) }

def beside : Rely Database Write LockTarget where
  rel := Beside
  refl := Beside.refl
  apply := Beside.apply

namespace Beside

theorem find_eq (h : Beside l d d') {t : TableName} {id : Uuid} {m : LockMode}
    (hk : (LockTarget.row t id, m) ∈ l) (hm : m.exclusive = true) :
    d'.find t id = d.find t id := (h.locked hk hm).symm

theorem rows_eq (h : Beside l d d') {t : TableName} (ht : t ∈ referenceTables) :
    d'.rows t = d.rows t := congrArg Table.rows (h.reference t ht)

theorem find_reference (h : Beside l d d') {t : TableName} (ht : t ∈ referenceTables) (id : Uuid) :
    d'.find t id = d.find t id := Database.find_congr (h.reference t ht) id

theorem exists? (h : Beside l d d') {ref : TableName × Uuid} (href : d.exists? ref = true) :
    d'.exists? ref = true := by
  rw [Database.exists?, Option.isSome_iff_ne_none] at href ⊢
  exact h.found _ _ href

theorem openLoans_le (h : Beside l d d') (userId id : Uuid) :
    (d'.rows .loans).countP (fun r => r.userId = userId ∧ r.status.open ∧ r.id ≠ id) ≤
      (d.rows .loans).countP (fun r => r.userId = userId ∧ r.status.open ∧ r.id ≠ id) := by
  rw [List.countP_eq_length_filter, List.countP_eq_length_filter,
    ← List.length_map (f := Loan.id), ← List.length_map (f := Loan.id)]
  refine List.Subperm.length_le (List.subperm_of_subset
    ((d'.table .loans).nodup.sublist (List.filter_sublist.map Loan.id)) fun k hk => ?_)
  obtain ⟨loan', hmem', rfl⟩ := List.mem_map.1 hk
  obtain ⟨hrow', hopen'⟩ := List.mem_filter.1 hmem'
  rw [decide_eq_true_eq] at hopen'
  obtain ⟨huser, hopen, hne⟩ := hopen'
  have hkept := h.loans loan'.id
  have hfind' : d'.find .loans loan'.id = some loan' := Table.find?_of_mem hrow'
  rw [hfind'] at hkept
  generalize hfind : d.find .loans loan'.id = r at hkept
  cases hkept with
  | same =>
      refine List.mem_map_of_mem (List.mem_filter.2 ⟨(Table.find?_some hfind).1, ?_⟩)
      exact decide_eq_true ⟨huser, hopen, hne⟩
  | @moved loan _ userId opened =>
      have hid : loan.id = loan'.id := Database.find_id hfind
      rw [← hid]
      refine List.mem_map_of_mem (List.mem_filter.2 ⟨(Table.find?_some hfind).1, ?_⟩)
      exact decide_eq_true ⟨userId ▸ huser, opened hopen, fun h => hne (hid.symm.trans h)⟩

/-- A row that has passed the trigger before it passes it again. -/
theorem beforeWrite (h : Beside l d d') {t : TableName} {r : Row t}
    (hbefore : beforeWrite d t r = .ok ()) : LumbungMesari.beforeWrite d' t r = .ok () := by
  cases t with
  | loans =>
      simp only [LumbungMesari.beforeWrite, checkMaxLoansPerUser] at hbefore ⊢
      split at hbefore
      · cases hbefore
      · rename_i hroom
        refine if_neg fun hfull => hroom ⟨hfull.1, ?_⟩
        exact hfull.2.trans (h.openLoans_le _ _)
  | users | loanPeriods | installments | principalSavings | mandatorySavings | incomeCategories
  | incomes | expenseCategories | expenses | cashbookTransactions => rfl

end Beside

/-! ### Statements -/

section Statements

variable {β : Type} {t : TableName}

theorem insertRow_of_inserted {r : Row t} {ws : List Write} (h : Inserted d t r)
    (hafter : afterInsert d t r = .ok ws) : insertRow d t r = .ok (.insert t r :: ws) := by
  have hfree : (d.exists? (t, Row.id t r) || (Row.uniqueKeys t r).any (d.taken t)) = false := by
    rw [Bool.or_eq_false_iff, Database.exists?, h.fresh]
    exact ⟨rfl, List.any_eq_false.2 fun k hk => by simp [h.unique k hk]⟩
  have hreferences : (!(Row.references t r).all d.exists?) = false := by
    rw [Bool.not_eq_false', List.all_eq_true]
    exact h.referenced
  rw [insertRow, h.before, hafter]
  simp only [hfree, hreferences]
  rfl

theorem updateRow_of_updated {old new : Row t} {ws : List Write} (h : Updated d t old new)
    (hafter : afterUpdate d t old new = .ok ws) :
    updateRow d t old new = .ok (.update t new :: ws) := by
  have hreferences : (!(newReferences t old new).all d.exists?) = false := by
    rw [Bool.not_eq_false', List.all_eq_true]
    exact h.referenced
  rw [updateRow, h.before, hafter]
  simp only [hreferences]
  rfl

/-- An insert does again what it did, where its keys are still free and its trigger does the same. -/
theorem Beside.insertRow {r : Row t} {ws : List Write} (h : Beside l d d')
    (hinsert : insertRow d t r = .ok ws) (hneeds : ∀ w ∈ ws, needs w ⊆ l)
    (hunique : ∀ k ∈ Row.uniqueKeys t r, d.taken t k = false → d'.taken t k = false)
    (hafter : afterInsert d' t r = afterInsert d t r) : LumbungMesari.insertRow d' t r = .ok ws := by
  obtain ⟨hinserted, ws', hws', rfl⟩ := insertRow_ok hinsert
  have hlock : (LockTarget.row t (Row.id t r), LockMode.update) ∈ l :=
    hneeds _ (List.mem_cons_self ..) (List.mem_cons_self ..)
  refine insertRow_of_inserted ⟨h.beforeWrite hinserted.before, ?_, fun k hk => ?_, fun ref href => ?_⟩
    (hafter.trans hws')
  · rw [h.find_eq hlock rfl]
    exact hinserted.fresh
  · exact hunique k hk (hinserted.unique k hk)
  · exact h.exists? (hinserted.referenced ref href)

variable {α : Type} {ends : Program α → Prop}

theorem repeats_select {read : Database → β}
    (h : ∀ {l' d'}, l ⊆ l' → Beside l' d d' → read d' = read d) :
    (select read).Repeats beside l d [] (read d) :=
  fun hl hd => ⟨congrArg (fun b => Except.ok ([], b)) (h hl hd), rfl⟩

theorem holds_selectOnPool {read : Database → β}
    (h : ∀ {l d d'}, Beside l d d' → read d' = read d) :
    (onPool (select read)).Holds beside l := by
  intro d ws b hexec
  cases hexec
  exact ⟨rfl, .inl ⟨repeats_select fun _ hd => h hd, trivial⟩⟩

theorem holds_select {read : Database → β} (h : ∀ {l d d'}, Beside l d d' → read d' = read d) :
    (inTrx (select read)).Holds beside l := by
  intro d ws b hexec
  cases hexec
  exact .inl ⟨repeats_select fun _ hd => h hd, trivial⟩

/-- What a `SELECT .. FOR UPDATE` has read it reads again, when the locks keep it. -/
theorem steady_selectForUpdate {targets : Database → List LockTarget} {read : Database → β}
    {k : β → Program α} (h : ∀ d, (∀ {l' d'}, l ++ (targets d).map (·, .update) ⊆ l' →
      Beside l' d d' → targets d' = targets d ∧ read d' = read d) ∧
        (k (read d)).Steady beside ends (l ++ (targets d).map (·, .update)) ∨
      ∃ e, k (read d) = .throw e) :
    (inTrx (selectForUpdate targets read) >>= k).Steady beside ends l := by
  intro d ws b hexec
  cases hexec
  have hlocks : ∀ d, (selectForUpdate targets read).locks d = (targets d).map (·, .update) :=
    fun d => List.append_nil _
  refine (h d).imp_left fun ⟨hsame, hk⟩ => ?_
  rw [hlocks]
  refine ⟨fun hl hd => ?_, hk⟩
  obtain ⟨htargets, hread⟩ := hsame hl hd
  refine ⟨congrArg (fun b => Except.ok ([], b)) hread, ?_⟩
  rw [hlocks, hlocks, htargets]

theorem locks_statement {label : Label} {locks : Database → Locks}
    {exec : Database → Except Error (List Write × β)} {ws : List Write} {b : β}
    (hexec : exec d = .ok (ws, b)) :
    (statement label locks exec).locks d = locks d ++ ws.flatMap needs := by
  simp only [statement, hexec]

theorem repeats_statement {label : Label} {locks : Database → Locks}
    {exec : Database → Except Error (List Write × β)} {ws : List Write} {b : β}
    (hexec : exec d = .ok (ws, b))
    (h : ∀ {l' d'}, l ⊆ l' → locks d ⊆ l' → (∀ w ∈ ws, needs w ⊆ l') → Beside l' d d' →
      exec d' = .ok (ws, b) ∧ locks d' = locks d) :
    (statement label locks exec).Repeats beside (l ++ (statement label locks exec).locks d) d ws b := by
  intro l' d' hl hd
  rw [locks_statement hexec, List.append_subset, List.append_subset] at hl
  obtain ⟨hl, hlocks, hneeds⟩ := hl
  obtain ⟨hexec', hlocks'⟩ := h hl hlocks
    (fun w hw k hk => hneeds (List.mem_flatMap.2 ⟨w, hw, hk⟩)) hd
  exact ⟨hexec', by rw [locks_statement hexec, locks_statement hexec', hlocks']⟩

theorem holds_insertInto {row : Except Error (Row t)} (hunique : ∀ r, Row.uniqueKeys t r = [])
    (hafter : ∀ r {l' d d'}, l ⊆ l' → Beside l' d d' → afterInsert d' t r = afterInsert d t r) :
    (inTrx (insertInto t row)).Holds beside l := by
  intro d ws r hexec
  refine .inl ⟨repeats_statement hexec fun hl _ hneeds hd => ⟨?_, rfl⟩, trivial⟩
  obtain ⟨r', hrow, hexec⟩ := bind_ok hexec
  obtain ⟨ws', hinsert, hexec⟩ := bind_ok hexec
  cases hexec
  have hagain := hd.insertRow hinsert hneeds (fun k hk => by simp [hunique] at hk) (hafter r hl hd)
  rw [hrow]
  exact congrArg (fun x : Except Error (List Write) => x >>= fun ws => pure (ws, r)) hagain

theorem Beside.updateById (label : Label) {id : Uuid} {set : Row t → Except Error (Row t)}
    {old new : Row t} (h : Beside l d d') (ht : t ≠ .cashbookTransactions)
    (hfind : d.find t id = some old) (hset : set old = .ok new) (hupdated : Updated d t old new)
    (hlock : (LockTarget.row t id, LockMode.noKeyUpdate) ∈ l) :
    (LumbungMesari.updateById label t id set).exec d' = .ok ([.update t new], some new) ∧
      (LumbungMesari.updateById label t id set).locks d' =
        (newReferences t old new).map (fun ref => (.row ref.1 ref.2, .keyShare)) ++
          needs (Write.update t new) := by
  have hfind' : d'.find t id = some old := (h.find_eq hlock rfl).trans hfind
  have hafter : afterUpdate d' t old new = .ok [] := by
    cases t <;> first | rfl | exact absurd rfl ht
  have hrow := updateRow_of_updated ⟨h.beforeWrite hupdated.before,
    fun ref href => h.exists? (hupdated.referenced ref href)⟩ hafter
  have hexec : (LumbungMesari.updateById label t id set).exec d' =
      .ok ([.update t new], some new) := by
    simp only [LumbungMesari.updateById, statement, hfind', hset]
    exact congrArg (fun x : Except Error (List Write) => x >>= fun ws => pure (ws, some new)) hrow
  refine ⟨hexec, ?_⟩
  simp only [LumbungMesari.updateById, statement] at hexec ⊢
  rw [hexec]
  simp only [hfind', hset, List.flatMap_singleton]

theorem steady_updateOrThrow {label : Label} {id : Uuid} {set : Row t → Except Error (Row t)}
    {notFound : Error} {f : Row t → Program α} (ht : t ≠ .cashbookTransactions)
    (hid : ∀ {r r'}, set r = .ok r' → Row.id t r' = Row.id t r)
    (hf : ∀ r l', l ⊆ l' → (LockTarget.row t id, LockMode.noKeyUpdate) ∈ l' →
      (f r).Steady beside ends l') :
    (updateOrThrow label id set notFound >>= f).Steady beside ends l := by
  intro d ws r hexec
  cases hfind : d.find t id with
  | none =>
      simp only [updateById, statement, hfind] at hexec
      cases hexec
      exact .inr ⟨notFound, rfl⟩
  | some old =>
      have hfound := hexec
      simp only [updateById, statement, hfind] at hfound
      obtain ⟨new, hset, hfound⟩ := bind_ok hfound
      obtain ⟨ws', hrow, hfound⟩ := bind_ok hfound
      cases hfound
      obtain ⟨hupdated, rfl⟩ := updateRow_plain ht hrow
      have hlock : (LockTarget.row t id, LockMode.noKeyUpdate) ∈
          l ++ (updateById label t id set).locks d := by
        have hnew : Row.id t new = id := (hid hset).trans (Database.find_id hfind)
        refine List.mem_append_right _ ((updateById label t id set).covered hexec _
          (List.mem_singleton_self _) ?_)
        exact List.mem_singleton.2 (by rw [hnew])
      have hlocks := ((Beside.refl _ d).updateById label ht hfind hset hupdated hlock).2
      refine .inl ⟨fun hl hd => ?_, hf new _ (List.subset_append_left ..) hlock⟩
      rw [hlocks]
      exact hd.updateById label ht hfind hset hupdated (hl hlock)

end Statements

/-! ### The ledger -/

theorem Beside.balance_eq (h : Beside l d d') {b : BalanceType} {m : LockMode}
    (hk : (LockTarget.balance b, m) ∈ l) (hm : m.exclusive = true) : d'.balances b = d.balances b :=
  (Database.agree_balance (h.locked hk hm)).symm

theorem Beside.balances (h : Beside l d d') (hl : ∀ b, (LockTarget.balance b, LockMode.update) ∈ l) :
    d'.balances = d.balances := funext fun b => h.balance_eq (hl b) rfl

theorem cashbookInsertBalance_congr (h : d'.balances = d.balances) (r : CashbookTransaction) :
    cashbookInsertBalance d' r = cashbookInsertBalance d r := by
  simp only [cashbookInsertBalance, moveBalances, moveBucket, updateBalance, h]

/-- An entry records the balances as they still are when it is posted. -/
theorem holds_lock_createTransaction {id : Uuid} {data : Balances → CashbookTransactionData} :
    (do let before ← lockAllForUpdate; createTransaction id (data before)).Holds beside l := by
  refine steady_selectForUpdate fun d => .inl ⟨fun hl hd => ⟨rfl, ?_⟩, ?_⟩
  · have hbalances : _ = d.balances := hd.balances fun b => hl (List.mem_append_right _ (by
      cases b <;> simp))
    simp only [Database.balance, hbalances]
  · refine holds_insertInto (t := .cashbookTransactions) (fun _ => rfl) fun r l' d₁ d₂ hl hd => ?_
    exact cashbookInsertBalance_congr (hd.balances fun b => hl (List.mem_append_right _ (by
      cases b <;> simp))) r

theorem holds_createIncomeTransaction {id incomeId : Uuid} {amount : ℚ}
    {destination : IncomeDestination} {txnDate : Option Date} {now : Date} :
    (createIncomeTransaction id incomeId amount destination txnDate now).Holds beside l :=
  holds_lock_createTransaction

theorem holds_createExpenseTransaction {id expenseId : Uuid} {shuAmount capitalAmount : ℚ}
    {txnDate : Option Date} {now : Date} :
    (createExpenseTransaction id expenseId shuAmount capitalAmount txnDate now).Holds beside l :=
  holds_lock_createTransaction

theorem holds_createIncomeOf {code : String} {id : Uuid} {data : IncomeData} {now : Date} :
    (createIncomeOf code id data now).Holds beside l := by
  refine Prog.Holds.bind (holds_select fun h => ?_) fun category => ?_
  · rw [h.rows_eq (t := .incomeCategories) (by decide)]
  · cases category with
    | none => trivial
    | some category =>
        exact holds_insertInto (t := .incomes) (fun _ => rfl) fun _ _ _ _ _ _ => rfl

theorem holds_allocateAmounts {totalAmount : ℚ} {source : Option ExpenseSource}
    {restore : Option Allocation} : (allocateAmounts totalAmount source restore).Holds beside l := by
  refine steady_selectForUpdate fun d => .inl ⟨fun hl hd => ⟨rfl, ?_⟩, ?_⟩
  · have hshu : _ = d.balances .shu :=
      hd.balance_eq (m := .update) (hl (List.mem_append_right _ (by simp))) rfl
    have hcapital : _ = d.balances .capital :=
      hd.balance_eq (m := .update) (hl (List.mem_append_right _ (by simp))) rfl
    simp only [Database.balance, hshu, hcapital]
  · dsimp only
    split <;> trivial

theorem holds_createExpenseInTransaction {ids : ExpenseIds} {dto : CreateExpenseDto}
    {currentUserId : Uuid} {now : Date} :
    (createExpenseInTransaction ids dto currentUserId now).Holds beside l := by
  refine Prog.Holds.bind (holds_selectOnPool fun h => h.find_reference (by decide) _) fun category => ?_
  cases category with
  | none => trivial
  | some category =>
      refine Prog.Holds.bind holds_allocateAmounts fun allocation => ?_
      refine Prog.Holds.bind (holds_insertInto (t := .expenses) (fun _ => rfl)
        fun _ _ _ _ _ _ => rfl) fun expense => ?_
      exact Prog.Holds.bind holds_createExpenseTransaction fun _ => trivial

/-! ### Loans and installments -/

theorem holds_postInstallment {ids : SettleIds} {installment : Installment} {now : Date} :
    (postInstallment ids installment now).Holds beside l := by
  refine Prog.Holds.bind holds_createIncomeOf fun _ => ?_
  refine Prog.Holds.bind holds_createIncomeTransaction fun _ => ?_
  refine Prog.Holds.bind holds_createIncomeOf fun _ => ?_
  refine Prog.Holds.bind holds_createIncomeTransaction fun _ => ?_
  split
  · refine Prog.Holds.bind holds_createIncomeOf fun _ => ?_
    exact Prog.Holds.bind holds_createIncomeTransaction fun _ => trivial
  · trivial

theorem Database.find_eq_some {t : TableName} {id : Uuid} {r : Row t} :
    d.find t id = some r ↔ r ∈ d.rows t ∧ Row.id t r = id := by
  refine ⟨Table.find?_some, ?_⟩
  rintro ⟨hmem, rfl⟩
  exact Table.find?_of_mem hmem

theorem taken_installmentNumber {loanId : Uuid} {number : ℕ} :
    d.taken .installments (.installmentNumber loanId number) = true ↔
      ∃ id i, d.find .installments id = some i ∧ i.loanId = loanId ∧ i.installmentNumber = number := by
  rw [Database.taken, List.any_eq_true]
  constructor
  · rintro ⟨i, hmem, hkey⟩
    simp only [Row.uniqueKeys, List.mem_singleton, UniqueKey.installmentNumber.injEq,
      decide_eq_true_eq] at hkey
    exact ⟨i.id, i, Database.find_eq_some.2 ⟨hmem, rfl⟩, hkey.1.symm, hkey.2.symm⟩
  · rintro ⟨id, i, hfind, hloan, hnumber⟩
    exact ⟨i, (Database.find_eq_some.1 hfind).1, by simp [Row.uniqueKeys, hloan, hnumber]⟩

theorem Beside.installmentNumber_free (h : Beside l d d') {loanId : Uuid} {m : LockMode}
    (hlock : (LockTarget.row .loans loanId, m) ∈ l) (hm : m.exclusive = true) {number : ℕ}
    (hfree : d.taken .installments (.installmentNumber loanId number) = false) :
    d'.taken .installments (.installmentNumber loanId number) = false := by
  rw [← Bool.not_eq_true, taken_installmentNumber] at hfree ⊢
  rintro ⟨id, i', hfind', hloan', hnumber'⟩
  obtain ⟨i, hfind, hloan, hnumber⟩ := h.numbers hlock hm id i' hfind' hloan'
  exact hfree ⟨id, i, hfind, hloan, hnumber.trans hnumber'⟩

theorem Beside.insertRows {rs : List Installment} {ws : List Write} {loanId : Uuid} {m : LockMode}
    (h : Beside l d d') (hlock : (LockTarget.row .loans loanId, m) ∈ l) (hm : m.exclusive = true)
    (howner : ∀ r ∈ rs, r.loanId = loanId) (hinsert : insertRows d .installments rs = .ok ws)
    (hneeds : ∀ w ∈ ws, needs w ⊆ l) : LumbungMesari.insertRows d' .installments rs = .ok ws := by
  induction rs generalizing d d' ws with
  | nil => exact hinsert
  | cons r rs ih =>
      obtain ⟨ws₁, hrow, hrest⟩ := bind_ok hinsert
      obtain ⟨ws₂, hinserts, hws⟩ := bind_ok hrest
      cases hws
      obtain ⟨hneeds₁, hneeds₂⟩ := List.forall_mem_append.1 hneeds
      have hkeys : ∀ k ∈ Row.uniqueKeys .installments r, d.taken .installments k = false →
          d'.taken .installments k = false := by
        intro k hk hfree
        rw [Row.uniqueKeys, List.mem_singleton, howner r (List.mem_cons_self ..)] at hk
        rw [hk] at hfree ⊢
        exact h.installmentNumber_free hlock hm hfree
      have hrow' := h.insertRow hrow hneeds₁ hkeys rfl
      have hnext : Beside l (applyAll d ws₁) (applyAll d' ws₁) := beside.applyAll h hneeds₁
      have hrest' := ih hnext (fun r' hr' => howner r' (List.mem_cons_of_mem _ hr')) hinserts hneeds₂
      rw [LumbungMesari.insertRows, hrow']
      change (LumbungMesari.insertRows (applyAll d' ws₁) .installments rs >>= _) = _
      rw [hrest']
      rfl

theorem holds_createInstallments {installments : Except Error (List Installment)} {loanId : Uuid}
    {m : LockMode} (hlock : (LockTarget.row .loans loanId, m) ∈ l) (hm : m.exclusive = true)
    (howner : ∀ rs, installments = .ok rs → ∀ r ∈ rs, r.loanId = loanId) :
    (createInstallments installments).Holds beside l := by
  intro d ws rs hexec
  refine .inl ⟨repeats_statement hexec fun hl _ hneeds hd => ⟨?_, rfl⟩, trivial⟩
  obtain ⟨rs', hrows, hexec⟩ := bind_ok hexec
  obtain ⟨ws', hinsert, hexec⟩ := bind_ok hexec
  cases hexec
  have hagain := hd.insertRows (hl hlock) hm (howner rs hrows) hinsert hneeds
  rw [hrows]
  exact congrArg (fun x : Except Error (List Write) => x >>= fun ws => pure (ws, rs)) hagain

end LumbungMesari
