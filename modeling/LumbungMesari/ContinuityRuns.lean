import LumbungMesari.Continuity

/-!
# The journal over whole runs

However the calls of the services overlap, the ledger is a journal: in the order of their commits,
the rows lead from the balances of the start to those of now. Only deletions move balances without a
row.
-/

namespace LumbungMesari

open Sql Js
open Prog (inTrx onPool commitTrx)

/-! ### Functions that post -/

section Functions

variable {S : Contract Database LockTarget Label} [S.Stable (W := Write)] {d : Database} {s : Trx}
  {now : Date}

/-- What is allocated is not negative, unless capital alone is asked for an amount that is. -/
theorem allocateAmounts_journaling (hS : JournalContract S) {totalAmount : ℚ} {source : ExpenseSource}
    (h : Journaling d s) (hamount : 0 < totalAmount ∨ source = .capital)
    {Q : Allocation → Database → Trx → Prop}
    (hQ : ∀ d' a l, Journaling d' (s.extend [] l) → a.Decimal → (a.Nonneg ∨ a.shuAmount = 0) →
      Q a d' (s.extend [] l)) :
    (allocateAmounts totalAmount (some source) none).wp S Q d s := by
  have hquiet : ∀ d' l, S.env s.locks d d' → Journaling d' (s.extend [] l) := fun d' l henv =>
    (h.env hS henv).extend_locks
  by_cases hpos : 0 < totalAmount
  · refine allocateAmounts_wp hpos (by simp) (fun d' henv => (h.env hS henv).view_balanced.inRange)
      fun d' a l henv ha hdecimals _ => hQ d' a l (hquiet d' l henv) hdecimals (.inl ha)
  · obtain rfl : source = .capital := hamount.resolve_left hpos
    unfold allocateAmounts
    rw [Prog.wp_bind']
    refine wp_selectForUpdate fun d' l henv _ => ?_
    dsimp only
    split
    · trivial
    rename_i a hallocate
    unfold allocate at hallocate
    dsimp only at hallocate
    split at hallocate
    · cases hallocate
    · cases hallocate
      exact hQ d' _ l (hquiet d' l henv) (Split.decimal_stored _) (.inr (Double.toNumeric_zero 4))

theorem NewExpense.Stored.allocation_nonneg {data : NewExpense} {id : Uuid} {e : Expense}
    (h : data.Stored id e)
    (ha : (0 ≤ data.shuAmount ∧ 0 ≤ data.capitalAmount) ∨ data.shuAmount = 0) :
    (0 ≤ data.shuAmount ∧ 0 ≤ data.capitalAmount) ∧ e.allocation.Nonneg := by
  have hpositive := e.amountsPositive
  have hparts : 0 ≤ data.shuAmount ∧ 0 ≤ data.capitalAmount := by
    rcases ha with ha | hzero
    · exact ha
    · have hshu := h.shuAmount
      rw [hzero] at hshu
      have hunits : 0 < e.capitalAmount.units := by
        have := units_eq_zero hshu
        omega
      rw [Numeric.ofRat?_some h.capitalAmount] at hunits
      exact ⟨hzero.ge, (pos_of_mul_pos_left (pos_of_roundHalfAway_pos hunits) (by norm_num)).le⟩
  refine ⟨hparts, Numeric.toRat_nonneg.2 ?_, Numeric.toRat_nonneg.2 ?_⟩
  · rw [Numeric.ofRat?_some h.shuAmount]
    exact roundHalfAway_nonneg (mul_nonneg hparts.1 (by norm_num))
  · rw [Numeric.ofRat?_some h.capitalAmount]
    exact roundHalfAway_nonneg (mul_nonneg hparts.2 (by norm_num))

theorem quiet_expense {e : Expense} (he : e.allocation.Nonneg) {w : Write}
    (hw : w = .insert .expenses e ∨ w = .update .expenses e) : w.Quiet where
  ledger r hr := by
    rcases hw with rfl | rfl <;> rcases hr with hr | hr <;> cases hr
  expense e' he' := by
    rcases hw with rfl | rfl <;> rcases he' with he' | he' <;> cases he' <;> exact he
  spares := by
    rcases hw with rfl | rfl <;> simp [Write.Spares, Write.table?]
  still := by
    rcases hw with rfl | rfl <;> exact still_of_table? (by simp [Write.table?])

theorem preserves_createExpenseInTransaction (hS : JournalContract S) {ids : ExpenseIds}
    {dto : CreateExpenseDto} {currentUserId : Uuid}
    (hamount : 0 < dto.amount ∨ dto.source = some .capital) :
    (createExpenseInTransaction ids dto currentUserId now).Preserves S Journaling := by
  intro d s h
  unfold createExpenseInTransaction findExpenseCategoryById
  rw [Prog.wp_bind']
  refine wp_selectOnPool fun d₁ henv₁ => ?_
  have h₁ := h.env hS henv₁
  split
  · trivial
  rename_i category _
  rw [Prog.wp_bind']
  refine allocateAmounts_journaling hS h₁ (hamount.imp_right fun hsource => by simp [hsource])
    fun d₂ a l₂ h₂ hdecimals ha => ?_
  rw [Prog.wp_bind', createExpenseRow]
  refine wp_insertInto fun d₃ e ws l₃ henv₃ hrow hinsert _ => ?_
  obtain ⟨-, rfl⟩ := insertRow_plain (by decide) hinsert
  obtain ⟨hparts, he⟩ := (NewExpense.toRow_ok hrow).allocation_nonneg ha
  exact Prog.Preserves.bind (preserves_createExpenseTransaction hS hparts hdecimals)
    (fun _ => Prog.preserves_pure) _ _ ((h₂.env hS henv₃).extend_quiet fun w hw =>
      quiet_expense he (.inl (List.mem_singleton.1 hw)))

theorem preserves_createExpense (hS : JournalContract S) {ids : ExpenseIds} {dto : CreateExpenseDto}
    {currentUserId : Uuid} :
    (createExpense ids dto currentUserId now).Preserves S Journaling := by
  unfold createExpense
  split
  · exact Prog.preserves_throw
  rename_i hamount
  refine .bind (preserves_createExpenseInTransaction hS (.inl (checkAmount_ok hamount)))
    fun result => .bind (preserves_commitTrx hS) fun _ => ?_
  exact preserves_reads hS within_readExpense

theorem preserves_updateExpense (hS : JournalContract S) {ids : ExpenseIds} {id : Uuid}
    {dto : UpdateExpenseDto} :
    (updateExpense ids id dto now).Preserves S Journaling := by
  intro d s h
  unfold updateExpense findByIdWithCategory
  rw [Prog.wp_bind']
  refine wp_selectOnPool fun d₁ henv₁ => ?_
  have h₁ := h.env hS henv₁
  split
  · trivial
  rename_i existing category hfound
  obtain ⟨existing, hexisting, hpair⟩ := Option.map_eq_some_iff.1 hfound
  cases hpair
  have hnonneg := h₁.nonneg.expenses existing (Table.find?_some hexisting).1
  split
  · trivial
  rename_i hamount
  have hread : (readExpense id).Preserves S Journaling :=
    preserves_reads hS within_readExpense
  refine Prog.Preserves.bind (preserves_reads hS within_findNewCategory) (fun newCategory => .bind ?_ fun _ => .bind (preserves_commitTrx hS) fun _ => hread) _ _ h₁
  intro d s h
  rw [updateExpenseInTransaction, Prog.wp_bind']
  refine reallocate_wp (fun q hq => ?_) hnonneg (fun d' henv => (h.env hS henv).view_balanced.inRange)
    fun d₂ amounts l₂ henv₂ ha ha' => ?_
  · rw [Option.mem_def] at hq
    rw [hq] at hamount
    exact checkAmount_ok hamount
  have h₂ : Journaling d₂ (s.extend [] l₂) := (h.env hS henv₂).extend_locks
  have hpost : (if amounts.isSome || dto.transactionDate.isSome then
      updateExpenseTransaction ids.reversal ids.ledger id
        (amounts.getD existing.allocation).shuAmount
        (amounts.getD existing.allocation).capitalAmount dto.transactionDate now
      else pure () : Program Unit).Preserves S Journaling := by
    split
    · exact preserves_updateTransaction hS fun before date =>
        .inl ⟨ha.1, ha.2, ha'.1, ha'.2⟩
    · exact Prog.preserves_pure
  rw [Prog.wp_bind', updateExpenseById]
  refine wp_updateById (fun d₃ l₃ henv₃ _ => ?_) fun d₃ e e' ws l₃ henv₃ hfind hset hupdate _ _ => ?_
  · exact hpost _ _ (h₂.env hS henv₃).extend_locks
  · obtain ⟨-, rfl⟩ := updateRow_plain (by decide) hupdate
    have h₃ := h₂.env hS henv₃
    have he := h₃.view_nonneg.expenses e (Table.find?_some hfind).1
    have he' : e'.allocation.Nonneg := by
      have hset := UpdateExpense.set_ok hset
      cases hamounts : amounts with
      | none =>
          obtain ⟨hshu, hcapital⟩ := hset.kept hamounts
          rw [Expense.allocation, hshu, hcapital]
          exact he
      | some a =>
          obtain ⟨hshu, hcapital⟩ := hset.stored a hamounts
          rw [hamounts] at ha
          refine ⟨Numeric.toRat_nonneg.2 ?_, Numeric.toRat_nonneg.2 ?_⟩
          · rw [Numeric.ofRat?_some hshu]
            exact roundHalfAway_nonneg (mul_nonneg ha.1 (by norm_num))
          · rw [Numeric.ofRat?_some hcapital]
            exact roundHalfAway_nonneg (mul_nonneg ha.2 (by norm_num))
    exact hpost _ _ (h₃.extend_quiet fun w hw => quiet_expense he' (.inr (List.mem_singleton.1 hw)))

theorem preserves_createIncomeOf (hS : JournalContract S) {code : String} {id : Uuid}
    {data : IncomeData} : (createIncomeOf code id data now).Preserves S Journaling :=
  preserves_within hS [.incomes] (within_createIncomeOf (by simp)) (by simp)

theorem preserves_disburseLoan (hS : JournalContract S) {ids : DisburseIds} {loanId adminId : Uuid} :
    (disburseLoan ids loanId adminId now).Preserves S Journaling := by
  refine .bind (preserves_reads hS (Prog.writes_onPool writes_select)) fun found => ?_
  cases found with
  | none => exact Prog.preserves_throw
  | some found =>
      dsimp only
      split
      · exact Prog.preserves_throw
      refine .bind (preserves_reads hS (Prog.writes_onPool writes_select)) fun category => ?_
      cases category with
      | none => exact Prog.preserves_throw
      | some category =>
          refine .bind (.bind (preserves_within hS [.loans]
            (within_disburseLoanRow (by simp)) (by simp)) fun _ => ?_)
            fun _ => preserves_commitTrx hS
          refine .bind (preserves_within hS [.installments]
            (within_createInstallments (by simp)) (by simp)) fun _ => ?_
          refine .bind (preserves_createExpenseInTransaction hS (.inr rfl)) fun _ => ?_
          refine .bind (preserves_createIncomeOf hS) fun fee => ?_
          exact .bind (preserves_createIncomeTransaction hS) fun _ => Prog.preserves_pure

theorem preserves_postInstallment (hS : JournalContract S) {ids : SettleIds}
    {installment : Installment} : (postInstallment ids installment now).Preserves S Journaling := by
  refine .bind (preserves_createIncomeOf hS) fun principal => ?_
  refine .bind (preserves_createIncomeTransaction hS) fun _ => ?_
  refine .bind (preserves_createIncomeOf hS) fun interest => ?_
  refine .bind (preserves_createIncomeTransaction hS) fun _ => ?_
  split
  · refine .bind (preserves_createIncomeOf hS) fun penalty => ?_
    exact .bind (preserves_createIncomeTransaction hS) fun _ => Prog.preserves_pure
  · exact Prog.preserves_pure

theorem preserves_settleInstallment (hS : JournalContract S) {ids : SettleIds}
    {installmentId adminId : Uuid} :
    (settleInstallment ids installmentId adminId now).Preserves S Journaling := by
  refine .bind (preserves_reads hS (Prog.writes_inTrx writes_selectForUpdate)) fun found => ?_
  cases found with
  | none => exact Prog.preserves_throw
  | some installment =>
      dsimp only
      split
      · exact Prog.preserves_throw
      · refine .bind (preserves_within hS [.installments]
          (within_settleInstallmentRow (by simp)) (by simp)) fun _ => ?_
        exact .bind (preserves_postInstallment hS) fun _ => preserves_commitTrx hS

theorem preserves_settleMandatorySavings (hS : JournalContract S) {ids : IncomeIds}
    {savingsId adminId : Uuid} :
    (settleMandatorySavings ids savingsId adminId now).Preserves S Journaling := by
  refine .bind (preserves_reads hS (Prog.writes_inTrx writes_select)) fun found => ?_
  cases found with
  | none => exact Prog.preserves_throw
  | some mandatorySavings =>
      dsimp only
      split
      · exact Prog.preserves_throw
      · refine .bind (preserves_within hS [.mandatorySavings]
          (within_updateMandatorySavings (by simp)) (by simp)) fun _ => ?_
        refine .bind (preserves_createIncomeOf hS) fun income => ?_
        exact .bind (preserves_createIncomeTransaction hS) fun _ => preserves_commitTrx hS

theorem preserves_settlePrincipalSavings (hS : JournalContract S) {ids : IncomeIds}
    {userId adminId : Uuid} :
    (settlePrincipalSavings ids userId adminId now).Preserves S Journaling := by
  refine .bind (preserves_reads hS (Prog.writes_inTrx writes_select)) fun found => ?_
  cases found with
  | none => exact Prog.preserves_throw
  | some found =>
      dsimp only
      split
      · exact Prog.preserves_throw
      · refine .bind (preserves_within hS [.principalSavings]
          (within_updatePrincipalSavings (by simp)) (by simp)) fun _ => ?_
        refine .bind (preserves_createIncomeOf hS) fun income => ?_
        exact .bind (preserves_createIncomeTransaction hS) fun _ => Prog.preserves_pure

theorem preserves_approveUser (hS : JournalContract S) {ids : IncomeIds} {userId adminId : Uuid}
    {reason : Option String} {emailSent : Bool} :
    (approveUser ids userId reason adminId emailSent now).Preserves S Journaling := by
  refine .bind (preserves_reads hS within_usersServiceFindById)
    fun user => ?_
  split
  · exact Prog.preserves_throw
  · refine .bind (preserves_within hS [.users] (within_updateStatus (by simp)) (by simp)) fun _ => ?_
    refine .bind (preserves_settlePrincipalSavings hS) fun _ => ?_
    refine .bind (preserves_commitTrx hS) fun _ => .bind ?_ fun _ => Prog.preserves_pure
    exact preserves_reads hS within_sendApprovalEmail

theorem LoanCall.preserves (hS : JournalContract S) (x : LoanCall) :
    x.program.Preserves S Journaling := by
  cases x with
  | createLoan =>
      exact .bind (preserves_within hS [.loans] (within_createLoan (by simp)) (by simp)) fun _ => Prog.preserves_pure
  | approveLoan =>
      exact preserves_within hS [.loans] (within_decideLoan (by simp)) (by simp)
  | rejectLoan =>
      exact preserves_within hS [.loans] (within_decideLoan (by simp)) (by simp)
  | disburseLoan => exact preserves_disburseLoan hS
  | settleInstallment => exact preserves_settleInstallment hS
  | processOverdueInstallments =>
      exact preserves_within hS [.installments]
        (within_processOverdueInstallments (by simp)) (by simp)

theorem MemberCall.preserves (hS : JournalContract S) {userId : Uuid} (x : MemberCall) :
    (x.program userId).Preserves S Journaling := by
  cases x with
  | verifyOtp =>
      exact .bind (preserves_within hS [.users, .principalSavings]
        (within_verifyOtp (by simp) (by simp)) (by simp)) fun _ => Prog.preserves_pure
  | approveUser => exact .bind (preserves_approveUser hS) fun _ => Prog.preserves_pure
  | rejectUser =>
      exact .bind (preserves_within hS [.users] (within_rejectUser (by simp)) (by simp)) fun _ => Prog.preserves_pure

end Functions

/-! ### Removals -/

/-- The two buckets make up the total, and no row has a negative part. -/
structure Database.Ledgered (d : Database) : Prop where
  total : d.balances .total = d.balances .shu + d.balances .capital
  nonneg : d.RowsNonneg

/-- A session that removes rows: it brings no row that says anything new, and has moved the balances
by `moved`. -/
structure Removing (moved : BalanceType → ℤ) (d : Database) (s : Trx) : Prop where
  ledgered : d.Ledgered
  log : ∀ w ∈ s.log, w.Nonneg
  journal : ∀ {d' : Database}, (∀ c ∈ d.journal, c ∈ d'.journal) → (s.view d').journal = d'.journal
  delta : ∀ b, (s.log.map (Write.delta b)).sum = moved b

/-- What a contract has to know of removals. -/
structure RemovalContract (S : Contract Database LockTarget Label) : Prop where
  sound : ∀ {l d d'}, S.env l d d' → d.Ledgered → d'.Ledgered
  grows : ∀ {l d d'}, S.env l d d' → ∀ c ∈ d.journal, c ∈ d'.journal
  commit : ∀ {l d d'}, d'.Ledgered → d'.journal = d.journal → S.guar l d d'

section Removals

variable {S : Contract Database LockTarget Label} {moved : BalanceType → ℤ} {d d' : Database} {s : Trx}
  {now : Date} {ws : List Write} {l : Locks}

namespace Removing

theorem env (hS : RemovalContract S) (h : Removing moved d s) (henv : S.env s.locks d d') :
    Removing moved d' s where
  ledgered := hS.sound henv h.ledgered
  log := h.log
  journal hgrows := h.journal fun c hc => hgrows c (hS.grows henv c hc)
  delta := h.delta

theorem view_journal (h : Removing moved d s) : (s.view d).journal = d.journal :=
  h.journal fun _ hc => hc

theorem view_nonneg (h : Removing moved d s) : (s.view d).RowsNonneg := h.ledgered.nonneg.applyAll h.log

theorem extend_spares (h : Removing moved d s) (hws : ∀ w ∈ ws, w.Spares .cashbookTransactions)
    (hnonneg : ∀ w ∈ ws, w.Nonneg) :
    Removing (fun b => moved b + (ws.map (Write.delta b)).sum) d (s.extend ws l) where
  ledgered := h.ledgered
  log w hw := (List.mem_append.1 hw).elim (h.log w) (hnonneg w)
  journal hgrows := by rw [Session.view_extend, journal_spares hws, h.journal hgrows]
  delta b := by
    change ((s.log ++ ws).map (Write.delta b)).sum = _
    rw [List.map_append, List.sum_append, h.delta b]

theorem hide (h : Removing moved d s) {rs : List CashbookTransaction}
    (hrs : ∀ r ∈ rs, r.fixedColumns ∈ d.journal) (hnonneg : ∀ r ∈ rs, r.Nonneg) :
    Removing moved d (s.extend (rs.map (Write.update .cashbookTransactions)) l) where
  ledgered := h.ledgered
  log w hw := (List.mem_append.1 hw).elim (h.log w) (nonneg_updates hnonneg w)
  journal {d'} hgrows := by
    have hview := h.journal hgrows
    rw [Session.view_extend, journal_updates fun r hr => by
      rw [hview]
      exact hgrows _ (hrs r hr)]
    exact hview
  delta b := by
    change ((s.log ++ rs.map (Write.update .cashbookTransactions)).map (Write.delta b)).sum = _
    rw [List.map_append, List.sum_append, delta_updates, add_zero, h.delta b]

theorem update (h : Removing moved d s) {f : CashbookTransaction → CashbookTransaction}
    (hf : ∀ r, (f r).fixedColumns = r.fixedColumns) {rs : List CashbookTransaction}
    (hrs : ∀ r ∈ rs, r ∈ (s.view d).rows .cashbookTransactions) :
    Removing moved d (s.extend ((rs.map f).map (Write.update .cashbookTransactions)) l) := by
  refine h.hide (fun r hr => ?_) fun r hr => ?_
  · obtain ⟨r', hr', rfl⟩ := List.mem_map.1 hr
    rw [hf, ← h.view_journal]
    exact List.mem_map_of_mem (hrs r' hr')
  · obtain ⟨r', hr', rfl⟩ := List.mem_map.1 hr
    have hnonneg := h.view_nonneg.ledger r' (hrs r' hr')
    have hcolumns := hf r'
    simp only [CashbookTransaction.fixedColumns, Prod.mk.injEq] at hcolumns
    obtain ⟨-, -, -, ⟨hshu, hcapital⟩, -⟩ := hcolumns
    exact ⟨hshu ▸ hnonneg.shu, hcapital ▸ hnonneg.capital⟩

theorem commit (hS : RemovalContract S) (h : Removing moved d s)
    (hmoved : moved .total = moved .shu + moved .capital) : S.guar l d (s.view d) := by
  refine hS.commit ⟨?_, h.view_nonneg⟩ h.view_journal
  rw [view_balances, view_balances, view_balances, h.delta, h.delta, h.delta, hmoved,
    h.ledgered.total]
  ring

end Removing

variable [S.Stable (W := Write)]

theorem takeBack_removing (hS : RemovalContract S) {label : Label} {b : BalanceType} {n : ℤ}
    (h : Removing moved d s) {Q : Unit → Database → Trx → Prop}
    (hQ : ∀ d' s', Removing (fun b' => moved b' + if b = b' then -n else 0) d' s' → Q () d' s') :
    (takeBack label b ((n : ℚ) / 10 ^ 4)).wp S Q d s := by
  refine takeBack_wp fun d' l henv _ _ _ => hQ _ _ ?_
  have hspares : ∀ t, ∀ w ∈ backout b n, w.Spares t := by
    intro t w hw
    unfold backout at hw
    split at hw
    · rw [List.mem_singleton.1 hw]
      simp [Write.Spares, Write.table?]
    · cases hw
  have hnext := (h.env hS henv).extend_spares (l := l) (hspares _) fun w hw =>
    (hspares _ w hw).nonneg (hspares _ w hw)
  simpa only [delta_backout] using hnext

omit [S.Stable (W := Write)] in
theorem softDelete_removing (hS : RemovalContract S) {o : Owner} (h : Removing moved d s)
    {Q : Unit → Database → Trx → Prop} (hQ : ∀ d' s', Removing moved d' s' → Q () d' s') :
    (softDelete o now).wp S Q d s := by
  unfold softDelete
  rw [Prog.wp_bind']
  refine wp_select fun d₁ henv₁ => updateWhere_softDelete_wp fun d₂ rs l henv₂ hrs _ => hQ _ _ ?_
  refine ((h.env hS henv₁).env hS henv₂).update (f := CashbookTransaction.softDelete now)
    (fun _ => rfl) fun r hr => ?_
  exact (List.mem_filter.1 (hrs ▸ hr)).1

/-- A deletion takes as much out of the total as out of the two buckets. -/
theorem deleteTransaction_removing (hS : RemovalContract S) {o : Owner} {label : ℚ → ℚ → Label}
    (h : Removing (fun _ => 0) d s) {Q : Unit → Database → Trx → Prop}
    (hQ : ∀ d' s' moved, moved .total = moved .shu + moved .capital → Removing moved d' s' →
      Q () d' s') : (deleteTransaction o label now).wp S Q d s := by
  unfold deleteTransaction findAll
  rw [Prog.wp_bind']
  refine wp_select fun d₁ henv₁ => ?_
  have h₁ := h.env hS henv₁
  rw [← Database.owned]
  split
  · exact hQ _ _ _ rfl h₁
  generalize (s.view d₁).owned o = read
  have hshu : netAmount (·.shuAmount) read = (netOf read .shu : ℚ) / 10 ^ 4 := netAmount_eq ..
  have hcapital : netAmount (·.capitalAmount) read = (netOf read .capital : ℚ) / 10 ^ 4 :=
    netAmount_eq ..
  have htotal : (netOf read .shu : ℚ) / 10 ^ 4 + (netOf read .capital : ℚ) / 10 ^ 4 =
      (netOf read .total : ℚ) / 10 ^ 4 := by
    rw [netOf_total]
    push_cast
    ring
  simp only [hshu, hcapital, htotal, Prog.wp_bind']
  refine takeBack_removing hS h₁ fun d₂ s₂ h₂ => takeBack_removing hS h₂ fun d₃ s₃ h₃ =>
    takeBack_removing hS h₃ fun d₄ s₄ h₄ => softDelete_removing hS h₄ fun d₅ s₅ h₅ => ?_
  refine hQ _ _ _ ?_ h₅
  simp [netOf_total]
  ring

theorem deleteExpense_removing (hS : RemovalContract S) {id : Uuid} (h : Removing (fun _ => 0) d s) :
    (deleteExpense id now).wp S (fun _ _ _ => True) d s := by
  unfold deleteExpense
  rw [Prog.wp_bind']
  refine wp_selectOnPool fun d₁ henv₁ => ?_
  split
  · trivial
  rw [Prog.wp_bind', deleteExpenseTransaction]
  refine deleteTransaction_removing hS (h.env hS henv₁) fun d₂ s₂ moved hmoved h₂ => ?_
  rw [Prog.wp_bind']
  refine deleteExpenseById_wp (fun d₃ l henv₃ _ => ?_) fun d₃ e ws l henv₃ _ hws _ => ?_
  · refine Prog.wp_commitTrx.2 fun d' henv => ⟨?_, trivial⟩
    have hnext : Removing _ d₃ (s₂.extend [] l) := (h₂.env hS henv₃).extend_spares
      (fun _ hw => by cases hw) fun _ hw => by cases hw
    exact (hnext.env hS henv).commit hS (by simpa using hmoved)
  · refine Prog.wp_commitTrx.2 fun d' henv => ⟨?_, trivial⟩
    subst hws
    have h₃ := h₂.env hS henv₃
    have hspares : ∀ w ∈ [Write.delete .expenses id], w.Spares .cashbookTransactions := fun w hw => by
      rw [List.mem_singleton.1 hw]
      simp [Write.Spares, Write.table?]
    have hnonneg : ∀ w ∈ [Write.delete .expenses id], w.Nonneg := fun w hw => by
      rw [List.mem_singleton.1 hw]
      exact ⟨(fun r hr => by rcases hr with hr | hr <;> cases hr), fun e he => by
        rcases he with he | he <;> cases he⟩
    have hdeleted := h₃.extend_spares (l := []) hspares hnonneg
    have howned : ∀ r ∈ (s₂.view d₃).owned (.expense id),
        r ∈ ((s₂.extend [.delete .expenses id] []).view d₃).rows .cashbookTransactions := by
      intro r hr
      rw [Session.view_extend, Database.rows, Database.table_applyAll hspares]
      exact (List.mem_filter.1 hr).1
    have hdisowned := hdeleted.update (l := l) (f := CashbookTransaction.disown) (fun _ => rfl) howned
    rw [extend_extend, List.nil_append] at hdisowned
    exact (hdisowned.env hS henv).commit hS (by simpa [Write.delta] using hmoved)

end Removals

/-! ### Calls -/

/-- The calls that remove ledger rows from view and move the balances by hand. -/
def ServiceCall.deletes : ServiceCall → Bool
  | ledger x => x.deletes.isSome
  | _ => false

/-- The amounts have passed the DTOs. -/
def ServiceCall.Validated : ServiceCall → Prop
  | ledger x => x.Validated
  | _ => True

/-- A call as the controllers let it through. -/
abbrev ValidCall := { x : ServiceCall // x.Validated }

def ValidCall.program (x : ValidCall) : Program Unit := x.1.program

theorem LedgerCall.preserves {S : Contract Database LockTarget Label} [S.Stable (W := Write)]
    (hS : JournalContract S) (x : LedgerCall) (hdeletes : x.deletes = none) :
    x.program.Preserves S Journaling := by
  cases x with
  | createIncomeTransaction =>
      exact .bind (preserves_createIncomeTransaction hS) fun _ => preserves_commitTrx hS
  | createExpense => exact .bind (preserves_createExpense hS) fun _ => Prog.preserves_pure
  | updateExpense => exact .bind (preserves_updateExpense hS) fun _ => Prog.preserves_pure
  | updateIncomeTransaction reversalId newId incomeId amount destination =>
      refine .bind (preserves_updateTransaction hS fun before date => .inr ⟨rfl, ?_⟩)
        fun _ => preserves_commitTrx hS
      cases destination
      · exact .inr rfl
      · exact .inl rfl
  | deleteExpense => cases hdeletes
  | deleteIncomeTransaction => cases hdeletes

theorem LedgerCall.removes {S : Contract Database LockTarget Label} [S.Stable (W := Write)]
    (hS : RemovalContract S) (x : LedgerCall) (hdeletes : x.deletes ≠ none) {d : Database}
    (hd : d.Ledgered) : x.program.wp S (fun _ _ _ => True) d .idle := by
  have hidle : Removing (fun _ => 0) d .idle :=
    ⟨hd, (fun _ hw => by cases hw), fun _ => rfl, fun _ => rfl⟩
  cases x with
  | deleteExpense => exact deleteExpense_removing hS hidle
  | deleteIncomeTransaction incomeId now =>
      rw [program, Prog.wp_bind', LumbungMesari.deleteIncomeTransaction]
      refine deleteTransaction_removing hS hidle fun d₂ s₂ moved hmoved h₂ => ?_
      exact Prog.wp_commitTrx.2 fun d' henv => ⟨(h₂.env hS henv).commit hS hmoved, trivial⟩
  | createIncomeTransaction => exact absurd rfl hdeletes
  | createExpense => exact absurd rfl hdeletes
  | updateExpense => exact absurd rfl hdeletes
  | updateIncomeTransaction => exact absurd rfl hdeletes

theorem ServiceCall.preserves {S : Contract Database LockTarget Label} [S.Stable (W := Write)]
    (hS : JournalContract S) (x : ServiceCall) (hdeletes : x.deletes = false) :
    x.program.Preserves S Journaling := by
  cases x with
  | auth compare env x =>
      exact .bind (preserves_within hS [.users, .principalSavings]
        (x.within_program (by simp) (by simp)) (by simp)) fun _ => Prog.preserves_pure
  | member userId x => exact x.preserves hS
  | loan x => exact x.preserves hS
  | ledger x =>
      refine x.preserves hS ?_
      rwa [deletes, Option.isSome_eq_false_iff, Option.isNone_iff_eq_none] at hdeletes
  | createYearlyMandatorySavingsForAllUsers =>
      exact preserves_within hS [.mandatorySavings]
        (within_createYearlyMandatorySavingsForAllUsers (by simp)) (by simp)
  | generateRemainingYearSavings =>
      exact .bind (preserves_within hS [.mandatorySavings]
        (within_generateRemainingYearSavings (by simp)) (by simp))
        fun _ => Prog.preserves_pure
  | settleMandatorySavings => exact preserves_settleMandatorySavings hS

/-! ### Runs -/

/-- What a commit does to the journal: it adds rows under the lock of the total balance, and the
rows account for what happens to the balances. A deletion adds none, and takes as much from the
total as from the buckets. -/
structure Journaled (deletes : Bool) (l : Locks) (d d' : Database) : Prop where
  ledgered : d'.Ledgered
  rows : ∃ rows : List CashbookTransaction,
    d'.journal = d.journal ++ rows.map CashbookTransaction.fixedColumns ∧
    (rows = [] ∨ (LockTarget.balance .total, LockMode.update) ∈ l) ∧
    if deletes then rows = [] else Leads CashbookTransaction.Moves d.balances rows d'.balances

def journalProtocol (categories : Table IncomeCategory IncomeCategory.id) :
    Protocol Database LockTarget Label ValidCall where
  inv d := Sound categories d ∧ d.Ledgered
  allows _ _ := True
  guar x l d d' := Sound categories d' ∧ Journaled x.1.deletes l d d'
  keeps _ h := ⟨h.1, h.2.ledgered⟩

section Runs

variable {categories : Table IncomeCategory IncomeCategory.id} {d d' d₀ : Database} {l : Locks}

/-- What every commit makes true or leaves true. -/
theorem journal_stable {p : Database → Prop} (h : (journalProtocol categories).Env l d d')
    (hstep : ∀ {b l d d'}, Sound categories d' → Journaled b l d d' → p d → p d') (hd : p d) : p d' :=
  h.stable (p := p) (fun hother hd => by
    obtain ⟨x, l', ws, -, -, -, -, hsound, hguar⟩ := hother
    exact hstep hsound hguar hd) hd

theorem journal_grows (h : (journalProtocol categories).Env l d d') :
    ∀ c ∈ d.journal, c ∈ d'.journal := fun c hc =>
  journal_stable (p := fun d' => c ∈ d'.journal) h (fun _ hguar hc => by
    obtain ⟨rows, hrows, -⟩ := hguar.rows
    rw [hrows]
    exact List.mem_append_left _ hc) hc

theorem journal_held (h : (journalProtocol categories).Env l d d')
    (hl : (LockTarget.balance .total, LockMode.update) ∈ l) : d'.journal = d.journal := by
  refine h.stable (p := fun d' => d'.journal = d.journal) (fun {d₁ d₂} hother hd₁ => ?_) rfl
  obtain ⟨x, l', ws, hfree, -, -, -, -, hguar⟩ := hother
  obtain ⟨rows, hrows, hlocked, -⟩ := hguar.rows
  rcases hlocked with rfl | hlocked
  · rw [hrows, List.map_nil, List.append_nil, hd₁]
  · have hexclusive := not_exclusive_of_not_blocked hfree hl rfl hlocked
    cases hexclusive

/-- The contracts of two halves of a guarantee, over the environment of the protocol. -/
abbrev journalContract (categories : Table IncomeCategory IncomeCategory.id)
    (guar : Locks → Database → Database → Prop) : Contract Database LockTarget Label :=
  ⟨(journalProtocol categories).Env, (journalProtocol categories).allows, guar⟩

instance (guar : Locks → Database → Database → Prop) :
    (journalContract categories guar).Stable (W := Write) where
  refl _ _ := Protocol.Env.refl
  trans := Protocol.Env.trans
  mono := Protocol.Env.mono
  agree := Protocol.Env.agree

theorem journalContract_spec :
    JournalContract (journalContract categories (Journaled false)) where
  sound {l d d'} henv hbalanced hnonneg :=
    journal_stable (p := fun d => d.Balanced ∧ d.RowsNonneg) henv
      (fun hsound hguar _ => ⟨⟨hsound.inRange, hguar.ledgered.total⟩, hguar.ledgered.nonneg⟩)
      ⟨hbalanced, hnonneg⟩
  held := journal_held
  commit {_ _ _ rows} hbalanced hnonneg hcarries hlocked :=
    ⟨⟨hbalanced.total, hnonneg⟩, rows, hcarries.journal, hlocked, by
      rw [if_neg (by simp)]
      exact hcarries.leads⟩

theorem removalContract_spec : RemovalContract (journalContract categories (Journaled true)) where
  sound {l d d'} henv hd :=
    journal_stable (p := Database.Ledgered) henv (fun _ hguar _ => hguar.ledgered) hd
  grows := journal_grows
  commit hd' hjournal := ⟨hd', [], by rw [hjournal, List.map_nil, List.append_nil], .inl rfl, rfl⟩

theorem ValidCall.wp (x : ValidCall) (hd : (journalProtocol categories).inv d) :
    x.program.wp ((journalProtocol categories).contract x) (fun _ _ _ => True) d .idle := by
  have hsound : x.program.wp (journalContract categories fun _ _ d' => Sound categories d')
      (fun _ _ _ => True) d .idle :=
    Prog.wp_mono (fun _ _ _ _ => trivial) (x.1.tame_program.wp (sessionInvariant
      (S := journalContract categories fun _ _ d' => Sound categories d')
      (fun henv hd => journal_stable henv (fun hsound _ _ => hsound) hd) id) hd.1.idle)
  have hjournal : x.program.wp (journalContract categories (Journaled x.1.deletes))
      (fun _ _ _ => True) d .idle := by
    cases hdeletes : x.1.deletes with
    | false =>
        exact Prog.wp_mono (fun _ _ _ _ => trivial)
          (x.1.preserves journalContract_spec hdeletes d .idle
            (.idle ⟨hd.1.inRange, hd.2.total⟩ hd.2.nonneg))
    | true =>
        obtain ⟨x, hx⟩ := x
        cases x with
        | ledger x =>
            refine x.removes removalContract_spec (fun hnone => ?_) hd.2
            rw [ServiceCall.deletes, hnone] at hdeletes
            cases hdeletes
        | auth | member | loan | createYearlyMandatorySavingsForAllUsers
        | generateRemainingYearSavings | settleMandatorySavings => cases hdeletes
  exact Prog.wp_of_parts And.intro hsound hjournal

/-- One entry of the history: a call that committed, with the rows its commit added. -/
def HistoryStep (entry : ValidCall × List CashbookTransaction) (before after : BalanceType → ℤ) :
    Prop :=
  if entry.1.1.deletes then entry.2 = [] ∧
    after .total - before .total = after .shu - before .shu + (after .capital - before .capital)
  else Leads CashbookTransaction.Moves before entry.2 after

theorem leads_rows {entries : List (ValidCall × List CashbookTransaction)} {a c : BalanceType → ℤ}
    (h : Leads HistoryStep a entries c) (hnone : ∀ x ∈ entries.map Prod.fst, x.1.deletes = false) :
    Leads CashbookTransaction.Moves a (entries.flatMap Prod.snd) c := by
  induction entries generalizing a with
  | nil => exact h
  | cons entry entries ih =>
      obtain ⟨b, hstep, hrest⟩ := h
      rw [HistoryStep, hnone entry.1 (List.mem_cons_self ..), if_neg (by simp)] at hstep
      exact hstep.append (ih hrest fun x hx => hnone x (List.mem_cons_of_mem _ hx))

/-- What a row says it left is what the next row says it found. -/
def CashbookTransaction.Precedes (r r' : CashbookTransaction) : Prop :=
  r.shuBalanceAfter.units = r'.shuBalanceBefore.units ∧
    r.capitalBalanceAfter.units = r'.capitalBalanceBefore.units ∧
      r.totalBalanceAfter.units = r'.totalBalanceBefore.units

/-- **The ledger is a journal.** However the calls of the services overlap, the new rows of the ledger
are those of the commits so far, in their order. The rows of a commit lead from the balances it found
to the ones it left; only deletions move balances without a row. While there has been none, each row
starts from what the one before it left, and every balance is what it was plus all the rows. -/
theorem ledger_journal (h₀ : d₀.InRange) (hledgered : d₀.Ledgered)
    {s : Sys Database Write LockTarget Label Error ValidCall}
    (hreach : Sys.Reach ValidCall.program (Sys.start d₀) s) :
    ∃ entries : List (ValidCall × List CashbookTransaction),
      entries.map Prod.fst = s.history ∧
      s.committed.journal = d₀.journal ++
        (entries.flatMap Prod.snd).map CashbookTransaction.fixedColumns ∧
      Leads HistoryStep d₀.balances entries s.committed.balances ∧
      ((∀ x ∈ s.history, x.1.deletes = false) →
        (∀ before r r' after, entries.flatMap Prod.snd = before ++ r :: r' :: after →
          r.Precedes r') ∧
        ∀ b, s.committed.balances b = d₀.balances b +
          ((entries.flatMap Prod.snd).map (CashbookTransaction.signed b)).sum) := by
  have hstart : (journalProtocol (d₀.table .incomeCategories)).inv d₀ := ⟨⟨h₀, rfl⟩, hledgered⟩
  obtain ⟨entries, hcalls, hrows, hleads⟩ := Protocol.history_inv
    (P := journalProtocol (d₀.table .incomeCategories))
    (J := fun history d => ∃ entries : List (ValidCall × List CashbookTransaction),
      entries.map Prod.fst = history ∧
      d.journal = d₀.journal ++ (entries.flatMap Prod.snd).map CashbookTransaction.fixedColumns ∧
      Leads HistoryStep d₀.balances entries d.balances)
    (fun x _ hd => x.wp hd) (fun {history x l d d'} hinv hentries hguar => by
      obtain ⟨entries, hcalls, hrows, hleads⟩ := hentries
      obtain ⟨rows, hadded, -, hstep⟩ := hguar.2.rows
      refine ⟨entries ++ [(x, rows)], by rw [List.map_append, hcalls]; rfl, ?_, hleads.snoc ?_⟩
      · rw [hadded, hrows, List.flatMap_append, List.map_append, List.flatMap_singleton,
          List.append_assoc]
      · rw [HistoryStep]
        split at hstep
        · rename_i hdeletes
          rw [if_pos hdeletes, hguar.2.ledgered.total, hinv.2.total]
          exact ⟨hstep, by ring⟩
        · rename_i hdeletes
          rw [if_neg hdeletes]
          exact hstep)
    (Protocol.good_start hstart) ⟨[], rfl, by simp [Sys.start], rfl⟩ hreach
  refine ⟨entries, hcalls, hrows, hleads, fun hnone => ?_⟩
  have hmoves := leads_rows hleads (hcalls ▸ hnone)
  refine ⟨fun before r r' after hsplit => ?_, fun b => ?_⟩
  · rw [hsplit] at hmoves
    obtain ⟨_, between, _, hr, hr'⟩ := hmoves.meet
    exact ⟨hr.shuAfter.trans hr'.shuBefore.symm, hr.capitalAfter.trans hr'.capitalBefore.symm,
      hr.totalAfter.trans hr'.totalBefore.symm⟩
  · exact Leads.sum (f := fun balances => balances b) (fun hr => hr.moved b) hmoves

/-- **The total is the two buckets.** However the calls overlap, deletions included: in every state
reached the three balances are in range, the total is the sum of the buckets, and no ledger row and
no expense has a negative part. -/
theorem balances_add_up (h₀ : d₀.InRange) (hledgered : d₀.Ledgered)
    {s : Sys Database Write LockTarget Label Error ValidCall}
    (hreach : Sys.Reach ValidCall.program (Sys.start d₀) s) :
    (∀ b, 0 ≤ s.committed.balances b ∧ s.committed.balances b < 10 ^ 12) ∧
    s.committed.balances .total = s.committed.balances .shu + s.committed.balances .capital ∧
    (∀ r ∈ s.committed.rows .cashbookTransactions,
      0 ≤ r.shuAmount.units ∧ 0 ≤ r.capitalAmount.units) ∧
    ∀ e ∈ s.committed.rows .expenses, 0 ≤ e.shuAmount.units ∧ 0 ≤ e.capitalAmount.units := by
  have hstart : (journalProtocol (d₀.table .incomeCategories)).inv d₀ := ⟨⟨h₀, rfl⟩, hledgered⟩
  obtain ⟨hsound, htotal, hnonneg⟩ := (Protocol.sound (fun x _ hd => ValidCall.wp x hd)
    (Protocol.good_start hstart) hreach).inv
  refine ⟨hsound.inRange, htotal, fun r hr => ?_, fun e he => ?_⟩
  · exact ⟨(hnonneg.ledger r hr).shu, (hnonneg.ledger r hr).capital⟩
  · have hparts := hnonneg.expenses e he
    exact ⟨Numeric.toRat_nonneg.1 hparts.1, Numeric.toRat_nonneg.1 hparts.2⟩

/-- A donation is posted while an expense is on its way. -/
def overlappingCalls : List (Event Error ValidCall) :=
  let today : Date := ⟨2026, 5, 1⟩
  [.call ⟨.ledger (.createIncomeTransaction 1 1 1 .capital none today), trivial⟩,
    .call ⟨.ledger (.createExpense ⟨1, 4, 5⟩ ⟨1, "Listrik", 2, none, none, none, none⟩ 1 today),
      ⟨20000, by norm_num⟩⟩,
    .run 0, .run 1, .run 0, .run 0, .run 1, .run 1, .run 1, .run 1, .run 1]

theorem ledgered_withDonation : withDonation.Ledgered :=
  ⟨by decide +kernel, (fun r hr => by cases hr), fun e he => by cases he⟩

theorem ledger_journal_overlappingCalls :
    ∃ s : Sys Database Write LockTarget Label Error ValidCall,
      Sys.Reach ValidCall.program (Sys.start withDonation) s ∧
      (s.committed.rows .cashbookTransactions).length = 2 ∧
      ∃ entries : List (ValidCall × List CashbookTransaction),
        entries.map Prod.fst = s.history ∧
        Leads HistoryStep withDonation.balances entries s.committed.balances := by
  have hexec : ((Sys.start withDonation).exec ValidCall.program (fun _ _ => true)
      overlappingCalls).any (fun s => (s.committed.rows .cashbookTransactions).length = 2) = true := by
    decide +kernel
  obtain ⟨s, hs, h⟩ := Option.any_eq_true .. |>.1 hexec
  obtain ⟨entries, hcalls, -, hleads, -⟩ := ledger_journal migrated_withDonation.ledgerInvariant.inRange
    ledgered_withDonation (Sys.reach_of_exec hs)
  exact ⟨s, Sys.reach_of_exec hs, by simpa using h, entries, hcalls, hleads⟩

theorem balances_add_up_overlappingCalls :
    ∃ s : Sys Database Write LockTarget Label Error ValidCall,
      Sys.Reach ValidCall.program (Sys.start withDonation) s ∧
      s.committed.balances .capital = 5000000 * 10 ^ 4 + 10000 - 20000 ∧
      s.committed.balances .total = s.committed.balances .shu + s.committed.balances .capital := by
  have hexec : ((Sys.start withDonation).exec ValidCall.program (fun _ _ => true)
      overlappingCalls).any (fun s => s.committed.balances .capital = 5000000 * 10 ^ 4 + 10000 - 20000) =
      true := by
    decide +kernel
  obtain ⟨s, hs, h⟩ := Option.any_eq_true .. |>.1 hexec
  exact ⟨s, Sys.reach_of_exec hs, by simpa using h, (balances_add_up
    migrated_withDonation.ledgerInvariant.inRange ledgered_withDonation (Sys.reach_of_exec hs)).2.1⟩

end Runs

end LumbungMesari
