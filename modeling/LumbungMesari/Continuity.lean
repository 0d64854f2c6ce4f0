import LumbungMesari.Snapshots
import LumbungMesari.WrittenTables
import LumbungMesari.Sql.Journal
import LumbungMesari.Sql.Preserves

/-!
# The ledger as a journal

A ledger row says which balances it found and which it left. A session that posts holds the three
balances from before it reads them until it commits, so nobody posts between its rows and what they
say. The sessions that post nothing leave the ledger and the balances alone.
-/

namespace LumbungMesari

open Sql
open Prog (inTrx onPool commitTrx)

/-! ### Entries -/

/-- A row took the balances it calls the balances before it to the ones after it, by its amounts. -/
structure CashbookTransaction.Moves (r : CashbookTransaction) (before after : BalanceType → ℤ) : Prop
    extends r.Records before after where
  moved : ∀ b, after b = before b + r.signed b

/-- What the ledger rows say, in the order of their commits. -/
def Database.journal (d : Database) :=
  (d.rows .cashbookTransactions).map CashbookTransaction.fixedColumns

theorem id_of_fixedColumns {r r' : CashbookTransaction} (h : r.fixedColumns = r'.fixedColumns) :
    Row.id .cashbookTransactions r = Row.id .cashbookTransactions r' := congrArg Prod.fst h

section Journal

variable {d d' d'' : Database} {ws : List Write}

theorem journal_spares (h : ∀ w ∈ ws, w.Spares .cashbookTransactions) :
    (applyAll d ws).journal = d.journal := by
  rw [Database.journal, Database.rows, Database.table_applyAll h]
  rfl

theorem journal_apply_congr (h : d.journal = d'.journal) (w : Write) :
    (d.apply w).journal = (d'.apply w).journal := by
  by_cases hw : w.table? = some .cashbookTransactions
  · cases w with
    | addBalance => cases hw
    | insert t r =>
        cases hw
        simp only [Database.journal, Database.rows, Database.table_insert_self]
        exact Table.view_insert id_of_fixedColumns h r
    | update t r =>
        cases hw
        simp only [Database.journal, Database.rows, Database.table_update_self]
        exact Table.view_replace_congr id_of_fixedColumns h r
    | delete t id =>
        cases hw
        simp only [Database.journal, Database.rows, Database.table_delete_self]
        exact Table.view_erase id_of_fixedColumns h id
  · rw [Database.journal, Database.journal, Database.rows, Database.rows, Database.table_apply hw,
      Database.table_apply hw]
    exact h

theorem journal_applyAll_congr (h : d.journal = d'.journal) (ws : List Write) :
    (applyAll d ws).journal = (applyAll d' ws).journal := by
  induction ws generalizing d d' with
  | nil => exact h
  | cons w ws ih => exact ih (journal_apply_congr h w)

/-- New versions of rows that say what the rows say. -/
theorem journal_updates {rs : List CashbookTransaction}
    (h : ∀ r ∈ rs, r.fixedColumns ∈ d.journal) :
    (applyAll d (rs.map (Write.update .cashbookTransactions))).journal = d.journal := by
  induction rs generalizing d with
  | nil => rfl
  | cons r rs ih =>
      have hsame : (d.apply (.update .cashbookTransactions r)).journal = d.journal := by
        simp only [Database.journal, Database.rows, Database.table_update_self]
        exact Table.view_replace id_of_fixedColumns (h r (List.mem_cons_self ..))
      rw [List.map_cons, applyAll_cons, Database.store_apply,
        ih fun r' hr' => hsame ▸ h r' (List.mem_cons_of_mem _ hr'), hsame]

theorem journal_postings {r : CashbookTransaction} (h : d.find .cashbookTransactions r.id = none) :
    (applyAll d r.postings).journal = d.journal ++ [r.fixedColumns] := by
  rw [Database.journal, CashbookTransaction.rows_postings d h, List.map_append]
  rfl

/-- New ledger rows lead from the balances of one state to those of another. -/
structure Carries (d d' : Database) (rows : List CashbookTransaction) : Prop where
  journal : d'.journal = d.journal ++ rows.map CashbookTransaction.fixedColumns
  leads : Leads CashbookTransaction.Moves d.balances rows d'.balances

theorem Carries.same (hjournal : d'.journal = d.journal) (hbalances : d'.balances = d.balances) :
    Carries d d' [] :=
  ⟨by rw [hjournal, List.map_nil, List.append_nil], hbalances.symm⟩

theorem Carries.congr {e e' : Database} {rows : List CashbookTransaction} (h : Carries d d' rows)
    (hbalances : e.balances = d.balances) (hjournal : e.journal = d.journal)
    (hbalances' : e'.balances = d'.balances) (hjournal' : e'.journal = d'.journal) :
    Carries e e' rows :=
  ⟨by rw [hjournal', hjournal, h.journal], by rw [hbalances, hbalances']; exact h.leads⟩

theorem Carries.post {rows : List CashbookTransaction} {r : CashbookTransaction}
    {data : CashbookTransactionData} {id : Uuid} (h : Carries d d' rows) (hr : data.Stored id r)
    (hexact : data.Exact) (hsnapshot : data.Snapshot d'.current) (hd' : d'.InRange)
    (hposted : Posted d' r) : Carries d (applyAll d' r.postings) (rows ++ [r]) where
  journal := by
    rw [journal_postings hposted.fresh, h.journal, List.map_append, List.append_assoc]
    rfl
  leads := h.leads.snoc ⟨hr.records hexact hsnapshot hd',
    CashbookTransaction.balances_postings d' (hr.nonneg_of_exact hexact)⟩

end Journal

/-! ### Amounts that are not negative -/

/-- No ledger row and no expense has a negative part. -/
structure Database.RowsNonneg (d : Database) : Prop where
  ledger : ∀ r ∈ d.rows .cashbookTransactions, CashbookTransaction.Nonneg r
  expenses : ∀ e ∈ d.rows .expenses, (Expense.allocation e).Nonneg

/-- A write that brings no negative part. -/
structure Write.Nonneg (w : Write) : Prop where
  ledger : ∀ r, w = .insert .cashbookTransactions r ∨ w = .update .cashbookTransactions r →
    CashbookTransaction.Nonneg r
  expense : ∀ e, w = .insert .expenses e ∨ w = .update .expenses e →
    (Expense.allocation e).Nonneg

section Nonneg

variable {d : Database} {w : Write} {ws : List Write}

theorem mem_rows_apply {t : TableName} {r : Row t} (h : r ∈ (d.apply w).rows t) :
    r ∈ d.rows t ∨ w = .insert t r ∨ w = .update t r := by
  by_cases hw : w.table? = some t
  · cases w with
    | addBalance => cases hw
    | insert t' r' =>
        cases hw
        rw [Database.rows, Database.table_insert_self] at h
        by_cases hfresh : (d.table t).find? (Row.id t r') = none
        · rw [Table.rows_insert hfresh] at h
          rcases List.mem_append.1 h with h | h
          · exact .inl h
          · rw [List.mem_singleton.1 h]
            exact .inr (.inl rfl)
        · rw [Table.insert_of_mem (not_not.1 fun hmem => hfresh (Table.find?_eq_none.2 hmem))] at h
          exact .inl h
    | update t' r' =>
        cases hw
        rw [Database.rows, Database.table_update_self] at h
        rcases Table.mem_rows_replace h with h | h
        · rw [h]
          exact .inr (.inr rfl)
        · exact .inl h.1
    | delete t' id =>
        cases hw
        rw [Database.rows, Database.table_delete_self] at h
        exact .inl (Table.mem_rows_erase.1 h).1
  · rw [Database.rows, Database.table_apply hw] at h
    exact .inl h

theorem Database.RowsNonneg.apply (h : d.RowsNonneg) (hw : w.Nonneg) : (d.apply w).RowsNonneg where
  ledger r hr := (mem_rows_apply hr).elim (h.ledger r) (hw.ledger r)
  expenses e he := (mem_rows_apply he).elim (h.expenses e) (hw.expense e)

theorem Database.RowsNonneg.applyAll (h : d.RowsNonneg) (hws : ∀ w ∈ ws, w.Nonneg) :
    (Sql.applyAll d ws).RowsNonneg :=
  applyAll_invariant (fun hd hw => hd.apply hw) h hws

theorem Write.Spares.nonneg (hledger : w.Spares .cashbookTransactions)
    (hexpenses : w.Spares .expenses) : w.Nonneg where
  ledger r hr := by
    rcases hr with rfl | rfl <;> exact absurd rfl hledger
  expense e he := by
    rcases he with rfl | rfl <;> exact absurd rfl hexpenses

theorem nonneg_postings {r : CashbookTransaction} (hr : r.Nonneg) : ∀ w ∈ r.postings, w.Nonneg := by
  intro w hw
  rcases List.mem_cons.1 hw with rfl | hw
  · refine ⟨fun r' hr' => ?_, fun e he => ?_⟩
    · rcases hr' with hr' | hr' <;> cases hr'
      exact hr
    · rcases he with he | he <;> cases he
  · exact (spares_moves hw).nonneg (spares_moves hw)

theorem nonneg_updates {rs : List CashbookTransaction} (h : ∀ r ∈ rs, r.Nonneg) :
    ∀ w ∈ rs.map (Write.update .cashbookTransactions), w.Nonneg := by
  intro w hw
  obtain ⟨r, hr, rfl⟩ := List.mem_map.1 hw
  refine ⟨fun r' hr' => ?_, fun e he => ?_⟩
  · rcases hr' with hr' | hr' <;> cases hr'
    exact h r hr
  · rcases he with he | he <;> cases he

end Nonneg

/-! ### Sessions -/

/-- A write that has nothing to do with the ledger or the balances. -/
structure Write.Quiet (w : Write) : Prop extends w.Nonneg where
  spares : w.Spares .cashbookTransactions
  still : w.Still

/-- A session that holds the balances, and whose rows lead from the committed state to what it
sees. -/
structure Holding (d : Database) (s : Trx) : Prop where
  locked : ∀ b, (LockTarget.balance b, LockMode.update) ∈ s.locks
  balanced : (s.view d).Balanced
  rows : ∃ rows, Carries d (s.view d) rows

/-- What holds of every session over the committed state: it has not touched the ledger or the
balances, or it holds the balances. -/
structure Journaling (d : Database) (s : Trx) : Prop where
  balanced : d.Balanced
  nonneg : d.RowsNonneg
  log : ∀ w ∈ s.log, w.Nonneg
  phase : (∀ w ∈ s.log, w.Quiet) ∨ Holding d s

section Sessions

variable {d d' : Database} {s : Trx} {ws : List Write} {l : Locks}

theorem balances_of_quiet (h : ∀ w ∈ ws, w.Quiet) : (applyAll d ws).balances = d.balances :=
  funext (balances_of_still fun w hw => (h w hw).still)

theorem balances_updates (d : Database) (t : TableName) (rs : List (Row t)) :
    (applyAll d (rs.map (Write.update t))).balances = d.balances := by
  funext b
  rw [Database.balances_applyAll, delta_updates, add_zero]

theorem journal_of_quiet (h : ∀ w ∈ ws, w.Quiet) : (applyAll d ws).journal = d.journal :=
  journal_spares fun w hw => (h w hw).spares

/-- What a session sees of the balances and of the ledger depends on nothing else. -/
theorem view_congr (hbalances : d'.balances = d.balances) (hjournal : d'.journal = d.journal) :
    (s.view d').balances = (s.view d).balances ∧ (s.view d').journal = (s.view d).journal := by
  refine ⟨funext fun b => ?_, journal_applyAll_congr hjournal s.log⟩
  rw [view_balances, view_balances, hbalances]

theorem Holding.congr (h : Holding d s) (hbalances : d'.balances = d.balances)
    (hjournal : d'.journal = d.journal) : Holding d' s := by
  obtain ⟨hviewBalances, hviewJournal⟩ := view_congr (s := s) hbalances hjournal
  obtain ⟨rows, hrows⟩ := h.rows
  exact ⟨h.locked, h.balanced.congr hviewBalances,
    rows, hrows.congr hbalances hjournal hviewBalances hviewJournal⟩

namespace Journaling

theorem idle (hbalanced : d.Balanced) (hnonneg : d.RowsNonneg) : Journaling d .idle :=
  ⟨hbalanced, hnonneg, (fun _ hw => by cases hw), .inl fun _ hw => by cases hw⟩

theorem view_balanced (h : Journaling d s) : (s.view d).Balanced := by
  rcases h.phase with hquiet | hholding
  · exact h.balanced.congr (balances_of_quiet hquiet)
  · exact hholding.balanced

theorem view_nonneg (h : Journaling d s) : (s.view d).RowsNonneg := h.nonneg.applyAll h.log

theorem rows (h : Journaling d s) : ∃ rows, Carries d (s.view d) rows ∧
    (rows = [] ∨ (LockTarget.balance .total, LockMode.update) ∈ s.locks) := by
  rcases h.phase with hquiet | hholding
  · exact ⟨[], .same (journal_of_quiet hquiet) (balances_of_quiet hquiet), .inl rfl⟩
  · obtain ⟨rows, hrows⟩ := hholding.rows
    exact ⟨rows, hrows, .inr (hholding.locked .total)⟩

theorem extend_quiet (h : Journaling d s) (hws : ∀ w ∈ ws, w.Quiet) : Journaling d (s.extend ws l) where
  balanced := h.balanced
  nonneg := h.nonneg
  log w hw := (List.mem_append.1 hw).elim (h.log w) fun hw => (hws w hw).toNonneg
  phase := by
    rcases h.phase with hquiet | hholding
    · exact .inl fun w hw => (List.mem_append.1 hw).elim (hquiet w) (hws w)
    · obtain ⟨rows, hrows⟩ := hholding.rows
      refine .inr ⟨fun b => List.mem_append_left _ (hholding.locked b), ?_, rows, ?_⟩
      · rw [Session.view_extend]
        exact hholding.balanced.congr (balances_of_quiet hws)
      · rw [Session.view_extend]
        exact hrows.congr rfl rfl (balances_of_quiet hws) (journal_of_quiet hws)

theorem extend_locks (h : Journaling d s) : Journaling d (s.extend [] l) :=
  h.extend_quiet fun _ hw => by cases hw

/-- From the lock of the balances on, the session holds them. -/
theorem hold (h : Journaling d s) (hl : ∀ b, (LockTarget.balance b, LockMode.update) ∈ l) :
    Holding d (s.extend [] l) := by
  have hview := Session.view_extend_nil s l d
  obtain ⟨rows, hrows, -⟩ := h.rows
  exact ⟨fun b => List.mem_append_right _ (hl b), hview ▸ h.view_balanced, rows, hview ▸ hrows⟩

theorem hide (h : Journaling d s) (hheld : Holding d s) {rs : List CashbookTransaction}
    (hrs : ∀ r ∈ rs, r.fixedColumns ∈ (s.view d).journal) (hnonneg : ∀ r ∈ rs, r.Nonneg) :
    Journaling d (s.extend (rs.map (Write.update .cashbookTransactions)) l) ∧
      Holding d (s.extend (rs.map (Write.update .cashbookTransactions)) l) := by
  have hbalances := balances_updates (s.view d) .cashbookTransactions rs
  obtain ⟨rows, hrows⟩ := hheld.rows
  have hholding : Holding d (s.extend (rs.map (Write.update .cashbookTransactions)) l) := by
    refine ⟨fun b => List.mem_append_left _ (hheld.locked b), ?_, rows, ?_⟩
    · rw [Session.view_extend]
      exact hheld.balanced.congr hbalances
    · rw [Session.view_extend]
      exact hrows.congr rfl rfl hbalances (journal_updates hrs)
  exact ⟨⟨h.balanced, h.nonneg, fun w hw => (List.mem_append.1 hw).elim (h.log w)
    (nonneg_updates hnonneg w), .inr hholding⟩, hholding⟩

/-- A session that holds the balances posts a row that records them. -/
theorem post (h : Journaling d s) (hheld : Holding d s) {data : CashbookTransactionData} {id : Uuid}
    {r : CashbookTransaction} (hr : data.Stored id r) (hexact : data.Exact)
    (hsnapshot : data.Snapshot (s.view d).current) (hposted : Posted (s.view d) r) :
    Journaling d (s.extend r.postings l) ∧ Holding d (s.extend r.postings l) := by
  have hnonneg := hr.nonneg_of_exact hexact
  obtain ⟨rows, hrows⟩ := hheld.rows
  have hholding : Holding d (s.extend r.postings l) := by
    refine ⟨fun b => List.mem_append_left _ (hheld.locked b), ?_, rows ++ [r], ?_⟩
    · rw [Session.view_extend]
      exact balanced_postings hnonneg hposted hheld.balanced
    · rw [Session.view_extend]
      exact hrows.post hr hexact hsnapshot hheld.balanced.inRange hposted
  exact ⟨⟨h.balanced, h.nonneg, fun w hw => (List.mem_append.1 hw).elim (h.log w)
    (nonneg_postings hnonneg w), .inr hholding⟩, hholding⟩

end Journaling

end Sessions

/-! ### Statements -/

/-- What a contract has to know of the journal: other calls leave the committed state sound and post
nothing while the session holds the total balance, and a sound commit may be made that posts under
that lock or not at all. -/
structure JournalContract (S : Contract Database LockTarget Label) : Prop where
  sound : ∀ {l d d'}, S.env l d d' → d.Balanced → d.RowsNonneg → d'.Balanced ∧ d'.RowsNonneg
  held : ∀ {l d d'}, S.env l d d' → (LockTarget.balance .total, LockMode.update) ∈ l →
    d'.journal = d.journal
  commit : ∀ {l d d' rows}, d'.Balanced → d'.RowsNonneg → Carries d d' rows →
    (rows = [] ∨ (LockTarget.balance .total, LockMode.update) ∈ l) → S.guar l d d'

section Statements

variable {S : Contract Database LockTarget Label} [S.Stable (W := Write)] {d d' : Database} {s : Trx}
  {now : Date}

theorem Holding.env (hS : JournalContract S) (h : Holding d s) (henv : S.env s.locks d d') :
    Holding d' s := by
  refine h.congr (funext fun b => ?_) (hS.held henv (h.locked .total))
  exact (Database.agree_balance (Contract.Stable.agree henv (h.locked b) rfl)).symm

theorem Journaling.env (hS : JournalContract S) (h : Journaling d s) (henv : S.env s.locks d d') :
    Journaling d' s := by
  obtain ⟨hbalanced, hnonneg⟩ := hS.sound henv h.balanced h.nonneg
  exact ⟨hbalanced, hnonneg, h.log, h.phase.imp_right (Holding.env hS · henv)⟩

theorem sessionInvariant_quiet (hS : JournalContract S) :
    Prog.SessionInvariant S (fun _ (st : Statement _) => st.Writes Write.Quiet)
      (fun _ (st : Statement _) => st.Writes Write.Quiet) Journaling where
  env henv h := h.env hS henv
  auto {β d s ws b st} hst h hexec := by
    have hws := hst d ws b hexec
    have hbalances := balances_of_quiet (d := d) hws
    have hjournal := journal_of_quiet (d := d) hws
    have hbalanced := h.balanced.congr hbalances
    have hnonneg := h.nonneg.applyAll fun w hw => (hws w hw).toNonneg
    exact ⟨hS.commit hbalanced hnonneg (.same hjournal hbalances) (.inl rfl), hbalanced, hnonneg, h.log,
      h.phase.imp_right (Holding.congr · hbalances hjournal)⟩
  stmt {β d s ws b st} hst h hexec := h.extend_quiet (hst _ ws b hexec)
  commit {d s} h := by
    obtain ⟨rows, hrows, hlocked⟩ := h.rows
    exact ⟨hS.commit h.view_balanced h.view_nonneg hrows hlocked, .idle h.view_balanced h.view_nonneg⟩

theorem preserves_within (hS : JournalContract S) (tables : List TableName) {α : Type} {p : Program α}
    (hp : WritesTables tables p) (htables : .cashbookTransactions ∉ tables ∧ .expenses ∉ tables) :
    p.Preserves S Journaling :=
  Prog.Each.preserves (sessionInvariant_quiet hS) (Prog.Writes.each (hp.mono fun _ hw =>
    ⟨(hw.spares htables.1).nonneg (hw.spares htables.2), hw.spares htables.1, hw.still⟩))

theorem preserves_reads (hS : JournalContract S) {α : Type} {p : Program α} (hp : WritesTables [] p) :
    p.Preserves S Journaling := preserves_within hS [] hp (by simp)

theorem preserves_commitTrx (hS : JournalContract S) :
    (commitTrx : Program Unit).Preserves S Journaling :=
  Prog.Each.preserves (sessionInvariant_quiet hS) Prog.each_commitTrx

/-! ### Postings -/

theorem createTransaction_holding (hS : JournalContract S) {id : Uuid}
    {data : CashbookTransactionData} (h : Journaling d s) (hheld : Holding d s) (hexact : data.Exact)
    (hsnapshot : data.Snapshot (s.view d).current)
    {Q : CashbookTransaction → Database → Trx → Prop}
    (hQ : ∀ d' r l, S.env s.locks d d' → data.Stored id r → Posted (s.view d') r →
      Journaling d' (s.extend r.postings l) → Holding d' (s.extend r.postings l) →
      Q r d' (s.extend r.postings l)) :
    (createTransaction id data).wp S Q d s := by
  refine createTransaction_wp fun d' r l henv hr hposted _ => ?_
  rw [current_eq henv hheld.locked] at hsnapshot
  obtain ⟨hnext, hheld⟩ := (h.env hS henv).post (hheld.env hS henv) (l := l) hr hexact hsnapshot hposted
  exact hQ d' r l henv hr hposted hnext hheld

/-- The balances are locked and read, and a row is inserted that records them. -/
theorem preserves_lock_createTransaction (hS : JournalContract S) {id : Uuid}
    {data : Balances → CashbookTransactionData} (hexact : ∀ before, (data before).Exact)
    (hsnapshot : ∀ before, (data before).Snapshot before) :
    (do let before ← lockAllForUpdate; createTransaction id (data before) :
      Program CashbookTransaction).Preserves S Journaling := by
  intro d s h
  rw [Prog.wp_bind']
  refine lockAllForUpdate_wp fun d₁ l₁ henv₁ hl₁ => ?_
  have h₁ := h.env hS henv₁
  refine createTransaction_holding hS h₁.extend_locks (h₁.hold hl₁)
    (hexact _) ?_ fun d' r l _ _ _ hnext _ => hnext
  rw [Session.view_extend_nil]
  exact hsnapshot _

theorem preserves_createIncomeTransaction (hS : JournalContract S) {id incomeId : Uuid} {amount : ℚ}
    {destination : IncomeDestination} {txnDate : Option Date} :
    (createIncomeTransaction id incomeId amount destination txnDate now).Preserves S Journaling :=
  preserves_lock_createTransaction hS (fun _ => incomeEntry_exact ..) fun _ => incomeEntry_snapshot ..

theorem preserves_createExpenseTransaction (hS : JournalContract S) {id expenseId : Uuid}
    {a : Allocation} {txnDate : Option Date} (ha : a.Nonneg) (hdecimal : a.Decimal) :
    (createExpenseTransaction id expenseId a.shuAmount a.capitalAmount txnDate now).Preserves S
      Journaling :=
  preserves_lock_createTransaction hS (fun _ => .inl ⟨ha.1, ha.2, hdecimal.1, hdecimal.2⟩)
    fun before => expenseEntry_snapshot _ _ before _ _

theorem softDelete_holding (hS : JournalContract S) {p : CashbookTransaction → Bool}
    (h : Journaling d s) (hheld : Holding d s) {Q : Unit → Database → Trx → Prop}
    (hQ : ∀ d' s', (s'.view d').current = (s.view d).current → Journaling d' s' → Holding d' s' →
      Q () d' s') :
    (inTrx (updateWhere .cashbookTransactions p (CashbookTransaction.softDelete now))).wp S Q d s := by
  refine updateWhere_softDelete_wp fun d' rs l henv hrs _ => ?_
  have h' := h.env hS henv
  have hrows : ∀ r ∈ rs.map (CashbookTransaction.softDelete now),
      ∃ r' ∈ (s.view d').rows .cashbookTransactions, r'.softDelete now = r := by
    intro r hr
    obtain ⟨r', hr', rfl⟩ := List.mem_map.1 hr
    exact ⟨r', (List.mem_filter.1 (hrs ▸ hr')).1, rfl⟩
  have hcolumns : ∀ r ∈ rs.map (CashbookTransaction.softDelete now),
      r.fixedColumns ∈ (s.view d').journal := by
    intro r hr
    obtain ⟨r', hr', rfl⟩ := hrows r hr
    exact List.mem_map.2 ⟨r', hr', rfl⟩
  have hnonneg : ∀ r ∈ rs.map (CashbookTransaction.softDelete now), r.Nonneg := by
    intro r hr
    obtain ⟨r', hr', rfl⟩ := hrows r hr
    exact ⟨(h'.view_nonneg.ledger r' hr').shu, (h'.view_nonneg.ledger r' hr').capital⟩
  obtain ⟨hnext, hheld'⟩ := h'.hide (hheld.env hS henv) (l := l) hcolumns hnonneg
  refine hQ _ _ ?_ hnext hheld'
  rw [current_eq henv hheld.locked, Session.view_extend]
  simp only [Database.current, Database.balance]
  rw [balances_updates]

/-- A correction reverses and posts again under one lock of the balances, whichever version of the
entry it has read. -/
theorem preserves_updateTransaction (hS : JournalContract S) {reversalId newId : Uuid} {o : Owner}
    {notFound : Error} {newShuAmount newCapitalAmount : ℚ} {txnDate : Option Date}
    (hexact : ∀ before date, (correctedEntry o newShuAmount newCapitalAmount before date).Exact) :
    (updateTransaction reversalId newId o notFound newShuAmount newCapitalAmount txnDate
      now).Preserves S Journaling := by
  intro d s h
  unfold updateTransaction findLatestActive
  rw [Prog.wp_bind']
  refine wp_select fun d₁ henv₁ => ?_
  have h₁ := h.env hS henv₁
  split
  · trivial
  rename_i original hfind
  have horiginal : original.Nonneg :=
    h₁.view_nonneg.ledger original (List.mem_reverse.1 (List.mem_of_find?_eq_some hfind))
  rw [Prog.wp_bind']
  refine lockAllForUpdate_wp fun d₂ l₂ henv₂ hl₂ => ?_
  have h₂ := h₁.env hS henv₂
  rw [← Session.view_extend_nil s l₂ d₂, Prog.wp_bind', softDeleteById]
  refine softDelete_holding hS h₂.extend_locks (h₂.hold hl₂) fun d₃ s₃ hcurrent₃ h₃ hheld₃ => ?_
  rw [← hcurrent₃, Prog.wp_bind']
  refine createTransaction_holding hS h₃ hheld₃ (reversalEntry_exact _ o horiginal)
    (reversalEntry_snapshot _ o original) fun d₄ reversal l₄ henv₄ hreversal _ h₄ hheld₄ => ?_
  -- the balances after the reversal are the ones the service goes on with
  rw [current_eq henv₄ hheld₃.locked] at hreversal ⊢
  have hnext := current_postings_reversal horiginal hreversal
  rw [← Session.view_extend s₃ _ l₄] at hnext
  rw [Prog.wp_bind']
  refine createTransaction_holding hS h₄ hheld₄ (hexact _ _) ?_ fun d' r l _ _ _ hdone _ => hdone
  rw [hnext]
  exact correctedEntry_snapshot ..

end Statements

end LumbungMesari
