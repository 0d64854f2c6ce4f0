import LumbungMesari.LedgerRuns

/-!
# The history of the ledger

No operation removes a ledger row or changes what it says. A correction hides an entry and adds its
reversal and a new entry; a deletion hides what is left.
-/

namespace LumbungMesari

open Sql

/-! ### The ledger invariant without a start -/

/-- The ledger invariant over some start. Unlike the balances, the rows do not suffer when the rows
of an income are removed a second time. -/
def LedgerSound (d : Database) : Prop :=
  ∃ (initial : BalanceType → ℤ) (removed : Uuid → Prop),
    initial .total = initial .shu + initial .capital ∧
      LedgerInvariant Expense.Agrees initial removed d

theorem LedgerSound.total {d : Database} (h : LedgerSound d) :
    d.balances .total = d.balances .shu + d.balances .capital := by
  obtain ⟨_, _, htotal, h⟩ := h
  exact h.books.total htotal

theorem LedgerSound.step {d d' : Database} {x : LedgerCall} (h : LedgerSound d)
    (hstep : LedgerStep d x d') : LedgerSound d' := by
  obtain ⟨initial, removed, htotal, h⟩ := h
  by_cases hx : ∃ incomeId now, x = .deleteIncomeTransaction incomeId now
  · obtain ⟨incomeId, now, rfl⟩ := hx
    cases hstep with
    | nothing => exact ⟨initial, removed, htotal, h⟩
    | deleteIncomeTransaction rows inRange =>
        have hbooks : Books _ _ (applyAll d (removal now (d.owned (.income incomeId)))).balances
            (hide now (fun r => (Owner.income incomeId).owns r && r.deletedAt.isNone) _) :=
          h.books.removeAgain
        rw [← rows_removal] at hbooks
        refine ⟨_, fun i => removed i ∨ i = incomeId, ?_, inRange, hbooks.mono ?_,
          h.expenses_removeIncome⟩
        · rw [balances_removal, balances_removal, balances_removal, h.books.total htotal, net_total,
            net_total]
          ring
        · rintro o (⟨i, rfl, hi⟩ | rfl)
          · exact ⟨i, rfl, .inl hi⟩
          · exact ⟨incomeId, rfl, .inr rfl⟩
  · have hnone : x.incomeToRemove d = none := by
      cases x with
      | deleteIncomeTransaction incomeId now => exact absurd ⟨incomeId, now, rfl⟩ hx
      | _ => rfl
    exact ⟨initial, _, htotal, h.step hstep fun i hi => by rw [hnone] at hi; cases hi⟩

/-- Every complete call is a step, and keeps the rows sound. -/
theorem LedgerSound.after {d : Database} (h : LedgerSound d) (x : LedgerCall) :
    LedgerStep d x (x.program.after d) ∧ LedgerSound (x.program.after d) := by
  obtain ⟨initial, removed, htotal, hd⟩ := h
  have hstep := hd.ledgerStep x
  exact ⟨hstep, LedgerSound.step ⟨initial, removed, htotal, hd⟩ hstep⟩

theorem LedgerSound.calls {d : Database} (h : LedgerSound d) (xs : List LedgerCall) :
    LedgerSound (runCalls LedgerCall.program d xs) :=
  runCalls_keeps (fun x _ hd => (hd.after x).2) h xs

theorem Migrated.ledgerSound {d : Database} (h : Migrated d) : LedgerSound d :=
  ⟨d.balances, fun _ => False, by rw [h.total, h.shu, h.capital, zero_add], h.ledgerInvariant⟩

/-! ### What a step does to the rows -/

/-- The columns of a ledger row that its insert fixes. -/
def CashbookTransaction.fixedColumns (r : CashbookTransaction) :=
  (r.id, r.txnDate, r.direction, (r.shuAmount, r.capitalAmount),
    (r.shuBalanceBefore, r.shuBalanceAfter, r.capitalBalanceBefore, r.capitalBalanceAfter,
      r.totalBalanceBefore, r.totalBalanceAfter), r.incomeId, r.isReversal, r.reversalOf)

/-- A reversal of an entry. -/
structure CashbookTransaction.Reverses (v r : CashbookTransaction) : Prop where
  reversal : v.isReversal = true
  reversalOf : v.reversalOf = some r.id
  entry : r.isReversal = false
  shuAmount : v.shuAmount = r.shuAmount
  capitalAmount : v.capitalAmount = r.capitalAmount
  direction : v.direction = r.direction.opposite

/-- What a step does to the rows: some are hidden, some are added. `g` says what becomes of a row,
and `buried` which rows a deletion hides. -/
structure RowsStep (buried : Uuid → Prop) (g : CashbookTransaction → CashbookTransaction)
    (added rows rows' : List CashbookTransaction) : Prop where
  eq : rows' = rows.map g ++ added
  fixed : ∀ r, (g r).fixedColumns = r.fixedColumns
  hidden : ∀ r ∈ rows, (g r).deletedAt = r.deletedAt ∨ (g r).deletedAt.isSome = true ∧
    (buried r.id ∨ ∃ v ∈ added, v.Reverses r)
  entries : ∀ r ∈ added, r.isReversal = false → r.visible = true
  reversals : ∀ v ∈ added, v.isReversal = true → ∃ r ∈ rows, v.Reverses r ∧ r.visible = true ∧
    (g r).deletedAt.isSome = true
  single : ∀ v ∈ added, ∀ v' ∈ added, v.isReversal = true → v'.isReversal = true → v = v'

/-- A ledger whose reversals and entries belong together. -/
structure WellLinked (buried : Uuid → Prop) (rows : List CashbookTransaction) : Prop where
  reversal : ∀ v ∈ rows, v.isReversal = true → ∃ r ∈ rows, v.Reverses r ∧ r.deletedAt.isSome = true
  once : ∀ v ∈ rows, ∀ v' ∈ rows, v.isReversal = true → v'.isReversal = true →
    v.reversalOf = v'.reversalOf → v = v'
  accounted : ∀ r ∈ rows, r.isReversal = false → r.visible = true ∨
    r.deletedAt.isSome = true ∧ ((∃ v ∈ rows, v.Reverses r) ∨ buried r.id)

theorem CashbookTransaction.Reverses.congr {v v' r r' : CashbookTransaction} (h : v.Reverses r)
    (hv : v'.fixedColumns = v.fixedColumns) (hr : r'.fixedColumns = r.fixedColumns) :
    v'.Reverses r' := by
  simp only [CashbookTransaction.fixedColumns, Prod.mk.injEq] at hv hr
  obtain ⟨-, -, hvDirection, ⟨hvShu, hvCapital⟩, -, -, hvReversal, hvOf⟩ := hv
  obtain ⟨hrId, -, hrDirection, ⟨hrShu, hrCapital⟩, -, -, hrReversal, -⟩ := hr
  exact {
    reversal := hvReversal.trans h.reversal
    reversalOf := by rw [hvOf, h.reversalOf, hrId]
    entry := hrReversal.trans h.entry
    shuAmount := by rw [hvShu, h.shuAmount, hrShu]
    capitalAmount := by rw [hvCapital, h.capitalAmount, hrCapital]
    direction := by rw [hvDirection, h.direction, hrDirection] }

theorem WellLinked.step {buried buried' : Uuid → Prop}
    {g : CashbookTransaction → CashbookTransaction} {added rows rows' : List CashbookTransaction}
    (h : WellLinked buried rows) (hids : (rows.map CashbookTransaction.id).Nodup)
    (hstep : RowsStep buried' g added rows rows') :
    WellLinked (fun id => buried id ∨ buried' id) rows' := by
  obtain ⟨rfl, hfixed, hhidden, hentries, hreversals, hsingle⟩ := hstep
  have hid : ∀ r, (g r).id = r.id := fun r => congrArg Prod.fst (hfixed r)
  have hisReversal : ∀ r, (g r).isReversal = r.isReversal := by
    intro r
    have hr := hfixed r
    simp only [CashbookTransaction.fixedColumns, Prod.mk.injEq] at hr
    exact hr.2.2.2.2.2.2.1
  have hreversalOf : ∀ r, (g r).reversalOf = r.reversalOf := by
    intro r
    have hr := hfixed r
    simp only [CashbookTransaction.fixedColumns, Prod.mk.injEq] at hr
    exact hr.2.2.2.2.2.2.2
  -- a hidden row stays hidden
  have hdeleted : ∀ r ∈ rows, r.deletedAt.isSome = true → (g r).deletedAt.isSome = true := by
    intro r hr hsome
    rcases hhidden r hr with h | ⟨h, -⟩
    · rwa [h]
    · exact h
  -- a row that was reversed is not reversed again
  have hfresh : ∀ w ∈ rows, ∀ v ∈ added, w.isReversal = true → v.isReversal = true →
      w.reversalOf ≠ v.reversalOf := by
    intro w hw v hv hwr hvr hsame
    obtain ⟨r, hr, hreverses, hrdeleted⟩ := h.reversal w hw hwr
    obtain ⟨r', hr', hreverses', hvisible, -⟩ := hreversals v hv hvr
    rw [hreverses.reversalOf, hreverses'.reversalOf, Option.some.injEq] at hsame
    obtain rfl := List.inj_on_of_nodup_map hids hr hr' hsame
    have hnone := Books.deletedAt_of_visible hvisible
    rw [Option.isNone_iff_eq_none.1 hnone] at hrdeleted
    cases hrdeleted
  refine ⟨fun v hv hvr => ?_, fun v hv v' hv' hvr hvr' hsame => ?_, fun r hr hentry => ?_⟩
  · rcases List.mem_append.1 hv with hv | hv
    · obtain ⟨w, hw, rfl⟩ := List.mem_map.1 hv
      obtain ⟨r, hr, hreverses, hrdeleted⟩ := h.reversal w hw (hisReversal w ▸ hvr)
      exact ⟨g r, List.mem_append_left _ (List.mem_map_of_mem hr),
        hreverses.congr (hfixed w) (hfixed r), hdeleted r hr hrdeleted⟩
    · obtain ⟨r, hr, hreverses, -, hrdeleted⟩ := hreversals v hv hvr
      exact ⟨g r, List.mem_append_left _ (List.mem_map_of_mem hr),
        hreverses.congr rfl (hfixed r), hrdeleted⟩
  · rcases List.mem_append.1 hv with hv | hv <;> rcases List.mem_append.1 hv' with hv' | hv'
    · obtain ⟨w, hw, rfl⟩ := List.mem_map.1 hv
      obtain ⟨w', hw', rfl⟩ := List.mem_map.1 hv'
      rw [hreversalOf, hreversalOf] at hsame
      rw [h.once w hw w' hw' (hisReversal w ▸ hvr) (hisReversal w' ▸ hvr') hsame]
    · obtain ⟨w, hw, rfl⟩ := List.mem_map.1 hv
      rw [hreversalOf] at hsame
      exact absurd hsame (hfresh w hw v' hv' (hisReversal w ▸ hvr) hvr')
    · obtain ⟨w', hw', rfl⟩ := List.mem_map.1 hv'
      rw [hreversalOf] at hsame
      exact absurd hsame.symm (hfresh w' hw' v hv (hisReversal w' ▸ hvr') hvr)
    · exact hsingle v hv v' hv' hvr hvr'
  · rcases List.mem_append.1 hr with hr | hr
    · obtain ⟨w, hw, rfl⟩ := List.mem_map.1 hr
      rw [hisReversal] at hentry
      have hkept : (∃ v ∈ rows, v.Reverses w) ∨ buried w.id →
          (∃ v ∈ rows.map g ++ added, v.Reverses (g w)) ∨ buried (g w).id ∨ buried' (g w).id := by
        rintro (⟨v, hv, hreverses⟩ | hburied)
        · exact .inl ⟨g v, List.mem_append_left _ (List.mem_map_of_mem hv),
            hreverses.congr (hfixed v) (hfixed w)⟩
        · exact .inr (.inl (by rwa [hid]))
      rcases hhidden w hw with hsame | ⟨hnow, hwhy⟩
      · rcases h.accounted w hw hentry with hvisible | ⟨hwdeleted, hwhy⟩
        · refine .inl ?_
          rwa [CashbookTransaction.visible, hsame, hisReversal, ← CashbookTransaction.visible]
        · exact .inr ⟨hdeleted w hw hwdeleted, hkept hwhy⟩
      · refine .inr ⟨hnow, ?_⟩
        rcases hwhy with hburied | ⟨v, hv, hreverses⟩
        · exact .inr (.inr (by rwa [hid]))
        · exact .inl ⟨v, List.mem_append_right _ hv, hreverses.congr rfl (hfixed w)⟩
    · exact .inl (hentries r hr hentry)

/-! ### The steps -/

/-- The owner whose rows a call deletes. -/
def LedgerCall.deletes : LedgerCall → Option Owner
  | deleteExpense id _ => some (.expense id)
  | deleteIncomeTransaction incomeId _ => some (.income incomeId)
  | _ => none

/-- A row that a call hides with its owner, in the states before and after the call. -/
def LedgerCall.Buries (x : LedgerCall) (d d' : Database) (id : Uuid) : Prop :=
  ∃ o, x.deletes = some o ∧ (∃ r ∈ d.owned o, r.id = id ∧ r.deletedAt = none) ∧
    ∃ r' ∈ d'.rows .cashbookTransactions, r'.id = id ∧ r'.deletedAt.isSome = true

section Steps

variable {d d' : Database} {x : LedgerCall} {now : Date} {buried : Uuid → Prop}
  {rows : List CashbookTransaction}

theorem RowsStep.same : RowsStep buried id [] rows rows where
  eq := by rw [List.map_id, List.append_nil]
  fixed _ := rfl
  hidden _ _ := .inl rfl
  entries _ hr := by cases hr
  reversals _ hv := by cases hv
  single _ hv := by cases hv

theorem RowsStep.post {r : CashbookTransaction} (hvisible : r.visible = true) :
    RowsStep buried id [r] rows (rows ++ [r]) where
  eq := by rw [List.map_id]
  fixed _ := rfl
  hidden _ _ := .inl rfl
  entries r' hr' _ := by rwa [List.mem_singleton.1 hr']
  reversals v hv hreversal := by
    rw [List.mem_singleton.1 hv] at hreversal
    rw [CashbookTransaction.visible, hreversal] at hvisible
    simp at hvisible
  single v hv v' hv' _ _ := by rw [List.mem_singleton.1 hv, List.mem_singleton.1 hv']

theorem fixedColumns_hide (now : Date) (p : CashbookTransaction → Bool) (r : CashbookTransaction) :
    (if p r then r.softDelete now else r).fixedColumns = r.fixedColumns := by
  split <;> rfl

theorem RowsStep.correct {reversalId newId : Uuid} {o : Owner} {newShuAmount newCapitalAmount : ℚ}
    {txnDate : Option Date} {original reversal new : CashbookTransaction}
    (hentries : Entries (d.rows .cashbookTransactions))
    (hc : Corrected d now reversalId newId o newShuAmount newCapitalAmount txnDate original reversal
      new) :
    RowsStep buried (fun r => if Books.only original r then r.softDelete now else r) [reversal, new]
      (d.rows .cashbookTransactions)
      (hide now (Books.only original) (d.rows .cashbookTransactions) ++ [reversal] ++ [new]) := by
  have hreverses : reversal.Reverses original := {
    reversal := hc.reversed.isReversal
    reversalOf := hc.reversed.reversalOf
    entry := by
      have hvisible := hc.visible
      rw [CashbookTransaction.visible, Bool.and_eq_true, Bool.not_eq_true'] at hvisible
      exact hvisible.2
    shuAmount := ofRat?_toRat_eq hc.reversed.shuAmount
    capitalAmount := ofRat?_toRat_eq hc.reversed.capitalAmount
    direction := by
      rw [hentries.direction original hc.mem hc.visible o hc.owned]
      exact hc.reversed.direction }
  have honly : Books.only original original = true := by
    rw [Books.only, Books.deletedAt_of_visible hc.visible, decide_eq_true rfl]
    rfl
  have hnew : new.isReversal = false := hc.corrected.isReversal
  refine ⟨by rw [hide, List.append_assoc]; rfl, fixedColumns_hide now _, fun r hr => ?_,
    fun r hr hentry => ?_, fun v hv hreversal => ?_, fun v hv v' hv' hvr hvr' => ?_⟩
  · cases hp : Books.only original r with
    | false => exact .inl rfl
    | true =>
        rw [Books.eq_of_only hentries hc.mem hr hp]
        exact .inr ⟨rfl, .inr ⟨reversal, List.mem_cons_self .., hreverses⟩⟩
  · rcases List.mem_pair.1 hr with rfl | rfl
    · rw [hreverses.reversal] at hentry
      cases hentry
    · rw [hc.corrected.visible]
      rfl
  · rcases List.mem_pair.1 hv with rfl | rfl
    · refine ⟨original, hc.mem, hreverses, hc.visible, ?_⟩
      rw [if_pos honly]
      rfl
    · rw [hnew] at hreversal
      cases hreversal
  · rcases List.mem_pair.1 hv with rfl | rfl <;> rcases List.mem_pair.1 hv' with rfl | rfl
    · rfl
    · rw [hnew] at hvr'
      cases hvr'
    · rw [hnew] at hvr
      cases hvr
    · rfl

theorem RowsStep.remove {o : Owner} (f : CashbookTransaction → CashbookTransaction)
    (hf : ∀ r, (f r).fixedColumns = r.fixedColumns) (hdeleted : ∀ r, (f r).deletedAt = r.deletedAt)
    (hburied : ∀ r ∈ rows, o.owns r = true → r.deletedAt = none → buried r.id) :
    RowsStep buried (fun r => f (if o.owns r && r.deletedAt.isNone then r.softDelete now else r)) []
      rows ((hide now (fun r => o.owns r && r.deletedAt.isNone) rows).map f) where
  eq := by rw [List.append_nil, hide, List.map_map]; rfl
  fixed r := (hf _).trans (fixedColumns_hide now (fun r => o.owns r && r.deletedAt.isNone) r)
  hidden r hr := by
    rw [hdeleted]
    split
    · rename_i hlive
      rw [Bool.and_eq_true, Option.isNone_iff_eq_none] at hlive
      exact .inr ⟨rfl, .inl (hburied r hr hlive.1 hlive.2)⟩
    · exact .inl rfl
  entries _ hr := by cases hr
  reversals _ hv := by cases hv
  single _ hv := by cases hv

theorem mem_rows_removal {r : CashbookTransaction} {o : Owner}
    (hr : r ∈ d.rows .cashbookTransactions) (ho : o.owns r = true) (hlive : r.deletedAt = none) :
    r.softDelete now ∈ (applyAll d (removal now (d.owned o))).rows .cashbookTransactions := by
  rw [rows_removal, hide]
  exact List.mem_map.2 ⟨r, hr, by rw [ho, hlive]; rfl⟩

theorem LedgerStep.rowsStep (h : LedgerSound d) (hstep : LedgerStep d x d') :
    ∃ g added, RowsStep (x.Buries d d') g added (d.rows .cashbookTransactions)
      (d'.rows .cashbookTransactions) := by
  obtain ⟨_, _, -, h⟩ := h
  cases hstep with
  | nothing => exact ⟨_, _, .same⟩
  | createIncomeTransaction stored posted =>
      rw [CashbookTransaction.rows_postings d posted.fresh]
      exact ⟨_, _, .post (by rw [stored.visible]; rfl)⟩
  | updateIncomeTransaction corrected =>
      rw [corrected.rows]
      exact ⟨_, _, .correct h.books.toEntries corrected⟩
  | @createExpense _ _ _ _ _ e r created =>
      rw [applyAll_cons, Database.store_apply, CashbookTransaction.rows_postings _ created.posted.fresh]
      exact ⟨_, _, .post created.visible⟩
  | @setExpense _ _ _ _ _ e' =>
      rw [d.rows_update_ne (by decide)]
      exact ⟨_, _, .same⟩
  | @updateExpense _ _ _ _ _ _ e' _ _ _ corrected =>
      have hledger : (d.apply (.update .expenses e')).rows .cashbookTransactions =
          d.rows .cashbookTransactions := d.rows_update_ne (t := .expenses) (by decide) e'
      have hentries := h.books.toEntries
      rw [LedgerInvariant.rows_expenseCorrection corrected]
      rw [← hledger] at hentries ⊢
      exact ⟨_, _, .correct hentries corrected.corrected⟩
  | @deleteExpense id now e found inRange =>
      rw [rows_expenseDeletion, rows_removal]
      refine ⟨_, _, .remove _ (fun r => ?_) (fun r => ?_) fun r hr ho hlive => ?_⟩
      · split <;> rfl
      · split <;> rfl
      · refine ⟨_, rfl, ⟨r, mem_owned.2 ⟨hr, ho⟩, rfl, hlive⟩, ?_⟩
        rw [rows_expenseDeletion]
        refine ⟨_, List.mem_map_of_mem (mem_rows_removal hr ho hlive), ?_, ?_⟩
        · split <;> rfl
        · split <;> rfl
  | @deleteIncomeTransaction incomeId now rows inRange =>
      have hremoved : RowsStep (LedgerCall.Buries (.deleteIncomeTransaction incomeId now) d
          (applyAll d (removal now (d.owned (.income incomeId))))) _ _ (d.rows .cashbookTransactions)
          ((hide now (fun r => (Owner.income incomeId).owns r && r.deletedAt.isNone) _).map id) :=
        .remove id (fun _ => rfl) (fun _ => rfl) fun r hr ho hlive =>
          ⟨_, rfl, ⟨r, mem_owned.2 ⟨hr, ho⟩, rfl, hlive⟩, _, mem_rows_removal hr ho hlive, rfl, rfl⟩
      rw [List.map_id, ← rows_removal] at hremoved
      exact ⟨_, _, hremoved⟩

end Steps

/-! ### Runs -/

/-- Some call of a sequence hides the row with its owner. -/
def BuriedBy (d₀ : Database) (xs : List LedgerCall) (id : Uuid) : Prop :=
  ∃ ys x zs, xs = ys ++ x :: zs ∧ x.Buries (runCalls LedgerCall.program d₀ ys)
    (runCalls LedgerCall.program d₀ (ys ++ [x])) id

theorem wellLinked_runCalls {d₀ : Database} (h₀ : LedgerSound d₀)
    (hnone : d₀.rows .cashbookTransactions = []) (xs : List LedgerCall) :
    WellLinked (BuriedBy d₀ xs) ((runCalls LedgerCall.program d₀ xs).rows .cashbookTransactions) := by
  induction xs using List.reverseRecOn with
  | nil =>
      rw [runCalls, List.foldl_nil, hnone]
      exact {
        reversal := fun _ hv => absurd hv List.not_mem_nil
        once := fun _ hv => absurd hv List.not_mem_nil
        accounted := fun _ hr => absurd hr List.not_mem_nil }
  | append_singleton xs x ih =>
      have hsound := h₀.calls xs
      obtain ⟨hstep, -⟩ := hsound.after x
      obtain ⟨g, added, hrows⟩ := hstep.rowsStep hsound
      have hentries :
          Entries ((runCalls LedgerCall.program d₀ xs).rows .cashbookTransactions) := by
        obtain ⟨_, _, -, h⟩ := hsound
        exact h.books.toEntries
      have hafter : runCalls LedgerCall.program d₀ (xs ++ [x]) =
          x.program.after (runCalls LedgerCall.program d₀ xs) := runCalls_append ..
      have hlinked := ih.step hentries.ids hrows
      rw [← hafter] at hlinked
      refine ⟨hlinked.reversal, hlinked.once, fun r hr hentry =>
        (hlinked.accounted r hr hentry).imp id fun ⟨hdeleted, hwhy⟩ =>
          ⟨hdeleted, hwhy.imp id ?_⟩⟩
      rintro (⟨ys, y, zs, rfl, hburies⟩ | hburies)
      · exact ⟨ys, y, zs ++ [x], by simp, hburies⟩
      · exact ⟨xs, x, [], rfl, hburies⟩

theorem fixedColumns_runCalls {d : Database} (h : LedgerSound d) (xs : List LedgerCall)
    {r : CashbookTransaction} (hr : r ∈ d.rows .cashbookTransactions) :
    ∃ r' ∈ (runCalls LedgerCall.program d xs).rows .cashbookTransactions,
      r'.fixedColumns = r.fixedColumns := by
  induction xs generalizing d r with
  | nil => exact ⟨r, hr, rfl⟩
  | cons x xs ih =>
      obtain ⟨hstep, hafter⟩ := h.after x
      obtain ⟨g, added, hrows⟩ := hstep.rowsStep h
      have hmem : g r ∈ (x.program.after d).rows .cashbookTransactions := by
        rw [hrows.eq]
        exact List.mem_append_left _ (List.mem_map_of_mem hr)
      obtain ⟨r', hr', hfixed⟩ := ih hafter hmem
      exact ⟨r', hr', hfixed.trans (hrows.fixed r)⟩

/-- **The ledger is immutable.** After any complete calls from the migrated state: every row there
ever was is still there and says what it said; every reversal takes back exactly one entry, which is
hidden, and no entry has two; an entry that is hidden was reversed, or deleted with its owner. -/
theorem ledger_immutable {d₀ : Database} (h₀ : Migrated d₀) (xs : List LedgerCall) :
    let rows := (runCalls LedgerCall.program d₀ xs).rows .cashbookTransactions
    (∀ ys zs, xs = ys ++ zs →
      ∀ r ∈ (runCalls LedgerCall.program d₀ ys).rows .cashbookTransactions,
        ∃ r' ∈ rows, r'.fixedColumns = r.fixedColumns) ∧
    (∀ v ∈ rows, v.isReversal = true → ∃ r ∈ rows, v.Reverses r ∧ r.deletedAt.isSome = true ∧
      ∀ r' ∈ rows, v.reversalOf = some r'.id → r' = r) ∧
    (∀ v ∈ rows, ∀ v' ∈ rows, v.isReversal = true → v'.isReversal = true →
      v.reversalOf = v'.reversalOf → v = v') ∧
    ∀ r ∈ rows, r.isReversal = false → r.visible = true ∨
      r.deletedAt.isSome = true ∧ ((∃ v ∈ rows, v.Reverses r) ∨ BuriedBy d₀ xs r.id) := by
  have hlinked := wellLinked_runCalls h₀.ledgerSound h₀.cashbookTransactions xs
  have hids : (((runCalls LedgerCall.program d₀ xs).rows .cashbookTransactions).map
      CashbookTransaction.id).Nodup := by
    obtain ⟨_, _, -, h⟩ := h₀.ledgerSound.calls xs
    exact h.books.ids
  refine ⟨fun ys zs hxs r hr => ?_, fun v hv hreversal => ?_, hlinked.once, hlinked.accounted⟩
  · subst hxs
    rw [runCalls_append]
    exact fixedColumns_runCalls (h₀.ledgerSound.calls ys) zs hr
  · obtain ⟨r, hr, hreverses, hdeleted⟩ := hlinked.reversal v hv hreversal
    refine ⟨r, hr, hreverses, hdeleted, fun r' hr' hof => ?_⟩
    rw [hreverses.reversalOf, Option.some.injEq] at hof
    exact List.inj_on_of_nodup_map hids hr' hr hof.symm

theorem ledger_immutable_withDonation :
    ((runCalls LedgerCall.program withDonation ledgerCalls).rows .cashbookTransactions).length = 6 ∧
    ∀ v ∈ (runCalls LedgerCall.program withDonation ledgerCalls).rows .cashbookTransactions,
      v.isReversal = true → ∃ r ∈ (runCalls LedgerCall.program withDonation ledgerCalls).rows
        .cashbookTransactions, v.Reverses r := by
  refine ⟨by decide +kernel, fun v hv hreversal => ?_⟩
  obtain ⟨r, hr, hreverses, -⟩ :=
    (ledger_immutable migrated_withDonation ledgerCalls).2.1 v hv hreversal
  exact ⟨r, hr, hreverses⟩

end LumbungMesari
