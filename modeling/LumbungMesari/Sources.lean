import LumbungMesari.Corrections
import LumbungMesari.LedgerHistory

/-!
# The stored source of an expense

An update allocates by the source it names, but the columns it assembles never hold a source. As
long as no update names another source than the stored one, the stored source explains the split of
every expense.
-/

namespace LumbungMesari

open Sql
open Prog (commitTrx)

variable {d : Database}

/-! ### What the calls leave -/

theorem commit_readExpense_wp {P : Database → Prop} {id : Uuid} {ws : List Write} {l : Locks}
    (h : P (applyAll d ws)) : (do commitTrx; readExpense id : Program Expense).wp
      (Prog.alone fun _ => P) (fun _ _ _ => True) d (Session.idle.extend ws l) := by
  have hcommit : (commitTrx : Program Unit).wp (Prog.alone fun _ => P) (fun _ _ _ => True) d
      (Session.idle.extend ws l) := by
    refine Prog.wp_commitTrx.2 fun d' henv => ?_
    obtain rfl : d = d' := henv
    rw [Session.view_extend]
    exact ⟨h, trivial⟩
  exact Prog.wp_bind'.2 (Prog.wp_mono (fun _ _ _ _ => readExpense_wp fun _ _ _ => trivial) hcommit)

section Creation

variable {ids : ExpenseIds} {dto : CreateExpenseDto} {currentUserId : Uuid} {now : Date}

theorem createExpense_after {P : Database → Prop} (hrange : d.InRange) (hd : P d)
    (h : ∀ category a x r, Created d ids dto category a x r →
      P (applyAll d (.insert .expenses x :: r.postings))) :
    P ((createExpense ids dto currentUserId now).after d) := by
  suffices hwp : (createExpense ids dto currentUserId now).wp (Prog.alone fun _ => P)
      (fun _ _ _ => True) d .idle from Prog.after_keeps (I := P) (fun _ hd' => hd') hwp hd
  unfold createExpense
  split
  · trivial
  rename_i hchecked
  have hamount := checkAmount_ok hchecked
  rw [Prog.wp_bind']
  refine Prog.wp_of_returns (createExpenseInTransaction_wp hamount (fun d' henv => ?_)
    fun _ _ _ _ _ _ _ _ _ _ _ => trivial) fun x s' hreturns => ?_
  · obtain rfl : d = d' := henv
    exact hrange
  · obtain ⟨-, category, a, r, l, hcreated, rfl⟩ :=
      createExpenseInTransaction_returns hrange hamount hreturns
    exact commit_readExpense_wp (h category a x r hcreated)

end Creation

section Correction

variable {initial : BalanceType → ℤ} {removed : Uuid → Prop} {ids : ExpenseIds} {id : Uuid}
  {dto : UpdateExpenseDto} {now : Date}

theorem updateExpense_after {P : Database → Prop}
    (hledger : LedgerInvariant Expense.Agrees initial removed d) (hd : P d)
    (h : ∀ x amounts x' ws, d.find .expenses id = some x →
      Revised d dto (d.effectiveSource dto x) amounts x x' →
      RevisionPosted d now ids id dto amounts x x' ws → P (applyAll d ws)) :
    P ((updateExpense ids id dto now).after d) := by
  suffices hwp : (updateExpense ids id dto now).wp (Prog.alone fun _ => P) (fun _ _ _ => True) d
      .idle from Prog.after_keeps (I := P) (fun _ hd' => hd') hwp hd
  unfold updateExpense findByIdWithCategory
  rw [Prog.wp_bind']
  refine wp_selectOnPool fun d' henv => ?_
  obtain rfl : d = d' := henv
  cases hfound : d.find .expenses id with
  | none => trivial
  | some x =>
      dsimp only [Option.map_some]
      split
      · trivial
      rename_i hchecked
      have hamount : ∀ q ∈ dto.amount, 0 < q := by
        intro q hq
        rw [Option.mem_def.1 hq] at hchecked
        exact checkAmount_ok hchecked
      rw [Prog.wp_bind']
      refine Prog.wp_of_returns (findNewCategory_wp fun _ _ _ => trivial)
        fun newCategory s' hnew => ?_
      obtain ⟨-, rfl, rfl, -⟩ := findNewCategory_returns hnew
      rw [Prog.wp_bind']
      refine Prog.wp_of_returns ?_ fun _ s' hreturns => ?_
      · refine updateExpenseInTransaction_wp hamount
          (hledger.allocation_nonneg Expense.Agrees.allocation hfound)
          (fun d' henv => ?_) (fun d₁ d₂ henv₁ henv₂ hnone => ?_) (fun d₁ d₂ l _ henv _ => ?_)
          (fun _ _ _ => trivial) (fun _ _ _ _ _ _ _ _ => trivial)
          fun _ _ _ _ _ _ _ _ _ _ _ _ _ _ _ _ => trivial
        · obtain rfl : d = d' := henv
          exact hledger.inRange
        · obtain rfl : d = d₁ := henv₁
          obtain rfl : d = d₂ := henv₂
          exact hledger.expenses.named id hnone
        · obtain rfl : d₁ = d₂ := henv
          rfl
      · obtain ⟨-, amounts, x', ws, l, hrevised, hposted, rfl⟩ :=
          updateExpenseInTransaction_returns hledger hfound hamount hreturns
        exact commit_readExpense_wp (h x amounts x' ws hfound hrevised hposted)

end Correction

/-! ### What a source says -/

/-- The source of an expense says which bucket it has not taken from. -/
structure Expense.Explained (x : Expense) : Prop where
  fromShu : x.source = some .shu → x.capitalAmount.units = 0
  fromCapital : x.source = some .capital → x.shuAmount.units = 0

def Database.SourcesExplain (d : Database) : Prop := ∀ x ∈ d.rows .expenses, x.Explained

/-- An update that names a source names the one that is stored. -/
def LedgerCall.NamesStored (d : Database) : LedgerCall → Prop
  | updateExpense _ id dto _ => ∀ source ∈ dto.source, ∀ x ∈ d.find .expenses id,
      x.source = some source
  | _ => True

def AllNameStored : Database → List LedgerCall → Prop
  | _, [] => True
  | d, x :: xs => x.NamesStored d ∧ AllNameStored (x.program.after d) xs

/-- An update that names a source and returns leaves an expense with that source. -/
def LedgerCall.StoresNamed (d : Database) : LedgerCall → Prop
  | updateExpense ids id dto now => ∀ source ∈ dto.source,
      ((updateExpense ids id dto now).program.result d).isOk = true →
        ∃ x ∈ ((updateExpense ids id dto now).program.after d).find .expenses id,
          x.source = some source
  | _ => True

/-- In every state of a run the stored sources explain the splits, and every update that names a
source stores it. -/
def SourcesHold : Database → List LedgerCall → Prop
  | d, [] => d.SourcesExplain
  | d, x :: xs => d.SourcesExplain ∧ x.StoresNamed d ∧ SourcesHold (x.program.after d) xs

theorem sourcesExplain_iff : d.SourcesExplain ↔ ∀ id x, d.find .expenses id = some x → x.Explained :=
  ⟨fun h _ x hx => h x (Table.find?_some hx).1, fun h x hx => h x.id x (Table.find?_of_mem hx)⟩

theorem Database.SourcesExplain.congr {d' : Database} (h : d.SourcesExplain)
    (htable : d'.table .expenses = d.table .expenses) : d'.SourcesExplain := by
  rwa [SourcesExplain, Database.rows, htable]

/-- An allocation takes nothing from the bucket that its source leaves out. -/
theorem Database.allocates_explained {amount : ℚ} {source : ExpenseSource}
    {restore : Option Allocation} {a : Allocation}
    (h : d.allocates amount (some source) restore = .ok a) :
    (source = .shu → a.capitalAmount = 0) ∧ (source = .capital → a.shuAmount = 0) := by
  obtain ⟨split, hsplit, rfl⟩ := Database.allocates_ok h
  refine ⟨fun hshu => ?_, fun hcapital => ?_⟩
  · subst hshu
    simp only [allocate] at hsplit
    split at hsplit <;> cases hsplit
    exact Js.Double.toNumeric_zero 4
  · subst hcapital
    simp only [allocate] at hsplit
    split at hsplit <;> cases hsplit
    exact Js.Double.toNumeric_zero 4

theorem Expense.Explained.of_allocates {x : Expense} {amount : ℚ} {source : Option ExpenseSource}
    {restore : Option Allocation} {a : Allocation} (h : d.allocates amount source restore = .ok a)
    (hsource : ∀ stored ∈ x.source, source = some stored)
    (hshu : Numeric.ofRat? a.shuAmount = some x.shuAmount)
    (hcapital : Numeric.ofRat? a.capitalAmount = some x.capitalAmount) : x.Explained where
  fromShu hstored := by
    rw [hsource _ hstored] at h
    rw [(Database.allocates_explained h).1 rfl] at hcapital
    exact units_eq_zero hcapital
  fromCapital hstored := by
    rw [hsource _ hstored] at h
    rw [(Database.allocates_explained h).2 rfl] at hshu
    exact units_eq_zero hshu

/-! ### What the calls keep -/

section Steps

variable {initial : BalanceType → ℤ} {removed : Uuid → Prop} {now : Date}

theorem sourcesExplain_createExpense (hrange : d.InRange) (h : d.SourcesExplain) {ids : ExpenseIds}
    {dto : CreateExpenseDto} {currentUserId : Uuid} :
    ((createExpense ids dto currentUserId now).after d).SourcesExplain := by
  refine createExpense_after hrange h fun category a x r hcreated => ?_
  rw [sourcesExplain_iff] at h ⊢
  intro id y hy
  rw [hcreated.find] at hy
  split at hy
  · cases hy
    exact .of_allocates hcreated.allocated
      (fun stored hstored => hcreated.created.source.symm.trans hstored) hcreated.shuAmount
      hcreated.capitalAmount
  · exact h id y hy

theorem Revised.explained {dto : UpdateExpenseDto} {amounts : Option Allocation} {x x' : Expense}
    (h : Revised d dto (d.effectiveSource dto x) amounts x x') (hx : x.Explained)
    (hstored : ∀ source ∈ dto.source, x.source = some source) : x'.Explained := by
  cases hamounts : amounts with
  | none =>
      obtain ⟨hshu, hcapital⟩ := h.set.kept hamounts
      exact ⟨fun hs => by rw [hcapital]; exact hx.fromShu (h.source ▸ hs),
        fun hs => by rw [hshu]; exact hx.fromCapital (h.source ▸ hs)⟩
  | some a =>
      obtain ⟨q, hq⟩ := Option.ne_none_iff_exists'.1 fun hnone => by
        rw [h.asked.2 hnone] at hamounts
        cases hamounts
      obtain ⟨hshu, hcapital⟩ := h.set.stored a hamounts
      refine .of_allocates (h.allocated q hq a hamounts) (fun source hsource => ?_) hshu hcapital
      -- what the update names is what is stored, so it allocates by what it keeps
      rw [h.source, Option.mem_def] at hsource
      unfold Database.effectiveSource
      cases hnamed : dto.source with
      | none => rw [hsource]; rfl
      | some named => rw [← hstored named hnamed, hsource]; rfl

theorem sourcesExplain_updateExpense (hledger : LedgerInvariant Expense.Agrees initial removed d)
    (h : d.SourcesExplain) {ids : ExpenseIds} {id : Uuid} {dto : UpdateExpenseDto}
    (hstored : ∀ source ∈ dto.source, ∀ x ∈ d.find .expenses id, x.source = some source) :
    ((updateExpense ids id dto now).after d).SourcesExplain := by
  refine updateExpense_after hledger h fun x amounts x' ws hfound hrevised hposted => ?_
  rw [sourcesExplain_iff] at h ⊢
  intro id' y hy
  rw [hposted.find hfound hrevised.set.id] at hy
  split at hy
  · cases hy
    exact hrevised.explained (h id x hfound) fun source hsource => hstored source hsource x hfound
  · exact h id' y hy

theorem Database.SourcesExplain.after (h : d.SourcesExplain) (hledger : LedgerSound d)
    {x : LedgerCall} (hx : x.NamesStored d) : (x.program.after d).SourcesExplain := by
  obtain ⟨hstep, -⟩ := hledger.after x
  obtain ⟨_, _, -, hinvariant⟩ := hledger
  cases x with
  | createExpense ids dto currentUserId now =>
      rw [LedgerCall.program, Prog.after_bind_pure]
      exact sourcesExplain_createExpense hinvariant.inRange h
  | updateExpense ids id dto now =>
      rw [LedgerCall.program, Prog.after_bind_pure]
      exact sourcesExplain_updateExpense hinvariant h hx
  | deleteExpense id now =>
      generalize (LedgerCall.deleteExpense id now).program.after d = d' at hstep ⊢
      cases hstep with
      | nothing => exact h
      | deleteExpense =>
          rw [sourcesExplain_iff] at h ⊢
          intro id' y hy
          rw [LedgerInvariant.find_expenseDeletion] at hy
          split at hy
          · cases hy
          · exact h id' y hy
  | createIncomeTransaction id incomeId amount destination txnDate now =>
      generalize (LedgerCall.createIncomeTransaction ..).program.after d = d' at hstep ⊢
      cases hstep with
      | nothing => exact h
      | createIncomeTransaction => exact h.congr (CashbookTransaction.table_postings_ne _ (by decide))
  | updateIncomeTransaction reversalId newId incomeId amount destination txnDate now =>
      generalize (LedgerCall.updateIncomeTransaction ..).program.after d = d' at hstep ⊢
      cases hstep with
      | nothing => exact h
      | updateIncomeTransaction => exact h.congr (table_correction_ne (by decide))
  | deleteIncomeTransaction incomeId now =>
      generalize (LedgerCall.deleteIncomeTransaction incomeId now).program.after d = d' at hstep ⊢
      cases hstep with
      | nothing => exact h
      | deleteIncomeTransaction => exact h.congr (table_removal_ne (by decide))

theorem LedgerCall.NamesStored.storesNamed (hledger : LedgerSound d) {x : LedgerCall}
    (hx : x.NamesStored d) : x.StoresNamed d := by
  obtain ⟨_, _, -, hinvariant⟩ := hledger
  cases x with
  | updateExpense ids id dto now =>
      intro source hsource hok
      obtain ⟨_, d', s', hreturns⟩ := Prog.exists_returns_of_isOk hok
      obtain ⟨x', d₁, s₁, hupdate, hpure⟩ := Prog.returns_bind.1 hreturns
      obtain ⟨x, amounts, ws, hfound, -, hrevised, hposted, rfl⟩ :=
        updateExpense_returns hinvariant hupdate
      refine ⟨x', ?_, hrevised.source.trans (hx source hsource x hfound)⟩
      rw [LedgerCall.program, Prog.after_bind_pure, hupdate.after,
        hposted.find hfound hrevised.set.id, if_pos rfl]
      rfl
  | _ => trivial

end Steps

/-! ### Runs -/

theorem Database.SourcesExplain.calls (h : d.SourcesExplain) (hledger : LedgerSound d)
    {xs : List LedgerCall} (hxs : AllNameStored d xs) : SourcesHold d xs := by
  induction xs generalizing d with
  | nil => exact h
  | cons x xs ih =>
      obtain ⟨hx, hrest⟩ := hxs
      exact ⟨h, hx.storesNamed hledger, ih (h.after hledger hx) (hledger.after x).2 hrest⟩

/-- **The stored source explains the split**, in every state of a run in which every update that
names a source names the one that is stored. -/
theorem stored_source_explains {d₀ : Database} (h₀ : Migrated d₀) {xs : List LedgerCall}
    (hxs : AllNameStored d₀ xs) : SourcesHold d₀ xs := by
  refine Database.SourcesExplain.calls (fun x hx => ?_) h₀.ledgerSound hxs
  rw [h₀.expenses] at hx
  cases hx

/-- An expense paid from capital, corrected under its own source, and deleted. -/
def sourcedCalls : List LedgerCall :=
  let today : Date := ⟨2026, 5, 1⟩
  [.createIncomeTransaction 1 1 5 .shu none today,
    .createExpense ⟨1, 4, 5⟩ ⟨1, "Listrik", 2, none, none, some .capital, none⟩ 1 today,
    .updateExpense ⟨1, 6, 7⟩ 1 ⟨none, none, some 1, none, none, some .capital, none⟩ today,
    .deleteExpense 1 today]

theorem stored_source_explains_sourcedCalls :
    allReturn LedgerCall.program withDonation sourcedCalls = true ∧
      SourcesHold withDonation sourcedCalls := by
  refine ⟨by decide +kernel, stored_source_explains migrated_withDonation ?_⟩
  refine ⟨trivial, trivial, fun source hsource x hx => ?_, trivial, trivial⟩
  cases hsource
  have hstored : ((runCalls LedgerCall.program withDonation (sourcedCalls.take 2)).find .expenses
      1).map (·.source) = some (some .capital) := by decide +kernel
  have hsource := congrArg (Option.map Expense.source) hx
  exact Option.some.inj (hsource.symm.trans hstored)

/-- An expense paid from capital and corrected under the other source. -/
def movedCalls : List LedgerCall :=
  let today : Date := ⟨2026, 5, 1⟩
  [.createIncomeTransaction 1 1 5 .shu none today,
    .createExpense ⟨1, 4, 5⟩ ⟨1, "Listrik", 2, none, none, some .capital, none⟩ 1 today,
    .updateExpense ⟨1, 6, 7⟩ 1 ⟨none, none, some 1, none, none, some .shu, none⟩ today]

/-- The update allocates from the remaining profit and leaves `capital` as the source. -/
theorem moved_source_is_not_stored :
    Migrated withDonation ∧ allReturn LedgerCall.program withDonation movedCalls = true ∧
      ¬ (runCalls LedgerCall.program withDonation movedCalls).SourcesExplain ∧
      ¬ SourcesHold withDonation movedCalls := by
  have hexplain : ¬ (runCalls LedgerCall.program withDonation movedCalls).SourcesExplain := by
    intro h
    have hrows : ((runCalls LedgerCall.program withDonation movedCalls).rows .expenses).map
        (fun x => (x.source, x.shuAmount.units)) = [(some .capital, 10000)] := by decide +kernel
    obtain ⟨x, hx, hpair⟩ := List.mem_map.1 (hrows ▸ List.mem_singleton_self _)
    obtain ⟨hsource, hunits⟩ := Prod.mk.inj hpair
    rw [(h x hx).fromCapital hsource] at hunits
    cases hunits
  exact ⟨migrated_withDonation, by decide +kernel, hexplain, fun h => hexplain h.2.2.2.2.2.2⟩

end LumbungMesari
