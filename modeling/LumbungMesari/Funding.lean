import LumbungMesari.Corrections

/-!
# Allocation within the balances

What an allocation decides on is there to be spent: it is refused where the funds of its source are
short, and what it decides on is never stopped by a check or by the guard of the trigger.
-/

namespace LumbungMesari

open Sql Js

variable {d : Database}

/-- Amounts are refused exactly where the funds are short, and split soundly everywhere else. The
split is the stored one. -/
structure AllocatesSoundly (d : Database) (amount : ℚ) (source : ExpenseSource)
    (restore : Option Allocation) : Prop where
  refused : (allocateAmounts amount (some source) restore).result d =
      .error (insufficientFundsError source.text) ↔ d.funds source restore < amount
  split : amount ≤ d.funds source restore →
    ∃ a, (allocateAmounts amount (some source) restore).result d = .ok a ∧
      a.Sound amount source (d.balance .shu + restore.elim 0 (·.shuAmount))
        (d.balance .capital + restore.elim 0 (·.capitalAmount))

/-- An error of a check, or of the guard of the trigger. -/
def Error.ofGuard : Error → Bool
  | .checkViolation _ => true
  | .insufficientBalance .. => true
  | _ => false

/-- Neither a check nor the guard of the trigger stops a call, and no balance is negative after
it. -/
structure Unguarded {α : Type} (p : Program α) (d : Database) : Prop where
  passes : ∀ e, p.result d = .error e → e.ofGuard = false
  nonneg : ∀ b, 0 ≤ (p.after d).balances b

theorem checkAmount_error {q : ℚ} {e : Error} (h : checkAmount q = .error e) :
    e.ofGuard = false := by
  unfold checkAmount at h
  split at h
  · cases h
    rfl
  · split at h
    · cases h
      rfl
    · cases h

theorem Uncreatable.ofGuard {ids : ExpenseIds} {dto : CreateExpenseDto} {currentUserId : Uuid}
    {e : Error} (h : Uncreatable d ids dto currentUserId e) : e.ofGuard = false := by
  cases h with
  | amount refused => exact checkAmount_error refused
  | category | funds | duplicate | reference => rfl

theorem Uncorrectable.ofGuard {ids : ExpenseIds} {id : Uuid} {dto : UpdateExpenseDto} {e : Error}
    (h : Uncorrectable d ids id dto e) : e.ofGuard = false := by
  cases h with
  | amount _ refused => exact checkAmount_error refused
  | missing | category | source | funds | duplicate | reference | overflow => rfl

section Ledger

variable {initial : BalanceType → ℤ} {removed : Uuid → Prop}

theorem allocatesSoundly_iff {amount : ℚ} (hamount : 0 < amount) (hdecimal : Sql.Decimal 4 amount)
    (hrange : d.InRange) (source : ExpenseSource) {restore : Option Allocation}
    (hrestore : ∀ a ∈ restore, a.Taken) :
    AllocatesSoundly d amount source restore ↔
      (d.funds source restore = amount → .ofRat amount ≤ d.numberFunds source restore) := by
  rcases d.allocates_cases hrange hrestore hamount hdecimal source with
    ⟨hshort, hle, he⟩ | ⟨henough, hle, ha⟩
  · rw [← allocateAmounts_result] at he
    constructor
    · intro h hall
      obtain ⟨a, ha, -⟩ := h.split hall.ge
      cases he.symm.trans ha
    · intro h
      have hless : d.funds source restore < amount :=
        hle.lt_of_ne fun hall => absurd hshort (not_lt.2 (h hall))
      exact ⟨iff_of_true he hless, fun hge => absurd hge (not_le.2 hless)⟩
  · rw [← allocateAmounts_result] at ha
    refine iff_of_true ⟨?_, fun _ => ⟨_, ha, Database.split_sound hrange hrestore hamount hle⟩⟩
      fun _ => henough
    rw [ha]
    exact iff_of_false (by simp) (not_lt.2 hle)

theorem nonneg_after (h : LedgerInvariant Expense.Agrees initial removed d) (x : LedgerCall)
    (hx : x.incomeToRemove d = none) (b : BalanceType) : 0 ≤ (x.program.after d).balances b :=
  ((h.step (h.ledgerStep x) (by simp [hx])).inRange b).1

theorem unguarded_createExpense (h : LedgerInvariant Expense.Agrees initial removed d)
    (htotal : d.balances .total = d.balances .shu + d.balances .capital) {dto : CreateExpenseDto}
    (hdecimal : Sql.Decimal 4 dto.amount) (ids : ExpenseIds) (currentUserId : Uuid) (now : Date) :
    Unguarded (createExpense ids dto currentUserId now) d where
  passes e he := ((createExpense_throws h.inRange htotal hdecimal).of_result he).ofGuard
  nonneg b := by
    rw [← Prog.after_bind_pure _ fun _ => ()]
    exact nonneg_after h (.createExpense ids dto currentUserId now) rfl b

theorem unguarded_updateExpense (h : LedgerInvariant Expense.Agrees initial removed d)
    (htotal : d.balances .total = d.balances .shu + d.balances .capital) {dto : UpdateExpenseDto}
    (hdecimal : ∀ q ∈ dto.amount, Sql.Decimal 4 q) (ids : ExpenseIds) (id : Uuid) (now : Date) :
    Unguarded (updateExpense ids id dto now) d where
  passes e he := ((updateExpense_throws h htotal hdecimal).of_result he).ofGuard
  nonneg b := by
    rw [← Prog.after_bind_pure _ fun _ => ()]
    exact nonneg_after h (.updateExpense ids id dto now) rfl b

/-- **Allocation is sound** except where the amount is all of the funds and their sum is rounded
below it. What it decides on passes the checks of the rows it is stored in and the guard of the
trigger. -/
theorem allocation_sound_iff (h : LedgerInvariant Expense.Agrees initial removed d)
    (hinitial : initial .total = initial .shu + initial .capital) {amount : ℚ}
    (hamount : 0 < amount) (hdecimal : Sql.Decimal 4 amount) :
    (∀ source restore, (∀ a ∈ restore, ∃ x ∈ d.rows .expenses, a = x.allocation) →
      (AllocatesSoundly d amount source restore ↔
        (d.funds source restore = amount → .ofRat amount ≤ d.numberFunds source restore))) ∧
    (∀ ids dto currentUserId now, dto.amount = amount →
      Unguarded (createExpense ids dto currentUserId now) d) ∧
    ∀ ids id dto now, dto.amount = some amount → Unguarded (updateExpense ids id dto now) d := by
  have htotal := h.books.total hinitial
  refine ⟨fun source restore hrestore => ?_, fun ids dto currentUserId now hdto => ?_,
    fun ids id dto now hdto => ?_⟩
  · refine allocatesSoundly_iff hamount hdecimal h.inRange source fun a ha => ?_
    obtain ⟨x, hx, rfl⟩ := hrestore a ha
    exact x.taken (h.allocation_nonneg Expense.Agrees.allocation (Table.find?_of_mem hx))
  · exact unguarded_createExpense h htotal (hdto ▸ hdecimal) ids currentUserId now
  · refine unguarded_updateExpense h htotal (fun q hq => ?_) ids id now
    obtain rfl : amount = q := Option.some.inj (hdto.symm.trans hq)
    exact hdecimal

theorem allocation_sound_iff_withExpense :
    AllocatesSoundly withExpense 300000 .auto none ∧
      Unguarded (updateExpense ⟨2, 6, 7⟩ 1 ⟨none, none, some 300000, none, none, some .auto, none⟩
        ⟨2026, 5, 2⟩) withExpense := by
  obtain ⟨removed, h⟩ := withExpense_ledgerInvariant
  obtain ⟨hsound, -, hupdate⟩ := allocation_sound_iff h rfl (by norm_num : (0 : ℚ) < 300000)
    ⟨3000000000, by norm_num⟩
  exact ⟨(hsound .auto none (by simp)).2 fun _ => by decide +kernel, hupdate _ _ _ _ rfl⟩

/-! ### An amount that is all of the funds -/

/-- A donation of 485.8 in the SHU, and 22,433.6 left of the capital. -/
def withCents : Database :=
  runCalls LedgerCall.program (withDonationOf ⟨4858000, by decide⟩)
    [.createIncomeTransaction 1 1 (4858 / 10) .shu none ⟨2026, 5, 1⟩,
      .createExpense ⟨1, 4, 5⟩ ⟨1, "Listrik", 49775664 / 10, none, none, some .capital, none⟩ 1
        ⟨2026, 5, 1⟩]

theorem migrated_withDonationOf (amount : Money) : Migrated (withDonationOf amount) :=
  ⟨rfl, rfl, rfl, rfl, rfl⟩

theorem withCents_ledgerInvariant :
    ∃ removed, LedgerInvariant Expense.Agrees seeded.balances removed withCents :=
  (migrated_withDonationOf _).ledgerInvariant.after_calls _ (by decide +kernel)
    fun _ _ hdead => hdead

/-- 485.8 and 22,433.6 are 22,919.4, but their sum is 22,919.399999999998. -/
theorem not_allocatesSoundly_withCents :
    (∃ removed, LedgerInvariant Expense.Agrees seeded.balances removed withCents) ∧
      withCents.funds .total none = 229194 / 10 ∧
      ¬AllocatesSoundly withCents (229194 / 10) .total none := by
  refine ⟨withCents_ledgerInvariant, by decide +kernel, fun h => ?_⟩
  obtain ⟨a, ha, -⟩ := h.split (by decide +kernel)
  have hrefused : ((allocateAmounts (229194 / 10) (some .total) none).result withCents).isOk =
      false := by decide +kernel
  rw [ha] at hrefused
  cases hrefused

end Ledger

end LumbungMesari
