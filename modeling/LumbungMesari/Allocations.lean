import LumbungMesari.LedgerRuns
import LumbungMesari.Entries

/-!
# What an expense takes

An expense is allocated against the balances before anything is written, and the ledger row that
takes it is checked again by the trigger, against what the balances are by then. The second check
never fails where the first one passed: the allocation stays within the buckets, and what a
correction gives back first is what the visible row of the expense has taken.
-/

namespace LumbungMesari

open Sql Js
open Prog (inTrx onPool commitTrx)

/-! ### The decision -/

/-- The funds a source draws on, of amounts or of numbers. -/
def ExpenseSource.funds {α : Type} [Add α] (source : ExpenseSource) (shu capital : α) : α :=
  match source with
  | .shu => shu
  | .capital => capital
  | .total => shu + capital
  | .auto => shu + capital

/-- The value of a source. -/
def ExpenseSource.text : ExpenseSource → String
  | .auto => "auto"
  | .total => "total"
  | .capital => "capital"
  | .shu => "shu"

/-- What an amount takes from the buckets: the capital goes first where both are drawn on. -/
def ExpenseSource.split (source : ExpenseSource) (amount capital : ℚ) : Allocation :=
  match source with
  | .shu => ⟨amount, 0⟩
  | .capital => ⟨0, amount⟩
  | .total => ⟨amount - min amount capital, min amount capital⟩
  | .auto => ⟨amount - min amount capital, min amount capital⟩

/-- An amount is split over the buckets as its source has it, and within them. -/
structure Allocation.Sound (a : Allocation) (amount : ℚ) (source : ExpenseSource)
    (shu capital : ℚ) : Prop where
  nonneg : a.Nonneg
  sum : a.shuAmount + a.capitalAmount = amount
  shuWithin : a.shuAmount ≤ shu
  capitalWithin : a.capitalAmount ≤ capital
  fromShu : source = .shu → a.capitalAmount = 0
  fromCapital : source = .capital → a.shuAmount = 0

section Decision

variable {amount shu capital : ℚ} {source : ExpenseSource} {a : Allocation}

theorem ExpenseSource.split_sound (hamount : 0 < amount) (hshu : 0 ≤ shu) (hcapital : 0 ≤ capital)
    (h : amount ≤ source.funds shu capital) :
    (source.split amount capital).Sound amount source shu capital := by
  -- of both buckets, what is more than the capital is within the SHU
  have hboth : amount ≤ shu + capital → amount - min amount capital ≤ shu := fun h => by
    rcases min_choice amount capital with hmin | hmin <;> rw [hmin] <;> linarith
  cases source with
  | shu => exact ⟨⟨hamount.le, le_refl _⟩, add_zero _, h, hcapital, fun _ => rfl, nofun⟩
  | capital => exact ⟨⟨le_refl _, hamount.le⟩, zero_add _, hshu, h, nofun, fun _ => rfl⟩
  | total =>
      exact ⟨⟨sub_nonneg.2 (min_le_left _ _), le_min hamount.le hcapital⟩, sub_add_cancel _ _,
        hboth h, min_le_right _ _, nofun, nofun⟩
  | auto =>
      exact ⟨⟨sub_nonneg.2 (min_le_left _ _), le_min hamount.le hcapital⟩, sub_add_cancel _ _,
        hboth h, min_le_right _ _, nofun, nofun⟩

/-- A number that stands for what is in a bucket, which the columns bound. -/
structure Stands (x : Double) (q : ℚ) : Prop where
  nonneg : 0 ≤ q
  number : 0 ≤ x.val
  decimal : Sql.Decimal 4 q
  bounded : q ≤ 2 * 10 ^ 8
  close : x.Within (3 / 10 ^ 7) q

variable {s c : Double}

theorem Stands.add_within (hs : Stands s shu) (hc : Stands c capital) :
    (s + c).Within (7 / 10 ^ 7) (shu + capital) := by
  refine (hs.close.add_amount hc.close ?_).le (by norm_num)
  have := hs.bounded
  have := hc.bounded
  rw [abs_of_nonneg (add_nonneg hs.nonneg hc.nonneg)]
  linarith

/-- The funds as they are added stand for the funds. -/
theorem ExpenseSource.funds_within (hs : Stands s shu) (hc : Stands c capital) :
    (source.funds s c).Within (7 / 10 ^ 7) (source.funds shu capital) := by
  cases source with
  | shu => exact hs.close.le (by norm_num)
  | capital => exact hc.close.le (by norm_num)
  | total => exact hs.add_within hc
  | auto => exact hs.add_within hc

theorem ExpenseSource.funds_decimal (hs : Stands s shu) (hc : Stands c capital) :
    Sql.Decimal 4 (source.funds shu capital) := by
  cases source with
  | shu => exact hs.decimal
  | capital => exact hc.decimal
  | total => exact hs.decimal.add hc.decimal
  | auto => exact hs.decimal.add hc.decimal

theorem ExpenseSource.funds_le (hs : Stands s shu) (hc : Stands c capital) :
    source.funds shu capital ≤ 4 * 10 ^ 8 := by
  have := hs.bounded
  have := hc.bounded
  cases source <;> simp only [ExpenseSource.funds] <;> linarith

/-- Numbers are compared as the amounts are, unless these are the same. -/
theorem lt_ofRat {x : Double} {q : ℚ} (hx : x.Within (7 / 10 ^ 7) q) (hq : Sql.Decimal 4 q)
    (hbound : |q| ≤ 4 * 10 ^ 8) (hdecimal : Sql.Decimal 4 amount) (h : q < amount) :
    x < Double.ofRat amount := by
  rcases le_or_gt |amount| (10 ^ 9) with hsmall | hlarge
  · exact hx.lt_of_decimal (Double.within_amount hsmall) hq hdecimal (by norm_num) h
  · -- a number this large is at least half the amount
    have hpos : 0 < amount := by
      rcases abs_cases amount with ⟨-, h₀⟩ | ⟨habs, -⟩
      · exact h₀.lt_of_ne fun h₀ => by rw [← h₀, abs_zero] at hlarge; linarith
      · rw [habs] at hlarge
        have := (abs_le.1 hbound).1
        linarith
    have hhalf := (abs_le.1 (abs_nearest_sub_le_half (q := amount) (k := -24) (by norm_num)
      (by norm_num at hlarge ⊢; linarith))).1
    have hclose := (abs_le.1 hx).2
    have hq := (abs_le.1 hbound).2
    rw [abs_of_pos hpos] at hhalf hlarge
    change x.val < nearest amount
    norm_num at hclose hq hlarge
    linarith

theorem ofRat_lt {x : Double} {q : ℚ} (hx : x.Within (7 / 10 ^ 7) q) (hq : Sql.Decimal 4 q)
    (hamount : 0 ≤ amount) (hbound : q ≤ 4 * 10 ^ 8) (hdecimal : Sql.Decimal 4 amount)
    (h : amount < q) : Double.ofRat amount < x := by
  refine (Double.within_amount ?_).lt_of_decimal hx hdecimal hq (by norm_num) h
  rw [abs_of_nonneg hamount]
  linarith

theorem allocate_eq {x : Double} (hs : 0 ≤ s.val) (hc : 0 ≤ c.val) :
    (source.funds s c < x ∧
      allocate x (some source) s c = .error (insufficientFundsError source.text)) ∨
    (x ≤ source.funds s c ∧ ∃ a, allocate x (some source) s c = .ok a ∧
      ((source = .shu ∧ a = ⟨x, 0⟩) ∨ (source = .capital ∧ a = ⟨0, x⟩) ∨
        ((source = .total ∨ source = .auto) ∧
          a = if x ≤ c then ⟨0, x⟩ else ⟨x - c, c⟩))) := by
  cases source with
  | shu =>
      rw [allocate]
      split
      · exact .inl ⟨‹_›, rfl⟩
      · exact .inr ⟨not_lt.1 ‹_›, _, rfl, .inl ⟨rfl, rfl⟩⟩
  | capital =>
      rw [allocate]
      split
      · exact .inl ⟨‹_›, rfl⟩
      · exact .inr ⟨not_lt.1 ‹_›, _, rfl, .inr (.inl ⟨rfl, rfl⟩)⟩
  | total =>
      rw [allocate]
      split
      · exact .inl ⟨‹_›, rfl⟩
      · refine .inr ⟨not_lt.1 ‹_›, ?_⟩
        split
        · exact ⟨_, rfl, .inr (.inr ⟨.inl rfl, rfl⟩)⟩
        · exact ⟨_, rfl, .inr (.inr ⟨.inl rfl, rfl⟩)⟩
  | auto =>
      rw [allocate]
      split
      · exact .inr ⟨le_trans ‹_› (Double.le_add hs hc), _, rfl, .inr (.inr ⟨.inr rfl, rfl⟩)⟩
      · split
        · exact .inr ⟨‹_›, _, rfl, .inr (.inr ⟨.inr rfl, rfl⟩)⟩
        · exact .inl ⟨not_le.1 ‹_›, rfl⟩

theorem stored_split {split : Split} (hamount : 0 < amount) (hdecimal : Sql.Decimal 4 amount)
    (hc : Stands c capital) (hle : amount ≤ 4 * 10 ^ 8)
    (h : (source = .shu ∧ split = ⟨.ofRat amount, 0⟩) ∨
      (source = .capital ∧ split = ⟨0, .ofRat amount⟩) ∨
      ((source = .total ∨ source = .auto) ∧
        split = if .ofRat amount ≤ c then ⟨0, .ofRat amount⟩ else ⟨.ofRat amount - c, c⟩)) :
    split.stored = source.split amount capital := by
  have habs : |amount| ≤ 4 * 10 ^ 8 := by rwa [abs_of_pos hamount]
  have hx : (Double.ofRat amount).Within (1 / 10 ^ 7) amount :=
    Double.within_amount (habs.trans (by norm_num))
  have hstored : (Double.ofRat amount).toNumeric 4 = amount :=
    hx.toNumeric hdecimal (by norm_num) (habs.trans (by norm_num))
  have hboth : (if .ofRat amount ≤ c then (⟨0, .ofRat amount⟩ : Split)
      else ⟨.ofRat amount - c, c⟩).stored =
        ⟨amount - min amount capital, min amount capital⟩ := by
    split
    · rename_i hcovered
      have hmin : amount ≤ capital := not_lt.1 fun hmore => absurd hcovered (not_le.2
        (hc.close.lt_of_decimal hx hc.decimal hdecimal (by norm_num) hmore))
      rw [Split.stored, hstored, Double.toNumeric_zero, min_eq_left hmin, sub_self]
    · rename_i hshort
      have hmin : capital ≤ amount := not_lt.1 fun hless => hshort
        (hx.lt_of_decimal hc.close hdecimal hc.decimal (by norm_num) hless).le
      have hrest : |amount - capital| ≤ 4 * 10 ^ 8 := by
        have := hc.nonneg
        rw [abs_of_nonneg (sub_nonneg.2 hmin)]
        linarith
      have hcapital : |capital| ≤ 5 * 10 ^ 8 := by
        have := hc.bounded
        rw [abs_of_nonneg hc.nonneg]
        linarith
      rw [Split.stored, min_eq_right hmin, hc.close.toNumeric hc.decimal (by norm_num) hcapital,
        (hx.sub_amount hc.close (by linarith)).toNumeric (hdecimal.sub hc.decimal) (by norm_num)
          (hrest.trans (by norm_num))]
  rcases h with ⟨rfl, rfl⟩ | ⟨rfl, rfl⟩ | ⟨rfl | rfl, rfl⟩
  · rw [Split.stored, hstored, Double.toNumeric_zero]
    rfl
  · rw [Split.stored, hstored, Double.toNumeric_zero]
    rfl
  · exact hboth
  · exact hboth

/-- An amount is refused when the funds of its source, as they are added, are less. They are not
where the funds are more, and where an amount is taken it is split as it is. -/
theorem allocate_cases (hamount : 0 < amount) (hdecimal : Sql.Decimal 4 amount)
    (hs : Stands s shu) (hc : Stands c capital) (source : ExpenseSource) :
    (source.funds s c < .ofRat amount ∧ source.funds shu capital ≤ amount ∧
      allocate (.ofRat amount) (some source) s c =
        .error (insufficientFundsError source.text)) ∨
    (.ofRat amount ≤ source.funds s c ∧ amount ≤ source.funds shu capital ∧
      ∃ split, allocate (.ofRat amount) (some source) s c = .ok split ∧
        split.stored = source.split amount capital) := by
  have hwithin := source.funds_within hs hc
  have hfunds := source.funds_decimal hs hc
  have hle := source.funds_le hs hc
  have hnonneg : 0 ≤ source.funds shu capital := by
    have := hs.nonneg
    have := hc.nonneg
    cases source <;> simp only [ExpenseSource.funds] <;> linarith
  rcases (allocate_eq hs.number hc.number : _ ∨ (Double.ofRat amount ≤ source.funds s c ∧ _)) with
    ⟨hshort, he⟩ | ⟨henough, split, hok, hsplit⟩
  · refine .inl ⟨hshort, not_lt.1 fun hmore => ?_, he⟩
    exact absurd hshort (ofRat_lt hwithin hfunds hamount.le hle hdecimal hmore).not_gt
  · have hcovered : amount ≤ source.funds shu capital := not_lt.1 fun hless =>
      absurd henough (lt_ofRat hwithin hfunds (by rwa [abs_of_nonneg hnonneg]) hdecimal
        hless).not_ge
    exact .inr ⟨henough, hcovered, split, hok,
      stored_split hamount hdecimal hc (hcovered.trans hle) hsplit⟩

end Decision

/-! ### The balances it decides on -/

/-- What an expense has taken, as its columns hold it. -/
structure Allocation.Taken (a : Allocation) : Prop where
  nonneg : a.Nonneg
  decimal : a.Decimal
  shuBounded : a.shuAmount ≤ 10 ^ 8
  capitalBounded : a.capitalAmount ≤ 10 ^ 8

theorem Expense.taken (x : Expense) (h : x.allocation.Nonneg) : x.allocation.Taken :=
  ⟨h, x.decimal_allocation, x.shuAmount.toRat_le, x.capitalAmount.toRat_le⟩

theorem Allocation.none_taken : ∀ a ∈ (none : Option Allocation), a.Taken := by simp

theorem Allocation.some_taken {x : Expense} (h : x.allocation.Nonneg) :
    ∀ a ∈ some x.allocation, a.Taken := by
  rintro _ ⟨⟩
  exact x.taken h

theorem restored_none (balance : ℚ) : restored balance none = .ofRat balance :=
  Double.add_zero _

/-- The funds of a source, with what is given back first. -/
def Database.funds (d : Database) (source : ExpenseSource) (restore : Option Allocation) : ℚ :=
  source.funds (d.balance .shu + restore.elim 0 (·.shuAmount))
    (d.balance .capital + restore.elim 0 (·.capitalAmount))

/-- The funds as the service adds them up. -/
def Database.numberFunds (d : Database) (source : ExpenseSource) (restore : Option Allocation) :
    Double :=
  source.funds (restored (d.balance .shu) (restore.map (·.shuAmount)))
    (restored (d.balance .capital) (restore.map (·.capitalAmount)))

/-- What `allocateAmounts` decides, as it is stored. -/
def Database.allocates (d : Database) (amount : ℚ) (source : Option ExpenseSource)
    (restore : Option Allocation) : Except Error Allocation :=
  (allocate (.ofRat amount) source (restored (d.balance .shu) (restore.map (·.shuAmount)))
    (restored (d.balance .capital) (restore.map (·.capitalAmount)))).map Split.stored

section Allocating

variable {d d' : Database} {s s' : Trx} {amount : ℚ} {source : Option ExpenseSource}
  {restore : Option Allocation} {a : Allocation}

theorem balance_le (hrange : d.InRange) (b : BalanceType) : d.balance b ≤ 10 ^ 8 := by
  have hb : (d.balances b : ℚ) ≤ 10 ^ 12 := by exact_mod_cast (hrange b).2.le
  rw [Database.balance, div_le_iff₀ (by positivity)]
  linarith

theorem stands_restored {balance : ℚ} {restore : Option ℚ} (hbalance : 0 ≤ balance)
    (hdecimal : Sql.Decimal 4 balance) (hle : balance ≤ 10 ^ 8)
    (hrestore : ∀ q ∈ restore, 0 ≤ q ∧ Sql.Decimal 4 q ∧ q ≤ 10 ^ 8) :
    Stands (restored balance restore) (balance + restore.elim 0 id) := by
  have hwithin : ∀ {q : ℚ}, 0 ≤ q → q ≤ 10 ^ 8 → (Double.ofRat q).Within (1 / 10 ^ 7) q :=
    fun hq hle => Double.within_amount (by rw [abs_of_nonneg hq]; linarith)
  have hnumber := restored_nonneg hbalance fun q hq => (hrestore q hq).1
  cases restore with
  | none =>
      rw [restored_none] at hnumber ⊢
      rw [Option.elim_none, add_zero]
      exact ⟨hbalance, hnumber, hdecimal, by linarith, (hwithin hbalance hle).le (by norm_num)⟩
  | some q =>
      obtain ⟨hq, hqdecimal, hqle⟩ := hrestore q rfl
      refine ⟨add_nonneg hbalance hq, hnumber, hdecimal.add hqdecimal, ?_, ?_⟩
      · rw [Option.elim_some, id]
        linarith
      · refine ((hwithin hbalance hle).add_amount (hwithin hq hqle) ?_).le (by norm_num)
        rw [abs_of_nonneg (add_nonneg hbalance hq)]
        linarith

theorem stands_shu (hrange : d.InRange) (hrestore : ∀ a ∈ restore, a.Taken) :
    Stands (restored (d.balance .shu) (restore.map (·.shuAmount)))
      (d.balance .shu + restore.elim 0 (·.shuAmount)) := by
  have hrestored : ∀ q ∈ restore.map (·.shuAmount), 0 ≤ q ∧ Sql.Decimal 4 q ∧ q ≤ 10 ^ 8 := by
    intro q hq
    obtain ⟨a, ha, rfl⟩ := Option.map_eq_some_iff.1 hq
    have ha := hrestore a ha
    exact ⟨ha.nonneg.1, ha.decimal.1, ha.shuBounded⟩
  have hstands := stands_restored (balance_nonneg hrange .shu) (d.decimal_balance .shu)
    (balance_le hrange .shu) hrestored
  cases restore <;> exact hstands

theorem stands_capital (hrange : d.InRange) (hrestore : ∀ a ∈ restore, a.Taken) :
    Stands (restored (d.balance .capital) (restore.map (·.capitalAmount)))
      (d.balance .capital + restore.elim 0 (·.capitalAmount)) := by
  have hrestored : ∀ q ∈ restore.map (·.capitalAmount), 0 ≤ q ∧ Sql.Decimal 4 q ∧ q ≤ 10 ^ 8 := by
    intro q hq
    obtain ⟨a, ha, rfl⟩ := Option.map_eq_some_iff.1 hq
    have ha := hrestore a ha
    exact ⟨ha.nonneg.2, ha.decimal.2, ha.capitalBounded⟩
  have hstands := stands_restored (balance_nonneg hrange .capital) (d.decimal_balance .capital)
    (balance_le hrange .capital) hrestored
  cases restore <;> exact hstands

/-- What is refused and what is stored, in a state. -/
theorem Database.allocates_cases (hrange : d.InRange) (hrestore : ∀ a ∈ restore, a.Taken)
    (hamount : 0 < amount) (hdecimal : Sql.Decimal 4 amount) (source : ExpenseSource) :
    (d.numberFunds source restore < .ofRat amount ∧ d.funds source restore ≤ amount ∧
      d.allocates amount (some source) restore = .error (insufficientFundsError source.text)) ∨
    (.ofRat amount ≤ d.numberFunds source restore ∧ amount ≤ d.funds source restore ∧
      d.allocates amount (some source) restore =
        .ok (source.split amount (d.balance .capital + restore.elim 0 (·.capitalAmount)))) := by
  rcases allocate_cases hamount hdecimal (stands_shu hrange hrestore)
    (stands_capital hrange hrestore) source with ⟨hshort, hle, he⟩ | ⟨henough, hle, split, hok, hs⟩
  · exact .inl ⟨hshort, hle, by rw [allocates, he]; rfl⟩
  · exact .inr ⟨henough, hle, by rw [allocates, hok, ← hs]; rfl⟩

theorem Database.split_sound (hrange : d.InRange) (hrestore : ∀ a ∈ restore, a.Taken)
    (hamount : 0 < amount) {source : ExpenseSource} (h : amount ≤ d.funds source restore) :
    (source.split amount (d.balance .capital + restore.elim 0 (·.capitalAmount))).Sound amount
      source (d.balance .shu + restore.elim 0 (·.shuAmount))
      (d.balance .capital + restore.elim 0 (·.capitalAmount)) :=
  source.split_sound hamount (stands_shu hrange hrestore).nonneg
    (stands_capital hrange hrestore).nonneg h

theorem Database.allocates_ok (h : d.allocates amount source restore = .ok a) : ∃ split,
    allocate (.ofRat amount) source (restored (d.balance .shu) (restore.map (·.shuAmount)))
      (restored (d.balance .capital) (restore.map (·.capitalAmount))) = .ok split ∧
    split.stored = a := by
  unfold Database.allocates at h
  cases hsplit : allocate (.ofRat amount) source
    (restored (d.balance .shu) (restore.map (·.shuAmount)))
    (restored (d.balance .capital) (restore.map (·.capitalAmount))) with
  | error e =>
      rw [hsplit] at h
      cases h
  | ok split =>
      rw [hsplit] at h
      exact ⟨split, rfl, Except.ok.inj h⟩

theorem Database.allocates_decimal (h : d.allocates amount source restore = .ok a) :
    a.Decimal := by
  obtain ⟨split, -, rfl⟩ := Database.allocates_ok h
  exact split.decimal_stored

theorem Database.allocates_nonneg (hrange : d.InRange) (hrestore : ∀ a ∈ restore, a.Nonneg)
    (hamount : 0 < amount) (h : d.allocates amount source restore = .ok a) : a.Nonneg := by
  obtain ⟨split, hok, rfl⟩ := Database.allocates_ok h
  refine Split.stored_nonneg (nearest_nonneg hamount.le)
    (restored_nonneg (balance_nonneg hrange .capital) fun q hq => ?_) hok
  obtain ⟨a, ha, rfl⟩ := Option.map_eq_some_iff.1 hq
  exact (hrestore a ha).2

theorem allocateAmounts_returns : (allocateAmounts amount source restore).Returns d s a d' s' ↔
    d = d' ∧ (s.view d).allocates amount source restore = .ok a ∧
      s' = s.extend [] [(.balance .shu, .update), (.balance .capital, .update)] := by
  unfold allocateAmounts
  rw [Prog.returns_bind]
  constructor
  · rintro ⟨⟨shu, capital⟩, d₁, s₁, hlock, hdecide⟩
    obtain ⟨rfl, ws, hexec, rfl⟩ := Prog.returns_inTrx.1 hlock
    cases hexec
    dsimp only at hdecide
    split at hdecide
    · exact (Prog.returns_throw.1 hdecide).elim
    · rename_i split ha
      obtain ⟨rfl, rfl, rfl⟩ := Prog.returns_pure.1 hdecide
      exact ⟨rfl, by rw [Database.allocates, ha]; rfl, rfl⟩
  · rintro ⟨rfl, ha, rfl⟩
    refine ⟨_, d, _, Prog.returns_inTrx.2 ⟨rfl, [], rfl, rfl⟩, ?_⟩
    obtain ⟨split, hsplit, rfl⟩ := Database.allocates_ok ha
    dsimp only
    rw [show allocate (.ofRat amount) source _ _ = .ok split from hsplit]
    exact Prog.returns_pure.2 ⟨rfl, rfl, rfl⟩

theorem allocateAmounts_throws {R : Error → Prop}
    (h : ∀ e, (s.view d).allocates amount source restore = .error e → R e) :
    (allocateAmounts amount source restore).Throws R d s := by
  unfold allocateAmounts
  refine Prog.throws_of_returns throws_selectForUpdate fun balances d' s' hlock => ?_
  obtain ⟨rfl, ws, hexec, rfl⟩ := Prog.returns_inTrx.1 hlock
  cases hexec
  dsimp only
  split
  · rename_i he
    exact Prog.throws_throw (h _ (by rw [Database.allocates, he]; rfl))
  · exact Prog.throws_pure _

theorem allocateAmounts_result :
    (allocateAmounts amount source restore).result d = d.allocates amount source restore := by
  cases h : d.allocates amount source restore with
  | ok a => exact Prog.result_eq_ok.2 ⟨d, _, allocateAmounts_returns.2 ⟨rfl, h, rfl⟩⟩
  | error e =>
      cases hresult : (allocateAmounts amount source restore).result d with
      | ok a =>
          obtain ⟨d', s', hreturns⟩ := Prog.result_eq_ok.1 hresult
          have hok := (allocateAmounts_returns.1 hreturns).2.1
          rw [Session.view_idle, h] at hok
          cases hok
      | error e' =>
          have hthrows : (allocateAmounts amount source restore).Throws (· = e) d .idle :=
            allocateAmounts_throws fun e' he' => by
              rw [Session.view_idle, h] at he'
              exact (Except.error.inj he').symm
          rw [hthrows.of_result hresult]

end Allocating

/-! ### Creation -/

section Amounts

variable {a : Allocation} {amount shu capital : ℚ} {source : ExpenseSource} {ms mc : Money}

theorem exists_money {q : ℚ} (hdecimal : Sql.Decimal 4 q) (hnonneg : 0 ≤ q) {z : ℤ}
    (hle : q ≤ z / 10 ^ 4) (hz : z < 10 ^ 12) : ∃ m : Money, m.toRat = q := by
  obtain ⟨n, hn⟩ := hdecimal
  have hq : q = n / 10 ^ 4 := by rw [← hn]; field_simp
  rw [hq, div_le_div_iff_of_pos_right (by positivity), Int.cast_le] at hle
  have hn₀ : 0 ≤ n := by
    have : (0 : ℚ) ≤ n := hn ▸ by positivity
    exact_mod_cast this
  exact ⟨⟨n, by omega⟩, hq.symm⟩

theorem money_exact {q : ℚ} {m : Money} (hdecimal : Sql.Decimal 4 q)
    (h : Numeric.ofRat? q = some m) : m.toRat = q := by
  rw [Numeric.toRat, Numeric.ofRat?_some h, hdecimal.round]
  field_simp

theorem toRat_le_iff {m : Money} {z : ℤ} : m.toRat ≤ z / 10 ^ 4 ↔ m.units ≤ z := by
  rw [Numeric.toRat, div_le_div_iff_of_pos_right (by positivity), Int.cast_le]

theorem Allocation.Sound.covered (balances : BalanceType → ℤ) (hamount : 0 < amount)
    (hshu : a.shuAmount = ms.toRat) (hcapital : a.capitalAmount = mc.toRat)
    (h : a.Sound amount source (balances .shu / 10 ^ 4) (balances .capital / 10 ^ 4))
    (htotal : balances .total = balances .shu + balances .capital) : Covered balances (-1) ms mc := by
  have hshuNonneg : 0 ≤ ms.units := Numeric.toRat_nonneg.1 (hshu ▸ h.nonneg.1)
  have hcapitalNonneg : 0 ≤ mc.units := Numeric.toRat_nonneg.1 (hcapital ▸ h.nonneg.2)
  have hshuWithin : ms.units ≤ balances .shu := toRat_le_iff.1 (hshu ▸ h.shuWithin)
  have hcapitalWithin : mc.units ≤ balances .capital :=
    toRat_le_iff.1 (hcapital ▸ h.capitalWithin)
  refine ⟨hshuNonneg, hcapitalNonneg, ?_, fun b => ?_⟩
  · have hsum := h.sum
    rw [hshu, hcapital] at hsum
    by_contra hnone
    have hms : ms = 0 := Numeric.ext (by rw [Numeric.units_zero]; omega)
    have hmc : mc = 0 := Numeric.ext (by rw [Numeric.units_zero]; omega)
    rw [hms, hmc] at hsum
    simp [Numeric.toRat] at hsum
    exact hamount.ne hsum
  · cases b <;> simp only [amountsOf] <;> omega

end Amounts

section Rows

variable {e : Error}

theorem NewExpense.toRow_error {data : NewExpense} {id : Uuid} {ms mc : Money}
    (hshu : data.shuAmount = ms.toRat) (hcapital : data.capitalAmount = mc.toRat)
    (hpositive : 0 < ms.units + mc.units) : data.toRow id ≠ .error e := by
  intro h
  rcases bind_error h with h | ⟨shuAmount, hshu', h⟩
  · have hnone := (money_error h).2
    rw [hshu, Numeric.ofRat?_toRat] at hnone
    cases hnone
  rcases bind_error h with h | ⟨capitalAmount, hcapital', h⟩
  · have hnone := (money_error h).2
    rw [hcapital, Numeric.ofRat?_toRat] at hnone
    cases hnone
  rw [hshu] at hshu'
  rw [hcapital] at hcapital'
  have hms := money_ok hshu'
  have hmc := money_ok hcapital'
  rw [Numeric.ofRat?_toRat, Option.some.injEq] at hms hmc
  subst hms hmc
  rw [dif_pos hpositive] at h
  cases h

theorem NewExpense.toRow_createdBy {data : NewExpense} {id : Uuid} {x : Expense}
    (h : data.toRow id = .ok x) : x.createdBy = data.createdBy := by
  obtain ⟨_, -, h⟩ := bind_ok h
  obtain ⟨_, -, h⟩ := bind_ok h
  split at h
  · cases h
    rfl
  · cases h

theorem insertRow_expense_error {d : Database} {x : Expense}
    (h : insertRow d .expenses x = .error e) :
    (e = .uniqueViolation ∧ d.find .expenses x.id ≠ none) ∨
      (e = .foreignKeyViolation ∧
        ∃ ref ∈ Row.references .expenses x, d.find ref.1 ref.2 = none) := by
  rcases insertRow_error h with h | ⟨rfl, hfresh | ⟨_, hk, -⟩⟩ | ⟨rfl, href⟩ | h
  · cases h
  · exact .inl ⟨rfl, hfresh⟩
  · cases hk
  · exact .inr ⟨rfl, href⟩
  · cases h

end Rows

/-- Why an expense cannot be created. -/
inductive Uncreatable (d : Database) (ids : ExpenseIds) (dto : CreateExpenseDto)
    (currentUserId : Uuid) : Error → Prop where
  | amount {e : Error} (refused : checkAmount dto.amount = .error e) :
      Uncreatable d ids dto currentUserId e
  | category (missing : d.find .expenseCategories dto.expenseCategoryId = none) :
      Uncreatable d ids dto currentUserId (expenseCategoryNotFoundError dto.expenseCategoryId)
  | funds {category : ExpenseCategory}
      (found : d.find .expenseCategories dto.expenseCategoryId = some category)
      (short : d.numberFunds (dto.source.getD category.defaultSource) none <
        .ofRat dto.amount) :
      Uncreatable d ids dto currentUserId
        (insufficientFundsError (dto.source.getD category.defaultSource).text)
  | duplicate (taken : d.find .expenses ids.expense ≠ none ∨
      d.find .cashbookTransactions ids.ledger ≠ none) :
      Uncreatable d ids dto currentUserId .uniqueViolation
  | reference {ref : TableName × Uuid}
      (mem : ref ∈ (.users, currentUserId) :: dto.loanId.toList.map (.loans, ·))
      (missing : d.find ref.1 ref.2 = none) :
      Uncreatable d ids dto currentUserId .foreignKeyViolation

section Creation

variable {d : Database} {ids : ExpenseIds} {dto : CreateExpenseDto} {currentUserId : Uuid}
  {now : Date} {R : Error → Prop}

theorem returns_selectOnPool {α β : Type} {read : Database → β} {f : β → Program α} {s s' : Trx}
    {a : α} {d' : Database} : (onPool (select read) >>= f).Returns d s a d' s' ↔
      (f (read d)).Returns d s a d' s' := Iff.rfl

theorem throws_selectOnPool {α β : Type} {read : Database → β} {f : β → Program α} {s : Trx}
    (h : (f (read d)).Throws R d s) : (onPool (select read) >>= f).Throws R d s := h

theorem exists_moneys {a : Allocation} {amount : ℚ} {source : ExpenseSource} (hrange : d.InRange)
    (ha : a.Sound amount source (d.balance .shu) (d.balance .capital)) (hdecimal : a.Decimal) :
    ∃ ms mc : Money, a.shuAmount = ms.toRat ∧ a.capitalAmount = mc.toRat := by
  obtain ⟨ms, hms⟩ := exists_money hdecimal.1 ha.nonneg.1 ha.shuWithin (hrange .shu).2
  obtain ⟨mc, hmc⟩ := exists_money hdecimal.2 ha.nonneg.2 ha.capitalWithin (hrange .capital).2
  exact ⟨ms, mc, hms.symm, hmc.symm⟩

theorem createExpenseTransaction_throws {x : Expense} {ms mc : Money} {l : Locks}
    (hfresh : d.find .expenses x.id = none) (hrange : d.InRange) (hcovered : Covered d.balances (-1) ms mc)
    (h : d.find .cashbookTransactions ids.ledger ≠ none → R .uniqueViolation) :
    (createExpenseTransaction ids.ledger x.id ms.toRat mc.toRat (some x.txnDate) now).Throws R d
      (Session.idle.extend [.insert .expenses x] l) := by
  have hview : ∀ l, (Session.idle.extend [.insert .expenses x] l).view d =
      d.apply (.insert .expenses x) := fun l => Session.view_extend ..
  rw [createExpenseTransaction]
  refine Prog.throws_bind (Q := fun before d' s' => before = d.current ∧ d = d' ∧
      ∃ l', s' = Session.idle.extend [.insert .expenses x] l') throws_selectForUpdate ?_ ?_
  · refine lockAllForUpdate_wp fun d' l' henv _ => ?_
    obtain rfl : d = d' := henv
    refine ⟨?_, rfl, l ++ l', by rw [extend_extend, List.append_nil]⟩
    rw [hview]
    rfl
  rintro _ _ _ ⟨rfl, rfl, l', rfl⟩
  refine createTransaction_throws ms mc ?_ ?_ ?_ fun e he => ?_
  · rw [hview]
    constructor <;> simp [expenseEntry, Database.current, Database.balance, Direction.sign,
      sub_eq_add_neg]
  · rw [hview]
    exact hrange
  · rw [hview]
    exact hcovered
  · rw [hview] at he
    cases he with
    | duplicate taken =>
        refine h fun hnone => taken ?_
        rw [Database.find_congr (d.table_insert_ne (t := .expenses) (by decide) x)]
        exact hnone
    | reference missing =>
        have hfound : (d.apply (.insert .expenses x)).find .expenses x.id = some x := by
          rw [Database.find_insert, if_pos rfl, hfresh]
          rfl
        rw [show (d.apply (.insert .expenses x)).find .expenses x.id = none from missing] at hfound
        cases hfound
    | overflow full =>
        exact absurd (hcovered.holds fun b => (hrange b).2) full

theorem covered_of_allocates {amount : ℚ} {source : ExpenseSource} {a : Allocation}
    (hrange : d.InRange) (htotal : d.balances .total = d.balances .shu + d.balances .capital)
    (hamount : 0 < amount) (hdecimal : Sql.Decimal 4 amount)
    (h : d.allocates amount (some source) none = .ok a) :
    ∃ ms mc : Money, a.shuAmount = ms.toRat ∧ a.capitalAmount = mc.toRat ∧
      Covered d.balances (-1) ms mc := by
  rcases Database.allocates_cases hrange Allocation.none_taken hamount hdecimal source with
    ⟨-, -, he⟩ | ⟨-, hle, ha⟩
  · cases h.symm.trans he
  · have hsound : a.Sound amount source (d.balance .shu) (d.balance .capital) := by
      rw [Except.ok.inj (h.symm.trans ha)]
      simpa using Database.split_sound hrange Allocation.none_taken hamount hle
    obtain ⟨ms, mc, hms, hmc⟩ := exists_moneys hrange hsound (Database.allocates_decimal h)
    exact ⟨ms, mc, hms, hmc, hsound.covered d.balances hamount hms hmc htotal⟩

theorem createExpenseInTransaction_throws (hrange : d.InRange)
    (htotal : d.balances .total = d.balances .shu + d.balances .capital)
    (hamount : 0 < dto.amount) (hdecimal : Sql.Decimal 4 dto.amount)
    (h : ∀ e, Uncreatable d ids dto currentUserId e → R e) :
    (createExpenseInTransaction ids dto currentUserId now).Throws R d .idle := by
  unfold createExpenseInTransaction findExpenseCategoryById
  refine throws_selectOnPool ?_
  split
  · exact Prog.throws_throw (h _ (.category ‹_›))
  rename_i category hcategory
  refine Prog.throws_of_returns (allocateAmounts_throws fun e he => ?_) fun a d' s' ha => ?_
  · rw [Session.view_idle] at he
    rcases Database.allocates_cases hrange Allocation.none_taken hamount hdecimal
      (dto.source.getD category.defaultSource) with ⟨hshort, -, he'⟩ | ⟨-, -, ha⟩
    · obtain rfl := Except.error.inj (he'.symm.trans he)
      exact h _ (.funds hcategory hshort)
    · rw [ha] at he
      cases he
  obtain ⟨rfl, hdecided, rfl⟩ := allocateAmounts_returns.1 ha
  rw [Session.view_idle] at hdecided
  obtain ⟨ms, mc, hms, hmc, hcovered⟩ :=
    covered_of_allocates hrange htotal hamount hdecimal hdecided
  rw [hms, hmc]
  refine Prog.throws_bind (Q := fun x d' s' => d = d' ∧ d.find .expenses x.id = none ∧ ∃ l,
    s' = Session.idle.extend [.insert .expenses x] l) (throws_insertInto (fun e he => ?_)
      fun x e hx he => ?_) (wp_insertInto fun d' x ws l henv hx hinsert _ => ?_) ?_
  · exact absurd he (NewExpense.toRow_error rfl rfl hcovered.positive)
  · have hstored := NewExpense.toRow_ok hx
    rcases insertRow_expense_error he with ⟨rfl, hfresh⟩ | ⟨rfl, ref, href, hmissing⟩
    · rw [hstored.id] at hfresh
      exact h _ (.duplicate (.inl hfresh))
    · rw [Row.references, List.cons_append, hstored.expenseCategoryId, hstored.loanId,
        NewExpense.toRow_createdBy hx] at href
      rcases List.mem_cons.1 href with rfl | href
      · cases hcategory.symm.trans hmissing
      · exact h _ (.reference href hmissing)
  · obtain rfl : d = d' := henv
    obtain ⟨hinserted, rfl⟩ := insertRow_plain (by decide) hinsert
    exact ⟨rfl, hinserted.fresh, _, extend_extend ..⟩
  · rintro x _ _ ⟨rfl, hfresh, l, rfl⟩
    exact Prog.throws_of_returns (createExpenseTransaction_throws hfresh hrange hcovered
      fun htaken => h _ (.duplicate (.inr htaken))) fun _ _ _ _ => Prog.throws_pure _

theorem readExpense_throws {id : Uuid} {s : Trx} (h : d.find .expenses id ≠ none) :
    (readExpense id).Throws R d s := by
  unfold readExpense findByIdWithCategory
  refine throws_selectOnPool ?_
  obtain ⟨x, hx⟩ := Option.ne_none_iff_exists'.1 h
  rw [hx]
  exact Prog.throws_pure _

theorem createExpense_throws (hrange : d.InRange)
    (htotal : d.balances .total = d.balances .shu + d.balances .capital)
    (hdecimal : Sql.Decimal 4 dto.amount) :
    (createExpense ids dto currentUserId now).Throws (Uncreatable d ids dto currentUserId) d
      .idle := by
  unfold createExpense
  split
  · exact Prog.throws_throw (.amount ‹_›)
  have hamount := checkAmount_ok ‹_›
  refine Prog.throws_bind (Q := fun x d' s' => d = d' ∧ (s'.view d).find .expenses x.id ≠ none)
    (createExpenseInTransaction_throws hrange htotal hamount hdecimal fun e he => he)
    (createExpenseInTransaction_wp hamount (fun d' henv => ?_)
      fun d₁ d' category x r l henv₁ henv _ hcreated _ => ?_) ?_
  · obtain rfl : d = d' := henv
    exact hrange
  · obtain rfl : d = d₁ := henv₁
    obtain rfl : d = d' := henv
    refine ⟨rfl, ?_⟩
    rw [Session.view_extend, applyAll_cons, Database.store_apply,
      Database.find_congr (CashbookTransaction.table_postings_ne _ (by decide)),
      Database.find_insert, if_pos rfl, hcreated.fresh]
    simp
  · rintro x _ s' ⟨rfl, hfound⟩
    refine Prog.throws_of_returns Prog.throws_commitTrx fun _ d' s'' hcommit => ?_
    obtain ⟨rfl, -⟩ := Prog.returns_commitTrx.1 hcommit
    exact readExpense_throws hfound

/-- What an expense was created with. -/
structure Created (d : Database) (ids : ExpenseIds) (dto : CreateExpenseDto)
    (category : ExpenseCategory) (a : Allocation) (x : Expense) (r : CashbookTransaction) :
    Prop where
  found : d.find .expenseCategories dto.expenseCategoryId = some category
  allocated : d.allocates dto.amount (some (dto.source.getD category.defaultSource)) none = .ok a
  shuAmount : Numeric.ofRat? a.shuAmount = some x.shuAmount
  capitalAmount : Numeric.ofRat? a.capitalAmount = some x.capitalAmount
  created : ExpenseCreated d ids dto (dto.source.getD category.defaultSource) x r

theorem Created.find {category : ExpenseCategory} {a : Allocation} {x : Expense}
    {r : CashbookTransaction} (h : Created d ids dto category a x r) (id : Uuid) :
    (applyAll d (.insert .expenses x :: r.postings)).find .expenses id =
      if id = x.id then some x else d.find .expenses id := by
  rw [applyAll_cons, Database.store_apply,
    Database.find_congr (CashbookTransaction.table_postings_ne _ (by decide)), Database.find_insert]
  by_cases he : id = x.id
  · rw [if_pos he, if_pos he.symm, he, h.created.fresh]
    rfl
  · rw [if_neg he, if_neg (Ne.symm he)]

theorem createExpenseInTransaction_returns (hrange : d.InRange) (hamount : 0 < dto.amount)
    {x : Expense} {d' : Database} {s' : Trx}
    (h : (createExpenseInTransaction ids dto currentUserId now).Returns d .idle x d' s') :
    d = d' ∧ ∃ category a r l, Created d ids dto category a x r ∧
      s' = Session.idle.extend (.insert .expenses x :: r.postings) l := by
  unfold createExpenseInTransaction findExpenseCategoryById at h
  rw [returns_selectOnPool] at h
  cases hfound : d.find .expenseCategories dto.expenseCategoryId with
  | none =>
      rw [hfound] at h
      exact (Prog.returns_throw.1 h).elim
  | some category =>
      rw [hfound] at h
      obtain ⟨a, d₁, s₁, hallocate, h⟩ := Prog.returns_bind.1 h
      obtain ⟨rfl, hallocated, rfl⟩ := allocateAmounts_returns.1 hallocate
      rw [Session.view_idle] at hallocated
      obtain ⟨x', d₂, s₂, hrow, h⟩ := Prog.returns_bind.1 h
      obtain ⟨rfl, htoRow, ws, l, hinsert, rfl⟩ := returns_insertInto hrow
      obtain ⟨hinserted, rfl⟩ := insertRow_plain (by decide) hinsert
      rw [extend_extend] at h
      obtain ⟨r, d₃, s₃, hentry, h⟩ := Prog.returns_bind.1 h
      obtain ⟨rfl, rfl, rfl⟩ := Prog.returns_pure.1 h
      obtain ⟨rfl, hr, hposted, l', rfl⟩ := lock_createTransaction_returns hentry
      rw [Session.view_extend] at hposted
      rw [Session.view_extend_nil] at hinserted
      have hstored := NewExpense.toRow_ok htoRow
      have hnonneg : a.Nonneg :=
        Database.allocates_nonneg hrange (by simp) hamount hallocated
      refine ⟨rfl, category, a, r, _, ⟨hfound, hallocated, hstored.shuAmount, hstored.capitalAmount,
        hstored.id, hstored.expenseCategoryId, hstored.loanId, hstored.source, hinserted.fresh,
        hposted, hr.id, hr.owns, hr.visible, hr.direction, ?_, ?_, hr.txnDate,
        hr.nonneg hnonneg.1 hnonneg.2⟩, extend_extend ..⟩
      · exact Option.some.inj (hr.shuAmount.symm.trans hstored.shuAmount)
      · exact Option.some.inj (hr.capitalAmount.symm.trans hstored.capitalAmount)

theorem readExpense_returns {id : Uuid} {x : Expense} {s s' : Trx} {d' : Database}
    (h : (readExpense id).Returns d s x d' s') : d = d' ∧ d.find .expenses id = some x := by
  unfold readExpense findByIdWithCategory at h
  rw [returns_selectOnPool] at h
  cases hfound : d.find .expenses id with
  | none =>
      rw [hfound] at h
      exact (Prog.returns_throw.1 h).elim
  | some x' =>
      rw [hfound] at h
      obtain ⟨rfl, rfl, rfl⟩ := Prog.returns_pure.1 h
      exact ⟨rfl, rfl⟩

theorem createExpense_returns (hrange : d.InRange) {x : Expense} {d' : Database} {s' : Trx}
    (h : (createExpense ids dto currentUserId now).Returns d .idle x d' s') :
    checkAmount dto.amount = .ok () ∧ ∃ category a r, Created d ids dto category a x r ∧
      d' = applyAll d (.insert .expenses x :: r.postings) := by
  unfold createExpense at h
  cases hchecked : checkAmount dto.amount with
  | error e =>
      rw [hchecked] at h
      exact (Prog.returns_throw.1 h).elim
  | ok =>
      rw [hchecked] at h
      obtain ⟨x', d₁, s₁, htrx, h⟩ := Prog.returns_bind.1 h
      obtain ⟨rfl, category, a, r, l, hcreated, rfl⟩ :=
        createExpenseInTransaction_returns hrange (checkAmount_ok hchecked) htrx
      obtain ⟨_, d₂, s₂, hcommit, h⟩ := Prog.returns_bind.1 h
      obtain ⟨rfl, rfl⟩ := Prog.returns_commitTrx.1 hcommit
      rw [Session.view_extend, Session.view_idle] at h
      obtain ⟨rfl, hread⟩ := readExpense_returns h
      rw [hcreated.find, if_pos rfl] at hread
      obtain rfl : x' = x := Option.some.inj hread
      exact ⟨rfl, category, a, r, hcreated, rfl⟩

end Creation

end LumbungMesari
