import LumbungMesari.Amounts
import LumbungMesari.LoanSchedule
import LumbungMesari.StatementRules
import Mathlib.Data.List.Forall2
import Mathlib.Algebra.BigOperators.Group.List.Lemmas
import Mathlib.Algebra.Order.Group.MinMax

/-!
# Rules for schedules

The figures of a loan in units: the rounded monthly principal is a whole number of units, so the
stored columns of a schedule add up exactly, as long as its figures are printed as they are.
-/

namespace LumbungMesari

open Sql Js

/-! ### Columns -/

theorem units_of_ofRat? {m : Money} {q : ℚ} {z : ℤ} (h : Numeric.ofRat? q = some m)
    (hq : q * 10 ^ 4 = z) : m.units = z := by
  rw [Numeric.ofRat?_some h, hq, roundHalfAway_intCast]

theorem units_of_ofRat?_add {m rest : Money} {q r : ℚ} {z : ℤ} (h : Numeric.ofRat? q = some m)
    (hrest : Numeric.ofRat? r = some rest) (hq : q * 10 ^ 4 = z + r * 10 ^ 4) (hz : 0 ≤ z)
    (hr : 0 ≤ r) : m.units = z + rest.units := by
  have hunits : 0 ≤ r * 10 ^ 4 := by positivity
  have hsum : (0 : ℚ) ≤ z + r * 10 ^ 4 := add_nonneg (by exact_mod_cast hz) hunits
  rw [Numeric.ofRat?_some h, hq, roundHalfAway_intCast_add hunits hsum, Numeric.ofRat?_some hrest]

/-! ### Rounding -/

theorem remainder_spec (amount : ℚ) :
    0 ≤ remainder amount ∧ remainder amount < 1000 ∧
      amount = 1000 * ⌊amount / 1000⌋ + remainder amount := by
  have hle := Int.floor_le (amount / 1000)
  have hlt := Int.lt_floor_add_one (amount / 1000)
  rw [le_div_iff₀ (by norm_num)] at hle
  rw [div_lt_iff₀ (by norm_num)] at hlt
  unfold remainder
  refine ⟨by linarith, by linarith, by ring⟩

/-- The rounded amount is a multiple of 500, and not below the amount. -/
theorem roundUpToNearest500Or1000_spec (amount : ℚ) :
    (∃ k : ℤ, roundUpToNearest500Or1000 amount = 500 * k) ∧
      amount ≤ roundUpToNearest500Or1000 amount := by
  obtain ⟨hnonneg, hlt, hamount⟩ := remainder_spec amount
  unfold roundUpToNearest500Or1000
  dsimp only
  split
  · rename_i hexact
    refine ⟨?_, le_refl _⟩
    rcases hexact with hzero | hhalf
    · refine ⟨2 * ⌊amount / 1000⌋, ?_⟩
      push_cast
      linarith
    · refine ⟨2 * ⌊amount / 1000⌋ + 1, ?_⟩
      push_cast
      linarith
  · split
    · refine ⟨⟨2 * ⌊amount / 1000⌋ + 1, ?_⟩, by linarith⟩
      push_cast
      linarith
    · refine ⟨⟨2 * ⌊amount / 1000⌋ + 2, ?_⟩, by linarith⟩
      push_cast
      linarith

theorem roundUpToNearest500Or1000_lt (amount : ℚ) :
    roundUpToNearest500Or1000 amount < amount + 500 := by
  obtain ⟨hnonneg, hlt, -⟩ := remainder_spec amount
  unfold roundUpToNearest500Or1000
  dsimp only
  split
  · linarith
  · rename_i hexact
    simp only [not_or] at hexact
    have hpos := hnonneg.lt_of_ne' hexact.1
    split
    · linarith
    · rename_i hover
      have hover : 500 < remainder amount := (not_lt.1 hover).lt_of_ne' hexact.2
      linarith

/-- The multiples of 500 that are not below an amount. -/
def multiplesFrom (amount : ℚ) : Set ℚ := {m | (∃ k : ℤ, m = 500 * k) ∧ amount ≤ m}

theorem isLeast_roundUpToNearest500Or1000 (amount : ℚ) :
    IsLeast (multiplesFrom amount) (roundUpToNearest500Or1000 amount) := by
  obtain ⟨⟨k, hk⟩, hup⟩ := roundUpToNearest500Or1000_spec amount
  have hlt := roundUpToNearest500Or1000_lt amount
  refine ⟨⟨⟨k, hk⟩, hup⟩, fun m hm => ?_⟩
  obtain ⟨⟨l, rfl⟩, hle⟩ := hm
  -- a smaller multiple would be a whole step below
  have hsucc : (k : ℚ) < l + 1 := by linarith
  have hkl : k ≤ l := Int.lt_add_one_iff.1 (by exact_mod_cast hsucc)
  have hcast : (k : ℚ) ≤ l := by exact_mod_cast hkl
  linarith

theorem roundUpToNearest500Or1000_eq {amount : ℚ} {k : ℤ} (hlow : 500 * (k - 1) < amount)
    (hup : amount ≤ 500 * k) : roundUpToNearest500Or1000 amount = 500 * k := by
  obtain ⟨⟨⟨j, hj⟩, hle⟩, hleast⟩ := isLeast_roundUpToNearest500Or1000 amount
  refine le_antisymm (hleast ⟨⟨k, rfl⟩, hup⟩) ?_
  rw [hj] at hle ⊢
  have hlt : ((k - 1 : ℤ) : ℚ) < j := by
    push_cast
    linarith
  have hkj : k ≤ j := Int.sub_one_lt_iff.1 (by exact_mod_cast hlt)
  have hcast : (k : ℚ) ≤ j := by exact_mod_cast hkj
  linarith

/-! ### Figures of a plan -/

section Plan

variable {principal rate : ℚ} {tenor : ℕ}

theorem monthlyPayment_sub_lastMonthPayment (principal rate : ℚ) (tenor : ℕ) :
    (calculateLoanPayments id id principal rate tenor).monthlyPayment -
        (calculateLoanPayments id id principal rate tenor).lastMonthPayment =
      min (roundUpToNearest500Or1000 (principal / tenor) * tenor - principal)
        (roundUpToNearest500Or1000 (principal / tenor)) := by
  simp only [calculateLoanPayments, id_eq, add_sub_add_right_eq_sub]
  rw [← min_sub_sub_left]
  congr 1 <;> ring

theorem sum_payments (principal rate : ℚ) (tenor : ℕ) :
    (tenor - 1) * (calculateLoanPayments id id principal rate tenor).monthlyPayment +
        (calculateLoanPayments id id principal rate tenor).lastMonthPayment =
      max principal (roundUpToNearest500Or1000 (principal / tenor) * (tenor - 1)) +
        principal * rate * tenor := by
  have hclamp : max principal (roundUpToNearest500Or1000 (principal / tenor) * (tenor - 1)) =
      max (principal - roundUpToNearest500Or1000 (principal / tenor) * (tenor - 1)) 0 +
        roundUpToNearest500Or1000 (principal / tenor) * (tenor - 1) := by
    rw [max_add, sub_add_cancel, zero_add]
  rw [hclamp]
  simp only [calculateLoanPayments, id_eq]
  ring

/-- The rounded months cover the principal, with less than a step over for each of them. -/
theorem principal_le_rounded (principal : ℚ) (htenor : 1 ≤ tenor) :
    principal ≤ roundUpToNearest500Or1000 (principal / tenor) * tenor ∧
      roundUpToNearest500Or1000 (principal / tenor) * tenor - principal < 500 * tenor := by
  have hpos : (0 : ℚ) < tenor := by exact_mod_cast htenor
  have hup := (roundUpToNearest500Or1000_spec (principal / tenor)).2
  have hlt := roundUpToNearest500Or1000_lt (principal / tenor)
  rw [div_le_iff₀ hpos] at hup
  have hover := mul_lt_mul_of_pos_right hlt hpos
  rw [add_mul, div_mul_cancel₀ _ hpos.ne'] at hover
  exact ⟨hup, by linarith⟩

/-- The payments of a plan cover what is to be paid, and exceed it exactly where the months before
the last one overshoot the principal. -/
theorem calculateLoanPayments_bounds (rate : ℚ) (hprincipal : 0 < principal) (htenor : 1 ≤ tenor) :
    IsLeast (multiplesFrom (principal / tenor)) (roundUpToNearest500Or1000 (principal / tenor)) ∧
      let m := roundUpToNearest500Or1000 (principal / tenor)
      let p := calculateLoanPayments id id principal rate tenor
      p.monthlyPayment = m + principal * rate ∧
      0 ≤ p.monthlyPayment - p.lastMonthPayment ∧
      p.monthlyPayment - p.lastMonthPayment ≤ min m (500 * tenor) ∧
      p.totalPayable = principal + tenor * principal * rate ∧
      p.totalPayable ≤ (tenor - 1) * p.monthlyPayment + p.lastMonthPayment ∧
      ((tenor - 1) * p.monthlyPayment + p.lastMonthPayment = p.totalPayable ↔
        m * (tenor - 1) ≤ principal) := by
  refine ⟨isLeast_roundUpToNearest500Or1000 _, ?_⟩
  intro m p
  obtain ⟨hcover, hover⟩ := principal_le_rounded principal htenor
  have hrest := monthlyPayment_sub_lastMonthPayment principal rate tenor
  have hsum := sum_payments principal rate tenor
  have hm : 0 ≤ m := by
    have hdiv : 0 ≤ principal / tenor := by positivity
    exact hdiv.trans (roundUpToNearest500Or1000_spec _).2
  have htotal : p.totalPayable = principal + principal * rate * tenor := rfl
  refine ⟨rfl, ?_, ?_, ?_, ?_, ?_⟩
  · rw [hrest]
    exact le_min (by linarith) hm
  · rw [hrest]
    exact le_min (min_le_right _ _) ((min_le_left _ _).trans hover.le)
  · rw [htotal]
    ring
  · rw [hsum, htotal]
    exact add_le_add_left (le_max_left _ _) _
  · rw [hsum, htotal, add_left_inj]
    exact max_eq_left_iff

theorem calculateLoanPayments_bounds_tenMillion :
    (calculateLoanPayments id id 10000000 (1 / 100) 12).totalPayable ≤
      (12 - 1) * (calculateLoanPayments id id 10000000 (1 / 100) 12).monthlyPayment +
        (calculateLoanPayments id id 10000000 (1 / 100) 12).lastMonthPayment := by
  have h := calculateLoanPayments_bounds (1 / 100) (show (0 : ℚ) < 10000000 by norm_num)
    (show 1 ≤ 12 by omega)
  exact_mod_cast h.2.2.2.2.2.1

end Plan

/-! ### Loans -/

namespace Loan

/-- The principal of a month, in units. -/
def monthlyPrincipal (loan : Loan) : ℤ := loan.monthlyPayment.units - loan.interestAmount.units

/-- The last payment is what is left of the principal, if anything is, and the interest. -/
def Scheduled (loan : Loan) (tenor : ℕ) : Prop :=
  loan.lastMonthPayment.units =
    max (loan.principalAmount.units - loan.monthlyPrincipal * (tenor - 1)) 0 +
      loan.interestAmount.units

end Loan

/-- The columns of a new loan. -/
structure LoanCreated (id userId : Uuid) (loanPeriod : LoanPeriod) (amount adminFeeRate : ℚ)
    (loan : Loan) : Prop where
  id : loan.id = id
  userId : loan.userId = userId
  loanPeriodId : loan.loanPeriodId = loanPeriod.id
  status : loan.status = .pending
  principalAmount : Numeric.ofRat? (printed amount) = some loan.principalAmount
  adminFeeAmount :
    Numeric.ofRat? (printed (adminFee amount adminFeeRate)) = some loan.adminFeeAmount
  disbursedAmount :
    Numeric.ofRat? (printed (disbursedAmount amount adminFeeRate)) = some loan.disbursedAmount
  interestAmount :
    Numeric.ofRat? (printed (loanPeriod.payments amount).monthlyInterest) = some loan.interestAmount
  monthlyPayment :
    Numeric.ofRat? (printed (loanPeriod.payments amount).monthlyPayment) = some loan.monthlyPayment
  lastMonthPayment : Numeric.ofRat? (printed (loanPeriod.payments amount).lastMonthPayment) =
    some loan.lastMonthPayment
  totalPayableAmount : Numeric.ofRat? (printed (loanPeriod.payments amount).totalPayable) =
    some loan.totalPayableAmount

theorem newLoan_ok {id userId : Uuid} {loanPeriod : LoanPeriod} {amount adminFeeRate : ℚ}
    {notes : Option String} {now : Date} {loan : Loan}
    (h : newLoan id userId loanPeriod amount notes adminFeeRate now = .ok loan) :
    LoanCreated id userId loanPeriod amount adminFeeRate loan := by
  obtain ⟨_, h₁, h⟩ := bind_ok h
  obtain ⟨_, h₂, h⟩ := bind_ok h
  obtain ⟨_, h₃, h⟩ := bind_ok h
  obtain ⟨_, h₄, h⟩ := bind_ok h
  obtain ⟨_, h₅, h⟩ := bind_ok h
  obtain ⟨_, h₆, h⟩ := bind_ok h
  obtain ⟨_, h₇, h⟩ := bind_ok h
  cases h
  exact ⟨rfl, rfl, rfl, rfl, money_ok h₁, money_ok h₂, money_ok h₃, money_ok h₄, money_ok h₅,
    money_ok h₆, money_ok h₇⟩

/-- The principal of a month, rounded up. -/
def roundedPrincipal (amount : ℚ) (tenor : ℕ) : ℚ :=
  roundUpToNearest500Or1000 (nearest (decimal (amount / tenor)))

theorem roundedPrincipal_spec {amount : ℚ} (hamount : 0 ≤ amount) (tenor : ℕ) :
    ∃ k : ℤ, 0 ≤ k ∧ roundedPrincipal amount tenor = 500 * k := by
  obtain ⟨⟨k, hk⟩, hup⟩ := roundUpToNearest500Or1000_spec (nearest (decimal (amount / tenor)))
  have hquotient : 0 ≤ nearest (decimal (amount / tenor)) :=
    nearest_nonneg (decimal_nonneg (by positivity))
  have hpos : (0 : ℚ) ≤ 500 * k := hk ▸ hquotient.trans hup
  exact ⟨k, by exact_mod_cast (by linarith : (0 : ℚ) ≤ k), hk⟩

theorem max_decimal {q : ℚ} (hq : Decimal 4 q) (h : q ≤ 10 ^ 8) : max (decimal q) 0 = max q 0 := by
  rcases le_total q 0 with hneg | hpos
  · rw [max_eq_right hneg, max_eq_right (decimal_nonpos hneg)]
  · rw [decimal_of_decimal hq (by rw [abs_of_nonneg hpos]; linarith)]

section Created

variable {id userId : Uuid} {loanPeriod : LoanPeriod} {adminFeeRate : ℚ} {m : Money} {loan : Loan}

theorem LoanCreated.principal_eq (h : LoanCreated id userId loanPeriod m.toRat adminFeeRate loan) :
    loan.principalAmount = m := by
  have hprincipal := h.principalAmount
  rw [Money.printed_toRat, Numeric.ofRat?_toRat] at hprincipal
  exact (Option.some.inj hprincipal).symm

theorem LoanCreated.rate_pos (h : LoanCreated id userId loanPeriod m.toRat adminFeeRate loan)
    (hamount : 0 < m.units) (hinterest : 0 < loan.interestAmount.units) :
    0 < loanPeriod.interestRate.units := by
  by_contra hrate
  rw [not_lt] at hrate
  have hproduct : m.toRat * loanPeriod.interestRate.toRat ≤ 0 :=
    mul_nonpos_of_nonneg_of_nonpos (Numeric.toRat_pos.2 hamount).le
      (not_lt.1 fun hpos => hrate.not_gt (Numeric.toRat_pos.1 hpos))
  rw [Numeric.ofRat?_some h.interestAmount] at hinterest
  have hprinted := printed_nonpos (nearest_nonpos (decimal_nonpos hproduct))
  exact (pos_of_roundHalfAway_pos hinterest).not_ge
    (mul_nonpos_of_nonpos_of_nonneg hprinted (by positivity))

/-- The figures of a loan of a representable amount are stored exactly, and its schedule is
consistent, where the interest has seven decimals at most. -/
theorem LoanCreated.scheduled (h : LoanCreated id userId loanPeriod m.toRat adminFeeRate loan)
    (hamount : 0 < m.units) (hrate : 0 < loanPeriod.interestRate.units)
    (htenor : 1 ≤ loanPeriod.tenor)
    (hseven : Decimal 7 (m.toRat * loanPeriod.interestRate.toRat)) :
    loan.Scheduled loanPeriod.tenor := by
  have hm : 0 ≤ m.toRat := (Numeric.toRat_pos.2 hamount).le
  have hI : 0 ≤ m.toRat * loanPeriod.interestRate.toRat :=
    mul_nonneg hm (Numeric.toRat_pos.2 hrate).le
  obtain ⟨k, hk₀, hk⟩ := roundedPrincipal_spec hm loanPeriod.tenor
  have hk₀' : (0 : ℚ) ≤ k := by exact_mod_cast hk₀
  have hinterest := h.interestAmount
  have hmonthly := h.monthlyPayment
  have hlast := h.lastMonthPayment
  simp only [LoanPeriod.payments, calculateLoanPayments, printed_nearest]
    at hinterest hmonthly hlast
  rw [← roundedPrincipal, hk] at hmonthly hlast
  have hwhole : Decimal 7 (500 * (k : ℚ)) := by
    exact_mod_cast Decimal.intCast (s := 7) (500 * k)
  have hpaid : Decimal 4 (500 * k * (loanPeriod.tenor - 1)) := by
    exact_mod_cast Decimal.intCast (s := 4) (500 * k * (loanPeriod.tenor - 1))
  have hrest := m.decimal_toRat.sub hpaid
  have hle : m.toRat - 500 * k * (loanPeriod.tenor - 1) ≤ 10 ^ 8 := by
    have hmonths : (0 : ℚ) ≤ loanPeriod.tenor - 1 := sub_nonneg.2 (by exact_mod_cast htenor)
    have hpaid : (0 : ℚ) ≤ 500 * k * (loanPeriod.tenor - 1) := by positivity
    linarith [m.toRat_le]
  -- the figures are exact
  obtain ⟨hkept, hprinted⟩ := exact_of_ofRat?_printed hseven hI hinterest
  rw [hkept, hprinted] at hinterest
  rw [hkept] at hmonthly hlast
  rw [max_decimal hrest hle] at hlast
  have hsum := exact_of_ofRat?_printed (hwhole.add hseven) (by positivity) hmonthly
  have hsum' := exact_of_ofRat?_printed ((hrest.max_zero.mono (by norm_num)).add hseven)
    (by positivity) hlast
  rw [hsum.1, hsum.2] at hmonthly
  rw [hsum'.1, hsum'.2] at hlast
  have hunits : loan.monthlyPayment.units = 5000000 * k + loan.interestAmount.units := by
    refine units_of_ofRat?_add hmonthly hinterest ?_ (by positivity) hI
    push_cast
    ring
  rw [Loan.Scheduled, Loan.monthlyPrincipal, hunits, add_sub_cancel_right, h.principal_eq]
  refine units_of_ofRat?_add hlast hinterest ?_ (le_max_right _ _) hI
  rw [add_mul, max_mul_of_nonneg _ _ (by positivity), zero_mul, sub_mul, Numeric.toRat_mul]
  push_cast
  ring_nf

/-- With eight decimals it need not be: 68,965,203.5099 at 1.01 percent for a month come to
69,661,752.06534999, which is printed with a digit less and rounded up. -/
example : printed (689652035099 / 10 ^ 4 + 689652035099 / 10 ^ 4 * (101 / 10 ^ 4)) =
    6966175206535 / 10 ^ 5 := by decide +kernel

end Created

/-! ### Installments -/

theorem mapM_ok {ε α β : Type} {f : α → Except ε β} {as : List α} {bs : List β}
    (h : as.mapM f = .ok bs) : List.Forall₂ (fun a b => f a = .ok b) as bs := by
  induction as generalizing bs with
  | nil =>
      cases h
      exact .nil
  | cons a as ih =>
      rw [List.mapM_cons] at h
      obtain ⟨b, hb, h⟩ := bind_ok h
      obtain ⟨rest, hrest, h⟩ := bind_ok h
      cases h
      exact .cons hb (ih hrest)

theorem exists_mapM_ok {ε α β : Type} {f : α → Except ε β} {as : List α}
    (h : ∀ a ∈ as, ∃ b, f a = .ok b) : ∃ bs, as.mapM f = .ok bs := by
  induction as with
  | nil => exact ⟨[], rfl⟩
  | cons a as ih =>
      rw [List.forall_mem_cons] at h
      obtain ⟨b, hb⟩ := h.1
      obtain ⟨bs, hbs⟩ := ih h.2
      refine ⟨b :: bs, ?_⟩
      rw [List.mapM_cons, hb, hbs]
      rfl

theorem exists_mem_of_mapM_ok {ε α β : Type} {f : α → Except ε β} {as : List α} {bs : List β}
    (h : as.mapM f = .ok bs) {b : β} (hb : b ∈ bs) : ∃ a ∈ as, f a = .ok b := by
  replace h := mapM_ok h
  induction h with
  | nil => cases hb
  | cons hhead _ ih =>
      rcases List.mem_cons.1 hb with rfl | hb
      · exact ⟨_, List.mem_cons_self .., hhead⟩
      · obtain ⟨a, ha, hfa⟩ := ih hb
        exact ⟨a, List.mem_cons_of_mem _ ha, hfa⟩

theorem map_of_mapM_ok {ε α β γ : Type} {f : α → Except ε β} {as : List α} {bs : List β}
    (g : β → γ) (g' : α → γ) (h : as.mapM f = .ok bs) (hg : ∀ a b, f a = .ok b → g b = g' a) :
    bs.map g = as.map g' := by
  replace h := mapM_ok h
  induction h with
  | nil => rfl
  | cons hhead _ ih => rw [List.map_cons, List.map_cons, hg _ _ hhead, ih]

/-- The principal of an installment, in units. -/
def installmentPrincipal (loan : Loan) (tenor i : ℕ) : ℤ :=
  if i = tenor then loan.principalAmount.units - loan.monthlyPrincipal * (tenor - 1)
  else loan.monthlyPrincipal

/-- The columns of a new installment. -/
structure InstallmentCreated (loan : Loan) (tenor : ℕ) (id : Uuid) (i : ℕ) (r : Installment) :
    Prop where
  id : r.id = id
  loanId : r.loanId = loan.id
  installmentNumber : r.installmentNumber = i
  status : r.status = .due
  principal : r.principalAmount.units = installmentPrincipal loan tenor i
  interest : r.interestAmount.units = loan.interestAmount.units
  penalty : r.penaltyAmount.units = 0
  total : r.totalAmount.units =
    if i = tenor then loan.lastMonthPayment.units else loan.monthlyPayment.units

theorem generateInstallment_ok {loan : Loan} {tenor i : ℕ} {processedBy id : Uuid}
    {disbursementDate : Date} {r : Installment}
    (h : generateInstallment loan tenor processedBy disbursementDate id i = .ok r) :
    InstallmentCreated loan tenor id i r := by
  obtain ⟨principal, h₁, h⟩ := bind_ok h
  obtain ⟨interest, h₂, h⟩ := bind_ok h
  obtain ⟨total, h₃, h⟩ := bind_ok h
  cases h
  refine ⟨rfl, rfl, rfl, rfl, units_of_ofRat? (money_ok h₁) ?_,
    units_of_ofRat? (money_ok h₂) (Numeric.toRat_mul _), rfl,
    units_of_ofRat? (money_ok h₃) ?_⟩
  · rw [installmentPrincipal]
    split
    · rw [Loan.monthlyPrincipal, sub_mul, Numeric.toRat_mul, mul_right_comm, sub_mul,
        Numeric.toRat_mul, Numeric.toRat_mul]
      push_cast
      ring
    · rw [Loan.monthlyPrincipal, sub_mul, Numeric.toRat_mul, Numeric.toRat_mul]
      push_cast
      ring
  · split <;> exact Numeric.toRat_mul _

theorem generateInstallments_ok {loan : Loan} {tenor : ℕ} {processedBy : Uuid}
    {disbursementDate : Date} {ids : ℕ → Uuid} {rs : List Installment}
    (h : generateInstallments loan tenor processedBy disbursementDate ids = .ok rs) :
    List.Forall₂ (fun i r => InstallmentCreated loan tenor (ids (i + 1)) (i + 1) r)
      (List.range tenor) rs :=
  (mapM_ok h).imp fun _ _ => generateInstallment_ok

theorem sum_installmentPrincipal (loan : Loan) {tenor : ℕ} (htenor : 1 ≤ tenor) :
    ((List.range tenor).map fun i => installmentPrincipal loan tenor (i + 1)).sum =
      loan.principalAmount.units := by
  obtain ⟨n, rfl⟩ : ∃ n, tenor = n + 1 := ⟨tenor - 1, by omega⟩
  have hfirst : (List.range n).map (fun i => installmentPrincipal loan (n + 1) (i + 1)) =
      List.replicate n loan.monthlyPrincipal := by
    refine List.eq_replicate_iff.2 ⟨by simp, fun z hz => ?_⟩
    obtain ⟨i, hi, rfl⟩ := List.mem_map.1 hz
    rw [List.mem_range] at hi
    rw [installmentPrincipal, if_neg (by omega)]
  rw [List.range_succ, List.map_append, List.sum_append, hfirst, List.sum_replicate,
    List.map_singleton, List.sum_singleton, installmentPrincipal, if_pos rfl, nsmul_eq_mul]
  push_cast
  ring

theorem sum_generateInstallments {loan : Loan} {tenor : ℕ} {ids : ℕ → Uuid}
    {rs : List Installment} (htenor : 1 ≤ tenor)
    (h : List.Forall₂ (fun i r => InstallmentCreated loan tenor (ids (i + 1)) (i + 1) r)
      (List.range tenor) rs) :
    (rs.map (·.principalAmount.units)).sum = loan.principalAmount.units := by
  rw [← sum_installmentPrincipal loan htenor]
  have hmap : ∀ {is : List ℕ} {rs : List Installment},
      List.Forall₂ (fun i r => InstallmentCreated loan tenor (ids (i + 1)) (i + 1) r) is rs →
      rs.map (·.principalAmount.units) =
        is.map fun i => installmentPrincipal loan tenor (i + 1) := by
    intro is rs h
    induction h with
    | nil => rfl
    | cons hhead _ ih => rw [List.map_cons, List.map_cons, ih, hhead.principal]
  rw [hmap h]

/-- The parts of a new installment make up its total, unless it has no principal to pay. -/
theorem InstallmentCreated.total_eq {loan : Loan} {tenor i : ℕ} {id : Uuid} {r : Installment}
    (h : InstallmentCreated loan tenor id i r) (hloan : loan.Scheduled tenor)
    (hpos : 0 < r.principalAmount.units) :
    r.totalAmount.units = r.principalAmount.units + r.interestAmount.units := by
  rw [h.principal, installmentPrincipal] at hpos
  rw [h.total, h.principal, h.interest, installmentPrincipal]
  split
  · rename_i hlast
    rw [if_pos hlast] at hpos
    rw [hloan, max_eq_left hpos.le]
  · rw [Loan.monthlyPrincipal]
    omega

end LumbungMesari
