import LumbungMesari.DecisionRuns
import LumbungMesari.PenaltyRuns
import LumbungMesari.Settlements

/-!
# Loans that can be repaid

A schedule charges the same rounded principal each month and leaves the rest to the last one. Whether
the rest is something to pay, and whether the stored columns add up, is decided by the amount, the
rate and the tenor. A loan that passes is never refused a settlement by the check of the ledger.
-/

namespace LumbungMesari

open Sql Js

/-! ### Amounts that can be repaid -/

/-- What a column takes of a number, in units. -/
def stored (q : ℚ) : ℤ := roundHalfAway (printed q * 10 ^ 4)

/-- The principal of a month: the stored payment less the stored interest. -/
def storedPrincipal (amount rate : ℚ) (tenor : ℕ) : ℤ :=
  stored (decimal (roundedPrincipal amount tenor + decimal (amount * rate))) -
    stored (decimal (amount * rate))

/-- The last payment: what the months before leave of the amount, and the interest. -/
def lastPayment (amount rate : ℚ) (tenor : ℕ) : ℚ :=
  decimal (max (decimal (amount - roundedPrincipal amount tenor * (tenor - 1))) 0 +
    decimal (amount * rate))

/-- The total payable, added up in numbers. -/
def addedTotal (amount rate : ℚ) (tenor : ℕ) : ℚ :=
  nearest amount + nearest (nearest (decimal (amount * rate)) * tenor)

/-- What an amount, a rate and a tenor need for a schedule that can be repaid. -/
structure Repayable (amount rate : ℚ) (tenor : ℕ) : Prop where
  month : tenor = 1 ∨ 0 < storedPrincipal amount rate tenor
  rest : storedPrincipal amount rate tenor * (tenor - 1) < stored amount
  interest : 0 < stored (decimal (amount * rate))
  last : stored (lastPayment amount rate tenor) =
    stored amount - storedPrincipal amount rate tenor * (tenor - 1) +
      stored (decimal (amount * rate))
  total : stored (addedTotal amount rate tenor) =
    stored amount + tenor * stored (decimal (amount * rate))

/-- 1,436,839.2495 over ten months come to 1,580,523.17445, but are added up to
1,580,523.1744499998. -/
example : stored (addedTotal (14368392495 / 10 ^ 4) (1 / 100) 10) = 15805231744 := by
  decide +kernel

/-! ### Amounts in units -/

theorem stored_of_decimal {q : ℚ} (hq : Decimal 4 q) (h : |q| ≤ 10 ^ 9) :
    (stored q : ℚ) = q * 10 ^ 4 := by
  rw [stored, printed_of_decimal (by norm_num) hq (by linarith), hq.round]

theorem stored_decimal {q : ℚ} (hq : Decimal 4 q) (hq₀ : 0 ≤ q) (h : q ≤ 10 ^ 9) :
    (stored (decimal q) : ℚ) = q * 10 ^ 4 := by
  have habs : |q| ≤ 10 ^ 9 := by rwa [abs_of_nonneg hq₀]
  rw [decimal_of_decimal hq (by linarith), stored_of_decimal hq habs]

/-- The quotient of decimal.js is as close to the exact one as doubles are. -/
theorem abs_quotient_sub_lt {q : ℚ} {tenor : ℕ} (hq : Decimal 4 q) (hq₀ : 0 < q) (hle : q ≤ 10 ^ 9)
    (htenor : 1 ≤ tenor) (hmany : (tenor : ℚ) ≤ 10 ^ 12) :
    |nearest (decimal (q / tenor)) - q / tenor| < 1 / (10 ^ 4 * tenor) := by
  have ht : (0 : ℚ) < tenor := by exact_mod_cast htenor
  have ha : 0 < q / tenor := div_pos hq₀ ht
  have hunit : 1 / 10 ^ 4 ≤ q := by
    have := Decimal.zero.add_le_of_lt hq hq₀
    linarith
  have hlow : 1 / 10 ^ 16 ≤ q / tenor := by
    rw [le_div_iff₀ ht]
    linarith
  have hkept := abs_decimal_sub_le (q / tenor)
  rw [abs_of_pos ha] at hkept
  have hkept' := abs_le.1 hkept
  have hd : 0 < decimal (q / tenor) := by linarith
  have hnearest := abs_nearest_sub_le_mul_of_le (q := decimal (q / tenor)) (by
    rw [abs_of_pos hd]
    linarith)
  rw [abs_of_pos hd] at hnearest
  calc |nearest (decimal (q / tenor)) - q / tenor|
      ≤ |nearest (decimal (q / tenor)) - decimal (q / tenor)| + |decimal (q / tenor) - q / tenor| :=
        abs_sub_le ..
    _ ≤ q / tenor / 10 ^ 15 := by linarith
    _ = q * 10 ^ 4 / 10 ^ 15 * (1 / (10 ^ 4 * tenor)) := by
        field_simp
    _ < 1 / (10 ^ 4 * tenor) := by
        refine mul_lt_of_lt_one_left (by positivity) ?_
        linarith

/-- Of an amount with four decimals a month is rounded to the same multiple as the exact quotient. -/
theorem roundedPrincipal_of_decimal {q : ℚ} {tenor : ℕ} (hq : Decimal 4 q) (hq₀ : 0 < q)
    (hle : q ≤ 10 ^ 9) (htenor : 1 ≤ tenor) (hmany : (tenor : ℚ) ≤ 10 ^ 12) :
    roundedPrincipal q tenor = roundUpToNearest500Or1000 (q / tenor) := by
  obtain ⟨⟨k, hk⟩, hup⟩ := roundUpToNearest500Or1000_spec (q / tenor)
  have hover := roundUpToNearest500Or1000_lt (q / tenor)
  have ht : (0 : ℚ) < tenor := by exact_mod_cast htenor
  rw [hk] at hup hover ⊢
  rcases hup.eq_or_lt with hexact | hlt
  · -- a multiple of 500 is exact
    have hwhole : Decimal 0 (q / tenor) := by
      rw [hexact]
      exact_mod_cast Decimal.intCast (s := 0) (500 * k)
    have hsmall : |q / tenor| ≤ 10 ^ 9 := by
      rw [abs_of_pos (div_pos hq₀ ht), div_le_iff₀ ht]
      nlinarith [(by exact_mod_cast htenor : (1 : ℚ) ≤ tenor)]
    rw [roundedPrincipal, decimal_of_decimal hwhole (by linarith),
      Double.nearest_of_whole hwhole (by linarith)]
    exact roundUpToNearest500Or1000_eq (by linarith) hup
  · -- any other quotient is further from a multiple than its error
    obtain ⟨n, hn⟩ := hq
    have hscaled (j : ℤ) :
        q / tenor - 500 * j = (n - 500 * j * tenor * 10 ^ 4 : ℤ) / (10 ^ 4 * tenor) := by
      push_cast
      rw [← hn]
      field_simp
      ring
    have hapart (j : ℤ) (hne : q / tenor ≠ 500 * j) :
        1 / (10 ^ 4 * tenor) ≤ |q / tenor - 500 * j| := by
      have hne' : (n - 500 * j * tenor * 10 ^ 4 : ℤ) ≠ 0 := by
        intro hzero
        refine hne (sub_eq_zero.1 ?_)
        rw [hscaled, hzero, Int.cast_zero, zero_div]
      rw [hscaled, abs_div, abs_of_pos (show (0 : ℚ) < 10 ^ 4 * tenor by positivity), ← Int.cast_abs]
      exact div_le_div_of_nonneg_right (by exact_mod_cast Int.one_le_abs hne') (by positivity)
    have herror := abs_lt.1 (abs_quotient_sub_lt ⟨n, hn⟩ hq₀ hle htenor hmany)
    have hbelow := hapart (k - 1) (by push_cast; linarith)
    have habove := hapart k hlt.ne
    push_cast at hbelow
    rw [abs_of_pos (by linarith)] at hbelow
    rw [abs_of_neg (by linarith)] at habove
    exact roundUpToNearest500Or1000_eq (by linarith) (by linarith)

/-- An amount and a monthly interest of four decimals, whose total fits its column. -/
structure FourDecimals (amount rate : ℚ) (tenor : ℕ) : Prop where
  decimal_amount : Decimal 4 amount
  decimal_interest : Decimal 4 (amount * rate)
  amount_pos : 0 < amount
  interest_pos : 0 < amount * rate
  positive : 1 ≤ tenor
  fits : amount + amount * rate * tenor ≤ 10 ^ 8

namespace FourDecimals

variable {amount rate : ℚ} {tenor : ℕ}

theorem one_le_tenor (h : FourDecimals amount rate tenor) : (1 : ℚ) ≤ tenor := by
  exact_mod_cast h.positive

theorem unit_le_interest (h : FourDecimals amount rate tenor) : 1 / 10 ^ 4 ≤ amount * rate := by
  have hunit := Decimal.zero.add_le_of_lt h.decimal_interest h.interest_pos
  rwa [zero_add] at hunit

theorem interest_le (h : FourDecimals amount rate tenor) :
    amount * rate ≤ amount * rate * tenor := le_mul_of_one_le_right h.interest_pos.le h.one_le_tenor

theorem interest_kept (h : FourDecimals amount rate tenor) :
    decimal (amount * rate) = amount * rate :=
  decimal_of_decimal h.decimal_interest (by
    rw [abs_of_pos h.interest_pos]
    linarith [h.interest_le, h.fits, h.amount_pos])

theorem rounded (h : FourDecimals amount rate tenor) :
    roundedPrincipal amount tenor = roundUpToNearest500Or1000 (amount / tenor) := by
  have hmonths := h.interest_le
  have hfits := h.fits
  have hmany := mul_le_mul_of_nonneg_right h.unit_le_interest
    (tenor.cast_nonneg : (0 : ℚ) ≤ tenor)
  exact roundedPrincipal_of_decimal h.decimal_amount h.amount_pos (by linarith [h.interest_pos])
    h.positive
    (by linarith [h.amount_pos])

theorem rounded_pos (h : FourDecimals amount rate tenor) : 0 < roundedPrincipal amount tenor := by
  rw [h.rounded]
  exact (div_pos h.amount_pos (by linarith [h.one_le_tenor])).trans_le
    (roundUpToNearest500Or1000_spec _).2

theorem rounded_lt (h : FourDecimals amount rate tenor) :
    roundedPrincipal amount tenor < amount + 500 := by
  have hover := roundUpToNearest500Or1000_lt (amount / tenor)
  rw [h.rounded]
  linarith [div_le_self h.amount_pos.le h.one_le_tenor]

theorem decimal_months (h : FourDecimals amount rate tenor) (n : ℤ) :
    Decimal 4 (roundedPrincipal amount tenor * n) := by
  obtain ⟨k, -, hk⟩ := roundedPrincipal_spec h.amount_pos.le tenor
  rw [hk]
  exact_mod_cast Decimal.intCast (s := 4) (500 * k * n)

theorem stored_amount (h : FourDecimals amount rate tenor) :
    (stored amount : ℚ) = amount * 10 ^ 4 :=
  stored_of_decimal h.decimal_amount (by
    rw [abs_of_pos h.amount_pos]
    linarith [h.interest_le, h.interest_pos, h.fits])

theorem stored_interest (h : FourDecimals amount rate tenor) :
    (stored (decimal (amount * rate)) : ℚ) = amount * rate * 10 ^ 4 :=
  stored_decimal h.decimal_interest h.interest_pos.le
    (by linarith [h.interest_le, h.amount_pos, h.fits])

theorem stored_month (h : FourDecimals amount rate tenor) :
    (storedPrincipal amount rate tenor : ℚ) = roundedPrincipal amount tenor * 10 ^ 4 := by
  have hmonth : Decimal 4 (roundedPrincipal amount tenor) := by
    simpa using h.decimal_months 1
  have hpos := h.rounded_pos
  have hinterest := h.interest_pos
  have hpayment := stored_decimal (hmonth.add h.decimal_interest) (by linarith)
    (by linarith [h.rounded_lt, h.interest_le, h.fits])
  rw [storedPrincipal, Int.cast_sub, h.stored_interest, h.interest_kept, hpayment]
  ring

theorem stored_last (h : FourDecimals amount rate tenor)
    (hrest : roundedPrincipal amount tenor * (tenor - 1) < amount) :
    (stored (lastPayment amount rate tenor) : ℚ) =
      (amount - roundedPrincipal amount tenor * (tenor - 1) + amount * rate) * 10 ^ 4 := by
  have hleft : Decimal 4 (amount - roundedPrincipal amount tenor * (tenor - 1)) :=
    h.decimal_amount.sub (by exact_mod_cast h.decimal_months (tenor - 1))
  have hpaid : 0 ≤ roundedPrincipal amount tenor * (tenor - 1) :=
    mul_nonneg h.rounded_pos.le (by linarith [h.one_le_tenor])
  have hinterest := h.interest_pos
  have hfits := h.interest_le.trans (le_sub_iff_add_le'.2 h.fits)
  rw [lastPayment, h.interest_kept, max_decimal hleft (by linarith), max_eq_left (by linarith)]
  exact stored_decimal (hleft.add h.decimal_interest) (by linarith) (by linarith)

theorem abs_printed_addedTotal_sub_lt (h : FourDecimals amount rate tenor) :
    |printed (addedTotal amount rate tenor) - (amount + amount * rate * tenor)| <
      1 / (2 * 10 ^ 4) := by
  have hamount := h.amount_pos
  have hinterest := h.interest_pos
  have hfits := h.fits
  have hmonths : 0 ≤ amount * rate * tenor := by positivity
  have hnumber : (Double.ofRat amount).Within (1 / 10 ^ 7) amount :=
    Double.within_amount (by rw [abs_of_pos hamount]; linarith)
  -- the error of a month's interest is relative to it, so the months do not add up to more
  have hmonth := abs_nearest_sub_le_mul_of_le (q := amount * rate) (by
    rw [abs_of_pos hinterest]
    linarith [h.unit_le_interest])
  rw [abs_of_pos hinterest] at hmonth
  have hproduct : |nearest (amount * rate) * tenor - amount * rate * tenor| ≤ 1 / 10 ^ 7 := by
    rw [← sub_mul, abs_mul, Nat.abs_cast]
    calc |nearest (amount * rate) - amount * rate| * tenor
        ≤ amount * rate / 2 ^ 53 * tenor := mul_le_mul_of_nonneg_right hmonth tenor.cast_nonneg
      _ = amount * rate * tenor / 2 ^ 53 := by ring
      _ ≤ 10 ^ 8 / 2 ^ 53 := div_le_div_of_nonneg_right (by linarith) (by positivity)
      _ ≤ 1 / 10 ^ 7 := by norm_num
  have hinterests := Double.Within.ofRat_amount hproduct
    (by rw [abs_of_nonneg hmonths]; linarith)
  have hsum := hnumber.add_amount hinterests (by
    rw [abs_of_nonneg (add_nonneg hamount.le hmonths)]
    linarith)
  rw [addedTotal, h.interest_kept]
  refine lt_of_le_of_lt (hsum.toDecimal (k := -23) (by norm_num) ?_) (by norm_num)
  rw [abs_of_nonneg (add_nonneg hamount.le hmonths)]
  refine lt_of_le_of_lt (add_le_add_left hfits _) (by norm_num)

theorem stored_total (h : FourDecimals amount rate tenor) :
    (stored (addedTotal amount rate tenor) : ℚ) = (amount + amount * rate * tenor) * 10 ^ 4 := by
  have hmonths : Decimal 4 (amount * rate * tenor) := by
    obtain ⟨n, hn⟩ := h.decimal_interest
    refine ⟨n * tenor, ?_⟩
    rw [mul_right_comm, hn]
    push_cast
    rfl
  have hadded := (h.decimal_amount.add hmonths).of_abs_sub_lt h.abs_printed_addedTotal_sub_lt
  rwa [div_eq_iff (by positivity), ← stored] at hadded

/-- Of such an amount, something has to be left for the last month. -/
theorem repayable_iff (h : FourDecimals amount rate tenor) : Repayable amount rate tenor ↔
    roundUpToNearest500Or1000 (amount / tenor) * (tenor - 1) < amount := by
  rw [← h.rounded]
  constructor
  · intro hrepayable
    have hrest : ((storedPrincipal amount rate tenor * (tenor - 1) : ℤ) : ℚ) < stored amount := by
      exact_mod_cast hrepayable.rest
    push_cast at hrest
    rw [h.stored_month, h.stored_amount] at hrest
    linarith
  · intro hrest
    have hlast := h.stored_last hrest
    have htotal := h.stored_total
    refine ⟨.inr ?_, ?_, ?_, ?_, ?_⟩
    · rw [← Int.cast_pos (R := ℚ), h.stored_month]
      exact mul_pos h.rounded_pos (by positivity)
    · rw [← Int.cast_lt (R := ℚ)]
      push_cast
      rw [h.stored_month, h.stored_amount]
      linarith
    · rw [← Int.cast_pos (R := ℚ), h.stored_interest]
      exact mul_pos h.interest_pos (by positivity)
    · have hsum : (stored (lastPayment amount rate tenor) : ℚ) = stored amount -
          storedPrincipal amount rate tenor * (tenor - 1) + stored (decimal (amount * rate)) := by
        rw [hlast, h.stored_amount, h.stored_month, h.stored_interest]
        ring
      exact_mod_cast hsum
    · have hsum : (stored (addedTotal amount rate tenor) : ℚ) =
          stored amount + tenor * stored (decimal (amount * rate)) := by
        rw [htotal, h.stored_amount, h.stored_interest]
        ring
      exact_mod_cast hsum

end FourDecimals

/-- A whole amount at a rate of four decimals is one. -/
theorem fourDecimals_intCast {z : ℤ} (hz : 0 < z) {p tenor : ℕ} {rate : Numeric p 4}
    (hrate : 0 < rate.units) (htenor : 1 ≤ tenor)
    (hfits : (z : ℚ) + z * rate.toRat * tenor ≤ 10 ^ 8) : FourDecimals z rate.toRat tenor where
  decimal_amount := .intCast z
  decimal_interest := ⟨z * rate.units, by
    rw [mul_assoc, Numeric.toRat_mul]
    push_cast
    rfl⟩
  amount_pos := by exact_mod_cast hz
  interest_pos := mul_pos (by exact_mod_cast hz) (Numeric.toRat_pos.2 hrate)
  positive := htenor
  fits := hfits

/-! ### Figures -/

namespace Loan

/-- The columns of a loan are the figures of an amount. -/
structure FiguresOf (loan : Loan) (amount rate : ℚ) (tenor : ℕ) : Prop where
  principal : loan.principalAmount.units = stored amount
  interest : loan.interestAmount.units = stored (decimal (amount * rate))
  month : loan.monthlyPrincipal = storedPrincipal amount rate tenor
  last : loan.lastMonthPayment.units = stored (lastPayment amount rate tenor)
  total : loan.totalPayableAmount.units = stored (addedTotal amount rate tenor)

/-- The columns of a loan whose schedule can be repaid. -/
structure Sound (loan : Loan) (tenor : ℕ) : Prop where
  month : tenor = 1 ∨ 0 < loan.monthlyPrincipal
  rest : loan.monthlyPrincipal * (tenor - 1) < loan.principalAmount.units
  interest : 0 < loan.interestAmount.units
  last : loan.lastMonthPayment.units =
    loan.principalAmount.units - loan.monthlyPrincipal * (tenor - 1) + loan.interestAmount.units
  total : loan.totalPayableAmount.units =
    loan.principalAmount.units + tenor * loan.interestAmount.units

/-- A loan of an amount has a sound schedule where the amount is repayable. -/
theorem FiguresOf.sound_iff {loan : Loan} {amount rate : ℚ} {tenor : ℕ}
    (h : loan.FiguresOf amount rate tenor) : loan.Sound tenor ↔ Repayable amount rate tenor := by
  constructor
  · intro hsound
    refine ⟨?_, ?_, ?_, ?_, ?_⟩
    · exact h.month ▸ hsound.month
    · exact h.month ▸ h.principal ▸ hsound.rest
    · exact h.interest ▸ hsound.interest
    · rw [← h.last, ← h.principal, ← h.month, ← h.interest]
      exact hsound.last
    · rw [← h.total, ← h.principal, ← h.interest]
      exact hsound.total
  · intro hrepayable
    refine ⟨?_, ?_, ?_, ?_, ?_⟩
    · rw [h.month]
      exact hrepayable.month
    · rw [h.month, h.principal]
      exact hrepayable.rest
    · rw [h.interest]
      exact hrepayable.interest
    · rw [h.last, h.principal, h.month, h.interest]
      exact hrepayable.last
    · rw [h.total, h.principal, h.interest]
      exact hrepayable.total

end Loan

theorem LoanCreated.figures {id userId : Uuid} {loanPeriod : LoanPeriod} {amount adminFeeRate : ℚ}
    {loan : Loan} (h : LoanCreated id userId loanPeriod amount adminFeeRate loan) :
    loan.FiguresOf amount loanPeriod.interestRate.toRat loanPeriod.tenor := by
  have hinterest := Numeric.ofRat?_some h.interestAmount
  have hmonthly := Numeric.ofRat?_some h.monthlyPayment
  have hlast := Numeric.ofRat?_some h.lastMonthPayment
  have htotal := Numeric.ofRat?_some h.totalPayableAmount
  simp only [LoanPeriod.payments, calculateLoanPayments, printed_nearest]
    at hinterest hmonthly hlast htotal
  exact ⟨Numeric.ofRat?_some h.principalAmount, hinterest,
    by rw [Loan.monthlyPrincipal, hmonthly, hinterest]; rfl, hlast, htotal⟩

/-! ### Schedules -/

/-- An installment with something to pay in each part, that asks for the sum of its parts. -/
structure Installment.Sound (i : Installment) : Prop where
  principal : 0 < i.principalAmount.units
  interest : 0 < i.interestAmount.units
  total : i.totalAmount.units = i.principalAmount.units + i.interestAmount.units

section Schedule

variable {loan : Loan} {tenor : ℕ} {ids : ℕ → Uuid} {rs : List Installment}

theorem sum_of_sound (hrs : ∀ r ∈ rs, r.Sound)
    (hinterest : ∀ r ∈ rs, r.interestAmount.units = loan.interestAmount.units) :
    (rs.map (·.totalAmount.units)).sum =
      (rs.map (·.principalAmount.units)).sum + rs.length * loan.interestAmount.units := by
  induction rs with
  | nil => simp
  | cons r rs ih =>
      obtain ⟨hr, hrs⟩ := List.forall_mem_cons.1 hrs
      obtain ⟨hi, hinterest⟩ := List.forall_mem_cons.1 hinterest
      simp only [List.map_cons, List.sum_cons, List.length_cons, ih hrs hinterest, hr.total, hi]
      push_cast
      ring

theorem exists_created (h : List.Forall₂
      (fun i r => InstallmentCreated loan tenor (ids (i + 1)) (i + 1) r) (List.range tenor) rs)
    {i : ℕ} (hi : i < tenor) : ∃ r ∈ rs, InstallmentCreated loan tenor (ids (i + 1)) (i + 1) r := by
  have hlt : i < (List.range tenor).length := by rwa [List.length_range]
  have hget := h.get hlt (h.length_eq ▸ hlt)
  have hnumber : (List.range tenor).get ⟨i, hlt⟩ = i := by
    rw [List.get_eq_getElem, List.getElem_range]
  rw [hnumber] at hget
  exact ⟨_, List.get_mem rs _, hget⟩

/-- The installments of a schedule are sound, and make up what the loan says is payable, where the
columns of the loan are sound. -/
theorem schedule_sound_iff (htenor : 1 ≤ tenor)
    (h : List.Forall₂ (fun i r => InstallmentCreated loan tenor (ids (i + 1)) (i + 1) r)
      (List.range tenor) rs) :
    ((∀ r ∈ rs, r.Sound) ∧
      (rs.map (·.totalAmount.units)).sum = loan.totalPayableAmount.units) ↔ loan.Sound tenor := by
  have hinterest : ∀ r ∈ rs, r.interestAmount.units = loan.interestAmount.units := by
    intro r hr
    obtain ⟨i, hi⟩ := LoanFile.exists_of_forall₂ h hr
    exact hi.interest
  have hlength : rs.length = tenor := by rw [← h.length_eq, List.length_range]
  have hsum : (∀ r ∈ rs, r.Sound) → (rs.map (·.totalAmount.units)).sum =
      loan.principalAmount.units + tenor * loan.interestAmount.units := by
    intro hrs
    rw [sum_of_sound hrs hinterest, sum_generateInstallments htenor h, hlength]
  constructor
  · rintro ⟨hrs, htotal⟩
    obtain ⟨r, hr, hlast⟩ := exists_created h (show tenor - 1 < tenor by omega)
    rw [Nat.sub_add_cancel htenor] at hlast
    have hsound := hrs r hr
    have hprincipal := hlast.principal
    have htotal' := hlast.total
    rw [installmentPrincipal, if_pos rfl] at hprincipal
    rw [if_pos rfl, hsound.total, hprincipal, hlast.interest] at htotal'
    refine ⟨?_, ?_, hlast.interest ▸ hsound.interest, htotal'.symm, htotal ▸ hsum hrs⟩
    · rw [or_iff_not_imp_left]
      intro hone
      obtain ⟨first, hmem, hfirst⟩ := exists_created h (show 0 < tenor by omega)
      have hmonth := hfirst.principal
      rw [installmentPrincipal, if_neg (by omega)] at hmonth
      exact hmonth ▸ (hrs first hmem).principal
    · have hpositive := hsound.principal
      omega
  · intro hloan
    have hrs : ∀ r ∈ rs, r.Sound := by
      intro r hr
      obtain ⟨i, hi⟩ := LoanFile.exists_of_forall₂ h hr
      have hprincipal := hi.principal
      rw [installmentPrincipal] at hprincipal
      have hnumber : r.installmentNumber ∈ List.range' 1 tenor :=
        LoanFile.numbers_generateInstallments h ▸ List.mem_map_of_mem hr
      rw [hi.installmentNumber, List.mem_range'_1] at hnumber
      refine ⟨?_, hi.interest ▸ hloan.interest, ?_⟩
      · have hrest := hloan.rest
        have hmonth := hloan.month
        rw [hprincipal]
        split <;> omega
      · rw [hi.total, hi.interest, hprincipal]
        split
        · exact hloan.last
        · rw [Loan.monthlyPrincipal]
          omega
    exact ⟨hrs, (hsum hrs).trans hloan.total.symm⟩

end Schedule

/-! ### Files -/

namespace LoanFile

variable {c : Conduct} {f f' : LoanFile} {amount : ℚ}

/-- The loan of a file has the figures of an amount. -/
def Figured (amount : ℚ) (f : LoanFile) : Prop :=
  ∀ loan loanPeriod, f.loan = some (loan, loanPeriod) →
    loan.FiguresOf amount loanPeriod.interestRate.toRat loanPeriod.tenor

theorem Step.figured (h : Step c f f') (hc : ∀ a, c.asks a → a = amount) (hf : f.Figured amount) :
    f'.Figured amount := by
  cases h with
  | create absent asked created =>
      rintro _ _ hloan
      cases hloan
      obtain rfl := hc _ asked
      exact created.figures
  | @decide loan loanPeriod status approvedBy notes now found pending decision =>
      rintro _ _ hloan
      cases hloan
      have h := hf loan loanPeriod found
      cases status <;> exact ⟨h.1, h.2, h.3, h.4, h.5⟩
  | @disburse loan loanPeriod ids adminId now rs e fee found =>
      rintro _ _ hloan
      cases hloan
      have h := hf loan loanPeriod found
      exact ⟨h.1, h.2, h.3, h.4, h.5⟩
  | settle | mark | penalize => exact hf

/-- A disbursed loan whose installments have something to pay in each part. -/
structure Collectable (f : LoanFile) : Prop where
  active : ∃ loan loanPeriod, f.loan = some (loan, loanPeriod) ∧ loan.status = .active
  positive : ∀ x ∈ f.installments, 0 < x.1.principalAmount.units ∧ 0 < x.1.interestAmount.units

theorem Collectable.rewrite (hf : f.Collectable) {i new : Installment} {ps postings : List Posting}
    (hmem : (i, ps) ∈ f.installments) (hprincipal : new.principalAmount = i.principalAmount)
    (hinterest : new.interestAmount = i.interestAmount) : (f.rewrite new postings).Collectable where
  active := hf.active
  positive x hx := by
    obtain ⟨y, hy, rfl⟩ := List.mem_map.1 hx
    split
    · rw [hprincipal, hinterest]
      exact hf.positive _ hmem
    · exact hf.positive y hy

theorem Step.collectable (h : Step c f f') (hf : f.Collectable) : f'.Collectable := by
  obtain ⟨loan, loanPeriod, hloan, hactive⟩ := hf.active
  have hstatus : ∀ {loan' : Loan} {loanPeriod' : LoanPeriod} {status : LoanStatus},
      f.loan = some (loan', loanPeriod') → loan'.status = status → status = .active := by
    intro loan' loanPeriod' status hloan' hstatus
    obtain ⟨rfl, rfl⟩ := Prod.mk.inj (Option.some.inj (hloan.symm.trans hloan'))
    exact hstatus.symm.trans hactive
  cases h with
  | create absent =>
      rw [hloan] at absent
      cases absent
  | decide found pending => cases hstatus found pending
  | disburse found approved => cases hstatus found approved
  | settle mem => exact hf.rewrite mem rfl rfl
  | mark mem => exact hf.rewrite mem rfl rfl
  | penalize found mem overdue unpenalized charges set =>
      obtain ⟨_, _, -, -, rfl⟩ := penalized_ok set
      exact hf.rewrite mem rfl rfl

end LoanFile

/-! ### Settlements -/

/-- An installment with something to pay in each part is not refused by the check of the ledger. -/
theorem settleInstallment_passes_check {d : Database} {ids : SettleIds} {adminId : Uuid} {now : Date}
    {i : Installment} (hfound : d.find .installments i.id = some i) (hunpaid : i.status ≠ .paid)
    (hprincipal : 0 < i.principalAmount.units) (hinterest : 0 < i.interestAmount.units) :
    (settleInstallment ids i.id adminId now).result d ≠
      .error (.checkViolation "chk_cashbook_amounts_positive") := by
  intro herror
  have hthrows : (settleInstallment ids i.id adminId now).Throws
      (· ≠ .checkViolation "chk_cashbook_amounts_positive") d .idle := by
    refine settleInstallment_throws hfound hunpaid (fun _ h => by cases h) ?_
    rintro _ hunrecorded rfl
    obtain ⟨x, hx, hzero⟩ := hunrecorded.nothing
    rw [installmentReceipts, List.mem_append, List.mem_cons, List.mem_singleton] at hx
    rcases hx with (rfl | rfl) | hx
    · exact absurd hprincipal (not_lt.2 hzero)
    · exact absurd hinterest (not_lt.2 hzero)
    · split at hx
      · rename_i hpenalty
        obtain rfl := List.mem_singleton.1 hx
        exact absurd (Numeric.toRat_pos.1 hpenalty) (not_lt.2 hzero)
      · cases hx
  exact hthrows.of_result herror rfl

/-- One loan is requested for one amount. Anything else may be asked. -/
def requestingAmount (amount : ℚ) (loanId id : Uuid) : Conduct where
  asks a := id = loanId → a = amount
  settles _ _ := True
  disburses _ _ := True
  charges _ _ := True

/-- A disbursed loan can be repaid: its installments are sound and make up what it says is payable,
and from there on none of them is refused a settlement by the check of the ledger. -/
structure CanBeRepaid (d : Database) (loan : Loan) : Prop where
  sound : ∀ i ∈ d.rows .installments, i.loanId = loan.id → i.Sound
  total : (((d.rows .installments).filter fun i => i.loanId = loan.id).map
    (·.totalAmount.units)).sum = loan.totalPayableAmount.units
  passes : ∀ d', LoanLife anything loan.id d d' → ∀ i ∈ d'.rows .installments,
    i.loanId = loan.id → i.status ≠ .paid → ∀ ids adminId now,
      (settleInstallment ids i.id adminId now).result d' ≠
        .error (.checkViolation "chk_cashbook_amounts_positive")

theorem rows_of_file {d : Database} {loanId : Uuid} :
    (d.file loanId).installments.map Prod.fst =
      (d.rows .installments).filter fun i => i.loanId = loanId := by
  rw [Database.file, List.map_map]
  exact List.map_id _

theorem passes_of_collectable {d : Database} (hd : Linked d) {loanId : Uuid}
    (h : (d.file loanId).Collectable) {d' : Database} (hlife : LoanLife anything loanId d d')
    {i : Installment} (hi : i ∈ d'.rows .installments) (hloan : i.loanId = loanId)
    (hunpaid : i.status ≠ .paid) (ids : SettleIds) (adminId : Uuid) (now : Date) :
    (settleInstallment ids i.id adminId now).result d' ≠
      .error (.checkViolation "chk_cashbook_amounts_positive") := by
  have hcollectable : (d'.file loanId).Collectable :=
    (hlife.simulates hd).2.keeps (fun hstep hf => hstep.collectable hf) h
  obtain ⟨ps, hps⟩ := exists_mem_file hi hloan
  obtain ⟨hprincipal, hinterest⟩ := hcollectable.positive _ hps
  exact settleInstallment_passes_check (Table.find?_of_mem hi) hunpaid hprincipal hinterest

/-- **An accepted loan can be repaid** exactly where its amount is repayable at the rate and over the
tenor of its period. -/
theorem canBeRepaid_iff {d₀ d : Database} (h₀ : d₀.ForeignKeys) {loanId : Uuid}
    (hnone : d₀.find .loans loanId = none) {amount : ℚ}
    (hlife : LoanLife (requestingAmount amount loanId) loanId d₀ d) {ids : DisburseIds}
    {adminId : Uuid} {now : Date}
    (hok : (disburseLoan ids loanId adminId now).result d = .ok ()) {loan : Loan}
    {loanPeriod : LoanPeriod}
    (hloan : ((disburseLoan ids loanId adminId now).after d).loanWithPeriod loanId =
      some (loan, loanPeriod))
    (htenor : 1 ≤ loanPeriod.tenor) :
    CanBeRepaid ((disburseLoan ids loanId adminId now).after d) loan ↔
      Repayable amount loanPeriod.interestRate.toRat loanPeriod.tenor := by
  obtain ⟨hlinked, hsteps⟩ := hlife.simulates h₀.linked
  rw [h₀.file_eq_empty hnone] at hsteps
  have hasks : ∀ a, (requestingAmount amount loanId loanId).asks a → a = amount :=
    fun _ hasked => hasked rfl
  have hfigured : (d.file loanId).Figured amount := hsteps.keeps
    (fun hstep hf => hstep.figured hasks hf) fun _ _ hloan => by cases hloan
  obtain ⟨hlinked₁, loan₀, loanPeriod₀, rs, hloan₀, hschedule, hnodup, hfile, hinstallments⟩ :=
    disburseLoan_file hlinked (hsteps.kept LoanFile.empty_kept).orderly hok
  obtain ⟨rfl, rfl⟩ := Prod.mk.inj (Option.some.inj (hfile.symm.trans hloan))
  obtain rfl : loan₀.id = loanId := Database.find_id (loanWithPeriod_some hloan₀).1
  have hfigures := hfigured loan₀ loanPeriod₀ hloan₀
  have hcreated := generateInstallments_ok hschedule
  rw [← hfigures.sound_iff, ← schedule_sound_iff htenor hcreated]
  have hrows : rs = (((disburseLoan ids loan₀.id adminId now).after d).rows .installments).filter
      fun i => i.loanId = loan₀.id := by
    rw [← rows_of_file, hinstallments, List.map_map]
    exact (List.map_id rs).symm
  have hmem : ∀ {r : Installment}, r ∈ rs ↔
      r ∈ ((disburseLoan ids loan₀.id adminId now).after d).rows .installments ∧
        r.loanId = loan₀.id := by
    intro r
    rw [hrows, List.mem_filter, decide_eq_true_eq]
  constructor
  · rintro ⟨hsound, htotal, -⟩
    refine ⟨fun r hr => hsound r (hmem.1 hr).1 (hmem.1 hr).2, ?_⟩
    rw [hrows]
    exact htotal
  · rintro ⟨hsound, htotal⟩
    refine ⟨fun i hi hi' => hsound i (hmem.2 ⟨hi, hi'⟩), ?_, fun d' hlife' i hi hi' hunpaid ids' =>
      passes_of_collectable hlinked₁ ⟨⟨_, _, hloan, rfl⟩, fun x hx => ?_⟩ hlife' hi hi' hunpaid ids'⟩
    · rw [hrows] at htotal
      exact htotal
    · rw [hinstallments] at hx
      obtain ⟨r, hr, rfl⟩ := List.mem_map.1 hx
      exact ⟨(hsound r hr).principal, (hsound r hr).interest⟩

/-! ### Two amounts -/

/-- A loan of 3,000,000 over three months leaves 1,000,000 for the last month. -/
theorem canBeRepaid_threeMillion :
    ∃ loan loanPeriod, (handOut.after (approved 3000000 1)).loanWithPeriod 1 =
        some (loan, loanPeriod) ∧ CanBeRepaid (handOut.after (approved 3000000 1)) loan := by
  have hok : handOut.result (approved 3000000 1) = .ok () := by decide +kernel
  have hloan : ((handOut.after (approved 3000000 1)).loanWithPeriod 1).any (fun p =>
      p.2.tenor = 3 && p.2.interestRate.units = 100) = true := by
    decide +kernel
  obtain ⟨⟨loan, loanPeriod⟩, hfound, hperiod⟩ := Option.any_eq_true .. |>.1 hloan
  simp only [Bool.and_eq_true, decide_eq_true_eq] at hperiod
  refine ⟨loan, loanPeriod, hfound, (canBeRepaid_iff seeded_foreignKeys rfl
    (approved_life fun _ => rfl) hok hfound (by omega)).2 ?_⟩
  have hamount := fourDecimals_intCast (z := 3000000) (by norm_num)
    (show 0 < loanPeriod.interestRate.units by omega) (show 1 ≤ loanPeriod.tenor by omega)
  refine (hamount ?_).repayable_iff.2 ?_
  · rw [Numeric.toRat, hperiod.1, hperiod.2]
    norm_num
  · rw [hperiod.1]
    decide +kernel

/-- A loan of 10,000 over twelve months charges 1,000 a month and leaves -1,000 for the last, which
cannot be settled. -/
theorem tenThousand_cannot_be_repaid :
    ∃ loan loanPeriod i, LoanLife (requestingAmount 10000 1) 1 seeded (approved 10000 4) ∧
      handOut.result (approved 10000 4) = .ok () ∧
      (handOut.after (approved 10000 4)).loanWithPeriod 1 = some (loan, loanPeriod) ∧
      1 ≤ loanPeriod.tenor ∧ 0 < loanPeriod.interestRate.units ∧
      i ∈ (handOut.after (approved 10000 4)).rows .installments ∧
      i.principalAmount.units = -1000 * 10 ^ 4 ∧ i.status ≠ .paid ∧
      (settleInstallment ⟨⟨10, 10⟩, ⟨11, 11⟩, ⟨12, 12⟩⟩ i.id 1 ⟨2027, 1, 20⟩).result
        (handOut.after (approved 10000 4)) =
          .error (.checkViolation "chk_cashbook_amounts_positive") ∧
      ¬ CanBeRepaid (handOut.after (approved 10000 4)) loan := by
  have hok : handOut.result (approved 10000 4) = .ok () := by decide +kernel
  have hloan : ((handOut.after (approved 10000 4)).loanWithPeriod 1).any (fun p =>
      p.1.id = 1 && p.2.tenor = 12 && p.2.interestRate.units = 100) = true := by
    decide +kernel
  have hlast : ((handOut.after (approved 10000 4)).rows .installments).any (fun i =>
      i.loanId = 1 && i.principalAmount.units = -1000 * 10 ^ 4 && i.status ≠ .paid &&
        (settleInstallment ⟨⟨10, 10⟩, ⟨11, 11⟩, ⟨12, 12⟩⟩ i.id 1 ⟨2027, 1, 20⟩).result
          (handOut.after (approved 10000 4)) =
            .error (.checkViolation "chk_cashbook_amounts_positive")) = true := by
    decide +kernel
  obtain ⟨⟨loan, loanPeriod⟩, hfound, hperiod⟩ := Option.any_eq_true .. |>.1 hloan
  obtain ⟨i, hi, hlast⟩ := List.any_eq_true.1 hlast
  simp only [Bool.and_eq_true, decide_eq_true_eq] at hperiod hlast
  obtain ⟨⟨hid, htenor⟩, hrate⟩ := hperiod
  obtain ⟨⟨⟨hmine, hprincipal⟩, hunpaid⟩, hrefused⟩ := hlast
  refine ⟨loan, loanPeriod, i, approved_life fun _ => rfl, hok, hfound, by omega, by omega, hi, hprincipal,
    hunpaid, hrefused, fun h => ?_⟩
  have hsound := (h.sound i hi (hmine.trans hid.symm)).principal
  omega

end LumbungMesari
