import LumbungMesari.Penalties
import LumbungMesari.Seeds

/-!
# Due dates

A schedule is meant to fall on the 20th of one month after another. The month is found with
`setMonth` before the day is set, on the day of the month the loan was disbursed on: where a month
does not have that day, its installment slips into the next one.
-/

namespace LumbungMesari

open Sql

namespace Date

/-- Whether the month `n` months after the month of a date has the day of the date. -/
def hasDay (d : Date) (n : ℕ) : Bool :=
  d.day ≤ daysInMonth (d.firstOfMonth n).year (d.firstOfMonth n).month

theorem setMonth_of_hasDay {d : Date} {n : ℕ} (h : d.hasDay n = true) :
    d.setMonth n = { d.firstOfMonth n with day := d.day } :=
  if_pos (of_decide_eq_true h)

/-- A day that the month does not have puts `setMonth` in the next one. -/
theorem setMonth_of_not_hasDay {d : Date} {n : ℕ} (h : d.hasDay n = false) :
    (d.setMonth n).monthIndex = d.monthIndex + n + 1 := by
  obtain ⟨hfirst, -⟩ := d.firstOfMonth_spec n
  obtain ⟨hnext, -⟩ := (d.firstOfMonth n).firstOfMonth_spec 1
  have hslips : d.setMonth n = { (d.firstOfMonth n).firstOfMonth 1 with
      day := d.day - daysInMonth (d.firstOfMonth n).year (d.firstOfMonth n).month } :=
    if_neg (of_decide_eq_false h)
  rw [hslips]
  simp only [monthIndex] at hfirst hnext ⊢
  omega

end Date

/-- The 20th of the `i`-th month after the month of a day. -/
def twentieth (now : Date) (i : ℕ) : Date := { now.firstOfMonth i with day := 20 }

theorem twentieth_monthIndex (now : Date) (i : ℕ) :
    (twentieth now i).monthIndex = now.monthIndex + i := (now.firstOfMonth_spec i).1

/-- An installment is due in its month exactly when that month has the day of the disbursement. -/
theorem dueDate_eq_twentieth_iff (now : Date) (i : ℕ) :
    dueDate now i = twentieth now i ↔ now.hasDay i = true := by
  constructor
  · intro hdue
    by_contra hday
    rw [Bool.not_eq_true] at hday
    have hslips := Date.setMonth_of_not_hasDay hday
    have hmonth : (dueDate now i).monthIndex = (now.setMonth i).monthIndex := rfl
    rw [hdue, twentieth_monthIndex, hslips] at hmonth
    omega
  · intro hday
    rw [dueDate, Date.setMonth_of_hasDay hday]
    rfl

/-! ### Schedules -/

/-- The due dates of a schedule: the 20th of each month after the disbursement, in order, with no
month left out. -/
structure DueMonthly (now : Date) (rs : List Installment) : Prop where
  due : ∀ r ∈ rs, r.dueDate = twentieth now r.installmentNumber
  increasing : rs.Pairwise fun r r' => r.dueDate.le r'.dueDate = true ∧ r.dueDate ≠ r'.dueDate
  months : rs.map (·.dueDate.monthIndex) =
    (List.range rs.length).map fun k => now.monthIndex + (k + 1 : ℕ)

section Schedule

variable {now : Date} {loan : Loan} {tenor : ℕ} {processedBy : Uuid} {ids : ℕ → Uuid}
  {rs : List Installment}

theorem twentieth_lt {i j : ℕ} (h : i < j) :
    (twentieth now i).le (twentieth now j) = true ∧ twentieth now i ≠ twentieth now j := by
  have hi := twentieth_monthIndex now i
  have hj := twentieth_monthIndex now j
  refine ⟨Date.le_of_monthIndex (now.firstOfMonth_spec i).2 (now.firstOfMonth_spec j).2
    (le_refl 20) ?_, fun hsame => ?_⟩
  · rw [hi, hj]
    omega
  · rw [hsame, hj] at hi
    omega

theorem dueMonthly_of_hasDay (hnumbers : rs.map (·.installmentNumber) = List.range' 1 tenor)
    (hdue : ∀ r ∈ rs, r.dueDate = twentieth now r.installmentNumber) : DueMonthly now rs where
  due := hdue
  increasing := by
    have hsorted : rs.Pairwise fun r r' => r.installmentNumber < r'.installmentNumber := by
      have hlt : (rs.map (·.installmentNumber)).Pairwise (· < ·) :=
        hnumbers ▸ List.pairwise_lt_range'
      exact List.pairwise_map.1 hlt
    refine hsorted.imp_of_mem fun hr hr' hlt => ?_
    rw [hdue _ hr, hdue _ hr']
    exact twentieth_lt hlt
  months := by
    have hlength : rs.length = tenor := by
      have hlength := congrArg List.length hnumbers
      rwa [List.length_map, List.length_range'] at hlength
    have hmonths : rs.map (·.dueDate.monthIndex) =
        (rs.map (·.installmentNumber)).map fun i : ℕ => now.monthIndex + (i : ℤ) := by
      rw [List.map_map]
      refine List.map_congr_left fun r hr => ?_
      rw [hdue r hr, twentieth_monthIndex]
      rfl
    rw [hmonths, hnumbers, hlength, List.range'_eq_map_range, List.map_map]
    refine List.map_congr_left fun k _ => ?_
    rw [Function.comp_apply, Nat.add_comm]

/-- **Installments fall due on the 20th of one month after another** exactly when each month of the
schedule has the day of the month the loan is disbursed on. -/
theorem dueMonthly_iff (h : generateInstallments loan tenor processedBy now ids = .ok rs) :
    DueMonthly now rs ↔ ∀ i, 1 ≤ i → i ≤ tenor → now.hasDay i = true := by
  have hnumbers := LoanFile.numbers_generateInstallments (generateInstallments_ok h)
  have hdue : ∀ r ∈ rs, r.dueDate = dueDate now r.installmentNumber :=
    fun r hr => generateInstallments_dueDate h hr
  have hmem : ∀ {i : ℕ}, (∃ r ∈ rs, r.installmentNumber = i) ↔ 1 ≤ i ∧ i ≤ tenor := by
    intro i
    have hmap : (∃ r ∈ rs, r.installmentNumber = i) ↔ i ∈ rs.map (·.installmentNumber) :=
      List.mem_map.symm
    rw [hmap, hnumbers, List.mem_range'_1]
    omega
  constructor
  · intro hmonthly i hi hi'
    obtain ⟨r, hr, rfl⟩ := hmem.2 ⟨hi, hi'⟩
    exact (dueDate_eq_twentieth_iff now _).1 ((hdue r hr).symm.trans (hmonthly.due r hr))
  · intro hdays
    refine dueMonthly_of_hasDay hnumbers fun r hr => ?_
    obtain ⟨hi, hi'⟩ := hmem.1 ⟨r, hr, rfl⟩
    rw [hdue r hr]
    exact (dueDate_eq_twentieth_iff now _).2 (hdays _ hi hi')

end Schedule

/-! ### Two disbursements -/

/-- The schedule of the seeded loan over three months, disbursed on a day. -/
def disbursedOn (now : Date) : Option (List Installment) := do
  let loan ← withLoan.find .loans 1
  (generateInstallments loan 3 1 now id).toOption

theorem generated_of_disbursedOn {now : Date} {rs : List Installment}
    (h : disbursedOn now = some rs) : ∃ loan, withLoan.find .loans 1 = some loan ∧
      generateInstallments loan 3 1 now id = .ok rs := by
  obtain ⟨loan, hloan, hrs⟩ := Option.bind_eq_some_iff.1 h
  refine ⟨loan, hloan, ?_⟩
  cases hgenerated : generateInstallments loan 3 1 now id with
  | error e =>
      rw [hgenerated] at hrs
      cases hrs
  | ok rs' =>
      rw [hgenerated] at hrs
      cases hrs
      rfl

theorem dueMonthly_twentyEighth :
    ∃ rs, disbursedOn ⟨2026, 1, 28⟩ = some rs ∧ rs.length = 3 ∧ DueMonthly ⟨2026, 1, 28⟩ rs := by
  have hlength : (disbursedOn ⟨2026, 1, 28⟩).map List.length = some 3 := by decide +kernel
  obtain ⟨rs, hrs, hthree⟩ := Option.map_eq_some_iff.1 hlength
  obtain ⟨loan, -, hgenerated⟩ := generated_of_disbursedOn hrs
  have hdays : ∀ i < 4, Date.hasDay ⟨2026, 1, 28⟩ i = true := by decide
  exact ⟨rs, hrs, hthree, (dueMonthly_iff hgenerated).2 fun i _ hi =>
    hdays i (Nat.lt_succ_of_le hi)⟩

/-- **On the 31st of January** the first installment slips into March, on the day of the second, and
the third into May. -/
theorem thirtyFirst_slips :
    ∃ rs, disbursedOn ⟨2026, 1, 31⟩ = some rs ∧
      rs.map (·.dueDate) = [⟨2026, 3, 20⟩, ⟨2026, 3, 20⟩, ⟨2026, 5, 20⟩] ∧
      ¬ DueMonthly ⟨2026, 1, 31⟩ rs := by
  have hdates : (disbursedOn ⟨2026, 1, 31⟩).map (·.map (·.dueDate)) =
      some [⟨2026, 3, 20⟩, ⟨2026, 3, 20⟩, ⟨2026, 5, 20⟩] := by decide +kernel
  obtain ⟨rs, hrs, hdates⟩ := Option.map_eq_some_iff.1 hdates
  refine ⟨rs, hrs, hdates, fun h => ?_⟩
  have hmonths := h.months
  have hindex : rs.map (·.dueDate.monthIndex) = (rs.map (·.dueDate)).map Date.monthIndex := by
    rw [List.map_map]
    rfl
  have hlength : rs.length = 3 := by rw [← List.length_map (f := (·.dueDate)), hdates]; rfl
  rw [hindex, hdates, hlength] at hmonths
  exact absurd hmonths (by decide)

end LumbungMesari
