import LumbungMesari.Amounts
import LumbungMesari.Reports
import Mathlib.Algebra.BigOperators.Group.Finset.Basic
import Mathlib.Order.Interval.Finset.Nat

/-!
# The totals of the savings report

A payment replaces what was in its cell and is added to the total of its member, so the total is ahead
of the cells by the payments that later ones of the same month hide. A member has at most one record a
day, so its total stays below fifteen digits, and decimal.js adds it exactly.
-/

namespace LumbungMesari

open Sql Js

/-! ### Rows that are paged -/

/-- What the columns and the unique index of `mandatory_savings` promise. -/
structure SavingsSchema (d : Database) : Prop where
  dates : ∀ r ∈ d.rows .mandatorySavings, r.periodDate.Valid
  unique : ∀ r ∈ d.rows .mandatorySavings, ∀ r' ∈ d.rows .mandatorySavings,
    r.userId = r'.userId → r.periodDate = r'.periodDate → r = r'

/-- The paid records of a year of one user, by date. -/
def Database.paidByUser (o : UtcOffset) (year : ℤ) (userId : Uuid) (d : Database) :
    List PaidSavings :=
  ((d.paidOfYear o year).filter fun saving => userId = saving.userId).mergeSort
    (Date.orderBy.on PaidSavings.periodDate).le

section Rows

variable {o : UtcOffset} {year : ℤ} {d : Database} {saving saving' : PaidSavings}

theorem mem_paidOfYear (h : saving ∈ d.paidOfYear o year) :
    ∃ r ∈ d.rows .mandatorySavings, ∃ u, d.find .users r.userId = some u ∧
      saving = ⟨r.userId, u.fullname, r.periodDate, r.amount⟩ := by
  obtain ⟨r, hr, hsaving⟩ := List.mem_filterMap.1 h
  obtain ⟨u, hu, rfl⟩ := Option.map_eq_some_iff.1 hsaving
  exact ⟨r, List.mem_of_mem_filter hr, u, hu, rfl⟩

theorem fullname_eq (h : saving ∈ d.paidOfYear o year) (h' : saving' ∈ d.paidOfYear o year)
    (huser : saving.userId = saving'.userId) : saving.fullname = saving'.fullname := by
  obtain ⟨r, -, u, hu, rfl⟩ := mem_paidOfYear h
  obtain ⟨r', -, u', hu', rfl⟩ := mem_paidOfYear h'
  simp only at huser
  rw [huser, hu'] at hu
  exact congrArg User.fullname (Option.some.inj hu).symm

theorem SavingsSchema.eq_of_paid (hd : SavingsSchema d) (h : saving ∈ d.paidOfYear o year)
    (h' : saving' ∈ d.paidOfYear o year) (huser : saving.userId = saving'.userId)
    (hdate : saving.periodDate = saving'.periodDate) : saving = saving' := by
  obtain ⟨r, hr, u, hu, rfl⟩ := mem_paidOfYear h
  obtain ⟨r', hr', u', hu', rfl⟩ := mem_paidOfYear h'
  obtain rfl : r = r' := hd.unique r hr r' hr' huser hdate
  rw [hu] at hu'
  rw [Option.some.inj hu']

theorem SavingsSchema.nodup_paidOfYear (hd : SavingsSchema d) : (d.paidOfYear o year).Nodup := by
  have hrows : (d.rows .mandatorySavings).Nodup := .of_map _ (d.table .mandatorySavings).nodup
  refine List.pairwise_filterMap.2 (List.Pairwise.imp_of_mem ?_ (hrows.filter _))
  intro r r' hr hr' hne saving hsaving saving' hsaving' hsame
  subst hsame
  obtain ⟨u, -, rfl⟩ := Option.map_eq_some_iff.1 hsaving
  obtain ⟨u', -, hkey⟩ := Option.map_eq_some_iff.1 hsaving'
  obtain ⟨huser, -, hdate, -⟩ := PaidSavings.mk.inj hkey
  exact hne (hd.unique r (List.mem_of_mem_filter hr) r' (List.mem_of_mem_filter hr') huser.symm
    hdate.symm)

theorem SavingsSchema.month_lt (hd : SavingsSchema d) (h : saving ∈ d.paidOfYear o year) :
    saving.month o < 12 := by
  obtain ⟨r, hr, u, hu, rfl⟩ := mem_paidOfYear h
  have hvalid := (hd.dates r hr).month
  have hread := Instant.toDate_midnight (o := o) r.periodDate
  rw [PaidSavings.month, parseDate]
  change ((Instant.mk r.periodDate .midnight).toDate o).month - 1 < 12
  rw [hread]
  have hprev : r.periodDate.prev.month ≤ 12 := by
    unfold Date.prev
    split
    · exact hvalid.2
    split <;> simp only <;> omega
  split <;> omega

theorem year_of_paidOfYear (h : saving ∈ d.paidOfYear o year) :
    saving.periodDate.year = fullYear year := by
  obtain ⟨r, hr, hsaving⟩ := List.mem_filterMap.1 h
  obtain ⟨u, -, rfl⟩ := Option.map_eq_some_iff.1 hsaving
  have hbetween := (of_decide_eq_true (List.mem_filter.1 hr).2).2
  have hfirst : (⟨fullYear year, 0 + 1, 1⟩ : Date).Valid := Date.valid_first (by omega)
  have hlast : (⟨fullYear year, 12, 31⟩ : Date).Valid := ⟨by simp, by simp⟩
  rw [whereBetween, newDate, newDate, makeDay_one (by omega), makeDay_december,
    Instant.toDate_ofLocal hfirst, Instant.toDate_ofLocal hlast] at hbetween
  simp only [Date.le, Bool.and_eq_true, Bool.or_eq_true, decide_eq_true_eq] at hbetween
  simp only
  omega

end Rows

/-! ### Hidden payments -/

/-- The payments that a later one of the same month hides in its cell. -/
def hidden (o : UtcOffset) : List PaidSavings → List PaidSavings
  | [] => []
  | saving :: savings =>
      if savings.any fun later => later.month o = saving.month o then saving :: hidden o savings
      else hidden o savings

/-- What some payments come to. -/
def amounts (savings : List PaidSavings) : ℚ := (savings.map (·.amount.toRat)).sum

@[simp] theorem amounts_cons (saving : PaidSavings) (savings : List PaidSavings) :
    amounts (saving :: savings) = saving.amount.toRat + amounts savings := List.sum_cons

namespace MemberSavingsData

/-- The value of a cell; an empty one has none. -/
def cell (m : MemberSavingsData) (month : ℕ) : ℚ := (m.monthlyPayments[month]?.join).getD 0

/-- What the cells come to. -/
def cells (m : MemberSavingsData) : ℚ := (m.monthlyPayments.map (·.getD 0)).sum

variable {o : UtcOffset} {m : MemberSavingsData} {saving : PaidSavings} {savings : List PaidSavings}
  {month : ℕ}

/-- A payment replaces what was in its cell. -/
theorem cells_pay (hmonth : saving.month o < m.monthlyPayments.length) :
    (m.pay o saving).cells + m.cell (saving.month o) = m.cells + saving.amount.toRat := by
  have hlength : saving.month o < (m.monthlyPayments.map (·.getD 0)).length := by
    rwa [List.length_map]
  have hcell : (m.monthlyPayments.map (·.getD 0))[saving.month o] = m.cell (saving.month o) := by
    rw [List.getElem_map, cell, List.getElem?_eq_getElem hmonth]
    rfl
  simp only [cells, pay, List.map_set, List.sum_set', dif_pos hlength, hcell, Option.getD_some]
  ring

theorem cell_pay (hmonth : saving.month o < m.monthlyPayments.length) : (m.pay o saving).cell month =
    if month = saving.month o then saving.amount.toRat else m.cell month := by
  unfold cell pay
  simp only
  split
  · rename_i hsame
    rw [hsame, List.getElem?_set_self hmonth]
    rfl
  · rename_i hother
    rw [List.getElem?_set_ne (Ne.symm hother)]

/-- The payments come to what is in the cells afterwards, what they hide of each other, and what was
in their cells before. -/
theorem cells_foldl_pay
    (hmonths : ∀ saving ∈ savings, saving.month o < m.monthlyPayments.length) :
    (savings.foldl (fun m saving => m.pay o saving) m).cells + amounts (hidden o savings) +
        ∑ month ∈ (savings.map (·.month o)).toFinset, m.cell month = m.cells + amounts savings := by
  induction savings generalizing m with
  | nil => simp [hidden, amounts]
  | cons saving savings ih =>
      rw [List.forall_mem_cons] at hmonths
      have hrest : ∀ later ∈ savings, later.month o < (m.pay o saving).monthlyPayments.length := by
        intro later hlater
        rw [pay, List.length_set]
        exact hmonths.2 later hlater
      have hpay := cells_pay hmonths.1
      have hagain := ih hrest
      rw [List.foldl_cons, List.map_cons, List.toFinset_cons, amounts_cons]
      have hlater : (savings.any fun later => later.month o = saving.month o) = true ↔
          saving.month o ∈ (savings.map (·.month o)).toFinset := by simp
      by_cases hmem : saving.month o ∈ (savings.map (·.month o)).toFinset
      · -- A later payment takes the cell, so this one is hidden.
        have hothers : ∀ month ∈ ((savings.map (·.month o)).toFinset).erase (saving.month o),
            (m.pay o saving).cell month = m.cell month := by
          intro month hmonth
          rw [cell_pay hmonths.1, if_neg (Finset.ne_of_mem_erase hmonth)]
        rw [← Finset.add_sum_erase _ _ hmem, Finset.sum_congr rfl hothers, cell_pay hmonths.1,
          if_pos rfl] at hagain
        rw [hidden, if_pos (hlater.2 hmem), amounts_cons, Finset.insert_eq_of_mem hmem,
          ← Finset.add_sum_erase _ _ hmem]
        linarith
      · have hothers : ∀ month ∈ (savings.map (·.month o)).toFinset,
            (m.pay o saving).cell month = m.cell month := by
          intro month hmonth
          rw [cell_pay hmonths.1, if_neg (ne_of_mem_of_not_mem hmonth hmem)]
        rw [Finset.sum_congr rfl hothers] at hagain
        rw [hidden, if_neg fun h => hmem (hlater.1 h), Finset.sum_insert hmem]
        linarith

theorem total_foldl_pay : (savings.foldl (fun m saving => m.pay o saving) m).total =
    (savings.map (·.amount.toRat)).foldl Double.plus m.total := by
  induction savings generalizing m with
  | nil => rfl
  | cons saving savings ih => rw [List.foldl_cons, ih, List.map_cons, List.foldl_cons, pay]

theorem length_foldl_pay : (savings.foldl (fun m saving => m.pay o saving) m).monthlyPayments.length =
    m.monthlyPayments.length := by
  induction savings generalizing m with
  | nil => rfl
  | cons saving savings ih => rw [List.foldl_cons, ih, pay, List.length_set]

@[simp] theorem cell_memberData (member : Uuid × String) (month : ℕ) :
    (memberData member).cell month = 0 := by
  rw [cell, memberData, List.getElem?_replicate]
  split <;> rfl

end MemberSavingsData

/-! ### Exact sums -/

section Exact

variable {o : UtcOffset} {year : ℤ} {d : Database} {userId : Uuid} {saving : PaidSavings}
  {savings : List PaidSavings}

theorem mem_paidByUser (h : saving ∈ d.paidByUser o year userId) :
    saving ∈ d.paidOfYear o year ∧ userId = saving.userId := by
  have hmem := List.mem_filter.1 ((List.mergeSort_perm _ _).mem_iff.1 h)
  exact ⟨hmem.1, of_decide_eq_true hmem.2⟩

theorem SavingsSchema.length_paidByUser_le (hd : SavingsSchema d) :
    (d.paidByUser o year userId).length ≤ 372 := by
  have hnodup : ((d.paidByUser o year userId).map fun saving =>
      (saving.periodDate.month, saving.periodDate.day)).Nodup := by
    have hrows : (d.paidByUser o year userId).Nodup :=
      (List.mergeSort_perm _ _).nodup_iff.2 (hd.nodup_paidOfYear.filter _)
    refine hrows.map_on fun a ha b hb hday => ?_
    obtain ⟨ha, hau⟩ := mem_paidByUser ha
    obtain ⟨hb, hbu⟩ := mem_paidByUser hb
    refine hd.eq_of_paid ha hb (hau.symm.trans hbu) (Date.ext ?_ ?_ ?_)
    · rw [year_of_paidOfYear ha, year_of_paidOfYear hb]
    · exact congrArg Prod.fst hday
    · exact congrArg Prod.snd hday
  have hdays : ((d.paidByUser o year userId).map fun saving =>
      (saving.periodDate.month, saving.periodDate.day)).toFinset ⊆
        Finset.Icc 1 12 ×ˢ Finset.Icc 1 31 := by
    intro day hday
    obtain ⟨saving, hsaving, rfl⟩ := List.mem_map.1 (List.mem_toFinset.1 hday)
    obtain ⟨r, hr, u, -, rfl⟩ := mem_paidOfYear (mem_paidByUser hsaving).1
    have hvalid := hd.dates r hr
    have hbounds := Date.daysInMonth_bounds r.periodDate.year r.periodDate.month
    rw [Finset.mem_product, Finset.mem_Icc, Finset.mem_Icc]
    exact ⟨hvalid.month, hvalid.day.1, hvalid.day.2.trans hbounds.2⟩
  have hcard := Finset.card_le_card hdays
  rwa [List.toFinset_card_of_nodup hnodup, List.length_map, Finset.card_product, Nat.card_Icc,
    Nat.card_Icc] at hcard

theorem decimal_amounts (savings : List PaidSavings) : Decimal 4 (amounts savings) := by
  refine .sum fun amount hamount => ?_
  obtain ⟨saving, -, rfl⟩ := List.mem_map.1 hamount
  exact saving.amount.decimal_toRat

theorem SavingsSchema.abs_amounts_le (hd : SavingsSchema d) :
    |amounts (d.paidByUser o year userId)| ≤ 372 * 10 ^ 8 := by
  have hlength : ((d.paidByUser o year userId).length : ℚ) ≤ 372 := by
    exact_mod_cast hd.length_paidByUser_le
  refine (Double.abs_sum_le (b := 10 ^ 8) fun amount hamount => ?_).trans ?_
  · obtain ⟨saving, -, rfl⟩ := List.mem_map.1 hamount
    exact saving.amount.abs_toRat_le
  · rw [List.length_map]
    exact mul_le_mul_of_nonneg_right hlength (by norm_num)

theorem SavingsSchema.total_eq (hd : SavingsSchema d) (member : Uuid × String) :
    ((d.paidByUser o year userId).foldl (fun m saving => m.pay o saving) (memberData member)).total =
      .ofRat (amounts (d.paidByUser o year userId)) := by
  have hlength : ((d.paidByUser o year userId).length : ℚ) ≤ 372 := by
    exact_mod_cast hd.length_paidByUser_le
  rw [MemberSavingsData.total_foldl_pay, memberData, ← Double.ofRat_zero,
    Double.foldl_plus (s := 4) (b := 10 ^ 8) (by norm_num) .zero, zero_add, amounts]
  · intro amount hamount
    obtain ⟨saving, -, rfl⟩ := List.mem_map.1 hamount
    exact ⟨saving.amount.decimal_toRat, saving.amount.abs_toRat_le⟩
  · rw [abs_zero, zero_add, List.length_map]
    linarith

theorem SavingsSchema.toDecimal_ofRat_amounts (hd : SavingsSchema d) :
    (Double.ofRat (amounts (d.paidByUser o year userId))).toDecimal =
      amounts (d.paidByUser o year userId) := by
  refine Double.toDecimal_of_decimal (s := 4) (by norm_num) (decimal_amounts _) ?_
  have habs : |amounts (d.paidByUser o year userId)| ≤ 372 * 10 ^ 8 := hd.abs_amounts_le
  linarith

end Exact

/-! ### The footer -/

/-- The payments of a year of a user, as its row shows them. -/
def Database.monthlyPayments (o : UtcOffset) (year : ℤ) (d : Database) (userId : Uuid) :
    List (Option ℚ) :=
  (d.paidByUser o year userId).foldl
    (fun cells saving => cells.set (saving.month o) (some saving.amount.toRat))
    (List.replicate 12 none)

/-- Over the payments of some users, the totals of the months, which decimal.js adds, come to the
total of the year, which is added with `+`. -/
def Database.FooterAgrees (o : UtcOffset) (year : ℤ) (d : Database) (userIds : List Uuid) : Prop :=
  ((((userIds.map (d.monthlyPayments o year)).foldl addMonthly (List.replicate 12 0)).map
      (·.toDecimal)).sum) =
    ((userIds.map fun userId => amounts (d.paidByUser o year userId)).foldl
      (fun sum total => sum + Double.ofRat total) 0).toDecimal

/-- What a member adds to the exact totals of the months. -/
def addCells (totals : List ℚ) (cells : List (Option ℚ)) : List ℚ :=
  List.zipWith (fun total amount => total + amount.getD 0) totals cells

theorem sum_addCells {totals : List ℚ} {cells : List (Option ℚ)}
    (h : cells.length = totals.length) :
    (addCells totals cells).sum = totals.sum + (cells.map (·.getD 0)).sum := by
  induction totals generalizing cells with
  | nil => simp [addCells, List.eq_nil_of_length_eq_zero h]
  | cons total totals ih =>
      cases cells with
      | nil => cases h
      | cons cell cells =>
          have hrest := ih (Nat.succ.inj h)
          rw [addCells] at hrest
          rw [addCells, List.zipWith_cons_cons, List.sum_cons, hrest, List.map_cons, List.sum_cons,
            List.sum_cons]
          ring

theorem length_addCells {totals : List ℚ} {cells : List (Option ℚ)}
    (h : cells.length = totals.length) : (addCells totals cells).length = totals.length := by
  rw [addCells, List.length_zipWith, h, min_self]

theorem sum_foldl_addCells {rows : List (List (Option ℚ))} {totals : List ℚ}
    (h : ∀ cells ∈ rows, cells.length = totals.length) :
    (rows.foldl addCells totals).sum =
      totals.sum + (rows.map fun cells => (cells.map (·.getD 0)).sum).sum := by
  induction rows generalizing totals with
  | nil => exact (add_zero _).symm
  | cons cells rows ih =>
      rw [List.forall_mem_cons] at h
      have hlength := length_addCells h.1
      rw [List.foldl_cons, ih fun cells' hcells' => (h.2 cells' hcells').trans hlength.symm,
        sum_addCells h.1, List.map_cons, List.sum_cons, add_assoc]

section Footer

variable {o : UtcOffset} {year : ℤ} {d : Database} {userId : Uuid} {userIds : List Uuid}
  {savings : List PaidSavings} {m : MemberSavingsData} {s : ℕ} {b : ℚ}

theorem monthlyPayments_foldl_pay :
    (savings.foldl (fun m saving => m.pay o saving) m).monthlyPayments =
      savings.foldl (fun cells saving => cells.set (saving.month o) (some saving.amount.toRat))
        m.monthlyPayments := by
  induction savings generalizing m with
  | nil => rfl
  | cons saving savings ih => rw [List.foldl_cons, ih, List.foldl_cons, MemberSavingsData.pay]

theorem mem_addCells {totals : List ℚ} {cells : List (Option ℚ)} {total : ℚ}
    (h : total ∈ addCells totals cells) :
    ∃ old ∈ totals, ∃ amount ∈ cells, total = old + amount.getD 0 := by
  obtain ⟨i, hi, rfl⟩ := List.getElem_of_mem h
  rw [addCells, List.length_zipWith, lt_min_iff] at hi
  exact ⟨totals[i], List.getElem_mem hi.1, cells[i], List.getElem_mem hi.2, List.getElem_zipWith ..⟩

theorem addMonthly_ofRat (hs : s ≤ 300) {totals : List ℚ} {cells : List (Option ℚ)} (hb : 0 ≤ b)
    (hcells : ∀ amount, some amount ∈ cells → Decimal s amount ∧ |amount| ≤ b)
    (htotals : ∀ total ∈ totals, Decimal s total ∧ (|total| + b) * 10 ^ s < 10 ^ 15) :
    addMonthly (totals.map Double.ofRat) cells = (addCells totals cells).map Double.ofRat := by
  have hlength : (addMonthly (totals.map Double.ofRat) cells).length =
      ((addCells totals cells).map Double.ofRat).length := by simp [addMonthly, addCells]
  refine List.ext_getElem hlength fun i hi _ => ?_
  have hi' : i < totals.length ∧ i < cells.length := by simpa [addMonthly] using hi
  obtain ⟨htotal, hbound⟩ := htotals totals[i] (List.getElem_mem hi'.1)
  simp only [addMonthly, addCells, List.getElem_zipWith, List.getElem_map]
  generalize hamount : cells[i] = amount
  cases amount with
  | none => rw [Option.elim_none, Option.getD_none, add_zero]
  | some amount =>
      obtain ⟨hdecimal, hle⟩ := hcells amount (hamount ▸ List.getElem_mem hi'.2)
      have hten : (0 : ℚ) < 10 ^ s := by positivity
      have hold : |totals[i]| * 10 ^ s ≤ (|totals[i]| + b) * 10 ^ s :=
        mul_le_mul_of_nonneg_right (le_add_of_nonneg_right hb) hten.le
      have hsum : |totals[i] + amount| * 10 ^ s ≤ (|totals[i]| + b) * 10 ^ s :=
        mul_le_mul_of_nonneg_right ((abs_add_le _ _).trans (add_le_add_right hle _)) hten.le
      exact Double.plus_ofRat hs htotal hdecimal (hold.trans_lt hbound)
        (hsum.trans_lt (hbound.trans (by norm_num)))

theorem foldl_addMonthly (hs : s ≤ 300) {rows : List (List (Option ℚ))} {totals : List ℚ}
    (hb : 0 ≤ b)
    (hrows : ∀ cells ∈ rows, ∀ amount, some amount ∈ cells → Decimal s amount ∧ |amount| ≤ b)
    (htotals : ∀ total ∈ totals, Decimal s total ∧ (|total| + rows.length * b) * 10 ^ s < 10 ^ 15) :
    rows.foldl addMonthly (totals.map Double.ofRat) =
        (rows.foldl addCells totals).map Double.ofRat ∧
      ∀ total ∈ rows.foldl addCells totals, Decimal s total ∧ |total| * 10 ^ s < 10 ^ 15 := by
  induction rows generalizing totals with
  | nil => simpa using htotals
  | cons cells rows ih =>
      rw [List.forall_mem_cons] at hrows
      have hten : (0 : ℚ) < 10 ^ s := by positivity
      have hone : ∀ total ∈ totals, Decimal s total ∧ (|total| + b) * 10 ^ s < 10 ^ 15 := by
        intro total htotal
        obtain ⟨hdecimal, hbound⟩ := htotals total htotal
        refine ⟨hdecimal, lt_of_le_of_lt (mul_le_mul_of_nonneg_right ?_ hten.le) hbound⟩
        rw [List.length_cons]
        push_cast
        nlinarith [(rows.length.cast_nonneg : (0 : ℚ) ≤ rows.length)]
      rw [List.foldl_cons, List.foldl_cons, addMonthly_ofRat hs hb hrows.1 hone]
      refine ih hrows.2 fun total htotal => ?_
      obtain ⟨old, hold, amount, hamount, rfl⟩ := mem_addCells htotal
      obtain ⟨hdecimal, hbound⟩ := htotals old hold
      have hadded : Decimal s (amount.getD 0) ∧ |amount.getD 0| ≤ b := by
        cases amount with
        | none => exact ⟨.zero, abs_zero.trans_le hb⟩
        | some amount => exact hrows.1 amount hamount
      refine ⟨hdecimal.add hadded.1, lt_of_le_of_lt (mul_le_mul_of_nonneg_right ?_ hten.le) hbound⟩
      have habs := abs_add_le old (amount.getD 0)
      have hle := hadded.2
      rw [List.length_cons]
      push_cast
      linarith

theorem mem_foldl_set {cells : List (Option ℚ)} {amount : ℚ}
    (h : some amount ∈ savings.foldl
      (fun cells saving => cells.set (saving.month o) (some saving.amount.toRat)) cells) :
    some amount ∈ cells ∨ ∃ saving ∈ savings, amount = saving.amount.toRat := by
  induction savings generalizing cells with
  | nil => exact .inl h
  | cons saving savings ih =>
      rcases ih h with hset | ⟨later, hlater, rfl⟩
      · rcases List.mem_or_eq_of_mem_set hset with hcell | hsame
        · exact .inl hcell
        · exact .inr ⟨saving, List.mem_cons_self .., Option.some.inj hsame⟩
      · exact .inr ⟨later, List.mem_cons_of_mem _ hlater, rfl⟩

theorem mem_monthlyPayments {amount : ℚ} (h : some amount ∈ d.monthlyPayments o year userId) :
    ∃ saving ∈ d.paidOfYear o year, amount = saving.amount.toRat := by
  rcases mem_foldl_set h with hnone | ⟨saving, hsaving, rfl⟩
  · cases (List.mem_replicate.1 hnone).2
  · exact ⟨saving, (mem_paidByUser hsaving).1, rfl⟩

@[simp] theorem length_monthlyPayments : (d.monthlyPayments o year userId).length = 12 := by
  have hmember : ((d.paidByUser o year userId).foldl (fun m saving => m.pay o saving)
      (memberData (userId, ""))).monthlyPayments = d.monthlyPayments o year userId :=
    monthlyPayments_foldl_pay
  rw [← hmember, MemberSavingsData.length_foldl_pay]
  exact List.length_replicate

theorem SavingsSchema.sum_monthlyPayments (hd : SavingsSchema d) (userId : Uuid) :
    ((d.monthlyPayments o year userId).map (·.getD 0)).sum +
      amounts (hidden o (d.paidByUser o year userId)) = amounts (d.paidByUser o year userId) := by
  have hmonths : ∀ saving ∈ d.paidByUser o year userId,
      saving.month o < (memberData (userId, "")).monthlyPayments.length := by
    intro saving hsaving
    exact (hd.month_lt (mem_paidByUser hsaving).1).trans_eq List.length_replicate.symm
  have hpaid := MemberSavingsData.cells_foldl_pay hmonths
  simp only [MemberSavingsData.cells, MemberSavingsData.cell_memberData, Finset.sum_const_zero,
    add_zero, monthlyPayments_foldl_pay] at hpaid
  simpa [memberData, Database.monthlyPayments] using hpaid

/-- Whole amounts of up to ten thousand members are added exactly. -/
theorem SavingsSchema.footerAgrees (hd : SavingsSchema d)
    (hwhole : ∀ saving ∈ d.paidOfYear o year, Decimal 0 saving.amount.toRat)
    (hhidden : ∀ userId ∈ userIds, amounts (hidden o (d.paidByUser o year userId)) = 0)
    (hcount : userIds.length ≤ 10 ^ 4) : d.FooterAgrees o year userIds := by
  have hlength : (userIds.length : ℚ) ≤ 10 ^ 4 := by exact_mod_cast hcount
  -- the total of the year
  have hpaid : ∀ total ∈ userIds.map fun userId => amounts (d.paidByUser o year userId),
      Decimal 0 total ∧ |total| ≤ 372 * 10 ^ 8 := by
    intro total htotal
    obtain ⟨userId, -, rfl⟩ := List.mem_map.1 htotal
    refine ⟨.sum fun amount hamount => ?_, hd.abs_amounts_le⟩
    obtain ⟨saving, hsaving, rfl⟩ := List.mem_map.1 hamount
    exact hwhole saving (mem_paidByUser hsaving).1
  have hgrand : |(userIds.map fun userId => amounts (d.paidByUser o year userId)).sum| <
      10 ^ 15 := by
    refine (Double.abs_sum_le fun total htotal => (hpaid total htotal).2).trans_lt ?_
    rw [List.length_map]
    linarith
  -- the totals of the months
  have hcells : ∀ cells ∈ userIds.map (d.monthlyPayments o year), ∀ amount, some amount ∈ cells →
      Decimal 0 amount ∧ |amount| ≤ 10 ^ 8 := by
    intro cells hcells amount hamount
    obtain ⟨userId, -, rfl⟩ := List.mem_map.1 hcells
    obtain ⟨saving, hsaving, rfl⟩ := mem_monthlyPayments hamount
    exact ⟨hwhole saving hsaving, saving.amount.abs_toRat_le⟩
  have hstart : ∀ total ∈ List.replicate 12 (0 : ℚ), Decimal 0 total ∧
      (|total| + (userIds.map (d.monthlyPayments o year)).length * 10 ^ 8) * 10 ^ 0 < 10 ^ 15 := by
    intro total htotal
    rw [List.eq_of_mem_replicate htotal, List.length_map]
    refine ⟨.zero, ?_⟩
    rw [abs_zero]
    linarith
  obtain ⟨hmonths, hdecimals⟩ := foldl_addMonthly (by norm_num) (by norm_num) hcells hstart
  rw [List.map_replicate, Double.ofRat_zero] at hmonths
  have hprinted : ((userIds.map (d.monthlyPayments o year)).foldl addCells
      (List.replicate 12 0)).map (fun total => (Double.ofRat total).toDecimal) =
      (userIds.map (d.monthlyPayments o year)).foldl addCells (List.replicate 12 0) := by
    refine (List.map_congr_left fun total htotal => ?_).trans (List.map_id _)
    exact Double.toDecimal_of_decimal (by norm_num) (hdecimals total htotal).1 (hdecimals total htotal).2
  -- both come to what the cells come to
  have hsum : (userIds.map fun userId => ((d.monthlyPayments o year userId).map (·.getD 0)).sum) =
      userIds.map fun userId => amounts (d.paidByUser o year userId) := by
    refine List.map_congr_left fun userId huser => ?_
    rw [← hd.sum_monthlyPayments userId, hhidden userId huser, add_zero]
  have htotal := Double.foldl_add_whole (q := 0) .zero hpaid (by
    rw [abs_zero, List.length_map]
    linarith)
  have hlengths : ∀ cells ∈ userIds.map (d.monthlyPayments o year),
      cells.length = (List.replicate 12 (0 : ℚ)).length := by
    intro cells hcells
    obtain ⟨userId, -, rfl⟩ := List.mem_map.1 hcells
    rw [length_monthlyPayments, List.length_replicate]
  rw [Double.ofRat_zero, zero_add] at htotal
  rw [Database.FooterAgrees, hmonths, List.map_map, htotal,
    Double.toDecimal_of_decimal (s := 0) (by norm_num)
      (.sum fun total h => (hpaid total h).1) (by rwa [pow_zero, mul_one]), ← hsum]
  change (List.map (fun total => (Double.ofRat total).toDecimal) _).sum = _
  rw [hprinted, sum_foldl_addCells hlengths, List.map_map]
  simp [Function.comp_def]

end Footer

end LumbungMesari
