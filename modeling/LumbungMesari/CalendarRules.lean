import LumbungMesari.CalendarRuns
import LumbungMesari.ReportTotals

/-!
# What the calendar shows

Every query gives bounds of its own to the dates it looks for, and the report reads the month back
from the text of a date. Whether they agree on the records of a month and of a year depends on the
offset of the process: a UTC end of day is on the next day for clocks that are ahead.
-/

namespace LumbungMesari

open Sql
open Prog (onPool)

/-! ### Bounds -/

section Bounds

variable {o : UtcOffset} {year year' : ℤ} {month month' : ℕ}

/-- A UTC midnight is on its own day for clocks that are not behind. -/
theorem toDate_utc_midnight (ho : 0 ≤ o.ms) {day : ℕ} :
    (utc year month day .midnight).toDate o = makeDay year month day := by
  rw [utc, Instant.toDate_midnight, if_neg (not_lt.2 ho)]

/-- The bounds in UTC let the first day of the next year in, for clocks that are ahead. -/
theorem whereBetween_utc_year (ho : 0 ≤ o.ms) (hmonth : month < 12) :
    whereBetween o (utc year 0 1 .midnight) (utc year 11 31 .lastMillisecond)
      ⟨year', month + 1, 1⟩ = true ↔
    year' = fullYear year ∨ 0 < o.ms ∧ year' = fullYear year + 1 ∧ month = 0 := by
  rw [whereBetween, toDate_utc_midnight ho, makeDay_one (by omega), utc,
    Instant.toDate_lastMillisecond, makeDay_december]
  have hnext : (⟨fullYear year, 12, 31⟩ : Date).next = ⟨fullYear year + 1, 1, 1⟩ := by
    simp [Date.next]
  rw [hnext]
  split <;> simp only [Date.le, Bool.and_eq_true, Bool.or_eq_true, decide_eq_true_eq] <;> omega

theorem whereBetween_newDate_year (hmonth : month < 12) :
    whereBetween o (newDate o year 0 1 .midnight) (newDate o year 11 31 .lastSecond)
      ⟨year', month + 1, 1⟩ = true ↔ year' = fullYear year := by
  have hfirst : (⟨fullYear year, 0 + 1, 1⟩ : Date).Valid := Date.valid_first (by omega)
  have hlast : (⟨fullYear year, 12, 31⟩ : Date).Valid := ⟨by simp, by simp⟩
  rw [whereBetween, newDate, newDate, makeDay_one (by omega), makeDay_december,
    Instant.toDate_ofLocal hfirst, Instant.toDate_ofLocal hlast]
  simp only [Date.le, Bool.and_eq_true, Bool.or_eq_true, decide_eq_true_eq]
  omega

theorem whereBetween_utc_month (ho : 0 ≤ o.ms) (hmonth : month < 12) :
    whereBetween o (utc year month 1 .midnight) (utc year (month + 1) 0 .midnight)
      ⟨year', month' + 1, 1⟩ = true ↔ year' = fullYear year ∧ month' = month := by
  have hdays := Date.daysInMonth_bounds (fullYear year) (month + 1)
  rw [whereBetween, toDate_utc_midnight ho, toDate_utc_midnight ho, makeDay_one hmonth,
    makeDay_zero hmonth]
  simp only [Date.le, Bool.and_eq_true, Bool.or_eq_true, decide_eq_true_eq]
  omega

theorem toLocal_parseDate (ho : 0 ≤ o.ms) (d : Date) : ((parseDate d).toLocal o).date = d := by
  have hread := Instant.toDate_midnight (o := o) d
  rwa [if_neg (not_lt.2 ho)] at hread

end Bounds

/-! ### Records of a month and of a year -/

/-- The date of the record is the one that is given to the records of the month. -/
def MandatorySavings.OfMonth (o : UtcOffset) (year : ℤ) (month : ℕ) (r : MandatorySavings) : Prop :=
  r.periodDate = LumbungMesari.periodDate o year month

def MandatorySavings.OfYear (o : UtcOffset) (year : ℤ) (r : MandatorySavings) : Prop :=
  ∃ month, month < 12 ∧ r.OfMonth o year month

instance (o : UtcOffset) (year : ℤ) (month : ℕ) (r : MandatorySavings) :
    Decidable (r.OfMonth o year month) := inferInstanceAs (Decidable (_ = _))

instance (o : UtcOffset) (year : ℤ) (r : MandatorySavings) : Decidable (r.OfYear o year) :=
  inferInstanceAs (Decidable (∃ month, month < 12 ∧ _))

/-- What a record and a row of the paid records have in common. -/
def MandatorySavings.entry (r : MandatorySavings) : Uuid × Date × Money :=
  (r.userId, r.periodDate, r.amount)

def PaidSavings.entry (saving : PaidSavings) : Uuid × Date × Money :=
  (saving.userId, saving.periodDate, saving.amount)

/-- The pages of both queries of the report show every row once. -/
structure ReportPlan.Partitions {collation : OrderBy String} (plan : ReportPlan collation)
    (o : UtcOffset) (year : ℤ) (d : Database) : Prop where
  members : FetchPartitions (getActiveMembersFullname plan.members · batchSize) d.activeMembers d
  savings : FetchPartitions (findPaidMandatorySavingsByYear plan.savings o year · batchSize)
    (d.paidOfYear o year) d

/-- The records of a user and a year are the same on every path. -/
structure CalendarAgrees (o : UtcOffset) (d : Database) (userId : Uuid) (year : ℤ) : Prop where
  /-- The records of the year, of the year before and of the year after have the first days of their
  months. -/
  dated : ∀ r ∈ d.rows .mandatorySavings, ∀ year', year - 1 ≤ year' → year' ≤ year + 1 →
    ∀ month, month < 12 → r.OfMonth o year' month → r.periodDate = ⟨year', month + 1, 1⟩
  byUser : ∃ rs, (findByUserIdAndYear o userId year).result d = .ok rs ∧
    rs.Perm ((d.rows .mandatorySavings).filter fun r => r.userId = userId ∧ r.OfYear o year)
  /-- The pages of the paid records, of any size and in any order of the ties. -/
  paid : ∀ {collation : OrderBy String} (plan : Plan (byFullnameAndPeriod collation)) (page limit : ℕ),
    0 < limit →
    let savings := plan.list (page + 1) (d.paidOfYear o year)
    (findPaidMandatorySavingsByYear plan o year (page + 1) limit).result d =
      .ok (createPaginationMetadata ((savings.drop (page * limit)).take limit) (page + 1) limit
        savings.length) ∧
    (savings.map PaidSavings.entry).Perm (((d.rows .mandatorySavings).filter fun r =>
      r.status = .paid ∧ r.OfYear o year).map MandatorySavings.entry)
  month : ∀ period year' now month, periodNames.idxOf? period.toLower = some month →
    targetYear o year' now = year →
    ∃ rs, (findByUserIdAndPeriod o userId period year' now).result d = .ok rs ∧ rs.length ≤ 1 ∧
      ∀ r, r ∈ rs ↔
        r ∈ d.rows .mandatorySavings ∧ r.userId = userId ∧ r.OfMonth o year month
  /-- Cut from one order of the ties, the pages of the report show every row once. -/
  pages : ∀ collation, (ReportPlan.sorted collation).Partitions o year d
  /-- Where they do, the report is made, of at most as many pages as there are rows. An active member
  is in it, and what was paid for a month is in the column of the month. -/
  report : ∀ {collation : OrderBy String} (localeCompare : OrderBy String)
    (plan : ReportPlan collation), plan.Partitions o year d → ∀ fuel, (d.rows .users).length < fuel →
    (d.rows .mandatorySavings).length < fuel →
    ∃ report, (generateMandatorySavingsReport plan o fuel year localeCompare).result d =
        .ok (some report) ∧
      (∀ u ∈ d.rows .users, u.id = userId → u.roleId = .member → u.status = .active →
        ∃ m ∈ report.members, m.userId = userId) ∧
      ∀ m ∈ report.members, m.userId = userId → ∀ month, month < 12 →
        (∀ r ∈ d.rows .mandatorySavings, r.userId = userId → r.status = .paid →
          r.OfMonth o year month → m.monthlyPayments[month]? = some (some r.amount.toRat)) ∧
        ((∀ r ∈ d.rows .mandatorySavings, r.userId = userId → r.status = .paid →
          ¬ r.OfMonth o year month) → m.monthlyPayments[month]? = some none)

/-! ### The paths -/

section Paths

variable {o : UtcOffset} {there : Uuid → Date → Prop} {d : Database} {userId : Uuid} {year : ℤ}
  {r : MandatorySavings}

/-- Clocks that are not behind date the records on the first days of months. -/
theorem Calendared.first (h : Calendared o there d) (ho : 0 ≤ o.ms)
    (hr : r ∈ d.rows .mandatorySavings) :
    ∃ year month, month < 12 ∧ r.periodDate = ⟨year, month + 1, 1⟩ := by
  obtain ⟨year, month, hmonth, hdate⟩ := h.dated r hr
  rw [periodDate_eq o year hmonth, if_neg (not_lt.2 ho)] at hdate
  exact ⟨fullYear year, month, hmonth, hdate⟩

theorem ofMonth_iff (ho : 0 ≤ o.ms) {year' : ℤ} {month month' : ℕ} (hmonth : month < 12)
    (hdate : r.periodDate = ⟨year', month' + 1, 1⟩) :
    r.OfMonth o year month ↔ year' = fullYear year ∧ month' = month := by
  rw [MandatorySavings.OfMonth, hdate, periodDate_eq o year hmonth, if_neg (not_lt.2 ho)]
  simp

theorem ofYear_iff (ho : 0 ≤ o.ms) {year' : ℤ} {month' : ℕ} (hmonth : month' < 12)
    (hdate : r.periodDate = ⟨year', month' + 1, 1⟩) :
    r.OfYear o year ↔ year' = fullYear year := by
  constructor
  · rintro ⟨month, hmonth', hof⟩
    exact ((ofMonth_iff ho hmonth' hdate).1 hof).1
  · intro hyear
    exact ⟨month', hmonth, (ofMonth_iff ho hmonth hdate).2 ⟨hyear, rfl⟩⟩

theorem Calendared.byUser (h : Calendared o there d) (ho : 0 ≤ o.ms)
    (hnext : 0 < o.ms → ¬ ∃ r ∈ d.rows .mandatorySavings,
      r.userId = userId ∧ r.periodDate = ⟨fullYear year + 1, 1, 1⟩) :
    ∃ rs, (findByUserIdAndYear o userId year).result d = .ok rs ∧
      rs.Perm ((d.rows .mandatorySavings).filter fun r => r.userId = userId ∧ r.OfYear o year) := by
  refine ⟨_, rfl, (List.mergeSort_perm _ _).trans (.of_eq ?_)⟩
  refine List.filter_congr fun r hr => decide_eq_decide.2 (and_congr_right fun huser => ?_)
  obtain ⟨year', month, hmonth, hdate⟩ := h.first ho hr
  rw [ofYear_iff ho hmonth hdate, hdate, whereBetween_utc_year ho hmonth]
  constructor
  · rintro (hyear | ⟨hahead, rfl, rfl⟩)
    · exact hyear
    · exact absurd ⟨r, hr, huser, hdate⟩ (hnext hahead)
  · exact .inl

theorem Calendared.paid (h : Calendared o there d) (ho : 0 ≤ o.ms) :
    ((d.paidOfYear o year).map PaidSavings.entry).Perm (((d.rows .mandatorySavings).filter fun r =>
      r.status = .paid ∧ r.OfYear o year).map MandatorySavings.entry) := by
  refine .of_eq ?_
  have hfilter : ((d.rows .mandatorySavings).filter fun r => r.status = .paid ∧ whereBetween o
      (newDate o year 0 1 .midnight) (newDate o year 11 31 .lastSecond) r.periodDate) =
      (d.rows .mandatorySavings).filter fun r => r.status = .paid ∧ r.OfYear o year := by
    refine List.filter_congr fun r hr => decide_eq_decide.2 (and_congr_right fun _ => ?_)
    obtain ⟨year', month, hmonth, hdate⟩ := h.first ho hr
    rw [ofYear_iff ho hmonth hdate, hdate, whereBetween_newDate_year hmonth]
  rw [Database.paidOfYear, hfilter, List.map_filterMap, ← List.filterMap_eq_map]
  refine List.filterMap_congr fun r hr => ?_
  obtain ⟨u, hu⟩ := Option.ne_none_iff_exists'.1 (h.users r (List.mem_filter.1 hr).1)
  rw [hu]
  rfl

theorem Calendared.month_paidOfYear (h : Calendared o there d) (ho : 0 ≤ o.ms)
    (hr : r ∈ d.rows .mandatorySavings) (hyear : r.OfYear o year) {saving : PaidSavings}
    (hentry : saving.entry = r.entry) : saving.month o < 12 ∧ r.OfMonth o year (saving.month o) := by
  obtain ⟨year', month, hmonth, hdate⟩ := h.first ho hr
  have hsaving : saving.periodDate = ⟨year', month + 1, 1⟩ :=
    (congrArg (fun e => e.2.1) hentry).trans hdate
  have hread : saving.month o = month := by
    rw [PaidSavings.month, toLocal_parseDate ho, hsaving]
    exact Nat.add_sub_cancel ..
  rw [hread, ofMonth_iff ho hmonth hdate]
  exact ⟨hmonth, (ofYear_iff ho hmonth hdate).1 hyear, rfl⟩

theorem Calendared.ofMonth_of_paidOfYear (h : Calendared o there d) (ho : 0 ≤ o.ms) {saving : PaidSavings}
    (hsaving : saving ∈ d.paidOfYear o year) : ∃ r ∈ d.rows .mandatorySavings,
      r.status = .paid ∧ r.OfMonth o year (saving.month o) ∧ saving.entry = r.entry := by
  obtain ⟨r, hr, hentry⟩ :=
    List.mem_map.1 ((h.paid ho).mem_iff.1 (List.mem_map_of_mem hsaving))
  rw [List.mem_filter, decide_eq_true_eq] at hr
  exact ⟨r, hr.1, hr.2.1, (h.month_paidOfYear ho hr.1 hr.2.2 hentry.symm).2, hentry.symm⟩

theorem Calendared.exists_paidOfYear (h : Calendared o there d) (ho : 0 ≤ o.ms)
    (hr : r ∈ d.rows .mandatorySavings) (hpaid : r.status = .paid) {month : ℕ} (hmonth : month < 12)
    (hof : r.OfMonth o year month) :
    ∃ saving ∈ d.paidOfYear o year, saving.month o = month ∧ saving.entry = r.entry := by
  have hyear : r.OfYear o year := ⟨month, hmonth, hof⟩
  have hmem : r ∈ (d.rows .mandatorySavings).filter fun r => r.status = .paid ∧ r.OfYear o year := by
    rw [List.mem_filter, decide_eq_true_eq]
    exact ⟨hr, hpaid, hyear⟩
  obtain ⟨saving, hsaving, hentry⟩ :=
    List.mem_map.1 ((h.paid ho).mem_iff.2 (List.mem_map_of_mem hmem))
  obtain ⟨hread, hof'⟩ := h.month_paidOfYear ho hr hyear hentry
  refine ⟨saving, hsaving, ?_, hentry⟩
  obtain ⟨year', month', -, hdate⟩ := h.first ho hr
  rw [← ((ofMonth_iff ho hread hdate).1 hof').2, ← ((ofMonth_iff ho hmonth hdate).1 hof).2]

theorem length_le_one {α : Type} {xs : List α} (hnodup : xs.Nodup)
    (h : ∀ x ∈ xs, ∀ y ∈ xs, x = y) : xs.length ≤ 1 := by
  classical
  rw [← List.toFinset_card_of_nodup hnodup, Finset.card_le_one]
  simpa only [List.mem_toFinset] using h

theorem Calendared.month (h : Calendared o there d) (ho : 0 ≤ o.ms) {period : String}
    {year' : Option ℤ} {now : Instant} {month : ℕ}
    (hperiod : periodNames.idxOf? period.toLower = some month)
    (hyear : targetYear o year' now = year) :
    ∃ rs, (findByUserIdAndPeriod o userId period year' now).result d = .ok rs ∧ rs.length ≤ 1 ∧
      ∀ r, r ∈ rs ↔
        r ∈ d.rows .mandatorySavings ∧ r.userId = userId ∧ r.OfMonth o year month := by
  obtain ⟨hmonth, -⟩ := List.idxOf?_eq_some_iff.1 hperiod
  have hselect : (findByUserIdAndPeriod o userId period year' now).result d =
      .ok ((d.rows .mandatorySavings).filter fun r => r.userId = userId ∧ whereBetween o
        (utc year month 1 .midnight) (utc year (month + 1) 0 .midnight) r.periodDate) := by
    rw [findByUserIdAndPeriod, convertPeriodToDateRange, hperiod, hyear]
    rfl
  have hmem : ∀ r ∈ d.rows .mandatorySavings, (whereBetween o (utc year month 1 .midnight)
      (utc year (month + 1) 0 .midnight) r.periodDate = true ↔ r.OfMonth o year month) := by
    intro r hr
    obtain ⟨_, month', -, hdate⟩ := h.first ho hr
    rw [ofMonth_iff ho hmonth hdate, hdate, whereBetween_utc_month ho hmonth]
  have hnodup : (d.rows .mandatorySavings).Nodup := .of_map _ (d.table .mandatorySavings).nodup
  refine ⟨_, hselect, length_le_one (hnodup.filter _) ?_, fun r => ?_⟩
  · intro r hr r' hr'
    rw [List.mem_filter, decide_eq_true_eq] at hr hr'
    refine h.once r hr.1 r' hr'.1 (hr.2.1.trans hr'.2.1.symm) ?_
    exact ((hmem r hr.1).1 hr.2.2).trans ((hmem r' hr'.1).1 hr'.2.2).symm
  · rw [List.mem_filter, decide_eq_true_eq]
    exact and_congr_right fun hr => and_congr_right fun _ => hmem r hr

theorem valid_periodDate (o : UtcOffset) (year : ℤ) {month : ℕ} (h : month < 12) :
    (periodDate o year month).Valid := by
  have hfirst : (⟨fullYear year, month + 1, 1⟩ : Date).Valid := Date.valid_first (by omega)
  rw [periodDate_eq o year h]
  split
  · exact hfirst.prev
  · exact hfirst

theorem Calendared.savingsSchema (h : Calendared o there d) : SavingsSchema d where
  dates r hr := by
    obtain ⟨year, month, hmonth, hdate⟩ := h.dated r hr
    rw [hdate]
    exact valid_periodDate o year hmonth
  unique := h.once

theorem Calendared.monthlyPayments (h : Calendared o there d) (ho : 0 ≤ o.ms)
    {savings : List PaidSavings} (hsavings : savings.Perm (d.paidOfYear o year))
    {member : Uuid × String} {month : ℕ} (hmonth : month < 12) :
    let m := savings.foldl (MemberSavingsData.payOwn o) (memberData member)
    (∀ r ∈ d.rows .mandatorySavings, r.userId = m.userId → r.status = .paid →
      r.OfMonth o year month → m.monthlyPayments[month]? = some (some r.amount.toRat)) ∧
    ((∀ r ∈ d.rows .mandatorySavings, r.userId = m.userId → r.status = .paid →
      ¬ r.OfMonth o year month) → m.monthlyPayments[month]? = some none) := by
  intro m
  have howned : m.userId = member.1 := MemberSavingsData.foldl_payOwn_userId
  rw [howned]
  constructor
  · intro r hr huser hpaid hof
    obtain ⟨saving, hsaving, hread, hentry⟩ := h.exists_paidOfYear ho hr hpaid hmonth hof
    have hamount : saving.amount = r.amount := congrArg (fun e => e.2.2) hentry
    have howner : saving.userId = r.userId := congrArg Prod.fst hentry
    rw [← hamount]
    refine MemberSavingsData.foldl_payOwn_month (by simpa [memberData] using hmonth)
      (hsavings.mem_iff.2 hsaving)
      (huser.symm.trans howner.symm) hread fun saving' hsaving' huser' hread' => ?_
    obtain ⟨r', hr', -, hof', hentry'⟩ := h.ofMonth_of_paidOfYear ho (hsavings.mem_iff.1 hsaving')
    have howner' : saving'.userId = r'.userId := congrArg Prod.fst hentry'
    have hsame : r' = r := by
      rw [hread'] at hof'
      exact h.once r' hr' r hr (howner'.symm.trans (huser'.symm.trans huser.symm))
        (hof'.trans hof.symm)
    have hamount' : saving'.amount = r'.amount := congrArg (fun e => e.2.2) hentry'
    rw [hamount', hamount, hsame]
  · intro hnone
    rw [MemberSavingsData.foldl_payOwn_other]
    · exact List.getElem?_replicate.trans (if_pos hmonth)
    · intro saving hsaving huser hread
      obtain ⟨r, hr, hpaid, hof, hentry⟩ := h.ofMonth_of_paidOfYear ho (hsavings.mem_iff.1 hsaving)
      have howner : saving.userId = r.userId := congrArg Prod.fst hentry
      rw [hread] at hof
      exact hnone r hr (howner.symm.trans huser.symm) hpaid hof

/-- The rows of the report are those of the active members, when the pages show them once. -/
theorem mem_members_savingsReport {collation localeCompare : OrderBy String}
    {plan : ReportPlan collation} {fuel : ℕ} (h : (readMembers plan fuel d).Perm d.activeMembers)
    {m : MemberSavingsData} :
    m ∈ (savingsReport localeCompare (readReport plan o fuel year d)).members ↔
      ∃ member ∈ d.activeMembers, (readSavings plan o fuel year d).foldl (MemberSavingsData.payOwn o)
        (memberData member) = m := by
  change m ∈ List.mergeSort _ _ ↔ _
  rw [(List.mergeSort_perm _ _).mem_iff, readReport_eq h, List.mem_map]
  exact exists_congr fun member => and_congr_left fun _ => h.mem_iff

theorem ofMonth_behind (ho : o.ms < 0) {year' : ℤ} {month month' : ℕ} (hmonth : month < 12)
    (hof : r.OfMonth o year month) : r.periodDate ≠ ⟨year', month', 1⟩ := by
  have hdays := Date.daysInMonth_bounds (fullYear year) month
  rw [hof, periodDate_eq o year hmonth, if_pos ho, Date.prev, if_neg (by simp)]
  intro hdate
  split at hdate
  · have hday := congrArg Date.day hdate
    simp only [Nat.add_sub_cancel] at hday
    omega
  · cases hdate

end Paths

/-! ### Agreement -/

theorem fullYear_eq_iff {year : ℤ} : fullYear year = year ↔ year < 0 ∨ 99 < year := by
  unfold fullYear
  split <;> omega

section Agreement

variable {o : UtcOffset} {there : Uuid → Date → Prop} {d : Database} {userId : Uuid} {year : ℤ}

theorem Calendared.agrees (h : Calendared o there d) (ho : 0 ≤ o.ms)
    (hyears : ∀ year', year - 1 ≤ year' → year' ≤ year + 1 → fullYear year' = year')
    (hnext : 0 < o.ms → ¬ ∃ r ∈ d.rows .mandatorySavings,
      r.userId = userId ∧ r.periodDate = ⟨year + 1, 1, 1⟩) : CalendarAgrees o d userId year where
  dated r hr year' hbefore hafter month hmonth hof := by
    rw [hof, periodDate_eq o year' hmonth, if_neg (not_lt.2 ho), hyears year' hbefore hafter]
  byUser := h.byUser ho (by rwa [hyears year (by omega) (by omega)])
  paid plan page limit _ := by
    have hlists := plan.lists (page + 1) (d.paidOfYear o year)
    exact ⟨rfl, (hlists.perm.map PaidSavings.entry).trans (h.paid ho)⟩
  month period year' now month hperiod hyear := h.month ho hperiod hyear
  pages collation := ⟨fetchPartitions_sorted (by decide) (nodup_activeMembers d).of_map,
    fetchPartitions_sorted (by decide) h.savingsSchema.nodup_paidOfYear⟩
  report localeCompare plan hplan fuel husers hsavings := by
    have hmembers := (length_activeMembers d).trans_lt husers
    have hpaid := (length_paidOfYear o year d).trans_lt hsavings
    have hids := hplan.members.pages_perm (by decide) hmembers.le
    have hread := hplan.savings.pages_perm (by decide) hpaid.le
    refine ⟨_, result_generateMandatorySavingsReport hmembers hpaid, ?_, ?_⟩
    · rintro u hu rfl hrole hstatus
      have hmember : (u.id, u.fullname) ∈ d.activeMembers := by
        refine List.mem_map_of_mem (List.mem_filter.2 ⟨hu, ?_⟩)
        rw [decide_eq_true_eq]
        exact ⟨hrole, hstatus⟩
      exact ⟨_, (mem_members_savingsReport hids).2 ⟨_, hmember, rfl⟩,
        MemberSavingsData.foldl_payOwn_userId⟩
    · rintro m hm rfl month hmonth
      obtain ⟨member, -, rfl⟩ := (mem_members_savingsReport hids).1 hm
      exact h.monthlyPayments ho hread hmonth

theorem CalendarAgrees.not_next (h : CalendarAgrees o d userId year) (ho : 0 < o.ms)
    (hyear : fullYear year = year) :
    ¬ ∃ r ∈ d.rows .mandatorySavings, r.userId = userId ∧ r.periodDate = ⟨year + 1, 1, 1⟩ := by
  rintro ⟨r, hr, huser, hdate⟩
  obtain ⟨rs, hrs, hperm⟩ := h.byUser
  cases hrs
  have hjanuary : 0 < 12 := by omega
  have hmem : r ∈ (d.rows .mandatorySavings).filter fun r => r.userId = userId ∧ r.OfYear o year := by
    refine hperm.mem_iff.1 ((List.mergeSort_perm _ _).mem_iff.2 (List.mem_filter.2 ⟨hr, ?_⟩))
    rw [decide_eq_true_eq, hdate]
    exact ⟨huser, (whereBetween_utc_year ho.le hjanuary).2 (.inr ⟨ho, by rw [hyear], rfl⟩)⟩
  rw [List.mem_filter, decide_eq_true_eq] at hmem
  have hsame := (ofYear_iff ho.le hjanuary hdate).1 hmem.2.2
  omega

/-- The first days of months show that the clocks are not behind, and which years are full. -/
theorem CalendarAgrees.first (h : CalendarAgrees o d userId year) {r : MandatorySavings}
    (hr : r ∈ d.rows .mandatorySavings) {year' : ℤ} (hbefore : year - 1 ≤ year')
    (hafter : year' ≤ year + 1) {month : ℕ} (hmonth : month < 12) (hof : r.OfMonth o year' month) :
    0 ≤ o.ms ∧ fullYear year' = year' := by
  have hdate := h.dated r hr year' hbefore hafter month hmonth hof
  have ho : 0 ≤ o.ms := not_lt.1 fun hbehind => ofMonth_behind hbehind hmonth hof hdate
  exact ⟨ho, ((ofMonth_iff ho hmonth hdate).1 hof).1.symm⟩

end Agreement

/-- After records of a year and of the years around it were generated for a user, the paths agree on
them exactly when the process runs in UTC or, ahead of it, the next January has no record, and none
of the years is taken for one of the twentieth century. -/
theorem calendarAgrees_iff {o : UtcOffset} {d₀ : Database}
    (hempty : d₀.rows .mandatorySavings = []) {xs : List CalendarCall} {userId : Uuid} {year : ℤ}
    (hgenerated : ∀ year', year - 1 ≤ year' → year' ≤ year + 1 →
      ∃ month, Generated o userId year' month d₀ xs) :
    let d := runCalls (CalendarCall.program o) d₀ xs
    CalendarAgrees o d userId year ↔ (year + 1 < 0 ∨ 99 < year - 1) ∧ (o.ms = 0 ∨ 0 < o.ms ∧
      ¬ ∃ r ∈ d.rows .mandatorySavings, r.userId = userId ∧ r.periodDate = ⟨year + 1, 1, 1⟩) := by
  intro d
  have hd := (calendared_of_empty (o := o) hempty).run xs
  constructor
  · intro hagrees
    have hfull : ∀ year', year - 1 ≤ year' → year' ≤ year + 1 → 0 ≤ o.ms ∧ fullYear year' = year' := by
      intro year' hbefore hafter
      obtain ⟨month, hmonth⟩ := hgenerated year' hbefore hafter
      obtain ⟨r, hr, -, hdate⟩ := hd.there userId _ (.inr ⟨year', month, rfl, hmonth⟩)
      exact hagrees.first hr hbefore hafter hmonth.lt hdate
    have hlast := fullYear_eq_iff.1 (hfull (year - 1) (by omega) (by omega)).2
    obtain ⟨ho, hyear⟩ := hfull year (by omega) (by omega)
    have hnext := fullYear_eq_iff.1 (hfull (year + 1) (by omega) (by omega)).2
    refine ⟨?_, ?_⟩
    · have hthis := fullYear_eq_iff.1 hyear
      omega
    · rcases ho.eq_or_lt with hzero | hahead
      · exact .inl hzero.symm
      · exact .inr ⟨hahead, hagrees.not_next hahead hyear⟩
  · rintro ⟨hyears, hoffset⟩
    refine hd.agrees (by omega) (fun year' hbefore hafter => fullYear_eq_iff.2 (by omega)) ?_
    intro ho
    rcases hoffset with hzero | ⟨-, hnext⟩
    · omega
    · exact hnext

/-- `TZ=Asia/Makassar`, eight hours ahead. -/
def makassar : UtcOffset := ⟨8 * 60 * 60 * 1000, by decide⟩

/-- The yearly job runs in three years, and January of the second is settled. -/
def yearlyCalls : List CalendarCall := [
  .createYearlyMandatorySavingsForUsers (100 + ·) [3] 100000 ⟨⟨2025, 1, 1⟩, .midnight⟩,
  .createYearlyMandatorySavingsForUsers (200 + ·) [3] 100000 ⟨⟨2026, 1, 1⟩, .midnight⟩,
  .settleMandatorySavings ⟨1, 1⟩ 200 1 ⟨2026, 1, 5⟩,
  .createYearlyMandatorySavingsForUsers (300 + ·) [3] 100000 ⟨⟨2027, 1, 1⟩, .midnight⟩]

theorem calendarAgrees_yearlyCalls :
    let d := runCalls (CalendarCall.program utcOffset) seeded yearlyCalls
    allReturn (CalendarCall.program utcOffset) seeded yearlyCalls = true ∧
      CalendarAgrees utcOffset d 3 2026 := by
  have hreturn : allReturn (CalendarCall.program utcOffset) seeded yearlyCalls = true := by
    decide +kernel
  have hgenerated : ∀ year', 2026 - 1 ≤ year' → year' ≤ 2026 + 1 →
      Generated utcOffset 3 year' 0 seeded yearlyCalls := by
    intro year' hbefore hafter
    obtain rfl | rfl | rfl : year' = 2025 ∨ year' = 2026 ∨ year' = 2027 := by omega
    · exact generated_of_allReturn hreturn (.head _)
        ⟨List.mem_singleton_self _, by decide, by omega⟩
    · exact generated_of_allReturn hreturn (.tail _ (.head _))
        ⟨List.mem_singleton_self _, by decide, by omega⟩
    · exact generated_of_allReturn hreturn (.tail _ (.tail _ (.tail _ (.head _))))
        ⟨List.mem_singleton_self _, by decide, by omega⟩
  exact ⟨hreturn, (calendarAgrees_iff rfl fun year' hbefore hafter =>
    ⟨0, hgenerated year' hbefore hafter⟩).2 ⟨.inr (by omega), .inl rfl⟩⟩

/-- Eight hours ahead, a year has thirteen records. -/
theorem calendar_not_agrees :
    let d := runCalls (CalendarCall.program makassar) seeded yearlyCalls
    allReturn (CalendarCall.program makassar) seeded yearlyCalls = true ∧
      (∃ rs, (findByUserIdAndYear makassar 3 2026).result d = .ok rs ∧ rs.length = 13 ∧
        ∃ r ∈ rs, r.periodDate = ⟨2027, 1, 1⟩) ∧
      ¬ CalendarAgrees makassar d 3 2026 := by
  intro d
  have hreturn : allReturn (CalendarCall.program makassar) seeded yearlyCalls = true := by
    decide +kernel
  have hthirteen : ((d.rows .mandatorySavings).filter fun r => r.userId = 3 ∧ whereBetween makassar
      (utc 2026 0 1 .midnight) (utc 2026 11 31 .lastMillisecond) r.periodDate).length = 13 := by
    decide +kernel
  have hnext : ∃ r ∈ (d.rows .mandatorySavings).filter fun r => r.userId = 3 ∧ whereBetween makassar
      (utc 2026 0 1 .midnight) (utc 2026 11 31 .lastMillisecond) r.periodDate,
      r.periodDate = ⟨2027, 1, 1⟩ := by
    decide +kernel
  obtain ⟨r, hr, hdate⟩ := hnext
  refine ⟨hreturn, ⟨_, rfl, ?_, r, (List.mergeSort_perm _ _).mem_iff.2 hr, hdate⟩, fun hagrees => ?_⟩
  · exact (List.length_mergeSort _).trans hthirteen
  · rw [List.mem_filter, decide_eq_true_eq] at hr
    exact hagrees.not_next (by decide) (by decide) ⟨r, hr.1, hr.2.1, hdate⟩

end LumbungMesari
