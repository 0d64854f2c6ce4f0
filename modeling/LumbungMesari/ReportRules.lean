import LumbungMesari.Generations
import LumbungMesari.ReportTotals
import Mathlib.Data.String.Basic

/-!
# When the report is complete

Whatever order the pages are cut from, the report goes over the rows of its pages. These are the
members and their payments, once each, exactly when no page ends among tied rows of theirs; the
cells add up to the totals exactly when what the payments of a month hide comes to nothing. The footer
adds up where JavaScript adds the totals of the members to the same as those of the months.
-/

namespace LumbungMesari

open Sql Js

/-! ### Completeness -/

/-- The record belongs to an active member. -/
def Database.paysFor (d : Database) (saving : PaidSavings) : Bool :=
  saving.userId ∈ d.activeMembers.map Prod.fst

/-- The report is complete, and adds up. -/
structure SavingsReport.Complete (o : UtcOffset) (year : ℤ) (d : Database)
    (counted : List PaidSavings) (report : SavingsReport) : Prop where
  members : (report.members.map (·.userId)).Perm (d.activeMembers.map Prod.fst)
  counted : (counted.filter d.paysFor).Perm ((d.paidOfYear o year).filter d.paysFor)
  paid : ∀ m ∈ report.members, m.total.toDecimal =
    (((d.paidOfYear o year).filter fun saving => m.userId = saving.userId).map
      (·.amount.toRat)).sum
  cells : ∀ m ∈ report.members, m.total.toDecimal = (m.monthlyPayments.map (·.getD 0)).sum
  footer : (report.monthlyTotals.map (·.toDecimal)).sum = report.grandTotal.toDecimal

/-- Both loops end, and the report that they make is complete. -/
def ReportCompletes {collation : OrderBy String} (localeCompare : OrderBy String)
    (plan : ReportPlan collation) (o : UtcOffset) (year : ℤ) (d : Database) : Prop :=
  ∀ fuel, d.activeMembers.length < fuel → (d.paidOfYear o year).length < fuel →
    ∃ counted report, (countPaidSavings plan o fuel year).result d = .ok (some counted) ∧
      (generateMandatorySavingsReport plan o fuel year localeCompare).result d = .ok (some report) ∧
      report.Complete o year d counted

/-- No page ends among tied members, or among tied records with one of an active member, and what
the payments of the active members hide comes to nothing. In every order of the members that their
names leave open, the totals of the months come to that of the year. -/
structure ReportFits (collation localeCompare : OrderBy String) (o : UtcOffset) (year : ℤ)
    (d : Database) : Prop where
  members : ∀ member ∈ d.activeMembers, ∀ k,
    ¬ (byFullname collation).Straddles d.activeMembers member (k * batchSize)
  savings : ∀ saving ∈ d.paidOfYear o year, d.paysFor saving = true → ∀ k,
    ¬ (byFullnameAndPeriod collation).Straddles (d.paidOfYear o year) saving (k * batchSize)
  hidden : ∀ userId ∈ d.activeMembers.map Prod.fst,
    amounts (hidden o (d.paidByUser o year userId)) = 0
  footer : ∀ members, (byFullname collation).Lists d.activeMembers members →
    d.FooterAgrees o year ((members.mergeSort (byFullname localeCompare).le).map Prod.fst)

section Completeness

variable {collation localeCompare : OrderBy String} {plan : ReportPlan collation} {o : UtcOffset}
  {year : ℤ} {d : Database} {fuel : ℕ} {userId : Uuid}

theorem reportCompletes_iff_read : ReportCompletes localeCompare plan o year d ↔
    ∀ fuel, d.activeMembers.length < fuel → (d.paidOfYear o year).length < fuel →
      (savingsReport localeCompare (readReport plan o fuel year d)).Complete o year d
        (readSavings plan o fuel year d) := by
  constructor
  · intro h fuel hmembers hsavings
    obtain ⟨counted, report, hcounted, hreport, hcomplete⟩ := h fuel hmembers hsavings
    rw [result_countPaidSavings hsavings] at hcounted
    rw [result_generateMandatorySavingsReport hmembers hsavings] at hreport
    cases hcounted
    cases hreport
    exact hcomplete
  · intro h fuel hmembers hsavings
    exact ⟨_, _, result_countPaidSavings hsavings,
      result_generateMandatorySavingsReport hmembers hsavings, h fuel hmembers hsavings⟩

theorem le_mul_batchSize {n fuel : ℕ} (h : n < fuel) : n ≤ fuel * batchSize := by
  rw [batchSize]
  omega

theorem lists_savings (plan : ReportPlan collation) (o : UtcOffset) (year : ℤ) (d : Database) (j : ℕ) :
    (byFullnameAndPeriod collation).Lists (d.paidOfYear o year)
      (plan.savings.list (j + 1) (d.paidOfYear o year)) := plan.savings.lists _ _

theorem mem_of_readSavings {saving : PaidSavings} (h : saving ∈ readSavings plan o fuel year d) :
    saving ∈ d.paidOfYear o year := by
  obtain ⟨j, -, -, hmem⟩ := mem_pages.1 h
  exact (lists_savings plan o year d j).perm.mem_iff.1
    (List.mem_of_mem_drop (mem_drop_of_mem_page hmem))

theorem filter_readSavings (hd : SavingsSchema d) (huser : userId ∈ d.activeMembers.map Prod.fst)
    (hread : ((readSavings plan o fuel year d).filter d.paysFor).Perm
      ((d.paidOfYear o year).filter d.paysFor)) :
    ((readSavings plan o fuel year d).filter fun saving => userId = saving.userId) =
      d.paidByUser o year userId := by
  have hown : ∀ savings : List PaidSavings, (savings.filter fun saving => userId = saving.userId) =
      (savings.filter d.paysFor).filter fun saving => userId = saving.userId := by
    intro savings
    rw [List.filter_filter]
    refine List.filter_congr fun saving _ => ?_
    rw [Bool.eq_iff_iff, Bool.and_eq_true, decide_eq_true_eq, Database.paysFor, decide_eq_true_eq]
    exact ⟨fun hsame => ⟨hsame, hsame ▸ huser⟩, And.left⟩
  have hsorted := (Date.orderBy.on PaidSavings.periodDate).lists_mergeSort
    ((d.paidOfYear o year).filter fun saving => userId = saving.userId)
  refine List.Perm.eq_of_pairwise ?_ ?_ hsorted.sorted ?_
  · intro a b ha hb hab hba
    obtain ⟨ha, hau⟩ := List.mem_filter.1 ha
    obtain ⟨hb, hbu⟩ := List.mem_filter.1 (hsorted.perm.mem_iff.1 hb)
    rw [decide_eq_true_eq] at hau hbu
    exact hd.eq_of_paid (mem_of_readSavings ha) hb (hau.symm.trans hbu) (Date.le_antisymm hab hba)
  · have hpages : (readSavings plan o fuel year d).Pairwise fun a b =>
        (byFullnameAndPeriod collation).le a b = true := sorted_pages (lists_savings plan o year d)
    refine List.Pairwise.imp_of_mem ?_ (hpages.filter _)
    intro a b ha hb hab
    obtain ⟨ha, hau⟩ := List.mem_filter.1 ha
    obtain ⟨hb, hbu⟩ := List.mem_filter.1 hb
    rw [decide_eq_true_eq] at hau hbu
    have hname := fullname_eq (mem_of_readSavings hb) (mem_of_readSavings ha) (hbu.symm.trans hau)
    refine OrderBy.le_of_thenBy hab ?_
    change collation.le b.fullname a.fullname = true
    rw [hname]
    exact collation.refl a.fullname
  · rw [hown]
    refine (hread.filter _).trans ?_
    rw [← hown]
    exact hsorted.perm.symm

/-- The row of a member that all its payments are read for, in the order of their dates. -/
def Database.rowOf (o : UtcOffset) (year : ℤ) (d : Database) (member : Uuid × String) :
    MemberSavingsData :=
  (d.paidByUser o year member.1).foldl (fun m saving => m.pay o saving) (memberData member)

@[simp] theorem rowOf_userId (member : Uuid × String) : (d.rowOf o year member).userId = member.1 :=
  MemberSavingsData.foldl_pay_userId

@[simp] theorem rowOf_fullname (member : Uuid × String) :
    (d.rowOf o year member).fullname = member.2 :=
  MemberSavingsData.foldl_pay_fullname

theorem SavingsSchema.total_rowOf (hd : SavingsSchema d) (member : Uuid × String) :
    (d.rowOf o year member).total = .ofRat (amounts (d.paidByUser o year member.1)) :=
  hd.total_eq member

theorem monthlyPayments_rowOf (member : Uuid × String) :
    (d.rowOf o year member).monthlyPayments = d.monthlyPayments o year member.1 :=
  monthlyPayments_foldl_pay

/-- The rows of the report, when its pages show every row once. -/
theorem readReport_eq_rowOf (hd : SavingsSchema d)
    (hmembers : (readMembers plan fuel d).Perm d.activeMembers)
    (hread : ((readSavings plan o fuel year d).filter d.paysFor).Perm
      ((d.paidOfYear o year).filter d.paysFor)) :
    readReport plan o fuel year d = (readMembers plan fuel d).map (d.rowOf o year) := by
  rw [readReport_eq hmembers]
  refine List.map_congr_left fun member hmember => ?_
  have huser : member.1 ∈ d.activeMembers.map Prod.fst :=
    List.mem_map_of_mem (hmembers.mem_iff.1 hmember)
  rw [MemberSavingsData.foldl_payOwn_eq, Database.rowOf, ← filter_readSavings hd huser hread]
  rfl

theorem savingsReport_rowOf (members : List (Uuid × String)) :
    savingsReport localeCompare (members.map (d.rowOf o year)) =
      let rows := (members.mergeSort (byFullname localeCompare).le).map (d.rowOf o year)
      { members := rows
        monthlyTotals := (rows.map (·.monthlyPayments)).foldl addMonthly (List.replicate 12 0)
        grandTotal := (rows.map (·.total)).foldl (fun sum total => sum + total) 0 } := by
  have hsorted : (members.map (d.rowOf o year)).mergeSort
      (localeCompare.on MemberSavingsData.fullname).le =
        (members.mergeSort (byFullname localeCompare).le).map (d.rowOf o year) := by
    refine (List.map_mergeSort fun a _ b _ => ?_).symm
    show localeCompare.le a.2 b.2 = localeCompare.le _ _
    rw [rowOf_fullname, rowOf_fullname]
  rw [savingsReport, hsorted]

theorem footer_rowOf (hd : SavingsSchema d) (members : List (Uuid × String)) :
    let report := savingsReport localeCompare (members.map (d.rowOf o year))
    (report.monthlyTotals.map (·.toDecimal)).sum = report.grandTotal.toDecimal ↔
      d.FooterAgrees o year ((members.mergeSort (byFullname localeCompare).le).map Prod.fst) := by
  intro report
  have hmonthly : report.monthlyTotals = ((((members.mergeSort (byFullname localeCompare).le).map
      Prod.fst).map (d.monthlyPayments o year)).foldl addMonthly (List.replicate 12 0)) := by
    simp [report, savingsReport_rowOf, Function.comp_def, monthlyPayments_rowOf]
  have hgrand : report.grandTotal = (((members.mergeSort (byFullname localeCompare).le).map
      Prod.fst).map fun userId => amounts (d.paidByUser o year userId)).foldl
        (fun sum total => sum + Double.ofRat total) 0 := by
    simp [report, savingsReport_rowOf, List.foldl_map, hd.total_rowOf]
  rw [Database.FooterAgrees, hmonthly, hgrand]

theorem readMembers_perm (plan : ReportPlan collation) (h : ReportFits collation localeCompare o year d)
    (hfuel : d.activeMembers.length < fuel) : (readMembers plan fuel d).Perm d.activeMembers :=
  pages_perm (fun j => plan.members.lists (j + 1) _) (le_mul_batchSize hfuel) h.members

theorem readSavings_perm (plan : ReportPlan collation) (h : ReportFits collation localeCompare o year d)
    (hfuel : (d.paidOfYear o year).length < fuel) :
    ((readSavings plan o fuel year d).filter d.paysFor).Perm
      ((d.paidOfYear o year).filter d.paysFor) :=
  filter_pages_perm (lists_savings plan o year d) (le_mul_batchSize hfuel) h.savings

theorem mem_members_rowOf {members : List (Uuid × String)} {m : MemberSavingsData}
    (h : m ∈ (savingsReport localeCompare (members.map (d.rowOf o year))).members) :
    ∃ member ∈ members, m = d.rowOf o year member := by
  obtain ⟨member, hmember, rfl⟩ := List.mem_map.1 ((List.mergeSort_perm _ _).mem_iff.1 h)
  exact ⟨member, hmember, rfl⟩

theorem userIds_rowOf (members : List (Uuid × String)) :
    ((savingsReport localeCompare (members.map (d.rowOf o year))).members.map (·.userId)).Perm
      (members.map Prod.fst) := by
  refine ((List.mergeSort_perm _ _).map _).trans (.of_eq ?_)
  rw [List.map_map]
  exact List.map_congr_left fun member _ => rowOf_userId member

theorem amounts_paidByUser : amounts (d.paidByUser o year userId) =
    (((d.paidOfYear o year).filter fun saving => userId = saving.userId).map
      (·.amount.toRat)).sum :=
  ((List.mergeSort_perm _ _).map _).sum_eq

/-- Where the pages fit, the report is complete. -/
theorem ReportFits.completes (hd : SavingsSchema d)
    (h : ReportFits collation localeCompare o year d) :
    ReportCompletes localeCompare plan o year d := by
  refine reportCompletes_iff_read.2 fun fuel hmembers hsavings => ?_
  have hids := readMembers_perm plan h hmembers
  have hread := readSavings_perm plan h hsavings
  rw [readReport_eq_rowOf hd hids hread]
  have htotal : ∀ member, (d.rowOf o year member).total.toDecimal =
      amounts (d.paidByUser o year member.1) := by
    intro member
    rw [hd.total_rowOf, hd.toDecimal_ofRat_amounts]
  refine ⟨(userIds_rowOf _).trans (hids.map Prod.fst), hread, ?_, ?_, ?_⟩
  · intro m hm
    obtain ⟨member, -, rfl⟩ := mem_members_rowOf hm
    rw [htotal, amounts_paidByUser, rowOf_userId]
  · intro m hm
    obtain ⟨member, hmember, rfl⟩ := mem_members_rowOf hm
    rw [htotal, monthlyPayments_rowOf, ← hd.sum_monthlyPayments,
      h.hidden member.1 (List.mem_map_of_mem (hids.mem_iff.1 hmember)), add_zero]
  · have hlists : (byFullname collation).Lists d.activeMembers (readMembers plan fuel d) :=
      ⟨hids, sorted_pages fun j => plan.members.lists (j + 1) _⟩
    exact (footer_rowOf hd _).2 (h.footer _ hlists)

/-- A member can be left out when a page ends among those of its name. -/
theorem exists_leaves_out {member : Uuid × String} (hmember : member ∈ d.activeMembers) {k : ℕ}
    (hcut : (byFullname collation).Straddles d.activeMembers member (k * batchSize)) :
    ∃ plan : ReportPlan collation, ∀ o year fuel, ∀ m ∈ readReport plan o fuel year d,
      m.userId ≠ member.1 := by
  obtain ⟨list, hlist, hnone⟩ := exists_notMem_pages (nodup_activeMembers d).of_map hmember hcut
  obtain ⟨members, hplan⟩ := exists_plan hlist
  refine ⟨⟨members, .sorted _⟩, fun o year fuel m hm huser => ?_⟩
  obtain ⟨member', hread, huser', -⟩ := mem_readReport hm
  rw [readMembers, hplan] at hread
  obtain ⟨j, -, -, hpage⟩ := mem_pages.1 hread
  have hmember' : member' ∈ d.activeMembers :=
    (hlist j).perm.mem_iff.1 (List.mem_of_mem_drop (mem_drop_of_mem_page hpage))
  obtain rfl : member' = member := List.inj_on_of_nodup_map (nodup_activeMembers d) hmember' hmember
    (huser'.symm.trans huser)
  exact hnone 0 fuel hread

/-- A plan of the report has to make it complete for every order of the ties. -/
theorem fits_of_completes (hd : SavingsSchema d)
    (h : ∀ plan : ReportPlan collation, ReportCompletes localeCompare plan o year d) :
    ReportFits collation localeCompare o year d := by
  obtain ⟨fuel, hmembers, hsavings⟩ :
      ∃ fuel, d.activeMembers.length < fuel ∧ (d.paidOfYear o year).length < fuel :=
    ⟨d.activeMembers.length + (d.paidOfYear o year).length + 1, by omega, by omega⟩
  have hcomplete := fun plan => reportCompletes_iff_read.1 (h plan) fuel hmembers hsavings
  -- the members are read in every order that is allowed
  have hread : ∀ members, (byFullname collation).Lists d.activeMembers members →
      (savingsReport localeCompare (members.map (d.rowOf o year))).Complete o year d
        (readSavings (.sorted collation) o fuel year d) := by
    intro members hlists
    obtain ⟨plan, hplan⟩ := exists_plan fun _ => hlists
    have hthese : readMembers (⟨plan, .sorted _⟩ : ReportPlan collation) fuel d = members := by
      rw [readMembers, hplan, pages_const]
      rw [hlists.perm.length_eq]
      exact le_mul_batchSize hmembers
    have hall := hcomplete ⟨plan, .sorted _⟩
    rw [readReport_eq_rowOf hd (hthese.symm ▸ hlists.perm) hall.counted, hthese] at hall
    exact hall
  refine ⟨fun member hmember k hcut => ?_, ?_, fun userId huser => ?_, fun members hlists => ?_⟩
  · obtain ⟨plan, hnone⟩ := exists_leaves_out hmember hcut
    have hids := (hcomplete plan).members
    obtain ⟨m, hm, huser⟩ := List.mem_map.1 (hids.mem_iff.2 (List.mem_map_of_mem hmember))
    exact hnone o year fuel m ((List.mergeSort_perm _ _).mem_iff.1 hm) huser
  · refine (filter_pages_perm_iff hd.nodup_paidOfYear (le_mul_batchSize hsavings)).1
      fun list hlist => ?_
    obtain ⟨savings, hplan⟩ := exists_plan hlist
    have hcounted := (hcomplete ⟨.sorted _, savings⟩).counted
    rwa [readSavings, hplan] at hcounted
  · have hlists := (byFullname collation).lists_mergeSort d.activeMembers
    have hsorted := hread _ hlists
    obtain ⟨m, hm, hown⟩ := List.mem_map.1 (hsorted.members.mem_iff.2 huser)
    have hcells := hsorted.cells m hm
    obtain ⟨member, -, rfl⟩ := mem_members_rowOf hm
    rw [rowOf_userId] at hown
    rw [hd.total_rowOf, hd.toDecimal_ofRat_amounts, monthlyPayments_rowOf, hown,
      ← hd.sum_monthlyPayments] at hcells
    exact add_eq_left.1 hcells
  · exact (footer_rowOf hd members).1 (hread members hlists).footer

end Completeness

/-! ### Tables that are generated -/

section Generated

variable {o : UtcOffset} {there : Uuid → Date → Prop} {d : Database} {year : ℤ}

theorem Calendared.month_eq (h : Calendared o there d) {saving : PaidSavings}
    (hsaving : saving ∈ d.paidOfYear o year) :
    saving.periodDate.month = saving.month o + 1 := by
  obtain ⟨r, hr, u, -, rfl⟩ := mem_paidOfYear hsaving
  obtain ⟨year', month, hmonth, hdate⟩ := h.dated r hr
  have hvalid := (h.savingsSchema.dates r hr).month
  have hday := day_periodDate o year' hmonth
  have hread := Instant.toDate_midnight (o := o) r.periodDate
  have hdays := Date.daysInMonth_bounds r.periodDate.year r.periodDate.month
  rw [← hdate] at hday
  rw [PaidSavings.month, parseDate]
  change r.periodDate.month = ((Instant.mk r.periodDate .midnight).toDate o).month - 1 + 1
  rw [hread]
  split
  · rename_i hbehind
    rw [if_pos hbehind] at hday
    rw [Date.prev, if_pos (by omega)]
    simp only
    omega
  · omega

theorem hidden_eq_nil {savings : List PaidSavings} (h : (savings.map (·.month o)).Nodup) :
    hidden o savings = [] := by
  induction savings with
  | nil => rfl
  | cons saving savings ih =>
      rw [List.map_cons, List.nodup_cons] at h
      rw [hidden, if_neg, ih h.2]
      intro hlater
      obtain ⟨later, hmem, hsame⟩ := List.any_eq_true.1 hlater
      exact h.1 (List.mem_map.2 ⟨later, hmem, of_decide_eq_true hsame⟩)

theorem Calendared.hidden_eq_nil (h : Calendared o there d) (userId : Uuid) :
    hidden o (d.paidByUser o year userId) = [] := by
  have hperm := List.mergeSort_perm
    ((d.paidOfYear o year).filter fun saving => userId = saving.userId)
    (Date.orderBy.on PaidSavings.periodDate).le
  have hpaid : (d.paidOfYear o year).Nodup := h.savingsSchema.nodup_paidOfYear
  have hnodup := hpaid.filter fun saving => userId = saving.userId
  refine LumbungMesari.hidden_eq_nil (((hperm.map _).nodup_iff).2 ?_)
  refine hnodup.map_on fun a ha b hb hmonth => ?_
  obtain ⟨ha, hau⟩ := List.mem_filter.1 ha
  obtain ⟨hb, hbu⟩ := List.mem_filter.1 hb
  rw [decide_eq_true_eq] at hau hbu
  obtain ⟨r, hr, u, -, hra⟩ := mem_paidOfYear ha
  obtain ⟨r', hr', u', -, hrb⟩ := mem_paidOfYear hb
  have hin : r.InMonth (fullYear year) (a.month o) :=
    ⟨by rw [← year_of_paidOfYear ha, hra], by rw [← h.month_eq ha, hra]⟩
  have hin' : r'.InMonth (fullYear year) (a.month o) :=
    ⟨by rw [← year_of_paidOfYear hb, hrb], by rw [hmonth, ← h.month_eq hb, hrb]⟩
  have huser : r.userId = r'.userId := by
    have hab := hau.symm.trans hbu
    rwa [hra, hrb] at hab
  have hsame : r = r' := h.eq_of_inMonth hr hr' huser hin hin'
  refine h.savingsSchema.eq_of_paid ha hb (hau.symm.trans hbu) ?_
  rw [hra, hrb, hsame]

/-- One page of members and one of records always fit, with whole amounts. -/
theorem Calendared.reportFits (h : Calendared o there d) (collation localeCompare : OrderBy String)
    (hmembers : d.activeMembers.length ≤ batchSize)
    (hsavings : (d.paidOfYear o year).length ≤ batchSize)
    (hwhole : ∀ saving ∈ d.paidOfYear o year, Decimal 0 saving.amount.toRat) :
    ReportFits collation localeCompare o year d where
  members member _ := not_straddles_of_length_le hmembers member
  savings saving _ _ := not_straddles_of_length_le hsavings saving
  hidden userId _ := by
    rw [h.hidden_eq_nil]
    rfl
  footer members hlists := by
    refine h.savingsSchema.footerAgrees hwhole (fun userId _ => ?_) ?_
    · rw [h.hidden_eq_nil]
      rfl
    · rw [List.length_map, List.length_mergeSort, hlists.perm.length_eq]
      exact hmembers.trans (by decide)

end Generated

/-- Whatever order the ties are in, the report is complete and adds up, exactly when no page ends
among tied members, or among tied records with one of an active member, what the payments of a member
hide comes to nothing, and JavaScript adds the totals of the members to the same as those of the
months. -/
theorem report_completes_iff {collation localeCompare : OrderBy String} {o : UtcOffset} {year : ℤ}
    {d : Database} (hd : SavingsSchema d) :
    (∀ plan : ReportPlan collation, ReportCompletes localeCompare plan o year d) ↔
      ReportFits collation localeCompare o year d :=
  ⟨fits_of_completes hd, fun h _ => h.completes hd⟩

/-- Names compared character by character. -/
def alphabetical : OrderBy String := .ofLinearOrder String

/-- A year was generated, and January is paid. -/
def januaryPaid : Database := runCalls (CalendarCall.program utcOffset) seeded [
  .createYearlyMandatorySavingsForUsers (100 + ·) [3] 100000 ⟨⟨2026, 1, 1⟩, .midnight⟩,
  .settleMandatorySavings ⟨1, 1⟩ 100 1 ⟨2026, 1, 5⟩]

theorem report_completes_januaryPaid :
    ReportFits alphabetical alphabetical utcOffset 2026 januaryPaid ∧
      ∀ plan : ReportPlan alphabetical,
        ReportCompletes alphabetical plan utcOffset 2026 januaryPaid := by
  have hempty : seeded.rows .mandatorySavings = [] := rfl
  have h : Calendared utcOffset _ januaryPaid := (calendared_of_empty hempty).run [
    .createYearlyMandatorySavingsForUsers (100 + ·) [3] 100000 ⟨⟨2026, 1, 1⟩, .midnight⟩,
    .settleMandatorySavings ⟨1, 1⟩ 100 1 ⟨2026, 1, 5⟩]
  have hwhole : ∀ saving ∈ januaryPaid.paidOfYear utcOffset 2026, saving.amount.toRat = 100000 := by
    decide +kernel
  have hfits : ReportFits alphabetical alphabetical utcOffset 2026 januaryPaid := by
    refine h.reportFits alphabetical alphabetical (by decide +kernel) (by decide +kernel)
      fun saving hsaving => ⟨100000, ?_⟩
    rw [hwhole saving hsaving]
    norm_num
  exact ⟨hfits, (report_completes_iff h.savingsSchema).2 hfits⟩

/-- One member more than a batch holds, all of one name. -/
def namesakes : List User :=
  (List.range 101).map fun i => seededUser i (toString i) "Andi Setiawan" (toString i) .member

def crowded : Database := seeded.setTable .users ⟨namesakes, by
  rw [namesakes, List.map_map]
  exact List.nodup_range.map_on fun _ _ _ _ hid => hid⟩

theorem activeMembers_crowded :
    crowded.activeMembers = (List.range 101).map fun i => (i, "Andi Setiawan") := by
  have hrows : crowded.rows .users = namesakes := rfl
  rw [Database.activeMembers, hrows, namesakes, List.filter_eq_self.2, List.map_map]
  · rfl
  · intro u hu
    obtain ⟨i, -, rfl⟩ := List.mem_map.1 hu
    rfl

theorem byFullname_tied (collation : OrderBy String) (id id' : Uuid) (fullname : String) :
    (byFullname collation).le (id, fullname) (id', fullname) = true := collation.refl fullname

/-- The last namesake is on no page when the first page is cut where it comes last, and the second
where it comes first. -/
theorem not_report_completes_crowded :
    ¬ ∀ plan : ReportPlan alphabetical, ReportCompletes alphabetical plan utcOffset 2026 crowded := by
  intro h
  have hempty : crowded.rows .mandatorySavings = [] := rfl
  have hschema : SavingsSchema crowded :=
    ⟨by simp [hempty], by simp [hempty]⟩
  have hmember : (100, "Andi Setiawan") ∈ crowded.activeMembers := by
    rw [activeMembers_crowded]
    exact List.mem_map.2 ⟨100, by simp, rfl⟩
  have htied : ∀ member ∈ crowded.activeMembers,
      (byFullname alphabetical).le (100, "Andi Setiawan") member = true ∧
        (byFullname alphabetical).le member (100, "Andi Setiawan") = true := by
    intro member hmember
    rw [activeMembers_crowded] at hmember
    obtain ⟨i, -, rfl⟩ := List.mem_map.1 hmember
    exact ⟨byFullname_tied .., byFullname_tied ..⟩
  have hbefore : (byFullname alphabetical).before crowded.activeMembers (100, "Andi Setiawan") = 0 :=
    List.countP_eq_zero.2 fun member hmember => by simp [(htied member hmember).1]
  have hupTo : (byFullname alphabetical).upTo crowded.activeMembers (100, "Andi Setiawan") = 101 := by
    rw [OrderBy.upTo, List.countP_eq_length.2 fun member hmember => (htied member hmember).2,
      activeMembers_crowded, List.length_map, List.length_range]
  refine (fits_of_completes hschema h).members _ hmember 1 ⟨?_, ?_⟩
  · rw [hbefore]
    decide
  · rw [hupTo]
    decide

end LumbungMesari
