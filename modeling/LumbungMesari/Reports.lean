import LumbungMesari.Js.Digits
import LumbungMesari.SavingsCalendar

/-!
# The savings report

The report pages through the active members and through the paid records of a year, and adds the
records up as it goes: decimal.js adds the payments of a member and of a month, and `+` adds the
totals of the members. Both queries order by name, and names are not unique, so each page can be cut
from another order of the ties.
-/

namespace LumbungMesari

open Sql Js

/-! ### Members -/

/-- The row of a member: what was paid for each of the twelve months, and the sum. -/
structure MemberSavingsData where
  userId : Uuid
  fullname : String
  monthlyPayments : List (Option ℚ)
  total : Double

/-- A member that has not paid anything yet. -/
def memberData (member : Uuid × String) : MemberSavingsData :=
  ⟨member.1, member.2, List.replicate 12 none, 0⟩

/-- `memberDataMap.set` -/
def addMember (members : List MemberSavingsData) (member : Uuid × String) :
    List MemberSavingsData :=
  if members.any fun m => m.userId = member.1 then
    members.map fun m => if m.userId = member.1 then memberData member else m
  else members ++ [memberData member]

/-- The month of a paid record, counted from zero. -/
def PaidSavings.month (o : UtcOffset) (saving : PaidSavings) : ℕ :=
  ((parseDate saving.periodDate).toLocal o).date.month - 1

def MemberSavingsData.pay (o : UtcOffset) (saving : PaidSavings) (m : MemberSavingsData) :
    MemberSavingsData :=
  { m with
    monthlyPayments := m.monthlyPayments.set (saving.month o) (some saving.amount.toRat)
    total := m.total.plus saving.amount.toRat }

def addPayment (o : UtcOffset) (members : List MemberSavingsData) (saving : PaidSavings) :
    List MemberSavingsData :=
  members.map fun m => if m.userId = saving.userId then m.pay o saving else m

/-! ### The report -/

structure SavingsReport where
  members : List MemberSavingsData
  monthlyTotals : List Double
  grandTotal : Double

/-- A member adds what it has paid for a month to the total of the month. -/
def addMonthly (monthlyTotals : List Double) (monthlyPayments : List (Option ℚ)) : List Double :=
  List.zipWith (fun total amount => amount.elim total total.plus) monthlyTotals monthlyPayments

/-- The rows of the members in the order of `localeCompare`, and the footer. -/
def savingsReport (localeCompare : OrderBy String) (memberDataMap : List MemberSavingsData) :
    SavingsReport :=
  let members := memberDataMap.mergeSort (localeCompare.on MemberSavingsData.fullname).le
  { members
    monthlyTotals := (members.map (·.monthlyPayments)).foldl addMonthly (List.replicate 12 0)
    grandTotal := (members.map (·.total)).foldl (fun sum total => sum + total) 0 }

/-- How the two queries settle their ties. -/
structure ReportPlan (collation : OrderBy String) where
  members : Plan (byFullname collation)
  savings : Plan (byFullnameAndPeriod collation)

/-- The same order of the ties for all pages. -/
def ReportPlan.sorted (collation : OrderBy String) : ReportPlan collation := ⟨.sorted _, .sorted _⟩

def batchSize : ℕ := 100

section Generation

variable {collation : OrderBy String} (plan : ReportPlan collation) (o : UtcOffset) (fuel : ℕ)
  (year : ℤ)

/-- Whatever order each of the pages is cut from. -/
def generateMandatorySavingsReport (localeCompare : OrderBy String) :
    Program (Option SavingsReport) := do
  match ← forEachPage (getActiveMembersFullname plan.members · batchSize) addMember fuel 1 [] with
  | none => pure none
  | some members => do
      let memberData ← forEachPage
        (findPaidMandatorySavingsByYear plan.savings o year · batchSize) (addPayment o) fuel 1
        members
      pure (memberData.map (savingsReport localeCompare))

/-- The paid records that the report goes over, one after another. -/
def countPaidSavings : Program (Option (List PaidSavings)) :=
  forEachPage (findPaidMandatorySavingsByYear plan.savings o year · batchSize)
    (fun counted saving => counted ++ [saving]) fuel 1 []

end Generation

/-! ### Payments -/

namespace MemberSavingsData

/-- What `addPayment` makes of one member. -/
def payOwn (o : UtcOffset) (m : MemberSavingsData) (saving : PaidSavings) : MemberSavingsData :=
  if m.userId = saving.userId then m.pay o saving else m

variable {o : UtcOffset} {m : MemberSavingsData} {saving : PaidSavings} {savings : List PaidSavings}
  {month : ℕ}

@[simp] theorem payOwn_userId : (m.payOwn o saving).userId = m.userId := by
  unfold payOwn
  split <;> rfl

@[simp] theorem payOwn_length :
    (m.payOwn o saving).monthlyPayments.length = m.monthlyPayments.length := by
  unfold payOwn
  split
  · exact List.length_set ..
  · rfl

theorem payOwn_month (huser : m.userId = saving.userId)
    (hmonth : saving.month o < m.monthlyPayments.length) :
    (m.payOwn o saving).monthlyPayments[saving.month o]? = some (some saving.amount.toRat) := by
  rw [payOwn, if_pos huser]
  exact List.getElem?_set_self hmonth

theorem payOwn_other (h : m.userId = saving.userId → saving.month o ≠ month) :
    (m.payOwn o saving).monthlyPayments[month]? = m.monthlyPayments[month]? := by
  unfold payOwn
  split
  · rename_i huser
    exact List.getElem?_set_ne (h huser)
  · rfl

@[simp] theorem foldl_payOwn_userId : (savings.foldl (payOwn o) m).userId = m.userId := by
  induction savings generalizing m with
  | nil => rfl
  | cons saving savings ih => rw [List.foldl_cons, ih, payOwn_userId]

theorem foldl_payOwn_other
    (h : ∀ saving ∈ savings, m.userId = saving.userId → saving.month o ≠ month) :
    (savings.foldl (payOwn o) m).monthlyPayments[month]? = m.monthlyPayments[month]? := by
  induction savings generalizing m with
  | nil => rfl
  | cons saving savings ih =>
      rw [List.foldl_cons, ih, payOwn_other (h saving (List.mem_cons_self ..))]
      intro saving' hsaving'
      rw [payOwn_userId]
      exact h saving' (List.mem_cons_of_mem _ hsaving')

theorem foldl_payOwn_month (hlength : month < m.monthlyPayments.length) (hmem : saving ∈ savings)
    (huser : m.userId = saving.userId) (hmonth : saving.month o = month)
    (honce : ∀ saving' ∈ savings, m.userId = saving'.userId → saving'.month o = month →
      saving'.amount = saving.amount) :
    (savings.foldl (payOwn o) m).monthlyPayments[month]? = some (some saving.amount.toRat) := by
  induction savings generalizing m saving with
  | nil => cases hmem
  | cons first savings ih =>
      have honce' : ∀ saving' ∈ savings, m.userId = saving'.userId → saving'.month o = month →
          saving'.amount = saving.amount :=
        fun saving' hsaving' => honce saving' (List.mem_cons_of_mem _ hsaving')
      rw [List.foldl_cons]
      by_cases hlater : ∃ later ∈ savings, m.userId = later.userId ∧ later.month o = month
      · obtain ⟨later, hlater, huser', hmonth'⟩ := hlater
        have hamount := honce' later hlater huser' hmonth'
        rw [← hamount]
        refine ih ?_ hlater ?_ hmonth' fun saving' hsaving' => ?_
        · rwa [payOwn_length]
        · rwa [payOwn_userId]
        · rw [payOwn_userId, hamount]
          exact honce' saving' hsaving'
      · -- Nothing is paid for the month after the first row, so the first row is the payment.
        obtain rfl : saving = first := by
          by_contra hne
          exact hlater ⟨saving, List.mem_of_ne_of_mem hne hmem, huser, hmonth⟩
        rw [foldl_payOwn_other, ← hmonth]
        · rw [← hmonth] at hlength
          exact payOwn_month huser hlength
        · intro saving' hsaving'
          rw [payOwn_userId]
          exact fun huser' hmonth' => hlater ⟨saving', hsaving', huser', hmonth'⟩

theorem foldl_pay_userId :
    (savings.foldl (fun m saving => m.pay o saving) m).userId = m.userId := by
  induction savings generalizing m with
  | nil => rfl
  | cons saving savings ih => exact ih

theorem foldl_pay_fullname :
    (savings.foldl (fun m saving => m.pay o saving) m).fullname = m.fullname := by
  induction savings generalizing m with
  | nil => rfl
  | cons saving savings ih => exact ih

theorem foldl_payOwn_eq : savings.foldl (payOwn o) m =
    (savings.filter fun saving => m.userId = saving.userId).foldl (fun m saving => m.pay o saving)
      m := by
  induction savings generalizing m with
  | nil => rfl
  | cons saving savings ih =>
      rw [List.foldl_cons, ih, payOwn_userId, List.filter_cons, payOwn]
      split
      · rename_i hown
        rw [if_pos (decide_eq_true hown)]
        rfl
      · rename_i hother
        rw [if_neg (by simpa using hother)]

end MemberSavingsData

theorem foldl_addPayment {o : UtcOffset} (savings : List PaidSavings)
    (members : List MemberSavingsData) : savings.foldl (addPayment o) members =
      members.map fun m => savings.foldl (MemberSavingsData.payOwn o) m := by
  induction savings generalizing members with
  | nil => exact (List.map_id members).symm
  | cons saving savings ih =>
      rw [List.foldl_cons, ih, addPayment, List.map_map]
      rfl

theorem foldl_addMember {ids : List (Uuid × String)} {members : List MemberSavingsData}
    (h : (members.map (·.userId) ++ ids.map Prod.fst).Nodup) : ids.foldl addMember members =
      members ++ ids.map memberData := by
  induction ids generalizing members with
  | nil => exact (List.append_nil members).symm
  | cons member ids ih =>
      have hnew : (members.any fun m => m.userId = member.1) = false := by
        rw [List.any_eq_false]
        intro m hm huser
        refine (List.nodup_append.1 h).2.2 m.userId (List.mem_map_of_mem hm) member.1 ?_
          (of_decide_eq_true huser)
        exact List.mem_cons_self ..
      have hadded : addMember members member = members ++ [memberData member] := by
        rw [addMember, hnew]
        rfl
      rw [List.foldl_cons, hadded, ih]
      · rw [List.append_assoc]
        rfl
      · rwa [List.map_append, List.append_assoc]

theorem nodup_activeMembers (d : Database) : (d.activeMembers.map Prod.fst).Nodup := by
  rw [Database.activeMembers, List.map_map]
  exact (d.table .users).nodup.sublist (List.filter_sublist.map _)

theorem length_activeMembers (d : Database) : d.activeMembers.length ≤ (d.rows .users).length := by
  rw [Database.activeMembers, List.length_map]
  exact List.length_filter_le ..

theorem length_paidOfYear (o : UtcOffset) (year : ℤ) (d : Database) :
    (d.paidOfYear o year).length ≤ (d.rows .mandatorySavings).length :=
  (List.length_filterMap_le ..).trans (List.length_filter_le ..)

/-! ### What the loops read -/

section Reading

variable {collation localeCompare : OrderBy String} {plan : ReportPlan collation} {o : UtcOffset}
  {year : ℤ} {d : Database} {fuel : ℕ}

/-- The members that the first loop goes over. -/
def readMembers (plan : ReportPlan collation) (fuel : ℕ) (d : Database) : List (Uuid × String) :=
  pages (fun j => plan.members.list (j + 1) d.activeMembers) batchSize 0 fuel

/-- The payments that the second loop goes over. -/
def readSavings (plan : ReportPlan collation) (o : UtcOffset) (fuel : ℕ) (year : ℤ) (d : Database) :
    List PaidSavings :=
  pages (fun j => plan.savings.list (j + 1) (d.paidOfYear o year)) batchSize 0 fuel

/-- The rows of the members that were read, with the payments that were. -/
def readReport (plan : ReportPlan collation) (o : UtcOffset) (fuel : ℕ) (year : ℤ) (d : Database) :
    List MemberSavingsData :=
  ((readMembers plan fuel d).foldl addMember []).map fun m =>
    (readSavings plan o fuel year d).foldl (MemberSavingsData.payOwn o) m

theorem foldl_concat {α : Type} (xs ys : List α) :
    ys.foldl (fun counted x => counted ++ [x]) xs = xs ++ ys := by
  induction ys generalizing xs with
  | nil => exact (List.append_nil xs).symm
  | cons y ys ih => rw [List.foldl_cons, ih, List.append_assoc, List.singleton_append]

theorem result_countPaidSavings (hfuel : (d.paidOfYear o year).length < fuel) :
    (countPaidSavings plan o fuel year).result d = .ok (some (readSavings plan o fuel year d)) := by
  have hloop : (countPaidSavings plan o fuel year).Returns d .idle
      (some ((readSavings plan o fuel year d).foldl (fun counted x => counted ++ [x]) [])) d .idle :=
    forEachPage_paginateBy (by decide) _ [] (Nat.lt_of_le_of_lt (Nat.sub_le ..) hfuel)
  rw [foldl_concat, List.nil_append] at hloop
  exact Prog.result_eq_ok.2 ⟨_, _, hloop⟩

theorem result_generateMandatorySavingsReport (hmembers : d.activeMembers.length < fuel)
    (hsavings : (d.paidOfYear o year).length < fuel) :
    (generateMandatorySavingsReport plan o fuel year localeCompare).result d =
      .ok (some (savingsReport localeCompare (readReport plan o fuel year d))) := by
  have hfirst : (forEachPage (getActiveMembersFullname plan.members · batchSize) addMember
      fuel 1 []).Returns d .idle (some ((readMembers plan fuel d).foldl addMember [])) d .idle :=
    forEachPage_paginateBy (by decide) addMember [] (Nat.lt_of_le_of_lt (Nat.sub_le ..) hmembers)
  have hsecond : (forEachPage (findPaidMandatorySavingsByYear plan.savings o year · batchSize)
      (addPayment o) fuel 1 ((readMembers plan fuel d).foldl addMember [])).Returns d .idle
        (some ((readSavings plan o fuel year d).foldl (addPayment o)
          ((readMembers plan fuel d).foldl addMember []))) d .idle :=
    forEachPage_paginateBy (by decide) (addPayment o) _ (Nat.lt_of_le_of_lt (Nat.sub_le ..) hsavings)
  rw [foldl_addPayment] at hsecond
  exact Prog.result_eq_ok.2 ⟨_, _, Prog.returns_bind.2 ⟨_, d, .idle, hfirst,
    Prog.returns_bind.2 ⟨_, d, .idle, hsecond, rfl⟩⟩⟩

theorem mem_foldl_addMember {ids : List (Uuid × String)} {members : List MemberSavingsData}
    {m : MemberSavingsData} (h : m ∈ ids.foldl addMember members) :
    m ∈ members ∨ ∃ member ∈ ids, m = memberData member := by
  induction ids generalizing members with
  | nil => exact .inl h
  | cons member ids ih =>
      rcases ih h with h | ⟨later, hlater, rfl⟩
      · unfold addMember at h
        split at h
        · obtain ⟨m', hm', rfl⟩ := List.mem_map.1 h
          split
          · exact .inr ⟨member, List.mem_cons_self .., rfl⟩
          · exact .inl hm'
        · rcases List.mem_append.1 h with h | h
          · exact .inl h
          · exact .inr ⟨member, List.mem_cons_self .., List.mem_singleton.1 h⟩
      · exact .inr ⟨later, List.mem_cons_of_mem _ hlater, rfl⟩

/-- A row of the report is a member that was read, with its payments that were. -/
theorem mem_readReport {m : MemberSavingsData} (h : m ∈ readReport plan o fuel year d) :
    ∃ member ∈ readMembers plan fuel d, m.userId = member.1 ∧
      m = ((readSavings plan o fuel year d).filter fun saving => member.1 = saving.userId).foldl
        (fun m saving => m.pay o saving) (memberData member) := by
  obtain ⟨m₀, hm₀, rfl⟩ := List.mem_map.1 h
  rcases mem_foldl_addMember hm₀ with hnone | ⟨member, hmember, rfl⟩
  · cases hnone
  · refine ⟨member, hmember, ?_, MemberSavingsData.foldl_payOwn_eq⟩
    rw [MemberSavingsData.foldl_payOwn_userId]
    rfl

theorem readReport_eq (h : (readMembers plan fuel d).Perm d.activeMembers) :
    readReport plan o fuel year d = (readMembers plan fuel d).map fun member =>
      (readSavings plan o fuel year d).foldl (MemberSavingsData.payOwn o) (memberData member) := by
  have hnodup : ((readMembers plan fuel d).map Prod.fst).Nodup :=
    (h.map Prod.fst).nodup_iff.2 (nodup_activeMembers d)
  have hadded : (readMembers plan fuel d).foldl addMember [] =
      (readMembers plan fuel d).map memberData := foldl_addMember hnodup
  rw [readReport, hadded, List.map_map]
  rfl

end Reading

end LumbungMesari
