import LumbungMesari.Instants
import LumbungMesari.Pagination
import LumbungMesari.Savings

/-!
# The calendar of mandatory savings

The dates of the records, and the queries that look for them by month or by year, in a process at any
offset from UTC. The driver sends a `Date` as the local date and time of the process, and a `DATE`
column is read as the text of its date. Queries that order by name leave ties, so each of their pages
can be cut from another order of these.
-/

namespace LumbungMesari

open Sql
open Prog (onPool)

/-! ### Records -/

/-- The date of a record is the first of its month, unless the process is behind UTC: then it is the
day before. -/
theorem periodDate_eq (o : UtcOffset) (year : ℤ) {month : ℕ} (h : month < 12) :
    periodDate o year month = if o.ms < 0 then (⟨fullYear year, month + 1, 1⟩ : Date).prev
      else ⟨fullYear year, month + 1, 1⟩ := by
  rw [periodDate, utc, Instant.toDate_midnight, makeDay_one h]

/-! ### Queries -/

/-- `whereBetween` of a date column and two parameters. -/
def whereBetween (o : UtcOffset) (startDate endDate : Instant) (date : Date) : Bool :=
  (startDate.toDate o).le date && date.le (endDate.toDate o)

def findByUserIdAndYear (o : UtcOffset) (userId : Uuid) (year : ℤ) :
    Program (List MandatorySavings) :=
  let startDate := utc year 0 1 .midnight
  let endDate := utc year 11 31 .lastMillisecond
  onPool (select fun d => ((d.rows .mandatorySavings).filter fun r =>
    r.userId = userId ∧ whereBetween o startDate endDate r.periodDate).mergeSort
      fun r r' => r.periodDate.le r'.periodDate)

def periodNames : List String := ["january", "february", "march", "april", "may", "june", "july",
  "august", "september", "october", "november", "december"]

/-- A year that is missing or zero is the current one. -/
def targetYear (o : UtcOffset) (year : Option ℤ) (now : Instant) : ℤ :=
  if year.getD 0 = 0 then (now.toLocal o).date.year else year.getD 0

def convertPeriodToDateRange (o : UtcOffset) (period : String) (year : Option ℤ) (now : Instant) :
    Except Error (Instant × Instant) :=
  match periodNames.idxOf? period.toLower with
  | none =>
      .error (.error s!"Invalid period: {period}. Must be a valid month name in English.")
  | some monthIndex =>
      .ok (utc (targetYear o year now) monthIndex 1 .midnight,
        utc (targetYear o year now) (monthIndex + 1) 0 .midnight)

/-- The rows that `findByUserIdWithPagination` counts and pages through when a period is given. -/
def findByUserIdAndPeriod (o : UtcOffset) (userId : Uuid) (period : String) (year : Option ℤ)
    (now : Instant) : Program (List MandatorySavings) :=
  match convertPeriodToDateRange o period year now with
  | .error e => .throw e
  | .ok (startDate, endDate) => onPool (select fun d => (d.rows .mandatorySavings).filter fun r =>
      r.userId = userId ∧ whereBetween o startDate endDate r.periodDate)

/-- A row of `findPaidMandatorySavingsByYear`. -/
structure PaidSavings where
  userId : Uuid
  fullname : String
  periodDate : Date
  amount : Money
  deriving DecidableEq

/-! ### Pages -/

/-- `ORDER BY` a date. -/
def Date.orderBy : OrderBy Date where
  le := Date.le
  trans := Date.le_trans
  total := Date.le_total

/-- The order of the members. The collation of the database says how names compare. -/
def byFullname (collation : OrderBy String) : OrderBy (Uuid × String) := collation.on Prod.snd

/-- The order of the paid records. -/
def byFullnameAndPeriod (collation : OrderBy String) : OrderBy PaidSavings :=
  (collation.on (·.fullname)).thenBy (Date.orderBy.on (·.periodDate))

def Database.activeMembers (d : Database) : List (Uuid × String) :=
  ((d.rows .users).filter fun u => u.roleId = .member ∧ u.status = .active).map fun u =>
    (u.id, u.fullname)

/-- The paid records of a year, joined with their users. -/
def Database.paidOfYear (o : UtcOffset) (year : ℤ) (d : Database) : List PaidSavings :=
  let startDate := newDate o year 0 1 .midnight
  let endDate := newDate o year 11 31 .lastSecond
  let paid := (d.rows .mandatorySavings).filter fun r =>
    r.status = .paid ∧ whereBetween o startDate endDate r.periodDate
  paid.filterMap fun r => (d.find .users r.userId).map fun u =>
    ⟨r.userId, u.fullname, r.periodDate, r.amount⟩

section Pages

variable {collation : OrderBy String}

def getActiveMembersFullname (plan : Plan (byFullname collation)) (page limit : ℕ) :
    Program (Page (Uuid × String)) := paginateBy plan Database.activeMembers page limit

def findPaidMandatorySavingsByYear (plan : Plan (byFullnameAndPeriod collation)) (o : UtcOffset)
    (year : ℤ) (page limit : ℕ) : Program (Page PaidSavings) :=
  paginateBy plan (Database.paidOfYear o year) page limit

end Pages

end LumbungMesari
