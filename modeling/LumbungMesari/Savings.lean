import LumbungMesari.Instants
import LumbungMesari.Users

/-!
# Mandatory savings

The records of a year are created for all active members at once, by a yearly job or on request, and
settled one by one: `createYearlyMandatorySavingsForAllUsers`, `generateRemainingYearSavings` and
`settleMandatorySavings` of the savings service and the statements of `MandatorySavingsRepository`
behind them, in a process at any offset from UTC.
-/

namespace LumbungMesari

open Sql
open Prog (inTrx commitTrx)

/-! ### Records -/

/-- The columns of a new record. -/
structure MandatorySavingsData where
  userId : Uuid
  periodDate : Date
  amount : ℚ

def MandatorySavingsData.toRow (data : MandatorySavingsData) (id : Uuid) :
    Except Error MandatorySavings := do
  let amount ← money data.amount
  pure {
    id, userId := data.userId, periodDate := data.periodDate, amount, status := .due
    paidAt := none, processedBy := none }

/-- The date of the record of a month, counted from zero. The driver sends a `Date` as the local date
and time of the process, and a cast to `DATE` keeps the date. -/
def periodDate (o : UtcOffset) (year : ℤ) (month : ℕ) : Date := (utc year month 1 .midnight).toDate o

/-- The records of the months from `startMonth`, counted from zero, to December. -/
def mandatorySavingsRecords (o : UtcOffset) (userIds : List Uuid) (amount : ℚ) (year : ℤ)
    (startMonth : ℕ) : List MandatorySavingsData :=
  (List.range' startMonth (12 - startMonth)).flatMap fun month =>
    userIds.map fun userId => ⟨userId, periodDate o year month, amount⟩

/-- The rows of an insert. knex sends no query without any. -/
def rowsOfRecords (ids : ℕ → Uuid) (records : List MandatorySavingsData) :
    Except Error (List MandatorySavings) :=
  if records.isEmpty then .error (.error "The query is empty")
  else records.zipIdx.mapM fun (data, k) => data.toRow (ids k)

theorem rowsOfRecords_ok {ids : ℕ → Uuid} {records : List MandatorySavingsData}
    {rs : List MandatorySavings} (h : rowsOfRecords ids records = .ok rs) :
    (records.zipIdx.mapM fun (data, k) => data.toRow (ids k)) = .ok rs := by
  unfold rowsOfRecords at h
  split at h
  · cases h
  · exact h

/-- The insert and its commit. It answers with the number of records it was given, which may be more
than it inserts. `failure` is what the service makes of an error. -/
def insertRecords (failure : Error) (ids : ℕ → Uuid) (records : List MandatorySavingsData) :
    Program ℕ := do
  inTrx (catchError
    (insertAllIgnoring .mandatorySavings (fun r => .mandatorySavingsPeriod r.userId r.periodDate)
      (rowsOfRecords ids records))
    fun _ => failure)
  commitTrx
  pure records.length

def createYearlyMandatorySavingsForUsers (o : UtcOffset) (ids : ℕ → Uuid) (userIds : List Uuid)
    (amount : ℚ) (now : Instant) : Program ℕ :=
  insertRecords (.httpException 500 "Failed to create yearly mandatory savings records") ids
    (mandatorySavingsRecords o userIds amount (now.toLocal o).date.year 0)

def generateRemainingYearSavingsForUsers (o : UtcOffset) (ids : ℕ → Uuid) (userIds : List Uuid)
    (amount : ℚ) (year : ℤ) (startMonth : ℕ) : Program ℕ :=
  insertRecords (.httpException 500 "Failed to generate mandatory savings records") ids
    (mandatorySavingsRecords o userIds amount year startMonth)

/-- `configured` is `MANDATORY_SAVINGS_DEFAULT_AMOUNT`. -/
def getMandatorySavingsAmount (configured : Option ℚ) : ℚ :=
  let amount := configured.getD 500000
  if amount ≤ 0 then 500000 else amount

/-- The yearly job. -/
def createYearlyMandatorySavingsForAllUsers (o : UtcOffset) (ids : ℕ → Uuid)
    (configured : Option ℚ) (now : Instant) : Program Unit := do
  let activeMemberIds ← getActiveMemberIds
  if activeMemberIds.length = 0 then pure ()
  else do
    let _ ← createYearlyMandatorySavingsForUsers o ids activeMemberIds
      (getMandatorySavingsAmount configured) now
    pure ()

def monthNames : List String := ["January", "February", "March", "April", "May", "June", "July",
  "August", "September", "October", "November", "December"]

structure GeneratedSavings where
  message : String
  monthsGenerated : ℕ
  usersCount : ℕ
  totalRecords : ℕ
  months : List String
  deriving DecidableEq

def generatedMessage (remainingMonths usersCount : ℕ) (months : List String) : String :=
  s!"Successfully generated mandatory savings for {remainingMonths} months (" ++
    ", ".intercalate months ++ s!") for {usersCount} active members"

def generateRemainingYearSavings (o : UtcOffset) (ids : ℕ → Uuid) (configured : Option ℚ)
    (now : Instant) : Program GeneratedSavings := do
  let activeMemberIds ← getActiveMemberIds
  if activeMemberIds.length = 0 then
    pure ⟨"No active members found to generate savings for", 0, 0, 0, []⟩
  else do
    let currentDate := (now.toLocal o).date
    let currentMonth := currentDate.month - 1
    let remainingMonths := 12 - currentMonth
    let generatedMonths := monthNames.drop currentMonth
    let createdCount ← generateRemainingYearSavingsForUsers o ids activeMemberIds
      (getMandatorySavingsAmount configured) currentDate.year currentMonth
    pure {
      message := generatedMessage remainingMonths activeMemberIds.length generatedMonths
      monthsGenerated := remainingMonths
      usersCount := activeMemberIds.length
      totalRecords := createdCount
      months := generatedMonths }

/-! ### Settlements -/

/-- `toLocaleString('id-ID', { month: 'long' })` -/
def monthName : ℕ → String
  | 1 => "Januari"
  | 2 => "Februari"
  | 3 => "Maret"
  | 4 => "April"
  | 5 => "Mei"
  | 6 => "Juni"
  | 7 => "Juli"
  | 8 => "Agustus"
  | 9 => "September"
  | 10 => "Oktober"
  | 11 => "November"
  | _ => "Desember"

/-- A plain select, without a lock. -/
def findMandatorySavingsById (id : Uuid) : Program (Option MandatorySavings) :=
  inTrx (select fun d => d.find .mandatorySavings id)

def MandatorySavings.settle (adminId : Uuid) (now : Date) (r : MandatorySavings) :
    MandatorySavings :=
  { r with status := .paid, paidAt := some now, processedBy := some adminId }

def updateMandatorySavings (id adminId : Uuid) (now : Date) : Program MandatorySavings :=
  updateOrThrow (t := .mandatorySavings) (.updateMandatorySavings id) id
    (fun r => .ok (r.settle adminId now)) (.error s!"Mandatory savings record with id {id} not found")

def settleMandatorySavings (ids : IncomeIds) (savingsId adminId : Uuid) (now : Date) :
    Program Unit := do
  match ← findMandatorySavingsById savingsId with
  | none => .throw (.httpException 404 "Mandatory savings not found")
  | some mandatorySavings =>
      if mandatorySavings.status = .paid then
        .throw (.httpException 400 "Mandatory savings already paid")
      else do
        let _ ← updateMandatorySavings mandatorySavings.id adminId now
        let amount := mandatorySavings.amount.toRat
        let income ← createMandatorySavingsIncome ids.income mandatorySavings.id amount
          (some (s!"Simpanan wajib {monthName mandatorySavings.periodDate.month} " ++
            s!"{mandatorySavings.periodDate.year}")) now
        let _ ← createIncomeTransaction ids.ledger income.id amount .capital none now
        commitTrx

end LumbungMesari
