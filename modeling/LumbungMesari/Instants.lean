import LumbungMesari.LoanSchedule

/-!
# Instants

An instant is a day and a time of that day in UTC. A process reads it at its own offset from UTC,
which can be the day before or the day after. Constructors take the fields of a date either in UTC
or at the offset of the process.
-/

namespace LumbungMesari

/-! ### Days -/

namespace Date

/-- A day of the calendar. -/
structure Valid (d : Date) : Prop where
  month : 1 ≤ d.month ∧ d.month ≤ 12
  day : 1 ≤ d.day ∧ d.day ≤ daysInMonth d.year d.month

def next (d : Date) : Date :=
  if d.day < daysInMonth d.year d.month then { d with day := d.day + 1 }
  else if d.month < 12 then ⟨d.year, d.month + 1, 1⟩
  else ⟨d.year + 1, 1, 1⟩

def prev (d : Date) : Date :=
  if 1 < d.day then { d with day := d.day - 1 }
  else if 1 < d.month then ⟨d.year, d.month - 1, daysInMonth d.year (d.month - 1)⟩
  else ⟨d.year - 1, 12, 31⟩

theorem daysInMonth_bounds (year : ℤ) (month : ℕ) :
    28 ≤ daysInMonth year month ∧ daysInMonth year month ≤ 31 := by
  unfold daysInMonth
  split
  · split <;> omega
  · split <;> omega

@[simp] theorem daysInMonth_december (year : ℤ) : daysInMonth year 12 = 31 := rfl

theorem Valid.prev_next {d : Date} (h : d.Valid) : d.next.prev = d := by
  have hmonth := h.month
  have hday := h.day
  unfold next
  split
  · rw [prev, if_pos (by dsimp only; omega)]
    ext <;> simp
  split
  · rw [prev, if_neg (by simp), if_pos (by dsimp only; omega)]
    ext
    · rfl
    · simp
    · simp only [Nat.add_sub_cancel]
      omega
  · rename_i hlast hend
    have hdecember : d.month = 12 := by omega
    rw [hdecember, daysInMonth_december] at hday hlast
    rw [prev, if_neg (by simp), if_neg (by simp)]
    ext
    · simp
    · exact hdecember.symm
    · simp only
      omega

theorem Valid.next_prev {d : Date} (h : d.Valid) : d.prev.next = d := by
  have hmonth := h.month
  have hday := h.day
  unfold prev
  split
  · rw [next, if_pos (by dsimp only; omega)]
    ext
    · rfl
    · rfl
    · simp only
      omega
  split
  · rw [next, if_neg (by simp), if_pos (by dsimp only; omega)]
    ext
    · rfl
    · simp only
      omega
    · simp only
      omega
  · rw [next, if_neg (by simp), if_neg (by simp)]
    ext
    · simp
    · simp only
      omega
    · simp only
      omega

theorem valid_first {year : ℤ} {month : ℕ} (h : 1 ≤ month ∧ month ≤ 12) :
    (⟨year, month, 1⟩ : Date).Valid :=
  ⟨h, le_refl 1, by have := daysInMonth_bounds year month; simp only; omega⟩

theorem Valid.prev {d : Date} (h : d.Valid) : d.prev.Valid := by
  have hmonth := h.month
  have hday := h.day
  unfold Date.prev
  split
  · exact ⟨hmonth, by simp only; omega⟩
  split
  · have hdays := daysInMonth_bounds d.year (d.month - 1)
    exact ⟨by simp only; omega, by simp only; omega⟩
  · exact ⟨by simp, by simp⟩

theorem iterate_next {year : ℤ} {month n : ℕ} (h : n < daysInMonth year month) :
    next^[n] ⟨year, month, 1⟩ = ⟨year, month, n + 1⟩ := by
  induction n with
  | zero => rfl
  | succ n ih =>
      rw [Function.iterate_succ_apply', ih (by omega), next, if_pos (by simpa using h)]

end Date

/-! ### Instants -/

/-- A day is 86,400,000 milliseconds long. -/
def dayLength : ℕ := 86400000

/-- A time of day, in milliseconds. -/
structure Time where
  ms : ℕ
  inDay : ms < dayLength
  deriving DecidableEq

namespace Time

def midnight : Time := ⟨0, by decide⟩

/-- 23:59:59 -/
def lastSecond : Time := ⟨((23 * 60 + 59) * 60 + 59) * 1000, by decide⟩

/-- 23:59:59.999 -/
def lastMillisecond : Time := ⟨((23 * 60 + 59) * 60 + 59) * 1000 + 999, by decide⟩

end Time

/-- A date and a time, in UTC where nothing else is said. -/
structure Instant where
  date : Date
  time : Time
  deriving DecidableEq

/-- What the clocks of a process are ahead of UTC, in milliseconds; less than a day. -/
structure UtcOffset where
  ms : ℤ
  inDay : ms.natAbs < dayLength
  deriving DecidableEq

/-- `TZ=UTC` -/
def utcOffset : UtcOffset := ⟨0, by decide⟩

def UtcOffset.neg (o : UtcOffset) : UtcOffset := ⟨-o.ms, by rw [Int.natAbs_neg]; exact o.inDay⟩

namespace Instant

/-- The fields that a clock shows that is ahead by an offset. -/
def shift (i : Instant) (o : UtcOffset) : Instant :=
  if hbefore : i.time.ms + o.ms < 0 then
    ⟨i.date.prev, (i.time.ms + o.ms + dayLength).toNat, by
      unfold dayLength
      omega⟩
  else if hafter : (dayLength : ℤ) ≤ i.time.ms + o.ms then
    ⟨i.date.next, (i.time.ms + o.ms - dayLength).toNat, by
      have htime := i.time.inDay
      have hoffset := o.inDay
      omega⟩
  else ⟨i.date, (i.time.ms + o.ms).toNat, by omega⟩

theorem date_shift (i : Instant) (o : UtcOffset) : (i.shift o).date =
    if i.time.ms + o.ms < 0 then i.date.prev
    else if (dayLength : ℤ) ≤ i.time.ms + o.ms then i.date.next else i.date := by
  unfold shift
  split
  · rfl
  split <;> rfl

/-- The local fields of an instant. -/
def toLocal (o : UtcOffset) (i : Instant) : Instant := i.shift o

/-- The instant at which the clocks of the process show the fields. -/
def ofLocal (o : UtcOffset) (l : Instant) : Instant := l.shift o.neg

/-- The local date, as the driver sends it and a cast to `DATE` keeps it. -/
def toDate (o : UtcOffset) (i : Instant) : Date := (i.toLocal o).date

variable {o : UtcOffset}

theorem ext_ms {i j : Instant} (hdate : i.date = j.date) (hms : i.time.ms = j.time.ms) : i = j := by
  obtain ⟨_, _, _⟩ := i
  obtain ⟨_, _, _⟩ := j
  cases hdate
  cases hms
  rfl

theorem toLocal_ofLocal {l : Instant} (h : l.date.Valid) : (ofLocal o l).toLocal o = l := by
  have htime := l.time.inDay
  have hoffset := o.inDay
  have hneg : o.neg.ms = -o.ms := rfl
  unfold ofLocal toLocal
  rw [shift.eq_1 l]
  split
  · rw [shift, dif_neg (by simp only; omega), dif_pos (by simp only; omega)]
    exact ext_ms h.next_prev (by simp only; omega)
  split
  · rw [shift, dif_pos (by simp only; omega)]
    exact ext_ms h.prev_next (by simp only; omega)
  · rw [shift, dif_neg (by simp only; omega), dif_neg (by simp only; omega)]
    exact ext_ms rfl (by simp only; omega)

theorem toDate_ofLocal {l : Instant} (h : l.date.Valid) : (ofLocal o l).toDate o = l.date := by
  rw [toDate, toLocal_ofLocal h]

/-- A UTC midnight is on the day before for clocks that are behind. -/
theorem toDate_midnight (d : Date) :
    (Instant.mk d .midnight).toDate o = if o.ms < 0 then d.prev else d := by
  have hoffset := o.inDay
  have hmidnight : (Time.midnight.ms : ℤ) = 0 := rfl
  unfold toDate toLocal shift
  simp only [hmidnight, zero_add]
  split
  · rfl
  · rw [dif_neg (by omega)]

/-- The last millisecond of a UTC day is on the next day for clocks that are ahead. -/
theorem toDate_lastMillisecond (d : Date) :
    (Instant.mk d .lastMillisecond).toDate o = if 0 < o.ms then d.next else d := by
  have hoffset := o.inDay
  have hlast : (Time.lastMillisecond.ms : ℤ) = dayLength - 1 := rfl
  unfold toDate toLocal shift
  simp only [hlast]
  split
  · omega
  split
  · rw [if_pos (by omega)]
  · rw [if_neg (by omega)]

end Instant

/-! ### Constructors -/

/-- Two-digit years are years of the twentieth century. -/
def fullYear (year : ℤ) : ℤ := if 0 ≤ year ∧ year ≤ 99 then 1900 + year else year

/-- The day that a year, a month counted from zero, and a day of it name. Months and days that a year
or a month does not have run over. -/
def makeDay (year : ℤ) (month day : ℕ) : Date :=
  let first : Date := ⟨fullYear year + (month / 12 : ℕ), month % 12 + 1, 1⟩
  if day = 0 then first.prev else Date.next^[day - 1] first

/-- `Date.UTC` -/
def utc (year : ℤ) (month day : ℕ) (time : Time) : Instant := ⟨makeDay year month day, time⟩

/-- `new Date` with the fields of a local date. -/
def newDate (o : UtcOffset) (year : ℤ) (month day : ℕ) (time : Time) : Instant :=
  .ofLocal o ⟨makeDay year month day, time⟩

/-- `new Date` of a date without a time, which is read in UTC. -/
def parseDate (d : Date) : Instant := ⟨d, .midnight⟩

section Constructors

variable {year : ℤ} {month : ℕ}

theorem makeDay_one (h : month < 12) :
    makeDay year month 1 = ⟨fullYear year, month + 1, 1⟩ := by
  rw [makeDay, if_neg one_ne_zero, Nat.div_eq_of_lt h, Nat.mod_eq_of_lt h]
  simp

theorem makeDay_december : makeDay year 11 31 = ⟨fullYear year, 12, 31⟩ := by
  have hmonth : (⟨fullYear year + ((11 / 12 : ℕ) : ℤ), 11 % 12 + 1, 1⟩ : Date) =
      ⟨fullYear year, 12, 1⟩ := by
    ext <;> simp
  rw [makeDay, if_neg (by omega), hmonth, Date.iterate_next (Nat.lt_succ_self 30)]

theorem makeDay_zero (h : month < 12) : makeDay year (month + 1) 0 =
    ⟨fullYear year, month + 1, Date.daysInMonth (fullYear year) (month + 1)⟩ := by
  rw [makeDay, if_pos rfl, Date.prev, if_neg (by simp)]
  by_cases hlast : month = 11
  · subst hlast
    ext <;> simp
  · have hnext : month + 1 < 12 := by omega
    rw [Nat.div_eq_of_lt hnext, Nat.mod_eq_of_lt hnext, if_pos (by simp only; omega)]
    simp

end Constructors

end LumbungMesari
