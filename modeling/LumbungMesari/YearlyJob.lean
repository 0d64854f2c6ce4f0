import LumbungMesari.Generations

/-!
# The year of the yearly job

The job fires at the beginning of a year in the time zone of its cron expression, and reads the year
back from the clocks of the process. The two are the same when `TZ` is set. When it is not, the cron
expression is in the time zone of Jakarta and the process in whatever zone the host keeps.
-/

namespace LumbungMesari

open Sql

/-! ### Clocks -/

/-- `Asia/Jakarta`, seven hours ahead. -/
def jakarta : UtcOffset := ⟨7 * 60 * 60 * 1000, by decide⟩

/-- `configService.get('TZ', 'Asia/Jakarta')` -/
def cronOffset (tz : Option UtcOffset) : UtcOffset := tz.getD jakarta

/-- A process without `TZ` keeps the zone of its host. -/
def processOffset (tz : Option UtcOffset) (host : UtcOffset) : UtcOffset := tz.getD host

/-- `CronExpression.EVERY_YEAR`: midnight of the first of January. -/
def firing (cron : UtcOffset) (year : ℤ) : Instant := .ofLocal cron ⟨⟨year, 1, 1⟩, .midnight⟩

/-- In UTC the job fires on the last day of the old year for clocks that are ahead. -/
theorem firing_ahead {cron : UtcOffset} (h : 0 < cron.ms) (year : ℤ) :
    (firing cron year).date = ⟨year - 1, 12, 31⟩ ∧
      ((firing cron year).time.ms : ℤ) = dayLength - cron.ms := by
  have hcron := cron.inDay
  have hneg : cron.neg.ms = -cron.ms := rfl
  have hmidnight : (Time.midnight.ms : ℤ) = 0 := rfl
  have hbefore : (Time.midnight.ms : ℤ) + cron.neg.ms < 0 := by omega
  unfold firing Instant.ofLocal Instant.shift
  rw [dif_pos hbefore]
  refine ⟨by simp [Date.prev], ?_⟩
  simp only
  omega

theorem firing_behind {cron : UtcOffset} (h : ¬ 0 < cron.ms) (year : ℤ) :
    (firing cron year).date = ⟨year, 1, 1⟩ ∧ ((firing cron year).time.ms : ℤ) = -cron.ms := by
  have hcron := cron.inDay
  have hneg : cron.neg.ms = -cron.ms := rfl
  have hmidnight : (Time.midnight.ms : ℤ) = 0 := rfl
  unfold firing Instant.ofLocal Instant.shift
  rw [dif_neg (show ¬ (Time.midnight.ms : ℤ) + cron.neg.ms < 0 by omega),
    dif_neg (show ¬ (dayLength : ℤ) ≤ Time.midnight.ms + cron.neg.ms by omega)]
  refine ⟨rfl, ?_⟩
  simp only
  omega

theorem year_firing (cron o : UtcOffset) (year : ℤ) :
    ((firing cron year).toLocal o).date.year = if cron.ms ≤ o.ms then year else year - 1 := by
  have hcron := cron.inDay
  have ho := o.inDay
  unfold Instant.toLocal
  rw [Instant.date_shift]
  by_cases hahead : 0 < cron.ms
  · obtain ⟨hdate, htime⟩ := firing_ahead hahead year
    rw [hdate, htime]
    by_cases hle : cron.ms ≤ o.ms
    · rw [if_neg (by omega), if_pos (by omega), if_pos hle]
      simp [Date.next]
    · rw [if_neg hle]
      split
      · simp [Date.prev]
      · rw [if_neg (by omega)]
  · obtain ⟨hdate, htime⟩ := firing_behind hahead year
    rw [hdate, htime]
    by_cases hle : cron.ms ≤ o.ms
    · rw [if_neg (by omega), if_pos hle]
      split
      · simp [Date.next, Date.daysInMonth]
      · rfl
    · rw [if_pos (by omega), if_neg hle]
      simp [Date.prev]

/-! ### The job -/

/-- The work of a run of the job that was fired for a year and got the lock. -/
def yearlyMandatorySavings (tz : Option UtcOffset) (host : UtcOffset) (ids : ℕ → Uuid)
    (configured : Option ℚ) (year : ℤ) : Program Unit :=
  createYearlyMandatorySavingsForAllUsers (processOffset tz host) ids configured
    (firing (cronOffset tz) year)

def Database.activeMemberIds (d : Database) : List Uuid :=
  ((d.rows .users).filter fun u => u.status = .active ∧ u.roleId = .member).map (·.id)

/-- The records of the year are there for every active member, and no others are new. -/
structure CreatesYear (year : ℤ) (d d' : Database) : Prop where
  months : ∀ userId ∈ d.activeMemberIds, ∀ month, month < 12 →
    ∃ r ∈ d'.rows .mandatorySavings, r.userId = userId ∧ r.InMonth year month
  only : ∀ r ∈ d'.rows .mandatorySavings, r ∉ d.rows .mandatorySavings → r.periodDate.year = year

/-- What the job needs of the database: ids that are not in use, and an amount that its column can
store. -/
structure CanCreate (d : Database) (ids : ℕ → Uuid) (configured : Option ℚ) : Prop where
  distinct : ids.Injective
  fresh : ∀ k, d.find .mandatorySavings (ids k) = none
  amount : ∃ amount, money (getMandatorySavingsAmount configured) = .ok amount

section Job

variable {o : UtcOffset} {d : Database} {ids : ℕ → Uuid} {configured : Option ℚ} {now : Instant}

theorem find_of_mem_activeMemberIds {userId : Uuid} (h : userId ∈ d.activeMemberIds) :
    d.find .users userId ≠ none := by
  obtain ⟨u, hu, rfl⟩ := List.mem_map.1 h
  have hfind : d.find .users u.id = some u := Table.find?_of_mem (List.mem_of_mem_filter hu)
  rw [hfind]
  exact Option.some_ne_none u

theorem createYearly_returns (o : UtcOffset) (now : Instant) (h : CanCreate d ids configured) :
    let records := mandatorySavingsRecords o d.activeMemberIds (getMandatorySavingsAmount configured)
      (now.toLocal o).date.year 0
    ∃ d', (createYearlyMandatorySavingsForAllUsers o ids configured now).Returns d .idle () d'
        .idle ∧
      Extends (d.rows .mandatorySavings) (DatedAs records) d' ∧
      ∀ data ∈ records, ∃ r ∈ d'.rows .mandatorySavings,
        (r.userId, r.periodDate) = (data.userId, data.periodDate) := by
  intro records
  have hget : (getActiveMemberIds : Program (List Uuid)).Returns d .idle d.activeMemberIds d .idle :=
    rfl
  by_cases hnobody : d.activeMemberIds.length = 0
  · have hnone : records = [] := by
      refine List.eq_nil_iff_forall_not_mem.2 fun data hdata => ?_
      have hmem := (of_mem_mandatorySavingsRecords hdata).1
      rw [List.eq_nil_of_length_eq_zero hnobody] at hmem
      cases hmem
    refine ⟨d, Prog.returns_bind.2 ⟨_, d, .idle, hget, ?_⟩, extends_self _ d, ?_⟩
    · rw [if_pos hnobody]
      rfl
    · rw [hnone]
      simp
  · obtain ⟨userId, huser⟩ := List.exists_mem_of_length_pos (Nat.pos_of_ne_zero hnobody)
    have hsome : records ≠ [] :=
      List.ne_nil_of_mem (mem_mandatorySavingsRecords huser (Nat.zero_le 0) (by omega))
    obtain ⟨d', hreturns, hthere⟩ := insertRecords_returns
      (.httpException 500 "Failed to create yearly mandatory savings records") hsome h.distinct
      h.fresh
      (fun data hdata => find_of_mem_activeMemberIds (of_mem_mandatorySavingsRecords hdata).1)
      fun data hdata => (of_mem_mandatorySavingsRecords hdata).2.1 ▸ h.amount
    refine ⟨d', Prog.returns_bind.2 ⟨_, d, .idle, hget, ?_⟩, extends_of_returns hreturns, hthere⟩
    rw [if_neg hnobody]
    exact Prog.returns_bind.2 ⟨_, d', .idle, hreturns, rfl⟩

/-- When the process reads the year, and its clocks are not behind UTC, it creates the year. -/
theorem createYearly_createsYear (h : CanCreate d ids configured) (ho : 0 ≤ o.ms) {year : ℤ}
    (hyear : fullYear year = year) (hread : (now.toLocal o).date.year = year) :
    ∃ d', (createYearlyMandatorySavingsForAllUsers o ids configured now).Returns d .idle () d'
      .idle ∧ CreatesYear year d d' := by
  obtain ⟨d', hreturns, ⟨new, hnew, hrows⟩, hthere⟩ := createYearly_returns o now h
  rw [hread] at hnew hthere
  refine ⟨d', hreturns, ?_, ?_⟩
  · intro userId huser month hmonth
    obtain ⟨r, hr, hkey⟩ :=
      hthere _ (mem_mandatorySavingsRecords huser month.zero_le hmonth)
    exact ⟨r, hr, (Prod.mk.inj hkey).1, inMonth_of_ofMonth ho hyear hmonth (Prod.mk.inj hkey).2⟩
  · intro r hr hold
    rw [hrows] at hr
    obtain ⟨data, hdata, hdate⟩ := hnew r ((List.mem_append.1 hr).resolve_left hold)
    obtain ⟨month, hmonth, hof⟩ := (of_mem_mandatorySavingsRecords hdata).2.2
    exact (inMonth_of_ofMonth ho hyear hmonth (hdate.trans hof)).1

theorem not_inMonth_december {cron : UtcOffset} {year : ℤ}
    (h : ¬ (cron.ms ≤ o.ms ∧ 0 ≤ o.ms ∧ fullYear year = year)) {month : ℕ} (hmonth : month < 12)
    {r : MandatorySavings}
    (hof : r.OfMonth o ((firing cron year).toLocal o).date.year month) : ¬ r.InMonth year 11 := by
  rw [year_firing] at hof
  have hnext : fullYear (if cron.ms ≤ o.ms then year else year - 1) ≠ year + 1 := by
    unfold fullYear
    split <;> split <;> omega
  rw [MandatorySavings.OfMonth, periodDate_eq o _ hmonth] at hof
  generalize hread : fullYear (if cron.ms ≤ o.ms then year else year - 1) = shown at hof hnext
  by_cases ho : o.ms < 0
  · -- The record of January is dated in December, but of a year before.
    rw [if_pos ho, Date.prev, if_neg (by simp)] at hof
    split at hof
    · rw [MandatorySavings.InMonth, hof]
      rintro ⟨-, hdecember⟩
      simp only at hdecember
      omega
    · rw [MandatorySavings.InMonth, hof]
      rintro ⟨hyear, -⟩
      exact hnext (sub_eq_iff_eq_add.1 hyear)
  · rw [if_neg ho] at hof
    rw [MandatorySavings.InMonth, hof]
    rintro ⟨hyear, -⟩
    obtain rfl : shown = year := hyear
    by_cases hahead : cron.ms ≤ o.ms
    · rw [if_pos hahead] at hread
      exact h ⟨hahead, not_lt.1 ho, hread⟩
    · rw [if_neg hahead, fullYear] at hread
      split at hread <;> omega

end Job

/-! ### When the job creates its year -/

section Years

variable {tz : Option UtcOffset} {host : UtcOffset} {year : ℤ}

/-- The run of the job returns and creates its year, wherever it can create records. -/
def CreatesItsYear (tz : Option UtcOffset) (host : UtcOffset) (year : ℤ) : Prop :=
  ∀ d ids configured, CanCreate d ids configured →
    ∃ d', (yearlyMandatorySavings tz host ids configured year).Returns d .idle () d' .idle ∧
      CreatesYear year d d'

/-- The job fails every active member that has no record of December yet. -/
theorem not_createsYear {d d' : Database} {ids : ℕ → Uuid} {configured : Option ℚ} {s' : Trx}
    (hclocks : ¬ ((cronOffset tz).ms ≤ (processOffset tz host).ms ∧
      0 ≤ (processOffset tz host).ms ∧ fullYear year = year))
    (h : CanCreate d ids configured)
    (hmember : ∃ userId ∈ d.activeMemberIds, ∀ r ∈ d.rows .mandatorySavings, r.userId = userId →
      ¬ r.InMonth year 11)
    (hreturns : (yearlyMandatorySavings tz host ids configured year).Returns d .idle () d' s') :
    ¬ CreatesYear year d d' := by
  intro hcreates
  obtain ⟨userId, huser, hnone⟩ := hmember
  obtain ⟨r, hr, hruser, hin⟩ := hcreates.months userId huser 11 (by omega)
  obtain ⟨d'', hreturns', ⟨new, hnew, hrows⟩, -⟩ := createYearly_returns
    (processOffset tz host) (firing (cronOffset tz) year) h
  obtain rfl : d' = d'' := hreturns.after.symm.trans hreturns'.after
  rw [hrows] at hr
  rcases List.mem_append.1 hr with hold | hr
  · exact hnone r hold hruser hin
  · obtain ⟨data, hdata, hdate⟩ := hnew r hr
    obtain ⟨month, hmonth, hof⟩ := (of_mem_mandatorySavingsRecords hdata).2.2
    exact not_inMonth_december hclocks hmonth (hdate.trans hof) hin

/-- The clocks agree when `TZ` is set, and otherwise when the host is not behind Jakarta. -/
theorem clocks_iff : ((cronOffset tz).ms ≤ (processOffset tz host).ms ∧
      0 ≤ (processOffset tz host).ms ∧ fullYear year = year) ↔
    ((∀ o, tz = some o → 0 ≤ o.ms) ∧ (tz = none → jakarta.ms ≤ host.ms)) ∧
      (year < 0 ∨ 99 < year) := by
  have hjakarta : 0 ≤ jakarta.ms := by decide
  rw [fullYear_eq_iff]
  cases tz with
  | none =>
      simp only [cronOffset, processOffset, Option.getD_none]
      simp
      omega
  | some o => simp [cronOffset, processOffset]

theorem canCreate_seeded : CanCreate seeded (100 + ·) none where
  distinct := fun _ _ h => Nat.add_left_cancel h
  fresh := fun _ => rfl
  amount := ⟨⟨5000000000, by decide⟩, by decide +kernel⟩

/-- The job creates the year that has begun exactly when `TZ` is set to a zone that is not behind UTC,
or is not set on a host that is not behind Jakarta, and the year is not one of those that are taken
for years of the twentieth century. -/
theorem createsItsYear_iff : CreatesItsYear tz host year ↔
    ((∀ o, tz = some o → 0 ≤ o.ms) ∧ (tz = none → jakarta.ms ≤ host.ms)) ∧
      (year < 0 ∨ 99 < year) := by
  rw [← clocks_iff]
  constructor
  · intro hcreates
    by_contra hclocks
    obtain ⟨d', hreturns, hyear⟩ := hcreates seeded (100 + ·) none canCreate_seeded
    exact not_createsYear hclocks canCreate_seeded ⟨3, by decide, fun r hr => by cases hr⟩ hreturns
      hyear
  · rintro ⟨hread, ho, hyear⟩ d ids configured h
    refine createYearly_createsYear h ho hyear ?_
    rw [year_firing, if_pos hread]

/-- Without `TZ` on a host in UTC, the run of 2026 creates the records of 2025. -/
theorem not_createsItsYear_utc :
    (((yearlyMandatorySavings none utcOffset (100 + ·) none 2026).after seeded).rows
        .mandatorySavings).map (fun r => (r.userId, r.periodDate.year, r.periodDate.month)) =
      [(3, 2025, 1), (3, 2025, 2), (3, 2025, 3), (3, 2025, 4), (3, 2025, 5), (3, 2025, 6),
        (3, 2025, 7), (3, 2025, 8), (3, 2025, 9), (3, 2025, 10), (3, 2025, 11), (3, 2025, 12)] ∧
      ¬ CreatesItsYear none utcOffset 2026 := by
  refine ⟨by decide +kernel, fun hcreates => ?_⟩
  obtain ⟨d', hreturns, hyear⟩ := hcreates seeded (100 + ·) none canCreate_seeded
  exact not_createsYear (by decide) canCreate_seeded ⟨3, by decide, fun r hr => by cases hr⟩ hreturns
    hyear

end Years

end LumbungMesari
