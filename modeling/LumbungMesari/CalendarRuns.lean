import LumbungMesari.Footprints
import LumbungMesari.SavingsCalendar
import LumbungMesari.ScheduleRules
import LumbungMesari.Seeds

/-!
# One calendar on every path

Records are generated for whole months of a year, in whatever order, and settled. What holds of their
dates afterwards depends on the offset of the process: the bounds of the queries are made in UTC, at
the offset, or read back from text.
-/

namespace LumbungMesari

open Sql
open Prog (inTrx commitTrx each_inTrx each_commitTrx)

/-! ### Calls -/

/-- What writes records: the two ways to generate them, and the settlement. -/
inductive CalendarCall where
  | createYearlyMandatorySavingsForUsers (ids : ℕ → Uuid) (userIds : List Uuid) (amount : ℚ)
      (now : Instant)
  | generateRemainingYearSavings (ids : ℕ → Uuid) (userIds : List Uuid) (amount : ℚ) (year : ℤ)
      (startMonth : ℕ)
  | settleMandatorySavings (ids : IncomeIds) (savingsId adminId : Uuid) (now : Date)

namespace CalendarCall

def program (o : UtcOffset) : CalendarCall → Program Unit
  | createYearlyMandatorySavingsForUsers ids userIds amount now => do
      let _ ← LumbungMesari.createYearlyMandatorySavingsForUsers o ids userIds amount now
      pure ()
  | generateRemainingYearSavings ids userIds amount year startMonth => do
      let _ ← LumbungMesari.generateRemainingYearSavingsForUsers o ids userIds amount year startMonth
      pure ()
  | settleMandatorySavings ids savingsId adminId now =>
      LumbungMesari.settleMandatorySavings ids savingsId adminId now

/-- The call generates the record of a user for a month. -/
def Generates (o : UtcOffset) (userId : Uuid) (year : ℤ) (month : ℕ) : CalendarCall → Prop
  | createYearlyMandatorySavingsForUsers _ userIds _ now =>
      userId ∈ userIds ∧ (now.toLocal o).date.year = year ∧ month < 12
  | generateRemainingYearSavings _ userIds _ year' startMonth =>
      userId ∈ userIds ∧ year' = year ∧ startMonth ≤ month ∧ month < 12
  | settleMandatorySavings .. => False

end CalendarCall

/-! ### What is kept of the records -/

/-- What holds of the records: they are dated as records of a month, they have a user, a user has one
record a date, and some of them are known to be there. -/
structure Calendared (o : UtcOffset) (there : Uuid → Date → Prop) (d : Database) : Prop where
  dated : ∀ r ∈ d.rows .mandatorySavings,
    ∃ year month, month < 12 ∧ r.periodDate = periodDate o year month
  users : ∀ r ∈ d.rows .mandatorySavings, d.find .users r.userId ≠ none
  once : ∀ r ∈ d.rows .mandatorySavings, ∀ r' ∈ d.rows .mandatorySavings,
    r.userId = r'.userId → r.periodDate = r'.periodDate → r = r'
  there : ∀ userId date, there userId date →
    ∃ r ∈ d.rows .mandatorySavings, r.userId = userId ∧ r.periodDate = date

section Keeps

variable {o : UtcOffset} {there : Uuid → Date → Prop} {d : Database}

theorem Calendared.congr (h : Calendared o there d) {d' : Database}
    (hsavings : d'.table .mandatorySavings = d.table .mandatorySavings)
    (husers : d'.table .users = d.table .users) : Calendared o there d' := by
  have hrows : d'.rows .mandatorySavings = d.rows .mandatorySavings := congrArg Table.rows hsavings
  refine ⟨?_, ?_, ?_, ?_⟩
  · rw [hrows]
    exact h.dated
  · rw [hrows]
    intro r hr
    rw [Database.find_congr husers]
    exact h.users r hr
  · rw [hrows]
    exact h.once
  · rw [hrows]
    exact h.there

theorem Calendared.insert (h : Calendared o there d) {r : MandatorySavings}
    (hr : Inserted d .mandatorySavings r)
    (hdate : ∃ year month, month < 12 ∧ r.periodDate = periodDate o year month) :
    Calendared o (fun userId date => there userId date ∨ userId = r.userId ∧ date = r.periodDate)
      (d.apply (.insert .mandatorySavings r)) := by
  have hrows : (d.apply (.insert .mandatorySavings r)).rows .mandatorySavings =
      d.rows .mandatorySavings ++ [r] := by
    rw [Database.rows, Database.table_insert_self]
    exact Table.rows_insert hr.fresh
  have husers : (d.apply (.insert .mandatorySavings r)).table .users = d.table .users :=
    d.table_insert_ne (t := .mandatorySavings) (by decide) r
  have hfree : ∀ r' ∈ d.rows .mandatorySavings,
      ¬ (r'.userId = r.userId ∧ r'.periodDate = r.periodDate) := by
    have htaken := hr.unique _ (List.mem_singleton_self _)
    rw [Database.taken, List.any_eq_false] at htaken
    rintro r' hr' ⟨huser, hdate⟩
    exact htaken r' hr' (by simp [Row.uniqueKeys, huser, hdate])
  have hmember : d.find .users r.userId ≠ none := by
    have hexists := hr.referenced (.users, r.userId) (List.mem_cons_self ..)
    rwa [Database.exists?, Option.isSome_iff_ne_none] at hexists
  refine ⟨?_, ?_, ?_, ?_⟩
  · rw [hrows, List.forall_mem_append, List.forall_mem_singleton]
    exact ⟨h.dated, hdate⟩
  · simp only [Database.find_congr husers]
    rw [hrows, List.forall_mem_append, List.forall_mem_singleton]
    exact ⟨h.users, hmember⟩
  · rw [hrows]
    intro r₁ hr₁ r₂ hr₂ huser hdate
    rcases List.mem_append.1 hr₁ with hr₁ | hr₁ <;> rcases List.mem_append.1 hr₂ with hr₂ | hr₂
    · exact h.once r₁ hr₁ r₂ hr₂ huser hdate
    · rw [List.mem_singleton.1 hr₂] at huser hdate
      exact absurd ⟨huser, hdate⟩ (hfree r₁ hr₁)
    · rw [List.mem_singleton.1 hr₁] at huser hdate
      exact absurd ⟨huser.symm, hdate.symm⟩ (hfree r₂ hr₂)
    · rw [List.mem_singleton.1 hr₁, List.mem_singleton.1 hr₂]
  · rw [hrows]
    rintro userId date (hthere | ⟨rfl, rfl⟩)
    · obtain ⟨r', hr', hkey⟩ := h.there userId date hthere
      exact ⟨r', List.mem_append_left _ hr', hkey⟩
    · exact ⟨r, List.mem_append_right _ (List.mem_singleton_self r), rfl, rfl⟩

theorem Calendared.mono (h : Calendared o there d) {there' : Uuid → Date → Prop}
    (hsub : ∀ userId date, there' userId date → there userId date) : Calendared o there' d :=
  ⟨h.dated, h.users, h.once, fun userId date hthere => h.there userId date (hsub _ _ hthere)⟩

theorem Calendared.update (h : Calendared o there d) {old new : MandatorySavings}
    (hold : d.find .mandatorySavings new.id = some old) (huser : new.userId = old.userId)
    (hdate : new.periodDate = old.periodDate) :
    Calendared o there (d.apply (.update .mandatorySavings new)) := by
  have husers : (d.apply (.update .mandatorySavings new)).table .users = d.table .users :=
    d.table_update_ne (t := .mandatorySavings) (by decide) new
  have hrows : (d.apply (.update .mandatorySavings new)).rows .mandatorySavings =
      (d.rows .mandatorySavings).map fun r => if r.id = new.id then new else r := by
    rw [Database.rows, Database.table_update_self]
    rfl
  obtain ⟨hmem, hid⟩ := Table.find?_some hold
  have hsame : ∀ r ∈ d.rows .mandatorySavings,
      (if r.id = new.id then new else r).userId = r.userId ∧
        (if r.id = new.id then new else r).periodDate = r.periodDate := by
    intro r hr
    split
    · rename_i hrid
      obtain rfl : r = old := Table.eq_of_key hr hmem (hrid.trans hid.symm)
      exact ⟨huser, hdate⟩
    · exact ⟨rfl, rfl⟩
  refine ⟨?_, ?_, ?_, ?_⟩
  · rw [hrows, List.forall_mem_map]
    intro r hr
    rw [(hsame r hr).2]
    exact h.dated r hr
  · simp only [Database.find_congr husers]
    rw [hrows, List.forall_mem_map]
    intro r hr
    rw [(hsame r hr).1]
    exact h.users r hr
  · rw [hrows, List.forall_mem_map]
    intro r hr
    rw [List.forall_mem_map]
    intro r' hr' huser' hdate'
    rw [(hsame r hr).1, (hsame r' hr').1] at huser'
    rw [(hsame r hr).2, (hsame r' hr').2] at hdate'
    rw [h.once r hr r' hr' huser' hdate']
  · intro userId date hthere
    obtain ⟨r, hr, hruser, hrdate⟩ := h.there userId date hthere
    rw [hrows]
    exact ⟨_, List.mem_map_of_mem hr, (hsame r hr).1.trans hruser, (hsame r hr).2.trans hrdate⟩

theorem Calendared.insertRows (h : Calendared o there d) {rs : List MandatorySavings}
    (hrs : ∀ r ∈ rs, ∃ year month, month < 12 ∧ r.periodDate = periodDate o year month)
    {ws : List Write} (hinsert : insertRowsIgnoring d .mandatorySavings
      (fun r => .mandatorySavingsPeriod r.userId r.periodDate) rs = .ok ws) :
    Calendared o (fun userId date => there userId date ∨
      ∃ r ∈ rs, userId = r.userId ∧ date = r.periodDate) (applyAll d ws) := by
  induction rs generalizing d ws there with
  | nil =>
      cases hinsert
      exact h.mono fun userId date hthere => hthere.elim id fun ⟨r, hr, _⟩ => by cases hr
  | cons r rs ih =>
      obtain ⟨ws₁, hrow, hinsert⟩ := bind_ok hinsert
      obtain ⟨ws₂, hrest, hinsert⟩ := bind_ok hinsert
      cases hinsert
      have hfirst : Calendared o (fun userId date => there userId date ∨
          userId = r.userId ∧ date = r.periodDate) (applyAll d ws₁) := by
        unfold insertRowIgnoring at hrow
        split at hrow
        · rename_i htaken
          cases hrow
          obtain ⟨r', hr', hkey⟩ := List.any_eq_true.1 htaken
          have hsame : r.userId = r'.userId ∧ r.periodDate = r'.periodDate := by
            simpa [Row.uniqueKeys] using hkey
          refine ⟨h.dated, h.users, h.once, ?_⟩
          rintro userId date (hthere | ⟨rfl, rfl⟩)
          · exact h.there userId date hthere
          · exact ⟨r', hr', hsame.1.symm, hsame.2.symm⟩
        · obtain ⟨hinserted, rfl⟩ := insertRow_plain (by decide) hrow
          exact h.insert hinserted (hrs r (List.mem_cons_self ..))
      rw [applyAll_append]
      refine (ih hfirst (fun r' hr' => hrs r' (List.mem_cons_of_mem _ hr')) hrest).mono ?_
      rintro userId date (hthere | ⟨r', hr', hkey⟩)
      · exact .inl (.inl hthere)
      · rcases List.mem_cons.1 hr' with rfl | hr'
        · exact .inl (.inr hkey)
        · exact .inr ⟨r', hr', hkey⟩

end Keeps

/-! ### What a generation inserts -/

theorem keys_of_records {ids : ℕ → Uuid} {records : List MandatorySavingsData}
    {rs : List MandatorySavings}
    (h : (records.zipIdx.mapM fun (data, k) => data.toRow (ids k)) = .ok rs) :
    rs.map (fun r => (r.userId, r.periodDate)) =
      records.map fun data => (data.userId, data.periodDate) := by
  have hmap := map_of_mapM_ok (fun r : MandatorySavings => (r.userId, r.periodDate))
    (fun x => (x.1.userId, x.1.periodDate)) h fun x r hrow => by
      obtain ⟨_, -, hrow⟩ := bind_ok hrow
      cases hrow
      rfl
  rw [hmap]
  conv_rhs => rw [← List.zipIdx_map_fst 0 records, List.map_map]
  rfl

section Generations

variable {o : UtcOffset} {there : Uuid → Date → Prop} {d : Database} {failure : Error}
  {ids : ℕ → Uuid} {records : List MandatorySavingsData}

/-- The records are records of months. -/
def Dated (o : UtcOffset) (records : List MandatorySavingsData) : Prop :=
  ∀ data ∈ records, ∃ year month, month < 12 ∧ data.periodDate = periodDate o year month

theorem of_mem_mandatorySavingsRecords {userIds : List Uuid} {amount : ℚ} {year : ℤ}
    {startMonth : ℕ} {data : MandatorySavingsData}
    (h : data ∈ mandatorySavingsRecords o userIds amount year startMonth) :
    data.userId ∈ userIds ∧ data.amount = amount ∧
      ∃ month, month < 12 ∧ data.periodDate = periodDate o year month := by
  obtain ⟨month, hmonth, hdata⟩ := List.mem_flatMap.1 h
  obtain ⟨userId, huser, rfl⟩ := List.mem_map.1 hdata
  rw [List.mem_range'_1] at hmonth
  exact ⟨huser, rfl, month, by omega, rfl⟩

theorem dated_mandatorySavingsRecords {userIds : List Uuid} {amount : ℚ} {year : ℤ}
    {startMonth : ℕ} : Dated o (mandatorySavingsRecords o userIds amount year startMonth) :=
  fun _ hdata => ⟨year, (of_mem_mandatorySavingsRecords hdata).2.2⟩

theorem Calendared.insertAllIgnoring (h : Calendared o there d) (hrecords : Dated o records)
    {ws : List Write} {b : Unit}
    (hexec : (catchError (insertAllIgnoring .mandatorySavings
      (fun r => .mandatorySavingsPeriod r.userId r.periodDate)
      (rowsOfRecords ids records)) fun _ => failure).exec d =
        .ok (ws, b)) :
    Calendared o (fun userId date => there userId date ∨
      ∃ data ∈ records, userId = data.userId ∧ date = data.periodDate) (applyAll d ws) := by
  obtain ⟨rs, hrows, hexec⟩ := bind_ok (catchError_ok hexec)
  obtain ⟨ws', hinsert, hexec⟩ := bind_ok hexec
  cases hexec
  have hkeys := keys_of_records (rowsOfRecords_ok hrows)
  have hmem : ∀ userId date, (∃ r ∈ rs, (r.userId, r.periodDate) = (userId, date)) ↔
      ∃ data ∈ records, (data.userId, data.periodDate) = (userId, date) := by
    intro userId date
    rw [← List.mem_map, ← List.mem_map, hkeys]
  have hrs : ∀ r ∈ rs, ∃ year month, month < 12 ∧ r.periodDate = periodDate o year month := by
    intro r hr
    obtain ⟨data, hdata, hkey⟩ := (hmem r.userId r.periodDate).1 ⟨r, hr, rfl⟩
    rw [← (Prod.mk.inj hkey).2]
    exact hrecords data hdata
  refine (h.insertRows hrs hinsert).mono ?_
  rintro userId date (hthere | ⟨data, hdata, rfl, rfl⟩)
  · exact .inl hthere
  · obtain ⟨r, hr, hkey⟩ := (hmem _ _).2 ⟨data, hdata, rfl⟩
    exact .inr ⟨r, hr, (Prod.mk.inj hkey).1.symm, (Prod.mk.inj hkey).2.symm⟩

theorem Calendared.insertRecords (h : Calendared o there d) (hrecords : Dated o records) {n : ℕ}
    {d' : Database} {s' : Trx}
    (hreturns : (insertRecords failure ids records).Returns d .idle n d' s') :
    Calendared o (fun userId date => there userId date ∨
      ∃ data ∈ records, userId = data.userId ∧ date = data.periodDate) d' := by
  obtain ⟨_, d₁, s₁, hinsert, hrest⟩ := Prog.returns_bind.1 hreturns
  obtain ⟨_, d₂, s₂, hcommit, hpure⟩ := Prog.returns_bind.1 hrest
  obtain ⟨rfl, ws, hexec, rfl⟩ := Prog.returns_inTrx.1 hinsert
  obtain ⟨rfl, rfl⟩ := Prog.returns_commitTrx.1 hcommit
  obtain ⟨-, rfl, -⟩ := Prog.returns_pure.1 hpure
  rw [Session.view_extend]
  exact h.insertAllIgnoring hrecords hexec

end Generations

/-! ### Runs -/

/-- A call of a sequence that returns generates the record of a user for a month. -/
def Generated (o : UtcOffset) (userId : Uuid) (year : ℤ) (month : ℕ) :
    Database → List CalendarCall → Prop
  | _, [] => False
  | d, x :: xs =>
      x.Generates o userId year month ∧ ((x.program o).result d).isOk = true ∨
        Generated o userId year month ((x.program o).after d) xs

theorem Generated.lt {o : UtcOffset} {userId : Uuid} {year : ℤ} {month : ℕ} {d : Database}
    {xs : List CalendarCall} (h : Generated o userId year month d xs) : month < 12 := by
  induction xs generalizing d with
  | nil => exact h.elim
  | cons x xs ih =>
      rcases h with ⟨hgenerates, -⟩ | hrest
      · cases x with
        | createYearlyMandatorySavingsForUsers => exact hgenerates.2.2
        | generateRemainingYearSavings => exact hgenerates.2.2.2
        | settleMandatorySavings => exact hgenerates.elim
      · exact ih hrest

theorem generated_of_allReturn {o : UtcOffset} {userId : Uuid} {year : ℤ} {month : ℕ} {d : Database}
    {xs : List CalendarCall} (hreturn : allReturn (CalendarCall.program o) d xs = true)
    {x : CalendarCall} (hx : x ∈ xs) (hgenerates : x.Generates o userId year month) :
    Generated o userId year month d xs := by
  induction xs generalizing d with
  | nil => cases hx
  | cons y xs ih =>
      rw [allReturn, Bool.and_eq_true] at hreturn
      rcases List.mem_cons.1 hx with rfl | hx
      · exact .inl ⟨hgenerates, hreturn.1⟩
      · exact .inr (ih hreturn.2 hx)

/-- A program that writes in its transaction only, and keeps what is kept of the records. -/
abbrev KeepsCalendar (o : UtcOffset) (there : Uuid → Date → Prop) {α : Type} (p : Program α) : Prop :=
  p.Each (fun _ st => st.Writes fun _ => False) fun _ st => st.Keeps (Calendared o there)

section Runs

variable {o : UtcOffset} {there : Uuid → Date → Prop} {d : Database}

theorem Calendared.keeps_of_spares {β : Type} {st : Statement β}
    (hsavings : st.Writes (Write.Spares .mandatorySavings))
    (husers : st.Writes (Write.Spares .users)) : st.Keeps (Calendared o there) :=
  fun d ws b h hexec => h.congr (Database.table_applyAll (hsavings d ws b hexec))
    (Database.table_applyAll (husers d ws b hexec))

theorem keepsCalendar_select {β : Type} {read : Database → β} :
    KeepsCalendar o there (inTrx (select read) : Program β) :=
  each_inTrx (Calendared.keeps_of_spares writes_select writes_select)

theorem keepsCalendar_insertInto {t : TableName} (hsavings : .mandatorySavings ≠ t)
    (husers : .users ≠ t) {row : Except Error (Row t)} :
    KeepsCalendar o there (inTrx (insertInto t row)) :=
  each_inTrx (Calendared.keeps_of_spares (writes_insertInto hsavings) (writes_insertInto husers))

theorem keepsCalendar_insertRecords {failure : Error} {ids : ℕ → Uuid}
    {records : List MandatorySavingsData} (hrecords : Dated o records) :
    KeepsCalendar o there (insertRecords failure ids records) := by
  refine .bind (each_inTrx fun d ws b h hexec => ?_) fun _ => trivial
  exact (h.insertAllIgnoring hrecords hexec).mono fun _ _ => .inl

theorem keepsCalendar_updateMandatorySavings {id adminId : Uuid} {now : Date} :
    KeepsCalendar o there (updateMandatorySavings id adminId now) := by
  refine .bind (each_inTrx fun d ws b h hexec => ?_) fun result => by cases result <;> trivial
  simp only [updateById, statement] at hexec
  split at hexec
  · cases hexec
    exact h
  · rename_i old hold
    obtain ⟨new, hnew, hexec⟩ := bind_ok hexec
    obtain ⟨ws', hupdate, hexec⟩ := bind_ok hexec
    cases hexec
    cases hnew
    obtain ⟨-, rfl⟩ := updateRow_plain (by decide) hupdate
    have hid : (old.settle adminId now).id = id := Database.find_id hold
    have hsettled : d.find .mandatorySavings (old.settle adminId now).id = some old := by rw [hid, hold]
    exact h.update hsettled rfl rfl

theorem keepsCalendar_settleMandatorySavings {ids : IncomeIds} {savingsId adminId : Uuid}
    {now : Date} : KeepsCalendar o there (settleMandatorySavings ids savingsId adminId now) := by
  refine .bind keepsCalendar_select fun found => ?_
  cases found with
  | none => trivial
  | some found =>
      dsimp only
      split
      · trivial
      refine .bind keepsCalendar_updateMandatorySavings fun _ => .bind ?_ fun income => .bind ?_ ?_
      · refine .bind keepsCalendar_select fun category => ?_
        cases category with
        | none => trivial
        | some category => exact keepsCalendar_insertInto (by decide) (by decide)
      · refine .bind (each_inTrx ?_) fun _ => keepsCalendar_insertInto (by decide) (by decide)
        exact Calendared.keeps_of_spares writes_selectForUpdate writes_selectForUpdate
      · exact fun _ => each_commitTrx

theorem CalendarCall.keepsCalendar (x : CalendarCall) : KeepsCalendar o there (x.program o) := by
  cases x with
  | createYearlyMandatorySavingsForUsers =>
      exact .bind (keepsCalendar_insertRecords dated_mandatorySavingsRecords) fun _ => trivial
  | generateRemainingYearSavings =>
      exact .bind (keepsCalendar_insertRecords dated_mandatorySavingsRecords) fun _ => trivial
  | settleMandatorySavings => exact keepsCalendar_settleMandatorySavings

theorem mem_mandatorySavingsRecords {userIds : List Uuid} {amount : ℚ} {year : ℤ}
    {startMonth month : ℕ} {userId : Uuid} (huser : userId ∈ userIds) (hstart : startMonth ≤ month)
    (hmonth : month < 12) : ⟨userId, periodDate o year month, amount⟩ ∈
      mandatorySavingsRecords o userIds amount year startMonth := by
  refine List.mem_flatMap.2 ⟨month, ?_, List.mem_map_of_mem huser⟩
  rw [List.mem_range'_1]
  omega

/-- A call that returns leaves the records there that it generates. -/
theorem Calendared.after (h : Calendared o there d) {x : CalendarCall}
    (hok : ((x.program o).result d).isOk = true) :
    Calendared o (fun userId date => there userId date ∨
      ∃ year month, date = periodDate o year month ∧ x.Generates o userId year month)
      ((x.program o).after d) := by
  obtain ⟨u, d', s', hreturns⟩ := Prog.exists_returns_of_isOk hok
  rw [hreturns.after]
  cases x with
  | createYearlyMandatorySavingsForUsers ids userIds amount now =>
      obtain ⟨n, d₁, s₁, hinsert, hpure⟩ := Prog.returns_bind.1 hreturns
      obtain ⟨-, rfl, -⟩ := Prog.returns_pure.1 hpure
      refine (h.insertRecords dated_mandatorySavingsRecords hinsert).mono ?_
      rintro userId date (hthere | ⟨year, month, rfl, huser, rfl, hmonth⟩)
      · exact .inl hthere
      · exact .inr ⟨_, mem_mandatorySavingsRecords huser month.zero_le hmonth, rfl, rfl⟩
  | generateRemainingYearSavings ids userIds amount year startMonth =>
      obtain ⟨n, d₁, s₁, hinsert, hpure⟩ := Prog.returns_bind.1 hreturns
      obtain ⟨-, rfl, -⟩ := Prog.returns_pure.1 hpure
      refine (h.insertRecords dated_mandatorySavingsRecords hinsert).mono ?_
      rintro userId date (hthere | ⟨year, month, rfl, huser, rfl, hstart, hmonth⟩)
      · exact .inl hthere
      · exact .inr ⟨_, mem_mandatorySavingsRecords huser hstart hmonth, rfl, rfl⟩
  | settleMandatorySavings ids savingsId adminId now =>
      have hkept := (CalendarCall.keepsCalendar
        (.settleMandatorySavings ids savingsId adminId now)).after_keeps h
      rw [hreturns.after] at hkept
      refine hkept.mono ?_
      rintro userId date (hthere | ⟨year, month, -, hgenerates⟩)
      · exact hthere
      · exact hgenerates.elim

theorem Calendared.run (h : Calendared o there d) (xs : List CalendarCall) :
    Calendared o (fun userId date => there userId date ∨
      ∃ year month, date = periodDate o year month ∧ Generated o userId year month d xs)
      (runCalls (CalendarCall.program o) d xs) := by
  induction xs generalizing d there with
  | nil =>
      refine h.mono ?_
      rintro userId date (hthere | ⟨_, _, -, hgenerated⟩)
      · exact hthere
      · exact hgenerated.elim
  | cons x xs ih =>
      by_cases hok : ((x.program o).result d).isOk = true
      · refine (ih (h.after hok)).mono ?_
        rintro userId date (hthere | ⟨year, month, rfl, hgenerates | hgenerated⟩)
        · exact .inl (.inl hthere)
        · exact .inl (.inr ⟨year, month, rfl, hgenerates.1⟩)
        · exact .inr ⟨year, month, rfl, hgenerated⟩
      · refine (ih (x.keepsCalendar.after_keeps h)).mono ?_
        rintro userId date (hthere | ⟨year, month, rfl, hgenerates | hgenerated⟩)
        · exact .inl hthere
        · exact absurd hgenerates.2 hok
        · exact .inr ⟨year, month, rfl, hgenerated⟩

theorem calendared_of_empty (h : d.rows .mandatorySavings = []) :
    Calendared o (fun _ _ => False) d := by
  refine ⟨?_, ?_, ?_, fun _ _ hthere => hthere.elim⟩ <;> simp [h]

end Runs

end LumbungMesari
