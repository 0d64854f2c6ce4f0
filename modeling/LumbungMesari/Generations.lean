import LumbungMesari.CalendarRules
import LumbungMesari.Receipts

/-!
# Generations

What a generation of records does to the table: it appends records to the rows that are there, and a
user ends up with one record of each month. A month that already has its record is passed over.
-/

namespace LumbungMesari

open Sql
open Prog (inTrx commitTrx each_inTrx)

/-! ### Inserts that pass over conflicts -/

section Inserts

variable {t : TableName} {d : Database} {key : Row t → UniqueKey} {rs : List (Row t)} {ws : List Write}

/-- The rows that are there stay, and some of the given rows follow them. -/
theorem rows_insertRowsIgnoring (ht : t ≠ .cashbookTransactions)
    (h : insertRowsIgnoring d t key rs = .ok ws) :
    ∃ new, new.Sublist rs ∧ (applyAll d ws).rows t = d.rows t ++ new := by
  induction rs generalizing d ws with
  | nil =>
      cases h
      exact ⟨[], .slnil, (List.append_nil _).symm⟩
  | cons r rs ih =>
      obtain ⟨ws₁, hrow, h⟩ := bind_ok h
      obtain ⟨ws₂, hrest, h⟩ := bind_ok h
      cases h
      obtain ⟨new, hsub, hrows⟩ := ih hrest
      rw [applyAll_append, hrows]
      unfold insertRowIgnoring at hrow
      split at hrow
      · cases hrow
        exact ⟨new, hsub.cons r, rfl⟩
      · obtain ⟨hinserted, rfl⟩ := insertRow_plain ht hrow
        refine ⟨r :: new, hsub.cons_cons r, ?_⟩
        have hinsert : (applyAll d [.insert t r]).rows t = d.rows t ++ [r] := by
          change ((d.apply (.insert t r)).table t).rows = _
          rw [Database.table_insert_self]
          exact Table.rows_insert hinserted.fresh
        rw [hinsert, List.append_assoc]
        rfl

end Inserts

/-- A new record that can be inserted. -/
structure Insertable (d : Database) (r : MandatorySavings) : Prop where
  fresh : d.find .mandatorySavings r.id = none
  user : d.find .users r.userId ≠ none
  unprocessed : r.processedBy = none

section Records

variable {d : Database} {rs : List MandatorySavings} {ws : List Write}

theorem exists_insertRowIgnoring {r : MandatorySavings} (h : Insertable d r) :
    ∃ ws, insertRowIgnoring d .mandatorySavings
      (fun r => .mandatorySavingsPeriod r.userId r.periodDate) r = .ok ws := by
  unfold insertRowIgnoring
  split
  · exact ⟨[], rfl⟩
  rename_i hfree
  cases hrow : insertRow d .mandatorySavings r with
  | ok ws => exact ⟨ws, rfl⟩
  | error e =>
      rcases insertRow_error hrow with hbefore | ⟨-, hused | ⟨k, hk, htaken⟩⟩ | ⟨-, ref, href, hnone⟩ |
        hafter
      · cases hbefore
      · exact absurd h.fresh hused
      · rw [List.mem_singleton.1 hk] at htaken
        exact absurd htaken hfree
      · have hone : Row.references .mandatorySavings r = [(.users, r.userId)] := by
          rw [Row.references, h.unprocessed]
          rfl
        rw [hone, List.mem_singleton] at href
        subst href
        exact absurd hnone h.user
      · cases hafter

theorem exists_insertRowsIgnoring (h : ∀ r ∈ rs, Insertable d r) (hids : (rs.map (·.id)).Nodup) :
    ∃ ws, insertRowsIgnoring d .mandatorySavings
      (fun r => .mandatorySavingsPeriod r.userId r.periodDate) rs = .ok ws := by
  induction rs generalizing d with
  | nil => exact ⟨[], rfl⟩
  | cons r rs ih =>
      rw [List.forall_mem_cons] at h
      rw [List.map_cons, List.nodup_cons] at hids
      obtain ⟨ws₁, hrow⟩ := exists_insertRowIgnoring h.1
      have hkept : ∀ r' ∈ rs, Insertable (applyAll d ws₁) r' := by
        intro r' hr'
        have hr := h.2 r' hr'
        unfold insertRowIgnoring at hrow
        split at hrow
        · cases hrow
          exact hr
        · obtain ⟨-, rfl⟩ := insertRow_plain (by decide) hrow
          have huser : (d.apply (.insert .mandatorySavings r)).find .users r'.userId ≠ none := by
            rw [Database.find_apply d _ .users _ (by simp [Write.table?])]
            exact hr.user
          refine ⟨?_, huser, hr.unprocessed⟩
          change (d.apply (.insert .mandatorySavings r)).find .mandatorySavings r'.id = none
          rw [Database.find_insert, if_neg, hr.fresh]
          intro hid
          exact hids.1 (List.mem_map.2 ⟨r', hr', hid.symm⟩)
      obtain ⟨ws₂, hrest⟩ := ih hkept hids.2
      refine ⟨ws₁ ++ ws₂, ?_⟩
      rw [insertRowsIgnoring, hrow]
      exact congrArg (fun x => x >>= fun ws' => pure (ws₁ ++ ws')) hrest

/-- Each of the records is there afterwards, or one in its place. -/
theorem exists_mem_insertRowsIgnoring (h : insertRowsIgnoring d .mandatorySavings
    (fun r => .mandatorySavingsPeriod r.userId r.periodDate) rs = .ok ws) :
    ∀ r ∈ rs, ∃ r' ∈ (applyAll d ws).rows .mandatorySavings,
      (r'.userId, r'.periodDate) = (r.userId, r.periodDate) := by
  induction rs generalizing d ws with
  | nil => simp
  | cons r rs ih =>
      obtain ⟨ws₁, hrow, h⟩ := bind_ok h
      obtain ⟨ws₂, hrest, h⟩ := bind_ok h
      cases h
      rw [applyAll_append, List.forall_mem_cons]
      refine ⟨?_, ih hrest⟩
      obtain ⟨new, -, hrows⟩ := rows_insertRowsIgnoring (by decide) hrest
      rw [hrows]
      unfold insertRowIgnoring at hrow
      split at hrow
      · rename_i htaken
        cases hrow
        obtain ⟨r', hr', hkey⟩ := List.any_eq_true.1 htaken
        have hsame : r.userId = r'.userId ∧ r.periodDate = r'.periodDate := by
          simpa [Row.uniqueKeys] using hkey
        exact ⟨r', List.mem_append_left _ hr', by rw [hsame.1, hsame.2]⟩
      · obtain ⟨hinserted, rfl⟩ := insertRow_plain (by decide) hrow
        refine ⟨r, List.mem_append_left _ ?_, rfl⟩
        change r ∈ ((d.apply (.insert .mandatorySavings r)).table .mandatorySavings).rows
        rw [Database.table_insert_self, Table.rows_insert hinserted.fresh]
        exact List.mem_append_right _ (List.mem_singleton_self r)

end Records

/-! ### Rows after a generation -/

/-- The records are those of a base, followed by others of a kind. -/
def Extends (base : List MandatorySavings) (P : MandatorySavings → Prop) (d : Database) : Prop :=
  ∃ new, (∀ r ∈ new, P r) ∧ d.rows .mandatorySavings = base ++ new

theorem extends_self (P : MandatorySavings → Prop) (d : Database) :
    Extends (d.rows .mandatorySavings) P d :=
  ⟨[], by simp, (List.append_nil _).symm⟩

/-- The record has the date of one of the given ones. -/
def DatedAs (records : List MandatorySavingsData) (r : MandatorySavings) : Prop :=
  ∃ data ∈ records, r.periodDate = data.periodDate

theorem extends_insertRecords {failure : Error} {ids : ℕ → Uuid}
    {records : List MandatorySavingsData} {base : List MandatorySavings} :
    (insertRecords failure ids records).Each (fun _ st => st.Writes fun _ => False) fun _ st =>
      st.Keeps (Extends base (DatedAs records)) := by
  refine .bind (each_inTrx fun d ws b hextends hexec => ?_) fun _ => trivial
  obtain ⟨new, hnew, hrows⟩ := hextends
  obtain ⟨rs, hrows₀, hexec⟩ := bind_ok (catchError_ok hexec)
  have htoRow := rowsOfRecords_ok hrows₀
  obtain ⟨ws', hinsert, hexec⟩ := bind_ok hexec
  cases hexec
  obtain ⟨new', hsub, hrows'⟩ := rows_insertRowsIgnoring (by decide) hinsert
  refine ⟨new ++ new', ?_, ?_⟩
  · rw [List.forall_mem_append]
    refine ⟨hnew, fun r hr => ?_⟩
    have hkey : (r.userId, r.periodDate) ∈ records.map fun data => (data.userId, data.periodDate) := by
      rw [← keys_of_records htoRow]
      exact List.mem_map_of_mem (hsub.subset hr)
    obtain ⟨data, hdata, hsame⟩ := List.mem_map.1 hkey
    exact ⟨data, hdata, (Prod.mk.inj hsame).2.symm⟩
  · rw [hrows', hrows, List.append_assoc]

theorem extends_of_returns {failure : Error} {ids : ℕ → Uuid}
    {records : List MandatorySavingsData} {d d' : Database} {n : ℕ} {s' : Trx}
    (h : (insertRecords failure ids records).Returns d .idle n d' s') :
    Extends (d.rows .mandatorySavings) (DatedAs records) d' := by
  rw [← h.after]
  exact Prog.Each.after_keeps extends_insertRecords (extends_self _ d)

theorem toRow_eq_ok {data : MandatorySavingsData} {amount : Money} (id : Uuid)
    (h : money data.amount = .ok amount) : data.toRow id = .ok {
      id, userId := data.userId, periodDate := data.periodDate, amount, status := .due
      paidAt := none, processedBy := none } := by
  rw [MandatorySavingsData.toRow, h]
  rfl

theorem exec_insertAllIgnoring {t : TableName} {d : Database} {key : Row t → UniqueKey}
    {rows : Except Error (List (Row t))} {rs : List (Row t)} {ws : List Write} {f : Error → Error}
    (hrows : rows = .ok rs) (hinsert : insertRowsIgnoring d t key rs = .ok ws) :
    (catchError (insertAllIgnoring t key rows) f).exec d = .ok (ws, ()) := by
  subst hrows
  change ((insertRowsIgnoring d t key rs) >>= fun ws => pure (ws, ())).mapError f = _
  rw [hinsert]
  rfl

section Returns

variable {ids : ℕ → Uuid} {records : List MandatorySavingsData} {rs : List MandatorySavings}
  {d : Database}

theorem ids_of_records (h : (records.zipIdx.mapM fun x => x.1.toRow (ids x.2)) = .ok rs) :
    rs.map (·.id) = (List.range records.length).map ids := by
  have hids := map_of_mapM_ok (fun r : MandatorySavings => r.id) (fun x => ids x.2) h
    fun x r hrow => by
      obtain ⟨_, -, hrow⟩ := bind_ok hrow
      cases hrow
      rfl
  rw [hids, List.range_eq_range', ← List.zipIdx_map_snd 0 records, List.map_map]
  rfl

theorem insertable_of_records
    (h : (records.zipIdx.mapM fun x => x.1.toRow (ids x.2)) = .ok rs)
    (hfresh : ∀ k, d.find .mandatorySavings (ids k) = none)
    (husers : ∀ data ∈ records, d.find .users data.userId ≠ none) : ∀ r ∈ rs, Insertable d r := by
  intro r hr
  obtain ⟨x, hx, hrow⟩ := exists_mem_of_mapM_ok h hr
  obtain ⟨_, -, hrow⟩ := bind_ok hrow
  cases hrow
  exact ⟨hfresh x.2, husers x.1 (List.fst_mem_of_mem_zipIdx hx), rfl⟩

/-- A generation of some records returns when it draws unused ids, for users that exist and an amount
that can be stored. Then each of its records is there, or one in its place. -/
theorem insertRecords_returns (failure : Error) (hrecords : records ≠ []) (hids : ids.Injective)
    (hfresh : ∀ k, d.find .mandatorySavings (ids k) = none)
    (husers : ∀ data ∈ records, d.find .users data.userId ≠ none)
    (hamounts : ∀ data ∈ records, ∃ amount, money data.amount = .ok amount) :
    ∃ d', (insertRecords failure ids records).Returns d .idle records.length d' .idle ∧
      ∀ data ∈ records, ∃ r ∈ d'.rows .mandatorySavings,
        (r.userId, r.periodDate) = (data.userId, data.periodDate) := by
  obtain ⟨rs, hrows⟩ : ∃ rs, (records.zipIdx.mapM fun x => x.1.toRow (ids x.2)) = .ok rs := by
    refine exists_mapM_ok fun x hx => ?_
    obtain ⟨amount, hamount⟩ := hamounts x.1 (List.fst_mem_of_mem_zipIdx hx)
    exact ⟨_, toRow_eq_ok (ids x.2) hamount⟩
  have hnodup : (rs.map (·.id)).Nodup := by
    rw [ids_of_records hrows]
    exact List.nodup_range.map hids
  obtain ⟨ws, hinsert⟩ :=
    exists_insertRowsIgnoring (insertable_of_records hrows hfresh husers) hnodup
  refine ⟨applyAll d ws, ?_, fun data hdata => ?_⟩
  · refine Prog.returns_bind.2 ⟨(), d, _, Prog.returns_inTrx.2
      ⟨rfl, ws, exec_insertAllIgnoring ((if_neg (by simpa using hrecords)).trans hrows) hinsert,
        rfl⟩, ?_⟩
    refine Prog.returns_bind.2 ⟨(), _, .idle, Prog.returns_commitTrx.2 ⟨rfl, rfl⟩, ?_⟩
    rw [Session.view_extend]
    rfl
  · have hmem : (data.userId, data.periodDate) ∈ rs.map fun r => (r.userId, r.periodDate) := by
      rw [keys_of_records hrows]
      exact List.mem_map_of_mem hdata
    obtain ⟨r, hr, hsame⟩ := List.mem_map.1 hmem
    obtain ⟨r', hr', hthere⟩ := exists_mem_insertRowsIgnoring hinsert r hr
    exact ⟨r', hr', hthere.trans hsame⟩

end Returns

namespace CalendarCall

/-- The call generates records; a settlement does not. -/
def isGeneration : CalendarCall → Bool
  | settleMandatorySavings .. => false
  | _ => true

theorem exists_extends {o : UtcOffset} {x : CalendarCall} (hx : x.isGeneration = true)
    (base : List MandatorySavings) :
    ∃ records, (x.program o).Each (fun _ st => st.Writes fun _ => False) fun _ st =>
      st.Keeps (Extends base (DatedAs records)) := by
  cases x with
  | createYearlyMandatorySavingsForUsers =>
      exact ⟨_, .bind extends_insertRecords fun _ => trivial⟩
  | generateRemainingYearSavings => exact ⟨_, .bind extends_insertRecords fun _ => trivial⟩
  | settleMandatorySavings => cases hx

theorem prefix_after {o : UtcOffset} {x : CalendarCall} (hx : x.isGeneration = true)
    (d : Database) :
    d.rows .mandatorySavings <+: ((x.program o).after d).rows .mandatorySavings := by
  obtain ⟨records, hkeeps⟩ := exists_extends (o := o) hx (d.rows .mandatorySavings)
  obtain ⟨new, -, hrows⟩ := hkeeps.after_keeps (extends_self _ d)
  exact ⟨new, hrows.symm⟩

end CalendarCall

/-! ### One record a month -/

/-- The record is dated in a month, counted from zero. -/
def MandatorySavings.InMonth (year : ℤ) (month : ℕ) (r : MandatorySavings) : Prop :=
  r.periodDate.year = year ∧ r.periodDate.month = month + 1

theorem day_periodDate (o : UtcOffset) (year : ℤ) {month : ℕ} (h : month < 12) :
    (periodDate o year month).day = if o.ms < 0 then
      Date.daysInMonth (periodDate o year month).year (periodDate o year month).month else 1 := by
  rw [periodDate_eq o year h]
  split
  · rw [Date.prev, if_neg (by simp)]
    split
    · simp
    · rfl
  · rfl

section Months

variable {o : UtcOffset} {there : Uuid → Date → Prop} {d : Database} {r r' : MandatorySavings}
  {year : ℤ} {month : ℕ}

theorem Calendared.eq_of_inMonth (h : Calendared o there d) (hr : r ∈ d.rows .mandatorySavings)
    (hr' : r' ∈ d.rows .mandatorySavings) (huser : r.userId = r'.userId)
    (hmonth : r.InMonth year month) (hmonth' : r'.InMonth year month) : r = r' := by
  obtain ⟨y, m, hm, hdate⟩ := h.dated r hr
  obtain ⟨y', m', hm', hdate'⟩ := h.dated r' hr'
  have hyears : r.periodDate.year = r'.periodDate.year := hmonth.1.trans hmonth'.1.symm
  have hmonths : r.periodDate.month = r'.periodDate.month := hmonth.2.trans hmonth'.2.symm
  have hdays : r.periodDate.day = r'.periodDate.day := by
    rw [hdate, day_periodDate o y hm, hdate', day_periodDate o y' hm', ← hdate, ← hdate', hyears,
      hmonths]
  exact h.once r hr r' hr' huser (Date.ext hyears hmonths hdays)

theorem inMonth_of_ofMonth (ho : 0 ≤ o.ms) (hyear : fullYear year = year) (hmonth : month < 12)
    (hof : r.OfMonth o year month) : r.InMonth year month := by
  rw [MandatorySavings.OfMonth, periodDate_eq o year hmonth, if_neg (not_lt.2 ho), hyear] at hof
  rw [MandatorySavings.InMonth, hof]
  exact ⟨rfl, rfl⟩

end Months

/-- Generations and settlements, in any order, leave a user at most one record a month. A generation
keeps every record that is there, and after one that returns each of its users has exactly one record
of each of its months. -/
theorem generations_once (o : UtcOffset) {d₀ : Database}
    (hempty : d₀.rows .mandatorySavings = []) (xs : List CalendarCall) :
    let d := runCalls (CalendarCall.program o) d₀ xs
    (∀ r ∈ d.rows .mandatorySavings, ∀ r' ∈ d.rows .mandatorySavings, r.userId = r'.userId →
      ∀ year month, r.InMonth year month → r'.InMonth year month → r = r') ∧
    ∀ x : CalendarCall, x.isGeneration = true →
      d.rows .mandatorySavings <+: ((x.program o).after d).rows .mandatorySavings ∧
      (((x.program o).result d).isOk = true → ∀ userId year month, x.Generates o userId year month →
        (∃! r, r ∈ ((x.program o).after d).rows .mandatorySavings ∧ r.userId = userId ∧
          r.OfMonth o year month) ∧
        (0 ≤ o.ms → fullYear year = year →
          ∃! r, r ∈ ((x.program o).after d).rows .mandatorySavings ∧ r.userId = userId ∧
            r.InMonth year month)) := by
  intro d
  have hd := (calendared_of_empty (o := o) hempty).run xs
  refine ⟨fun r hr r' hr' huser year month => hd.eq_of_inMonth hr hr' huser, fun x hx => ?_⟩
  refine ⟨CalendarCall.prefix_after hx d, fun hok userId year month hgenerates => ?_⟩
  have hafter := hd.after hok
  obtain ⟨r, hr, huser, hof⟩ := hafter.there userId _ (.inr ⟨year, month, rfl, hgenerates⟩)
  constructor
  · refine ⟨r, ⟨hr, huser, hof⟩, ?_⟩
    rintro r' ⟨hr', huser', hof'⟩
    exact hafter.once r' hr' r hr (huser'.trans huser.symm) (hof'.trans hof.symm)
  · intro ho hyear
    have hgenerated : Generated o userId year month d [x] := .inl ⟨hgenerates, hok⟩
    have hin := inMonth_of_ofMonth ho hyear hgenerated.lt hof
    refine ⟨r, ⟨hr, huser, hin⟩, ?_⟩
    rintro r' ⟨hr', huser', hin'⟩
    exact hafter.eq_of_inMonth hr' hr (huser'.trans huser.symm) hin' hin

/-- The yearly job runs after January was generated and settled. -/
theorem generations_once_yearly :
    let xs : List CalendarCall := [
      .generateRemainingYearSavings (100 + ·) [3] 100000 2026 0,
      .settleMandatorySavings ⟨1, 1⟩ 100 1 ⟨2026, 1, 5⟩]
    let d := runCalls (CalendarCall.program utcOffset) seeded xs
    let x : CalendarCall :=
      .createYearlyMandatorySavingsForUsers (200 + ·) [1, 3] 100000 ⟨⟨2026, 2, 1⟩, .midnight⟩
    d.rows .mandatorySavings <+: ((x.program utcOffset).after d).rows .mandatorySavings ∧
      ∃! r, r ∈ ((x.program utcOffset).after d).rows .mandatorySavings ∧ r.userId = 3 ∧
        r.InMonth 2026 0 := by
  intro xs d x
  have honce := (generations_once utcOffset (show seeded.rows .mandatorySavings = [] from rfl) xs).2 x rfl
  have hok : ((x.program utcOffset).result d).isOk = true := by decide +kernel
  refine ⟨honce.1, (honce.2 hok 3 2026 0 ?_).2 (by decide) (by decide)⟩
  exact ⟨by decide, by decide, by decide⟩

end LumbungMesari
