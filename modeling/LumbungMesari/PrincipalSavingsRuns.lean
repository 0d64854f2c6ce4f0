import LumbungMesari.MemberRuns
import LumbungMesari.Ranges

/-!
# Principal savings that stay

A verification writes what a user owes. Nothing takes the row away or gives the user a second one,
and a settlement keeps its owner and its amount, so however the calls of the services overlap, the
amount is still the one that was written.
-/

namespace LumbungMesari

open Sql
open Prog (inTrx onPool commitTrx each_onPool each_inTrx each_commitTrx)

/-! ### Versions of one row -/

/-- A row that is a version of the given one, or another row of another user. -/
def PrincipalSavings.Agrees (row r : PrincipalSavings) : Prop :=
  r.id = row.id ∨ r.userId = row.userId →
    r.id = row.id ∧ r.userId = row.userId ∧ r.amount = row.amount

/-- The user of a row of savings owes its amount, under its id and under no other. -/
structure Database.Owes (row : PrincipalSavings) (d : Database) : Prop where
  present : d.find .principalSavings row.id ≠ none
  agrees : ∀ {id r}, d.find .principalSavings id = some r → row.Agrees r

/-- The writes that leave what a user owes. -/
inductive Write.Keeps (row : PrincipalSavings) : Write → Prop where
  | spares {w : Write} (h : w.Spares .principalSavings) : Keeps row w
  | insert {r : PrincipalSavings} (h : row.Agrees r) : Keeps row (.insert .principalSavings r)
  | update {r : PrincipalSavings} (h : row.Agrees r) : Keeps row (.update .principalSavings r)

section Rows

variable {row r : PrincipalSavings} {d : Database}

theorem Database.Owes.of_mem (h : d.Owes row) (hr : r ∈ d.rows .principalSavings) :
    row.Agrees r :=
  h.agrees (Table.find?_of_mem hr)

theorem Database.Owes.apply (h : d.Owes row) {w : Write} (hw : w.Keeps row) :
    (d.apply w).Owes row := by
  cases hw with
  | spares hspares =>
      have htable : (d.apply w).table .principalSavings = d.table .principalSavings :=
        Database.table_apply hspares
      exact ⟨by rw [Database.find_congr htable]; exact h.present, fun {id r} hr =>
        h.agrees (by rwa [Database.find_congr htable] at hr)⟩
  | @insert r hr =>
      refine ⟨Database.find_insert_ne_none (t := .principalSavings) r h.present, fun {id r'} hr' => ?_⟩
      rw [Database.find_insert] at hr'
      split at hr'
      · cases hold : d.find .principalSavings id with
        | none =>
            rw [hold, Option.none_or, Option.some.injEq] at hr'
            exact hr' ▸ hr
        | some old =>
            rw [hold, Option.some_or, Option.some.injEq] at hr'
            exact hr' ▸ h.agrees hold
      · exact h.agrees hr'
  | @update r hr =>
      refine ⟨Database.find_update_ne_none (t := .principalSavings) r h.present, fun {id r'} hr' => ?_⟩
      rw [Database.find_update] at hr'
      split at hr'
      · obtain ⟨old, -, rfl⟩ := Option.map_eq_some_iff.1 hr'
        exact hr
      · exact h.agrees hr'

theorem Database.Owes.agrees_of_inserted (h : d.Owes row) (hr : Inserted d .principalSavings r) :
    row.Agrees r := by
  obtain ⟨old, hold⟩ := Option.ne_none_iff_exists'.1 h.present
  have howner : old.userId = row.userId :=
    (h.agrees hold (.inl (Database.find_id hold))).2.1
  rintro (hid | huser)
  · have hfresh : d.find .principalSavings r.id = none := hr.fresh
    rw [hid] at hfresh
    exact absurd hfresh h.present
  · exact absurd (howner.trans huser.symm) (userId_ne_of_inserted hr (Table.find?_some hold).1)

theorem Database.owes_of_insert (hr : Inserted d .principalSavings row) :
    (d.apply (.insert .principalSavings row)).Owes row where
  present := by
    rw [Database.find_insert, if_pos rfl, Ne, Option.or_eq_none_iff]
    exact fun h => Option.some_ne_none _ h.2
  agrees {id r} h := by
    rw [Database.find_insert] at h
    have hfresh : d.find .principalSavings row.id = none := hr.fresh
    have hother : ∀ {id}, d.find .principalSavings id = some r → row.Agrees r := by
      intro id hold
      obtain ⟨hmem, -⟩ := Table.find?_some hold
      rintro (hid | huser)
      · have hfound : d.find .principalSavings (Row.id .principalSavings r) = some r :=
          Table.find?_of_mem hmem
        rw [show Row.id .principalSavings r = row.id from hid, hfresh] at hfound
        cases hfound
      · exact absurd huser (userId_ne_of_inserted hr hmem)
    split at h
    · rename_i hid
      obtain rfl : row.id = id := hid
      rw [hfresh, Option.none_or, Option.some.injEq] at h
      subst h
      exact fun _ => ⟨rfl, rfl, rfl⟩
    · exact hother h

end Rows

/-! ### Calls -/

/-- A program that leaves what a user owes. -/
abbrev KeepsSavings (row : PrincipalSavings) {α : Type} (p : Program α) : Prop :=
  p.Each (fun _ st => st.WritesIn (Database.Owes row) (Write.Keeps row))
    fun _ st => st.WritesIn (Database.Owes row) (Write.Keeps row)

section Calls

variable {row : PrincipalSavings} {α : Type} {userId : Uuid} {now : Date}

theorem Tame.keepsSavings {p : Program α} (h : Tame .principalSavings p) : KeepsSavings row p :=
  h.mono (fun hst d ws b _ hexec w hw => .spares (hst.spares d ws b hexec w hw))
    fun hst d ws b _ hexec w hw => .spares (hst.spares d ws b hexec w hw)

theorem keepsSavings_createPrincipalSavings {id : Uuid} {configured : Option ℚ} :
    KeepsSavings row (createPrincipalSavings id userId configured) := by
  refine .bind (Tame.keepsSavings ?_) fun amount => .bind (each_inTrx ?_) fun _ => trivial
  · refine .bind (each_inTrx tame_selectForUpdate) fun total => ?_
    refine .bind (each_inTrx tame_select) fun count => ?_
    split <;> trivial
  · intro d ws b hd hexec w hw
    obtain ⟨r, -, hexec⟩ := bind_ok hexec
    obtain ⟨ws', hinsert, hexec⟩ := bind_ok hexec
    cases hexec
    obtain ⟨hinserted, rfl⟩ := insertRow_plain (by decide) hinsert
    rw [List.mem_singleton.1 hw]
    exact .insert (hd.agrees_of_inserted hinserted)

theorem keepsSavings_verifyOtp {env : AuthEnv} {otpCode : String} :
    KeepsSavings row (verifyOtp env userId otpCode) := by
  unfold verifyOtp
  split
  · trivial
  refine .bind tame_findByIdIncludeOtp.keepsSavings fun user => ?_
  split
  · trivial
  refine .bind tame_usersServiceUpdateInTrx.keepsSavings fun _ => ?_
  exact .bind keepsSavings_createPrincipalSavings fun _ => trivial

theorem keepsSavings_updatePrincipalSavings {id adminId : Uuid} :
    KeepsSavings row (updatePrincipalSavings id adminId now) := by
  refine .bind (each_inTrx fun d ws b hd hexec w hw => ?_) fun result => ?_
  · simp only [updateById, statement] at hexec
    split at hexec
    · cases hexec
      cases hw
    · rename_i old hold
      obtain ⟨new, hnew, hexec⟩ := bind_ok hexec
      obtain ⟨ws', hupdate, hexec⟩ := bind_ok hexec
      cases hexec
      obtain rfl : old.settle adminId now = new := Except.ok.inj hnew
      obtain ⟨-, rfl⟩ := updateRow_plain (by decide) hupdate
      rw [List.mem_singleton.1 hw]
      have hagrees : row.Agrees old := hd.agrees hold
      exact .update (show row.Agrees (old.settle adminId now) from hagrees)
  · cases result <;> trivial

theorem keepsSavings_settlePrincipalSavings {ids : IncomeIds} {adminId : Uuid} :
    KeepsSavings row (settlePrincipalSavings ids userId adminId now) := by
  have hread : Tame .principalSavings (findPrincipalSavingsByUserId userId) := each_inTrx tame_select
  refine .bind hread.keepsSavings fun found => ?_
  cases found with
  | none => trivial
  | some found =>
      dsimp only
      split
      · trivial
      refine .bind keepsSavings_updatePrincipalSavings fun _ => ?_
      refine .bind (tame_createIncomeOf (by decide)).keepsSavings fun income => ?_
      exact .bind (tame_createIncomeTransaction (by decide)).keepsSavings fun _ => trivial

theorem keepsSavings_approveUser {ids : IncomeIds} {reason : Option String} {adminId : Uuid}
    {emailSent : Bool} : KeepsSavings row (approveUser ids userId reason adminId emailSent now) := by
  refine .bind tame_usersServiceFindById.keepsSavings fun user => ?_
  split
  · trivial
  have hstatus : Tame .principalSavings (updateStatus userId .active) :=
    tame_updateOrThrow (by decide)
  refine .bind hstatus.keepsSavings fun _ => .bind keepsSavings_settlePrincipalSavings fun _ => ?_
  exact .bind each_commitTrx fun _ => .bind tame_sendApprovalEmail.keepsSavings fun _ => trivial

theorem ServiceCall.keepsSavings (x : ServiceCall) : KeepsSavings row x.program := by
  cases x with
  | auth compare env x =>
      refine .bind ?_ fun _ => trivial
      cases x with
      | register => exact tame_register.keepsSavings
      | login => exact tame_login.keepsSavings
      | resendOtp => exact tame_resendOtp.keepsSavings
      | verifyOtp => exact keepsSavings_verifyOtp
  | member userId x =>
      cases x with
      | verifyOtp => exact .bind keepsSavings_verifyOtp fun _ => trivial
      | approveUser => exact .bind keepsSavings_approveUser fun _ => trivial
      | rejectUser => exact .bind tame_rejectUser.keepsSavings fun _ => trivial
  | loan x => exact x.tame_program.keepsSavings
  | ledger x => exact x.tame_program.keepsSavings
  | createYearlyMandatorySavingsForAllUsers =>
      exact tame_createYearlyMandatorySavingsForAllUsers.keepsSavings
  | generateRemainingYearSavings =>
      exact .bind tame_generateRemainingYearSavings.keepsSavings fun _ => trivial
  | settleMandatorySavings => exact tame_settleMandatorySavings.keepsSavings

/-- However the calls of the services overlap, a user owes what was written once. -/
theorem Database.Owes.reach {d₀ : Database} (h : d₀.Owes row)
    {s : Sys Database Write LockTarget Label Error ServiceCall}
    (hreach : Sys.Reach ServiceCall.program (Sys.start d₀) s) : s.committed.Owes row :=
  invariant_of_writesIn (fun hd hw => hd.apply hw) (fun x => x.keepsSavings) h hreach

end Calls

end LumbungMesari
