import LumbungMesari.AuthorityRuns
import LumbungMesari.LoanRuns
import LumbungMesari.Sql.Answers

/-!
# What a member is shown

The answers to a member depend on the member's own rows, on the loan periods and on the cashbook, and
on nothing else: in two histories that agree on these, a member is answered the same. Of a loan that
is somebody else's a member learns that it is there.

Other members cannot change any of it. Whatever they do meanwhile, a member is answered as before.
-/

namespace LumbungMesari

open Sql
open Prog (onPool)

/-! ### What is shown -/

namespace Database

def profile (id : Uuid) (d : Database) : Option FoundUser :=
  (d.find .users id).map fun u => u.selectById.safe

/-- Whether a loan is there, and whether it is the user's. -/
def ownsLoan (id loanId : Uuid) (d : Database) : Option Bool :=
  (d.loanWithPeriod loanId).map fun found => decide (found.1.userId = id)

/-- A loan as its user is shown it. -/
def detailsFor (id loanId : Uuid) (d : Database) : Option (Option LoanDetails) :=
  ((d.find .loans loanId).bind d.joinLoan).map fun found =>
    if found.1.userId = id then
      some ⟨found.1, found.2.2.tenor, found.2.2.interestRate, found.2.1.fullname, found.2.1.email⟩
    else none

def installmentsOfLoan (loanId : Uuid) (d : Database) : List Installment :=
  (d.rows .installments).filter fun i => i.loanId = loanId

def mandatorySavingsOf (id : Uuid) (d : Database) : List MandatorySavings :=
  (d.rows .mandatorySavings).filter fun r => r.userId = id

end Database

section Routes

variable {context : ApiContext}

/-- The loan that a user looks up. -/
def ApiRoute.loan? : ApiRoute context → Option Uuid
  | findInstallments loanId => some loanId
  | findOneLoan id => some id
  | _ => none

/-- The routes that a member changes something by. -/
def ApiRoute.changes : ApiRoute context → Bool
  | verifyOtp _ => true
  | resendOtp => true
  | createLoan .. => true
  | _ => false

end Routes

/-- Two states that show a user the same, and that agree on the loan that is looked up. -/
structure ShownAlike (context : ApiContext) (id : Uuid) (asked : Option Uuid) (d d' : Database) :
    Prop where
  profile : d.profile id = d'.profile id
  loanPeriods : d.table .loanPeriods = d'.table .loanPeriods
  loans : d.loansOfUser id = d'.loansOfUser id
  ownsLoan : ∀ {loanId}, asked = some loanId → d.ownsLoan id loanId = d'.ownsLoan id loanId
  details : ∀ {loanId}, asked = some loanId → d.detailsFor id loanId = d'.detailsFor id loanId
  savings : d.mandatorySavingsOf id = d'.mandatorySavingsOf id
  savingsWithUsers : d.savingsWithUsers context (fun r => decide (r.userId = id)) =
    d'.savingsWithUsers context (fun r => decide (r.userId = id))
  balances : d.balances = d'.balances
  cashbook : d.cashbook context = d'.cashbook context

/-- Two states of two histories, where `mine` says whether the loan is ever the user's. -/
structure MemberAlike (context : ApiContext) (id : Uuid) (asked : Option Uuid) (mine : Prop)
    (d d' : Database) : Prop extends ShownAlike context id asked d d' where
  member : d.roleFor id = .member
  owned : ∀ {loanId}, asked = some loanId → d.ownsLoan id loanId = some true → mine
  installments : ∀ {loanId}, asked = some loanId → mine →
    d.installmentsOfLoan loanId = d'.installmentsOfLoan loanId

/-! ### Reading -/

section Reading

variable {α β : Type} {R : Database → Database → Prop}

theorem select_reads {read : Database → β} : (select read).Reads read := fun _ => rfl

theorem alike_select {read read' : Database → β} {f f' : β → Program α}
    (h : ∀ {d d'}, R d d' → (f (read d)).Alike R (f' (read' d'))) :
    (onPool (select read) >>= f).Alike R (onPool (select read') >>= f') :=
  .read select_reads select_reads h

theorem alike_onPool {read : Database → β} (h : ∀ {d d'}, R d d' → read d = read d') :
    (onPool (select read)).Alike R (onPool (select read)) :=
  .read select_reads select_reads fun hd => by
    rw [h hd]
    exact .pure _

theorem alike_paginateBy {o : OrderBy α} {plan : Plan o} {rows : Database → List α} {page limit : ℕ}
    (h : ∀ {d d'}, R d d' → rows d = rows d') :
    (paginateBy plan rows page limit).Alike R (paginateBy plan rows page limit) :=
  (alike_onPool fun hd => by simp only [h hd]).bind fun _ =>
    (alike_onPool fun hd => by simp only [h hd]).bind fun _ => .pure _

end Reading

section Routes

variable {context : ApiContext} {id : Uuid} {asked : Option Uuid} {d d' : Database}

theorem savingsWithUsers_and (accepts : MandatorySavings → Bool) (dates : Date → Bool) :
    d.savingsWithUsers context (fun r => accepts r && dates r.periodDate) =
      (d.savingsWithUsers context accepts).filter fun row => dates row.record.periodDate := by
  have hfilter : (d.rows .mandatorySavings).filter (fun r => accepts r && dates r.periodDate) =
      ((d.rows .mandatorySavings).filter accepts).filter fun r => dates r.periodDate := by
    rw [List.filter_filter]
    simp only [Bool.and_comm]
  rw [Database.savingsWithUsers, hfilter, Database.savingsWithUsers, List.filter_filterMap,
    List.filterMap_filter]
  refine List.filterMap_congr fun r _ => ?_
  cases d.find .users r.userId with
  | none => cases dates r.periodDate <;> rfl
  | some u => rw [Option.map_some, Option.filter_some]

/-- The guard looks at nothing that the profile does not show. -/
theorem validateJwt_profile (h : d.profile id = d'.profile id) :
    validateJwt ((d.find .users id).map User.selectById) =
      validateJwt ((d'.find .users id).map User.selectById) := by
  have hsafe : ∀ d : Database, validateJwt ((d.find .users id).map User.selectById) =
      validateJwt (d.profile id) := by
    intro d
    rw [Database.profile]
    cases d.find .users id <;> rfl
  rw [hsafe, hsafe, h]

/-- A member is none of the roles that a handler asks for. -/
theorem canActivate_of_member {route : ApiRoute context} {rs : List UserRole}
    (hroute : route.roles = some rs) {user : UserJWT} (huser : user.role = some .member) :
    canActivate route.roles none user =
      .error (.httpException 403 (insufficientPermissionsMessage .member)) := by
  have hroles : rs = [.admin, .superadmin] ∨ rs = [.superadmin] ∨ rs = [.superadmin, .admin] := by
    cases route with
    | expenses route =>
        rw [ApiRoute.roles, route.roles_eq] at hroute
        cases hroute
        exact .inl rfl
    | _ => cases hroute <;> simp
  rw [hroute]
  rcases hroles with rfl | rfl | rfl <;> simp only [canActivate, huser] <;> rfl

theorem length_cashbook : (d.cashbook context).length =
    (d.rows .cashbookTransactions).countP fun r => r.visible := by
  rw [Database.cashbook, List.length_map, List.countP_eq_length_filter]

theorem filter_mandatorySavings (dates : Date → Bool) :
    (d.rows .mandatorySavings).filter (fun r => decide (r.userId = id ∧ dates r.periodDate = true)) =
      (d.mandatorySavingsOf id).filter fun r => dates r.periodDate := by
  rw [Database.mandatorySavingsOf, List.filter_filter]
  refine List.filter_congr fun r _ => ?_
  simp [and_comm]

/-- Of a loan that is looked up, a member is told apart whether it is there and whether it is the
member's. -/
theorem alike_findInstallmentsByLoan {loanId : Uuid} {mine : Prop} {user : UserJWT}
    (hid : user.id = id) (hadmin : user.isAdmin = false) :
    (findInstallmentsByLoan loanId user).Alike (MemberAlike context id (some loanId) mine)
      (findInstallmentsByLoan loanId user) := by
  refine alike_select fun {d d'} hd => ?_
  have howns := hd.ownsLoan rfl
  have howned := hd.owned rfl
  rw [Database.ownsLoan, Database.ownsLoan] at howns
  rw [Database.ownsLoan] at howned
  cases hfound : d.loanWithPeriod loanId with
  | none =>
      rw [hfound, Option.map_none, eq_comm, Option.map_eq_none_iff] at howns
      rw [howns]
      exact .throw _
  | some found =>
      rw [hfound, Option.map_some, eq_comm, Option.map_eq_some_iff] at howns
      obtain ⟨found', hfound', hsame⟩ := howns
      rw [decide_eq_decide] at hsame
      rw [hfound, Option.map_some] at howned
      rw [hfound']
      dsimp only
      by_cases hown : found.1.userId = id
      · rw [if_neg (by simp [hadmin, hid, hown]), if_neg (by simp [hadmin, hid, hsame.2 hown])]
        refine alike_onPool fun hd' => ?_
        have hinstallments := hd'.installments rfl (howned (by simp [hown]))
        rw [Database.installmentsOfLoan, Database.installmentsOfLoan] at hinstallments
        rw [hinstallments]
      · rw [if_pos (by simp [hadmin, hid, hown]), if_pos (by simp [hadmin, hid, hsame, hown])]
        exact .throw _

theorem alike_findById {loanId : Uuid} {mine : Prop} {user : UserJWT} (hid : user.id = id)
    (hadmin : user.isAdmin = false) :
    (findById loanId user).Alike (MemberAlike context id (some loanId) mine)
      (findById loanId user) := by
  refine alike_select fun {d d'} hd => ?_
  have hdetails := hd.details rfl
  rw [Database.detailsFor, Database.detailsFor] at hdetails
  cases hfound : (d.find .loans loanId).bind d.joinLoan with
  | none =>
      rw [hfound, Option.map_none, eq_comm, Option.map_eq_none_iff] at hdetails
      rw [hdetails]
      exact .throw _
  | some found =>
      rw [hfound, Option.map_some, eq_comm, Option.map_eq_some_iff] at hdetails
      obtain ⟨found', hfound', hsame⟩ := hdetails
      rw [hfound']
      dsimp only
      by_cases hown : found.1.userId = id
      · rw [if_pos hown] at hsame
        split at hsame
        · rename_i hown'
          rw [Option.some.injEq, LoanDetails.mk.injEq] at hsame
          obtain ⟨hloan, htenor, hrate, hfullname, hemail⟩ := hsame
          rw [if_neg (by simp [hadmin, hid, hown]), if_neg (by simp [hadmin, hid, hown']), hloan,
            htenor, hrate, hfullname, hemail]
          exact .pure _
        · cases hsame
      · rw [if_neg hown] at hsame
        split at hsame
        · cases hsame
        · rename_i hown'
          rw [if_pos (by simp [hadmin, hid, hown]), if_pos (by simp [hadmin, hid, hown'])]
          exact .throw _

theorem alike_handle {route : ApiRoute context} {mine : Prop} (hroles : route.roles = none)
    (hchanges : route.changes = false) {env : AuthEnv} {now : Instant} {user : UserJWT}
    (hid : user.id = id) (hrole : user.role = some .member) :
    (route.handle env now user).Alike (MemberAlike context id route.loan? mine)
      (route.handle env now user) := by
  have hadmin : user.isAdmin = false := by simp [UserJWT.isAdmin, hrole]
  cases route with
  | getProfile =>
      refine .bind (alike_select fun {d d'} hd => ?_) fun _ => .pure _
      have hprofile := hd.profile
      rw [Database.profile, Database.profile] at hprofile
      rw [hid]
      cases hfound : d.find .users id with
      | none =>
          rw [hfound, Option.map_none, eq_comm, Option.map_eq_none_iff] at hprofile
          rw [hprofile]
          exact .throw _
      | some u =>
          rw [hfound, Option.map_some, eq_comm, Option.map_eq_some_iff] at hprofile
          obtain ⟨u', hfound', hsame⟩ := hprofile
          rw [hfound', Option.map_some, Option.map_some]
          dsimp only
          rw [hsame]
          exact .pure _
  | getMyLoans plan =>
      refine .bind (alike_onPool fun hd => ?_) fun _ => .pure _
      rw [hid, hd.loans]
  | getMySavings year =>
      refine .bind (alike_onPool fun hd => ?_) fun _ => .pure _
      rw [hid, filter_mandatorySavings, filter_mandatorySavings, hd.savings]
  | getLoanPeriods =>
      refine .bind (alike_onPool fun hd => ?_) fun _ => .pure _
      rw [Database.rows, hd.loanPeriods, Database.rows]
  | calculateLoan loanPeriodId amount =>
      refine .bind (.bind (alike_onPool fun hd => Database.find_congr hd.loanPeriods _) fun found => ?_)
        fun _ => .pure _
      cases found
      · exact .throw _
      · exact .pure _
  | findInstallments loanId =>
      exact .bind (alike_findInstallmentsByLoan hid hadmin) fun _ => .pure _
  | findOneLoan loanId => exact .bind (alike_findById hid hadmin) fun _ => .pure _
  | findUserMandatorySavings userId query plan page limit =>
      rw [ApiRoute.handle]
      split
      · exact .throw _
      rename_i hown
      have hmine : id = userId := by simpa [hadmin, hid] using hown
      refine .bind ?_ fun _ => .pure _
      unfold findUserMandatorySavings
      split
      · exact .throw _
      · refine alike_paginateBy fun hd => ?_
        rw [← hmine, savingsWithUsers_and, savingsWithUsers_and, hd.savingsWithUsers]
  | getBalances =>
      refine .bind (alike_onPool fun hd => ?_) fun _ => .pure _
      simp only [Database.balance, hd.balances]
  | getTransactions plan page limit =>
      refine .bind (.bind (alike_onPool fun hd => ?_) fun _ => .bind (alike_onPool fun hd => ?_)
        fun _ => .pure _) fun _ => .pure _
      · rw [hd.cashbook]
      · rw [← length_cashbook, hd.cashbook, length_cashbook]
  | expenses route =>
      rw [ApiRoute.roles, route.roles_eq] at hroles
      cases hroles
  | verifyOtp | resendOtp | createLoan => cases hchanges
  | _ => cases hroles

theorem validateJwt_ok {found : Option FoundUser} {user : UserJWT}
    (h : validateJwt found = .ok user) :
    ∃ u, found = some u ∧ user.id = u.id ∧ user.role = some u.roleId := by
  cases found with
  | none => cases h
  | some u =>
      rw [validateJwt] at h
      split at h
      · cases h
      · cases h
        exact ⟨u, rfl, rfl, rfl⟩

theorem program_bind_bind {α β γ : Type} (p : Program α) (f : α → Program β) (g : β → Program γ) :
    p >>= f >>= g = p >>= fun a => f a >>= g := Prog.bind_bind ..

theorem alike_jwtAuthGuard {α : Type} {mine : Prop} {k : UserJWT → Program α}
    (hk : ∀ user, user.id = id → user.role = some .member →
      (k user).Alike (MemberAlike context id asked mine) (k user)) :
    (jwtAuthGuard id >>= k).Alike (MemberAlike context id asked mine) (jwtAuthGuard id >>= k) := by
  rw [jwtAuthGuard, program_bind_bind]
  refine alike_select fun {d d'} hd => ?_
  rw [← validateJwt_profile hd.profile]
  cases hvalid : validateJwt ((d.find .users id).map User.selectById) with
  | error e => exact .throw _
  | ok user =>
      obtain ⟨found, hfound, hid, hrole⟩ := validateJwt_ok hvalid
      obtain ⟨u, hu, rfl⟩ := Option.map_eq_some_iff.1 hfound
      refine hk user (hid.trans (Database.find_id hu)) ?_
      have hmember := hd.member
      rw [Database.roleFor, Database.identities, hu] at hmember
      exact hrole.trans (congrArg some hmember)

theorem alike_request {route : ApiRoute context} {mine : Prop} (hchanges : route.changes = false)
    {env : AuthEnv} {now : Instant} {refusal : Option Error} :
    (ApiRequest.guarded env now (some id) refusal route).handle.Alike
      (MemberAlike context id route.loan? mine)
      (ApiRequest.guarded env now (some id) refusal route).handle := by
  rw [ApiRequest.handle, ApiRoute.admit, program_bind_bind]
  refine alike_jwtAuthGuard fun user hid hrole => ?_
  cases hroles : route.roles with
  | some rs =>
      rw [← hroles, canActivate_of_member hroles hrole]
      exact .throw _
  | none =>
      cases refusal with
      | some refusal => exact .throw _
      | none => exact alike_handle hroles hchanges hid hrole

/-- **What a member is told.** A member's answer depends on the member's own rows, on the loan periods
and on the cashbook: in two histories of the database, committed to by whomever between the statements
of the request, that show the member the same, it is the same. -/
theorem answers_alike {route : ApiRoute context} (hchanges : route.changes = false)
    {ds ds' : ℕ → Database} (hmember : ∀ n, (ds n).roleFor id = .member)
    (halike : ∀ n, ShownAlike context id route.loan? (ds n) (ds' n))
    (hinstallments : ∀ loanId, route.loan? = some loanId →
      (∃ m, (ds m).ownsLoan id loanId = some true) →
        ∀ n, (ds n).installmentsOfLoan loanId = (ds' n).installmentsOfLoan loanId)
    (env : AuthEnv) (now : Instant) (refusal : Option Error) :
    (ApiRequest.guarded env now (some id) refusal route).handle.answer ds .idle =
      (ApiRequest.guarded env now (some id) refusal route).handle.answer ds' .idle := by
  let mine := ∃ loanId, route.loan? = some loanId ∧ ∃ m, (ds m).ownsLoan id loanId = some true
  have hrequest : (ApiRequest.guarded env now (some id) refusal route).handle.Alike
      (MemberAlike context id route.loan? mine) _ := alike_request hchanges
  refine hrequest.answer_eq fun n => ?_
  refine ⟨halike n, hmember n, fun hloan hown => ⟨_, hloan, n, hown⟩, fun {loanId} hloan hmine => ?_⟩
  obtain ⟨loanId', hloan', hown⟩ := hmine
  obtain rfl : loanId' = loanId := Option.some.inj (hloan'.symm.trans hloan)
  exact hinstallments loanId' hloan hown n

/-- Another member registers and asks for a loan. -/
def withNeighbour : Database :=
  (createLoan 7 4 1 3000000 none (2 / 100) ⟨2026, 1, 5⟩).after
    (seeded.apply (.insert .users (seededUser 4 "sari@gmail.com" "Sari" "sari" .member)))

theorem withNeighbour_shownAlike : ShownAlike seededApi 3 none seeded withNeighbour where
  profile := by decide +kernel
  loanPeriods := Table.ext_rows (by decide +kernel)
  loans := by decide +kernel
  ownsLoan h := by cases h
  details h := by cases h
  savings := by decide +kernel
  savingsWithUsers := by decide +kernel
  balances := by
    funext b
    cases b <;> decide +kernel
  cashbook := by decide +kernel

theorem answers_alike_withNeighbour :
    (requestOf 3 (.getMySavings none)).handle.answer (fun _ => seeded) .idle =
      (requestOf 3 (.getMySavings none)).handle.answer (fun _ => withNeighbour) .idle :=
  answers_alike rfl (fun _ => by decide) (fun _ => withNeighbour_shownAlike) (fun _ h => by cases h)
    _ _ _

end Routes

/-! ### Other members -/

section Others

variable {context : ApiContext} {id : Uuid} {asked : Option Uuid} {d d' : Database}

theorem ChangedBy.identities_eq {role : UserRole} {callers : Uuid → Prop}
    (h : ChangedBy role callers d d') {userId : Uuid} (hfound : d.find .users userId ≠ none) :
    d'.identities userId = d.identities userId := by
  obtain ⟨u, hu⟩ := Option.ne_none_iff_exists'.1 hfound
  have hidentity : d.identities userId = some u.identity := by
    rw [Database.identities, hu]
    rfl
  rw [hidentity, h.identities hidentity]

theorem profile_eq : d.profile id = (d.identities id).map fun i =>
    { id := id, email := i.email, fullname := i.fullname, username := i.username, password := none
      status := (d.standingFor id).status, roleId := i.role, otpCode := none, otpExpiresAt := none
      otpVerified := (d.standingFor id).otpVerified } := by
  rw [Database.profile, Database.identities, Database.standingFor]
  cases hfound : d.find .users id with
  | none => rfl
  | some u =>
      obtain rfl : u.id = id := Database.find_id hfound
      rfl

theorem detailsFor_eq {loanId : Uuid} : d.detailsFor id loanId =
    (d.find .loans loanId).bind fun loan => (d.identities loan.userId).bind fun i =>
      (d.find .loanPeriods loan.loanPeriodId).map fun loanPeriod =>
        if loan.userId = id then
          some ⟨loan, loanPeriod.tenor, loanPeriod.interestRate, i.fullname, i.email⟩
        else none := by
  rw [Database.detailsFor]
  cases d.find .loans loanId with
  | none => rfl
  | some loan =>
      rw [Option.bind_some, Option.bind_some, Database.joinLoan, Database.identities]
      cases d.find .users loan.userId with
      | none => rfl
      | some u =>
          cases d.find .loanPeriods loan.loanPeriodId with
          | none => simp
          | some loanPeriod => simp [User.identity]

theorem savingsWithUsers_eq {accepts : MandatorySavings → Bool} :
    d.savingsWithUsers context accepts =
      ((d.rows .mandatorySavings).filter accepts).filterMap fun r =>
        (d.identities r.userId).map fun i => {
          record := r, timestamps := context.mandatorySavings r.id
          fullname := i.fullname, email := i.email, username := i.username
          processedByUser := (r.processedBy.bind d.identities).map (·.fullname) } := by
  rw [Database.savingsWithUsers]
  refine List.filterMap_congr fun r _ => ?_
  have hprocessedBy : (r.processedBy.bind d.identities).map (·.fullname) =
      (r.processedBy.bind (d.find .users)).map (·.fullname) := by
    cases r.processedBy with
    | none => rfl
    | some admin =>
        rw [Option.bind_some, Option.bind_some, Database.identities, Option.map_map]
        rfl
  rw [hprocessedBy, Database.identities, Option.map_map]
  rfl

theorem find_table_congr {t : TableName} (h : d'.table t = d.table t) : d'.find t = d.find t :=
  funext (Database.find_congr h)

section Unchanged

variable (h : ChangedBy .member (· ≠ id) d d')
include h

theorem find_loan_eq {loanId : Uuid} (hloan : d.find .loans loanId ≠ none) :
    d'.find .loans loanId = d.find .loans loanId := by
  obtain ⟨added, hrows, -⟩ := h.loans (by decide)
  obtain ⟨loan, hfound⟩ := Option.ne_none_iff_exists'.1 hloan
  rw [Database.rows, Database.rows] at hrows
  rw [Database.find, Table.find?, hrows, List.find?_append]
  rw [Database.find, Table.find?] at hfound
  rw [hfound, Database.find, Table.find?, hfound, Option.some_or]

theorem loansOfUser_eq : d'.loansOfUser id = d.loansOfUser id := by
  obtain ⟨added, hrows, hadded⟩ := h.loans (by decide)
  have hnone : added.filter (fun l => decide (l.userId = id)) = [] :=
    List.filter_eq_nil_iff.2 fun l hl => by simpa using (hadded l hl).2
  rw [Database.loansOfUser, hrows, List.filter_append, hnone, List.append_nil, Database.loansOfUser]
  simp only [Database.find_congr (h.settings .loanPeriods rfl)]

theorem cashbook_eq : d'.cashbook context = d.cashbook context := by
  have hcategoryOf : d'.categoryOf = d.categoryOf := by
    funext r
    have hincomes := find_table_congr ((h.money rfl).2 .incomes rfl)
    have hexpenses := find_table_congr ((h.money rfl).2 .expenses rfl)
    have hincomeCategories := find_table_congr (h.settings .incomeCategories rfl)
    have hexpenseCategories := find_table_congr (h.settings .expenseCategories rfl)
    simp only [Database.categoryOf, hincomes, hexpenses, hincomeCategories, hexpenseCategories]
  rw [Database.cashbook, Database.rows, (h.money rfl).2 .cashbookTransactions rfl, hcategoryOf]
  rfl

theorem savingsWithUsers_kept (hkeys : d.ForeignKeys) {accepts : MandatorySavings → Bool} :
    d'.savingsWithUsers context accepts = d.savingsWithUsers context accepts := by
  rw [savingsWithUsers_eq, savingsWithUsers_eq, Database.rows,
    (h.money rfl).2 .mandatorySavings rfl]
  refine List.filterMap_congr fun r hr => ?_
  have hrow : r ∈ d.rows .mandatorySavings := (List.mem_filter.1 hr).1
  have huser := h.identities_eq (hkeys.find hrow (.users, r.userId) (by simp [Row.references]))
  have hprocessedBy : r.processedBy.bind d'.identities = r.processedBy.bind d.identities := by
    cases hadmin : r.processedBy with
    | none => rfl
    | some admin =>
        exact h.identities_eq (hkeys.find hrow (.users, admin) (by simp [Row.references, hadmin]))
  rw [huser, hprocessedBy]

/-- What other members do changes nothing that a member is shown. -/
theorem ChangedBy.shownAlike (hkeys : d.ForeignKeys) (hfound : d.find .users id ≠ none)
    (hasked : ∀ loanId, asked = some loanId → d.find .loans loanId ≠ none) :
    ShownAlike context id asked d' d where
  profile := by
    have hstanding := (h.standings rfl id).resolve_right fun hcaller => hcaller.1 rfl
    rw [profile_eq, profile_eq, h.identities_eq hfound, hstanding]
  loanPeriods := h.settings .loanPeriods rfl
  loans := loansOfUser_eq h
  ownsLoan {loanId} hloan := by
    rw [Database.ownsLoan, Database.loanWithPeriod, find_loan_eq h (hasked loanId hloan),
      Database.ownsLoan, Database.loanWithPeriod]
    simp only [Database.find_congr (h.settings .loanPeriods rfl)]
  details {loanId} hloan := by
    rw [detailsFor_eq, find_loan_eq h (hasked loanId hloan), detailsFor_eq]
    cases hfind : d.find .loans loanId with
    | none => rfl
    | some loan =>
        have hrow : loan ∈ d.rows .loans := (Table.find?_some hfind).1
        have huser :=
          h.identities_eq (hkeys.find hrow (.users, loan.userId) (by simp [Row.references]))
        rw [Option.bind_some, Option.bind_some, huser,
          Database.find_congr (h.settings .loanPeriods rfl)]
  savings := by
    rw [Database.mandatorySavingsOf, Database.rows, (h.money rfl).2 .mandatorySavings rfl]
    rfl
  savingsWithUsers := savingsWithUsers_kept h hkeys
  balances := (h.money rfl).1
  cashbook := cashbook_eq h

end Unchanged

/-- The committed states of the runs in which others have made requests, all of them in the role of a
member. -/
def OthersReach (context : ApiContext) (id : Uuid) (d₀ d : Database) : Prop :=
  ∃ s : Sys Database Write LockTarget Label Error (ApiRequest context),
    Sys.Reach ApiRequest.program (Sys.start d₀) s ∧ s.committed = d ∧
    ∀ request ∈ s.history, request.caller ≠ some id ∧ request.role d₀.roleFor = .member

/-- **Members do not disturb each other.** Under any overlap with requests of other members and of
newcomers, a member is answered as if nobody else had done anything. The one exception is a loan that
is looked up before there is one. -/
theorem undisturbed {d₀ : Database} (hkeys : d₀.ForeignKeys) {u : User}
    (hfound : d₀.find .users id = some u) (hmember : u.roleId = .member) {route : ApiRoute context}
    (hchanges : route.changes = false)
    (hloan : ∀ loanId, route.loan? = some loanId → d₀.find .loans loanId ≠ none)
    {ds : ℕ → Database} (hds : ∀ n, OthersReach context id d₀ (ds n)) (env : AuthEnv) (now : Instant)
    (refusal : Option Error) :
    (ApiRequest.guarded env now (some id) refusal route).handle.answer ds .idle =
      (ApiRequest.guarded env now (some id) refusal route).handle.result d₀ := by
  have hchanged : ∀ n, ChangedBy .member (· ≠ id) d₀ (ds n) := by
    intro n
    obtain ⟨s, hreach, hcommitted, hothers⟩ := hds n
    rw [← hcommitted]
    refine changedBy_of_reach hreach (fun request hrequest => ?_) fun request hrequest id' hcaller => ?_
    · rw [(hothers request hrequest).2]
    · rintro rfl
      exact (hothers request hrequest).1 hcaller
  have hrole : d₀.roleFor id = .member := by
    rw [Database.roleFor, Database.identities, hfound]
    exact hmember
  have hne : d₀.find .users id ≠ none := by simp [hfound]
  have halike : ∀ n, MemberAlike context id route.loan? True (ds n) d₀ := fun n =>
    { (hchanged n).shownAlike hkeys hne hloan with
      member := by rw [(hchanged n).roleFor, hrole]
      owned := fun _ _ => trivial
      installments := fun _ _ => by
        rw [Database.installmentsOfLoan, Database.rows, ((hchanged n).money rfl).2 .installments rfl]
        rfl }
  have hself : MemberAlike context id route.loan? True d₀ d₀ :=
    { (ChangedBy.refl.shownAlike hkeys hne hloan : ShownAlike context id route.loan? d₀ d₀) with
      member := hrole
      owned := fun _ _ => trivial
      installments := fun _ _ => rfl }
  exact ((alike_request hchanges).answer_eq halike).trans
    ((alike_request hchanges).answer_const hself)

/-- Somebody registers, and confirms the address. -/
def newcomer : List (Event Error (ApiRequest seededApi)) :=
  [.call (.unguarded (drawing 0 10) none
      (.register ⟨"sari@gmail.com", "rahasia", "rahasia", "Sari", "sari"⟩ "rahasia")),
    .run 0, .run 0, .run 0, .call (requestOf 10 (.verifyOtp "123456"))] ++ List.replicate 8 (.run 1)

def newcomerRun (n : ℕ) : Option (Sys Database Write LockTarget Label Error (ApiRequest seededApi)) :=
  (Sys.start seeded).exec ApiRequest.program (fun _ _ => true) (newcomer.take n)

/-- The states before, between and after the statements of the newcomer's requests. -/
def newcomerStates (n : ℕ) : Database := ((newcomerRun n).map (·.committed)).getD seeded

theorem newcomerRun_history (n : ℕ) : (newcomerRun n).all (fun s => s.history.all fun request =>
    request.caller ≠ some 3 ∧ request.role seeded.roleFor = .member) = true := by
  have hsmall : ∀ m ∈ List.range 14, (newcomerRun m).all (fun s => s.history.all fun request =>
      request.caller ≠ some 3 ∧ request.role seeded.roleFor = .member) = true := by
    decide +kernel
  have htake : newcomerRun n = newcomerRun (min n newcomer.length) := by
    rw [newcomerRun, List.take_eq_take_min, newcomerRun]
  rw [htake]
  exact hsmall _ (List.mem_range.2 (Nat.lt_succ_of_le (Nat.min_le_right ..)))

theorem newcomerStates_reach (n : ℕ) : OthersReach seededApi 3 seeded (newcomerStates n) := by
  have hhistory := newcomerRun_history n
  rw [newcomerStates]
  cases hrun : newcomerRun n with
  | none => exact ⟨Sys.start seeded, .refl, rfl, fun request hrequest => by cases hrequest⟩
  | some s =>
      rw [hrun, Option.all_some, List.all_eq_true] at hhistory
      exact ⟨s, Sys.reach_of_exec hrun, rfl, fun request hrequest => by
        simpa using hhistory request hrequest⟩

theorem undisturbed_newcomer :
    (newcomerStates 13).rows .principalSavings ≠ [] ∧
      (requestOf 3 .getProfile).handle.answer newcomerStates .idle =
        (requestOf 3 .getProfile).handle.result seeded :=
  ⟨by decide +kernel, undisturbed seeded_foreignKeys (u := seededUser 3 "andi.setiawan@gmail.com"
    "Andi Setiawan" "andi_setiawan" .member) rfl rfl rfl (fun _ h => by cases h)
    newcomerStates_reach _ _ _⟩

end Others

end LumbungMesari
