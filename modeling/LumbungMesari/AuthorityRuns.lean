import LumbungMesari.Authority
import LumbungMesari.CalendarRules
import LumbungMesari.OtpRuns
import LumbungMesari.Sql.Preserves

/-!
# Authority over runs

Every request keeps to the bounds of the role its user has, under any overlap of requests. So what
has become of the database tells how high the roles of those go who have changed it.
-/

namespace LumbungMesari

open Sql
open Prog (inTrx onPool commitTrx writes_inTrx writes_onPool each_inTrx each_onPool)

variable {role : UserRole} {callers : Uuid → Prop} {now : Date} {d d' : Database}

/-! ### Statements -/

/-- A statement on the pool that keeps to the bounds of a role. -/
def CommitsWithin (role : UserRole) (callers : Uuid → Prop) {β : Type} (st : Statement β) : Prop :=
  ∀ d ws b, st.exec d = .ok (ws, b) → ChangedBy role callers d (applyAll d ws)

/-- A statement of a transaction that only makes allowed writes. -/
def WritesAllowed (role : UserRole) (callers : Uuid → Prop) {β : Type} (st : Statement β) : Prop :=
  ∀ d ws b, st.exec d = .ok (ws, b) → ∀ w ∈ ws, w.Allowed role callers d

abbrev Permitted (role : UserRole) (callers : Uuid → Prop) {α : Type} (p : Program α) : Prop :=
  p.Each (fun _ => CommitsWithin role callers) fun _ => WritesAllowed role callers

section Statements

variable {α β : Type}

theorem WritesAllowed.commitsWithin {st : Statement β} (h : WritesAllowed role callers st) :
    CommitsWithin role callers st := fun d ws b hexec => changedBy_allowed (h d ws b hexec)

theorem permitted_of_writes {P : Write → Prop} {p : Program α} (hp : p.Writes P)
    (hP : ∀ w, P w → w.Granted role callers) : Permitted role callers p := by
  have hst : ∀ {β : Type} {st : Statement β}, st.Writes P → WritesAllowed role callers st :=
    fun hst d ws b hexec w hw => .granted (hP w (hst d ws b hexec w hw))
  exact hp.each.mono (fun h => (hst h).commitsWithin) hst

theorem permitted_reads {p : Program α} (hp : p.Writes fun _ => False) : Permitted role callers p :=
  permitted_of_writes hp fun _ h => h.elim

theorem permitted_of_within {p : Program α} (hp : WritesTables [] p) : Permitted role callers p :=
  permitted_reads (hp.mono fun w hw => by
    obtain ⟨t, ht, -⟩ := hw
    cases ht)

/-- A write that an operator may make. -/
def Write.Operated (w : Write) : Prop :=
  ∀ t, w.table? = some t → t.operated = true ∨ t = .principalSavings

theorem operated_of_within (tables : List TableName) {p : Program α} (hp : WritesTables tables p)
    (htables : ∀ t ∈ tables, t.operated = true ∨ t = .principalSavings) :
    p.Writes Write.Operated := by
  refine hp.mono fun w hw t ht => ?_
  obtain ⟨t', ht', htable⟩ := hw
  rw [ht, Option.some.injEq] at htable
  exact htable ▸ htables t' ht'

theorem operated_of_tame {p : Program α}
    (hp : ∀ t : TableName, t.operated = false → Tame t p) : p.Writes Write.Operated := by
  have hspares : p.Writes fun w => ∀ t : { t : TableName // t.operated = false }, w.Spares t :=
    .forall fun t => (hp t t.2).writes
  refine hspares.mono fun w hw t ht => .inl ?_
  by_contra h
  exact hw ⟨t, by simpa using h⟩ ht

theorem permitted_operated {p : Program α} (hrole : role.operates = true)
    (hp : p.Writes Write.Operated) : Permitted role callers p :=
  permitted_of_writes hp fun _ hw => .operated hrole hw

end Statements

/-! ### Operators -/

theorem ne_of_operated {t t' : TableName} (ht : t.operated = false) (ht' : t'.operated = true) :
    t ≠ t' := by
  rintro rfl
  rw [ht] at ht'
  cases ht'

theorem operated_createIncomeOf {code : String} {id : Uuid} {data : IncomeData} :
    (createIncomeOf code id data now).Writes Write.Operated :=
  operated_of_within [.incomes] (within_createIncomeOf (by simp)) (by simp [TableName.operated])

theorem operated_createIncomeTransaction {id incomeId : Uuid} {amount : ℚ}
    {destination : IncomeDestination} {txnDate : Option Date} :
    (createIncomeTransaction id incomeId amount destination txnDate now).Writes Write.Operated :=
  operated_of_tame fun _ ht => tame_createIncomeTransaction (ne_of_operated ht rfl)

theorem operated_postInstallment {ids : SettleIds} {installment : Installment} :
    (postInstallment ids installment now).Writes Write.Operated := by
  refine .bind operated_createIncomeOf fun principal => ?_
  refine .bind operated_createIncomeTransaction fun _ => ?_
  refine .bind operated_createIncomeOf fun interest => ?_
  refine .bind operated_createIncomeTransaction fun _ => ?_
  split
  · refine .bind operated_createIncomeOf fun penalty => ?_
    exact .bind operated_createIncomeTransaction fun _ => trivial
  · trivial

theorem operated_settleInstallment {ids : SettleIds} {installmentId adminId : Uuid} :
    (settleInstallment ids installmentId adminId now).Writes Write.Operated := by
  refine .bind (writes_inTrx writes_selectForUpdate) fun found => ?_
  cases found with
  | none => trivial
  | some installment =>
      dsimp only
      split
      · trivial
      · refine .bind (operated_of_within [.installments]
          (within_settleInstallmentRow (by simp)) (by simp [TableName.operated])) fun _ => ?_
        exact .bind operated_postInstallment fun _ => trivial

theorem operated_settleMandatorySavings {ids : IncomeIds} {savingsId adminId : Uuid} :
    (settleMandatorySavings ids savingsId adminId now).Writes Write.Operated := by
  refine .bind (writes_inTrx writes_select) fun found => ?_
  cases found with
  | none => trivial
  | some mandatorySavings =>
      dsimp only
      split
      · trivial
      · refine .bind (operated_of_within [.mandatorySavings]
          (within_updateMandatorySavings (by simp)) (by simp [TableName.operated])) fun _ => ?_
        refine .bind operated_createIncomeOf fun income => ?_
        exact .bind operated_createIncomeTransaction fun _ => trivial

theorem operated_settlePrincipalSavings {ids : IncomeIds} {userId adminId : Uuid} :
    (settlePrincipalSavings ids userId adminId now).Writes Write.Operated := by
  refine .bind (writes_inTrx writes_select) fun found => ?_
  cases found with
  | none => trivial
  | some found =>
      dsimp only
      split
      · trivial
      · refine .bind (operated_of_within [.principalSavings]
          (within_updatePrincipalSavings (by simp)) (by simp)) fun _ => ?_
        refine .bind operated_createIncomeOf fun income => ?_
        exact .bind operated_createIncomeTransaction fun _ => trivial

theorem operated_expenses {route : ExpensesRoute} {user : UserJWT} :
    (route.handle user now).Writes Write.Operated :=
  operated_of_tame fun _ ht => route.tame_handle (ne_of_operated ht rfl) (ne_of_operated ht rfl)

/-! ### Superadministrators -/

theorem permitted_superadmin {α : Type} {p : Program α}
    (hp : p.Writes fun w => w.table? = some .loans ∨ w.Operated) :
    Permitted .superadmin callers p :=
  permitted_of_writes hp fun _ hw => hw.elim (.decided rfl) (.operated rfl)

theorem permitted_decideLoan {loanId : Uuid} {verb : String} {status : LoanStatus}
    {approvedBy : Option Uuid} {notes : Option String} :
    Permitted .superadmin callers (decideLoan loanId verb status approvedBy notes now) := by
  have hwithin : WritesTables [.loans] (decideLoan loanId verb status approvedBy notes now) :=
    within_decideLoan (by simp)
  refine permitted_superadmin (hwithin.mono fun w hw => .inl ?_)
  obtain ⟨t, ht, hw⟩ := hw
  rw [hw, List.mem_singleton.1 ht]

theorem permitted_disburseLoan {ids : DisburseIds} {loanId adminId : Uuid} :
    Permitted .superadmin callers (disburseLoan ids loanId adminId now) := by
  have hoperated : ∀ w : Write, w.Operated → w.table? = some .loans ∨ w.Operated := fun _ => .inr
  refine permitted_superadmin ?_
  refine .bind (writes_onPool writes_select) fun found => ?_
  cases found with
  | none => trivial
  | some found =>
      dsimp only
      split
      · trivial
      refine .bind (writes_onPool writes_select) fun category => ?_
      cases category with
      | none => trivial
      | some category =>
          have hloans : WritesTables [.loans] (disburseLoanRow found.1.id now) :=
            within_disburseLoanRow (by simp)
          refine .bind (.bind (hloans.mono fun w hw => .inl ?_) fun _ => ?_) fun _ => trivial
          · obtain ⟨t, ht, hw⟩ := hw
            rw [hw, List.mem_singleton.1 ht]
          refine Prog.Writes.mono hoperated ?_
          refine .bind (operated_of_within [.installments]
            (within_createInstallments (by simp)) (by simp [TableName.operated])) fun _ => ?_
          refine .bind (operated_of_tame fun _ ht => tame_createExpenseInTransaction
            (ne_of_operated ht rfl) (ne_of_operated ht rfl)) fun _ => ?_
          refine .bind operated_createIncomeOf fun fee => ?_
          exact .bind operated_createIncomeTransaction fun _ => trivial

/-! ### Users -/

theorem updateUser_exec {label : Label} {id : Uuid} {set : User → Except Error User} {ws : List Write}
    {b : Option User} (hset : ∀ {u u'}, set u = .ok u' → u'.id = u.id ∧ u'.identity = u.identity)
    (hexec : (updateById label .users id set).exec d = .ok (ws, b)) : ws = [] ∨
      ∃ u u', set u = .ok u' ∧ ws = [.update .users u'] ∧ u'.id = id ∧
        d.find .users u'.id = some u ∧ d.identities u'.id = some u'.identity := by
  simp only [updateById, statement] at hexec
  split at hexec
  · cases hexec
    exact .inl rfl
  · rename_i u hfound
    obtain ⟨u', hu', hexec⟩ := bind_ok hexec
    obtain ⟨ws', hupdate, hexec⟩ := bind_ok hexec
    cases hexec
    obtain ⟨-, rfl⟩ := updateRow_plain (by decide) hupdate
    obtain ⟨hid, hidentity⟩ := hset hu'
    obtain rfl : u.id = id := Database.find_id hfound
    refine .inr ⟨u, u', hu', rfl, hid, hid ▸ hfound, ?_⟩
    rw [Database.identities, hid, hfound, hidentity]
    rfl

/-- An operator sets any status, and a member only that an address is verified. -/
theorem permitted_updateInTrx {id : Uuid} {label : Label} {set : User → Except Error User}
    {notFound : Error} (hset : ∀ {u u'}, set u = .ok u' → u'.id = u.id ∧ u'.identity = u.identity ∧
      (role.operates = true ∨ callers id ∧ u'.standing = .verified)) :
    Permitted role callers (updateOrThrow (t := .users) label id set notFound) := by
  refine .bind (each_inTrx fun d ws b hexec w hw => ?_) fun result => ?_
  · rcases updateUser_exec (fun hu => ⟨(hset hu).1, (hset hu).2.1⟩) hexec with
      rfl | ⟨u, u', hu', rfl, hid, -, hidentity⟩
    · cases hw
    · rw [List.mem_singleton.1 hw]
      exact .updated hidentity (hid ▸ (hset hu').2.2)
  · cases result <;> trivial

theorem permitted_newOtp {env : AuthEnv} {id : Uuid} :
    Permitted role callers (usersServiceUpdate id (newOtp env)) := by
  refine .bind (permitted_reads (writes_onPool writes_select)) fun found => ?_
  cases found with
  | none => trivial
  | some user =>
      refine .bind (each_onPool fun d ws b hexec => ?_) fun result => ?_
      · have hset : ∀ {u u' : User}, (.ok (u.update (newOtp env)) : Except Error User) = .ok u' →
            u'.id = u.id ∧ u'.identity = u.identity := by
          rintro u u' ⟨⟩
          exact ⟨rfl, rfl⟩
        rcases updateUser_exec hset hexec with rfl | ⟨u, u', hu', rfl, -, hfound, hidentity⟩
        · exact .refl
        · refine .update hidentity fun _ => .inl ?_
          cases hu'
          rw [Database.standingFor, hfound]
          rfl
      · cases result <;> trivial

theorem permitted_verification {id : Uuid} (hid : callers id) :
    Permitted role callers (usersServiceUpdateInTrx id verification) := by
  refine .bind (permitted_reads (writes_inTrx writes_select)) fun found => ?_
  cases found with
  | none => trivial
  | some user =>
      refine permitted_updateInTrx fun {u u'} hu => ?_
      cases hu
      exact ⟨rfl, rfl, .inr ⟨hid, rfl⟩⟩

theorem permitted_updateStatus {id : Uuid} {status : UserStatus} (hrole : role.operates = true) :
    Permitted role callers (updateStatus id status) := by
  refine permitted_updateInTrx fun {u u'} hu => ?_
  cases hu
  exact ⟨rfl, rfl, .inl hrole⟩

theorem permitted_createUser {id : Uuid} {user : CreatedUser} (hmember : user.roleId = .member)
    (hpending : user.status = .pending) : Permitted role callers (createUser id user) := by
  refine .bind (permitted_reads ?_) fun _ => each_onPool fun d ws b hexec => ?_
  · refine .bind (writes_onPool writes_select) fun byEmail => ?_
    refine .bind (writes_onPool writes_select) fun byUsername => ?_
    split
    · trivial
    · split <;> trivial
  · obtain ⟨u, hu, hexec⟩ := bind_ok hexec
    obtain ⟨ws', hinsert, hexec⟩ := bind_ok hexec
    cases hexec
    cases hu
    obtain ⟨-, rfl⟩ := insertRow_plain (by decide) hinsert
    refine .register hmember ?_
    rw [User.standing, CreatedUser.toRow, hpending, Standing.registered]

theorem permitted_createPrincipalSavings {id userId : Uuid} {configured : Option ℚ}
    (hid : callers userId) : Permitted role callers (createPrincipalSavings id userId configured) := by
  refine .bind (permitted_reads (.bind (writes_inTrx writes_selectForUpdate) fun total => ?_))
    fun amount => .bind (each_inTrx fun d ws b hexec w hw => ?_) fun _ => trivial
  · refine .bind (writes_inTrx writes_select) fun count => ?_
    split <;> trivial
  · obtain ⟨p, hp, hexec⟩ := bind_ok hexec
    obtain ⟨ws', hinsert, hexec⟩ := bind_ok hexec
    cases hexec
    obtain ⟨m, -, hp⟩ := bind_ok hp
    cases hp
    obtain ⟨-, rfl⟩ := insertRow_plain (by decide) hinsert
    rw [List.mem_singleton.1 hw]
    exact .granted (.owed rfl hid)

/-! ### Members -/

theorem permitted_register {env : AuthEnv} {dto : RegisterDto} {hashedPassword : String} :
    Permitted role callers (register env dto hashedPassword) := by
  unfold register
  split
  · trivial
  · exact .bind (permitted_createUser rfl rfl) fun _ => trivial

theorem permitted_login {compare : String → String → Bool} {env : AuthEnv}
    {identifier inputPassword : String} :
    Permitted role callers (login compare env identifier inputPassword) := by
  refine .bind (permitted_reads (writes_onPool writes_select)) fun found => ?_
  cases found with
  | none => trivial
  | some user =>
      dsimp only
      split
      · trivial
      · split
        · exact .bind permitted_newOtp fun _ => trivial
        · trivial

theorem permitted_resendOtp {env : AuthEnv} {userId : Uuid} :
    Permitted role callers (resendOtp env userId) := by
  refine .bind (permitted_of_within within_findByIdIncludeOtp) fun user => ?_
  split
  · trivial
  · split
    · trivial
    · exact .bind permitted_newOtp fun _ => trivial

theorem permitted_createLoan {id userId loanPeriodId : Uuid} {amount : ℚ} {notes : Option String}
    {adminFeeRate : ℚ} (hid : callers userId) :
    Permitted role callers (createLoan id userId loanPeriodId amount notes adminFeeRate now) := by
  refine .bind (permitted_reads (writes_onPool writes_select)) fun found => ?_
  cases found with
  | none => trivial
  | some loanPeriod =>
      refine each_onPool (WritesAllowed.commitsWithin fun d ws b hexec w hw => ?_)
      obtain ⟨loan, hloan, hexec⟩ := bind_ok (catchError_ok hexec)
      obtain ⟨ws', hinsert, hexec⟩ := bind_ok hexec
      cases hexec
      obtain ⟨-, rfl⟩ := insertRow_plain (by decide) hinsert
      rw [List.mem_singleton.1 hw]
      have hnew := newLoan_ok hloan
      exact .granted (.asked hnew.status (by rw [hnew.userId]; exact hid))

/-! ### Administrators -/

theorem permitted_approveUser {ids : IncomeIds} {userId adminId : Uuid} {reason : Option String}
    {emailSent : Bool} (hrole : role.operates = true) :
    Permitted role callers (approveUser ids userId reason adminId emailSent now) := by
  refine .bind (permitted_of_within within_usersServiceFindById) fun user => ?_
  split
  · trivial
  · refine .bind (permitted_updateStatus hrole) fun _ => ?_
    refine .bind (permitted_operated hrole operated_settlePrincipalSavings) fun _ => ?_
    refine .bind trivial fun _ => .bind ?_ fun _ => trivial
    exact permitted_of_within within_sendApprovalEmail

theorem permitted_rejectUser {userId : Uuid} {reason : String} {emailSent : Bool}
    (hrole : role.operates = true) : Permitted role callers (rejectUser userId reason emailSent) := by
  refine .bind (permitted_of_within within_usersServiceFindById) fun user => ?_
  split
  · trivial
  · refine .bind (permitted_updateStatus hrole) fun _ => ?_
    exact .bind trivial fun _ => .bind (permitted_of_within within_sendApprovalEmail) fun _ => trivial

/-! ### Sessions -/

/-- What a contract has to know: no commit changes an identity, and a commit within the bounds of the
role may be made. -/
structure AuthorityContract (S : Contract Database LockTarget Label) (role : UserRole)
    (callers : Uuid → Prop) : Prop where
  identities : ∀ {l d d' id i}, S.env l d d' → d.identities id = some i → d'.identities id = some i
  commit : ∀ {l d d'}, ChangedBy role callers d d' → S.guar l d d'

/-- A session that holds back allowed writes. -/
def Authorized (role : UserRole) (callers : Uuid → Prop) (d : Database) (s : Trx) : Prop :=
  ∀ w ∈ s.log, w.Allowed role callers d

section Sessions

variable {S : Contract Database LockTarget Label} {s : Trx}

theorem Authorized.env (hS : AuthorityContract S role callers) (h : Authorized role callers d s)
    (henv : S.env s.locks d d') : Authorized role callers d' s :=
  fun w hw => (h w hw).congr (hS.identities henv)

theorem authorized_session (hS : AuthorityContract S role callers) :
    Prog.SessionInvariant S (fun _ st => CommitsWithin role callers st)
      (fun _ st => WritesAllowed role callers st) (Authorized role callers) where
  env henv h := h.env hS henv
  auto {β d s ws b st} hst h hexec := by
    have hchanged := hst d ws b hexec
    exact ⟨hS.commit hchanged, fun w hw => (h w hw).congr hchanged.identities⟩
  stmt {β d s ws b st} hst h hexec := by
    intro w hw
    rcases List.mem_append.1 hw with hw | hw
    · exact h w hw
    · refine (hst _ _ _ hexec w hw).congr fun {id i} hid => ?_
      rwa [Session.view, identities_allowed h] at hid
  commit {d s} h := ⟨hS.commit (changedBy_allowed h), fun w hw => by cases hw⟩

theorem Permitted.preserves (hS : AuthorityContract S role callers) {α : Type} {p : Program α}
    (hp : Permitted role callers p) : p.Preserves S (Authorized role callers) :=
  Prog.Each.preserves (authorized_session hS) hp

theorem preserves_verifyOtp (hS : AuthorityContract S role callers) {env : AuthEnv} {userId : Uuid}
    {otpCode : String} (hid : callers userId) :
    (verifyOtp env userId otpCode).Preserves S (Authorized role callers) := by
  intro d s h
  unfold verifyOtp findByIdIncludeOtp findUserById
  split
  · trivial
  rw [Prog.wp_bind', Prog.wp_bind']
  refine wp_selectOnPool fun d₁ henv₁ => ?_
  cases hfound : d₁.find .users userId with
  | none => trivial
  | some u =>
      obtain rfl : u.id = userId := Database.find_id hfound
      dsimp only [Option.map_some]
      rw [Prog.wp_pure]
      split
      · trivial
      · have hrest : Permitted role callers (usersServiceUpdateInTrx u.selectById.id verification >>=
            fun updatedUser => createPrincipalSavings env.id u.id env.principalSavingsMinAmount >>= fun _ =>
              (commitTrx >>= fun _ => pure (.verified updatedUser "OTP verified successfully!", none) :
                Program Answer)) :=
          .bind (permitted_verification hid) fun _ =>
            .bind (permitted_createPrincipalSavings hid) fun _ => trivial
        exact hrest.preserves hS _ _ (h.env hS henv₁)

end Sessions

/-! ### Routes -/

section Routes

variable {context : ApiContext} {S : Contract Database LockTarget Label} {env : AuthEnv}

theorem PublicRoute.permitted (route : PublicRoute) :
    Permitted role callers (route.handle context env) := by
  cases route with
  | login => exact .bind permitted_login fun _ => trivial
  | register => exact .bind permitted_register fun _ => trivial

theorem mem_of_canActivate {rs : List UserRole} {user : UserJWT} (hrs : rs ≠ [])
    (huser : user.role = some role) (h : canActivate (some rs) none user = .ok ()) : role ∈ rs := by
  cases rs with
  | nil => exact absurd rfl hrs
  | cons r rs =>
      by_contra hmem
      have hcanActivate : canActivate (some (r :: rs)) none user =
          .error (.httpException 403 (insufficientPermissionsMessage role)) := by
        simp only [canActivate, huser]
        exact if_neg hmem
      rw [hcanActivate] at h
      cases h

theorem operates_of_mem (h : role ∈ [UserRole.admin, .superadmin]) : role.operates = true := by
  simpa [UserRole.operates] using h

theorem reads_select {α : Type} {read : Database → α} :
    (onPool (select read)).Writes fun _ => False := writes_onPool writes_select

theorem reads_paginateBy {α : Type} {o : OrderBy α} {plan : Plan o} {rows : Database → List α}
    {page limit : ℕ} : (paginateBy plan rows page limit).Writes fun _ => False :=
  .bind reads_select fun _ => .bind reads_select fun _ => trivial

theorem reads_forEachPage {α σ : Type} {fetch : ℕ → Program (Page α)} {step : σ → α → σ}
    (hfetch : ∀ page, (fetch page).Writes fun _ => False) (fuel page : ℕ) (state : σ) :
    (forEachPage fetch step fuel page state).Writes fun _ => False := by
  induction fuel generalizing page state with
  | zero => trivial
  | succ fuel ih =>
      refine .bind (hfetch page) fun result => ?_
      dsimp only
      split
      · exact ih _ _
      · trivial

/-- What a handler does that is open to all. -/
theorem ApiRoute.preserves_handle_of_roles_none (hS : AuthorityContract S role callers)
    {route : ApiRoute context} (hroute : route.roles = none) {now : Instant} {user : UserJWT}
    (hid : callers user.id) :
    (route.handle env now user).Preserves S (Authorized role callers) := by
  have hreads : ∀ {α : Type} {p : Program α}, p.Writes (fun _ => False) →
      p.Preserves S (Authorized role callers) := fun hp => (permitted_reads hp).preserves hS
  cases route with
  | verifyOtp => exact .bind (preserves_verifyOtp hS hid) fun _ => Prog.preserves_pure
  | resendOtp => exact .bind (permitted_resendOtp.preserves hS) fun _ => Prog.preserves_pure
  | getProfile =>
      exact .bind ((permitted_of_within within_usersServiceFindById).preserves hS) fun _ =>
        Prog.preserves_pure
  | getMyLoans => exact .bind (hreads reads_select) fun _ => Prog.preserves_pure
  | getMySavings => exact .bind (hreads reads_select) fun _ => Prog.preserves_pure
  | getLoanPeriods => exact .bind (hreads reads_select) fun _ => Prog.preserves_pure
  | calculateLoan =>
      refine .bind (.bind (hreads reads_select) fun found => ?_) fun _ => Prog.preserves_pure
      cases found
      · exact Prog.preserves_throw
      · exact Prog.preserves_pure
  | createLoan =>
      rw [ApiRoute.handle]
      split
      · exact Prog.preserves_throw
      · exact .bind ((permitted_createLoan hid).preserves hS) fun _ => Prog.preserves_pure
  | findInstallments =>
      refine .bind (.bind (hreads reads_select) fun found => ?_) fun _ => Prog.preserves_pure
      cases found with
      | none => exact Prog.preserves_throw
      | some found =>
          dsimp only
          split
          · exact Prog.preserves_throw
          · exact hreads reads_select
  | findOneLoan =>
      refine .bind (.bind (hreads reads_select) fun found => ?_) fun _ => Prog.preserves_pure
      cases found with
      | none => exact Prog.preserves_throw
      | some found =>
          dsimp only
          split
          · exact Prog.preserves_throw
          · exact Prog.preserves_pure
  | findUserMandatorySavings =>
      rw [ApiRoute.handle]
      split
      · exact Prog.preserves_throw
      refine .bind ?_ fun _ => Prog.preserves_pure
      unfold LumbungMesari.findUserMandatorySavings
      split
      · exact Prog.preserves_throw
      · exact hreads reads_paginateBy
  | getBalances => exact .bind (hreads reads_select) fun _ => Prog.preserves_pure
  | getTransactions =>
      exact .bind (.bind (hreads reads_select) fun _ => .bind (hreads reads_select) fun _ =>
        Prog.preserves_pure) fun _ => Prog.preserves_pure
  | expenses route =>
      have hroles := route.roles_eq
      rw [ApiRoute.roles, hroles] at hroute
      cases hroute
  | _ => cases hroute

/-- What a handler does that asks for roles. -/
theorem ApiRoute.preserves_handle_of_roles_some (hS : AuthorityContract S role callers)
    {route : ApiRoute context} {rs : List UserRole} (hroute : route.roles = some rs)
    (hrole : role ∈ rs) {now : Instant} {user : UserJWT} :
    (route.handle env now user).Preserves S (Authorized role callers) := by
  have hreads : ∀ {α : Type} {p : Program α}, p.Writes (fun _ => False) →
      p.Preserves S (Authorized role callers) := fun hp => (permitted_reads hp).preserves hS
  cases route with
  | findAllUsers =>
      cases hroute
      exact .bind (hreads reads_paginateBy) fun _ => Prog.preserves_pure
  | approveUser =>
      cases hroute
      exact .bind ((permitted_approveUser (operates_of_mem hrole)).preserves hS) fun _ =>
        Prog.preserves_pure
  | rejectUser =>
      cases hroute
      exact .bind ((permitted_rejectUser (operates_of_mem hrole)).preserves hS) fun _ =>
        Prog.preserves_pure
  | findAllLoans =>
      cases hroute
      exact .bind (hreads reads_paginateBy) fun _ => Prog.preserves_pure
  | approveLoan =>
      cases hroute
      obtain rfl := List.mem_singleton.1 hrole
      exact .bind (permitted_decideLoan.preserves hS) fun _ => Prog.preserves_pure
  | rejectLoan =>
      cases hroute
      obtain rfl := List.mem_singleton.1 hrole
      exact .bind (permitted_decideLoan.preserves hS) fun _ => Prog.preserves_pure
  | disburseLoan =>
      cases hroute
      obtain rfl := List.mem_singleton.1 hrole
      exact .bind (permitted_disburseLoan.preserves hS) fun _ => Prog.preserves_pure
  | settleInstallment =>
      cases hroute
      exact .bind ((permitted_operated (operates_of_mem hrole)
        operated_settleInstallment).preserves hS) fun _ => Prog.preserves_pure
  | findAllMandatorySavings =>
      refine .bind ?_ fun _ => Prog.preserves_pure
      unfold LumbungMesari.findAllMandatorySavings
      split
      · exact Prog.preserves_throw
      · exact hreads reads_paginateBy
  | generateRemainingYearSavings =>
      cases hroute
      refine .bind ((permitted_operated (operates_of_mem hrole) ?_).preserves hS) fun _ =>
        Prog.preserves_pure
      exact operated_of_within [.mandatorySavings] (within_generateRemainingYearSavings (by simp))
        (by simp [TableName.operated])
  | settleMandatorySavings =>
      cases hroute
      exact .bind ((permitted_operated (operates_of_mem hrole)
        operated_settleMandatorySavings).preserves hS) fun _ => Prog.preserves_pure
  | generateMandatorySavingsReport =>
      refine .bind (.bind (hreads (reads_forEachPage (fun _ => reads_paginateBy) _ _ _))
        fun members => ?_) fun _ => Prog.preserves_pure
      cases members with
      | none => exact Prog.preserves_pure
      | some members =>
          exact .bind (hreads (reads_forEachPage (fun _ => reads_paginateBy) _ _ _)) fun _ =>
            Prog.preserves_pure
  | expenses route =>
      rw [ApiRoute.roles, route.roles_eq] at hroute
      cases hroute
      exact .bind ((permitted_operated (operates_of_mem hrole) operated_expenses).preserves hS)
        fun _ => Prog.preserves_pure
  | _ => cases hroute

theorem ApiRoute.preserves_handle (hS : AuthorityContract S role callers) {route : ApiRoute context}
    {now : Instant} {user : UserJWT} (hid : callers user.id) (huser : user.role = some role)
    (hguard : canActivate route.roles none user = .ok ()) :
    (route.handle env now user).Preserves S (Authorized role callers) := by
  cases hroles : route.roles with
  | none => exact route.preserves_handle_of_roles_none hS hroles hid
  | some rs =>
      rw [hroles] at hguard
      have hrs : rs ≠ [] := by
        rintro rfl
        cases route <;> first | cases hroles | skip
        rename_i route
        rw [ApiRoute.roles, route.roles_eq] at hroles
        cases hroles
      exact route.preserves_handle_of_roles_some hS hroles (mem_of_canActivate hrs huser hguard)

end Routes

/-! ### Requests -/

section Requests

variable {context : ApiContext} {roles : Uuid → UserRole}

/-- The protocol of the controllers: the roles stay, and a commit keeps to the bounds of its role. -/
def authorityProtocol (context : ApiContext) (roles : Uuid → UserRole) :
    Protocol Database LockTarget Label (ApiRequest context) where
  inv d := d.roleFor = roles
  allows _ _ := True
  guar request _ d d' :=
    ChangedBy (request.role roles) (fun id => request.caller = some id) d d'
  keeps hinv hchanged := hchanged.roleFor.trans hinv

theorem authorityContract_spec (request : ApiRequest context) :
    AuthorityContract ((authorityProtocol context roles).contract request) (request.role roles)
      fun id => request.caller = some id where
  identities {l d d' id i} henv hid :=
    Protocol.Env.stable (p := fun d => d.identities id = some i) (fun hother hid => by
      obtain ⟨_, _, _, _, _, _, _, hchanged⟩ := hother
      exact hchanged.identities hid) henv hid
  commit h := h

theorem ApiRequest.wp (request : ApiRequest context) (d : Database) (hd : d.roleFor = roles) :
    request.program.wp ((authorityProtocol context roles).contract request) (fun _ _ _ => True) d
      .idle := by
  have hS : AuthorityContract ((authorityProtocol context roles).contract request)
      (request.role roles) fun id => request.caller = some id := authorityContract_spec request
  have hidle : ∀ d, Authorized (request.role roles) (fun id => request.caller = some id) d .idle :=
    fun d w hw => by cases hw
  refine Prog.wp_bind'.2 ?_
  cases request with
  | unguarded env refusal route =>
      cases refusal with
      | some refusal => trivial
      | none =>
          exact Prog.wp_mono (fun _ _ _ _ => trivial)
            (route.permitted.preserves hS d .idle (hidle d))
  | guarded env now sub refusal route =>
      cases sub with
      | none => trivial
      | some sub =>
          refine Prog.wp_bind'.2 (Prog.wp_bind'.2 ?_)
          refine Prog.wp_bind'.2 (wp_selectOnPool fun d₁ henv => ?_)
          have hroles : d₁.roleFor = roles := Protocol.Env.inv henv hd
          cases hfound : d₁.find .users sub with
          | none => trivial
          | some u =>
              obtain rfl : u.id = sub := Database.find_id hfound
              have hrole : roles u.id = u.roleId := by
                rw [← hroles, Database.roleFor, Database.identities, hfound]
                rfl
              rw [Option.map_some, validateJwt]
              split
              · trivial
              rename_i user huser
              split at huser
              · cases huser
              have hsame : user.id = u.id ∧ user.role = some (roles u.id) := by
                cases huser
                exact ⟨rfl, congrArg some hrole.symm⟩
              rw [Prog.wp_pure]
              cases hguard : canActivate route.roles none user with
              | error e => trivial
              | ok allowed =>
                  cases refusal with
                  | some refusal => trivial
                  | none =>
                      change (route.handle env now user).wp _ (fun _ _ _ => True) d₁ .idle
                      exact Prog.wp_mono (fun _ _ _ _ => trivial) (route.preserves_handle hS
                        (congrArg some hsame.1.symm) hsame.2 hguard d₁ .idle (hidle d₁))

/-- The commits of a history keep to the bounds of a role that is high enough for all of them. -/
theorem changedBy_of_reach {callers : Uuid → Prop} {d₀ : Database}
    {s : Sys Database Write LockTarget Label Error (ApiRequest context)}
    (hreach : Sys.Reach ApiRequest.program (Sys.start d₀) s)
    (hrole : ∀ request ∈ s.history, (request.role d₀.roleFor).rank ≤ role.rank)
    (hcallers : ∀ request ∈ s.history, ∀ id, request.caller = some id → callers id) :
    ChangedBy role callers d₀ s.committed := by
  let protocol := authorityProtocol context d₀.roleFor
  let J : List (ApiRequest context) → Database → Prop := fun history d =>
    (∀ request ∈ history, (request.role d₀.roleFor).rank ≤ role.rank ∧
      ∀ id, request.caller = some id → callers id) → ChangedBy role callers d₀ d
  have hstep : ∀ {history request l d d'}, protocol.inv d → J history d →
      protocol.guar request l d d' → J (history ++ [request]) d' := by
    intro history request l d d' _ hJ hchanged hall
    obtain ⟨hrank, hcaller⟩ := hall request (by simp)
    exact (hJ fun request' h => hall request' (List.mem_append_left _ h)).trans
      (hchanged.mono hrank hcaller)
  have hstart : J [] d₀ := fun _ => .refl
  have hend : J s.history s.committed := Protocol.history_inv (P := protocol)
    (fun request d hd => request.wp d hd) hstep (Protocol.good_start rfl) hstart hreach
  exact hend fun request h => ⟨hrole request h, hcallers request h⟩

/-- **Authority.** Under any overlap of requests, what has become of the database is within the bounds
of the highest role that a committed request was made in: nobody's role or password has changed, and
whoever has registered is a member. Without a superadministrator no loan has been decided on. Without
an administrator no money has moved, no member has been admitted, and what is new are the loans that
the callers ask for and the deposits they owe. -/
theorem authority {d₀ : Database}
    {s : Sys Database Write LockTarget Label Error (ApiRequest context)}
    (hreach : Sys.Reach ApiRequest.program (Sys.start d₀) s)
    (hrole : ∀ request ∈ s.history, (request.role d₀.roleFor).rank ≤ role.rank) :
    ChangedBy role (fun id => ∃ request ∈ s.history, request.caller = some id) d₀ s.committed :=
  changedBy_of_reach hreach hrole fun request h _ hcaller => ⟨request, h, hcaller⟩

end Requests

/-! ### A member, a newcomer and an administrator -/

def seededApi : ApiContext where
  toListContext := seededContext
  offset := utcOffset
  mandatorySavings id := ⟨id, id⟩
  cashbookTransactions id := id
  adminFeeRate := 2 / 100
  localeCompare := .ofLinearOrder String
  mandatorySavingsAmount := none
  compare inputPassword password := inputPassword = password

/-- A request of a user, on the fifth of January. -/
def requestOf (sub : Uuid) (route : ApiRoute seededApi) : ApiRequest seededApi :=
  .guarded (drawing 0 10) ⟨⟨2026, 1, 5⟩, .midnight⟩ (some sub) none route

/-- A member asks for a loan and tries to decide on it, while somebody registers and an administrator
generates the savings of the year. -/
def overlappingRequests : List (Event Error (ApiRequest seededApi)) :=
  [.call (requestOf 3 (.createLoan 1 1 3000000 none)),
    .call (.unguarded (drawing 0 10) none
      (.register ⟨"sari@gmail.com", "rahasia", "rahasia", "Sari", "sari"⟩ "rahasia")),
    .call (requestOf 3 (.approveLoan 1 none)),
    .call (requestOf 1 (.generateRemainingYearSavings id)),
    .run 0, .run 1, .run 0, .run 3, .run 1, .run 1, .run 0, .run 2, .run 3, .run 3, .run 3, .run 2]

theorem authority_overlappingRequests :
    ∃ s : Sys Database Write LockTarget Label Error (ApiRequest seededApi),
      Sys.Reach ApiRequest.program (Sys.start seeded) s ∧ s.history.length = 3 ∧
      ChangedBy .admin (fun id => ∃ request ∈ s.history, request.caller = some id) seeded
        s.committed := by
  have hexec : ((Sys.start seeded).exec ApiRequest.program (fun _ _ => true)
      overlappingRequests).any (fun s => s.history.length = 3 ∧
        s.history.all fun request => (request.role seeded.roleFor).rank ≤ UserRole.admin.rank) =
      true := by
    decide +kernel
  obtain ⟨s, hs, h⟩ := Option.any_eq_true .. |>.1 hexec
  rw [decide_eq_true_eq] at h
  refine ⟨s, Sys.reach_of_exec hs, h.1, authority (Sys.reach_of_exec hs) fun request hrequest => ?_⟩
  simpa using List.all_eq_true.1 h.2 request hrequest

end LumbungMesari
