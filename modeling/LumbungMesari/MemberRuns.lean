import LumbungMesari.IncomeRules
import LumbungMesari.LoanSteps
import LumbungMesari.MemberFile
import LumbungMesari.OtpRuns

/-!
# Concurrent verifications, approvals and rejections

`verifyOtp`, `approveUser` and `rejectUser` decide on reads without a lock. What keeps them apart is
that each writes to the user row before anything else, and that the principal savings of a user are
unique: from that write on nothing else on the user commits.
-/

namespace LumbungMesari

open Sql
open Prog (inTrx onPool commitTrx)

/-! ### What the calls commit -/

/-- The income of settled principal savings. -/
def principalSavingsIncome (ids : IncomeIds) (principalSavings : PrincipalSavings) (user : User) :
    IncomeSpec where
  data := ⟨"Simpanan Pokok", principalSavings.amount.toRat, none, none, some principalSavings.id, none,
    s!"Simpanan pokok dari {user.fullname}"⟩
  ids := ids
  destination := .capital

/-- A state in which a user has been verified, up to the new savings. -/
def verifyingMember (u : User) (d : Database) : Database :=
  d.apply (.update .users (u.update verification))

/-- A state in which a user has been approved, up to the income. -/
def approvingMember (u : User) (principalSavings : PrincipalSavings) (adminId : Uuid) (now : Date)
    (d : Database) : Database :=
  (d.apply (.update .users (u.setStatus .active))).apply
    (.update .principalSavings (principalSavings.settle adminId now))

def Database.activeMemberCount (d : Database) : ℕ :=
  (d.rows .users).countP fun u => u.status = .active ∧ u.roleId = .member

/-- The principal savings that are asked of a new member. -/
def Database.principalSavingsAmount (configured : Option ℚ) (d : Database) : ℚ :=
  if d.activeMemberCount = 0 then getMinimumAmount configured
  else ⌊d.balance .total / d.activeMemberCount⌋

/-- What the calls on a user commit. The status update was admitted in the state it is made in. -/
inductive MemberCommit (allows : Label → Database → Prop) (userId : Uuid) (d : Database) :
    MemberCall → Database → Prop where
  | verified {env : AuthEnv} {otpCode : String} {u : User} {row : PrincipalSavings}
      (found : d.find .users userId = some u)
      (inserted : Inserted (verifyingMember u d) .principalSavings row) (mine : row.userId = userId)
      (pending : row.status = .pending) :
      MemberCommit allows userId d (.verifyOtp env otpCode)
        ((verifyingMember u d).apply (.insert .principalSavings row))
  | approved {ids : IncomeIds} {reason : Option String} {adminId : Uuid} {emailSent : Bool}
      {now : Date} {u user : User} {principalSavings : PrincipalSavings} {inc : Income}
      {r : CashbookTransaction} (found : d.find .users userId = some u)
      (allowed : allows (.updateUserStatus userId) d)
      (owed : principalSavings ∈ d.rows .principalSavings)
      (mine : principalSavings.userId = userId) (unpaid : principalSavings.status ≠ .paid)
      (recorded : Recorded (approvingMember u principalSavings adminId now d)
        (principalSavingsIncome ids principalSavings user).data ids .capital inc r) :
      MemberCommit allows userId d (.approveUser ids reason adminId emailSent now)
        (applyAll (approvingMember u principalSavings adminId now d) (recording inc r))
  | rejected {reason : String} {emailSent : Bool} {u : User}
      (found : d.find .users userId = some u) (allowed : allows (.updateUserStatus userId) d) :
      MemberCommit allows userId d (.rejectUser reason emailSent)
        (d.apply (.update .users (u.setStatus .rejected)))

/-! ### The calls -/

section Calls

variable {S : Contract Database LockTarget Label} {d : Database} {userId : Uuid}

/-- Nothing commits while a call holds the user row as a writer. -/
def SerialOn (userId : Uuid) (S : Contract Database LockTarget Label) : Prop :=
  ∀ {l d d'}, (LockTarget.row .users userId, LockMode.noKeyUpdate) ∈ l → S.env l d d' → d = d'

theorem findUserById_wp {s : Trx} {Q : Option FoundUser → Database → Trx → Prop}
    (h : ∀ d', S.env s.locks d d' → Q ((d'.find .users userId).map User.selectById) d' s) :
    (findUserById userId).wp S Q d s := wp_selectOnPool h

theorem findByIdIncludeOtp_wp {s : Trx} {Q : FoundUser → Database → Trx → Prop}
    (h : ∀ d' u, S.env s.locks d d' → d'.find .users userId = some u → Q u.selectById d' s) :
    (findByIdIncludeOtp userId).wp S Q d s := by
  unfold findByIdIncludeOtp
  rw [Prog.wp_bind']
  refine findUserById_wp fun d' henv => ?_
  cases hu : d'.find .users userId with
  | none => trivial
  | some u => exact h d' u henv hu

theorem usersServiceFindById_wp {s : Trx} {Q : FoundUser → Database → Trx → Prop}
    (h : ∀ d' u, S.env s.locks d d' → d'.find .users userId = some u → Q u.selectById.safe d' s) :
    (usersServiceFindById userId).wp S Q d s := by
  unfold usersServiceFindById
  rw [Prog.wp_bind']
  refine findUserById_wp fun d' henv => ?_
  cases hu : d'.find .users userId with
  | none => trivial
  | some u => exact h d' u henv hu

theorem usersServiceUpdateInTrx_wp [S.Stable (W := Write)] {data : UpdateUserDto}
    {Q : User → Database → Trx → Prop}
    (h : ∀ d' u l, S.env [] d d' → d'.find .users userId = some u →
      (LockTarget.row .users userId, LockMode.noKeyUpdate) ∈ l →
      Q (u.update data) d' (Session.idle.extend [.update .users (u.update data)] l)) :
    (usersServiceUpdateInTrx userId data).wp S Q d .idle := by
  unfold usersServiceUpdateInTrx findUserByIdInTrx updateUserInTrx
  rw [Prog.wp_bind']
  refine wp_select fun d₁ henv₁ => ?_
  split
  · trivial
  refine updateOrThrow_wp (by decide) fun d₂ u new l henv₂ hfind hset _ _ hlock => ?_
  obtain rfl : u.update data = new := Except.ok.inj hset
  rw [Session.view_idle] at hfind
  have hid : Row.id .users (u.update data) = userId :=
    show u.id = userId from Database.find_id hfind
  rw [hid] at hlock
  exact h d₂ u l (env_trans henv₁ henv₂) hfind hlock

theorem calculatePrincipalSavingsAmount_wp (hserial : SerialOn userId S) {configured : Option ℚ}
    {s : Trx} {Q : ℚ → Database → Trx → Prop}
    (hlock : (LockTarget.row .users userId, LockMode.noKeyUpdate) ∈ s.locks)
    (h : ∀ l, Q ((s.view d).principalSavingsAmount configured) d (s.extend [] l)) :
    (calculatePrincipalSavingsAmount configured).wp S Q d s := by
  unfold calculatePrincipalSavingsAmount getBalance getActiveMemberCount
  simp only [Prog.wp_bind']
  refine wp_selectForUpdate fun d₁ l₁ henv₁ _ => wp_select fun d₂ henv₂ => ?_
  obtain rfl : d = d₁ := hserial hlock henv₁
  obtain rfl : d = d₂ := hserial (List.mem_append_left _ hlock) henv₂
  have hamount := h l₁
  unfold Database.principalSavingsAmount Database.activeMemberCount at hamount
  rw [Session.view_extend_nil]
  split
  · rw [if_pos ‹_›] at hamount
    exact hamount
  · rw [if_neg ‹_›] at hamount
    exact hamount

theorem createPrincipalSavings_wp (hserial : SerialOn userId S) {id : Uuid} {configured : Option ℚ}
    {s : Trx} {Q : Unit → Database → Trx → Prop}
    (hlock : (LockTarget.row .users userId, LockMode.noKeyUpdate) ∈ s.locks)
    (h : ∀ row l, Inserted (s.view d) .principalSavings row → row.userId = userId →
      row.status = .pending →
      Numeric.ofRat? ((s.view d).principalSavingsAmount configured) = some row.amount →
      Q () d (s.extend [.insert .principalSavings row] l)) :
    (createPrincipalSavings id userId configured).wp S Q d s := by
  unfold createPrincipalSavings
  simp only [Prog.wp_bind']
  refine calculatePrincipalSavingsAmount_wp hserial hlock fun l₁ => ?_
  refine wp_insertInto fun d₂ row ws l henv₂ hrow hrows _ => ?_
  obtain rfl : d = d₂ := hserial (List.mem_append_left _ hlock) henv₂
  obtain ⟨hinserted, rfl⟩ := insertRow_plain (by decide) hrows
  obtain ⟨_, hamount, hrow⟩ := bind_ok hrow
  cases hrow
  rw [Session.view_extend_nil] at hinserted
  rw [extend_extend]
  exact h _ _ hinserted rfl rfl (money_ok hamount)

theorem checkOtp_pending {now : Timestamp} {otpCode : String} {user : FoundUser}
    (h : checkOtp now otpCode user = .ok ()) : user.status = .pending := by
  unfold checkOtp at h
  split at h
  · cases h
  · exact not_not.1 ‹_›

theorem verifyOtp_wp [S.Stable (W := Write)] (hserial : SerialOn userId S) {env : AuthEnv}
    {otpCode : String}
    {Q : Answer → Database → Trx → Prop}
    (h : ∀ d₁ u₁ d' u row l a, S.env [] d d₁ → d₁.find .users userId = some u₁ →
      u₁.status = .pending → S.env [] d₁ d' → d'.find .users userId = some u →
      Inserted (verifyingMember u d') .principalSavings row → row.userId = userId →
      row.status = .pending →
      Numeric.ofRat? ((verifyingMember u d').principalSavingsAmount env.principalSavingsMinAmount) =
        some row.amount →
      (LockTarget.row .users userId, LockMode.noKeyUpdate) ∈ l →
      S.guar l d' ((verifyingMember u d').apply (.insert .principalSavings row)) ∧
        Q a ((verifyingMember u d').apply (.insert .principalSavings row)) .idle) :
    (verifyOtp env userId otpCode).wp S Q d .idle := by
  unfold verifyOtp
  split
  · trivial
  rw [Prog.wp_bind']
  refine findByIdIncludeOtp_wp fun d₁ u₁ henv₁ hu₁ => ?_
  split
  · trivial
  rename_i hchecked
  have hid : u₁.selectById.id = userId := Database.find_id hu₁
  rw [hid, Prog.wp_bind']
  refine usersServiceUpdateInTrx_wp fun d₂ u l henv₂ hu hlock => ?_
  rw [Prog.wp_bind']
  refine createPrincipalSavings_wp hserial (List.mem_append_right _ hlock)
    fun row l' hinserted hmine hpending hamount => ?_
  rw [Prog.wp_bind']
  refine Prog.wp_commitTrx.2 fun d₃ henv₃ => ?_
  have hlocked := List.mem_append_left l' (List.mem_append_right
    (Session.idle (W := Write) (K := LockTarget)).locks hlock)
  obtain rfl : d₂ = d₃ := hserial hlocked henv₃
  rw [extend_extend, Session.view_extend]
  rw [Session.view_extend] at hinserted hamount
  exact h d₁ u₁ d₂ u row _ _ henv₁ hu₁ (checkOtp_pending hchecked) henv₂ hu hinserted hmine hpending
    hamount hlocked

theorem updateStatus_wp {status : UserStatus} {Q : User → Database → Trx → Prop}
    (h : ∀ d' u l, S.env [] d d' → d'.find .users userId = some u →
      S.allows (.updateUserStatus userId) d' →
      (LockTarget.row .users userId, LockMode.noKeyUpdate) ∈ l →
      Q (u.setStatus status) d' (Session.idle.extend [.update .users (u.setStatus status)] l)) :
    (updateStatus userId status).wp S Q d .idle := by
  unfold updateStatus
  refine updateOrThrow_wp (by decide) fun d' u new l henv hfind hset _ hallowed hlock => ?_
  obtain rfl : u.setStatus status = new := Except.ok.inj hset
  rw [Session.view_idle] at hfind hallowed
  have hid : Row.id .users (u.setStatus status) = userId :=
    show u.id = userId from Database.find_id hfind
  rw [hid] at hlock
  exact h d' u l henv hfind hallowed hlock

theorem sendApprovalEmail_wp {user : FoundUser} {action : ApprovalAction} {reason : Option String}
    {emailSent : Bool} {s : Trx} {Q : ApprovalMail → Database → Trx → Prop}
    (h : ∀ mail, Q mail d s) : (sendApprovalEmail user action reason emailSent).wp S Q d s := by
  unfold sendApprovalEmail
  split
  · exact h _
  · trivial

theorem principalSavingsWithUser_some {principalSavings : PrincipalSavings} {user : User}
    (h : d.principalSavingsWithUser userId = some (principalSavings, user)) :
    principalSavings ∈ d.rows .principalSavings ∧ principalSavings.userId = userId := by
  obtain ⟨row, hrow, hjoin⟩ := Option.bind_eq_some_iff.1 h
  obtain ⟨_, -, hpair⟩ := Option.map_eq_some_iff.1 hjoin
  cases hpair
  exact ⟨List.mem_of_find?_eq_some hrow, by simpa using List.find?_some hrow⟩

theorem settlePrincipalSavings_wp [S.Stable (W := Write)] (hserial : SerialOn userId S)
    {ids : IncomeIds} {adminId : Uuid}
    {now : Date} {s : Trx} {Q : Unit → Database → Trx → Prop}
    (hlock : (LockTarget.row .users userId, LockMode.noKeyUpdate) ∈ s.locks)
    (h : ∀ principalSavings user inc r l, principalSavings ∈ (s.view d).rows .principalSavings →
      principalSavings.userId = userId → principalSavings.status ≠ .paid →
      Recorded ((s.view d).apply (.update .principalSavings (principalSavings.settle adminId now)))
        (principalSavingsIncome ids principalSavings user).data ids .capital inc r →
      Q () d (s.extend (.update .principalSavings (principalSavings.settle adminId now) ::
        recording inc r) l)) :
    (settlePrincipalSavings ids userId adminId now).wp S Q d s := by
  unfold settlePrincipalSavings findPrincipalSavingsByUserId updatePrincipalSavings
  rw [Prog.wp_bind']
  refine wp_select fun d₁ henv₁ => ?_
  obtain rfl : d = d₁ := hserial hlock henv₁
  split
  · trivial
  rename_i principalSavings user hread
  split
  · trivial
  rename_i hunpaid
  obtain ⟨howed, hmine⟩ := principalSavingsWithUser_some hread
  rw [Prog.wp_bind']
  refine updateOrThrow_wp (by decide) fun d₂ old new l₂ henv₂ hfind hset _ _ _ => ?_
  obtain rfl : d = d₂ := hserial hlock henv₂
  obtain rfl : principalSavings = old :=
    Option.some.inj ((Table.find?_of_mem howed).symm.trans hfind)
  obtain rfl : principalSavings.settle adminId now = new := Except.ok.inj hset
  unfold createPrincipalSavingsIncome
  simp only [Prog.wp_bind']
  refine record_wp ids fun d₃ inc r l₃ henv₃ hrecorded _ => ?_
  obtain rfl : d = d₃ := hserial (List.mem_append_left _ hlock) henv₃
  rw [Session.view_extend] at hrecorded
  rw [extend_extend, Prog.wp_pure]
  exact h principalSavings user inc r _ howed hmine hunpaid hrecorded

theorem MemberCall.program_wp [S.Stable (W := Write)] (hserial : SerialOn userId S) (x : MemberCall)
    (h : ∀ l d' d'', S.env [] d d' → (LockTarget.row .users userId, LockMode.noKeyUpdate) ∈ l →
      MemberCommit S.allows userId d' x d'' → S.guar l d' d'') :
    (x.program userId).wp S (fun _ _ _ => True) d .idle := by
  cases x with
  | verifyOtp env otpCode =>
      unfold program
      rw [Prog.wp_bind']
      exact verifyOtp_wp hserial
        fun d₁ _ d' u row l a henv₁ _ _ henv hfound hinserted hmine hpending _ hlock =>
          ⟨h l d' _ (env_trans henv₁ henv) hlock
            (.verified hfound hinserted hmine hpending), trivial⟩
  | approveUser ids reason adminId emailSent now =>
      unfold program LumbungMesari.approveUser
      rw [Prog.wp_bind', Prog.wp_bind']
      refine usersServiceFindById_wp fun d₁ u₁ henv₁ _ => ?_
      split
      · trivial
      rw [Prog.wp_bind']
      refine updateStatus_wp fun d₂ u l henv₂ hfound hallowed hlock => ?_
      have hlocked := List.mem_append_right (Session.idle (W := Write) (K := LockTarget)).locks hlock
      rw [Prog.wp_bind']
      refine settlePrincipalSavings_wp hserial hlocked
        fun principalSavings user inc r l' howed hmine hunpaid hrecorded => ?_
      rw [Prog.wp_bind']
      refine Prog.wp_commitTrx.2 fun d₃ henv₃ => ?_
      have hlocked' := List.mem_append_left l' hlocked
      obtain rfl : d₂ = d₃ := hserial hlocked' henv₃
      rw [extend_extend, Session.view_extend]
      rw [Session.view_extend] at howed hrecorded
      refine ⟨h _ d₂ _ (env_trans henv₁ henv₂) hlocked'
        (.approved hfound hallowed ?_ hmine hunpaid hrecorded), ?_⟩
      · rwa [← d₂.rows_update_ne (t := .users) (by decide) (u.setStatus .active)]
      · rw [Prog.wp_bind']
        exact sendApprovalEmail_wp fun _ => trivial
  | rejectUser reason emailSent =>
      unfold program LumbungMesari.rejectUser
      rw [Prog.wp_bind', Prog.wp_bind']
      refine usersServiceFindById_wp fun d₁ u₁ henv₁ _ => ?_
      split
      · trivial
      rw [Prog.wp_bind']
      refine updateStatus_wp fun d₂ u l henv₂ hfound hallowed hlock => ?_
      have hlocked := List.mem_append_right (Session.idle (W := Write) (K := LockTarget)).locks hlock
      rw [Prog.wp_bind']
      refine Prog.wp_commitTrx.2 fun d₃ henv₃ => ?_
      obtain rfl : d₂ = d₃ := hserial hlocked henv₃
      rw [Session.view_extend]
      refine ⟨h _ d₂ _ (env_trans henv₁ henv₂) hlocked
        (.rejected hfound hallowed), ?_⟩
      rw [Prog.wp_bind']
      exact sendApprovalEmail_wp fun _ => trivial

end Calls

/-! ### The file of a member in the database -/

def Database.principalSavingsOf (d : Database) (userId : Uuid) : List PrincipalSavings :=
  (d.rows .principalSavings).filter fun r => r.userId = userId

def forPrincipalSavings (id : Uuid) (inc : Income) : Bool := inc.principalSavingId = some id

def Database.userStatus (d : Database) (userId : Uuid) : Option UserStatus :=
  (d.find .users userId).map (·.status)

def Database.memberFile (d : Database) (userId : Uuid) : MemberFile where
  status := d.userStatus userId
  savings := (d.principalSavingsOf userId).map fun r =>
    (r, (d.rows .incomes).filter (forPrincipalSavings r.id),
      postedAmounts (d.entries (forPrincipalSavings r.id)))

/-- The foreign keys that keep new savings from finding old incomes. -/
structure MemberLinked (d : Database) : Prop where
  incomes : d.IncomesExist
  savings : ∀ inc ∈ d.rows .incomes, ∀ i ∈ inc.principalSavingId, d.find .principalSavings i ≠ none

theorem Database.ForeignKeys.memberLinked {d : Database} (h : d.ForeignKeys) : MemberLinked d where
  incomes := h.linked.incomes
  savings inc hinc i hi := h.find (t := .incomes) hinc (.principalSavings, i) (by
    simp [Row.references, Option.mem_def.1 hi])

section File

variable {d d' : Database} {userId : Uuid}

theorem memberFile_congr (hsavings : d'.table .principalSavings = d.table .principalSavings)
    (hincomes : d'.table .incomes = d.table .incomes)
    (hledger : d'.table .cashbookTransactions = d.table .cashbookTransactions) (userId : Uuid) :
    d'.memberFile userId = ⟨d'.userStatus userId, (d.memberFile userId).savings⟩ := by
  simp only [Database.memberFile, Database.principalSavingsOf, Database.rows, hsavings, hincomes,
    entries_congr hincomes hledger]

theorem MemberLinked.congr (h : MemberLinked d) (hincomes : d'.table .incomes = d.table .incomes)
    (hledger : d'.table .cashbookTransactions = d.table .cashbookTransactions)
    (hsavings : ∀ id, d.find .principalSavings id ≠ none → d'.find .principalSavings id ≠ none) :
    MemberLinked d' where
  incomes := IncomesExist.congr h.incomes hincomes hledger
  savings inc hinc i hi := by
    rw [Database.rows, hincomes] at hinc
    exact hsavings i (h.savings inc hinc i hi)

theorem memberFile_updateUser {u new : User} (hfound : d.find .users userId = some u)
    (hid : new.id = u.id) : (d.apply (.update .users new)).memberFile userId =
      ⟨some new.status, (d.memberFile userId).savings⟩ := by
  rw [memberFile_congr (d.table_update_ne (t := .users) (by decide) new)
    (d.table_update_ne (t := .users) (by decide) new)
    (d.table_update_ne (t := .users) (by decide) new), Database.userStatus, Database.find_update,
    if_pos (hid.trans (Database.find_id hfound)), hfound]
  rfl

theorem MemberLinked.updateUser (h : MemberLinked d) (new : User) :
    MemberLinked (d.apply (.update .users new)) :=
  h.congr (d.table_update_ne (t := .users) (by decide) new)
    (d.table_update_ne (t := .users) (by decide) new) fun id hid => by
      rwa [Database.find_congr (d.table_update_ne (t := .users) (by decide) new)]

theorem userId_ne_of_inserted {row : PrincipalSavings} (h : Inserted d .principalSavings row)
    {r : PrincipalSavings} (hr : r ∈ d.rows .principalSavings) : r.userId ≠ row.userId := by
  have htaken := h.unique _ (List.mem_singleton_self _)
  rw [Database.taken, List.any_eq_false] at htaken
  exact fun hmine => htaken r hr (by simp [Row.uniqueKeys, hmine])

theorem principalSavingsOf_insert {row : PrincipalSavings} (h : Inserted d .principalSavings row) :
    d.principalSavingsOf row.userId = [] ∧
      (d.apply (.insert .principalSavings row)).principalSavingsOf row.userId = [row] := by
  have hnone : d.principalSavingsOf row.userId = [] :=
    List.filter_eq_nil_iff.2 fun r hr => by simp [userId_ne_of_inserted h hr]
  have hrows : (d.apply (.insert .principalSavings row)).rows .principalSavings =
      d.rows .principalSavings ++ [row] := by
    rw [Database.rows, Database.table_insert_self]
    exact Table.rows_insert h.fresh
  refine ⟨hnone, ?_⟩
  rw [Database.principalSavingsOf, hrows, List.filter_append]
  change d.principalSavingsOf row.userId ++ _ = _
  rw [hnone]
  simp

theorem memberFile_insertSavings (hd : MemberLinked d) {row : PrincipalSavings}
    (hinserted : Inserted d .principalSavings row) :
    (d.memberFile row.userId).savings = [] ∧
      (d.apply (.insert .principalSavings row)).memberFile row.userId =
        ⟨d.userStatus row.userId, [(row, [], [])]⟩ := by
  have hincomes : (d.apply (.insert .principalSavings row)).table .incomes = d.table .incomes :=
    d.table_insert_ne (t := .principalSavings) (by decide) row
  have hledger : (d.apply (.insert .principalSavings row)).table .cashbookTransactions =
      d.table .cashbookTransactions := d.table_insert_ne (t := .principalSavings) (by decide) row
  have husers : (d.apply (.insert .principalSavings row)).table .users = d.table .users :=
    d.table_insert_ne (t := .principalSavings) (by decide) row
  have hfor : ∀ inc ∈ d.rows .incomes, forPrincipalSavings row.id inc = false := by
    intro inc hinc
    rw [forPrincipalSavings, decide_eq_false_iff_not]
    exact fun hi => hd.savings inc hinc _ hi hinserted.fresh
  have hunposted : (d.rows .incomes).filter (forPrincipalSavings row.id) = [] :=
    List.filter_eq_nil_iff.2 fun inc hinc => by simp [hfor inc hinc]
  obtain ⟨hnone, hone⟩ := principalSavingsOf_insert hinserted
  refine ⟨by rw [Database.memberFile, hnone]; rfl, ?_⟩
  rw [Database.memberFile, hone, List.map_singleton, entries_congr hincomes hledger,
    entries_eq_nil hfor, Database.userStatus, Database.find_congr husers]
  rw [Database.rows, hincomes]
  exact congrArg (fun incomes => MemberFile.mk _ [(row, incomes, [])]) hunposted

theorem MemberLinked.insertSavings (h : MemberLinked d) {row : PrincipalSavings} :
    MemberLinked (d.apply (.insert .principalSavings row)) :=
  h.congr (d.table_insert_ne (t := .principalSavings) (by decide) row)
    (d.table_insert_ne (t := .principalSavings) (by decide) row)
    fun _ => Database.find_insert_ne_none (t := .principalSavings) row

theorem memberFile_settle (new : PrincipalSavings) (hd : MemberLinked d) {row : PrincipalSavings}
    (howed : row ∈ d.rows .principalSavings) (hid : new.id = row.id)
    (huser : new.userId = row.userId) {data : IncomeData} {ids : IncomeIds}
    {destination : IncomeDestination} {inc : Income} {r : CashbookTransaction}
    (h : Recorded (d.apply (.update .principalSavings new)) data ids destination inc r)
    (hfor : inc.principalSavingId = some row.id) (userId : Uuid) :
    ((applyAll (d.apply (.update .principalSavings new)) (recording inc r)).memberFile
        userId).savings = (d.memberFile userId).savings.map fun x =>
      if x.1.id = new.id then (new, x.2.1 ++ [inc], x.2.2 ++ postedAmounts [r]) else x := by
  have hincomes : (d.apply (.update .principalSavings new)).table .incomes = d.table .incomes :=
    d.table_update_ne (t := .principalSavings) (by decide) new
  have hledger : (d.apply (.update .principalSavings new)).table .cashbookTransactions =
      d.table .cashbookTransactions := d.table_update_ne (t := .principalSavings) (by decide) new
  have hsame : ∀ x ∈ d.rows .principalSavings, x.id = new.id → x = row := fun x hx hx' =>
    Table.eq_of_key hx howed (hx'.trans hid)
  have hrows : (applyAll (d.apply (.update .principalSavings new)) (recording inc r)).rows
      .principalSavings = (d.rows .principalSavings).map fun x => if x.id = new.id then new else x := by
    rw [Database.rows, Recorded.table_ne _ inc r (by decide) (by decide),
      Database.table_update_self]
    rfl
  have hmine : (applyAll (d.apply (.update .principalSavings new)) (recording inc r)).principalSavingsOf
      userId = (d.principalSavingsOf userId).map fun x => if x.id = new.id then new else x := by
    rw [Database.principalSavingsOf, hrows]
    refine filter_replace fun x hx => ?_
    split
    · rename_i hx'
      rw [hsame x hx hx', huser]
    · rfl
  simp only [Database.memberFile, hmine, List.map_map]
  refine List.map_congr_left fun x hx => ?_
  have hx := (List.mem_filter.1 hx).1
  simp only [Function.comp_apply]
  rw [h.incomes, List.filter_append, h.entries (IncomesExist.congr hd.incomes hincomes hledger),
    entries_congr hincomes hledger, List.filter_singleton, forPrincipalSavings, hfor, Database.rows,
    hincomes]
  by_cases hx' : x.id = new.id
  · have hfor' : some row.id = some new.id := congrArg some hid.symm
    rw [if_pos hx', if_pos hx', hx', postedAmounts, List.map_append]
    simp [hfor', postedAmounts, Database.rows]
  · have hother : ¬ some row.id = some x.id := fun he =>
      hx' ((Option.some.inj he).symm.trans hid.symm)
    rw [if_neg hx', if_neg hx']
    simp [hother, Database.rows]

theorem MemberLinked.settle (h : MemberLinked d) {new : PrincipalSavings} {data : IncomeData}
    {ids : IncomeIds} {destination : IncomeDestination} {inc : Income} {r : CashbookTransaction}
    (hrecorded : Recorded (d.apply (.update .principalSavings new)) data ids destination inc r)
    (hfound : d.find .principalSavings new.id ≠ none)
    (hfor : inc.principalSavingId = some new.id) :
    MemberLinked (applyAll (d.apply (.update .principalSavings new)) (recording inc r)) where
  incomes := hrecorded.incomesExist (IncomesExist.congr h.incomes
    (d.table_update_ne (t := .principalSavings) (by decide) new)
    (d.table_update_ne (t := .principalSavings) (by decide) new))
  savings := by
    have hkept : ∀ id, d.find .principalSavings id ≠ none →
        (applyAll (d.apply (.update .principalSavings new)) (recording inc r)).find
          .principalSavings id ≠ none := by
      intro id hid
      rw [Database.find_congr (Recorded.table_ne _ inc r (by decide) (by decide))]
      exact Database.find_update_ne_none (t := .principalSavings) new hid
    intro inc' hinc i hi
    rw [hrecorded.incomes, List.mem_append, List.mem_singleton] at hinc
    rcases hinc with hinc | rfl
    · rw [d.rows_update_ne (t := .principalSavings) (by decide)] at hinc
      exact hkept i (h.savings inc' hinc i hi)
    · rw [hfor, Option.mem_some_iff] at hi
      exact hkept i (hi ▸ hfound)

/-- An approval makes the user active and settles the savings with one income, posted once. -/
theorem memberFile_approving (hd : MemberLinked d) {ids : IncomeIds} {adminId : Uuid} {now : Date}
    {u user : User} {row : PrincipalSavings} {inc : Income} {r : CashbookTransaction}
    (found : d.find .users userId = some u) (owed : row ∈ d.rows .principalSavings)
    (recorded : Recorded (approvingMember u row adminId now d)
      (principalSavingsIncome ids row user).data ids .capital inc r) :
    MemberLinked (applyAll (approvingMember u row adminId now d) (recording inc r)) ∧
      (applyAll (approvingMember u row adminId now d) (recording inc r)).memberFile userId =
        (d.memberFile userId).settle (row.settle adminId now) inc (.in_, 0, row.amount) := by
  have hlinked : MemberLinked (d.apply (.update .users (u.setStatus .active))) :=
    hd.updateUser _
  have hfile : (d.apply (.update .users (u.setStatus .active))).memberFile userId =
      ⟨some .active, (d.memberFile userId).savings⟩ := memberFile_updateUser found rfl
  have howed : row ∈ (d.apply (.update .users (u.setStatus .active))).rows .principalSavings := by
    rwa [d.rows_update_ne (t := .users) (by decide)]
  have hfor : inc.principalSavingId = some row.id := recorded.income.principalSavingId
  have hfound : (d.apply (.update .users (u.setStatus .active))).find .principalSavings row.id =
      some row := Table.find?_of_mem howed
  have hposted : postedAmounts [r] = [(.in_, 0, row.amount)] := by
    obtain ⟨hshu, hcapital⟩ := recorded.amounts (m := row.amount) rfl
    rw [postedAmounts, List.map_singleton, recorded.direction, hshu, hcapital]
    rfl
  refine ⟨hlinked.settle recorded (by simp [PrincipalSavings.settle, hfound]) hfor,
    MemberFile.ext ?_ ?_⟩
  · have husers : (applyAll (approvingMember u row adminId now d) (recording inc r)).table .users =
        (d.apply (.update .users (u.setStatus .active))).table .users :=
      (Recorded.table_ne _ inc r (by decide) (by decide)).trans
        (Database.table_update_ne _ (t := .principalSavings) (by decide) _)
    have hstatus := congrArg MemberFile.status hfile
    rw [Database.memberFile, Database.userStatus, Database.find_congr husers]
    exact hstatus
  · have hsavings : ((d.apply (.update .users (u.setStatus .active))).memberFile userId).savings =
        (d.memberFile userId).savings := by rw [hfile]
    have hrewritten := memberFile_settle (row.settle adminId now) hlinked howed rfl rfl recorded
      hfor userId
    rw [hposted, hsavings] at hrewritten
    exact hrewritten

variable {allows : Label → Database → Prop} {x : MemberCall}

/-- Every commit of a call is a step of the file. -/
theorem MemberCommit.simulates (h : MemberCommit allows userId d x d') (hd : MemberLinked d) :
    MemberLinked d' ∧ (d.memberFile userId).Step x (d'.memberFile userId) := by
  cases h with
  | @verified _ _ u row found inserted mine pending =>
      subst mine
      have hlinked : MemberLinked (verifyingMember u d) := hd.updateUser _
      have hfile : (verifyingMember u d).memberFile row.userId =
          ⟨some .waitingDeposit, (d.memberFile row.userId).savings⟩ :=
        memberFile_updateUser found rfl
      obtain ⟨hnone, hnew⟩ := memberFile_insertSavings hlinked inserted
      have hstatus : (verifyingMember u d).userStatus row.userId = some .waitingDeposit :=
        congrArg MemberFile.status hfile
      rw [hfile] at hnone
      rw [hnew, hstatus]
      exact ⟨hlinked.insertSavings, .verify hnone pending⟩
  | @approved ids reason adminId _ now u user row inc r found allowed owed mine unpaid recorded =>
      obtain ⟨hlinked, hsettled⟩ := memberFile_approving hd found owed recorded
      have hamount : inc.amount = row.amount := ofRat?_toRat_eq recorded.income.amount
      have howed : (row, (d.rows .incomes).filter (forPrincipalSavings row.id),
          postedAmounts (d.entries (forPrincipalSavings row.id))) ∈ (d.memberFile userId).savings :=
        List.mem_map_of_mem (List.mem_filter.2 ⟨owed, by simpa using mine⟩)
      rw [hsettled]
      exact ⟨hlinked, .approve howed unpaid hamount⟩
  | @rejected _ _ u found allowed =>
      have hfile : (d.apply (.update .users (u.setStatus .rejected))).memberFile userId =
          ⟨some .rejected, (d.memberFile userId).savings⟩ := memberFile_updateUser found rfl
      rw [hfile]
      exact ⟨hd.updateUser _, .reject⟩

end File

/-! ### Runs -/

section Runs

variable {userId : Uuid} {allows : Label → Database → Prop} {d d' : Database}

/-- The protocol of the calls on a user: every commit is made under the lock of the user row. -/
def memberProtocol (userId : Uuid) (allows : Label → Database → Prop) :
    Protocol Database LockTarget Label MemberCall where
  inv := MemberLinked
  allows := allows
  guar x l d d' := (LockTarget.row .users userId, LockMode.noKeyUpdate) ∈ l ∧
    MemberCommit allows userId d x d'
  keeps hd h := (h.2.simulates hd).1

theorem memberProtocol_safe (x : MemberCall) (d : Database) :
    (x.program userId).wp ((memberProtocol userId allows).contract x) (fun _ _ _ => True) d
      .idle := by
  refine x.program_wp (fun hlock henv => ?_) fun l d' d'' _ hlock hcommit => ⟨hlock, hcommit⟩
  exact Protocol.Env.eq_of_exclusive (P := memberProtocol userId allows)
    (fun hguar => ⟨_, hguar.1, rfl⟩) hlock rfl henv

/-- A property of the history and the file that every step of the file keeps. -/
theorem memberFile_history {d₀ : Database} (hkeys : d₀.ForeignKeys)
    {J : List MemberCall → MemberFile → Prop}
    (hJ : ∀ {h x d d'}, J h (d.memberFile userId) → MemberLinked d →
      MemberCommit allows userId d x d' → J (h ++ [x]) (d'.memberFile userId))
    (h₀ : J [] (d₀.memberFile userId))
    {s : Sys Database Write LockTarget Label Error MemberCall}
    (hrun : Sys.Run (MemberCall.program userId) allows (Sys.start d₀) s) :
    J s.history (s.committed.memberFile userId) :=
  Protocol.history_inv (P := memberProtocol userId allows)
    (J := fun h d => J h (d.memberFile userId)) (fun x d _ => memberProtocol_safe x d)
    (fun hd hj hguar => hJ hj hd hguar.2) (Protocol.good_start hkeys.memberLinked) h₀ hrun

/-- The incomes of the principal savings of a user. -/
def Database.isPrincipalIncome (d : Database) (userId : Uuid) (inc : Income) : Bool :=
  (d.principalSavingsOf userId).any fun r => forPrincipalSavings r.id inc

/-- What the file says of the incomes of a user with one row of savings. -/
theorem principalIncomes_of_file {row : PrincipalSavings} {incomes : List Income}
    {postings : List Posting} (h : (d.memberFile userId).savings = [(row, incomes, postings)]) :
    d.principalSavingsOf userId = [row] ∧
      (d.rows .incomes).filter (d.isPrincipalIncome userId) = incomes ∧
      postedAmounts (d.entries (d.isPrincipalIncome userId)) = postings := by
  obtain ⟨r, hone, hr⟩ := List.map_eq_singleton_iff.1 h
  obtain ⟨rfl, rfl, rfl⟩ := hr
  have hfor : d.isPrincipalIncome userId = forPrincipalSavings row.id := by
    funext inc
    rw [Database.isPrincipalIncome, hone, List.any_cons, List.any_nil, Bool.or_false]
  exact ⟨hone, by rw [hfor], by rw [hfor]⟩

theorem principalIncomes_of_none (h : (d.memberFile userId).savings = []) :
    d.principalSavingsOf userId = [] ∧ (d.rows .incomes).filter (d.isPrincipalIncome userId) = [] ∧
      postedAmounts (d.entries (d.isPrincipalIncome userId)) = [] := by
  have hnone : d.principalSavingsOf userId = [] := List.map_eq_nil_iff.1 h
  have hfor : ∀ inc, d.isPrincipalIncome userId inc = false := by
    intro inc
    rw [Database.isPrincipalIncome, hnone, List.any_nil]
  refine ⟨hnone, List.filter_eq_nil_iff.2 fun inc _ => by simp [hfor inc], ?_⟩
  rw [entries_eq_nil fun inc _ => hfor inc]
  rfl

/-- **Principal savings exist once and are posted once.** However the statements of the calls on a
user interleave, the user has at most one row of principal savings, at most one approval commits, and
there is at most one income, posted once for its amount. -/
theorem principal_savings_once {d₀ : Database} (hkeys : d₀.ForeignKeys)
    (hstart : MemberFile.Once (d₀.memberFile userId).savings)
    {s : Sys Database Write LockTarget Label Error MemberCall}
    (hrun : Sys.Reach (MemberCall.program userId) (Sys.start d₀) s) :
    let incomes := (s.committed.rows .incomes).filter (s.committed.isPrincipalIncome userId)
    (s.committed.principalSavingsOf userId).length ≤ 1 ∧
      s.history.countP (·.isApproval) ≤ 1 ∧ incomes.length ≤ 1 ∧
      postedAmounts (s.committed.entries (s.committed.isPrincipalIncome userId)) =
        incomes.map fun inc => (.in_, 0, inc.amount) := by
  have hfile : MemberFile.Once (s.committed.memberFile userId).savings ∧
      s.history.countP (·.isApproval) ≤ (s.committed.memberFile userId).countPaid := by
    have hrun' : Sys.Run (MemberCall.program userId) (fun _ _ => True) (Sys.start d₀) s := hrun
    refine memberFile_history
      (J := fun h f => MemberFile.Once f.savings ∧ h.countP (·.isApproval) ≤ f.countPaid) hkeys
      (fun hj hd hcommit => ?_) ⟨hstart, Nat.zero_le _⟩ hrun'
    obtain ⟨honce, hcount⟩ := (hcommit.simulates hd).2.once hj.1
    rw [List.countP_append]
    exact ⟨honce, by omega⟩
  obtain ⟨honce, happrovals⟩ := hfile
  have happrovals := happrovals.trans honce.countPaid_le
  generalize hsavings : (s.committed.memberFile userId).savings = savings at honce
  cases honce with
  | none =>
      obtain ⟨hrows, hincomes, hposted⟩ := principalIncomes_of_none hsavings
      simp only [hrows, hincomes, hposted]
      exact ⟨Nat.zero_le 1, happrovals, Nat.zero_le 1, rfl⟩
  | owed unpaid =>
      obtain ⟨hrows, hincomes, hposted⟩ := principalIncomes_of_file hsavings
      simp only [hrows, hincomes, hposted]
      exact ⟨Nat.le_refl 1, happrovals, Nat.zero_le 1, rfl⟩
  | paid paid amount =>
      obtain ⟨hrows, hincomes, hposted⟩ := principalIncomes_of_file hsavings
      simp only [hrows, hincomes, hposted]
      exact ⟨Nat.le_refl 1, happrovals, Nat.le_refl 1, by rw [List.map_singleton, amount]⟩

/-! ### Approvals and rejections -/

/-- The status update of a decision finds the user waiting for the deposit. -/
def decidesWaiting : Label → Database → Bool
  | .updateUserStatus id, d => (d.find .users id).all fun u => u.status = .waitingDeposit
  | _, _ => true

theorem MemberCommit.waits {x : MemberCall}
    (h : MemberCommit (fun l d => decidesWaiting l d = true) userId d x d') :
    (d.memberFile userId).Waits x := by
  intro hx
  have hwaiting : ∀ {u : User}, d.find .users userId = some u →
      decidesWaiting (.updateUserStatus userId) d = true →
      d.userStatus userId = some .waitingDeposit := by
    intro u hfound hallowed
    rw [decidesWaiting, hfound, Option.all_some, decide_eq_true_eq] at hallowed
    rw [Database.userStatus, hfound, Option.map_some, hallowed]
  cases h with
  | verified => cases hx
  | approved found allowed => exact hwaiting found allowed
  | rejected found allowed => exact hwaiting found allowed

/-- Nobody has decided on the user: not verified yet, or waiting with savings that are owed. -/
def MemberFile.Undecided (f : MemberFile) : Prop := f.Stage 0

/-- **Approval and rejection agree with the money.** As long as the status update of every decision
finds the user waiting, at most one decision commits, the user is active exactly when the principal
savings are paid, and a rejected user has paid nothing. -/
theorem approval_agrees {d₀ : Database} (hkeys : d₀.ForeignKeys)
    (hstart : (d₀.memberFile userId).Undecided)
    {s : Sys Database Write LockTarget Label Error MemberCall}
    (hrun : Sys.Run (MemberCall.program userId) (fun l d => decidesWaiting l d = true)
      (Sys.start d₀) s) :
    s.history.countP (·.isDecision) ≤ 1 ∧
      (s.committed.userStatus userId = some .active ↔
        ∃ r ∈ s.committed.principalSavingsOf userId, r.status = .paid) ∧
      (s.committed.userStatus userId = some .rejected →
        (∀ r ∈ s.committed.principalSavingsOf userId, r.status ≠ .paid) ∧
        (s.committed.rows .incomes).filter (s.committed.isPrincipalIncome userId) = []) := by
  have hstage : (s.committed.memberFile userId).Stage (s.history.countP (·.isDecision)) := by
    refine memberFile_history (J := fun h f => f.Stage (h.countP (·.isDecision))) hkeys
      (fun hj hd hcommit => ?_) hstart hrun
    rw [List.countP_append]
    exact (hcommit.simulates hd).2.stage hcommit.waits hj
  obtain ⟨hone, hactive, hrejected⟩ := hstage.agrees
  refine ⟨hone, hactive.trans ?_, fun hstatus => ⟨fun r hr => ?_, ?_⟩⟩
  · simp [Database.memberFile]
  · exact (hrejected hstatus _ (List.mem_map_of_mem hr)).1
  · refine List.filter_eq_nil_iff.2 fun inc hinc hmine => ?_
    obtain ⟨r, hr, hfor⟩ := List.any_eq_true.1 hmine
    have hnone := (hrejected hstatus _ (List.mem_map_of_mem hr)).2
    exact List.filter_eq_nil_iff.1 hnone inc hinc hfor

end Runs

/-! ### An applicant -/

def applicant : User :=
  { seededUser 10 "budi@example.com" "Budi" "budi" .member with
    status := .pending
    otpCode := some "123456"
    otpExpiresAt := some 300000 }

/-- Somebody has registered. -/
def withApplicant : Database := seeded.apply (.insert .users applicant)

theorem withApplicant_foreignKeys : withApplicant.ForeignKeys := by
  intro t r hr ref href
  cases t with
  | loans | installments | principalSavings | mandatorySavings | incomes | expenses
  | cashbookTransactions => cases hr
  | users | loanPeriods | incomeCategories | expenseCategories => cases href

def submittingOtp : MemberCall := .verifyOtp (drawing 60000 11) "123456"

def approvingApplicant : MemberCall := .approveUser ⟨12, 13⟩ none 1 true ⟨2026, 5, 3⟩

def rejectingApplicant : MemberCall := .rejectUser "Bukti setoran tidak jelas" true

/-- The code is submitted twice and the user approved twice, at once each. -/
def registration : List (Event Error MemberCall) :=
  [.call submittingOtp, .call submittingOtp, .run 0, .run 1] ++ List.replicate 6 (.run 0) ++
    List.replicate 5 (.run 1) ++ [.call approvingApplicant, .call approvingApplicant, .run 2, .run 3] ++
    List.replicate 8 (.run 2) ++ List.replicate 2 (.run 3)

theorem principal_savings_once_registration :
    ∃ s : Sys Database Write LockTarget Label Error MemberCall,
      s.committed.userStatus 10 = some .active ∧ (s.committed.principalSavingsOf 10).length ≤ 1 ∧
      s.history.countP (·.isApproval) ≤ 1 := by
  have hexec : ((Sys.start withApplicant).exec (MemberCall.program 10) (fun _ _ => true)
      registration).map (fun s => s.committed.userStatus 10) = some (some .active) := by
    decide +kernel
  obtain ⟨s, hs, hactive⟩ := Option.map_eq_some_iff.1 hexec
  have hstart : MemberFile.Once (withApplicant.memberFile 10).savings := .none
  obtain ⟨hrows, happrovals, -, -⟩ :=
    principal_savings_once withApplicant_foreignKeys hstart (Sys.reach_of_exec hs)
  exact ⟨s, hactive, hrows, happrovals⟩

theorem approval_agrees_registration :
    ∃ s : Sys Database Write LockTarget Label Error MemberCall,
      s.committed.userStatus 10 = some .active ∧
      ∃ r ∈ s.committed.principalSavingsOf 10, r.status = .paid := by
  have hexec : ((Sys.start withApplicant).exec (MemberCall.program 10) decidesWaiting
      (.call submittingOtp :: List.replicate 7 (.run 0) ++ .call approvingApplicant ::
        List.replicate 9 (.run 1))).map (fun s => s.committed.userStatus 10) = some (some .active) := by
    decide +kernel
  obtain ⟨s, hs, hactive⟩ := Option.map_eq_some_iff.1 hexec
  have hstart : (withApplicant.memberFile 10).Undecided := .registered
  obtain ⟨-, hpaid, -⟩ :=
    approval_agrees withApplicant_foreignKeys hstart (Sys.run_of_exec hs)
  exact ⟨s, hactive, hpaid.1 hactive⟩

/-- The applicant is verified and waits for the deposit. -/
def withDeposit : Database := (submittingOtp.program 10).after withApplicant

/-- Both decisions find the user waiting before either has written; the rejection comes second, and
leaves a rejected user who has paid. -/
theorem rejected_after_payment :
    withDeposit.userStatus 10 = some .waitingDeposit ∧
    ∃ s : Sys Database Write LockTarget Label Error MemberCall,
      Sys.Reach (MemberCall.program 10) (Sys.start withDeposit) s ∧ s.Quiescent ∧
      s.history.countP (·.isDecision) = 2 ∧ s.committed.userStatus 10 = some .rejected ∧
      (s.committed.principalSavingsOf 10).map (·.status) = [.paid] ∧
      ((s.committed.rows .incomes).filter (s.committed.isPrincipalIncome 10)).length = 1 := by
  refine ⟨by decide +kernel, ?_⟩
  have hexec : ((Sys.start withDeposit).exec (MemberCall.program 10) (fun _ _ => true)
      ([.call approvingApplicant, .call rejectingApplicant, .run 0, .run 1] ++
        List.replicate 8 (.run 0) ++ List.replicate 2 (.run 1))).map
        (fun s => (s.clients.all Client.ended, s.history.countP (·.isDecision),
          s.committed.userStatus 10, (s.committed.principalSavingsOf 10).map (·.status),
          ((s.committed.rows .incomes).filter (s.committed.isPrincipalIncome 10)).length)) =
      some (true, 2, some .rejected, [.paid], 1) := by
    decide +kernel
  obtain ⟨s, hs, hresult⟩ := Option.map_eq_some_iff.1 hexec
  simp only [Prod.mk.injEq] at hresult
  exact ⟨s, Sys.reach_of_exec hs, Sys.quiescent_of_ended hresult.1, hresult.2⟩

end LumbungMesari
