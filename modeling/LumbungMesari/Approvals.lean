import LumbungMesari.Collecting
import LumbungMesari.PrincipalSavingsRuns
import LumbungMesari.Sql.Evaluation

/-!
# Approvals of verified users

A verification writes the share of the total balance that falls to an active member, in whole
rupiah. Only where nobody is active is there a minimum, which is configured, so a share of less than
one rupiah is written as nothing, and no approval can post nothing. Where the share is positive, every
first approval commits.
-/

namespace LumbungMesari

open Sql
open Prog (inTrx commitTrx Throws)

/-! ### The share of a new member -/

/-- There is a rupiah for every active member or, without one, a minimum that the column does not
round to nothing. -/
def Database.CoversMembers (configured : Option ℚ) (d : Database) : Prop :=
  d.activeMemberCount = 0 ∧ 1 / 2 ≤ getMinimumAmount configured * 10 ^ 4 ∨
    d.activeMemberCount ≠ 0 ∧ (d.activeMemberCount : ℤ) * 10 ^ 4 ≤ d.balances .total

instance (configured : Option ℚ) (d : Database) : Decidable (d.CoversMembers configured) :=
  inferInstanceAs (Decidable (_ ∨ _))

section Share

variable {d : Database} {configured : Option ℚ} {m : Money}

theorem units_of_principalSavingsAmount
    (h : Numeric.ofRat? (d.principalSavingsAmount configured) = some m) :
    (d.activeMemberCount = 0 ∧ m.units = roundHalfAway (getMinimumAmount configured * 10 ^ 4)) ∨
      (d.activeMemberCount ≠ 0 ∧ m.units = ⌊d.balance .total / d.activeMemberCount⌋ * 10 ^ 4) := by
  have hunits := Numeric.ofRat?_some h
  unfold Database.principalSavingsAmount at hunits
  split at hunits
  · exact .inl ⟨‹_›, hunits⟩
  · refine .inr ⟨‹_›, ?_⟩
    rw [hunits, ← roundHalfAway_intCast (⌊d.balance .total / d.activeMemberCount⌋ * 10 ^ 4)]
    push_cast
    rfl

/-- The share is positive exactly where there is a rupiah for everybody. -/
theorem principalSavingsAmount_pos_iff
    (h : Numeric.ofRat? (d.principalSavingsAmount configured) = some m) :
    0 < m.units ↔ d.CoversMembers configured := by
  rcases units_of_principalSavingsAmount h with ⟨hnone, hunits⟩ | ⟨hsome, hunits⟩
  · rw [hunits, roundHalfAway_pos, Database.CoversMembers]
    simp [hnone]
  · have hcount : (0 : ℚ) < d.activeMemberCount := by
      exact_mod_cast Nat.pos_of_ne_zero hsome
    have hfloor : 0 < ⌊d.balance .total / d.activeMemberCount⌋ ↔
        (d.activeMemberCount : ℤ) * 10 ^ 4 ≤ d.balances .total := by
      rw [Int.floor_pos, le_div_iff₀ hcount, one_mul, Database.balance, le_div_iff₀ (by norm_num)]
      exact_mod_cast Iff.rfl
    rw [hunits, Database.CoversMembers, or_iff_right fun h => hsome h.1, and_iff_right hsome, ← hfloor]
    omega

end Share

/-! ### What a verification writes -/

section Verification

variable {d : Database} {userId : Uuid}

theorem activeMemberCount_verifyingMember {u : User} (hfound : d.find .users userId = some u)
    (hpending : u.status = .pending) :
    (verifyingMember u d).activeMemberCount = d.activeMemberCount := by
  have hid : Row.id .users (u.update verification) = userId :=
    show u.id = userId from Database.find_id hfound
  have hreplaced : (d.table .users).find? (Row.id .users (u.update verification)) = some u := by
    rw [hid]
    exact hfound
  have hcount := Table.countP_replace (p := fun u => u.status = .active ∧ u.roleId = .member)
    hreplaced
  have hverified : (u.update verification).status = .waitingDeposit := rfl
  simp only [hpending, hverified, reduceCtorEq, false_and, decide_false, Bool.false_eq_true,
    if_false, add_zero] at hcount
  rw [Database.activeMemberCount, Database.rows, verifyingMember, Database.table_update_self]
  exact hcount

/-- The row that a verification leaves for its user. -/
structure Verified (configured : Option ℚ) (d : Database) (userId : Uuid) (row : PrincipalSavings)
    (d' : Database) : Prop where
  savings : d'.principalSavingsOf userId = [row]
  owes : d'.Owes row
  owner : row.userId = userId
  positive : 0 < row.amount.units ↔ d.CoversMembers configured

theorem verifyOtp_verified {env : AuthEnv} {otpCode : String} {answer : Answer}
    (h : (verifyOtp env userId otpCode).result d = .ok answer) :
    ∃ row, Verified env.principalSavingsMinAmount d userId row
      ((verifyOtp env userId otpCode).after d) := by
  refine Prog.after_of_wp
    (Q := fun _ d' => ∃ row, Verified env.principalSavingsMinAmount d userId row d')
    (verifyOtp_wp (S := Prog.alone fun _ _ => True) (fun _ henv => henv) ?_) h
  intro d₁ u₁ d₂ u row l a henv₁ hfound₁ hpending henv₂ hfound hinserted hmine _ hamount _
  obtain rfl : d = d₁ := henv₁
  obtain rfl : d = d₂ := henv₂
  obtain rfl : u₁ = u := Option.some.inj (hfound₁.symm.trans hfound)
  subst hmine
  have hcovers : (verifyingMember u₁ d).CoversMembers env.principalSavingsMinAmount ↔
      d.CoversMembers env.principalSavingsMinAmount := by
    rw [Database.CoversMembers, activeMemberCount_verifyingMember hfound hpending]
    rfl
  exact ⟨trivial, row, (principalSavingsOf_insert hinserted).2, Database.owes_of_insert hinserted,
    rfl, (principalSavingsAmount_pos_iff hamount).trans hcovers⟩

end Verification

/-! ### What stops an approval -/

def principalSavingsReceipt (ids : IncomeIds) (principalSavings : PrincipalSavings) (user : User) :
    Receipt :=
  ⟨"principal_savings", principalSavingsIncome ids principalSavings user, principalSavings.amount,
    rfl⟩

/-- Everything that a first approval of a user needs, apart from an amount that can be posted. -/
structure FirstApproval (ids : IncomeIds) (userId adminId : Uuid) (d : Database) : Prop where
  waiting : d.userStatus userId = some .waitingDeposit
  unpaid : ∀ r ∈ d.principalSavingsOf userId, r.status ≠ .paid
  admin : d.find .users adminId ≠ none
  seeded : CategoriesSeeded d
  ids : FreshIds d [ids]
  room : ∀ r ∈ d.principalSavingsOf userId, HasRoom d .capital r.amount.units

theorem FirstApproval.of_savings {ids : IncomeIds} {userId adminId : Uuid} {d : Database}
    {row : PrincipalSavings} (hrows : d.principalSavingsOf userId = [row])
    (hwaiting : d.userStatus userId = some .waitingDeposit) (hunpaid : row.status ≠ .paid)
    (hadmin : d.find .users adminId ≠ none) (hseeded : CategoriesSeeded d)
    (hids : FreshIds d [ids]) (hroom : HasRoom d .capital row.amount.units) :
    FirstApproval ids userId adminId d where
  waiting := hwaiting
  unpaid := by rwa [hrows, List.forall_mem_singleton]
  admin := hadmin
  seeded := hseeded
  ids := hids
  room := by rwa [hrows, List.forall_mem_singleton]

section Approval

variable {d : Database} {ids : IncomeIds} {userId adminId : Uuid} {now : Date}
  {row principalSavings : PrincipalSavings} {u user : User}

theorem Database.Owes.read (h : d.Owes row) (huser : d.find .users row.userId ≠ none) :
    ∃ r user, d.principalSavingsWithUser row.userId = some (r, user) ∧ r.amount = row.amount := by
  obtain ⟨old, hold⟩ := Option.ne_none_iff_exists'.1 h.present
  have howner : old.userId = row.userId :=
    (h.agrees hold (.inl (Database.find_id hold))).2.1
  cases hread : (d.rows .principalSavings).find? fun r => r.userId = row.userId with
  | none =>
      have hnone := List.find?_eq_none.1 hread old (Table.find?_some hold).1
      exact absurd (decide_eq_true howner) hnone
  | some r =>
      have hmine : r.userId = row.userId := by simpa using List.find?_some hread
      obtain ⟨user, hjoin⟩ := Option.ne_none_iff_exists'.1 huser
      refine ⟨r, user, ?_, (h.of_mem (List.mem_of_find?_eq_some hread) (.inr hmine)).2.2⟩
      rw [Database.principalSavingsWithUser, hread, Option.bind_some, hmine, hjoin]
      rfl

/-- A settlement of savings that are owed fails where their income cannot be recorded, or where the
administrator is unknown. -/
theorem settlePrincipalSavings_throws {s : Trx} {R : Error → Prop}
    (hread : (s.view d).principalSavingsWithUser userId = some (principalSavings, user))
    (hunpaid : principalSavings.status ≠ .paid)
    (hadmin : (s.view d).find .users adminId = none → R .foreignKeyViolation)
    (h : ∀ e, Unrecorded ((s.view d).apply (.update .principalSavings
      (principalSavings.settle adminId now))) (principalSavingsReceipt ids principalSavings user) e →
      R e) : (settlePrincipalSavings ids userId adminId now).Throws R d s := by
  obtain ⟨howed, -⟩ := principalSavingsWithUser_some hread
  have hfound : (s.view d).find .principalSavings principalSavings.id = some principalSavings :=
    Table.find?_of_mem howed
  unfold settlePrincipalSavings findPrincipalSavingsByUserId updatePrincipalSavings
  refine Prog.throws_bind throws_select select_alone ?_
  rintro _ _ _ ⟨rfl, rfl, rfl⟩
  rw [hread]
  dsimp only
  rw [if_neg hunpaid]
  refine settleRow_throws (by decide) hfound rfl rfl rfl rfl (List.mem_cons_self ..) hadmin
    fun l => ?_
  refine record_throws (x := principalSavingsReceipt ids principalSavings user)
    (fun e he => h e ?_) fun _ _ _ _ => Prog.throws_pure _
  rwa [Session.view_extend] at he

/-- A first approval has nothing to fear but an amount that is not positive. -/
theorem FirstApproval.nothing {e : Error} (h : FirstApproval ids userId adminId d)
    (howed : principalSavings ∈ d.rows .principalSavings) (hmine : principalSavings.userId = userId)
    (hunrecorded : Unrecorded (approvingMember u principalSavings adminId now d)
      (principalSavingsReceipt ids principalSavings user) e) :
    e = .checkViolation "chk_cashbook_amounts_positive" ∧ principalSavings.amount.units ≤ 0 := by
  have htable : ∀ {t : TableName}, t ≠ .users → t ≠ .principalSavings →
      (approvingMember u principalSavings adminId now d).table t = d.table t := fun ht ht' => by
    rw [approvingMember, Database.table_update_ne _ ht'.symm, Database.table_update_ne _ ht.symm]
  have hfresh : ids.income ∈ [ids].map (·.income) := List.mem_singleton_self _
  cases hunrecorded with
  | category missing =>
      obtain ⟨c, hc, hcode⟩ := h.seeded ⟨1, "principal_savings"⟩ (by decide)
      rw [Database.rows, htable (by decide) (by decide)] at missing
      exact absurd hcode (missing c hc)
  | duplicate taken =>
      rw [Database.find_congr (htable (by decide) (by decide)),
        Database.find_congr (htable (by decide) (by decide))] at taken
      exact taken.elim (absurd (h.ids.incomes ids (List.mem_singleton_self _)))
        (absurd (h.ids.ledger ids (List.mem_singleton_self _)))
  | @reference ref mem missing =>
      obtain rfl : ref = (.principalSavings, principalSavings.id) := by
        simpa [IncomeData.references, principalSavingsReceipt, principalSavingsIncome] using mem
      have hfound : d.find .principalSavings principalSavings.id ≠ none := by
        rw [show d.find .principalSavings principalSavings.id = some principalSavings from
          Table.find?_of_mem howed]
        exact Option.some_ne_none _
      refine absurd missing (Database.find_update_ne_none (t := .principalSavings) _ ?_)
      rwa [Database.find_congr (d.table_update_ne (t := .users) (by decide) _)]
  | balance kind full =>
      have hroom := h.room principalSavings (List.mem_filter.2 ⟨howed, by simpa using hmine⟩)
      exact absurd ⟨hroom.range, hroom.bucket, hroom.total⟩ full
  | nothing zero => exact ⟨rfl, zero⟩

/-- The user is active, and the savings are paid. -/
def Database.Approved (d : Database) (userId : Uuid) : Prop :=
  d.userStatus userId = some .active ∧ ∃ r ∈ d.principalSavingsOf userId, r.status = .paid

theorem usersServiceFindById_returns (hfound : d.find .users userId = some u) :
    (usersServiceFindById userId).Returns d .idle u.selectById.safe d .idle := by
  unfold usersServiceFindById findUserById
  refine Prog.returns_bind.2 ⟨some u.selectById, d, .idle, Prog.returns_onPool.2 ?_, rfl⟩
  exact ⟨[], by rw [← Option.map_some, ← hfound]; rfl, rfl, rfl⟩

theorem updateStatus_returns (status : UserStatus) (hfound : d.find .users userId = some u) :
    ∃ u' l, (updateStatus userId status).Returns d .idle u' d
        (Session.idle.extend [.update .users (u.setStatus status)] l) ∧
      (LockTarget.row .users userId, LockMode.noKeyUpdate) ∈ l := by
  have hthrows : (updateStatus userId status).Throws (fun _ => False) d .idle := by
    refine updateOrThrow_throws (t := .users) hfound rfl fun e he => ?_
    rcases updateRow_error he with he | ⟨-, ref, href, -⟩ | he
    · cases he
    · cases href
    · cases he
  obtain ⟨u', d', s', hreturns⟩ := hthrows.exists_returns
  obtain ⟨rfl, l, rfl, hlock⟩ := hreturns.of_wp (Q := fun _ d' s' => d = d' ∧ ∃ l,
      s' = Session.idle.extend [.update .users (u.setStatus status)] l ∧
        (LockTarget.row .users userId, LockMode.noKeyUpdate) ∈ l)
    (updateStatus_wp fun d₁ u₁ l henv hfound₁ _ hlock => by
      obtain rfl : d = d₁ := henv
      obtain rfl : u = u₁ := Option.some.inj (hfound.symm.trans hfound₁)
      exact ⟨rfl, l, rfl, hlock⟩)
  exact ⟨u', l, hreturns, hlock⟩

theorem approved_of_recorded (hfound : d.find .users userId = some u)
    (howed : principalSavings ∈ d.rows .principalSavings) (hmine : principalSavings.userId = userId)
    {inc : Income} {r : CashbookTransaction} :
    (applyAll (approvingMember u principalSavings adminId now d) (recording inc r)).Approved
      userId := by
  have hid : Row.id .users (u.setStatus .active) = userId :=
    show u.id = userId from Database.find_id hfound
  refine ⟨?_, principalSavings.settle adminId now, List.mem_filter.2 ⟨?_, ?_⟩, rfl⟩
  · rw [Database.userStatus, Database.find_congr (Recorded.table_ne _ inc r (by decide) (by decide)),
      approvingMember, Database.find_congr (Database.table_update_ne _ (by decide) _),
      Database.find_update, if_pos hid, hfound]
    rfl
  · have hsettled : (approvingMember u principalSavings adminId now d).find .principalSavings
        principalSavings.id = some (principalSavings.settle adminId now) := by
      have hid : Row.id .principalSavings (principalSavings.settle adminId now) =
          principalSavings.id := rfl
      rw [approvingMember, Database.find_update, if_pos hid,
        Database.find_congr (d.table_update_ne (t := .users) (by decide) _),
        show d.find .principalSavings principalSavings.id = some principalSavings from
          Table.find?_of_mem howed]
      rfl
    rw [Database.rows, Recorded.table_ne _ inc r (by decide) (by decide)]
    exact (Table.find?_some hsettled).1
  · exact decide_eq_true hmine

/-- What a first approval comes to. -/
inductive ApprovalOutcome (d : Database) (userId : Uuid) (amount : Money) :
    Except Error (ApprovalResponse × ApprovalMail) → Database → Prop where
  | approved {result : Except Error (ApprovalResponse × ApprovalMail)} {d' : Database}
      (positive : 0 < amount.units) (mailed : ∀ e, result = .error e →
        e = emailNotificationFailedException) (approved : d'.Approved userId) :
      ApprovalOutcome d userId amount result d'
  | nothing (zero : amount.units ≤ 0) : ApprovalOutcome d userId amount
      (.error (.checkViolation "chk_cashbook_amounts_positive")) d

/-- The transaction of an approval once the user is active. -/
def activating (u : User) (l : Locks) : Trx :=
  Session.idle.extend [.update .users (u.setStatus .active)] l

theorem view_activating {l : Locks} :
    (activating u l).view d = d.apply (.update .users (u.setStatus .active)) :=
  Session.view_extend ..

theorem rows_view_activating {l : Locks} :
    ((activating u l).view d).rows .principalSavings = d.rows .principalSavings := by
  rw [view_activating]
  exact d.rows_update_ne (t := .users) (by decide) _

theorem find_view_activating {l : Locks} {userId : Uuid} (h : d.find .users userId ≠ none) :
    ((activating u l).view d).find .users userId ≠ none := by
  rw [view_activating]
  exact Database.find_update_ne_none (t := .users) _ h

/-- An approval once the user is active: what is left is the settlement, the commit and the mail. -/
theorem approveUser_run {reason : Option String} {emailSent : Bool} {u' : User} {l : Locks}
    (hfound : d.find .users userId = some u) (hwaiting : u.status = .waitingDeposit)
    (hstatus : (updateStatus userId .active).Returns d .idle u' d (activating u l)) :
    (approveUser ids userId reason adminId emailSent now).run d .idle =
      (do
        settlePrincipalSavings ids userId adminId now
        commitTrx
        let mail ← sendApprovalEmail u.selectById.safe .approve reason emailSent
        pure (⟨"User approved successfully!", .active, userId⟩, mail) :
          Program (ApprovalResponse × ApprovalMail)).run d (activating u l) := by
  have hstatus' : ¬ u.selectById.safe.status ≠ .waitingDeposit := not_not.2 hwaiting
  unfold approveUser
  rw [(usersServiceFindById_returns hfound).run_bind, if_neg hstatus', hstatus.run_bind]

theorem sendApprovalEmail_run {α : Type} {s : Trx} {found : FoundUser} {action : ApprovalAction}
    {reason : Option String} {emailSent : Bool} {k : ApprovalMail → α} :
    let p : Program α := do
      commitTrx
      let mail ← sendApprovalEmail found action reason emailSent
      pure (k mail)
    (p.run d s).2 = s.view d ∧
      ∀ e, (p.run d s).1 = .error e → e = emailNotificationFailedException := by
  unfold sendApprovalEmail
  dsimp only
  split
  · exact ⟨rfl, fun e he => by cases he⟩
  · refine ⟨rfl, fun e he => ?_⟩
    cases he
    rfl

theorem FirstApproval.settlement_throws {l : Locks} (h : FirstApproval ids row.userId adminId d)
    (howes : d.Owes row) : (settlePrincipalSavings ids row.userId adminId now).Throws
      (fun e => e = .checkViolation "chk_cashbook_amounts_positive" ∧ row.amount.units ≤ 0) d
      (activating u l) := by
  have howes' : ((activating u l).view d).Owes row := by
    rw [view_activating]
    exact howes.apply (.spares (by simp [Write.Spares, Write.table?]))
  obtain ⟨v, hv, -⟩ := Option.map_eq_some_iff.1 h.waiting
  obtain ⟨principalSavings, user, hread, hamount⟩ :=
    howes'.read (find_view_activating (by rw [hv]; exact Option.some_ne_none v))
  obtain ⟨howed, hmine⟩ := principalSavingsWithUser_some hread
  rw [rows_view_activating] at howed
  refine settlePrincipalSavings_throws hread
    (h.unpaid principalSavings (List.mem_filter.2 ⟨howed, by simpa using hmine⟩))
    (fun hnone => absurd hnone (find_view_activating h.admin)) fun e he => ?_
  rw [view_activating] at he
  rw [← hamount]
  exact h.nothing howed hmine he

theorem settlement_quiet {l : Locks} (hlock : (LockTarget.row .users userId, .noKeyUpdate) ∈ l) :
    ((settlePrincipalSavings ids userId adminId now).run d (activating u l)).2 = d :=
  Prog.run_keeps_of_wp (I := fun d' => d' = d) (fun _ _ => rfl) (fun _ _ => trivial)
    (fun _ (hguar : False) => hguar.elim)
    (settlePrincipalSavings_wp (S := Prog.alone fun _ _ => False) (Q := fun _ _ _ => True)
      (fun _ henv => henv) (List.mem_append_right _ hlock) fun _ _ _ _ _ _ _ _ _ => trivial) rfl

theorem settlement_returns {l : Locks} (hfound : d.find .users row.userId = some u)
    (hlock : (LockTarget.row .users row.userId, .noKeyUpdate) ∈ l) (howes : d.Owes row) {d' : Database}
    {s' : Trx} (h : (settlePrincipalSavings ids row.userId adminId now).Returns d (activating u l) ()
      d' s') : d = d' ∧ 0 < row.amount.units ∧ (s'.view d).Approved row.userId := by
  refine h.of_wp (Q := fun _ d' s' => d = d' ∧ 0 < row.amount.units ∧
    (s'.view d).Approved row.userId) (settlePrincipalSavings_wp (fun _ henv => henv)
      (List.mem_append_right _ hlock) fun r user inc entry l' hr hmine _ hrecorded => ?_)
  rw [rows_view_activating] at hr
  rw [view_activating] at hrecorded
  have hamount : r.amount = row.amount := (howes.of_mem hr (.inr hmine)).2.2
  obtain ⟨hshu, hcapital⟩ := hrecorded.amounts (m := r.amount) rfl
  have hpositive := entry.amountsPositive
  rw [hshu, hcapital, if_neg (by decide), if_pos rfl, hamount] at hpositive
  refine ⟨rfl, by simpa using hpositive, ?_⟩
  rw [Session.view_extend, view_activating]
  exact approved_of_recorded hfound hr hmine

theorem approveUser_outcome {reason : Option String} {emailSent : Bool}
    (h : FirstApproval ids row.userId adminId d) (howes : d.Owes row) :
    ApprovalOutcome d row.userId row.amount
      ((approveUser ids row.userId reason adminId emailSent now).result d)
      ((approveUser ids row.userId reason adminId emailSent now).after d) := by
  obtain ⟨u, hfound, hwaiting⟩ := Option.map_eq_some_iff.1 h.waiting
  obtain ⟨u', l, hstatus, hlock⟩ := updateStatus_returns .active hfound
  rw [Prog.result, Prog.after, approveUser_run hfound hwaiting hstatus, Prog.run_bind]
  cases hsettle : (settlePrincipalSavings ids row.userId adminId now).run d (activating u l) with
  | mk r d' =>
      cases r with
      | error e =>
          obtain ⟨rfl, hzero⟩ := h.settlement_throws howes e (congrArg Prod.fst hsettle)
          obtain rfl : d' = d := (congrArg Prod.snd hsettle).symm.trans (settlement_quiet hlock)
          exact .nothing hzero
      | ok a =>
          obtain ⟨rfl, hpositive, happroved⟩ := settlement_returns hfound hlock howes hsettle
          obtain ⟨hleft, hmailed⟩ := sendApprovalEmail_run
          refine .approved hpositive (fun e he => ?_) ?_
          · split at he
            · cases he
            · rename_i hfailed
              cases he
              exact hmailed _ hfailed
          · change ((_ : Program _).run d a.2).2.Approved row.userId
            rw [hleft]
            exact happroved

end Approval

/-! ### Approvals in later states -/

/-- **A verified user can be approved exactly where there is a rupiah for every active member or,
without one, a minimum.** The amount that a verification writes is positive, and a first approval in
any later state commits, under that condition of the state the verification was made in; otherwise it
fails on the constraint of the ledger. -/
theorem verified_user_approvable {d : Database} {env : AuthEnv} {userId : Uuid} {otpCode : String}
    {answer : Answer} (hverified : (verifyOtp env userId otpCode).result d = .ok answer) :
    (∃ row, ((verifyOtp env userId otpCode).after d).principalSavingsOf userId = [row] ∧
      (0 < row.amount.units ↔ d.CoversMembers env.principalSavingsMinAmount)) ∧
    ∀ s : Sys Database Write LockTarget Label Error ServiceCall,
      Sys.Reach ServiceCall.program (Sys.start ((verifyOtp env userId otpCode).after d)) s →
      ∀ (ids : IncomeIds) (reason : Option String) (adminId : Uuid) (emailSent : Bool) (now : Date),
        FirstApproval ids userId adminId s.committed →
        (((approveUser ids userId reason adminId emailSent now).after s.committed).Approved userId ↔
          d.CoversMembers env.principalSavingsMinAmount) ∧
        ((approveUser ids userId reason adminId emailSent now).result s.committed =
            .error (.checkViolation "chk_cashbook_amounts_positive") ↔
          ¬ d.CoversMembers env.principalSavingsMinAmount) := by
  obtain ⟨row, hrow⟩ := verifyOtp_verified hverified
  refine ⟨⟨row, hrow.savings, hrow.positive⟩,
    fun s hreach ids reason adminId emailSent now hfirst => ?_⟩
  have howes := hrow.owes.reach hreach
  obtain rfl := hrow.owner
  have houtcome : ApprovalOutcome s.committed row.userId row.amount
      ((approveUser ids row.userId reason adminId emailSent now).result s.committed)
      ((approveUser ids row.userId reason adminId emailSent now).after s.committed) :=
    approveUser_outcome hfirst howes
  have hwaiting := hfirst.waiting
  rw [← hrow.positive]
  generalize (approveUser ids row.userId reason adminId emailSent now).result s.committed = result,
    (approveUser ids row.userId reason adminId emailSent now).after s.committed = d' at houtcome ⊢
  cases houtcome with
  | approved positive mailed approved =>
      refine ⟨iff_of_true approved positive, iff_of_false (fun he => ?_) (not_not.2 positive)⟩
      exact absurd (mailed _ he) (by decide)
  | nothing zero =>
      refine ⟨iff_of_false (fun happroved => ?_) (not_lt.2 zero), iff_of_true rfl (not_lt.2 zero)⟩
      have hactive := happroved.1
      rw [hwaiting] at hactive
      cases hactive

/-! ### An applicant -/

def verifyingApplicant : Program Answer := verifyOtp (drawing 60000 11) 10 "123456"

def approvingNow : Program (ApprovalResponse × ApprovalMail) :=
  approveUser ⟨12, 13⟩ 10 none 1 true ⟨2026, 5, 3⟩

theorem verified_user_approvable_applicant :
    (approvingNow.after (verifyingApplicant.after withApplicant)).Approved 10 := by
  obtain ⟨answer, hverified⟩ :=
    exists_ok_of_isOk (x := verifyingApplicant.result withApplicant) (by decide +kernel)
  have hrows : (verifyingApplicant.after withApplicant).principalSavingsOf 10 =
      [⟨11, 10, ⟨5000000 * 10 ^ 4, by decide⟩, .pending, none, none⟩] := by
    decide +kernel
  have hfirst : FirstApproval ⟨12, 13⟩ 10 1 (verifyingApplicant.after withApplicant) :=
    .of_savings hrows (by decide +kernel) (by decide) (by decide +kernel)
      (by unfold CategoriesSeeded; decide +kernel)
      ⟨by decide +kernel, by decide, by decide +kernel, by decide⟩
      ⟨fun b => by cases b <;> decide +kernel, by decide +kernel, by decide +kernel⟩
  exact (((verified_user_approvable hverified).2 (Sys.start _) .refl _ none 1 true ⟨2026, 5, 3⟩
    hfirst).1).2 (by decide +kernel)

/-- All of the money is spent. -/
def renovating : LedgerCall :=
  .createExpense ⟨1, 4, 5⟩ ⟨1, "Renovasi kantor", 5000000, none, none, none, none⟩ 1 ⟨2026, 5, 1⟩

def withoutMoney : Database := renovating.program.after withApplicant

/-- With nothing in the cashbook and one active member, the code of the applicant is accepted and the
savings are nothing. The approval that follows fails on the constraint of the ledger. -/
theorem verified_user_not_approvable :
    withoutMoney.balances .total = 0 ∧ (verifyingApplicant.result withoutMoney).isOk = true ∧
    ((verifyingApplicant.after withoutMoney).principalSavingsOf 10).map (·.amount.units) = [0] ∧
    FirstApproval ⟨12, 13⟩ 10 1 (verifyingApplicant.after withoutMoney) ∧
    (approvingApplicant.program 10).result (verifyingApplicant.after withoutMoney) =
      .error (.checkViolation "chk_cashbook_amounts_positive") ∧
    (approvingNow.after (verifyingApplicant.after withoutMoney)).userStatus 10 =
      some .waitingDeposit := by
  have hrows : (verifyingApplicant.after withoutMoney).principalSavingsOf 10 =
      [⟨11, 10, 0, .pending, none, none⟩] := by
    decide +kernel
  have hfirst : FirstApproval ⟨12, 13⟩ 10 1 (verifyingApplicant.after withoutMoney) :=
    .of_savings hrows (by decide +kernel) (by decide) (by decide +kernel)
      (by unfold CategoriesSeeded; decide +kernel)
      ⟨by decide +kernel, by decide, by decide +kernel, by decide⟩
      ⟨fun b => by cases b <;> decide +kernel, by decide +kernel, by decide +kernel⟩
  exact ⟨by decide +kernel, by decide +kernel, by decide +kernel, hfirst, by decide +kernel,
    by decide +kernel⟩

end LumbungMesari
