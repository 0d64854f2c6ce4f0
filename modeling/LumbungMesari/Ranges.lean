import LumbungMesari.Footprints
import LumbungMesari.LedgerInvariant
import LumbungMesari.Members
import LumbungMesari.Savings

/-!
# Ranges of the balances

Every function of the services is tame, so whatever is called, and however the calls overlap, the
balances stay in the range of their column, and the seeded income categories stay as they are.
-/

namespace LumbungMesari

open Sql Js
open Prog (inTrx onPool commitTrx each_onPool each_inTrx each_commitTrx)

/-! ### Spared tables -/

/-- The tables that only the principal savings are written to, or nothing is. -/
def TableName.spared : TableName → Bool
  | .incomeCategories | .expenseCategories | .loanPeriods | .principalSavings => true
  | _ => false

class TableName.Spared (t : TableName) : Prop where
  spared : t.spared = true

instance : TableName.Spared .incomeCategories := ⟨rfl⟩

instance : TableName.Spared .principalSavings := ⟨rfl⟩

theorem ne_of_spared {t t' : TableName} [ht : t.Spared] (ht' : t'.spared = false) : t ≠ t' := by
  rintro rfl
  rw [ht.spared] at ht'
  cases ht'

section Functions

variable {t : TableName} [t.Spared]

/-! ### Loans -/

omit [t.Spared] in
theorem tame_updateOrThrow {t' : TableName} (ht : t ≠ t') {label : Label} {id : Uuid}
    {set : Row t' → Except Error (Row t')} {notFound : Error} :
    Tame t (updateOrThrow label id set notFound) := by
  refine .bind (each_inTrx (tame_updateById ht)) fun result => ?_
  cases result <;> trivial

theorem tame_createLoan {id userId loanPeriodId : Uuid} {amount : ℚ} {notes : Option String}
    {adminFeeRate : ℚ} {now : Date} : Tame t
      (createLoan id userId loanPeriodId amount notes adminFeeRate now) := by
  refine .bind (each_onPool still_select) fun found => ?_
  cases found with
  | none => trivial
  | some loanPeriod =>
      exact each_onPool (still_catchError (still_insertInto (ne_of_spared rfl) (by decide)))

theorem tame_decideLoan {loanId : Uuid} {verb : String} {status : LoanStatus}
    {approvedBy : Option Uuid} {notes : Option String} {now : Date} : Tame t
      (decideLoan loanId verb status approvedBy notes now) := by
  refine .bind (each_inTrx tame_selectForUpdate) fun found => ?_
  cases found with
  | none => trivial
  | some found =>
      dsimp only
      split
      · trivial
      · exact .bind (tame_updateOrThrow (ne_of_spared rfl)) fun _ => trivial

theorem tame_disburseLoan {ids : DisburseIds} {loanId adminId : Uuid} {now : Date} :
    Tame t (disburseLoan ids loanId adminId now) := by
  refine .bind (each_onPool still_select) fun found => ?_
  cases found with
  | none => trivial
  | some found =>
      dsimp only
      split
      · trivial
      refine .bind (each_onPool still_select) fun category => ?_
      cases category with
      | none => trivial
      | some category =>
          refine .bind (.bind (tame_updateOrThrow (ne_of_spared rfl)) fun _ => ?_) fun _ => trivial
          refine .bind (each_inTrx (tame_insertAll (ne_of_spared rfl))) fun _ => ?_
          refine .bind (tame_createExpenseInTransaction (ne_of_spared rfl) (ne_of_spared rfl))
            fun _ => ?_
          refine .bind (tame_createIncomeOf (ne_of_spared rfl)) fun fee => ?_
          exact .bind (tame_createIncomeTransaction (ne_of_spared rfl)) fun _ => trivial

theorem tame_postInstallment {ids : SettleIds} {installment : Installment} {now : Date} :
    Tame t (postInstallment ids installment now) := by
  refine .bind (tame_createIncomeOf (ne_of_spared rfl)) fun principal => ?_
  refine .bind (tame_createIncomeTransaction (ne_of_spared rfl)) fun _ => ?_
  refine .bind (tame_createIncomeOf (ne_of_spared rfl)) fun interest => ?_
  refine .bind (tame_createIncomeTransaction (ne_of_spared rfl)) fun _ => ?_
  split
  · refine .bind (tame_createIncomeOf (ne_of_spared rfl)) fun penalty => ?_
    exact .bind (tame_createIncomeTransaction (ne_of_spared rfl)) fun _ => trivial
  · trivial

theorem tame_settleInstallment {ids : SettleIds} {installmentId adminId : Uuid} {now : Date} :
    Tame t (settleInstallment ids installmentId adminId now) := by
  refine .bind (each_inTrx tame_selectForUpdate) fun found => ?_
  cases found with
  | none => trivial
  | some installment =>
      dsimp only
      split
      · trivial
      · refine .bind (tame_updateOrThrow (ne_of_spared rfl)) fun _ => ?_
        exact .bind tame_postInstallment fun _ => trivial

theorem tame_addPenaltyToInstallment {installmentId : Uuid} {penaltyAmount : Double} :
    Tame t (addPenaltyToInstallment installmentId penaltyAmount) := by
  refine .bind (each_inTrx tame_select) fun found => ?_
  cases found with
  | none => trivial
  | some installment => exact each_inTrx (tame_updateById (ne_of_spared rfl))

theorem tame_processLoanOverdueInstallments {loanId : Uuid} {installment : Installment} :
    Tame t (processLoanOverdueInstallments loanId installment) := by
  refine .bind (each_onPool still_select) fun found => ?_
  cases found with
  | none => trivial
  | some found =>
      refine .bind (each_inTrx tame_select) fun _ => ?_
      refine .bind (tame_updateOrThrow (ne_of_spared rfl)) fun _ => ?_
      dsimp only
      split
      · refine .bind (each_inTrx tame_select) fun oldest => ?_
        cases oldest with
        | none => trivial
        | some oldest => exact .bind tame_addPenaltyToInstallment fun _ => trivial
      · trivial

theorem tame_processLoans (rs : List Installment) : Tame t (processLoans rs) := by
  induction rs with
  | nil => trivial
  | cons r rs ih => exact .bind tame_processLoanOverdueInstallments fun _ => ih

theorem LoanCall.tame_program (x : LoanCall) : Tame t x.program := by
  cases x with
  | createLoan => exact .bind tame_createLoan fun _ => trivial
  | approveLoan => exact tame_decideLoan
  | rejectLoan => exact tame_decideLoan
  | disburseLoan => exact tame_disburseLoan
  | settleInstallment => exact tame_settleInstallment
  | processOverdueInstallments =>
      exact .bind (each_onPool still_select) fun rs => tame_processLoans (firstByLoan rs)

/-! ### Savings -/

theorem tame_settleMandatorySavings {ids : IncomeIds} {savingsId adminId : Uuid} {now : Date} :
    Tame t (settleMandatorySavings ids savingsId adminId now) := by
  refine .bind (each_inTrx tame_select) fun found => ?_
  cases found with
  | none => trivial
  | some mandatorySavings =>
      dsimp only
      split
      · trivial
      · refine .bind (tame_updateOrThrow (ne_of_spared rfl)) fun _ => ?_
        refine .bind (tame_createIncomeOf (ne_of_spared rfl)) fun income => ?_
        exact .bind (tame_createIncomeTransaction (ne_of_spared rfl)) fun _ => trivial

theorem tame_insertRecords {failure : Error} {ids : ℕ → Uuid}
    {records : List MandatorySavingsData} :
    Tame t (insertRecords failure ids records) :=
  .bind (each_inTrx (tame_catchError (tame_insertAllIgnoring (ne_of_spared rfl)))) fun _ => trivial

theorem tame_createYearlyMandatorySavingsForAllUsers {o : UtcOffset} {ids : ℕ → Uuid}
    {configured : Option ℚ} {now : Instant} : Tame t
      (createYearlyMandatorySavingsForAllUsers o ids configured now) := by
  refine .bind (each_onPool still_select) fun activeMemberIds => ?_
  split
  · trivial
  · exact .bind tame_insertRecords fun _ => trivial

theorem tame_generateRemainingYearSavings {o : UtcOffset} {ids : ℕ → Uuid} {configured : Option ℚ}
    {now : Instant} : Tame t (generateRemainingYearSavings o ids configured now) := by
  refine .bind (each_onPool still_select) fun activeMemberIds => ?_
  split
  · trivial
  · exact .bind tame_insertRecords fun _ => trivial

/-! ### Users -/

theorem tame_usersServiceUpdate {id : Uuid} {data : UpdateUserDto} :
    Tame t (usersServiceUpdate id data) := by
  refine .bind (each_onPool still_select) fun found => ?_
  cases found with
  | none => trivial
  | some user =>
      refine .bind (each_onPool (still_updateById (ne_of_spared rfl) (by decide))) fun result => ?_
      cases result <;> trivial

theorem tame_usersServiceUpdateInTrx {id : Uuid} {data : UpdateUserDto} :
    Tame t (usersServiceUpdateInTrx id data) := by
  refine .bind (each_inTrx tame_select) fun found => ?_
  cases found with
  | none => trivial
  | some user => exact tame_updateOrThrow (ne_of_spared rfl)

omit [t.Spared] in
theorem tame_findByIdIncludeOtp {id : Uuid} :
    Tame t (findByIdIncludeOtp id) := by
  refine .bind (each_onPool still_select) fun found => ?_
  cases found <;> trivial

theorem tame_createUser {id : Uuid} {user : CreatedUser} :
    Tame t (createUser id user) := by
  refine .bind (.bind (each_onPool still_select) fun byEmail => ?_) fun _ =>
    each_onPool (still_insertInto (ne_of_spared rfl) (by decide))
  refine .bind (each_onPool still_select) fun byUsername => ?_
  split
  · trivial
  · split <;> trivial

theorem tame_createPrincipalSavings {id userId : Uuid} {configured : Option ℚ} :
    Tame .incomeCategories (createPrincipalSavings id userId configured) := by
  refine .bind (.bind (each_inTrx tame_selectForUpdate) fun total => ?_) fun amount =>
    .bind (each_inTrx (tame_insertInto (by decide))) fun _ => trivial
  refine .bind (each_inTrx tame_select) fun count => ?_
  split <;> trivial

theorem tame_register {env : AuthEnv} {dto : RegisterDto} {hashedPassword : String} :
    Tame t (register env dto hashedPassword) := by
  unfold register
  split
  · trivial
  · exact .bind tame_createUser fun _ => trivial

theorem tame_login {compare : String → String → Bool} {env : AuthEnv}
    {identifier inputPassword : String} : Tame t (login compare env identifier inputPassword) := by
  refine .bind (each_onPool still_select) fun found => ?_
  cases found with
  | none => trivial
  | some user =>
      dsimp only
      split
      · trivial
      · split
        · exact .bind tame_usersServiceUpdate fun _ => trivial
        · trivial

theorem tame_resendOtp {env : AuthEnv} {userId : Uuid} : Tame t (resendOtp env userId) := by
  refine .bind tame_findByIdIncludeOtp fun user => ?_
  split
  · trivial
  · split
    · trivial
    · exact .bind tame_usersServiceUpdate fun _ => trivial

theorem AuthCall.tame_program {compare : String → String → Bool} {env : AuthEnv} (x : AuthCall) :
    Tame .incomeCategories (x.program compare env) := by
  cases x with
  | register => exact tame_register
  | login => exact tame_login
  | resendOtp => exact tame_resendOtp
  | verifyOtp userId otpCode =>
      rw [program, LumbungMesari.verifyOtp]
      split
      · trivial
      · refine .bind tame_findByIdIncludeOtp fun user => ?_
        split
        · trivial
        · refine .bind tame_usersServiceUpdateInTrx fun _ => ?_
          exact .bind tame_createPrincipalSavings fun _ => trivial

theorem tame_settlePrincipalSavings {ids : IncomeIds} {userId adminId : Uuid} {now : Date} :
    Tame .incomeCategories (settlePrincipalSavings ids userId adminId now) := by
  refine .bind (each_inTrx tame_select) fun found => ?_
  cases found with
  | none => trivial
  | some found =>
      dsimp only
      split
      · trivial
      · refine .bind (tame_updateOrThrow (by decide)) fun _ => ?_
        refine .bind (tame_createIncomeOf (by decide)) fun income => ?_
        exact .bind (tame_createIncomeTransaction (by decide)) fun _ => trivial

omit [t.Spared] in
theorem tame_usersServiceFindById {id : Uuid} :
    Tame t (usersServiceFindById id) := by
  refine .bind (each_onPool still_select) fun found => ?_
  cases found <;> trivial

omit [t.Spared] in
theorem tame_sendApprovalEmail {user : FoundUser} {action : ApprovalAction} {reason : Option String}
    {emailSent : Bool} :
    Tame t (sendApprovalEmail user action reason emailSent) := by
  unfold sendApprovalEmail
  split <;> trivial

theorem tame_rejectUser {userId : Uuid} {reason : String} {emailSent : Bool} :
    Tame t (rejectUser userId reason emailSent) := by
  refine .bind tame_usersServiceFindById fun user => ?_
  split
  · trivial
  · refine .bind (tame_updateOrThrow (ne_of_spared rfl)) fun _ => ?_
    exact .bind each_commitTrx fun _ => .bind tame_sendApprovalEmail fun _ => trivial

theorem MemberCall.tame_program {userId : Uuid} (x : MemberCall) :
    Tame .incomeCategories (x.program userId) := by
  cases x with
  | verifyOtp env otpCode =>
      have hverify : Tame .incomeCategories
          ((AuthCall.verifyOtp userId otpCode).program (fun _ _ => true) env) :=
        AuthCall.tame_program _
      exact .bind hverify fun _ => trivial
  | approveUser ids reason adminId emailSent now =>
      refine .bind (.bind tame_usersServiceFindById fun user => ?_) fun _ => trivial
      split
      · trivial
      · refine .bind (tame_updateOrThrow (by decide)) fun _ => ?_
        refine .bind tame_settlePrincipalSavings fun _ => ?_
        exact .bind each_commitTrx fun _ => .bind tame_sendApprovalEmail fun _ => trivial
  | rejectUser reason emailSent => exact .bind tame_rejectUser fun _ => trivial

/-! ### Calls -/

theorem LedgerCall.tame_program (x : LedgerCall) : Tame t x.program := by
  cases x with
  | createIncomeTransaction =>
      exact .bind (tame_createIncomeTransaction (ne_of_spared rfl)) fun _ => trivial
  | createExpense =>
      exact .bind (tame_createExpense (ne_of_spared rfl) (ne_of_spared rfl)) fun _ => trivial
  | updateExpense =>
      exact .bind (tame_updateExpense (ne_of_spared rfl) (ne_of_spared rfl)) fun _ => trivial
  | updateIncomeTransaction =>
      exact .bind (tame_updateTransaction (ne_of_spared rfl)) fun _ => trivial
  | deleteExpense => exact tame_deleteExpense (ne_of_spared rfl) (ne_of_spared rfl)
  | deleteIncomeTransaction => exact .bind (tame_deleteTransaction (ne_of_spared rfl)) fun _ => trivial

/-- The calls of the services, each with what comes from outside. -/
inductive ServiceCall where
  | auth (compare : String → String → Bool) (env : AuthEnv) (x : AuthCall)
  | member (userId : Uuid) (x : MemberCall)
  | loan (x : LoanCall)
  | ledger (x : LedgerCall)
  | createYearlyMandatorySavingsForAllUsers (o : UtcOffset) (ids : ℕ → Uuid)
      (configured : Option ℚ) (now : Instant)
  | generateRemainingYearSavings (o : UtcOffset) (ids : ℕ → Uuid) (configured : Option ℚ)
      (now : Instant)
  | settleMandatorySavings (ids : IncomeIds) (savingsId adminId : Uuid) (now : Date)

def ServiceCall.program : ServiceCall → Program Unit
  | auth compare env x => do
      let _ ← x.program compare env
      pure ()
  | member userId x => x.program userId
  | loan x => x.program
  | ledger x => x.program
  | createYearlyMandatorySavingsForAllUsers o ids configured now =>
      LumbungMesari.createYearlyMandatorySavingsForAllUsers o ids configured now
  | generateRemainingYearSavings o ids configured now => do
      let _ ← LumbungMesari.generateRemainingYearSavings o ids configured now
      pure ()
  | settleMandatorySavings ids savingsId adminId now =>
      LumbungMesari.settleMandatorySavings ids savingsId adminId now

theorem ServiceCall.tame_program (x : ServiceCall) : Tame .incomeCategories x.program := by
  cases x with
  | auth compare env x => exact .bind x.tame_program fun _ => trivial
  | member userId x => exact x.tame_program
  | loan x => exact x.tame_program
  | ledger x => exact x.tame_program
  | createYearlyMandatorySavingsForAllUsers =>
      exact tame_createYearlyMandatorySavingsForAllUsers
  | generateRemainingYearSavings =>
      exact .bind tame_generateRemainingYearSavings fun _ => trivial
  | settleMandatorySavings => exact tame_settleMandatorySavings

end Functions

/-! ### States -/

/-- The balances are in range, and the income categories are the given ones. -/
structure Sound (categories : Table IncomeCategory IncomeCategory.id) (d : Database) : Prop where
  inRange : d.InRange
  categories : d.table .incomeCategories = categories

/-- What holds of a session over a committed state: what it sees is sound, and it has locked what it
has written. -/
structure SoundSession (categories : Table IncomeCategory IncomeCategory.id) (d : Database) (s : Trx) :
    Prop where
  committed : Sound categories d
  view : (s.view d).InRange
  covered : ∀ w ∈ s.log, needs w ⊆ s.locks
  spares : ∀ w ∈ s.log, w.Spares .incomeCategories

section Sessions

variable {categories : Table IncomeCategory IncomeCategory.id} {d d' : Database} {s : Trx}
  {S : Contract Database LockTarget Label} {ws : List Write}

theorem Sound.idle (h : Sound categories d) : SoundSession categories d .idle where
  committed := h
  view := h.inRange
  covered _ hw := by cases hw
  spares _ hw := by cases hw

theorem SoundSession.balance_env [S.Stable (W := Write)] (h : SoundSession categories d s)
    (henv : S.env s.locks d d') {b : BalanceType} {w : Write} (hw : w ∈ s.log)
    (hdelta : w.delta b ≠ 0) : d.balances b = d'.balances b := by
  cases w with
  | addBalance b' delta =>
      obtain rfl : b' = b := by
        by_contra hne
        exact hdelta (if_neg hne)
      exact Database.agree_balance (Contract.Stable.agree henv
        (h.covered _ hw (List.mem_singleton_self _)) rfl)
  | insert | update | delete => exact absurd rfl hdelta

theorem SoundSession.env [S.Stable (W := Write)] (h : SoundSession categories d s)
    (henv : S.env s.locks d d') (hd' : Sound categories d') : SoundSession categories d' s where
  committed := hd'
  view b := by
    by_cases hmoved : ∃ w ∈ s.log, w.delta b ≠ 0
    · obtain ⟨w, hw, hdelta⟩ := hmoved
      have hb := h.view b
      rw [Session.view, Database.balances_applyAll, h.balance_env henv hw hdelta] at hb
      rwa [Session.view, Database.balances_applyAll]
    · have hzero : (s.log.map (Write.delta b)).sum = 0 := by
        refine List.sum_eq_zero fun z hz => ?_
        obtain ⟨w, hw, rfl⟩ := List.mem_map.1 hz
        exact not_not.1 fun hne => hmoved ⟨w, hw, hne⟩
      rw [Session.view, Database.balances_applyAll, hzero, add_zero]
      exact hd'.inRange b
  covered := h.covered
  spares := h.spares

theorem SoundSession.still (h : SoundSession categories d s)
    (hspares : ∀ w ∈ ws, w.Spares .incomeCategories) (hstill : ∀ w ∈ ws, w.Still) :
    SoundSession categories (applyAll d ws) s where
  committed :=
    ⟨fun b => by
      rw [balances_of_still hstill]
      exact h.committed.inRange b,
    (Database.table_applyAll hspares).trans h.committed.categories⟩
  view b := by
    have hb := h.view b
    rw [Session.view, Database.balances_applyAll] at hb
    rwa [Session.view, Database.balances_applyAll, balances_of_still hstill]
  covered := h.covered
  spares := h.spares

theorem SoundSession.commit (h : SoundSession categories d s) : Sound categories (s.view d) :=
  ⟨h.view, (Database.table_applyAll h.spares).trans h.committed.categories⟩

/-- Tame statements keep a session sound, under every contract that is about sound states. -/
theorem sessionInvariant [S.Stable (W := Write)]
    (henv : ∀ {l d d'}, S.env l d d' → Sound categories d → Sound categories d')
    (hguar : ∀ {l d d'}, Sound categories d' → S.guar l d d') :
    Prog.SessionInvariant S (fun _ (st : Statement _) => StillStatement .incomeCategories st)
      (fun _ (st : Statement _) => TameStatement .incomeCategories st)
      (SoundSession categories) where
  env hmove h := h.env hmove (henv hmove h.committed)
  auto hst h hexec :=
    have hnext := h.still (hst.spares _ _ _ hexec) (hst.still _ _ _ hexec)
    ⟨hguar hnext.committed, hnext⟩
  stmt {β d s ws b st} hst h hexec :=
    { committed := h.committed
      view := by
        rw [Session.view_extend]
        exact hst.inRange hexec h.view
      covered := fun w hw => by
        rcases List.mem_append.1 hw with hw | hw
        · exact List.Subset.trans (h.covered w hw) (List.subset_append_left ..)
        · exact List.Subset.trans (st.covered hexec w hw) (List.subset_append_right ..)
      spares := fun w hw => (List.mem_append.1 hw).elim (h.spares w) (hst.spares _ _ _ hexec w) }
  commit h := ⟨hguar h.commit, h.commit.idle⟩

theorem Tame.after {p : Program Unit} (hp : Tame .incomeCategories p) (hd : Sound categories d) :
    Sound categories (p.after d) := by
  have hwp : p.wp (Prog.alone fun _ d' => Sound categories d') (fun _ _ _ => True) d .idle :=
    Prog.wp_mono (fun _ _ _ _ => trivial) (hp.wp (sessionInvariant
      (S := Prog.alone fun _ d' => Sound categories d')
      (fun henv hd => by
        obtain rfl := henv
        exact hd) id) hd.idle)
  exact Prog.after_keeps (I := Sound categories) (fun _ hd' => hd') hwp hd

end Sessions

/-! ### Runs -/

def soundProtocol (categories : Table IncomeCategory IncomeCategory.id) :
    Protocol Database LockTarget Label ServiceCall where
  inv := Sound categories
  allows _ _ := True
  guar _ _ _ d' := Sound categories d'
  keeps _ h := h

/-- Every state that the services can reach is sound. -/
theorem sound_of_reach {d₀ : Database} (h₀ : d₀.InRange)
    {s : Sys Database Write LockTarget Label Error ServiceCall}
    (hreach : Sys.Reach ServiceCall.program (Sys.start d₀) s) :
    Sound (d₀.table .incomeCategories) s.committed := by
  have hprog : ∀ (x : ServiceCall) (d : Database), Sound (d₀.table .incomeCategories) d →
      x.program.wp ((soundProtocol (d₀.table .incomeCategories)).contract x) (fun _ _ _ => True) d
        .idle := fun x d hd =>
    Prog.wp_mono (fun _ _ _ _ => trivial) (x.tame_program.wp
      (sessionInvariant (S := (soundProtocol (d₀.table .incomeCategories)).contract x)
        (fun henv hd => Protocol.Env.inv henv hd) id) hd.idle)
  exact (Protocol.sound (P := soundProtocol (d₀.table .incomeCategories)) hprog
    (Protocol.good_start ⟨h₀, rfl⟩) hreach).inv

end LumbungMesari
