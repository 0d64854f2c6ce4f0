import LumbungMesari.DisbursementRules
import LumbungMesari.Ranges

/-!
# The tables each function writes

Most functions of the services write rows of one or two tables and nothing else: no balance, and no
row of the ledger. A list of tables bounds what a function writes, in every state it is run in.
-/

namespace LumbungMesari

open Sql Js
open Prog (inTrx onPool commitTrx writes_inTrx writes_onPool)

/-- A write of a row of one of the tables. -/
def Write.Within (tables : List TableName) (w : Write) : Prop := ∃ t ∈ tables, w.table? = some t

/-- A program that writes rows of the tables only. -/
abbrev WritesTables (tables : List TableName) {α : Type} (p : Program α) : Prop :=
  p.Writes (Write.Within tables)

section Writes

variable {tables : List TableName} {t : TableName} {w : Write} {β : Type}

theorem Write.Within.spares (h : w.Within tables) (ht : t ∉ tables) : w.Spares t := by
  obtain ⟨t', ht', hw⟩ := h
  rw [Write.Spares, hw, ne_eq, Option.some.injEq]
  rintro rfl
  exact ht ht'

theorem Write.Within.still (h : w.Within tables) : w.Still := by
  obtain ⟨t', -, hw⟩ := h
  exact still_of_table? (by simp [hw])

theorem within_insertRow {d : Database} {r : Row t} {ws : List Write} (ht : t ∈ tables)
    (hledger : t ≠ .cashbookTransactions) (h : insertRow d t r = .ok ws) :
    ∀ w ∈ ws, w.Within tables := by
  obtain ⟨-, rfl⟩ := insertRow_plain hledger h
  intro w hw
  rw [List.mem_singleton.1 hw]
  exact ⟨t, ht, rfl⟩

theorem within_insertInto {row : Except Error (Row t)} (ht : t ∈ tables)
    (hledger : t ≠ .cashbookTransactions) : (insertInto t row).Writes (Write.Within tables) := by
  intro d ws b hexec
  obtain ⟨r, -, hexec⟩ := bind_ok hexec
  obtain ⟨ws', hinsert, hexec⟩ := bind_ok hexec
  cases hexec
  exact within_insertRow ht hledger hinsert

theorem within_insertAll {rows : Except Error (List (Row t))} (ht : t ∈ tables)
    (hledger : t ≠ .cashbookTransactions) : (insertAll t rows).Writes (Write.Within tables) := by
  intro d ws b hexec w hw
  obtain ⟨rs, -, hexec⟩ := bind_ok hexec
  obtain ⟨ws', hinsert, hexec⟩ := bind_ok hexec
  cases hexec
  obtain ⟨rfl, -⟩ := insertRows_plain hledger hinsert
  obtain ⟨r, -, rfl⟩ := List.mem_map.1 hw
  exact ⟨t, ht, rfl⟩

theorem within_insertRowsIgnoring {d : Database} {key : Row t → UniqueKey} {rs : List (Row t)}
    {ws : List Write} (ht : t ∈ tables) (hledger : t ≠ .cashbookTransactions)
    (h : insertRowsIgnoring d t key rs = .ok ws) : ∀ w ∈ ws, w.Within tables := by
  induction rs generalizing d ws with
  | nil =>
      cases h
      exact fun w hw => by cases hw
  | cons r rs ih =>
      obtain ⟨ws₁, hrow, h⟩ := bind_ok h
      obtain ⟨ws₂, hrest, h⟩ := bind_ok h
      cases h
      refine fun w hw => (List.mem_append.1 hw).elim (fun hw => ?_) (ih hrest w)
      unfold insertRowIgnoring at hrow
      split at hrow
      · cases hrow
        cases hw
      · exact within_insertRow ht hledger hrow w hw

theorem within_insertAllIgnoring {key : Row t → UniqueKey} {rows : Except Error (List (Row t))}
    (ht : t ∈ tables) (hledger : t ≠ .cashbookTransactions) :
    (insertAllIgnoring t key rows).Writes (Write.Within tables) := by
  intro d ws b hexec
  obtain ⟨rs, -, hexec⟩ := bind_ok hexec
  obtain ⟨ws', hinsert, hexec⟩ := bind_ok hexec
  cases hexec
  exact within_insertRowsIgnoring ht hledger hinsert

theorem within_updateById {label : Label} {id : Uuid} {set : Row t → Except Error (Row t)}
    (ht : t ∈ tables) (hledger : t ≠ .cashbookTransactions) :
    (updateById label t id set).Writes (Write.Within tables) := by
  intro d ws b hexec w hw
  simp only [updateById, statement] at hexec
  split at hexec
  · cases hexec
    cases hw
  · obtain ⟨new, -, hexec⟩ := bind_ok hexec
    obtain ⟨ws', hupdate, hexec⟩ := bind_ok hexec
    cases hexec
    obtain ⟨-, rfl⟩ := updateRow_plain hledger hupdate
    rw [List.mem_singleton.1 hw]
    exact ⟨t, ht, rfl⟩

theorem within_updateOrThrow {label : Label} {id : Uuid} {set : Row t → Except Error (Row t)}
    {notFound : Error} (ht : t ∈ tables) (hledger : t ≠ .cashbookTransactions) :
    WritesTables tables (updateOrThrow label id set notFound) := by
  refine .bind (writes_inTrx (within_updateById ht hledger)) fun result => ?_
  cases result <;> trivial

end Writes

section Functions

variable {tables : List TableName} {now : Date}

/-! ### Loans -/

theorem within_createLoan {id userId loanPeriodId : Uuid} {amount : ℚ} {notes : Option String}
    {adminFeeRate : ℚ} (h : .loans ∈ tables) :
    WritesTables tables (createLoan id userId loanPeriodId amount notes adminFeeRate now) := by
  refine .bind (writes_onPool writes_select) fun found => ?_
  cases found with
  | none => trivial
  | some loanPeriod => exact writes_onPool (writes_catchError (within_insertInto h (by decide)))

theorem within_decideLoan {loanId : Uuid} {verb : String} {status : LoanStatus}
    {approvedBy : Option Uuid} {notes : Option String} (h : .loans ∈ tables) :
    WritesTables tables (decideLoan loanId verb status approvedBy notes now) := by
  refine .bind (writes_inTrx writes_selectForUpdate) fun found => ?_
  cases found with
  | none => trivial
  | some found =>
      dsimp only
      split
      · trivial
      · exact .bind (within_updateOrThrow h (by decide)) fun _ => trivial

theorem within_addPenaltyToInstallment {installmentId : Uuid} {penaltyAmount : Double}
    (h : .installments ∈ tables) :
    WritesTables tables (addPenaltyToInstallment installmentId penaltyAmount) := by
  refine .bind (writes_inTrx writes_select) fun found => ?_
  cases found with
  | none => trivial
  | some installment => exact writes_inTrx (within_updateById h (by decide))

theorem within_processLoanOverdueInstallments {loanId : Uuid} {installment : Installment}
    (h : .installments ∈ tables) :
    WritesTables tables (processLoanOverdueInstallments loanId installment) := by
  refine .bind (writes_onPool writes_select) fun found => ?_
  cases found with
  | none => trivial
  | some found =>
      refine .bind (writes_inTrx writes_select) fun _ => ?_
      refine .bind (within_updateOrThrow h (by decide)) fun _ => ?_
      dsimp only
      split
      · refine .bind (writes_inTrx writes_select) fun oldest => ?_
        cases oldest with
        | none => trivial
        | some oldest => exact .bind (within_addPenaltyToInstallment h) fun _ => trivial
      · trivial

theorem within_processOverdueInstallments (h : .installments ∈ tables) :
    WritesTables tables (processOverdueInstallments now) := by
  refine .bind (writes_onPool writes_select) fun rs => ?_
  induction firstByLoan rs with
  | nil => trivial
  | cons r rs ih => exact .bind (within_processLoanOverdueInstallments h) fun _ => ih

theorem within_disburseLoanRow {loanId : Uuid} (h : .loans ∈ tables) :
    WritesTables tables (disburseLoanRow loanId now) := within_updateOrThrow h (by decide)

theorem within_createInstallments {installments : Except Error (List Installment)}
    (h : .installments ∈ tables) : WritesTables tables (createInstallments installments) :=
  writes_inTrx (within_insertAll h (by decide))

theorem within_settleInstallmentRow {installmentId adminId : Uuid} (h : .installments ∈ tables) :
    WritesTables tables (settleInstallmentRow installmentId adminId now) :=
  within_updateOrThrow h (by decide)

/-! ### Money -/

theorem within_createIncomeOf {code : String} {id : Uuid} {data : IncomeData}
    (h : .incomes ∈ tables) : WritesTables tables (createIncomeOf code id data now) := by
  refine .bind (writes_inTrx writes_select) fun category => ?_
  cases category with
  | none => trivial
  | some category => exact writes_inTrx (within_insertInto h (by decide))

theorem within_findNewCategory {dto : UpdateExpenseDto} :
    WritesTables tables (findNewCategory dto) := by
  unfold findNewCategory
  split
  · trivial
  · refine .bind (writes_onPool writes_select) fun category => ?_
    cases category <;> trivial

theorem within_readExpense {id : Uuid} : WritesTables tables (readExpense id) := by
  refine .bind (writes_onPool writes_select) fun found => ?_
  cases found <;> trivial

/-! ### Savings -/

theorem within_insertRecords {failure : Error} {ids : ℕ → Uuid}
    {records : List MandatorySavingsData} (h : .mandatorySavings ∈ tables) :
    WritesTables tables (insertRecords failure ids records) :=
  .bind (writes_inTrx (writes_catchError (within_insertAllIgnoring h (by decide)))) fun _ => trivial

theorem within_createYearlyMandatorySavingsForAllUsers {o : UtcOffset} {ids : ℕ → Uuid}
    {configured : Option ℚ} {now : Instant} (h : .mandatorySavings ∈ tables) :
    WritesTables tables (createYearlyMandatorySavingsForAllUsers o ids configured now) := by
  refine .bind (writes_onPool writes_select) fun activeMemberIds => ?_
  split
  · trivial
  · exact .bind (within_insertRecords h) fun _ => trivial

theorem within_generateRemainingYearSavings {o : UtcOffset} {ids : ℕ → Uuid}
    {configured : Option ℚ} {now : Instant} (h : .mandatorySavings ∈ tables) :
    WritesTables tables (generateRemainingYearSavings o ids configured now) := by
  refine .bind (writes_onPool writes_select) fun activeMemberIds => ?_
  split
  · trivial
  · exact .bind (within_insertRecords h) fun _ => trivial

theorem within_updateMandatorySavings {id adminId : Uuid} (h : .mandatorySavings ∈ tables) :
    WritesTables tables (updateMandatorySavings id adminId now) :=
  within_updateOrThrow h (by decide)

theorem within_updatePrincipalSavings {id adminId : Uuid} (h : .principalSavings ∈ tables) :
    WritesTables tables (updatePrincipalSavings id adminId now) :=
  within_updateOrThrow h (by decide)

theorem within_createPrincipalSavings {id userId : Uuid} {configured : Option ℚ}
    (h : .principalSavings ∈ tables) :
    WritesTables tables (createPrincipalSavings id userId configured) := by
  refine .bind (.bind (writes_inTrx writes_selectForUpdate) fun total => ?_) fun amount =>
    .bind (writes_inTrx (within_insertInto h (by decide))) fun _ => trivial
  refine .bind (writes_inTrx writes_select) fun count => ?_
  split <;> trivial

/-! ### Users -/

theorem within_usersServiceUpdate {id : Uuid} {data : UpdateUserDto} (h : .users ∈ tables) :
    WritesTables tables (usersServiceUpdate id data) := by
  refine .bind (writes_onPool writes_select) fun found => ?_
  cases found with
  | none => trivial
  | some user =>
      refine .bind (writes_onPool (within_updateById h (by decide))) fun result => ?_
      cases result <;> trivial

theorem within_usersServiceUpdateInTrx {id : Uuid} {data : UpdateUserDto} (h : .users ∈ tables) :
    WritesTables tables (usersServiceUpdateInTrx id data) := by
  refine .bind (writes_inTrx writes_select) fun found => ?_
  cases found with
  | none => trivial
  | some user => exact within_updateOrThrow h (by decide)

theorem within_findByIdIncludeOtp {id : Uuid} : WritesTables tables (findByIdIncludeOtp id) := by
  refine .bind (writes_onPool writes_select) fun found => ?_
  cases found <;> trivial

theorem within_usersServiceFindById {id : Uuid} : WritesTables tables (usersServiceFindById id) := by
  refine .bind (writes_onPool writes_select) fun found => ?_
  cases found <;> trivial

theorem within_createUser {id : Uuid} {user : CreatedUser} (h : .users ∈ tables) :
    WritesTables tables (createUser id user) := by
  refine .bind (.bind (writes_onPool writes_select) fun byEmail => ?_) fun _ =>
    writes_onPool (within_insertInto h (by decide))
  refine .bind (writes_onPool writes_select) fun byUsername => ?_
  split
  · trivial
  · split <;> trivial

theorem within_register {env : AuthEnv} {dto : RegisterDto} {hashedPassword : String}
    (h : .users ∈ tables) : WritesTables tables (register env dto hashedPassword) := by
  unfold register
  split
  · trivial
  · exact .bind (within_createUser h) fun _ => trivial

theorem within_login {compare : String → String → Bool} {env : AuthEnv}
    {identifier inputPassword : String} (h : .users ∈ tables) :
    WritesTables tables (login compare env identifier inputPassword) := by
  refine .bind (writes_onPool writes_select) fun found => ?_
  cases found with
  | none => trivial
  | some user =>
      dsimp only
      split
      · trivial
      · split
        · exact .bind (within_usersServiceUpdate h) fun _ => trivial
        · trivial

theorem within_resendOtp {env : AuthEnv} {userId : Uuid} (h : .users ∈ tables) :
    WritesTables tables (resendOtp env userId) := by
  refine .bind within_findByIdIncludeOtp fun user => ?_
  split
  · trivial
  · split
    · trivial
    · exact .bind (within_usersServiceUpdate h) fun _ => trivial

theorem within_verifyOtp {env : AuthEnv} {userId : Uuid} {otpCode : String} (hu : .users ∈ tables)
    (hp : .principalSavings ∈ tables) : WritesTables tables (verifyOtp env userId otpCode) := by
  unfold verifyOtp
  split
  · trivial
  refine .bind within_findByIdIncludeOtp fun user => ?_
  split
  · trivial
  refine .bind (within_usersServiceUpdateInTrx hu) fun _ => ?_
  exact .bind (within_createPrincipalSavings hp) fun _ => trivial

theorem within_updateStatus {id : Uuid} {status : UserStatus} (h : .users ∈ tables) :
    WritesTables tables (updateStatus id status) := within_updateOrThrow h (by decide)

theorem within_sendApprovalEmail {user : FoundUser} {action : ApprovalAction}
    {reason : Option String} {emailSent : Bool} :
    WritesTables tables (sendApprovalEmail user action reason emailSent) := by
  unfold sendApprovalEmail
  split <;> trivial

theorem within_rejectUser {userId : Uuid} {reason : String} {emailSent : Bool}
    (h : .users ∈ tables) : WritesTables tables (rejectUser userId reason emailSent) := by
  refine .bind within_usersServiceFindById fun user => ?_
  split
  · trivial
  · refine .bind (within_updateStatus h) fun _ => ?_
    exact .bind trivial fun _ => .bind within_sendApprovalEmail fun _ => trivial

theorem AuthCall.within_program {compare : String → String → Bool} {env : AuthEnv}
    (hu : .users ∈ tables) (hp : .principalSavings ∈ tables) (x : AuthCall) :
    WritesTables tables (x.program compare env) := by
  cases x with
  | register => exact within_register hu
  | login => exact within_login hu
  | resendOtp => exact within_resendOtp hu
  | verifyOtp => exact within_verifyOtp hu hp

end Functions

end LumbungMesari
