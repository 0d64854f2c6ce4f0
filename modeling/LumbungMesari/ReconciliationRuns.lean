import LumbungMesari.Generations
import LumbungMesari.Reconciliation

/-!
# Reconciliation over runs

No call moves the balances by anything but what its records say. The functions that post incomes and
take them back have no callers of their own: an income is posted where a loan, an installment or
savings are settled.
-/

namespace LumbungMesari

open Sql
open Prog (inTrx onPool commitTrx each_inTrx each_onPool)

variable {initial : BalanceType → ℤ} {d d' : Database} {now : Date}

/-! ### Records of savings -/

theorem insertRowsIgnoring_ok {t : TableName} {key : Row t → UniqueKey} {rs : List (Row t)}
    {ws : List Write} (ht : t ≠ .cashbookTransactions)
    (h : insertRowsIgnoring d t key rs = .ok ws) :
    ∃ new : List (Row t), new.Sublist rs ∧ ws = new.map (Write.insert t) := by
  induction rs generalizing d ws with
  | nil =>
      cases h
      exact ⟨[], .slnil, rfl⟩
  | cons r rs ih =>
      obtain ⟨ws₁, hrow, h⟩ := bind_ok h
      obtain ⟨ws₂, hrest, h⟩ := bind_ok h
      cases h
      obtain ⟨new, hsub, rfl⟩ := ih hrest
      unfold insertRowIgnoring at hrow
      split at hrow
      · cases hrow
        exact ⟨new, hsub.cons r, rfl⟩
      · obtain ⟨-, rfl⟩ := insertRow_plain ht hrow
        exact ⟨r :: new, hsub.cons_cons r, rfl⟩

theorem keeps_insertRecords {failure : Error} {ids : ℕ → Uuid}
    {records : List MandatorySavingsData} :
    (insertRecords failure ids records).Each (fun _ st => st.Writes fun _ => False) fun _ st =>
      st.Keeps (Reconciled initial) := by
  refine .bind (each_inTrx fun d ws b hd hexec => ?_) fun _ => trivial
  obtain ⟨rs, hrows, hexec⟩ := bind_ok (catchError_ok hexec)
  have htoRow := rowsOfRecords_ok hrows
  obtain ⟨ws', hinsert, hexec⟩ := bind_ok hexec
  cases hexec
  obtain ⟨new, hsub, rfl⟩ := insertRowsIgnoring_ok (by decide) hinsert
  refine hd.inserts (by decide) (by decide) fun r hr b => ?_
  obtain ⟨i, hi⟩ := LoanFile.exists_of_forall₂ (mapM_ok htoRow) (hsub.subset hr)
  obtain ⟨_, -, hi⟩ := bind_ok hi
  cases hi
  rfl

theorem settleMandatorySavings_alone {ids : IncomeIds} {savingsId adminId : Uuid}
    (h : Reconciled initial d) : (settleMandatorySavings ids savingsId adminId now).wp
      (Prog.alone fun _ d' => Reconciled initial d') (fun _ _ _ => True) d .idle := by
  unfold settleMandatorySavings findMandatorySavingsById updateMandatorySavings
  rw [Prog.wp_bind']
  refine wp_select fun d₁ henv₁ => ?_
  obtain rfl : d = d₁ := henv₁
  rw [Session.view_idle]
  split
  · trivial
  rename_i m hfound
  split
  · trivial
  rename_i hunpaid
  obtain rfl : m.id = savingsId := Database.find_id hfound
  rw [Prog.wp_bind']
  refine updateOrThrow_wp (by decide) fun d₂ old new l henv₂ hfind hset _ _ _ => ?_
  obtain rfl : d = d₂ := henv₂
  rw [Session.view_idle, hfound, Option.some.injEq] at hfind
  subst hfind
  obtain rfl := Except.ok.inj hset
  unfold createMandatorySavingsIncome
  simp only [Prog.wp_bind']
  refine record_wp ids fun d₃ inc r l₃ henv₃ hrecorded _ d₄ henv₄ => ⟨?_, trivial⟩
  obtain rfl : d = d₃ := henv₃
  obtain rfl : d = d₄ := henv₄
  rw [Session.view_extend] at hrecorded ⊢
  rw [Session.view_extend]
  have hsettled := h.update (t := .mandatorySavings) (r := m.settle adminId now) (by decide)
    (by decide) hfound
  refine (hsettled.record hrecorded).start fun b => ?_
  have hadds : r.signed b = m.collected b := by
    rw [Receipt.signed_eq (x := savingsReceipt ids m) hrecorded b]
    cases b <;> rfl
  have hpaid : Row.worth b .mandatorySavings (m.settle adminId now) = m.collected b := rfl
  have hunpaid : Row.worth b .mandatorySavings m = 0 := if_neg hunpaid
  rw [hadds, hpaid, hunpaid]
  ring

/-! ### Loans -/

section Loans

variable {c : Uuid → Conduct} {s : Trx}

/-- What is paid out of capital is an expense like any other. -/
theorem createCapitalExpense_alone {guar : Database → Database → Prop} {ids : ExpenseIds}
    {dto : CreateExpenseDto} {currentUserId : Uuid} {Q : Expense → Database → Trx → Prop}
    {m : Money} (hsource : dto.source = some .capital) (hm : dto.amount = m.toRat)
    (hrange : (s.view d).InRange)
    (h : ∀ source e r l, ExpenseCreated (s.view d) ids dto source e r →
      Q e d (s.extend (.insert .expenses e :: r.postings) l)) :
    (createExpenseInTransaction ids dto currentUserId now).wp (Prog.alone guar) Q d s := by
  by_cases hamount : 0 < dto.amount
  · refine createExpenseInTransaction_wp hamount (fun d' henv => ?_)
      fun d₁ d' category e r l henv₁ henv _ hcreated _ => ?_
    · obtain rfl : d = d' := henv
      exact hrange
    · obtain rfl : d = d₁ := henv₁
      obtain rfl : d = d' := henv
      exact h _ e r l hcreated
  · -- an amount that is not positive fails the check of the expense
    unfold createExpenseInTransaction findExpenseCategoryById allocateAmounts createExpenseRow
    rw [Prog.wp_bind']
    refine wp_selectOnPool fun d₁ henv₁ => ?_
    split
    · trivial
    rw [hsource, Option.getD_some, Prog.wp_bind', Prog.wp_bind']
    refine wp_selectForUpdate fun d₂ l₂ henv₂ _ => ?_
    dsimp only
    split
    · trivial
    rename_i allocation hallocate
    rw [hm] at hallocate
    rw [Prog.wp_pure, Prog.wp_bind', stored_capital hallocate, ← hm]
    refine wp_insertInto fun d₃ e ws l₃ henv₃ hrow hinsert hneeds₃ => ?_
    have hstored := NewExpense.toRow_ok hrow
    have hpositive := e.amountsPositive
    rw [units_eq_zero hstored.shuAmount, zero_add, Numeric.ofRat?_some hstored.capitalAmount]
      at hpositive
    exact absurd (pos_of_mul_pos_left (pos_of_roundHalfAway_pos hpositive) (by norm_num)) hamount

/-- A disbursement that runs alone pays out what its expense says and keeps what its fee says. -/
theorem disburseLoan_alone (h : Reconciled initial d) (hrange : d.InRange) {ids : DisburseIds}
    {loanId adminId : Uuid} : (disburseLoan ids loanId adminId now).wp
      (Prog.alone fun _ d' => Reconciled initial d') (fun _ _ _ => True) d .idle := by
  unfold disburseLoan findLoanById findExpenseCategoryByCode
  rw [Prog.wp_bind']
  refine wp_selectOnPool fun d₁ henv₁ => ?_
  obtain rfl : d = d₁ := henv₁
  split
  · trivial
  rename_i loan loanPeriod hloan
  split
  · trivial
  rename_i happroved
  rw [ne_eq, not_not] at happroved
  rw [Prog.wp_bind']
  refine wp_selectOnPool fun d₂ henv₂ => ?_
  obtain rfl : d = d₂ := henv₂
  split
  · trivial
  obtain ⟨hfound, -⟩ := loanWithPeriod_some hloan
  rw [Prog.wp_bind', disburseLoanInTransaction, Prog.wp_bind', disburseLoanRow]
  refine updateOrThrow_wp (by decide) fun d₃ current new l₃ henv₃ hfind hset _ _ _ => ?_
  obtain rfl : d = d₃ := henv₃
  obtain rfl : current.disburse now = new := Except.ok.inj hset
  obtain rfl : loan.id = loanId := Database.find_id hfound
  obtain rfl : loan = current := Option.some.inj (hfound.symm.trans hfind)
  have hactive := h.update (t := .loans) (r := loan.disburse now) (by decide) (by decide) hfound
  rw [Prog.wp_bind']
  refine createInstallments_wp fun d₄ rs l₄ henv₄ hschedule _ _ => ?_
  obtain rfl : d = d₄ := henv₄
  have hunpaid : ∀ r ∈ rs, ∀ b, Row.worth b .installments r = 0 := by
    intro r hr b
    obtain ⟨i, hi⟩ := LoanFile.exists_of_forall₂ (generateInstallments_ok hschedule) hr
    exact worth_unpaidInstallment (by rw [hi.status]; decide) b
  have hscheduled := hactive.inserts (t := .installments) (by decide) (by decide) hunpaid
  rw [extend_extend, Prog.wp_bind']
  have hrange' : (applyAll d ([.update .loans (loan.disburse now)] ++
      rs.map (Write.insert .installments))).InRange := by
    intro b
    rw [balances_of_still]
    · exact hrange b
    · intro w hw
      refine still_of_table? ?_
      rcases List.mem_append.1 hw with hw | hw
      · rw [List.mem_singleton.1 hw]
        simp [Write.table?]
      · obtain ⟨r, -, rfl⟩ := List.mem_map.1 hw
        simp [Write.table?]
  refine createCapitalExpense_alone rfl rfl hrange' fun source e r l₅ hcreated => ?_
  rw [extend_extend, Prog.wp_bind', createLoanAdminFeeIncome]
  refine record_wp ⟨ids.income, ids.ledger⟩ fun d₆ inc r' l₆ henv₆ hfee _ => ?_
  obtain rfl : d = d₆ := henv₆
  rw [extend_extend]
  refine Prog.wp_commitTrx.2 fun d₇ henv₇ => ⟨?_, trivial⟩
  obtain rfl : d = d₇ := henv₇
  rw [Session.view_extend, applyAll_append] at hfee
  have hpaid := (hscheduled.createExpense hrange' hcreated).record hfee
  rw [Session.view_extend, applyAll_append, applyAll_append]
  refine hpaid.start fun b => ?_
  obtain ⟨hshu, hcapital⟩ := hfee.amounts (m := loan.adminFeeAmount) rfl
  have hfeeAmount : r'.signed b = amountsOf loan.adminFeeAmount 0 b := by
    rw [CashbookTransaction.signed, hfee.direction]
    cases b <;> simp [CashbookTransaction.amount, Direction.sign, amountsOf, hshu, hcapital]
  have hdisbursed : Row.worth b .loans (loan.disburse now) = amountsOf loan.adminFeeAmount 0 b := rfl
  have hwaiting : Row.worth b .loans loan = 0 :=
    worth_undisbursed (by rw [happroved]; decide) (by rw [happroved]; decide) b
  rw [hfeeAmount, hdisbursed, hwaiting]
  ring

theorem Reconciled.marking (h : Reconciled initial d) {old : Installment}
    (hfound : d.find .installments old.id = some old) (hdue : old.status = .due) :
    Reconciled initial (marking old d) := by
  refine h.update_same (t := .installments) (r := old.setStatus .overdue) (by decide) (by decide)
    hfound fun b => ?_
  rw [worth_unpaidInstallment (by simp [Installment.setStatus]),
    worth_unpaidInstallment (by rw [hdue]; decide)]

/-- Disbursements apart, what is done to loans and installments is a settlement, or
concerns nothing that is paid. -/
theorem Reconciled.loanStep (h : Reconciled initial d) (hstep : LoanStep c d d')
    (hc : ∀ loanId loan loanPeriod, ¬(c loanId).disburses loan loanPeriod) :
    Reconciled initial d' := by
  cases hstep with
  | created fresh period asked created =>
      exact h.insert (t := .loans) (by decide) (by decide)
        (worth_undisbursed (by rw [created.status]; decide) (by rw [created.status]; decide))
  | @decided loan status approvedBy notes now found pending decision =>
      have hwaiting : ∀ b, Row.worth b .loans loan = 0 :=
        worth_undisbursed (by rw [pending]; decide) (by rw [pending]; decide)
      rcases decision with rfl | rfl
      · exact h.update_same (t := .loans) (by decide) (by decide) found fun b =>
          (hwaiting b).symm ▸ worth_undisbursed (by simp [Loan.setStatus]) (by simp [Loan.setStatus]) b
      · exact h.update_same (t := .loans) (by decide) (by decide) found fun b =>
          (hwaiting b).symm ▸ worth_undisbursed (by simp [Loan.setStatus]) (by simp [Loan.setStatus]) b
  | disbursed period approved disburses => exact absurd disburses (hc _ _ _)
  | @settled ids adminId now i ps found unpaid settles recorded =>
      have hsettled := h.update (t := .installments) (r := i.settle adminId now) (by decide)
        (by decide) found
      rw [← specs_installmentReceipts] at recorded
      refine (hsettled.receipts recorded).start fun b => ?_
      have hpaid : Row.worth b .installments (i.settle adminId now) = i.collected b := rfl
      rw [sum_installmentReceipts, hpaid, worth_unpaidInstallment unpaid]
      ring
  | @marked old found due => exact h.marking found due
  | @penalized old cur new loan loanPeriod found due period foundCur sameLoan overdue unpenalized
      charges set =>
      obtain ⟨_, _, -, -, rfl⟩ := penalized_ok set
      refine (h.marking found due).update_same (t := .installments) (by decide) (by decide) foundCur
        fun b => ?_
      rw [worth_unpaidInstallment (i := cur) (by rw [overdue]; decide), worth_unpaidInstallment]
      rw [overdue]
      decide

theorem LoanCall.reconciled_after (h : Reconciled initial d) (hrange : d.InRange) (x : LoanCall) :
    Reconciled initial (x.program.after d) := by
  by_cases hx : ∃ ids loanId adminId now, x = .disburseLoan ids loanId adminId now
  · obtain ⟨ids, loanId, adminId, now, rfl⟩ := hx
    exact Prog.after_keeps (I := Reconciled initial) (fun _ h' => h') (disburseLoan_alone h hrange) h
  · have hfollows : x.Follows (fun _ =>
        ⟨fun _ => True, fun _ _ => True, fun _ _ => False, fun _ _ => True⟩) d := by
      cases x with
      | disburseLoan => exact absurd ⟨_, _, _, _, rfl⟩ hx
      | createLoan => trivial
      | settleInstallment => exact fun _ _ => trivial
      | processOverdueInstallments => exact fun _ _ _ _ => trivial
      | _ => trivial
    exact LoanCall.after_keeps (fun hstep h => h.loanStep hstep fun _ _ _ hno => hno) hfollows h

end Loans

/-! ### Members -/

theorem Reconciled.user (h : Reconciled initial d) {w : Write} (hw : w.Within [.users]) :
    Reconciled initial (d.apply w) := by
  obtain ⟨t, ht, htable⟩ := hw
  obtain rfl : t = .users := List.mem_singleton.1 ht
  have hother : ∀ t, TableName.users ≠ t → (d.apply w).table t = d.table t := fun t ht =>
    Database.table_apply (by rwa [htable, ne_eq, Option.some.injEq])
  have hsame : Reconciled (fun b => initial b - 0) (d.apply w) := by
    refine h.congr (funext fun b => ?_) (hother _ (by decide)) (hother _ (by decide)) fun b => ?_
    · have hstill : ∀ w' ∈ [w], w'.Still := fun w' hw' => by
        rw [List.mem_singleton.1 hw']
        exact still_of_table? (by simp [htable])
      exact balances_of_still hstill b
    · refine Database.worth_change (t := .users) hother ?_
      rw [Database.worthOf_eq_zero fun _ => rfl, Database.worthOf_eq_zero fun _ => rfl, add_zero]
  exact hsame.start fun b => sub_zero _

theorem Reconciled.memberCommit (h : Reconciled initial d) {allows : Label → Database → Prop}
    {userId : Uuid} {x : MemberCall} (hcommit : MemberCommit allows userId d x d') :
    Reconciled initial d' := by
  have huser : ∀ u : User, Reconciled initial (d.apply (.update .users u)) := fun u =>
    h.user ⟨.users, List.mem_singleton_self _, rfl⟩
  cases hcommit with
  | verified found inserted mine pending =>
      exact (huser _).insert (t := .principalSavings) (by decide) (by decide) fun b =>
        if_neg (by rw [pending]; decide)
  | @approved ids reason adminId emailSent now u user principalSavings inc r found allowed owed mine
      unpaid recorded =>
      have hfound : (d.apply (.update .users (u.setStatus .active))).find .principalSavings
          principalSavings.id = some principalSavings := by
        rw [Database.find_congr (d.table_update_ne (by decide) _)]
        exact Table.find?_of_mem owed
      have hsettled := (huser (u.setStatus .active)).update (t := .principalSavings)
        (r := principalSavings.settle adminId now) (by decide) (by decide) hfound
      refine (hsettled.record recorded).start fun b => ?_
      obtain ⟨hshu, hcapital⟩ := recorded.amounts (m := principalSavings.amount) rfl
      have hamount : r.signed b = amountsOf 0 principalSavings.amount b := by
        rw [CashbookTransaction.signed, recorded.direction]
        cases b <;> simp [CashbookTransaction.amount, Direction.sign, amountsOf, hshu, hcapital]
      have hpaid : Row.worth b .principalSavings (principalSavings.settle adminId now) =
          amountsOf 0 principalSavings.amount b := rfl
      have hunpaid : Row.worth b .principalSavings principalSavings = 0 := if_neg unpaid
      rw [hamount, hpaid, hunpaid]
      ring
  | rejected => exact huser _

theorem MemberCall.reconciled_after (h : Reconciled initial d) {userId : Uuid} (x : MemberCall) :
    Reconciled initial ((x.program userId).after d) := by
  have halone : (x.program userId).wp (Prog.alone fun _ d' => Reconciled initial d')
      (fun _ _ _ => True) d .idle := by
    refine MemberCall.program_wp (fun _ henv => henv) x fun l d' d'' henv _ hcommit => ?_
    obtain rfl : d = d' := henv
    exact h.memberCommit hcommit
  exact Prog.after_keeps (I := Reconciled initial) (fun _ h' => h') halone h

theorem AuthCall.reconciled_after (h : Reconciled initial d) {compare : String → String → Bool}
    {env : AuthEnv} (x : AuthCall) : Reconciled initial ((x.program compare env).after d) := by
  cases x with
  | register => exact (within_register (List.mem_singleton_self _)).after_keeps (fun hw h => h.user hw) h
  | login => exact (within_login (List.mem_singleton_self _)).after_keeps (fun hw h => h.user hw) h
  | resendOtp =>
      exact (within_resendOtp (List.mem_singleton_self _)).after_keeps (fun hw h => h.user hw) h
  | verifyOtp userId otpCode =>
      have hmember : Reconciled initial (((MemberCall.verifyOtp env otpCode).program userId).after d) :=
        MemberCall.reconciled_after h _
      rwa [MemberCall.program, Prog.after_bind_pure] at hmember

/-! ### Expenses -/

/-- The income a call of the ledger is made for. -/
def LedgerCall.incomeId : LedgerCall → Option Uuid
  | createIncomeTransaction _ incomeId .. => some incomeId
  | updateIncomeTransaction _ _ incomeId .. => some incomeId
  | deleteIncomeTransaction incomeId _ => some incomeId
  | _ => none

theorem Reconciled.ledgerStep (h : Reconciled initial d) (hrange : d.InRange) {x : LedgerCall}
    (hstep : LedgerStep d x d') (hx : x.incomeId = none) : Reconciled initial d' := by
  cases hstep with
  | nothing => exact h
  | createIncomeTransaction | updateIncomeTransaction | deleteIncomeTransaction => cases hx
  | createExpense created => exact h.createExpense hrange created
  | setExpense found set => exact h.setExpense hrange found set
  | updateExpense corrected =>
      exact h.correctExpense hrange corrected (corrected.agrees fun _ => rfl)
  | deleteExpense found inRange => exact h.deleteExpense hrange found inRange

/-! ### Runs -/

/-- A call that a controller or a job makes. The ledger functions for incomes are called inside other
calls only. -/
def ServiceCall.Served : ServiceCall → Prop
  | ledger x => x.incomeId = none
  | _ => True

abbrev ServedCall := { x : ServiceCall // x.Served }

def ServedCall.program (x : ServedCall) : Program Unit := x.1.program

theorem ServedCall.reconciled_after (h : Reconciled initial d) (hrange : d.InRange) (x : ServedCall) :
    Reconciled initial (x.program.after d) := by
  obtain ⟨x, hx⟩ := x
  change Reconciled initial (x.program.after d)
  cases x with
  | auth compare env x =>
      rw [ServiceCall.program, Prog.after_bind_pure]
      exact x.reconciled_after h
  | member userId x => exact x.reconciled_after h
  | loan x => exact x.reconciled_after h hrange
  | ledger x =>
      obtain ⟨start, removed, hledger⟩ := h.ledgerInvariant hrange
      exact h.ledgerStep hrange (hledger.ledgerStep x) hx
  | createYearlyMandatorySavingsForAllUsers o ids configured now =>
      refine Prog.Each.after_keeps (I := Reconciled initial) ?_ h
      refine .bind (each_onPool writes_select) fun activeMemberIds => ?_
      split
      · trivial
      · exact .bind keeps_insertRecords fun _ => trivial
  | generateRemainingYearSavings o ids configured now =>
      rw [ServiceCall.program, Prog.after_bind_pure]
      refine Prog.Each.after_keeps (I := Reconciled initial) ?_ h
      refine .bind (each_onPool writes_select) fun activeMemberIds => ?_
      split
      · trivial
      · exact .bind keeps_insertRecords fun _ => trivial
  | settleMandatorySavings =>
      exact Prog.after_keeps (I := Reconciled initial) (fun _ h' => h')
        (settleMandatorySavings_alone h) h

/-- **The balances are what the records say.** After any complete calls, each balance has moved by
what the records have: the installments and savings that have been paid, the fees of the loans that
have been disbursed, less the expenses. -/
theorem balances_reconcile {d₀ : Database} (h₀ : LedgerSound d₀) (xs : List ServedCall)
    (b : BalanceType) : (runCalls ServedCall.program d₀ xs).balances b =
      d₀.balances b + ((runCalls ServedCall.program d₀ xs).worth b - d₀.worth b) := by
  obtain ⟨start, removed, -, hledger⟩ := h₀
  have hstart : Reconciled (fun b => d₀.balances b - d₀.worth b) d₀ :=
    .of_ledgerInvariant hledger fun b => (sub_add_cancel _ _).symm
  let I : Database → Prop := fun d => Reconciled (fun b => d₀.balances b - d₀.worth b) d ∧ d.InRange
  have hstep : ∀ (x : ServedCall) d, I d → I (x.program.after d) := fun x d hd =>
    ⟨x.reconciled_after hd.1 hd.2, (x.1.tame_program.after ⟨hd.2, rfl⟩).inRange⟩
  have hkept : I (runCalls ServedCall.program d₀ xs) :=
    runCalls_keeps hstep ⟨hstart, hledger.inRange⟩ xs
  rw [hkept.1.balance]
  ring

/-- A year of savings is opened and a month paid, a loan is disbursed and its first installment paid,
and an expense is entered, corrected and entered again. -/
def busyCalls : List ServedCall :=
  let today : Date := ⟨2026, 5, 1⟩
  [⟨.createYearlyMandatorySavingsForAllUsers utcOffset id (some 50000)
    ⟨⟨2026, 1, 1⟩, .midnight⟩, trivial⟩,
    ⟨.settleMandatorySavings ⟨2, 2⟩ 0 1 today, trivial⟩,
    ⟨.loan (.createLoan 1 3 1 3000000 none (2 / 100) ⟨2026, 1, 5⟩), trivial⟩,
    ⟨.loan (.approveLoan 1 none 1 ⟨2026, 1, 6⟩), trivial⟩,
    ⟨.loan (.disburseLoan ⟨id, ⟨1, 3, 4⟩, 3, 5⟩ 1 1 ⟨2026, 1, 7⟩), trivial⟩,
    ⟨.loan (settling 10 1 2), trivial⟩,
    ⟨.ledger (.createExpense ⟨2, 30, 31⟩ ⟨1, "Listrik", 20000, none, none, none, none⟩ 1 today), rfl⟩,
    ⟨.ledger (.updateExpense ⟨2, 32, 33⟩ 2 ⟨none, none, some 25000, none, none, none, none⟩ today),
      rfl⟩,
    ⟨.ledger (.deleteExpense 2 today), rfl⟩]

theorem balances_reconcile_busyCalls :
    let d := runCalls ServedCall.program withDonation busyCalls
    allReturn ServedCall.program withDonation busyCalls = true ∧ d.worth .capital ≠ 0 ∧
    ∀ b, d.balances b = withDonation.balances b + (d.worth b - withDonation.worth b) :=
  ⟨by decide +kernel, by decide +kernel,
    balances_reconcile migrated_withDonation.ledgerSound busyCalls⟩

end LumbungMesari
