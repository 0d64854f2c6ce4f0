import LumbungMesari.Steadiness
import LumbungMesari.Sources
import LumbungMesari.DecisionRuns
import LumbungMesari.LoanLimit
import LumbungMesari.Ranges
import LumbungMesari.Sql.Preserves

/-!
# Loans and expenses, one call after another

An administrator decides on loans, disburses them, settles installments and books expenses while
others do the same. However the statements interleave, the database is left as the calls that have
committed leave it one after another, in the order of their commits. `disburseLoan` is the one that
reads its loan without a lock; it only commits where the loan is as it was read.
-/

namespace LumbungMesari

open Sql
open Prog (inTrx onPool commitTrx)

/-- What administrators do with loans, and with the money that goes out. -/
inductive LendingCall where
  | approveLoan (loanId : Uuid) (notes : Option String) (adminId : Uuid) (now : Date)
  | rejectLoan (loanId : Uuid) (reason : String) (now : Date)
  | disburseLoan (ids : DisburseIds) (loanId adminId : Uuid) (now : Date)
  | settleInstallment (ids : SettleIds) (installmentId adminId : Uuid) (now : Date)
  | createExpense (ids : ExpenseIds) (dto : CreateExpenseDto) (currentUserId : Uuid) (now : Date)

def LendingCall.program : LendingCall → Program Unit
  | approveLoan loanId notes adminId now => LumbungMesari.approveLoan loanId notes adminId now
  | rejectLoan loanId reason now => LumbungMesari.rejectLoan loanId reason now
  | disburseLoan ids loanId adminId now => LumbungMesari.disburseLoan ids loanId adminId now
  | settleInstallment ids installmentId adminId now =>
      LumbungMesari.settleInstallment ids installmentId adminId now
  | createExpense ids dto currentUserId now => do
      let _ ← LumbungMesari.createExpense ids dto currentUserId now
      pure ()

variable {d d' : Database} {l : Locks}

/-! ### What a call does to loans and installments -/

/-- The moves of a loan that a decision or a disbursement makes. -/
inductive LoanMoved : Option Loan → Option Loan → Prop where
  | same (r : Option Loan) : LoanMoved r r
  | decided {loan : Loan} {status : LoanStatus} {approvedBy : Option Uuid} {notes : Option String}
      {now : Date} (pending : loan.status = .pending)
      (decision : status = .approved ∨ status = .rejected) :
      LoanMoved (some loan) (some (loan.setStatus status approvedBy notes now))
  | disbursed {loan : Loan} {now : Date} (approved : loan.status = .approved) :
      LoanMoved (some loan) (some (loan.disburse now))

theorem LoanMoved.kept {r r' : Option Loan} (h : LoanMoved r r') : LoanKept r r' := by
  cases h with
  | same => exact .same r
  | decided pending decision =>
      rcases decision with rfl | rfl <;> exact .moved rfl fun _ => by rw [pending]; rfl
  | disbursed approved => exact .moved rfl fun _ => by rw [approved]; rfl

/-- What holds between calls: a balance is in the range of its column, a period has a month, and a
loan that is active has its first installment. -/
structure LendingInvariant (d : Database) : Prop where
  inRange : d.InRange
  tenor : ∀ id period, d.find .loanPeriods id = some period → 1 ≤ period.tenor
  scheduled : ∀ loanId loan, d.find .loans loanId = some loan → loan.status = .active →
    d.taken .installments (.installmentNumber loanId 1) = true

/-- What a call leaves of the loans and their installments. -/
structure Lent (d d' : Database) : Prop where
  found : ∀ t id, d.find t id ≠ none → d'.find t id ≠ none
  loans : ∀ id, LoanMoved (d.find .loans id) (d'.find .loans id)
  taken : ∀ loanId number, d.taken .installments (.installmentNumber loanId number) = true →
    d'.taken .installments (.installmentNumber loanId number) = true
  numbers : ∀ loanId, d.find .loans loanId = d'.find .loans loanId → ∀ id,
    NumberKept loanId (d.find .installments id) (d'.find .installments id)
  scheduled : ∀ loanId loan, d'.find .loans loanId = some loan → loan.status = .active →
    d.find .loans loanId = some loan ∨ d'.taken .installments (.installmentNumber loanId 1) = true

theorem Database.taken_congr {t : TableName} (h : d'.table t = d.table t) (k : UniqueKey) :
    d'.taken t k = d.taken t k := by rw [Database.taken, Database.rows, h]; rfl

theorem Lent.of_tables (hfound : ∀ t id, d.find t id ≠ none → d'.find t id ≠ none)
    (hloans : d'.table .loans = d.table .loans)
    (hinstallments : d'.table .installments = d.table .installments) : Lent d d' where
  found := hfound
  loans id := by
    rw [Database.find_congr hloans]
    exact .same _
  taken _ _ h := by rwa [Database.taken_congr hinstallments]
  numbers loanId _ id := by
    rw [Database.find_congr hinstallments]
    exact .refl _
  scheduled loanId loan h _ := .inl (by rwa [← Database.find_congr hloans])

theorem Lent.refl (d : Database) : Lent d d := .of_tables (fun _ _ h => h) rfl rfl

/-! ### Rows stay -/

theorem find_applyAll_ne_none (ws : List Write) (hws : ∀ w ∈ ws, ∀ t id, w ≠ .delete t id)
    {t : TableName} {id : Uuid} (h : d.find t id ≠ none) : (applyAll d ws).find t id ≠ none := by
  induction ws generalizing d with
  | nil => exact h
  | cons w ws ih =>
      obtain ⟨hw, hws⟩ := List.forall_mem_cons.1 hws
      refine ih hws ?_
      cases w with
      | addBalance => exact h
      | insert t' r =>
          by_cases ht : t' = t
          · subst ht
            exact Database.find_insert_ne_none r h
          · rwa [Database.store_apply, Database.find_apply _ _ _ _ (by simpa [Write.table?] using ht)]
      | update t' r =>
          by_cases ht : t' = t
          · subst ht
            exact Database.find_update_ne_none r h
          · rwa [Database.store_apply, Database.find_apply _ _ _ _ (by simpa [Write.table?] using ht)]
      | delete t' id' => exact absurd rfl (hw t' id')

theorem mem_postings_ne_delete {r : CashbookTransaction} :
    ∀ w ∈ r.postings, ∀ t id, w ≠ .delete t id := by
  rintro w hw t id rfl
  rcases List.mem_cons.1 hw with hw | hw
  · cases hw
  · cases table?_moves hw

theorem mem_spending_ne_delete {e : Expense} {r : CashbookTransaction} :
    ∀ w ∈ spending e r, ∀ t id, w ≠ .delete t id := by
  refine List.forall_mem_cons.2 ⟨?_, mem_postings_ne_delete⟩
  rintro t id ⟨⟩

theorem mem_recording_ne_delete {inc : Income} {r : CashbookTransaction} :
    ∀ w ∈ recording inc r, ∀ t id, w ≠ .delete t id := by
  refine List.forall_mem_cons.2 ⟨?_, mem_postings_ne_delete⟩
  rintro t id ⟨⟩

theorem mem_recordings_ne_delete {ps : List (Income × CashbookTransaction)} :
    ∀ w ∈ recordings ps, ∀ t id, w ≠ .delete t id := by
  intro w hw
  obtain ⟨p, -, hw⟩ := List.mem_flatMap.1 hw
  exact mem_recording_ne_delete w hw

theorem mem_disbursement_ne_delete {loan : Loan} {now : Date} {rows : DisbursedRows} :
    ∀ w ∈ disbursement loan now rows, ∀ t id, w ≠ .delete t id := by
  rintro w hw t id rfl
  rcases List.mem_append.1 hw with hw | hw
  · rcases List.mem_append.1 hw with hw | hw
    · rcases List.mem_cons.1 hw with hw | hw
      · cases hw
      · obtain ⟨r, -, hr⟩ := List.mem_map.1 hw
        cases hr
    · exact mem_spending_ne_delete _ hw t id rfl
  · exact mem_recording_ne_delete _ hw t id rfl

/-! ### The calls alone -/

theorem Lent.decided {loan : Loan} {status : LoanStatus} {approvedBy : Option Uuid}
    {notes : Option String} {now : Date} {loanId : Uuid} (hfound : d.find .loans loanId = some loan)
    (hpending : loan.status = .pending) (hdecision : status = .approved ∨ status = .rejected) :
    Lent d (d.apply (.update .loans (loan.setStatus status approvedBy notes now))) := by
  have hid : (loan.setStatus status approvedBy notes now).id = loanId := by
    have hloan : loan.id = loanId := Database.find_id hfound
    rw [← hloan]
    cases status <;> rfl
  have hstatus : (loan.setStatus status approvedBy notes now).status = status := by
    cases status <;> rfl
  have hfind : ∀ id, (d.apply (.update .loans (loan.setStatus status approvedBy notes now))).find
      .loans id = if loanId = id then some (loan.setStatus status approvedBy notes now)
        else d.find .loans id := by
    intro id
    rw [Database.find_update, show Row.id .loans _ = loanId from hid]
    split
    · rename_i h
      rw [← h, hfound]
      rfl
    · rfl
  have hinstallments : _ = d.table .installments := d.table_update_ne (t := .loans) (by decide)
    (loan.setStatus status approvedBy notes now)
  refine ⟨fun t id h => ?_, fun id => ?_, fun _ _ h => ?_, fun _ _ id => ?_,
    fun _ _ h hactive => ?_⟩
  · exact find_applyAll_ne_none [.update .loans _] (by simp) h
  · rw [hfind]
    split
    · rename_i h
      rw [← h, hfound]
      exact .decided hpending hdecision
    · exact .same _
  · rwa [Database.taken_congr hinstallments]
  · rw [Database.find_congr hinstallments]
    exact .refl _
  · rw [hfind] at h
    split at h
    · cases h
      rw [hstatus] at hactive
      rcases hdecision with rfl | rfl <;> cases hactive
    · exact .inl h

theorem Lent.settled {i : Installment} {adminId : Uuid} {now : Date}
    {ps : List (Income × CashbookTransaction)} (hfound : d.find .installments i.id = some i) :
    Lent d (applyAll (d.apply (.update .installments (i.settle adminId now))) (recordings ps)) := by
  have htable : ∀ {t : TableName}, TableName.incomes ≠ t → TableName.cashbookTransactions ≠ t →
      (applyAll (d.apply (.update .installments (i.settle adminId now))) (recordings ps)).table t =
        (d.apply (.update .installments (i.settle adminId now))).table t :=
    RecordedAll.table_ne _ ps
  have hloans := (htable (t := .loans) (by decide) (by decide)).trans
    (d.table_update_ne (t := .installments) (by decide) (i.settle adminId now))
  have hfind : ∀ id, (applyAll (d.apply (.update .installments (i.settle adminId now)))
      (recordings ps)).find .installments id =
        if i.id = id then some (i.settle adminId now) else d.find .installments id := by
    intro id
    rw [Database.find_congr (htable (by decide) (by decide)),
      find_updateInstallment (i.settle adminId now) hfound rfl]
    simp only [eq_comm]
  refine ⟨fun t id h => ?_, fun id => ?_, fun loanId number h => ?_,
    fun loanId _ id i' hi' hloan => ?_, fun loanId loan h _ => ?_⟩
  · exact find_applyAll_ne_none (.update .installments (i.settle adminId now) :: recordings ps)
      (List.forall_mem_cons.2 ⟨by rintro t id ⟨⟩, mem_recordings_ne_delete⟩) h
  · rw [Database.find_congr hloans]
    exact .same _
  · rw [taken_installmentNumber] at h ⊢
    obtain ⟨id, i', hfind', hloan, hnumber⟩ := h
    by_cases hid : i.id = id
    · subst hid
      rw [hfound, Option.some.injEq] at hfind'
      subst hfind'
      exact ⟨_, i.settle adminId now, by rw [hfind, if_pos rfl], hloan, hnumber⟩
    · exact ⟨id, i', by rw [hfind, if_neg hid, hfind'], hloan, hnumber⟩
  · rw [hfind] at hi'
    split at hi'
    · rename_i h
      cases hi'
      exact ⟨i, h ▸ hfound, hloan, rfl⟩
    · exact ⟨i', hi', hloan, rfl⟩
  · exact .inl (by rwa [← Database.find_congr hloans])

theorem Lent.disbursed {ids : DisburseIds} {adminId : Uuid} {now : Date} {loan : Loan}
    {loanPeriod : LoanPeriod} {rows : DisbursedRows} (htenor : 1 ≤ loanPeriod.tenor)
    (happroved : loan.status = .approved)
    (h : Disbursed d ids adminId now loan loanPeriod loan rows) :
    Lent d (applyAll d (disbursement loan now rows)) := by
  have hfindLoan : ∀ id, (applyAll d (disbursement loan now rows)).find .loans id =
      if loan.id = id then some (loan.disburse now) else d.find .loans id := by
    intro id
    rw [Database.find_congr (table_disbursement_loans d loan now rows), Database.find_update,
      show Row.id .loans (loan.disburse now) = loan.id from rfl]
    split
    · rename_i hid
      rw [← hid, h.found]
      rfl
    · rfl
  have hrows : (applyAll d (disbursement loan now rows)).rows .installments =
      d.rows .installments ++ rows.installments := by
    have htable : ∀ {t : TableName}, TableName.loans ≠ t → _ = d.table t := fun ht =>
      d.table_update_ne ht (loan.disburse now)
    rw [disbursement, applyAll_append, applyAll_append, Database.rows,
      Recorded.table_ne _ _ _ (by decide) (by decide), table_spending_ne _ _ _ (by decide) (by decide),
      activation, applyAll_cons]
    refine (rows_inserts (t := .installments) (fun i hi => ?_) h.nodup).trans ?_
    · exact (Database.find_congr (htable (by decide)) i.id).trans (h.fresh i hi)
    · exact congrArg (Table.rows · ++ rows.installments) (htable (by decide))
  have hcreated := generateInstallments_ok h.schedule
  have hmine : ∀ i ∈ rows.installments, i.loanId = loan.id := by
    intro i hi
    obtain ⟨n, hn⟩ := LoanFile.exists_of_forall₂ hcreated hi
    exact hn.loanId
  have hkept : ∀ {id i}, d.find .installments id = some i →
      (applyAll d (disbursement loan now rows)).find .installments id = some i := by
    intro id i hfind
    rw [Database.find_eq_some] at hfind ⊢
    rw [hrows]
    exact ⟨List.mem_append_left _ hfind.1, hfind.2⟩
  have hfirst : (applyAll d (disbursement loan now rows)).taken .installments
      (.installmentNumber loan.id 1) = true := by
    have hone : 1 ∈ rows.installments.map (·.installmentNumber) := by
      rw [LoanFile.numbers_generateInstallments hcreated, List.mem_range'_1]
      omega
    obtain ⟨i, hi, hnumber⟩ := List.mem_map.1 hone
    refine taken_installmentNumber.2 ⟨i.id, i, Database.find_eq_some.2 ⟨?_, rfl⟩, hmine i hi, hnumber⟩
    rw [hrows]
    exact List.mem_append_right _ hi
  refine ⟨fun t id hfound => ?_, fun id => ?_, fun loanId number htaken => ?_,
    fun loanId hsame id i' hi' hloan => ?_, fun loanId loan' hfind _ => ?_⟩
  · exact find_applyAll_ne_none _ mem_disbursement_ne_delete hfound
  · rw [hfindLoan]
    split
    · rename_i hid
      rw [← hid, h.found]
      exact .disbursed happroved
    · exact .same _
  · obtain ⟨id, i, hfind, hi⟩ := taken_installmentNumber.1 htaken
    exact taken_installmentNumber.2 ⟨id, i, hkept hfind, hi⟩
  · obtain ⟨hmem, hid⟩ := Database.find_eq_some.1 hi'
    rw [hrows] at hmem
    rcases List.mem_append.1 hmem with hmem | hmem
    · exact ⟨i', Database.find_eq_some.2 ⟨hmem, hid⟩, hloan, rfl⟩
    · rw [hfindLoan, ← hloan, hmine i' hmem, if_pos rfl, h.found, Option.some.injEq] at hsame
      rw [hsame] at happroved
      cases happroved
  · rw [hfindLoan] at hfind
    split at hfind
    · rename_i hid
      exact .inr (hid ▸ hfirst)
    · exact .inl hfind

/-- **One call alone.** What a call does to a state that meets the invariant. -/
theorem LendingCall.lent (x : LendingCall) (hd : LendingInvariant d) : Lent d (x.program.after d) := by
  suffices hwp : ∀ {p : Program Unit}, p.wp (Prog.alone fun _ d' => Lent d d') (fun _ _ _ => True) d
      .idle → Lent d (p.after d) by
    cases x with
    | approveLoan loanId notes adminId now =>
        refine hwp (decideLoan_wp fun d' loan l henv hfound hpending _ => ⟨?_, trivial⟩)
        obtain rfl : d = d' := henv
        exact .decided hfound hpending (.inl rfl)
    | rejectLoan loanId reason now =>
        refine hwp (decideLoan_wp fun d' loan l henv hfound hpending _ => ⟨?_, trivial⟩)
        obtain rfl : d = d' := henv
        exact .decided hfound hpending (.inr rfl)
    | disburseLoan ids loanId adminId now =>
        refine hwp (disburseLoan_wp fun d₁ d₂ d' loan loanPeriod current rows l l₂ henv₁ hloan
          happroved henv₂ hcurrent _ henv₃ _ _ hdisbursed => ⟨?_, trivial⟩)
        obtain rfl : d = d₁ := henv₁
        obtain rfl : d = d₂ := henv₂
        obtain rfl : d = d' := henv₃
        obtain ⟨hfound, hperiod⟩ := loanWithPeriod_some hloan
        obtain rfl : loan = current := Option.some.inj (hfound.symm.trans hcurrent)
        exact .disbursed (hd.tenor _ _ hperiod) happroved hdisbursed
    | settleInstallment ids installmentId adminId now =>
        refine hwp (settleInstallment_wp fun d' i ps l henv hfound _ _ => ⟨?_, trivial⟩)
        obtain rfl : d = d' := henv
        exact .settled (Database.find_self hfound)
    | createExpense ids dto currentUserId now =>
        rw [program, Prog.after_bind_pure]
        refine createExpense_after hd.inRange (.refl d) fun _ _ e r _ => ?_
        exact .of_tables (fun t id => find_applyAll_ne_none _ mem_spending_ne_delete)
          (table_spending_ne d e r (by decide) (by decide))
          (table_spending_ne d e r (by decide) (by decide))
  intro p hp
  exact Prog.after_keeps (I := Lent d) (fun _ h => h) hp (.refl d)

theorem LendingCall.tame_program {t : TableName} [t.Spared] (x : LendingCall) : Tame t x.program := by
  cases x with
  | approveLoan | rejectLoan => exact tame_decideLoan
  | disburseLoan => exact tame_disburseLoan
  | settleInstallment => exact tame_settleInstallment
  | createExpense =>
      exact .bind (tame_createExpense (ne_of_spared rfl) (ne_of_spared rfl)) fun _ => trivial

theorem LendingCall.reference (x : LendingCall) {t : TableName} (ht : t ∈ referenceTables) :
    (x.program.after d).table t = d.table t := by
  have hspared : ∀ t ∈ referenceTables, t.spared = true := by decide
  have : t.Spared := ⟨hspared t ht⟩
  refine (x.tame_program (t := t)).writes.after_keeps (I := fun d' => d'.table t = d.table t) (fun hw h => ?_) rfl
  exact (Database.table_apply hw).trans h

theorem LendingInvariant.after (hd : LendingInvariant d) (x : LendingCall) :
    LendingInvariant (x.program.after d) := by
  have hlent := x.lent hd
  refine ⟨(x.tame_program.after ⟨hd.inRange, rfl⟩).inRange, fun id period h => ?_,
    fun loanId loan h hactive => ?_⟩
  · rw [Database.find_congr (x.reference (by decide))] at h
    exact hd.tenor id period h
  · rcases hlent.scheduled loanId loan h hactive with hsame | htaken
    · exact hlent.taken _ _ (hd.scheduled loanId loan hsame hactive)
    · exact htaken

/-! ### The protocol -/

/-- Every commit is what the call leaves when it runs alone. -/
def lendingProtocol : Protocol Database LockTarget Label LendingCall where
  inv := LendingInvariant
  allows _ _ := True
  guar x _ d d' := d' = x.program.after d
  keeps hd h := h ▸ hd.after _

theorem LoanKept.trans {r₁ r₂ r₃ : Option Loan} (h : LoanKept r₁ r₂) (h' : LoanKept r₂ r₃) :
    LoanKept r₁ r₃ := by
  cases h with
  | same => exact h'
  | moved userId opened =>
      cases h' with
      | same => exact .moved userId opened
      | moved userId' opened' =>
          exact .moved (userId'.trans userId) fun h => opened (opened' h)

theorem NumberKept.trans {loanId : Uuid} {r₁ r₂ r₃ : Option Installment}
    (h : NumberKept loanId r₁ r₂) (h' : NumberKept loanId r₂ r₃) : NumberKept loanId r₁ r₃ := by
  intro i₃ hi₃ hloan₃
  obtain ⟨i₂, hi₂, hloan₂, hnumber₂⟩ := h' i₃ hi₃ hloan₃
  obtain ⟨i₁, hi₁, hloan₁, hnumber₁⟩ := h i₂ hi₂ hloan₂
  exact ⟨i₁, hi₁, hloan₁, hnumber₁.trans hnumber₂⟩

theorem Beside.trans {d'' : Database} (h : Beside l d d') (h' : Beside l d' d'') :
    Beside l d d'' where
  locked {k _} hk hm := by
    have hsame : Store.agree (W := Write) k d d' := h.locked hk hm
    exact Store.agree_trans hsame (h'.locked hk hm)
  reference t ht := (h'.reference t ht).trans (h.reference t ht)
  found t id hfound := h'.found t id (h.found t id hfound)
  loans id := (h.loans id).trans (h'.loans id)
  numbers hk hm id := (h.numbers hk hm id).trans (h'.numbers hk hm id)

theorem beside_other (h : lendingProtocol.Other l d d') : Beside l d d' := by
  have hagree := fun {k : LockTarget} {m : LockMode} (hk : (k, m) ∈ l) hm => h.agree hk hm
  obtain ⟨x, _, _, -, -, -, hinv, hguar⟩ := h
  obtain rfl : d' = x.program.after d := hguar
  have hlent := x.lent hinv
  exact {
    locked := hagree
    reference := fun t ht => x.reference ht
    found := hlent.found
    loans := fun id => (hlent.loans id).kept
    numbers := fun hk hm => hlent.numbers _ (hagree hk hm) }

/-- What other calls commit beside a call, it can rely on. -/
theorem beside_env (h : lendingProtocol.Env l d d') : Beside l d d' := by
  induction h with
  | refl => exact .refl l _
  | tail _ hother ih => exact ih.trans (beside_other hother)

/-! ### Calls that hold on to what they read -/

theorem Beside.loanWithPeriod (h : Beside l d d') {loanId : Uuid} {m : LockMode}
    (hk : (LockTarget.row .loans loanId, m) ∈ l) (hm : m.exclusive = true) :
    d'.loanWithPeriod loanId = d.loanWithPeriod loanId := by
  have hperiods : ∀ id, d'.find .loanPeriods id = d.find .loanPeriods id :=
    h.find_reference (by decide)
  rw [Database.loanWithPeriod, Database.loanWithPeriod, h.find_eq hk hm]
  simp only [hperiods]

theorem serial_commitTrx : (commitTrx : Program Unit).Serial beside l := .pure ()

theorem serial_decideLoan {loanId : Uuid} {verb : String} {status : LoanStatus}
    {approvedBy : Option Uuid} {notes : Option String} {now : Date} :
    (decideLoan loanId verb status approvedBy notes now).Serial beside l := by
  refine steady_selectForUpdate fun d => ?_
  cases hloan : d.loanWithPeriod loanId with
  | none => exact .inr ⟨_, rfl⟩
  | some p =>
      obtain ⟨loan, loanPeriod⟩ := p
      have hid : loan.id = loanId := Database.find_id (loanWithPeriod_some hloan).1
      refine .inl ⟨fun hl hd => ?_, ?_⟩
      · have hsame : _ = some (loan, loanPeriod) :=
          (hd.loanWithPeriod (m := .update) (hl (List.mem_append_right _ (by simp [hid]))) rfl).trans
            hloan
        rw [hsame]
        exact ⟨rfl, rfl⟩
      · dsimp only
        split
        · trivial
        · refine steady_updateOrThrow (by decide) (fun h => ?_) fun _ _ _ _ => serial_commitTrx
          cases h
          cases status <;> rfl

theorem serial_settleInstallment {ids : SettleIds} {installmentId adminId : Uuid} {now : Date} :
    (settleInstallment ids installmentId adminId now).Serial beside l := by
  refine steady_selectForUpdate fun d => ?_
  cases hfind : d.find .installments installmentId with
  | none => exact .inr ⟨_, rfl⟩
  | some i =>
      have hid : i.id = installmentId := Database.find_id hfind
      refine .inl ⟨fun hl hd => ?_, ?_⟩
      · have hsame : _ = some i :=
          (hd.find_eq (m := .update) (hl (List.mem_append_right _ (by simp [hid]))) rfl).trans hfind
        rw [hsame]
        exact ⟨rfl, rfl⟩
      · dsimp only
        split
        · trivial
        · refine steady_updateOrThrow (by decide) (fun h => ?_) fun _ _ _ _ => ?_
          · cases h
            rfl
          · exact Prog.Holds.bind holds_postInstallment fun _ => serial_commitTrx

theorem alike_readExpense {id : Uuid} : (readExpense id).Alike (· = ·) (readExpense id) := by
  refine .read (fun _ => rfl) (fun _ => rfl) ?_
  rintro d _ rfl
  cases (d.find .expenses id).map fun e => (e, d.find .expenseCategories e.expenseCategoryId) with
  | none => exact .throw _
  | some p => exact .pure p.1

theorem serial_createExpense {ids : ExpenseIds} {dto : CreateExpenseDto} {currentUserId : Uuid}
    {now : Date} : (createExpense ids dto currentUserId now).Serial beside l := by
  unfold createExpense
  split
  · trivial
  · exact Prog.Holds.bind holds_createExpenseInTransaction fun _ => alike_readExpense

/-- The transaction of a disbursement, once it is known for which loan. -/
theorem serial_disbursement {ids : DisburseIds} {loan : Loan} {loanPeriod : LoanPeriod}
    {disbursementCategory : ExpenseCategory} {adminId : Uuid} {now : Date} :
    (do disburseLoanInTransaction ids loan loanPeriod disbursementCategory adminId now
        commitTrx : Program Unit).Serial beside l := by
  change Prog.Steady _ _ _ (Prog.bind (Prog.bind _ _) _)
  rw [Prog.bind_bind]
  refine steady_updateOrThrow (by decide) (fun h => ?_) fun _ l' hl hlock => ?_
  · cases h
    rfl
  · refine Prog.Holds.bind ?_ fun _ => serial_commitTrx
    refine Prog.Holds.bind (holds_createInstallments hlock rfl fun rs hrs i hi => ?_) fun _ => ?_
    · obtain ⟨n, hn⟩ := LoanFile.exists_of_forall₂ (generateInstallments_ok hrs) hi
      exact hn.loanId
    · refine Prog.Holds.bind holds_createExpenseInTransaction fun _ => ?_
      refine Prog.Holds.bind holds_createIncomeOf fun _ => ?_
      exact Prog.Holds.bind holds_createIncomeTransaction fun _ => trivial

/-! ### Disbursements -/

/-- A loan that was read as approved is the same, or active. -/
def ApprovedSince (loan : Loan) (r : Option Loan) : Prop :=
  r = some loan ∨ ∃ loan', r = some loan' ∧ loan'.status = .active

theorem LoanMoved.approvedSince {loan : Loan} (happroved : loan.status = .approved)
    {r r' : Option Loan} (h : LoanMoved r r') (hr : ApprovedSince loan r) : ApprovedSince loan r' := by
  cases h with
  | same => exact hr
  | decided pending decision =>
      rcases hr with hr | ⟨_, hr, hactive⟩
      · rw [Option.some.inj hr, happroved] at pending
        cases pending
      · rw [Option.some.inj hr, hactive] at pending
        cases pending
  | disbursed approved => exact .inr ⟨_, rfl, rfl⟩

theorem approvedSince_env {loan : Loan} {loanId : Uuid} (happroved : loan.status = .approved)
    (henv : lendingProtocol.Env l d d') (h : ApprovedSince loan (d.find .loans loanId)) :
    ApprovedSince loan (d'.find .loans loanId) := by
  refine Protocol.Env.stable (p := fun d => ApprovedSince loan (d.find .loans loanId))
    (fun {d d'} hother h => ?_) henv h
  obtain ⟨y, _, _, -, -, -, hinv, hguar⟩ := hother
  obtain rfl : d' = y.program.after d := hguar
  exact ((y.lent hinv).loans loanId).approvedSince happroved h

/-- A disbursement that commits finds the loan as it was when its status was checked. -/
theorem disburseLoan_again (x : LendingCall) (ids : DisburseIds) (adminId : Uuid) (now : Date)
    (hd : LendingInvariant d) {loanId : Uuid} {loan : Loan} {loanPeriod : LoanPeriod}
    (hloan : d.loanWithPeriod loanId = some (loan, loanPeriod)) (happroved : loan.status = .approved) :
    (disburseLoan ids loanId adminId now).wp ((lendingProtocol.contract x).guaranteeing
      fun _ d' _ => d'.loanWithPeriod loanId = some (loan, loanPeriod)) (fun _ _ _ => True) d .idle := by
  obtain ⟨hfound, hperiod⟩ := loanWithPeriod_some hloan
  refine disburseLoan_wp fun d₁ d₂ d' loan₁ loanPeriod₁ current rows l l₂ henv₁ hloan₁ happroved₁
    henv₂ hcurrent hfree henv₃ _ _ hdisbursed => ⟨?_, trivial⟩
  change d'.loanWithPeriod loanId = some (loan, loanPeriod)
  have hsince := approvedSince_env happroved henv₁ (.inl hfound)
  have hfound₁ := (loanWithPeriod_some hloan₁).1
  have hid : loan₁.id = loanId := Database.find_id hfound₁
  obtain rfl : loan₁ = loan := by
    rcases hsince with hsame | ⟨loan', hactive, hstatus⟩
    · exact Option.some.inj (hfound₁.symm.trans hsame)
    · rw [hfound₁, Option.some.injEq] at hactive
      rw [← hactive, happroved₁] at hstatus
      cases hstatus
  have hperiods : ∀ {d'}, lendingProtocol.Env [] d d' → ∀ id,
      d'.find .loanPeriods id = d.find .loanPeriods id :=
    fun henv => (beside_env henv).find_reference (by decide)
  have hsame : loanPeriod₁ = loanPeriod := by
    have hperiod₁ := (loanWithPeriod_some hloan₁).2
    rw [hperiods henv₁, hperiod] at hperiod₁
    exact (Option.some.inj hperiod₁).symm
  subst hsame
  have hinv₂ : LendingInvariant d₂ := Protocol.Env.inv henv₂ (Protocol.Env.inv henv₁ hd)
  -- an active loan has its first installment, so the schedule would not have been free
  have hcurrent' : current = loan₁ := by
    rcases approvedSince_env happroved henv₂ (.inl hfound₁) with hsame | ⟨loan', hactive, hstatus⟩
    · exact Option.some.inj (hcurrent.symm.trans hsame)
    · have htaken := hinv₂.scheduled loanId loan' hactive hstatus
      have hcreated := generateInstallments_ok hdisbursed.schedule
      have hone : 1 ∈ rows.installments.map (·.installmentNumber) := by
        rw [LoanFile.numbers_generateInstallments hcreated, List.mem_range'_1]
        have := hd.tenor _ _ hperiod
        omega
      obtain ⟨i, hi, hnumber⟩ := List.mem_map.1 hone
      obtain ⟨n, hn⟩ := LoanFile.exists_of_forall₂ hcreated hi
      rw [hfree i hi (.installmentNumber loanId 1) (by
        simp [Row.uniqueKeys, hn.loanId, hid, hnumber])] at htaken
      cases htaken
  subst hcurrent'
  have henv : lendingProtocol.Env [] d d' := env_trans henv₁ (env_trans henv₂ (env_nil henv₃))
  have hfound' := hdisbursed.found
  rw [hid] at hfound'
  rw [Database.loanWithPeriod, hfound', Option.bind_some, hperiods henv, hperiod, Option.map_some]

theorem wp_read {β : Type} {S : Contract Database LockTarget Label} {s : Trx} {read : Database → β}
    {Q : β → Database → Trx → Prop} (h : (onPool (select read)).wp S Q d s)
    (hrefl : S.env s.locks d d) (hallows : S.allows .other d) : Q (read d) d s :=
  (h d hrefl [] (read d) rfl hallows).2

theorem run_read {α β : Type} {read : Database → β} {k : β → Program α} (s : Trx) :
    (onPool (select read) >>= k).run d s = (k (read d)).run d s := rfl

/-- A disbursement commits what it would leave if it ran alone. -/
theorem disburseLoan_serial {ids : DisburseIds} {loanId adminId : Uuid} {now : Date}
    (hd : LendingInvariant d) : (disburseLoan ids loanId adminId now).wp
      (lendingProtocol.contract (.disburseLoan ids loanId adminId now)) (fun _ _ _ => True) d .idle := by
  rw [disburseLoan, findLoanById, Prog.wp_bind']
  refine wp_selectOnPool fun d₁ henv₁ => ?_
  cases hloan : d₁.loanWithPeriod loanId with
  | none => trivial
  | some p =>
      obtain ⟨loan, loanPeriod⟩ := p
      dsimp only
      by_cases happroved : loan.status = .approved
      · have hagain := disburseLoan_again (.disburseLoan ids loanId adminId now) ids adminId now
          (Protocol.Env.inv henv₁ hd) hloan happroved
        rw [disburseLoan, findLoanById, Prog.wp_bind'] at hagain
        have hcommits := wp_read hagain Protocol.Env.refl trivial
        rw [hloan] at hcommits
        dsimp only at hcommits
        rw [if_neg (not_not.2 happroved)] at hcommits ⊢
        refine Prog.Serial.wp_again (R := beside) (l := []) (disburseLoan ids loanId adminId now) _
          beside_env ?_ (List.nil_subset _) (fun _ hw => by cases hw) (fun d' _ h => ?_) hcommits id
        · refine Prog.Holds.bind (holds_selectOnPool fun h => ?_) fun category => ?_
          · rw [h.rows_eq (t := .expenseCategories) (by decide)]
          · cases category with
            | none => trivial
            | some category => exact serial_disbursement
        · rw [Prog.after, disburseLoan, findLoanById, run_read, h]
          dsimp only
          rw [if_neg (not_not.2 happroved)]
      · rw [if_pos happroved]
        trivial

/-! ### Runs -/

theorem LendingCall.program_wp (x : LendingCall) (hd : LendingInvariant d) :
    x.program.wp (lendingProtocol.contract x) (fun _ _ _ => True) d .idle := by
  have hserial : x.program.Serial beside [] →
      x.program.wp (lendingProtocol.contract x) (fun _ _ _ => True) d .idle :=
    fun h => h.wp_alone beside_env id
  cases x with
  | approveLoan | rejectLoan => exact hserial serial_decideLoan
  | disburseLoan ids loanId adminId now => exact disburseLoan_serial hd
  | settleInstallment => exact hserial serial_settleInstallment
  | createExpense => exact hserial serial_createExpense.bind_pure

/-- **Serializability.** However the statements of decisions, disbursements, settlements and new
expenses interleave, what is committed is what the calls that have committed leave when they run one
after another, in the order of their commits. -/
theorem lending_serializable {d₀ : Database} (h₀ : LendingInvariant d₀)
    {s : Sys Database Write LockTarget Label Error LendingCall}
    (hreach : Sys.Reach LendingCall.program (Sys.start d₀) s) :
    s.committed = runCalls LendingCall.program d₀ s.history :=
  Protocol.serial (P := lendingProtocol) (fun x _ hd => x.program_wp hd) (fun hguar => hguar) h₀ hreach

/-! ### A day at the desk -/

/-- A member who is paying back a loan has requested another one. -/
def awaiting : Database :=
  runCalls LoanCall.program withLoan [.createLoan 2 3 1 600000 none (2 / 100) ⟨2026, 2, 2⟩]

def deskApproval : LendingCall := .approveLoan 2 none 1 ⟨2026, 2, 3⟩

def deskSettlement : LendingCall :=
  .settleInstallment ⟨⟨10, 10⟩, ⟨11, 11⟩, ⟨12, 12⟩⟩ 1 1 ⟨2026, 2, 3⟩

def deskExpense : LendingCall :=
  .createExpense ⟨20, 20, 21⟩ ⟨1, "Listrik", 100000, none, none, none, none⟩ 1 ⟨2026, 2, 3⟩

def deskDisbursement : LendingCall :=
  .disburseLoan ⟨(200 + ·), ⟨30, 30, 31⟩, 30, 32⟩ 2 1 ⟨2026, 2, 3⟩

/-- The disbursement starts once the loan is approved, and commits after the others. -/
def deskSchedule : List (Event Error LendingCall) :=
  [.call deskSettlement, .call deskExpense, .call deskApproval] ++ List.replicate 4 (.run 0) ++
    [.run 1] ++ List.replicate 3 (.run 2) ++ [.call deskDisbursement] ++
    List.replicate 4 (.run 3) ++ List.replicate 7 (.run 0) ++ List.replicate 6 (.run 1) ++
    List.replicate 10 (.run 3)

theorem lendingInvariant_of_rows
    (hrange : ∀ b ∈ [BalanceType.shu, .capital, .total], 0 ≤ d.balances b ∧ d.balances b < 10 ^ 12)
    (htenor : ∀ period ∈ d.rows .loanPeriods, 1 ≤ period.tenor)
    (hscheduled : ∀ loan ∈ d.rows .loans, loan.status = .active →
      d.taken .installments (.installmentNumber loan.id 1) = true) : LendingInvariant d where
  inRange b := hrange b (by cases b <;> simp)
  tenor id period h := htenor period (Database.find_eq_some.1 h).1
  scheduled loanId loan h hactive := by
    obtain ⟨hmem, hid⟩ := Database.find_eq_some.1 h
    exact hid ▸ hscheduled loan hmem hactive

theorem lending_serializable_deskSchedule :
    ∃ s : Sys Database Write LockTarget Label Error LendingCall,
      s.history.length = 4 ∧ s.committed.balances .capital = 2372000 * 10 ^ 4 ∧
      s.committed = runCalls LendingCall.program awaiting s.history := by
  have hexec : ((Sys.start awaiting).exec LendingCall.program (fun _ _ => true) deskSchedule).map
      (fun s => (s.history.length, s.committed.balances .capital)) = some (4, 2372000 * 10 ^ 4) := by
    decide +kernel
  obtain ⟨s, hs, hout⟩ := Option.map_eq_some_iff.1 hexec
  obtain ⟨hlength, hcapital⟩ := Prod.mk.inj hout
  exact ⟨s, hlength, hcapital, lending_serializable
    (lendingInvariant_of_rows (by decide +kernel) (by decide +kernel) (by decide +kernel))
    (Sys.reach_of_exec hs)⟩

end LumbungMesari
