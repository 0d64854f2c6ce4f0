import LumbungMesari.LoanRuns

/-!
# Concurrent decisions and disbursements

`approveLoan` and `rejectLoan` check the status on a locked row. `disburseLoan` checks it before its
transaction and without a lock; what keeps a second disbursement out is that the loan row is locked
by the first write, and that the numbers of the installments are taken from then on.
-/

namespace LumbungMesari

open Sql
open Prog (inTrx commitTrx)

/-- A call on one loan. -/
inductive DecisionCall where
  | approveLoan (notes : Option String) (adminId : Uuid) (now : Date)
  | rejectLoan (reason : String) (now : Date)
  | disburseLoan (ids : DisburseIds) (adminId : Uuid) (now : Date)

namespace DecisionCall

def program (loanId : Uuid) : DecisionCall → Program Unit
  | approveLoan notes adminId now => LumbungMesari.approveLoan loanId notes adminId now
  | rejectLoan reason now => LumbungMesari.rejectLoan loanId reason now
  | disburseLoan ids adminId now => LumbungMesari.disburseLoan ids loanId adminId now

def isDecision : DecisionCall → Bool
  | approveLoan .. => true
  | rejectLoan .. => true
  | disburseLoan .. => false

/-- The status a call starts from, and the one it leads to. -/
def before : DecisionCall → LoanStatus
  | approveLoan .. => .pending
  | rejectLoan .. => .pending
  | disburseLoan .. => .approved

def after : DecisionCall → LoanStatus
  | approveLoan .. => .approved
  | rejectLoan .. => .rejected
  | disburseLoan .. => .active

end DecisionCall

def Database.loanStatus (d : Database) (loanId : Uuid) : Option LoanStatus :=
  (d.find .loans loanId).map (·.status)

/-! ### The protocol -/

/-- Anything may be asked. -/
def anything (_ : Uuid) : Conduct where
  asks _ := True
  settles _ _ := True
  disburses _ _ := True
  charges _ _ := True

/-- A loan for a period. -/
def LoanFile.RunsFor (loanPeriod : LoanPeriod) (f : LoanFile) : Prop :=
  ∃ loan, f.loan = some (loan, loanPeriod)

/-- What holds of a loan of some months between commits. -/
structure DecisionInvariant (loanId : Uuid) (loanPeriod : LoanPeriod) (d : Database) : Prop where
  linked : Linked d
  orderly : (d.file loanId).Orderly
  runs : (d.file loanId).RunsFor loanPeriod
  tenor : 1 ≤ loanPeriod.tenor

/-- A commit of a call: a commit on loans that takes the status from the one to the other. -/
structure Decided (loanId : Uuid) (x : DecisionCall) (d d' : Database) : Prop where
  step : LoanStep anything d d'
  before : d.loanStatus loanId = some x.before
  after : d'.loanStatus loanId = some x.after

/-- An approved loan stays as it is until it is disbursed, and is active from then on. -/
def ApprovedAs (loan : Loan) (loanPeriod : LoanPeriod) (f : LoanFile) : Prop :=
  f.loan = some (loan, loanPeriod) ∨
    ∃ loan', f.loan = some (loan', loanPeriod) ∧ loan'.status = .active

theorem ApprovedAs.step {c : Conduct} {loan : Loan} {loanPeriod : LoanPeriod} {f f' : LoanFile}
    (happroved : loan.status = .approved) (h : LoanFile.Step c f f')
    (hf : ApprovedAs loan loanPeriod f) : ApprovedAs loan loanPeriod f' := by
  cases h with
  | create absent asked created => rcases hf with h | ⟨_, h, -⟩ <;> simp [absent] at h
  | decide found pending decision =>
      rcases hf with h | ⟨loan', h, hactive⟩
      · rw [found, Option.some.injEq, Prod.mk.injEq] at h
        rw [h.1, happroved] at pending
        cases pending
      · rw [found, Option.some.injEq, Prod.mk.injEq] at h
        rw [h.1, hactive] at pending
        cases pending
  | disburse found approved disburses schedule nodup =>
      rcases hf with h | ⟨loan', h, hactive⟩
      · rw [found, Option.some.injEq, Prod.mk.injEq] at h
        exact .inr ⟨_, by rw [h.2], rfl⟩
      · rw [found, Option.some.injEq, Prod.mk.injEq] at h
        rw [h.1, hactive] at approved
        cases approved
  | settle | mark | penalize => exact hf

theorem LoanFile.Step.runsFor {c : Conduct} {loanPeriod : LoanPeriod} {f f' : LoanFile}
    (h : LoanFile.Step c f f') (hf : f.RunsFor loanPeriod) : f'.RunsFor loanPeriod := by
  obtain ⟨loan, hloan⟩ := hf
  cases h with
  | create absent asked created => simp [absent] at hloan
  | decide found pending decision =>
      rw [found, Option.some.injEq, Prod.mk.injEq] at hloan
      exact ⟨_, by rw [hloan.2]⟩
  | disburse found approved disburses schedule nodup =>
      rw [found, Option.some.injEq, Prod.mk.injEq] at hloan
      exact ⟨_, by rw [hloan.2]⟩
  | settle | mark | penalize => exact ⟨loan, hloan⟩

theorem DecisionInvariant.keeps {loanId : Uuid} {loanPeriod : LoanPeriod} {d d' : Database}
    (hd : DecisionInvariant loanId loanPeriod d) (h : LoanStep anything d d') :
    DecisionInvariant loanId loanPeriod d' := by
  obtain ⟨hlinked, hsteps⟩ := h.simulates hd.linked
  exact ⟨hlinked, (hsteps loanId).orderly hd.orderly,
    (hsteps loanId).keeps LoanFile.Step.runsFor hd.runs, hd.tenor⟩

def decisionProtocol (loanId : Uuid) (loanPeriod : LoanPeriod) :
    Protocol Database LockTarget Label DecisionCall where
  inv := DecisionInvariant loanId loanPeriod
  allows _ _ := True
  guar x _ := Decided loanId x
  keeps hd h := hd.keeps h.step

/-! ### The calls -/

section Calls

variable {loanId : Uuid} {period : LoanPeriod} {d d' : Database} {x : DecisionCall}

theorem approvedAs_env {loan : Loan} {loanPeriod : LoanPeriod} (happroved : loan.status = .approved)
    {l : Locks} (henv : ((decisionProtocol loanId period).contract x).env l d d')
    (h : ApprovedAs loan loanPeriod (d.file loanId)) :
    ApprovedAs loan loanPeriod (d'.file loanId) := by
  refine Protocol.Env.stable (p := fun d => ApprovedAs loan loanPeriod (d.file loanId))
    (fun {d d'} hother h => ?_) henv h
  obtain ⟨_, _, _, -, -, -, hinv, hguar⟩ := hother
  exact ((hguar.step.simulates hinv.linked).2 loanId).keeps (ApprovedAs.step happroved) h

theorem loanStatus_of_find {loan : Loan} (h : d.find .loans loanId = some loan) :
    d.loanStatus loanId = some loan.status := by
  rw [Database.loanStatus, h]
  rfl

theorem taken_of_active {loan : Loan} (h : DecisionInvariant loanId period d)
    (hloan : d.loanWithPeriod loanId = some (loan, period)) (hactive : loan.status = .active) :
    d.taken .installments (.installmentNumber loanId 1) = true := by
  have htenor := h.tenor
  have hone : 1 ∈ (d.file loanId).installments.map fun x => x.1.installmentNumber := by
    rw [(h.orderly.active loan period hloan hactive).numbers, List.mem_range'_1]
    omega
  obtain ⟨x, hx, hnumber⟩ := List.mem_map.1 hone
  obtain ⟨hfound, hmine⟩ := loanId_of_mem_file hx
  refine List.any_eq_true.2 ⟨x.1, (Table.find?_some hfound).1, ?_⟩
  simp [Row.uniqueKeys, hnumber, hmine]

/-- A disbursement that finds the numbers of its installments free finds the loan as it was when its
status was checked. -/
theorem approved_of_free {loan : Loan} {loanPeriod : LoanPeriod} {adminId : Uuid} {now : Date}
    {ids : ℕ → Uuid} {rs : List Installment} (h : DecisionInvariant loanId period d)
    (happroved : ApprovedAs loan loanPeriod (d.file loanId)) (hid : loan.id = loanId)
    (hschedule : generateInstallments loan loanPeriod.tenor adminId now ids = .ok rs)
    (hfree : ∀ i ∈ rs, ∀ k ∈ Row.uniqueKeys .installments i, d.taken .installments k = false) :
    d.loanWithPeriod loanId = some (loan, loanPeriod) := by
  rcases happroved with hsame | ⟨loan', hactive, hstatus⟩
  · exact hsame
  · obtain ⟨_, hloan⟩ := h.runs
    rw [hactive, Option.some.injEq, Prod.mk.injEq] at hloan
    obtain ⟨-, rfl⟩ := hloan
    have htaken := taken_of_active h hactive hstatus
    have htenor := h.tenor
    have hcreated := generateInstallments_ok hschedule
    have hone : 1 ∈ rs.map (·.installmentNumber) := by
      rw [LoanFile.numbers_generateInstallments hcreated, List.mem_range'_1]
      omega
    obtain ⟨r, hr, hnumber⟩ := List.mem_map.1 hone
    obtain ⟨i, hi⟩ := LoanFile.exists_of_forall₂ hcreated hr
    have hkey : UniqueKey.installmentNumber loanId 1 ∈ Row.uniqueKeys .installments r := by
      simp [Row.uniqueKeys, hi.loanId, hid, hnumber]
    rw [hfree r hr _ hkey] at htaken
    cases htaken

theorem DecisionCall.program_wp (x : DecisionCall) (hd : DecisionInvariant loanId period d) :
    (x.program loanId).wp ((decisionProtocol loanId period).contract x) (fun _ _ _ => True) d .idle := by
  have hdecide : ∀ {loan : Loan} {status : LoanStatus} {approvedBy : Option Uuid}
      {notes : Option String} {now : Date} {d' : Database}, d'.find .loans loanId = some loan →
      loan.status = .pending → x.before = .pending → x.after = status →
      status = .approved ∨ status = .rejected →
      Decided loanId x d' (d'.apply (.update .loans (loan.setStatus status approvedBy notes now))) := by
    intro loan status approvedBy notes now d' hfound hpending hbefore hafter hdecision
    refine ⟨.decided (Database.find_self hfound) hpending hdecision, ?_, ?_⟩
    · rw [loanStatus_of_find hfound, hpending, hbefore]
    · have hid : loan.id = loanId := Database.find_id hfound
      have hnew : (loan.setStatus status approvedBy notes now).id = loanId ∧
          (loan.setStatus status approvedBy notes now).status = status := by
        rw [← hid]
        cases status <;> exact ⟨rfl, rfl⟩
      rw [Database.loanStatus, Database.find_update, if_pos hnew.1, hfound, hafter]
      exact congrArg some hnew.2
  cases x with
  | approveLoan notes adminId now =>
      exact decideLoan_wp fun d' loan l _ hfound hpending _ =>
        ⟨hdecide hfound hpending rfl rfl (.inl rfl), trivial⟩
  | rejectLoan reason now =>
      exact decideLoan_wp fun d' loan l _ hfound hpending _ =>
        ⟨hdecide hfound hpending rfl rfl (.inr rfl), trivial⟩
  | disburseLoan ids adminId now =>
      refine disburseLoan_wp fun d₁ d₂ d' loan loanPeriod current rows l l₂ henv₁ hloan happroved
        henv₂ hcurrent hfree henv₃ hlock _ hdisbursed => ⟨?_, trivial⟩
      have hid : loan.id = loanId := Database.find_id (loanWithPeriod_some hloan).1
      have hinv₂ : DecisionInvariant loanId period d₂ :=
        Protocol.Env.inv henv₂ (Protocol.Env.inv henv₁ hd)
      have hloan₂ := approved_of_free hinv₂ (approvedAs_env happroved henv₂ (.inl hloan)) hid
        hdisbursed.schedule hfree
      obtain rfl : loan = current :=
        Option.some.inj ((loanWithPeriod_some hloan₂).1.symm.trans hcurrent)
      have hfound := hdisbursed.found
      rw [hid] at hfound
      have hloan' : d'.loanWithPeriod loanId = some (loan, loanPeriod) := by
        rcases approvedAs_env happroved henv₃ (.inl hloan₂) with hsame | ⟨loan', hactive, hstatus⟩
        · exact hsame
        · have hsame : loan = loan' :=
            Option.some.inj (hfound.symm.trans (loanWithPeriod_some hactive).1)
          rw [← hsame, happroved] at hstatus
          cases hstatus
      have hinv' : DecisionInvariant loanId period d' := Protocol.Env.inv henv₃ hinv₂
      subst hid
      refine ⟨.disbursed hloan' happroved trivial hdisbursed, ?_, ?_⟩
      · rw [loanStatus_of_find hfound, happroved]
        rfl
      · have hfile := (disbursed_file hinv'.linked hdisbursed hloan').2 loan.id
        rw [if_pos rfl] at hfile
        have hjoin := congrArg LoanFile.loan hfile
        exact loanStatus_of_find (loanWithPeriod_some hjoin).1

end Calls

/-! ### Runs -/

/-- The status machine of a loan. -/
inductive LoanStatus.Next : LoanStatus → LoanStatus → Prop where
  | approve : Next .pending .approved
  | reject : Next .pending .rejected
  | disburse : Next .approved .active

theorem DecisionCall.next (x : DecisionCall) : LoanStatus.Next x.before x.after := by
  cases x with
  | approveLoan => exact .approve
  | rejectLoan => exact .reject
  | disburseLoan => exact .disburse

/-- What a disbursed loan has in the books: its installments, one expense and one fee, each with its
ledger row. -/
structure LoanFile.InBooks (tenor : ℕ) (f : LoanFile) : Prop where
  installments : (f.installments.map fun x => x.1.installmentNumber).Perm (List.range' 1 tenor)
  expense : ∃ e p, f.expenses = [(e, [p])]
  fee : ∃ inc p, f.fees = [(inc, [p])]

theorem LoanFile.Orderly.active_iff {f : LoanFile} (hf : f.Orderly) {loan : Loan}
    {loanPeriod : LoanPeriod} (hloan : f.loan = some (loan, loanPeriod))
    (htenor : 1 ≤ loanPeriod.tenor) : loan.status = .active ↔ f.InBooks loanPeriod.tenor := by
  constructor
  · intro hactive
    have hbooks := hf.active loan loanPeriod hloan hactive
    obtain ⟨e, he⟩ := hbooks.expense
    obtain ⟨fee, hfee⟩ := hbooks.fee
    exact ⟨.of_eq hbooks.numbers, ⟨e, _, he⟩, ⟨fee, _, hfee⟩⟩
  · intro hbooks
    by_contra hstatus
    have hlength := hbooks.installments.length_eq
    rw [(hf.waiting loan loanPeriod hloan hstatus).2.installments, List.length_range'] at hlength
    rw [← hlength] at htenor
    exact absurd htenor (by decide)

/-- How many decisions, and how many disbursements, a status leaves room for. -/
def LoanStatus.decisions : LoanStatus → ℕ
  | .pending => 1
  | _ => 0

def LoanStatus.disbursements : LoanStatus → ℕ
  | .pending => 1
  | .approved => 1
  | _ => 0

theorem DecisionCall.uses (x : DecisionCall) :
    [x].countP (·.isDecision) + x.after.decisions ≤ x.before.decisions ∧
      [x].countP (!·.isDecision) + x.after.disbursements ≤ x.before.disbursements := by
  cases x with
  | approveLoan => exact ⟨Nat.le_refl 1, Nat.le_refl 1⟩
  | rejectLoan => exact ⟨Nat.le_refl 1, Nat.zero_le 1⟩
  | disburseLoan => exact ⟨Nat.zero_le 0, Nat.le_refl 1⟩

/-- What the calls that have committed have left of that room. -/
structure Decisions (loanId : Uuid) (history : List DecisionCall) (d : Database) : Prop where
  decided : ∀ status, d.loanStatus loanId = some status →
    history.countP (·.isDecision) + status.decisions ≤ 1
  disbursed : ∀ status, d.loanStatus loanId = some status →
    history.countP (!·.isDecision) + status.disbursements ≤ 1

theorem Decisions.step {loanId : Uuid} {history : List DecisionCall} {x : DecisionCall}
    {d d' : Database} (h : Decisions loanId history d) (hx : Decided loanId x d d') :
    Decisions loanId (history ++ [x]) d' := by
  have hdecided := h.decided _ hx.before
  have hdisbursed := h.disbursed _ hx.before
  have huses := x.uses
  refine ⟨fun status hstatus => ?_, fun status hstatus => ?_⟩
  all_goals
    obtain rfl : x.after = status := Option.some.inj (hx.after.symm.trans hstatus)
    rw [List.countP_append]
    omega

/-- **One decision, one disbursement.** However the statements of the calls on a loan interleave, its
status only moves as the status machine says, at most one decision and at most one disbursement
commit, and the loan is active exactly when it is in the books. -/
theorem loan_disbursed_once {d d₀ : Database} (hkeys : d.ForeignKeys) {loanId : Uuid}
    (hnone : d.find .loans loanId = none) (hlife : LoanLife anything loanId d d₀)
    {loan₀ : Loan} {loanPeriod : LoanPeriod}
    (hloan : d₀.loanWithPeriod loanId = some (loan₀, loanPeriod)) (htenor : 1 ≤ loanPeriod.tenor)
    {s : Sys Database Write LockTarget Label Error DecisionCall}
    (hrun : Sys.Reach (DecisionCall.program loanId) (Sys.start d₀) s) :
    (∀ ev s', s.step (DecisionCall.program loanId) ev = some s' →
      s'.committed.loanStatus loanId = s.committed.loanStatus loanId ∨
      ∃ status status', LoanStatus.Next status status' ∧
        s.committed.loanStatus loanId = some status ∧
        s'.committed.loanStatus loanId = some status') ∧
    s.history.countP (·.isDecision) ≤ 1 ∧ s.history.countP (!·.isDecision) ≤ 1 ∧
    ∃ loan, s.committed.loanWithPeriod loanId = some (loan, loanPeriod) ∧
      (loan.status = .active ↔ (s.committed.file loanId).InBooks loanPeriod.tenor) := by
  have h₀ : DecisionInvariant loanId loanPeriod d₀ :=
    ⟨(hlife.simulates hkeys.linked).1, (hlife.kept hkeys hnone).orderly, ⟨loan₀, hloan⟩, htenor⟩
  have hprog := fun (x : DecisionCall) (d : Database)
    (hd : (decisionProtocol loanId loanPeriod).inv d) => x.program_wp hd
  have hgood := Protocol.sound hprog (Protocol.good_start h₀) hrun
  have hdecisions : Decisions loanId s.history s.committed := by
    refine Protocol.history_inv (J := Decisions loanId) hprog (fun _ hh hx => hh.step hx)
      (Protocol.good_start h₀) ⟨fun status _ => ?_, fun status _ => ?_⟩ hrun
    all_goals cases status <;> simp [Sys.start, LoanStatus.decisions, LoanStatus.disbursements]
  obtain ⟨loan, hfound⟩ := hgood.inv.runs
  have hstatus : s.committed.loanStatus loanId = some loan.status :=
    loanStatus_of_find (loanWithPeriod_some hfound).1
  refine ⟨fun ev s' hstep => ?_, ?_, ?_, loan, hfound, hgood.inv.orderly.active_iff hfound htenor⟩
  · rcases (hgood.step hprog (Sys.admitted_true s ev) hstep).2 with
      ⟨hsame, -⟩ | ⟨cl, -, l, hguar, -⟩
    · exact .inl (by rw [hsame])
    · exact .inr ⟨_, _, cl.call.next, hguar.before, hguar.after⟩
  · exact Nat.le_of_add_right_le (hdecisions.decided _ hstatus)
  · exact Nat.le_of_add_right_le (hdecisions.disbursed _ hstatus)

/-! ### Two disbursements at once -/

def requested : List LoanCall := [.createLoan 1 3 1 3000000 none (2 / 100) ⟨2026, 1, 5⟩]

def approving : DecisionCall := .approveLoan none 1 ⟨2026, 1, 6⟩

def disbursing (k : Uuid) : DecisionCall :=
  .disburseLoan ⟨(100 * k + ·), ⟨k, 100 * k, 100 * k + 1⟩, 100 * k, 100 * k + 2⟩ 1 ⟨2026, 1, 7⟩

def twoDisbursements : List (Event Error DecisionCall) :=
  .call approving :: List.replicate 3 (.run 0) ++
    [.call (disbursing 1), .call (disbursing 2), .run 1, .run 2] ++
    List.replicate 13 (.run 1) ++ List.replicate 3 (.run 2)

/-- Two administrators check the status of an approved loan before either has written; the second
disbursement fails on the numbers of its installments. -/
theorem loan_disbursed_once_twoDisbursements :
    ∃ s : Sys Database Write LockTarget Label Error DecisionCall,
      s.committed.loanStatus 1 = some .active ∧ s.history.countP (!·.isDecision) ≤ 1 ∧
      ∃ loanPeriod : LoanPeriod, (s.committed.file 1).InBooks loanPeriod.tenor := by
  have hexec : ((Sys.start (runCalls LoanCall.program seeded requested)).exec
      (DecisionCall.program 1) (fun _ _ => true) twoDisbursements).map
        (fun s => s.committed.loanStatus 1) = some (some .active) := by
    decide +kernel
  have hrequested : ((runCalls LoanCall.program seeded requested).loanWithPeriod 1).any
      (fun p => 1 ≤ p.2.tenor) = true := by
    decide +kernel
  obtain ⟨s, hs, hactive⟩ := Option.map_eq_some_iff.1 hexec
  obtain ⟨⟨loan₀, loanPeriod⟩, hloan, htenor⟩ := Option.any_eq_true .. |>.1 hrequested
  have hlife : LoanLife anything 1 seeded (runCalls LoanCall.program seeded requested) :=
    LoanLife.start.calls ⟨trivial, trivial⟩
  obtain ⟨-, -, honce, loan, hfound, hiff⟩ := loan_disbursed_once seeded_foreignKeys rfl hlife hloan
    (of_decide_eq_true htenor) (Sys.reach_of_exec hs)
  rw [loanStatus_of_find (loanWithPeriod_some hfound).1, Option.some.injEq] at hactive
  refine ⟨s, ?_, honce, loanPeriod, hiff.1 hactive⟩
  rw [loanStatus_of_find (loanWithPeriod_some hfound).1, hactive]

end LumbungMesari
