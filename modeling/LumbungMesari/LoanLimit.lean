import LumbungMesari.Footprints
import LumbungMesari.LoanRuns
import LumbungMesari.Sql.Sessions

/-!
# Three loans at a time

`trg_check_max_loans` counts the loans its statement sees and locks none of them. A loan that another
session has inserted and not committed is not among them.
-/

namespace LumbungMesari

open Sql
open Prog (inTrx onPool commitTrx writes_inTrx writes_onPool)

/-- The calls that write loans. -/
inductive LimitCall where
  | createLoan (id userId loanPeriodId : Uuid) (amount : ℚ) (notes : Option String)
      (adminFeeRate : ℚ) (now : Date)
  | approveLoan (loanId : Uuid) (notes : Option String) (adminId : Uuid) (now : Date)
  | rejectLoan (loanId : Uuid) (reason : String) (now : Date)
  | disburseLoan (ids : DisburseIds) (loanId adminId : Uuid) (now : Date)

namespace LimitCall

/-- The `INSERT` of `createLoan` commits after it has run, not while it runs. -/
def program : LimitCall → Program Unit
  | createLoan id userId loanPeriodId amount notes adminFeeRate now => do
      let _ ← (LumbungMesari.createLoan id userId loanPeriodId amount notes adminFeeRate now).split
      pure ()
  | approveLoan loanId notes adminId now => LumbungMesari.approveLoan loanId notes adminId now
  | rejectLoan loanId reason now => LumbungMesari.rejectLoan loanId reason now
  | disburseLoan ids loanId adminId now => LumbungMesari.disburseLoan ids loanId adminId now

def creates : LimitCall → Bool
  | createLoan .. => true
  | _ => false

end LimitCall

theorem createLoan_onPool {id userId loanPeriodId : Uuid} {amount : ℚ} {notes : Option String}
    {adminFeeRate : ℚ} {now : Date} :
    (createLoan id userId loanPeriodId amount notes adminFeeRate now).OnPool := by
  intro found
  cases found with
  | none => trivial
  | some loanPeriod => exact fun _ => trivial

/-- Alone, `createLoan` does not tell the difference. -/
theorem createLoan_split_run (id userId loanPeriodId : Uuid) (amount : ℚ) (notes : Option String)
    (adminFeeRate : ℚ) (now : Date) (d : Database) :
    (createLoan id userId loanPeriodId amount notes adminFeeRate now).split.run d .idle =
      (createLoan id userId loanPeriodId amount notes adminFeeRate now).run d .idle :=
  Prog.run_split createLoan_onPool d

/-! ### Counting loans -/

/-- The loans of a user that the trigger counts. -/
def Database.openLoans (d : Database) (userId : Uuid) : ℕ :=
  (d.rows .loans).countP fun loan => loan.userId = userId && loan.status.open

/-- The insertion of a loan of a user. -/
def Write.insertsLoanOf (userId : Uuid) : Write → Bool
  | .insert .loans loan => loan.userId = userId
  | _ => false

abbrev LimitClient := Client Database Write LockTarget Label Error LimitCall

abbrev LimitSys := Sys Database Write LockTarget Label Error LimitCall

/-- The loans of a user that some sessions have inserted and not committed. -/
def pendingLoans (userId : Uuid) (clients : List LimitClient) : ℕ :=
  (clients.map fun cl => cl.session.log.countP (Write.insertsLoanOf userId)).sum

/-- The trigger would let the next statement of a session pass if it also counted the loans of the
user that other sessions have inserted and not committed. -/
def roomForLoan (userId : Uuid) (s : LimitSys) : Event Error LimitCall → Bool
  | .run i =>
      match s.clients[i]?.bind fun cl => cl.writes s.committed with
      | none => true
      | some (v, ws) => ws.countP (Write.insertsLoanOf userId) = 0 ||
          v.openLoans userId + pendingLoans userId (s.clients.eraseIdx i) < 3
  | _ => true

section Counting

variable {d : Database} {loan : Loan} {userId : Uuid}

theorem openLoans_congr {d d' : Database} (h : d'.table .loans = d.table .loans) (userId : Uuid) :
    d'.openLoans userId = d.openLoans userId := by
  rw [Database.openLoans, Database.rows, h]
  rfl

theorem openLoans_insert (d : Database) (loan : Loan) (userId : Uuid) :
    (d.apply (.insert .loans loan)).openLoans userId ≤
      d.openLoans userId + [Write.insert .loans loan].countP (Write.insertsLoanOf userId) := by
  rw [Database.openLoans, Database.rows, Database.table_insert_self, List.countP_singleton,
    Write.insertsLoanOf]
  by_cases hmem : loan.id ∈ (d.table .loans).rows.map Loan.id
  · rw [Table.insert_of_mem hmem]
    exact Nat.le_add_right _ _
  · have hrows : ((d.table .loans).insert loan).rows = d.rows .loans ++ [loan] :=
      Table.rows_insert (Table.find?_eq_none.2 hmem)
    rw [hrows, List.countP_append, List.countP_singleton]
    refine Nat.add_le_add_left ?_ _
    by_cases huser : loan.userId = userId <;> simp [huser]
    split <;> omega

theorem openLoans_update (hfound : d.find .loans loan.id = some loan) (new : Loan)
    (hid : new.id = loan.id) (huser : new.userId = loan.userId)
    (hopen : new.status.open = true → loan.status.open = true) :
    (d.apply (.update .loans new)).openLoans userId ≤ d.openLoans userId := by
  obtain ⟨before, after, hsplit, hbefore, hafter⟩ := Table.split_of_find? hfound
  rw [← hid] at hbefore hafter
  have hrows : ((d.table .loans).replace new).rows = before ++ new :: after :=
    Table.rows_replace hid.symm hsplit hbefore hafter
  rw [Database.openLoans, Database.openLoans, Database.rows, Database.rows,
    Database.table_update_self, hrows, hsplit]
  simp only [List.countP_append, List.countP_cons, huser]
  refine Nat.add_le_add_left (Nat.add_le_add_left ?_ _) _
  cases hnew : new.status.open with
  | false => simp
  | true => rw [hopen hnew]

end Counting

/-! ### Commits -/

/-- A loan was approved. Nothing but its disbursement changes its status from then on. -/
def Database.Granted (d : Database) (loanId : Uuid) : Prop :=
  ∃ loan, d.find .loans loanId = some loan ∧ (loan.status = .approved ∨ loan.status = .active)

/-- What a commit does to the loans: granted loans stay granted, and only a request opens one. -/
structure LimitStep (x : LimitCall) (d d' : Database) : Prop where
  granted : ∀ loanId, d.Granted loanId → d'.Granted loanId
  counted : x.creates = false → ∀ userId, d'.openLoans userId ≤ d.openLoans userId

theorem LimitStep.of_table {x : LimitCall} {d d' : Database}
    (h : d'.table .loans = d.table .loans) : LimitStep x d d' where
  granted loanId := by
    rintro ⟨loan, hfound, hstatus⟩
    exact ⟨loan, (Database.find_congr h loanId).trans hfound, hstatus⟩
  counted _ userId := (openLoans_congr h userId).le

theorem LimitStep.insert {x : LimitCall} {d : Database} {loan : Loan} (hx : x.creates = true) :
    LimitStep x d (d.apply (.insert .loans loan)) where
  granted loanId := by
    rintro ⟨old, hfound, hstatus⟩
    refine ⟨old, ?_, hstatus⟩
    rw [Database.find_insert, hfound]
    split <;> rfl
  counted hnot := by
    rw [hx] at hnot
    cases hnot

theorem LimitStep.update {x : LimitCall} {d d' : Database} {loan : Loan} (new : Loan)
    (hfound : d.find .loans loan.id = some loan) (hid : new.id = loan.id)
    (huser : new.userId = loan.userId)
    (hopen : new.status.open = true → loan.status.open = true)
    (hgranted : loan.status = .approved ∨ loan.status = .active → new.status = .active)
    (htable : d'.table .loans = (d.apply (.update .loans new)).table .loans) :
    LimitStep x d d' where
  granted loanId := by
    rintro ⟨old, hold, hstatus⟩
    rw [Database.Granted, Database.find_congr htable, Database.find_update,
      show Row.id .loans new = loan.id from hid]
    split
    · rename_i hloan
      subst hloan
      obtain rfl : loan = old := Option.some.inj (hfound.symm.trans hold)
      rw [hfound]
      exact ⟨new, rfl, .inr (hgranted hstatus)⟩
    · exact ⟨old, hold, hstatus⟩
  counted _ userId := by
    rw [openLoans_congr htable]
    exact openLoans_update hfound new hid huser hopen

theorem insertLoan_writes {id userId : Uuid} {loanPeriod : LoanPeriod} {amount : ℚ}
    {notes : Option String} {adminFeeRate : ℚ} {now : Date} {v : Database} {ws : List Write}
    {loan : Loan} (h : (catchError (insertInto .loans
      (newLoan id userId loanPeriod amount notes adminFeeRate now)) createLoanError).exec v =
        .ok (ws, loan)) : ws = [.insert .loans loan] ∧ beforeWrite v .loans loan = .ok () := by
  cases hexec : (insertInto .loans
      (newLoan id userId loanPeriod amount notes adminFeeRate now)).exec v with
  | error e =>
      simp only [catchError, hexec] at h
      cases h
  | ok r =>
      simp only [catchError, hexec] at h
      cases h
      obtain ⟨r', hrow, hexec⟩ := bind_ok hexec
      obtain ⟨ws', hinsert, hexec⟩ := bind_ok hexec
      cases hexec
      obtain ⟨hinserted, rfl⟩ := insertRow_plain (by decide) hinsert
      exact ⟨rfl, hinserted.before⟩

def limitProtocol : Protocol Database LockTarget Label LimitCall where
  inv _ := True
  allows _ _ := True
  guar x _ := LimitStep x
  keeps _ _ := trivial

theorem granted_env {x : LimitCall} {l : Locks} {d d' : Database} {loanId : Uuid}
    (henv : (limitProtocol.contract x).env l d d') (h : d.Granted loanId) : d'.Granted loanId := by
  refine Protocol.Env.stable (p := fun d => d.Granted loanId) (fun hother h => ?_) henv h
  obtain ⟨_, _, _, -, -, -, -, hguar⟩ := hother
  exact hguar.granted loanId h

theorem table_disbursement_loans (d : Database) (loan : Loan) (now : Date) (rows : DisbursedRows) :
    (applyAll d (disbursement loan now rows)).table .loans =
      (d.apply (.update .loans (loan.disburse now))).table .loans := by
  rw [disbursement, applyAll_append, applyAll_append,
    Recorded.table_ne _ _ _ (by decide) (by decide), table_spending_ne _ _ _ (by decide) (by decide),
    activation, applyAll_cons, table_inserts_ne (by decide)]
  rfl

theorem LimitCall.program_wp (x : LimitCall) (d : Database) :
    x.program.wp (limitProtocol.contract x) (fun _ _ _ => True) d .idle := by
  have hdecide : ∀ {d' : Database} {loan : Loan} {loanId : Uuid} {status : LoanStatus}
      {approvedBy : Option Uuid} {notes : Option String} {now : Date},
      d'.find .loans loanId = some loan → loan.status = .pending →
      LimitStep x d' (d'.apply (.update .loans (loan.setStatus status approvedBy notes now))) := by
    intro d' loan loanId status approvedBy notes now hfound hpending
    refine .update (loan.setStatus status approvedBy notes now) (Database.find_self hfound) ?_ ?_
      (fun _ => ?_) (fun hgranted => ?_) rfl
    · cases status <;> rfl
    · cases status <;> rfl
    · rw [hpending]
      rfl
    · rw [hpending] at hgranted
      rcases hgranted with h | h <;> cases h
  cases x with
  | createLoan id userId loanPeriodId amount notes adminFeeRate now =>
      rw [program, LumbungMesari.createLoan, Prog.split_bind, Prog.wp_bind', Prog.wp_bind',
        findLoanPeriodById, Prog.wp_split_onPool]
      intro d₁ _ ws found hexec _ d₂ _
      obtain rfl : ws = [] := by
        cases hexec
        rfl
      refine ⟨.of_table rfl, ?_⟩
      cases found with
      | none => trivial
      | some loanPeriod =>
          rw [Prog.wp_split_onPool]
          intro d₃ _ ws loan hexec _ d₄ _
          obtain rfl := (insertLoan_writes hexec).1
          exact ⟨.insert rfl, trivial⟩
  | approveLoan loanId notes adminId now =>
      exact decideLoan_wp fun d' loan l _ hfound hpending _ => ⟨hdecide hfound hpending, trivial⟩
  | rejectLoan loanId reason now =>
      exact decideLoan_wp fun d' loan l _ hfound hpending _ => ⟨hdecide hfound hpending, trivial⟩
  | disburseLoan ids loanId adminId now =>
      refine disburseLoan_wp fun d₁ d₂ d' loan loanPeriod current rows l l₂ henv₁ hloan happroved
        henv₂ _ _ henv₃ _ _ hdisbursed => ⟨?_, trivial⟩
      have hid : loan.id = loanId := Database.find_id (loanWithPeriod_some hloan).1
      have hgranted₁ : d₁.Granted loanId := ⟨loan, (loanWithPeriod_some hloan).1, .inl happroved⟩
      obtain ⟨loan', hfound, hstatus⟩ := granted_env henv₃ (granted_env henv₂ hgranted₁)
      have hcurrent := hdisbursed.found
      rw [hid, hfound, Option.some.injEq] at hcurrent
      subst hcurrent
      refine .update (loan'.disburse now) (Database.find_self hfound) rfl rfl (fun _ => ?_)
        (fun _ => rfl) (table_disbursement_loans d' loan' now rows)
      rcases hstatus with h | h <;> rw [h] <;> rfl

/-! ### Sessions -/

/-- What a call on loans writes on top of its log: a request inserts its loan into an empty log, when
the trigger lets it pass; the other calls insert none. -/
def LimitCall.Writes (x : LimitCall) (log : List Write) (v : Database) (ws : List Write) : Prop :=
  if x.creates then
    ws = [] ∨ log = [] ∧ ∃ loan, ws = [.insert .loans loan] ∧ beforeWrite v .loans loan = .ok ()
  else ∀ userId, ws.countP (Write.insertsLoanOf userId) = 0

/-- The log of a call on loans. -/
def LimitCall.Log (x : LimitCall) (log : List Write) : Prop :=
  if x.creates then log = [] ∨ ∃ loan, log = [.insert .loans loan]
  else ∀ userId, log.countP (Write.insertsLoanOf userId) = 0

/-- A write that inserts no loan. -/
def Write.InsertsNoLoan (w : Write) : Prop := ∀ userId, w.insertsLoanOf userId = false

theorem Write.Spares.insertsNoLoan {w : Write} (h : w.Spares .loans) : w.InsertsNoLoan := by
  intro userId
  cases w with
  | insert t r =>
      cases t with
      | loans => exact absurd rfl h
      | _ => rfl
  | _ => rfl

theorem insertsNoLoan_of_spares {α : Type} {p : Program α} (h : p.Writes (Write.Spares .loans)) :
    p.Writes Write.InsertsNoLoan := h.mono fun _ => Write.Spares.insertsNoLoan

theorem insertsNoLoan_updateOrThrow {label : Label} {id : Uuid} {set : Loan → Except Error Loan}
    {notFound : Error} :
    (updateOrThrow (t := .loans) label id set notFound).Writes Write.InsertsNoLoan := by
  refine .bind (writes_inTrx fun d ws b hexec => ?_) fun result => ?_
  · simp only [updateById, statement] at hexec
    split at hexec
    · cases hexec
      exact fun w hw => by cases hw
    · obtain ⟨new, -, hexec⟩ := bind_ok hexec
      obtain ⟨ws', hupdate, hexec⟩ := bind_ok hexec
      cases hexec
      obtain ⟨-, rfl⟩ := updateRow_plain (by decide) hupdate
      intro w hw
      rw [List.mem_singleton.1 hw]
      exact fun _ => rfl
  · cases result <;> trivial

theorem insertsNoLoan_decideLoan {loanId : Uuid} {verb : String} {status : LoanStatus}
    {approvedBy : Option Uuid} {notes : Option String} {now : Date} :
    (decideLoan loanId verb status approvedBy notes now).Writes Write.InsertsNoLoan := by
  refine .bind (writes_inTrx writes_selectForUpdate) fun found => ?_
  cases found with
  | none => trivial
  | some found =>
      dsimp only
      split
      · trivial
      · exact .bind insertsNoLoan_updateOrThrow fun _ => trivial

theorem insertsNoLoan_disburseLoan {ids : DisburseIds} {loanId adminId : Uuid} {now : Date} :
    (disburseLoan ids loanId adminId now).Writes Write.InsertsNoLoan := by
  refine .bind (writes_onPool writes_select) fun found => ?_
  cases found with
  | none => trivial
  | some found =>
      dsimp only
      split
      · trivial
      refine .bind (writes_onPool writes_select) fun category => ?_
      cases category with
      | none => trivial
      | some category =>
          refine .bind (.bind insertsNoLoan_updateOrThrow fun _ => insertsNoLoan_of_spares ?_)
            fun _ => trivial
          refine .bind (writes_inTrx (writes_insertAll (by decide))) fun _ => ?_
          refine .bind (tame_createExpenseInTransaction (by decide) (by decide)).writes fun _ => ?_
          refine .bind (tame_createIncomeOf (by decide)).writes fun fee => ?_
          exact .bind (tame_createIncomeTransaction (by decide)).writes fun _ => trivial

theorem LimitCall.logs_of_insertsNoLoan {x : LimitCall} (hx : x.creates = false)
    (h : x.program.Writes Write.InsertsNoLoan) :
    x.program.logs x.Writes (fun _ _ => True) [] := by
  refine h.logs fun {log v ws} hws => ?_
  unfold LimitCall.Writes
  rw [hx, if_neg Bool.false_ne_true]
  exact fun userId => List.countP_eq_zero.2 fun w hw => by simp [hws w hw userId]

theorem LimitCall.program_logs (x : LimitCall) :
    x.program.logs x.Writes (fun _ _ => True) [] := by
  cases x with
  | createLoan id userId loanPeriodId amount notes adminFeeRate now =>
      rw [program, LumbungMesari.createLoan, Prog.split_bind, Prog.logs_bind, Prog.logs_bind]
      intro v ws found hexec
      obtain rfl : ws = [] := by
        cases hexec
        rfl
      refine ⟨.inl rfl, ?_⟩
      cases found with
      | none => trivial
      | some loanPeriod =>
          intro v' ws loan hexec
          obtain ⟨rfl, hbefore⟩ := insertLoan_writes hexec
          exact ⟨.inr ⟨rfl, loan, rfl, hbefore⟩, trivial⟩
  | approveLoan => exact logs_of_insertsNoLoan rfl insertsNoLoan_decideLoan
  | rejectLoan => exact logs_of_insertsNoLoan rfl insertsNoLoan_decideLoan
  | disburseLoan => exact logs_of_insertsNoLoan rfl insertsNoLoan_disburseLoan

theorem LimitCall.log_nil (x : LimitCall) : x.Log [] := by
  unfold Log
  split
  · exact .inl rfl
  · exact fun _ => rfl

theorem LimitCall.log_append {x : LimitCall} {log ws : List Write} {v : Database} (hlog : x.Log log)
    (hws : x.Writes log v ws) : x.Log (log ++ ws) := by
  unfold Log Writes at *
  split at hlog
  · rename_i hx
    rw [if_pos hx] at hws ⊢
    rcases hws with rfl | ⟨rfl, loan, rfl, -⟩
    · rwa [List.append_nil]
    · exact .inr ⟨loan, rfl⟩
  · rename_i hx
    rw [if_neg hx] at hws ⊢
    intro userId
    rw [List.countP_append, hlog, hws]

theorem LimitCall.log_of_writes {x : LimitCall} {log ws : List Write} {v : Database}
    (hws : x.Writes log v ws) : x.Log ws := by
  unfold Log
  unfold Writes at hws
  split at hws
  · rename_i hx
    rw [if_pos hx]
    rcases hws with rfl | ⟨-, loan, rfl, -⟩
    · exact .inl rfl
    · exact .inr ⟨loan, rfl⟩
  · rename_i hx
    rwa [if_neg hx]

/-! ### Runs -/

section Runs

variable {userId : Uuid} {s s' : LimitSys}

/-- The loans of a user that are open or on their way stay within the limit. -/
def WithinLimit (userId : Uuid) (s : LimitSys) : Prop :=
  s.committed.openLoans userId + pendingLoans userId s.clients ≤ 3

theorem pendingLoans_split {clients : List LimitClient} {i : ℕ} {cl : LimitClient}
    (hi : clients[i]? = some cl) : pendingLoans userId clients =
      cl.session.log.countP (Write.insertsLoanOf userId) +
        pendingLoans userId (clients.eraseIdx i) := by
  obtain ⟨hlt, rfl⟩ := List.getElem?_eq_some_iff.1 hi
  have hperm := (List.getElem_cons_eraseIdx_perm hlt).map
    fun cl : LimitClient => cl.session.log.countP (Write.insertsLoanOf userId)
  rw [pendingLoans, ← hperm.sum_eq, List.map_cons, List.sum_cons]
  rfl

theorem pendingLoans_set {clients : List LimitClient} {i : ℕ} {cl : LimitClient}
    (hi : i < clients.length) : pendingLoans userId (clients.set i cl) =
      cl.session.log.countP (Write.insertsLoanOf userId) +
        pendingLoans userId (clients.eraseIdx i) := by
  have hperm := (List.set_perm_cons_eraseIdx hi cl).map
    fun cl : LimitClient => cl.session.log.countP (Write.insertsLoanOf userId)
  rw [pendingLoans, hperm.sum_eq, List.map_cons, List.sum_cons]
  rfl

theorem openLoans_commit (userId : Uuid) {x : LimitCall} {log : List Write} {d : Database}
    (hlog : x.Log log) (hguar : LimitStep x d (applyAll d log)) : (applyAll d log).openLoans userId ≤
      d.openLoans userId + log.countP (Write.insertsLoanOf userId) := by
  unfold LimitCall.Log at hlog
  cases hx : x.creates with
  | false => exact (hguar.counted hx userId).trans (Nat.le_add_right ..)
  | true =>
      rw [if_pos hx] at hlog
      rcases hlog with rfl | ⟨loan, rfl⟩
      · exact Nat.le_add_right ..
      · exact openLoans_insert d loan userId

/-- A statement adds a loan of the user to a log only where there is room for it. -/
theorem room_of_writes {x : LimitCall} {log ws : List Write} {d v : Database} {others : ℕ}
    (hlog : x.Log log) (hws : x.Writes log v ws) (hview : log = [] → v = d)
    (hroom : ws.countP (Write.insertsLoanOf userId) = 0 ∨ v.openLoans userId + others < 3)
    (h : d.openLoans userId + (log.countP (Write.insertsLoanOf userId) + others) ≤ 3) :
    d.openLoans userId + ((log ++ ws).countP (Write.insertsLoanOf userId) + others) ≤ 3 := by
  rw [List.countP_append]
  rcases hroom with hnone | hroom
  · rwa [hnone]
  unfold LimitCall.Writes at hws
  split at hws
  · rcases hws with rfl | ⟨rfl, loan, rfl, -⟩
    · exact h
    · rw [hview rfl] at hroom
      have hone : [Write.insert .loans loan].countP (Write.insertsLoanOf userId) ≤ 1 :=
        List.countP_le_length
      rw [List.countP_nil]
      omega
  · rw [hws]
    exact h

theorem WithinLimit.step (hgood : limitProtocol.Good s)
    (hlogged : s.Logged LimitCall.Writes LimitCall.Log) (h : WithinLimit userId s)
    {ev : Event Error LimitCall} (hok : roomForLoan userId s ev = true)
    (hstep : s.step LimitCall.program ev = some s') : WithinLimit userId s' := by
  have hfail : ∀ {i : ℕ} {cl : LimitClient} {e : Error} {xs : List LimitCall},
      s.clients[i]? = some cl →
      WithinLimit userId ⟨s.committed, s.clients.set i (cl.fail e), xs⟩ := by
    intro i cl e xs hi
    rw [WithinLimit, pendingLoans_split hi] at h
    rw [WithinLimit, pendingLoans_set (List.getElem?_eq_some_iff.1 hi).1]
    simp only [Client.fail, Session.idle, List.countP_nil]
    omega
  cases Sys.step_spec hstep with
  | call x =>
      rw [WithinLimit, pendingLoans, List.map_append, List.sum_append]
      exact h
  | abort e hi => exact hfail hi
  | @run i cl cl' d c hi hnext =>
      have hmem : cl ∈ s.clients := List.mem_of_getElem? hi
      have hlt := (List.getElem?_eq_some_iff.1 hi).1
      have hsafe := hgood.safe cl hmem
      have hlogs := hlogged.prog cl hmem
      have hlog := hlogged.log cl hmem
      have hroom := hok
      simp only [roomForLoan, hi, Option.bind_some] at hroom
      rw [WithinLimit, pendingLoans_split hi] at h
      rw [WithinLimit, pendingLoans_set hlt]
      cases hnext with
      | fail e =>
          have hfailed : WithinLimit userId ⟨s.committed, s.clients.set i (cl.fail e), []⟩ := hfail hi
          rwa [WithinLimit, pendingLoans_set hlt] at hfailed
      | @auto β st k ws b hprog hfree hexec =>
          rw [hprog] at hsafe hlogs
          obtain ⟨hws, -⟩ := hlogs _ ws b hexec
          simp only [Client.writes, hprog, hexec, Except.toOption, Option.map_some, Bool.or_eq_true,
            decide_eq_true_eq] at hroom
          have hguar : LimitStep cl.call s.committed (applyAll s.committed ws) := by
            obtain ⟨hguar, -⟩ := hsafe s.committed Protocol.Env.refl ws b hexec trivial
            cases ws with
            | nil => exact .of_table rfl
            | cons w ws => exact hguar (List.cons_ne_nil w ws)
          have hcommit := openLoans_commit userId (LimitCall.log_of_writes hws) hguar
          have hwithin := room_of_writes hlog hws (fun _ => rfl) hroom h
          rw [List.countP_append] at hwithin
          dsimp only
          omega
      | @stmt β st k ws b hprog hfree hexec =>
          rw [hprog] at hlogs
          obtain ⟨hws, -⟩ := hlogs _ ws b hexec
          simp only [Client.writes, hprog, hexec, Except.toOption, Option.map_some, Bool.or_eq_true,
            decide_eq_true_eq] at hroom
          refine room_of_writes hlog hws (fun hnil => ?_) hroom h
          rw [Session.view, hnil, applyAll_nil]
      | @commit k hprog =>
          rw [hprog] at hsafe
          have hcommit := openLoans_commit userId hlog (hsafe s.committed Protocol.Env.refl).1
          simp only [Session.idle, List.countP_nil, Session.view] at hcommit ⊢
          omega

end Runs

/-- **Three loans at a time**, in every run in which no loan is inserted while three loans of the user
are open or on their way. -/
theorem loan_limit {d₀ : Database} {userId : Uuid} (h₀ : d₀.openLoans userId ≤ 3) {s : LimitSys}
    (hrun : Sys.RunWhere LimitCall.program (roomForLoan userId) (Sys.start d₀) s) :
    s.committed.openLoans userId ≤ 3 := by
  have hprog : ∀ x d, limitProtocol.inv d →
      (LimitCall.program x).wp (limitProtocol.contract x) (fun _ _ _ => True) d .idle :=
    fun x d _ => x.program_wp d
  have hinv : limitProtocol.Good s ∧ s.Logged LimitCall.Writes LimitCall.Log ∧
      WithinLimit userId s := by
    induction hrun with
    | refl => exact ⟨Protocol.good_start trivial, Sys.logged_start d₀, h₀⟩
    | @step s₁ s₂ ev _ hok hstep ih =>
        obtain ⟨hgood, hlogged, hwithin⟩ := ih
        exact ⟨(hgood.step hprog (Sys.admitted_true s₁ ev) hstep).1,
          hlogged.step LimitCall.program_logs LimitCall.log_nil LimitCall.log_append hstep,
          hwithin.step hgood hlogged hok hstep⟩
  exact Nat.le_of_add_right_le hinv.2.2

/-! ### Four requests at once -/

/-- A member asks for four loans; every session runs its `INSERT` before the first one commits. -/
def fourRequests : List (Event Error LimitCall) :=
  (List.range 4).map (fun n => .call (.createLoan n 3 1 3000000 none (2 / 100) ⟨2026, 1, 5⟩)) ++
    (List.range 4).flatMap (fun n => List.replicate 3 (.run n)) ++ (List.range 4).map .run

/-- The same four requests, one after another. The trigger refuses the last. -/
def fourRequestsInTurn : List (Event Error LimitCall) :=
  (List.range 4).map (fun n => .call (.createLoan n 3 1 3000000 none (2 / 100) ⟨2026, 1, 5⟩)) ++
    (List.range 4).flatMap (fun n => List.replicate 4 (.run n))

theorem loan_limit_fourRequestsInTurn :
    ∃ s : LimitSys, (s.committed.rows .loans).length = 3 ∧ s.committed.openLoans 3 ≤ 3 := by
  have hexec : ((Sys.start seeded).execWhere LimitCall.program (roomForLoan 3)
      fourRequestsInTurn).map (fun s => (s.committed.rows .loans).length) = some 3 := by
    decide +kernel
  obtain ⟨s, hs, hlength⟩ := Option.map_eq_some_iff.1 hexec
  have hstart : seeded.openLoans 3 ≤ 3 := by decide +kernel
  exact ⟨s, hlength, loan_limit hstart (Sys.runWhere_of_execWhere hs)⟩

/-- **The limit is passed** when four requests of a member overlap. -/
theorem four_requests_pass_limit :
    ∃ s, Sys.Reach LimitCall.program (Sys.start seeded) s ∧ seeded.openLoans 3 = 0 ∧
      s.committed.openLoans 3 = 4 := by
  have hexec : ((Sys.start seeded).exec LimitCall.program (fun _ _ => true) fourRequests).map
      (fun s => s.committed.openLoans 3) = some 4 := by
    decide +kernel
  obtain ⟨s, hs, hopen⟩ := Option.map_eq_some_iff.1 hexec
  exact ⟨s, Sys.reach_of_exec hs, by decide +kernel, hopen⟩

end LumbungMesari
