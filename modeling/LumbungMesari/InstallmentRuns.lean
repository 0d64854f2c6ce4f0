import LumbungMesari.LoanRules
import LumbungMesari.Seeds

/-!
# Concurrent settlements and overdue runs

`settleInstallment` locks the row it checks. The overdue job lists installments on the pool and
updates them by id, so it can reach a row that has been paid in between. As long as it does not, a
paid row is final, and posted once.
-/

namespace LumbungMesari

open Sql
open Prog (inTrx commitTrx)

inductive RepaymentCall where
  | settleInstallment (ids : SettleIds) (installmentId adminId : Uuid) (now : Date)
  | processOverdueInstallments (now : Date)

def RepaymentCall.program : RepaymentCall → Program Unit
  | settleInstallment ids installmentId adminId now =>
      LumbungMesari.settleInstallment ids installmentId adminId now
  | processOverdueInstallments now => LumbungMesari.processOverdueInstallments now

/-- The two updates of the overdue job do not reach a row that is paid. -/
def writesUnpaid : Label → Database → Bool
  | .updateInstallmentStatus id, d => (d.find .installments id).all fun i => i.status ≠ .paid
  | .addPenaltyToInstallment id, d => (d.find .installments id).all fun i => i.status ≠ .paid
  | _, _ => true

/-- Paid installments are posted once, the others not at all. -/
structure PostedOnce (d : Database) : Prop where
  incomesExist : d.IncomesExist
  paid : ∀ id i, d.find .installments id = some i → i.status = .paid →
    postedAmounts (d.entries (forInstallment id)) = installmentPostings i
  unpaid : ∀ id i, d.find .installments id = some i → i.status ≠ .paid →
    d.entries (forInstallment id) = []

/-- What a commit of a settlement or of the job does to a state. -/
inductive Repayment (d : Database) : Database → Prop where
  | settled {ids : SettleIds} {adminId : Uuid} {now : Date} {i : Installment}
      {ps : List (Income × CashbookTransaction)} (found : d.find .installments i.id = some i)
      (unpaid : i.status ≠ .paid)
      (recorded : RecordedAll (d.apply (.update .installments (i.settle adminId now)))
        (installmentIncomes ids i) ps) :
      Repayment d (applyAll (d.apply (.update .installments (i.settle adminId now))) (recordings ps))
  | marked {old : Installment} (found : d.find .installments old.id = some old)
      (unpaid : old.status ≠ .paid) : Repayment d (marking old d)
  | penalized {old cur : Installment} {penalty total : Money}
      (found : d.find .installments old.id = some old) (unpaid : old.status ≠ .paid)
      (foundCur : (marking old d).find .installments cur.id = some cur)
      (unpaidCur : cur.status ≠ .paid) :
      Repayment d ((marking old d).apply (.update .installments
        { cur with penaltyAmount := penalty, totalAmount := total }))

/-! ### Updates of one installment -/

section Updates

variable {d : Database} {i new : Installment}

theorem PostedOnce.rewrite (h : PostedOnce d) (hfound : d.find .installments i.id = some i)
    (hunpaid : i.status ≠ .paid) (hid : new.id = i.id) (hnew : new.status ≠ .paid) :
    PostedOnce (d.apply (.update .installments new)) where
  incomesExist := incomesExist_updateInstallment h.incomesExist new
  paid id i' hi' hpaid := by
    rw [find_updateInstallment new hfound hid] at hi'
    rw [entries_updateInstallment]
    split at hi'
    · cases hi'
      exact absurd hpaid hnew
    · exact h.paid id i' hi' hpaid
  unpaid id i' hi' hunpaid' := by
    rw [find_updateInstallment new hfound hid] at hi'
    rw [entries_updateInstallment]
    split at hi'
    · rename_i he
      rw [he]
      exact h.unpaid i.id i hfound hunpaid
    · exact h.unpaid id i' hi' hunpaid'

theorem find_recordings (ps : List (Income × CashbookTransaction)) (id : Uuid) :
    (applyAll d (recordings ps)).find .installments id = d.find .installments id :=
  Database.find_congr (RecordedAll.table_ne d ps (by decide) (by decide)) id

theorem PostedOnce.settle {ids : SettleIds} {adminId : Uuid} {now : Date}
    {ps : List (Income × CashbookTransaction)} (h : PostedOnce d)
    (hfound : d.find .installments i.id = some i) (hunpaid : i.status ≠ .paid)
    (hrecorded : RecordedAll (d.apply (.update .installments (i.settle adminId now)))
      (installmentIncomes ids i) ps) :
    PostedOnce (applyAll (d.apply (.update .installments (i.settle adminId now)))
      (recordings ps)) := by
  have hexist := incomesExist_updateInstallment h.incomesExist (i.settle adminId now)
  obtain ⟨hposted, hmine⟩ := installmentIncomes_post hrecorded
  have hentries : ∀ id, (applyAll (d.apply (.update .installments (i.settle adminId now)))
      (recordings ps)).entries (forInstallment id) = d.entries (forInstallment id) ++
        if id = i.id then ps.map Prod.snd else [] := by
    intro id
    rw [hrecorded.entries hexist, entries_updateInstallment]
    by_cases he : id = i.id
    · rw [if_pos he, List.filter_eq_self.2 fun p hp => by simp [forInstallment, (hmine p hp).1, he]]
    · rw [if_neg he, List.filter_eq_nil_iff.2 fun p hp => by
        simp [forInstallment, (hmine p hp).1, Ne.symm he], List.map_nil]
  refine ⟨hrecorded.incomesExist hexist, fun id i' hi' hpaid => ?_, fun id i' hi' hunpaid' => ?_⟩
  · rw [find_recordings, find_updateInstallment (i.settle adminId now) hfound rfl] at hi'
    rw [hentries]
    split at hi'
    · rename_i he
      cases hi'
      rw [he, if_pos rfl, h.unpaid i.id i hfound hunpaid, List.nil_append]
      exact hposted
    · rename_i he
      rw [if_neg he, List.append_nil]
      exact h.paid id i' hi' hpaid
  · rw [find_recordings, find_updateInstallment (i.settle adminId now) hfound rfl] at hi'
    rw [hentries]
    split at hi'
    · cases hi'
      exact absurd rfl hunpaid'
    · rename_i he
      rw [if_neg he, List.append_nil]
      exact h.unpaid id i' hi' hunpaid'

end Updates

namespace Repayment

variable {d d' : Database} {id : Uuid} {i : Installment}

theorem postedOnce (h : Repayment d d') (hd : PostedOnce d) : PostedOnce d' := by
  cases h with
  | settled found unpaid recorded => exact hd.settle found unpaid recorded
  | @marked old found unpaid => exact hd.rewrite found unpaid rfl (by simp [Installment.setStatus])
  | @penalized old cur penalty total found unpaid foundCur unpaidCur =>
      have hmarked : PostedOnce (marking old d) :=
        hd.rewrite found unpaid rfl (by simp [Installment.setStatus])
      exact hmarked.rewrite foundCur unpaidCur rfl unpaidCur

theorem paid_kept (h : Repayment d d') (hi : d.find .installments id = some i)
    (hpaid : i.status = .paid) : d'.find .installments id = some i := by
  have hother : ∀ {j : Installment} {e : Database}, e.find .installments id = some i →
      e.find .installments j.id = some j → j.status ≠ .paid → id ≠ j.id := by
    rintro j e hi hj hunpaid rfl
    rw [hi, Option.some.injEq] at hj
    exact hunpaid (hj ▸ hpaid)
  have hmark : ∀ {old : Installment}, d.find .installments old.id = some old →
      old.status ≠ .paid → (marking old d).find .installments id = some i := by
    intro old hold hunpaid
    rw [marking, find_updateInstallment (old.setStatus .overdue) hold rfl,
      if_neg (hother hi hold hunpaid)]
    exact hi
  cases h with
  | @settled ids adminId now j ps found unpaid recorded =>
      rw [find_recordings, find_updateInstallment (j.settle adminId now) found rfl,
        if_neg (hother hi found unpaid)]
      exact hi
  | marked found unpaid => exact hmark found unpaid
  | @penalized old cur penalty total found unpaid foundCur unpaidCur =>
      have hi' := hmark found unpaid
      rw [find_updateInstallment { cur with penaltyAmount := penalty, totalAmount := total }
        foundCur rfl, if_neg (hother hi' foundCur unpaidCur)]
      exact hi'

end Repayment

/-! ### The protocol -/

def repaymentProtocol : Protocol Database LockTarget Label RepaymentCall where
  inv := PostedOnce
  allows l d := writesUnpaid l d = true
  guar _ _ d d' := Repayment d d'
  keeps := fun hd h => h.postedOnce hd

theorem unpaid_of_all {d : Database} {id : Uuid} {i : Installment}
    (h : (d.find .installments id).all (fun i => decide (i.status ≠ .paid)) = true)
    (hi : d.find .installments id = some i) : i.status ≠ .paid := by
  rw [hi] at h
  simpa using h

theorem processLoans_wp (x : RepaymentCall) (rs : List Installment) (d : Database) :
    (processLoans rs).wp (repaymentProtocol.contract x) (fun _ _ _ => True) d .idle := by
  induction rs generalizing d with
  | nil => trivial
  | cons r rs ih =>
      rw [processLoans, Prog.wp_bind']
      have hunpaid : ∀ {d' : Database} {old : Installment},
          Marked (repaymentProtocol.contract x) r.id old d' → old.status ≠ .paid := by
        rintro d' old ⟨-, d₁, -, hfind, hallowed⟩
        exact unpaid_of_all hallowed hfind
      have hfound : ∀ {d' : Database} {old : Installment},
          Marked (repaymentProtocol.contract x) r.id old d' →
            d'.find .installments old.id = some old := by
        rintro d' old ⟨hfind, -⟩
        rw [show old.id = r.id from Database.find_id hfind]
        exact hfind
      refine processLoanOverdueInstallments_wp (fun d' old l _ hmarked _ => ?_)
        fun d' old cur new l _ hmarked hpenalized _ => ?_
      · exact ⟨.marked (hfound hmarked) (hunpaid hmarked), ih _⟩
      · obtain ⟨d₁, -, hfind, hallowed⟩ := hpenalized.allowed
        obtain ⟨_, _, _, _, _, _, _, -, -, -, -, -, -, -, hset⟩ := hpenalized.set
        obtain ⟨_, _, -, -, rfl⟩ := penalized_ok hset
        exact ⟨.penalized (hfound hmarked) (hunpaid hmarked) hpenalized.found
          (unpaid_of_all hallowed hfind), ih _⟩

theorem RepaymentCall.program_wp (x : RepaymentCall) (d : Database) :
    x.program.wp (repaymentProtocol.contract x) (fun _ _ _ => True) d .idle := by
  cases x with
  | settleInstallment ids installmentId adminId now =>
      refine settleInstallment_wp fun d' i ps l _ hi hunpaid hrecorded => ⟨?_, trivial⟩
      have hid : Row.id .installments i = installmentId := Database.find_id hi
      rw [← hid] at hi
      exact .settled hi hunpaid hrecorded
  | processOverdueInstallments now =>
      rw [program, LumbungMesari.processOverdueInstallments, findOverdueInstallments, Prog.wp_bind']
      exact wp_selectOnPool fun d' _ => processLoans_wp _ _ d'

/-- **Paid is final and posted once**, in every run in which the updates of the overdue job only
reach unpaid rows. -/
theorem paid_is_final {d₀ : Database} (h₀ : PostedOnce d₀)
    {s₁ s₂ : Sys Database Write LockTarget Label Error RepaymentCall}
    (h₁ : Sys.Run RepaymentCall.program (fun l d => writesUnpaid l d = true) (Sys.start d₀) s₁)
    (h₂ : Sys.Run RepaymentCall.program (fun l d => writesUnpaid l d = true) s₁ s₂)
    {id : Uuid} {i : Installment} (hi : s₁.committed.find .installments id = some i)
    (hpaid : i.status = .paid) :
    s₂.committed.find .installments id = some i ∧
      postedAmounts (s₂.committed.entries (forInstallment id)) = installmentPostings i := by
  have hprog := fun (x : RepaymentCall) (d : Database) (_ : repaymentProtocol.inv d) =>
    x.program_wp d
  have hgood := Protocol.sound hprog (Protocol.good_start h₀) h₁
  have hkept : s₂.committed.find .installments id = some i :=
    Protocol.history_inv (J := fun _ d => d.find .installments id = some i) hprog
      (fun _ hi hguar => Repayment.paid_kept hguar hi hpaid) hgood hi h₂
  exact ⟨hkept, (Protocol.sound hprog hgood h₂).inv.paid id i hkept hpaid⟩

/-! ### The job between two settlements -/

theorem withLoan_postedOnce : PostedOnce withLoan where
  incomesExist := by
    have hall : (withLoan.rows .cashbookTransactions).all (fun r =>
        r.incomeId.all fun i => (withLoan.find .incomes i).isSome) = true := by decide +kernel
    intro r hr i hi hnone
    have hsome := List.all_eq_true.1 hall r hr
    rw [Option.mem_def] at hi
    rw [hi, Option.all_some, hnone] at hsome
    cases hsome
  paid id i hi hpaid := by
    have hall : (withLoan.rows .installments).all (fun i => i.status ≠ .paid) = true := by
      decide +kernel
    have hunpaid := List.all_eq_true.1 hall i (Table.find?_some hi).1
    simp [hpaid] at hunpaid
  unpaid id i _ _ := by
    have hall : (withLoan.rows .incomes).all (fun inc => inc.installmentId = none) = true := by
      decide +kernel
    refine entries_eq_nil fun inc hinc => ?_
    have hnone := List.all_eq_true.1 hall inc hinc
    rw [decide_eq_true_eq] at hnone
    simp [forInstallment, hnone]

def overdueRun (month : ℕ) : RepaymentCall := .processOverdueInstallments ⟨2026, month, 20⟩

def firstPayment : RepaymentCall :=
  .settleInstallment ⟨⟨10, 10⟩, ⟨11, 11⟩, ⟨12, 12⟩⟩ 1 1 ⟨2026, 2, 20⟩

def secondPayment : RepaymentCall :=
  .settleInstallment ⟨⟨20, 20⟩, ⟨21, 21⟩, ⟨22, 22⟩⟩ 1 1 ⟨2026, 2, 21⟩

/-- The status of an installment and the number of its ledger rows. -/
def installmentState (id : Uuid) (s : Sys Database Write LockTarget Label Error RepaymentCall) :
    Option InstallmentStatus × ℕ :=
  ((s.committed.find .installments id).map (·.status),
    (s.committed.entries (forInstallment id)).length)

theorem paid_is_final_firstPayment :
    ∃ s₁ s₂ : Sys Database Write LockTarget Label Error RepaymentCall, ∃ i,
      i.status = .paid ∧ s₁.committed.find .installments 1 = some i ∧
      s₂.committed.find .installments 1 = some i := by
  have hpay : ((Sys.start withLoan).exec RepaymentCall.program writesUnpaid
      (.call firstPayment :: List.replicate 11 (.run 0))).any (fun s =>
        (s.committed.find .installments 1).any (·.status = .paid) &&
        (s.exec RepaymentCall.program writesUnpaid
          (.call (overdueRun 3) :: List.replicate 5 (.run 1))).isSome) = true := by
    decide +kernel
  obtain ⟨s₁, hs₁, hboth⟩ := Option.any_eq_true .. |>.1 hpay
  obtain ⟨hfind, hrest⟩ := Bool.and_eq_true .. |>.mp hboth
  obtain ⟨i, hi, hpaid⟩ := Option.any_eq_true .. |>.1 hfind
  obtain ⟨s₂, hs₂⟩ := Option.isSome_iff_exists.1 hrest
  exact ⟨s₁, s₂, i, of_decide_eq_true hpaid, hi, (paid_is_final withLoan_postedOnce
    (Sys.run_of_exec hs₁) (Sys.run_of_exec hs₂) hi (of_decide_eq_true hpaid)).1⟩

/-- The job lists an installment, the installment is paid, the job marks it overdue, and it is
collected again. -/
theorem overdue_reopens_paid :
    ∃ s₁ s₂ s₃ : Sys Database Write LockTarget Label Error RepaymentCall,
      Sys.Reach RepaymentCall.program (Sys.start withLoan) s₁ ∧
      Sys.Reach RepaymentCall.program s₁ s₂ ∧ Sys.Reach RepaymentCall.program s₂ s₃ ∧
      installmentState 1 s₁ = (some .paid, 2) ∧ installmentState 1 s₂ = (some .overdue, 2) ∧
      installmentState 1 s₃ = (some .paid, 4) := by
  have hexec : ((Sys.start withLoan).exec RepaymentCall.program (fun _ _ => true)
      ([.call (overdueRun 2), .run 0, .call firstPayment] ++ List.replicate 11 (.run 1))).any (fun s₁ =>
        decide (installmentState 1 s₁ = (some .paid, 2)) &&
        (s₁.exec RepaymentCall.program (fun _ _ => true) (List.replicate 4 (.run 0))).any fun s₂ =>
          decide (installmentState 1 s₂ = (some .overdue, 2)) &&
          (s₂.exec RepaymentCall.program (fun _ _ => true)
            (.call secondPayment :: List.replicate 11 (.run 2))).any fun s₃ =>
              decide (installmentState 1 s₃ = (some .paid, 4))) = true := by
    decide +kernel
  obtain ⟨s₁, hs₁, h₁⟩ := Option.any_eq_true .. |>.1 hexec
  obtain ⟨hpaid, h₁⟩ := Bool.and_eq_true .. |>.mp h₁
  obtain ⟨s₂, hs₂, h₂⟩ := Option.any_eq_true .. |>.1 h₁
  obtain ⟨hoverdue, h₂⟩ := Bool.and_eq_true .. |>.mp h₂
  obtain ⟨s₃, hs₃, hagain⟩ := Option.any_eq_true .. |>.1 h₂
  exact ⟨s₁, s₂, s₃, Sys.reach_of_exec hs₁, Sys.reach_of_exec hs₂, Sys.reach_of_exec hs₃,
    of_decide_eq_true hpaid, of_decide_eq_true hoverdue, of_decide_eq_true hagain⟩

end LumbungMesari
