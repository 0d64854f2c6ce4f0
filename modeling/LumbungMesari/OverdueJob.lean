import LumbungMesari.LoanSteps
import LumbungMesari.Sql.Alone

/-!
# The overdue job on files

The overdue job goes through the loans with an installment past due, one by one. For each of them it
marks the first such installment, and charges one that is overdue without a penalty when there were
others.
-/

namespace LumbungMesari

open Sql

variable {d d' : Database} {c : Uuid → Conduct}

/-! ### Lists of installments -/

theorem mem_firstByLoan {rs : List Installment} {r : Installment} (h : r ∈ firstByLoan rs) :
    r ∈ rs := by
  induction rs with
  | nil => cases h
  | cons r' rs ih =>
      rcases List.mem_cons.1 h with rfl | h
      · exact List.mem_cons_self ..
      · exact List.mem_cons_of_mem _ (ih (List.mem_filter.1 h).1)

theorem firstByLoan_pairwise (rs : List Installment) :
    (firstByLoan rs).Pairwise fun r r' => r.loanId ≠ r'.loanId := by
  induction rs with
  | nil => exact List.Pairwise.nil
  | cons r rs ih =>
      refine List.pairwise_cons.2 ⟨fun r' hr' => ?_, ih.filter _⟩
      exact Ne.symm (of_decide_eq_true (List.mem_filter.1 hr').2)

theorem oldestUnpenalized_spec {loanId : Uuid} {r : Installment}
    (h : d.oldestUnpenalized loanId = some r) :
    r ∈ d.rows .installments ∧ (r.loanId = loanId ∧ r.status = .overdue) ∧
      r.penaltyAmount.units = 0 := by
  have hmem := List.mem_of_head? h
  rw [List.mem_insertionSort, List.mem_filter] at hmem
  simpa only [Bool.and_eq_true, decide_eq_true_eq] using hmem

theorem oldestUnpenalized_some {loanId : Uuid} {r : Installment}
    (h : d.oldestUnpenalized loanId = some r) :
    d.find .installments r.id = some r ∧ r.loanId = loanId ∧ r.status = .overdue := by
  obtain ⟨hmem, hp, -⟩ := oldestUnpenalized_spec h
  exact ⟨Table.find?_of_mem hmem, hp⟩

theorem oldestUnpenalized_le {loanId : Uuid} {r x : Installment}
    (h : d.oldestUnpenalized loanId = some r) (hx : x ∈ d.rows .installments)
    (hloan : x.loanId = loanId) (hoverdue : x.status = .overdue) (hzero : x.penaltyAmount.units = 0) :
    r.installmentNumber ≤ x.installmentNumber := by
  have : Std.Total fun a b : Installment => a.installmentNumber ≤ b.installmentNumber :=
    ⟨fun _ _ => Nat.le_total _ _⟩
  have : IsTrans Installment fun a b => a.installmentNumber ≤ b.installmentNumber :=
    ⟨fun _ _ _ => Nat.le_trans⟩
  have hsorted := List.pairwise_insertionSort
    (fun a b : Installment => a.installmentNumber ≤ b.installmentNumber)
    ((d.rows .installments).filter fun r =>
      r.loanId = loanId && r.status = .overdue && r.penaltyAmount.units = 0)
  have hlisted := (List.mem_insertionSort (fun a b : Installment =>
    a.installmentNumber ≤ b.installmentNumber)).2 (List.mem_filter (p := fun r : Installment =>
      r.loanId = loanId && r.status = .overdue && r.penaltyAmount.units = 0).2
        ⟨hx, by simp [hloan, hoverdue, hzero]⟩)
  obtain ⟨rest, hrest⟩ := List.head?_eq_some_iff.1 h
  rw [hrest] at hsorted hlisted
  rcases List.mem_cons.1 hlisted with rfl | hlisted
  · exact le_refl _
  · exact (List.pairwise_cons.1 hsorted).1 x hlisted

theorem oldestUnpenalized_none {loanId : Uuid} (h : d.oldestUnpenalized loanId = none)
    {r : Installment} (hr : r ∈ d.rows .installments) (hloan : r.loanId = loanId)
    (hoverdue : r.status = .overdue) : r.penaltyAmount.units ≠ 0 := by
  intro hzero
  rw [Database.oldestUnpenalized, List.head?_eq_none_iff] at h
  have hmem := (List.mem_insertionSort (fun a b : Installment =>
    a.installmentNumber ≤ b.installmentNumber)).2 (List.mem_filter (p := fun r : Installment =>
      r.loanId = loanId && r.status = .overdue && r.penaltyAmount.units = 0).2
        ⟨hr, by simp [hloan, hoverdue, hzero]⟩)
  rw [h] at hmem
  cases hmem

/-- The installments of a state that are due, one of each loan. -/
structure Listed (d : Database) (rs : List Installment) : Prop where
  due : ∀ r ∈ rs, d.find .installments r.id = some r ∧ r.status = .due
  loans : rs.Pairwise fun r r' => r.loanId ≠ r'.loanId

theorem Listed.eq_of_loan {rs : List Installment} (h : Listed d rs) {r r' : Installment} (hr : r ∈ rs)
    (hr' : r' ∈ rs) (hloan : r.loanId = r'.loanId) : r = r' := by
  have : Std.Symm fun r r' : Installment => r.loanId ≠ r'.loanId := ⟨fun _ _ h => h.symm⟩
  by_contra hne
  exact h.loans.forall hr hr' hne hloan

theorem Listed.update {rs : List Installment} (h : Listed d rs) {i : Installment}
    (new : Installment) (hfound : d.find .installments i.id = some i) (hid : new.id = i.id)
    (hne : ∀ r ∈ rs, i.loanId ≠ r.loanId) : Listed (d.apply (.update .installments new)) rs where
  due r hr := by
    obtain ⟨hfind, hdue⟩ := h.due r hr
    refine ⟨?_, hdue⟩
    rw [find_updateInstallment new hfound hid, if_neg, hfind]
    intro hsame
    rw [hsame, hfound, Option.some.injEq] at hfind
    exact hne r hr (hfind ▸ rfl)
  loans := h.loans

/-! ### Work on one loan -/

/-- What the job does to a state for the first listed installment of a loan. -/
inductive Charged (r : Installment) (d : Database) : Database → Prop where
  | marked (found : d.find .installments r.id = some r)
      (reason : d.overdueCount r.loanId = 0 ∨ (marking r d).oldestUnpenalized r.loanId = none) :
      Charged r d (marking r d)
  | penalized {loan : Loan} {loanPeriod : LoanPeriod} {oldest new : Installment}
      (found : d.find .installments r.id = some r) (others : d.overdueCount r.loanId ≠ 0)
      (period : d.loanWithPeriod r.loanId = some (loan, loanPeriod))
      (picked : (marking r d).oldestUnpenalized r.loanId = some oldest)
      (set : penalized (oldest.penaltyAmount.plus (loan.penaltyAmount loanPeriod))
        (oldest.totalAmount.plus (loan.penaltyAmount loanPeriod)) oldest = .ok new) :
      Charged r d ((marking r d).apply (.update .installments new))

theorem processLoan_alone {r : Installment} {guar : Database → Database → Prop}
    {Q : Unit → Database → Trx → Prop} (hfound : d.find .installments r.id = some r)
    (h : ∀ d', Charged r d d' → guar d d' ∧ Q () d' .idle) :
    (processLoanOverdueInstallments r.loanId r).wp (Prog.alone guar) Q d .idle := by
  refine processLoanOverdueInstallments_wp (fun d' old l henv hmark hreason => ?_)
    fun d' old cur new l henv hmark hpenalized hcount => ?_
  · obtain rfl : d = d' := henv
    obtain rfl : r = old := Option.some.inj (hfound.symm.trans hmark.found)
    refine h _ (.marked hfound ?_)
    obtain ⟨⟨d₁, rfl, hnone⟩ | ⟨d₁, rfl, hgone⟩⟩ := hreason
    · exact .inl hnone
    · refine .inr (Option.eq_none_iff_forall_ne_some.2 fun oldest holdest => ?_)
      obtain ⟨d₂, hd₂, -, hnone⟩ := hgone oldest holdest
      obtain rfl : d₁ = d₂ := hd₂
      rw [(oldestUnpenalized_some holdest).1] at hnone
      cases hnone
  · obtain rfl : d = d' := henv
    obtain rfl : r = old := Option.some.inj (hfound.symm.trans hmark.found)
    obtain ⟨_, rfl, hcount⟩ := hcount
    obtain ⟨loan, loanPeriod, oldest, current, d₁, d₂, d₃, rfl, rfl, rfl, hperiod, holdest, hid,
      hcurrent, hset⟩ := hpenalized.set
    obtain rfl : current = cur := Option.some.inj (hcurrent.symm.trans hpenalized.found)
    obtain rfl : oldest = current :=
      Option.some.inj ((oldestUnpenalized_some holdest).1.symm.trans (hid ▸ hcurrent))
    exact h _ (.penalized hfound hcount hperiod holdest hset)

theorem exists_mem_file {loanId : Uuid} {i : Installment} (hmem : i ∈ d.rows .installments)
    (hloan : i.loanId = loanId) : ∃ ps, (i, ps) ∈ (d.file loanId).installments :=
  ⟨_, mem_file_installments (Table.find?_of_mem hmem) hloan⟩

theorem Charged.file_marking {r : Installment} (h : Charged r d d') (loanId : Uuid) :
    (marking r d).file loanId = (d.file loanId).rewrite (r.setStatus .overdue) [] := by
  have hfound : d.find .installments r.id = some r := by cases h <;> assumption
  exact file_updateInstallment (r.setStatus .overdue) hfound rfl rfl loanId

theorem Charged.file_ne {r : Installment} (h : Charged r d d') {loanId : Uuid}
    (hne : r.loanId ≠ loanId) : d'.file loanId = d.file loanId := by
  have hfound : d.find .installments r.id = some r := by cases h <;> assumption
  have hmark : (marking r d).file loanId = d.file loanId :=
    (h.file_marking loanId).trans (rewrite_file_ne (r.setStatus .overdue) [] hfound rfl hne)
  cases h with
  | marked => exact hmark
  | @penalized loan loanPeriod oldest new found others period picked set =>
      obtain ⟨hfind, hloan, -⟩ := oldestUnpenalized_some picked
      obtain ⟨hid, hloanNew⟩ : new.id = oldest.id ∧ new.loanId = oldest.loanId := by
        obtain ⟨_, _, -, -, rfl⟩ := penalized_ok set
        exact ⟨rfl, rfl⟩
      rw [file_updateInstallment new hfind hid hloanNew,
        rewrite_file_ne new [] hfind hid fun hsame => hne (hloan.symm.trans hsame), hmark]

theorem charges_of_picked {r oldest : Installment} (hfound : d.find .installments r.id = some r)
    (hothers : d.overdueCount r.loanId ≠ 0)
    (hpicked : (marking r d).oldestUnpenalized r.loanId = some oldest) :
    (d.file r.loanId).Charges r oldest := by
  have hmark : (marking r d).file r.loanId =
      (d.file r.loanId).rewrite (r.setStatus .overdue) [] :=
    file_updateInstallment (r.setStatus .overdue) hfound rfl rfl r.loanId
  obtain ⟨-, ⟨hloan, hoverdue⟩, hzero⟩ := oldestUnpenalized_spec hpicked
  have hmem := mem_file_installments (oldestUnpenalized_some hpicked).1 hloan
  rw [hmark] at hmem
  refine ⟨?_, ⟨_, hmem, hoverdue, hzero⟩, fun x hx hx' => ?_⟩
  · obtain ⟨x, hx, hx'⟩ := List.countP_pos_iff.1 (Nat.pos_of_ne_zero hothers)
    rw [Bool.and_eq_true, decide_eq_true_eq, decide_eq_true_eq] at hx'
    obtain ⟨ps, hps⟩ := exists_mem_file hx hx'.1
    exact ⟨_, hps, hx'.2⟩
  · rw [← hmark] at hx
    obtain ⟨hfind, hmine⟩ := loanId_of_mem_file hx
    exact oldestUnpenalized_le hpicked (Table.find?_some hfind).1 hmine hx'.1 hx'.2

/-- What the job charges on its way through a list keeps to a conduct. -/
def FollowsCharges (c : Uuid → Conduct) (d : Database) (rs : List Installment) : Prop :=
  ∀ r ∈ rs, ∀ j, (d.file r.loanId).Charges r j →
    (c r.loanId).charges ((d.file r.loanId).rewrite (r.setStatus .overdue) []) j

theorem Charged.loanStep {r : Installment} (h : Charged r d d') (hdue : r.status = .due)
    (hcharges : FollowsCharges c d [r]) : LoanStep c d d' := by
  cases h with
  | marked found => exact .marked found hdue
  | penalized found others period picked set =>
      obtain ⟨-, ⟨hloan, hoverdue⟩, hzero⟩ := oldestUnpenalized_spec picked
      exact .penalized found hdue period (oldestUnpenalized_some picked).1 hloan hoverdue hzero
        (hcharges _ (List.mem_singleton_self _) _ (charges_of_picked found others picked)) set

/-- Work on one loan leaves the list for the others as it is. -/
theorem Listed.charge {r : Installment} {rs : List Installment} (h : Listed d (r :: rs))
    (hcharged : Charged r d d') : Listed d' rs := by
  obtain ⟨hother, hloans⟩ := List.pairwise_cons.1 h.loans
  have hrest : Listed d rs := ⟨fun r' hr' => h.due r' (List.mem_cons_of_mem _ hr'), hloans⟩
  cases hcharged with
  | marked found => exact hrest.update (r.setStatus .overdue) found rfl hother
  | penalized found others period picked set =>
      obtain ⟨hfound, hloan, -⟩ := oldestUnpenalized_some picked
      obtain ⟨_, _, -, -, rfl⟩ := penalized_ok set
      exact (hrest.update (r.setStatus .overdue) found rfl hother).update _ hfound rfl
        fun r' hr' => hloan ▸ hother r' hr'

theorem FollowsCharges.charge {r : Installment} {rs : List Installment} (h : Listed d (r :: rs))
    (hcharged : Charged r d d') (hcharges : FollowsCharges c d (r :: rs)) :
    FollowsCharges c d' rs := by
  intro r' hr' j
  rw [hcharged.file_ne ((List.pairwise_cons.1 h.loans).1 r' hr')]
  exact hcharges r' (List.mem_cons_of_mem _ hr') j

theorem processLoans_alone {rs : List Installment} (h : Listed d rs)
    (hcharges : FollowsCharges c d rs) :
    (processLoans rs).wp (Prog.alone (LoanStep c)) (fun _ _ _ => True) d .idle := by
  induction rs generalizing d with
  | nil => trivial
  | cons r rs ih =>
      obtain ⟨hfound, hdue⟩ := h.due r (List.mem_cons_self ..)
      rw [processLoans, Prog.wp_bind']
      refine processLoan_alone hfound fun d' hcharged =>
        ⟨hcharged.loanStep hdue fun r' hr' => ?_, ih (h.charge hcharged) (hcharges.charge h hcharged)⟩
      obtain rfl := List.mem_singleton.1 hr'
      exact hcharges r' (List.mem_cons_self ..)

/-! ### The work list -/

/-- An installment that the job looks for. -/
def Installment.pastDue (cutoff : Date) (r : Installment) : Bool :=
  r.status = .due && r.dueDate.le cutoff

/-- What the job works on: of the installments past due, the first of each loan. -/
def Database.overdueWork (d : Database) (cutoff : Date) : List Installment :=
  firstByLoan (((d.rows .installments).filter (·.pastDue cutoff)).insertionSort fun a b => a.le b)

theorem mem_overdueWork {cutoff : Date} {r : Installment} (h : r ∈ d.overdueWork cutoff) :
    r ∈ d.rows .installments ∧ r.status = .due ∧ r.dueDate.le cutoff = true := by
  have hmem := mem_firstByLoan h
  rw [List.mem_insertionSort, List.mem_filter] at hmem
  obtain ⟨hmem, hp⟩ := hmem
  rw [Installment.pastDue, Bool.and_eq_true, decide_eq_true_eq] at hp
  exact ⟨hmem, hp⟩

theorem listed_overdueWork (d : Database) (cutoff : Date) : Listed d (d.overdueWork cutoff) where
  due _ hr := ⟨Table.find?_of_mem (mem_overdueWork hr).1, (mem_overdueWork hr).2.1⟩
  loans := firstByLoan_pairwise _

theorem processOverdueInstallments_alone {now : Date} {guar : Database → Database → Prop}
    {Q : Unit → Database → Trx → Prop}
    (h : (processLoans (d.overdueWork (now.setDate 20))).wp (Prog.alone guar) Q d .idle) :
    (processOverdueInstallments now).wp (Prog.alone guar) Q d .idle := by
  rw [processOverdueInstallments, findOverdueInstallments, Prog.wp_bind']
  refine wp_selectOnPool fun d' henv => ?_
  obtain rfl : d = d' := henv
  exact h

end LumbungMesari
