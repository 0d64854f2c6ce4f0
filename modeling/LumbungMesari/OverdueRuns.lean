import LumbungMesari.LoanRuns

/-!
# The overdue run

The job marks one installment of each loan, the first that is past due. Whether a run leaves nothing
behind, and whether a second run with the same cutoff does nothing, depends on the backlog: it is so
just when no loan has two installments past due.
-/

namespace LumbungMesari

open Sql

variable {d d' : Database} {cutoff : Date}

/-! ### What is past due -/

def Database.pastDue (d : Database) (cutoff : Date) : List Installment :=
  (d.rows .installments).filter (·.pastDue cutoff)

theorem mem_pastDue {r : Installment} :
    r ∈ d.pastDue cutoff ↔ r ∈ d.rows .installments ∧ r.pastDue cutoff = true :=
  List.mem_filter

theorem Installment.pastDue_iff {r : Installment} :
    r.pastDue cutoff = true ↔ r.status = .due ∧ r.dueDate.le cutoff = true := by
  rw [pastDue, Bool.and_eq_true, decide_eq_true_eq]

theorem pastDue_update (d : Database) {new : Installment} (hnew : new.status ≠ .due) :
    (d.apply (.update .installments new)).pastDue cutoff =
      (d.pastDue cutoff).filter fun i => i.id ≠ new.id := by
  have hfalse : new.pastDue cutoff = false := by
    rw [← Bool.not_eq_true, Installment.pastDue_iff]
    exact fun h => hnew h.1
  have hmap : ∀ rows : List Installment,
      (rows.map fun s => if s.id = new.id then new else s).filter (·.pastDue cutoff) =
        (rows.filter (·.pastDue cutoff)).filter fun i => i.id ≠ new.id := by
    intro rows
    induction rows with
    | nil => rfl
    | cons s rows ih =>
        by_cases hs : s.id = new.id
        · simp [hs, hfalse, List.filter_cons, ih]
          split <;> simp [hs]
        · simp only [List.map_cons, if_neg hs, List.filter_cons, ih]
          split <;> simp [hs]
  rw [Database.pastDue, Database.rows, Database.table_update_self]
  exact hmap _

/-- Work on a loan takes its first installment off the backlog, and no other. -/
theorem Charged.pastDue {r : Installment} (h : Charged r d d') :
    d'.pastDue cutoff = (d.pastDue cutoff).filter fun i => i.id ≠ r.id := by
  have hnotDue : (r.setStatus .overdue).status ≠ .due := by simp [Installment.setStatus]
  have hmarked : (marking r d).pastDue cutoff = (d.pastDue cutoff).filter fun i => i.id ≠ r.id :=
    pastDue_update d hnotDue
  cases h with
  | marked => exact hmarked
  | @penalized loan loanPeriod oldest new found others period picked set =>
      obtain ⟨hfound, -, hoverdue⟩ := oldestUnpenalized_some picked
      obtain ⟨_, _, -, -, rfl⟩ := penalized_ok set
      rw [pastDue_update _ (by simp [hoverdue]), hmarked]
      -- the penalized row was overdue before, so it was not in the backlog
      refine List.filter_eq_self.2 fun i hi => ?_
      rw [← hmarked, mem_pastDue, Installment.pastDue_iff] at hi
      rw [decide_eq_true_eq]
      rintro (hsame : i.id = oldest.id)
      have hmem : oldest ∈ (marking r d).rows .installments := (Table.find?_some hfound).1
      rw [Table.eq_of_key hi.1 hmem hsame, hoverdue] at hi
      cases hi.2.1

theorem processLoans_pastDue {rs : List Installment} (h : Listed d rs) :
    (processLoans rs).wp (Prog.alone fun _ _ => True) (fun _ d' _ =>
      d'.pastDue cutoff = (d.pastDue cutoff).filter fun i => ∀ r ∈ rs, i.id ≠ r.id) d .idle := by
  induction rs generalizing d with
  | nil => exact (List.filter_eq_self.2 fun _ _ => by simp).symm
  | cons r rs ih =>
      rw [processLoans, Prog.wp_bind']
      refine processLoan_alone (h.due r (List.mem_cons_self ..)).1 fun d' hcharged =>
        ⟨trivial, Prog.wp_mono (fun _ d'' _ hrest => ?_) (ih (h.charge hcharged))⟩
      rw [hrest, hcharged.pastDue, List.filter_filter]
      refine List.filter_congr fun i _ => ?_
      rw [Bool.eq_iff_iff]
      simp only [Bool.and_eq_true, decide_eq_true_eq, List.forall_mem_cons]
      exact And.comm

theorem processOverdueInstallments_pastDue {now : Date}
    (hok : (processOverdueInstallments now).result d = .ok ()) :
    ((processOverdueInstallments now).after d).pastDue (now.setDate 20) =
      (d.pastDue (now.setDate 20)).filter fun i =>
        ∀ r ∈ d.overdueWork (now.setDate 20), i.id ≠ r.id :=
  Prog.after_of_wp (processOverdueInstallments_alone (processLoans_pastDue (listed_overdueWork _ _)))
    hok

/-! ### Complete runs -/

/-- No loan has two installments past due. -/
def Database.OnePastDue (d : Database) (cutoff : Date) : Prop :=
  ∀ i ∈ d.rows .installments, ∀ j ∈ d.rows .installments, i.pastDue cutoff → j.pastDue cutoff →
    i.loanId = j.loanId → i = j

theorem exists_mem_firstByLoan {rs : List Installment} {i : Installment} (h : i ∈ rs) :
    ∃ r ∈ firstByLoan rs, r.loanId = i.loanId := by
  induction rs with
  | nil => cases h
  | cons r rs ih =>
      by_cases hloan : r.loanId = i.loanId
      · exact ⟨r, List.mem_cons_self .., hloan⟩
      · have hmem : i ∈ rs := (List.mem_cons.1 h).resolve_left fun he => hloan (he ▸ rfl)
        obtain ⟨r', hr', hloan'⟩ := ih hmem
        refine ⟨r', List.mem_cons_of_mem _ (List.mem_filter.2 ⟨hr', ?_⟩), hloan'⟩
        rw [decide_eq_true_eq, hloan']
        exact Ne.symm hloan

theorem exists_mem_overdueWork {i : Installment} (h : i ∈ d.pastDue cutoff) :
    ∃ r ∈ d.overdueWork cutoff, r.loanId = i.loanId :=
  exists_mem_firstByLoan ((List.mem_insertionSort _).2 h)

/-- The work list is all of the backlog just when no loan is in it twice. -/
theorem overdueWork_all_iff :
    (∀ i ∈ d.pastDue cutoff, ∃ r ∈ d.overdueWork cutoff, i.id = r.id) ↔ d.OnePastDue cutoff := by
  have hwork : ∀ r ∈ d.overdueWork cutoff, r ∈ d.rows .installments ∧ r.pastDue cutoff = true :=
    fun r hr => ⟨(mem_overdueWork hr).1, Installment.pastDue_iff.2 (mem_overdueWork hr).2⟩
  constructor
  · intro hall i hi j hj hdue hdue' hloan
    have hlisted : ∀ x ∈ d.rows .installments, x.pastDue cutoff = true → x ∈ d.overdueWork cutoff := by
      intro x hx hdue
      obtain ⟨r, hr, hid⟩ := hall x (mem_pastDue.2 ⟨hx, hdue⟩)
      rwa [Table.eq_of_key hx (hwork r hr).1 hid]
    exact (listed_overdueWork d cutoff).eq_of_loan (hlisted i hi hdue) (hlisted j hj hdue') hloan
  · intro hone i hi
    obtain ⟨r, hr, hloan⟩ := exists_mem_overdueWork hi
    rw [mem_pastDue] at hi
    obtain rfl : r = i := hone r (hwork r hr).1 i hi.1 (hwork r hr).2 hi.2 hloan
    exact ⟨r, hr, rfl⟩

theorem processOverdueInstallments_nothing {now : Date} (h : d.pastDue (now.setDate 20) = []) :
    (processOverdueInstallments now).after d = d := by
  have hwork : d.overdueWork (now.setDate 20) = [] := by
    rw [Database.overdueWork, ← Database.pastDue, h]
    rfl
  have halone : (processOverdueInstallments now).wp (Prog.alone fun d d' => d' = d)
      (fun _ _ _ => True) d .idle := by
    refine processOverdueInstallments_alone ?_
    rw [hwork]
    trivial
  exact Prog.after_keeps (I := (· = d)) (fun hd h => h.trans hd) halone rfl

/-- **The overdue run is complete and idempotent** just when no loan has two installments past due.
A run that returns then leaves no installment due on or before its cutoff, and a second run changes
nothing. -/
theorem overdue_run_complete_iff {now : Date}
    (hok : (processOverdueInstallments now).result d = .ok ()) :
    ((∀ i ∈ ((processOverdueInstallments now).after d).rows .installments,
        i.dueDate.le (now.setDate 20) → i.status ≠ .due) ∧
      (processOverdueInstallments now).after ((processOverdueInstallments now).after d) =
        (processOverdueInstallments now).after d) ↔ d.OnePastDue (now.setDate 20) := by
  have hleft := processOverdueInstallments_pastDue hok
  have hcomplete : ((processOverdueInstallments now).after d).pastDue (now.setDate 20) = [] ↔
      d.OnePastDue (now.setDate 20) := by
    rw [hleft, ← overdueWork_all_iff, List.filter_eq_nil_iff]
    simp
  have hnone : (∀ i ∈ ((processOverdueInstallments now).after d).rows .installments,
      i.dueDate.le (now.setDate 20) → i.status ≠ .due) ↔
      ((processOverdueInstallments now).after d).pastDue (now.setDate 20) = [] := by
    rw [Database.pastDue, List.filter_eq_nil_iff]
    refine forall₂_congr fun i _ => ?_
    rw [Installment.pastDue_iff, not_and']
  rw [hnone, hcomplete]
  exact and_iff_left_of_imp fun hone => processOverdueInstallments_nothing (hcomplete.2 hone)

/-- A month after the disbursement one installment is past due, and a retry changes nothing. -/
theorem overdue_run_complete_firstMonth :
    let job := processOverdueInstallments ⟨2026, 2, 20⟩
    (∀ i ∈ (job.after withLoan).rows .installments, i.dueDate.le ⟨2026, 2, 20⟩ → i.status ≠ .due) ∧
      job.after (job.after withLoan) = job.after withLoan := by
  have hok : (processOverdueInstallments ⟨2026, 2, 20⟩).result withLoan = .ok () := by
    decide +kernel
  refine (overdue_run_complete_iff hok).2 ?_
  have hone : ∀ i ∈ withLoan.rows .installments, ∀ j ∈ withLoan.rows .installments,
      i.pastDue ⟨2026, 2, 20⟩ → j.pastDue ⟨2026, 2, 20⟩ → i.loanId = j.loanId → i = j := by
    decide +kernel
  exact hone

/-- After a missed month two installments are past due. A run marks the first, and a retry marks the
second and adds a penalty. -/
theorem backlog_of_two_left_behind :
    let job := processOverdueInstallments ⟨2026, 3, 20⟩
    job.result withLoan = .ok () ∧
      (∃ i ∈ (job.after withLoan).rows .installments,
        i.dueDate.le ⟨2026, 3, 20⟩ = true ∧ i.status = .due) ∧
      job.after (job.after withLoan) ≠ job.after withLoan ∧
      ∃ i ∈ (job.after (job.after withLoan)).rows .installments, 0 < i.penaltyAmount.units := by
  intro job
  have hrun : job.result withLoan = .ok () ∧
      (∃ i ∈ (job.after withLoan).rows .installments,
        i.dueDate.le ⟨2026, 3, 20⟩ = true ∧ i.status = .due) ∧
      (∀ i ∈ (job.after withLoan).rows .installments, i.penaltyAmount.units = 0) ∧
      ∃ i ∈ (job.after (job.after withLoan)).rows .installments, 0 < i.penaltyAmount.units := by
    decide +kernel
  obtain ⟨hok, hdue, hnone, i, hi, hpenalty⟩ := hrun
  refine ⟨hok, hdue, fun hsame => ?_, i, hi, hpenalty⟩
  rw [hsame] at hi
  exact hpenalty.ne' (hnone i hi)

end LumbungMesari
