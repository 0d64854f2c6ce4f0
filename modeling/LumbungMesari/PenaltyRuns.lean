import LumbungMesari.OverdueRuns
import LumbungMesari.Penalties

/-!
# Penalties over runs

From its disbursement on, complete runs of the overdue job and settlements take the file of a loan
through charges and payments, so the penalties of a loan stay in the states they are meant to be in.
-/

namespace LumbungMesari

open Sql

variable {d d' : Database} {cutoff : Date}

/-! ### The order of the work list -/

theorem Installment.le_iff {a b : Installment} : a.le b = true ↔
    a.loanId < b.loanId ∨ a.loanId = b.loanId ∧ a.installmentNumber ≤ b.installmentNumber := by
  simp only [le, Bool.or_eq_true, Bool.and_eq_true, decide_eq_true_eq]

theorem Installment.le_total (a b : Installment) : a.le b = true ∨ b.le a = true := by
  rw [le_iff, le_iff]
  grind

theorem Installment.le_trans {a b c : Installment} (h : a.le b = true) (h' : b.le c = true) :
    a.le c = true := by
  rw [le_iff] at h h' ⊢
  grind

theorem firstByLoan_first {rs : List Installment} (hrs : rs.Pairwise fun a b => a.le b = true)
    {r x : Installment} (hr : r ∈ firstByLoan rs) (hx : x ∈ rs) (hloan : x.loanId = r.loanId) :
    r = x ∨ r.le x = true := by
  induction rs with
  | nil => cases hx
  | cons r' rs ih =>
      obtain ⟨hle, hrs⟩ := List.pairwise_cons.1 hrs
      rcases List.mem_cons.1 hr with rfl | hr
      · rcases List.mem_cons.1 hx with rfl | hx
        · exact .inl rfl
        · exact .inr (hle x hx)
      · obtain ⟨hr, hne⟩ := List.mem_filter.1 hr
        rcases List.mem_cons.1 hx with rfl | hx
        · exact absurd hloan.symm (of_decide_eq_true hne)
        · exact ih hrs hr hx

/-- The installments on a list come first in their loans. -/
def Fronts (cutoff : Date) (d : Database) (rs : List Installment) : Prop :=
  ∀ r ∈ rs, r.pastDue cutoff = true ∧ ∀ x ∈ d.rows .installments, x.loanId = r.loanId →
    x.pastDue cutoff = true → r.installmentNumber ≤ x.installmentNumber

theorem fronts_overdueWork (d : Database) (cutoff : Date) :
    Fronts cutoff d (d.overdueWork cutoff) := by
  intro r hr
  refine ⟨Installment.pastDue_iff.2 (mem_overdueWork hr).2, fun x hx hloan hdue => ?_⟩
  have : Std.Total fun a b : Installment => a.le b = true := ⟨Installment.le_total⟩
  have : IsTrans Installment fun a b => a.le b = true := ⟨fun _ _ _ => Installment.le_trans⟩
  have hsorted := List.pairwise_insertionSort (fun a b : Installment => a.le b = true)
    ((d.rows .installments).filter (·.pastDue cutoff))
  have hlisted : x ∈ (d.rows .installments).filter (·.pastDue cutoff) :=
    List.mem_filter.2 ⟨hx, hdue⟩
  rcases firstByLoan_first hsorted hr ((List.mem_insertionSort _).2 hlisted) hloan with rfl | hle
  · exact le_refl _
  · rcases Installment.le_iff.1 hle with hlt | ⟨-, hnumber⟩
    · exact absurd (hloan ▸ hlt) (lt_irrefl _)
    · exact hnumber

theorem Charged.fronts {r : Installment} {rs : List Installment} (h : Charged r d d')
    (hother : ∀ r' ∈ rs, r.loanId ≠ r'.loanId) (hrs : Fronts cutoff d rs) : Fronts cutoff d' rs := by
  have hold : ∀ x ∈ d'.rows .installments, x.loanId ≠ r.loanId → x ∈ d.rows .installments := by
    have hmarked : ∀ x ∈ (marking r d).rows .installments, x.loanId ≠ r.loanId →
        x ∈ d.rows .installments := by
      intro x hx hne
      rw [Database.rows, marking, Database.table_update_self] at hx
      rcases Table.mem_rows_replace hx with rfl | ⟨hx, -⟩
      · exact absurd rfl hne
      · exact hx
    intro x hx hne
    cases h with
    | marked => exact hmarked x hx hne
    | penalized found others period picked set =>
        obtain ⟨-, hloan, -⟩ := oldestUnpenalized_some picked
        obtain ⟨_, _, -, -, rfl⟩ := penalized_ok set
        rw [Database.rows, Database.table_update_self] at hx
        rcases Table.mem_rows_replace hx with rfl | ⟨hx, -⟩
        · exact absurd hloan hne
        · exact hmarked x hx hne
  intro r' hr'
  refine ⟨(hrs r' hr').1, fun x hx hloan hdue => ?_⟩
  exact (hrs r' hr').2 x (hold x hx fun h => hother r' hr' (h.symm.trans hloan)) hloan hdue

/-! ### Commits on the file of a loan -/

section Charge

variable {r : Installment}

theorem Charged.charge (h : Charged r d d') (hdue : r.pastDue cutoff = true)
    (hfirst : ∀ x ∈ d.rows .installments, x.loanId = r.loanId → x.pastDue cutoff = true →
      r.installmentNumber ≤ x.installmentNumber) :
    (d.file r.loanId).Charge (d'.file r.loanId) := by
  rw [Installment.pastDue_iff] at hdue
  have hfirst' : ∀ x ∈ (d.file r.loanId).installments, x.1.status = .due →
      x.1.dueDate.le r.dueDate → r.installmentNumber ≤ x.1.installmentNumber := by
    intro x hx hxdue hle
    obtain ⟨hfind, hloan⟩ := loanId_of_mem_file hx
    have hmem : x.1 ∈ d.rows .installments := (Table.find?_some hfind).1
    exact hfirst x.1 hmem hloan (Installment.pastDue_iff.2 ⟨hxdue, Date.le_trans hle hdue.2⟩)
  have hmark := h.file_marking r.loanId
  cases h with
  | marked found reason =>
      rw [hmark]
      refine .mark (mem_file_installments found rfl) hdue.1 hfirst' ?_
      rcases reason with hnone | hnone
      · refine .inl fun x hx hoverdue => ?_
        obtain ⟨hfind, hloan⟩ := loanId_of_mem_file hx
        have hmem : x.1 ∈ d.rows .installments := (Table.find?_some hfind).1
        rw [Database.overdueCount, List.countP_eq_zero] at hnone
        exact hnone x.1 hmem (by simp [hloan, hoverdue])
      · have hmem : r.setStatus .overdue ∈ (marking r d).rows .installments := by
          have hfind : (marking r d).find .installments r.id = some (r.setStatus .overdue) := by
            rw [marking, find_updateInstallment (r.setStatus .overdue) found rfl, if_pos rfl]
          exact (Table.find?_some hfind).1
        have hne : (r.setStatus .overdue).penaltyAmount.units ≠ 0 :=
          oldestUnpenalized_none hnone hmem rfl rfl
        exact .inr hne
  | @penalized loan loanPeriod oldest new found others period picked set =>
      obtain ⟨hfind, hloan, -⟩ := oldestUnpenalized_some picked
      obtain ⟨hid, hloanNew⟩ : new.id = oldest.id ∧ new.loanId = oldest.loanId := by
        obtain ⟨_, _, -, -, rfl⟩ := penalized_ok set
        exact ⟨rfl, rfl⟩
      rw [file_updateInstallment new hfind hid hloanNew, hmark]
      exact .penalize (mem_file_installments found rfl) hdue.1 hfirst' period
        (charges_of_picked found others picked) set

end Charge

/-! ### Calls -/

/-- A commit of the job: work on an installment that is past due, and the first such of its loan. -/
def Charging (cutoff : Date) (d d' : Database) : Prop :=
  ∃ r, Charged r d d' ∧ r.pastDue cutoff = true ∧ ∀ x ∈ d.rows .installments,
    x.loanId = r.loanId → x.pastDue cutoff = true → r.installmentNumber ≤ x.installmentNumber

theorem processLoans_charging {rs : List Installment} (h : Listed d rs) (hrs : Fronts cutoff d rs) :
    (processLoans rs).wp (Prog.alone (Charging cutoff)) (fun _ _ _ => True) d .idle := by
  induction rs generalizing d with
  | nil => trivial
  | cons r rs ih =>
      rw [processLoans, Prog.wp_bind']
      refine processLoan_alone (h.due r (List.mem_cons_self ..)).1 fun d' hcharged =>
        ⟨⟨r, hcharged, hrs r (List.mem_cons_self ..)⟩, ih (h.charge hcharged) ?_⟩
      exact hcharged.fronts (List.pairwise_cons.1 h.loans).1
        fun r' hr' => hrs r' (List.mem_cons_of_mem _ hr')

/-- The commit of a settlement. -/
def Settling (d d' : Database) : Prop :=
  ∃ ids : SettleIds, ∃ adminId : Uuid, ∃ now : Date, ∃ i : Installment,
    ∃ ps : List (Income × CashbookTransaction), d.find .installments i.id = some i ∧
      RecordedAll (d.apply (.update .installments (i.settle adminId now)))
        (installmentIncomes ids i) ps ∧
      d' = applyAll (d.apply (.update .installments (i.settle adminId now))) (recordings ps)

theorem settleInstallment_settling {ids : SettleIds} {installmentId adminId : Uuid} {now : Date} :
    (settleInstallment ids installmentId adminId now).wp (Prog.alone Settling)
      (fun _ _ _ => True) d .idle :=
  settleInstallment_wp fun d' i ps _ henv hfound _ hrecorded => by
    obtain rfl : d = d' := henv
    exact ⟨⟨ids, adminId, now, i, ps, Database.find_self hfound, hrecorded, rfl⟩, trivial⟩

/-- The calls that collect what is owed. -/
def LoanCall.Collects : LoanCall → Prop
  | settleInstallment .. | processOverdueInstallments _ => True
  | _ => False

section Runs

open LoanFile

variable {loanId : Uuid} {loan : Loan} {loanPeriod : LoanPeriod} {generated : LoanFile}
  {marked charged : Finset Uuid}

theorem processOverdueInstallments_tracked {now : Date} (hgenerated : generated.InOrder)
    (hpenalty : 1 / 10 ^ 4 ≤ loan.principalAmount.toRat * loanPeriod.interestRate.toRat)
    (hd : Linked d) (h : Tracked loan loanPeriod generated
      (marked ∪ (d.file loanId).idsWhere isOverdue) (charged ∪ (d.file loanId).idsWhere isCharged)
      (d.file loanId)) :
    Linked ((processOverdueInstallments now).after d) ∧ Tracked loan loanPeriod generated
      (marked ∪ (((processOverdueInstallments now).after d).file loanId).idsWhere isOverdue)
      (charged ∪ (((processOverdueInstallments now).after d).file loanId).idsWhere isCharged)
      (((processOverdueInstallments now).after d).file loanId) := by
  have halone : (processOverdueInstallments now).wp (Prog.alone (Charging (now.setDate 20)))
      (fun _ _ _ => True) d .idle := processOverdueInstallments_alone
    (processLoans_charging (listed_overdueWork _ _) (fronts_overdueWork _ _))
  refine Prog.after_keeps (I := fun d => Linked d ∧
    Tracked loan loanPeriod generated (marked ∪ (d.file loanId).idsWhere isOverdue)
      (charged ∪ (d.file loanId).idsWhere isCharged) (d.file loanId)) (fun hd hcharging => ?_)
    halone ⟨hd, h⟩
  obtain ⟨r, hcharged, hdue, hfirst⟩ := hcharging
  have hstep : LoanStep (fun _ => leavingOpen) _ _ :=
    hcharged.loanStep (Installment.pastDue_iff.1 hdue).1 fun _ _ _ _ => trivial
  refine ⟨(hstep.simulates hd.1).1, ?_⟩
  by_cases hloan : r.loanId = loanId
  · subst hloan
    exact (hcharged.charge hdue hfirst).tracked hgenerated hpenalty hd.2
  · rw [hcharged.file_ne hloan]
    exact hd.2

theorem settleInstallment_tracked (ids : SettleIds) (installmentId adminId : Uuid) (now : Date)
    (hd : Linked d) (h : Tracked loan loanPeriod generated marked charged (d.file loanId))
    (hmarked : (d.file loanId).idsWhere isOverdue ⊆ marked)
    (hcharged : (d.file loanId).idsWhere isCharged ⊆ charged) :
    let d' := (settleInstallment ids installmentId adminId now).after d
    Linked d' ∧ Tracked loan loanPeriod generated marked charged (d'.file loanId) ∧
      (d'.file loanId).idsWhere isOverdue ⊆ marked ∧
      (d'.file loanId).idsWhere isCharged ⊆ charged := by
  have halone : (settleInstallment ids installmentId adminId now).wp (Prog.alone Settling)
      (fun _ _ _ => True) d .idle := settleInstallment_settling
  refine Prog.after_keeps (I := fun d => Linked d ∧
    Tracked loan loanPeriod generated marked charged (d.file loanId) ∧
      (d.file loanId).idsWhere isOverdue ⊆ marked ∧ (d.file loanId).idsWhere isCharged ⊆ charged)
    (fun hd hsettling => ?_) halone ⟨hd, h, hmarked, hcharged⟩
  obtain ⟨hd, h, hmarked, hcharged⟩ := hd
  obtain ⟨ids, adminId, now, i, ps, hfound, hrecorded, rfl⟩ := hsettling
  obtain ⟨hlinked, hfile⟩ := settled_file hd hfound hrecorded
  refine ⟨hlinked, ?_⟩
  rw [hfile]
  by_cases hloan : i.loanId = loanId
  · have hmem := mem_file_installments hfound hloan
    obtain ⟨hoverdue, hpenalized⟩ := idsWhere_settle h.distinct hmem adminId now (installmentPostings i)
    exact ⟨h.settle hmem adminId now _, hoverdue.trans hmarked, hpenalized.trans hcharged⟩
  · rw [rewrite_file_ne (i.settle adminId now) _ hfound rfl hloan]
    exact ⟨h, hmarked, hcharged⟩

theorem LoanCall.after_tracked {x : LoanCall} (hx : x.Collects) (hgenerated : generated.InOrder)
    (hpenalty : 1 / 10 ^ 4 ≤ loan.principalAmount.toRat * loanPeriod.interestRate.toRat)
    (hd : Linked d) (h : Tracked loan loanPeriod generated marked charged (d.file loanId))
    (hmarked : (d.file loanId).idsWhere isOverdue ⊆ marked)
    (hcharged : (d.file loanId).idsWhere isCharged ⊆ charged) :
    Linked (x.program.after d) ∧ Tracked loan loanPeriod generated
      (marked ∪ ((x.program.after d).file loanId).idsWhere isOverdue)
      (charged ∪ ((x.program.after d).file loanId).idsWhere isCharged)
      ((x.program.after d).file loanId) := by
  cases x with
  | createLoan | approveLoan | rejectLoan | disburseLoan => exact hx.elim
  | settleInstallment ids installmentId adminId now =>
      obtain ⟨hlinked, h, hmarked, hcharged⟩ :=
        settleInstallment_tracked ids installmentId adminId now hd h hmarked hcharged
      rw [program, Finset.union_eq_left.2 hmarked, Finset.union_eq_left.2 hcharged]
      exact ⟨hlinked, h⟩
  | processOverdueInstallments now =>
      refine processOverdueInstallments_tracked hgenerated hpenalty hd ?_
      rwa [Finset.union_eq_left.2 hmarked, Finset.union_eq_left.2 hcharged]

/-- The installments of a loan that met a condition in some state of a run. -/
def everIds (loanId : Uuid) (p : Installment → Bool) : Database → List LoanCall → Finset Uuid
  | d, [] => (d.file loanId).idsWhere p
  | d, x :: xs => (d.file loanId).idsWhere p ∪ everIds loanId p (x.program.after d) xs

theorem runCalls_tracked {xs : List LoanCall} (hxs : ∀ x ∈ xs, x.Collects)
    (hgenerated : generated.InOrder)
    (hpenalty : 1 / 10 ^ 4 ≤ loan.principalAmount.toRat * loanPeriod.interestRate.toRat)
    (hd : Linked d) (h : Tracked loan loanPeriod generated
      (marked ∪ (d.file loanId).idsWhere isOverdue) (charged ∪ (d.file loanId).idsWhere isCharged)
      (d.file loanId)) :
    Tracked loan loanPeriod generated (marked ∪ everIds loanId isOverdue d xs)
      (charged ∪ everIds loanId isCharged d xs) ((runCalls LoanCall.program d xs).file loanId) := by
  induction xs generalizing d marked charged with
  | nil => exact h
  | cons x xs ih =>
      obtain ⟨hx, hxs⟩ := List.forall_mem_cons.1 hxs
      obtain ⟨hlinked, hnext⟩ := LoanCall.after_tracked hx hgenerated hpenalty hd h
        Finset.subset_union_right Finset.subset_union_right
      have hrun := ih hxs hlinked hnext
      rwa [Finset.union_assoc, Finset.union_assoc] at hrun

end Runs

/-! ### From the disbursement on -/

/-- One loan is requested for a positive amount. Anything else may be asked. -/
def requestingPositive (loanId id : Uuid) : Conduct where
  asks amount := id = loanId → 0 < amount
  settles _ _ := True
  disburses _ _ := True
  charges _ _ := True

theorem disburseLoan_file {ids : DisburseIds} {loanId adminId : Uuid} {now : Date} (hd : Linked d)
    (horderly : (d.file loanId).Orderly)
    (hok : (disburseLoan ids loanId adminId now).result d = .ok ()) :
    let d' := (disburseLoan ids loanId adminId now).after d
    Linked d' ∧ ∃ loan loanPeriod rs, d.loanWithPeriod loanId = some (loan, loanPeriod) ∧
      generateInstallments loan loanPeriod.tenor adminId now ids.installment = .ok rs ∧
      (rs.map Installment.id).Nodup ∧ (d'.file loanId).loan = some (loan.disburse now, loanPeriod) ∧
      (d'.file loanId).installments = rs.map (·, []) := by
  have hwp : (disburseLoan ids loanId adminId now).wp (Prog.alone fun _ _ => True) (fun _ d' _ =>
      Linked d' ∧ ∃ loan loanPeriod rs, d.loanWithPeriod loanId = some (loan, loanPeriod) ∧
        generateInstallments loan loanPeriod.tenor adminId now ids.installment = .ok rs ∧
        (rs.map Installment.id).Nodup ∧ (d'.file loanId).loan = some (loan.disburse now, loanPeriod) ∧
        (d'.file loanId).installments = rs.map (·, [])) d .idle := by
    refine disburseLoan_wp fun d₁ d₂ d' loan loanPeriod current rows l l₂ henv₁ hloan happroved
      henv₂ hcurrent _ henv₃ _ _ hdisbursed => ⟨trivial, ?_⟩
    obtain rfl : d = d₁ := henv₁
    obtain rfl : d = d₂ := henv₂
    obtain rfl : d = d' := henv₃
    have hfound := (loanWithPeriod_some hloan).1
    obtain rfl : loan = current := Option.some.inj (hfound.symm.trans hcurrent)
    obtain rfl : loan.id = loanId := Database.find_id hfound
    obtain ⟨hlinked, hfile⟩ := disbursed_file hd hdisbursed hloan
    have hempty : (d.file loan.id).installments = [] :=
      (horderly.waiting loan loanPeriod hloan (by simp [happroved])).2.installments
    refine ⟨hlinked, loan, loanPeriod, rows.installments, hloan, hdisbursed.schedule,
      hdisbursed.nodup, ?_, ?_⟩
    · rw [hfile, if_pos rfl]
    · rw [hfile, if_pos rfl, hempty, List.nil_append]
  exact Prog.after_of_wp hwp hok

theorem tracked_disbursed {c : Uuid → Conduct} {d₀ d : Database} (h₀ : d₀.ForeignKeys)
    {loanId : Uuid} (hnone : d₀.find .loans loanId = none) (hlife : LoanLife c loanId d₀ d)
    {ids : DisburseIds} {adminId : Uuid} {now : Date}
    (hok : (disburseLoan ids loanId adminId now).result d = .ok ()) {loan : Loan}
    {loanPeriod : LoanPeriod}
    (hloan : ((disburseLoan ids loanId adminId now).after d).loanWithPeriod loanId =
      some (loan, loanPeriod)) :
    let d₁ := (disburseLoan ids loanId adminId now).after d
    (Linked d₁ ∧ (d₁.file loanId).InOrder) ∧
      LoanFile.Billed loan loanPeriod (d₁.file loanId) (d₁.file loanId) ∧
      LoanFile.Tracked loan loanPeriod (d₁.file loanId)
        (∅ ∪ (d₁.file loanId).idsWhere LoanFile.isOverdue)
        (∅ ∪ (d₁.file loanId).idsWhere LoanFile.isCharged) (d₁.file loanId) := by
  obtain ⟨hlinked, hsteps⟩ := hlife.simulates h₀.linked
  rw [h₀.file_eq_empty hnone] at hsteps
  obtain ⟨hlinked₁, loan₀, loanPeriod₀, rs, hloan₀, hschedule, hnodup, hfile, hinstallments⟩ :=
    disburseLoan_file hlinked (hsteps.kept LoanFile.empty_kept).orderly hok
  obtain ⟨rfl, rfl⟩ := Prod.mk.inj (Option.some.inj (hfile.symm.trans hloan))
  have hnew : ∀ r ∈ rs, r.status = .due ∧ r.penaltyAmount.units = 0 := by
    intro r hr
    obtain ⟨i, hi⟩ := LoanFile.exists_of_forall₂ (generateInstallments_ok hschedule) hr
    exact ⟨hi.status, hi.penalty⟩
  exact ⟨⟨hlinked₁, LoanFile.inOrder_generated hschedule hinstallments⟩,
    LoanFile.billed_generated hfile rfl hinstallments hnodup hnew,
    LoanFile.tracked_generated hfile hinstallments hnodup hnew⟩

/-- The penalties of one loan come out as the exact ones rounded. Anything may be asked. -/
def chargingRounded (loanId id : Uuid) : Conduct where
  asks _ := True
  settles _ _ := True
  disburses _ _ := True
  charges f i := id = loanId → f.ChargesRounded i

/-- **Penalties stay in order** from the disbursement of a loan on, over any sequence of complete
overdue runs and settlements in which they come out as the exact ones rounded; and whether they do or
not, of the installments that were ever overdue, one at least was never charged. -/
theorem penalty_states {c : Uuid → Conduct} {d₀ d : Database} (h₀ : d₀.ForeignKeys) {loanId : Uuid}
    (hnone : d₀.find .loans loanId = none) (hlife : LoanLife c loanId d₀ d)
    {ids : DisburseIds} {adminId : Uuid} {now : Date}
    (hok : (disburseLoan ids loanId adminId now).result d = .ok ()) {loan : Loan}
    {loanPeriod : LoanPeriod}
    (hloan : ((disburseLoan ids loanId adminId now).after d).loanWithPeriod loanId =
      some (loan, loanPeriod))
    (hpenalty : 1 / 10 ^ 4 ≤ loan.principalAmount.toRat * loanPeriod.interestRate.toRat)
    {xs : List LoanCall} (hxs : ∀ x ∈ xs, x.Collects) :
    let d₁ := (disburseLoan ids loanId adminId now).after d
    (FollowsAll (chargingRounded loanId) d₁ xs →
      LoanFile.PenaltyStates (penaltyUnits loan loanPeriod) (d₁.file loanId)
        ((runCalls LoanCall.program d₁ xs).file loanId)) ∧
      (everIds loanId LoanFile.isCharged d₁ xs).card ≤
        (everIds loanId LoanFile.isOverdue d₁ xs).card - 1 := by
  intro d₁
  obtain ⟨⟨hlinked, hinOrder⟩, hbilled, htracked⟩ := tracked_disbursed h₀ hnone hlife hok hloan
  have hrun := runCalls_tracked hxs hinOrder hpenalty hlinked htracked
  refine ⟨fun hfollows => hrun.states ?_, ?_⟩
  · have hlife₁ : LoanLife _ loanId d₁ _ := LoanLife.start.calls hfollows
    obtain ⟨-, hsteps⟩ := hlife₁.simulates hlinked
    have hrounded : ∀ f i, (chargingRounded loanId loanId).charges f i → f.ChargesRounded i :=
      fun _ _ hcharges => hcharges rfl
    exact hsteps.keeps (fun hstep hf => hstep.billed hrounded hf) hbilled
  · have hfewer := hrun.fewer
    rwa [Finset.empty_union, Finset.empty_union] at hfewer

/-- Two months late, then the first installment is paid with its penalty. -/
theorem penalty_states_twoMonthsLate :
    let xs := [.processOverdueInstallments ⟨2026, 2, 20⟩, .processOverdueInstallments ⟨2026, 3, 20⟩,
      settling 10 1 3]
    ∃ loan loanPeriod, withLoan.loanWithPeriod 1 = some (loan, loanPeriod) ∧
      LoanFile.PenaltyStates (penaltyUnits loan loanPeriod) (withLoan.file 1)
        ((runCalls LoanCall.program withLoan xs).file 1) ∧
      (everIds 1 LoanFile.isCharged withLoan xs).card ≤
        (everIds 1 LoanFile.isOverdue withLoan xs).card - 1 := by
  intro xs
  have hok : handOut.result (approved 3000000 1) = .ok () := by decide +kernel
  have hlife : LoanLife (requestingPositive 1) 1 seeded (approved 3000000 1) :=
    approved_life fun _ => by norm_num
  have hloan : (withLoan.loanWithPeriod 1).any (fun p =>
      p.1.principalAmount.units = 3000000 * 10 ^ 4 && p.2.interestRate.units = 100) = true := by
    decide +kernel
  obtain ⟨⟨loan, loanPeriod⟩, hfound, hamounts⟩ := Option.any_eq_true .. |>.1 hloan
  simp only [Bool.and_eq_true, decide_eq_true_eq] at hamounts
  have hcharges : ∀ id f i, (id = 1 → f.WholePenalty) → (chargingRounded 1 id).charges f i :=
    fun _ _ i hwhole hid => (hwhole hid).chargesRounded i
  have hfollows : FollowsAll (chargingRounded 1) withLoan xs :=
    ⟨followsCharges_of_whole hcharges (by decide +kernel),
      followsCharges_of_whole hcharges (by decide +kernel), fun _ _ => trivial, trivial⟩
  have hpenalty : 1 / 10 ^ 4 ≤ loan.principalAmount.toRat * loanPeriod.interestRate.toRat := by
    rw [Numeric.toRat, Numeric.toRat, hamounts.1, hamounts.2]
    norm_num
  have hxs : ∀ x ∈ xs, x.Collects := by simp [xs, LoanCall.Collects, settling]
  obtain ⟨hstates, hfewer⟩ := penalty_states seeded_foreignKeys rfl hlife hok hfound hpenalty hxs
  exact ⟨loan, loanPeriod, hfound, hstates hfollows, hfewer⟩

/-- The penalty of 30,000.00015 on a loan of 3,000,000.015 is stored as 30,000.0001. -/
theorem not_penalty_states : ∃ loan loanPeriod,
    LoanLife (requestingPositive 1) 1 seeded (approved (3000000 + 3 / 200) 1) ∧
    handOut.result (approved (3000000 + 3 / 200) 1) = .ok () ∧
    (handOut.after (approved (3000000 + 3 / 200) 1)).loanWithPeriod 1 = some (loan, loanPeriod) ∧
    1 / 10 ^ 4 ≤ loan.principalAmount.toRat * loanPeriod.interestRate.toRat ∧
    ¬LoanFile.PenaltyStates (penaltyUnits loan loanPeriod)
      ((handOut.after (approved (3000000 + 3 / 200) 1)).file 1)
      ((runCalls LoanCall.program (handOut.after (approved (3000000 + 3 / 200) 1))
        [.processOverdueInstallments ⟨2026, 2, 20⟩,
          .processOverdueInstallments ⟨2026, 3, 20⟩]).file 1) := by
  have hrun : handOut.result (approved (3000000 + 3 / 200) 1) = .ok () ∧
    ((handOut.after (approved (3000000 + 3 / 200) 1)).loanWithPeriod 1).any (fun p =>
      p.1.principalAmount.units = 30000000150 && p.2.interestRate.units = 100 &&
        penaltyUnits p.1 p.2 = 300000002) = true ∧
    ((runCalls LoanCall.program (handOut.after (approved (3000000 + 3 / 200) 1))
      [.processOverdueInstallments ⟨2026, 2, 20⟩,
        .processOverdueInstallments ⟨2026, 3, 20⟩]).file 1).installments.any (fun x =>
          x.1.penaltyAmount.units = 300000001) = true := by decide +kernel
  obtain ⟨hok, hloan, hstored⟩ := hrun
  obtain ⟨⟨loan, loanPeriod⟩, hfound, hamounts⟩ := Option.any_eq_true .. |>.1 hloan
  obtain ⟨x, hx, hstored⟩ := List.any_eq_true.1 hstored
  simp only [Bool.and_eq_true, decide_eq_true_eq] at hamounts hstored
  obtain ⟨⟨hprincipal, hrate⟩, hpenalty⟩ := hamounts
  refine ⟨loan, loanPeriod, approved_life fun _ => by norm_num, hok, hfound, ?_, fun hstates => ?_⟩
  · rw [Numeric.toRat, Numeric.toRat, hprincipal, hrate]
    norm_num
  · have hamount := hstates.amounts x hx
    rw [hstored, hpenalty] at hamount
    omega

end LumbungMesari
