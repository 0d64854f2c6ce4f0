import LumbungMesari.DecisionRuns
import LumbungMesari.PenaltyRuns

/-!
# Consecutive arrears

The penalty is meant for consecutive overdue installments, but the job counts all that are overdue.
The two differ where every overdue installment is followed by one that was settled before it: the
next mark then charges a penalty without two adjacent arrears.
-/

namespace LumbungMesari

open Sql

namespace LoanFile

variable {f f' generated : LoanFile} {cutoff : Date} {n : ℕ}

/-! ### Arrears of a loan -/

/-- The installment with a number is overdue. -/
def InArrears (f : LoanFile) (n : ℕ) : Prop :=
  ∃ x ∈ f.installments, x.1.status = .overdue ∧ x.1.installmentNumber = n

theorem inArrears_iff : f.InArrears n ↔
    (.overdue, n) ∈ f.installments.map fun x => (x.1.status, x.1.installmentNumber) := by
  rw [List.mem_map]
  exact exists_congr fun x => and_congr_right fun _ => Prod.mk.injEq .. |>.symm.to_iff

/-- Two overdue installments with adjacent numbers. -/
def Consecutive (f : LoanFile) : Prop := ∃ n, f.InArrears n ∧ f.InArrears (n + 1)

/-- A penalty has been added to an installment. -/
def PenaltyAdded (f f' : LoanFile) : Prop :=
  ∃ x ∈ f.installments, ∃ y ∈ f'.installments, y.1.id = x.1.id ∧
    x.1.penaltyAmount.units < y.1.penaltyAmount.units

/-- The next run marks an installment while others are overdue, each of them followed by one that was
settled before it. -/
structure Separated (f : LoanFile) (cutoff : Date) : Prop where
  backlog : ∃ x ∈ f.installments, x.1.pastDue cutoff = true
  others : ∃ x ∈ f.installments, x.1.status = .overdue
  separated : ∀ x ∈ f.installments, ∀ y ∈ f.installments, x.1.status = .overdue →
    y.1.installmentNumber = x.1.installmentNumber + 1 → y.1.status ≠ .due ∧ y.1.status ≠ .overdue

/-- A schedule with one installment for each number. -/
def Numbered (generated : LoanFile) : Prop :=
  (generated.installments.map fun x => x.1.installmentNumber).Nodup

theorem Lined.eq_of_number (h : Lined generated f) (hnumbered : generated.Numbered)
    {x y : Installment × List Posting} (hx : x ∈ f.installments) (hy : y ∈ f.installments)
    (hnumber : x.1.installmentNumber = y.1.installmentNumber) : x = y := by
  have hnumbers : (f.installments.map fun x => x.1.installmentNumber) =
      generated.installments.map fun x => x.1.installmentNumber := by
    have hfst := congrArg (List.map Prod.fst) h.dates
    rwa [List.map_map, List.map_map] at hfst
  have hnodup : (f.installments.map fun x => x.1.installmentNumber).Nodup := hnumbers ▸ hnumbered
  exact List.inj_on_of_nodup_map hnodup hx hy hnumber

theorem not_penaltyAdded (hdistinct : f.Distinct) : ¬ f.PenaltyAdded f := by
  rintro ⟨x, hx, y, hy, hid, hlt⟩
  rw [eq_of_id hdistinct hx hy hid] at hlt
  exact absurd hlt (lt_irrefl _)

section Rewrite

variable {i new : Installment} {ps postings : List Posting}

theorem inArrears_mark (hdistinct : f.Distinct) (hmem : (i, ps) ∈ f.installments)
    (hdue : i.status = .due) : (f.rewrite (i.setStatus .overdue) []).InArrears n ↔
      f.InArrears n ∨ n = i.installmentNumber := by
  have hid : (i.setStatus .overdue).id = i.id := rfl
  constructor
  · rintro ⟨x, hx, hoverdue, rfl⟩
    rcases mem_rewrite hdistinct hmem hid hx with rfl | ⟨hx, -⟩
    · exact .inr rfl
    · exact .inl ⟨x, hx, hoverdue, rfl⟩
  · rintro (⟨x, hx, hoverdue, rfl⟩ | rfl)
    · refine ⟨x, mem_rewrite_ne hid hx fun hsame => ?_, hoverdue, rfl⟩
      rw [eq_of_id hdistinct hmem hx hsame, hdue] at hoverdue
      cases hoverdue
    · exact ⟨_, mem_rewrite_self hmem hid, rfl, rfl⟩

theorem inArrears_rewrite (hdistinct : f.Distinct) (hmem : (i, ps) ∈ f.installments)
    (hid : new.id = i.id) (hstatus : new.status = i.status)
    (hnumber : new.installmentNumber = i.installmentNumber) :
    (f.rewrite new postings).InArrears n ↔ f.InArrears n := by
  rw [inArrears_iff, inArrears_iff, map_rewrite (fun r => (r.status, r.installmentNumber)) hdistinct
    hmem hid (by rw [hstatus, hnumber])]

end Rewrite

/-! ### Charges and arrears -/

theorem Charge.inArrears (h : Charge f f') (hdistinct : f.Distinct) : ∃ i ps,
    (i, ps) ∈ f.installments ∧ i.status = .due ∧
    (∀ x ∈ f.installments, x.1.status = .due → x.1.dueDate.le i.dueDate →
      i.installmentNumber ≤ x.1.installmentNumber) ∧
    ∀ n, f'.InArrears n ↔ f.InArrears n ∨ n = i.installmentNumber := by
  cases h with
  | @mark i ps mem due first => exact ⟨i, ps, mem, due, first, fun n => inArrears_mark hdistinct mem due⟩
  | @penalize _ _ i _ _ ps mem due first found charges set =>
      refine ⟨i, ps, mem, due, first, fun n => ?_⟩
      obtain ⟨_, picked, -⟩ := charges.picked
      have hmarked : (f.rewrite (i.setStatus .overdue) []).Distinct := hdistinct.rewrite mem rfl
      obtain ⟨_, _, -, -, hnew⟩ := penalized_ok set
      exact (inArrears_rewrite hmarked picked (by rw [hnew]) (by rw [hnew]) (by rw [hnew])).trans
        (inArrears_mark hdistinct mem due)

theorem Charge.others (h : Charge f f') (hdistinct : f.Distinct)
    (hadded : f.PenaltyAdded f') : ∃ x ∈ f.installments, x.1.status = .overdue := by
  cases h with
  | @mark i ps mem due =>
      obtain ⟨x, hx, y, hy, hid, hlt⟩ := hadded
      have hid' : (i.setStatus .overdue).id = i.id := rfl
      rcases mem_rewrite hdistinct mem hid' hy with rfl | ⟨hy, -⟩
      · rw [eq_of_id hdistinct mem hx hid.symm] at hlt
        exact absurd hlt (lt_irrefl _)
      · rw [eq_of_id hdistinct hx hy hid] at hlt
        exact absurd hlt (lt_irrefl _)
  | penalize mem due first found charges => exact charges.others

/-- A penalty that is added where not every overdue installment is followed by a paid one meets two
adjacent arrears. -/
theorem Charge.consecutive (h : Charge f f') (hgenerated : generated.InOrder)
    (hnumbered : generated.Numbered) (hf : Lined generated f)
    (hbacklog : ∃ x ∈ f.installments, x.1.pastDue cutoff = true)
    (hseparated : ¬ f.Separated cutoff) (hadded : f.PenaltyAdded f') : f'.Consecutive := by
  have hothers := h.others hf.distinct hadded
  obtain ⟨i, ps, hmem, hdue, hfirst, harrears⟩ := h.inArrears hf.distinct
  obtain ⟨x, hx, y, hy, hoverdue, hnext, hunpaid⟩ : ∃ x ∈ f.installments, ∃ y ∈ f.installments,
      x.1.status = .overdue ∧ y.1.installmentNumber = x.1.installmentNumber + 1 ∧
        (y.1.status = .due ∨ y.1.status = .overdue) := by
    by_contra hnone
    refine hseparated ⟨hbacklog, hothers, fun x hx y hy hoverdue hnext => not_or.1 fun howed => ?_⟩
    exact hnone ⟨x, hx, y, hy, hoverdue, hnext, howed⟩
  refine ⟨x.1.installmentNumber, (harrears _).2 (.inl ⟨x, hx, hoverdue, rfl⟩), (harrears _).2 ?_⟩
  rcases hunpaid with hdue' | hoverdue'
  · -- the next one is due, so it is the one that is marked
    have hbefore : x.1.installmentNumber ≤ i.installmentNumber :=
      hf.order (i, ps) hmem x hx hdue hoverdue
    have hne : x.1.installmentNumber ≠ i.installmentNumber := by
      intro hsame
      rw [hf.eq_of_number hnumbered hx hmem hsame, hdue] at hoverdue
      cases hoverdue
    have hle : y.1.installmentNumber ≤ i.installmentNumber := by omega
    have hge := hfirst y hy hdue' ((hgenerated.congr hf.dates) y hy (i, ps) hmem hle)
    exact .inr (by omega)
  · exact .inl ⟨y, hy, hoverdue', hnext⟩

/-- Where every overdue installment is followed by a paid one, a charge adds a penalty without two
adjacent arrears. -/
theorem Charge.separated {loan : Loan} {loanPeriod : LoanPeriod} (h : Charge f f')
    (hpenalty : 1 / 10 ^ 4 ≤ loan.principalAmount.toRat * loanPeriod.interestRate.toRat)
    (hf : Running loan loanPeriod generated f) (hseparated : f.Separated cutoff) :
    f.PenaltyAdded f' ∧ ¬ f'.Consecutive := by
  obtain ⟨i, ps, hmem, hdue, hfirst, harrears⟩ := h.inArrears hf.distinct
  refine ⟨?_, ?_⟩
  · cases h with
    | @mark i' ps' mem due first reason =>
        obtain ⟨x, hx, hoverdue⟩ := hseparated.others
        rcases reason with hnone | hne
        · exact absurd hoverdue (hnone x hx)
        · exact absurd (hf.due _ mem due) hne
    | @penalize loan' loanPeriod' i' j new ps' mem due first found charges set =>
        obtain ⟨rfl, rfl⟩ := Prod.mk.inj (Option.some.inj (found.symm.trans hf.found))
        obtain ⟨qs, picked, overdue, unpenalized⟩ := charges.picked
        have hid' : (i'.setStatus .overdue).id = i'.id := rfl
        have hpos := penalized_pos hpenalty unpenalized set
        have hid : new.id = j.id := by
          obtain ⟨_, _, -, -, rfl⟩ := penalized_ok set
          rfl
        obtain ⟨x, hx, hsame, hzero⟩ : ∃ x ∈ f.installments, x.1.id = j.id ∧
            x.1.penaltyAmount.units = 0 := by
          rcases mem_rewrite hf.distinct mem hid' picked with he | ⟨hj, -⟩
          · rw [(Prod.mk.inj he).1]
            exact ⟨_, mem, rfl, hf.due _ mem due⟩
          · exact ⟨_, hj, rfl, unpenalized⟩
        exact ⟨x, hx, _, mem_rewrite_self picked hid, hid.trans hsame.symm, by rwa [hzero]⟩
  · rintro ⟨n, hn, hn'⟩
    rw [harrears] at hn hn'
    rcases hn with ⟨x, hx, hoverdue, rfl⟩ | rfl
    · have hsettled : ∀ y ∈ f.installments, y.1.installmentNumber = x.1.installmentNumber + 1 →
          y.1.status ≠ .due ∧ y.1.status ≠ .overdue := fun y hy =>
        hseparated.separated x hx y hy hoverdue
      rcases hn' with ⟨y, hy, hoverdue', hnumber⟩ | hnumber
      · exact (hsettled y hy hnumber).2 hoverdue'
      · exact (hsettled (i, ps) hmem hnumber.symm).1 hdue
    · rcases hn' with ⟨y, hy, hoverdue', hnumber⟩ | hnumber
      · have hle : y.1.installmentNumber ≤ i.installmentNumber :=
          hf.order (i, ps) hmem y hy hdue hoverdue'
        omega
      · omega

end LoanFile

/-! ### Runs of the job -/

section Runs

variable {d d' : Database} {cutoff : Date} {loanId : Uuid} {rs : List Installment} {r : Installment}

theorem processLoans_spares {I : Database → Prop} (h : Listed d rs) (hne : ∀ r ∈ rs, r.loanId ≠ loanId)
    (hI : ∀ d', d'.file loanId = d.file loanId → I d') :
    (processLoans rs).wp (Prog.alone fun _ => I) (fun _ d' _ => d'.file loanId = d.file loanId) d
      .idle := by
  induction rs generalizing d with
  | nil => rfl
  | cons r rs ih =>
      obtain ⟨hr, hrs⟩ := List.forall_mem_cons.1 hne
      rw [processLoans, Prog.wp_bind']
      refine processLoan_alone (h.due r (List.mem_cons_self ..)).1 fun d' hcharged => ?_
      have hsame := hcharged.file_ne hr
      refine ⟨hI d' hsame, Prog.wp_mono (fun _ d'' _ hrest => hrest.trans hsame)
        (ih (h.charge hcharged) hrs fun d'' hd'' => hI d'' (hd''.trans hsame))⟩

/-- What a run leaves of a loan: one charge if the loan is listed, and nothing new otherwise. -/
theorem processLoans_works {I : Database → Prop} (loanId : Uuid) (h : Listed d rs)
    (hrs : Fronts cutoff d rs)
    (hI : ∀ d', d'.file loanId = d.file loanId ∨ (∃ r ∈ rs, r.loanId = loanId) ∧
      (d.file loanId).Charge (d'.file loanId) → I d') :
    (processLoans rs).wp (Prog.alone fun _ => I)
      (fun _ d' _ => (∃ r ∈ rs, r.loanId = loanId) → (d.file loanId).Charge (d'.file loanId)) d
      .idle := by
  induction rs generalizing d with
  | nil =>
      rintro ⟨_, hr, -⟩
      cases hr
  | cons r rs ih =>
      rw [processLoans, Prog.wp_bind']
      refine processLoan_alone (h.due r (List.mem_cons_self ..)).1 fun d' hcharged => ?_
      obtain ⟨hother, -⟩ := List.pairwise_cons.1 h.loans
      by_cases hloan : r.loanId = loanId
      · subst hloan
        obtain ⟨hdue, hfirst⟩ := hrs r (List.mem_cons_self ..)
        have hcharge := hcharged.charge hdue hfirst
        have hworked : ∀ d'', d''.file r.loanId = d'.file r.loanId → I d'' := fun d'' hd'' =>
          hI d'' (.inr ⟨⟨r, List.mem_cons_self .., rfl⟩, hd'' ▸ hcharge⟩)
        have hspared := processLoans_spares (h.charge hcharged)
          (fun r' hr' => (hother r' hr').symm) hworked
        refine ⟨hworked d' rfl, Prog.wp_mono (fun _ d'' _ hrest _ => ?_) hspared⟩
        rw [hrest]
        exact hcharge
      · have hsame := hcharged.file_ne hloan
        refine ⟨hI d' (.inl hsame), Prog.wp_mono (fun _ d'' _ hrest hlisted => ?_)
          (ih (h.charge hcharged) (hcharged.fronts hother
            fun r' hr' => hrs r' (List.mem_cons_of_mem _ hr')) fun d'' hd'' => hI d'' ?_)⟩
        · obtain ⟨r', hr', hloan'⟩ := hlisted
          rcases List.mem_cons.1 hr' with rfl | hr'
          · exact absurd hloan' hloan
          · rw [← hsame]
            exact hrest ⟨r', hr', hloan'⟩
        · rw [← hsame]
          refine hd''.imp_right fun hlisted => ?_
          obtain ⟨⟨r', hr', hloan'⟩, hcharge⟩ := hlisted
          exact ⟨⟨r', List.mem_cons_of_mem _ hr', hloan'⟩, hcharge⟩

theorem exists_mem_overdueWork_iff : (∃ r ∈ d.overdueWork cutoff, r.loanId = loanId) ↔
    ∃ x ∈ (d.file loanId).installments, x.1.pastDue cutoff = true := by
  constructor
  · rintro ⟨r, hr, rfl⟩
    obtain ⟨hmem, hdue⟩ := mem_overdueWork hr
    obtain ⟨ps, hps⟩ := exists_mem_file hmem rfl
    exact ⟨_, hps, Installment.pastDue_iff.2 hdue⟩
  · rintro ⟨x, hx, hdue⟩
    obtain ⟨hfind, hloan⟩ := loanId_of_mem_file hx
    obtain ⟨r, hr, hsame⟩ := exists_mem_overdueWork (mem_pastDue.2 ⟨(Table.find?_some hfind).1, hdue⟩)
    exact ⟨r, hr, hsame.trans hloan⟩

/-- What a run leaves of a loan, whether it returns or not. -/
theorem processOverdueInstallments_file (d : Database) (loanId : Uuid) (now : Date) :
    let d' := (processOverdueInstallments now).after d
    d'.file loanId = d.file loanId ∨
      (∃ x ∈ (d.file loanId).installments, x.1.pastDue (now.setDate 20) = true) ∧
        (d.file loanId).Charge (d'.file loanId) := by
  rw [← exists_mem_overdueWork_iff]
  refine Prog.after_keeps (I := fun d' : Database => d'.file loanId = d.file loanId ∨
    (∃ r ∈ d.overdueWork (now.setDate 20), r.loanId = loanId) ∧
      (d.file loanId).Charge (d'.file loanId)) (fun _ hd' => hd') ?_ (.inl rfl)
  have halone := processOverdueInstallments_alone (processLoans_works loanId
    (listed_overdueWork _ _) (fronts_overdueWork d (now.setDate 20)) fun d' hd' => hd')
  exact Prog.wp_mono (fun _ _ _ _ => trivial) halone

theorem processOverdueInstallments_charge {now : Date}
    (hok : (processOverdueInstallments now).result d = .ok ())
    (hbacklog : ∃ x ∈ (d.file loanId).installments, x.1.pastDue (now.setDate 20) = true) :
    (d.file loanId).Charge (((processOverdueInstallments now).after d).file loanId) := by
  have halone := processOverdueInstallments_alone (processLoans_works (I := fun _ => True) loanId
    (listed_overdueWork _ _) (fronts_overdueWork d (now.setDate 20)) fun _ _ => trivial)
  exact Prog.after_of_wp halone hok (exists_mem_overdueWork_iff.2 hbacklog)

end Runs

/-! ### From the disbursement on -/

/-- A run of the job adds a penalty to a loan only with two adjacent arrears. -/
def LoanCall.NeedsArrears (loanId : Uuid) (d : Database) : LoanCall → Prop
  | processOverdueInstallments now =>
      (d.file loanId).PenaltyAdded (((LumbungMesari.processOverdueInstallments now).after d).file
          loanId) →
        (((LumbungMesari.processOverdueInstallments now).after d).file loanId).Consecutive
  | _ => True

/-- A run of the job does not find the arrears of a loan separated. -/
def LoanCall.Joined (loanId : Uuid) (d : Database) : LoanCall → Prop
  | processOverdueInstallments now => ¬ (d.file loanId).Separated (now.setDate 20)
  | _ => True

section Calls

open LoanFile

variable {d : Database} {loanId : Uuid} {loan : Loan} {loanPeriod : LoanPeriod}
  {generated : LoanFile}

theorem LoanCall.Collects.linked {x : LoanCall} (hx : x.Collects) (hd : Linked d) :
    Linked (x.program.after d) := by
  refine LoanCall.after_keeps (c := anything) (fun hstep hd => (hstep.simulates hd).1) ?_ hd
  cases x with
  | createLoan | approveLoan | rejectLoan | disburseLoan => exact hx.elim
  | settleInstallment => exact fun _ _ => trivial
  | processOverdueInstallments => exact fun _ _ _ _ => trivial

theorem LoanCall.Collects.lined {x : LoanCall} (hx : x.Collects) (hgenerated : generated.InOrder)
    (hd : Linked d) (h : Lined generated (d.file loanId)) :
    Lined generated ((x.program.after d).file loanId) := by
  cases x with
  | createLoan | approveLoan | rejectLoan | disburseLoan => exact hx.elim
  | settleInstallment ids installmentId adminId now =>
      have halone : (LumbungMesari.settleInstallment ids installmentId adminId now).wp
          (Prog.alone Settling) (fun _ _ _ => True) d .idle := settleInstallment_settling
      refine (Prog.after_keeps (I := fun d => Linked d ∧ Lined generated (d.file loanId))
        (fun hd hsettling => ?_) halone ⟨hd, h⟩).2
      obtain ⟨hd, h⟩ := hd
      obtain ⟨ids, adminId, now, i, ps, hfound, hrecorded, rfl⟩ := hsettling
      obtain ⟨hlinked, hfile⟩ := settled_file hd hfound hrecorded
      refine ⟨hlinked, ?_⟩
      rw [hfile]
      by_cases hloan : i.loanId = loanId
      · exact h.settle (mem_file_installments hfound hloan) adminId now _
      · rwa [rewrite_file_ne (i.settle adminId now) _ hfound rfl hloan]
  | processOverdueInstallments now =>
      rcases processOverdueInstallments_file d loanId now with hsame | ⟨-, hcharge⟩
      · rwa [program, hsame]
      · exact hcharge.lined hgenerated h

theorem LoanCall.Joined.needsArrears {x : LoanCall} (hx : x.Joined loanId d)
    (hgenerated : generated.InOrder) (hnumbered : generated.Numbered)
    (h : Lined generated (d.file loanId)) : x.NeedsArrears loanId d := by
  cases x with
  | createLoan | approveLoan | rejectLoan | disburseLoan | settleInstallment => trivial
  | processOverdueInstallments now =>
      intro hadded
      rcases processOverdueInstallments_file d loanId now with hsame | ⟨hbacklog, hcharge⟩
      · rw [hsame] at hadded
        exact absurd hadded (not_penaltyAdded h.distinct)
      · exact hcharge.consecutive hgenerated hnumbered h hbacklog hx hadded

theorem LoanCall.NeedsArrears.joined {x : LoanCall} (hx : x.NeedsArrears loanId d)
    (hok : (x.program.result d).isOk = true)
    (hpenalty : 1 / 10 ^ 4 ≤ loan.principalAmount.toRat * loanPeriod.interestRate.toRat)
    (h : Running loan loanPeriod generated (d.file loanId)) : x.Joined loanId d := by
  cases x with
  | createLoan | approveLoan | rejectLoan | disburseLoan | settleInstallment => trivial
  | processOverdueInstallments now =>
      intro hseparated
      obtain ⟨_, hresult⟩ := exists_ok_of_isOk hok
      have hcharge := processOverdueInstallments_charge hresult hseparated.backlog
      obtain ⟨hadded, hnone⟩ := hcharge.separated hpenalty h hseparated
      exact hnone (hx hadded)

end Calls

theorem lined_disbursed {d₀ d : Database} (h₀ : d₀.ForeignKeys) {loanId : Uuid}
    (hnone : d₀.find .loans loanId = none) {c : Uuid → Conduct} (hlife : LoanLife c loanId d₀ d)
    {ids : DisburseIds} {adminId : Uuid} {now : Date}
    (hok : (disburseLoan ids loanId adminId now).result d = .ok ()) :
    let d₁ := (disburseLoan ids loanId adminId now).after d
    Linked d₁ ∧ (d₁.file loanId).InOrder ∧ (d₁.file loanId).Numbered ∧
      LoanFile.Lined (d₁.file loanId) (d₁.file loanId) := by
  obtain ⟨hlinked, hsteps⟩ := hlife.simulates h₀.linked
  rw [h₀.file_eq_empty hnone] at hsteps
  obtain ⟨hlinked₁, loan, loanPeriod, rs, hloan, hschedule, hnodup, hfile, hinstallments⟩ :=
    disburseLoan_file hlinked (hsteps.kept LoanFile.empty_kept).orderly hok
  refine ⟨hlinked₁, LoanFile.inOrder_generated hschedule hinstallments, ?_, ?_, rfl, ?_⟩
  · rw [LoanFile.Numbered, hinstallments, List.map_map]
    show (rs.map Installment.installmentNumber).Nodup
    rw [LoanFile.numbers_generateInstallments (generateInstallments_ok hschedule)]
    exact List.nodup_range'
  · rw [LoanFile.Distinct, hinstallments, List.map_map]
    exact hnodup
  · intro x hx y hy hdue hoverdue
    rw [hinstallments] at hy
    obtain ⟨r, hr, rfl⟩ := List.mem_map.1 hy
    obtain ⟨i, hi⟩ := LoanFile.exists_of_forall₂ (generateInstallments_ok hschedule) hr
    rw [hi.status] at hoverdue
    cases hoverdue

/-- **Penalties need consecutive arrears** where the arrears are joined. From the disbursement of a
loan on, over any sequence of complete overdue runs and settlements, no run adds a penalty to the
loan without two adjacent arrears, as long as none finds every overdue installment followed by one
that was settled before it. A run that does find that, and returns, adds such a penalty. -/
theorem penalties_need_consecutive_arrears {d₀ d : Database} (h₀ : d₀.ForeignKeys) {loanId : Uuid}
    (hnone : d₀.find .loans loanId = none) (hlife : LoanLife (requestingPositive loanId) loanId d₀ d)
    {ids : DisburseIds} {adminId : Uuid} {now : Date}
    (hok : (disburseLoan ids loanId adminId now).result d = .ok ()) {xs : List LoanCall}
    (hxs : ∀ x ∈ xs, x.Collects) :
    let d₁ := (disburseLoan ids loanId adminId now).after d
    (allMeet LoanCall.program (fun d x => x.Joined loanId d) d₁ xs →
      allMeet LoanCall.program (fun d x => x.NeedsArrears loanId d) d₁ xs) ∧
    ∀ loan loanPeriod, d₁.loanWithPeriod loanId = some (loan, loanPeriod) →
      1 / 10 ^ 4 ≤ loan.principalAmount.toRat * loanPeriod.interestRate.toRat →
      allReturn LoanCall.program d₁ xs = true →
        allMeet LoanCall.program (fun d x => x.NeedsArrears loanId d) d₁ xs →
          allMeet LoanCall.program (fun d x => x.Joined loanId d) d₁ xs := by
  intro d₁
  refine ⟨fun hjoined => ?_, fun loan loanPeriod hloan hpenalty hreturn hneeds => ?_⟩
  · obtain ⟨hlinked, hinOrder, hnumbered, hlined⟩ := lined_disbursed h₀ hnone hlife hok
    refine allMeet_of_invariant (I := fun d => Linked d ∧
      LoanFile.Lined (d₁.file loanId) (d.file loanId)) (fun x hx d hd hjoined => ?_)
      ⟨hlinked, hlined⟩ hjoined
    have hcollects : x.Collects := hxs x hx
    exact ⟨hjoined.needsArrears hinOrder hnumbered hd.2, hcollects.linked hd.1,
      hcollects.lined hinOrder hd.1 hd.2⟩
  · obtain ⟨⟨hlinked, hinOrder⟩, -, htracked⟩ := tracked_disbursed h₀ hnone hlife hok hloan
    refine allMeet_of_invariant (I := fun d => Linked d ∧ ∃ marked charged,
      LoanFile.Tracked loan loanPeriod (d₁.file loanId)
        (marked ∪ (d.file loanId).idsWhere LoanFile.isOverdue)
        (charged ∪ (d.file loanId).idsWhere LoanFile.isCharged) (d.file loanId))
      (fun x hx d hd hmeets => ?_) ⟨hlinked, ∅, ∅, htracked⟩
      (allMeet_and hneeds (allReturn_iff.1 hreturn))
    obtain ⟨hlinked, marked, charged, htracked⟩ := hd
    have hcollects : x.Collects := hxs x hx
    obtain ⟨hlinked', htracked'⟩ := LoanCall.after_tracked hcollects hinOrder hpenalty hlinked
      htracked Finset.subset_union_right Finset.subset_union_right
    exact ⟨hmeets.1.joined hmeets.2 hpenalty htracked.toRunning, hlinked', _, _, htracked'⟩

/-- Two months late: the first two installments are overdue. -/
theorem penalties_need_consecutive_arrears_twoMonthsLate :
    allMeet LoanCall.program (fun d x => x.NeedsArrears 1 d) withLoan
      [.processOverdueInstallments ⟨2026, 2, 20⟩, .processOverdueInstallments ⟨2026, 3, 20⟩] := by
  let before := runCalls LoanCall.program seeded [.createLoan 1 3 1 3000000 none (2 / 100) ⟨2026, 1, 5⟩,
    .approveLoan 1 none 1 ⟨2026, 1, 6⟩]
  have hok : (disburseLoan ⟨id, ⟨1, 1, 2⟩, 1, 2⟩ 1 1 ⟨2026, 1, 7⟩).result before = .ok () := by
    decide +kernel
  have hlife : LoanLife (requestingPositive 1) 1 seeded before :=
    LoanLife.start.calls ⟨fun _ => by norm_num, trivial, trivial⟩
  have hjoined : ((withLoan.file 1).installments.all fun x => x.1.status ≠ .overdue) = true ∧
      (((processOverdueInstallments ⟨2026, 2, 20⟩).after withLoan).file 1).installments.any
        (fun x => x.1.status = .overdue && x.1.installmentNumber = 1) = true ∧
      (((processOverdueInstallments ⟨2026, 2, 20⟩).after withLoan).file 1).installments.any
        (fun x => x.1.status = .due && x.1.installmentNumber = 2) = true := by decide +kernel
  obtain ⟨hfirst, hoverdue, hdue⟩ := hjoined
  refine (penalties_need_consecutive_arrears seeded_foreignKeys rfl hlife hok ?_).1 ⟨?_, ?_, trivial⟩
  · simp [LoanCall.Collects]
  · intro hseparated
    obtain ⟨x, hx, hx'⟩ := hseparated.others
    exact of_decide_eq_true (List.all_eq_true.1 hfirst x hx) hx'
  · intro hseparated
    obtain ⟨x, hx, hx'⟩ := List.any_eq_true.1 hoverdue
    obtain ⟨y, hy, hy'⟩ := List.any_eq_true.1 hdue
    simp only [Bool.and_eq_true, decide_eq_true_eq] at hx' hy'
    exact (hseparated.separated x hx y hy hx'.1 (by rw [hx'.2, hy'.2])).1 hy'.1

/-- The first and the third installment are overdue, the second was settled. The run that marks the
third one adds a penalty to the first. -/
theorem penalty_without_consecutive_arrears :
    ∃ before, LoanLife (requestingPositive 1) 1 seeded before ∧
      (disburseLoan ⟨id, ⟨1, 1, 2⟩, 1, 2⟩ 1 1 ⟨2026, 1, 7⟩).result before = .ok () ∧
      ¬ allMeet LoanCall.program (fun d x => x.NeedsArrears 1 d)
        ((disburseLoan ⟨id, ⟨1, 1, 2⟩, 1, 2⟩ 1 1 ⟨2026, 1, 7⟩).after before)
        [.processOverdueInstallments ⟨2026, 2, 20⟩, settling 10 2 3,
          .processOverdueInstallments ⟨2026, 4, 20⟩] := by
  let before := runCalls LoanCall.program seeded [.createLoan 1 3 1 3000000 none (2 / 100) ⟨2026, 1, 5⟩,
    .approveLoan 1 none 1 ⟨2026, 1, 6⟩]
  have hlife : LoanLife (requestingPositive 1) 1 seeded before :=
    LoanLife.start.calls ⟨fun _ => by norm_num, trivial, trivial⟩
  refine ⟨before, hlife, by decide +kernel, fun hneeds => ?_⟩
  let d := runCalls LoanCall.program withLoan [.processOverdueInstallments ⟨2026, 2, 20⟩, settling 10 2 3]
  let d' := (processOverdueInstallments ⟨2026, 4, 20⟩).after d
  have hrun : ((d.file 1).installments.any fun x => (d'.file 1).installments.any fun y =>
        y.1.id = x.1.id && x.1.penaltyAmount.units < y.1.penaltyAmount.units) = true ∧
      ((d'.file 1).installments.all fun x => (d'.file 1).installments.all fun y =>
        !(x.1.status = .overdue && y.1.status = .overdue &&
          y.1.installmentNumber = x.1.installmentNumber + 1)) = true := by decide +kernel
  obtain ⟨hadded, hnone⟩ := hrun
  simp only [List.any_eq_true, Bool.and_eq_true, decide_eq_true_eq] at hadded
  obtain ⟨x, hx, y, hy, hid, hlt⟩ := hadded
  obtain ⟨n, ⟨x, hx, hoverdue, rfl⟩, ⟨y, hy, hoverdue', hnext⟩⟩ :=
    hneeds.2.2.1 ⟨x, hx, y, hy, hid, hlt⟩
  have hpair := List.all_eq_true.1 (List.all_eq_true.1 hnone x hx) y hy
  simp [hoverdue, hoverdue', hnext] at hpair

end LumbungMesari
