import LumbungMesari.Repayments

/-!
# Quotes

The figures of a loan are computed when it is quoted, again when it is requested, and a third time
when it is disbursed, from the columns the request was stored in. The three agree, because no figure
is computed from a rounded one: the totals of the schedule are the stored payments.
-/

namespace LumbungMesari

open Sql

/-- The last payment of a quote, which leaves it out where it is one like the others. -/
def CalculateLoanResponse.lastPayment (quote : CalculateLoanResponse) : ℚ :=
  quote.lastMonthPayment.getD quote.monthlyPayment

/-- The columns of a loan hold the figures of a quote. -/
structure Loan.Quoted (loan : Loan) (quote : CalculateLoanResponse) : Prop where
  principalAmount : Numeric.ofRat? quote.principalAmount = some loan.principalAmount
  adminFeeAmount : Numeric.ofRat? quote.adminFee = some loan.adminFeeAmount
  disbursedAmount : Numeric.ofRat? quote.disbursedAmount = some loan.disbursedAmount
  interestAmount : Numeric.ofRat? quote.monthlyInterest = some loan.interestAmount
  monthlyPayment : Numeric.ofRat? quote.monthlyPayment = some loan.monthlyPayment
  lastMonthPayment : Numeric.ofRat? quote.lastPayment = some loan.lastMonthPayment

/-- A schedule asks for the figures of a quote. -/
structure CalculateLoanResponse.AskedBy (quote : CalculateLoanResponse) (rs : List Installment) :
    Prop where
  numbers : rs.map (·.installmentNumber) = List.range' 1 quote.tenor
  interest : ∀ r ∈ rs, Numeric.ofRat? quote.monthlyInterest = some r.interestAmount
  first : ∀ r ∈ rs, r.installmentNumber < quote.tenor →
    Numeric.ofRat? quote.monthlyPayment = some r.totalAmount
  last : ∀ r ∈ rs, r.installmentNumber = quote.tenor →
    Numeric.ofRat? quote.lastPayment = some r.totalAmount

/-! ### Quotes and loans -/

section Figures

variable {quote : CalculateLoanResponse} {d : Database} {loanPeriodId id userId : Uuid}
  {amount adminFeeRate : ℚ} {loan : Loan} {loanPeriod : LoanPeriod}

theorem calculateLoan_ok (h : (calculateLoan loanPeriodId amount adminFeeRate).result d = .ok quote) :
    ∃ loanPeriod, d.find .loanPeriods loanPeriodId = some loanPeriod ∧
      quote.tenor = loanPeriod.tenor ∧ ∀ {id userId loan},
        LoanCreated id userId loanPeriod amount adminFeeRate loan → loan.Quoted quote := by
  have hwp : (calculateLoan loanPeriodId amount adminFeeRate).wp (Prog.alone fun _ _ => True)
      (fun quote _ _ => ∃ loanPeriod, d.find .loanPeriods loanPeriodId = some loanPeriod ∧
        quote.tenor = loanPeriod.tenor ∧ ∀ {id userId loan},
          LoanCreated id userId loanPeriod amount adminFeeRate loan → loan.Quoted quote) d .idle := by
    unfold calculateLoan findLoanPeriodById
    rw [Prog.wp_bind']
    refine wp_selectOnPool fun d₁ henv => ?_
    obtain rfl : d = d₁ := henv
    split
    · trivial
    rename_i loanPeriod hperiod
    refine ⟨loanPeriod, hperiod, rfl, fun hcreated => ?_⟩
    refine ⟨hcreated.principalAmount, hcreated.adminFeeAmount, hcreated.disbursedAmount,
      hcreated.interestAmount, hcreated.monthlyPayment, ?_⟩
    rw [← hcreated.lastMonthPayment, CalculateLoanResponse.lastPayment]
    split
    · rfl
    · rename_i hsame
      rw [ne_eq, not_not] at hsame
      rw [hsame, Option.getD_none]
  exact Prog.after_of_wp hwp h

theorem createLoan_quoted {quoted : Database} {notes : Option String} {now : Date}
    (hquote : (calculateLoan loanPeriodId amount adminFeeRate).result quoted = .ok quote)
    (hperiod : quoted.find .loanPeriods loanPeriodId = d.find .loanPeriods loanPeriodId)
    (hok : (createLoan id userId loanPeriodId amount notes adminFeeRate now).result d = .ok loan) :
    ∃ loanPeriod, d.find .loans loan.id = none ∧ loan.id = id ∧
      d.find .loanPeriods loan.loanPeriodId = some loanPeriod ∧
      quote.tenor = loanPeriod.tenor ∧ loan.Quoted quote ∧
      (createLoan id userId loanPeriodId amount notes adminFeeRate now).after d =
        d.apply (.insert .loans loan) := by
  obtain ⟨loanPeriod, hfound, htenor, hfigures⟩ := calculateLoan_ok hquote
  rw [hperiod] at hfound
  have hwp : (createLoan id userId loanPeriodId amount notes adminFeeRate now).wp
      (Prog.alone fun _ _ => True) (fun loan d' _ => ∃ loanPeriod, d.find .loans loan.id = none ∧
        loan.id = id ∧ d.find .loanPeriods loan.loanPeriodId = some loanPeriod ∧
        quote.tenor = loanPeriod.tenor ∧ loan.Quoted quote ∧ d' = d.apply (.insert .loans loan)) d
      .idle := by
    refine createLoan_wp fun d₁ d' period loan l henv₁ henv₂ hfound₁ hcreated hinserted => ?_
    obtain rfl : d = d₁ := henv₁
    obtain rfl : d = d' := henv₂
    obtain rfl : loanPeriod = period := Option.some.inj (hfound.symm.trans hfound₁)
    refine ⟨trivial, loanPeriod, hinserted.fresh, hcreated.id, ?_, htenor, hfigures hcreated, rfl⟩
    rw [hcreated.loanPeriodId]
    exact Database.find_self hfound
  exact Prog.after_of_wp hwp hok

end Figures

/-! ### The life of a quoted loan -/

namespace LoanFile

variable {c : Conduct} {f f' : LoanFile} {quote : CalculateLoanResponse}

/-- The loan of a file has the figures of a quote. -/
def Quoted (f : LoanFile) (quote : CalculateLoanResponse) : Prop :=
  ∃ loan loanPeriod, f.loan = some (loan, loanPeriod) ∧ quote.tenor = loanPeriod.tenor ∧
    loan.Quoted quote

theorem Step.quoted (h : Step c f f') (hf : f.Quoted quote) : f'.Quoted quote := by
  obtain ⟨loan, loanPeriod, hloan, htenor, hquoted⟩ := hf
  have hsame : ∀ {loan' loanPeriod'}, f.loan = some (loan', loanPeriod') →
      loan' = loan ∧ loanPeriod' = loanPeriod := fun hloan' =>
    Prod.mk.inj (Option.some.inj (hloan'.symm.trans hloan))
  cases h with
  | create absent =>
      rw [hloan] at absent
      cases absent
  | @decide _ _ status approvedBy notes now found =>
      obtain ⟨rfl, rfl⟩ := hsame found
      refine ⟨_, _, rfl, htenor, ?_⟩
      cases status <;> exact ⟨hquoted.1, hquoted.2, hquoted.3, hquoted.4, hquoted.5, hquoted.6⟩
  | disburse found =>
      obtain ⟨rfl, rfl⟩ := hsame found
      exact ⟨_, _, rfl, htenor, hquoted.1, hquoted.2, hquoted.3, hquoted.4, hquoted.5, hquoted.6⟩
  | settle | mark | penalize => exact ⟨loan, loanPeriod, hloan, htenor, hquoted⟩

end LoanFile

theorem CalculateLoanResponse.askedBy_schedule {quote : CalculateLoanResponse} {loan : Loan}
    (hquoted : loan.Quoted quote) {adminId : Uuid} {now : Date} {ids : ℕ → Uuid}
    {rs : List Installment} (h : generateInstallments loan quote.tenor adminId now ids = .ok rs) :
    quote.AskedBy rs := by
  have hcreated := generateInstallments_ok h
  have hrow : ∀ r ∈ rs, ∃ id, InstallmentCreated loan quote.tenor id r.installmentNumber r := by
    intro r hr
    obtain ⟨i, hi⟩ := LoanFile.exists_of_forall₂ hcreated hr
    exact ⟨_, hi.installmentNumber ▸ hi⟩
  refine ⟨LoanFile.numbers_generateInstallments hcreated, fun r hr => ?_, fun r hr hlt => ?_,
    fun r hr hlast => ?_⟩
  · obtain ⟨_, hi⟩ := hrow r hr
    rw [hquoted.interestAmount, Numeric.ext hi.interest]
  · obtain ⟨_, hi⟩ := hrow r hr
    have htotal := hi.total
    rw [if_neg hlt.ne] at htotal
    rw [hquoted.monthlyPayment, Numeric.ext htotal]
  · obtain ⟨_, hi⟩ := hrow r hr
    have htotal := hi.total
    rw [if_pos hlast] at htotal
    rw [hquoted.lastMonthPayment, Numeric.ext htotal]

/-- **The quote is what the member pays.** A loan that is requested as it was quoted is stored with
the figures of the quote, and whatever happens to it before it is disbursed, its schedule asks for
them. -/
theorem quote_is_paid {quoted d₀ d : Database} (h₀ : d₀.ForeignKeys) {loanPeriodId id userId : Uuid}
    {amount adminFeeRate : ℚ} {quote : CalculateLoanResponse}
    (hquote : (calculateLoan loanPeriodId amount adminFeeRate).result quoted = .ok quote)
    (hperiod : quoted.find .loanPeriods loanPeriodId = d₀.find .loanPeriods loanPeriodId)
    {notes : Option String} {today : Date} {loan : Loan}
    (hcreate : (createLoan id userId loanPeriodId amount notes adminFeeRate today).result d₀ =
      .ok loan)
    (hlife : LoanLife anything id
      ((createLoan id userId loanPeriodId amount notes adminFeeRate today).after d₀) d)
    {ids : DisburseIds} {adminId : Uuid} {now : Date}
    (hdisburse : (disburseLoan ids id adminId now).result d = .ok ()) :
    loan.Quoted quote ∧
      quote.AskedBy ((((disburseLoan ids id adminId now).after d).rows .installments).filter
        fun i => i.loanId = id) := by
  obtain ⟨loanPeriod, hfresh, hid, hfound, htenor, hquoted, hafter⟩ :=
    createLoan_quoted hquote hperiod hcreate
  subst hid
  refine ⟨hquoted, ?_⟩
  have hcreated : LoanLife anything loan.id d₀
      ((createLoan loan.id userId loanPeriodId amount notes adminFeeRate today).after d₀) := by
    have hstart : LoanLife anything loan.id d₀ d₀ := .start
    have hcall := hstart.call
      (.createLoan loan.id userId loanPeriodId amount notes adminFeeRate today) trivial
    rwa [LoanCall.program, Prog.after_bind_pure] at hcall
  obtain ⟨hlinked₁, hopened⟩ := hcreated.simulates h₀.linked
  obtain ⟨hlinked, hsteps⟩ := hlife.simulates hlinked₁
  rw [h₀.file_eq_empty hfresh] at hopened
  have hstored : (((createLoan loan.id userId loanPeriodId amount notes adminFeeRate today).after
      d₀).file loan.id).Quoted quote := by
    rw [hafter, file_insertLoan hfresh hfound, if_pos rfl]
    exact ⟨loan, loanPeriod, rfl, htenor, hquoted⟩
  obtain ⟨loan', loanPeriod', hloan', htenor', hquoted'⟩ :
      (d.file loan.id).Quoted quote := hsteps.keeps LoanFile.Step.quoted hstored
  obtain ⟨-, loan₁, loanPeriod₁, rs, hloan₁, hschedule, -, -, hinstallments⟩ :=
    disburseLoan_file hlinked
      (LoanFile.Steps.kept (hopened.trans hsteps) LoanFile.empty_kept).orderly hdisburse
  obtain ⟨rfl, rfl⟩ := Prod.mk.inj (Option.some.inj (hloan'.symm.trans hloan₁))
  rw [← rows_of_file, hinstallments, List.map_map]
  rw [← htenor'] at hschedule
  have hasked := quote.askedBy_schedule hquoted' hschedule
  rwa [← List.map_id rs] at hasked

/-- 3,000,000 over three months, quoted, requested, approved and disbursed. -/
theorem quote_is_paid_threeMillion :
    ∃ (quote : CalculateLoanResponse) (loan : Loan),
      (calculateLoan 1 3000000 (2 / 100)).result seeded = .ok quote ∧ loan.Quoted quote ∧
      quote.AskedBy (((handOut.after (approved 3000000 1)).rows .installments).filter
        fun i => i.loanId = 1) := by
  have hquote : ((calculateLoan 1 3000000 (2 / 100)).result seeded).isOk = true := by
    decide +kernel
  have hcreate : ((createLoan 1 3 1 3000000 none (2 / 100) ⟨2026, 1, 5⟩).result
      seeded).isOk = true := by
    decide +kernel
  have hok : handOut.result (approved 3000000 1) = .ok () := by decide +kernel
  obtain ⟨quote, hquote⟩ := exists_ok_of_isOk hquote
  obtain ⟨loan, hcreate⟩ := exists_ok_of_isOk hcreate
  have hlife : LoanLife anything 1
      ((createLoan 1 3 1 3000000 none (2 / 100) ⟨2026, 1, 5⟩).after seeded) (approved 3000000 1) := by
    rw [← Prog.after_bind_pure _ fun _ => ()]
    exact LoanLife.start.call (.approveLoan 1 none 1 ⟨2026, 1, 6⟩) trivial
  obtain ⟨hquoted, hasked⟩ := quote_is_paid seeded_foreignKeys hquote rfl hcreate hlife hok
  exact ⟨quote, loan, hquote, hquoted, hasked⟩

end LumbungMesari
