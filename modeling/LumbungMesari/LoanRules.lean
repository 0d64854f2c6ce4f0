import LumbungMesari.Loans
import LumbungMesari.IncomeRules
import LumbungMesari.Amounts

/-!
# Rules for loans

What the statements of the loans repository, and the functions of the service over them, add to a
transaction.
-/

namespace LumbungMesari

open Sql Js
open Prog (inTrx onPool commitTrx)

variable {S : Contract Database LockTarget Label} {d : Database} {s : Trx}

theorem updateOrThrow_wp {label : Label} {t : TableName} {id : Uuid}
    {set : Row t → Except Error (Row t)} {notFound : Error} {Q : Row t → Database → Trx → Prop}
    (ht : t ≠ .cashbookTransactions)
    (h : ∀ d' old new l, S.env s.locks d d' → (s.view d').find t id = some old →
      set old = .ok new → Updated (s.view d') t old new → S.allows label (s.view d') →
      (LockTarget.row t (Row.id t new), LockMode.noKeyUpdate) ∈ l →
      Q new d' (s.extend [.update t new] l)) :
    (updateOrThrow label id set notFound).wp S Q d s := by
  unfold updateOrThrow
  rw [Prog.wp_bind']
  refine wp_updateById (fun d' l _ _ => trivial)
    fun d' old new ws l henv hfind hset hupdate hallowed hneeds => ?_
  obtain ⟨hupdated, rfl⟩ := updateRow_plain ht hupdate
  exact h d' old new l henv hfind hset hupdated hallowed (hneeds (List.mem_singleton_self _))

/-! ### Settlement -/

section Settlement

variable (ids : SettleIds) (installment : Installment)

/-- The principal of a settled installment goes to capital. -/
def principalIncome : IncomeSpec where
  data := ⟨"Pembayaran pokok angsuran", installment.principalAmount.toRat, none,
    some installment.id, none, none, s!"Cicilan ke-{installment.installmentNumber}"⟩
  ids := ids.principal
  destination := .capital

/-- The interest goes to SHU. -/
def interestIncome : IncomeSpec where
  data := ⟨"Bunga angsuran", installment.interestAmount.toRat, none, some installment.id, none, none,
    s!"Bunga angsuran dari cicilan ke-{installment.installmentNumber}"⟩
  ids := ids.interest
  destination := .shu

/-- So does the penalty, if there is one. -/
def penaltyIncome : IncomeSpec where
  data := ⟨"Denda angsuran", installment.penaltyAmount.toRat, none, some installment.id, none, none,
    s!"Denda angsuran dari cicilan ke-{installment.installmentNumber}"⟩
  ids := ids.penalty
  destination := .shu

/-- The incomes of a settled installment. -/
def installmentIncomes : List IncomeSpec :=
  [principalIncome ids installment, interestIncome ids installment] ++
    if 0 < installment.penaltyAmount.toRat then [penaltyIncome ids installment] else []

/-- What a settled installment posts. -/
def installmentPostings : List (Direction × Money × Money) :=
  [(.in_, 0, installment.principalAmount), (.in_, installment.interestAmount, 0)] ++
    if 0 < installment.penaltyAmount.toRat then [(.in_, installment.penaltyAmount, 0)] else []

def forInstallment (id : Uuid) (inc : Income) : Bool := inc.installmentId = some id

variable {ids installment}

theorem principalIncome_posts {inc : Income} {r : CashbookTransaction}
    (h : Recorded d (principalIncome ids installment).data ids.principal .capital inc r) :
    (r.direction, r.shuAmount, r.capitalAmount) =
      ((.in_, 0, installment.principalAmount) : Direction × Money × Money) := by
  obtain ⟨hshu, hcapital⟩ := h.amounts (m := installment.principalAmount) rfl
  rw [h.direction, hshu, hcapital]
  rfl

theorem shuIncome_posts {data : IncomeData} {ids : IncomeIds} {m : Money} {inc : Income}
    {r : CashbookTransaction} (h : Recorded d data ids .shu inc r) (hm : data.amount = m.toRat) :
    (r.direction, r.shuAmount, r.capitalAmount) =
      ((.in_, m, 0) : Direction × Money × Money) := by
  obtain ⟨hshu, hcapital⟩ := h.amounts hm
  rw [h.direction, hshu, hcapital]
  rfl

theorem installmentIncomes_post {ps : List (Income × CashbookTransaction)}
    (h : RecordedAll d (installmentIncomes ids installment) ps) :
    postedAmounts (ps.map Prod.snd) = installmentPostings installment ∧
      ∀ p ∈ ps, p.1.installmentId = some installment.id ∧ p.1.loanId = none := by
  unfold installmentIncomes at h
  unfold installmentPostings
  obtain - | @⟨_, _, _, inc₁, r₁, _, h₁, h⟩ := h
  obtain - | @⟨_, _, _, inc₂, r₂, _, h₂, h⟩ := h
  have hfirst := principalIncome_posts h₁
  have hsecond := shuIncome_posts (m := installment.interestAmount) h₂ rfl
  split at h
  · rename_i hpenalty
    obtain - | @⟨_, _, _, inc₃, r₃, _, h₃, h⟩ := h
    obtain - | _ := h
    have hthird := shuIncome_posts (m := installment.penaltyAmount) h₃ rfl
    refine ⟨?_, ?_⟩
    · simp only [postedAmounts, List.map_cons, List.map_nil, hfirst, hsecond, hthird,
        if_pos hpenalty]
      rfl
    · simp [h₁.income.installmentId, h₂.income.installmentId, h₃.income.installmentId,
        h₁.income.loanId, h₂.income.loanId, h₃.income.loanId, principalIncome, interestIncome,
        penaltyIncome]
  · rename_i hpenalty
    obtain - | _ := h
    refine ⟨?_, ?_⟩
    · simp only [postedAmounts, List.map_cons, List.map_nil, hfirst, hsecond, if_neg hpenalty]
      rfl
    · simp [h₁.income.installmentId, h₂.income.installmentId, h₁.income.loanId, h₂.income.loanId,
        principalIncome, interestIncome]

/-- A ledger row posts something, so an installment without principal or interest cannot be
settled. -/
theorem installmentIncomes_positive {ps : List (Income × CashbookTransaction)}
    (h : RecordedAll d (installmentIncomes ids installment) ps) :
    0 < installment.principalAmount.units ∧ 0 < installment.interestAmount.units := by
  unfold installmentIncomes at h
  obtain - | @⟨_, _, _, inc₁, r₁, _, h₁, h⟩ := h
  obtain - | @⟨_, _, _, inc₂, r₂, _, h₂, h⟩ := h
  obtain ⟨hshu₁, hcapital₁⟩ := h₁.amounts (m := installment.principalAmount) rfl
  obtain ⟨hshu₂, hcapital₂⟩ := h₂.amounts (m := installment.interestAmount) rfl
  have hpos₁ := r₁.amountsPositive
  have hpos₂ := r₂.amountsPositive
  rw [hshu₁, hcapital₁] at hpos₁
  rw [hshu₂, hcapital₂] at hpos₂
  simp only [principalIncome, interestIncome, reduceCtorEq, if_false, if_true, Numeric.units_zero,
    zero_add, add_zero] at hpos₁ hpos₂
  exact ⟨hpos₁, hpos₂⟩

end Settlement

theorem postInstallment_wp [S.Stable (W := Write)] {ids : SettleIds} {installment : Installment}
    {now : Date} {Q : Unit → Database → Trx → Prop}
    (h : ∀ d' ps l, S.env s.locks d d' →
      RecordedAll (s.view d') (installmentIncomes ids installment) ps →
      (recordings ps).flatMap needs ⊆ l → Q () d' (s.extend (recordings ps) l)) :
    (postInstallment ids installment now).wp S Q d s := by
  unfold postInstallment createInstallmentPrincipalIncome createInstallmentInterestIncome
    createInstallmentPenaltyIncome
  simp only [Prog.wp_bind']
  refine record_wp _ fun d₁ inc₁ r₁ l₁ henv₁ h₁ hneeds₁ => ?_
  refine record_wp _ fun d₂ inc₂ r₂ l₂ henv₂ h₂ hneeds₂ => ?_
  rw [Session.locks_extend] at henv₂
  rw [Session.view_extend] at h₂
  rw [extend_extend]
  have hhead : Recorded (s.view d₂) (principalIncome ids installment).data ids.principal .capital
      inc₁ r₁ := h₁.env henv₂ (List.subset_append_of_subset_right _ hneeds₁)
  have htwo : RecordedAll (s.view d₂) [principalIncome ids installment,
      interestIncome ids installment] [(inc₁, r₁), (inc₂, r₂)] := .cons hhead (.cons h₂ .nil)
  have hneeds : (recordings [(inc₁, r₁), (inc₂, r₂)]).flatMap needs ⊆ l₁ ++ l₂ := by
    simp only [recordings, List.flatMap_cons, List.flatMap_nil, List.append_nil,
      List.flatMap_append]
    exact List.append_subset.2 ⟨List.subset_append_of_subset_left _ hneeds₁,
      List.subset_append_of_subset_right _ hneeds₂⟩
  have hwrites : recording inc₁ r₁ ++ recording inc₂ r₂ =
      recordings [(inc₁, r₁), (inc₂, r₂)] := by
    simp [recordings]
  rw [hwrites]
  have henv := env_append henv₁ henv₂
  split
  · rename_i hpenalty
    simp only [Prog.wp_bind']
    refine record_wp _ fun d₃ inc₃ r₃ l₃ henv₃ h₃ hneeds₃ => ?_
    rw [Session.locks_extend] at henv₃
    rw [Session.view_extend] at h₃
    rw [extend_extend, Prog.wp_pure]
    have hthree : RecordedAll (s.view d₃) (installmentIncomes ids installment)
        ([(inc₁, r₁), (inc₂, r₂)] ++ [(inc₃, r₃)]) := by
      rw [installmentIncomes, if_pos hpenalty]
      have hpenaltyIncome : RecordedAll (applyAll (s.view d₃)
          (recordings [(inc₁, r₁), (inc₂, r₂)])) [penaltyIncome ids installment] [(inc₃, r₃)] :=
        .cons h₃ .nil
      exact (htwo.env henv₃ (List.subset_append_of_subset_right _ hneeds)).append hpenaltyIncome
    have hlast : recordings [(inc₁, r₁), (inc₂, r₂)] ++ recording inc₃ r₃ =
        recordings ([(inc₁, r₁), (inc₂, r₂)] ++ [(inc₃, r₃)]) := by
      simp [recordings]
    rw [hlast]
    refine h d₃ _ _ (env_append henv henv₃) hthree ?_
    rw [← hlast, List.flatMap_append]
    exact List.append_subset.2 ⟨List.subset_append_of_subset_left _ hneeds,
      List.subset_append_of_subset_right _ hneeds₃⟩
  · rename_i hpenalty
    rw [Prog.wp_pure]
    refine h d₂ _ _ henv ?_ hneeds
    rw [installmentIncomes, if_neg hpenalty, List.append_nil]
    exact htwo

/-- A settlement commits what it did to a row that it found unpaid and locked. -/
theorem settleInstallment_wp [S.Stable (W := Write)] {ids : SettleIds} {installmentId adminId : Uuid}
    {now : Date} {Q : Unit → Database → Trx → Prop}
    (h : ∀ d' i ps l, S.env [] d d' → d'.find .installments installmentId = some i →
      i.status ≠ .paid →
      RecordedAll (d'.apply (.update .installments (i.settle adminId now)))
        (installmentIncomes ids i) ps →
      S.guar l d' (applyAll (d'.apply (.update .installments (i.settle adminId now)))
        (recordings ps)) ∧
      Q () (applyAll (d'.apply (.update .installments (i.settle adminId now))) (recordings ps))
        .idle) :
    (settleInstallment ids installmentId adminId now).wp S Q d .idle := by
  unfold settleInstallment findInstallmentById settleInstallmentRow
  rw [Prog.wp_bind']
  refine wp_selectForUpdate fun d₁ l₁ henv₁ hlock₁ => ?_
  rw [Session.view_idle] at hlock₁ ⊢
  split
  · trivial
  rename_i i hi
  split
  · trivial
  rename_i hunpaid
  rw [hi] at hlock₁
  have hlock : (LockTarget.row .installments installmentId, LockMode.update) ∈ l₁ := by
    have hmine := hlock₁ (.row .installments i.id) (List.mem_singleton_self _)
    rwa [show i.id = installmentId from Database.find_id hi] at hmine
  rw [Prog.wp_bind']
  refine updateOrThrow_wp (by decide) fun d₂ i₂ new l₂ henv₂ hfind hset _ _ _ => ?_
  obtain rfl : i₂.settle adminId now = new := Except.ok.inj hset
  rw [Session.view_extend_nil, Session.view_idle] at hfind
  rw [Session.locks_extend] at henv₂
  have hkept : ∀ {d' : Database} {l : Locks}, S.env (Session.idle (W := Write).locks ++ l₁ ++ l) d₂ d' →
      d'.find .installments installmentId = some i₂ := by
    intro d' l henv
    rw [← hfind]
    exact (find_view_eq (s := .idle) henv (List.mem_append_left _ (List.mem_append_right _ hlock))
      rfl).symm
  obtain rfl : i = i₂ := by
    have hsame := find_view_eq (s := .idle) henv₂ (List.mem_append_right _ hlock) rfl
    rw [Session.view_idle, Session.view_idle, hi, hfind] at hsame
    exact Option.some.inj hsame
  rw [extend_extend, List.nil_append, Prog.wp_bind']
  refine postInstallment_wp fun d₃ ps l₃ henv₃ hrecorded hneeds₃ d₄ henv₄ => ?_
  rw [Session.locks_extend, ← List.append_assoc] at henv₃
  rw [Session.view_extend] at hrecorded
  rw [extend_extend, Session.locks_extend] at henv₄
  rw [extend_extend, Session.view_extend, applyAll_append]
  have henv₂₄ : S.env (Session.idle (W := Write).locks ++ l₁ ++ l₂) d₂ d₄ :=
    env_trans henv₃ (Contract.Stable.mono (W := Write)
      (by intro k hk; simp only [List.mem_append] at hk ⊢; tauto) henv₄)
  have hrecorded₄ : RecordedAll (d₄.apply (.update .installments (i.settle adminId now)))
      (installmentIncomes ids i) ps :=
    (RecordedAll.env (s := Session.idle.extend [_] []) hrecorded henv₄
      (by intro k hk; simp only [List.mem_append]; exact .inr (.inr (hneeds₃ hk))) :)
  refine h d₄ i ps _ ?_ (hkept henv₂₄) hunpaid hrecorded₄
  exact env_trans henv₁
    (env_trans (env_nil henv₂) (env_nil henv₂₄))

/-! ### Updates of one installment -/

section Updates

variable {i new : Installment}

theorem find_updateInstallment (new : Installment) (hfound : d.find .installments i.id = some i)
    (hid : new.id = i.id) (id : Uuid) : (d.apply (.update .installments new)).find .installments id =
      if id = i.id then some new else d.find .installments id := by
  rw [Database.find_update]
  by_cases he : id = i.id
  · subst he
    rw [if_pos rfl, if_pos hid, hfound]
    rfl
  · rw [if_neg he, if_neg fun hn => he (hn.symm.trans hid)]

theorem entries_updateInstallment (d : Database) (new : Installment) (p : Income → Bool) :
    (d.apply (.update .installments new)).entries p = d.entries p :=
  entries_congr (d.table_update_ne (t := .installments) (by decide) new)
    (d.table_update_ne (t := .installments) (by decide) new) p

theorem incomesExist_updateInstallment (h : d.IncomesExist) (new : Installment) :
    (d.apply (.update .installments new)).IncomesExist :=
  IncomesExist.congr h (d.table_update_ne (t := .installments) (by decide) new)
    (d.table_update_ne (t := .installments) (by decide) new)

end Updates

/-! ### The overdue job -/

/-- A row that the job has marked in a state: it is still there as it was when it was updated. -/
structure Marked (S : Contract Database LockTarget Label) (id : Uuid) (old : Installment)
    (d : Database) : Prop where
  found : d.find .installments id = some old
  allowed : ∃ d₁, S.env [] d₁ d ∧ d₁.find .installments id = some old ∧
    S.allows (.updateInstallmentStatus id) d₁

/-- A state with a row marked overdue. -/
def marking (old : Installment) (d : Database) : Database :=
  d.apply (.update .installments (old.setStatus .overdue))

/-- A penalty that the job has added in a state, on top of the mark. The row was picked, read and
updated by three statements. -/
structure Penalized (S : Contract Database LockTarget Label) (loanId : Uuid) (old cur new : Installment)
    (d : Database) : Prop where
  found : (marking old d).find .installments cur.id = some cur
  set : ∃ loan loanPeriod oldest current, ∃ d₁ d₂ d₃, S.env [] d₁ d ∧ S.env [] d₂ d ∧ S.env [] d₃ d ∧
    d₁.loanWithPeriod loanId = some (loan, loanPeriod) ∧
    (marking old d₂).oldestUnpenalized loanId = some oldest ∧ oldest.id = cur.id ∧
    (marking old d₃).find .installments cur.id = some current ∧
    penalized (current.penaltyAmount.plus (loan.penaltyAmount loanPeriod))
      (current.totalAmount.plus (loan.penaltyAmount loanPeriod)) cur = .ok new
  allowed : ∃ d₁, S.env [] d₁ d ∧ (marking old d₁).find .installments cur.id = some cur ∧
    S.allows (.addPenaltyToInstallment cur.id) (marking old d₁)

/-- What `countOverdueInstallmentsByLoanId` counts. -/
def Database.overdueCount (d : Database) (loanId : Uuid) : ℕ :=
  (d.rows .installments).countP fun r => r.loanId = loanId && r.status = .overdue

/-- Why the job has added no penalty to a loan: no other installment was overdue, none that was
overdue had no penalty, or the one that was picked was gone. -/
structure Unpenalized (S : Contract Database LockTarget Label) (loanId : Uuid) (old : Installment)
    (d : Database) : Prop where
  reason : (∃ d₁, S.env [] d₁ d ∧ d₁.overdueCount loanId = 0) ∨ ∃ d₁, S.env [] d₁ d ∧
    ∀ r, (marking old d₁).oldestUnpenalized loanId = some r → ∃ d₂, S.env [] d₁ d₂ ∧ S.env [] d₂ d ∧
      (marking old d₂).find .installments r.id = none

theorem penalized_ok {penaltyAmount totalAmount : ℚ} {r new : Installment}
    (h : penalized penaltyAmount totalAmount r = .ok new) :
    ∃ penalty total, Numeric.ofRat? penaltyAmount = some penalty ∧
      Numeric.ofRat? totalAmount = some total ∧
      new = { r with penaltyAmount := penalty, totalAmount := total } := by
  obtain ⟨penalty, hpenalty, h⟩ := bind_ok h
  obtain ⟨total, htotal, h⟩ := bind_ok h
  cases h
  exact ⟨penalty, total, money_ok hpenalty, money_ok htotal, rfl⟩

theorem penalized_toRat {x : Double} {r new : Installment}
    (h : penalized (r.penaltyAmount.plus x) (r.totalAmount.plus x) r = .ok new) :
    new.penaltyAmount.toRat = r.penaltyAmount.plus x ∧
      new.totalAmount.toRat = r.totalAmount.plus x := by
  obtain ⟨penalty, total, hpenalty, htotal, rfl⟩ := penalized_ok h
  exact ⟨Numeric.toRat_of_ofRat? hpenalty (Double.decimal_toFixed 4 _),
    Numeric.toRat_of_ofRat? htotal (Double.decimal_toFixed 4 _)⟩

theorem Money.plus_of_units {m : Money} (h : m.units = 0) (x : Double) : m.plus x = x.toFixed 4 := by
  rw [plus, Numeric.toRat, h, Int.cast_zero, zero_div, Double.ofRat_zero, Double.zero_add]

theorem Money.plus_nonneg {m : Money} {x : Double} (hm : 0 ≤ m.units) (hx : 0 ≤ x.val) :
    0 ≤ m.plus x :=
  Double.toFixed_nonneg (Double.add_nonneg (nearest_nonneg (Numeric.toRat_nonneg.2 hm)) hx)

theorem Money.plus_ofRat (m : Money) {q : ℚ} (hq : Decimal 4 q) (hsmall : |q| ≤ 5 * 10 ^ 8) :
    m.plus (.ofRat q) = m.toRat + q := by
  have hsum : |m.toRat + q| ≤ 10 ^ 8 + 5 * 10 ^ 8 :=
    (abs_add_le _ _).trans (add_le_add (abs_le.2 ⟨m.neg_le_toRat, m.toRat_le⟩) hsmall)
  have hclose := m.within.add_amount (Double.within_amount (hsmall.trans (by norm_num)))
    (by linarith)
  exact hclose.toFixed (m.decimal_toRat.add hq) (by norm_num)

theorem Loan.penaltyAmount_nonneg {loan : Loan} {loanPeriod : LoanPeriod}
    (hprincipal : 0 ≤ loan.principalAmount.units) (hrate : 0 ≤ loanPeriod.interestRate.units) :
    0 ≤ (loan.penaltyAmount loanPeriod).val :=
  nearest_nonneg (decimal_nonneg
    (mul_nonneg (Numeric.toRat_nonneg.2 hprincipal) (Numeric.toRat_nonneg.2 hrate)))

/-- What the job commits for one loan: a mark, or a mark and a penalty. -/
theorem processLoanOverdueInstallments_wp [S.Stable (W := Write)] {loanId : Uuid}
    {installment : Installment} {Q : Unit → Database → Trx → Prop}
    (hmark : ∀ d' old l, S.env [] d d' → Marked S installment.id old d' →
      Unpenalized S loanId old d' → S.guar l d' (marking old d') ∧ Q () (marking old d') .idle)
    (hpenalize : ∀ d' old cur new l, S.env [] d d' → Marked S installment.id old d' →
      Penalized S loanId old cur new d' → (∃ d₁, S.env [] d₁ d' ∧ d₁.overdueCount loanId ≠ 0) →
      S.guar l d' ((marking old d').apply (.update .installments new)) ∧
        Q () ((marking old d').apply (.update .installments new)) .idle) :
    (processLoanOverdueInstallments loanId installment).wp S Q d .idle := by
  unfold processLoanOverdueInstallments findLoanById countOverdueInstallmentsByLoanId
    updateInstallmentStatus findOldestUnpenalizedOverdueInstallment addPenaltyToInstallment
  rw [Prog.wp_bind']
  refine wp_selectOnPool fun d₁ henv₁ => ?_
  split
  · trivial
  rename_i loan loanPeriod hloan
  rw [Prog.wp_bind']
  refine wp_select fun d₂ henv₂ => ?_
  rw [Prog.wp_bind']
  refine updateOrThrow_wp (by decide)
    fun d₃ old marked l₃ henv₃ hfind₃ hset hupdated hallowed₃ hlock₃ => ?_
  obtain rfl : old.setStatus .overdue = marked := Except.ok.inj hset
  rw [Session.view_idle] at hfind₃ hallowed₃
  have hrow : (LockTarget.row .installments installment.id, LockMode.noKeyUpdate) ∈ l₃ := by
    have hid : Row.id .installments (old.setStatus .overdue) = installment.id :=
      show old.id = installment.id from Database.find_id hfind₃
    rwa [hid] at hlock₃
  have henv₀ := env_trans henv₁ (env_trans henv₂ henv₃)
  have hmarked : ∀ {d' : Database}, S.env l₃ d₃ d' → Marked S installment.id old d' := by
    intro d' henv
    refine ⟨?_, d₃, env_nil henv, hfind₃, hallowed₃⟩
    rw [← hfind₃]
    exact (find_view_eq (s := .idle) henv hrow rfl).symm
  have hdone : ∀ {d' : Database} {l : Locks}, S.env l₃ d₃ d' →
      (∀ d'', S.env [] d' d'' → Unpenalized S loanId old d'') → (commitTrx : Program Unit).wp S Q d'
      (Session.idle.extend [.update .installments (old.setStatus .overdue)] (l₃ ++ l)) := by
    intro d' l henv hreason
    refine Prog.wp_commitTrx.2 fun d'' henv' => ?_
    have henv'' := env_append henv henv'
    exact hmark d'' old _ (env_trans henv₀ (env_nil henv'')) (hmarked henv'')
      (hreason d'' (env_nil henv'))
  dsimp only
  split
  · rename_i hcount
    have hcount : d₂.overdueCount loanId ≠ 0 :=
      Nat.one_le_iff_ne_zero.1 (Nat.le_of_succ_le_succ hcount)
    rw [Prog.wp_bind']
    refine wp_select fun d₄ henv₄ => ?_
    have henv₃₄ : S.env l₃ d₃ d₄ := henv₄
    split
    · rename_i hnone
      have hthere := hdone (l := []) henv₃₄ fun d'' henv => ⟨.inr ⟨d₄, henv, fun r hr => by
        cases hnone.symm.trans hr⟩⟩
      rwa [List.append_nil] at hthere
    rename_i oldest holdest
    rw [Prog.wp_bind', Prog.wp_bind']
    refine wp_select fun d₅ henv₅ => ?_
    have henv₃₅ : S.env l₃ d₃ d₅ := env_trans henv₃₄ henv₅
    split
    · trivial
    rename_i current hcurrent
    refine wp_updateById (fun d₆ l₆ henv₆ hgone => ?_)
      fun d₆ cur new ws l₆ henv₆ hfind₆ hset₆ hupdate₆ hallowed₆ hneeds₆ => ?_
    · rw [extend_extend, List.append_nil]
      have henv₄₆ : S.env [] d₄ d₆ :=
        env_nil (l := l₃) (env_trans henv₅ henv₆)
      exact hdone (env_trans henv₃₅ henv₆) fun d'' henv =>
        ⟨.inr ⟨d₄, env_trans henv₄₆ henv, fun r hr => by
          obtain rfl : oldest = r := Option.some.inj (holdest.symm.trans hr)
          exact ⟨d₆, henv₄₆, henv, hgone⟩⟩⟩
    obtain ⟨-, rfl⟩ := updateRow_plain (by decide) hupdate₆
    have hid : cur.id = oldest.id := Database.find_id hfind₆
    have henv₃₆ : S.env l₃ d₃ d₆ := env_trans henv₃₅ henv₆
    rw [extend_extend]
    refine Prog.wp_commitTrx.2 fun d₇ henv₇ => ?_
    rw [Session.locks_extend] at henv₇
    have henv₆₇ : S.env (l₃ ++ l₆) d₆ d₇ := henv₇
    have henv₃₇ : S.env l₃ d₃ d₇ := env_append henv₃₆ henv₆₇
    have hlast : ∀ {d' : Database}, S.env l₃ d' d₇ → S.env [] d' d₇ := env_nil
    rw [← hid] at hfind₆ hallowed₆ hcurrent
    have hkept : (marking old d₇).find .installments cur.id = some cur := by
      have hlock : (LockTarget.row .installments cur.id, LockMode.noKeyUpdate) ∈ l₃ ++ l₆ := by
        obtain ⟨_, _, _, _, rfl⟩ := penalized_ok hset₆
        exact List.mem_append_right _ (hneeds₆ (List.mem_singleton_self _))
      rw [← hfind₆]
      exact (find_view_eq (s := Session.idle.extend
        [.update .installments (old.setStatus .overdue)] []) henv₆₇ hlock rfl).symm
    refine hpenalize d₇ old cur new _ (env_trans henv₀ (hlast henv₃₇))
      (hmarked henv₃₇) ⟨hkept, ?_, d₆, env_nil henv₆₇, hfind₆, hallowed₆⟩
      ⟨d₂, env_trans henv₃ (hlast henv₃₇), hcount⟩
    have henv₆₇' : S.env l₃ d₆ d₇ := Contract.Stable.mono (W := Write)
      (List.subset_append_left ..) henv₆₇
    have henv₅₇ : S.env l₃ d₅ d₇ := env_trans henv₆ henv₆₇'
    refine ⟨loan, loanPeriod, oldest, current, d₁, d₄, d₅, ?_, ?_, hlast henv₅₇, hloan, holdest,
      hid.symm, hcurrent, hset₆⟩
    · exact env_trans henv₂ (env_trans henv₃
        (hlast henv₃₇))
    · exact hlast (env_trans henv₅ henv₅₇)
  · rename_i hcount
    have hcount : d₂.overdueCount loanId = 0 := Nat.lt_one_iff.1 (Nat.lt_of_succ_lt_succ
      (Nat.lt_of_not_le hcount))
    have hhere := hdone (l := []) (Contract.Stable.refl (W := Write) l₃ d₃) fun d'' henv =>
      ⟨.inl ⟨d₂, env_trans henv₃ henv, hcount⟩⟩
    rwa [List.append_nil] at hhere

end LumbungMesari
