import LumbungMesari.Ranges
import LumbungMesari.Seeds
import LumbungMesari.Settlements

/-!
# Room for money

In every state the services can reach, the settlement of something unpaid commits exactly when the
balances it goes to have room for it. Nothing keeps that room: the balances grow with every
settlement, and their columns end at 10⁸.
-/

namespace LumbungMesari

open Sql
open Prog (inTrx commitTrx)

/-- A call returns, and the balances it leaves fit their columns. The snapshots of a ledger row fit by
their type. -/
def Commits (p : Program Unit) (d : Database) : Prop := p.result d = .ok () ∧ (p.after d).InRange

/-- The ids that are drawn for incomes and their ledger rows are new. -/
structure FreshIds (d : Database) (ids : List IncomeIds) : Prop where
  incomes : ∀ x ∈ ids, d.find .incomes x.income = none
  incomeIds : (ids.map (·.income)).Nodup
  ledger : ∀ x ∈ ids, d.find .cashbookTransactions x.ledger = none
  ledgerIds : (ids.map (·.ledger)).Nodup

/-- Every seeded income category is there. -/
def CategoriesSeeded (d : Database) : Prop :=
  ∀ c ∈ seededIncomeCategories, ∃ c' ∈ d.rows .incomeCategories, c'.code = c.code

section Receipts

variable {d : Database} {xs : List Receipt} {ps : List (Income × CashbookTransaction)}

theorem RecordedAll.balances_receipts (h : RecordedAll d (xs.map (·.spec)) ps) (b : BalanceType) :
    (applyAll d (recordings ps)).balances b = d.balances b + (xs.map (Receipt.adds b)).sum := by
  rw [h.balances]
  congr 1
  induction xs generalizing d ps with
  | nil =>
      cases h
      rfl
  | cons x xs ih =>
      cases h with
      | @cons _ _ _ inc r ps head tail =>
          rw [List.map_cons, List.sum_cons, List.map_cons, List.sum_cons, Receipt.signed_eq head,
            ih tail]

theorem recordable {t : TableName} {new : Row t} (ht : t ≠ .incomeCategories) (ht' : t ≠ .incomes)
    (ht'' : t ≠ .cashbookTransactions) (hrange : d.InRange) (hseeded : CategoriesSeeded d)
    (hcodes : ∀ x ∈ xs, ∃ c ∈ seededIncomeCategories, c.code = x.code)
    (hids : FreshIds d (xs.map (·.spec.ids)))
    (hreferences : ∀ x ∈ xs, ∀ ref ∈ x.spec.data.references,
      (d.apply (.update t new)).find ref.1 ref.2 ≠ none)
    (hpositive : ∀ x ∈ xs, 0 < x.amount.units)
    (hroom : ∀ b, d.balances b + (xs.map (Receipt.adds b)).sum < 10 ^ 12) :
    Recordable (d.apply (.update t new)) xs where
  categories x hx := by
    obtain ⟨c, hc, hcode⟩ := hcodes x hx
    obtain ⟨c', hc', hcode'⟩ := hseeded c hc
    rw [Database.rows, d.table_update_ne ht]
    exact ⟨c', hc', hcode'.trans hcode⟩
  incomes x hx := by
    rw [Database.find_congr (d.table_update_ne ht' new)]
    exact hids.incomes _ (List.mem_map_of_mem hx)
  incomeIds := by
    have hnodup := hids.incomeIds
    rwa [List.map_map] at hnodup
  ledger x hx := by
    rw [Database.find_congr (d.table_update_ne ht'' new)]
    exact hids.ledger _ (List.mem_map_of_mem hx)
  ledgerIds := by
    have hnodup := hids.ledgerIds
    rwa [List.map_map] at hnodup
  references := hreferences
  positive := hpositive
  range := hrange
  room := hroom

end Receipts

/-! ### Mandatory savings -/

section Savings

variable {d : Database} {ids : IncomeIds} {m : MandatorySavings} {adminId : Uuid} {now : Date}

/-- What a settlement of unpaid savings that runs alone leaves when it returns. -/
theorem settleMandatorySavings_after (hfound : d.find .mandatorySavings m.id = some m)
    (hok : (settleMandatorySavings ids m.id adminId now).result d = .ok ()) :
    ∃ ps, RecordedAll (d.apply (.update .mandatorySavings (m.settle adminId now)))
        [(savingsReceipt ids m).spec] ps ∧
      (settleMandatorySavings ids m.id adminId now).after d =
        applyAll (d.apply (.update .mandatorySavings (m.settle adminId now))) (recordings ps) := by
  have hwp : (settleMandatorySavings ids m.id adminId now).wp (Prog.alone fun _ _ => True)
      (fun _ d' _ => ∃ ps, RecordedAll (d.apply (.update .mandatorySavings (m.settle adminId now)))
          [(savingsReceipt ids m).spec] ps ∧
        d' = applyAll (d.apply (.update .mandatorySavings (m.settle adminId now)))
          (recordings ps)) d .idle := by
    unfold settleMandatorySavings findMandatorySavingsById updateMandatorySavings
    rw [Prog.wp_bind']
    refine wp_select fun d₁ henv₁ => ?_
    obtain rfl : d = d₁ := henv₁
    rw [Session.view_idle, hfound]
    dsimp only
    split
    · trivial
    rw [Prog.wp_bind']
    refine updateOrThrow_wp (by decide) fun d₂ old new l henv₂ hfind hset _ _ _ => ?_
    obtain rfl : d = d₂ := henv₂
    rw [Session.view_idle, hfound, Option.some.injEq] at hfind
    subst hfind
    obtain rfl := Except.ok.inj hset
    unfold createMandatorySavingsIncome
    simp only [Prog.wp_bind']
    refine record_wp ids fun d₃ inc r l₃ henv₃ hrecorded _ d₄ henv₄ => ⟨trivial, [(inc, r)], ?_⟩
    obtain rfl : d = d₃ := henv₃
    obtain rfl : d = d₄ := henv₄
    rw [Session.view_extend] at hrecorded ⊢
    rw [Session.view_extend]
    exact ⟨.single hrecorded, by simp [recordings]⟩
  exact Prog.after_of_wp hwp hok

/-- What settled savings add to a balance. -/
def MandatorySavings.collected (m : MandatorySavings) : BalanceType → ℤ
  | .shu => 0
  | .capital | .total => m.amount.units

theorem sum_savingsReceipt (b : BalanceType) :
    ([savingsReceipt ids m].map (Receipt.adds b)).sum = m.collected b := by
  rw [List.map_singleton, List.sum_singleton]
  cases b <;> rfl

theorem settleMandatorySavings_commits_iff (hinRange : d.InRange) (hseeded : CategoriesSeeded d)
    (hfound : d.find .mandatorySavings m.id = some m) (hunpaid : m.status ≠ .paid)
    (hadmin : d.find .users adminId ≠ none) (hids : FreshIds d [ids]) :
    Commits (settleMandatorySavings ids m.id adminId now) d ↔
      0 < m.amount.units ∧ ∀ b, d.balances b + m.collected b < 10 ^ 12 := by
  constructor
  · rintro ⟨hok, hrange⟩
    obtain ⟨ps, hrecorded, hafter⟩ := settleMandatorySavings_after hfound hok
    refine ⟨?_, fun b => ?_⟩
    · cases hrecorded with
      | @cons _ _ _ inc r _ head _ =>
          obtain ⟨hshu, hcapital⟩ := head.amounts (m := m.amount) rfl
          have hpositive := r.amountsPositive
          rw [hshu, hcapital] at hpositive
          simpa [savingsReceipt, savingsIncome] using hpositive
    · have hb := (hrange b).2
      have hreceipts : RecordedAll _ ([savingsReceipt ids m].map (·.spec)) ps := hrecorded
      rwa [hafter, hreceipts.balances_receipts, sum_savingsReceipt, Database.balances_update] at hb
  · rintro ⟨hpositive, hroom⟩
    have hsettled : (d.apply (.update .mandatorySavings (m.settle adminId now))).find
        .mandatorySavings m.id ≠ none :=
      Database.find_update_ne_none _ (by simp [hfound])
    have hrecordable : Recordable (d.apply (.update .mandatorySavings (m.settle adminId now)))
        [savingsReceipt ids m] := by
      refine recordable (by decide) (by decide) (by decide) hinRange hseeded ?_ hids ?_ ?_ fun b => ?_
      · rw [List.forall_mem_singleton]
        exact ⟨⟨2, "mandatory_savings"⟩, by simp [seededIncomeCategories], rfl⟩
      · rw [List.forall_mem_singleton]
        intro ref href
        obtain rfl : ref = (.mandatorySavings, m.id) := by
          simpa [savingsReceipt, savingsIncome, IncomeData.references] using href
        exact hsettled
      · rwa [List.forall_mem_singleton]
      · rw [sum_savingsReceipt]
        exact hroom b
    have hthrows : (settleMandatorySavings ids m.id adminId now).Throws (fun _ => False) d .idle :=
      settleMandatorySavings_throws hfound hunpaid hadmin fun e he =>
        hrecordable.records (.here he)
    obtain ⟨⟨⟩, hok⟩ := hthrows.returns
    exact ⟨hok, (tame_settleMandatorySavings.after ⟨hinRange, rfl⟩).inRange⟩

end Savings

/-! ### Installments -/

section Installments

variable {d : Database} {ids : SettleIds} {i : Installment} {adminId : Uuid} {now : Date}

/-- What a settled installment adds to a balance. -/
def Installment.collected (i : Installment) : BalanceType → ℤ
  | .shu => i.interestAmount.units + max i.penaltyAmount.units 0
  | .capital => i.principalAmount.units
  | .total => i.principalAmount.units + i.interestAmount.units + max i.penaltyAmount.units 0

theorem sum_installmentReceipts (b : BalanceType) :
    ((installmentReceipts ids i).map (Receipt.adds b)).sum = i.collected b := by
  unfold installmentReceipts
  split
  · rename_i hpenalty
    rw [Numeric.toRat_pos] at hpenalty
    cases b <;>
      simp [Installment.collected, Receipt.adds, principalReceipt, interestReceipt, penaltyReceipt,
        principalIncome, interestIncome, penaltyIncome, IncomeDestination.balance, hpenalty.le,
        add_assoc]
  · rename_i hpenalty
    rw [Numeric.toRat_pos, not_lt] at hpenalty
    cases b <;>
      simp [Installment.collected, Receipt.adds, principalReceipt, interestReceipt, principalIncome,
        interestIncome, IncomeDestination.balance, hpenalty]

theorem specs_installmentReceipts :
    (installmentReceipts ids i).map (·.spec) = installmentIncomes ids i := by
  unfold installmentReceipts installmentIncomes
  split <;> rfl

theorem mem_installmentReceipts {x : Receipt} (hx : x ∈ installmentReceipts ids i) :
    x = principalReceipt ids i ∨ x = interestReceipt ids i ∨
      x = penaltyReceipt ids i ∧ 0 < i.penaltyAmount.units := by
  rw [installmentReceipts, List.mem_append, List.mem_cons, List.mem_singleton] at hx
  rcases hx with (hx | hx) | hx
  · exact .inl hx
  · exact .inr (.inl hx)
  · split at hx
    · exact .inr (.inr ⟨List.mem_singleton.1 hx, Numeric.toRat_pos.1 ‹_›⟩)
    · cases hx

theorem FreshIds.receipts (h : FreshIds d [ids.principal, ids.interest, ids.penalty]) :
    FreshIds d ((installmentReceipts ids i).map (·.spec.ids)) := by
  have hsub : ((installmentReceipts ids i).map (·.spec.ids)).Sublist
      [ids.principal, ids.interest, ids.penalty] := by
    unfold installmentReceipts
    split
    · exact List.Sublist.refl _
    · exact (List.sublist_append_left [ids.principal, ids.interest] [ids.penalty])
  exact ⟨fun x hx => h.incomes x (hsub.subset hx), h.incomeIds.sublist (hsub.map _),
    fun x hx => h.ledger x (hsub.subset hx), h.ledgerIds.sublist (hsub.map _)⟩

theorem settleInstallment_after (hfound : d.find .installments i.id = some i)
    (hok : (settleInstallment ids i.id adminId now).result d = .ok ()) :
    ∃ ps, RecordedAll (d.apply (.update .installments (i.settle adminId now)))
        (installmentIncomes ids i) ps ∧
      (settleInstallment ids i.id adminId now).after d =
        applyAll (d.apply (.update .installments (i.settle adminId now))) (recordings ps) := by
  have hwp : (settleInstallment ids i.id adminId now).wp (Prog.alone fun _ _ => True)
      (fun _ d' _ => ∃ ps, RecordedAll (d.apply (.update .installments (i.settle adminId now)))
          (installmentIncomes ids i) ps ∧
        d' = applyAll (d.apply (.update .installments (i.settle adminId now)))
          (recordings ps)) d .idle := by
    refine settleInstallment_wp fun d' i' ps l henv hfind _ hrecorded => ?_
    obtain rfl : d = d' := henv
    obtain rfl : i = i' := Option.some.inj (hfound.symm.trans hfind)
    exact ⟨trivial, ps, hrecorded, rfl⟩
  exact Prog.after_of_wp hwp hok

theorem settleInstallment_commits_iff (hinRange : d.InRange) (hseeded : CategoriesSeeded d)
    (hfound : d.find .installments i.id = some i) (hunpaid : i.status ≠ .paid)
    (hprincipal : 0 < i.principalAmount.units) (hinterest : 0 < i.interestAmount.units)
    (hadmin : d.find .users adminId ≠ none)
    (hids : FreshIds d [ids.principal, ids.interest, ids.penalty]) :
    Commits (settleInstallment ids i.id adminId now) d ↔
      ∀ b, d.balances b + i.collected b < 10 ^ 12 := by
  constructor
  · rintro ⟨hok, hrange⟩ b
    obtain ⟨ps, hrecorded, hafter⟩ := settleInstallment_after hfound hok
    have hb := (hrange b).2
    rw [← specs_installmentReceipts] at hrecorded
    rwa [hafter, hrecorded.balances_receipts, sum_installmentReceipts, Database.balances_update] at hb
  · intro hroom
    have hsettled : (d.apply (.update .installments (i.settle adminId now))).find .installments
        i.id ≠ none := Database.find_update_ne_none _ (by simp [hfound])
    have hrecordable : Recordable (d.apply (.update .installments (i.settle adminId now)))
        (installmentReceipts ids i) := by
      refine recordable (by decide) (by decide) (by decide) hinRange hseeded (fun x hx => ?_)
        hids.receipts (fun x hx ref href => ?_) (fun x hx => ?_) fun b => ?_
      · rcases mem_installmentReceipts hx with rfl | rfl | ⟨rfl, -⟩
        · exact ⟨⟨6, "installment_principal"⟩, by simp [seededIncomeCategories], rfl⟩
        · exact ⟨⟨3, "loan_interest"⟩, by simp [seededIncomeCategories], rfl⟩
        · exact ⟨⟨5, "late_payment_penalty"⟩, by simp [seededIncomeCategories], rfl⟩
      · obtain rfl : ref = (.installments, i.id) := by
          rcases mem_installmentReceipts hx with rfl | rfl | ⟨rfl, -⟩ <;>
            simpa [principalReceipt, principalIncome, interestReceipt, interestIncome,
              penaltyReceipt, penaltyIncome, IncomeData.references] using href
        exact hsettled
      · rcases mem_installmentReceipts hx with rfl | rfl | ⟨rfl, hpenalty⟩
        · exact hprincipal
        · exact hinterest
        · exact hpenalty
      · rw [sum_installmentReceipts]
        exact hroom b
    have hthrows : (settleInstallment ids i.id adminId now).Throws (fun _ => False) d .idle :=
      settleInstallment_throws hfound hunpaid hadmin fun e he => hrecordable.records he
    obtain ⟨⟨⟩, hok⟩ := hthrows.returns
    exact ⟨hok, (tame_settleInstallment.after ⟨hinRange, rfl⟩).inRange⟩

end Installments

/-! ### Reachable states -/

/-- **Collecting commits exactly where there is room for the money**, in every state the services can
reach. -/
theorem collecting_commits_iff {d₀ : Database} (h₀ : d₀.InRange) (hseeded : CategoriesSeeded d₀)
    {s : Sys Database Write LockTarget Label Error ServiceCall}
    (hreach : Sys.Reach ServiceCall.program (Sys.start d₀) s) {adminId : Uuid}
    (hadmin : s.committed.find .users adminId ≠ none) (now : Date) :
    (∀ m ids, s.committed.find .mandatorySavings m.id = some m → m.status ≠ .paid →
      FreshIds s.committed [ids] →
      (Commits (settleMandatorySavings ids m.id adminId now) s.committed ↔
        0 < m.amount.units ∧ ∀ b, s.committed.balances b + m.collected b < 10 ^ 12)) ∧
    ∀ i ids, s.committed.find .installments i.id = some i → i.status ≠ .paid →
      0 < i.principalAmount.units → 0 < i.interestAmount.units →
      FreshIds s.committed [ids.principal, ids.interest, ids.penalty] →
      (Commits (settleInstallment ids i.id adminId now) s.committed ↔
        ∀ b, s.committed.balances b + i.collected b < 10 ^ 12) := by
  have hsound := sound_of_reach h₀ hreach
  have hcategories : CategoriesSeeded s.committed := by
    intro c hc
    rw [Database.rows, hsound.categories]
    exact hseeded c hc
  exact ⟨fun m ids hfound hunpaid hids => settleMandatorySavings_commits_iff hsound.inRange
      hcategories hfound hunpaid hadmin hids,
    fun i ids hfound hunpaid hprincipal hinterest hids => settleInstallment_commits_iff
      hsound.inRange hcategories hfound hunpaid hprincipal hinterest hadmin hids⟩

/-! ### A year of savings -/

/-- The savings of the one active member for 2026 are created, and the first `n` of them settled. -/
def savingYear (amount : ℚ) (n : ℕ) : List (Event Error ServiceCall) :=
  (.call (.createYearlyMandatorySavingsForAllUsers utcOffset id (some amount)
    ⟨⟨2026, 1, 1⟩, .midnight⟩) ::
      List.replicate 3 (.run 0)) ++
    (List.range n).flatMap fun k =>
      .call (.settleMandatorySavings ⟨k, k⟩ k 1 ⟨2026, k + 1, 10⟩) ::
        List.replicate 7 (.run (k + 1))

/-- Unpaid savings, found under their id. -/
def unpaidSavings (d : Database) (id : Uuid) : Option MandatorySavings :=
  (d.find .mandatorySavings id).filter fun m => m.status ≠ .paid

theorem unpaidSavings_some {d : Database} {id : Uuid} {m : MandatorySavings}
    (h : unpaidSavings d id = some m) :
    m.id = id ∧ d.find .mandatorySavings m.id = some m ∧ m.status ≠ .paid := by
  obtain ⟨hfind, hunpaid⟩ := Option.filter_eq_some_iff.1 h
  have hid : m.id = id := Database.find_id hfind
  exact ⟨hid, hid.symm ▸ hfind, of_decide_eq_true hunpaid⟩

theorem freshIds_singleton {d : Database} {ids : IncomeIds}
    (hincome : d.find .incomes ids.income = none)
    (hledger : d.find .cashbookTransactions ids.ledger = none) : FreshIds d [ids] :=
  ⟨List.forall_mem_singleton.2 hincome, List.nodup_singleton _, List.forall_mem_singleton.2 hledger,
    List.nodup_singleton _⟩

theorem seeded_inRange : seeded.InRange := by
  intro b
  cases b <;> decide

theorem seeded_categories : CategoriesSeeded seeded := fun c hc => ⟨c, hc, rfl⟩

/-- At the default amount, the first settlement of the year commits. -/
theorem collecting_commits_firstSavings :
    ∃ s : Sys Database Write LockTarget Label Error ServiceCall, ∃ m : MandatorySavings,
      Sys.Reach ServiceCall.program (Sys.start seeded) s ∧ m.amount.units = 500000 * 10 ^ 4 ∧
      Commits (settleMandatorySavings ⟨0, 0⟩ m.id 1 ⟨2026, 1, 10⟩) s.committed := by
  have hexec : ((Sys.start seeded).exec ServiceCall.program (fun _ _ => true)
      (savingYear 500000 0)).any (fun s =>
        (unpaidSavings s.committed 0).any (·.amount.units = 500000 * 10 ^ 4) &&
        (s.committed.find .users 1).isSome &&
        (s.committed.balances .capital = 5000000 * 10 ^ 4 &&
          s.committed.balances .total = 5000000 * 10 ^ 4 && s.committed.balances .shu = 0) &&
        (s.committed.find .incomes 0 = none && s.committed.find .cashbookTransactions 0 = none)) =
      true := by
    decide +kernel
  obtain ⟨s, hs, h⟩ := Option.any_eq_true .. |>.1 hexec
  simp only [Bool.and_eq_true, decide_eq_true_eq] at h
  obtain ⟨⟨⟨hsavings, hadmin⟩, ⟨hcapital, htotal⟩, hshu⟩, hincome, hledger⟩ := h
  obtain ⟨m, hm, hamount⟩ := Option.any_eq_true .. |>.1 hsavings
  rw [decide_eq_true_eq] at hamount
  obtain ⟨-, hfound, hunpaid⟩ := unpaidSavings_some hm
  refine ⟨s, m, Sys.reach_of_exec hs, hamount, ((collecting_commits_iff seeded_inRange
    seeded_categories (Sys.reach_of_exec hs) (Option.isSome_iff_ne_none.1 hadmin) ⟨2026, 1, 10⟩).1 m
      ⟨0, 0⟩ hfound hunpaid (freshIds_singleton hincome hledger)).2 ⟨by omega, fun b => ?_⟩⟩
  cases b <;> simp [MandatorySavings.collected, hcapital, htotal, hshu, hamount]

/-- At 8,000,000 a month the twelfth settlement of the first year does not fit. -/
theorem december_overflows :
    ∃ s : Sys Database Write LockTarget Label Error ServiceCall, ∃ m : MandatorySavings,
      Sys.Reach ServiceCall.program (Sys.start seeded) s ∧
      s.committed.find .mandatorySavings m.id = some m ∧ m.status ≠ .paid ∧ 0 < m.amount.units ∧
      s.committed.find .users 1 ≠ none ∧ FreshIds s.committed [⟨11, 11⟩] ∧
      (settleMandatorySavings ⟨11, 11⟩ m.id 1 ⟨2026, 12, 10⟩).result s.committed =
        .error .numericFieldOverflow ∧
      ¬ Commits (settleMandatorySavings ⟨11, 11⟩ m.id 1 ⟨2026, 12, 10⟩) s.committed := by
  have hexec : ((Sys.start seeded).exec ServiceCall.program (fun _ _ => true)
      (savingYear 8000000 11)).any (fun s =>
        (unpaidSavings s.committed 11).any (fun m => 0 < m.amount.units) &&
        (s.committed.find .users 1).isSome &&
        (s.committed.find .incomes 11 = none && s.committed.find .cashbookTransactions 11 = none) &&
        (settleMandatorySavings ⟨11, 11⟩ 11 1 ⟨2026, 12, 10⟩).result s.committed =
          .error .numericFieldOverflow) = true := by
    decide +kernel
  obtain ⟨s, hs, h⟩ := Option.any_eq_true .. |>.1 hexec
  simp only [Bool.and_eq_true, decide_eq_true_eq] at h
  obtain ⟨⟨⟨hsavings, hadmin⟩, hincome, hledger⟩, hrefused⟩ := h
  obtain ⟨m, hm, hpositive⟩ := Option.any_eq_true .. |>.1 hsavings
  obtain ⟨hid, hfound, hunpaid⟩ := unpaidSavings_some hm
  refine ⟨s, m, Sys.reach_of_exec hs, hfound, hunpaid, of_decide_eq_true hpositive,
    Option.isSome_iff_ne_none.1 hadmin, freshIds_singleton hincome hledger, ?_, fun hcommits => ?_⟩
  · rw [hid]
    exact hrefused
  · rw [hid] at hcommits
    cases hrefused.symm.trans hcommits.1

end LumbungMesari
