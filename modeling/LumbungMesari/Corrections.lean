import LumbungMesari.Allocations
import LumbungMesari.ExpenseRuns
import LumbungMesari.Settlements

/-!
# Corrections within the balances

A correction of an expense gives back what its visible row has taken and posts the new amounts over
the balances that leaves, which are those the amounts were allocated against. So the trigger finds
what the allocation found, and the only limit of its own is that the columns have to hold what was
given back.
-/

namespace LumbungMesari

open Sql
open Prog (inTrx onPool commitTrx)

variable {d : Database} {s : Trx} {R : Error → Prop} {now : Date}

/-! ### Hiding a row -/

theorem updateRow_softDelete_eq (d : Database) (r : CashbookTransaction) :
    updateRow d .cashbookTransactions r (r.softDelete now) =
      .ok [.update .cashbookTransactions (r.softDelete now)] := by
  have hreferences : newReferences .cashbookTransactions r (r.softDelete now) = [] := by
    rw [newReferences, List.filter_eq_nil_iff]
    intro ref href
    rw [decide_eq_true_eq, not_not]
    exact href
  have hbalances : afterUpdate d .cashbookTransactions r (r.softDelete now) = .ok [] := by
    simp [afterUpdate, cashbookUpdateBalance, CashbookTransaction.softDelete]
    rfl
  rw [updateRow, hreferences, hbalances]
  rfl

theorem updateRows_eq {t : TableName} {set : Row t → Row t}
    (h : ∀ d old, updateRow d t old (set old) = .ok [.update t (set old)]) (d : Database)
    (rs : List (Row t)) : updateRows d t set rs = .ok ((rs.map set).map (.update t)) := by
  induction rs generalizing d with
  | nil => rfl
  | cons r rs ih =>
      rw [updateRows, h]
      change (updateRows (applyAll d [.update t (set r)]) t set rs >>= _) = _
      rw [ih]
      rfl

theorem throws_updateWhere {t : TableName} {p : Row t → Bool} {set : Row t → Row t}
    (h : ∀ d old, updateRow d t old (set old) = .ok [.update t (set old)]) :
    (inTrx (updateWhere t p set)).Throws R d s := by
  refine Prog.throws_inTrx fun e he => ?_
  simp only [updateWhere, statement, updateRows_eq h] at he
  cases he

/-! ### The ledger rows of a correction -/

/-- What the balances are when a row is given back. -/
def givenBack (balances : BalanceType → ℤ) (shu capital : Money) (b : BalanceType) : ℤ :=
  balances b + amountsOf shu capital b

theorem balances_givenBack {r : CashbookTransaction} (hr : r.Nonneg) (hin : r.direction = .in_) :
    (applyAll d r.postings).balances = givenBack d.balances r.shuAmount r.capitalAmount := by
  funext b
  rw [CashbookTransaction.balances_postings d hr, CashbookTransaction.signed, hin, givenBack]
  cases b <;> simp [Direction.sign, CashbookTransaction.amount, amountsOf]

section Rows

variable {original : CashbookTransaction} {id reversalId newId : Uuid} {ms mc : Money}

/-- The reversal of a row is an entry over the state it is found in. -/
theorem reversalEntry_over {v v' : Database} (hbalances : v'.balances = v.balances) :
    (reversalEntry (.expense id) original v.current).Over v' original.shuAmount
      original.capitalAmount := by
  constructor <;> simp [reversalEntry, afterReversal, Database.current, Database.balance,
    hbalances, Owner.direction, Direction.opposite, Direction.sign]
  ring

/-- The new row is an entry over the state the reversal leaves. -/
theorem correctedEntry_over {v v' : Database} {txnDate : Date}
    (hbalances : v'.balances = givenBack v.balances original.shuAmount original.capitalAmount) :
    (correctedEntry (.expense id) ms.toRat mc.toRat
      (afterReversal (.expense id) original v.current) txnDate).Over v' ms mc := by
  constructor <;> simp [correctedEntry, afterReversal, Database.current, Database.balance,
    Owner.direction, Direction.sign, hbalances, givenBack, amountsOf, Numeric.toRat] <;> ring

theorem find?_visible {o : Owner} (h : (d.owned o).filter (·.visible) = [original]) :
    (d.rows .cashbookTransactions).reverse.find? (fun r => o.owns r && r.visible) =
      some original := by
  have hfilter : (d.rows .cashbookTransactions).filter (fun r => o.owns r && r.visible) =
      [original] := by
    rw [← h, Database.owned, List.filter_filter]
    exact List.filter_congr fun r _ => Bool.and_comm ..
  rw [← List.head?_filter, List.filter_reverse, hfilter]
  rfl

theorem covered_givenBack (horiginal : original.Nonneg) (hrange : d.InRange) :
    Covered d.balances 1 original.shuAmount original.capitalAmount := by
  refine ⟨horiginal.shu, horiginal.capital, original.amountsPositive, fun b => ?_⟩
  have hb := (hrange b).1
  have hshu := horiginal.shu
  have hcapital := horiginal.capital
  cases b <;> simp only [amountsOf] <;> omega

theorem find_hidden_none {k : Uuid} (h : d.find .cashbookTransactions k = none) :
    (d.apply (.update .cashbookTransactions (original.softDelete now))).find .cashbookTransactions
      k = none := by
  rw [Database.find_update, h]
  split <;> rfl

theorem find_hidden_expenses {k : Uuid} :
    (d.apply (.update .cashbookTransactions (original.softDelete now))).find .expenses k =
      d.find .expenses k := by
  rw [Database.find_congr (d.table_update_ne (t := .cashbookTransactions) (by decide) _)]

theorem reversal_throws {v : Database}
    (hview : s.view d = v.apply (.update .cashbookTransactions (original.softDelete now)))
    (horiginal : original.Nonneg) (hrange : v.InRange) (hfound : v.find .expenses id ≠ none)
    (hduplicate : v.find .cashbookTransactions reversalId ≠ none → R .uniqueViolation)
    (hfull : ¬ Holds v.balances 1 original.shuAmount original.capitalAmount →
      R .numericFieldOverflow) :
    (createTransaction reversalId (reversalEntry (.expense id) original v.current)).Throws R d
      s := by
  have hbalances : (s.view d).balances = v.balances := by
    rw [hview]
    rfl
  refine createTransaction_throws original.shuAmount original.capitalAmount
    (reversalEntry_over hbalances) (by rwa [Database.InRange, hbalances])
    (by rw [hbalances]; exact covered_givenBack horiginal hrange) fun e he => ?_
  cases he with
  | duplicate taken =>
      rw [hview] at taken
      exact hduplicate fun hnone => taken (find_hidden_none hnone)
  | reference missing =>
      rw [hview] at missing
      exact absurd (find_hidden_expenses.symm.trans missing) hfound
  | overflow full =>
      rw [hbalances] at full
      exact hfull full

theorem correctedEntry_throws {v : Database} {reversal : CashbookTransaction} {txnDate : Date}
    (hview : s.view d = applyAll (v.apply (.update .cashbookTransactions (original.softDelete now)))
      reversal.postings)
    (hposted : Posted (v.apply (.update .cashbookTransactions (original.softDelete now))) reversal)
    (hstored : (reversalEntry (.expense id) original v.current).Stored reversalId reversal)
    (horiginal : original.Nonneg) (hrange : v.InRange) (hfound : v.find .expenses id ≠ none)
    (hcovered : Covered (givenBack v.balances original.shuAmount original.capitalAmount) (-1) ms mc)
    (hduplicate : v.find .cashbookTransactions newId ≠ none ∨ reversalId = newId →
      R .uniqueViolation) :
    (createTransaction newId (correctedEntry (.expense id) ms.toRat mc.toRat
      (afterReversal (.expense id) original v.current) txnDate)).Throws R d s := by
  have hnonneg : reversal.Nonneg := hstored.nonneg (Numeric.toRat_nonneg.2 horiginal.shu)
    (Numeric.toRat_nonneg.2 horiginal.capital)
  have hshu : reversal.shuAmount = original.shuAmount := ofRat?_toRat_eq hstored.shuAmount
  have hcapital : reversal.capitalAmount = original.capitalAmount :=
    ofRat?_toRat_eq hstored.capitalAmount
  have hbalances : (s.view d).balances =
      givenBack v.balances original.shuAmount original.capitalAmount := by
    rw [hview, balances_givenBack hnonneg hstored.direction, hshu, hcapital]
    rfl
  have hleft : (s.view d).InRange := by
    rw [hview]
    exact hposted.inRange hnonneg hrange
  refine createTransaction_throws ms mc (correctedEntry_over hbalances) hleft
    (by rwa [hbalances]) fun e he => ?_
  cases he with
  | duplicate taken =>
      refine hduplicate ?_
      by_contra hfree
      rw [not_or, not_not] at hfree
      refine taken ?_
      rw [hview, CashbookTransaction.find_postings, if_neg (hstored.id.trans_ne hfree.2)]
      exact find_hidden_none hfree.1
  | reference missing =>
      have hkept := CashbookTransaction.table_postings_ne (r := reversal) (t := .expenses)
        (v.apply (.update .cashbookTransactions (original.softDelete now))) (by decide)
      rw [hview] at missing
      exact absurd (find_hidden_expenses.symm.trans
        ((Database.find_congr hkept id).symm.trans missing)) hfound
  | overflow full =>
      refine absurd (Covered.holds ?_ fun b => (hleft b).2) full
      rwa [hbalances]

theorem updateTransaction_throws (original : CashbookTransaction) {notFound : Error}
    {txnDate : Option Date}
    (hvisible : ((s.view d).owned (.expense id)).filter (·.visible) = [original])
    (horiginal : original.Nonneg) (hrange : (s.view d).InRange)
    (hfound : (s.view d).find .expenses id ≠ none)
    (hcovered : Covered (givenBack (s.view d).balances original.shuAmount original.capitalAmount)
      (-1) ms mc)
    (hduplicate : (s.view d).find .cashbookTransactions reversalId ≠ none ∨
      (s.view d).find .cashbookTransactions newId ≠ none ∨ reversalId = newId →
      R .uniqueViolation)
    (hfull : ¬ Holds (s.view d).balances 1 original.shuAmount original.capitalAmount →
      R .numericFieldOverflow) :
    (updateTransaction reversalId newId (.expense id) notFound ms.toRat mc.toRat txnDate now).Throws
      R d s := by
  unfold updateTransaction findLatestActive
  refine Prog.throws_bind throws_select select_alone ?_
  rintro _ _ _ ⟨rfl, rfl, rfl⟩
  rw [find?_visible hvisible]
  dsimp only
  have hmem : original ∈ (s.view d).rows .cashbookTransactions ∧ original.visible = true := by
    have hlisted : original ∈ ((s.view d).owned (.expense id)).filter (·.visible) :=
      hvisible ▸ List.mem_singleton_self _
    exact ⟨(mem_owned.1 (List.mem_filter.1 hlisted).1).1, (List.mem_filter.1 hlisted).2⟩
  -- the balances are locked
  refine Prog.throws_bind (Q := fun current d' s' => current = (s.view d).current ∧ d = d' ∧
    ∃ l, s' = s.extend [] l) throws_selectForUpdate (lockAllForUpdate_wp fun d' l henv _ => ?_) ?_
  · obtain rfl : d = d' := henv
    exact ⟨rfl, rfl, l, rfl⟩
  rintro _ _ _ ⟨rfl, rfl, l, rfl⟩
  -- the row is hidden
  refine Prog.throws_bind (Q := fun _ d' s' => d = d' ∧ ∃ l, s' = s.extend
    [.update .cashbookTransactions (original.softDelete now)] l)
    (throws_updateWhere updateRow_softDelete_eq)
    (updateWhere_softDelete_wp fun d' rs l' henv hrs _ => ?_) ?_
  · obtain rfl : d = d' := henv
    rw [Session.view_extend_nil] at hrs
    obtain rfl : rs = [original] := hrs.symm.trans (filter_only hmem.1 hmem.2)
    exact ⟨rfl, l ++ l', extend_extend ..⟩
  rintro _ _ _ ⟨rfl, l, rfl⟩
  -- its reversal is posted
  refine Prog.throws_bind (Q := fun reversal d' s' => d = d' ∧
    Posted ((s.view d).apply (.update .cashbookTransactions (original.softDelete now))) reversal ∧
    (reversalEntry (.expense id) original (s.view d).current).Stored reversalId reversal ∧
    ∃ l, s' = s.extend (.update .cashbookTransactions (original.softDelete now) ::
      reversal.postings) l)
    (reversal_throws (Session.view_extend ..) horiginal hrange hfound
      (fun htaken => hduplicate (.inl htaken)) hfull)
    (createTransaction_wp fun d' reversal l' henv hstored hposted _ => ?_) ?_
  · obtain rfl : d = d' := henv
    rw [Session.view_extend] at hposted
    exact ⟨rfl, hposted, hstored, l ++ l', extend_extend ..⟩
  rintro reversal _ _ ⟨rfl, hposted, hstored, l, rfl⟩
  exact Prog.throws_of_returns (correctedEntry_throws (Session.view_extend ..) hposted hstored
    horiginal hrange hfound hcovered fun htaken => hduplicate (.inr htaken))
    fun _ _ _ _ => Prog.throws_pure _

end Rows

/-! ### New amounts -/

/-- New amounts of an expense: they are covered by what the balances are when the old ones are given
back, and fit the columns where these can hold that. -/
structure Reallocated (d : Database) (x : Expense) (a : Allocation) : Prop where
  decimal : a.Decimal
  covered : ∀ ms mc : Money, a.shuAmount = ms.toRat → a.capitalAmount = mc.toRat →
    Covered (givenBack d.balances x.shuAmount x.capitalAmount) (-1) ms mc
  fits : Holds d.balances 1 x.shuAmount x.capitalAmount →
    ∃ ms mc : Money, a.shuAmount = ms.toRat ∧ a.capitalAmount = mc.toRat

section Amounts

variable {x : Expense} {a : Allocation} {e : Error}

theorem toRat_injective {m m' : Money} (h : m.toRat = m'.toRat) : m = m' := by
  have hstored := Numeric.ofRat?_toRat m
  rw [h, Numeric.ofRat?_toRat] at hstored
  exact (Option.some.inj hstored).symm

theorem reallocated_existing (hrange : d.InRange) (hx : x.allocation.Nonneg) :
    Reallocated d x x.allocation where
  decimal := x.decimal_allocation
  covered ms mc hms hmc := by
    obtain rfl : x.shuAmount = ms := toRat_injective hms
    obtain rfl : x.capitalAmount = mc := toRat_injective hmc
    refine ⟨Numeric.toRat_nonneg.1 hx.1, Numeric.toRat_nonneg.1 hx.2, x.amountsPositive,
      fun b => ?_⟩
    have hb := (hrange b).1
    rw [givenBack]
    omega
  fits _ := ⟨_, _, rfl, rfl⟩

theorem balance_givenBack (d : Database) (x : Expense) :
    d.balance .shu + x.allocation.shuAmount =
        (givenBack d.balances x.shuAmount x.capitalAmount .shu : ℚ) / 10 ^ 4 ∧
      d.balance .capital + x.allocation.capitalAmount =
        (givenBack d.balances x.shuAmount x.capitalAmount .capital : ℚ) / 10 ^ 4 := by
  constructor <;> simp [Database.balance, Expense.allocation, givenBack, amountsOf,
    Numeric.toRat] <;> ring

theorem reallocated_of_sound {amount : ℚ} {source : ExpenseSource} (hamount : 0 < amount)
    (htotal : d.balances .total = d.balances .shu + d.balances .capital) (hdecimal : a.Decimal)
    (h : a.Sound amount source (d.balance .shu + x.allocation.shuAmount)
      (d.balance .capital + x.allocation.capitalAmount)) : Reallocated d x a := by
  rw [(balance_givenBack d x).1, (balance_givenBack d x).2] at h
  refine ⟨hdecimal, fun ms mc hms hmc => h.covered _ hamount hms hmc ?_, fun hholds => ?_⟩
  · simp only [givenBack, amountsOf, htotal]
    ring
  · have hshu := hholds .shu
    have hcapital := hholds .capital
    rw [one_mul] at hshu hcapital
    obtain ⟨ms, hms⟩ := exists_money hdecimal.1 h.nonneg.1 h.shuWithin hshu
    obtain ⟨mc, hmc⟩ := exists_money hdecimal.2 h.nonneg.2 h.capitalWithin hcapital
    exact ⟨ms, mc, hms.symm, hmc.symm⟩

/-- The new columns of an expense can only fail to hold its new amounts. -/
theorem UpdateExpense.set_error {data : UpdateExpense}
    (hamounts : ∀ a ∈ data.amounts, Reallocated d x a) (h : data.set x = .error e) :
    e = .numericFieldOverflow ∧ ¬ Holds d.balances 1 x.shuAmount x.capitalAmount := by
  rw [set] at h
  cases hdata : data.amounts with
  | none =>
      rw [hdata] at h
      simp only [Option.elim_none, pure_bind, dif_pos x.amountsPositive] at h
      cases h
  | some a =>
      rw [hdata] at h
      have ha := hamounts a hdata
      have hunfit : ∀ {q : ℚ}, q = a.shuAmount ∨ q = a.capitalAmount → money q = .error e →
          e = .numericFieldOverflow ∧ ¬ Holds d.balances 1 x.shuAmount x.capitalAmount := by
        intro q hq hmoney
        obtain ⟨rfl, hnone⟩ := money_error hmoney
        refine ⟨rfl, fun hholds => ?_⟩
        obtain ⟨ms, mc, hms, hmc⟩ := ha.fits hholds
        rcases hq with rfl | rfl
        · rw [hms, Numeric.ofRat?_toRat] at hnone
          cases hnone
        · rw [hmc, Numeric.ofRat?_toRat] at hnone
          cases hnone
      rcases bind_error h with h | ⟨ms, hms, h⟩
      · exact hunfit (.inl rfl) h
      rcases bind_error h with h | ⟨mc, hmc, h⟩
      · exact hunfit (.inr rfl) h
      have hcovered := ha.covered ms mc (money_exact ha.decimal.1 (money_ok hms)).symm
        (money_exact ha.decimal.2 (money_ok hmc)).symm
      rw [dif_pos hcovered.positive] at h
      cases h

/-- The other columns after an update. -/
structure UpdateExpense.Kept (data : UpdateExpense) (x x' : Expense) : Prop where
  expenseCategoryId : x'.expenseCategoryId = data.expenseCategoryId.getD x.expenseCategoryId
  createdBy : x'.createdBy = x.createdBy
  loanId : x'.loanId = data.loanId.or x.loanId
  source : x'.source = x.source

theorem UpdateExpense.set_kept {data : UpdateExpense} {x' : Expense} (h : data.set x = .ok x') :
    data.Kept x x' := by
  obtain ⟨_, -, h⟩ := bind_ok h
  obtain ⟨_, -, h⟩ := bind_ok h
  split at h
  · cases h
    exact ⟨rfl, rfl, Option.orElse_eq_or .., rfl⟩
  · cases h

theorem UpdateExpense.Kept.newReferences {data : UpdateExpense} {x' : Expense}
    (h : data.Kept x x') {ref : TableName × Uuid}
    (href : ref ∈ newReferences .expenses x x') :
    (∃ c, data.expenseCategoryId = some c ∧ ref = (.expenseCategories, c)) ∨
      ∃ loanId, data.loanId = some loanId ∧ ref = (.loans, loanId) := by
  rw [LumbungMesari.newReferences, List.mem_filter, decide_eq_true_eq, Row.references,
    Row.references, h.expenseCategoryId, h.createdBy, h.loanId] at href
  obtain ⟨href, hnew⟩ := href
  rw [List.mem_append] at href
  rcases href with href | href
  · rcases List.mem_pair.1 href with rfl | rfl
    · cases hcategory : data.expenseCategoryId with
      | none => simp [hcategory] at hnew
      | some c => exact .inl ⟨c, rfl, rfl⟩
    · simp at hnew
  · cases hloan : data.loanId with
    | none =>
        rw [hloan, Option.none_or] at href
        exact absurd (List.mem_append_right _ href) hnew
    | some loanId =>
        rw [hloan, Option.some_or] at href
        exact .inr ⟨loanId, rfl, by simpa using href⟩

end Amounts

/-! ### The correction of an expense -/

/-- The source an update draws on: the one it names, the one that is stored, or the default of the
category. -/
def Database.effectiveSource (d : Database) (dto : UpdateExpenseDto) (x : Expense) :
    Option ExpenseSource :=
  dto.source <|> x.source <|> ((dto.expenseCategoryId.bind (d.find .expenseCategories)) <|>
    d.find .expenseCategories x.expenseCategoryId).map (·.defaultSource)

/-- Why an expense cannot be corrected. -/
inductive Uncorrectable (d : Database) (ids : ExpenseIds) (id : Uuid) (dto : UpdateExpenseDto) :
    Error → Prop where
  | missing (none : d.find .expenses id = none) :
      Uncorrectable d ids id dto (expenseNotFoundError id)
  | amount {q : ℚ} {e : Error} (asked : dto.amount = some q) (refused : checkAmount q = .error e) :
      Uncorrectable d ids id dto e
  | category {c : Uuid} (asked : dto.expenseCategoryId = some c)
      (missing : d.find .expenseCategories c = none) :
      Uncorrectable d ids id dto (expenseCategoryNotFoundError c)
  | source {x : Expense} (found : d.find .expenses id = some x)
      (missing : d.effectiveSource dto x = none) :
      Uncorrectable d ids id dto (expenseValidationError "Unsupported expense source: undefined")
  | funds {x : Expense} {q : ℚ} {source : ExpenseSource} (found : d.find .expenses id = some x)
      (asked : dto.amount = some q) (effective : d.effectiveSource dto x = some source)
      (short : d.numberFunds source (some x.allocation) < .ofRat q) :
      Uncorrectable d ids id dto (insufficientFundsError source.text)
  | duplicate (taken : d.find .cashbookTransactions ids.reversal ≠ none ∨
      d.find .cashbookTransactions ids.ledger ≠ none ∨ ids.reversal = ids.ledger) :
      Uncorrectable d ids id dto .uniqueViolation
  | reference {loanId : Uuid} (asked : dto.loanId = some loanId)
      (missing : d.find .loans loanId = none) : Uncorrectable d ids id dto .foreignKeyViolation
  | overflow {x : Expense} (found : d.find .expenses id = some x)
      (full : ¬ Holds d.balances 1 x.shuAmount x.capitalAmount) :
      Uncorrectable d ids id dto .numericFieldOverflow

section Correction

variable {ids : ExpenseIds} {id : Uuid} {dto : UpdateExpenseDto} {x : Expense}
  {category : Option ExpenseCategory}

theorem reallocate_throws (hrange : d.InRange) (hx : x.allocation.Nonneg)
    (hfound : d.find .expenses id = some x)
    (hamount : ∀ q ∈ dto.amount, 0 < q ∧ Sql.Decimal 4 q)
    (hsource : (dto.source <|> x.source <|> category.map (·.defaultSource)) =
      d.effectiveSource dto x) :
    (reallocate dto x category).Throws (Uncorrectable d ids id dto) d .idle := by
  unfold reallocate
  split
  · exact Prog.throws_pure _
  rename_i q hasked
  refine Prog.throws_of_returns (allocateAmounts_throws fun e he => ?_)
    fun _ _ _ _ => Prog.throws_pure _
  rw [hsource, Session.view_idle] at he
  cases heffective : d.effectiveSource dto x with
  | none =>
      rw [heffective] at he
      cases he
      exact .source hfound heffective
  | some source =>
      rw [heffective] at he
      obtain ⟨hpos, hdecimal⟩ := hamount q hasked
      rcases Database.allocates_cases hrange (Allocation.some_taken hx) hpos hdecimal source with
        ⟨hshort, -, he'⟩ | ⟨-, -, ha⟩
      · obtain rfl := Except.error.inj (he'.symm.trans he)
        exact .funds hfound hasked heffective hshort
      · cases ha.symm.trans he

theorem reallocate_returns {amounts : Option Allocation} {d' : Database} {s' : Trx}
    (h : (reallocate dto x category).Returns d .idle amounts d' s') :
    d = d' ∧ (∃ l, s' = Session.idle.extend [] l) ∧ (amounts = none ↔ dto.amount = none) ∧
      ∀ q ∈ dto.amount, ∀ a ∈ amounts, d.allocates q
        (dto.source <|> x.source <|> category.map (·.defaultSource)) (some x.allocation) = .ok a := by
  unfold reallocate at h
  split at h
  · rename_i hnone
    obtain ⟨rfl, rfl, rfl⟩ := Prog.returns_pure.1 h
    exact ⟨rfl, ⟨[], (extend_nil _).symm⟩, iff_of_true rfl hnone, by simp [hnone]⟩
  · rename_i q hasked
    obtain ⟨a, d₁, s₁, hallocate, hpure⟩ := Prog.returns_bind.1 h
    obtain ⟨rfl, ha, rfl⟩ := allocateAmounts_returns.1 hallocate
    obtain ⟨rfl, rfl, rfl⟩ := Prog.returns_pure.1 hpure
    rw [Session.view_idle] at ha
    exact ⟨rfl, ⟨_, rfl⟩, by simp [hasked], by simpa [hasked] using ha⟩

theorem Database.allocates_reallocated (hrange : d.InRange) (hx : x.allocation.Nonneg)
    (htotal : d.balances .total = d.balances .shu + d.balances .capital) {q : ℚ} (hq : 0 < q)
    (hdecimal : Sql.Decimal 4 q) {source : Option ExpenseSource} {a : Allocation}
    (h : d.allocates q source (some x.allocation) = .ok a) : Reallocated d x a := by
  cases source with
  | none => cases h
  | some source =>
      rcases Database.allocates_cases hrange (Allocation.some_taken hx) hq hdecimal source with
        ⟨-, -, he⟩ | ⟨-, hle, ha⟩
      · cases he.symm.trans h
      · have hsound := Database.split_sound hrange (Allocation.some_taken hx) hq hle
        rw [← Except.ok.inj (h.symm.trans ha)] at hsound
        exact reallocated_of_sound hq htotal (Database.allocates_decimal h) hsound

theorem updateExpenseById_throws {label : Label} {data : UpdateExpense} {l : Locks}
    (hfound : d.find .expenses id = some x) (hamounts : ∀ a ∈ data.amounts, Reallocated d x a)
    (hcategory : ∀ c ∈ data.expenseCategoryId, d.find .expenseCategories c ≠ none)
    (hfull : ¬ Holds d.balances 1 x.shuAmount x.capitalAmount → R .numericFieldOverflow)
    (hloan : ∀ loanId ∈ data.loanId, d.find .loans loanId = none → R .foreignKeyViolation) :
    (updateExpenseById label id data).Throws R d (Session.idle.extend [] l) := by
  refine Prog.throws_inTrx fun e he => ?_
  rw [Session.view_extend_nil, Session.view_idle] at he
  simp only [updateById, statement, hfound] at he
  rcases bind_error he with he | ⟨x', hset, he⟩
  · obtain ⟨rfl, hnot⟩ := UpdateExpense.set_error hamounts he
    exact hfull hnot
  rcases bind_error he with he | ⟨_, -, he⟩
  · rcases updateRow_error he with he | ⟨rfl, ref, href, hmissing⟩ | he
    · cases he
    · rcases (UpdateExpense.set_kept hset).newReferences href with ⟨c, hc, rfl⟩ | ⟨loanId, hl, rfl⟩
      · exact absurd hmissing (hcategory c hc)
      · exact hloan loanId hl hmissing
    · cases he
  · cases he

/-- What is posted for an expense is what it holds after the update. -/
theorem ExpenseSet.allocation_eq {amounts : Option Allocation} {txnDate : Option Date}
    {x' : Expense} (h : ExpenseSet amounts txnDate x x') (hdecimal : ∀ a ∈ amounts, a.Decimal) :
    amounts.getD x.allocation = x'.allocation := by
  cases amounts with
  | none =>
      rw [Option.getD_none, Expense.allocation, Expense.allocation, (h.kept rfl).1, (h.kept rfl).2]
  | some a =>
      obtain ⟨hshu, hcapital⟩ := h.stored a rfl
      obtain ⟨hshu', hcapital'⟩ := hdecimal a rfl
      rw [Option.getD_some, Expense.allocation, money_exact hshu' hshu,
        money_exact hcapital' hcapital]

variable {initial : BalanceType → ℤ} {removed : Uuid → Prop}

/-- What the row of an expense has taken covers the amounts of its correction, the old ones too. -/
theorem covered_of_set (h : LedgerInvariant Expense.Agrees initial removed d)
    (hfound : d.find .expenses id = some x) {amounts : Option Allocation} {x' : Expense}
    (hset : ExpenseSet amounts dto.transactionDate x x')
    (hamounts : ∀ a ∈ amounts, Reallocated d x a) :
    Covered (givenBack d.balances x.shuAmount x.capitalAmount) (-1) x'.shuAmount
      x'.capitalAmount := by
  have hallocation := hset.allocation_eq fun a ha => (hamounts a ha).decimal
  cases amounts with
  | none =>
      have hx : x.allocation.Nonneg := h.allocation_nonneg Expense.Agrees.allocation hfound
      refine (reallocated_existing h.inRange hx).covered _ _ ?_ ?_ <;>
        rw [show x.allocation = x'.allocation from hallocation] <;> rfl
  | some a =>
      refine (hamounts a rfl).covered _ _ ?_ ?_ <;>
        rw [show a = x'.allocation from hallocation] <;> rfl

theorem updateExpenseById_returns {label : Label} {data : UpdateExpense} {l : Locks}
    (hfound : d.find .expenses id = some x) {r : Option Expense} {d' : Database} {s' : Trx}
    (h : (updateExpenseById label id data).Returns d (Session.idle.extend [] l) r d' s') :
    d = d' ∧ ∃ x' l', data.set x = .ok x' ∧ s' = Session.idle.extend [.update .expenses x'] l' := by
  refine h.of_wp (Q := fun _ d' s' => d = d' ∧ ∃ x' l', data.set x = .ok x' ∧
    s' = Session.idle.extend [.update .expenses x'] l') (wp_updateById (fun d' l' henv hnone => ?_)
      fun d' old x' ws l' henv hfind hset hupdate _ _ => ?_)
  · obtain rfl : d = d' := henv
    rw [Session.view_extend_nil, Session.view_idle, hfound] at hnone
    cases hnone
  · obtain rfl : d = d' := henv
    rw [Session.view_extend_nil, Session.view_idle, hfound, Option.some.injEq] at hfind
    subst hfind
    obtain ⟨-, rfl⟩ := updateRow_plain (by decide) hupdate
    exact ⟨rfl, x', _, hset, extend_extend ..⟩

theorem updateExpenseInTransaction_throws (h : LedgerInvariant Expense.Agrees initial removed d)
    (htotal : d.balances .total = d.balances .shu + d.balances .capital)
    (hfound : d.find .expenses id = some x) (hamount : ∀ q ∈ dto.amount, 0 < q ∧ Sql.Decimal 4 q)
    (hcategory : ∀ c ∈ dto.expenseCategoryId, d.find .expenseCategories c ≠ none)
    (hsource : (dto.source <|> x.source <|> category.map (·.defaultSource)) =
      d.effectiveSource dto x) :
    (updateExpenseInTransaction ids id dto x category now).Throws (Uncorrectable d ids id dto) d
      .idle := by
  have hx : x.allocation.Nonneg := h.allocation_nonneg Expense.Agrees.allocation hfound
  unfold updateExpenseInTransaction
  refine Prog.throws_of_returns (reallocate_throws h.inRange hx hfound hamount
    hsource) fun amounts d' s' hreallocate => ?_
  obtain ⟨rfl, ⟨l, rfl⟩, hasked, hallocated⟩ := reallocate_returns hreallocate
  have hamounts : ∀ a ∈ amounts, Reallocated d x a := by
    intro a ha
    obtain ⟨q, hq⟩ := Option.ne_none_iff_exists'.1 fun hnone => by
      rw [hasked.2 hnone] at ha
      cases ha
    obtain ⟨hpos, hdecimal⟩ := hamount q hq
    exact Database.allocates_reallocated h.inRange hx htotal hpos hdecimal (hallocated q hq a ha)
  refine Prog.throws_of_returns
    (updateExpenseById_throws hfound hamounts hcategory (fun hfull => .overflow hfound hfull)
      fun loanId hl hmissing => .reference hl hmissing) fun _ d' s' hupdate => ?_
  obtain ⟨rfl, x', l, hset, rfl⟩ := updateExpenseById_returns hfound hupdate
  replace hset := UpdateExpense.set_ok hset
  split
  · have hallocation := hset.allocation_eq fun a ha => (hamounts a ha).decimal
    obtain ⟨r, hvisible, hagrees⟩ := h.expenses.entry id x hfound
    have hr : r.Nonneg := h.books.nonneg r (mem_owned.1 (List.mem_filter.1
      (hvisible ▸ List.mem_singleton_self r)).1).1
    have hview : (Session.idle.extend [.update .expenses x'] l).view d =
        d.apply (.update .expenses x') := Session.view_extend ..
    rw [hallocation, updateExpenseTransaction]
    refine updateTransaction_throws r ?_ hr ?_ ?_ ?_ ?_ ?_
    · rw [hview, owned_update_expense]
      exact hvisible
    · rw [hview]
      exact h.inRange
    · rw [hview]
      exact Database.find_update_ne_none _ (by rw [hfound]; simp)
    · rw [hview, hagrees.shuAmount, hagrees.capitalAmount]
      exact covered_of_set h hfound hset hamounts
    · rw [hview, Database.find_congr (Database.table_update_ne d (t := .expenses) (by decide) x'),
        Database.find_congr (Database.table_update_ne d (t := .expenses) (by decide) x')]
      exact .duplicate
    · rw [hview, hagrees.shuAmount, hagrees.capitalAmount]
      exact .overflow hfound
  · exact Prog.throws_pure _

theorem updateExpenseInTransaction_found (h : LedgerInvariant Expense.Agrees initial removed d)
    (hfound : d.find .expenses id = some x) (hamount : ∀ q ∈ dto.amount, 0 < q) :
    (updateExpenseInTransaction ids id dto x category now).wp (Prog.alone fun _ _ => True)
      (fun _ d' s' => d = d' ∧ (s'.view d).find .expenses id ≠ none) d .idle := by
  have hsome : d.find .expenses id ≠ none := by
    rw [hfound]
    exact Option.some_ne_none _
  refine updateExpenseInTransaction_wp hamount
    (h.allocation_nonneg Expense.Agrees.allocation hfound)
    (fun d' henv => ?_) (fun d₁ d₂ henv₁ henv₂ hnone => ?_) (fun d₁ d₂ l _ henv _ => ?_)
    (fun d' l henv => ?_) (fun d' e e' l henv _ _ _ => ?_)
    fun d₁ d' amounts e e' original reversal new l henv _ _ hcorrected _ _ _ => ?_
  · obtain rfl : d = d' := henv
    exact h.inRange
  · obtain rfl : d = d₁ := henv₁
    exact absurd hnone hsome
  · obtain rfl : d₁ = d₂ := henv
    rfl
  · obtain rfl : d = d' := henv
    exact ⟨rfl, by rwa [Session.view_extend_nil]⟩
  · obtain rfl : d = d' := henv
    refine ⟨rfl, ?_⟩
    rw [Session.view_extend]
    exact Database.find_update_ne_none _ hsome
  · obtain rfl : d = d' := henv
    refine ⟨rfl, ?_⟩
    rw [Session.view_idle] at hcorrected
    rw [Session.view_extend, Session.view_idle, LedgerInvariant.find_expenseCorrection hcorrected,
      if_pos rfl]
    exact Option.some_ne_none _

theorem findNewCategory_throws (h : ∀ c ∈ dto.expenseCategoryId,
    d.find .expenseCategories c = none → R (expenseCategoryNotFoundError c)) :
    (findNewCategory dto).Throws R d s := by
  unfold findNewCategory findExpenseCategoryById
  split
  · exact Prog.throws_pure _
  · rename_i c hasked
    refine throws_selectOnPool ?_
    split
    · exact Prog.throws_throw (h c hasked ‹_›)
    · exact Prog.throws_pure _

theorem findNewCategory_returns {newCategory : Option ExpenseCategory} {d' : Database} {s' : Trx}
    (h : (findNewCategory dto).Returns d s newCategory d' s') :
    d = d' ∧ s = s' ∧ newCategory = dto.expenseCategoryId.bind (d.find .expenseCategories) ∧
      ∀ c ∈ dto.expenseCategoryId, d.find .expenseCategories c ≠ none := by
  unfold findNewCategory findExpenseCategoryById at h
  split at h
  · rename_i hnone
    obtain ⟨rfl, rfl, rfl⟩ := Prog.returns_pure.1 h
    exact ⟨rfl, rfl, by simp [hnone], by simp [hnone]⟩
  · rename_i c hasked
    rw [returns_selectOnPool] at h
    cases hfound : d.find .expenseCategories c with
    | none =>
        rw [hfound] at h
        exact (Prog.returns_throw.1 h).elim
    | some category =>
        rw [hfound] at h
        obtain ⟨rfl, rfl, rfl⟩ := Prog.returns_pure.1 h
        exact ⟨rfl, rfl, by simp [hasked, hfound], by simp [hasked, hfound]⟩

theorem updateExpense_throws (h : LedgerInvariant Expense.Agrees initial removed d)
    (htotal : d.balances .total = d.balances .shu + d.balances .capital)
    (hdecimal : ∀ q ∈ dto.amount, Sql.Decimal 4 q) :
    (updateExpense ids id dto now).Throws (Uncorrectable d ids id dto) d .idle := by
  unfold updateExpense findByIdWithCategory
  refine throws_selectOnPool ?_
  cases hfound : d.find .expenses id with
  | none => exact Prog.throws_throw (.missing hfound)
  | some x =>
      dsimp only [Option.map_some]
      cases hcheck : dto.amount.elim (.ok ()) checkAmount with
      | error e =>
          cases hasked : dto.amount with
          | none =>
              rw [hasked] at hcheck
              cases hcheck
          | some q =>
              rw [hasked] at hcheck
              exact Prog.throws_throw (.amount hasked hcheck)
      | ok =>
          have hamount : ∀ q ∈ dto.amount, 0 < q := by
            intro q hq
            rw [Option.mem_def.1 hq] at hcheck
            exact checkAmount_ok hcheck
          refine Prog.throws_of_returns (findNewCategory_throws fun c hc hmissing =>
            .category hc hmissing) fun newCategory d' s' hnew => ?_
          obtain ⟨rfl, rfl, rfl, hcategory⟩ := findNewCategory_returns hnew
          refine Prog.throws_bind (updateExpenseInTransaction_throws h htotal hfound
            (fun q hq => ⟨hamount q hq, hdecimal q hq⟩) hcategory rfl)
            (updateExpenseInTransaction_found h hfound hamount) ?_
          rintro _ _ s' ⟨rfl, hstill⟩
          refine Prog.throws_of_returns Prog.throws_commitTrx fun _ d' s'' hcommit => ?_
          obtain ⟨rfl, -⟩ := Prog.returns_commitTrx.1 hcommit
          exact readExpense_throws hstill

/-- What an update has decided on and stored. -/
structure Revised (d : Database) (dto : UpdateExpenseDto) (source : Option ExpenseSource)
    (amounts : Option Allocation) (x x' : Expense) : Prop where
  asked : amounts = none ↔ dto.amount = none
  allocated : ∀ q ∈ dto.amount, ∀ a ∈ amounts, d.allocates q source (some x.allocation) = .ok a
  set : ExpenseSet amounts dto.transactionDate x x'
  source : x'.source = x.source

/-- What an update has posted: nothing, when it names neither an amount nor a date. -/
inductive RevisionPosted (d : Database) (now : Date) (ids : ExpenseIds) (id : Uuid)
    (dto : UpdateExpenseDto) (amounts : Option Allocation) (x x' : Expense) :
    List Write → Prop where
  | columns (amount : dto.amount = none) (transactionDate : dto.transactionDate = none) :
      RevisionPosted d now ids id dto amounts x x' [.update .expenses x']
  | posted {original reversal new : CashbookTransaction}
      (corrected : ExpenseCorrected d now ids id x amounts dto.transactionDate x x' original
        reversal new) :
      RevisionPosted d now ids id dto amounts x x' (expenseCorrection now x' original reversal new)

theorem updateExpenseTransaction_returns {x' : Expense} {l : Locks} {shuAmount capitalAmount : ℚ}
    {txnDate : Option Date} {d' : Database} {s' : Trx}
    (h : (updateExpenseTransaction ids.reversal ids.ledger id shuAmount capitalAmount txnDate
      now).Returns d (Session.idle.extend [.update .expenses x'] l) () d' s') :
    d = d' ∧ ∃ original reversal new l', Corrected (d.apply (.update .expenses x')) now ids.reversal
      ids.ledger (.expense id) shuAmount capitalAmount txnDate original reversal new ∧
        s' = Session.idle.extend (expenseCorrection now x' original reversal new) l' := by
  refine h.of_wp (Q := fun _ d' s' => d = d' ∧ ∃ original reversal new l',
    Corrected (d.apply (.update .expenses x')) now ids.reversal ids.ledger (.expense id) shuAmount
      capitalAmount txnDate original reversal new ∧
        s' = Session.idle.extend (expenseCorrection now x' original reversal new) l')
    (updateTransaction_wp (fun d₁ d₂ _ _ henv hmem _ _ => ?_)
      fun d' original reversal new l' henv hcorrected _ _ => ?_)
  · obtain rfl : d₁ = d₂ := henv
    exact hmem
  · obtain rfl : d = d' := henv
    rw [Session.view_extend, Session.view_idle] at hcorrected
    exact ⟨rfl, original, reversal, new, _, hcorrected, extend_extend ..⟩

theorem updateExpenseInTransaction_returns (h : LedgerInvariant Expense.Agrees initial removed d)
    (hfound : d.find .expenses id = some x) (hamount : ∀ q ∈ dto.amount, 0 < q) {d' : Database}
    {s' : Trx} (hreturns : (updateExpenseInTransaction ids id dto x category now).Returns d .idle ()
      d' s') : d = d' ∧ ∃ amounts x' ws l,
        Revised d dto (dto.source <|> x.source <|> category.map (·.defaultSource)) amounts x x' ∧
        RevisionPosted d now ids id dto amounts x x' ws ∧ s' = Session.idle.extend ws l := by
  have hx : x.allocation.Nonneg := h.allocation_nonneg Expense.Agrees.allocation hfound
  unfold updateExpenseInTransaction at hreturns
  obtain ⟨amounts, d₁, s₁, hreallocate, hreturns⟩ := Prog.returns_bind.1 hreturns
  obtain ⟨rfl, ⟨l, rfl⟩, hasked, hallocated⟩ := reallocate_returns hreallocate
  have hnonneg : (amounts.getD x.allocation).Nonneg := by
    cases amounts with
    | none => exact hx
    | some a =>
        obtain ⟨q, hq⟩ := Option.ne_none_iff_exists'.1 fun hnone => by cases hasked.2 hnone
        refine Database.allocates_nonneg h.inRange (fun a ha => ?_) (hamount q hq)
          (hallocated q hq a rfl)
        obtain rfl := Option.some.inj ha
        exact hx
  obtain ⟨_, d₂, s₂, hupdate, hreturns⟩ := Prog.returns_bind.1 hreturns
  obtain ⟨rfl, x', l', hset, rfl⟩ := updateExpenseById_returns hfound hupdate
  have hrevised : Revised d dto (dto.source <|> x.source <|> category.map (·.defaultSource)) amounts
      x x' := ⟨hasked, hallocated, UpdateExpense.set_ok hset, (UpdateExpense.set_kept hset).source⟩
  split at hreturns
  · rename_i hposts
    obtain ⟨rfl, original, reversal, new, l'', hcorrected, rfl⟩ :=
      updateExpenseTransaction_returns hreturns
    exact ⟨rfl, amounts, x', _, l'', hrevised,
      .posted ⟨hfound, hposts, hrevised.set, hnonneg, hcorrected⟩, rfl⟩
  · rename_i hno
    rw [Bool.or_eq_true, not_or, Option.not_isSome_iff_eq_none, Option.not_isSome_iff_eq_none]
      at hno
    obtain ⟨-, rfl, rfl⟩ := Prog.returns_pure.1 hreturns
    exact ⟨rfl, amounts, x', _, l', hrevised, .columns (hasked.1 hno.1) hno.2, rfl⟩

theorem RevisionPosted.find {amounts : Option Allocation} {x' : Expense} {ws : List Write}
    (h : RevisionPosted d now ids id dto amounts x x' ws) (hfound : d.find .expenses id = some x)
    (hid : x'.id = x.id) (id' : Uuid) : (applyAll d ws).find .expenses id' =
      if id' = id then some x' else d.find .expenses id' := by
  cases h with
  | columns =>
      rw [applyAll_cons, applyAll_nil, Database.store_apply, Database.find_update,
        show Row.id .expenses x' = id from hid.trans (Database.find_id hfound)]
      by_cases he : id' = id
      · rw [if_pos he.symm, if_pos he, he, hfound]
        rfl
      · rw [if_neg (Ne.symm he), if_neg he]
  | posted corrected => exact LedgerInvariant.find_expenseCorrection corrected id'

theorem updateExpense_returns (h : LedgerInvariant Expense.Agrees initial removed d) {x' : Expense}
    {d' : Database} {s' : Trx} (hreturns : (updateExpense ids id dto now).Returns d .idle x' d' s') :
    ∃ x amounts ws, d.find .expenses id = some x ∧ dto.amount.elim (.ok ()) checkAmount = .ok () ∧
      Revised d dto (d.effectiveSource dto x) amounts x x' ∧
      RevisionPosted d now ids id dto amounts x x' ws ∧ d' = applyAll d ws := by
  unfold updateExpense findByIdWithCategory at hreturns
  rw [returns_selectOnPool] at hreturns
  cases hfound : d.find .expenses id with
  | none =>
      rw [hfound] at hreturns
      exact (Prog.returns_throw.1 hreturns).elim
  | some x =>
      rw [hfound, Option.map_some] at hreturns
      dsimp only at hreturns
      cases hcheck : dto.amount.elim (.ok ()) checkAmount with
      | error e =>
          rw [hcheck] at hreturns
          exact (Prog.returns_throw.1 hreturns).elim
      | ok =>
          rw [hcheck] at hreturns
          have hamount : ∀ q ∈ dto.amount, 0 < q := by
            intro q hq
            rw [Option.mem_def.1 hq] at hcheck
            exact checkAmount_ok hcheck
          obtain ⟨newCategory, d₁, s₁, hnew, hreturns⟩ := Prog.returns_bind.1 hreturns
          obtain ⟨rfl, rfl, rfl, -⟩ := findNewCategory_returns hnew
          obtain ⟨_, d₂, s₂, htrx, hreturns⟩ := Prog.returns_bind.1 hreturns
          obtain ⟨rfl, amounts, x₁, ws, l, hrevised, hposted, rfl⟩ :=
            updateExpenseInTransaction_returns h hfound hamount htrx
          obtain ⟨_, d₃, s₃, hcommit, hreturns⟩ := Prog.returns_bind.1 hreturns
          obtain ⟨rfl, rfl⟩ := Prog.returns_commitTrx.1 hcommit
          rw [Session.view_extend, Session.view_idle] at hreturns
          obtain ⟨rfl, hread⟩ := readExpense_returns hreturns
          rw [hposted.find hfound hrevised.set.id, if_pos rfl, Option.some.injEq] at hread
          subst hread
          exact ⟨x, amounts, ws, rfl, rfl, hrevised, hposted, rfl⟩

end Correction

end LumbungMesari
