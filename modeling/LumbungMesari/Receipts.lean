import LumbungMesari.LoanRules
import LumbungMesari.Sql.Errors

/-!
# What stops an income

Recording an income can fail in five ways: its category is not seeded, an id is taken, a record it is
for is missing, a balance leaves its column, or there is nothing to post. Which of them happens is
read off the state, so that a call can be shown to fail in no other way, or not at all.
-/

namespace LumbungMesari

open Sql
open Prog (inTrx Throws)

/-! ### Errors of statements -/

section Errors

variable {d : Database} {e : Error}

theorem bind_error {ε α γ : Type} {x : Except ε α} {f : α → Except ε γ} {e : ε}
    (h : x >>= f = .error e) : x = .error e ∨ ∃ a, x = .ok a ∧ f a = .error e := by
  cases x with
  | error e' =>
      cases h
      exact .inl rfl
  | ok a => exact .inr ⟨a, rfl, h⟩

theorem money_error {q : ℚ} (h : money q = .error e) :
    e = .numericFieldOverflow ∧ (Numeric.ofRat? q : Option Money) = none := by
  unfold money at h
  split at h
  · cases h
  · cases h
    exact ⟨rfl, ‹_›⟩

theorem ofRat?_ne_none {z : ℤ} (h : z.natAbs < 10 ^ 12) :
    (Numeric.ofRat? ((z : ℚ) / 10 ^ 4) : Option Money) ≠ none := by
  rw [Numeric.ofRat?, div_mul_cancel₀ _ (by positivity), roundHalfAway_intCast, Numeric.ofUnits?,
    dif_pos h]
  exact Option.some_ne_none _

theorem insertRow_error {t : TableName} {r : Row t} (h : insertRow d t r = .error e) :
    beforeWrite d t r = .error e ∨
      (e = .uniqueViolation ∧
        (d.find t (Row.id t r) ≠ none ∨ ∃ k ∈ Row.uniqueKeys t r, d.taken t k = true)) ∨
      (e = .foreignKeyViolation ∧ ∃ ref ∈ Row.references t r, d.find ref.1 ref.2 = none) ∨
      afterInsert d t r = .error e := by
  rcases bind_error h with hbefore | ⟨⟨⟩, -, h⟩
  · exact .inl hbefore
  dsimp only at h
  split at h
  · rename_i hunique
    cases h
    rw [Bool.or_eq_true, List.any_eq_true, Database.exists?, Option.isSome_iff_ne_none] at hunique
    exact .inr (.inl ⟨rfl, hunique⟩)
  split at h
  · rename_i href
    cases h
    rw [Bool.not_eq_true', List.all_eq_false] at href
    obtain ⟨ref, hmem, hmissing⟩ := href
    rw [Database.exists?, Option.not_isSome_iff_eq_none] at hmissing
    exact .inr (.inr (.inl ⟨rfl, ref, hmem, hmissing⟩))
  · rcases bind_error h with hafter | ⟨ws, -, h⟩
    · exact .inr (.inr (.inr hafter))
    · cases h

/-- The errors of a balance that leaves its column. -/
def Error.OfBalance (e : Error) : Prop :=
  e = .numericFieldOverflow ∨ e = .checkViolation "chk_cashbook_balance_non_negative"

theorem updateBalance_error {b : BalanceType} {delta : ℤ}
    (h : updateBalance d b delta = .error e) : e.OfBalance ∧ ¬ MovesInRange d b delta := by
  unfold updateBalance at h
  unfold MovesInRange
  split at h
  · cases h
    exact ⟨.inl rfl, by omega⟩
  · split at h
    · cases h
      exact ⟨.inr rfl, by omega⟩
    · cases h

theorem moveBucket_error {b : BalanceType} {sign amount : ℤ}
    (h : moveBucket d b sign amount = .error e) :
    e.OfBalance ∧ 0 < amount ∧ ¬ MovesInRange d b (sign * amount) := by
  unfold moveBucket at h
  split at h
  · exact ⟨(updateBalance_error h).1, ‹_›, (updateBalance_error h).2⟩
  · cases h

theorem moveBalances_error {sign shuAmount capitalAmount : ℤ}
    (h : moveBalances d sign shuAmount capitalAmount = .error e) :
    e.OfBalance ∧ ((0 < shuAmount ∧ ¬ MovesInRange d .shu (sign * shuAmount)) ∨
      (0 < capitalAmount ∧ ¬ MovesInRange d .capital (sign * capitalAmount)) ∨
      ¬ MovesInRange d .total (sign * (shuAmount + capitalAmount))) := by
  rcases bind_error h with hshu | ⟨_, -, h⟩
  · exact ⟨(moveBucket_error hshu).1, .inl (moveBucket_error hshu).2⟩
  rcases bind_error h with hcapital | ⟨_, -, h⟩
  · exact ⟨(moveBucket_error hcapital).1, .inr (.inl (moveBucket_error hcapital).2)⟩
  rcases bind_error h with htotal | ⟨_, -, h⟩
  · exact ⟨(updateBalance_error htotal).1, .inr (.inr (updateBalance_error htotal).2)⟩
  · cases h

/-- The figures of a ledger row. -/
def CashbookTransactionData.figures (data : CashbookTransactionData) : List ℚ :=
  [data.shuAmount, data.capitalAmount, data.shuBalanceBefore, data.shuBalanceAfter,
    data.capitalBalanceBefore, data.capitalBalanceAfter, data.totalBalanceBefore,
    data.totalBalanceAfter]

theorem CashbookTransactionData.toRow_error {data : CashbookTransactionData} {id : Uuid}
    (h : data.toRow id = .error e) :
    (e = .numericFieldOverflow ∧ ∃ q ∈ data.figures, (Numeric.ofRat? q : Option Money) = none) ∨
      (e = .checkViolation "chk_cashbook_amounts_positive" ∧ ∃ shuAmount capitalAmount : Money,
        Numeric.ofRat? data.shuAmount = some shuAmount ∧
        Numeric.ofRat? data.capitalAmount = some capitalAmount ∧
        shuAmount.units + capitalAmount.units ≤ 0) := by
  have hfigure : ∀ {q : ℚ}, q ∈ data.figures → money q = .error e →
      e = .numericFieldOverflow ∧ ∃ q ∈ data.figures, (Numeric.ofRat? q : Option Money) = none :=
    fun hq hmoney => ⟨(money_error hmoney).1, _, hq, (money_error hmoney).2⟩
  rcases bind_error h with h | ⟨shuAmount, hshu, h⟩
  · exact .inl (hfigure (by simp [figures]) h)
  rcases bind_error h with h | ⟨capitalAmount, hcapital, h⟩
  · exact .inl (hfigure (by simp [figures]) h)
  rcases bind_error h with h | ⟨_, -, h⟩
  · exact .inl (hfigure (by simp [figures]) h)
  rcases bind_error h with h | ⟨_, -, h⟩
  · exact .inl (hfigure (by simp [figures]) h)
  rcases bind_error h with h | ⟨_, -, h⟩
  · exact .inl (hfigure (by simp [figures]) h)
  rcases bind_error h with h | ⟨_, -, h⟩
  · exact .inl (hfigure (by simp [figures]) h)
  rcases bind_error h with h | ⟨_, -, h⟩
  · exact .inl (hfigure (by simp [figures]) h)
  rcases bind_error h with h | ⟨_, -, h⟩
  · exact .inl (hfigure (by simp [figures]) h)
  split at h
  · cases h
  · rename_i hpositive
    cases h
    exact .inr ⟨rfl, shuAmount, capitalAmount, money_ok hshu, money_ok hcapital,
      not_lt.1 hpositive⟩

end Errors

/-! ### Receipts -/

/-- An income to be recorded under the code of its category, for an amount that is read from a
column. -/
structure Receipt where
  code : String
  spec : IncomeSpec
  amount : Money
  exact : spec.data.amount = amount.toRat

def IncomeDestination.balance : IncomeDestination → BalanceType
  | shu => .shu
  | capital => .capital

/-- The records an income is for. -/
def IncomeData.references (data : IncomeData) : List (TableName × Uuid) :=
  data.loanId.toList.map (.loans, ·) ++ data.installmentId.toList.map (.installments, ·) ++
    data.principalSavingId.toList.map (.principalSavings, ·) ++
    data.mandatorySavingId.toList.map (.mandatorySavings, ·)

/-- The balances can take an amount in one bucket. -/
structure HasRoom (d : Database) (destination : IncomeDestination) (amount : ℤ) : Prop where
  range : d.InRange
  bucket : d.balances destination.balance + amount < 10 ^ 12
  total : d.balances .total + amount < 10 ^ 12

def incomeCategoryNotFound (code : String) : Error :=
  .httpException 404 ("Income category \"" ++ code ++ "\" not found. Please run seed.")

/-- Why an income cannot be recorded. -/
inductive Unrecorded (d : Database) (x : Receipt) : Error → Prop where
  | category (missing : ∀ c ∈ d.rows .incomeCategories, c.code ≠ x.code) :
      Unrecorded d x (incomeCategoryNotFound x.code)
  | duplicate (taken : d.find .incomes x.spec.ids.income ≠ none ∨
      d.find .cashbookTransactions x.spec.ids.ledger ≠ none) : Unrecorded d x .uniqueViolation
  | reference {ref : TableName × Uuid} (mem : ref ∈ x.spec.data.references)
      (missing : d.find ref.1 ref.2 = none) : Unrecorded d x .foreignKeyViolation
  | balance {e : Error} (kind : e.OfBalance)
      (full : ¬ HasRoom d x.spec.destination x.amount.units) : Unrecorded d x e
  | nothing (zero : x.amount.units ≤ 0) :
      Unrecorded d x (.checkViolation "chk_cashbook_amounts_positive")

section Entry

variable {d : Database} {e : Error} {m : Money} {destination : IncomeDestination} {incomeId id : Uuid}
  {txnDate : Date}

theorem bucketAmounts (h : HasRoom d destination m.units) : ∃ shu capital : ℤ,
    (if destination = .shu then m.toRat else 0) = shu / 10 ^ 4 ∧
    (if destination = .capital then m.toRat else 0) = capital / 10 ^ 4 ∧
    shu.natAbs < 10 ^ 12 ∧ capital.natAbs < 10 ^ 12 ∧ d.balances .shu + shu < 10 ^ 12 ∧
    d.balances .capital + capital < 10 ^ 12 := by
  have hm := m.inRange
  have hbucket := h.bucket
  obtain ⟨-, hshu⟩ := h.range .shu
  obtain ⟨-, hcapital⟩ := h.range .capital
  cases destination with
  | shu => exact ⟨m.units, 0, rfl, by simp, hm, by simp, hbucket, by rwa [add_zero]⟩
  | capital => exact ⟨0, m.units, by simp, rfl, by simp, hm, by rwa [add_zero], hbucket⟩

theorem incomeEntry_figures (h : HasRoom d destination m.units) {q : ℚ}
    (hq : q ∈ (incomeEntry incomeId m.toRat destination d.current txnDate).figures) :
    (Numeric.ofRat? q : Option Money) ≠ none := by
  have hm := m.inRange
  have hfits : ∀ {q : ℚ} (z : ℤ), q = z / 10 ^ 4 → z.natAbs < 10 ^ 12 →
      (Numeric.ofRat? q : Option Money) ≠ none := by
    rintro _ z rfl hz
    exact ofRat?_ne_none hz
  obtain ⟨hshu₀, hshu₁⟩ := h.range .shu
  obtain ⟨hcapital₀, hcapital₁⟩ := h.range .capital
  obtain ⟨htotal₀, htotal₁⟩ := h.range .total
  have htotal := h.total
  obtain ⟨shu, capital, hshu, hcapital, hshuRange, hcapitalRange, hshuRoom, hcapitalRoom⟩ :=
    bucketAmounts h
  have hamount : m.toRat = m.units / 10 ^ 4 := rfl
  simp only [CashbookTransactionData.figures, incomeEntry, hshu, hcapital, Database.current,
    Database.balance, List.mem_cons, List.not_mem_nil, or_false] at hq
  rcases hq with rfl | rfl | rfl | rfl | rfl | rfl | rfl | rfl
  · exact hfits shu rfl hshuRange
  · exact hfits capital rfl hcapitalRange
  · exact hfits (d.balances .shu) rfl (by omega)
  · exact hfits (d.balances .shu + shu) (by push_cast; ring) (by omega)
  · exact hfits (d.balances .capital) rfl (by omega)
  · exact hfits (d.balances .capital + capital) (by push_cast; ring) (by omega)
  · exact hfits (d.balances .total) rfl (by omega)
  · exact hfits (d.balances .total + m.units) (by rw [hamount]; push_cast; ring) (by omega)

theorem incomeEntry_toRow_error
    (h : (incomeEntry incomeId m.toRat destination d.current txnDate).toRow id = .error e) :
    (e.OfBalance ∧ ¬ HasRoom d destination m.units) ∨
      (e = .checkViolation "chk_cashbook_amounts_positive" ∧ m.units ≤ 0) := by
  rcases CashbookTransactionData.toRow_error h with ⟨rfl, q, hq, hnone⟩ |
    ⟨rfl, shuAmount, capitalAmount, hshu, hcapital, hzero⟩
  · exact .inl ⟨.inl rfl, fun hroom => incomeEntry_figures hroom hq hnone⟩
  · obtain ⟨rfl, rfl⟩ := stored_amounts hshu hcapital
    refine .inr ⟨rfl, ?_⟩
    cases destination <;> simpa using hzero

/-- The trigger fails on the row of an income only for want of room. -/
theorem afterInsert_income_error {r : CashbookTransaction}
    (hr : (incomeEntry incomeId m.toRat destination d.current txnDate).Stored id r)
    (h : afterInsert d .cashbookTransactions r = .error e) :
    e.OfBalance ∧ ¬ HasRoom d destination m.units := by
  have hdirection : r.direction = .in_ := hr.direction
  have hmoves : moveBalances d 1 r.shuAmount.units r.capitalAmount.units = .error e := by
    rwa [afterInsert, cashbookInsertBalance, hdirection] at h
  obtain ⟨hkind, hfull⟩ := moveBalances_error hmoves
  refine ⟨hkind, fun hroom => ?_⟩
  have hbucket := hroom.bucket
  have htotal := hroom.total
  have hrange := hroom.range
  have hpositive := r.amountsPositive
  obtain ⟨hshu, hcapital⟩ := stored_amounts hr.shuAmount hr.capitalAmount
  obtain ⟨hshu₀, -⟩ := hrange .shu
  obtain ⟨hcapital₀, -⟩ := hrange .capital
  obtain ⟨htotal₀, -⟩ := hrange .total
  simp only [MovesInRange, one_mul, hshu, hcapital] at hfull
  simp only [hshu, hcapital] at hpositive
  cases destination with
  | shu | capital =>
      simp only [IncomeDestination.balance, reduceCtorEq, if_true, if_false, Numeric.units_zero,
        add_zero, zero_add] at hbucket hfull hpositive
      omega

end Entry

/-! ### Recording -/

section Recording

variable {d : Database} {s : Trx} {R : Error → Prop} {x : Receipt} {now : Date}

theorem throws_select {β : Type} {read : Database → β} : (inTrx (select read)).Throws R d s :=
  Prog.throws_inTrx fun _ he => by cases he

theorem throws_selectForUpdate {β : Type} {targets : Database → List LockTarget}
    {read : Database → β} : (inTrx (selectForUpdate targets read)).Throws R d s :=
  Prog.throws_inTrx fun _ he => by cases he

theorem throws_insertInto {t : TableName} {row : Except Error (Row t)}
    (hrow : ∀ e, row = .error e → R e)
    (hinsert : ∀ r e, row = .ok r → insertRow (s.view d) t r = .error e → R e) :
    (inTrx (insertInto t row)).Throws R d s := by
  refine Prog.throws_inTrx fun e he => ?_
  rcases bind_error he with he | ⟨r, hr, he⟩
  · exact hrow e he
  · rcases bind_error he with he | ⟨ws, -, he⟩
    · exact hinsert r e hr he
    · cases he

theorem select_alone {β : Type} {read : Database → β} {guar : Database → Database → Prop} :
    (inTrx (select read)).wp (Prog.alone guar)
      (fun b d' s' => b = read (s.view d) ∧ d = d' ∧ s = s') d s :=
  wp_select fun d' henv => by
    obtain rfl : d = d' := henv
    exact ⟨rfl, rfl, rfl⟩

theorem createIncomeOf_throws (h : ∀ e, Unrecorded (s.view d) x e → R e) :
    (createIncomeOf x.code x.spec.ids.income x.spec.data now).Throws R d s := by
  refine Prog.throws_bind throws_select select_alone ?_
  rintro category _ _ ⟨rfl, rfl, rfl⟩
  split
  · rename_i hnone
    refine Prog.throws_throw (h _ (.category fun c hc hcode => ?_))
    have hfound := List.find?_eq_none.1 hnone c hc
    exact hfound (decide_eq_true hcode)
  · rename_i category hfound
    refine throws_insertInto (fun e he => ?_) fun inc e hrow he => ?_
    · rcases bind_error he with he | ⟨_, -, he⟩
      · have hnone := (money_error he).2
        rw [x.exact, Numeric.ofRat?_toRat] at hnone
        cases hnone
      · cases he
    · obtain ⟨_, -, hrow⟩ := bind_ok hrow
      cases hrow
      rcases insertRow_error he with he | ⟨rfl, hfresh | ⟨_, hk, -⟩⟩ | ⟨rfl, ref, href, hmissing⟩ | he
      · cases he
      · exact h _ (.duplicate (.inl hfresh))
      · cases hk
      · rcases List.mem_cons.1 href with rfl | href
        · have hmem : category ∈ ((s.view d).table .incomeCategories).rows :=
            List.mem_of_find?_eq_some hfound
          rw [show (s.view d).find .incomeCategories category.id = some category from
            Table.find?_of_mem hmem] at hmissing
          cases hmissing
        · exact h _ (.reference href hmissing)
      · cases he

theorem createIncomeTransaction_throws {inc : Income} {l : Locks}
    (hinserted : Inserted (s.view d) .incomes inc) (h : ∀ e, Unrecorded (s.view d) x e → R e) :
    (createIncomeTransaction x.spec.ids.ledger inc.id x.spec.data.amount x.spec.destination none
      now).Throws R d (s.extend [.insert .incomes inc] l) := by
  have hview : (s.extend [.insert .incomes inc] l).view d =
      (s.view d).apply (.insert .incomes inc) := Session.view_extend ..
  have hfound : ((s.view d).apply (.insert .incomes inc)).find .incomes inc.id = some inc := by
    rw [Database.find_insert, if_pos rfl, hinserted.fresh]
    rfl
  rw [createIncomeTransaction, x.exact]
  refine Prog.throws_bind (Q := fun before d' s' => before = (s.view d).current ∧ d = d' ∧
      ∃ l', s' = s.extend [.insert .incomes inc] l') throws_selectForUpdate ?_ ?_
  · refine lockAllForUpdate_wp fun d' l' henv _ => ?_
    obtain rfl : d = d' := henv
    refine ⟨?_, rfl, l ++ l', by rw [extend_extend, List.append_nil]⟩
    rw [hview]
    rfl
  rintro _ _ _ ⟨rfl, rfl, l', rfl⟩
  refine throws_insertInto (fun e he => ?_) fun r e hrow he => ?_
  · rcases incomeEntry_toRow_error he with ⟨hkind, hfull⟩ | ⟨rfl, hzero⟩
    · exact h _ (.balance hkind hfull)
    · exact h _ (.nothing hzero)
  · have hstored := toRow_ok hrow
    rw [Session.view_extend] at he
    change insertRow ((s.view d).apply (.insert .incomes inc)) _ _ = _ at he
    have hid : r.id = x.spec.ids.ledger := hstored.id
    rcases insertRow_error he with he | ⟨rfl, hfresh | ⟨_, hk, -⟩⟩ | ⟨rfl, ref, href, hmissing⟩ | he
    · cases he
    · refine h _ (.duplicate (.inr ?_))
      rw [Database.find_congr (table_insert_incomes _ inc), hid] at hfresh
      exact hfresh
    · cases hk
    · have hincome : r.incomeId = some inc.id := hstored.incomeId
      have hexpense : r.expenseId = none := hstored.expenseId
      rw [Row.references, hincome, hexpense] at href
      obtain rfl : ref = (.incomes, inc.id) := by simpa using href
      rw [hfound] at hmissing
      cases hmissing
    · obtain ⟨hkind, hfull⟩ := afterInsert_income_error (m := x.amount) hstored he
      exact h _ (.balance hkind hfull)

/-- An income is recorded, or it is not for one of the reasons. -/
theorem record_throws {β : Type} {k : CashbookTransaction → Program β}
    (h : ∀ e, Unrecorded (s.view d) x e → R e)
    (hk : ∀ inc r l, Recorded (s.view d) x.spec.data x.spec.ids x.spec.destination inc r →
      (k r).Throws R d (s.extend (recording inc r) l)) :
    (createIncomeOf x.code x.spec.ids.income x.spec.data now >>= fun inc =>
      createIncomeTransaction x.spec.ids.ledger inc.id x.spec.data.amount x.spec.destination none
        now >>= k).Throws R d s := by
  refine Prog.throws_assoc (Prog.throws_bind (Q := fun r d' s' => d = d' ∧
      ∃ inc l, s' = s.extend (recording inc r) l ∧
      Recorded (s.view d) x.spec.data x.spec.ids x.spec.destination inc r) ?_ ?_ ?_)
  · refine Prog.throws_bind (Q := fun inc d' s' => d = d' ∧ ∃ l,
      s' = s.extend [.insert .incomes inc] l ∧ Inserted (s.view d) .incomes inc)
      (createIncomeOf_throws h) (createIncomeOf_wp fun d' inc l henv _ hinserted _ => ?_) ?_
    · obtain rfl : d = d' := henv
      exact ⟨rfl, l, rfl, hinserted⟩
    · rintro inc _ _ ⟨rfl, l, rfl, hinserted⟩
      exact createIncomeTransaction_throws hinserted h
  · refine Prog.wp_bind.2 (record_wp x.spec.ids fun d' inc r l henv hrecorded _ => ?_)
    obtain rfl : d = d' := henv
    exact ⟨rfl, inc, l, rfl, hrecorded⟩
  · rintro r _ _ ⟨rfl, inc, l, rfl, hrecorded⟩
    exact hk inc r l hrecorded

end Recording

end LumbungMesari
