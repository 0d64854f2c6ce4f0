import LumbungMesari.Receipts
import LumbungMesari.Sql.Evaluation

/-!
# What stops a ledger row

Every ledger row is an entry over the state it is inserted in: its amounts, and the balances before
and after it. Where its amounts are covered, a row can fail in three ways: its id is taken, what it
is posted for is missing, or a balance leaves its column. The checks and the guard of the trigger
are not among them.
-/

namespace LumbungMesari

open Sql
open Prog (inTrx)

/-- What amounts in the two buckets are for each balance. -/
def amountsOf (shu capital : Money) : BalanceType → ℤ
  | .shu => shu.units
  | .capital => capital.units
  | .total => shu.units + capital.units

/-- The columns of an entry over a state: its amounts, and the balances before and after it. -/
structure CashbookTransactionData.Over (data : CashbookTransactionData) (d : Database)
    (shu capital : Money) : Prop where
  shuAmount : data.shuAmount = shu.toRat
  capitalAmount : data.capitalAmount = capital.toRat
  shuBalanceBefore : data.shuBalanceBefore = d.balance .shu
  shuBalanceAfter : data.shuBalanceAfter = d.balance .shu + data.direction.sign * shu.toRat
  capitalBalanceBefore : data.capitalBalanceBefore = d.balance .capital
  capitalBalanceAfter : data.capitalBalanceAfter =
    d.balance .capital + data.direction.sign * capital.toRat
  totalBalanceBefore : data.totalBalanceBefore = d.balance .total
  totalBalanceAfter : data.totalBalanceAfter =
    d.balance .total + data.direction.sign * (shu.toRat + capital.toRat)

/-- An entry that posts something, and takes no more from a balance than there is. -/
structure Covered (balances : BalanceType → ℤ) (sign : ℤ) (shu capital : Money) : Prop where
  shuNonneg : 0 ≤ shu.units
  capitalNonneg : 0 ≤ capital.units
  positive : 0 < shu.units + capital.units
  stays : ∀ b, 0 ≤ balances b + sign * amountsOf shu capital b

/-- The columns can hold the balances after an entry. -/
def Holds (balances : BalanceType → ℤ) (sign : ℤ) (shu capital : Money) : Prop :=
  ∀ b, balances b + sign * amountsOf shu capital b < 10 ^ 12

theorem Covered.holds {balances : BalanceType → ℤ} {shu capital : Money}
    (h : Covered balances (-1) shu capital) (hrange : ∀ b, balances b < 10 ^ 12) :
    Holds balances (-1) shu capital := by
  intro b
  have hb := hrange b
  have hshu := h.shuNonneg
  have hcapital := h.capitalNonneg
  cases b <;> simp only [amountsOf] <;> omega

def Owner.reference : Owner → TableName × Uuid
  | .income id => (.incomes, id)
  | .expense id => (.expenses, id)

/-- Why an entry cannot be posted. -/
inductive Unposted (d : Database) (id : Uuid) (data : CashbookTransactionData)
    (shu capital : Money) : Error → Prop where
  | duplicate (taken : d.find .cashbookTransactions id ≠ none) :
      Unposted d id data shu capital .uniqueViolation
  | reference (missing : d.find data.owner.reference.1 data.owner.reference.2 = none) :
      Unposted d id data shu capital .foreignKeyViolation
  | overflow (full : ¬ Holds d.balances data.direction.sign shu capital) :
      Unposted d id data shu capital .numericFieldOverflow

section Entries

variable {d : Database} {s : Trx} {data : CashbookTransactionData} {shu capital : Money}
  {id : Uuid} {e : Error}

/-- The figures of an entry fit their columns when these can hold the balances after it. -/
theorem CashbookTransactionData.Over.figures_ne_none (h : data.Over d shu capital)
    (hrange : d.InRange) (hcovered : Covered d.balances data.direction.sign shu capital)
    (hholds : Holds d.balances data.direction.sign shu capital) {q : ℚ} (hq : q ∈ data.figures) :
    (Numeric.ofRat? q : Option Money) ≠ none := by
  have hfits : ∀ {q : ℚ} (z : ℤ), q = z / 10 ^ 4 → z.natAbs < 10 ^ 12 →
      (Numeric.ofRat? q : Option Money) ≠ none := by
    rintro _ z rfl hz
    exact ofRat?_ne_none hz
  have hbefore : ∀ b, (d.balances b).natAbs < 10 ^ 12 := fun b => by
    have hb := hrange b
    omega
  have hafter : ∀ b, (d.balances b + data.direction.sign * amountsOf shu capital b).natAbs <
      10 ^ 12 := fun b => by
    have hb₀ := hcovered.stays b
    have hb₁ := hholds b
    omega
  simp only [figures, h.shuAmount, h.capitalAmount, h.shuBalanceBefore, h.shuBalanceAfter,
    h.capitalBalanceBefore, h.capitalBalanceAfter, h.totalBalanceBefore, h.totalBalanceAfter,
    Database.balance, Numeric.toRat, List.mem_cons, List.not_mem_nil, or_false] at hq
  rcases hq with rfl | rfl | rfl | rfl | rfl | rfl | rfl | rfl
  · exact hfits shu.units rfl shu.inRange
  · exact hfits capital.units rfl capital.inRange
  · exact hfits (d.balances .shu) rfl (hbefore .shu)
  · exact hfits _ (by simp only [amountsOf]; push_cast; ring) (hafter .shu)
  · exact hfits (d.balances .capital) rfl (hbefore .capital)
  · exact hfits _ (by simp only [amountsOf]; push_cast; ring) (hafter .capital)
  · exact hfits (d.balances .total) rfl (hbefore .total)
  · exact hfits _ (by simp only [amountsOf]; push_cast; ring) (hafter .total)

theorem CashbookTransactionData.Over.toRow_error (h : data.Over d shu capital)
    (hrange : d.InRange) (hcovered : Covered d.balances data.direction.sign shu capital)
    (he : data.toRow id = .error e) : Unposted d id data shu capital e := by
  rcases CashbookTransactionData.toRow_error he with ⟨rfl, q, hq, hnone⟩ |
    ⟨-, shu', capital', hshu, hcapital, hzero⟩
  · exact .overflow fun hholds => h.figures_ne_none hrange hcovered hholds hq hnone
  · rw [h.shuAmount, Numeric.ofRat?_toRat] at hshu
    rw [h.capitalAmount, Numeric.ofRat?_toRat] at hcapital
    cases hshu
    cases hcapital
    exact absurd hcovered.positive (not_lt.2 hzero)

theorem updateBalance_overflow {b : BalanceType} {delta : ℤ} (hstays : 0 ≤ d.balances b + delta)
    (h : updateBalance d b delta = .error e) :
    e = .numericFieldOverflow ∧ 10 ^ 12 ≤ d.balances b + delta := by
  unfold updateBalance at h
  split at h
  · cases h
    exact ⟨rfl, by omega⟩
  · split at h
    · omega
    · cases h

theorem moveBucket_overflow {b : BalanceType} {sign amount : ℤ}
    (hstays : 0 ≤ d.balances b + sign * amount) (h : moveBucket d b sign amount = .error e) :
    e = .numericFieldOverflow ∧ 10 ^ 12 ≤ d.balances b + sign * amount := by
  unfold moveBucket at h
  split at h
  · exact updateBalance_overflow hstays h
  · cases h

/-- A covered entry can only fail in the trigger where a balance leaves its column. -/
theorem afterInsert_overflow {r : CashbookTransaction}
    (hcovered : Covered d.balances r.direction.sign r.shuAmount r.capitalAmount)
    (h : afterInsert d .cashbookTransactions r = .error e) :
    e = .numericFieldOverflow ∧ ¬ Holds d.balances r.direction.sign r.shuAmount r.capitalAmount := by
  have hmoves : moveBalances d r.direction.sign r.shuAmount.units r.capitalAmount.units =
      .error e := by
    rw [afterInsert, cashbookInsertBalance] at h
    have hshu := hcovered.stays .shu
    have hcapital := hcovered.stays .capital
    cases hdirection : r.direction with
    | in_ =>
        rw [hdirection] at h
        exact h
    | out =>
        simp only [hdirection, Direction.sign, amountsOf] at h hshu hcapital ⊢
        rwa [if_neg (by omega), if_neg (by omega)] at h
  have hfull : ∀ b, 10 ^ 12 ≤ d.balances b +
      r.direction.sign * amountsOf r.shuAmount r.capitalAmount b →
      ¬ Holds d.balances r.direction.sign r.shuAmount r.capitalAmount := fun b hb hholds =>
    absurd (hholds b) (not_lt.2 hb)
  rcases bind_error hmoves with hbucket | ⟨_, -, hmoves⟩
  · have hover := moveBucket_overflow (hcovered.stays .shu) hbucket
    exact ⟨hover.1, hfull .shu hover.2⟩
  rcases bind_error hmoves with hbucket | ⟨_, -, hmoves⟩
  · have hover := moveBucket_overflow (hcovered.stays .capital) hbucket
    exact ⟨hover.1, hfull .capital hover.2⟩
  rcases bind_error hmoves with htotal | ⟨_, -, hmoves⟩
  · have hover := updateBalance_overflow (hcovered.stays .total) htotal
    exact ⟨hover.1, hfull .total hover.2⟩
  · cases hmoves

theorem returns_insertInto {t : TableName} {row : Except Error (Row t)} {r : Row t} {d' : Database}
    {s' : Trx} : (inTrx (insertInto t row)).Returns d s r d' s' → d = d' ∧ row = .ok r ∧
      ∃ ws l, insertRow (s.view d) t r = .ok ws ∧ s' = s.extend ws l := by
  intro h
  obtain ⟨rfl, ws, hexec, rfl⟩ := Prog.returns_inTrx.1 h
  obtain ⟨r', hr, hexec⟩ := bind_ok hexec
  obtain ⟨ws', hinsert, hexec⟩ := bind_ok hexec
  cases hexec
  exact ⟨rfl, hr, _, _, hinsert, rfl⟩

theorem lock_createTransaction_returns {data : Balances → CashbookTransactionData}
    {r : CashbookTransaction} {d' : Database} {s' : Trx}
    (h : (do let before ← lockAllForUpdate; createTransaction id (data before)).Returns d s r d' s') :
    d = d' ∧ (data (s.view d).current).Stored id r ∧ Posted (s.view d) r ∧
      ∃ l, s' = s.extend r.postings l := by
  obtain ⟨before, d₁, s₁, hlock, hcreate⟩ := Prog.returns_bind.1 h
  obtain ⟨rfl, ws, hexec, rfl⟩ := Prog.returns_inTrx.1 hlock
  cases hexec
  obtain ⟨rfl, hrow, ws, l, hinsert, rfl⟩ := returns_insertInto hcreate
  obtain ⟨hposted, rfl⟩ := insertRow_cashbook hinsert
  rw [Session.view_extend_nil] at hposted
  exact ⟨rfl, toRow_ok hrow, hposted, _, extend_extend ..⟩

theorem createTransaction_throws {R : Error → Prop} (shu capital : Money)
    (h : data.Over (s.view d) shu capital)
    (hrange : (s.view d).InRange) (hcovered : Covered (s.view d).balances data.direction.sign shu capital)
    (hR : ∀ e, Unposted (s.view d) id data shu capital e → R e) :
    (createTransaction id data).Throws R d s := by
  refine throws_insertInto (fun e he => hR e (h.toRow_error hrange hcovered he)) fun r e hrow he => ?_
  have hstored := toRow_ok hrow
  have hshu := hstored.shuAmount
  have hcapital := hstored.capitalAmount
  rw [h.shuAmount, Numeric.ofRat?_toRat, Option.some.injEq] at hshu
  rw [h.capitalAmount, Numeric.ofRat?_toRat, Option.some.injEq] at hcapital
  rcases insertRow_error he with he | ⟨rfl, hfresh | ⟨_, hk, -⟩⟩ | ⟨rfl, ref, href, hmissing⟩ | he
  · cases he
  · exact hR _ (.duplicate (by rwa [show Row.id .cashbookTransactions r = id from hstored.id]
      at hfresh))
  · cases hk
  · refine hR _ (.reference ?_)
    rw [Row.references, hstored.incomeId, hstored.expenseId] at href
    cases howner : data.owner with
    | income incomeId =>
        rw [howner] at href
        obtain rfl : ref = (.incomes, incomeId) := by
          simpa [Owner.incomeId, Owner.expenseId] using href
        exact hmissing
    | expense expenseId =>
        rw [howner] at href
        obtain rfl : ref = (.expenses, expenseId) := by
          simpa [Owner.incomeId, Owner.expenseId] using href
        exact hmissing
  · rw [← hstored.direction, hshu, hcapital] at hcovered
    obtain ⟨rfl, hfull⟩ := afterInsert_overflow hcovered he
    rw [hstored.direction, ← hshu, ← hcapital] at hfull
    exact hR _ (.overflow hfull)

end Entries

end LumbungMesari
