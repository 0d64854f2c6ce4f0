import LumbungMesari.Footprints
import LumbungMesari.LedgerHistory
import LumbungMesari.Sql.Trace

/-!
# The snapshots of ledger rows

The service computes what the balances are before and after a ledger row, once from a read and once
from what it has computed before; the trigger moves the balances on its own. Statement by statement,
the two agree.
-/

namespace LumbungMesari

open Sql
open Prog (inTrx onPool commitTrx writes_inTrx writes_onPool)

/-! ### What a row says -/

/-- The snapshots of a row are balances before and after. -/
structure CashbookTransaction.Records (r : CashbookTransaction)
    (before after : BalanceType → ℤ) : Prop where
  shuBefore : r.shuBalanceBefore.units = before .shu
  shuAfter : r.shuBalanceAfter.units = after .shu
  capitalBefore : r.capitalBalanceBefore.units = before .capital
  capitalAfter : r.capitalBalanceAfter.units = after .capital
  totalBefore : r.totalBalanceBefore.units = before .total
  totalAfter : r.totalBalanceAfter.units = after .total

/-- The snapshots of a row agree with each other and with its amounts. -/
structure CashbookTransaction.AddsUp (r : CashbookTransaction) : Prop where
  before : r.totalBalanceBefore.units = r.shuBalanceBefore.units + r.capitalBalanceBefore.units
  after : r.totalBalanceAfter.units = r.shuBalanceAfter.units + r.capitalBalanceAfter.units
  shu : r.shuBalanceAfter.units - r.shuBalanceBefore.units = r.signed .shu
  capital : r.capitalBalanceAfter.units - r.capitalBalanceBefore.units = r.signed .capital
  total : r.totalBalanceAfter.units - r.totalBalanceBefore.units = r.signed .total

/-- Every ledger row that a statement inserts records the balances before the statement and after
it. -/
def KeepsSnapshots (v : Database) (ws : List Write) : Prop :=
  ∀ r, Write.insert .cashbookTransactions r ∈ ws →
    r.Records v.balances (applyAll v ws).balances ∧ r.AddsUp

/-- A write that is not the insertion of a ledger row. -/
def Write.PostsNothing (w : Write) : Prop := ∀ r, w ≠ .insert .cashbookTransactions r

theorem keepsSnapshots_of_postsNothing {v : Database} {ws : List Write}
    (h : ∀ w ∈ ws, w.PostsNothing) : KeepsSnapshots v ws :=
  fun r hr => absurd rfl (h _ hr r)

theorem Write.Spares.postsNothing {w : Write} (h : w.Spares .cashbookTransactions) :
    w.PostsNothing := by
  rintro r rfl
  exact h rfl

theorem keepsSnapshots_of_spares {v : Database} {ws : List Write}
    (h : ∀ w ∈ ws, w.Spares .cashbookTransactions) : KeepsSnapshots v ws :=
  keepsSnapshots_of_postsNothing fun w hw => (h w hw).postsNothing

theorem postsNothing_updateRows {t : TableName} {set : Row t → Row t} {rs : List (Row t)}
    {d : Database} {ws : List Write} (h : updateRows d t set rs = .ok ws) :
    ∀ w ∈ ws, w.PostsNothing := by
  induction rs generalizing d ws with
  | nil =>
      cases h
      exact fun w hw => by cases hw
  | cons r rs ih =>
      obtain ⟨ws₁, hrow, h⟩ := bind_ok h
      obtain ⟨ws₂, hrest, h⟩ := bind_ok h
      cases h
      obtain ⟨-, ws', hafter, rfl⟩ := updateRow_ok hrow
      intro w hw
      rcases List.mem_append.1 hw with hw | hw
      · rcases List.mem_cons.1 hw with rfl | hw
        · exact fun r' he => by cases he
        · exact (spares_afterUpdate hafter w hw).postsNothing
      · exact ih hrest w hw

theorem postsNothing_updateWhere {t : TableName} {p : Row t → Bool} {set : Row t → Row t} :
    (updateWhere t p set).Writes Write.PostsNothing := by
  intro d ws b hexec
  obtain ⟨ws', hupdate, hexec⟩ := bind_ok hexec
  cases hexec
  exact postsNothing_updateRows hupdate

/-! ### Computed snapshots -/

/-- The columns of a new row are computed from balances `before`. -/
structure CashbookTransactionData.Snapshot (data : CashbookTransactionData) (before : Balances) :
    Prop where
  shuBefore : data.shuBalanceBefore = before.shu
  shuAfter : data.shuBalanceAfter = before.shu + data.direction.sign * data.shuAmount
  capitalBefore : data.capitalBalanceBefore = before.capital
  capitalAfter : data.capitalBalanceAfter = before.capital + data.direction.sign * data.capitalAmount
  totalBefore : data.totalBalanceBefore = before.total
  totalAfter : data.totalBalanceAfter =
    before.total + data.direction.sign * (data.shuAmount + data.capitalAmount)

/-- Amounts that the columns round alike, alone and added to a balance. -/
def CashbookTransactionData.Exact (data : CashbookTransactionData) : Prop :=
  (0 ≤ data.shuAmount ∧ 0 ≤ data.capitalAmount ∧
    Decimal 4 data.shuAmount ∧ Decimal 4 data.capitalAmount) ∨
  data.direction = .in_ ∧ (data.shuAmount = 0 ∨ data.capitalAmount = 0)

section Entries

variable (amount shuAmount capitalAmount : ℚ) (before : Balances) (txnDate : Date) (id : Uuid)

theorem incomeEntry_snapshot (destination : IncomeDestination) :
    (incomeEntry id amount destination before txnDate).Snapshot before := by
  cases destination <;> constructor <;> simp [incomeEntry, Direction.sign]

theorem incomeEntry_exact (destination : IncomeDestination) :
    (incomeEntry id amount destination before txnDate).Exact := by
  refine .inr ⟨rfl, ?_⟩
  cases destination
  · exact .inr rfl
  · exact .inl rfl

theorem expenseEntry_snapshot :
    (expenseEntry id shuAmount capitalAmount before txnDate).Snapshot before := by
  constructor <;> simp [expenseEntry, Direction.sign, sub_eq_add_neg]

theorem reversalEntry_snapshot (o : Owner) (original : CashbookTransaction) :
    (reversalEntry o original before).Snapshot before := by
  cases o <;> constructor <;>
    simp [reversalEntry, afterReversal, Owner.direction, Direction.opposite, Direction.sign,
      sub_eq_add_neg]

theorem reversalEntry_exact {original : CashbookTransaction} (o : Owner) (h : original.Nonneg) :
    (reversalEntry o original before).Exact :=
  .inl ⟨Numeric.toRat_nonneg.2 h.shu, Numeric.toRat_nonneg.2 h.capital,
    original.shuAmount.decimal_toRat, original.capitalAmount.decimal_toRat⟩

theorem correctedEntry_snapshot (o : Owner) :
    (correctedEntry o shuAmount capitalAmount before txnDate).Snapshot before :=
  ⟨rfl, rfl, rfl, rfl, rfl, rfl⟩

end Entries

/-! ### Stored snapshots -/

section Stored

theorem units_after {before : ℤ} {sign : ℤ} {amount : ℚ} {m : Money}
    (h : Numeric.ofRat? ((before : ℚ) / 10 ^ 4 + sign * amount) = some m)
    (hexact : Decimal 4 amount ∨ sign = 1 ∧ 0 ≤ before ∧ 0 ≤ amount) :
    m.units = before + sign * roundHalfAway (amount * 10 ^ 4) := by
  rw [Numeric.ofRat?_some h, add_mul, div_mul_cancel₀ _ (by norm_num), mul_assoc]
  rcases hexact with hdecimal | ⟨rfl, hbefore, hamount⟩
  · rw [← hdecimal.round, ← Int.cast_mul, ← Int.cast_add, roundHalfAway_intCast,
      roundHalfAway_intCast]
  · have hbefore : (0 : ℚ) ≤ before := Int.cast_nonneg hbefore
    have hunits : 0 ≤ amount * 10 ^ 4 := by positivity
    rw [Int.cast_one, one_mul, one_mul, roundHalfAway_intCast_add hunits (by positivity)]

theorem round_add {a b : ℚ} (h : Decimal 4 a ∧ Decimal 4 b ∨ a = 0 ∨ b = 0) :
    roundHalfAway ((a + b) * 10 ^ 4) =
      roundHalfAway (a * 10 ^ 4) + roundHalfAway (b * 10 ^ 4) := by
  have hzero : roundHalfAway 0 = 0 := roundHalfAway_intCast 0
  rcases h with ⟨ha, hb⟩ | rfl | rfl
  · rw [add_mul, ← ha.round, ← hb.round, ← Int.cast_add, roundHalfAway_intCast,
      roundHalfAway_intCast, roundHalfAway_intCast]
  · rw [zero_add, zero_mul, hzero, zero_add]
  · rw [add_zero, zero_mul, hzero, add_zero]

namespace CashbookTransactionData.Stored

variable {data : CashbookTransactionData} {id : Uuid} {r : CashbookTransaction} {v : Database}

theorem amounts_of_zero (h : data.Stored id r) (hzero : data.shuAmount = 0 ∨ data.capitalAmount = 0) :
    0 ≤ data.shuAmount ∧ 0 ≤ data.capitalAmount := by
  have hpositive := r.amountsPositive
  have hround : ∀ {q : ℚ} {m : Money}, Numeric.ofRat? q = some m → q = 0 → m.units = 0 := by
    rintro q m hq rfl
    rw [Numeric.ofRat?_some hq, zero_mul]
    exact roundHalfAway_intCast 0
  have hamount : ∀ {q : ℚ} {m : Money}, Numeric.ofRat? q = some m → 0 < m.units → 0 ≤ q := by
    intro q m hq hm
    rw [Numeric.ofRat?_some hq] at hm
    exact (pos_of_mul_pos_left (pos_of_roundHalfAway_pos hm) (by norm_num)).le
  rcases hzero with hz | hz
  · have hunits := hround h.shuAmount hz
    exact ⟨hz.ge, hamount h.capitalAmount (by omega)⟩
  · have hunits := hround h.capitalAmount hz
    exact ⟨hamount h.shuAmount (by omega), hz.ge⟩

theorem nonneg_of_exact (h : data.Stored id r) (hexact : data.Exact) : r.Nonneg := by
  rcases hexact with ⟨hshu, hcapital, -⟩ | ⟨-, hzero⟩
  · exact h.nonneg hshu hcapital
  · obtain ⟨hshu, hcapital⟩ := h.amounts_of_zero hzero
    exact h.nonneg hshu hcapital

/-- A row whose snapshots were computed from the balances records them, and the balances the trigger
makes of them. -/
theorem records (h : data.Stored id r) (hexact : data.Exact) (hsnapshot : data.Snapshot v.current)
    (hinRange : v.InRange) : r.Records v.balances (applyAll v r.postings).balances := by
  have hr := h.nonneg_of_exact hexact
  have hbefore : ∀ (b : BalanceType) {q : ℚ} {m : Money}, q = v.balance b →
      Numeric.ofRat? q = some m → m.units = v.balances b := by
    rintro b q m rfl hm
    rw [Numeric.ofRat?_some hm, Database.balance, div_mul_cancel₀ _ (by norm_num),
      roundHalfAway_intCast]
  have hcase : ∀ {q : ℚ} (b : BalanceType), 0 ≤ q → (data.direction ≠ .in_ → Decimal 4 q) →
      Decimal 4 q ∨ data.direction.sign = 1 ∧ 0 ≤ v.balances b ∧ 0 ≤ q := by
    intro q b hq hdecimal
    cases hdirection : data.direction with
    | in_ => exact .inr ⟨rfl, (hinRange b).1, hq⟩
    | out => exact .inl (hdecimal (by simp [hdirection]))
  have hamounts : 0 ≤ data.shuAmount ∧ 0 ≤ data.capitalAmount := by
    rcases hexact with ⟨hshu, hcapital, -⟩ | ⟨-, hzero⟩
    · exact ⟨hshu, hcapital⟩
    · exact h.amounts_of_zero hzero
  have hdecimals : data.direction ≠ .in_ → Decimal 4 data.shuAmount ∧ Decimal 4 data.capitalAmount := by
    intro hout
    rcases hexact with ⟨-, -, hdecimals⟩ | ⟨hin, -⟩
    · exact hdecimals
    · exact absurd hin hout
  have hsplit : Decimal 4 data.shuAmount ∧ Decimal 4 data.capitalAmount ∨
      data.shuAmount = 0 ∨ data.capitalAmount = 0 := by
    rcases hexact with ⟨-, -, hdecimals⟩ | ⟨-, hzero⟩
    · exact .inl hdecimals
    · exact .inr hzero
  have hshuAfter := h.shuBalanceAfter
  have hcapitalAfter := h.capitalBalanceAfter
  have htotalAfter := h.totalBalanceAfter
  rw [hsnapshot.shuAfter] at hshuAfter
  rw [hsnapshot.capitalAfter] at hcapitalAfter
  rw [hsnapshot.totalAfter] at htotalAfter
  refine ⟨hbefore .shu hsnapshot.shuBefore h.shuBalanceBefore, ?_,
    hbefore .capital hsnapshot.capitalBefore h.capitalBalanceBefore, ?_,
    hbefore .total hsnapshot.totalBefore h.totalBalanceBefore, ?_⟩
  · rw [CashbookTransaction.balances_postings v hr, CashbookTransaction.signed, h.direction,
      CashbookTransaction.amount, Numeric.ofRat?_some h.shuAmount]
    exact units_after hshuAfter (hcase .shu hamounts.1 fun hout => (hdecimals hout).1)
  · rw [CashbookTransaction.balances_postings v hr, CashbookTransaction.signed, h.direction,
      CashbookTransaction.amount, Numeric.ofRat?_some h.capitalAmount]
    exact units_after hcapitalAfter (hcase .capital hamounts.2 fun hout => (hdecimals hout).2)
  · rw [CashbookTransaction.balances_postings v hr, CashbookTransaction.signed, h.direction,
      CashbookTransaction.amount, Numeric.ofRat?_some h.shuAmount,
      Numeric.ofRat?_some h.capitalAmount, ← round_add hsplit]
    exact units_after htotalAfter (hcase .total (add_nonneg hamounts.1 hamounts.2)
      fun hout => (hdecimals hout).1.add (hdecimals hout).2)

end CashbookTransactionData.Stored

end Stored

/-! ### Statements -/

/-- Balances in their range, whose total is the two buckets. -/
structure Database.Balanced (v : Database) : Prop where
  inRange : v.InRange
  total : v.balances .total = v.balances .shu + v.balances .capital

theorem Database.Balanced.congr {v v' : Database} (h : v.Balanced)
    (hbalances : v'.balances = v.balances) : v'.Balanced where
  inRange b := hbalances ▸ h.inRange b
  total := hbalances ▸ h.total

section Observations

variable {data : CashbookTransactionData} {id : Uuid} {r : CashbookTransaction} {v d : Database}
  {s : Trx}

theorem balanced_postings (hr : r.Nonneg) (hposted : Posted v r) (h : v.Balanced) :
    (applyAll v r.postings).Balanced where
  inRange := hposted.inRange hr h.inRange
  total := by
    simp only [CashbookTransaction.balances_postings v hr, h.total, CashbookTransaction.signed,
      CashbookTransaction.amount]
    ring

theorem CashbookTransaction.Records.addsUp
    (h : r.Records v.balances (applyAll v r.postings).balances) (hr : r.Nonneg)
    (htotal : v.balances .total = v.balances .shu + v.balances .capital) : r.AddsUp := by
  have hafter := CashbookTransaction.balances_postings v hr
  refine ⟨?_, ?_, ?_, ?_, ?_⟩
  · rw [h.totalBefore, h.shuBefore, h.capitalBefore, htotal]
  · rw [h.totalAfter, h.shuAfter, h.capitalAfter, hafter, hafter, hafter, htotal]
    simp only [CashbookTransaction.signed, CashbookTransaction.amount]
    ring
  · rw [h.shuAfter, h.shuBefore, hafter, add_sub_cancel_left]
  · rw [h.capitalAfter, h.capitalBefore, hafter, add_sub_cancel_left]
  · rw [h.totalAfter, h.totalBefore, hafter, add_sub_cancel_left]

theorem CashbookTransactionData.Stored.keepsSnapshots (h : data.Stored id r) (hexact : data.Exact)
    (hsnapshot : data.Snapshot v.current) (hv : v.Balanced) : KeepsSnapshots v r.postings := by
  intro r' hr'
  have hr := h.nonneg_of_exact hexact
  obtain rfl : r' = r := by
    rcases List.mem_cons.1 hr' with hsame | hmoves
    · exact Write.insert.inj hsame |>.2 |> eq_of_heq
    · have hnone := table?_moves hmoves
      cases hnone
  have hrecords := h.records hexact hsnapshot hv.inRange
  exact ⟨hrecords, hrecords.addsUp hr hv.total⟩

theorem createTransaction_observes {Q : CashbookTransaction → Database → Trx → Prop}
    (hv : (s.view d).Balanced) (hexact : data.Exact) (hsnapshot : data.Snapshot (s.view d).current)
    (h : ∀ r l, data.Stored id r → Posted (s.view d) r → Q r d (s.extend r.postings l)) :
    (createTransaction id data).observes KeepsSnapshots Q d s := by
  refine Prog.observes_inTrx.2 fun ws r hexec => ?_
  obtain ⟨r', hrow, hexec⟩ := bind_ok hexec
  obtain ⟨ws', hinsert, hexec⟩ := bind_ok hexec
  cases hexec
  obtain ⟨hposted, rfl⟩ := insertRow_cashbook hinsert
  have hstored := toRow_ok hrow
  exact ⟨hstored.keepsSnapshots hexact hsnapshot hv, h r _ hstored hposted⟩

theorem lockAllForUpdate_observes {Q : Balances → Database → Trx → Prop}
    (h : ∀ l, Q (s.view d).current d (s.extend [] l)) :
    lockAllForUpdate.observes KeepsSnapshots Q d s := by
  refine (writes_inTrx writes_selectForUpdate).observes keepsSnapshots_of_spares
    (lockAllForUpdate_wp fun d' l henv _ => ?_)
  cases henv
  exact h l

theorem lock_createTransaction_observes {data : Balances → CashbookTransactionData}
    {Q : CashbookTransaction → Database → Trx → Prop} (hv : (s.view d).Balanced)
    (hexact : ∀ before, (data before).Exact) (hsnapshot : ∀ before, (data before).Snapshot before)
    (h : ∀ r l, (data (s.view d).current).Stored id r → Posted (s.view d) r →
      Q r d (s.extend r.postings l)) :
    (do let before ← lockAllForUpdate; createTransaction id (data before)).observes KeepsSnapshots Q
      d s := by
  rw [Prog.observes_bind]
  refine lockAllForUpdate_observes fun l => ?_
  have hview : (s.extend [] l).view d = s.view d := Session.view_extend_nil ..
  refine createTransaction_observes (hview ▸ hv) (hexact _) ?_ fun r l' hr hposted => ?_
  · rw [hview]
    exact hsnapshot _
  · rw [hview] at hposted
    rw [extend_extend]
    exact h r _ hr hposted

variable {now : Date} {Q : Unit → Database → Trx → Prop}

/-- The balances as they are after a reversal is posted are the ones the service goes on with. -/
theorem current_postings_reversal {reversalId : Uuid} {o : Owner} {original : CashbookTransaction}
    (horiginal : original.Nonneg)
    (h : (reversalEntry o original v.current).Stored reversalId r) :
    (applyAll v r.postings).current = afterReversal o original v.current := by
  have hshu := ofRat?_toRat_eq h.shuAmount
  have hcapital := ofRat?_toRat_eq h.capitalAmount
  have hr : r.Nonneg := ⟨hshu ▸ horiginal.shu, hcapital ▸ horiginal.capital⟩
  have hsign : r.direction.sign = -o.direction.sign := by
    rw [h.direction]
    cases o <;> rfl
  have hbalance : ∀ b, (applyAll v r.postings).balance b =
      v.balance b - o.direction.sign * (original.amount b / 10 ^ 4) := by
    intro b
    have hamount : r.amount b = original.amount b := by
      cases b <;> simp only [CashbookTransaction.amount, hshu, hcapital]
    rw [Database.balance, CashbookTransaction.balances_postings v hr, CashbookTransaction.signed,
      hsign, hamount, Database.balance]
    push_cast
    ring
  simp only [Database.current, afterReversal, hbalance, CashbookTransaction.amount, Numeric.toRat]
  push_cast
  simp only [add_div]

theorem updateTransaction_observes {reversalId newId : Uuid} {o : Owner} {notFound : Error}
    {newShuAmount newCapitalAmount : ℚ} {txnDate : Option Date} (hv : (s.view d).Balanced)
    (hnonneg : ∀ r ∈ (s.view d).rows .cashbookTransactions, r.Nonneg)
    (hexact : ∀ before date, (correctedEntry o newShuAmount newCapitalAmount before date).Exact)
    (h : ∀ s', Q () d s') :
    (updateTransaction reversalId newId o notFound newShuAmount newCapitalAmount txnDate
      now).observes KeepsSnapshots Q d s := by
  unfold updateTransaction findLatestActive
  rw [Prog.observes_bind]
  refine (writes_inTrx writes_select).observes keepsSnapshots_of_spares (wp_select fun d' henv => ?_)
  cases henv
  split
  · trivial
  rename_i original hfind
  have horiginal : original.Nonneg :=
    hnonneg original (List.mem_reverse.1 (List.mem_of_find?_eq_some hfind))
  rw [Prog.observes_bind]
  refine lockAllForUpdate_observes fun l₁ => ?_
  rw [Prog.observes_bind]
  refine (writes_inTrx postsNothing_updateWhere).observes keepsSnapshots_of_postsNothing
    (updateWhere_softDelete_wp fun d' rs l₂ henv _ _ => ?_)
  cases henv
  rw [extend_extend, List.nil_append]
  -- hiding the entry moves no balance
  generalize hhidden : s.extend _ (l₁ ++ l₂) = s₂
  have hbalances : (s₂.view d).balances = (s.view d).balances := by
    funext b
    rw [← hhidden, Session.view_extend, Database.balances_applyAll, delta_updates, add_zero]
  have hcurrent : (s₂.view d).current = (s.view d).current := by
    simp only [Database.current, Database.balance, hbalances]
  have hv₂ := hv.congr hbalances
  rw [Prog.observes_bind]
  refine createTransaction_observes hv₂ (reversalEntry_exact _ o horiginal)
    (hcurrent ▸ reversalEntry_snapshot _ o original) fun reversal l₃ hreversal hposted => ?_
  rw [← hcurrent] at hreversal
  have hnext := current_postings_reversal horiginal hreversal
  rw [← Session.view_extend s₂ _ l₃] at hnext
  rw [Prog.observes_bind]
  refine createTransaction_observes ?_ (hexact _ _) ?_ fun new l₄ _ _ => h _
  · rw [Session.view_extend]
    exact balanced_postings (hreversal.nonneg_of_exact (reversalEntry_exact _ o horiginal)) hposted hv₂
  · rw [hnext, hcurrent]
    exact correctedEntry_snapshot ..

theorem createExpenseInTransaction_observes {ids : ExpenseIds} {dto : CreateExpenseDto}
    {currentUserId : Uuid} {Q : Expense → Database → Trx → Prop} (hv : (s.view d).Balanced)
    (hamount : 0 < dto.amount) (h : ∀ e s', Q e d s') :
    (createExpenseInTransaction ids dto currentUserId now).observes KeepsSnapshots Q d s := by
  unfold createExpenseInTransaction findExpenseCategoryById
  rw [Prog.observes_bind]
  refine (writes_onPool writes_select).observes keepsSnapshots_of_spares
    (wp_selectOnPool fun d' henv => ?_)
  cases henv
  split
  · trivial
  rw [Prog.observes_bind]
  refine tame_allocateAmounts.writes.observes keepsSnapshots_of_spares
    (allocateAmounts_wp hamount (by simp) (fun d' henv => ?_) fun d' a l henv ha ha' _ => ?_)
  · cases henv
    exact hv.inRange
  cases henv
  rw [Prog.observes_bind, createExpenseRow]
  refine (writes_inTrx (writes_insertInto (by decide))).observes keepsSnapshots_of_spares
    (wp_insertInto fun d' e ws l' henv _ hinsert _ => ?_)
  cases henv
  obtain ⟨-, rfl⟩ := insertRow_plain (by decide) hinsert
  rw [extend_extend, List.nil_append, Prog.observes_bind]
  refine lock_createTransaction_observes ?_ (fun _ => .inl ⟨ha.1, ha.2, ha'.1, ha'.2⟩)
    (fun before => expenseEntry_snapshot _ _ before _ _) fun r l'' _ _ => h e _
  rw [Session.view_extend]
  exact hv.congr rfl

end Observations

/-! ### Calls -/

namespace LedgerCall

/-- The amounts have passed the DTO: those of expenses have `maxDecimalPlaces: 4`, so what the
service subtracts is what the columns store. -/
def Validated : LedgerCall → Prop
  | createExpense _ dto _ _ => Decimal 4 dto.amount
  | updateExpense _ _ dto _ => ∀ amount ∈ dto.amount, Decimal 4 amount
  | _ => True

variable {d : Database} {s : Trx} {now : Date}

/-- After its last ledger row a call only commits and reads. -/
theorem observes_of_spares {α : Type} {p : Program α}
    (h : p.Writes (Write.Spares .cashbookTransactions)) :
    p.observes KeepsSnapshots (fun _ _ _ => True) d s :=
  h.observes keepsSnapshots_of_spares Prog.wp_alone_true

theorem postsNothing_of_spares {α : Type} {p : Program α}
    (h : p.Writes (Write.Spares .cashbookTransactions)) : p.Writes Write.PostsNothing :=
  h.mono fun _ => Write.Spares.postsNothing

theorem postsNothing_deleteTransaction {o : Owner} {label : ℚ → ℚ → Label} :
    (deleteTransaction o label now).Writes Write.PostsNothing := by
  refine .bind (writes_inTrx writes_select) fun rows => ?_
  dsimp only
  split
  · trivial
  · refine .bind (postsNothing_of_spares tame_takeBack.writes) fun _ =>
      .bind (postsNothing_of_spares tame_takeBack.writes) fun _ =>
      .bind (postsNothing_of_spares tame_takeBack.writes) fun _ => ?_
    exact .bind (writes_inTrx writes_select) fun _ => writes_inTrx postsNothing_updateWhere

theorem postsNothing_deleteExpenseById {id : Uuid} :
    (deleteExpenseById id).Writes Write.PostsNothing := by
  refine writes_inTrx fun d ws b hexec => ?_
  simp only [statement] at hexec
  split at hexec
  · cases hexec
    exact fun w hw => by cases hw
  · obtain ⟨ws', hdisown, hexec⟩ := bind_ok hexec
    cases hexec
    intro w hw
    rcases List.mem_cons.1 hw with rfl | hw
    · exact fun r he => by cases he
    · exact postsNothing_updateRows hdisown w hw

theorem createExpense_observes (hv : d.Balanced) {ids : ExpenseIds} {dto : CreateExpenseDto}
    {currentUserId : Uuid} :
    (createExpense ids dto currentUserId now).program.observes KeepsSnapshots (fun _ _ _ => True) d
      .idle := by
  rw [program, Prog.observes_bind, LumbungMesari.createExpense]
  split
  · trivial
  rename_i hamount
  rw [Prog.observes_bind]
  exact createExpenseInTransaction_observes hv (checkAmount_ok hamount) fun _ _ =>
    observes_of_spares tame_readExpense.writes

theorem updateExpense_observes (h : LedgerSound d) {ids : ExpenseIds} {id : Uuid}
    {dto : UpdateExpenseDto} :
    (updateExpense ids id dto now).program.observes KeepsSnapshots (fun _ _ _ => True) d .idle := by
  have htotal := h.total
  obtain ⟨_, _, -, hd⟩ := h
  rw [program, Prog.observes_bind, LumbungMesari.updateExpense, findByIdWithCategory,
    Prog.observes_bind]
  refine (writes_onPool writes_select).observes keepsSnapshots_of_spares
    (wp_selectOnPool fun d' henv => ?_)
  cases henv
  split
  · trivial
  rename_i existing category hfound
  obtain ⟨existing, hexisting, hpair⟩ := Option.map_eq_some_iff.1 hfound
  cases hpair
  split
  · trivial
  rename_i hamount
  rw [Prog.observes_bind]
  refine tame_findNewCategory.writes.observes keepsSnapshots_of_spares
    (findNewCategory_wp fun d' newCategory henv => ?_)
  cases henv
  rw [Prog.observes_bind, updateExpenseInTransaction, Prog.observes_bind]
  refine tame_reallocate.writes.observes keepsSnapshots_of_spares (reallocate_wp (fun q hq => ?_)
    (hd.allocation_nonneg Expense.Agrees.allocation hexisting) (fun d' henv => ?_)
    fun d' amounts l henv ha ha' => ?_)
  · rw [Option.mem_def] at hq
    rw [hq] at hamount
    exact checkAmount_ok hamount
  · cases henv
    exact hd.inRange
  cases henv
  rw [Prog.observes_bind, updateExpenseById]
  -- the update of the expense leaves the ledger alone
  have hpost : ∀ s' : Trx, (s'.view d).balances = d.balances →
      (s'.view d).rows .cashbookTransactions = d.rows .cashbookTransactions →
      (if amounts.isSome || dto.transactionDate.isSome then
        updateExpenseTransaction ids.reversal ids.ledger id
          (amounts.getD existing.allocation).shuAmount
          (amounts.getD existing.allocation).capitalAmount dto.transactionDate now
      else pure () : Program Unit).observes KeepsSnapshots
        (fun _ d s => (do commitTrx; readExpense id : Program Expense).observes KeepsSnapshots
          (fun _ _ _ => True) d s) d s' := by
    intro s' hbalances hrows
    have hrest : ∀ s' : Trx, (do commitTrx; readExpense id : Program Expense).observes KeepsSnapshots
        (fun _ _ _ => True) d s' := fun s' =>
      observes_of_spares (.bind trivial fun _ => tame_readExpense.writes)
    split
    · refine updateTransaction_observes ?_ (fun r hr => ?_) (fun before date => ?_) hrest
      · exact (Database.Balanced.mk hd.inRange htotal).congr hbalances
      · rw [hrows] at hr
        exact hd.books.nonneg r hr
      · exact .inl ⟨ha.1, ha.2, ha'.1, ha'.2⟩
    · exact hrest s'
  refine (writes_inTrx (writes_updateById (by decide))).observes keepsSnapshots_of_spares
    (wp_updateById (fun d' l' henv _ => ?_) fun d' e e' ws l' henv _ _ hupdate _ _ => ?_)
  · cases henv
    refine hpost _ ?_ ?_ <;> rw [extend_extend, Session.view_extend] <;> rfl
  · cases henv
    obtain ⟨-, rfl⟩ := updateRow_plain (by decide) hupdate
    refine hpost _ ?_ ?_ <;> rw [extend_extend, Session.view_extend]
    · rfl
    · exact d.rows_update_ne (by decide) e'

theorem observes (h : LedgerSound d) (x : LedgerCall) :
    x.program.observes KeepsSnapshots (fun _ _ _ => True) d .idle := by
  have htotal := h.total
  have hsound := h
  obtain ⟨_, _, -, hd⟩ := h
  have hv : d.Balanced := ⟨hd.inRange, htotal⟩
  cases x with
  | createIncomeTransaction id incomeId amount destination txnDate now =>
      rw [program, Prog.observes_bind]
      exact lock_createTransaction_observes hv (fun _ => incomeEntry_exact ..)
        (fun _ => incomeEntry_snapshot ..) fun _ _ _ _ => trivial
  | updateIncomeTransaction reversalId newId incomeId amount destination txnDate now =>
      rw [program, Prog.observes_bind, LumbungMesari.updateIncomeTransaction]
      refine updateTransaction_observes hv (fun r hr => hd.books.nonneg r hr)
        (fun before date => .inr ⟨rfl, ?_⟩) fun _ => trivial
      cases destination
      · exact .inr rfl
      · exact .inl rfl
  | createExpense ids dto currentUserId now => exact createExpense_observes hv
  | updateExpense ids id dto now => exact updateExpense_observes hsound
  | deleteExpense id now =>
      refine Prog.Writes.observes (P := Write.PostsNothing) keepsSnapshots_of_postsNothing ?_
        Prog.wp_alone_true
      refine .bind (writes_onPool writes_select) fun found => ?_
      cases found with
      | none => trivial
      | some expense =>
          exact .bind postsNothing_deleteTransaction fun _ =>
            .bind postsNothing_deleteExpenseById fun _ => trivial
  | deleteIncomeTransaction incomeId now =>
      refine Prog.Writes.observes (P := Write.PostsNothing) keepsSnapshots_of_postsNothing ?_
        Prog.wp_alone_true
      exact .bind postsNothing_deleteTransaction fun _ => trivial

end LedgerCall

/-- **Snapshots agree with the trigger.** Along any complete calls from the migrated state, every
statement that inserts a ledger row has found the balances the row calls the balances before it, and
has left the ones it calls the balances after it, both rows of a correction included. -/
theorem snapshots_agree {d₀ : Database} (h₀ : Migrated d₀) (xs : List LedgerCall) (x : LedgerCall)
    (_ : x.Validated) {v : Database} {ws : List Write}
    (hst : (v, ws) ∈ x.program.statements (runCalls LedgerCall.program d₀ xs) .idle)
    {r : CashbookTransaction} (hr : .insert .cashbookTransactions r ∈ ws) :
    r.Records v.balances (applyAll v ws).balances ∧ r.AddsUp :=
  (LedgerCall.observes (h₀.ledgerSound.calls xs) x).statements (v, ws) hst r hr

/-- The ledger rows a call inserts when it runs alone. -/
def LedgerCall.inserted (x : LedgerCall) (d : Database) : List CashbookTransaction :=
  (x.program.statements d .idle).flatMap fun st => st.2.filterMap fun
    | .insert .cashbookTransactions r => some r
    | _ => none

/-- The reversal and the new entry of the update among `ledgerCalls`. -/
theorem snapshots_agree_withDonation :
    let d := runCalls LedgerCall.program withDonation (ledgerCalls.take 3)
    let x : LedgerCall := .updateExpense ⟨1, 6, 7⟩ 1 ⟨none, none, some 1, none, none, none, none⟩
      ⟨2026, 5, 1⟩
    (x.inserted d).map (·.isReversal) = [true, false] ∧ ∀ r ∈ x.inserted d, r.AddsUp := by
  refine ⟨by decide +kernel, fun r hr => ?_⟩
  obtain ⟨⟨v, ws⟩, hst, hr⟩ := List.mem_flatMap.1 hr
  obtain ⟨w, hw, hrow⟩ := List.mem_filterMap.1 hr
  have hx : (LedgerCall.updateExpense ⟨1, 6, 7⟩ 1 ⟨none, none, some 1, none, none, none, none⟩
      ⟨2026, 5, 1⟩).Validated := fun amount hamount => by
    cases hamount
    exact ⟨10000, by norm_num⟩
  split at hrow
  · cases hrow
    exact (snapshots_agree migrated_withDonation (ledgerCalls.take 3) _ hx hst hw).2
  · cases hrow

end LumbungMesari
