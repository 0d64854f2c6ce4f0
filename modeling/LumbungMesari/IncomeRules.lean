import LumbungMesari.Incomes
import LumbungMesari.CorrectionRules

/-!
# Rules for incomes

An income is always recorded together with its ledger row. The entries of a group of incomes are
the ledger rows that were posted for them.
-/

namespace LumbungMesari

open Sql
open Prog (inTrx)

/-! ### Entries -/

/-- The ledger rows posted for the incomes that meet a condition. -/
def Database.entries (d : Database) (p : Income → Bool) : List CashbookTransaction :=
  (d.rows .cashbookTransactions).filter fun r => (r.incomeId.bind (d.find .incomes)).any p

/-- What ledger rows post: their directions and their amounts, SHU first. -/
def postedAmounts (rows : List CashbookTransaction) : List (Direction × Money × Money) :=
  rows.map fun r => (r.direction, r.shuAmount, r.capitalAmount)

/-- Every ledger row of an income refers to an income that exists. -/
def Database.IncomesExist (d : Database) : Prop :=
  ∀ r ∈ d.rows .cashbookTransactions, ∀ i ∈ r.incomeId, d.find .incomes i ≠ none

theorem entries_congr {d d' : Database} (hincomes : d'.table .incomes = d.table .incomes)
    (hledger : d'.table .cashbookTransactions = d.table .cashbookTransactions)
    (p : Income → Bool) : d'.entries p = d.entries p := by
  have hfind : ∀ i, d'.find .incomes i = d.find .incomes i := Database.find_congr hincomes
  have hrows : d'.rows .cashbookTransactions = d.rows .cashbookTransactions :=
    congrArg Table.rows hledger
  rw [Database.entries, Database.entries, hrows]
  exact List.filter_congr fun r _ => by cases r.incomeId <;> simp [hfind]

theorem entries_eq_nil {d : Database} {p : Income → Bool} (h : ∀ inc ∈ d.rows .incomes, p inc = false) :
    d.entries p = [] := by
  refine List.filter_eq_nil_iff.2 fun r _ hr => ?_
  obtain ⟨inc, hinc, hp⟩ := Option.any_eq_true .. |>.1 hr
  obtain ⟨i, -, hfind⟩ := Option.bind_eq_some_iff.1 hinc
  exact Bool.false_ne_true ((h inc (Table.find?_some hfind).1).symm.trans hp)

theorem IncomesExist.congr {d d' : Database} (h : d.IncomesExist)
    (hincomes : d'.table .incomes = d.table .incomes)
    (hledger : d'.table .cashbookTransactions = d.table .cashbookTransactions) :
    d'.IncomesExist := by
  intro r hr i hi
  rw [Database.rows, hledger] at hr
  rw [Database.find_congr hincomes]
  exact h r hr i hi

/-! ### Recording an income -/

/-- An income as it was stored from the columns of an insert. -/
structure IncomeData.Stored (data : IncomeData) (id : Uuid) (inc : Income) : Prop where
  id : inc.id = id
  loanId : inc.loanId = data.loanId
  installmentId : inc.installmentId = data.installmentId
  principalSavingId : inc.principalSavingId = data.principalSavingId
  mandatorySavingId : inc.mandatorySavingId = data.mandatorySavingId
  amount : Numeric.ofRat? data.amount = some inc.amount

theorem IncomeData.toRow_ok {data : IncomeData} {id incomeCategoryId : Uuid} {now : Date}
    {inc : Income} (h : data.toRow id incomeCategoryId now = .ok inc) : data.Stored id inc := by
  obtain ⟨_, h₁, h⟩ := bind_ok h
  cases h
  exact ⟨rfl, rfl, rfl, rfl, rfl, money_ok h₁⟩

/-- The writes that record an income. -/
def recording (inc : Income) (r : CashbookTransaction) : List Write :=
  .insert .incomes inc :: r.postings

/-- What has been recorded for an income, over the state before it. -/
structure Recorded (d : Database) (data : IncomeData) (ids : IncomeIds)
    (destination : IncomeDestination) (inc : Income) (r : CashbookTransaction) : Prop where
  income : data.Stored ids.income inc
  fresh : d.find .incomes inc.id = none
  rowFresh : d.find .cashbookTransactions r.id = none
  rowId : r.id = ids.ledger
  incomeId : r.incomeId = some inc.id
  expenseId : r.expenseId = none
  visible : r.visible = true
  direction : r.direction = .in_
  shuAmount : Numeric.ofRat? (if destination = .shu then data.amount else 0) = some r.shuAmount
  capitalAmount :
    Numeric.ofRat? (if destination = .capital then data.amount else 0) = some r.capitalAmount

theorem table_insert_incomes (d : Database) (inc : Income) :
    (d.apply (.insert .incomes inc)).table .cashbookTransactions = d.table .cashbookTransactions :=
  d.table_insert_ne (t := .incomes) (by decide) inc

variable {S : Contract Database LockTarget Label} {d : Database} {s : Trx}

theorem createIncomeOf_wp {code : String} {id : Uuid} {data : IncomeData} {now : Date}
    {Q : Income → Database → Trx → Prop}
    (h : ∀ d' inc l, S.env s.locks d d' → data.Stored id inc →
      Inserted (s.view d') .incomes inc → (needs (Write.insert .incomes inc)) ⊆ l →
      Q inc d' (s.extend [.insert .incomes inc] l))
    [S.Stable (W := Write)] : (createIncomeOf code id data now).wp S Q d s := by
  unfold createIncomeOf findCategoryByCode
  rw [Prog.wp_bind']
  refine wp_select fun d₁ henv₁ => ?_
  split
  · trivial
  refine wp_insertInto fun d₂ inc ws l henv₂ hrow hinsert hneeds => ?_
  obtain ⟨hinserted, rfl⟩ := insertRow_plain (by decide) hinsert
  rw [List.flatMap_cons, List.flatMap_nil, List.append_nil] at hneeds
  exact h d₂ inc l (env_trans henv₁ henv₂) (IncomeData.toRow_ok hrow)
    hinserted hneeds

theorem record_wp [S.Stable (W := Write)] {code : String} (ids : IncomeIds) {data : IncomeData}
    {destination : IncomeDestination} {now : Date}
    {Q : CashbookTransaction → Database → Trx → Prop}
    (h : ∀ d' inc r l, S.env s.locks d d' →
      Recorded (s.view d') data ids destination inc r →
      (recording inc r).flatMap needs ⊆ l → Q r d' (s.extend (recording inc r) l)) :
    (createIncomeOf code ids.income data now).wp S (fun inc d s =>
      (createIncomeTransaction ids.ledger inc.id data.amount destination none now).wp S Q d s) d s := by
  refine createIncomeOf_wp fun d₁ inc l₁ henv₁ hstored hinserted hneeds₁ => ?_
  refine createIncomeTransaction_wp fun d₂ r l₂ henv₂ hr hposted _ hneeds₂ => ?_
  rw [Session.locks_extend] at henv₂
  have hlock : (LockTarget.row .incomes inc.id, LockMode.update) ∈ s.locks ++ l₁ :=
    List.mem_append_right _ (hneeds₁ (List.mem_cons_self ..))
  rw [extend_extend]
  have hvisible : r.visible = true := by
    rw [hr.visible]
    rfl
  refine h d₂ inc r _ (env_append henv₁ henv₂) ⟨hstored, ?_, ?_, hr.id, hr.incomeId, hr.expenseId,
    hvisible, hr.direction, hr.shuAmount, hr.capitalAmount⟩ ?_
  · rw [← find_view_eq henv₂ hlock rfl]
    exact hinserted.fresh
  · have hrowFresh := hposted.fresh
    rw [Session.view_extend] at hrowFresh
    exact (Database.find_congr (table_insert_incomes _ inc) r.id).symm.trans hrowFresh
  · rw [recording, List.flatMap_cons]
    exact List.append_subset.2 ⟨List.subset_append_of_subset_left _ hneeds₁,
      List.subset_append_of_subset_right _ hneeds₂⟩

theorem Recorded.env [S.Stable (W := Write)] {data : IncomeData} {ids : IncomeIds}
    {destination : IncomeDestination} {inc : Income} {r : CashbookTransaction} {l : Locks}
    {d₁ d₂ : Database} (h : Recorded (s.view d₁) data ids destination inc r) (henv : S.env l d₁ d₂)
    (hl : (recording inc r).flatMap needs ⊆ l) : Recorded (s.view d₂) data ids destination inc r :=
  { h with
    fresh := by
      have hlock : (LockTarget.row .incomes inc.id, LockMode.update) ∈ l :=
        hl (List.mem_append_left _ (List.mem_cons_self ..))
      rw [← find_view_eq henv hlock rfl]
      exact h.fresh
    rowFresh := by
      rw [← find_view_eq henv (hl (List.mem_append_right _ r.mem_needs_postings)) rfl]
      exact h.rowFresh }

/-! ### What recording does -/

theorem stored_amounts {m shuAmount capitalAmount : Money} {destination : IncomeDestination}
    (hshu : Numeric.ofRat? (if destination = .shu then m.toRat else 0) = some shuAmount)
    (hcapital : Numeric.ofRat? (if destination = .capital then m.toRat else 0) =
      some capitalAmount) :
    shuAmount = (if destination = .shu then m else 0) ∧
      capitalAmount = if destination = .capital then m else 0 := by
  cases destination with
  | shu =>
      rw [if_pos rfl] at hshu
      rw [if_neg (by decide), Numeric.ofRat?_zero] at hcapital
      exact ⟨ofRat?_toRat_eq hshu, (Option.some.inj hcapital).symm⟩
  | capital =>
      rw [if_pos rfl] at hcapital
      rw [if_neg (by decide), Numeric.ofRat?_zero] at hshu
      exact ⟨(Option.some.inj hshu).symm, ofRat?_toRat_eq hcapital⟩

namespace Recorded

variable {d : Database} {data : IncomeData} {ids : IncomeIds} {destination : IncomeDestination}
  {inc : Income} {r : CashbookTransaction}

theorem nonneg (h : Recorded d data ids destination inc r) : r.Nonneg :=
  nonneg_of_destination h.shuAmount h.capitalAmount

theorem amounts {m : Money} (h : Recorded d data ids destination inc r)
    (hm : data.amount = m.toRat) :
    r.shuAmount = (if destination = .shu then m else 0) ∧
      r.capitalAmount = if destination = .capital then m else 0 :=
  stored_amounts (hm ▸ h.shuAmount) (hm ▸ h.capitalAmount)

theorem table_ne (d : Database) (inc : Income) (r : CashbookTransaction) {t : TableName}
    (hincomes : TableName.incomes ≠ t) (hledger : TableName.cashbookTransactions ≠ t) :
    (applyAll d (recording inc r)).table t = d.table t := by
  rw [recording, applyAll_cons, CashbookTransaction.table_postings_ne _ hledger]
  exact d.table_insert_ne hincomes inc

theorem rows (h : Recorded d data ids destination inc r) :
    (applyAll d (recording inc r)).rows .cashbookTransactions =
      d.rows .cashbookTransactions ++ [r] := by
  rw [recording, applyAll_cons, Database.store_apply,
    CashbookTransaction.rows_postings _
      ((Database.find_congr (table_insert_incomes d inc) r.id).trans h.rowFresh)]
  exact congrArg (Table.rows · ++ [r]) (table_insert_incomes d inc)

theorem incomes (h : Recorded d data ids destination inc r) :
    (applyAll d (recording inc r)).rows .incomes = d.rows .incomes ++ [inc] := by
  rw [recording, applyAll_cons, Database.rows,
    CashbookTransaction.table_postings_ne _ (by decide), Database.store_apply,
    Database.table_insert_self]
  exact Table.rows_insert h.fresh

theorem find_incomes (h : Recorded d data ids destination inc r) (i : Uuid) :
    (applyAll d (recording inc r)).find .incomes i =
      if inc.id = i then some inc else d.find .incomes i := by
  rw [recording, applyAll_cons,
    Database.find_congr (CashbookTransaction.table_postings_ne _ (by decide)),
    Database.store_apply, Database.find_insert]
  split
  · rename_i hi
    rw [← hi, h.fresh]
    rfl
  · rfl

theorem incomesExist (h : Recorded d data ids destination inc r) (hd : d.IncomesExist) :
    (applyAll d (recording inc r)).IncomesExist := by
  intro r' hr' i hi
  rw [h.find_incomes]
  split
  · simp
  · rename_i hne
    rw [h.rows, List.mem_append, List.mem_singleton] at hr'
    rcases hr' with hr' | rfl
    · exact hd r' hr' i hi
    · rw [h.incomeId, Option.mem_some_iff] at hi
      exact absurd hi hne

/-- A recorded income adds its ledger row to the entries of its groups, and to no others. -/
theorem entries (h : Recorded d data ids destination inc r) (hd : d.IncomesExist)
    (p : Income → Bool) :
    (applyAll d (recording inc r)).entries p = d.entries p ++ if p inc then [r] else [] := by
  have hold : (d.rows .cashbookTransactions).filter (fun r' =>
      (r'.incomeId.bind ((applyAll d (recording inc r)).find .incomes)).any p) = d.entries p := by
    refine List.filter_congr fun r' hr' => ?_
    cases hi : r'.incomeId with
    | none => rfl
    | some i =>
        have hne : inc.id ≠ i := fun he => hd r' hr' i hi (he ▸ h.fresh)
        rw [Option.bind_some, Option.bind_some, h.find_incomes, if_neg hne]
  rw [Database.entries, h.rows, List.filter_append, hold, List.filter_singleton, h.incomeId,
    Option.bind_some, h.find_incomes, if_pos rfl, Option.any_some]
  cases p inc <;> rfl

theorem balances (d : Database) (inc : Income) (hr : r.Nonneg) (b : BalanceType) :
    (applyAll d (recording inc r)).balances b = d.balances b + r.signed b := by
  rw [recording, applyAll_cons, CashbookTransaction.balances_postings _ hr]
  rfl

end Recorded

/-! ### Several incomes -/

/-- An income to be recorded: its columns, its ids and the bucket it goes to. -/
structure IncomeSpec where
  data : IncomeData
  ids : IncomeIds
  destination : IncomeDestination

/-- Incomes recorded one after another, each over the state after those before it. -/
inductive RecordedAll : Database → List IncomeSpec → List (Income × CashbookTransaction) → Prop where
  | nil {d : Database} : RecordedAll d [] []
  | cons {d : Database} {spec : IncomeSpec} {specs : List IncomeSpec} {inc : Income}
      {r : CashbookTransaction} {ps : List (Income × CashbookTransaction)}
      (head : Recorded d spec.data spec.ids spec.destination inc r)
      (tail : RecordedAll (applyAll d (recording inc r)) specs ps) :
      RecordedAll d (spec :: specs) ((inc, r) :: ps)

/-- The writes that record several incomes. -/
def recordings (ps : List (Income × CashbookTransaction)) : List Write :=
  ps.flatMap fun p => recording p.1 p.2

namespace RecordedAll

variable {d : Database} {specs : List IncomeSpec} {ps : List (Income × CashbookTransaction)}

theorem env [S.Stable (W := Write)] {l : Locks} {d₁ d₂ : Database}
    (h : RecordedAll (s.view d₁) specs ps) (henv : S.env l d₁ d₂)
    (hl : (recordings ps).flatMap needs ⊆ l) : RecordedAll (s.view d₂) specs ps := by
  induction specs generalizing s ps with
  | nil =>
      cases h
      exact .nil
  | cons spec specs ih =>
      cases h with
      | @cons _ _ _ inc r ps head tail =>
          rw [recordings, List.flatMap_cons, List.flatMap_append, List.append_subset] at hl
          refine .cons (head.env henv hl.1) ?_
          have htail := tail
          rw [← Session.view_extend s (recording inc r) []] at htail ⊢
          exact ih htail hl.2

theorem single {spec : IncomeSpec} {inc : Income} {r : CashbookTransaction}
    (h : Recorded d spec.data spec.ids spec.destination inc r) :
    RecordedAll d [spec] [(inc, r)] := .cons h .nil

theorem append {specs' : List IncomeSpec} {ps' : List (Income × CashbookTransaction)}
    (h : RecordedAll d specs ps) (h' : RecordedAll (applyAll d (recordings ps)) specs' ps') :
    RecordedAll d (specs ++ specs') (ps ++ ps') := by
  induction h with
  | nil => exact h'
  | cons head tail ih =>
      rw [recordings, List.flatMap_cons, applyAll_append] at h'
      exact .cons head (ih h')

theorem table_ne (d : Database) (ps : List (Income × CashbookTransaction)) {t : TableName}
    (hincomes : TableName.incomes ≠ t) (hledger : TableName.cashbookTransactions ≠ t) :
    (applyAll d (recordings ps)).table t = d.table t := by
  induction ps generalizing d with
  | nil => rfl
  | cons p ps ih =>
      rw [recordings, List.flatMap_cons, applyAll_append]
      exact (ih _).trans (Recorded.table_ne d p.1 p.2 hincomes hledger)

theorem incomesExist (h : RecordedAll d specs ps) (hd : d.IncomesExist) :
    (applyAll d (recordings ps)).IncomesExist := by
  induction h with
  | nil => exact hd
  | cons head tail ih =>
      rw [recordings, List.flatMap_cons, applyAll_append]
      exact ih (head.incomesExist hd)

theorem entries (h : RecordedAll d specs ps) (hd : d.IncomesExist) (p : Income → Bool) :
    (applyAll d (recordings ps)).entries p =
      d.entries p ++ (ps.filter fun x => p x.1).map Prod.snd := by
  induction h with
  | nil => simp [recordings]
  | @cons d spec specs inc r ps head tail ih =>
      rw [recordings, List.flatMap_cons, applyAll_append]
      refine (ih (head.incomesExist hd)).trans ?_
      rw [head.entries hd, List.append_assoc]
      cases hp : p inc <;> simp [hp]

theorem balances (h : RecordedAll d specs ps) (b : BalanceType) :
    (applyAll d (recordings ps)).balances b =
      d.balances b + (ps.map fun p => p.2.signed b).sum := by
  induction h with
  | nil => simp [recordings]
  | cons head tail ih =>
      rw [recordings, List.flatMap_cons, applyAll_append]
      refine ih.trans ?_
      rw [Recorded.balances _ _ head.nonneg, List.map_cons, List.sum_cons, add_assoc]

end RecordedAll

end LumbungMesari
