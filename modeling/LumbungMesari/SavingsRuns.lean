import LumbungMesari.LoanRules
import LumbungMesari.Savings
import LumbungMesari.Seeds

/-!
# Concurrent settlements of mandatory savings

`settleMandatorySavings` reads the record without a lock and updates it by id. Two settlements of
one record can both pass the check; as long as no update reaches a record that is paid by then,
every record is posted at most once.
-/

namespace LumbungMesari

open Sql
open Prog (inTrx commitTrx)

/-- A call of `settleMandatorySavings`. -/
structure SavingsSettlement where
  ids : IncomeIds
  savingsId : Uuid
  adminId : Uuid
  now : Date

def SavingsSettlement.program (x : SavingsSettlement) : Program Unit :=
  settleMandatorySavings x.ids x.savingsId x.adminId x.now

/-- The update of a settlement does not reach a record that is paid. -/
def settlesUnpaid : Label → Database → Bool
  | .updateMandatorySavings id, d => (d.find .mandatorySavings id).all fun m => m.status ≠ .paid
  | _, _ => true

def forSavings (id : Uuid) (inc : Income) : Bool := inc.mandatorySavingId = some id

/-- What a committed settlement has done: an unpaid record is paid, and recorded once. -/
structure SavingsSettled (x : SavingsSettlement) (m : MandatorySavings) (inc : Income)
    (r : CashbookTransaction) (d d' : Database) : Prop where
  found : d.find .mandatorySavings x.savingsId = some m
  unpaid : m.status ≠ .paid
  recorded : ∃ data, Recorded (d.apply (.update .mandatorySavings (m.settle x.adminId x.now))) data
    x.ids .capital inc r
  after : d' = applyAll (d.apply (.update .mandatorySavings (m.settle x.adminId x.now)))
    (recording inc r)
  income : inc.mandatorySavingId = some x.savingsId
  amounts : r.shuAmount = 0 ∧ r.capitalAmount = m.amount

namespace SavingsSettled

variable {x : SavingsSettlement} {m : MandatorySavings} {inc : Income} {r : CashbookTransaction}
  {d d' : Database}

theorem find (h : SavingsSettled x m inc r d d') (id : Uuid) :
    d'.find .mandatorySavings id =
      if id = x.savingsId then some (m.settle x.adminId x.now) else d.find .mandatorySavings id := by
  have hid : Row.id .mandatorySavings (m.settle x.adminId x.now) = x.savingsId :=
    show m.id = x.savingsId from Database.find_id h.found
  rw [h.after, Database.find_congr (Recorded.table_ne _ inc r (by decide) (by decide)),
    Database.find_update]
  by_cases he : id = x.savingsId
  · subst he
    rw [if_pos rfl, if_pos hid, h.found]
    rfl
  · rw [if_neg he, if_neg fun hm => he (hm.symm.trans hid)]

theorem entries (h : SavingsSettled x m inc r d d') (hd : d.IncomesExist) (p : Income → Bool) :
    d'.entries p = d.entries p ++ if p inc then [r] else [] := by
  obtain ⟨data, hrecorded⟩ := h.recorded
  have htable := fun {t : TableName} (ht : TableName.mandatorySavings ≠ t) =>
    d.table_update_ne ht (m.settle x.adminId x.now)
  have hincomes : _ = d.table .incomes := htable (by decide)
  have hledger : _ = d.table .cashbookTransactions := htable (by decide)
  rw [h.after, hrecorded.entries (IncomesExist.congr hd hincomes hledger),
    entries_congr hincomes hledger]

theorem incomes (h : SavingsSettled x m inc r d d') :
    d'.rows .incomes = d.rows .incomes ++ [inc] := by
  obtain ⟨data, hrecorded⟩ := h.recorded
  rw [h.after, hrecorded.incomes]
  exact congrArg (Table.rows · ++ [inc]) (d.table_update_ne (t := .mandatorySavings) (by decide) _)

theorem incomesExist (h : SavingsSettled x m inc r d d') (hd : d.IncomesExist) :
    d'.IncomesExist := by
  obtain ⟨data, hrecorded⟩ := h.recorded
  rw [h.after]
  exact hrecorded.incomesExist (IncomesExist.congr hd
    (d.table_update_ne (t := .mandatorySavings) (by decide) _)
    (d.table_update_ne (t := .mandatorySavings) (by decide) _))

theorem balances (h : SavingsSettled x m inc r d d') (b : BalanceType) :
    d'.balances b = d.balances b + if b = .shu then 0 else m.amount.units := by
  obtain ⟨data, hrecorded⟩ := h.recorded
  rw [h.after, Recorded.balances _ _ hrecorded.nonneg, Database.balances_update,
    CashbookTransaction.signed, hrecorded.direction]
  cases b <;> simp [CashbookTransaction.amount, h.amounts, Direction.sign]

end SavingsSettled

def savingsProtocol : Protocol Database LockTarget Label SavingsSettlement where
  inv := Database.IncomesExist
  allows l d := settlesUnpaid l d = true
  guar x _ d d' := ∃ m inc r, SavingsSettled x m inc r d d'
  keeps := fun hd ⟨_, _, _, h⟩ => h.incomesExist hd

theorem savings_amount_stable {l : Locks} {d d' : Database} {id : Uuid} {m m' : MandatorySavings}
    (henv : savingsProtocol.Env l d d') (hm : d.find .mandatorySavings id = some m)
    (hm' : d'.find .mandatorySavings id = some m') : m'.amount = m.amount := by
  have hstable : ∃ m₁, d'.find .mandatorySavings id = some m₁ ∧ m₁.amount = m.amount := by
    refine henv.stable (p := fun d => ∃ m₁, d.find .mandatorySavings id = some m₁ ∧
      m₁.amount = m.amount) ?_ ⟨m, hm, rfl⟩
    rintro d₁ d₂ ⟨x, -, -, -, -, -, -, m₂, inc, r, hsettled⟩ ⟨m₁, hm₁, hamount⟩
    rw [hsettled.find]
    by_cases hid : id = x.savingsId
    · rw [if_pos hid]
      rw [hid, hsettled.found, Option.some.injEq] at hm₁
      exact ⟨_, rfl, by rw [MandatorySavings.settle, hm₁, hamount]⟩
    · rw [if_neg hid]
      exact ⟨m₁, hm₁, hamount⟩
  obtain ⟨m₁, hm₁, hamount⟩ := hstable
  rw [hm', Option.some.injEq] at hm₁
  rw [hm₁, hamount]

theorem SavingsSettlement.program_wp (x : SavingsSettlement) (d : Database) :
    x.program.wp (savingsProtocol.contract x) (fun _ _ _ => True) d .idle := by
  unfold SavingsSettlement.program settleMandatorySavings findMandatorySavingsById
    updateMandatorySavings
  rw [Prog.wp_bind']
  refine wp_select fun d₁ henv₁ => ?_
  rw [Session.view_idle]
  split
  · trivial
  rename_i m₁ hm₁
  split
  · trivial
  rw [Prog.wp_bind']
  refine updateOrThrow_wp (by decide) fun d₂ m new l₂ henv₂ hfind hset _ hallowed hlock => ?_
  obtain rfl : m.settle x.adminId x.now = new := Except.ok.inj hset
  rw [Session.view_idle] at hfind hallowed
  have hid : m₁.id = x.savingsId := Database.find_id hm₁
  rw [hid] at hfind hallowed ⊢
  have hunpaid : m.status ≠ .paid := by
    have hcheck : (d₂.find .mandatorySavings x.savingsId).all _ = true := hallowed
    rw [hfind] at hcheck
    simpa using hcheck
  have hamount : m.amount = m₁.amount := savings_amount_stable henv₂ hm₁ hfind
  unfold createMandatorySavingsIncome
  simp only [Prog.wp_bind']
  refine record_wp _ fun d₃ inc r l₃ henv₃ hrecorded hneeds₃ d₄ henv₄ => ⟨⟨m, inc, r, ?_⟩, trivial⟩
  rw [extend_extend] at henv₄ ⊢
  rw [Session.locks_extend] at henv₃ henv₄
  rw [Session.view_extend] at hrecorded
  have hrow : (LockTarget.row .mandatorySavings x.savingsId, LockMode.noKeyUpdate) ∈ l₂ := by
    have hid : (m.settle x.adminId x.now).id = x.savingsId := Database.find_id hfind
    rw [← hid]
    exact hlock
  rw [← List.append_assoc] at henv₄
  have henv₂₄ := env_append henv₃ henv₄
  have hrecorded₄ : Recorded (d₄.apply (.update .mandatorySavings (m.settle x.adminId x.now))) _ _ _
      inc r := (Recorded.env (s := Session.idle.extend [_] []) hrecorded henv₄
        (List.subset_append_of_subset_right _ hneeds₃) :)
  refine ⟨?_, hunpaid, ⟨_, hrecorded₄⟩, ?_, ?_, ?_⟩
  · rw [← hfind]
    exact (find_view_eq (s := .idle) henv₂₄ (List.mem_append_right _ hrow) rfl).symm
  · rw [Session.view_extend, applyAll_append]
    rfl
  · exact hrecorded.income.mandatorySavingId
  · rw [hamount]
    exact hrecorded.amounts rfl

/-! ### Runs -/

/-- The amount of a record, in units. -/
def savingsAmount (d : Database) (id : Uuid) : ℤ :=
  (d.find .mandatorySavings id).elim 0 (·.amount.units)

/-- The settlements of a record in a history. -/
def settlements (id : Uuid) (h : List SavingsSettlement) : ℕ :=
  h.countP fun x => decide (x.savingsId = id)

/-- What a history of committed settlements has done to the state it started from. -/
structure SavingsHistory (d₀ : Database) (h : List SavingsSettlement) (d : Database) : Prop where
  once : (h.map (·.savingsId)).Nodup
  paid : ∀ x ∈ h, ∃ m, d.find .mandatorySavings x.savingsId = some m ∧ m.status = .paid
  amounts : ∀ id, (d.find .mandatorySavings id).map (·.amount) =
    (d₀.find .mandatorySavings id).map (·.amount)
  incomes : ∀ id, (d.rows .incomes).countP (forSavings id) =
    (d₀.rows .incomes).countP (forSavings id) + settlements id h
  entries : ∀ id m, d₀.find .mandatorySavings id = some m →
    postedAmounts (d.entries (forSavings id)) = postedAmounts (d₀.entries (forSavings id)) ++
      List.replicate (settlements id h) (.in_, 0, m.amount)
  capital : d.balances .capital =
    d₀.balances .capital + (h.map fun x => savingsAmount d₀ x.savingsId).sum

theorem settlements_append (id : Uuid) (h : List SavingsSettlement) (x : SavingsSettlement) :
    settlements id (h ++ [x]) = settlements id h + if x.savingsId = id then 1 else 0 := by
  rw [settlements, List.countP_append, List.countP_singleton]
  simp only [decide_eq_true_eq]
  rfl

theorem SavingsHistory.start (d₀ : Database) : SavingsHistory d₀ [] d₀ where
  once := List.nodup_nil
  paid _ hx := by cases hx
  amounts _ := rfl
  incomes _ := rfl
  entries _ _ _ := (List.append_nil _).symm
  capital := (add_zero _).symm

/-- One more committed settlement. -/
theorem SavingsHistory.step {d₀ d d' : Database} {h : List SavingsSettlement}
    {x : SavingsSettlement} {m : MandatorySavings} {inc : Income} {r : CashbookTransaction}
    (hh : SavingsHistory d₀ h d) (hd : d.IncomesExist) (hx : SavingsSettled x m inc r d d') :
    SavingsHistory d₀ (h ++ [x]) d' where
  once := by
    rw [List.map_append, List.map_singleton]
    refine List.Nodup.append hh.once (List.nodup_singleton _) fun id hid hx' => ?_
    obtain ⟨y, hy, rfl⟩ := List.mem_map.1 hid
    obtain ⟨m', hm', hpaid⟩ := hh.paid y hy
    rw [List.mem_singleton.1 hx', hx.found, Option.some.injEq] at hm'
    exact hx.unpaid (hm' ▸ hpaid)
  paid y hy := by
    rw [hx.find]
    by_cases hid : y.savingsId = x.savingsId
    · exact ⟨_, if_pos hid, rfl⟩
    · rw [if_neg hid]
      rcases List.mem_append.1 hy with hy | hy
      · exact hh.paid y hy
      · exact absurd (congrArg SavingsSettlement.savingsId (List.mem_singleton.1 hy)) hid
  amounts id := by
    rw [hx.find, ← hh.amounts]
    by_cases hid : id = x.savingsId
    · rw [if_pos hid, hid, hx.found]
      rfl
    · rw [if_neg hid]
  incomes id := by
    have hlast : [inc].countP (forSavings id) = if x.savingsId = id then 1 else 0 := by
      rw [List.countP_singleton, forSavings, hx.income]
      simp only [Option.some.injEq, decide_eq_true_eq]
    rw [hx.incomes, List.countP_append, hh.incomes, hlast, settlements_append, add_assoc]
  entries id m₀ hm₀ := by
    rw [hx.entries hd, postedAmounts, List.map_append, ← postedAmounts, hh.entries id m₀ hm₀,
      settlements_append, List.append_assoc, List.append_right_inj, forSavings, hx.income]
    by_cases hid : x.savingsId = id
    · have hamount : m.amount = m₀.amount := by
        have hsame := hh.amounts id
        rw [← hid, hx.found, hid, hm₀] at hsame
        exact Option.some.inj hsame
      obtain ⟨data, hrecorded⟩ := hx.recorded
      simp [hid, List.replicate_succ', hrecorded.direction, hx.amounts, hamount]
    · simp [hid]
  capital := by
    have hamount : m.amount.units = savingsAmount d₀ x.savingsId := by
      have hsame := hh.amounts x.savingsId
      rw [hx.found] at hsame
      rw [savingsAmount]
      cases hm₀ : d₀.find .mandatorySavings x.savingsId with
      | none =>
          rw [hm₀] at hsame
          cases hsame
      | some m₀ =>
          rw [hm₀] at hsame
          exact congrArg Numeric.units (Option.some.inj hsame)
    rw [hx.balances, if_neg (by decide), hh.capital, hamount, List.map_append, List.sum_append,
      List.map_singleton, List.sum_singleton, add_assoc]

/-- **Mandatory savings are posted once**, in every run whose settlements only write to unpaid
records. -/
theorem settleMandatorySavings_once {d₀ : Database} (h₀ : d₀.IncomesExist)
    {s : Sys Database Write LockTarget Label Error SavingsSettlement}
    (hrun : Sys.Run SavingsSettlement.program (fun l d => settlesUnpaid l d = true) (Sys.start d₀) s)
    {id : Uuid} {m : MandatorySavings} (hm : d₀.find .mandatorySavings id = some m)
    (hnew : (d₀.rows .incomes).countP (forSavings id) = 0) :
    settlements id s.history ≤ 1 ∧
    (s.committed.rows .incomes).countP (forSavings id) = settlements id s.history ∧
    postedAmounts (s.committed.entries (forSavings id)) =
      List.replicate (settlements id s.history) (.in_, 0, m.amount) ∧
    s.committed.balances .capital = d₀.balances .capital +
      (s.history.map fun x => savingsAmount d₀ x.savingsId).sum := by
  have hhistory : SavingsHistory d₀ s.history s.committed :=
    Protocol.history_inv (P := savingsProtocol) (J := SavingsHistory d₀)
      (fun x d _ => x.program_wp d) (fun hd hh ⟨_, _, _, hx⟩ => hh.step hd hx)
      (Protocol.good_start h₀) (SavingsHistory.start d₀) hrun
  refine ⟨?_, ?_, ?_, hhistory.capital⟩
  · have hcount := List.nodup_iff_count_le_one.1 hhistory.once id
    rwa [List.count, List.countP_map] at hcount
  · rw [hhistory.incomes, hnew, zero_add]
  · have hnone : d₀.entries (forSavings id) = [] :=
      entries_eq_nil fun inc hinc => by simpa using List.countP_eq_zero.1 hnew inc hinc
    rw [hhistory.entries id m hm, hnone]
    rfl

/-! ### Two settlements of one record -/

def dueSavings : MandatorySavings where
  id := 1
  userId := 3
  periodDate := ⟨2026, 5, 1⟩
  amount := ⟨500000 * 10 ^ 4, by decide⟩
  status := .due
  paidAt := none
  processedBy := none

/-- A member with one record to be paid. -/
def withSavings : Database :=
  seeded.apply (.insert .mandatorySavings dueSavings)

theorem withSavings_find : withSavings.find .mandatorySavings 1 = some dueSavings := by
  decide +kernel

def firstSettlement : SavingsSettlement := ⟨⟨1, 1⟩, 1, 1, ⟨2026, 5, 3⟩⟩

def secondSettlement : SavingsSettlement := ⟨⟨2, 2⟩, 1, 2, ⟨2026, 5, 3⟩⟩

theorem withSavings_incomesExist : withSavings.IncomesExist := by
  intro r hr
  rw [show withSavings.rows .cashbookTransactions = [] by decide +kernel] at hr
  cases hr

theorem settleMandatorySavings_once_firstSettlement :
    ∃ s : Sys Database Write LockTarget Label Error SavingsSettlement,
      settlements 1 s.history = 1 ∧
      postedAmounts (s.committed.entries (forSavings 1)) = [(.in_, 0, dueSavings.amount)] := by
  have hexec : ((Sys.start withSavings).exec SavingsSettlement.program settlesUnpaid
      (.call firstSettlement :: List.replicate 7 (.run 0))).map
        (fun s => settlements 1 s.history) = some 1 := by
    decide +kernel
  obtain ⟨s, hs, hcount⟩ := Option.map_eq_some_iff.1 hexec
  have honce := settleMandatorySavings_once withSavings_incomesExist (Sys.run_of_exec hs)
    withSavings_find (by decide +kernel)
  refine ⟨s, hcount, ?_⟩
  rw [honce.2.2.1, hcount]
  rfl

/-- Both settlements read the record before either has updated it. -/
theorem concurrent_settlements_post_twice :
    ∃ s : Sys Database Write LockTarget Label Error SavingsSettlement,
      Sys.Reach SavingsSettlement.program (Sys.start withSavings) s ∧
      settlements 1 s.history = 2 ∧ (s.committed.rows .incomes).countP (forSavings 1) = 2 ∧
      s.committed.balances .capital = withSavings.balances .capital + 2 * (500000 * 10 ^ 4) := by
  have hexec : ((Sys.start withSavings).exec SavingsSettlement.program (fun _ _ => true)
      ([.call firstSettlement, .call secondSettlement, .run 0, .run 1] ++
        List.replicate 6 (.run 0) ++ List.replicate 6 (.run 1))).map
        (fun s => (settlements 1 s.history, (s.committed.rows .incomes).countP (forSavings 1),
          s.committed.balances .capital)) =
      some (2, 2, withSavings.balances .capital + 2 * (500000 * 10 ^ 4)) := by
    decide +kernel
  obtain ⟨s, hs, hposted⟩ := Option.map_eq_some_iff.1 hexec
  simp only [Prod.mk.injEq] at hposted
  exact ⟨s, Sys.reach_of_exec hs, hposted⟩

end LumbungMesari
