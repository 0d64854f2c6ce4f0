import LumbungMesari.Receipts
import LumbungMesari.Savings

/-!
# What stops a settlement

`settleInstallment` and `settleMandatorySavings` mark a row as paid and record the incomes it stands
for. A settlement of an unpaid row fails only where one of these incomes cannot be recorded, or where
the administrator is unknown.
-/

namespace LumbungMesari

open Sql
open Prog (inTrx commitTrx Throws)

/-! ### Updates -/

section Updates

variable {d : Database} {s : Trx} {R : Error → Prop} {e : Error}

theorem updateRow_error {t : TableName} {old new : Row t} (h : updateRow d t old new = .error e) :
    beforeWrite d t new = .error e ∨
      (e = .foreignKeyViolation ∧ ∃ ref ∈ newReferences t old new, d.find ref.1 ref.2 = none) ∨
      afterUpdate d t old new = .error e := by
  rcases bind_error h with hbefore | ⟨⟨⟩, -, h⟩
  · exact .inl hbefore
  dsimp only at h
  split at h
  · rename_i href
    cases h
    rw [Bool.not_eq_true', List.all_eq_false] at href
    obtain ⟨ref, hmem, hmissing⟩ := href
    rw [Database.exists?, Option.not_isSome_iff_eq_none] at hmissing
    exact .inr (.inl ⟨rfl, ref, hmem, hmissing⟩)
  · rcases bind_error h with hafter | ⟨ws, -, h⟩
    · exact .inr (.inr hafter)
    · cases h

theorem updateOrThrow_throws {label : Label} {t : TableName} {id : Uuid}
    {set : Row t → Except Error (Row t)} {notFound : Error} {old new : Row t}
    (hfound : (s.view d).find t id = some old) (hset : set old = .ok new)
    (hrow : ∀ e, updateRow (s.view d) t old new = .error e → R e) :
    (updateOrThrow label id set notFound).Throws R d s := by
  unfold updateOrThrow
  refine Prog.throws_bind (Q := fun r _ _ => r ≠ none) (Prog.throws_inTrx fun e he => ?_)
    (wp_updateById (fun d' l henv hnone => ?_) fun d' _ _ _ _ _ _ _ _ _ _ => Option.some_ne_none _)
    ?_
  · simp only [updateById, statement, hfound] at he
    rcases bind_error he with he | ⟨new', hnew, he⟩
    · rw [hset] at he
      cases he
    · obtain rfl : new = new' := Except.ok.inj (hset.symm.trans hnew)
      rcases bind_error he with he | ⟨_, -, he⟩
      · exact hrow e he
      · cases he
  · obtain rfl : d = d' := henv
    rw [hfound] at hnone
    cases hnone
  · rintro r d' s' hr
    cases r with
    | none => exact absurd rfl hr
    | some _ => exact Prog.throws_pure _

/-- A row is settled by an administrator, and the rest of the call follows. The row refers to nothing
that it did not refer to before, the administrator apart. -/
theorem settleRow_throws {β : Type} {label : Label} {t : TableName} {id adminId : Uuid}
    {set : Row t → Except Error (Row t)} {notFound : Error} {old new : Row t}
    {ref : TableName × Uuid} {f : Row t → Program β} (ht : t ≠ .cashbookTransactions)
    (hfound : (s.view d).find t id = some old) (hset : set old = .ok new)
    (hbefore : beforeWrite (s.view d) t new = .ok ())
    (hafter : afterUpdate (s.view d) t old new = .ok [])
    (hnew : Row.references t new = [ref, (.users, adminId)]) (hold : ref ∈ Row.references t old)
    (hadmin : (s.view d).find .users adminId = none → R .foreignKeyViolation)
    (hf : ∀ l, (f new).Throws R d (s.extend [.update t new] l)) :
    (updateOrThrow label id set notFound >>= f).Throws R d s := by
  refine Prog.throws_bind (Q := fun r d' s' => r = new ∧ d = d' ∧ ∃ l,
    s' = s.extend [.update t new] l) (updateOrThrow_throws hfound hset fun e he => ?_)
    (updateOrThrow_wp ht fun d' old' new' l henv hfind hset' _ _ _ => ?_) ?_
  · rcases updateRow_error he with he | ⟨rfl, ref', href, hmissing⟩ | he
    · rw [hbefore] at he
      cases he
    · obtain ⟨href, hother⟩ := List.mem_filter.1 href
      rw [hnew, List.mem_cons, List.mem_singleton] at href
      rcases href with rfl | rfl
      · exact absurd hold (of_decide_eq_true hother)
      · exact hadmin hmissing
    · rw [hafter] at he
      cases he
  · obtain rfl : d = d' := henv
    rw [hfound, Option.some.injEq] at hfind
    subst hfind
    obtain rfl := Except.ok.inj (hset.symm.trans hset')
    exact ⟨rfl, rfl, l, rfl⟩
  · rintro _ _ _ ⟨rfl, rfl, l, rfl⟩
    exact hf l

theorem selectForUpdate_alone {β : Type} {targets : Database → List LockTarget}
    {read : Database → β} {guar : Database → Database → Prop} :
    (inTrx (selectForUpdate targets read)).wp (Prog.alone guar)
      (fun b d' s' => b = read (s.view d) ∧ d = d' ∧ ∃ l, s' = s.extend [] l) d s :=
  wp_selectForUpdate fun d' l henv _ => by
    obtain rfl : d = d' := henv
    exact ⟨rfl, rfl, l, rfl⟩

end Updates

/-! ### Several receipts -/

/-- Why incomes cannot all be recorded, one after another. -/
inductive UnrecordedAll : Database → List Receipt → Error → Prop where
  | here {d : Database} {x : Receipt} {xs : List Receipt} {e : Error} (head : Unrecorded d x e) :
      UnrecordedAll d (x :: xs) e
  | later {d : Database} {x : Receipt} {xs : List Receipt} {e : Error} {inc : Income}
      {r : CashbookTransaction}
      (head : Recorded d x.spec.data x.spec.ids x.spec.destination inc r)
      (tail : UnrecordedAll (applyAll d (recording inc r)) xs e) : UnrecordedAll d (x :: xs) e

theorem UnrecordedAll.nothing {d : Database} {xs : List Receipt}
    (h : UnrecordedAll d xs (.checkViolation "chk_cashbook_amounts_positive")) :
    ∃ x ∈ xs, x.amount.units ≤ 0 := by
  generalize he : Error.checkViolation "chk_cashbook_amounts_positive" = e at h
  induction h with
  | here head =>
      cases head with
      | category | duplicate | reference => cases he
      | balance kind full =>
          rcases kind with rfl | rfl
          · cases he
          · exact absurd he (by decide)
      | nothing zero => exact ⟨_, List.mem_cons_self .., zero⟩
  | later head tail ih =>
      obtain ⟨x, hx, hzero⟩ := ih he
      exact ⟨x, List.mem_cons_of_mem _ hx, hzero⟩

/-- What a receipt adds to a balance, in units. -/
def Receipt.adds (b : BalanceType) (x : Receipt) : ℤ :=
  if b = .total ∨ b = x.spec.destination.balance then x.amount.units else 0

theorem Receipt.adds_nonneg {x : Receipt} (h : 0 < x.amount.units) (b : BalanceType) :
    0 ≤ x.adds b := by
  unfold adds
  split
  · exact h.le
  · exact le_refl 0

theorem Receipt.signed_eq {d : Database} {x : Receipt} {inc : Income} {r : CashbookTransaction}
    (h : Recorded d x.spec.data x.spec.ids x.spec.destination inc r) (b : BalanceType) :
    r.signed b = x.adds b := by
  obtain ⟨hshu, hcapital⟩ := h.amounts x.exact
  rw [CashbookTransaction.signed, h.direction, adds]
  cases hdestination : x.spec.destination <;> cases b <;>
    simp [CashbookTransaction.amount, Direction.sign, hshu, hcapital, hdestination,
      IncomeDestination.balance]

/-- Everything that incomes need to be recorded one after another. -/
structure Recordable (d : Database) (xs : List Receipt) : Prop where
  categories : ∀ x ∈ xs, ∃ c ∈ d.rows .incomeCategories, c.code = x.code
  incomes : ∀ x ∈ xs, d.find .incomes x.spec.ids.income = none
  incomeIds : (xs.map (·.spec.ids.income)).Nodup
  ledger : ∀ x ∈ xs, d.find .cashbookTransactions x.spec.ids.ledger = none
  ledgerIds : (xs.map (·.spec.ids.ledger)).Nodup
  references : ∀ x ∈ xs, ∀ ref ∈ x.spec.data.references, d.find ref.1 ref.2 ≠ none
  positive : ∀ x ∈ xs, 0 < x.amount.units
  range : d.InRange
  room : ∀ b, d.balances b + (xs.map (Receipt.adds b)).sum < 10 ^ 12

theorem IncomeData.references_ne {data : IncomeData} {ref : TableName × Uuid}
    (h : ref ∈ data.references) :
    TableName.incomes ≠ ref.1 ∧ TableName.cashbookTransactions ≠ ref.1 := by
  simp only [references, List.mem_append, List.mem_map] at h
  rcases h with ((⟨_, -, rfl⟩ | ⟨_, -, rfl⟩) | ⟨_, -, rfl⟩) | ⟨_, -, rfl⟩ <;> simp

namespace Recordable

variable {d : Database} {x : Receipt} {xs : List Receipt} {e : Error}

theorem tail_nonneg (h : Recordable d (x :: xs)) (b : BalanceType) :
    0 ≤ (xs.map (Receipt.adds b)).sum := by
  refine List.sum_nonneg fun z hz => ?_
  obtain ⟨y, hy, rfl⟩ := List.mem_map.1 hz
  exact Receipt.adds_nonneg (h.positive y (List.mem_cons_of_mem _ hy)) b

theorem head_room (h : Recordable d (x :: xs)) (b : BalanceType) :
    0 ≤ d.balances b + x.adds b ∧ d.balances b + x.adds b < 10 ^ 12 := by
  have hroom := h.room b
  have hsum := h.tail_nonneg b
  have hadds := Receipt.adds_nonneg (h.positive x (List.mem_cons_self ..)) b
  obtain ⟨hnonneg, -⟩ := h.range b
  rw [List.map_cons, List.sum_cons] at hroom
  omega

theorem head (h : Recordable d (x :: xs)) : ¬ Unrecorded d x e := by
  have hx : x ∈ x :: xs := List.mem_cons_self ..
  intro hunrecorded
  cases hunrecorded with
  | category missing =>
      obtain ⟨c, hc, hcode⟩ := h.categories x hx
      exact missing c hc hcode
  | duplicate taken => exact taken.elim (absurd (h.incomes x hx)) (absurd (h.ledger x hx))
  | reference mem missing => exact h.references x hx _ mem missing
  | balance kind full =>
      refine full ⟨h.range, ?_, ?_⟩
      · have hbucket := (h.head_room x.spec.destination.balance).2
        rwa [Receipt.adds, if_pos (.inr rfl)] at hbucket
      · have htotal := (h.head_room .total).2
        rwa [Receipt.adds, if_pos (.inl rfl)] at htotal
  | nothing zero => exact absurd (h.positive x hx) (not_lt.2 zero)

theorem tail (h : Recordable d (x :: xs)) {inc : Income} {r : CashbookTransaction}
    (hrecorded : Recorded d x.spec.data x.spec.ids x.spec.destination inc r) :
    Recordable (applyAll d (recording inc r)) xs := by
  have hbalances : ∀ b, (applyAll d (recording inc r)).balances b = d.balances b + x.adds b := by
    intro b
    rw [Recorded.balances d inc hrecorded.nonneg, Receipt.signed_eq hrecorded]
  have htable := fun {t : TableName} => Recorded.table_ne d inc r (t := t)
  have hmem : ∀ {y}, y ∈ xs → y ∈ x :: xs := List.mem_cons_of_mem _
  refine ⟨fun y hy => ?_, fun y hy => ?_, (List.nodup_cons.1 h.incomeIds).2, fun y hy => ?_,
    (List.nodup_cons.1 h.ledgerIds).2, fun y hy ref href => ?_,
    fun y hy => h.positive y (hmem hy), fun b => ?_, fun b => ?_⟩
  · rw [Database.rows, htable (by decide) (by decide)]
    exact h.categories y (hmem hy)
  · rw [hrecorded.find_incomes, if_neg]
    · exact h.incomes y (hmem hy)
    · rw [hrecorded.income.id]
      exact fun he => (List.nodup_cons.1 h.incomeIds).1 (List.mem_map.2 ⟨y, hy, he.symm⟩)
  · rw [recording, applyAll_cons, CashbookTransaction.find_postings, if_neg,
      Database.store_apply, Database.find_congr (table_insert_incomes d inc)]
    · exact h.ledger y (hmem hy)
    · rw [hrecorded.rowId]
      exact fun he => (List.nodup_cons.1 h.ledgerIds).1 (List.mem_map.2 ⟨y, hy, he.symm⟩)
  · obtain ⟨hincomes, hledger⟩ := IncomeData.references_ne href
    rw [Database.find_congr (htable hincomes hledger)]
    exact h.references y (hmem hy) ref href
  · rw [hbalances]
    exact h.head_room b
  · have hroom := h.room b
    rw [List.map_cons, List.sum_cons, ← add_assoc] at hroom
    rwa [hbalances]

theorem records (h : Recordable d xs) : ¬ UnrecordedAll d xs e := by
  intro hunrecorded
  induction hunrecorded with
  | here head => exact h.head head
  | later head tail ih => exact ih (h.tail head)

end Recordable

/-! ### Settlements of installments -/

section Installments

variable {d : Database} {s : Trx} {R : Error → Prop} {ids : SettleIds} {installment : Installment}
  {adminId : Uuid} {now : Date}

def principalReceipt (ids : SettleIds) (installment : Installment) : Receipt :=
  ⟨"installment_principal", principalIncome ids installment, installment.principalAmount, rfl⟩

def interestReceipt (ids : SettleIds) (installment : Installment) : Receipt :=
  ⟨"loan_interest", interestIncome ids installment, installment.interestAmount, rfl⟩

def penaltyReceipt (ids : SettleIds) (installment : Installment) : Receipt :=
  ⟨"late_payment_penalty", penaltyIncome ids installment, installment.penaltyAmount, rfl⟩

/-- The incomes of a settled installment, with their categories. -/
def installmentReceipts (ids : SettleIds) (installment : Installment) : List Receipt :=
  [principalReceipt ids installment, interestReceipt ids installment] ++
    if 0 < installment.penaltyAmount.toRat then [penaltyReceipt ids installment] else []

theorem postInstallment_throws
    (h : ∀ e, UnrecordedAll (s.view d) (installmentReceipts ids installment) e → R e) :
    (postInstallment ids installment now).Throws R d s := by
  unfold postInstallment
  refine record_throws (x := principalReceipt ids installment) (fun e he => h e (.here he))
    fun inc₁ r₁ l₁ h₁ => ?_
  refine record_throws (x := interestReceipt ids installment)
    (fun e he => h e (.later h₁ (.here ?_))) fun inc₂ r₂ l₂ h₂ => ?_
  · rwa [Session.view_extend] at he
  rw [Session.view_extend] at h₂
  split
  · rename_i hpenalty
    refine record_throws (x := penaltyReceipt ids installment) (fun e he => h e ?_)
      fun _ _ _ _ => Prog.throws_pure _
    rw [Session.view_extend, Session.view_extend] at he
    rw [installmentReceipts, if_pos hpenalty]
    exact .later h₁ (.later h₂ (.here he))
  · exact Prog.throws_pure _

/-- A settlement of an unpaid installment fails where an income of it cannot be recorded, or where
the administrator is unknown. -/
theorem settleInstallment_throws {id : Uuid} (hfound : d.find .installments id = some installment)
    (hunpaid : installment.status ≠ .paid)
    (hadmin : d.find .users adminId = none → R .foreignKeyViolation)
    (h : ∀ e, UnrecordedAll (d.apply (.update .installments (installment.settle adminId now)))
      (installmentReceipts ids installment) e → R e) :
    (settleInstallment ids id adminId now).Throws R d .idle := by
  unfold settleInstallment findInstallmentById settleInstallmentRow
  refine Prog.throws_bind throws_selectForUpdate selectForUpdate_alone ?_
  rintro _ _ _ ⟨rfl, rfl, l, rfl⟩
  rw [Session.view_idle, hfound]
  dsimp only
  rw [if_neg hunpaid]
  have hview : ((Session.idle.extend [] l : Trx).view d).find .installments id =
      some installment := by
    rwa [Session.view_extend_nil]
  refine settleRow_throws (by decide) hview rfl rfl rfl rfl (List.mem_cons_self ..) ?_
    fun l' => ?_
  · rwa [Session.view_extend_nil]
  · refine Prog.throws_bind (Q := fun _ _ _ => True) (postInstallment_throws fun e he => h e ?_)
      (postInstallment_wp fun _ _ _ _ _ _ => trivial) fun _ _ _ _ => Prog.throws_commitTrx
    rwa [Session.view_extend, Session.view_extend_nil] at he

end Installments

/-! ### Settlements of mandatory savings -/

section Savings

variable {d : Database} {R : Error → Prop} {ids : IncomeIds} {m : MandatorySavings} {adminId : Uuid}
  {now : Date}

/-- The income of settled mandatory savings. -/
def savingsIncome (ids : IncomeIds) (m : MandatorySavings) : IncomeSpec where
  data := ⟨"Simpanan Wajib", m.amount.toRat, none, none, none, some m.id,
    s!"Simpanan wajib {monthName m.periodDate.month} " ++ s!"{m.periodDate.year}"⟩
  ids := ids
  destination := .capital

def savingsReceipt (ids : IncomeIds) (m : MandatorySavings) : Receipt :=
  ⟨"mandatory_savings", savingsIncome ids m, m.amount, rfl⟩

/-- A settlement of unpaid savings fails where their income cannot be recorded, or where the
administrator is unknown. -/
theorem settleMandatorySavings_throws {id : Uuid} (hfound : d.find .mandatorySavings id = some m)
    (hunpaid : m.status ≠ .paid)
    (hadmin : d.find .users adminId = none → R .foreignKeyViolation)
    (h : ∀ e, Unrecorded (d.apply (.update .mandatorySavings (m.settle adminId now)))
      (savingsReceipt ids m) e → R e) :
    (settleMandatorySavings ids id adminId now).Throws R d .idle := by
  have hid : m.id = id := Database.find_id hfound
  unfold settleMandatorySavings findMandatorySavingsById updateMandatorySavings
  refine Prog.throws_bind throws_select select_alone ?_
  rintro _ _ _ ⟨rfl, rfl, rfl⟩
  rw [Session.view_idle, hfound]
  dsimp only
  rw [if_neg hunpaid, hid]
  refine settleRow_throws (by decide) hfound rfl rfl rfl rfl (List.mem_cons_self ..) hadmin
    fun l => ?_
  subst hid
  refine record_throws (x := savingsReceipt ids m) (fun e he => h e ?_)
    fun _ _ _ _ => Prog.throws_commitTrx
  rwa [Session.view_extend] at he

end Savings

end LumbungMesari
