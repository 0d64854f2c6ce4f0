import LumbungMesari.LedgerRuns

/-!
# Concurrent corrections and deletions of expenses

`updateExpense` and `deleteExpense` read before they lock. A correction locks the row of the expense
and the balances, a deletion the balances it adjusts, so no two of them change the ledger rows of an
expense at once; what a call has read by then may be out of date.
-/

namespace LumbungMesari

open Sql
open Prog (inTrx onPool commitTrx)

/-- What runs keep between an expense and its ledger row, and the condition on their statements
under which they do. -/
structure ExpenseAgreement where
  agrees : Expense → CashbookTransaction → Prop
  allows : Label → Database → Prop
  allocation : ∀ {e r}, agrees e r → r.Nonneg → e.allocation.Nonneg
  set : ∀ {e e' r}, ExpenseSet none none e e' → agrees e r → agrees e' r
  corrected : ∀ {d₁ d now ids id existing amounts txnDate e e' original reversal new},
    allows (repostLabel id amounts txnDate existing) d₁ → d₁.find .expenses id = some e →
    ExpenseCorrected d now ids id existing amounts txnDate e e' original reversal new →
    agrees e original → agrees e' new

/-- What a commit of a correction or a deletion does, given the locks it holds. -/
inductive ExpenseMove (A : ExpenseAgreement) (l : Locks) (d : Database) : Database → Prop where
  | nothing : ExpenseMove A l d d
  | columns {id : Uuid} {e e' : Expense} (found : d.find .expenses id = some e)
      (set : ExpenseSet none none e e') : ExpenseMove A l d (d.apply (.update .expenses e'))
  | corrected {now : Date} {ids : ExpenseIds} {id : Uuid} {existing : Expense}
      {amounts : Option Allocation} {txnDate : Option Date} {e e' : Expense}
      {original reversal new : CashbookTransaction}
      (corrected : ExpenseCorrected d now ids id existing amounts txnDate e e' original reversal new)
      (agreed : A.agrees e original → A.agrees e' new)
      (balances : ∀ b, (LockTarget.balance b, LockMode.update) ∈ l)
      (row : (LockTarget.row .expenses id, LockMode.noKeyUpdate) ∈ l) :
      ExpenseMove A l d (applyAll d (expenseCorrection now e' original reversal new))
  | deleted {now : Date} {id : Uuid} {e : Expense} (found : d.find .expenses id = some e)
      (inRange : (applyAll d (removal now (d.owned (.expense id)))).InRange)
      (locked : (expenseDeletion now id (d.owned (.expense id))).flatMap needs ⊆ l) :
      ExpenseMove A l d (applyAll d (expenseDeletion now id (d.owned (.expense id))))

section Moves

variable {A : ExpenseAgreement} {initial : BalanceType → ℤ} {removed : Uuid → Prop}
  {l : Locks} {d d' : Database} {id : Uuid}

theorem ExpenseMove.keeps (h : LedgerInvariant A.agrees initial removed d)
    (hmove : ExpenseMove A l d d') : LedgerInvariant A.agrees initial removed d' := by
  cases hmove with
  | nothing => exact h
  | columns found set => exact h.setExpense found set fun _ => A.set set
  | corrected corrected agreed => exact h.correctExpense corrected agreed
  | deleted found inRange => exact h.deleteExpense inRange

theorem ExpenseMove.missing (hmove : ExpenseMove A l d d') (hnone : d.find .expenses id = none) :
    d'.find .expenses id = none := by
  cases hmove with
  | nothing => exact hnone
  | columns found set =>
      rw [Database.find_update, hnone]
      simp
  | @corrected _ _ id' _ _ _ _ _ _ _ _ corrected =>
      rw [LedgerInvariant.find_expenseCorrection corrected, if_neg, hnone]
      rintro rfl
      rw [corrected.found] at hnone
      cases hnone
  | deleted found =>
      rw [LedgerInvariant.find_expenseDeletion, hnone]
      simp

/-- The rows of an expense change only under a lock on the expense and on every balance they
count in. -/
theorem ExpenseMove.owned (h : LedgerInvariant A.agrees initial removed d)
    (hmove : ExpenseMove A l d d') (id : Uuid) :
    d'.owned (.expense id) = d.owned (.expense id) ∨
    (∃ m, LockMode.exclusive m = true ∧ (LockTarget.row .expenses id, m) ∈ l) ∧
    ∀ b, netOf (d.owned (.expense id)) b ≠ 0 →
      ∃ m, LockMode.exclusive m = true ∧ (LockTarget.balance b, m) ∈ l := by
  cases hmove with
  | nothing => exact .inl rfl
  | @columns _ e e' found set =>
      exact .inl (owned_update_expense d e' _)
  | @corrected _ _ id' _ _ _ _ _ _ _ _ corrected _ balances row =>
      by_cases hid : id = id'
      · subst hid
        exact .inr ⟨⟨_, rfl, row⟩, fun b _ => ⟨_, rfl, balances b⟩⟩
      · exact .inl (h.owned_expenseCorrection_ne corrected hid)
  | @deleted now id' _ found _ locked =>
      by_cases hid : id = id'
      · subst hid
        refine .inr ⟨⟨.update, rfl, locked ?_⟩, fun b hb => ⟨.noKeyUpdate, rfl, locked ?_⟩⟩
        · rw [expenseDeletion, List.flatMap_append, List.flatMap_cons]
          exact List.mem_append_right _ (List.mem_append_left _ (List.mem_cons_self ..))
        · rw [expenseDeletion, List.flatMap_append, removal, List.flatMap_append]
          exact List.mem_append_left _ (List.mem_append_left _ (mem_needs_refund hb))
      · exact .inl (h.owned_expenseDeletion_ne hid)

end Moves

/-! ### The protocol -/

/-- Calls that correct and delete expenses. -/
def ExpenseAgreement.protocol (A : ExpenseAgreement) (C : Type) (initial : BalanceType → ℤ)
    (removed : Uuid → Prop) : Protocol Database LockTarget Label C where
  inv := LedgerInvariant A.agrees initial removed
  allows := A.allows
  guar _ := ExpenseMove A
  keeps := ExpenseMove.keeps

section Environment

variable {A : ExpenseAgreement} {C : Type} {initial : BalanceType → ℤ} {removed : Uuid → Prop}
  {l : Locks} {d d' : Database} {id : Uuid}

theorem missing_env (henv : (A.protocol C initial removed).Env l d d')
    (hnone : d.find .expenses id = none) : d'.find .expenses id = none :=
  henv.stable (p := fun d => d.find .expenses id = none)
    (fun ⟨_, _, _, _, _, _, _, hmove⟩ hnone => hmove.missing hnone) hnone

/-- What keeps the rows of an expense as they are: a lock on the expense, or on a balance they
count in. -/
theorem owned_env {k : LockTarget} {m : LockMode}
    (henv : (A.protocol C initial removed).Env l d d') (hk : (k, m) ∈ l) (hm : m.exclusive = true)
    (hguards : k = .row .expenses id ∨
      ∃ b, k = .balance b ∧ netOf (d.owned (.expense id)) b ≠ 0) :
    d'.owned (.expense id) = d.owned (.expense id) := by
  refine henv.stable (p := fun d' => d'.owned (.expense id) = d.owned (.expense id)) ?_ rfl
  rintro d₁ d₂ ⟨_, l', _, hblocked, -, -, hinv, hmove⟩ hsame
  have hnot : ∀ {m' : LockMode}, m'.exclusive = true → (k, m') ∉ l' := by
    intro m' hm' hk'
    rw [not_exclusive_of_not_blocked hblocked hk hm hk'] at hm'
    cases hm'
  rcases hmove.owned hinv id with h | ⟨⟨m₁, hm₁, hrow⟩, hbalances⟩
  · rw [h, hsame]
  · rcases hguards with rfl | ⟨b, rfl, hb⟩
    · exact absurd hrow (hnot hm₁)
    · obtain ⟨m₂, hm₂, hbalance⟩ := hbalances b (by rwa [hsame])
      exact absurd hbalance (hnot hm₂)

end Environment

namespace LedgerInvariant

variable {agrees : Expense → CashbookTransaction → Prop} {initial : BalanceType → ℤ}
  {removed : Uuid → Prop} {d : Database} {id : Uuid}

theorem netOf_owned (h : LedgerInvariant agrees initial removed d) {r : CashbookTransaction}
    (hr : (d.owned (.expense id)).filter (·.visible) = [r]) (b : BalanceType) :
    netOf (d.owned (.expense id)) b = r.signed b := by
  have hvisible : netOf ((d.owned (.expense id)).filter (·.visible)) b = r.signed b := by
    rw [hr]
    exact List.sum_singleton
  rw [Database.owned, netOf_filter, h.books.net_owner (expense_alive id), ← hvisible,
    Database.owned, List.filter_filter, netOf_filter]
  exact net_congr fun r _ => Bool.and_comm ..

theorem find_of_owned (h : LedgerInvariant agrees initial removed d)
    (hne : d.owned (.expense id) ≠ []) : ∃ e, d.find .expenses id = some e :=
  Option.ne_none_iff_exists'.1 fun hnone => hne (h.expenses.named id hnone)

theorem netOf_owned_ne (h : LedgerInvariant agrees initial removed d)
    (hne : d.owned (.expense id) ≠ []) (hshu : netOf (d.owned (.expense id)) .shu = 0) :
    netOf (d.owned (.expense id)) .capital ≠ 0 := by
  obtain ⟨e, he⟩ := h.find_of_owned hne
  obtain ⟨r, hr, -⟩ := h.expenses.entry id e he
  rw [h.netOf_owned hr] at hshu ⊢
  intro hcapital
  have hsign : r.direction.sign ≠ 0 := by cases r.direction <;> decide
  have hpos := r.amountsPositive
  simp only [CashbookTransaction.signed, CashbookTransaction.amount, mul_eq_zero, hsign,
    false_or] at hshu hcapital
  omega

end LedgerInvariant

/-! ### The calls -/

section Calls

variable {A : ExpenseAgreement} {C : Type} {x : C} {initial : BalanceType → ℤ}
  {removed : Uuid → Prop} {d : Database}

theorem updateExpense_wp (h : LedgerInvariant A.agrees initial removed d) {ids : ExpenseIds}
    {id : Uuid} {dto : UpdateExpenseDto} {now : Date} :
    (updateExpense ids id dto now).wp ((A.protocol C initial removed).contract x)
      (fun _ _ _ => True) d .idle := by
  have hinv : ∀ {d' : Database} {l : Locks}, ((A.protocol C initial removed).contract x).env l d d' →
      LedgerInvariant A.agrees initial removed d' := fun henv => Protocol.Env.inv henv h
  unfold updateExpense findByIdWithCategory
  rw [Prog.wp_bind']
  refine wp_selectOnPool fun d₁ henv₁ => ?_
  split
  · trivial
  rename_i existing category hfound
  obtain ⟨existing, hexisting, hpair⟩ := Option.map_eq_some_iff.1 hfound
  cases hpair
  split
  · trivial
  rename_i hamount
  have hnonneg := (hinv henv₁).allocation_nonneg A.allocation hexisting
  rw [Prog.wp_bind']
  refine findNewCategory_wp fun d₂ newCategory henv₂ => ?_
  have henv₁₂ := Protocol.Env.trans henv₁ henv₂
  have hread : ∀ {d' : Database} {ws : List Write} {l : Locks},
      (∀ d'', ((A.protocol C initial removed).contract x).env l d' d'' →
        ExpenseMove A l d'' (applyAll d'' ws)) →
      (do commitTrx; readExpense id : Program Expense).wp
        ((A.protocol C initial removed).contract x) (fun _ _ _ => True) d'
        (Session.idle.extend ws l) := by
    intro d' ws l hmove
    refine Prog.wp_bind'.2 (Prog.wp_commitTrx.2 fun d'' henv'' => ?_)
    rw [Session.view_extend]
    exact ⟨hmove d'' henv'', readExpense_wp fun _ _ _ => trivial⟩
  rw [Prog.wp_bind']
  refine updateExpenseInTransaction_wp (fun q hq => ?_) hnonneg
    (fun d₃ henv₃ => (hinv (Protocol.Env.trans henv₁₂ henv₃)).inRange)
    (fun d₃ d₄ henv₃ henv₄ hnone => ?_) (fun d₃ d₄ l henv₃ henv₄ hlock => ?_)
    (fun d₃ l henv₃ => hread fun d₄ _ => .nothing) (fun d₃ e e' l henv₃ hfind hset hlock => ?_)
    fun d₃ d₄ amounts e e' original reversal new l henv₄ hallowed hfind hcorrected hbalances hlock
      hneeds => ?_
  · rw [Option.mem_def] at hq
    rw [hq] at hamount
    exact checkAmount_ok hamount
  · have hinv₄ := hinv (Protocol.Env.trans henv₁₂ (Protocol.Env.trans henv₃ henv₄))
    exact hinv₄.expenses.named id (missing_env henv₄ hnone)
  · exact owned_env henv₄ hlock rfl (.inl rfl)
  · refine hread fun d₄ henv₄ => ?_
    have hfound : d₄.find .expenses id = some e :=
      (find_view_eq (s := .idle) henv₄ hlock rfl).symm.trans hfind
    exact .columns hfound hset
  · have hinserted : ∀ {k : LockTarget × LockMode}, k ∈ reversal.postings.flatMap needs ∨
        k ∈ new.postings.flatMap needs → k ∈ l := fun hk =>
      hneeds (List.mem_append_right _ (mem_needs_correction hk))
    refine hread fun d₅ henv₅ => .corrected (hcorrected.congr ?_ ?_ (fun b => ?_) ?_ ?_)
      (A.corrected hallowed hfind hcorrected) hbalances hlock
    · exact (find_view_eq (s := .idle) henv₅ hlock rfl).symm
    · exact owned_env henv₅ hlock rfl (.inl rfl)
    · exact (balance_eq (s := .idle) henv₅ (hbalances b) rfl).symm
    · exact (find_view_eq (s := .idle) henv₅ (hinserted (.inl reversal.mem_needs_postings)) rfl).symm
    · exact (find_view_eq (s := .idle) henv₅ (hinserted (.inr new.mem_needs_postings)) rfl).symm

/-- A deletion that has taken back what the rows add up to holds a balance that they count in, and
nothing else of the expense changes until it commits. -/
theorem deleteRefunded_wp (h : LedgerInvariant A.agrees initial removed d) {id : Uuid} {now : Date}
    {l : Locks} (hne : d.owned (.expense id) ≠ [])
    (hrange : d.InRange → (applyAll d (removal now (d.owned (.expense id)))).InRange)
    (hneeds : (removal now (d.owned (.expense id))).flatMap needs ⊆ l) :
    (do let _ ← deleteExpenseById id; commitTrx : Program Unit).wp
      ((A.protocol C initial removed).contract x) (fun _ _ _ => True) d
      (Session.idle.extend (removal now (d.owned (.expense id))) l) := by
  have hlocked : ∀ {b}, netOf (d.owned (.expense id)) b ≠ 0 →
      (LockTarget.balance b, LockMode.noKeyUpdate) ∈ l := by
    intro b hb
    refine hneeds ?_
    rw [removal, List.flatMap_append]
    exact List.mem_append_left _ (mem_needs_refund hb)
  have hguard : ∃ b, (LockTarget.balance b, LockMode.noKeyUpdate) ∈ l ∧
      netOf (d.owned (.expense id)) b ≠ 0 := by
    by_cases hs : netOf (d.owned (.expense id)) .shu = 0
    · have hc := h.netOf_owned_ne hne hs
      exact ⟨_, hlocked hc, hc⟩
    · exact ⟨_, hlocked hs, hs⟩
  obtain ⟨b, hb, hnet⟩ := hguard
  have hstill : ∀ {d' : Database}, ((A.protocol C initial removed).contract x).env l d d' →
      d'.owned (.expense id) = d.owned (.expense id) ∧ ∃ e, d'.find .expenses id = some e := by
    intro d' henv'
    have hsame := owned_env henv' hb rfl (.inr ⟨b, rfl, hnet⟩)
    exact ⟨hsame, (Protocol.Env.inv henv' h).find_of_owned (by rwa [hsame])⟩
  have hview : ∀ d' : Database, ((Session.idle.extend (removal now (d.owned (.expense id)))
      l).view d').find .expenses id = d'.find .expenses id := by
    intro d'
    rw [Session.view_extend, Database.find_congr (table_removal_ne (by decide))]
    rfl
  rw [Prog.wp_bind']
  refine deleteExpenseById_wp (fun d₁ l₁ henv₁ hnone => ?_) fun d₁ _ ws l₁ henv₁ _ hws hneeds₁ => ?_
  · obtain ⟨-, e₁, he₁⟩ := hstill henv₁
    rw [hview, he₁] at hnone
    cases hnone
  · have hsame₁ := (hstill henv₁).1
    rw [Session.view_extend, Session.view_idle, ← hsame₁, owned_removal, hsame₁] at hws
    subst hws
    rw [extend_extend]
    refine Prog.wp_commitTrx.2 fun d₂ henv₂ => ⟨?_, trivial⟩
    have henv := env_append henv₁ henv₂
    obtain ⟨hsame, e, he⟩ := hstill henv
    rw [Session.view_extend, Session.view_idle, ← expenseDeletion, ← hsame]
    refine .deleted he (fun b => ?_) fun k hk => ?_
    · rw [balances_removal, ← netOf_filter, ← Database.owned, hsame]
      by_cases hn : netOf (d.owned (.expense id)) b = 0
      · rw [hn, sub_zero]
        exact (Protocol.Env.inv henv h).inRange b
      · have hrange := hrange h.inRange b
        have hbalance : d.balances b = d₂.balances b :=
          balance_eq (s := .idle) henv (hlocked hn) rfl
        rwa [balances_removal, ← netOf_filter, ← Database.owned, hbalance] at hrange
    · rw [expenseDeletion, List.flatMap_append, hsame] at hk
      exact List.mem_append_right _ (List.mem_append.2
        ((List.mem_append.1 hk).imp (fun hk => hneeds hk) fun hk => hneeds₁ hk))

theorem deleteExpense_wp (h : LedgerInvariant A.agrees initial removed d)
    (hrefunds : ∀ {id netShu netCapital d'}, A.allows (.adjustBalance id netShu netCapital) d' →
      netShu = (netOf (d'.owned (.expense id)) .shu : ℚ) / 10 ^ 4 ∧
        netCapital = (netOf (d'.owned (.expense id)) .capital : ℚ) / 10 ^ 4)
    {id : Uuid} {now : Date} :
    (deleteExpense id now).wp ((A.protocol C initial removed).contract x)
      (fun _ _ _ => True) d .idle := by
  have hinv : ∀ {d' : Database} {l : Locks}, ((A.protocol C initial removed).contract x).env l d d' →
      LedgerInvariant A.agrees initial removed d' := fun henv => Protocol.Env.inv henv h
  unfold deleteExpense
  rw [Prog.wp_bind']
  refine wp_selectOnPool fun d₁ henv₁ => ?_
  split
  · trivial
  rename_i e₁ _
  rw [Prog.wp_bind', deleteExpenseTransaction]
  refine deleteTransaction_wp (fun d₂ henv₂ hnil => ?_) (fun d₂ d₃ _ _ hallowed => ?_)
    (fun d₂ d₃ l henv₂ henv₃ hne hshu hcapital => ?_) fun d₂ l henv₂ hne hrange hneeds => ?_
  · -- the expense was deleted in the meantime
    have hnone : d₂.find .expenses id = none := by
      by_contra hfound
      obtain ⟨e, he⟩ := Option.ne_none_iff_exists'.1 hfound
      obtain ⟨r, hr, -⟩ := (hinv (Protocol.Env.trans henv₁ henv₂)).expenses.entry id e he
      rw [Session.view_idle] at hnil
      rw [hnil] at hr
      cases hr
    rw [Prog.wp_bind']
    refine deleteExpenseById_wp (fun d₃ l henv₃ _ => ?_) fun d₃ e ws l henv₃ hfound _ _ => ?_
    · refine Prog.wp_commitTrx.2 fun d₄ _ => ⟨?_, trivial⟩
      rw [Session.view_extend_nil]
      exact .nothing
    · rw [Session.view_idle, missing_env henv₃ hnone] at hfound
      cases hfound
  · obtain ⟨hshu, hcapital⟩ := hrefunds hallowed
    rw [div_left_inj' (by norm_num), Int.cast_inj] at hshu hcapital
    funext b
    cases b with
    | shu => exact hshu.symm
    | capital => exact hcapital.symm
    | total => rw [netOf_total, netOf_total, hshu, hcapital]
  · have hinv₂ := hinv (Protocol.Env.trans henv₁ henv₂)
    by_cases hs : netOf (d₂.owned (.expense id)) .shu = 0
    · have hc := hinv₂.netOf_owned_ne hne hs
      exact owned_env henv₃ (List.mem_append_right _ (hcapital hs hc)) rfl (.inr ⟨_, rfl, hc⟩)
    · exact owned_env henv₃ (List.mem_append_right _ (hshu hs)) rfl (.inr ⟨_, rfl, hs⟩)
  · rw [Session.view_idle] at hne hrange hneeds ⊢
    exact deleteRefunded_wp (hinv (Protocol.Env.trans henv₁ henv₂)) hne hrange hneeds

end Calls

/-! ### Refunds -/

/-- A call on an expense. -/
inductive ExpenseCall where
  | updateExpense (ids : ExpenseIds) (id : Uuid) (dto : UpdateExpenseDto) (now : Date)
  | deleteExpense (id : Uuid) (now : Date)

def ExpenseCall.program : ExpenseCall → Program Unit
  | updateExpense ids id dto now => do
      let _ ← LumbungMesari.updateExpense ids id dto now
      pure ()
  | deleteExpense id now => LumbungMesari.deleteExpense id now

/-- When a deletion adjusts a balance, the rows of its expense add up to what it has read. -/
def refundsCurrent : Label → Database → Bool
  | .adjustBalance id netShu netCapital, d =>
      netShu = (netOf (d.owned (.expense id)) .shu : ℚ) / 10 ^ 4 &&
        netCapital = (netOf (d.owned (.expense id)) .capital : ℚ) / 10 ^ 4
  | _, _ => true

/-- Amounts that are not negative are all that a refund needs of an expense. -/
def refunding : ExpenseAgreement where
  agrees e _ := e.allocation.Nonneg
  allows l d := refundsCurrent l d = true
  allocation h _ := h
  set hset h := by
    rw [Expense.allocation, (hset.kept rfl).1, (hset.kept rfl).2]
    exact h
  corrected {_ _ _ _ _ _ amounts _ e e' _ _ _} _ _ hc h := by
    cases amounts with
    | none =>
        rw [Expense.allocation, (hc.set.kept rfl).1, (hc.set.kept rfl).2]
        exact h
    | some a =>
        have hstored := hc.set.stored a rfl
        exact ⟨Numeric.toRat_nonneg.2 (Numeric.units_nonneg_of_ofRat? hstored.1 hc.nonneg.1),
          Numeric.toRat_nonneg.2 (Numeric.units_nonneg_of_ofRat? hstored.2 hc.nonneg.2)⟩

theorem LedgerInvariant.refunding {initial : BalanceType → ℤ} {removed : Uuid → Prop} {d : Database}
    (h : LedgerInvariant Expense.Agrees initial removed d) :
    LedgerInvariant LumbungMesari.refunding.agrees initial removed d where
  inRange := h.inRange
  books := h.books
  expenses := {
    entry := fun id e he => by
      obtain ⟨r, hr, hagrees⟩ := h.expenses.entry id e he
      have hmem : r ∈ (d.owned (.expense id)).filter (·.visible) := hr ▸ List.mem_singleton_self r
      exact ⟨r, hr, hagrees.allocation (h.books.nonneg r (mem_owned.1 (List.mem_filter.1 hmem).1).1)⟩
    named := h.expenses.named }

abbrev refundProtocol (initial : BalanceType → ℤ) (removed : Uuid → Prop) :
    Protocol Database LockTarget Label ExpenseCall :=
  refunding.protocol ExpenseCall initial removed

theorem ExpenseCall.program_wp {initial : BalanceType → ℤ} {removed : Uuid → Prop} (x : ExpenseCall)
    (d : Database) (h : (refundProtocol initial removed).inv d) :
    x.program.wp ((refundProtocol initial removed).contract x) (fun _ _ _ => True) d .idle := by
  cases x with
  | updateExpense ids id dto now =>
      rw [ExpenseCall.program, Prog.wp_bind']
      exact updateExpense_wp h
  | deleteExpense id now =>
      refine deleteExpense_wp h fun hallowed => ?_
      have hcurrent : (_ && _) = true := hallowed
      simpa using hcurrent

/-- A commit that takes an expense away gives back what its visible row says. -/
theorem ExpenseMove.refunded {A : ExpenseAgreement} {initial : BalanceType → ℤ}
    {removed : Uuid → Prop} {l : Locks} {d d' : Database} {id : Uuid} {e : Expense}
    (h : LedgerInvariant A.agrees initial removed d) (hmove : ExpenseMove A l d d')
    (hfound : d.find .expenses id = some e) (hnone : d'.find .expenses id = none) :
    ∃ r, (d.owned (.expense id)).filter (·.visible) = [r] ∧
      ∀ b, d'.balances b = d.balances b - r.signed b := by
  cases hmove with
  | nothing =>
      rw [hfound] at hnone
      cases hnone
  | columns found set =>
      rw [Database.find_update, hfound] at hnone
      split at hnone <;> cases hnone
  | corrected corrected =>
      rw [LedgerInvariant.find_expenseCorrection corrected, hfound] at hnone
      split at hnone <;> cases hnone
  | @deleted now id' _ found =>
      rw [LedgerInvariant.find_expenseDeletion, hfound] at hnone
      split at hnone
      · rename_i hid
        subst hid
        obtain ⟨r, hr, -⟩ := h.expenses.entry id e hfound
        refine ⟨r, hr, fun b => ?_⟩
        rw [balances_expenseDeletion, balances_removal, ← netOf_filter, ← Database.owned,
          h.netOf_owned hr]
      · cases hnone

/-- **Refunded once.** In every run in which the deletions adjust the balances by what the rows of
their expenses still add up to, the balances are what they were plus the visible rows, a deletion
gives back what the visible row of its expense says, and a deleted expense stays deleted. -/
theorem deleteExpense_refundsOnce {initial : BalanceType → ℤ} {removed : Uuid → Prop}
    {d₀ : Database} (h₀ : LedgerInvariant Expense.Agrees initial removed d₀)
    {s : Sys Database Write LockTarget Label Error ExpenseCall}
    (hrun : Sys.Run ExpenseCall.program (fun l d => refundsCurrent l d = true) (Sys.start d₀) s) :
    (∀ b, s.committed.balances b =
      initial b + net (·.visible) b (s.committed.rows .cashbookTransactions)) ∧
    (∀ ev s', s.Admitted (fun l d => refundsCurrent l d = true) ev →
      s.step ExpenseCall.program ev = some s' →
      ∀ id e, s.committed.find .expenses id = some e → s'.committed.find .expenses id = none →
        ∃ r, (s.committed.owned (.expense id)).filter (·.visible) = [r] ∧
          ∀ b, s'.committed.balances b = s.committed.balances b - r.signed b) ∧
    ∀ id, s.committed.find .expenses id = none →
      s.committed.owned (.expense id) = [] ∧
      ∀ s', Sys.Run ExpenseCall.program (fun l d => refundsCurrent l d = true) s s' →
        s'.committed.find .expenses id = none := by
  have hprog : ∀ x d, (refundProtocol initial removed).inv d → _ := ExpenseCall.program_wp
  have hgood := Protocol.sound hprog (Protocol.good_start h₀.refunding) hrun
  refine ⟨hgood.inv.books.balance, fun ev s' hok hstep id e hfound hnone => ?_,
    fun id hnone => ⟨hgood.inv.expenses.named id hnone, fun s' hrun' => ?_⟩⟩
  · rcases (hgood.step hprog hok hstep).2 with ⟨hsame, -⟩ | ⟨cl, -, l, hmove, -⟩
    · rw [hsame, hfound] at hnone
      cases hnone
    · exact hmove.refunded hgood.inv hfound hnone
  · exact Protocol.history_inv (J := fun _ d => d.find .expenses id = none) hprog
      (fun _ hnone hmove => hmove.missing hnone) hgood hnone hrun'

/-! ### Two deletions of one expense -/

/-- The seeded books with one expense of 200,000 from the capital. -/
def withExpense : Database :=
  runCalls LedgerCall.program seeded
    [.createExpense ⟨1, 4, 5⟩ ⟨1, "Listrik", 200000, none, none, none, none⟩ 1 ⟨2026, 5, 1⟩]

theorem migrated_seeded : Migrated seeded :=
  ⟨rfl, rfl, rfl, by decide +kernel, by decide +kernel⟩

theorem withExpense_ledgerInvariant :
    ∃ removed, LedgerInvariant Expense.Agrees seeded.balances removed withExpense :=
  migrated_seeded.ledgerInvariant.after_calls _ (by decide +kernel) fun _ _ hdead => hdead

def deleting : ExpenseCall := .deleteExpense 1 ⟨2026, 5, 2⟩

def correcting : ExpenseCall :=
  .updateExpense ⟨2, 6, 7⟩ 1 ⟨none, none, some 300000, none, none, none, none⟩ ⟨2026, 5, 2⟩

/-- A correction commits before a deletion reads the rows; a second deletion finds none. -/
theorem deleteExpense_refundsOnce_deleting :
    ∃ s : Sys Database Write LockTarget Label Error ExpenseCall,
      s.history.length = 3 ∧ s.committed.find .expenses 1 = none ∧
      s.committed.balances .capital = seeded.balances .capital := by
  have hexec : ((Sys.start withExpense).exec ExpenseCall.program refundsCurrent
      ([.call correcting, .call deleting, .call deleting, .run 0, .run 1, .run 2] ++
        List.replicate 8 (.run 0) ++ List.replicate 7 (.run 1) ++ List.replicate 3 (.run 2))).map
        (fun s => (s.history.length, s.committed.find .expenses 1,
          net (·.visible) .capital (s.committed.rows .cashbookTransactions))) =
      some (3, none, 0) := by
    decide +kernel
  obtain ⟨s, hs, hended⟩ := Option.map_eq_some_iff.1 hexec
  simp only [Prod.mk.injEq] at hended
  obtain ⟨removed, h₀⟩ := withExpense_ledgerInvariant
  have hbalance := (deleteExpense_refundsOnce h₀ (Sys.run_of_exec hs)).1 .capital
  refine ⟨s, hended.1, hended.2.1, ?_⟩
  rw [hbalance, hended.2.2, add_zero]

/-- Both deletions read the rows before either has adjusted a balance. -/
theorem concurrent_deletions_refund_twice :
    ∃ s : Sys Database Write LockTarget Label Error ExpenseCall,
      Sys.Reach ExpenseCall.program (Sys.start withExpense) s ∧ s.Quiescent ∧
      net (·.visible) .capital (s.committed.rows .cashbookTransactions) = 0 ∧
      s.committed.balances .capital = seeded.balances .capital + 200000 * 10 ^ 4 := by
  have hexec : ((Sys.start withExpense).exec ExpenseCall.program (fun _ _ => true)
      ([.call deleting, .call deleting, .run 0, .run 1, .run 0, .run 1] ++
        List.replicate 6 (.run 0) ++ List.replicate 6 (.run 1))).map
        (fun s => (s.clients.all Client.ended, net (·.visible) .capital
          (s.committed.rows .cashbookTransactions), s.committed.balances .capital)) =
      some (true, 0, seeded.balances .capital + 200000 * 10 ^ 4) := by
    decide +kernel
  obtain ⟨s, hs, hrefunded⟩ := Option.map_eq_some_iff.1 hexec
  simp only [Prod.mk.injEq] at hrefunded
  exact ⟨s, Sys.reach_of_exec hs, Sys.quiescent_of_ended hrefunded.1, hrefunded.2⟩

/-! ### Drift -/

/-- A call of `updateExpense`. -/
structure ExpenseUpdate where
  ids : ExpenseIds
  id : Uuid
  dto : UpdateExpenseDto
  now : Date

def ExpenseUpdate.program (x : ExpenseUpdate) : Program Unit := do
  let _ ← updateExpense x.ids x.id x.dto x.now
  pure ()

/-- When an update writes to the expense and will post the amounts it has read, they are still the
amounts of the expense. -/
def repostsCurrent : Label → Database → Bool
  | .repostExpense id shuAmount capitalAmount, d => (d.find .expenses id).all fun e =>
      decide (e.allocation.shuAmount = shuAmount) && decide (e.allocation.capitalAmount = capitalAmount)
  | _, _ => true

def reposting : ExpenseAgreement where
  agrees := Expense.Agrees
  allows l d := repostsCurrent l d = true
  allocation := Expense.Agrees.allocation
  set := ExpenseSet.agrees
  corrected {d₁ _ _ _ id existing _ txnDate _ _ _ _ _} hallowed hfound hc h := by
    refine hc.agrees (fun hnone => ?_) h
    subst hnone
    have hdate : txnDate.isSome = true := hc.posts
    have hcurrent : repostsCurrent (repostLabel id none txnDate existing) d₁ = true := hallowed
    rw [repostLabel, Option.isNone_none, Bool.true_and, if_pos hdate, repostsCurrent, hfound,
      Option.all_some, Bool.and_eq_true, decide_eq_true_eq, decide_eq_true_eq] at hcurrent
    exact (congrArg₂ Allocation.mk hcurrent.1 hcurrent.2).symm

abbrev repostProtocol (initial : BalanceType → ℤ) (removed : Uuid → Prop) :
    Protocol Database LockTarget Label ExpenseUpdate :=
  reposting.protocol ExpenseUpdate initial removed

theorem ExpenseUpdate.program_wp {initial : BalanceType → ℤ} {removed : Uuid → Prop}
    (x : ExpenseUpdate) (d : Database) (h : (repostProtocol initial removed).inv d) :
    x.program.wp ((repostProtocol initial removed).contract x) (fun _ _ _ => True) d .idle := by
  rw [ExpenseUpdate.program, Prog.wp_bind']
  exact updateExpense_wp h

/-- **An expense and its ledger row agree**, in every run in which the updates that only move the
date post amounts that are still those of the expense. -/
theorem updateExpense_agrees {initial : BalanceType → ℤ} {removed : Uuid → Prop} {d₀ : Database}
    (h₀ : LedgerInvariant Expense.Agrees initial removed d₀)
    {s : Sys Database Write LockTarget Label Error ExpenseUpdate}
    (hrun : Sys.Run ExpenseUpdate.program (fun l d => repostsCurrent l d = true) (Sys.start d₀) s) :
    ∀ id e, s.committed.find .expenses id = some e → ∃ r,
      (s.committed.rows .cashbookTransactions).filter
        (fun r => (Owner.expense id).owns r && r.visible) = [r] ∧
      r.shuAmount = e.shuAmount ∧ r.capitalAmount = e.capitalAmount ∧ r.txnDate = e.txnDate := by
  intro id e he
  have hgood := Protocol.sound (P := repostProtocol initial removed) ExpenseUpdate.program_wp
    (Protocol.good_start h₀) hrun
  obtain ⟨r, hr, hagrees⟩ := hgood.inv.expenses.entry id e he
  refine ⟨r, ?_, hagrees.shuAmount, hagrees.capitalAmount, hagrees.txnDate⟩
  rw [← hr, Database.owned, List.filter_filter]
  exact List.filter_congr fun r _ => Bool.and_comm ..

def moving : ExpenseUpdate :=
  ⟨⟨2, 6, 7⟩, 1, ⟨none, none, none, none, none, none, some ⟨2026, 5, 2⟩⟩, ⟨2026, 5, 3⟩⟩

def raising : ExpenseUpdate :=
  ⟨⟨2, 8, 9⟩, 1, ⟨none, none, some 300000, none, none, none, none⟩, ⟨2026, 5, 3⟩⟩

/-- The date is moved after the amount has changed. -/
theorem updateExpense_agrees_moving :
    ∃ s : Sys Database Write LockTarget Label Error ExpenseUpdate, ∃ e r,
      s.history.length = 2 ∧ s.committed.find .expenses 1 = some e ∧
      e.txnDate = ⟨2026, 5, 2⟩ ∧ e.capitalAmount.units = 300000 * 10 ^ 4 ∧
      (s.committed.rows .cashbookTransactions).filter
        (fun r => (Owner.expense 1).owns r && r.visible) = [r] ∧
      r.capitalAmount = e.capitalAmount ∧ r.txnDate = e.txnDate := by
  have hexec : ((Sys.start withExpense).exec ExpenseUpdate.program repostsCurrent
      ([.call raising, .call moving] ++ List.replicate 10 (.run 0) ++
        List.replicate 9 (.run 1))).map
        (fun s => (s.history.length, (s.committed.find .expenses 1).map
          fun e => (e.txnDate, e.capitalAmount.units))) =
      some (2, some (⟨2026, 5, 2⟩, 300000 * 10 ^ 4)) := by
    decide +kernel
  obtain ⟨s, hs, hended⟩ := Option.map_eq_some_iff.1 hexec
  rw [Prod.mk.injEq] at hended
  obtain ⟨e, he, hcolumns⟩ := Option.map_eq_some_iff.1 hended.2
  rw [Prod.mk.injEq] at hcolumns
  obtain ⟨removed, h₀⟩ := withExpense_ledgerInvariant
  obtain ⟨r, hr, -, hcapital, hdate⟩ := updateExpense_agrees h₀ (Sys.run_of_exec hs) 1 e he
  exact ⟨s, e, r, hended.1, he, hcolumns.1, hcolumns.2, hr, hcapital, hdate⟩

/-- The update of the date reads the expense before the amount changes, and posts what it has read
after that. -/
theorem concurrent_updates_drift :
    ∃ s : Sys Database Write LockTarget Label Error ExpenseUpdate, ∃ e r,
      Sys.Reach ExpenseUpdate.program (Sys.start withExpense) s ∧ s.Quiescent ∧
      s.committed.find .expenses 1 = some e ∧
      (s.committed.rows .cashbookTransactions).filter
        (fun r => (Owner.expense 1).owns r && r.visible) = [r] ∧
      r.capitalAmount.units + 100000 * 10 ^ 4 = e.capitalAmount.units := by
  have hexec : ((Sys.start withExpense).exec ExpenseUpdate.program (fun _ _ => true)
      ([.call moving, .call raising, .run 0] ++ List.replicate 10 (.run 1) ++
        List.replicate 8 (.run 0))).map
        (fun s => (s.clients.all Client.ended,
          (s.committed.find .expenses 1).map (·.capitalAmount.units),
          ((s.committed.rows .cashbookTransactions).filter
            fun r => (Owner.expense 1).owns r && r.visible).map (·.capitalAmount.units))) =
      some (true, some (300000 * 10 ^ 4), [200000 * 10 ^ 4]) := by
    decide +kernel
  obtain ⟨s, hs, hended⟩ := Option.map_eq_some_iff.1 hexec
  simp only [Prod.mk.injEq] at hended
  obtain ⟨hquiet, hexpense, hrows⟩ := hended
  obtain ⟨e, he, hamount⟩ := Option.map_eq_some_iff.1 hexpense
  obtain ⟨r, hr, hposted⟩ := List.map_eq_singleton_iff.1 hrows
  refine ⟨s, e, r, Sys.reach_of_exec hs, Sys.quiescent_of_ended hquiet, he, hr, ?_⟩
  rw [hposted, hamount]
  norm_num

end LumbungMesari
