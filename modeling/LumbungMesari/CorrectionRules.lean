import LumbungMesari.Books

/-!
# Rules for corrections and removals

What `updateTransaction` and `deleteTransaction` add to a transaction. Both read ledger rows without
a lock and write later, so the rules ask the caller why the rows it read are still there: a call
that runs alone knows at once, a call that interleaves has to name a lock.
-/

namespace LumbungMesari

open Sql
open Prog (inTrx)

variable {S : Contract Database LockTarget Label} [S.Stable (W := Write)] {d : Database} {s : Trx}

/-- The rows an owner has in a state. -/
def Database.owned (d : Database) (o : Owner) : List CashbookTransaction :=
  (d.rows .cashbookTransactions).filter o.owns

theorem mem_owned {d : Database} {o : Owner} {r : CashbookTransaction} :
    r ∈ d.owned o ↔ r ∈ d.rows .cashbookTransactions ∧ o.owns r = true := List.mem_filter

theorem owned_append {d : Database} {o : Owner} {rows : List CashbookTransaction}
    {r : CashbookTransaction} (hrows : d.rows .cashbookTransactions = rows ++ [r]) :
    d.owned o = rows.filter o.owns ++ if o.owns r then [r] else [] := by
  rw [Database.owned, hrows, List.filter_append, List.filter_singleton]
  cases o.owns r <;> rfl

theorem rows_updates {d : Database} (t : TableName) {p : Row t → Bool} (set : Row t → Row t)
    (hset : ∀ r, Row.id t (set r) = Row.id t r) {rs : List (Row t)} (hrs : (d.rows t).filter p = rs) :
    (applyAll d ((rs.map set).map (Write.update t))).rows t =
      (d.rows t).map fun r => if p r then set r else r := by
  rw [Database.rows, applyAll_updates, ← hrs]
  exact Table.rows_replaceAll_filter (d.table t) p hset

theorem table_updates_ne {d : Database} {t t' : TableName} (h : t ≠ t') (rs : List (Row t)) :
    (applyAll d (rs.map (Write.update t))).table t' = d.table t' := by
  refine Database.table_applyAll fun w hw => ?_
  obtain ⟨r, -, rfl⟩ := List.mem_map.1 hw
  exact fun he => h (Option.some.inj he)

theorem delta_updates (t : TableName) (rs : List (Row t)) (b : BalanceType) :
    ((rs.map (Write.update t)).map (Write.delta b)).sum = 0 := by
  rw [List.map_map, List.sum_eq_zero]
  intro x hx
  obtain ⟨r, -, rfl⟩ := List.mem_map.1 hx
  rfl

theorem updateRow_softDelete {d : Database} {now : Date} {r : CashbookTransaction} {ws : List Write}
    (h : updateRow d .cashbookTransactions r (r.softDelete now) = .ok ws) :
    ws = [.update .cashbookTransactions (r.softDelete now)] :=
  updateRow_cashbook rfl rfl rfl h

omit [S.Stable (W := Write)] in
theorem updateWhere_softDelete_wp {p : CashbookTransaction → Bool} {now : Date}
    {Q : Unit → Database → Trx → Prop}
    (h : ∀ d' rs l, S.env s.locks d d' →
      ((s.view d').rows .cashbookTransactions).filter p = rs →
      ((rs.map (CashbookTransaction.softDelete now)).map
        (Write.update .cashbookTransactions)).flatMap needs ⊆ l →
      Q () d' (s.extend ((rs.map (CashbookTransaction.softDelete now)).map
        (Write.update .cashbookTransactions)) l)) :
    (inTrx (updateWhere .cashbookTransactions p (CashbookTransaction.softDelete now))).wp S Q d s := by
  refine wp_statement fun d' ws b l henv hexec _ _ hneeds => ?_
  obtain ⟨ws', hupdates, hexec⟩ := bind_ok hexec
  cases hexec
  rw [updateRows_ok (fun _ _ _ => updateRow_softDelete) hupdates] at hneeds ⊢
  exact h d' _ l henv rfl hneeds

/-! ### Corrections -/

/-- The writes of a correction. -/
def correction (now : Date) (original reversal new : CashbookTransaction) : List Write :=
  .update .cashbookTransactions (original.softDelete now) :: (reversal.postings ++ new.postings)

theorem mem_needs_correction {now : Date} {original reversal new : CashbookTransaction}
    {k : LockTarget × LockMode}
    (h : k ∈ reversal.postings.flatMap needs ∨ k ∈ new.postings.flatMap needs) :
    k ∈ (correction now original reversal new).flatMap needs := by
  rw [correction, List.flatMap_cons, List.flatMap_append]
  exact List.mem_append_right _ (List.mem_append.2 h)

/-- What a correction has read and inserted, in the state it ends in. -/
structure Corrected (d : Database) (now : Date) (reversalId newId : Uuid) (o : Owner)
    (newShuAmount newCapitalAmount : ℚ) (txnDate : Option Date)
    (original reversal new : CashbookTransaction) : Prop where
  mem : original ∈ d.rows .cashbookTransactions
  owned : o.owns original = true
  visible : original.visible = true
  reversed : (reversalEntry o original d.current).Stored reversalId reversal
  corrected : (correctedEntry o newShuAmount newCapitalAmount (afterReversal o original d.current)
    (txnDate.getD original.txnDate)).Stored newId new
  reversalFresh : d.find .cashbookTransactions reversal.id = none
  newFresh : d.find .cashbookTransactions new.id = none
  distinct : reversal.id ≠ new.id
  inRange : reversal.Nonneg → new.Nonneg → d.InRange →
    (applyAll d (correction now original reversal new)).InRange

theorem Corrected.congr {d d' : Database} {now : Date} {reversalId newId : Uuid} {o : Owner}
    {newShuAmount newCapitalAmount : ℚ} {txnDate : Option Date}
    {original reversal new : CashbookTransaction}
    (h : Corrected d now reversalId newId o newShuAmount newCapitalAmount txnDate original reversal new)
    (howned : d'.owned o = d.owned o) (hbalances : ∀ b, d'.balances b = d.balances b)
    (hreversal : d'.find .cashbookTransactions reversal.id = none)
    (hnew : d'.find .cashbookTransactions new.id = none) :
    Corrected d' now reversalId newId o newShuAmount newCapitalAmount txnDate original reversal
      new := by
  have hcurrent : d'.current = d.current := by
    simp only [Database.current, Database.balance, hbalances]
  refine ⟨?_, h.owned, h.visible, hcurrent ▸ h.reversed, hcurrent ▸ h.corrected, hreversal, hnew,
    h.distinct, fun hr hn hd b => ?_⟩
  · have hmem := mem_owned.2 ⟨h.mem, h.owned⟩
    rw [← howned] at hmem
    exact (mem_owned.1 hmem).1
  · have hrange := h.inRange hr hn (fun b => hbalances b ▸ hd b) b
    rwa [Database.balances_applyAll, ← hbalances, ← Database.balances_applyAll] at hrange

theorem filter_only {d : Database} {original : CashbookTransaction}
    (hmem : original ∈ d.rows .cashbookTransactions) (hvisible : original.visible = true) :
    (d.rows .cashbookTransactions).filter (Books.only original) = [original] := by
  obtain ⟨before, after, hsplit, hbefore, hafter⟩ :=
    Table.split_of_find? (Table.find?_of_mem hmem)
  have hnot : ∀ l : List CashbookTransaction, (∀ r ∈ l, r.id ≠ original.id) →
      l.filter (Books.only original) = [] := by
    intro l hl
    rw [List.filter_eq_nil_iff]
    intro r hr
    simp [Books.only, hl r hr]
  rw [Database.rows, hsplit, List.filter_append, List.filter_cons_of_pos
    (by simp [Books.only, Books.deletedAt_of_visible hvisible]), hnot before hbefore,
    hnot after hafter]
  rfl

theorem updateTransaction_wp {reversalId newId : Uuid} {o : Owner} {notFound : Error}
    {newShuAmount newCapitalAmount : ℚ} {txnDate : Option Date} {now : Date}
    {Q : Unit → Database → Trx → Prop}
    (hstable : ∀ d₁ d₂ original, S.env s.locks d d₁ → S.env s.locks d₁ d₂ →
      original ∈ (s.view d₁).rows .cashbookTransactions → o.owns original = true →
      original.visible = true → original ∈ (s.view d₂).rows .cashbookTransactions)
    (h : ∀ d' original reversal new l, S.env s.locks d d' →
      Corrected (s.view d') now reversalId newId o newShuAmount newCapitalAmount txnDate original
        reversal new →
      (∀ b, (LockTarget.balance b, LockMode.update) ∈ l) →
      (correction now original reversal new).flatMap needs ⊆ l →
      Q () d' (s.extend (correction now original reversal new) l)) :
    (updateTransaction reversalId newId o notFound newShuAmount newCapitalAmount txnDate now).wp
      S Q d s := by
  unfold updateTransaction findLatestActive
  rw [Prog.wp_bind']
  refine wp_select fun d₁ henv₁ => ?_
  split
  · trivial
  rename_i original hfind
  have hfound := List.find?_some hfind
  rw [Bool.and_eq_true] at hfound
  obtain ⟨howned, hvisible⟩ := hfound
  have hmem₁ : original ∈ (s.view d₁).rows .cashbookTransactions :=
    List.mem_reverse.1 (List.mem_of_find?_eq_some hfind)
  have hmem : ∀ d₂, S.env s.locks d₁ d₂ → original ∈ (s.view d₂).rows .cashbookTransactions :=
    fun d₂ henv => hstable d₁ d₂ original henv₁ henv hmem₁ howned hvisible
  rw [Prog.wp_bind']
  refine lockAllForUpdate_wp fun d₂ l₂ henv₂ hl₂ => ?_
  rw [Prog.wp_bind']
  refine updateWhere_softDelete_wp fun d₃ rs l₃ henv₃ hrs hneeds₃ => ?_
  rw [Session.locks_extend] at henv₃
  rw [Session.view_extend_nil] at hrs
  have henv₁₃ := env_append henv₂ henv₃
  obtain rfl : rs = [original] := hrs.symm.trans (filter_only (hmem d₃ henv₁₃) hvisible)
  rw [extend_extend, List.nil_append]
  rw [Prog.wp_bind']
  refine createTransaction_wp fun d₄ reversal l₄ henv₄ hreversal hinserted₄ hneeds₄ => ?_
  rw [Session.locks_extend, ← List.append_assoc] at henv₄
  rw [Prog.wp_bind']
  refine createTransaction_wp fun d₅ new l₅ henv₅ hnew hinserted₅ hneeds₅ => ?_
  rw [extend_extend, Session.locks_extend, ← List.append_assoc, ← List.append_assoc] at henv₅
  rw [extend_extend, extend_extend]
  have henv₃₅ := env_append henv₃ (env_append henv₄ henv₅)
  have henv₁₅ := env_append henv₂ henv₃₅
  have hcurrent : (s.view d₂).current = (s.view d₅).current :=
    current_eq henv₃₅ fun b => List.mem_append_right _ (hl₂ b)
  rw [hcurrent] at hreversal hnew
  -- an id that is free after the writes of the transaction was free before them
  have hreplaced : ∀ {d' : Database} {id : Uuid}, (d'.apply (.update .cashbookTransactions
      (original.softDelete now))).find .cashbookTransactions id = none →
      d'.find .cashbookTransactions id = none := by
    intro d' id hnone
    rw [Database.find_update] at hnone
    split at hnone
    · exact Option.map_eq_none_iff.1 hnone
    · exact hnone
  have hfresh₄ := hinserted₄.fresh
  rw [Session.view_extend] at hfresh₄
  have hreversalFresh : (s.view d₅).find .cashbookTransactions reversal.id = none := by
    rw [← find_view_eq henv₅ (List.mem_append_right _ (hneeds₄ reversal.mem_needs_postings)) rfl]
    exact hreplaced hfresh₄
  have hfresh₅ := hinserted₅.fresh
  rw [Session.view_extend, Session.view_extend, CashbookTransaction.find_postings] at hfresh₅
  have hdistinct : reversal.id ≠ new.id := by
    intro he
    rw [if_pos he] at hfresh₅
    exact absurd hfresh₅ (by simp)
  rw [if_neg hdistinct] at hfresh₅
  have hinRange : reversal.Nonneg → new.Nonneg → (s.view d₅).InRange →
      (applyAll (s.view d₅) (correction now original reversal new)).InRange := by
    intro hreversal hnew hd
    have hfits := hinserted₄.toFits.congr fun b =>
      balance_eq henv₅ (b := b) (m := .update) (by simp [hl₂ b]) rfl
    have hmiddle := hfits.inRange hreversal fun b => by simpa [Session.view_extend] using hd b
    have hlast := hinserted₅.inRange hnew
    rw [Session.view_extend] at hmiddle
    rw [Session.view_extend, Session.view_extend] at hlast
    rw [correction, applyAll_cons, applyAll_append]
    exact hlast hmiddle
  refine h d₅ original reversal new _ (env_trans henv₁ henv₁₅)
    ⟨hmem d₅ henv₁₅, howned, hvisible, hreversal, hnew, hreversalFresh, hreplaced hfresh₅,
      hdistinct, hinRange⟩ (fun b => ?_) ?_
  · simp [hl₂ b]
  · simp only [correction, List.flatMap_cons, List.flatMap_append]
    simp only [List.map_cons, List.map_nil, List.flatMap_cons, List.flatMap_nil,
      List.append_nil] at hneeds₃
    intro k hk
    simp only [List.mem_append] at hk ⊢
    rcases hk with hk | hk | hk
    · exact .inl (.inr (hneeds₃ hk))
    · exact .inr (.inl (hneeds₄ hk))
    · exact .inr (.inr (hneeds₅ hk))

/-! ### What a correction does -/

section Correction

variable {d : Database} {now : Date} {original reversal new : CashbookTransaction}

theorem table_correction_ne {t : TableName} (ht : TableName.cashbookTransactions ≠ t) :
    (applyAll d (correction now original reversal new)).table t = d.table t := by
  rw [correction, applyAll_cons, applyAll_append, CashbookTransaction.table_postings_ne _ ht,
    CashbookTransaction.table_postings_ne _ ht]
  exact Database.table_update_ne d ht _

variable {reversalId newId : Uuid} {o : Owner} {newShuAmount newCapitalAmount : ℚ}
  {txnDate : Option Date}

theorem Corrected.rows (h : Corrected d now reversalId newId o newShuAmount newCapitalAmount txnDate
      original reversal new) :
    (applyAll d (correction now original reversal new)).rows .cashbookTransactions =
      hide now (Books.only original) (d.rows .cashbookTransactions) ++ [reversal] ++ [new] := by
  have hhide : (d.apply (.update .cashbookTransactions (original.softDelete now))).rows
      .cashbookTransactions = hide now (Books.only original) (d.rows .cashbookTransactions) :=
    rows_updates .cashbookTransactions (CashbookTransaction.softDelete now)
      (fun _ => rfl) (filter_only h.mem h.visible)
  have hfresh : ∀ {id : Uuid}, d.find .cashbookTransactions id = none →
      (d.apply (.update .cashbookTransactions (original.softDelete now))).find
        .cashbookTransactions id = none := by
    intro id hnone
    rw [Database.find_update, hnone]
    simp
  rw [correction, applyAll_cons, applyAll_append, Database.store_apply,
    CashbookTransaction.rows_postings _ (by
      rw [CashbookTransaction.find_postings, if_neg h.distinct, hfresh h.newFresh]),
    CashbookTransaction.rows_postings _ (hfresh h.reversalFresh), hhide]

theorem ofRat?_toRat_eq {m m' : Money} (h : Numeric.ofRat? m.toRat = some m') : m' = m := by
  rw [Numeric.ofRat?_toRat] at h
  exact (Option.some.inj h).symm

theorem Corrected.reversal_nonneg (h : Corrected d now reversalId newId o newShuAmount
      newCapitalAmount txnDate original reversal new) (horiginal : original.Nonneg) :
    reversal.Nonneg where
  shu := by
    rw [ofRat?_toRat_eq h.reversed.shuAmount]
    exact horiginal.shu
  capital := by
    rw [ofRat?_toRat_eq h.reversed.capitalAmount]
    exact horiginal.capital

theorem Corrected.books {initial : BalanceType → ℤ} {dead : Owner → Prop}
    (h : Corrected d now reversalId newId o newShuAmount newCapitalAmount txnDate original reversal new)
    (hnew : new.Nonneg)
    (hbooks : Books initial dead d.balances (d.rows .cashbookTransactions)) :
    Books initial dead (applyAll d (correction now original reversal new)).balances
      ((applyAll d (correction now original reversal new)).rows .cashbookTransactions) := by
  have hreversalShu := ofRat?_toRat_eq h.reversed.shuAmount
  have hreversalCapital := ofRat?_toRat_eq h.reversed.capitalAmount
  have hnonneg := h.reversal_nonneg (hbooks.nonneg _ h.mem)
  have hreversed : Books initial dead (fun b => d.balances b + reversal.signed b)
      (hide now (Books.only original) (d.rows .cashbookTransactions) ++ [reversal]) :=
    hbooks.reverse h.mem h.owned h.visible (Table.find?_eq_none.1 h.reversalFresh) hreversalShu
      hreversalCapital h.reversed.owns (by rw [h.reversed.visible]; rfl) h.reversed.direction
      fun _ => rfl
  rw [h.rows]
  refine hreversed.post (o := o) ?_ hnew h.corrected.owns (by rw [h.corrected.visible]; rfl)
    h.corrected.direction fun b => ?_
  · rw [List.map_append, map_id_hide, List.map_singleton, List.mem_append, List.mem_singleton, not_or]
    exact ⟨Table.find?_eq_none.1 h.newFresh, h.distinct.symm⟩
  · rw [correction, applyAll_cons, applyAll_append, CashbookTransaction.balances_postings _ hnew,
      CashbookTransaction.balances_postings _ hnonneg]
    rfl

end Correction

/-! ### Removals -/

/-- What rows add up to, direction counted. -/
def netOf (rows : List CashbookTransaction) (b : BalanceType) : ℤ :=
  (rows.map (CashbookTransaction.signed b)).sum

theorem netOf_filter (p : CashbookTransaction → Bool) (rows : List CashbookTransaction)
    (b : BalanceType) : netOf (rows.filter p) b = net p b rows := by
  induction rows with
  | nil => rfl
  | cons r rows ih =>
      rw [net_cons, ← ih, List.filter_cons]
      split <;> simp [netOf]

theorem netOf_total (rows : List CashbookTransaction) :
    netOf rows .total = netOf rows .shu + netOf rows .capital := by
  have h : net (fun _ => true) .total rows = _ := net_total
  simpa [netOf, net] using h

theorem netAmount_eq (amount : CashbookTransaction → Money) (rows : List CashbookTransaction) :
    netAmount amount rows =
      ((rows.map fun r => r.direction.sign * (amount r).units).sum : ℤ) / 10 ^ 4 := by
  have hfold : ∀ (rows : List CashbookTransaction) (q : ℚ),
      rows.foldl (fun net r => net + r.direction.sign * (amount r).toRat) q =
        q + ((rows.map fun r => r.direction.sign * (amount r).units).sum : ℤ) / 10 ^ 4 := by
    intro rows
    induction rows with
    | nil => simp
    | cons r rows ih =>
        intro q
        rw [List.foldl_cons, ih, List.map_cons, List.sum_cons, Numeric.toRat]
        push_cast
        ring
  rw [netAmount, hfold, zero_add]

/-- The balance update that takes a net amount back. -/
def backout (b : BalanceType) (n : ℤ) : List Write := if n ≠ 0 then [.addBalance b (-n)] else []

/-- The balance updates of a removal. -/
def refund (rows : List CashbookTransaction) : List Write :=
  backout .shu (netOf rows .shu) ++ backout .capital (netOf rows .capital) ++
    backout .total (netOf rows .total)

theorem delta_backout (b b' : BalanceType) (n : ℤ) :
    ((backout b n).map (Write.delta b')).sum = if b = b' then -n else 0 := by
  by_cases hn : n = 0
  · simp [backout, hn]
  · simp [backout, hn, Write.delta]

theorem delta_refund (rows : List CashbookTransaction) (b : BalanceType) :
    ((refund rows).map (Write.delta b)).sum = -netOf rows b := by
  rw [refund, List.map_append, List.map_append, List.sum_append, List.sum_append, delta_backout,
    delta_backout, delta_backout]
  cases b <;> simp

theorem table?_refund {rows : List CashbookTransaction} {w : Write} (h : w ∈ refund rows) :
    w.table? = none := by
  have hbackout : ∀ {b n}, w ∈ backout b n → w.table? = none := by
    intro b n hw
    unfold backout at hw
    split at hw
    · rw [List.mem_singleton.1 hw]
      rfl
    · cases hw
  rcases List.mem_append.1 h with h | h
  · rcases List.mem_append.1 h with h | h
    · exact hbackout h
    · exact hbackout h
  · exact hbackout h

/-- The rows of an owner that a removal hides. -/
def live (rows : List CashbookTransaction) : List CashbookTransaction :=
  rows.filter fun r => r.deletedAt.isNone

/-- The writes of a removal. -/
def removal (now : Date) (rows : List CashbookTransaction) : List Write :=
  refund rows ++
    ((live rows).map (CashbookTransaction.softDelete now)).map (Write.update .cashbookTransactions)

theorem mem_needs_backout {b : BalanceType} {n : ℤ} (hn : n ≠ 0) :
    (LockTarget.balance b, LockMode.noKeyUpdate) ∈ (backout b n).flatMap needs := by
  rw [backout, if_pos hn]
  exact List.mem_singleton_self _

theorem mem_needs_refund {rows : List CashbookTransaction} {b : BalanceType}
    (hb : netOf rows b ≠ 0) :
    (LockTarget.balance b, LockMode.noKeyUpdate) ∈ (refund rows).flatMap needs := by
  have hmem := mem_needs_backout (b := b) hb
  rw [refund, List.flatMap_append, List.flatMap_append]
  cases b <;> simp [hmem]

theorem roundHalfAway_neg_units (n : ℤ) : roundHalfAway (-((n : ℚ) / 10 ^ 4) * 10 ^ 4) = -n := by
  rw [show -((n : ℚ) / 10 ^ 4) * 10 ^ 4 = ((-n : ℤ) : ℚ) by push_cast; field_simp]
  exact roundHalfAway_intCast _

theorem takeBack_wp {label : Label} {b : BalanceType} {n : ℤ} {Q : Unit → Database → Trx → Prop}
    (h : ∀ d' l, S.env s.locks d d' → (n ≠ 0 → S.allows label (s.view d')) →
      (n ≠ 0 → MovesInRange (s.view d') b (-n)) → (backout b n).flatMap needs ⊆ l →
      Q () d' (s.extend (backout b n) l)) :
    (takeBack label b ((n : ℚ) / 10 ^ 4)).wp S Q d s := by
  have hq : ((n : ℚ) / 10 ^ 4 ≠ 0) ↔ n ≠ 0 := by
    rw [Ne, div_eq_zero_iff, Int.cast_eq_zero]
    norm_num
  unfold takeBack
  by_cases hn : n = 0
  · rw [if_neg (by rw [hq]; exact not_not.2 hn), Prog.wp_pure]
    have hnil : backout b n = [] := if_neg (not_not.2 hn)
    have hdone := h d [] (Contract.Stable.refl (W := Write) _ _) (fun hne => absurd hn hne)
      (fun hne => absurd hn hne) (by rw [hnil]; exact List.Subset.refl _)
    rwa [hnil, extend_nil] at hdone
  · rw [if_pos (hq.2 hn), adjustBalance]
    refine wp_statement fun d' ws _ l henv hexec hallowed _ hneeds => ?_
    obtain ⟨ws', hupdate, hexec⟩ := bind_ok hexec
    cases hexec
    rw [roundHalfAway_neg_units] at hupdate
    obtain ⟨rfl, hrange⟩ := updateBalance_ok hupdate
    have hwrites : backout b n = [.addBalance b (-n)] := if_pos hn
    rw [← hwrites] at hneeds ⊢
    exact h d' l henv (fun _ => hallowed) (fun _ => hrange) hneeds

theorem owned_refund {d : Database} {o : Owner} {ws : List Write}
    (h : ∀ w ∈ ws, w.table? = none) : (applyAll d ws).owned o = d.owned o := by
  rw [Database.owned, Database.rows, Database.table_applyAll fun w hw => by simp [h w hw]]
  rfl

theorem softDelete_wp {o : Owner} {now : Date} {rows : List CashbookTransaction}
    {Q : Unit → Database → Trx → Prop}
    (hrows : ∀ d', S.env s.locks d d' → (s.view d').owned o = rows)
    (h : ∀ d' l, S.env s.locks d d' →
      (((live rows).map (CashbookTransaction.softDelete now)).map
        (Write.update .cashbookTransactions)).flatMap needs ⊆ l →
      Q () d' (s.extend (((live rows).map (CashbookTransaction.softDelete now)).map
        (Write.update .cashbookTransactions)) l)) :
    (softDelete o now).wp S Q d s := by
  unfold softDelete
  rw [Prog.wp_bind']
  refine wp_select fun d₁ henv₁ => updateWhere_softDelete_wp fun d₂ rs l henv₂ hrs hneeds => ?_
  have henv := env_trans henv₁ henv₂
  have hfilter : ∀ {d' : Database} {p : CashbookTransaction → Bool}, d'.owned o = rows →
      (d'.rows .cashbookTransactions).filter (fun r => p r && (o.owns r && r.deletedAt.isNone)) =
        (live rows).filter p := by
    intro d' p hd'
    rw [← hd', live, Database.owned, List.filter_filter, List.filter_filter]
    exact List.filter_congr fun r _ => by cases p r <;> simp [Bool.and_comm]
  have hpicked : ∀ r ∈ live rows, decide (r.id ∈
      (((s.view d₁).rows .cashbookTransactions).filter fun r =>
        o.owns r && r.deletedAt.isNone).map CashbookTransaction.id) = true := by
    intro r hr
    have hall := hfilter (p := fun _ => true) (hrows d₁ henv₁)
    simp only [Bool.true_and, List.filter_true] at hall
    rw [hall]
    exact decide_eq_true (List.mem_map_of_mem hr)
  rw [hfilter (hrows d₂ henv), List.filter_eq_self.2 hpicked] at hrs
  rw [← hrs] at hneeds ⊢
  exact h d₂ l henv hneeds

/-- The three adjustments of a removal take back what the rows read first add up to. Those rows are
what the owner has as long as they add up to the same when a balance is first adjusted (`hfirst`) and
stay as they are from then on (`hkeep`). -/
theorem refund_wp {o : Owner} {label : Label} {Q : Unit → Database → Trx → Prop}
    {read : List CashbookTransaction} (hread : (s.view d).owned o = read) (hne : read ≠ [])
    (hfirst : ∀ d₂, S.env s.locks d d₂ → S.allows label (s.view d₂) →
      netOf ((s.view d₂).owned o) = netOf read)
    (hkeep : ∀ d₁ d₂ l, S.env s.locks d d₁ → S.env (s.locks ++ l) d₁ d₂ →
      (s.view d₁).owned o ≠ [] →
      (netOf ((s.view d₁).owned o) .shu ≠ 0 →
        (LockTarget.balance .shu, LockMode.noKeyUpdate) ∈ l) →
      (netOf ((s.view d₁).owned o) .shu = 0 → netOf ((s.view d₁).owned o) .capital ≠ 0 →
        (LockTarget.balance .capital, LockMode.noKeyUpdate) ∈ l) →
      (s.view d₂).owned o = (s.view d₁).owned o)
    (h : ∀ d' rows l, S.env s.locks d d' → rows ≠ [] →
      (∀ d'', S.env (s.locks ++ l) d' d'' → (s.view d'').owned o = rows ∧
        ((s.view d'').InRange → (applyAll (s.view d'') (refund rows)).InRange)) →
      (refund rows).flatMap needs ⊆ l → Q () d' (s.extend (refund rows) l)) :
    (takeBack label .shu ((netOf read .shu : ℚ) / 10 ^ 4)).wp S (fun _ d s =>
      (takeBack label .capital ((netOf read .capital : ℚ) / 10 ^ 4)).wp S (fun _ d s =>
        (takeBack label .total ((netOf read .total : ℚ) / 10 ^ 4)).wp S Q d s) d s) d s := by
  refine takeBack_wp fun d₂ l₂ henv₂ hallowed₂ hrange₂ hneeds₂ => ?_
  refine takeBack_wp fun d₃ l₃ henv₃ hallowed₃ hrange₃ hneeds₃ => ?_
  refine takeBack_wp fun d₄ l₄ henv₄ _ hrange₄ hneeds₄ => ?_
  rw [extend_extend, Session.locks_extend] at henv₄
  rw [extend_extend, extend_extend, ← List.append_assoc, ← List.append_assoc]
  rw [Session.locks_extend] at henv₃
  have henvs : ∀ {d'}, S.env (s.locks ++ (l₂ ++ l₃ ++ l₄)) d₄ d' →
      S.env (s.locks ++ (l₂ ++ l₃)) d₃ d' ∧ S.env (s.locks ++ l₂) d₂ d' := by
    intro d' henv'
    rw [← List.append_assoc] at henv'
    have henv₃' := env_append henv₄ henv'
    refine ⟨henv₃', ?_⟩
    rw [← List.append_assoc] at henv₃'
    exact env_append henv₃ henv₃'
  -- the rows from the first adjustment on
  have hstill : ∃ rows, rows ≠ [] ∧ netOf rows = netOf read ∧
      ∀ d', S.env (s.locks ++ (l₂ ++ l₃ ++ l₄)) d₄ d' → (s.view d').owned o = rows := by
    have hnonempty : ∀ {rows : List CashbookTransaction} {b : BalanceType},
        netOf rows = netOf read → netOf read b ≠ 0 → rows ≠ [] := by
      rintro rows b hnet hb rfl
      exact hb (by rw [← hnet]; rfl)
    by_cases hs : netOf read .shu = 0
    · by_cases hc : netOf read .capital = 0
      · refine ⟨read, hne, rfl, fun d' henv' => ?_⟩
        rw [← hread] at hne hs hc ⊢
        refine hkeep d d' [] (Contract.Stable.refl (W := Write) _ _) ?_ hne
          (fun hn => absurd hs hn) fun _ hn => absurd hc hn
        rw [List.append_nil]
        exact env_append henv₂ (henvs henv').2
      · have hallowed := hallowed₃ hc
        rw [backout, if_neg (not_not.2 hs), Session.view_extend_nil] at hallowed
        have henv₁₃ := env_append henv₂ henv₃
        have hnet := hfirst d₃ henv₁₃ hallowed
        refine ⟨_, hnonempty hnet hc, hnet, fun d' henv' => ?_⟩
        refine hkeep d₃ d' (l₂ ++ l₃) henv₁₃ (henvs henv').1 (hnonempty hnet hc)
          (fun hn => absurd (by rw [hnet, hs]) hn) fun _ _ => ?_
        exact List.mem_append_right _ (hneeds₃ (mem_needs_backout hc))
    · have hnet := hfirst d₂ henv₂ (hallowed₂ hs)
      refine ⟨_, hnonempty hnet hs, hnet, fun d' henv' => ?_⟩
      exact hkeep d₂ d' l₂ henv₂ (henvs henv').2 (hnonempty hnet hs)
        (fun _ => hneeds₂ (mem_needs_backout hs)) fun hz => absurd (by rw [← hnet, hz]) hs
  obtain ⟨rows, hrows, hnet, hstill⟩ := hstill
  have hrefund : backout .shu (netOf read .shu) ++ backout .capital (netOf read .capital) ++
      backout .total (netOf read .total) = refund rows := by rw [refund, hnet]
  rw [← hnet] at hrange₂ hrange₃ hrange₄ hneeds₂ hneeds₃ hneeds₄
  rw [Session.view_extend] at hrange₃
  rw [extend_extend, Session.view_extend] at hrange₄
  rw [hrefund]
  refine h d₄ rows (l₂ ++ l₃ ++ l₄) ?_ hrows (fun d' henv' => ⟨hstill d' henv', fun hd b => ?_⟩) ?_
  · exact env_append henv₂ (env_append henv₃ (by rw [List.append_assoc]; exact henv₄))
  · rw [Database.balances_applyAll, delta_refund]
    by_cases hn : netOf rows b = 0
    · rw [hn, neg_zero, add_zero]
      exact hd b
    cases b with
    | shu =>
        have hlock := hneeds₂ (mem_needs_backout hn)
        rw [← balance_eq (henvs henv').2 (List.mem_append_right _ hlock) rfl]
        exact hrange₂ hn
    | capital =>
        have hlock := hneeds₃ (mem_needs_backout hn)
        rw [← balance_eq (henvs henv').1
          (List.mem_append_right _ (List.mem_append_right _ hlock)) rfl]
        have hmoved := hrange₃ hn
        rw [MovesInRange, Database.balances_applyAll, delta_backout] at hmoved
        simpa using hmoved
    | total =>
        have hlock := hneeds₄ (mem_needs_backout hn)
        rw [← balance_eq henv' (List.mem_append_right _ (List.mem_append_right _ hlock)) rfl]
        have hmoved := hrange₄ hn
        rw [MovesInRange, Database.balances_applyAll, List.map_append, List.sum_append,
          delta_backout, delta_backout] at hmoved
        simpa using hmoved
  · rw [refund, List.flatMap_append, List.flatMap_append]
    intro k hk
    simp only [List.mem_append] at hk ⊢
    rcases hk with (hk | hk) | hk
    · exact .inl (.inl (hneeds₂ hk))
    · exact .inl (.inr (hneeds₃ hk))
    · exact .inr (hneeds₄ hk)

/-- A removal takes back what the rows it has read first add up to, and hides the rows of the owner. -/
theorem deleteTransaction_wp {o : Owner} {label : ℚ → ℚ → Label} {now : Date}
    {Q : Unit → Database → Trx → Prop}
    (hempty : ∀ d', S.env s.locks d d' → (s.view d').owned o = [] → Q () d' s)
    (hfirst : ∀ d₁ d₂, S.env s.locks d d₁ → S.env s.locks d₁ d₂ →
      S.allows (label (netOf ((s.view d₁).owned o) .shu / 10 ^ 4)
        (netOf ((s.view d₁).owned o) .capital / 10 ^ 4)) (s.view d₂) →
      netOf ((s.view d₂).owned o) = netOf ((s.view d₁).owned o))
    (hkeep : ∀ d₁ d₂ l, S.env s.locks d d₁ → S.env (s.locks ++ l) d₁ d₂ →
      (s.view d₁).owned o ≠ [] →
      (netOf ((s.view d₁).owned o) .shu ≠ 0 →
        (LockTarget.balance .shu, LockMode.noKeyUpdate) ∈ l) →
      (netOf ((s.view d₁).owned o) .shu = 0 → netOf ((s.view d₁).owned o) .capital ≠ 0 →
        (LockTarget.balance .capital, LockMode.noKeyUpdate) ∈ l) →
      (s.view d₂).owned o = (s.view d₁).owned o)
    (h : ∀ d' l, S.env s.locks d d' → (s.view d').owned o ≠ [] →
      ((s.view d').InRange → (applyAll (s.view d') (removal now ((s.view d').owned o))).InRange) →
      (removal now ((s.view d').owned o)).flatMap needs ⊆ l →
      Q () d' (s.extend (removal now ((s.view d').owned o)) l)) :
    (deleteTransaction o label now).wp S Q d s := by
  unfold deleteTransaction findAll
  rw [Prog.wp_bind']
  refine wp_select fun d₁ henv₁ => ?_
  rw [← Database.owned]
  split
  · rename_i hnil
    exact hempty d₁ henv₁ (List.isEmpty_iff.1 hnil)
  rename_i hne
  rw [List.isEmpty_iff] at hne
  have hamounts := fun d₂ => hfirst d₁ d₂ henv₁
  generalize hread : (s.view d₁).owned o = read at hne hamounts ⊢
  have hshu : netAmount (·.shuAmount) read = (netOf read .shu : ℚ) / 10 ^ 4 := netAmount_eq ..
  have hcapital : netAmount (·.capitalAmount) read = (netOf read .capital : ℚ) / 10 ^ 4 :=
    netAmount_eq ..
  have htotal : (netOf read .shu : ℚ) / 10 ^ 4 + (netOf read .capital : ℚ) / 10 ^ 4 =
      (netOf read .total : ℚ) / 10 ^ 4 := by
    rw [netOf_total]
    push_cast
    ring
  simp only [hshu, hcapital, htotal, Prog.wp_bind']
  refine refund_wp hread hne hamounts
    (fun d₂ d₃ l henv₂ => hkeep d₂ d₃ l (env_trans henv₁ henv₂))
    fun d₄ rows l₄ henv₄ hrows hstill hneeds₄ => ?_
  have hview : ∀ d' : Database, ((s.extend (refund rows) l₄).view d').owned o =
      (s.view d').owned o := by
    intro d'
    rw [Session.view_extend, owned_refund fun w => table?_refund]
  refine softDelete_wp (s := s.extend (refund rows) l₄)
    (fun d' henv' => (hview d').trans (hstill d' henv').1) fun d₅ l₅ henv₅ hneeds₅ => ?_
  rw [Session.locks_extend] at henv₅
  rw [extend_extend]
  obtain ⟨howned, hrange⟩ := hstill d₅ henv₅
  have hfinal := h d₅ (l₄ ++ l₅) (env_trans henv₁ (env_append henv₄ henv₅))
  rw [howned] at hfinal
  refine hfinal hrows (fun hd b => ?_) ?_
  · have hb := hrange hd b
    rw [Database.balances_applyAll] at hb
    rwa [Database.balances_applyAll, removal, List.map_append, List.sum_append, delta_updates,
      add_zero]
  · rw [removal, List.flatMap_append]
    exact List.append_subset.2 ⟨List.subset_append_of_subset_left _ hneeds₄,
      List.subset_append_of_subset_right _ hneeds₅⟩

/-! ### What a removal does -/

section Removal

variable {d : Database} {now : Date} {o : Owner}

theorem rows_removal : (applyAll d (removal now (d.owned o))).rows .cashbookTransactions =
    hide now (fun r => o.owns r && r.deletedAt.isNone) (d.rows .cashbookTransactions) := by
  have hrows : ((applyAll d (refund (d.owned o))).rows .cashbookTransactions) =
      d.rows .cashbookTransactions := by
    rw [Database.rows, Database.table_applyAll fun w hw => by simp [table?_refund hw]]
    rfl
  have hlive : ((applyAll d (refund (d.owned o))).rows .cashbookTransactions).filter
      (fun r => o.owns r && r.deletedAt.isNone) = live (d.owned o) := by
    rw [hrows, live, Database.owned, List.filter_filter]
    exact List.filter_congr fun r _ => Bool.and_comm ..
  rw [removal, applyAll_append, rows_updates .cashbookTransactions
    (CashbookTransaction.softDelete now) (fun _ => rfl) hlive, hrows]
  rfl

theorem table_removal_ne {rows : List CashbookTransaction} {t : TableName}
    (ht : TableName.cashbookTransactions ≠ t) :
    (applyAll d (removal now rows)).table t = d.table t := by
  rw [removal, applyAll_append, table_updates_ne ht,
    Database.table_applyAll fun w hw => by simp [table?_refund hw]]

theorem balances_removal (b : BalanceType) : (applyAll d (removal now (d.owned o))).balances b =
    d.balances b - net o.owns b (d.rows .cashbookTransactions) := by
  rw [Database.balances_applyAll, removal, List.map_append, List.sum_append, delta_refund,
    delta_updates, Database.owned, netOf_filter]
  ring

/-- A removal keeps the books balanced; the owner is dead from then on. -/
theorem removal_books {initial : BalanceType → ℤ} {dead : Owner → Prop} (ho : ¬dead o)
    (hbooks : Books initial dead d.balances (d.rows .cashbookTransactions)) :
    Books initial (fun o' => dead o' ∨ o' = o) (applyAll d (removal now (d.owned o))).balances
      ((applyAll d (removal now (d.owned o))).rows .cashbookTransactions) := by
  rw [rows_removal]
  exact hbooks.remove ho fun b => balances_removal b

end Removal

end LumbungMesari
