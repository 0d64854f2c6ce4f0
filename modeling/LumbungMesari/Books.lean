import LumbungMesari.CashbookRules

/-!
# Balanced books

What the cashbook is for, apart from the code: a list of ledger rows and three balances such that
every balance is what it started at plus the visible rows. A row is owned by an income or an
expense; what an owner has in hidden rows cancels out. The three things that happen to an owner are
a posting, a correction and a removal.
-/

namespace LumbungMesari

open Sql

/-- What the rows that meet a condition add up to. -/
def net (p : CashbookTransaction → Bool) (b : BalanceType) (rows : List CashbookTransaction) : ℤ :=
  (rows.map fun r => if p r then r.signed b else 0).sum

section Net

variable {p q : CashbookTransaction → Bool} {b : BalanceType} {rows : List CashbookTransaction}

@[simp] theorem net_nil : net p b [] = 0 := rfl

@[simp] theorem net_cons (r : CashbookTransaction) :
    net p b (r :: rows) = (if p r then r.signed b else 0) + net p b rows := List.sum_cons

@[simp] theorem net_append (rows' : List CashbookTransaction) :
    net p b (rows ++ rows') = net p b rows + net p b rows' := by
  simp [net]

theorem net_congr (h : ∀ r ∈ rows, p r = q r) : net p b rows = net q b rows := by
  unfold net
  rw [List.map_congr_left fun r hr => by rw [h r hr]]

theorem net_eq_zero (h : ∀ r ∈ rows, p r = false) : net p b rows = 0 := by
  induction rows with
  | nil => rfl
  | cons r rows ih =>
      rw [net_cons, h r (List.mem_cons_self ..), ih fun r' hr' => h r' (List.mem_cons_of_mem _ hr')]
      rfl

theorem net_map {g : CashbookTransaction → CashbookTransaction}
    (hg : ∀ r, (g r).signed b = r.signed b) :
    net p b (rows.map g) = net (fun r => p (g r)) b rows := by
  simp [net, List.map_map, Function.comp_def, hg]

theorem net_or {q' : CashbookTransaction → Bool} (hp : ∀ r ∈ rows, p r = (q r || q' r))
    (hdisjoint : ∀ r ∈ rows, (q r && q' r) = false) :
    net p b rows = net q b rows + net q' b rows := by
  induction rows with
  | nil => rfl
  | cons r rows ih =>
      rw [net_cons, net_cons, net_cons, hp r (List.mem_cons_self ..),
        ih (fun r hr => hp r (List.mem_cons_of_mem _ hr))
          fun r hr => hdisjoint r (List.mem_cons_of_mem _ hr)]
      have h := hdisjoint r (List.mem_cons_self ..)
      cases hq : q r <;> cases hq' : q' r <;> simp_all [add_assoc, add_left_comm]

theorem net_split (q : CashbookTransaction → Bool) :
    net p b rows = net (fun r => p r && q r) b rows + net (fun r => p r && !q r) b rows :=
  net_or (fun r _ => by cases p r <;> cases q r <;> rfl)
    fun r _ => by cases p r <;> cases q r <;> rfl

theorem net_total : net p .total rows = net p .shu rows + net p .capital rows := by
  induction rows with
  | nil => rfl
  | cons r rows ih =>
      rw [net_cons, net_cons, net_cons, ih]
      cases p r
      · simp only [Bool.false_eq_true, if_false, zero_add]
      · simp only [if_true, CashbookTransaction.signed, CashbookTransaction.amount]
        ring

theorem net_single {r : CashbookTransaction} (hr : r ∈ rows) (hp : p r = true)
    (hnodup : (rows.map CashbookTransaction.id).Nodup)
    (hunique : ∀ r' ∈ rows, p r' = true → r'.id = r.id) : net p b rows = r.signed b := by
  induction rows with
  | nil => cases hr
  | cons r₁ rows ih =>
      obtain ⟨hnew, hrest⟩ := List.nodup_cons.1 hnodup
      rw [net_cons]
      rcases List.mem_cons.1 hr with rfl | hr
      · rw [if_pos hp, net_eq_zero, add_zero]
        intro r' hr'
        rw [Bool.eq_false_iff]
        intro hp'
        exact hnew (hunique r' (List.mem_cons_of_mem _ hr') hp' ▸ List.mem_map_of_mem hr')
      · rw [if_neg, zero_add]
        · exact ih hr hrest fun r' hr' => hunique r' (List.mem_cons_of_mem _ hr')
        · intro hp'
          exact hnew (hunique r₁ (List.mem_cons_self ..) hp' ▸ List.mem_map_of_mem hr)

end Net

/-! ### Hiding rows -/

namespace CashbookTransaction

variable (r : CashbookTransaction) (now : Date) (b : BalanceType)

@[simp] theorem signed_softDelete : (r.softDelete now).signed b = r.signed b := rfl

@[simp] theorem visible_softDelete : (r.softDelete now).visible = false := rfl

@[simp] theorem owns_softDelete (o : Owner) : o.owns (r.softDelete now) = o.owns r := by
  cases o <;> rfl

@[simp] theorem signed_disown : r.disown.signed b = r.signed b := rfl

@[simp] theorem visible_disown : r.disown.visible = r.visible := rfl

end CashbookTransaction

/-- Hide the rows that meet a condition. -/
def hide (now : Date) (p : CashbookTransaction → Bool) (rows : List CashbookTransaction) :
    List CashbookTransaction :=
  rows.map fun r => if p r then r.softDelete now else r

section Hide

variable {now : Date} {p q : CashbookTransaction → Bool} {b : BalanceType}
  {rows : List CashbookTransaction}

theorem map_id_hide :
    (hide now p rows).map CashbookTransaction.id = rows.map CashbookTransaction.id := by
  rw [hide, List.map_map]
  refine List.map_congr_left fun r _ => ?_
  simp only [Function.comp_apply]
  split <;> rfl

theorem signed_hide (r : CashbookTransaction) :
    (if p r then r.softDelete now else r).signed b = r.signed b := by
  split <;> rfl

theorem net_visible_hide : net (·.visible) b (hide now p rows) =
    net (·.visible) b rows - net (fun r => r.visible && p r) b rows := by
  rw [hide, net_map signed_hide, net_split p (p := (·.visible)), add_sub_cancel_left]
  refine net_congr fun r _ => ?_
  cases hp : p r <;> simp

/-- What an owner has in hidden rows, after more rows were hidden. -/
theorem net_hidden_hide (o : Owner) : net (fun r => o.owns r && !r.visible) b (hide now p rows) =
    net (fun r => o.owns r && !r.visible) b rows +
      net (fun r => o.owns r && (r.visible && p r)) b rows := by
  rw [hide, net_map signed_hide]
  refine net_or (fun r _ => ?_) fun r _ => ?_
  · cases hp : p r <;> cases hv : r.visible <;> simp [hv]
  · cases r.visible <;> simp

/-- The visible rows of an owner. -/
def posted (o : Owner) (rows : List CashbookTransaction) : List CashbookTransaction :=
  rows.filter fun r => o.owns r && r.visible

theorem posted_hide (now : Date) (p : CashbookTransaction → Bool)
    (rows : List CashbookTransaction) (o : Owner) :
    posted o (hide now p rows) = (posted o rows).filter fun r => !p r := by
  rw [posted, posted, hide, List.filter_filter, List.filter_map]
  have hsame : ∀ l : List CashbookTransaction, (∀ r ∈ l, p r = false) →
      l.map (fun r => if p r then r.softDelete now else r) = l := by
    intro l hl
    conv_rhs => rw [← List.map_id l]
    exact List.map_congr_left fun r hr => by rw [hl r hr]; rfl
  have hfilter : rows.filter ((fun r => o.owns r && r.visible) ∘
      fun r => if p r then r.softDelete now else r) =
      rows.filter fun r => !p r && (o.owns r && r.visible) := by
    refine List.filter_congr fun r _ => ?_
    cases hp : p r <;> simp [hp]
  rw [hfilter]
  refine hsame _ fun r hr => ?_
  have hr := (List.mem_filter.1 hr).2
  rw [Bool.and_eq_true, Bool.not_eq_true'] at hr
  exact hr.1

end Hide

/-! ### The books -/

/-- Well-formed ledger rows. -/
structure Entries (rows : List CashbookTransaction) : Prop where
  ids : (rows.map CashbookTransaction.id).Nodup
  nonneg : ∀ r ∈ rows, r.Nonneg
  direction : ∀ r ∈ rows, r.visible → ∀ o : Owner, o.owns r → r.direction = o.direction
  single : ∀ r ∈ rows, ∀ o o' : Owner, o.owns r → o'.owns r → o = o'

namespace Entries

variable {rows : List CashbookTransaction} {r : CashbookTransaction} {o : Owner} {now : Date}

theorem append (h : Entries rows) (hid : r.id ∉ rows.map CashbookTransaction.id)
    (hnonneg : r.Nonneg) (howns : ∀ o', o'.owns r = true ↔ o' = o)
    (hdirection : r.visible = true → r.direction = o.direction) : Entries (rows ++ [r]) where
  ids := by
    rw [List.map_append, List.map_singleton]
    exact List.nodup_append.2 ⟨h.ids, List.nodup_singleton _, fun a ha b hb hab =>
      hid (List.mem_singleton.1 hb ▸ hab ▸ ha)⟩
  nonneg r' hr' := by
    rcases List.mem_append.1 hr' with hr' | hr'
    · exact h.nonneg r' hr'
    · rw [List.mem_singleton.1 hr']
      exact hnonneg
  direction r' hr' hv o' ho' := by
    rcases List.mem_append.1 hr' with hr' | hr'
    · exact h.direction r' hr' hv o' ho'
    · rw [List.mem_singleton.1 hr'] at hv ho' ⊢
      rw [(howns o').1 ho', hdirection hv]
  single r' hr' o₁ o₂ h₁ h₂ := by
    rcases List.mem_append.1 hr' with hr' | hr'
    · exact h.single r' hr' o₁ o₂ h₁ h₂
    · rw [List.mem_singleton.1 hr'] at h₁ h₂
      rw [(howns o₁).1 h₁, (howns o₂).1 h₂]

/-- Changing rows without touching id and amounts, showing rows or adding owners. -/
theorem map (h : Entries rows) {g : CashbookTransaction → CashbookTransaction}
    (hid : ∀ r, (g r).id = r.id) (hnonneg : ∀ r, r.Nonneg → (g r).Nonneg)
    (hdirection : ∀ r, (g r).direction = r.direction)
    (hvisible : ∀ r, (g r).visible = true → r.visible = true)
    (howns : ∀ r (o : Owner), o.owns (g r) = true → o.owns r = true) : Entries (rows.map g) where
  ids := by
    rw [List.map_map, show CashbookTransaction.id ∘ g = CashbookTransaction.id from funext hid]
    exact h.ids
  nonneg r' hr' := by
    obtain ⟨r, hr, rfl⟩ := List.mem_map.1 hr'
    exact hnonneg r (h.nonneg r hr)
  direction r' hr' hv o ho := by
    obtain ⟨r, hr, rfl⟩ := List.mem_map.1 hr'
    rw [hdirection]
    exact h.direction r hr (hvisible r hv) o (howns r o ho)
  single r' hr' o₁ o₂ h₁ h₂ := by
    obtain ⟨r, hr, rfl⟩ := List.mem_map.1 hr'
    exact h.single r hr o₁ o₂ (howns r o₁ h₁) (howns r o₂ h₂)

theorem hide (h : Entries rows) (p : CashbookTransaction → Bool) :
    Entries (hide now p rows) := by
  refine h.map (fun r => ?_) (fun r hr => ?_) (fun r => ?_) (fun r hv => ?_) fun r o ho => ?_
  · split <;> rfl
  · split
    · exact ⟨hr.shu, hr.capital⟩
    · exact hr
  · split <;> rfl
  · split at hv
    · cases hv
    · exact hv
  · split at ho
    · rwa [CashbookTransaction.owns_softDelete] at ho
    · exact ho

end Entries

/-- Balanced books. `dead` are the owners whose rows have been removed; the rows of the others are
a visible part and a hidden part that cancels out. -/
structure Books (initial : BalanceType → ℤ) (dead : Owner → Prop) (balances : BalanceType → ℤ)
    (rows : List CashbookTransaction) : Prop extends Entries rows where
  balance : ∀ b, balances b = initial b + net (·.visible) b rows
  hidden : ∀ o, ¬dead o → ∀ b, net (fun r => o.owns r && !r.visible) b rows = 0

namespace Books

variable {initial : BalanceType → ℤ} {dead dead' : Owner → Prop}
  {balances balances' : BalanceType → ℤ} {rows : List CashbookTransaction}
  {r₀ r : CashbookTransaction} {o : Owner} {now : Date}

theorem total (h : Books initial dead balances rows)
    (h₀ : initial .total = initial .shu + initial .capital) :
    balances .total = balances .shu + balances .capital := by
  rw [h.balance, h.balance, h.balance, h₀, net_total]
  ring

theorem mono (h : Books initial dead balances rows) (hdead : ∀ o, dead o → dead' o) :
    Books initial dead' balances rows :=
  { h with hidden := fun o ho => h.hidden o fun hd => ho (hdead o hd) }

theorem net_owner (h : Books initial dead balances rows) (ho : ¬dead o) (b : BalanceType) :
    net o.owns b rows = net (fun r => o.owns r && r.visible) b rows := by
  rw [net_split (p := o.owns) (·.visible), h.hidden o ho, add_zero]

theorem post (h : Books initial dead balances rows) (hid : r.id ∉ rows.map CashbookTransaction.id)
    (hnonneg : r.Nonneg) (howns : ∀ o', o'.owns r = true ↔ o' = o) (hvisible : r.visible = true)
    (hdirection : r.direction = o.direction)
    (hbalances : ∀ b, balances' b = balances b + r.signed b) :
    Books initial dead balances' (rows ++ [r]) where
  toEntries := h.toEntries.append hid hnonneg howns fun _ => hdirection
  balance b := by
    rw [hbalances, h.balance, net_append, net_cons, if_pos hvisible, net_nil]
    ring
  hidden o' ho' b := by
    rw [net_append, h.hidden o' ho' b, net_cons, hvisible]
    simp

/-- The condition under which a correction hides a row. -/
def only (r₀ : CashbookTransaction) (r : CashbookTransaction) : Bool :=
  decide (r.id = r₀.id) && r.deletedAt.isNone

theorem deletedAt_of_visible (h : r.visible = true) : r.deletedAt.isNone = true :=
  ((Bool.and_eq_true _ _).mp h).1

theorem eq_of_only (h : Entries rows) (hr₀ : r₀ ∈ rows) (hr : r ∈ rows)
    (honly : only r₀ r = true) : r = r₀ :=
  List.inj_on_of_nodup_map h.ids hr hr₀ (by simpa using ((Bool.and_eq_true _ _).mp honly).1)

theorem net_only (h : Entries rows) (hr₀ : r₀ ∈ rows) (hvisible₀ : r₀.visible = true)
    {p : CashbookTransaction → Bool} (hp : p r₀ = true) (b : BalanceType) :
    net (fun r => p r && only r₀ r) b rows = r₀.signed b := by
  refine net_single hr₀ (by simp [hp, only, deletedAt_of_visible hvisible₀]) h.ids
    fun r' hr' hp' => ?_
  rw [eq_of_only h hr₀ hr' ((Bool.and_eq_true _ _).mp hp').2]

/-- Hide an entry and insert the row that takes it back. -/
theorem reverse (h : Books initial dead balances rows) (hr₀ : r₀ ∈ rows) (ho₀ : o.owns r₀ = true)
    (hvisible₀ : r₀.visible = true) (hid : r.id ∉ rows.map CashbookTransaction.id)
    (hshu : r.shuAmount = r₀.shuAmount) (hcapital : r.capitalAmount = r₀.capitalAmount)
    (howns : ∀ o', o'.owns r = true ↔ o' = o) (hvisible : r.visible = false)
    (hdirection : r.direction = o.direction.opposite)
    (hbalances : ∀ b, balances' b = balances b + r.signed b) :
    Books initial dead balances' (hide now (only r₀) rows ++ [r]) := by
  have hopposite : ∀ b, r.signed b = -r₀.signed b := by
    intro b
    have hsign : r.direction.sign = -r₀.direction.sign := by
      rw [hdirection, h.direction r₀ hr₀ hvisible₀ o ho₀]
      cases o <;> rfl
    cases b <;> simp [CashbookTransaction.signed, CashbookTransaction.amount, hsign, hshu, hcapital]
  refine ⟨(h.toEntries.hide _).append (by rwa [map_id_hide]) ?_ howns fun hv => ?_, fun b => ?_,
    fun o' ho' b => ?_⟩
  · exact ⟨hshu ▸ (h.nonneg r₀ hr₀).shu, hcapital ▸ (h.nonneg r₀ hr₀).capital⟩
  · rw [hvisible] at hv
    cases hv
  · rw [hbalances, h.balance, net_append, net_visible_hide,
      net_only h.toEntries hr₀ hvisible₀ hvisible₀, net_cons, hvisible, hopposite]
    simp
    ring
  · rw [net_append, net_hidden_hide, h.hidden o' ho' b, net_cons, hvisible]
    by_cases he : o' = o
    · subst he
      have hmine := net_only h.toEntries hr₀ hvisible₀ (p := fun r => o'.owns r && r.visible)
        (by rw [ho₀, hvisible₀]; rfl) b
      simp only [Bool.and_assoc] at hmine
      rw [hmine, (howns o').2 rfl, hopposite]
      simp
    · have hnot : o'.owns r = false := by
        rw [Bool.eq_false_iff]
        exact fun hr => he ((howns o').1 hr)
      rw [net_eq_zero, hnot]
      · simp
      · intro r' hr'
        rw [Bool.eq_false_iff]
        intro hall
        simp only [Bool.and_eq_true] at hall
        obtain ⟨hown, -, honly⟩ := hall
        rw [eq_of_only h.toEntries hr₀ hr' honly] at hown
        exact he (h.single r₀ hr₀ o' o hown ho₀)

theorem hidden_remove (h : Books initial dead balances rows) {o' : Owner}
    (ho' : ¬(dead o' ∨ o' = o)) (b : BalanceType) :
    net (fun r => o'.owns r && !r.visible) b
      (hide now (fun r => o.owns r && r.deletedAt.isNone) rows) = 0 := by
  obtain ⟨hdead, hne⟩ := not_or.1 ho'
  rw [net_hidden_hide, h.hidden o' hdead b, net_eq_zero, add_zero]
  intro r hr
  rw [Bool.eq_false_iff]
  intro hall
  simp only [Bool.and_eq_true] at hall
  exact hne (h.single r hr o' o hall.1 hall.2.2.1)

/-- Take the net of an owner's rows back and hide them. -/
theorem remove (h : Books initial dead balances rows) (ho : ¬dead o)
    (hbalances : ∀ b, balances' b = balances b - net o.owns b rows) :
    Books initial (fun o' => dead o' ∨ o' = o) balances'
      (hide now (fun r => o.owns r && r.deletedAt.isNone) rows) where
  toEntries := h.toEntries.hide _
  balance b := by
    rw [hbalances, h.balance, net_visible_hide, h.net_owner ho]
    have hsame : net (fun r => r.visible && (o.owns r && r.deletedAt.isNone)) b rows =
        net (fun r => o.owns r && r.visible) b rows := by
      refine net_congr fun r _ => ?_
      cases hv : r.visible with
      | true => simp [deletedAt_of_visible hv]
      | false => simp
    rw [hsame]
    ring
  hidden _ ho' b := h.hidden_remove ho' b

/-- Hide the rows of an owner whose net was taken back before: balanced over another start. -/
theorem removeAgain (h : Books initial dead balances rows) :
    Books
      (fun b => balances' b - net (·.visible) b
        (hide now (fun r => o.owns r && r.deletedAt.isNone) rows))
      (fun o' => dead o' ∨ o' = o) balances'
      (hide now (fun r => o.owns r && r.deletedAt.isNone) rows) where
  toEntries := h.toEntries.hide _
  balance _ := (sub_add_cancel _ _).symm
  hidden _ ho' b := h.hidden_remove ho' b

/-- The rows of an expense lose their owner when the expense is deleted. -/
theorem disown {id : Uuid}
    (h : Books initial (fun o' => dead o' ∨ o' = .expense id) balances rows) :
    Books initial dead balances
      (rows.map fun r => if (Owner.expense id).owns r then r.disown else r) := by
  have howns : ∀ (r : CashbookTransaction) (o : Owner),
      o.owns (if (Owner.expense id).owns r then r.disown else r) =
        (o.owns r && decide (o ≠ .expense id)) := by
    intro r o
    cases o with
    | income i =>
        rw [decide_eq_true (by simp), Bool.and_true]
        split <;> rfl
    | expense e =>
        by_cases he : e = id
        · subst he
          split
          · simp [Owner.owns, CashbookTransaction.disown]
          · rename_i hown
            simpa using hown
        · split
          · rename_i hown
            simp only [Owner.owns, decide_eq_true_eq] at hown
            simp [Owner.owns, CashbookTransaction.disown, hown, Ne.symm he]
          · simp [he]
  have hvisible : ∀ r : CashbookTransaction,
      (if (Owner.expense id).owns r then r.disown else r).visible = r.visible := by
    intro r
    split <;> rfl
  have hsigned : ∀ {b} (r : CashbookTransaction),
      (if (Owner.expense id).owns r then r.disown else r).signed b = r.signed b := by
    intro b r
    split <;> rfl
  refine ⟨h.toEntries.map (fun r => ?_) (fun r hr => ?_) (fun r => ?_) (fun r hv => ?_)
    fun r o ho => ?_, fun b => ?_, fun o ho b => ?_⟩
  · split <;> rfl
  · split
    · exact ⟨hr.shu, hr.capital⟩
    · exact hr
  · split <;> rfl
  · rwa [hvisible] at hv
  · rw [howns, Bool.and_eq_true] at ho
    exact ho.1
  · rw [h.balance, net_map hsigned]
    simp only [hvisible]
  · rw [net_map hsigned]
    simp only [howns, hvisible]
    by_cases he : o = .expense id
    · exact net_eq_zero fun r _ => by simp [he]
    · rw [net_congr (q := fun r => o.owns r && !r.visible) fun r _ => by simp [he]]
      exact h.hidden o (not_or.2 ⟨ho, he⟩) b

end Books

end LumbungMesari
