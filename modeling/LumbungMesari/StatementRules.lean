import LumbungMesari.Statements
import LumbungMesari.Sql.RelyGuarantee

/-!
# Rules for statements

What each kind of statement does to a session, as a rule for weakest preconditions. The rules hold
under every contract, so they serve calls that run alone and calls that interleave. A session is
extended by the writes of the statement and by some locks, among them those the writes need.
-/

namespace LumbungMesari

open Sql
open Prog (inTrx onPool)

/-! ### Sessions -/

section Sessions

variable (s : Trx) (ws ws' : List Write) (l l' : Locks)

@[simp] theorem extend_nil : s.extend [] [] = s := by
  cases s
  simp [Session.extend]

@[simp] theorem extend_extend : (s.extend ws l).extend ws' l' = s.extend (ws ++ ws') (l ++ l') := by
  simp [Session.extend]

theorem view_balances (d : Database) (b : BalanceType) :
    (s.view d).balances b = d.balances b + (s.log.map (Write.delta b)).sum :=
  Database.balances_applyAll d s.log b

end Sessions

/-! ### Environments -/

section Environments

variable {S : Contract Database LockTarget Label} [S.Stable (W := Write)] {l l' : Locks}
  {d₁ d₂ d₃ : Database}

theorem env_trans (h₁ : S.env l d₁ d₂) (h₂ : S.env l d₂ d₃) : S.env l d₁ d₃ :=
  Contract.Stable.trans (W := Write) h₁ h₂

theorem env_append (h₁ : S.env l d₁ d₂) (h₂ : S.env (l ++ l') d₂ d₃) : S.env l d₁ d₃ :=
  env_trans h₁ (Contract.Stable.mono (W := Write) (List.subset_append_left ..) h₂)

theorem env_nil (h : S.env l d₁ d₂) : S.env [] d₁ d₂ :=
  Contract.Stable.mono (W := Write) (List.nil_subset _) h

end Environments

/-! ### Statements -/

variable {S : Contract Database LockTarget Label} {β : Type} {d : Database} {s : Trx}

theorem wp_statement {label : Label} {locks : Database → Locks}
    {exec : Database → Except Error (List Write × β)} {Q : β → Database → Trx → Prop}
    (h : ∀ d' ws b l, S.env s.locks d d' → exec (s.view d') = .ok (ws, b) →
      S.allows label (s.view d') → locks (s.view d') ⊆ l → ws.flatMap needs ⊆ l →
      Q b d' (s.extend ws l)) :
    (inTrx (statement label locks exec)).wp S Q d s := by
  intro d' henv ws b hexec hallowed
  refine h d' ws b _ henv hexec hallowed (List.subset_append_left ..) ?_
  simp only [statement] at hexec
  simp only [statement, hexec]
  exact List.subset_append_right ..

theorem wp_select {read : Database → β} {Q : β → Database → Trx → Prop}
    (h : ∀ d', S.env s.locks d d' → Q (read (s.view d')) d' s) :
    (inTrx (select read)).wp S Q d s := by
  intro d' henv ws b hexec _
  cases hexec
  have hlocks : (select read).locks (s.view d') = [] := rfl
  rw [hlocks, extend_nil]
  exact h d' henv

theorem wp_selectOnPool {read : Database → β} {Q : β → Database → Trx → Prop}
    (h : ∀ d', S.env s.locks d d' → Q (read d') d' s) :
    (onPool (select read)).wp S Q d s := by
  intro d' henv ws b hexec _
  cases hexec
  exact ⟨fun hws => absurd rfl hws, h d' henv⟩

theorem wp_selectForUpdate {targets : Database → List LockTarget} {read : Database → β}
    {Q : β → Database → Trx → Prop}
    (h : ∀ d' l, S.env s.locks d d' → (∀ k ∈ targets (s.view d'), (k, LockMode.update) ∈ l) →
      Q (read (s.view d')) d' (s.extend [] l)) :
    (inTrx (selectForUpdate targets read)).wp S Q d s := by
  refine wp_statement fun d' ws b l henv hexec _ hlocks _ => ?_
  cases hexec
  exact h d' l henv fun k hk => hlocks (List.mem_map_of_mem hk)

/-- A locked row reads the same after other calls have committed. -/
theorem find_view_eq [S.Stable (W := Write)] {l : Locks} {d₁ d₂ : Database} {t : TableName}
    {id : Uuid} {m : LockMode} (henv : S.env l d₁ d₂) (hk : (LockTarget.row t id, m) ∈ l)
    (hm : m.exclusive = true) : (s.view d₁).find t id = (s.view d₂).find t id :=
  Database.agree_applyAll_congr (k := .row t id)
    (Contract.Stable.agree (W := Write) henv hk hm) s.log

/-! ### Inserts -/

theorem bind_ok {ε α γ : Type} {x : Except ε α} {f : α → Except ε γ} {c : γ}
    (h : x >>= f = .ok c) : ∃ a, x = .ok a ∧ f a = .ok c := by
  cases x with
  | error e => cases h
  | ok a => exact ⟨a, rfl, h⟩

/-- What an inserted row has passed. -/
structure Inserted (d : Database) (t : TableName) (r : Row t) : Prop where
  before : beforeWrite d t r = .ok ()
  fresh : d.find t (Row.id t r) = none
  unique : ∀ k ∈ Row.uniqueKeys t r, d.taken t k = false
  referenced : ∀ ref ∈ Row.references t r, d.exists? ref = true

theorem insertRow_ok {t : TableName} {r : Row t} {ws : List Write}
    (h : insertRow d t r = .ok ws) :
    Inserted d t r ∧ ∃ ws', afterInsert d t r = .ok ws' ∧ ws = .insert t r :: ws' := by
  obtain ⟨⟨⟩, hbefore, h⟩ := bind_ok h
  dsimp only at h
  split at h
  · cases h
  rename_i hunique
  split at h
  · cases h
  rename_i href
  obtain ⟨ws', hafter, h⟩ := bind_ok h
  cases h
  simp only [Bool.or_eq_true, not_or, Bool.not_eq_true, List.any_eq_false, Database.exists?,
    Option.isSome_eq_false_iff, Option.isNone_iff_eq_none] at hunique
  simp only [Bool.not_eq_true', Bool.not_eq_false, List.all_eq_true] at href
  exact ⟨⟨hbefore, hunique.1, hunique.2, href⟩, ws', hafter, rfl⟩

theorem insertRow_plain {t : TableName} {r : Row t} {ws : List Write}
    (ht : t ≠ .cashbookTransactions) (h : insertRow d t r = .ok ws) :
    Inserted d t r ∧ ws = [.insert t r] := by
  obtain ⟨hinserted, ws', hafter, rfl⟩ := insertRow_ok h
  refine ⟨hinserted, ?_⟩
  have hnil : afterInsert d t r = .ok [] := by
    cases t <;> first | rfl | exact absurd rfl ht
  rw [hnil] at hafter
  cases hafter
  rfl

theorem wp_insertInto {t : TableName} {row : Except Error (Row t)}
    {Q : Row t → Database → Trx → Prop}
    (h : ∀ d' r ws l, S.env s.locks d d' → row = .ok r → insertRow (s.view d') t r = .ok ws →
      ws.flatMap needs ⊆ l → Q r d' (s.extend ws l)) :
    (inTrx (insertInto t row)).wp S Q d s := by
  refine wp_statement fun d' ws r l henv hexec _ _ hneeds => ?_
  obtain ⟨r', hrow, hexec⟩ := bind_ok hexec
  obtain ⟨ws', hinsert, hexec⟩ := bind_ok hexec
  cases hexec
  exact h d' _ _ l henv hrow hinsert hneeds

/-! ### Updates -/

/-- What an updated row has passed. -/
structure Updated (d : Database) (t : TableName) (old new : Row t) : Prop where
  before : beforeWrite d t new = .ok ()
  referenced : ∀ ref ∈ newReferences t old new, d.exists? ref = true

theorem updateRow_ok {t : TableName} {old new : Row t} {ws : List Write}
    (h : updateRow d t old new = .ok ws) :
    Updated d t old new ∧ ∃ ws', afterUpdate d t old new = .ok ws' ∧ ws = .update t new :: ws' := by
  obtain ⟨⟨⟩, hbefore, h⟩ := bind_ok h
  dsimp only at h
  split at h
  · cases h
  rename_i href
  obtain ⟨ws', hafter, h⟩ := bind_ok h
  cases h
  simp only [Bool.not_eq_true', Bool.not_eq_false, List.all_eq_true] at href
  exact ⟨⟨hbefore, href⟩, ws', hafter, rfl⟩

theorem updateRow_plain {t : TableName} {old new : Row t} {ws : List Write}
    (ht : t ≠ .cashbookTransactions) (h : updateRow d t old new = .ok ws) :
    Updated d t old new ∧ ws = [.update t new] := by
  obtain ⟨hupdated, ws', hafter, rfl⟩ := updateRow_ok h
  refine ⟨hupdated, ?_⟩
  have hnil : afterUpdate d t old new = .ok [] := by
    cases t <;> first | rfl | exact absurd rfl ht
  rw [hnil] at hafter
  cases hafter
  rfl

theorem wp_updateById {label : Label} {t : TableName} {id : Uuid}
    {set : Row t → Except Error (Row t)} {Q : Option (Row t) → Database → Trx → Prop}
    (hnone : ∀ d' l, S.env s.locks d d' → (s.view d').find t id = none →
      Q none d' (s.extend [] l))
    (hsome : ∀ d' old new ws l, S.env s.locks d d' → (s.view d').find t id = some old →
      set old = .ok new → updateRow (s.view d') t old new = .ok ws → S.allows label (s.view d') →
      ws.flatMap needs ⊆ l → Q (some new) d' (s.extend ws l)) :
    (inTrx (updateById label t id set)).wp S Q d s := by
  refine wp_statement fun d' ws r l henv hexec hallowed _ hneeds => ?_
  split at hexec
  · rename_i hfind
    cases hexec
    exact hnone d' l henv hfind
  · rename_i old hfind
    obtain ⟨new, hset, hexec⟩ := bind_ok hexec
    obtain ⟨ws', hupdate, hexec⟩ := bind_ok hexec
    cases hexec
    exact hsome d' old _ _ l henv hfind hset hupdate hallowed hneeds

/-! ### Updates of several rows -/

/-- An update that leaves amounts and direction of a ledger row alone moves no balance. -/
theorem updateRow_cashbook {old new : CashbookTransaction} {ws : List Write}
    (hshu : new.shuAmount = old.shuAmount) (hcapital : new.capitalAmount = old.capitalAmount)
    (hdirection : new.direction = old.direction)
    (h : updateRow d .cashbookTransactions old new = .ok ws) :
    ws = [.update .cashbookTransactions new] := by
  obtain ⟨-, ws', hafter, rfl⟩ := updateRow_ok h
  simp only [afterUpdate, cashbookUpdateBalance, hshu, hcapital, hdirection, ne_eq,
    not_true_eq_false, or_self, if_false] at hafter
  cases hafter
  rfl

theorem updateRows_ok {t : TableName} {set : Row t → Row t}
    (hplain : ∀ d old ws, updateRow d t old (set old) = .ok ws → ws = [.update t (set old)])
    {rs : List (Row t)} {ws : List Write} (h : updateRows d t set rs = .ok ws) :
    ws = (rs.map set).map (Write.update t) := by
  induction rs generalizing d ws with
  | nil =>
      cases h
      rfl
  | cons r rs ih =>
      obtain ⟨ws₁, hrow, h⟩ := bind_ok h
      obtain ⟨ws₂, hrest, h⟩ := bind_ok h
      cases h
      rw [hplain _ _ _ hrow, ih hrest]
      rfl

theorem applyAll_updates (d : Database) (t : TableName) (rs : List (Row t)) :
    (applyAll d (rs.map (Write.update t))).table t = (d.table t).replaceAll rs := by
  induction rs generalizing d with
  | nil => rfl
  | cons r rs ih =>
      rw [List.map_cons, applyAll_cons, ih, Database.store_apply, Database.table_update_self]
      rfl

end LumbungMesari
