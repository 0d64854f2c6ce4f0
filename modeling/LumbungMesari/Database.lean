import LumbungMesari.Schema
import LumbungMesari.Sql.Program
import Mathlib.Logic.Function.Basic
import Mathlib.Algebra.BigOperators.Group.List.Basic

/-!
# The database

The three seeded rows of `cashbook_balances`, in units of `10⁻⁴` rupiah, and the other tables.
Nothing inserts or deletes a balance row, so a balance is a function of its type. An increment of a
balance is written as an increment: the row lock the statement takes makes the two the same.
-/

namespace LumbungMesari

open Sql

structure Database where
  balances : BalanceType → ℤ
  table : (t : TableName) → Table (Row t) (Row.id t)

inductive Write where
  | addBalance (b : BalanceType) (delta : ℤ)
  | insert (t : TableName) (r : Row t)
  | update (t : TableName) (r : Row t)
  | delete (t : TableName) (id : Uuid)

/-- What a row lock is taken on. The entry of a unique index stands for the wait of a second
inserter of that entry. -/
inductive LockTarget where
  | balance (b : BalanceType)
  | row (t : TableName) (id : Uuid)
  | unique (k : UniqueKey)
  deriving DecidableEq

namespace Write

/-- The locks a write takes: as a writer on its row, on the entries of an inserted row in the
unique indexes, and `FOR KEY SHARE` on the rows an inserted row refers to. -/
def needs : Write → List (LockTarget × LockMode)
  | addBalance b _ => [(.balance b, .noKeyUpdate)]
  | insert t r => (.row t (Row.id t r), .update) ::
      ((Row.uniqueKeys t r).map (.unique ·, .update) ++
        (Row.references t r).map fun ref => (.row ref.1 ref.2, .keyShare))
  | update t r => [(.row t (Row.id t r), .noKeyUpdate)]
  | delete t id => [(.row t id, .update)]

end Write

namespace Database

def find (d : Database) (t : TableName) (id : Uuid) : Option (Row t) := (d.table t).find? id

def rows (d : Database) (t : TableName) : List (Row t) := (d.table t).rows

theorem find_id {d : Database} {t : TableName} {id : Uuid} {r : Row t} (h : d.find t id = some r) :
    Row.id t r = id := (Table.find?_some h).2

theorem find_self {d : Database} {t : TableName} {id : Uuid} {r : Row t}
    (h : d.find t id = some r) : d.find t (Row.id t r) = some r := by rw [find_id h, h]

/-- Every balance fits its column and meets its `CHECK`. -/
def InRange (d : Database) : Prop := ∀ b, 0 ≤ d.balances b ∧ d.balances b < 10 ^ 12

def setTable (d : Database) (t : TableName) (rows : Table (Row t) (Row.id t)) : Database :=
  { d with table := Function.update d.table t rows }

def apply (d : Database) : Write → Database
  | .addBalance b delta =>
      { d with balances := Function.update d.balances b (d.balances b + delta) }
  | .insert t r => d.setTable t ((d.table t).insert r)
  | .update t r => d.setTable t ((d.table t).replace r)
  | .delete t id => d.setTable t ((d.table t).erase id)

@[simp] theorem balances_setTable (d : Database) (t : TableName) (rows : Table (Row t) (Row.id t)) :
    (d.setTable t rows).balances = d.balances := rfl

@[simp] theorem table_setTable_self (d : Database) (t : TableName)
    (rows : Table (Row t) (Row.id t)) : (d.setTable t rows).table t = rows :=
  Function.update_self ..

@[simp] theorem table_setTable_ne (d : Database) {t t' : TableName} (h : t ≠ t')
    (rows : Table (Row t) (Row.id t)) : (d.setTable t rows).table t' = d.table t' :=
  Function.update_of_ne h.symm ..

theorem find_setTable_self (d : Database) (t : TableName) (rows : Table (Row t) (Row.id t))
    (id : Uuid) : (d.setTable t rows).find t id = rows.find? id := by
  rw [find, table_setTable_self]

theorem find_setTable_ne (d : Database) {t t' : TableName} (h : t ≠ t')
    (rows : Table (Row t) (Row.id t)) (id : Uuid) :
    (d.setTable t rows).find t' id = d.find t' id := by
  rw [find, table_setTable_ne d h, find]

theorem find_congr {d d' : Database} {t : TableName} (h : d.table t = d'.table t) (id : Uuid) :
    d.find t id = d'.find t id := congrArg (·.find? id) h

/-- Two states show the same row at a lock target. -/
def agree : LockTarget → Database → Database → Prop
  | .balance b, d, d' => d.balances b = d'.balances b
  | .row t id, d, d' => d.find t id = d'.find t id
  | .unique _, _, _ => True

theorem agree_apply {k : LockTarget} {d : Database} {w : Write}
    (h : ∀ m, (k, m) ∈ w.needs → m.exclusive = false) : agree k d (d.apply w) := by
  cases k with
  | unique => trivial
  | balance b =>
      cases w with
      | addBalance b' delta =>
          have hne : b ≠ b' := by
            rintro rfl
            exact absurd (h .noKeyUpdate (List.mem_singleton_self _)) (by decide)
          exact (Function.update_of_ne hne ..).symm
      | insert | update | delete => rfl
  | row t id =>
      cases w with
      | addBalance => rfl
      | insert t' r =>
          by_cases ht : t' = t
          · subst ht
            have hne : Row.id t' r ≠ id := fun he =>
              absurd (h .update (he ▸ List.mem_cons_self ..)) (by decide)
            rw [agree, apply, find_setTable_self, Table.find?_insert_ne hne, find]
          · rw [agree, apply, find_setTable_ne d ht]
      | update t' r =>
          by_cases ht : t' = t
          · subst ht
            have hne : Row.id t' r ≠ id := fun he =>
              absurd (h .noKeyUpdate (he ▸ List.mem_singleton_self _)) (by decide)
            rw [agree, apply, find_setTable_self, Table.find?_replace_ne hne, find]
          · rw [agree, apply, find_setTable_ne d ht]
      | delete t' id' =>
          by_cases ht : t' = t
          · subst ht
            have hne : id' ≠ id := fun he =>
              absurd (h .update (he ▸ List.mem_singleton_self _)) (by decide)
            rw [agree, apply, find_setTable_self, Table.find?_erase_ne hne, find]
          · rw [agree, apply, find_setTable_ne d ht]

end Database

instance : Locking Write LockTarget where
  needs := Write.needs

instance : Store Database Write LockTarget where
  apply := Database.apply
  agree := Database.agree
  agree_refl k d := by cases k <;> first | rfl | trivial
  agree_trans {k d₁ d₂ d₃} h h' := by
    cases k with
    | unique => trivial
    | balance => exact Eq.trans (b := d₂.balances _) h h'
    | row => exact Eq.trans (b := d₂.find _ _) h h'
  agree_apply := Database.agree_apply

namespace Database

variable (d : Database)

@[simp] theorem store_apply (w : Write) : Store.apply d w = d.apply w := rfl

theorem agree_balance {b : BalanceType} {d d' : Database}
    (h : Store.agree (W := Write) (LockTarget.balance b) d d') : d.balances b = d'.balances b := h

theorem agree_row {t : TableName} {id : Uuid} {d d' : Database}
    (h : Store.agree (W := Write) (LockTarget.row t id) d d') : d.find t id = d'.find t id := h

/-! ### What one write changes -/

@[simp] theorem table_addBalance (b : BalanceType) (delta : ℤ) :
    (d.apply (.addBalance b delta)).table = d.table := rfl

@[simp] theorem balances_addBalance_self (b : BalanceType) (delta : ℤ) :
    (d.apply (.addBalance b delta)).balances b = d.balances b + delta :=
  Function.update_self ..

@[simp] theorem balances_addBalance_ne {b b' : BalanceType} (h : b ≠ b') (delta : ℤ) :
    (d.apply (.addBalance b delta)).balances b' = d.balances b' :=
  Function.update_of_ne h.symm ..

@[simp] theorem balances_insert (t : TableName) (r : Row t) :
    (d.apply (.insert t r)).balances = d.balances := rfl

@[simp] theorem balances_update (t : TableName) (r : Row t) :
    (d.apply (.update t r)).balances = d.balances := rfl

@[simp] theorem balances_delete (t : TableName) (id : Uuid) :
    (d.apply (.delete t id)).balances = d.balances := rfl

@[simp] theorem table_insert_self (t : TableName) (r : Row t) :
    (d.apply (.insert t r)).table t = (d.table t).insert r := table_setTable_self ..

@[simp] theorem table_update_self (t : TableName) (r : Row t) :
    (d.apply (.update t r)).table t = (d.table t).replace r := table_setTable_self ..

@[simp] theorem table_delete_self (t : TableName) (id : Uuid) :
    (d.apply (.delete t id)).table t = (d.table t).erase id := table_setTable_self ..

@[simp] theorem table_insert_ne {t t' : TableName} (h : t ≠ t') (r : Row t) :
    (d.apply (.insert t r)).table t' = d.table t' := table_setTable_ne d h _

@[simp] theorem table_update_ne {t t' : TableName} (h : t ≠ t') (r : Row t) :
    (d.apply (.update t r)).table t' = d.table t' := table_setTable_ne d h _

theorem rows_update_ne {t t' : TableName} (h : t ≠ t') (r : Row t) :
    (d.apply (.update t r)).rows t' = d.rows t' := congrArg Table.rows (d.table_update_ne h r)

@[simp] theorem table_delete_ne {t t' : TableName} (h : t ≠ t') (id : Uuid) :
    (d.apply (.delete t id)).table t' = d.table t' := table_setTable_ne d h _

end Database

/-- The table a write is about. -/
def Write.table? : Write → Option TableName
  | addBalance _ _ => none
  | insert t _ => some t
  | update t _ => some t
  | delete t _ => some t

/-- How far a write moves a balance. -/
def Write.delta (b : BalanceType) : Write → ℤ
  | addBalance b' delta => if b' = b then delta else 0
  | _ => 0

namespace Database

theorem table_apply {d : Database} {w : Write} {t : TableName} (h : w.table? ≠ some t) :
    (d.apply w).table t = d.table t := by
  cases w with
  | addBalance => rfl
  | insert t' r => exact d.table_insert_ne (fun he => h (congrArg some he)) r
  | update t' r => exact d.table_update_ne (fun he => h (congrArg some he)) r
  | delete t' id => exact d.table_delete_ne (fun he => h (congrArg some he)) id

theorem table_applyAll {d : Database} {ws : List Write} {t : TableName}
    (h : ∀ w ∈ ws, w.table? ≠ some t) : (applyAll d ws).table t = d.table t := by
  induction ws generalizing d with
  | nil => rfl
  | cons w ws ih =>
      rw [applyAll_cons, ih fun w' hw' => h w' (List.mem_cons_of_mem _ hw'), store_apply,
        table_apply (h w (List.mem_cons_self ..))]

theorem balances_apply (d : Database) (w : Write) (b : BalanceType) :
    (d.apply w).balances b = d.balances b + w.delta b := by
  cases w with
  | addBalance b' delta =>
      by_cases h : b' = b
      · subst h
        simp [Write.delta]
      · simp [Write.delta, h]
  | insert | update | delete => simp [Write.delta]

/-- Writes move a balance by the sum of their increments of it. -/
theorem balances_applyAll (d : Database) (ws : List Write) (b : BalanceType) :
    (applyAll d ws).balances b = d.balances b + (ws.map (Write.delta b)).sum := by
  induction ws generalizing d with
  | nil => simp
  | cons w ws ih =>
      rw [applyAll_cons, ih, store_apply, balances_apply, List.map_cons, List.sum_cons, add_assoc]

/-! ### What a write does to one row -/

theorem find_apply (d : Database) (w : Write) (t : TableName) (id : Uuid) :
    w.table? ≠ some t → (d.apply w).find t id = d.find t id :=
  fun h => find_congr (table_apply h) id

theorem find_insert (d : Database) (t : TableName) (r : Row t) (id : Uuid) :
    (d.apply (.insert t r)).find t id =
      if Row.id t r = id then (d.find t id).or (some r) else d.find t id := by
  rw [find, table_insert_self]
  exact Table.find?_insert ..

theorem find_update (d : Database) (t : TableName) (r : Row t) (id : Uuid) :
    (d.apply (.update t r)).find t id =
      if Row.id t r = id then (d.find t id).map fun _ => r else d.find t id := by
  rw [find, table_update_self]
  exact Table.find?_replace ..

theorem find_update_ne_none {d : Database} {t : TableName} (r : Row t) {id : Uuid}
    (h : d.find t id ≠ none) : (d.apply (.update t r)).find t id ≠ none := by
  rw [find_update]
  split
  · rwa [Ne, Option.map_eq_none_iff]
  · exact h

theorem find_insert_ne_none {d : Database} {t : TableName} (r : Row t) {id : Uuid}
    (h : d.find t id ≠ none) : (d.apply (.insert t r)).find t id ≠ none := by
  rw [find_insert]
  split
  · rw [Ne, Option.or_eq_none_iff]
    exact fun hnone => h hnone.1
  · exact h

theorem find_inserts_ne_none {d : Database} {t : TableName} (rs : List (Row t)) {id : Uuid}
    (h : d.find t id ≠ none) : (applyAll d (rs.map (Write.insert t))).find t id ≠ none := by
  induction rs generalizing d with
  | nil => exact h
  | cons r rs ih => exact ih (find_insert_ne_none r h)

theorem find_delete (d : Database) (t : TableName) (id id' : Uuid) :
    (d.apply (.delete t id)).find t id' = if id = id' then none else d.find t id' := by
  rw [find, table_delete_self]
  exact Table.find?_erase ..

/-- A write takes states that show the same row to states that show the same row. -/
theorem agree_apply_congr {k : LockTarget} {d d' : Database} (h : agree k d d') (w : Write) :
    agree k (d.apply w) (d'.apply w) := by
  cases k with
  | unique => trivial
  | balance b =>
      simp only [agree, balances_apply] at h ⊢
      rw [h]
  | row t id =>
      simp only [agree] at h ⊢
      by_cases ht : w.table? = some t
      · cases w with
        | addBalance => cases ht
        | insert t' r =>
            cases ht
            rw [find_insert, find_insert, h]
        | update t' r =>
            cases ht
            rw [find_update, find_update, h]
        | delete t' id' =>
            cases ht
            rw [find_delete, find_delete, h]
      · rw [find_apply d w t id ht, find_apply d' w t id ht, h]

theorem agree_applyAll_congr {k : LockTarget} {d d' : Database} (h : agree k d d')
    (ws : List Write) : agree k (applyAll d ws) (applyAll d' ws) := by
  induction ws generalizing d d' with
  | nil => exact h
  | cons w ws ih => exact ih (agree_apply_congr h w)

end Database

end LumbungMesari
