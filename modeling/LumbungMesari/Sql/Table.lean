import Mathlib.Data.List.Nodup
import Mathlib.Algebra.BigOperators.Group.List.Basic
import Mathlib.Tactic.Abel

/-!
# Tables

A table is its rows in insertion order, no two of which carry one primary key. The three row-level
changes a statement can make are `insert`, `replace` and `erase`; what a change does to a lookup by
key and to a sum over the rows is stated here once, for every table.
-/

namespace Sql

variable {ρ κ : Type} {key : ρ → κ}

/-- The rows of a table in insertion order. The primary key is unique by construction. -/
structure Table (ρ : Type) {κ : Type} (key : ρ → κ) where
  rows : List ρ
  nodup : (rows.map key).Nodup

namespace Table

@[ext] theorem ext_rows {t u : Table ρ key} (h : t.rows = u.rows) : t = u := by
  cases t
  cases u
  cases h
  rfl

def empty : Table ρ key := ⟨[], List.nodup_nil⟩

/-- The rows that meet a condition. -/
def filter (t : Table ρ key) (p : ρ → Bool) : Table ρ key :=
  ⟨t.rows.filter p, t.nodup.sublist (List.filter_sublist.map key)⟩

variable [DecidableEq κ]

/-- The row with a primary key, if there is one. -/
def find? (t : Table ρ key) (k : κ) : Option ρ := t.rows.find? fun r => key r = k

/-- Append a row. A row whose key is taken is not added; statements report that case as a
violated primary key before they write. -/
def insert (t : Table ρ key) (r : ρ) : Table ρ key :=
  if h : key r ∈ t.rows.map key then t
  else ⟨t.rows ++ [r], by
    rw [List.map_append, List.map_singleton]
    exact List.nodup_append.2 ⟨t.nodup, List.nodup_singleton _, by
      intro a ha b hb hab
      rw [List.mem_singleton] at hb
      exact h (hb ▸ hab ▸ ha)⟩⟩

theorem map_key_replace (rows : List ρ) (r : ρ) :
    (rows.map fun s => if key s = key r then r else s).map key = rows.map key := by
  rw [List.map_map]
  refine List.map_congr_left fun s _ => ?_
  simp only [Function.comp_apply]
  split
  · rename_i h
    exact h.symm
  · rfl

/-- Put a new version of a row in the place of the version with the same key. -/
def replace (t : Table ρ key) (r : ρ) : Table ρ key :=
  ⟨t.rows.map fun s => if key s = key r then r else s, by
    rw [map_key_replace]
    exact t.nodup⟩

/-- Remove the row with a key. -/
def erase (t : Table ρ key) (k : κ) : Table ρ key :=
  ⟨t.rows.filter fun s => key s ≠ k, (t.nodup.sublist (List.filter_sublist.map key))⟩

/-! ### Lookups -/

theorem find?_some {t : Table ρ key} {k : κ} {r : ρ} (h : t.find? k = some r) :
    r ∈ t.rows ∧ key r = k :=
  ⟨List.mem_of_find?_eq_some h, by simpa using List.find?_some h⟩

theorem find?_eq_none {t : Table ρ key} {k : κ} :
    t.find? k = none ↔ k ∉ t.rows.map key := by
  simp [find?, List.find?_eq_none]

omit [DecidableEq κ] in
theorem eq_of_key {t : Table ρ key} {r s : ρ} (hr : r ∈ t.rows) (hs : s ∈ t.rows)
    (h : key r = key s) : r = s :=
  List.inj_on_of_nodup_map t.nodup hr hs h

theorem find?_of_mem {t : Table ρ key} {r : ρ} (h : r ∈ t.rows) : t.find? (key r) = some r := by
  cases hf : t.find? (key r) with
  | none => exact absurd (List.mem_map_of_mem h) (find?_eq_none.1 hf)
  | some s =>
      obtain ⟨hs, hk⟩ := find?_some hf
      rw [eq_of_key hs h hk]

/-- Where a row stands: the rows before it and after it do not carry its key. -/
theorem split_of_find? {t : Table ρ key} {k : κ} {r : ρ} (h : t.find? k = some r) :
    ∃ before after, t.rows = before ++ r :: after ∧
      (∀ s ∈ before, key s ≠ k) ∧ ∀ s ∈ after, key s ≠ k := by
  obtain ⟨hmem, hk⟩ := find?_some h
  obtain ⟨before, after, hsplit⟩ := List.append_of_mem hmem
  have hnodup := t.nodup
  rw [hsplit, List.map_append, List.map_cons, List.nodup_append] at hnodup
  obtain ⟨-, htail, hdisjoint⟩ := hnodup
  refine ⟨before, after, hsplit, fun s hs he => ?_, fun s hs he => ?_⟩
  · exact hdisjoint _ (List.mem_map_of_mem hs) _ (List.mem_cons_self ..) (he.trans hk.symm)
  · exact (List.nodup_cons.1 htail).1 (hk ▸ he ▸ List.mem_map_of_mem hs)

/-! ### Insertion -/

theorem rows_insert {t : Table ρ key} {r : ρ} (h : t.find? (key r) = none) :
    (t.insert r).rows = t.rows ++ [r] := by
  rw [insert, dif_neg (find?_eq_none.1 h)]

theorem insert_of_mem {t : Table ρ key} {r : ρ} (h : key r ∈ t.rows.map key) : t.insert r = t := by
  rw [insert, dif_pos h]

theorem find?_insert_ne {t : Table ρ key} {r : ρ} {k : κ} (h : key r ≠ k) :
    (t.insert r).find? k = t.find? k := by
  by_cases hmem : key r ∈ t.rows.map key
  · rw [insert_of_mem hmem]
  · rw [find?, rows_insert (find?_eq_none.2 hmem), List.find?_append]
    simp [find?, h]

theorem find?_insert_self {t : Table ρ key} {r : ρ} (h : t.find? (key r) = none) :
    (t.insert r).find? (key r) = some r := by
  refine find?_of_mem ?_
  rw [rows_insert h]
  exact List.mem_append_right _ (List.mem_singleton_self r)

theorem find?_insert (t : Table ρ key) (r : ρ) (k : κ) :
    (t.insert r).find? k = if key r = k then (t.find? k).or (some r) else t.find? k := by
  split
  · rename_i h
    subst h
    cases hf : t.find? (key r) with
    | none => rw [find?_insert_self hf, Option.none_or]
    | some s =>
        obtain ⟨hs, hk⟩ := find?_some hf
        rw [insert_of_mem (hk ▸ List.mem_map_of_mem hs), hf, Option.some_or]
  · rename_i h
    exact find?_insert_ne h

/-! ### Replacement -/

theorem mem_rows_replace {t : Table ρ key} {r s : ρ} (h : s ∈ (t.replace r).rows) :
    s = r ∨ (s ∈ t.rows ∧ key s ≠ key r) := by
  obtain ⟨s₀, hs₀, he⟩ := List.mem_map.1 h
  split at he
  · exact .inl he.symm
  · rename_i hne
    exact .inr (he ▸ ⟨hs₀, hne⟩)

theorem rows_replace {t : Table ρ key} {r : ρ} {before after : List ρ} {old : ρ}
    (hold : key old = key r) (hsplit : t.rows = before ++ old :: after)
    (hbefore : ∀ s ∈ before, key s ≠ key r) (hafter : ∀ s ∈ after, key s ≠ key r) :
    (t.replace r).rows = before ++ r :: after := by
  have hsame : ∀ l : List ρ, (∀ s ∈ l, key s ≠ key r) →
      (l.map fun s => if key s = key r then r else s) = l := by
    intro l hl
    conv_rhs => rw [← List.map_id l]
    exact List.map_congr_left fun s hs => by rw [if_neg (hl s hs), id]
  simp only [replace, hsplit, List.map_append, List.map_cons, if_pos hold, hsame _ hbefore,
    hsame _ hafter]

theorem find?_replace_ne {t : Table ρ key} {r : ρ} {k : κ} (h : key r ≠ k) :
    (t.replace r).find? k = t.find? k := by
  rw [find?, find?, replace, List.find?_map]
  have hpred : ((fun s => decide (key s = k)) ∘ fun s => if key s = key r then r else s) =
      fun s => decide (key s = k) := by
    funext s
    simp only [Function.comp_apply]
    split
    · rename_i hs
      rw [hs]
    · rfl
  rw [hpred]
  cases hf : t.rows.find? fun s => decide (key s = k) with
  | none => rfl
  | some s =>
      have hs : key s = k := by simpa using List.find?_some hf
      rw [Option.map_some, if_neg (fun he => h (he.symm.trans hs))]

theorem find?_replace_self {t : Table ρ key} {r old : ρ} (h : t.find? (key r) = some old) :
    (t.replace r).find? (key r) = some r := by
  obtain ⟨before, after, hsplit, hb, ha⟩ := split_of_find? h
  refine find?_of_mem ?_
  rw [rows_replace (find?_some h).2 hsplit hb ha]
  exact List.mem_append_right _ (List.mem_cons_self ..)

theorem find?_replace_none {t : Table ρ key} {r : ρ} (h : t.find? (key r) = none) :
    t.replace r = t := by
  apply ext_rows
  conv_rhs => rw [← List.map_id t.rows]
  refine List.map_congr_left fun s hs => ?_
  rw [if_neg, id]
  intro he
  exact find?_eq_none.1 h (he ▸ List.mem_map_of_mem hs)

theorem find?_replace (t : Table ρ key) (r : ρ) (k : κ) :
    (t.replace r).find? k = if key r = k then (t.find? k).map fun _ => r else t.find? k := by
  split
  · rename_i h
    subst h
    cases hf : t.find? (key r) with
    | none => rw [find?_replace_none hf, hf, Option.map_none]
    | some s => rw [find?_replace_self hf, Option.map_some]
  · rename_i h
    exact find?_replace_ne h

/-- Replace one row after another. -/
def replaceAll (t : Table ρ key) (rs : List ρ) : Table ρ key := rs.foldl replace t

theorem rows_replaceAll (t : Table ρ key) {rs : List ρ} (h : (rs.map key).Nodup) :
    (t.replaceAll rs).rows = t.rows.map fun s => (rs.find? fun r => key r = key s).getD s := by
  induction rs generalizing t with
  | nil => simp [replaceAll]
  | cons r rs ih =>
      obtain ⟨hr, hrs⟩ := List.nodup_cons.1 h
      rw [replaceAll, List.foldl_cons, ← replaceAll, ih _ hrs]
      simp only [replace, List.map_map]
      refine List.map_congr_left fun s _ => ?_
      simp only [Function.comp_apply]
      split
      · rename_i hs
        -- no later row carries the key that was just replaced
        have hnone : (rs.find? fun r' => key r' = key r) = none := by
          rw [List.find?_eq_none]
          intro r' hr' he
          rw [decide_eq_true_eq] at he
          exact hr (he ▸ List.mem_map_of_mem hr')
        simp [hnone, hs]
      · rename_i hs
        rw [List.find?_cons_of_neg (by simpa using Ne.symm hs)]

/-- Replacing the rows that meet a condition is a map over the table. -/
theorem rows_replaceAll_filter (t : Table ρ key) (p : ρ → Bool) {set : ρ → ρ}
    (hset : ∀ r, key (set r) = key r) :
    (t.replaceAll ((t.rows.filter p).map set)).rows =
      t.rows.map fun s => if p s then set s else s := by
  have hkeys : ((t.rows.filter p).map set).map key = (t.rows.filter p).map key := by
    rw [List.map_map]
    exact List.map_congr_left fun r _ => hset r
  rw [rows_replaceAll t (by rw [hkeys]; exact t.nodup.sublist (List.filter_sublist.map key))]
  refine List.map_congr_left fun s hs => ?_
  cases hf : ((t.rows.filter p).map set).find? fun r => key r = key s with
  | none =>
      rw [List.find?_eq_none] at hf
      rw [Option.getD_none, if_neg]
      intro hp
      exact hf _ (List.mem_map_of_mem (List.mem_filter.2 ⟨hs, hp⟩)) (by simpa using hset s)
  | some r =>
      obtain ⟨s', hs', rfl⟩ := List.mem_map.1 (List.mem_of_find?_eq_some hf)
      obtain ⟨hs'mem, hp⟩ := List.mem_filter.1 hs'
      have hkey : key s' = key s := by
        rw [← hset s']
        simpa using List.find?_some hf
      rw [eq_of_key hs'mem hs hkey] at hp ⊢
      rw [Option.getD_some, if_pos hp]

/-! ### Removal -/

theorem mem_rows_erase {t : Table ρ key} {k : κ} {s : ρ} :
    s ∈ (t.erase k).rows ↔ s ∈ t.rows ∧ key s ≠ k := by
  simp [erase]

theorem find?_erase_ne {t : Table ρ key} {k k' : κ} (h : k ≠ k') :
    (t.erase k).find? k' = t.find? k' := by
  cases hf : t.find? k' with
  | none =>
      rw [find?_eq_none] at hf ⊢
      intro hmem
      obtain ⟨s, hs, he⟩ := List.mem_map.1 hmem
      exact hf (he ▸ List.mem_map_of_mem (mem_rows_erase.1 hs).1)
  | some s =>
      obtain ⟨hs, he⟩ := find?_some hf
      have hmem : s ∈ (t.erase k).rows := mem_rows_erase.2 ⟨hs, fun hk => h (hk ▸ he)⟩
      rw [← he, find?_of_mem hmem]

theorem find?_erase_self {t : Table ρ key} {k : κ} : (t.erase k).find? k = none := by
  rw [find?_eq_none]
  intro hmem
  obtain ⟨s, hs, he⟩ := List.mem_map.1 hmem
  exact (mem_rows_erase.1 hs).2 he

theorem find?_erase (t : Table ρ key) (k k' : κ) :
    (t.erase k).find? k' = if k = k' then none else t.find? k' := by
  split
  · rename_i h
    subst h
    exact find?_erase_self
  · rename_i h
    exact find?_erase_ne h

theorem rows_erase {t : Table ρ key} {k : κ} {old : ρ} {before after : List ρ}
    (hsplit : t.rows = before ++ old :: after)
    (hold : key old = k) (hbefore : ∀ s ∈ before, key s ≠ k) (hafter : ∀ s ∈ after, key s ≠ k) :
    (t.erase k).rows = before ++ after := by
  change t.rows.filter (fun s => key s ≠ k) = before ++ after
  rw [hsplit, List.filter_append, List.filter_cons_of_neg (by simp [hold]),
    List.filter_eq_self.2 (by simpa using hbefore), List.filter_eq_self.2 (by simpa using hafter)]

/-! ### Counts of rows -/

section Count

variable {t : Table ρ key} {r old : ρ} {k : κ} (p : ρ → Bool)

theorem countP_insert (h : t.find? (key r) = none) :
    (t.insert r).rows.countP p = t.rows.countP p + if p r then 1 else 0 := by
  rw [rows_insert h, List.countP_append, List.countP_singleton]

theorem countP_replace (h : t.find? (key r) = some old) :
    (t.replace r).rows.countP p + (if p old then 1 else 0) =
      t.rows.countP p + if p r then 1 else 0 := by
  obtain ⟨before, after, hsplit, hbefore, hafter⟩ := split_of_find? h
  rw [rows_replace (find?_some h).2 hsplit hbefore hafter, hsplit, List.countP_append,
    List.countP_append, List.countP_cons, List.countP_cons]
  omega

theorem countP_erase (h : t.find? k = some old) :
    (t.erase k).rows.countP p + (if p old then 1 else 0) = t.rows.countP p := by
  obtain ⟨before, after, hsplit, hbefore, hafter⟩ := split_of_find? h
  rw [rows_erase hsplit (find?_some h).2 hbefore hafter, hsplit, List.countP_append,
    List.countP_append, List.countP_cons]
  omega

end Count

/-! ### Sums over the rows -/

section Sum

variable {β : Type} [AddCommGroup β] {t : Table ρ key} {r old : ρ} {k : κ} (f : ρ → β)

theorem sum_insert (h : t.find? (key r) = none) :
    ((t.insert r).rows.map f).sum = (t.rows.map f).sum + f r := by
  rw [rows_insert h, List.map_append, List.sum_append, List.map_singleton, List.sum_singleton]

/-- A row that weighs nothing does not show, whether it is added or not. -/
theorem sum_insert_zero (h : f r = 0) :
    ((t.insert r).rows.map f).sum = (t.rows.map f).sum := by
  cases hf : t.find? (key r) with
  | none => rw [sum_insert f hf, h, add_zero]
  | some s =>
      obtain ⟨hs, hk⟩ := find?_some hf
      rw [insert_of_mem (hk ▸ List.mem_map_of_mem hs)]

theorem sum_replace (h : t.find? (key r) = some old) :
    ((t.replace r).rows.map f).sum = (t.rows.map f).sum + (f r - f old) := by
  obtain ⟨before, after, hsplit, hbefore, hafter⟩ := split_of_find? h
  rw [rows_replace (find?_some h).2 hsplit hbefore hafter, hsplit, List.map_append, List.map_append,
    List.map_cons, List.map_cons, List.sum_append, List.sum_append, List.sum_cons, List.sum_cons]
  abel

theorem sum_erase (h : t.find? k = some old) :
    ((t.erase k).rows.map f).sum = (t.rows.map f).sum - f old := by
  obtain ⟨before, after, hsplit, hbefore, hafter⟩ := split_of_find? h
  rw [rows_erase hsplit (find?_some h).2 hbefore hafter, hsplit, List.map_append, List.map_append,
    List.map_cons, List.sum_append, List.sum_append, List.sum_cons]
  abel

end Sum

/-! ### Columns

A choice of columns that tells rows with different keys apart. -/

section Columns

variable {β : Type} {view : ρ → β} {t u : Table ρ key} {r : ρ}

omit [DecidableEq κ] in
theorem map_eq_of_view {γ : Type} {f : ρ → γ} (hf : ∀ {r s}, view r = view s → f r = f s)
    {rows rows' : List ρ} (h : rows.map view = rows'.map view) : rows.map f = rows'.map f := by
  induction rows generalizing rows' with
  | nil =>
      obtain rfl : rows' = [] := List.map_eq_nil_iff.1 h.symm
      rfl
  | cons r rows ih =>
      cases rows' with
      | nil => cases h
      | cons r' rows' =>
          rw [List.map_cons, List.map_cons, List.cons.injEq] at h
          rw [List.map_cons, List.map_cons, hf h.1, ih h.2]

theorem view_insert (hkey : ∀ {r s}, view r = view s → key r = key s)
    (h : t.rows.map view = u.rows.map view) (r : ρ) :
    (t.insert r).rows.map view = (u.insert r).rows.map view := by
  have hkeys : t.rows.map key = u.rows.map key := map_eq_of_view hkey h
  by_cases hr : key r ∈ t.rows.map key
  · rw [insert_of_mem hr, insert_of_mem (hkeys ▸ hr), h]
  · rw [rows_insert (find?_eq_none.2 hr), rows_insert (find?_eq_none.2 (hkeys ▸ hr)), List.map_append,
      List.map_append, h]

theorem view_replace_congr (hkey : ∀ {r s}, view r = view s → key r = key s)
    (h : t.rows.map view = u.rows.map view) (r : ρ) :
    (t.replace r).rows.map view = (u.replace r).rows.map view := by
  rw [replace, replace, List.map_map, List.map_map]
  refine map_eq_of_view (fun {s s'} hs => ?_) h
  rw [Function.comp_apply, Function.comp_apply, hkey hs]
  split
  · rfl
  · exact hs

theorem view_erase (hkey : ∀ {r s}, view r = view s → key r = key s)
    (h : t.rows.map view = u.rows.map view) (k : κ) :
    (t.erase k).rows.map view = (u.erase k).rows.map view := by
  have hfilter : ∀ {rows rows' : List ρ}, rows.map view = rows'.map view →
      (rows.filter fun s => key s ≠ k).map view = (rows'.filter fun s => key s ≠ k).map view := by
    intro rows rows' hrows
    induction rows generalizing rows' with
    | nil =>
        obtain rfl : rows' = [] := List.map_eq_nil_iff.1 hrows.symm
        rfl
    | cons s rows ih =>
        cases rows' with
        | nil => cases hrows
        | cons s' rows' =>
            rw [List.map_cons, List.map_cons, List.cons.injEq] at hrows
            rw [List.filter_cons, List.filter_cons, hkey hrows.1]
            split
            · rw [List.map_cons, List.map_cons, hrows.1, ih hrows.2]
            · exact ih hrows.2
  exact hfilter h

/-- A new version of a row that shows the columns of the old one. -/
theorem view_replace (hkey : ∀ {r s}, view r = view s → key r = key s)
    (h : view r ∈ t.rows.map view) : (t.replace r).rows.map view = t.rows.map view := by
  obtain ⟨old, hold, hview⟩ := List.mem_map.1 h
  rw [replace, List.map_map]
  refine List.map_congr_left fun s hs => ?_
  rw [Function.comp_apply]
  split
  · rename_i hs'
    rw [eq_of_key hs hold (hs'.trans (hkey hview).symm), hview]
  · rfl

end Columns

end Table

end Sql
