import Mathlib.Algebra.BigOperators.Group.List.Basic

/-!
# Journals

A journal is a list of entries, each of which takes one state to the next. It leads from the state
before its first entry to the state after its last, and leaves no gap between.
-/

namespace Sql

variable {α β σ : Type} {step : α → σ → σ → Prop} {x y : α} {xs ys : List α} {a b c : σ}

/-- The entries of a journal lead from one state to another. -/
def Leads (step : α → σ → σ → Prop) : σ → List α → σ → Prop
  | a, [], c => a = c
  | a, x :: xs, c => ∃ b, step x a b ∧ Leads step b xs c

theorem leads_cons : Leads step a (x :: xs) c ↔ ∃ b, step x a b ∧ Leads step b xs c := Iff.rfl

theorem leads_singleton : Leads step a [x] c ↔ step x a c := by
  rw [leads_cons]
  constructor
  · rintro ⟨b, hstep, rfl⟩
    exact hstep
  · exact fun hstep => ⟨c, hstep, rfl⟩

theorem leads_append : Leads step a (xs ++ ys) c ↔ ∃ b, Leads step a xs b ∧ Leads step b ys c := by
  induction xs generalizing a with
  | nil =>
      constructor
      · exact fun h => ⟨a, rfl, h⟩
      · rintro ⟨b, rfl, h⟩
        exact h
  | cons x xs ih =>
      rw [List.cons_append, leads_cons]
      constructor
      · rintro ⟨b, hstep, hrest⟩
        obtain ⟨b', hxs, hys⟩ := ih.1 hrest
        exact ⟨b', ⟨b, hstep, hxs⟩, hys⟩
      · rintro ⟨b', ⟨b, hstep, hxs⟩, hys⟩
        exact ⟨b, hstep, ih.2 ⟨b', hxs, hys⟩⟩

namespace Leads

theorem append (h : Leads step a xs b) (h' : Leads step b ys c) : Leads step a (xs ++ ys) c :=
  leads_append.2 ⟨b, h, h'⟩

theorem snoc (h : Leads step a xs b) (hstep : step x b c) : Leads step a (xs ++ [x]) c :=
  h.append (leads_singleton.2 hstep)

/-- Two entries in a row meet in one state. -/
theorem meet (h : Leads step a (xs ++ x :: y :: ys) c) : ∃ before between after,
    step x before between ∧ step y between after := by
  obtain ⟨before, -, between, hx, after, hy, -⟩ := leads_append.1 h
  exact ⟨before, between, after, hx, hy⟩

/-- A journal moves a figure by the sum of what its entries move it by. -/
theorem sum {M : Type} [AddCommMonoid M] {f : σ → M} {delta : α → M}
    (hstep : ∀ {x a b}, step x a b → f b = f a + delta x) (h : Leads step a xs c) :
    f c = f a + (xs.map delta).sum := by
  induction xs generalizing a with
  | nil =>
      obtain rfl : a = c := h
      rw [List.map_nil, List.sum_nil, add_zero]
  | cons x xs ih =>
      obtain ⟨b, hx, hrest⟩ := h
      rw [ih hrest, hstep hx, List.map_cons, List.sum_cons, add_assoc]

end Leads

end Sql
