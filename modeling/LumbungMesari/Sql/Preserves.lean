import LumbungMesari.Sql.Each

/-!
# What programs preserve

An invariant of a session over the committed state, kept by a program as a whole. Where a property
has to be shown for several statements together, the program is cut into parts that preserve it.
-/

namespace Sql

variable {D W K L E α β : Type} [Locking W K] [Store D W K]

namespace Prog

variable {S : Contract D K L} {I : D → Session W K → Prop}

/-- Wherever the invariant holds, the program meets its contract and leaves the invariant. -/
def Preserves (S : Contract D K L) (I : D → Session W K → Prop) (p : Prog D W K L E α) : Prop :=
  ∀ d s, I d s → p.wp S (fun _ d s => I d s) d s

theorem preserves_pure {a : α} : (Pure.pure a : Prog D W K L E α).Preserves S I :=
  fun _ _ h => h

theorem preserves_throw {e : E} : (throw e : Prog D W K L E α).Preserves S I :=
  fun _ _ _ => trivial

theorem Preserves.bind {p : Prog D W K L E α} {f : α → Prog D W K L E β} (hp : p.Preserves S I)
    (hf : ∀ a, (f a).Preserves S I) : (p >>= f).Preserves S I :=
  fun d s h => wp_bind'.2 (wp_mono hf (hp d s h))

/-- A program whose statements preserve the invariant one by one. -/
theorem Each.preserves {A B : ∀ β, Stmt D W K L E β → Prop} {p : Prog D W K L E α}
    (hI : SessionInvariant S A B I) (hp : p.Each A B) : p.Preserves S I :=
  fun _ _ h => hp.wp hI h

theorem Writes.each {P : W → Prop} {p : Prog D W K L E α} (hp : p.Writes P) :
    p.Each (fun _ st => st.Writes P) fun _ st => st.Writes P := by
  induction p with
  | pure a => trivial
  | throw e => trivial
  | auto st k ih => exact ⟨hp.1, fun b => ih b (hp.2 b)⟩
  | stmt st k ih => exact ⟨hp.1, fun b => ih b (hp.2 b)⟩
  | commit k ih => exact ih hp

end Prog

/-- A contract that asks for something else of the commits. -/
def Contract.guaranteeing (S : Contract D K L) (guar : List (K × LockMode) → D → D → Prop) :
    Contract D K L := { S with guar }

instance (S : Contract D K L) [hS : S.Stable (W := W)]
    (guar : List (K × LockMode) → D → D → Prop) : (S.guaranteeing guar).Stable where
  refl := hS.refl
  trans := hS.trans
  mono := hS.mono
  agree := hS.agree

/-- A program that meets its contract in two parts meets it. -/
theorem Prog.wp_of_parts {S : Contract D K L} {guar guar' : List (K × LockMode) → D → D → Prop}
    (hguar : ∀ {l d d'}, guar l d d' → guar' l d d' → S.guar l d d')
    {Q Q' : α → D → Session W K → Prop} {p : Prog D W K L E α} {d : D} {s : Session W K}
    (h : p.wp (S.guaranteeing guar) Q d s) (h' : p.wp (S.guaranteeing guar') Q' d s) :
    p.wp S Q d s := by
  induction p generalizing d s with
  | pure a => exact h
  | throw e => trivial
  | auto st k ih =>
      intro d' henv ws b hexec hok
      obtain ⟨hcommit, hrest⟩ := h d' henv ws b hexec hok
      obtain ⟨hcommit', hrest'⟩ := h' d' henv ws b hexec hok
      exact ⟨fun hws => hguar (hcommit hws) (hcommit' hws), ih b hrest hrest'⟩
  | stmt st k ih =>
      intro d' henv ws b hexec hok
      exact ih b (h d' henv ws b hexec hok) (h' d' henv ws b hexec hok)
  | commit k ih =>
      intro d' henv
      obtain ⟨hcommit, hrest⟩ := h d' henv
      obtain ⟨hcommit', hrest'⟩ := h' d' henv
      exact ⟨hguar hcommit hcommit', ih hrest hrest'⟩

end Sql
