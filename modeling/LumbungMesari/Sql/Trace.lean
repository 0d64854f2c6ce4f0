import LumbungMesari.Sql.Footprint

/-!
# Statements of a call that runs alone

Beside what a call leaves behind, a property can speak of the statements it has run: the state each
of them saw and the writes it made there, a trigger's writes included. `observes` is the
precondition for such properties. Where a program only makes writes that the property has nothing to
say about, its weakest precondition is enough.
-/

namespace Sql

variable {D W K L E α β : Type} [Locking W K] [Store D W K]

namespace Prog

/-- The statements of a call that runs alone, each with the state it saw and its writes. -/
def statements : Prog D W K L E α → D → Session W K → List (D × List W)
  | pure _, _, _ => []
  | throw _, _, _ => []
  | auto st k, d, s =>
      match st.exec d with
      | .error _ => []
      | .ok (ws, b) => (d, ws) :: (k b).statements (applyAll d ws) s
  | stmt st k, d, s =>
      match st.exec (s.view d) with
      | .error _ => []
      | .ok (ws, b) => (s.view d, ws) :: (k b).statements d (s.extend ws (st.locks (s.view d)))
  | commit k, d, s => k.statements (s.view d) .idle

/-- Running alone, every statement meets `R`, and a return meets `Q`. -/
def observes (R : D → List W → Prop) :
    Prog D W K L E α → (α → D → Session W K → Prop) → D → Session W K → Prop
  | pure a, Q, d, s => Q a d s
  | throw _, _, _, _ => True
  | auto st k, Q, d, s => ∀ ws b, st.exec d = .ok (ws, b) →
      R d ws ∧ (k b).observes R Q (applyAll d ws) s
  | stmt st k, Q, d, s => ∀ ws b, st.exec (s.view d) = .ok (ws, b) →
      R (s.view d) ws ∧ (k b).observes R Q d (s.extend ws (st.locks (s.view d)))
  | commit k, Q, d, s => k.observes R Q (s.view d) .idle

variable {R : D → List W → Prop} {P : W → Prop} {Q : α → D → Session W K → Prop} {d : D}
  {s : Session W K}

theorem observes.statements {p : Prog D W K L E α} (h : p.observes R Q d s) :
    ∀ x ∈ p.statements d s, R x.1 x.2 := by
  induction p generalizing d s with
  | pure a => exact fun _ hx => absurd hx List.not_mem_nil
  | throw e => exact fun _ hx => absurd hx List.not_mem_nil
  | auto st k ih =>
      rw [Prog.statements]
      split
      · exact fun _ hx => absurd hx List.not_mem_nil
      · rename_i ws b hexec
        obtain ⟨hws, hrest⟩ := h ws b hexec
        exact List.forall_mem_cons.2 ⟨hws, ih b hrest⟩
  | stmt st k ih =>
      rw [Prog.statements]
      split
      · exact fun _ hx => absurd hx List.not_mem_nil
      · rename_i ws b hexec
        obtain ⟨hws, hrest⟩ := h ws b hexec
        exact List.forall_mem_cons.2 ⟨hws, ih b hrest⟩
  | commit k ih => exact ih h

theorem observes_bind {Q : β → D → Session W K → Prop} {p : Prog D W K L E α}
    {f : α → Prog D W K L E β} :
    (p >>= f).observes R Q d s ↔ p.observes R (fun a d s => (f a).observes R Q d s) d s := by
  induction p generalizing d s with
  | pure a => rfl
  | throw e => rfl
  | auto st k ih => exact forall₃_congr fun ws b _ => and_congr_right fun _ => ih b
  | stmt st k ih => exact forall₃_congr fun ws b _ => and_congr_right fun _ => ih b
  | commit k ih => exact ih

theorem observes_inTrx {st : Stmt D W K L E α} : (inTrx st).observes R Q d s ↔
    ∀ ws b, st.exec (s.view d) = .ok (ws, b) →
      R (s.view d) ws ∧ Q b d (s.extend ws (st.locks (s.view d))) := Iff.rfl

/-- The rule for programs that only make writes the property has nothing to say about. -/
theorem Writes.observes (hR : ∀ {d ws}, (∀ w ∈ ws, P w) → R d ws) {p : Prog D W K L E α}
    (hp : p.Writes P) (h : p.wp (alone fun _ _ => True) Q d s) : p.observes R Q d s := by
  induction p generalizing d s with
  | pure a => exact h
  | throw e => trivial
  | auto st k ih =>
      intro ws b hexec
      exact ⟨hR (hp.1 d ws b hexec), ih b (hp.2 b) (h d rfl ws b hexec trivial).2⟩
  | stmt st k ih =>
      intro ws b hexec
      exact ⟨hR (hp.1 _ ws b hexec), ih b (hp.2 b) (h d rfl ws b hexec trivial)⟩
  | commit k ih => exact ih hp (h d rfl).2

/-- The precondition of nothing. -/
theorem wp_alone_true {p : Prog D W K L E α} :
    p.wp (alone fun _ _ => True) (fun _ _ _ => True) d s := by
  induction p generalizing d s with
  | pure a => trivial
  | throw e => trivial
  | auto st k ih => exact fun _ _ _ b _ _ => ⟨fun _ => trivial, ih b⟩
  | stmt st k ih => exact fun _ _ _ b _ _ => ih b
  | commit k ih => exact fun _ _ => ⟨trivial, ih⟩

end Prog

end Sql
