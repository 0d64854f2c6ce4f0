import LumbungMesari.Sql.Alone

/-!
# Footprints

What the statements of a program can write, read off the program statement by statement. A footprint
says nothing of what the program decides on, so it holds in every state the program is run in.

A call with an empty footprint changes nothing, and such calls can be left out of a sequence.
-/

namespace Sql

variable {D W K L E C α β : Type} [Locking W K] [Store D W K]

/-- A statement only makes writes of one kind. -/
def Stmt.Writes (P : W → Prop) (st : Stmt D W K L E β) : Prop :=
  ∀ d ws b, st.exec d = .ok (ws, b) → ∀ w ∈ ws, P w

namespace Prog

/-- A program only makes writes of one kind. -/
def Writes (P : W → Prop) : Prog D W K L E α → Prop
  | pure _ => True
  | throw _ => True
  | auto st k => st.Writes P ∧ ∀ b, (k b).Writes P
  | stmt st k => st.Writes P ∧ ∀ b, (k b).Writes P
  | commit k => k.Writes P

variable {P : W → Prop} {p : Prog D W K L E α} {f : α → Prog D W K L E β}

theorem Writes.forall {ι : Type} {P : ι → W → Prop} (hp : ∀ i, p.Writes (P i)) :
    p.Writes fun w => ∀ i, P i w := by
  induction p with
  | pure a => trivial
  | throw e => trivial
  | auto st k ih =>
      exact ⟨fun d ws b hexec w hw i => (hp i).1 d ws b hexec w hw, fun b => ih b fun i => (hp i).2 b⟩
  | stmt st k ih =>
      exact ⟨fun d ws b hexec w hw i => (hp i).1 d ws b hexec w hw, fun b => ih b fun i => (hp i).2 b⟩
  | commit k ih => exact ih hp

theorem Writes.bind (hp : p.Writes P) (hf : ∀ a, (f a).Writes P) : (p >>= f).Writes P := by
  induction p with
  | pure a => exact hf a
  | throw e => trivial
  | auto st k ih => exact ⟨hp.1, fun b => ih b (hp.2 b)⟩
  | stmt st k ih => exact ⟨hp.1, fun b => ih b (hp.2 b)⟩
  | commit k ih => exact ih hp

theorem Writes.mono {P' : W → Prop} (hP : ∀ w, P w → P' w) (hp : p.Writes P) : p.Writes P' := by
  induction p with
  | pure a => trivial
  | throw e => trivial
  | auto st k ih =>
      exact ⟨fun d ws b hexec w hw => hP w (hp.1 d ws b hexec w hw), fun b => ih b (hp.2 b)⟩
  | stmt st k ih =>
      exact ⟨fun d ws b hexec w hw => hP w (hp.1 d ws b hexec w hw), fun b => ih b (hp.2 b)⟩
  | commit k ih => exact ih hp

theorem writes_onPool {st : Stmt D W K L E α} (h : st.Writes P) : (onPool st).Writes P :=
  ⟨h, fun _ => trivial⟩

theorem writes_inTrx {st : Stmt D W K L E α} (h : st.Writes P) : (inTrx st).Writes P :=
  ⟨h, fun _ => trivial⟩

/-- What every write of a kind keeps, a program that only makes such writes keeps. -/
theorem Writes.run_keeps {I : D → Prop} (hI : ∀ {d w}, P w → I d → I (Store.apply d w)) {d : D}
    {s : Session W K} (hs : ∀ w ∈ s.log, P w) (hp : p.Writes P) (hd : I d) : I (p.run d s).2 := by
  have hall : ∀ {d : D} {ws : List W}, (∀ w ∈ ws, P w) → I d → I (applyAll d ws) := by
    intro d ws hws hd
    induction ws generalizing d with
    | nil => exact hd
    | cons w ws ih =>
        exact ih (fun w' hw' => hws w' (List.mem_cons_of_mem _ hw'))
          (hI (hws w (List.mem_cons_self ..)) hd)
  induction p generalizing d s with
  | pure a => exact hd
  | throw e => exact hd
  | auto st k ih =>
      rw [run]
      split
      · exact hd
      · rename_i ws b hexec
        exact ih b hs (hp.2 b) (hall (hp.1 d ws b hexec) hd)
  | stmt st k ih =>
      rw [run]
      split
      · exact hd
      · rename_i ws b hexec
        refine ih b (fun w hw => ?_) (hp.2 b) hd
        rcases List.mem_append.1 hw with hw | hw
        · exact hs w hw
        · exact hp.1 _ ws b hexec w hw
  | commit k ih => exact ih (fun _ hw => by cases hw) hp (hall hs hd)

theorem Writes.after_keeps {I : D → Prop} (hI : ∀ {d w}, P w → I d → I (Store.apply d w)) {d : D}
    (hp : p.Writes P) (hd : I d) : I (p.after d) :=
  hp.run_keeps hI (fun _ hw => by cases hw) hd

end Prog

/-- Calls that change nothing can be left out, when the other calls have no say in which those
are. -/
theorem runCalls_filter {program : C → Prog D W K L E Unit} {keep : D → C → Bool}
    (hskip : ∀ d x, keep d x = false → (program x).after d = d)
    (hkeep : ∀ d x, keep ((program x).after d) = keep d) (d : D) (xs : List C) :
    runCalls program d (xs.filter (keep d)) = runCalls program d xs := by
  induction xs generalizing d with
  | nil => rfl
  | cons x xs ih =>
      have hrest := ih ((program x).after d)
      rw [hkeep d x] at hrest
      cases hx : keep d x with
      | true =>
          rw [List.filter_cons_of_pos hx]
          exact hrest
      | false =>
          rw [List.filter_cons_of_neg (by simp [hx])]
          rw [hskip d x hx] at hrest
          rw [hrest]
          exact congrArg (runCalls program · xs) (hskip d x hx).symm

end Sql
