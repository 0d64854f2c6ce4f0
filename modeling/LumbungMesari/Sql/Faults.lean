import LumbungMesari.Sql.Footprint
import LumbungMesari.Sql.Evaluation

/-!
# Failing statements

A statement of a program may fail for reasons that are not in its model, such as a lost connection.
A program that commits last leaves nothing behind when it stops at an error, whichever that is.

`Coupled` compares two runs of one program: they decide alike, and their commits take states that
are alike to states that are alike. A fault then hits both or neither.
-/

namespace Sql

variable {D W K L E α β : Type} [Locking W K] [Store D W K]

namespace Prog

/-- The program with an error in place of one of its statements or its commit. -/
def failAt (e : E) : ℕ → Prog D W K L E α → Prog D W K L E α
  | _, pure a => pure a
  | _, throw e' => throw e'
  | 0, auto _ _ => throw e
  | n + 1, auto st k => auto st fun b => failAt e n (k b)
  | 0, stmt _ _ => throw e
  | n + 1, stmt st k => stmt st fun b => failAt e n (k b)
  | 0, commit _ => throw e
  | n + 1, commit k => commit (failAt e n k)

/-- A program that commits last, and writes nothing outside its transaction. -/
def Atomic : Prog D W K L E α → Prop
  | pure _ => True
  | throw _ => True
  | auto st k => st.Writes (fun _ => False) ∧ ∀ b, (k b).Atomic
  | stmt _ k => ∀ b, (k b).Atomic
  | commit k => ∃ a, k = pure a

variable {p : Prog D W K L E α} {d d' : D} {s s' : Session W K} {e : E} {n : ℕ} {a : α}

theorem Atomic.failAt (h : p.Atomic) (e : E) (n : ℕ) : (failAt e n p).Atomic := by
  induction p generalizing n with
  | pure | throw => cases n <;> trivial
  | auto st k ih =>
      cases n with
      | zero => trivial
      | succ n => exact ⟨h.1, fun b => ih b (h.2 b) n⟩
  | stmt st k ih =>
      cases n with
      | zero => trivial
      | succ n => exact fun b => ih b (h b) n
  | commit k =>
      cases n with
      | zero => trivial
      | succ n =>
          obtain ⟨a, rfl⟩ := h
          exact ⟨a, by cases n <;> rfl⟩

/-- What stops at an error leaves nothing behind. -/
theorem Atomic.run_of_error (h : p.Atomic) (herror : (p.run d s).1 = .error e) :
    (p.run d s).2 = d := by
  induction p generalizing s with
  | pure | throw => rfl
  | auto st k ih =>
      rw [run] at herror ⊢
      split
      · rfl
      · rename_i ws b hexec
        rw [hexec] at herror
        obtain rfl : ws = [] := List.eq_nil_iff_forall_not_mem.2 (h.1 d ws b hexec)
        exact ih b (h.2 b) herror
  | stmt st k ih =>
      rw [run] at herror ⊢
      split
      · rfl
      · rename_i ws b hexec
        rw [hexec] at herror
        exact ih b (h b) herror
  | commit k =>
      obtain ⟨a, rfl⟩ := h
      cases herror

/-- What returns despite a fault was not hit by it. -/
theorem Returns.of_failAt (h : (failAt e n p).Returns d s a d' s') : p.Returns d s a d' s' := by
  induction p generalizing n d s with
  | pure | throw => cases n <;> exact h
  | auto st k ih =>
      cases n with
      | zero => cases h
      | succ n =>
          rw [Returns, failAt, run] at h
          rw [Returns, run]
          split at h
          · cases h
          · exact ih _ h
  | stmt st k ih =>
      cases n with
      | zero => cases h
      | succ n =>
          rw [Returns, failAt, run] at h
          rw [Returns, run]
          split at h
          · cases h
          · exact ih _ h
  | commit k ih =>
      cases n with
      | zero => cases h
      | succ n => exact ih h

/-! ### Two runs -/

/-- Two runs of a program decide alike, and commit states that are alike. -/
def Coupled (S : D → D → Prop) : Prog D W K L E α → D → Session W K → D → Session W K → Prop
  | pure _, _, _, _, _ => True
  | throw _, _, _, _, _ => True
  | auto st k, d, s, d', s' =>
      ∃ b, st.exec d = .ok ([], b) ∧ st.exec d' = .ok ([], b) ∧ (k b).Coupled S d s d' s'
  | stmt st k, d, s, d', s' =>
      (∃ e, st.exec (s.view d) = .error e ∧ st.exec (s'.view d') = .error e) ∨
      ∃ ws ws' b, st.exec (s.view d) = .ok (ws, b) ∧ st.exec (s'.view d') = .ok (ws', b) ∧
        (k b).Coupled S d (s.extend ws (st.locks (s.view d))) d'
          (s'.extend ws' (st.locks (s'.view d')))
  | commit k, d, s, d', s' =>
      S (s.view d) (s'.view d') ∧ k.Coupled S (s.view d) .idle (s'.view d') .idle

variable {S : D → D → Prop}

theorem coupled_inTrx {st : Stmt D W K L E α} {f : α → Prog D W K L E β} :
    (inTrx st >>= f).Coupled S d s d' s' ↔
      (∃ e, st.exec (s.view d) = .error e ∧ st.exec (s'.view d') = .error e) ∨
      ∃ ws ws' b, st.exec (s.view d) = .ok (ws, b) ∧ st.exec (s'.view d') = .ok (ws', b) ∧
        (f b).Coupled S d (s.extend ws (st.locks (s.view d))) d'
          (s'.extend ws' (st.locks (s'.view d'))) := Iff.rfl

theorem Coupled.failAt (h : p.Coupled S d s d' s') (e : E) (n : ℕ) :
    (failAt e n p).Coupled S d s d' s' := by
  induction p generalizing n d s d' s' with
  | pure | throw => cases n <;> trivial
  | auto st k ih =>
      cases n with
      | zero => trivial
      | succ n =>
          obtain ⟨b, hexec, hexec', hk⟩ := h
          exact ⟨b, hexec, hexec', ih b hk n⟩
  | stmt st k ih =>
      cases n with
      | zero => trivial
      | succ n =>
          rcases h with herror | ⟨ws, ws', b, hexec, hexec', hk⟩
          · exact .inl herror
          · exact .inr ⟨ws, ws', b, hexec, hexec', ih b hk n⟩
  | commit k ih =>
      cases n with
      | zero => trivial
      | succ n => exact ⟨h.1, ih h.2 n⟩

theorem Coupled.run (h : p.Coupled S d s d' s') (hS : S d d') :
    ((p.run d s).1.map Prod.fst = (p.run d' s').1.map Prod.fst) ∧
      S (p.run d s).2 (p.run d' s').2 := by
  induction p generalizing d s d' s' with
  | pure | throw => exact ⟨rfl, hS⟩
  | auto st k ih =>
      obtain ⟨b, hexec, hexec', hk⟩ := h
      rw [Prog.run, Prog.run, hexec, hexec']
      exact ih b hk hS
  | stmt st k ih =>
      rw [Prog.run, Prog.run]
      rcases h with ⟨e, hexec, hexec'⟩ | ⟨ws, ws', b, hexec, hexec', hk⟩
      · rw [hexec, hexec']
        exact ⟨rfl, hS⟩
      · rw [hexec, hexec']
        exact ih b hk hS
  | commit k ih => exact ih h.2 h.1

theorem result_eq_map (p : Prog D W K L E α) (d : D) :
    p.result d = (p.run d .idle).1.map Prod.fst := by
  rw [result]
  split <;> rename_i hrun <;> rw [hrun] <;> rfl

theorem Coupled.result (h : p.Coupled S d .idle d' .idle) (hS : S d d') :
    p.result d = p.result d' ∧ S (p.after d) (p.after d') := by
  rw [result_eq_map, result_eq_map]
  exact h.run hS

theorem Atomic.after_of_error (h : p.Atomic) (herror : p.result d = .error e) : p.after d = d := by
  rw [result] at herror
  split at herror
  · cases herror
  · rename_i hrun
    exact h.run_of_error hrun

end Prog

end Sql
