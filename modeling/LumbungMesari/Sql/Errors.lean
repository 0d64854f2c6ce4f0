import LumbungMesari.Sql.Alone

/-!
# Errors of calls that run alone

A weakest precondition says nothing of a program that stops at an error. `Prog.Throws` says which
errors a program that runs alone can stop at; what is known of a part that returned comes from its
weakest precondition.
-/

namespace Sql

variable {D W K L E α β : Type} [Locking W K] [Store D W K]

namespace Prog

/-- Every error of a program that runs alone is one of `R`. -/
def Throws (R : E → Prop) (p : Prog D W K L E α) (d : D) (s : Session W K) : Prop :=
  ∀ e, (p.run d s).1 = .error e → R e

variable {R : E → Prop} {d : D} {s : Session W K}

theorem throws_pure (a : α) : (Pure.pure a : Prog D W K L E α).Throws R d s := by
  intro e he
  cases he

theorem throws_throw {e : E} (h : R e) : (throw e : Prog D W K L E α).Throws R d s := by
  intro e' he
  cases he
  exact h

theorem throws_inTrx {st : Stmt D W K L E α} (h : ∀ e, st.exec (s.view d) = .error e → R e) :
    (inTrx st).Throws R d s := by
  intro e he
  rw [inTrx, run] at he
  split at he
  · rename_i e' hexec
    cases he
    exact h _ hexec
  · cases he

theorem throws_commitTrx : (commitTrx : Prog D W K L E Unit).Throws R d s := by
  intro e he
  cases he

/-- What follows a part is only run when the part returned. -/
theorem throws_bind {p : Prog D W K L E α} {f : α → Prog D W K L E β}
    {Q : α → D → Session W K → Prop} (hp : p.Throws R d s)
    (hwp : p.wp (alone fun _ _ => True) Q d s)
    (hf : ∀ a d' s', Q a d' s' → (f a).Throws R d' s') : (p >>= f).Throws R d s := by
  intro e he
  rw [run_bind] at he
  cases hrun : p.run d s with
  | mk r d' =>
      rw [hrun] at he
      have hfst : (p.run d s).1 = r := congrArg Prod.fst hrun
      have hsnd : (p.run d s).2 = d' := congrArg Prod.snd hrun
      cases r with
      | error e' =>
          cases he
          exact hp _ hfst
      | ok a =>
          have hQ := run_ok_of_wp (fun _ _ => rfl) (fun _ _ => trivial) hwp hfst
          rw [hsnd] at hQ
          exact hf a.1 d' a.2 hQ e he

theorem throws_assoc {γ : Type} {p : Prog D W K L E α} {f : α → Prog D W K L E β}
    {k : β → Prog D W K L E γ} (h : ((p >>= f) >>= k).Throws R d s) :
    (p >>= fun a => f a >>= k).Throws R d s := by
  have hassoc : ((p >>= f) >>= k) = p >>= fun a => f a >>= k := bind_bind p f k
  rwa [hassoc] at h

theorem Throws.of_result {p : Prog D W K L E α} (h : p.Throws R d .idle) {e : E}
    (he : p.result d = .error e) : R e := by
  rw [result] at he
  split at he
  · cases he
  · rename_i e' hrun
    cases he
    exact h _ hrun

theorem Throws.returns {p : Prog D W K L E α} (h : p.Throws (fun _ => False) d .idle) :
    ∃ a, p.result d = .ok a := by
  cases hresult : p.result d with
  | error e => exact (h.of_result hresult).elim
  | ok a => exact ⟨a, rfl⟩

end Prog

end Sql
