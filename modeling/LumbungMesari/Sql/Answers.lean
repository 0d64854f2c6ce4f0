import LumbungMesari.Sql.Program

/-!
# What a program answers

Other calls commit between the statements of a call, so a call that only reads still reads several
states. Its answer is a function of the states that its statements find, whatever they are.

Two programs are alike under a relation on states when they read the same way: from related states
they decide alike. Whatever states they find, as long as these are related one by one, they answer
the same.
-/

namespace Sql

variable {D W K L E α β : Type} [Locking W K] [Store D W K]

/-- A statement that reads, and does nothing else. -/
def Stmt.Reads (st : Stmt D W K L E β) (read : D → β) : Prop := ∀ d, st.exec d = .ok ([], read d)

namespace Prog

/-- What a program returns or throws when its statements find the committed states `ds`, one after
another. -/
def answer : Prog D W K L E α → (ℕ → D) → Session W K → Except E α
  | pure a, _, _ => .ok a
  | throw e, _, _ => .error e
  | auto st k, ds, s =>
      match st.exec (ds 0) with
      | .error e => .error e
      | .ok (_, b) => (k b).answer (fun n => ds (n + 1)) s
  | stmt st k, ds, s =>
      match st.exec (s.view (ds 0)) with
      | .error e => .error e
      | .ok (ws, b) =>
          (k b).answer (fun n => ds (n + 1)) (s.extend ws (st.locks (s.view (ds 0))))
  | commit k, ds, _ => k.answer (fun n => ds (n + 1)) .idle

/-- Programs that only read, and that make the same of related states. -/
inductive Alike (R : D → D → Prop) : Prog D W K L E α → Prog D W K L E α → Prop where
  | pure (a : α) : Alike R (pure a) (pure a)
  | throw (e : E) : Alike R (throw e) (throw e)
  | read {β β' : Type} {st : Stmt D W K L E β} {st' : Stmt D W K L E β'} {read : D → β}
      {read' : D → β'} {k : β → Prog D W K L E α} {k' : β' → Prog D W K L E α} (hst : st.Reads read)
      (hst' : st'.Reads read') (next : ∀ {d d'}, R d d' → Alike R (k (read d)) (k' (read' d'))) :
      Alike R (auto st k) (auto st' k')

variable {R : D → D → Prop} {p q : Prog D W K L E α}

theorem Alike.bind {f g : α → Prog D W K L E β} (hp : p.Alike R q) (hf : ∀ a, (f a).Alike R (g a)) :
    (p >>= f).Alike R (q >>= g) := by
  induction hp with
  | pure a => exact hf a
  | throw e => exact .throw e
  | read hst hst' next ih => exact .read hst hst' ih

theorem Alike.answer_eq {ds ds' : ℕ → D} {s : Session W K} (hp : p.Alike R q)
    (h : ∀ n, R (ds n) (ds' n)) : p.answer ds s = q.answer ds' s := by
  induction hp generalizing ds ds' with
  | pure a => rfl
  | throw e => rfl
  | read hst hst' next ih =>
      rw [Prog.answer, Prog.answer, hst, hst']
      exact ih (h 0) fun n => h (n + 1)

/-- Where no other call commits, a program that only reads answers as it does alone. -/
theorem Alike.answer_const {d : D} (hp : p.Alike R q) (h : R d d) :
    p.answer (fun _ => d) .idle = p.result d := by
  induction hp with
  | pure a => rfl
  | throw e => rfl
  | read hst hst' next ih =>
      rw [Prog.answer, hst, result, run, hst]
      exact ih h

end Prog

end Sql
