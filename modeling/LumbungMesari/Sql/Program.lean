import Mathlib.Logic.Relation
import Mathlib.Data.List.Basic

/-!
# Programs that talk to a database

A service method is a program: it issues SQL statements one at a time, decides on what they return,
commits or throws. The database is left abstract. All a program needs of it is a `Store`: how one
row-level write changes it, which row locks the write needs, and what it means for two states to
agree on a row.

A statement inside the transaction sees the committed state with the transaction's own writes on
top; a statement on the pool (`auto`) sees the committed state and commits by itself. Opening a
transaction takes no lock and reads nothing, so the model has no step for it. `throw` rolls back.
-/

namespace Sql

/-- PostgreSQL's row-level lock modes, weakest first. -/
inductive LockMode where
  | keyShare
  | share
  | noKeyUpdate
  | update
  deriving DecidableEq, Repr

/-- The conflict table of the row-level lock modes. -/
def LockMode.conflicts : LockMode → LockMode → Bool
  | .update, _ => true
  | _, .update => true
  | .noKeyUpdate, .noKeyUpdate => true
  | .noKeyUpdate, .share => true
  | .share, .noKeyUpdate => true
  | _, _ => false

/-- The modes a writer of a row holds. No two sessions hold one of them on the same row. -/
def LockMode.exclusive : LockMode → Bool
  | .noKeyUpdate => true
  | .update => true
  | _ => false

theorem LockMode.conflicts_of_exclusive {m m' : LockMode} (h : m.exclusive = true)
    (h' : m'.exclusive = true) : m.conflicts m' = true := by
  cases m <;> cases m' <;> first | rfl | exact absurd h (by decide) | exact absurd h' (by decide)

/-- The locks a session holds by the time it has made a write. -/
class Locking (W : Type) (K : outParam Type) where
  needs : W → List (K × LockMode)

export Locking (needs)

/-- A database state `D` changed by row-level writes `W`, whose rows carry the lock targets `K`. -/
class Store (D : Type) (W K : outParam Type) [Locking W K] where
  apply : D → W → D
  /-- Two states show the same row at a lock target. -/
  agree : K → D → D → Prop
  agree_refl : ∀ k d, agree k d d
  agree_trans : ∀ {k d₁ d₂ d₃}, agree k d₁ d₂ → agree k d₂ d₃ → agree k d₁ d₃
  /-- A write leaves every row alone that it does not lock as a writer. -/
  agree_apply : ∀ {k d w}, (∀ m, (k, m) ∈ needs w → m.exclusive = false) → agree k d (apply d w)

variable {D W K L E α β γ : Type} [Locking W K] [Store D W K]

/-- Apply a list of writes, oldest first. -/
def applyAll (d : D) (ws : List W) : D := ws.foldl Store.apply d

@[simp] theorem applyAll_nil (d : D) : applyAll d [] = d := rfl

@[simp] theorem applyAll_cons (d : D) (w : W) (ws : List W) :
    applyAll d (w :: ws) = applyAll (Store.apply d w) ws := rfl

theorem applyAll_append (d : D) (ws ws' : List W) :
    applyAll d (ws ++ ws') = applyAll (applyAll d ws) ws' :=
  List.foldl_append ..

theorem agree_applyAll {k : K} {d : D} {ws : List W}
    (h : ∀ w ∈ ws, ∀ m, (k, m) ∈ needs w → m.exclusive = false) :
    Store.agree k d (applyAll d ws) := by
  induction ws generalizing d with
  | nil => exact Store.agree_refl k d
  | cons w ws ih =>
      exact Store.agree_trans (Store.agree_apply (h w (List.mem_cons_self ..)))
        (ih fun w' hw' => h w' (List.mem_cons_of_mem _ hw'))

/-- A transaction in progress: its uncommitted writes, oldest first, and the locks it holds. No
transaction is the same as one that has done nothing. -/
structure Session (W K : Type) where
  log : List W
  locks : List (K × LockMode)

namespace Session

def idle : Session W K := ⟨[], []⟩

/-- The database as the transaction sees it over a committed state. -/
def view (s : Session W K) (d : D) : D := applyAll d s.log

@[simp] theorem view_idle (d : D) : (idle : Session W K).view d = d := rfl

def extend (s : Session W K) (ws : List W) (locks : List (K × LockMode)) : Session W K :=
  ⟨s.log ++ ws, s.locks ++ locks⟩

omit [Locking W K] in
@[simp] theorem locks_extend (s : Session W K) (ws : List W) (locks : List (K × LockMode)) :
    (s.extend ws locks).locks = s.locks ++ locks := rfl

theorem view_extend (s : Session W K) (ws : List W) (locks : List (K × LockMode)) (d : D) :
    (s.extend ws locks).view d = applyAll (s.view d) ws :=
  applyAll_append ..

@[simp] theorem view_extend_nil (s : Session W K) (locks : List (K × LockMode)) (d : D) :
    (s.extend [] locks).view d = s.view d := view_extend s [] locks d

end Session

/-- One SQL statement: the row locks it takes in the state it runs in, and what it writes and
returns there. It names itself by `label`, so that a property of runs can speak of it. -/
structure Stmt (D W K L E : Type) [Locking W K] [Store D W K] (β : Type) where
  label : L
  locks : D → List (K × LockMode)
  exec : D → Except E (List W × β)
  covered : ∀ {d ws b}, exec d = .ok (ws, b) → ∀ w ∈ ws, needs w ⊆ locks d

/-- A program over the statements of a store. -/
inductive Prog (D W K L E : Type) [Locking W K] [Store D W K] (α : Type) : Type 1 where
  | pure (a : α)
  | throw (e : E)
  /-- A statement on the pool, outside the program's transaction. -/
  | auto {β : Type} (st : Stmt D W K L E β) (k : β → Prog D W K L E α)
  /-- A statement inside the program's transaction. -/
  | stmt {β : Type} (st : Stmt D W K L E β) (k : β → Prog D W K L E α)
  | commit (k : Prog D W K L E α)

namespace Prog

def bind : Prog D W K L E α → (α → Prog D W K L E β) → Prog D W K L E β
  | pure a, f => f a
  | throw e, _ => throw e
  | auto st k, f => auto st fun b => (k b).bind f
  | stmt st k, f => stmt st fun b => (k b).bind f
  | commit k, f => commit (k.bind f)

instance : Monad (Prog D W K L E) where
  pure := Prog.pure
  bind := Prog.bind

theorem bind_bind (p : Prog D W K L E α) (f : α → Prog D W K L E β) (g : β → Prog D W K L E γ) :
    (p.bind f).bind g = p.bind fun a => (f a).bind g := by
  induction p with
  | pure a => rfl
  | throw e => rfl
  | auto st k ih => exact congrArg (auto st) (funext ih)
  | stmt st k ih => exact congrArg (stmt st) (funext ih)
  | commit k ih => exact congrArg commit ih

/-- Run one statement on the pool. -/
def onPool (st : Stmt D W K L E β) : Prog D W K L E β := auto st pure

/-- Run one statement in the transaction. -/
def inTrx (st : Stmt D W K L E β) : Prog D W K L E β := stmt st pure

/-- Commit the transaction. -/
def commitTrx : Prog D W K L E Unit := commit (pure ())

/-! ### Running alone

A call that no other call overlaps runs its statements one after another. Its result is a value or
the error it threw; the writes it committed before an error stay. -/

def run : Prog D W K L E α → D → Session W K → Except E (α × Session W K) × D
  | pure a, d, s => (.ok (a, s), d)
  | throw e, d, _ => (.error e, d)
  | auto st k, d, s =>
      match st.exec d with
      | .error e => (.error e, d)
      | .ok (ws, b) => (k b).run (applyAll d ws) s
  | stmt st k, d, s =>
      match st.exec (s.view d) with
      | .error e => (.error e, d)
      | .ok (ws, b) => (k b).run d (s.extend ws (st.locks (s.view d)))
  | commit k, d, s => k.run (s.view d) .idle

/-- The committed state after a call that runs alone. -/
def after (p : Prog D W K L E α) (d : D) : D := (p.run d .idle).2

/-- What a call that runs alone returns. -/
def result (p : Prog D W K L E α) (d : D) : Except E α :=
  match (p.run d .idle).1 with
  | .ok (a, _) => .ok a
  | .error e => .error e

end Prog

end Sql
