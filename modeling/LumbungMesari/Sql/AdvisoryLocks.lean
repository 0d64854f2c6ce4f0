import Mathlib.Logic.Function.Basic
import Mathlib.Data.Nat.Notation

/-!
# Advisory locks

PostgreSQL's session-level advisory locks. A lock belongs to the session that took it. The session
may take it again, and has to give it back as often. No other session can give it back.
-/

namespace Sql

variable {Session Id : Type} [DecidableEq Session] [DecidableEq Id]

/-- The session that holds a lock, and how often it took it again. -/
abbrev AdvisoryLocks (Session Id : Type) := Id → Option (Session × ℕ)

namespace AdvisoryLocks

/-- `SELECT pg_try_advisory_lock(id)` -/
def tryLock (locks : AdvisoryLocks Session Id) (session : Session) (id : Id) :
    AdvisoryLocks Session Id × Bool :=
  match locks id with
  | none => (Function.update locks id (some (session, 0)), true)
  | some (holder, again) =>
      if holder = session then (Function.update locks id (some (holder, again + 1)), true)
      else (locks, false)

/-- `SELECT pg_advisory_unlock(id)` of a session that does not hold the lock only warns. -/
def unlock (locks : AdvisoryLocks Session Id) (session : Session) (id : Id) :
    AdvisoryLocks Session Id :=
  match locks id with
  | none => locks
  | some (holder, again) =>
      if holder = session then
        Function.update locks id (match again with | 0 => none | again + 1 => some (holder, again))
      else locks

/-- How often a lock has been taken and not given back. -/
def depth (locks : AdvisoryLocks Session Id) (id : Id) : ℕ :=
  match locks id with
  | none => 0
  | some (_, again) => again + 1

/-- A session holds a lock. -/
def HeldBy (locks : AdvisoryLocks Session Id) (session : Session) (id : Id) : Prop :=
  ∃ again, locks id = some (session, again)

instance (locks : AdvisoryLocks Session Id) (session : Session) (id : Id) :
    Decidable (locks.HeldBy session id) :=
  match h : locks id with
  | none => isFalse fun ⟨_, hheld⟩ => by cases h.symm.trans hheld
  | some (holder, again) =>
      if hsame : holder = session then isTrue ⟨again, hsame ▸ h⟩
      else isFalse fun ⟨_, hheld⟩ => hsame (congrArg Prod.fst (Option.some.inj (h.symm.trans hheld)))

variable {locks : AdvisoryLocks Session Id} {session : Session} {id id' : Id}

omit [DecidableEq Session] [DecidableEq Id] in
theorem depth_eq_zero : locks.depth id = 0 ↔ locks id = none := by
  rw [depth]
  cases locks id <;> simp

/-- A lock is acquired when it is free or held by the session itself. -/
theorem tryLock_iff : (locks.tryLock session id).2 = true ↔
    locks id = none ∨ locks.HeldBy session id := by
  rw [tryLock, HeldBy]
  cases h : locks id with
  | none => simp
  | some held =>
      obtain ⟨holder, again⟩ := held
      by_cases hsame : holder = session <;> simp [hsame]

theorem tryLock_depth (h : (locks.tryLock session id).2 = true) :
    (locks.tryLock session id).1.depth id = locks.depth id + 1 := by
  rw [tryLock_iff] at h
  rcases h with hfree | ⟨again, hheld⟩
  · simp [tryLock, depth, hfree]
  · simp [tryLock, depth, hheld]

theorem tryLock_ne (h : id' ≠ id) : (locks.tryLock session id).1 id' = locks id' := by
  rw [tryLock]
  cases locks id with
  | none => exact Function.update_of_ne h ..
  | some held =>
      by_cases hsame : held.1 = session
      · simp [hsame, h]
      · simp [hsame]

theorem unlock_depth (h : locks.HeldBy session id) :
    (locks.unlock session id).depth id + 1 = locks.depth id := by
  obtain ⟨again, hheld⟩ := h
  cases again <;> simp [unlock, depth, hheld]

theorem unlock_of_not_heldBy (h : ¬ locks.HeldBy session id) : locks.unlock session id = locks := by
  rw [unlock]
  cases hlock : locks id with
  | none => rfl
  | some held =>
      refine if_neg ?_
      rintro rfl
      exact h ⟨held.2, hlock⟩

theorem unlock_ne (h : id' ≠ id) : (locks.unlock session id) id' = locks id' := by
  rw [unlock]
  cases locks id with
  | none => rfl
  | some held =>
      by_cases hsame : held.1 = session
      · simp [hsame, h]
      · simp [hsame]

end AdvisoryLocks

end Sql
