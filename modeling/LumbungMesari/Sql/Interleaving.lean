import LumbungMesari.Sql.Program
import Mathlib.Data.List.Basic

/-!
# Interleaved calls under READ COMMITTED

Any number of calls run at once, one statement of one call at a time. A statement waits while a row
lock it wants conflicts with one another session holds; locks are held until the session commits or
rolls back. A call may be aborted at any point: that is how a deadlock, a lost connection or a
statement timeout shows up.

A statement takes its row locks and runs in one step, in the state in which the last of them is
free. PostgreSQL takes them one by one and, after a wait, looks at the newest version of the row it
waited for; for a statement that addresses its rows by primary key the two are the same, and a
session that holds part of its locks while it waits only blocks others more.
-/

namespace Sql

variable {D W K L E C : Type} [Locking W K] [Store D W K]

section Locks

variable [DecidableEq K]

/-- Some wanted lock conflicts with a held one. -/
def blocked (wanted held : List (K × LockMode)) : Bool :=
  wanted.any fun w => held.any fun h => decide (w.1 = h.1) && w.2.conflicts h.2

theorem blocked_eq_false {wanted held : List (K × LockMode)} :
    blocked wanted held = false ↔
      ∀ k m m', (k, m) ∈ wanted → (k, m') ∈ held → m.conflicts m' = false := by
  simp only [blocked, List.any_eq_false, Bool.not_eq_true, Bool.and_eq_false_imp,
    decide_eq_true_eq, Prod.forall]
  constructor
  · intro h k m m' hw hh
    exact h k m hw k m' hh rfl
  · rintro h k m hw k' m' hh rfl
    exact h k m m' hw hh

theorem LockMode.conflicts_comm (m m' : LockMode) : m.conflicts m' = m'.conflicts m := by
  cases m <;> cases m' <;> rfl

theorem blocked_comm {a b : List (K × LockMode)} (h : blocked a b = false) :
    blocked b a = false := by
  rw [blocked_eq_false] at h ⊢
  intro k m m' hb ha
  rw [LockMode.conflicts_comm]
  exact h k m' m ha hb

theorem blocked_append_left {a b c : List (K × LockMode)} :
    blocked (a ++ b) c = false ↔ blocked a c = false ∧ blocked b c = false := by
  simp only [blocked, List.any_append, Bool.or_eq_false_iff]

theorem blocked_nil_left (a : List (K × LockMode)) : blocked [] a = false := rfl

theorem blocked_nil_right (a : List (K × LockMode)) : blocked a [] = false :=
  blocked_comm (blocked_nil_left a)

/-- A writer's lock keeps every other writer off the row. -/
theorem not_exclusive_of_not_blocked {a b : List (K × LockMode)} (h : blocked a b = false) {k : K}
    {m m' : LockMode} (ha : (k, m) ∈ a) (hm : m.exclusive = true) (hb : (k, m') ∈ b) :
    m'.exclusive = false := by
  by_contra hm'
  rw [Bool.not_eq_false] at hm'
  have hconflict := LockMode.conflicts_of_exclusive hm hm'
  rw [blocked_eq_false.1 h k m m' ha hb] at hconflict
  exact Bool.false_ne_true hconflict

end Locks

/-- One call in flight. It has ended when its program is a value or a thrown error. -/
structure Client (D W K L E C : Type) [Locking W K] [Store D W K] where
  call : C
  prog : Prog D W K L E Unit
  session : Session W K

/-- The committed database, the calls in flight, and the calls that have committed, in the order
of their commits. -/
structure Sys (D W K L E C : Type) [Locking W K] [Store D W K] where
  committed : D
  clients : List (Client D W K L E C)
  history : List C

/-- What can happen next: a new call arrives, a call runs its next statement, a call is aborted. -/
inductive Event (E C : Type) where
  | call (x : C)
  | run (i : ℕ)
  | abort (i : ℕ) (e : E)

namespace Client

def ofCall (program : C → Prog D W K L E Unit) (x : C) : Client D W K L E C :=
  ⟨x, program x, .idle⟩

def fail (cl : Client D W K L E C) (e : E) : Client D W K L E C :=
  ⟨cl.call, .throw e, .idle⟩

/-- The call has ended without an error. -/
def Succeeded (cl : Client D W K L E C) : Prop := cl.prog = .pure ()

/-- The call has ended. -/
def Ended (cl : Client D W K L E C) : Prop :=
  cl.session = .idle ∧ (cl.Succeeded ∨ ∃ e, cl.prog = .throw e)

/-- Whether the call has ended. -/
def ended (cl : Client D W K L E C) : Bool :=
  cl.session.log.isEmpty && cl.session.locks.isEmpty &&
    match cl.prog with
    | .pure _ => true
    | .throw _ => true
    | _ => false

theorem ended_of_ended {cl : Client D W K L E C} (h : cl.ended = true) : cl.Ended := by
  rw [ended, Bool.and_eq_true, Bool.and_eq_true, List.isEmpty_iff, List.isEmpty_iff] at h
  obtain ⟨⟨hlog, hlocks⟩, hprog⟩ := h
  refine ⟨?_, ?_⟩
  · rw [Session.idle, ← hlog, ← hlocks]
  · split at hprog
    · rename_i u hpure
      exact .inl hpure
    · rename_i e hthrow
      exact .inr ⟨e, hthrow⟩
    · cases hprog

variable [DecidableEq K]

/-- The next step of a call: the new committed state, the call after it, and whether the step
committed anything. There is none while the statement waits, and none after the end. -/
def next (cl : Client D W K L E C) (d : D) (others : List (K × LockMode)) :
    Option (D × Client D W K L E C × Bool) :=
  match cl.prog with
  | .pure _ => none
  | .throw e => some (d, cl.fail e, false)
  | .auto st k =>
      if blocked (st.locks d) (cl.session.locks ++ others) then none
      else match st.exec d with
        | .error e => some (d, cl.fail e, false)
        | .ok (ws, b) => some (applyAll d ws, ⟨cl.call, k b, cl.session⟩, !ws.isEmpty)
  | .stmt st k =>
      if blocked (st.locks (cl.session.view d)) others then none
      else match st.exec (cl.session.view d) with
        | .error e => some (d, cl.fail e, false)
        | .ok (ws, b) =>
            some (d, ⟨cl.call, k b, cl.session.extend ws (st.locks (cl.session.view d))⟩, false)
  | .commit k => some (cl.session.view d, ⟨cl.call, k, .idle⟩, true)

/-- Everything a step of a call can be. -/
inductive Next (cl : Client D W K L E C) (d : D) (others : List (K × LockMode)) :
    D → Client D W K L E C → Bool → Prop where
  | fail (e : E) : Next cl d others d (cl.fail e) false
  | auto {β : Type} {st : Stmt D W K L E β} {k : β → Prog D W K L E Unit} {ws : List W} {b : β}
      (hprog : cl.prog = .auto st k)
      (hfree : blocked (st.locks d) (cl.session.locks ++ others) = false)
      (hexec : st.exec d = .ok (ws, b)) :
      Next cl d others (applyAll d ws) ⟨cl.call, k b, cl.session⟩ !ws.isEmpty
  | stmt {β : Type} {st : Stmt D W K L E β} {k : β → Prog D W K L E Unit} {ws : List W} {b : β}
      (hprog : cl.prog = .stmt st k)
      (hfree : blocked (st.locks (cl.session.view d)) others = false)
      (hexec : st.exec (cl.session.view d) = .ok (ws, b)) :
      Next cl d others d
        ⟨cl.call, k b, cl.session.extend ws (st.locks (cl.session.view d))⟩ false
  | commit {k : Prog D W K L E Unit} (hprog : cl.prog = .commit k) :
      Next cl d others (cl.session.view d) ⟨cl.call, k, .idle⟩ true

theorem next_spec {cl cl' : Client D W K L E C} {d d' : D} {others : List (K × LockMode)} {c : Bool}
    (h : cl.next d others = some (d', cl', c)) : cl.Next d others d' cl' c := by
  unfold next at h
  split at h
  · cases h
  · cases h
    exact .fail _
  · rename_i st k hprog
    split at h
    · cases h
    · rename_i hfree
      split at h
      · cases h
        exact .fail _
      · rename_i hexec
        cases h
        exact .auto hprog (by simpa using hfree) hexec
  · rename_i st k hprog
    split at h
    · cases h
    · rename_i hfree
      split at h
      · cases h
        exact .fail _
      · rename_i hexec
        cases h
        exact .stmt hprog (by simpa using hfree) hexec
  · rename_i k hprog
    cases h
    exact .commit hprog

/-- The statement a call is about to run meets a condition on its label and the state it sees. -/
def Admitted (ok : L → D → Prop) (cl : Client D W K L E C) (d : D) : Prop :=
  match cl.prog with
  | .auto st _ => ok st.label d
  | .stmt st _ => ok st.label (cl.session.view d)
  | _ => True

end Client

namespace Sys

def start (d : D) : Sys D W K L E C := ⟨d, [], []⟩

/-- Every call has ended. -/
def Quiescent (s : Sys D W K L E C) : Prop := ∀ cl ∈ s.clients, cl.Ended

theorem quiescent_of_ended {s : Sys D W K L E C} (h : s.clients.all Client.ended = true) :
    s.Quiescent := fun cl hcl => Client.ended_of_ended (List.all_eq_true.1 h cl hcl)

variable [DecidableEq K]

/-- The locks the other calls hold. -/
def othersLocks (s : Sys D W K L E C) (i : ℕ) : List (K × LockMode) :=
  (s.clients.eraseIdx i).flatMap fun cl => cl.session.locks

def step (program : C → Prog D W K L E Unit) (s : Sys D W K L E C) :
    Event E C → Option (Sys D W K L E C)
  | .call x => some { s with clients := s.clients ++ [.ofCall program x] }
  | .run i =>
      match s.clients[i]? with
      | none => none
      | some cl =>
          match cl.next s.committed (s.othersLocks i) with
          | none => none
          | some (d, cl', committed) =>
              some ⟨d, s.clients.set i cl', if committed then s.history ++ [cl.call] else s.history⟩
  | .abort i e =>
      match s.clients[i]? with
      | none => none
      | some cl =>
          match cl.prog with
          | .pure _ => none
          | _ => some { s with clients := s.clients.set i (cl.fail e) }

/-- Whether the statement an event runs meets a condition. -/
def admits (ok : L → D → Bool) (s : Sys D W K L E C) : Event E C → Bool
  | .run i =>
      match s.clients[i]? with
      | none => true
      | some cl =>
          match cl.prog with
          | .auto st _ => ok st.label s.committed
          | .stmt st _ => ok st.label (cl.session.view s.committed)
          | _ => true
  | _ => true

/-- Run a schedule, every statement of which has to meet a condition. -/
def exec (program : C → Prog D W K L E Unit) (ok : L → D → Bool) (s : Sys D W K L E C) :
    List (Event E C) → Option (Sys D W K L E C)
  | [] => some s
  | ev :: evs =>
      if s.admits ok ev then
        match s.step program ev with
        | none => none
        | some s' => s'.exec program ok evs
      else none

/-- The statement an event runs meets a condition. -/
def Admitted (ok : L → D → Prop) (s : Sys D W K L E C) : Event E C → Prop
  | .run i => ∀ cl, s.clients[i]? = some cl → cl.Admitted ok s.committed
  | _ => True

/-- Everything a step of the system can be. -/
inductive Step (program : C → Prog D W K L E Unit) (s : Sys D W K L E C) :
    Event E C → Sys D W K L E C → Prop where
  | call (x : C) :
      Step program s (.call x) { s with clients := s.clients ++ [.ofCall program x] }
  | run {i : ℕ} {cl cl' : Client D W K L E C} {d : D} {c : Bool} (hi : s.clients[i]? = some cl)
      (hnext : cl.Next s.committed (s.othersLocks i) d cl' c) :
      Step program s (.run i)
        ⟨d, s.clients.set i cl', if c then s.history ++ [cl.call] else s.history⟩
  | abort {i : ℕ} {cl : Client D W K L E C} (e : E) (hi : s.clients[i]? = some cl) :
      Step program s (.abort i e) { s with clients := s.clients.set i (cl.fail e) }

theorem step_spec {program : C → Prog D W K L E Unit} {s s' : Sys D W K L E C} {ev : Event E C}
    (h : s.step program ev = some s') : s.Step program ev s' := by
  cases ev with
  | call x =>
      cases h
      exact .call x
  | run i =>
      simp only [step] at h
      split at h
      · cases h
      · rename_i cl hi
        split at h
        · cases h
        · rename_i hnext
          cases h
          exact .run hi (Client.next_spec hnext)
  | abort i e =>
      simp only [step] at h
      split at h
      · cases h
      · rename_i cl hi
        split at h
        · cases h
        · cases h
          exact .abort e hi

/-- The states reachable by statements that meet a condition. -/
inductive Run (program : C → Prog D W K L E Unit) (ok : L → D → Prop) (s₀ : Sys D W K L E C) :
    Sys D W K L E C → Prop where
  | refl : Run program ok s₀ s₀
  | step {s s' : Sys D W K L E C} (ev : Event E C) : Run program ok s₀ s → s.Admitted ok ev →
      s.step program ev = some s' → Run program ok s₀ s'

/-- The reachable states. -/
abbrev Reach (program : C → Prog D W K L E Unit) (s₀ s : Sys D W K L E C) : Prop :=
  Run program (fun _ _ => True) s₀ s

omit [DecidableEq K] in
theorem admitted_true (s : Sys D W K L E C) (ev : Event E C) : s.Admitted (fun _ _ => True) ev := by
  cases ev with
  | call x => trivial
  | run i =>
      intro cl _
      unfold Client.Admitted
      split <;> trivial
  | abort i e => trivial

theorem Run.trans {program : C → Prog D W K L E Unit} {ok : L → D → Prop}
    {s₀ s₁ s₂ : Sys D W K L E C} (h₁ : Run program ok s₀ s₁) (h₂ : Run program ok s₁ s₂) :
    Run program ok s₀ s₂ := by
  induction h₂ with
  | refl => exact h₁
  | step ev _ hok hstep ih => exact ih.step ev hok hstep

omit [DecidableEq K] in
theorem admitted_of_admits {ok : L → D → Bool} {s : Sys D W K L E C} {ev : Event E C}
    (h : s.admits ok ev = true) : s.Admitted (fun l d => ok l d = true) ev := by
  cases ev with
  | call x => trivial
  | abort i e => trivial
  | run i =>
      intro cl hcl
      simp only [admits, hcl] at h
      unfold Client.Admitted
      split <;> simp_all

theorem run_of_exec {program : C → Prog D W K L E Unit} {ok : L → D → Bool}
    {s s' : Sys D W K L E C} {evs : List (Event E C)} (h : s.exec program ok evs = some s') :
    Run program (fun l d => ok l d = true) s s' := by
  induction evs generalizing s with
  | nil =>
      rw [exec, Option.some.injEq] at h
      exact h ▸ .refl
  | cons ev evs ih =>
      rw [exec] at h
      split at h
      · rename_i hok
        split at h
        · cases h
        · rename_i s₁ hstep
          exact (Run.refl.step ev (admitted_of_admits hok) hstep).trans (ih h)
      · cases h

theorem reach_of_exec {program : C → Prog D W K L E Unit} {ok : L → D → Bool}
    {s s' : Sys D W K L E C} {evs : List (Event E C)} (h : s.exec program ok evs = some s') :
    Reach program s s' := by
  have hrun := run_of_exec h
  clear h
  induction hrun with
  | refl => exact .refl
  | @step s₁ s₂ ev _ _ hstep ih => exact ih.step ev (admitted_true s₁ ev) hstep

end Sys

end Sql
