import LumbungMesari.Sql.Sessions
import Mathlib.Data.List.Count

/-!
# Calls that commit once

A call whose statements are all on the pool, and that has written when it comes to its end in one of
them only, commits at most once. So every call is in the history at most once, and a log that the
commits write follows the history.
-/

namespace Sql

variable {D W K L E C α β : Type} [Locking W K] [Store D W K]

namespace Prog

/-- Every statement is on the pool and writes nothing. What it does instead is said of its label and
the state it runs in. -/
def Reads (quiet : L → D → Prop) : Prog D W K L E α → Prop
  | pure _ => True
  | throw _ => True
  | auto st k => ∀ d, quiet st.label d ∧ ∀ ws b, st.exec d = .ok (ws, b) → ws = [] ∧ (k b).Reads quiet
  | stmt _ _ => False
  | commit _ => False

/-- Every statement is on the pool, and one of them writes at most, as `commits` says. -/
def Once (quiet : L → D → Prop) (commits : L → D → List W → Prop) : Prog D W K L E α → Prop
  | pure _ => True
  | throw _ => True
  | auto st k => ∀ d,
      (quiet st.label d ∧ ∀ ws b, st.exec d = .ok (ws, b) → ws = [] ∧ (k b).Once quiet commits) ∨
        ∃ ws b, st.exec d = .ok (ws, b) ∧ commits st.label d ws ∧ (k b).Reads quiet
  | stmt _ _ => False
  | commit _ => False

variable {quiet : L → D → Prop} {commits : L → D → List W → Prop} {p : Prog D W K L E α}
  {f : α → Prog D W K L E β}

theorem Reads.bind (hp : p.Reads quiet) (hf : ∀ a, (f a).Reads quiet) : (p >>= f).Reads quiet := by
  induction p with
  | pure a => exact hf a
  | throw e => trivial
  | auto st k ih =>
      exact fun d => ⟨(hp d).1, fun ws b hexec => ((hp d).2 ws b hexec).imp_right (ih b)⟩
  | stmt st k => exact hp.elim
  | commit k => exact hp.elim

/-- What is read first does not count. -/
theorem Reads.bind_once (hp : p.Reads quiet) (hf : ∀ a, (f a).Once quiet commits) :
    (p >>= f).Once quiet commits := by
  induction p with
  | pure a => exact hf a
  | throw e => trivial
  | auto st k ih =>
      exact fun d => .inl ⟨(hp d).1, fun ws b hexec => ((hp d).2 ws b hexec).imp_right (ih b)⟩
  | stmt st k => exact hp.elim
  | commit k => exact hp.elim

theorem Reads.once (hp : p.Reads quiet) : p.Once quiet commits := by
  induction p with
  | pure a => trivial
  | throw e => trivial
  | auto st k ih =>
      exact fun d => .inl ⟨(hp d).1, fun ws b hexec => ((hp d).2 ws b hexec).imp_right (ih b)⟩
  | stmt st k => exact hp
  | commit k => exact hp

theorem Once.mono {commits' : L → D → List W → Prop}
    (h : ∀ {l d ws}, commits l d ws → commits' l d ws) (hp : p.Once quiet commits) :
    p.Once quiet commits' := by
  induction p with
  | pure a => trivial
  | throw e => trivial
  | auto st k ih =>
      intro d
      rcases hp d with ⟨hquiet, hread⟩ | ⟨ws, b, hexec, hcommits, hrest⟩
      · exact .inl ⟨hquiet, fun ws b hexec => (hread ws b hexec).imp_right (ih b)⟩
      · exact .inr ⟨ws, b, hexec, h hcommits, hrest⟩
  | stmt st k => exact hp.elim
  | commit k => exact hp.elim

/-- Nothing may be written afterwards. -/
theorem Once.bind_reads (hp : p.Once quiet commits) (hf : ∀ a, (f a).Reads quiet) :
    (p >>= f).Once quiet commits := by
  induction p with
  | pure a => exact (hf a).once
  | throw e => trivial
  | auto st k ih =>
      intro d
      rcases hp d with ⟨hquiet, hread⟩ | ⟨ws, b, hexec, hcommits, hrest⟩
      · exact .inl ⟨hquiet, fun ws b hexec => (hread ws b hexec).imp_right (ih b)⟩
      · exact .inr ⟨ws, b, hexec, hcommits, hrest.bind hf⟩
  | stmt st k => exact hp.elim
  | commit k => exact hp.elim

theorem reads_onPool {st : Stmt D W K L E α} (h : ∀ d, quiet st.label d ∧
    ∀ ws b, st.exec d = .ok (ws, b) → ws = []) : (onPool st).Reads quiet :=
  fun d => ⟨(h d).1, fun ws b hexec => ⟨(h d).2 ws b hexec, trivial⟩⟩

theorem once_onPool {st : Stmt D W K L E α} (h : ∀ d,
      (quiet st.label d ∧ ∀ ws b, st.exec d = .ok (ws, b) → ws = []) ∨
        ∃ ws b, st.exec d = .ok (ws, b) ∧ commits st.label d ws) :
    (onPool st).Once quiet commits := by
  intro d
  rcases h d with ⟨hquiet, hread⟩ | ⟨ws, b, hexec, hcommits⟩
  · exact .inl ⟨hquiet, fun ws b hexec => ⟨hread ws b hexec, trivial⟩⟩
  · exact .inr ⟨ws, b, hexec, hcommits, trivial⟩

end Prog

namespace Sys

variable {quiet : L → D → Prop} {commits : C → L → D → List W → Prop}
  {program : C → Prog D W K L E Unit} {s s' : Sys D W K L E C}

/-- The call is still to commit, if it does. -/
def Pending (quiet : L → D → Prop) (cl : Client D W K L E C) : Prop := ¬ cl.prog.Reads quiet

open Classical in
/-- Every call commits once at most, and those in the history are no longer pending. -/
structure Once (quiet : L → D → Prop) (commits : C → L → D → List W → Prop)
    (s : Sys D W K L E C) : Prop where
  idle : ∀ cl ∈ s.clients, cl.session = .idle
  prog : ∀ cl ∈ s.clients, cl.prog.Once quiet (commits cl.call)
  history : ∀ q : C → Bool,
    s.history.countP q + s.clients.countP (fun cl => q cl.call && decide (Pending quiet cl)) ≤
      s.clients.countP fun cl => q cl.call

theorem once_start (d : D) : Once quiet commits (start d : Sys D W K L E C) where
  idle _ hcl := absurd hcl List.not_mem_nil
  prog _ hcl := absurd hcl List.not_mem_nil
  history _ := Nat.le_refl 0

/-- The calls that were made, in the order in which they arrived. -/
def calls (s : Sys D W K L E C) : List C := s.clients.map (·.call)

/-- A call is in the history at most as often as it was made. -/
theorem Once.countP_history_le (h : s.Once quiet commits) (q : C → Bool) :
    s.history.countP q ≤ s.calls.countP q := by
  rw [calls, List.countP_map]
  exact Nat.le_trans (Nat.le_add_right ..) (h.history q)

/-- Everything that a step can do where every call commits once. -/
inductive Moves (quiet : L → D → Prop) (commits : C → L → D → List W → Prop)
    (s : Sys D W K L E C) (ev : Event E C) (s' : Sys D W K L E C) : Prop where
  | reads (admits : ∀ ok : L → D → Bool, (∀ l d, quiet l d → ok l d = true) → s.admits ok ev = true)
      (committed : s'.committed = s.committed) (history : s'.history = s.history)
  | commits {x : C} {l : L} {ws : List W} (hcommits : commits x l s.committed ws)
      (admits : ∀ ok : L → D → Bool, s.admits ok ev = ok l s.committed)
      (committed : s'.committed = applyAll s.committed ws) (history : s'.history = s.history ++ [x])

theorem Once.set (h : s.Once quiet commits) {i : ℕ} {cl : Client D W K L E C}
    (cl' : Client D W K L E C) (hi : s.clients[i]? = some cl) (hcall : cl'.call = cl.call)
    (hidle : cl'.session = .idle) (hprog : cl'.prog.Once quiet (commits cl.call)) {d : D} {xs : List C}
    (hhistory : (xs = s.history ∧ (Pending quiet cl' → Pending quiet cl)) ∨
      (xs = s.history ++ [cl.call] ∧ Pending quiet cl ∧ ¬ Pending quiet cl')) :
    Once quiet commits ⟨d, s.clients.set i cl', xs⟩ where
  idle cl₁ hcl₁ := by
    rcases List.mem_or_eq_of_mem_set hcl₁ with hmem | rfl
    · exact h.idle cl₁ hmem
    · exact hidle
  prog cl₁ hcl₁ := by
    rcases List.mem_or_eq_of_mem_set hcl₁ with hmem | rfl
    · exact h.prog cl₁ hmem
    · rw [hcall]
      exact hprog
  history q := by
    classical
    obtain ⟨hlt, rfl⟩ := List.getElem?_eq_some_iff.1 hi
    have hcount := h.history q
    have hmem : s.clients[i] ∈ s.clients := List.getElem_mem hlt
    have hpos : (q s.clients[i].call && decide (Pending quiet s.clients[i])) = true →
        0 < s.clients.countP fun cl => q cl.call && decide (Pending quiet cl) :=
      fun hq => List.countP_pos_iff.2 ⟨_, hmem, hq⟩
    have hpos' : q s.clients[i].call = true → 0 < s.clients.countP fun cl => q cl.call :=
      fun hq => List.countP_pos_iff.2 ⟨_, hmem, hq⟩
    simp only [List.countP_set hlt, hcall]
    cases hq : q s.clients[i].call with
    | false =>
        rcases hhistory with ⟨rfl, -⟩ | ⟨rfl, -, -⟩
        all_goals simp only [List.countP_append, List.countP_singleton, hq, Bool.false_and,
          Bool.false_eq_true, if_false]
        all_goals omega
    | true =>
        have hq' := hpos' hq
        rw [hq, Bool.true_and, decide_eq_true_eq] at hpos
        rcases hhistory with ⟨rfl, hpending⟩ | ⟨rfl, hpending, hdone⟩
        · by_cases hnew : Pending quiet cl'
          · have := hpos (hpending hnew)
            simp only [hnew, hpending hnew, Bool.true_and, decide_true, if_true]
            omega
          · simp only [hnew, Bool.true_and, decide_false, Bool.false_eq_true, if_false, if_true]
            omega
        · have := hpos hpending
          simp only [List.countP_append, List.countP_singleton, hq, hpending, hdone, Bool.true_and,
            decide_true, decide_false, Bool.false_eq_true, if_false, if_true]
          omega

theorem Once.call (h : s.Once quiet commits) {x : C} (hprog : (program x).Once quiet (commits x)) :
    Once quiet commits { s with clients := s.clients ++ [.ofCall program x] } where
  idle cl hcl := by
    rcases List.mem_append.1 hcl with hmem | hmem
    · exact h.idle cl hmem
    · rw [List.mem_singleton.1 hmem]
      rfl
  prog cl hcl := by
    rcases List.mem_append.1 hcl with hmem | hmem
    · exact h.prog cl hmem
    · rw [List.mem_singleton.1 hmem]
      exact hprog
  history q := by
    have hcount := h.history q
    simp only [List.countP_append, List.countP_singleton]
    split
    · rename_i hnew
      rw [Bool.and_eq_true] at hnew
      rw [if_pos hnew.1]
      omega
    · omega

theorem not_pending_fail {cl : Client D W K L E C} {e : E} : ¬ Pending quiet (cl.fail e) :=
  fun h => h trivial

theorem Once.fail (h : s.Once quiet commits) {i : ℕ} {cl : Client D W K L E C}
    (hi : s.clients[i]? = some cl) (e : E) :
    Once quiet commits ⟨s.committed, s.clients.set i (cl.fail e), s.history⟩ :=
  h.set (cl.fail e) hi rfl rfl trivial
    (.inl ⟨rfl, fun hnew => absurd hnew not_pending_fail⟩)

variable [DecidableEq K]

theorem calls_step {ev : Event E C} (hstep : s.step program ev = some s') :
    s'.calls = match ev with
      | .call x => s.calls ++ [x]
      | _ => s.calls := by
  have hset : ∀ {i : ℕ} {cl cl' : Client D W K L E C}, s.clients[i]? = some cl →
      cl'.call = cl.call → (s.clients.set i cl').map (·.call) = s.calls := by
    intro i cl cl' hi hcall
    obtain ⟨hlt, rfl⟩ := List.getElem?_eq_some_iff.1 hi
    rw [List.map_set, hcall]
    refine List.ext_getElem? fun j => ?_
    rw [List.getElem?_set]
    split
    · rename_i hij
      subst hij
      simp [calls, hlt]
    · rfl
  cases step_spec hstep with
  | call x => simp [calls, Client.ofCall]
  | abort e hi => exact hset hi rfl
  | run hi hnext =>
      cases hnext with
      | fail e => exact hset hi rfl
      | auto | stmt | commit => exact hset hi rfl

theorem Once.run (hcommits : ∀ {x l d ws}, commits x l d ws → ws ≠ []) (h : s.Once quiet commits)
    {i : ℕ} {cl cl' : Client D W K L E C} {d : D} {c : Bool} (hi : s.clients[i]? = some cl)
    (hnext : cl.next s.committed (s.othersLocks i) = some (d, cl', c)) :
    Once quiet commits
        ⟨d, s.clients.set i cl', if c then s.history ++ [cl.call] else s.history⟩ ∧
      Moves quiet commits s (.run i)
        ⟨d, s.clients.set i cl', if c then s.history ++ [cl.call] else s.history⟩ := by
  have hmem : cl ∈ s.clients := List.mem_of_getElem? hi
  have hidle := h.idle cl hmem
  have honce := h.prog cl hmem
  cases hprog : cl.prog with
  | pure a =>
      simp only [Client.next, hprog] at hnext
      cases hnext
  | throw e =>
      simp only [Client.next, hprog] at hnext
      cases hnext
      exact ⟨h.fail hi e, .reads (fun ok _ => by simp only [admits, hi, hprog]) rfl rfl⟩
  | stmt st k =>
      rw [hprog] at honce
      exact honce.elim
  | commit k =>
      rw [hprog] at honce
      exact honce.elim
  | @auto β st k =>
      have hadmits : ∀ ok : L → D → Bool, s.admits ok (.run i) = ok st.label s.committed := by
        intro ok
        simp only [admits, hi, hprog]
      rw [hprog] at honce
      simp only [Client.next, hprog] at hnext
      split at hnext
      · cases hnext
      rcases honce s.committed with ⟨hquiet, hread⟩ | ⟨ws, b, hexec, hws, hrest⟩
      · have hreads : ∀ ok : L → D → Bool, (∀ l d, quiet l d → ok l d = true) →
            s.admits ok (.run i) = true := fun ok hok => (hadmits ok).trans (hok _ _ hquiet)
        split at hnext
        · cases hnext
          exact ⟨h.fail hi _, .reads hreads rfl rfl⟩
        · rename_i ws b hexec
          obtain ⟨rfl, hrest⟩ := hread ws b hexec
          cases hnext
          refine ⟨h.set ⟨cl.call, k b, cl.session⟩ hi rfl hidle hrest
            (.inl ⟨rfl, fun hnew hold => hnew ?_⟩), .reads hreads rfl rfl⟩
          rw [hprog] at hold
          exact ((hold s.committed).2 [] b hexec).2
      · have hne := List.isEmpty_eq_false_iff.2 (hcommits hws)
        rw [hexec] at hnext
        cases hnext
        rw [hne]
        refine ⟨h.set ⟨cl.call, k b, cl.session⟩ hi rfl hidle hrest.once
          (.inr ⟨rfl, fun hold => ?_, fun hnew => hnew hrest⟩),
          .commits hws hadmits rfl rfl⟩
        rw [hprog] at hold
        exact hcommits hws ((hold s.committed).2 ws b hexec).1

/-- One step: a statement reads, or a call commits. -/
theorem Once.step (hcommits : ∀ {x l d ws}, commits x l d ws → ws ≠ [])
    (hprogram : ∀ x, (program x).Once quiet (commits x)) (h : s.Once quiet commits)
    {ev : Event E C} (hstep : s.step program ev = some s') :
    s'.Once quiet commits ∧ Moves quiet commits s ev s' := by
  cases ev with
  | call x =>
      cases hstep
      exact ⟨h.call (hprogram x), .reads (fun _ _ => rfl) rfl rfl⟩
  | abort i e =>
      simp only [Sys.step] at hstep
      split at hstep
      · cases hstep
      · rename_i cl hi
        split at hstep
        · cases hstep
        · cases hstep
          exact ⟨h.fail hi e, .reads (fun _ _ => rfl) rfl rfl⟩
  | run i =>
      simp only [Sys.step] at hstep
      split at hstep
      · cases hstep
      · rename_i cl hi
        split at hstep
        · cases hstep
        · rename_i hnext
          cases hstep
          exact h.run hcommits hi hnext

end Sys

end Sql
