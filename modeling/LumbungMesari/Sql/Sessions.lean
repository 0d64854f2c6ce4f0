import LumbungMesari.Sql.Footprint
import Mathlib.Data.List.Perm.Basic

/-!
# Sessions side by side

Contracts speak of committed states. A property that depends on what other sessions have written and
not committed needs to know what a session writes on top of what it has written before, and runs
whose steps meet a condition on the whole system.

Autocommit is a transaction of one statement. `auto` runs and commits it at once, which hides the
sessions that run between the two; `split` takes the two apart.
-/

namespace Sql

variable {D W K L E C α β : Type} [Locking W K] [Store D W K]

namespace Prog

/-! ### Autocommit in two steps -/

/-- Every statement on the pool as a transaction of its own. -/
def split : Prog D W K L E α → Prog D W K L E α
  | pure a => pure a
  | throw e => throw e
  | auto st k => stmt st fun b => commit (k b).split
  | stmt st k => stmt st fun b => (k b).split
  | commit k => commit k.split

theorem split_bind (p : Prog D W K L E α) (f : α → Prog D W K L E β) :
    (p >>= f).split = p.split >>= fun a => (f a).split := by
  induction p with
  | pure a => rfl
  | throw e => rfl
  | auto st k ih => exact congrArg (stmt st) (funext fun b => congrArg commit (ih b))
  | stmt st k ih => exact congrArg (stmt st) (funext ih)
  | commit k ih => exact congrArg commit ih

/-- Every statement is on the pool, so none runs while a transaction is open. -/
def OnPool : Prog D W K L E α → Prop
  | pure _ => True
  | throw _ => True
  | auto _ k => ∀ b, (k b).OnPool
  | stmt _ _ => False
  | commit _ => False

/-- Nobody sees the difference who runs alone. -/
theorem run_split {p : Prog D W K L E α} (hp : p.OnPool) (d : D) :
    p.split.run d .idle = p.run d .idle := by
  induction p generalizing d with
  | pure a => rfl
  | throw e => rfl
  | auto st k ih =>
      rw [split, run, run, Session.view_idle]
      cases st.exec d with
      | error e => rfl
      | ok r =>
          dsimp only
          rw [run, Session.view_extend, Session.view_idle]
          exact ih r.2 (hp r.2) _
  | stmt st k => exact hp.elim
  | commit k => exact hp.elim

theorem wp_split_onPool {S : Contract D K L} {Q : β → D → Session W K → Prop} {d : D}
    {s : Session W K} {st : Stmt D W K L E β} : (onPool st).split.wp S Q d s ↔
    ∀ d', S.env s.locks d d' → ∀ ws b, st.exec (s.view d') = .ok (ws, b) →
      S.allows st.label (s.view d') → ∀ d'', S.env (s.locks ++ st.locks (s.view d')) d' d'' →
        S.guar (s.locks ++ st.locks (s.view d')) d''
            ((s.extend ws (st.locks (s.view d'))).view d'') ∧
          Q b ((s.extend ws (st.locks (s.view d'))).view d'') .idle := Iff.rfl

/-! ### What a session writes on top of what -/

/-- Whatever the states its statements see: each writes as `R` allows on top of the log of its
session, and the program returns with a log in `Q`. -/
def logs (R : List W → D → List W → Prop) :
    Prog D W K L E α → (α → List W → Prop) → List W → Prop
  | pure a, Q, log => Q a log
  | throw _, _, _ => True
  | auto st k, Q, log => ∀ v ws b, st.exec v = .ok (ws, b) → R log v ws ∧ (k b).logs R Q log
  | stmt st k, Q, log => ∀ v ws b, st.exec v = .ok (ws, b) →
      R log v ws ∧ (k b).logs R Q (log ++ ws)
  | commit k, Q, _ => k.logs R Q []

variable {R : List W → D → List W → Prop} {P : W → Prop}

theorem logs_bind {p : Prog D W K L E α} {f : α → Prog D W K L E β} {Q : β → List W → Prop}
    {log : List W} :
    (p >>= f).logs R Q log ↔ p.logs R (fun a log => (f a).logs R Q log) log := by
  induction p generalizing log with
  | pure a => rfl
  | throw e => rfl
  | auto st k ih => exact forall₄_congr fun v ws b _ => and_congr_right fun _ => ih b
  | stmt st k ih => exact forall₄_congr fun v ws b _ => and_congr_right fun _ => ih b
  | commit k ih => exact ih

theorem Writes.logs (hR : ∀ {log v ws}, (∀ w ∈ ws, P w) → R log v ws) {p : Prog D W K L E α}
    (hp : p.Writes P) {log : List W} : p.logs R (fun _ _ => True) log := by
  induction p generalizing log with
  | pure a => trivial
  | throw e => trivial
  | auto st k ih => exact fun v ws b hexec => ⟨hR (hp.1 v ws b hexec), ih b (hp.2 b)⟩
  | stmt st k ih => exact fun v ws b hexec => ⟨hR (hp.1 v ws b hexec), ih b (hp.2 b)⟩
  | commit k ih => exact ih hp

end Prog

/-- The state that the next statement of a call sees, and what it writes there. -/
def Client.writes (cl : Client D W K L E C) (d : D) : Option (D × List W) :=
  match cl.prog with
  | .auto st _ => (st.exec d).toOption.map fun r => (d, r.1)
  | .stmt st _ => (st.exec (cl.session.view d)).toOption.map fun r => (cl.session.view d, r.1)
  | _ => none

namespace Sys

/-- Every call keeps to what it may write, and its log is one of those that come of it. -/
structure Logged (R : C → List W → D → List W → Prop) (T : C → List W → Prop)
    (s : Sys D W K L E C) : Prop where
  prog : ∀ cl ∈ s.clients, cl.prog.logs (R cl.call) (fun _ _ => True) cl.session.log
  log : ∀ cl ∈ s.clients, T cl.call cl.session.log

section

variable [DecidableEq K] {program : C → Prog D W K L E Unit} {R : C → List W → D → List W → Prop}
  {T : C → List W → Prop} {s s' : Sys D W K L E C}

omit [DecidableEq K] in
theorem Logged.set (h : s.Logged R T) {i : ℕ} {cl : Client D W K L E C} {d : D} {xs : List C}
    (hprog : cl.prog.logs (R cl.call) (fun _ _ => True) cl.session.log)
    (hlog : T cl.call cl.session.log) : Logged R T ⟨d, s.clients.set i cl, xs⟩ where
  prog cl' hcl' := by
    rcases List.mem_or_eq_of_mem_set hcl' with hmem | rfl
    · exact h.prog cl' hmem
    · exact hprog
  log cl' hcl' := by
    rcases List.mem_or_eq_of_mem_set hcl' with hmem | rfl
    · exact h.log cl' hmem
    · exact hlog

theorem Logged.step (hprogram : ∀ x, (program x).logs (R x) (fun _ _ => True) [])
    (hnil : ∀ x, T x []) (happend : ∀ {x log v ws}, T x log → R x log v ws → T x (log ++ ws))
    (h : s.Logged R T) {ev : Event E C} (hstep : s.step program ev = some s') :
    s'.Logged R T := by
  cases step_spec hstep with
  | call x =>
      refine ⟨fun cl hcl => ?_, fun cl hcl => ?_⟩
      all_goals rcases List.mem_append.1 hcl with hmem | hmem
      · exact h.prog cl hmem
      · rw [List.mem_singleton.1 hmem]
        exact hprogram x
      · exact h.log cl hmem
      · rw [List.mem_singleton.1 hmem]
        exact hnil x
  | abort e hi => exact h.set trivial (hnil _)
  | @run i cl cl' d c hi hnext =>
      have hmem : cl ∈ s.clients := List.mem_of_getElem? hi
      have hlogs := h.prog cl hmem
      have hlog := h.log cl hmem
      cases hnext with
      | fail e => exact h.set trivial (hnil _)
      | auto hprog hfree hexec =>
          rw [hprog] at hlogs
          exact h.set (hlogs _ _ _ hexec).2 hlog
      | stmt hprog hfree hexec =>
          rw [hprog] at hlogs
          obtain ⟨hws, hrest⟩ := hlogs _ _ _ hexec
          exact h.set hrest (happend hlog hws)
      | commit hprog =>
          rw [hprog] at hlogs
          exact h.set hlogs (hnil _)

omit [DecidableEq K] in
theorem logged_start (d : D) : Logged R T (start d : Sys D W K L E C) :=
  ⟨fun _ hcl => absurd hcl List.not_mem_nil, fun _ hcl => absurd hcl List.not_mem_nil⟩

/-! ### Runs under a condition on the system -/

/-- The states reachable by steps that meet a condition on the system before them. -/
inductive RunWhere (program : C → Prog D W K L E Unit) (ok : Sys D W K L E C → Event E C → Bool)
    (s₀ : Sys D W K L E C) : Sys D W K L E C → Prop where
  | refl : RunWhere program ok s₀ s₀
  | step {s s' : Sys D W K L E C} (ev : Event E C) : RunWhere program ok s₀ s → ok s ev = true →
      s.step program ev = some s' → RunWhere program ok s₀ s'

/-- Run a schedule, every step of which has to meet a condition. -/
def execWhere (program : C → Prog D W K L E Unit) (ok : Sys D W K L E C → Event E C → Bool)
    (s : Sys D W K L E C) : List (Event E C) → Option (Sys D W K L E C)
  | [] => some s
  | ev :: evs =>
      if ok s ev then (s.step program ev).bind fun s' => s'.execWhere program ok evs else none

variable {ok : Sys D W K L E C → Event E C → Bool}

theorem RunWhere.head {s₁ s₂ s₃ : Sys D W K L E C} {ev : Event E C} (hok : ok s₁ ev = true)
    (hstep : s₁.step program ev = some s₂) (h : RunWhere program ok s₂ s₃) :
    RunWhere program ok s₁ s₃ := by
  induction h with
  | refl => exact RunWhere.refl.step ev hok hstep
  | step ev' _ hok' hstep' ih => exact ih.step ev' hok' hstep'

theorem runWhere_of_execWhere {evs : List (Event E C)} (h : s.execWhere program ok evs = some s') :
    RunWhere program ok s s' := by
  induction evs generalizing s with
  | nil =>
      rw [execWhere, Option.some.injEq] at h
      exact h ▸ .refl
  | cons ev evs ih =>
      rw [execWhere] at h
      split at h
      · rename_i hok
        obtain ⟨s₁, hstep, hrest⟩ := Option.bind_eq_some_iff.1 h
        exact .head hok hstep (ih hrest)
      · cases h

theorem execWhere_mono {ok' : Sys D W K L E C → Event E C → Bool}
    (hok : ∀ {s ev}, ok s ev = true → ok' s ev = true) {evs : List (Event E C)}
    (h : s.execWhere program ok evs = some s') : s.execWhere program ok' evs = some s' := by
  induction evs generalizing s with
  | nil => exact h
  | cons ev evs ih =>
      rw [execWhere] at h ⊢
      split at h
      · rename_i hev
        obtain ⟨s₁, hstep, hrest⟩ := Option.bind_eq_some_iff.1 h
        rw [if_pos (hok hev), hstep]
        exact ih hrest
      · cases h

/-- The rule for a property that, under an invariant, each step keeps exactly when it meets a second
condition. -/
theorem execWhere_iff {ok' : Sys D W K L E C → Event E C → Bool} {I J : Sys D W K L E C → Prop}
    (hI : ∀ {s s' ev}, I s → ok s ev = true → s.step program ev = some s' →
      I s' ∧ (J s' ↔ J s ∧ ok' s ev = true))
    (hs : I s) {evs : List (Event E C)} (h : s.execWhere program ok evs = some s') :
    I s' ∧ (J s' ↔ J s ∧ s.execWhere program (fun s ev => ok s ev && ok' s ev) evs = some s') := by
  induction evs generalizing s with
  | nil =>
      rw [execWhere, Option.some.injEq] at h
      rw [← h, execWhere, eq_self, and_true]
      exact ⟨hs, Iff.rfl⟩
  | cons ev evs ih =>
      rw [execWhere] at h
      split at h
      · rename_i hok
        obtain ⟨s₁, hstep, hrest⟩ := Option.bind_eq_some_iff.1 h
        obtain ⟨hs₁, hkeeps⟩ := hI hs hok hstep
        obtain ⟨hs', hiff⟩ := ih hs₁ hrest
        refine ⟨hs', ?_⟩
        rw [hiff, hkeeps, and_assoc, execWhere, hok, Bool.true_and]
        refine and_congr_right fun _ => ?_
        cases ok' s ev with
        | false => simp
        | true => simp [hstep]
      · cases h

end

end Sys

end Sql
