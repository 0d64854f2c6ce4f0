import LumbungMesari.Sql.RelyGuarantee

/-!
# Calls that run alone

Running alone is one of the executions a weakest precondition speaks of, so a program verified
against other calls is verified on its own. `History` collects the committed states a sequence of
complete calls goes through.
-/

namespace Sql

variable {D W K L E C α : Type} [Locking W K] [Store D W K]

namespace Prog

/-- A program runs its parts one after another, and stops at the first error. -/
theorem run_bind {β : Type} (p : Prog D W K L E α) (f : α → Prog D W K L E β) (d : D)
    (s : Session W K) : (p >>= f).run d s =
      match p.run d s with
      | (.ok (a, s'), d') => (f a).run d' s'
      | (.error e, d') => (.error e, d') := by
  induction p generalizing d s with
  | pure a => rfl
  | throw e => rfl
  | auto st k ih =>
      change (auto st fun b => (k b).bind f).run d s = _
      rw [run, run]
      cases st.exec d with
      | error e => rfl
      | ok r => exact ih r.2 _ _
  | stmt st k ih =>
      change (stmt st fun b => (k b).bind f).run d s = _
      rw [run, run]
      cases st.exec (s.view d) with
      | error e => rfl
      | ok r => exact ih r.2 _ _
  | commit k ih => exact ih _ _

/-- What is made of the result of a call does not change what the call leaves. -/
theorem after_bind_pure {β : Type} (p : Prog D W K L E α) (f : α → β) (d : D) :
    (p >>= fun a => Pure.pure (f a)).after d = p.after d := by
  rw [after, after, run_bind]
  split
  · rename_i hrun
    rw [hrun]
    rfl
  · rename_i hrun
    rw [hrun]

/-- A contract under which nothing else happens and every statement is under consideration. -/
def alone (guar : D → D → Prop) : Contract D K L := ⟨fun _ d d' => d = d', fun _ _ => True,
  fun _ => guar⟩

instance (guar : D → D → Prop) : (alone guar : Contract D K L).Stable where
  refl _ _ := rfl
  trans := Eq.trans
  mono _ h := h
  agree h _ _ := h ▸ Store.agree_refl _ _

variable {S : Contract D K L} {Q : α → D → Session W K → Prop} {d : D} {s : Session W K}

theorem run_ok_of_wp (henv : ∀ l d, S.env l d d) (hallowed : ∀ l d, S.allows l d)
    {p : Prog D W K L E α} (h : p.wp S Q d s) {a : α} {s' : Session W K}
    (hrun : (p.run d s).1 = .ok (a, s')) : Q a (p.run d s).2 s' := by
  induction p generalizing d s with
  | pure a' =>
      cases hrun
      exact h
  | throw e => cases hrun
  | auto st k ih =>
      rw [run] at hrun ⊢
      split at hrun
      · cases hrun
      · rename_i ws b hexec
        exact ih b (h d (henv _ d) ws b hexec (hallowed _ _)).2 hrun
  | stmt st k ih =>
      rw [run] at hrun ⊢
      split at hrun
      · cases hrun
      · rename_i ws b hexec
        exact ih b (h d (henv _ d) ws b hexec (hallowed _ _)) hrun
  | commit k ih => exact ih (h d (henv _ d)).2 hrun

/-- A complete call that returns, returns in its postcondition. -/
theorem after_of_wp {guar : D → D → Prop} {Q : α → D → Prop} {p : Prog D W K L E α}
    (h : p.wp (alone guar) (fun a d _ => Q a d) d .idle) {a : α} (hresult : p.result d = .ok a) :
    Q a (p.after d) := by
  rw [result] at hresult
  split at hresult
  · rename_i a' s' hrun
    cases hresult
    exact run_ok_of_wp (fun _ _ => rfl) (fun _ _ => trivial) h hrun
  · cases hresult

/-- A property every guaranteed commit keeps survives a call that runs alone, whether it returns
or throws. -/
theorem run_keeps_of_wp (henv : ∀ l d, S.env l d d) (hallowed : ∀ l d, S.allows l d) {I : D → Prop}
    (hguar : ∀ {l d d'}, I d → S.guar l d d' → I d') {p : Prog D W K L E α}
    (h : p.wp S Q d s) (hd : I d) : I (p.run d s).2 := by
  induction p generalizing d s with
  | pure a => exact hd
  | throw e => exact hd
  | auto st k ih =>
      rw [run]
      split
      · exact hd
      · rename_i ws b hexec
        obtain ⟨hws, hrest⟩ := h d (henv _ d) ws b hexec (hallowed _ _)
        refine ih b hrest ?_
        cases ws with
        | nil => exact hd
        | cons w ws => exact hguar hd (hws (List.cons_ne_nil w ws))
  | stmt st k ih =>
      rw [run]
      split
      · exact hd
      · rename_i ws b hexec
        exact ih b (h d (henv _ d) ws b hexec (hallowed _ _)) hd
  | commit k ih =>
      obtain ⟨hcommit, hrest⟩ := h d (henv _ d)
      exact ih hrest (hguar hd hcommit)

/-- The rule for invariants of complete calls. -/
theorem after_keeps {guar : D → D → Prop} {I : D → Prop} (hguar : ∀ {d d'}, I d → guar d d' → I d')
    {p : Prog D W K L E α} (h : p.wp (alone guar) (fun _ _ _ => True) d .idle) (hd : I d) :
    I (p.after d) :=
  run_keeps_of_wp (fun _ _ => rfl) (fun _ _ => trivial) hguar h hd

/-- A transaction that fails before its commit leaves the state as it was. -/
theorem after_bind_commitTrx_of_error {p : Prog D W K L E Unit} {e : E}
    (hquiet : p.wp (alone fun _ _ => False) (fun _ _ _ => True) d .idle)
    (herror : (p >>= fun _ => commitTrx).result d = .error e) :
    (p >>= fun _ => commitTrx).after d = d := by
  have hkept : (p.run d .idle).2 = d := after_keeps (I := (· = d)) (fun _ hfalse => hfalse.elim) hquiet rfl
  rw [result, run_bind] at herror
  rw [after, run_bind]
  cases hrun : p.run d .idle with
  | mk r d' =>
      rw [hrun] at herror hkept
      cases r with
      | error e' => exact hkept
      | ok a => cases herror

end Prog

theorem exists_ok_of_isOk {x : Except E α} (h : x.isOk = true) : ∃ a, x = .ok a := by
  cases x with
  | error e => cases h
  | ok a => exact ⟨a, rfl⟩

/-- The committed state after a sequence of complete calls. -/
def runCalls (program : C → Prog D W K L E Unit) (d : D) (xs : List C) : D :=
  xs.foldl (fun d x => (program x).after d) d

/-- Every call of a sequence returns. -/
def allReturn (program : C → Prog D W K L E Unit) : D → List C → Bool
  | _, [] => true
  | d, x :: xs => ((program x).result d).isOk && allReturn program ((program x).after d) xs

/-- Every call of a sequence meets a condition in the state it is made in. -/
def allMeet (program : C → Prog D W K L E Unit) (P : D → C → Prop) : D → List C → Prop
  | _, [] => True
  | d, x :: xs => P d x ∧ allMeet program P ((program x).after d) xs

theorem runCalls_append (program : C → Prog D W K L E Unit) (d : D) (xs ys : List C) :
    runCalls program d (xs ++ ys) = runCalls program (runCalls program d xs) ys :=
  List.foldl_append ..

/-- The rule for sequences of complete calls: what every call keeps, a sequence keeps. -/
theorem runCalls_keeps {program : C → Prog D W K L E Unit} {I : D → Prop}
    (hstep : ∀ x d, I d → I ((program x).after d)) {d : D} (hd : I d) (xs : List C) :
    I (runCalls program d xs) := by
  induction xs generalizing d with
  | nil => exact hd
  | cons x xs ih => exact ih (hstep x d hd)

theorem allReturn_iff {program : C → Prog D W K L E Unit} {d : D} {xs : List C} :
    allReturn program d xs = true ↔
      allMeet program (fun d x => ((program x).result d).isOk = true) d xs := by
  induction xs generalizing d with
  | nil => exact iff_of_true rfl trivial
  | cons x xs ih => rw [allReturn, Bool.and_eq_true, ih, allMeet]

theorem allMeet_and {program : C → Prog D W K L E Unit} {P Q : D → C → Prop} {d : D} {xs : List C}
    (hP : allMeet program P d xs) (hQ : allMeet program Q d xs) :
    allMeet program (fun d x => P d x ∧ Q d x) d xs := by
  induction xs generalizing d with
  | nil => trivial
  | cons x xs ih => exact ⟨⟨hP.1, hQ.1⟩, ih hP.2 hQ.2⟩

/-- The rule for what every call of a sequence meets: under an invariant, each call passes from one
condition to another. -/
theorem allMeet_of_invariant {program : C → Prog D W K L E Unit} {I : D → Prop} {P Q : D → C → Prop}
    {xs : List C} (hstep : ∀ x ∈ xs, ∀ d, I d → P d x → Q d x ∧ I ((program x).after d)) {d : D}
    (hd : I d) (hxs : allMeet program P d xs) : allMeet program Q d xs := by
  induction xs generalizing d with
  | nil => trivial
  | cons x xs ih =>
      obtain ⟨hQ, hnext⟩ := hstep x (List.mem_cons_self ..) d hd hxs.1
      exact ⟨hQ, ih (fun y hy => hstep y (List.mem_cons_of_mem _ hy)) hnext hxs.2⟩

end Sql
