import LumbungMesari.Sql.Errors

/-!
# What calls that run alone return

Running alone is deterministic, so what a program returns can be taken apart: a program returned
exactly when each of its parts did, and then nothing is left open about what they returned. The rule
for errors follows: what comes after a part is only looked at where the part returned.
-/

namespace Sql

variable {D W K L E α β : Type} [Locking W K] [Store D W K]

namespace Prog

/-- A program that runs alone returns a value, in a state and a transaction. -/
def Returns (p : Prog D W K L E α) (d : D) (s : Session W K) (a : α) (d' : D) (s' : Session W K) :
    Prop :=
  p.run d s = (.ok (a, s'), d')

variable {R : E → Prop} {d d' : D} {s s' : Session W K} {a : α} {b : β}

@[simp] theorem returns_pure {a' : α} :
    (Pure.pure a' : Prog D W K L E α).Returns d s a d' s' ↔ a' = a ∧ d = d' ∧ s = s' := by
  change (Except.ok (a', s), d) = (Except.ok (a, s'), d') ↔ _
  simp only [Prod.mk.injEq, Except.ok.injEq]
  tauto

@[simp] theorem returns_throw {e : E} :
    (throw e : Prog D W K L E α).Returns d s a d' s' ↔ False := by
  simp [Returns, run]

theorem returns_bind {p : Prog D W K L E α} {f : α → Prog D W K L E β} :
    (p >>= f).Returns d s b d' s' ↔ ∃ a d₁ s₁, p.Returns d s a d₁ s₁ ∧ (f a).Returns d₁ s₁ b d' s' := by
  simp only [Returns, run_bind]
  constructor
  · intro h
    split at h
    · exact ⟨_, _, _, by assumption, h⟩
    · cases h
  · rintro ⟨a, d₁, s₁, hp, hf⟩
    rw [hp]
    exact hf

theorem returns_inTrx {st : Stmt D W K L E β} : (inTrx st).Returns d s b d' s' ↔
    d = d' ∧ ∃ ws, st.exec (s.view d) = .ok (ws, b) ∧ s' = s.extend ws (st.locks (s.view d)) := by
  simp only [Returns, inTrx, run]
  constructor
  · intro h
    split at h
    · cases h
    · rename_i ws b' hexec
      cases h
      exact ⟨rfl, ws, hexec, rfl⟩
  · rintro ⟨rfl, ws, hexec, rfl⟩
    rw [hexec]

theorem returns_onPool {st : Stmt D W K L E β} : (onPool st).Returns d s b d' s' ↔
    ∃ ws, st.exec d = .ok (ws, b) ∧ d' = applyAll d ws ∧ s' = s := by
  simp only [Returns, onPool, run]
  constructor
  · intro h
    split at h
    · cases h
    · rename_i ws b' hexec
      cases h
      exact ⟨ws, hexec, rfl, rfl⟩
  · rintro ⟨ws, hexec, rfl, rfl⟩
    rw [hexec]

@[simp] theorem returns_commitTrx {u : Unit} :
    (commitTrx : Prog D W K L E Unit).Returns d s u d' s' ↔ s.view d = d' ∧ .idle = s' := by
  simp only [Returns, commitTrx, run, Prod.mk.injEq, Except.ok.injEq, true_and]
  tauto

theorem throws_of_returns {p : Prog D W K L E α} {f : α → Prog D W K L E β}
    (hp : p.Throws R d s) (hf : ∀ a d' s', p.Returns d s a d' s' → (f a).Throws R d' s') :
    (p >>= f).Throws R d s := by
  intro e he
  rw [run_bind] at he
  split at he
  · rename_i a s' d' hrun
    exact hf a d' s' hrun e he
  · rename_i e' d' hrun
    cases he
    exact hp _ (congrArg Prod.fst hrun)

theorem result_eq_ok {p : Prog D W K L E α} :
    p.result d = .ok a ↔ ∃ d' s', p.Returns d .idle a d' s' := by
  simp only [result, Returns]
  constructor
  · intro h
    split at h
    · rename_i hrun
      cases h
      exact ⟨_, _, Prod.ext hrun rfl⟩
    · cases h
  · rintro ⟨d', s', hrun⟩
    rw [hrun]

theorem exists_returns_of_isOk {p : Prog D W K L E α} (h : (p.result d).isOk = true) :
    ∃ a d' s', p.Returns d .idle a d' s' := by
  obtain ⟨a, hresult⟩ := exists_ok_of_isOk h
  obtain ⟨d', s', hreturns⟩ := result_eq_ok.1 hresult
  exact ⟨a, d', s', hreturns⟩

/-- A program returns exactly under a condition that none of its errors leaves and all of its values
need. -/
theorem isOk_iff {P : Prop} {p : Prog D W K L E α} (hthrows : p.Throws (fun _ => ¬P) d .idle)
    (hreturns : ∀ a d' s', p.Returns d .idle a d' s' → P) : (p.result d).isOk = true ↔ P := by
  cases hresult : p.result d with
  | error e => exact iff_of_false Bool.false_ne_true (hthrows.of_result hresult)
  | ok a =>
      obtain ⟨d', s', hp⟩ := result_eq_ok.1 hresult
      exact iff_of_true rfl (hreturns a d' s' hp)

theorem Returns.of_wp {p : Prog D W K L E α} {Q : α → D → Session W K → Prop}
    (h : p.Returns d s a d' s') (hwp : p.wp (alone fun _ _ => True) Q d s) : Q a d' s' := by
  have hQ := run_ok_of_wp (fun _ _ => rfl) (fun _ _ => trivial) hwp (congrArg Prod.fst h)
  rwa [show (p.run d s).2 = d' from congrArg Prod.snd h] at hQ

theorem Returns.after {p : Prog D W K L E α} (h : p.Returns d .idle a d' s') : p.after d = d' :=
  congrArg Prod.snd h

theorem Returns.run_bind {p : Prog D W K L E α} (h : p.Returns d s a d' s')
    (f : α → Prog D W K L E β) : (p >>= f).run d s = (f a).run d' s' := by
  rw [Prog.run_bind, show p.run d s = _ from h]

theorem Throws.exists_returns {p : Prog D W K L E α} (h : p.Throws (fun _ => False) d s) :
    ∃ a d' s', p.Returns d s a d' s' := by
  cases hrun : p.run d s with
  | mk r d' =>
      cases r with
      | error e => exact (h e (congrArg Prod.fst hrun)).elim
      | ok a => exact ⟨a.1, d', a.2, hrun⟩

theorem after_bind_of_error {p : Prog D W K L E α} {e : E} (h : p.result d = .error e)
    (f : α → Prog D W K L E β) : (p >>= f).after d = p.after d := by
  rw [result] at h
  split at h
  · cases h
  · rename_i hrun
    rw [after, after, Prog.run_bind]
    split
    · rename_i hrun'
      rw [hrun'] at hrun
      cases hrun
    · rename_i hrun'
      rw [hrun']

/-- A program without commits that runs alone is what it returns. -/
theorem wp_of_returns {guar : D → D → Prop} {p : Prog D W K L E α} {Q : α → D → Session W K → Prop}
    (hquiet : p.wp (alone fun _ _ => False) (fun _ _ _ => True) d s)
    (h : ∀ a s', p.Returns d s a d s' → Q a d s') : p.wp (alone guar) Q d s := by
  induction p generalizing s with
  | pure a => exact h a s rfl
  | throw e => trivial
  | auto st k ih =>
      intro d' henv ws b hexec hallowed
      obtain rfl : d = d' := henv
      obtain ⟨hws, hrest⟩ := hquiet d rfl ws b hexec trivial
      obtain rfl : ws = [] := by
        by_contra hne
        exact hws hne
      refine ⟨fun hne => absurd rfl hne, ih b hrest fun a s' hk => h a s' ?_⟩
      rw [Returns, run, hexec]
      exact hk
  | stmt st k ih =>
      intro d' henv ws b hexec hallowed
      obtain rfl : d = d' := henv
      refine ih b (hquiet d rfl ws b hexec trivial) fun a s' hk => h a s' ?_
      rw [Returns, run, hexec]
      exact hk
  | commit k ih => exact (hquiet d rfl).1.elim

end Prog

end Sql
