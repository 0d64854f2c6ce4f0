import LumbungMesari.Sql.Answers
import LumbungMesari.Sql.Preserves

/-!
# Serializable calls

READ COMMITTED promises little: what a call has read may be out of date by the time it commits. A call
is steady when it holds on to what it has read, by the locks it has taken or because nothing that runs
beside it changes it. Run again in the state that its commit finds, it would do the same. Calls that
do so leave, however they overlap, what those that have committed leave one after another, in the
order of their commits.
-/

namespace Sql

variable {D W K L E C α β : Type} [Locking W K] [Store D W K]

/-- How a state may change beside a session that holds locks, as far as its statements can tell. -/
structure Rely (D W K : Type) [Locking W K] [Store D W K] where
  rel : List (K × LockMode) → D → D → Prop
  refl : ∀ l d, rel l d d
  apply : ∀ {l d d' w}, rel l d d' → needs w ⊆ l → rel l (Store.apply d w) (Store.apply d' w)

theorem Rely.applyAll {R : Rely D W K} {l : List (K × LockMode)} {d d' : D} {ws : List W}
    (h : R.rel l d d') (hws : ∀ w ∈ ws, needs w ⊆ l) :
    R.rel l (applyAll d ws) (applyAll d' ws) := by
  induction ws generalizing d d' with
  | nil => exact h
  | cons w ws ih =>
      exact ih (R.apply h (hws w (List.mem_cons_self ..))) fun w' hw' =>
        hws w' (List.mem_cons_of_mem _ hw')

/-- What a statement has done in a state it would do again, while the locks are held. -/
def Stmt.Repeats (R : Rely D W K) (l : List (K × LockMode)) (st : Stmt D W K L E β) (d : D)
    (ws : List W) (b : β) : Prop :=
  ∀ {l' d'}, l ⊆ l' → R.rel l' d d' → st.exec d' = .ok (ws, b) ∧ st.locks d' = st.locks d

namespace Prog

/-- A program that holds on to what it reads: its statements repeat themselves under the locks that it
has by then, unless it throws after them. It writes nothing on the pool, and what follows a commit is
of one kind. -/
def Steady (R : Rely D W K) (ends : Prog D W K L E α → Prop) :
    List (K × LockMode) → Prog D W K L E α → Prop
  | _, pure _ => True
  | _, throw _ => True
  | l, auto st k => ∀ d ws b, st.exec d = .ok (ws, b) →
      ws = [] ∧ (st.Repeats R l d ws b ∧ (k b).Steady R ends l ∨ ∃ e, k b = throw e)
  | l, stmt st k => ∀ d ws b, st.exec d = .ok (ws, b) →
      st.Repeats R (l ++ st.locks d) d ws b ∧ (k b).Steady R ends (l ++ st.locks d) ∨
        ∃ e, k b = throw e
  | _, commit k => ends k

/-- A part of a transaction, with no commit in it. -/
abbrev Holds (R : Rely D W K) (l : List (K × LockMode)) (p : Prog D W K L E α) : Prop :=
  p.Steady R (fun _ => False) l

/-- A call of one transaction, that only reads after its commit. -/
abbrev Serial (R : Rely D W K) (l : List (K × LockMode)) (p : Prog D W K L E α) : Prop :=
  p.Steady R (fun k => k.Alike (· = ·) k) l

variable {R : Rely D W K} {l l' : List (K × LockMode)} {p : Prog D W K L E α}
  {ends : Prog D W K L E α → Prop}

theorem Steady.mono (hl : l ⊆ l') (hp : p.Steady R ends l) : p.Steady R ends l' := by
  induction p generalizing l l' with
  | pure a => trivial
  | throw e => trivial
  | auto st k ih =>
      intro d ws b hexec
      obtain ⟨hws, hp⟩ := hp d ws b hexec
      exact ⟨hws, hp.imp_left fun h => ⟨fun hl' => h.1 (List.Subset.trans hl hl'), ih b hl h.2⟩⟩
  | stmt st k ih =>
      intro d ws b hexec
      have happend : l ++ st.locks d ⊆ l' ++ st.locks d :=
        List.append_subset.2 ⟨List.subset_append_of_subset_left _ hl, List.subset_append_right ..⟩
      exact (hp d ws b hexec).imp_left fun h =>
        ⟨fun hl' => h.1 (List.Subset.trans happend hl'), ih b happend h.2⟩
  | commit k => exact hp

theorem bind_eq_throw {f : α → Prog D W K L E β} (h : ∃ e, p = throw e) :
    ∃ e, p.bind f = (throw e : Prog D W K L E β) := by
  obtain ⟨e, rfl⟩ := h
  exact ⟨e, rfl⟩

theorem Holds.bind {ends : Prog D W K L E β → Prop} {f : α → Prog D W K L E β} (hp : p.Holds R l)
    (hf : ∀ a, (f a).Steady R ends l) : (p >>= f).Steady R ends l := by
  induction p generalizing l with
  | pure a => exact hf a
  | throw e => trivial
  | auto st k ih =>
      intro d ws b hexec
      obtain ⟨hws, hp⟩ := hp d ws b hexec
      refine ⟨hws, ?_⟩
      rcases hp with ⟨hrepeats, hk⟩ | hthrows
      · exact .inl ⟨hrepeats, ih b hk hf⟩
      · exact .inr (bind_eq_throw hthrows)
  | stmt st k ih =>
      intro d ws b hexec
      rcases hp d ws b hexec with ⟨hrepeats, hk⟩ | hthrows
      · exact .inl ⟨hrepeats, ih b hk fun a => (hf a).mono (List.subset_append_left ..)⟩
      · exact .inr (bind_eq_throw hthrows)
  | commit k => exact absurd hp id

theorem Serial.bind_pure {f : α → β} (hp : p.Serial R l) :
    (p >>= fun a => Pure.pure (f a)).Serial R l := by
  induction p generalizing l with
  | pure a => trivial
  | throw e => trivial
  | auto st k ih =>
      intro d ws b hexec
      obtain ⟨hws, hp⟩ := hp d ws b hexec
      refine ⟨hws, ?_⟩
      rcases hp with ⟨hrepeats, hk⟩ | hthrows
      · exact .inl ⟨hrepeats, ih b hk⟩
      · exact .inr (bind_eq_throw hthrows)
  | stmt st k ih =>
      intro d ws b hexec
      rcases hp d ws b hexec with ⟨hrepeats, hk⟩ | hthrows
      · exact .inl ⟨hrepeats, ih b hk⟩
      · exact .inr (bind_eq_throw hthrows)
  | commit k => exact Alike.bind hp fun a => .pure _

/-- A program that only reads leaves the state alone. -/
theorem Alike.run_eq {q : Prog D W K L E α} (hp : p.Alike (· = ·) q) (d : D) (s : Session W K) :
    (p.run d s).2 = d := by
  induction hp generalizing s with
  | pure a => rfl
  | throw e => rfl
  | read hst hst' next ih =>
      rw [run, hst]
      exact ih rfl s

theorem Alike.wp_true {q : Prog D W K L E α} (hp : p.Alike (· = ·) q) {S : Contract D K L} {d : D}
    {s : Session W K} : p.wp S (fun _ _ _ => True) d s := by
  induction hp generalizing d with
  | pure a => trivial
  | throw e => trivial
  | read hst hst' next ih =>
      intro d' henv ws b hexec hok
      rw [hst, Except.ok.injEq, Prod.mk.injEq] at hexec
      obtain ⟨rfl, rfl⟩ := hexec
      exact ⟨fun hws => absurd rfl hws, ih rfl⟩

/-! ### Serial programs -/

/-- A session has locked what it has written. -/
def Covered (s : Session W K) : Prop := ∀ w ∈ s.log, needs w ⊆ s.locks

section Wp

variable {S : Contract D K L} [S.Stable (W := W)] {d : D} {s : Session W K}

theorem Covered.extend {d : D} {ws : List W} {st : Stmt D W K L E β} {b : β} (hs : Covered s)
    (hexec : st.exec d = .ok (ws, b)) : Covered (s.extend ws (st.locks d)) := by
  intro w hw
  rcases List.mem_append.1 hw with hw | hw
  · exact List.Subset.trans (hs w hw) (List.subset_append_left ..)
  · exact List.Subset.trans (st.covered hexec w hw) (List.subset_append_right ..)

/-- Where the environment does no more than the program relies on, a serial program commits what the
whole call would leave if it ran again, in any state that shows it what `again` asks for. -/
theorem Serial.wp (p₀ : Prog D W K L E β) (again : D → Prop)
    (henv : ∀ {l d d'}, S.env l d d' → R.rel l d d') (hp : p.Serial R l) (hl : l ⊆ s.locks)
    (hs : Covered s)
    (hagain : ∀ d', S.env s.locks d d' → again d' → p₀.after d' = (p.run d' s).2)
    (hguar : ∀ {l d d'}, (again d → d' = p₀.after d) → S.guar l d d') :
    p.wp S (fun _ _ _ => True) d s := by
  induction p generalizing l d s with
  | pure a => trivial
  | throw e => trivial
  | auto st k ih =>
      intro d₁ henv₁ ws b hexec hok
      obtain ⟨rfl, hp⟩ := hp d₁ ws b hexec
      refine ⟨fun hws => absurd rfl hws, ?_⟩
      rcases hp with ⟨hrepeats, hk⟩ | ⟨e, he⟩
      · refine ih b hk hl hs fun d' henv' h => ?_
        rw [hagain d' (Contract.Stable.trans (W := W) henv₁ henv') h, run,
          (hrepeats hl (henv henv')).1]
        rfl
      · rw [he]
        trivial
  | stmt st k ih =>
      intro d₁ henv₁ ws b hexec hok
      rcases hp (s.view d₁) ws b hexec with ⟨hrepeats, hk⟩ | ⟨e, he⟩
      · have hlocks : s.locks ⊆ (s.extend ws (st.locks (s.view d₁))).locks :=
          List.subset_append_left ..
        have hl' : l ++ st.locks (s.view d₁) ⊆ (s.extend ws (st.locks (s.view d₁))).locks :=
          List.append_subset.2 ⟨List.Subset.trans hl hlocks, List.subset_append_right ..⟩
        refine ih b hk hl' (hs.extend hexec) fun d' henv' h => ?_
        have hview := R.applyAll (henv henv') fun w hw => List.Subset.trans (hs w hw) hlocks
        obtain ⟨hexec', hlocks'⟩ := hrepeats hl' hview
        have henv₂ : S.env s.locks d₁ d' := Contract.Stable.mono (W := W) hlocks henv'
        change st.exec (s.view d') = _ at hexec'
        change st.locks (s.view d') = _ at hlocks'
        rw [hagain d' (Contract.Stable.trans (W := W) henv₁ henv₂) h, run, hexec']
        change ((k b).run d' (s.extend ws (st.locks (s.view d')))).2 = _
        rw [hlocks']
      · rw [he]
        trivial
  | commit k =>
      intro d₁ henv₁
      refine ⟨hguar fun h => ?_, hp.wp_true⟩
      rw [hagain d₁ henv₁ h, run, hp.run_eq]

/-- The same where the commits of the program are known to find what `again` asks for. -/
theorem Serial.wp_again (p₀ : Prog D W K L E β) (again : D → Prop) {Q : α → D → Session W K → Prop}
    (henv : ∀ {l d d'}, S.env l d d' → R.rel l d d') (hp : p.Serial R l) (hl : l ⊆ s.locks)
    (hs : Covered s) (hagain : ∀ d', S.env s.locks d d' → again d' → p₀.after d' = (p.run d' s).2)
    (hcommits : p.wp (S.guaranteeing fun _ d _ => again d) Q d s)
    (hguar : ∀ {l d d'}, d' = p₀.after d → S.guar l d d') : p.wp S (fun _ _ _ => True) d s :=
  wp_of_parts (fun hsame hthen => hguar (hsame hthen))
    (hp.wp (S := S.guaranteeing fun _ d d' => again d → d' = p₀.after d) p₀ again henv hl hs
      hagain id)
    hcommits

/-- A serial call commits what it leaves when it runs alone. -/
theorem Serial.wp_alone (hp : p.Serial R []) (henv : ∀ {l d d'}, S.env l d d' → R.rel l d d')
    (hguar : ∀ {l d d'}, d' = p.after d → S.guar l d d') : p.wp S (fun _ _ _ => True) d .idle :=
  hp.wp p (fun _ => True) henv (List.nil_subset _) (fun _ hw => by cases hw) (fun _ _ _ => rfl)
    fun h => hguar (h trivial)

end Wp

end Prog

/-! ### Runs -/

/-- **Serializability.** If every commit of a call is what the call leaves when it runs alone, then
any overlap of calls leaves what the calls that have committed leave one after another. -/
theorem Protocol.serial [DecidableEq K] {P : Protocol D K L C} {program : C → Prog D W K L E Unit}
    {d₀ : D} {s : Sys D W K L E C}
    (hprog : ∀ x d, P.inv d → (program x).wp (P.contract x) (fun _ _ _ => True) d .idle)
    (hguar : ∀ {x l d d'}, P.guar x l d d' → d' = (program x).after d) (h₀ : P.inv d₀)
    (hrun : Sys.Run program P.allows (Sys.start d₀) s) :
    s.committed = runCalls program d₀ s.history := by
  have hstep : ∀ {h x l d d'}, P.inv d → d = runCalls program d₀ h → P.guar x l d d' →
      d' = runCalls program d₀ (h ++ [x]) := by
    intro h x l d d' _ hd hx
    rw [runCalls_append, ← hd]
    exact hguar hx
  have hstart : (Sys.start d₀ : Sys D W K L E C).committed =
      runCalls program d₀ (Sys.start d₀ : Sys D W K L E C).history := rfl
  exact Protocol.history_inv (J := fun h d => d = runCalls program d₀ h) hprog hstep
    (Protocol.good_start h₀) hstart hrun

end Sql
