import LumbungMesari.Sql.Interleaving

/-!
# Rely/guarantee reasoning for interleaved calls

A `Protocol` names an invariant of the committed state and what a commit of each call may do, given
the locks the call holds. `Prog.wp` reads a program backwards statement by statement: before every
statement the committed state may have moved by commits of other calls, but only by commits that
the protocol allows and that respect the locks held. If every program meets its weakest
precondition, the invariant holds in every reachable committed state and every commit does what the
protocol says (`Protocol.sound`).

With an environment that never moves the same weakest precondition speaks of calls that run alone
(`Prog.after_keeps`).
-/

namespace Sql

variable {D W K L E C α β : Type} [Locking W K] [Store D W K]

/-- What one call may assume and must provide: how the committed state may move under it while it
holds locks, the statements that are under consideration, and what its own commits may do. -/
structure Contract (D K L : Type) where
  env : List (K × LockMode) → D → D → Prop
  allows : L → D → Prop
  guar : List (K × LockMode) → D → D → Prop

/-- What every proof may use of the environment: it moves in any number of steps, it can do less
under more locks, and it leaves a row alone that is locked by a writer. -/
class Contract.Stable (S : Contract D K L) [Locking W K] [Store D W K] : Prop where
  refl : ∀ l d, S.env l d d
  trans : ∀ {l d₁ d₂ d₃}, S.env l d₁ d₂ → S.env l d₂ d₃ → S.env l d₁ d₃
  mono : ∀ {l l' d d'}, l ⊆ l' → S.env l' d d' → S.env l d d'
  agree : ∀ {l d d' k m}, S.env l d d' → (k, m) ∈ l → LockMode.exclusive m = true →
    Store.agree k d d'

namespace Prog

/-- The weakest precondition of a program: from a committed state and a session, every execution
under the contract commits only what it guarantees and ends, if it ends without an error, in `Q`. -/
def wp (S : Contract D K L) :
    Prog D W K L E α → (α → D → Session W K → Prop) → D → Session W K → Prop
  | pure a, Q, d, s => Q a d s
  | throw _, _, _, _ => True
  | auto st k, Q, d, s => ∀ d', S.env s.locks d d' → ∀ ws b, st.exec d' = .ok (ws, b) →
      S.allows st.label d' → (ws ≠ [] → S.guar (st.locks d') d' (applyAll d' ws)) ∧
        (k b).wp S Q (applyAll d' ws) s
  | stmt st k, Q, d, s => ∀ d', S.env s.locks d d' → ∀ ws b,
      st.exec (s.view d') = .ok (ws, b) → S.allows st.label (s.view d') →
        (k b).wp S Q d' (s.extend ws (st.locks (s.view d')))
  | commit k, Q, d, s => ∀ d', S.env s.locks d d' →
      S.guar s.locks d' (s.view d') ∧ k.wp S Q (s.view d') .idle

variable {S : Contract D K L} {Q Q' : β → D → Session W K → Prop} {d : D} {s : Session W K}

theorem wp_bind {p : Prog D W K L E α} {f : α → Prog D W K L E β} :
    (p.bind f).wp S Q d s ↔ p.wp S (fun a d s => (f a).wp S Q d s) d s := by
  induction p generalizing d s with
  | pure a => rfl
  | throw e => rfl
  | auto st k ih => simp only [bind, wp, ih]
  | stmt st k ih => simp only [bind, wp, ih]
  | commit k ih => simp only [bind, wp, ih]

theorem wp_mono {p : Prog D W K L E β} (hQ : ∀ b d s, Q b d s → Q' b d s)
    (h : p.wp S Q d s) : p.wp S Q' d s := by
  induction p generalizing d s with
  | pure a => exact hQ a d s h
  | throw e => trivial
  | auto st k ih =>
      intro d' henv ws b hexec hok
      exact ⟨(h d' henv ws b hexec hok).1, ih b (h d' henv ws b hexec hok).2⟩
  | stmt st k ih =>
      intro d' henv ws b hexec hok
      exact ih b (h d' henv ws b hexec hok)
  | commit k ih =>
      intro d' henv
      exact ⟨(h d' henv).1, ih (h d' henv).2⟩

/-- A weakest precondition survives what the environment may do, when its postcondition does. -/
theorem wp_env {p : Prog D W K L E β} (htrans : ∀ {l d₁ d₂ d₃}, S.env l d₁ d₂ → S.env l d₂ d₃ →
      S.env l d₁ d₃) (hQ : ∀ b d d' s, S.env s.locks d d' → Q b d s → Q b d' s) {d' : D}
    (henv : S.env s.locks d d') (h : p.wp S Q d s) : p.wp S Q d' s := by
  cases p with
  | pure a => exact hQ a d d' s henv h
  | throw e => trivial
  | auto st k => exact fun d'' henv' => h d'' (htrans henv henv')
  | stmt st k => exact fun d'' henv' => h d'' (htrans henv henv')
  | commit k => exact fun d'' henv' => h d'' (htrans henv henv')

/-! ### Rules for `do` blocks -/

@[simp] theorem wp_pure {a : β} : (Pure.pure a : Prog D W K L E β).wp S Q d s ↔ Q a d s := Iff.rfl

@[simp] theorem wp_throw {e : E} : (throw e : Prog D W K L E β).wp S Q d s ↔ True := Iff.rfl

@[simp] theorem wp_bind' {p : Prog D W K L E α} {f : α → Prog D W K L E β} :
    (p >>= f).wp S Q d s ↔ p.wp S (fun a d s => (f a).wp S Q d s) d s := wp_bind

theorem wp_commitTrx {Q : Unit → D → Session W K → Prop} :
    (commitTrx : Prog D W K L E Unit).wp S Q d s ↔ ∀ d', S.env s.locks d d' →
      S.guar s.locks d' (s.view d') ∧ Q () (s.view d') .idle := Iff.rfl

end Prog

/-- An invariant of the committed state and what a commit of each call may do to it, given the
locks the call holds. -/
structure Protocol (D K L C : Type) where
  inv : D → Prop
  allows : L → D → Prop
  guar : C → List (K × LockMode) → D → D → Prop
  keeps : ∀ {x l d d'}, inv d → guar x l d d' → inv d'

namespace Protocol

variable [DecidableEq K] (P : Protocol D K L C)

/-- A commit of another call, seen by a call that holds `locks`. -/
def Other (locks : List (K × LockMode)) (d d' : D) : Prop :=
  ∃ x, ∃ l : List (K × LockMode), ∃ ws : List W, blocked locks l = false ∧
    (∀ w ∈ ws, needs w ⊆ l) ∧ d' = applyAll d ws ∧ P.inv d ∧ P.guar x l d d'

/-- What may happen to the committed state between two statements of a call that holds `locks`. -/
def Env (locks : List (K × LockMode)) : D → D → Prop := Relation.ReflTransGen (P.Other locks)

def contract (x : C) : Contract D K L := ⟨P.Env, P.allows, P.guar x⟩

variable {P} {locks : List (K × LockMode)} {d d' : D}

theorem Env.refl : P.Env locks d d := Relation.ReflTransGen.refl

theorem Env.trans {d'' : D} (h : P.Env locks d d') (h' : P.Env locks d' d'') : P.Env locks d d'' :=
  Relation.ReflTransGen.trans h h'

theorem Env.stable {p : D → Prop} (hstep : ∀ {d d'}, P.Other locks d d' → p d → p d')
    (h : P.Env locks d d') (hd : p d) : p d' := by
  induction h with
  | refl => exact hd
  | tail _ hother ih => exact hstep hother ih

theorem Env.inv (h : P.Env locks d d') (hd : P.inv d) : P.inv d' :=
  h.stable (p := P.inv) (fun ⟨_, _, _, _, _, _, hinv, hguar⟩ _ => P.keeps hinv hguar) hd

theorem Other.agree {k : K} {m : LockMode} (h : P.Other locks d d') (hk : (k, m) ∈ locks)
    (hm : m.exclusive = true) : Store.agree k d d' := by
  obtain ⟨x, l, ws, hblocked, hneeds, rfl, -, -⟩ := h
  exact agree_applyAll fun w hw m' hm' =>
    not_exclusive_of_not_blocked hblocked hk hm (hneeds w hw hm')

/-- A row a call has locked as a writer does not change under it. -/
theorem Env.agree {k : K} {m : LockMode} (h : P.Env locks d d') (hk : (k, m) ∈ locks)
    (hm : m.exclusive = true) : Store.agree k d d' := by
  induction h with
  | refl => exact Store.agree_refl k d
  | tail _ hother ih => exact Store.agree_trans ih (hother.agree hk hm)

/-- While a call holds a row as a writer that every commit writes, nothing else commits. -/
theorem Env.eq_of_exclusive {k : K} {m : LockMode}
    (hguar : ∀ {x l d d'}, P.guar x l d d' → ∃ m', (k, m') ∈ l ∧ m'.exclusive = true)
    (hk : (k, m) ∈ locks) (hm : m.exclusive = true) (h : P.Env locks d d') : d = d' := by
  refine h.stable (p := fun d₁ => d = d₁) (fun hother _ => ?_) rfl
  obtain ⟨x, l, ws, hblocked, -, -, -, hcommit⟩ := hother
  obtain ⟨m', hk', hm'⟩ := hguar hcommit
  rw [not_exclusive_of_not_blocked hblocked hk hm hk'] at hm'
  cases hm'

theorem Env.mono {locks' : List (K × LockMode)} (hsub : locks ⊆ locks') (h : P.Env locks' d d') :
    P.Env locks d d' := by
  refine Relation.ReflTransGen.mono (r := P.Other locks') ?_ _ _ h
  rintro d₁ d₂ ⟨x, l, ws, hblocked, hrest⟩
  refine ⟨x, l, ws, ?_, hrest⟩
  rw [blocked_eq_false] at hblocked ⊢
  exact fun k m m' hk => hblocked k m m' (hsub hk)

instance (x : C) : (P.contract x).Stable where
  refl _ _ := Env.refl
  trans := Env.trans
  mono := Env.mono
  agree h hk hm := Env.agree h hk hm

variable {program : C → Prog D W K L E Unit} {s s' s₀ : Sys D W K L E C}

/-- What holds of a state of the running system: the invariant; that no two sessions hold
conflicting locks; that every session has locked what it has written; that the rest of every call
meets its contract. -/
structure Good (P : Protocol D K L C) (s : Sys D W K L E C) : Prop where
  inv : P.inv s.committed
  compatible : ∀ {i j : ℕ} {cl cl' : Client D W K L E C}, i ≠ j →
    s.clients[i]? = some cl → s.clients[j]? = some cl' →
    blocked cl.session.locks cl'.session.locks = false
  covered : ∀ cl ∈ s.clients, ∀ w ∈ cl.session.log, needs w ⊆ cl.session.locks
  safe : ∀ cl ∈ s.clients, cl.prog.wp (P.contract cl.call) (fun _ _ _ => True) s.committed
    cl.session

/-- What one step of the system does to the committed state and the history. -/
def Moves (P : Protocol D K L C) (s s' : Sys D W K L E C) : Prop :=
  (s'.committed = s.committed ∧ s'.history = s.history) ∨
    ∃ cl ∈ s.clients, ∃ l, P.guar cl.call l s.committed s'.committed ∧
      s'.history = s.history ++ [cl.call]

omit [DecidableEq K] in
theorem mem_othersLocks {i j : ℕ} {cl : Client D W K L E C} (hij : i ≠ j)
    (hj : s.clients[j]? = some cl) {km : K × LockMode} (hkm : km ∈ cl.session.locks) :
    km ∈ s.othersLocks i := by
  refine List.mem_flatMap.2 ⟨cl, ?_, hkm⟩
  rw [List.mem_iff_getElem?]
  rcases Nat.lt_or_gt_of_ne hij with hlt | hgt
  · exact ⟨j - 1, by rw [List.getElem?_eraseIdx_of_ge (by omega), Nat.sub_add_cancel (by omega), hj]⟩
  · exact ⟨j, by rw [List.getElem?_eraseIdx_of_lt hgt, hj]⟩

theorem not_blocked_of_othersLocks {i j : ℕ} {cl : Client D W K L E C}
    {wanted : List (K × LockMode)} (h : blocked wanted (s.othersLocks i) = false) (hij : i ≠ j)
    (hj : s.clients[j]? = some cl) : blocked wanted cl.session.locks = false := by
  rw [blocked_eq_false] at h ⊢
  intro k m m' hw hm'
  exact h k m m' hw (mem_othersLocks hij hj hm')

omit [DecidableEq K] in
theorem getElem?_set_cases {cls : List (Client D W K L E C)} {i j : ℕ}
    {cl cl' : Client D W K L E C} (h : (cls.set i cl')[j]? = some cl) :
    (j = i ∧ cl = cl') ∨ (j ≠ i ∧ cls[j]? = some cl) := by
  rw [List.getElem?_set] at h
  split at h
  · rename_i hij
    split at h
    · exact .inl ⟨hij.symm, (Option.some.inj h).symm⟩
    · cases h
  · rename_i hij
    exact .inr ⟨Ne.symm hij, h⟩

/-- A step of one client keeps the system good, when the others can live with what it did to the
committed state, and its own session and program stay in order. -/
theorem Good.set (hgood : Good P s) {i : ℕ} {cl cl' : Client D W K L E C} {d' : D} {h' : List C}
    (hi : s.clients[i]? = some cl) (hinv : P.inv d')
    (hothers : ∀ j cl₁, j ≠ i → s.clients[j]? = some cl₁ → P.Env cl₁.session.locks s.committed d')
    (hlocks : ∀ j cl₁, j ≠ i → s.clients[j]? = some cl₁ →
      blocked cl'.session.locks cl₁.session.locks = false)
    (hcovered : ∀ w ∈ cl'.session.log, needs w ⊆ cl'.session.locks)
    (hsafe : cl'.prog.wp (P.contract cl'.call) (fun _ _ _ => True) d' cl'.session) :
    Good P ⟨d', s.clients.set i cl', h'⟩ where
  inv := hinv
  compatible := by
    intro j₁ j₂ cl₁ cl₂ hne h₁ h₂
    rcases getElem?_set_cases h₁ with ⟨rfl, rfl⟩ | ⟨hj₁, hold₁⟩
    · rcases getElem?_set_cases h₂ with ⟨rfl, -⟩ | ⟨hj₂, hold₂⟩
      · exact absurd rfl hne
      · exact hlocks j₂ cl₂ hj₂ hold₂
    · rcases getElem?_set_cases h₂ with ⟨rfl, rfl⟩ | ⟨hj₂, hold₂⟩
      · exact blocked_comm (hlocks j₁ cl₁ hj₁ hold₁)
      · exact hgood.compatible hne hold₁ hold₂
  covered := by
    intro cl₁ hmem
    obtain ⟨j, hj⟩ := List.mem_iff_getElem?.1 hmem
    rcases getElem?_set_cases hj with ⟨-, rfl⟩ | ⟨-, hj⟩
    · exact hcovered
    · exact hgood.covered cl₁ (List.mem_of_getElem? hj)
  safe := by
    intro cl₁ hmem
    obtain ⟨j, hj⟩ := List.mem_iff_getElem?.1 hmem
    rcases getElem?_set_cases hj with ⟨-, rfl⟩ | ⟨hne, hj⟩
    · exact hsafe
    · exact Prog.wp_env (S := P.contract cl₁.call) Env.trans (fun _ _ _ _ _ _ => trivial)
        (hothers j cl₁ hne hj) (hgood.safe cl₁ (List.mem_of_getElem? hj))

theorem Good.fail (hgood : Good P s) {i : ℕ} {cl : Client D W K L E C} {e : E} {h' : List C}
    (hi : s.clients[i]? = some cl) : Good P ⟨s.committed, s.clients.set i (cl.fail e), h'⟩ :=
  hgood.set hi hgood.inv (fun _ _ _ _ => Env.refl) (fun _ _ _ _ => blocked_nil_left _)
    (fun _ hw => by cases hw) trivial

theorem Good.call (hgood : Good P s) {x : C}
    (hprog : (program x).wp (P.contract x) (fun _ _ _ => True) s.committed .idle) :
    Good P { s with clients := s.clients ++ [.ofCall program x] } where
  inv := hgood.inv
  compatible := by
    intro i j cl cl' hne hi hj
    rw [List.getElem?_append] at hi hj
    split at hi <;> split at hj
    · exact hgood.compatible hne hi hj
    · rw [List.getElem?_singleton] at hj
      split at hj
      · cases hj
        exact blocked_nil_right _
      · cases hj
    · rw [List.getElem?_singleton] at hi
      split at hi
      · cases hi
        exact blocked_nil_left _
      · cases hi
    · rename_i hi' hj'
      rw [List.getElem?_singleton] at hi hj
      split at hi
      · split at hj
        · omega
        · cases hj
      · cases hi
  covered := by
    intro cl hmem
    rcases List.mem_append.1 hmem with hmem | hmem
    · exact hgood.covered cl hmem
    · rw [List.mem_singleton.1 hmem]
      intro w hw
      cases hw
  safe := by
    intro cl hmem
    rcases List.mem_append.1 hmem with hmem | hmem
    · exact hgood.safe cl hmem
    · rw [List.mem_singleton.1 hmem]
      exact hprog

/-- One admitted step keeps the system good and moves it as the protocol allows. -/
theorem Good.step (hprog : ∀ x d, P.inv d →
      (program x).wp (P.contract x) (fun _ _ _ => True) d .idle)
    (hgood : Good P s) {ev : Event E C} (hok : s.Admitted P.allows ev)
    (hstep : s.step program ev = some s') : Good P s' ∧ Moves P s s' := by
  cases Sys.step_spec hstep with
  | call x => exact ⟨hgood.call (hprog x _ hgood.inv), .inl ⟨rfl, rfl⟩⟩
  | abort e hi => exact ⟨hgood.fail hi, .inl ⟨rfl, rfl⟩⟩
  | @run i cl cl' d' c hi hnext =>
      have hmem : cl ∈ s.clients := List.mem_of_getElem? hi
      have hsafe := hgood.safe cl hmem
      have hallowed := hok cl hi
      cases hnext with
      | fail e => exact ⟨hgood.fail hi, .inl ⟨rfl, rfl⟩⟩
      | @stmt β st k ws b hstmt hfree hexec =>
          rw [hstmt] at hsafe
          simp only [Client.Admitted, hstmt] at hallowed
          refine ⟨hgood.set hi hgood.inv (fun _ _ _ _ => Env.refl) ?_ ?_
            (hsafe s.committed Env.refl ws b hexec hallowed), .inl ⟨rfl, rfl⟩⟩
          · intro j cl₁ hne hj
            exact blocked_append_left.2 ⟨hgood.compatible hne.symm hi hj,
              not_blocked_of_othersLocks hfree hne.symm hj⟩
          · intro w hw
            rcases List.mem_append.1 hw with hw | hw
            · exact List.Subset.trans (hgood.covered cl hmem w hw) (List.subset_append_left ..)
            · exact List.Subset.trans (st.covered hexec w hw) (List.subset_append_right ..)
      | @commit k hcommit =>
          rw [hcommit] at hsafe
          obtain ⟨hguar, hrest⟩ := hsafe s.committed Env.refl
          refine ⟨hgood.set hi (P.keeps hgood.inv hguar) ?_ (fun _ _ _ _ => blocked_nil_left _)
            (fun _ hw => by cases hw) hrest, .inr ⟨cl, hmem, _, hguar, rfl⟩⟩
          intro j cl₁ hne hj
          exact .single ⟨_, _, cl.session.log, hgood.compatible hne hj hi,
            hgood.covered cl hmem, rfl, hgood.inv, hguar⟩
      | @auto β st k ws b hauto hfree hexec =>
          rw [hauto] at hsafe
          have hlocks : ∀ j cl₁, j ≠ i → s.clients[j]? = some cl₁ →
              blocked cl.session.locks cl₁.session.locks = false :=
            fun j cl₁ hne hj => hgood.compatible hne.symm hi hj
          simp only [Client.Admitted, hauto] at hallowed
          obtain ⟨hguar, hrest⟩ := hsafe s.committed Env.refl ws b hexec hallowed
          cases ws with
          | nil =>
              exact ⟨hgood.set hi hgood.inv (fun _ _ _ _ => Env.refl)
                hlocks (hgood.covered cl hmem) hrest, .inl ⟨rfl, rfl⟩⟩
          | cons w ws =>
              have hguar := hguar (List.cons_ne_nil w ws)
              refine ⟨hgood.set hi (P.keeps hgood.inv hguar) ?_
                hlocks (hgood.covered cl hmem) hrest, .inr ⟨cl, hmem, _, hguar, rfl⟩⟩
              intro j cl₁ hne hj
              refine .single ⟨_, _, w :: ws, blocked_comm (not_blocked_of_othersLocks (i := i) ?_
                hne.symm hj), st.covered hexec, rfl, hgood.inv, hguar⟩
              rw [blocked_eq_false] at hfree ⊢
              intro k m m' hw hm'
              exact hfree k m m' hw (List.mem_append_right _ hm')

theorem good_start {d : D} (hd : P.inv d) : Good P (Sys.start d : Sys D W K L E C) where
  inv := hd
  compatible := by
    intro i j cl cl' _ hi
    cases hi
  covered := by
    intro cl hcl
    cases hcl
  safe := by
    intro cl hcl
    cases hcl

/-- **Soundness.** When the program of every call meets its contract, every state reached by
admitted statements satisfies the invariant. -/
theorem sound (hprog : ∀ x d, P.inv d →
      (program x).wp (P.contract x) (fun _ _ _ => True) d .idle)
    (hgood : Good P s₀) (hrun : Sys.Run program P.allows s₀ s) : Good P s := by
  induction hrun with
  | refl => exact hgood
  | step ev _ hok hstep ih => exact (ih.step hprog hok hstep).1

/-- A property of the history and the committed state that every commit allowed by the protocol
keeps holds in every state reached. -/
theorem history_inv (hprog : ∀ x d, P.inv d →
      (program x).wp (P.contract x) (fun _ _ _ => True) d .idle)
    {J : List C → D → Prop} (hJ : ∀ {h x l d d'}, P.inv d → J h d → P.guar x l d d' →
      J (h ++ [x]) d')
    (hgood : Good P s₀) (h₀ : J s₀.history s₀.committed)
    (hrun : Sys.Run program P.allows s₀ s) : J s.history s.committed := by
  induction hrun with
  | refl => exact h₀
  | step ev hrun hok hstep ih =>
      have hgood := sound hprog hgood hrun
      rcases (hgood.step hprog hok hstep).2 with ⟨hd, hh⟩ | ⟨cl, hcl, l, hguar, hh⟩
      · rw [hd, hh]
        exact ih
      · rw [hh]
        exact hJ hgood.inv ih hguar

end Protocol

end Sql
