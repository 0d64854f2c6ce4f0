import LumbungMesari.Sql.Footprint

/-!
# What every statement does

Properties that the statements of a program have one by one, whatever the program decides on in
between. When every statement keeps an invariant of the session it runs in, and a commit may be made
under that invariant, then the program keeps it, alone or among other calls.
-/

namespace Sql

variable {D W K L E C α β : Type} [Locking W K] [Store D W K]

namespace Prog

/-- The statements of a program on the pool have one property, those in its transaction another. -/
def Each (A B : ∀ β, Stmt D W K L E β → Prop) : Prog D W K L E α → Prop
  | pure _ => True
  | throw _ => True
  | auto st k => A _ st ∧ ∀ b, (k b).Each A B
  | stmt st k => B _ st ∧ ∀ b, (k b).Each A B
  | commit k => k.Each A B

variable {A B A' B' : ∀ β, Stmt D W K L E β → Prop} {p : Prog D W K L E α}

theorem Each.bind {f : α → Prog D W K L E β} (hp : p.Each A B) (hf : ∀ a, (f a).Each A B) :
    (p >>= f).Each A B := by
  induction p with
  | pure a => exact hf a
  | throw e => trivial
  | auto st k ih => exact ⟨hp.1, fun b => ih b (hp.2 b)⟩
  | stmt st k ih => exact ⟨hp.1, fun b => ih b (hp.2 b)⟩
  | commit k ih => exact ih hp

theorem each_onPool {st : Stmt D W K L E α} (h : A α st) : (onPool st).Each A B :=
  ⟨h, fun _ => trivial⟩

theorem each_inTrx {st : Stmt D W K L E α} (h : B α st) : (inTrx st).Each A B :=
  ⟨h, fun _ => trivial⟩

theorem each_commitTrx : (commitTrx : Prog D W K L E Unit).Each A B := trivial

theorem Each.mono (hA : ∀ {β} {st : Stmt D W K L E β}, A β st → A' β st)
    (hB : ∀ {β} {st : Stmt D W K L E β}, B β st → B' β st) (hp : p.Each A B) : p.Each A' B' := by
  induction p with
  | pure a => trivial
  | throw e => trivial
  | auto st k ih => exact ⟨hA hp.1, fun b => ih b (hp.2 b)⟩
  | stmt st k ih => exact ⟨hB hp.1, fun b => ih b (hp.2 b)⟩
  | commit k ih => exact ih hp

theorem Each.writes {P : W → Prop} (hp : p.Each (fun _ st => st.Writes P) fun _ st => st.Writes P) :
    p.Writes P := by
  induction p with
  | pure a => trivial
  | throw e => trivial
  | auto st k ih => exact ⟨hp.1, fun b => ih b (hp.2 b)⟩
  | stmt st k ih => exact ⟨hp.1, fun b => ih b (hp.2 b)⟩
  | commit k ih => exact ih hp

/-- What it takes for statements to keep an invariant of a session over the committed state: it
survives the environment, statements on the pool and in the transaction, and it allows a commit. -/
structure SessionInvariant (S : Contract D K L) (A B : ∀ β, Stmt D W K L E β → Prop)
    (I : D → Session W K → Prop) : Prop where
  env : ∀ {d d' s}, S.env s.locks d d' → I d s → I d' s
  auto : ∀ {β d s ws b} {st : Stmt D W K L E β}, A β st → I d s → st.exec d = .ok (ws, b) →
    S.guar (st.locks d) d (applyAll d ws) ∧ I (applyAll d ws) s
  stmt : ∀ {β d s ws b} {st : Stmt D W K L E β}, B β st → I d s → st.exec (s.view d) = .ok (ws, b) →
    I d (s.extend ws (st.locks (s.view d)))
  commit : ∀ {d s}, I d s → S.guar s.locks d (s.view d) ∧ I (s.view d) .idle

/-- A program whose statements keep an invariant of the session keeps it. -/
theorem Each.wp {S : Contract D K L} {I : D → Session W K → Prop} (hI : SessionInvariant S A B I)
    (hp : p.Each A B) {d : D} {s : Session W K} (h : I d s) :
    p.wp S (fun _ d s => I d s) d s := by
  induction p generalizing d s with
  | pure a => exact h
  | throw e => trivial
  | auto st k ih =>
      intro d' henv ws b hexec _
      obtain ⟨hguar, hnext⟩ := hI.auto hp.1 (hI.env henv h) hexec
      exact ⟨fun _ => hguar, ih b (hp.2 b) hnext⟩
  | stmt st k ih =>
      intro d' henv ws b hexec _
      exact ih b (hp.2 b) (hI.stmt hp.1 (hI.env henv h) hexec)
  | commit k ih =>
      intro d' henv
      obtain ⟨hguar, hnext⟩ := hI.commit (hI.env henv h)
      exact ⟨hguar, ih hp hnext⟩

end Prog

/-! ### Invariants that single writes keep -/

/-- In a state of the invariant, the statement makes writes of one kind only. -/
def Stmt.WritesIn (I : D → Prop) (P : W → Prop) (st : Stmt D W K L E β) : Prop :=
  ∀ d ws b, I d → st.exec d = .ok (ws, b) → ∀ w ∈ ws, P w

variable {I : D → Prop} {P : W → Prop}

theorem applyAll_invariant (hI : ∀ {d w}, I d → P w → I (Store.apply d w)) {d : D} (hd : I d)
    {ws : List W} (hws : ∀ w ∈ ws, P w) : I (applyAll d ws) := by
  induction ws generalizing d with
  | nil => exact hd
  | cons w ws ih =>
      exact ih (hI hd (hws w (List.mem_cons_self ..))) fun w' hw' =>
        hws w' (List.mem_cons_of_mem _ hw')

theorem sessionInvariant_writesIn (hI : ∀ {d w}, I d → P w → I (Store.apply d w))
    {S : Contract D K L} (henv : ∀ {l d d'}, S.env l d d' → I d → I d')
    (hguar : ∀ {l d d'}, I d' → S.guar l d d') :
    Prog.SessionInvariant S (fun _ (st : Stmt D W K L E _) => st.WritesIn I P)
      (fun _ (st : Stmt D W K L E _) => st.WritesIn I P)
      (fun d (s : Session W K) => I d ∧ ∀ w ∈ s.log, P w) where
  env hmove h := ⟨henv hmove h.1, h.2⟩
  auto {β d s ws b st} hst h hexec := by
    have hnext : I (applyAll d ws) := applyAll_invariant hI h.1 (hst _ _ _ h.1 hexec)
    exact ⟨hguar hnext, hnext, h.2⟩
  stmt {β d s ws b st} hst h hexec := by
    have hview : I (s.view d) := applyAll_invariant hI h.1 h.2
    exact ⟨h.1, fun w hw => (List.mem_append.1 hw).elim (h.2 w) (hst _ _ _ hview hexec w)⟩
  commit {d s} h := by
    have hview : I (s.view d) := applyAll_invariant hI h.1 h.2
    exact ⟨hguar hview, hview, fun w hw => by cases hw⟩

/-- The rule for invariants that single writes keep: they need no locks. -/
theorem invariant_of_writesIn [DecidableEq K] (hI : ∀ {d w}, I d → P w → I (Store.apply d w))
    {program : C → Prog D W K L E Unit}
    (hprogram : ∀ x, (program x).Each (fun _ st => st.WritesIn I P) fun _ st => st.WritesIn I P)
    {d₀ : D} (h₀ : I d₀) {s : Sys D W K L E C}
    (hreach : Sys.Reach program (Sys.start d₀) s) : I s.committed := by
  let protocol : Protocol D K L C := ⟨I, fun _ _ => True, fun _ _ _ d' => I d', fun _ h => h⟩
  have hprog : ∀ x d, I d →
      (program x).wp (protocol.contract x) (fun _ _ _ => True) d .idle := by
    intro x d hd
    have hsession := sessionInvariant_writesIn (S := protocol.contract x) (E := E) hI
      (fun henv hd => Protocol.Env.inv henv hd) id
    exact Prog.wp_mono (fun _ _ _ _ => trivial)
      ((hprogram x).wp hsession ⟨hd, fun w hw => by cases hw⟩)
  exact (Protocol.sound (P := protocol) hprog (Protocol.good_start h₀) hreach).inv

/-- A statement that keeps a property of the state it runs in. -/
def Stmt.Keeps (I : D → Prop) (st : Stmt D W K L E β) : Prop :=
  ∀ d ws b, I d → st.exec d = .ok (ws, b) → I (applyAll d ws)

/-- The rule for calls that run alone and write in their transaction only. -/
theorem Prog.Each.after_keeps {p : Prog D W K L E α}
    (hp : p.Each (fun _ st => st.Writes fun _ => False) fun _ st => st.Keeps I) {d : D} (hd : I d) :
    I (p.after d) := by
  have hsession : Prog.SessionInvariant (Prog.alone fun _ d' => I d')
      (fun _ (st : Stmt D W K L E _) => st.Writes fun _ => False)
      (fun _ (st : Stmt D W K L E _) => st.Keeps I)
      (fun d (s : Session W K) => I d ∧ I (s.view d)) :=
    { env := fun henv h => by
        obtain rfl := henv
        exact h
      auto := fun {β d s ws b st} hst h hexec => by
        obtain rfl : ws = [] := List.eq_nil_iff_forall_not_mem.2 (hst d ws b hexec)
        exact ⟨h.1, h⟩
      stmt := fun {β d s ws b st} hst h hexec => by
        rw [Session.view_extend]
        exact ⟨h.1, hst _ _ _ h.2 hexec⟩
      commit := fun h => ⟨h.2, h.2, h.2⟩ }
  exact Prog.after_keeps (I := I) (fun _ hd' => hd')
    (Prog.wp_mono (fun _ _ _ _ => trivial) (hp.wp hsession ⟨hd, hd⟩)) hd

end Sql
