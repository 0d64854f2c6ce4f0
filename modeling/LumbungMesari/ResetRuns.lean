import LumbungMesari.PasswordReset

/-!
# Reset tokens are used once

The columns of a user say what the log says: which token the user has, and until when. So the update
of a confirmation is lawful exactly when the row still holds its token, in time. The update does not
ask for that, and what was read before it may have changed.
-/

namespace LumbungMesari.PasswordReset

open Sql
open Prog (onPool)

/-! ### The log -/

section Log

variable {log : List Entry} {e : Entry} {token : String} {userId : Uuid}

theorem current_append (log : List Entry) (e : Entry) (userId : Uuid) :
    current (log ++ [e]) userId =
      if e.userId = userId then e.purpose.issued else current log userId := by
  rw [current, List.filter_append, List.filter_singleton]
  by_cases hsame : e.userId = userId
  · rw [if_pos hsame, decide_eq_true hsame, cond_true, List.getLast?_concat]
    rfl
  · rw [if_neg hsame, decide_eq_false hsame, cond_false, List.append_nil, current]

/-- The change of an entry was made with the token that the user had, and in time. -/
def LawfulChange (log : List Entry) (e : Entry) : Prop := ∀ token, e.changes token = true →
  ∃ expiresAt, current log e.userId = some (token, expiresAt) ∧ e.time ≤ expiresAt

theorem lawful_append : Lawful (log ++ [e]) ↔ Lawful log ∧ LawfulChange log e := by
  constructor
  · intro h
    refine ⟨fun i e' token hi hchanges => ?_, fun token hchanges => ?_⟩
    · obtain ⟨hlt, -⟩ := List.getElem?_eq_some_iff.1 hi
      have htake : (log ++ [e]).take i = log.take i :=
        List.take_append_of_le_length (Nat.le_of_lt hlt)
      rw [← htake]
      exact h i e' token ((List.getElem?_append_left hlt).trans hi) hchanges
    · have hlast := h log.length e token List.getElem?_concat_length hchanges
      rwa [List.take_left] at hlast
  · rintro ⟨h, hlast⟩ i e' token hi hchanges
    rcases Nat.lt_or_ge i log.length with hlt | hge
    · rw [List.getElem?_append_left hlt] at hi
      rw [List.take_append_of_le_length (Nat.le_of_lt hlt)]
      exact h i e' token hi hchanges
    · rw [List.getElem?_append_right hge, List.getElem?_singleton] at hi
      split at hi
      · rename_i hzero
        obtain rfl := Option.some.inj hi
        have hi : i = log.length := by omega
        rw [hi, List.take_left]
        exact hlast token hchanges
      · cases hi

theorem lawful_nil : Lawful [] := fun _ _ _ hi => by cases hi

/-- Changes of the password with a token, and users that have the token, are as many as times it was
stored. -/
theorem Lawful.changes_add_card_le (h : Lawful log) (token : String) (holders : Finset Uuid)
    (hholders : ∀ userId ∈ holders, ∃ expiresAt, current log userId = some (token, expiresAt)) :
    log.countP (Entry.changes token) + holders.card ≤ log.countP (Entry.issues token) := by
  induction log using List.reverseRecOn generalizing holders with
  | nil =>
      have hnone : holders = ∅ := Finset.eq_empty_of_forall_notMem fun userId huser => by
        obtain ⟨expiresAt, hcurrent⟩ := hholders userId huser
        cases hcurrent
      rw [hnone]
      exact Nat.le_refl 0
  | append_singleton log e ih =>
      obtain ⟨hlog, hlast⟩ := lawful_append.1 h
      rw [List.countP_append, List.countP_append, List.countP_singleton, List.countP_singleton]
      -- Only the user of the entry can have got the token by it, or lost it.
      have hothers : ∀ userId ∈ holders.erase e.userId,
          ∃ expiresAt, current log userId = some (token, expiresAt) := by
        intro userId huser
        obtain ⟨hne, huser⟩ := Finset.mem_erase.1 huser
        obtain ⟨expiresAt, hcurrent⟩ := hholders userId huser
        rw [current_append, if_neg (Ne.symm hne)] at hcurrent
        exact ⟨expiresAt, hcurrent⟩
      have herase := Finset.pred_card_le_card_erase (s := holders) (a := e.userId)
      by_cases hchanges : e.changes token = true
      · obtain ⟨expiresAt, hcurrent, -⟩ := hlast token hchanges
        have hissued : e.purpose.issued = none := by
          rw [of_decide_eq_true hchanges]
          rfl
        have hgone : e.userId ∉ holders := by
          intro huser
          obtain ⟨expiresAt, hnew⟩ := hholders e.userId huser
          rw [current_append, if_pos rfl, hissued] at hnew
          cases hnew
        rw [Finset.erase_eq_of_notMem hgone] at hothers
        have hbefore := ih hlog (insert e.userId holders)
          (Finset.forall_mem_insert .. |>.2 ⟨⟨expiresAt, hcurrent⟩, hothers⟩)
        rw [Finset.card_insert_of_notMem hgone] at hbefore
        rw [if_pos hchanges]
        omega
      · have hbefore := ih hlog _ hothers
        rw [if_neg hchanges]
        by_cases huser : e.userId ∈ holders
        · obtain ⟨expiresAt, hnew⟩ := hholders e.userId huser
          rw [current_append, if_pos rfl] at hnew
          have hissues : e.issues token = true := by
            rw [Entry.issues, hnew, Option.any_some, decide_eq_true_eq]
          rw [if_pos hissues]
          omega
        · rw [Finset.erase_eq_of_notMem huser] at hbefore
          omega

/-- Tokens that were stored once each are used once each. -/
theorem singleUse_iff_lawful (hissues : ∀ token, log.countP (Entry.issues token) ≤ 1) :
    SingleUse log ↔ Lawful log := by
  refine ⟨SingleUse.lawful, fun h => ⟨fun token => ?_, h⟩⟩
  have hcount := h.changes_add_card_le token ∅ fun userId huser => absurd huser (by simp)
  exact Nat.le_trans (Nat.le_trans (Nat.le_add_right ..) hcount) (hissues token)

end Log

/-! ### The columns of a user -/

/-- A user has the token that the log says, until then. -/
def Recorded (d : ResetDatabase) : Prop := ∀ id u, d.find id = some u →
  u.passwordResetToken = (current d.log id).map Prod.fst ∧
    u.passwordResetExpiresAt = (current d.log id).map Prod.snd

/-- What an update for a purpose sets the two columns to. -/
structure UpdateUserDto.Serves (data : UpdateUserDto) (purpose : Purpose) : Prop where
  token : data.passwordResetToken = purpose.issued.map Prod.fst
  expiresAt : data.passwordResetExpiresAt = purpose.issued.map Prod.snd

theorem serves_storeToken (token : String) (expiresAt : Timestamp) :
    (storeToken token expiresAt).Serves (.issue token expiresAt) := ⟨rfl, rfl⟩

theorem serves_storePassword (hashedPassword token : String) :
    (storePassword hashedPassword).Serves (.change token) := ⟨rfl, rfl⟩

@[simp] theorem ResetUser.update_id (data : UpdateUserDto) (u : ResetUser) :
    (u.update data).id = u.id := rfl

section Columns

variable {d : ResetDatabase} {u : ResetUser} {data : UpdateUserDto} {purpose : Purpose}
  {token : String}

theorem Recorded.update (h : Recorded d) (hserves : data.Serves purpose) (u : ResetUser) :
    Recorded (d.apply (.update (u.update data) ⟨u.id, purpose, d.clock⟩)) := by
  intro id u' hfind
  have hcurrent := current_append d.log ⟨u.id, purpose, d.clock⟩ id
  change _ = (current (d.log ++ _) id).map Prod.fst ∧ _ = (current (d.log ++ _) id).map Prod.snd
  rw [ResetDatabase.find_update, ResetUser.update_id] at hfind
  rw [hcurrent]
  dsimp only
  split at hfind
  · rename_i hid
    rw [if_pos hid]
    obtain ⟨old, -, rfl⟩ := Option.map_eq_some_iff.1 hfind
    exact ⟨hserves.token, hserves.expiresAt⟩
  · rename_i hid
    rw [if_neg hid]
    exact h id u' hfind

theorem Recorded.inTime_iff (h : Recorded d) (hfind : d.find u.id = some u) :
    inTime (some (u.id, .change token)) d = true ↔
      LawfulChange d.log ⟨u.id, .change token, d.clock⟩ := by
  obtain ⟨htoken, hexpires⟩ := h u.id u hfind
  have hchange : LawfulChange d.log ⟨u.id, .change token, d.clock⟩ ↔
      ∃ expiresAt, current d.log u.id = some (token, expiresAt) ∧ d.clock ≤ expiresAt := by
    constructor
    · exact fun h => h token (decide_eq_true rfl)
    · intro h token' hchanges
      obtain rfl := Purpose.change.inj (of_decide_eq_true hchanges)
      exact h
  rw [hchange, inTime, hfind, Option.all_some, htoken, hexpires, Bool.and_eq_true]
  cases current d.log u.id with
  | none => simp
  | some held => simp [Prod.ext_iff, and_assoc]

end Columns

/-! ### Programs -/

/-- An update of no user writes nothing. -/
def NoUser (label : ResetLabel) (d : ResetDatabase) : Prop :=
  ∀ id purpose, label = some (id, purpose) → d.find id = none

/-- An update of a user for a purpose. -/
def Updates (data : UpdateUserDto) (purpose : Purpose) (label : ResetLabel) (d : ResetDatabase)
    (ws : List ResetWrite) : Prop :=
  ∃ u, d.find u.id = some u ∧ label = some (u.id, purpose) ∧
    ws = [.update (u.update data) ⟨u.id, purpose, d.clock⟩]

/-- What a call commits. -/
def ResetCall.Commits : ResetCall → ResetLabel → ResetDatabase → List ResetWrite → Prop
  | .tick elapsed, label, _, ws => label = none ∧ ws = [.tick elapsed]
  | .requestPasswordReset _ token, label, d, ws =>
      ∃ expiresAt, Updates (storeToken token expiresAt) (.issue token expiresAt) label d ws
  | .confirmPasswordReset token _ _ hashedPassword, label, d, ws =>
      Updates (storePassword hashedPassword) (.change token) label d ws

theorem ResetCall.Commits.ne_nil {x : ResetCall} {label : ResetLabel} {d : ResetDatabase}
    {ws : List ResetWrite} (h : x.Commits label d ws) : ws ≠ [] := by
  cases x with
  | tick elapsed =>
      rw [h.2]
      exact List.cons_ne_nil _ _
  | requestPasswordReset email token =>
      obtain ⟨expiresAt, u, -, -, rfl⟩ := h
      exact List.cons_ne_nil _ _
  | confirmPasswordReset token newPassword confirmPassword hashedPassword =>
      obtain ⟨u, -, -, rfl⟩ := h
      exact List.cons_ne_nil _ _

section Programs

variable {β : Type} {commits : ResetLabel → ResetDatabase → List ResetWrite → Prop}

theorem reads_select (read : ResetDatabase → β) : (onPool (select read)).Reads NoUser :=
  Prog.reads_onPool fun _ => ⟨fun _ _ hlabel => absurd hlabel.symm (Option.some_ne_none _),
    fun _ _ hexec => (Prod.mk.inj (Except.ok.inj hexec)).1.symm⟩

theorem once_updateById (id : Uuid) (data : UpdateUserDto) (purpose : Purpose) :
    (onPool (updateById id data purpose)).Once NoUser (Updates data purpose) := by
  refine Prog.once_onPool fun d => ?_
  cases hfind : d.find id with
  | none =>
      refine .inl ⟨fun id' purpose' hlabel => ?_, fun ws b hexec => ?_⟩
      · cases hlabel
        exact hfind
      · simp only [updateById, statement, hfind] at hexec
        cases hexec
        rfl
  | some u =>
      have hid : u.id = id := (Table.find?_some hfind).2
      subst hid
      refine .inr ⟨[.update (u.update data) ⟨u.id, purpose, d.clock⟩], some (u.update data), ?_, u,
        hfind, rfl, rfl⟩
      simp only [updateById, statement, hfind]

theorem once_update (id : Uuid) (data : UpdateUserDto) (purpose : Purpose) :
    (update id data purpose).Once NoUser (Updates data purpose) := by
  refine (reads_select _).bind_once fun found => ?_
  cases found with
  | none => trivial
  | some _ =>
      refine (once_updateById id data purpose).bind_reads fun result => ?_
      cases result <;> trivial

theorem once_requestPasswordReset (email token : String) :
    (requestPasswordReset email token).Once NoUser fun label d ws =>
      ∃ expiresAt, Updates (storeToken token expiresAt) (.issue token expiresAt) label d ws := by
  refine (reads_select _).bind_once fun found => ?_
  cases found with
  | none => trivial
  | some user =>
      refine (reads_select _).bind_once fun now => ?_
      refine Prog.Once.bind_reads ?_ fun _ => trivial
      exact (once_update user.id _ _).mono fun hupdates => ⟨_, hupdates⟩

theorem once_confirmPasswordReset (token newPassword confirmPassword hashedPassword : String) :
    (confirmPasswordReset token newPassword confirmPassword hashedPassword).Once NoUser
      (Updates (storePassword hashedPassword) (.change token)) := by
  rw [confirmPasswordReset]
  split
  · trivial
  refine (reads_select _).bind_once fun found => ?_
  cases found with
  | none => trivial
  | some user =>
      dsimp only
      split
      · trivial
      · refine (reads_select _).bind_once fun now => ?_
        split
        · trivial
        · exact (once_update user.id _ _).bind_reads fun _ => trivial

theorem once_program (x : ResetCall) : x.program.Once NoUser x.Commits := by
  cases x with
  | tick elapsed => exact Prog.once_onPool fun d => .inr ⟨[.tick elapsed], (), rfl, rfl, rfl⟩
  | requestPasswordReset email token =>
      exact (once_requestPasswordReset email token).bind_reads fun _ => trivial
  | confirmPasswordReset token newPassword confirmPassword hashedPassword =>
      exact (once_confirmPasswordReset token newPassword confirmPassword hashedPassword).bind_reads
        fun _ => trivial

end Programs

/-! ### Runs -/

/-- What holds of the states that fresh tokens lead to. -/
structure Tracked (s : ResetSystem) : Prop where
  once : s.Once NoUser ResetCall.Commits
  recorded : Recorded s.committed
  issues : ∀ token,
    s.committed.log.countP (Entry.issues token) ≤ s.history.countP (ResetCall.draws token)
  drawn : ∀ token, s.calls.countP (ResetCall.draws token) ≤ 1

section Runs

variable {s s' : ResetSystem} {ev : Event Error ResetCall} {d d' : ResetDatabase} {x : ResetCall}
  {label : ResetLabel} {ws : List ResetWrite}

/-- A commit keeps the columns to the log, and issues the token that its call drew. It is lawful
exactly when it is in time. -/
theorem ResetCall.Commits.apply (h : x.Commits label d ws) (hd : Recorded d) :
    Recorded (applyAll d ws) ∧
      (∀ token, (applyAll d ws).log.countP (Entry.issues token) =
        d.log.countP (Entry.issues token) + [x].countP (ResetCall.draws token)) ∧
      (Lawful (applyAll d ws).log ↔ Lawful d.log ∧ inTime label d = true) := by
  cases x with
  | tick elapsed =>
      obtain ⟨rfl, rfl⟩ := h
      exact ⟨hd, fun _ => rfl, (and_iff_left rfl).symm⟩
  | requestPasswordReset email token =>
      obtain ⟨expiresAt, u, hfind, rfl, rfl⟩ := h
      refine ⟨hd.update (serves_storeToken token expiresAt) u, fun token' => ?_, ?_⟩
      · exact List.countP_append
      · refine lawful_append.trans (and_congr_right fun _ => iff_of_true ?_ rfl)
        intro token' hchanges
        cases of_decide_eq_true hchanges
  | confirmPasswordReset token newPassword confirmPassword hashedPassword =>
      obtain ⟨u, hfind, rfl, rfl⟩ := h
      refine ⟨hd.update (serves_storePassword hashedPassword token) u, fun token' => ?_, ?_⟩
      · exact List.countP_append
      · exact lawful_append.trans (and_congr_right fun _ => (hd.inTime_iff hfind).symm)

theorem ResetCall.Commits.password (h : x.Commits label d ws) (id : Uuid)
    (hlog : ∀ e ∈ (applyAll d ws).log, e.userId = id → ∀ token, e.changes token = false) :
    ((applyAll d ws).find id).map (·.password) = (d.find id).map (·.password) := by
  cases x with
  | tick elapsed =>
      obtain ⟨rfl, rfl⟩ := h
      rfl
  | requestPasswordReset email token =>
      obtain ⟨expiresAt, u, hfind, rfl, rfl⟩ := h
      rw [applyAll_cons, applyAll_nil, ResetDatabase.store_apply, ResetDatabase.find_update,
        ResetUser.update_id]
      split
      · rename_i hid
        rw [← hid, hfind]
        rfl
      · rfl
  | confirmPasswordReset token newPassword confirmPassword hashedPassword =>
      obtain ⟨u, hfind, rfl, rfl⟩ := h
      rw [applyAll_cons, applyAll_nil, ResetDatabase.store_apply, ResetDatabase.find_update,
        ResetUser.update_id]
      split
      · rename_i hid
        have hnone := hlog ⟨u.id, .change token, d.clock⟩
          (List.mem_append_right _ (List.mem_singleton_self _)) hid token
        exact absurd hnone (by simp [Entry.changes])
      · rfl

theorem ResetCall.Commits.log_subset (h : x.Commits label d ws) : d.log ⊆ (applyAll d ws).log := by
  cases x with
  | tick elapsed =>
      obtain ⟨rfl, rfl⟩ := h
      exact List.Subset.refl _
  | requestPasswordReset email token =>
      obtain ⟨expiresAt, u, hfind, rfl, rfl⟩ := h
      exact List.subset_append_left ..
  | confirmPasswordReset token newPassword confirmPassword hashedPassword =>
      obtain ⟨u, hfind, rfl, rfl⟩ := h
      exact List.subset_append_left ..

theorem inTime_of_noUser (h : NoUser label d) : inTime label d = true := by
  unfold inTime
  split
  · rename_i id token
    rw [h id _ rfl, Option.all_none]
  · rfl

theorem fresh_step (h : ∀ token, s.calls.countP (ResetCall.draws token) ≤ 1)
    (hfresh : fresh s ev = true) (hstep : s.step ResetCall.program ev = some s') (token : String) :
    s'.calls.countP (ResetCall.draws token) ≤ 1 := by
  rw [Sys.calls_step hstep]
  cases ev with
  | run i => exact h token
  | abort i e => exact h token
  | call x =>
      dsimp only
      rw [List.countP_append, List.countP_singleton]
      split
      · rename_i hdraws
        cases x with
        | tick elapsed => cases hdraws
        | confirmPasswordReset token newPassword confirmPassword hashedPassword => cases hdraws
        | requestPasswordReset email token' =>
            rw [fresh, decide_eq_true_eq] at hfresh
            obtain rfl := of_decide_eq_true hdraws
            omega
      · exact h token

/-- **One step** keeps the columns to the log; it is lawful exactly when it is in time. -/
theorem Tracked.step (h : Tracked s) (hfresh : fresh s ev = true)
    (hstep : s.step ResetCall.program ev = some s') :
    Tracked s' ∧ (Lawful s'.committed.log ↔
      Lawful s.committed.log ∧ s.admits inTime ev = true) := by
  obtain ⟨honce, hmoves⟩ := h.once.step ResetCall.Commits.ne_nil once_program hstep
  have hcalls := fresh_step h.drawn hfresh hstep
  cases hmoves with
  | reads hadmits hcommitted hhistory =>
      rw [hcommitted, hadmits inTime fun _ _ => inTime_of_noUser]
      refine ⟨⟨honce, ?_, fun token => ?_, hcalls⟩, (and_iff_left rfl).symm⟩
      · rw [hcommitted]
        exact h.recorded
      · rw [hcommitted, hhistory]
        exact h.issues token
  | commits hcommits hadmits hcommitted hhistory =>
      obtain ⟨hrecorded, hissues, hlawful⟩ := hcommits.apply h.recorded
      rw [hcommitted, hadmits inTime]
      refine ⟨⟨honce, ?_, fun token => ?_, hcalls⟩, hlawful⟩
      · rw [hcommitted]
        exact hrecorded
      · rw [hcommitted, hhistory, hissues, List.countP_append]
        exact Nat.add_le_add_right (h.issues token) _

/-- A user that the log has no change of has the password of the start. -/
theorem password_of_log {d₀ : ResetDatabase}
    (hrun : Sys.Reach ResetCall.program (Sys.start d₀) s) (id : Uuid)
    (hlog : ∀ e ∈ s.committed.log, e.userId = id → ∀ token, e.changes token = false) :
    (s.committed.find id).map (·.password) = (d₀.find id).map (·.password) := by
  have hall : s.Once NoUser ResetCall.Commits ∧
      ((∀ e ∈ s.committed.log, e.userId = id → ∀ token, e.changes token = false) →
        (s.committed.find id).map (·.password) = (d₀.find id).map (·.password)) := by
    clear hlog
    induction hrun with
    | refl => exact ⟨Sys.once_start _, fun _ => rfl⟩
    | step ev _ _ hstep ih =>
        obtain ⟨honce, hsame⟩ := ih
        obtain ⟨honce', hmoves⟩ := honce.step ResetCall.Commits.ne_nil once_program hstep
        refine ⟨honce', fun hlog => ?_⟩
        cases hmoves with
        | reads _ hcommitted _ =>
            rw [hcommitted] at hlog ⊢
            exact hsame hlog
        | commits hcommits _ hcommitted _ =>
            rw [hcommitted] at hlog ⊢
            rw [hcommits.password id hlog]
            exact hsame fun e he => hlog e (hcommits.log_subset he)
  exact hall.2 hlog

theorem tracked_start {users : Table ResetUser ResetUser.id} {clock : Timestamp}
    (h : ∀ u ∈ users.rows, u.passwordResetToken = none ∧ u.passwordResetExpiresAt = none) :
    Tracked (Sys.start ⟨users, clock, []⟩) where
  once := Sys.once_start _
  recorded _ u hfind := h u (Table.find?_some hfind).1
  issues _ := Nat.le_refl 0
  drawn _ := Nat.zero_le 1

theorem Tracked.singleUse (h : Tracked s) :
    SingleUse s.committed.log ↔ Lawful s.committed.log :=
  singleUse_iff_lawful fun token => ((h.issues token).trans
    (h.once.countP_history_le (ResetCall.draws token))).trans (h.drawn token)

/-- **Reset tokens are single-use** in a run exactly when every password is changed while the row of
the user still holds the token, and not after its expiry. -/
theorem singleUse_iff {users : Table ResetUser ResetUser.id} {clock : Timestamp}
    (hempty : ∀ u ∈ users.rows, u.passwordResetToken = none ∧ u.passwordResetExpiresAt = none)
    {evs : List (Event Error ResetCall)}
    (hrun : (Sys.start ⟨users, clock, []⟩).execWhere ResetCall.program fresh evs = some s) :
    SingleUse s.committed.log ↔
      (Sys.start ⟨users, clock, []⟩).execWhere ResetCall.program
        (fun s ev => fresh s ev && s.admits inTime ev) evs = some s := by
  obtain ⟨htracked, hiff⟩ := Sys.execWhere_iff (J := fun s => Lawful s.committed.log) Tracked.step
    (tracked_start hempty) hrun
  rw [htracked.singleUse, hiff]
  exact and_iff_right lawful_nil

end Runs

/-! ### One confirmation and two -/

def registered : Table ResetUser ResetUser.id :=
  ⟨[⟨3, "andi.setiawan@gmail.com", "member123", none, none⟩], by decide⟩

/-- A token is requested, and its four statements run. -/
def requested : List (Event Error ResetCall) :=
  .call (.requestPasswordReset "andi.setiawan@gmail.com" "token") :: List.replicate 4 (.run 0)

/-- Half an hour passes, and the token is confirmed. -/
def confirmed : List (Event Error ResetCall) := requested ++ [
  .call (.tick 1800000), .run 1,
  .call (.confirmPasswordReset "token" "Rahasia1" "Rahasia1" "hash1"), .run 2, .run 2, .run 2, .run 2]

theorem singleUse_iff_confirmed : ∃ s : ResetSystem,
    (Sys.start ⟨registered, 0, []⟩).execWhere ResetCall.program fresh confirmed = some s ∧
      SingleUse s.committed.log := by
  obtain ⟨s, hs⟩ := Option.isSome_iff_exists.1 (show ((Sys.start ⟨registered, 0, []⟩).execWhere
    ResetCall.program (fun s ev => fresh s ev && s.admits inTime ev) confirmed).isSome = true by
      decide +kernel)
  have hfresh : (Sys.start ⟨registered, 0, []⟩).execWhere ResetCall.program fresh confirmed =
      some s := Sys.execWhere_mono (fun hok => (Bool.and_eq_true_iff.1 hok).1) hs
  exact ⟨s, hfresh, (singleUse_iff (by decide) hfresh).2 hs⟩

/-- Two confirmations read the token before either of them updates the user. -/
def confirmedTwice : List (Event Error ResetCall) := requested ++ [
  .call (.confirmPasswordReset "token" "Rahasia1" "Rahasia1" "hash1"),
  .call (.confirmPasswordReset "token" "Rahasia2" "Rahasia2" "hash2"),
  .run 1, .run 1, .run 1, .run 2, .run 2, .run 2, .run 1, .run 2]

/-- The second one changes the password again, with a token that was consumed. -/
theorem not_singleUse_confirmedTwice : ¬ ∀ evs (s : ResetSystem),
    (Sys.start ⟨registered, 0, []⟩).execWhere ResetCall.program fresh evs = some s →
      SingleUse s.committed.log := by
  intro h
  have hlog : ((Sys.start ⟨registered, 0, []⟩).execWhere ResetCall.program fresh
      confirmedTwice).map (·.committed.log) = some [⟨3, .issue "token" 3600000, 0⟩,
        ⟨3, .change "token", 0⟩, ⟨3, .change "token", 0⟩] := by decide +kernel
  obtain ⟨s, hs, hlog⟩ := Option.map_eq_some_iff.1 hlog
  have honce := (h confirmedTwice s hs).once "token"
  rw [hlog] at honce
  exact absurd honce (by decide)

end LumbungMesari.PasswordReset
