import LumbungMesari.Auth
import LumbungMesari.Footprints
import LumbungMesari.Seeds

/-!
# One-time passwords

A sequence of registrations, logins, resends and verifications, with the OTP that was last issued to
every user kept beside the database. What a user row holds is what was issued last; but `findById`
does not select `otp_expires_at`, so a verification never learns when a code expires.
-/

namespace LumbungMesari

open Sql
open Prog (inTrx onPool commitTrx)

@[simp] theorem User.selectWithRole_id (u : User) : u.selectWithRole.id = u.id := rfl

@[simp] theorem User.selectById_id (u : User) : u.selectById.id = u.id := rfl

/-! ### Statements on users -/

section Statements

variable {d : Database} {s : Trx}

theorem run_findByIdentifierWithRole (identifier : String) :
    (findByIdentifierWithRole identifier).run d s = (.ok (((d.rows .users).find? fun u =>
      u.email = identifier ∨ u.username = identifier).map User.selectWithRole, s), d) := rfl

theorem run_findUserById (id : Uuid) : (findUserById id).run d s =
    (.ok ((d.find .users id).map User.selectById, s), d) := rfl

theorem run_updateUser {id : Uuid} {u : User} (hfound : d.find .users id = some u)
    (data : UpdateUserDto) : (updateUser id data).run d s =
      (.ok (u.update data, s), d.apply (.update .users (u.update data))) := by
  have hexec : (updateById .other .users id fun u => .ok (u.update data)).exec d =
      .ok ([.update .users (u.update data)], some (u.update data)) := by
    simp only [updateById, statement, hfound]
    rfl
  rw [updateUser, Prog.run_bind]
  simp only [onPool, Prog.run, hexec]
  rfl

theorem run_usersServiceUpdate {id : Uuid} {u : User} (hfound : d.find .users id = some u)
    (data : UpdateUserDto) : (usersServiceUpdate id data).run d s =
      (.ok (u.update data, s), d.apply (.update .users (u.update data))) := by
  rw [usersServiceUpdate, Prog.run_bind, run_findUserById, hfound]
  exact run_updateUser hfound data

theorem run_usersServiceUpdateInTrx {id : Uuid} {u : User} (hfound : d.find .users id = some u)
    (data : UpdateUserDto) : ∃ l, (usersServiceUpdateInTrx id data).run d .idle =
      (.ok (u.update data, Session.idle.extend [.update .users (u.update data)] l), d) := by
  have hexec : (updateById .other .users id fun u => .ok (u.update data)).exec d =
      .ok ([.update .users (u.update data)], some (u.update data)) := by
    simp only [updateById, statement, hfound]
    rfl
  have hfind : (findUserByIdInTrx id).run d .idle = (.ok (some u.selectById, .idle), d) := by
    rw [← Option.map_some, ← hfound]
    rfl
  refine ⟨(updateById .other .users id fun u => .ok (u.update data)).locks d, ?_⟩
  rw [usersServiceUpdateInTrx, Prog.run_bind, hfind]
  dsimp only
  rw [updateUserInTrx, updateOrThrow, Prog.run_bind]
  simp only [inTrx, Prog.run, Session.view_idle, hexec]
  rfl

theorem run_calculatePrincipalSavingsAmount (configured : Option ℚ) : ∃ amount l,
    (calculatePrincipalSavingsAmount configured).run d s = (.ok (amount, s.extend [] l), d) := by
  rw [calculatePrincipalSavingsAmount, Prog.run_bind]
  change ∃ amount l, (getActiveMemberCount >>= _ : Program ℚ).run d _ = _
  rw [Prog.run_bind]
  change ∃ amount l, (ite _ _ _ : Program ℚ).run d _ = _
  rw [extend_extend]
  split
  · exact ⟨_, _, rfl⟩
  · exact ⟨_, _, rfl⟩

theorem run_createPrincipalSavings (id userId : Uuid) (configured : Option ℚ) :
    (∃ e, (createPrincipalSavings id userId configured).run d s = (.error e, d)) ∨
      ∃ s' row, (createPrincipalSavings id userId configured).run d s = (.ok ((), s'), d) ∧
        s'.view d = (s.view d).apply (.insert .principalSavings row) := by
  obtain ⟨amount, l, hamount⟩ := run_calculatePrincipalSavingsAmount (d := d) (s := s) configured
  rw [createPrincipalSavings, Prog.run_bind, hamount]
  dsimp only
  rw [Prog.run_bind]
  cases hexec : (insertInto .principalSavings (newPrincipalSavings id userId amount)).exec
      ((s.extend [] l).view d) with
  | error e =>
      refine .inl ⟨e, ?_⟩
      simp only [inTrx, Prog.run, hexec]
  | ok r =>
      obtain ⟨ws, row⟩ := r
      obtain ⟨row', -, hinsert⟩ := bind_ok hexec
      obtain ⟨ws', hinsert, hret⟩ := bind_ok hinsert
      cases hret
      obtain ⟨-, rfl⟩ := insertRow_plain (by decide) hinsert
      refine .inr ⟨_, row, by simp only [inTrx, Prog.run, hexec]; rfl, ?_⟩
      rw [Session.view_extend, Session.view_extend_nil]
      rfl

end Statements

/-! ### What a call can do -/

/-- Everything a call can do to the users. -/
inductive AuthEffect (env : AuthEnv) (d : Database) : Except Error Answer → Database → Prop where
  | refused (e : Error) : AuthEffect env d (.error e) d
  | answered (response : AuthResponse) : AuthEffect env d (.ok (response, none)) d
  | registered {response : AuthResponse} {u : User} (fresh : d.find .users u.id = none)
      (code : u.otpCode = some (generateOtp env.draw))
      (expires : u.otpExpiresAt = some (getOtpExpirationTime env.now)) :
      AuthEffect env d (.ok (response, some ⟨u.id, generateOtp env.draw⟩))
        (d.apply (.insert .users u))
  | reissued {response : AuthResponse} {u : User} (found : d.find .users u.id = some u) :
      AuthEffect env d (.ok (response, some ⟨u.id, generateOtp env.draw⟩))
        (d.apply (.update .users (u.update (newOtp env))))
  | verified {response : AuthResponse} {u : User} (row : PrincipalSavings)
      (found : d.find .users u.id = some u) :
      AuthEffect env d (.ok (response, none))
        ((d.apply (.update .users (u.update verification))).apply (.insert .principalSavings row))

variable {d : Database} {env : AuthEnv} {compare : String → String → Bool}

/-- What an execution leaves and answers. -/
def Outcome (env : AuthEnv) (d : Database) (x : Except Error (Answer × Trx) × Database) : Prop :=
  AuthEffect env d (x.1.map Prod.fst) x.2

theorem login_effect (identifier inputPassword : String) :
    Outcome env d ((login compare env identifier inputPassword).run d .idle) := by
  rw [login, Prog.run_bind, run_findByIdentifierWithRole]
  cases hfind : (d.rows .users).find? fun u => u.email = identifier ∨ u.username = identifier with
  | none => exact .refused _
  | some u =>
      have hfound : d.find .users u.id = some u := Table.find?_of_mem (List.mem_of_find?_eq_some hfind)
      dsimp only [Option.map_some]
      split
      · exact .refused _
      · split
        · rw [Prog.run_bind, User.selectWithRole_id, run_usersServiceUpdate hfound]
          exact .reissued hfound
        · exact .answered _

theorem run_findByIdIncludeOtp {userId : Uuid} {s : Trx} :
    (findByIdIncludeOtp userId).run d s =
      match d.find .users userId with
      | none => (.error userNotFoundException, d)
      | some u => (.ok (u.selectById, s), d) := by
  rw [findByIdIncludeOtp, Prog.run_bind, run_findUserById]
  cases d.find .users userId <;> rfl

theorem resendOtp_effect (userId : Uuid) : Outcome env d ((resendOtp env userId).run d .idle) := by
  rw [resendOtp, Prog.run_bind, run_findByIdIncludeOtp]
  cases hfind : d.find .users userId with
  | none => exact .refused _
  | some u =>
      have hfound : d.find .users u.id = some u := Database.find_self hfind
      dsimp only
      split
      · exact .refused _
      · split
        · exact .refused _
        · rw [Prog.run_bind, User.selectById_id, run_usersServiceUpdate hfound]
          exact .reissued hfound

theorem run_createUser (id : Uuid) (user : CreatedUser) {s : Trx} :
    (∃ e, (createUser id user).run d s = (.error e, d)) ∨
      d.find .users id = none ∧ (createUser id user).run d s =
        (.ok (user.toRow id, s), d.apply (.insert .users (user.toRow id))) := by
  have hunique : (∃ e, (validateUserUniqueness user.email user.username).run d s = (.error e, d)) ∨
      (validateUserUniqueness user.email user.username).run d s = (.ok ((), s), d) := by
    rw [validateUserUniqueness, Prog.run_bind]
    change (∃ e, (findUserByUsername user.username >>= _ : Program Unit).run d s = _) ∨
      (findUserByUsername user.username >>= _ : Program Unit).run d s = _
    rw [Prog.run_bind]
    change (∃ e, (ite _ _ _ : Program Unit).run d s = _) ∨ (ite _ _ _ : Program Unit).run d s = _
    split
    · exact .inl ⟨_, rfl⟩
    · split
      · exact .inl ⟨_, rfl⟩
      · exact .inr rfl
  rw [createUser, Prog.run_bind]
  rcases hunique with ⟨e, hrun⟩ | hrun
  · rw [hrun]
    exact .inl ⟨e, rfl⟩
  rw [hrun]
  dsimp only
  cases hexec : (insertInto .users (.ok (user.toRow id))).exec d with
  | error e =>
      refine .inl ⟨e, ?_⟩
      simp only [onPool, Prog.run, hexec]
  | ok r =>
      obtain ⟨ws, row⟩ := r
      obtain ⟨row', hrow, hrest⟩ := bind_ok hexec
      obtain ⟨ws', hinsert, hret⟩ := bind_ok hrest
      cases hrow
      cases hret
      obtain ⟨hinserted, rfl⟩ := insertRow_plain (by decide) hinsert
      refine .inr ⟨hinserted.fresh, ?_⟩
      simp only [onPool, Prog.run, hexec]
      rfl

theorem register_effect (dto : RegisterDto) (hashedPassword : String) :
    Outcome env d ((register env dto hashedPassword).run d .idle) := by
  rw [register]
  split
  · exact .refused _
  · rw [Prog.run_bind]
    rcases run_createUser (d := d) env.id _ with ⟨e, hrun⟩ | ⟨hfresh, hrun⟩
    · rw [hrun]
      exact .refused e
    · rw [hrun]
      exact .registered hfresh rfl rfl

theorem run_verifyOtp (userId : Uuid) (otpCode : String) :
    (∃ e, (verifyOtp env userId otpCode).run d .idle = (.error e, d)) ∨
      ∃ (u : User) (row : PrincipalSavings), d.find .users userId = some u ∧
        checkOtp env.now otpCode u.selectById = .ok () ∧
        (verifyOtp env userId otpCode).run d .idle =
          (.ok ((.verified (u.update verification) "OTP verified successfully!", none), .idle),
            (d.apply (.update .users (u.update verification))).apply
              (.insert .principalSavings row)) := by
  rw [verifyOtp]
  split
  · exact .inl ⟨_, rfl⟩
  rw [Prog.run_bind, run_findByIdIncludeOtp]
  cases hfind : d.find .users userId with
  | none => exact .inl ⟨_, rfl⟩
  | some u =>
      have hfound : d.find .users u.id = some u := Database.find_self hfind
      dsimp only
      cases hcheck : checkOtp env.now otpCode u.selectById with
      | error e => exact .inl ⟨e, rfl⟩
      | ok a =>
          obtain ⟨l, hupdate⟩ := run_usersServiceUpdateInTrx hfound verification
          dsimp only
          rw [Prog.run_bind, User.selectById_id, hupdate]
          dsimp only
          rw [Prog.run_bind]
          rcases run_createPrincipalSavings (d := d)
            (s := Session.idle.extend [.update .users (u.update verification)] l) env.id userId
            env.principalSavingsMinAmount with ⟨e, hrun⟩ | ⟨s', row, hrun, hview⟩
          · rw [hrun]
            exact .inl ⟨e, rfl⟩
          · rw [hrun]
            rw [Session.view_extend] at hview
            exact .inr ⟨u, row, rfl, hcheck, congrArg (Prod.mk _) hview⟩

theorem verifyOtp_effect (userId : Uuid) (otpCode : String) :
    Outcome env d ((verifyOtp env userId otpCode).run d .idle) := by
  rcases @run_verifyOtp d env userId otpCode with
    ⟨e, hrun⟩ | ⟨u, row, hfind, -, hrun⟩
  · rw [hrun]
    exact .refused e
  · rw [hrun]
    exact .verified row (Database.find_self hfind)

/-! ### Runs -/

/-- A call, and what it is made with. -/
structure AuthRequest where
  env : AuthEnv
  call : AuthCall

namespace AuthRequest

def program (compare : String → String → Bool) (request : AuthRequest) : Program Answer :=
  request.call.program compare request.env

theorem effect (request : AuthRequest) (d : Database) : AuthEffect request.env d
    ((request.program compare).result d) ((request.program compare).after d) := by
  have houtcome : Outcome request.env d ((request.program compare).run d .idle) := by
    obtain ⟨env, call⟩ := request
    cases call with
    | register dto hashedPassword => exact register_effect dto hashedPassword
    | login identifier inputPassword => exact login_effect identifier inputPassword
    | resendOtp userId => exact resendOtp_effect userId
    | verifyOtp userId otpCode => exact verifyOtp_effect userId otpCode
  rw [Prog.result, Prog.after]
  rw [Outcome] at houtcome
  cases hrun : ((request.program compare).run d .idle).1 with
  | error e =>
      rw [hrun] at houtcome
      exact houtcome
  | ok r =>
      rw [hrun] at houtcome
      exact houtcome

end AuthRequest

/-- An OTP that was issued, with the expiry that was stored with it. -/
structure Issue where
  otpCode : String
  expiresAt : Timestamp
  deriving DecidableEq

/-- The database, and the OTP last issued to every user. -/
structure OtpState where
  db : Database
  issued : Uuid → Option Issue

namespace OtpState

def start (d : Database) : OtpState := ⟨d, fun _ => none⟩

/-- What an answer adds to the OTPs that were issued. -/
def issues (env : AuthEnv) (issued : Uuid → Option Issue) :
    Except Error Answer → Uuid → Option Issue
  | .ok (_, some mail) => Function.update issued mail.userId
      (some ⟨mail.otpCode, getOtpExpirationTime env.now⟩)
  | _ => issued

def next (compare : String → String → Bool) (s : OtpState) (request : AuthRequest) : OtpState where
  db := (request.program compare).after s.db
  issued := issues request.env s.issued ((request.program compare).result s.db)

def run (compare : String → String → Bool) (s : OtpState) (requests : List AuthRequest) : OtpState :=
  requests.foldl (next compare) s

/-- A code that a user row holds is the one that was issued last, with its expiry. -/
def Recorded (s : OtpState) : Prop :=
  ∀ id u otpCode, s.db.find .users id = some u → u.otpCode = some otpCode →
    ∃ expiresAt, u.otpExpiresAt = some expiresAt ∧ s.issued id = some ⟨otpCode, expiresAt⟩

theorem recorded_start {d : Database} (h : ∀ u ∈ d.rows .users, u.otpCode = none) :
    (start d).Recorded := by
  intro id u otpCode hfind hcode
  rw [h u (Table.find?_some hfind).1] at hcode
  cases hcode

/-- A user row that holds what has just been issued, among others that are as they were. -/
theorem Recorded.issue {s : OtpState} (h : s.Recorded) {d' : Database} (new : User)
    {expiresAt : Timestamp} {otpCode : String} (hcode : new.otpCode = some otpCode)
    (hexpires : new.otpExpiresAt = some expiresAt)
    (hfind : ∀ id, d'.find .users id =
      if new.id = id then some new else s.db.find .users id) :
    Recorded ⟨d', Function.update s.issued new.id (some ⟨otpCode, expiresAt⟩)⟩ := by
  intro id u code hu hucode
  rw [hfind] at hu
  by_cases hid : new.id = id
  · rw [if_pos hid, Option.some.injEq] at hu
    subst hu
    rw [hcode, Option.some.injEq] at hucode
    subst hucode hid
    exact ⟨expiresAt, hexpires, Function.update_self ..⟩
  · rw [if_neg hid] at hu
    obtain ⟨expires, huexpires, hissued⟩ := h id u code hu hucode
    exact ⟨expires, huexpires, (Function.update_of_ne (Ne.symm hid) ..).trans hissued⟩

theorem Recorded.effect {s : OtpState} (h : s.Recorded) {env : AuthEnv}
    {result : Except Error Answer} {d' : Database} (heffect : AuthEffect env s.db result d') :
    Recorded ⟨d', issues env s.issued result⟩ := by
  cases heffect with
  | refused e => exact h
  | answered response => exact h
  | @registered response new fresh code expires =>
      refine h.issue new code expires fun id => ?_
      rw [Database.find_insert]
      by_cases hid : new.id = id
      · rw [if_pos hid, if_pos hid, ← hid, fresh, Option.none_or]
      · rw [if_neg hid, if_neg hid]
  | @reissued response old found =>
      refine h.issue (old.update (newOtp env)) rfl rfl fun id => ?_
      rw [Database.find_update]
      by_cases hid : (old.update (newOtp env)).id = id
      · have hold : s.db.find .users id = some old := hid ▸ found
        rw [if_pos hid, if_pos hid, hold, Option.map_some]
      · rw [if_neg hid, if_neg hid]
  | @verified response old row found =>
      intro id u otpCode hfind hcode
      have hfind : (s.db.apply (.update .users (old.update verification))).find .users id = some u :=
        (Database.find_congr (Database.table_insert_ne (t := .principalSavings) _ (by decide) row)
          id).symm.trans hfind
      rw [Database.find_update] at hfind
      split at hfind
      · rename_i hid
        have hold : s.db.find .users id = some old := hid ▸ found
        rw [hold, Option.map_some, Option.some.injEq] at hfind
        rw [← hfind] at hcode
        cases hcode
      · exact h id u otpCode hfind hcode

theorem Recorded.run {s : OtpState} (h : s.Recorded) (requests : List AuthRequest) :
    (s.run compare requests).Recorded := by
  induction requests generalizing s with
  | nil => exact h
  | cons request requests ih => exact ih (h.effect (request.effect s.db))

end OtpState

/-! ### What a verification sees -/

/-- The time of a verification does not matter to its checks. -/
theorem checkOtp_selectById {now : Timestamp} {otpCode : String} {u : User}
    (h : checkOtp now otpCode u.selectById = .ok ()) :
    u.status = .pending ∧ u.otpCode = some otpCode := by
  have hstatus : u.selectById.status = u.status := rfl
  have hcode : u.selectById.otpCode = u.otpCode := rfl
  simp only [checkOtp, ne_eq, hstatus, hcode] at h
  split at h
  · cases h
  rename_i hpending
  split at h
  · cases h
  split at h
  · cases h
  split at h
  · cases h
  split at h
  · cases h
  rename_i hsame
  exact ⟨not_not.1 hpending, not_not.1 hsame⟩

/-- The user is pending, and the code is the one last issued and has not expired. -/
structure OtpState.Accepts (s : OtpState) (now : Timestamp) (userId : Uuid) (otpCode : String) :
    Prop where
  pending : ∃ u, s.db.find .users userId = some u ∧ u.status = .pending
  issued : ∃ expiresAt, s.issued userId = some ⟨otpCode, expiresAt⟩ ∧ now ≤ expiresAt

/-- A pending user's code is not submitted after the expiry stored with it. -/
def AuthRequest.Timely (d : Database) (request : AuthRequest) : Prop :=
  ∀ userId otpCode, request.call = .verifyOtp userId otpCode →
    ∀ u, d.find .users userId = some u → u.status = .pending → u.otpCode = some otpCode →
      ∀ expiresAt ∈ u.otpExpiresAt, request.env.now ≤ expiresAt

/-- **A verification that succeeds is of a pending user with the code last issued**, and it is in time
exactly when the code was submitted in time: nothing else sees to that. -/
theorem verifyOtp_accepts_iff {d₀ : Database} (h₀ : ∀ u ∈ d₀.rows .users, u.otpCode = none)
    (requests : List AuthRequest) {env : AuthEnv} {userId : Uuid} {otpCode : String}
    {answer : Answer} (haccepted : (verifyOtp env userId otpCode).result
      ((OtpState.start d₀).run compare requests).db = .ok answer) :
    ((OtpState.start d₀).run compare requests).Accepts env.now userId otpCode ↔
      AuthRequest.Timely ((OtpState.start d₀).run compare requests).db
        ⟨env, .verifyOtp userId otpCode⟩ := by
  have hrecorded : ((OtpState.start d₀).run compare requests).Recorded :=
    (OtpState.recorded_start h₀).run requests
  generalize (OtpState.start d₀).run compare requests = s at *
  rw [Prog.result] at haccepted
  rcases @run_verifyOtp s.db env userId otpCode with ⟨e, hrun⟩ | ⟨u, row, hfound, hcheck, -⟩
  · rw [hrun] at haccepted
    cases haccepted
  obtain ⟨hpending, hcode⟩ := checkOtp_selectById hcheck
  obtain ⟨expiresAt, hexpires, hissued⟩ := hrecorded userId u otpCode hfound hcode
  constructor
  · rintro ⟨-, expiresAt', hissued', hnow⟩ userId' otpCode' hcall u' hfound' _ _ t ht
    cases hcall
    rw [hfound, Option.some.injEq] at hfound'
    rw [← hfound', hexpires, Option.mem_some_iff] at ht
    rw [hissued, Option.some.injEq, Issue.mk.injEq] at hissued'
    rw [← ht, hissued'.2]
    exact hnow
  · intro htimely
    exact ⟨⟨u, hfound, hpending⟩, expiresAt, hissued,
      htimely userId otpCode rfl u hfound hpending hcode expiresAt hexpires⟩

/-! ### In time and late -/

def drawing (now : Timestamp) (id : Uuid) : AuthEnv :=
  ⟨now, ⟨123456, by decide, by decide⟩, id, true, none⟩

def registering : AuthRequest where
  env := drawing 0 10
  call := .register ⟨"budi@example.com", "Rahasia1", "Rahasia1", "Budi", "budi"⟩ "hash"

def afterRegistration : OtpState := (OtpState.start seeded).run (fun _ _ => true) [registering]

theorem afterRegistration_holds :
    afterRegistration.issued 10 = some ⟨"123456", 300000⟩ ∧
      (afterRegistration.db.find .users 10).all (fun u => u.otpExpiresAt = some 300000) = true := by
  decide +kernel

theorem verifyOtp_accepts_iff_fiveMinutes : afterRegistration.Accepts 300000 10 "123456" := by
  have haccepted : ((verifyOtp (drawing 300000 11) 10 "123456").result afterRegistration.db).isOk =
      true := by
    decide +kernel
  obtain ⟨answer, hresult⟩ := exists_ok_of_isOk haccepted
  refine (verifyOtp_accepts_iff (by decide) [registering] hresult).2 ?_
  intro userId otpCode hcall u hfound _ _ expiresAt hexpires
  cases hcall
  have hall := afterRegistration_holds.2
  rw [show afterRegistration.db.find .users 10 = some u from hfound, Option.all_some,
    decide_eq_true_eq] at hall
  rw [hall, Option.mem_some_iff] at hexpires
  exact hexpires ▸ le_refl _

/-- A millisecond later the code has expired, and is accepted. -/
theorem verifyOtp_accepts_expired :
    ((verifyOtp (drawing 300001 11) 10 "123456").result afterRegistration.db).isOk = true ∧
      ¬ afterRegistration.Accepts 300001 10 "123456" := by
  refine ⟨by decide +kernel, fun h => ?_⟩
  obtain ⟨expiresAt, hissued, hnow⟩ := h.issued
  rw [afterRegistration_holds.1, Option.some.injEq, Issue.mk.injEq] at hissued
  rw [← hissued.2] at hnow
  exact absurd hnow (by decide)

end LumbungMesari
