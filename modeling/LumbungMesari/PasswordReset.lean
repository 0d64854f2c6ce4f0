import LumbungMesari.Users
import LumbungMesari.Sql.Once

/-!
# Password resets

`requestPasswordReset` and `confirmPasswordReset`, over the columns of the users that they read and
write and the clock of the process; no other method sets these columns of a user that exists. The
store keeps a log of the updates, which nothing reads: for what a column was set, and when.
-/

namespace LumbungMesari.PasswordReset

open Sql
open Prog (onPool)

/-! ### The store -/

structure ResetUser where
  id : Uuid
  email : String
  password : String
  passwordResetToken : Option String
  passwordResetExpiresAt : Option Timestamp
  deriving DecidableEq

/-- What an update is made for: to store a new token, or to change the password with one. -/
inductive Purpose where
  | issue (token : String) (expiresAt : Timestamp)
  | change (token : String)
  deriving DecidableEq

structure Entry where
  userId : Uuid
  purpose : Purpose
  time : Timestamp
  deriving DecidableEq

structure ResetDatabase where
  users : Table ResetUser ResetUser.id
  clock : Timestamp
  log : List Entry

inductive ResetWrite where
  /-- Time passes. -/
  | tick (elapsed : ℕ)
  | update (u : ResetUser) (entry : Entry)

namespace ResetDatabase

def find (d : ResetDatabase) (id : Uuid) : Option ResetUser := d.users.find? id

def apply (d : ResetDatabase) : ResetWrite → ResetDatabase
  | .tick elapsed => { d with clock := d.clock + elapsed }
  | .update u entry => { d with
      users := d.users.replace u
      log := d.log ++ [entry] }

theorem find_update (d : ResetDatabase) (u : ResetUser) (entry : Entry) (id : Uuid) :
    (d.apply (.update u entry)).find id =
      if u.id = id then (d.find id).map fun _ => u else d.find id := Table.find?_replace ..

end ResetDatabase

instance : Locking ResetWrite Uuid where
  needs
    | .tick _ => []
    | .update u _ => [(u.id, .noKeyUpdate)]

instance : Store ResetDatabase ResetWrite Uuid where
  apply := ResetDatabase.apply
  agree id d d' := d.find id = d'.find id
  agree_refl _ _ := rfl
  agree_trans := Eq.trans
  agree_apply {id d w} h := by
    cases w with
    | tick elapsed => rfl
    | update u entry =>
        have hne : u.id ≠ id := fun he =>
          absurd (h .noKeyUpdate (he ▸ List.mem_singleton_self _)) (by decide)
        rw [ResetDatabase.find_update, if_neg hne]

@[simp] theorem ResetDatabase.store_apply (d : ResetDatabase) (w : ResetWrite) :
    Store.apply d w = d.apply w := rfl

/-- An update is labelled with its user and with what it is made for. -/
abbrev ResetLabel := Option (Uuid × Purpose)

abbrev ResetStatement (β : Type) := Stmt ResetDatabase ResetWrite Uuid ResetLabel Error β

abbrev ResetProgram := Prog ResetDatabase ResetWrite Uuid ResetLabel Error

def statement {β : Type} (label : ResetLabel)
    (exec : ResetDatabase → Except Error (List ResetWrite × β)) : ResetStatement β where
  label := label
  locks d :=
    match exec d with
    | .ok (ws, _) => ws.flatMap needs
    | .error _ => []
  exec := exec
  covered := by
    intro d ws b hexec w hw
    rw [hexec]
    exact fun k hk => List.mem_flatMap.2 ⟨w, hw, hk⟩

def select {β : Type} (read : ResetDatabase → β) : ResetStatement β :=
  statement none fun d => .ok ([], read d)

/-! ### UsersRepository -/

def findByEmail (email : String) : ResetProgram (Option ResetUser) :=
  onPool (select fun d => d.users.rows.find? fun u => u.email = email)

def findByResetToken (token : String) : ResetProgram (Option ResetUser) :=
  onPool (select fun d => d.users.rows.find? fun u => u.passwordResetToken = some token)

def findById (id : Uuid) : ResetProgram (Option ResetUser) := onPool (select (·.find id))

/-- The columns that an update sets. A password that is `undefined` is left alone. -/
structure UpdateUserDto where
  password : Option String := none
  passwordResetToken : Option String
  passwordResetExpiresAt : Option Timestamp

def ResetUser.update (data : UpdateUserDto) (u : ResetUser) : ResetUser :=
  { u with
    password := data.password.getD u.password
    passwordResetToken := data.passwordResetToken
    passwordResetExpiresAt := data.passwordResetExpiresAt }

def updateById (id : Uuid) (data : UpdateUserDto) (purpose : Purpose) :
    ResetStatement (Option ResetUser) :=
  statement (some (id, purpose)) fun d =>
    match d.find id with
    | none => .ok ([], none)
    | some u => .ok ([.update (u.update data) ⟨id, purpose, d.clock⟩], some (u.update data))

def updateUser (id : Uuid) (data : UpdateUserDto) (purpose : Purpose) : ResetProgram ResetUser := do
  match ← onPool (updateById id data purpose) with
  | none => .throw (userNotUpdatedError id)
  | some result => pure result

/-! ### UsersService -/

def update (id : Uuid) (data : UpdateUserDto) (purpose : Purpose) : ResetProgram ResetUser := do
  match ← findById id with
  | none => .throw userNotFoundException
  | some _ => updateUser id data purpose

/-! ### AuthService -/

/-- `new Date()` -/
def newDate : ResetProgram Timestamp := onPool (select (·.clock))

/-- One hour. -/
def resetExpirationTime (now : Timestamp) : Timestamp := now + 60 * 60 * 1000

def storeToken (token : String) (expiresAt : Timestamp) : UpdateUserDto where
  passwordResetToken := some token
  passwordResetExpiresAt := some expiresAt

def storePassword (hashedPassword : String) : UpdateUserDto where
  password := some hashedPassword
  passwordResetToken := none
  passwordResetExpiresAt := none

def resetRequestedMessage : String :=
  "If an account exists, a reset link has been sent to the registered email address."

/-- `token` is what `randomBytes(32)` draws. -/
def requestPasswordReset (email token : String) : ResetProgram String := do
  match ← findByEmail email with
  | none => pure resetRequestedMessage
  | some user => do
      let expiresAt := resetExpirationTime (← newDate)
      let _ ← update user.id (storeToken token expiresAt) (.issue token expiresAt)
      pure resetRequestedMessage

def invalidResetTokenException : Error := .httpException 400 "Invalid or expired reset token."

/-- `hashedPassword` is the hash of the new password. -/
def confirmPasswordReset (token newPassword confirmPassword hashedPassword : String) :
    ResetProgram String :=
  if newPassword ≠ confirmPassword then
    .throw (.httpException 400 "Password confirmation does not match.")
  else do
    match ← findByResetToken token with
    | none => .throw invalidResetTokenException
    | some user =>
        match user.passwordResetExpiresAt with
        | none => .throw invalidResetTokenException
        | some expiresAt => do
            if (← newDate) > expiresAt then .throw invalidResetTokenException
            else do
              let _ ← update user.id (storePassword hashedPassword) (.change token)
              pure "Password updated successfully."

/-! ### Calls -/

inductive ResetCall where
  | tick (elapsed : ℕ)
  | requestPasswordReset (email token : String)
  | confirmPasswordReset (token newPassword confirmPassword hashedPassword : String)

def ResetCall.program : ResetCall → ResetProgram Unit
  | .tick elapsed => onPool (statement none fun _ => .ok ([.tick elapsed], ()))
  | .requestPasswordReset email token => do
      let _ ← PasswordReset.requestPasswordReset email token
      pure ()
  | .confirmPasswordReset token newPassword confirmPassword hashedPassword => do
      let _ ← PasswordReset.confirmPasswordReset token newPassword confirmPassword hashedPassword
      pure ()

/-- The call draws the token. -/
def ResetCall.draws (token : String) : ResetCall → Bool
  | .requestPasswordReset _ token' => token' = token
  | _ => false

abbrev ResetSystem := Sys ResetDatabase ResetWrite Uuid ResetLabel Error ResetCall

/-- No token is drawn twice. -/
def fresh (s : ResetSystem) : Event Error ResetCall → Bool
  | .call (.requestPasswordReset _ token) => s.calls.countP (ResetCall.draws token) = 0
  | _ => true

/-- A password is changed while the row of the user holds the token, and not after its expiry. -/
def inTime : ResetLabel → ResetDatabase → Bool
  | some (id, .change token), d => (d.find id).all fun u =>
      u.passwordResetToken = some token && u.passwordResetExpiresAt.any (d.clock ≤ ·)
  | _, _ => true

/-! ### Single use -/

def Purpose.issued : Purpose → Option (String × Timestamp)
  | .issue token expiresAt => some (token, expiresAt)
  | .change _ => none

/-- The token of a user that is neither superseded nor consumed is the one that was stored last. -/
def current (log : List Entry) (userId : Uuid) : Option (String × Timestamp) :=
  ((log.filter (·.userId = userId)).getLast?).bind (·.purpose.issued)

/-- The password was changed with the token. -/
def Entry.changes (token : String) (e : Entry) : Bool := e.purpose = .change token

/-- The token was stored for a user. -/
def Entry.issues (token : String) (e : Entry) : Bool := e.purpose.issued.any (·.1 = token)

/-- Every change was made with the token that the user had then, and in time. -/
def Lawful (log : List Entry) : Prop := ∀ i e token, log[i]? = some e → e.changes token = true →
  ∃ expiresAt, current (log.take i) e.userId = some (token, expiresAt) ∧ e.time ≤ expiresAt

/-- Every token changes the password of its user at most once, and never after it has expired, has
been superseded or was consumed. -/
structure SingleUse (log : List Entry) : Prop where
  once : ∀ token, log.countP (Entry.changes token) ≤ 1
  lawful : Lawful log

end LumbungMesari.PasswordReset
