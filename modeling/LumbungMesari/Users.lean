import LumbungMesari.Loans

/-!
# Users

`UsersRepository` and `UsersService`, as far as authentication uses them, and the guards that stand
before a controller.
-/

namespace LumbungMesari

open Sql
open Prog (inTrx onPool commitTrx)

def UserRole.name : UserRole → String
  | .superadmin => "superadministrator"
  | .admin => "administrator"
  | .member => "member"

/-! ### UsersRepository -/

/-- What a query for a user returns. A column that the query does not select is `undefined`, which is
read like a null. -/
structure FoundUser where
  id : Uuid
  email : String
  fullname : String
  username : String
  password : Option String
  status : UserStatus
  roleId : UserRole
  otpCode : Option String
  otpExpiresAt : Option Timestamp
  otpVerified : Bool
  deriving DecidableEq

/-- The columns that `findByIdentifierWithRole` selects. -/
def User.selectWithRole (u : User) : FoundUser :=
  { u with password := some u.password }

/-- The columns that `findById` selects: neither `password` nor `otp_expires_at` is among them. -/
def User.selectById (u : User) : FoundUser :=
  { u with
    password := none
    otpExpiresAt := none }

def findUserByEmail (email : String) : Program (Option User) :=
  onPool (select fun d => (d.rows .users).find? fun u => u.email = email)

def findUserByUsername (username : String) : Program (Option User) :=
  onPool (select fun d => (d.rows .users).find? fun u => u.username = username)

def findByIdentifierWithRole (identifier : String) : Program (Option FoundUser) :=
  onPool (select fun d => ((d.rows .users).find? fun u =>
    u.email = identifier ∨ u.username = identifier).map User.selectWithRole)

def findUserById (id : Uuid) : Program (Option FoundUser) :=
  onPool (select fun d => (d.find .users id).map User.selectById)

def findUserByIdInTrx (id : Uuid) : Program (Option FoundUser) :=
  inTrx (select fun d => (d.find .users id).map User.selectById)

/-- The columns an update of a user sets. -/
structure UpdateUserDto where
  status : Option UserStatus
  otpCode : Option (Option String)
  otpVerified : Option Bool
  otpExpiresAt : Option (Option Timestamp)

def User.update (data : UpdateUserDto) (u : User) : User :=
  { u with
    status := data.status.getD u.status
    otpCode := data.otpCode.getD u.otpCode
    otpVerified := data.otpVerified.getD u.otpVerified
    otpExpiresAt := data.otpExpiresAt.getD u.otpExpiresAt }

def userNotUpdatedError (id : Uuid) : Error := .error s!"User with id {id} not found"

/-- `updateUser` without a transaction. -/
def updateUser (id : Uuid) (data : UpdateUserDto) : Program User := do
  match ← onPool (updateById .other .users id fun u => .ok (u.update data)) with
  | none => .throw (userNotUpdatedError id)
  | some result => pure result

def updateUserInTrx (id : Uuid) (data : UpdateUserDto) : Program User :=
  updateOrThrow (t := .users) .other id (fun u => .ok (u.update data)) (userNotUpdatedError id)

def getActiveMemberCount : Program ℕ :=
  inTrx (select fun d => (d.rows .users).countP fun u => u.status = .active ∧ u.roleId = .member)

def getActiveMemberIds : Program (List Uuid) :=
  onPool (select fun d =>
    ((d.rows .users).filter fun u => u.status = .active ∧ u.roleId = .member).map (·.id))

/-! ### UsersService -/

def userNotFoundException : Error := .httpException 404 "User not found"

def findByIdIncludeOtp (id : Uuid) : Program FoundUser := do
  match ← findUserById id with
  | none => .throw userNotFoundException
  | some user => pure user

/-- `update` without a transaction. -/
def usersServiceUpdate (id : Uuid) (data : UpdateUserDto) : Program User := do
  match ← findUserById id with
  | none => .throw userNotFoundException
  | some _ => updateUser id data

def usersServiceUpdateInTrx (id : Uuid) (data : UpdateUserDto) : Program User := do
  match ← findUserByIdInTrx id with
  | none => .throw userNotFoundException
  | some _ => updateUserInTrx id data

/-- The columns of a new user. -/
structure CreatedUser where
  email : String
  fullname : String
  username : String
  password : String
  status : UserStatus
  roleId : UserRole
  otpCode : String
  otpExpiresAt : Timestamp

def CreatedUser.toRow (user : CreatedUser) (id : Uuid) : User where
  id := id
  email := user.email
  fullname := user.fullname
  username := user.username
  password := user.password
  status := user.status
  roleId := user.roleId
  otpCode := some user.otpCode
  otpExpiresAt := some user.otpExpiresAt
  otpVerified := false

def validateUserUniqueness (email username : String) : Program Unit := do
  let existingUserByEmail ← findUserByEmail email
  let existingUserByUsername ← findUserByUsername username
  if existingUserByEmail.isSome then .throw (.httpException 409 "Email already exists")
  else if existingUserByUsername.isSome then .throw (.httpException 409 "Username already exists")
  else pure ()

def createUser (id : Uuid) (user : CreatedUser) : Program User := do
  validateUserUniqueness user.email user.username
  onPool (insertInto .users (.ok (user.toRow id)))

/-! ### Guards -/

/-- What `JwtStrategy` puts on a request. -/
structure UserJWT where
  id : Uuid
  username : String
  email : String
  role : Option UserRole
  status : UserStatus

/-- `JwtStrategy.validate`, on the user that the token names. -/
def validateJwt : Option FoundUser → Except Error UserJWT
  | none => .error userNotFoundException
  | some user =>
      if user.status = .inactive ∨ user.status = .rejected then
        .error (.httpException 401 "Account is deactivated")
      else .ok ⟨user.id, user.username, user.email, some user.roleId, user.status⟩

/-- `JwtAuthGuard` with a token that verifies: every failure of the strategy is answered alike. -/
def jwtAuthGuard (sub : Uuid) : Program UserJWT := do
  match validateJwt (← findUserById sub) with
  | .error _ => .throw (.httpException 401 "Unauthorized!, please authenticate")
  | .ok user => pure user

def insufficientPermissionsMessage (role : UserRole) : String :=
  s!"User with role {role.name} does not have sufficient permissions."

/-- `RolesGuard.canActivate`, with the metadata of the handler or, when it has none, of its class. -/
def canActivate (handlerRoles classRoles : Option (List UserRole)) (user : UserJWT) :
    Except Error Unit :=
  match handlerRoles <|> classRoles with
  | none => .ok ()
  | some [] => .ok ()
  | some requiredRoles =>
      match user.role with
      | none => .error (.httpException 403 "User has no role assigned")
      | some role =>
          if role ∈ requiredRoles then .ok ()
          else .error (.httpException 403 (insufficientPermissionsMessage role))

end LumbungMesari
