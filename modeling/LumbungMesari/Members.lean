import LumbungMesari.Auth

/-!
# Members

The approval and the rejection of a registration, and the principal savings behind them:
`approveUser` and `rejectUser` of the users service, `settlePrincipalSavings` and the statements of
`PrincipalSavingsRepository`. Mail is sent outside; a call gets whether it goes out.
-/

namespace LumbungMesari

open Sql
open Prog (inTrx commitTrx)

/-! ### Principal savings -/

/-- The principal savings of a user, joined with the user. -/
def Database.principalSavingsWithUser (d : Database) (userId : Uuid) :
    Option (PrincipalSavings × User) :=
  ((d.rows .principalSavings).find? fun r => r.userId = userId).bind fun r =>
    (d.find .users r.userId).map (r, ·)

/-- A plain select, without a lock. -/
def findPrincipalSavingsByUserId (userId : Uuid) : Program (Option (PrincipalSavings × User)) :=
  inTrx (select fun d => d.principalSavingsWithUser userId)

def PrincipalSavings.settle (adminId : Uuid) (now : Date) (r : PrincipalSavings) :
    PrincipalSavings :=
  { r with status := .paid, processedBy := some adminId, paidAt := some now }

def updatePrincipalSavings (id adminId : Uuid) (now : Date) : Program PrincipalSavings :=
  updateOrThrow (t := .principalSavings) .other id (fun r => .ok (r.settle adminId now))
    (.error s!"Principal savings record with id {id} not found")

def settlePrincipalSavings (ids : IncomeIds) (userId adminId : Uuid) (now : Date) :
    Program Unit := do
  match ← findPrincipalSavingsByUserId userId with
  | none => .throw (.httpException 404 s!"No principal savings for user with id {userId}")
  | some (principalSavings, user) =>
      if principalSavings.status = .paid then
        .throw (.httpException 400 "Principal savings already approved")
      else do
        let _ ← updatePrincipalSavings principalSavings.id adminId now
        let amount := principalSavings.amount.toRat
        let income ← createPrincipalSavingsIncome ids.income principalSavings.id amount
          (some s!"Simpanan pokok dari {user.fullname}") now
        let _ ← createIncomeTransaction ids.ledger income.id amount .capital none now
        pure ()

/-! ### UsersRepository -/

def User.setStatus (status : UserStatus) (u : User) : User := { u with status }

/-- The update is by id alone, whatever the status is. -/
def updateStatus (id : Uuid) (status : UserStatus) : Program User :=
  updateOrThrow (t := .users) (.updateUserStatus id) id (fun u => .ok (u.setStatus status))
    (userNotUpdatedError id)

/-! ### UsersService -/

/-- A status as the database spells it. -/
def UserStatus.text : UserStatus → String
  | pending => "pending"
  | waitingDeposit => "waiting_deposit"
  | active => "active"
  | inactive => "inactive"
  | rejected => "rejected"

/-- What `findById` of the service keeps of a user. -/
def FoundUser.safe (u : FoundUser) : FoundUser :=
  { u with
    password := none
    otpCode := none
    otpExpiresAt := none }

def usersServiceFindById (id : Uuid) : Program FoundUser := do
  match ← findUserById id with
  | none => .throw userNotFoundException
  | some user => pure user.safe

inductive ApprovalAction where
  | approve
  | reject
  deriving DecidableEq

/-- What is handed to the mailer. -/
structure ApprovalMail where
  action : ApprovalAction
  recipient : String
  fullname : String
  username : String
  reason : Option String

structure ApprovalResponse where
  message : String
  status : UserStatus
  userId : Uuid

def emailNotificationFailedException : Error :=
  .httpException 500 "Notification could not be sent. Please try again later."

def sendApprovalEmail (user : FoundUser) (action : ApprovalAction) (reason : Option String)
    (emailSent : Bool) : Program ApprovalMail :=
  if emailSent then pure ⟨action, user.email, user.fullname, user.username, reason⟩
  else .throw emailNotificationFailedException

/-- The status is checked before the transaction. The mail goes out after it. -/
def approveUser (ids : IncomeIds) (userId : Uuid) (reason : Option String) (adminId : Uuid)
    (emailSent : Bool) (now : Date) : Program (ApprovalResponse × ApprovalMail) := do
  let user ← usersServiceFindById userId
  if user.status ≠ .waitingDeposit then
    .throw (.httpException 400 s!"Cannot approve user with status: {user.status.text}")
  else do
    let _ ← updateStatus userId .active
    settlePrincipalSavings ids userId adminId now
    commitTrx
    let mail ← sendApprovalEmail user .approve reason emailSent
    pure (⟨"User approved successfully!", .active, userId⟩, mail)

def rejectUser (userId : Uuid) (reason : String) (emailSent : Bool) :
    Program (ApprovalResponse × ApprovalMail) := do
  let user ← usersServiceFindById userId
  if user.status ≠ .waitingDeposit then
    .throw (.httpException 400 s!"Cannot reject user with status: {user.status.text}")
  else do
    let _ ← updateStatus userId .rejected
    commitTrx
    let mail ← sendApprovalEmail user .reject (some reason) emailSent
    pure (⟨"User rejected successfully", .rejected, userId⟩, mail)

/-! ### Calls -/

/-- A call on one user. -/
inductive MemberCall where
  | verifyOtp (env : AuthEnv) (otpCode : String)
  | approveUser (ids : IncomeIds) (reason : Option String) (adminId : Uuid) (emailSent : Bool)
      (now : Date)
  | rejectUser (reason : String) (emailSent : Bool)

def MemberCall.program (userId : Uuid) : MemberCall → Program Unit
  | verifyOtp env otpCode => do
      let _ ← LumbungMesari.verifyOtp env userId otpCode
      pure ()
  | approveUser ids reason adminId emailSent now => do
      let _ ← LumbungMesari.approveUser ids userId reason adminId emailSent now
      pure ()
  | rejectUser reason emailSent => do
      let _ ← LumbungMesari.rejectUser userId reason emailSent
      pure ()

end LumbungMesari
