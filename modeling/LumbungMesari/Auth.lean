import LumbungMesari.Users

/-!
# Authentication

`OtpService`, `AuthService` and the part of `UsersSavingsService` that a verification calls. Tokens
are signed and passwords are hashed outside: a call gets the hash of its password and what the
comparison with a hash says. Mail is sent outside too; what is handed to the mailer is part of an
answer.
-/

namespace LumbungMesari

open Sql
open Prog (inTrx onPool commitTrx)

/-! ### OtpService -/

/-- What `randomInt(100000, 999999)` draws. -/
structure OtpDraw where
  value : ℕ
  lower : 100000 ≤ value
  upper : value < 999999

def generateOtp (draw : OtpDraw) : String := toString draw.value

def getOtpExpirationTime (now : Timestamp) : Timestamp := now + 5 * 60 * 1000

def isOtpExpired (now expiresAt : Timestamp) : Bool := expiresAt < now

/-- `/^\d{6}$/` -/
def isValidOtpFormat (otp : String) : Bool := otp.toList.length = 6 && otp.toList.all Char.isDigit

/-! ### UsersSavingsService -/

/-- `configured` is `PRINCIPAL_SAVINGS_MIN_AMOUNT`. -/
def getMinimumAmount (configured : Option ℚ) : ℚ := configured.getD 50000

def calculatePrincipalSavingsAmount (configured : Option ℚ) : Program ℚ := do
  let totalBalance ← getBalance .total
  let activeMemberCount ← getActiveMemberCount
  if activeMemberCount = 0 then pure (getMinimumAmount configured)
  else pure ⌊totalBalance / activeMemberCount⌋

def newPrincipalSavings (id userId : Uuid) (amount : ℚ) : Except Error PrincipalSavings := do
  let amount ← money amount
  pure { id, userId, amount, status := .pending, processedBy := none, paidAt := none }

def createPrincipalSavings (id userId : Uuid) (configured : Option ℚ) : Program Unit := do
  let amount ← calculatePrincipalSavingsAmount configured
  let _ ← inTrx (insertInto .principalSavings (newPrincipalSavings id userId amount))
  pure ()

/-! ### Answers -/

/-- An OTP that is handed to the mailer. -/
structure OtpMail where
  userId : Uuid
  otpCode : String
  deriving DecidableEq

/-- What the methods answer, apart from the tokens. -/
inductive AuthResponse where
  | loggedIn (status : UserStatus) (emailSent : Bool) (message : String)
  | registered (user : User) (message : String) (otpSent : Bool)
  | verified (user : User) (message : String)
  | resent (message : String) (otpSent : Bool)

abbrev Answer := AuthResponse × Option OtpMail

/-- The instant of a call, what it draws, whether its mail goes out, and the
`PRINCIPAL_SAVINGS_MIN_AMOUNT` that is configured. -/
structure AuthEnv where
  now : Timestamp
  draw : OtpDraw
  id : Uuid
  emailSent : Bool
  principalSavingsMinAmount : Option ℚ

/-! ### AuthService -/

/-- The columns that a new OTP sets. -/
def newOtp (env : AuthEnv) : UpdateUserDto where
  status := none
  otpCode := some (some (generateOtp env.draw))
  otpVerified := none
  otpExpiresAt := some (some (getOtpExpirationTime env.now))

/-- `compare` is the comparison of a password with a hash. -/
def login (compare : String → String → Bool) (env : AuthEnv) (identifier inputPassword : String) :
    Program Answer := do
  match ← findByIdentifierWithRole identifier with
  | none => .throw (.httpException 404 "User not found!")
  | some user =>
      if !compare inputPassword (user.password.getD "") then
        .throw (.httpException 401 "Invalid credentials!")
      else if user.status = .pending then do
        let _ ← usersServiceUpdate user.id (newOtp env)
        let message := if env.emailSent then "Login success!. A new OTP has been sent to your email"
          else "Unable to send OTP!"
        pure (.loggedIn user.status env.emailSent message, some ⟨user.id, generateOtp env.draw⟩)
      else pure (.loggedIn user.status false "Login success!", none)

structure RegisterDto where
  email : String
  password : String
  passwordConfirmation : String
  fullname : String
  username : String

def registeredMessage (emailSent : Bool) : String :=
  if emailSent then
    "Registration successful. Please check your email for OTP verification code."
  else
    "Registration successful. However, we could not send the OTP email. " ++
      "Please try resending the OTP."

def register (env : AuthEnv) (dto : RegisterDto) (hashedPassword : String) : Program Answer := do
  if dto.password ≠ dto.passwordConfirmation then
    .throw (.httpException 400 "Password confirmation does not match")
  else do
    let user ← createUser env.id {
      email := dto.email
      fullname := dto.fullname
      username := dto.username
      password := hashedPassword
      status := .pending
      roleId := .member
      otpCode := generateOtp env.draw
      otpExpiresAt := getOtpExpirationTime env.now }
    pure (.registered user (registeredMessage env.emailSent) env.emailSent,
      some ⟨user.id, generateOtp env.draw⟩)

def invalidOtpException : Error :=
  .httpException 400 "Invalid OTP code. Please check and try again."

def userNotInPendingStatusException : Error :=
  .httpException 400 "User is not in pending verification status."

def otpAlreadyVerifiedException : Error := .httpException 409 "OTP has already been verified."

def noOtpFoundException : Error :=
  .httpException 400 "No OTP found for this user. Please request a new one."

def otpExpiredException : Error :=
  .httpException 410 "OTP has expired. Please request a new one."

/-- The checks of `verifyOtp` on the user it has read. A code that is empty counts as none. -/
def checkOtp (now : Timestamp) (otpCode : String) (user : FoundUser) : Except Error Unit :=
  if user.status ≠ .pending then .error userNotInPendingStatusException
  else if user.otpVerified then .error otpAlreadyVerifiedException
  else if user.otpCode.getD "" = "" then .error noOtpFoundException
  else if user.otpExpiresAt.any (isOtpExpired now) then .error otpExpiredException
  else if user.otpCode ≠ some otpCode then .error invalidOtpException
  else .ok ()

/-- The columns that a verification sets. -/
def verification : UpdateUserDto where
  status := some .waitingDeposit
  otpCode := some none
  otpVerified := some true
  otpExpiresAt := some none

def verifyOtp (env : AuthEnv) (userId : Uuid) (otpCode : String) : Program Answer := do
  if !isValidOtpFormat otpCode then .throw invalidOtpException
  else do
    let user ← findByIdIncludeOtp userId
    match checkOtp env.now otpCode user with
    | .error e => .throw e
    | .ok () => do
        let updatedUser ← usersServiceUpdateInTrx user.id verification
        createPrincipalSavings env.id userId env.principalSavingsMinAmount
        commitTrx
        pure (.verified updatedUser "OTP verified successfully!", none)

def resentMessage (emailSent : Bool) : String :=
  if emailSent then "New OTP has been sent to your email."
  else "OTP has been generated but could not be sent via email. Please contact support."

def resendOtp (env : AuthEnv) (userId : Uuid) : Program Answer := do
  let user ← findByIdIncludeOtp userId
  if user.status ≠ .pending then .throw userNotInPendingStatusException
  else if user.otpVerified then .throw otpAlreadyVerifiedException
  else do
    let _ ← usersServiceUpdate user.id (newOtp env)
    pure (.resent (resentMessage env.emailSent) env.emailSent,
      some ⟨user.id, generateOtp env.draw⟩)

/-! ### Calls -/

inductive AuthCall where
  | register (dto : RegisterDto) (hashedPassword : String)
  | login (identifier inputPassword : String)
  | resendOtp (userId : Uuid)
  | verifyOtp (userId : Uuid) (otpCode : String)

def AuthCall.program (compare : String → String → Bool) (env : AuthEnv) :
    AuthCall → Program Answer
  | register dto hashedPassword => LumbungMesari.register env dto hashedPassword
  | login identifier inputPassword => LumbungMesari.login compare env identifier inputPassword
  | resendOtp userId => LumbungMesari.resendOtp env userId
  | verifyOtp userId otpCode => LumbungMesari.verifyOtp env userId otpCode

end LumbungMesari
