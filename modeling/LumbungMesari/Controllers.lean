import LumbungMesari.Auth
import LumbungMesari.ExpensesController
import LumbungMesari.Members
import LumbungMesari.Views

/-!
# The controllers

All routes that act on the database, each with the roles that its controller asks for and what it
hands to the services. Signing in and registering are open to everyone. Every other route takes its
user from the token.

The routes for passwords have their own model, and so have the jobs. Renewing a token, setting its
lifetime and the rate limits are left out: they act on no row. So are the messages that some
handlers put in place of an error of the services.
-/

namespace LumbungMesari

open Sql

/-! ### Routes -/

/-- The routes behind no guard. -/
inductive PublicRoute where
  | login (identifier inputPassword : String)
  | register (dto : RegisterDto) (hashedPassword : String)

/-- The routes behind `JwtAuthGuard`, with the ids that their rows draw, and with the orders that
their pages are cut from. -/
inductive ApiRoute (context : ApiContext) where
  -- AuthController
  | verifyOtp (otpCode : String)
  | resendOtp
  -- UsersController
  | getProfile
  | getMyLoans (plan : Plan (newestLoans context.toListContext))
  | getMySavings (year : Option ℤ)
  | findAllUsers (options : UsersQuery) (plan : Plan (options.orderBy context.toListContext))
      (page limit : ℕ)
  | approveUser (ids : IncomeIds) (userId : Uuid) (reason : Option String)
  | rejectUser (userId : Uuid) (reason : String)
  -- LoansController
  | getLoanPeriods
  | calculateLoan (loanPeriodId : Uuid) (amount : ℚ)
  | findAllLoans (status search : Option String)
      (plan : Plan (({ status, search } : LoansQuery).orderBy context.toListContext))
      (page limit : ℕ)
  | createLoan (id loanPeriodId : Uuid) (amount : ℚ) (notes : Option String)
  | findInstallments (loanId : Uuid)
  | findOneLoan (id : Uuid)
  | approveLoan (loanId : Uuid) (notes : Option String)
  | rejectLoan (loanId : Uuid) (reason : String)
  | disburseLoan (ids : DisburseIds) (loanId : Uuid)
  | settleInstallment (ids : SettleIds) (installmentId : Uuid)
  -- SavingsController
  | findAllMandatorySavings (query : SavingsQuery) (plan : Plan (query.orderByWithName context))
      (page limit : ℕ)
  | findUserMandatorySavings (userId : Uuid) (query : SavingsQuery)
      (plan : Plan (query.orderBy context)) (page limit : ℕ)
  | generateRemainingYearSavings (ids : ℕ → Uuid)
  | settleMandatorySavings (ids : IncomeIds) (savingsId : Uuid)
  -- CashbookController
  | getBalances
  | getTransactions (plan : Plan newestEntries) (page limit : ℕ)
  -- ReportsController
  | generateMandatorySavingsReport (plan : ReportPlan context.collation) (fuel : ℕ)
      (year : Option ℤ)
  -- ExpensesController
  | expenses (route : ExpensesRoute)

inductive ApiResponse where
  | auth (response : AuthResponse)
  | profile (user : FoundUser)
  | userLoans (loans : List UserLoan)
  | mySavings (data : List MandatorySavings) (year : ℤ)
  | users (page : Page ListedUser)
  | approval (response : ApprovalResponse)
  | loanPeriods (periods : List LoanPeriod)
  | quote (response : CalculateLoanResponse)
  | loans (page : Page LoanWithUser)
  | createdLoan (loan : Loan)
  | installments (installments : List Installment)
  | loan (loan : LoanDetails)
  | done
  | savings (page : Page MandatorySavingsWithUser)
  | generatedSavings (result : GeneratedSavings)
  | balances (balances : Balances)
  | transactions (page : Page CashbookEntry)
  | report (report : Option SavingsReport)
  | expenses (response : ExpensesResponse)

def PublicRoute.handle (context : ApiContext) (env : AuthEnv) : PublicRoute → Program ApiResponse
  | login identifier inputPassword => do
      let (response, _) ← LumbungMesari.login context.compare env identifier inputPassword
      return .auth response
  | register dto hashedPassword => do
      let (response, _) ← LumbungMesari.register env dto hashedPassword
      return .auth response

namespace ApiRoute

variable {context : ApiContext}

/-- The `@Roles` of a handler behind `RolesGuard`. -/
def roles : ApiRoute context → Option (List UserRole)
  | findAllUsers .. => some [.admin, .superadmin]
  | approveUser .. => some [.admin, .superadmin]
  | rejectUser .. => some [.admin, .superadmin]
  | findAllLoans .. => some [.admin, .superadmin]
  | approveLoan .. => some [.superadmin]
  | rejectLoan .. => some [.superadmin]
  | disburseLoan .. => some [.superadmin]
  | settleInstallment .. => some [.admin, .superadmin]
  | findAllMandatorySavings .. => some [.admin, .superadmin]
  | generateRemainingYearSavings .. => some [.admin, .superadmin]
  | settleMandatorySavings .. => some [.admin, .superadmin]
  | generateMandatorySavingsReport .. => some [.superadmin, .admin]
  | expenses route => route.roles
  | _ => none

/-- `now` is the instant of the request; the mails of `env` go out or do not. -/
def handle (env : AuthEnv) (now : Instant) (user : UserJWT) :
    ApiRoute context → Program ApiResponse
  | verifyOtp otpCode => do
      let (response, _) ← LumbungMesari.verifyOtp env user.id otpCode
      return .auth response
  | resendOtp => do
      let (response, _) ← LumbungMesari.resendOtp env user.id
      return .auth response
  | getProfile => return .profile (← usersServiceFindById user.id)
  | getMyLoans plan => return .userLoans (← findUserLoans context.toListContext user.id plan)
  | getMySavings year => do
      let year := year.getD (now.toLocal context.offset).date.year
      return .mySavings (← findByUserIdAndYear context.offset user.id year) year
  | findAllUsers options plan page limit =>
      return .users (← LumbungMesari.findAllUsers context.toListContext options plan page limit)
  | approveUser ids userId reason => do
      let (response, _) ← LumbungMesari.approveUser ids userId reason user.id env.emailSent
        (now.toLocal context.offset).date
      return .approval response
  | rejectUser userId reason => do
      let (response, _) ← LumbungMesari.rejectUser userId reason env.emailSent
      return .approval response
  | getLoanPeriods => return .loanPeriods (← findAllPeriods)
  | calculateLoan loanPeriodId amount =>
      return .quote (← LumbungMesari.calculateLoan loanPeriodId amount context.adminFeeRate)
  | findAllLoans status search plan page limit =>
      return .loans (← findAllWithPagination context.toListContext { status, search } plan page limit)
  | createLoan id loanPeriodId amount notes =>
      if user.status ≠ .active then
        .throw (.httpException 403 "Only active members can apply for loans")
      else
        return .createdLoan (← LumbungMesari.createLoan id user.id loanPeriodId amount notes
          context.adminFeeRate (now.toLocal context.offset).date)
  | findInstallments loanId => return .installments (← findInstallmentsByLoan loanId user)
  | findOneLoan id => return .loan (← findById id user)
  | approveLoan loanId notes => do
      LumbungMesari.approveLoan loanId notes user.id (now.toLocal context.offset).date
      return .done
  | rejectLoan loanId reason => do
      LumbungMesari.rejectLoan loanId reason (now.toLocal context.offset).date
      return .done
  | disburseLoan ids loanId => do
      LumbungMesari.disburseLoan ids loanId user.id (now.toLocal context.offset).date
      return .done
  | settleInstallment ids installmentId => do
      LumbungMesari.settleInstallment ids installmentId user.id (now.toLocal context.offset).date
      return .done
  | findAllMandatorySavings query plan page limit =>
      return .savings (← LumbungMesari.findAllMandatorySavings context now query plan page limit)
  | findUserMandatorySavings userId query plan page limit =>
      if !user.isAdmin && user.id ≠ userId then
        .throw (.httpException 403 "You can only access your own savings records")
      else
        return .savings (← LumbungMesari.findUserMandatorySavings context now userId query plan page
          limit)
  | generateRemainingYearSavings ids =>
      return .generatedSavings (← LumbungMesari.generateRemainingYearSavings context.offset ids
        context.mandatorySavingsAmount now)
  | settleMandatorySavings ids savingsId => do
      LumbungMesari.settleMandatorySavings ids savingsId user.id (now.toLocal context.offset).date
      return .done
  | getBalances => return .balances (← getCurrentBalances)
  | getTransactions plan page limit =>
      return .transactions (← listTransactions context plan page limit)
  | generateMandatorySavingsReport plan fuel year => do
      -- the year zero is falsy
      let reportYear := targetYear context.offset year now
      return .report (← LumbungMesari.generateMandatorySavingsReport plan context.offset fuel reportYear
        context.localeCompare)
  | expenses route => return .expenses (← route.handle user (now.toLocal context.offset).date)

end ApiRoute

/-! ### Requests -/

/-- A request, with the user of its token, if it comes with a token that verifies, and with what the
validation pipe makes of its body, its query and its parameters. -/
inductive ApiRequest (context : ApiContext) where
  | unguarded (env : AuthEnv) (refusal : Option Error) (route : PublicRoute)
  | guarded (env : AuthEnv) (now : Instant) (sub : Option Uuid) (refusal : Option Error)
      (route : ApiRoute context)

/-- The guards and, behind them, the pipes. No controller has `@Roles` of its own. -/
def ApiRoute.admit {context : ApiContext} (sub : Option Uuid) (refusal : Option Error)
    (route : ApiRoute context) : Program UserJWT :=
  match sub with
  | none => .throw (.httpException 401 "Unauthorized!, please authenticate")
  | some sub => do
      let user ← jwtAuthGuard sub
      match canActivate route.roles none user, refusal with
      | .error e, _ => .throw e
      | .ok (), some refusal => .throw refusal
      | .ok (), none => pure user

namespace ApiRequest

variable {context : ApiContext}

/-- The user that a request acts for. -/
def caller : ApiRequest context → Option Uuid
  | unguarded .. => none
  | guarded _ _ sub .. => sub

def handle : ApiRequest context → Program ApiResponse
  | unguarded _ (some refusal) _ => .throw refusal
  | unguarded env none route => route.handle context env
  | guarded env now sub refusal route => do
      let user ← route.admit sub refusal
      route.handle env now user

def program (request : ApiRequest context) : Program Unit := do
  let _ ← request.handle
  pure ()

end ApiRequest

end LumbungMesari
