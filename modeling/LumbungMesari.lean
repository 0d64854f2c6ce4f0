import LumbungMesari.Sql.Alone
import LumbungMesari.LedgerRuns
import LumbungMesari.LedgerHistory
import LumbungMesari.Snapshots
import LumbungMesari.ExpenseRuns
import LumbungMesari.InstallmentRuns
import LumbungMesari.SavingsRuns
import LumbungMesari.LoanRuns
import LumbungMesari.PenaltyRuns
import LumbungMesari.DecisionRuns
import LumbungMesari.LoanLimit
import LumbungMesari.Sql.Footprint
import LumbungMesari.ExpensesAccess
import LumbungMesari.OtpRuns
import LumbungMesari.MemberRuns
import LumbungMesari.Repayments
import LumbungMesari.Collecting
import LumbungMesari.DueDates
import LumbungMesari.Quotes
import LumbungMesari.Funding
import LumbungMesari.Sources
import LumbungMesari.Reentries
import LumbungMesari.Arrears
import LumbungMesari.Isolation
import LumbungMesari.Schedulers
import LumbungMesari.PrincipalSavingsRuns
import LumbungMesari.Approvals
import LumbungMesari.Pagination
import LumbungMesari.SavingsCalendar
import LumbungMesari.CalendarRuns
import LumbungMesari.CalendarRules
import LumbungMesari.Generations
import LumbungMesari.YearlyJob
import LumbungMesari.ReportRules
import LumbungMesari.Listings
import LumbungMesari.ResetRuns
import LumbungMesari.ReconciliationRuns
import LumbungMesari.MemberViews
import LumbungMesari.LendingRuns
