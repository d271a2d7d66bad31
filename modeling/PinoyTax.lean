import PinoyTax.Foundation.Program
import PinoyTax.Foundation.Part
import PinoyTax.Foundation.Runs
import PinoyTax.Foundation.Interleaving
import PinoyTax.Foundation.Reliance
import PinoyTax.Foundation.Observation
import PinoyTax.Foundation.CheckedInsert
import PinoyTax.Foundation.CheckedWrite
import PinoyTax.Foundation.Replay
import PinoyTax.Foundation.Grouping
import PinoyTax.Foundation.Repeats
import PinoyTax.Foundation.Lineage
import PinoyTax.Foundation.Ancestry
import PinoyTax.Foundation.Isolation
import PinoyTax.Foundation.Table
import PinoyTax.Foundation.Calendar
import PinoyTax.Foundation.Months
import PinoyTax.Foundation.InstantTexts
import PinoyTax.Foundation.Decimal
import PinoyTax.Foundation.Bands
import PinoyTax.Foundation.Cutoff
import PinoyTax.Foundation.Lockout
import PinoyTax.Schema.Values
import PinoyTax.Schema.Store
import PinoyTax.Schema.Prisma
import PinoyTax.TaxEngine.Engine
import PinoyTax.TaxEngine.Service
import PinoyTax.TaxEngine.Confirmation
import PinoyTax.TaxEngine.Graduated
import PinoyTax.TaxEngine.Seed
import PinoyTax.TaxEngine.MissingInputs
import PinoyTax.Payroll.Service
import PinoyTax.Payroll.Compute
import PinoyTax.Payroll.Requests
import PinoyTax.Payroll.Immutability
import PinoyTax.Payroll.Deductions
import PinoyTax.Payroll.Completeness
import PinoyTax.Payroll.Phases
import PinoyTax.Payroll.Duplicates
import PinoyTax.Payroll.FinalizeRace
import PinoyTax.Payroll.NetPay
import PinoyTax.Payroll.Recompute
import PinoyTax.Payroll.Failures
import PinoyTax.Compliance.Service
import PinoyTax.Compliance.Filings
import PinoyTax.Compliance.Scans
import PinoyTax.Notifications.DeadlineReminderJob
import PinoyTax.Compliance.Overdue
import PinoyTax.Compliance.DuplicateFlags
import PinoyTax.Compliance.Periods
import PinoyTax.Compliance.FirstScan
import PinoyTax.Compliance.StatusRows
import PinoyTax.Documents.Service
import PinoyTax.Documents.Versions
import PinoyTax.Documents.VersionRace
import PinoyTax.Identity.AuthService
import PinoyTax.Identity.AccountStatus
import PinoyTax.Identity.LoginAllowance
import PinoyTax.Identity.UsableTokens
import PinoyTax.Identity.PasswordReset
import PinoyTax.Identity.LockRace
import PinoyTax.Identity.PermissionsGuard
import PinoyTax.Identity.FirmPermissionsGuard
import PinoyTax.Firm.Service
import PinoyTax.Firm.Requests
import PinoyTax.Firm.Engagement
import PinoyTax.Firm.Frame
import PinoyTax.Firm.Owners
import PinoyTax.Firm.Grants
import PinoyTax.Firm.PermissionLists
import PinoyTax.Firm.Dashboard
import PinoyTax.Firm.OverdueFilings
import PinoyTax.Firm.ClientRows
import PinoyTax.Notifications.DailyStatuses
import PinoyTax.Org.Service
import PinoyTax.Org.Reinvitation
import PinoyTax.Org.Branches
import PinoyTax.Compliance.SalesTax
import PinoyTax.Compliance.Findings
import PinoyTax.Compliance.Threshold
import PinoyTax.Compliance.Rescan
import PinoyTax.Compliance.TrailingSales
import PinoyTax.Compliance.ScanRace
import PinoyTax.Org.StaffRace
import PinoyTax.Org.Ownership
import PinoyTax.Org.Frame
import PinoyTax.Tenancy.Restriction
import PinoyTax.Tenancy.Tables
import PinoyTax.Tenancy.Operations
import PinoyTax.Tenancy.TenantOperation
import PinoyTax.Tenancy.Reachable
import PinoyTax.Tenancy.Isolation
import PinoyTax.Identity.SessionPhases
import PinoyTax.Identity.TokenRotation
import PinoyTax.Identity.Revocation
import PinoyTax.Tenancy.References
import PinoyTax.Notifications.Service
import PinoyTax.Notifications.Delivery
import PinoyTax.Notifications.Reminders
import PinoyTax.Notifications.ReminderRuns
import PinoyTax.Notifications.Recipients
import PinoyTax.Audit.Interceptor
import PinoyTax.Audit.Writes
import PinoyTax.Audit.Routes
import PinoyTax.Audit.EntityIds
import PinoyTax.Identity.LoginResponses
import PinoyTax.Ai.KnowledgeBase
import PinoyTax.Ai.RatesInForce
import PinoyTax.Foundation.Exchanges
import PinoyTax.Ai.AssistantService
import PinoyTax.Ai.Conversations
import PinoyTax.Foundation.Ranking
import PinoyTax.Web.ApiClient
import PinoyTax.Web.SingleRefresh
import PinoyTax.Web.Settlement
import PinoyTax.Web.AuthApi
import PinoyTax.Web.LoginSubmissions
import PinoyTax.Tenancy.Routes
import PinoyTax.Tenancy.Strangers
import PinoyTax.Identity.Provenance
import PinoyTax.Documents.ObjectStore
import PinoyTax.Documents.Retention
import PinoyTax.Notifications.Preferences
import PinoyTax.Compliance.ProfileEvents
import PinoyTax.Compliance.ScanQueue
import PinoyTax.Ai.Prompts
import PinoyTax.Foundation.Unwinding
import PinoyTax.Tenancy.Confidentiality
import PinoyTax.TaxEngine.ExactTax
import PinoyTax.Payroll.TakeHome
import PinoyTax.Foundation.Catalogue
import PinoyTax.Seed.Contributions
