import PinoyTax.Schema.Values

/-! # Rows and tables, schema by schema

The columns kept are those that a modelled operation reads, writes or returns.
Join tables whose rows are only pairs of ids are kept as id lists on the row that
owns them. The events handed to the message broker and to the job queue are part of
the store, in the order of their publication.
-/
namespace PinoyTax

/-! ## identity -/

structure Permission where
  id : Uuid
  code : String
deriving DecidableEq, Repr

structure Role where
  id : Uuid
  code : String
  permissionIds : List Uuid
deriving DecidableEq, Repr

structure User where
  id : Uuid
  email : String
  passwordHash : Option String := none
  isEmailVerified : Bool := false
  status : UserStatus := .active
  failedLoginAttempts : ℕ := 0
  lockedUntil : Option DateTime := none
  phoneNumber : Option String := none
deriving DecidableEq, Repr

structure Session where
  id : Uuid
  userId : Uuid
  refreshTokenHash : String
  deviceFingerprint : String
  deviceName : Option String := none
  ipAddress : Option String := none
  userAgent : Option String := none
  isRememberMe : Bool := false
  lastActiveAt : DateTime
  expiresAt : DateTime
  revokedAt : Option DateTime := none
deriving DecidableEq, Repr

structure LoginHistory where
  userId : Uuid
  status : LoginStatus
  ipAddress : Option String
  userAgent : Option String
deriving DecidableEq, Repr

/-- The common columns of `password_reset_tokens` and `email_verification_tokens`. -/
structure MailedToken where
  id : Uuid
  userId : Uuid
  tokenHash : String
  expiresAt : DateTime
  usedAt : Option DateTime := none
deriving DecidableEq, Repr

structure SecurityEvent where
  userId : Uuid
  eventType : String
  lockedUntil : DateTime
deriving DecidableEq, Repr

structure Identity where
  permissions : List Permission := []
  roles : List Role := []
  users : List User := []
  sessions : List Session := []
  loginHistory : List LoginHistory := []
  passwordResetTokens : List MailedToken := []
  emailVerificationTokens : List MailedToken := []
  securityEvents : List SecurityEvent := []
deriving DecidableEq, Repr

/-! ## org -/

structure FirmPermission where
  id : Uuid
  code : String
deriving DecidableEq, Repr

structure FirmRole where
  id : Uuid
  code : String
  firmPermissionIds : List Uuid
deriving DecidableEq, Repr

structure Firm where
  id : Uuid
  firmName : String
  firmType : FirmType
  contactEmail : String
  contactNumber : Option String := none
deriving DecidableEq, Repr

structure FirmMembership where
  id : Uuid
  firmId : Uuid
  userId : Uuid
  firmRoleId : Uuid
  invitedById : Option Uuid := none
  status : FirmMembershipStatus := .pending
  invitedAt : DateTime
  acceptedAt : Option DateTime := none
deriving DecidableEq, Repr

structure FirmCompanyAssignment where
  id : Uuid
  firmMembershipId : Uuid
  companyId : Uuid
  assignedById : Option Uuid := none
  status : FirmCompanyAssignmentStatus := .active
  permissionIds : List Uuid := []
deriving DecidableEq, Repr

structure FirmClientInvitation where
  id : Uuid
  firmId : Uuid
  companyId : Uuid
  invitedById : Option Uuid := none
  status : FirmClientInvitationStatus := .pending
  respondedAt : Option DateTime := none
deriving DecidableEq, Repr

structure Company where
  id : Uuid
  firmId : Option Uuid := none
  businessName : String
  tradeName : Option String := none
  businessType : BusinessType
  vatClassification : VatClassification
  tin : String
  rdoCode : Option String := none
  businessAddress : Option String := none
  email : Option String := none
  contactNumber : Option String := none
deriving DecidableEq, Repr

structure UserCompanyRole where
  id : Uuid
  userId : Uuid
  companyId : Uuid
  roleId : Uuid
  invitedById : Option Uuid := none
  status : UserCompanyRoleStatus := .pending
  acceptedAt : Option DateTime := none
deriving DecidableEq, Repr

structure Org where
  firmPermissions : List FirmPermission := []
  firmRoles : List FirmRole := []
  firms : List Firm := []
  firmMemberships : List FirmMembership := []
  firmCompanyAssignments : List FirmCompanyAssignment := []
  firmClientInvitations : List FirmClientInvitation := []
  companies : List Company := []
  userCompanyRoles : List UserCompanyRole := []
deriving DecidableEq, Repr

/-! ## payroll -/

structure Employee where
  id : Uuid
  companyId : Uuid
  firstName : String
  lastName : String
  tin : Option String := none
  sssNumber : Option String := none
  philhealthNumber : Option String := none
  pagibigNumber : Option String := none
  employmentStatus : EmploymentStatus := .active
  dateHired : DateTime
  basicSalary : Money
  payFrequency : PayFrequency
deriving DecidableEq, Repr

structure PayrollRun where
  id : Uuid
  companyId : Uuid
  periodStart : DateTime
  periodEnd : DateTime
  status : PayrollRunStatus := .draft
  createdById : Option Uuid := none
  finalizedAt : Option DateTime := none
  createdAt : DateTime
deriving DecidableEq, Repr

structure ComputationSnapshot where
  errors : List String
  computedAt : DateTime
deriving DecidableEq, Repr

structure Payslip where
  id : Uuid
  payrollRunId : Uuid
  employeeId : Uuid
  basicPay : Money
  overtimePay : Money
  holidayPay : Money
  allowances : Money
  sssContribution : Money
  philhealthContribution : Money
  pagibigContribution : Money
  withholdingTax : Money
  grossPay : Money
  totalDeductions : Money
  netPay : Money
  computationSnapshot : Option ComputationSnapshot := none
deriving DecidableEq, Repr

structure Payroll where
  employees : List Employee := []
  payrollRuns : List PayrollRun := []
  payslips : List Payslip := []
deriving DecidableEq, Repr

/-! ## tax_engine -/

structure TaxRateHistory where
  id : Uuid
  rateValue : ℚ
  bracketMin : Option Money := none
  bracketMax : Option Money := none
  effectiveFrom : DateTime
  effectiveTo : Option DateTime := none
deriving DecidableEq, Repr

/-- A rule with its rate rows, in the order the database returns them. -/
structure TaxRule where
  id : Uuid
  ruleCode : String
  sourceReference : Option String := none
  effectiveFrom : DateTime
  effectiveTo : Option DateTime := none
  ratesHistory : List TaxRateHistory := []
deriving DecidableEq, Repr

structure ComputeTaxDto where
  computationType : ComputationType
  periodStart : DateTime
  periodEnd : DateTime
  grossSales : Option ℚ := none
  grossReceipts : Option ℚ := none
  businessExpenses : Option ℚ := none
  payrollExpenses : Option ℚ := none
  otherDeductions : Option ℚ := none
deriving DecidableEq, Repr

structure TaxComputation where
  id : Uuid
  companyId : Uuid
  computationType : ComputationType
  periodStart : DateTime
  periodEnd : DateTime
  inputs : ComputeTaxDto
  ruleIdsUsed : List Uuid
  result : Option Money
  missingInputs : List String
  status : ComputationStatus := .draft
  createdAt : DateTime
deriving DecidableEq, Repr

structure TaxEngine where
  taxRules : List TaxRule := []
  taxComputations : List TaxComputation := []
deriving DecidableEq, Repr

/-! ## compliance -/

structure FilingDeadline where
  id : Uuid
  companyId : Uuid
  formCode : String
  agency : Agency
  periodStart : DateTime
  periodEnd : DateTime
  dueDate : DateTime
  status : FilingStatus := .upcoming
deriving DecidableEq, Repr

structure ComplianceStatus where
  id : Uuid
  companyId : Uuid
  category : String
  completedCount : ℕ := 0
  pendingCount : ℕ := 0
  missingCount : ℕ := 0
  overdueCount : ℕ := 0
  compliancePercentage : ℚ := 0
  lastComputedAt : DateTime
deriving DecidableEq, Repr

structure FlaggedIssue where
  id : Uuid
  companyId : Uuid
  issueType : IssueType
  severity : IssueSeverity
  description : String
  recommendedAction : Option String := none
  relatedEntityType : Option String := none
  relatedEntityId : Option Uuid := none
  status : IssueStatus := .open
  detectedAt : DateTime
  resolvedAt : Option DateTime := none
deriving DecidableEq, Repr

structure Compliance where
  filingDeadlines : List FilingDeadline := []
  complianceStatus : List ComplianceStatus := []
  flaggedIssues : List FlaggedIssue := []
deriving DecidableEq, Repr

/-! ## documents -/

structure Folder where
  id : Uuid
  companyId : Uuid
  name : String
  parentFolderId : Option Uuid := none
deriving DecidableEq, Repr

structure VaultDocument where
  id : Uuid
  companyId : Uuid
  folderId : Option Uuid := none
  category : String
  fileName : String
  storageKey : String
  mimeType : Option String := none
  sizeBytes : Option ℕ := none
  uploadedById : Option Uuid := none
  currentVersionId : Option Uuid := none
  createdAt : DateTime
deriving DecidableEq, Repr

structure DocumentVersion where
  id : Uuid
  documentId : Uuid
  storageKey : String
  versionNumber : ℕ
  uploadedById : Option Uuid := none
deriving DecidableEq, Repr

structure Documents where
  folders : List Folder := []
  vaultDocuments : List VaultDocument := []
  documentVersions : List DocumentVersion := []
deriving DecidableEq, Repr

/-! ## notifications -/

inductive NotificationChannel | email | sms | push | in_app
deriving DecidableEq, Repr

inductive NotificationStatus | queued | sent | failed | read
deriving DecidableEq, Repr

structure NotificationPreference where
  userId : Uuid
  channel : NotificationChannel
  category : String
  isEnabled : Bool := true
deriving DecidableEq, Repr

structure Notification where
  id : Uuid
  companyId : Option Uuid := none
  userId : Uuid
  channel : NotificationChannel
  category : String
  title : String
  body : String
  relatedDeadlineId : Option Uuid := none
  status : NotificationStatus := .queued
  scheduledFor : Option DateTime := none
  sentAt : Option DateTime := none
deriving DecidableEq, Repr

/-- `Partial<Record<'email' | 'sms' | 'push', string>>`. -/
structure RecipientAddresses where
  email : Option String := none
  sms : Option String := none
  push : Option String := none
deriving DecidableEq, Repr

/-- What the queue holds for a notification. -/
structure NotificationDispatchJobData where
  userId : Uuid
  companyId : Option Uuid := none
  category : String
  title : String
  body : String
  recipientAddressByChannel : RecipientAddresses
  relatedDeadlineId : Option Uuid := none
deriving DecidableEq, Repr

/-- Whom a channel sends to: an address, or for `in_app` the user. -/
inductive Recipient
  | address (value : String)
  | user (userId : Uuid)
deriving DecidableEq, Repr

/-- `{ to, title, body }`. -/
structure NotificationPayload where
  recipient : Recipient
  title : String
  body : String
deriving DecidableEq, Repr

/-- What a channel has sent, and the row that stands for it. -/
structure Delivery where
  notificationId : Uuid
  channel : NotificationChannel
  payload : NotificationPayload
deriving DecidableEq, Repr

structure Notifications where
  notificationPreferences : List NotificationPreference := []
  notifications : List Notification := []
  queue : List NotificationDispatchJobData := []
  delivered : List Delivery := []
deriving DecidableEq, Repr

/-! ## Messages that leave the service -/

inductive DomainEvent
  | companyCreatedEmitted (companyId : Uuid)
  | companyCreated (companyId : Uuid) (tin : String)
  | companyUpdatedEmitted (companyId : Uuid)
  | companyUpdated (companyId : Uuid) (vatClassification : VatClassification)
  | payrollFinalized (payrollRunId companyId : Uuid)
  | taxComputationConfirmed (taxComputationId companyId : Uuid) (computationType : ComputationType)
  | complianceScanQueued (companyId : Uuid)
deriving DecidableEq, Repr

def DomainEvent.companyId : DomainEvent → Uuid
  | companyCreatedEmitted c => c
  | companyCreated c _ => c
  | companyUpdatedEmitted c => c
  | companyUpdated c _ => c
  | payrollFinalized _ c => c
  | taxComputationConfirmed _ c _ => c
  | complianceScanQueued c => c

structure Store where
  identity : Identity := {}
  org : Org := {}
  payroll : Payroll := {}
  taxEngine : TaxEngine := {}
  compliance : Compliance := {}
  documents : Documents := {}
  notifications : Notifications := {}
  published : List DomainEvent := []
deriving DecidableEq, Repr

/-- `{ companyId, employmentStatus: 'active' }`. -/
def isActiveIn (companyId : Uuid) (e : Employee) : Bool :=
  decide (e.companyId = companyId) && decide (e.employmentStatus = .active)

def activeEmployees (s : Store) (companyId : Uuid) : List Employee :=
  s.payroll.employees.filter (isActiveIn companyId)

end PinoyTax
