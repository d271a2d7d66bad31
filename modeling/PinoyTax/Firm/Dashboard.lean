import PinoyTax.Foundation.Double
import PinoyTax.Foundation.Grouping
import PinoyTax.Firm.Service
import PinoyTax.Compliance.Service

/-! # The firm dashboard

The reads of the dashboard in their order, and what it makes of them. The collation of
the database and the one of the server are parameters, as is the completion that phrases
the insight.
-/
namespace PinoyTax.Firm
open PinoyTax Foundation Grouping Identity

/-- `Math.round(x * 100) / 100`. -/
def roundCents (x : ℚ) : ℚ := Double.div (Double.round (Double.mul x 100)) 100

structure OpenIssuesBySeverity where
  critical : ℕ
  high : ℕ
  medium : ℕ
  low : ℕ
deriving DecidableEq, Repr

structure PayrollSummary where
  status : PayrollRunStatus
  periodStart : DateTime
  periodEnd : DateTime
deriving DecidableEq, Repr

structure TaxSummary where
  computationType : ComputationType
  status : ComputationStatus
  periodEnd : DateTime
deriving DecidableEq, Repr

structure ClientFigures where
  id : Uuid
  businessName : String
  tradeName : Option String
  vatClassification : VatClassification
  compliancePercentage : ℚ
  overdueFilings : ℕ
  upcomingDeadlines : ℕ
  openIssuesBySeverity : OpenIssuesBySeverity
  latestPayrollRun : Option PayrollSummary
  latestTaxComputation : Option TaxSummary
deriving DecidableEq, Repr

structure Totals where
  totalClients : ℕ := 0
  avgCompliancePercentage : ℚ := 0
  totalOverdueFilings : ℕ := 0
  totalOpenCriticalIssues : ℕ := 0
  totalOpenHighIssues : ℕ := 0
deriving DecidableEq, Repr

structure ClientInNeed where
  businessName : String
  compliancePercentage : ℚ
  overdueFilings : ℕ
  openCriticalIssues : ℕ
deriving DecidableEq, Repr

/-- An entry of the deadline feed. -/
structure FeedEntry where
  id : Uuid
  companyId : Uuid
  companyName : String
  formCode : String
  agency : Agency
  dueDate : DateTime
  status : FilingStatus
deriving DecidableEq, Repr

structure Dashboard where
  firm : Firm
  clients : List ClientFigures
  totals : Totals
  upcomingDeadlines : List FeedEntry
  aiInsight : Option String
deriving DecidableEq, Repr

/-! ## The reads -/

def hasFirmPermission (firmId userId : Uuid) (permissionCode : String) : Request Bool := do
  match ← FirmPermissionsGuard.findFirmMembership userId firmId with
  | none => pure false
  | some (_,codes) => pure (codes.contains permissionCode)

/-- The assignments with their companies included. -/
def findAssignedCompanies (membershipId : Uuid) : Request (List Company) :=
  .query (.on .firmCompanyAssignment .findMany) (fun s =>
    (s.org.firmCompanyAssignments.filter (isActiveOf membershipId)).filterMap (fun a =>
      s.org.companies.find? (fun c => c.id = a.companyId)))

/-- `distinct`: the first row of each key. -/
def distinct {ρ κ : Type} [DecidableEq κ] (key : ρ → κ) (rows : List ρ) : List ρ :=
  rows.foldl (fun kept r => if kept.any (fun k => key k = key r) then kept else kept ++ [r]) []

/-- `[{ companyId: 'asc' }, { createdAt: 'desc' }]`. -/
def newestFirst {ρ : Type} (companyId : ρ → Uuid) (createdAt : ρ → DateTime) (a b : ρ) : Prop :=
  companyId a < companyId b ∨ companyId a = companyId b ∧ createdAt b ≤ createdAt a

instance {ρ : Type} (companyId : ρ → Uuid) (createdAt : ρ → DateTime) : DecidableRel (newestFirst companyId createdAt) :=
  fun a b => by unfold newestFirst; infer_instance

section
variable (collation localeCompare : String → String → Bool) (complete : Totals → List ClientInNeed → Option String)

def listClientCompanies (firmId requestingUserId : Uuid) : Request (List Company) := do
  let canSeeAll ← hasFirmPermission firmId requestingUserId "firm:clients:manage"
  if canSeeAll then do
    let companies ← Prisma.company.findMany (fun c => c.firmId == some firmId)
    pure (companies.insertionSort (fun a b => collation a.businessName b.businessName = true))
  else do
    match ← Prisma.firmMembership.findFirst (FirmPermissionsGuard.isActiveMember requestingUserId firmId) with
    | none => pure []
    | some membership => do
      let companies ← findAssignedCompanies membership.id
      pure (companies.insertionSort (fun a b => localeCompare a.businessName b.businessName = true))

def generatePortfolioInsight (totals : Totals) (clientsNeedingAttention : List ClientInNeed) : Option String :=
  if totals.totalClients = 0 then some "This firm doesn't have any client companies yet."
  else complete totals clientsNeedingAttention

/-! ## The figures -/

def bySeverity (issues : List FlaggedIssue) : OpenIssuesBySeverity where
  critical := (issues.filter (fun i => i.severity == .critical)).length
  high := (issues.filter (fun i => i.severity == .high)).length
  medium := (issues.filter (fun i => i.severity == .medium)).length
  low := (issues.filter (fun i => i.severity == .low)).length

def toPayrollSummary (run : PayrollRun) : PayrollSummary := ⟨run.status,run.periodStart,run.periodEnd⟩

def toTaxSummary (computation : TaxComputation) : TaxSummary :=
  ⟨computation.computationType,computation.status,computation.periodEnd⟩

/-- The percentages of the rows are decimals, and read as numbers. -/
def avgCompliance (compliance : List ComplianceStatus) : ℚ :=
  if compliance.length > 0 then
    Double.div (Double.sum (compliance.map fun r => Double.nearest r.compliancePercentage)) compliance.length
  else 0

/-- The rows that the dashboard reads about its companies. -/
structure PortfolioRows where
  complianceRows : List ComplianceStatus
  openIssues : List FlaggedIssue
  deadlines : List FilingDeadline
  latestPayrollRuns : List PayrollRun
  latestTaxComputations : List TaxComputation

def figuresOf (rows : PortfolioRows) (company : Company) : ClientFigures :=
  let compliance := ((groupBy ComplianceStatus.companyId rows.complianceRows).lookup company.id).getD []
  let issues := ((groupBy FlaggedIssue.companyId rows.openIssues).lookup company.id).getD []
  let companyDeadlines := ((groupBy FilingDeadline.companyId rows.deadlines).lookup company.id).getD []
  { id := company.id
    businessName := company.businessName
    tradeName := company.tradeName
    vatClassification := company.vatClassification
    compliancePercentage := roundCents (avgCompliance compliance)
    overdueFilings := (compliance.map ComplianceStatus.overdueCount).sum
    upcomingDeadlines := (companyDeadlines.filter (fun d => d.status != .overdue)).length
    openIssuesBySeverity := bySeverity issues
    latestPayrollRun := (rows.latestPayrollRuns.find? (fun r => r.companyId = company.id)).map toPayrollSummary
    latestTaxComputation := (rows.latestTaxComputations.find? (fun c => c.companyId = company.id)).map toTaxSummary }

def totalsOf (clients : List ClientFigures) : Totals where
  totalClients := clients.length
  avgCompliancePercentage :=
    if clients.length > 0 then
      roundCents (Double.div (Double.sum (clients.map ClientFigures.compliancePercentage)) clients.length)
    else 0
  totalOverdueFilings := (clients.map ClientFigures.overdueFilings).sum
  totalOpenCriticalIssues := (clients.map (fun c => c.openIssuesBySeverity.critical)).sum
  totalOpenHighIssues := (clients.map (fun c => c.openIssuesBySeverity.high)).sum

/-- The order of `clientsNeedingAttention`. -/
def needsMore (a b : ClientFigures) : Prop :=
  b.openIssuesBySeverity.critical < a.openIssuesBySeverity.critical ∨
    b.openIssuesBySeverity.critical = a.openIssuesBySeverity.critical ∧ b.overdueFilings ≤ a.overdueFilings

instance : DecidableRel needsMore := fun a b => by unfold needsMore; infer_instance

def clientsNeedingAttention (clients : List ClientFigures) : List ClientInNeed :=
  (((clients.filter (fun c => decide (c.overdueFilings > 0) || decide (c.openIssuesBySeverity.critical > 0))).insertionSort
    needsMore).take 10).map (fun c => ⟨c.businessName,c.compliancePercentage,c.overdueFilings,c.openIssuesBySeverity.critical⟩)

def feedEntry (companies : List Company) (d : FilingDeadline) : FeedEntry where
  id := d.id
  companyId := d.companyId
  companyName := ((companies.find? (fun c => c.id = d.companyId)).map Company.businessName).getD ""
  formCode := d.formCode
  agency := d.agency
  dueDate := d.dueDate
  status := d.status

/-- The five reads of `Promise.all`. -/
def findPortfolio (companyIds : List Uuid) : Request PortfolioRows := do
  let complianceRows ← Prisma.complianceStatus.findMany (fun r => companyIds.contains r.companyId)
  let openIssues ← Prisma.flaggedIssue.findMany (fun i => companyIds.contains i.companyId && i.status == .open)
  let deadlines ← Prisma.filingDeadline.findMany (fun d => companyIds.contains d.companyId &&
    (d.status == .upcoming || d.status == .due_today || d.status == .overdue))
  let payrollRuns ← Prisma.payrollRun.findMany (fun r => companyIds.contains r.companyId)
  let taxComputations ← Prisma.taxComputation.findMany (fun c => companyIds.contains c.companyId)
  pure
    { complianceRows := complianceRows
      openIssues := openIssues
      deadlines := deadlines.insertionSort (fun a b => a.dueDate ≤ b.dueDate)
      latestPayrollRuns := distinct PayrollRun.companyId
        (payrollRuns.insertionSort (newestFirst PayrollRun.companyId PayrollRun.createdAt))
      latestTaxComputations := distinct TaxComputation.companyId
        (taxComputations.insertionSort (newestFirst TaxComputation.companyId TaxComputation.createdAt)) }

def getFirmDashboard (firmId requestingUserId : Uuid) : Request Dashboard := do
  let firm ← getFirm firmId
  let companies ← listClientCompanies collation localeCompare firmId requestingUserId
  if companies.length = 0 then
    pure ⟨firm,[],{},[],generatePortfolioInsight complete {} []⟩
  else do
    let rows ← findPortfolio (companies.map Company.id)
    let clients := companies.map (figuresOf rows)
    let totals := totalsOf clients
    pure
      { firm := firm
        clients := clients
        totals := totals
        upcomingDeadlines := (rows.deadlines.take 15).map (feedEntry companies)
        aiInsight := generatePortfolioInsight complete totals (clientsNeedingAttention clients) }

end
end PinoyTax.Firm
