import PinoyTax.Foundation.Calendar
import PinoyTax.Foundation.Double
import PinoyTax.Schema.Prisma
import Mathlib.Data.List.Sort

/-! # ComplianceService

The scan of a company: the deadlines it is expected to have, the two checks that flag
issues, and the counts per agency. Local dates are those of the server, whose time
differs from UTC by a fixed offset; the columns of a deadline hold UTC calendar days.
-/
namespace PinoyTax.Compliance
open PinoyTax Foundation Calendar

def issueNotFound : ApiException := .notFound "ISSUE_NOT_FOUND" "Flagged issue not found."

/-! ## Listeners, lists and the status of an issue -/

/-- `enqueueComplianceScan`. -/
def enqueueComplianceScan (companyId : Uuid) : Request Unit := publish (.complianceScanQueued companyId)

def handleCompanyCreated (companyId : Uuid) : Request Unit := enqueueComplianceScan companyId
def handleCompanyUpdated (companyId : Uuid) : Request Unit := enqueueComplianceScan companyId

def getDeadlines (companyId : Uuid) (status : Option FilingStatus) : Request (List FilingDeadline) := do
  let deadlines ← Prisma.filingDeadline.findMany
    (fun d => decide (d.companyId = companyId) && status.all (fun s => d.status == s))
  pure (deadlines.insertionSort (fun a b => a.dueDate ≤ b.dueDate))

def getComplianceStatus (companyId : Uuid) : Request (List ComplianceStatus) :=
  Prisma.complianceStatus.findMany (fun c => c.companyId = companyId)

/-- The order in which the enumeration declares the severities. -/
def severityRank : IssueSeverity → ℕ
  | .low => 0
  | .medium => 1
  | .high => 2
  | .critical => 3

/-- `[{ severity: 'desc' }, { detectedAt: 'desc' }]`. -/
def issueBefore (a b : FlaggedIssue) : Prop :=
  severityRank b.severity < severityRank a.severity ∨
    severityRank b.severity = severityRank a.severity ∧ b.detectedAt ≤ a.detectedAt

instance : DecidableRel issueBefore := fun a b => by unfold issueBefore; infer_instance

def getFlaggedIssues (companyId : Uuid) : Request (List FlaggedIssue) := do
  let issues ← Prisma.flaggedIssue.findMany (fun i => i.companyId = companyId)
  pure (issues.insertionSort issueBefore)

def setIssueStatus (status : IssueStatus) (resolvedAt : Option DateTime) (i : FlaggedIssue) : FlaggedIssue :=
  { i with status := status, resolvedAt := resolvedAt }

def updateIssueStatus (companyId issueId : Uuid) (status : IssueStatus) (now : DateTime) : Request FlaggedIssue := do
  let issue ← ownedBy FlaggedIssue.companyId companyId issueNotFound
    (← Prisma.flaggedIssue.findUnique (fun i => i.id = issueId))
  Prisma.flaggedIssue.update (fun i => i.id = issueId)
    (setIssueStatus status (if status = .resolved then some now else issue.resolvedAt))

/-! ## The expected deadlines -/

structure Candidate where
  formCode : String
  agency : Agency
  periodStart : DateTime
  periodEnd : DateTime
  dueDate : DateTime
deriving DecidableEq, Repr

section
variable (offset : ℤ)

def getQuarter (reference : DateTime) (quartersAhead : ℕ) : DateTime × DateTime :=
  let c := localCivil offset reference
  let targetMonth := c.month / 3 * 3 + quartersAhead * 3
  (localDate offset c.year targetMonth 1,localDate offset c.year (targetMonth + 3) 0)

def getMonth (reference : DateTime) (monthsAhead : ℕ) : DateTime × DateTime :=
  let c := localCivil offset reference
  (localDate offset c.year (c.month + monthsAhead) 1,localDate offset c.year (c.month + monthsAhead + 1) 0)

def endOfMonth (date : DateTime) : DateTime :=
  let c := localCivil offset date
  localDate offset c.year (c.month + 1) 0

def addDays (date : DateTime) (days : ℤ) : DateTime := setDate offset date ((localCivil offset date).date + days)

def salesTaxDeadline (company : Company) (today : DateTime) (q : ℕ) : Candidate :=
  let period := getQuarter offset today q
  { formCode := if company.vatClassification = .vat then "2550Q" else "2551Q"
    agency := .bir
    periodStart := period.1
    periodEnd := period.2
    dueDate := addDays offset (endOfMonth offset period.2) 25 }

def incomeTaxDeadline (company : Company) (today : DateTime) (q : ℕ) : Candidate :=
  let period := getQuarter offset today q
  { formCode := if company.businessType = .corporation ∨ company.businessType = .opc then "1702Q" else "1701Q"
    agency := .bir
    periodStart := period.1
    periodEnd := period.2
    dueDate := addDays offset period.2 60 }

/-- The five monthly forms of a company with active employees. -/
def monthlyDeadlines (today : DateTime) (m : ℕ) : List Candidate :=
  let period := getMonth offset today m
  let due := addDays offset (endOfMonth offset period.2)
  [⟨"1601C",.bir,period.1,period.2,due 10⟩,
    ⟨"0619E",.bir,period.1,period.2,due 10⟩,
    ⟨"SSS_CONTRIBUTION",.sss,period.1,period.2,due 30⟩,
    ⟨"PHILHEALTH_CONTRIBUTION",.philhealth,period.1,period.2,due 20⟩,
    ⟨"PAGIBIG_CONTRIBUTION",.pagibig,period.1,period.2,due 15⟩]

def candidates (company : Company) (activeEmployeeCount : ℕ) (today : DateTime) : List Candidate :=
  (List.range 4).map (salesTaxDeadline offset company today) ++
    (List.range 4).map (incomeTaxDeadline offset company today) ++
    (if activeEmployeeCount > 0 then (List.range 12).flatMap (monthlyDeadlines offset today) else [])

/-- `formCode|periodStart|periodEnd`. -/
def existsAlready (existing : List FilingDeadline) (c : Candidate) : Bool :=
  existing.any (fun e => e.formCode == c.formCode && e.periodStart == c.periodStart && e.periodEnd == c.periodEnd)

def deadlineRow (companyId : Uuid) (today : DateTime) (id : Uuid) (c : Candidate) : FilingDeadline where
  id := id
  companyId := companyId
  formCode := c.formCode
  agency := c.agency
  periodStart := dateColumn c.periodStart
  periodEnd := dateColumn c.periodEnd
  dueDate := dateColumn c.dueDate
  status := if c.dueDate < today then .overdue else .upcoming

def generateFilingDeadlines (companyId : Uuid) (company : Company) (ids : ℕ → Uuid) (today : DateTime) :
    Request Unit := do
  let activeEmployeeCount ← Prisma.employee.count (isActiveIn companyId)
  let candidates := candidates offset company activeEmployeeCount today
  let existing ← Prisma.filingDeadline.findMany
    (fun d => decide (d.companyId = companyId) && (candidates.map Candidate.formCode).contains d.formCode)
  let toCreate := candidates.filter (fun c => !existsAlready existing c)
  if toCreate.length > 0 then
    Prisma.filingDeadline.createMany (toCreate.zipIdx.map (fun c => deadlineRow companyId today (ids c.2) c.1))
  else pure ()

end

/-! ## The two checks -/

/-- `inputs.grossSales ?? inputs.grossReceipts ?? 0`. -/
def grossOf (c : TaxComputation) : ℚ := Double.nearest ((c.inputs.grossSales <|> c.inputs.grossReceipts).getD 0)

/-- `Number(rateValue)`. -/
def thresholdOf (rate : TaxRateHistory) : ℚ := Double.nearest rate.rateValue

def findThresholdRule : Request (Option TaxRule) :=
  .query (.on .taxRule .findFirst) (fun s =>
    s.taxEngine.taxRules.find? (fun r => r.ruleCode = "VAT_REGISTRATION_THRESHOLD"))

def isOpenIssue (companyId : Uuid) (issueType : IssueType) (i : FlaggedIssue) : Bool :=
  decide (i.companyId = companyId) && decide (i.issueType = issueType) && decide (i.status = .open)

def vatIssue (companyId : Uuid) (totalGrossSales threshold : ℚ) (id : Uuid) (now : DateTime) : FlaggedIssue where
  id := id
  companyId := companyId
  issueType := .vat_misclassification
  severity := .high
  description := "Trailing gross sales/receipts (₱" ++ toLocaleString totalGrossSales ++
    ") exceed the VAT registration threshold (₱" ++ toLocaleString threshold ++
    ") while this company is classified non-VAT."
  recommendedAction :=
    some "Review VAT registration requirements with your accountant; mandatory VAT registration may now apply."
  detectedAt := now

def isConfirmedOf (companyId : Uuid) (c : TaxComputation) : Bool :=
  decide (c.companyId = companyId) && decide (c.status = .confirmed)

/-- Flag the issue unless an open one of the kind is there. -/
def flagUnless (alreadyFlagged : FlaggedIssue → Bool) (issue : FlaggedIssue) : Request Unit := do
  match ← Prisma.flaggedIssue.findFirst alreadyFlagged with
  | some _ => pure ()
  | none => do
    let _ ← Prisma.flaggedIssue.create issue
    pure ()

def checkVatClassificationRisk (companyId : Uuid) (company : Company) (id : Uuid) (now : DateTime) :
    Request Unit := do
  match ← findThresholdRule with
  | none => pure ()
  | some thresholdRule =>
    match thresholdRule.ratesHistory with
    | [] => pure ()
    | rate :: _ =>
      if company.vatClassification = .vat then pure ()
      else do
        let threshold := thresholdOf rate
        let confirmed ← Prisma.taxComputation.findMany (isConfirmedOf companyId)
        let recentComputations := (confirmed.insertionSort (fun a b => b.periodEnd ≤ a.periodEnd)).take 12
        let totalGrossSales := Double.sum (recentComputations.map grossOf)
        if totalGrossSales > threshold then
          flagUnless (isOpenIssue companyId .vat_misclassification) (vatIssue companyId totalGrossSales threshold id now)
        else pure ()

def periodKey (run : PayrollRun) : String := toISOString run.periodStart ++ "_" ++ toISOString run.periodEnd

def duplicateIssue (offset : ℤ) (companyId : Uuid) (run : PayrollRun) (id : Uuid) (now : DateTime) :
    FlaggedIssue where
  id := id
  companyId := companyId
  issueType := .duplicate_transaction
  severity := .medium
  description := "A payroll run already exists for period " ++ toDateString offset run.periodStart ++ " – " ++
    toDateString offset run.periodEnd ++ "."
  recommendedAction := some "Review both payroll runs and void the duplicate if confirmed."
  relatedEntityType := some "payroll_run"
  relatedEntityId := some run.id
  detectedAt := now

def isFlaggedRun (companyId runId : Uuid) (i : FlaggedIssue) : Bool :=
  isOpenIssue companyId .duplicate_transaction i && decide (i.relatedEntityId = some runId)

/-- `for (const run of runs)`, with the periods seen so far. -/
def flagDuplicates (offset : ℤ) (companyId : Uuid) (now : DateTime) :
    (ℕ → Uuid) → List String → List PayrollRun → Request Unit
  | _, _, [] => pure ()
  | ids, seenPeriods, run :: runs => do
    if seenPeriods.contains (periodKey run) then
      flagUnless (isFlaggedRun companyId run.id) (duplicateIssue offset companyId run (ids 0) now)
    else pure ()
    flagDuplicates offset companyId now (fun i => ids (i + 1)) (periodKey run :: seenPeriods) runs

def checkDuplicatePayrollRuns (offset : ℤ) (companyId : Uuid) (ids : ℕ → Uuid) (now : DateTime) : Request Unit := do
  let runs ← Prisma.payrollRun.findMany (fun r => r.companyId = companyId)
  flagDuplicates offset companyId now ids [] (runs.insertionSort (fun a b => a.periodStart ≤ b.periodStart))

/-! ## The counts per agency -/

structure Counts where
  completed : ℕ := 0
  pending : ℕ := 0
  missing : ℕ := 0
  overdue : ℕ := 0
deriving DecidableEq, Repr

/-- `agency.toUpperCase()`. -/
def categoryOf : Agency → String
  | .bir => "BIR"
  | .sss => "SSS"
  | .philhealth => "PHILHEALTH"
  | .pagibig => "PAGIBIG"
  | .lgu => "LGU"

def Counts.add (counts : Counts) : FilingStatus → Counts
  | .filed => { counts with completed := counts.completed + 1 }
  | .overdue => { counts with overdue := counts.overdue + 1 }
  | _ => { counts with pending := counts.pending + 1 }

/-- The bucket of the deadline's category; a category keeps its place once it is in the map. -/
def tally (d : FilingDeadline) : List (String × Counts) → List (String × Counts)
  | [] => [(categoryOf d.agency,Counts.add {} d.status)]
  | (category,counts) :: buckets =>
    if category = categoryOf d.agency then (category,counts.add d.status) :: buckets
    else (category,counts) :: tally d buckets

def byCategory (deadlines : List FilingDeadline) : List (String × Counts) :=
  deadlines.foldl (fun buckets d => tally d buckets) []

/-- `Number(((counts.completed / total) * 100).toFixed(2))`, in a column with two decimals. -/
def percentage (counts : Counts) : ℚ :=
  let total := counts.completed + counts.pending + counts.missing + counts.overdue
  if total > 0 then toFixed 2 (Double.mul (Double.div counts.completed total) 100) else 100

def setCounts (counts : Counts) (now : DateTime) (c : ComplianceStatus) : ComplianceStatus :=
  { c with
    completedCount := counts.completed
    pendingCount := counts.pending
    missingCount := counts.missing
    overdueCount := counts.overdue
    compliancePercentage := percentage counts
    lastComputedAt := now }

def isStatusOf (companyId : Uuid) (category : String) (c : ComplianceStatus) : Bool :=
  decide (c.companyId = companyId) && decide (c.category = category)

def recordCounts (companyId : Uuid) (now : DateTime) (id : Uuid) (bucket : String × Counts) : Request Unit := do
  match ← Prisma.complianceStatus.findFirst (isStatusOf companyId bucket.1) with
  | some existing => do
    let _ ← Prisma.complianceStatus.update (fun c => c.id = existing.id) (setCounts bucket.2 now)
    pure ()
  | none => do
    let _ ← Prisma.complianceStatus.create (setCounts bucket.2 now
      { id := id, companyId := companyId, category := bucket.1, lastComputedAt := now })
    pure ()

/-- `for (const [category, counts] of byCategory.entries())`. -/
def recordAll (companyId : Uuid) (now : DateTime) : (ℕ → Uuid) → List (String × Counts) → Request Unit
  | _, [] => pure ()
  | ids, bucket :: buckets => do
    recordCounts companyId now (ids 0) bucket
    recordAll companyId now (fun i => ids (i + 1)) buckets

def recomputeComplianceStatus (companyId : Uuid) (ids : ℕ → Uuid) (now : DateTime) : Request Unit := do
  let deadlines ← Prisma.filingDeadline.findMany (fun d => d.companyId = companyId)
  recordAll companyId now ids (byCategory deadlines)

/-! ## The scan -/

/-- The ids a scan draws: for deadlines, for issues and for status rows. -/
structure ScanDraw where
  deadlineIds : ℕ → Uuid
  issueIds : ℕ → Uuid
  statusIds : ℕ → Uuid

def runComplianceScan (offset : ℤ) (companyId : Uuid) (draw : ScanDraw) (now : DateTime) : Request Unit := do
  match ← Prisma.company.findUnique (fun c => c.id = companyId) with
  | none => pure ()
  | some company => do
    generateFilingDeadlines offset companyId company draw.deadlineIds now
    checkVatClassificationRisk companyId company (draw.issueIds 0) now
    checkDuplicatePayrollRuns offset companyId (fun i => draw.issueIds (i + 1)) now
    recomputeComplianceStatus companyId draw.statusIds now

section
variable {offset : ℤ} {companyId : Uuid} {draw : ScanDraw} {now : DateTime} {s t u v : Store}

theorem run_runComplianceScan_none (hcompany : s.org.companies.find? (fun c => c.id = companyId) = none) :
    (runComplianceScan offset companyId draw now).run s = (.ok (),s) := by
  have hget : Prisma.company.get s = s.org.companies := rfl
  rw [runComplianceScan,Prog.run_bind,TableRef.run_findUnique,Prog.resume_ok,hget,hcompany]
  rfl

/-- The phases of a scan, one after the other. -/
theorem run_runComplianceScan_some {company : Company}
    (hcompany : s.org.companies.find? (fun c => c.id = companyId) = some company)
    (hdeadlines : (generateFilingDeadlines offset companyId company draw.deadlineIds now).run s = (.ok (),t))
    (hvat : (checkVatClassificationRisk companyId company (draw.issueIds 0) now).run t = (.ok (),u))
    (hduplicates : (checkDuplicatePayrollRuns offset companyId (fun i => draw.issueIds (i + 1)) now).run u = (.ok (),v)) :
    (runComplianceScan offset companyId draw now).run s =
      (recomputeComplianceStatus companyId draw.statusIds now).run v := by
  have hget : Prisma.company.get s = s.org.companies := rfl
  rw [runComplianceScan,Prog.run_bind,TableRef.run_findUnique,Prog.resume_ok,hget,hcompany]
  dsimp only
  rw [Prog.run_bind,hdeadlines,Prog.resume_ok,Prog.run_bind,hvat,Prog.resume_ok,Prog.run_bind,hduplicates,Prog.resume_ok]

end
end PinoyTax.Compliance
