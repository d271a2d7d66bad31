import PinoyTax.TaxEngine.Service

/-! # PayrollService

Computing a run is the long sequence of the source: the status check, the status
update, the employee list, the deletion of earlier payslips, then for each employee
the four engine calls and one insertion. Row ids come from a supply, one id for
each inserted row.
-/
namespace PinoyTax.Payroll
open PinoyTax Foundation TaxEngine

def payrollRunNotFound : ApiException := .notFound "PAYROLL_RUN_NOT_FOUND" "Payroll run not found."

def payrollRunImmutable : ApiException :=
  .conflict "PAYROLL_RUN_IMMUTABLE"
    "This payroll run has already been finalized and cannot be recomputed."

def payrollRunHasErrors (details : List (Uuid × List String)) : ApiException where
  kind := .badRequest
  code := "PAYROLL_RUN_HAS_ERRORS"
  message := "Some payslips have unresolved computation errors (missing employee data or tax rules). Resolve them before finalizing."
  details := details

structure CreateEmployeeDto where
  firstName : String
  lastName : String
  tin : Option String := none
  sssNumber : Option String := none
  philhealthNumber : Option String := none
  pagibigNumber : Option String := none
  dateHired : DateTime
  basicSalary : ℚ
  payFrequency : PayFrequency
deriving DecidableEq, Repr

structure CreatePayrollRunDto where
  periodStart : DateTime
  periodEnd : DateTime
deriving DecidableEq, Repr

def employeeRow (companyId : Uuid) (dto : CreateEmployeeDto) (id : Uuid) : Employee where
  id := id
  companyId := companyId
  firstName := dto.firstName
  lastName := dto.lastName
  tin := dto.tin
  sssNumber := dto.sssNumber
  philhealthNumber := dto.philhealthNumber
  pagibigNumber := dto.pagibigNumber
  employmentStatus := .active
  dateHired := dateColumn dto.dateHired
  basicSalary := Money.ofNumber dto.basicSalary
  payFrequency := dto.payFrequency

def createEmployee (companyId : Uuid) (dto : CreateEmployeeDto) (id : Uuid) : Request Employee :=
  Prisma.employee.create (employeeRow companyId dto id)

def listEmployees (companyId : Uuid) : Request (List Employee) :=
  Prisma.employee.findMany (isActiveIn companyId)

def listPayrollRuns (companyId : Uuid) : Request (List PayrollRun) := do
  let runs ← Prisma.payrollRun.findMany (fun r => r.companyId = companyId)
  pure (runs.insertionSort (fun a b => b.periodStart ≤ a.periodStart))

/-- The payslips of a run, as the `payslips` relation includes them. -/
def payslipsOf (s : Store) (runId : Uuid) : List Payslip :=
  s.payroll.payslips.filter (fun p => p.payrollRunId = runId)

def findRunWithPayslips (runId : Uuid) : Request (Option (PayrollRun × List Payslip)) :=
  .query (.on .payrollRun .findUnique) (fun s =>
    (s.payroll.payrollRuns.find? (fun r => r.id = runId)).map (fun r => (r,payslipsOf s r.id)))

def findRunWithPayslipsAndEmployees (runId : Uuid) :
    Request (Option (PayrollRun × List (Payslip × Option Employee))) :=
  .query (.on .payrollRun .findUnique) (fun s =>
    (s.payroll.payrollRuns.find? (fun r => r.id = runId)).map (fun r =>
      (r,(payslipsOf s r.id).map (fun p => (p,s.payroll.employees.find? (fun e => e.id = p.employeeId))))))

def getPayrollRun (companyId payrollRunId : Uuid) : Request (PayrollRun × List (Payslip × Option Employee)) := do
  ownedBy (fun r => r.1.companyId) companyId payrollRunNotFound (← findRunWithPayslipsAndEmployees payrollRunId)

def payrollRunRow (companyId : Uuid) (dto : CreatePayrollRunDto) (createdById id : Uuid) (now : DateTime) :
    PayrollRun where
  id := id
  companyId := companyId
  periodStart := dateColumn dto.periodStart
  periodEnd := dateColumn dto.periodEnd
  status := .draft
  createdById := some createdById
  finalizedAt := none
  createdAt := now

def createPayrollRun (companyId : Uuid) (dto : CreatePayrollRunDto) (createdById id : Uuid) (now : DateTime) :
    Request PayrollRun :=
  Prisma.payrollRun.create (payrollRunRow companyId dto createdById id now)

/-- A nullable text column that `!value` lets through. -/
def present (number : Option String) : Bool := number.any (fun n => n != "")

/-- The amount of one engine call and the errors it pushes. -/
def resolved (r : EngineResult) : ℚ × List String :=
  if r.missingInputs.length > 0 then (0,r.missingInputs) else (r.result.getD 0,[])

def engineAmount (ruleCode : String) (basicPay : ℚ) (asOf : DateTime) : Request (ℚ × List String) := do
  let r ← computeGraduatedAmount ruleCode (some basicPay) asOf
  pure (resolved r)

/-- One of the three contributions that need a member number. -/
def contribution (number : Option String) (missing ruleCode : String) (basicPay : ℚ) (asOf : DateTime) :
    Request (ℚ × List String) :=
  if present number then engineAmount ruleCode basicPay asOf else pure (0,[missing])

def payslipRow (run : PayrollRun) (employee : Employee) (id : Uuid) (now : DateTime)
    (sss philhealth pagibig withholding : ℚ × List String) : Payslip :=
  let basicPay := employee.basicSalary.toNumber
  let totalDeductions := sss.1 + philhealth.1 + pagibig.1 + withholding.1
  let grossPay := basicPay
  let netPay := toFixed 2 (grossPay - totalDeductions)
  { id := id
    payrollRunId := run.id
    employeeId := employee.id
    basicPay := Money.ofNumber basicPay
    overtimePay := Money.ofNumber 0
    holidayPay := Money.ofNumber 0
    allowances := Money.ofNumber 0
    sssContribution := Money.ofNumber sss.1
    philhealthContribution := Money.ofNumber philhealth.1
    pagibigContribution := Money.ofNumber pagibig.1
    withholdingTax := Money.ofNumber withholding.1
    grossPay := Money.ofNumber grossPay
    totalDeductions := Money.ofNumber totalDeductions
    netPay := Money.ofNumber netPay
    computationSnapshot :=
      some ⟨sss.2 ++ philhealth.2 ++ pagibig.2 ++ withholding.2,now⟩ }

def computePayslip (run : PayrollRun) (now : DateTime) (id : Uuid) (employee : Employee) : Request Payslip := do
  let basicPay := employee.basicSalary.toNumber
  let sss ← contribution employee.sssNumber "missing_sss_number" "SSS_EMPLOYEE_CONTRIBUTION_RATE"
    basicPay run.periodEnd
  let philhealth ← contribution employee.philhealthNumber "missing_philhealth_number"
    "PHILHEALTH_EMPLOYEE_CONTRIBUTION_RATE" basicPay run.periodEnd
  let pagibig ← contribution employee.pagibigNumber "missing_pagibig_number"
    "PAGIBIG_EMPLOYEE_CONTRIBUTION_RATE" basicPay run.periodEnd
  let withholding ← engineAmount "WITHHOLDING_COMP_BRACKETS" basicPay run.periodEnd
  Prisma.payslip.create (payslipRow run employee id now sss philhealth pagibig withholding)

/-- `for (const employee of employees)`. -/
def computePayslips (run : PayrollRun) (now : DateTime) : (ℕ → Uuid) → List Employee → Request (List Payslip)
  | _, [] => pure []
  | ids, employee :: employees => do
    let payslip ← computePayslip run now (ids 0) employee
    let results ← computePayslips run now (fun i => ids (i + 1)) employees
    pure (payslip :: results)

def immutable (status : PayrollRunStatus) : Bool := status == .finalized || status == .paid

def setProcessing (r : PayrollRun) : PayrollRun := { r with status := .processing }

def computePayrollRun (companyId payrollRunId : Uuid) (ids : ℕ → Uuid) (now : DateTime) :
    Request (List Payslip) := do
  let run ← ownedBy PayrollRun.companyId companyId payrollRunNotFound
    (← Prisma.payrollRun.findUnique (fun r => r.id = payrollRunId))
  if immutable run.status then .throw payrollRunImmutable
  else do
    let _ ← Prisma.payrollRun.update (fun r => r.id = run.id) setProcessing
    let employees ← Prisma.employee.findMany (isActiveIn run.companyId)
    Prisma.payslip.deleteMany (fun p => p.payrollRunId = run.id)
    computePayslips run now ids employees

/-- `snapshot?.errors ?? []`. -/
def errorsOf (p : Payslip) : List String := (p.computationSnapshot.map ComputationSnapshot.errors).getD []

def blocking (p : Payslip) : Bool := decide (0 < (errorsOf p).length)

def setFinalized (now : DateTime) (r : PayrollRun) : PayrollRun :=
  { r with status := .finalized, finalizedAt := some now }

def finalizePayrollRun (companyId payrollRunId : Uuid) (now : DateTime) : Request PayrollRun := do
  let (run,payslips) ← ownedBy (fun r => r.1.companyId) companyId payrollRunNotFound
    (← findRunWithPayslips payrollRunId)
  let blockingErrors := payslips.filter blocking
  if blockingErrors.length > 0 then
    .throw (payrollRunHasErrors (blockingErrors.map (fun p => (p.employeeId,errorsOf p))))
  else do
    let updated ← Prisma.payrollRun.update (fun r => r.id = run.id) (setFinalized now)
    publish (.payrollFinalized updated.id updated.companyId)
    pure updated

end PinoyTax.Payroll
