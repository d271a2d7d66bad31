import PinoyTax.Tenancy.Operations

/-! # The operations of the four services as one type

The listeners of the compliance service are operations too: they are called with the
company of the event. Ids of new rows and the time are arguments, so that an operation
draws the same ones in both of two runs.
-/
namespace PinoyTax.Tenancy
open PinoyTax Foundation

/-- An operation of the four services with its arguments, the company left out. -/
inductive TenantOperation
  | createEmployee (dto : Payroll.CreateEmployeeDto) (id : Uuid)
  | listEmployees
  | listPayrollRuns
  | getPayrollRun (payrollRunId : Uuid)
  | createPayrollRun (dto : Payroll.CreatePayrollRunDto) (createdById id : Uuid) (now : DateTime)
  | computePayrollRun (payrollRunId : Uuid) (ids : ℕ → Uuid) (now : DateTime)
  | finalizePayrollRun (payrollRunId : Uuid) (now : DateTime)
  | compute (dto : ComputeTaxDto) (id : Uuid) (now : DateTime)
  | computeFlatRateAmount (ruleCode : String) (base : Option ℚ) (asOf : DateTime)
  | computeGraduatedAmount (ruleCode : String) (base : Option ℚ) (asOf : DateTime)
  | confirm (taxComputationId : Uuid)
  | listForCompany
  | getById (taxComputationId : Uuid)
  | handleCompanyCreated
  | handleCompanyUpdated
  | getDeadlines (status : Option FilingStatus)
  | getComplianceStatus
  | getFlaggedIssues
  | updateIssueStatus (issueId : Uuid) (status : IssueStatus) (now : DateTime)
  | runComplianceScan (offset : ℤ) (draw : Compliance.ScanDraw) (now : DateTime)
  | createFolder (dto : Documents.CreateFolderDto) (id : Uuid)
  | listFolders
  | listDocuments (folderId : Option Uuid) (category : Option String)
  | uploadDocument (uploadedById : Uuid) (file : Documents.File) (dto : Documents.UploadDocumentMetadataDto)
      (draw : Documents.Draw) (accepted : Bool)
  | uploadNewVersion (documentId uploadedById : Uuid) (file : Documents.File) (draw : Documents.Draw)
      (accepted : Bool)
  | listVersions (documentId : Uuid)
  | getDownloadUrl (documentId : Uuid)

namespace TenantOperation

def Response : TenantOperation → Type
  | createEmployee .. => Employee
  | listEmployees => List Employee
  | listPayrollRuns => List PayrollRun
  | getPayrollRun _ => PayrollRun × List (Payslip × Option Employee)
  | createPayrollRun .. => PayrollRun
  | computePayrollRun .. => List Payslip
  | finalizePayrollRun .. => PayrollRun
  | compute .. => TaxComputation × TaxEngine.Breakdown
  | computeFlatRateAmount .. => TaxEngine.EngineResult
  | computeGraduatedAmount .. => TaxEngine.EngineResult
  | confirm _ => TaxComputation
  | listForCompany => List TaxComputation
  | getById _ => TaxComputation
  | handleCompanyCreated => Unit
  | handleCompanyUpdated => Unit
  | getDeadlines _ => List FilingDeadline
  | getComplianceStatus => List ComplianceStatus
  | getFlaggedIssues => List FlaggedIssue
  | updateIssueStatus .. => FlaggedIssue
  | runComplianceScan .. => Unit
  | createFolder .. => Folder
  | listFolders => List Folder
  | listDocuments .. => List VaultDocument
  | uploadDocument .. => VaultDocument × List DocumentVersion
  | uploadNewVersion .. => VaultDocument
  | listVersions _ => List DocumentVersion
  | getDownloadUrl _ => Documents.DownloadUrl

/-- The call of the operation with the company. -/
def perform (companyId : Uuid) : (op : TenantOperation) → Request op.Response
  | createEmployee dto id => Payroll.createEmployee companyId dto id
  | listEmployees => Payroll.listEmployees companyId
  | listPayrollRuns => Payroll.listPayrollRuns companyId
  | getPayrollRun payrollRunId => Payroll.getPayrollRun companyId payrollRunId
  | createPayrollRun dto createdById id now => Payroll.createPayrollRun companyId dto createdById id now
  | computePayrollRun payrollRunId ids now => Payroll.computePayrollRun companyId payrollRunId ids now
  | finalizePayrollRun payrollRunId now => Payroll.finalizePayrollRun companyId payrollRunId now
  | compute dto id now => TaxEngine.compute companyId dto id now
  | computeFlatRateAmount ruleCode base asOf => TaxEngine.computeFlatRateAmount ruleCode base asOf
  | computeGraduatedAmount ruleCode base asOf => TaxEngine.computeGraduatedAmount ruleCode base asOf
  | confirm taxComputationId => TaxEngine.confirm companyId taxComputationId
  | listForCompany => TaxEngine.listForCompany companyId
  | getById taxComputationId => TaxEngine.getById companyId taxComputationId
  | handleCompanyCreated => Compliance.handleCompanyCreated companyId
  | handleCompanyUpdated => Compliance.handleCompanyUpdated companyId
  | getDeadlines status => Compliance.getDeadlines companyId status
  | getComplianceStatus => Compliance.getComplianceStatus companyId
  | getFlaggedIssues => Compliance.getFlaggedIssues companyId
  | updateIssueStatus issueId status now => Compliance.updateIssueStatus companyId issueId status now
  | runComplianceScan offset draw now => Compliance.runComplianceScan offset companyId draw now
  | createFolder dto id => Documents.createFolder companyId dto id
  | listFolders => Documents.listFolders companyId
  | listDocuments folderId category => Documents.listDocuments companyId folderId category
  | uploadDocument uploadedById file dto draw accepted =>
    Documents.uploadDocument companyId uploadedById file dto draw accepted
  | uploadNewVersion documentId uploadedById file draw accepted =>
    Documents.uploadNewVersion companyId documentId uploadedById file draw accepted
  | listVersions documentId => Documents.listVersions companyId documentId
  | getDownloadUrl documentId => Documents.getDownloadUrl companyId documentId

/-- The ids that an operation draws for rows with look-ups by id are new. -/
def Fresh (s : Store) : TenantOperation → Prop
  | createEmployee _ id => Unused employees id s
  | createPayrollRun _ _ id _ => Unused payrollRuns id s
  | compute _ id _ => Unused taxComputations id s
  | runComplianceScan _ draw _ => Supply flaggedIssues draw.issueIds s ∧ Supply complianceStatus draw.statusIds s
  | createFolder _ id => Unused folders id s
  | uploadDocument _ _ _ draw _ => Unused vaultDocuments draw.documentId s
  | _ => True

/-- Every operation is isolated. -/
theorem isolates_perform (companyId : Uuid) (seen : ℕ) (op : TenantOperation) :
    Isolates (boundary companyId seen) (fun s => Announcing companyId seen s ∧ op.Fresh s) (op.perform companyId)
      (fun _ s => WellFormed s) := by
  have hany {α : Type} {p : Request α}
      (h : Isolates (boundary companyId seen) WellFormed p (fun _ s => WellFormed s)) :
      Isolates (boundary companyId seen) (fun s => Announcing companyId seen s ∧ True) p (fun _ s => WellFormed s) :=
    h.mono (fun _ hs => hs.1.1) fun _ _ hs => hs
  have hfresh {α : Type} {p : Request α} {N : Store → Prop}
      (h : Isolates (boundary companyId seen) (fun s => WellFormed s ∧ N s) p (fun _ s => WellFormed s)) :
      Isolates (boundary companyId seen) (fun s => Announcing companyId seen s ∧ N s) p (fun _ s => WellFormed s) :=
    h.mono (fun _ hs => ⟨hs.1.1,hs.2⟩) fun _ _ hs => hs
  have hannounce {α : Type} {p : Request α}
      (h : Isolates (boundary companyId seen) (Announcing companyId seen) p (fun _ s => WellFormed s)) :
      Isolates (boundary companyId seen) (fun s => Announcing companyId seen s ∧ True) p (fun _ s => WellFormed s) :=
    h.mono (fun _ hs => hs.1) fun _ _ hs => hs
  cases op with
  | createEmployee dto id => exact hfresh (isolates_createEmployee dto id)
  | listEmployees => exact hany isolates_listEmployees
  | listPayrollRuns => exact hany isolates_listPayrollRuns
  | getPayrollRun payrollRunId => exact hany (isolates_getPayrollRun payrollRunId)
  | createPayrollRun dto createdById id now => exact hfresh (isolates_createPayrollRun dto createdById id now)
  | computePayrollRun payrollRunId ids now => exact hany (isolates_computePayrollRun payrollRunId ids now)
  | finalizePayrollRun payrollRunId now => exact hannounce (isolates_finalizePayrollRun payrollRunId now)
  | compute dto id now => exact hfresh (isolates_compute dto id now)
  | computeFlatRateAmount ruleCode base asOf => exact hany (isolates_computeFlatRate (fun _ hs => hs) _ _ _ _ _)
  | computeGraduatedAmount ruleCode base asOf => exact hany (isolates_computeGraduated (fun _ hs => hs) _ _ _ _ _)
  | confirm taxComputationId => exact hannounce (isolates_confirm taxComputationId)
  | listForCompany => exact hany isolates_listForCompany
  | getById taxComputationId => exact hany (isolates_getById taxComputationId)
  | handleCompanyCreated => exact hannounce isolates_enqueueComplianceScan
  | handleCompanyUpdated => exact hannounce isolates_enqueueComplianceScan
  | getDeadlines status => exact hany (isolates_getDeadlines status)
  | getComplianceStatus => exact hany isolates_getComplianceStatus
  | getFlaggedIssues => exact hany isolates_getFlaggedIssues
  | updateIssueStatus issueId status now => exact hany (isolates_updateIssueStatus issueId status now)
  | runComplianceScan offset draw now =>
    exact (isolates_runComplianceScan offset draw now).mono (fun _ hs => ⟨hs.1.1,hs.2.1,hs.2.2⟩) fun _ _ hs => hs
  | createFolder dto id => exact hfresh (isolates_createFolder dto id)
  | listFolders => exact hany isolates_listFolders
  | listDocuments folderId category => exact hany (isolates_listDocuments folderId category)
  | uploadDocument uploadedById file dto draw accepted =>
    exact hfresh (isolates_uploadDocument uploadedById file dto draw accepted)
  | uploadNewVersion documentId uploadedById file draw accepted =>
    exact hany (isolates_uploadNewVersion documentId uploadedById file draw accepted)
  | listVersions documentId => exact hany (isolates_listVersions documentId)
  | getDownloadUrl documentId => exact hany (isolates_getDownloadUrl documentId)

end TenantOperation
end PinoyTax.Tenancy
