import PinoyTax.Tenancy.References

/-! # The routes of the company services

An operation is a route when its controller asks for a permission; the listeners and the
amounts that payroll takes from the tax engine are none. Together with the requests of
companies and firms the routes are what a client can send.
-/
namespace PinoyTax.Tenancy
open PinoyTax Foundation

/-- `@RequirePermissions(code)` of the operation's route. -/
def requiredPermission : TenantOperation → Option String
  | .createEmployee .. => some "payroll:write"
  | .listEmployees => some "payroll:read"
  | .listPayrollRuns => some "payroll:read"
  | .getPayrollRun _ => some "payroll:read"
  | .createPayrollRun .. => some "payroll:write"
  | .computePayrollRun .. => some "payroll:write"
  | .finalizePayrollRun .. => some "payroll:finalize"
  | .compute .. => some "tax:compute"
  | .computeFlatRateAmount .. => none
  | .computeGraduatedAmount .. => none
  | .confirm _ => some "tax:confirm"
  | .listForCompany => some "tax:compute"
  | .getById _ => some "tax:compute"
  | .handleCompanyCreated => none
  | .handleCompanyUpdated => none
  | .getDeadlines _ => some "compliance:read"
  | .getComplianceStatus => some "compliance:read"
  | .getFlaggedIssues => some "compliance:read"
  | .updateIssueStatus .. => some "compliance:write"
  | .runComplianceScan .. => some "compliance:read"
  | .createFolder .. => some "documents:write"
  | .listFolders => some "documents:read"
  | .listDocuments .. => some "documents:read"
  | .uploadDocument .. => some "documents:write"
  | .uploadNewVersion .. => some "documents:write"
  | .listVersions _ => some "documents:read"
  | .getDownloadUrl _ => some "documents:read"

/-- An operation that a client can ask for, with the permission it takes. -/
structure Route where
  op : TenantOperation
  permission : String
  required : requiredPermission op = some permission

inductive ClientRequest
  | company (req : Org.CompanyRequest)
  | updateCompany (userId companyId : Uuid) (dto : Org.UpdateCompanyDto)
  | service (userId companyId : Uuid) (route : Route)

/-- The statements of a request, its guard included. -/
def ClientRequest.program (toLowerCase : String → String) : ClientRequest → Request Unit
  | company req => Org.program toLowerCase req
  | updateCompany userId companyId dto =>
    (Org.guarded "company:write" userId companyId (Org.updateCompany companyId dto)).discard
  | service userId companyId route =>
    (Org.guarded route.permission userId companyId (route.op.perform companyId)).discard

/-- The user whose access token comes with the request. -/
def firmActor : Firm.FirmRequest → Uuid
  | .createFirm userId .. => userId
  | .inviteFirmStaff userId .. => userId
  | .acceptFirmInvitation userId .. => userId
  | .updateFirmStaffRole userId .. => userId
  | .revokeFirmStaff userId .. => userId
  | .createClientCompany userId .. => userId
  | .inviteClientCompany userId .. => userId
  | .respondToClientInvitation userId .. => userId
  | .removeClientCompany userId .. => userId
  | .assignStaffToCompany userId .. => userId
  | .revokeAssignment userId .. => userId

def companyActor : Org.CompanyRequest → Uuid
  | .createCompany userId .. => userId
  | .inviteStaff userId .. => userId
  | .acceptInvitation userId .. => userId
  | .revokeStaff userId .. => userId
  | .firm req => firmActor req

def ClientRequest.actor : ClientRequest → Uuid
  | company req => companyActor req
  | updateCompany userId .. => userId
  | service userId .. => userId

/-! ## What the services leave alone -/

/-- The part `g` of the store sees nothing that the four services write. -/
structure Aside {τ : Type} (g : Store → τ) : Prop where
  payroll : ∀ p s, g { s with payroll := p } = g s
  taxComputation : ∀ rows s, g (Prisma.taxComputation.set rows s) = g s
  compliance : ∀ p s, g { s with compliance := p } = g s
  documents : ∀ p s, g { s with documents := p } = g s
  published : ∀ p s, g { s with published := p } = g s

theorem keeps_perform {τ : Type} {g : Store → τ} (h : Aside g) (companyId : Uuid) (op : TenantOperation) :
    (op.perform companyId).Keeps g := by
  have hread {α β : Type} {l : Label} {q : Store → α} {f : α → β} :
      (Prog.query l q >>= fun a => pure (f a) : Request β).Keeps g := Prog.Guarantees.bind keeps_read fun _ => trivial
  cases op with
  | createEmployee dto id => exact fun s => ⟨h.payroll _ s,trivial⟩
  | listEmployees => exact keeps_read
  | listPayrollRuns => exact hread
  | getPayrollRun payrollRunId => exact Prog.Guarantees.bind keeps_read fun _ => keeps_ownedBy ..
  | createPayrollRun dto createdById id now => exact fun s => ⟨h.payroll _ s,trivial⟩
  | computePayrollRun payrollRunId ids now => exact keeps_computePayrollRun h.payroll companyId payrollRunId ids now
  | finalizePayrollRun payrollRunId now => exact keeps_finalizePayrollRun h.payroll companyId h.published payrollRunId now
  | compute dto id now => exact keeps_compute companyId h.taxComputation dto id now
  | computeFlatRateAmount ruleCode base asOf => exact hread
  | computeGraduatedAmount ruleCode base asOf => exact hread
  | confirm taxComputationId => exact keeps_confirm companyId h.taxComputation h.published taxComputationId
  | listForCompany => exact hread
  | getById taxComputationId => exact Prog.Guarantees.bind keeps_read fun _ => keeps_ownedBy ..
  | handleCompanyCreated => exact fun s => ⟨h.published _ s,trivial⟩
  | handleCompanyUpdated => exact fun s => ⟨h.published _ s,trivial⟩
  | getDeadlines status => exact hread
  | getComplianceStatus => exact keeps_read
  | getFlaggedIssues => exact hread
  | updateIssueStatus issueId status now =>
    exact keeps_updateIssueStatus companyId (fun _ s => h.compliance _ s) issueId status now
  | runComplianceScan offset draw now =>
    exact Compliance.keeps_runComplianceScan (fun _ s => h.compliance _ s) (fun _ s => h.compliance _ s)
      (fun _ s => h.compliance _ s) offset companyId draw now
  | createFolder dto id => exact keeps_createFolder companyId (fun _ s => h.documents _ s) dto id
  | listFolders => exact keeps_read
  | listDocuments folderId category => exact hread
  | uploadDocument uploadedById file dto draw accepted =>
    exact keeps_uploadDocument companyId (fun _ s => h.documents _ s) (fun _ s => h.documents _ s) uploadedById file dto
      draw accepted
  | uploadNewVersion documentId uploadedById file draw accepted =>
    exact keeps_uploadNewVersion companyId (fun _ s => h.documents _ s) (fun _ s => h.documents _ s) documentId uploadedById
      file draw accepted
  | listVersions documentId =>
    exact Prog.Guarantees.bind (keeps_findDocument companyId documentId) fun _ =>
      Prog.Guarantees.bind keeps_read fun _ => trivial
  | getDownloadUrl documentId =>
    exact Prog.Guarantees.bind (keeps_findDocument companyId documentId) fun _ => trivial

end PinoyTax.Tenancy
