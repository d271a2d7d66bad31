import PinoyTax.Audit.Writes

/-! # The audited routes

Every handler with `@Audit`, under its guard and the interceptor. A refusal of the guard
comes before the interceptor, so that it is not recorded either.
-/
namespace PinoyTax.Audit
open PinoyTax Foundation

inductive AuditedCall
  | updateCompany (companyId : Uuid) (dto : Org.UpdateCompanyDto)
  | revokeStaff (companyId userCompanyRoleId : Uuid)
  | createBranch (companyId : Uuid) (dto : Org.CreateBranchDto) (newBranchId : Uuid)
  | updateBranch (companyId branchId : Uuid) (dto : Org.UpdateBranchDto)
  | updateFirm (firmId : Uuid) (dto : Firm.UpdateFirmDto)
  | updateFirmStaffRole (firmId membershipId : Uuid) (firmRoleCode : Firm.AssignableFirmRoleCode)
  | revokeFirmStaff (firmId membershipId : Uuid)
  | createClientCompany (firmId : Uuid) (dto : Firm.CreateCompanyDto) (newCompanyId newAssignmentId : Uuid)
  | removeClientCompany (firmId companyId : Uuid)
  | assignStaffToCompany (firmId companyId membershipId : Uuid) (permissionCodes : List String) (newAssignmentId : Uuid)
  | revokeAssignment (firmId assignmentId : Uuid)
  | createPayrollRun (companyId : Uuid) (dto : Payroll.CreatePayrollRunDto) (newRunId : Uuid)
  | computePayrollRun (companyId runId : Uuid) (newPayslipIds : ℕ → Uuid)
  | finalizePayrollRun (companyId runId : Uuid)
  | confirm (companyId computationId : Uuid)

/-- A call with its user, the client's address, the time, and the id of the row to come. -/
structure AuditedRequest where
  userId : Uuid
  ip : Option String
  call : AuditedCall
  now : DateTime
  auditLogId : Uuid

/-- `@Audit(…)`. -/
def metadata : AuditedCall → AuditMetadata
  | .updateCompany .. => ⟨"company.update","company"⟩
  | .revokeStaff .. => ⟨"staff.revoke","user_company_role"⟩
  | .createBranch .. => ⟨"branch.create","branch"⟩
  | .updateBranch .. => ⟨"branch.update","branch"⟩
  | .updateFirm .. => ⟨"firm.update","firm"⟩
  | .updateFirmStaffRole .. => ⟨"firm_staff.role_change","firm_membership"⟩
  | .revokeFirmStaff .. => ⟨"firm_staff.revoke","firm_membership"⟩
  | .createClientCompany .. => ⟨"firm_client.create","company"⟩
  | .removeClientCompany .. => ⟨"firm_client.remove","company"⟩
  | .assignStaffToCompany .. => ⟨"firm_assignment.set","firm_company_assignment"⟩
  | .revokeAssignment .. => ⟨"firm_assignment.revoke","firm_company_assignment"⟩
  | .createPayrollRun .. => ⟨"payroll_run.create","payroll_run"⟩
  | .computePayrollRun .. => ⟨"payroll_run.compute","payroll_run"⟩
  | .finalizePayrollRun .. => ⟨"payroll.finalize","payroll_run"⟩
  | .confirm .. => ⟨"tax_computation.confirm","tax_computation"⟩

/-- The parameters of the path, from left to right. -/
def params : AuditedCall → Params
  | .updateCompany companyId _ => [("companyId",companyId)]
  | .revokeStaff companyId userCompanyRoleId => [("companyId",companyId),("userCompanyRoleId",userCompanyRoleId)]
  | .createBranch companyId _ _ => [("companyId",companyId)]
  | .updateBranch companyId branchId _ => [("companyId",companyId),("branchId",branchId)]
  | .updateFirm firmId _ => [("firmId",firmId)]
  | .updateFirmStaffRole firmId membershipId _ => [("firmId",firmId),("membershipId",membershipId)]
  | .revokeFirmStaff firmId membershipId => [("firmId",firmId),("membershipId",membershipId)]
  | .createClientCompany firmId _ _ _ => [("firmId",firmId)]
  | .removeClientCompany firmId companyId => [("firmId",firmId),("companyId",companyId)]
  | .assignStaffToCompany firmId companyId membershipId _ _ =>
    [("firmId",firmId),("companyId",companyId),("membershipId",membershipId)]
  | .revokeAssignment firmId assignmentId => [("firmId",firmId),("assignmentId",assignmentId)]
  | .createPayrollRun companyId _ _ => [("companyId",companyId)]
  | .computePayrollRun companyId runId _ => [("companyId",companyId),("runId",runId)]
  | .finalizePayrollRun companyId runId => [("companyId",companyId),("runId",runId)]
  | .confirm companyId computationId => [("companyId",companyId),("computationId",computationId)]

def body : AuditedCall → RequestBody
  | .updateCompany _ dto => .updateCompany dto
  | .createBranch _ dto _ => .createBranch dto
  | .updateBranch _ _ dto => .updateBranch dto
  | .updateFirm _ dto => .updateFirm dto
  | .updateFirmStaffRole _ _ firmRoleCode => .updateFirmStaffRole firmRoleCode
  | .createClientCompany _ dto _ _ => .createCompany dto
  | .assignStaffToCompany _ _ _ permissionCodes _ => .assignStaffPermissions permissionCodes
  | .createPayrollRun _ dto _ => .createPayrollRun dto
  | _ => .none

/-- `@UseGuards` with the permission that the route requires. -/
inductive RouteGuard
  | permissions (code : String)
  | firmPermissions (code : String)
deriving DecidableEq, Repr

def routeGuard : AuditedCall → RouteGuard
  | .updateCompany .. => .permissions "company:write"
  | .revokeStaff .. => .permissions "staff:invite"
  | .createBranch .. => .permissions "company:write"
  | .updateBranch .. => .permissions "company:write"
  | .updateFirm .. => .firmPermissions "firm:manage"
  | .updateFirmStaffRole .. => .firmPermissions "firm:staff:manage_roles"
  | .revokeFirmStaff .. => .firmPermissions "firm:staff:invite"
  | .createClientCompany .. => .firmPermissions "firm:clients:manage"
  | .removeClientCompany .. => .firmPermissions "firm:clients:manage"
  | .assignStaffToCompany .. => .firmPermissions "firm:clients:assign"
  | .revokeAssignment .. => .firmPermissions "firm:clients:assign"
  | .createPayrollRun .. => .permissions "payroll:write"
  | .computePayrollRun .. => .permissions "payroll:write"
  | .finalizePayrollRun .. => .permissions "payroll:finalize"
  | .confirm .. => .permissions "tax:confirm"

/-- The guard reads the id of the company or of the firm off the same parameters. -/
def canActivate (userId : Uuid) (params : Params) : RouteGuard → Request Unit
  | .permissions code =>
    (Identity.canActivate (some [code]) (some userId) (params.lookup "companyId")).discard
  | .firmPermissions code =>
    (Identity.FirmPermissionsGuard.canActivate (some [code]) (some userId) (params.lookup "firmId")).discard

/-- What the handler returns becomes the body of the response. -/
def answer {α : Type} (response : α → ResponseBody) (p : AuditRequest α) : AuditRequest ResponseBody := do
  let result ← p
  pure (response result)

def handler (userId : Uuid) (now : DateTime) : AuditedCall → AuditRequest ResponseBody
  | .updateCompany companyId dto => answer .company (onStore (Org.updateCompany companyId dto))
  | .revokeStaff companyId userCompanyRoleId =>
    answer .userCompanyRole (onStore (Org.revokeStaff companyId userCompanyRoleId))
  | .createBranch companyId dto id => answer .branch (onBranches (Org.createBranch companyId dto id))
  | .updateBranch companyId branchId dto => answer .branch (onBranches (Org.updateBranch companyId branchId dto))
  | .updateFirm firmId dto => answer .firm (onStore (Firm.updateFirm firmId dto))
  | .updateFirmStaffRole firmId membershipId firmRoleCode =>
    answer .firmMembership (onStore (Firm.updateFirmStaffRole firmId membershipId firmRoleCode))
  | .revokeFirmStaff firmId membershipId =>
    answer .firmMembership (onStore (Firm.revokeFirmStaff firmId membershipId))
  | .createClientCompany firmId dto companyId assignmentId =>
    answer .company (onStore (Firm.createClientCompany firmId userId dto companyId assignmentId))
  | .removeClientCompany firmId companyId => answer .company (onStore (Firm.removeClientCompany firmId companyId))
  | .assignStaffToCompany firmId companyId membershipId permissionCodes id =>
    answer .assignmentWithPermissions
      (onStore (Firm.assignStaffToCompany firmId userId companyId membershipId permissionCodes id))
  | .revokeAssignment firmId assignmentId =>
    answer .firmCompanyAssignment (onStore (Firm.revokeAssignment firmId assignmentId))
  | .createPayrollRun companyId dto id =>
    answer .payrollRun (onStore (Payroll.createPayrollRun companyId dto userId id now))
  | .computePayrollRun companyId runId ids =>
    answer .payslips (onStore (Payroll.computePayrollRun companyId runId ids now))
  | .finalizePayrollRun companyId runId =>
    answer .payrollRun (onStore (Payroll.finalizePayrollRun companyId runId now))
  | .confirm companyId computationId =>
    answer .taxComputation (onStore (TaxEngine.confirm companyId computationId))

def httpRequest (req : AuditedRequest) : HttpRequest where
  userId := some req.userId
  params := params req.call
  body := body req.call
  ip := req.ip

def program (req : AuditedRequest) : AuditRequest ResponseBody := do
  onStore (canActivate req.userId (params req.call) (routeGuard req.call))
  intercept (some (metadata req.call)) (httpRequest req) req.auditLogId req.now (handler req.userId req.now req.call)

/-- The database after a request. -/
def next (d : Database) (req : AuditedRequest) : Database := ((program req).run d).2

/-- The guard admits the user, and the handler returns. -/
def Succeeds (d : Database) (req : AuditedRequest) : Prop :=
  ((canActivate req.userId (params req.call) (routeGuard req.call)).run d.store).1.isOk = true ∧
    ((handler req.userId req.now req.call).run d).1.isOk = true

instance (d : Database) (req : AuditedRequest) : Decidable (Succeeds d req) := inferInstanceAs (Decidable (_ ∧ _))

/-! ## What a request does -/

section
variable {d : Database}

theorem run_canActivate_state (userId : Uuid) (params : Params) (guard : RouteGuard) (s : Store) :
    ((canActivate userId params guard).run s).2 = s := by
  cases guard with
  | permissions code =>
    rw [canActivate,Prog.run_discard_state]
    cases params.lookup "companyId" with
    | none => rfl
    | some companyId => exact Org.run_canActivate_state code userId companyId s
  | firmPermissions code =>
    rw [canActivate,Prog.run_discard_state]
    cases params.lookup "firmId" with
    | none => rfl
    | some firmId => exact Identity.FirmPermissionsGuard.run_canActivate_state code userId firmId s

theorem run_answer_state {α : Type} (response : α → ResponseBody) (p : AuditRequest α) :
    ((answer response p).run d).2 = (p.run d).2 := by
  rw [answer,Prog.run_bind]
  generalize p.run d = out
  obtain ⟨r,e⟩ := out
  cases r <;> rfl

/-- No handler writes to the log itself. -/
theorem handler_auditLogs (userId : Uuid) (now : DateTime) (call : AuditedCall) :
    ((handler userId now call).run d).2.auditLogs = d.auditLogs := by
  cases call <;> rw [handler,run_answer_state] <;> first | rw [run_onStore] | rw [run_onBranches]

/-- A failure, of the guard or of the handler, leaves no row; a success leaves the row of its response. -/
theorem run_program (req : AuditedRequest) :
    (¬ Succeeds d req ∧ ∃ e t, (program req).run d = (.error e,t) ∧ t.auditLogs = d.auditLogs) ∨
    (Succeeds d req ∧ ∃ response t, (handler req.userId req.now req.call).run d = (.ok response,t) ∧
      (program req).run d = (.ok response,{ t with auditLogs :=
        d.auditLogs ++ [auditRow (metadata req.call) (httpRequest req) response req.auditLogId req.now] })) := by
  have hkeep := handler_auditLogs (d := d) req.userId req.now req.call
  unfold Succeeds
  rw [program,Prog.run_bind,run_onStore,run_canActivate_state]
  cases ((canActivate req.userId (params req.call) (routeGuard req.call)).run d.store).1 with
  | error e => exact .inl ⟨fun h => absurd h.1 Bool.false_ne_true,e,d,rfl,rfl⟩
  | ok _ =>
    rw [Prog.resume_ok,run_intercept]
    generalize (handler req.userId req.now req.call).run d = out at hkeep
    obtain ⟨r,t⟩ := out
    cases r with
    | error e => exact .inl ⟨fun h => absurd h.2 Bool.false_ne_true,e,t,rfl,hkeep⟩
    | ok response =>
      dsimp only at hkeep ⊢
      rw [hkeep]
      exact .inr ⟨⟨rfl,rfl⟩,response,t,rfl,rfl⟩

end
end PinoyTax.Audit
