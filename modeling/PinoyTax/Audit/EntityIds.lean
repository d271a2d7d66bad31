import PinoyTax.Audit.Routes
import PinoyTax.Foundation.Runs

/-! # Which entity an audit row names

Every success leaves one row and every failure none. The id in the row is the first id
of the path that is not the company's: the right one below a company, the firm's below
a firm, and none where the path has no other.
-/
namespace PinoyTax.Audit
open PinoyTax Foundation

/-! ## The entity of a request -/

/-- The row that a call creates or updates. -/
def entityOf (s : Store) : AuditedCall → Uuid
  | .updateCompany companyId _ => companyId
  | .revokeStaff _ userCompanyRoleId => userCompanyRoleId
  | .createBranch _ _ id => id
  | .updateBranch _ branchId _ => branchId
  | .updateFirm firmId _ => firmId
  | .updateFirmStaffRole _ membershipId _ => membershipId
  | .revokeFirmStaff _ membershipId => membershipId
  | .createClientCompany _ _ companyId _ => companyId
  | .removeClientCompany _ companyId => companyId
  | .assignStaffToCompany _ companyId membershipId _ id => assignmentIdOf s membershipId companyId id
  | .revokeAssignment _ assignmentId => assignmentId
  | .createPayrollRun _ _ id => id
  | .computePayrollRun _ runId _ => runId
  | .finalizePayrollRun _ runId => runId
  | .confirm _ computationId => computationId

/-- The row of the id has been written in the table that the entity type stands for. -/
def Wrote (entityType : String) (id : Uuid) (d e : Database) : Prop :=
  match entityType with
  | "company" => Table.WritesAt Company.id id d.store.org.companies e.store.org.companies
  | "user_company_role" =>
    Table.WritesAt UserCompanyRole.id id d.store.org.userCompanyRoles e.store.org.userCompanyRoles
  | "branch" => Table.WritesAt Org.Branch.id id d.branches e.branches
  | "firm" => Table.WritesAt Firm.id id d.store.org.firms e.store.org.firms
  | "firm_membership" => Table.WritesAt FirmMembership.id id d.store.org.firmMemberships e.store.org.firmMemberships
  | "firm_company_assignment" =>
    Table.WritesAt FirmCompanyAssignment.id id d.store.org.firmCompanyAssignments e.store.org.firmCompanyAssignments
  | "payroll_run" => Table.WritesAt PayrollRun.id id d.store.payroll.payrollRuns e.store.payroll.payrollRuns
  | "tax_computation" =>
    Table.WritesAt TaxComputation.id id d.store.taxEngine.taxComputations e.store.taxEngine.taxComputations
  | _ => False

/-- `@@unique([firmMembershipId, companyId])`. -/
def UniqueAssignments (d : Database) : Prop := (d.store.org.firmCompanyAssignments.map Firm.pairOf).Nodup

section
variable {α : Type} {R : Database → Prop} {d : Database}

theorem ensures_answer {response : α → ResponseBody} {p : AuditRequest α} (h : p.Ensures (fun _ e => R e) d) :
    (answer response p).Ensures (fun _ e => R e) d := Prog.Ensures.bind h

theorem ensures_answer_onStore {response : α → ResponseBody} {p : Request α} {S : Store → Prop}
    (h : p.Ensures (fun _ t => S t) d.store) (hS : ∀ t, S t → R { d with store := t }) :
    (answer response (onStore p)).Ensures (fun _ e => R e) d := ensures_answer (h.zoom fun _ t ht => hS t ht)

theorem ensures_answer_onBranches {response : α → ResponseBody} {p : Org.BranchRequest α} {S : List Org.Branch → Prop}
    (h : p.Ensures (fun _ rows => S rows) d.branches) (hS : ∀ rows, S rows → R { d with branches := rows }) :
    (answer response (onBranches p)).Ensures (fun _ e => R e) d := ensures_answer (h.zoom fun _ t ht => hS t ht)

end

variable {d : Database}

/-- What a handler that returns has written is an entity of the declared type. -/
theorem handler_wrote (hd : UniqueAssignments d) (userId : Uuid) (now : DateTime) (call : AuditedCall) :
    (handler userId now call).Ensures (fun _ e => Wrote (metadata call).entityType (entityOf d.store call) d e) d := by
  cases call with
  | updateCompany companyId dto => exact ensures_answer_onStore (ensures_updateCompany companyId dto) fun _ h => h
  | revokeStaff companyId userCompanyRoleId =>
    exact ensures_answer_onStore (ensures_revokeStaff companyId userCompanyRoleId) fun _ h => h
  | createBranch companyId dto id => exact ensures_answer_onBranches (Org.ensures_createBranch dto id) fun _ h => h
  | updateBranch companyId branchId dto =>
    exact ensures_answer_onBranches (Org.ensures_updateBranch dto) fun _ h => h
  | updateFirm firmId dto => exact ensures_answer_onStore (ensures_updateFirm firmId dto) fun _ h => h
  | updateFirmStaffRole firmId membershipId firmRoleCode =>
    exact ensures_answer_onStore (ensures_updateFirmStaffRole firmId membershipId firmRoleCode) fun _ h => h
  | revokeFirmStaff firmId membershipId =>
    exact ensures_answer_onStore (ensures_revokeFirmStaff firmId membershipId) fun _ h => h
  | createClientCompany firmId dto companyId assignmentId =>
    exact ensures_answer_onStore (ensures_createClientCompany firmId userId dto companyId assignmentId) fun _ h => h
  | removeClientCompany firmId companyId =>
    exact ensures_answer_onStore (ensures_removeClientCompany firmId companyId) fun _ h => h
  | assignStaffToCompany firmId companyId membershipId permissionCodes id =>
    exact ensures_answer_onStore
      (ensures_assignStaffToCompany hd firmId userId companyId membershipId permissionCodes id) fun _ h => h
  | revokeAssignment firmId assignmentId =>
    exact ensures_answer_onStore (ensures_revokeAssignment firmId assignmentId) fun _ h => h
  | createPayrollRun companyId dto id =>
    exact ensures_answer_onStore (ensures_create Prisma.payrollRun PayrollRun.id
      (Payroll.payrollRunRow companyId dto userId id now) fun _ _ => rfl) fun _ h => h
  | computePayrollRun companyId runId ids =>
    exact ensures_answer_onStore (ensures_computePayrollRun companyId runId ids now) fun _ h => h
  | finalizePayrollRun companyId runId =>
    exact ensures_answer_onStore (ensures_finalizePayrollRun companyId runId now) fun _ h => h
  | confirm companyId computationId =>
    exact ensures_answer_onStore (ensures_confirm companyId computationId) fun _ h => h

/-! ## The log of a run -/

/-- The row of a request, when it succeeds. -/
def rowOf (d : Database) (req : AuditedRequest) : Option AuditLog :=
  match ((program req).run d).1 with
  | .ok response => some (auditRow (metadata req.call) (httpRequest req) response req.auditLogId req.now)
  | .error _ => none

theorem next_auditLogs (req : AuditedRequest) : (next d req).auditLogs = d.auditLogs ++ (rowOf d req).toList := by
  unfold next rowOf
  rcases run_program (d := d) req with ⟨-,e,t,hrun,hlog⟩ | ⟨-,response,t,-,hrun⟩
  · rw [hrun]
    exact hlog.trans (List.append_nil _).symm
  · rw [hrun]
    rfl

/-- The rows of the successful requests of a run, in their order. -/
def trail : Database → List AuditedRequest → List AuditLog
  | _, [] => []
  | d, req :: reqs => (rowOf d req).toList ++ trail (next d req) reqs

/-- A run adds one row for each request that succeeds and none for the others, and no row is lost. -/
theorem foldl_auditLogs (d : Database) (reqs : List AuditedRequest) :
    (reqs.foldl next d).auditLogs = d.auditLogs ++ trail d reqs := by
  induction reqs generalizing d with
  | nil => exact (List.append_nil _).symm
  | cons req reqs ih => rw [List.foldl_cons,ih,next_auditLogs,trail,List.append_assoc]

/-! ## The entity that a row names -/

/-- One row that names the entity of its type that the request wrote, or no row for a failure. -/
def Recorded (d : Database) (req : AuditedRequest) : Prop :=
  match (program req).run d with
  | (.ok _,e) => ∃ row, e.auditLogs = d.auditLogs ++ [row] ∧ row.entityType = some (metadata req.call).entityType ∧
      row.entityId = some (entityOf d.store req.call) ∧
      Wrote (metadata req.call).entityType (entityOf d.store req.call) d e
  | (.error _,e) => e.auditLogs = d.auditLogs

/-- The path names the entity right after the company, or the firm's id stands in for it:
because the firm is the entity, or because the entity has the same id. -/
def NamesEntity (s : Store) : AuditedCall → Prop
  | .updateCompany .. | .createBranch .. | .createPayrollRun .. => False
  | .revokeStaff .. | .updateBranch .. | .updateFirm .. => True
  | .computePayrollRun .. | .finalizePayrollRun .. | .confirm .. => True
  | .updateFirmStaffRole firmId membershipId _ => firmId = membershipId
  | .revokeFirmStaff firmId membershipId => firmId = membershipId
  | .createClientCompany firmId _ companyId _ => firmId = companyId
  | .removeClientCompany firmId companyId => firmId = companyId
  | .assignStaffToCompany firmId companyId membershipId _ id => firmId = assignmentIdOf s membershipId companyId id
  | .revokeAssignment firmId assignmentId => firmId = assignmentId

/-- The names of the path parameters that count as ids of an entity. -/
theorem isEntityIdKey_params : isEntityIdKey "companyId" = false ∧
    ∀ key ∈ ["firmId","userCompanyRoleId","branchId","runId","computationId"], isEntityIdKey key = true := by decide

/-- The id in the row is the entity's exactly on the routes that name the entity first. -/
theorem entityId_params (s : Store) (call : AuditedCall) :
    entityId (params call) = some (entityOf s call) ↔ NamesEntity s call := by
  obtain ⟨hcompany,hids⟩ := isEntityIdKey_params
  simp only [List.forall_mem_cons] at hids
  rw [entityId_eq]
  cases call <;> simp [params,entityOf,NamesEntity,hcompany,hids]

/-- The step: a success is recorded right exactly when its path names the entity. -/
theorem recorded_iff (hd : UniqueAssignments d) (req : AuditedRequest) :
    Recorded d req ↔ (Succeeds d req → NamesEntity d.store req.call) := by
  unfold Recorded
  rcases run_program (d := d) req with ⟨hfails,e,t,hrun,hlog⟩ | ⟨hsucceeds,response,t,hhandler,hrun⟩
  · rw [hrun]
    exact ⟨fun _ h => absurd h hfails,fun _ => hlog⟩
  · have hwrote := (handler_wrote hd req.userId req.now req.call).of_run hhandler
    rw [hrun,← entityId_params]
    constructor
    · rintro ⟨row,hrow,-,hid,-⟩ -
      obtain rfl := List.singleton_inj.mp (List.append_cancel_left hrow)
      exact hid
    · intro h
      -- the new row of the log is in no table that an entity type stands for
      exact ⟨_,rfl,rfl,h hsucceeds,hwrote⟩

/-- Over any run of audited requests, each success leaves one row that names the entity it wrote and
each failure none, exactly when every success is on a route whose path names the entity first. -/
theorem recorded_along_iff {reqs : List AuditedRequest} (hd : Runs.Along next (fun d _ => UniqueAssignments d) d reqs) :
    Runs.Along next Recorded d reqs ↔
      Runs.Along next (fun d req => Succeeds d req → NamesEntity d.store req.call) d reqs :=
  Runs.along_iff (I := fun _ => True) (fun _ req _ hd => recorded_iff hd req) (fun _ _ _ _ _ => trivial) trivial hd

/-! ## A run that loses the entity -/

/-- A firm whose owner may revoke staff, with one bookkeeper. -/
def staffedFirm : Database where
  store.org :=
    { firmPermissions := [⟨1,"firm:staff:invite"⟩]
      firmRoles := [⟨1,"firm_owner",[1]⟩,⟨2,"firm_bookkeeper",[]⟩]
      firms := [⟨100,"CPAs",.accounting_firm,"cpa@example.com",none⟩]
      firmMemberships :=
        [{ id := 200, firmId := 100, userId := 7, firmRoleId := 1, status := .active, invitedAt := 0 },
          { id := 201, firmId := 100, userId := 8, firmRoleId := 2, status := .active, invitedAt := 0 }] }

def revocation : AuditedRequest := ⟨7,none,.revokeFirmStaff 100 201,1,900⟩

theorem recorded_along_iff_staffedFirm : Runs.Along next Recorded staffedFirm [revocation] ↔
    Runs.Along next (fun d req => Succeeds d req → NamesEntity d.store req.call) staffedFirm [revocation] :=
  recorded_along_iff ⟨List.nodup_nil,trivial⟩

/-- The revoked membership 201 is recorded as a membership of the firm's own id 100. -/
theorem revocation_not_recorded :
    (next staffedFirm revocation).auditLogs.map (fun row => (row.entityType,row.entityId)) =
      [(some "firm_membership",some 100)] ∧ ¬ Runs.Along next Recorded staffedFirm [revocation] := by
  have hlost : ¬ (Succeeds staffedFirm revocation → NamesEntity staffedFirm.store revocation.call) := by
    intro h
    have hsame : (100 : Uuid) = 201 := h (by decide +kernel)
    exact absurd hsame (by decide)
  constructor
  · decide +kernel
  · rintro ⟨h,-⟩
    exact hlost ((recorded_iff (d := staffedFirm) List.nodup_nil revocation).mp h)

end PinoyTax.Audit
