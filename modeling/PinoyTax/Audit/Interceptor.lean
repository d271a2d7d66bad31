import PinoyTax.Foundation.Part
import PinoyTax.Firm.Service
import PinoyTax.Org.Branches
import PinoyTax.Org.Service
import PinoyTax.Payroll.Service

/-! # AuditInterceptor

What a handler marked with `@Audit` returns goes into a row of the audit log. Which
entity the row names is read off the route parameters, by their names and their order.
-/
namespace PinoyTax.Audit
open PinoyTax Foundation

structure AuditMetadata where
  action : String
  entityType : String
deriving DecidableEq, Repr

/-- The bodies of the audited routes. -/
inductive RequestBody
  | none
  | updateCompany (dto : Org.UpdateCompanyDto)
  | createBranch (dto : Org.CreateBranchDto)
  | updateBranch (dto : Org.UpdateBranchDto)
  | updateFirm (dto : Firm.UpdateFirmDto)
  | updateFirmStaffRole (firmRoleCode : Firm.AssignableFirmRoleCode)
  | createCompany (dto : Firm.CreateCompanyDto)
  | assignStaffPermissions (permissionCodes : List String)
  | createPayrollRun (dto : Payroll.CreatePayrollRunDto)
deriving DecidableEq, Repr

/-- What the audited handlers return. -/
inductive ResponseBody
  | company (row : Company)
  | userCompanyRole (row : UserCompanyRole)
  | branch (row : Org.Branch)
  | firm (row : Firm)
  | firmMembership (row : FirmMembership)
  | assignmentWithPermissions (row : FirmCompanyAssignment × List Permission)
  | firmCompanyAssignment (row : FirmCompanyAssignment)
  | payrollRun (row : PayrollRun)
  | payslips (rows : List Payslip)
  | taxComputation (row : TaxComputation)
deriving DecidableEq, Repr

/-- `request.params`, in the order of the URL. -/
abbrev Params := List (String × Uuid)

/-- `{ params, body }`. -/
structure BeforeState where
  params : Params
  body : RequestBody
deriving DecidableEq, Repr

structure HttpRequest where
  userId : Option Uuid
  params : Params
  body : RequestBody
  ip : Option String
deriving DecidableEq, Repr

structure AuditLog where
  id : Uuid
  companyId : Option Uuid := none
  actorUserId : Option Uuid := none
  action : String
  entityType : Option String := none
  entityId : Option Uuid := none
  beforeState : Option BeforeState := none
  afterState : Option ResponseBody := none
  ipAddress : Option String := none
  createdAt : DateTime
deriving DecidableEq, Repr

/-! ## The database of the audited requests -/

structure Database where
  store : Store := {}
  branches : List Org.Branch := []
  auditLogs : List AuditLog := []
deriving DecidableEq, Repr

inductive AuditLabel
  | store (label : Label)
  | branch (action : Action)
  | auditLog (action : Action)
deriving DecidableEq, Repr

abbrev AuditRequest (α : Type) := Prog Database AuditLabel ApiException α

def storePart : Part Database Store where
  get d := d.store
  set s d := { d with store := s }
  get_set _ _ := rfl
  set_get _ := rfl
  set_set _ _ _ := rfl

def branchPart : Part Database (List Org.Branch) where
  get d := d.branches
  set rows d := { d with branches := rows }
  get_set _ _ := rfl
  set_get _ := rfl
  set_set _ _ _ := rfl

def onStore {α : Type} (p : Request α) : AuditRequest α := p.zoom storePart .store

def onBranches {α : Type} (p : Org.BranchRequest α) : AuditRequest α := p.zoom branchPart .branch

/-! ## The interceptor -/

/-- `key !== 'companyId' && key.toLowerCase().endsWith('id')`, for the letters of a parameter name. -/
def isEntityIdKey (key : String) : Bool :=
  key != "companyId" && "id".toList.isSuffixOf (key.toList.map Char.toLower)

def entityIdParam (params : Params) : Option String := (params.map Prod.fst).find? isEntityIdKey

/-- `entityIdParam ? params[entityIdParam] : undefined`. -/
def entityId (params : Params) : Option Uuid := (entityIdParam params).bind (fun key => params.lookup key)

/-- The row of a success. -/
def auditRow (metadata : AuditMetadata) (request : HttpRequest) (responseBody : ResponseBody) (id : Uuid)
    (now : DateTime) : AuditLog where
  id := id
  companyId := request.params.lookup "companyId"
  actorUserId := request.userId
  action := metadata.action
  entityType := some metadata.entityType
  entityId := entityId request.params
  beforeState := some ⟨request.params,request.body⟩
  afterState := some responseBody
  ipAddress := request.ip
  createdAt := now

def record (row : AuditLog) : AuditRequest Unit :=
  .stmt (.auditLog .create) (fun d => { d with auditLogs := d.auditLogs ++ [row] }) (fun _ => .done (.ok ()))

def intercept (metadata : Option AuditMetadata) (request : HttpRequest) (id : Uuid) (now : DateTime)
    (handle : AuditRequest ResponseBody) : AuditRequest ResponseBody :=
  match metadata with
  | none => handle
  | some metadata => do
    let responseBody ← handle
    record (auditRow metadata request responseBody id now)
    pure responseBody

/-! ## Runs of its parts -/

section
variable {α : Type} {d : Database}

theorem run_onStore (p : Request α) :
    (onStore p).run d = ((p.run d.store).1,{ d with store := (p.run d.store).2 }) := Prog.run_zoom ..

theorem run_onBranches (p : Org.BranchRequest α) :
    (onBranches p).run d = ((p.run d.branches).1,{ d with branches := (p.run d.branches).2 }) := Prog.run_zoom ..

/-- A handler that throws leaves the log alone, any other adds one row to it. -/
theorem run_intercept (metadata : AuditMetadata) (request : HttpRequest) (id : Uuid) (now : DateTime)
    (handle : AuditRequest ResponseBody) :
    (intercept (some metadata) request id now handle).run d =
      match handle.run d with
      | (.ok body,e) =>
        (.ok body,{ e with auditLogs := e.auditLogs ++ [auditRow metadata request body id now] })
      | (.error err,e) => (.error err,e) := by
  rw [intercept,Prog.run_bind]
  generalize handle.run d = out
  obtain ⟨r,e⟩ := out
  cases r <;> rfl

/-- Whatever parameters the route has, the id is the value of the first one whose name qualifies. -/
theorem entityId_eq (params : Params) :
    entityId params = (params.find? (fun p => isEntityIdKey p.1)).map Prod.snd := by
  unfold entityId entityIdParam
  induction params with
  | nil => rfl
  | cons p params ih =>
    obtain ⟨key,x⟩ := p
    cases hkey : isEntityIdKey key with
    | true => simp [hkey]
    | false =>
      simp only [List.map_cons,List.find?_cons,hkey]
      rw [← ih]
      cases hf : (params.map Prod.fst).find? isEntityIdKey with
      | none => rfl
      | some other =>
        -- the name that was found is not the one that was passed over
        have hne : other ≠ key := by
          rintro rfl
          rw [List.find?_some hf] at hkey
          cases hkey
        have hbeq : (other == key) = false := beq_false_of_ne hne
        simp [List.lookup_cons,hbeq]

end
end PinoyTax.Audit
