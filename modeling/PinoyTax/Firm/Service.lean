import PinoyTax.Identity.FirmPermissionsGuard

/-! # FirmService

The operations that write firms, memberships, assignments and client invitations.
Lower-casing an e-mail address is a parameter. A nested create and the upsert are one
statement each, as is a bulk update whose condition reaches into another table.
-/
namespace PinoyTax.Firm
open PinoyTax Foundation

def firmNotFound : ApiException := .notFound "FIRM_NOT_FOUND" "Firm not found."
def inviteeNotRegistered : ApiException :=
  .notFound "INVITEE_NOT_REGISTERED"
    "No PinoyTax AI account exists for this email yet. Ask them to register first, then resend the invitation."
def alreadyFirmMember : ApiException :=
  .conflict "ALREADY_FIRM_MEMBER" "This user is already an active member of this firm."
def invitationNotFound : ApiException := .notFound "INVITATION_NOT_FOUND" "No pending invitation found."
def firmMembershipNotFound (message : String) : ApiException := .notFound "FIRM_MEMBERSHIP_NOT_FOUND" message
def cannotRemoveLastOwner (verb : String) : ApiException :=
  .badRequest "CANNOT_REMOVE_LAST_OWNER" ("Cannot " ++ verb ++ " the firm's only active owner.")
def tinAlreadyRegistered : ApiException :=
  .conflict "TIN_ALREADY_REGISTERED" "A company with this TIN is already registered on the platform."
def companyNotFound (message : String) : ApiException := .notFound "COMPANY_NOT_FOUND" message
def companyAlreadyHasFirm : ApiException :=
  .conflict "COMPANY_ALREADY_HAS_FIRM" "This company is already managed by a firm."
def invitationAlreadyExists : ApiException :=
  .conflict "INVITATION_ALREADY_EXISTS" "A pending invitation already exists for this company."
def onlyOwnerResponds : ApiException :=
  .forbidden "FORBIDDEN" "Only this company's owner can respond to a firm engagement request."
def invalidPermissionCode : ApiException :=
  .badRequest "INVALID_PERMISSION_CODE" "One or more permission codes are invalid."
def assignmentNotFound : ApiException := .notFound "ASSIGNMENT_NOT_FOUND" "Assignment not found."

structure CreateFirmDto where
  firmName : String
  firmType : FirmType
  contactEmail : String
  contactNumber : Option String := none
deriving DecidableEq, Repr

/-- `firm_owner` is not assignable. -/
inductive AssignableFirmRoleCode | firm_admin | firm_accountant | firm_bookkeeper | firm_auditor
deriving DecidableEq, Repr

def AssignableFirmRoleCode.code : AssignableFirmRoleCode → String
  | firm_admin => "firm_admin"
  | firm_accountant => "firm_accountant"
  | firm_bookkeeper => "firm_bookkeeper"
  | firm_auditor => "firm_auditor"

structure InviteFirmStaffDto where
  email : String
  firmRoleCode : AssignableFirmRoleCode
deriving DecidableEq, Repr

structure CreateCompanyDto where
  businessName : String
  tradeName : Option String := none
  businessType : BusinessType
  vatClassification : VatClassification
  tin : String
  rdoCode : Option String := none
  businessAddress : Option String := none
  email : Option String := none
  contactNumber : Option String := none
deriving DecidableEq, Repr

/-! ## Firm and staff -/

def firmRow (dto : CreateFirmDto) (id : Uuid) : Firm where
  id := id
  firmName := dto.firmName
  firmType := dto.firmType
  contactEmail := dto.contactEmail
  contactNumber := dto.contactNumber

def ownerMembership (ownerId firmId firmRoleId id : Uuid) (now : DateTime) : FirmMembership where
  id := id
  firmId := firmId
  userId := ownerId
  firmRoleId := firmRoleId
  status := .active
  invitedAt := now
  acceptedAt := some now

/-- The firm with its nested membership. -/
def createFirmWithMembership (firm : Firm) (membership : FirmMembership) : Request Firm :=
  .stmt (.on .firm .create)
    (fun s => { s with
      org.firms := s.org.firms ++ [firm]
      org.firmMemberships := s.org.firmMemberships ++ [membership] })
    (fun _ => .done (.ok firm))

def createFirm (ownerId : Uuid) (dto : CreateFirmDto) (firmId membershipId : Uuid) (now : DateTime) :
    Request Firm := do
  let ownerRole ← orThrow .database (← Prisma.firmRole.findUnique (fun r => r.code = "firm_owner"))
  createFirmWithMembership (firmRow dto firmId) (ownerMembership ownerId firmId ownerRole.id membershipId now)

def getFirm (firmId : Uuid) : Request Firm := do
  orThrow firmNotFound (← Prisma.firm.findUnique (fun f => f.id = firmId))

structure UpdateFirmDto where
  firmName : Option String := none
  contactEmail : Option String := none
  contactNumber : Option String := none
deriving DecidableEq, Repr

/-- A field that is left out stays as it is. -/
def setFirmProfile (dto : UpdateFirmDto) (f : Firm) : Firm :=
  { f with
    firmName := dto.firmName.getD f.firmName
    contactEmail := dto.contactEmail.getD f.contactEmail
    contactNumber := dto.contactNumber <|> f.contactNumber }

def updateFirm (firmId : Uuid) (dto : UpdateFirmDto) : Request Firm := do
  let _ ← getFirm firmId
  Prisma.firm.update (fun f => f.id = firmId) (setFirmProfile dto)

/-- The unique pair `userId_firmId`. -/
def isMemberOf (userId firmId : Uuid) (m : FirmMembership) : Bool :=
  decide (m.userId = userId) && decide (m.firmId = firmId)

def reinvite (firmRoleId inviterId : Uuid) (now : DateTime) (m : FirmMembership) : FirmMembership :=
  { m with
    firmRoleId := firmRoleId
    invitedById := some inviterId
    status := .pending
    invitedAt := now
    acceptedAt := none }

def invitedMembership (firmId userId firmRoleId inviterId id : Uuid) (now : DateTime) : FirmMembership where
  id := id
  firmId := firmId
  userId := userId
  firmRoleId := firmRoleId
  invitedById := some inviterId
  status := .pending
  invitedAt := now

def inviteFirmStaff (toLowerCase : String → String) (firmId inviterId : Uuid) (dto : InviteFirmStaffDto) (id : Uuid)
    (now : DateTime) : Request FirmMembership := do
  let invitee ← orThrow inviteeNotRegistered
    (← Prisma.user.findUnique (fun u => u.email = toLowerCase dto.email))
  let firmRole ← orThrow .database (← Prisma.firmRole.findUnique (fun r => r.code = dto.firmRoleCode.code))
  match ← Prisma.firmMembership.findUnique (isMemberOf invitee.id firmId) with
  | some existing =>
    if existing.status = .active then .throw alreadyFirmMember
    else Prisma.firmMembership.update (fun m => m.id = existing.id) (reinvite firmRole.id inviterId now)
  | none => Prisma.firmMembership.create (invitedMembership firmId invitee.id firmRole.id inviterId id now)

/-- A membership with its firm role. -/
def findMembershipWithRole (membershipId : Uuid) : Request (Option (FirmMembership × Option FirmRole)) :=
  .query (.on .firmMembership .findUnique) (fun s =>
    (s.org.firmMemberships.find? (fun m => m.id = membershipId)).map (fun m =>
      (m,s.org.firmRoles.find? (fun r => r.id = m.firmRoleId))))

def getFirmMembershipOrThrow (firmId membershipId : Uuid) : Request (FirmMembership × Option FirmRole) := do
  ownedBy (fun m => m.1.firmId) firmId (firmMembershipNotFound "Firm staff record not found.")
    (← findMembershipWithRole membershipId)

def isActiveWithRole (firmId firmRoleId : Uuid) (m : FirmMembership) : Bool :=
  decide (m.firmId = firmId) && decide (m.firmRoleId = firmRoleId) && decide (m.status = .active)

def assertNotLastOwner (firmId : Uuid) (membership : FirmMembership × Option FirmRole) (verb : String) :
    Request Unit :=
  if membership.2.map FirmRole.code ≠ some "firm_owner" ∨ membership.1.status ≠ .active then pure ()
  else do
    let ownerRole ← orThrow .database (← Prisma.firmRole.findUnique (fun r => r.code = "firm_owner"))
    let activeOwnerCount ← Prisma.firmMembership.count (isActiveWithRole firmId ownerRole.id)
    if activeOwnerCount ≤ 1 then .throw (cannotRemoveLastOwner verb) else pure ()

def setFirmRole (firmRoleId : Uuid) (m : FirmMembership) : FirmMembership := { m with firmRoleId := firmRoleId }

def updateFirmStaffRole (firmId membershipId : Uuid) (firmRoleCode : AssignableFirmRoleCode) :
    Request FirmMembership := do
  let membership ← getFirmMembershipOrThrow firmId membershipId
  assertNotLastOwner firmId membership "change the role of"
  let firmRole ← orThrow .database (← Prisma.firmRole.findUnique (fun r => r.code = firmRoleCode.code))
  Prisma.firmMembership.update (fun m => m.id = membershipId) (setFirmRole firmRole.id)

def revokeAssigned (a : FirmCompanyAssignment) : FirmCompanyAssignment := { a with status := .revoked }

def revokeMember (m : FirmMembership) : FirmMembership := { m with status := .revoked }

def isActiveOf (membershipId : Uuid) (a : FirmCompanyAssignment) : Bool :=
  decide (a.firmMembershipId = membershipId) && decide (a.status = .active)

def revokeFirmStaff (firmId membershipId : Uuid) : Request FirmMembership := do
  let membership ← getFirmMembershipOrThrow firmId membershipId
  assertNotLastOwner firmId membership "revoke"
  transaction do
    Prisma.firmCompanyAssignment.updateMany (isActiveOf membershipId) revokeAssigned
    Prisma.firmMembership.update (fun m => m.id = membershipId) revokeMember

def activate (now : DateTime) (m : FirmMembership) : FirmMembership :=
  { m with status := .active, acceptedAt := some now }

def isPendingOf (userId membershipId : Uuid) (m : FirmMembership) : Bool :=
  decide (m.id = membershipId) && decide (m.userId = userId) && decide (m.status = .pending)

def acceptFirmInvitation (userId membershipId : Uuid) (now : DateTime) : Request FirmMembership := do
  let invitation ← orThrow invitationNotFound (← Prisma.firmMembership.findFirst (isPendingOf userId membershipId))
  Prisma.firmMembership.update (fun m => m.id = invitation.id) (activate now)

/-! ## Client companies -/

def companyRow (firmId : Uuid) (dto : CreateCompanyDto) (id : Uuid) : Company where
  id := id
  firmId := some firmId
  businessName := dto.businessName
  tradeName := dto.tradeName
  businessType := dto.businessType
  vatClassification := dto.vatClassification
  tin := dto.tin
  rdoCode := dto.rdoCode
  businessAddress := dto.businessAddress
  email := dto.email
  contactNumber := dto.contactNumber

def assignmentRow (membershipId companyId actorId : Uuid) (permissionIds : List Uuid) (id : Uuid) :
    FirmCompanyAssignment where
  id := id
  firmMembershipId := membershipId
  companyId := companyId
  assignedById := some actorId
  status := .active
  permissionIds := permissionIds

def createClientCompany (firmId actorId : Uuid) (dto : CreateCompanyDto) (companyId assignmentId : Uuid) :
    Request Company := do
  let _ ← orThrow firmNotFound (← Prisma.firm.findUnique (fun f => f.id = firmId))
  match ← Prisma.company.findUnique (fun c => c.tin = dto.tin) with
  | some _ => .throw tinAlreadyRegistered
  | none => do
    let membership ← orThrow .database (← Prisma.firmMembership.findUnique (isMemberOf actorId firmId))
    let allPermissions ← Prisma.permission.findMany (fun _ => true)
    let company ← transaction do
      let created ← Prisma.company.create (companyRow firmId dto companyId)
      let _ ← Prisma.firmCompanyAssignment.create
        (assignmentRow membership.id created.id actorId (allPermissions.map Permission.id) assignmentId)
      pure created
    publish (.companyCreatedEmitted company.id)
    publish (.companyCreated company.id company.tin)
    pure company

def isPendingInvitation (firmId companyId : Uuid) (i : FirmClientInvitation) : Bool :=
  decide (i.firmId = firmId) && decide (i.companyId = companyId) && decide (i.status = .pending)

def inviteClientCompany (firmId inviterId companyId id : Uuid) : Request FirmClientInvitation := do
  let _ ← orThrow firmNotFound (← Prisma.firm.findUnique (fun f => f.id = firmId))
  let company ← orThrow (companyNotFound "Company not found.") (← Prisma.company.findUnique (fun c => c.id = companyId))
  if company.firmId.isSome then .throw companyAlreadyHasFirm
  else do
    match ← Prisma.firmClientInvitation.findFirst (isPendingInvitation firmId companyId) with
    | some _ => .throw invitationAlreadyExists
    | none =>
      Prisma.firmClientInvitation.create
        { id := id, firmId := firmId, companyId := companyId, invitedById := some inviterId }

/-- An active role of the user on the company whose code is `business_owner`. -/
def isOwnerRole (s : Store) (userId companyId : Uuid) (r : UserCompanyRole) : Bool :=
  Identity.isActiveRole userId companyId r &&
    (s.identity.roles.find? (fun q => q.id = r.roleId)).any (fun q => q.code == "business_owner")

def findOwnerRole (userId companyId : Uuid) : Request (Option UserCompanyRole) :=
  .query (.on .userCompanyRole .findFirst) (fun s => s.org.userCompanyRoles.find? (isOwnerRole s userId companyId))

def isPending : FirmClientInvitation → Bool := fun i => decide (i.status = .pending)

def respond (status : FirmClientInvitationStatus) (now : DateTime) (i : FirmClientInvitation) :
    FirmClientInvitation := { i with status := status, respondedAt := some now }

def setFirm (firmId : Option Uuid) (c : Company) : Company := { c with firmId := firmId }

def respondToClientInvitation (userId invitationId : Uuid) (accept : Bool) (now : DateTime) :
    Request FirmClientInvitation := do
  let invitation ← orThrow invitationNotFound
    ((← Prisma.firmClientInvitation.findUnique (fun i => i.id = invitationId)).filter isPending)
  let _ ← orThrow onlyOwnerResponds (← findOwnerRole userId invitation.companyId)
  if accept then
    transaction do
      let _ ← Prisma.company.update (fun c => c.id = invitation.companyId) (setFirm (some invitation.firmId))
      Prisma.firmClientInvitation.update (fun i => i.id = invitationId) (respond .accepted now)
  else Prisma.firmClientInvitation.update (fun i => i.id = invitationId) (respond .declined now)

def notClient : ApiException := companyNotFound "Client company not found under this firm."

def assertCompanyBelongsToFirm (firmId companyId : Uuid) : Request Unit := do
  let _ ← orThrow notClient
    ((← Prisma.company.findUnique (fun c => c.id = companyId)).filter (fun c => c.firmId == some firmId))
  pure ()

/-- `{ companyId, status: 'active', firmMembership: { firmId } }`. -/
def isActiveOfFirm (s : Store) (firmId companyId : Uuid) (a : FirmCompanyAssignment) : Bool :=
  decide (a.companyId = companyId) && decide (a.status = .active) &&
    (s.org.firmMemberships.find? (fun m => m.id = a.firmMembershipId)).any (fun m => m.firmId == firmId)

def revokeAssignmentsOfFirm (firmId companyId : Uuid) : Request Unit :=
  .stmt (.on .firmCompanyAssignment .updateMany)
    (fun s => Prisma.firmCompanyAssignment.set
      (Table.updateMany (isActiveOfFirm s firmId companyId) revokeAssigned s.org.firmCompanyAssignments) s)
    (fun _ => .done (.ok ()))

def removeClientCompany (firmId companyId : Uuid) : Request Company := do
  assertCompanyBelongsToFirm firmId companyId
  transaction do
    revokeAssignmentsOfFirm firmId companyId
    Prisma.company.update (fun c => c.id = companyId) (setFirm none)

/-! ## Staff-to-client assignments -/

/-- The unique pair `firmMembershipId_companyId`. -/
def isAssignmentOf (membershipId companyId : Uuid) (a : FirmCompanyAssignment) : Bool :=
  decide (a.firmMembershipId = membershipId) && decide (a.companyId = companyId)

def reassign (actorId : Uuid) (a : FirmCompanyAssignment) : FirmCompanyAssignment :=
  { a with status := .active, assignedById := some actorId }

def upsertAssignment (membershipId companyId actorId id : Uuid) : Request FirmCompanyAssignment :=
  let row := assignmentRow membershipId companyId actorId [] id
  .stmt (.on .firmCompanyAssignment .upsert)
    (fun s => match s.org.firmCompanyAssignments.find? (isAssignmentOf membershipId companyId) with
      | some _ => Prisma.firmCompanyAssignment.set
          (Table.updateMany (isAssignmentOf membershipId companyId) (reassign actorId) s.org.firmCompanyAssignments) s
      | none => Prisma.firmCompanyAssignment.set (s.org.firmCompanyAssignments ++ [row]) s)
    (fun s => match s.org.firmCompanyAssignments.find? (isAssignmentOf membershipId companyId) with
      | some a => .done (.ok (reassign actorId a))
      | none => .done (.ok row))

def setPermissions (permissionIds : List Uuid) (a : FirmCompanyAssignment) : FirmCompanyAssignment :=
  { a with permissionIds := permissionIds }

def addPermissions (permissionIds : List Uuid) (a : FirmCompanyAssignment) : FirmCompanyAssignment :=
  { a with permissionIds := a.permissionIds ++ permissionIds }

/-- An assignment with its permissions included. -/
def findAssignmentWithPermissions (id : Uuid) : Request (Option (FirmCompanyAssignment × List Permission)) :=
  .query (.on .firmCompanyAssignment .findUnique) (fun s =>
    (s.org.firmCompanyAssignments.find? (fun a => a.id = id)).map (fun a =>
      (a,a.permissionIds.filterMap (fun p => s.identity.permissions.find? (fun q => q.id = p)))))

def assignStaffToCompany (firmId actorId companyId membershipId : Uuid) (permissionCodes : List String) (id : Uuid) :
    Request (FirmCompanyAssignment × List Permission) := do
  assertCompanyBelongsToFirm firmId companyId
  let _ ← orThrow (firmMembershipNotFound "Active firm staff record not found.")
    ((← Prisma.firmMembership.findUnique (fun m => m.id = membershipId)).filter
      (fun m => decide (m.firmId = firmId) && decide (m.status = .active)))
  let permissions ← Prisma.permission.findMany (fun p => permissionCodes.contains p.code)
  if permissions.length ≠ permissionCodes.length then .throw invalidPermissionCode
  else transaction do
    let assignment ← upsertAssignment membershipId companyId actorId id
    Prisma.firmCompanyAssignment.updateMany (fun a => a.id = assignment.id) (setPermissions [])
    Prisma.firmCompanyAssignment.updateMany (fun a => a.id = assignment.id)
      (addPermissions (permissions.map Permission.id))
    orThrow .database (← findAssignmentWithPermissions assignment.id)

/-- An assignment with its membership included. -/
def findAssignmentWithMembership (id : Uuid) : Request (Option (FirmCompanyAssignment × Option FirmMembership)) :=
  .query (.on .firmCompanyAssignment .findUnique) (fun s =>
    (s.org.firmCompanyAssignments.find? (fun a => a.id = id)).map (fun a =>
      (a,s.org.firmMemberships.find? (fun m => m.id = a.firmMembershipId))))

def revokeAssignment (firmId assignmentId : Uuid) : Request FirmCompanyAssignment := do
  let _ ← orThrow assignmentNotFound
    ((← findAssignmentWithMembership assignmentId).filter (fun a => a.2.any (fun m => m.firmId == firmId)))
  Prisma.firmCompanyAssignment.update (fun a => a.id = assignmentId) revokeAssigned

end PinoyTax.Firm
