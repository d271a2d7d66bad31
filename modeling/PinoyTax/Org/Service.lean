import PinoyTax.Firm.Service

/-! # OrgService

A company is created with its owner's role, and staff come by invitation. The owner's
role is never among the roles that an invitation offers or a revocation takes.
-/
namespace PinoyTax.Org
open PinoyTax Foundation

def companyInvitationExists : ApiException :=
  .conflict "INVITATION_ALREADY_EXISTS" "This user already has a pending or active role on this company."
def staffRoleNotFound : ApiException := .notFound "STAFF_ROLE_NOT_FOUND" "Staff role not found."
def cannotRevokeOwner : ApiException :=
  .badRequest "CANNOT_REVOKE_OWNER" "A company's owner role cannot be revoked from this endpoint."

inductive StaffRoleCode | accountant | bookkeeper
deriving DecidableEq, Repr

def StaffRoleCode.code : StaffRoleCode → String
  | accountant => "accountant"
  | bookkeeper => "bookkeeper"

structure InviteStaffDto where
  email : String
  roleCode : StaffRoleCode
deriving DecidableEq, Repr

/-! ## Companies -/

def companyRow (dto : Firm.CreateCompanyDto) (id : Uuid) : Company where
  id := id
  businessName := dto.businessName
  tradeName := dto.tradeName
  businessType := dto.businessType
  vatClassification := dto.vatClassification
  tin := dto.tin
  rdoCode := dto.rdoCode
  businessAddress := dto.businessAddress
  email := dto.email
  contactNumber := dto.contactNumber

def ownerRow (ownerId companyId roleId id : Uuid) (now : DateTime) : UserCompanyRole where
  id := id
  userId := ownerId
  companyId := companyId
  roleId := roleId
  status := .active
  acceptedAt := some now

/-- The company with its nested role. -/
def createCompanyWithRole (company : Company) (userRole : UserCompanyRole) : Request Company :=
  .stmt (.on .company .create)
    (fun s => { s with
      org.companies := s.org.companies ++ [company]
      org.userCompanyRoles := s.org.userCompanyRoles ++ [userRole] })
    (fun _ => .done (.ok company))

def createCompany (ownerId : Uuid) (dto : Firm.CreateCompanyDto) (companyId userCompanyRoleId : Uuid)
    (now : DateTime) : Request Company := do
  match ← Prisma.company.findUnique (fun c => c.tin = dto.tin) with
  | some _ => .throw Firm.tinAlreadyRegistered
  | none => do
    let ownerRole ← orThrow .database (← Prisma.role.findUnique (fun r => r.code = "business_owner"))
    let company ← createCompanyWithRole (companyRow dto companyId)
      (ownerRow ownerId companyId ownerRole.id userCompanyRoleId now)
    publish (.companyCreatedEmitted company.id)
    publish (.companyCreated company.id company.tin)
    pure company

def getCompany (companyId : Uuid) : Request Company := do
  orThrow (Firm.companyNotFound "Company not found.") (← Prisma.company.findUnique (fun c => c.id = companyId))

structure UpdateCompanyDto where
  tradeName : Option String := none
  vatClassification : Option VatClassification := none
  rdoCode : Option String := none
  businessAddress : Option String := none
  email : Option String := none
  contactNumber : Option String := none
deriving DecidableEq, Repr

/-- A field that is left out stays as it is. -/
def setProfile (dto : UpdateCompanyDto) (c : Company) : Company :=
  { c with
    tradeName := dto.tradeName <|> c.tradeName
    vatClassification := dto.vatClassification.getD c.vatClassification
    rdoCode := dto.rdoCode <|> c.rdoCode
    businessAddress := dto.businessAddress <|> c.businessAddress
    email := dto.email <|> c.email
    contactNumber := dto.contactNumber <|> c.contactNumber }

def updateCompany (companyId : Uuid) (dto : UpdateCompanyDto) : Request Company := do
  let existing ← getCompany companyId
  let updated ← Prisma.company.update (fun c => c.id = companyId) (setProfile dto)
  match dto.vatClassification with
  | none => pure updated
  | some vatClassification =>
    if vatClassification ≠ existing.vatClassification then do
      publish (.companyUpdatedEmitted companyId)
      publish (.companyUpdated companyId vatClassification)
      pure updated
    else pure updated

/-! ## Staff -/

def isRoleOf (userId companyId roleId : Uuid) (r : UserCompanyRole) : Bool :=
  decide (r.userId = userId) && decide (r.companyId = companyId) && decide (r.roleId = roleId)

def invitedRow (companyId userId roleId inviterId id : Uuid) : UserCompanyRole where
  id := id
  userId := userId
  companyId := companyId
  roleId := roleId
  invitedById := some inviterId
  status := .pending

def inviteStaff (toLowerCase : String → String) (companyId inviterId : Uuid) (dto : InviteStaffDto) (id : Uuid) :
    Request UserCompanyRole := do
  let invitee ← orThrow Firm.inviteeNotRegistered
    (← Prisma.user.findUnique (fun u => u.email = toLowerCase dto.email))
  let role ← orThrow .database (← Prisma.role.findUnique (fun r => r.code = dto.roleCode.code))
  match ← Prisma.userCompanyRole.findFirst (isRoleOf invitee.id companyId role.id) with
  | some _ => .throw companyInvitationExists
  | none => Prisma.userCompanyRole.create (invitedRow companyId invitee.id role.id inviterId id)

def isPendingOf (userId userCompanyRoleId : Uuid) (r : UserCompanyRole) : Bool :=
  decide (r.id = userCompanyRoleId) && decide (r.userId = userId) && decide (r.status = .pending)

def activate (now : DateTime) (r : UserCompanyRole) : UserCompanyRole :=
  { r with status := .active, acceptedAt := some now }

def acceptInvitation (userId userCompanyRoleId : Uuid) (now : DateTime) : Request UserCompanyRole := do
  let invitation ← orThrow Firm.invitationNotFound
    (← Prisma.userCompanyRole.findFirst (isPendingOf userId userCompanyRoleId))
  Prisma.userCompanyRole.update (fun r => r.id = invitation.id) (activate now)

/-- A company role with its role. -/
def findRoleWithCode (userCompanyRoleId : Uuid) : Request (Option (UserCompanyRole × Option Role)) :=
  .query (.on .userCompanyRole .findUnique) (fun s =>
    (s.org.userCompanyRoles.find? (fun r => r.id = userCompanyRoleId)).map (fun r =>
      (r,s.identity.roles.find? (fun q => q.id = r.roleId))))

def revokeRole (r : UserCompanyRole) : UserCompanyRole := { r with status := .revoked }

def revokeStaff (companyId userCompanyRoleId : Uuid) : Request UserCompanyRole := do
  let userCompanyRole ← ownedBy (fun r => r.1.companyId) companyId staffRoleNotFound
    (← findRoleWithCode userCompanyRoleId)
  if userCompanyRole.2.map Role.code = some "business_owner" then .throw cannotRevokeOwner
  else Prisma.userCompanyRole.update (fun r => r.id = userCompanyRoleId) revokeRole

end PinoyTax.Org
