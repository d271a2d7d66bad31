import PinoyTax.Org.Ownership

/-! # What the company requests leave alone

Companies, their roles, firms, memberships, assignments, invitations of clients and the
messages are all that company and firm requests write.
-/
namespace PinoyTax.Org
open PinoyTax Foundation

variable {τ : Type}

/-- The part `g` of the store sees nothing that company and firm requests write. -/
structure Apart (g : Store → τ) : Prop where
  company : Firm.Blind Prisma.company g
  userCompanyRole : Firm.Blind Prisma.userCompanyRole g
  firm : Firm.Blind Prisma.firm g
  firmMembership : Firm.Blind Prisma.firmMembership g
  firmCompanyAssignment : Firm.Blind Prisma.firmCompanyAssignment g
  firmClientInvitation : Firm.Blind Prisma.firmClientInvitation g
  published : ∀ events s, g { s with published := events } = g s

/-- The part `g` of the store may see who has a role on a company, but nothing else of these. -/
structure ApartFromFirms (g : Store → τ) : Prop where
  company : Firm.Blind Prisma.company g
  firm : Firm.Blind Prisma.firm g
  firmMembership : Firm.Blind Prisma.firmMembership g
  firmCompanyAssignment : Firm.Blind Prisma.firmCompanyAssignment g
  firmClientInvitation : Firm.Blind Prisma.firmClientInvitation g
  published : ∀ events s, g { s with published := events } = g s

theorem keeps_firmRequest {g : Store → τ} (h : ApartFromFirms g) (toLowerCase : String → String) (req : Firm.FirmRequest) :
    (Firm.program toLowerCase req).Keeps g := by
  cases req with
  | createFirm userId dto firmId membershipId now =>
    exact Firm.keeps_discard (Firm.keeps_createFirm h.firm h.firmMembership)
  | inviteFirmStaff userId firmId dto id now =>
    exact Firm.keeps_discard (Firm.keeps_guarded (Firm.keeps_inviteFirmStaff h.firmMembership))
  | acceptFirmInvitation userId membershipId now =>
    exact Firm.keeps_discard (Firm.keeps_acceptFirmInvitation h.firmMembership)
  | updateFirmStaffRole userId firmId membershipId firmRoleCode =>
    exact Firm.keeps_discard (Firm.keeps_guarded (Firm.keeps_updateFirmStaffRole h.firmMembership))
  | revokeFirmStaff userId firmId membershipId =>
    exact Firm.keeps_discard (Firm.keeps_guarded (Firm.keeps_revokeFirmStaff h.firmMembership h.firmCompanyAssignment))
  | createClientCompany userId firmId dto companyId assignmentId =>
    exact Firm.keeps_discard (Firm.keeps_guarded
      (Firm.keeps_createClientCompany h.company h.firmCompanyAssignment h.published))
  | inviteClientCompany userId firmId companyId id =>
    exact Firm.keeps_discard (Firm.keeps_guarded (Firm.keeps_inviteClientCompany h.firmClientInvitation))
  | respondToClientInvitation userId invitationId accept now =>
    exact Firm.keeps_discard (Firm.keeps_respondToClientInvitation h.company h.firmClientInvitation)
  | removeClientCompany userId firmId companyId =>
    exact Firm.keeps_discard (Firm.keeps_guarded (Firm.keeps_removeClientCompany h.company h.firmCompanyAssignment))
  | assignStaffToCompany userId firmId companyId membershipId permissionCodes id =>
    exact Firm.keeps_discard (Firm.keeps_guarded (Firm.keeps_assignStaffToCompany h.firmCompanyAssignment))
  | revokeAssignment userId firmId assignmentId =>
    exact Firm.keeps_discard (Firm.keeps_guarded (Firm.keeps_revokeAssignment h.firmCompanyAssignment))

theorem keeps_profileUpdate {g : Store → τ} (h : ApartFromFirms g) (companyId : Uuid) (dto : UpdateCompanyDto) :
    (updateCompany companyId dto).Keeps g := by
  refine Prog.Guarantees.bind (Prog.Guarantees.bind Firm.keeps_read fun found => ?_) fun existing => ?_
  · cases found <;> trivial
  · apply Prog.Guarantees.bind (keeps_update h.company _ _)
    intro updated
    cases dto.vatClassification with
    | none => trivial
    | some vatClassification =>
      dsimp only
      split
      · exact fun s => ⟨h.published _ s,fun t => ⟨h.published _ t,trivial⟩⟩
      · trivial

theorem Apart.fromFirms {g : Store → τ} (h : Apart g) : ApartFromFirms g :=
  ⟨h.company,h.firm,h.firmMembership,h.firmCompanyAssignment,h.firmClientInvitation,h.published⟩

variable {g : Store → τ} (h : Apart g) (toLowerCase : String → String)
include h

theorem keeps_firm_program (req : Firm.FirmRequest) : (Firm.program toLowerCase req).Keeps g :=
  keeps_firmRequest h.fromFirms toLowerCase req

theorem keeps_program (req : CompanyRequest) : (program toLowerCase req).Keeps g := by
  cases req with
  | createCompany userId dto companyId userCompanyRoleId now =>
    exact Firm.keeps_discard (keeps_createCompany h.company h.userCompanyRole h.published)
  | inviteStaff userId companyId dto id =>
    exact Firm.keeps_discard (keeps_guarded (keeps_inviteStaff h.userCompanyRole))
  | acceptInvitation userId userCompanyRoleId now => exact Firm.keeps_discard (keeps_acceptInvitation h.userCompanyRole)
  | revokeStaff userId companyId userCompanyRoleId =>
    exact Firm.keeps_discard (keeps_guarded (keeps_revokeStaff h.userCompanyRole))
  | firm req => exact keeps_firm_program h toLowerCase req

theorem keeps_updateCompany (companyId : Uuid) (dto : UpdateCompanyDto) : (updateCompany companyId dto).Keeps g :=
  keeps_profileUpdate h.fromFirms companyId dto

end PinoyTax.Org
