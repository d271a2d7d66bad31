import PinoyTax.Firm.Requests

/-! # What the firm operations leave alone

An operation keeps every part of the store that none of the tables it writes is in.
-/
namespace PinoyTax.Firm
open PinoyTax Foundation Identity

/-- The part `g` of the store does not see the table. -/
abbrev Blind {ρ τ : Type} (t : TableRef ρ) (g : Store → τ) : Prop := ∀ rows s, g (t.set rows s) = g s

section
variable {τ : Type} {g : Store → τ}

theorem keeps_read {α : Type} {l : Label} {f : Store → α} : (Prog.query l f : Request α).Keeps g :=
  Prog.guarantees_query fun _ => rfl

theorem keeps_orThrow_bind {ρ β : Type} {e : ApiException} {o : Option ρ} {f : ρ → Request β}
    (h : ∀ r, (f r).Keeps g) : (orThrow e o >>= f).Keeps g := by
  cases o with
  | none => trivial
  | some r => exact h r

theorem keeps_discard {α : Type} {p : Request α} (h : p.Keeps g) : p.discard.Keeps g :=
  Prog.Guarantees.bind h fun _ => trivial

theorem keeps_guard (code : String) (userId firmId : Uuid) :
    (FirmPermissionsGuard.canActivate (some [code]) (some userId) (some firmId)).Keeps g := by
  apply Prog.Guarantees.bind keeps_read
  intro found
  cases found with
  | none => trivial
  | some m =>
    dsimp only
    split <;> trivial

theorem keeps_guarded {α : Type} {code : String} {userId firmId : Uuid} {handler : Request α} (h : handler.Keeps g) :
    (guarded code userId firmId handler).Keeps g :=
  Prog.Guarantees.bind (keeps_guard code userId firmId) fun _ => h

/-! ## Firm and staff -/

theorem keeps_createFirm (hfirm : Blind Prisma.firm g) (hmembership : Blind Prisma.firmMembership g) {ownerId : Uuid}
    {dto : CreateFirmDto} {firmId membershipId : Uuid} {now : DateTime} :
    (createFirm ownerId dto firmId membershipId now).Keeps g := by
  apply Prog.Guarantees.bind keeps_read
  intro ownerRole
  apply keeps_orThrow_bind
  intro ownerRole s
  have hmembers := hmembership (s.org.firmMemberships ++ [ownerMembership ownerId firmId ownerRole.id membershipId now])
    (Prisma.firm.set (s.org.firms ++ [firmRow dto firmId]) s)
  exact ⟨hmembers.trans (hfirm _ s),trivial⟩

theorem keeps_inviteFirmStaff (hmembership : Blind Prisma.firmMembership g) {toLowerCase : String → String}
    {firmId inviterId : Uuid} {dto : InviteFirmStaffDto} {id : Uuid} {now : DateTime} :
    (inviteFirmStaff toLowerCase firmId inviterId dto id now).Keeps g := by
  apply Prog.Guarantees.bind keeps_read
  intro invitee
  apply keeps_orThrow_bind
  intro invitee
  apply Prog.Guarantees.bind keeps_read
  intro firmRole
  apply keeps_orThrow_bind
  intro firmRole
  apply Prog.Guarantees.bind keeps_read
  intro existing
  cases existing with
  | some existing =>
    dsimp only
    split
    · trivial
    · exact keeps_update hmembership _ _
  | none => exact fun s => ⟨hmembership _ s,trivial⟩

theorem keeps_acceptFirmInvitation (hmembership : Blind Prisma.firmMembership g) {userId membershipId : Uuid}
    {now : DateTime} : (acceptFirmInvitation userId membershipId now).Keeps g := by
  apply Prog.Guarantees.bind keeps_read
  intro invitation
  apply keeps_orThrow_bind
  intro invitation
  exact keeps_update hmembership _ _

theorem keeps_getFirmMembershipOrThrow (firmId membershipId : Uuid) :
    (getFirmMembershipOrThrow firmId membershipId).Keeps g :=
  Prog.Guarantees.bind keeps_read fun _ => keeps_ownedBy ..

theorem keeps_assertNotLastOwner (firmId : Uuid) (membership : FirmMembership × Option FirmRole) (verb : String) :
    (assertNotLastOwner firmId membership verb).Keeps g := by
  unfold assertNotLastOwner
  split
  · trivial
  · apply Prog.Guarantees.bind keeps_read
    intro ownerRole
    apply keeps_orThrow_bind
    intro ownerRole
    apply Prog.Guarantees.bind keeps_read
    intro activeOwnerCount
    split <;> trivial

theorem keeps_updateFirmStaffRole (hmembership : Blind Prisma.firmMembership g) {firmId membershipId : Uuid}
    {firmRoleCode : AssignableFirmRoleCode} : (updateFirmStaffRole firmId membershipId firmRoleCode).Keeps g := by
  apply Prog.Guarantees.bind (keeps_getFirmMembershipOrThrow firmId membershipId)
  intro membership
  apply Prog.Guarantees.bind (keeps_assertNotLastOwner firmId membership _)
  intro _
  apply Prog.Guarantees.bind keeps_read
  intro firmRole
  apply keeps_orThrow_bind
  intro firmRole
  exact keeps_update hmembership _ _

theorem keeps_revokeFirmStaff (hmembership : Blind Prisma.firmMembership g)
    (hassignment : Blind Prisma.firmCompanyAssignment g) {firmId membershipId : Uuid} :
    (revokeFirmStaff firmId membershipId).Keeps g := by
  apply Prog.Guarantees.bind (keeps_getFirmMembershipOrThrow firmId membershipId)
  intro membership
  apply Prog.Guarantees.bind (keeps_assertNotLastOwner firmId membership _)
  intro _
  apply keeps_transaction
  refine Prog.Guarantees.bind (fun s => ⟨hassignment _ s,trivial⟩) fun _ => ?_
  exact keeps_update hmembership _ _

/-! ## Client companies and assignments -/

theorem keeps_createClientCompany (hcompany : Blind Prisma.company g)
    (hassignment : Blind Prisma.firmCompanyAssignment g)
    (hpublished : ∀ events s, g { s with published := events } = g s) {firmId actorId : Uuid} {dto : CreateCompanyDto}
    {companyId assignmentId : Uuid} : (createClientCompany firmId actorId dto companyId assignmentId).Keeps g := by
  apply Prog.Guarantees.bind keeps_read
  intro firm
  apply keeps_orThrow_bind
  intro _
  apply Prog.Guarantees.bind keeps_read
  intro sameTin
  cases sameTin with
  | some _ => trivial
  | none =>
    apply Prog.Guarantees.bind keeps_read
    intro membership
    apply keeps_orThrow_bind
    intro membership
    apply Prog.Guarantees.bind keeps_read
    intro allPermissions
    refine Prog.Guarantees.bind (keeps_transaction ?_) fun company => ?_
    · exact fun s => ⟨hcompany _ s,fun t => ⟨hassignment _ t,trivial⟩⟩
    · exact fun s => ⟨hpublished _ s,fun t => ⟨hpublished _ t,trivial⟩⟩

theorem keeps_inviteClientCompany (hinvitation : Blind Prisma.firmClientInvitation g)
    {firmId inviterId companyId id : Uuid} : (inviteClientCompany firmId inviterId companyId id).Keeps g := by
  apply Prog.Guarantees.bind keeps_read
  intro firm
  apply keeps_orThrow_bind
  intro _
  apply Prog.Guarantees.bind keeps_read
  intro company
  apply keeps_orThrow_bind
  intro company
  split
  · trivial
  · apply Prog.Guarantees.bind keeps_read
    intro pending
    cases pending with
    | some _ => trivial
    | none => exact fun s => ⟨hinvitation _ s,trivial⟩

theorem keeps_respondToClientInvitation (hcompany : Blind Prisma.company g)
    (hinvitation : Blind Prisma.firmClientInvitation g) {userId invitationId : Uuid} {accept : Bool} {now : DateTime} :
    (respondToClientInvitation userId invitationId accept now).Keeps g := by
  apply Prog.Guarantees.bind keeps_read
  intro invitation
  apply keeps_orThrow_bind
  intro invitation
  apply Prog.Guarantees.bind keeps_read
  intro owner
  apply keeps_orThrow_bind
  intro _
  split
  · apply keeps_transaction
    apply Prog.Guarantees.bind (keeps_update hcompany _ _)
    intro _
    exact keeps_update hinvitation _ _
  · exact keeps_update hinvitation _ _

theorem keeps_assertCompanyBelongsToFirm (firmId companyId : Uuid) :
    (assertCompanyBelongsToFirm firmId companyId).Keeps g := by
  apply Prog.Guarantees.bind keeps_read
  intro company
  apply keeps_orThrow_bind
  intro _
  trivial

theorem keeps_removeClientCompany (hcompany : Blind Prisma.company g)
    (hassignment : Blind Prisma.firmCompanyAssignment g) {firmId companyId : Uuid} :
    (removeClientCompany firmId companyId).Keeps g := by
  apply Prog.Guarantees.bind (keeps_assertCompanyBelongsToFirm firmId companyId)
  intro _
  apply keeps_transaction
  refine Prog.Guarantees.bind (fun s => ⟨hassignment _ s,trivial⟩) fun _ => ?_
  exact keeps_update hcompany _ _

theorem keeps_assignStaffToCompany (hassignment : Blind Prisma.firmCompanyAssignment g)
    {firmId actorId companyId membershipId : Uuid} {permissionCodes : List String} {id : Uuid} :
    (assignStaffToCompany firmId actorId companyId membershipId permissionCodes id).Keeps g := by
  apply Prog.Guarantees.bind (keeps_assertCompanyBelongsToFirm firmId companyId)
  intro _
  apply Prog.Guarantees.bind keeps_read
  intro member
  apply keeps_orThrow_bind
  intro _
  apply Prog.Guarantees.bind keeps_read
  intro permissions
  split
  · trivial
  · apply keeps_transaction
    refine Prog.Guarantees.bind (fun s => ?_) fun assignment => ?_
    · dsimp only
      cases s.org.firmCompanyAssignments.find? (isAssignmentOf membershipId companyId) with
      | some a => exact ⟨hassignment _ s,trivial⟩
      | none => exact ⟨hassignment _ s,trivial⟩
    · refine fun s => ⟨hassignment _ s,fun t => ⟨hassignment _ t,?_⟩⟩
      apply Prog.Guarantees.bind keeps_read
      intro found
      cases found <;> trivial

theorem keeps_revokeAssignment (hassignment : Blind Prisma.firmCompanyAssignment g) {firmId assignmentId : Uuid} :
    (revokeAssignment firmId assignmentId).Keeps g := by
  apply Prog.Guarantees.bind keeps_read
  intro found
  apply keeps_orThrow_bind
  intro _
  exact keeps_update hassignment _ _

end
end PinoyTax.Firm
