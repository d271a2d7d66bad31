import PinoyTax.Foundation.Runs
import PinoyTax.Firm.Service

/-! # Firm requests one at a time

Each request is its route: the firm guard where the route has one, then the
operation. Every request but the answer to a client invitation keeps all active
assignments within the firms that manage the companies.
-/
namespace PinoyTax.Firm
open PinoyTax Foundation Identity

inductive FirmRequest
  | createFirm (userId : Uuid) (dto : CreateFirmDto) (newFirmId membershipId : Uuid) (now : DateTime)
  | inviteFirmStaff (userId firmId : Uuid) (dto : InviteFirmStaffDto) (id : Uuid) (now : DateTime)
  | acceptFirmInvitation (userId membershipId : Uuid) (now : DateTime)
  | updateFirmStaffRole (userId firmId membershipId : Uuid) (firmRoleCode : AssignableFirmRoleCode)
  | revokeFirmStaff (userId firmId membershipId : Uuid)
  | createClientCompany (userId firmId : Uuid) (dto : CreateCompanyDto) (newCompanyId assignmentId : Uuid)
  | inviteClientCompany (userId firmId companyId id : Uuid)
  | respondToClientInvitation (userId invitationId : Uuid) (accept : Bool) (now : DateTime)
  | removeClientCompany (userId firmId companyId : Uuid)
  | assignStaffToCompany (userId firmId companyId membershipId : Uuid) (permissionCodes : List String) (id : Uuid)
  | revokeAssignment (userId firmId assignmentId : Uuid)

/-- `@UseGuards(FirmPermissionsGuard) @RequireFirmPermissions(code)`. -/
def guarded {α : Type} (code : String) (userId firmId : Uuid) (handler : Request α) : Request α := do
  let _ ← FirmPermissionsGuard.canActivate (some [code]) (some userId) (some firmId)
  handler

/-- The store after a request. -/
def next (toLowerCase : String → String) (s : Store) : FirmRequest → Store
  | .createFirm userId dto firmId membershipId now => ((createFirm userId dto firmId membershipId now).run s).2
  | .inviteFirmStaff userId firmId dto id now =>
    ((guarded "firm:staff:invite" userId firmId (inviteFirmStaff toLowerCase firmId userId dto id now)).run s).2
  | .acceptFirmInvitation userId membershipId now => ((acceptFirmInvitation userId membershipId now).run s).2
  | .updateFirmStaffRole userId firmId membershipId firmRoleCode =>
    ((guarded "firm:staff:manage_roles" userId firmId (updateFirmStaffRole firmId membershipId firmRoleCode)).run s).2
  | .revokeFirmStaff userId firmId membershipId =>
    ((guarded "firm:staff:invite" userId firmId (revokeFirmStaff firmId membershipId)).run s).2
  | .createClientCompany userId firmId dto companyId assignmentId =>
    ((guarded "firm:clients:manage" userId firmId (createClientCompany firmId userId dto companyId assignmentId)).run
      s).2
  | .inviteClientCompany userId firmId companyId id =>
    ((guarded "firm:clients:manage" userId firmId (inviteClientCompany firmId userId companyId id)).run s).2
  | .respondToClientInvitation userId invitationId accept now =>
    ((respondToClientInvitation userId invitationId accept now).run s).2
  | .removeClientCompany userId firmId companyId =>
    ((guarded "firm:clients:manage" userId firmId (removeClientCompany firmId companyId)).run s).2
  | .assignStaffToCompany userId firmId companyId membershipId permissionCodes id =>
    ((guarded "firm:clients:assign" userId firmId
      (assignStaffToCompany firmId userId companyId membershipId permissionCodes id)).run s).2
  | .revokeAssignment userId firmId assignmentId =>
    ((guarded "firm:clients:assign" userId firmId (revokeAssignment firmId assignmentId)).run s).2

/-- The ids of new firms, memberships and companies are not in use. -/
def Fresh (s : Store) : FirmRequest → Prop
  | .createFirm _ _ firmId membershipId _ =>
    firmId ∉ s.org.firms.map Firm.id ∧ membershipId ∉ s.org.firmMemberships.map FirmMembership.id
  | .inviteFirmStaff _ _ _ id _ => id ∉ s.org.firmMemberships.map FirmMembership.id
  | .createClientCompany _ _ _ companyId _ => companyId ∉ s.org.companies.map Company.id
  | _ => True

/-! ## What the schema guarantees, and what is asked of the guard -/

def memberKey (m : FirmMembership) : Uuid × Uuid := (m.userId,m.firmId)

/-- The unique and foreign keys that the operations rely on. -/
structure Consistent (s : Store) : Prop where
  companies : (s.org.companies.map Company.id).Nodup
  memberships : (s.org.firmMemberships.map FirmMembership.id).Nodup
  members : (s.org.firmMemberships.map memberKey).Nodup
  firms : ∀ m ∈ s.org.firmMemberships, m.firmId ∈ s.org.firms.map Firm.id

/-- The membership is active, and its firm manages the company. -/
def Manages (s : Store) (membershipId companyId : Uuid) : Prop :=
  ∃ m ∈ s.org.firmMemberships, m.id = membershipId ∧ m.status = .active ∧
    ∃ c ∈ s.org.companies, c.id = companyId ∧ c.firmId = some m.firmId

def AssignedByManagers (s : Store) : Prop :=
  ∀ a ∈ s.org.firmCompanyAssignments, a.status = .active → Manages s a.firmMembershipId a.companyId

/-- A step that keeps the keys, and the assignments within the managing firms. -/
structure Sound (s t : Store) : Prop where
  consistent : Consistent t
  assigned : AssignedByManagers s → AssignedByManagers t

section
variable {s t : Store}

theorem Sound.refl (hs : Consistent s) : Sound s s := ⟨hs,fun h => h⟩

/-- Memberships and companies that are still there still manage. -/
theorem Manages.mono {membershipId companyId : Uuid} (h : Manages s membershipId companyId)
    (hm : s.org.firmMemberships ⊆ t.org.firmMemberships) (hc : s.org.companies ⊆ t.org.companies) :
    Manages t membershipId companyId := by
  obtain ⟨m,hm',hid,hact,c,hc',hcid,hfirm⟩ := h
  exact ⟨m,hm hm',hid,hact,c,hc hc',hcid,hfirm⟩

/-- Only assignments change, and each active one was active before or is made by a manager. -/
theorem Sound.of_assignments (hs : Consistent s) (assignments : List FirmCompanyAssignment)
    (h : ∀ a ∈ assignments, a.status = .active → Manages s a.firmMembershipId a.companyId ∨
      ∃ b ∈ s.org.firmCompanyAssignments, b.status = .active ∧ b.firmMembershipId = a.firmMembershipId ∧
        b.companyId = a.companyId) : Sound s (Prisma.firmCompanyAssignment.set assignments s) := by
  refine ⟨⟨hs.companies,hs.memberships,hs.members,hs.firms⟩,fun hall a ha hact => ?_⟩
  rcases h a ha hact with hnew | ⟨b,hb,hbact,hbm,hbc⟩
  · exact hnew
  · have hold := hall b hb hbact
    rw [hbm,hbc] at hold
    exact hold

/-- Memberships change in columns that are not keys. -/
theorem Consistent.updateMembers (hs : Consistent s) (p : FirmMembership → Bool) {f : FirmMembership → FirmMembership}
    (hid : ∀ m, (f m).id = m.id) (hkey : ∀ m, memberKey (f m) = memberKey m) :
    Consistent (Prisma.firmMembership.set (Table.updateMany p f s.org.firmMemberships) s) := by
  refine ⟨hs.companies,Table.nodup_updateMany hid hs.memberships,Table.nodup_updateMany hkey hs.members,?_⟩
  intro m hm
  rcases Table.mem_updateMany_cases hm with ⟨hm,-⟩ | ⟨q,hq,-,rfl⟩
  · exact hs.firms m hm
  · have hfirm : (f q).firmId = q.firmId := congrArg Prod.snd (hkey q)
    rw [hfirm]
    exact hs.firms q hq

/-- One membership changes in columns that are not keys, and stays active if it was. -/
theorem Sound.of_membership (hs : Consistent s) (id : Uuid) {f : FirmMembership → FirmMembership}
    (hid : ∀ m, (f m).id = m.id) (hkey : ∀ m, memberKey (f m) = memberKey m)
    (hact : ∀ m ∈ s.org.firmMemberships, m.id = id → m.status = .active → (f m).status = .active) :
    Sound s (Prisma.firmMembership.set (Table.updateMany (fun m => m.id = id) f s.org.firmMemberships) s) := by
  refine ⟨hs.updateMembers _ hid hkey,?_⟩
  intro hall a ha hactive
  obtain ⟨m,hm,hmid,hmact,c,hc,hcid,hfirm⟩ := hall a ha hactive
  by_cases hx : m.id = id
  · refine ⟨f m,Table.mem_updateMany_image hm (by simpa using hx),(hid m).trans hmid,hact m hm hx hmact,c,hc,hcid,?_⟩
    have hsame : (f m).firmId = m.firmId := congrArg Prod.snd (hkey m)
    rw [hsame]
    exact hfirm
  · exact ⟨m,Table.mem_updateMany_of_mem hm (by simpa using hx),hmid,hmact,c,hc,hcid,hfirm⟩

/-- A membership of a user who had none in the firm. -/
theorem Sound.of_newMember (hs : Consistent s) {m : FirmMembership}
    (hid : m.id ∉ s.org.firmMemberships.map FirmMembership.id)
    (hkey : ∀ q ∈ s.org.firmMemberships, memberKey q ≠ memberKey m) (hfirm : m.firmId ∈ s.org.firms.map Firm.id) :
    Sound s (Prisma.firmMembership.set (s.org.firmMemberships ++ [m]) s) := by
  refine ⟨⟨hs.companies,?_,Table.nodup_append_fresh hs.members hkey,?_⟩,?_⟩
  · exact Table.nodup_append_fresh hs.memberships fun q hq he => hid (List.mem_map.mpr ⟨q,hq,he⟩)
  · intro q hq
    rcases List.mem_append.mp hq with hq | hq
    · exact hs.firms q hq
    · obtain rfl := List.mem_singleton.mp hq
      exact hfirm
  · intro hall a ha hact
    exact (hall a ha hact).mono (List.subset_append_left _ _) (List.Subset.refl _)

end

/-! ## The ten operations that are sound -/

section
variable {s : Store}

theorem sound_guarded {α : Type} {code : String} {userId firmId : Uuid} {handler : Request α} (hs : Consistent s)
    (h : ∀ m ∈ s.org.firmMemberships, m.userId = userId → m.firmId = firmId → m.status = .active →
      Sound s (handler.run s).2) : Sound s ((guarded code userId firmId handler).run s).2 := by
  apply Prog.ends_bind (FirmPermissionsGuard.run_canActivate_state code userId firmId s) (.refl hs)
  intro reply hreply
  obtain ⟨m,hm,huser,hfirm,hact⟩ := FirmPermissionsGuard.exists_member_of_canActivate hreply
  exact h m hm huser hfirm hact

theorem sound_createFirm (hs : Consistent s) {ownerId firmId membershipId : Uuid} {dto : CreateFirmDto}
    {now : DateTime} (hfirm : firmId ∉ s.org.firms.map Firm.id)
    (hmember : membershipId ∉ s.org.firmMemberships.map FirmMembership.id) :
    Sound s ((createFirm ownerId dto firmId membershipId now).run s).2 := by
  apply Prog.ends_bind_of_run (TableRef.run_findUnique _ _)
  apply ends_orThrow_bind (.refl hs)
  intro ownerRole _
  have hfirms : (s.org.firms ++ [firmRow dto firmId]).map Firm.id = s.org.firms.map Firm.id ++ [firmId] := by
    simp [firmRow]
  have hnew : Consistent (Prisma.firm.set (s.org.firms ++ [firmRow dto firmId]) s) := by
    refine ⟨hs.companies,hs.memberships,hs.members,fun m hm => ?_⟩
    change m.firmId ∈ (s.org.firms ++ [firmRow dto firmId]).map Firm.id
    rw [hfirms]
    exact List.mem_append_left _ (hs.firms m hm)
  have hkey : ∀ m ∈ s.org.firmMemberships, m.firmId ≠ firmId := fun m hm he => hfirm (he ▸ hs.firms m hm)
  have hmine : firmId ∈ (s.org.firms ++ [firmRow dto firmId]).map Firm.id := by
    rw [hfirms]
    exact List.mem_append_right _ (List.mem_singleton_self _)
  have hjoined := Sound.of_newMember (m := ownerMembership ownerId firmId ownerRole.id membershipId now) hnew
    hmember (fun q hq he => hkey q hq (congrArg Prod.snd he)) hmine
  exact ⟨hjoined.consistent,hjoined.assigned⟩

theorem sound_inviteFirmStaff {toLowerCase : String → String} (hs : Consistent s) {firmId inviterId id : Uuid}
    {dto : InviteFirmStaffDto} {now : DateTime} (hfirm : firmId ∈ s.org.firms.map Firm.id)
    (hmember : id ∉ s.org.firmMemberships.map FirmMembership.id) :
    Sound s ((inviteFirmStaff toLowerCase firmId inviterId dto id now).run s).2 := by
  apply Prog.ends_bind_of_run (TableRef.run_findUnique _ _)
  apply ends_orThrow_bind (.refl hs)
  intro invitee _
  apply Prog.ends_bind_of_run (TableRef.run_findUnique _ _)
  apply ends_orThrow_bind (.refl hs)
  intro firmRole _
  apply Prog.ends_bind_of_run (TableRef.run_findUnique _ _)
  cases hf : (Prisma.firmMembership.get s).find? (isMemberOf invitee.id firmId) with
  | some existing =>
    dsimp only
    split
    · exact .refl hs
    · rename_i hinactive
      rw [TableRef.run_update_state]
      refine .of_membership hs existing.id (fun _ => rfl) (fun _ => rfl) fun m hm hid hact => ?_
      have he := Table.eq_of_key hs.memberships hm (List.mem_of_find?_eq_some hf) hid
      exact absurd (he ▸ hact) hinactive
  | none =>
    have hnew : ∀ m ∈ s.org.firmMemberships, memberKey m ≠ (invitee.id,firmId) := by
      intro m hm he
      have hm' := List.find?_eq_none.mp hf m hm
      rw [memberKey,Prod.mk.injEq] at he
      simp [isMemberOf,he.1,he.2] at hm'
    exact .of_newMember hs hmember hnew hfirm

theorem sound_acceptFirmInvitation (hs : Consistent s) (userId membershipId : Uuid) (now : DateTime) :
    Sound s ((acceptFirmInvitation userId membershipId now).run s).2 := by
  apply Prog.ends_bind_of_run (TableRef.run_findFirst _ _)
  apply ends_orThrow_bind (.refl hs)
  intro invitation _
  rw [TableRef.run_update_state]
  exact .of_membership hs invitation.id (fun _ => rfl) (fun _ => rfl) fun _ _ _ _ => rfl

theorem run_assertNotLastOwner_state (firmId : Uuid) (membership : FirmMembership × Option FirmRole) (verb : String) :
    ((assertNotLastOwner firmId membership verb).run s).2 = s := by
  rw [assertNotLastOwner]
  split
  · rfl
  · apply Prog.ends_bind_of_run (Q := fun t => t = s) (TableRef.run_findUnique _ _)
    apply ends_orThrow_bind (Q := fun t => t = s) rfl
    intro ownerRole _
    apply Prog.ends_bind_of_run (Q := fun t => t = s) (TableRef.run_count _ _)
    split <;> rfl

theorem run_getFirmMembershipOrThrow_state (firmId membershipId : Uuid) :
    ((getFirmMembershipOrThrow firmId membershipId).run s).2 = s := by
  simp only [getFirmMembershipOrThrow,findMembershipWithRole,Prog.run_bind,Prog.run_query,Prog.resume_ok]
  cases s.org.firmMemberships.find? (fun m => m.id = membershipId) with
  | none => rfl
  | some m =>
    by_cases hm : m.firmId = firmId <;> simp [ownedBy,hm]

theorem sound_updateFirmStaffRole (hs : Consistent s) (firmId membershipId : Uuid)
    (firmRoleCode : AssignableFirmRoleCode) :
    Sound s ((updateFirmStaffRole firmId membershipId firmRoleCode).run s).2 := by
  apply Prog.ends_bind (run_getFirmMembershipOrThrow_state _ _) (.refl hs)
  intro membership _
  apply Prog.ends_bind (run_assertNotLastOwner_state _ _ _) (.refl hs)
  intro _ _
  apply Prog.ends_bind_of_run (TableRef.run_findUnique _ _)
  apply ends_orThrow_bind (.refl hs)
  intro firmRole _
  rw [TableRef.run_update_state]
  exact .of_membership hs membershipId (fun _ => rfl) (fun _ => rfl) fun _ _ _ hact => hact

/-- The store in which a membership and its active assignments are revoked. -/
def revoked (membershipId : Uuid) (s : Store) : Store :=
  { s with
    org.firmCompanyAssignments :=
      Table.updateMany (isActiveOf membershipId) revokeAssigned s.org.firmCompanyAssignments
    org.firmMemberships := Table.updateMany (fun m => m.id = membershipId) revokeMember s.org.firmMemberships }

theorem run_revocation (membershipId : Uuid) (s : Store) :
    (Prisma.firmCompanyAssignment.updateMany (isActiveOf membershipId) revokeAssigned >>= fun _ =>
      Prisma.firmMembership.update (fun m => m.id = membershipId) revokeMember).run s =
    (TableRef.updateReply (fun m => m.id = membershipId) revokeMember s.org.firmMemberships,revoked membershipId s) := by
  rw [Prog.run_bind,TableRef.run_updateMany,Prog.resume_ok,TableRef.run_update]
  rfl

theorem sound_revokeFirmStaff (hs : Consistent s) (firmId membershipId : Uuid) :
    Sound s ((revokeFirmStaff firmId membershipId).run s).2 := by
  apply Prog.ends_bind (run_getFirmMembershipOrThrow_state _ _) (.refl hs)
  intro membership _
  apply Prog.ends_bind (run_assertNotLastOwner_state _ _ _) (.refl hs)
  intro _ _
  apply ends_transaction (.refl hs)
  rw [run_revocation]
  have hrevoked := hs.updateMembers (f := revokeMember) (fun m => m.id = membershipId) (fun _ => rfl) fun _ => rfl
  refine ⟨⟨hrevoked.companies,hrevoked.memberships,hrevoked.members,hrevoked.firms⟩,?_⟩
  · intro hall a ha hact
    rcases Table.mem_updateMany_cases ha with ⟨ha,hother⟩ | ⟨q,-,-,rfl⟩
    · have hne : a.firmMembershipId ≠ membershipId := by
        intro he
        simp [isActiveOf,he,hact] at hother
      obtain ⟨m,hm,hid,hrest⟩ := hall a ha hact
      exact ⟨m,Table.mem_updateMany_of_mem hm (by simpa [hid] using hne),hid,hrest⟩
    · cases hact

/-- Onboarding: the actor whom the guard admitted is the active member that is assigned. -/
theorem sound_createClientCompany (hs : Consistent s) {firmId actorId companyId assignmentId : Uuid}
    {dto : CreateCompanyDto} (hactor : ∃ m ∈ s.org.firmMemberships,
      m.userId = actorId ∧ m.firmId = firmId ∧ m.status = .active)
    (hcompany : companyId ∉ s.org.companies.map Company.id) :
    Sound s ((createClientCompany firmId actorId dto companyId assignmentId).run s).2 := by
  apply Prog.ends_bind_of_run (TableRef.run_findUnique _ _)
  apply ends_orThrow_bind (.refl hs)
  intro firm _
  apply Prog.ends_bind_of_run (TableRef.run_findUnique _ _)
  cases (Prisma.company.get s).find? (fun c => c.tin = dto.tin) with
  | some _ => exact .refl hs
  | none =>
    apply Prog.ends_bind_of_run (TableRef.run_findUnique _ _)
    apply ends_orThrow_bind (.refl hs)
    intro membership hmembership
    apply Prog.ends_bind_of_run (TableRef.run_findMany _ _)
    obtain ⟨m,hm,huser,hfirm,hact⟩ := hactor
    have hkey := List.find?_some hmembership
    simp only [isMemberOf,Bool.and_eq_true,decide_eq_true_eq] at hkey
    have hsame : membership = m := by
      refine Table.eq_of_key hs.members (List.mem_of_find?_eq_some hmembership) hm ?_
      simp [memberKey,hkey.1,hkey.2,huser,hfirm]
    subst hsame
    change Sound s { s with
      org.companies := s.org.companies ++ [companyRow firmId dto companyId]
      org.firmCompanyAssignments := s.org.firmCompanyAssignments ++ [assignmentRow membership.id companyId actorId
        ((s.identity.permissions.filter fun _ => true).map Permission.id) assignmentId]
      published := s.published ++ [.companyCreatedEmitted companyId] ++ [.companyCreated companyId dto.tin] }
    refine ⟨⟨?_,hs.memberships,hs.members,hs.firms⟩,?_⟩
    · exact Table.nodup_append_fresh hs.companies fun q hq he => hcompany (List.mem_map.mpr ⟨q,hq,he⟩)
    · intro hall a ha hactive
      rcases List.mem_append.mp ha with ha | ha
      · exact (hall a ha hactive).mono (List.Subset.refl _) (List.subset_append_left _ _)
      · obtain rfl := List.mem_singleton.mp ha
        refine ⟨membership,hm,rfl,hact,companyRow firmId dto companyId,?_,rfl,?_⟩
        · exact List.mem_append_right _ (List.mem_singleton.mpr rfl)
        · exact congrArg some hfirm.symm

theorem sound_inviteClientCompany (hs : Consistent s) (firmId inviterId companyId id : Uuid) :
    Sound s ((inviteClientCompany firmId inviterId companyId id).run s).2 := by
  apply Prog.ends_bind_of_run (TableRef.run_findUnique _ _)
  apply ends_orThrow_bind (.refl hs)
  intro firm _
  apply Prog.ends_bind_of_run (TableRef.run_findUnique _ _)
  apply ends_orThrow_bind (.refl hs)
  intro company _
  split
  · exact .refl hs
  · apply Prog.ends_bind_of_run (TableRef.run_findFirst _ _)
    cases (Prisma.firmClientInvitation.get s).find? (isPendingInvitation firmId companyId) with
    | some _ => exact .refl hs
    | none => exact ⟨⟨hs.companies,hs.memberships,hs.members,hs.firms⟩,fun hall => hall⟩

theorem run_assertCompanyBelongsToFirm_state (firmId companyId : Uuid) :
    ((assertCompanyBelongsToFirm firmId companyId).run s).2 = s := by
  apply Prog.ends_bind_of_run (Q := fun t => t = s) (TableRef.run_findUnique _ _)
  exact ends_orThrow_bind (Q := fun t => t = s) rfl fun _ _ => rfl

theorem exists_client {firmId companyId : Uuid}
    (h : ((assertCompanyBelongsToFirm firmId companyId).run s).1 = .ok ()) :
    ∃ c ∈ s.org.companies, c.id = companyId ∧ c.firmId = some firmId := by
  simp only [assertCompanyBelongsToFirm,Prog.run_bind,TableRef.run_findUnique,Prog.resume_ok] at h
  cases hf : ((Prisma.company.get s).find? (fun c => c.id = companyId)).filter (fun c => c.firmId == some firmId) with
  | none => simp [hf] at h
  | some c =>
    obtain ⟨hfind,hfirm⟩ := Option.filter_eq_some_iff.mp hf
    obtain ⟨hc,hid⟩ := Table.find?_key_some hfind
    exact ⟨c,hc,hid,by simpa using hfirm⟩

/-- Letting a client go: all active assignments on it are of the firm, and are revoked. -/
theorem sound_removeClientCompany (hs : Consistent s) (firmId companyId : Uuid) :
    Sound s ((removeClientCompany firmId companyId).run s).2 := by
  apply Prog.ends_bind (run_assertCompanyBelongsToFirm_state _ _) (.refl hs)
  intro _ hclient
  obtain ⟨client,hclient,hcid,hcfirm⟩ := exists_client hclient
  apply ends_transaction (.refl hs)
  rw [Prog.run_bind,revokeAssignmentsOfFirm,Prog.run_stmt,Prog.run_done,Prog.resume_ok,TableRef.run_update_state]
  refine ⟨⟨?_,hs.memberships,hs.members,hs.firms⟩,?_⟩
  · exact Table.nodup_updateMany (fun _ => rfl) hs.companies
  · intro hall a ha hact
    rcases Table.mem_updateMany_cases ha with ⟨ha,hother⟩ | ⟨q,-,-,rfl⟩
    · obtain ⟨m,hm,hid,hmact,c,hc,hcompany,hfirm⟩ := hall a ha hact
      have hne : c.id ≠ companyId := by
        intro he
        have hsame : c = client := Table.eq_of_key hs.companies hc hclient (he.trans hcid.symm)
        have hmfirm : m.firmId = firmId := by
          rw [hsame,hcfirm] at hfirm
          exact (Option.some.inj hfirm).symm
        have hfind := Table.find?_of_mem hs.memberships hm
        rw [hid] at hfind
        simp [isActiveOfFirm,← hcompany,he,hact,hfind,hmfirm] at hother
      exact ⟨m,hm,hid,hmact,c,Table.mem_updateMany_of_mem hc (by simpa using hne),hcompany,hfirm⟩
    · cases hact

theorem sound_revokeAssignment (hs : Consistent s) (firmId assignmentId : Uuid) :
    Sound s ((revokeAssignment firmId assignmentId).run s).2 := by
  apply Prog.ends_bind_of_run rfl
  apply ends_orThrow_bind (.refl hs)
  intro _ _
  rw [TableRef.run_update_state]
  refine .of_assignments hs _ fun a ha hact => ?_
  rcases Table.mem_updateMany_cases ha with ⟨ha,-⟩ | ⟨q,-,-,rfl⟩
  · exact .inr ⟨a,ha,hact,rfl,rfl⟩
  · cases hact

/-- The unique pair of an assignment. -/
def pairOf (a : FirmCompanyAssignment) : Uuid × Uuid := (a.firmMembershipId,a.companyId)

theorem isAssignmentOf_iff {membershipId companyId : Uuid} {a : FirmCompanyAssignment} :
    isAssignmentOf membershipId companyId a = true ↔ pairOf a = (membershipId,companyId) := by
  simp [isAssignmentOf,pairOf]

/-- An upsert puts an active assignment of the pair. -/
theorem run_upsertAssignment (membershipId companyId actorId id : Uuid) :
    ∃ assignment assignments,
      (upsertAssignment membershipId companyId actorId id).run s =
        (.ok assignment,Prisma.firmCompanyAssignment.set assignments s) ∧
      pairOf assignment = (membershipId,companyId) ∧ assignment.status = .active ∧
      Table.Puts pairOf s.org.firmCompanyAssignments assignments assignment := by
  rw [upsertAssignment,Prog.run_stmt]
  cases hf : s.org.firmCompanyAssignments.find? (isAssignmentOf membershipId companyId) with
  | some found =>
    have hpair := List.find?_some hf
    have hfound := Table.mem_updateMany_image (f := reassign actorId) (List.mem_of_find?_eq_some hf) hpair
    rw [isAssignmentOf_iff] at hpair
    refine ⟨_,_,rfl,hpair,rfl,hfound,fun a ha => ?_⟩
    have hne : pairOf a ≠ (membershipId,companyId) := hpair ▸ ha
    constructor
    · intro hmem
      rcases Table.mem_updateMany_cases hmem with ⟨hmem,-⟩ | ⟨q,-,hq,rfl⟩
      · exact hmem
      · exact absurd (isAssignmentOf_iff.mp hq) hne
    · intro hmem
      exact Table.mem_updateMany_of_mem hmem (by simpa using mt isAssignmentOf_iff.mp hne)
  | none => exact ⟨_,_,rfl,rfl,rfl,.append _ _ _⟩

/-- What an assignment refers to, and whether it is in force. -/
def reference (a : FirmCompanyAssignment) : Uuid × Uuid × FirmCompanyAssignmentStatus :=
  (a.firmMembershipId,a.companyId,a.status)

theorem exists_reference {p : FirmCompanyAssignment → Bool} {f : FirmCompanyAssignment → FirmCompanyAssignment}
    (hf : ∀ a, reference (f a) = reference a) {assignments : List FirmCompanyAssignment}
    {a : FirmCompanyAssignment} (ha : a ∈ Table.updateMany p f assignments) :
    ∃ b ∈ assignments, reference b = reference a := by
  rcases Table.mem_updateMany_cases ha with ⟨ha,-⟩ | ⟨q,hq,-,rfl⟩
  · exact ⟨a,ha,rfl⟩
  · exact ⟨q,hq,(hf q).symm⟩

theorem sound_assignStaffToCompany (hs : Consistent s) (firmId actorId companyId membershipId : Uuid)
    (permissionCodes : List String) (id : Uuid) :
    Sound s ((assignStaffToCompany firmId actorId companyId membershipId permissionCodes id).run s).2 := by
  apply Prog.ends_bind (run_assertCompanyBelongsToFirm_state _ _) (.refl hs)
  intro _ hclient
  obtain ⟨c,hc,hcid,hcfirm⟩ := exists_client hclient
  apply Prog.ends_bind_of_run (TableRef.run_findUnique _ _)
  apply ends_orThrow_bind (.refl hs)
  intro m hmember
  obtain ⟨hfind,hm⟩ := Option.filter_eq_some_iff.mp hmember
  obtain ⟨hmem,hmid⟩ := Table.find?_key_some hfind
  simp only [Bool.and_eq_true,decide_eq_true_eq] at hm
  have hmanages : Manages s membershipId companyId :=
    ⟨m,hmem,hmid,hm.2,c,hc,hcid,by rw [hcfirm,hm.1]⟩
  apply Prog.ends_bind_of_run (TableRef.run_findMany _ _)
  split
  · exact .refl hs
  · apply ends_transaction (.refl hs)
    obtain ⟨assignment,assignments,hrun,hpair,-,hputs⟩ :=
      run_upsertAssignment (s := s) membershipId companyId actorId id
    rw [Prog.run_bind,hrun,Prog.resume_ok,Prog.run_bind,TableRef.run_updateMany,Prog.resume_ok,Prog.run_bind,
      TableRef.run_updateMany,Prog.resume_ok]
    apply Prog.ends_bind_of_run rfl
    apply ends_orThrow
    refine .of_assignments hs _ fun a ha hact => ?_
    obtain ⟨b,hb,hba⟩ := exists_reference (f := addPermissions _) (fun _ => rfl) ha
    obtain ⟨d,hd,hdb⟩ := exists_reference (f := setPermissions _) (fun _ => rfl) hb
    have hda : reference d = reference a := hdb.trans hba
    simp only [reference,Prod.mk.injEq] at hda
    by_cases hd' : pairOf d = (membershipId,companyId)
    · left
      rw [pairOf,hda.1,hda.2.1,Prod.mk.injEq] at hd'
      rw [hd'.1,hd'.2]
      exact hmanages
    · right
      have hd := (hputs.others d (by rwa [hpair])).mp hd
      exact ⟨d,hd,hda.2.2.trans hact,hda.1,hda.2.1⟩

end

end PinoyTax.Firm
