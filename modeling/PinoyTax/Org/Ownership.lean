import PinoyTax.Firm.Owners
import PinoyTax.Foundation.Runs
import PinoyTax.Identity.PermissionsGuard
import PinoyTax.Org.Service

/-! # Companies that somebody can grant access to

A company is recoverable while somebody holds its owner's role or a firm manages it,
since a firm always has its owner. A registration gives the role, an onboarding gives the
firm, and only the removal of a client takes one of the two away.
-/
namespace PinoyTax.Org
open PinoyTax Foundation Runs

/-- `@UseGuards(PermissionsGuard) @RequirePermissions(code)`. -/
def guarded {α : Type} (code : String) (userId companyId : Uuid) (handler : Request α) : Request α := do
  let _ ← Identity.canActivate (some [code]) (some userId) (some companyId)
  handler

inductive CompanyRequest
  | createCompany (userId : Uuid) (dto : Firm.CreateCompanyDto) (newCompanyId userCompanyRoleId : Uuid) (now : DateTime)
  | inviteStaff (userId companyId : Uuid) (dto : InviteStaffDto) (id : Uuid)
  | acceptInvitation (userId userCompanyRoleId : Uuid) (now : DateTime)
  | revokeStaff (userId companyId userCompanyRoleId : Uuid)
  | firm (req : Firm.FirmRequest)

/-- The statements of a request, its guard included. -/
def program (toLowerCase : String → String) : CompanyRequest → Request Unit
  | .createCompany userId dto companyId userCompanyRoleId now =>
    (createCompany userId dto companyId userCompanyRoleId now).discard
  | .inviteStaff userId companyId dto id =>
    (guarded "staff:invite" userId companyId (inviteStaff toLowerCase companyId userId dto id)).discard
  | .acceptInvitation userId userCompanyRoleId now => (acceptInvitation userId userCompanyRoleId now).discard
  | .revokeStaff userId companyId userCompanyRoleId =>
    (guarded "staff:invite" userId companyId (revokeStaff companyId userCompanyRoleId)).discard
  | .firm req => Firm.program toLowerCase req

/-- The store after a request. -/
def next (toLowerCase : String → String) (s : Store) (req : CompanyRequest) : Store :=
  ((program toLowerCase req).run s).2

/-- An active `business_owner` role on the company. -/
def HasOwner (s : Store) (companyId : Uuid) : Prop :=
  ∃ r ∈ s.org.userCompanyRoles, r.companyId = companyId ∧ r.status = .active ∧
    (s.identity.roles.find? (fun q => q.id = r.roleId)).any (fun q => q.code == "business_owner") = true

/-- A firm that manages the company has an active owner. -/
def HasFirmOwner (s : Store) (c : Company) : Prop :=
  ∃ firmId, c.firmId = some firmId ∧ ∃ m ∈ s.org.firmMemberships, Firm.isActiveOwner s firmId m = true

def NoOrphans (s : Store) : Prop := ∀ c ∈ s.org.companies, HasOwner s c.id ∨ HasFirmOwner s c

/-- A removal that goes through: the guard admits the user, and the firm manages the company. -/
def Removes (s : Store) (userId firmId companyId : Uuid) : Prop :=
  (∃ reply, ((Identity.FirmPermissionsGuard.canActivate (some ["firm:clients:manage"]) (some userId)
    (some firmId)).run s).1 = .ok reply) ∧ ∃ c ∈ s.org.companies, c.id = companyId ∧ c.firmId = some firmId

/-- A firm lets a client go that nobody holds the owner's role on. -/
def Orphans (s : Store) : CompanyRequest → Prop
  | .firm (.removeClientCompany userId firmId companyId) =>
    Removes s userId firmId companyId ∧ ¬ HasOwner s companyId
  | _ => False

/-- The unique and foreign keys of companies, their roles and the firms. -/
structure CompanyKeys (s : Store) : Prop extends Firm.FirmKeys s where
  companyFirms : ∀ c ∈ s.org.companies, ∀ firmId ∈ c.firmId, firmId ∈ s.org.firms.map Firm.id
  roleIds : (s.identity.roles.map Role.id).Nodup
  userCompanyRoleIds : (s.org.userCompanyRoles.map UserCompanyRole.id).Nodup

/-- The database accepts each statement of the request. -/
def Accepted (toLowerCase : String → String) (s : Store) (req : CompanyRequest) : Prop :=
  Prog.Within CompanyKeys (program toLowerCase req) s

/-! ## What keeps a company recoverable -/

/-- What a step may not take away: the owners, and the firms of the companies. -/
def Recoverable (s : Store) : Prop := ∀ c ∈ s.org.companies, HasOwner s c.id ∨ c.firmId.isSome = true

section
variable {creator : Uuid → Uuid} {s t : Store}

/-- Since a firm always has its owner, a firm is as good as a firm with an owner. -/
theorem noOrphans_iff (hs : Firm.Owned creator s) (hk : CompanyKeys s) : NoOrphans s ↔ Recoverable s := by
  have hfirm : ∀ c ∈ s.org.companies, HasFirmOwner s c ↔ c.firmId.isSome = true := by
    intro c hc
    constructor
    · rintro ⟨firmId,hfirm,-⟩
      simp [hfirm]
    · intro hsome
      obtain ⟨firmId,hfirm⟩ := Option.isSome_iff_exists.mp hsome
      obtain ⟨f,hf,rfl⟩ := List.mem_map.mp (hk.companyFirms c hc firmId hfirm)
      obtain ⟨m,hm,hmf,howner⟩ := hs.owned f hf
      have hact := (hs.owners m hm howner).1
      exact ⟨f.id,hfirm,m,hm,by simp [Firm.isActiveOwner,hmf,hact,howner]⟩
  constructor
  · intro h c hc
    exact (h c hc).imp_right (hfirm c hc).mp
  · intro h c hc
    exact (h c hc).imp_right (hfirm c hc).mpr

/-- The companies, their roles and the role catalogue. -/
def companyView (s : Store) : List Company × List UserCompanyRole × List Role :=
  (s.org.companies,s.org.userCompanyRoles,s.identity.roles)

theorem hasOwner_mono {companyId : Uuid} (hrows : s.org.userCompanyRoles ⊆ t.org.userCompanyRoles)
    (hroles : t.identity.roles = s.identity.roles) (h : HasOwner s companyId) : HasOwner t companyId := by
  obtain ⟨r,hr,hc,hact,hcode⟩ := h
  exact ⟨r,hrows hr,hc,hact,by rwa [hroles]⟩

theorem Recoverable.of_view (hs : Recoverable s) (h : companyView t = companyView s) : Recoverable t := by
  simp only [companyView,Prod.mk.injEq] at h
  obtain ⟨hcompanies,hrows,hroles⟩ := h
  intro c hc
  rw [hcompanies] at hc
  exact (hs c hc).imp_left (hasOwner_mono (by rw [hrows]; exact List.Subset.refl _) hroles)

theorem Recoverable.of_keeps {α : Type} {p : Request α} (hs : Recoverable s) (h : p.Keeps companyView) :
    Recoverable (p.run s).2 := hs.of_view (h.run s)

/-- New roles, and companies that come with an owner or a firm. -/
theorem Recoverable.grow (hs : Recoverable s) (hroles : t.identity.roles = s.identity.roles)
    (hrows : s.org.userCompanyRoles ⊆ t.org.userCompanyRoles)
    (hcompanies : ∀ c ∈ t.org.companies, c ∈ s.org.companies ∨ HasOwner t c.id ∨ c.firmId.isSome = true) :
    Recoverable t := by
  intro c hc
  rcases hcompanies c hc with hold | hnew
  · exact (hs c hold).imp_left (hasOwner_mono hrows hroles)
  · exact hnew

/-- Changing one role that is not an active owner's. -/
theorem Recoverable.update (hs : Recoverable s) (hk : CompanyKeys s) {r : UserCompanyRole}
    (hr : r ∈ s.org.userCompanyRoles) {f : UserCompanyRole → UserCompanyRole}
    (hno : r.status = .active → (s.identity.roles.find? (fun q => q.id = r.roleId)).any
      (fun q => q.code == "business_owner") = false) :
    Recoverable (Prisma.userCompanyRole.set (Table.updateMany (fun q => q.id = r.id) f s.org.userCompanyRoles) s) := by
  intro c hc
  refine (hs c hc).imp_left ?_
  rintro ⟨q,hq,hqc,hact,hcode⟩
  have hne : q.id ≠ r.id := by
    intro he
    obtain rfl := Table.eq_of_key hk.userCompanyRoleIds hq hr he
    rw [hno hact] at hcode
    cases hcode
  exact ⟨q,Table.mem_updateMany_of_mem hq (by simpa using hne),hqc,hact,hcode⟩

/-! ## The requests -/

theorem run_canActivate_state (code : String) (userId companyId : Uuid) (s : Store) :
    ((Identity.canActivate (some [code]) (some userId) (some companyId)).run s).2 = s := by
  simp only [Identity.canActivate,Option.getD_some,Identity.findUserCompanyRole,Identity.findFirmCompanyAssignment,
    Prog.run_bind,Prog.run_query,Prog.resume_ok]
  split
  · rfl
  · split <;> rfl

theorem ends_guarded {α : Type} {Q : Store → Prop} {code : String} {userId companyId : Uuid} {handler : Request α}
    (hs : Q s) (h : Q (handler.run s).2) : Q ((guarded code userId companyId handler).run s).2 :=
  Prog.ends_bind (run_canActivate_state code userId companyId s) hs fun _ _ => h

theorem recoverable_createCompany (hs : Recoverable s) (hk : CompanyKeys s) (userId : Uuid) (dto : Firm.CreateCompanyDto)
    (companyId userCompanyRoleId : Uuid) (now : DateTime) :
    Recoverable ((createCompany userId dto companyId userCompanyRoleId now).run s).2 := by
  apply Prog.ends_bind_of_run (TableRef.run_findUnique _ _)
  cases (Prisma.company.get s).find? (fun c => c.tin = dto.tin) with
  | some _ => exact hs
  | none =>
    apply Prog.ends_bind_of_run (TableRef.run_findUnique _ _)
    apply ends_orThrow_bind hs
    intro ownerRole hfound
    obtain ⟨hmem,hcode⟩ := Table.find?_key_some hfound
    have hfind : s.identity.roles.find? (fun q => q.id = ownerRole.id) = some ownerRole :=
      Table.find?_of_mem hk.roleIds hmem
    refine hs.grow rfl (List.subset_append_left _ _) fun c hc => ?_
    rcases List.mem_append.mp hc with hc | hc
    · exact .inl hc
    · obtain rfl := List.mem_singleton.mp hc
      refine .inr (.inl ⟨ownerRow userId companyId ownerRole.id userCompanyRoleId now,?_,rfl,rfl,?_⟩)
      · exact List.mem_append_right _ (List.mem_singleton_self _)
      · change (s.identity.roles.find? (fun q => q.id = ownerRole.id)).any _ = true
        rw [hfind]
        simpa using hcode

theorem recoverable_inviteStaff (hs : Recoverable s) (toLowerCase : String → String) (companyId inviterId : Uuid)
    (dto : InviteStaffDto) (id : Uuid) :
    Recoverable ((inviteStaff toLowerCase companyId inviterId dto id).run s).2 := by
  apply Prog.ends_bind_of_run (TableRef.run_findUnique _ _)
  apply ends_orThrow_bind hs
  intro invitee _
  apply Prog.ends_bind_of_run (TableRef.run_findUnique _ _)
  apply ends_orThrow_bind hs
  intro role _
  apply Prog.ends_bind_of_run (TableRef.run_findFirst _ _)
  cases (Prisma.userCompanyRole.get s).find? (isRoleOf invitee.id companyId role.id) with
  | some _ => exact hs
  | none => exact hs.grow rfl (List.subset_append_left _ _) fun c hc => .inl hc

theorem recoverable_acceptInvitation (hs : Recoverable s) (hk : CompanyKeys s) (userId userCompanyRoleId : Uuid)
    (now : DateTime) : Recoverable ((acceptInvitation userId userCompanyRoleId now).run s).2 := by
  apply Prog.ends_bind_of_run (TableRef.run_findFirst _ _)
  apply ends_orThrow_bind hs
  intro invitation hfound
  have hpending := List.find?_some hfound
  simp only [isPendingOf,Bool.and_eq_true,decide_eq_true_eq] at hpending
  rw [TableRef.run_update_state]
  refine hs.update hk (List.mem_of_find?_eq_some hfound) fun hact => ?_
  rw [hpending.2] at hact
  cases hact

/-- A revocation checks that the role is not an owner's. -/
theorem recoverable_revokeStaff (hs : Recoverable s) (hk : CompanyKeys s) (companyId userCompanyRoleId : Uuid) :
    Recoverable ((revokeStaff companyId userCompanyRoleId).run s).2 := by
  apply Prog.ends_bind_of_run (Prog.run_query _ _ _)
  cases hfound : s.org.userCompanyRoles.find? (fun r => r.id = userCompanyRoleId) with
  | none => exact hs
  | some r =>
    obtain ⟨hr,rfl⟩ := Table.find?_key_some hfound
    simp only [Option.map_some,ownedBy]
    split
    · rw [Prog.done_ok_bind]
      split
      · exact hs
      · rename_i hcode
        rw [TableRef.run_update_state]
        refine hs.update hk hr fun _ => ?_
        cases hrole : s.identity.roles.find? (fun q => q.id = r.roleId) with
        | none => rfl
        | some role =>
          rw [hrole] at hcode
          simpa using hcode
    · exact hs

theorem recoverable_createClientCompany (hs : Recoverable s) (firmId actorId : Uuid) (dto : Firm.CreateCompanyDto)
    (companyId assignmentId : Uuid) :
    Recoverable ((Firm.createClientCompany firmId actorId dto companyId assignmentId).run s).2 := by
  apply Prog.ends_bind_of_run (TableRef.run_findUnique _ _)
  apply ends_orThrow_bind hs
  intro firm _
  apply Prog.ends_bind_of_run (TableRef.run_findUnique _ _)
  cases (Prisma.company.get s).find? (fun c => c.tin = dto.tin) with
  | some _ => exact hs
  | none =>
    apply Prog.ends_bind_of_run (TableRef.run_findUnique _ _)
    apply ends_orThrow_bind hs
    intro membership _
    apply Prog.ends_bind_of_run (TableRef.run_findMany _ _)
    refine hs.grow rfl (List.Subset.refl _) fun c hc => ?_
    change c ∈ s.org.companies ++ [Firm.companyRow firmId dto companyId] at hc
    rcases List.mem_append.mp hc with hc | hc
    · exact .inl hc
    · obtain rfl := List.mem_singleton.mp hc
      exact .inr (.inr rfl)

/-- An accepted invitation gives the company a firm. -/
theorem recoverable_respondToClientInvitation (hs : Recoverable s) (userId invitationId : Uuid) (accept : Bool)
    (now : DateTime) : Recoverable ((Firm.respondToClientInvitation userId invitationId accept now).run s).2 := by
  apply Prog.ends_bind_of_run (TableRef.run_findUnique _ _)
  apply ends_orThrow_bind hs
  intro invitation _
  apply Prog.ends_bind_of_run (Prog.run_query _ _ _)
  apply ends_orThrow_bind hs
  intro owner _
  split
  · have hengaged : Recoverable (Prisma.company.set (Table.updateMany (fun c => c.id = invitation.companyId)
        (Firm.setFirm (some invitation.firmId)) s.org.companies) s) := by
      refine hs.grow rfl (List.Subset.refl _) fun c hc => ?_
      rcases Table.mem_updateMany_cases hc with ⟨hc,-⟩ | ⟨q,-,-,rfl⟩
      · exact .inl hc
      · exact .inr (.inr rfl)
    apply ends_transaction hs
    rw [Prog.run_bind,TableRef.run_update]
    cases TableRef.updateReply (fun c : Company => c.id = invitation.companyId) (Firm.setFirm (some invitation.firmId))
      (Prisma.company.get s) with
    | error e => exact hengaged
    | ok company =>
      rw [Prog.resume_ok,TableRef.run_update_state]
      exact hengaged.of_view rfl
  · rw [TableRef.run_update_state]
    exact hs.of_view rfl

/-! ## Letting a client go -/

theorem view_removed {userId firmId companyId : Uuid} (hk : CompanyKeys s) (h : Removes s userId firmId companyId) :
    companyView ((Firm.guarded "firm:clients:manage" userId firmId (Firm.removeClientCompany firmId companyId)).run s).2 =
      (Table.updateMany (fun c => c.id = companyId) (Firm.setFirm none) s.org.companies,s.org.userCompanyRoles,
        s.identity.roles) := by
  obtain ⟨⟨reply,hreply⟩,c,hc,rfl,hfirm⟩ := h
  have hguard : (Identity.FirmPermissionsGuard.canActivate (some ["firm:clients:manage"]) (some userId)
      (some firmId)).run s = (.ok reply,s) :=
    Prod.ext hreply (Identity.FirmPermissionsGuard.run_canActivate_state _ _ _ s)
  have hfind : (Prisma.company.get s).find? (fun q => q.id = c.id) = some c := Table.find?_of_mem hk.companies hc
  have hmine : (some c).filter (fun q => q.firmId == some firmId) = some c := by simp [Option.filter_some,hfirm]
  have hclient : (Firm.assertCompanyBelongsToFirm firmId c.id).run s = (.ok (),s) := by
    rw [Firm.assertCompanyBelongsToFirm,Prog.run_bind,TableRef.run_findUnique,Prog.resume_ok,hfind,hmine]
    rfl
  have hupdate (rows : List FirmCompanyAssignment) :
      (Prisma.company.get (Prisma.firmCompanyAssignment.set rows s)).find? (fun q => q.id = c.id) = some c := hfind
  rw [Firm.guarded,Prog.run_bind,hguard,Prog.resume_ok,Firm.removeClientCompany,Prog.run_bind,hclient,Prog.resume_ok,
    run_transaction,Prog.run_bind,Firm.revokeAssignmentsOfFirm,Prog.run_stmt,Prog.run_done,Prog.resume_ok,
    TableRef.run_update_of_find (hupdate _)]
  rfl

theorem view_not_removed {userId firmId companyId : Uuid} (h : ¬ Removes s userId firmId companyId) :
    ((Firm.guarded "firm:clients:manage" userId firmId (Firm.removeClientCompany firmId companyId)).run s).2 = s := by
  apply Prog.ends_bind (Q := fun t => t = s) (Identity.FirmPermissionsGuard.run_canActivate_state _ _ _ s) rfl
  intro reply hreply
  apply Prog.ends_bind (Q := fun t => t = s) (Firm.run_assertCompanyBelongsToFirm_state _ _) rfl
  intro _ hclient
  exact absurd ⟨⟨reply,hreply⟩,Firm.exists_client hclient⟩ h

theorem recoverable_removed_iff (hs : Recoverable s) (hk : CompanyKeys s) (userId firmId companyId : Uuid) :
    Recoverable ((Firm.guarded "firm:clients:manage" userId firmId (Firm.removeClientCompany firmId companyId)).run s).2 ↔
      ¬ Orphans s (.firm (.removeClientCompany userId firmId companyId)) := by
  by_cases h : Removes s userId firmId companyId
  · have hview := view_removed hk h
    generalize ((Firm.guarded "firm:clients:manage" userId firmId (Firm.removeClientCompany firmId companyId)).run s).2 =
      t at hview ⊢
    simp only [companyView,Prod.mk.injEq] at hview
    obtain ⟨hcompanies,hrows,hroles⟩ := hview
    have howner : ∀ id, HasOwner t id ↔ HasOwner s id := by
      intro id
      simp only [HasOwner,hrows,hroles]
    have horphans : Orphans s (.firm (.removeClientCompany userId firmId companyId)) ↔ ¬ HasOwner s companyId := by
      simp only [Orphans,h,true_and]
    rw [horphans,not_not]
    constructor
    · intro ht
      obtain ⟨-,c,hc,rfl,-⟩ := h
      have hmem : Firm.setFirm none c ∈ t.org.companies := by
        rw [hcompanies]
        exact Table.mem_updateMany_image hc (by simp)
      rcases ht _ hmem with ho | hfirm
      · exact (howner _).mp ho
      · cases hfirm
    · intro ho c hc
      rw [hcompanies] at hc
      rcases Table.mem_updateMany_cases hc with ⟨hc,-⟩ | ⟨q,-,hq,rfl⟩
      · exact (hs c hc).imp_left (howner _).mpr
      · left
        rw [howner]
        have hid : q.id = companyId := by simpa using hq
        exact hid ▸ ho
  · rw [view_not_removed h]
    exact iff_of_true hs fun ho => h ho.1

/-! ## Runs -/

/-- What a request of a firm does to the companies. -/
theorem recoverable_firm_iff (toLowerCase : String → String) (hs : Recoverable s) (hk : CompanyKeys s)
    (req : Firm.FirmRequest) : Recoverable (next toLowerCase s (.firm req)) ↔ ¬ Orphans s (.firm req) := by
  have hkeeps {p : Request Unit} (h : p.Keeps companyView) (hno : ¬ Orphans s (.firm req)) :
      Recoverable (p.run s).2 ↔ ¬ Orphans s (.firm req) := iff_of_true (hs.of_keeps h) hno
  cases req with
  | createFirm userId dto firmId membershipId now =>
    exact hkeeps (Firm.keeps_discard (Firm.keeps_createFirm (fun _ _ => rfl) fun _ _ => rfl)) not_false
  | inviteFirmStaff userId firmId dto id now =>
    exact hkeeps (Firm.keeps_discard (Firm.keeps_guarded (Firm.keeps_inviteFirmStaff fun _ _ => rfl))) not_false
  | acceptFirmInvitation userId membershipId now =>
    exact hkeeps (Firm.keeps_discard (Firm.keeps_acceptFirmInvitation fun _ _ => rfl)) not_false
  | updateFirmStaffRole userId firmId membershipId firmRoleCode =>
    exact hkeeps (Firm.keeps_discard (Firm.keeps_guarded (Firm.keeps_updateFirmStaffRole fun _ _ => rfl))) not_false
  | revokeFirmStaff userId firmId membershipId =>
    exact hkeeps (Firm.keeps_discard (Firm.keeps_guarded (Firm.keeps_revokeFirmStaff (fun _ _ => rfl) fun _ _ => rfl)))
      not_false
  | createClientCompany userId firmId dto companyId assignmentId =>
    refine iff_of_true ?_ not_false
    rw [next,program,Firm.program,Prog.run_discard_state]
    apply Prog.ends_bind (Identity.FirmPermissionsGuard.run_canActivate_state _ userId firmId s) hs
    intro _ _
    exact recoverable_createClientCompany hs firmId userId dto companyId assignmentId
  | inviteClientCompany userId firmId companyId id =>
    exact hkeeps (Firm.keeps_discard (Firm.keeps_guarded (Firm.keeps_inviteClientCompany fun _ _ => rfl))) not_false
  | respondToClientInvitation userId invitationId accept now =>
    refine iff_of_true ?_ not_false
    rw [next,program,Firm.program,Prog.run_discard_state]
    exact recoverable_respondToClientInvitation hs userId invitationId accept now
  | removeClientCompany userId firmId companyId =>
    rw [next,program,Firm.program,Prog.run_discard_state]
    exact recoverable_removed_iff hs hk userId firmId companyId
  | assignStaffToCompany userId firmId companyId membershipId permissionCodes id =>
    exact hkeeps (Firm.keeps_discard (Firm.keeps_guarded (Firm.keeps_assignStaffToCompany fun _ _ => rfl))) not_false
  | revokeAssignment userId firmId assignmentId =>
    exact hkeeps (Firm.keeps_discard (Firm.keeps_guarded (Firm.keeps_revokeAssignment fun _ _ => rfl))) not_false

theorem recoverable_next_iff (toLowerCase : String → String) (hs : Recoverable s) (hk : CompanyKeys s)
    (req : CompanyRequest) : Recoverable (next toLowerCase s req) ↔ ¬ Orphans s req := by
  cases req with
  | createCompany userId dto companyId userCompanyRoleId now =>
    refine iff_of_true ?_ not_false
    rw [next,program,Prog.run_discard_state]
    exact recoverable_createCompany hs hk userId dto companyId userCompanyRoleId now
  | inviteStaff userId companyId dto id =>
    refine iff_of_true ?_ not_false
    rw [next,program,Prog.run_discard_state]
    exact ends_guarded hs (recoverable_inviteStaff hs toLowerCase companyId userId dto id)
  | acceptInvitation userId userCompanyRoleId now =>
    refine iff_of_true ?_ not_false
    rw [next,program,Prog.run_discard_state]
    exact recoverable_acceptInvitation hs hk userId userCompanyRoleId now
  | revokeStaff userId companyId userCompanyRoleId =>
    refine iff_of_true ?_ not_false
    rw [next,program,Prog.run_discard_state]
    exact ends_guarded hs (recoverable_revokeStaff hs hk companyId userCompanyRoleId)
  | firm req => exact recoverable_firm_iff toLowerCase hs hk req

/-! ## The owners of the firms -/

theorem keeps_canActivate {τ : Type} {g : Store → τ} (code : String) (userId companyId : Uuid) :
    (Identity.canActivate (some [code]) (some userId) (some companyId)).Keeps g := by
  apply Prog.Guarantees.bind Firm.keeps_read
  intro userCompanyRole
  apply Prog.Guarantees.bind Firm.keeps_read
  intro firmCompanyAssignment
  split
  · trivial
  · dsimp only
    split <;> trivial

theorem keeps_guarded {α τ : Type} {g : Store → τ} {code : String} {userId companyId : Uuid} {handler : Request α}
    (h : handler.Keeps g) : (guarded code userId companyId handler).Keeps g :=
  Prog.Guarantees.bind (keeps_canActivate code userId companyId) fun _ => h

section
variable {τ : Type} {g : Store → τ}

theorem keeps_createCompany (hcompany : Firm.Blind Prisma.company g) (hrole : Firm.Blind Prisma.userCompanyRole g)
    (hpublished : ∀ events s, g { s with published := events } = g s) {userId companyId userCompanyRoleId : Uuid}
    {dto : Firm.CreateCompanyDto} {now : DateTime} :
    (createCompany userId dto companyId userCompanyRoleId now).Keeps g := by
  apply Prog.Guarantees.bind Firm.keeps_read
  intro sameTin
  cases sameTin with
  | some _ => trivial
  | none =>
    apply Prog.Guarantees.bind Firm.keeps_read
    intro ownerRole
    apply Firm.keeps_orThrow_bind
    intro ownerRole s
    have hroles := hrole (s.org.userCompanyRoles ++ [ownerRow userId companyId ownerRole.id userCompanyRoleId now])
      (Prisma.company.set (s.org.companies ++ [companyRow dto companyId]) s)
    exact ⟨hroles.trans (hcompany _ s),fun t => ⟨hpublished _ t,fun u => ⟨hpublished _ u,trivial⟩⟩⟩

theorem keeps_inviteStaff (hrole : Firm.Blind Prisma.userCompanyRole g) {toLowerCase : String → String}
    {companyId inviterId id : Uuid} {dto : InviteStaffDto} :
    (inviteStaff toLowerCase companyId inviterId dto id).Keeps g := by
  apply Prog.Guarantees.bind Firm.keeps_read
  intro invitee
  apply Firm.keeps_orThrow_bind
  intro invitee
  apply Prog.Guarantees.bind Firm.keeps_read
  intro role
  apply Firm.keeps_orThrow_bind
  intro role
  apply Prog.Guarantees.bind Firm.keeps_read
  intro existing
  cases existing with
  | some _ => trivial
  | none => exact fun s => ⟨hrole _ s,trivial⟩

theorem keeps_acceptInvitation (hrole : Firm.Blind Prisma.userCompanyRole g) {userId userCompanyRoleId : Uuid}
    {now : DateTime} : (acceptInvitation userId userCompanyRoleId now).Keeps g := by
  apply Prog.Guarantees.bind Firm.keeps_read
  intro invitation
  apply Firm.keeps_orThrow_bind
  intro invitation
  exact keeps_update hrole _ _

theorem keeps_revokeStaff (hrole : Firm.Blind Prisma.userCompanyRole g) {companyId userCompanyRoleId : Uuid} :
    (revokeStaff companyId userCompanyRoleId).Keeps g := by
  apply Prog.Guarantees.bind Firm.keeps_read
  intro found
  apply Prog.Guarantees.bind (keeps_ownedBy _ _ _)
  intro userCompanyRole
  split
  · trivial
  · exact keeps_update hrole _ _

end

theorem owned_of_creators {creator' : Uuid → Uuid} (hs : Firm.Owned creator s)
    (h : ∀ m ∈ s.org.firmMemberships, creator' m.firmId = creator m.firmId) : Firm.Owned creator' s := by
  refine ⟨hs.keys,fun m hm hm' => ?_,hs.owned⟩
  rw [h m hm]
  exact hs.owners m hm hm'

/-- A firm that is created under keys that hold has an unused id. -/
theorem not_mem_of_within_createFirm {userId firmId membershipId : Uuid} {dto : Firm.CreateFirmDto} {now : DateTime}
    (hw : Prog.Within Firm.FirmKeys (Firm.createFirm userId dto firmId membershipId now) s) :
    ((Firm.createFirm userId dto firmId membershipId now).run s).2 = s ∨ firmId ∉ s.org.firms.map Firm.id := by
  cases hrole : (Prisma.firmRole.get s).find? (fun r => r.code = "firm_owner") with
  | none =>
    left
    apply Prog.ends_bind_of_run (Q := fun t => t = s) (TableRef.run_findUnique _ _)
    apply ends_orThrow_bind (Q := fun t => t = s) rfl
    intro ownerRole hfound
    rw [hrole] at hfound
    cases hfound
  | some ownerRole =>
    right
    have hkeys := hw.run.firmIds
    rw [Firm.createFirm,Prog.run_bind,TableRef.run_findUnique,Prog.resume_ok,hrole,orThrow_some,Prog.done_ok_bind] at hkeys
    change ((s.org.firms ++ [Firm.firmRow dto firmId]).map Firm.id).Nodup at hkeys
    rw [List.map_append,List.nodup_append] at hkeys
    intro hmem
    exact hkeys.2.2 firmId hmem firmId (by simp [Firm.firmRow]) rfl

theorem owned_createFirm (hs : Firm.Owned creator s) {userId firmId membershipId : Uuid} {dto : Firm.CreateFirmDto}
    {now : DateTime} (hw : Prog.Within Firm.FirmKeys (Firm.createFirm userId dto firmId membershipId now) s) :
    ∃ creator', Firm.Owned creator' ((Firm.createFirm userId dto firmId membershipId now).run s).2 := by
  rcases not_mem_of_within_createFirm hw with hsame | hunused
  · exact ⟨creator,by rwa [hsame]⟩
  · refine ⟨Function.update creator firmId userId,?_⟩
    have hs' : Firm.Owned (Function.update creator firmId userId) s := by
      refine owned_of_creators hs fun m hm => Function.update_of_ne ?_ _ _
      rintro rfl
      exact hunused (hs.keys.firms m hm)
    exact (Firm.respecting_createFirm (by simp)).run (D := Firm.ownership _) hs' hw

theorem owned_next (toLowerCase : String → String) {req : CompanyRequest} (hs : ∃ creator, Firm.Owned creator s)
    (hacc : Accepted toLowerCase s req) : ∃ creator, Firm.Owned creator (next toLowerCase s req) := by
  obtain ⟨creator,hs⟩ := hs
  have hkeys : Firm.FirmKeys (next toLowerCase s req) := hacc.run.toFirmKeys
  have hkeeps (h : (program toLowerCase req).Keeps Firm.firmView) :
      ∃ creator, Firm.Owned creator (next toLowerCase s req) := ⟨creator,(hs.of_view hkeys (h.run s)).1⟩
  cases req with
  | createCompany userId dto companyId userCompanyRoleId now =>
    exact hkeeps (Firm.keeps_discard (keeps_createCompany (fun _ _ => rfl) (fun _ _ => rfl) fun _ _ => rfl))
  | inviteStaff userId companyId dto id =>
    exact hkeeps (Firm.keeps_discard (keeps_guarded (keeps_inviteStaff fun _ _ => rfl)))
  | acceptInvitation userId userCompanyRoleId now =>
    exact hkeeps (Firm.keeps_discard (keeps_acceptInvitation fun _ _ => rfl))
  | revokeStaff userId companyId userCompanyRoleId =>
    exact hkeeps (Firm.keeps_discard (keeps_guarded (keeps_revokeStaff fun _ _ => rfl)))
  | firm req =>
    have hw : Prog.Within Firm.FirmKeys (Firm.program toLowerCase req) s := hacc.mono fun _ h => h.toFirmKeys
    have hrest (hcreator : ∀ userId dto firmId membershipId now,
        req = .createFirm userId dto firmId membershipId now → userId = creator firmId) :
        ∃ creator, Firm.Owned creator (next toLowerCase s (.firm req)) :=
      ⟨creator,(Firm.respecting_program ⟨req,rfl,hcreator⟩ s).run (D := Firm.ownership creator) hs hw⟩
    cases req with
    | createFirm userId dto firmId membershipId now =>
      rw [next,program,Firm.program,Prog.run_discard_state]
      exact owned_createFirm hs hw.of_bind
    | _ => exact hrest (by rintro _ _ _ _ _ ⟨⟩)

end

/-- A store before the first company and the first firm. -/
structure Unregistered (s : Store) : Prop where
  keys : CompanyKeys s
  companies : s.org.companies = []
  firms : s.org.firms = []
  firmMemberships : s.org.firmMemberships = []

/-- Every state that a sequence of company and firm requests reaches leaves each company
with an owner or with a firm that has one, exactly when no firm of the sequence lets a
client go that nobody holds the owner's role on. -/
theorem noOrphans_iff_no_orphaning (toLowerCase : String → String) (s : Store) (requests : List CompanyRequest)
    (hs : Unregistered s) (hacc : Along (next toLowerCase) (Accepted toLowerCase) s requests) :
    Always (next toLowerCase) NoOrphans s requests ↔
      Along (next toLowerCase) (fun s req => ¬ Orphans s req) s requests := by
  have howned : Firm.Owned id s := ⟨hs.keys.toFirmKeys,by simp [hs.firmMemberships],by simp [hs.firms]⟩
  have hstart : NoOrphans s := by simp [NoOrphans,hs.companies]
  refine always_iff_along (I := fun s => (∃ creator, Firm.Owned creator s) ∧ CompanyKeys s)
    (fun s req hI hacc _ _ => ⟨owned_next toLowerCase hI.1 hacc,hacc.run⟩) ?_ ⟨⟨_,howned⟩,hs.keys⟩ hstart hacc
  rintro s req ⟨⟨creator,howned⟩,hk⟩ hacc hP
  obtain ⟨creator',howned'⟩ := owned_next toLowerCase ⟨creator,howned⟩ hacc
  rw [noOrphans_iff howned' hacc.run]
  exact recoverable_next_iff toLowerCase ((noOrphans_iff howned hk).mp hP) hk req

instance (s : Store) : Decidable (CompanyKeys s) :=
  decidable_of_iff (Firm.FirmKeys s ∧ (∀ c ∈ s.org.companies, ∀ firmId ∈ c.firmId, firmId ∈ s.org.firms.map Firm.id) ∧
    (s.identity.roles.map Role.id).Nodup ∧ (s.org.userCompanyRoles.map UserCompanyRole.id).Nodup)
    ⟨fun ⟨h₁,h₂,h₃,h₄⟩ => ⟨h₁,h₂,h₃,h₄⟩,fun h => ⟨h.toFirmKeys,h.companyFirms,h.roleIds,h.userCompanyRoleIds⟩⟩

instance (toLowerCase : String → String) (s : Store) (req : CompanyRequest) : Decidable (Accepted toLowerCase s req) :=
  inferInstanceAs (Decidable (Prog.Within CompanyKeys (program toLowerCase req) s))

/-- The catalogues of the seed. -/
def catalogues : Store where
  identity.roles := [⟨1,"business_owner",[]⟩]
  org :=
    { firmPermissions := [⟨1,"firm:clients:manage"⟩]
      firmRoles := [⟨1,"firm_owner",[1]⟩] }

def carinderia : Firm.CreateCompanyDto := ⟨"Carinderia",none,.sole_prop,.non_vat,"111-222-333",none,none,none,none⟩

theorem unregistered_catalogues : Unregistered catalogues := ⟨by decide,rfl,rfl,rfl⟩

theorem noOrphans_iff_no_orphaning_registration :
    Always (next String.toLower) NoOrphans catalogues [.createCompany 3 carinderia 9 10 0] ↔
      Along (next String.toLower) (fun s req => ¬ Orphans s req) catalogues [.createCompany 3 carinderia 9 10 0] :=
  noOrphans_iff_no_orphaning String.toLower catalogues _ unregistered_catalogues (by decide +kernel)

/-- A firm onboards a client and lets it go. -/
def onboardAndRemove : List CompanyRequest :=
  [.firm (.createFirm 1 ⟨"CPAs",.accounting_firm,"cpa@example.com",none⟩ 100 200 0),
    .firm (.createClientCompany 1 100 carinderia 9 400),.firm (.removeClientCompany 1 100 9)]

theorem onboardAndRemove_orphans :
    Unregistered catalogues ∧ Along (next String.toLower) (Accepted String.toLower) catalogues onboardAndRemove ∧
      ¬ Always (next String.toLower) NoOrphans catalogues onboardAndRemove := by
  refine ⟨unregistered_catalogues,by decide +kernel,fun h => ?_⟩
  have hrows : (onboardAndRemove.foldl (next String.toLower) catalogues).org.companies =
      [companyRow carinderia 9] := by decide +kernel
  have hroles : (onboardAndRemove.foldl (next String.toLower) catalogues).org.userCompanyRoles = [] := by decide +kernel
  rcases h.last (companyRow carinderia 9) (by rw [hrows]; exact List.mem_singleton_self _) with
    ⟨r,hr,-⟩ | ⟨firmId,hfirm,-⟩
  · rw [hroles] at hr
    cases hr
  · cases hfirm

end PinoyTax.Org
