import PinoyTax.Tenancy.Routes
import Mathlib.Data.List.Find

/-! # Strangers to a company

Who may do what on a company is decided by its row, the roles on it, the members of the firm
that manages it and the assignments to it. Users without any of these may send every request
that the platform knows, in any number and in any interleaving: what decides stays as it is.
-/
namespace PinoyTax.Tenancy
open PinoyTax Foundation

/-- What decides about the access to a company. -/
structure Footing where
  company : Option Company
  roles : List UserCompanyRole
  members : List FirmMembership
  assignments : List FirmCompanyAssignment
  roleCatalogue : List Role
  permissionCatalogue : List Permission

/-- A membership of the firm that manages the company. -/
def managedBy (company : Option Company) (m : FirmMembership) : Bool := company.any (fun c => c.firmId == some m.firmId)

def companyOf (companyId : Uuid) (s : Store) : Option Company := s.org.companies.find? (fun c => c.id = companyId)

def footing (companyId : Uuid) (s : Store) : Footing where
  company := companyOf companyId s
  roles := s.org.userCompanyRoles.filter (fun r => r.companyId = companyId)
  members := s.org.firmMemberships.filter (managedBy (companyOf companyId s))
  assignments := s.org.firmCompanyAssignments.filter (fun a => a.companyId = companyId)
  roleCatalogue := s.identity.roles
  permissionCatalogue := s.identity.permissions

/-- None of the users has a role on the company or a membership of its firm, not even as an
invitation, and whoever is assigned to the company is a member of that firm. -/
structure ShutOut (strangers : Uuid → Prop) (φ : Footing) : Prop where
  registered : φ.company.isSome = true
  roles : ∀ r ∈ φ.roles, strangers r.userId → r.status = .revoked
  members : ∀ m ∈ φ.members, strangers m.userId → m.status = .revoked
  home : ∀ a ∈ φ.assignments, a.status = .active → ∃ m ∈ φ.members, m.id = a.firmMembershipId

/-- The unique and foreign keys of the tables that decide. -/
structure AccessKeys (s : Store) : Prop extends Org.CompanyKeys s where
  assignmentIds : (s.org.firmCompanyAssignments.map FirmCompanyAssignment.id).Nodup

/-- The requests of the users that arrive. -/
def ArrivesFrom (toLowerCase : String → String) (strangers : Uuid → Prop) (p : Request Unit) : Prop :=
  ∃ req : ClientRequest, p = req.program toLowerCase ∧ strangers req.actor

/-- What the tables that decide are in. -/
def accessView (s : Store) : Org × List Role × List Permission := (s.org,s.identity.roles,s.identity.permissions)

/-- The footing stays. -/
def standing (companyId : Uuid) (φ : Footing) : Discipline Store where
  Inv s := AccessKeys s ∧ footing companyId s = φ
  Admits := AccessKeys
  Later _ _ := True
  refl _ := trivial
  trans _ _ := trivial

section
variable {companyId : Uuid} {φ : Footing} {s t : Store}

theorem AccessKeys.of_view (hs : AccessKeys s) (h : accessView t = accessView s) : AccessKeys t := by
  simp only [accessView,Prod.mk.injEq] at h
  obtain ⟨horg,hroles,-⟩ := h
  refine ⟨⟨⟨⟨?_,?_,?_,?_⟩,?_,?_,?_⟩,?_,?_,?_⟩,?_⟩ <;> simp only [horg,hroles]
  · exact hs.companies
  · exact hs.memberships
  · exact hs.members
  · exact hs.firms
  · exact hs.firmIds
  · exact hs.firmRoleIds
  · exact hs.firmRoleCodes
  · exact hs.companyFirms
  · exact hs.roleIds
  · exact hs.userCompanyRoleIds
  · exact hs.assignmentIds

theorem footing_of_view (h : accessView t = accessView s) : footing companyId t = footing companyId s := by
  simp only [accessView,Prod.mk.injEq] at h
  obtain ⟨horg,hroles,hpermissions⟩ := h
  simp only [footing,companyOf,horg,hroles,hpermissions]

/-! ## Writes that the footing does not see -/

section Writes
variable (hs : footing companyId s = φ)
include hs

theorem footing_setRoles {rows : List UserCompanyRole}
    (h : rows.filter (fun r => r.companyId = companyId) = s.org.userCompanyRoles.filter (fun r => r.companyId = companyId)) :
    footing companyId (Prisma.userCompanyRole.set rows s) = φ := by
  rw [← hs]
  simp only [footing,companyOf,Prisma.userCompanyRole,h]

theorem footing_setAssignments {rows : List FirmCompanyAssignment}
    (h : rows.filter (fun a => a.companyId = companyId) =
      s.org.firmCompanyAssignments.filter (fun a => a.companyId = companyId)) :
    footing companyId (Prisma.firmCompanyAssignment.set rows s) = φ := by
  rw [← hs]
  simp only [footing,companyOf,Prisma.firmCompanyAssignment,h]

theorem footing_setMembers {rows : List FirmMembership}
    (h : rows.filter (managedBy φ.company) = s.org.firmMemberships.filter (managedBy φ.company)) :
    footing companyId (Prisma.firmMembership.set rows s) = φ := by
  subst hs
  simp only [footing,Prisma.firmMembership] at h ⊢
  simp only [companyOf] at h ⊢
  rw [h]

theorem footing_setCompanies {rows : List Company}
    (h : rows.find? (fun c => c.id = companyId) = companyOf companyId s) :
    footing companyId (Prisma.company.set rows s) = φ := by
  rw [← hs]
  simp only [footing,companyOf,Prisma.company] at h ⊢
  rw [h]

/-- The role is none of the company's. -/
theorem footing_updateRole {id : Uuid} (hid : id ∉ φ.roles.map UserCompanyRole.id) {f : UserCompanyRole → UserCompanyRole}
    (hf : ∀ r, (f r).companyId = r.companyId) :
    footing companyId (Prisma.userCompanyRole.set (Table.updateMany (fun r => r.id = id) f s.org.userCompanyRoles) s) = φ := by
  apply footing_setRoles hs
  apply Table.filter_updateMany_eq_self
  intro r hr hrid
  refine ⟨by simp only [hf],fun hc => absurd ?_ hid⟩
  have hmem : r ∈ φ.roles := by
    rw [← hs]
    exact List.mem_filter.mpr ⟨hr,hc⟩
  exact List.mem_map.mpr ⟨r,hmem,by simpa using hrid⟩

/-- The membership is none of the managing firm's. -/
theorem footing_updateMember {id : Uuid} (hid : id ∉ φ.members.map FirmMembership.id) {f : FirmMembership → FirmMembership}
    (hf : ∀ m, (f m).firmId = m.firmId) :
    footing companyId (Prisma.firmMembership.set (Table.updateMany (fun m => m.id = id) f s.org.firmMemberships) s) = φ := by
  apply footing_setMembers hs
  apply Table.filter_updateMany_eq_self
  intro m hm hmid
  refine ⟨by simp only [managedBy,hf],fun hc => absurd ?_ hid⟩
  have hmem : m ∈ φ.members := by
    subst hs
    exact List.mem_filter.mpr ⟨hm,hc⟩
  exact List.mem_map.mpr ⟨m,hmem,by simpa using hmid⟩

/-- The update changes none of the company's assignments. -/
theorem footing_updateAssignments {p : FirmCompanyAssignment → Bool} {f : FirmCompanyAssignment → FirmCompanyAssignment}
    (hf : ∀ a, (f a).companyId = a.companyId) (h : ∀ a ∈ φ.assignments, p a = true → f a = a) :
    footing companyId (Prisma.firmCompanyAssignment.set (Table.updateMany p f s.org.firmCompanyAssignments) s) = φ := by
  apply footing_setAssignments hs
  apply Table.filter_updateMany_eq_self
  intro a ha hp
  refine ⟨by simp only [hf],fun hc => h a ?_ hp⟩
  rw [← hs]
  exact List.mem_filter.mpr ⟨ha,hc⟩

/-- The company that is written is another one. -/
theorem footing_updateCompany {id : Uuid} (hid : id ≠ companyId) {f : Company → Company} (hf : ∀ c, (f c).id = c.id) :
    footing companyId (Prisma.company.set (Table.updateMany (fun c => c.id = id) f s.org.companies) s) = φ := by
  apply footing_setCompanies hs
  rw [Table.find?_updateMany (fun c => by rw [hf])]
  cases hfound : s.org.companies.find? (fun c => c.id = companyId) with
  | none => rw [companyOf,hfound,Option.map_none]
  | some c =>
    have hc : c.id = companyId := (Table.find?_key_some hfound).2
    have hne : ¬ c.id = id := by
      rw [hc]
      exact Ne.symm hid
    rw [companyOf,hfound,Option.map_some]
    simp [hne]

theorem footing_addCompany (row : Company) (hregistered : φ.company.isSome = true) :
    footing companyId (Prisma.company.set (s.org.companies ++ [row]) s) = φ := by
  apply footing_setCompanies hs
  obtain ⟨c,hc⟩ : ∃ c, companyOf companyId s = some c := by
    rw [← hs] at hregistered
    exact Option.isSome_iff_exists.mp hregistered
  rw [List.find?_append]
  simp only [companyOf] at hc ⊢
  rw [hc]
  rfl

end Writes

theorem mem_companies (hs : footing companyId s = φ) (hregistered : φ.company.isSome = true) :
    ∃ c ∈ s.org.companies, c.id = companyId ∧ φ.company = some c := by
  obtain ⟨c,hc⟩ := Option.isSome_iff_exists.mp hregistered
  have hfound : s.org.companies.find? (fun c => c.id = companyId) = some c := by
    rw [← hc,← hs]
    rfl
  exact ⟨c,(Table.find?_key_some hfound).1,(Table.find?_key_some hfound).2,hc⟩

theorem companyId_of_mem (hs : footing companyId s = φ) {a : FirmCompanyAssignment} (ha : a ∈ φ.assignments) :
    a.companyId = companyId := by
  rw [← hs] at ha
  simpa using (List.mem_filter.mp ha).2

/-- A company that is added is another one. -/
theorem ne_of_added (hs : footing companyId s = φ) (hregistered : φ.company.isSome = true) (row : Company)
    (hkeys : ((s.org.companies ++ [row]).map Company.id).Nodup) : row.id ≠ companyId := by
  obtain ⟨c,hc,rfl,-⟩ := mem_companies hs hregistered
  rw [List.map_append,List.nodup_append] at hkeys
  exact fun he => hkeys.2.2 c.id (List.mem_map_of_mem hc) row.id (by simp) he.symm

end

/-! ## Requests that leave the footing alone -/

/-- Wherever it starts, each statement of the program keeps the footing. -/
def Harmless {α : Type} (companyId : Uuid) (φ : Footing) (p : Request α) : Prop :=
  ∀ s, p.Respects (standing companyId φ) (fun _ _ => True) s

section
variable {α β ρ : Type} {companyId : Uuid} {φ : Footing}

theorem harmless_pure {a : α} : Harmless companyId φ (pure a) := fun _ _ _ => trivial

theorem harmless_throw {e : ApiException} : Harmless companyId φ (.throw e : Request α) := fun _ => trivial

theorem harmless_bind {p : Request α} {f : α → Request β} (hp : Harmless companyId φ p)
    (hf : ∀ a, Harmless companyId φ (f a)) : Harmless companyId φ (p >>= f) := fun s => (hp s).bind fun a t _ => hf a t

theorem harmless_discard {p : Request α} (hp : Harmless companyId φ p) : Harmless companyId φ p.discard :=
  harmless_bind hp fun _ => harmless_pure

theorem harmless_query_bind {l : Label} {g : Store → β} {f : β → Request α}
    (hf : ∀ t, AccessKeys t → footing companyId t = φ → Harmless companyId φ (f (g t))) :
    Harmless companyId φ (Prog.query l g >>= f) :=
  fun _ => Prog.respects_query_bind fun t _ ht => hf t ht.1 ht.2 t

theorem harmless_orThrow_bind {e : ApiException} {o : Option ρ} {f : ρ → Request α}
    (hf : ∀ r, o = some r → Harmless companyId φ (f r)) : Harmless companyId φ (orThrow e o >>= f) := by
  cases o with
  | none => exact harmless_throw
  | some r => exact hf r rfl

theorem harmless_keeps {p : Request α} (hp : p.Keeps accessView) : Harmless companyId φ p := by
  intro s
  have hview : p.Guarantees fun _ s t => (standing companyId φ).Inv s → AccessKeys t →
      (standing companyId φ).Inv t ∧ True := by
    refine hp.mono fun _ s t hst hs ht => ⟨⟨ht,?_⟩,trivial⟩
    rw [footing_of_view hst]
    exact hs.2
  exact (Prog.Guarantees.respects (D := standing companyId φ) hview s).mono fun _ _ _ => trivial

/-- A statement that writes, and what follows it. -/
theorem harmless_stmt {l : Label} {w : Store → Store} {k : Store → Request α}
    (hw : ∀ t, AccessKeys t → footing companyId t = φ → AccessKeys (w t) → footing companyId (w t) = φ)
    (hk : ∀ t, AccessKeys t → footing companyId t = φ → Harmless companyId φ (k t)) :
    Harmless companyId φ (.stmt l w k) :=
  fun _ t _ ht hadmits => ⟨⟨hadmits,hw t ht.1 ht.2 hadmits⟩,trivial,hk t ht.1 ht.2 (w t)⟩

theorem harmless_create {T : TableRef ρ} {row : ρ}
    (h : ∀ t, AccessKeys t → footing companyId t = φ → AccessKeys (T.set (T.get t ++ [row]) t) →
      footing companyId (T.set (T.get t ++ [row]) t) = φ) : Harmless companyId φ (T.create row) :=
  harmless_stmt h fun _ _ _ => harmless_pure

theorem harmless_update {T : TableRef ρ} {p : ρ → Bool} {f : ρ → ρ}
    (h : ∀ t, AccessKeys t → footing companyId t = φ → footing companyId (T.set (Table.updateMany p f (T.get t)) t) = φ) :
    Harmless companyId φ (T.update p f) := by
  refine harmless_stmt (fun t hk ht _ => h t hk ht) fun t _ _ => ?_
  cases (T.get t).find? p with
  | none => exact harmless_throw
  | some r => exact harmless_pure

/-- A transaction whose body ends with the same footing when it succeeds. -/
theorem harmless_transaction {body : Request α}
    (h : ∀ s a t, AccessKeys s → footing companyId s = φ → body.run s = (.ok a,t) → AccessKeys t →
      footing companyId t = φ) : Harmless companyId φ (transaction body) := by
  refine harmless_stmt ?_ fun t _ _ => ?_
  · intro s hk hs hadmits
    cases hbody : body.run s with
    | mk r t =>
      cases r with
      | ok a =>
        rw [hbody] at hadmits
        exact h s a t hk hs hbody hadmits
      | error e => exact hs
  · cases (body.run t).1 with
    | ok a => exact harmless_pure
    | error e => exact harmless_throw

end

/-! ## What the guards tell strangers apart by -/

section
variable {strangers : Uuid → Prop} {companyId userId : Uuid} {φ : Footing} {s : Store}

theorem isActiveRole_stranger (hout : ShutOut strangers φ) (hs : footing companyId s = φ) (hu : strangers userId)
    {r : UserCompanyRole} (hr : r ∈ s.org.userCompanyRoles) : Identity.isActiveRole userId companyId r = false := by
  by_contra hact
  simp only [Identity.isActiveRole,Bool.not_eq_false,Bool.and_eq_true,decide_eq_true_eq] at hact
  obtain ⟨⟨huser,hcompany⟩,hstatus⟩ := hact
  have hmem : r ∈ φ.roles := by
    rw [← hs]
    exact List.mem_filter.mpr ⟨hr,by simpa using hcompany⟩
  have hrevoked := hout.roles r hmem (huser ▸ hu)
  rw [hstatus] at hrevoked
  cases hrevoked

/-- A member of the managing firm is in the footing. -/
theorem mem_members (hs : footing companyId s = φ) {m : FirmMembership} (hm : m ∈ s.org.firmMemberships) {c : Company}
    (hc : φ.company = some c) (hfirm : c.firmId = some m.firmId) : m ∈ φ.members := by
  subst hs
  refine List.mem_filter.mpr ⟨hm,?_⟩
  change companyOf companyId s = some c at hc
  simp [managedBy,hc,hfirm]

/-- An active assignment to the company is a member of the managing firm's. -/
theorem mem_members_of_active (hout : ShutOut strangers φ) (hk : AccessKeys s) (hs : footing companyId s = φ)
    {a : FirmCompanyAssignment} (ha : a ∈ s.org.firmCompanyAssignments) (hcompany : a.companyId = companyId)
    (hact : a.status = .active) {m : FirmMembership}
    (hfound : s.org.firmMemberships.find? (fun m => m.id = a.firmMembershipId) = some m) : m ∈ φ.members := by
  have hmem : a ∈ φ.assignments := by
    rw [← hs]
    exact List.mem_filter.mpr ⟨ha,by simpa using hcompany⟩
  obtain ⟨q,hq,hqid⟩ := hout.home a hmem hact
  have hqs : q ∈ s.org.firmMemberships := by
    subst hs
    exact List.mem_of_mem_filter hq
  obtain ⟨hm,hmid⟩ := Table.find?_key_some hfound
  rwa [Table.eq_of_key hk.memberships hm hqs (hmid.trans hqid.symm)]

theorem isActiveAssignment_stranger (hout : ShutOut strangers φ) (hk : AccessKeys s) (hs : footing companyId s = φ)
    (hu : strangers userId) {a : FirmCompanyAssignment} (ha : a ∈ s.org.firmCompanyAssignments) :
    Identity.isActiveAssignment s userId companyId a = false := by
  by_contra hact
  simp only [Identity.isActiveAssignment,Bool.not_eq_false,Bool.and_eq_true,decide_eq_true_eq,Option.any_eq_true] at hact
  obtain ⟨⟨hcompany,hstatus⟩,m,hfound,hmember⟩ := hact
  simp only [Identity.isActiveMembership,Bool.and_eq_true,decide_eq_true_eq] at hmember
  have hmem := mem_members_of_active hout hk hs ha hcompany hstatus hfound
  have hrevoked := hout.members m hmem (hmember.1 ▸ hu)
  rw [hmember.2] at hrevoked
  cases hrevoked

/-- The company's guard lets no stranger through. -/
theorem not_admits_stranger (hout : ShutOut strangers φ) (hk : AccessKeys s) (hs : footing companyId s = φ)
    (hu : strangers userId) (code : String) : Identity.admits s [code] userId companyId = false := by
  have hrole : Identity.firstRole s userId companyId = none :=
    List.find?_eq_none.mpr fun r hr => by simp [isActiveRole_stranger hout hs hu hr]
  have hassignment : Identity.firstAssignment s userId companyId = none :=
    List.find?_eq_none.mpr fun a ha => by simp [isActiveAssignment_stranger hout hk hs hu ha]
  rw [Identity.admits,Identity.run_canActivate,hrole,hassignment]
  rfl

end

theorem aside_accessView : Aside accessView :=
  ⟨fun _ _ => rfl,fun _ _ => rfl,fun _ _ => rfl,fun _ _ => rfl,fun _ _ => rfl⟩

/-- The firm is not the one that manages the company. -/
def ManagedElsewhere (φ : Footing) (firmId : Uuid) : Prop := ∀ c, φ.company = some c → c.firmId ≠ some firmId

section
variable {α : Type} {strangers : Uuid → Prop} {companyId userId firmId : Uuid} {φ : Footing}
variable (hout : ShutOut strangers φ)
include hout

/-- A stranger gets past the guard of another company only. -/
theorem harmless_guarded {code : String} {otherId : Uuid} (hu : strangers userId) {handler : Request α}
    (h : otherId ≠ companyId → Harmless companyId φ handler) :
    Harmless companyId φ (Org.guarded code userId otherId handler).discard := by
  by_cases hother : otherId = companyId
  · subst hother
    apply harmless_discard
    rw [Org.guarded,Identity.canActivate]
    dsimp only [Option.getD_some]
    rw [Prog.bind_assoc]
    apply harmless_query_bind
    intro s _ hs
    have hrole : Identity.firstRole s userId otherId = none :=
      List.find?_eq_none.mpr fun r hr => by simp [isActiveRole_stranger hout hs hu hr]
    rw [Prog.bind_assoc]
    apply harmless_query_bind
    intro t hk ht
    have hassignment : Identity.firstAssignment t userId otherId = none :=
      List.find?_eq_none.mpr fun a ha => by simp [isActiveAssignment_stranger hout hk ht hu ha]
    rw [hrole,hassignment]
    exact harmless_throw
  · have hsplit : Org.guarded code userId otherId handler = Org.guarded code userId otherId (pure ()) >>= fun _ => handler := by
      rw [Org.guarded,Org.guarded,Prog.bind_assoc]
      rfl
    rw [hsplit]
    exact harmless_discard (harmless_bind (harmless_keeps (Org.keeps_guarded trivial)) fun _ => h hother)

/-- A stranger gets past the guard of another firm only. -/
theorem harmless_firmGuarded {code : String} (hu : strangers userId) {handler : Request α}
    (h : ManagedElsewhere φ firmId → Harmless companyId φ handler) :
    Harmless companyId φ (Firm.guarded code userId firmId handler).discard := by
  apply harmless_discard
  rw [Firm.guarded,Identity.FirmPermissionsGuard.canActivate]
  dsimp only [Option.getD_some]
  rw [Prog.bind_assoc]
  apply harmless_query_bind
  intro s _ hs
  cases hfound : s.org.firmMemberships.find? (Identity.FirmPermissionsGuard.isActiveMember userId firmId) with
  | none => exact harmless_throw
  | some m =>
    have hm := List.find?_some hfound
    simp only [Identity.FirmPermissionsGuard.isActiveMember,Bool.and_eq_true,decide_eq_true_eq] at hm
    dsimp only [Option.map_some]
    split
    · refine h fun c hc hfirm => ?_
      have hmem := mem_members hs (List.mem_of_find?_eq_some hfound) hc (by rw [hfirm,hm.1.2])
      have hrevoked := hout.members m hmem (hm.1.1 ▸ hu)
      rw [hm.2] at hrevoked
      cases hrevoked
    · exact harmless_throw

/-! ## Requests of companies -/

theorem harmless_createCompany (dto : Firm.CreateCompanyDto) (newCompanyId userCompanyRoleId : Uuid) (now : DateTime) :
    Harmless companyId φ (Org.createCompany userId dto newCompanyId userCompanyRoleId now) := by
  apply harmless_query_bind
  intro s _ _
  cases (Prisma.company.get s).find? (fun c => c.tin = dto.tin) with
  | some _ => exact harmless_throw
  | none =>
    apply harmless_query_bind
    intro t _ _
    apply harmless_orThrow_bind
    intro ownerRole _
    refine harmless_bind (harmless_stmt ?_ fun _ _ _ => harmless_pure) fun company => harmless_keeps ?_
    · intro t _ ht hkeys
      have hne : (Org.companyRow dto newCompanyId).id ≠ companyId := ne_of_added ht hout.registered _ hkeys.companies
      refine footing_setRoles (footing_addCompany ht (Org.companyRow dto newCompanyId) hout.registered) ?_
      rw [List.filter_append]
      have hother : ¬ newCompanyId = companyId := hne
      simp [Org.ownerRow,hother,Prisma.company]
    · exact fun t => ⟨rfl,fun u => ⟨rfl,trivial⟩⟩

omit hout in
theorem harmless_inviteStaff (toLowerCase : String → String) {otherId : Uuid} (hother : otherId ≠ companyId)
    (dto : Org.InviteStaffDto) (id : Uuid) :
    Harmless companyId φ (Org.inviteStaff toLowerCase otherId userId dto id) := by
  apply harmless_query_bind
  intro s _ _
  apply harmless_orThrow_bind
  intro invitee _
  apply harmless_query_bind
  intro t _ _
  apply harmless_orThrow_bind
  intro role _
  apply harmless_query_bind
  intro u _ _
  cases (Prisma.userCompanyRole.get u).find? (Org.isRoleOf invitee.id otherId role.id) with
  | some _ => exact harmless_throw
  | none =>
    apply harmless_create
    intro v _ hv _
    apply footing_setRoles hv
    simp [Prisma.userCompanyRole,Org.invitedRow,hother]

theorem harmless_acceptInvitation (hu : strangers userId) (userCompanyRoleId : Uuid) (now : DateTime) :
    Harmless companyId φ (Org.acceptInvitation userId userCompanyRoleId now) := by
  apply harmless_query_bind
  intro s hk hs
  apply harmless_orThrow_bind
  intro invitation hfound
  have hpending := List.find?_some hfound
  simp only [Org.isPendingOf,Bool.and_eq_true,decide_eq_true_eq] at hpending
  apply harmless_update
  intro t _ ht
  refine footing_updateRole ht (fun hmem => ?_) fun _ => rfl
  obtain ⟨r,hr,hid⟩ := List.mem_map.mp hmem
  have hrs : r ∈ s.org.userCompanyRoles := by
    rw [← hs] at hr
    exact List.mem_of_mem_filter hr
  obtain rfl : r = invitation := Table.eq_of_key hk.userCompanyRoleIds hrs (List.mem_of_find?_eq_some hfound) hid
  have hrevoked := hout.roles r hr (hpending.1.2 ▸ hu)
  rw [hpending.2] at hrevoked
  cases hrevoked

omit hout in
theorem harmless_revokeStaff {otherId : Uuid} (hother : otherId ≠ companyId) (userCompanyRoleId : Uuid) :
    Harmless companyId φ (Org.revokeStaff otherId userCompanyRoleId) := by
  apply harmless_query_bind
  intro s hk hs
  cases hfound : s.org.userCompanyRoles.find? (fun r => r.id = userCompanyRoleId) with
  | none => exact harmless_throw
  | some r =>
    obtain ⟨hr,rfl⟩ := Table.find?_key_some hfound
    simp only [Option.map_some,ownedBy]
    split
    · rename_i howner
      rw [Prog.done_ok_bind]
      split
      · exact harmless_throw
      · apply harmless_update
        intro t _ ht
        refine footing_updateRole ht (fun hmem => ?_) fun _ => rfl
        obtain ⟨q,hq,hid⟩ := List.mem_map.mp hmem
        rw [← hs] at hq
        obtain ⟨hqs,hqc⟩ := List.mem_filter.mp hq
        obtain rfl : q = r := Table.eq_of_key hk.userCompanyRoleIds hqs hr hid
        exact hother (howner.symm.trans (by simpa using hqc))
    · exact harmless_throw

omit hout in
theorem harmless_updateCompany {otherId : Uuid} (hother : otherId ≠ companyId) (dto : Org.UpdateCompanyDto) :
    Harmless companyId φ (Org.updateCompany otherId dto) := by
  refine harmless_bind (harmless_query_bind fun s _ _ => ?_) fun existing => ?_
  · cases (Prisma.company.get s).find? (fun c => c.id = otherId) with
    | none => exact harmless_throw
    | some c => exact harmless_pure
  · refine harmless_bind (harmless_update fun t _ ht => footing_updateCompany ht hother fun _ => rfl) fun updated => ?_
    cases dto.vatClassification with
    | none => exact harmless_pure
    | some vatClassification =>
      dsimp only
      split
      · exact harmless_keeps fun s => ⟨rfl,fun t => ⟨rfl,trivial⟩⟩
      · exact harmless_pure

/-! ## Requests of firms -/

omit hout in
/-- A membership of another firm is none of the footing's. -/
theorem not_mem_members {s : Store} (hk : AccessKeys s) (hs : footing companyId s = φ) (hfirm : ManagedElsewhere φ firmId)
    {m : FirmMembership} (hm : m ∈ s.org.firmMemberships) (hmfirm : m.firmId = firmId) :
    m.id ∉ φ.members.map FirmMembership.id := by
  intro hmem
  obtain ⟨q,hq,hid⟩ := List.mem_map.mp hmem
  subst hs
  obtain ⟨hqs,hmanaged⟩ := List.mem_filter.mp hq
  obtain rfl : q = m := Table.eq_of_key hk.memberships hqs hm hid
  obtain ⟨c,hc,hcfirm⟩ := (Option.any_eq_true _ _).mp hmanaged
  exact hfirm c hc (by rw [← hmfirm]; simpa using hcfirm)

omit hout in
/-- A client of another firm is another company. -/
theorem ne_of_client {s : Store} (hk : AccessKeys s) (hs : footing companyId s = φ) (hfirm : ManagedElsewhere φ firmId)
    {c : Company} (hc : c ∈ s.org.companies) (hcfirm : c.firmId = some firmId) : c.id ≠ companyId := by
  rintro rfl
  have hfound : companyOf c.id s = some c := Table.find?_of_mem hk.companies hc
  refine hfirm c ?_ hcfirm
  rw [← hs]
  exact hfound

omit hout in
theorem harmless_updateMember {m : FirmMembership → FirmMembership} {id : Uuid} (hid : id ∉ φ.members.map FirmMembership.id)
    (hm : ∀ q, (m q).firmId = q.firmId) : Harmless companyId φ (Prisma.firmMembership.update (fun q => q.id = id) m) :=
  harmless_update fun _ _ ht => footing_updateMember ht hid hm

theorem harmless_createFirm (dto : Firm.CreateFirmDto) (newFirmId membershipId : Uuid) (now : DateTime) :
    Harmless companyId φ (Firm.createFirm userId dto newFirmId membershipId now) := by
  apply harmless_query_bind
  intro s _ _
  apply harmless_orThrow_bind
  intro ownerRole _
  refine harmless_stmt ?_ fun _ _ _ => harmless_pure
  intro t hk ht hkeys
  have ht' : footing companyId (Prisma.firm.set (t.org.firms ++ [Firm.firmRow dto newFirmId]) t) = φ := ht
  refine footing_setMembers ht' ?_
  rw [List.filter_append]
  have hother : managedBy φ.company (Firm.ownerMembership userId newFirmId ownerRole.id membershipId now) = false := by
    by_contra hmanaged
    rw [Bool.not_eq_false] at hmanaged
    obtain ⟨c,hc,hfirm⟩ := (Option.any_eq_true _ _).mp hmanaged
    have hcfirm : c.firmId = some newFirmId := by simpa [Firm.ownerMembership] using hfirm
    obtain ⟨c',hmem,-,hc'⟩ := mem_companies ht hout.registered
    obtain rfl : c' = c := Option.some.inj (hc'.symm.trans hc)
    have hold : newFirmId ∈ t.org.firms.map Firm.id := hk.companyFirms c' hmem newFirmId hcfirm
    have hids := hkeys.firmIds
    change ((t.org.firms ++ [Firm.firmRow dto newFirmId]).map Firm.id).Nodup at hids
    rw [List.map_append,List.nodup_append] at hids
    exact hids.2.2 newFirmId hold newFirmId (by simp [Firm.firmRow]) rfl
  simp [hother,Prisma.firm]

omit hout in
theorem harmless_inviteFirmStaff (toLowerCase : String → String) (hfirm : ManagedElsewhere φ firmId)
    (dto : Firm.InviteFirmStaffDto) (id : Uuid) (now : DateTime) :
    Harmless companyId φ (Firm.inviteFirmStaff toLowerCase firmId userId dto id now) := by
  apply harmless_query_bind
  intro s _ _
  apply harmless_orThrow_bind
  intro invitee _
  apply harmless_query_bind
  intro t _ _
  apply harmless_orThrow_bind
  intro role _
  apply harmless_query_bind
  intro u hk hu
  cases hfound : (Prisma.firmMembership.get u).find? (Firm.isMemberOf invitee.id firmId) with
  | some existing =>
    have hmember := List.find?_some hfound
    simp only [Firm.isMemberOf,Bool.and_eq_true,decide_eq_true_eq] at hmember
    dsimp only
    split
    · exact harmless_throw
    · exact harmless_updateMember (not_mem_members hk hu hfirm (List.mem_of_find?_eq_some hfound) hmember.2) fun _ => rfl
  | none =>
    apply harmless_create
    intro v _ hv _
    apply footing_setMembers hv
    have hother : managedBy φ.company (Firm.invitedMembership firmId invitee.id role.id userId id now) = false := by
      by_contra hmanaged
      rw [Bool.not_eq_false] at hmanaged
      obtain ⟨c,hc,hcfirm⟩ := (Option.any_eq_true _ _).mp hmanaged
      exact hfirm c hc (by simpa [Firm.invitedMembership] using hcfirm)
    simp [Prisma.firmMembership,hother]

theorem harmless_acceptFirmInvitation (hu : strangers userId) (membershipId : Uuid) (now : DateTime) :
    Harmless companyId φ (Firm.acceptFirmInvitation userId membershipId now) := by
  apply harmless_query_bind
  intro s hk hs
  apply harmless_orThrow_bind
  intro invitation hfound
  have hpending := List.find?_some hfound
  simp only [Firm.isPendingOf,Bool.and_eq_true,decide_eq_true_eq] at hpending
  refine harmless_updateMember (fun hmem => ?_) fun _ => rfl
  obtain ⟨m,hm,hid⟩ := List.mem_map.mp hmem
  have hms : m ∈ s.org.firmMemberships := by
    subst hs
    exact List.mem_of_mem_filter hm
  obtain rfl : m = invitation := Table.eq_of_key hk.memberships hms (List.mem_of_find?_eq_some hfound) hid
  have hrevoked := hout.members m hm (hpending.1.2 ▸ hu)
  rw [hpending.2] at hrevoked
  cases hrevoked

omit hout in
theorem harmless_getFirmMembershipOrThrow_bind {β : Type} (hfirm : ManagedElsewhere φ firmId) {membershipId : Uuid}
    {f : FirmMembership × Option FirmRole → Request β}
    (hf : ∀ membership, membershipId ∉ φ.members.map FirmMembership.id → Harmless companyId φ (f membership)) :
    Harmless companyId φ (Firm.getFirmMembershipOrThrow firmId membershipId >>= f) := by
  unfold Firm.getFirmMembershipOrThrow
  rw [Prog.bind_assoc]
  apply harmless_query_bind
  intro s hk hs
  cases hfound : s.org.firmMemberships.find? (fun m => m.id = membershipId) with
  | none => exact harmless_throw
  | some m =>
    obtain ⟨hm,rfl⟩ := Table.find?_key_some hfound
    simp only [Option.map_some,ownedBy]
    split
    · rename_i howner
      exact hf _ (not_mem_members hk hs hfirm hm howner)
    · exact harmless_throw

omit hout in
theorem harmless_updateFirmStaffRole (hfirm : ManagedElsewhere φ firmId) (membershipId : Uuid)
    (firmRoleCode : Firm.AssignableFirmRoleCode) :
    Harmless companyId φ (Firm.updateFirmStaffRole firmId membershipId firmRoleCode) := by
  refine harmless_getFirmMembershipOrThrow_bind hfirm fun membership hid => ?_
  refine harmless_bind (harmless_keeps (Firm.keeps_assertNotLastOwner _ _ _)) fun _ => ?_
  apply harmless_query_bind
  intro s _ _
  apply harmless_orThrow_bind
  intro role _
  exact harmless_updateMember hid fun _ => rfl

/-- A membership of another firm has no active assignment to the company. -/
theorem harmless_revokeFirmStaff (hfirm : ManagedElsewhere φ firmId) (membershipId : Uuid) :
    Harmless companyId φ (Firm.revokeFirmStaff firmId membershipId) := by
  refine harmless_getFirmMembershipOrThrow_bind hfirm fun membership hid => ?_
  refine harmless_bind (harmless_keeps (Firm.keeps_assertNotLastOwner _ _ _)) fun _ => ?_
  apply harmless_transaction
  intro s a t _ hs hrun _
  rw [Firm.run_revocation,Prod.mk.injEq] at hrun
  obtain ⟨-,rfl⟩ := hrun
  have hassignments : footing companyId (Prisma.firmCompanyAssignment.set
      (Table.updateMany (Firm.isActiveOf membershipId) Firm.revokeAssigned s.org.firmCompanyAssignments) s) = φ := by
    refine footing_updateAssignments hs (fun _ => rfl) fun a ha hp => absurd ?_ hid
    simp only [Firm.isActiveOf,Bool.and_eq_true,decide_eq_true_eq] at hp
    obtain ⟨m,hm,hmid⟩ := hout.home a ha hp.2
    exact List.mem_map.mpr ⟨m,hm,hmid.trans hp.1⟩
  exact footing_updateMember hassignments hid fun _ => rfl

theorem harmless_createClientCompany (dto : Firm.CreateCompanyDto) (newCompanyId assignmentId : Uuid) :
    Harmless companyId φ (Firm.createClientCompany firmId userId dto newCompanyId assignmentId) := by
  apply harmless_query_bind
  intro s _ _
  apply harmless_orThrow_bind
  intro firm _
  apply harmless_query_bind
  intro t _ _
  cases (Prisma.company.get t).find? (fun c => c.tin = dto.tin) with
  | some _ => exact harmless_throw
  | none =>
    apply harmless_query_bind
    intro u _ _
    apply harmless_orThrow_bind
    intro membership _
    apply harmless_query_bind
    intro v _ _
    refine harmless_bind (harmless_transaction ?_) fun company => harmless_keeps fun t => ⟨rfl,fun u => ⟨rfl,trivial⟩⟩
    intro w a w' _ hw hrun hkeys
    obtain ⟨-,rfl⟩ := Prod.mk.inj hrun
    have hother : newCompanyId ≠ companyId :=
      ne_of_added hw hout.registered (Firm.companyRow firmId dto newCompanyId) hkeys.companies
    refine footing_setAssignments (footing_addCompany hw (Firm.companyRow firmId dto newCompanyId) hout.registered) ?_
    rw [List.filter_append]
    simp [Firm.assignmentRow,Firm.companyRow,hother,Prisma.firmCompanyAssignment,Prisma.company]

omit hout in
theorem harmless_inviteClientCompany (otherId id : Uuid) :
    Harmless companyId φ (Firm.inviteClientCompany firmId userId otherId id) := by
  apply harmless_query_bind
  intro s _ _
  apply harmless_orThrow_bind
  intro firm _
  apply harmless_query_bind
  intro t _ _
  apply harmless_orThrow_bind
  intro company _
  split
  · exact harmless_throw
  · apply harmless_query_bind
    intro u _ _
    cases (Prisma.firmClientInvitation.get u).find? (Firm.isPendingInvitation firmId otherId) with
    | some _ => exact harmless_throw
    | none => exact harmless_create fun v _ hv _ => hv

/-- A stranger does not own the company, and cannot engage a firm for it. -/
theorem harmless_respondToClientInvitation (hu : strangers userId) (invitationId : Uuid) (accept : Bool) (now : DateTime) :
    Harmless companyId φ (Firm.respondToClientInvitation userId invitationId accept now) := by
  apply harmless_query_bind
  intro s _ _
  apply harmless_orThrow_bind
  intro invitation _
  apply harmless_query_bind
  intro t _ ht
  apply harmless_orThrow_bind
  intro owner howner
  have hother : invitation.companyId ≠ companyId := by
    rintro rfl
    have hrole := List.find?_some howner
    rw [Firm.isOwnerRole,isActiveRole_stranger hout ht hu (List.mem_of_find?_eq_some howner)] at hrole
    cases hrole
  split
  · apply harmless_transaction
    intro v a v' _ hv hrun _
    rw [Prog.run_bind,TableRef.run_update] at hrun
    have hengaged := footing_updateCompany hv hother (f := Firm.setFirm (some invitation.firmId)) fun _ => rfl
    cases hreply : TableRef.updateReply (fun c : Company => c.id = invitation.companyId)
        (Firm.setFirm (some invitation.firmId)) (Prisma.company.get v) with
    | error e =>
      rw [hreply] at hrun
      cases hrun
    | ok company =>
      rw [hreply,Prog.resume_ok,TableRef.run_update,Prod.mk.injEq] at hrun
      obtain ⟨-,rfl⟩ := hrun
      exact hengaged
  · exact harmless_update fun v _ hv => hv

omit hout in
theorem harmless_assertClient_bind {β : Type} (hfirm : ManagedElsewhere φ firmId) {otherId : Uuid} {f : Unit → Request β}
    (hf : otherId ≠ companyId → Harmless companyId φ (f ())) :
    Harmless companyId φ (Firm.assertCompanyBelongsToFirm firmId otherId >>= f) := by
  rw [Firm.assertCompanyBelongsToFirm,Prog.bind_assoc]
  apply harmless_query_bind
  intro s hk hs
  rw [Prog.bind_assoc]
  apply harmless_orThrow_bind
  intro c hfound
  obtain ⟨hfind,hcfirm⟩ := Option.filter_eq_some_iff.mp hfound
  obtain ⟨hc,rfl⟩ := Table.find?_key_some hfind
  exact hf (ne_of_client hk hs hfirm hc (by simpa using hcfirm))

omit hout in
theorem harmless_removeClientCompany (hfirm : ManagedElsewhere φ firmId) (otherId : Uuid) :
    Harmless companyId φ (Firm.removeClientCompany firmId otherId) := by
  refine harmless_assertClient_bind hfirm fun hother => harmless_transaction ?_
  intro s a t _ hs hrun _
  rw [Prog.run_bind,Firm.revokeAssignmentsOfFirm,Prog.run_stmt,Prog.run_done,Prog.resume_ok,TableRef.run_update,
    Prod.mk.injEq] at hrun
  obtain ⟨-,rfl⟩ := hrun
  have hassignments : footing companyId (Prisma.firmCompanyAssignment.set (Table.updateMany
      (Firm.isActiveOfFirm s firmId otherId) Firm.revokeAssigned s.org.firmCompanyAssignments) s) = φ := by
    refine footing_updateAssignments hs (fun _ => rfl) fun a ha hp => absurd ?_ hother
    simp only [Firm.isActiveOfFirm,Bool.and_eq_true,decide_eq_true_eq] at hp
    exact hp.1.1.symm.trans (companyId_of_mem hs ha)
  exact footing_updateCompany hassignments hother (f := Firm.setFirm none) fun _ => rfl

omit hout in
/-- The upsert for another company is of one of its rows. -/
theorem run_upsertAssignment_other {s : Store} {otherId : Uuid} (hother : otherId ≠ companyId) (hs : footing companyId s = φ)
    (membershipId actorId id : Uuid) :
    ∃ assignment rows, (Firm.upsertAssignment membershipId otherId actorId id).run s =
        (.ok assignment,Prisma.firmCompanyAssignment.set rows s) ∧ assignment.companyId = otherId ∧ assignment ∈ rows ∧
      footing companyId (Prisma.firmCompanyAssignment.set rows s) = φ := by
  rw [Firm.upsertAssignment,Prog.run_stmt]
  cases hfound : s.org.firmCompanyAssignments.find? (Firm.isAssignmentOf membershipId otherId) with
  | some found =>
    have hpair := List.find?_some hfound
    refine ⟨_,_,rfl,?_,Table.mem_updateMany_image (List.mem_of_find?_eq_some hfound) hpair,?_⟩
    · simp only [Firm.isAssignmentOf,Bool.and_eq_true,decide_eq_true_eq] at hpair
      exact hpair.2
    · refine footing_updateAssignments hs (fun _ => rfl) fun a ha hp => absurd ?_ hother
      simp only [Firm.isAssignmentOf,Bool.and_eq_true,decide_eq_true_eq] at hp
      exact hp.2.symm.trans (companyId_of_mem hs ha)
  | none =>
    refine ⟨_,_,rfl,rfl,List.mem_append_right _ (List.mem_singleton_self _),footing_setAssignments hs ?_⟩
    simp [Firm.assignmentRow,hother]

omit hout in
theorem harmless_assignStaffToCompany (hfirm : ManagedElsewhere φ firmId) (otherId membershipId : Uuid)
    (permissionCodes : List String) (id : Uuid) :
    Harmless companyId φ (Firm.assignStaffToCompany firmId userId otherId membershipId permissionCodes id) := by
  refine harmless_assertClient_bind hfirm fun hother => ?_
  apply harmless_query_bind
  intro s _ _
  apply harmless_orThrow_bind
  intro member _
  apply harmless_query_bind
  intro t _ _
  split
  · exact harmless_throw
  · apply harmless_transaction
    intro u a u' _ hu hrun hkeys
    obtain ⟨assignment,rows,hupsert,hcompany,hmem,hrows⟩ :=
      run_upsertAssignment_other hother hu membershipId userId id
    rw [Prog.run_bind,hupsert,Prog.resume_ok,Prog.run_bind,TableRef.run_updateMany,Prog.resume_ok,Prog.run_bind,
      TableRef.run_updateMany,Prog.resume_ok,Prog.run_bind,Firm.findAssignmentWithPermissions,Prog.run_query,
      Prog.resume_ok] at hrun
    have hends {ρ : Type} (o : Option ρ) (v : Store) : ((orThrow .database o).run v).2 = v := by cases o <;> rfl
    have hstate := congrArg Prod.snd hrun
    rw [hends] at hstate
    subst hstate
    have hids : (rows.map FirmCompanyAssignment.id).Nodup := by
      have hlast := hkeys.assignmentIds
      simp only [Prisma.firmCompanyAssignment] at hlast
      rwa [Table.map_updateMany (f := Firm.addPermissions _) FirmCompanyAssignment.id (fun _ => rfl),
        Table.map_updateMany (f := Firm.setPermissions []) FirmCompanyAssignment.id (fun _ => rfl)] at hlast
    have hnone : ∀ b ∈ φ.assignments, b.id ≠ assignment.id := by
      intro b hb hid
      have hbrows : b ∈ rows := by
        rw [← hrows] at hb
        exact List.mem_of_mem_filter hb
      obtain rfl : b = assignment := Table.eq_of_key hids hbrows hmem hid
      exact hother (hcompany.symm.trans (companyId_of_mem hrows hb))
    have hcleared := footing_updateAssignments hrows (p := fun b => b.id = assignment.id) (f := Firm.setPermissions [])
      (fun _ => rfl) fun b hb hid => absurd (by simpa using hid) (hnone b hb)
    exact footing_updateAssignments hcleared (p := fun b => b.id = assignment.id)
      (f := Firm.addPermissions (((Prisma.permission.get t).filter fun p => permissionCodes.contains p.code).map Permission.id))
      (fun _ => rfl) fun b hb hid => absurd (by simpa using hid) (hnone b hb)

omit hout in
/-- An assignment through another firm that is still active is to another company. -/
theorem harmless_revokeAssignment (hout : ShutOut strangers φ) (hfirm : ManagedElsewhere φ firmId) (assignmentId : Uuid) :
    Harmless companyId φ (Firm.revokeAssignment firmId assignmentId) := by
  apply harmless_query_bind
  intro s hk hs
  apply harmless_orThrow_bind
  intro found hfound
  obtain ⟨hfind,hmember⟩ := Option.filter_eq_some_iff.mp hfound
  obtain ⟨a,ha,rfl⟩ := Option.map_eq_some_iff.mp hfind
  obtain ⟨hmem,rfl⟩ := Table.find?_key_some ha
  obtain ⟨m,hm,hmfirm⟩ := (Option.any_eq_true _ _).mp hmember
  apply harmless_update
  intro t _ ht
  refine footing_updateAssignments ht (fun _ => rfl) fun b hb hid => ?_
  have hbs : b ∈ s.org.firmCompanyAssignments := by
    rw [← hs] at hb
    exact List.mem_of_mem_filter hb
  obtain rfl : b = a := Table.eq_of_key hk.assignmentIds hbs hmem (by simpa using hid)
  have hrevoked : b.status = .revoked := by
    cases hstatus : b.status with
    | revoked => rfl
    | active =>
      have hin := mem_members_of_active hout hk hs hmem (companyId_of_mem hs hb) hstatus hm
      have hout' := not_mem_members hk hs hfirm (Table.find?_key_some hm).1 (by simpa using hmfirm)
      exact absurd (List.mem_map_of_mem hin) hout'
  cases b
  simp only at hrevoked
  simp [Firm.revokeAssigned,hrevoked]

/-! ## Every request -/

theorem harmless_firm (toLowerCase : String → String) (req : Firm.FirmRequest) (hu : strangers (firmActor req)) :
    Harmless companyId φ (Firm.program toLowerCase req) := by
  cases req with
  | createFirm userId dto firmId membershipId now =>
    exact harmless_discard (harmless_createFirm hout dto firmId membershipId now)
  | inviteFirmStaff userId firmId dto id now =>
    exact harmless_firmGuarded hout hu fun hfirm => harmless_inviteFirmStaff toLowerCase hfirm dto id now
  | acceptFirmInvitation userId membershipId now =>
    exact harmless_discard (harmless_acceptFirmInvitation hout hu membershipId now)
  | updateFirmStaffRole userId firmId membershipId firmRoleCode =>
    exact harmless_firmGuarded hout hu fun hfirm => harmless_updateFirmStaffRole hfirm membershipId firmRoleCode
  | revokeFirmStaff userId firmId membershipId =>
    exact harmless_firmGuarded hout hu fun hfirm => harmless_revokeFirmStaff hout hfirm membershipId
  | createClientCompany userId firmId dto newCompanyId assignmentId =>
    exact harmless_firmGuarded hout hu fun _ => harmless_createClientCompany hout dto newCompanyId assignmentId
  | inviteClientCompany userId firmId otherId id =>
    exact harmless_firmGuarded hout hu fun _ => harmless_inviteClientCompany otherId id
  | respondToClientInvitation userId invitationId accept now =>
    exact harmless_discard (harmless_respondToClientInvitation hout hu invitationId accept now)
  | removeClientCompany userId firmId otherId =>
    exact harmless_firmGuarded hout hu fun hfirm => harmless_removeClientCompany hfirm otherId
  | assignStaffToCompany userId firmId otherId membershipId permissionCodes id =>
    exact harmless_firmGuarded hout hu fun hfirm =>
      harmless_assignStaffToCompany hfirm otherId membershipId permissionCodes id
  | revokeAssignment userId firmId assignmentId =>
    exact harmless_firmGuarded hout hu fun hfirm => harmless_revokeAssignment hout hfirm assignmentId

theorem harmless_program (toLowerCase : String → String) (req : ClientRequest) (hu : strangers req.actor) :
    Harmless companyId φ (req.program toLowerCase) := by
  cases req with
  | updateCompany userId otherId dto =>
    exact harmless_guarded hout hu fun hother => harmless_updateCompany hother dto
  | service userId otherId route =>
    exact harmless_guarded hout hu fun _ => harmless_keeps (keeps_perform aside_accessView otherId route.op)
  | company req =>
    cases req with
    | createCompany userId dto newCompanyId userCompanyRoleId now =>
      exact harmless_discard (harmless_createCompany hout dto newCompanyId userCompanyRoleId now)
    | inviteStaff userId otherId dto id =>
      exact harmless_guarded hout hu fun hother => harmless_inviteStaff toLowerCase hother dto id
    | acceptInvitation userId userCompanyRoleId now =>
      exact harmless_discard (harmless_acceptInvitation hout hu userCompanyRoleId now)
    | revokeStaff userId otherId userCompanyRoleId =>
      exact harmless_guarded hout hu fun hother => harmless_revokeStaff hother userCompanyRoleId
    | firm req => exact harmless_firm hout toLowerCase req hu

end

/-! ## What everybody else is granted -/

section
variable {companyId : Uuid} {s t : Store}

theorem find?_of_filter {ρ : Type} {p q : ρ → Bool} {rows : List ρ} (h : ∀ r, p r = true → q r = true) :
    rows.find? p = (rows.filter q).find? p := by
  rw [List.find?_filter]
  congr 1
  funext r
  cases hp : p r with
  | false => simp
  | true => simp [h r hp]

/-- An active assignment through an active membership of the managing firm. -/
def Footing.isActiveAssignment (φ : Footing) (userId : Uuid) (a : FirmCompanyAssignment) : Bool :=
  decide (a.status = .active) &&
    (φ.members.find? (fun m => m.id = a.firmMembershipId)).any (Identity.isActiveMembership userId)

theorem isActiveAssignment_eq {strangers : Uuid → Prop} {φ : Footing} (hout : ShutOut strangers φ) (hk : AccessKeys s)
    (hs : footing companyId s = φ) (userId : Uuid) {a : FirmCompanyAssignment} (ha : a ∈ φ.assignments) :
    Identity.isActiveAssignment s userId companyId a = φ.isActiveAssignment userId a := by
  have hcompany := companyId_of_mem hs ha
  by_cases hact : a.status = .active
  · obtain ⟨m,hm,hid⟩ := hout.home a ha hact
    have hin : m ∈ s.org.firmMemberships := by
      subst hs
      exact List.mem_of_mem_filter hm
    have hids : (φ.members.map FirmMembership.id).Nodup := by
      subst hs
      exact List.Sublist.nodup (List.filter_sublist.map _) hk.memberships
    have hall : s.org.firmMemberships.find? (fun q => q.id = a.firmMembershipId) = some m := by
      rw [← hid]
      exact Table.find?_of_mem hk.memberships hin
    have hmine : φ.members.find? (fun q => q.id = a.firmMembershipId) = some m := by
      rw [← hid]
      exact Table.find?_of_mem hids hm
    simp [Identity.isActiveAssignment,Footing.isActiveAssignment,hcompany,hall,hmine]
  · simp [Identity.isActiveAssignment,Footing.isActiveAssignment,hact]

theorem firstRole_eq (userId : Uuid) :
    Identity.firstRole s userId companyId = (footing companyId s).roles.find? (Identity.isActiveRole userId companyId) := by
  refine find?_of_filter fun r hr => ?_
  simp only [Identity.isActiveRole,Bool.and_eq_true] at hr
  exact hr.1.2

theorem firstAssignment_eq {strangers : Uuid → Prop} (hout : ShutOut strangers (footing companyId s)) (hk : AccessKeys s)
    (userId : Uuid) : Identity.firstAssignment s userId companyId =
      (footing companyId s).assignments.find? ((footing companyId s).isActiveAssignment userId) := by
  rw [← List.find?_congr fun a ha => isActiveAssignment_eq hout hk rfl userId ha]
  refine find?_of_filter fun a ha => ?_
  simp only [Identity.isActiveAssignment,Bool.and_eq_true] at ha
  exact ha.1.1

/-- The footing decides what the guard grants to whom. -/
theorem grantedCodes_of_footing {strangers : Uuid → Prop} (hout : ShutOut strangers (footing companyId s))
    (hs : AccessKeys s) (ht : AccessKeys t) (h : footing companyId t = footing companyId s) (userId : Uuid) :
    Identity.grantedCodes t userId companyId = Identity.grantedCodes s userId companyId := by
  have hcatalogue : t.identity.roles = s.identity.roles := congrArg Footing.roleCatalogue h
  have hpermissions : t.identity.permissions = s.identity.permissions := congrArg Footing.permissionCatalogue h
  have hroles : Identity.roleCodes t = Identity.roleCodes s := by
    funext r
    simp only [Identity.roleCodes,Identity.permissionCodes,hcatalogue,hpermissions]
  have hassignments : Identity.assignmentCodes t = Identity.assignmentCodes s := by
    funext a
    simp only [Identity.assignmentCodes,Identity.permissionCodes,hpermissions]
  rw [Identity.grantedCodes,Identity.grantedCodes,firstRole_eq,firstRole_eq,firstAssignment_eq (h ▸ hout) ht,
    firstAssignment_eq hout hs,h,hroles,hassignments]

end

/-- Whatever users without a footing on a company send, in any number and with their statements
in any interleaving, none of them comes to be admitted to the company, everybody else's
permissions on it are as they were, and its profile, roles, members and assignments too. -/
theorem strangers_change_nothing (toLowerCase : String → String) (strangers : Uuid → Prop) (companyId : Uuid) {s : Store}
    (hout : ShutOut strangers (footing companyId s)) (hs : AccessKeys s) (c : Config Store Label ApiException Unit)
    (h : Reached (fun t => t = s) AccessKeys (ArrivesFrom toLowerCase strangers)
      (fun t u => accessView u = accessView t) c) :
    (∀ userId, strangers userId → ∀ code, Identity.admits c.state [code] userId companyId = false) ∧
      (∀ userId codes, Identity.admits c.state codes userId companyId = Identity.admits s codes userId companyId) ∧
      footing companyId c.state = footing companyId s := by
  obtain ⟨hk,hfooting⟩ : AccessKeys c.state ∧ footing companyId c.state = footing companyId s := by
    refine (Reached.inv (D := standing companyId (footing companyId s)) ?_ ?_ ?_ h).1
    · rintro t rfl
      exact ⟨hs,rfl⟩
    · rintro p ⟨req,rfl,hu⟩ t _
      exact harmless_program hout toLowerCase req hu t
    · intro t u hview ht
      exact ⟨⟨ht.1.of_view hview,(footing_of_view hview).trans ht.2⟩,trivial⟩
  refine ⟨fun userId hu code => not_admits_stranger hout hk hfooting hu code,fun userId codes => ?_,hfooting⟩
  rw [Bool.eq_iff_iff,Identity.admits_iff,Identity.admits_iff,grantedCodes_of_footing hout hs hk hfooting userId]

instance (s : Store) : Decidable (AccessKeys s) :=
  decidable_of_iff (Org.CompanyKeys s ∧ (s.org.firmCompanyAssignments.map FirmCompanyAssignment.id).Nodup)
    ⟨fun ⟨h₁,h₂⟩ => ⟨h₁,h₂⟩,fun h => ⟨h.toCompanyKeys,h.assignmentIds⟩⟩

/-- A company of one user, and a firm of another. -/
def neighbours : Store where
  identity.roles := [⟨1,"business_owner",[]⟩]
  org :=
    { firmPermissions := [⟨1,"firm:clients:manage"⟩]
      firmRoles := [⟨1,"firm_owner",[1]⟩]
      firms := [⟨100,"CPAs",.accounting_firm,"cpa@example.com",none⟩]
      firmMemberships := [{ id := 200, firmId := 100, userId := 8, firmRoleId := 1, status := .active, invitedAt := 0 }]
      companies := [Org.companyRow Org.carinderia 9]
      userCompanyRoles := [Org.ownerRow 3 9 1 10 0] }

theorem shutOut_neighbours : ShutOut (fun userId => userId = 8) (footing 9 neighbours) := by
  constructor <;> decide

/-- The firm invites the company, which says nothing yet about who may do what on it. -/
theorem strangers_change_nothing_invitation :
    ∃ c, Reached (fun t => t = neighbours) AccessKeys (ArrivesFrom String.toLower fun userId => userId = 8)
        (fun t u => accessView u = accessView t) c ∧
      c.state.org.firmClientInvitations.map FirmClientInvitation.companyId = [9] ∧
      (∀ userId, userId = 8 → ∀ code, Identity.admits c.state [code] userId 9 = false) ∧
      (∀ userId codes, Identity.admits c.state codes userId 9 = Identity.admits neighbours codes userId 9) ∧
      footing 9 c.state = footing 9 neighbours := by
  have hstart : Reached (fun t => t = neighbours) AccessKeys (ArrivesFrom String.toLower fun userId => userId = 8)
      (fun t u => accessView u = accessView t) ⟨neighbours,[]⟩ := .start rfl
  have harrive := hstart.arrive ⟨.company (.firm (.inviteClientCompany 8 100 9 400)),rfl,rfl⟩
  have hguard := harrive.execute (i := 0) rfl (by decide +kernel)
  have hfirm := hguard.execute (i := 0) rfl (by decide +kernel)
  have hcompany := hfirm.execute (i := 0) rfl (by decide +kernel)
  have hpending := hcompany.execute (i := 0) rfl (by decide +kernel)
  have hcreated := hpending.execute (i := 0) rfl (by decide +kernel)
  exact ⟨_,hcreated,by decide +kernel,
    strangers_change_nothing String.toLower (fun userId => userId = 8) 9 shutOut_neighbours (by decide) _ hcreated⟩

end PinoyTax.Tenancy
