import PinoyTax.Firm.Requests

/-! # Assignments and the firm that manages the company

An accepted invitation writes the firm of the company without looking at the firm
that manages it so far. This is the only step that can leave an active assignment
behind, and it does so exactly when another firm still has one on the company.
-/
namespace PinoyTax.Firm
open PinoyTax Foundation Foundation.Runs Identity

/-- The invitation that an acceptance by this user puts into effect. -/
def acceptable (s : Store) (userId invitationId : Uuid) : Option FirmClientInvitation :=
  (s.org.firmClientInvitations.find? (fun i => i.id = invitationId)).filter (fun i =>
    isPending i && (s.org.userCompanyRoles.any (isOwnerRole s userId i.companyId) &&
      s.org.companies.any (fun c => c.id = i.companyId)))

/-- An active assignment on the company through a membership of some other firm. -/
def HeldByOther (s : Store) (firmId companyId : Uuid) : Prop :=
  ∃ a ∈ s.org.firmCompanyAssignments, a.status = .active ∧ a.companyId = companyId ∧
    ∃ m ∈ s.org.firmMemberships, m.id = a.firmMembershipId ∧ m.firmId ≠ firmId

/-- An acceptance that takes effect on a company on which another firm has active assignments. -/
def TakesOver (s : Store) : FirmRequest → Prop
  | .respondToClientInvitation userId invitationId accept _ =>
    accept = true ∧ ∃ i, acceptable s userId invitationId = some i ∧ HeldByOther s i.firmId i.companyId
  | _ => False

def engaged (i : FirmClientInvitation) (now : DateTime) (s : Store) : Store :=
  { s with
    org.companies := Table.updateMany (fun c => c.id = i.companyId) (setFirm (some i.firmId)) s.org.companies
    org.firmClientInvitations :=
      Table.updateMany (fun j => j.id = i.id) (respond .accepted now) s.org.firmClientInvitations }

section
variable {s : Store}

theorem run_respond_accept {userId invitationId : Uuid} {i : FirmClientInvitation} (now : DateTime)
    (h : acceptable s userId invitationId = some i) :
    ((respondToClientInvitation userId invitationId true now).run s).2 = engaged i now s := by
  obtain ⟨hfind,hi⟩ := Option.filter_eq_some_iff.mp h
  simp only [Bool.and_eq_true,List.any_eq_true,decide_eq_true_eq] at hi
  obtain ⟨hpending,⟨r,hr,hrole⟩,c,hc,hcid⟩ := hi
  have hid : i.id = invitationId := (Table.find?_key_some hfind).2
  have hinvitation : ((Prisma.firmClientInvitation.get s).find? (fun i => i.id = invitationId)).filter isPending =
      some i := Option.filter_eq_some_iff.mpr ⟨hfind,hpending⟩
  obtain ⟨owner,howner⟩ : ∃ r, s.org.userCompanyRoles.find? (isOwnerRole s userId i.companyId) = some r :=
    Option.isSome_iff_exists.mp (List.find?_isSome.mpr ⟨r,hr,hrole⟩)
  obtain ⟨company,hcompany⟩ : ∃ c, (Prisma.company.get s).find? (fun c => c.id = i.companyId) = some c :=
    Option.isSome_iff_exists.mp (List.find?_isSome.mpr ⟨c,hc,by simpa using hcid⟩)
  have hupdate (companies : List Company) : (Prisma.firmClientInvitation.get (Prisma.company.set companies s)).find?
      (fun j => j.id = invitationId) = some i := hfind
  simp only [respondToClientInvitation,findOwnerRole,Prog.run_bind,TableRef.run_findUnique,Prog.resume_ok,hinvitation,
    orThrow_some,Prog.run_done,Prog.run_query,howner,if_true,run_transaction,TableRef.run_update_of_find hcompany]
  rw [TableRef.run_update_of_find (hupdate _),← hid]
  rfl

/-- An answer that puts no invitation into effect changes invitations at most. -/
theorem sound_respond {userId invitationId : Uuid} {accept : Bool} {now : DateTime} (hs : Consistent s)
    (h : accept = false ∨ acceptable s userId invitationId = none) :
    Sound s ((respondToClientInvitation userId invitationId accept now).run s).2 := by
  apply Prog.ends_bind_of_run (TableRef.run_findUnique _ _)
  apply ends_orThrow_bind (.refl hs)
  intro i hi
  apply Prog.ends_bind_of_run (Prog.run_query _ _ _)
  apply ends_orThrow_bind (.refl hs)
  intro owner howner
  cases accept with
  | false =>
    rw [if_neg Bool.false_ne_true,TableRef.run_update_state]
    exact ⟨⟨hs.companies,hs.memberships,hs.members,hs.firms⟩,fun hall => hall⟩
  | true =>
    have hnone : (Prisma.company.get s).find? (fun c => c.id = i.companyId) = none := by
      obtain ⟨hfind,hpending⟩ := Option.filter_eq_some_iff.mp hi
      rw [List.find?_eq_none]
      intro c hc hcid
      have hfound : acceptable s userId invitationId = some i := by
        refine Option.filter_eq_some_iff.mpr ⟨hfind,?_⟩
        simp only [hpending,Bool.true_and,Bool.and_eq_true,List.any_eq_true]
        exact ⟨⟨owner,List.mem_of_find?_eq_some howner,List.find?_some howner⟩,c,hc,hcid⟩
      rcases h with h | h
      · cases h
      · rw [hfound] at h
        cases h
    rw [if_pos rfl,run_transaction,Prog.run_bind,TableRef.run_update,TableRef.updateReply,hnone]
    exact .refl hs

theorem consistent_engaged (hs : Consistent s) (i : FirmClientInvitation) (now : DateTime) :
    Consistent (engaged i now s) :=
  ⟨Table.nodup_updateMany (fun _ => rfl) hs.companies,hs.memberships,hs.members,hs.firms⟩

/-- Taking a company over leaves no assignment of another firm behind only if there was none. -/
theorem assigned_engaged_iff (hs : Consistent s) (hall : AssignedByManagers s) (i : FirmClientInvitation)
    (now : DateTime) : AssignedByManagers (engaged i now s) ↔ ¬ HeldByOther s i.firmId i.companyId := by
  constructor
  · rintro hnew ⟨a,ha,hact,hcompany,m,hm,hid,hother⟩
    obtain ⟨m',hm',hid',-,c,hc,hcid,hfirm⟩ := hnew a ha hact
    have hsame : m' = m := Table.eq_of_key hs.memberships hm' hm (hid'.trans hid.symm)
    rcases Table.mem_updateMany_cases hc with ⟨-,hne⟩ | ⟨q,-,-,rfl⟩
    · exact of_decide_eq_false hne (hcid.trans hcompany)
    · rw [hsame] at hfirm
      exact hother (Option.some.inj hfirm).symm
  · intro hfree a ha hact
    obtain ⟨m,hm,hid,hmact,c,hc,hcid,hfirm⟩ := hall a ha hact
    by_cases hc' : c.id = i.companyId
    · have hmine : m.firmId = i.firmId := by
        by_contra hother
        exact hfree ⟨a,ha,hact,hcid.symm.trans hc',m,hm,hid,hother⟩
      refine ⟨m,hm,hid,hmact,setFirm (some i.firmId) c,Table.mem_updateMany_image hc (by simpa using hc'),hcid,?_⟩
      rw [hmine]
      rfl
    · exact ⟨m,hm,hid,hmact,c,Table.mem_updateMany_of_mem hc (by simpa using hc'),hcid,hfirm⟩

/-- What one request does: the keys stay, and so does the property unless it is a takeover. -/
theorem consistent_next (toLowerCase : String → String) {req : FirmRequest} (hs : Consistent s) (hfresh : Fresh s req) :
    Consistent (next toLowerCase s req) ∧
      (AssignedByManagers s → (AssignedByManagers (next toLowerCase s req) ↔ ¬ TakesOver s req)) := by
  have hsound : Sound s (next toLowerCase s req) → ¬ TakesOver s req → Consistent (next toLowerCase s req) ∧
      (AssignedByManagers s → (AssignedByManagers (next toLowerCase s req) ↔ ¬ TakesOver s req)) :=
    fun h hfree => ⟨h.consistent,fun hall => iff_of_true (h.assigned hall) hfree⟩
  cases req with
  | createFirm userId dto firmId membershipId now =>
    exact hsound (sound_createFirm hs hfresh.1 hfresh.2) not_false
  | inviteFirmStaff userId firmId dto id now =>
    refine hsound (sound_guarded hs fun m hm _ hfirm _ => ?_) not_false
    exact sound_inviteFirmStaff hs (hfirm ▸ hs.firms m hm) hfresh
  | acceptFirmInvitation userId membershipId now =>
    exact hsound (sound_acceptFirmInvitation hs userId membershipId now) not_false
  | updateFirmStaffRole userId firmId membershipId firmRoleCode =>
    exact hsound (sound_guarded hs fun _ _ _ _ _ => sound_updateFirmStaffRole hs firmId membershipId firmRoleCode)
      not_false
  | revokeFirmStaff userId firmId membershipId =>
    exact hsound (sound_guarded hs fun _ _ _ _ _ => sound_revokeFirmStaff hs firmId membershipId) not_false
  | createClientCompany userId firmId dto companyId assignmentId =>
    refine hsound (sound_guarded hs fun m hm huser hfirm hact => ?_) not_false
    exact sound_createClientCompany hs ⟨m,hm,huser,hfirm,hact⟩ hfresh
  | inviteClientCompany userId firmId companyId id =>
    exact hsound (sound_guarded hs fun _ _ _ _ _ => sound_inviteClientCompany hs firmId userId companyId id) not_false
  | respondToClientInvitation userId invitationId accept now =>
    cases accept with
    | false => exact hsound (sound_respond hs (.inl rfl)) (fun h => Bool.false_ne_true h.1)
    | true =>
      cases hi : acceptable s userId invitationId with
      | none => exact hsound (sound_respond hs (.inr hi)) (by simp [TakesOver,hi])
      | some i =>
        have hnext : next toLowerCase s (.respondToClientInvitation userId invitationId true now) = engaged i now s :=
          run_respond_accept now hi
        rw [hnext]
        refine ⟨consistent_engaged hs i now,fun hall => ?_⟩
        rw [assigned_engaged_iff hs hall i now]
        simp [TakesOver,hi]
  | removeClientCompany userId firmId companyId =>
    exact hsound (sound_guarded hs fun _ _ _ _ _ => sound_removeClientCompany hs firmId companyId) not_false
  | assignStaffToCompany userId firmId companyId membershipId permissionCodes id =>
    refine hsound (sound_guarded hs fun _ _ _ _ _ => ?_) not_false
    exact sound_assignStaffToCompany hs firmId userId companyId membershipId permissionCodes id
  | revokeAssignment userId firmId assignmentId =>
    exact hsound (sound_guarded hs fun _ _ _ _ _ => sound_revokeAssignment hs firmId assignmentId) not_false

/-- In whatever order the rows come, the company guard admits through a firm only
where an active membership of that firm is assigned and the firm manages the company. -/
def AdmitsThroughManagers (s : Store) : Prop :=
  ∀ t, Reordered s t → ∀ (requiredPermissions : List String) (userId companyId : Uuid) (access : Access)
    (a : FirmCompanyAssignment),
    ((canActivate (some requiredPermissions) (some userId) (some companyId)).run t).1 = .ok access →
    access.firmCompanyAssignment = some a → Manages s a.firmMembershipId companyId

theorem firstAssignment_of_canActivate {requiredPermissions : List String} {userId companyId : Uuid} {access : Access}
    {a : FirmCompanyAssignment}
    (h : ((canActivate (some requiredPermissions) (some userId) (some companyId)).run s).1 = .ok access)
    (ha : access.firmCompanyAssignment = some a) : firstAssignment s userId companyId = some a := by
  cases requiredPermissions with
  | nil =>
    cases h
    cases ha
  | cons code codes =>
    rw [run_canActivate] at h
    split at h
    · cases h
    · split at h
      · cases h
        exact ha
      · cases h

theorem AssignedByManagers.admits (hall : AssignedByManagers s) : AdmitsThroughManagers s := by
  intro t ht requiredPermissions userId companyId access a h ha
  have hfirst := firstAssignment_of_canActivate h ha
  have hact := List.find?_some hfirst
  simp only [isActiveAssignment,Bool.and_eq_true,decide_eq_true_eq] at hact
  have hmem : a ∈ s.org.firmCompanyAssignments := ht.assignments.mem_iff.mp (List.mem_of_find?_eq_some hfirst)
  have hmanages := hall a hmem hact.1.2
  rw [hact.1.1] at hmanages
  exact hmanages

end

/-- Each active assignment is of an active member of the managing firm, and the
company guard lets nobody in through any other firm. -/
def WellManaged (s : Store) : Prop := AssignedByManagers s ∧ AdmitsThroughManagers s

theorem wellManaged_iff {s : Store} : WellManaged s ↔ AssignedByManagers s :=
  ⟨fun h => h.1,fun h => ⟨h,h.admits⟩⟩

/-- A store before the first firm. -/
structure Unmanaged (s : Store) : Prop where
  companies : (s.org.companies.map Company.id).Nodup
  firmMemberships : s.org.firmMemberships = []
  firmCompanyAssignments : s.org.firmCompanyAssignments = []

theorem Unmanaged.consistent {s : Store} (h : Unmanaged s) : Consistent s := by
  refine ⟨h.companies,?_,?_,?_⟩ <;> simp [h.firmMemberships]

/-- Every state that a sequence of firm requests reaches is well managed exactly when
no acceptance of the sequence takes a company over while members of another firm are
still actively assigned to it. -/
theorem wellManaged_iff_no_takeover (toLowerCase : String → String) {s : Store} (requests : List FirmRequest)
    (hs : Unmanaged s) (hfresh : Along (next toLowerCase) Fresh s requests) :
    Always (next toLowerCase) WellManaged s requests ↔
      Along (next toLowerCase) (fun s req => ¬ TakesOver s req) s requests := by
  have hstart : WellManaged s := wellManaged_iff.mpr (by simp [AssignedByManagers,hs.firmCompanyAssignments])
  refine always_iff_along (I := Consistent) (fun s req hI hfresh _ _ => (consistent_next toLowerCase hI hfresh).1)
    (fun s req hI hfresh hP => ?_) hs.consistent hstart hfresh
  rw [wellManaged_iff]
  exact (consistent_next toLowerCase hI hfresh).2 hP.1

def sariSari : Company where
  id := 9
  businessName := "Sari-sari"
  businessType := .sole_prop
  vatClassification := .non_vat
  tin := "123-456-789"

/-- Two accountants, and an owner whose company has no firm. -/
def beforeFirms : Store where
  identity :=
    { permissions := [⟨1,"payroll:read"⟩]
      roles := [⟨2,"business_owner",[1]⟩]
      users := [⟨1,"a@example.com",none,true,.active,0,none,none⟩,⟨2,"b@example.com",none,true,.active,0,none,none⟩,
        ⟨3,"owner@example.com",none,true,.active,0,none,none⟩] }
  org :=
    { firmPermissions := [⟨1,"firm:clients:manage"⟩,⟨2,"firm:clients:assign"⟩]
      firmRoles := [⟨1,"firm_owner",[1,2]⟩]
      companies := [sariSari]
      userCompanyRoles := [⟨5,3,9,2,none,.active,none⟩] }

def foundFirm (userId firmId membershipId : Uuid) : FirmRequest :=
  .createFirm userId ⟨"CPAs",.accounting_firm,"cpa@example.com",none⟩ firmId membershipId 0

/-- Both firms invite the company, and its owner accepts the first one. -/
def engagement : List FirmRequest :=
  [foundFirm 1 100 200,foundFirm 2 101 201,.inviteClientCompany 1 100 9 300,.inviteClientCompany 2 101 9 301,
    .respondToClientInvitation 3 300 true 0]

theorem wellManaged_iff_no_takeover_engagement :
    Always (next String.toLower) WellManaged beforeFirms engagement ↔
      Along (next String.toLower) (fun s req => ¬ TakesOver s req) beforeFirms engagement :=
  wellManaged_iff_no_takeover String.toLower engagement ⟨by decide,rfl,rfl⟩
    ⟨⟨by decide,by decide⟩,⟨by decide,by decide⟩,trivial,trivial,trivial,trivial⟩

/-- The first firm assigns its owner, and the owner of the company accepts the second firm too. -/
def takeover : List FirmRequest :=
  engagement ++ [.assignStaffToCompany 1 100 9 200 ["payroll:read"] 400,.respondToClientInvitation 3 301 true 0]

theorem takeover_not_wellManaged :
    Unmanaged beforeFirms ∧ Along (next String.toLower) Fresh beforeFirms takeover ∧
      ¬ Always (next String.toLower) WellManaged beforeFirms takeover := by
  refine ⟨⟨by decide,rfl,rfl⟩,
    ⟨⟨by decide,by decide⟩,⟨by decide,by decide⟩,trivial,trivial,trivial,trivial,trivial,trivial⟩,fun h => ?_⟩
  have hlast := h.last.1 ⟨400,200,9,some 1,.active,[1]⟩ (by decide +kernel) rfl
  unfold Manages at hlast
  exact absurd hlast (by decide +kernel)

end PinoyTax.Firm
