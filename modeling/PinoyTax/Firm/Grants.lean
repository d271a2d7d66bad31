import PinoyTax.Firm.Owners
import PinoyTax.Foundation.Replay
import Mathlib.Data.List.Perm.Subperm
import Mathlib.Data.Set.Basic

/-! # Grants as the replay of the requests

What a membership may do on a company is spread over memberships, assignments and their
permissions, whose rows are used again. A log that tells only which request granted or
withdrew what decides it as well: only an active membership has active assignments, so
that inviting one again brings none back.
-/
namespace PinoyTax.Firm
open PinoyTax Foundation Foundation.Replay Identity

/-- The membership is active in the firm. -/
def ActiveIn (s : Store) (firmId membershipId : Uuid) : Prop :=
  ∃ m ∈ s.org.firmMemberships, m.id = membershipId ∧ m.firmId = firmId ∧ m.status = .active

/-- The codes that a membership holds on a company: those of the active assignment, if the
membership is active. -/
def effectiveCodes (s : Store) (membershipId companyId : Uuid) : Set String :=
  {code | ∃ a ∈ s.org.firmCompanyAssignments, pairOf a = (membershipId,companyId) ∧ a.status = .active ∧
    code ∈ assignmentCodes s a ∧ ∃ firmId, ActiveIn s firmId membershipId}

/-- What a request grants, and for which firm. -/
structure Grant where
  firmId : Uuid
  codes : List String

abbrev Log := List (Entry (Uuid × Uuid) Grant)

/-- What a request logs if it succeeds. -/
def onSuccess {α : Type} (p : Request α) (s : Store) (entry : α → Option (Entry (Uuid × Uuid) Grant)) :
    Option (Entry (Uuid × Uuid) Grant) := (p.run s).1.toOption.bind entry

/-- What the onboarding of a company grants: all permissions, to the membership of the actor. -/
def onboardingEntry (s : Store) (userId firmId : Uuid) (company : Company) : Option (Entry (Uuid × Uuid) Grant) :=
  (s.org.firmMemberships.find? (isMemberOf userId firmId)).map fun m =>
    .put (m.id,company.id) ⟨firmId,s.identity.permissions.map Permission.code⟩

/-- The entry of a request. -/
def entryOf (s : Store) : FirmRequest → Option (Entry (Uuid × Uuid) Grant)
  | .createClientCompany userId firmId dto companyId assignmentId =>
    onSuccess (guarded "firm:clients:manage" userId firmId (createClientCompany firmId userId dto companyId assignmentId))
      s (onboardingEntry s userId firmId)
  | .assignStaffToCompany userId firmId companyId membershipId permissionCodes id =>
    onSuccess (guarded "firm:clients:assign" userId firmId
      (assignStaffToCompany firmId userId companyId membershipId permissionCodes id))
      s fun _ => some (.put (membershipId,companyId) ⟨firmId,permissionCodes⟩)
  | .revokeAssignment userId firmId assignmentId =>
    onSuccess (guarded "firm:clients:assign" userId firmId (revokeAssignment firmId assignmentId))
      s fun a => some (.drop fun k _ => k = pairOf a)
  | .revokeFirmStaff userId firmId membershipId =>
    onSuccess (guarded "firm:staff:invite" userId firmId (revokeFirmStaff firmId membershipId))
      s fun _ => some (.drop fun k _ => k.1 = membershipId)
  | .removeClientCompany userId firmId companyId =>
    onSuccess (guarded "firm:clients:manage" userId firmId (removeClientCompany firmId companyId))
      s fun _ => some (.drop fun k g => k.2 = companyId ∧ g.firmId = firmId)
  | _ => none

/-- The log of a run. -/
def logOf (toLowerCase : String → String) : Store → List FirmRequest → Log
  | _, [] => []
  | s, req :: requests => (entryOf s req).toList ++ logOf toLowerCase (next toLowerCase s req) requests

/-- The codes of the grant that the log leaves to the pair. -/
def replayedCodes (log : Log) (k : Uuid × Uuid) : Set String := {code | ∃ g, Holds log k g ∧ code ∈ g.codes}

/-- The unique keys that assignments and their permissions have in addition. -/
structure GrantKeys (s : Store) : Prop extends FirmKeys s where
  assignmentIds : (s.org.firmCompanyAssignments.map FirmCompanyAssignment.id).Nodup
  assignmentPairs : (s.org.firmCompanyAssignments.map pairOf).Nodup
  permissionIds : (s.identity.permissions.map Permission.id).Nodup
  permissionCodes : (s.identity.permissions.map Permission.code).Nodup

/-- The database accepts each statement of the request. -/
def Accepted (toLowerCase : String → String) (s : Store) (req : FirmRequest) : Prop :=
  Prog.Within GrantKeys (program toLowerCase req) s

/-! ## The log and the tables -/

/-- The assignment is in force and carries the grant. -/
structure Backs (s : Store) (a : FirmCompanyAssignment) (g : Grant) : Prop where
  mem : a ∈ s.org.firmCompanyAssignments
  active : a.status = .active
  member : ActiveIn s g.firmId a.firmMembershipId
  codes : ∀ code, code ∈ assignmentCodes s a ↔ code ∈ g.codes

/-- The assignments in force are those that the log leaves. -/
structure Represents (s : Store) (log : Log) : Prop where
  backed : ∀ k g, Holds log k g → ∃ a, Backs s a g ∧ pairOf a = k
  logged : ∀ a ∈ s.org.firmCompanyAssignments, a.status = .active → ∃ g, Holds log (pairOf a) g

section
variable {s t : Store} {log : Log}

theorem Represents.effectiveCodes (h : Represents s log) (hk : GrantKeys s) (membershipId companyId : Uuid) :
    effectiveCodes s membershipId companyId = replayedCodes log (membershipId,companyId) := by
  ext code
  constructor
  · rintro ⟨a,ha,hpair,hact,hcode,-⟩
    obtain ⟨g,hg⟩ := h.logged a ha hact
    obtain ⟨b,hb,hbpair⟩ := h.backed _ g hg
    have hsame : b = a := Table.eq_of_key hk.assignmentPairs hb.mem ha hbpair
    subst hsame
    exact ⟨g,hpair ▸ hg,(hb.codes code).mp hcode⟩
  · rintro ⟨g,hg,hcode⟩
    obtain ⟨a,ha,hpair⟩ := h.backed _ g hg
    have hm : a.firmMembershipId = membershipId := congrArg Prod.fst hpair
    exact ⟨a,ha.mem,hpair,ha.active,(ha.codes code).mpr hcode,g.firmId,hm ▸ ha.member⟩

/-- Whoever is active stays so, and the permissions stay the same. -/
structure Continues (s t : Store) : Prop where
  active : ∀ firmId id, ActiveIn s firmId id → ActiveIn t firmId id
  permissions : t.identity.permissions = s.identity.permissions

theorem Continues.refl (s : Store) : Continues s s := ⟨fun _ _ h => h,rfl⟩

theorem assignmentCodes_congr (h : t.identity.permissions = s.identity.permissions) (a : FirmCompanyAssignment) :
    assignmentCodes t a = assignmentCodes s a := by
  unfold assignmentCodes permissionCodes
  rw [h]

theorem Backs.of_continues {a : FirmCompanyAssignment} {g : Grant} (h : Backs s a g) (hst : Continues s t)
    (ha : a ∈ t.org.firmCompanyAssignments) : Backs t a g where
  mem := ha
  active := h.active
  member := hst.active _ _ h.member
  codes := by simpa only [assignmentCodes_congr hst.permissions] using h.codes

/-- Nothing is granted or withdrawn. -/
theorem Represents.keep (h : Represents s log) (hst : Continues s t)
    (hassignments : t.org.firmCompanyAssignments = s.org.firmCompanyAssignments) : Represents t log := by
  constructor
  · intro k g hg
    obtain ⟨a,ha,hpair⟩ := h.backed k g hg
    exact ⟨a,ha.of_continues hst (hassignments ▸ ha.mem),hpair⟩
  · intro a ha hact
    exact h.logged a (hassignments ▸ ha) hact

/-- The pair has a new grant. -/
theorem Represents.put (h : Represents s log) (hst : Continues s t) {b : FirmCompanyAssignment} {g : Grant}
    (hputs : Table.Puts pairOf s.org.firmCompanyAssignments t.org.firmCompanyAssignments b) (hb : Backs t b g) :
    Represents t (log ++ [.put (pairOf b) g]) := by
  constructor
  · intro k g' hg
    rcases holds_put.mp hg with ⟨hk,rfl⟩ | ⟨hold,hk⟩
    · exact ⟨b,hb,hk⟩
    · obtain ⟨a,ha,hpair⟩ := h.backed k g' hold
      have hne : pairOf a ≠ pairOf b := by
        rw [hpair]
        exact hk.symm
      exact ⟨a,ha.of_continues hst ((hputs.others a hne).mpr ha.mem),hpair⟩
  · intro a ha hact
    by_cases hpair : pairOf b = pairOf a
    · exact ⟨g,holds_put.mpr (.inl ⟨hpair,rfl⟩)⟩
    · have hold := (hputs.others a (Ne.symm hpair)).mp ha
      obtain ⟨g',hg'⟩ := h.logged a hold hact
      exact ⟨g',holds_put.mpr (.inr ⟨hg',hpair⟩)⟩

/-- What is covered is withdrawn, and nothing else. -/
theorem Represents.drop (h : Represents s log) (hk : GrantKeys s) {covers : Uuid × Uuid → Grant → Prop}
    (hkept : ∀ a g, Backs s a g → ¬ covers (pairOf a) g → Backs t a g)
    (hgone : ∀ a ∈ t.org.firmCompanyAssignments, a.status = .active → a ∈ s.org.firmCompanyAssignments ∧
      ∀ g, Backs s a g → ¬ covers (pairOf a) g) : Represents t (log ++ [.drop covers]) := by
  constructor
  · intro k g hg
    obtain ⟨hold,hout⟩ := holds_drop.mp hg
    obtain ⟨a,ha,rfl⟩ := h.backed k g hold
    exact ⟨a,hkept a g ha hout,rfl⟩
  · intro a ha hact
    obtain ⟨hmem,hout⟩ := hgone a ha hact
    obtain ⟨g,hg⟩ := h.logged a hmem hact
    obtain ⟨b,hb,hpair⟩ := h.backed _ g hg
    have hsame : b = a := Table.eq_of_key hk.assignmentPairs hb.mem hmem hpair
    subst hsame
    exact ⟨g,holds_drop.mpr ⟨hg,hout g hb⟩⟩

/-- A request whose success is represented is represented. -/
theorem Represents.of_yields {α : Type} {p : Request α} {entry : α → Option (Entry (Uuid × Uuid) Grant)}
    (h : Represents s log) (hp : p.Yields (fun a t => Represents t (log ++ (entry a).toList)) s) :
    Represents (p.run s).2 (log ++ (onSuccess p s entry).toList) := by
  unfold onSuccess
  cases hr : (p.run s).1 with
  | ok a => exact hp.of_ok hr
  | error e =>
    rw [hp.of_error hr]
    simpa [Except.toOption] using h

/-! ## Requests that neither grant nor withdraw -/

theorem Continues.of_members (hmembers : ∀ m ∈ s.org.firmMemberships, m.status = .active →
      ∃ q ∈ t.org.firmMemberships, q.id = m.id ∧ q.firmId = m.firmId ∧ q.status = .active)
    (hpermissions : t.identity.permissions = s.identity.permissions) : Continues s t := by
  refine ⟨?_,hpermissions⟩
  rintro firmId id ⟨m,hm,rfl,rfl,hact⟩
  exact hmembers m hm hact

theorem Continues.of_subset (hmembers : s.org.firmMemberships ⊆ t.org.firmMemberships)
    (hpermissions : t.identity.permissions = s.identity.permissions) : Continues s t :=
  .of_members (fun m hm hact => ⟨m,hmembers hm,rfl,rfl,hact⟩) hpermissions

/-- One membership changes, and stays active if it was. -/
theorem Continues.of_update (s : Store) (id : Uuid) {f : FirmMembership → FirmMembership} (hid : ∀ m, (f m).id = m.id)
    (hfirm : ∀ m, (f m).firmId = m.firmId)
    (hact : ∀ m ∈ s.org.firmMemberships, m.id = id → m.status = .active → (f m).status = .active) :
    Continues s (Prisma.firmMembership.set (Table.updateMany (fun m => m.id = id) f s.org.firmMemberships) s) := by
  refine .of_members (fun m hm hactive => ?_) rfl
  by_cases hx : m.id = id
  · have hmem := Table.mem_updateMany_image (f := f) hm (p := fun m => m.id = id) (by simpa using hx)
    exact ⟨f m,hmem,hid m,hfirm m,hact m hm hx hactive⟩
  · exact ⟨m,Table.mem_updateMany_of_mem hm (by simpa using hx),rfl,rfl,hactive⟩

theorem continues_createFirm (s : Store) (ownerId : Uuid) (dto : CreateFirmDto) (firmId membershipId : Uuid)
    (now : DateTime) : Continues s ((createFirm ownerId dto firmId membershipId now).run s).2 := by
  apply Prog.ends_bind_of_run (TableRef.run_findUnique _ _)
  apply ends_orThrow_bind (.refl s)
  intro ownerRole _
  exact .of_subset (List.subset_append_left _ _) rfl

theorem continues_inviteFirmStaff (hk : GrantKeys s) (toLowerCase : String → String) (firmId inviterId : Uuid)
    (dto : InviteFirmStaffDto) (id : Uuid) (now : DateTime) :
    Continues s ((inviteFirmStaff toLowerCase firmId inviterId dto id now).run s).2 := by
  apply Prog.ends_bind_of_run (TableRef.run_findUnique _ _)
  apply ends_orThrow_bind (.refl s)
  intro invitee _
  apply Prog.ends_bind_of_run (TableRef.run_findUnique _ _)
  apply ends_orThrow_bind (.refl s)
  intro firmRole _
  apply Prog.ends_bind_of_run (TableRef.run_findUnique _ _)
  cases hf : (Prisma.firmMembership.get s).find? (isMemberOf invitee.id firmId) with
  | some existing =>
    dsimp only
    split
    · exact .refl s
    · rename_i hinactive
      rw [TableRef.run_update_state]
      refine .of_update s existing.id (fun _ => rfl) (fun _ => rfl) fun m hm hid hact => ?_
      have he := Table.eq_of_key hk.memberships hm (List.mem_of_find?_eq_some hf) hid
      exact absurd (he ▸ hact) hinactive
  | none => exact .of_subset (List.subset_append_left _ _) rfl

theorem continues_acceptFirmInvitation (s : Store) (userId membershipId : Uuid) (now : DateTime) :
    Continues s ((acceptFirmInvitation userId membershipId now).run s).2 := by
  apply Prog.ends_bind_of_run (TableRef.run_findFirst _ _)
  apply ends_orThrow_bind (.refl s)
  intro invitation _
  rw [TableRef.run_update_state]
  exact .of_update s invitation.id (fun _ => rfl) (fun _ => rfl) fun _ _ _ _ => rfl

theorem continues_updateFirmStaffRole (s : Store) (firmId membershipId : Uuid) (firmRoleCode : AssignableFirmRoleCode) :
    Continues s ((updateFirmStaffRole firmId membershipId firmRoleCode).run s).2 := by
  apply Prog.ends_bind (run_getFirmMembershipOrThrow_state _ _) (.refl s)
  intro membership _
  apply Prog.ends_bind (run_assertNotLastOwner_state _ _ _) (.refl s)
  intro _ _
  apply Prog.ends_bind_of_run (TableRef.run_findUnique _ _)
  apply ends_orThrow_bind (.refl s)
  intro firmRole _
  rw [TableRef.run_update_state]
  exact .of_update s membershipId (fun _ => rfl) (fun _ => rfl) fun _ _ _ hact => hact

/-- The guard reads only. -/
theorem continues_guarded {α : Type} {code : String} {userId firmId : Uuid} {handler : Request α}
    (h : Continues s (handler.run s).2) : Continues s ((guarded code userId firmId handler).run s).2 :=
  Prog.ends_bind (FirmPermissionsGuard.run_canActivate_state code userId firmId s) (.refl s) fun _ _ => h

theorem Continues.of_keeps {α : Type} {p : Request α} (s : Store)
    (h : p.Keeps fun s => (s.org.firmMemberships,s.identity.permissions)) : Continues s (p.run s).2 := by
  have hview := h.run s
  rw [Prod.mk.injEq] at hview
  exact .of_subset (by rw [hview.1]; exact List.Subset.refl _) hview.2

/-! ## Requests that grant -/

theorem permissionCodes_map_id (hk : (s.identity.permissions.map Permission.id).Nodup) {permissions : List Permission}
    (h : permissions ⊆ s.identity.permissions) :
    permissionCodes s (permissions.map Permission.id) = permissions.map Permission.code := by
  rw [permissionCodes,List.filterMap_map,← List.filterMap_eq_map]
  apply List.filterMap_congr
  intro p hp
  have hfind := Table.find?_of_mem hk (h hp)
  simp [hfind]

/-- As many permissions as codes: the codes found are the codes asked for. -/
theorem mem_codes_of_length (hk : (s.identity.permissions.map Permission.code).Nodup) {codes : List String}
    (hlength : (s.identity.permissions.filter fun p => codes.contains p.code).length = codes.length) (code : String) :
    code ∈ (s.identity.permissions.filter fun p => codes.contains p.code).map Permission.code ↔ code ∈ codes := by
  have hnodup : ((s.identity.permissions.filter fun p => codes.contains p.code).map Permission.code).Nodup :=
    hk.sublist (List.filter_sublist.map _)
  have hsubset : (s.identity.permissions.filter fun p => codes.contains p.code).map Permission.code ⊆ codes := by
    intro c hc
    obtain ⟨p,hp,rfl⟩ := List.mem_map.mp hc
    simpa using (List.mem_filter.mp hp).2
  have hperm := (List.subperm_of_subset hnodup hsubset).perm_of_length_le (by rw [List.length_map,hlength])
  exact hperm.mem_iff

theorem yields_createClientCompany (hs : Represents s log) (hk : GrantKeys s) {firmId actorId : Uuid}
    {dto : CreateCompanyDto} {companyId assignmentId : Uuid} (hactor : ∃ m ∈ s.org.firmMemberships,
      m.userId = actorId ∧ m.firmId = firmId ∧ m.status = .active) :
    (createClientCompany firmId actorId dto companyId assignmentId).Yields
      (fun company t => Represents t (log ++ (onboardingEntry s actorId firmId company).toList)) s := by
  apply Prog.yields_query_bind
  apply yields_orThrow_bind
  intro firm _
  apply Prog.yields_query_bind
  cases (Prisma.company.get s).find? (fun c => c.tin = dto.tin) with
  | some _ => exact Prog.yields_throw
  | none =>
    apply Prog.yields_query_bind
    apply yields_orThrow_bind
    intro membership hmembership
    obtain ⟨m,hm,huser,hfirm,hact⟩ := hactor
    have hkey := List.find?_some hmembership
    simp only [isMemberOf,Bool.and_eq_true,decide_eq_true_eq] at hkey
    have hsame : membership = m := by
      refine Table.eq_of_key hk.members (List.mem_of_find?_eq_some hmembership) hm ?_
      simp [memberKey,hkey.1,hkey.2,huser,hfirm]
    subst hsame
    let b := assignmentRow membership.id companyId actorId ((s.identity.permissions.filter fun _ => true).map Permission.id)
      assignmentId
    let t : Store := { s with
      org.companies := s.org.companies ++ [companyRow firmId dto companyId]
      org.firmCompanyAssignments := s.org.firmCompanyAssignments ++ [b]
      published := s.published ++ [.companyCreatedEmitted companyId] ++ [.companyCreated companyId dto.tin] }
    have hentry : onboardingEntry s actorId firmId (companyRow firmId dto companyId) =
        some (.put (pairOf b) ⟨firmId,s.identity.permissions.map Permission.code⟩) := by
      have hfind : s.org.firmMemberships.find? (isMemberOf actorId firmId) = some membership := hmembership
      rw [onboardingEntry,hfind]
      rfl
    have hbacks : Backs t b ⟨firmId,s.identity.permissions.map Permission.code⟩ := by
      refine ⟨by simp [t],rfl,⟨membership,hm,rfl,hfirm,hact⟩,fun code => ?_⟩
      have hcodes : assignmentCodes t b = (s.identity.permissions.filter fun _ => true).map Permission.code :=
        permissionCodes_map_id (s := t) hk.permissionIds (List.filter_subset_self _)
      simp [hcodes]
    change Represents t (log ++ (onboardingEntry s actorId firmId (companyRow firmId dto companyId)).toList)
    rw [hentry]
    exact hs.put (t := t) (.of_subset (List.Subset.refl _) rfl) (.append _ _ b) hbacks

theorem run_orThrow_state {ρ : Type} {e : ApiException} {o : Option ρ} : ((orThrow e o).run s).2 = s :=
  ends_orThrow (Q := fun t => t = s) rfl

/-- The transaction of an assignment. -/
def replacePermissions (membershipId companyId actorId id : Uuid) (permissionIds : List Uuid) :
    Request (FirmCompanyAssignment × List Permission) :=
  upsertAssignment membershipId companyId actorId id >>= fun assignment =>
    Prisma.firmCompanyAssignment.updateMany (fun a => a.id = assignment.id) (setPermissions []) >>= fun _ =>
    Prisma.firmCompanyAssignment.updateMany (fun a => a.id = assignment.id) (addPermissions permissionIds) >>= fun _ =>
    findAssignmentWithPermissions assignment.id >>= orThrow .database

/-- What the transaction leaves: one assignment of the pair, with these permissions. -/
theorem run_replacePermissions {membershipId companyId actorId id : Uuid} {permissionIds : List Uuid}
    {reply : FirmCompanyAssignment × List Permission}
    (hrun : (replacePermissions membershipId companyId actorId id permissionIds).run s = (.ok reply,t))
    (hids : (t.org.firmCompanyAssignments.map FirmCompanyAssignment.id).Nodup) :
    t = Prisma.firmCompanyAssignment.set t.org.firmCompanyAssignments s ∧ ∃ b,
      Table.Puts pairOf s.org.firmCompanyAssignments t.org.firmCompanyAssignments b ∧ pairOf b = (membershipId,companyId) ∧
      b.status = .active ∧ b.permissionIds = permissionIds := by
  obtain ⟨b,assignments,hupsert,hpair,hact,hputs⟩ := run_upsertAssignment (s := s) membershipId companyId actorId id
  have hstate : t = Prisma.firmCompanyAssignment.set (Table.updateMany (fun a => a.id = b.id)
      (addPermissions permissionIds) (Table.updateMany (fun a => a.id = b.id) (setPermissions []) assignments)) s := by
    have hlast := congrArg Prod.snd hrun
    rw [replacePermissions,Prog.run_bind,hupsert,Prog.resume_ok,Prog.run_bind,TableRef.run_updateMany,Prog.resume_ok,
      Prog.run_bind,TableRef.run_updateMany,Prog.resume_ok,findAssignmentWithPermissions,Prog.run_bind,Prog.run_query,
      Prog.resume_ok,run_orThrow_state] at hlast
    exact hlast.symm
  have hnodup : (assignments.map FirmCompanyAssignment.id).Nodup := by
    have hlast : t.org.firmCompanyAssignments = Table.updateMany (fun a => a.id = b.id)
        (addPermissions permissionIds) (Table.updateMany (fun a => a.id = b.id) (setPermissions []) assignments) := by
      rw [hstate]
      rfl
    rwa [hlast,Table.map_updateMany FirmCompanyAssignment.id (f := addPermissions permissionIds) fun _ => rfl,
      Table.map_updateMany FirmCompanyAssignment.id (f := setPermissions []) fun _ => rfl] at hids
  have hcleared := hputs.update hnodup (f := setPermissions []) fun _ => rfl
  have hset := hcleared.update (Table.nodup_updateMany (fun _ => rfl) hnodup) (f := addPermissions permissionIds)
    fun _ => rfl
  constructor
  · rw [hstate]
    rfl
  · refine ⟨addPermissions permissionIds (setPermissions [] b),?_,hpair,hact,List.nil_append permissionIds⟩
    rw [hstate]
    exact hset

theorem yields_assignStaffToCompany (hs : Represents s log) (hk : GrantKeys s)
    {firmId actorId companyId membershipId id : Uuid} {permissionCodes : List String}
    (hids : ∀ r t, (assignStaffToCompany firmId actorId companyId membershipId permissionCodes id).run s = (.ok r,t) →
      GrantKeys t) :
    (assignStaffToCompany firmId actorId companyId membershipId permissionCodes id).Yields
      (fun _ t => Represents t (log ++ [.put (membershipId,companyId) ⟨firmId,permissionCodes⟩])) s := by
  suffices h : (assignStaffToCompany firmId actorId companyId membershipId permissionCodes id).Yields
      (fun _ t => GrantKeys t → Represents t (log ++ [.put (membershipId,companyId) ⟨firmId,permissionCodes⟩])) s by
    unfold Prog.Yields at h ⊢
    cases hrun : (assignStaffToCompany firmId actorId companyId membershipId permissionCodes id).run s with
    | mk r t =>
      rw [hrun] at h
      cases r with
      | ok r => exact h (hids r t hrun)
      | error e => exact h
  apply Prog.Yields.bind (run_assertCompanyBelongsToFirm_state _ _)
  intro _ _
  apply Prog.yields_query_bind
  apply yields_orThrow_bind
  intro m hmember
  obtain ⟨hfind,hm⟩ := Option.filter_eq_some_iff.mp hmember
  obtain ⟨hmem,hmid⟩ := Table.find?_key_some hfind
  simp only [Bool.and_eq_true,decide_eq_true_eq] at hm
  apply Prog.yields_query_bind
  split
  · exact Prog.yields_throw
  · rename_i hlength
    rw [ne_eq,not_not] at hlength
    apply yields_transaction
    intro reply t hrun hkeys
    obtain ⟨hstate,b,hputs,hpair,hact,hpermissions⟩ := run_replacePermissions hrun hkeys.assignmentIds
    have hcont : Continues s t := by
      rw [hstate]
      exact .of_subset (List.Subset.refl _) rfl
    have hcodes : assignmentCodes t b = (s.identity.permissions.filter fun p => permissionCodes.contains p.code).map
        Permission.code := by
      rw [assignmentCodes_congr hcont.permissions,assignmentCodes,hpermissions]
      exact permissionCodes_map_id hk.permissionIds (List.filter_subset_self _)
    have hbacks : Backs t b ⟨firmId,permissionCodes⟩ := by
      have hid : b.firmMembershipId = membershipId := congrArg Prod.fst hpair
      refine ⟨hputs.mem,hact,hid ▸ hcont.active _ _ ⟨m,hmem,hmid,hm.1,hm.2⟩,fun code => ?_⟩
      rw [hcodes]
      exact mem_codes_of_length hk.permissionCodes hlength code
    rw [← hpair]
    exact hs.put hcont hputs hbacks

/-! ## Requests that withdraw -/

theorem yields_revokeFirmStaff (hs : Represents s log) (hk : GrantKeys s) {firmId membershipId : Uuid} :
    (revokeFirmStaff firmId membershipId).Yields
      (fun _ t => Represents t (log ++ [.drop fun k _ => k.1 = membershipId])) s := by
  apply Prog.Yields.bind (run_getFirmMembershipOrThrow_state _ _)
  intro membership _
  apply Prog.Yields.bind (run_assertNotLastOwner_state _ _ _)
  intro _ _
  apply yields_transaction
  intro m t hrun
  rw [run_revocation] at hrun
  obtain rfl : revoked membershipId s = t := congrArg Prod.snd hrun
  apply hs.drop hk
  · intro a g ha hout
    have hne : a.firmMembershipId ≠ membershipId := hout
    obtain ⟨m,hm,hid,hfirm,hact⟩ := ha.member
    have hmember : ActiveIn (revoked membershipId s) g.firmId a.firmMembershipId :=
      ⟨m,Table.mem_updateMany_of_mem hm (by simpa [hid] using hne),hid,hfirm,hact⟩
    have hother : isActiveOf membershipId a = false := by simp [isActiveOf,hne]
    exact ⟨Table.mem_updateMany_of_mem ha.mem hother,ha.active,hmember,ha.codes⟩
  · intro a ha hact
    rcases Table.mem_updateMany_cases ha with ⟨hmem,hother⟩ | ⟨q,-,-,rfl⟩
    · refine ⟨hmem,fun _ _ hcovered => ?_⟩
      have hid : a.firmMembershipId = membershipId := hcovered
      simp [isActiveOf,hid,hact] at hother
    · cases hact

/-- What the firm's removal of a client revokes. -/
theorem isActiveOfFirm_iff (hk : GrantKeys s) {firmId companyId : Uuid} {a : FirmCompanyAssignment} {g : Grant}
    (ha : Backs s a g) : isActiveOfFirm s firmId companyId a = true ↔ a.companyId = companyId ∧ g.firmId = firmId := by
  obtain ⟨m,hm,hid,hfirm,-⟩ := ha.member
  have hfind := Table.find?_of_mem hk.memberships hm
  rw [hid] at hfind
  simp [isActiveOfFirm,ha.active,hfind,hfirm]

theorem yields_removeClientCompany (hs : Represents s log) (hk : GrantKeys s) {firmId companyId : Uuid} :
    (removeClientCompany firmId companyId).Yields
      (fun _ t => Represents t (log ++ [.drop fun k g => k.2 = companyId ∧ g.firmId = firmId])) s := by
  apply Prog.Yields.bind (run_assertCompanyBelongsToFirm_state _ _)
  intro _ _
  apply yields_transaction
  intro c t hrun
  have hlast := congrArg Prod.snd hrun
  rw [Prog.run_bind,revokeAssignmentsOfFirm,Prog.run_stmt,Prog.run_done,Prog.resume_ok,TableRef.run_update_state] at hlast
  subst hlast
  apply hs.drop hk
  · intro a g ha hout
    have hother : isActiveOfFirm s firmId companyId a = false := by
      rw [Bool.eq_false_iff,ne_eq,isActiveOfFirm_iff hk ha]
      exact hout
    exact ⟨Table.mem_updateMany_of_mem ha.mem hother,ha.active,ha.member,ha.codes⟩
  · intro a ha hact
    rcases Table.mem_updateMany_cases ha with ⟨hmem,hother⟩ | ⟨q,-,-,rfl⟩
    · refine ⟨hmem,fun g hg hcovered => ?_⟩
      rw [(isActiveOfFirm_iff hk hg).mpr hcovered] at hother
      cases hother
    · cases hact

theorem yields_revokeAssignment (hs : Represents s log) (hk : GrantKeys s) {firmId assignmentId : Uuid} :
    (revokeAssignment firmId assignmentId).Yields
      (fun a t => Represents t (log ++ [.drop fun k _ => k = pairOf a])) s := by
  apply Prog.yields_query_bind
  apply yields_orThrow_bind
  intro _ _
  apply yields_update rfl
  intro a₀ hfound
  obtain ⟨ha₀,hid₀⟩ := Table.find?_key_some hfound
  apply hs.drop hk
  · intro a g ha hout
    have hne : a.id ≠ assignmentId := by
      rintro hid
      rw [Table.eq_of_key hk.assignmentIds ha.mem ha₀ (hid.trans hid₀.symm)] at hout
      exact hout rfl
    exact ⟨Table.mem_updateMany_of_mem ha.mem (by simpa using hne),ha.active,ha.member,ha.codes⟩
  · intro a ha hact
    rcases Table.mem_updateMany_cases ha with ⟨hmem,hother⟩ | ⟨q,-,-,rfl⟩
    · refine ⟨hmem,fun _ _ hcovered => ?_⟩
      have hsame : a = a₀ := Table.eq_of_key hk.assignmentPairs hmem ha₀ hcovered
      subst hsame
      simp [hid₀] at hother
    · cases hact

/-! ## Runs -/

theorem represents_guarded {α : Type} {code : String} {userId firmId : Uuid} {handler : Request α}
    {entry : α → Option (Entry (Uuid × Uuid) Grant)} (hs : Represents s log)
    (h : (∃ m ∈ s.org.firmMemberships, m.userId = userId ∧ m.firmId = firmId ∧ m.status = .active) →
      (guarded code userId firmId handler).run s = handler.run s →
      handler.Yields (fun a t => Represents t (log ++ (entry a).toList)) s) :
    Represents ((guarded code userId firmId handler).run s).2
      (log ++ (onSuccess (guarded code userId firmId handler) s entry).toList) := by
  apply hs.of_yields
  have hstate := FirmPermissionsGuard.run_canActivate_state code userId firmId s
  apply Prog.Yields.bind hstate
  intro reply hadmitted
  refine h (FirmPermissionsGuard.exists_member_of_canActivate hadmitted) ?_
  rw [guarded,Prog.run_bind,Prod.ext (x := _) (y := (.ok reply,s)) hadmitted hstate,Prog.resume_ok]

/-- A request that keeps the assignments and whoever is active logs nothing. -/
theorem Represents.of_keeps {α : Type} {p : Request α} (hs : Represents s log) (hst : Continues s (p.run s).2)
    (h : p.Keeps fun s => s.org.firmCompanyAssignments) : Represents (p.run s).2 (log ++ []) := by
  rw [List.append_nil]
  exact hs.keep hst (h.run s)

theorem run_program (toLowerCase : String → String) (s : Store) (req : FirmRequest) :
    ((program toLowerCase req).run s).2 = next toLowerCase s req := by
  cases req <;> exact Prog.run_discard_state _ _

/-- A request does to the tables what its entry does to the log. -/
theorem represents_next (toLowerCase : String → String) (hs : Represents s log) (hk : GrantKeys s) {req : FirmRequest}
    (hnext : GrantKeys (next toLowerCase s req)) : Represents (next toLowerCase s req) (log ++ (entryOf s req).toList) := by
  cases req with
  | createFirm userId dto firmId membershipId now =>
    exact hs.of_keeps (continues_createFirm s userId dto firmId membershipId now)
      (keeps_createFirm (fun _ _ => rfl) fun _ _ => rfl)
  | inviteFirmStaff userId firmId dto id now =>
    exact hs.of_keeps (continues_guarded (continues_inviteFirmStaff hk toLowerCase firmId userId dto id now))
      (keeps_guarded (keeps_inviteFirmStaff fun _ _ => rfl))
  | acceptFirmInvitation userId membershipId now =>
    exact hs.of_keeps (continues_acceptFirmInvitation s userId membershipId now)
      (keeps_acceptFirmInvitation fun _ _ => rfl)
  | updateFirmStaffRole userId firmId membershipId firmRoleCode =>
    exact hs.of_keeps (continues_guarded (continues_updateFirmStaffRole s firmId membershipId firmRoleCode))
      (keeps_guarded (keeps_updateFirmStaffRole fun _ _ => rfl))
  | revokeFirmStaff userId firmId membershipId =>
    exact represents_guarded hs fun _ _ => yields_revokeFirmStaff hs hk
  | createClientCompany userId firmId dto companyId assignmentId =>
    exact represents_guarded hs fun hactor _ => yields_createClientCompany hs hk hactor
  | inviteClientCompany userId firmId companyId id =>
    exact hs.of_keeps (.of_keeps s (keeps_guarded (keeps_inviteClientCompany fun _ _ => rfl)))
      (keeps_guarded (keeps_inviteClientCompany fun _ _ => rfl))
  | respondToClientInvitation userId invitationId accept now =>
    exact hs.of_keeps (.of_keeps s (keeps_respondToClientInvitation (fun _ _ => rfl) fun _ _ => rfl))
      (keeps_respondToClientInvitation (fun _ _ => rfl) fun _ _ => rfl)
  | removeClientCompany userId firmId companyId =>
    exact represents_guarded hs fun _ _ => yields_removeClientCompany hs hk
  | assignStaffToCompany userId firmId companyId membershipId permissionCodes id =>
    apply represents_guarded hs
    intro _ hrun
    apply yields_assignStaffToCompany hs hk
    intro reply t hreply
    rw [next,hrun,hreply] at hnext
    exact hnext
  | revokeAssignment userId firmId assignmentId =>
    exact represents_guarded hs fun _ _ => yields_revokeAssignment hs hk

theorem logOf_append (toLowerCase : String → String) (s : Store) (before after : List FirmRequest) :
    logOf toLowerCase s (before ++ after) =
      logOf toLowerCase s before ++ logOf toLowerCase (before.foldl (next toLowerCase) s) after := by
  induction before generalizing s with
  | nil => rfl
  | cons req before ih => simp [logOf,ih]

/-- The log of a run represents what the run leaves. -/
theorem represents_run (toLowerCase : String → String) (hs : Represents s log) (hk : GrantKeys s)
    {requests : List FirmRequest} (haccepted : Runs.Along (next toLowerCase) (Accepted toLowerCase) s requests) :
    GrantKeys (requests.foldl (next toLowerCase) s) ∧
      Represents (requests.foldl (next toLowerCase) s) (log ++ logOf toLowerCase s requests) := by
  induction requests generalizing s log with
  | nil => exact ⟨hk,by simpa [logOf] using hs⟩
  | cons req requests ih =>
    have hnext : GrantKeys (next toLowerCase s req) := by
      rw [← run_program]
      exact haccepted.1.run
    have hrun := ih (represents_next toLowerCase hs hk hnext) hnext haccepted.2
    rw [List.append_assoc] at hrun
    exact hrun

end

/-- The request succeeds. -/
def Succeeds (toLowerCase : String → String) (s : Store) (req : FirmRequest) : Prop :=
  ((program toLowerCase req).run s).1.isOk = true

/-- No request of the run grants the pair anything. -/
def GrantsNothing (toLowerCase : String → String) (s : Store) (requests : List FirmRequest) (k : Uuid × Uuid) : Prop :=
  ∀ g, Entry.put k g ∉ logOf toLowerCase s requests

/-- The revocation of a member is logged. -/
theorem entryOf_revokeFirmStaff {toLowerCase : String → String} {s : Store} {userId firmId membershipId : Uuid}
    (h : Succeeds toLowerCase s (.revokeFirmStaff userId firmId membershipId)) :
    entryOf s (.revokeFirmStaff userId firmId membershipId) = some (.drop fun k _ => k.1 = membershipId) := by
  rw [entryOf,onSuccess]
  rw [Succeeds,program,Prog.discard,Prog.run_bind] at h
  generalize (guarded "firm:staff:invite" userId firmId (revokeFirmStaff firmId membershipId)).run s = out at h ⊢
  obtain ⟨r,t⟩ := out
  cases r with
  | ok m => rfl
  | error e => cases h

/-- Whatever firm requests run one after another, the codes that a membership holds on a
company are those that the replay of the requests leaves to the pair; and after a member
was revoked only a new grant gives the member any. -/
theorem effectiveCodes_eq_replayedCodes (toLowerCase : String → String) {s : Store} (hk : GrantKeys s)
    (hstart : ∀ a ∈ s.org.firmCompanyAssignments, a.status ≠ .active) (requests : List FirmRequest)
    (haccepted : Runs.Along (next toLowerCase) (Accepted toLowerCase) s requests) (membershipId companyId : Uuid) :
    effectiveCodes (requests.foldl (next toLowerCase) s) membershipId companyId =
      replayedCodes (logOf toLowerCase s requests) (membershipId,companyId) ∧
    ∀ before after userId firmId, requests = before ++ .revokeFirmStaff userId firmId membershipId :: after →
      Succeeds toLowerCase (before.foldl (next toLowerCase) s) (.revokeFirmStaff userId firmId membershipId) →
      GrantsNothing toLowerCase ((before ++ [.revokeFirmStaff userId firmId membershipId]).foldl (next toLowerCase) s)
        after (membershipId,companyId) →
      effectiveCodes (requests.foldl (next toLowerCase) s) membershipId companyId = ∅ := by
  have hempty : Represents s [] :=
    ⟨fun k g h => absurd h (not_holds_nil k g),fun a ha hact => absurd hact (hstart a ha)⟩
  obtain ⟨hkeys,hrep⟩ := represents_run toLowerCase hempty hk haccepted
  have heq := hrep.effectiveCodes hkeys membershipId companyId
  refine ⟨heq,?_⟩
  rintro before after userId firmId rfl hrevoked hnothing
  rw [heq,Set.eq_empty_iff_forall_notMem]
  rintro code ⟨g,hg,-⟩
  rw [List.nil_append,logOf_append,logOf,entryOf_revokeFirmStaff hrevoked] at hg
  rw [List.foldl_append] at hnothing
  exact not_holds_of_drop (fun k _ => k.1 = membershipId) rfl (hnothing g) hg

instance (s : Store) : Decidable (GrantKeys s) :=
  decidable_of_iff (FirmKeys s ∧ (s.org.firmCompanyAssignments.map FirmCompanyAssignment.id).Nodup ∧
    (s.org.firmCompanyAssignments.map pairOf).Nodup ∧ (s.identity.permissions.map Permission.id).Nodup ∧
    (s.identity.permissions.map Permission.code).Nodup)
    ⟨fun ⟨h₁,h₂,h₃,h₄,h₅⟩ => ⟨h₁,h₂,h₃,h₄,h₅⟩,
      fun h => ⟨h.toFirmKeys,h.assignmentIds,h.assignmentPairs,h.permissionIds,h.permissionCodes⟩⟩

instance (toLowerCase : String → String) (s : Store) (req : FirmRequest) : Decidable (Accepted toLowerCase s req) :=
  inferInstanceAs (Decidable (Prog.Within GrantKeys (program toLowerCase req) s))

instance (toLowerCase : String → String) (s : Store) (req : FirmRequest) : Decidable (Succeeds toLowerCase s req) :=
  inferInstanceAs (Decidable (_ = true))

/-- A firm with its owner, a member of staff and a client. -/
def practice : Store where
  identity :=
    { permissions := [⟨1,"payroll:read"⟩,⟨2,"payroll:run"⟩]
      users := [⟨1,"owner@example.com",none,true,.active,0,none,none⟩,⟨2,"clerk@example.com",none,true,.active,0,none,none⟩] }
  org :=
    { firms := [⟨100,"CPAs",.accounting_firm,"cpa@example.com",none⟩]
      firmPermissions := [⟨1,"firm:staff:invite"⟩,⟨2,"firm:clients:assign"⟩]
      firmRoles := [⟨1,"firm_owner",[1,2]⟩,⟨2,"firm_bookkeeper",[]⟩]
      firmMemberships := [⟨200,100,1,1,none,.active,0,some 0⟩,⟨201,100,2,2,some 1,.active,0,some 0⟩]
      companies := [⟨300,some 100,"Aling Nena",none,.sole_prop,.non_vat,"000-000-001",none,none,none,none⟩] }

def assignment : FirmRequest := .assignStaffToCompany 1 100 300 201 ["payroll:read"] 400

def revocation : FirmRequest := .revokeFirmStaff 1 100 201

def rehiring : List FirmRequest :=
  [.inviteFirmStaff 1 100 ⟨"clerk@example.com",.firm_bookkeeper⟩ 202 0,.acceptFirmInvitation 2 201 0]

theorem effectiveCodes_eq_replayedCodes_rehired :
    (∃ m ∈ (([assignment,revocation] ++ rehiring).foldl (next String.toLower) practice).org.firmMemberships,
      m.id = 201 ∧ m.status = .active) ∧
    effectiveCodes (([assignment,revocation] ++ rehiring).foldl (next String.toLower) practice) 201 300 = ∅ := by
  refine ⟨by decide +kernel,?_⟩
  have hreplayed := effectiveCodes_eq_replayedCodes String.toLower (s := practice) (by decide) (by decide)
    ([assignment,revocation] ++ rehiring) (by decide +kernel) 201 300
  exact hreplayed.2 [assignment] rehiring 1 100 rfl (by decide +kernel) fun g => List.not_mem_nil

end PinoyTax.Firm
