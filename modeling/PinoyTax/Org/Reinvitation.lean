import PinoyTax.Foundation.Runs
import PinoyTax.Org.Service

/-! # Inviting staff again

The row of a role stays when the role is revoked, and an invitation is refused for every
row that is there. Whoever has lost a role is told that it is still there, and cannot be
given it again.
-/
namespace PinoyTax.Org
open PinoyTax Foundation

/-- What happens to the staff of a company. -/
inductive StaffRequest
  | inviteStaff (inviterId : Uuid) (dto : InviteStaffDto) (id : Uuid)
  | acceptInvitation (userId userCompanyRoleId : Uuid) (now : DateTime)
  | revokeStaff (userCompanyRoleId : Uuid)
deriving DecidableEq, Repr

/-- The unique columns of a role: `@@unique([userId, companyId, roleId])`. -/
def roleKey (r : UserCompanyRole) : Uuid × Uuid × Uuid := (r.userId,r.companyId,r.roleId)

structure RoleKeys (s : Store) : Prop where
  ids : (s.org.userCompanyRoles.map UserCompanyRole.id).Nodup
  keys : (s.org.userCompanyRoles.map roleKey).Nodup

instance (s : Store) : Decidable (RoleKeys s) :=
  decidable_of_iff ((s.org.userCompanyRoles.map UserCompanyRole.id).Nodup ∧ (s.org.userCompanyRoles.map roleKey).Nodup)
    ⟨fun h => ⟨h.1,h.2⟩,fun h => ⟨h.ids,h.keys⟩⟩

def HoldsRole (s : Store) (userId companyId roleId : Uuid) : Prop :=
  ∃ r ∈ s.org.userCompanyRoles, isRoleOf userId companyId roleId r = true ∧ (r.status = .pending ∨ r.status = .active)

def LostRole (s : Store) (userId companyId roleId : Uuid) : Prop :=
  ∃ r ∈ s.org.userCompanyRoles, isRoleOf userId companyId roleId r = true ∧ r.status = .revoked

instance (s : Store) (userId companyId roleId : Uuid) : Decidable (LostRole s userId companyId roleId) :=
  inferInstanceAs (Decidable (∃ r ∈ _, _))

section
variable (toLowerCase : String → String) (companyId : Uuid)

namespace StaffRequest

def program : StaffRequest → Request UserCompanyRole
  | inviteStaff inviterId dto id => Org.inviteStaff toLowerCase companyId inviterId dto id
  | acceptInvitation userId userCompanyRoleId now => Org.acceptInvitation userId userCompanyRoleId now
  | revokeStaff userCompanyRoleId => Org.revokeStaff companyId userCompanyRoleId

/-- The store after a request. -/
def next (s : Store) (req : StaffRequest) : Store := ((req.program toLowerCase companyId).run s).2

/-- The database accepts each statement of the request. -/
def Accepted (s : Store) (req : StaffRequest) : Prop := Prog.Within RoleKeys (req.program toLowerCase companyId) s

instance (s : Store) (req : StaffRequest) : Decidable (req.Accepted toLowerCase companyId s) :=
  inferInstanceAs (Decidable (Prog.Within RoleKeys _ s))

end StaffRequest

/-- The user and the role of an invitation, if both are there. -/
def addressee (s : Store) (dto : InviteStaffDto) : Option (User × Role) :=
  (s.identity.users.find? (fun u => u.email = toLowerCase dto.email)).bind fun invitee =>
    (s.identity.roles.find? (fun r => r.code = dto.roleCode.code)).map fun role => (invitee,role)

/-- The invitation is there, and accepting it leaves the role as the only change. -/
def Restores (s : Store) (invitee : User) (role : Role) (inviterId id : Uuid) (out : Except ApiException UserCompanyRole × Store) :
    Prop :=
  let invited := invitedRow companyId invitee.id role.id inviterId id
  out = (.ok invited,Prisma.userCompanyRole.set (s.org.userCompanyRoles ++ [invited]) s) ∧
    ∀ now, (acceptInvitation invitee.id invited.id now).run out.2 =
      (.ok (activate now invited),Prisma.userCompanyRole.set (s.org.userCompanyRoles ++ [activate now invited]) s)

/-- A registered user is refused exactly when the role is pending or active, and can otherwise take it. -/
def AnswersInvitation (s : Store) : StaffRequest → Prop
  | .inviteStaff inviterId dto id => ∀ p ∈ addressee toLowerCase s dto,
    (((inviteStaff toLowerCase companyId inviterId dto id).run s).1 = .error companyInvitationExists ↔
        HoldsRole s p.1.id companyId p.2.id) ∧
      (¬ HoldsRole s p.1.id companyId p.2.id →
        Restores companyId s p.1 p.2 inviterId id ((inviteStaff toLowerCase companyId inviterId dto id).run s))
  | _ => True

/-- The invitation is for a role that was revoked. -/
def InvitesRevoked (s : Store) : StaffRequest → Prop
  | .inviteStaff _ dto _ => ∃ p ∈ addressee toLowerCase s dto, LostRole s p.1.id companyId p.2.id
  | _ => False

instance (s : Store) : (req : StaffRequest) → Decidable (InvitesRevoked toLowerCase companyId s req)
  | .inviteStaff _ _ _ => inferInstanceAs (Decidable (∃ p ∈ _, _))
  | .acceptInvitation _ _ _ => .isFalse not_false
  | .revokeStaff _ => .isFalse not_false

end

section
variable {toLowerCase : String → String} {companyId : Uuid} {s : Store}

theorem run_inviteStaff {dto : InviteStaffDto} {invitee : User} {role : Role}
    (haddressee : addressee toLowerCase s dto = some (invitee,role)) (inviterId id : Uuid) :
    (inviteStaff toLowerCase companyId inviterId dto id).run s =
      match s.org.userCompanyRoles.find? (isRoleOf invitee.id companyId role.id) with
      | some _ => (.error companyInvitationExists,s)
      | none => (.ok (invitedRow companyId invitee.id role.id inviterId id),Prisma.userCompanyRole.set
          (s.org.userCompanyRoles ++ [invitedRow companyId invitee.id role.id inviterId id]) s) := by
  obtain ⟨u,hu,hrole⟩ := Option.bind_eq_some_iff.mp haddressee
  obtain ⟨q,hq,hpair⟩ := Option.map_eq_some_iff.mp hrole
  obtain ⟨rfl,rfl⟩ := Prod.mk.inj hpair
  have huser : (Prisma.user.get s).find? (fun u => u.email = toLowerCase dto.email) = some u := hu
  have hcode : (Prisma.role.get s).find? (fun r => r.code = dto.roleCode.code) = some q := hq
  have hget : Prisma.userCompanyRole.get s = s.org.userCompanyRoles := rfl
  rw [inviteStaff,Prog.run_bind,TableRef.run_findUnique,Prog.resume_ok,huser,orThrow_some,Prog.run_bind,Prog.run_done,
    Prog.resume_ok,Prog.run_bind,TableRef.run_findUnique,Prog.resume_ok,hcode,orThrow_some,Prog.run_bind,Prog.run_done,
    Prog.resume_ok,Prog.run_bind,TableRef.run_findFirst,Prog.resume_ok,hget]
  cases s.org.userCompanyRoles.find? (isRoleOf u.id companyId q.id) with
  | some existing => rfl
  | none => rfl

theorem isRoleOf_iff {userId roleId : Uuid} {r : UserCompanyRole} :
    isRoleOf userId companyId roleId r = true ↔ roleKey r = (userId,companyId,roleId) := by
  simp [isRoleOf,roleKey,and_assoc]

/-- Of a user, a company and a role there is one row, so that it is either held or lost. -/
theorem holdsRole_iff (hk : RoleKeys s) {userId roleId : Uuid} {r : UserCompanyRole}
    (hr : r ∈ s.org.userCompanyRoles) (hrole : isRoleOf userId companyId roleId r = true) :
    HoldsRole s userId companyId roleId ↔ ¬ LostRole s userId companyId roleId := by
  have hone {q : UserCompanyRole} (hq : q ∈ s.org.userCompanyRoles) (hqrole : isRoleOf userId companyId roleId q = true) : q = r :=
    Table.eq_of_key hk.keys hq hr ((isRoleOf_iff.mp hqrole).trans (isRoleOf_iff.mp hrole).symm)
  constructor
  · rintro ⟨q,hq,hqrole,hheld⟩ ⟨q',hq',hqrole',hlost⟩
    obtain rfl := hone hq hqrole
    obtain rfl := hone hq' hqrole'
    rw [hlost] at hheld
    simp at hheld
  · intro hnot
    refine ⟨r,hr,hrole,?_⟩
    cases hstatus : r.status with
    | pending => exact .inl rfl
    | active => exact .inr rfl
    | revoked => exact absurd ⟨r,hr,hrole,hstatus⟩ hnot

/-- An invitation that is there can be accepted. -/
theorem run_acceptInvitation_invited {userId roleId inviterId id : Uuid}
    (hid : id ∉ s.org.userCompanyRoles.map UserCompanyRole.id) (now : DateTime) :
    (acceptInvitation userId id now).run (Prisma.userCompanyRole.set
        (s.org.userCompanyRoles ++ [invitedRow companyId userId roleId inviterId id]) s) =
      (.ok (activate now (invitedRow companyId userId roleId inviterId id)),Prisma.userCompanyRole.set
        (s.org.userCompanyRoles ++ [activate now (invitedRow companyId userId roleId inviterId id)]) s) := by
  generalize hrow : invitedRow companyId userId roleId inviterId id = invited
  have hinvited : invited.id = id ∧ invited.userId = userId ∧ invited.status = .pending := by
    rw [← hrow]
    exact ⟨rfl,rfl,rfl⟩
  have hget (rows : List UserCompanyRole) : Prisma.userCompanyRole.get (Prisma.userCompanyRole.set rows s) = rows := rfl
  have hold : s.org.userCompanyRoles.find? (isPendingOf userId id) = none := by
    rw [List.find?_eq_none]
    intro q hq hpending
    simp only [isPendingOf,Bool.and_eq_true,decide_eq_true_eq] at hpending
    exact hid (List.mem_map.mpr ⟨q,hq,hpending.1.1⟩)
  have hfound : (s.org.userCompanyRoles ++ [invited]).find? (isPendingOf userId id) = some invited := by
    simp [List.find?_append,hold,isPendingOf,hinvited]
  have hfresh : invited.id ∉ s.org.userCompanyRoles.map UserCompanyRole.id := hinvited.1 ▸ hid
  have hfind : (s.org.userCompanyRoles ++ [invited]).find? (fun r => r.id = invited.id) = some invited :=
    Table.find?_append_fresh hfresh
  have hupdate : Table.updateMany (fun r => r.id = invited.id) (activate now) (s.org.userCompanyRoles ++ [invited]) =
      s.org.userCompanyRoles ++ [activate now invited] := Table.updateMany_append_fresh hfresh (activate now)
  rw [acceptInvitation,Prog.run_bind,TableRef.run_findFirst,Prog.resume_ok,hget,hfound,orThrow_some,Prog.run_bind,
    Prog.run_done,Prog.resume_ok,TableRef.run_update_of_find (r := invited) (by rw [hget,hfind]),hget,hupdate]
  rfl

/-- Where the row of the role is not, the invitation is made and can be accepted. -/
theorem restores_inviteStaff {dto : InviteStaffDto} {invitee : User} {role : Role} {inviterId id : Uuid}
    (haccepted : (StaffRequest.inviteStaff inviterId dto id).Accepted toLowerCase companyId s)
    (haddressee : addressee toLowerCase s dto = some (invitee,role))
    (hnone : s.org.userCompanyRoles.find? (isRoleOf invitee.id companyId role.id) = none) :
    Restores companyId s invitee role inviterId id ((inviteStaff toLowerCase companyId inviterId dto id).run s) := by
  have hrun := @run_inviteStaff _ companyId _ _ _ _ haddressee inviterId id
  rw [hnone] at hrun
  have hids : ((s.org.userCompanyRoles ++ [invitedRow companyId invitee.id role.id inviterId id]).map
      UserCompanyRole.id).Nodup := by
    have hkeys : RoleKeys ((inviteStaff toLowerCase companyId inviterId dto id).run s).2 := haccepted.run
    rw [hrun] at hkeys
    exact hkeys.ids
  have hid : id ∉ s.org.userCompanyRoles.map UserCompanyRole.id := by
    intro hmem
    rw [List.map_append,List.nodup_append] at hids
    exact hids.2.2 id hmem id (List.mem_singleton_self _) rfl
  rw [hrun]
  exact ⟨rfl,run_acceptInvitation_invited hid⟩

theorem answersInvitation_iff {req : StaffRequest} (hreq : req.Accepted toLowerCase companyId s) :
    AnswersInvitation toLowerCase companyId s req ↔ ¬ InvitesRevoked toLowerCase companyId s req := by
  cases req with
  | acceptInvitation userId userCompanyRoleId now => exact iff_of_true trivial not_false
  | revokeStaff userCompanyRoleId => exact iff_of_true trivial not_false
  | inviteStaff inviterId dto id =>
    have hk : RoleKeys s := hreq.start
    cases haddressee : addressee toLowerCase s dto with
    | none => simp [AnswersInvitation,InvitesRevoked,haddressee]
    | some p =>
      obtain ⟨invitee,role⟩ := p
      have hrun := @run_inviteStaff _ companyId _ _ _ _ haddressee inviterId id
      simp only [AnswersInvitation,InvitesRevoked,haddressee,Option.mem_def,Option.some.injEq,forall_eq',exists_eq_left']
      cases hfind : s.org.userCompanyRoles.find? (isRoleOf invitee.id companyId role.id) with
      | none =>
        have hno : ∀ r ∈ s.org.userCompanyRoles, isRoleOf invitee.id companyId role.id r ≠ true :=
          List.find?_eq_none.mp hfind
        rw [hfind] at hrun
        refine iff_of_true ⟨?_,fun _ => restores_inviteStaff hreq haddressee hfind⟩ ?_
        · rw [hrun]
          refine iff_of_false (fun he => by cases he) ?_
          rintro ⟨r,hr,hrole,-⟩
          exact hno r hr hrole
        · rintro ⟨r,hr,hrole,-⟩
          exact hno r hr hrole
      | some r =>
        have hholds := holdsRole_iff hk (List.mem_of_find?_eq_some hfind) (List.find?_some hfind)
        rw [hfind] at hrun
        rw [hrun,← hholds]
        constructor
        · rintro ⟨hrejected,-⟩
          exact hrejected.mp rfl
        · intro hheld
          exact ⟨iff_of_true rfl hheld,fun hnot => absurd hheld hnot⟩

/-- In every history the invitations of registered users are answered right exactly when none is for a role that was
revoked before. -/
theorem answersInvitation_along_iff {requests : List StaffRequest}
    (haccepted : Runs.Along (StaffRequest.next toLowerCase companyId)
      (fun s req => req.Accepted toLowerCase companyId s) s requests) :
    Runs.Along (StaffRequest.next toLowerCase companyId) (AnswersInvitation toLowerCase companyId) s requests ↔
      Runs.Along (StaffRequest.next toLowerCase companyId) (fun s req => ¬ InvitesRevoked toLowerCase companyId s req)
        s requests :=
  Runs.along_iff (I := fun _ => True) (fun _ _ _ hreq => answersInvitation_iff hreq) (fun _ _ _ _ _ => trivial) trivial
    haccepted

end

/-- A company with a registered user. -/
def hiring : Store where
  identity :=
    { roles := [⟨1,"business_owner",[]⟩,⟨2,"bookkeeper",[]⟩]
      users := [⟨3,"clerk@example.com",none,true,.active,0,none,none⟩] }

def invitation (id : Uuid) : StaffRequest := .inviteStaff 1 ⟨"clerk@example.com",.bookkeeper⟩ id

/-- The clerk is invited, accepts, is invited once more, and loses the role. -/
def staffHistory : List StaffRequest := [invitation 10,.acceptInvitation 3 10 0,invitation 11,.revokeStaff 10]

theorem answersInvitation_along_iff_staffHistory :
    Runs.Along (StaffRequest.next String.toLower 9) (AnswersInvitation String.toLower 9) hiring staffHistory :=
  (answersInvitation_along_iff (by decide +kernel)).mpr (by decide +kernel)

/-- After the revocation the clerk cannot be invited again. -/
theorem staffHistory_not_answered :
    Runs.Along (StaffRequest.next String.toLower 9) (fun s req => req.Accepted String.toLower 9 s) hiring
      (staffHistory ++ [invitation 12]) ∧
    ¬ Runs.Along (StaffRequest.next String.toLower 9) (AnswersInvitation String.toLower 9) hiring
      (staffHistory ++ [invitation 12]) := by
  refine ⟨by decide +kernel,fun h => ?_⟩
  have hlast := (answersInvitation_iff (by decide +kernel)).mp h.2.2.2.2.1
  exact hlast (by decide +kernel)

end PinoyTax.Org
