import PinoyTax.Identity.PermissionsGuard

/-! # FirmPermissionsGuard -/
namespace PinoyTax.Identity.FirmPermissionsGuard
open PinoyTax Foundation

/-- The codes that the firm role of a membership grants. -/
def firmPermissionCodes (s : Store) (m : FirmMembership) : List String :=
  let firmPermissionIds := ((s.org.firmRoles.find? (fun r => r.id = m.firmRoleId)).map FirmRole.firmPermissionIds).getD []
  firmPermissionIds.filterMap (fun id =>
    (s.org.firmPermissions.find? (fun p => p.id = id)).map FirmPermission.code)

def isActiveMember (userId firmId : Uuid) (m : FirmMembership) : Bool :=
  decide (m.userId = userId) && decide (m.firmId = firmId) && decide (m.status = .active)

def findFirmMembership (userId firmId : Uuid) : Request (Option (FirmMembership × List String)) :=
  .query (.on .firmMembership .findFirst) (fun s =>
    (s.org.firmMemberships.find? (isActiveMember userId firmId)).map (fun m => (m,firmPermissionCodes s m)))

/-- The reply is the membership that the guard attaches to the request. -/
def canActivate (requiredPermissions : Option (List String)) (userId firmId : Option Uuid) :
    Request (Option FirmMembership) :=
  match requiredPermissions.getD [] with
  | [] => pure none
  | code :: codes =>
    match userId, firmId with
    | some userId, some firmId => do
      match ← findFirmMembership userId firmId with
      | none => .throw (forbidden "You do not have access to this firm.")
      | some (membership,grantedCodes) =>
        if (code :: codes).all grantedCodes.contains then pure (some membership)
        else .throw (forbidden "Your firm role does not permit this action.")
    | _, _ => .throw (forbidden "You do not have access to this resource.")

theorem run_canActivate_state (code : String) (userId firmId : Uuid) (s : Store) :
    ((canActivate (some [code]) (some userId) (some firmId)).run s).2 = s := by
  simp only [canActivate,Option.getD_some,findFirmMembership,Prog.run_bind,Prog.run_query,Prog.resume_ok]
  cases s.org.firmMemberships.find? (isActiveMember userId firmId) with
  | none => rfl
  | some m =>
    dsimp only [Option.map_some]
    split <;> rfl

/-- Whom the guard admits has an active membership of the firm. -/
theorem exists_member_of_canActivate {code : String} {userId firmId : Uuid} {s : Store} {reply : Option FirmMembership}
    (h : ((canActivate (some [code]) (some userId) (some firmId)).run s).1 = .ok reply) :
    ∃ m ∈ s.org.firmMemberships, m.userId = userId ∧ m.firmId = firmId ∧ m.status = .active := by
  simp only [canActivate,Option.getD_some,findFirmMembership,Prog.run_bind,Prog.run_query,Prog.resume_ok] at h
  cases hf : s.org.firmMemberships.find? (isActiveMember userId firmId) with
  | none => simp [hf] at h
  | some m =>
    have hm := List.find?_some hf
    simp only [isActiveMember,Bool.and_eq_true,decide_eq_true_eq] at hm
    exact ⟨m,List.mem_of_find?_eq_some hf,hm.1.1,hm.1.2,hm.2⟩

end PinoyTax.Identity.FirmPermissionsGuard
