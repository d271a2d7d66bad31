import PinoyTax.Schema.Prisma
import Mathlib.Data.List.Perm.Basic

/-! # PermissionsGuard

The guard looks up one active company role and one active firm assignment and unites
their permission codes. The look-ups have no ordering, so that the row they return is
the first one in whatever order the database has.
-/
namespace PinoyTax.Identity
open PinoyTax Foundation

def forbidden (message : String) : ApiException := .forbidden "FORBIDDEN" message

/-- What the guard attaches to the request. -/
structure Access where
  userCompanyRole : Option UserCompanyRole := none
  firmCompanyAssignment : Option FirmCompanyAssignment := none
deriving DecidableEq, Repr

def permissionCodes (s : Store) (permissionIds : List Uuid) : List String :=
  permissionIds.filterMap (fun id => (s.identity.permissions.find? (fun p => p.id = id)).map Permission.code)

def roleCodes (s : Store) (r : UserCompanyRole) : List String :=
  permissionCodes s (((s.identity.roles.find? (fun q => q.id = r.roleId)).map Role.permissionIds).getD [])

def assignmentCodes (s : Store) (a : FirmCompanyAssignment) : List String := permissionCodes s a.permissionIds

def isActiveRole (userId companyId : Uuid) (r : UserCompanyRole) : Bool :=
  decide (r.userId = userId) && decide (r.companyId = companyId) && decide (r.status = .active)

def isActiveMembership (userId : Uuid) (m : FirmMembership) : Bool :=
  decide (m.userId = userId) && decide (m.status = .active)

/-- An active assignment reached through an active membership of the user. -/
def isActiveAssignment (s : Store) (userId companyId : Uuid) (a : FirmCompanyAssignment) : Bool :=
  decide (a.companyId = companyId) && decide (a.status = .active) &&
    (s.org.firmMemberships.find? (fun m => m.id = a.firmMembershipId)).any (isActiveMembership userId)

def firstRole (s : Store) (userId companyId : Uuid) : Option UserCompanyRole :=
  s.org.userCompanyRoles.find? (isActiveRole userId companyId)

def firstAssignment (s : Store) (userId companyId : Uuid) : Option FirmCompanyAssignment :=
  s.org.firmCompanyAssignments.find? (isActiveAssignment s userId companyId)

/-- The role with its permissions included. -/
def findUserCompanyRole (userId companyId : Uuid) : Request (Option (UserCompanyRole × List String)) :=
  .query (.on .userCompanyRole .findFirst) (fun s =>
    (firstRole s userId companyId).map (fun r => (r,roleCodes s r)))

def findFirmCompanyAssignment (userId companyId : Uuid) :
    Request (Option (FirmCompanyAssignment × List String)) :=
  .query (.on .firmCompanyAssignment .findFirst) (fun s =>
    (firstAssignment s userId companyId).map (fun a => (a,assignmentCodes s a)))

def canActivate (requiredPermissions : Option (List String)) (userId companyId : Option Uuid) : Request Access :=
  match requiredPermissions.getD [] with
  | [] => pure {}
  | code :: codes =>
    match userId, companyId with
    | some userId, some companyId => do
      let userCompanyRole ← findUserCompanyRole userId companyId
      let firmCompanyAssignment ← findFirmCompanyAssignment userId companyId
      if userCompanyRole.isNone && firmCompanyAssignment.isNone then
        .throw (forbidden "You do not have access to this company.")
      else
        let grantedCodes := (userCompanyRole.map Prod.snd).getD [] ++ (firmCompanyAssignment.map Prod.snd).getD []
        if (code :: codes).all grantedCodes.contains then
          pure ⟨userCompanyRole.map Prod.fst,firmCompanyAssignment.map Prod.fst⟩
        else .throw (forbidden "Your role does not permit this action.")
    | _, _ => .throw (forbidden "You do not have access to this resource.")

def admits (s : Store) (requiredPermissions : List String) (userId companyId : Uuid) : Bool :=
  ((canActivate (some requiredPermissions) (some userId) (some companyId)).run s).1.isOk

/-- The codes that the guard unites. -/
def grantedCodes (s : Store) (userId companyId : Uuid) : List String :=
  ((firstRole s userId companyId).map (roleCodes s)).getD [] ++
    ((firstAssignment s userId companyId).map (assignmentCodes s)).getD []

theorem run_canActivate (s : Store) (code : String) (codes : List String) (userId companyId : Uuid) :
    ((canActivate (some (code :: codes)) (some userId) (some companyId)).run s).1 =
      if (firstRole s userId companyId).isNone && (firstAssignment s userId companyId).isNone then
        .error (forbidden "You do not have access to this company.")
      else if (code :: codes).all (grantedCodes s userId companyId).contains then
        .ok ⟨firstRole s userId companyId,firstAssignment s userId companyId⟩
      else .error (forbidden "Your role does not permit this action.") := by
  simp only [canActivate,Option.getD_some,findUserCompanyRole,findFirmCompanyAssignment,Prog.run_bind,
    Prog.run_query,Prog.resume_ok]
  rcases Option.eq_none_or_eq_some (firstRole s userId companyId) with hr | ⟨r,hr⟩ <;>
    rcases Option.eq_none_or_eq_some (firstAssignment s userId companyId) with ha | ⟨a,ha⟩
  · simp [hr,ha]
  · simp only [grantedCodes,hr,ha,Option.map_none,Option.map_some,Option.isNone_none,Option.isNone_some,
      Bool.and_false,Bool.false_eq_true,if_false]
    split <;> rfl
  · simp only [grantedCodes,hr,ha,Option.map_none,Option.map_some,Option.isNone_some,Bool.false_and,
      Bool.false_eq_true,if_false]
    split <;> rfl
  · simp only [grantedCodes,hr,ha,Option.map_some,Option.isNone_some,Bool.false_and,Bool.false_eq_true,if_false]
    split <;> rfl

/-- The guard admits exactly when its two rows cover what the route requires. -/
theorem admits_iff (s : Store) (requiredPermissions : List String) (userId companyId : Uuid) :
    admits s requiredPermissions userId companyId = true ↔
      ∀ code ∈ requiredPermissions, code ∈ grantedCodes s userId companyId := by
  cases requiredPermissions with
  | nil => exact ⟨fun _ code hc => absurd hc List.not_mem_nil,fun _ => rfl⟩
  | cons code codes =>
    rw [admits,run_canActivate]
    by_cases hnone : ((firstRole s userId companyId).isNone && (firstAssignment s userId companyId).isNone) = true
    · rw [if_pos hnone]
      have hempty : grantedCodes s userId companyId = [] := by
        rw [Bool.and_eq_true,Option.isNone_iff_eq_none,Option.isNone_iff_eq_none] at hnone
        simp [grantedCodes,hnone.1,hnone.2]
      constructor
      · intro h
        cases h
      · intro h
        have hc := h code List.mem_cons_self
        rw [hempty] at hc
        cases hc
    · rw [if_neg hnone]
      by_cases hall : (code :: codes).all (grantedCodes s userId companyId).contains = true
      · rw [if_pos hall]
        exact ⟨fun _ => by simpa using hall,fun _ => rfl⟩
      · rw [if_neg hall]
        constructor
        · intro h
          cases h
        · intro h
          exact absurd (List.all_eq_true.mpr fun c hc => List.contains_iff_mem.mpr (h c hc)) hall

/-! ## All rows, in any order -/

/-- The same store with the matching rows in some other order. -/
structure Reordered (s t : Store) : Prop where
  roles : t.org.userCompanyRoles.Perm s.org.userCompanyRoles
  assignments : t.org.firmCompanyAssignments.Perm s.org.firmCompanyAssignments
  firmMemberships : t.org.firmMemberships = s.org.firmMemberships
  identity : t.identity = s.identity

def GrantedByRole (s : Store) (userId companyId : Uuid) (code : String) : Prop :=
  ∃ r ∈ s.org.userCompanyRoles, isActiveRole userId companyId r = true ∧ code ∈ roleCodes s r

def GrantedByAssignment (s : Store) (userId companyId : Uuid) (code : String) : Prop :=
  ∃ a ∈ s.org.firmCompanyAssignments, isActiveAssignment s userId companyId a = true ∧ code ∈ assignmentCodes s a

/-- Some active role of the user on the company, or some active assignment, grants the code. -/
def Granted (s : Store) (userId companyId : Uuid) (code : String) : Prop :=
  GrantedByRole s userId companyId code ∨ GrantedByAssignment s userId companyId code

def GrantedByEveryRole (s : Store) (userId companyId : Uuid) (code : String) : Prop :=
  (∃ r ∈ s.org.userCompanyRoles, isActiveRole userId companyId r = true) ∧
    ∀ r ∈ s.org.userCompanyRoles, isActiveRole userId companyId r = true → code ∈ roleCodes s r

def GrantedByEveryAssignment (s : Store) (userId companyId : Uuid) (code : String) : Prop :=
  (∃ a ∈ s.org.firmCompanyAssignments, isActiveAssignment s userId companyId a = true) ∧
    ∀ a ∈ s.org.firmCompanyAssignments, isActiveAssignment s userId companyId a = true → code ∈ assignmentCodes s a

section Reorder
variable {s t : Store} {userId companyId : Uuid} {code : String}

theorem Reordered.roleCodes_eq (h : Reordered s t) : roleCodes t = roleCodes s := by
  funext r
  simp only [roleCodes,permissionCodes,h.identity]

theorem Reordered.assignmentCodes_eq (h : Reordered s t) : assignmentCodes t = assignmentCodes s := by
  funext a
  simp only [assignmentCodes,permissionCodes,h.identity]

theorem Reordered.isActiveAssignment_eq (h : Reordered s t) :
    isActiveAssignment t userId companyId = isActiveAssignment s userId companyId := by
  funext a
  simp only [isActiveAssignment,h.firmMemberships]

theorem mem_grantedCodes : code ∈ grantedCodes s userId companyId ↔
    (∃ r, firstRole s userId companyId = some r ∧ code ∈ roleCodes s r) ∨
      ∃ a, firstAssignment s userId companyId = some a ∧ code ∈ assignmentCodes s a := by
  unfold grantedCodes
  cases firstRole s userId companyId <;> cases firstAssignment s userId companyId <;> simp

theorem granted_of_mem_grantedCodes (h : Reordered s t) (hc : code ∈ grantedCodes t userId companyId) :
    Granted s userId companyId code := by
  rcases mem_grantedCodes.mp hc with ⟨r,hr,hcode⟩ | ⟨a,ha,hcode⟩
  · rw [h.roleCodes_eq] at hcode
    exact .inl ⟨r,h.roles.mem_iff.mp (List.mem_of_find?_eq_some hr),List.find?_some hr,hcode⟩
  · rw [h.assignmentCodes_eq] at hcode
    have hact := List.find?_some ha
    rw [h.isActiveAssignment_eq] at hact
    exact .inr ⟨a,h.assignments.mem_iff.mp (List.mem_of_find?_eq_some ha),hact,hcode⟩

/-- A code that every row of one kind grants is granted whatever row is found. -/
theorem mem_grantedCodes_of_every (h : Reordered s t)
    (hc : GrantedByEveryRole s userId companyId code ∨ GrantedByEveryAssignment s userId companyId code) :
    code ∈ grantedCodes t userId companyId := by
  rw [mem_grantedCodes]
  rcases hc with ⟨⟨r,hr,hact⟩,hall⟩ | ⟨⟨a,ha,hact⟩,hall⟩
  · cases hf : firstRole t userId companyId with
    | none => exact absurd hact (List.find?_eq_none.mp hf r (h.roles.mem_iff.mpr hr))
    | some q =>
      refine .inl ⟨q,rfl,?_⟩
      rw [h.roleCodes_eq]
      exact hall q (h.roles.mem_iff.mp (List.mem_of_find?_eq_some hf)) (List.find?_some hf)
  · cases hf : firstAssignment t userId companyId with
    | none =>
      rw [← h.isActiveAssignment_eq] at hact
      exact absurd hact (List.find?_eq_none.mp hf a (h.assignments.mem_iff.mpr ha))
    | some q =>
      refine .inr ⟨q,rfl,?_⟩
      have hq := List.find?_some hf
      rw [h.isActiveAssignment_eq] at hq
      rw [h.assignmentCodes_eq]
      exact hall q (h.assignments.mem_iff.mp (List.mem_of_find?_eq_some hf)) hq

end Reorder

/-! ## The order that shows a gap -/

/-- The list with a row of it moved to the front. -/
def moveToFront {ρ : Type} [DecidableEq ρ] (row : Option ρ) (rows : List ρ) : List ρ :=
  match row with
  | some r => r :: rows.erase r
  | none => rows

theorem perm_moveToFront {ρ : Type} [DecidableEq ρ] {row : Option ρ} {rows : List ρ} (h : ∀ r ∈ row, r ∈ rows) :
    (moveToFront row rows).Perm rows := by
  cases row with
  | none => exact List.Perm.refl _
  | some r => exact (List.perm_cons_erase (h r rfl)).symm

/-- Rows that do not grant the code can be the ones found: some row of the kind that
does not, or none when the kind has no row at all. -/
theorem exists_gap {ρ : Type} [DecidableEq ρ] {rows : List ρ} {active : ρ → Bool} {codes : ρ → List String}
    {code : String} (h : ¬ ((∃ r ∈ rows, active r = true) ∧ ∀ r ∈ rows, active r = true → code ∈ codes r)) :
    ∃ row : Option ρ, (∀ r ∈ row, r ∈ rows) ∧
      ∀ r, (moveToFront row rows).find? active = some r → code ∉ codes r := by
  by_cases hex : ∃ r ∈ rows, active r = true
  · have hall : ¬ ∀ r ∈ rows, active r = true → code ∈ codes r := fun hall => h ⟨hex,hall⟩
    push Not at hall
    obtain ⟨r,hr,hact,hcode⟩ := hall
    refine ⟨some r,fun q hq => by cases hq; exact hr,?_⟩
    intro q hq
    simp only [moveToFront,List.find?_cons,hact,Option.some.injEq] at hq
    subst hq
    exact hcode
  · refine ⟨none,fun q hq => (by cases hq),?_⟩
    intro q hq
    exact absurd ⟨q,List.mem_of_find?_eq_some hq,List.find?_some hq⟩ hex

theorem exists_reordered_gap {s : Store} {userId companyId : Uuid} {code : String}
    (hr : ¬ GrantedByEveryRole s userId companyId code) (ha : ¬ GrantedByEveryAssignment s userId companyId code) :
    ∃ t, Reordered s t ∧ code ∉ grantedCodes t userId companyId := by
  obtain ⟨role,hrole,hrgap⟩ := exists_gap hr
  obtain ⟨assignment,hassignment,hagap⟩ := exists_gap ha
  let t : Store := { s with
    org.userCompanyRoles := moveToFront role s.org.userCompanyRoles
    org.firmCompanyAssignments := moveToFront assignment s.org.firmCompanyAssignments }
  have ht : Reordered s t := ⟨perm_moveToFront hrole,perm_moveToFront hassignment,rfl,rfl⟩
  refine ⟨t,ht,?_⟩
  rw [mem_grantedCodes]
  rintro (⟨r,hr,hcode⟩ | ⟨a,ha,hcode⟩)
  · exact hrgap r hr hcode
  · exact hagap a ha hcode

/-- In every order of the rows the guard decides by the union of all grants exactly
when a required code is not granted at all, or each required code is granted by every
active role on the company or by every active assignment. -/
theorem admits_union_iff (s : Store) (requiredPermissions : List String) (userId companyId : Uuid) :
    (∀ t, Reordered s t → (admits t requiredPermissions userId companyId = true ↔
        ∀ code ∈ requiredPermissions, Granted s userId companyId code)) ↔
      (∃ code ∈ requiredPermissions, ¬ Granted s userId companyId code) ∨
        ∀ code ∈ requiredPermissions,
          GrantedByEveryRole s userId companyId code ∨ GrantedByEveryAssignment s userId companyId code := by
  constructor
  · intro h
    by_cases hall : ∀ code ∈ requiredPermissions, Granted s userId companyId code
    · right
      intro code hcode
      by_contra hnone
      rw [not_or] at hnone
      obtain ⟨t,ht,hgap⟩ := exists_reordered_gap hnone.1 hnone.2
      exact hgap ((admits_iff t requiredPermissions userId companyId).mp ((h t ht).mpr hall) code hcode)
    · left
      push Not at hall
      exact hall
  · rintro (⟨code,hcode,hnot⟩ | hevery) t ht
    · rw [admits_iff]
      constructor
      · intro h
        exact absurd (granted_of_mem_grantedCodes ht (h code hcode)) hnot
      · intro h
        exact absurd (h code hcode) hnot
    · rw [admits_iff]
      constructor
      · intro h code hcode
        exact granted_of_mem_grantedCodes ht (h code hcode)
      · intro _ code hcode
        exact mem_grantedCodes_of_every ht (hevery code hcode)

/-- A user who is both staff and accountant of one company. -/
def twoRoles : Store where
  identity :=
    { permissions := [⟨1,"payroll:read"⟩,⟨2,"payroll:finalize"⟩]
      roles := [⟨3,"staff",[1]⟩,⟨4,"accountant",[1,2]⟩] }
  org.userCompanyRoles := [⟨5,7,9,3,none,.active,none⟩,⟨6,7,9,4,none,.active,none⟩]

/-- The second role grants what the first one lacks, and the guard refuses. -/
theorem twoRoles_refused :
    ¬ ∀ t, Reordered twoRoles t → (admits t ["payroll:finalize"] 7 9 = true ↔
      ∀ code ∈ ["payroll:finalize"], Granted twoRoles 7 9 code) := by
  intro h
  have hgranted : ∀ code ∈ ["payroll:finalize"], Granted twoRoles 7 9 code := by
    intro code hcode
    obtain rfl := List.mem_singleton.mp hcode
    exact .inl ⟨⟨6,7,9,4,none,.active,none⟩,by decide,by decide,by decide⟩
  have hadmits := (h twoRoles ⟨List.Perm.refl _,List.Perm.refl _,rfl,rfl⟩).mpr hgranted
  exact absurd hadmits (by decide +kernel)

end PinoyTax.Identity
