import PinoyTax.Firm.Grants

/-! # Lists of permission codes

An assignment is given by a list of codes, and the catalogue is asked for them all at
once. The reply is compared with the list by its length, so that a list is taken for
invalid when it names a code twice.
-/
namespace PinoyTax.Firm
open PinoyTax Foundation Identity

/-- The codes that there are. -/
def catalogue (s : Store) : List String := s.identity.permissions.map Permission.code

/-- The assignment of a member to a company, as a request. -/
structure StaffAssignment where
  firmId : Uuid
  actorId : Uuid
  companyId : Uuid
  membershipId : Uuid
  permissionCodes : List String
  id : Uuid

namespace StaffAssignment

def program (req : StaffAssignment) : Request (FirmCompanyAssignment × List Permission) :=
  assignStaffToCompany req.firmId req.actorId req.companyId req.membershipId req.permissionCodes req.id

/-- The company is a client of the firm and the member active in it; the id for a new row is not taken. -/
structure Admissible (req : StaffAssignment) (s : Store) : Prop where
  company : ∃ c, s.org.companies.find? (fun c => c.id = req.companyId) = some c ∧ c.firmId = some req.firmId
  member : ∃ m, s.org.firmMemberships.find? (fun m => m.id = req.membershipId) = some m ∧ m.firmId = req.firmId ∧
    m.status = .active
  fresh : req.id ∉ s.org.firmCompanyAssignments.map FirmCompanyAssignment.id

/-- The assignment of the pair is active with exactly these codes, and nothing else has changed. -/
structure Assigned (req : StaffAssignment) (s t : Store) : Prop where
  row : ∃ a ∈ t.org.firmCompanyAssignments, pairOf a = (req.membershipId,req.companyId) ∧ a.status = .active ∧
    ∀ code, code ∈ assignmentCodes t a ↔ code ∈ req.permissionCodes
  pairs : (t.org.firmCompanyAssignments.map pairOf).Nodup
  others : ∀ a, pairOf a ≠ (req.membershipId,req.companyId) →
    (a ∈ t.org.firmCompanyAssignments ↔ a ∈ s.org.firmCompanyAssignments)
  rest : t = Prisma.firmCompanyAssignment.set t.org.firmCompanyAssignments s

/-- The request is rejected for a code that there is not, and otherwise does what it says. -/
structure Answered (req : StaffAssignment) (s : Store) : Prop where
  rejected : (req.program.run s).1 = .error invalidPermissionCode ↔ ∃ code ∈ req.permissionCodes, code ∉ catalogue s
  assigned : (∀ code ∈ req.permissionCodes, code ∈ catalogue s) →
    ∃ reply t, req.program.run s = (.ok reply,t) ∧ req.Assigned s t
  unchanged : ∀ e, (req.program.run s).1 = .error e → (req.program.run s).2 = s

end StaffAssignment

section
variable {s : Store}

/-- The permissions of the codes. -/
def listed (codes : List String) (s : Store) : List Permission :=
  s.identity.permissions.filter fun p => codes.contains p.code

/-- There are as many as codes exactly when no code is named twice and each is in the catalogue. -/
theorem length_listed_iff (hk : (catalogue s).Nodup) (codes : List String) :
    (listed codes s).length = codes.length ↔ codes.Nodup ∧ ∀ code ∈ codes, code ∈ catalogue s := by
  have hnodup : ((listed codes s).map Permission.code).Nodup := hk.sublist (List.filter_sublist.map _)
  have hmem (code : String) : code ∈ (listed codes s).map Permission.code ↔ code ∈ codes ∧ code ∈ catalogue s := by
    simp only [listed,catalogue,List.mem_map,List.mem_filter,List.contains_iff_mem]
    constructor
    · rintro ⟨p,⟨hp,hcode⟩,rfl⟩
      exact ⟨hcode,p,hp,rfl⟩
    · rintro ⟨hcode,p,hp,rfl⟩
      exact ⟨p,⟨hp,hcode⟩,rfl⟩
  have hsubset : (listed codes s).map Permission.code ⊆ codes := fun code hcode => ((hmem code).mp hcode).1
  constructor
  · intro hlength
    have hperm := (List.subperm_of_subset hnodup hsubset).perm_of_length_le (by rw [List.length_map,hlength])
    exact ⟨hperm.nodup_iff.mp hnodup,fun code hcode => ((hmem code).mp (hperm.mem_iff.mpr hcode)).2⟩
  · rintro ⟨hcodes,hall⟩
    have hperm : ((listed codes s).map Permission.code).Perm codes := by
      rw [List.perm_ext_iff_of_nodup hnodup hcodes]
      exact fun code => (hmem code).trans ⟨And.left,fun h => ⟨h,hall code h⟩⟩
    rw [← hperm.length_eq,List.length_map]

/-- The keys of the assignments after the upsert. -/
theorem nodup_upsertAssignment {membershipId companyId actorId id : Uuid}
    (hids : (s.org.firmCompanyAssignments.map FirmCompanyAssignment.id).Nodup)
    (hpairs : (s.org.firmCompanyAssignments.map pairOf).Nodup)
    (hfresh : id ∉ s.org.firmCompanyAssignments.map FirmCompanyAssignment.id) {t : Store} {a : FirmCompanyAssignment}
    (hrun : (upsertAssignment membershipId companyId actorId id).run s = (.ok a,t)) :
    (t.org.firmCompanyAssignments.map FirmCompanyAssignment.id).Nodup ∧
      (t.org.firmCompanyAssignments.map pairOf).Nodup := by
  have hstate := congrArg Prod.snd hrun
  rw [upsertAssignment,Prog.run_stmt] at hstate
  cases hf : s.org.firmCompanyAssignments.find? (isAssignmentOf membershipId companyId) with
  | some found =>
    rw [hf] at hstate
    subst hstate
    exact ⟨Table.nodup_updateMany (fun _ => rfl) hids,Table.nodup_updateMany (fun _ => rfl) hpairs⟩
  | none =>
    rw [hf] at hstate
    subst hstate
    refine ⟨Table.nodup_append_fresh hids ?_,Table.nodup_append_fresh hpairs ?_⟩
    · exact fun q hq he => hfresh (List.mem_map.mpr ⟨q,hq,he⟩)
    · intro q hq he
      exact List.find?_eq_none.mp hf q hq (isAssignmentOf_iff.mpr he)

/-- The transaction finds the assignment that it has put, and the keys stay unique. -/
theorem exists_run_replacePermissions {membershipId companyId actorId id : Uuid} (permissionIds : List Uuid)
    (hids : (s.org.firmCompanyAssignments.map FirmCompanyAssignment.id).Nodup)
    (hpairs : (s.org.firmCompanyAssignments.map pairOf).Nodup)
    (hfresh : id ∉ s.org.firmCompanyAssignments.map FirmCompanyAssignment.id) :
    ∃ reply t, (replacePermissions membershipId companyId actorId id permissionIds).run s = (.ok reply,t) ∧
      (t.org.firmCompanyAssignments.map FirmCompanyAssignment.id).Nodup ∧
      (t.org.firmCompanyAssignments.map pairOf).Nodup := by
  obtain ⟨b,assignments,hupsert,-,-,hputs⟩ := run_upsertAssignment (s := s) membershipId companyId actorId id
  have hkeys := nodup_upsertAssignment hids hpairs hfresh hupsert
  have hset (rows rows' : List FirmCompanyAssignment) :
      Prisma.firmCompanyAssignment.set rows (Prisma.firmCompanyAssignment.set rows' s) =
        Prisma.firmCompanyAssignment.set rows s := rfl
  have hget (rows : List FirmCompanyAssignment) :
      Prisma.firmCompanyAssignment.get (Prisma.firmCompanyAssignment.set rows s) = rows := rfl
  have hread (rows : List FirmCompanyAssignment) :
      (Prisma.firmCompanyAssignment.set rows s).org.firmCompanyAssignments = rows := rfl
  rw [replacePermissions,Prog.run_bind,hupsert,Prog.resume_ok,Prog.run_bind,TableRef.run_updateMany,Prog.resume_ok,
    Prog.run_bind,TableRef.run_updateMany,Prog.resume_ok,findAssignmentWithPermissions,Prog.run_bind,Prog.run_query,
    Prog.resume_ok]
  simp only [hset,hget,hread]
  have hcleared := Table.mem_updateMany_image (f := setPermissions []) hputs.mem (p := fun a => a.id = b.id) (by simp)
  have hadded := Table.mem_updateMany_image (f := addPermissions permissionIds) hcleared (p := fun a => a.id = b.id)
    (by simp [setPermissions])
  obtain ⟨found,hfound⟩ := Table.exists_find?_of_mem FirmCompanyAssignment.id hadded
  have hfind : (Table.updateMany (fun a => a.id = b.id) (addPermissions permissionIds)
      (Table.updateMany (fun a => a.id = b.id) (setPermissions []) assignments)).find? (fun a => a.id = b.id) =
        some found := hfound
  rw [hfind]
  exact ⟨_,_,rfl,Table.nodup_updateMany (fun _ => rfl) (Table.nodup_updateMany (fun _ => rfl) hkeys.1),
    Table.nodup_updateMany (fun _ => rfl) (Table.nodup_updateMany (fun _ => rfl) hkeys.2)⟩

namespace StaffAssignment
variable {req : StaffAssignment}

/-- Past the checks of company and member, the lists are compared by their lengths. -/
theorem run_program (hreq : req.Admissible s) : req.program.run s =
    if (listed req.permissionCodes s).length ≠ req.permissionCodes.length then (.error invalidPermissionCode,s)
    else (transaction (replacePermissions req.membershipId req.companyId req.actorId req.id
      ((listed req.permissionCodes s).map Permission.id))).run s := by
  obtain ⟨c,hc,hcfirm⟩ := hreq.company
  obtain ⟨m,hm,hmfirm,hmactive⟩ := hreq.member
  have hcompany : ((Prisma.company.get s).find? (fun c => c.id = req.companyId)).filter (fun c => c.firmId == some req.firmId) =
      some c := by
    rw [Option.filter_eq_some_iff]
    exact ⟨hc,by simpa using hcfirm⟩
  have hmember : ((Prisma.firmMembership.get s).find? (fun m => m.id = req.membershipId)).filter
      (fun m => decide (m.firmId = req.firmId) && decide (m.status = .active)) = some m := by
    rw [Option.filter_eq_some_iff]
    exact ⟨hm,by simp [hmfirm,hmactive]⟩
  have hlisted : (Prisma.permission.get s).filter (fun p => req.permissionCodes.contains p.code) =
      listed req.permissionCodes s := rfl
  have hassert : (assertCompanyBelongsToFirm req.firmId req.companyId).run s = (.ok (),s) := by
    rw [assertCompanyBelongsToFirm,Prog.run_bind,TableRef.run_findUnique,Prog.resume_ok,hcompany]
    rfl
  rw [program,assignStaffToCompany,Prog.run_bind,hassert,Prog.resume_ok,Prog.run_bind,TableRef.run_findUnique,
    Prog.resume_ok,hmember,orThrow_some,Prog.run_bind,Prog.run_done,Prog.resume_ok,Prog.run_bind,TableRef.run_findMany,
    Prog.resume_ok,hlisted]
  split <;> rfl

/-- A list that names every code once, and only codes that there are, is assigned. -/
theorem exists_assigned (hk : GrantKeys s) (hreq : req.Admissible s) (hcodes : req.permissionCodes.Nodup)
    (hall : ∀ code ∈ req.permissionCodes, code ∈ catalogue s) :
    ∃ reply t, req.program.run s = (.ok reply,t) ∧ req.Assigned s t := by
  have hlength := (length_listed_iff hk.permissionCodes req.permissionCodes).mpr ⟨hcodes,hall⟩
  obtain ⟨reply,t,hrun,hids,hpairs⟩ := @exists_run_replacePermissions s req.membershipId req.companyId req.actorId req.id
    ((listed req.permissionCodes s).map Permission.id) hk.assignmentIds hk.assignmentPairs hreq.fresh
  have hprogram : req.program.run s = (.ok reply,t) := by
    rw [run_program hreq,if_neg (not_not.mpr hlength),run_transaction,hrun]
  obtain ⟨hrest,b,hputs,hpair,hactive,hpermissions⟩ := run_replacePermissions hrun hids
  refine ⟨reply,t,hprogram,⟨b,hputs.mem,hpair,hactive,fun code => ?_⟩,hpairs,?_,hrest⟩
  · have hsame : t.identity.permissions = s.identity.permissions := by
      rw [hrest]
      rfl
    have hcodesOf : assignmentCodes t b = (listed req.permissionCodes s).map Permission.code := by
      rw [assignmentCodes_congr hsame,assignmentCodes,hpermissions]
      exact permissionCodes_map_id hk.permissionIds (List.filter_subset_self _)
    rw [hcodesOf]
    exact mem_codes_of_length hk.permissionCodes hlength code
  · intro a ha
    exact hputs.others a (hpair ▸ ha)

theorem answered_of (hk : GrantKeys s) (hreq : req.Admissible s)
    (hlist : req.permissionCodes.Nodup ∨ ∃ code ∈ req.permissionCodes, code ∉ catalogue s) : req.Answered s := by
  have hlength := length_listed_iff hk.permissionCodes req.permissionCodes
  by_cases hall : ∀ code ∈ req.permissionCodes, code ∈ catalogue s
  · have hcodes : req.permissionCodes.Nodup := hlist.resolve_right (by push Not; exact hall)
    obtain ⟨reply,t,hrun,hassigned⟩ := exists_assigned hk hreq hcodes hall
    refine ⟨?_,fun _ => ⟨reply,t,hrun,hassigned⟩,fun e he => ?_⟩
    · rw [hrun]
      refine iff_of_false (fun he => by cases he) ?_
      push Not
      exact hall
    · rw [hrun] at he
      cases he
  · have hrejected : req.program.run s = (.error invalidPermissionCode,s) := by
      rw [run_program hreq,if_pos fun he => hall (hlength.mp he).2]
    refine ⟨?_,fun h => absurd h hall,fun e _ => ?_⟩
    · rw [hrejected]
      push Not at hall
      exact iff_of_true rfl hall
    · rw [hrejected]

/-- An assignment is answered right exactly when its list names no code twice, or a code that there is not. -/
theorem answered_iff (hk : GrantKeys s) (hreq : req.Admissible s) :
    req.Answered s ↔ req.permissionCodes.Nodup ∨ ∃ code ∈ req.permissionCodes, code ∉ catalogue s := by
  refine ⟨fun h => ?_,answered_of hk hreq⟩
  by_cases hall : ∀ code ∈ req.permissionCodes, code ∈ catalogue s
  · left
    obtain ⟨reply,t,hrun,-⟩ := h.assigned hall
    by_contra hrepeated
    rw [run_program hreq,if_pos fun he => hrepeated ((length_listed_iff hk.permissionCodes _).mp he).1] at hrun
    cases hrun
  · right
    push Not at hall
    exact hall

end StaffAssignment

end

/-- The clerk is assigned to the client with this list. -/
def clerkWith (permissionCodes : List String) : StaffAssignment := ⟨100,1,300,201,permissionCodes,400⟩

theorem admissible_clerkWith (permissionCodes : List String) : (clerkWith permissionCodes).Admissible practice :=
  ⟨⟨_,rfl,rfl⟩,⟨_,rfl,rfl,rfl⟩,List.not_mem_nil⟩

theorem answered_iff_clerkWith : (clerkWith ["payroll:run","payroll:read"]).Answered practice :=
  (StaffAssignment.answered_iff (by decide) (admissible_clerkWith _)).mpr (.inl (by decide))

/-- A code that there is, named twice, is rejected as invalid. -/
theorem clerkWith_not_answered : (clerkWith ["payroll:read","payroll:read"]).Admissible practice ∧
    ¬ (clerkWith ["payroll:read","payroll:read"]).Answered practice := by
  refine ⟨admissible_clerkWith _,fun h => ?_⟩
  have hunknown := h.rejected.mp (by decide +kernel)
  revert hunknown
  decide

end PinoyTax.Firm
