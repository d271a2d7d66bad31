import PinoyTax.Audit.Interceptor
import PinoyTax.Firm.Requests
import PinoyTax.Org.Ownership
import PinoyTax.Payroll.Requests

/-! # What the audited operations write

A success of an operation has written one row of the table it is about: the row is
there, and the rows with other ids are those of before.
-/
namespace PinoyTax.Audit
open PinoyTax Foundation
variable {s : Store}

/-- An update by id writes the row of the id. -/
theorem ensures_updateById {ρ : Type} (t : TableRef ρ) (id : ρ → Uuid) (f : ρ → ρ) (x : Uuid)
    (hget : ∀ rows s, t.get (t.set rows s) = rows) (hid : ∀ r, id (f r) = id r) :
    (t.update (fun r => id r = x) f).Ensures (fun _ u => Table.WritesAt id x (t.get s) (t.get u)) s := by
  apply ensures_update
  intro r hf
  obtain ⟨hr,rfl⟩ := Table.find?_key_some hf
  rw [hget]
  exact Table.writesAt_updateMany hr (fun q _ hq => of_decide_eq_true hq) hid

theorem ensures_create {ρ : Type} (t : TableRef ρ) (id : ρ → Uuid) (row : ρ)
    (hget : ∀ rows s, t.get (t.set rows s) = rows) :
    (t.create row).Ensures (fun _ u => Table.WritesAt id (id row) (t.get s) (t.get u)) s := by
  unfold Prog.Ensures
  rw [TableRef.run_create]
  dsimp only
  rw [hget]
  exact (Table.Puts.append id (t.get s) row).writesAt

/-! ## Companies and their staff -/

theorem ensures_updateCompany (companyId : Uuid) (dto : Org.UpdateCompanyDto) :
    (Org.updateCompany companyId dto).Ensures
      (fun _ t => Table.WritesAt Company.id companyId s.org.companies t.org.companies) s := by
  refine Prog.Ensures.bind_of_reads ?_ fun existing _ => ?_
  · exact ends_orThrow (Q := fun t => t = s) rfl
  · have hupdate := ensures_updateById (s := s) Prisma.company Company.id (Org.setProfile dto) companyId
      (fun _ _ => rfl) (fun _ => rfl)
    refine Prog.Ensures.bind_keeps (g := Prisma.company.get) hupdate fun updated => ?_
    cases dto.vatClassification with
    | none => trivial
    | some vatClassification =>
      dsimp only
      split
      · exact fun t => ⟨rfl,fun u => ⟨rfl,trivial⟩⟩
      · trivial

theorem ensures_revokeStaff (companyId userCompanyRoleId : Uuid) :
    (Org.revokeStaff companyId userCompanyRoleId).Ensures (fun _ t =>
      Table.WritesAt UserCompanyRole.id userCompanyRoleId s.org.userCompanyRoles t.org.userCompanyRoles) s := by
  apply Prog.ensures_query_bind
  apply ensures_ownedBy_bind
  intro userCompanyRole _
  split
  · exact Prog.ensures_throw
  · exact ensures_updateById Prisma.userCompanyRole UserCompanyRole.id _ userCompanyRoleId (fun _ _ => rfl) fun _ => rfl

/-! ## Firms and their staff -/

theorem ensures_updateFirm (firmId : Uuid) (dto : Firm.UpdateFirmDto) :
    (Firm.updateFirm firmId dto).Ensures (fun _ t => Table.WritesAt Firm.id firmId s.org.firms t.org.firms) s := by
  refine Prog.Ensures.bind_of_reads ?_ fun existing _ => ?_
  · exact ends_orThrow (Q := fun t => t = s) rfl
  · exact ensures_updateById Prisma.firm Firm.id _ firmId (fun _ _ => rfl) fun _ => rfl

theorem ensures_updateFirmStaffRole (firmId membershipId : Uuid) (firmRoleCode : Firm.AssignableFirmRoleCode) :
    (Firm.updateFirmStaffRole firmId membershipId firmRoleCode).Ensures (fun _ t =>
      Table.WritesAt FirmMembership.id membershipId s.org.firmMemberships t.org.firmMemberships) s := by
  apply Prog.Ensures.bind_of_reads (Firm.run_getFirmMembershipOrThrow_state _ _)
  intro membership _
  apply Prog.Ensures.bind_of_reads (Firm.run_assertNotLastOwner_state _ _ _)
  intro _ _
  apply Prog.ensures_query_bind
  apply ensures_orThrow_bind
  intro firmRole _
  exact ensures_updateById Prisma.firmMembership FirmMembership.id _ membershipId (fun _ _ => rfl) fun _ => rfl

theorem ensures_revokeFirmStaff (firmId membershipId : Uuid) :
    (Firm.revokeFirmStaff firmId membershipId).Ensures (fun _ t =>
      Table.WritesAt FirmMembership.id membershipId s.org.firmMemberships t.org.firmMemberships) s := by
  apply Prog.Ensures.bind_of_reads (Firm.run_getFirmMembershipOrThrow_state _ _)
  intro membership _
  apply Prog.Ensures.bind_of_reads (Firm.run_assertNotLastOwner_state _ _ _)
  intro _ _
  apply ensures_transaction
  apply Prog.Ensures.bind
  exact ensures_updateById Prisma.firmMembership FirmMembership.id _ membershipId (fun _ _ => rfl) fun _ => rfl

/-! ## Client companies and assignments -/

theorem ensures_createClientCompany (firmId actorId : Uuid) (dto : Firm.CreateCompanyDto)
    (companyId assignmentId : Uuid) :
    (Firm.createClientCompany firmId actorId dto companyId assignmentId).Ensures
      (fun _ t => Table.WritesAt Company.id companyId s.org.companies t.org.companies) s := by
  apply Prog.ensures_query_bind
  apply ensures_orThrow_bind
  intro _ _
  apply Prog.ensures_query_bind
  split
  · exact Prog.ensures_throw
  · apply Prog.ensures_query_bind
    apply ensures_orThrow_bind
    intro membership _
    apply Prog.ensures_query_bind
    refine Prog.Ensures.bind_keeps (g := Prisma.company.get) (ensures_transaction ?_) fun company => ?_
    · have hcreate := ensures_create (s := s) Prisma.company Company.id (Firm.companyRow firmId dto companyId)
        fun _ _ => rfl
      exact Prog.Ensures.bind_keeps (g := Prisma.company.get) hcreate fun _ t => ⟨rfl,trivial⟩
    · exact fun t => ⟨rfl,fun u => ⟨rfl,trivial⟩⟩

theorem ensures_removeClientCompany (firmId companyId : Uuid) :
    (Firm.removeClientCompany firmId companyId).Ensures
      (fun _ t => Table.WritesAt Company.id companyId s.org.companies t.org.companies) s := by
  apply Prog.Ensures.bind_of_reads (Firm.run_assertCompanyBelongsToFirm_state _ _)
  intro _ _
  apply ensures_transaction
  apply Prog.Ensures.bind
  exact ensures_updateById Prisma.company Company.id _ companyId (fun _ _ => rfl) fun _ => rfl

/-- The id of the assignment that an upsert of the pair writes. -/
def assignmentIdOf (s : Store) (membershipId companyId id : Uuid) : Uuid :=
  ((s.org.firmCompanyAssignments.find? (Firm.isAssignmentOf membershipId companyId)).map FirmCompanyAssignment.id).getD id

theorem ensures_upsertAssignment (hpairs : (s.org.firmCompanyAssignments.map Firm.pairOf).Nodup)
    (membershipId companyId actorId id : Uuid) :
    (Firm.upsertAssignment membershipId companyId actorId id).Ensures (fun a t =>
      a.id = assignmentIdOf s membershipId companyId id ∧
      Table.WritesAt FirmCompanyAssignment.id (assignmentIdOf s membershipId companyId id)
        s.org.firmCompanyAssignments t.org.firmCompanyAssignments) s := by
  unfold Firm.upsertAssignment Prog.Ensures assignmentIdOf
  rw [Prog.run_stmt]
  cases hf : s.org.firmCompanyAssignments.find? (Firm.isAssignmentOf membershipId companyId) with
  | none =>
    have hput := Table.Puts.append FirmCompanyAssignment.id s.org.firmCompanyAssignments
      (Firm.assignmentRow membershipId companyId actorId [] id)
    exact ⟨rfl,hput.writesAt⟩
  | some a =>
    have ha := List.mem_of_find?_eq_some hf
    have hpair := Firm.isAssignmentOf_iff.mp (List.find?_some hf)
    refine ⟨rfl,Table.writesAt_updateMany ha (fun q hq hqp => ?_) fun _ => rfl⟩
    have hsame := (Firm.isAssignmentOf_iff.mp hqp).trans hpair.symm
    rw [Table.eq_of_key hpairs hq ha hsame]

theorem ensures_assignStaffToCompany (hpairs : (s.org.firmCompanyAssignments.map Firm.pairOf).Nodup)
    (firmId actorId companyId membershipId : Uuid) (permissionCodes : List String) (id : Uuid) :
    (Firm.assignStaffToCompany firmId actorId companyId membershipId permissionCodes id).Ensures (fun _ t =>
      Table.WritesAt FirmCompanyAssignment.id (assignmentIdOf s membershipId companyId id)
        s.org.firmCompanyAssignments t.org.firmCompanyAssignments) s := by
  apply Prog.Ensures.bind_of_reads (Firm.run_assertCompanyBelongsToFirm_state _ _)
  intro _ _
  apply Prog.ensures_query_bind
  apply ensures_orThrow_bind
  intro _ _
  apply Prog.ensures_query_bind
  generalize List.filter (fun p : Permission => permissionCodes.contains p.code) _ = permissions
  split
  · exact Prog.ensures_throw
  · apply ensures_transaction
    apply Prog.Ensures.bind
    apply Prog.ensures_of_run
    intro assignment t hrun
    obtain ⟨hid,hwrites⟩ := (ensures_upsertAssignment hpairs membershipId companyId actorId id).of_run hrun
    have hrow : ∀ rows : List FirmCompanyAssignment, ∀ r ∈ rows, decide (r.id = assignment.id) = true →
        r.id = assignmentIdOf s membershipId companyId id := fun _ _ _ hr => (of_decide_eq_true hr).trans hid
    have hcleared := hwrites.updateMany (hrow _) (f := Firm.setPermissions []) fun _ => rfl
    have hset := hcleared.updateMany (hrow _) (f := Firm.addPermissions (permissions.map Permission.id)) fun _ => rfl
    unfold Prog.Ensures
    rw [Prog.run_bind,TableRef.run_updateMany,Prog.resume_ok,Prog.run_bind,TableRef.run_updateMany,Prog.resume_ok,
      Firm.findAssignmentWithPermissions,Prog.run_bind,Prog.run_query,Prog.resume_ok]
    generalize Option.map _ _ = found
    cases found with
    | none => trivial
    | some reply => exact hset

theorem ensures_revokeAssignment (firmId assignmentId : Uuid) :
    (Firm.revokeAssignment firmId assignmentId).Ensures (fun _ t =>
      Table.WritesAt FirmCompanyAssignment.id assignmentId s.org.firmCompanyAssignments t.org.firmCompanyAssignments)
      s := by
  apply Prog.ensures_query_bind
  apply ensures_orThrow_bind
  intro _ _
  exact ensures_updateById Prisma.firmCompanyAssignment FirmCompanyAssignment.id _ assignmentId (fun _ _ => rfl)
    fun _ => rfl

/-! ## Payroll runs and tax computations -/

theorem ensures_computePayrollRun (companyId runId : Uuid) (ids : ℕ → Uuid) (now : DateTime) :
    (Payroll.computePayrollRun companyId runId ids now).Ensures
      (fun _ t => Table.WritesAt PayrollRun.id runId s.payroll.payrollRuns t.payroll.payrollRuns) s := by
  unfold Prog.Ensures
  cases h : Payroll.computable s companyId runId with
  | none =>
    obtain ⟨e,hrun⟩ := Payroll.computePayrollRun_of_not_computable h ids now
    rw [hrun]
    trivial
  | some run =>
    rw [Payroll.computePayrollRun_of_computable h]
    obtain ⟨hrun,rfl⟩ := Table.find?_key_some (Payroll.computable_eq_some.mp h).1
    exact Table.writesAt_updateMany hrun (fun q _ hq => of_decide_eq_true hq) fun _ => rfl

theorem ensures_finalizePayrollRun (companyId runId : Uuid) (now : DateTime) :
    (Payroll.finalizePayrollRun companyId runId now).Ensures
      (fun _ t => Table.WritesAt PayrollRun.id runId s.payroll.payrollRuns t.payroll.payrollRuns) s := by
  unfold Prog.Ensures
  cases h : Payroll.finalizable s companyId runId with
  | none =>
    obtain ⟨e,hrun⟩ := Payroll.finalizePayrollRun_of_not_finalizable h now
    rw [hrun]
    trivial
  | some run =>
    rw [Payroll.finalizePayrollRun_of_finalizable h]
    obtain ⟨hrun,rfl⟩ := Table.find?_key_some (Payroll.finalizable_eq_some.mp h).1
    exact Table.writesAt_updateMany hrun (fun q _ hq => of_decide_eq_true hq) fun _ => rfl

theorem ensures_confirm (companyId computationId : Uuid) :
    (TaxEngine.confirm companyId computationId).Ensures (fun _ t =>
      Table.WritesAt TaxComputation.id computationId s.taxEngine.taxComputations t.taxEngine.taxComputations) s := by
  apply Prog.ensures_query_bind
  apply ensures_ownedBy_bind
  intro _ _
  have hupdate := ensures_updateById (s := s) Prisma.taxComputation TaxComputation.id
    (fun c => { c with status := .confirmed }) computationId (fun _ _ => rfl) (fun _ => rfl)
  exact Prog.Ensures.bind_keeps (g := Prisma.taxComputation.get) hupdate fun updated t => ⟨rfl,trivial⟩

end PinoyTax.Audit
