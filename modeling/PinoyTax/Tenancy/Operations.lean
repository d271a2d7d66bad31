import PinoyTax.Compliance.Service
import PinoyTax.Documents.Service
import PinoyTax.Payroll.Service
import PinoyTax.Tenancy.Tables

/-! # The operations are isolated

Each operation of the four services, called with a company, sees and changes only what
the company sees. A look-up by primary key is isolated together with the comparison of
the owner that follows it; from there on the row is known to be the company's.
-/
namespace PinoyTax.Tenancy
open PinoyTax Foundation

/-- A new row may take this id. -/
def Unused {ρ : Type} (T : KeyedTable ρ) (id : Uuid) (s : Store) : Prop := id ∉ (T.table.get s).map T.key

/-- Ids that are drawn one after the other, none of them in use. -/
structure Supply {ρ : Type} (T : KeyedTable ρ) (ids : ℕ → Uuid) (s : Store) : Prop where
  injective : Function.Injective ids
  unused : ∀ i, Unused T (ids i) s

section Supply
variable {ρ : Type} {T : KeyedTable ρ} {ids : ℕ → Uuid} {s : Store}

theorem Supply.rest (h : Supply T ids s) : Supply T (fun i => ids (i + 1)) s where
  injective := fun _ _ hij => Nat.succ_injective (h.injective hij)
  unused i := h.unused (i + 1)

/-- After the first id went into a row the rest are still unused. -/
theorem Supply.create (h : Supply T ids s) {row : ρ} (hrow : T.key row = ids 0) :
    Supply T (fun i => ids (i + 1)) (T.table.set (T.table.get s ++ [row]) s) where
  injective := h.rest.injective
  unused i := by
    unfold Unused
    rw [T.get_set,List.map_append,List.mem_append]
    rintro (hold | hnew)
    · exact h.unused (i + 1) hold
    · rw [List.map_singleton,List.mem_singleton,hrow] at hnew
      exact absurd (h.injective hnew) (Nat.succ_ne_zero i)

theorem Supply.updateMany {p : ρ → Bool} {f : ρ → ρ} (hkey : ∀ r, T.key (f r) = T.key r) (h : Supply T ids s) :
    Supply T ids (T.table.set (Table.updateMany p f (T.table.get s)) s) where
  injective := h.injective
  unused i := by
    unfold Unused
    rw [T.get_set,Table.map_updateMany _ hkey]
    exact h.unused i

end Supply

section Reading
variable {companyId : Uuid} {seen : ℕ} {P : Store → Prop}

theorem isolates_pure {α : Type} {a : α} (hP : ∀ s, P s → WellFormed s) :
    Isolates (boundary companyId seen) P (pure a : Request α) (fun _ s => P s) :=
  .done (fun s hs => Confined.refl (hP s hs)) fun _ hs => hs

/-- The end of an operation. -/
theorem isolates_return {α : Type} {a : α} (hP : ∀ s, P s → WellFormed s) :
    Isolates (boundary companyId seen) P (pure a : Request α) (fun _ s => WellFormed s) :=
  (isolates_pure hP).post fun _ => hP

/-- The messages that have been seen are among those that left. -/
def Announcing (companyId : Uuid) (seen : ℕ) (s : Store) : Prop :=
  WellFormed s ∧ seen ≤ (eventsOf companyId s).length

theorem isolates_throw {α : Type} {e : ApiException} {Q : α → Store → Prop} (hP : ∀ s, P s → WellFormed s) :
    Isolates (boundary companyId seen) P (Prog.throw e : Request α) Q :=
  .throw fun s hs => Confined.refl (hP s hs)

/-- The company itself is in its own restriction. -/
theorem isolates_findCompany (hP : ∀ s, P s → WellFormed s) :
    Isolates (boundary companyId seen) P (Prisma.company.findUnique (fun c => c.id = companyId)) (fun _ s => P s) := by
  refine .query (fun s hs => Confined.refl (hP s hs)) (fun s _ => ?_) fun _ hs => hs
  change (s.org.companies.filter _).find? _ = s.org.companies.find? _
  rw [← List.head?_filter,← List.head?_filter,List.filter_filter]
  simp only [Bool.and_self]

/-- A row of the company is updated and the update is announced. -/
theorem isolates_updateThenPublish {ρ : Type} (T : KeyedTable ρ) {k : Uuid} {p : ρ → Bool} {f : ρ → ρ}
    {event : ρ → DomainEvent} (hP : ∀ s, P s → Announcing companyId seen s) (hp : ∀ r, p r = true ↔ T.key r = k)
    (hkey : ∀ r, T.key (f r) = T.key r) (howner : ∀ r, T.owner (f r) = T.owner r)
    (hrow : ∀ s, P s → Has T companyId k s) (hset : ∀ s rows, (T.table.set rows s).published = s.published)
    (hevent : ∀ r, (event r).companyId = T.owner r) :
    Isolates (boundary companyId seen) P
      (T.table.update p f >>= fun updated => publish (event updated) >>= fun _ => pure updated)
      (fun _ s => WellFormed s) := by
  have hupdate : Isolates (boundary companyId seen) P (T.table.update p f) _ :=
    isolates_wellFormed (isolates_update T (fun s hs => (hP s hs).1) hp hkey howner hrow)
  refine hupdate.bind fun updated => .assume (φ := T.owner updated = companyId) ?_ fun hmine => ?_
  · rintro t ⟨-,s,-,-,r,-,-,hr,rfl⟩
    exact (howner r).trans hr
  have hpublish : Isolates (boundary companyId seen) (Announcing companyId seen) (publish (event updated)) _ :=
    isolates_wellFormed (isolates_publish (fun _ h => h.1) (fun _ h => h.2) ((hevent updated).trans hmine))
  refine .mono (hpublish.bind fun _ => isolates_return fun _ h => h.1) ?_ fun _ _ h => h
  rintro t ⟨ht,s,hs,rfl,-⟩
  have hevents : eventsOf companyId (T.table.set (Table.updateMany p f (T.table.get s)) s) = eventsOf companyId s := by
    unfold eventsOf
    rw [hset]
  exact ⟨ht,hevents ▸ (hP s hs).2⟩

end Reading

/-! ## TaxEngineService -/

section TaxEngine
open TaxEngine
variable {companyId : Uuid} {seen : ℕ} {P : Store → Prop}

/-- The tax rules are the same for every company. -/
theorem isolates_findActiveRule (hP : ∀ s, P s → WellFormed s) (ruleCode : String) (asOf : DateTime) :
    Isolates (boundary companyId seen) P (findActiveRule ruleCode asOf) (fun _ s => P s) :=
  .query (fun s hs => Confined.refl (hP s hs)) (fun _ _ => rfl) fun _ hs => hs

theorem isolates_computeFlatRate (hP : ∀ s, P s → WellFormed s) (ruleCode : String) (base : Option ℚ)
    (label : String) (periodStart periodEnd : DateTime) :
    Isolates (boundary companyId seen) P (computeFlatRate ruleCode base label periodStart periodEnd) (fun _ s => P s) :=
  (isolates_findActiveRule hP _ _).bind fun _ => isolates_pure hP

theorem isolates_computeGraduated (hP : ∀ s, P s → WellFormed s) (ruleCode : String) (base : Option ℚ)
    (label : String) (periodStart periodEnd : DateTime) :
    Isolates (boundary companyId seen) P (computeGraduated ruleCode base label periodStart periodEnd) (fun _ s => P s) :=
  (isolates_findActiveRule hP _ _).bind fun _ => isolates_pure hP

theorem isolates_engineResultFor (hP : ∀ s, P s → WellFormed s) (company : Company) (dto : ComputeTaxDto) :
    Isolates (boundary companyId seen) P (engineResultFor company dto) (fun _ s => P s) := by
  unfold engineResultFor
  cases dto.computationType with
  | vat => exact (isolates_computeFlatRate hP _ _ _ _ _).bind fun _ => isolates_pure hP
  | percentage_tax => exact (isolates_computeFlatRate hP _ _ _ _ _).bind fun _ => isolates_pure hP
  | ewt => exact isolates_computeFlatRate hP _ _ _ _ _
  | withholding_comp => exact isolates_computeGraduated hP _ _ _ _ _
  | income_tax =>
    cases dto.grossSales <|> dto.grossReceipts with
    | none => exact isolates_pure hP
    | some grossBase => exact isolates_computeGraduated hP _ _ _ _ _

theorem isolates_compute (dto : ComputeTaxDto) (id : Uuid) (now : DateTime) :
    Isolates (boundary companyId seen) (fun s => WellFormed s ∧ Unused taxComputations id s)
      (compute companyId dto id now) (fun _ s => WellFormed s) := by
  have hP (s : Store) (h : WellFormed s ∧ Unused taxComputations id s) : WellFormed s := h.1
  unfold compute
  apply (isolates_findCompany hP).bind
  intro company
  cases company with
  | none => exact isolates_throw hP
  | some company =>
    apply (isolates_engineResultFor hP company dto).bind
    intro engineResult
    refine .bind (isolates_wellFormed (isolates_create taxComputations hP rfl fun _ h => h.2)) fun record => ?_
    exact isolates_return fun _ h => h.1

theorem isolates_confirm (taxComputationId : Uuid) :
    Isolates (boundary companyId seen) (Announcing companyId seen) (confirm companyId taxComputationId)
      (fun _ s => WellFormed s) := by
  refine .bind_bind (isolates_findOwned taxComputations (fun _ h => h.1) _ _ fun _ => rfl) fun c => ?_
  refine isolates_updateThenPublish taxComputations (fun _ h => h.1) (fun _ => decide_eq_true_iff) (fun _ => rfl)
    (fun _ => rfl) ?_ (fun _ _ => rfl) fun _ => rfl
  rintro s ⟨-,hc,hk,howner⟩
  exact ⟨c,hc,hk,howner⟩

theorem isolates_listForCompany :
    Isolates (boundary companyId seen) WellFormed (listForCompany companyId) (fun _ s => WellFormed s) := by
  apply (isolates_findMany taxComputations.toScopedTable (fun _ hs => hs) fun _ _ _ h => h).bind
  intro rows
  exact isolates_return fun _ h => h.1

theorem isolates_getById (taxComputationId : Uuid) :
    Isolates (boundary companyId seen) WellFormed (getById companyId taxComputationId) (fun _ s => WellFormed s) :=
  (isolates_findOwned taxComputations (fun _ hs => hs) _ _ fun _ => rfl).post fun _ _ h => h.1

end TaxEngine

/-! ## PayrollService -/

section Payroll
open Payroll
variable {companyId : Uuid} {seen : ℕ} {P : Store → Prop}

theorem isolates_createEmployee (dto : CreateEmployeeDto) (id : Uuid) :
    Isolates (boundary companyId seen) (fun s => WellFormed s ∧ Unused employees id s)
      (createEmployee companyId dto id) (fun _ s => WellFormed s) :=
  .post (isolates_wellFormed (isolates_create employees (fun _ h => h.1) rfl fun _ h => h.2)) fun _ _ h => h.1

theorem owns_of_isActiveIn {s : Store} {e : Employee} (h : isActiveIn companyId e = true) :
    employees.owns companyId s e = true := (Bool.and_eq_true_iff.mp h).1

theorem isolates_listEmployees :
    Isolates (boundary companyId seen) WellFormed (listEmployees companyId) (fun _ s => WellFormed s) :=
  (isolates_findMany employees.toScopedTable (fun _ hs => hs) fun _ _ _ => owns_of_isActiveIn).post fun _ _ h => h.1

theorem isolates_listPayrollRuns :
    Isolates (boundary companyId seen) WellFormed (listPayrollRuns companyId) (fun _ s => WellFormed s) := by
  apply (isolates_findMany payrollRuns.toScopedTable (fun _ hs => hs) fun _ _ _ h => h).bind
  intro runs
  exact isolates_return fun _ h => h.1

section Included
variable {s : Store} {run : PayrollRun}

/-- The company sees all payslips of its run. -/
theorem payslipsOf_restrict (hs : WellFormed s) (hrun : run ∈ s.payroll.payrollRuns)
    (hc : run.companyId = companyId) : payslipsOf (restrict companyId seen s) run.id = payslipsOf s run.id := by
  change (payslips.table.get (restrict companyId seen s)).filter _ = (payslips.table.get s).filter _
  apply filter_restrict
  intro p hp
  change ownsRun companyId s p.payrollRunId = true
  rw [of_decide_eq_true hp]
  exact (ownsRun_iff hs hrun).mpr hc

/-- The company sees the employee of each payslip of its run. -/
theorem employeeOf_restrict (hs : WellFormed s) (hrun : run ∈ s.payroll.payrollRuns)
    (hc : run.companyId = companyId) {p : Payslip} (hp : p ∈ payslipsOf s run.id) :
    (restrict companyId seen s).payroll.employees.find? (fun e => e.id = p.employeeId) =
      s.payroll.employees.find? (fun e => e.id = p.employeeId) := by
  obtain ⟨hp,hid⟩ := List.mem_filter.mp hp
  obtain ⟨r,hr,hrp,e,he,hep,hcompany⟩ := hs.payslips p hp
  have hsame : r = run := Table.eq_of_key hs.payrollRuns hr hrun (hrp.trans (of_decide_eq_true hid))
  have hfind : s.payroll.employees.find? (fun q => q.id = p.employeeId) = some e := by
    rw [← hep]
    exact Table.find?_of_mem hs.employees he
  have howner : e.companyId = companyId := hcompany.trans ((congrArg PayrollRun.companyId hsame).trans hc)
  change (s.payroll.employees.filter (fun e => e.companyId = companyId)).find? _ = _
  rw [Table.find?_filter_key hs.employees,hfind,Option.filter_some,if_pos (decide_eq_true howner)]

end Included

theorem isolates_getPayrollRun (payrollRunId : Uuid) :
    Isolates (boundary companyId seen) WellFormed (getPayrollRun companyId payrollRunId) (fun _ s => WellFormed s) := by
  refine .post (isolates_findOwnedView payrollRuns (fun _ hs => hs) _ _ ?_ fun _ _ => rfl) fun _ _ h => h.1
  intro s hs run hrun hc
  rw [payslipsOf_restrict hs hrun hc]
  refine congrArg (Prod.mk run) (List.map_congr_left fun p hp => ?_)
  rw [employeeOf_restrict hs hrun hc hp]

theorem isolates_createPayrollRun (dto : CreatePayrollRunDto) (createdById id : Uuid) (now : DateTime) :
    Isolates (boundary companyId seen) (fun s => WellFormed s ∧ Unused payrollRuns id s)
      (createPayrollRun companyId dto createdById id now) (fun _ s => WellFormed s) :=
  .post (isolates_wellFormed (isolates_create payrollRuns (fun _ h => h.1) rfl fun _ h => h.2)) fun _ _ h => h.1

/-- The run being computed and the employees still to be paid are the company's. -/
structure Paying (companyId : Uuid) (run : PayrollRun) (staff : List Employee) (s : Store) : Prop where
  wellFormed : WellFormed s
  run : Has payrollRuns companyId run.id s
  staff : ∀ e ∈ staff, Has employees companyId e.id s

theorem isolates_engineAmount (hP : ∀ s, P s → WellFormed s) (ruleCode : String) (basicPay : ℚ) (asOf : DateTime) :
    Isolates (boundary companyId seen) P (engineAmount ruleCode basicPay asOf) (fun _ s => P s) :=
  (isolates_computeGraduated hP _ _ _ _ _).bind fun _ => isolates_pure hP

theorem isolates_contribution (hP : ∀ s, P s → WellFormed s) (number : Option String) (missing ruleCode : String)
    (basicPay : ℚ) (asOf : DateTime) :
    Isolates (boundary companyId seen) P (contribution number missing ruleCode basicPay asOf) (fun _ s => P s) := by
  unfold contribution
  split
  · exact isolates_engineAmount hP _ _ _
  · exact isolates_pure hP

/-- A payslip of the run for one of the company's employees is the company's. -/
theorem isolates_createPayslip {run : PayrollRun} {staff : List Employee} {employee : Employee}
    (he : employee ∈ staff) {payslip : Payslip} (hrun : payslip.payrollRunId = run.id)
    (hemployee : payslip.employeeId = employee.id) :
    Isolates (boundary companyId seen) (Paying companyId run staff) (Prisma.payslip.create payslip)
      (fun _ s => Paying companyId run staff s) := by
  refine .post (isolates_wellFormed (isolates_append payslips (fun s hs => hs.wellFormed)
    (fun s hs q hq => ?_) fun s hs q hq c => ?_)) ?_
  · obtain rfl := List.mem_singleton.mp hq
    obtain ⟨r,hr,hid,hc⟩ := hs.run
    obtain ⟨e,hes,heid,hec⟩ := hs.staff employee he
    exact ⟨r,hr,hid.trans hrun.symm,e,hes,heid.trans hemployee.symm,hec.trans hc.symm⟩
  · obtain rfl := List.mem_singleton.mp hq
    obtain ⟨r,hr,hid,hc⟩ := hs.run
    change ownsRun c s q.payrollRunId = true ↔ c = companyId
    rw [hrun,← show r.id = run.id from hid,ownsRun_iff hs.wellFormed hr,show r.companyId = companyId from hc,eq_comm]
  · rintro _ t ⟨ht,s,hs,rfl⟩
    exact ⟨ht,hs.run,hs.staff⟩

theorem isolates_computePayslip {run : PayrollRun} {staff : List Employee} {employee : Employee}
    (he : employee ∈ staff) (now : DateTime) (id : Uuid) :
    Isolates (boundary companyId seen) (Paying companyId run staff) (computePayslip run now id employee)
      (fun _ s => Paying companyId run staff s) := by
  have hP (s : Store) (hs : Paying companyId run staff s) : WellFormed s := hs.wellFormed
  apply (isolates_contribution hP _ _ _ _ _).bind
  intro sss
  apply (isolates_contribution hP _ _ _ _ _).bind
  intro philhealth
  apply (isolates_contribution hP _ _ _ _ _).bind
  intro pagibig
  apply (isolates_engineAmount hP _ _ _).bind
  intro withholding
  exact isolates_createPayslip he rfl rfl

theorem isolates_computePayslips {run : PayrollRun} {staff : List Employee} (now : DateTime) (rest : List Employee)
    (hrest : ∀ e ∈ rest, e ∈ staff) (ids : ℕ → Uuid) :
    Isolates (boundary companyId seen) (Paying companyId run staff) (computePayslips run now ids rest)
      (fun _ s => Paying companyId run staff s) := by
  induction rest generalizing ids with
  | nil => exact isolates_pure fun _ hs => hs.wellFormed
  | cons employee rest ih =>
    apply (isolates_computePayslip (hrest employee (List.mem_cons_self ..)) now _).bind
    intro payslip
    apply (ih (fun e he => hrest e (List.mem_cons_of_mem _ he)) _).bind
    intro results
    exact isolates_pure fun _ hs => hs.wellFormed

theorem isolates_deletePayslips {run : PayrollRun} {staff : List Employee} :
    Isolates (boundary companyId seen) (Paying companyId run staff)
      (Prisma.payslip.deleteMany (fun p => p.payrollRunId = run.id)) (fun _ s => Paying companyId run staff s) := by
  refine .post (isolates_wellFormed (isolates_deleteMany payslips (fun s hs => hs.wellFormed)
    fun s hs p hp c hc => ?_)) ?_
  · obtain ⟨r,hr,hid,hcompany⟩ := hs.run
    change ownsRun c s p.payrollRunId = true at hc
    rw [of_decide_eq_true hp,← show r.id = run.id from hid,ownsRun_iff hs.wellFormed hr] at hc
    exact hc.symm.trans hcompany
  · rintro _ t ⟨ht,s,hs,rfl⟩
    exact ⟨ht,hs.run,hs.staff⟩

/-- The update to processing leaves the run the company's. -/
theorem isolates_setProcessing (run : PayrollRun) (hP : ∀ s, P s → WellFormed s)
    (hrow : ∀ s, P s → Has payrollRuns companyId run.id s) :
    Isolates (boundary companyId seen) P (Prisma.payrollRun.update (fun r => r.id = run.id) setProcessing)
      (fun _ s => Paying companyId run [] s) := by
  have hupdate : Isolates (boundary companyId seen) P
      (payrollRuns.table.update (fun r => r.id = run.id) setProcessing) _ :=
    isolates_wellFormed
      (isolates_update payrollRuns hP (fun _ => decide_eq_true_iff) (fun _ => rfl) (fun _ => rfl) hrow)
  apply hupdate.post
  rintro _ t ⟨ht,s,hs,rfl,-⟩
  refine ⟨ht,?_,fun _ he => absurd he List.not_mem_nil⟩
  exact has_updateMany (f := setProcessing) payrollRuns (fun _ => rfl) (fun _ => rfl) (hrow s hs)

/-- The employees to be paid are the company's. -/
theorem isolates_listStaff {run : PayrollRun} :
    Isolates (boundary companyId seen) (Paying companyId run []) (Prisma.employee.findMany (isActiveIn companyId))
      (fun staff s => Paying companyId run staff s) := by
  have hlist : Isolates (boundary companyId seen) (Paying companyId run [])
      (employees.table.findMany (isActiveIn companyId)) _ :=
    isolates_findMany employees.toScopedTable (fun _ hs => hs.wellFormed) fun _ _ _ => owns_of_isActiveIn
  apply hlist.post
  rintro staff s ⟨hs,rfl⟩
  refine ⟨hs.wellFormed,hs.run,fun e he => ?_⟩
  obtain ⟨he,hactive⟩ := List.mem_filter.mp he
  have hcompany : e.companyId = companyId := of_decide_eq_true (owns_of_isActiveIn (s := s) hactive)
  exact ⟨e,he,rfl,hcompany⟩

theorem isolates_computePayrollRun (payrollRunId : Uuid) (ids : ℕ → Uuid) (now : DateTime) :
    Isolates (boundary companyId seen) WellFormed (computePayrollRun companyId payrollRunId ids now)
      (fun _ s => WellFormed s) := by
  refine .bind_bind (isolates_findOwned payrollRuns (fun _ hs => hs) _ _ fun _ => rfl) fun run => ?_
  split
  · exact isolates_throw fun _ h => h.1
  refine .assume (φ := run.companyId = companyId) (fun _ h => h.2.2.2) fun hcompany => ?_
  subst hcompany
  refine .bind (isolates_setProcessing run (fun _ h => h.1) fun _ h => ⟨run,h.2.1,rfl,h.2.2.2⟩) fun _ => ?_
  apply isolates_listStaff.bind
  intro staff
  apply isolates_deletePayslips.bind
  intro _
  exact (isolates_computePayslips now staff (fun _ he => he) ids).post fun _ _ h => h.wellFormed

theorem isolates_finalizePayrollRun (payrollRunId : Uuid) (now : DateTime) :
    Isolates (boundary companyId seen) (Announcing companyId seen) (finalizePayrollRun companyId payrollRunId now)
      (fun _ s => WellFormed s) := by
  refine .bind_bind (isolates_findOwnedView payrollRuns (fun _ h => h.1) _ _ ?_ fun _ _ => rfl) fun found => ?_
  · intro s hs run hrun hc
    rw [payslipsOf_restrict hs.1 hrun hc]
  obtain ⟨run,payslips⟩ := found
  dsimp only
  split
  · exact isolates_throw fun _ h => h.1.1
  refine isolates_updateThenPublish payrollRuns (fun _ h => h.1) (fun _ => decide_eq_true_iff) (fun _ => rfl)
    (fun _ => rfl) ?_ (fun _ _ => rfl) fun _ => rfl
  rintro s ⟨-,r,hr,-,hc,hview⟩
  exact ⟨r,hr,congrArg PayrollRun.id (Prod.mk.inj hview).1.symm,hc⟩

end Payroll

/-! ## DocumentsService -/

section Documents
open Documents
variable {companyId : Uuid} {seen : ℕ} {P : Store → Prop}

theorem isolates_checkFolder (hP : ∀ s, P s → WellFormed s) (e : ApiException) (folderId : Option Uuid) :
    Isolates (boundary companyId seen) P (checkFolder companyId e folderId) (fun _ s => P s) := by
  cases folderId with
  | none => exact isolates_pure hP
  | some folderId =>
    refine .bind_bind (isolates_findOwned folders hP _ _ fun _ => rfl) fun _ => ?_
    exact (isolates_pure fun s hs => hP s hs.1).post fun _ _ h => h.1

theorem isolates_createFolder (dto : CreateFolderDto) (id : Uuid) :
    Isolates (boundary companyId seen) (fun s => WellFormed s ∧ Unused folders id s)
      (createFolder companyId dto id) (fun _ s => WellFormed s) := by
  apply (isolates_checkFolder (fun _ h => h.1) _ _).bind
  intro _
  exact .post (isolates_wellFormed (isolates_create folders (fun _ h => h.1) rfl fun _ h => h.2)) fun _ _ h => h.1

theorem isolates_listFolders :
    Isolates (boundary companyId seen) WellFormed (listFolders companyId) (fun _ s => WellFormed s) :=
  (isolates_findMany folders.toScopedTable (fun _ hs => hs) fun _ _ _ h => h).post fun _ _ h => h.1

theorem isolates_listDocuments (folderId : Option Uuid) (category : Option String) :
    Isolates (boundary companyId seen) WellFormed (listDocuments companyId folderId category)
      (fun _ s => WellFormed s) := by
  refine .bind (isolates_findMany vaultDocuments.toScopedTable (fun _ hs => hs) fun s _ d hd => ?_) fun documents => ?_
  · exact (Bool.and_eq_true_iff.mp (Bool.and_eq_true_iff.mp hd).1).1
  · exact isolates_return fun _ h => h.1

/-- Storing an object touches no row. -/
theorem isolates_upload (hP : ∀ s, P s → WellFormed s) (storageKey : String) (file : File) (accepted : Bool) :
    Isolates (boundary companyId seen) P (upload storageKey file accepted) (fun _ s => P s) := by
  have hrefl (s : Store) (hs : P s) : Confined companyId s s := Confined.refl (hP s hs)
  cases accepted with
  | true => exact .stmt hrefl hrefl (fun _ _ => rfl) (fun _ _ => rfl) fun _ _ hs _ => hs
  | false => exact .stmt hrefl hrefl (fun _ _ => rfl) (fun _ _ => rfl) fun _ _ hs _ => hs

/-- The document at hand is the company's. -/
structure Holding (companyId documentId : Uuid) (s : Store) : Prop where
  wellFormed : WellFormed s
  document : Has vaultDocuments companyId documentId s

theorem Holding.owns {documentId : Uuid} {s : Store} (hs : Holding companyId documentId s) (c : Uuid) :
    ownsDocument c s documentId = true ↔ c = companyId := by
  obtain ⟨d,hd,hid,hc⟩ := hs.document
  rw [← show d.id = documentId from hid,ownsDocument_iff hs.wellFormed hd,show d.companyId = companyId from hc,eq_comm]

theorem isolates_createVersion {documentId : Uuid} {version : DocumentVersion} (hv : version.documentId = documentId) :
    Isolates (boundary companyId seen) (Holding companyId documentId) (Prisma.documentVersion.create version)
      (fun _ s => Holding companyId documentId s) := by
  refine .post (isolates_wellFormed (isolates_append documentVersions (fun s hs => hs.wellFormed)
    (fun s hs v hmem => ?_) fun s hs v hmem c => ?_)) ?_
  · obtain rfl := List.mem_singleton.mp hmem
    obtain ⟨d,hd,hid,-⟩ := hs.document
    exact ⟨d,hd,hid.trans hv.symm⟩
  · obtain rfl := List.mem_singleton.mp hmem
    change ownsDocument c s v.documentId = true ↔ c = companyId
    rw [hv]
    exact hs.owns c
  · rintro _ t ⟨ht,s,hs,rfl⟩
    exact ⟨ht,hs.document⟩

theorem isolates_updateDocument {documentId : Uuid} {f : VaultDocument → VaultDocument} (hid : ∀ d, (f d).id = d.id)
    (hc : ∀ d, (f d).companyId = d.companyId) :
    Isolates (boundary companyId seen) (Holding companyId documentId)
      (Prisma.vaultDocument.update (fun d => d.id = documentId) f)
      (fun updated s => updated.id = documentId ∧ Holding companyId documentId s) := by
  refine .post (isolates_wellFormed (isolates_update vaultDocuments (fun s hs => hs.wellFormed)
    (fun _ => decide_eq_true_iff) hid hc fun s hs => hs.document)) ?_
  rintro updated t ⟨ht,s,hs,rfl,d,-,hd,-,rfl⟩
  exact ⟨(hid d).trans hd,ht,has_updateMany vaultDocuments hid hc hs.document⟩

theorem isolates_uploadDocument (uploadedById : Uuid) (file : File) (dto : UploadDocumentMetadataDto) (draw : Draw)
    (accepted : Bool) :
    Isolates (boundary companyId seen) (fun s => WellFormed s ∧ Unused vaultDocuments draw.documentId s)
      (uploadDocument companyId uploadedById file dto draw accepted) (fun _ s => WellFormed s) := by
  refine (isolates_checkFolder (fun _ h => h.1) _ _).bind fun _ => ?_
  refine (isolates_upload (fun _ h => h.1) _ _ _).bind fun _ => isolates_transaction ?_
  refine .bind (isolates_wellFormed (isolates_create vaultDocuments (fun _ h => h.1) rfl fun _ h => h.2))
    fun document => ?_
  refine .assume (φ := document.id = draw.documentId ∧ document.companyId = companyId) ?_ fun hdocument => ?_
  · rintro _ ⟨-,rfl,-⟩
    exact ⟨rfl,rfl⟩
  refine .mono (P := Holding companyId document.id) ?_ ?_ fun _ _ h => h
  · refine .bind (isolates_createVersion rfl) fun version => ?_
    refine (isolates_updateDocument (f := setCurrentVersion _) (fun _ => rfl) fun _ => rfl).bind fun updated => ?_
    refine .bind (isolates_findMany documentVersions.toScopedTable (fun _ h => h.2.wellFormed) ?_) fun versions => ?_
    · rintro s ⟨hid,hs⟩ v hv
      change ownsDocument companyId s v.documentId = true
      rw [of_decide_eq_true hv,hid]
      exact (hs.owns companyId).mpr rfl
    · exact isolates_return fun _ h => h.1.2.wellFormed
  · rintro t ⟨ht,rfl,s,-,rfl⟩
    exact ⟨ht,_,List.mem_append_right _ (List.mem_singleton_self _),rfl,rfl⟩

/-- The company sees all versions of its document. -/
theorem versionsOf_restrict {s : Store} {document : VaultDocument} (hs : WellFormed s)
    (hd : document ∈ s.documents.vaultDocuments) (hc : document.companyId = companyId) :
    versionsOf (restrict companyId seen s) document.id = versionsOf s document.id := by
  change (documentVersions.table.get (restrict companyId seen s)).filter _ = (documentVersions.table.get s).filter _
  apply filter_restrict
  intro v hv
  change ownsDocument companyId s v.documentId = true
  rw [of_decide_eq_true hv]
  exact (ownsDocument_iff hs hd).mpr hc

theorem isolates_uploadNewVersion (documentId uploadedById : Uuid) (file : File) (draw : Draw) (accepted : Bool) :
    Isolates (boundary companyId seen) WellFormed
      (uploadNewVersion companyId documentId uploadedById file draw accepted) (fun _ s => WellFormed s) := by
  refine .bind_bind (isolates_findOwnedView vaultDocuments (fun _ hs => hs) _ _ ?_ fun _ _ => rfl) fun found => ?_
  · intro s hs document hd hc
    rw [versionsOf_restrict hs hd hc]
  obtain ⟨document,versions⟩ := found
  refine .mono (P := Holding companyId document.id) ?_ ?_ fun _ _ h => h
  · refine (isolates_upload (fun _ h => h.wellFormed) _ _ _).bind fun _ => isolates_transaction ?_
    refine .bind (isolates_createVersion rfl) fun version => ?_
    exact (isolates_updateDocument (f := setNewVersion _ _) (fun _ => rfl) fun _ => rfl).post
      fun _ _ h => h.2.wellFormed
  · rintro s ⟨hs,d,hd,-,hc,hfound⟩
    exact ⟨hs,d,hd,congrArg VaultDocument.id (Prod.mk.inj hfound).1.symm,hc⟩

theorem isolates_findDocument (documentId : Uuid) :
    Isolates (boundary companyId seen) WellFormed (findDocument companyId documentId)
      (fun _ s => Holding companyId documentId s) := by
  apply (isolates_findOwned vaultDocuments (fun _ hs => hs) _ _ fun _ => rfl).post
  rintro d s ⟨hs,hd,hid,hc⟩
  exact ⟨hs,d,hd,hid,hc⟩

theorem isolates_listVersions (documentId : Uuid) :
    Isolates (boundary companyId seen) WellFormed (listVersions companyId documentId) (fun _ s => WellFormed s) := by
  apply (isolates_findDocument documentId).bind
  intro _
  refine .bind (isolates_findMany documentVersions.toScopedTable (fun _ h => h.wellFormed) ?_) fun versions => ?_
  · intro s hs v hv
    change ownsDocument companyId s v.documentId = true
    rw [of_decide_eq_true hv]
    exact (hs.owns companyId).mpr rfl
  · exact isolates_return fun _ h => h.1.wellFormed

theorem isolates_getDownloadUrl (documentId : Uuid) :
    Isolates (boundary companyId seen) WellFormed (getDownloadUrl companyId documentId) (fun _ s => WellFormed s) :=
  (isolates_findDocument documentId).bind fun _ => isolates_return fun _ h => h.wellFormed

end Documents

/-! ## ComplianceService -/

section Compliance
open Compliance
variable {companyId : Uuid} {seen : ℕ} {P : Store → Prop}

theorem isolates_enqueueComplianceScan :
    Isolates (boundary companyId seen) (Announcing companyId seen) (enqueueComplianceScan companyId)
      (fun _ s => WellFormed s) :=
  .post (isolates_wellFormed (isolates_publish (fun _ h => h.1) (fun _ h => h.2) rfl)) fun _ _ h => h.1

theorem isolates_getDeadlines (status : Option FilingStatus) :
    Isolates (boundary companyId seen) WellFormed (getDeadlines companyId status) (fun _ s => WellFormed s) := by
  refine .bind (isolates_findMany filingDeadlines.toScopedTable (fun _ hs => hs) fun s _ d hd => ?_) fun rows => ?_
  · exact (Bool.and_eq_true_iff.mp hd).1
  · exact isolates_return fun _ h => h.1

theorem isolates_getComplianceStatus :
    Isolates (boundary companyId seen) WellFormed (getComplianceStatus companyId) (fun _ s => WellFormed s) :=
  (isolates_findMany complianceStatus.toScopedTable (fun _ hs => hs) fun _ _ _ h => h).post fun _ _ h => h.1

theorem isolates_getFlaggedIssues :
    Isolates (boundary companyId seen) WellFormed (getFlaggedIssues companyId) (fun _ s => WellFormed s) := by
  apply (isolates_findMany flaggedIssues.toScopedTable (fun _ hs => hs) fun _ _ _ h => h).bind
  intro issues
  exact isolates_return fun _ h => h.1

theorem isolates_updateIssueStatus (issueId : Uuid) (status : IssueStatus) (now : DateTime) :
    Isolates (boundary companyId seen) WellFormed (updateIssueStatus companyId issueId status now)
      (fun _ s => WellFormed s) := by
  refine .bind_bind (isolates_findOwned flaggedIssues (fun _ hs => hs) _ _ fun _ => rfl) fun issue => ?_
  refine .post (isolates_wellFormed (isolates_update flaggedIssues (fun _ h => h.1) (fun _ => decide_eq_true_iff)
    (fun _ => rfl) (fun _ => rfl) ?_)) fun _ _ h => h.1
  rintro s ⟨-,hi,hk,hc⟩
  exact ⟨issue,hi,hk,hc⟩

/-- What a scan has left to use: ids for issues and for status rows. -/
structure Scanning (issueIds statusIds : ℕ → Uuid) (s : Store) : Prop where
  wellFormed : WellFormed s
  issues : Supply flaggedIssues issueIds s
  statuses : Supply complianceStatus statusIds s

theorem Scanning.rest {issueIds statusIds : ℕ → Uuid} {s : Store} (hs : Scanning issueIds statusIds s) :
    Scanning (fun i => issueIds (i + 1)) statusIds s := ⟨hs.wellFormed,hs.issues.rest,hs.statuses⟩

section Scan
variable {issueIds statusIds : ℕ → Uuid}

theorem isolates_createDeadlines {rows : List FilingDeadline} (hrows : ∀ d ∈ rows, d.companyId = companyId) :
    Isolates (boundary companyId seen) (Scanning issueIds statusIds) (Prisma.filingDeadline.createMany rows)
      (fun _ s => Scanning issueIds statusIds s) := by
  refine .post (isolates_wellFormed (isolates_append filingDeadlines (fun s hs => hs.wellFormed)
    (fun _ _ _ _ => trivial) fun s _ d hd c => ?_)) ?_
  · change decide (d.companyId = c) = true ↔ c = companyId
    rw [hrows d hd,decide_eq_true_iff,eq_comm]
  · rintro _ t ⟨ht,s,hs,rfl⟩
    exact ⟨ht,⟨hs.issues.injective,hs.issues.unused⟩,⟨hs.statuses.injective,hs.statuses.unused⟩⟩

theorem isolates_generateFilingDeadlines (offset : ℤ) (company : Company) (ids : ℕ → Uuid) (today : DateTime) :
    Isolates (boundary companyId seen) (Scanning issueIds statusIds)
      (generateFilingDeadlines offset companyId company ids today) (fun _ s => Scanning issueIds statusIds s) := by
  have hP (s : Store) (hs : Scanning issueIds statusIds s) : WellFormed s := hs.wellFormed
  refine .bind (isolates_count employees.toScopedTable hP fun _ _ e he => (Bool.and_eq_true_iff.mp he).1)
    fun activeEmployeeCount => ?_
  refine .bind (.post (isolates_findMany filingDeadlines.toScopedTable hP
    fun _ _ d hd => (Bool.and_eq_true_iff.mp hd).1) fun _ _ h => h.1) fun existing => ?_
  dsimp only
  split
  · apply isolates_createDeadlines
    intro d hd
    obtain ⟨c,-,rfl⟩ := List.mem_map.mp hd
    rfl
  · exact isolates_pure hP

theorem isolates_flagUnless {alreadyFlagged : FlaggedIssue → Bool} {issue : FlaggedIssue}
    (hflagged : ∀ i, alreadyFlagged i = true → i.companyId = companyId) (hissue : issue.companyId = companyId)
    (hid : issue.id = issueIds 0) :
    Isolates (boundary companyId seen) (Scanning issueIds statusIds) (flagUnless alreadyFlagged issue)
      (fun _ s => Scanning (fun i => issueIds (i + 1)) statusIds s) := by
  have hP (s : Store) (hs : Scanning issueIds statusIds s) : WellFormed s := hs.wellFormed
  refine .bind (.post (isolates_findFirst flaggedIssues.toScopedTable hP
    fun _ _ i hi => decide_eq_true (hflagged i hi)) fun _ _ h => h.1) fun found => ?_
  cases found with
  | some _ => exact (isolates_pure hP).post fun _ _ hs => hs.rest
  | none =>
    refine .bind (.post (isolates_wellFormed (isolates_create flaggedIssues hP hissue fun s hs => ?_))
      fun _ t ht => show Scanning (fun i => issueIds (i + 1)) statusIds t from ?_) fun _ => ?_
    · rw [show flaggedIssues.key issue = issueIds 0 from hid]
      exact hs.issues.unused 0
    · obtain ⟨ht,-,s,hs,rfl⟩ := ht
      exact ⟨ht,hs.issues.create hid,⟨hs.statuses.injective,hs.statuses.unused⟩⟩
    · exact isolates_pure fun _ hs => hs.wellFormed

theorem owner_of_isOpenIssue {issueType : IssueType} {i : FlaggedIssue}
    (h : isOpenIssue companyId issueType i = true) : i.companyId = companyId :=
  of_decide_eq_true (Bool.and_eq_true_iff.mp (Bool.and_eq_true_iff.mp h).1).1

theorem isolates_checkVatClassificationRisk (company : Company) (now : DateTime) :
    Isolates (boundary companyId seen) (Scanning issueIds statusIds)
      (checkVatClassificationRisk companyId company (issueIds 0) now)
      (fun _ s => Scanning (fun i => issueIds (i + 1)) statusIds s) := by
  have hP (s : Store) (hs : Scanning issueIds statusIds s) : WellFormed s := hs.wellFormed
  have hskip : Isolates (boundary companyId seen) (Scanning issueIds statusIds) (pure () : Request Unit)
      (fun _ s => Scanning (fun i => issueIds (i + 1)) statusIds s) :=
    (isolates_pure hP).post fun _ _ hs => hs.rest
  have hrule : Isolates (boundary companyId seen) (Scanning issueIds statusIds) findThresholdRule
      (fun _ s => Scanning issueIds statusIds s) :=
    .query (fun s hs => Confined.refl (hP s hs)) (fun _ _ => rfl) fun _ hs => hs
  apply hrule.bind
  intro thresholdRule
  cases thresholdRule with
  | none => exact hskip
  | some thresholdRule =>
    dsimp only
    cases thresholdRule.ratesHistory with
    | nil => exact hskip
    | cons rate _ =>
      dsimp only
      split
      · exact hskip
      refine .bind (.post (isolates_findMany taxComputations.toScopedTable hP
        fun _ _ c hc => (Bool.and_eq_true_iff.mp hc).1) fun _ _ h => h.1) fun confirmed => ?_
      split
      · exact isolates_flagUnless (fun _ => owner_of_isOpenIssue) rfl rfl
      · exact hskip

theorem isolates_flagDuplicates (offset : ℤ) (now : DateTime) (runs : List PayrollRun) (seenPeriods : List String) :
    Isolates (boundary companyId seen) (Scanning issueIds statusIds)
      (flagDuplicates offset companyId now issueIds seenPeriods runs)
      (fun _ s => WellFormed s ∧ Supply complianceStatus statusIds s) := by
  induction runs generalizing issueIds seenPeriods with
  | nil => exact (isolates_pure fun _ hs => hs.wellFormed).post fun _ _ hs => ⟨hs.wellFormed,hs.statuses⟩
  | cons run runs ih =>
    unfold flagDuplicates
    dsimp only
    split
    · refine .bind (isolates_flagUnless (fun _ hi => ?_) rfl rfl) fun _ => ih _
      exact owner_of_isOpenIssue (Bool.and_eq_true_iff.mp hi).1
    · exact (ih _).mono (fun _ hs => hs.rest) fun _ _ h => h

theorem isolates_checkDuplicatePayrollRuns (offset : ℤ) (now : DateTime) :
    Isolates (boundary companyId seen) (Scanning issueIds statusIds)
      (checkDuplicatePayrollRuns offset companyId issueIds now)
      (fun _ s => WellFormed s ∧ Supply complianceStatus statusIds s) := by
  refine .bind (.post (isolates_findMany payrollRuns.toScopedTable (fun _ hs => hs.wellFormed) fun _ _ _ h => h)
    fun _ _ h => h.1) fun runs => ?_
  exact isolates_flagDuplicates offset now _ []

theorem isolates_recordCounts (now : DateTime) (bucket : String × Counts) :
    Isolates (boundary companyId seen) (fun s => WellFormed s ∧ Supply complianceStatus statusIds s)
      (recordCounts companyId now (statusIds 0) bucket)
      (fun _ s => WellFormed s ∧ Supply complianceStatus (fun i => statusIds (i + 1)) s) := by
  refine (isolates_findFirst complianceStatus.toScopedTable (fun _ h => h.1)
    fun _ _ c hc => (Bool.and_eq_true_iff.mp hc).1).bind fun found => ?_
  cases found with
  | some existing =>
    refine .bind (.post (isolates_wellFormed (isolates_update complianceStatus (f := setCounts _ _) (fun _ h => h.1.1)
      (fun _ => decide_eq_true_iff) (fun _ => rfl) (fun _ => rfl) ?_)) ?_)
      fun _ => isolates_pure fun _ h => h.1
    · rintro s ⟨-,hfound⟩
      have hmem := List.mem_of_find?_eq_some hfound.symm
      have hown := List.find?_some hfound.symm
      exact ⟨existing,hmem,rfl,of_decide_eq_true (Bool.and_eq_true_iff.mp hown).1⟩
    · rintro _ t ⟨ht,s,hs,rfl,-⟩
      exact ⟨ht,(hs.1.2.updateMany (f := setCounts _ _) fun _ => rfl).rest⟩
  | none =>
    refine .bind (.post (isolates_wellFormed (isolates_create complianceStatus (fun _ h => h.1.1) rfl
      fun s hs => hs.1.2.unused 0)) ?_) fun _ => isolates_pure fun _ h => h.1
    rintro _ t ⟨ht,-,s,hs,rfl⟩
    exact ⟨ht,hs.1.2.create rfl⟩

theorem isolates_recordAll (now : DateTime) (buckets : List (String × Counts)) :
    Isolates (boundary companyId seen) (fun s => WellFormed s ∧ Supply complianceStatus statusIds s)
      (recordAll companyId now statusIds buckets) (fun _ s => WellFormed s) := by
  induction buckets generalizing statusIds with
  | nil => exact isolates_return fun _ h => h.1
  | cons bucket buckets ih => exact (isolates_recordCounts now bucket).bind fun _ => ih

theorem isolates_recomputeComplianceStatus (now : DateTime) :
    Isolates (boundary companyId seen) (fun s => WellFormed s ∧ Supply complianceStatus statusIds s)
      (recomputeComplianceStatus companyId statusIds now) (fun _ s => WellFormed s) := by
  refine .bind (.post (isolates_findMany filingDeadlines.toScopedTable (fun _ h => h.1) fun _ _ _ h => h)
    fun _ _ h => h.1) fun deadlines => ?_
  exact isolates_recordAll now _

end Scan

theorem isolates_runComplianceScan (offset : ℤ) (draw : ScanDraw) (now : DateTime) :
    Isolates (boundary companyId seen) (Scanning draw.issueIds draw.statusIds)
      (runComplianceScan offset companyId draw now) (fun _ s => WellFormed s) := by
  apply (isolates_findCompany fun _ hs => hs.wellFormed).bind
  intro found
  cases found with
  | none => exact isolates_return fun _ hs => hs.wellFormed
  | some company =>
    apply (isolates_generateFilingDeadlines offset company draw.deadlineIds now).bind
    intro _
    apply (isolates_checkVatClassificationRisk company now).bind
    intro _
    apply (isolates_checkDuplicatePayrollRuns offset now).bind
    intro _
    exact isolates_recomputeComplianceStatus now

end Compliance

end PinoyTax.Tenancy
