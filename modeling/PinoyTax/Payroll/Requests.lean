import PinoyTax.Foundation.Runs
import PinoyTax.Payroll.Compute

/-! # Payroll requests one at a time

What each request can do to the store is said once, by `Transition`; the
invariants of the modules that follow are read off its cases. A computation may be
cut off after any number of its statements.
-/
namespace PinoyTax.Payroll
open PinoyTax Foundation TaxEngine

inductive PayrollRequest
  | createEmployee (companyId : Uuid) (dto : CreateEmployeeDto) (id : Uuid)
  | createPayrollRun (companyId : Uuid) (dto : CreatePayrollRunDto) (createdById id : Uuid) (now : DateTime)
  | computePayrollRun (companyId payrollRunId : Uuid) (ids : ℕ → Uuid) (now : DateTime) (cut : Option ℕ)
  | finalizePayrollRun (companyId payrollRunId : Uuid) (now : DateTime)

/-- The store after a request. -/
def next (s : Store) : PayrollRequest → Store
  | .createEmployee companyId dto id => ((createEmployee companyId dto id).run s).2
  | .createPayrollRun companyId dto createdById id now =>
    ((createPayrollRun companyId dto createdById id now).run s).2
  | .computePayrollRun companyId payrollRunId ids now cut =>
    (computePayrollRun companyId payrollRunId ids now).leaves cut s
  | .finalizePayrollRun companyId payrollRunId now => ((finalizePayrollRun companyId payrollRunId now).run s).2

/-- The ids of new rows are not in use. -/
def Fresh (s : Store) : PayrollRequest → Prop
  | .createEmployee _ _ id => id ∉ s.payroll.employees.map Employee.id
  | .createPayrollRun _ _ _ id _ => id ∉ s.payroll.payrollRuns.map PayrollRun.id
  | .computePayrollRun .. => True
  | .finalizePayrollRun .. => True

instance (s : Store) : (req : PayrollRequest) → Decidable (Fresh s req)
  | .createEmployee _ _ id => inferInstanceAs (Decidable (id ∉ s.payroll.employees.map Employee.id))
  | .createPayrollRun _ _ _ id _ => inferInstanceAs (Decidable (id ∉ s.payroll.payrollRuns.map PayrollRun.id))
  | .computePayrollRun .. => .isTrue trivial
  | .finalizePayrollRun .. => .isTrue trivial

/-- The primary keys of the two tables that requests look rows up in. -/
structure Keyed (s : Store) : Prop where
  payrollRuns : (s.payroll.payrollRuns.map PayrollRun.id).Nodup
  employees : (s.payroll.employees.map Employee.id).Nodup

theorem nodup_activeEmployees {s : Store} (hs : Keyed s) (companyId : Uuid) :
    ((activeEmployees s companyId).map Employee.id).Nodup :=
  hs.employees.sublist (List.filter_sublist.map Employee.id)

theorem map_employeeId_planned (s : Store) (run : PayrollRun) (ids : ℕ → Uuid) (now : DateTime) :
    (planned s run ids now).map Payslip.employeeId = (activeEmployees s run.companyId).map Employee.id :=
  map_employeeId_payslipsFor _ run now ids _

/-! ## Finalizing -/

/-- The run that a finalization acts on: found, of the company, no payslip with errors. -/
def finalizable (s : Store) (companyId runId : Uuid) : Option PayrollRun :=
  (s.payroll.payrollRuns.find? (fun r => r.id = runId)).filter
    (fun r => decide (r.companyId = companyId) && ((payslipsOf s r.id).filter blocking).isEmpty)

theorem finalizable_eq_some {s : Store} {companyId runId : Uuid} {run : PayrollRun} :
    finalizable s companyId runId = some run ↔
      s.payroll.payrollRuns.find? (fun r => r.id = runId) = some run ∧ run.companyId = companyId ∧
        (payslipsOf s run.id).filter blocking = [] := by
  unfold finalizable
  rw [Option.filter_eq_some_iff]
  simp

def finalized (run : PayrollRun) (now : DateTime) (s : Store) : Store :=
  { s with
    payroll.payrollRuns := Table.updateMany (fun r => r.id = run.id) (setFinalized now) s.payroll.payrollRuns
    published := s.published ++ [.payrollFinalized run.id run.companyId] }

theorem finalizePayrollRun_of_finalizable {s : Store} {companyId runId : Uuid} {run : PayrollRun}
    (h : finalizable s companyId runId = some run) (now : DateTime) :
    (finalizePayrollRun companyId runId now).run s = (.ok (setFinalized now run),finalized run now s) := by
  obtain ⟨hf,rfl,hb⟩ := finalizable_eq_some.mp h
  have hid : run.id = runId := (Table.find?_key_some hf).2
  have hu : (Prisma.payrollRun.get s).find? (fun r => r.id = run.id) = some run := by rw [hid]; exact hf
  simp only [finalizePayrollRun,findRunWithPayslips,Prog.run_bind,Prog.run_query,hf,Option.map_some,ownedBy,
    if_true,Prog.resume_ok,Prog.run_done,hb,List.length_nil,lt_irrefl,gt_iff_lt,if_false,
    TableRef.run_update_of_find hu,run_publish,Prog.pure_def]
  rfl

theorem finalizePayrollRun_of_not_finalizable {s : Store} {companyId runId : Uuid}
    (h : finalizable s companyId runId = none) (now : DateTime) :
    ∃ e, (finalizePayrollRun companyId runId now).run s = (.error e,s) := by
  simp only [finalizePayrollRun,findRunWithPayslips,Prog.run_bind,Prog.run_query,Prog.resume_ok]
  cases hf : s.payroll.payrollRuns.find? (fun r => r.id = runId) with
  | none => exact ⟨payrollRunNotFound,rfl⟩
  | some run =>
    by_cases hc : run.companyId = companyId
    · have hb : 0 < ((payslipsOf s run.id).filter blocking).length := by
        rw [List.length_pos_iff]
        intro hb
        have hs := finalizable_eq_some.mpr ⟨hf,hc,hb⟩
        rw [h] at hs
        cases hs
      exact ⟨_,by simp only [Option.map_some,ownedBy,if_pos hc,Prog.run_done,Prog.resume_ok,gt_iff_lt,if_pos hb]; rfl⟩
    · exact ⟨payrollRunNotFound,by simp [ownedBy,hc]⟩

/-! ## The effect of each request -/

inductive Transition : Store → PayrollRequest → Store → Prop
  | hired (s : Store) (companyId : Uuid) (dto : CreateEmployeeDto) (id : Uuid) :
      Transition s (.createEmployee companyId dto id)
        { s with payroll.employees := s.payroll.employees ++ [employeeRow companyId dto id] }
  | opened (s : Store) (companyId : Uuid) (dto : CreatePayrollRunDto) (createdById id : Uuid) (now : DateTime) :
      Transition s (.createPayrollRun companyId dto createdById id now)
        { s with
          payroll.payrollRuns := s.payroll.payrollRuns ++ [payrollRunRow companyId dto createdById id now] }
  | computeKept {s : Store} {companyId runId : Uuid} {ids : ℕ → Uuid} {now : DateTime} {cut : Option ℕ}
      (h : computable s companyId runId = none ∨
        (computePayrollRun companyId runId ids now).finishes cut s = false) :
      Transition s (.computePayrollRun companyId runId ids now cut) s
  | computeMarked {s : Store} {companyId runId : Uuid} {ids : ℕ → Uuid} {now : DateTime} {cut : Option ℕ}
      {run : PayrollRun} (h : computable s companyId runId = some run)
      (hcut : (computePayrollRun companyId runId ids now).finishes cut s = false) :
      Transition s (.computePayrollRun companyId runId ids now cut) (markProcessing run.id s)
  | computeInserted {s : Store} {companyId runId : Uuid} {ids : ℕ → Uuid} {now : DateTime} {cut : Option ℕ}
      {run : PayrollRun} (h : computable s companyId runId = some run) (k : ℕ)
      (hk : (computePayrollRun companyId runId ids now).finishes cut s = true →
        k = (planned s run ids now).length) :
      Transition s (.computePayrollRun companyId runId ids now cut)
        (addPayslips (cleared run.id s) ((planned s run ids now).take k))
  | finalizeKept {s : Store} {companyId runId : Uuid} {now : DateTime} (h : finalizable s companyId runId = none) :
      Transition s (.finalizePayrollRun companyId runId now) s
  | finalized {s : Store} {companyId runId : Uuid} {now : DateTime} {run : PayrollRun}
      (h : finalizable s companyId runId = some run) :
      Transition s (.finalizePayrollRun companyId runId now) (finalized run now s)

theorem transition_computePayrollRun (s : Store) (companyId runId : Uuid) (ids : ℕ → Uuid) (now : DateTime)
    (cut : Option ℕ) :
    Transition s (.computePayrollRun companyId runId ids now cut)
      ((computePayrollRun companyId runId ids now).leaves cut s) := by
  cases hcut : (computePayrollRun companyId runId ids now).finishes cut s with
  | true =>
    rw [Prog.leaves_of_finishes hcut]
    cases hc : computable s companyId runId with
    | none =>
      obtain ⟨e,he⟩ := computePayrollRun_of_not_computable hc ids now
      rw [he]
      exact .computeKept (.inl hc)
    | some run =>
      rw [computePayrollRun_of_computable hc ids now]
      have hT : Transition s (.computePayrollRun companyId runId ids now cut) _ :=
        .computeInserted hc (planned s run ids now).length (fun _ => rfl)
      rwa [List.take_length] at hT
  | false =>
    refine (within_computePayrollRun (.computeKept (.inr hcut)) ?_).leaves cut
    intro run hr
    exact ⟨.computeMarked hr hcut,fun k => .computeInserted hr k (by simp [hcut])⟩

theorem transition_next (s : Store) (req : PayrollRequest) : Transition s req (next s req) := by
  cases req with
  | createEmployee companyId dto id => exact .hired s companyId dto id
  | createPayrollRun companyId dto createdById id now => exact .opened s companyId dto createdById id now
  | computePayrollRun companyId runId ids now cut =>
    exact transition_computePayrollRun s companyId runId ids now cut
  | finalizePayrollRun companyId runId now =>
    cases h : finalizable s companyId runId with
    | none =>
      obtain ⟨e,he⟩ := finalizePayrollRun_of_not_finalizable h now
      simpa only [next,he] using Transition.finalizeKept h
    | some run =>
      simpa only [next,finalizePayrollRun_of_finalizable h now] using Transition.finalized h

theorem Keyed.next {s : Store} {req : PayrollRequest} (hs : Keyed s) (hf : Fresh s req) : Keyed (next s req) := by
  have ht := transition_next s req
  generalize Payroll.next s req = t at ht ⊢
  obtain ⟨hr,he⟩ := hs
  cases ht with
  | hired companyId dto id =>
    refine ⟨hr,Table.nodup_append_fresh he fun e hmem heq => hf ?_⟩
    exact List.mem_map.mpr ⟨e,hmem,heq⟩
  | opened companyId dto createdById id now =>
    refine ⟨Table.nodup_append_fresh hr fun r hmem heq => hf ?_,he⟩
    exact List.mem_map.mpr ⟨r,hmem,heq⟩
  | computeKept h => exact ⟨hr,he⟩
  | computeMarked h hcut => exact ⟨Table.nodup_updateMany (fun r => rfl) hr,he⟩
  | computeInserted h k hk => exact ⟨Table.nodup_updateMany (fun r => rfl) hr,he⟩
  | finalizeKept h => exact ⟨hr,he⟩
  | finalized h => exact ⟨Table.nodup_updateMany (fun r => rfl) hr,he⟩

/-! ## Rows and payslips of other runs -/

theorem ne_of_not_immutable {s : Store} (hs : Keyed s) {r run : PayrollRun} (hr : r ∈ s.payroll.payrollRuns)
    (hi : immutable r.status = true) (hrun : run ∈ s.payroll.payrollRuns) (hn : immutable run.status = false) :
    r.id ≠ run.id := by
  intro he
  have h := Table.eq_of_key hs.payrollRuns hr hrun he
  rw [h,hn] at hi
  cases hi

/-- A row update of one run keeps the rows of all others. -/
theorem mem_updateMany_of_ne {runs : List PayrollRun} {r run : PayrollRun} {f : PayrollRun → PayrollRun}
    (hr : r ∈ runs) (hne : r.id ≠ run.id) : r ∈ Table.updateMany (fun q => q.id = run.id) f runs :=
  Table.mem_updateMany_of_mem hr (by simpa using hne)

theorem payslipsOf_inserted {s : Store} {run : PayrollRun} {ids : ℕ → Uuid} {now : DateTime} {other : Uuid}
    (hne : other ≠ run.id) (k : ℕ) :
    payslipsOf (addPayslips (cleared run.id s) ((planned s run ids now).take k)) other = payslipsOf s other := by
  have hnew : ((planned s run ids now).take k).filter (fun p => p.payrollRunId = other) = [] := by
    rw [List.filter_eq_nil_iff]
    intro p hp
    have hid := payslipsFor_payrollRunId (List.mem_of_mem_take hp)
    simpa [hid] using Ne.symm hne
  have hold : (Table.deleteMany (fun p : Payslip => p.payrollRunId = run.id) s.payroll.payslips).filter
      (fun p => p.payrollRunId = other) = s.payroll.payslips.filter (fun p => p.payrollRunId = other) := by
    apply Table.filter_deleteMany_of_disjoint
    intro p hp
    simpa [of_decide_eq_true hp] using Ne.symm hne
  simp only [payslipsOf,addPayslips_payslips,cleared_payslips,List.filter_append,hnew,hold,List.append_nil]

/-- After the insertions the run holds its new payslips only. -/
theorem payslipsOf_inserted_self (s : Store) (run : PayrollRun) (ids : ℕ → Uuid) (now : DateTime) (k : ℕ) :
    payslipsOf (addPayslips (cleared run.id s) ((planned s run ids now).take k)) run.id =
      (planned s run ids now).take k := by
  have hnew : ((planned s run ids now).take k).filter (fun p => p.payrollRunId = run.id) =
      (planned s run ids now).take k := by
    rw [List.filter_eq_self]
    intro p hp
    simpa using payslipsFor_payrollRunId (List.mem_of_mem_take hp)
  simp only [payslipsOf,addPayslips_payslips,cleared_payslips,List.filter_append,hnew,
    Table.filter_deleteMany_self,List.nil_append]

/-- A row that is finalized after a computation was so before, and is of another run. -/
theorem of_mem_setProcessing {runs : List PayrollRun} {r : PayrollRun} {runId : Uuid}
    (hr : r ∈ Table.updateMany (fun q => q.id = runId) setProcessing runs) (hs : r.status = .finalized) :
    r ∈ runs ∧ r.id ≠ runId := by
  rcases Table.mem_updateMany_cases hr with ⟨hr,hne⟩ | ⟨q,-,-,rfl⟩
  · exact ⟨hr,by simpa using hne⟩
  · cases hs

/-! ## Sample rows -/

def november : CreatePayrollRunDto := ⟨20758 * msPerDay,20787 * msPerDay⟩

def hire (sssNumber : Option String) : CreateEmployeeDto where
  firstName := "Ana"
  lastName := "Reyes"
  sssNumber := sssNumber
  philhealthNumber := some "12-2"
  pagibigNumber := some "1212-3"
  dateHired := 0
  basicSalary := 10000
  payFrequency := .monthly

def flatRule (id : Uuid) (ruleCode : String) (rateValue : ℚ) : TaxRule where
  id := id
  ruleCode := ruleCode
  effectiveFrom := 0
  ratesHistory := [{ id := id, rateValue := rateValue, effectiveFrom := 0 }]

/-- A store that holds the four rules of a payslip and nothing else. -/
def statutoryStore : Store where
  taxEngine.taxRules :=
    [flatRule 1 "SSS_EMPLOYEE_CONTRIBUTION_RATE" (9 / 200),
      flatRule 2 "PHILHEALTH_EMPLOYEE_CONTRIBUTION_RATE" (1 / 40),
      flatRule 3 "PAGIBIG_EMPLOYEE_CONTRIBUTION_RATE" (1 / 50),flatRule 4 "WITHHOLDING_COMP_BRACKETS" 0]

/-- One employee of company 1, and its draft run 40. -/
def staffedStore (sssNumber : Option String) : Store :=
  [.createEmployee 1 (hire sssNumber) 10,.createPayrollRun 1 november 7 40 0].foldl next statutoryStore

end PinoyTax.Payroll
