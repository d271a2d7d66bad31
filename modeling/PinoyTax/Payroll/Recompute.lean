import PinoyTax.Payroll.Completeness

/-! # What a computation that succeeds leaves

Whatever payslips were there before, a computation that reaches its end leaves one for
each active employee and touches no other run. The amounts of a payslip come from the
employee, the rules and the end of the period, so that computing again repeats them.
-/
namespace PinoyTax.Payroll
open PinoyTax Foundation TaxEngine

/-- The amounts of a payslip and its errors. -/
def figures (p : Payslip) : List Money × List String :=
  ([p.basicPay,p.overtimePay,p.holidayPay,p.allowances,p.sssContribution,p.philhealthContribution,
    p.pagibigContribution,p.withholdingTax,p.grossPay,p.totalDeductions,p.netPay],errorsOf p)

/-- The employees, the rules and the period of the run are as they were. -/
structure SameInputs (runId : Uuid) (s u : Store) : Prop where
  employees : ∀ e, e ∈ u.payroll.employees ↔ e ∈ s.payroll.employees
  taxRules : u.taxEngine.taxRules = s.taxEngine.taxRules
  periodEnd : (u.payroll.payrollRuns.find? (fun r => r.id = runId)).map PayrollRun.periodEnd =
    (s.payroll.payrollRuns.find? (fun r => r.id = runId)).map PayrollRun.periodEnd

section
variable {s t : Store} {companyId runId : Uuid} {ids : ℕ → Uuid} {now : DateTime} {ps : List Payslip}

/-- A success is of a computable run, and leaves what was planned. -/
theorem computed_of_ok (h : (computePayrollRun companyId runId ids now).run s = (.ok ps,t)) :
    ∃ run, computable s companyId runId = some run ∧ run.id = runId ∧
      t = addPayslips (cleared run.id s) (planned s run ids now) := by
  cases hc : computable s companyId runId with
  | none =>
    obtain ⟨e,he⟩ := computePayrollRun_of_not_computable hc ids now
    rw [he] at h
    cases h
  | some run =>
    rw [computePayrollRun_of_computable hc] at h
    obtain ⟨-,rfl⟩ := Prod.mk.inj h
    exact ⟨run,rfl,(Table.find?_key_some (computable_eq_some.mp hc).1).2,rfl⟩

theorem payslipsOf_computed (s : Store) (run : PayrollRun) (ids : ℕ → Uuid) (now : DateTime) :
    payslipsOf (addPayslips (cleared run.id s) (planned s run ids now)) run.id = planned s run ids now := by
  have h := payslipsOf_inserted_self s run ids now (planned s run ids now).length
  rwa [List.take_length] at h

theorem payslipsOf_computed_other {run : PayrollRun} {other : Uuid} (hne : other ≠ run.id) :
    payslipsOf (addPayslips (cleared run.id s) (planned s run ids now)) other = payslipsOf s other := by
  have h (n : ℕ) : payslipsOf (addPayslips (cleared run.id s) ((planned s run ids now).take n)) other = payslipsOf s other :=
    payslipsOf_inserted hne n
  have hall := h (planned s run ids now).length
  rwa [List.take_length] at hall

theorem figures_payslipFor {rules : List TaxRule} {run run' : PayrollRun} (h : run'.periodEnd = run.periodEnd)
    (now now' : DateTime) (id id' : Uuid) (e : Employee) :
    figures (payslipFor rules run' now' id' e) = figures (payslipFor rules run now id e) := by
  simp only [figures,payslipFor,payslipRow,errorsOf,Option.map_some,h]

/-- Two computations from the same inputs agree on each employee. -/
theorem figures_eq_of_sameInputs {u : Store} {run run' : PayrollRun} {ids' : ℕ → Uuid} {now' : DateTime}
    (hs : Keyed s) (hsame : SameInputs runId s u) (h : computable s companyId runId = some run)
    (h' : computable u companyId runId = some run') {p p' : Payslip} (hp : p ∈ planned s run ids now)
    (hp' : p' ∈ planned u run' ids' now') (heq : p'.employeeId = p.employeeId) : figures p' = figures p := by
  obtain ⟨e,he,id,rfl⟩ := mem_payslipsFor hp
  obtain ⟨e',he',id',rfl⟩ := mem_payslipsFor hp'
  have hmem := (List.mem_filter.mp he).1
  have hmem' := (hsame.employees e').mp (List.mem_filter.mp he').1
  obtain rfl : e' = e := Table.eq_of_key hs.employees hmem' hmem heq
  have hperiod := hsame.periodEnd
  rw [(computable_eq_some.mp h).1,(computable_eq_some.mp h').1] at hperiod
  rw [hsame.taxRules]
  exact figures_payslipFor (Option.some.inj hperiod) now now' id id' e'

/-- The run is still there, and in the status that the next computation accepts. -/
theorem computable_computed {run : PayrollRun} (h : computable s companyId run.id = some run) :
    computable (addPayslips (cleared run.id s) (planned s run ids now)) companyId run.id = some (setProcessing run) := by
  obtain ⟨hf,hc,-⟩ := computable_eq_some.mp h
  refine computable_eq_some.mpr ⟨?_,hc,rfl⟩
  have hfind := Table.find?_updateMany (p := fun r => decide (r.id = run.id)) (q := fun r => decide (r.id = run.id))
    (f := setProcessing) (fun _ => rfl) s.payroll.payrollRuns
  rw [hf] at hfind
  exact hfind.trans (by simp)

end

/-- A computation that succeeds leaves the run with one payslip for each active employee
and no other, whatever was there before; it changes neither the payslips of other runs
nor the employees, and computing again repeats its figures. -/
theorem computed_run_complete {s t : Store} {companyId runId : Uuid} {ids : ℕ → Uuid} {now : DateTime}
    {ps : List Payslip} (hs : Keyed s) (h : (computePayrollRun companyId runId ids now).run s = (.ok ps,t)) :
    (∀ e ∈ activeEmployees s companyId, (payslipsOf t runId).countP (fun p => p.employeeId = e.id) = 1) ∧
      (∀ p ∈ payslipsOf t runId, ∃ e ∈ activeEmployees s companyId, e.id = p.employeeId) ∧
      (∀ other, other ≠ runId → payslipsOf t other = payslipsOf s other) ∧
      t.payroll.employees = s.payroll.employees ∧
      (∀ (ids' : ℕ → Uuid) (now' : DateTime), ∃ ps' v,
        (computePayrollRun companyId runId ids' now').run t = (.ok ps',v)) ∧
      ∀ (u v : Store) (ids' : ℕ → Uuid) (now' : DateTime) (ps' : List Payslip), SameInputs runId s u →
        (computePayrollRun companyId runId ids' now').run u = (.ok ps',v) →
          ∀ p ∈ payslipsOf t runId, ∀ p' ∈ payslipsOf v runId, p'.employeeId = p.employeeId →
            figures p' = figures p := by
  obtain ⟨run,hc,rfl,rfl⟩ := computed_of_ok h
  obtain ⟨hf,rfl,hi⟩ := computable_eq_some.mp hc
  rw [payslipsOf_computed]
  refine ⟨?_,?_,fun other hne => payslipsOf_computed_other hne,rfl,?_,?_⟩
  · intro e he
    have hids := map_employeeId_planned s run ids now
    apply countP_employeeId_of_nodup
    · rw [hids]
      exact nodup_activeEmployees hs _
    · rw [hids]
      exact List.mem_map_of_mem he
  · intro p hp
    obtain ⟨e,he,id,rfl⟩ := mem_payslipsFor hp
    exact ⟨e,he,rfl⟩
  · intro ids' now'
    exact ⟨_,_,computePayrollRun_of_computable (computable_computed hc) ids' now'⟩
  · intro u v ids' now' ps' hsame hagain p hp p' hp' heq
    obtain ⟨run',hc',hid,rfl⟩ := computed_of_ok hagain
    rw [← hid,payslipsOf_computed] at hp'
    exact figures_eq_of_sameInputs hs hsame hc hc' hp hp' heq

/-- A run whose first computation was cut off among its insertions. -/
def leftoverStore : Store :=
  next (staffedStore (some "34-1")) (.computePayrollRun 1 40 (fun i => 60 + i) 3 (some 9))

/-- What the second computation leaves. -/
def recomputedStore : Store := ((computePayrollRun 1 40 (fun i => 80 + i) 4).run leftoverStore).2

theorem computed_run_complete_leftover :
    (∀ e ∈ activeEmployees leftoverStore 1, (payslipsOf recomputedStore 40).countP (fun p => p.employeeId = e.id) = 1) ∧
      (∀ p ∈ payslipsOf recomputedStore 40, ∃ e ∈ activeEmployees leftoverStore 1, e.id = p.employeeId) ∧
      (∀ other, other ≠ 40 → payslipsOf recomputedStore other = payslipsOf leftoverStore other) ∧
      recomputedStore.payroll.employees = leftoverStore.payroll.employees ∧
      (∀ (ids' : ℕ → Uuid) (now' : DateTime), ∃ ps' v,
        (computePayrollRun 1 40 ids' now').run recomputedStore = (.ok ps',v)) ∧
      ∀ (u v : Store) (ids' : ℕ → Uuid) (now' : DateTime) (ps' : List Payslip), SameInputs 40 leftoverStore u →
        (computePayrollRun 1 40 ids' now').run u = (.ok ps',v) →
          ∀ p ∈ payslipsOf recomputedStore 40, ∀ p' ∈ payslipsOf v 40, p'.employeeId = p.employeeId →
            figures p' = figures p := by
  have hcomputable : (computable leftoverStore 1 40).isSome := by decide +kernel
  obtain ⟨run,hrun⟩ := Option.isSome_iff_exists.mp hcomputable
  have hkeyed : Keyed leftoverStore := ⟨by decide +kernel,by decide +kernel⟩
  have hfirst := computePayrollRun_of_computable hrun (fun i => 80 + i) 4
  have hok : (computePayrollRun 1 40 (fun i => 80 + i) 4).run leftoverStore =
      (.ok (planned leftoverStore run (fun i => 80 + i) 4),recomputedStore) := by
    rw [recomputedStore,hfirst]
  exact computed_run_complete hkeyed hok

end PinoyTax.Payroll
