import PinoyTax.Payroll.Service

/-! # What one computation does to the store

The engine calls of an employee read the rules and nothing else, so that the payslip
of an employee is a function of the rule table. A computation that is cut off leaves
the store in one of three shapes: untouched, marked as processing, or with the old
payslips gone and the first few new ones inserted.
-/
namespace PinoyTax.Payroll
open PinoyTax Foundation TaxEngine

def engineAmountOf (rules : List TaxRule) (ruleCode : String) (basicPay : ℚ) (asOf : DateTime) :
    ℚ × List String :=
  resolved (graduatedResult (activeRule rules ruleCode asOf) ruleCode (some basicPay) ruleCode asOf asOf)

def contributionOf (rules : List TaxRule) (number : Option String) (missing ruleCode : String)
    (basicPay : ℚ) (asOf : DateTime) : ℚ × List String :=
  if present number then engineAmountOf rules ruleCode basicPay asOf else (0,[missing])

def payslipFor (rules : List TaxRule) (run : PayrollRun) (now : DateTime) (id : Uuid) (e : Employee) : Payslip :=
  let basicPay := e.basicSalary.toNumber
  payslipRow run e id now
    (contributionOf rules e.sssNumber "missing_sss_number" "SSS_EMPLOYEE_CONTRIBUTION_RATE" basicPay run.periodEnd)
    (contributionOf rules e.philhealthNumber "missing_philhealth_number"
      "PHILHEALTH_EMPLOYEE_CONTRIBUTION_RATE" basicPay run.periodEnd)
    (contributionOf rules e.pagibigNumber "missing_pagibig_number"
      "PAGIBIG_EMPLOYEE_CONTRIBUTION_RATE" basicPay run.periodEnd)
    (engineAmountOf rules "WITHHOLDING_COMP_BRACKETS" basicPay run.periodEnd)

def payslipsFor (rules : List TaxRule) (run : PayrollRun) (now : DateTime) :
    (ℕ → Uuid) → List Employee → List Payslip
  | _, [] => []
  | ids, e :: es => payslipFor rules run now (ids 0) e :: payslipsFor rules run now (fun i => ids (i + 1)) es

theorem mem_payslipsFor {rules : List TaxRule} {run : PayrollRun} {now : DateTime} {ids : ℕ → Uuid}
    {es : List Employee} {p : Payslip} (h : p ∈ payslipsFor rules run now ids es) :
    ∃ e ∈ es, ∃ id, p = payslipFor rules run now id e := by
  induction es generalizing ids with
  | nil => simp [payslipsFor] at h
  | cons e es ih =>
    rcases List.mem_cons.mp h with rfl | h
    · exact ⟨e,List.mem_cons_self,ids 0,rfl⟩
    · obtain ⟨e',he',id,rfl⟩ := ih h
      exact ⟨e',List.mem_cons_of_mem _ he',id,rfl⟩

theorem payslipsFor_payrollRunId {rules : List TaxRule} {run : PayrollRun} {now : DateTime} {ids : ℕ → Uuid}
    {es : List Employee} {p : Payslip} (h : p ∈ payslipsFor rules run now ids es) : p.payrollRunId = run.id := by
  obtain ⟨e,-,id,rfl⟩ := mem_payslipsFor h
  rfl

/-- One payslip for each employee, in the order of the list. -/
@[simp] theorem map_employeeId_payslipsFor (rules : List TaxRule) (run : PayrollRun) (now : DateTime)
    (ids : ℕ → Uuid) (es : List Employee) :
    (payslipsFor rules run now ids es).map Payslip.employeeId = es.map Employee.id := by
  induction es generalizing ids with
  | nil => rfl
  | cons e es ih =>
    rw [payslipsFor,List.map_cons,List.map_cons,ih]
    rfl

def addPayslips (s : Store) (ps : List Payslip) : Store :=
  { s with payroll.payslips := s.payroll.payslips ++ ps }

@[simp] theorem addPayslips_nil (s : Store) : addPayslips s [] = s := by simp [addPayslips]
theorem addPayslips_cons (s : Store) (p : Payslip) (ps : List Payslip) :
    addPayslips (addPayslips s [p]) ps = addPayslips s (p :: ps) := by simp [addPayslips]

section Runs
variable (run : PayrollRun) (now : DateTime)

@[simp] theorem run_engineAmount (ruleCode : String) (basicPay : ℚ) (asOf : DateTime) (s : Store) :
    (engineAmount ruleCode basicPay asOf).run s =
      (.ok (engineAmountOf s.taxEngine.taxRules ruleCode basicPay asOf),s) := rfl

@[simp] theorem run_contribution (number : Option String) (missing ruleCode : String) (basicPay : ℚ)
    (asOf : DateTime) (s : Store) :
    (contribution number missing ruleCode basicPay asOf).run s =
      (.ok (contributionOf s.taxEngine.taxRules number missing ruleCode basicPay asOf),s) := by
  unfold contribution contributionOf
  split <;> rfl

theorem keeps_contribution {τ : Type} {g : Store → τ} (number : Option String) (missing ruleCode : String)
    (basicPay : ℚ) (asOf : DateTime) : (contribution number missing ruleCode basicPay asOf).Keeps g := by
  unfold contribution
  split
  · exact fun _ => ⟨rfl,trivial⟩
  · trivial

@[simp] theorem run_computePayslip (id : Uuid) (e : Employee) (s : Store) :
    (computePayslip run now id e).run s =
      (.ok (payslipFor s.taxEngine.taxRules run now id e),
        addPayslips s [payslipFor s.taxEngine.taxRules run now id e]) := by
  simp only [computePayslip,Prog.run_bind,run_contribution,run_engineAmount,Prog.resume_ok]
  rfl

theorem run_computePayslips (ids : ℕ → Uuid) (es : List Employee) (s : Store) :
    (computePayslips run now ids es).run s =
      (.ok (payslipsFor s.taxEngine.taxRules run now ids es),
        addPayslips s (payslipsFor s.taxEngine.taxRules run now ids es)) := by
  induction es generalizing ids s with
  | nil => simp [computePayslips,payslipsFor]
  | cons e es ih =>
    simp only [computePayslips,Prog.run_bind,run_computePayslip,Prog.resume_ok,ih]
    simp [payslipsFor,addPayslips]

end Runs

/-! ## The whole request -/

def markProcessing (runId : Uuid) (s : Store) : Store :=
  { s with payroll.payrollRuns := Table.updateMany (fun r => r.id = runId) setProcessing s.payroll.payrollRuns }

def clearPayslips (runId : Uuid) (s : Store) : Store :=
  { s with payroll.payslips := Table.deleteMany (fun p => p.payrollRunId = runId) s.payroll.payslips }

/-- The run that a computation works on: found, of the company, not yet immutable. -/
def computable (s : Store) (companyId runId : Uuid) : Option PayrollRun :=
  (s.payroll.payrollRuns.find? (fun r => r.id = runId)).filter
    (fun r => decide (r.companyId = companyId) && !immutable r.status)

theorem computable_eq_some {s : Store} {companyId runId : Uuid} {run : PayrollRun} :
    computable s companyId runId = some run ↔
      s.payroll.payrollRuns.find? (fun r => r.id = runId) = some run ∧ run.companyId = companyId ∧
        immutable run.status = false := by
  unfold computable
  rw [Option.filter_eq_some_iff]
  simp

/-- The store at the start of the insertions. -/
def cleared (runId : Uuid) (s : Store) : Store := clearPayslips runId (markProcessing runId s)

@[simp] theorem cleared_payslips (runId : Uuid) (s : Store) : (cleared runId s).payroll.payslips =
    Table.deleteMany (fun p => p.payrollRunId = runId) s.payroll.payslips := rfl
@[simp] theorem addPayslips_payslips (s : Store) (ps : List Payslip) :
    (addPayslips s ps).payroll.payslips = s.payroll.payslips ++ ps := rfl
/-- The payslips that a computation started in `s` is going to insert. -/
def planned (s : Store) (run : PayrollRun) (ids : ℕ → Uuid) (now : DateTime) : List Payslip :=
  payslipsFor s.taxEngine.taxRules run now ids (activeEmployees s run.companyId)

theorem computePayrollRun_of_computable {s : Store} {companyId runId : Uuid} {run : PayrollRun}
    (h : computable s companyId runId = some run) (ids : ℕ → Uuid) (now : DateTime) :
    (computePayrollRun companyId runId ids now).run s =
      (.ok (planned s run ids now),addPayslips (cleared run.id s) (planned s run ids now)) := by
  obtain ⟨hf,rfl,hi⟩ := computable_eq_some.mp h
  have hid : run.id = runId := (Table.find?_key_some hf).2
  have hu : (Prisma.payrollRun.get s).find? (fun r => r.id = run.id) = some run := by rw [hid]; exact hf
  have hf' : (Prisma.payrollRun.get s).find? (fun r => r.id = runId) = some run := hf
  simp only [computePayrollRun,Prog.run_bind,TableRef.run_findUnique,hf',Prog.resume_ok,ownedBy,if_true,
    Prog.run_done,hi,Bool.false_eq_true,if_false,TableRef.run_update_of_find hu,TableRef.run_findMany,
    TableRef.run_deleteMany]
  exact run_computePayslips run now ids _ (cleared run.id s)

theorem computePayrollRun_of_not_computable {s : Store} {companyId runId : Uuid}
    (h : computable s companyId runId = none) (ids : ℕ → Uuid) (now : DateTime) :
    ∃ e, (computePayrollRun companyId runId ids now).run s = (.error e,s) := by
  unfold computePayrollRun
  simp only [Prog.run_bind,TableRef.run_findUnique,Prog.resume_ok]
  cases hf : (Prisma.payrollRun.get s).find? (fun r => r.id = runId) with
  | none => exact ⟨_,rfl⟩
  | some run =>
    by_cases hc : run.companyId = companyId
    · have hi : immutable run.status = true := by
        by_contra hi
        have hs := computable_eq_some.mpr ⟨hf,hc,by simpa using hi⟩
        rw [h] at hs
        cases hs
      exact ⟨payrollRunImmutable,by simp [ownedBy,hc,hi]⟩
    · exact ⟨payrollRunNotFound,by simp [ownedBy,hc]⟩

/-! ## Computations that are cut off -/

theorem within_engineAmount {P : Store → Prop} {s : Store} (h : P s) (ruleCode : String) (basicPay : ℚ)
    (asOf : DateTime) : (engineAmount ruleCode basicPay asOf).Within P s := ⟨h,h⟩

theorem within_contribution {P : Store → Prop} {s : Store} (h : P s) (number : Option String)
    (missing ruleCode : String) (basicPay : ℚ) (asOf : DateTime) :
    (contribution number missing ruleCode basicPay asOf).Within P s := by
  unfold contribution
  split
  · exact within_engineAmount h ruleCode basicPay asOf
  · exact h

theorem within_computePayslip {P : Store → Prop} {s : Store} (run : PayrollRun) (now : DateTime) (id : Uuid)
    (e : Employee) (h : P s) (h' : P (addPayslips s [payslipFor s.taxEngine.taxRules run now id e])) :
    (computePayslip run now id e).Within P s := by
  unfold computePayslip
  apply (within_contribution h ..).bind
  intro sss hsss
  rw [run_contribution] at hsss ⊢
  apply (within_contribution h ..).bind
  intro philhealth hphilhealth
  rw [run_contribution] at hphilhealth ⊢
  apply (within_contribution h ..).bind
  intro pagibig hpagibig
  rw [run_contribution] at hpagibig ⊢
  apply (within_engineAmount h ..).bind
  intro withholding hwithholding
  rw [run_engineAmount] at hwithholding ⊢
  cases hsss
  cases hphilhealth
  cases hpagibig
  cases hwithholding
  exact ⟨h,h'⟩

/-- On the way through the employees the store holds the first few new payslips. -/
theorem within_computePayslips {P : Store → Prop} {s : Store} (run : PayrollRun) (now : DateTime)
    (ids : ℕ → Uuid) (es : List Employee)
    (h : ∀ k, P (addPayslips s ((payslipsFor s.taxEngine.taxRules run now ids es).take k))) :
    (computePayslips run now ids es).Within P s := by
  induction es generalizing s ids with
  | nil => simpa [payslipsFor,computePayslips] using h 0
  | cons e es ih =>
    have h0 : P s := by simpa using h 0
    have h1 : P (addPayslips s [payslipFor s.taxEngine.taxRules run now (ids 0) e]) := by
      simpa [payslipsFor] using h 1
    apply (within_computePayslip run now (ids 0) e h0 h1).bind
    intro p hp
    rw [run_computePayslip]
    refine Prog.Within.bind (ih _ fun k => ?_) fun ps hps => ?_
    · have hk := h (k + 1)
      rwa [payslipsFor,List.take_succ_cons,← addPayslips_cons] at hk
    · have hall := h (payslipsFor s.taxEngine.taxRules run now ids (e :: es)).length
      rw [List.take_length,payslipsFor,← addPayslips_cons] at hall
      rw [run_computePayslips]
      exact hall

/-- The states on the way of a computation: the store as it was, marked as
processing, or cleared and with the first few new payslips. -/
theorem within_computePayrollRun {P : Store → Prop} {s : Store} {companyId runId : Uuid} {ids : ℕ → Uuid}
    {now : DateTime} (h0 : P s)
    (h1 : ∀ run, computable s companyId runId = some run → P (markProcessing run.id s) ∧
      ∀ k, P (addPayslips (cleared run.id s) ((planned s run ids now).take k))) :
    (computePayrollRun companyId runId ids now).Within P s := by
  refine ⟨h0,?_⟩
  change Prog.Within P (ownedBy _ _ _ (s.payroll.payrollRuns.find? (fun r => r.id = runId)) >>= _) s
  cases hf : s.payroll.payrollRuns.find? (fun r => r.id = runId) with
  | none => exact h0
  | some run =>
    simp only [ownedBy]
    by_cases hc : run.companyId = companyId
    · rw [if_pos hc,Prog.done_ok_bind]
      cases hi : immutable run.status with
      | true => exact h0
      | false =>
        obtain ⟨hm,hk⟩ := h1 run (computable_eq_some.mpr ⟨hf,hc,hi⟩)
        have hid : run.id = runId := (Table.find?_key_some hf).2
        refine ⟨h0,?_⟩
        have hu : (Prisma.payrollRun.get s).find? (fun r => r.id = run.id) = some run := by rw [hid]; exact hf
        simp only [hu]
        refine ⟨hm,hm,?_⟩
        exact within_computePayslips run now ids _ hk
    · rw [if_neg hc]
      exact h0

end PinoyTax.Payroll
