import PinoyTax.Payroll.NetPay
import PinoyTax.TaxEngine.ExactTax

/-! # What is left of a raise

All four deductions follow the pay by their own schedule, each rounded for itself. What a
higher pay costs in deductions stays below the top rates together, but for less than a
centavo a deduction.
-/
namespace PinoyTax.Payroll
open PinoyTax Foundation TaxEngine

/-- The same contributions are owed. -/
def SameNumbers (e f : Employee) : Prop :=
  present e.sssNumber = present f.sssNumber ∧ present e.philhealthNumber = present f.philhealthNumber ∧
    present e.pagibigNumber = present f.pagibigNumber

instance (e f : Employee) : Decidable (SameNumbers e f) := inferInstanceAs (Decidable (_ ∧ _ ∧ _))

section
variable {seedTaxRateIds : String → Uuid} {rules : List TaxRule} {asOf : DateTime} {x y r : ℚ}
  {ruleCode : String} {rows : List TaxRateHistory}

/-- An engine call follows the seeded schedule, or takes nothing from anybody. -/
theorem engineAmountOf_cases (hseed : Seeded seedTaxRateIds rules asOf)
    (hschedule : (ruleCode,rows) ∈ seedSchedules seedTaxRateIds) :
    (∀ pay, (engineAmountOf rules ruleCode pay asOf).1 = 0) ∨
      ∀ pay, (engineAmountOf rules ruleCode pay asOf).1 = graduatedTax rows pay := by
  have hnone (hc : configured (activeRule rules ruleCode asOf) = false) (pay : ℚ) :
      (engineAmountOf rules ruleCode pay asOf).1 = 0 := by
    have hmissing : missingInputs (activeRule rules ruleCode asOf) ruleCode (some pay) ruleCode ≠ [] := by
      intro hnil
      exact absurd (missingInputs_eq_nil.mp hnil).2 (by simp [hc])
    rw [engineAmountOf,graduatedResult_of_missing asOf asOf hmissing,resolved,
      if_pos (List.length_pos_of_ne_nil hmissing)]
  cases hrule : activeRule rules ruleCode asOf with
  | none => exact .inl (hnone (by rw [hrule]; rfl))
  | some rule =>
    rcases hseed _ hschedule rule hrule with hrows | hperm
    · exact .inl (hnone (by rw [hrule,configured,hrows]; rfl))
    · refine .inr fun pay => ?_
      have hpart := (partitions_schedule hschedule).of_perm hperm
      rw [engineAmountOf,hrule,graduatedResult_of_partitions hpart,← graduatedTax_perm hperm pay]
      rfl

/-- What one deduction takes of the difference of two pays. -/
theorem engineAmountOf_sub_lt (hseed : Seeded seedTaxRateIds rules asOf)
    (hschedule : (ruleCode,rows) ∈ seedSchedules seedTaxRateIds)
    (hrates : ∀ row ∈ rows, 0 ≤ row.rateValue ∧ row.rateValue ≤ r) (hwhole : ∀ row ∈ rows, WholeWhenFull row)
    (hr : 0 ≤ r) (hx : 0 ≤ x) (hxy : x ≤ y) :
    (engineAmountOf rules ruleCode y asOf).1 - (engineAmountOf rules ruleCode x asOf).1 < r * (y - x) + 1 / 10 ^ 2 := by
  rcases engineAmountOf_cases hseed hschedule with hzero | htax
  · rw [hzero,hzero,sub_self]
    have hraise := mul_nonneg hr (sub_nonneg.mpr hxy)
    linarith
  · rw [htax,htax]
    exact graduatedTax_sub_lt (partitions_schedule hschedule) (fun row hrow => (hrates row hrow).1)
      (fun row hrow => (hrates row hrow).2) hwhole hx hxy

theorem contributionOf_sub_lt {number number' : Option String} (hsame : present number = present number')
    (missing : String) (hseed : Seeded seedTaxRateIds rules asOf)
    (hschedule : (ruleCode,rows) ∈ seedSchedules seedTaxRateIds)
    (hrates : ∀ row ∈ rows, 0 ≤ row.rateValue ∧ row.rateValue ≤ r) (hwhole : ∀ row ∈ rows, WholeWhenFull row)
    (hr : 0 ≤ r) (hx : 0 ≤ x) (hxy : x ≤ y) :
    (contributionOf rules number' missing ruleCode y asOf).1 - (contributionOf rules number missing ruleCode x asOf).1 <
      r * (y - x) + 1 / 10 ^ 2 := by
  rw [contributionOf,contributionOf,hsame]
  split
  · exact engineAmountOf_sub_lt hseed hschedule hrates hwhole hr hx hxy
  · rw [sub_self]
    have hraise := mul_nonneg hr (sub_nonneg.mpr hxy)
    linarith

/-- The net pay is the pay less the four deductions, whole centavos that they are. -/
theorem netPay_payslipRow (run : PayrollRun) (employee : Employee) (id : Uuid) (now : DateTime)
    {sss philhealth pagibig withholding : ℚ × List String} {a b c d : ℚ}
    (hsss : ShareOf employee.basicSalary.toNumber a sss.1)
    (hphilhealth : ShareOf employee.basicSalary.toNumber b philhealth.1)
    (hpagibig : ShareOf employee.basicSalary.toNumber c pagibig.1)
    (hwithholding : ShareOf employee.basicSalary.toNumber d withholding.1) :
    (payslipRow run employee id now sss philhealth pagibig withholding).netPay.toNumber =
      employee.basicSalary.toNumber - (sss.1 + philhealth.1 + pagibig.1 + withholding.1) := by
  obtain ⟨m₁,h₁⟩ := hsss.rounded
  obtain ⟨m₂,h₂⟩ := hphilhealth.rounded
  obtain ⟨m₃,h₃⟩ := hpagibig.rounded
  obtain ⟨m₄,h₄⟩ := hwithholding.rounded
  simp only [payslipRow,← h₁,← h₂,← h₃,← h₄,Money.toNumber_add,Money.toNumber_sub,Money.toFixed_toNumber,
    Money.ofNumber_toNumber]

/-! ## The seeded schedules -/

/-- In whole pesos, with a rate that takes whole centavos of all of the bracket. -/
theorem wholeWhenFull_seedBracket (label : String) {min max : ℤ} {rate : ℚ} (n : ℕ)
    (hn : ((max : ℚ) - min) * rate = n / 10 ^ 2) : WholeWhenFull (seedBracket seedTaxRateIds label min (some max) rate) := by
  intro m hm
  obtain rfl := Option.some.inj hm
  refine ⟨n,?_⟩
  rw [← hn]
  simp only [bandOf,lowerBound,seedBracket,Option.map_some,Option.getD_some,Money.toNumber]
  push_cast
  ring

theorem wholeWhenFull_seedBracket_none (label : String) (min : ℤ) (rate : ℚ) :
    WholeWhenFull (seedBracket seedTaxRateIds label min none rate) := by
  intro m hm
  cases hm

theorem wholeWhenFull_contributions : (∀ row ∈ sssBrackets seedTaxRateIds, WholeWhenFull row) ∧
    (∀ row ∈ philhealthBrackets seedTaxRateIds, WholeWhenFull row) ∧
    ∀ row ∈ pagibigBrackets seedTaxRateIds, WholeWhenFull row := by
  refine ⟨?_,?_,?_⟩
  · exact List.forall_mem_cons.mpr ⟨wholeWhenFull_seedBracket _ 175000 (by norm_num),
      List.forall_mem_singleton.mpr (wholeWhenFull_seedBracket_none _ _ _)⟩
  · exact List.forall_mem_cons.mpr ⟨wholeWhenFull_seedBracket _ 250000 (by norm_num),
      List.forall_mem_singleton.mpr (wholeWhenFull_seedBracket_none _ _ _)⟩
  · exact List.forall_mem_cons.mpr ⟨wholeWhenFull_seedBracket _ 20000 (by norm_num),
      List.forall_mem_singleton.mpr (wholeWhenFull_seedBracket_none _ _ _)⟩

theorem wholeWhenFull_withholding : ∀ row ∈ withholdingBrackets seedTaxRateIds, WholeWhenFull row := by
  refine List.forall_mem_cons.mpr ⟨wholeWhenFull_seedBracket _ 0 (by norm_num),?_⟩
  refine List.forall_mem_cons.mpr ⟨wholeWhenFull_seedBracket _ 187500 (by norm_num),?_⟩
  refine List.forall_mem_cons.mpr ⟨wholeWhenFull_seedBracket _ 666680 (by norm_num),?_⟩
  refine List.forall_mem_cons.mpr ⟨wholeWhenFull_seedBracket _ 2500000 (by norm_num),?_⟩
  refine List.forall_mem_cons.mpr ⟨wholeWhenFull_seedBracket _ 15000000 (by norm_num),?_⟩
  exact List.forall_mem_singleton.mpr (wholeWhenFull_seedBracket_none _ _ _)

/-- Of two employees with the same numbers in one run the higher paid one keeps more than 55.5 percent of the
difference, but for four centavos. -/
theorem netPay_sub_payslipFor {run : PayrollRun} {e f : Employee} (now now' : DateTime) (id id' : Uuid)
    (hseed : Seeded seedTaxRateIds rules run.periodEnd) (hpay : 0 ≤ e.basicSalary.centavos)
    (hle : e.basicSalary.centavos ≤ f.basicSalary.centavos) (hsame : SameNumbers e f) :
    555 / 1000 * (f.basicSalary.toNumber - e.basicSalary.toNumber) - 4 / 10 ^ 2 <
      (payslipFor rules run now' id' f).netPay.toNumber - (payslipFor rules run now id e).netPay.toNumber := by
  have hx := Money.toNumber_nonneg_iff.mpr hpay
  have hxy := Money.toNumber_le_iff.mpr hle
  have hy := hx.trans hxy
  have hsss : ("SSS_EMPLOYEE_CONTRIBUTION_RATE",sssBrackets seedTaxRateIds) ∈ seedSchedules seedTaxRateIds := by
    simp [seedSchedules]
  have hphilhealth : ("PHILHEALTH_EMPLOYEE_CONTRIBUTION_RATE",philhealthBrackets seedTaxRateIds) ∈
      seedSchedules seedTaxRateIds := by simp [seedSchedules]
  have hpagibig : ("PAGIBIG_EMPLOYEE_CONTRIBUTION_RATE",pagibigBrackets seedTaxRateIds) ∈
      seedSchedules seedTaxRateIds := by simp [seedSchedules]
  have hwithholding : ("WITHHOLDING_COMP_BRACKETS",withholdingBrackets seedTaxRateIds) ∈
      seedSchedules seedTaxRateIds := by simp [seedSchedules]
  have hsssRates : ∀ row ∈ sssBrackets seedTaxRateIds, 0 ≤ row.rateValue ∧ row.rateValue ≤ 1 / 20 := by
    simp [sssBrackets,seedBracket]
  have hphilhealthRates : ∀ row ∈ philhealthBrackets seedTaxRateIds, 0 ≤ row.rateValue ∧ row.rateValue ≤ 1 / 40 := by
    simp [philhealthBrackets,seedBracket]
  have hpagibigRates : ∀ row ∈ pagibigBrackets seedTaxRateIds, 0 ≤ row.rateValue ∧ row.rateValue ≤ 1 / 50 := by
    simp [pagibigBrackets,seedBracket]
  have hwithholdingRates : ∀ row ∈ withholdingBrackets seedTaxRateIds, 0 ≤ row.rateValue ∧ row.rateValue ≤ 7 / 20 := by
    norm_num [withholdingBrackets,seedBracket]
  have hnet (e : Employee) (now : DateTime) (id : Uuid) (h : 0 ≤ e.basicSalary.toNumber) :=
    netPay_payslipRow run e id now
      (shareOf_contributionOf e.sssNumber "missing_sss_number" hseed hsss hsssRates (by norm_num) h)
      (shareOf_contributionOf e.philhealthNumber "missing_philhealth_number" hseed hphilhealth hphilhealthRates
        (by norm_num) h)
      (shareOf_contributionOf e.pagibigNumber "missing_pagibig_number" hseed hpagibig hpagibigRates (by norm_num) h)
      (shareOf_engineAmountOf hseed hwithholding hwithholdingRates (by norm_num) h)
  have hdeltaSss := contributionOf_sub_lt hsame.1 "missing_sss_number" hseed hsss hsssRates wholeWhenFull_contributions.1
    (by norm_num) hx hxy
  have hdeltaPhilhealth := contributionOf_sub_lt hsame.2.1 "missing_philhealth_number" hseed hphilhealth
    hphilhealthRates wholeWhenFull_contributions.2.1 (by norm_num) hx hxy
  have hdeltaPagibig := contributionOf_sub_lt hsame.2.2 "missing_pagibig_number" hseed hpagibig hpagibigRates
    wholeWhenFull_contributions.2.2 (by norm_num) hx hxy
  have hdeltaWithholding := engineAmountOf_sub_lt hseed hwithholding hwithholdingRates wholeWhenFull_withholding
    (by norm_num) hx hxy
  rw [payslipFor,payslipFor,hnet f now' id' hy,hnet e now id hx]
  linarith

end

/-- A payslip that a computation adds is that of an active employee. -/
theorem mem_leaves_computePayrollRun {s : Store} {companyId payrollRunId : Uuid} {ids : ℕ → Uuid} {now : DateTime}
    {cut : Option ℕ} {p : Payslip}
    (hp : p ∈ ((computePayrollRun companyId payrollRunId ids now).leaves cut s).payroll.payslips)
    (hnew : p ∉ s.payroll.payslips) :
    ∃ run, s.payroll.payrollRuns.find? (fun r => r.id = payrollRunId) = some run ∧
      ∃ e ∈ activeEmployees s companyId, ∃ id, p = payslipFor s.taxEngine.taxRules run now id e := by
  have ht := transition_computePayrollRun s companyId payrollRunId ids now cut
  generalize (computePayrollRun companyId payrollRunId ids now).leaves cut s = t at ht hp
  cases ht with
  | computeKept h => exact absurd hp hnew
  | computeMarked h hcut => exact absurd hp hnew
  | computeInserted h k hk =>
    rename_i run
    obtain ⟨hf,hc,-⟩ := computable_eq_some.mp h
    rw [addPayslips_payslips,cleared_payslips] at hp
    rcases List.mem_append.mp hp with hold | hins
    · exact absurd (Table.mem_deleteMany.mp hold).1 hnew
    · obtain ⟨e,he,id,rfl⟩ := mem_payslipsFor (List.mem_of_mem_take hins)
      exact ⟨run,hf,e,by rwa [← hc],id,rfl⟩

/-- Of any two payslips that one computation stores, however far it gets, for employees with the same numbers: the net
pays differ by more than 55.5 percent of the difference of the gross pays less four centavos. So whoever earns eight
centavos more also takes home more. -/
theorem raises_are_taken_home {seedTaxRateIds : String → Uuid} {s : Store} {companyId payrollRunId : Uuid}
    (ids : ℕ → Uuid) (now : DateTime) (cut : Option ℕ)
    (hseed : ∀ run ∈ s.payroll.payrollRuns, Seeded seedTaxRateIds s.taxEngine.taxRules run.periodEnd) {p q : Payslip}
    (hp : p ∈ ((computePayrollRun companyId payrollRunId ids now).leaves cut s).payroll.payslips)
    (hq : q ∈ ((computePayrollRun companyId payrollRunId ids now).leaves cut s).payroll.payslips)
    (hpnew : p ∉ s.payroll.payslips) (hqnew : q ∉ s.payroll.payslips) :
    ∃ e ∈ activeEmployees s companyId, ∃ f ∈ activeEmployees s companyId, p.employeeId = e.id ∧ q.employeeId = f.id ∧
      p.grossPay = e.basicSalary ∧ q.grossPay = f.basicSalary ∧
      (SameNumbers e f → 0 ≤ p.grossPay.centavos → p.grossPay.centavos ≤ q.grossPay.centavos →
        555 * (q.grossPay.centavos - p.grossPay.centavos) - 4000 < 1000 * (q.netPay.centavos - p.netPay.centavos) ∧
          (p.grossPay.centavos + 8 ≤ q.grossPay.centavos → p.netPay.centavos < q.netPay.centavos)) := by
  obtain ⟨run,hrun,e,he,id,rfl⟩ := mem_leaves_computePayrollRun hp hpnew
  obtain ⟨run',hrun',f,hf,id',rfl⟩ := mem_leaves_computePayrollRun hq hqnew
  obtain rfl := Option.some.inj (hrun.symm.trans hrun')
  have hgross (e : Employee) (id : Uuid) : (payslipFor s.taxEngine.taxRules run now id e).grossPay = e.basicSalary :=
    Money.ofNumber_toNumber _
  refine ⟨e,he,f,hf,rfl,rfl,hgross e id,hgross f id',fun hsame hpay hle => ?_⟩
  rw [hgross,hgross] at hle
  rw [hgross] at hpay
  rw [hgross,hgross]
  have hkept := netPay_sub_payslipFor now now id id' (hseed run (Table.find?_key_some hrun).1) hpay hle hsame
  have hcentavos : 555 * (f.basicSalary.centavos - e.basicSalary.centavos) - 4000 <
      1000 * ((payslipFor s.taxEngine.taxRules run now id' f).netPay.centavos -
        (payslipFor s.taxEngine.taxRules run now id e).netPay.centavos) := by
    simp only [Money.toNumber] at hkept
    have hscaled : (555 * (f.basicSalary.centavos - e.basicSalary.centavos) - 4000 : ℚ) <
        1000 * ((payslipFor s.taxEngine.taxRules run now id' f).netPay.centavos -
          (payslipFor s.taxEngine.taxRules run now id e).netPay.centavos) := by linarith
    exact_mod_cast hscaled
  exact ⟨hcentavos,fun hmore => by omega⟩

/-- A second employee of the seeded payroll, without an SSS number as well, who earns eight centavos more. -/
def raisedPayroll : Store := next seededPayroll (.createEmployee 1 { hire none with basicSalary := 4567899 / 100 } 11)

def raisedPayslip : Payslip :=
  { seededPayslip with
    id := 51
    employeeId := 11
    basicPay := ⟨4567899⟩
    withholdingTax := ⟨434420⟩
    grossPay := ⟨4567899⟩
    totalDeductions := ⟨454420⟩
    netPay := ⟨4113479⟩ }

theorem raises_are_taken_home_eight_centavos :
    ∃ e ∈ activeEmployees raisedPayroll 1, ∃ f ∈ activeEmployees raisedPayroll 1, seededPayslip.employeeId = e.id ∧
      raisedPayslip.employeeId = f.id ∧ seededPayslip.grossPay = e.basicSalary ∧
      raisedPayslip.grossPay = f.basicSalary ∧
      (SameNumbers e f → 0 ≤ seededPayslip.grossPay.centavos →
        seededPayslip.grossPay.centavos ≤ raisedPayslip.grossPay.centavos →
        555 * (raisedPayslip.grossPay.centavos - seededPayslip.grossPay.centavos) - 4000 <
            1000 * (raisedPayslip.netPay.centavos - seededPayslip.netPay.centavos) ∧
          (seededPayslip.grossPay.centavos + 8 ≤ raisedPayslip.grossPay.centavos →
            seededPayslip.netPay.centavos < raisedPayslip.netPay.centavos)) := by
  have hpayslips : ((computePayrollRun 1 40 (fun i => 50 + i) 5).leaves none raisedPayroll).payroll.payslips =
      [seededPayslip,raisedPayslip] := by decide +kernel
  have hseeded : ∀ run ∈ raisedPayroll.payroll.payrollRuns,
      Seeded String.length raisedPayroll.taxEngine.taxRules run.periodEnd := by decide +kernel
  have hnone : raisedPayroll.payroll.payslips = [] := by decide +kernel
  have hnew (p : Payslip) : p ∉ raisedPayroll.payroll.payslips := by
    rw [hnone]
    exact List.not_mem_nil
  exact raises_are_taken_home (fun i => 50 + i) 5 none hseeded (by rw [hpayslips]; exact List.mem_cons_self)
    (by rw [hpayslips]; exact List.mem_cons_of_mem _ List.mem_cons_self) (hnew _) (hnew _)

end PinoyTax.Payroll
