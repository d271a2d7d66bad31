import PinoyTax.Payroll.Requests
import PinoyTax.TaxEngine.Seed

/-! # What a payslip adds up to

The four amounts of a payslip are rounded to centavos, so that their sum and the net
amount pass through the columns unchanged. Under the seeded schedules the top rates
together stay below a half, which leaves room for rounding up every bracket.
-/
namespace PinoyTax.Payroll
open PinoyTax Foundation TaxEngine

/-- The amounts of a payslip fit together, to the centavo. -/
structure Reconciles (p : Payslip) : Prop where
  total : p.totalDeductions.centavos =
    p.sssContribution.centavos + p.philhealthContribution.centavos + p.pagibigContribution.centavos +
      p.withholdingTax.centavos
  net : p.netPay.centavos + p.totalDeductions.centavos = p.grossPay.centavos
  nonneg : 0 ≤ p.netPay.centavos
  le : p.netPay.centavos ≤ p.grossPay.centavos

/-- An amount of whole centavos that takes no more than this share of the pay. -/
structure ShareOf (pay share amount : ℚ) : Prop where
  rounded : ∃ m : Money, m.toNumber = amount
  nonneg : 0 ≤ amount
  le : amount ≤ share * pay

theorem shareOf_zero {pay share : ℚ} (hpay : 0 ≤ pay) (hshare : 0 ≤ share) : ShareOf pay share 0 :=
  ⟨⟨⟨0⟩,by simp [Money.toNumber]⟩,le_rfl,mul_nonneg hshare hpay⟩

theorem reconciles_payslipRow (run : PayrollRun) (employee : Employee) (id : Uuid) (now : DateTime)
    {sss philhealth pagibig withholding : ℚ × List String} {a b c d : ℚ} (hpay : 0 ≤ employee.basicSalary.toNumber)
    (hsss : ShareOf employee.basicSalary.toNumber a sss.1)
    (hphilhealth : ShareOf employee.basicSalary.toNumber b philhealth.1)
    (hpagibig : ShareOf employee.basicSalary.toNumber c pagibig.1)
    (hwithholding : ShareOf employee.basicSalary.toNumber d withholding.1) (hshares : a + b + c + d ≤ 1) :
    Reconciles (payslipRow run employee id now sss philhealth pagibig withholding) := by
  have hnonneg := add_nonneg (add_nonneg (add_nonneg hsss.nonneg hphilhealth.nonneg) hpagibig.nonneg) hwithholding.nonneg
  have hall : sss.1 + philhealth.1 + pagibig.1 + withholding.1 ≤ employee.basicSalary.toNumber := by
    have hsum : (a + b + c + d) * employee.basicSalary.toNumber ≤ 1 * employee.basicSalary.toNumber :=
      mul_le_mul_of_nonneg_right hshares hpay
    linarith [hsss.le,hphilhealth.le,hpagibig.le,hwithholding.le]
  obtain ⟨m₁,h₁⟩ := hsss.rounded
  obtain ⟨m₂,h₂⟩ := hphilhealth.rounded
  obtain ⟨m₃,h₃⟩ := hpagibig.rounded
  obtain ⟨m₄,h₄⟩ := hwithholding.rounded
  rw [← h₁,← h₂,← h₃,← h₄,Money.toNumber_add,Money.toNumber_add,Money.toNumber_add] at hall hnonneg
  rw [Money.toNumber_le_iff] at hall
  rw [Money.toNumber_nonneg_iff] at hnonneg
  dsimp only at hall hnonneg
  constructor
  all_goals
    simp only [payslipRow,← h₁,← h₂,← h₃,← h₄,Money.toNumber_add,Money.toNumber_sub,Money.toFixed_toNumber,
      Money.ofNumber_toNumber]
  all_goals omega

section
variable {seedTaxRateIds : String → Uuid} {rules : List TaxRule} {asOf : DateTime} {pay r : ℚ}
  {ruleCode : String} {rows : List TaxRateHistory}

/-- An engine call takes nothing when its rule is missing, and twice the top rate at most. -/
theorem shareOf_engineAmountOf (hseed : Seeded seedTaxRateIds rules asOf)
    (hschedule : (ruleCode,rows) ∈ seedSchedules seedTaxRateIds)
    (hrates : ∀ row ∈ rows, 0 ≤ row.rateValue ∧ row.rateValue ≤ r) (hr : 0 ≤ r) (hpay : 0 ≤ pay) :
    ShareOf pay (2 * r) (engineAmountOf rules ruleCode pay asOf).1 := by
  have hnone (hc : configured (activeRule rules ruleCode asOf) = false) :
      (engineAmountOf rules ruleCode pay asOf).1 = 0 := by
    have hmissing : missingInputs (activeRule rules ruleCode asOf) ruleCode (some pay) ruleCode ≠ [] := by
      intro hnil
      exact absurd (missingInputs_eq_nil.mp hnil).2 (by simp [hc])
    rw [engineAmountOf,graduatedResult_of_missing asOf asOf hmissing,resolved,
      if_pos (List.length_pos_of_ne_nil hmissing)]
  cases hrule : activeRule rules ruleCode asOf with
  | none =>
    rw [hnone (by rw [hrule]; rfl)]
    exact shareOf_zero hpay (by linarith)
  | some rule =>
    rcases hseed _ hschedule rule hrule with hrows | hperm
    · rw [hnone (by rw [hrule,configured,hrows]; rfl)]
      exact shareOf_zero hpay (by linarith)
    · have hpart := (partitions_schedule hschedule).of_perm hperm
      have hrates' : ∀ row ∈ rule.ratesHistory, 0 ≤ row.rateValue ∧ row.rateValue ≤ r :=
        fun row hrow => hrates row (hperm.mem_iff.mp hrow)
      have hamount : (engineAmountOf rules ruleCode pay asOf).1 = graduatedTax rule.ratesHistory pay := by
        rw [engineAmountOf,hrule,graduatedResult_of_partitions hpart]
        rfl
      rw [hamount]
      refine ⟨⟨Money.ofNumber (graduatedTax rule.ratesHistory pay),?_⟩,
        graduatedTax_nonneg (fun row hrow => (hrates' row hrow).1) pay,
        graduatedTax_le_two_mul hpart (fun row hrow => (hrates' row hrow).1) (fun row hrow => (hrates' row hrow).2) hpay⟩
      rw [← toFixed_graduatedTax,Money.toNumber_ofNumber_toFixed]

theorem shareOf_contributionOf (number : Option String) (missing : String) (hseed : Seeded seedTaxRateIds rules asOf)
    (hschedule : (ruleCode,rows) ∈ seedSchedules seedTaxRateIds)
    (hrates : ∀ row ∈ rows, 0 ≤ row.rateValue ∧ row.rateValue ≤ r) (hr : 0 ≤ r) (hpay : 0 ≤ pay) :
    ShareOf pay (2 * r) (contributionOf rules number missing ruleCode pay asOf).1 := by
  unfold contributionOf
  split
  · exact shareOf_engineAmountOf hseed hschedule hrates hr hpay
  · exact shareOf_zero hpay (by linarith)

/-- A payslip under the seeded schedules, whichever numbers and rules are missing. -/
theorem reconciles_payslipFor {run : PayrollRun} {e : Employee} (now : DateTime) (id : Uuid)
    (hseed : Seeded seedTaxRateIds rules run.periodEnd) (hpay : 0 ≤ e.basicSalary.centavos) :
    Reconciles (payslipFor rules run now id e) := by
  have hpay' := Money.toNumber_nonneg_iff.mpr hpay
  have hsss : ("SSS_EMPLOYEE_CONTRIBUTION_RATE",sssBrackets seedTaxRateIds) ∈ seedSchedules seedTaxRateIds := by
    simp [seedSchedules]
  have hphilhealth : ("PHILHEALTH_EMPLOYEE_CONTRIBUTION_RATE",philhealthBrackets seedTaxRateIds) ∈
      seedSchedules seedTaxRateIds := by simp [seedSchedules]
  have hpagibig : ("PAGIBIG_EMPLOYEE_CONTRIBUTION_RATE",pagibigBrackets seedTaxRateIds) ∈
      seedSchedules seedTaxRateIds := by simp [seedSchedules]
  have hwithholding : ("WITHHOLDING_COMP_BRACKETS",withholdingBrackets seedTaxRateIds) ∈
      seedSchedules seedTaxRateIds := by simp [seedSchedules]
  have hsssShare := shareOf_contributionOf (r := 1 / 20) e.sssNumber "missing_sss_number" hseed hsss
    (by simp [sssBrackets,seedBracket]) (by norm_num) hpay'
  have hphilhealthShare := shareOf_contributionOf (r := 1 / 40) e.philhealthNumber "missing_philhealth_number" hseed
    hphilhealth (by simp [philhealthBrackets,seedBracket]) (by norm_num) hpay'
  have hpagibigShare := shareOf_contributionOf (r := 1 / 50) e.pagibigNumber "missing_pagibig_number" hseed hpagibig
    (by simp [pagibigBrackets,seedBracket]) (by norm_num) hpay'
  have hwithholdingShare := shareOf_engineAmountOf (r := 7 / 20) hseed hwithholding
    (by norm_num [withholdingBrackets,seedBracket]) (by norm_num) hpay'
  exact reconciles_payslipRow run e id now hpay' hsssShare hphilhealthShare hpagibigShare hwithholdingShare (by norm_num)

end

/-- Every payslip that a computation stores, however far it gets: the deductions are
the four amounts, net and deductions make up the gross pay to the centavo, and the net
pay is neither negative nor above the gross pay. -/
theorem stored_payslips_reconcile {seedTaxRateIds : String → Uuid} {s : Store} {companyId payrollRunId : Uuid}
    (ids : ℕ → Uuid) (now : DateTime) (cut : Option ℕ)
    (hseed : ∀ run ∈ s.payroll.payrollRuns, Seeded seedTaxRateIds s.taxEngine.taxRules run.periodEnd) {p : Payslip}
    (hp : p ∈ ((computePayrollRun companyId payrollRunId ids now).leaves cut s).payroll.payslips)
    (hnew : p ∉ s.payroll.payslips) :
    ∃ e ∈ activeEmployees s companyId, p.employeeId = e.id ∧ p.grossPay = e.basicSalary ∧
      (0 ≤ e.basicSalary.centavos → Reconciles p) := by
  have ht := transition_computePayrollRun s companyId payrollRunId ids now cut
  generalize (computePayrollRun companyId payrollRunId ids now).leaves cut s = t at ht hp
  cases ht with
  | computeKept h => exact absurd hp hnew
  | computeMarked h hcut => exact absurd hp hnew
  | computeInserted h k hk =>
    rename_i run
    obtain ⟨hf,hc,-⟩ := computable_eq_some.mp h
    have hrun := (Table.find?_key_some hf).1
    rw [addPayslips_payslips,cleared_payslips] at hp
    rcases List.mem_append.mp hp with hold | hins
    · exact absurd (Table.mem_deleteMany.mp hold).1 hnew
    · obtain ⟨e,he,id,rfl⟩ := mem_payslipsFor (List.mem_of_mem_take hins)
      refine ⟨e,by rwa [← hc],rfl,?_,fun hpay => reconciles_payslipFor now id (hseed run hrun) hpay⟩
      simp [payslipFor,payslipRow]

/-- The seeded rules but for the one of PhilHealth, some with their rows in another order. -/
def seededStore : Store where
  taxEngine.taxRules :=
    [seedRule 1 "SSS_EMPLOYEE_CONTRIBUTION_RATE" (sssBrackets String.length).reverse,
      seedRule 3 "PAGIBIG_EMPLOYEE_CONTRIBUTION_RATE" (pagibigBrackets String.length),
      seedRule 4 "WITHHOLDING_COMP_BRACKETS" (withholdingBrackets String.length).reverse]

/-- An employee without an SSS number on a pay of 45,678.91, and the draft run 40. -/
def seededPayroll : Store :=
  [.createEmployee 1 { hire none with basicSalary := 4567891 / 100 } 10,.createPayrollRun 1 november 7 40 0].foldl next
    seededStore

def seededPayslip : Payslip where
  id := 50
  payrollRunId := 40
  employeeId := 10
  basicPay := ⟨4567891⟩
  overtimePay := ⟨0⟩
  holidayPay := ⟨0⟩
  allowances := ⟨0⟩
  sssContribution := ⟨0⟩
  philhealthContribution := ⟨0⟩
  pagibigContribution := ⟨20000⟩
  withholdingTax := ⟨434418⟩
  grossPay := ⟨4567891⟩
  totalDeductions := ⟨454418⟩
  netPay := ⟨4113473⟩
  computationSnapshot :=
    some ⟨["missing_sss_number","tax_rule_not_configured:PHILHEALTH_EMPLOYEE_CONTRIBUTION_RATE"],5⟩

theorem stored_payslips_reconcile_seeded :
    ∃ e ∈ activeEmployees seededPayroll 1, seededPayslip.employeeId = e.id ∧ seededPayslip.grossPay = e.basicSalary ∧
      (0 ≤ e.basicSalary.centavos → Reconciles seededPayslip) :=
  stored_payslips_reconcile (fun i => 50 + i) 5 none
    (show ∀ run ∈ seededPayroll.payroll.payrollRuns,
      Seeded String.length seededPayroll.taxEngine.taxRules run.periodEnd by decide +kernel)
    (show seededPayslip ∈ ((computePayrollRun 1 40 (fun i => 50 + i) 5).leaves none seededPayroll).payroll.payslips by
      decide +kernel)
    (by decide +kernel)

end PinoyTax.Payroll
