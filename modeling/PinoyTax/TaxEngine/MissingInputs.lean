import PinoyTax.TaxEngine.Service

/-! # What a computation reports as missing

Both engines look at the base and at the rule before they compute, and name each of the
two that is absent. Income tax derives its base first, and leaves before it looks at
the rule when there is nothing to derive it from.
-/
namespace PinoyTax.TaxEngine
open PinoyTax Foundation

/-- The base amount of the computation type. -/
def baseOf (dto : ComputeTaxDto) : Option ℚ :=
  match dto.computationType with
  | .vat | .percentage_tax | .income_tax => dto.grossSales <|> dto.grossReceipts
  | .ewt => dto.businessExpenses
  | .withholding_comp => dto.payrollExpenses

def baseLabelOf : ComputationType → String
  | .vat | .percentage_tax | .income_tax => "grossSales or grossReceipts"
  | .ewt => "businessExpenses (income payments subject to EWT)"
  | .withholding_comp => "payrollExpenses (taxable compensation for the period)"

def ruleCodeOf : ComputationType → String
  | .vat => "VAT_RATE"
  | .percentage_tax => "PERCENTAGE_TAX_RATE"
  | .ewt => "EWT_RATE_DEFAULT"
  | .withholding_comp => "WITHHOLDING_COMP_BRACKETS"
  | .income_tax => "INCOME_TAX_BRACKETS"

/-- A rule under the code is in force, with a rate row in force. -/
def RuleInForce (rules : List TaxRule) (ruleCode : String) (asOf : DateTime) : Prop :=
  ∃ rule ∈ rules, rule.ruleCode = ruleCode ∧ inForce rule.effectiveFrom rule.effectiveTo asOf = true ∧
    ∃ h ∈ rule.ratesHistory, inForce h.effectiveFrom h.effectiveTo asOf = true

instance (rules : List TaxRule) (ruleCode : String) (asOf : DateTime) : Decidable (RuleInForce rules ruleCode asOf) := by
  unfold RuleInForce
  infer_instance

/-- A null result for what is absent and for nothing else, and each absent item named. -/
structure Reports {α : Type} (result : Option α) (missing : List String) (base : Option ℚ) (label : String) (ruled : Prop)
    (ruleCode : String) : Prop where
  null : result = none ↔ base = none ∨ ¬ ruled
  base : base = none → label ∈ missing
  rule : ¬ ruled → "tax_rule_not_configured:" ++ ruleCode ∈ missing

section
variable {rules : List TaxRule} {ruleCode label : String} {asOf : DateTime}

/-- The code of a rule is a unique key, so that the first rule found is the only one. -/
theorem configured_activeRule_iff (hcodes : (rules.map TaxRule.ruleCode).Nodup) :
    configured (activeRule rules ruleCode asOf) = true ↔ RuleInForce rules ruleCode asOf := by
  unfold activeRule RuleInForce
  cases hf : rules.find? fun r => decide (r.ruleCode = ruleCode) && inForce r.effectiveFrom r.effectiveTo asOf with
  | none =>
    have hnone := List.find?_eq_none.mp hf
    refine iff_of_false (by simp [configured]) ?_
    rintro ⟨rule,hrule,hcode,hforce,-⟩
    exact hnone rule hrule (by simp [hcode,hforce])
  | some rule =>
    have hsome := List.find?_some hf
    simp only [Bool.and_eq_true,decide_eq_true_eq] at hsome
    obtain ⟨hcode,hforce⟩ := hsome
    have hmem := List.mem_of_find?_eq_some hf
    simp only [Option.map_some,configured,Bool.not_eq_true',List.isEmpty_eq_false_iff_exists_mem,List.mem_filter]
    constructor
    · rintro ⟨h,hh,hrate⟩
      exact ⟨rule,hmem,hcode,hforce,h,hh,hrate⟩
    · rintro ⟨rule',hmem',hcode',-,h,hh,hrate⟩
      obtain rfl := Table.eq_of_key hcodes hmem' hmem (hcode'.trans hcode.symm)
      exact ⟨h,hh,hrate⟩

end

section
variable {rule : Option TaxRule} {ruleCode label : String} {base : Option ℚ} {periodStart periodEnd : DateTime}

/-- Both engines report what their check finds, and nothing but a finding leaves the
result null. -/
theorem flatRateResult_checked (rule : Option TaxRule) (ruleCode label : String) (base : Option ℚ)
    (periodStart periodEnd : DateTime) :
    let r := flatRateResult rule ruleCode base label periodStart periodEnd
    r.missingInputs = missingInputs rule ruleCode base label ∧
      (r.result = none ↔ missingInputs rule ruleCode base label ≠ []) := by
  intro r
  cases hm : missingInputs rule ruleCode base label with
  | cons m ms => simp [r,flatRateResult,hm]
  | nil =>
    obtain ⟨_,_,rfl,rfl⟩ := exists_of_missingInputs_eq_nil hm
    simp [r,flatRateResult,hm]

theorem graduatedResult_checked (rule : Option TaxRule) (ruleCode label : String) (base : Option ℚ)
    (periodStart periodEnd : DateTime) :
    let r := graduatedResult rule ruleCode base label periodStart periodEnd
    r.missingInputs = missingInputs rule ruleCode base label ∧
      (r.result = none ↔ missingInputs rule ruleCode base label ≠ []) := by
  intro r
  cases hm : missingInputs rule ruleCode base label with
  | cons m ms => simp [r,graduatedResult,hm]
  | nil =>
    obtain ⟨_,_,rfl,rfl⟩ := exists_of_missingInputs_eq_nil hm
    simp [r,graduatedResult,hm]

/-- The check names what is absent. -/
theorem reports_of_checked {r : EngineResult} {ruled : Prop} (hruled : configured rule = true ↔ ruled)
    (h : r.missingInputs = missingInputs rule ruleCode base label ∧
      (r.result = none ↔ missingInputs rule ruleCode base label ≠ [])) :
    Reports r.result r.missingInputs base label ruled ruleCode := by
  obtain ⟨hmissing,hnull⟩ := h
  constructor
  · rw [hnull,ne_eq,missingInputs_eq_nil,hruled,not_and_or,Option.not_isSome_iff_eq_none]
  · intro hbase
    simp [hmissing,missingInputs,hbase]
  · intro hnot
    have hc : configured rule = false := by simpa using hruled.not.mpr hnot
    simp [hmissing,missingInputs,hc]

/-- A further message takes no report away. -/
theorem Reports.pushMissing {r : EngineResult} {ruled : Prop} (message : String) (when : Bool)
    (h : Reports r.result r.missingInputs base label ruled ruleCode) :
    Reports (pushMissing message when r).result (pushMissing message when r).missingInputs base label ruled ruleCode := by
  unfold TaxEngine.pushMissing
  cases when with
  | false => exact h
  | true => exact ⟨h.null,fun hb => List.mem_append_left _ (h.base hb),fun hr => List.mem_append_left _ (h.rule hr)⟩

end

/-! ## The five types -/

/-- The early exit of income tax: no base, and no look at the rule. -/
def Skipped (rules : List TaxRule) (dto : ComputeTaxDto) : Prop :=
  dto.computationType = .income_tax ∧ baseOf dto = none ∧
    ¬ RuleInForce rules (ruleCodeOf dto.computationType) dto.periodEnd

theorem reports_engineResultFor {s : Store} (hcodes : (s.taxEngine.taxRules.map TaxRule.ruleCode).Nodup)
    (company : Company) (dto : ComputeTaxDto) :
    ∃ r, (engineResultFor company dto).run s = (.ok r,s) ∧
      (Reports r.result r.missingInputs (baseOf dto) (baseLabelOf dto.computationType)
          (RuleInForce s.taxEngine.taxRules (ruleCodeOf dto.computationType) dto.periodEnd)
          (ruleCodeOf dto.computationType) ↔ ¬ Skipped s.taxEngine.taxRules dto) := by
  have hruled (ruleCode : String) : configured (activeRule s.taxEngine.taxRules ruleCode dto.periodEnd) = true ↔
      RuleInForce s.taxEngine.taxRules ruleCode dto.periodEnd := configured_activeRule_iff hcodes
  have hflat (ruleCode label : String) (base : Option ℚ) := reports_of_checked (hruled ruleCode)
    (flatRateResult_checked (activeRule s.taxEngine.taxRules ruleCode dto.periodEnd) ruleCode label base dto.periodStart
      dto.periodEnd)
  have hgraduated (ruleCode label : String) (base : Option ℚ) := reports_of_checked (hruled ruleCode)
    (graduatedResult_checked (activeRule s.taxEngine.taxRules ruleCode dto.periodEnd) ruleCode label base
      dto.periodStart dto.periodEnd)
  unfold engineResultFor baseOf baseLabelOf ruleCodeOf Skipped
  cases htype : dto.computationType with
  | vat => exact ⟨_,rfl,iff_of_true ((hflat _ _ _).pushMissing _ _) (by rintro ⟨h,-⟩; cases h)⟩
  | percentage_tax => exact ⟨_,rfl,iff_of_true ((hflat _ _ _).pushMissing _ _) (by rintro ⟨h,-⟩; cases h)⟩
  | ewt => exact ⟨_,rfl,iff_of_true (hflat _ _ _) (by rintro ⟨h,-⟩; cases h)⟩
  | withholding_comp => exact ⟨_,rfl,iff_of_true (hgraduated _ _ _) (by rintro ⟨h,-⟩; cases h)⟩
  | income_tax =>
    simp only [baseOf,htype]
    cases hbase : dto.grossSales <|> dto.grossReceipts with
    | none =>
      refine ⟨_,rfl,?_⟩
      constructor
      · rintro h ⟨-,-,hnot⟩
        exact absurd (h.rule hnot) (by decide)
      · intro h
        have hruled : RuleInForce s.taxEngine.taxRules "INCOME_TAX_BRACKETS" dto.periodEnd := by
          by_contra hnot
          exact h ⟨trivial,rfl,hnot⟩
        exact ⟨by simp,fun _ => List.mem_cons_self,fun hnot => absurd hruled hnot⟩
    | some grossBase =>
      refine ⟨_,rfl,iff_of_true ?_ (by rintro ⟨-,h,-⟩; cases h)⟩
      have h := hgraduated "INCOME_TAX_BRACKETS"
        "netTaxableIncome (derived from grossSales/grossReceipts minus deductions)"
        (some (max (grossBase - (dto.businessExpenses.getD 0 + dto.otherDeductions.getD 0)) 0))
      exact ⟨h.null.trans (by simp),by simp,h.rule⟩

/-- What is stored reports every absent item, unless the computation took the early exit
of income tax with the rule missing as well. -/
theorem compute_reports_iff {s : Store} {companyId : Uuid} (dto : ComputeTaxDto) (id : Uuid) (now : DateTime)
    (hcodes : (s.taxEngine.taxRules.map TaxRule.ruleCode).Nodup)
    (hcompany : (s.org.companies.find? (fun c => c.id = companyId)).isSome) :
    ∃ record breakdown t, (compute companyId dto id now).run s = (.ok (record,breakdown),t) ∧
      (Reports record.result record.missingInputs (baseOf dto) (baseLabelOf dto.computationType)
          (RuleInForce s.taxEngine.taxRules (ruleCodeOf dto.computationType) dto.periodEnd)
          (ruleCodeOf dto.computationType) ↔ ¬ Skipped s.taxEngine.taxRules dto) := by
  obtain ⟨company,hfound⟩ := Option.isSome_iff_exists.mp hcompany
  have hfound' : (Prisma.company.get s).find? (fun c => c.id = companyId) = some company := hfound
  obtain ⟨r,hrun,hiff⟩ := reports_engineResultFor hcodes company dto
  have hstored : ∃ record t, (compute companyId dto id now).run s = (.ok (record,r.breakdown),t) ∧
      record.result = r.result.map Money.ofNumber ∧ record.missingInputs = r.missingInputs := by
    simp only [compute,Prog.run_bind,TableRef.run_findUnique,hfound',Prog.resume_ok,orThrow_some,Prog.run_done,hrun,
      TableRef.run_create,Prog.pure_def]
    exact ⟨_,_,rfl,rfl,rfl⟩
  obtain ⟨record,t,hcompute,hresult,hmissing⟩ := hstored
  refine ⟨record,r.breakdown,t,hcompute,?_⟩
  rw [← hiff,hresult,hmissing]
  constructor
  · exact fun h => ⟨by simpa using h.null,h.base,h.rule⟩
  · exact fun h => ⟨by simpa using h.null,h.base,h.rule⟩

/-- A VAT company and the VAT rate, and no schedule for income tax. -/
def vatStore : Store where
  org := { companies := [⟨300,none,"Mang Tomas",none,.corporation,.vat,"000-000-002",none,none,none,none⟩] }
  taxEngine := { taxRules := [⟨1,"VAT_RATE",none,0,none,[⟨1,3 / 25,none,none,0,none⟩]⟩] }

/-- A request of the first quarter of 2026 without any amount. -/
def emptyDto (computationType : ComputationType) : ComputeTaxDto where
  computationType := computationType
  periodStart := 20454 * msPerDay
  periodEnd := 20543 * msPerDay

theorem compute_reports_iff_vat :
    ∃ record breakdown t, (compute 300 (emptyDto .vat) 1 0).run vatStore =
        (.ok (record,breakdown),t) ∧
      (Reports record.result record.missingInputs (baseOf (emptyDto .vat))
          (baseLabelOf .vat)
          (RuleInForce vatStore.taxEngine.taxRules (ruleCodeOf .vat) (20543 * msPerDay))
          (ruleCodeOf .vat) ↔ ¬ Skipped vatStore.taxEngine.taxRules (emptyDto .vat)) :=
  compute_reports_iff (emptyDto .vat) 1 0 (by decide) (by decide)

/-- Income tax with neither an amount nor a rule: the rule is not named. -/
theorem incomeTax_without_rule_not_reported :
    ∃ record breakdown t, (compute 300 (emptyDto .income_tax) 1 0).run vatStore = (.ok (record,breakdown),t) ∧
      record.result = none ∧ record.missingInputs = ["grossSales or grossReceipts"] ∧
      ¬ RuleInForce vatStore.taxEngine.taxRules "INCOME_TAX_BRACKETS" (20543 * msPerDay) ∧
      ¬ Reports record.result record.missingInputs (baseOf (emptyDto .income_tax)) (baseLabelOf .income_tax)
        (RuleInForce vatStore.taxEngine.taxRules (ruleCodeOf .income_tax) (20543 * msPerDay))
        (ruleCodeOf .income_tax) := by
  have hforce : ¬ RuleInForce vatStore.taxEngine.taxRules "INCOME_TAX_BRACKETS" (20543 * msPerDay) := by decide
  refine ⟨_,_,_,rfl,rfl,rfl,hforce,?_⟩
  intro h
  exact absurd (h.rule hforce) (by decide)

end PinoyTax.TaxEngine
