import PinoyTax.Schema.Prisma
import PinoyTax.TaxEngine.Engine

/-! # TaxEngineService

The operations of the service as requests. Computing stores a draft whatever the
engine reports; confirming announces the computation on the message broker.
-/
namespace PinoyTax.TaxEngine
open PinoyTax Foundation

def taxComputationNotFound : ApiException :=
  .notFound "TAX_COMPUTATION_NOT_FOUND" "Tax computation not found."

def findActiveRule (ruleCode : String) (asOf : DateTime) : Request (Option TaxRule) :=
  .query (.on .taxRule .findFirst) (fun s => activeRule s.taxEngine.taxRules ruleCode asOf)

def computeFlatRate (ruleCode : String) (base : Option ℚ) (baseFieldLabel : String)
    (periodStart periodEnd : DateTime) : Request EngineResult := do
  let rule ← findActiveRule ruleCode periodEnd
  pure (flatRateResult rule ruleCode base baseFieldLabel periodStart periodEnd)

def computeGraduated (ruleCode : String) (base : Option ℚ) (baseFieldLabel : String)
    (periodStart periodEnd : DateTime) : Request EngineResult := do
  let rule ← findActiveRule ruleCode periodEnd
  pure (graduatedResult rule ruleCode base baseFieldLabel periodStart periodEnd)

def computeFlatRateAmount (ruleCode : String) (base : Option ℚ) (asOf : DateTime) : Request EngineResult :=
  computeFlatRate ruleCode base ruleCode asOf asOf

def computeGraduatedAmount (ruleCode : String) (base : Option ℚ) (asOf : DateTime) : Request EngineResult :=
  computeGraduated ruleCode base ruleCode asOf asOf

def pushMissing (message : String) (when : Bool) (r : EngineResult) : EngineResult :=
  if when then { r with missingInputs := r.missingInputs ++ [message] } else r

/-- The `switch` over the computation type. -/
def engineResultFor (company : Company) (dto : ComputeTaxDto) : Request EngineResult :=
  match dto.computationType with
  | .vat => do
    let r ← computeFlatRate "VAT_RATE" (dto.grossSales <|> dto.grossReceipts) "grossSales or grossReceipts"
      dto.periodStart dto.periodEnd
    pure (pushMissing
      "company_not_vat_registered: this company is classified non-VAT; percentage tax may apply instead"
      (company.vatClassification != .vat) r)
  | .percentage_tax => do
    let r ← computeFlatRate "PERCENTAGE_TAX_RATE" (dto.grossSales <|> dto.grossReceipts)
      "grossSales or grossReceipts" dto.periodStart dto.periodEnd
    pure (pushMissing
      "company_is_vat_registered: this company is VAT-registered; percentage tax typically does not apply"
      (company.vatClassification == .vat) r)
  | .ewt =>
    computeFlatRate "EWT_RATE_DEFAULT" dto.businessExpenses
      "businessExpenses (income payments subject to EWT)" dto.periodStart dto.periodEnd
  | .withholding_comp =>
    computeGraduated "WITHHOLDING_COMP_BRACKETS" dto.payrollExpenses
      "payrollExpenses (taxable compensation for the period)" dto.periodStart dto.periodEnd
  | .income_tax =>
    match dto.grossSales <|> dto.grossReceipts with
    | none => pure ⟨none,["grossSales or grossReceipts"],[],.empty⟩
    | some grossBase =>
      let deductions := dto.businessExpenses.getD 0 + dto.otherDeductions.getD 0
      let netTaxableIncome := max (grossBase - deductions) 0
      computeGraduated "INCOME_TAX_BRACKETS" (some netTaxableIncome)
        "netTaxableIncome (derived from grossSales/grossReceipts minus deductions)" dto.periodStart dto.periodEnd

def compute (companyId : Uuid) (dto : ComputeTaxDto) (id : Uuid) (now : DateTime) :
    Request (TaxComputation × Breakdown) := do
  let company ← orThrow .database (← Prisma.company.findUnique (fun c => c.id = companyId))
  let engineResult ← engineResultFor company dto
  let record ← Prisma.taxComputation.create
    { id := id
      companyId := companyId
      computationType := dto.computationType
      periodStart := dateColumn dto.periodStart
      periodEnd := dateColumn dto.periodEnd
      inputs := dto
      ruleIdsUsed := engineResult.ruleIdsUsed
      result := engineResult.result.map Money.ofNumber
      missingInputs := engineResult.missingInputs
      status := .draft
      createdAt := now }
  pure (record,engineResult.breakdown)

def confirm (companyId taxComputationId : Uuid) : Request TaxComputation := do
  let _ ← ownedBy TaxComputation.companyId companyId taxComputationNotFound
    (← Prisma.taxComputation.findUnique (fun c => c.id = taxComputationId))
  let updated ← Prisma.taxComputation.update (fun c => c.id = taxComputationId)
    (fun c => { c with status := .confirmed })
  publish (.taxComputationConfirmed updated.id updated.companyId updated.computationType)
  pure updated

def listForCompany (companyId : Uuid) : Request (List TaxComputation) := do
  let rows ← Prisma.taxComputation.findMany (fun c => c.companyId = companyId)
  pure (rows.insertionSort (fun a b => b.createdAt ≤ a.createdAt))

def getById (companyId taxComputationId : Uuid) : Request TaxComputation := do
  ownedBy TaxComputation.companyId companyId taxComputationNotFound
    (← Prisma.taxComputation.findUnique (fun c => c.id = taxComputationId))

end PinoyTax.TaxEngine
