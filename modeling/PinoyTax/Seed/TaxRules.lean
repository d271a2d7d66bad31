import PinoyTax.Seed.RoleCatalogues
import PinoyTax.TaxEngine.Seed

/-! # The tax rules of the seed

Each rule is upserted by its code and each of its rates by a fixed id, so that a seed can be
run again. What it writes it writes over: of the rates that are there already the values
come from the seed, whoever changed them.
-/
namespace PinoyTax.Seed
open PinoyTax Foundation TaxEngine

/-- `SEED_TAX_RATE_IDS`. -/
def seedTaxRateIdTable : List (String × Uuid) :=
  [("seed-vat-rate-2023",0xa424562d9f98469fb35e3b3e8a95607a),
    ("seed-percentage-tax-2023",0x74b6a200b8ca4854a7cf147b346d2328),
    ("seed-ewt-default-2023",0xddb7b13bbf0149e4b69a68d163e00c14),
    ("seed-sss-employee-2023",0x6b741c1e937a4cd7a4bee85f7073bef6),
    ("seed-sss-employee-bracket2",0x4c3cbdb037db480d9d88e169997c1552),
    ("seed-philhealth-employee-2023",0xf55d1001b99743598f67c01218e6e917),
    ("seed-philhealth-employee-bracket2",0x0ca835c6333e4a588f77452198ceefd2),
    ("seed-pagibig-employee-2023",0x41214964a7794d6fa10472bb584965ab),
    ("seed-pagibig-employee-bracket2",0x082b59ab0e4048969f14ea3e5fd219f2),
    ("seed-vat-threshold-2023",0xf3247d6197954b82807033012610e32d),
    ("seed-income-bracket-1",0xebb892ff851f4c05bfc09dc6872a6e97),
    ("seed-income-bracket-2",0x4721a3932f05442a953d59315da26c3d),
    ("seed-income-bracket-3",0xd8b93ef3a7b949d2a0923e07b075e59b),
    ("seed-income-bracket-4",0xb493dea1771f4071adf5b7f12f46d350),
    ("seed-income-bracket-5",0x10e7b6287503447eb8e0dfd95563b454),
    ("seed-income-bracket-6",0x2809815b58344c9c957ee73965970d36),
    ("seed-wh-bracket-1",0xc7ab7410f2634e5193743693713fb591),
    ("seed-wh-bracket-2",0xeca7e407e92846738db69fdb5aa833e1),
    ("seed-wh-bracket-3",0xaa8494a6eb8d430d8d4ab1678d5281d2),
    ("seed-wh-bracket-4",0xf36686920dcb4d3f967ba8499b0c022b),
    ("seed-wh-bracket-5",0x4e990afa58b84b2489bec464b2027e35),
    ("seed-wh-bracket-6",0x59c9551136764a4bb18b5318b911d88e)]

def seedTaxRateIds (label : String) : Uuid :=
  ((seedTaxRateIdTable.find? (fun row => row.1 = label)).map Prod.snd).getD 0

/-- A rate, flat or with its bracket in pesos. -/
structure SeededRate where
  label : String
  bracket : Option (ℤ × Option ℤ) := none
  rateValue : ℚ
deriving DecidableEq, Repr

structure SeededRule where
  ruleCode : String
  sourceReference : String
  rates : List SeededRate
deriving DecidableEq, Repr

def vatRule : SeededRule where
  ruleCode := "VAT_RATE"
  sourceReference := "NIRC Sec. 106/108, as amended by the TRAIN Law (RA 10963)"
  rates := [⟨"seed-vat-rate-2023",none,12 / 100⟩]

def percentageTaxRule : SeededRule where
  ruleCode := "PERCENTAGE_TAX_RATE"
  sourceReference := "NIRC Sec. 116, as amended by RA 11534 (CREATE Act) — reverted to 3% effective Jul 1, 2023"
  rates := [⟨"seed-percentage-tax-2023",none,3 / 100⟩]

def ewtRule : SeededRule where
  ruleCode := "EWT_RATE_DEFAULT"
  sourceReference := "BIR Revenue Regulations No. 2-98, as amended — PLACEHOLDER VALUE, NOT VERIFIABLE AS A SINGLE RATE. " ++
    "Replace with per-income-type rule codes before relying on EWT computations."
  rates := [⟨"seed-ewt-default-2023",none,2 / 100⟩]

def sssRule : SeededRule where
  ruleCode := "SSS_EMPLOYEE_CONTRIBUTION_RATE"
  sourceReference := "SSS Circular No. 2024-006 (Dec 19, 2024), effective Jan 1, 2025 — verified via sss.gov.ph, Jul 2026. " ++
    "Approximation: does not model the MSC floor, WISP add-on, or exact ₱500-increment bracket rounding."
  rates := [⟨"seed-sss-employee-2023",some (0,some 35000),1 / 20⟩,⟨"seed-sss-employee-bracket2",some (35000,none),0⟩]

def philhealthRule : SeededRule where
  ruleCode := "PHILHEALTH_EMPLOYEE_CONTRIBUTION_RATE"
  sourceReference := "PhilHealth advisory, May 2026: 5% total premium rate confirmed as the final scheduled step under " ++
    "RA 11223 (Universal Health Care Act) — verified via pia.gov.ph, Jul 2026. Approximation: does not model the " ++
    "₱10,000 salary floor."
  rates := [⟨"seed-philhealth-employee-2023",some (0,some 100000),1 / 40⟩,
    ⟨"seed-philhealth-employee-bracket2",some (100000,none),0⟩]

def pagibigRule : SeededRule where
  ruleCode := "PAGIBIG_EMPLOYEE_CONTRIBUTION_RATE"
  sourceReference := "HDMF Circular No. 460 (Maximum Fund Salary raised to ₱10,000, effective Feb 2024, unchanged through " ++
    "2026) — verified Jul 2026. Approximation: does not model the 1% lower-income rate for compensation ≤ ₱1,500/month."
  rates := [⟨"seed-pagibig-employee-2023",some (0,some 10000),1 / 50⟩,
    ⟨"seed-pagibig-employee-bracket2",some (10000,none),0⟩]

def vatThresholdRule : SeededRule where
  ruleCode := "VAT_REGISTRATION_THRESHOLD"
  sourceReference := "NIRC Sec. 236(G), as amended by the TRAIN Law (RA 10963)"
  rates := [⟨"seed-vat-threshold-2023",none,3000000⟩]

def incomeTaxRule : SeededRule where
  ruleCode := "INCOME_TAX_BRACKETS"
  sourceReference := "NIRC Sec. 24(A), as amended by the TRAIN Law (RA 10963), rates effective 2023"
  rates := [⟨"seed-income-bracket-1",some (0,some 250000),0⟩,
    ⟨"seed-income-bracket-2",some (250000,some 400000),3 / 20⟩,
    ⟨"seed-income-bracket-3",some (400000,some 800000),1 / 5⟩,
    ⟨"seed-income-bracket-4",some (800000,some 2000000),1 / 4⟩,
    ⟨"seed-income-bracket-5",some (2000000,some 8000000),3 / 10⟩,
    ⟨"seed-income-bracket-6",some (8000000,none),7 / 20⟩]

def withholdingCompRule : SeededRule where
  ruleCode := "WITHHOLDING_COMP_BRACKETS"
  sourceReference := "BIR Revenue Memorandum Order implementing NIRC Sec. 24(A) monthly withholding table"
  rates := [⟨"seed-wh-bracket-1",some (0,some 20833),0⟩,
    ⟨"seed-wh-bracket-2",some (20833,some 33333),3 / 20⟩,
    ⟨"seed-wh-bracket-3",some (33333,some 66667),1 / 5⟩,
    ⟨"seed-wh-bracket-4",some (66667,some 166667),1 / 4⟩,
    ⟨"seed-wh-bracket-5",some (166667,some 666667),3 / 10⟩,
    ⟨"seed-wh-bracket-6",some (666667,none),7 / 20⟩]

def seededRules : List SeededRule :=
  [vatRule,percentageTaxRule,ewtRule,sssRule,philhealthRule,pagibigRule,vatThresholdRule,incomeTaxRule,withholdingCompRule]

/-! ## Upserts -/

def setRule (sr : SeededRule) (r : TaxRule) : TaxRule :=
  { r with sourceReference := some sr.sourceReference, effectiveFrom := seedEffectiveFrom }

def ruleRow (sr : SeededRule) (id : Uuid) : TaxRule where
  id := id
  ruleCode := sr.ruleCode
  sourceReference := some sr.sourceReference
  effectiveFrom := seedEffectiveFrom

def upsertRule (sr : SeededRule) (id : Uuid) (rules : List TaxRule) : List TaxRule :=
  match rules.find? (fun r => r.ruleCode = sr.ruleCode) with
  | some _ => Table.updateMany (fun r => r.ruleCode = sr.ruleCode) (setRule sr) rules
  | none => rules ++ [ruleRow sr id]

/-- The id of the upserted rule. -/
def upsertedRuleId (sr : SeededRule) (id : Uuid) (rules : List TaxRule) : Uuid :=
  ((rules.find? (fun r => r.ruleCode = sr.ruleCode)).map TaxRule.id).getD id

/-- The bracket of a flat rate is no part of what the seed writes. -/
def setRate (rate : SeededRate) (h : TaxRateHistory) : TaxRateHistory :=
  match rate.bracket with
  | none => { h with rateValue := rate.rateValue, effectiveFrom := seedEffectiveFrom }
  | some (min,max) =>
    { h with
      rateValue := rate.rateValue
      bracketMin := some ⟨min * 100⟩
      bracketMax := max.map fun m => ⟨m * 100⟩
      effectiveFrom := seedEffectiveFrom }

def rateRow (rate : SeededRate) : TaxRateHistory :=
  setRate rate { id := seedTaxRateIds rate.label, rateValue := rate.rateValue, effectiveFrom := seedEffectiveFrom }

def hasRate (rate : SeededRate) (r : TaxRule) : Bool := r.ratesHistory.any (fun h => h.id = seedTaxRateIds rate.label)

def writeRate (rate : SeededRate) (r : TaxRule) : TaxRule :=
  { r with ratesHistory := Table.updateMany (fun h => h.id = seedTaxRateIds rate.label) (setRate rate) r.ratesHistory }

def addRate (rate : SeededRate) (r : TaxRule) : TaxRule := { r with ratesHistory := r.ratesHistory ++ [rateRow rate] }

/-- A rate that is there already stays with its rule. -/
def upsertRate (rate : SeededRate) (ruleId : Uuid) (rules : List TaxRule) : List TaxRule :=
  if rules.any (hasRate rate) then rules.map (writeRate rate)
  else Table.updateMany (fun r => r.id = ruleId) (addRate rate) rules

inductive TaxRuleStep | upsertRule | upsertRate
deriving DecidableEq, Repr

abbrev RuleSeed (α : Type) := Prog (List TaxRule) TaxRuleStep ApiException α

def provisionRate (ruleId : Uuid) (rate : SeededRate) : RuleSeed Unit :=
  .stmt .upsertRate (upsertRate rate ruleId) fun _ => pure ()

def provisionRule (ruleIds : String → Uuid) (sr : SeededRule) : RuleSeed Unit := do
  let ruleId ← .stmt .upsertRule (upsertRule sr (ruleIds sr.ruleCode)) fun rules =>
    pure (upsertedRuleId sr (ruleIds sr.ruleCode) rules)
  Prog.forEach (provisionRate ruleId) sr.rates

/-- `tax_rules` with the rates of each. -/
def taxRules : Part Store (List TaxRule) where
  get s := s.taxEngine.taxRules
  set rules s := { s with taxEngine.taxRules := rules }
  get_set _ _ := rfl
  set_get _ := rfl
  set_set _ _ _ := rfl

def seedTaxRules (draw : SeedDraw) : Request Unit :=
  (Prog.forEach (provisionRule draw.ruleIds) seededRules).zoom taxRules fun _ => .on .taxRule .upsert

/-! ## What the tables hold -/

/-- A row that the seed made, whatever values it has come to hold. -/
def RowOf (rate : SeededRate) (h : TaxRateHistory) : Prop :=
  h.id = seedTaxRateIds rate.label ∧ setRate rate h = rateRow rate

/-- Nothing is there but rules of the seed with rates of their own, none of them ended. -/
def OnlySeeded (table : List SeededRule) (rules : List TaxRule) : Prop :=
  ∀ r ∈ rules, ∃ sr ∈ table, r.ruleCode = sr.ruleCode ∧ r.effectiveTo = none ∧
    ∀ h ∈ r.ratesHistory, ∃ rate ∈ sr.rates, RowOf rate h

structure RuleKeys (rules : List TaxRule) : Prop where
  ruleIds : (rules.map TaxRule.id).Nodup
  ruleCodes : (rules.map TaxRule.ruleCode).Nodup
  rateIds : ((rules.flatMap TaxRule.ratesHistory).map TaxRateHistory.id).Nodup

def RuleWritten (sr : SeededRule) (rules : List TaxRule) : Prop :=
  ∃ r ∈ rules, r.ruleCode = sr.ruleCode ∧ setRule sr r = r

def RateWritten (sr : SeededRule) (rate : SeededRate) (rules : List TaxRule) : Prop :=
  ∃ r ∈ rules, r.ruleCode = sr.ruleCode ∧ rateRow rate ∈ r.ratesHistory

/-- The rules and the rates of the table are there with the values of the seed. -/
def Written (sr : SeededRule) (rules : List TaxRule) : Prop :=
  RuleWritten sr rules ∧ ∀ rate ∈ sr.rates, RateWritten sr rate rules

/-- No code and no id stands twice in the table. -/
structure Distinct (table : List SeededRule) : Prop where
  ruleCodes : (table.map SeededRule.ruleCode).Nodup
  rateIds : ((table.flatMap fun sr => sr.rates.map (Prod.mk sr)).map fun p => seedTaxRateIds p.2.label).Nodup

/-- Rules stay, what is written stays written, and what is complete stays as it is. -/
structure Progress (table : List SeededRule) (rules rules' : List TaxRule) : Prop where
  rows : ∀ r ∈ rules, ∃ r' ∈ rules', r'.id = r.id ∧ r'.ruleCode = r.ruleCode
  ruleWritten : ∀ sr ∈ table, RuleWritten sr rules → RuleWritten sr rules'
  rateWritten : ∀ sr ∈ table, ∀ rate ∈ sr.rates, RateWritten sr rate rules → RateWritten sr rate rules'
  complete : (∀ sr ∈ table, Written sr rules) → rules' = rules

def ruleSeeding (table : List SeededRule) : Discipline (List TaxRule) where
  Inv rules := RuleKeys rules ∧ OnlySeeded table rules
  Admits := RuleKeys
  Later := Progress table
  refl rules := ⟨fun r hr => ⟨r,hr,rfl,rfl⟩,fun _ _ h => h,fun _ _ _ _ h => h,fun _ => rfl⟩
  trans := by
    intro rules rules' rules'' h h'
    refine ⟨fun r hr => ?_,fun sr hsr hw => h'.ruleWritten sr hsr (h.ruleWritten sr hsr hw),
      fun sr hsr rate hrate hw => h'.rateWritten sr hsr rate hrate (h.rateWritten sr hsr rate hrate hw),fun hc => ?_⟩
    · obtain ⟨r',hr',hid,hcode⟩ := h.rows r hr
      obtain ⟨r'',hr'',hid',hcode'⟩ := h'.rows r' hr'
      exact ⟨r'',hr'',hid'.trans hid,hcode'.trans hcode⟩
    · obtain rfl := h.complete hc
      exact h'.complete hc

section
variable {table : List SeededRule} {sr : SeededRule} {rate : SeededRate} {rules : List TaxRule}

end
end PinoyTax.Seed
