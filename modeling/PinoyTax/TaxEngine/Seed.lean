import PinoyTax.TaxEngine.Graduated

/-! # The seeded schedules of a payslip

The rate rows that the seed writes for the three contributions and for the withholding
tax, with the row ids as the seed's table of labels gives them.
-/
namespace PinoyTax.TaxEngine
open PinoyTax Foundation

/-- `EFFECTIVE_FROM`, 1 January 2023. -/
def seedEffectiveFrom : DateTime := 19358 * msPerDay

section
variable (seedTaxRateIds : String → Uuid)

/-- A rate row with its bracket in whole pesos. -/
def seedBracket (label : String) (min : ℤ) (max : Option ℤ) (rate : ℚ) : TaxRateHistory where
  id := seedTaxRateIds label
  rateValue := rate
  bracketMin := some ⟨min * 100⟩
  bracketMax := max.map fun m => ⟨m * 100⟩
  effectiveFrom := seedEffectiveFrom

def sssBrackets : List TaxRateHistory :=
  [seedBracket seedTaxRateIds "seed-sss-employee-2023" 0 (some 35000) (1 / 20),
    seedBracket seedTaxRateIds "seed-sss-employee-bracket2" 35000 none 0]

def philhealthBrackets : List TaxRateHistory :=
  [seedBracket seedTaxRateIds "seed-philhealth-employee-2023" 0 (some 100000) (1 / 40),
    seedBracket seedTaxRateIds "seed-philhealth-employee-bracket2" 100000 none 0]

def pagibigBrackets : List TaxRateHistory :=
  [seedBracket seedTaxRateIds "seed-pagibig-employee-2023" 0 (some 10000) (1 / 50),
    seedBracket seedTaxRateIds "seed-pagibig-employee-bracket2" 10000 none 0]

def withholdingBrackets : List TaxRateHistory :=
  [seedBracket seedTaxRateIds "seed-wh-bracket-1" 0 (some 20833) 0,
    seedBracket seedTaxRateIds "seed-wh-bracket-2" 20833 (some 33333) (3 / 20),
    seedBracket seedTaxRateIds "seed-wh-bracket-3" 33333 (some 66667) (1 / 5),
    seedBracket seedTaxRateIds "seed-wh-bracket-4" 66667 (some 166667) (1 / 4),
    seedBracket seedTaxRateIds "seed-wh-bracket-5" 166667 (some 666667) (3 / 10),
    seedBracket seedTaxRateIds "seed-wh-bracket-6" 666667 none (7 / 20)]

def seedRule (id : Uuid) (ruleCode : String) (ratesHistory : List TaxRateHistory) : TaxRule where
  id := id
  ruleCode := ruleCode
  effectiveFrom := seedEffectiveFrom
  ratesHistory := ratesHistory

/-- The code of each schedule with its rows. -/
def seedSchedules : List (String × List TaxRateHistory) :=
  [("SSS_EMPLOYEE_CONTRIBUTION_RATE",sssBrackets seedTaxRateIds),
    ("PHILHEALTH_EMPLOYEE_CONTRIBUTION_RATE",philhealthBrackets seedTaxRateIds),
    ("PAGIBIG_EMPLOYEE_CONTRIBUTION_RATE",pagibigBrackets seedTaxRateIds),
    ("WITHHOLDING_COMP_BRACKETS",withholdingBrackets seedTaxRateIds)]

/-- Under each of the four codes there is no rule with rates in force, or the seeded rows
are, in whatever order the database returns them. -/
def Seeded (rules : List TaxRule) (asOf : DateTime) : Prop :=
  ∀ schedule ∈ seedSchedules seedTaxRateIds, ∀ rule ∈ activeRule rules schedule.1 asOf,
    rule.ratesHistory = [] ∨ rule.ratesHistory.Perm schedule.2

instance (rules : List TaxRule) (asOf : DateTime) : Decidable (Seeded seedTaxRateIds rules asOf) := by
  unfold Seeded
  infer_instance

end

section
variable {seedTaxRateIds : String → Uuid}

/-- Rows that tile in the order in which they stand. -/
theorem partitions_of_gapless {rows : List TaxRateHistory} (h : Gapless 0 (rows.map bandOf)) : Partitions rows := by
  have hstrict : rows.Pairwise fun a b => lowerBound a < lowerBound b :=
    (List.pairwise_map (f := bandOf) (R := fun a b => a.lo < b.lo)).mp h.pairwise_lo
  have hsort : sortBrackets rows = rows := List.Pairwise.insertionSort_eq (hstrict.imp fun hlt => hlt.le)
  rw [Partitions,hsort]
  exact h

theorem partitions_schedule {schedule : String × List TaxRateHistory} (h : schedule ∈ seedSchedules seedTaxRateIds) :
    Partitions schedule.2 := by
  apply partitions_of_gapless
  simp only [seedSchedules,List.mem_cons,List.not_mem_nil,or_false] at h
  rcases h with rfl | rfl | rfl | rfl
  all_goals
    simp [sssBrackets,philhealthBrackets,pagibigBrackets,withholdingBrackets,seedBracket,bandOf,lowerBound,Gapless,
      Money.toNumber]
  all_goals norm_num

end
end PinoyTax.TaxEngine
