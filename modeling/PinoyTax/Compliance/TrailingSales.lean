import PinoyTax.Foundation.Cutoff
import PinoyTax.Compliance.Threshold

/-! # What the VAT check adds up

The check sums over a company's last twelve confirmed computations, of whatever type. A
period may be among them once for each type under which its sales are reported, or not
at all, when computations without sales take the places. Which totals the same sales can
come to is a matter of which figures take the places.
-/
namespace PinoyTax.Compliance
open PinoyTax Foundation Cutoff

/-- The gross sales of some periods, each with its first and last day. -/
structure SalesReport where
  periods : List (DateTime × DateTime)
  gross : DateTime × DateTime → ℚ
  distinct : periods.Nodup
  nonneg : ∀ p ∈ periods, 0 ≤ gross p

/-- What their figures come to. -/
def SalesReport.total (report : SalesReport) (picked : List (DateTime × DateTime)) : ℚ :=
  Double.sum (picked.map fun p => Double.nearest (report.gross p))

instance : Std.Total latestFirst := ⟨fun a b => le_total b.periodEnd a.periodEnd⟩
instance : IsTrans TaxComputation latestFirst := ⟨fun _ _ _ hab hbc => hbc.trans hab⟩

/-! ## What the last twelve come to -/

section
variable {report : SalesReport} {companyId : Uuid} {computations : List TaxComputation} {c : TaxComputation}
variable {p : DateTime × DateTime}

end

/-! ## A store for each selection -/

section
variable (companyId : Uuid) (report : SalesReport)

/-- The rows with ids of their own. -/
def numbered (rows : List TaxComputation) : List TaxComputation := rows.zipIdx.map (fun c => { c.1 with id := c.2 })

variable {report} {picked : List (DateTime × DateTime)} {last : DateTime}

end

/-! ## The verdict -/

section
variable {report : SalesReport} {companyId : Uuid}

end

/-- A rule with the threshold of three million. -/
def thresholdRule : TaxRule := ⟨7,"VAT_REGISTRATION_THRESHOLD",none,0,none,[⟨1,3000000,none,none,0,none⟩]⟩

end PinoyTax.Compliance
