import PinoyTax.Schema.Store
import Mathlib.Data.List.Sort

/-! # The rule-driven engine

A rule applies at an instant when its validity window contains it, and so do its rate
rows. A missing base or a missing rule is reported by name and yields no result.
The graduated loop is the literal one: brackets in ascending order of their lower
bound, one rounding per bracket, an early exit once nothing remains.
-/
namespace PinoyTax.TaxEngine
open PinoyTax Foundation

def inForce (effectiveFrom : DateTime) (effectiveTo : Option DateTime) (asOf : DateTime) : Bool :=
  decide (effectiveFrom ≤ asOf) && effectiveTo.all (fun t => decide (asOf ≤ t))

/-- The rule in force under a code, with the rate rows in force at the same instant. -/
def activeRule (rules : List TaxRule) (ruleCode : String) (asOf : DateTime) : Option TaxRule :=
  (rules.find? (fun r => decide (r.ruleCode = ruleCode) && inForce r.effectiveFrom r.effectiveTo asOf)).map
    (fun r => { r with ratesHistory := r.ratesHistory.filter (fun h => inForce h.effectiveFrom h.effectiveTo asOf) })

structure AppliedBracket where
  min : ℚ
  max : Option ℚ
  rate : ℚ
  taxForBracket : ℚ
deriving DecidableEq, Repr

inductive Breakdown
  | empty
  | flatRate (ruleCode : String) (sourceReference : Option String) (base rate : ℚ)
      (periodStart periodEnd : DateTime)
  | graduated (ruleCode : String) (sourceReference : Option String) (base : ℚ)
      (appliedBrackets : List AppliedBracket) (periodStart periodEnd : DateTime)
deriving DecidableEq, Repr

structure EngineResult where
  result : Option ℚ
  missingInputs : List String
  ruleIdsUsed : List Uuid
  breakdown : Breakdown
deriving DecidableEq, Repr

def configured : Option TaxRule → Bool
  | some rule => !rule.ratesHistory.isEmpty
  | none => false

/-- The check both computations make before they compute. -/
def missingInputs (rule : Option TaxRule) (ruleCode : String) (base : Option ℚ) (baseFieldLabel : String) :
    List String :=
  (if base.isNone then [baseFieldLabel] else []) ++
    (if configured rule then [] else ["tax_rule_not_configured:" ++ ruleCode])

def flatRateResult (rule : Option TaxRule) (ruleCode : String) (base : Option ℚ) (baseFieldLabel : String)
    (periodStart periodEnd : DateTime) : EngineResult :=
  let missing := missingInputs rule ruleCode base baseFieldLabel
  match missing, rule, base with
  | [], some rule, some base =>
    let rate := (rule.ratesHistory.head?.map (fun h => h.rateValue)).getD 0
    { result := some (toFixed 2 (base * rate))
      missingInputs := []
      ruleIdsUsed := [rule.id]
      breakdown := .flatRate ruleCode rule.sourceReference base rate periodStart periodEnd }
  | _, _, _ =>
    { result := none
      missingInputs := missing
      ruleIdsUsed := (rule.map (fun r => r.id)).toList
      breakdown := .empty }

def lowerBound (bracket : TaxRateHistory) : ℚ := (bracket.bracketMin.map Money.toNumber).getD 0

/-- `for (const bracket of brackets)`, with what remains, the total so far and the
brackets applied so far. -/
def graduatedLoop (base : ℚ) : List TaxRateHistory → ℚ → ℚ → List AppliedBracket → ℚ × List AppliedBracket
  | [], _, total, applied => (total,applied)
  | bracket :: brackets, remaining, total, applied =>
    let min := lowerBound bracket
    let max := bracket.bracketMax.map Money.toNumber
    let taxableInThisBracket := (match max with | some m => Min.min base m | none => base) - min
    if base ≤ min then graduatedLoop base brackets remaining total applied
    else if taxableInThisBracket ≤ 0 then graduatedLoop base brackets remaining total applied
    else
      let taxForBracket := toFixed 2 (taxableInThisBracket * bracket.rateValue)
      let applied := applied ++ [⟨min,max,bracket.rateValue,taxForBracket⟩]
      if remaining - taxableInThisBracket ≤ 0 then (total + taxForBracket,applied)
      else graduatedLoop base brackets (remaining - taxableInThisBracket) (total + taxForBracket) applied

def sortBrackets (brackets : List TaxRateHistory) : List TaxRateHistory :=
  brackets.insertionSort (fun a b => lowerBound a ≤ lowerBound b)

def graduatedResult (rule : Option TaxRule) (ruleCode : String) (base : Option ℚ) (baseFieldLabel : String)
    (periodStart periodEnd : DateTime) : EngineResult :=
  let missing := missingInputs rule ruleCode base baseFieldLabel
  match missing, rule, base with
  | [], some rule, some base =>
    let (total,appliedBrackets) := graduatedLoop base (sortBrackets rule.ratesHistory) base 0 []
    { result := some (toFixed 2 total)
      missingInputs := []
      ruleIdsUsed := [rule.id]
      breakdown := .graduated ruleCode rule.sourceReference base appliedBrackets periodStart periodEnd }
  | _, _, _ =>
    { result := none
      missingInputs := missing
      ruleIdsUsed := (rule.map (fun r => r.id)).toList
      breakdown := .empty }

theorem missingInputs_eq_nil {rule : Option TaxRule} {ruleCode label : String} {base : Option ℚ} :
    missingInputs rule ruleCode base label = [] ↔ base.isSome ∧ configured rule = true := by
  cases base <;> cases hc : configured rule <;> simp [missingInputs,hc]

theorem exists_of_missingInputs_eq_nil {rule : Option TaxRule} {ruleCode label : String} {base : Option ℚ}
    (h : missingInputs rule ruleCode base label = []) : ∃ r b, rule = some r ∧ base = some b := by
  obtain ⟨hb,hc⟩ := missingInputs_eq_nil.mp h
  obtain ⟨b,rfl⟩ := Option.isSome_iff_exists.mp hb
  cases rule with
  | none => simp [configured] at hc
  | some r => exact ⟨r,b,rfl,rfl⟩

/-- What is missing is reported, and nothing is computed. -/
theorem graduatedResult_of_missing {rule : Option TaxRule} {ruleCode label : String} {base : Option ℚ}
    (periodStart periodEnd : DateTime) (h : missingInputs rule ruleCode base label ≠ []) :
    graduatedResult rule ruleCode base label periodStart periodEnd =
      { result := none
        missingInputs := missingInputs rule ruleCode base label
        ruleIdsUsed := (rule.map (fun r => r.id)).toList
        breakdown := .empty } := by
  unfold graduatedResult
  cases hm : missingInputs rule ruleCode base label with
  | nil => exact absurd hm h
  | cons m ms => rfl

/-- Nothing missing means a result: an amount rounded to centavos. -/
theorem graduatedResult_of_no_missing {rule : Option TaxRule} {ruleCode label : String} {base : Option ℚ}
    {periodStart periodEnd : DateTime}
    (h : (graduatedResult rule ruleCode base label periodStart periodEnd).missingInputs = []) :
    ∃ total : ℚ, (graduatedResult rule ruleCode base label periodStart periodEnd).result =
      some (toFixed 2 total) := by
  unfold graduatedResult at h ⊢
  cases hm : missingInputs rule ruleCode base label with
  | cons m ms => simp [hm] at h
  | nil =>
    obtain ⟨r,b,rfl,rfl⟩ := exists_of_missingInputs_eq_nil hm
    exact ⟨_,rfl⟩

end PinoyTax.TaxEngine
