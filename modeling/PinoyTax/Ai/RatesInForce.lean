import PinoyTax.Ai.KnowledgeBase
import PinoyTax.TaxEngine.Engine
import PinoyTax.Foundation.Table

/-! # The rates that the assistant is shown

The engine selects a rule and its rates by date. The retriever takes every rule without
an end date, with every rate it has had or will have.
-/
namespace PinoyTax.Ai
open PinoyTax Foundation TaxEngine

def engineRule (rules : List TaxRuleRow) (ruleCode : String) (now : DateTime) : Option TaxRule :=
  activeRule (rules.map TaxRuleRow.toTaxRule) ruleCode now

/-- The rate rows that the engine would select for the rule. -/
def ratesToday (rules : List TaxRuleRow) (ruleCode : String) (now : DateTime) : List TaxRateHistory :=
  ((engineRule rules ruleCode now).map TaxRule.ratesHistory).getD []

/-- Whatever is asked, a rule is presented with the rates that the engine would select for it. -/
def PresentsRatesToday (rules : List TaxRuleRow) (forms : List FormTemplate) (now : DateTime) : Prop :=
  ∀ query limit, ∀ source ∈ retrieve rules forms query limit, source.type = .tax_rule →
    ∀ rule ∈ rules, source.label = rule.ruleCode → source.content = ruleContent rule (ratesToday rules rule.ruleCode now)

/-- Every rule that the engine would apply is a candidate. -/
def ScoresEngineRules (rules : List TaxRuleRow) (forms : List FormTemplate) (now : DateTime) : Prop :=
  ∀ ruleCode, ∀ rule ∈ engineRule rules ruleCode now,
    ∃ source ∈ candidates rules forms, source.type = .tax_rule ∧ source.label = ruleCode ∧ source.id = rule.id

/-- A rule without an end date has no rates, or it is in force and so are all of them; a rule with an end date is
not in force. -/
def Timely (now : DateTime) (rule : TaxRuleRow) : Prop :=
  (rule.effectiveTo = none → rule.ratesHistory = [] ∨
    rule.effectiveFrom ≤ now ∧ ∀ r ∈ rule.ratesHistory, inForce r.effectiveFrom r.effectiveTo now = true) ∧
  (rule.effectiveTo.isSome = true → inForce rule.effectiveFrom rule.effectiveTo now = false)

instance (now : DateTime) (rule : TaxRuleRow) : Decidable (Timely now rule) := inferInstanceAs (Decidable (_ ∧ _))

section
variable {rules : List TaxRuleRow} {forms : List FormTemplate} {now : DateTime} {rule : TaxRuleRow}

/-- With one rule to a code the engine's selection looks at that rule only. -/
theorem engineRule_of_mem (hcodes : (rules.map fun rule => rule.ruleCode).Nodup) (hrule : rule ∈ rules) :
    engineRule rules rule.ruleCode now = if inForce rule.effectiveFrom rule.effectiveTo now then
      some { rule.toTaxRule with
        ratesHistory := rule.ratesHistory.filter fun r => inForce r.effectiveFrom r.effectiveTo now } else none := by
  unfold engineRule activeRule
  rw [List.find?_map]
  cases hf : rules.find? ((fun r : TaxRule => decide (r.ruleCode = rule.ruleCode) &&
      inForce r.effectiveFrom r.effectiveTo now) ∘ TaxRuleRow.toTaxRule) with
  | none =>
    have hnone := List.find?_eq_none.mp hf rule hrule
    rw [if_neg (by simpa using hnone)]
    rfl
  | some found =>
    have hsome := List.find?_some hf
    rw [Function.comp_apply,Bool.and_eq_true,decide_eq_true_iff] at hsome
    obtain rfl := Table.eq_of_key hcodes (List.mem_of_find?_eq_some hf) hrule hsome.1
    rw [if_pos hsome.2]
    rfl

theorem exists_row_of_engineRule {ruleCode : String} {r : TaxRule} (h : engineRule rules ruleCode now = some r) :
    ∃ rule ∈ rules, rule.ruleCode = ruleCode ∧ rule.id = r.id ∧
      inForce rule.effectiveFrom rule.effectiveTo now = true := by
  unfold engineRule activeRule at h
  obtain ⟨found,hfound,rfl⟩ := Option.map_eq_some_iff.mp h
  rw [List.find?_map] at hfound
  obtain ⟨rule,hrule,rfl⟩ := Option.map_eq_some_iff.mp hfound
  have hsome := List.find?_some hrule
  rw [Function.comp_apply,Bool.and_eq_true,decide_eq_true_iff] at hsome
  exact ⟨rule,List.mem_of_find?_eq_some hrule,hsome.1,rfl,hsome.2⟩

theorem ratesToday_of_mem (hcodes : (rules.map fun rule => rule.ruleCode).Nodup) (hrule : rule ∈ rules) :
    ratesToday rules rule.ruleCode now = rule.ratesHistory.filter fun r =>
      inForce rule.effectiveFrom rule.effectiveTo now && inForce r.effectiveFrom r.effectiveTo now := by
  rw [ratesToday,engineRule_of_mem hcodes hrule]
  cases inForce rule.effectiveFrom rule.effectiveTo now <;> simp

theorem inForce_of_openEnded (hopen : rule.effectiveTo = none) :
    inForce rule.effectiveFrom rule.effectiveTo now = true ↔ rule.effectiveFrom ≤ now := by
  simp [inForce,hopen]

/-- The engine would select all the rates of an open-ended rule. -/
theorem ratesToday_eq_iff (hcodes : (rules.map fun rule => rule.ruleCode).Nodup) (hrule : rule ∈ rules)
    (hopen : rule.effectiveTo = none) : ratesToday rules rule.ruleCode now = rule.ratesHistory ↔
      rule.ratesHistory = [] ∨
        rule.effectiveFrom ≤ now ∧ ∀ r ∈ rule.ratesHistory, inForce r.effectiveFrom r.effectiveTo now = true := by
  rw [ratesToday_of_mem hcodes hrule,List.filter_eq_self]
  simp only [Bool.and_eq_true,inForce_of_openEnded hopen]
  constructor
  · intro h
    rcases List.eq_nil_or_concat rule.ratesHistory with hnil | ⟨front,r,hconcat⟩
    · exact .inl hnil
    · exact .inr ⟨(h r (by simp [hconcat])).1,fun q hq => (h q hq).2⟩
  · rintro (hnil | ⟨hfrom,hall⟩)
    · simp [hnil]
    · exact fun r hr => ⟨hfrom,hall r hr⟩

theorem mem_tokenize_ruleCandidate (hrates : rule.ratesHistory ≠ []) : "rate" ∈ tokenize (ruleCandidate rule).content := by
  rw [ruleCandidate]
  exact rate_mem_tokenize hrates

/-- A rule with rates is presented when the query asks for rates and all candidates have room. -/
theorem ruleCandidate_mem_retrieve (hrule : rule ∈ rules) (hopen : rule.effectiveTo = none)
    (hrates : rule.ratesHistory ≠ []) :
    ruleCandidate rule ∈ retrieve rules forms "rate" (candidates rules forms).length := by
  have hmem : ruleCandidate rule ∈ candidates rules forms :=
    (tax_rule_mem_candidates_iff rfl).mpr ⟨rule,hrule,hopen,rfl⟩
  have hterm : "rate" ∈ tokenize "rate" := by decide +kernel
  exact mem_retrieve_of_mem_candidates hmem hterm (mem_tokenize_ruleCandidate hrates) le_rfl

theorem presentsRatesToday_iff (hcodes : (rules.map fun rule => rule.ruleCode).Nodup) :
    PresentsRatesToday rules forms now ↔ ∀ rule ∈ rules, rule.effectiveTo = none → rule.ratesHistory = [] ∨
      rule.effectiveFrom ≤ now ∧ ∀ r ∈ rule.ratesHistory, inForce r.effectiveFrom r.effectiveTo now = true := by
  constructor
  · intro h rule hrule hopen
    by_cases hrates : rule.ratesHistory = []
    · exact .inl hrates
    · have hcontent := h "rate" _ _ (ruleCandidate_mem_retrieve hrule hopen hrates) rfl rule hrule rfl
      apply (ratesToday_eq_iff hcodes hrule hopen).mp
      rw [ratesToday_of_mem hcodes hrule] at hcontent ⊢
      exact filter_eq_self_of_content hcontent.symm
  · intro h query limit source hsource htype rule hrule hlabel
    obtain ⟨row,hrow,hopen,rfl⟩ := (tax_rule_mem_candidates_iff htype).mp (mem_candidates_of_retrieve hsource)
    obtain rfl : row = rule := Table.eq_of_key hcodes hrow hrule hlabel
    rw [(ratesToday_eq_iff hcodes hrule hopen).mpr (h row hrule hopen)]
    rfl

theorem scoresEngineRules_iff (hcodes : (rules.map fun rule => rule.ruleCode).Nodup) :
    ScoresEngineRules rules forms now ↔
      ∀ rule ∈ rules, rule.effectiveTo.isSome = true → inForce rule.effectiveFrom rule.effectiveTo now = false := by
  constructor
  · intro h rule hrule hended
    by_contra hforce
    rw [Bool.not_eq_false] at hforce
    obtain ⟨source,hsource,htype,hlabel,-⟩ := h rule.ruleCode _ (by rw [engineRule_of_mem hcodes hrule,if_pos hforce]; rfl)
    obtain ⟨row,hrow,hopen,rfl⟩ := (tax_rule_mem_candidates_iff htype).mp hsource
    obtain rfl : row = rule := Table.eq_of_key hcodes hrow hrule hlabel
    simp [hopen] at hended
  · intro h ruleCode r hr
    obtain ⟨rule,hrule,hcode,hid,hforce⟩ := exists_row_of_engineRule hr
    have hopen : rule.effectiveTo = none := by
      by_contra hended
      rw [h rule hrule (Option.isSome_iff_ne_none.mpr hended)] at hforce
      cases hforce
    exact ⟨ruleCandidate rule,(tax_rule_mem_candidates_iff rfl).mpr ⟨rule,hrule,hopen,rfl⟩,rfl,hcode,hid⟩

end

/-- For every table the retriever presents the rates that the engine would select today, and scores every rule that
the engine would apply, exactly when every rule is timely. -/
theorem assistant_agrees_iff_timely (rules : List TaxRuleRow) (forms : List FormTemplate) (now : DateTime)
    (hcodes : (rules.map fun rule => rule.ruleCode).Nodup) :
    PresentsRatesToday rules forms now ∧ ScoresEngineRules rules forms now ↔ ∀ rule ∈ rules, Timely now rule := by
  rw [presentsRatesToday_iff hcodes,scoresEngineRules_iff hcodes,← forall₂_and]
  rfl

/-- A rule of 1 January 2023 without an end date. -/
def vatRule (ratesHistory : List TaxRateHistory) : TaxRuleRow where
  id := 1
  ruleCode := "VAT_RATE"
  effectiveFrom := 19358 * msPerDay
  ratesHistory := ratesHistory
  description := some "Value-added tax"

/-- 10% until the end of 2024 and 12% from 2025 on. -/
def raisedVat : TaxRuleRow :=
  vatRule [⟨1,1 / 10,none,none,19358 * msPerDay,some (20089 * msPerDay - 1)⟩,⟨2,3 / 25,none,none,20089 * msPerDay,none⟩]

theorem assistant_agrees_iff_timely_oneRate :
    PresentsRatesToday [vatRule [⟨1,3 / 25,none,none,19358 * msPerDay,none⟩]] [] (20254 * msPerDay) ∧
      ScoresEngineRules [vatRule [⟨1,3 / 25,none,none,19358 * msPerDay,none⟩]] [] (20254 * msPerDay) :=
  (assistant_agrees_iff_timely _ [] _ (by decide)).mpr (by decide +kernel)

/-- In June 2025 the assistant is shown the rate of 2024 beside the one in force. -/
theorem raisedVat_presents_superseded_rate : ([raisedVat].map fun rule => rule.ruleCode).Nodup ∧
    ¬ (PresentsRatesToday [raisedVat] [] (20254 * msPerDay) ∧ ScoresEngineRules [raisedVat] [] (20254 * msPerDay)) := by
  refine ⟨by decide,fun h => ?_⟩
  have hterm : "rate" ∈ tokenize "What is the VAT rate?" := by decide +kernel
  have hmem : ruleCandidate raisedVat ∈ retrieve [raisedVat] [] "What is the VAT rate?" :=
    mem_retrieve_of_mem_candidates ((tax_rule_mem_candidates_iff rfl).mpr ⟨_,List.mem_singleton_self _,rfl,rfl⟩) hterm
      (mem_tokenize_ruleCandidate (by decide)) (by decide)
  have hcontent := h.1 _ _ _ hmem rfl raisedVat (List.mem_singleton_self _) rfl
  exact absurd hcontent (by decide +kernel)

end PinoyTax.Ai
