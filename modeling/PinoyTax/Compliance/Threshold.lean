import PinoyTax.Compliance.Findings
import PinoyTax.TaxEngine.Service
import Mathlib.Data.List.Pairwise

/-! # The threshold of the VAT check

A rule keeps every rate it has had, each with its window. The engine selects by date;
the check takes the row that the database returns first. The two agree for every
order of the rows only when all of them carry one rate.
-/
namespace PinoyTax.Compliance
open PinoyTax Foundation TaxEngine

/-- The threshold that the engine would use at the instant. -/
def thresholdInForce (rules : List TaxRule) (asOf : DateTime) : Option ℚ :=
  (activeRule rules "VAT_REGISTRATION_THRESHOLD" asOf).bind firstRate

/-! ## Histories with disjoint windows -/

/-- No instant is in both windows. -/
def Apart (a b : TaxRateHistory) : Prop :=
  ∀ asOf, ¬ (inForce a.effectiveFrom a.effectiveTo asOf = true ∧ inForce b.effectiveFrom b.effectiveTo asOf = true)

/-- The rule is in the table, with its rows in some order. -/
structure StoredAs (rule : TaxRule) (s : Store) : Prop where
  codes : (s.taxEngine.taxRules.map TaxRule.ruleCode).Nodup
  row : ∃ history, history.Perm rule.ratesHistory ∧ { rule with ratesHistory := history } ∈ s.taxEngine.taxRules

/-- The check compares every company's sales with the rate in force at its date, and with none
in force does nothing. -/
def ComparesInForce (s : Store) (now : DateTime) : Prop :=
  ∀ companyId company id, (checkVatClassificationRisk companyId company id now).run s =
    (checkedWith (thresholdInForce s.taxEngine.taxRules now) companyId company id now).run s

/-- No rows, or one in force whose rate all of them carry. -/
def OneRate (rule : TaxRule) (asOf : DateTime) : Prop :=
  rule.ratesHistory = [] ∨ inForce rule.effectiveFrom rule.effectiveTo asOf = true ∧
    ∃ h ∈ rule.ratesHistory, inForce h.effectiveFrom h.effectiveTo asOf = true ∧
      ∀ h' ∈ rule.ratesHistory, thresholdOf h' = thresholdOf h

instance (rule : TaxRule) (asOf : DateTime) : Decidable (OneRate rule asOf) := inferInstanceAs (Decidable (_ ∨ _))

section
variable {rules : List TaxRule} {rule : TaxRule} {now : DateTime}

/-- Both selections of a stored rule with the code look at its rows only. -/
theorem comparedThreshold_of_mem (hcodes : (rules.map TaxRule.ruleCode).Nodup) (hrule : rule ∈ rules)
    (hcode : rule.ruleCode = "VAT_REGISTRATION_THRESHOLD") : comparedThreshold rules = firstRate rule := by
  have hfound := Table.find?_of_mem hcodes hrule
  rw [hcode] at hfound
  rw [comparedThreshold,hfound,Option.bind_some]

theorem thresholdInForce_of_mem (hcodes : (rules.map TaxRule.ruleCode).Nodup) (hrule : rule ∈ rules)
    (hcode : rule.ruleCode = "VAT_REGISTRATION_THRESHOLD") : thresholdInForce rules now =
      if inForce rule.effectiveFrom rule.effectiveTo now then
        (rule.ratesHistory.find? (fun h => inForce h.effectiveFrom h.effectiveTo now)).map thresholdOf
      else none := by
  unfold thresholdInForce activeRule
  cases hf : rules.find? fun r => decide (r.ruleCode = "VAT_REGISTRATION_THRESHOLD") &&
      inForce r.effectiveFrom r.effectiveTo now with
  | none =>
    have hnone := List.find?_eq_none.mp hf rule hrule
    rw [if_neg (by simpa [hcode] using hnone)]
    rfl
  | some found =>
    have hsome := List.find?_some hf
    rw [Bool.and_eq_true,decide_eq_true_iff] at hsome
    obtain rfl := Table.eq_of_key hcodes (List.mem_of_find?_eq_some hf) hrule (hsome.1.trans hcode.symm)
    rw [if_pos hsome.2,Option.map_some,Option.bind_some,firstRate,List.head?_filter]

theorem apart_of_ended {a b : TaxRateHistory} {ended : DateTime} (ha : a.effectiveTo = some ended)
    (hb : ended < b.effectiveFrom) : Apart a b := by
  rintro asOf ⟨haforce,hbforce⟩
  simp only [inForce,ha,Option.all_some,Bool.and_eq_true,decide_eq_true_eq] at haforce hbforce
  exact absurd (hbforce.1.trans haforce.2) (not_le_of_gt hb)

theorem pairwise_apart_pair {a b : TaxRateHistory} {ended : DateTime} (ha : a.effectiveTo = some ended)
    (hb : ended < b.effectiveFrom) : [a,b].Pairwise Apart := by
  rw [List.pairwise_pair]
  exact apart_of_ended ha hb

/-- Of windows that are apart only one is in force. -/
theorem eq_of_inForce {rows : List TaxRateHistory} (hapart : rows.Pairwise Apart) {a b : TaxRateHistory} (ha : a ∈ rows)
    (hb : b ∈ rows) (haforce : inForce a.effectiveFrom a.effectiveTo now = true)
    (hbforce : inForce b.effectiveFrom b.effectiveTo now = true) : a = b := by
  by_contra hne
  have hsymm : Std.Symm Apart := ⟨fun x y h asOf hboth => h asOf hboth.symm⟩
  exact hapart.forall ha hb hne now ⟨haforce,hbforce⟩

end

/-! ## What the verdicts say about the threshold -/

/-- A confirmed percentage tax computation. -/
def confirmedComputation (sales : ℚ) : TaxComputation where
  id := 1
  companyId := 300
  computationType := .percentage_tax
  periodStart := 0
  periodEnd := 0
  inputs := ⟨.percentage_tax,0,0,some sales,none,none,none,none⟩
  ruleIdsUsed := []
  result := none
  missingInputs := []
  status := .confirmed
  createdAt := 0

def storeWithSales (rules : List TaxRule) (sales : ℚ) : Store where
  org := { companies := [sariSariStore] }
  taxEngine := { taxRules := rules, taxComputations := [confirmedComputation sales] }

theorem totalGrossSales_storeWithSales (rules : List TaxRule) (sales : ℚ) :
    totalGrossSales 300 (storeWithSales rules sales).taxEngine.taxComputations = Double.nearest sales := by
  simp [totalGrossSales,recentComputations,storeWithSales,confirmedComputation,isConfirmedOf,grossOf]

/-- The check leaves an issue exactly when the sales exceed the threshold. -/
theorem flags_checkedWith_iff (threshold : Option ℚ) (now : DateTime) (rules : List TaxRule) (sales : ℚ) :
    ((checkedWith threshold 300 sariSariStore 1 now).run (storeWithSales rules sales)).2.compliance.flaggedIssues ≠ [] ↔
      ∃ t ∈ threshold, t < Double.nearest sales := by
  cases threshold with
  | none =>
    refine iff_of_false (fun h => h rfl) ?_
    rintro ⟨t,ht,-⟩
    cases ht
  | some t =>
    have hcompany : sariSariStore.vatClassification ≠ .vat := by decide
    simp only [checkedWith,run_checkAgainst hcompany,totalGrossSales_storeWithSales,Option.mem_def,Option.some.injEq,
      exists_eq_left']
    by_cases hexceeds : t < Double.nearest sales
    · rw [if_pos hexceeds]
      exact iff_of_true (List.cons_ne_nil _ _) hexceeds
    · rw [if_neg hexceeds]
      exact iff_of_false (fun h => h rfl) hexceeds

/-- A threshold is known by the sales that exceed it. -/
theorem eq_of_exceeds_iff {a b : Option ℚ} (ha : ∀ t ∈ a, Double.nearest t = t) (hb : ∀ t ∈ b, Double.nearest t = t)
    (h : ∀ sales, (∃ t ∈ a, t < Double.nearest sales) ↔ ∃ t ∈ b, t < Double.nearest sales) : a = b := by
  cases a with
  | none =>
    cases b with
    | none => rfl
    | some t =>
      obtain ⟨sales,hsales⟩ := Double.exists_lt_nearest t
      obtain ⟨u,hu,-⟩ := (h sales).mpr ⟨t,rfl,hsales⟩
      cases hu
  | some t =>
    cases b with
    | none =>
      obtain ⟨sales,hsales⟩ := Double.exists_lt_nearest t
      obtain ⟨u,hu,-⟩ := (h sales).mp ⟨t,rfl,hsales⟩
      cases hu
    | some u =>
      simp only [Option.mem_def,Option.some.injEq,exists_eq_left'] at h
      have hle := (h t).not.mp (by rw [ha t rfl]; exact lt_irrefl t)
      have hge := (h u).not.mpr (by rw [hb u rfl]; exact lt_irrefl u)
      rw [ha t rfl] at hle
      rw [hb u rfl] at hge
      rw [le_antisymm (not_lt.mp hle) (not_lt.mp hge)]

theorem nearest_of_mem_firstRate {rule : TaxRule} {t : ℚ} (h : t ∈ firstRate rule) : Double.nearest t = t := by
  obtain ⟨rate,-,rfl⟩ := Option.map_eq_some_iff.mp h
  exact Double.nearest_nearest _

theorem nearest_of_mem_comparedThreshold {rules : List TaxRule} {t : ℚ} (h : t ∈ comparedThreshold rules) :
    Double.nearest t = t := by
  obtain ⟨rule,-,hrule⟩ := Option.bind_eq_some_iff.mp h
  exact nearest_of_mem_firstRate hrule

theorem nearest_of_mem_thresholdInForce {rules : List TaxRule} {asOf : DateTime} {t : ℚ}
    (h : t ∈ thresholdInForce rules asOf) : Double.nearest t = t := by
  obtain ⟨rule,-,hrule⟩ := Option.bind_eq_some_iff.mp h
  exact nearest_of_mem_firstRate hrule

theorem comparedThreshold_eq_of_comparesInForce {rules : List TaxRule} {now : DateTime}
    (h : ∀ sales, ComparesInForce (storeWithSales rules sales) now) :
    comparedThreshold rules = thresholdInForce rules now := by
  apply eq_of_exceeds_iff (fun _ => nearest_of_mem_comparedThreshold) (fun _ => nearest_of_mem_thresholdInForce)
  intro sales
  have hsame := h sales 300 sariSariStore 1
  rw [run_checkVatClassificationRisk] at hsame
  have hcompared := flags_checkedWith_iff (comparedThreshold rules) now rules sales
  have hinForce := flags_checkedWith_iff (thresholdInForce rules now) now rules sales
  rw [← hcompared,← hinForce]
  exact iff_of_eq (congrArg (fun p => p.2.compliance.flaggedIssues ≠ []) hsame)

section
variable {rule : TaxRule} {now : DateTime}

/-- Each row may be the first that the database returns, so that its rate is the one in force. -/
theorem inForce_of_comparesInForce (hcode : rule.ruleCode = "VAT_REGISTRATION_THRESHOLD")
    (h : ∀ s, StoredAs rule s → ComparesInForce s now) {row : TaxRateHistory} (hrow : row ∈ rule.ratesHistory) :
    inForce rule.effectiveFrom rule.effectiveTo now = true ∧
      ∃ current ∈ rule.ratesHistory, inForce current.effectiveFrom current.effectiveTo now = true ∧
        thresholdOf current = thresholdOf row := by
  have hperm : (row :: rule.ratesHistory.erase row).Perm rule.ratesHistory := (List.perm_cons_erase hrow).symm
  generalize hhistory : row :: rule.ratesHistory.erase row = history at hperm
  have hsame := comparedThreshold_eq_of_comparesInForce fun sales =>
    h (storeWithSales [{ rule with ratesHistory := history }] sales)
      ⟨by simp [storeWithSales],history,hperm,by simp [storeWithSales]⟩
  have hcodes : ([{ rule with ratesHistory := history }].map TaxRule.ruleCode).Nodup := by simp
  rw [comparedThreshold_of_mem hcodes (List.mem_singleton_self _) hcode,
    thresholdInForce_of_mem hcodes (List.mem_singleton_self _) hcode,firstRate,← hhistory] at hsame
  dsimp only [List.head?_cons,Option.map_some] at hsame
  rw [hhistory] at hsame
  by_cases hforce : inForce rule.effectiveFrom rule.effectiveTo now = true
  · rw [if_pos hforce] at hsame
    obtain ⟨current,hfound,hrate⟩ := Option.map_eq_some_iff.mp hsame.symm
    have hwindow := List.find?_some hfound
    exact ⟨hforce,current,hperm.mem_iff.mp (List.mem_of_find?_eq_some hfound),hwindow,hrate⟩
  · rw [if_neg hforce] at hsame
    cases hsame

theorem comparesInForce_of_oneRate (hcode : rule.ruleCode = "VAT_REGISTRATION_THRESHOLD") (hone : OneRate rule now)
    {s : Store} (hs : StoredAs rule s) : ComparesInForce s now := by
  intro companyId company id
  obtain ⟨hcodes,history,hperm,hstored⟩ := hs
  rw [run_checkVatClassificationRisk,comparedThreshold_of_mem hcodes hstored hcode,
    thresholdInForce_of_mem hcodes hstored hcode,firstRate]
  dsimp only
  rcases hone with hnil | ⟨hforce,current,hcurrent,hwindow,hrates⟩
  · obtain rfl := (hnil ▸ hperm).eq_nil
    simp
  · have hmem := hperm.mem_iff.mpr hcurrent
    have hany : (history.find? (fun h => inForce h.effectiveFrom h.effectiveTo now)).isSome :=
      List.find?_isSome.mpr ⟨current,hmem,hwindow⟩
    obtain ⟨row,hfound⟩ := Option.isSome_iff_exists.mp hany
    obtain ⟨first,rest,hhistory⟩ := List.exists_cons_of_ne_nil (List.ne_nil_of_mem hmem)
    have hrow := hrates row (hperm.mem_iff.mp (List.mem_of_find?_eq_some hfound))
    have hfirst := hrates first (hperm.mem_iff.mp (hhistory ▸ List.mem_cons_self))
    have hhead : history.head? = some first := by rw [hhistory,List.head?_cons]
    rw [if_pos hforce,hfound,hhead,Option.map_some,Option.map_some,hrow,hfirst]

end

/-- Over every order of the rows the check uses the rate in force exactly when no row has another. -/
theorem comparesInForce_iff_oneRate {rule : TaxRule} (now : DateTime)
    (hcode : rule.ruleCode = "VAT_REGISTRATION_THRESHOLD") (hapart : rule.ratesHistory.Pairwise Apart) :
    (∀ s, StoredAs rule s → ComparesInForce s now) ↔ OneRate rule now := by
  constructor
  · intro h
    by_cases hnil : rule.ratesHistory = []
    · exact .inl hnil
    · obtain ⟨row,hrow⟩ := List.exists_mem_of_ne_nil _ hnil
      obtain ⟨hforce,current,hcurrent,hwindow,-⟩ := inForce_of_comparesInForce hcode h hrow
      refine .inr ⟨hforce,current,hcurrent,hwindow,fun row' hrow' => ?_⟩
      obtain ⟨-,current',hcurrent',hwindow',hrate⟩ := inForce_of_comparesInForce hcode h hrow'
      rw [← hrate,eq_of_inForce hapart hcurrent' hcurrent hwindow' hwindow]
  · exact fun hone s hs => comparesInForce_of_oneRate hcode hone hs

/-- A threshold of three million since 2018, kept when its row was renewed in 2024. -/
def renewedRule : TaxRule :=
  ⟨7,"VAT_REGISTRATION_THRESHOLD",none,17532 * msPerDay,none,
    [⟨1,3000000,none,none,17532 * msPerDay,some (19722 * msPerDay)⟩,⟨2,3000000,none,none,19723 * msPerDay,none⟩]⟩

theorem comparesInForce_iff_oneRate_renewed :
    (∀ s, StoredAs renewedRule s → ComparesInForce s (20640 * msPerDay)) ↔ OneRate renewedRule (20640 * msPerDay) :=
  comparesInForce_iff_oneRate _ rfl (pairwise_apart_pair rfl (by decide))

/-- The threshold until 2017, which the database returns first, and the one since. -/
def raisedRule : TaxRule :=
  ⟨7,"VAT_REGISTRATION_THRESHOLD",none,15340 * msPerDay,none,
    [⟨1,1919500,none,none,15340 * msPerDay,some (17531 * msPerDay)⟩,⟨2,3000000,none,none,17532 * msPerDay,none⟩]⟩

/-- Sales of two million are flagged in 2026, by the threshold that expired. -/
theorem raisedRule_not_comparesInForce :
    thresholdInForce [raisedRule] (20640 * msPerDay) = some 3000000 ∧
      comparedThreshold [raisedRule] = some 1919500 ∧
      ((checkVatClassificationRisk 300 sariSariStore 1 (20640 * msPerDay)).run
        (storeWithSales [raisedRule] 2000000)).2.compliance.flaggedIssues ≠ [] ∧
      StoredAs raisedRule (storeWithSales [raisedRule] 2000000) ∧ raisedRule.ratesHistory.Pairwise Apart ∧
      ¬ ComparesInForce (storeWithSales [raisedRule] 2000000) (20640 * msPerDay) := by
  have hinForce : thresholdInForce [raisedRule] (20640 * msPerDay) = some 3000000 := by decide +kernel
  have hcompared : comparedThreshold [raisedRule] = some 1919500 := by decide +kernel
  have hflagged : ((checkVatClassificationRisk 300 sariSariStore 1 (20640 * msPerDay)).run
      (storeWithSales [raisedRule] 2000000)).2.compliance.flaggedIssues ≠ [] := by
    rw [run_checkVatClassificationRisk]
    exact (flags_checkedWith_iff (comparedThreshold [raisedRule]) _ _ _).mpr ⟨1919500,hcompared,by decide +kernel⟩
  refine ⟨hinForce,hcompared,hflagged,⟨by simp [storeWithSales],raisedRule.ratesHistory,List.Perm.refl _,List.mem_cons_self⟩,
    pairwise_apart_pair rfl (by decide),?_⟩
  intro h
  rw [h 300 sariSariStore 1] at hflagged
  obtain ⟨t,ht,hexceeds⟩ := (flags_checkedWith_iff _ _ _ _).mp hflagged
  have hrate : t = 3000000 := Option.some.inj ((Option.mem_def.mp ht).symm.trans hinForce)
  rw [hrate] at hexceeds
  revert hexceeds
  decide +kernel

end PinoyTax.Compliance
