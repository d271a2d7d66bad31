import PinoyTax.Foundation.Bands
import PinoyTax.TaxEngine.Service
import Mathlib.Algebra.BigOperators.Ring.List
import Mathlib.Tactic.Ring

/-! # Graduated tax as a sum over brackets

The loop walks the brackets in ascending order and keeps what remains of the base. As
long as the brackets tile the half-line, the remainder is what lies above the start of
the brackets still to come, so that the loop adds up one rounded term for each bracket
that the base reaches into.
-/
namespace PinoyTax.TaxEngine
open PinoyTax Foundation

def bandOf (row : TaxRateHistory) : Band ℚ := ⟨lowerBound row,row.bracketMax.map Money.toNumber⟩

/-- The tax of one bracket, rounded to centavos. -/
def bracketTax (base : ℚ) (row : TaxRateHistory) : ℚ := toFixed 2 ((bandOf row).portion base * row.rateValue)

/-- What a schedule asks of a base: its rate on the part of the base inside each bracket. -/
def graduatedTax (rows : List TaxRateHistory) (base : ℚ) : ℚ := (rows.map (bracketTax base)).sum

/-- Sorted by their lower bound the rows tile the amounts from zero on. -/
def Partitions (rows : List TaxRateHistory) : Prop := Gapless 0 ((sortBrackets rows).map bandOf)

instance (rows : List TaxRateHistory) : Decidable (Partitions rows) := by unfold Partitions; infer_instance

/-- What the loop reports of a bracket that it taxes. -/
def appliedBracket (base : ℚ) (row : TaxRateHistory) : AppliedBracket :=
  ⟨lowerBound row,row.bracketMax.map Money.toNumber,row.rateValue,bracketTax base row⟩

/-- The rows that the base reaches into. -/
def reached (base : ℚ) (rows : List TaxRateHistory) : List TaxRateHistory :=
  rows.filter (fun row => 0 < (bandOf row).portion base)

/-! ## The loop -/

section
variable {base start : ℚ} {row : TaxRateHistory} {rows : List TaxRateHistory}

theorem graduatedTax_eq_zero (h : Gapless start (rows.map bandOf)) (hb : base ≤ start) :
    graduatedTax rows base = 0 := by
  apply List.sum_eq_zero
  intro t ht
  obtain ⟨row,hrow,rfl⟩ := List.mem_map.mp ht
  rw [bracketTax,h.portion_eq_zero hb (List.mem_map_of_mem hrow),zero_mul,toFixed_zero]

theorem reached_eq_nil (h : Gapless start (rows.map bandOf)) (hb : base ≤ start) : reached base rows = [] := by
  rw [reached,List.filter_eq_nil_iff]
  intro row hrow
  simp [h.portion_eq_zero hb (List.mem_map_of_mem hrow)]

/-- Brackets above the base are skipped, whatever remains. -/
theorem graduatedLoop_of_le (h : Gapless start (rows.map bandOf)) (hb : base ≤ start) (remaining total : ℚ)
    (applied : List AppliedBracket) : graduatedLoop base rows remaining total applied = (total,applied) := by
  have hlo : ∀ row ∈ rows, base ≤ lowerBound row := fun row hrow => hb.trans (h.le_lo (List.mem_map_of_mem hrow))
  clear h
  induction rows with
  | nil => rfl
  | cons row rows ih =>
    rw [graduatedLoop,if_pos (hlo row List.mem_cons_self)]
    exact ih fun r hr => hlo r (List.mem_cons_of_mem _ hr)

/-- A bracket that the base reaches into is taxed on its portion, and the loop goes on
while something remains. -/
theorem graduatedLoop_of_lt (hlt : lowerBound row < base) (hpos : 0 < (bandOf row).portion base)
    (remaining total : ℚ) (applied : List AppliedBracket) :
    graduatedLoop base (row :: rows) remaining total applied =
      if remaining - (bandOf row).portion base ≤ 0 then
        (total + bracketTax base row,applied ++ [appliedBracket base row])
      else graduatedLoop base rows (remaining - (bandOf row).portion base) (total + bracketTax base row)
        (applied ++ [appliedBracket base row]) := by
  have htaxable : (bandOf row).capped base - lowerBound row = (bandOf row).portion base := by
    rcases max_cases ((bandOf row).capped base - (bandOf row).lo) 0 with ⟨hmax,-⟩ | ⟨hmax,-⟩
    · exact hmax.symm
    · exact absurd hpos (by rw [Band.portion,hmax]; exact lt_irrefl 0)
  rcases row with ⟨id,rateValue,bracketMin,bracketMax,effectiveFrom,effectiveTo⟩
  cases bracketMax with
  | none =>
    change base - _ = _ at htaxable
    rw [graduatedLoop]
    simp only [Option.map_none,htaxable,if_neg hlt.not_ge,if_neg hpos.not_ge]
    rfl
  | some m =>
    change min base m.toNumber - _ = _ at htaxable
    rw [graduatedLoop]
    simp only [Option.map_some,htaxable,if_neg hlt.not_ge,if_neg hpos.not_ge]
    rfl

/-- The invariant of the loop: what remains is the part of the base above the start of
the brackets to come. -/
theorem graduatedLoop_eq (h : Gapless start (rows.map bandOf)) (total : ℚ) (applied : List AppliedBracket) :
    graduatedLoop base rows (base - start) total applied =
      (total + graduatedTax rows base,applied ++ (reached base rows).map (appliedBracket base)) := by
  induction rows generalizing start total applied with
  | nil => exact h.elim
  | cons row rows ih =>
    rcases le_or_gt base start with hb | hb
    · rw [graduatedLoop_of_le h hb,graduatedTax_eq_zero h hb,reached_eq_nil h hb]
      simp
    have hpos : 0 < (bandOf row).portion base := h.portion_pos hb
    obtain ⟨hlo,hrest⟩ := h
    have hlt : lowerBound row < base := by rwa [show lowerBound row = start from hlo]
    have htax : graduatedTax (row :: rows) base = bracketTax base row + graduatedTax rows base := rfl
    have hreached : reached base (row :: rows) = row :: reached base rows := by simp [reached,hpos]
    rw [graduatedLoop_of_lt hlt hpos,htax,hreached,List.map_cons]
    cases hmax : (bandOf row).hi with
    | none =>
      rw [hmax] at hrest
      obtain rfl : rows = [] := List.map_eq_nil_iff.mp hrest
      have hall : (bandOf row).portion base = base - start := by
        rw [Band.portion_of_le_hi (by simp [hmax]) hlt.le,hlo]
      rw [hall,if_pos (sub_self _).le]
      simp [graduatedTax,reached]
    | some m =>
      rw [hmax] at hrest
      obtain ⟨hsm,htiles⟩ := hrest
      rcases le_or_gt base m with hbm | hmb
      · have hall : (bandOf row).portion base = base - start := by
          rw [Band.portion_of_le_hi (by simpa [hmax] using hbm) hlt.le,hlo]
        rw [hall,if_pos (sub_self _).le,graduatedTax_eq_zero htiles hbm,reached_eq_nil htiles hbm]
        simp
      · have hfull : (bandOf row).portion base = m - start := by
          rw [Band.portion_of_hi_le hmax hmb.le (hlo.trans_le hsm.le),hlo]
        have hrest : base - start - (m - start) = base - m := by ring
        rw [hfull,hrest,if_neg (sub_pos.mpr hmb).not_ge,ih htiles,add_assoc,List.append_assoc]
        rfl

end

/-! ## The order of the rows -/

section
variable {rows rows' : List TaxRateHistory}

theorem perm_sortBrackets (rows : List TaxRateHistory) : (sortBrackets rows).Perm rows := List.perm_insertionSort _ _

theorem pairwise_sortBrackets (rows : List TaxRateHistory) :
    (sortBrackets rows).Pairwise fun a b => lowerBound a ≤ lowerBound b := by
  have : Std.Total fun a b : TaxRateHistory => lowerBound a ≤ lowerBound b := ⟨fun a b => le_total _ _⟩
  have : IsTrans TaxRateHistory fun a b => lowerBound a ≤ lowerBound b := ⟨fun _ _ _ => le_trans⟩
  exact List.pairwise_insertionSort _ rows

/-- Distinct lower bounds leave one sorted order. -/
theorem sortBrackets_eq_of_perm (h : Partitions rows) (hp : rows'.Perm rows) : sortBrackets rows' = sortBrackets rows := by
  have hall : (sortBrackets rows').Perm (sortBrackets rows) :=
    (perm_sortBrackets rows').trans (hp.trans (perm_sortBrackets rows).symm)
  have hstrict : (sortBrackets rows).Pairwise fun a b => lowerBound a < lowerBound b :=
    (List.pairwise_map (f := bandOf) (R := fun a b => a.lo < b.lo)).mp h.pairwise_lo
  have hkeys : ((sortBrackets rows).map lowerBound).Nodup :=
    List.pairwise_map.mpr (hstrict.imp fun hlt => hlt.ne)
  refine List.Perm.eq_of_pairwise ?_ (pairwise_sortBrackets rows') (pairwise_sortBrackets rows) hall
  intro a b ha hb hab hba
  exact List.inj_on_of_nodup_map hkeys (hall.mem_iff.mp ha) hb (le_antisymm hab hba)

theorem Partitions.of_perm (h : Partitions rows) (hp : rows'.Perm rows) : Partitions rows' := by
  unfold Partitions
  rw [sortBrackets_eq_of_perm h hp]
  exact h

theorem graduatedTax_perm (hp : rows'.Perm rows) (base : ℚ) : graduatedTax rows' base = graduatedTax rows base :=
  (hp.map _).sum_eq

end

/-! ## The result -/

/-- `Math.min(base, max) - min`, the part of the base that a bracket of the breakdown was taxed on. -/
def taxedPortion (base : ℚ) (b : AppliedBracket) : ℚ := (Band.mk b.min b.max).capped base - b.min

section
variable {base : ℚ} {rows : List TaxRateHistory} {rule : TaxRule}

theorem taxedPortion_of_reached {row : TaxRateHistory} (h : row ∈ reached base rows) :
    taxedPortion base (appliedBracket base row) = (bandOf row).portion base := by
  have hpos : 0 < (bandOf row).portion base := of_decide_eq_true (List.mem_filter.mp h).2
  rcases max_cases ((bandOf row).capped base - (bandOf row).lo) 0 with ⟨hmax,-⟩ | ⟨hmax,-⟩
  · exact hmax.symm
  · exact absurd hpos (by rw [Band.portion,hmax]; exact lt_irrefl 0)

/-- The brackets that the base does not reach into have no part of it. -/
theorem sum_taxedPortion (base : ℚ) (rows : List TaxRateHistory) :
    (((reached base rows).map (appliedBracket base)).map (taxedPortion base)).sum =
      (rows.map fun row => (bandOf row).portion base).sum := by
  have hportion : ((reached base rows).map (appliedBracket base)).map (taxedPortion base) =
      (reached base rows).map fun row => (bandOf row).portion base := by
    rw [List.map_map]
    exact List.map_congr_left fun row hrow => taxedPortion_of_reached hrow
  rw [hportion,reached]
  clear hportion
  induction rows with
  | nil => rfl
  | cons row rows ih =>
    by_cases hpos : 0 < (bandOf row).portion base
    · simp [hpos,ih]
    · have hzero : (bandOf row).portion base = 0 := le_antisymm (not_lt.mp hpos) ((bandOf row).portion_nonneg base)
      simp [hzero,ih]

theorem toFixed_graduatedTax (rows : List TaxRateHistory) (base : ℚ) :
    toFixed 2 (graduatedTax rows base) = graduatedTax rows base := toFixed_sum_toFixed 2 _ _

theorem graduatedResult_of_partitions (h : Partitions rule.ratesHistory) (ruleCode label : String)
    (periodStart periodEnd : DateTime) (base : ℚ) :
    graduatedResult (some rule) ruleCode (some base) label periodStart periodEnd =
      { result := some (graduatedTax rule.ratesHistory base)
        missingInputs := []
        ruleIdsUsed := [rule.id]
        breakdown := .graduated ruleCode rule.sourceReference base
          ((reached base (sortBrackets rule.ratesHistory)).map (appliedBracket base)) periodStart periodEnd } := by
  have hrows : rule.ratesHistory ≠ [] := by
    intro hnil
    rw [Partitions,hnil] at h
    exact h
  have hmissing : missingInputs (some rule) ruleCode (some base) label = [] :=
    missingInputs_eq_nil.mpr ⟨rfl,by simp [configured,hrows]⟩
  have hloop : graduatedLoop base (sortBrackets rule.ratesHistory) (base - 0) 0 [] = _ := graduatedLoop_eq h 0 []
  rw [sub_zero,zero_add,List.nil_append,graduatedTax_perm (perm_sortBrackets rule.ratesHistory)] at hloop
  simp only [graduatedResult,hmissing,hloop,toFixed_graduatedTax]

end

/-- Whatever the order of the rate rows, the result is the rate of each bracket on the
part of the base inside it, rounded bracket by bracket; the parts that were taxed make
up the base. -/
theorem computeGraduated_sums_brackets {s : Store} {ruleCode : String} {rule : TaxRule} {base : ℚ} (label : String)
    (periodStart periodEnd : DateTime) (hrule : activeRule s.taxEngine.taxRules ruleCode periodEnd = some rule)
    (hpart : Partitions rule.ratesHistory) (hbase : 0 ≤ base) :
    ∃ r applied, (computeGraduated ruleCode (some base) label periodStart periodEnd).run s = (.ok r,s) ∧
      r.result =
        some (rule.ratesHistory.map fun row => toFixed 2 ((bandOf row).portion base * row.rateValue)).sum ∧
      r.missingInputs = [] ∧
      r.breakdown = .graduated ruleCode rule.sourceReference base applied periodStart periodEnd ∧
      (applied.map (taxedPortion base)).sum = base ∧
      ∀ (t : Store) (rule' : TaxRule), activeRule t.taxEngine.taxRules ruleCode periodEnd = some rule' →
        rule'.ratesHistory.Perm rule.ratesHistory →
          ∃ r', (computeGraduated ruleCode (some base) label periodStart periodEnd).run t = (.ok r',t) ∧
            r'.result = r.result := by
  have hrun (t : Store) (rule' : TaxRule) (h : activeRule t.taxEngine.taxRules ruleCode periodEnd = some rule') :
      (computeGraduated ruleCode (some base) label periodStart periodEnd).run t =
        (.ok (graduatedResult (some rule') ruleCode (some base) label periodStart periodEnd),t) := by
    rw [← h]
    rfl
  refine ⟨_,(reached base (sortBrackets rule.ratesHistory)).map (appliedBracket base),hrun s rule hrule,?_⟩
  rw [graduatedResult_of_partitions hpart]
  refine ⟨rfl,rfl,rfl,?_,?_⟩
  · have hsum := hpart.sum_portion hbase
    rw [List.map_map,sub_zero] at hsum
    rw [sum_taxedPortion]
    exact hsum
  · intro t rule' h hperm
    refine ⟨_,hrun t rule' h,?_⟩
    rw [graduatedResult_of_partitions (hpart.of_perm hperm),graduatedTax_perm hperm]

/-- Three brackets, stored out of order, the first one without a lower bound. -/
def sampleRule : TaxRule where
  id := 1
  ruleCode := "INCOME_TAX_BRACKETS"
  effectiveFrom := 0
  ratesHistory :=
    [{ id := 3, rateValue := 1 / 5, bracketMin := some ⟨40000000⟩, effectiveFrom := 0 },
      { id := 1, rateValue := 0, bracketMax := some ⟨25000000⟩, effectiveFrom := 0 },
      { id := 2, rateValue := 3 / 20, bracketMin := some ⟨25000000⟩, bracketMax := some ⟨40000000⟩,
        effectiveFrom := 0 }]

def sampleStore : Store where
  taxEngine.taxRules := [sampleRule]

theorem computeGraduated_sums_brackets_sample :
    ∃ r applied, (computeGraduated "INCOME_TAX_BRACKETS" (some 500000) "base" 0 9).run sampleStore = (.ok r,sampleStore) ∧
      r.result =
        some (sampleRule.ratesHistory.map fun row => toFixed 2 ((bandOf row).portion 500000 * row.rateValue)).sum ∧
      r.missingInputs = [] ∧
      r.breakdown = .graduated "INCOME_TAX_BRACKETS" none 500000 applied 0 9 ∧
      (applied.map (taxedPortion 500000)).sum = 500000 ∧
      ∀ (t : Store) (rule' : TaxRule), activeRule t.taxEngine.taxRules "INCOME_TAX_BRACKETS" 9 = some rule' →
        rule'.ratesHistory.Perm sampleRule.ratesHistory →
          ∃ r', (computeGraduated "INCOME_TAX_BRACKETS" (some 500000) "base" 0 9).run t = (.ok r',t) ∧
            r'.result = r.result :=
  computeGraduated_sums_brackets "base" 0 9
    (show activeRule sampleStore.taxEngine.taxRules "INCOME_TAX_BRACKETS" 9 = some sampleRule by decide +kernel)
    (by decide +kernel) (by norm_num)

/-! ## What more income does to the tax -/

/-- The bracket in centavos. -/
def centavoBand (row : TaxRateHistory) : Band ℤ :=
  ⟨(row.bracketMin.map Money.centavos).getD 0,row.bracketMax.map Money.centavos⟩

/-- The portion of whole centavos is whole centavos. -/
theorem portion_toNumber (row : TaxRateHistory) (m : Money) :
    (bandOf row).portion m.toNumber = ((centavoBand row).portion m.centavos : ℤ) / 10 ^ 2 := by
  let pesos : ℤ →+ ℚ := (AddMonoidHom.mulRight ((10 ^ 2 : ℚ)⁻¹)).comp (Int.castAddHom ℚ)
  have hpesos (n : ℤ) : pesos n = n / 10 ^ 2 := (div_eq_mul_inv _ _).symm
  have hmono : Monotone pesos := by
    intro a b hab
    rw [hpesos,hpesos]
    have hcast : (a : ℚ) ≤ b := by exact_mod_cast hab
    gcongr
  have hband : bandOf row = (centavoBand row).map pesos := by
    rcases row with ⟨id,rateValue,bracketMin,bracketMax,effectiveFrom,effectiveTo⟩
    have hmoney : pesos ∘ Money.centavos = Money.toNumber := funext fun m => hpesos m.centavos
    simp only [bandOf,centavoBand,Band.map,Option.map_map,hmoney]
    congr 1
    cases bracketMin with
    | none => exact (map_zero pesos).symm
    | some m => exact (hpesos m.centavos).symm
  rw [hband,← hpesos,← Band.portion_map hmono,hpesos]
  rfl

section
variable {rows : List TaxRateHistory} {b₁ b₂ : Money}

/-- In one bracket: more income is taxed no less, and no more than the extra portion. -/
theorem bracketTax_sub (row : TaxRateHistory) (h0 : 0 ≤ row.rateValue) (h1 : row.rateValue ≤ 1)
    (h : b₁.centavos ≤ b₂.centavos) :
    bracketTax b₁.toNumber row ≤ bracketTax b₂.toNumber row ∧
      bracketTax b₂.toNumber row - bracketTax b₁.toNumber row ≤
        (bandOf row).portion b₂.toNumber - (bandOf row).portion b₁.toNumber := by
  have hportion : (bandOf row).portion b₁.toNumber ≤ (bandOf row).portion b₂.toNumber :=
    Band.portion_mono _ (Money.toNumber_le_iff.mpr h)
  have hnonneg : 0 ≤ (bandOf row).portion b₁.toNumber := Band.portion_nonneg _ _
  constructor
  · exact toFixed_mono 2 (mul_nonneg hnonneg h0) (mul_le_mul_of_nonneg_right hportion h0)
  · refine toFixed_mul_sub_le 2 (n := (centavoBand row).portion b₂.centavos - (centavoBand row).portion b₁.centavos)
      hnonneg (sub_nonneg.mpr (Band.portion_mono _ h)) ?_ h0 h1
    rw [portion_toNumber,portion_toNumber]
    push_cast
    ring

theorem graduatedTax_sub (h0 : ∀ row ∈ rows, 0 ≤ row.rateValue) (h1 : ∀ row ∈ rows, row.rateValue ≤ 1)
    (h : b₁.centavos ≤ b₂.centavos) :
    graduatedTax rows b₁.toNumber ≤ graduatedTax rows b₂.toNumber ∧
      graduatedTax rows b₂.toNumber - graduatedTax rows b₁.toNumber ≤
        (rows.map fun row => (bandOf row).portion b₂.toNumber).sum -
          (rows.map fun row => (bandOf row).portion b₁.toNumber).sum := by
  induction rows with
  | nil => simp [graduatedTax]
  | cons row rows ih =>
    obtain ⟨hlo,hhi⟩ := ih (fun r hr => h0 r (List.mem_cons_of_mem _ hr)) fun r hr => h1 r (List.mem_cons_of_mem _ hr)
    obtain ⟨hrlo,hrhi⟩ := bracketTax_sub row (h0 row List.mem_cons_self) (h1 row List.mem_cons_self) h
    simp only [graduatedTax,List.map_cons,List.sum_cons] at hlo hhi ⊢
    constructor <;> linarith

theorem sum_portion (h : Partitions rows) (base : ℚ) :
    (rows.map fun row => (bandOf row).portion base).sum = max base 0 := by
  have hsorted : (rows.map fun row => (bandOf row).portion base).sum =
      ((sortBrackets rows).map fun row => (bandOf row).portion base).sum :=
    ((perm_sortBrackets rows).map _).sum_eq.symm
  rcases le_total 0 base with hb | hb
  · have hall := h.sum_portion hb
    rw [List.map_map,sub_zero] at hall
    rw [hsorted,max_eq_left hb]
    exact hall
  · have hnone := h.sum_portion_eq_zero hb
    rw [List.map_map] at hnone
    rw [hsorted,max_eq_right hb]
    exact hnone

theorem graduatedTax_of_nonpos (h : Partitions rows) {base : ℚ} (hb : base ≤ 0) : graduatedTax rows base = 0 := by
  rw [← graduatedTax_perm (perm_sortBrackets rows)]
  exact graduatedTax_eq_zero h hb

theorem graduatedTax_nonneg (h0 : ∀ row ∈ rows, 0 ≤ row.rateValue) (base : ℚ) : 0 ≤ graduatedTax rows base := by
  apply List.sum_nonneg
  intro t ht
  obtain ⟨row,hrow,rfl⟩ := List.mem_map.mp ht
  exact toFixed_nonneg 2 (mul_nonneg (Band.portion_nonneg _ _) (h0 row hrow))

theorem graduatedTax_le (h : Partitions rows) (h0 : ∀ row ∈ rows, 0 ≤ row.rateValue)
    (h1 : ∀ row ∈ rows, row.rateValue ≤ 1) (b : Money) : graduatedTax rows b.toNumber ≤ max b.toNumber 0 := by
  let z : Money := ⟨min b.centavos 0⟩
  have hz : z.toNumber ≤ 0 := by
    have hle := Money.toNumber_le_iff.mpr (show z.centavos ≤ (Money.mk 0).centavos from min_le_right _ _)
    rwa [Money.toNumber,Money.toNumber,Int.cast_zero,zero_div] at hle
  have hzb : z.centavos ≤ b.centavos := min_le_left _ _
  obtain ⟨-,hhi⟩ := graduatedTax_sub h0 h1 hzb
  rwa [graduatedTax_of_nonpos h hz,sum_portion h,sum_portion h,max_eq_right hz,sub_zero,sub_zero] at hhi

/-- A bound on all rates bounds the tax; rounding at most doubles a term. -/
theorem graduatedTax_le_two_mul (h : Partitions rows) {base top : ℚ} (h0 : ∀ row ∈ rows, 0 ≤ row.rateValue)
    (htop : ∀ row ∈ rows, row.rateValue ≤ top) (hb : 0 ≤ base) : graduatedTax rows base ≤ 2 * top * base := by
  have hterms : graduatedTax rows base ≤ (rows.map fun row => 2 * top * (bandOf row).portion base).sum := by
    apply List.sum_le_sum
    intro row hrow
    have hportion := Band.portion_nonneg (bandOf row) base
    calc bracketTax base row ≤ 2 * ((bandOf row).portion base * row.rateValue) :=
          toFixed_le_two_mul 2 (mul_nonneg hportion (h0 row hrow))
      _ ≤ 2 * ((bandOf row).portion base * top) := by gcongr; exact htop row hrow
      _ = 2 * top * (bandOf row).portion base := by ring
  rwa [List.sum_map_mul_left,sum_portion h,max_eq_left hb] at hterms

end

/-- The result of a graduated computation, if it has one. -/
def taxAt (s : Store) (ruleCode label : String) (periodStart periodEnd : DateTime) (base : Money) : Option ℚ :=
  ((computeGraduated ruleCode (some base.toNumber) label periodStart periodEnd).run s).1.toOption.bind EngineResult.result

theorem taxAt_eq {s : Store} {ruleCode : String} {rule : TaxRule} (label : String) (periodStart : DateTime)
    {periodEnd : DateTime} (hrule : activeRule s.taxEngine.taxRules ruleCode periodEnd = some rule)
    (hpart : Partitions rule.ratesHistory) (base : Money) :
    taxAt s ruleCode label periodStart periodEnd base = some (graduatedTax rule.ratesHistory base.toNumber) := by
  have hrun : (computeGraduated ruleCode (some base.toNumber) label periodStart periodEnd).run s =
      (.ok (graduatedResult (some rule) ruleCode (some base.toNumber) label periodStart periodEnd),s) := by
    rw [← hrule]
    rfl
  rw [taxAt,hrun,graduatedResult_of_partitions hpart]
  rfl

/-- More income is taxed no less and no more than the extra income, rounding included;
the tax lies between nothing and the whole income. -/
theorem graduated_tax_grows_with_income {s : Store} {ruleCode : String} {rule : TaxRule} (label : String)
    (periodStart : DateTime) {periodEnd : DateTime}
    (hrule : activeRule s.taxEngine.taxRules ruleCode periodEnd = some rule) (hpart : Partitions rule.ratesHistory)
    (hrates : ∀ row ∈ rule.ratesHistory, 0 ≤ row.rateValue ∧ row.rateValue ≤ 1) {b₁ b₂ : Money}
    (h : b₁.centavos ≤ b₂.centavos) :
    ∃ t₁ t₂, taxAt s ruleCode label periodStart periodEnd b₁ = some t₁ ∧
      taxAt s ruleCode label periodStart periodEnd b₂ = some t₂ ∧
      0 ≤ t₂ - t₁ ∧ t₂ - t₁ ≤ b₂.toNumber - b₁.toNumber ∧ 0 ≤ t₁ ∧ t₁ ≤ max b₁.toNumber 0 := by
  have h0 : ∀ row ∈ rule.ratesHistory, 0 ≤ row.rateValue := fun row hrow => (hrates row hrow).1
  have h1 : ∀ row ∈ rule.ratesHistory, row.rateValue ≤ 1 := fun row hrow => (hrates row hrow).2
  obtain ⟨hlo,hhi⟩ := graduatedTax_sub h0 h1 h
  refine ⟨_,_,taxAt_eq label periodStart hrule hpart b₁,taxAt_eq label periodStart hrule hpart b₂,
    sub_nonneg.mpr hlo,?_,graduatedTax_nonneg h0 _,graduatedTax_le hpart h0 h1 b₁⟩
  rw [sum_portion hpart,sum_portion hpart] at hhi
  have hmono := Money.toNumber_le_iff.mpr h
  have hmax : max b₂.toNumber 0 - max b₁.toNumber 0 ≤ b₂.toNumber - b₁.toNumber := by
    rcases le_total 0 b₁.toNumber with hb | hb
    · rw [max_eq_left hb,max_eq_left (hb.trans hmono)]
    · rw [max_eq_right hb,sub_zero]
      exact max_le (by linarith) (by linarith)
  exact hhi.trans hmax

theorem graduated_tax_grows_with_income_sample :
    ∃ t₁ t₂, taxAt sampleStore "INCOME_TAX_BRACKETS" "base" 0 9 ⟨25000003⟩ = some t₁ ∧
      taxAt sampleStore "INCOME_TAX_BRACKETS" "base" 0 9 ⟨50000000⟩ = some t₂ ∧
      0 ≤ t₂ - t₁ ∧ t₂ - t₁ ≤ (Money.mk 50000000).toNumber - (Money.mk 25000003).toNumber ∧ 0 ≤ t₁ ∧
      t₁ ≤ max (Money.mk 25000003).toNumber 0 :=
  graduated_tax_grows_with_income "base" 0
    (show activeRule sampleStore.taxEngine.taxRules "INCOME_TAX_BRACKETS" 9 = some sampleRule by decide +kernel)
    (by decide +kernel) (by decide +kernel) (by decide)

end PinoyTax.TaxEngine
