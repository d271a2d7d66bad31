import PinoyTax.TaxEngine.Graduated

/-! # The tax before it is rounded

The engine rounds bracket by bracket. Where a bracket that is used up is taxed in whole
centavos, this is the same as rounding once at the end, and the rounded tax follows the
exact one to within a centavo.
-/
namespace PinoyTax.TaxEngine
open PinoyTax Foundation

def exactTax (rows : List TaxRateHistory) (base : ℚ) : ℚ :=
  (rows.map fun row => (bandOf row).portion base * row.rateValue).sum

/-- The tax on all of the bracket is whole centavos. -/
def WholeWhenFull (row : TaxRateHistory) : Prop :=
  ∀ m ∈ (bandOf row).hi, ∃ n : ℕ, (m - (bandOf row).lo) * row.rateValue = n / 10 ^ 2

section
variable {rows : List TaxRateHistory} {start base top x y : ℚ}

theorem exactTax_nonneg (h0 : ∀ row ∈ rows, 0 ≤ row.rateValue) (base : ℚ) : 0 ≤ exactTax rows base := by
  apply List.sum_nonneg
  intro t ht
  obtain ⟨row,hrow,rfl⟩ := List.mem_map.mp ht
  exact mul_nonneg (Band.portion_nonneg _ _) (h0 row hrow)

theorem exactTax_eq_zero (h : Gapless start (rows.map bandOf)) (hb : base ≤ start) : exactTax rows base = 0 := by
  apply List.sum_eq_zero
  intro t ht
  obtain ⟨row,hrow,rfl⟩ := List.mem_map.mp ht
  rw [h.portion_eq_zero hb (List.mem_map_of_mem hrow),zero_mul]

/-- What is used up of the brackets is rounded without loss. -/
theorem graduatedTax_eq_toFixed_of_gapless (h : Gapless start (rows.map bandOf)) (h0 : ∀ row ∈ rows, 0 ≤ row.rateValue)
    (hwhole : ∀ row ∈ rows, WholeWhenFull row) (base : ℚ) : graduatedTax rows base = toFixed 2 (exactTax rows base) := by
  induction rows generalizing start with
  | nil => exact h.elim
  | cons row rows ih =>
    have h0' : ∀ r ∈ rows, 0 ≤ r.rateValue := fun r hr => h0 r (List.mem_cons_of_mem _ hr)
    obtain ⟨hlo,hrest⟩ := h
    have hgraduated : graduatedTax (row :: rows) base = bracketTax base row + graduatedTax rows base := rfl
    have hexact : exactTax (row :: rows) base = (bandOf row).portion base * row.rateValue + exactTax rows base := rfl
    rw [hgraduated,hexact]
    cases hhi : (bandOf row).hi with
    | none =>
      rw [hhi] at hrest
      rw [List.map_eq_nil_iff.mp hrest]
      have hnil : graduatedTax [] base = 0 ∧ exactTax [] base = 0 := ⟨rfl,rfl⟩
      rw [hnil.1,hnil.2,add_zero,add_zero,bracketTax]
    | some m =>
      rw [hhi] at hrest
      obtain ⟨hlt,htiles⟩ := hrest
      rcases le_total base m with hbm | hmb
      · rw [graduatedTax_eq_zero htiles hbm,exactTax_eq_zero htiles hbm,add_zero,add_zero,bracketTax]
      · obtain ⟨n,hn⟩ := hwhole row List.mem_cons_self m hhi
        have hfull : (bandOf row).portion base * row.rateValue = n / 10 ^ 2 := by
          rw [Band.portion_of_hi_le hhi hmb (hlo.trans_le hlt.le),hn]
        have hround : toFixed 2 ((n : ℚ) / 10 ^ 2) = n / 10 ^ 2 := by
          have hunits := toFixed_add_units 2 n le_rfl
          rwa [add_zero,toFixed_zero,add_zero] at hunits
        rw [bracketTax,hfull,hround,toFixed_add_units 2 n (exactTax_nonneg h0' base),
          ih htiles h0' fun r hr => hwhole r (List.mem_cons_of_mem _ hr)]

theorem graduatedTax_eq_toFixed (h : Partitions rows) (h0 : ∀ row ∈ rows, 0 ≤ row.rateValue)
    (hwhole : ∀ row ∈ rows, WholeWhenFull row) (base : ℚ) : graduatedTax rows base = toFixed 2 (exactTax rows base) := by
  have hperm := perm_sortBrackets rows
  have hsorted := graduatedTax_eq_toFixed_of_gapless h (fun row hrow => h0 row (hperm.mem_iff.mp hrow))
    (fun row hrow => hwhole row (hperm.mem_iff.mp hrow)) base
  have hexact : exactTax (sortBrackets rows) base = exactTax rows base := (hperm.map _).sum_eq
  rwa [graduatedTax_perm hperm,hexact] at hsorted

/-- More income meets no more than the top rate. -/
theorem exactTax_sub_le (h : Partitions rows) (htop : ∀ row ∈ rows, row.rateValue ≤ top) (hx : 0 ≤ x) (hxy : x ≤ y) :
    exactTax rows y - exactTax rows x ≤ top * (y - x) := by
  have hterms : exactTax rows y - exactTax rows x ≤ top * ((rows.map fun row => (bandOf row).portion y).sum -
      (rows.map fun row => (bandOf row).portion x).sum) := by
    clear h
    induction rows with
    | nil => simp [exactTax]
    | cons row rows ih =>
      have hrest := ih fun r hr => htop r (List.mem_cons_of_mem _ hr)
      have hportion : (bandOf row).portion x ≤ (bandOf row).portion y := Band.portion_mono _ hxy
      have hrate : ((bandOf row).portion y - (bandOf row).portion x) * row.rateValue ≤
          ((bandOf row).portion y - (bandOf row).portion x) * top :=
        mul_le_mul_of_nonneg_left (htop row List.mem_cons_self) (sub_nonneg.mpr hportion)
      simp only [exactTax,List.map_cons,List.sum_cons] at hrest ⊢
      linarith
  rwa [sum_portion h,sum_portion h,max_eq_left hx,max_eq_left (hx.trans hxy)] at hterms

theorem exactTax_mono (h0 : ∀ row ∈ rows, 0 ≤ row.rateValue) (hxy : x ≤ y) : exactTax rows x ≤ exactTax rows y := by
  apply List.sum_le_sum
  intro row hrow
  exact mul_le_mul_of_nonneg_right (Band.portion_mono _ hxy) (h0 row hrow)

/-- The rounded tax rises by the top rate and less than a centavo at most. -/
theorem graduatedTax_sub_lt (h : Partitions rows) (h0 : ∀ row ∈ rows, 0 ≤ row.rateValue)
    (htop : ∀ row ∈ rows, row.rateValue ≤ top) (hwhole : ∀ row ∈ rows, WholeWhenFull row) (hx : 0 ≤ x) (hxy : x ≤ y) :
    graduatedTax rows y - graduatedTax rows x < top * (y - x) + 1 / 10 ^ 2 := by
  rw [graduatedTax_eq_toFixed h h0 hwhole,graduatedTax_eq_toFixed h h0 hwhole]
  have hround := toFixed_sub_lt 2 (exactTax_nonneg h0 x) (exactTax_mono h0 hxy)
  have hexact := exactTax_sub_le h htop hx hxy
  linarith

end
end PinoyTax.TaxEngine
