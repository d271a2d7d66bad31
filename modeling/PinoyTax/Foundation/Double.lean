import PinoyTax.Foundation.Decimal
import Mathlib.Data.Int.Log
import Mathlib.Data.Rat.Cast.Order
import Mathlib.Tactic.Positivity

/-! # Binary numbers of 53 digits

JavaScript computes with doubles: each operation yields the double nearest to its exact
result, a tie going to the even significand. The exponents are not bounded here, which
makes no difference to counts, percentages and amounts of money.
-/
namespace PinoyTax.Foundation.Double

/-! ## The nearest double -/

/-- The distance of the doubles around the number. -/
def ulp (x : ℚ) : ℚ := 2 ^ (Int.log 2 |x| - 52)

/-- The nearest integer, a tie going to the even one. -/
def roundEven (x : ℚ) : ℤ :=
  if Int.fract x = 1 / 2 then if ⌊x⌋ % 2 = 0 then ⌊x⌋ else ⌊x⌋ + 1 else ⌊x + 1 / 2⌋

def nearest (x : ℚ) : ℚ := roundEven (x / ulp x) * ulp x

def add (x y : ℚ) : ℚ := nearest (x + y)
def mul (x y : ℚ) : ℚ := nearest (x * y)
def div (x y : ℚ) : ℚ := nearest (x / y)

/-- `reduce((sum, x) => sum + x, 0)`. -/
def sum (l : List ℚ) : ℚ := l.foldl add 0

/-- `Math.round`, a tie going up. -/
def round (x : ℚ) : ℤ := ⌊x + 1 / 2⌋

/-- The integers with 53 digits, in some unit. -/
def IsDouble (x : ℚ) : Prop := ∃ (k e : ℤ), |k| ≤ 2 ^ 53 ∧ x = k * 2 ^ e

section
variable {x : ℚ}

theorem abs_floor_add_half_sub_le (x : ℚ) : |(⌊x + 1 / 2⌋ : ℚ) - x| ≤ 1 / 2 := by
  have hlower := Int.floor_le (x + 1 / 2)
  have hupper := Int.lt_floor_add_one (x + 1 / 2)
  rw [abs_le]
  constructor <;> linarith

theorem abs_roundEven_sub_le (x : ℚ) : |(roundEven x : ℚ) - x| ≤ 1 / 2 := by
  unfold roundEven
  split
  · rename_i htie
    have hx : (⌊x⌋ : ℚ) + 1 / 2 = x := by rw [← htie,Int.floor_add_fract]
    split
    · rw [abs_le]
      constructor <;> linarith
    · push_cast
      rw [abs_le]
      constructor <;> linarith
  · exact abs_floor_add_half_sub_le x

@[simp] theorem roundEven_intCast (n : ℤ) : roundEven n = n := by
  rw [roundEven,Int.fract_intCast,if_neg (by norm_num),floor_add_half]

theorem roundEven_nonneg (hx : 0 ≤ x) : 0 ≤ roundEven x := by
  have hclose := (abs_le.mp (abs_roundEven_sub_le x)).1
  have hnear : (-1 : ℚ) < roundEven x := by linarith
  have hcast : (-1 : ℤ) < roundEven x := by exact_mod_cast hnear
  omega

theorem ulp_pos (x : ℚ) : 0 < ulp x := zpow_pos two_pos _

/-- A number has its leading digit in the last of 53 places at least. -/
theorem ulp_mul_le (hx : x ≠ 0) : ulp x * 2 ^ 52 ≤ |x| := by
  have hlog := Int.zpow_log_le_self (b := 2) one_lt_two (abs_pos.mpr hx)
  calc ulp x * 2 ^ 52 = 2 ^ Int.log 2 |x| := by
        rw [ulp,← zpow_natCast,← zpow_add₀ two_ne_zero]
        congr 1
        push_cast
        ring
    _ ≤ |x| := by exact_mod_cast hlog

theorem lt_ulp_mul (x : ℚ) : |x| < ulp x * 2 ^ 53 := by
  have hlog := Int.lt_zpow_succ_log_self (b := 2) one_lt_two |x|
  calc |x| < 2 ^ (Int.log 2 |x| + 1) := by exact_mod_cast hlog
    _ = ulp x * 2 ^ 53 := by
        rw [ulp,← zpow_natCast,← zpow_add₀ two_ne_zero]
        congr 1
        push_cast
        ring

theorem abs_nearest_sub_le_ulp (x : ℚ) : |nearest x - x| ≤ ulp x / 2 := by
  have hu := ulp_pos x
  have hscaled : nearest x - x = (roundEven (x / ulp x) - x / ulp x) * ulp x := by
    rw [sub_mul,div_mul_cancel₀ _ hu.ne']
    rfl
  have hround := abs_roundEven_sub_le (x / ulp x)
  rw [hscaled,abs_mul,abs_of_pos hu]
  calc |(roundEven (x / ulp x) : ℚ) - x / ulp x| * ulp x ≤ 1 / 2 * ulp x := by gcongr
    _ = ulp x / 2 := by ring

@[simp] theorem nearest_zero : nearest 0 = 0 := by
  have hround : roundEven 0 = 0 := by exact_mod_cast roundEven_intCast 0
  rw [nearest,zero_div,hround,Int.cast_zero,zero_mul]

/-- Rounding changes a number by a part in 2 ^ 53. -/
theorem abs_nearest_sub_le (x : ℚ) : |nearest x - x| ≤ |x| / 2 ^ 53 := by
  rcases eq_or_ne x 0 with rfl | hx
  · simp
  · have hulp := ulp_mul_le hx
    refine (abs_nearest_sub_le_ulp x).trans ?_
    rw [div_le_div_iff₀ two_pos (by positivity)]
    linarith

theorem nearest_nonneg (hx : 0 ≤ x) : 0 ≤ nearest x :=
  mul_nonneg (by exact_mod_cast roundEven_nonneg (div_nonneg hx (ulp_pos x).le)) (ulp_pos x).le

/-- A product of a rounded number is rounded twice. -/
theorem abs_mul_nearest_sub_le (x y : ℚ) : |mul (nearest x) y - x * y| ≤ |x * y| / 2 ^ 51 := by
  have hx := abs_nearest_sub_le x
  have hproduct := abs_nearest_sub_le (nearest x * y)
  have hfactor : |nearest x * y - x * y| ≤ |x * y| / 2 ^ 53 := by
    rw [← sub_mul,abs_mul,abs_mul x y,← div_mul_eq_mul_div]
    gcongr
  have hsize : |nearest x * y| ≤ |x * y| + |x * y| / 2 ^ 53 := by
    have htriangle := abs_sub_abs_le_abs_sub (nearest x * y) (x * y)
    linarith
  have hsum := abs_sub_le (mul (nearest x) y) (nearest x * y) (x * y)
  have hnonneg := abs_nonneg (x * y)
  rw [mul] at hsum ⊢
  linarith

/-! ## Doubles stay as they are -/

theorem isDouble_nearest (x : ℚ) : IsDouble (nearest x) := by
  refine ⟨roundEven (x / ulp x),Int.log 2 |x| - 52,?_,rfl⟩
  have hu := ulp_pos x
  have hclose := abs_roundEven_sub_le (x / ulp x)
  have hsize : |x / ulp x| < 2 ^ 53 := by
    rw [abs_div,abs_of_pos hu,div_lt_iff₀ hu,mul_comm]
    exact lt_ulp_mul x
  have htriangle := abs_sub_abs_le_abs_sub (roundEven (x / ulp x) : ℚ) (x / ulp x)
  have hbound : (|roundEven (x / ulp x)| : ℚ) < 2 ^ 53 + 1 := by linarith
  have hcast : |roundEven (x / ulp x)| < 2 ^ 53 + 1 := by exact_mod_cast hbound
  omega

/-- A double is a whole multiple of its unit. -/
theorem exists_div_ulp_eq (h : IsDouble x) (hx : x ≠ 0) : ∃ n : ℤ, x / ulp x = n := by
  obtain ⟨k,e,hk,rfl⟩ := h
  have he : (0 : ℚ) < 2 ^ e := zpow_pos two_pos e
  have habs : |(k : ℚ) * 2 ^ e| = |(k : ℚ)| * 2 ^ e := by rw [abs_mul,abs_of_pos he]
  have hk' : |(k : ℚ)| ≤ 2 ^ 53 := by exact_mod_cast hk
  generalize hlog : Int.log 2 |(k : ℚ) * 2 ^ e| = m
  have hunits : (k : ℚ) * 2 ^ e / ulp (k * 2 ^ e) = k * 2 ^ (e - (m - 52)) := by
    rw [ulp,hlog,mul_div_assoc,← zpow_sub₀ two_ne_zero]
  have hlow := Int.zpow_log_le_self (b := 2) one_lt_two (abs_pos.mpr hx)
  rw [hlog,habs] at hlow
  push_cast at hlow
  rw [hunits]
  by_cases hm : m ≤ 52 + e
  · refine ⟨k * 2 ^ (e - (m - 52)).toNat,?_⟩
    push_cast
    rw [← zpow_natCast,Int.toNat_of_nonneg (by omega)]
  · -- Only a power of two fills all 53 digits and one more.
    have hsplit : (2 : ℚ) ^ m = 2 ^ (m - e) * 2 ^ e := by
      rw [← zpow_add₀ two_ne_zero,sub_add_cancel]
    have hpower : (2 : ℚ) ^ (m - e) ≤ 2 ^ (53 : ℤ) := by
      rw [hsplit] at hlow
      exact (le_of_mul_le_mul_right hlow he).trans hk'
    have hle : m - e ≤ 53 := (zpow_le_zpow_iff_right₀ one_lt_two).mp hpower
    obtain rfl : m = e + 53 := by omega
    have hfull : (2 : ℚ) ^ 53 ≤ |(k : ℚ)| := by
      rw [hsplit,add_sub_cancel_left] at hlow
      exact_mod_cast le_of_mul_le_mul_right hlow he
    have hexponent : e - (e + 53 - 52) = -1 := by ring
    rw [hexponent]
    rcases (abs_eq (by positivity)).mp (le_antisymm hk' hfull) with hpos | hneg
    · exact ⟨2 ^ 52,by rw [hpos]; norm_num⟩
    · exact ⟨-2 ^ 52,by rw [hneg]; norm_num⟩

theorem nearest_eq_self (h : IsDouble x) : nearest x = x := by
  rcases eq_or_ne x 0 with rfl | hx
  · exact nearest_zero
  · obtain ⟨n,hn⟩ := exists_div_ulp_eq h hx
    rw [nearest,hn,roundEven_intCast,← hn,div_mul_cancel₀ _ (ulp_pos x).ne']

@[simp] theorem nearest_nearest (x : ℚ) : nearest (nearest x) = nearest x := nearest_eq_self (isDouble_nearest x)

/-- There are doubles above every number. -/
theorem exists_lt_nearest (x : ℚ) : ∃ y, x < nearest y := by
  refine ⟨2 * |x| + 1,?_⟩
  have hclose := (abs_le.mp (abs_nearest_sub_le (2 * |x| + 1))).1
  rw [abs_of_nonneg (by positivity)] at hclose
  have hx := le_abs_self x
  have hpos := abs_nonneg x
  linarith

/-! ## Sums -/

@[simp] theorem sum_nil : sum [] = 0 := rfl

@[simp] theorem sum_singleton (x : ℚ) : sum [x] = nearest x := by
  rw [sum,List.foldl_cons,List.foldl_nil,add,zero_add]

theorem foldl_add_nonneg {l : List ℚ} (hl : ∀ y ∈ l, 0 ≤ y) {s : ℚ} (hs : 0 ≤ s) : 0 ≤ l.foldl add s := by
  induction l generalizing s with
  | nil => exact hs
  | cons y l ih =>
    rw [List.forall_mem_cons] at hl
    exact ih hl.2 (nearest_nonneg (add_nonneg hs hl.1))

theorem sum_nonneg {l : List ℚ} (hl : ∀ y ∈ l, 0 ≤ y) : 0 ≤ sum l := foldl_add_nonneg hl le_rfl

theorem sum_append_singleton (l : List ℚ) (y : ℚ) : sum (l ++ [y]) = add (sum l) y := by
  rw [sum,List.foldl_append]
  rfl

/-- The errors of a sum grow with the square of its length. -/
theorem abs_sum_nearest_sub_le {l : List ℚ} {bound : ℚ} (hl : ∀ y ∈ l, |y| ≤ bound) (hlength : l.length ≤ 2 ^ 32) :
    |sum (l.map nearest) - l.sum| ≤ 3 * l.length ^ 2 * bound / 2 ^ 53 ∧ |sum (l.map nearest)| ≤ 2 * l.length * bound := by
  induction l using List.reverseRecOn with
  | nil => simp
  | append_singleton l y ih =>
    rw [List.forall_mem_append] at hl
    have hy : |y| ≤ bound := hl.2 y (List.mem_singleton_self y)
    have hbound : 0 ≤ bound := (abs_nonneg y).trans hy
    rw [List.length_append,List.length_singleton] at hlength ⊢
    obtain ⟨herror,hsize⟩ := ih hl.1 (by omega)
    have hlength' : (l.length : ℚ) + 1 ≤ 2 ^ 32 := by exact_mod_cast hlength
    have hn : (0 : ℚ) ≤ l.length := Nat.cast_nonneg _
    rw [List.map_append,List.map_singleton,sum_append_singleton,List.sum_append,List.sum_singleton,add]
    push_cast
    generalize sum (l.map nearest) = s at herror hsize ⊢
    generalize (l.length : ℚ) = n at herror hsize hlength' hn ⊢
    have hread := (abs_nearest_sub_le y).trans (div_le_div_of_nonneg_right hy (by positivity : (0 : ℚ) ≤ 2 ^ 53))
    have hround := abs_nearest_sub_le (s + nearest y)
    have hread' : |nearest y| ≤ bound + bound / 2 ^ 53 := by
      have htriangle := abs_sub_abs_le_abs_sub (nearest y) y
      linarith
    have hsum : |s + nearest y| ≤ 2 * n * bound + bound + bound / 2 ^ 53 := by
      have htriangle := abs_add_le s (nearest y)
      linarith
    have hlinear : n * bound ≤ 2 ^ 32 * bound := by gcongr; linarith
    have hproduct : 0 ≤ n * bound := mul_nonneg hn hbound
    constructor
    · have htriangle := abs_sub_le (nearest (s + nearest y)) (s + nearest y) (l.sum + y)
      have hparts : |s + nearest y - (l.sum + y)| ≤ |s - l.sum| + |nearest y - y| := by
        rw [add_sub_add_comm]
        exact abs_add_le _ _
      have hsquare : 3 * (n + 1) ^ 2 * bound / 2 ^ 53 =
          3 * n ^ 2 * bound / 2 ^ 53 + (6 * (n * bound) + 3 * bound) / 2 ^ 53 := by ring
      rw [hsquare]
      linarith
    · have htriangle := abs_sub_abs_le_abs_sub (nearest (s + nearest y)) (s + nearest y)
      linarith

end
end PinoyTax.Foundation.Double
