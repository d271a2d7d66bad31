import Mathlib.Algebra.Order.Floor.Ring
import Mathlib.Data.Rat.Floor
import Mathlib.Tactic.FieldSimp
import Mathlib.Tactic.GCongr
import Mathlib.Tactic.Linarith
import Mathlib.Tactic.Ring

/-! # Decimal rounding on exact amounts

Amounts are exact rationals. Rounding to `d` decimals goes to the nearest multiple
of `10 ^ -d`, a tie going away from zero, which is the rounding of `toFixed` and of
a fixed-point column alike.
-/
namespace PinoyTax.Foundation

/-- The amount in units of `10 ^ -d`. -/
def roundUnits (d : ℕ) (x : ℚ) : ℤ :=
  if x < 0 then -⌊-x * 10 ^ d + 1 / 2⌋ else ⌊x * 10 ^ d + 1 / 2⌋

def toFixed (d : ℕ) (x : ℚ) : ℚ := roundUnits d x / 10 ^ d

theorem floor_add_half (n : ℤ) : ⌊(n : ℚ) + 1 / 2⌋ = n := by
  rw [Int.floor_eq_iff]
  constructor <;> norm_num

/-- A whole number of units is already rounded. -/
@[simp] theorem roundUnits_intCast_div (d : ℕ) (n : ℤ) : roundUnits d ((n : ℚ) / 10 ^ d) = n := by
  have hd : (10 : ℚ) ^ d ≠ 0 := by positivity
  unfold roundUnits
  split
  · have h : -((n : ℚ) / 10 ^ d) * 10 ^ d = ((-n : ℤ) : ℚ) := by
      rw [neg_mul,div_mul_cancel₀ _ hd]
      push_cast
      rfl
    rw [h,floor_add_half,neg_neg]
  · rw [div_mul_cancel₀ _ hd,floor_add_half]

@[simp] theorem roundUnits_toFixed (d : ℕ) (x : ℚ) : roundUnits d (toFixed d x) = roundUnits d x :=
  roundUnits_intCast_div d _

theorem roundUnits_of_nonneg (d : ℕ) {x : ℚ} (hx : 0 ≤ x) : roundUnits d x = ⌊x * 10 ^ d + 1 / 2⌋ :=
  if_neg hx.not_gt

@[simp] theorem toFixed_zero (d : ℕ) : toFixed d 0 = 0 := by
  have h := roundUnits_intCast_div d 0
  simp only [Int.cast_zero,zero_div] at h
  simp [toFixed,h]

/-- A sum of rounded amounts is rounded. -/
theorem toFixed_sum_toFixed {β : Type*} (d : ℕ) (f : β → ℚ) (l : List β) :
    toFixed d (l.map fun b => toFixed d (f b)).sum = (l.map fun b => toFixed d (f b)).sum := by
  have hsum : (l.map fun b => toFixed d (f b)).sum = ((l.map fun b => roundUnits d (f b)).sum : ℤ) / 10 ^ d := by
    induction l with
    | nil => simp
    | cons b l ih =>
      simp only [List.map_cons,List.sum_cons,ih,Int.cast_add,add_div]
      rfl
  rw [hsum,toFixed,roundUnits_intCast_div]

theorem toFixed_mono (d : ℕ) {x y : ℚ} (hx : 0 ≤ x) (h : x ≤ y) : toFixed d x ≤ toFixed d y := by
  have hd : (0 : ℚ) < 10 ^ d := by positivity
  rw [toFixed,toFixed,roundUnits_of_nonneg d hx,roundUnits_of_nonneg d (hx.trans h)]
  have hfloor : ⌊x * 10 ^ d + 1 / 2⌋ ≤ ⌊y * 10 ^ d + 1 / 2⌋ := by
    apply Int.floor_le_floor
    gcongr
  gcongr

theorem toFixed_nonneg (d : ℕ) {x : ℚ} (hx : 0 ≤ x) : 0 ≤ toFixed d x := by
  have h := toFixed_mono d le_rfl hx
  rwa [toFixed_zero] at h

/-- Rounding never more than doubles: what it lifts to a unit was half a unit. -/
theorem toFixed_le_two_mul (d : ℕ) {x : ℚ} (hx : 0 ≤ x) : toFixed d x ≤ 2 * x := by
  have hd : (0 : ℚ) < 10 ^ d := by positivity
  have hxd : 0 ≤ x * 10 ^ d := mul_nonneg hx hd.le
  rw [toFixed,roundUnits_of_nonneg d hx,div_le_iff₀ hd]
  rcases lt_or_ge (x * 10 ^ d) (1 / 2) with hlt | hge
  · have hzero : ⌊x * 10 ^ d + 1 / 2⌋ = 0 := by
      rw [Int.floor_eq_iff]
      constructor <;> push_cast <;> linarith
    rw [hzero,Int.cast_zero,mul_assoc]
    linarith
  · have hle := Int.floor_le (x * 10 ^ d + 1 / 2)
    linarith

/-- Between two amounts whole units apart, a rate of at most one gains no more than
their distance, rounding included. -/
theorem toFixed_mul_sub_le (d : ℕ) {x y rate : ℚ} {n : ℤ} (hx : 0 ≤ x) (hn : 0 ≤ n) (hy : y = x + n / 10 ^ d)
    (h0 : 0 ≤ rate) (h1 : rate ≤ 1) : toFixed d (y * rate) - toFixed d (x * rate) ≤ y - x := by
  have hd : (0 : ℚ) < 10 ^ d := by positivity
  have hn' : (0 : ℚ) ≤ n := by exact_mod_cast hn
  have hxy : 0 ≤ y := by rw [hy]; positivity
  rw [toFixed,toFixed,roundUnits_of_nonneg d (mul_nonneg hx h0),roundUnits_of_nonneg d (mul_nonneg hxy h0)]
  have hstep : y * rate * 10 ^ d + 1 / 2 ≤ x * rate * 10 ^ d + 1 / 2 + n := by
    have hcancel : (n : ℚ) / 10 ^ d * rate * 10 ^ d = n * rate := by
      field_simp
    have hle : (n : ℚ) * rate ≤ n := mul_le_of_le_one_right hn' h1
    rw [hy,add_mul,add_mul,hcancel]
    linarith
  have hfloor : ⌊y * rate * 10 ^ d + 1 / 2⌋ ≤ ⌊x * rate * 10 ^ d + 1 / 2⌋ + n := by
    rw [← Int.floor_add_intCast]
    exact Int.floor_le_floor hstep
  have hcast : (⌊y * rate * 10 ^ d + 1 / 2⌋ : ℚ) ≤ ⌊x * rate * 10 ^ d + 1 / 2⌋ + n := by exact_mod_cast hfloor
  have hdist : y - x = n / 10 ^ d := by rw [hy,add_sub_cancel_left]
  rw [← sub_div,hdist]
  gcongr
  linarith

/-- Whole units stay outside. -/
theorem toFixed_add_units (d n : ℕ) {x : ℚ} (hx : 0 ≤ x) :
    toFixed d ((n : ℚ) / 10 ^ d + x) = (n : ℚ) / 10 ^ d + toFixed d x := by
  have hd : (10 : ℚ) ^ d ≠ 0 := by positivity
  have hsum : 0 ≤ (n : ℚ) / 10 ^ d + x := add_nonneg (by positivity) hx
  have hunits : ((n : ℚ) / 10 ^ d + x) * 10 ^ d + 1 / 2 = x * 10 ^ d + 1 / 2 + (n : ℤ) := by
    rw [add_mul,div_mul_cancel₀ _ hd,Int.cast_natCast]
    ring
  rw [toFixed,toFixed,roundUnits_of_nonneg d hsum,roundUnits_of_nonneg d hx,hunits,Int.floor_add_intCast,Int.cast_add,
    Int.cast_natCast,add_comm,add_div]

/-- Between two amounts rounding gains less than a unit. -/
theorem toFixed_sub_lt (d : ℕ) {x y : ℚ} (hx : 0 ≤ x) (h : x ≤ y) :
    toFixed d y - toFixed d x < y - x + 1 / 10 ^ d := by
  have hd : (0 : ℚ) < 10 ^ d := by positivity
  have hupper := Int.floor_le (y * 10 ^ d + 1 / 2)
  have hlower := Int.lt_floor_add_one (x * 10 ^ d + 1 / 2)
  have hunits : (y - x + 1 / 10 ^ d) * 10 ^ d = y * 10 ^ d - x * 10 ^ d + 1 := by
    rw [add_mul,sub_mul,div_mul_cancel₀ _ hd.ne']
  rw [toFixed,toFixed,roundUnits_of_nonneg d hx,roundUnits_of_nonneg d (hx.trans h),← sub_div,div_lt_iff₀ hd,hunits]
  linarith

/-! ## Next to a tie -/

theorem toFixed_eq_iff (d : ℕ) {x y : ℚ} (hx : 0 ≤ x) (hy : 0 ≤ y) :
    toFixed d x = toFixed d y ↔ ⌊x * 10 ^ d + 1 / 2⌋ = ⌊y * 10 ^ d + 1 / 2⌋ := by
  have hd : (10 : ℚ) ^ d ≠ 0 := by positivity
  rw [toFixed,toFixed,roundUnits_of_nonneg d hx,roundUnits_of_nonneg d hy,div_left_inj' hd,Int.cast_inj]

/-- A number close to another one is rounded as that is, unless the other is a tie and the number is
below it. Close means closer than the other is to a tie. -/
theorem floor_add_half_eq_iff {y z ε : ℚ} (hε : ε ≤ 1 / 2) (hy : Int.fract y = 1 / 2 ∨ ε ≤ |Int.fract y - 1 / 2|)
    (hz : |z - y| < ε) : ⌊z + 1 / 2⌋ = ⌊y + 1 / 2⌋ ↔ ¬ (Int.fract y = 1 / 2 ∧ z < y) := by
  obtain ⟨hlower,hupper⟩ := abs_lt.mp hz
  have hsplit := Int.floor_add_fract y
  by_cases htie : Int.fract y = 1 / 2
  · have hround : ⌊y + 1 / 2⌋ = ⌊y⌋ + 1 := by
      rw [Int.floor_eq_iff]
      push_cast
      constructor <;> linarith
    rw [hround,and_iff_right htie,not_lt,Int.floor_eq_iff]
    push_cast
    constructor
    · rintro ⟨hle,-⟩
      linarith
    · intro hle
      constructor <;> linarith
  · refine iff_of_true ?_ fun h => htie h.1
    have hdistance := hy.resolve_left htie
    rcases le_abs.mp hdistance with habove | hbelow
    · have hfract := Int.fract_lt_one y
      have hround : ⌊y + 1 / 2⌋ = ⌊y⌋ + 1 := by
        rw [Int.floor_eq_iff]
        push_cast
        constructor <;> linarith
      rw [hround,Int.floor_eq_iff]
      push_cast
      constructor <;> linarith
    · have hfract := Int.fract_nonneg y
      have hround : ⌊y + 1 / 2⌋ = ⌊y⌋ := by
        rw [Int.floor_eq_iff]
        constructor <;> linarith
      rw [hround,Int.floor_eq_iff]
      constructor <;> linarith

/-- Fractions with a denominator keep a distance from ties. -/
theorem le_abs_fract_sub_half (m : ℤ) {n : ℕ} (hn : 0 < n) (h : Int.fract ((m : ℚ) / n) ≠ 1 / 2) :
    1 / (2 * n) ≤ |Int.fract ((m : ℚ) / n) - 1 / 2| := by
  have hn' : (0 : ℚ) < n := by exact_mod_cast hn
  have hscaled : Int.fract ((m : ℚ) / n) - 1 / 2 = ((2 * m - 2 * n * ⌊(m : ℚ) / n⌋ - n : ℤ) : ℚ) / (2 * n) := by
    rw [← Int.self_sub_floor]
    push_cast
    field_simp
  have hne : 2 * m - 2 * n * ⌊(m : ℚ) / n⌋ - n ≠ 0 := by
    intro hzero
    rw [hzero,Int.cast_zero,zero_div,sub_eq_zero] at hscaled
    exact h hscaled
  have hone : (1 : ℚ) ≤ |((2 * m - 2 * n * ⌊(m : ℚ) / n⌋ - n : ℤ) : ℚ)| := by exact_mod_cast Int.one_le_abs hne
  rw [hscaled,abs_div,abs_of_pos (by positivity : (0 : ℚ) < 2 * n)]
  gcongr

/-! ## Texts -/

/-- Commas between groups of three digits, from the last digit on. -/
def groupDigits : List Char → List Char
  | a :: b :: c :: d :: rest => a :: b :: c :: ',' :: groupDigits (d :: rest)
  | digits => digits

/-- The three decimals of an amount in thousandths, without trailing zeros. -/
def decimalsText (thousandths : ℕ) : List Char :=
  let digits := (toString thousandths).toList
  ((List.replicate (3 - digits.length) '0' ++ digits).reverse.dropWhile (· == '0')).reverse

/-- `toLocaleString` in the en-US locale: grouped, with three decimals at most. -/
def toLocaleString (x : ℚ) : String :=
  let thousandths := (roundUnits 3 x).natAbs
  let whole := (groupDigits (toString (thousandths / 1000)).toList.reverse).reverse
  let decimals := decimalsText (thousandths % 1000)
  String.ofList ((if x < 0 then ['-'] else []) ++ whole ++ (if decimals = [] then [] else '.' :: decimals))

example : toLocaleString 3150000 = "3,150,000" := by decide +kernel
example : toLocaleString (-24691 / 20) = "-1,234.55" := by decide +kernel

end PinoyTax.Foundation
