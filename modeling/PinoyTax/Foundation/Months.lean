import PinoyTax.Foundation.Calendar
import Mathlib.Data.Int.ConditionallyCompleteOrder
import Mathlib.Data.Int.SuccPred
import Mathlib.Order.Monotone.Basic

/-! # Months on the time line

Months are numbered from January of the year 0 on, so that a month is one integer and
a quarter is three of them. The first days of the months are strictly increasing, and
each day lies in exactly one month: the conversions to and from civil dates agree with
this line.
-/
namespace PinoyTax.Foundation.Calendar

/-! ## First days -/

/-- The days before a March year. -/
def daysToMarch (year : ℤ) : ℤ := year * 365 + year / 4 - year / 100 + year / 400

theorem daysToMarch_era (year : ℤ) : year / 400 * 146097 + daysToYear (year % 400) = daysToMarch year := by
  unfold daysToYear daysToMarch
  omega

theorem daysToMarch_succ (year : ℤ) :
    daysToMarch year + 365 ≤ daysToMarch (year + 1) ∧ daysToMarch (year + 1) ≤ daysToMarch year + 366 := by
  unfold daysToMarch
  omega

/-- The day number of the first day of a month, months counted from January of the year 0. -/
def firstOfMonth (index : ℤ) : ℤ := makeDay 0 index 1

theorem makeDay_eq (year month date : ℤ) :
    makeDay year month date = firstOfMonth (year * 12 + month) + (date - 1) := by
  have hyear : (year * 12 + month) / 12 = year + month / 12 := by omega
  have hmonth : (year * 12 + month) % 12 = month % 12 := by omega
  unfold firstOfMonth makeDay
  rw [hyear,hmonth,Int.zero_add]
  omega

theorem daysOfCivil_eq (c : Civil) : daysOfCivil c =
    (if c.month < 2 then daysToMarch (c.year - 1) + daysToMonth (c.month + 10)
      else daysToMarch c.year + daysToMonth (c.month - 2)) - 719468 + (c.date - 1) := by
  unfold daysOfCivil
  dsimp only
  split
  · rw [← daysToMarch_era]
    omega
  · rw [← daysToMarch_era]
    omega

/-- Counted from March, a month lies in the year of its first day. -/
theorem firstOfMonth_eq (index : ℤ) :
    firstOfMonth index = daysToMarch ((index - 2) / 12) + daysToMonth ((index - 2) % 12) - 719468 := by
  unfold firstOfMonth makeDay
  rw [daysOfCivil_eq]
  dsimp only
  by_cases hearly : index % 12 < 2
  · have hyear : (index - 2) / 12 = 0 + index / 12 - 1 := by omega
    have hmonth : (index - 2) % 12 = index % 12 + 10 := by omega
    rw [if_pos hearly,hyear,hmonth]
    omega
  · have hyear : (index - 2) / 12 = 0 + index / 12 := by omega
    have hmonth : (index - 2) % 12 = index % 12 - 2 := by omega
    rw [if_neg hearly,hyear,hmonth]
    omega

/-- How long a month is: a February ends the year that began in March. -/
theorem firstOfMonth_succ_eq (index : ℤ) : firstOfMonth (index + 1) = firstOfMonth index +
    if (index - 2) % 12 = 11 then daysToMarch ((index - 2) / 12 + 1) - daysToMarch ((index - 2) / 12) - 337
    else daysToMonth ((index - 2) % 12 + 1) - daysToMonth ((index - 2) % 12) := by
  rw [firstOfMonth_eq,firstOfMonth_eq]
  split
  · rename_i hlast
    have hyear : (index + 1 - 2) / 12 = (index - 2) / 12 + 1 := by omega
    have hmonth : (index + 1 - 2) % 12 = 0 := by omega
    have hfeb : daysToMonth 11 = 337 := rfl
    have hmarch : daysToMonth 0 = 0 := rfl
    rw [hyear,hmonth,hlast,hfeb,hmarch]
    omega
  · have hyear : (index + 1 - 2) / 12 = (index - 2) / 12 := by omega
    have hmonth : (index + 1 - 2) % 12 = (index - 2) % 12 + 1 := by omega
    rw [hyear,hmonth]
    omega

theorem firstOfMonth_succ (index : ℤ) :
    firstOfMonth index + 28 ≤ firstOfMonth (index + 1) ∧ firstOfMonth (index + 1) ≤ firstOfMonth index + 31 := by
  rw [firstOfMonth_succ_eq]
  split
  · obtain ⟨hmin,hmax⟩ := daysToMarch_succ ((index - 2) / 12)
    omega
  · generalize (index - 2) % 12 = month
    unfold daysToMonth
    omega

/-- Only February has less than thirty days. -/
theorem thirty_days_iff (index : ℤ) : firstOfMonth index + 30 ≤ firstOfMonth (index + 1) ↔ index % 12 ≠ 1 := by
  rw [firstOfMonth_succ_eq]
  split
  · have hmax := (daysToMarch_succ ((index - 2) / 12)).2
    omega
  · rename_i hother
    have hnot : index % 12 ≠ 1 := by omega
    unfold daysToMonth
    omega

theorem strictMono_firstOfMonth : StrictMono firstOfMonth := by
  apply strictMono_int_of_lt_succ
  intro index
  have hsucc := (firstOfMonth_succ index).1
  omega

theorem firstOfMonth_lt_iff {i j : ℤ} : firstOfMonth i < firstOfMonth j ↔ i < j :=
  strictMono_firstOfMonth.lt_iff_lt

theorem firstOfMonth_inj {i j : ℤ} : firstOfMonth i = firstOfMonth j ↔ i = j :=
  strictMono_firstOfMonth.injective.eq_iff

/-! ## The month of a day -/

/-- A day of the era comes before the year after its own. -/
theorem splitEra_lt (dayOfEra : ℤ) (h0 : 0 ≤ dayOfEra) (h1 : dayOfEra < 146097) :
    dayOfEra < daysToMarch ((splitEra dayOfEra).1 + 1) := by
  obtain ⟨century,cycle,year,dayOfYear,hsplit,hday,hcentury,hcycle,hyear,hdays,hlast,hrest⟩ := splitEra_eq dayOfEra h0 h1
  have hquarter : (century * 100 + cycle * 4 + year + 1) / 4 = century * 25 + cycle + (year + 1) / 4 := by omega
  have hhundred : (century * 100 + cycle * 4 + year + 1) / 100 = century + (cycle * 4 + year + 1) / 100 := by omega
  have hera : (century * 100 + cycle * 4 + year + 1) / 400 = (century + (cycle * 4 + year + 1) / 100) / 4 := by omega
  rw [hsplit,daysToMarch]
  dsimp only
  rw [hquarter,hhundred,hera]
  rcases hlast with hearly | rfl
  · have hleap : (cycle * 4 + year + 1) / 100 ≤ (year + 1) / 4 := by
      clear hday hrest hquarter hhundred hera
      omega
    generalize (cycle * 4 + year + 1) / 100 = passed at *
    generalize (year + 1) / 4 = leap at *
    have hnone : 0 ≤ (century + passed) / 4 := by omega
    omega
  · by_cases hend : cycle = 24
    · subst hend
      omega
    · have hnone : (cycle * 4 + 3 + 1) / 100 = 0 := by omega
      omega

/-- The month that a day lies in. -/
def monthOf (days : ℤ) : ℤ := (civilOfDays days).year * 12 + (civilOfDays days).month

theorem monthOf_spec (days : ℤ) : firstOfMonth (monthOf days) ≤ days ∧ days < firstOfMonth (monthOf days + 1) := by
  obtain ⟨hsum,hy0,hy1,hd0,hd1⟩ := splitEra_spec ((days + 719468) % 146097) (by omega) (by omega)
  have hlt := splitEra_lt ((days + 719468) % 146097) (by omega) (by omega)
  have hmonth : monthOf days = ((days + 719468) / 146097 * 400 + (splitEra ((days + 719468) % 146097)).1) * 12 +
      (5 * (splitEra ((days + 719468) % 146097)).2 + 2) / 153 + 2 := by
    unfold monthOf civilOfDays civilOfEra
    dsimp only
    split <;> omega
  rw [hmonth,firstOfMonth_eq,firstOfMonth_eq]
  generalize splitEra ((days + 719468) % 146097) = split at *
  obtain ⟨yearOfEra,dayOfYear⟩ := split
  dsimp only at *
  generalize hera : (days + 719468) / 146097 = era at *
  generalize hday : (days + 719468) % 146097 = dayOfEra at *
  generalize hm : (5 * dayOfYear + 2) / 153 = month at *
  have hm0 : 0 ≤ month := by omega
  have hm1 : month < 12 := by omega
  have hyear : ((era * 400 + yearOfEra) * 12 + month + 2 - 2) / 12 = era * 400 + yearOfEra := by omega
  have hmod : ((era * 400 + yearOfEra) * 12 + month + 2 - 2) % 12 = month := by omega
  have hshift (year : ℤ) : daysToMarch (era * 400 + year) = era * 146097 + daysToMarch year := by
    unfold daysToMarch
    omega
  have hstart : daysToMarch yearOfEra = daysToYear yearOfEra := by
    unfold daysToMarch daysToYear
    omega
  rw [hyear,hmod,hshift,hstart]
  refine ⟨by unfold daysToMonth; omega,?_⟩
  by_cases hlast : month = 11
  · have hnext : ((era * 400 + yearOfEra) * 12 + month + 2 + 1 - 2) / 12 = era * 400 + (yearOfEra + 1) := by omega
    have hmarch : ((era * 400 + yearOfEra) * 12 + month + 2 + 1 - 2) % 12 = 0 := by omega
    have hzero : daysToMonth 0 = 0 := rfl
    rw [hnext,hmarch,hshift,hzero]
    omega
  · have hnext : ((era * 400 + yearOfEra) * 12 + month + 2 + 1 - 2) / 12 = era * 400 + yearOfEra := by omega
    have hsucc : ((era * 400 + yearOfEra) * 12 + month + 2 + 1 - 2) % 12 = month + 1 := by omega
    rw [hnext,hsucc,hshift,hstart]
    unfold daysToMonth
    omega

theorem monthOf_eq_iff {days index : ℤ} :
    monthOf days = index ↔ firstOfMonth index ≤ days ∧ days < firstOfMonth (index + 1) := by
  constructor
  · rintro rfl
    exact monthOf_spec days
  · rintro ⟨hfirst,hlast⟩
    obtain ⟨hfirst',hlast'⟩ := monthOf_spec days
    have hle : index < monthOf days + 1 := firstOfMonth_lt_iff.mp (by omega)
    have hge : monthOf days < index + 1 := firstOfMonth_lt_iff.mp (by omega)
    omega

theorem firstOfMonth_le_iff {days index : ℤ} : firstOfMonth index ≤ days ↔ index ≤ monthOf days := by
  obtain ⟨hfirst,hlast⟩ := monthOf_spec days
  constructor
  · intro h
    have hlt : index < monthOf days + 1 := firstOfMonth_lt_iff.mp (by omega)
    omega
  · intro h
    have hle : firstOfMonth index ≤ firstOfMonth (monthOf days) := strictMono_firstOfMonth.monotone h
    omega

@[simp] theorem monthOf_firstOfMonth (index : ℤ) : monthOf (firstOfMonth index) = index := by
  rw [monthOf_eq_iff]
  exact ⟨le_refl _,firstOfMonth_lt_iff.mpr (Int.lt_succ index)⟩

/-- The day before a month lies in the month before. -/
theorem monthOf_firstOfMonth_sub_one (index : ℤ) : monthOf (firstOfMonth (index + 1) - 1) = index := by
  have hsucc := (firstOfMonth_succ index).1
  rw [monthOf_eq_iff]
  omega

/-- The date counts the days of the month. -/
theorem date_eq (days : ℤ) : (civilOfDays days).date = days - firstOfMonth (monthOf days) + 1 := by
  have hday := makeDay_civilOfDays days 1
  rw [makeDay_eq] at hday
  unfold monthOf
  omega

/-! ## Local midnights -/

section Local
variable (offset : ℤ)

/-- The instant at which a local day begins. -/
def midnight (day : ℤ) : ℤ := day * millisPerDay - offset

theorem localDate_eq (year month date : ℤ) :
    localDate offset year month date = midnight offset (firstOfMonth (year * 12 + month) + (date - 1)) := by
  unfold localDate midnight
  rw [makeDay_eq]

theorem localDate_one (year month : ℤ) :
    localDate offset year month 1 = midnight offset (firstOfMonth (year * 12 + month)) := by
  rw [localDate_eq,Int.sub_self,Int.add_zero]

/-- The day zero of a month is the last day of the month before. -/
theorem localDate_zero (year month : ℤ) :
    localDate offset year month 0 = midnight offset (firstOfMonth (year * 12 + month) - 1) := by
  rw [localDate_eq,Int.zero_sub,← Int.sub_eq_add_neg]

@[simp] theorem localDays_midnight (day : ℤ) : localDays offset (midnight offset day) = day := by
  unfold localDays midnight millisPerDay
  omega

/-- The midnight before an instant is that of its day. -/
theorem midnight_localDays_le (t : ℤ) :
    midnight offset (localDays offset t) ≤ t ∧ t < midnight offset (localDays offset t + 1) := by
  unfold localDays midnight millisPerDay
  omega

end Local
end PinoyTax.Foundation.Calendar
