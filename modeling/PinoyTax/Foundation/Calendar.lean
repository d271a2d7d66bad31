import Mathlib.Algebra.Group.Nat.Defs
import Mathlib.Data.Int.Basic
import Mathlib.Tactic.Common

/-! # Instants and local calendar dates

Instants are milliseconds since the epoch. Days are counted in the proleptic
Gregorian calendar, in eras of four hundred years that start on the first of March, so
that the leap day is the last day of a year. A local time differs from UTC by a fixed
offset. Months are numbered from zero and may run over the end of the year, and days
over the end of the month.
-/
namespace PinoyTax.Foundation.Calendar

def millisPerDay : ℤ := 86400000

structure Civil where
  year : ℤ
  month : ℤ
  date : ℤ
deriving DecidableEq, Repr

def daysToYear (yearOfEra : ℤ) : ℤ := yearOfEra * 365 + yearOfEra / 4 - yearOfEra / 100

/-- The days before a month, both counted from March. -/
def daysToMonth (month : ℤ) : ℤ := (153 * month + 2) / 5

/-- The day number of a date whose month is between 0 and 11. -/
def daysOfCivil (c : Civil) : ℤ :=
  let year := if c.month < 2 then c.year - 1 else c.year
  let month := if c.month < 2 then c.month + 10 else c.month - 2
  year / 400 * 146097 - 719468 + daysToYear (year % 400) + daysToMonth month + (c.date - 1)

/-- A day of an era as its year and the day within the year. -/
def splitEra (dayOfEra : ℤ) : ℤ × ℤ :=
  let century := min (dayOfEra / 36524) 3
  let dayOfCentury := dayOfEra - century * 36524
  let cycle := dayOfCentury / 1461
  let dayOfCycle := dayOfCentury - cycle * 1461
  let year := min (dayOfCycle / 365) 3
  (century * 100 + cycle * 4 + year,dayOfCycle - year * 365)

/-- The date of a day given by its era, year and day within the year. -/
def civilOfEra (era yearOfEra dayOfYear : ℤ) : Civil :=
  let month := (5 * dayOfYear + 2) / 153
  let year := yearOfEra + era * 400
  { year := if month < 10 then year else year + 1
    month := if month < 10 then month + 2 else month - 10
    date := dayOfYear - daysToMonth month + 1 }

def civilOfDays (days : ℤ) : Civil :=
  let split := splitEra ((days + 719468) % 146097)
  civilOfEra ((days + 719468) / 146097) split.1 split.2

/-- The parts of a day of an era: its century, the four years and the year within these, and the day. -/
theorem splitEra_eq (dayOfEra : ℤ) (h0 : 0 ≤ dayOfEra) (h1 : dayOfEra < 146097) : ∃ century cycle year dayOfYear,
    splitEra dayOfEra = (century * 100 + cycle * 4 + year,dayOfYear) ∧
      dayOfEra = century * 36524 + cycle * 1461 + year * 365 + dayOfYear ∧
      (0 ≤ century ∧ century ≤ 3) ∧ (0 ≤ cycle ∧ cycle ≤ 24) ∧ (0 ≤ year ∧ year ≤ 3) ∧
      (0 ≤ dayOfYear ∧ dayOfYear < 366) ∧ (dayOfYear < 365 ∨ year = 3) ∧
      (cycle * 1461 + year * 365 + dayOfYear < 36524 ∨ century = 3) := by
  unfold splitEra
  dsimp only
  generalize hc : min (dayOfEra / 36524) 3 = century
  have hcentury : 0 ≤ century ∧ century ≤ 3 ∧ 0 ≤ dayOfEra - century * 36524 ∧
      dayOfEra - century * 36524 ≤ 36524 ∧ (dayOfEra - century * 36524 < 36524 ∨ century = 3) := by omega
  generalize hr : dayOfEra - century * 36524 = dayOfCentury at hcentury ⊢
  generalize hq : dayOfCentury / 1461 = cycle
  have hcycle : 0 ≤ cycle ∧ cycle ≤ 24 ∧ 0 ≤ dayOfCentury - cycle * 1461 ∧
      dayOfCentury - cycle * 1461 < 1461 := by omega
  generalize hd : dayOfCentury - cycle * 1461 = dayOfCycle at hcycle ⊢
  generalize hy : min (dayOfCycle / 365) 3 = year
  have hyear : 0 ≤ year ∧ year ≤ 3 ∧ 0 ≤ dayOfCycle - year * 365 ∧ dayOfCycle - year * 365 < 366 ∧
      (dayOfCycle - year * 365 < 365 ∨ year = 3) := by omega
  exact ⟨century,cycle,year,_,rfl,by omega,by omega,by omega,by omega,by omega,by omega,by omega⟩

theorem splitEra_spec (dayOfEra : ℤ) (h0 : 0 ≤ dayOfEra) (h1 : dayOfEra < 146097) :
    daysToYear (splitEra dayOfEra).1 + (splitEra dayOfEra).2 = dayOfEra ∧
      0 ≤ (splitEra dayOfEra).1 ∧ (splitEra dayOfEra).1 < 400 ∧
      0 ≤ (splitEra dayOfEra).2 ∧ (splitEra dayOfEra).2 < 366 := by
  obtain ⟨century,cycle,year,dayOfYear,hsplit,hday,hcentury,hcycle,hyear,hdays,-⟩ := splitEra_eq dayOfEra h0 h1
  have hquarter : (century * 100 + cycle * 4 + year) / 4 = century * 25 + cycle := by omega
  have hhundred : (century * 100 + cycle * 4 + year) / 100 = century := by omega
  rw [hsplit,daysToYear,hquarter,hhundred]
  dsimp only
  omega

theorem civilOfEra_spec (era : ℤ) {yearOfEra dayOfYear : ℤ} (hy0 : 0 ≤ yearOfEra) (hy1 : yearOfEra < 400)
    (hd0 : 0 ≤ dayOfYear) (hd1 : dayOfYear < 366) :
    daysOfCivil (civilOfEra era yearOfEra dayOfYear) =
        era * 146097 - 719468 + daysToYear yearOfEra + dayOfYear ∧
      0 ≤ (civilOfEra era yearOfEra dayOfYear).month ∧ (civilOfEra era yearOfEra dayOfYear).month < 12 := by
  unfold civilOfEra daysOfCivil
  dsimp only
  generalize hm : (5 * dayOfYear + 2) / 153 = month
  have hmonth : 0 ≤ month ∧ month < 12 := by omega
  have hdiv : (yearOfEra + era * 400) / 400 = era := by omega
  have hmod : (yearOfEra + era * 400) % 400 = yearOfEra := by omega
  by_cases hlate : month < 10
  · have h2 : ¬ month + 2 < 2 := by omega
    simp only [if_pos hlate,if_neg h2]
    rw [hdiv,hmod,Int.add_sub_cancel]
    omega
  · have h2 : month - 10 < 2 := by omega
    simp only [if_neg hlate,if_pos h2]
    rw [Int.add_sub_cancel,hdiv,hmod,Int.sub_add_cancel]
    omega

theorem civilOfDays_spec (days : ℤ) :
    daysOfCivil (civilOfDays days) = days ∧ 0 ≤ (civilOfDays days).month ∧ (civilOfDays days).month < 12 := by
  obtain ⟨hsum,hy0,hy1,hd0,hd1⟩ := splitEra_spec ((days + 719468) % 146097) (by omega) (by omega)
  obtain ⟨hdays,hmonth⟩ := civilOfEra_spec ((days + 719468) / 146097) hy0 hy1 hd0 hd1
  refine ⟨?_,hmonth⟩
  rw [civilOfDays,hdays]
  omega

/-- The day number of a date as the date constructor reads it. -/
def makeDay (year month date : ℤ) : ℤ :=
  daysOfCivil ⟨year + month / 12,month % 12,1⟩ + (date - 1)

/-! ## Local dates -/

section Local
variable (offset : ℤ)

def localDays (t : ℤ) : ℤ := (t + offset) / millisPerDay

/-- `getFullYear`, `getMonth` and `getDate` of an instant. -/
def localCivil (t : ℤ) : Civil := civilOfDays (localDays offset t)

/-- `new Date(year, month, date)`. The constructor takes the years 0 to 99 for the twentieth century;
no clock shows them. -/
def localDate (year month date : ℤ) : ℤ := makeDay year month date * millisPerDay - offset

/-- `setDate`: another day of the same month at the same time of the day. -/
def setDate (t date : ℤ) : ℤ :=
  let c := localCivil offset t
  makeDay c.year c.month date * millisPerDay + (t + offset) % millisPerDay - offset

theorem makeDay_civilOfDays (days date : ℤ) :
    makeDay (civilOfDays days).year (civilOfDays days).month date = days - (civilOfDays days).date + date := by
  obtain ⟨hround,hmonth⟩ := civilOfDays_spec days
  have hyear : (civilOfDays days).year + (civilOfDays days).month / 12 = (civilOfDays days).year := by omega
  have hmod : (civilOfDays days).month % 12 = (civilOfDays days).month := by omega
  unfold daysOfCivil at hround
  unfold makeDay daysOfCivil
  rw [hyear,hmod]
  dsimp only at hround ⊢
  omega

/-- Moving the date by some days moves the instant by as many days. -/
theorem setDate_add (t days : ℤ) :
    setDate offset t ((localCivil offset t).date + days) = t + days * millisPerDay := by
  unfold setDate localCivil
  dsimp only
  rw [makeDay_civilOfDays]
  unfold localDays millisPerDay
  omega

end Local

/-! ## Texts -/

def pad (width : ℕ) (n : ℤ) : String :=
  let digits := toString n.toNat
  String.ofList (List.replicate (width - digits.length) '0') ++ digits

/-- The year of `toISOString`: four digits, outside of the years 0 to 9999 a sign and six. -/
def isoYear (year : ℤ) : String :=
  if 0 ≤ year ∧ year ≤ 9999 then pad 4 year else (if year < 0 then "-" else "+") ++ pad 6 year.natAbs

def toISOString (t : ℤ) : String :=
  let c := civilOfDays (t / millisPerDay)
  let ms := t % millisPerDay
  isoYear c.year ++ "-" ++ pad 2 (c.month + 1) ++ "-" ++ pad 2 c.date ++ "T" ++ pad 2 (ms / 3600000) ++ ":" ++
    pad 2 (ms / 60000 % 60) ++ ":" ++ pad 2 (ms / 1000 % 60) ++ "." ++ pad 3 (ms % 1000) ++ "Z"

def dayName (days : ℤ) : String :=
  ["Thu","Fri","Sat","Sun","Mon","Tue","Wed"].getD (days % 7).toNat ""

def monthName (month : ℤ) : String :=
  ["Jan","Feb","Mar","Apr","May","Jun","Jul","Aug","Sep","Oct","Nov","Dec"].getD month.toNat ""

/-- `toDateString`, such as `Sat Nov 15 2025`. -/
def toDateString (offset t : ℤ) : String :=
  let days := localDays offset t
  let c := civilOfDays days
  dayName days ++ " " ++ monthName c.month ++ " " ++ pad 2 c.date ++ " " ++ pad 4 c.year

example : toISOString 1763208000123 = "2025-11-15T12:00:00.123Z" := by decide +kernel
example : toDateString 0 1763208000123 = "Sat Nov 15 2025" := by decide +kernel

end PinoyTax.Foundation.Calendar
