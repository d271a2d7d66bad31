import PinoyTax.Compliance.Filings

/-! # The windows of a scan

The quarters and the months that a scan generates deadlines for are those of the
calendar, one after the other from the day of the scan on. A monthly filing falls due in
the month after its period, but for the contribution that is due thirty days later:
there are not always thirty days in February.
-/
namespace PinoyTax.Compliance
open PinoyTax Foundation Calendar

section
variable (offset : ℤ)

/-- The local days from the first to the last of a period. -/
def Spans (p : DateTime × DateTime) (day : ℤ) : Prop := localDays offset p.1 ≤ day ∧ day ≤ localDays offset p.2

def calendarMonth (c : Civil) : ℤ × ℤ := (c.year,c.month)
def calendarQuarter (c : Civil) : ℤ × ℤ := (c.year,c.month / 3)

/-- The period begins and ends at a local midnight, and its days are those of one unit of the calendar. -/
structure Whole (unit : Civil → ℤ × ℤ) (p : DateTime × DateTime) : Prop where
  start : p.1 = midnight offset (localDays offset p.1)
  finish : p.2 = midnight offset (localDays offset p.2)
  nonempty : p.1 ≤ p.2
  days : ∃ k, ∀ day, Spans offset p day ↔ unit (civilOfDays day) = k

/-- The window at a reference date is the unit of that day and those that follow. -/
structure Tiles (unit : Civil → ℤ × ℤ) (window : DateTime → ℕ → DateTime × DateTime) : Prop where
  whole : ∀ reference n, Whole offset unit (window reference n)
  first : ∀ reference, Spans offset (window reference 0) (localDays offset reference)
  next : ∀ reference n, localDays offset (window reference (n + 1)).1 = localDays offset (window reference n).2 + 1
  shared : ∀ reference reference' n n' day, Spans offset (window reference n) day →
    Spans offset (window reference' n') day → window reference n = window reference' n'

/-! ## Months and quarters -/

theorem monthOf_eq_unit_iff {day k : ℤ} : monthOf day = k ↔ calendarMonth (civilOfDays day) = (k / 12,k % 12) := by
  obtain ⟨-,hmin,hmax⟩ := civilOfDays_spec day
  unfold monthOf calendarMonth
  rw [Prod.mk.injEq]
  omega

theorem quarterOf_eq_unit_iff {day k : ℤ} : quarterOf day = k ↔ calendarQuarter (civilOfDays day) = (k / 4,k % 4) := by
  obtain ⟨-,hmin,hmax⟩ := civilOfDays_spec day
  unfold quarterOf monthOf calendarQuarter
  rw [Prod.mk.injEq]
  omega

variable {offset}

theorem spans_midnights {first last day : ℤ} :
    Spans offset (midnight offset first,midnight offset last) day ↔ first ≤ day ∧ day ≤ last := by
  unfold Spans
  rw [localDays_midnight,localDays_midnight]

theorem monthOf_eq_iff_span {month day : ℤ} : firstOfMonth month ≤ day ∧ day ≤ monthEnd month ↔ monthOf day = month := by
  rw [monthOf_eq_iff]
  unfold monthEnd
  omega

theorem quarterOf_eq_iff_span {quarter day : ℤ} :
    quarterStart quarter ≤ day ∧ day ≤ quarterEnd quarter ↔ quarterOf day = quarter := by
  have hfirst := @firstOfMonth_le_iff day (quarter * 3)
  have hlast := @firstOfMonth_le_iff day (quarter * 3 + 3)
  unfold quarterStart quarterEnd quarterOf
  omega

theorem monthEnd_add_one (month : ℤ) : monthEnd month + 1 = firstOfMonth (month + 1) := by
  unfold monthEnd
  omega

theorem quarterEnd_add_one (quarter : ℤ) : quarterEnd quarter + 1 = quarterStart (quarter + 1) := by
  have hnext : (quarter + 1) * 3 = quarter * 3 + 3 := by omega
  unfold quarterEnd quarterStart
  rw [hnext]
  omega

/-- Consecutive spans of days tile the line when each day has its own. -/
theorem tiles_of_spans {unit : Civil → ℤ × ℤ} {window : DateTime → ℕ → DateTime × DateTime} {first last unitOf : ℤ → ℤ}
    (hwindow : ∀ reference (n : ℕ), window reference n = (midnight offset (first (unitOf (localDays offset reference) + n)),
      midnight offset (last (unitOf (localDays offset reference) + n))))
    (hspans : ∀ k day, first k ≤ day ∧ day ≤ last k ↔ unitOf day = k)
    (hunit : ∀ k, ∃ u, ∀ day, unitOf day = k ↔ unit (civilOfDays day) = u)
    (hnonempty : ∀ k, first k ≤ last k) (hnext : ∀ k, last k + 1 = first (k + 1)) : Tiles offset unit window := by
  have hmidnight (i j : ℤ) (h : i ≤ j) : midnight offset i ≤ midnight offset j := by
    unfold midnight millisPerDay
    omega
  refine ⟨fun reference n => ?_,fun reference => ?_,fun reference n => ?_,fun reference reference' n n' day h h' => ?_⟩
  · rw [hwindow]
    refine ⟨by rw [localDays_midnight],by rw [localDays_midnight],hmidnight _ _ (hnonempty _),?_⟩
    obtain ⟨u,hu⟩ := hunit (unitOf (localDays offset reference) + n)
    refine ⟨u,fun day => ?_⟩
    rw [spans_midnights,hspans,hu]
  · rw [hwindow,spans_midnights,hspans,Nat.cast_zero,Int.add_zero]
  · rw [hwindow,hwindow]
    dsimp only
    rw [localDays_midnight,localDays_midnight,hnext,Nat.cast_add,Nat.cast_one,Int.add_assoc]
  · rw [hwindow,spans_midnights,hspans] at h h'
    rw [hwindow,hwindow,← h,← h']

theorem firstOfMonth_le_monthEnd (month : ℤ) : firstOfMonth month ≤ monthEnd month := by
  have hsucc := (firstOfMonth_succ month).1
  unfold monthEnd
  omega

theorem quarterStart_le_quarterEnd (quarter : ℤ) : quarterStart quarter ≤ quarterEnd quarter := by
  have hlt : firstOfMonth (quarter * 3) < firstOfMonth (quarter * 3 + 3) := firstOfMonth_lt_iff.mpr (by omega)
  unfold quarterStart quarterEnd
  omega

variable (offset) in
/-- At every reference date the windows are the calendar's own months and quarters from that date on. -/
theorem windows_tile : Tiles offset calendarQuarter (getQuarter offset) ∧ Tiles offset calendarMonth (getMonth offset) := by
  constructor
  · exact tiles_of_spans (getQuarter_eq offset) (fun _ _ => quarterOf_eq_iff_span)
      (fun k => ⟨_,fun _ => quarterOf_eq_unit_iff⟩) quarterStart_le_quarterEnd quarterEnd_add_one
  · exact tiles_of_spans (getMonth_eq offset) (fun _ _ => monthOf_eq_iff_span)
      (fun k => ⟨_,fun _ => monthOf_eq_unit_iff⟩) firstOfMonth_le_monthEnd monthEnd_add_one

/-! ## Monthly due dates -/

section
variable (offset)

def periodMonth (c : Candidate) : ℤ := monthOf (localDays offset c.periodStart)
def dueMonth (c : Candidate) : ℤ := monthOf (localDays offset c.dueDate)

/-- The filing is due in the month that follows its period. -/
def DueNextMonth (c : Candidate) : Prop := dueMonth offset c = periodMonth offset c + 1

instance : DecidablePred (DueNextMonth offset) := fun _ => inferInstanceAs (Decidable (_ = _))

/-- The monthly candidates of a scan. -/
def monthlyWindow (today : DateTime) : List Candidate := (List.range 12).flatMap (monthlyDeadlines offset today)

/-- In each of the twelve months after a month of the window the form has one due date. -/
def OneDueEachMonth (today : DateTime) (form : String) : Prop :=
  ∀ month, monthOf (localDays offset today) < month → month ≤ monthOf (localDays offset today) + 12 →
    (monthlyWindow offset today).countP (fun c => c.formCode = form ∧ dueMonth offset c = month) = 1

end

/-- Ten, fifteen and twenty days lead into the next month, thirty days over a February. -/
theorem monthOf_monthEnd_add (month : ℤ) {days : ℤ} (hpos : 0 < days) (hdays : days ≤ 28) :
    monthOf (monthEnd month + days) = month + 1 := by
  have hsucc := (firstOfMonth_succ (month + 1)).1
  rw [monthOf_eq_iff]
  unfold monthEnd
  omega

theorem monthOf_monthEnd_add_thirty (month : ℤ) :
    monthOf (monthEnd month + 30) = if month % 12 = 0 then month + 2 else month + 1 := by
  have hthirty := thirty_days_iff (month + 1)
  have hsucc := (firstOfMonth_succ (month + 1)).1
  have hnext := (firstOfMonth_succ (month + 1 + 1)).1
  have htwo : month + 2 = month + 1 + 1 := by omega
  rw [monthOf_eq_iff]
  unfold monthEnd
  split
  · rw [htwo]
    omega
  · omega

/-- The due month of a monthly candidate and its period's month. -/
theorem months_of_monthlyDeadlines {today : DateTime} {m : ℕ} {c : Candidate} (hc : c ∈ monthlyDeadlines offset today m) :
    periodMonth offset c = monthOf (localDays offset today) + m ∧ dueMonth offset c =
      if c.formCode = "SSS_CONTRIBUTION" ∧ (monthOf (localDays offset today) + m) % 12 = 0
      then monthOf (localDays offset today) + m + 2 else monthOf (localDays offset today) + m + 1 := by
  rw [monthlyDeadlines_eq] at hc
  obtain ⟨f,hf,rfl⟩ := List.mem_map.mp hc
  generalize monthOf (localDays offset today) + m = month at *
  have hadd (days : ℤ) (hpos : 0 < days) (hdays : days ≤ 28) := monthOf_monthEnd_add month hpos hdays
  simp only [monthlyFilings,List.mem_cons,List.not_mem_nil,or_false] at hf
  rcases hf with rfl | rfl | rfl | rfl | rfl
  · simp [periodMonth,dueMonth,Filing.candidate,hadd 10 (by omega) (by omega)]
  · simp [periodMonth,dueMonth,Filing.candidate,hadd 10 (by omega) (by omega)]
  · simp only [periodMonth,dueMonth,Filing.candidate,localDays_midnight,monthOf_firstOfMonth,monthOf_monthEnd_add_thirty,
      true_and]
  · simp [periodMonth,dueMonth,Filing.candidate,hadd 20 (by omega) (by omega)]
  · simp [periodMonth,dueMonth,Filing.candidate,hadd 15 (by omega) (by omega)]

variable (offset) in
/-- The five forms of a month, each once. -/
theorem formCodes_monthlyDeadlines (today : DateTime) (m : ℕ) :
    (monthlyDeadlines offset today m).map Candidate.formCode = monthlyForms := rfl

variable (offset) in
theorem countP_formCode (today : DateTime) (m : ℕ) {form : String} (hform : form ∈ monthlyForms) :
    (monthlyDeadlines offset today m).countP (fun c => c.formCode = form) = 1 := by
  have hcount : (monthlyDeadlines offset today m).countP (fun c => c.formCode = form) = monthlyForms.count form := by
    rw [← formCodes_monthlyDeadlines offset today m,List.count,List.countP_map]
    apply List.countP_congr
    intro c _
    simp
  rw [hcount]
  exact List.count_eq_one_of_mem (by decide) hform

/-- The one due date that a form has for a period. -/
theorem countP_due {today : DateTime} {m : ℕ} {form : String} (hform : form ∈ monthlyForms) (month : ℤ) :
    (monthlyDeadlines offset today m).countP (fun c => c.formCode = form ∧ dueMonth offset c = month) =
      if (if form = "SSS_CONTRIBUTION" ∧ (monthOf (localDays offset today) + m) % 12 = 0
        then monthOf (localDays offset today) + m + 2 else monthOf (localDays offset today) + m + 1) = month
      then 1 else 0 := by
  generalize hdue : (if form = "SSS_CONTRIBUTION" ∧ (monthOf (localDays offset today) + m) % 12 = 0
    then monthOf (localDays offset today) + m + 2 else monthOf (localDays offset today) + m + 1) = due
  have hsame : ∀ c ∈ monthlyDeadlines offset today m, c.formCode = form → dueMonth offset c = due := by
    intro c hc hcode
    rw [(months_of_monthlyDeadlines hc).2,hcode,hdue]
  split
  · rename_i h
    rw [← countP_formCode offset today m hform]
    apply List.countP_congr
    intro c hc
    simp only [decide_eq_true_eq]
    exact ⟨And.left,fun hcode => ⟨hcode,(hsame c hc hcode).trans h⟩⟩
  · rename_i h
    rw [List.countP_eq_zero]
    intro c hc
    simp only [decide_eq_true_eq,not_and]
    exact fun hcode hmonth => h ((hsame c hc hcode).symm.trans hmonth)

/-- One of twelve months in a row is a given one. -/
theorem sum_range_indicator (start month : ℤ) (n : ℕ) :
    ((List.range n).map fun m : ℕ => if start + m = month then 1 else 0).sum =
      if start ≤ month ∧ month < start + n then 1 else 0 := by
  induction n with
  | zero =>
    have hempty : ¬ (start ≤ month ∧ month < start + (0 : ℕ)) := by omega
    rw [if_neg hempty]
    rfl
  | succ n ih =>
    rw [List.range_succ,List.map_append,List.sum_append,ih]
    simp only [List.map_cons,List.map_nil,List.sum_cons,List.sum_nil]
    split_ifs
    all_goals omega

theorem countP_monthlyWindow {today : DateTime} {form : String} (month : ℤ) :
    (monthlyWindow offset today).countP (fun c => c.formCode = form ∧ dueMonth offset c = month) =
      ((List.range 12).map fun m => (monthlyDeadlines offset today m).countP
        fun c => c.formCode = form ∧ dueMonth offset c = month).sum := by
  rw [monthlyWindow,List.countP_flatMap]
  rfl

theorem oneDueEachMonth_iff {today : DateTime} {form : String} (hform : form ∈ monthlyForms) :
    OneDueEachMonth offset today form ↔ form ≠ "SSS_CONTRIBUTION" := by
  unfold OneDueEachMonth
  simp only [countP_monthlyWindow,countP_due hform]
  generalize monthOf (localDays offset today) = start
  constructor
  · rintro h rfl
    -- the month after the January of the window has none
    have hjanuary := h ((start + 11) / 12 * 12 + 1) (by omega) (by omega)
    have hnone : ((List.range 12).map fun m : ℕ => if (if "SSS_CONTRIBUTION" = "SSS_CONTRIBUTION" ∧ (start + m) % 12 = 0
        then start + m + 2 else start + m + 1) = (start + 11) / 12 * 12 + 1 then 1 else 0).sum = 0 := by
      apply List.sum_eq_zero
      intro x hx
      obtain ⟨m,-,rfl⟩ := List.mem_map.mp hx
      rw [if_neg]
      split
      · omega
      · rename_i hother
        simp only [true_and] at hother
        omega
    omega
  · intro h month hfirst hlast
    have hcount := sum_range_indicator (start + 1) month 12
    rw [if_pos (by omega)] at hcount
    refine Eq.trans (congrArg List.sum (List.map_congr_left fun m _ => ?_)) hcount
    have hnot : ¬ (form = "SSS_CONTRIBUTION" ∧ (start + m) % 12 = 0) := fun hsss => h hsss.1
    have hswap : start + 1 + m = start + m + 1 := by omega
    rw [if_neg hnot,hswap]

/-- Every monthly candidate is due in the month after its period but the `SSS_CONTRIBUTION` of a January, and
a form has one due date in each of the months after the window exactly when it is another one. -/
theorem monthlyDue_iff {today : DateTime} {m : ℕ} {c : Candidate} (hc : c ∈ monthlyDeadlines offset today m) :
    (DueNextMonth offset c ↔ ¬ (c.formCode = "SSS_CONTRIBUTION" ∧ (localCivil offset c.periodStart).month = 0)) ∧
      (OneDueEachMonth offset today c.formCode ↔ c.formCode ≠ "SSS_CONTRIBUTION") := by
  obtain ⟨hperiod,hdue⟩ := months_of_monthlyDeadlines hc
  have hform : c.formCode ∈ monthlyForms := by
    rw [← formCodes_monthlyDeadlines offset today m]
    exact List.mem_map_of_mem hc
  refine ⟨?_,oneDueEachMonth_iff hform⟩
  have hjanuary : (localCivil offset c.periodStart).month = 0 ↔ (monthOf (localDays offset today) + m) % 12 = 0 := by
    obtain ⟨-,hmin,hmax⟩ := civilOfDays_spec (localDays offset c.periodStart)
    rw [← hperiod,periodMonth,monthOf,localCivil]
    omega
  rw [DueNextMonth,hdue,hperiod,hjanuary]
  split
  · rename_i h
    refine iff_of_false ?_ fun hnot => hnot h
    omega
  · rename_i h
    exact iff_of_true rfl h

/-- The contributions of March 2026, seen on 10 January. -/
theorem monthlyDue_iff_march :
    DueNextMonth 0 ⟨"SSS_CONTRIBUTION",.sss,20513 * msPerDay,20543 * msPerDay,20573 * msPerDay⟩ := by
  have hmem : (⟨"SSS_CONTRIBUTION",.sss,20513 * msPerDay,20543 * msPerDay,20573 * msPerDay⟩ : Candidate) ∈
      monthlyDeadlines 0 (20463 * msPerDay) 2 := by decide +kernel
  exact (monthlyDue_iff hmem).1.mpr (by decide +kernel)

/-- Those of January are due on 2 March. -/
theorem january_not_dueNextMonth :
    ∃ c ∈ monthlyDeadlines 0 (20463 * msPerDay) 0, c.dueDate = 20514 * msPerDay ∧ ¬ DueNextMonth 0 c := by
  refine ⟨⟨"SSS_CONTRIBUTION",.sss,20454 * msPerDay,20484 * msPerDay,20514 * msPerDay⟩,?_,rfl,?_⟩
  · decide +kernel
  · decide +kernel

end
end PinoyTax.Compliance
