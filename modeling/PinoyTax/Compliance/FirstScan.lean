import PinoyTax.Compliance.Periods
import PinoyTax.Compliance.Scans

/-! # What the first scan of a company leaves out

The windows of a scan begin with the quarter and the month of its day. A filing for a
period that has just ended is still due for up to sixty days, and no scan makes its
deadline. The exact days on which nothing is left out are those late in a quarter.
-/
namespace PinoyTax.Compliance
open PinoyTax Foundation Calendar

/-- A filing of a form that the generator issues for the profile, for any period. -/
def Issued (company : Company) (activeEmployeeCount : ℕ) (f : Filing) : Prop :=
  (∃ quarter, f = salesTaxFiling company quarter ∨ f = incomeTaxFiling company quarter) ∨
    0 < activeEmployeeCount ∧ ∃ month, f ∈ monthlyFilings month

section
variable (offset : ℤ) (companyId : Uuid)

/-- The filing has its row. -/
def HasDeadline (s : Store) (f : Filing) : Prop :=
  ∃ d ∈ s.compliance.filingDeadlines, d.companyId = companyId ∧ d.formCode = f.formCode ∧
    d.periodStart = dateColumn (midnight offset f.firstDay) ∧ d.periodEnd = dateColumn (midnight offset f.lastDay)

/-- Every filing whose period has begun and that is not overdue has its row. -/
def Complete (company : Company) (activeEmployeeCount : ℕ) (day : ℤ) (s : Store) : Prop :=
  ∀ f, Issued company activeEmployeeCount f → f.firstDay ≤ day → day ≤ f.dueDay → HasDeadline offset companyId s f

end

/-! ## The filings of the window -/

section
variable {company : Company} {activeEmployeeCount : ℕ} {day : ℤ} {f : Filing}

theorem mem_expectedFilings : f ∈ expectedFilings company activeEmployeeCount day ↔
    (∃ q < 4, f = salesTaxFiling company (quarterOf day + (q : ℕ))) ∨
      (∃ q < 4, f = incomeTaxFiling company (quarterOf day + (q : ℕ))) ∨
      0 < activeEmployeeCount ∧ ∃ m < 12, f ∈ monthlyFilings (monthOf day + (m : ℕ)) := by
  unfold expectedFilings
  rw [List.mem_append,List.mem_append,List.mem_map,List.mem_map,or_assoc]
  refine or_congr ?_ (or_congr ?_ ?_)
  · simp only [List.mem_range,eq_comm]
  · simp only [List.mem_range,eq_comm]
  · split
    · rename_i hpos
      simp only [List.mem_flatMap,List.mem_range,hpos,true_and]
    · rename_i hnone
      simp only [List.not_mem_nil,hnone,false_and]

theorem quarterEnd_mono {i j : ℤ} (h : i ≤ j) : quarterEnd i ≤ quarterEnd j := by
  have hle : firstOfMonth (i * 3 + 3) ≤ firstOfMonth (j * 3 + 3) := strictMono_firstOfMonth.monotone (by omega)
  unfold quarterEnd
  omega

theorem monthEnd_mono {i j : ℤ} (h : i ≤ j) : monthEnd i ≤ monthEnd j := by
  have hle : firstOfMonth (i + 1) ≤ firstOfMonth (j + 1) := strictMono_firstOfMonth.monotone (by omega)
  unfold monthEnd
  omega

theorem le_quarterEnd_quarterOf (day : ℤ) : day ≤ quarterEnd (quarterOf day) := (quarterOf_eq_iff_span.mpr rfl).2
theorem le_monthEnd_monthOf (day : ℤ) : day ≤ monthEnd (monthOf day) := (monthOf_eq_iff_span.mpr rfl).2

theorem quarterEnd_lt (day : ℤ) : quarterEnd (quarterOf day - 1) < day := by
  have hfirst := (quarterOf_eq_iff_span.mpr (rfl : quarterOf day = quarterOf day)).1
  have hnext := quarterEnd_add_one (quarterOf day - 1)
  rw [Int.sub_add_cancel] at hnext
  omega

theorem monthEnd_lt (day : ℤ) : monthEnd (monthOf day - 1) < day := by
  have hfirst := (monthOf_eq_iff_span.mpr (rfl : monthOf day = monthOf day)).1
  have hnext := monthEnd_add_one (monthOf day - 1)
  rw [Int.sub_add_cancel] at hnext
  omega

theorem dates_of_monthlyFilings {month : ℤ} (h : f ∈ monthlyFilings month) :
    f.firstDay = firstOfMonth month ∧ f.lastDay = monthEnd month ∧ f.dueDay ≤ monthEnd month + 30 := by
  simp only [monthlyFilings,List.mem_cons,List.not_mem_nil,or_false] at h
  rcases h with rfl | rfl | rfl | rfl | rfl
  all_goals exact ⟨rfl,rfl,by dsimp only; omega⟩

/-- No period of the window has ended. -/
theorem le_lastDay (h : f ∈ expectedFilings company activeEmployeeCount day) : day ≤ f.lastDay := by
  have hquarter (q : ℕ) : day ≤ quarterEnd (quarterOf day + q) :=
    (le_quarterEnd_quarterOf day).trans (quarterEnd_mono (by omega))
  rcases mem_expectedFilings.mp h with ⟨q,-,rfl⟩ | ⟨q,-,rfl⟩ | ⟨-,m,-,hf⟩
  · exact hquarter q
  · exact hquarter q
  · rw [(dates_of_monthlyFilings hf).2.1]
    exact (le_monthEnd_monthOf day).trans (monthEnd_mono (by omega))

/-- A quarter that has begun and is not over is the current one. -/
theorem quarter_eq_of_begun {quarter : ℤ} (hbegun : quarterStart quarter ≤ day) (hopen : quarterEnd (quarterOf day - 1) < quarterEnd quarter) :
    quarter = quarterOf day := by
  have hle := @firstOfMonth_le_iff day (quarter * 3)
  have hge : ¬ quarter ≤ quarterOf day - 1 := by
    intro h
    have hmono := quarterEnd_mono h
    omega
  unfold quarterStart at hbegun
  unfold quarterOf at *
  omega

theorem month_eq_of_begun {month : ℤ} (hbegun : firstOfMonth month ≤ day) (hopen : monthEnd (monthOf day - 1) < monthEnd month) :
    month = monthOf day := by
  have hle := firstOfMonth_le_iff.mp hbegun
  have hge : ¬ month ≤ monthOf day - 1 := by
    intro h
    have hmono := monthEnd_mono h
    omega
  omega

/-- Late enough in the quarter and in the month, the filings that have begun and are still due are those of
the window. -/
theorem mem_expectedFilings_of_issued (hf : Issued company activeEmployeeCount f) (hbegun : f.firstDay ≤ day)
    (hdue : day ≤ f.dueDay) (hquarter : quarterEnd (quarterOf day - 1) + 60 < day)
    (hmonth : activeEmployeeCount = 0 ∨ monthEnd (monthOf day - 1) + 30 < day) :
    f ∈ expectedFilings company activeEmployeeCount day := by
  rw [mem_expectedFilings]
  rcases hf with ⟨quarter,rfl | rfl⟩ | ⟨hpos,month,hf⟩
  · have hcurrent : quarter = quarterOf day := quarter_eq_of_begun hbegun (by
      simp only [salesTaxFiling] at hdue
      omega)
    exact .inl ⟨0,by omega,by rw [hcurrent,Nat.cast_zero,Int.add_zero]⟩
  · have hcurrent : quarter = quarterOf day := quarter_eq_of_begun hbegun (by
      simp only [incomeTaxFiling] at hdue
      omega)
    exact .inr (.inl ⟨0,by omega,by rw [hcurrent,Nat.cast_zero,Int.add_zero]⟩)
  · obtain ⟨hfirst,-,hlatest⟩ := dates_of_monthlyFilings hf
    have hlate := hmonth.resolve_left (Nat.pos_iff_ne_zero.mp hpos)
    have hcurrent : month = monthOf day := month_eq_of_begun (hfirst ▸ hbegun) (by omega)
    exact .inr (.inr ⟨hpos,0,by omega,by rwa [Nat.cast_zero,Int.add_zero,← hcurrent]⟩)

end

/-! ## The rows of the scan -/

section
variable {offset : ℤ} {companyId : Uuid} {s : Store}

/-- The first scan of a company leaves a row for the filings of its window and for no others. -/
theorem hasDeadline_firstScan {company : Company} (hcompany : s.org.companies.find? (fun c => c.id = companyId) = some company)
    (hfirst : ∀ d ∈ s.compliance.filingDeadlines, d.companyId ≠ companyId) (draw : ScanDraw) (now : DateTime) (f : Filing) :
    HasDeadline offset companyId ((runComplianceScan offset companyId draw now).run s).2 f ↔
      ∃ g ∈ expectedFilings company (activeEmployees s companyId).length (localDays offset now),
        g.formCode = f.formCode ∧ g.firstDay = f.firstDay ∧ g.lastDay = f.lastDay := by
  have hnone : (s.compliance.filingDeadlines.filter fun d => d.companyId = companyId) = [] := by
    rw [List.filter_eq_nil_iff]
    simpa using hfirst
  have hdeadlines := deadlines_runComplianceScan offset companyId draw now s
  rw [hcompany] at hdeadlines
  unfold HasDeadline
  rw [hdeadlines]
  constructor
  · rintro ⟨d,hd,hc,hcode,hstart,hend⟩
    have hnew := (List.mem_append.mp hd).resolve_left fun hold => hfirst d hold hc
    obtain ⟨g,hg,id,-,rfl⟩ := mem_newDeadlines offset companyId hnew
    exact ⟨g,hg,hcode,(dateColumn_midnight_inj offset).mp hstart,(dateColumn_midnight_inj offset).mp hend⟩
  · rintro ⟨g,hg,hcode,hstart,hend⟩
    obtain ⟨id,hid⟩ := exists_newDeadline offset companyId draw.deadlineIds hg (by rw [isMissing,hnone]; rfl)
    refine ⟨_,List.mem_append_right _ hid,rfl,hcode,?_,?_⟩
    · exact (dateColumn_midnight_inj offset).mpr hstart
    · exact (dateColumn_midnight_inj offset).mpr hend

/-- The thirty-first is more than thirty days after the month before. -/
theorem date_eq_thirtyOne_iff (now : DateTime) :
    (localCivil offset now).date = 31 ↔ monthEnd (monthOf (localDays offset now) - 1) + 30 < localDays offset now := by
  have hdate := date_eq (localDays offset now)
  have hlast := (monthOf_spec (localDays offset now)).2
  have hsucc := (firstOfMonth_succ (monthOf (localDays offset now))).2
  unfold localCivil monthEnd
  rw [Int.sub_add_cancel]
  omega

variable (offset) in
/-- The first scan of a company leaves nothing out exactly when its day is more than sixty days into the
quarter and, if the company has employees, the thirty-first of a month. -/
theorem complete_firstScan_iff {company : Company} (hcompany : s.org.companies.find? (fun c => c.id = companyId) = some company)
    (hfirst : ∀ d ∈ s.compliance.filingDeadlines, d.companyId ≠ companyId) (draw : ScanDraw) (now : DateTime) :
    Complete offset companyId company (activeEmployees s companyId).length (localDays offset now)
        ((runComplianceScan offset companyId draw now).run s).2 ↔
      quarterEnd (quarterOf (localDays offset now) - 1) + 60 < localDays offset now ∧
        ((activeEmployees s companyId).length = 0 ∨ (localCivil offset now).date = 31) := by
  rw [date_eq_thirtyOne_iff]
  unfold Complete
  simp only [hasDeadline_firstScan hcompany hfirst draw now]
  generalize hday : localDays offset now = day
  have hquarter := quarterEnd_lt day
  have hmonth := monthEnd_lt day
  -- a filing for a period that is over is not in the window
  have hover (f : Filing) (hf : f.lastDay < day) (h : ∃ g ∈ expectedFilings company (activeEmployees s companyId).length day,
      g.formCode = f.formCode ∧ g.firstDay = f.firstDay ∧ g.lastDay = f.lastDay) : False := by
    obtain ⟨g,hg,-,-,hlast⟩ := h
    have hle := le_lastDay hg
    omega
  constructor
  · intro h
    constructor
    · by_contra hnot
      have hincome : Issued company (activeEmployees s companyId).length (incomeTaxFiling company (quarterOf day - 1)) :=
        .inl ⟨_,.inr rfl⟩
      have hbegun := quarterStart_le_quarterEnd (quarterOf day - 1)
      refine hover _ hquarter (h _ hincome ?_ ?_)
      · simp only [incomeTaxFiling]
        omega
      · simp only [incomeTaxFiling]
        omega
    · by_contra hnot
      push Not at hnot
      have hmem : (⟨"SSS_CONTRIBUTION",.sss,firstOfMonth (monthOf day - 1),monthEnd (monthOf day - 1),
          monthEnd (monthOf day - 1) + 30⟩ : Filing) ∈ monthlyFilings (monthOf day - 1) := by
        simp [monthlyFilings]
      have hbegun := firstOfMonth_le_monthEnd (monthOf day - 1)
      refine hover _ hmonth (h _ (.inr ⟨Nat.pos_of_ne_zero hnot.1,_,hmem⟩) ?_ hnot.2)
      dsimp only
      omega
  · rintro ⟨hlate,hemployees⟩ f hf hbegun hdue
    exact ⟨f,mem_expectedFilings_of_issued hf hbegun hdue hlate hemployees,rfl,rfl,rfl⟩

end

/-- The store before the first scan of a store without employees. -/
def unscanned : Store where
  org := { companies := [sariSariStore] }

/-- On 31 August 2026 nothing is left out. -/
theorem complete_firstScan_iff_august : Complete 0 300 sariSariStore 0 20696
    ((runComplianceScan 0 300 ⟨fun i => i,fun i => i,fun i => i⟩ (20696 * msPerDay)).run unscanned).2 := by
  have hcompany : unscanned.org.companies.find? (fun c => c.id = 300) = some sariSariStore := by decide
  have hfirst : ∀ d ∈ unscanned.compliance.filingDeadlines, d.companyId ≠ 300 := by decide
  exact (complete_firstScan_iff 0 hcompany hfirst _ (20696 * msPerDay)).mpr (by decide +kernel)

/-- On 10 January 2026 the income tax of the last quarter of 2025 is due for fifty days yet. -/
theorem january_not_complete : ¬ Complete 0 300 sariSariStore 0 20463
    ((runComplianceScan 0 300 ⟨fun i => i,fun i => i,fun i => i⟩ (20463 * msPerDay)).run unscanned).2 := by
  intro h
  have hissued : Issued sariSariStore 0 (incomeTaxFiling sariSariStore 8103) := .inl ⟨8103,.inr rfl⟩
  have hmissing := h _ hissued (by decide +kernel) (by decide +kernel)
  revert hmissing
  unfold HasDeadline
  decide +kernel

end PinoyTax.Compliance
