import PinoyTax.Foundation.Months
import PinoyTax.Compliance.Service

/-! # The expected filings as calendar dates

A filing has a form, the first and the last day of its period and the day it is due, all
of them days of the calendar without a clock. The candidates of a scan are the midnights
of these days on the server's clock. A `DATE` column keeps the days themselves only when
that clock agrees with UTC.
-/
namespace PinoyTax.Compliance
open PinoyTax Foundation Calendar

/-! ## Filings -/

structure Filing where
  formCode : String
  agency : Agency
  firstDay : ℤ
  lastDay : ℤ
  dueDay : ℤ
deriving DecidableEq, Repr

/-- The days of a quarter, quarters counted from the year 0 on. -/
def quarterStart (quarter : ℤ) : ℤ := firstOfMonth (quarter * 3)
def quarterEnd (quarter : ℤ) : ℤ := firstOfMonth (quarter * 3 + 3) - 1
def monthEnd (month : ℤ) : ℤ := firstOfMonth (month + 1) - 1

def quarterOf (day : ℤ) : ℤ := monthOf day / 3

def salesTaxForm (vatClassification : VatClassification) : String :=
  if vatClassification = .vat then "2550Q" else "2551Q"

def incomeTaxForm (businessType : BusinessType) : String :=
  if businessType = .corporation ∨ businessType = .opc then "1702Q" else "1701Q"

def salesTaxFiling (company : Company) (quarter : ℤ) : Filing :=
  ⟨salesTaxForm company.vatClassification,.bir,quarterStart quarter,quarterEnd quarter,quarterEnd quarter + 25⟩

def incomeTaxFiling (company : Company) (quarter : ℤ) : Filing :=
  ⟨incomeTaxForm company.businessType,.bir,quarterStart quarter,quarterEnd quarter,quarterEnd quarter + 60⟩

def monthlyFilings (month : ℤ) : List Filing :=
  [⟨"1601C",.bir,firstOfMonth month,monthEnd month,monthEnd month + 10⟩,
    ⟨"0619E",.bir,firstOfMonth month,monthEnd month,monthEnd month + 10⟩,
    ⟨"SSS_CONTRIBUTION",.sss,firstOfMonth month,monthEnd month,monthEnd month + 30⟩,
    ⟨"PHILHEALTH_CONTRIBUTION",.philhealth,firstOfMonth month,monthEnd month,monthEnd month + 20⟩,
    ⟨"PAGIBIG_CONTRIBUTION",.pagibig,firstOfMonth month,monthEnd month,monthEnd month + 15⟩]

/-- The filings that a company is expected to make, seen from a day: those of the quarter and the
three after it, and with employees those of the month and the eleven after it. -/
def expectedFilings (company : Company) (activeEmployeeCount : ℕ) (day : ℤ) : List Filing :=
  (List.range 4).map (fun q : ℕ => salesTaxFiling company (quarterOf day + q)) ++
    (List.range 4).map (fun q : ℕ => incomeTaxFiling company (quarterOf day + q)) ++
    (if activeEmployeeCount > 0 then (List.range 12).flatMap (fun m : ℕ => monthlyFilings (monthOf day + m)) else [])

/-! ## The keys of the filings -/

def filingKey (f : Filing) : String × ℤ × ℤ := (f.formCode,f.firstDay,f.lastDay)

theorem nodup_quarterly (f : ℤ → Filing) (hf : ∀ quarter, (f quarter).firstDay = quarterStart quarter) (quarter : ℤ)
    (n : ℕ) : (((List.range n).map fun q : ℕ => f (quarter + q)).map filingKey).Nodup := by
  rw [List.map_map]
  refine List.Nodup.map ?_ List.nodup_range
  intro p q hpq
  have hstart : quarterStart (quarter + p) = quarterStart (quarter + q) := by
    rw [← hf,← hf]
    exact congrArg (fun k => k.2.1) hpq
  have hmonth := firstOfMonth_inj.mp hstart
  omega

/-- The forms of the three kinds of filings. -/
def salesTaxForms : List String := ["2550Q","2551Q"]
def incomeTaxForms : List String := ["1702Q","1701Q"]
def monthlyForms : List String := ["1601C","0619E","SSS_CONTRIBUTION","PHILHEALTH_CONTRIBUTION","PAGIBIG_CONTRIBUTION"]

theorem mem_monthlyFilings {month : ℤ} {f : Filing} (hf : f ∈ monthlyFilings month) :
    f.firstDay = firstOfMonth month ∧ f.formCode ∈ monthlyForms := by
  simp only [monthlyFilings,List.mem_cons,List.not_mem_nil,or_false] at hf
  rcases hf with rfl | rfl | rfl | rfl | rfl <;> simp [monthlyForms]

theorem nodup_monthly (month : ℤ) (n : ℕ) :
    (((List.range n).flatMap fun m : ℕ => monthlyFilings (month + m)).map filingKey).Nodup := by
  rw [List.map_flatMap,List.nodup_flatMap]
  constructor
  · intro m _
    simp [monthlyFilings,filingKey]
  · refine List.nodup_range.imp ?_
    intro p q hpq k hk hk'
    obtain ⟨f,hf,rfl⟩ := List.mem_map.mp hk
    obtain ⟨g,hg,hfg⟩ := List.mem_map.mp hk'
    have hstart : firstOfMonth (month + q) = firstOfMonth (month + p) := by
      rw [← (mem_monthlyFilings hf).1,← (mem_monthlyFilings hg).1]
      exact congrArg (fun k => k.2.1) hfg
    have hmonth := firstOfMonth_inj.mp hstart
    omega

/-- Filings under forms of different lists have different keys. -/
theorem disjoint_filingKey {fs gs : List Filing} {forms forms' : List String} (hf : ∀ f ∈ fs, f.formCode ∈ forms)
    (hg : ∀ g ∈ gs, g.formCode ∈ forms') (h : ∀ form ∈ forms, form ∉ forms') :
    (fs.map filingKey).Disjoint (gs.map filingKey) := by
  intro k hk hk'
  obtain ⟨f,hmem,rfl⟩ := List.mem_map.mp hk
  obtain ⟨g,hmem',hfg⟩ := List.mem_map.mp hk'
  have hform : g.formCode = f.formCode := congrArg Prod.fst hfg
  exact h f.formCode (hf f hmem) (hform ▸ hg g hmem')

/-- Expected filings differ in their form or in their period. -/
theorem nodup_expectedFilings (company : Company) (activeEmployeeCount : ℕ) (day : ℤ) :
    ((expectedFilings company activeEmployeeCount day).map filingKey).Nodup := by
  have hsales : ∀ f ∈ (List.range 4).map (fun q : ℕ => salesTaxFiling company (quarterOf day + q)),
      f.formCode ∈ salesTaxForms := by
    intro f hf
    obtain ⟨q,-,rfl⟩ := List.mem_map.mp hf
    unfold salesTaxFiling salesTaxForm
    split <;> simp [salesTaxForms]
  have hincome : ∀ f ∈ (List.range 4).map (fun q : ℕ => incomeTaxFiling company (quarterOf day + q)),
      f.formCode ∈ incomeTaxForms := by
    intro f hf
    obtain ⟨q,-,rfl⟩ := List.mem_map.mp hf
    unfold incomeTaxFiling incomeTaxForm
    split <;> simp [incomeTaxForms]
  have hmonthly : ∀ f ∈ (List.range 12).flatMap (fun m : ℕ => monthlyFilings (monthOf day + m)),
      f.formCode ∈ monthlyForms := by
    intro f hf
    obtain ⟨m,-,hf⟩ := List.mem_flatMap.mp hf
    exact (mem_monthlyFilings hf).2
  have hquarterly := (nodup_quarterly (salesTaxFiling company) (fun _ => rfl) (quarterOf day) 4).append
    (nodup_quarterly (incomeTaxFiling company) (fun _ => rfl) (quarterOf day) 4)
    (disjoint_filingKey hsales hincome (by decide))
  rw [← List.map_append] at hquarterly
  unfold expectedFilings
  split
  · have hforms : ∀ f ∈ (List.range 4).map (fun q : ℕ => salesTaxFiling company (quarterOf day + q)) ++
        (List.range 4).map (fun q : ℕ => incomeTaxFiling company (quarterOf day + q)),
        f.formCode ∈ salesTaxForms ++ incomeTaxForms := by
      intro f hf
      rcases List.mem_append.mp hf with hf | hf
      · exact List.mem_append_left _ (hsales f hf)
      · exact List.mem_append_right _ (hincome f hf)
    rw [List.map_append]
    exact hquarterly.append (nodup_monthly _ 12) (disjoint_filingKey hforms hmonthly (by decide))
  · rw [List.append_nil]
    exact hquarterly

/-! ## Candidates are filings on the server's clock -/

section
variable (offset : ℤ)

def Filing.candidate (f : Filing) : Candidate :=
  ⟨f.formCode,f.agency,midnight offset f.firstDay,midnight offset f.lastDay,midnight offset f.dueDay⟩

theorem getQuarter_eq (reference : DateTime) (quartersAhead : ℕ) :
    getQuarter offset reference quartersAhead =
      (midnight offset (quarterStart (quarterOf (localDays offset reference) + quartersAhead)),
        midnight offset (quarterEnd (quarterOf (localDays offset reference) + quartersAhead))) := by
  unfold getQuarter quarterStart quarterEnd quarterOf monthOf localCivil
  generalize civilOfDays (localDays offset reference) = c
  have hstart : c.year * 12 + (c.month / 3 * 3 + quartersAhead * 3) = ((c.year * 12 + c.month) / 3 + quartersAhead) * 3 := by
    omega
  have hend : c.year * 12 + (c.month / 3 * 3 + quartersAhead * 3 + 3) =
      ((c.year * 12 + c.month) / 3 + quartersAhead) * 3 + 3 := by omega
  dsimp only
  rw [localDate_one,localDate_zero,hstart,hend]

theorem getMonth_eq (reference : DateTime) (monthsAhead : ℕ) :
    getMonth offset reference monthsAhead =
      (midnight offset (firstOfMonth (monthOf (localDays offset reference) + monthsAhead)),
        midnight offset (monthEnd (monthOf (localDays offset reference) + monthsAhead))) := by
  unfold getMonth monthEnd monthOf localCivil
  generalize civilOfDays (localDays offset reference) = c
  have hstart : c.year * 12 + (c.month + monthsAhead) = c.year * 12 + c.month + monthsAhead := by omega
  have hend : c.year * 12 + (c.month + monthsAhead + 1) = c.year * 12 + c.month + monthsAhead + 1 := by omega
  dsimp only
  rw [localDate_one,localDate_zero,hstart,hend]

/-- The end of a month is the end of its own month. -/
theorem endOfMonth_monthEnd (month : ℤ) :
    endOfMonth offset (midnight offset (monthEnd month)) = midnight offset (monthEnd month) := by
  have hmonth : monthOf (monthEnd month) = month := monthOf_firstOfMonth_sub_one month
  have hnext : (civilOfDays (monthEnd month)).year * 12 + ((civilOfDays (monthEnd month)).month + 1) = month + 1 := by
    unfold monthOf at hmonth
    omega
  unfold endOfMonth localCivil
  rw [localDays_midnight]
  dsimp only
  rw [localDate_zero,hnext]
  rfl

theorem endOfMonth_quarterEnd (quarter : ℤ) :
    endOfMonth offset (midnight offset (quarterEnd quarter)) = midnight offset (quarterEnd quarter) := by
  have hlast : quarterEnd quarter = monthEnd (quarter * 3 + 2) := by
    unfold quarterEnd monthEnd
    rw [Int.add_assoc]
    norm_num
  rw [hlast,endOfMonth_monthEnd]

theorem addDays_midnight (day days : ℤ) : addDays offset (midnight offset day) days = midnight offset (day + days) := by
  unfold addDays
  rw [setDate_add]
  unfold midnight millisPerDay
  linarith

theorem salesTaxDeadline_eq (company : Company) (today : DateTime) (q : ℕ) : salesTaxDeadline offset company today q =
    (salesTaxFiling company (quarterOf (localDays offset today) + q)).candidate offset := by
  rw [salesTaxDeadline,getQuarter_eq,endOfMonth_quarterEnd,addDays_midnight]
  rfl

theorem incomeTaxDeadline_eq (company : Company) (today : DateTime) (q : ℕ) : incomeTaxDeadline offset company today q =
    (incomeTaxFiling company (quarterOf (localDays offset today) + q)).candidate offset := by
  rw [incomeTaxDeadline,getQuarter_eq,addDays_midnight]
  rfl

theorem monthlyDeadlines_eq (today : DateTime) (m : ℕ) : monthlyDeadlines offset today m =
    (monthlyFilings (monthOf (localDays offset today) + m)).map (Filing.candidate offset) := by
  simp only [monthlyDeadlines,getMonth_eq,endOfMonth_monthEnd,addDays_midnight]
  rfl

theorem candidates_eq (company : Company) (activeEmployeeCount : ℕ) (today : DateTime) :
    candidates offset company activeEmployeeCount today =
      (expectedFilings company activeEmployeeCount (localDays offset today)).map (Filing.candidate offset) := by
  rw [candidates,expectedFilings,List.map_append,List.map_append,List.map_map,List.map_map]
  congr 1
  · congr 1
    · exact List.map_congr_left fun q _ => salesTaxDeadline_eq offset company today q
    · exact List.map_congr_left fun q _ => incomeTaxDeadline_eq offset company today q
  · split
    · rw [List.map_flatMap]
      exact List.flatMap_congr fun m _ => monthlyDeadlines_eq offset today m
    · rfl

/-! ## What the columns keep -/

/-- The `DATE` column of a local midnight holds a day that is some days off, the same for all. -/
theorem dateColumn_midnight (day : ℤ) : dateColumn (midnight offset day) = (day + -offset / msPerDay) * msPerDay := by
  unfold dateColumn midnight millisPerDay msPerDay
  have hdays : (day * 86400000 - offset) / 86400000 = day + -offset / 86400000 := by omega
  rw [hdays]

theorem dateColumn_midnight_inj {i j : ℤ} :
    dateColumn (midnight offset i) = dateColumn (midnight offset j) ↔ i = j := by
  rw [dateColumn_midnight,dateColumn_midnight]
  change @Eq ℤ _ _ ↔ _
  unfold msPerDay
  omega

/-- The column gives a local midnight back when the server's day is a day of UTC. -/
theorem dateColumn_midnight_eq_self_iff {day : ℤ} :
    dateColumn (midnight offset day) = midnight offset day ↔ msPerDay ∣ offset := by
  rw [dateColumn_midnight]
  change @Eq ℤ _ _ ↔ _
  unfold midnight millisPerDay msPerDay
  omega

/-- The row holds the days of the filing, and its key is the one the candidate is looked up by. -/
structure Keeps (row : FilingDeadline) (c : Candidate) (f : Filing) : Prop where
  periodStart : row.periodStart = f.firstDay * msPerDay
  periodEnd : row.periodEnd = f.lastDay * msPerDay
  dueDate : row.dueDate = f.dueDay * msPerDay
  found : existsAlready [row] c = true

theorem keeps_deadlineRow_iff (companyId id : Uuid) (today : DateTime) (f : Filing) :
    Keeps (deadlineRow companyId today id (f.candidate offset)) (f.candidate offset) f ↔ offset = 0 := by
  have hfound : existsAlready [deadlineRow companyId today id (f.candidate offset)] (f.candidate offset) = true ↔
      msPerDay ∣ offset := by
    simp [existsAlready,deadlineRow,Filing.candidate,dateColumn_midnight_eq_self_iff]
  have hday (day : ℤ) : dateColumn (midnight offset day) = day * msPerDay ↔ -offset / msPerDay = 0 := by
    rw [dateColumn_midnight]
    change @Eq ℤ _ _ ↔ _
    unfold msPerDay
    omega
  have hzero : -offset / msPerDay = 0 ∧ msPerDay ∣ offset ↔ offset = 0 := by
    unfold msPerDay
    omega
  rw [← hzero]
  constructor
  · intro h
    exact ⟨(hday f.firstDay).mp h.periodStart,hfound.mp h.found⟩
  · rintro ⟨hdays,hdvd⟩
    exact ⟨(hday _).mpr hdays,(hday _).mpr hdays,(hday _).mpr hdays,hfound.mpr hdvd⟩

/-- Whatever the scan and its day, the rows it makes hold the calendar days of the expected filings
under keys that a later scan looks up exactly when the server's clock is that of UTC. -/
theorem storedDates_iff (company : Company) (activeEmployeeCount : ℕ) (today : DateTime) (companyId : Uuid) :
    List.Forall₂ (fun c f => ∀ id, Keeps (deadlineRow companyId today id c) c f)
        (candidates offset company activeEmployeeCount today)
        (expectedFilings company activeEmployeeCount (localDays offset today)) ↔ offset = 0 := by
  rw [candidates_eq,List.forall₂_map_left_iff]
  have hkeeps (f : Filing) : (∀ id, Keeps (deadlineRow companyId today id (f.candidate offset)) (f.candidate offset) f) ↔
      offset = 0 := by
    simp only [keeps_deadlineRow_iff,forall_const]
  simp only [hkeeps,List.forall₂_same]
  constructor
  · intro h
    have hfirst : salesTaxFiling company (quarterOf (localDays offset today) + (0 : ℕ)) ∈
        expectedFilings company activeEmployeeCount (localDays offset today) := by
      refine List.mem_append_left _ (List.mem_append_left _ (List.mem_map.mpr ⟨0,?_,rfl⟩))
      rw [List.mem_range]
      omega
    exact h _ hfirst
  · intro h f _
    exact h

/-- A sole proprietorship, not registered for VAT. -/
def sariSariStore : Company :=
  ⟨300,none,"Aling Nena",none,.sole_prop,.non_vat,"000-000-001",none,none,none,none⟩

/-- On 10 January 2026 at nine in the morning in Manila, eight hours before UTC. -/
theorem manila_not_keeps : ¬ List.Forall₂ (fun c f => ∀ id, Keeps (deadlineRow 300 1768006800000 id c) c f)
    (candidates 28800000 sariSariStore 0 1768006800000)
    (expectedFilings sariSariStore 0 (localDays 28800000 1768006800000)) := by
  rw [candidates_eq,List.forall₂_map_left_iff,List.forall₂_same]
  intro h
  have hfirst : salesTaxFiling sariSariStore 8104 ∈
      expectedFilings sariSariStore 0 (localDays 28800000 1768006800000) := by decide +kernel
  have hkeeps := (keeps_deadlineRow_iff 28800000 300 0 1768006800000 _).mp (h _ hfirst 0)
  exact absurd hkeeps (by decide)

end
end PinoyTax.Compliance
