import PinoyTax.Compliance.Scans
import PinoyTax.Firm.OverdueFilings

/-! # Statuses follow the due dates

With the server's clock in UTC a due date is a day of the calendar. The job compares it
with the day that has begun, a scan with the instant at which it runs, and no filing that
a scan expects is due on the day of the scan or before. So on a day on which the job has
run, each status says how the due date lies to that day.
-/
namespace PinoyTax.Notifications
open PinoyTax Foundation Calendar Compliance Firm

/-! ## Days -/

def timeOf : ComplianceRun → DateTime
  | .scan _ _ now => now
  | .dailyJob now => now

/-- The day of a run in UTC. -/
def dayOf (r : ComplianceRun) : ℤ := localDays 0 (timeOf r)

/-- The calendar day that the column of the due date holds. -/
def dueDay (d : FilingDeadline) : ℤ := d.dueDate / msPerDay

theorem startOfDay_eq (offset : ℤ) (now : DateTime) : startOfDay offset now = midnight offset (localDays offset now) := by
  unfold startOfDay localDate localCivil midnight
  dsimp only
  rw [makeDay_civilOfDays]
  congr 2
  omega

theorem localDays_mono {offset : ℤ} {t u : DateTime} (h : t ≤ u) : localDays offset t ≤ localDays offset u := by
  apply Int.ediv_le_ediv
  · decide
  · exact Int.add_le_add_right h offset

/-- Every expected filing is due after the day from which it is expected. -/
theorem lt_dueDay_of_mem {company : Company} {activeEmployeeCount : ℕ} {day : ℤ} {f : Filing}
    (h : f ∈ expectedFilings company activeEmployeeCount day) : day < f.dueDay := by
  obtain ⟨-,hlast⟩ := monthOf_spec day
  have hquarter (q : ℕ) : day ≤ quarterEnd (quarterOf day + q) := by
    have hle : firstOfMonth (monthOf day + 1) ≤ firstOfMonth ((quarterOf day + q) * 3 + 3) := by
      apply strictMono_firstOfMonth.monotone
      unfold quarterOf
      omega
    unfold quarterEnd
    omega
  have hmonth (m : ℕ) : day ≤ monthEnd (monthOf day + m) := by
    have hle : firstOfMonth (monthOf day + 1) ≤ firstOfMonth (monthOf day + m + 1) := by
      apply strictMono_firstOfMonth.monotone
      omega
    unfold monthEnd
    omega
  rcases List.mem_append.mp h with h | h
  · rcases List.mem_append.mp h with h | h
    · obtain ⟨q,-,rfl⟩ := List.mem_map.mp h
      have hq := hquarter q
      unfold salesTaxFiling
      dsimp only
      omega
    · obtain ⟨q,-,rfl⟩ := List.mem_map.mp h
      have hq := hquarter q
      unfold incomeTaxFiling
      dsimp only
      omega
  · split at h
    · obtain ⟨m,-,hf⟩ := List.mem_flatMap.mp h
      have hm := hmonth m
      simp only [monthlyFilings,List.mem_cons,List.not_mem_nil,or_false] at hf
      rcases hf with rfl | rfl | rfl | rfl | rfl
      all_goals dsimp only; omega
    · cases h

/-- A row that a scan makes of an expected filing is upcoming. -/
theorem status_of_expected {offset : ℤ} {company : Company} {activeEmployeeCount : ℕ} {now : DateTime} {f : Filing}
    (h : f ∈ expectedFilings company activeEmployeeCount (localDays offset now)) (companyId id : Uuid) :
    (deadlineRow companyId now id (f.candidate offset)).status = .upcoming := by
  have hlate := lt_dueDay_of_mem h
  have hlast := (midnight_localDays_le offset now).2
  have hle : Calendar.midnight offset (localDays offset now + 1) ≤ Calendar.midnight offset f.dueDay := by
    unfold Calendar.midnight millisPerDay
    omega
  unfold deadlineRow Filing.candidate
  dsimp only
  rw [if_neg (not_lt.mpr (hlast.le.trans hle))]

/-! ## One deadline -/

/-- The status says how the due date lies to the day. -/
def Settled (day : ℤ) (d : FilingDeadline) : Prop :=
  d.status ≠ .filed → (d.status = .overdue ↔ dueDay d < day) ∧ (d.status = .due_today ↔ dueDay d = day) ∧
    (d.status = .upcoming ↔ day < dueDay d)

/-- The status is not ahead of the day. -/
structure Timely (day : ℤ) (d : FilingDeadline) : Prop where
  midnight : d.dueDate = dueDay d * msPerDay
  overdue : d.status = .overdue → dueDay d < day
  dueToday : d.status = .due_today → dueDay d ≤ day

theorem Timely.mono {day day' : ℤ} {d : FilingDeadline} (h : Timely day d) (hle : day ≤ day') : Timely day' d := by
  refine ⟨h.midnight,fun hd => ?_,fun hd => ?_⟩
  · have hlt := h.overdue hd
    omega
  · have hdue := h.dueToday hd
    omega

/-- The deadline after the job. -/
def moveOn (today : DateTime) (d : FilingDeadline) : FilingDeadline :=
  if isPastDue today d then setFilingStatus .overdue d
  else if isDueToday today d then setFilingStatus .due_today d else d

theorem movedOn_eq_map (today : DateTime) (deadlines : List FilingDeadline) :
    movedOn today deadlines = deadlines.map (moveOn today) := by
  unfold movedOn Table.updateMany
  rw [List.map_map]
  apply List.map_congr_left
  intro d _
  unfold moveOn
  rw [Function.comp_apply]
  by_cases hpast : isPastDue today d = true
  · simp [hpast,isDueToday,setFilingStatus]
  · simp [hpast]

/-- The two conditions of the job are about the day. -/
theorem isPastDue_iff {day : ℤ} {d : FilingDeadline} (h : Timely day d) (day' : ℤ) :
    isPastDue (Calendar.midnight 0 day') d = true ↔ dueDay d < day' ∧ (d.status = .upcoming ∨ d.status = .due_today) := by
  have hlt : d.dueDate < Calendar.midnight 0 day' ↔ dueDay d < day' := by
    rw [h.midnight]
    change @LT.lt ℤ _ _ _ ↔ _
    unfold Calendar.midnight millisPerDay msPerDay
    omega
  simp [isPastDue,hlt]

theorem isDueToday_iff {day : ℤ} {d : FilingDeadline} (h : Timely day d) (day' : ℤ) :
    isDueToday (Calendar.midnight 0 day') d = true ↔ dueDay d = day' ∧ d.status = .upcoming := by
  have hle : Calendar.midnight 0 day' ≤ d.dueDate ↔ day' ≤ dueDay d := by
    rw [h.midnight]
    unfold Calendar.midnight millisPerDay msPerDay
    omega
  have hlt : d.dueDate < Calendar.midnight 0 day' + msPerDay ↔ dueDay d < day' + 1 := by
    rw [h.midnight]
    change @LT.lt ℤ _ _ _ ↔ _
    unfold Calendar.midnight millisPerDay msPerDay
    omega
  simp only [isDueToday,hle,hlt,Bool.and_eq_true,decide_eq_true_eq,beq_iff_eq]
  constructor
  · rintro ⟨⟨h0,h1⟩,hstatus⟩
    exact ⟨by omega,hstatus⟩
  · rintro ⟨rfl,hstatus⟩
    exact ⟨⟨le_rfl,by omega⟩,hstatus⟩

/-- The job settles a deadline for its day. -/
theorem Timely.settled_moveOn {day day' : ℤ} {d : FilingDeadline} (h : Timely day d) (hle : day ≤ day') :
    Settled day' (moveOn (Calendar.midnight 0 day') d) ∧ Timely day' (moveOn (Calendar.midnight 0 day') d) := by
  unfold moveOn
  by_cases hpast : isPastDue (Calendar.midnight 0 day') d = true
  · have hdue := ((isPastDue_iff h day').mp hpast).1
    rw [if_pos hpast]
    have hsame : dueDay (setFilingStatus .overdue d) = dueDay d := rfl
    refine ⟨fun _ => ?_,h.midnight,fun _ => hdue,fun hstatus => by cases hstatus⟩
    rw [hsame]
    simp only [setFilingStatus,reduceCtorEq,false_iff,true_iff]
    omega
  · rw [if_neg hpast]
    by_cases htoday : isDueToday (Calendar.midnight 0 day') d = true
    · have hdue := ((isDueToday_iff h day').mp htoday).1
      rw [if_pos htoday]
      have hsame : dueDay (setFilingStatus .due_today d) = dueDay d := rfl
      refine ⟨fun _ => ?_,h.midnight,(fun hstatus => by cases hstatus),fun _ => hdue.le⟩
      rw [hsame]
      simp only [setFilingStatus,reduceCtorEq,false_iff,true_iff]
      omega
    · rw [if_neg htoday]
      rw [isPastDue_iff h] at hpast
      rw [isDueToday_iff h] at htoday
      refine ⟨fun hfiled => ?_,h.mono hle⟩
      have hover := h.overdue
      have hdue := h.dueToday
      cases hstatus : d.status with
      | upcoming =>
        simp only [hstatus,reduceCtorEq,false_iff,true_iff,true_or,and_true] at *
        omega
      | due_today =>
        simp only [hstatus,reduceCtorEq,false_iff,true_iff,or_true,and_true,forall_const] at *
        omega
      | overdue =>
        simp only [hstatus,reduceCtorEq,false_iff,true_iff,forall_const] at *
        omega
      | filed => exact absurd hstatus hfiled

/-- A deadline that a scan adds is settled for the day of the scan. -/
theorem settled_deadlineRow {company : Company} {activeEmployeeCount : ℕ} {now : DateTime} {f : Filing}
    (h : f ∈ expectedFilings company activeEmployeeCount (localDays 0 now)) (companyId id : Uuid) :
    Settled (localDays 0 now) (deadlineRow companyId now id (f.candidate 0)) ∧
      Timely (localDays 0 now) (deadlineRow companyId now id (f.candidate 0)) := by
  have hlate := lt_dueDay_of_mem h
  have hcolumn : dateColumn (Calendar.midnight 0 f.dueDay) = f.dueDay * msPerDay := by
    rw [dateColumn_midnight]
    simp
  have hday : dueDay (deadlineRow companyId now id (f.candidate 0)) = f.dueDay := by
    unfold dueDay deadlineRow Filing.candidate
    dsimp only
    rw [hcolumn]
    exact Int.mul_ediv_cancel _ (by decide)
  have hstatus : (deadlineRow companyId now id (f.candidate 0)).status = .upcoming := status_of_expected h companyId id
  constructor
  · intro _
    rw [hstatus,hday]
    simp only [reduceCtorEq,false_iff,true_iff]
    omega
  · refine ⟨?_,fun hd => ?_,fun hd => ?_⟩
    · rw [hday]
      exact hcolumn
    · rw [hstatus] at hd
      cases hd
    · rw [hstatus] at hd
      cases hd

/-! ## Runs -/

/-- What each run does to the table. -/
theorem deadlines_next (s : Store) (r : ComplianceRun) :
    (∃ now, r = .dailyJob now ∧ (r.next 0 s).compliance.filingDeadlines =
        s.compliance.filingDeadlines.map (moveOn (Calendar.midnight 0 (dayOf r)))) ∨
      ∃ rows, (r.next 0 s).compliance.filingDeadlines = s.compliance.filingDeadlines ++ rows ∧
        (∀ now, r ≠ .dailyJob now) ∧ ∀ d ∈ rows, Settled (dayOf r) d ∧ Timely (dayOf r) d := by
  cases r with
  | dailyJob now =>
    refine .inl ⟨now,rfl,?_⟩
    rw [ComplianceRun.next_dailyJob,startOfDay_eq]
    exact movedOn_eq_map _ _
  | scan companyId draw now =>
    right
    have hscan := deadlines_runComplianceScan 0 companyId draw now s
    refine ⟨_,hscan,nofun,?_⟩
    cases s.org.companies.find? (fun c => c.id = companyId) with
    | none => simp
    | some company =>
      intro d hd
      obtain ⟨f,hf,id,-,rfl⟩ := mem_newDeadlines 0 companyId hd
      exact settled_deadlineRow hf companyId id

/-- The table after a run, on any day that no run of it is past. -/
theorem timely_after {s : Store} (hs : s.compliance.filingDeadlines = []) {runs : List ComplianceRun}
    (htimes : (runs.map timeOf).Pairwise (· ≤ ·)) {day : ℤ} (hday : ∀ r ∈ runs, dayOf r ≤ day) :
    (∀ d ∈ (runs.foldl (ComplianceRun.next 0) s).compliance.filingDeadlines, Timely day d) ∧
      ((∃ now, .dailyJob now ∈ runs ∧ localDays 0 now = day) →
        ∀ d ∈ (runs.foldl (ComplianceRun.next 0) s).compliance.filingDeadlines, Settled day d) := by
  induction runs using List.reverseRecOn generalizing day with
  | nil => simp [hs]
  | append_singleton runs r ih =>
    rw [List.map_append,List.pairwise_append] at htimes
    obtain ⟨htimes,-,hlater⟩ := htimes
    have hbefore : ∀ q ∈ runs, dayOf q ≤ dayOf r := fun q hq =>
      localDays_mono (hlater (timeOf q) (List.mem_map_of_mem hq) (timeOf r) (by simp))
    have hr : dayOf r ≤ day := hday r (by simp)
    obtain ⟨htimely,hsettled⟩ := ih htimes hbefore
    rw [List.foldl_append,List.foldl_cons,List.foldl_nil]
    generalize runs.foldl (ComplianceRun.next 0) s = t at *
    -- a job of that day makes the day of the last run that day
    have hsame (h : ∃ now, .dailyJob now ∈ runs ++ [r] ∧ localDays 0 now = day) : dayOf r = day := by
      obtain ⟨now,hmem,hnow⟩ := h
      rcases List.mem_append.mp hmem with hmem | hmem
      · have hle := hbefore _ hmem
        have hnow' : dayOf (.dailyJob now) = day := hnow
        omega
      · rw [← List.mem_singleton.mp hmem]
        exact hnow
    rcases deadlines_next t r with ⟨now,rfl,hmoved⟩ | ⟨rows,hadded,hscan,hrows⟩
    · rw [hmoved]
      constructor
      · intro d' hd'
        obtain ⟨d,hd,rfl⟩ := List.mem_map.mp hd'
        exact ((htimely d hd).settled_moveOn le_rfl).2.mono hr
      · intro h d' hd'
        obtain ⟨d,hd,rfl⟩ := List.mem_map.mp hd'
        have hmove := ((htimely d hd).settled_moveOn le_rfl).1
        rwa [← hsame h]
    · rw [hadded]
      constructor
      · intro d hd
        rcases List.mem_append.mp hd with hd | hd
        · exact (htimely d hd).mono hr
        · exact (hrows d hd).2.mono hr
      · intro h d hd
        have heq := hsame h
        obtain ⟨now,hmem,hnow⟩ := h
        rcases List.mem_append.mp hmem with hmem | hmem
        · rcases List.mem_append.mp hd with hd | hd
          · rw [← heq]
            exact hsettled ⟨now,hmem,hnow.trans heq.symm⟩ d hd
          · rw [← heq]
            exact (hrows d hd).1
        · exact absurd (List.mem_singleton.mp hmem).symm (hscan now)

/-- At any moment of a day on which the job has run, whatever scans and jobs came before and however
many days were left out, the status of each deadline that is not filed says how its due date lies. -/
theorem statuses_follow_dueDates {s : Store} (hs : s.compliance.filingDeadlines = []) {runs : List ComplianceRun}
    (htimes : (runs.map timeOf).Pairwise (· ≤ ·)) {day : ℤ} (hday : ∀ r ∈ runs, dayOf r ≤ day)
    (hjob : ∃ now, .dailyJob now ∈ runs ∧ localDays 0 now = day) :
    ∀ d ∈ (runs.foldl (ComplianceRun.next 0) s).compliance.filingDeadlines, Settled day d :=
  (timely_after hs htimes hday).2 hjob

/-- Two scans and two jobs with three months between them. -/
def watchedRuns : List ComplianceRun :=
  [firstScan,jobOn 20466,jobOn 20570,.scan 300 ⟨fun i => i + 100,fun i => i,fun i => i⟩ (20570 * msPerDay + 40000000)]

theorem statuses_follow_dueDates_watched : watched.compliance.filingDeadlines = [] ∧
    (watchedRuns.map timeOf).Pairwise (· ≤ ·) ∧
      ∀ d ∈ (watchedRuns.foldl (ComplianceRun.next 0) watched).compliance.filingDeadlines, Settled 20570 d := by
  have htimes : (watchedRuns.map timeOf).Pairwise (· ≤ ·) := by decide
  refine ⟨rfl,htimes,statuses_follow_dueDates rfl htimes (by decide) ⟨20570 * msPerDay + 21600000,?_,by decide⟩⟩
  simp [watchedRuns,jobOn]

end PinoyTax.Notifications
