import PinoyTax.Compliance.DuplicateFlags
import PinoyTax.Compliance.StatusRows
import PinoyTax.Compliance.Threshold

/-! # A second scan on the same day

On a server in UTC every row that a scan would insert is found by the next one: the
deadlines by their keys, the issues as open ones, the status rows by their category. What
is left to change is the time at which the status rows were computed.
-/
namespace PinoyTax.Compliance
open PinoyTax Foundation Calendar Repeats

def unstamped (r : ComplianceStatus) : ComplianceStatus := { r with lastComputedAt := 0 }

/-- The store but for the times at which its status rows were computed. -/
def withoutStamps (s : Store) : Store := Prisma.complianceStatus.set (s.compliance.complianceStatus.map unstamped) s

/-! ## Deadlines -/

section
variable {companyId : Uuid} {s : Store}

theorem isMissing_append (old new : List FilingDeadline) (c : Candidate) :
    isMissing companyId (old ++ new) c = (isMissing companyId old c && isMissing companyId new c) := by
  rw [isMissing,isMissing,isMissing,List.filter_append,existsAlready,List.any_append,Bool.not_or]
  rfl

/-- The row of a candidate is found under its key. -/
theorem isMissing_deadlineRow {rows : List FilingDeadline} {today : DateTime} {id : Uuid} {f : Filing}
    (h : deadlineRow companyId today id (f.candidate 0) ∈ rows) : isMissing companyId rows (f.candidate 0) = false := by
  have hkey (day : ℤ) : dateColumn (midnight 0 day) = midnight 0 day :=
    (dateColumn_midnight_eq_self_iff 0).mpr (dvd_zero _)
  rw [isMissing,Bool.not_eq_false',existsAlready,List.any_eq_true]
  refine ⟨_,List.mem_filter.mpr ⟨h,decide_eq_true rfl⟩,?_⟩
  simp [deadlineRow,Filing.candidate,hkey]

theorem newDeadlines_again {company : Company} {ids : ℕ → Uuid} {now now' : DateTime} {t : Store}
    (hday : localDays 0 now' = localDays 0 now)
    (ht : t.compliance.filingDeadlines = s.compliance.filingDeadlines ++ newDeadlines 0 companyId company ids now s)
    (hemployees : (activeEmployees t companyId).length = (activeEmployees s companyId).length) (ids' : ℕ → Uuid) :
    newDeadlines 0 companyId company ids' now' t = [] := by
  have hnone : (candidates 0 company (activeEmployees t companyId).length now').filter
      (isMissing companyId t.compliance.filingDeadlines) = [] := by
    rw [List.filter_eq_nil_iff]
    intro c hc hmissing
    rw [candidates_eq,hday,hemployees] at hc
    obtain ⟨f,hf,rfl⟩ := List.mem_map.mp hc
    rw [ht,isMissing_append,Bool.and_eq_true] at hmissing
    obtain ⟨id,hrow⟩ := exists_newDeadline 0 companyId ids hf hmissing.1
    rw [isMissing_deadlineRow hrow] at hmissing
    exact Bool.false_ne_true hmissing.2
  rw [newDeadlines,hnone]
  rfl

theorem nodup_newDeadlines (offset : ℤ) (company : Company) (ids : ℕ → Uuid) (now : DateTime) :
    ((newDeadlines offset companyId company ids now s).map deadlineKey).Nodup := by
  rw [newDeadlines,map_deadlineKey_rows]
  exact (nodup_storedKey offset company (activeEmployees s companyId).length now).sublist (List.filter_sublist.map _)

/-! ## Issues -/

/-- Issues were added and nothing else was done. -/
def Flags (s t : Store) : Prop :=
  ∃ issues, t = Prisma.flaggedIssue.set (s.compliance.flaggedIssues ++ issues) s

theorem Flags.refl (s : Store) : Flags s s := ⟨[],by rw [List.append_nil]; rfl⟩

theorem Flags.trans {s t u : Store} (h : Flags s t) (h' : Flags t u) : Flags s u := by
  obtain ⟨issues,rfl⟩ := h
  obtain ⟨issues',rfl⟩ := h'
  exact ⟨issues ++ issues',by rw [← List.append_assoc]; rfl⟩

/-- An issue that is looked up as it is made is found from then on. -/
theorem run_flagUnless_flags {alreadyFlagged : FlaggedIssue → Bool} {issue : FlaggedIssue} (hissue : alreadyFlagged issue = true)
    (s : Store) : ∃ t, (flagUnless alreadyFlagged issue).run s = (.ok (),t) ∧ Flags s t ∧
      ∃ i ∈ t.compliance.flaggedIssues, alreadyFlagged i = true := by
  rw [flagUnless,Prog.run_bind,TableRef.run_findFirst,Prog.resume_ok]
  cases hf : (Prisma.flaggedIssue.get s).find? alreadyFlagged with
  | some i => exact ⟨s,rfl,.refl s,i,List.mem_of_find?_eq_some hf,List.find?_some hf⟩
  | none => exact ⟨_,rfl,⟨[issue],rfl⟩,issue,List.mem_append_right _ List.mem_cons_self,hissue⟩

theorem run_flagUnless_found {alreadyFlagged : FlaggedIssue → Bool} (issue : FlaggedIssue)
    (hfound : ∃ i ∈ s.compliance.flaggedIssues, alreadyFlagged i = true) :
    (flagUnless alreadyFlagged issue).run s = (.ok (),s) := by
  obtain ⟨i,hi,hflagged⟩ := hfound
  rw [flagUnless,Prog.run_bind,TableRef.run_findFirst,Prog.resume_ok]
  cases hf : (Prisma.flaggedIssue.get s).find? alreadyFlagged with
  | some i => rfl
  | none => exact absurd hflagged (List.find?_eq_none.mp hf i hi)

/-- The check finds its own issue again. -/
theorem checkVatClassificationRisk_again (company : Company) (id id' : Uuid) (now now' : DateTime) (s : Store) :
    ∃ t, (checkVatClassificationRisk companyId company id now).run s = (.ok (),t) ∧ Flags s t ∧
      ∀ u : Store, u.taxEngine = s.taxEngine → (∀ i ∈ t.compliance.flaggedIssues, i ∈ u.compliance.flaggedIssues) →
        (checkVatClassificationRisk companyId company id' now').run u = (.ok (),u) := by
  simp only [run_checkVatClassificationRisk]
  cases hthreshold : comparedThreshold s.taxEngine.taxRules with
  | none =>
    refine ⟨s,rfl,.refl s,fun u hu _ => ?_⟩
    rw [hu,hthreshold]
    rfl
  | some threshold =>
    by_cases hcompany : company.vatClassification = .vat
    · refine ⟨s,?_,.refl s,fun u hu _ => ?_⟩
      · rw [checkedWith,checkAgainst,if_pos hcompany]
        rfl
      · rw [hu,hthreshold,checkedWith,checkAgainst,if_pos hcompany]
        rfl
    · have hsame (u : Store) (hu : u.taxEngine = s.taxEngine) :
          checkedWith (comparedThreshold u.taxEngine.taxRules) companyId company id' now' =
            checkAgainst threshold companyId company id' now' := by
        rw [hu,hthreshold,checkedWith]
      rw [checkedWith,run_checkAgainst hcompany]
      split
      · rename_i hexceeds
        have hissue : isOpenIssue companyId .vat_misclassification (vatIssue companyId
            (totalGrossSales companyId s.taxEngine.taxComputations) threshold id now) = true := by
          simp [isOpenIssue,vatIssue]
        obtain ⟨t,hrun,hflags,i,hi,hopen⟩ := run_flagUnless_flags hissue s
        refine ⟨t,hrun,hflags,fun u hu hmem => ?_⟩
        rw [hsame u hu,run_checkAgainst hcompany,hu,if_pos hexceeds]
        exact run_flagUnless_found _ ⟨i,hmem i hi,hopen⟩
      · rename_i hwithin
        refine ⟨s,rfl,.refl s,fun u hu _ => ?_⟩
        rw [hsame u hu,run_checkAgainst hcompany,hu,if_neg hwithin]

theorem flags_flagDuplicates (offset : ℤ) (now : DateTime) (ids : ℕ → Uuid) (seenPeriods : List String)
    (runs : List PayrollRun) (s : Store) :
    ∃ t, (flagDuplicates offset companyId now ids seenPeriods runs).run s = (.ok (),t) ∧ Flags s t := by
  induction runs generalizing ids seenPeriods s with
  | nil => exact ⟨s,rfl,.refl s⟩
  | cons run runs ih =>
    rw [flagDuplicates]
    split
    · have hissue : isFlaggedRun companyId run.id (duplicateIssue offset companyId run (ids 0) now) = true := by
        simp [isFlaggedRun,isOpenIssue,duplicateIssue]
      obtain ⟨t,hrun,hflags,-⟩ := run_flagUnless_flags hissue s
      obtain ⟨u,hrun',hflags'⟩ := ih (fun i => ids (i + 1)) (periodKey run :: seenPeriods) t
      exact ⟨u,by rw [Prog.run_bind,hrun,Prog.resume_ok,hrun'],hflags.trans hflags'⟩
    · exact ih _ _ s

/-- Runs that are flagged are not flagged again. -/
theorem run_flagDuplicates_found (offset : ℤ) (now : DateTime) (ids : ℕ → Uuid) (seenPeriods : List String)
    (runs : List PayrollRun) (hfound : ∀ r ∈ repeats periodKey seenPeriods runs, some r.id ∈ flaggedRuns companyId s) :
    (flagDuplicates offset companyId now ids seenPeriods runs).run s = (.ok (),s) := by
  induction runs generalizing ids seenPeriods with
  | nil => rfl
  | cons run runs ih =>
    rw [repeats] at hfound
    have hrest := ih (fun i => ids (i + 1)) (periodKey run :: seenPeriods)
      fun r hr => hfound r (List.mem_append_right _ hr)
    rw [flagDuplicates]
    split
    · rename_i hseen
      have hself : some run.id ∈ flaggedRuns companyId s := by
        apply hfound run
        rw [if_pos (List.contains_iff_mem.mp hseen)]
        exact List.mem_append_left _ List.mem_cons_self
      rw [Prog.run_bind,run_flagUnless_found _ (mem_flaggedRuns.mp hself),Prog.resume_ok,hrest]
    · exact hrest

theorem checkDuplicatePayrollRuns_again (offset : ℤ) (ids ids' : ℕ → Uuid) (now now' : DateTime) (s : Store) :
    ∃ t, (checkDuplicatePayrollRuns offset companyId ids now).run s = (.ok (),t) ∧ Flags s t ∧
      ∀ u : Store, u.payroll = s.payroll → (∀ i ∈ t.compliance.flaggedIssues, i ∈ u.compliance.flaggedIssues) →
        (checkDuplicatePayrollRuns offset companyId ids' now').run u = (.ok (),u) := by
  have hget (u : Store) (hu : u.payroll = s.payroll) : (Prisma.payrollRun.get u).filter (fun r => r.companyId = companyId) =
      runsOf companyId s := by
    rw [runsOf,← hu]
    rfl
  generalize hsorted : (runsOf companyId s).insertionSort (fun a b => a.periodStart ≤ b.periodStart) = runs
  obtain ⟨t,hrun,hflags⟩ := flags_flagDuplicates offset now ids [] runs s
  obtain ⟨t',hrun',hflagged⟩ := @run_flagDuplicates companyId s offset now ids [] runs
  rw [hrun] at hrun'
  obtain rfl : t = t' := congrArg Prod.snd hrun'
  refine ⟨t,?_,hflags,fun u hu hmem => ?_⟩
  · rw [checkDuplicatePayrollRuns,Prog.run_bind,TableRef.run_findMany,Prog.resume_ok,hget s rfl,hsorted]
    exact hrun
  · rw [checkDuplicatePayrollRuns,Prog.run_bind,TableRef.run_findMany,Prog.resume_ok,hget u hu,hsorted]
    apply run_flagDuplicates_found
    intro r hr
    have hold : some r.id ∈ flaggedRuns companyId t := by
      rw [hflagged,mem_foldl_note]
      exact .inr (List.mem_map_of_mem hr)
    obtain ⟨i,hi,hfound⟩ := mem_flaggedRuns.mp hold
    exact mem_flaggedRuns.mpr ⟨i,hmem i hi,hfound⟩

/-! ## Status rows -/

/-- The first row of the category holds these counts. -/
def Settled (companyId : Uuid) (bucket : String × Counts) (rows : List ComplianceStatus) : Prop :=
  ∃ r, (rows.map unstamped).find? (isStatusOf companyId bucket.1) = some r ∧ setCounts bucket.2 0 r = r

theorem map_id_unstamped (rows : List ComplianceStatus) :
    (rows.map unstamped).map ComplianceStatus.id = rows.map ComplianceStatus.id := by
  rw [List.map_map]
  rfl

theorem find?_unstamped (rows : List ComplianceStatus) (category : String) :
    (rows.map unstamped).find? (isStatusOf companyId category) =
      (rows.find? (isStatusOf companyId category)).map unstamped := by
  rw [List.find?_map]
  rfl

/-- Recording the counts that are there changes nothing but a time. -/
theorem unstamped_recorded {rows : List ComplianceStatus} {bucket : String × Counts} (hids : (rows.map ComplianceStatus.id).Nodup)
    (hsettled : Settled companyId bucket rows) (now : DateTime) (id : Uuid) :
    (recorded companyId now id bucket rows).map unstamped = rows.map unstamped := by
  obtain ⟨r,hr,hcounts⟩ := hsettled
  rw [find?_unstamped,Option.map_eq_some_iff] at hr
  obtain ⟨existing,hf,rfl⟩ := hr
  rw [recorded,hf]
  dsimp only
  rw [Table.updateMany,List.map_map]
  apply List.map_congr_left
  intro q hq
  rw [Function.comp_apply]
  split
  · rename_i hid
    obtain rfl := Table.eq_of_key hids hq (List.mem_of_find?_eq_some hf) (of_decide_eq_true hid)
    exact hcounts
  · rfl

theorem run_recordAll_settled (now : DateTime) (ids : ℕ → Uuid) (buckets : List (String × Counts)) (hids : StatusIds s)
    (hsettled : ∀ b ∈ buckets, Settled companyId b s.compliance.complianceStatus) :
    ∃ rows, (recordAll companyId now ids buckets).run s = (.ok (),Prisma.complianceStatus.set rows s) ∧
      rows.map unstamped = s.compliance.complianceStatus.map unstamped := by
  induction buckets generalizing ids s with
  | nil => exact ⟨s.compliance.complianceStatus,rfl,rfl⟩
  | cons b buckets ih =>
    have hsame := unstamped_recorded hids (hsettled b List.mem_cons_self) now (ids 0)
    have hrun := @recordCounts_eq companyId s now (ids 0) b
    generalize recorded companyId now (ids 0) b s.compliance.complianceStatus = rows at hsame hrun
    have hids' : StatusIds (Prisma.complianceStatus.set rows s) := by
      change (rows.map ComplianceStatus.id).Nodup
      rw [← map_id_unstamped,hsame,map_id_unstamped]
      exact hids
    have hrest : ∀ b ∈ buckets, Settled companyId b (Prisma.complianceStatus.set rows s).compliance.complianceStatus := by
      intro b' hb'
      obtain ⟨r,hr,hcounts⟩ := hsettled b' (List.mem_cons_of_mem _ hb')
      exact ⟨r,hsame ▸ hr,hcounts⟩
    obtain ⟨rows',hrun',hrows'⟩ := ih (fun i => ids (i + 1)) hids' hrest
    refine ⟨rows',?_,hrows'.trans hsame⟩
    rw [recordAll,Prog.run_bind,hrun,Prog.resume_ok,hrun']
    rfl

/-- A second recount of the same deadlines finds its counts. -/
theorem recomputeComplianceStatus_again {ids : ℕ → Uuid} {now : DateTime}
    (hwithin : Prog.Within StatusIds (recomputeComplianceStatus companyId ids now) s) (ids' : ℕ → Uuid) (now' : DateTime) :
    ∃ t u, (recomputeComplianceStatus companyId ids now).run s = (.ok (),t) ∧
      (∃ rows, t = Prisma.complianceStatus.set rows s) ∧
      (recomputeComplianceStatus companyId ids' now').run t = (.ok (),u) ∧ withoutStamps u = withoutStamps t := by
  have hids := hwithin.run
  obtain ⟨rows,hrun,hrows⟩ := run_recompute hwithin
  rw [hrun] at hids
  have hsettled : ∀ b ∈ byCategory (s.compliance.filingDeadlines.filter fun d => d.companyId = companyId),
      Settled companyId b rows := by
    intro b hb
    obtain ⟨r,hr⟩ := hrows.self b hb
    refine ⟨unstamped (setCounts b.2 now r),?_,rfl⟩
    rw [find?_unstamped,← List.head?_filter,hr]
    rfl
  obtain ⟨rows',hrun',hrows'⟩ := run_recordAll_settled (s := Prisma.complianceStatus.set rows s) now' ids' _ hids hsettled
  refine ⟨_,_,hrun,⟨rows,rfl⟩,hrun',?_⟩
  change Prisma.complianceStatus.set (rows'.map unstamped) _ = Prisma.complianceStatus.set (rows.map unstamped) _
  rw [hrows']
  rfl

/-! ## The whole scan -/

theorem rescan_of_company {draw : ScanDraw} {now : DateTime} {company : Company}
    (hcompany : s.org.companies.find? (fun c => c.id = companyId) = some company)
    (hids : Prog.Within StatusIds (runComplianceScan 0 companyId draw now) s) {now' : DateTime}
    (hday : localDays 0 now' = localDays 0 now) (draw' : ScanDraw) :
    withoutStamps ((runComplianceScan 0 companyId draw' now').run ((runComplianceScan 0 companyId draw now).run s).2).2 =
        withoutStamps ((runComplianceScan 0 companyId draw now).run s).2 := by
  have hrest := hids.of_bind_run (TableRef.run_findUnique (t := Prisma.company) _ s)
  have hget : Prisma.company.get s = s.org.companies := rfl
  rw [hget,hcompany] at hrest
  have hdeadlines := run_generateFilingDeadlines 0 companyId company draw.deadlineIds now s
  obtain ⟨s₂,hvat,⟨issues,rfl⟩,hvat'⟩ := @checkVatClassificationRisk_again companyId company (draw.issueIds 0)
    (draw'.issueIds 0) now now' (Prisma.filingDeadline.set
      (s.compliance.filingDeadlines ++ newDeadlines 0 companyId company draw.deadlineIds now s) s)
  obtain ⟨s₃,hduplicates,⟨issues',rfl⟩,hduplicates'⟩ := @checkDuplicatePayrollRuns_again companyId 0
    (fun i => draw.issueIds (i + 1)) (fun i => draw'.issueIds (i + 1)) now now' _
  have hwithin := ((hrest.of_bind_run hdeadlines).of_bind_run hvat).of_bind_run hduplicates
  obtain ⟨s₄,s₅,hstatus,⟨rows,rfl⟩,hstatus',hsame⟩ := recomputeComplianceStatus_again hwithin draw'.statusIds now'
  rw [run_runComplianceScan_some hcompany hdeadlines hvat hduplicates,hstatus]
  dsimp only
  generalize ht : Prisma.complianceStatus.set rows _ = t at hstatus' hsame ⊢
  -- No phase before the last finds anything to do again.
  have hcompany' : t.org.companies.find? (fun c => c.id = companyId) = some company := by
    rw [← ht]
    exact hcompany
  have hstored : t.compliance.filingDeadlines =
      s.compliance.filingDeadlines ++ newDeadlines 0 companyId company draw.deadlineIds now s := by
    rw [← ht]
    rfl
  have hemployees : (activeEmployees t companyId).length = (activeEmployees s companyId).length := by
    rw [← ht]
    rfl
  have hdeadlines' : (generateFilingDeadlines 0 companyId company draw'.deadlineIds now').run t = (.ok (),t) := by
    rw [run_generateFilingDeadlines,newDeadlines_again hday hstored hemployees,List.append_nil]
    rfl
  have hvat'' := hvat' t (ht ▸ rfl) fun i hi => ht ▸ List.mem_append_left issues' hi
  have hduplicates'' := hduplicates' t (ht ▸ rfl) fun i hi => ht ▸ hi
  rw [run_runComplianceScan_some hcompany' hdeadlines' hvat'' hduplicates'',hstatus']
  exact hsame

/-- On a server in UTC a second scan on the same day changes nothing but the times at which the status rows
were computed, and no scan inserts two deadlines for one form and period. -/
theorem rescan_withoutStamps {draw : ScanDraw} {now : DateTime}
    (hids : Prog.Within StatusIds (runComplianceScan 0 companyId draw now) s) {now' : DateTime}
    (hday : localDays 0 now' = localDays 0 now) (draw' : ScanDraw) :
    withoutStamps ((runComplianceScan 0 companyId draw' now').run ((runComplianceScan 0 companyId draw now).run s).2).2 =
        withoutStamps ((runComplianceScan 0 companyId draw now).run s).2 ∧
      ∃ rows, ((runComplianceScan 0 companyId draw now).run s).2.compliance.filingDeadlines =
          s.compliance.filingDeadlines ++ rows ∧ (rows.map deadlineKey).Nodup := by
  rw [deadlines_runComplianceScan]
  cases hcompany : s.org.companies.find? (fun c => c.id = companyId) with
  | none =>
    refine ⟨?_,[],rfl,List.nodup_nil⟩
    rw [run_runComplianceScan_none hcompany,run_runComplianceScan_none hcompany]
  | some company =>
    exact ⟨rescan_of_company hcompany hids hday draw',_,rfl,nodup_newDeadlines 0 company draw.deadlineIds now⟩

end

/-- A company with two payroll runs for one month. -/
def paidTwiceForJune : Store where
  org := threeDeadlines.org
  compliance := threeDeadlines.compliance
  payroll := (paidForJune [1,2]).payroll

/-- A scan on 10 January 2026, at this hour. -/
def scannedAtHour (n : ℕ) (hour : ℤ) (s : Store) : Store :=
  ((runComplianceScan 0 300 ⟨fun i => 100 * n + i,fun i => 100 * n + i,fun i => 100 * n + i⟩
    (20463 * msPerDay + hour * 3600000)).run s).2

theorem rescan_withoutStamps_paidTwice :
    withoutStamps (scannedAtHour 2 23 (scannedAtHour 1 9 paidTwiceForJune)) =
        withoutStamps (scannedAtHour 1 9 paidTwiceForJune) ∧
      ∃ rows, (scannedAtHour 1 9 paidTwiceForJune).compliance.filingDeadlines =
          paidTwiceForJune.compliance.filingDeadlines ++ rows ∧ (rows.map deadlineKey).Nodup :=
  rescan_withoutStamps (by decide +kernel) (by decide +kernel) _

end PinoyTax.Compliance
