import PinoyTax.Foundation.Repeats
import PinoyTax.Foundation.InstantTexts
import PinoyTax.Foundation.Runs
import PinoyTax.Compliance.Overdue
import PinoyTax.Compliance.Scans

/-! # Payroll runs for one period, scan after scan

The check flags a run whose period it has seen. The runs are ordered by the first day of
their period alone, so the database is free to return those of one period in another
order at the next scan. Every run that does not come first then has its open issue.
-/
namespace PinoyTax.Compliance
open PinoyTax Foundation Calendar Repeats

/-- A scan, and the payroll runs of the company as the database returns them to it. -/
structure OrderedScan where
  runs : List PayrollRun
  draw : ScanDraw
  now : DateTime

def period (run : PayrollRun) : DateTime × DateTime := (run.periodStart,run.periodEnd)

def periodText (p : DateTime × DateTime) : String := toISOString p.1 ++ "_" ++ toISOString p.2

theorem periodText_injective : Function.Injective periodText := by
  intro p q h
  obtain ⟨hstart,hend⟩ := toISOString_pair_inj h
  exact Prod.ext hstart hend

/-- The key of the check stands for the period. -/
theorem repeats_periodKey (runs : List PayrollRun) : repeats periodKey [] runs = repeats period [] runs := by
  have hkey : periodKey = fun run => periodText (period run) := rfl
  rw [hkey]
  exact @repeats_comp _ _ _ period runs [] _ _ _ periodText_injective

section
variable (companyId : Uuid)

def runsOf (s : Store) : List PayrollRun := s.payroll.payrollRuns.filter fun r => r.companyId = companyId

/-- Ordered by `periodStart`, and otherwise in any order. -/
structure Returned (s : Store) (runs : List PayrollRun) : Prop where
  perm : runs.Perm (runsOf companyId s)
  sorted : runs.Pairwise fun a b => a.periodStart ≤ b.periodStart

def reorder (runs : List PayrollRun) (s : Store) : Store :=
  Prisma.payrollRun.set (runs ++ s.payroll.payrollRuns.filter fun r => r.companyId ≠ companyId) s

def OrderedScan.next (offset : ℤ) (s : Store) (scan : OrderedScan) : Store :=
  ((runComplianceScan offset companyId scan.draw scan.now).run (reorder companyId scan.runs s)).2

/-- The runs of the company for the period of one. -/
def sharing (s : Store) (run : PayrollRun) : List PayrollRun :=
  (runsOf companyId s).filter fun r => period r = period run

/-- The open issues about some runs. -/
def duplicatesOf (runs : List PayrollRun) (s : Store) : List FlaggedIssue :=
  s.compliance.flaggedIssues.filter fun i =>
    isOpenIssue companyId .duplicate_transaction i && (runs.map fun r => some r.id).contains i.relatedEntityId

/-- All runs of a period but one have an open issue, and no run has two. -/
def DuplicatesCounted (s : Store) : Prop :=
  ∀ run ∈ runsOf companyId s,
    (duplicatesOf companyId (sharing companyId s run) s).length = (sharing companyId s run).length - 1 ∧
      ((duplicatesOf companyId (sharing companyId s run) s).map FlaggedIssue.relatedEntityId).Nodup

instance : DecidablePred (DuplicatesCounted companyId) := fun _ => inferInstanceAs (Decidable (∀ run ∈ _, _))

/-- The same run comes first for each period. -/
def SameFirst (runs runs' : List PayrollRun) : Prop := ∀ run ∈ runs, firstOf period runs' run = firstOf period runs run

instance (runs runs' : List PayrollRun) : Decidable (SameFirst runs runs') :=
  inferInstanceAs (Decidable (∀ run ∈ runs, _))

/-! ## The runs that are flagged -/

/-- What the open issues of the check are about. -/
def flaggedRuns (s : Store) : List (Option Uuid) :=
  (s.compliance.flaggedIssues.filter (isOpenIssue companyId .duplicate_transaction)).map FlaggedIssue.relatedEntityId

end

section
variable {companyId : Uuid} {s t : Store}

theorem map_duplicatesOf (runs : List PayrollRun) : (duplicatesOf companyId runs s).map FlaggedIssue.relatedEntityId =
    (flaggedRuns companyId s).filter fun x => (runs.map fun r => some r.id).contains x := by
  unfold duplicatesOf flaggedRuns
  rw [List.filter_map,List.filter_filter]
  congr 2
  funext i
  exact Bool.and_comm _ _

theorem mem_flaggedRuns {id : Uuid} : some id ∈ flaggedRuns companyId s ↔
    ∃ i ∈ s.compliance.flaggedIssues, isFlaggedRun companyId id i = true := by
  simp only [flaggedRuns,isFlaggedRun,List.mem_map,List.mem_filter,Bool.and_eq_true,decide_eq_true_eq,and_assoc]

/-- The check writes its run down once. -/
theorem run_flagUnless_duplicate (offset : ℤ) (run : PayrollRun) (id : Uuid) (now : DateTime) :
    ∃ t, (flagUnless (isFlaggedRun companyId run.id) (duplicateIssue offset companyId run id now)).run s = (.ok (),t) ∧
      flaggedRuns companyId t = note (flaggedRuns companyId s) (some run.id) := by
  have hget : Prisma.flaggedIssue.get s = s.compliance.flaggedIssues := rfl
  rw [flagUnless,Prog.run_bind,TableRef.run_findFirst,Prog.resume_ok,hget]
  cases hf : s.compliance.flaggedIssues.find? (isFlaggedRun companyId run.id) with
  | some i =>
    refine ⟨s,rfl,?_⟩
    rw [note,if_pos (mem_flaggedRuns.mpr ⟨i,List.mem_of_find?_eq_some hf,List.find?_some hf⟩)]
  | none =>
    have hnone : some run.id ∉ flaggedRuns companyId s := by
      rw [mem_flaggedRuns]
      rintro ⟨i,hi,hflagged⟩
      exact List.find?_eq_none.mp hf i hi hflagged
    have hopen : isOpenIssue companyId .duplicate_transaction (duplicateIssue offset companyId run id now) = true := by
      simp [isOpenIssue,duplicateIssue]
    refine ⟨_,rfl,?_⟩
    rw [note,if_neg hnone]
    simp only [flaggedRuns,Prisma.flaggedIssue,List.filter_append,List.map_append,List.filter_singleton,hopen]
    rfl

theorem run_flagDuplicates (offset : ℤ) (now : DateTime) (ids : ℕ → Uuid) (seenPeriods : List String)
    (runs : List PayrollRun) :
    ∃ t, (flagDuplicates offset companyId now ids seenPeriods runs).run s = (.ok (),t) ∧
      flaggedRuns companyId t =
        ((repeats periodKey seenPeriods runs).map fun r => some r.id).foldl note (flaggedRuns companyId s) := by
  induction runs generalizing ids seenPeriods s with
  | nil => exact ⟨s,rfl,rfl⟩
  | cons run runs ih =>
    rw [flagDuplicates,repeats]
    by_cases hseen : periodKey run ∈ seenPeriods
    · obtain ⟨t,hrun,ht⟩ := run_flagUnless_duplicate (s := s) offset run (ids 0) now
      obtain ⟨u,hrun',hu⟩ := ih (s := t) (fun i => ids (i + 1)) (periodKey run :: seenPeriods)
      rw [if_pos (List.contains_iff_mem.mpr hseen),if_pos hseen,Prog.run_bind,hrun,Prog.resume_ok]
      refine ⟨u,hrun',?_⟩
      rw [hu,ht]
      rfl
    · obtain ⟨u,hrun',hu⟩ := ih (s := s) (fun i => ids (i + 1)) (periodKey run :: seenPeriods)
      rw [if_neg (by simpa using hseen),if_neg hseen]
      exact ⟨u,hrun',hu⟩

/-- What the check depends on. -/
def duplicateView (companyId : Uuid) (s : Store) : List (Option Uuid) × List PayrollRun × List Company :=
  (flaggedRuns companyId s,s.payroll.payrollRuns,s.org.companies)

theorem run_checkDuplicatePayrollRuns (offset : ℤ) (ids : ℕ → Uuid) (now : DateTime) {runs : List PayrollRun}
    (hruns : runsOf companyId s = runs) (hsorted : runs.Pairwise fun a b => a.periodStart ≤ b.periodStart) :
    ∃ t, (checkDuplicatePayrollRuns offset companyId ids now).run s = (.ok (),t) ∧ flaggedRuns companyId t =
      ((repeats period [] runs).map fun r => some r.id).foldl note (flaggedRuns companyId s) := by
  have hget : (Prisma.payrollRun.get s).filter (fun r => r.companyId = companyId) = runs := hruns
  rw [checkDuplicatePayrollRuns,Prog.run_bind,TableRef.run_findMany,Prog.resume_ok,hget,
    List.Pairwise.insertionSort_eq hsorted,← repeats_periodKey]
  exact run_flagDuplicates offset now ids [] runs

/-- A scan that finds its company flags the repeated runs. -/
theorem view_runComplianceScan (offset : ℤ) (draw : ScanDraw) (now : DateTime) {runs : List PayrollRun}
    (hcompany : ∃ c ∈ s.org.companies, c.id = companyId) (hruns : runsOf companyId s = runs)
    (hsorted : runs.Pairwise fun a b => a.periodStart ≤ b.periodStart) :
    duplicateView companyId ((runComplianceScan offset companyId draw now).run s).2 =
      (((repeats period [] runs).map fun r => some r.id).foldl note (flaggedRuns companyId s),s.payroll.payrollRuns,
        s.org.companies) := by
  obtain ⟨c,hc,hid⟩ := hcompany
  have hview (p : Request Unit) (hp : p.Keeps (duplicateView companyId)) (u : Store) :
      duplicateView companyId (p.run u).2 = duplicateView companyId u := hp.run u
  cases hf : s.org.companies.find? (fun c => c.id = companyId) with
  | none => exact absurd hid (Table.find?_key_none hf c hc)
  | some company =>
    -- the statements before the check change nothing that it depends on
    have hdeadlines := hview _ (keeps_generateFilingDeadlines (fun _ _ => rfl) offset companyId company draw.deadlineIds now) s
    obtain ⟨s₁,hrun₁,-⟩ := grows_generateFilingDeadlines companyId offset company draw.deadlineIds now s
    rw [hrun₁] at hdeadlines
    have hvat := hview _ (keeps_checkVatClassificationRisk companyId company (draw.issueIds 0) now fun _ _ u => by
      simp [duplicateView,flaggedRuns,Prisma.flaggedIssue,List.filter_append,isOpenIssue,vatIssue]) s₁
    obtain ⟨s₂,hrun₂,-⟩ := grows_checkVatClassificationRisk companyId company (draw.issueIds 0) now s₁
    rw [hrun₂,hdeadlines] at hvat
    have hduplicates := Prog.Keeps.run (keeps_checkDuplicatePayrollRuns (g := fun s => (s.payroll.payrollRuns,s.org.companies))
      offset companyId now (fun _ _ _ => rfl) fun i => draw.issueIds (i + 1)) s₂
    simp only [duplicateView,Prod.mk.injEq] at hvat hduplicates
    have hruns₂ : runsOf companyId s₂ = runs := by
      rw [← hruns,runsOf,runsOf,hvat.2.1]
    obtain ⟨s₃,hrun₃,hflagged⟩ := run_checkDuplicatePayrollRuns (s := s₂) offset (fun i => draw.issueIds (i + 1)) now
      hruns₂ hsorted
    rw [hrun₃] at hduplicates
    have hcounts := hview _ (keeps_recomputeComplianceStatus (fun _ _ => rfl) companyId draw.statusIds now) s₃
    rw [run_runComplianceScan_some hf hrun₁ hrun₂ hrun₃,hcounts,duplicateView,hflagged,hvat.1,hduplicates.1,hduplicates.2,
      hvat.2.1,hvat.2.2]

/-! ## One scan -/

theorem runsOf_reorder {runs : List PayrollRun} (hruns : ∀ r ∈ runs, r.companyId = companyId) :
    runsOf companyId (reorder companyId runs s) = runs := by
  have hself : runs.filter (fun r => r.companyId = companyId) = runs := List.filter_eq_self.mpr (by simpa using hruns)
  have hother : ((s.payroll.payrollRuns.filter fun r => r.companyId ≠ companyId).filter fun r =>
      r.companyId = companyId) = [] := by
    rw [List.filter_eq_nil_iff]
    intro r hr
    simpa using (List.mem_filter.mp hr).2
  have hget : (reorder companyId runs s).payroll.payrollRuns =
      runs ++ s.payroll.payrollRuns.filter fun r => r.companyId ≠ companyId := rfl
  rw [runsOf,hget,List.filter_append,hself,hother,List.append_nil]

theorem perm_reorder {runs : List PayrollRun} (hruns : runs.Perm (runsOf companyId s)) :
    (reorder companyId runs s).payroll.payrollRuns.Perm s.payroll.payrollRuns := by
  have hsplit := List.filter_append_perm (fun r : PayrollRun => decide (r.companyId = companyId)) s.payroll.payrollRuns
  refine (hruns.append_right _).trans ?_
  simpa [runsOf] using hsplit

/-- A scan returns the runs in its own order and flags those that it repeats. -/
theorem view_next (offset : ℤ) {scan : OrderedScan} (hcompany : ∃ c ∈ s.org.companies, c.id = companyId)
    (hscan : Returned companyId s scan.runs) :
    flaggedRuns companyId (scan.next companyId offset s) =
        ((repeats period [] scan.runs).map fun r => some r.id).foldl note (flaggedRuns companyId s) ∧
      runsOf companyId (scan.next companyId offset s) = scan.runs ∧
      (scan.next companyId offset s).payroll.payrollRuns.Perm s.payroll.payrollRuns ∧
      (scan.next companyId offset s).org.companies = s.org.companies := by
  have hmine : ∀ r ∈ scan.runs, r.companyId = companyId := by
    intro r hr
    simpa using (List.mem_filter.mp (hscan.perm.mem_iff.mp hr)).2
  have hruns := runsOf_reorder (s := s) hmine
  have hview := view_runComplianceScan (s := reorder companyId scan.runs s) offset scan.draw scan.now hcompany hruns
    hscan.sorted
  simp only [duplicateView,Prod.mk.injEq] at hview
  obtain ⟨hflagged,hpayroll,hcompanies⟩ := hview
  refine ⟨hflagged,?_,?_,hcompanies⟩
  · rw [OrderedScan.next,runsOf,hpayroll]
    exact hruns
  · rw [OrderedScan.next,hpayroll]
    exact perm_reorder hscan.perm

/-! ## The count -/

theorem length_duplicatesOf (run : PayrollRun) : (duplicatesOf companyId (sharing companyId s run) s).length =
    ((flaggedRuns companyId s).filter fun x => ((sharing companyId s run).map fun r => some r.id).contains x).length := by
  rw [← map_duplicatesOf,List.length_map]

theorem nodup_relatedIds (hids : (s.payroll.payrollRuns.map PayrollRun.id).Nodup) {runs : List PayrollRun}
    (hruns : runs.Sublist s.payroll.payrollRuns) : (runs.map fun r => some r.id).Nodup := by
  have hsome : (runs.map fun r => some r.id) = (runs.map PayrollRun.id).map some := by
    rw [List.map_map]
    rfl
  rw [hsome]
  exact (hids.sublist (hruns.map _)).map fun _ _ => Option.some.inj

/-- The flagged runs are those that `runs` repeats. -/
structure Flagging (companyId : Uuid) (runs : List PayrollRun) (s : Store) : Prop where
  company : ∃ c ∈ s.org.companies, c.id = companyId
  ids : (s.payroll.payrollRuns.map PayrollRun.id).Nodup
  perm : (runsOf companyId s).Perm runs
  nodup : (flaggedRuns companyId s).Nodup
  mem : ∀ x, x ∈ flaggedRuns companyId s ↔ x ∈ (repeats period [] runs).map fun r => some r.id

namespace Flagging
variable {first : List PayrollRun}

theorem nodup_runs (h : Flagging companyId first s) : first.Nodup :=
  h.perm.nodup_iff.mp ((List.Nodup.of_map _ h.ids).filter _)

theorem counted (h : Flagging companyId first s) : DuplicatesCounted companyId s := by
  intro run hrun
  have hnodup : ((flaggedRuns companyId s).filter fun x =>
      ((sharing companyId s run).map fun r => some r.id).contains x).Nodup := h.nodup.filter _
  refine ⟨?_,by rw [map_duplicatesOf]; exact hnodup⟩
  have hfirst : run ∈ first := h.perm.mem_iff.mp hrun
  have hshared : (sharing companyId s run).length = (first.filter fun r => period r = period run).length :=
    (h.perm.filter _).length_eq
  have hrepeated : ((flaggedRuns companyId s).filter fun x =>
      ((sharing companyId s run).map fun r => some r.id).contains x).Perm
      (((repeats period [] first).filter fun r => period r = period run).map fun r => some r.id) := by
    have hn : (((repeats period [] first).filter fun r => period r = period run).map fun r => some r.id).Nodup := by
      have hperm : (first.map fun r => some r.id).Nodup :=
        (h.perm.map _).nodup_iff.mp (nodup_relatedIds h.ids List.filter_sublist)
      exact hperm.sublist ((List.filter_sublist.trans repeats_sublist).map _)
    rw [List.perm_ext_iff_of_nodup hnodup hn]
    intro x
    rw [List.mem_filter,h.mem,List.contains_iff_mem,List.mem_map,List.mem_map,List.mem_map]
    constructor
    · rintro ⟨⟨r,hr,rfl⟩,r',hr',hsame⟩
      have hmem : r ∈ runsOf companyId s := h.perm.mem_iff.mpr (repeats_sublist.subset hr)
      obtain ⟨hr',hperiod⟩ := List.mem_filter.mp hr'
      obtain rfl := Table.eq_of_key h.ids (List.mem_filter.mp hr').1 (List.mem_filter.mp hmem).1 (Option.some.inj hsame)
      exact ⟨r',List.mem_filter.mpr ⟨hr,hperiod⟩,rfl⟩
    · rintro ⟨r,hr,rfl⟩
      obtain ⟨hr,hperiod⟩ := List.mem_filter.mp hr
      have hmem : r ∈ runsOf companyId s := h.perm.mem_iff.mpr (repeats_sublist.subset hr)
      exact ⟨⟨r,hr,rfl⟩,r,List.mem_filter.mpr ⟨hmem,hperiod⟩,rfl⟩
  rw [length_duplicatesOf,hrepeated.length_eq,List.length_map,hshared,length_filter_repeats_nil hfirst,
    Nat.add_sub_cancel]

/-- The first scan. -/
theorem start (offset : ℤ) {scan : OrderedScan} (hcompany : ∃ c ∈ s.org.companies, c.id = companyId)
    (hids : (s.payroll.payrollRuns.map PayrollRun.id).Nodup) (hnone : flaggedRuns companyId s = [])
    (hscan : Returned companyId s scan.runs) : Flagging companyId scan.runs (scan.next companyId offset s) := by
  obtain ⟨hflagged,hruns,hpayroll,hcompanies⟩ := view_next offset hcompany hscan
  refine ⟨by rwa [hcompanies],(hpayroll.map _).nodup_iff.mpr hids,by rw [hruns],?_,fun x => ?_⟩
  · rw [hflagged,hnone]
    exact nodup_foldl_note List.nodup_nil _
  · rw [hflagged,hnone,mem_foldl_note]
    simp

/-- A later scan in which the same runs come first. -/
theorem next (offset : ℤ) (h : Flagging companyId first s) {scan : OrderedScan} (hscan : Returned companyId s scan.runs)
    (hsame : SameFirst first scan.runs) : Flagging companyId first (scan.next companyId offset s) := by
  obtain ⟨hflagged,hruns,hpayroll,hcompanies⟩ := view_next offset h.company hscan
  have hperm : scan.runs.Perm first := hscan.perm.trans h.perm
  refine ⟨by rw [hcompanies]; exact h.company,(hpayroll.map _).nodup_iff.mpr h.ids,by rw [hruns]; exact hperm,?_,fun x => ?_⟩
  · rw [hflagged]
    exact nodup_foldl_note h.nodup _
  · have hrepeats : x ∈ (repeats period [] scan.runs).map (fun r => some r.id) ↔
        x ∈ (repeats period [] first).map fun r => some r.id := by
      rw [List.mem_map,List.mem_map]
      apply exists_congr
      intro r
      rw [mem_repeats_congr h.nodup_runs (hperm.nodup_iff.mpr h.nodup_runs) (fun r => hperm.mem_iff.symm) hsame]
    rw [hflagged,mem_foldl_note,h.mem,hrepeats,or_self]

/-- When another run comes first, all runs of its period have been flagged. -/
theorem flagged_of_other (offset : ℤ) (h : Flagging companyId first s) {scan : OrderedScan}
    (hscan : Returned companyId s scan.runs) {run r : PayrollRun}
    (hfirst : firstOf period scan.runs run ≠ firstOf period first run) (hr : r ∈ scan.runs)
    (hperiod : period r = period run) : some r.id ∈ flaggedRuns companyId (scan.next companyId offset s) := by
  obtain ⟨hflagged,-⟩ := view_next offset h.company hscan
  have hperm : scan.runs.Perm first := hscan.perm.trans h.perm
  have hsame (l : List PayrollRun) : firstOf period l r = firstOf period l run := by
    rw [firstOf,firstOf,hperiod]
  rw [hflagged,mem_foldl_note,h.mem]
  -- one of the two scans has another run first
  by_cases hfirst' : firstOf period first r = some r
  · right
    refine List.mem_map_of_mem ((mem_repeats_nil (hperm.nodup_iff.mpr h.nodup_runs)).mpr ⟨hr,fun hnew => hfirst ?_⟩)
    rw [← hsame,← hsame,hnew,hfirst']
  · left
    exact List.mem_map_of_mem ((mem_repeats_nil h.nodup_runs).mpr ⟨hperm.mem_iff.mp hr,hfirst'⟩)

/-- Then no run of the period is left without an issue. -/
theorem not_counted (offset : ℤ) (h : Flagging companyId first s) {scan : OrderedScan}
    (hscan : Returned companyId s scan.runs) (hother : ¬ SameFirst first scan.runs) :
    ¬ DuplicatesCounted companyId (scan.next companyId offset s) := by
  obtain ⟨-,hruns,hpayroll,-⟩ := view_next offset h.company hscan
  unfold SameFirst at hother
  push Not at hother
  obtain ⟨run,hrun,hfirst⟩ := hother
  intro hcounted
  have hmem : run ∈ runsOf companyId (scan.next companyId offset s) := by
    rw [hruns]
    exact (hscan.perm.trans h.perm).mem_iff.mpr hrun
  have hlength := (hcounted run hmem).1
  generalize hshared : sharing companyId (scan.next companyId offset s) run = shared at hlength
  have hself : run ∈ shared := by
    rw [← hshared]
    exact List.mem_filter.mpr ⟨hmem,by simp⟩
  have hsubset : (shared.map fun r => some r.id) ⊆
      (flaggedRuns companyId (scan.next companyId offset s)).filter fun x => (shared.map fun r => some r.id).contains x := by
    intro x hx
    refine List.mem_filter.mpr ⟨?_,List.contains_iff_mem.mpr hx⟩
    obtain ⟨r,hr,rfl⟩ := List.mem_map.mp hx
    rw [← hshared] at hr
    obtain ⟨hr,hperiod⟩ := List.mem_filter.mp hr
    rw [hruns] at hr
    exact h.flagged_of_other offset hscan hfirst hr (of_decide_eq_true hperiod)
  have hnodup : (shared.map fun r => some r.id).Nodup := by
    apply nodup_relatedIds ((hpayroll.map _).nodup_iff.mpr h.ids)
    rw [← hshared]
    exact List.filter_sublist.trans List.filter_sublist
  have hle := (List.subperm_of_subset hnodup hsubset).length_le
  have hpos : 0 < shared.length := List.length_pos_of_mem hself
  rw [← List.length_map (f := FlaggedIssue.relatedEntityId),map_duplicatesOf] at hlength
  rw [List.length_map] at hle
  omega

end Flagging

/-- Over any number of scans from a store without open duplicates, each period that k runs share has k - 1
open issues throughout exactly when the same run of each period comes first in all of them. -/
theorem duplicatesCounted_iff (offset : ℤ) (hcompany : ∃ c ∈ s.org.companies, c.id = companyId)
    (hids : (s.payroll.payrollRuns.map PayrollRun.id).Nodup)
    (hnone : ∀ i ∈ s.compliance.flaggedIssues, isOpenIssue companyId .duplicate_transaction i = false)
    {first : OrderedScan} {scans : List OrderedScan} (hscans : ∀ scan ∈ first :: scans, Returned companyId s scan.runs) :
    Runs.Always (OrderedScan.next companyId offset) (DuplicatesCounted companyId) (first.next companyId offset s) scans ↔
      ∀ scan ∈ scans, SameFirst first.runs scan.runs := by
  have hempty : flaggedRuns companyId s = [] := by
    rw [flaggedRuns,List.map_eq_nil_iff,List.filter_eq_nil_iff]
    simpa using hnone
  have hfirst := hscans first List.mem_cons_self
  have hstart := Flagging.start offset hcompany hids hempty hfirst
  have hreturned (t : Store) (h : Flagging companyId first.runs t) {scan : OrderedScan}
      (hscan : Returned companyId s scan.runs) : Returned companyId t scan.runs :=
    ⟨hscan.perm.trans (hfirst.perm.symm.trans h.perm.symm),hscan.sorted⟩
  have hstep (t : Store) (scan : OrderedScan) (h : Flagging companyId first.runs t)
      (hscan : Returned companyId s scan.runs) (_ : DuplicatesCounted companyId t) :
      DuplicatesCounted companyId (scan.next companyId offset t) ↔ SameFirst first.runs scan.runs := by
    constructor
    · intro hcounted
      by_contra hother
      exact h.not_counted offset (hreturned t h hscan) hother hcounted
    · intro hsame
      exact (h.next offset (hreturned t h hscan) hsame).counted
  rw [← @Runs.along_const_iff _ _ (OrderedScan.next companyId offset) _ (first.next companyId offset s)]
  refine Runs.always_iff_along (A := fun _ scan => Returned companyId s scan.runs)
    (I := Flagging companyId first.runs) ?_ hstep hstart hstart.counted
    (Runs.along_const_iff.mpr fun scan hscan => hscans scan (List.mem_cons_of_mem _ hscan))
  intro t scan h hscan hP hcounted
  exact h.next offset (hreturned t h hscan) ((hstep t scan h hscan hP).mp hcounted)

/-- A run of June 2026. -/
def juneRun (id : Uuid) : PayrollRun := ⟨id,300,20605 * msPerDay,20634 * msPerDay,.draft,none,none,0⟩

/-- A store that was paid for June several times. -/
def paidForJune (ids : List Uuid) : Store where
  org := { companies := [sariSariStore] }
  payroll := { payrollRuns := ids.map juneRun }

/-- A scan that finds the runs in this order. -/
def scanInOrder (n : ℕ) (ids : List Uuid) : OrderedScan :=
  ⟨ids.map juneRun,⟨fun i => i,fun i => 10 * n + i,fun i => i⟩,20640 * msPerDay⟩

theorem returned_scanInOrder {n : ℕ} {ids order : List Uuid} (h : order.Perm ids) :
    Returned 300 (paidForJune ids) (scanInOrder n order).runs := by
  have hall : runsOf 300 (paidForJune ids) = ids.map juneRun := by
    refine List.filter_eq_self.mpr fun r hr => ?_
    obtain ⟨id,-,rfl⟩ := List.mem_map.mp hr
    rfl
  refine ⟨by rw [hall]; exact h.map _,?_⟩
  rw [scanInOrder,List.pairwise_map]
  exact List.pairwise_of_forall fun _ _ => le_refl _

theorem duplicatesCounted_iff_paidForJune :
    Runs.Always (OrderedScan.next 300 0) (DuplicatesCounted 300) ((scanInOrder 1 [1,2,3]).next 300 0 (paidForJune [1,2,3]))
      [scanInOrder 2 [1,3,2],scanInOrder 3 [1,2,3]] := by
  have hcompany : ∃ c ∈ (paidForJune [1,2,3]).org.companies, c.id = 300 := ⟨sariSariStore,List.mem_cons_self,rfl⟩
  have hids : ((paidForJune [1,2,3]).payroll.payrollRuns.map PayrollRun.id).Nodup := by decide
  have hnone : ∀ i ∈ (paidForJune [1,2,3]).compliance.flaggedIssues, isOpenIssue 300 .duplicate_transaction i = false := by
    decide
  refine (duplicatesCounted_iff 0 hcompany hids hnone ?_).mpr ?_
  · intro scan hscan
    simp only [List.mem_cons,List.not_mem_nil,or_false] at hscan
    rcases hscan with rfl | rfl | rfl
    · exact returned_scanInOrder (by decide)
    · exact returned_scanInOrder (by decide)
    · exact returned_scanInOrder (by decide)
  · decide +kernel

/-- Two runs that come back in the other order are both flagged. -/
theorem paidForJune_not_counted :
    Returned 300 (paidForJune [1,2]) (scanInOrder 1 [1,2]).runs ∧ Returned 300 (paidForJune [1,2]) (scanInOrder 2 [2,1]).runs ∧
      ¬ DuplicatesCounted 300 ([scanInOrder 1 [1,2],scanInOrder 2 [2,1]].foldl (OrderedScan.next 300 0) (paidForJune [1,2])) := by
  refine ⟨returned_scanInOrder (by decide),returned_scanInOrder (by decide),?_⟩
  decide +kernel

end
end PinoyTax.Compliance
