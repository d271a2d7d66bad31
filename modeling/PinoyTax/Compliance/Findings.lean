import PinoyTax.Foundation.Runs
import PinoyTax.Compliance.Scans

/-! # One unresolved issue for a finding

A scan raises the issue of a finding unless an open one is there. An issue that somebody
has acknowledged is still unresolved, and the scan does not see it. The exact condition
under which every finding keeps at most one unresolved issue is about such issues.
-/
namespace PinoyTax.Compliance
open PinoyTax Foundation

/-- What an issue is about. -/
def issueKey (i : FlaggedIssue) : Uuid × IssueType × Option String × Option Uuid :=
  (i.companyId,i.issueType,i.relatedEntityType,i.relatedEntityId)

def isUnresolved (i : FlaggedIssue) : Bool := i.status == .open || i.status == .acknowledged

/-- At most one unresolved issue for a company, a type and a related entity. -/
def SingleIssues (s : Store) : Prop := ((s.compliance.flaggedIssues.filter isUnresolved).map issueKey).Nodup

/-- `UpdateIssueStatusDto`: an issue is never set back to open. -/
inductive IssueDisposition | acknowledged | resolved | dismissed
deriving DecidableEq, Repr

def IssueDisposition.status : IssueDisposition → IssueStatus
  | acknowledged => .acknowledged
  | resolved => .resolved
  | dismissed => .dismissed

inductive IssueRequest where
  | scan (companyId : Uuid) (draw : ScanDraw) (now : DateTime)
  | updateIssueStatus (companyId issueId : Uuid) (disposition : IssueDisposition) (now : DateTime)

namespace IssueRequest

def program (offset : ℤ) : IssueRequest → Request Unit
  | scan companyId draw now => runComplianceScan offset companyId draw now
  | updateIssueStatus companyId issueId disposition now =>
    (Compliance.updateIssueStatus companyId issueId disposition.status now).discard

/-- The store after a request. -/
def next (offset : ℤ) (s : Store) (req : IssueRequest) : Store := ((req.program offset).run s).2

end IssueRequest

/-- The primary key of the issues. -/
def IssueIds (s : Store) : Prop := (s.compliance.flaggedIssues.map FlaggedIssue.id).Nodup

instance : DecidablePred IssueIds := fun _ => inferInstanceAs (Decidable (List.Nodup _))

/-! ## What the VAT check compares -/

/-- The rate of the first row. -/
def firstRate (rule : TaxRule) : Option ℚ := rule.ratesHistory.head?.map thresholdOf

/-- The threshold that the check compares with. -/
def comparedThreshold (rules : List TaxRule) : Option ℚ :=
  (rules.find? (fun r => r.ruleCode = "VAT_REGISTRATION_THRESHOLD")).bind firstRate

/-- `{ periodEnd: 'desc' }`. -/
abbrev latestFirst (a b : TaxComputation) : Prop := b.periodEnd ≤ a.periodEnd

/-- The company's last twelve confirmed computations. -/
def recentComputations (companyId : Uuid) (computations : List TaxComputation) : List TaxComputation :=
  ((computations.filter (isConfirmedOf companyId)).insertionSort latestFirst).take 12

def totalGrossSales (companyId : Uuid) (computations : List TaxComputation) : ℚ :=
  Double.sum ((recentComputations companyId computations).map grossOf)

/-- What the check does once it has a threshold. -/
def checkAgainst (threshold : ℚ) (companyId : Uuid) (company : Company) (id : Uuid) (now : DateTime) : Request Unit :=
  if company.vatClassification = .vat then pure ()
  else do
    let confirmed ← Prisma.taxComputation.findMany (isConfirmedOf companyId)
    let recentComputations := (confirmed.insertionSort (fun a b => b.periodEnd ≤ a.periodEnd)).take 12
    let totalGrossSales := Double.sum (recentComputations.map grossOf)
    if totalGrossSales > threshold then
      flagUnless (isOpenIssue companyId .vat_misclassification) (vatIssue companyId totalGrossSales threshold id now)
    else pure ()

/-- The check of a store with the threshold, or none. -/
def checkedWith (threshold : Option ℚ) (companyId : Uuid) (company : Company) (id : Uuid) (now : DateTime) :
    Request Unit :=
  match threshold with
  | none => pure ()
  | some threshold => checkAgainst threshold companyId company id now

theorem run_checkVatClassificationRisk (companyId : Uuid) (company : Company) (id : Uuid) (now : DateTime) (s : Store) :
    (checkVatClassificationRisk companyId company id now).run s =
      (checkedWith (comparedThreshold s.taxEngine.taxRules) companyId company id now).run s := by
  rw [checkVatClassificationRisk,findThresholdRule,Prog.run_bind,Prog.run_query,Prog.resume_ok,comparedThreshold]
  cases s.taxEngine.taxRules.find? (fun r => r.ruleCode = "VAT_REGISTRATION_THRESHOLD") with
  | none => rfl
  | some thresholdRule =>
    dsimp only [Option.bind_some,firstRate]
    cases thresholdRule.ratesHistory with
    | nil => rfl
    | cons rate rest => rfl

/-- A non-VAT company's sales against a threshold. -/
theorem run_checkAgainst {company : Company} (hcompany : company.vatClassification ≠ .vat) (threshold : ℚ)
    (companyId id : Uuid) (now : DateTime) (s : Store) :
    (checkAgainst threshold companyId company id now).run s =
      if threshold < totalGrossSales companyId s.taxEngine.taxComputations then
        (flagUnless (isOpenIssue companyId .vat_misclassification)
          (vatIssue companyId (totalGrossSales companyId s.taxEngine.taxComputations) threshold id now)).run s
      else (.ok (),s) := by
  rw [checkAgainst,if_neg hcompany,Prog.run_bind,TableRef.run_findMany,Prog.resume_ok]
  change (if threshold < totalGrossSales companyId s.taxEngine.taxComputations then _ else _ : Request Unit).run s = _
  split <;> rfl

/-! ## The findings of a scan -/

/-- `checkVatClassificationRisk`: the issue that it finds reason for. -/
def vatFindings (companyId : Uuid) (company : Company) (id : Uuid) (now : DateTime) (s : Store) : List FlaggedIssue :=
  if company.vatClassification = .vat then []
  else
    match comparedThreshold s.taxEngine.taxRules with
    | none => []
    | some threshold =>
      if threshold < totalGrossSales companyId s.taxEngine.taxComputations then
        [vatIssue companyId (totalGrossSales companyId s.taxEngine.taxComputations) threshold id now]
      else []

/-- `checkDuplicatePayrollRuns`: an issue for each run whose period was seen before. -/
def repeatedRuns (offset : ℤ) (companyId : Uuid) (now : DateTime) :
    (ℕ → Uuid) → List String → List PayrollRun → List FlaggedIssue
  | _, _, [] => []
  | ids, seenPeriods, run :: runs =>
    (if seenPeriods.contains (periodKey run) then [duplicateIssue offset companyId run (ids 0) now] else []) ++
      repeatedRuns offset companyId now (fun i => ids (i + 1)) (periodKey run :: seenPeriods) runs

def duplicateFindings (offset : ℤ) (companyId : Uuid) (ids : ℕ → Uuid) (now : DateTime) (s : Store) : List FlaggedIssue :=
  repeatedRuns offset companyId now ids []
    ((s.payroll.payrollRuns.filter fun r => r.companyId = companyId).insertionSort (fun a b => a.periodStart ≤ b.periodStart))

def findings (offset : ℤ) (companyId : Uuid) (draw : ScanDraw) (now : DateTime) (s : Store) : List FlaggedIssue :=
  match s.org.companies.find? (fun c => c.id = companyId) with
  | none => []
  | some company => vatFindings companyId company (draw.issueIds 0) now s ++
      duplicateFindings offset companyId (fun i => draw.issueIds (i + 1)) now s

/-! ## Raising issues -/

def isOpenFor (issue i : FlaggedIssue) : Bool := decide (issueKey i = issueKey issue) && decide (i.status = .open)

/-- The issue, unless an open one of its finding is there. -/
def raise (issues : List FlaggedIssue) (issue : FlaggedIssue) : List FlaggedIssue :=
  if issues.any (isOpenFor issue) then issues else issues ++ [issue]

/-- Somebody has acknowledged the finding, and no open issue of it is there. -/
def OnlyAcknowledged (issues : List FlaggedIssue) (issue : FlaggedIssue) : Prop :=
  (∃ i ∈ issues, issueKey i = issueKey issue ∧ i.status = .acknowledged) ∧ ¬ issues.any (isOpenFor issue) = true

instance (issues : List FlaggedIssue) (issue : FlaggedIssue) : Decidable (OnlyAcknowledged issues issue) :=
  inferInstanceAs (Decidable (_ ∧ _))

section
variable {issues : List FlaggedIssue} {issue : FlaggedIssue}

theorem exists_unresolved_iff : (∃ i ∈ issues, isUnresolved i = true ∧ issueKey i = issueKey issue) ↔
    issues.any (isOpenFor issue) = true ∨ ∃ i ∈ issues, issueKey i = issueKey issue ∧ i.status = .acknowledged := by
  simp only [isUnresolved,isOpenFor,List.any_eq_true,Bool.or_eq_true,Bool.and_eq_true,beq_iff_eq,decide_eq_true_eq]
  constructor
  · rintro ⟨i,hi,hstatus | hstatus,hkey⟩
    · exact .inl ⟨i,hi,hkey,hstatus⟩
    · exact .inr ⟨i,hi,hkey,hstatus⟩
  · rintro (⟨i,hi,hkey,hstatus⟩ | ⟨i,hi,hkey,hstatus⟩)
    · exact ⟨i,hi,.inl hstatus,hkey⟩
    · exact ⟨i,hi,.inr hstatus,hkey⟩

/-- Raising an issue leaves single issues unless its finding is acknowledged only. -/
theorem nodup_raise_iff (hopen : issue.status = .open) : (((raise issues issue).filter isUnresolved).map issueKey).Nodup ↔
    ((issues.filter isUnresolved).map issueKey).Nodup ∧ ¬ OnlyAcknowledged issues issue := by
  unfold raise OnlyAcknowledged
  by_cases hany : issues.any (isOpenFor issue) = true
  · simp [hany]
  · have hkeys : issueKey issue ∈ (issues.filter isUnresolved).map issueKey ↔
        ∃ i ∈ issues, issueKey i = issueKey issue ∧ i.status = .acknowledged := by
      have hexists : (∃ i ∈ issues, isUnresolved i = true ∧ issueKey i = issueKey issue) ↔ _ := exists_unresolved_iff
      simp only [hany,Bool.false_eq_true,false_or] at hexists
      rw [← hexists,List.mem_map]
      constructor
      · rintro ⟨i,hi,hkey⟩
        obtain ⟨hi,hstatus⟩ := List.mem_filter.mp hi
        exact ⟨i,hi,hstatus,hkey⟩
      · rintro ⟨i,hi,hstatus,hkey⟩
        exact ⟨i,List.mem_filter.mpr ⟨hi,hstatus⟩,hkey⟩
    have hnew : [issue].filter isUnresolved = [issue] := by simp [isUnresolved,hopen]
    rw [if_neg hany,List.filter_append,hnew,List.map_append,List.map_singleton,List.nodup_append_comm,List.singleton_append,
      List.nodup_cons,hkeys,and_iff_left hany,and_comm]

/-- Raising one issue changes nothing for the other findings. -/
theorem onlyAcknowledged_raise (hopen : issue.status = .open) (h : ¬ OnlyAcknowledged issues issue) (other : FlaggedIssue) :
    OnlyAcknowledged (raise issues issue) other ↔ OnlyAcknowledged issues other := by
  unfold raise
  by_cases hany : issues.any (isOpenFor issue) = true
  · rw [if_pos hany]
  · rw [if_neg hany]
    unfold OnlyAcknowledged at *
    by_cases hkey : issueKey issue = issueKey other
    · have hopened : (issues ++ [issue]).any (isOpenFor other) = true := by
        simp [List.any_append,isOpenFor,hkey,hopen]
      have hnone : ¬ ∃ i ∈ issues, issueKey i = issueKey other ∧ i.status = .acknowledged := by
        rw [← hkey]
        exact fun he => h ⟨he,hany⟩
      simp only [hopened,not_true_eq_false,and_false,hnone,false_and]
    · have hexists : (∃ i ∈ issues ++ [issue], issueKey i = issueKey other ∧ i.status = .acknowledged) ↔
          ∃ i ∈ issues, issueKey i = issueKey other ∧ i.status = .acknowledged := by
        simp [hkey]
      have hsame : (issues ++ [issue]).any (isOpenFor other) = issues.any (isOpenFor other) := by
        simp [List.any_append,isOpenFor,hkey]
      rw [hexists,hsame]

/-- A whole scan: each of its findings counts as the scan found it. -/
theorem nodup_foldl_raise_iff {raised : List FlaggedIssue} (hopen : ∀ i ∈ raised, i.status = .open) :
    (((raised.foldl raise issues).filter isUnresolved).map issueKey).Nodup ↔
      ((issues.filter isUnresolved).map issueKey).Nodup ∧ ∀ i ∈ raised, ¬ OnlyAcknowledged issues i := by
  induction raised generalizing issues with
  | nil => simp
  | cons issue raised ih =>
    have hissue := hopen issue List.mem_cons_self
    rw [List.foldl_cons,ih fun i hi => hopen i (List.mem_cons_of_mem _ hi),nodup_raise_iff hissue,List.forall_mem_cons]
    constructor
    · rintro ⟨⟨hnodup,hfirst⟩,hrest⟩
      exact ⟨hnodup,hfirst,fun i hi h => hrest i hi ((onlyAcknowledged_raise hissue hfirst i).mpr h)⟩
    · rintro ⟨hnodup,hfirst,hrest⟩
      exact ⟨⟨hnodup,hfirst⟩,fun i hi h => hrest i hi ((onlyAcknowledged_raise hissue hfirst i).mp h)⟩

end

/-! ## What a scan raises -/

/-- The issues come from the two checks, with what each of them puts about the related entity. -/
structure Shaped (issues : List FlaggedIssue) : Prop where
  vat : ∀ i ∈ issues, i.issueType = .vat_misclassification → i.relatedEntityType = none ∧ i.relatedEntityId = none
  duplicate : ∀ i ∈ issues, i.issueType = .duplicate_transaction → i.relatedEntityType = some "payroll_run"

theorem Shaped.append {issues : List FlaggedIssue} {issue : FlaggedIssue} (h : Shaped issues) (hissue : Shaped [issue]) :
    Shaped (issues ++ [issue]) := by
  refine ⟨fun i hi => ?_,fun i hi => ?_⟩
  · rcases List.mem_append.mp hi with hi | hi
    · exact h.vat i hi
    · exact hissue.vat i hi
  · rcases List.mem_append.mp hi with hi | hi
    · exact h.duplicate i hi
    · exact hissue.duplicate i hi

theorem Shaped.raise {issues : List FlaggedIssue} {issue : FlaggedIssue} (h : Shaped issues) (hissue : Shaped [issue]) :
    Shaped (raise issues issue) := by
  unfold Compliance.raise
  split
  · exact h
  · exact h.append hissue

theorem Shaped.foldl_raise {issues raised : List FlaggedIssue} (h : Shaped issues) (hraised : ∀ i ∈ raised, Shaped [i]) :
    Shaped (raised.foldl Compliance.raise issues) := by
  induction raised generalizing issues with
  | nil => exact h
  | cons issue raised ih =>
    exact ih (h.raise (hraised issue List.mem_cons_self)) fun i hi => hraised i (List.mem_cons_of_mem _ hi)

theorem shaped_vatIssue (companyId : Uuid) (total threshold : ℚ) (id : Uuid) (now : DateTime) :
    Shaped [vatIssue companyId total threshold id now] := by
  constructor
  · rintro i hi -
    rw [List.mem_singleton.mp hi]
    exact ⟨rfl,rfl⟩
  · intro i hi hduplicate
    rw [List.mem_singleton.mp hi] at hduplicate
    cases hduplicate

theorem shaped_duplicateIssue (offset : ℤ) (companyId : Uuid) (run : PayrollRun) (id : Uuid) (now : DateTime) :
    Shaped [duplicateIssue offset companyId run id now] := by
  constructor
  · intro i hi hvat
    rw [List.mem_singleton.mp hi] at hvat
    cases hvat
  · rintro i hi -
    rw [List.mem_singleton.mp hi]
    rfl

section
variable {s : Store}

theorem run_flagUnless {alreadyFlagged : FlaggedIssue → Bool} {issue : FlaggedIssue}
    (h : s.compliance.flaggedIssues.any alreadyFlagged = s.compliance.flaggedIssues.any (isOpenFor issue)) :
    (flagUnless alreadyFlagged issue).run s =
      (.ok (),Prisma.flaggedIssue.set (raise s.compliance.flaggedIssues issue) s) := by
  have hget : Prisma.flaggedIssue.get s = s.compliance.flaggedIssues := rfl
  rw [flagUnless,Prog.run_bind,TableRef.run_findFirst,Prog.resume_ok,hget,raise,← h]
  cases hf : s.compliance.flaggedIssues.find? alreadyFlagged with
  | some i =>
    have hany : s.compliance.flaggedIssues.any alreadyFlagged = true :=
      List.any_eq_true.mpr ⟨i,List.mem_of_find?_eq_some hf,List.find?_some hf⟩
    rw [if_pos hany]
    rfl
  | none =>
    have hany : ¬ s.compliance.flaggedIssues.any alreadyFlagged = true := by
      rw [List.any_eq_true]
      rintro ⟨i,hi,hflagged⟩
      exact List.find?_eq_none.mp hf i hi hflagged
    rw [if_neg hany]
    rfl

theorem any_congr_mem {α : Type} {l : List α} {p q : α → Bool} (h : ∀ a ∈ l, p a = q a) : l.any p = l.any q := by
  induction l with
  | nil => rfl
  | cons a l ih =>
    rw [List.any_cons,List.any_cons,h a List.mem_cons_self,ih fun b hb => h b (List.mem_cons_of_mem _ hb)]

/-- With the shape of the issues the look-up by type, and by run, is the look-up by finding. -/
theorem any_isOpenIssue (hs : Shaped s.compliance.flaggedIssues) (companyId : Uuid) (total threshold : ℚ) (id : Uuid)
    (now : DateTime) : s.compliance.flaggedIssues.any (isOpenIssue companyId .vat_misclassification) =
      s.compliance.flaggedIssues.any (isOpenFor (vatIssue companyId total threshold id now)) := by
  apply any_congr_mem
  intro i hi
  have hvat := hs.vat i hi
  rw [Bool.eq_iff_iff]
  simp only [isOpenIssue,isOpenFor,issueKey,vatIssue,Bool.and_eq_true,decide_eq_true_eq,Prod.mk.injEq]
  constructor
  · rintro ⟨⟨hc,htype⟩,hstatus⟩
    exact ⟨⟨hc,htype,hvat htype⟩,hstatus⟩
  · rintro ⟨⟨hc,htype,-⟩,hstatus⟩
    exact ⟨⟨hc,htype⟩,hstatus⟩

theorem any_isFlaggedRun (hs : Shaped s.compliance.flaggedIssues) (offset : ℤ) (companyId : Uuid) (run : PayrollRun)
    (id : Uuid) (now : DateTime) : s.compliance.flaggedIssues.any (isFlaggedRun companyId run.id) =
      s.compliance.flaggedIssues.any (isOpenFor (duplicateIssue offset companyId run id now)) := by
  apply any_congr_mem
  intro i hi
  have hduplicate := hs.duplicate i hi
  rw [Bool.eq_iff_iff]
  simp only [isFlaggedRun,isOpenIssue,isOpenFor,issueKey,duplicateIssue,Bool.and_eq_true,decide_eq_true_eq,Prod.mk.injEq]
  constructor
  · rintro ⟨⟨⟨hc,htype⟩,hstatus⟩,hrun⟩
    exact ⟨⟨hc,htype,hduplicate htype,hrun⟩,hstatus⟩
  · rintro ⟨⟨hc,htype,-,hrun⟩,hstatus⟩
    exact ⟨⟨⟨hc,htype⟩,hstatus⟩,hrun⟩

/-- The program raises these issues and does nothing else to them. -/
def Raises (p : Request Unit) (raised : List FlaggedIssue) (s : Store) : Prop :=
  p.run s = (.ok (),Prisma.flaggedIssue.set (raised.foldl raise s.compliance.flaggedIssues) s)

theorem raises_done : Raises (.done (.ok ())) [] s := rfl

theorem raises_checkVatClassificationRisk (hs : Shaped s.compliance.flaggedIssues) (companyId : Uuid) (company : Company)
    (id : Uuid) (now : DateTime) :
    Raises (checkVatClassificationRisk companyId company id now) (vatFindings companyId company id now s) s := by
  unfold Raises
  rw [run_checkVatClassificationRisk,vatFindings]
  by_cases hvat : company.vatClassification = .vat
  · rw [if_pos hvat]
    cases comparedThreshold s.taxEngine.taxRules with
    | none => exact raises_done
    | some threshold =>
      rw [checkedWith,checkAgainst,if_pos hvat]
      exact raises_done
  · rw [if_neg hvat]
    cases comparedThreshold s.taxEngine.taxRules with
    | none => exact raises_done
    | some threshold =>
      dsimp only
      rw [checkedWith,run_checkAgainst hvat]
      split
      · exact run_flagUnless (any_isOpenIssue hs companyId _ _ id now)
      · exact raises_done

theorem raises_flagDuplicates (hs : Shaped s.compliance.flaggedIssues) (offset : ℤ) (companyId : Uuid) (now : DateTime)
    (ids : ℕ → Uuid) (seenPeriods : List String) (runs : List PayrollRun) :
    Raises (flagDuplicates offset companyId now ids seenPeriods runs)
      (repeatedRuns offset companyId now ids seenPeriods runs) s := by
  induction runs generalizing ids seenPeriods s with
  | nil => exact raises_done
  | cons run runs ih =>
    unfold Raises
    rw [flagDuplicates,repeatedRuns]
    split
    · have hflag := run_flagUnless (any_isFlaggedRun hs offset companyId run (ids 0) now)
      have hshaped := hs.raise (shaped_duplicateIssue offset companyId run (ids 0) now)
      rw [Prog.run_bind,hflag,Prog.resume_ok,ih hshaped]
      rfl
    · exact ih hs _ _

theorem raises_checkDuplicatePayrollRuns (hs : Shaped s.compliance.flaggedIssues) (offset : ℤ) (companyId : Uuid)
    (ids : ℕ → Uuid) (now : DateTime) :
    Raises (checkDuplicatePayrollRuns offset companyId ids now) (duplicateFindings offset companyId ids now s) s := by
  unfold Raises
  rw [checkDuplicatePayrollRuns,Prog.run_bind,TableRef.run_findMany,Prog.resume_ok]
  exact raises_flagDuplicates hs offset companyId now ids [] _

theorem shaped_findings (offset : ℤ) (companyId : Uuid) (draw : ScanDraw) (now : DateTime) (i : FlaggedIssue)
    (hi : i ∈ findings offset companyId draw now s) : Shaped [i] ∧ i.status = .open := by
  have hrepeated (ids : ℕ → Uuid) (seenPeriods : List String) (runs : List PayrollRun)
      (hi : i ∈ repeatedRuns offset companyId now ids seenPeriods runs) : Shaped [i] ∧ i.status = .open := by
    induction runs generalizing ids seenPeriods with
    | nil => cases hi
    | cons run runs ih =>
      rw [repeatedRuns] at hi
      rcases List.mem_append.mp hi with hi | hi
      · split at hi
        · rw [List.mem_singleton.mp hi]
          exact ⟨shaped_duplicateIssue _ _ _ _ _,rfl⟩
        · cases hi
      · exact ih _ _ hi
  unfold findings at hi
  split at hi
  · cases hi
  · rcases List.mem_append.mp hi with hi | hi
    · unfold vatFindings at hi
      split at hi
      · cases hi
      · split at hi
        · cases hi
        · split at hi
          · rw [List.mem_singleton.mp hi]
            exact ⟨shaped_vatIssue _ _ _ _ _,rfl⟩
          · cases hi
    · exact hrepeated _ _ _ hi

/-- A scan raises its findings. -/
theorem issues_runComplianceScan (hs : Shaped s.compliance.flaggedIssues) (offset : ℤ) (companyId : Uuid) (draw : ScanDraw)
    (now : DateTime) : ((runComplianceScan offset companyId draw now).run s).2.compliance.flaggedIssues =
      (findings offset companyId draw now s).foldl raise s.compliance.flaggedIssues := by
  have hmem := shaped_findings (s := s) offset companyId draw now
  unfold findings at *
  cases hf : s.org.companies.find? (fun c => c.id = companyId) with
  | none =>
    rw [run_runComplianceScan_none hf]
    rfl
  | some company =>
    rw [hf] at hmem
    dsimp only at *
    have hdeadlines := run_generateFilingDeadlines offset companyId company draw.deadlineIds now s
    generalize s.compliance.filingDeadlines ++ newDeadlines offset companyId company draw.deadlineIds now s = rows
      at hdeadlines
    have hvat : (checkVatClassificationRisk companyId company (draw.issueIds 0) now).run (Prisma.filingDeadline.set rows s) =
        (.ok (),Prisma.flaggedIssue.set ((vatFindings companyId company (draw.issueIds 0) now s).foldl raise
          s.compliance.flaggedIssues) (Prisma.filingDeadline.set rows s)) :=
      raises_checkVatClassificationRisk (s := Prisma.filingDeadline.set rows s) hs companyId company _ now
    have hraised : Shaped ((vatFindings companyId company (draw.issueIds 0) now s).foldl raise s.compliance.flaggedIssues) :=
      hs.foldl_raise fun i hi => (hmem i (List.mem_append_left _ hi)).1
    generalize hissues : (vatFindings companyId company (draw.issueIds 0) now s).foldl raise s.compliance.flaggedIssues =
      issues at hvat hraised
    have hduplicate : (checkDuplicatePayrollRuns offset companyId (fun i => draw.issueIds (i + 1)) now).run
        (Prisma.flaggedIssue.set issues (Prisma.filingDeadline.set rows s)) =
        (.ok (),Prisma.flaggedIssue.set ((duplicateFindings offset companyId (fun i => draw.issueIds (i + 1)) now s).foldl
          raise issues) (Prisma.flaggedIssue.set issues (Prisma.filingDeadline.set rows s))) :=
      raises_checkDuplicatePayrollRuns (s := Prisma.flaggedIssue.set issues (Prisma.filingDeadline.set rows s)) hraised
        offset companyId _ now
    have hcounts := keeps_recomputeComplianceStatus (g := fun s => s.compliance.flaggedIssues) (fun _ _ => rfl) companyId
      draw.statusIds now
    rw [run_runComplianceScan_some hf hdeadlines hvat hduplicate,Prog.Keeps.run hcounts,List.foldl_append,hissues]
    rfl

end

/-! ## Runs -/

/-- The request gives a finding a second unresolved issue: a scan whose finding is acknowledged only,
or an acknowledgement of a settled issue of a finding that has an unresolved one. -/
def Overlooks (offset : ℤ) (s : Store) : IssueRequest → Prop
  | .scan companyId draw now => ∃ i ∈ findings offset companyId draw now s, OnlyAcknowledged s.compliance.flaggedIssues i
  | .updateIssueStatus companyId issueId disposition _ => disposition = .acknowledged ∧
    ∃ i ∈ s.compliance.flaggedIssues, i.id = issueId ∧ i.companyId = companyId ∧ isUnresolved i = false ∧
      ∃ i' ∈ s.compliance.flaggedIssues, isUnresolved i' = true ∧ issueKey i' = issueKey i

instance (offset : ℤ) (s : Store) : (req : IssueRequest) → Decidable (Overlooks offset s req)
  | .scan companyId draw now => inferInstanceAs (Decidable (∃ i ∈ findings offset companyId draw now s,
      OnlyAcknowledged s.compliance.flaggedIssues i))
  | .updateIssueStatus companyId issueId disposition _ => inferInstanceAs (Decidable (disposition = .acknowledged ∧
      ∃ i ∈ s.compliance.flaggedIssues, i.id = issueId ∧ i.companyId = companyId ∧ isUnresolved i = false ∧
        ∃ i' ∈ s.compliance.flaggedIssues, isUnresolved i' = true ∧ issueKey i' = issueKey i))

/-- An update by the primary key changes one row in its place. -/
theorem exists_split_updateMany {issues : List FlaggedIssue} (hids : (issues.map FlaggedIssue.id).Nodup)
    {issue : FlaggedIssue} (hissue : issue ∈ issues) (f : FlaggedIssue → FlaggedIssue) :
    ∃ before after, issues = before ++ issue :: after ∧
      Table.updateMany (fun i => i.id = issue.id) f issues = before ++ f issue :: after := by
  obtain ⟨before,after,rfl⟩ := List.append_of_mem hissue
  have hother : ∀ i ∈ before ++ after, i.id ≠ issue.id := by
    intro i hi hsame
    have hmiddle : (before ++ issue :: after).Perm (issue :: (before ++ after)) := List.perm_middle
    have hperm := (hmiddle.map FlaggedIssue.id).nodup_iff.mp hids
    rw [List.map_cons,List.nodup_cons] at hperm
    exact hperm.1 (hsame ▸ List.mem_map_of_mem hi)
  refine ⟨before,after,rfl,?_⟩
  have hbefore : Table.updateMany (fun i => i.id = issue.id) f before = before :=
    Table.updateMany_eq_self fun i hi hsame => absurd (of_decide_eq_true hsame) (hother i (List.mem_append_left _ hi))
  have hafter : Table.updateMany (fun i => i.id = issue.id) f after = after :=
    Table.updateMany_eq_self fun i hi hsame => absurd (of_decide_eq_true hsame) (hother i (List.mem_append_right _ hi))
  rw [Table.updateMany_append,Table.updateMany_cons,hbefore,hafter]
  simp

section
variable {s : Store}

/-- What the new status of an issue does. -/
theorem issues_updateIssueStatus (hids : IssueIds s) (companyId issueId : Uuid) (status : IssueStatus) (now : DateTime) :
    ((Compliance.updateIssueStatus companyId issueId status now).discard.run s).2.compliance.flaggedIssues =
        s.compliance.flaggedIssues ∧ (∀ i ∈ s.compliance.flaggedIssues, i.id = issueId → i.companyId ≠ companyId) ∨
      ∃ issue before after resolvedAt, issue.id = issueId ∧ issue.companyId = companyId ∧
        s.compliance.flaggedIssues = before ++ issue :: after ∧
        ((Compliance.updateIssueStatus companyId issueId status now).discard.run s).2.compliance.flaggedIssues =
          before ++ setIssueStatus status resolvedAt issue :: after := by
  have hget : Prisma.flaggedIssue.get s = s.compliance.flaggedIssues := rfl
  rw [Prog.run_discard_state,Compliance.updateIssueStatus,Prog.run_bind,TableRef.run_findUnique,Prog.resume_ok,hget]
  cases hf : s.compliance.flaggedIssues.find? (fun i => i.id = issueId) with
  | none => exact .inl ⟨rfl,fun i hi hsame => absurd hsame (Table.find?_key_none hf i hi)⟩
  | some issue =>
    obtain ⟨hissue,rfl⟩ := Table.find?_key_some hf
    by_cases hc : issue.companyId = companyId
    · right
      obtain ⟨before,after,hsplit,hupdate⟩ := exists_split_updateMany hids hissue
        (setIssueStatus status (if status = .resolved then some now else issue.resolvedAt))
      refine ⟨issue,before,after,if status = .resolved then some now else issue.resolvedAt,rfl,hc,hsplit,?_⟩
      rw [ownedBy,if_pos hc,Prog.run_bind,Prog.run_done,Prog.resume_ok,TableRef.run_update_state,hget,hupdate]
      rfl
    · left
      refine ⟨?_,fun i hi hsame => ?_⟩
      · rw [ownedBy,if_neg hc]
        rfl
      · rw [Table.eq_of_key hids hi hissue hsame]
        exact hc

theorem shaped_next (offset : ℤ) (hs : Shaped s.compliance.flaggedIssues) (hids : IssueIds s) (req : IssueRequest) :
    Shaped (req.next offset s).compliance.flaggedIssues := by
  cases req with
  | scan companyId draw now =>
    have hscan := issues_runComplianceScan hs offset companyId draw now
    unfold IssueRequest.next IssueRequest.program
    dsimp only
    rw [hscan]
    exact hs.foldl_raise fun i hi => (shaped_findings offset companyId draw now i hi).1
  | updateIssueStatus companyId issueId disposition now =>
    unfold IssueRequest.next IssueRequest.program
    rcases issues_updateIssueStatus hids companyId issueId disposition.status now with
      ⟨hsame,-⟩ | ⟨issue,before,after,resolvedAt,-,-,hsplit,hupdated⟩
    · rw [hsame]
      exact hs
    · rw [hupdated]
      rw [hsplit] at hs
      have hmem : ∀ i ∈ before ++ setIssueStatus disposition.status resolvedAt issue :: after,
          ∃ i' ∈ before ++ issue :: after, i'.issueType = i.issueType ∧ i'.relatedEntityType = i.relatedEntityType ∧
            i'.relatedEntityId = i.relatedEntityId := by
        intro i hi
        rcases List.mem_append.mp hi with hi | hi
        · exact ⟨i,List.mem_append_left _ hi,rfl,rfl,rfl⟩
        · rcases List.mem_cons.mp hi with rfl | hi
          · exact ⟨issue,by simp,rfl,rfl,rfl⟩
          · exact ⟨i,by simp [hi],rfl,rfl,rfl⟩
      refine ⟨fun i hi hvat => ?_,fun i hi hduplicate => ?_⟩
      · obtain ⟨i',hi',htype,hentity,hid⟩ := hmem i hi
        rw [← hentity,← hid]
        exact hs.vat i' hi' (htype.trans hvat)
      · obtain ⟨i',hi',htype,hentity,-⟩ := hmem i hi
        rw [← hentity]
        exact hs.duplicate i' hi' (htype.trans hduplicate)

/-! ## One issue changes in its place -/

section
variable {before after : List FlaggedIssue} {issue updated : FlaggedIssue}

theorem unresolvedKeys_around (before after : List FlaggedIssue) (i : FlaggedIssue) :
    ((before ++ i :: after).filter isUnresolved).map issueKey =
      (before.filter isUnresolved).map issueKey ++ ((if isUnresolved i then [issueKey i] else []) ++
        (after.filter isUnresolved).map issueKey) := by
  rw [List.filter_append,List.map_append,List.filter_cons]
  split <;> rfl

/-- A settled issue is out of the way of the others. -/
theorem nodup_unresolvedKeys_settled (hsettled : isUnresolved updated = false)
    (hsingle : (((before ++ issue :: after).filter isUnresolved).map issueKey).Nodup) :
    (((before ++ updated :: after).filter isUnresolved).map issueKey).Nodup := by
  rw [unresolvedKeys_around] at hsingle ⊢
  rw [hsettled,if_neg Bool.false_ne_true,List.nil_append]
  exact hsingle.sublist (List.Sublist.append_left (List.sublist_append_right _ _) _)

/-- An issue that ends up unresolved is in the way of the others exactly when it was settled and one of
them is unresolved under its key. -/
theorem nodup_unresolvedKeys_opened (hkey : issueKey updated = issueKey issue) (hopen : isUnresolved updated = true)
    (hsingle : (((before ++ issue :: after).filter isUnresolved).map issueKey).Nodup) :
    (((before ++ updated :: after).filter isUnresolved).map issueKey).Nodup ↔
      ¬ (isUnresolved issue = false ∧
        ∃ i ∈ before ++ issue :: after, isUnresolved i = true ∧ issueKey i = issueKey issue) := by
  rw [unresolvedKeys_around] at hsingle ⊢
  rw [hkey,if_pos hopen]
  by_cases hbefore : isUnresolved issue = true
  · rw [if_pos hbefore] at hsingle
    exact iff_of_true hsingle fun h => Bool.false_ne_true (h.1.symm.trans hbefore)
  · rw [if_neg hbefore,List.nil_append] at hsingle
    rw [List.singleton_append,List.nodup_middle,List.nodup_cons,and_iff_left hsingle,← List.map_append,
      ← List.filter_append]
    apply not_congr
    constructor
    · intro hmem
      obtain ⟨i,hi,hsame⟩ := List.mem_map.mp hmem
      obtain ⟨hi,hopened⟩ := List.mem_filter.mp hi
      exact ⟨by simpa using hbefore,i,List.perm_middle.mem_iff.mpr (List.mem_cons_of_mem _ hi),hopened,hsame⟩
    · rintro ⟨-,i,hi,hopened,hsame⟩
      have hne : i ≠ issue := fun h => hbefore (h ▸ hopened)
      have hmem := (List.mem_cons.mp (List.perm_middle.mem_iff.mp hi)).resolve_left hne
      exact List.mem_map.mpr ⟨i,List.mem_filter.mpr ⟨hmem,hopened⟩,hsame⟩

end

theorem singleIssues_next_iff (offset : ℤ) (hs : Shaped s.compliance.flaggedIssues) (hids : IssueIds s)
    (hsingle : SingleIssues s) (req : IssueRequest) : SingleIssues (req.next offset s) ↔ ¬ Overlooks offset s req := by
  unfold SingleIssues IssueRequest.next IssueRequest.program at *
  cases req with
  | scan companyId draw now =>
    dsimp only [Overlooks]
    rw [issues_runComplianceScan hs offset companyId draw now,
      nodup_foldl_raise_iff fun i hi => (shaped_findings offset companyId draw now i hi).2,and_iff_right hsingle]
    push Not
    exact Iff.rfl
  | updateIssueStatus companyId issueId disposition now =>
    dsimp only [Overlooks]
    rcases issues_updateIssueStatus hids companyId issueId disposition.status now with
      ⟨hsame,hnone⟩ | ⟨issue,before,after,resolvedAt,rfl,rfl,hsplit,hupdated⟩
    · rw [hsame]
      refine iff_of_true hsingle ?_
      rintro ⟨-,i,hi,hid,hc,-⟩
      exact hnone i hi hid hc
    · rw [hupdated]
      rw [IssueIds] at hids
      rw [hsplit] at hids hsingle ⊢
      -- only an acknowledgement leaves the issue among the unresolved ones
      by_cases hacknowledged : disposition = .acknowledged
      · subst hacknowledged
        have hkey : issueKey (setIssueStatus IssueDisposition.acknowledged.status resolvedAt issue) = issueKey issue := rfl
        rw [nodup_unresolvedKeys_opened hkey rfl hsingle]
        apply not_congr
        constructor
        · rintro ⟨hresolved,hothers⟩
          exact ⟨rfl,issue,by simp,rfl,rfl,hresolved,hothers⟩
        · rintro ⟨-,i,hi,hid,-,hresolved,hothers⟩
          obtain rfl := Table.eq_of_key hids hi (by simp) hid
          exact ⟨hresolved,hothers⟩
      · have hsettled : isUnresolved (setIssueStatus disposition.status resolvedAt issue) = false := by
          cases disposition
          · exact absurd rfl hacknowledged
          · rfl
          · rfl
        exact iff_of_true (nodup_unresolvedKeys_settled hsettled hsingle) fun h => hacknowledged h.1

end

/-- Over any sequence of scans and status updates from a store without issues, every finding has at
most one unresolved issue throughout exactly when no request overlooks one. -/
theorem singleIssues_iff (offset : ℤ) {s : Store} (hs : s.compliance.flaggedIssues = []) {requests : List IssueRequest}
    (hids : Runs.Along (IssueRequest.next offset) (fun s _ => IssueIds s) s requests) :
    Runs.Always (IssueRequest.next offset) SingleIssues s requests ↔
      Runs.Along (IssueRequest.next offset) (fun s req => ¬ Overlooks offset s req) s requests := by
  have hshaped : Shaped s.compliance.flaggedIssues := by
    rw [hs]
    refine ⟨fun i hi => ?_,fun i hi => ?_⟩
    · cases hi
    · cases hi
  have hsingle : SingleIssues s := by
    rw [SingleIssues,hs]
    exact List.nodup_nil
  exact Runs.always_iff_along (A := fun s _ => IssueIds s) (I := fun s => Shaped s.compliance.flaggedIssues)
    (fun _ req hI hA _ _ => shaped_next offset hI hA req)
    (fun _ req hI hA hP => singleIssues_next_iff offset hI hA hP req) hshaped hsingle hids

/-- A company with two payroll runs for June 2026. -/
def paidTwice : Store where
  org := { companies := [sariSariStore] }
  payroll := { payrollRuns := [⟨1,300,20605 * msPerDay,20634 * msPerDay,.finalized,none,none,0⟩,
    ⟨2,300,20605 * msPerDay,20634 * msPerDay,.draft,none,none,0⟩] }

/-- A scan in July 2026 with ids of its own. -/
def julyScan (n : ℕ) : IssueRequest := .scan 300 ⟨fun i => i,fun i => 10 * n + i,fun i => i⟩ (20640 * msPerDay)

/-- A dismissed duplicate is raised once more. -/
theorem singleIssues_iff_paidTwice :
    Runs.Always (IssueRequest.next 0) SingleIssues paidTwice
      [julyScan 1,julyScan 2,.updateIssueStatus 300 12 .dismissed 0,julyScan 3] := by
  have hs : paidTwice.compliance.flaggedIssues = [] := rfl
  refine (singleIssues_iff 0 hs ?_).mpr ?_
  · decide +kernel
  · decide +kernel

/-- An acknowledged one as well, while it is unresolved. -/
theorem paidTwice_not_singleIssues :
    ¬ Runs.Always (IssueRequest.next 0) SingleIssues paidTwice
      [julyScan 1,.updateIssueStatus 300 12 .acknowledged 0,julyScan 2] := by
  intro h
  have hlast := h.last
  revert hlast
  unfold SingleIssues
  decide +kernel

end PinoyTax.Compliance
