import PinoyTax.Compliance.Filings

/-! # What a scan leaves

The deadlines that a scan adds are the candidates it does not find, and no other part of
it touches them. Likewise the two checks are the only parts that add issues.
-/
namespace PinoyTax.Compliance
open PinoyTax Foundation Calendar

/-! ## The frame of each part -/

section
variable {τ : Type} {g : Store → τ}

theorem keeps_flagUnless {issue : FlaggedIssue}
    (hissue : ∀ s, g (Prisma.flaggedIssue.set (Prisma.flaggedIssue.get s ++ [issue]) s) = g s)
    (alreadyFlagged : FlaggedIssue → Bool) : (flagUnless alreadyFlagged issue).Keeps g := by
  apply Prog.Guarantees.bind (Prog.guarantees_query fun _ => rfl)
  intro found
  cases found with
  | some _ => trivial
  | none => exact fun s => ⟨hissue s,trivial⟩

theorem keeps_checkVatClassificationRisk (companyId : Uuid) (company : Company) (id : Uuid) (now : DateTime)
    (hissue : ∀ total threshold s, g (Prisma.flaggedIssue.set
      (Prisma.flaggedIssue.get s ++ [vatIssue companyId total threshold id now]) s) = g s) :
    (checkVatClassificationRisk companyId company id now).Keeps g := by
  apply Prog.Guarantees.bind (Prog.guarantees_query fun _ => rfl)
  intro rule
  cases rule with
  | none => trivial
  | some thresholdRule =>
    dsimp only
    cases thresholdRule.ratesHistory with
    | nil => trivial
    | cons rate rest =>
      dsimp only
      split
      · trivial
      · apply Prog.Guarantees.bind (Prog.guarantees_query fun _ => rfl)
        intro confirmed
        split
        · exact keeps_flagUnless (hissue _ _) _
        · trivial

theorem keeps_flagDuplicates (offset : ℤ) (companyId : Uuid) (now : DateTime)
    (hissue : ∀ run id s, g (Prisma.flaggedIssue.set
      (Prisma.flaggedIssue.get s ++ [duplicateIssue offset companyId run id now]) s) = g s)
    (ids : ℕ → Uuid) (seenPeriods : List String) (runs : List PayrollRun) :
    (flagDuplicates offset companyId now ids seenPeriods runs).Keeps g := by
  induction runs generalizing ids seenPeriods with
  | nil => trivial
  | cons run runs ih =>
    rw [flagDuplicates]
    split
    · exact Prog.Guarantees.bind (keeps_flagUnless (hissue _ _) _) fun _ => ih _ _
    · exact ih _ _

theorem keeps_checkDuplicatePayrollRuns (offset : ℤ) (companyId : Uuid) (now : DateTime)
    (hissue : ∀ run id s, g (Prisma.flaggedIssue.set
      (Prisma.flaggedIssue.get s ++ [duplicateIssue offset companyId run id now]) s) = g s)
    (ids : ℕ → Uuid) : (checkDuplicatePayrollRuns offset companyId ids now).Keeps g :=
  Prog.Guarantees.bind (Prog.guarantees_query fun _ => rfl) fun _ => keeps_flagDuplicates _ _ _ hissue _ _ _

theorem keeps_recordCounts (hstatus : ∀ rows s, g (Prisma.complianceStatus.set rows s) = g s) (companyId : Uuid)
    (now : DateTime) (id : Uuid) (bucket : String × Counts) : (recordCounts companyId now id bucket).Keeps g := by
  apply Prog.Guarantees.bind (Prog.guarantees_query fun _ => rfl)
  intro found
  cases found with
  | some existing => exact Prog.Guarantees.bind (keeps_update hstatus _ _) fun _ => trivial
  | none => exact fun s => ⟨hstatus _ s,trivial⟩

theorem keeps_recordAll (hstatus : ∀ rows s, g (Prisma.complianceStatus.set rows s) = g s) (companyId : Uuid)
    (now : DateTime) (ids : ℕ → Uuid) (buckets : List (String × Counts)) :
    (recordAll companyId now ids buckets).Keeps g := by
  induction buckets generalizing ids with
  | nil => trivial
  | cons bucket buckets ih => exact Prog.Guarantees.bind (keeps_recordCounts hstatus _ _ _ _) fun _ => ih _

theorem keeps_recomputeComplianceStatus (hstatus : ∀ rows s, g (Prisma.complianceStatus.set rows s) = g s)
    (companyId : Uuid) (ids : ℕ → Uuid) (now : DateTime) : (recomputeComplianceStatus companyId ids now).Keeps g :=
  Prog.Guarantees.bind (Prog.guarantees_query fun _ => rfl) fun _ => keeps_recordAll hstatus _ _ _ _

theorem keeps_generateFilingDeadlines (hdeadline : ∀ rows s, g (Prisma.filingDeadline.set rows s) = g s) (offset : ℤ)
    (companyId : Uuid) (company : Company) (ids : ℕ → Uuid) (today : DateTime) :
    (generateFilingDeadlines offset companyId company ids today).Keeps g := by
  apply Prog.Guarantees.bind (Prog.guarantees_query fun _ => rfl)
  intro activeEmployeeCount
  apply Prog.Guarantees.bind (Prog.guarantees_query fun _ => rfl)
  intro existing
  dsimp only
  split
  · exact fun s => ⟨hdeadline _ s,trivial⟩
  · trivial

theorem keeps_runComplianceScan (hdeadline : ∀ rows s, g (Prisma.filingDeadline.set rows s) = g s)
    (hissue : ∀ rows s, g (Prisma.flaggedIssue.set rows s) = g s)
    (hstatus : ∀ rows s, g (Prisma.complianceStatus.set rows s) = g s) (offset : ℤ) (companyId : Uuid)
    (draw : ScanDraw) (now : DateTime) : (runComplianceScan offset companyId draw now).Keeps g := by
  apply Prog.Guarantees.bind (Prog.guarantees_query fun _ => rfl)
  intro found
  cases found with
  | none => trivial
  | some company =>
    apply Prog.Guarantees.bind (keeps_generateFilingDeadlines hdeadline offset companyId company _ now)
    intro _
    apply Prog.Guarantees.bind (keeps_checkVatClassificationRisk companyId company _ now fun _ _ _ => hissue _ _)
    intro _
    apply Prog.Guarantees.bind (keeps_checkDuplicatePayrollRuns offset companyId now (fun _ _ _ => hissue _ _) _)
    intro _
    exact keeps_recomputeComplianceStatus hstatus companyId _ now

end

/-! ## The deadlines that are added -/

section
variable (offset : ℤ) (companyId : Uuid)

/-- No deadline of the company has the key of the candidate. -/
def isMissing (deadlines : List FilingDeadline) (c : Candidate) : Bool :=
  !existsAlready (deadlines.filter fun d => d.companyId = companyId) c

def newDeadlines (company : Company) (ids : ℕ → Uuid) (today : DateTime) (s : Store) : List FilingDeadline :=
  ((candidates offset company (activeEmployees s companyId).length today).filter
    (isMissing companyId s.compliance.filingDeadlines)).zipIdx.map (fun c => deadlineRow companyId today (ids c.2) c.1)

variable {companyId} in
/-- The look-up by company and form finds what the look-up by company finds. -/
theorem existsAlready_existing {cs : List Candidate} {c : Candidate} (hc : c ∈ cs) (deadlines : List FilingDeadline) :
    (!existsAlready (deadlines.filter fun d =>
      decide (d.companyId = companyId) && (cs.map Candidate.formCode).contains d.formCode) c) =
        isMissing companyId deadlines c := by
  rw [isMissing,existsAlready,existsAlready,List.any_filter,List.any_filter]
  congr 2
  funext d
  by_cases hform : d.formCode = c.formCode
  · have hmem : (cs.map Candidate.formCode).contains d.formCode = true := by
      rw [hform,List.contains_iff_mem]
      exact List.mem_map_of_mem hc
    rw [hmem,Bool.and_true]
  · have hne : (d.formCode == c.formCode) = false := beq_false_of_ne hform
    simp only [hne,Bool.false_and,Bool.and_false]

theorem filter_existsAlready (cs : List Candidate) (deadlines : List FilingDeadline) :
    cs.filter (fun c => !existsAlready (deadlines.filter fun d =>
      decide (d.companyId = companyId) && (cs.map Candidate.formCode).contains d.formCode) c) =
        cs.filter (isMissing companyId deadlines) :=
  List.filter_congr fun _ hc => existsAlready_existing hc deadlines

theorem run_generateFilingDeadlines (company : Company) (ids : ℕ → Uuid) (today : DateTime) (s : Store) :
    (generateFilingDeadlines offset companyId company ids today).run s = (.ok (),
      Prisma.filingDeadline.set (s.compliance.filingDeadlines ++ newDeadlines offset companyId company ids today s) s) := by
  have hcount : ((Prisma.employee.get s).filter (isActiveIn companyId)).length = (activeEmployees s companyId).length := rfl
  have hexisting (cs : List Candidate) : (Prisma.filingDeadline.get s).filter (fun d =>
      decide (d.companyId = companyId) && (cs.map Candidate.formCode).contains d.formCode) =
      s.compliance.filingDeadlines.filter fun d =>
        decide (d.companyId = companyId) && (cs.map Candidate.formCode).contains d.formCode := rfl
  unfold generateFilingDeadlines newDeadlines
  rw [Prog.run_bind,TableRef.run_count,Prog.resume_ok,hcount]
  dsimp only
  rw [Prog.run_bind,TableRef.run_findMany,Prog.resume_ok,hexisting,filter_existsAlready]
  split
  · rfl
  · rename_i hnone
    rw [List.eq_nil_of_length_eq_zero (Nat.eq_zero_of_not_pos hnone)]
    simp only [List.zipIdx_nil,List.map_nil,List.append_nil]
    rfl

theorem mem_newDeadlines {company : Company} {ids : ℕ → Uuid} {today : DateTime} {s : Store} {d : FilingDeadline}
    (h : d ∈ newDeadlines offset companyId company ids today s) :
    ∃ f ∈ expectedFilings company (activeEmployees s companyId).length (localDays offset today), ∃ id,
      isMissing companyId s.compliance.filingDeadlines (f.candidate offset) = true ∧
        d = deadlineRow companyId today id (f.candidate offset) := by
  obtain ⟨⟨c,i⟩,hc,rfl⟩ := List.mem_map.mp h
  obtain ⟨hmem,hmissing⟩ := List.mem_filter.mp (List.fst_mem_of_mem_zipIdx hc)
  rw [candidates_eq] at hmem
  obtain ⟨f,hf,rfl⟩ := List.mem_map.mp hmem
  exact ⟨f,hf,_,hmissing,rfl⟩

theorem exists_newDeadline {company : Company} {today : DateTime} {s : Store} {f : Filing} (ids : ℕ → Uuid)
    (hf : f ∈ expectedFilings company (activeEmployees s companyId).length (localDays offset today))
    (hmissing : isMissing companyId s.compliance.filingDeadlines (f.candidate offset) = true) :
    ∃ id, deadlineRow companyId today id (f.candidate offset) ∈ newDeadlines offset companyId company ids today s := by
  have hmem : f.candidate offset ∈ (candidates offset company (activeEmployees s companyId).length today).filter
      (isMissing companyId s.compliance.filingDeadlines) := by
    rw [candidates_eq]
    exact List.mem_filter.mpr ⟨List.mem_map_of_mem hf,hmissing⟩
  obtain ⟨i,hi,hget⟩ := List.mem_iff_getElem.mp hmem
  refine ⟨ids i,List.mem_map.mpr ⟨(f.candidate offset,i),?_,rfl⟩⟩
  rw [List.mem_zipIdx_iff_getElem?,List.getElem?_eq_getElem hi,hget]

/-- A scan of a company that is there adds its missing deadlines. -/
theorem deadlines_runComplianceScan (draw : ScanDraw) (now : DateTime) (s : Store) :
    ((runComplianceScan offset companyId draw now).run s).2.compliance.filingDeadlines =
      s.compliance.filingDeadlines ++ match s.org.companies.find? (fun c => c.id = companyId) with
        | none => []
        | some company => newDeadlines offset companyId company draw.deadlineIds now s := by
  rw [runComplianceScan,Prog.run_bind,TableRef.run_findUnique,Prog.resume_ok]
  have hget : Prisma.company.get s = s.org.companies := rfl
  rw [hget]
  cases s.org.companies.find? (fun c => c.id = companyId) with
  | none => exact (List.append_nil _).symm
  | some company =>
    dsimp only
    rw [Prog.run_bind,run_generateFilingDeadlines,Prog.resume_ok]
    have hvat := keeps_checkVatClassificationRisk (g := fun s => s.compliance.filingDeadlines) companyId company
      (draw.issueIds 0) now fun _ _ _ => rfl
    have hdup := keeps_checkDuplicatePayrollRuns (g := fun s => s.compliance.filingDeadlines)
      offset companyId now (fun _ _ _ => rfl) (fun i => draw.issueIds (i + 1))
    have hcount := keeps_recomputeComplianceStatus (g := fun s => s.compliance.filingDeadlines) (fun _ _ => rfl)
      companyId draw.statusIds now
    have hrest := Prog.Guarantees.bind hvat fun _ => Prog.Guarantees.bind hdup fun _ => hcount
    exact Prog.Keeps.run hrest _

/-! ## The keys of the rows -/

def deadlineKey (d : FilingDeadline) : String × DateTime × DateTime := (d.formCode,d.periodStart,d.periodEnd)

/-- The key of the row that a candidate becomes. -/
def storedKey (c : Candidate) : String × DateTime × DateTime :=
  (c.formCode,dateColumn c.periodStart,dateColumn c.periodEnd)

theorem map_deadlineKey_rows (today : DateTime) (ids : ℕ → Uuid) (cs : List Candidate) (n : ℕ) :
    ((cs.zipIdx n).map fun c => deadlineRow companyId today (ids c.2) c.1).map deadlineKey = cs.map storedKey := by
  induction cs generalizing n with
  | nil => rfl
  | cons c cs ih =>
    rw [List.zipIdx_cons,List.map_cons,List.map_cons,List.map_cons,ih]
    rfl

theorem nodup_storedKey (company : Company) (activeEmployeeCount : ℕ) (today : DateTime) :
    ((candidates offset company activeEmployeeCount today).map storedKey).Nodup := by
  have hkey : (candidates offset company activeEmployeeCount today).map storedKey =
      ((expectedFilings company activeEmployeeCount (localDays offset today)).map filingKey).map
        fun k => (k.1,dateColumn (midnight offset k.2.1),dateColumn (midnight offset k.2.2)) := by
    rw [candidates_eq,List.map_map,List.map_map]
    rfl
  rw [hkey]
  refine List.Nodup.map ?_ (nodup_expectedFilings company activeEmployeeCount _)
  rintro ⟨form,first,last⟩ ⟨form',first',last'⟩ h
  simp only [Prod.mk.injEq,dateColumn_midnight_inj] at h ⊢
  exact h

end
end PinoyTax.Compliance
