import PinoyTax.Compliance.Scans
import PinoyTax.Foundation.CheckedInsert

/-! # Scans of one company at the same time

A scan looks up three things and inserts what it does not find: the deadlines all at
once, each category of the status rows, and the issue about the VAT classification. No
key of the tables keeps two scans apart.
-/
namespace PinoyTax.Compliance
open PinoyTax Foundation Calendar CheckedInsert

section
variable (companyId : Uuid)

def deadlineKeys (s : Store) : List (String × DateTime × DateTime) :=
  (s.compliance.filingDeadlines.filter fun d => d.companyId = companyId).map deadlineKey

def categories (s : Store) : List String :=
  (s.compliance.complianceStatus.filter fun c => c.companyId = companyId).map ComplianceStatus.category

/-- One mark for each open issue about the VAT classification. -/
def vatMarks (s : Store) : List Unit :=
  (s.compliance.flaggedIssues.filter (isOpenIssue companyId .vat_misclassification)).map fun _ => ()

/-- The rows of the company that scans insert are there once. -/
structure Unique (s : Store) : Prop where
  filingDeadlines : (deadlineKeys companyId s).Nodup
  complianceStatus : (categories companyId s).Nodup
  vatIssues : (s.compliance.flaggedIssues.filter (isOpenIssue companyId .vat_misclassification)).length ≤ 1

variable (offset : ℤ)

/-- The scans, each before its first statement. -/
def scansFrom (s : Store) (scans : List (ScanDraw × DateTime)) : Config Store Label ApiException Unit :=
  ⟨s,scans.map fun scan => runComplianceScan offset companyId scan.1 scan.2⟩

/-- What a scan inserts no other scan is about to insert, and it is not about to insert a
deadline that is there. -/
structure ScansApart (_ : List Unit) (c : Config Store Label ApiException Unit) (i : ℕ) (_ : Label)
    (c' : Config Store Label ApiException Unit) : Prop where
  filingDeadlines : ¬ Collides (deadlineKeys companyId) c i
  found : ¬ Misses (deadlineKeys companyId) c' i
  complianceStatus : ¬ Collides (categories companyId) c i
  vatIssues : ¬ Collides (vatMarks companyId) c i

instance (s : Store) : Decidable (Unique companyId s) :=
  decidable_of_iff ((deadlineKeys companyId s).Nodup ∧ (categories companyId s).Nodup ∧
    (s.compliance.flaggedIssues.filter (isOpenIssue companyId .vat_misclassification)).length ≤ 1)
    ⟨fun h => ⟨h.1,h.2.1,h.2.2⟩,fun h => ⟨h.filingDeadlines,h.complianceStatus,h.vatIssues⟩⟩

instance (notes : List Unit) (c : Config Store Label ApiException Unit) (i : ℕ) (l : Label)
    (c' : Config Store Label ApiException Unit) : Decidable (ScansApart companyId notes c i l c') :=
  decidable_of_iff (¬ Collides (deadlineKeys companyId) c i ∧ ¬ Misses (deadlineKeys companyId) c' i ∧
    ¬ Collides (categories companyId) c i ∧ ¬ Collides (vatMarks companyId) c i)
    ⟨fun h => ⟨h.1,h.2.1,h.2.2.1,h.2.2.2⟩,fun h => ⟨h.filingDeadlines,h.found,h.complianceStatus,h.vatIssues⟩⟩

variable {companyId}

theorem nodup_vatMarks_iff {s : Store} : (vatMarks companyId s).Nodup ↔
    (s.compliance.flaggedIssues.filter (isOpenIssue companyId .vat_misclassification)).length ≤ 1 := by
  unfold vatMarks
  generalize s.compliance.flaggedIssues.filter (isOpenIssue companyId .vat_misclassification) = issues
  match issues with
  | [] => simp
  | [_] => simp
  | _ :: _ :: _ => simp

/-! ## What a scan inserts -/

theorem filter_rows (today : DateTime) (ids : ℕ → Uuid) (cs : List (Candidate × ℕ)) :
    (cs.map fun c => deadlineRow companyId today (ids c.2) c.1).filter (fun d => d.companyId = companyId) =
      cs.map fun c => deadlineRow companyId today (ids c.2) c.1 := by
  rw [List.filter_eq_self]
  intro d hd
  obtain ⟨c,-,rfl⟩ := List.mem_map.mp hd
  exact decide_eq_true rfl

/-- On a server whose days are those of UTC a candidate that is not found is not there. -/
theorem storedKey_not_mem (hoffset : msPerDay ∣ offset) {s : Store} {f : Filing}
    (h : isMissing companyId s.compliance.filingDeadlines (f.candidate offset) = true) :
    storedKey (f.candidate offset) ∉ deadlineKeys companyId s := by
  intro hmem
  obtain ⟨d,hd,hkey⟩ := List.mem_map.mp hmem
  have hself (day : ℤ) : dateColumn (midnight offset day) = midnight offset day :=
    (dateColumn_midnight_eq_self_iff offset).mpr hoffset
  simp only [deadlineKey,storedKey,Filing.candidate,hself,Prod.mk.injEq] at hkey
  rw [isMissing,Bool.not_eq_true',existsAlready,List.any_eq_false] at h
  refine h d hd ?_
  simp [Filing.candidate,hkey.1,hkey.2.1,hkey.2.2]

theorem checks_generateFilingDeadlines (company : Company) (ids : ℕ → Uuid) (today : DateTime) :
    Checks (deadlineKeys companyId) (msPerDay ∣ offset)
      (generateFilingDeadlines offset companyId company ids today) := by
  apply Checks.bind (checks_of_keeps (Prog.guarantees_query fun _ => rfl))
  intro activeEmployeeCount
  apply checks_query_bind
  intro s
  have hcreate := filter_existsAlready companyId (candidates offset company activeEmployeeCount today)
    (Prisma.filingDeadline.get s)
  refine ⟨((candidates offset company activeEmployeeCount today).filter
    (isMissing companyId (Prisma.filingDeadline.get s))).map storedKey,?_,?_,?_⟩
  · exact (nodup_storedKey offset company activeEmployeeCount today).sublist (List.filter_sublist.map _)
  · intro hoffset k hk
    obtain ⟨c,hc,rfl⟩ := List.mem_map.mp hk
    obtain ⟨hc,hmissing⟩ := List.mem_filter.mp hc
    rw [candidates_eq] at hc
    obtain ⟨f,-,rfl⟩ := List.mem_map.mp hc
    exact storedKey_not_mem offset hoffset hmissing
  · dsimp only
    rw [hcreate]
    split
    · refine follows_insert (fun t => ?_) fun _ => rfl
      change ((t.compliance.filingDeadlines ++ _).filter _).map deadlineKey = _
      rw [List.filter_append,List.map_append,filter_rows,map_deadlineKey_rows]
      rfl
    · rename_i hnone
      rw [List.eq_nil_of_length_eq_zero (Nat.eq_zero_of_not_pos hnone)]
      rfl

theorem checks_flagUnless (companyId : Uuid) {issue : FlaggedIssue} (hissue : isOpenIssue companyId .vat_misclassification issue = true) :
    Checks (vatMarks companyId) True (flagUnless (isOpenIssue companyId .vat_misclassification) issue) := by
  apply checks_query_bind
  intro s
  cases hfound : (Prisma.flaggedIssue.get s).find? (isOpenIssue companyId .vat_misclassification) with
  | some i =>
    exact ⟨[],List.nodup_nil,fun _ _ h => absurd h List.not_mem_nil,rfl⟩
  | none =>
    refine ⟨[()],List.nodup_singleton _,?_,?_⟩
    · intro _ _ _ hmem
      obtain ⟨i,hi,-⟩ := List.mem_map.mp hmem
      obtain ⟨hi,hopen⟩ := List.mem_filter.mp hi
      exact List.find?_eq_none.mp hfound i hi hopen
    · refine follows_insert (fun t => ?_) fun _ => rfl
      change ((t.compliance.flaggedIssues ++ [issue]).filter _).map _ = _
      rw [List.filter_append,List.map_append,List.filter_cons_of_pos hissue]
      rfl

theorem checks_checkVatClassificationRisk (company : Company) (id : Uuid) (now : DateTime) :
    Checks (vatMarks companyId) True (checkVatClassificationRisk companyId company id now) := by
  apply Checks.bind (checks_of_keeps (Prog.guarantees_query fun _ => rfl))
  intro rule
  cases rule with
  | none => rfl
  | some thresholdRule =>
    dsimp only
    cases thresholdRule.ratesHistory with
    | nil => rfl
    | cons rate rest =>
      dsimp only
      split
      · rfl
      · apply Checks.bind (checks_of_keeps (Prog.guarantees_query fun _ => rfl))
        intro confirmed
        split
        · exact checks_flagUnless companyId (by simp [isOpenIssue,vatIssue])
        · rfl

theorem checks_recordCounts (now : DateTime) (id : Uuid) (bucket : String × Counts) :
    Checks (categories companyId) True (recordCounts companyId now id bucket) := by
  apply checks_query_bind
  intro s
  cases hfound : (Prisma.complianceStatus.get s).find? (isStatusOf companyId bucket.1) with
  | some existing =>
    refine ⟨[],List.nodup_nil,fun _ _ h => absurd h List.not_mem_nil,?_⟩
    refine Checks.bind (checks_of_keeps fun t => ⟨?_,?_⟩) fun _ => rfl
    · have hcompany (c : ComplianceStatus) :
          decide ((setCounts bucket.2 now c).companyId = companyId) = decide (c.companyId = companyId) := rfl
      have hcategory (c : ComplianceStatus) : (setCounts bucket.2 now c).category = c.category := rfl
      change ((Table.updateMany _ _ t.compliance.complianceStatus).filter _).map _ = _
      rw [Table.filter_updateMany hcompany,Table.map_updateMany _ hcategory]
      rfl
    · dsimp only
      cases (Prisma.complianceStatus.get t).find? fun c => c.id = existing.id <;> trivial
  | none =>
    refine ⟨[bucket.1],List.nodup_singleton _,?_,?_⟩
    · intro _ k hk hmem
      obtain rfl := List.mem_singleton.mp hk
      obtain ⟨c,hc,hcategory⟩ := List.mem_map.mp hmem
      obtain ⟨hc,hcompany⟩ := List.mem_filter.mp hc
      refine List.find?_eq_none.mp hfound c hc ?_
      rw [isStatusOf,hcompany,Bool.true_and]
      exact decide_eq_true hcategory
    · refine follows_insert (fun t => ?_) fun _ => rfl
      change ((t.compliance.complianceStatus ++ [_]).filter _).map _ = _
      rw [List.filter_append,List.map_append]
      simp [categories,setCounts]

theorem checks_recordAll (now : DateTime) (ids : ℕ → Uuid) (buckets : List (String × Counts)) :
    Checks (categories companyId) True (recordAll companyId now ids buckets) := by
  induction buckets generalizing ids with
  | nil => rfl
  | cons bucket buckets ih => exact Checks.bind (checks_recordCounts now _ bucket) fun _ => ih _

/-! ## The three look-ups of a scan -/

variable (draw : ScanDraw) (now : DateTime)

/-- A scan looks up and inserts what its four parts do. -/
theorem checks_runComplianceScan {κ : Type} {keys : Store → List κ} {exact : Prop}
    (hdeadlines : ∀ company, Checks keys exact (generateFilingDeadlines offset companyId company draw.deadlineIds now))
    (hvat : ∀ company, Checks keys exact (checkVatClassificationRisk companyId company (draw.issueIds 0) now))
    (hduplicates : Checks keys exact (checkDuplicatePayrollRuns offset companyId (fun i => draw.issueIds (i + 1)) now))
    (hcounts : Checks keys exact (recomputeComplianceStatus companyId draw.statusIds now)) :
    Checks keys exact (runComplianceScan offset companyId draw now) := by
  apply Checks.bind (checks_of_keeps (Prog.guarantees_query fun _ => rfl))
  intro found
  cases found with
  | none => rfl
  | some company =>
    apply Checks.bind (hdeadlines company)
    intro _
    apply Checks.bind (hvat company)
    intro _
    exact Checks.bind hduplicates fun _ => hcounts

theorem checks_filingDeadlines : Checks (deadlineKeys companyId) (msPerDay ∣ offset)
    (runComplianceScan offset companyId draw now) := by
  apply checks_runComplianceScan
  · exact fun company => checks_generateFilingDeadlines offset company _ now
  · exact fun _ => checks_of_keeps (keeps_checkVatClassificationRisk _ _ _ _ fun _ _ _ => rfl)
  · exact checks_of_keeps (keeps_checkDuplicatePayrollRuns _ _ _ (fun _ _ _ => rfl) _)
  · exact checks_of_keeps (keeps_recomputeComplianceStatus (fun _ _ => rfl) _ _ _)

theorem checks_complianceStatus : Checks (categories companyId) True
    (runComplianceScan offset companyId draw now) := by
  apply checks_runComplianceScan
  · exact fun _ => checks_of_keeps (keeps_generateFilingDeadlines (fun _ _ => rfl) _ _ _ _ _)
  · exact fun _ => checks_of_keeps (keeps_checkVatClassificationRisk _ _ _ _ fun _ _ _ => rfl)
  · exact checks_of_keeps (keeps_checkDuplicatePayrollRuns _ _ _ (fun _ _ _ => rfl) _)
  · exact Checks.bind (checks_of_keeps (Prog.guarantees_query fun _ => rfl)) fun _ => checks_recordAll now _ _

/-- An issue about a payroll run is not one about the VAT classification. -/
theorem vatMarks_duplicateIssue (run : PayrollRun) (id : Uuid) (s : Store) :
    vatMarks companyId (Prisma.flaggedIssue.set
      (Prisma.flaggedIssue.get s ++ [duplicateIssue offset companyId run id now]) s) = vatMarks companyId s := by
  change ((s.compliance.flaggedIssues ++ [_]).filter _).map _ = _
  rw [List.filter_append]
  simp [vatMarks,isOpenIssue,duplicateIssue]

theorem checks_vatIssues : Checks (vatMarks companyId) True (runComplianceScan offset companyId draw now) := by
  apply checks_runComplianceScan
  · exact fun _ => checks_of_keeps (keeps_generateFilingDeadlines (fun _ _ => rfl) _ _ _ _ _)
  · exact fun company => checks_checkVatClassificationRisk company _ now
  · exact checks_of_keeps (keeps_checkDuplicatePayrollRuns _ _ _ (vatMarks_duplicateIssue offset now) _)
  · exact checks_of_keeps (keeps_recomputeComplianceStatus (fun _ _ => rfl) _ _ _)

end

/-! ## All interleavings -/

/-- For every interleaving of scans of a company that all complete, its deadlines, status rows and
VAT issue are there once exactly when they were before and the scans kept apart. -/
theorem unique_iff_scansApart (companyId : Uuid) (offset : ℤ) (s : Store) (scans : List (ScanDraw × DateTime))
    (tr : List (ℕ × Label)) (d : Config Store Label ApiException Unit)
    (h : Steps (scansFrom companyId offset s scans) tr d) (hd : d.Completed) :
    Unique companyId d.state ↔ Unique companyId s ∧
      Whenever unobserved (ScansApart companyId) (scansFrom companyId offset s scans) tr [] := by
  have hdeadlines := nodup_map_iff (fun scan _ => checks_filingDeadlines offset scan.1 scan.2) h hd
  have hstatus := nodup_map_iff_of_exact trivial (fun scan _ => checks_complianceStatus offset scan.1 scan.2) h hd
  have hvat := nodup_map_iff_of_exact trivial (fun scan _ => checks_vatIssues offset scan.1 scan.2) h hd
  rw [nodup_vatMarks_iff,nodup_vatMarks_iff] at hvat
  constructor
  · rintro ⟨hfiling,hcategories,hissues⟩
    obtain ⟨hfiling,hapart⟩ := hdeadlines.mp hfiling
    obtain ⟨hcategories,hapart'⟩ := hstatus.mp hcategories
    obtain ⟨hissues,hapart''⟩ := hvat.mp hissues
    refine ⟨⟨hfiling,hcategories,hissues⟩,?_⟩
    intro tr₁ i l tr₂ e e' htr he hs
    obtain ⟨hcollides,hmisses⟩ := hapart tr₁ i l tr₂ e e' htr he hs
    exact ⟨hcollides,hmisses,hapart' tr₁ i l tr₂ e e' htr he hs,hapart'' tr₁ i l tr₂ e e' htr he hs⟩
  · rintro ⟨⟨hfiling,hcategories,hissues⟩,hapart⟩
    refine ⟨hdeadlines.mpr ⟨hfiling,?_⟩,hstatus.mpr ⟨hcategories,?_⟩,hvat.mpr ⟨hissues,?_⟩⟩
    · intro tr₁ i l tr₂ e e' htr he hs
      have hstep := hapart tr₁ i l tr₂ e e' htr he hs
      exact ⟨hstep.filingDeadlines,hstep.found⟩
    · exact fun tr₁ i l tr₂ e e' htr he hs => (hapart tr₁ i l tr₂ e e' htr he hs).complianceStatus
    · exact fun tr₁ i l tr₂ e e' htr he hs => (hapart tr₁ i l tr₂ e e' htr he hs).vatIssues

/-- A company that is not registered for VAT and has sold for more than the threshold. -/
def grownStore : Store where
  org := { companies := [sariSariStore] }
  taxEngine :=
    { taxRules := [⟨1,"VAT_REGISTRATION_THRESHOLD",none,0,none,[⟨1,3000000,none,none,0,none⟩]⟩]
      taxComputations := [
        { id := 1, companyId := 300, computationType := .percentage_tax
          periodStart := 20362 * msPerDay, periodEnd := 20453 * msPerDay
          inputs := { computationType := .percentage_tax, periodStart := 20362 * msPerDay, periodEnd := 20453 * msPerDay,
                      grossSales := some 4000000 }
          ruleIdsUsed := [], result := some ⟨12000000⟩, missingInputs := [], status := .confirmed, createdAt := 0 }] }

/-- Two scans of 10 January 2026. -/
def twoScans : List (ScanDraw × DateTime) :=
  [(⟨fun i => i,fun i => i,fun i => i⟩,20463 * msPerDay),
    (⟨fun i => 100 + i,fun i => 100 + i,fun i => 100 + i⟩,20463 * msPerDay)]

/-- One scan after the other. -/
theorem unique_iff_scansApart_grownStore :
    ∃ tr d, Steps (scansFrom 300 0 grownStore twoScans) tr d ∧ d.Completed ∧ Unique 300 d.state := by
  obtain ⟨tr,d,h,hd,hapart⟩ : ∃ tr d, Steps (scansFrom 300 0 grownStore twoScans) tr d ∧ d.Completed ∧
      Whenever unobserved (ScansApart 300) (scansFrom 300 0 grownStore twoScans) tr [] :=
    Steps.exists_of_playTrace [0,0,0,0,0,0,0,0,0,0,0,0,1,1,1,1,1,1,1,1,1,1] (by decide +kernel)
  exact ⟨tr,d,h,hd,(unique_iff_scansApart 300 0 grownStore twoScans tr d h hd).mpr ⟨by decide +kernel,hapart⟩⟩

/-- Two scans, statement by statement in turn: each look-up is made before the other scan inserts. -/
theorem grownStore_not_unique :
    Unique 300 grownStore ∧ ∃ tr d, Steps (scansFrom 300 0 grownStore twoScans) tr d ∧ d.Completed ∧
      ¬ (deadlineKeys 300 d.state).Nodup ∧ ¬ (categories 300 d.state).Nodup ∧
      1 < (d.state.compliance.flaggedIssues.filter (isOpenIssue 300 .vat_misclassification)).length :=
  ⟨by decide +kernel,Steps.exists_of_playTrace [0,1,0,1,0,1,0,1,0,1,0,1,0,1,0,1,0,1,0,1,0,1,0,1] (by decide +kernel)⟩

end PinoyTax.Compliance
