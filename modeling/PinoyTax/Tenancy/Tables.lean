import PinoyTax.Tenancy.Restriction

/-! # The tables of the four services

Seven tables with look-ups by primary key name their company in a column, and so do the
deadlines. Payslips and versions are reached through the row that owns them.
-/
namespace PinoyTax.Tenancy
open PinoyTax Foundation

/-! ## Ownership through a run or a document -/

section Owns
variable {s : Store} {companyId : Uuid}

theorem ownsRun_iff (hs : WellFormed s) {run : PayrollRun} (hrun : run ∈ s.payroll.payrollRuns) :
    ownsRun companyId s run.id = true ↔ run.companyId = companyId := by
  simp only [ownsRun,List.any_eq_true,Bool.and_eq_true,decide_eq_true_eq]
  constructor
  · rintro ⟨r,hr,hid,hc⟩
    rw [← Table.eq_of_key hs.payrollRuns hr hrun hid]
    exact hc
  · intro hc
    exact ⟨run,hrun,rfl,hc⟩

theorem ownsDocument_iff (hs : WellFormed s) {document : VaultDocument} (hd : document ∈ s.documents.vaultDocuments) :
    ownsDocument companyId s document.id = true ↔ document.companyId = companyId := by
  simp only [ownsDocument,List.any_eq_true,Bool.and_eq_true,decide_eq_true_eq]
  constructor
  · rintro ⟨d,hd',hid,hc⟩
    rw [← Table.eq_of_key hs.vaultDocuments hd' hd hid]
    exact hc
  · intro hc
    exact ⟨document,hd,rfl,hc⟩

/-- A steady change of the runs leaves the owners of the payslips alone. -/
theorem ownsRun_set {runs : List PayrollRun}
    (hsteady : Steady PayrollRun.id PayrollRun.companyId s.payroll.payrollRuns runs) {r : PayrollRun}
    (hr : r ∈ s.payroll.payrollRuns) :
    ownsRun companyId (Prisma.payrollRun.set runs s) r.id = ownsRun companyId s r.id := by
  rw [Bool.eq_iff_iff]
  simpa [ownsRun,Prisma.payrollRun] using hsteady r hr companyId

theorem ownsDocument_set {documents : List VaultDocument}
    (hsteady : Steady VaultDocument.id VaultDocument.companyId s.documents.vaultDocuments documents)
    {d : VaultDocument} (hd : d ∈ s.documents.vaultDocuments) :
    ownsDocument companyId (Prisma.vaultDocument.set documents s) d.id = ownsDocument companyId s d.id := by
  rw [Bool.eq_iff_iff]
  simpa [ownsDocument,Prisma.vaultDocument] using hsteady d hd companyId

end Owns

/-! ## The tables -/

def filingDeadlines : ChildTable FilingDeadline where
  table := Prisma.filingDeadline
  owns c _ d := decide (d.companyId = c)
  get_restrict _ _ _ := rfl
  set_get _ := rfl
  identity_set _ _ := rfl
  org_set _ _ := rfl
  taxRules_set _ _ := rfl
  Points _ _ := True
  points _ _ _ := trivial
  wellFormed_set hs _ := { hs with }
  restrict_set _ _ _ _ := rfl

def payslips : ChildTable Payslip where
  table := Prisma.payslip
  owns c s p := ownsRun c s p.payrollRunId
  get_restrict _ _ _ := rfl
  set_get _ := rfl
  identity_set _ _ := rfl
  org_set _ _ := rfl
  taxRules_set _ _ := rfl
  Points s p := ∃ r ∈ s.payroll.payrollRuns, r.id = p.payrollRunId ∧
    ∃ e ∈ s.payroll.employees, e.id = p.employeeId ∧ e.companyId = r.companyId
  points hs := hs.payslips
  wellFormed_set hs hrows := { hs with payslips := hrows }
  restrict_set _ _ _ _ := rfl

def documentVersions : ChildTable DocumentVersion where
  table := Prisma.documentVersion
  owns c s v := ownsDocument c s v.documentId
  get_restrict _ _ _ := rfl
  set_get _ := rfl
  identity_set _ _ := rfl
  org_set _ _ := rfl
  taxRules_set _ _ := rfl
  Points s v := ∃ d ∈ s.documents.vaultDocuments, d.id = v.documentId
  points hs := hs.documentVersions
  wellFormed_set hs hrows := { hs with documentVersions := hrows }
  restrict_set _ _ _ _ := rfl

def taxComputations : KeyedTable TaxComputation where
  table := Prisma.taxComputation
  owns c _ r := decide (r.companyId = c)
  get_restrict _ _ _ := rfl
  set_get _ := rfl
  identity_set _ _ := rfl
  org_set _ _ := rfl
  taxRules_set _ _ := rfl
  key := TaxComputation.id
  owner := TaxComputation.companyId
  owns_eq _ _ := rfl
  get_set _ _ := rfl
  unique hs := hs.taxComputations
  wellFormed_set hs _ hkeys := { hs with taxComputations := hkeys }
  restrict_set _ _ _ _ := rfl

def complianceStatus : KeyedTable ComplianceStatus where
  table := Prisma.complianceStatus
  owns c _ r := decide (r.companyId = c)
  get_restrict _ _ _ := rfl
  set_get _ := rfl
  identity_set _ _ := rfl
  org_set _ _ := rfl
  taxRules_set _ _ := rfl
  key := ComplianceStatus.id
  owner := ComplianceStatus.companyId
  owns_eq _ _ := rfl
  get_set _ _ := rfl
  unique hs := hs.complianceStatus
  wellFormed_set hs _ hkeys := { hs with complianceStatus := hkeys }
  restrict_set _ _ _ _ := rfl

def flaggedIssues : KeyedTable FlaggedIssue where
  table := Prisma.flaggedIssue
  owns c _ r := decide (r.companyId = c)
  get_restrict _ _ _ := rfl
  set_get _ := rfl
  identity_set _ _ := rfl
  org_set _ _ := rfl
  taxRules_set _ _ := rfl
  key := FlaggedIssue.id
  owner := FlaggedIssue.companyId
  owns_eq _ _ := rfl
  get_set _ _ := rfl
  unique hs := hs.flaggedIssues
  wellFormed_set hs _ hkeys := { hs with flaggedIssues := hkeys }
  restrict_set _ _ _ _ := rfl

def folders : KeyedTable Folder where
  table := Prisma.folder
  owns c _ r := decide (r.companyId = c)
  get_restrict _ _ _ := rfl
  set_get _ := rfl
  identity_set _ _ := rfl
  org_set _ _ := rfl
  taxRules_set _ _ := rfl
  key := Folder.id
  owner := Folder.companyId
  owns_eq _ _ := rfl
  get_set _ _ := rfl
  unique hs := hs.folders
  wellFormed_set hs _ hkeys := { hs with folders := hkeys }
  restrict_set _ _ _ _ := rfl

/-- The employee of a payslip stays of the company of its run. -/
theorem wellFormed_setEmployees {s : Store} {employees : List Employee} (hs : WellFormed s)
    (hsteady : Steady Employee.id Employee.companyId s.payroll.employees employees)
    (hkeys : (employees.map Employee.id).Nodup) : WellFormed (Prisma.employee.set employees s) := by
  refine { hs with employees := hkeys, payslips := fun p hp => ?_ }
  obtain ⟨r,hr,hrun,e,he,hid,hcompany⟩ := hs.payslips p hp
  obtain ⟨q,hq,hqid,hqc⟩ := (hsteady e he r.companyId).mpr ⟨e,he,rfl,hcompany⟩
  exact ⟨r,hr,hrun,q,hq,hqid.trans hid,hqc⟩

def employees : KeyedTable Employee where
  table := Prisma.employee
  owns c _ r := decide (r.companyId = c)
  get_restrict _ _ _ := rfl
  set_get _ := rfl
  identity_set _ _ := rfl
  org_set _ _ := rfl
  taxRules_set _ _ := rfl
  key := Employee.id
  owner := Employee.companyId
  owns_eq _ _ := rfl
  get_set _ _ := rfl
  unique hs := hs.employees
  wellFormed_set := wellFormed_setEmployees
  restrict_set _ _ _ _ := rfl

theorem wellFormed_setPayrollRuns {s : Store} {runs : List PayrollRun} (hs : WellFormed s)
    (hsteady : Steady PayrollRun.id PayrollRun.companyId s.payroll.payrollRuns runs)
    (hkeys : (runs.map PayrollRun.id).Nodup) : WellFormed (Prisma.payrollRun.set runs s) := by
  refine { hs with payrollRuns := hkeys, payslips := fun p hp => ?_ }
  obtain ⟨r,hr,hrun,e,he,hid,hcompany⟩ := hs.payslips p hp
  obtain ⟨q,hq,hqid,hqc⟩ := (hsteady r hr r.companyId).mpr ⟨r,hr,rfl,rfl⟩
  exact ⟨q,hq,hqid.trans hrun,e,he,hid,hcompany.trans hqc.symm⟩

theorem restrict_setPayrollRuns {s : Store} {runs : List PayrollRun} (hs : WellFormed s)
    (hsteady : Steady PayrollRun.id PayrollRun.companyId s.payroll.payrollRuns runs) (c : Uuid) (seen : ℕ) :
    restrict c seen (Prisma.payrollRun.set runs s) =
      Prisma.payrollRun.set (runs.filter (fun r => r.companyId = c)) (restrict c seen s) := by
  have hpayslips : s.payroll.payslips.filter (fun p => ownsRun c (Prisma.payrollRun.set runs s) p.payrollRunId) =
      s.payroll.payslips.filter (fun p => ownsRun c s p.payrollRunId) := by
    apply List.filter_congr
    intro p hp
    obtain ⟨r,hr,hrun,-⟩ := hs.payslips p hp
    rw [← hrun,ownsRun_set hsteady hr]
  exact congrArg (fun payslips => Prisma.payslip.set payslips
    (Prisma.payrollRun.set (runs.filter (fun r => r.companyId = c)) (restrict c seen s))) hpayslips

def payrollRuns : KeyedTable PayrollRun where
  table := Prisma.payrollRun
  owns c _ r := decide (r.companyId = c)
  get_restrict _ _ _ := rfl
  set_get _ := rfl
  identity_set _ _ := rfl
  org_set _ _ := rfl
  taxRules_set _ _ := rfl
  key := PayrollRun.id
  owner := PayrollRun.companyId
  owns_eq _ _ := rfl
  get_set _ _ := rfl
  unique hs := hs.payrollRuns
  wellFormed_set := wellFormed_setPayrollRuns
  restrict_set := restrict_setPayrollRuns

theorem wellFormed_setVaultDocuments {s : Store} {documents : List VaultDocument} (hs : WellFormed s)
    (hsteady : Steady VaultDocument.id VaultDocument.companyId s.documents.vaultDocuments documents)
    (hkeys : (documents.map VaultDocument.id).Nodup) : WellFormed (Prisma.vaultDocument.set documents s) := by
  refine { hs with vaultDocuments := hkeys, documentVersions := fun v hv => ?_ }
  obtain ⟨d,hd,hid⟩ := hs.documentVersions v hv
  obtain ⟨q,hq,hqid,-⟩ := (hsteady d hd d.companyId).mpr ⟨d,hd,rfl,rfl⟩
  exact ⟨q,hq,hqid.trans hid⟩

theorem restrict_setVaultDocuments {s : Store} {documents : List VaultDocument} (hs : WellFormed s)
    (hsteady : Steady VaultDocument.id VaultDocument.companyId s.documents.vaultDocuments documents) (c : Uuid)
    (seen : ℕ) :
    restrict c seen (Prisma.vaultDocument.set documents s) =
      Prisma.vaultDocument.set (documents.filter (fun d => d.companyId = c)) (restrict c seen s) := by
  have hversions : s.documents.documentVersions.filter
      (fun v => ownsDocument c (Prisma.vaultDocument.set documents s) v.documentId) =
      s.documents.documentVersions.filter (fun v => ownsDocument c s v.documentId) := by
    apply List.filter_congr
    intro v hv
    obtain ⟨d,hd,hid⟩ := hs.documentVersions v hv
    rw [← hid,ownsDocument_set hsteady hd]
  exact congrArg (fun versions => Prisma.documentVersion.set versions
    (Prisma.vaultDocument.set (documents.filter (fun d => d.companyId = c)) (restrict c seen s))) hversions

def vaultDocuments : KeyedTable VaultDocument where
  table := Prisma.vaultDocument
  owns c _ r := decide (r.companyId = c)
  get_restrict _ _ _ := rfl
  set_get _ := rfl
  identity_set _ _ := rfl
  org_set _ _ := rfl
  taxRules_set _ _ := rfl
  key := VaultDocument.id
  owner := VaultDocument.companyId
  owns_eq _ _ := rfl
  get_set _ _ := rfl
  unique hs := hs.vaultDocuments
  wellFormed_set := wellFormed_setVaultDocuments
  restrict_set := restrict_setVaultDocuments

/-! ## Events and transactions -/

section Rules
variable {companyId : Uuid} {seen : ℕ} {P : Store → Prop}

theorem isolates_publish (hP : ∀ s, P s → WellFormed s) (hseen : ∀ s, P s → seen ≤ (eventsOf companyId s).length)
    {event : DomainEvent} (he : event.companyId = companyId) :
    Isolates (boundary companyId seen) P (publish event)
      (fun _ t => ∃ s, P s ∧ t = { s with published := s.published ++ [event] }) := by
  have hrestrict (c : Uuid) (n : ℕ) (s : Store) : restrict c n { s with published := s.published ++ [event] } =
      { restrict c n s with
        published := (eventsOf c s ++ [event].filter (fun e => e.companyId = c)).drop n } := by
    simp only [restrict,eventsOf,List.filter_append]
    rfl
  refine .stmt (fun s hs => Confined.refl (hP s hs)) (fun s hs => ?_) (fun s hs => ?_) (fun _ _ => rfl) ?_
  · refine ⟨{ hP s hs with },fun other hne => ?_,rfl,rfl,rfl⟩
    have hother : [event].filter (fun e => e.companyId = other) = [] := by simp [he,Ne.symm hne]
    rw [hrestrict,hother,List.append_nil]
    rfl
  · have hmine : [event].filter (fun e => e.companyId = companyId) = [event] := by simp [he]
    simp only [boundary]
    rw [hrestrict,hmine,List.drop_append_of_le_length (hseen s hs)]
    rfl
  · intro s _ hs _
    exact ⟨s,hs,rfl⟩

/-- A transaction is isolated when its body is. -/
theorem isolates_transaction {α : Type} {body : Request α} {Q : α → Store → Prop}
    (h : Isolates (boundary companyId seen) P body Q) : Isolates (boundary companyId seen) P (transaction body) Q where
  commutes s hs := by
    rw [run_transaction,run_transaction,h.commutes s hs]
    obtain ⟨r,t⟩ := body.run s
    cases r <;> rfl
  allowed s hs := by
    have hall := h.allowed s hs
    refine ⟨hall.start,?_⟩
    have hend := hall.run
    dsimp only
    generalize body.run s = out at hend ⊢
    obtain ⟨r,t⟩ := out
    cases r with
    | ok a => exact hend
    | error e => exact hall.start
  result s hs a ha := by
    have hres := h.result s hs
    rw [run_transaction] at ha ⊢
    generalize body.run s = out at hres ha ⊢
    obtain ⟨r,t⟩ := out
    cases r with
    | ok b =>
      cases ha
      exact hres a rfl
    | error e => cases ha

end Rules

end PinoyTax.Tenancy
