import PinoyTax.Foundation.Ancestry
import PinoyTax.Org.Frame
import PinoyTax.Payroll.Compute
import PinoyTax.Tenancy.Reachable

/-! # References stay inside one company

A client may name any folder, run or document in a request; no foreign key compares
companies. What is looked up before a row is written is still there when it is written, since
folders, runs and employees are only ever added. A parent is looked up before its child is
there, so that it stands above the child.
-/
namespace PinoyTax.Tenancy
open PinoyTax Foundation

/-- A call of the four services, or a request of a company or a firm with its guard. -/
inductive Call
  | tenant (companyId : Uuid) (op : TenantOperation)
  | company (req : Org.CompanyRequest)
  | updateCompany (userId companyId : Uuid) (dto : Org.UpdateCompanyDto)

def Call.program (toLowerCase : String → String) : Call → Request Unit
  | tenant companyId op => (op.perform companyId).discard
  | company req => Org.program toLowerCase req
  | updateCompany userId companyId dto =>
    (Org.guarded "company:write" userId companyId (Org.updateCompany companyId dto)).discard

/-- A store that calls under way, in any interleaving, have led to. -/
def ReachedByCalls (toLowerCase : String → String) (s : Store) : Prop :=
  ∃ threads, Reached Start Constraints (fun p => ∃ call : Call, p = call.program toLowerCase) Outside ⟨s,threads⟩

/-- The row that following `parentFolderId` leads to after so many steps. -/
def folderAbove (s : Store) : ℕ → Folder → Option Folder :=
  Ancestry.ancestor Folder.id Folder.parentFolderId s.documents.folders

/-- Each reference is to a row of the company that the referring row belongs to, and each folder is
under a root of its company. -/
structure InOneCompany (s : Store) : Prop where
  parentFolders : ∀ f ∈ s.documents.folders, ∀ parentFolderId ∈ f.parentFolderId, ∃ parent ∈ s.documents.folders,
    parent.id = parentFolderId ∧ parent.companyId = f.companyId
  folders : ∀ d ∈ s.documents.vaultDocuments, ∀ folderId ∈ d.folderId, ∃ f ∈ s.documents.folders,
    f.id = folderId ∧ f.companyId = d.companyId
  payslips : ∀ p ∈ s.payroll.payslips, ∃ r ∈ s.payroll.payrollRuns, r.id = p.payrollRunId ∧
    ∃ e ∈ s.payroll.employees, e.id = p.employeeId ∧ e.companyId = r.companyId
  roots : ∀ f ∈ s.documents.folders, ∃ n root, folderAbove s n f = some root ∧ root.parentFolderId = none ∧
    root.companyId = f.companyId

/-! ## Folders and documents -/

/-- The folder is there and the company's, where there is one. -/
def InFolder (companyId : Uuid) (folderId : Option Uuid) (s : Store) : Prop :=
  ∀ id ∈ folderId, ∃ f ∈ s.documents.folders, f.id = id ∧ f.companyId = companyId

structure Filed (s : Store) : Prop where
  folders : Ancestry.Descends Folder.id Folder.parentFolderId (fun q f => q.companyId = f.companyId) s.documents.folders
  documents : ∀ d ∈ s.documents.vaultDocuments, InFolder d.companyId d.folderId s

/-- Folders are only added. -/
def filing : Discipline Store where
  Inv := Filed
  Admits := Constraints
  Later s t := s.documents.folders ⊆ t.documents.folders
  refl _ := List.Subset.refl _
  trans := List.Subset.trans

theorem InFolder.later {companyId : Uuid} {folderId : Option Uuid} {s t : Store} (h : InFolder companyId folderId s)
    (hst : filing.Later s t) : InFolder companyId folderId t := by
  intro id hid
  obtain ⟨f,hf,hfid,hfc⟩ := h id hid
  exact ⟨f,hst hf,hfid,hfc⟩

theorem later_of_folders {s t : Store} (h : t.documents.folders = s.documents.folders) : filing.Later s t := by
  change s.documents.folders ⊆ t.documents.folders
  rw [h]
  exact List.Subset.refl _

/-- From `s` on, documents are new in a folder that was there, or where they were. -/
structure FiledSince (s t : Store) : Prop where
  folders : t.documents.folders = s.documents.folders
  documents : ∀ d ∈ t.documents.vaultDocuments, InFolder d.companyId d.folderId s ∨
    ∃ q ∈ s.documents.vaultDocuments, q.companyId = d.companyId ∧ q.folderId = d.folderId

theorem FiledSince.refl (s : Store) : FiledSince s s := ⟨rfl,fun d hd => .inr ⟨d,hd,rfl,rfl⟩⟩

theorem FiledSince.filed {s t : Store} (h : FiledSince s t) (hs : Filed s) : Filed t := by
  refine ⟨by rw [h.folders]; exact hs.folders,fun d hd => ?_⟩
  rcases h.documents d hd with hnew | ⟨q,hq,hcompany,hfolder⟩
  · exact hnew.later (later_of_folders h.folders)
  · rw [← hcompany,← hfolder]
    exact (hs.documents q hq).later (later_of_folders h.folders)

theorem FiledSince.create {s t : Store} (h : FiledSince s t) {row : VaultDocument}
    (hrow : InFolder row.companyId row.folderId s) :
    FiledSince s (Prisma.vaultDocument.set (Prisma.vaultDocument.get t ++ [row]) t) := by
  refine ⟨h.folders,fun d hd => ?_⟩
  rcases List.mem_append.mp hd with hd | hd
  · exact h.documents d hd
  · obtain rfl := List.mem_singleton.mp hd
    exact .inl hrow

/-- An update that leaves documents where they are. -/
theorem FiledSince.update {s t : Store} (h : FiledSince s t) (p : VaultDocument → Bool) {f : VaultDocument → VaultDocument}
    (hcompany : ∀ d, (f d).companyId = d.companyId) (hfolder : ∀ d, (f d).folderId = d.folderId) :
    FiledSince s (Prisma.vaultDocument.set (Table.updateMany p f (Prisma.vaultDocument.get t)) t) := by
  refine ⟨h.folders,fun d hd => ?_⟩
  rcases Table.mem_updateMany_cases hd with ⟨hd,-⟩ | ⟨q,hq,-,rfl⟩
  · exact h.documents d hd
  · rw [hcompany,hfolder]
    exact h.documents q hq

section
variable {s : Store} (companyId : Uuid)

theorem respects_filing_of_keeps {α : Type} {p : Request α} (h : p.Keeps Store.documents) :
    p.Respects filing (fun _ t => filing.Later s t) s := by
  refine Prog.Guarantees.respects (h.mono fun _ t u hu => ?_) s
  intro ht _
  have hsince : FiledSince t u := by
    refine ⟨by rw [hu],fun d hd => ?_⟩
    rw [hu] at hd
    exact .inr ⟨d,hd,rfl,rfl⟩
  exact ⟨hsince.filed ht,later_of_folders hsince.folders⟩

open Documents

/-- What the check has found stays. -/
theorem respects_checkFolder (e : ApiException) (folderId : Option Uuid) :
    (checkFolder companyId e folderId).Respects filing (fun _ t => InFolder companyId folderId t) s := by
  cases folderId with
  | none => exact fun _ _ id hid => by cases hid
  | some folderId =>
    refine (Prog.respects_query (Q := fun found t => ∀ f, found = some f → f ∈ t.documents.folders ∧ f.id = folderId)
      ?_).bind fun found t hfound => ?_
    · rintro t u - - htu f hf
      obtain ⟨hmem,hid⟩ := Table.find?_key_some hf
      exact ⟨htu hmem,hid⟩
    cases found with
    | none => trivial
    | some f =>
      obtain ⟨hf,hid⟩ := hfound f rfl
      unfold ownedBy
      dsimp only
      split
      · rename_i hcompany
        intro u hu id hfolder
        cases hfolder
        exact ⟨f,hu hf,hid,hcompany⟩
      · trivial

theorem respects_createFolder (dto : CreateFolderDto) (id : Uuid) :
    (createFolder companyId dto id).Respects filing (fun _ _ => True) s := by
  apply (respects_checkFolder companyId _ dto.parentFolderId).bind
  intro _ t hparent u htu hu _
  have hadded : filing.Later u (Prisma.folder.set (Prisma.folder.get u ++
      [{ id := id, companyId := companyId, name := dto.name, parentFolderId := dto.parentFolderId }]) u) :=
    List.subset_append_left _ _
  refine ⟨⟨hu.folders.append fun k hk => ?_,fun d hd => (hu.documents d hd).later hadded⟩,hadded,fun _ _ => trivial⟩
  exact (hparent.later htu) k hk

/-- A transaction that leaves the folders alone and files what is new. -/
theorem respects_transaction {α : Type} {body : Request α}
    (hbody : ∀ t, filing.Later s t → body.Guarantees fun _ u v => FiledSince t u → FiledSince t v) :
    (transaction body).Respects filing (fun _ _ => True) s := by
  intro t hst ht _
  have hrun : FiledSince t (body.run t).2 := ((hbody t hst).within (.refl t)).run
  dsimp only
  generalize body.run t = out at hrun ⊢
  obtain ⟨r,u⟩ := out
  cases r with
  | ok a => exact ⟨hrun.filed ht,later_of_folders hrun.folders,fun _ _ => trivial⟩
  | error e => exact ⟨ht,filing.refl t,trivial⟩

theorem filedSince_updateDocument (t : Store) (p : VaultDocument → Bool) {f : VaultDocument → VaultDocument}
    (hcompany : ∀ d, (f d).companyId = d.companyId) (hfolder : ∀ d, (f d).folderId = d.folderId) :
    (Prisma.vaultDocument.update p f).Guarantees fun _ u v => FiledSince t u → FiledSince t v := by
  intro u
  refine ⟨fun h => h.update p hcompany hfolder,?_⟩
  dsimp only
  cases (Prisma.vaultDocument.get u).find? p <;> trivial

theorem respects_uploadDocument (uploadedById : Uuid) (file : File) (dto : UploadDocumentMetadataDto) (draw : Draw)
    (accepted : Bool) :
    (uploadDocument companyId uploadedById file dto draw accepted).Respects filing (fun _ _ => True) s := by
  apply (respects_checkFolder companyId _ dto.folderId).bind
  intro _ t hfolder
  apply (respects_filing_of_keeps (keeps_upload _ _ _)).bind
  intro _ u htu
  refine respects_transaction fun v huv => ?_
  have hrow := hfolder.later (filing.trans htu huv)
  refine Prog.Guarantees.bind (fun w => ⟨fun h => h.create hrow,trivial⟩) fun document => ?_
  refine Prog.Guarantees.bind (fun w => ⟨fun h => ⟨h.folders,h.documents⟩,trivial⟩) fun version => ?_
  refine Prog.Guarantees.bind (filedSince_updateDocument v _ (fun _ => rfl) fun _ => rfl) fun updated => ?_
  exact Prog.Guarantees.bind (Prog.guarantees_query fun _ h => h) fun _ => trivial

theorem respects_uploadNewVersion (documentId uploadedById : Uuid) (file : File) (draw : Draw) (accepted : Bool) :
    (uploadNewVersion companyId documentId uploadedById file draw accepted).Respects filing (fun _ _ => True) s := by
  apply (respects_filing_of_keeps keeps_read).bind
  intro found t _
  apply (respects_filing_of_keeps (keeps_ownedBy ..)).bind
  rintro ⟨document,versions⟩ u _
  apply (respects_filing_of_keeps (keeps_upload _ _ _)).bind
  intro _ v _
  refine respects_transaction fun w _ => ?_
  refine Prog.Guarantees.bind (fun x => ⟨fun h => ⟨h.folders,h.documents⟩,trivial⟩) fun version => ?_
  exact filedSince_updateDocument w _ (fun _ => rfl) fun _ => rfl

end

/-! ## Payroll leaves folders and documents alone -/

section
open Payroll
variable {τ : Type} {g : Store → τ}

variable (hpayroll : ∀ p s, g { s with payroll := p } = g s) (companyId : Uuid)
include hpayroll

theorem keeps_computePayslips (run : PayrollRun) (now : DateTime) (ids : ℕ → Uuid) (staff : List Employee) :
    (computePayslips run now ids staff).Keeps g := by
  induction staff generalizing ids with
  | nil => trivial
  | cons employee staff ih =>
    refine Prog.Guarantees.bind ?_ fun payslip => Prog.Guarantees.bind (ih _) fun _ => trivial
    apply Prog.Guarantees.bind (keeps_contribution ..)
    intro sss
    apply Prog.Guarantees.bind (keeps_contribution ..)
    intro philhealth
    apply Prog.Guarantees.bind (keeps_contribution ..)
    intro pagibig
    exact Prog.Guarantees.bind (fun _ => ⟨rfl,trivial⟩) fun withholding s => ⟨hpayroll _ s,trivial⟩

theorem keeps_computePayrollRun (payrollRunId : Uuid) (ids : ℕ → Uuid) (now : DateTime) :
    (computePayrollRun companyId payrollRunId ids now).Keeps g := by
  apply Prog.Guarantees.bind keeps_read
  intro found
  apply Prog.Guarantees.bind (keeps_ownedBy ..)
  intro run
  split
  · trivial
  · apply Prog.Guarantees.bind (keeps_update (fun _ s => hpayroll _ s) _ _)
    intro _
    apply Prog.Guarantees.bind keeps_read
    intro employees
    refine Prog.Guarantees.bind (fun s => ⟨hpayroll _ s,trivial⟩) fun _ => ?_
    exact keeps_computePayslips hpayroll run now ids employees

theorem keeps_finalizePayrollRun (hpublished : ∀ events s, g { s with published := events } = g s) (payrollRunId : Uuid)
    (now : DateTime) : (finalizePayrollRun companyId payrollRunId now).Keeps g := by
  apply Prog.Guarantees.bind keeps_read
  intro found
  apply Prog.Guarantees.bind (keeps_ownedBy ..)
  rintro ⟨run,payslips⟩
  dsimp only
  split
  · trivial
  · apply Prog.Guarantees.bind (keeps_update (fun _ s => hpayroll _ s) _ _)
    exact fun _ s => ⟨hpublished _ s,trivial⟩

end

/-! ## Every call -/

theorem respects_filing_perform (companyId : Uuid) (op : TenantOperation) (s : Store) :
    (op.perform companyId).Respects filing (fun _ _ => True) s := by
  have hkeeps {α : Type} {p : Request α} (h : p.Keeps Store.documents) : p.Respects filing (fun _ _ => True) s :=
    (respects_filing_of_keeps h).mono fun _ _ _ => trivial
  have hread {α : Type} {l : Label} {g : Store → α} {β : Type} {f : α → β} :
      (Prog.query l g >>= fun a => pure (f a) : Request β).Respects filing (fun _ _ => True) s :=
    hkeeps (Prog.Guarantees.bind keeps_read fun _ => trivial)
  cases op with
  | createEmployee dto id => exact hkeeps fun _ => ⟨rfl,trivial⟩
  | listEmployees => exact hkeeps keeps_read
  | listPayrollRuns => exact hread
  | getPayrollRun payrollRunId => exact hkeeps (Prog.Guarantees.bind keeps_read fun _ => keeps_ownedBy ..)
  | createPayrollRun dto createdById id now => exact hkeeps fun _ => ⟨rfl,trivial⟩
  | computePayrollRun payrollRunId ids now =>
    exact hkeeps (keeps_computePayrollRun (fun _ _ => rfl) companyId payrollRunId ids now)
  | finalizePayrollRun payrollRunId now =>
    exact hkeeps (keeps_finalizePayrollRun (fun _ _ => rfl) companyId (fun _ _ => rfl) payrollRunId now)
  | compute dto id now => exact hkeeps (keeps_compute companyId (fun _ _ => rfl) dto id now)
  | computeFlatRateAmount ruleCode base asOf => exact hread
  | computeGraduatedAmount ruleCode base asOf => exact hread
  | confirm taxComputationId => exact hkeeps (keeps_confirm companyId (fun _ _ => rfl) (fun _ _ => rfl) taxComputationId)
  | listForCompany => exact hread
  | getById taxComputationId => exact hkeeps (Prog.Guarantees.bind keeps_read fun _ => keeps_ownedBy ..)
  | handleCompanyCreated => exact hkeeps fun _ => ⟨rfl,trivial⟩
  | handleCompanyUpdated => exact hkeeps fun _ => ⟨rfl,trivial⟩
  | getDeadlines status => exact hread
  | getComplianceStatus => exact hkeeps keeps_read
  | getFlaggedIssues => exact hread
  | updateIssueStatus issueId status now =>
    exact hkeeps (keeps_updateIssueStatus companyId (fun _ _ => rfl) issueId status now)
  | runComplianceScan offset draw now =>
    exact hkeeps (Compliance.keeps_runComplianceScan (fun _ _ => rfl) (fun _ _ => rfl) (fun _ _ => rfl) offset companyId
      draw now)
  | createFolder dto id => exact respects_createFolder companyId dto id
  | listFolders => exact hkeeps keeps_read
  | listDocuments folderId category => exact hread
  | uploadDocument uploadedById file dto draw accepted =>
    exact respects_uploadDocument companyId uploadedById file dto draw accepted
  | uploadNewVersion documentId uploadedById file draw accepted =>
    exact respects_uploadNewVersion companyId documentId uploadedById file draw accepted
  | listVersions documentId =>
    exact hkeeps (Prog.Guarantees.bind (keeps_findDocument companyId documentId) fun _ =>
      Prog.Guarantees.bind keeps_read fun _ => trivial)
  | getDownloadUrl documentId =>
    exact hkeeps (Prog.Guarantees.bind (keeps_findDocument companyId documentId) fun _ => trivial)

/-- Requests of companies and firms write none of the tables of the four services. -/
theorem keeps_company {τ : Type} {g : Store → τ} (h : Org.Apart g) (toLowerCase : String → String) (call : Call) :
    (∃ companyId op, call = .tenant companyId op) ∨ (call.program toLowerCase).Keeps g := by
  cases call with
  | tenant companyId op => exact .inl ⟨companyId,op,rfl⟩
  | company req => exact .inr (Org.keeps_program h toLowerCase req)
  | updateCompany userId companyId dto =>
    exact .inr (Firm.keeps_discard (Org.keeps_guarded (Org.keeps_updateCompany h companyId dto)))

theorem apart_payroll : Org.Apart Store.payroll :=
  ⟨fun _ _ => rfl,fun _ _ => rfl,fun _ _ => rfl,fun _ _ => rfl,fun _ _ => rfl,fun _ _ => rfl,fun _ _ => rfl⟩

theorem apart_documents : Org.Apart Store.documents :=
  ⟨fun _ _ => rfl,fun _ _ => rfl,fun _ _ => rfl,fun _ _ => rfl,fun _ _ => rfl,fun _ _ => rfl,fun _ _ => rfl⟩

theorem ReachedByCalls.wellFormed {toLowerCase : String → String} {s : Store} (h : ReachedByCalls toLowerCase s) :
    WellFormed s := by
  obtain ⟨threads,h⟩ := h
  refine (h.inv (D := discipline) (fun _ hs => hs.wellFormed) ?_ ?_).1
  · rintro p ⟨call,rfl⟩ s _
    rcases keeps_company apart_payroll toLowerCase call with ⟨companyId,op,rfl⟩ | hkeeps
    · exact (respects_perform companyId op s).bind fun _ _ _ _ _ => trivial
    · exact (Prog.Guarantees.respects (guaranteesSound_of_keeps hkeeps) s).mono fun _ _ _ => trivial
  · exact fun s t ht hs => ⟨ht.wellFormed hs,.of_payroll ht.payroll⟩

theorem ReachedByCalls.filed {toLowerCase : String → String} {s : Store} (h : ReachedByCalls toLowerCase s) : Filed s := by
  obtain ⟨threads,h⟩ := h
  refine (h.inv (D := filing) ?_ ?_ ?_).1
  · intro s hs
    refine ⟨by rw [hs.documents]; exact Ancestry.descends_nil,fun d hd => ?_⟩
    rw [hs.documents] at hd
    cases hd
  · rintro p ⟨call,rfl⟩ s _
    rcases keeps_company apart_documents toLowerCase call with ⟨companyId,op,rfl⟩ | hkeeps
    · exact (respects_filing_perform companyId op s).bind fun _ _ _ _ _ => trivial
    · exact (respects_filing_of_keeps hkeeps).mono fun _ _ _ => trivial
  · intro s t ht hs
    have hsince : FiledSince s t := by
      refine ⟨by rw [ht.documents],fun d hd => ?_⟩
      rw [ht.documents] at hd
      exact .inr ⟨d,hd,rfl,rfl⟩
    exact ⟨hsince.filed hs,later_of_folders hsince.folders⟩

/-- In every store that calls in any interleaving reach, references stay inside one company, and
parents lead to a root of the company. -/
theorem references_in_one_company (toLowerCase : String → String) {s : Store} (h : ReachedByCalls toLowerCase s) :
    InOneCompany s where
  parentFolders _ hf _ hparent := h.filed.folders.parent_mem hf hparent
  folders := h.filed.documents
  payslips := h.wellFormed.payslips
  roots _ hf := h.filed.folders.exists_root h.wellFormed.folders hf

/-- A folder, and a folder in it. -/
def nestedStore : Store where
  documents := { folders := [{ id := 7, companyId := 2, name := "Contracts" },
    { id := 8, companyId := 2, name := "Leases", parentFolderId := some 7 }] }

/-- The two requests that create them, one after the other. -/
theorem reachedByCalls_nestedStore : ReachedByCalls id nestedStore := by
  let createFolder (dto : Documents.CreateFolderDto) (folderId : Uuid) : Call := .tenant 2 (.createFolder dto folderId)
  have hadmits (s : Store) (h : s.documents.vaultDocuments = [] ∧ s.documents.documentVersions = [] ∧ s.payroll = {} ∧
      s.taxEngine = {} ∧ s.compliance = {} ∧ (s.documents.folders.map Folder.id).Nodup) : Constraints s := by
    obtain ⟨hdocuments,hversions,hpayroll,htax,hcompliance,hfolders⟩ := h
    constructor <;> simp [hdocuments,hversions,hpayroll,htax,hcompliance,hfolders]
  have hfirst : Reached Start Constraints (fun p => ∃ call : Call, p = call.program id) Outside
      ⟨{},[(createFolder ⟨"Contracts",none⟩ 7).program id]⟩ := .arrive (.start ⟨rfl,rfl,rfl,rfl⟩) ⟨_,rfl⟩
  have hcreated := Reached.execute (i := 0) hfirst rfl (hadmits _ ⟨rfl,rfl,rfl,rfl,rfl,by decide⟩)
  have hsecond := Reached.arrive hcreated ⟨createFolder ⟨"Leases",some 7⟩ 8,rfl⟩
  have hlooked := Reached.execute (i := 0) hsecond rfl (hadmits _ ⟨rfl,rfl,rfl,rfl,rfl,by decide⟩)
  exact ⟨_,Reached.execute (i := 0) hlooked rfl (hadmits _ ⟨rfl,rfl,rfl,rfl,rfl,by decide⟩)⟩

theorem references_in_one_company_nestedStore : InOneCompany nestedStore :=
  references_in_one_company id reachedByCalls_nestedStore

end PinoyTax.Tenancy
