import PinoyTax.Compliance.Scans
import PinoyTax.Foundation.Reliance
import PinoyTax.Tenancy.TenantOperation

/-! # Reachable stores

Operations of any companies arrive at any time and their statements interleave; the rest
of the platform changes its own tables meanwhile. No statement takes a run or an employee
away or moves it to another company, and that is all that a computation relies on when it
inserts payslips for what it read before.
-/
namespace PinoyTax.Tenancy
open PinoyTax Foundation

/-- Runs and employees stay, with their companies. -/
structure Later (s t : Store) : Prop where
  runs : ∀ r ∈ s.payroll.payrollRuns, ∃ q ∈ t.payroll.payrollRuns, q.id = r.id ∧ q.companyId = r.companyId
  staff : ∀ e ∈ s.payroll.employees, ∃ q ∈ t.payroll.employees, q.id = e.id ∧ q.companyId = e.companyId

theorem Later.of_payroll {s t : Store} (h : t.payroll = s.payroll) : Later s t := by
  constructor
  · intro r hr
    exact ⟨r,by rw [h]; exact hr,rfl,rfl⟩
  · intro e he
    exact ⟨e,by rw [h]; exact he,rfl,rfl⟩

theorem Later.trans {s t u : Store} (hst : Later s t) (htu : Later t u) : Later s u := by
  constructor
  · intro r hr
    obtain ⟨q,hq,hid,hc⟩ := hst.runs r hr
    obtain ⟨q',hq',hid',hc'⟩ := htu.runs q hq
    exact ⟨q',hq',hid'.trans hid,hc'.trans hc⟩
  · intro e he
    obtain ⟨q,hq,hid,hc⟩ := hst.staff e he
    obtain ⟨q',hq',hid',hc'⟩ := htu.staff q hq
    exact ⟨q',hq',hid'.trans hid,hc'.trans hc⟩

def discipline : Discipline Store where
  Inv := WellFormed
  Admits := Constraints
  Later := Later
  refl _ := .of_payroll rfl
  trans := .trans

theorem Later.hasRun {s t : Store} (h : Later s t) {c k : Uuid} (hs : Has payrollRuns c k s) :
    Has payrollRuns c k t := by
  obtain ⟨r,hr,hk,hc⟩ := hs
  obtain ⟨q,hq,hid,hcompany⟩ := h.runs r hr
  exact ⟨q,hq,hid.trans hk,hcompany.trans hc⟩

theorem Later.hasEmployee {s t : Store} (h : Later s t) {c k : Uuid} (hs : Has employees c k s) :
    Has employees c k t := by
  obtain ⟨e,he,hk,hc⟩ := hs
  obtain ⟨q,hq,hid,hcompany⟩ := h.staff e he
  exact ⟨q,hq,hid.trans hk,hcompany.trans hc⟩

/-- A statement that needs to know nothing. -/
def Sound (s t : Store) : Prop := WellFormed s → Constraints t → WellFormed t ∧ Later s t

abbrev GuaranteesSound {α : Type} (p : Request α) : Prop := p.Guarantees (fun _ s t => Sound s t)

/-- No payslip is new, and runs and employees stay. -/
theorem sound_of_later {s t : Store} (hlater : Later s t)
    (hpayslips : ∀ p ∈ t.payroll.payslips, p ∈ s.payroll.payslips) : Sound s t := by
  intro hs ht
  refine ⟨{ ht with payslips := fun p hp => ?_ },hlater⟩
  obtain ⟨r,hr,hrun,e,he,hid,hc⟩ := hs.payslips p (hpayslips p hp)
  obtain ⟨r',hr',hrid,hrc⟩ := hlater.runs r hr
  obtain ⟨e',he',heid,hec⟩ := hlater.staff e he
  exact ⟨r',hr',hrid.trans hrun,e',he',heid.trans hid,hec.trans (hc.trans hrc.symm)⟩

/-- What leaves the payroll tables alone needs to know nothing. -/
theorem guaranteesSound_of_keeps {α : Type} {p : Request α} (h : p.Keeps Store.payroll) : GuaranteesSound p :=
  h.mono fun _ _ _ hst => sound_of_later (.of_payroll hst) fun p hp => by rw [← hst]; exact hp

/-! ## What an operation leaves alone

Each keeps every part of the store that none of the tables it writes is in. -/

section Keeps
variable {τ : Type} {g : Store → τ} (companyId : Uuid)

theorem keeps_read {α : Type} {l : Label} {f : Store → α} : (Prog.query l f : Request α).Keeps g :=
  Prog.guarantees_query fun _ => rfl

section TaxEngine
open TaxEngine

theorem keeps_engineResultFor (company : Company) (dto : ComputeTaxDto) : (engineResultFor company dto).Keeps g := by
  unfold engineResultFor
  cases dto.computationType with
  | vat => exact fun _ => ⟨rfl,trivial⟩
  | percentage_tax => exact fun _ => ⟨rfl,trivial⟩
  | ewt => exact fun _ => ⟨rfl,trivial⟩
  | withholding_comp => exact fun _ => ⟨rfl,trivial⟩
  | income_tax =>
    cases dto.grossSales <|> dto.grossReceipts with
    | none => trivial
    | some grossBase => exact fun _ => ⟨rfl,trivial⟩

theorem keeps_compute (hcomputation : ∀ rows s, g (Prisma.taxComputation.set rows s) = g s) (dto : ComputeTaxDto)
    (id : Uuid) (now : DateTime) : (compute companyId dto id now).Keeps g := by
  apply Prog.Guarantees.bind keeps_read
  intro company
  cases company with
  | none => trivial
  | some company =>
    refine Prog.Guarantees.bind trivial fun company => ?_
    exact Prog.Guarantees.bind (keeps_engineResultFor company dto) fun _ s => ⟨hcomputation _ s,trivial⟩

theorem keeps_confirm (hcomputation : ∀ rows s, g (Prisma.taxComputation.set rows s) = g s)
    (hpublished : ∀ events s, g { s with published := events } = g s) (taxComputationId : Uuid) :
    (confirm companyId taxComputationId).Keeps g := by
  apply Prog.Guarantees.bind keeps_read
  intro found
  apply Prog.Guarantees.bind (keeps_ownedBy ..)
  intro _
  exact Prog.Guarantees.bind (keeps_update hcomputation _ _) fun _ s => ⟨hpublished _ s,trivial⟩

end TaxEngine

section Compliance
open Compliance

theorem keeps_updateIssueStatus (hissue : ∀ rows s, g (Prisma.flaggedIssue.set rows s) = g s) (issueId : Uuid)
    (status : IssueStatus) (now : DateTime) : (updateIssueStatus companyId issueId status now).Keeps g := by
  apply Prog.Guarantees.bind keeps_read
  intro found
  refine Prog.Guarantees.bind (keeps_ownedBy ..) fun _ => ?_
  exact keeps_update hissue _ _

end Compliance

section Documents
open Documents

theorem keeps_checkFolder (e : ApiException) (folderId : Option Uuid) : (checkFolder companyId e folderId).Keeps g := by
  cases folderId with
  | none => trivial
  | some folderId =>
    apply Prog.Guarantees.bind keeps_read
    intro found
    exact Prog.Guarantees.bind (keeps_ownedBy ..) fun _ => trivial

theorem keeps_createFolder (hfolder : ∀ rows s, g (Prisma.folder.set rows s) = g s) (dto : CreateFolderDto) (id : Uuid) :
    (createFolder companyId dto id).Keeps g :=
  Prog.Guarantees.bind (keeps_checkFolder ..) fun _ s => ⟨hfolder _ s,trivial⟩

theorem keeps_upload (storageKey : String) (file : File) (accepted : Bool) :
    (upload storageKey file accepted).Keeps g := by
  cases accepted <;> exact fun _ => ⟨rfl,trivial⟩

theorem keeps_uploadDocument (hdocument : ∀ rows s, g (Prisma.vaultDocument.set rows s) = g s)
    (hversion : ∀ rows s, g (Prisma.documentVersion.set rows s) = g s) (uploadedById : Uuid) (file : File)
    (dto : UploadDocumentMetadataDto) (draw : Draw) (accepted : Bool) :
    (uploadDocument companyId uploadedById file dto draw accepted).Keeps g := by
  apply Prog.Guarantees.bind (keeps_checkFolder ..)
  intro _
  refine Prog.Guarantees.bind (keeps_upload _ _ _) fun _ => keeps_transaction ?_
  refine Prog.Guarantees.bind (fun s => ⟨hdocument _ s,trivial⟩) fun document => ?_
  refine Prog.Guarantees.bind (fun s => ⟨hversion _ s,trivial⟩) fun version => ?_
  exact Prog.Guarantees.bind (keeps_update hdocument _ _) fun _ _ => ⟨rfl,trivial⟩

theorem keeps_uploadNewVersion (hdocument : ∀ rows s, g (Prisma.vaultDocument.set rows s) = g s)
    (hversion : ∀ rows s, g (Prisma.documentVersion.set rows s) = g s) (documentId uploadedById : Uuid) (file : File)
    (draw : Draw) (accepted : Bool) :
    (uploadNewVersion companyId documentId uploadedById file draw accepted).Keeps g := by
  refine Prog.Guarantees.bind keeps_read fun found => Prog.Guarantees.bind (keeps_ownedBy ..) fun x => ?_
  obtain ⟨document,versions⟩ := x
  refine Prog.Guarantees.bind (keeps_upload _ _ _) fun _ => keeps_transaction ?_
  refine Prog.Guarantees.bind (fun s => ⟨hversion _ s,trivial⟩) fun version => ?_
  exact keeps_update hdocument _ _

theorem keeps_findDocument (documentId : Uuid) : (findDocument companyId documentId).Keeps g :=
  Prog.Guarantees.bind keeps_read fun _ => keeps_ownedBy ..

end Documents
end Keeps

/-! ## PayrollService -/

section Payroll
open Payroll
variable (companyId : Uuid)

theorem sound_createEmployee (dto : CreateEmployeeDto) (id : Uuid) :
    GuaranteesSound (createEmployee companyId dto id) := by
  refine fun s => ⟨sound_of_later ⟨fun r hr => ⟨r,hr,rfl,rfl⟩,fun e he => ?_⟩ fun p hp => hp,trivial⟩
  exact ⟨e,List.mem_append_left _ he,rfl,rfl⟩

theorem sound_createPayrollRun (dto : CreatePayrollRunDto) (createdById id : Uuid) (now : DateTime) :
    GuaranteesSound (createPayrollRun companyId dto createdById id now) := by
  refine fun s => ⟨sound_of_later ⟨fun r hr => ?_,fun e he => ⟨e,he,rfl,rfl⟩⟩ fun p hp => hp,trivial⟩
  exact ⟨r,List.mem_append_left _ hr,rfl,rfl⟩

/-- An update of a run that leaves its id and company. -/
theorem sound_updateRun (p : PayrollRun → Bool) {f : PayrollRun → PayrollRun} (hid : ∀ r, (f r).id = r.id)
    (hc : ∀ r, (f r).companyId = r.companyId) : GuaranteesSound (Prisma.payrollRun.update p f) := by
  intro s
  refine ⟨sound_of_later ⟨fun r hr => ?_,fun e he => ⟨e,he,rfl,rfl⟩⟩ fun p hp => hp,?_⟩
  · have hsteady : Steady PayrollRun.id PayrollRun.companyId s.payroll.payrollRuns
        (Table.updateMany p f s.payroll.payrollRuns) := steady_updateMany hid hc
    exact (hsteady r hr r.companyId).mpr ⟨r,hr,rfl,rfl⟩
  · dsimp only
    cases (Prisma.payrollRun.get s).find? p <;> trivial

theorem sound_finalizePayrollRun (payrollRunId : Uuid) (now : DateTime) :
    GuaranteesSound (finalizePayrollRun companyId payrollRunId now) := by
  apply Prog.Guarantees.bind (guaranteesSound_of_keeps keeps_read)
  intro found
  apply Prog.Guarantees.bind (guaranteesSound_of_keeps (keeps_ownedBy ..))
  intro x
  obtain ⟨run,payslips⟩ := x
  dsimp only
  split
  · trivial
  refine Prog.Guarantees.bind (sound_updateRun _ (fun _ => rfl) fun _ => rfl) fun updated => ?_
  exact guaranteesSound_of_keeps fun _ => ⟨rfl,trivial⟩

/-- What a computation has read about its run and the employees it has to pay. -/
structure Knows (run : PayrollRun) (staff : List Employee) (s : Store) : Prop where
  ofRun : Has payrollRuns run.companyId run.id s
  ofStaff : ∀ e ∈ staff, Has employees run.companyId e.id s

theorem Knows.later {run : PayrollRun} {staff : List Employee} {s t : Store} (h : Knows run staff s)
    (hst : Later s t) : Knows run staff t :=
  ⟨hst.hasRun h.ofRun,fun e he => hst.hasEmployee (h.ofStaff e he)⟩

theorem sound_contribution (number : Option String) (missing ruleCode : String) (basicPay : ℚ) (asOf : DateTime) :
    GuaranteesSound (contribution number missing ruleCode basicPay asOf) := by
  unfold contribution
  split
  · exact guaranteesSound_of_keeps fun _ => ⟨rfl,trivial⟩
  · trivial

variable {run : PayrollRun} {staff : List Employee} {s : Store}

/-- The insertion of a payslip rests on what was read of the run and the employee. -/
theorem respects_createPayslip (hs : Knows run staff s) {employee : Employee} (he : employee ∈ staff)
    {payslip : Payslip} (hrun : payslip.payrollRunId = run.id) (hemployee : payslip.employeeId = employee.id) :
    (Prisma.payslip.create payslip).Respects discipline (fun _ t => Later s t) s := by
  intro t hst ht hadmits
  have hlater : Later t (Prisma.payslip.set (Prisma.payslip.get t ++ [payslip]) t) :=
    ⟨fun r hr => ⟨r,hr,rfl,rfl⟩,fun e he => ⟨e,he,rfl,rfl⟩⟩
  refine ⟨{ hadmits with payslips := fun p hp => ?_ },hlater,fun u hu => hst.trans (hlater.trans hu)⟩
  rcases List.mem_append.mp hp with hp | hp
  · exact ht.payslips p hp
  · obtain rfl := List.mem_singleton.mp hp
    obtain ⟨r,hr,hrid,hrc⟩ := (hs.later hst).ofRun
    obtain ⟨e,hemp,heid,hec⟩ := (hs.later hst).ofStaff employee he
    exact ⟨r,hr,hrid.trans hrun.symm,e,hemp,heid.trans hemployee.symm,hec.trans hrc.symm⟩

theorem respects_computePayslip (hs : Knows run staff s) {employee : Employee} (he : employee ∈ staff)
    (now : DateTime) (id : Uuid) :
    (computePayslip run now id employee).Respects discipline (fun _ t => Later s t) s := by
  apply Prog.Guarantees.respects_bind (sound_contribution ..)
  intro sss t₁ h₁
  apply Prog.Guarantees.respects_bind (sound_contribution ..)
  intro philhealth t₂ h₂
  refine Prog.Guarantees.respects_bind (sound_contribution ..) fun pagibig t₃ h₃ => ?_
  refine Prog.Guarantees.respects_bind (guaranteesSound_of_keeps fun _ => ⟨rfl,trivial⟩) fun withholding t h₄ => ?_
  have hst : Later s t := h₁.trans (h₂.trans (h₃.trans h₄))
  exact (respects_createPayslip (hs.later hst) he rfl rfl).mono fun _ _ hu => hst.trans hu

theorem respects_computePayslips (now : DateTime) (ids : ℕ → Uuid) (rest : List Employee)
    (hrest : ∀ e ∈ rest, e ∈ staff) (hs : Knows run staff s) :
    (computePayslips run now ids rest).Respects discipline (fun _ _ => True) s := by
  induction rest generalizing ids s with
  | nil => exact fun _ _ => trivial
  | cons employee rest ih =>
    apply (respects_computePayslip hs (hrest employee List.mem_cons_self) now _).bind
    intro payslip t ht
    apply (ih _ (fun e he => hrest e (List.mem_cons_of_mem _ he)) (hs.later ht)).bind
    intro results u _
    exact fun _ _ => trivial

theorem respects_computePayrollRun (payrollRunId : Uuid) (ids : ℕ → Uuid) (now : DateTime) :
    (computePayrollRun companyId payrollRunId ids now).Respects discipline (fun _ _ => True) s := by
  refine (Prog.respects_query (Q := fun found t => ∀ run, found = some run → Knows run [] t) ?_).bind
    fun found t hfound => ?_
  · rintro t u - - htu run hrun
    have hmem : run ∈ t.payroll.payrollRuns := List.mem_of_find?_eq_some hrun
    exact ⟨htu.hasRun ⟨run,hmem,rfl,rfl⟩,fun _ he => absurd he List.not_mem_nil⟩
  cases found with
  | none => trivial
  | some run =>
    have hknows := hfound run rfl
    unfold ownedBy
    dsimp only
    split
    swap
    · trivial
    rw [Prog.done_ok_bind]
    split
    · trivial
    refine Prog.Guarantees.respects_bind (sound_updateRun _ (fun _ => rfl) fun _ => rfl) fun _ t₁ h₁ => ?_
    refine (Prog.respects_query (Q := fun staff u => Knows run staff u) ?_).bind fun staff t₂ hstaff => ?_
    · intro t₂ u _ h₂ hu
      refine ⟨hu.hasRun (h₂.hasRun (h₁.hasRun hknows.ofRun)),fun e he => ?_⟩
      obtain ⟨he,hactive⟩ := List.mem_filter.mp he
      exact hu.hasEmployee ⟨e,he,rfl,of_decide_eq_true (Bool.and_eq_true_iff.mp hactive).1⟩
    refine Prog.Guarantees.respects_bind (fun t => ⟨sound_of_later ?_ ?_,trivial⟩) fun _ t₃ h₃ => ?_
    · exact ⟨fun r hr => ⟨r,hr,rfl,rfl⟩,fun e he => ⟨e,he,rfl,rfl⟩⟩
    · exact fun p hp => (List.mem_filter.mp hp).1
    · exact respects_computePayslips now ids staff (fun _ he => he) (hstaff.later h₃)

end Payroll

/-! ## Every operation, and the stores that are reached -/

theorem respects_perform (companyId : Uuid) (op : TenantOperation) (s : Store) :
    (op.perform companyId).Respects discipline (fun _ _ => True) s := by
  have hsound {α : Type} {p : Request α} (h : GuaranteesSound p) : p.Respects discipline (fun _ _ => True) s :=
    (Prog.Guarantees.respects h s).mono fun _ _ _ => trivial
  have hkeeps {α : Type} {p : Request α} (h : p.Keeps Store.payroll) : p.Respects discipline (fun _ _ => True) s :=
    hsound (guaranteesSound_of_keeps h)
  have hread {α : Type} {l : Label} {g : Store → α} {β : Type} {f : α → β} :
      (Prog.query l g >>= fun a => pure (f a) : Request β).Respects discipline (fun _ _ => True) s :=
    hkeeps (Prog.Guarantees.bind keeps_read fun _ => trivial)
  cases op with
  | createEmployee dto id => exact hsound (sound_createEmployee companyId dto id)
  | listEmployees => exact hkeeps keeps_read
  | listPayrollRuns => exact hread
  | getPayrollRun payrollRunId => exact hkeeps (Prog.Guarantees.bind keeps_read fun _ => keeps_ownedBy ..)
  | createPayrollRun dto createdById id now => exact hsound (sound_createPayrollRun companyId dto createdById id now)
  | computePayrollRun payrollRunId ids now => exact respects_computePayrollRun companyId payrollRunId ids now
  | finalizePayrollRun payrollRunId now => exact hsound (sound_finalizePayrollRun companyId payrollRunId now)
  | compute dto id now => exact hkeeps (keeps_compute companyId (fun _ _ => rfl) dto id now)
  | computeFlatRateAmount ruleCode base asOf => exact hread
  | computeGraduatedAmount ruleCode base asOf => exact hread
  | confirm taxComputationId => exact hkeeps (keeps_confirm companyId (fun _ _ => rfl) (fun _ _ => rfl) taxComputationId)
  | listForCompany => exact hread
  | getById taxComputationId => exact hkeeps (Prog.Guarantees.bind keeps_read fun _ => keeps_ownedBy ..)
  | handleCompanyCreated => exact hkeeps fun _ => ⟨rfl,trivial⟩
  | handleCompanyUpdated => exact hkeeps fun _ => ⟨rfl,trivial⟩
  | getDeadlines status => exact hread
  | getComplianceStatus => exact hkeeps keeps_read
  | getFlaggedIssues => exact hread
  | updateIssueStatus issueId status now =>
    exact hkeeps (keeps_updateIssueStatus companyId (fun _ _ => rfl) issueId status now)
  | runComplianceScan offset draw now =>
    exact hkeeps (Compliance.keeps_runComplianceScan (fun _ _ => rfl) (fun _ _ => rfl) (fun _ _ => rfl) offset companyId
      draw now)
  | createFolder dto id => exact hkeeps (keeps_createFolder companyId (fun _ _ => rfl) dto id)
  | listFolders => exact hkeeps keeps_read
  | listDocuments folderId category => exact hread
  | uploadDocument uploadedById file dto draw accepted =>
    exact hkeeps (keeps_uploadDocument companyId (fun _ _ => rfl) (fun _ _ => rfl) uploadedById file dto draw accepted)
  | uploadNewVersion documentId uploadedById file draw accepted =>
    exact hkeeps (keeps_uploadNewVersion companyId (fun _ _ => rfl) (fun _ _ => rfl) documentId uploadedById file draw
      accepted)
  | listVersions documentId =>
    exact hkeeps (Prog.Guarantees.bind (keeps_findDocument companyId documentId) fun _ =>
      Prog.Guarantees.bind keeps_read fun _ => trivial)
  | getDownloadUrl documentId =>
    exact hkeeps (Prog.Guarantees.bind (keeps_findDocument companyId documentId) fun _ => trivial)

/-- No rows of the four services yet. -/
structure Start (s : Store) : Prop where
  payroll : s.payroll = {}
  taxComputations : s.taxEngine.taxComputations = []
  compliance : s.compliance = {}
  documents : s.documents = {}

theorem Start.wellFormed {s : Store} (h : Start s) : WellFormed s where
  employees := by simp [h.payroll]
  payrollRuns := by simp [h.payroll]
  taxComputations := by simp [h.taxComputations]
  complianceStatus := by simp [h.compliance]
  flaggedIssues := by simp [h.compliance]
  folders := by simp [h.documents]
  vaultDocuments := by simp [h.documents]
  documentVersions := by simp [h.documents]
  payslips := by simp [h.payroll]

/-- What the rest of the platform may do: it changes users, organisations and tax rules,
its reminder job changes deadlines, and it sends messages. -/
structure Outside (s t : Store) : Prop where
  payroll : t.payroll = s.payroll
  taxComputations : t.taxEngine.taxComputations = s.taxEngine.taxComputations
  complianceStatus : t.compliance.complianceStatus = s.compliance.complianceStatus
  flaggedIssues : t.compliance.flaggedIssues = s.compliance.flaggedIssues
  documents : t.documents = s.documents

theorem Outside.wellFormed {s t : Store} (h : Outside s t) (hs : WellFormed s) : WellFormed t where
  employees := by rw [h.payroll]; exact hs.employees
  payrollRuns := by rw [h.payroll]; exact hs.payrollRuns
  taxComputations := by rw [h.taxComputations]; exact hs.taxComputations
  complianceStatus := by rw [h.complianceStatus]; exact hs.complianceStatus
  flaggedIssues := by rw [h.flaggedIssues]; exact hs.flaggedIssues
  folders := by rw [h.documents]; exact hs.folders
  vaultDocuments := by rw [h.documents]; exact hs.vaultDocuments
  documentVersions := by rw [h.documents]; exact hs.documentVersions
  payslips := by rw [h.payroll]; exact hs.payslips

/-- A call of an operation with some company arrives. -/
def Arrives (p : Request Unit) : Prop :=
  ∃ (companyId : Uuid) (op : TenantOperation), p = (op.perform companyId).discard

/-- A store that requests under way, in any interleaving, have led to. -/
def Reachable (s : Store) : Prop := ∃ threads, Reached Start Constraints Arrives Outside ⟨s,threads⟩

theorem Reachable.wellFormed {s : Store} (h : Reachable s) : WellFormed s := by
  obtain ⟨threads,h⟩ := h
  refine (h.inv (D := discipline) (fun _ hs => hs.wellFormed) ?_ ?_).1
  · rintro p ⟨companyId,op,rfl⟩ s _
    exact (respects_perform companyId op s).bind fun _ _ _ _ _ => trivial
  · exact fun s t ht hs => ⟨ht.wellFormed hs,.of_payroll ht.payroll⟩

end PinoyTax.Tenancy
