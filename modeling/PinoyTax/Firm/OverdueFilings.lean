import PinoyTax.Foundation.Runs
import PinoyTax.Compliance.Overdue
import PinoyTax.Firm.Dashboard

/-! # The overdue filings on the dashboard

The dashboard adds up what the scans counted, and its feed shows the deadlines as they
are. Between two scans of a company the daily job may move its deadlines on, and the two
part; the next scan brings them together again.
-/
namespace PinoyTax.Firm
open PinoyTax Foundation Identity Compliance Notifications

/-- What moves deadlines and counts: a scan of a company, or the daily job. -/
inductive ComplianceRun where
  | scan (companyId : Uuid) (draw : ScanDraw) (now : DateTime)
  | dailyJob (now : DateTime)

namespace ComplianceRun

def program (offset : ℤ) : ComplianceRun → Request Unit
  | scan companyId draw now => runComplianceScan offset companyId draw now
  | dailyJob now => updateDeadlineStatuses (startOfDay offset now)

/-- The store after a run. -/
def next (offset : ℤ) (s : Store) (r : ComplianceRun) : Store := ((r.program offset).run s).2

/-- The database accepts each statement of the run. -/
def Accepted (offset : ℤ) (s : Store) (r : ComplianceRun) : Prop := Prog.Within StatusIds (r.program offset) s

instance (offset : ℤ) (s : Store) (r : ComplianceRun) : Decidable (r.Accepted offset s) :=
  inferInstanceAs (Decidable (Prog.Within StatusIds (r.program offset) s))

theorem next_dailyJob (offset : ℤ) (s : Store) (now : DateTime) : next offset s (dailyJob now) =
    Prisma.filingDeadline.set (movedOn (startOfDay offset now) s.compliance.filingDeadlines) s := by
  rw [next,program,run_updateDeadlineStatuses]

end ComplianceRun

section
variable (collation localeCompare : String → String → Bool) (complete : Totals → List ClientInNeed → Option String)

/-- Some dashboard reports these figures. -/
def Reports (s : Store) (client : ClientFigures) : Prop :=
  ∃ firmId userId dashboard, ((getFirmDashboard collation localeCompare complete firmId userId).run s).1 = .ok dashboard ∧
    client ∈ dashboard.clients

/-- Every figure of overdue filings on a dashboard is the number of the client's overdue deadlines. -/
def FiguresAgree (s : Store) : Prop :=
  ∀ client, Reports collation localeCompare complete s client → client.overdueFilings = overdueDeadlines s client.id

/-- The company is a client on some dashboard. -/
def OnDashboard (s : Store) (companyId : Uuid) : Prop :=
  ∃ client, Reports collation localeCompare complete s client ∧ client.id = companyId

/-- The run of the job finds a deadline of a client on a dashboard past due. -/
def MovesFiling (offset : ℤ) (s : Store) : ComplianceRun → Prop
  | .dailyJob now => ∃ d ∈ s.compliance.filingDeadlines, isPastDue (startOfDay offset now) d = true ∧
      OnDashboard collation localeCompare complete s d.companyId
  | .scan _ _ _ => False

end

/-! ## What the dashboard reads -/

section
variable {collation localeCompare : String → String → Bool} {complete : Totals → List ClientInNeed → Option String}
variable {s t : Store}

/-- The rows that the dashboard reads about the companies. -/
def portfolio (s : Store) (companyIds : List Uuid) : PortfolioRows where
  complianceRows := s.compliance.complianceStatus.filter (fun r => companyIds.contains r.companyId)
  openIssues := s.compliance.flaggedIssues.filter (fun i => companyIds.contains i.companyId && i.status == .open)
  deadlines := (s.compliance.filingDeadlines.filter (fun d => companyIds.contains d.companyId &&
    (d.status == .upcoming || d.status == .due_today || d.status == .overdue))).insertionSort
      (fun a b => a.dueDate ≤ b.dueDate)
  latestPayrollRuns := distinct PayrollRun.companyId
    ((s.payroll.payrollRuns.filter (fun r => companyIds.contains r.companyId)).insertionSort
      (newestFirst PayrollRun.companyId PayrollRun.createdAt))
  latestTaxComputations := distinct TaxComputation.companyId
    ((s.taxEngine.taxComputations.filter (fun c => companyIds.contains c.companyId)).insertionSort
      (newestFirst TaxComputation.companyId TaxComputation.createdAt))

theorem run_findPortfolio (companyIds : List Uuid) (s : Store) :
    (findPortfolio companyIds).run s = (.ok (portfolio s companyIds),s) := rfl

def clientsOf (s : Store) (companies : List Company) : List ClientFigures :=
  companies.map (figuresOf (portfolio s (companies.map Company.id)))

/-- The companies that a user sees depend on the organisation only. -/
def visibleCompanies (collation localeCompare : String → String → Bool) (s : Store) (firmId userId : Uuid) :
    List Company :=
  match s.org.firmMemberships.find? (FirmPermissionsGuard.isActiveMember userId firmId) with
  | none => []
  | some membership =>
    if (FirmPermissionsGuard.firmPermissionCodes s membership).contains "firm:clients:manage" then
      (s.org.companies.filter (fun c => c.firmId == some firmId)).insertionSort
        (fun a b => collation a.businessName b.businessName = true)
    else
      ((s.org.firmCompanyAssignments.filter (isActiveOf membership.id)).filterMap (fun a =>
        s.org.companies.find? (fun c => c.id = a.companyId))).insertionSort
          (fun a b => localeCompare a.businessName b.businessName = true)

theorem run_listClientCompanies (firmId userId : Uuid) (s : Store) :
    (listClientCompanies collation localeCompare firmId userId).run s =
      (.ok (visibleCompanies collation localeCompare s firmId userId),s) := by
  rw [listClientCompanies,visibleCompanies,hasFirmPermission,FirmPermissionsGuard.findFirmMembership,Prog.run_bind,
    Prog.run_bind,Prog.run_query,Prog.resume_ok]
  cases hf : s.org.firmMemberships.find? (FirmPermissionsGuard.isActiveMember userId firmId) with
  | none =>
    have hfind : (Prisma.firmMembership.get s).find? (FirmPermissionsGuard.isActiveMember userId firmId) = none := hf
    simp [hfind]
  | some m =>
    have hfind : (Prisma.firmMembership.get s).find? (FirmPermissionsGuard.isActiveMember userId firmId) = some m := hf
    simp only [Option.map_some,Prog.pure_def,Prog.run_done,Prog.resume_ok]
    split
    · rfl
    · rw [Prog.run_bind,TableRef.run_findFirst,Prog.resume_ok,hfind]
      rfl

theorem visibleCompanies_congr (h : t.org = s.org) (firmId userId : Uuid) :
    visibleCompanies collation localeCompare t firmId userId = visibleCompanies collation localeCompare s firmId userId := by
  unfold visibleCompanies FirmPermissionsGuard.firmPermissionCodes
  rw [h]

/-- What a dashboard shows about its clients. -/
theorem reports_iff {client : ClientFigures} : Reports collation localeCompare complete s client ↔
    ∃ firmId userId, (∃ firm, s.org.firms.find? (fun f => f.id = firmId) = some firm) ∧
      client ∈ clientsOf s (visibleCompanies collation localeCompare s firmId userId) := by
  have hrun (firmId userId : Uuid) (firm : Firm) (hfirm : s.org.firms.find? (fun f => f.id = firmId) = some firm) :
      ∃ dashboard, ((getFirmDashboard collation localeCompare complete firmId userId).run s).1 = .ok dashboard ∧
        dashboard.clients = clientsOf s (visibleCompanies collation localeCompare s firmId userId) := by
    have hget : (Prisma.firm.get s).find? (fun f => f.id = firmId) = some firm := hfirm
    rw [getFirmDashboard,Prog.run_bind,getFirm,Prog.run_bind,TableRef.run_findUnique,Prog.resume_ok,hget,orThrow_some,
      Prog.run_done,Prog.resume_ok,Prog.run_bind,run_listClientCompanies,Prog.resume_ok]
    split
    · rename_i hnone
      refine ⟨_,rfl,?_⟩
      rw [List.eq_nil_of_length_eq_zero hnone]
      rfl
    · rw [Prog.run_bind,run_findPortfolio,Prog.resume_ok]
      exact ⟨_,rfl,rfl⟩
  constructor
  · rintro ⟨firmId,userId,dashboard,hok,hclient⟩
    cases hfirm : s.org.firms.find? (fun f => f.id = firmId) with
    | none =>
      have hget : (Prisma.firm.get s).find? (fun f => f.id = firmId) = none := hfirm
      rw [getFirmDashboard,Prog.run_bind,getFirm,Prog.run_bind,TableRef.run_findUnique,Prog.resume_ok,hget] at hok
      cases hok
    | some firm =>
      obtain ⟨dashboard',hok',hclients⟩ := hrun firmId userId firm hfirm
      rw [hok] at hok'
      obtain rfl := Except.ok.inj hok'
      exact ⟨firmId,userId,⟨firm,hfirm⟩,hclients ▸ hclient⟩
  · rintro ⟨firmId,userId,⟨firm,hfirm⟩,hclient⟩
    obtain ⟨dashboard,hok,hclients⟩ := hrun firmId userId firm hfirm
    exact ⟨firmId,userId,dashboard,hok,hclients ▸ hclient⟩

/-- A figure of overdue filings is what the status rows count. -/
theorem overdueFilings_of_mem {companies : List Company} {client : ClientFigures} (h : client ∈ clientsOf s companies) :
    client.overdueFilings = countedOverdue s client.id := by
  obtain ⟨company,hcompany,rfl⟩ := List.mem_map.mp h
  have hid : company.id ∈ companies.map Company.id := List.mem_map_of_mem hcompany
  have hrows : ((Grouping.groupBy ComplianceStatus.companyId (portfolio s (companies.map Company.id)).complianceRows).lookup
      company.id).getD [] = s.compliance.complianceStatus.filter (fun r => r.companyId = company.id) := by
    rw [Grouping.getD_lookup_groupBy,portfolio,List.filter_filter]
    apply List.filter_congr
    intro r _
    by_cases hr : r.companyId = company.id
    · simpa [hr] using hid
    · simp [hr]
  simp only [figuresOf,countedOverdue,hrows]

theorem onDashboard_iff {companyId : Uuid} : OnDashboard collation localeCompare complete s companyId ↔
    ∃ firmId userId, (∃ firm, s.org.firms.find? (fun f => f.id = firmId) = some firm) ∧
      ∃ c ∈ visibleCompanies collation localeCompare s firmId userId, c.id = companyId := by
  constructor
  · rintro ⟨client,hclient,rfl⟩
    obtain ⟨firmId,userId,hfirm,hmem⟩ := reports_iff.mp hclient
    obtain ⟨c,hc,rfl⟩ := List.mem_map.mp hmem
    exact ⟨firmId,userId,hfirm,c,hc,rfl⟩
  · rintro ⟨firmId,userId,hfirm,c,hc,rfl⟩
    exact ⟨_,reports_iff.mpr ⟨firmId,userId,hfirm,List.mem_map_of_mem hc⟩,rfl⟩

theorem onDashboard_congr (h : t.org = s.org) (companyId : Uuid) :
    OnDashboard collation localeCompare complete t companyId ↔ OnDashboard collation localeCompare complete s companyId := by
  simp only [onDashboard_iff,visibleCompanies_congr h,h]

/-- The figures agree when the counts of all companies on dashboards do. -/
theorem figuresAgree_iff_counted : FiguresAgree collation localeCompare complete s ↔
    ∀ companyId, OnDashboard collation localeCompare complete s companyId →
      countedOverdue s companyId = overdueDeadlines s companyId := by
  have hcounted {client : ClientFigures} (h : Reports collation localeCompare complete s client) :
      client.overdueFilings = countedOverdue s client.id := by
    obtain ⟨_,_,_,hmem⟩ := reports_iff.mp h
    exact overdueFilings_of_mem hmem
  constructor
  · rintro h companyId ⟨client,hclient,rfl⟩
    rw [← hcounted hclient]
    exact h client hclient
  · intro h client hclient
    rw [hcounted hclient]
    exact h client.id ⟨client,hclient,rfl⟩

/-! ## Runs -/

theorem recorded_next {offset : ℤ} (hs : Recorded s) {r : ComplianceRun} (hr : r.Accepted offset s) :
    Recorded (r.next offset s) := by
  cases r with
  | scan companyId draw now =>
    rcases run_runComplianceScan offset hs hr with hsame | hscanned
    · rw [ComplianceRun.next,ComplianceRun.program,hsame]
      exact hs
    · exact hscanned.recorded
  | dailyJob now =>
    rw [ComplianceRun.next_dailyJob]
    refine ⟨hs.keys,fun row hrow => ?_⟩
    obtain ⟨d,hd,hc,hcategory⟩ := hs.categories row hrow
    have hmap := map_movedOn (startOfDay offset now) (fun d => (d.companyId,d.agency)) (fun _ _ => rfl)
      s.compliance.filingDeadlines
    have hpair : (d.companyId,d.agency) ∈ (movedOn (startOfDay offset now) s.compliance.filingDeadlines).map
        (fun d => (d.companyId,d.agency)) := by
      rw [hmap]
      exact List.mem_map_of_mem hd
    obtain ⟨d',hd',he⟩ := List.mem_map.mp hpair
    rw [Prod.mk.injEq] at he
    exact ⟨d',hd',he.1.trans hc,he.2 ▸ hcategory⟩

theorem overdueDeadlines_dailyJob (offset : ℤ) (now : DateTime) (c : Uuid) :
    overdueDeadlines (ComplianceRun.next offset s (.dailyJob now)) c = overdueDeadlines s c +
      (s.compliance.filingDeadlines.filter (isPastDueOf (startOfDay offset now) c)).length := by
  rw [ComplianceRun.next_dailyJob]
  exact length_overdue_movedOn _ _ _

theorem onDashboard_dailyJob (offset : ℤ) (now : DateTime) (c : Uuid) :
    OnDashboard collation localeCompare complete (ComplianceRun.next offset s (.dailyJob now)) c ↔
      OnDashboard collation localeCompare complete s c := by
  apply onDashboard_congr
  rw [ComplianceRun.next_dailyJob]
  rfl

/-- The job moves the overdue deadlines of every client it finds one of, and no count. -/
theorem figuresAgree_dailyJob_iff (offset : ℤ) (now : DateTime)
    (hagree : FiguresAgree collation localeCompare complete s) :
    FiguresAgree collation localeCompare complete (ComplianceRun.next offset s (.dailyJob now)) ↔
      ¬ MovesFiling collation localeCompare complete offset s (.dailyJob now) := by
  rw [figuresAgree_iff_counted] at hagree ⊢
  have hcounts (c : Uuid) : countedOverdue (ComplianceRun.next offset s (.dailyJob now)) c = countedOverdue s c := rfl
  constructor
  · rintro h ⟨d,hd,hpast,hon⟩
    have heq := h d.companyId ((onDashboard_dailyJob offset now _).mpr hon)
    rw [hcounts,overdueDeadlines_dailyJob,hagree _ hon] at heq
    have hlength : (s.compliance.filingDeadlines.filter
        (isPastDueOf (startOfDay offset now) d.companyId)).length = 0 := by omega
    have hmem := List.filter_eq_nil_iff.mp (List.length_eq_zero_iff.mp hlength) d hd
    simp [isPastDueOf,hpast] at hmem
  · intro h c hc
    rw [onDashboard_dailyJob] at hc
    have hnone : s.compliance.filingDeadlines.filter (isPastDueOf (startOfDay offset now) c) = [] := by
      rw [List.filter_eq_nil_iff]
      intro d hd hmoved
      simp only [isPastDueOf,Bool.and_eq_true,decide_eq_true_eq] at hmoved
      exact h ⟨d,hd,hmoved.2,hmoved.1 ▸ hc⟩
    rw [hcounts,overdueDeadlines_dailyJob,hagree c hc,hnone]
    rfl

theorem figuresAgree_next_iff {offset : ℤ} (hs : Recorded s) {r : ComplianceRun} (hr : r.Accepted offset s)
    (hagree : FiguresAgree collation localeCompare complete s) :
    FiguresAgree collation localeCompare complete (r.next offset s) ↔
      ¬ MovesFiling collation localeCompare complete offset s r := by
  cases r with
  | scan companyId draw now =>
    rw [figuresAgree_iff_counted] at hagree ⊢
    refine iff_of_true ?_ not_false
    rcases run_runComplianceScan offset hs hr with hsame | hscanned
    · rw [ComplianceRun.next,ComplianceRun.program,hsame]
      exact hagree
    · intro c hc
      rw [ComplianceRun.next,ComplianceRun.program,onDashboard_congr hscanned.org] at hc
      by_cases hsame : c = companyId
      · subst hsame
        exact hscanned.counted
      · obtain ⟨hcounted,hoverdue⟩ := hscanned.others c hsame
        exact hcounted.trans ((hagree c hc).trans hoverdue.symm)
  | dailyJob now => exact figuresAgree_dailyJob_iff offset now hagree

end

/-- No scan and no job has run yet. -/
structure Unscanned (s : Store) : Prop where
  filingDeadlines : s.compliance.filingDeadlines = []
  complianceStatus : s.compliance.complianceStatus = []

/-- The dashboard agrees with the deadlines throughout exactly when no run of the daily job
finds a deadline of one of its clients past due. -/
theorem figuresAgree_iff (collation localeCompare : String → String → Bool)
    (complete : Totals → List ClientInNeed → Option String) (offset : ℤ) {s : Store} (hs : Unscanned s)
    {runs : List ComplianceRun} (haccepted : Runs.Along (ComplianceRun.next offset) (ComplianceRun.Accepted offset) s runs) :
    Runs.Always (ComplianceRun.next offset) (FiguresAgree collation localeCompare complete) s runs ↔
      Runs.Along (ComplianceRun.next offset) (fun s r => ¬ MovesFiling collation localeCompare complete offset s r) s runs := by
  have hrecorded : Recorded s := ⟨by simp [hs.complianceStatus],by simp [hs.complianceStatus]⟩
  have hagree : FiguresAgree collation localeCompare complete s := by
    rw [figuresAgree_iff_counted]
    intro companyId _
    simp [countedOverdue,overdueDeadlines,hs.complianceStatus,hs.filingDeadlines]
  exact Runs.always_iff_along (I := Recorded) (fun _ _ hI hA _ _ => recorded_next hI hA)
    (fun _ _ hI hA hP => figuresAgree_next_iff hI hA hP) hrecorded hagree haccepted

/-- A firm whose owner sees its one client. -/
def watched : Store where
  org :=
    { firms := [⟨100,"CPAs",.accounting_firm,"cpa@example.com",none⟩]
      firmPermissions := [⟨1,"firm:clients:manage"⟩]
      firmRoles := [⟨1,"firm_owner",[1]⟩]
      firmMemberships := [⟨200,100,1,1,none,.active,0,some 0⟩]
      companies := [⟨300,some 100,"Aling Nena",none,.sole_prop,.non_vat,"000-000-001",none,none,none,none⟩] }

/-- The scan of 10 January 2026. -/
def firstScan : ComplianceRun := .scan 300 ⟨fun i => i,fun i => i,fun i => i⟩ (20463 * msPerDay)

/-- The daily job on the morning of a day. -/
def jobOn (day : ℤ) : ComplianceRun := .dailyJob (day * msPerDay + 21600000)

theorem watched_onDashboard (s : Store) (h : s.org = watched.org) :
    OnDashboard (fun _ _ => true) (fun _ _ => true) (fun _ _ => none) s 300 := by
  rw [onDashboard_congr h,onDashboard_iff]
  exact ⟨100,1,⟨_,rfl⟩,_,List.mem_cons_self,rfl⟩

/-- In February nothing is due, and the figures agree. -/
theorem figuresAgree_iff_watched :
    Runs.Always (ComplianceRun.next 0) (FiguresAgree (fun _ _ => true) (fun _ _ => true) fun _ _ => none) watched
      [firstScan,jobOn 20490] := by
  refine (figuresAgree_iff _ _ _ 0 ⟨rfl,rfl⟩ (by decide +kernel)).mpr ⟨not_false,?_,trivial⟩
  rintro ⟨d,hd,hpast,-⟩
  have hnone : ∀ d ∈ (ComplianceRun.next 0 watched firstScan).compliance.filingDeadlines,
      isPastDue (startOfDay 0 (20490 * msPerDay + 21600000)) d = false := by decide +kernel
  rw [hnone d hd] at hpast
  cases hpast

/-- On 27 April a quarterly return is past due. -/
theorem watched_not_figuresAgree :
    Unscanned watched ∧ Runs.Along (ComplianceRun.next 0) (ComplianceRun.Accepted 0) watched [firstScan,jobOn 20570] ∧
    ¬ Runs.Always (ComplianceRun.next 0) (FiguresAgree (fun _ _ => true) (fun _ _ => true) fun _ _ => none) watched
      [firstScan,jobOn 20570] := by
  refine ⟨⟨rfl,rfl⟩,by decide +kernel,fun h => ?_⟩
  have hagree := figuresAgree_iff_counted.mp h.last 300 (watched_onDashboard _ (by decide +kernel))
  revert hagree
  decide +kernel

end PinoyTax.Firm
