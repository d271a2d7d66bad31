import PinoyTax.Foundation.Cutoff
import PinoyTax.Firm.OverdueFilings

/-! # The rows behind the figures of a client

The dashboard reads the rows of all its companies at once and sorts them out by company
afterwards. Each client gets the figures of its own rows, and rows of companies that are
not on the dashboard are never looked at.
-/
namespace PinoyTax.Firm
open PinoyTax Foundation Identity

/-! ## One client at a time -/

/-- `orderBy: { createdAt: 'desc' }` and the first row. -/
def latest {ρ : Type} (createdAt : ρ → DateTime) (rows : List ρ) : Option ρ :=
  rows.find? (fun r => rows.all (fun q => decide (createdAt q ≤ createdAt r)))

/-- The mean of some percentages to two decimals: each is added to the sum of those before, the sum is divided by their
number and the quotient rounded, and each time the result is the nearest double. -/
def meanToCents (percentages : List ℚ) : ℚ :=
  if percentages = [] then 0
  else
    let total := percentages.foldl (fun sum x => Double.nearest (sum + Double.nearest x)) 0
    let mean := Double.nearest (total / percentages.length)
    Double.nearest (⌊Double.nearest (mean * 100) + 1 / 2⌋ / 100)

/-- The number is the mean, but for half a hundredth and the errors of doubles. -/
def NearMean (percentages : List ℚ) (x : ℚ) : Prop :=
  ∀ bound, (∀ y ∈ percentages, |y| ≤ bound) → percentages.length ≤ 2 ^ 32 →
    |x - percentages.sum / percentages.length| ≤ 1 / 200 + percentages.length * (bound + 1) / 2 ^ 49

/-- The percentages of a company's rows. -/
def percentagesOf (s : Store) (companyId : Uuid) : List ℚ :=
  (s.compliance.complianceStatus.filter (fun r => r.companyId = companyId)).map ComplianceStatus.compliancePercentage

/-- How many open issues of the severity a company has. -/
def openIssuesOf (s : Store) (companyId : Uuid) (severity : IssueSeverity) : ℕ :=
  s.compliance.flaggedIssues.countP fun i => i.companyId = companyId ∧ i.status = .open ∧ i.severity = severity

/-- The figures of a client, from its rows alone. -/
def ownFigures (s : Store) (company : Company) : ClientFigures where
  id := company.id
  businessName := company.businessName
  tradeName := company.tradeName
  vatClassification := company.vatClassification
  compliancePercentage := meanToCents (percentagesOf s company.id)
  overdueFilings :=
    ((s.compliance.complianceStatus.filter fun r => r.companyId = company.id).map ComplianceStatus.overdueCount).sum
  upcomingDeadlines := s.compliance.filingDeadlines.countP fun d =>
    d.companyId = company.id ∧ (d.status = .upcoming ∨ d.status = .due_today)
  openIssuesBySeverity :=
    { critical := openIssuesOf s company.id .critical
      high := openIssuesOf s company.id .high
      medium := openIssuesOf s company.id .medium
      low := openIssuesOf s company.id .low }
  latestPayrollRun := (latest PayrollRun.createdAt (s.payroll.payrollRuns.filter fun r => r.companyId = company.id)).map
    fun r => ⟨r.status,r.periodStart,r.periodEnd⟩
  latestTaxComputation := (latest TaxComputation.createdAt
    (s.taxEngine.taxComputations.filter fun c => c.companyId = company.id)).map
      fun c => ⟨c.computationType,c.status,c.periodEnd⟩

/-- The totals of a dashboard are those of its clients. -/
structure AddsUp (dashboard : Dashboard) : Prop where
  clients : dashboard.totals.totalClients = dashboard.clients.length
  average : dashboard.totals.avgCompliancePercentage = meanToCents (dashboard.clients.map ClientFigures.compliancePercentage)
  close : NearMean (dashboard.clients.map ClientFigures.compliancePercentage) dashboard.totals.avgCompliancePercentage
  overdue : dashboard.totals.totalOverdueFilings = (dashboard.clients.map ClientFigures.overdueFilings).sum
  critical : dashboard.totals.totalOpenCriticalIssues =
    (dashboard.clients.map fun c => c.openIssuesBySeverity.critical).sum
  high : dashboard.totals.totalOpenHighIssues = (dashboard.clients.map fun c => c.openIssuesBySeverity.high).sum

/-- The tables that a dashboard reads, with the rows of these companies only. -/
def rowsOf (companyIds : List Uuid) (s : Store) : Store where
  org :=
    { firms := s.org.firms
      firmRoles := s.org.firmRoles
      firmPermissions := s.org.firmPermissions
      firmMemberships := s.org.firmMemberships
      companies := s.org.companies.filter (fun c => companyIds.contains c.id)
      firmCompanyAssignments := s.org.firmCompanyAssignments.filter (fun a => companyIds.contains a.companyId) }
  compliance :=
    { complianceStatus := s.compliance.complianceStatus.filter (fun r => companyIds.contains r.companyId)
      flaggedIssues := s.compliance.flaggedIssues.filter (fun i => companyIds.contains i.companyId)
      filingDeadlines := s.compliance.filingDeadlines.filter (fun d => companyIds.contains d.companyId) }
  payroll := { payrollRuns := s.payroll.payrollRuns.filter (fun r => companyIds.contains r.companyId) }
  taxEngine := { taxComputations := s.taxEngine.taxComputations.filter (fun c => companyIds.contains c.companyId) }

/-! ## Sorting out by company -/

section
variable {ρ κ : Type} [DecidableEq κ]

/-- The first row of a key is the one that is kept. -/
theorem find?_distinct (key : ρ → κ) (rows : List ρ) (k : κ) :
    (distinct key rows).find? (fun r => key r = k) = rows.find? (fun r => key r = k) := by
  unfold distinct
  have hfold (kept : List ρ) : (rows.foldl (fun kept r => if kept.any (fun q => key q = key r) then kept else kept ++ [r])
      kept).find? (fun r => key r = k) = (kept ++ rows).find? (fun r => key r = k) := by
    induction rows generalizing kept with
    | nil => rw [List.foldl_nil,List.append_nil]
    | cons r rows ih =>
      rw [List.foldl_cons,ih]
      split
      · rename_i hany
        obtain ⟨q,hq,hkey⟩ := List.any_eq_true.mp hany
        rw [List.find?_append,List.find?_append,List.find?_cons]
        cases hr : decide (key r = k) with
        | false => rfl
        | true =>
          have hsome : (kept.find? fun r => key r = k).isSome := by
            rw [List.find?_isSome]
            exact ⟨q,hq,by simp_all⟩
          obtain ⟨found,hfound⟩ := Option.isSome_iff_exists.mp hsome
          rw [hfound]
          rfl
      · rw [List.append_assoc,List.singleton_append]
  exact hfold []

variable (companyId : ρ → Uuid) (createdAt : ρ → DateTime)

instance : Std.Total (newestFirst companyId createdAt) where
  total a b := by
    unfold newestFirst
    rcases lt_trichotomy (companyId a) (companyId b) with h | h | h
    · exact .inl (.inl h)
    · rcases le_total (createdAt a) (createdAt b) with h' | h'
      · exact .inr (.inr ⟨h.symm,h'⟩)
      · exact .inl (.inr ⟨h,h'⟩)
    · exact .inr (.inl h)

instance : IsTrans ρ (newestFirst companyId createdAt) where
  trans a b c := by
    rintro (hab | ⟨hab,hab'⟩) (hbc | ⟨hbc,hbc'⟩)
    · exact .inl (hab.trans hbc)
    · exact .inl (hbc ▸ hab)
    · exact .inl (hab ▸ hbc)
    · exact .inr ⟨hab.trans hbc,hbc'.trans hab'⟩

/-- What `distinct` keeps of a company is the latest of the company's rows. -/
theorem find?_latest (companyIds : List Uuid) {id : Uuid} (hid : id ∈ companyIds) (rows : List ρ) :
    (distinct companyId ((rows.filter (fun r => companyIds.contains (companyId r))).insertionSort
      (newestFirst companyId createdAt))).find? (fun r => companyId r = id) =
        latest createdAt (rows.filter fun r => companyId r = id) := by
  rw [find?_distinct,← List.head?_filter,Cutoff.filter_insertionSort,List.filter_filter,Cutoff.head?_insertionSort,latest]
  have hrows : rows.filter (fun r => decide (companyId r = id) && companyIds.contains (companyId r)) =
      rows.filter fun r => companyId r = id := by
    apply List.filter_congr
    intro r _
    by_cases hr : companyId r = id
    · simpa [hr] using hid
    · simp [hr]
  rw [hrows]
  apply List.find?_congr
  intro r hr
  have hrid : companyId r = id := by simpa using (List.mem_filter.mp hr).2
  rw [Bool.eq_iff_iff,List.all_eq_true,List.all_eq_true]
  refine forall₂_congr fun q hq => ?_
  have hqid : companyId q = id := by simpa using (List.mem_filter.mp hq).2
  simp [newestFirst,hrid,hqid]

end

/-! ## Means -/

theorem abs_roundCents_sub_le (x : ℚ) : |roundCents x - x| ≤ 1 / 200 + (3 * |x| + 1) / 2 ^ 53 := by
  have hscaled := Double.abs_nearest_sub_le (x * 100)
  have hround := Double.abs_floor_add_half_sub_le (Double.nearest (x * 100))
  have hback := Double.abs_nearest_sub_le (⌊Double.nearest (x * 100) + 1 / 2⌋ / 100)
  have hx := abs_nonneg x
  rw [abs_mul,abs_of_pos (by norm_num : (0 : ℚ) < 100)] at hscaled
  rw [abs_div,abs_of_pos (by norm_num : (0 : ℚ) < 100)] at hback
  rw [roundCents,Double.div,Double.round,Double.mul]
  generalize Double.nearest (x * 100) = scaled at *
  generalize hunits : (⌊scaled + 1 / 2⌋ : ℚ) = units at *
  have hsize : |units| ≤ 100 * |x| + 100 * |x| / 2 ^ 53 + 1 / 2 := by
    have hfirst := abs_sub_abs_le_abs_sub units scaled
    have hsecond := abs_sub_abs_le_abs_sub scaled (x * 100)
    rw [abs_mul,abs_of_pos (by norm_num : (0 : ℚ) < 100)] at hsecond
    linarith
  have hunit : |units / 100 - x| ≤ 1 / 200 + |x| / 2 ^ 53 := by
    have hparts : units / 100 - x = (units - scaled) / 100 + (scaled - x * 100) / 100 := by ring
    have htriangle := abs_add_le ((units - scaled) / 100) ((scaled - x * 100) / 100)
    rw [abs_div,abs_div,abs_of_pos (by norm_num : (0 : ℚ) < 100)] at htriangle
    rw [hparts]
    linarith
  have htriangle := abs_sub_le (Double.nearest (units / 100)) (units / 100) x
  linarith

theorem meanToCents_eq {percentages : List ℚ} (hne : percentages ≠ []) :
    meanToCents percentages = roundCents (Double.div (Double.sum (percentages.map Double.nearest)) percentages.length) := by
  rw [meanToCents,if_neg hne,Double.sum,List.foldl_map]
  rfl

/-- The mean as it is computed is close to what it stands for. -/
theorem nearMean_meanToCents (percentages : List ℚ) : NearMean percentages (meanToCents percentages) := by
  intro bound hall hlength
  by_cases hnil : percentages = []
  · subst hnil
    simp [meanToCents]
  · have hbound : 0 ≤ bound := by
      obtain ⟨y,hy⟩ := List.exists_mem_of_ne_nil _ hnil
      exact (abs_nonneg y).trans (hall y hy)
    have hlength' : (1 : ℚ) ≤ percentages.length := by exact_mod_cast List.length_pos_iff.mpr hnil
    obtain ⟨herror,hsize⟩ := Double.abs_sum_nearest_sub_le hall hlength
    rw [meanToCents_eq hnil,Double.div]
    generalize Double.sum (percentages.map Double.nearest) = total at *
    generalize percentages.sum = exact' at *
    generalize (percentages.length : ℚ) = n at *
    have hn : 0 < n := by linarith
    have hmean : |total / n| ≤ 2 * bound := by
      rw [abs_div,abs_of_pos hn,div_le_iff₀ hn]
      linarith
    have hexact : |total / n - exact' / n| ≤ 3 * n * bound / 2 ^ 53 := by
      rw [← sub_div,abs_div,abs_of_pos hn,div_le_iff₀ hn]
      calc |total - exact'| ≤ 3 * n ^ 2 * bound / 2 ^ 53 := herror
        _ = 3 * n * bound / 2 ^ 53 * n := by ring
    have hquotient := Double.abs_nearest_sub_le (total / n)
    generalize Double.nearest (total / n) = mean at *
    have hrounded := abs_roundCents_sub_le mean
    have hmean' : |mean| ≤ 2 * bound + 2 * bound / 2 ^ 53 := by
      have htriangle := abs_sub_abs_le_abs_sub mean (total / n)
      linarith
    have hfirst := abs_sub_le (roundCents mean) mean (exact' / n)
    have hsecond := abs_sub_le mean (total / n) (exact' / n)
    have hproduct : bound ≤ n * bound := le_mul_of_one_le_left hbound hlength'
    have hlast : n * (bound + 1) / 2 ^ 49 = (16 * (n * bound) + 16 * n) / 2 ^ 53 := by ring
    have hthird : 3 * n * bound / 2 ^ 53 = 3 * (n * bound) / 2 ^ 53 := by ring
    rw [hlast]
    linarith

theorem roundCents_avgCompliance (compliance : List ComplianceStatus) :
    roundCents (avgCompliance compliance) = meanToCents (compliance.map ComplianceStatus.compliancePercentage) := by
  unfold avgCompliance
  cases compliance with
  | nil => decide +kernel
  | cons r compliance =>
    have hpos : (r :: compliance).length > 0 := Nat.succ_pos _
    have hne : (r :: compliance).map ComplianceStatus.compliancePercentage ≠ [] := List.cons_ne_nil _ _
    rw [if_pos hpos,meanToCents_eq hne,List.map_map,List.length_map]
    rfl

theorem average_eq {clients : List ClientFigures}
    (hdoubles : ∀ c ∈ clients, Double.nearest c.compliancePercentage = c.compliancePercentage) :
    (totalsOf clients).avgCompliancePercentage = meanToCents (clients.map ClientFigures.compliancePercentage) := by
  have hread : (clients.map ClientFigures.compliancePercentage).map Double.nearest =
      clients.map ClientFigures.compliancePercentage := by
    rw [List.map_map]
    exact List.map_congr_left hdoubles
  by_cases hnil : clients = []
  · subst hnil
    rfl
  · have hpos : clients.length > 0 := List.length_pos_iff.mpr hnil
    have hne : clients.map ClientFigures.compliancePercentage ≠ [] := by simpa using hnil
    rw [totalsOf,meanToCents_eq hne,hread,List.length_map]
    exact if_pos hpos

/-! ## The figures of a client -/

section
variable {collation localeCompare : String → String → Bool} {complete : Totals → List ClientInNeed → Option String}
variable {s t : Store} {companyIds : List Uuid}

/-- Of the rows of several companies, those of one. -/
theorem filter_ownRows {ρ : Type} (key : ρ → Uuid) (p : ρ → Bool) {id : Uuid} (hid : id ∈ companyIds) (rows : List ρ) :
    (rows.filter fun r => companyIds.contains (key r) && p r).filter (fun r => key r = id) =
      rows.filter fun r => decide (key r = id) && p r := by
  rw [List.filter_filter]
  apply List.filter_congr
  intro r _
  by_cases hr : key r = id
  · have hcontains : companyIds.contains (key r) = true := by simpa [hr] using hid
    rw [hcontains,Bool.true_and]
  · simp [hr]

theorem upcoming_portfolio {id : Uuid} (hid : id ∈ companyIds) :
    (((portfolio s companyIds).deadlines.filter fun d => d.companyId = id).filter fun d => d.status != .overdue).length =
      s.compliance.filingDeadlines.countP fun d => d.companyId = id ∧ (d.status = .upcoming ∨ d.status = .due_today) := by
  rw [portfolio,(((List.perm_insertionSort _ _).filter _).filter _).length_eq,
    filter_ownRows FilingDeadline.companyId _ hid,List.filter_filter,List.countP_eq_length_filter]
  congr 1
  apply List.filter_congr
  intro d _
  by_cases hd : d.companyId = id
  · cases d.status <;> simp [hd]
  · simp [hd]

theorem bySeverity_portfolio {id : Uuid} (hid : id ∈ companyIds) :
    bySeverity ((portfolio s companyIds).openIssues.filter fun i => i.companyId = id) =
      ⟨openIssuesOf s id .critical,openIssuesOf s id .high,openIssuesOf s id .medium,openIssuesOf s id .low⟩ := by
  have hcount (severity : IssueSeverity) : (((portfolio s companyIds).openIssues.filter fun i => i.companyId = id).filter
      fun i => i.severity == severity).length = openIssuesOf s id severity := by
    rw [portfolio,filter_ownRows FlaggedIssue.companyId _ hid,List.filter_filter,openIssuesOf,List.countP_eq_length_filter]
    congr 1
    apply List.filter_congr
    intro i _
    rw [Bool.eq_iff_iff]
    simp only [Bool.and_eq_true,beq_iff_eq,decide_eq_true_eq]
    tauto
  rw [bySeverity,hcount,hcount,hcount,hcount]

theorem figuresOf_portfolio {company : Company} (hid : company.id ∈ companyIds) :
    figuresOf (portfolio s companyIds) company = ownFigures s company := by
  have hcompliance : (portfolio s companyIds).complianceRows.filter (fun r => r.companyId = company.id) =
      s.compliance.complianceStatus.filter fun r => r.companyId = company.id := by
    have hown := filter_ownRows ComplianceStatus.companyId (fun _ => true) hid s.compliance.complianceStatus
    simp only [Bool.and_true] at hown
    exact hown
  rw [figuresOf,ownFigures]
  simp only [Grouping.getD_lookup_groupBy,hcompliance,roundCents_avgCompliance,upcoming_portfolio hid,
    bySeverity_portfolio hid]
  simp only [portfolio,find?_latest PayrollRun.companyId PayrollRun.createdAt companyIds hid,
    find?_latest TaxComputation.companyId TaxComputation.createdAt companyIds hid]
  rfl

theorem clientsOf_eq (s : Store) (companies : List Company) : clientsOf s companies = companies.map (ownFigures s) :=
  List.map_congr_left fun _ hcompany => figuresOf_portfolio (List.mem_map_of_mem hcompany)

/-! ## The rows of other companies -/

theorem portfolio_rowsOf {ids : List Uuid} (hids : ∀ id ∈ ids, id ∈ companyIds) :
    portfolio (rowsOf companyIds s) ids = portfolio s ids := by
  have hboth {ρ : Type} (key : ρ → Uuid) (p : ρ → Bool) (rows : List ρ) :
      (rows.filter fun r => companyIds.contains (key r)).filter (fun r => ids.contains (key r) && p r) =
        rows.filter fun r => ids.contains (key r) && p r := by
    rw [List.filter_filter]
    apply List.filter_congr
    intro r _
    by_cases hr : key r ∈ ids
    · simp [hr,hids _ hr]
    · simp [hr]
  have hall {ρ : Type} (key : ρ → Uuid) (rows : List ρ) := hboth key (fun _ => true) rows
  simp only [Bool.and_true] at hall
  simp only [portfolio,rowsOf,hboth,hall]

theorem clientCompanies_rowsOf {firmId : Uuid} (hseen : ∀ c ∈ s.org.companies, c.firmId == some firmId → c.id ∈ companyIds) :
    (rowsOf companyIds s).org.companies.filter (fun c => c.firmId == some firmId) =
      s.org.companies.filter (fun c => c.firmId == some firmId) := by
  rw [rowsOf,List.filter_filter]
  apply List.filter_congr
  intro c hc
  cases hfirm : c.firmId == some firmId with
  | false => rfl
  | true => simpa using hseen c hc hfirm

theorem find?_rowsOf {id : Uuid} (hid : id ∈ companyIds) :
    (rowsOf companyIds s).org.companies.find? (fun c => c.id = id) = s.org.companies.find? (fun c => c.id = id) := by
  rw [rowsOf,List.find?_filter]
  apply List.find?_congr
  intro c _
  by_cases hc : c.id = id
  · simpa [hc] using hid
  · simp [hc]

theorem assignedCompanies_rowsOf {membershipId : Uuid}
    (hseen : ∀ c ∈ (s.org.firmCompanyAssignments.filter (isActiveOf membershipId)).filterMap (fun a =>
      s.org.companies.find? (fun c => c.id = a.companyId)), c.id ∈ companyIds) :
    ((rowsOf companyIds s).org.firmCompanyAssignments.filter (isActiveOf membershipId)).filterMap (fun a =>
        (rowsOf companyIds s).org.companies.find? (fun c => c.id = a.companyId)) =
      (s.org.firmCompanyAssignments.filter (isActiveOf membershipId)).filterMap (fun a =>
        s.org.companies.find? (fun c => c.id = a.companyId)) := by
  change ((s.org.firmCompanyAssignments.filter (fun a => companyIds.contains a.companyId)).filter _).filterMap _ = _
  rw [List.filterMap_filter,List.filterMap_filter,List.filterMap_filter]
  apply List.filterMap_congr
  intro a ha
  cases hactive : isActiveOf membershipId a with
  | false => simp
  | true =>
    by_cases hid : a.companyId ∈ companyIds
    · simp [hid,find?_rowsOf hid]
    · cases hfind : s.org.companies.find? (fun c => c.id = a.companyId) with
      | none => simp [hid]
      | some c =>
        -- An assigned company that is found is seen.
        have hc : c.id ∈ companyIds :=
          hseen c (List.mem_filterMap.mpr ⟨a,List.mem_filter.mpr ⟨ha,hactive⟩,hfind⟩)
        have hsame : c.id = a.companyId := by simpa using List.find?_some hfind
        exact absurd (hsame ▸ hc) hid

theorem visibleCompanies_rowsOf {firmId userId : Uuid}
    (hseen : ∀ c ∈ visibleCompanies collation localeCompare s firmId userId, c.id ∈ companyIds) :
    visibleCompanies collation localeCompare (rowsOf companyIds s) firmId userId =
      visibleCompanies collation localeCompare s firmId userId := by
  have hcodes (m : FirmMembership) : FirmPermissionsGuard.firmPermissionCodes (rowsOf companyIds s) m =
      FirmPermissionsGuard.firmPermissionCodes s m := rfl
  have hmemberships : (rowsOf companyIds s).org.firmMemberships = s.org.firmMemberships := rfl
  unfold visibleCompanies at hseen ⊢
  rw [hmemberships]
  cases hfind : s.org.firmMemberships.find? (FirmPermissionsGuard.isActiveMember userId firmId) with
  | none => rfl
  | some membership =>
    rw [hfind] at hseen
    dsimp only at hseen ⊢
    rw [hcodes]
    split
    · rename_i hall
      simp only [if_pos hall,List.mem_insertionSort,List.mem_filter,and_imp] at hseen
      rw [clientCompanies_rowsOf hseen]
    · rename_i hnone
      simp only [if_neg hnone,List.mem_insertionSort] at hseen
      rw [assignedCompanies_rowsOf hseen]

/-- A dashboard of a firm that is there. -/
theorem run_getFirmDashboard {firmId : Uuid} {firm : Firm} (hfirm : s.org.firms.find? (fun f => f.id = firmId) = some firm)
    (userId : Uuid) : ∃ dashboard, ((getFirmDashboard collation localeCompare complete firmId userId).run s).1 = .ok dashboard ∧
      dashboard.clients = clientsOf s (visibleCompanies collation localeCompare s firmId userId) ∧ AddsUp dashboard := by
  have hget : (Prisma.firm.get s).find? (fun f => f.id = firmId) = some firm := hfirm
  rw [getFirmDashboard,Prog.run_bind,getFirm,Prog.run_bind,TableRef.run_findUnique,Prog.resume_ok,hget,orThrow_some,
    Prog.run_done,Prog.resume_ok,Prog.run_bind,run_listClientCompanies,Prog.resume_ok]
  generalize visibleCompanies collation localeCompare s firmId userId = companies
  split
  · rename_i hnone
    obtain rfl := List.eq_nil_of_length_eq_zero hnone
    exact ⟨_,rfl,rfl,rfl,rfl,nearMean_meanToCents [],rfl,rfl,rfl⟩
  · rw [Prog.run_bind,run_findPortfolio,Prog.resume_ok]
    have hdoubles : ∀ c ∈ clientsOf s companies, Double.nearest c.compliancePercentage = c.compliancePercentage := by
      intro c hc
      obtain ⟨company,-,rfl⟩ := List.mem_map.mp hc
      exact Double.nearest_nearest _
    have haverage := average_eq hdoubles
    refine ⟨_,rfl,rfl,rfl,haverage,?_,rfl,rfl,rfl⟩
    exact haverage ▸ nearMean_meanToCents _

/-- No table or row is read but those of the companies that the user sees. -/
theorem getFirmDashboard_rowsOf {firmId userId : Uuid}
    (hseen : ∀ c ∈ visibleCompanies collation localeCompare s firmId userId, c.id ∈ companyIds) :
    ((getFirmDashboard collation localeCompare complete firmId userId).run (rowsOf companyIds s)).1 =
      ((getFirmDashboard collation localeCompare complete firmId userId).run s).1 := by
  have hget : Prisma.firm.get (rowsOf companyIds s) = Prisma.firm.get s := rfl
  simp only [getFirmDashboard,getFirm,Prog.run_bind,TableRef.run_findUnique,Prog.resume_ok,hget]
  cases (Prisma.firm.get s).find? (fun f => f.id = firmId) with
  | none => rfl
  | some firm =>
    simp only [orThrow_some,Prog.run_done,Prog.resume_ok]
    rw [Prog.run_bind,run_listClientCompanies,Prog.resume_ok,visibleCompanies_rowsOf hseen,Prog.run_bind,
      run_listClientCompanies,Prog.resume_ok]
    split
    · rfl
    · have hids : ∀ id ∈ (visibleCompanies collation localeCompare s firmId userId).map Company.id, id ∈ companyIds := by
        intro id hid
        obtain ⟨c,hc,rfl⟩ := List.mem_map.mp hid
        exact hseen c hc
      simp only [Prog.run_bind,run_findPortfolio,Prog.resume_ok,portfolio_rowsOf hids]
      rfl

/-- Every client on a dashboard has the figures of its own rows, with the mean of its percentages but for the rounding,
the totals are those of the clients, and the whole dashboard is the same whatever rows there are of companies that the
user does not see. -/
theorem getFirmDashboard_ownRows (complete : Totals → List ClientInNeed → Option String) {firmId userId : Uuid} {firm : Firm}
    (hfirm : s.org.firms.find? (fun f => f.id = firmId) = some firm)
    (hrows : rowsOf ((visibleCompanies collation localeCompare s firmId userId).map Company.id) t =
      rowsOf ((visibleCompanies collation localeCompare s firmId userId).map Company.id) s)
    (hunseen : ∀ c ∈ visibleCompanies collation localeCompare t firmId userId,
      c.id ∈ (visibleCompanies collation localeCompare s firmId userId).map Company.id) :
    ∃ dashboard, ((getFirmDashboard collation localeCompare complete firmId userId).run s).1 = .ok dashboard ∧
      ((getFirmDashboard collation localeCompare complete firmId userId).run t).1 = .ok dashboard ∧
      dashboard.clients = (visibleCompanies collation localeCompare s firmId userId).map (ownFigures s) ∧
      (∀ client ∈ dashboard.clients, NearMean (percentagesOf s client.id) client.compliancePercentage) ∧
      AddsUp dashboard := by
  obtain ⟨dashboard,hok,hclients,htotals⟩ := @run_getFirmDashboard collation localeCompare complete s firmId firm hfirm userId
  have hown := hclients.trans (clientsOf_eq s _)
  refine ⟨dashboard,hok,?_,hown,?_,htotals⟩
  · rw [← getFirmDashboard_rowsOf hunseen,hrows,getFirmDashboard_rowsOf fun c hc => List.mem_map_of_mem hc]
    exact hok
  · rw [hown]
    intro client hclient
    obtain ⟨company,-,rfl⟩ := List.mem_map.mp hclient
    exact nearMean_meanToCents _

end

/-- A firm with two clients, one of them assigned to a member of its staff. -/
def assignedOne : Store where
  org :=
    { firms := watched.org.firms
      firmRoles := [⟨2,"staff",[]⟩]
      firmMemberships := [⟨201,100,2,2,none,.active,0,some 0⟩]
      companies := [⟨300,some 100,"Aling Nena",none,.sole_prop,.non_vat,"000-000-001",none,none,none,none⟩,
        ⟨400,some 100,"Mang Juan",none,.sole_prop,.vat,"000-000-002",none,none,none,none⟩]
      firmCompanyAssignments := [{ id := 500, firmMembershipId := 201, companyId := 300 }] }
  compliance :=
    { complianceStatus := [{ id := 1, companyId := 300, category := "BIR", overdueCount := 2,
                             compliancePercentage := 3333 / 100, lastComputedAt := 0 },
        { id := 2, companyId := 300, category := "SSS", compliancePercentage := 100, lastComputedAt := 0 }] }

/-- The mean is 66.665, and 66.66 is what is shown. -/
example : meanToCents (percentagesOf assignedOne 300) = Double.nearest (6666 / 100) := by decide +kernel

/-- An issue of the other client. -/
def withIssue (s : Store) : Store :=
  Prisma.flaggedIssue.set [⟨600,400,.vat_misclassification,.critical,"",none,none,none,.open,0,none⟩] s

theorem getFirmDashboard_ownRows_assignedOne : ∃ dashboard,
    ((getFirmDashboard (fun _ _ => true) (fun _ _ => true) (fun _ _ => none) 100 2).run assignedOne).1 = .ok dashboard ∧
    ((getFirmDashboard (fun _ _ => true) (fun _ _ => true) (fun _ _ => none) 100 2).run (withIssue assignedOne)).1 =
      .ok dashboard ∧
    dashboard.clients = (visibleCompanies (fun _ _ => true) (fun _ _ => true) assignedOne 100 2).map (ownFigures assignedOne) ∧
      (∀ client ∈ dashboard.clients, NearMean (percentagesOf assignedOne client.id) client.compliancePercentage) ∧
      AddsUp dashboard :=
  getFirmDashboard_ownRows (fun _ _ => none) rfl rfl (by decide +kernel)

end PinoyTax.Firm
