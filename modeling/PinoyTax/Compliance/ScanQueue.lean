import PinoyTax.Compliance.ProfileEvents
import PinoyTax.Notifications.Service

/-! # Scans in the background

The listeners queue a scan when a request emits an event about a company, and workers run it
later: while the statements of other requests interleave with its own, while other scans run,
and again when it fails. Every job has three attempts. Once no scan of a company is left, its
deadlines are those of its profile.
-/
namespace PinoyTax.Compliance
open PinoyTax Foundation Calendar

abbrev ScanServer := Server Store Label ApiException Uuid DateTime ProfileChange Unit

section
variable (offset : ℤ) (toLowerCase : String → String)

/-- `ComplianceScanProcessor.process` on a job of the company. -/
def Scans (companyId : Uuid) (now : DateTime) (p : Request Unit) : Prop :=
  ∃ draw, p = runComplianceScan offset companyId draw now

/-- Deadlines stay, with their companies and keys. -/
def KeepsDeadlines (s t : Store) : Prop :=
  ∀ d ∈ s.compliance.filingDeadlines, ∃ d' ∈ t.compliance.filingDeadlines,
    d'.companyId = d.companyId ∧ deadlineKey d' = deadlineKey d

/-- What other requests and the daily job do to companies and deadlines. -/
def LeavesCompanies (s t : Store) : Prop := t.org.companies = s.org.companies ∧ KeepsDeadlines s t

/-- A step of the requests that may change profiles, of the queue `compliance-scan` or of anything else. -/
def ServerStep : ScanServer → ScanServer → Prop :=
  Server.Step Notifications.attempts (Scans offset) LeavesCompanies (ProfileChange.program toLowerCase) queuedScans
    Refusable

end

/-! ## What a scan is there for -/

/-- The classification and type of the company, and whether it has active employees. -/
def situationOf (companyId : Uuid) (s : Store) : Option (VatClassification × BusinessType) × Bool :=
  (profileOf companyId s,decide (0 < (activeEmployees s companyId).length))

/-- A deadline of the company with the form and the period of the candidate. -/
def Listed (companyId : Uuid) (s : Store) (c : Candidate) : Prop :=
  ∃ d ∈ s.compliance.filingDeadlines, d.companyId = companyId ∧ d.formCode = c.formCode ∧
    dateColumn d.periodStart = dateColumn c.periodStart ∧ dateColumn d.periodEnd = dateColumn c.periodEnd

section
variable (offset : ℤ) (companyId : Uuid) (since : DateTime) (situation : Option (VatClassification × BusinessType) × Bool)

/-- The deadlines of a situation are there, as seen at some time since. -/
def Covered (s : Store) : Prop :=
  ∃ company activeEmployeeCount now, situation = (some (profile company),decide (0 < activeEmployeeCount)) ∧ since ≤ now ∧
    ∀ c ∈ candidates offset company activeEmployeeCount now, Listed companyId s c

def scanning : Discipline Store where
  Inv s := situationOf companyId s = situation
  Admits _ := True
  Later := KeepsDeadlines
  refl _ := fun d hd => ⟨d,hd,rfl,rfl⟩
  trans h h' := by
    intro d hd
    obtain ⟨d₁,hd₁,hc₁,hk₁⟩ := h d hd
    obtain ⟨d₂,hd₂,hc₂,hk₂⟩ := h' d₁ hd₁
    exact ⟨d₂,hd₂,hc₂.trans hc₁,hk₂.trans hk₁⟩

end

section
variable {offset : ℤ} {companyId : Uuid} {since now : DateTime} {s t : Store}
variable {situation : Option (VatClassification × BusinessType) × Bool}

/-- Only the profile and whether there are active employees decide what is expected. -/
theorem candidates_congr {company company' : Company} {n n' : ℕ} (hprofile : profile company = profile company')
    (hcount : decide (0 < n) = decide (0 < n')) (now : DateTime) :
    candidates offset company n now = candidates offset company' n' now := by
  obtain ⟨hvat,htype⟩ := Prod.mk.inj hprofile
  have hsales : salesTaxDeadline offset company now = salesTaxDeadline offset company' now := by
    funext q
    rw [salesTaxDeadline,salesTaxDeadline,hvat]
  have hincome : incomeTaxDeadline offset company now = incomeTaxDeadline offset company' now := by
    funext q
    rw [incomeTaxDeadline,incomeTaxDeadline,htype]
  have hiff : 0 < n ↔ 0 < n' := by simpa using hcount
  rw [candidates,candidates,hsales,hincome]
  congr 1
  by_cases hn : 0 < n
  · rw [if_pos hn,if_pos (hiff.mp hn)]
  · rw [if_neg hn,if_neg fun hn' => hn (hiff.mpr hn')]

theorem Listed.later {c : Candidate} (h : Listed companyId s c) (hst : KeepsDeadlines s t) :
    Listed companyId t c := by
  obtain ⟨d,hd,hcompany,hform,hstart,hend⟩ := h
  obtain ⟨d',hd',hcompany',hkey⟩ := hst d hd
  simp only [deadlineKey,Prod.mk.injEq] at hkey
  refine ⟨d',hd',hcompany'.trans hcompany,hkey.1.trans hform,?_,?_⟩
  · rw [hkey.2.1,hstart]
  · rw [hkey.2.2,hend]

theorem Covered.later (h : Covered offset companyId since situation s) (hst : KeepsDeadlines s t) :
    Covered offset companyId since situation t := by
  obtain ⟨company,n,now,hsituation,hsince,hall⟩ := h
  exact ⟨company,n,now,hsituation,hsince,fun c hc => (hall c hc).later hst⟩

theorem dateColumn_dateColumn (x : DateTime) : dateColumn (dateColumn x) = dateColumn x := by
  rw [dateColumn,dateColumn,Int.mul_ediv_cancel _ (by decide)]

/-- A write that leaves companies, employees and deadlines alone. -/
theorem keepsDeadlines_of_eq (h : t.compliance.filingDeadlines = s.compliance.filingDeadlines) : KeepsDeadlines s t :=
  fun d hd => ⟨d,by rw [h]; exact hd,rfl,rfl⟩

theorem situationOf_eq (horg : t.org = s.org) (hpayroll : t.payroll = s.payroll) :
    situationOf companyId t = situationOf companyId s := by
  rw [situationOf,situationOf,profileOf,profileOf,findCompany,findCompany,activeEmployees,activeEmployees,horg,hpayroll]

/-- What a scan does to the store leaves the situation of every company alone, and all deadlines. -/
def LeavesBe (_ : Label) (s t : Store) : Prop := t.org = s.org ∧ t.payroll = s.payroll ∧ KeepsDeadlines s t

theorem leavesBe_of_keeps {α : Type} {p : Request α}
    (h : p.Keeps fun s => (s.org,s.payroll,s.compliance.filingDeadlines)) : p.Guarantees LeavesBe := by
  refine h.mono fun _ s t hst => ?_
  obtain ⟨horg,hrest⟩ := Prod.mk.inj hst
  obtain ⟨hpayroll,hdeadlines⟩ := Prod.mk.inj hrest
  exact ⟨horg,hpayroll,keepsDeadlines_of_eq hdeadlines⟩

theorem keepsDeadlines_append (rows : List FilingDeadline) (s : Store) :
    KeepsDeadlines s (Prisma.filingDeadline.set (s.compliance.filingDeadlines ++ rows) s) :=
  fun d hd => ⟨d,List.mem_append_left _ hd,rfl,rfl⟩

theorem leavesBe_generate (company : Company) (ids : ℕ → Uuid) (today : DateTime) :
    (generateFilingDeadlines offset companyId company ids today).Guarantees LeavesBe := by
  have hread : ∀ s : Store, LeavesBe (.on .employee .count) s s := fun s => ⟨rfl,rfl,keepsDeadlines_of_eq rfl⟩
  apply Prog.Guarantees.bind (Prog.guarantees_query hread)
  intro activeEmployeeCount
  apply Prog.Guarantees.bind (Prog.guarantees_query hread)
  intro existing
  dsimp only
  split
  · exact fun s => ⟨⟨rfl,rfl,keepsDeadlines_append _ s⟩,trivial⟩
  · trivial

/-- The checks and the counts. -/
theorem leavesBe_checks (company : Company) (draw : ScanDraw) (now : DateTime) :
    (do
      checkVatClassificationRisk companyId company (draw.issueIds 0) now
      checkDuplicatePayrollRuns offset companyId (fun i => draw.issueIds (i + 1)) now
      recomputeComplianceStatus companyId draw.statusIds now : Request Unit).Guarantees LeavesBe := by
  apply leavesBe_of_keeps
  refine Prog.Guarantees.bind (keeps_checkVatClassificationRisk companyId company _ now fun _ _ _ => rfl) fun _ => ?_
  refine Prog.Guarantees.bind (keeps_checkDuplicatePayrollRuns offset companyId now (fun _ _ _ => rfl) _) fun _ => ?_
  exact keeps_recomputeComplianceStatus (fun _ _ => rfl) companyId _ now

theorem leavesBe_runComplianceScan (draw : ScanDraw) (now : DateTime) :
    (runComplianceScan offset companyId draw now).Guarantees LeavesBe := by
  apply Prog.Guarantees.bind (Prog.guarantees_query fun s => ⟨rfl,rfl,keepsDeadlines_of_eq rfl⟩)
  intro found
  cases found with
  | none => trivial
  | some company => exact (leavesBe_generate company draw.deadlineIds now).bind fun _ => leavesBe_checks company draw now

theorem steady_of_leavesBe {p : Request Unit} (h : p.Guarantees LeavesBe) :
    WorkQueue.Steady (scanning companyId situation) p :=
  h.mono fun _ _ _ hst hs => ⟨(situationOf_eq hst.1 hst.2.1).trans hs,hst.2.2⟩

/-! ## A scan of the company itself -/

theorem listed_of_existsAlready {existing : List FilingDeadline} {c : Candidate} (h : existsAlready existing c = true)
    (hexisting : ∀ d ∈ existing, d ∈ s.compliance.filingDeadlines ∧ d.companyId = companyId) : Listed companyId s c := by
  obtain ⟨d,hd,hkey⟩ := List.any_eq_true.mp h
  simp only [Bool.and_eq_true,beq_iff_eq] at hkey
  obtain ⟨hmem,hcompany⟩ := hexisting d hd
  exact ⟨d,hmem,hcompany,hkey.1.1,by rw [hkey.1.2],by rw [hkey.2]⟩

theorem listed_of_created {toCreate : List Candidate} {c : Candidate} (hc : c ∈ toCreate) (ids : ℕ → Uuid)
    (today : DateTime) : Listed companyId (Prisma.filingDeadline.set (s.compliance.filingDeadlines ++
      toCreate.zipIdx.map fun c => deadlineRow companyId today (ids c.2) c.1) s) c := by
  obtain ⟨i,hi,hget⟩ := List.mem_iff_getElem.mp hc
  have hmem : (c,i) ∈ toCreate.zipIdx := by
    rw [List.mem_zipIdx_iff_getElem?,List.getElem?_eq_getElem hi,hget]
  refine ⟨deadlineRow companyId today (ids i) c,List.mem_append_right _ (List.mem_map_of_mem hmem),rfl,rfl,?_,?_⟩
  · exact dateColumn_dateColumn _
  · exact dateColumn_dateColumn _

/-- The deadlines of what the generator finds. -/
theorem respects_generate {company : Company} (hprofile : situation.1 = some (profile company)) (hnow : since ≤ now)
    (ids : ℕ → Uuid) (s : Store) : (generateFilingDeadlines offset companyId company ids now).Respects
      (scanning companyId situation) (fun _ => Covered offset companyId since situation) s := by
  refine Prog.respects_query_bind fun t _ hinv => ?_
  generalize hcount : ((Prisma.employee.get t).filter (isActiveIn companyId)).length = n
  have hsituation : situation = (some (profile company),decide (0 < n)) := by
    have hactive : (activeEmployees t companyId).length = n := hcount
    rw [← hprofile,← hactive]
    exact Prod.ext rfl (congrArg Prod.snd hinv).symm
  refine Prog.respects_query_bind fun u _ _ => ?_
  generalize hexisting : (Prisma.filingDeadline.get u).filter (fun d => decide (d.companyId = companyId) &&
    ((candidates offset company n now).map Candidate.formCode).contains d.formCode) = existing
  have hfound : ∀ d ∈ existing, d ∈ u.compliance.filingDeadlines ∧ d.companyId = companyId := by
    intro d hd
    rw [← hexisting] at hd
    obtain ⟨hmem,hselected⟩ := List.mem_filter.mp hd
    rw [Bool.and_eq_true,decide_eq_true_eq] at hselected
    exact ⟨hmem,hselected.1⟩
  have hold : ∀ c ∈ candidates offset company n now, existsAlready existing c = true → Listed companyId u c :=
    fun c _ h => listed_of_existsAlready h hfound
  dsimp only
  split
  · intro v huv hinv' _
    have hlater : KeepsDeadlines v (Prisma.filingDeadline.set (v.compliance.filingDeadlines ++
        ((candidates offset company n now).filter fun c => !existsAlready existing c).zipIdx.map fun c =>
          deadlineRow companyId now (ids c.2) c.1) v) := keepsDeadlines_append _ v
    refine ⟨hinv',hlater,fun w hw => ?_⟩
    refine ⟨company,n,now,hsituation,hnow,fun c hc => ?_⟩
    cases hexists : existsAlready existing c with
    | true => exact (((hold c hc hexists).later huv).later hlater).later hw
    | false =>
      exact (listed_of_created (List.mem_filter.mpr ⟨hc,by rw [hexists]; rfl⟩) ids now).later hw
  · rename_i hnone
    have hempty := List.eq_nil_of_length_eq_zero (Nat.eq_zero_of_not_pos hnone)
    intro v huv
    refine ⟨company,n,now,hsituation,hnow,fun c hc => (hold c hc ?_).later huv⟩
    have hnot := List.filter_eq_nil_iff.mp hempty c hc
    simpa using hnot

theorem respects_runComplianceScan {p : VatClassification × BusinessType} (hsome : situation.1 = some p) (hnow : since ≤ now)
    (draw : ScanDraw) (s : Store) : (runComplianceScan offset companyId draw now).Respects (scanning companyId situation)
      (fun _ => Covered offset companyId since situation) s := by
  refine Prog.respects_query_bind fun t _ hinv => ?_
  have hprofile : profileOf companyId t = some p := (congrArg Prod.fst hinv).trans hsome
  obtain ⟨company,hcompany,hp⟩ := Option.map_eq_some_iff.mp hprofile
  have hfind : (Prisma.company.get t).find? (fun c => c.id = companyId) = some company := hcompany
  rw [hfind]
  refine (respects_generate (by rw [hsome,hp]) hnow draw.deadlineIds t).bind fun _ u hu => ?_
  refine Prog.Respects.mono (Q := fun _ w => KeepsDeadlines u w) (fun _ w hw => hu.later hw) ?_
  refine Prog.Guarantees.respects ((leavesBe_checks company draw now).mono fun _ _ _ hst hs _ => ?_) u
  exact ⟨(situationOf_eq hst.1 hst.2.1).trans hs,hst.2.2⟩

end

/-! ## The queue -/

section
variable {offset : ℤ} {toLowerCase : String → String}

theorem keepsDeadlines_program (req : ProfileChange) :
    (req.program toLowerCase).Guarantees fun _ => KeepsDeadlines := by
  have happart : Org.Apart fun s : Store => s.compliance.filingDeadlines := by constructor <;> exact fun _ _ => rfl
  have hkeeps : (req.program toLowerCase).Keeps fun s => s.compliance.filingDeadlines := by
    cases req with
    | company req => exact Org.keeps_program happart toLowerCase req
    | updateCompany userId companyId dto =>
      exact Firm.keeps_discard (Org.keeps_guarded (Org.keeps_updateCompany happart companyId dto))
  exact hkeeps.mono fun _ _ _ => keepsDeadlines_of_eq

theorem notifies (companyId : Uuid) (situation : Option (VatClassification × BusinessType) × Bool) :
    Server.Notifies (Scans offset) LeavesCompanies (ProfileChange.program toLowerCase) queuedScans Refusable
      (profileOf companyId) (ProfileChange.sets companyId) companyId (scanning companyId situation) where
  settles _ hreq s := announces_program toLowerCase hreq s
  keeps _ hreq := keeps_program toLowerCase hreq
  requests req := keepsDeadlines_program req
  jobs := by
    rintro key now p ⟨draw,rfl⟩
    have hleaves := @leavesBe_runComplianceScan offset key draw now
    refine ⟨hleaves.mono fun _ _ _ hst => profileOf_of_companies ?_,steady_of_leavesBe hleaves⟩
    rw [hst.1]
  elsewhere _ _ h := ⟨profileOf_of_companies h.1,h.2⟩

end

/-- A step sets or changes the profile of a company, which one request at a time has set until then. From that
step on, whatever other requests and scans interleave with the request and with the scans of the company, and
however often these fail: when no request that sets the profile is in flight, no scan of the company is left in
the queue and none was given up, its deadlines are those that its profile has at some time since, as long as that
and whether it has active employees have stayed the same. -/
theorem scans_catch_up (offset : ℤ) (toLowerCase : String → String) (companyId : Uuid)
    {first before after later : ScanServer} (hrequests : first.requests = []) (hjobs : first.queue.running = [])
    (hbefore : Relation.ReflTransGen
      (fun c d => ServerStep offset toLowerCase c d ∧ d.Serial (ProfileChange.sets companyId)) first before)
    (hstep : ServerStep offset toLowerCase before after) {company : Company}
    (hcompany : findCompany after.queue.state companyId = some company)
    (hchanged : profileOf companyId after.queue.state ≠ profileOf companyId before.queue.state)
    (hlater : Relation.ReflTransGen (fun c d => ServerStep offset toLowerCase c d ∧
      situationOf companyId d.queue.state = situationOf companyId after.queue.state) after later)
    (hanswered : ∀ x ∈ later.requests, x.1.sets companyId = false)
    (hwaiting : ∀ job ∈ later.queue.waiting, job.key ≠ companyId)
    (hrunning : ∀ x ∈ later.queue.running, x.1.key ≠ companyId)
    (hexhausted : ∀ job ∈ later.queue.exhausted, job.key ≠ companyId) :
    ∃ company, findCompany later.queue.state companyId = some company ∧ ∃ now, after.queue.clock ≤ now ∧
      ∀ c ∈ candidates offset company (activeEmployees later.queue.state companyId).length now,
        Listed companyId later.queue.state c := by
  have hsome : (situationOf companyId after.queue.state).1 = some (profile company) := by
    rw [situationOf,profileOf,hcompany]
    rfl
  have hcovered : situationOf companyId later.queue.state = situationOf companyId after.queue.state ∧
      Covered offset companyId after.queue.clock (situationOf companyId after.queue.state) later.queue.state := by
    refine Server.reached_of_changed (notifies companyId (situationOf companyId after.queue.state)) (fun _ => trivial)
      (fun _ _ h hst => h.later hst) ?_ hrequests hjobs hbefore hstep hchanged rfl ?_ hlater hanswered hwaiting hrunning
      hexhausted
    · exact fun s t hs ht => congrArg Prod.fst (ht.trans hs.symm)
    · rintro now hnow p ⟨draw,rfl⟩ s _
      exact respects_runComplianceScan hsome hnow draw s
  obtain ⟨hsame,company',n,now,hsituation,hnow,hall⟩ := hcovered
  rw [hsituation] at hsame
  obtain ⟨hprofile,hcount⟩ := Prod.mk.inj hsame
  obtain ⟨found,hfound,hp⟩ := Option.map_eq_some_iff.mp hprofile
  refine ⟨found,hfound,now,hnow,?_⟩
  rw [candidates_congr hp hcount]
  exact hall

def founding : Store where
  identity := { roles := [⟨1,"business_owner",[]⟩] }

def bakeryDto : Firm.CreateCompanyDto where
  businessName := "Ana's Bakery"
  businessType := .sole_prop
  vatClassification := .non_vat
  tin := "123-456-789-000"

def foundBakery : ProfileChange := .company (.createCompany 7 bakeryDto 300 2 0)

/-- The bakery is registered; its scan fails at first. -/
theorem scans_catch_up_founded : ∃ later : ScanServer, later.requests = [] ∧ later.queue.waiting = [] ∧
    later.queue.exhausted = [] ∧ later.queue.state.compliance.filingDeadlines.length = 8 ∧
    ∃ company, findCompany later.queue.state 300 = some company ∧ ∃ now, 0 ≤ now ∧
      ∀ c ∈ candidates 0 company (activeEmployees later.queue.state 300).length now, Listed 300 later.queue.state c := by
  let first : ScanServer := { queue := { state := founding,clock := 0 } }
  let arrived : ScanServer := { first with requests := [(foundBakery,foundBakery.program id)] }
  let before : ScanServer := (Server.advance queuedScans)^[2] arrived
  let after : ScanServer := Server.advance queuedScans before
  let announced : ScanServer := (Server.advance queuedScans)^[2] after
  let SameSituation (q : WorkQueue Store Label ApiException Uuid DateTime) : Prop :=
    situationOf 300 q.state = situationOf 300 after.queue.state
  let Later (c d : ScanServer) : Prop := ServerStep 0 id c d ∧ SameSituation d.queue
  have hbefore : Relation.ReflTransGen (fun c d => ServerStep 0 id c d ∧ d.Serial (ProfileChange.sets 300)) first before :=
    .head ⟨.arrive foundBakery,by decide +kernel⟩ (Server.steps_advance (c := arrived) (by decide +kernel))
  have hstep : ServerStep 0 id before after := .execute (show before.requests = [] ++ _ :: [] from rfl)
  have hannounced : Relation.ReflTransGen Later after announced :=
    Server.steps_advance (P := fun d => SameSituation d.queue) (by decide +kernel)
  let answered : ScanServer := { announced with requests := [] }
  have hanswered : ServerStep 0 id announced answered :=
    .answer (show announced.requests = [] ++ (foundBakery,.done (.ok ())) :: [] from rfl)
  let scan : Request Unit := runComplianceScan 0 300 ⟨id,id,id⟩ 0
  let waiting (n : ℕ) : ScanServer := { answered with queue.waiting := [⟨300,n⟩] }
  let running (n : ℕ) : ScanServer := { answered with queue.waiting := [],queue.running := [(⟨300,n⟩,scan)] }
  have htake (n : ℕ) : ServerStep 0 id (waiting n) (running n) :=
    .work (.take (show (waiting n).queue.waiting = [] ++ ⟨300,n⟩ :: [] from rfl) ⟨_,rfl⟩)
  have hfail : ServerStep 0 id (running 0) (waiting 1) :=
    .work (.fail (show (running 0).queue.running = [] ++ (⟨300,0⟩,scan) :: [] from rfl))
  have hretaken : Relation.ReflTransGen Later after (running 1) :=
    hannounced.tail ⟨hanswered,rfl⟩ |>.tail ⟨htake 0,rfl⟩ |>.tail ⟨hfail,rfl⟩ |>.tail ⟨htake 1,rfl⟩
  let later : ScanServer :=
    { answered with queue.state := (scan.run answered.queue.state).2,queue.waiting := [],queue.running := [] }
  have hdone : Relation.ReflTransGen Later (running 1) later :=
    Server.steps_work (c := running 1) (WorkQueue.left_alone (D := scanning 300 (situationOf 300 after.queue.state)) rfl
      (steady_of_leavesBe (leavesBe_runComplianceScan _ _)) rfl (by decide +kernel))
  have hchanged : profileOf 300 after.queue.state ≠ profileOf 300 before.queue.state := by decide +kernel
  have hempty {α : Type} {P : α → Prop} : ∀ x ∈ ([] : List α), P x := fun _ hx => absurd hx List.not_mem_nil
  have hbakery : findCompany after.queue.state 300 = some (Org.companyRow bakeryDto 300) := by decide +kernel
  have hcaught := scans_catch_up 0 id 300 (rfl : first.requests = []) (rfl : first.queue.running = []) hbefore hstep hbakery
    hchanged (hretaken.trans hdone) hempty hempty hempty hempty
  refine ⟨later,rfl,rfl,rfl,?_,hcaught⟩
  decide +kernel

end PinoyTax.Compliance
