import PinoyTax.Payroll.Requests

/-! # Deductions in finalized runs

Every payslip is the function of a run, an employee and the rule table that
`payslipFor` computes, whatever was recomputed or cut off since. An empty error list
then says that each contribution had its number and that the engine returned an amount.
-/
namespace PinoyTax.Payroll
open PinoyTax Foundation Runs TaxEngine

/-- The engine returns this amount, with nothing missing, for the payslip's basic pay
under the rules in force at the end of the period. -/
def Returned (s : Store) (r : PayrollRun) (p : Payslip) (ruleCode : String) (amount : Money) : Prop :=
  ∃ res, ((computeGraduatedAmount ruleCode (some p.basicPay.toNumber) r.periodEnd).run s).1 = .ok res ∧
    res.missingInputs = [] ∧ res.result = some amount.toNumber

structure FullyDeducted (s : Store) (r : PayrollRun) (p : Payslip) : Prop where
  noErrors : errorsOf p = []
  numbers : ∃ e ∈ s.payroll.employees, e.id = p.employeeId ∧ present e.sssNumber = true ∧
    present e.philhealthNumber = true ∧ present e.pagibigNumber = true
  sss : Returned s r p "SSS_EMPLOYEE_CONTRIBUTION_RATE" p.sssContribution
  philhealth : Returned s r p "PHILHEALTH_EMPLOYEE_CONTRIBUTION_RATE" p.philhealthContribution
  pagibig : Returned s r p "PAGIBIG_EMPLOYEE_CONTRIBUTION_RATE" p.pagibigContribution
  withholding : Returned s r p "WITHHOLDING_COMP_BRACKETS" p.withholdingTax

/-- Every payslip of every finalized run carries its four deductions. -/
def FinalizedDeducted (s : Store) : Prop :=
  ∀ r ∈ s.payroll.payrollRuns, r.status = .finalized → ∀ p ∈ payslipsOf s r.id, FullyDeducted s r p

/-! ## What an empty error list means -/

theorem resolved_of_no_errors {r : EngineResult} (h : (resolved r).2 = []) :
    r.missingInputs = [] ∧ (resolved r).1 = r.result.getD 0 := by
  unfold resolved at h ⊢
  by_cases hm : r.missingInputs.length > 0
  · rw [if_pos hm] at h
    rw [show r.missingInputs = [] from h] at hm
    exact absurd hm (lt_irrefl 0)
  · rw [if_neg hm]
    exact ⟨by simpa using hm,rfl⟩

theorem engineAmountOf_of_no_errors {rules : List TaxRule} {ruleCode : String} {basicPay : ℚ} {asOf : DateTime}
    (h : (engineAmountOf rules ruleCode basicPay asOf).2 = []) :
    (graduatedResult (activeRule rules ruleCode asOf) ruleCode (some basicPay) ruleCode asOf asOf).missingInputs = [] ∧
      (graduatedResult (activeRule rules ruleCode asOf) ruleCode (some basicPay) ruleCode asOf asOf).result =
        some (Money.ofNumber (engineAmountOf rules ruleCode basicPay asOf).1).toNumber := by
  obtain ⟨hm,hr⟩ := resolved_of_no_errors h
  obtain ⟨total,ht⟩ := graduatedResult_of_no_missing hm
  refine ⟨hm,?_⟩
  rw [engineAmountOf,hr,ht,Option.getD_some,Money.toNumber_ofNumber_toFixed]

theorem contributionOf_of_no_errors {rules : List TaxRule} {number : Option String} {missing ruleCode : String}
    {basicPay : ℚ} {asOf : DateTime} (h : (contributionOf rules number missing ruleCode basicPay asOf).2 = []) :
    present number = true ∧ (engineAmountOf rules ruleCode basicPay asOf).2 = [] ∧
      contributionOf rules number missing ruleCode basicPay asOf = engineAmountOf rules ruleCode basicPay asOf := by
  unfold contributionOf at h ⊢
  by_cases hp : present number = true
  · rw [if_pos hp] at h ⊢
    exact ⟨hp,h,rfl⟩
  · rw [if_neg hp] at h
    cases h

theorem returned_of_no_errors {s : Store} {r : PayrollRun} {p : Payslip} {ruleCode : String} {amount : Money}
    (ha : amount = Money.ofNumber (engineAmountOf s.taxEngine.taxRules ruleCode p.basicPay.toNumber r.periodEnd).1)
    (h : (engineAmountOf s.taxEngine.taxRules ruleCode p.basicPay.toNumber r.periodEnd).2 = []) :
    Returned s r p ruleCode amount := by
  obtain ⟨hm,hr⟩ := engineAmountOf_of_no_errors h
  exact ⟨_,rfl,hm,by rw [hr,ha]⟩

theorem fullyDeducted_payslipFor {s : Store} {r : PayrollRun} {e : Employee} {id : Uuid} {now : DateTime}
    (he : e ∈ s.payroll.employees) (h : errorsOf (payslipFor s.taxEngine.taxRules r now id e) = []) :
    FullyDeducted s r (payslipFor s.taxEngine.taxRules r now id e) := by
  have hbasic : (payslipFor s.taxEngine.taxRules r now id e).basicPay = e.basicSalary :=
    Money.ofNumber_toNumber e.basicSalary
  have herr := h
  simp only [errorsOf,payslipFor,payslipRow,Option.map_some,Option.getD_some,List.append_eq_nil_iff] at herr
  obtain ⟨⟨⟨hsss,hphilhealth⟩,hpagibig⟩,hwithholding⟩ := herr
  obtain ⟨hn1,he1,hc1⟩ := contributionOf_of_no_errors hsss
  obtain ⟨hn2,he2,hc2⟩ := contributionOf_of_no_errors hphilhealth
  obtain ⟨hn3,he3,hc3⟩ := contributionOf_of_no_errors hpagibig
  refine ⟨h,⟨e,he,rfl,hn1,hn2,hn3⟩,?_,?_,?_,?_⟩
  · refine returned_of_no_errors ?_ (by rw [hbasic]; exact he1)
    rw [hbasic,← hc1]
    rfl
  · refine returned_of_no_errors ?_ (by rw [hbasic]; exact he2)
    rw [hbasic,← hc2]
    rfl
  · refine returned_of_no_errors ?_ (by rw [hbasic]; exact he3)
    rw [hbasic,← hc3]
    rfl
  · refine returned_of_no_errors ?_ (by rw [hbasic]; exact hwithholding)
    rw [hbasic]
    rfl

/-! ## Where payslips come from -/

def Sourced (s : Store) (p : Payslip) : Prop :=
  ∃ r ∈ s.payroll.payrollRuns, ∃ e ∈ s.payroll.employees, ∃ id now,
    p = payslipFor s.taxEngine.taxRules r now id e

/-- The invariant: payslips come from rows of the store, and those of finalized
runs have no errors. -/
structure Accounted (s : Store) : Prop where
  sourced : ∀ p ∈ s.payroll.payslips, Sourced s p
  clean : ∀ r ∈ s.payroll.payrollRuns, r.status = .finalized → ∀ p ∈ payslipsOf s r.id, errorsOf p = []

/-- Updating the status of a run changes no payslip's origin. -/
theorem Sourced.updateMany {s t : Store} {q : PayrollRun → Bool} {p : Payslip} (h : Sourced s p)
    (f : PayrollRun → PayrollRun) (hid : ∀ r, (f r).id = r.id) (hend : ∀ r, (f r).periodEnd = r.periodEnd)
    (hruns : t.payroll.payrollRuns = Table.updateMany q f s.payroll.payrollRuns)
    (hemployees : t.payroll.employees = s.payroll.employees) (hrules : t.taxEngine = s.taxEngine) :
    Sourced t p := by
  obtain ⟨r,hr,e,he,id,now,rfl⟩ := h
  refine ⟨if q r then f r else r,?_,e,by rwa [hemployees],id,now,?_⟩
  · rw [hruns]
    exact Table.mem_updateMany.mpr ⟨r,hr,rfl⟩
  · have hif : (if q r then f r else r).id = r.id ∧ (if q r then f r else r).periodEnd = r.periodEnd := by
      split
      · exact ⟨hid r,hend r⟩
      · exact ⟨rfl,rfl⟩
    simp only [payslipFor,payslipRow,hif.1,hif.2,hrules]

theorem sourced_planned {s : Store} {run : PayrollRun} {ids : ℕ → Uuid} {now : DateTime} {p : Payslip}
    (hrun : run ∈ s.payroll.payrollRuns) (hp : p ∈ planned s run ids now) : Sourced s p := by
  obtain ⟨e,he,id,rfl⟩ := mem_payslipsFor hp
  exact ⟨run,hrun,e,(List.mem_filter.mp he).1,id,now,rfl⟩

theorem Accounted.next {s : Store} (hs : Accounted s) (req : PayrollRequest) : Accounted (next s req) := by
  have ht := transition_next s req
  generalize Payroll.next s req = t at ht ⊢
  obtain ⟨hsrc,hclean⟩ := hs
  cases ht with
  | hired companyId dto id =>
    refine ⟨fun p hp => ?_,hclean⟩
    obtain ⟨r,hr,e,he,rest⟩ := hsrc p hp
    exact ⟨r,hr,e,List.mem_append_left _ he,rest⟩
  | opened companyId dto createdById id now =>
    constructor
    · intro p hp
      obtain ⟨r,hr,rest⟩ := hsrc p hp
      exact ⟨r,List.mem_append_left _ hr,rest⟩
    · intro r hr hst p hp
      rcases List.mem_append.mp hr with hr | hr
      · exact hclean r hr hst p hp
      · obtain rfl := List.mem_singleton.mp hr
        cases hst
  | computeKept h => exact ⟨hsrc,hclean⟩
  | computeMarked h hcut =>
    constructor
    · intro p hp
      exact (hsrc p hp).updateMany setProcessing (fun _ => rfl) (fun _ => rfl) rfl rfl rfl
    · intro r hr hst p hp
      exact hclean r (of_mem_setProcessing hr hst).1 hst p hp
  | @computeInserted companyId runId ids now cut run h k hk =>
    obtain ⟨hf,-,-⟩ := computable_eq_some.mp h
    constructor
    · intro p hp
      have hold : Sourced s p := by
        rcases List.mem_append.mp hp with hp | hp
        · exact hsrc p (Table.mem_deleteMany.mp hp).1
        · exact sourced_planned (List.mem_of_find?_eq_some hf) (List.mem_of_mem_take hp)
      exact hold.updateMany setProcessing (fun _ => rfl) (fun _ => rfl) rfl rfl rfl
    · intro r hr hst p hp
      obtain ⟨hr,hne⟩ := of_mem_setProcessing hr hst
      rw [payslipsOf_inserted hne] at hp
      exact hclean r hr hst p hp
  | finalizeKept h => exact ⟨hsrc,hclean⟩
  | @finalized companyId runId now run h =>
    obtain ⟨-,-,hb⟩ := finalizable_eq_some.mp h
    constructor
    · intro p hp
      exact (hsrc p hp).updateMany (setFinalized now) (fun _ => rfl) (fun _ => rfl) rfl rfl rfl
    · intro r hr hst p hp
      rcases Table.mem_updateMany_cases hr with ⟨hr,-⟩ | ⟨q,hq,hid,rfl⟩
      · exact hclean r hr hst p hp
      · have hid : q.id = run.id := by simpa using hid
        have hnb := List.filter_eq_nil_iff.mp hb p (by rw [← hid]; exact hp)
        simpa [blocking] using hnb

theorem Accounted.finalizedDeducted {s : Store} (hs : Accounted s) (hk : Keyed s) : FinalizedDeducted s := by
  intro r hr hst p hp
  have herr := hs.clean r hr hst p hp
  obtain ⟨hp,hpid⟩ := List.mem_filter.mp hp
  obtain ⟨q,hq,e,he,id,now,rfl⟩ := hs.sourced p hp
  have hqr : q.id = r.id := of_decide_eq_true hpid
  obtain rfl := Table.eq_of_key hk.payrollRuns hq hr hqr
  exact fullyDeducted_payslipFor he herr

/-- From a store without payslips, whatever is requested and wherever computations are
cut off, no deduction of a finalized run is a defaulted zero. -/
theorem finalized_runs_fully_deducted (s : Store) (requests : List PayrollRequest) (hs : Keyed s)
    (hp : s.payroll.payslips = []) (hf : Along next Fresh s requests) :
    Always next FinalizedDeducted s requests := by
  have hstart : Keyed s ∧ Accounted s := by
    refine ⟨hs,fun p h => ?_,fun r _ _ p h => ?_⟩
    · rw [hp] at h
      cases h
    · rw [payslipsOf,hp] at h
      cases h
  have hinv : Always next (fun t => Keyed t ∧ Accounted t) s requests :=
    always_of_step (fun t req ht hfresh => ⟨ht.1.next hfresh,ht.2.next req⟩) hstart hf
  exact hinv.mono fun t ht => ht.2.finalizedDeducted ht.1

/-- One employee with all numbers, one run, computed and finalized. -/
def oneEmployeeRun : List PayrollRequest :=
  [.createEmployee 1 (hire (some "34-1")) 10,.createPayrollRun 1 november 7 40 0,
    .computePayrollRun 1 40 (fun i => 100 + i) 500 none,.finalizePayrollRun 1 40 1000]

theorem finalized_runs_fully_deducted_oneEmployeeRun :
    Always next FinalizedDeducted statutoryStore oneEmployeeRun ∧
      (oneEmployeeRun.foldl next statutoryStore).payroll.payrollRuns.map PayrollRun.status = [.finalized] ∧
      (oneEmployeeRun.foldl next statutoryStore).payroll.payslips.map (fun p => p.sssContribution) =
        [⟨45000⟩] := by
  refine ⟨?_,by decide +kernel,by decide +kernel⟩
  exact finalized_runs_fully_deducted statutoryStore oneEmployeeRun ⟨by decide,by decide⟩ rfl (by decide +kernel)

end PinoyTax.Payroll
