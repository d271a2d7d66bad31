import PinoyTax.Payroll.Requests

/-! # What a failed computation leaves

The writes of a computation stand one by one: the status first, then the deletion of
the old payslips, then one insertion after another. Which of them a rejected call
leaves behind is read off its place in the sequence of statements.
-/
namespace PinoyTax.Payroll
open PinoyTax Foundation TaxEngine

/-! ## Where the insertions stand -/

/-- The engine calls for one employee. -/
def callsFor (e : Employee) : ℕ := [e.sssNumber,e.philhealthNumber,e.pagibigNumber].countP present + 1

section
variable (run : PayrollRun) (now : DateTime)

/-- The four engine calls of an employee, before the insertion. -/
def amounts (e : Employee) : Request ((ℚ × List String) × (ℚ × List String) × (ℚ × List String) × (ℚ × List String)) := do
  let basicPay := e.basicSalary.toNumber
  let sss ← contribution e.sssNumber "missing_sss_number" "SSS_EMPLOYEE_CONTRIBUTION_RATE" basicPay run.periodEnd
  let philhealth ← contribution e.philhealthNumber "missing_philhealth_number"
    "PHILHEALTH_EMPLOYEE_CONTRIBUTION_RATE" basicPay run.periodEnd
  let pagibig ← contribution e.pagibigNumber "missing_pagibig_number"
    "PAGIBIG_EMPLOYEE_CONTRIBUTION_RATE" basicPay run.periodEnd
  let withholding ← engineAmount "WITHHOLDING_COMP_BRACKETS" basicPay run.periodEnd
  pure (sss,philhealth,pagibig,withholding)

theorem computePayslip_eq (id : Uuid) (e : Employee) : computePayslip run now id e = amounts run e >>= fun a =>
    Prisma.payslip.create (payslipRow run e id now a.1 a.2.1 a.2.2.1 a.2.2.2) := by
  simp only [computePayslip,amounts,Prog.bind_assoc,Prog.pure_def,Prog.done_ok_bind]

theorem length_contribution (number : Option String) (missing ruleCode : String) (basicPay : ℚ) (asOf : DateTime)
    (s : Store) : (contribution number missing ruleCode basicPay asOf).length s = if present number then 1 else 0 := by
  unfold contribution
  split <;> rfl

theorem length_amounts (e : Employee) (s : Store) : (amounts run e).length s = callsFor e := by
  unfold amounts
  rw [Prog.length_bind (run_contribution ..),Prog.length_bind (run_contribution ..),
    Prog.length_bind (run_contribution ..),length_contribution,length_contribution,length_contribution]
  change _ + (_ + (_ + 1)) = _
  simp only [callsFor,List.countP_cons,List.countP_nil]
  omega

theorem keeps_amounts {τ : Type} (g : Store → τ) (e : Employee) : (amounts run e).Keeps g := by
  apply Prog.Guarantees.bind (keeps_contribution ..)
  intro sss
  apply Prog.Guarantees.bind (keeps_contribution ..)
  intro philhealth
  apply Prog.Guarantees.bind (keeps_contribution ..)
  intro pagibig
  exact Prog.Guarantees.bind (fun _ => ⟨rfl,trivial⟩) fun withholding => trivial

theorem length_computePayslip (id : Uuid) (e : Employee) (s : Store) :
    (computePayslip run now id e).length s = callsFor e + 1 := by
  have hrun : ∃ a t, (amounts run e).run s = (.ok a,t) := by
    unfold amounts
    simp
  obtain ⟨a,t,hrun⟩ := hrun
  rw [computePayslip_eq,Prog.length_bind hrun,length_amounts]
  rfl

/-- Up to its insertion an employee's part of the loop changes nothing. -/
theorem runFor_computePayslip (id : Uuid) (e : Employee) (s : Store) {n : ℕ} (h : n ≤ callsFor e) :
    (Prog.runFor n (computePayslip run now id e) s).2 = s := by
  rw [computePayslip_eq,Prog.runFor_bind_of_le _ (h.trans_eq (length_amounts run e s).symm)]
  exact ((keeps_amounts run (fun t => t) e).within s).leaves (some n)

theorem runFor_computePayslips_of_le (ids : ℕ → Uuid) (e : Employee) (es : List Employee) (s : Store) {n : ℕ}
    (h : n ≤ callsFor e) : (Prog.runFor n (computePayslips run now ids (e :: es)) s).2 = s := by
  have hlt : n < (computePayslip run now (ids 0) e).length s := by
    rw [length_computePayslip]
    omega
  rw [computePayslips,Prog.runFor_bind_of_lt _ hlt]
  exact runFor_computePayslip run now (ids 0) e s h

/-- After its insertion the first new payslip is there, with the first few after it. -/
theorem runFor_computePayslips_of_lt (ids : ℕ → Uuid) (e : Employee) (es : List Employee) (s : Store) {n : ℕ}
    (h : callsFor e < n) :
    ∃ k, (Prog.runFor n (computePayslips run now ids (e :: es)) s).2 =
      addPayslips s ((payslipsFor s.taxEngine.taxRules run now ids (e :: es)).take (k + 1)) := by
  let first := payslipFor s.taxEngine.taxRules run now (ids 0) e
  let rest := payslipsFor s.taxEngine.taxRules run now (fun i => ids (i + 1)) es
  obtain ⟨m,rfl⟩ := Nat.exists_eq_add_of_lt h
  have hstart : (computePayslip run now (ids 0) e).length s + m = callsFor e + m + 1 := by
    rw [length_computePayslip]
    omega
  rw [computePayslips,← hstart,Prog.runFor_bind_add (run_computePayslip run now (ids 0) e s)]
  have hway : (computePayslips run now (fun i => ids (i + 1)) es >>= fun results => pure (first :: results)).Within
      (fun t => ∃ k, t = addPayslips s ((first :: rest).take (k + 1))) (addPayslips s [first]) := by
    refine Prog.Within.bind (within_computePayslips run now _ es fun k => ⟨k,?_⟩) fun ps _ => ⟨rest.length,?_⟩
    · rw [List.take_succ_cons,addPayslips_cons]
      rfl
    · rw [List.take_succ_cons,List.take_length,run_computePayslips,addPayslips_cons]
      rfl
  exact hway.leaves (some m)

end

/-! ## The whole request -/

section
variable {s : Store} {companyId runId : Uuid} {run : PayrollRun} {ids : ℕ → Uuid} {now : DateTime}

/-- A computation of this run that is cut off after `n` statements: before the status
update, before the deletion, or on its way through the employees of a cleared run. -/
theorem runFor_computePayrollRun (h : computable s companyId runId = some run) (n : ℕ) :
    Prog.runFor n (computePayrollRun companyId runId ids now) s =
      if n ≤ 1 then (none,s)
      else if n ≤ 3 then (none,markProcessing run.id s)
      else Prog.runFor (n - 4) (computePayslips run now ids (activeEmployees s run.companyId)) (cleared run.id s) := by
  obtain ⟨hf,rfl,hi⟩ := computable_eq_some.mp h
  have hid : run.id = runId := (Table.find?_key_some hf).2
  have hu : (Prisma.payrollRun.get s).find? (fun r => r.id = run.id) = some run := by rw [hid]; exact hf
  have hlength : (Prisma.payrollRun.update (fun r => r.id = run.id) setProcessing).length s = 1 := by
    rw [TableRef.update_eq]
    rfl
  cases n with
  | zero => rfl
  | succ n =>
    change Prog.runFor n (ownedBy _ _ _ (s.payroll.payrollRuns.find? (fun r => r.id = runId)) >>= _) s = _
    simp only [hf,ownedBy,if_true,Prog.done_ok_bind,hi,Bool.false_eq_true,if_false]
    cases n with
    | zero => rfl
    | succ n =>
      rw [Nat.add_comm n 1,← hlength,Prog.runFor_bind_add (TableRef.run_update_of_find hu),hlength]
      cases n with
      | zero => rfl
      | succ n =>
        cases n with
        | zero => rfl
        | succ n =>
          have hrest : 1 + (n + 2) + 1 - 4 = n := by omega
          rw [if_neg (by omega),if_neg (by omega),hrest]
          rfl

/-- The rejected call leaves no trace: it comes before the status update; or the run was
marked already, and it comes before the deletion, or nothing was there to delete and
nothing is inserted yet. -/
def Traceless (s : Store) (run : PayrollRun) (n : ℕ) : Prop :=
  n ≤ 1 ∨ run.status = .processing ∧
    (n ≤ 3 ∨ payslipsOf s run.id = [] ∧ ∀ e ∈ (activeEmployees s run.companyId).head?, n ≤ 4 + callsFor e)

instance (s : Store) (run : PayrollRun) (n : ℕ) : Decidable (Traceless s run n) := by
  unfold Traceless
  infer_instance

/-- The status of the run and the set of its payslips. -/
structure SameRun (runId : Uuid) (s t : Store) : Prop where
  status : (t.payroll.payrollRuns.find? (fun r => r.id = runId)).map PayrollRun.status =
    (s.payroll.payrollRuns.find? (fun r => r.id = runId)).map PayrollRun.status
  payslips : ∀ p, p ∈ payslipsOf t runId ↔ p ∈ payslipsOf s runId

theorem SameRun.refl (runId : Uuid) (s : Store) : SameRun runId s s := ⟨rfl,fun _ => Iff.rfl⟩

/-- A marked run keeps its status when it was marked before. -/
theorem status_marked_iff (hf : s.payroll.payrollRuns.find? (fun r => r.id = run.id) = some run) :
    ((Table.updateMany (fun r => r.id = run.id) setProcessing s.payroll.payrollRuns).find?
        (fun r => r.id = run.id)).map PayrollRun.status =
      (s.payroll.payrollRuns.find? (fun r => r.id = run.id)).map PayrollRun.status ↔ run.status = .processing := by
  have hfind := Table.find?_updateMany (p := fun r => decide (r.id = run.id)) (q := fun r => decide (r.id = run.id))
    (f := setProcessing) (fun _ => rfl) s.payroll.payrollRuns
  rw [hfind,hf]
  simp [setProcessing,eq_comm]

theorem sameRun_marked_iff (hf : s.payroll.payrollRuns.find? (fun r => r.id = run.id) = some run) :
    SameRun run.id s (markProcessing run.id s) ↔ run.status = .processing :=
  ⟨fun h => (status_marked_iff hf).mp h.status,fun h => ⟨(status_marked_iff hf).mpr h,fun _ => Iff.rfl⟩⟩

theorem sameRun_cleared_iff (hf : s.payroll.payrollRuns.find? (fun r => r.id = run.id) = some run) :
    SameRun run.id s (cleared run.id s) ↔ run.status = .processing ∧ payslipsOf s run.id = [] := by
  have hnone : payslipsOf (cleared run.id s) run.id = [] := Table.filter_deleteMany_self _ _
  constructor
  · intro h
    refine ⟨(status_marked_iff hf).mp h.status,List.eq_nil_iff_forall_not_mem.mpr fun p hp => ?_⟩
    have hp' := (h.payslips p).mpr hp
    rw [hnone] at hp'
    cases hp'
  · rintro ⟨hstatus,hnil⟩
    exact ⟨(status_marked_iff hf).mpr hstatus,fun p => by rw [hnone,hnil]⟩

/-- A payslip that was inserted has an id of its own. -/
theorem not_sameRun_inserted (hids : ∀ i, ids i ∉ s.payroll.payslips.map Payslip.id) {e : Employee}
    {es : List Employee} (hstaff : activeEmployees s run.companyId = e :: es) (k : ℕ) :
    ¬ SameRun run.id s (addPayslips (cleared run.id s) ((planned s run ids now).take (k + 1))) := by
  intro h
  have hfirst : payslipFor s.taxEngine.taxRules run now (ids 0) e ∈ (planned s run ids now).take (k + 1) := by
    rw [planned,hstaff,payslipsFor,List.take_succ_cons]
    exact List.mem_cons_self
  rw [← payslipsOf_inserted_self] at hfirst
  have hold := (h.payslips _).mp hfirst
  exact hids 0 (List.mem_map_of_mem (List.mem_filter.mp hold).1)

/-- What a rejection among the calls of the employees leaves of the run. -/
theorem sameRun_inserting_iff (hf : s.payroll.payrollRuns.find? (fun r => r.id = run.id) = some run)
    (hids : ∀ i, ids i ∉ s.payroll.payslips.map Payslip.id) {n : ℕ}
    (hn : (Prog.runFor n (computePayslips run now ids (activeEmployees s run.companyId)) (cleared run.id s)).1 = none) :
    SameRun run.id s
        (Prog.runFor n (computePayslips run now ids (activeEmployees s run.companyId)) (cleared run.id s)).2 ↔
      run.status = .processing ∧ payslipsOf s run.id = [] ∧
        ∀ e ∈ (activeEmployees s run.companyId).head?, n ≤ callsFor e := by
  cases hstaff : activeEmployees s run.companyId with
  | nil =>
    rw [hstaff,computePayslips,Prog.pure_def,Prog.runFor_done] at hn
    cases hn
  | cons e es =>
    simp only [List.head?_cons,Option.mem_def,Option.some.injEq,forall_eq']
    rcases Nat.lt_or_ge (callsFor e) n with hlt | hle
    · obtain ⟨k,hk⟩ := runFor_computePayslips_of_lt run now ids e es (cleared run.id s) hlt
      have hplanned : payslipsFor (cleared run.id s).taxEngine.taxRules run now ids (e :: es) = planned s run ids now := by
        rw [planned,hstaff]
        rfl
      rw [hk,hplanned]
      exact iff_of_false (not_sameRun_inserted hids hstaff k) fun h => absurd h.2.2 (Nat.not_le.mpr hlt)
    · rw [runFor_computePayslips_of_le run now ids e es _ hle,sameRun_cleared_iff hf]
      simp only [hle,and_true]

/-- What the rejection of one statement leaves of the run. -/
theorem sameRun_runFor_iff (h : computable s companyId runId = some run)
    (hids : ∀ i, ids i ∉ s.payroll.payslips.map Payslip.id) {n : ℕ}
    (hn : (Prog.runFor n (computePayrollRun companyId runId ids now) s).1 = none) :
    SameRun run.id s (Prog.runFor n (computePayrollRun companyId runId ids now) s).2 ↔ Traceless s run n := by
  obtain ⟨hf,hc,-⟩ := computable_eq_some.mp h
  have hid : run.id = runId := (Table.find?_key_some hf).2
  rw [← hid] at hf
  rw [runFor_computePayrollRun h] at hn ⊢
  rw [Traceless]
  rcases Nat.lt_or_ge 1 n with h1 | h1
  · rw [if_neg (by omega)] at hn ⊢
    rcases Nat.lt_or_ge 3 n with h3 | h3
    · rw [if_neg (by omega)] at hn ⊢
      rw [sameRun_inserting_iff hf hids hn]
      simp only [Nat.sub_le_iff_le_add']
      constructor
      · rintro ⟨hstatus,hnil,hfirst⟩
        exact .inr ⟨hstatus,.inr ⟨hnil,hfirst⟩⟩
      · rintro (hbad | ⟨hstatus,hbad | ⟨hnil,hfirst⟩⟩)
        · omega
        · omega
        · exact ⟨hstatus,hnil,hfirst⟩
    · rw [if_pos h3,sameRun_marked_iff hf]
      constructor
      · exact fun hstatus => .inr ⟨hstatus,.inl h3⟩
      · rintro (hbad | ⟨hstatus,-⟩)
        · omega
        · exact hstatus
  · rw [if_pos h1]
    exact iff_of_true (SameRun.refl _ s) (.inl h1)

end

/-- A failed computation leaves status and payslips of the run as they were exactly when
the rejected call comes where it leaves no trace. -/
theorem failure_keeps_run_iff {s : Store} {companyId runId : Uuid} {ids : ℕ → Uuid} {now : DateTime} (e : ApiException)
    (n : ℕ) (hids : ∀ i, ids i ∉ s.payroll.payslips.map Payslip.id) {reason : ApiException}
    (hfail : (((computePayrollRun companyId runId ids now).failAt e n).run s).1 = .error reason) :
    SameRun runId s (((computePayrollRun companyId runId ids now).failAt e n).run s).2 ↔
      ∀ run ∈ computable s companyId runId, Traceless s run n := by
  rw [Prog.run_failAt] at hfail ⊢
  cases hc : computable s companyId runId with
  | none =>
    have hsame : (Prog.runFor n (computePayrollRun companyId runId ids now) s).2 = s :=
      (within_computePayrollRun (P := fun t => t = s) rfl (by simp [hc])).leaves (some n)
    rw [hsame]
    exact iff_of_true (SameRun.refl runId s) (by simp)
  | some run =>
    have hid : run.id = runId := (Table.find?_key_some (computable_eq_some.mp hc).1).2
    have hcut : (Prog.runFor n (computePayrollRun companyId runId ids now) s).1 = none := by
      by_contra hsome
      rw [Prog.runFor_of_isSome n _ s (Option.isSome_iff_ne_none.mpr hsome),computePayrollRun_of_computable hc] at hfail
      cases hfail
    simp only [Option.mem_def,Option.some.injEq,forall_eq']
    rw [← hid] at hc hcut ⊢
    exact sameRun_runFor_iff hc hids hcut

/-- The first engine call for the employee of run 40 is rejected; the run was marked by
an earlier computation that got no further. -/
theorem failure_keeps_run_iff_firstCall :
    SameRun 40 (markProcessing 40 (staffedStore none))
        (((computePayrollRun 1 40 (fun i => 80 + i) 4).failAt .database 4).run (markProcessing 40 (staffedStore none))).2 ↔
      ∀ run ∈ computable (markProcessing 40 (staffedStore none)) 1 40,
        Traceless (markProcessing 40 (staffedStore none)) run 4 := by
  have hnone : (markProcessing 40 (staffedStore none)).payroll.payslips = [] := by decide +kernel
  have hfail : (((computePayrollRun 1 40 (fun i => 80 + i) 4).failAt .database 4).run
      (markProcessing 40 (staffedStore none))).1 = Except.error ApiException.database := by decide +kernel
  exact failure_keeps_run_iff .database 4 (by simp [hnone]) hfail

/-- Run 40 with the payslip of its first computation. -/
def computedOnce : Store := next (staffedStore (some "34-1")) (.computePayrollRun 1 40 (fun i => 60 + i) 3 none)

/-- A second computation whose insertion is rejected has removed the payslip of the first. -/
theorem secondComputation_drops_payslip :
    (payslipsOf computedOnce 40).map Payslip.id = [60] ∧
      (∀ i, 80 + i ∉ computedOnce.payroll.payslips.map Payslip.id) ∧
      (((computePayrollRun 1 40 (fun i => 80 + i) 4).failAt .database 8).run computedOnce).1 = .error .database ∧
      payslipsOf (((computePayrollRun 1 40 (fun i => 80 + i) 4).failAt .database 8).run computedOnce).2 40 = [] ∧
      ¬ SameRun 40 computedOnce
        (((computePayrollRun 1 40 (fun i => 80 + i) 4).failAt .database 8).run computedOnce).2 := by
  have hids : (payslipsOf computedOnce 40).map Payslip.id = [60] := by decide +kernel
  have hall : computedOnce.payroll.payslips.map Payslip.id = [60] := by decide +kernel
  have hgone : payslipsOf (((computePayrollRun 1 40 (fun i => 80 + i) 4).failAt .database 8).run computedOnce).2 40 = [] := by
    decide +kernel
  refine ⟨hids,?_,by decide +kernel,hgone,?_⟩
  · intro i
    rw [hall,List.mem_singleton]
    exact Nat.ne_of_gt (Nat.lt_add_right i (by decide))
  · intro hsame
    have hempty : payslipsOf computedOnce 40 = [] :=
      List.eq_nil_iff_forall_not_mem.mpr fun p hp => by
        have hp' := (hsame.payslips p).mpr hp
        rw [hgone] at hp'
        cases hp'
    rw [hempty] at hids
    cases hids

end PinoyTax.Payroll
