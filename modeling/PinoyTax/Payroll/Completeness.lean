import PinoyTax.Payroll.Requests

/-! # Finalized runs and the computation behind them

A ledger on the side records, for each run, who was active when its latest
computation started and whether that computation reached its end. Finalizing looks at
the payslips that happen to exist, never at how they came about.
-/
namespace PinoyTax.Payroll
open PinoyTax Foundation Runs

structure LatestCompute where
  activeIds : List Uuid
  completed : Bool
deriving DecidableEq, Repr

structure Tracked where
  store : Store
  latest : Uuid → Option LatestCompute

/-- The computation that a request starts: one that passes the status check. -/
def startedCompute (s : Store) : PayrollRequest → Option (Uuid × LatestCompute)
  | .computePayrollRun companyId payrollRunId ids now cut =>
    (computable s companyId payrollRunId).map (fun run =>
      (run.id,⟨(activeEmployees s run.companyId).map Employee.id,
        (computePayrollRun companyId payrollRunId ids now).finishes cut s⟩))
  | _ => none

def track (t : Tracked) (req : PayrollRequest) : Tracked where
  store := next t.store req
  latest := match startedCompute t.store req with
    | some (runId,c) => Function.update t.latest runId (some c)
    | none => t.latest

/-- Exactly one payslip for each employee who was active when the latest computation started. -/
def CoversLatest (t : Tracked) (runId : Uuid) : Prop :=
  ∃ c, t.latest runId = some c ∧
    ∀ id ∈ c.activeIds, (payslipsOf t.store runId).countP (fun p => p.employeeId = id) = 1

def FinalizedCovered (t : Tracked) : Prop :=
  ∀ r ∈ t.store.payroll.payrollRuns, r.status = .finalized → CoversLatest t r.id

/-- The latest computation of the run reached its end. -/
def Complete (t : Tracked) (runId : Uuid) : Prop := (t.latest runId).any LatestCompute.completed = true

instance (t : Tracked) (runId : Uuid) : Decidable (Complete t runId) :=
  inferInstanceAs (Decidable ((t.latest runId).any LatestCompute.completed = true))

/-- A finalization that goes through is of a run whose latest computation reached its end. -/
def FinalizesComplete (t : Tracked) : PayrollRequest → Prop
  | .finalizePayrollRun companyId payrollRunId _ =>
    ∀ run ∈ finalizable t.store companyId payrollRunId, Complete t run.id
  | _ => True

instance (t : Tracked) : (req : PayrollRequest) → Decidable (FinalizesComplete t req)
  | .finalizePayrollRun companyId payrollRunId _ =>
    inferInstanceAs (Decidable (∀ run ∈ finalizable t.store companyId payrollRunId, Complete t run.id))
  | .createEmployee .. => .isTrue trivial
  | .createPayrollRun .. => .isTrue trivial
  | .computePayrollRun .. => .isTrue trivial

/-! ## The invariant -/

structure Followed (t : Tracked) : Prop where
  keyed : Keyed t.store
  completed : ∀ runId c, t.latest runId = some c → c.completed = true →
    (payslipsOf t.store runId).map Payslip.employeeId = c.activeIds ∧ c.activeIds.Nodup
  finalized : ∀ r ∈ t.store.payroll.payrollRuns, r.status = .finalized → Complete t r.id

theorem countP_employeeId_of_nodup {ps : List Payslip} (h : (ps.map Payslip.employeeId).Nodup) {id : Uuid}
    (hid : id ∈ ps.map Payslip.employeeId) : ps.countP (fun p => p.employeeId = id) = 1 := by
  have hcount := List.count_eq_one_of_mem h hid
  rw [List.count,List.countP_map] at hcount
  rw [← hcount]
  apply List.countP_congr
  intro p _
  simp

theorem Followed.finalizedCovered {t : Tracked} (h : Followed t) : FinalizedCovered t := by
  intro r hr hst
  obtain ⟨c,hc,hdone⟩ := (Option.any_eq_true _ _).mp (h.finalized r hr hst)
  obtain ⟨hids,hn⟩ := h.completed r.id c hc hdone
  refine ⟨c,hc,fun id hid => ?_⟩
  rw [← hids] at hid hn
  exact countP_employeeId_of_nodup hn hid

theorem startedCompute_of_computable {s : Store} {companyId runId : Uuid} {run : PayrollRun}
    (h : computable s companyId runId = some run) (ids : ℕ → Uuid) (now : DateTime) (cut : Option ℕ) :
    startedCompute s (.computePayrollRun companyId runId ids now cut) =
      some (run.id,⟨(activeEmployees s run.companyId).map Employee.id,
        (computePayrollRun companyId runId ids now).finishes cut s⟩) := by
  simp [startedCompute,h]

/-- A request that starts no computation leaves the ledger alone. -/
theorem track_latest_of_none {t : Tracked} {req : PayrollRequest} (h : startedCompute t.store req = none) :
    (track t req).latest = t.latest := by
  simp [track,h]

theorem track_latest_of_some {t : Tracked} {req : PayrollRequest} {runId : Uuid} {c : LatestCompute}
    (h : startedCompute t.store req = some (runId,c)) :
    (track t req).latest = Function.update t.latest runId (some c) := by
  simp [track,h]

/-- A finalized run has a status that no computation passes. -/
theorem ne_of_computable {s : Store} (hs : Keyed s) {companyId runId : Uuid} {run r : PayrollRun}
    (h : computable s companyId runId = some run) (hr : r ∈ s.payroll.payrollRuns) (hst : r.status = .finalized) :
    r.id ≠ run.id := by
  obtain ⟨hf,-,hn⟩ := computable_eq_some.mp h
  exact ne_of_not_immutable hs hr (by simp [immutable,hst]) (List.mem_of_find?_eq_some hf) hn

/-- The ledger entry of one run is replaced, and only that run may have changed. -/
theorem Followed.update {s u : Store} {latest : Uuid → Option LatestCompute} {runId : Uuid} {c : LatestCompute}
    (ht : Followed ⟨s,latest⟩) (hk : Keyed u)
    (hothers : ∀ other, other ≠ runId → payslipsOf u other = payslipsOf s other)
    (hruns : ∀ r ∈ u.payroll.payrollRuns, r.status = .finalized → r ∈ s.payroll.payrollRuns ∧ r.id ≠ runId)
    (hself : c.completed = true →
      (payslipsOf u runId).map Payslip.employeeId = c.activeIds ∧ c.activeIds.Nodup) :
    Followed ⟨u,Function.update latest runId (some c)⟩ := by
  refine ⟨hk,?_,?_⟩
  · intro other d hd hdone
    by_cases ho : other = runId
    · subst ho
      obtain rfl : c = d := by simpa using hd
      exact hself hdone
    · have hd' : latest other = some d := by simpa [Function.update_of_ne ho] using hd
      obtain ⟨hids,hn⟩ := ht.completed other d hd' hdone
      refine ⟨?_,hn⟩
      rw [← hids,hothers other ho]
  · intro r hr hst
    obtain ⟨hr,hne⟩ := hruns r hr hst
    have hold := ht.finalized r hr hst
    simpa [Complete,Function.update_of_ne hne] using hold

theorem Followed.track {t : Tracked} {req : PayrollRequest} (ht : Followed t) (hf : Fresh t.store req)
    (hc : FinalizesComplete t req) : Followed (track t req) := by
  obtain ⟨s,latest⟩ := t
  have hk : Keyed (next s req) := ht.keyed.next hf
  have htr := transition_next s req
  change Followed ⟨next s req,(Payroll.track ⟨s,latest⟩ req).latest⟩
  generalize next s req = u at hk htr ⊢
  cases htr with
  | hired companyId dto id => exact ⟨hk,ht.completed,ht.finalized⟩
  | opened companyId dto createdById id now =>
    refine ⟨hk,ht.completed,fun r hr hst => ?_⟩
    rcases List.mem_append.mp hr with hr | hr
    · exact ht.finalized r hr hst
    · obtain rfl := List.mem_singleton.mp hr
      cases hst
  | @computeKept companyId runId ids now cut h =>
    cases hrun : computable s companyId runId with
    | none =>
      rw [track_latest_of_none (by simp [startedCompute,hrun])]
      exact ht
    | some run =>
      rw [track_latest_of_some (startedCompute_of_computable hrun ids now cut)]
      apply ht.update hk (fun _ _ => rfl) (fun r hr hst => ⟨hr,ne_of_computable ht.keyed hrun hr hst⟩)
      intro hdone
      rw [hrun] at h
      rcases h with h | h
      · cases h
      · rw [h] at hdone
        cases hdone
  | @computeMarked companyId runId ids now cut run h hcut =>
    rw [track_latest_of_some (startedCompute_of_computable h ids now cut)]
    apply ht.update hk (fun _ _ => rfl) (fun r hr hst => of_mem_setProcessing hr hst)
    intro hdone
    rw [hcut] at hdone
    cases hdone
  | @computeInserted companyId runId ids now cut run h k hcut =>
    rw [track_latest_of_some (startedCompute_of_computable h ids now cut)]
    apply ht.update hk (fun other ho => payslipsOf_inserted ho k) (fun r hr hst => of_mem_setProcessing hr hst)
    intro hdone
    refine ⟨?_,nodup_activeEmployees ht.keyed run.companyId⟩
    rw [payslipsOf_inserted_self,hcut hdone,List.take_length,map_employeeId_planned]
  | finalizeKept h => exact ⟨hk,ht.completed,ht.finalized⟩
  | @finalized companyId runId now run h =>
    refine ⟨hk,ht.completed,fun r hr hst => ?_⟩
    rcases Table.mem_updateMany_cases hr with ⟨hr,-⟩ | ⟨q,hq,hid,rfl⟩
    · exact ht.finalized r hr hst
    · have hid : q.id = run.id := of_decide_eq_true hid
      have hrun : Complete ⟨s,latest⟩ run.id := hc run h
      rwa [← hid] at hrun

/-- In every run in which finalizations only go through after a computation that
reached its end, every finalized run covers the employees of its latest computation. -/
theorem finalized_runs_cover_latest (s : Store) (requests : List PayrollRequest) (hs : Keyed s)
    (hopen : ∀ r ∈ s.payroll.payrollRuns, r.status ≠ .finalized)
    (hf : Along track (fun t req => Fresh t.store req) ⟨s,fun _ => none⟩ requests)
    (hc : Along track FinalizesComplete ⟨s,fun _ => none⟩ requests) :
    Always track FinalizedCovered ⟨s,fun _ => none⟩ requests := by
  have hstart : Followed ⟨s,fun _ => none⟩ := by
    refine ⟨hs,fun runId c h => ?_,fun r hr hst => absurd hst (hopen r hr)⟩
    cases h
  have hinv : Always track Followed ⟨s,fun _ => none⟩ requests :=
    always_of_step (fun t req ht h => ht.track h.1 h.2) hstart (hf.and hc)
  exact hinv.mono fun t ht => ht.finalizedCovered

theorem finalized_runs_cover_latest_computed :
    Always track FinalizedCovered ⟨statutoryStore,fun _ => none⟩
      [.createEmployee 1 (hire (some "34-1")) 10,.createPayrollRun 1 november 7 40 0,
        .computePayrollRun 1 40 (fun i => 100 + i) 500 none,.finalizePayrollRun 1 40 1000] :=
  finalized_runs_cover_latest statutoryStore _ ⟨by decide,by decide⟩ (by decide) (by decide +kernel) (by decide +kernel)

/-- The computation is cut off between its deletion and its first insertion, and the
empty run is finalized. -/
def cutThenFinalized : List PayrollRequest :=
  [.createEmployee 1 (hire none) 10,.createPayrollRun 1 november 7 40 0,
    .computePayrollRun 1 40 (fun i => 100 + i) 500 (some 4),.finalizePayrollRun 1 40 1000]

theorem cutThenFinalized_not_covered :
    Keyed {} ∧ Along track (fun t req => Fresh t.store req) ⟨{},fun _ => none⟩ cutThenFinalized ∧
      ¬ Always track FinalizedCovered ⟨{},fun _ => none⟩ cutThenFinalized := by
  refine ⟨⟨by decide,by decide⟩,by decide +kernel,?_⟩
  intro h
  have hrun := h.last ⟨40,1,20758 * msPerDay,20787 * msPerDay,.finalized,some 7,some 1000,0⟩ (by decide +kernel) rfl
  obtain ⟨c,hc,hids⟩ := hrun
  have hc' : (cutThenFinalized.foldl track ⟨{},fun _ => none⟩).latest 40 = some ⟨[10],false⟩ := by decide +kernel
  rw [hc'] at hc
  cases hc
  exact absurd (hids 10 (by decide)) (by decide +kernel)

end PinoyTax.Payroll
