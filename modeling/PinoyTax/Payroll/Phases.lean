import PinoyTax.Foundation.Interleaving
import PinoyTax.Payroll.Requests

/-! # The phases of computing and finalizing one run

Between two of its statements a computation or a finalization is in one of a few
phases, and `Phase.Step` says what the next statement does in each. The programs of
the service follow this machine, so that interleavings are studied on phases.
-/
namespace PinoyTax.Payroll
open PinoyTax Foundation TaxEngine

/-- A clearing or inserting computation carries the employees it has yet to insert. -/
inductive Phase
  | checking (companyId : Uuid)
  | marking (companyId : Uuid)
  | listing (companyId : Uuid)
  | clearing (employeeIds : List Uuid)
  | inserting (employeeIds : List Uuid)
  | reading (companyId : Uuid)
  | updating
  | publishing
  | returned
deriving DecidableEq, Repr

def markFinalized (runId : Uuid) (now : DateTime) (s : Store) : Store :=
  { s with
    payroll.payrollRuns := Table.updateMany (fun r => r.id = runId) (setFinalized now) s.payroll.payrollRuns }

def findRun (s : Store) (runId : Uuid) : Option PayrollRun :=
  s.payroll.payrollRuns.find? (fun r => r.id = runId)

theorem findRun_updateMany {s t : Store} {runId : Uuid} (f : PayrollRun → PayrollRun)
    (hid : ∀ r, (f r).id = r.id)
    (ht : t.payroll.payrollRuns = Table.updateMany (fun r => r.id = runId) f s.payroll.payrollRuns) :
    findRun t runId = (findRun s runId).map f := by
  rw [findRun,ht,Table.find?_updateMany (fun r => by rw [hid])]
  cases h : s.payroll.payrollRuns.find? (fun r => r.id = runId) with
  | none => simp [findRun,h]
  | some r => simp [findRun,h,(Table.find?_key_some h).2]

namespace Phase

inductive Step (runId : Uuid) : Phase → Store → Label → Phase → Store → Prop
  | refused {c : Uuid} {s : Store} (h : computable s c runId = none) :
      Step runId (.checking c) s (.on .payrollRun .findUnique) .returned s
  | accepted {c : Uuid} {s : Store} {run : PayrollRun} (h : computable s c runId = some run) :
      Step runId (.checking c) s (.on .payrollRun .findUnique) (.marking c) s
  | marked {c : Uuid} {s : Store} (h : findRun s runId ≠ none) :
      Step runId (.marking c) s (.on .payrollRun .update) (.listing c) (markProcessing runId s)
  | markFailed {c : Uuid} {s : Store} (h : findRun s runId = none) :
      Step runId (.marking c) s (.on .payrollRun .update) .returned (markProcessing runId s)
  | listed {c : Uuid} {s : Store} :
      Step runId (.listing c) s (.on .employee .findMany)
        (.clearing ((activeEmployees s c).map Employee.id)) s
  | cleared {es : List Uuid} {s : Store} :
      Step runId (.clearing es) s (.on .payslip .deleteMany) (.inserting es) (clearPayslips runId s)
  | read {e : Uuid} {es : List Uuid} {s : Store} :
      Step runId (.inserting (e :: es)) s (.on .taxRule .findFirst) (.inserting (e :: es)) s
  | inserted {e : Uuid} {es : List Uuid} {s : Store} {p : Payslip} (hrun : p.payrollRunId = runId)
      (he : p.employeeId = e) :
      Step runId (.inserting (e :: es)) s (.on .payslip .create) (.inserting es) (addPayslips s [p])
  | finalizeRefused {c : Uuid} {s : Store} (h : finalizable s c runId = none) :
      Step runId (.reading c) s (.on .payrollRun .findUnique) .returned s
  | finalizePassed {c : Uuid} {s : Store} {run : PayrollRun} (h : finalizable s c runId = some run) :
      Step runId (.reading c) s (.on .payrollRun .findUnique) .updating s
  | finalized {s : Store} {now : DateTime} (h : findRun s runId ≠ none) :
      Step runId .updating s (.on .payrollRun .update) .publishing (markFinalized runId now s)
  | updateFailed {s : Store} {now : DateTime} (h : findRun s runId = none) :
      Step runId .updating s (.on .payrollRun .update) .returned (markFinalized runId now s)
  | announced {s : Store} {event : DomainEvent} :
      Step runId .publishing s .publish .returned { s with published := s.published ++ [event] }

/-- The phases in which a request has returned. -/
def Terminal (φ : Phase) : Prop := φ = .returned ∨ φ = .inserting []

/-- A part of a request that ends without an error, in the phase given. -/
def Reaches {α : Type} (φ₀ : Phase) : Except ApiException α → Phase → Prop
  | .ok _, φ => φ = φ₀
  | .error _, _ => False

end Phase

open Phase

abbrev FollowsPhases {α : Type} (runId : Uuid) (Post : Except ApiException α → Phase → Prop) (p : Request α)
    (φ : Phase) : Prop := Prog.Follows (Phase.Step runId) Post p φ

/-! ## Computing -/

section Compute
variable {runId e : Uuid} {es : List Uuid}

theorem follows_engineAmount (ruleCode : String) (basicPay : ℚ) (asOf : DateTime) :
    FollowsPhases runId (Reaches (.inserting (e :: es))) (engineAmount ruleCode basicPay asOf)
      (.inserting (e :: es)) := by
  intro s
  exact ⟨_,.read,rfl⟩

theorem follows_contribution (number : Option String) (missing ruleCode : String) (basicPay : ℚ)
    (asOf : DateTime) :
    FollowsPhases runId (Reaches (.inserting (e :: es))) (contribution number missing ruleCode basicPay asOf)
      (.inserting (e :: es)) := by
  unfold contribution
  split
  · exact follows_engineAmount ruleCode basicPay asOf
  · rfl

/-- A part that stays in its phase, followed by the rest. -/
theorem follows_bind_reaches {α β : Type} {φ₀ φ : Phase} {p : Request α} {f : α → Request β}
    {Q : Except ApiException β → Phase → Prop} (hp : FollowsPhases runId (Reaches φ₀) p φ)
    (hf : ∀ a, FollowsPhases runId Q (f a) φ₀) : FollowsPhases runId Q (p >>= f) φ := by
  refine Prog.Follows.bind hp ?_ ?_
  · rintro a φ' rfl
    exact hf a
  · intro err φ' herr
    exact herr.elim

theorem follows_computePayslip {run : PayrollRun} (hrun : run.id = runId) (now : DateTime) (id : Uuid)
    (employee : Employee) (es : List Uuid) :
    FollowsPhases runId (Reaches (.inserting es)) (computePayslip run now id employee)
      (.inserting (employee.id :: es)) := by
  unfold computePayslip
  apply follows_bind_reaches (follows_contribution ..)
  intro sss
  apply follows_bind_reaches (follows_contribution ..)
  intro philhealth
  apply follows_bind_reaches (follows_contribution ..)
  intro pagibig
  apply follows_bind_reaches (follows_engineAmount _ _ _)
  intro withholding s
  exact ⟨_,.inserted hrun rfl,rfl⟩

theorem follows_computePayslips {run : PayrollRun} (hrun : run.id = runId) (now : DateTime) (ids : ℕ → Uuid)
    (employees : List Employee) :
    FollowsPhases runId (Reaches (.inserting [])) (computePayslips run now ids employees)
      (.inserting (employees.map Employee.id)) := by
  induction employees generalizing ids with
  | nil => rfl
  | cons employee employees ih =>
    apply follows_bind_reaches (follows_computePayslip hrun now (ids 0) employee _)
    intro payslip
    apply follows_bind_reaches (ih _)
    intro results
    rfl

theorem follows_computePayrollRun (companyId runId : Uuid) (ids : ℕ → Uuid) (now : DateTime) :
    FollowsPhases runId (fun _ => Terminal) (computePayrollRun companyId runId ids now).discard
      (.checking companyId) := by
  have hbody : FollowsPhases runId (fun _ => Terminal) (computePayrollRun companyId runId ids now)
      (.checking companyId) := by
    intro s
    change ∃ φ', Phase.Step runId _ s _ φ' s ∧
      Prog.Follows _ _ (ownedBy _ _ _ (s.payroll.payrollRuns.find? (fun r => r.id = runId)) >>= _) φ'
    cases hf : s.payroll.payrollRuns.find? (fun r => r.id = runId) with
    | none => exact ⟨_,.refused (by simp [computable,hf]),.inl rfl⟩
    | some run =>
      simp only [ownedBy]
      by_cases hc : run.companyId = companyId
      · rw [if_pos hc,Prog.done_ok_bind]
        cases hi : immutable run.status with
        | true => exact ⟨_,.refused (by simp [computable,hf,hi]),.inl rfl⟩
        | false =>
          have hid : run.id = runId := (Table.find?_key_some hf).2
          refine ⟨_,.accepted (computable_eq_some.mpr ⟨hf,hc,hi⟩),?_⟩
          simp only [Bool.false_eq_true,if_false,hid,hc]
          intro t
          cases ht : findRun t runId with
          | none =>
            refine ⟨_,.markFailed ht,?_⟩
            have ht' : (Prisma.payrollRun.get t).find? (fun r => r.id = runId) = none := ht
            simp only [ht']
            exact .inl rfl
          | some r =>
            refine ⟨_,.marked (by simp [ht]),?_⟩
            have ht' : (Prisma.payrollRun.get t).find? (fun r => r.id = runId) = some r := ht
            simp only [ht']
            intro u
            refine ⟨_,.listed,fun v => ⟨_,.cleared,?_⟩⟩
            have hloop := follows_computePayslips hid now ids (activeEmployees u companyId)
            refine Prog.Follows.mono ?_ hloop
            intro res φ hφ
            cases res with
            | ok results => exact .inr hφ
            | error err => exact hφ.elim
      · rw [if_neg hc]
        exact ⟨_,.refused (by simp [computable,hf,hc]),.inl rfl⟩
  exact hbody.bind (fun _ _ h => h) (fun _ _ h => h)

end Compute

/-! ## Finalizing -/

theorem follows_finalizePayrollRun (companyId runId : Uuid) (now : DateTime) :
    FollowsPhases runId (fun _ => Terminal) (finalizePayrollRun companyId runId now).discard
      (.reading companyId) := by
  have hbody : FollowsPhases runId (fun _ => Terminal) (finalizePayrollRun companyId runId now)
      (.reading companyId) := by
    intro s
    change ∃ φ', Phase.Step runId _ s _ φ' s ∧
      Prog.Follows _ _ (ownedBy _ _ _ ((s.payroll.payrollRuns.find? (fun r => r.id = runId)).map _) >>= _) φ'
    cases hf : s.payroll.payrollRuns.find? (fun r => r.id = runId) with
    | none => exact ⟨_,.finalizeRefused (by simp [finalizable,hf]),.inl rfl⟩
    | some run =>
      simp only [ownedBy,Option.map_some]
      by_cases hc : run.companyId = companyId
      · rw [if_pos hc,Prog.done_ok_bind]
        obtain rfl : run.id = runId := (Table.find?_key_some hf).2
        by_cases hb : ((payslipsOf s run.id).filter blocking).length > 0
        · refine ⟨_,.finalizeRefused ?_,?_⟩
          · have hne : (payslipsOf s run.id).filter blocking ≠ [] := List.length_pos_iff.mp hb
            simp only [finalizable,hf,Option.filter_some,ite_eq_right_iff]
            simp [hne]
          · simp only [if_pos hb]
            exact .inl rfl
        · have hnil : (payslipsOf s run.id).filter blocking = [] := by
            simpa using hb
          refine ⟨_,.finalizePassed (finalizable_eq_some.mpr ⟨hf,hc,hnil⟩),?_⟩
          simp only [if_neg hb]
          intro t
          cases ht : findRun t run.id with
          | none =>
            refine ⟨_,.updateFailed ht,?_⟩
            have ht' : (Prisma.payrollRun.get t).find? (fun r => r.id = run.id) = none := ht
            simp only [ht']
            exact .inl rfl
          | some r =>
            refine ⟨_,.finalized (by simp [ht]),?_⟩
            have ht' : (Prisma.payrollRun.get t).find? (fun r => r.id = run.id) = some r := ht
            simp only [ht']
            intro u
            exact ⟨_,.announced,.inl rfl⟩
      · rw [if_neg hc]
        exact ⟨_,.finalizeRefused (by simp [finalizable,hf,hc]),.inl rfl⟩
  exact hbody.bind (fun _ _ h => h) (fun _ _ h => h)

end PinoyTax.Payroll
