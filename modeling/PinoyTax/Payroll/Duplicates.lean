import PinoyTax.Payroll.Phases
import Mathlib.Data.List.Perm.Basic

/-! # Several computations of one run at once

Every computation deletes the payslips of the run and then inserts one for each
active employee. The last deletion of an execution decides: the payslips at the end
are those of the computation that made it and whatever the others had left to insert.
-/
namespace PinoyTax.Payroll
open PinoyTax Foundation Phase

structure ComputeCall where
  companyId : Uuid
  ids : ℕ → Uuid
  now : DateTime

/-- The computations of a run, each before its first statement. -/
def computing (s : Store) (runId : Uuid) (calls : List ComputeCall) : Config Store Label ApiException Unit :=
  ⟨s,calls.map (fun c => (computePayrollRun c.companyId runId c.ids c.now).discard)⟩

def OnePayslipEach (s : Store) (runId : Uuid) : Prop := ((payslipsOf s runId).map Payslip.employeeId).Nodup

instance (s : Store) (runId : Uuid) : Decidable (OnePayslipEach s runId) :=
  inferInstanceAs (Decidable ((payslipsOf s runId).map Payslip.employeeId).Nodup)

def deletion : Label := .on .payslip .deleteMany

/-- The next statement belongs to the loop over the employees. -/
def midInsertion : Option Label → Bool
  | some (.on .taxRule .findFirst) => true
  | some (.on .payslip .create) => true
  | _ => false

def AloneAt (c : Config Store Label ApiException Unit) (i : ℕ) : Prop :=
  ∀ (j : ℕ) (p : Request Unit), j ≠ i → c.threads[j]? = some p → midInsertion p.head? = false

/-- When the last deletion of the execution happens, no other computation is in its loop. -/
def LastDeletionAlone (start : Config Store Label ApiException Unit) (tr : List (ℕ × Label)) : Prop :=
  ∀ tr₁ i tr₂ c, tr = tr₁ ++ (i,deletion) :: tr₂ → (∀ x ∈ tr₂, x.2 ≠ deletion) → Steps start tr₁ c → AloneAt c i

/-! ## What is left to insert -/

namespace Phase

def pending : Phase → List Uuid
  | .inserting es => es
  | _ => []

theorem pending_of_terminal {φ : Phase} (h : Terminal φ) : φ.pending = [] := by
  rcases h with rfl | rfl <;> rfl

/-- A thread is in its loop exactly when it has something left to insert. -/
theorem midInsertion_iff {runId : Uuid} {p : Request Unit} {φ : Phase}
    (h : FollowsPhases runId (fun _ => Terminal) p φ) : midInsertion p.head? = true ↔ φ.pending ≠ [] := by
  cases p with
  | done r => simp [midInsertion,pending_of_terminal h]
  | stmt l w k =>
    obtain ⟨φ',ht,-⟩ := h {}
    rw [Prog.head?_stmt]
    generalize w {} = t at ht
    cases ht <;> simp [midInsertion,pending]

end Phase

def pendingIn (φs : List Phase) : List Uuid := φs.flatMap Phase.pending

/-- One thread changes its phase: the others keep what they have left. -/
theorem pendingIn_set {φs : List Phase} {i : ℕ} {φ : Phase} (φ' : Phase) (hi : φs[i]? = some φ) :
    (φ'.pending ++ pendingIn φs).Perm (φ.pending ++ pendingIn (φs.set i φ')) := by
  induction φs generalizing i with
  | nil => simp at hi
  | cons ψ φs ih =>
    cases i with
    | zero =>
      obtain rfl : ψ = φ := by simpa using hi
      simp only [pendingIn,List.set_cons_zero,List.flatMap_cons]
      exact List.perm_append_comm_assoc _ _ _
    | succ i =>
      have hrest := ih (by simpa using hi)
      simp only [pendingIn,List.set_cons_succ,List.flatMap_cons] at hrest ⊢
      calc φ'.pending ++ (ψ.pending ++ φs.flatMap pending)
          |>.Perm (ψ.pending ++ (φ'.pending ++ φs.flatMap pending)) := List.perm_append_comm_assoc _ _ _
        _ |>.Perm (ψ.pending ++ (φ.pending ++ (φs.set i φ').flatMap pending)) := hrest.append_left _
        _ |>.Perm (φ.pending ++ (ψ.pending ++ (φs.set i φ').flatMap pending)) := List.perm_append_comm_assoc _ _ _

/-! ## Where the lists of employees come from -/

/-- A company id and a list of employees that a thread carries are those of the run. -/
def Phase.Known (company : Uuid) (active : List Uuid) : Phase → Prop
  | .marking c => c = company
  | .listing c => c = company
  | .clearing es => es = active
  | .inserting es => es <:+ active
  | _ => True

structure Tracing (s₀ : Store) (runId company : Uuid) (s : Store) (φs : List Phase) : Prop where
  employees : s.payroll.employees = s₀.payroll.employees
  company_eq : ∀ run, findRun s runId = some run → run.companyId = company
  known : ∀ φ ∈ φs, φ.Known company ((activeEmployees s₀ company).map Employee.id)

theorem company_updateMany {s t : Store} {runId company : Uuid} (f : PayrollRun → PayrollRun)
    (hc : ∀ run, findRun s runId = some run → run.companyId = company) (hid : ∀ r, (f r).id = r.id)
    (hcf : ∀ r, (f r).companyId = r.companyId)
    (ht : t.payroll.payrollRuns = Table.updateMany (fun r => r.id = runId) f s.payroll.payrollRuns) :
    ∀ run, findRun t runId = some run → run.companyId = company := by
  intro run hrun
  rw [findRun_updateMany f hid ht] at hrun
  obtain ⟨r,hr,rfl⟩ := Option.map_eq_some_iff.mp hrun
  rw [hcf]
  exact hc r hr

theorem Tracing.step {s₀ : Store} {runId company : Uuid} {s s' : Store} {φs : List Phase} {i : ℕ} {l : Label}
    {φ φ' : Phase} (h : Tracing s₀ runId company s φs) (hi : φs[i]? = some φ)
    (ht : Phase.Step runId φ s l φ' s') : Tracing s₀ runId company s' (φs.set i φ') := by
  obtain ⟨hemp,hcomp,hknown⟩ := h
  have hφ := hknown φ (List.mem_of_getElem? hi)
  have hset : φ'.Known company ((activeEmployees s₀ company).map Employee.id) →
      ∀ ψ ∈ φs.set i φ', ψ.Known company ((activeEmployees s₀ company).map Employee.id) := by
    intro hφ' ψ hψ
    rcases List.mem_or_eq_of_mem_set hψ with hψ | rfl
    · exact hknown ψ hψ
    · exact hφ'
  cases ht with
  | refused h => exact ⟨hemp,hcomp,hset trivial⟩
  | accepted h =>
    obtain ⟨hf,hc,-⟩ := computable_eq_some.mp h
    exact ⟨hemp,hcomp,hset (hc ▸ hcomp _ hf)⟩
  | marked h => exact ⟨hemp,company_updateMany setProcessing hcomp (fun _ => rfl) (fun _ => rfl) rfl,hset hφ⟩
  | markFailed h => exact ⟨hemp,company_updateMany setProcessing hcomp (fun _ => rfl) (fun _ => rfl) rfl,hset trivial⟩
  | listed =>
    refine ⟨hemp,hcomp,hset ?_⟩
    obtain rfl : _ = company := hφ
    simp only [Phase.Known,activeEmployees,hemp]
  | cleared =>
    obtain rfl : _ = _ := hφ
    exact ⟨hemp,hcomp,hset (List.suffix_refl _)⟩
  | read => exact ⟨hemp,hcomp,hset hφ⟩
  | inserted hrun he => exact ⟨hemp,hcomp,hset ((List.suffix_cons _ _).trans hφ)⟩
  | finalizeRefused h => exact ⟨hemp,hcomp,hset trivial⟩
  | finalizePassed h => exact ⟨hemp,hcomp,hset trivial⟩
  | @finalized _ now h =>
    refine ⟨hemp,?_,hset trivial⟩
    exact company_updateMany (setFinalized now) hcomp (fun _ => rfl) (fun _ => rfl) rfl
  | @updateFailed _ now h =>
    refine ⟨hemp,?_,hset trivial⟩
    exact company_updateMany (setFinalized now) hcomp (fun _ => rfl) (fun _ => rfl) rfl
  | announced => exact ⟨hemp,hcomp,hset trivial⟩

/-! ## Executions without a deletion, and after the last one -/

/-- A step that is not a deletion moves an employee from what is left to the payslips. -/
theorem perm_step {runId : Uuid} {s s' : Store} {φs : List Phase} {i : ℕ} {l : Label} {φ φ' : Phase}
    (hi : φs[i]? = some φ) (ht : Phase.Step runId φ s l φ' s') (hl : l ≠ deletion) :
    ((payslipsOf s' runId).map Payslip.employeeId ++ pendingIn (φs.set i φ')).Perm
      ((payslipsOf s runId).map Payslip.employeeId ++ pendingIn φs) := by
  have hset := pendingIn_set φ' hi
  cases ht with
  | cleared => exact absurd rfl hl
  | @inserted e es s p hrun he =>
    have hnew : (payslipsOf (addPayslips s [p]) runId).map Payslip.employeeId =
        (payslipsOf s runId).map Payslip.employeeId ++ [e] := by
      simp [payslipsOf,hrun,he]
    rw [hnew,List.append_assoc]
    apply List.Perm.append_left
    have hcancel : (es ++ pendingIn φs).Perm (es ++ ([e] ++ pendingIn (φs.set i (.inserting es)))) := by
      apply hset.trans
      simpa [pending] using List.perm_middle.symm
    exact ((List.perm_append_left_iff es).mp hcancel).symm
  | refused h => exact hset.symm.append_left _
  | accepted h => exact hset.symm.append_left _
  | marked h => exact hset.symm.append_left _
  | markFailed h => exact hset.symm.append_left _
  | listed => exact hset.symm.append_left _
  | @read e es s => exact ((List.perm_append_left_iff (e :: es)).mp hset).symm.append_left _
  | finalizeRefused h => exact hset.symm.append_left _
  | finalizePassed h => exact hset.symm.append_left _
  | finalized h => exact hset.symm.append_left _
  | updateFailed h => exact hset.symm.append_left _
  | announced => exact hset.symm.append_left _

/-- Without a deletion the payslips at the end are those at the start and what was left. -/
theorem perm_of_no_deletion {runId : Uuid} {c d : Config Store Label ApiException Unit} {tr : List (ℕ × Label)}
    {φs : List Phase} (h : Steps c tr d) (hd : d.Completed)
    (hf : c.Follows (Phase.Step runId) (fun _ => Terminal) φs) (htr : ∀ x ∈ tr, x.2 ≠ deletion) :
    ((payslipsOf d.state runId).map Payslip.employeeId).Perm
      ((payslipsOf c.state runId).map Payslip.employeeId ++ pendingIn φs) := by
  obtain ⟨φs',hf',hperm⟩ := h.phases (T := Phase.Step runId)
    (I := fun s φs' => ((payslipsOf s runId).map Payslip.employeeId ++ pendingIn φs').Perm
      ((payslipsOf c.state runId).map Payslip.employeeId ++ pendingIn φs))
    (fun hmem hI hi ht => (perm_step hi ht (htr _ hmem)).trans hI) hf (List.Perm.refl _)
  have hnone : pendingIn φs' = [] := by
    simp only [pendingIn,List.flatMap_eq_nil_iff]
    intro φ hφ
    obtain ⟨i,hi⟩ := List.mem_iff_getElem?.mp hφ
    obtain ⟨-,hpost⟩ := hf'.post hd hi
    exact pending_of_terminal hpost
  rwa [hnone,List.append_nil] at hperm

/-! ## The last deletion -/

theorem exists_last {α : Type} {p : α → Prop} [DecidablePred p] {l : List α} (h : ∃ a ∈ l, p a) :
    ∃ l₁ a l₂, l = l₁ ++ a :: l₂ ∧ p a ∧ ∀ x ∈ l₂, ¬ p x := by
  induction l with
  | nil => simp at h
  | cons b l ih =>
    by_cases hl : ∃ a ∈ l, p a
    · obtain ⟨l₁,a,l₂,rfl,ha,hrest⟩ := ih hl
      exact ⟨b :: l₁,a,l₂,rfl,ha,hrest⟩
    · obtain ⟨a,ha,hpa⟩ := h
      rcases List.mem_cons.mp ha with rfl | ha
      · exact ⟨[],a,l,rfl,hpa,fun x hx hpx => hl ⟨x,hx,hpx⟩⟩
      · exact absurd ⟨a,ha,hpa⟩ hl

/-- Lists of which one is everything are disjoint only when all others are empty. -/
theorem nodup_pendingIn_iff {φs : List Phase} {i : ℕ} {active : List Uuid} (hn : active.Nodup)
    (hi : φs[i]? = some (.inserting active)) (hsub : ∀ φ ∈ φs, φ.pending ⊆ active) :
    (pendingIn φs).Nodup ↔ ∀ (j : ℕ) (φ : Phase), j ≠ i → φs[j]? = some φ → φ.pending = [] := by
  constructor
  · intro hnodup j φ hji hj
    have hpair := (List.nodup_flatMap.mp hnodup).2
    obtain ⟨hjl,hje⟩ := List.getElem?_eq_some_iff.mp hj
    obtain ⟨hil,hie⟩ := List.getElem?_eq_some_iff.mp hi
    have hdis : List.Disjoint φ.pending active := by
      rw [List.pairwise_iff_getElem] at hpair
      rcases Nat.lt_or_gt_of_ne hji with hlt | hlt
      · have hd := hpair j i hjl hil hlt
        rw [Function.onFun_apply,hje,hie] at hd
        exact hd
      · have hd := hpair i j hil hjl hlt
        rw [Function.onFun_apply,hje,hie] at hd
        exact fun e he ha => hd ha he
    rw [List.eq_nil_iff_forall_not_mem]
    intro e he
    exact hdis he (hsub φ (List.mem_of_getElem? hj) he)
  · intro halone
    have hset := pendingIn_set .returned hi
    have hrest : pendingIn (φs.set i .returned) = [] := by
      simp only [pendingIn,List.flatMap_eq_nil_iff]
      intro φ hφ
      obtain ⟨j,hj⟩ := List.mem_iff_getElem?.mp hφ
      by_cases hji : i = j
      · subst hji
        obtain ⟨hlt,-⟩ := List.getElem?_eq_some_iff.mp hi
        rw [List.getElem?_set_self hlt] at hj
        cases hj
        rfl
      · rw [List.getElem?_set_ne hji] at hj
        exact halone j φ (Ne.symm hji) hj
    rw [hrest,List.append_nil] at hset
    exact hset.nodup_iff.mpr hn

/-- At the last deletion: one payslip each at the end exactly when no other computation
is in its loop. -/
theorem onePayslipEach_iff_alone {s : Store} {runId company : Uuid} {c c' d : Config Store Label ApiException Unit}
    {φs : List Phase} {i : ℕ} {tr : List (ℕ × Label)} (hk : Keyed s)
    (hf : c.Follows (Phase.Step runId) (fun _ => Terminal) φs) (ht : Tracing s runId company c.state φs)
    (hs : c.step i = some (deletion,c')) (h : Steps c' tr d) (hd : d.Completed) (htr : ∀ x ∈ tr, x.2 ≠ deletion) :
    OnePayslipEach d.state runId ↔ AloneAt c i := by
  obtain ⟨φ,φ',hi,hstep,hf'⟩ := hf.step hs
  have ht' := ht.step hi hstep
  obtain ⟨hlt,-⟩ := List.getElem?_eq_some_iff.mp hi
  have hknown := ht.known φ (List.mem_of_getElem? hi)
  have hperm := perm_of_no_deletion h hd hf' htr
  have hclear : (payslipsOf c'.state runId).map Payslip.employeeId = [] ∧
      φ' = .inserting ((activeEmployees s company).map Employee.id) := by
    generalize c'.state = t at hstep
    cases hstep with
    | cleared =>
      obtain rfl : _ = _ := hknown
      exact ⟨by simp [payslipsOf,clearPayslips],rfl⟩
  rw [hclear.1,List.nil_append] at hperm
  rw [OnePayslipEach,hperm.nodup_iff,nodup_pendingIn_iff (i := i) (nodup_activeEmployees hk company)]
  · constructor
    · intro hrest j p hji hp
      have hj : j < φs.length := by
        rw [hf.length_eq]
        exact (List.getElem?_eq_some_iff.mp hp).1
      have hpend := hrest j φs[j] hji (by rw [List.getElem?_set_ne (Ne.symm hji),List.getElem?_eq_getElem hj])
      have hfol := hf.follows j φs[j] p (List.getElem?_eq_getElem hj) hp
      rw [← Bool.not_eq_true,midInsertion_iff hfol]
      exact not_not_intro hpend
    · intro halone j ψ hji hj
      rw [List.getElem?_set_ne (Ne.symm hji)] at hj
      have hj' : j < c.threads.length := by
        rw [← hf.length_eq]
        exact (List.getElem?_eq_some_iff.mp hj).1
      have hfol := hf.follows j ψ _ hj (List.getElem?_eq_getElem hj')
      have hmid := halone j _ hji (List.getElem?_eq_getElem hj')
      by_contra hne
      rw [(midInsertion_iff hfol).mpr hne] at hmid
      cases hmid
  · rw [List.getElem?_set_self hlt,hclear.2]
  · intro ψ hψ
    have hψ' := ht'.known ψ hψ
    cases ψ with
    | inserting es => exact List.IsSuffix.subset hψ'
    | _ => exact List.nil_subset _

theorem follows_computing (s : Store) (runId : Uuid) (calls : List ComputeCall) :
    (computing s runId calls).Follows (Phase.Step runId) (fun _ => Terminal)
      (calls.map (fun c => .checking c.companyId)) := by
  refine ⟨by simp [computing],?_⟩
  intro i φ p hi hp
  simp only [computing,List.getElem?_map,Option.map_eq_some_iff] at hi hp
  obtain ⟨call,hcall,rfl⟩ := hi
  obtain ⟨call',hcall',rfl⟩ := hp
  obtain rfl : call = call' := Option.some.inj (hcall.symm.trans hcall')
  exact follows_computePayrollRun call.companyId runId call.ids call.now

theorem pendingIn_checking (calls : List ComputeCall) :
    pendingIn (calls.map (fun c => .checking c.companyId)) = [] := by
  simp [pendingIn,pending]

/-- For every interleaving of computations of one run: when all have returned the run
holds at most one payslip for each employee exactly when, at the last deletion, no
other computation was in the middle of its insertions. -/
theorem onePayslipEach_iff_lastDeletionAlone (s : Store) (runId : Uuid) (calls : List ComputeCall)
    (tr : List (ℕ × Label)) (d : Config Store Label ApiException Unit) (hk : Keyed s)
    (hone : OnePayslipEach s runId) (h : Steps (computing s runId calls) tr d) (hd : d.Completed) :
    OnePayslipEach d.state runId ↔ LastDeletionAlone (computing s runId calls) tr := by
  have hstart := follows_computing s runId calls
  obtain ⟨company,hcompany⟩ : ∃ company, ∀ run, findRun s runId = some run → run.companyId = company := by
    cases hrun : findRun s runId with
    | none => exact ⟨0,fun run h => by cases h⟩
    | some run => exact ⟨run.companyId,fun r h => by cases h; rfl⟩
  have htrace : Tracing s runId company s (calls.map (fun c => .checking c.companyId)) := by
    refine ⟨rfl,hcompany,fun φ hφ => ?_⟩
    obtain ⟨call,-,rfl⟩ := List.mem_map.mp hφ
    trivial
  have hat : ∀ tr₁ i tr₂ c, tr = tr₁ ++ (i,deletion) :: tr₂ → (∀ x ∈ tr₂, x.2 ≠ deletion) →
      Steps (computing s runId calls) tr₁ c → (OnePayslipEach d.state runId ↔ AloneAt c i) := by
    rintro tr₁ i tr₂ c rfl hlast h₁
    obtain ⟨e,he,hrest⟩ := h.split
    obtain rfl := he.det h₁
    obtain ⟨φs,hf,ht⟩ := h₁.phases (T := Phase.Step runId) (I := Tracing s runId company)
      (fun _ hI hi ht => hI.step hi ht) hstart htrace
    obtain _ | ⟨hs,h₂⟩ := hrest
    exact onePayslipEach_iff_alone hk hf ht hs h₂ hd hlast
  by_cases hdel : ∃ x ∈ tr, x.2 = deletion
  · obtain ⟨tr₁,⟨i,l⟩,tr₂,htr,rfl,hlast⟩ := exists_last hdel
    constructor
    · intro hnodup tr₁ i tr₂ c htr hlast h₁
      exact (hat tr₁ i tr₂ c htr hlast h₁).mp hnodup
    · intro halone
      obtain ⟨c,h₁,-⟩ := Steps.split (htr ▸ h)
      exact (hat tr₁ i tr₂ c htr hlast h₁).mpr (halone tr₁ i tr₂ c htr hlast h₁)
  · have hnone : ∀ x ∈ tr, x.2 ≠ deletion := fun x hx hl => hdel ⟨x,hx,hl⟩
    have hperm := perm_of_no_deletion h hd hstart hnone
    rw [pendingIn_checking,List.append_nil] at hperm
    constructor
    · rintro - tr₁ i tr₂ c rfl
      exact absurd rfl (hnone (i,deletion) (by simp))
    · intro _
      exact hperm.nodup_iff.mpr hone

def twoCalls : List ComputeCall := [⟨1,fun i => 100 + i,500⟩,⟨1,fun i => 200 + i,501⟩]

/-- One computation after the other. -/
theorem onePayslipEach_iff_lastDeletionAlone_sequential :
    ∃ tr d, Steps (computing (staffedStore none) 40 twoCalls) tr d ∧
      (OnePayslipEach d.state 40 ↔ LastDeletionAlone (computing (staffedStore none) 40 twoCalls) tr) := by
  obtain ⟨tr,d,h,hd⟩ : ∃ tr d, Steps (computing (staffedStore none) 40 twoCalls) tr d ∧ d.Completed :=
    Steps.exists_of_play [0,0,0,0,0,0,0,0,1,1,1,1,1,1,1,1] (by decide +kernel)
  exact ⟨tr,d,h,onePayslipEach_iff_lastDeletionAlone (staffedStore none) 40 twoCalls tr d
    ⟨by decide +kernel,by decide +kernel⟩ (by decide +kernel) h hd⟩

/-- Both delete before either inserts. -/
theorem twoCalls_duplicate :
    OnePayslipEach (staffedStore none) 40 ∧
      ∃ tr d, Steps (computing (staffedStore none) 40 twoCalls) tr d ∧ d.Completed ∧ ¬ OnePayslipEach d.state 40 :=
  ⟨by decide +kernel,
    Steps.exists_of_play [0,0,0,0,1,1,1,1,0,0,0,0,1,1,1,1] (by decide +kernel)⟩

end PinoyTax.Payroll
