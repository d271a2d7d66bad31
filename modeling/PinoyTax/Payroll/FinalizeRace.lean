import PinoyTax.Payroll.Phases

/-! # One computation against one finalization

Everything is decided by where the computation stands when the finalizing update
happens: before its status check or after its return it can do no harm, about to set
the status it takes the run out of finalized again, and anywhere between it goes on
to delete or insert payslips of a finalized run.
-/
namespace PinoyTax.Payroll
open PinoyTax Foundation Phase

structure Race where
  runId : Uuid
  computeCompanyId : Uuid
  ids : ℕ → Uuid
  computedAt : DateTime
  finalizeCompanyId : Uuid
  finalizedAt : DateTime

/-- Thread 0 computes the run, thread 1 finalizes it. -/
def Race.start (r : Race) (s : Store) : Config Store Label ApiException Unit :=
  ⟨s,[(computePayrollRun r.computeCompanyId r.runId r.ids r.computedAt).discard,
    (finalizePayrollRun r.finalizeCompanyId r.runId r.finalizedAt).discard]⟩

def statusOf (s : Store) (runId : Uuid) : Option PayrollRunStatus := (findRun s runId).map PayrollRun.status

def ErrorFree (s : Store) (runId : Uuid) : Prop := ∀ p ∈ payslipsOf s runId, errorsOf p = []

instance (s : Store) (runId : Uuid) : Decidable (ErrorFree s runId) :=
  inferInstanceAs (Decidable (∀ p ∈ payslipsOf s runId, errorsOf p = []))

def finalizing : ℕ × Label := (1,.on .payrollRun .update)

/-- From this configuration on the payslips stay the same and the run stays finalized. -/
def StaysFinalized (runId : Uuid) (c : Config Store Label ApiException Unit) (tr : List (ℕ × Label)) : Prop :=
  ∀ tr₁ tr₂ e, tr = tr₁ ++ tr₂ → Steps c tr₁ e →
    payslipsOf e.state runId = payslipsOf c.state runId ∧ statusOf e.state runId = some .finalized

/-- If the run ends up finalized, it stays so after the finalizing update, with the
payslips it has then, and they carry no errors. -/
def FinalizedForGood (runId : Uuid) (start : Config Store Label ApiException Unit) (tr : List (ℕ × Label))
    (d : Config Store Label ApiException Unit) : Prop :=
  statusOf d.state runId = some .finalized →
    (∀ tr₁ tr₂ c c', tr = tr₁ ++ finalizing :: tr₂ → Steps start tr₁ c →
      c.step 1 = some (finalizing.2,c') → StaysFinalized runId c' tr₂) ∧ ErrorFree d.state runId

/-- Where the computation may stand when the finalizing update happens. -/
def Undisturbed (companyId runId : Uuid) (c : Config Store Label ApiException Unit) : Prop :=
  match c.threads.head?.bind Prog.head? with
  | none => ErrorFree c.state runId
  | some (.on .payrollRun .findUnique) => ErrorFree c.state runId
  | some (.on .payrollRun .update) => True
  | some (.on .employee .findMany) =>
    payslipsOf c.state runId = [] ∧ activeEmployees c.state companyId = []
  | some (.on .payslip .deleteMany) =>
    payslipsOf c.state runId = [] ∧ activeEmployees c.state companyId = []
  | _ => False

def UpdatesUndisturbed (companyId runId : Uuid) (start : Config Store Label ApiException Unit)
    (tr : List (ℕ × Label)) : Prop :=
  ∀ tr₁ tr₂ c, tr = tr₁ ++ finalizing :: tr₂ → Steps start tr₁ c → Undisturbed companyId runId c

/-! ## The two threads -/

/-- The phases of a computation for this company, `active` its employees. -/
def Phase.Computing (companyId : Uuid) (active : List Uuid) : Phase → Prop
  | .checking c => c = companyId
  | .marking c => c = companyId
  | .listing c => c = companyId
  | .clearing es => es = active
  | .inserting _ => True
  | .returned => True
  | _ => False

def Phase.Finalizing : Phase → Prop
  | .reading _ => True
  | .updating => True
  | .publishing => True
  | .returned => True
  | _ => False

structure Racing (s₀ : Store) (companyId runId : Uuid) (s : Store) (φ₀ φ₁ : Phase) : Prop where
  employees : s.payroll.employees = s₀.payroll.employees
  computing : φ₀.Computing companyId ((activeEmployees s₀ companyId).map Employee.id)
  finalizing : φ₁.Finalizing
  found : φ₁ = .updating → findRun s runId ≠ none

theorem statusOf_updateMany {s t : Store} {runId : Uuid} {status : PayrollRunStatus} (f : PayrollRun → PayrollRun)
    (hid : ∀ r, (f r).id = r.id) (hst : ∀ r, (f r).status = status) (hfound : findRun s runId ≠ none)
    (ht : t.payroll.payrollRuns = Table.updateMany (fun r => r.id = runId) f s.payroll.payrollRuns) :
    statusOf t runId = some status := by
  rw [statusOf,findRun_updateMany f hid ht]
  obtain ⟨r,hr⟩ := Option.ne_none_iff_exists'.mp hfound
  simp [hr,hst]

theorem findRun_ne_none_updateMany {s t : Store} {runId : Uuid} (f : PayrollRun → PayrollRun)
    (hid : ∀ r, (f r).id = r.id) (hfound : findRun s runId ≠ none)
    (ht : t.payroll.payrollRuns = Table.updateMany (fun r => r.id = runId) f s.payroll.payrollRuns) :
    findRun t runId ≠ none := by
  rw [findRun_updateMany f hid ht]
  simpa using hfound

theorem statusOf_ne_none {s : Store} {runId : Uuid} {status : PayrollRunStatus} (h : statusOf s runId = some status) :
    findRun s runId ≠ none := by
  intro hnone
  rw [statusOf,hnone] at h
  cases h

/-- A finalized run is not computable. -/
theorem computable_of_finalized {s : Store} {companyId runId : Uuid} (h : statusOf s runId = some .finalized) :
    computable s companyId runId = none := by
  cases hc : computable s companyId runId with
  | none => rfl
  | some run =>
    obtain ⟨hf,-,hi⟩ := computable_eq_some.mp hc
    have hst : run.status = .finalized := by
      have hfr : findRun s runId = some run := hf
      rw [statusOf,hfr] at h
      simpa using h
    simp [immutable,hst] at hi

theorem Racing.step_zero {s₀ : Store} {companyId runId : Uuid} {s s' : Store} {φ₀ φ₀' φ₁ : Phase} {l : Label}
    (h : Racing s₀ companyId runId s φ₀ φ₁) (ht : Phase.Step runId φ₀ s l φ₀' s') :
    Racing s₀ companyId runId s' φ₀' φ₁ := by
  obtain ⟨hemp,hc,hfin,hfound⟩ := h
  cases ht with
  | refused h => exact ⟨hemp,trivial,hfin,hfound⟩
  | accepted h => exact ⟨hemp,hc,hfin,hfound⟩
  | marked h =>
    exact ⟨hemp,hc,hfin,fun hu => findRun_ne_none_updateMany setProcessing (fun _ => rfl) (hfound hu) rfl⟩
  | markFailed h =>
    exact ⟨hemp,trivial,hfin,fun hu => findRun_ne_none_updateMany setProcessing (fun _ => rfl) (hfound hu) rfl⟩
  | listed =>
    obtain rfl : _ = companyId := hc
    refine ⟨hemp,?_,hfin,hfound⟩
    simp only [Phase.Computing,activeEmployees,hemp]
  | cleared => exact ⟨hemp,trivial,hfin,hfound⟩
  | read => exact ⟨hemp,trivial,hfin,hfound⟩
  | inserted hrun he => exact ⟨hemp,trivial,hfin,hfound⟩
  | finalizeRefused h => exact hc.elim
  | finalizePassed h => exact hc.elim
  | finalized h => exact hc.elim
  | updateFailed h => exact hc.elim
  | announced => exact hc.elim

theorem Racing.step_one {s₀ : Store} {companyId runId : Uuid} {s s' : Store} {φ₀ φ₁ φ₁' : Phase} {l : Label}
    (h : Racing s₀ companyId runId s φ₀ φ₁) (ht : Phase.Step runId φ₁ s l φ₁' s') :
    Racing s₀ companyId runId s' φ₀ φ₁' := by
  obtain ⟨hemp,hc,hfin,hfound⟩ := h
  cases ht with
  | finalizeRefused h => exact ⟨hemp,hc,trivial,fun hu => by cases hu⟩
  | finalizePassed h =>
    obtain ⟨hf,-,-⟩ := finalizable_eq_some.mp h
    refine ⟨hemp,hc,trivial,fun _ hnone => ?_⟩
    rw [findRun,hf] at hnone
    cases hnone
  | finalized h => exact ⟨hemp,hc,trivial,fun hu => by cases hu⟩
  | updateFailed h => exact ⟨hemp,hc,trivial,fun hu => by cases hu⟩
  | announced => exact ⟨hemp,hc,trivial,fun hu => by cases hu⟩
  | refused h => exact hfin.elim
  | accepted h => exact hfin.elim
  | marked h => exact hfin.elim
  | markFailed h => exact hfin.elim
  | listed => exact hfin.elim
  | cleared => exact hfin.elim
  | read => exact hfin.elim
  | inserted hrun he => exact hfin.elim

/-! ## After the finalizing update -/

def Phase.Announcing (φ : Phase) : Prop := φ = .publishing ∨ φ = .returned

theorem Phase.Announcing.step {runId : Uuid} {s s' : Store} {φ φ' : Phase} {l : Label} (h : φ.Announcing)
    (ht : Phase.Step runId φ s l φ' s') : φ'.Announcing ∧ s'.payroll = s.payroll := by
  rcases h with rfl | rfl
  · cases ht
    exact ⟨.inr rfl,rfl⟩
  · cases ht

section After
variable {runId : Uuid} {c d : Config Store Label ApiException Unit} {tr : List (ℕ × Label)} {φ₀ φ₁ : Phase}

/-- What the computation keeps of the payroll tables survives the rest of both threads. -/
theorem phases_after {J : Store → Phase → Prop} (hpay : ∀ {s s' φ}, s'.payroll = s.payroll → J s φ → J s' φ)
    (hstep : ∀ {s s' φ l φ'}, J s φ → Phase.Step runId φ s l φ' s' → J s' φ') (h : Steps c tr d)
    (hf : c.Follows (Phase.Step runId) (fun _ => Terminal) [φ₀,φ₁]) (hφ₁ : φ₁.Announcing)
    (hJ : J c.state φ₀) :
    ∃ φ₀' φ₁', d.Follows (Phase.Step runId) (fun _ => Terminal) [φ₀',φ₁'] ∧ φ₁'.Announcing ∧ J d.state φ₀' := by
  refine h.phases_pair (T := Phase.Step runId) (I := fun s φ₀ φ₁ => φ₁.Announcing ∧ J s φ₀) ?_ ?_ hf ⟨hφ₁,hJ⟩
  · intro s φ₀ φ₁ l φ s' _ hI ht
    exact ⟨hI.1,hstep hI.2 ht⟩
  · intro s φ₀ φ₁ l φ s' _ hI ht
    obtain ⟨hφ,hp⟩ := hI.1.step ht
    exact ⟨hφ,hpay hp hI.2⟩

/-- At the end of the execution the computation is in a phase it returned in. -/
theorem terminal_after {J : Store → Phase → Prop} (hpay : ∀ {s s' φ}, s'.payroll = s.payroll → J s φ → J s' φ)
    (hstep : ∀ {s s' φ l φ'}, J s φ → Phase.Step runId φ s l φ' s' → J s' φ') (h : Steps c tr d)
    (hd : d.Completed) (hf : c.Follows (Phase.Step runId) (fun _ => Terminal) [φ₀,φ₁]) (hφ₁ : φ₁.Announcing)
    (hJ : J c.state φ₀) : ∃ φ, Terminal φ ∧ J d.state φ := by
  obtain ⟨φ₀',φ₁',hf',-,hJ'⟩ := phases_after (J := J) hpay hstep h hf hφ₁ hJ
  obtain ⟨-,hterm⟩ := hf'.post hd (show [φ₀',φ₁'][0]? = some φ₀' from rfl)
  exact ⟨φ₀',hterm,hJ'⟩

theorem payslipsOf_of_payroll_eq {s s' : Store} (h : s'.payroll = s.payroll) (runId : Uuid) :
    payslipsOf s' runId = payslipsOf s runId := by simp only [payslipsOf,h]

theorem findRun_of_payroll_eq {s s' : Store} (h : s'.payroll = s.payroll) (runId : Uuid) :
    findRun s' runId = findRun s runId := by simp only [findRun,h]

theorem statusOf_of_payroll_eq {s s' : Store} (h : s'.payroll = s.payroll) (runId : Uuid) :
    statusOf s' runId = statusOf s runId := by simp only [statusOf,findRun,h]

/-- A computation that has yet to check the status, or has returned. -/
structure Idle (runId companyId : Uuid) (ps : List Payslip) (s : Store) (φ : Phase) : Prop where
  phase : φ = .checking companyId ∨ Terminal φ
  status : statusOf s runId = some .finalized
  payslips : payslipsOf s runId = ps

theorem Idle.step {companyId : Uuid} {ps : List Payslip} {s s' : Store} {φ φ' : Phase} {l : Label}
    (h : Idle runId companyId ps s φ) (ht : Phase.Step runId φ s l φ' s') : Idle runId companyId ps s' φ' := by
  obtain ⟨hφ,hst,hps⟩ := h
  rcases hφ with rfl | rfl | rfl
  · cases ht with
    | refused h => exact ⟨.inr (.inl rfl),hst,hps⟩
    | accepted h =>
      rw [computable_of_finalized hst] at h
      cases h
  · cases ht
  · cases ht

/-- A computation that sets the status to processing, before or after it does so. -/
inductive Remarking (runId : Uuid) (s : Store) : Phase → Prop
  | before {companyId : Uuid} (found : findRun s runId ≠ none) : Remarking runId s (.marking companyId)
  | listing {companyId : Uuid} (status : statusOf s runId = some .processing) :
      Remarking runId s (.listing companyId)
  | clearing {es : List Uuid} (status : statusOf s runId = some .processing) : Remarking runId s (.clearing es)
  | inserting {es : List Uuid} (status : statusOf s runId = some .processing) : Remarking runId s (.inserting es)

theorem Remarking.step {s s' : Store} {φ φ' : Phase} {l : Label} (h : Remarking runId s φ)
    (ht : Phase.Step runId φ s l φ' s') : Remarking runId s' φ' := by
  cases h with
  | before found =>
    cases ht with
    | marked h => exact .listing (statusOf_updateMany setProcessing (fun _ => rfl) (fun _ => rfl) found rfl)
    | markFailed h => exact absurd h found
  | listing status =>
    cases ht
    exact .clearing status
  | clearing status =>
    cases ht
    exact .inserting status
  | inserting status =>
    cases ht with
    | read => exact .inserting status
    | inserted hrun he => exact .inserting status

/-- A computation in its loop: what is inserted and what is left add up. -/
structure Counting (runId : Uuid) (n : ℕ) (s : Store) (φ : Phase) : Prop where
  status : statusOf s runId = some .finalized
  count : ∃ es, φ = .inserting es ∧ (payslipsOf s runId).length + es.length = n

theorem Counting.step {n : ℕ} {s s' : Store} {φ φ' : Phase} {l : Label} (h : Counting runId n s φ)
    (ht : Phase.Step runId φ s l φ' s') : Counting runId n s' φ' := by
  obtain ⟨hst,es,rfl,hn⟩ := h
  cases ht with
  | @read e es => exact ⟨hst,e :: es,rfl,hn⟩
  | @inserted e es s p hrun he =>
    refine ⟨hst,es,rfl,?_⟩
    have hlen : (payslipsOf (addPayslips s [p]) runId).length = (payslipsOf s runId).length + 1 := by
      simp [payslipsOf,hrun]
    simp only [List.length_cons] at hn
    omega

theorem Counting.length_of_terminal {n : ℕ} {s : Store} {φ : Phase} (h : Counting runId n s φ)
    (hφ : Terminal φ) : (payslipsOf s runId).length = n := by
  obtain ⟨-,es,rfl,hn⟩ := h
  rcases hφ with hφ | hφ
  · cases hφ
  · cases hφ
    simpa using hn

/-- A computation on the way to its deletion. -/
structure Clearing (runId companyId : Uuid) (employees : List Employee) (ps : List Payslip) (s : Store)
    (φ : Phase) : Prop where
  phase : φ = .listing companyId ∨ φ = .clearing ((employees.filter (isActiveIn companyId)).map Employee.id)
  status : statusOf s runId = some .finalized
  payslips : payslipsOf s runId = ps
  employees_eq : s.payroll.employees = employees

/-- The next statement goes on towards the deletion, or is the deletion. -/
theorem Clearing.step {companyId : Uuid} {employees : List Employee} {ps : List Payslip} {s s' : Store}
    {φ φ' : Phase} {l : Label} (h : Clearing runId companyId employees ps s φ)
    (ht : Phase.Step runId φ s l φ' s') :
    Clearing runId companyId employees ps s' φ' ∨
      Counting runId (employees.filter (isActiveIn companyId)).length s' φ' ∧ payslipsOf s' runId = [] := by
  obtain ⟨hφ,hst,hps,hemp⟩ := h
  rcases hφ with rfl | rfl
  · cases ht
    exact .inl ⟨.inr (by rw [activeEmployees,hemp]),hst,hps,hemp⟩
  · cases ht
    have hnil : payslipsOf (clearPayslips runId s) runId = [] := by simp [payslipsOf,clearPayslips]
    exact .inr ⟨⟨hst,_,rfl,by simp [hnil]⟩,hnil⟩

/-! ## The rest of the execution, phase by phase -/

/-- What `Undisturbed` asks when the computation is in this phase. -/
def Phase.Undisturbing (companyId runId : Uuid) (s : Store) : Phase → Prop
  | .marking _ => True
  | .listing _ => payslipsOf s runId = [] ∧ activeEmployees s companyId = []
  | .clearing _ => payslipsOf s runId = [] ∧ activeEmployees s companyId = []
  | .inserting (_ :: _) => False
  | _ => ErrorFree s runId

theorem undisturbed_iff {companyId : Uuid} {active : List Uuid} {p₀ : Request Unit} (p₁ : Request Unit) {s : Store}
    (hf : FollowsPhases runId (fun _ => Terminal) p₀ φ₀) (hφ : φ₀.Computing companyId active) :
    Undisturbed companyId runId ⟨s,[p₀,p₁]⟩ ↔ φ₀.Undisturbing companyId runId s := by
  cases p₀ with
  | done r => rcases hf with rfl | rfl <;> exact Iff.rfl
  | stmt l w k =>
    obtain ⟨φ',ht,-⟩ := hf {}
    generalize w {} = t at ht
    cases ht with
    | finalizeRefused h => exact hφ.elim
    | finalizePassed h => exact hφ.elim
    | finalized h => exact hφ.elim
    | updateFailed h => exact hφ.elim
    | announced => exact hφ.elim
    | _ => exact Iff.rfl

/-- What is said of what follows the finalizing update. -/
def Settles (runId : Uuid) (c d : Config Store Label ApiException Unit) (tr : List (ℕ × Label)) : Prop :=
  statusOf d.state runId = some .finalized → StaysFinalized runId c tr ∧ ErrorFree d.state runId

theorem StaysFinalized.last (h : StaysFinalized runId c tr) (hs : Steps c tr d) :
    payslipsOf d.state runId = payslipsOf c.state runId :=
  (h tr [] d (List.append_nil tr).symm hs).1

theorem settles_of_idle (companyId : Uuid) (hs : Steps c tr d)
    (hf : c.Follows (Phase.Step runId) (fun _ => Terminal) [φ₀,φ₁]) (hφ₁ : φ₁.Announcing)
    (hI : Idle runId companyId (payslipsOf c.state runId) c.state φ₀) :
    Settles runId c d tr ↔ ErrorFree c.state runId := by
  have hpay : ∀ {s s' φ}, s'.payroll = s.payroll → Idle runId companyId (payslipsOf c.state runId) s φ →
      Idle runId companyId (payslipsOf c.state runId) s' φ := by
    intro s s' φ hp h
    exact ⟨h.phase,by rw [statusOf_of_payroll_eq hp,h.status],by rw [payslipsOf_of_payroll_eq hp,h.payslips]⟩
  have hidle : ∀ {tr' e}, Steps c tr' e → ∃ φ, Idle runId companyId (payslipsOf c.state runId) e.state φ := by
    intro tr' e he
    obtain ⟨φ,_,_,_,hφ⟩ := phases_after (J := Idle runId companyId (payslipsOf c.state runId)) hpay Idle.step he hf
      hφ₁ hI
    exact ⟨φ,hφ⟩
  obtain ⟨_,hlast⟩ := hidle hs
  have hsame : ErrorFree d.state runId ↔ ErrorFree c.state runId := by
    rw [ErrorFree,hlast.payslips,ErrorFree]
  constructor
  · intro h
    exact hsame.mp (h hlast.status).2
  · intro herr _
    refine ⟨?_,hsame.mpr herr⟩
    intro tr₁ tr₂ e _ he
    obtain ⟨_,hφ⟩ := hidle he
    exact ⟨hφ.payslips,hφ.status⟩

theorem settles_of_remarking (hs : Steps c tr d) (hd : d.Completed)
    (hf : c.Follows (Phase.Step runId) (fun _ => Terminal) [φ₀,φ₁]) (hφ₁ : φ₁.Announcing)
    (hR : Remarking runId c.state φ₀) : Settles runId c d tr := by
  have hpay : ∀ {s s' φ}, s'.payroll = s.payroll → Remarking runId s φ → Remarking runId s' φ := by
    intro s s' φ hp h
    cases h with
    | before found => exact .before (by rwa [findRun_of_payroll_eq hp])
    | listing status => exact .listing (by rw [statusOf_of_payroll_eq hp,status])
    | clearing status => exact .clearing (by rw [statusOf_of_payroll_eq hp,status])
    | inserting status => exact .inserting (by rw [statusOf_of_payroll_eq hp,status])
  obtain ⟨φ,hterm,hφ⟩ := terminal_after (J := Remarking runId) hpay Remarking.step hs hd hf hφ₁ hR
  have hst : statusOf d.state runId = some .processing := by
    cases hφ with
    | inserting status => exact status
    | _ => rcases hterm with hterm | hterm <;> cases hterm
  intro hfin
  rw [hst] at hfin
  cases hfin

theorem counting_after {n : ℕ} (hs : Steps c tr d) (hf : c.Follows (Phase.Step runId) (fun _ => Terminal) [φ₀,φ₁])
    (hφ₁ : φ₁.Announcing) (hC : Counting runId n c.state φ₀) :
    ∃ φ₀' φ₁', d.Follows (Phase.Step runId) (fun _ => Terminal) [φ₀',φ₁'] ∧ φ₁'.Announcing ∧
      Counting runId n d.state φ₀' := by
  have hpay : ∀ {s s' φ}, s'.payroll = s.payroll → Counting runId n s φ → Counting runId n s' φ := by
    intro s s' φ hp h
    obtain ⟨es,hes,hn⟩ := h.count
    exact ⟨by rw [statusOf_of_payroll_eq hp,h.status],es,hes,by rw [payslipsOf_of_payroll_eq hp,hn]⟩
  exact phases_after (J := Counting runId n) hpay Counting.step hs hf hφ₁ hC

/-- At the end everything that was left has been inserted. -/
theorem length_of_counting {n : ℕ} (hs : Steps c tr d) (hd : d.Completed)
    (hf : c.Follows (Phase.Step runId) (fun _ => Terminal) [φ₀,φ₁]) (hφ₁ : φ₁.Announcing)
    (hC : Counting runId n c.state φ₀) :
    statusOf d.state runId = some .finalized ∧ (payslipsOf d.state runId).length = n := by
  obtain ⟨φ₀',φ₁',hf',-,hC'⟩ := counting_after hs hf hφ₁ hC
  obtain ⟨-,hterm⟩ := hf'.post hd (show [φ₀',φ₁'][0]? = some φ₀' from rfl)
  exact ⟨hC'.status,hC'.length_of_terminal hterm⟩

theorem not_settles_of_inserting {e : Uuid} {es : List Uuid} (hs : Steps c tr d) (hd : d.Completed)
    (hf : c.Follows (Phase.Step runId) (fun _ => Terminal) [.inserting (e :: es),φ₁]) (hφ₁ : φ₁.Announcing)
    (hst : statusOf c.state runId = some .finalized) : ¬ Settles runId c d tr := by
  intro h
  obtain ⟨hfin,hlen⟩ := length_of_counting hs hd hf hφ₁ ⟨hst,e :: es,rfl,rfl⟩
  rw [(h hfin).1.last hs] at hlen
  simp at hlen

theorem Clearing.of_payroll_eq {companyId : Uuid} {employees : List Employee} {ps : List Payslip} {s s' : Store}
    {φ : Phase} (hp : s'.payroll = s.payroll) (h : Clearing runId companyId employees ps s φ) :
    Clearing runId companyId employees ps s' φ :=
  ⟨h.phase,by rw [statusOf_of_payroll_eq hp,h.status],by rw [payslipsOf_of_payroll_eq hp,h.payslips],
    by rw [hp,h.employees_eq]⟩

theorem Clearing.not_terminal {companyId : Uuid} {employees : List Employee} {ps : List Payslip} {s : Store}
    {φ : Phase} (h : Clearing runId companyId employees ps s φ) : ¬ Terminal φ := by
  rintro (rfl | rfl) <;> rcases h.phase with hφ | hφ <;> cases hφ

/-- The execution passes through the configuration right after the deletion. -/
theorem passes_deletion {companyId : Uuid} {employees : List Employee} {ps : List Payslip} (hs : Steps c tr d)
    (hd : d.Completed) (hf : c.Follows (Phase.Step runId) (fun _ => Terminal) [φ₀,φ₁]) (hφ₁ : φ₁.Announcing)
    (hC : Clearing runId companyId employees ps c.state φ₀) :
    ∃ tr₁ tr₂ e φ₀' φ₁', tr = tr₁ ++ tr₂ ∧ Steps c tr₁ e ∧ Steps e tr₂ d ∧
      e.Follows (Phase.Step runId) (fun _ => Terminal) [φ₀',φ₁'] ∧ φ₁'.Announcing ∧
      Counting runId (employees.filter (isActiveIn companyId)).length e.state φ₀' ∧
      payslipsOf e.state runId = [] := by
  obtain ⟨tr₁,tr₂,e,φs,htr,h₁,h₂,hfe,φ₀',φ₁',rfl,hφ₁',hcount,hnil⟩ := hs.passes (T := Phase.Step runId)
    (A := fun s φs => ∃ φ₀ φ₁, φs = [φ₀,φ₁] ∧ φ₁.Announcing ∧ Clearing runId companyId employees ps s φ₀)
    (B := fun s φs => ∃ φ₀ φ₁, φs = [φ₀,φ₁] ∧ φ₁.Announcing ∧
      Counting runId (employees.filter (isActiveIn companyId)).length s φ₀ ∧ payslipsOf s runId = [])
    (by
      rintro s φs i l φ φ' s' ⟨ψ₀,ψ₁,rfl,hψ₁,hψ₀⟩ hi ht
      match i with
      | 0 =>
        obtain rfl : ψ₀ = φ := by simpa using hi
        rcases hψ₀.step ht with h | ⟨h,hnil⟩
        · exact .inl ⟨φ',ψ₁,rfl,hψ₁,h⟩
        · exact .inr ⟨φ',ψ₁,rfl,hψ₁,h,hnil⟩
      | 1 =>
        obtain rfl : ψ₁ = φ := by simpa using hi
        obtain ⟨hφ',hp⟩ := hψ₁.step ht
        exact .inl ⟨ψ₀,φ',rfl,hφ',hψ₀.of_payroll_eq hp⟩
      | i + 2 => simp at hi)
    hf ⟨φ₀,φ₁,rfl,hφ₁,hC⟩
    (by
      rintro φs hfd ⟨ψ₀,ψ₁,rfl,-,hψ₀⟩
      obtain ⟨-,hterm⟩ := hfd.post hd (show [ψ₀,ψ₁][0]? = some ψ₀ from rfl)
      exact hψ₀.not_terminal hterm)
  exact ⟨tr₁,tr₂,e,φ₀',φ₁',htr,h₁,h₂,hfe,hφ₁',hcount,hnil⟩

/-- Before its deletion the computation is harmless only when it has nothing to delete
and nothing to insert. -/
theorem settles_of_clearing {companyId : Uuid} (hs : Steps c tr d) (hd : d.Completed)
    (hf : c.Follows (Phase.Step runId) (fun _ => Terminal) [φ₀,φ₁]) (hφ₁ : φ₁.Announcing)
    (hC : Clearing runId companyId c.state.payroll.employees (payslipsOf c.state runId) c.state φ₀) :
    Settles runId c d tr ↔ payslipsOf c.state runId = [] ∧ activeEmployees c.state companyId = [] := by
  constructor
  · intro h
    obtain ⟨tr₁,tr₂,e,φ₀',φ₁',htr,h₁,h₂,hfe,hφ₁',hcount,hnil⟩ := passes_deletion hs hd hf hφ₁ hC
    obtain ⟨hfin,hlen⟩ := length_of_counting h₂ hd hfe hφ₁' hcount
    have hstays := (h hfin).1
    have hps : payslipsOf c.state runId = [] := by rw [← (hstays tr₁ tr₂ e htr h₁).1,hnil]
    rw [hstays.last hs,hps,List.length_nil] at hlen
    exact ⟨hps,List.length_eq_zero_iff.mp hlen.symm⟩
  · rintro ⟨hps,hact⟩
    have hlen : (c.state.payroll.employees.filter (isActiveIn companyId)).length = 0 := by
      simpa [activeEmployees] using hact
    have hreach : ∀ {tr' e}, Steps c tr' e →
        payslipsOf e.state runId = [] ∧ statusOf e.state runId = some .finalized := by
      intro tr' e he
      obtain ⟨φ,_,_,_,hφ⟩ := phases_after
        (J := fun s φ => Clearing runId companyId c.state.payroll.employees [] s φ ∨ Counting runId 0 s φ)
        (by
          rintro s s' φ hp (h | h)
          · exact .inl (h.of_payroll_eq hp)
          · obtain ⟨es,hes,hn⟩ := h.count
            exact .inr ⟨by rw [statusOf_of_payroll_eq hp,h.status],es,hes,by rw [payslipsOf_of_payroll_eq hp,hn]⟩)
        (by
          rintro s s' φ l φ' (h | h) ht
          · rcases h.step ht with h | ⟨h,-⟩
            · exact .inl h
            · exact .inr (hlen ▸ h)
          · exact .inr (h.step ht))
        he hf hφ₁ (.inl (hps ▸ hC))
      rcases hφ with h | h
      · exact ⟨h.payslips,h.status⟩
      · obtain ⟨es,-,hn⟩ := h.count
        exact ⟨List.length_eq_zero_iff.mp (by omega),h.status⟩
    intro _
    constructor
    · intro tr₁ tr₂ e _ he
      rw [hps]
      exact hreach he
    · intro p hp
      rw [(hreach hs).1] at hp
      cases hp

end After

/-! ## All executions -/

theorem step_update {runId : Uuid} {s s' : Store} {φ φ' : Phase} (hφ : φ.Finalizing)
    (hfound : φ = .updating → findRun s runId ≠ none) (ht : Phase.Step runId φ s finalizing.2 φ' s') :
    φ' = .publishing ∧ ∃ now, s' = markFinalized runId now s := by
  cases ht with
  | finalized h => exact ⟨rfl,_,rfl⟩
  | updateFailed h => exact absurd h (hfound rfl)
  | marked h => exact hφ.elim
  | markFailed h => exact hφ.elim

theorem threads_eq_pair {c : Config Store Label ApiException Unit} {T : Phase → Store → Label → Phase → Store → Prop}
    {Post : Except ApiException Unit → Phase → Prop} {φ₀ φ₁ : Phase} (hf : c.Follows T Post [φ₀,φ₁]) :
    ∃ p₀ p₁, c.threads = [p₀,p₁] ∧ p₀.Follows T Post φ₀ := by
  have hlen := hf.length_eq
  have hfol := hf.follows 0 φ₀
  cases hc : c.threads with
  | nil =>
    rw [hc] at hlen
    cases hlen
  | cons p₀ ps =>
    rw [hc] at hlen hfol
    simp only [List.length_cons,List.length_nil] at hlen
    obtain ⟨p₁,rfl⟩ := List.length_eq_one_iff.mp (by omega : ps.length = 1)
    exact ⟨p₀,p₁,rfl,hfol p₀ rfl rfl⟩

/-- The finalizing update and what follows it, from any point of a race. -/
theorem settles_iff_undisturbed {s₀ : Store} {companyId runId : Uuid} {c c' d : Config Store Label ApiException Unit}
    {tr : List (ℕ × Label)} {φ₀ φ₁ : Phase} (hf : c.Follows (Phase.Step runId) (fun _ => Terminal) [φ₀,φ₁])
    (hr : Racing s₀ companyId runId c.state φ₀ φ₁) (hs : c.step 1 = some (finalizing.2,c')) (h : Steps c' tr d)
    (hd : d.Completed) : Settles runId c' d tr ↔ Undisturbed companyId runId c := by
  obtain ⟨φ,φ',hi,ht,hf'⟩ := hf.step hs
  obtain rfl : φ₁ = φ := by simpa using hi
  obtain ⟨rfl,now,hstate⟩ := step_update hr.finalizing hr.found ht
  have hupdating : φ₁ = .updating := by
    cases φ₁ with
    | updating => rfl
    | _ => cases ht
  have hst : statusOf c'.state runId = some .finalized := by
    rw [hstate]
    exact statusOf_updateMany (setFinalized now) (fun _ => rfl) (fun _ => rfl) (hr.found hupdating) rfl
  have hps : payslipsOf c'.state runId = payslipsOf c.state runId := by rw [hstate]; rfl
  have hact : activeEmployees c'.state companyId = activeEmployees c.state companyId := by rw [hstate]; rfl
  have herr : ErrorFree c'.state runId ↔ ErrorFree c.state runId := by rw [ErrorFree,hps,ErrorFree]
  obtain ⟨p₀,p₁,hthreads,hp₀⟩ := threads_eq_pair hf
  have hund : Undisturbed companyId runId c ↔ φ₀.Undisturbing companyId runId c.state := by
    rw [← undisturbed_iff p₁ hp₀ hr.computing,← hthreads]
  rw [hund]
  have hann : Phase.Announcing .publishing := .inl rfl
  have hcomp := hr.computing
  have hemp : c'.state.payroll.employees = s₀.payroll.employees := by rw [hstate]; exact hr.employees
  cases φ₀ with
  | checking company =>
    obtain rfl : company = companyId := hcomp
    rw [settles_of_idle company h hf' hann ⟨.inl rfl,hst,rfl⟩,herr]
    exact Iff.rfl
  | marking company =>
    exact ⟨fun _ => trivial,fun _ => settles_of_remarking h hd hf' hann (.before (statusOf_ne_none hst))⟩
  | listing company =>
    obtain rfl : company = companyId := hcomp
    rw [settles_of_clearing h hd hf' hann ⟨.inl rfl,hst,rfl,rfl⟩,hps,hact]
    exact Iff.rfl
  | clearing es =>
    obtain rfl : es = _ := hcomp
    rw [settles_of_clearing h hd hf' hann ⟨.inr (by rw [hemp,activeEmployees]),hst,rfl,rfl⟩,hps,hact]
    exact Iff.rfl
  | inserting es =>
    cases es with
    | nil =>
      rw [settles_of_idle companyId h hf' hann ⟨.inr (.inr rfl),hst,rfl⟩,herr]
      exact Iff.rfl
    | cons e es => exact iff_of_false (not_settles_of_inserting h hd hf' hann hst) not_false
  | returned =>
    rw [settles_of_idle companyId h hf' hann ⟨.inr (.inl rfl),hst,rfl⟩,herr]
    exact Iff.rfl
  | reading company => exact hcomp.elim
  | updating => exact hcomp.elim
  | publishing => exact hcomp.elim

theorem Race.follows_start (r : Race) (s : Store) :
    (r.start s).Follows (Phase.Step r.runId) (fun _ => Terminal)
      [.checking r.computeCompanyId,.reading r.finalizeCompanyId] := by
  refine ⟨rfl,?_⟩
  intro i φ p hi hp
  match i with
  | 0 =>
    obtain rfl : _ = φ := by simpa using hi
    obtain rfl : _ = p := by simpa [Race.start] using hp
    exact follows_computePayrollRun r.computeCompanyId r.runId r.ids r.computedAt
  | 1 =>
    obtain rfl : _ = φ := by simpa using hi
    obtain rfl : _ = p := by simpa [Race.start] using hp
    exact follows_finalizePayrollRun r.finalizeCompanyId r.runId r.finalizedAt
  | i + 2 => simp at hi

theorem Race.racing_start (r : Race) (s : Store) :
    Racing s r.computeCompanyId r.runId s (.checking r.computeCompanyId) (.reading r.finalizeCompanyId) :=
  ⟨rfl,rfl,trivial,fun h => by cases h⟩

/-- A finalized run was finalized from the start, and the computation left it alone. -/
def FinalizedFromStart (s₀ : Store) (runId companyId : Uuid) (s : Store) (φ₀ : Phase) : Prop :=
  statusOf s runId = some .finalized → statusOf s₀ runId = some .finalized ∧
    payslipsOf s runId = payslipsOf s₀ runId ∧ (φ₀ = .checking companyId ∨ φ₀ = .returned)

theorem statusOf_markProcessing_ne (s : Store) (runId : Uuid) :
    statusOf (markProcessing runId s) runId ≠ some .finalized := by
  rw [statusOf,findRun_updateMany setProcessing (s := s) (fun _ => rfl) rfl]
  cases findRun s runId <;> simp [setProcessing]

theorem FinalizedFromStart.step_zero {s₀ : Store} {runId companyId : Uuid} {s s' : Store} {φ₀ φ₀' φ₁ : Phase}
    {l : Label} (hr : Racing s₀ companyId runId s φ₀ φ₁) (h : FinalizedFromStart s₀ runId companyId s φ₀)
    (ht : Phase.Step runId φ₀ s l φ₀' s') : FinalizedFromStart s₀ runId companyId s' φ₀' := by
  have hcomp := hr.computing
  intro hst
  cases ht with
  | refused hc =>
    obtain ⟨h₀,hps,-⟩ := h hst
    exact ⟨h₀,hps,.inr rfl⟩
  | accepted hc =>
    rw [computable_of_finalized hst] at hc
    cases hc
  | marked hfound => exact absurd hst (statusOf_markProcessing_ne s runId)
  | markFailed hnone => exact absurd hst (statusOf_markProcessing_ne s runId)
  | listed => rcases (h hst).2.2 with hφ | hφ <;> cases hφ
  | cleared => rcases (h hst).2.2 with hφ | hφ <;> cases hφ
  | read => rcases (h hst).2.2 with hφ | hφ <;> cases hφ
  | inserted hrun he => rcases (h hst).2.2 with hφ | hφ <;> cases hφ
  | finalizeRefused hc => exact hcomp.elim
  | finalizePassed hc => exact hcomp.elim
  | finalized hc => exact hcomp.elim
  | updateFailed hc => exact hcomp.elim
  | announced => exact hcomp.elim

theorem FinalizedFromStart.step_one {s₀ : Store} {runId companyId : Uuid} {s s' : Store} {φ₀ φ₁ φ₁' : Phase}
    {l : Label} (hr : Racing s₀ companyId runId s φ₀ φ₁) (h : FinalizedFromStart s₀ runId companyId s φ₀)
    (hl : (1,l) ≠ finalizing) (ht : Phase.Step runId φ₁ s l φ₁' s') :
    FinalizedFromStart s₀ runId companyId s' φ₀ := by
  have hfin := hr.finalizing
  cases ht with
  | finalizeRefused hc => exact h
  | finalizePassed hc => exact h
  | finalized hc => exact absurd rfl hl
  | updateFailed hc => exact absurd rfl hl
  | announced => exact h
  | refused hc => exact hfin.elim
  | accepted hc => exact hfin.elim
  | marked hc => exact hfin.elim
  | markFailed hc => exact hfin.elim
  | listed => exact hfin.elim
  | cleared => exact hfin.elim
  | read => exact hfin.elim
  | inserted hrun he => exact hfin.elim

theorem errorFree_of_no_update {r : Race} {s : Store} {tr : List (ℕ × Label)}
    {d : Config Store Label ApiException Unit} (h : Steps (r.start s) tr d)
    (hclean : statusOf s r.runId = some .finalized → ErrorFree s r.runId) (htr : finalizing ∉ tr)
    (hfin : statusOf d.state r.runId = some .finalized) : ErrorFree d.state r.runId := by
  obtain ⟨φ₀,_,_,-,hkept⟩ := h.phases_pair (T := Phase.Step r.runId)
    (I := fun t φ₀ φ₁ => Racing s r.computeCompanyId r.runId t φ₀ φ₁ ∧
      FinalizedFromStart s r.runId r.computeCompanyId t φ₀)
    (fun _ hI ht => ⟨hI.1.step_zero ht,hI.2.step_zero hI.1 ht⟩)
    (fun hmem hI ht => ⟨hI.1.step_one ht,hI.2.step_one hI.1 (fun he => htr (he ▸ hmem)) ht⟩)
    (r.follows_start s) ⟨r.racing_start s,fun hst => ⟨hst,rfl,.inl rfl⟩⟩
  obtain ⟨h₀,hps,-⟩ := hkept hfin
  intro p hp
  rw [hps] at hp
  exact hclean h₀ p hp

/-- For every interleaving of a computation and a finalization of one run: if the run
ends up finalized then nothing touches it after the finalizing update and its payslips
carry no errors, exactly when the computation was undisturbed by that update. -/
theorem finalizedForGood_iff_updatesUndisturbed (r : Race) (s : Store) (tr : List (ℕ × Label))
    (d : Config Store Label ApiException Unit)
    (hclean : statusOf s r.runId = some .finalized → ErrorFree s r.runId) (h : Steps (r.start s) tr d)
    (hd : d.Completed) :
    FinalizedForGood r.runId (r.start s) tr d ↔
      UpdatesUndisturbed r.computeCompanyId r.runId (r.start s) tr := by
  have hat : ∀ tr₁ tr₂ c, tr = tr₁ ++ finalizing :: tr₂ → Steps (r.start s) tr₁ c →
      ∃ c', c.step 1 = some (finalizing.2,c') ∧
        (Settles r.runId c' d tr₂ ↔ Undisturbed r.computeCompanyId r.runId c) := by
    rintro tr₁ tr₂ c rfl h₁
    obtain ⟨e,he,hrest⟩ := h.split
    obtain rfl := he.det h₁
    obtain ⟨φ₀,φ₁,hf,hr⟩ := h₁.phases_pair (T := Phase.Step r.runId) (I := Racing s r.computeCompanyId r.runId)
      (fun _ hI ht => hI.step_zero ht) (fun _ hI ht => hI.step_one ht) (r.follows_start s) (r.racing_start s)
    obtain _ | ⟨hs,h₂⟩ := hrest
    exact ⟨_,hs,settles_iff_undisturbed hf hr hs h₂ hd⟩
  constructor
  · intro hgood tr₁ tr₂ c htr h₁
    obtain ⟨c',hs,hiff⟩ := hat tr₁ tr₂ c htr h₁
    exact hiff.mp fun hfin => ⟨(hgood hfin).1 tr₁ tr₂ c c' htr h₁ hs,(hgood hfin).2⟩
  · intro hund hfin
    have hsettles : ∀ tr₁ tr₂ c c', tr = tr₁ ++ finalizing :: tr₂ → Steps (r.start s) tr₁ c →
        c.step 1 = some (finalizing.2,c') → Settles r.runId c' d tr₂ := by
      intro tr₁ tr₂ c c' htr h₁ hs
      obtain ⟨c'',hs',hiff⟩ := hat tr₁ tr₂ c htr h₁
      rw [hs] at hs'
      cases hs'
      exact hiff.mpr (hund tr₁ tr₂ c htr h₁)
    refine ⟨fun tr₁ tr₂ c c' htr h₁ hs => (hsettles tr₁ tr₂ c c' htr h₁ hs hfin).1,?_⟩
    by_cases hmem : finalizing ∈ tr
    · obtain ⟨tr₁,tr₂,htr⟩ := List.append_of_mem hmem
      obtain ⟨c,h₁,-⟩ := Steps.split (htr ▸ h)
      obtain ⟨c',hs,-⟩ := hat tr₁ tr₂ c htr h₁
      exact (hsettles tr₁ tr₂ c c' htr h₁ hs hfin).2
    · exact errorFree_of_no_update h hclean hmem hfin

def oneRace : Race := ⟨40,1,fun i => 100 + i,500,1,1000⟩

/-- The computation first, then the finalization. -/
theorem finalizedForGood_iff_updatesUndisturbed_sequential :
    ∃ tr d, Steps (oneRace.start (staffedStore (some "34-1"))) tr d ∧
      statusOf d.state 40 = some .finalized ∧
      (FinalizedForGood 40 (oneRace.start (staffedStore (some "34-1"))) tr d ↔
        UpdatesUndisturbed 1 40 (oneRace.start (staffedStore (some "34-1"))) tr) := by
  obtain ⟨tr,d,h,hd,hst⟩ : ∃ tr d, Steps (oneRace.start (staffedStore (some "34-1"))) tr d ∧ d.Completed ∧
      statusOf d.state 40 = some .finalized :=
    Steps.exists_of_play [0,0,0,0,0,0,0,0,0,1,1,1] (by decide +kernel)
  have hdraft : statusOf (staffedStore (some "34-1")) 40 ≠ some .finalized := by decide +kernel
  exact ⟨tr,d,h,hst,finalizedForGood_iff_updatesUndisturbed oneRace (staffedStore (some "34-1")) tr d
    (fun hfin => absurd hfin hdraft) h hd⟩

/-- The finalization reads the run before the computation starts and updates it right
after the deletion; the payslip inserted then lacks an SSS number. -/
theorem oneRace_not_finalizedForGood :
    statusOf (staffedStore none) 40 = some .draft ∧
      ∃ tr d, Steps (oneRace.start (staffedStore none)) tr d ∧ d.Completed ∧
        ¬ FinalizedForGood 40 (oneRace.start (staffedStore none)) tr d := by
  refine ⟨by decide +kernel,?_⟩
  obtain ⟨tr,d,h,hd,hst,herr⟩ : ∃ tr d, Steps (oneRace.start (staffedStore none)) tr d ∧ d.Completed ∧
      statusOf d.state 40 = some .finalized ∧ ¬ ErrorFree d.state 40 :=
    Steps.exists_of_play [1,0,0,0,0,1,0,0,0,0,1] (by decide +kernel)
  exact ⟨tr,d,h,hd,fun hgood => herr (hgood hst).2⟩

end PinoyTax.Payroll
