import PinoyTax.Foundation.Isolation
import PinoyTax.Schema.Prisma

/-! # What a company sees of the store

The restriction to a company keeps its own rows and the shared tables, as if no other
company were registered. A payslip belongs to the company of its run and a document
version to the company of its document. Messages about the company are kept from a
given one on, so that stores can be compared by their rows and by what is sent next.
The rules say which calls of the database client are isolated: those that filter by the
company, and those by primary key that compare the company of the row before they go on.
-/
namespace PinoyTax.Tenancy
open PinoyTax Foundation

def ownsRun (companyId : Uuid) (s : Store) (runId : Uuid) : Bool :=
  s.payroll.payrollRuns.any (fun r => decide (r.id = runId) && decide (r.companyId = companyId))

def ownsDocument (companyId : Uuid) (s : Store) (documentId : Uuid) : Bool :=
  s.documents.vaultDocuments.any (fun d => decide (d.id = documentId) && decide (d.companyId = companyId))

/-- The messages about the company that left so far. -/
def eventsOf (companyId : Uuid) (s : Store) : List DomainEvent := s.published.filter (fun e => e.companyId = companyId)

/-- The rows of one company, the users and the tax rules, and the messages about the
company after so many that have been seen. -/
def restrict (companyId : Uuid) (seen : ℕ) (s : Store) : Store where
  identity := { users := s.identity.users }
  org := { companies := s.org.companies.filter (fun c => c.id = companyId) }
  payroll :=
    { employees := s.payroll.employees.filter (fun e => e.companyId = companyId)
      payrollRuns := s.payroll.payrollRuns.filter (fun r => r.companyId = companyId)
      payslips := s.payroll.payslips.filter (fun p => ownsRun companyId s p.payrollRunId) }
  taxEngine :=
    { taxRules := s.taxEngine.taxRules
      taxComputations := s.taxEngine.taxComputations.filter (fun c => c.companyId = companyId) }
  compliance :=
    { filingDeadlines := s.compliance.filingDeadlines.filter (fun d => d.companyId = companyId)
      complianceStatus := s.compliance.complianceStatus.filter (fun c => c.companyId = companyId)
      flaggedIssues := s.compliance.flaggedIssues.filter (fun i => i.companyId = companyId) }
  documents :=
    { folders := s.documents.folders.filter (fun f => f.companyId = companyId)
      vaultDocuments := s.documents.vaultDocuments.filter (fun d => d.companyId = companyId)
      documentVersions := s.documents.documentVersions.filter (fun v => ownsDocument companyId s v.documentId) }
  published := (eventsOf companyId s).drop seen

/-- What the database enforces: primary keys of the tables with look-ups by id, and the
reference of a version to its document. -/
structure Constraints (s : Store) : Prop where
  employees : (s.payroll.employees.map Employee.id).Nodup
  payrollRuns : (s.payroll.payrollRuns.map PayrollRun.id).Nodup
  taxComputations : (s.taxEngine.taxComputations.map TaxComputation.id).Nodup
  complianceStatus : (s.compliance.complianceStatus.map ComplianceStatus.id).Nodup
  flaggedIssues : (s.compliance.flaggedIssues.map FlaggedIssue.id).Nodup
  folders : (s.documents.folders.map Folder.id).Nodup
  vaultDocuments : (s.documents.vaultDocuments.map VaultDocument.id).Nodup
  documentVersions : ∀ v ∈ s.documents.documentVersions, ∃ d ∈ s.documents.vaultDocuments, d.id = v.documentId

/-- No payslip pays an employee of one company in a run of another. -/
structure WellFormed (s : Store) : Prop extends Constraints s where
  payslips : ∀ p ∈ s.payroll.payslips, ∃ r ∈ s.payroll.payrollRuns, r.id = p.payrollRunId ∧
    ∃ e ∈ s.payroll.employees, e.id = p.employeeId ∧ e.companyId = r.companyId

/-- The change from `s` to `t` is confined to the company. -/
structure Confined (companyId : Uuid) (s t : Store) : Prop where
  wellFormed : WellFormed t
  others : ∀ other, other ≠ companyId → restrict other 0 t = restrict other 0 s
  identity : t.identity = s.identity
  org : t.org = s.org
  taxRules : t.taxEngine.taxRules = s.taxEngine.taxRules

theorem Confined.refl {companyId : Uuid} {s : Store} (hs : WellFormed s) : Confined companyId s s :=
  ⟨hs,fun _ _ => rfl,rfl,rfl,rfl⟩

theorem Confined.trans {companyId : Uuid} {s t u : Store} (hst : Confined companyId s t)
    (htu : Confined companyId t u) : Confined companyId s u where
  wellFormed := htu.wellFormed
  others other hne := (htu.others other hne).trans (hst.others other hne)
  identity := htu.identity.trans hst.identity
  org := htu.org.trans hst.org
  taxRules := htu.taxRules.trans hst.taxRules

def boundary (companyId : Uuid) (seen : ℕ) : Boundary Store where
  restrict := restrict companyId seen
  Allows := Confined companyId
  trans := Confined.trans

/-- What an isolated request leaves is well formed. -/
theorem isolates_wellFormed {α : Type} {companyId : Uuid} {seen : ℕ} {P : Store → Prop} {p : Request α}
    {Q : α → Store → Prop} (h : Isolates (boundary companyId seen) P p Q) :
    Isolates (boundary companyId seen) P p (fun a s => WellFormed s ∧ Q a s) :=
  ⟨h.commutes,h.allowed,fun s hs a ha => ⟨(h.allowed s hs).run.wellFormed,h.result s hs a ha⟩⟩

/-! ## Tables whose rows belong to companies -/

structure ScopedTable (ρ : Type) where
  table : TableRef ρ
  owns : Uuid → Store → ρ → Bool
  get_restrict : ∀ c seen s, table.get (restrict c seen s) = (table.get s).filter (owns c s)
  set_get : ∀ s, table.set (table.get s) s = s
  identity_set : ∀ s rows, (table.set rows s).identity = s.identity
  org_set : ∀ s rows, (table.set rows s).org = s.org
  taxRules_set : ∀ s rows, (table.set rows s).taxEngine.taxRules = s.taxEngine.taxRules

/-- A table whose rows are not looked up by their key; each points to rows that are there. -/
structure ChildTable (ρ : Type) extends ScopedTable ρ where
  Points : Store → ρ → Prop
  points : ∀ {s}, WellFormed s → ∀ r ∈ table.get s, Points s r
  wellFormed_set : ∀ {s rows}, WellFormed s → (∀ r ∈ rows, Points s r) → WellFormed (table.set rows s)
  restrict_set : ∀ c seen s rows,
    restrict c seen (table.set rows s) = table.set (rows.filter (owns c s)) (restrict c seen s)

/-- Every key in use names the same companies in the new rows. -/
def Steady {ρ : Type} (key owner : ρ → Uuid) (old new : List ρ) : Prop :=
  ∀ r ∈ old, ∀ c, (∃ q ∈ new, key q = key r ∧ owner q = c) ↔ ∃ q ∈ old, key q = key r ∧ owner q = c

/-- A table with a primary key whose rows name their company. -/
structure KeyedTable (ρ : Type) extends ScopedTable ρ where
  key : ρ → Uuid
  owner : ρ → Uuid
  owns_eq : ∀ c s, owns c s = fun r => decide (owner r = c)
  get_set : ∀ s rows, table.get (table.set rows s) = rows
  unique : ∀ {s}, WellFormed s → ((table.get s).map key).Nodup
  wellFormed_set : ∀ {s rows}, WellFormed s → Steady key owner (table.get s) rows → (rows.map key).Nodup →
    WellFormed (table.set rows s)
  restrict_set : ∀ {s rows}, WellFormed s → Steady key owner (table.get s) rows →
    ∀ c seen, restrict c seen (table.set rows s) = table.set (rows.filter (fun r => owner r = c)) (restrict c seen s)

/-- The row with this key is there and is the company's. -/
def Has {ρ : Type} (T : KeyedTable ρ) (companyId k : Uuid) (s : Store) : Prop :=
  ∃ r ∈ T.table.get s, T.key r = k ∧ T.owner r = companyId

section Steady
variable {ρ : Type} {key owner : ρ → Uuid} {rows : List ρ}

theorem steady_append {new : List ρ} (hnew : ∀ r ∈ new, key r ∉ rows.map key) :
    Steady key owner rows (rows ++ new) := by
  intro r hr c
  constructor
  · rintro ⟨q,hq,hkey,howner⟩
    rcases List.mem_append.mp hq with hq | hq
    · exact ⟨q,hq,hkey,howner⟩
    · exact absurd (List.mem_map.mpr ⟨r,hr,hkey.symm⟩) (hnew q hq)
  · rintro ⟨q,hq,hkey,howner⟩
    exact ⟨q,List.mem_append_left _ hq,hkey,howner⟩

theorem steady_updateMany {p : ρ → Bool} {f : ρ → ρ} (hkey : ∀ r, key (f r) = key r)
    (howner : ∀ r, owner (f r) = owner r) : Steady key owner rows (Table.updateMany p f rows) := by
  intro r _ c
  constructor
  · rintro ⟨q,hq,hqr,hqc⟩
    rcases Table.mem_updateMany_cases hq with ⟨hq,-⟩ | ⟨u,hu,-,rfl⟩
    · exact ⟨q,hq,hqr,hqc⟩
    · exact ⟨u,hu,(hkey u).symm.trans hqr,(howner u).symm.trans hqc⟩
  · rintro ⟨q,hq,hqr,hqc⟩
    cases hp : p q with
    | false => exact ⟨q,Table.mem_updateMany_of_mem hq hp,hqr,hqc⟩
    | true => exact ⟨f q,Table.mem_updateMany_image hq hp,(hkey q).trans hqr,(howner q).trans hqc⟩

end Steady

/-! ## Reading the rows of the company -/

section Reading
variable {ρ : Type} (T : ScopedTable ρ) {companyId : Uuid} {seen : ℕ} {P : Store → Prop} {p : ρ → Bool}

theorem filter_restrict {s : Store} (hp : ∀ r, p r = true → T.owns companyId s r = true) :
    (T.table.get (restrict companyId seen s)).filter p = (T.table.get s).filter p := by
  rw [T.get_restrict,List.filter_filter]
  apply List.filter_congr
  intro r _
  cases h : p r with
  | false => rfl
  | true => rw [hp r h,Bool.and_self]

theorem find?_restrict {s : Store} (hp : ∀ r, p r = true → T.owns companyId s r = true) :
    (T.table.get (restrict companyId seen s)).find? p = (T.table.get s).find? p := by
  rw [← List.head?_filter,← List.head?_filter,filter_restrict T hp]

theorem isolates_findMany (hP : ∀ s, P s → WellFormed s)
    (hp : ∀ s, P s → ∀ r, p r = true → T.owns companyId s r = true) :
    Isolates (boundary companyId seen) P (T.table.findMany p) (fun rows s => P s ∧ rows = (T.table.get s).filter p) :=
  .query (fun s hs => .refl (hP s hs)) (fun s hs => filter_restrict T (hp s hs)) fun _ hs => ⟨hs,rfl⟩

theorem isolates_findFirst (hP : ∀ s, P s → WellFormed s)
    (hp : ∀ s, P s → ∀ r, p r = true → T.owns companyId s r = true) :
    Isolates (boundary companyId seen) P (T.table.findFirst p) (fun row s => P s ∧ row = (T.table.get s).find? p) :=
  .query (fun s hs => .refl (hP s hs)) (fun s hs => find?_restrict T (hp s hs)) fun _ hs => ⟨hs,rfl⟩

theorem isolates_count (hP : ∀ s, P s → WellFormed s)
    (hp : ∀ s, P s → ∀ r, p r = true → T.owns companyId s r = true) :
    Isolates (boundary companyId seen) P (T.table.count p) (fun _ s => P s) :=
  .query (fun s hs => .refl (hP s hs)) (fun s hs => congrArg List.length (filter_restrict T (hp s hs)))
    fun _ hs => hs

end Reading

/-! ## Writing rows of the company, and finding a row by its key -/

section Children
variable {ρ : Type} (T : ChildTable ρ) {companyId : Uuid} {seen : ℕ} {P : Store → Prop}

/-- A statement that puts other rows of the company in place of its rows. -/
theorem isolates_setRows {α : Type} {l : Label} {a : α} {f : List ρ → List ρ} (hP : ∀ s, P s → WellFormed s)
    (hpoints : ∀ s, P s → ∀ r ∈ f (T.table.get s), T.Points s r)
    (hmine : ∀ s, P s → f ((T.table.get s).filter (T.owns companyId s)) =
      (f (T.table.get s)).filter (T.owns companyId s))
    (hothers : ∀ s, P s → ∀ other, other ≠ companyId →
      (f (T.table.get s)).filter (T.owns other s) = (T.table.get s).filter (T.owns other s)) :
    Isolates (boundary companyId seen) P
      (.stmt l (fun s => T.table.set (f (T.table.get s)) s) fun _ => .done (.ok a) : Request α)
      (fun _ t => ∃ s, P s ∧ t = T.table.set (f (T.table.get s)) s) := by
  refine .stmt (fun s hs => Confined.refl (hP s hs)) (fun s hs => ?_) (fun s hs => ?_) (fun _ _ => rfl) ?_
  · refine ⟨T.wellFormed_set (hP s hs) (hpoints s hs),fun other hne => ?_,T.identity_set _ _,T.org_set _ _,
      T.taxRules_set _ _⟩
    rw [T.restrict_set,hothers s hs other hne,← T.get_restrict,T.set_get]
  · simp only [boundary]
    rw [T.restrict_set,T.get_restrict,hmine s hs]
  · intro s _ hs _
    exact ⟨s,hs,rfl⟩

/-- New rows of the company alone. -/
theorem isolates_append {α : Type} {l : Label} {a : α} {rows : List ρ} (hP : ∀ s, P s → WellFormed s)
    (hpoints : ∀ s, P s → ∀ r ∈ rows, T.Points s r)
    (howns : ∀ s, P s → ∀ r ∈ rows, ∀ c, T.owns c s r = true ↔ c = companyId) :
    Isolates (boundary companyId seen) P
      (.stmt l (fun s => T.table.set (T.table.get s ++ rows) s) fun _ => .done (.ok a) : Request α)
      (fun _ t => ∃ s, P s ∧ t = T.table.set (T.table.get s ++ rows) s) := by
  refine isolates_setRows (f := fun old => old ++ rows) T hP (fun s hs r hr => ?_) (fun s hs => ?_)
    fun s hs other hne => ?_
  · rcases List.mem_append.mp hr with hr | hr
    · exact T.points (hP s hs) r hr
    · exact hpoints s hs r hr
  · rw [List.filter_append]
    congr 1
    exact (List.filter_eq_self.mpr fun r hr => (howns s hs r hr companyId).mpr rfl).symm
  · rw [List.filter_append]
    have hnone : rows.filter (T.owns other s) = [] :=
      List.filter_eq_nil_iff.mpr fun r hr h => hne ((howns s hs r hr other).mp h)
    rw [hnone,List.append_nil]

theorem isolates_deleteMany {p : ρ → Bool} (hP : ∀ s, P s → WellFormed s)
    (howns : ∀ s, P s → ∀ r, p r = true → ∀ c, T.owns c s r = true → c = companyId) :
    Isolates (boundary companyId seen) P (T.table.deleteMany p)
      (fun _ t => ∃ s, P s ∧ t = T.table.set (Table.deleteMany p (T.table.get s)) s) := by
  refine isolates_setRows T hP (fun s hs r hr => ?_) (fun s hs => ?_) fun s hs other hne => ?_
  · exact T.points (hP s hs) r (List.mem_filter.mp hr).1
  · unfold Table.deleteMany
    rw [List.filter_filter,List.filter_filter]
    apply List.filter_congr
    intro r _
    exact Bool.and_comm _ _
  · unfold Table.deleteMany
    rw [List.filter_filter]
    apply List.filter_congr
    intro r _
    cases hown : T.owns other s r with
    | false => rfl
    | true =>
      have hkept : p r = false := by
        cases hpr : p r with
        | false => rfl
        | true => exact absurd (howns s hs r hpr other hown) hne
      rw [hkept]
      rfl

end Children

section Writing
variable {ρ : Type} (T : KeyedTable ρ) {companyId : Uuid} {seen : ℕ} {P : Store → Prop}

theorem KeyedTable.get_restrict_owner (c : Uuid) (seen : ℕ) (s : Store) :
    T.table.get (restrict c seen s) = (T.table.get s).filter (fun r => T.owner r = c) := by
  rw [T.get_restrict,T.owns_eq]

theorem has_updateMany {k : Uuid} {p : ρ → Bool} {f : ρ → ρ} (hkey : ∀ r, T.key (f r) = T.key r)
    (howner : ∀ r, T.owner (f r) = T.owner r) {s : Store} (h : Has T companyId k s) :
    Has T companyId k (T.table.set (Table.updateMany p f (T.table.get s)) s) := by
  obtain ⟨r,hr,rfl,hc⟩ := h
  have hsteady : Steady T.key T.owner (T.table.get s) (Table.updateMany p f (T.table.get s)) :=
    steady_updateMany hkey howner
  obtain ⟨q,hq,hqr⟩ := (hsteady r hr companyId).mpr ⟨r,hr,rfl,hc⟩
  refine ⟨q,?_,hqr⟩
  rw [T.get_set]
  exact hq

/-- The rows of the others are the same rows. -/
theorem KeyedTable.restrict_set_other {s : Store} {rows : List ρ} (hs : WellFormed s)
    (hsteady : Steady T.key T.owner (T.table.get s) rows) {other : Uuid}
    (hrows : rows.filter (fun r => T.owner r = other) = (T.table.get s).filter (fun r => T.owner r = other)) :
    restrict other 0 (T.table.set rows s) = restrict other 0 s := by
  rw [T.restrict_set hs hsteady,hrows,← T.get_restrict_owner,T.set_get]

theorem KeyedTable.confined {s : Store} {rows : List ρ} (hs : WellFormed s)
    (hsteady : Steady T.key T.owner (T.table.get s) rows) (hkeys : (rows.map T.key).Nodup)
    (hrows : ∀ other, other ≠ companyId →
      rows.filter (fun r => T.owner r = other) = (T.table.get s).filter (fun r => T.owner r = other)) :
    Confined companyId s (T.table.set rows s) where
  wellFormed := T.wellFormed_set hs hsteady hkeys
  others other hne := T.restrict_set_other hs hsteady (hrows other hne)
  identity := T.identity_set s rows
  org := T.org_set s rows
  taxRules := T.taxRules_set s rows

theorem isolates_create (hP : ∀ s, P s → WellFormed s) {row : ρ} (howner : T.owner row = companyId)
    (hfresh : ∀ s, P s → T.key row ∉ (T.table.get s).map T.key) :
    Isolates (boundary companyId seen) P (T.table.create row)
      (fun r t => r = row ∧ ∃ s, P s ∧ t = T.table.set (T.table.get s ++ [row]) s) := by
  have hsteady (s : Store) (hs : P s) : Steady T.key T.owner (T.table.get s) (T.table.get s ++ [row]) := by
    apply steady_append
    intro r hr
    rw [List.mem_singleton.mp hr]
    exact hfresh s hs
  refine .stmt (fun s hs => .refl (hP s hs)) (fun s hs => ?_) (fun s hs => ?_) (fun _ _ => rfl) ?_
  · refine T.confined (hP s hs) (hsteady s hs) ?_ fun other hne => ?_
    · exact Table.nodup_append_fresh (T.unique (hP s hs)) fun q hq he => hfresh s hs (List.mem_map.mpr ⟨q,hq,he⟩)
    · simp [List.filter_append,howner,Ne.symm hne]
  · have hset := T.restrict_set (hP s hs) (hsteady s hs) companyId seen
    rw [List.filter_append,← T.get_restrict_owner companyId seen] at hset
    simp only [boundary,hset]
    simp [howner]
  · intro s r hs hr
    cases hr
    exact ⟨rfl,s,hs,rfl⟩

/-- An update by primary key, of a row that is known to be the company's. -/
theorem isolates_update (hP : ∀ s, P s → WellFormed s) {k : Uuid} {p : ρ → Bool} {f : ρ → ρ}
    (hp : ∀ r, p r = true ↔ T.key r = k) (hkey : ∀ r, T.key (f r) = T.key r) (howner : ∀ r, T.owner (f r) = T.owner r)
    (hrow : ∀ s, P s → Has T companyId k s) :
    Isolates (boundary companyId seen) P (T.table.update p f)
      (fun r' t => ∃ s, P s ∧ t = T.table.set (Table.updateMany p f (T.table.get s)) s ∧
        ∃ r ∈ T.table.get s, T.key r = k ∧ T.owner r = companyId ∧ r' = f r) := by
  have hsteady (s : Store) : Steady T.key T.owner (T.table.get s) (Table.updateMany p f (T.table.get s)) :=
    steady_updateMany hkey howner
  have hmine (s : Store) (hs : P s) (r : ρ) (hr : r ∈ T.table.get s) (hpr : p r = true) : T.owner r = companyId := by
    obtain ⟨q,hq,hqk,hqc⟩ := hrow s hs
    rw [Table.eq_of_key (T.unique (hP s hs)) hr hq (((hp r).mp hpr).trans hqk.symm)]
    exact hqc
  have hcommute (s : Store) (c : Uuid) : (Table.updateMany p f (T.table.get s)).filter (fun r => T.owner r = c) =
      Table.updateMany p f ((T.table.get s).filter (fun r => T.owner r = c)) :=
    Table.filter_updateMany (fun r => by rw [howner]) _
  have hfind (s : Store) (hs : P s) : (T.table.get (restrict companyId seen s)).find? p = (T.table.get s).find? p := by
    rw [T.get_restrict_owner,← List.head?_filter,← List.head?_filter,List.filter_filter]
    congr 1
    apply List.filter_congr
    intro r hr
    cases hpr : p r with
    | false => rfl
    | true => simp [hmine s hs r hr hpr]
  rw [TableRef.update_eq]
  refine .stmt (fun s hs => Confined.refl (hP s hs)) (fun s hs => ?_) (fun s hs => ?_) (fun s hs => ?_) ?_
  · apply T.confined (hP s hs) (hsteady s) (Table.nodup_updateMany hkey (T.unique (hP s hs)))
    intro other hne
    rw [hcommute]
    apply Table.updateMany_eq_self
    intro r hr hpr
    obtain ⟨hr,hother⟩ := List.mem_filter.mp hr
    exact absurd ((of_decide_eq_true hother).symm.trans (hmine s hs r hr hpr)) hne
  · have hset := T.restrict_set (hP s hs) (hsteady s) companyId seen
    rw [hcommute,← T.get_restrict_owner companyId seen] at hset
    exact hset.symm
  · unfold TableRef.updateReply
    simp only [boundary,hfind s hs]
  · intro s r' hs hr'
    obtain ⟨r,hr,hrk,hrc⟩ := hrow s hs
    unfold TableRef.updateReply at hr'
    cases hf : (T.table.get s).find? p with
    | none => exact absurd ((hp r).mpr hrk) (List.find?_eq_none.mp hf r hr)
    | some q =>
      rw [hf] at hr'
      cases hr'
      have hq := List.mem_of_find?_eq_some hf
      have hpq := List.find?_some hf
      exact ⟨s,hs,rfl,q,hq,(hp q).mp hpq,hmine s hs q hq hpq,rfl⟩

/-- A look-up by primary key, with the rows it includes, whose row must be the company's:
of another company's row the reply is the one for a row that does not exist. -/
theorem isolates_findOwnedView {τ : Type} {l : Label} {view : Store → ρ → τ} {ownerOf : τ → Uuid}
    (hP : ∀ s, P s → WellFormed s) (e : ApiException) (k : Uuid)
    (hview : ∀ s, P s → ∀ r ∈ T.table.get s, T.owner r = companyId → view (restrict companyId seen s) r = view s r)
    (hownerOf : ∀ s r, ownerOf (view s r) = T.owner r) :
    Isolates (boundary companyId seen) P
      (.query l (fun s => ((T.table.get s).find? (fun r => T.key r = k)).map (view s)) >>= ownedBy ownerOf companyId e)
      (fun x s => P s ∧ ∃ r ∈ T.table.get s, T.key r = k ∧ T.owner r = companyId ∧ x = view s r) := by
  have howned (s : Store) (r : ρ) : ownedBy ownerOf companyId e (some (view s r)) =
      if T.owner r = companyId then .done (.ok (view s r)) else .throw e := by rw [ownedBy,hownerOf]
  have hfind (s : Store) (hs : P s) : (T.table.get (restrict companyId seen s)).find? (fun r => T.key r = k) =
      ((T.table.get s).find? (fun r => T.key r = k)).filter (fun r => T.owner r = companyId) := by
    rw [T.get_restrict_owner]
    exact Table.find?_filter_key (T.unique (hP s hs)) _ k
  refine ⟨fun s hs => ?_,fun s hs => ⟨.refl (hP s hs),?_⟩,fun s hs x hx => ?_⟩
  · rw [Prog.run_bind,Prog.run_bind,Prog.run_query,Prog.run_query,Prog.resume_ok,Prog.resume_ok]
    simp only [boundary,hfind s hs]
    cases hf : (T.table.get s).find? (fun r => T.key r = k) with
    | none => rfl
    | some r =>
      by_cases hr : T.owner r = companyId
      · have hsame := hview s hs r (List.mem_of_find?_eq_some hf) hr
        rw [Option.filter_some,if_pos (decide_eq_true hr),Option.map_some,Option.map_some,hsame,howned,if_pos hr]
        rfl
      · rw [Option.filter_some,if_neg (by simpa using hr),Option.map_some,howned,if_neg hr]
        rfl
  · change Prog.Within _ (ownedBy ownerOf companyId e
      (((T.table.get s).find? fun r => T.key r = k).map (view s))) s
    cases (T.table.get s).find? (fun r => T.key r = k) with
    | none => exact .refl (hP s hs)
    | some r =>
      rw [Option.map_some,howned]
      split <;> exact .refl (hP s hs)
  · rw [Prog.run_bind,Prog.run_query,Prog.resume_ok] at hx ⊢
    cases hf : (T.table.get s).find? (fun r => T.key r = k) with
    | none =>
      rw [hf] at hx
      cases hx
    | some r =>
      rw [hf,Option.map_some,howned] at hx
      rw [Option.map_some,howned]
      by_cases hr : T.owner r = companyId
      · rw [if_pos hr] at hx ⊢
        cases hx
        exact ⟨hs,r,(Table.find?_key_some hf).1,(Table.find?_key_some hf).2,hr,rfl⟩
      · rw [if_neg hr] at hx
        cases hx

theorem isolates_findOwned (hP : ∀ s, P s → WellFormed s) (e : ApiException) (k : Uuid) {p : ρ → Bool}
    (hp : ∀ r, p r = decide (T.key r = k)) :
    Isolates (boundary companyId seen) P (T.table.findUnique p >>= ownedBy T.owner companyId e)
      (fun r s => P s ∧ r ∈ T.table.get s ∧ T.key r = k ∧ T.owner r = companyId) := by
  have hfind : T.table.findUnique p = .query (.on T.table.entity .findUnique)
      (fun s => ((T.table.get s).find? (fun r => T.key r = k)).map fun r => r) := by
    unfold TableRef.findUnique
    rw [show p = fun r => decide (T.key r = k) from funext hp]
    simp only [Option.map_id']
  rw [hfind]
  apply (isolates_findOwnedView T hP e k (fun _ _ _ _ _ => rfl) fun _ _ => rfl).post
  rintro x s ⟨hs,r,hr,hk,hc,rfl⟩
  exact ⟨hs,hr,hk,hc⟩

end Writing

end PinoyTax.Tenancy
