import PinoyTax.Payroll.Requests

/-! # Finalized runs under later requests

A finalized or paid run is compared with itself in every later state: its row, its
payslips and the events that announce it. Computing checks the status first and
leaves such a run alone; finalizing has no status check.
-/
namespace PinoyTax.Payroll
open PinoyTax Foundation Runs

def announces (runId : Uuid) : DomainEvent → Bool
  | .payrollFinalized payrollRunId _ => payrollRunId = runId
  | _ => false

/-- The `payroll.finalized` events of a run. -/
def announcements (s : Store) (runId : Uuid) : List DomainEvent := s.published.filter (announces runId)

structure Kept (r : PayrollRun) (s t : Store) : Prop where
  row : r ∈ t.payroll.payrollRuns
  payslips : payslipsOf t r.id = payslipsOf s r.id
  events : announcements t r.id = announcements s r.id

/-- The later store has every finalized or paid run of the earlier one as it was. -/
def KeepsImmutable (s t : Store) : Prop :=
  ∀ r ∈ s.payroll.payrollRuns, immutable r.status = true → Kept r s t

/-- A finalization that goes through on a run that is finalized or paid already. -/
def Refinalizes (s : Store) : PayrollRequest → Prop
  | .finalizePayrollRun companyId payrollRunId _ =>
    (finalizable s companyId payrollRunId).any (fun run => immutable run.status) = true
  | _ => False

theorem Kept.refl {r : PayrollRun} {s : Store} (h : r ∈ s.payroll.payrollRuns) : Kept r s s := ⟨h,rfl,rfl⟩

theorem keepsImmutable_refl (s : Store) : KeepsImmutable s s := fun _ hr _ => .refl hr

theorem keepsImmutable_trans (s t u : Store) (hst : KeepsImmutable s t) (htu : KeepsImmutable t u) :
    KeepsImmutable s u := by
  intro r hr hi
  have h1 := hst r hr hi
  have h2 := htu r h1.row hi
  exact ⟨h2.row,h2.payslips.trans h1.payslips,h2.events.trans h1.events⟩

theorem announcements_finalized_of_ne {s : Store} {run : PayrollRun} {now : DateTime} {other : Uuid}
    (hne : other ≠ run.id) : announcements (finalized run now s) other = announcements s other := by
  simp only [announcements,finalized,List.filter_append]
  simp [announces,Ne.symm hne]

theorem announcements_finalized (s : Store) (run : PayrollRun) (now : DateTime) :
    announcements (finalized run now s) run.id =
      announcements s run.id ++ [.payrollFinalized run.id run.companyId] := by
  simp only [announcements,finalized,List.filter_append]
  simp [announces]

/-- One request keeps the immutable runs exactly when it does not finalize one again. -/
theorem keepsImmutable_next_iff {s : Store} (hs : Keyed s) (req : PayrollRequest) :
    KeepsImmutable s (next s req) ↔ ¬ Refinalizes s req := by
  have ht := transition_next s req
  generalize next s req = t at ht ⊢
  cases ht with
  | hired companyId dto id =>
    exact ⟨fun _ => not_false,fun _ r hr hi => ⟨hr,rfl,rfl⟩⟩
  | opened companyId dto createdById id now =>
    exact ⟨fun _ => not_false,fun _ r hr hi => ⟨List.mem_append_left _ hr,rfl,rfl⟩⟩
  | computeKept h => exact ⟨fun _ => not_false,fun _ => keepsImmutable_refl s⟩
  | @computeMarked companyId runId ids now cut run h hcut =>
    refine ⟨fun _ => not_false,fun _ r hr hi => ?_⟩
    obtain ⟨hf,-,hn⟩ := computable_eq_some.mp h
    have hne := ne_of_not_immutable hs hr hi (List.mem_of_find?_eq_some hf) hn
    exact ⟨mem_updateMany_of_ne hr hne,rfl,rfl⟩
  | @computeInserted companyId runId ids now cut run h k hk =>
    refine ⟨fun _ => not_false,fun _ r hr hi => ?_⟩
    obtain ⟨hf,-,hn⟩ := computable_eq_some.mp h
    have hne := ne_of_not_immutable hs hr hi (List.mem_of_find?_eq_some hf) hn
    exact ⟨mem_updateMany_of_ne hr hne,payslipsOf_inserted hne k,rfl⟩
  | finalizeKept h => exact ⟨fun _ => by simp [Refinalizes,h],fun _ => keepsImmutable_refl s⟩
  | @finalized companyId runId now run h =>
    obtain ⟨hf,-,-⟩ := finalizable_eq_some.mp h
    have hrun := List.mem_of_find?_eq_some hf
    have href : Refinalizes s (.finalizePayrollRun companyId runId now) ↔ immutable run.status = true := by
      simp [Refinalizes,h]
    rw [href]
    constructor
    · intro hkeep hi
      have hev := (hkeep run hrun hi).events
      rw [announcements_finalized] at hev
      simpa using congrArg List.length hev
    · intro hn r hr hi
      have hne := ne_of_not_immutable hs hr hi hrun (by simpa using hn)
      exact ⟨mem_updateMany_of_ne hr hne,rfl,announcements_finalized_of_ne hne⟩

/-- Along any sequence of requests every finalized or paid run stays as it is in all
later states exactly when no finalization goes through on such a run. -/
theorem immutable_runs_kept_iff (s : Store) (requests : List PayrollRequest) (hs : Keyed s)
    (hf : Along next Fresh s requests) :
    Onward next KeepsImmutable s requests ↔ Along next (fun s req => ¬ Refinalizes s req) s requests := by
  rw [onward_iff_along keepsImmutable_refl keepsImmutable_trans]
  exact along_iff (I := Keyed) (fun s req hs _ => keepsImmutable_next_iff hs req)
    (fun s req hs hfresh _ => hs.next hfresh) hs hf

/-- Open a run and finalize it twice. -/
def finalizedTwice : List PayrollRequest :=
  [.createPayrollRun 1 november 7 40 0,.finalizePayrollRun 1 40 1000,.finalizePayrollRun 1 40 2000]

theorem immutable_runs_kept_iff_finalizedTwice :
    Onward next KeepsImmutable {} finalizedTwice ↔
      Along next (fun s req => ¬ Refinalizes s req) {} finalizedTwice :=
  immutable_runs_kept_iff {} finalizedTwice ⟨by decide,by decide⟩
    (by decide)

/-- The second finalization moves `finalizedAt` and announces the run once more. -/
theorem finalizedTwice_not_kept :
    Keyed {} ∧ Along next Fresh {} finalizedTwice ∧ ¬ Onward next KeepsImmutable {} finalizedTwice := by
  refine ⟨⟨by decide,by decide⟩,(by decide),?_⟩
  rintro ⟨-,-,⟨-,h⟩,-⟩
  have hk := h ⟨40,1,20758 * msPerDay,20787 * msPerDay,.finalized,some 7,some 1000,0⟩ (by decide) rfl
  exact absurd hk.events (by decide)

end PinoyTax.Payroll
