import Mathlib.Data.List.Basic
import Mathlib.Tactic.Common

/-! # Runs of a state machine under a list of requests

The machine is given by the state each request leaves. A property of steps is
followed along a run; a property of states is asked of every state a run reaches.
The last section turns a fact about one step into the exact condition on runs.
-/
namespace PinoyTax.Foundation.Runs
variable {S R : Type*} (next : S → R → S)

/-- `C` holds at each step, at the state the step starts from. -/
def Along (C : S → R → Prop) : S → List R → Prop
  | _, [] => True
  | s, r :: rs => C s r ∧ Along C (next s r) rs

/-- `P` holds in every state the run reaches, its first state included. -/
def Always (P : S → Prop) : S → List R → Prop
  | s, [] => P s
  | s, r :: rs => P s ∧ Always P (next s r) rs

/-- `K` relates each state of the run to every later one. -/
def Onward (K : S → S → Prop) : S → List R → Prop
  | s, [] => K s s
  | s, r :: rs => Always next (K s) s (r :: rs) ∧ Onward K (next s r) rs

/-- `K` relates each step of the run to every later step. -/
def Following (K : S → R → S → R → Prop) : S → List R → Prop
  | _, [] => True
  | s, r :: rs => Along next (K s r) (next s r) rs ∧ Following K (next s r) rs

variable {next}

@[simp] theorem along_nil (C : S → R → Prop) (s : S) : Along next C s [] := trivial
@[simp] theorem along_cons (C : S → R → Prop) (s : S) (r : R) (rs : List R) :
    Along next C s (r :: rs) ↔ C s r ∧ Along next C (next s r) rs := Iff.rfl
instance decidableAlong (C : S → R → Prop) [∀ s r, Decidable (C s r)] :
    (s : S) → (rs : List R) → Decidable (Along next C s rs)
  | _, [] => .isTrue trivial
  | s, r :: rs => @instDecidableAnd _ _ _ (decidableAlong C (next s r) rs)

instance decidableAlways (P : S → Prop) [DecidablePred P] : (s : S) → (rs : List R) → Decidable (Always next P s rs)
  | s, [] => inferInstanceAs (Decidable (P s))
  | s, r :: rs => @instDecidableAnd _ _ _ (decidableAlways P (next s r) rs)

theorem along_true (s : S) (rs : List R) : Along next (fun _ _ => True) s rs := by
  induction rs generalizing s with
  | nil => trivial
  | cons r rs ih => exact ⟨trivial,ih (next s r)⟩

/-- A condition on the requests alone. -/
theorem along_const_iff {C : R → Prop} {s : S} {rs : List R} : Along next (fun _ r => C r) s rs ↔ ∀ r ∈ rs, C r := by
  induction rs generalizing s with
  | nil => simp
  | cons r rs ih => rw [along_cons,ih,List.forall_mem_cons]

theorem Always.head {P : S → Prop} {s : S} {rs : List R} (h : Always next P s rs) : P s := by
  cases rs with
  | nil => exact h
  | cons r rs => exact h.1

theorem Always.last {P : S → Prop} {s : S} {rs : List R} (h : Always next P s rs) : P (rs.foldl next s) := by
  induction rs generalizing s with
  | nil => exact h
  | cons r rs ih => exact ih h.2

theorem Always.mono {P Q : S → Prop} (hPQ : ∀ s, P s → Q s) {s : S} {rs : List R} (h : Always next P s rs) :
    Always next Q s rs := by
  induction rs generalizing s with
  | nil => exact hPQ s h
  | cons r rs ih => exact ⟨hPQ s h.1,ih h.2⟩

theorem Along.mono {C D : S → R → Prop} (hCD : ∀ s r, C s r → D s r) {s : S} {rs : List R}
    (h : Along next C s rs) : Along next D s rs := by
  induction rs generalizing s with
  | nil => trivial
  | cons r rs ih => exact ⟨hCD s r h.1,ih h.2⟩

theorem Along.and {C D : S → R → Prop} {s : S} {rs : List R} (hC : Along next C s rs) (hD : Along next D s rs) :
    Along next (fun s r => C s r ∧ D s r) s rs := by
  induction rs generalizing s with
  | nil => trivial
  | cons r rs ih => exact ⟨⟨hC.1,hD.1⟩,ih hC.2 hD.2⟩

/-- The induction over a run: what each admitted step keeps holds throughout. -/
theorem always_of_step {A : S → R → Prop} {I : S → Prop} (hstep : ∀ s r, I s → A s r → I (next s r))
    {s : S} {rs : List R} (hs : I s) (hA : Along next A s rs) : Always next I s rs := by
  induction rs generalizing s with
  | nil => exact hs
  | cons r rs ih => exact ⟨hs,ih (hstep s r hs hA.1) hA.2⟩

/-- Two step properties that agree wherever the run can still be agree along it.
The states in question are those of an invariant that a good step keeps. -/
theorem along_iff {A Q C : S → R → Prop} {I : S → Prop} (hiff : ∀ s r, I s → A s r → (Q s r ↔ C s r))
    (hkeep : ∀ s r, I s → A s r → Q s r → I (next s r)) {s : S} {rs : List R} (hs : I s)
    (hA : Along next A s rs) : Along next Q s rs ↔ Along next C s rs := by
  induction rs generalizing s with
  | nil => exact Iff.rfl
  | cons r rs ih =>
    simp only [along_cons]
    constructor
    · rintro ⟨hq,hrest⟩
      exact ⟨(hiff s r hs hA.1).mp hq,(ih (hkeep s r hs hA.1 hq) hA.2).mp hrest⟩
    · rintro ⟨hc,hrest⟩
      have hq := (hiff s r hs hA.1).mpr hc
      exact ⟨hq,(ih (hkeep s r hs hA.1 hq) hA.2).mpr hrest⟩

/-- A state property holds throughout exactly when each step that starts where
it holds meets the condition under which the step keeps it. -/
theorem always_iff_along {A C : S → R → Prop} {I P : S → Prop}
    (hinv : ∀ s r, I s → A s r → P s → P (next s r) → I (next s r))
    (hstep : ∀ s r, I s → A s r → P s → (P (next s r) ↔ C s r)) {s : S} {rs : List R} (hI : I s) (hP : P s)
    (hA : Along next A s rs) : Always next P s rs ↔ Along next C s rs := by
  induction rs generalizing s with
  | nil => exact ⟨fun _ => trivial,fun _ => hP⟩
  | cons r rs ih =>
    have hs := hstep s r hI hA.1 hP
    constructor
    · rintro ⟨-,hrest⟩
      have hgood := hinv s r hI hA.1 hP hrest.head
      exact ⟨hs.mp hrest.head,(ih hgood hrest.head hA.2).mp hrest⟩
    · rintro ⟨hc,hrest⟩
      have hnext := hs.mpr hc
      have hgood := hinv s r hI hA.1 hP hnext
      exact ⟨hP,(ih hgood hnext hA.2).mpr hrest⟩

/-- A property that a step keeps under its condition, and that is lost for good
otherwise, holds at the end exactly when each step met the condition. -/
theorem last_iff_along {A C : S → R → Prop} {I P : S → Prop} (hinv : ∀ s r, I s → A s r → I (next s r))
    (hstep : ∀ s r, I s → A s r → (P (next s r) ↔ P s ∧ C s r)) {s : S} {rs : List R} (hI : I s)
    (hA : Along next A s rs) : P (rs.foldl next s) ↔ P s ∧ Along next C s rs := by
  induction rs generalizing s with
  | nil => simp
  | cons r rs ih => rw [List.foldl_cons,ih (hinv s r hI hA.1) hA.2,hstep s r hI hA.1,along_cons,and_assoc]

/-! ## Relations between earlier and later states -/

theorem always_of_along {K : S → S → Prop} (htrans : ∀ s t u, K s t → K t u → K s u) {s t : S} {rs : List R}
    (ht : K s t) (h : Along next (fun s r => K s (next s r)) t rs) : Always next (K s) t rs := by
  induction rs generalizing t with
  | nil => exact ht
  | cons r rs ih => exact ⟨ht,ih (htrans s t _ ht h.1) h.2⟩

/-- A preorder that each step respects relates every earlier state to every later one. -/
theorem onward_iff_along {K : S → S → Prop} (hrefl : ∀ s, K s s) (htrans : ∀ s t u, K s t → K t u → K s u)
    {s : S} {rs : List R} : Onward next K s rs ↔ Along next (fun s r => K s (next s r)) s rs := by
  induction rs generalizing s with
  | nil => exact ⟨fun _ => trivial,fun _ => hrefl s⟩
  | cons r rs ih =>
    constructor
    · rintro ⟨hfirst,hrest⟩
      exact ⟨hfirst.2.head,ih.mp hrest⟩
    · rintro ⟨hstep,hrest⟩
      exact ⟨⟨hrefl s,always_of_along htrans hstep hrest⟩,ih.mpr hrest⟩

end PinoyTax.Foundation.Runs
