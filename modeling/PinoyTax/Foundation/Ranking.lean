import Mathlib.Algebra.Order.BigOperators.Group.Finset
import PinoyTax.Foundation.Runs

/-! # Ranks along runs

A rank that no step of a run raises and every marked step lowers bounds the marked steps
of the run.
-/
namespace PinoyTax.Foundation.Runs
variable {S R : Type*} (next : S → R → S)

/-- How many steps of the run are marked, each at the state it starts from. -/
def countAlong (A : S → R → Prop) [∀ s r, Decidable (A s r)] : S → List R → ℕ
  | _, [] => 0
  | s, r :: rs => (if A s r then 1 else 0) + countAlong A (next s r) rs

variable {next} {A C : S → R → Prop} [∀ s r, Decidable (A s r)] {I : S → Prop} {rank : S → ℕ}

@[simp] theorem countAlong_nil (s : S) : countAlong next A s [] = 0 := rfl
@[simp] theorem countAlong_cons (s : S) (r : R) (rs : List R) :
    countAlong next A s (r :: rs) = (if A s r then 1 else 0) + countAlong next A (next s r) rs := rfl

theorem countAlong_add_rank_le (hI : ∀ s r, I s → C s r → I (next s r))
    (hle : ∀ s r, I s → C s r → rank (next s r) ≤ rank s)
    (hlt : ∀ s r, I s → C s r → A s r → rank (next s r) < rank s) {s : S} {rs : List R} (hs : I s)
    (hC : Along next C s rs) : countAlong next A s rs + rank (rs.foldl next s) ≤ rank s := by
  induction rs generalizing s with
  | nil => simp
  | cons r rs ih =>
    have hrest := ih (hI s r hs hC.1) hC.2
    rw [countAlong_cons,List.foldl_cons]
    split
    · have hstep := hlt s r hs hC.1 ‹_›
      omega
    · have hstep := hle s r hs hC.1
      omega

/-- Where no summand rises, a sum falls with any of them. -/
theorem sum_range_add_le {f g : ℕ → ℕ} {n j d : ℕ} (hj : j < n) (hle : ∀ i < n, g i ≤ f i) (hdrop : g j + d ≤ f j) :
    ∑ i ∈ Finset.range n, g i + d ≤ ∑ i ∈ Finset.range n, f i := by
  have hmem : j ∈ Finset.range n := Finset.mem_range.mpr hj
  rw [← Finset.add_sum_erase _ g hmem,← Finset.add_sum_erase _ f hmem]
  have hrest : ∑ i ∈ (Finset.range n).erase j, g i ≤ ∑ i ∈ (Finset.range n).erase j, f i :=
    Finset.sum_le_sum fun i hi => hle i (Finset.mem_range.mp (Finset.mem_of_mem_erase hi))
  omega

end PinoyTax.Foundation.Runs
