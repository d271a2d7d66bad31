import Mathlib.Data.List.Find
import Mathlib.Data.List.Sort
import Mathlib.Tactic.Common

/-! # The first few of a sorted list

A list is sorted and cut off after so many items. What comes before the cut is in
relation to what comes after it, and items that are in relation to all the others
can be made to fill the first places.
-/
namespace PinoyTax.Foundation.Cutoff
variable {α : Type}

section
variable (r : α → α → Prop) [DecidableRel r]

theorem filter_orderedInsert [IsTrans α r] (p : α → Bool) (a : α) {l : List α} (hl : l.Pairwise r) :
    (l.orderedInsert r a).filter p = if p a then (l.filter p).orderedInsert r a else l.filter p := by
  induction l with
  | nil => cases hp : p a <;> simp [hp]
  | cons b l ih =>
    rw [List.pairwise_cons] at hl
    rw [List.orderedInsert_cons]
    split
    · rename_i hab
      rw [List.filter_cons]
      split
      · have hall : ∀ c ∈ (b :: l).filter p, r a c := by
          intro c hc
          rcases List.mem_cons.mp (List.mem_filter.mp hc).1 with rfl | hc
          · exact hab
          · exact Trans.trans hab (hl.1 c hc)
        cases hrest : (b :: l).filter p with
        | nil => rfl
        | cons c rest => rw [List.orderedInsert_cons,if_pos (hall c (by rw [hrest]; exact List.mem_cons_self))]
      · rfl
    · rename_i hab
      rw [List.filter_cons,ih hl.2,List.filter_cons]
      cases hb : p b <;> cases ha : p a <;> simp [hab]

/-- The sort is stable: the items of a kind come in the order in which they would be sorted alone. -/
theorem filter_insertionSort [Std.Total r] [IsTrans α r] (p : α → Bool) (l : List α) :
    (l.insertionSort r).filter p = (l.filter p).insertionSort r := by
  induction l with
  | nil => rfl
  | cons a l ih =>
    rw [List.insertionSort_cons,filter_orderedInsert r p a (List.pairwise_insertionSort r l),ih,List.filter_cons]
    split
    · rw [List.insertionSort_cons]
    · rfl

/-- The first of the sorted list is the first item that is in relation to all of them. -/
theorem head?_insertionSort [Std.Total r] [IsTrans α r] (l : List α) :
    (l.insertionSort r).head? = l.find? fun a => l.all fun b => r a b := by
  induction l with
  | nil => rfl
  | cons a l ih =>
    have hrefl : r a a := (Std.Total.total a a).elim id id
    rw [List.insertionSort_cons]
    cases hsorted : l.insertionSort r with
    | nil =>
      have hnil : l = [] := by
        rw [← List.length_eq_zero_iff,← List.length_insertionSort r l,hsorted,List.length_nil]
      simp [hnil,hrefl]
    | cons b rest =>
      rw [hsorted,List.head?_cons] at ih
      have hb : b ∈ l := List.mem_of_find?_eq_some ih.symm
      have hleast : ∀ c ∈ l, r b c := by simpa using List.find?_some ih.symm
      rw [List.orderedInsert_cons]
      split
      · rename_i hab
        rw [List.find?_cons_of_pos]
        · rfl
        · simpa [hrefl] using fun c hc => Trans.trans hab (hleast c hc)
      · rename_i hab
        have hba : r b a := (Std.Total.total a b).resolve_left hab
        rw [List.head?_cons,List.find?_cons_of_neg (by simpa [hrefl] using ⟨b,hb,hab⟩),ih]
        apply List.find?_congr
        intro c hc
        by_cases hleft : ∀ d ∈ l, r c d
        · have hca := Trans.trans (hleft b hb) hba
          simp [hca]
        · have hno : ∃ d ∈ l, ¬ r c d := by push Not at hleft; exact hleft
          simp [hno]

end

end PinoyTax.Foundation.Cutoff
