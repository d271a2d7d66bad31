import Mathlib.Data.List.Chain
import Mathlib.Tactic.Common

/-! # Exchanges and windows over them

An exchange is a question, with its reply or without. A window of so many lines over a
list of exchanges is looked at from its end, where whole exchanges leave it one by one.
-/
namespace PinoyTax.Foundation.Exchanges
variable {α : Type*} (question reply : α)

/-- The lines of a list of exchanges, each given by whether it is answered. -/
def lines (exchanges : List Bool) : List α :=
  exchanges.flatMap fun answered => if answered then [question,reply] else [question]

/-- The last so many elements. -/
def lastOf {β : Type*} (n : ℕ) (l : List β) : List β := l.drop (l.length - n)

/-- The lines start with a question, and no two in a row are of one kind. -/
def Alternates (l : List α) : Prop := l.head? = some question ∧ l.IsChain (· ≠ ·)

variable {question reply} {exchanges : List Bool} {n : ℕ}

theorem reverse_lastOf {β : Type*} (n : ℕ) (l : List β) : (lastOf n l).reverse = l.reverse.take n := List.take_reverse.symm

theorem mem_lastOf_iff {β : Type*} {l : List β} {b : β} : b ∈ lastOf n l ↔ b ∈ l.reverse.take n := by
  rw [← reverse_lastOf,List.mem_reverse]

theorem lines_append (question reply : α) (front back : List Bool) :
    lines question reply (front ++ back) = lines question reply front ++ lines question reply back := List.flatMap_append

theorem alternates_reverse_iff {l : List α} :
    Alternates question l.reverse ↔ l.getLast? = some question ∧ l.IsChain (· ≠ ·) := by
  rw [Alternates,List.head?_reverse,List.isChain_reverse]
  simp only [ne_comm]

theorem reverse_lines (exchanges : List Bool) : (lines question reply exchanges).reverse =
    exchanges.reverse.flatMap fun answered => if answered then [reply,question] else [question] := by
  induction exchanges with
  | nil => rfl
  | cons answered exchanges ih =>
    rw [lines,List.flatMap_cons,List.reverse_append,List.reverse_cons,List.flatMap_append]
    congr 1
    cases answered <;> rfl

/-- Seen from a new question backwards, the lines alternate as far as the exchanges are answered. -/
theorem alternates_back_iff (hne : question ≠ reply) (n : ℕ) (back : List Bool) :
    ((question :: (back.flatMap fun answered => if answered then [reply,question] else [question]).take (2 * n)).getLast? =
        some question ∧
      (question :: (back.flatMap fun answered => if answered then [reply,question] else [question]).take (2 * n)).IsChain
        (· ≠ ·)) ↔ ∀ answered ∈ back.take n, answered = true := by
  induction n generalizing back with
  | zero => simp
  | succ n ih =>
    cases back with
    | nil => simp
    | cons answered back =>
      cases answered with
      | false => simp [Nat.mul_succ]
      | true =>
        have hrest := ih back
        simp only [List.flatMap_cons,if_true,List.cons_append,List.nil_append,Nat.mul_succ,List.take_succ_cons,
          List.getLast?_cons_cons,List.isChain_cons_cons,List.mem_cons,forall_eq_or_imp,true_and] at hrest ⊢
        rw [← hrest]
        simp only [ne_eq,hne,hne.symm,not_false_eq_true,true_and]

/-- The last lines and a new question alternate exactly when the last exchanges are all answered. -/
theorem alternates_window_iff (hne : question ≠ reply) (n : ℕ) (exchanges : List Bool) :
    Alternates question (lastOf (2 * n) (lines question reply exchanges) ++ [question]) ↔
      ∀ answered ∈ lastOf n exchanges, answered = true := by
  have hback : lastOf (2 * n) (lines question reply exchanges) ++ [question] =
      (question :: (exchanges.reverse.flatMap fun answered => if answered then [reply,question] else [question]).take
        (2 * n)).reverse := by
    rw [List.reverse_cons,← reverse_lines,← reverse_lastOf,List.reverse_reverse]
  rw [hback,alternates_reverse_iff,alternates_back_iff hne]
  simp only [mem_lastOf_iff]

end PinoyTax.Foundation.Exchanges
