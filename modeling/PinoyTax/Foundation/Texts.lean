import Mathlib.Data.List.Basic
import Mathlib.Data.Nat.Notation

/-! # Texts put together from parts

A part that does not contain a character ends where the character first stands.
-/
namespace PinoyTax.Foundation

theorem notMem_toString {c : Char} (n : ℕ) (hc : c.isDigit = false) : c ∉ (toString n).toList := by
  intro h
  rw [Nat.toString_eq_repr,Nat.toList_repr] at h
  rw [Nat.isDigit_of_mem_toDigits (by decide) (by decide) h] at hc
  cases hc

theorem toString_injective {m n : ℕ} (h : (toString m).toList = (toString n).toList) : m = n := by
  rw [Nat.toString_eq_repr,Nat.toString_eq_repr,Nat.toList_repr,Nat.toList_repr] at h
  rw [← Nat.ofDigitChars_ten_toDigits (n := m),← Nat.ofDigitChars_ten_toDigits (n := n),h]

/-- Texts without a character are the same when they are what stands before it first. -/
theorem append_cons_inj {c : Char} {s s' t t' : List Char} (hs : c ∉ s) (hs' : c ∉ s') (h : s ++ c :: t = s' ++ c :: t') :
    s = s' ∧ t = t' := by
  induction s generalizing s' with
  | nil =>
    cases s' with
    | nil => exact ⟨rfl,(List.cons.inj h).2⟩
    | cons a s' => exact absurd (List.mem_cons.mpr (.inl (List.cons.inj h).1)) hs'
  | cons a s ih =>
    cases s' with
    | nil => exact absurd (List.mem_cons.mpr (.inl (List.cons.inj h).1.symm)) hs
    | cons a' s' =>
      obtain ⟨ha,htail⟩ := List.cons.inj h
      obtain ⟨hs,ht⟩ := ih (fun hc => hs (List.mem_cons_of_mem a hc)) (fun hc => hs' (List.mem_cons_of_mem a' hc)) htail
      exact ⟨by rw [ha,hs],ht⟩

end PinoyTax.Foundation
