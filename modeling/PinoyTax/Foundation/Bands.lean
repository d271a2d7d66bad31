import Mathlib.Algebra.Order.Group.MinMax
import Mathlib.Algebra.Order.BigOperators.Group.List
import Mathlib.Tactic.Linarith

/-! # Bands that tile a half-line

A band runs from its lower end to its upper end, or on without end. The portion of
an amount inside a band is the length of the part of `[0, x]` that the band
covers. Bands that start where the one before ends share an amount without rest.
-/
namespace PinoyTax.Foundation

structure Band (α : Type*) where
  lo : α
  hi : Option α

/-- The part of the amount that lies below the upper end. -/
def Band.capped {α : Type*} [LinearOrder α] (b : Band α) (x : α) : α :=
  match b.hi with
  | some m => min x m
  | none => x

def Band.portion {α : Type*} [AddCommGroup α] [LinearOrder α] (b : Band α) (x : α) : α :=
  max (b.capped x - b.lo) 0

def Band.map {α β : Type*} (f : α → β) (b : Band α) : Band β := ⟨f b.lo,b.hi.map f⟩

/-- Each band starts where the one before ends, the last one has no end. -/
def Gapless {α : Type*} [LT α] (start : α) : List (Band α) → Prop
  | [] => False
  | b :: bs => b.lo = start ∧
    match b.hi with
    | some m => start < m ∧ Gapless m bs
    | none => bs = []

instance decidableGapless {α : Type*} [LT α] [DecidableEq α] [DecidableLT α] (start : α) :
    (bs : List (Band α)) → Decidable (Gapless start bs)
  | [] => .isFalse id
  | ⟨lo,some m⟩ :: bs => @instDecidableAnd (lo = start) (start < m ∧ Gapless m bs) _
    (@instDecidableAnd _ _ _ (decidableGapless m bs))
  | ⟨lo,none⟩ :: bs => @instDecidableAnd (lo = start) (bs = []) _
    (match bs with
      | [] => .isTrue rfl
      | _ :: _ => .isFalse (by simp))

section
variable {α : Type*} [LinearOrder α] {start : α} {b : Band α} {bs : List (Band α)}

theorem Band.capped_le (b : Band α) (x : α) : b.capped x ≤ x := by
  unfold capped
  cases b.hi with
  | none => exact le_refl x
  | some m => exact min_le_left x m

theorem Gapless.le_lo (h : Gapless start bs) (hb : b ∈ bs) : start ≤ b.lo := by
  induction bs generalizing start with
  | nil => exact h.elim
  | cons c cs ih =>
    obtain ⟨hlo,hrest⟩ := h
    rcases List.mem_cons.mp hb with rfl | hb
    · exact hlo.ge
    · cases hc : c.hi with
      | none =>
        rw [hc] at hrest
        rw [hrest] at hb
        cases hb
      | some m =>
        rw [hc] at hrest
        exact hrest.1.le.trans (ih hrest.2 hb)

/-- The lower ends are in strict order. -/
theorem Gapless.pairwise_lo (h : Gapless start bs) : bs.Pairwise fun a b => a.lo < b.lo := by
  induction bs generalizing start with
  | nil => exact .nil
  | cons c cs ih =>
    obtain ⟨hlo,hrest⟩ := h
    cases hc : c.hi with
    | none =>
      rw [hc] at hrest
      rw [hrest]
      exact List.pairwise_singleton _ c
    | some m =>
      rw [hc] at hrest
      refine List.pairwise_cons.mpr ⟨?_,ih hrest.2⟩
      intro d hd
      rw [hlo]
      exact hrest.1.trans_le (hrest.2.le_lo hd)

end

section
variable {α : Type*} [AddCommGroup α] [LinearOrder α] {x y start : α} {b : Band α}
  {bs : List (Band α)}

theorem Band.portion_nonneg (b : Band α) (x : α) : 0 ≤ b.portion x := le_max_right _ _

/-- Portions may be taken in a smaller unit. -/
theorem Band.portion_map {β : Type*} [AddCommGroup β] [LinearOrder β] {f : α →+ β} (hf : Monotone f)
    (b : Band α) (x : α) : (b.map f).portion (f x) = f (b.portion x) := by
  have hcap : (b.map f).capped (f x) = f (b.capped x) := by
    unfold capped map
    cases b.hi with
    | none => rfl
    | some m => exact (hf.map_min).symm
  rw [portion,portion,hcap,hf.map_max,map_sub,map_zero]
  rfl

variable [IsOrderedAddMonoid α]

theorem Band.portion_mono (b : Band α) (h : x ≤ y) : b.portion x ≤ b.portion y := by
  have hcap : b.capped x ≤ b.capped y := by
    unfold capped
    cases b.hi with
    | none => exact h
    | some m => exact min_le_min_right m h
  exact max_le_max_right 0 (sub_le_sub_right hcap b.lo)

/-- An amount does not reach into a band that starts above it. -/
theorem Band.portion_eq_zero (h : x ≤ b.lo) : b.portion x = 0 :=
  max_eq_right (sub_nonpos.mpr ((b.capped_le x).trans h))

/-- An amount that ends in the band fills it from its start on. -/
theorem Band.portion_of_le_hi (hhi : ∀ m ∈ b.hi, x ≤ m) (hlo : b.lo ≤ x) : b.portion x = x - b.lo := by
  have hcap : b.capped x = x := by
    unfold capped
    cases hb : b.hi with
    | none => rfl
    | some m => exact min_eq_left (hhi m hb)
  rw [portion,hcap,max_eq_left (sub_nonneg.mpr hlo)]

/-- An amount that ends above the band fills the whole of it. -/
theorem Band.portion_of_hi_le {m : α} (hb : b.hi = some m) (hm : m ≤ x) (hlo : b.lo ≤ m) :
    b.portion x = m - b.lo := by
  have hcap : b.capped x = m := by
    rw [capped,hb]
    exact min_eq_right hm
  rw [portion,hcap,max_eq_left (sub_nonneg.mpr hlo)]

theorem Gapless.portion_eq_zero (h : Gapless start bs) (hx : x ≤ start) (hb : b ∈ bs) : b.portion x = 0 :=
  Band.portion_eq_zero (hx.trans (h.le_lo hb))

theorem Gapless.sum_portion_eq_zero (h : Gapless start bs) (hx : x ≤ start) :
    (bs.map fun b => b.portion x).sum = 0 := by
  apply List.sum_eq_zero
  intro y hy
  obtain ⟨b,hb,rfl⟩ := List.mem_map.mp hy
  exact h.portion_eq_zero hx hb

/-- An amount above the start reaches into the first band. -/
theorem Gapless.portion_pos (h : Gapless start (b :: bs)) (hx : start < x) : 0 < b.portion x := by
  obtain ⟨hlo,hrest⟩ := h
  rw [Band.portion,Band.capped,hlo]
  cases hb : b.hi with
  | none => exact lt_max_of_lt_left (sub_pos.mpr hx)
  | some m =>
    rw [hb] at hrest
    exact lt_max_of_lt_left (sub_pos.mpr (lt_min hx hrest.1))

/-- Nothing of the amount is lost and nothing is counted twice. -/
theorem Gapless.sum_portion (h : Gapless start bs) (hx : start ≤ x) :
    (bs.map fun b => b.portion x).sum = x - start := by
  induction bs generalizing start with
  | nil => exact h.elim
  | cons b bs ih =>
    obtain ⟨hlo,hrest⟩ := h
    rw [List.map_cons,List.sum_cons]
    cases hb : b.hi with
    | none =>
      rw [hb] at hrest
      rw [hrest,Band.portion_of_le_hi (by simp [hb]) (hlo.trans_le hx),hlo]
      exact add_zero _
    | some m =>
      rw [hb] at hrest
      obtain ⟨hlt,htiles⟩ := hrest
      rcases le_total x m with hxm | hmx
      · have hall : b.portion x = x - start := by
          rw [Band.portion_of_le_hi (by simpa [hb] using hxm) (hlo.trans_le hx),hlo]
        rw [hall,htiles.sum_portion_eq_zero hxm,add_zero]
      · rw [Band.portion_of_hi_le hb hmx (hlo.trans_le hlt.le),ih htiles hmx,hlo]
        exact sub_add_sub_cancel' m start x

end
end PinoyTax.Foundation
