import Mathlib.Algebra.BigOperators.Group.List.Basic
import Mathlib.Algebra.GroupWithZero.Nat
import Mathlib.Data.List.Induction
import Mathlib.Data.List.Nodup
import Mathlib.Tactic.Common

/-! # Maps filled by a loop

A loop over items keeps one bucket for each key, in the order in which the keys are
first met. A bucket is what the loop makes of the items of its key, and a measure that
each item adds to comes out the same over the buckets as over the items.
-/
namespace PinoyTax.Foundation.Grouping
variable {κ υ τ : Type} [DecidableEq κ]

/-- Apply `f` to the bucket of the key; a new bucket starts from `init`. -/
def bump (init : υ) (k : κ) (f : υ → υ) : List (κ × υ) → List (κ × υ)
  | [] => [(k,f init)]
  | (k',v) :: buckets => if k' = k then (k',f v) :: buckets else (k',v) :: bump init k f buckets

def group (init : υ) (key : τ → κ) (f : τ → υ → υ) (items : List τ) : List (κ × υ) :=
  items.foldl (fun buckets x => bump init (key x) (f x) buckets) []

section
variable {init : υ} {k : κ} {f : υ → υ} {buckets : List (κ × υ)}

theorem bump_keys : (bump init k f buckets).map Prod.fst =
    if k ∈ buckets.map Prod.fst then buckets.map Prod.fst else buckets.map Prod.fst ++ [k] := by
  induction buckets with
  | nil => rfl
  | cons b buckets ih =>
    obtain ⟨k',v⟩ := b
    by_cases hk : k' = k
    · simp [bump,hk]
    · rw [bump,if_neg hk,List.map_cons,ih]
      by_cases hmem : k ∈ buckets.map Prod.fst
      · simp [hmem]
      · simp only [hmem,if_false]
        rw [if_neg (by simpa [Ne.symm hk] using hmem)]
        simp

theorem nodup_bump (hn : (buckets.map Prod.fst).Nodup) : ((bump init k f buckets).map Prod.fst).Nodup := by
  rw [bump_keys]
  split
  · exact hn
  · rename_i hk
    exact hn.append (List.nodup_singleton k) (by simpa using hk)

theorem mem_keys_bump {k' : κ} :
    k' ∈ (bump init k f buckets).map Prod.fst ↔ k' = k ∨ k' ∈ buckets.map Prod.fst := by
  rw [bump_keys]
  split
  · rename_i hk
    constructor
    · exact .inr
    · rintro (rfl | h)
      · exact hk
      · exact h
  · rw [List.mem_append,List.mem_singleton,or_comm]

theorem lookup_cons_if (b : κ × υ) (buckets : List (κ × υ)) (k : κ) :
    (b :: buckets).lookup k = if k = b.1 then some b.2 else buckets.lookup k := by
  rw [List.lookup_cons]
  by_cases hk : k = b.1
  · simp [hk]
  · have hbeq : (k == b.1) = false := by simpa using hk
    simp [hk,hbeq]

theorem lookup_of_mem {v : υ} (hn : (buckets.map Prod.fst).Nodup) (h : (k,v) ∈ buckets) : buckets.lookup k = some v := by
  induction buckets with
  | nil => cases h
  | cons b buckets ih =>
    rw [List.map_cons,List.nodup_cons] at hn
    rw [lookup_cons_if]
    rcases List.mem_cons.mp h with rfl | h
    · exact if_pos rfl
    · have hne : k ≠ b.1 := fun he => hn.1 (he ▸ List.mem_map_of_mem h)
      rw [if_neg hne]
      exact ih hn.2 h

theorem lookup_bump {k' : κ} : (bump init k f buckets).lookup k' =
    if k' = k then some (f ((buckets.lookup k).getD init)) else buckets.lookup k' := by
  induction buckets with
  | nil => simp [bump,lookup_cons_if]
  | cons b buckets ih =>
    obtain ⟨k'',v⟩ := b
    by_cases hb : k'' = k
    · subst hb
      by_cases hk : k' = k''
      · simp [bump,lookup_cons_if,hk]
      · simp [bump,lookup_cons_if,hk]
    · rw [bump,if_neg hb,lookup_cons_if,lookup_cons_if,lookup_cons_if,ih]
      by_cases hk : k' = k''
      · simp [hk,hb]
      · by_cases hkk : k' = k
        · simp [hkk,Ne.symm hb]
        · simp [hk,hkk]

/-- What the item adds to its bucket it adds to the sum. -/
theorem sum_bump {measure : υ → ℕ} {n : ℕ} (hinit : measure init = 0) (hf : ∀ v, measure (f v) = measure v + n) :
    ((bump init k f buckets).map fun b => measure b.2).sum = (buckets.map fun b => measure b.2).sum + n := by
  induction buckets with
  | nil => simp [bump,hf,hinit]
  | cons b buckets ih =>
    obtain ⟨k',v⟩ := b
    rw [bump]
    split
    · simp only [List.map_cons,List.sum_cons,hf]
      omega
    · simp only [List.map_cons,List.sum_cons,ih]
      omega

end

section
variable (init : υ) (key : τ → κ) (f : τ → υ → υ)

theorem group_append (items : List τ) (x : τ) :
    group init key f (items ++ [x]) = bump init (key x) (f x) (group init key f items) := by
  simp [group]

theorem nodup_group (items : List τ) : ((group init key f items).map Prod.fst).Nodup := by
  induction items using List.reverseRecOn with
  | nil => simp [group]
  | append_singleton items x ih =>
    rw [group_append]
    exact nodup_bump ih

theorem mem_keys_group (items : List τ) (k : κ) :
    k ∈ (group init key f items).map Prod.fst ↔ ∃ x ∈ items, key x = k := by
  induction items using List.reverseRecOn with
  | nil => simp [group]
  | append_singleton items x ih =>
    rw [group_append,mem_keys_bump,ih]
    simp only [List.mem_append,List.mem_singleton,or_and_right,exists_or,exists_eq_left]
    rw [or_comm,eq_comm]

/-- The bucket of a key is what the loop makes of the items of the key alone. -/
theorem getD_lookup_group (items : List τ) (k : κ) :
    ((group init key f items).lookup k).getD init = (items.filter (fun x => key x = k)).foldl (fun v x => f x v) init := by
  induction items using List.reverseRecOn with
  | nil => rfl
  | append_singleton items x ih =>
    rw [group_append,lookup_bump,List.filter_append,List.foldl_append]
    by_cases hk : key x = k
    · subst hk
      simp [ih]
    · simp [hk,Ne.symm hk,ih]

theorem eq_of_mem_group {items : List τ} {k : κ} {v : υ} (h : (k,v) ∈ group init key f items) :
    v = (items.filter (fun x => key x = k)).foldl (fun v x => f x v) init := by
  rw [← getD_lookup_group,lookup_of_mem (nodup_group init key f items) h]
  rfl

theorem sum_group (measure : υ → ℕ) (weight : τ → ℕ) (hinit : measure init = 0)
    (hf : ∀ x v, measure (f x v) = measure v + weight x) (items : List τ) :
    ((group init key f items).map fun b => measure b.2).sum = (items.map weight).sum := by
  induction items using List.reverseRecOn with
  | nil => rfl
  | append_singleton items x ih =>
    rw [group_append,sum_bump hinit (hf x),ih]
    simp

end

/-- `groupBy(items, keyFn)`. -/
def groupBy (key : τ → κ) (items : List τ) : List (κ × List τ) := group [] key (fun x list => list ++ [x]) items

/-- `groupBy(items, keyFn).get(key) ?? []`. -/
theorem getD_lookup_groupBy (key : τ → κ) (items : List τ) (k : κ) :
    ((groupBy key items).lookup k).getD [] = items.filter (fun x => key x = k) := by
  rw [groupBy,getD_lookup_group]
  induction items.filter (fun x => key x = k) using List.reverseRecOn with
  | nil => rfl
  | append_singleton list x ih => simp [ih]

end PinoyTax.Foundation.Grouping
