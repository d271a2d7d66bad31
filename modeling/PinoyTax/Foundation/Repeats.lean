import Mathlib.Data.List.Nodup

/-! # Repeated keys

The elements of a list whose key was seen before them. Each key that occurs leaves one
element out, the first. The second part collects elements without writing one twice.
-/
namespace PinoyTax.Foundation.Repeats
variable {α κ : Type*} [DecidableEq κ] (key : α → κ)

/-- The elements whose key was seen, before the list or in it. -/
def repeats : List κ → List α → List α
  | _, [] => []
  | seen, a :: as => (if key a ∈ seen then [a] else []) ++ repeats (key a :: seen) as

/-- The first element of the list with the key of `a`. -/
def firstOf (l : List α) (a : α) : Option α := l.find? (fun b => key b = key a)

variable {key} {l : List α} {seen : List κ} {a : α}

theorem repeats_sublist : (repeats key seen l).Sublist l := by
  induction l generalizing seen with
  | nil => exact .slnil
  | cons b l ih =>
    rw [repeats]
    split
    · exact ih.cons_cons b
    · exact ih.cons b

/-- An element is repeated exactly when another stands first for its key. -/
theorem mem_repeats (hl : l.Nodup) :
    a ∈ repeats key seen l ↔ a ∈ l ∧ (key a ∈ seen ∨ firstOf key l a ≠ some a) := by
  induction l generalizing seen with
  | nil => simp [repeats]
  | cons b l ih =>
    obtain ⟨hb,hl⟩ := List.nodup_cons.mp hl
    have hfirst : firstOf key (b :: l) a = if key b = key a then some b else firstOf key l a := by
      rw [firstOf,firstOf,List.find?_cons]
      split
      · simp_all
      · simp_all
    rw [repeats,List.mem_append,ih hl,hfirst]
    by_cases hab : a = b
    · subst hab
      simp [hb]
    · have hba : ¬ b = a := fun h => hab h.symm
      by_cases hkey : key b = key a
      · simp [hkey,hab,hba]
      · have hkey' : ¬ key a = key b := fun h => hkey h.symm
        simp [hkey,hkey',hab,firstOf]

theorem mem_repeats_nil (hl : l.Nodup) : a ∈ repeats key [] l ↔ a ∈ l ∧ firstOf key l a ≠ some a := by
  rw [mem_repeats hl]
  simp

variable (key l seen) in
/-- All elements with a key but the first of them, if it was not seen. -/
theorem length_filter_repeats (k : κ) :
    (l.filter fun a => key a = k).length = ((repeats key seen l).filter fun a => key a = k).length +
      if k ∉ seen ∧ ∃ a ∈ l, key a = k then 1 else 0 := by
  induction l generalizing seen with
  | nil => simp [repeats]
  | cons b l ih =>
    rw [repeats,List.filter_append,List.length_append,List.filter_cons]
    have hrest := ih (key b :: seen)
    by_cases hkey : key b = k
    · subst hkey
      by_cases hseen : key b ∈ seen
      · simp [hseen,hrest,Nat.add_comm]
      · simp [hseen,hrest]
    · have hkey' : ¬ k = key b := fun h => hkey h.symm
      have hcond : (k ∉ key b :: seen ∧ ∃ a ∈ l, key a = k) ↔ k ∉ seen ∧ ∃ a ∈ b :: l, key a = k := by
        simp [hkey,hkey']
      have hhead : ((if key b ∈ seen then [b] else []).filter fun a => key a = k) = [] := by
        split
        · simp [hkey]
        · rfl
      rw [if_neg (by simpa using hkey),hrest,hhead,List.length_nil,Nat.zero_add]
      simp only [hcond]

theorem length_filter_repeats_nil (ha : a ∈ l) :
    (l.filter fun b => key b = key a).length = ((repeats key [] l).filter fun b => key b = key a).length + 1 := by
  have hexists : key a ∉ ([] : List κ) ∧ ∃ b ∈ l, key b = key a := ⟨by simp,a,ha,rfl⟩
  rw [length_filter_repeats key l [] (key a),if_pos hexists]

/-- A key that determines another one repeats the same elements. -/
theorem repeats_comp {ι : Type*} [DecidableEq ι] {f : κ → ι} (hf : Function.Injective f) :
    repeats (fun a => f (key a)) (seen.map f) l = repeats key seen l := by
  induction l generalizing seen with
  | nil => rfl
  | cons b l ih =>
    have hrest := @ih (key b :: seen)
    rw [List.map_cons] at hrest
    simp only [repeats,hrest,List.mem_map_of_injective hf]

/-- Among elements in another order, the same elements are repeated when the same stand first. -/
theorem mem_repeats_congr {l' : List α} (hl : l.Nodup) (hl' : l'.Nodup) (hmem : ∀ a, a ∈ l ↔ a ∈ l')
    (hfirst : ∀ a ∈ l, firstOf key l' a = firstOf key l a) :
    a ∈ repeats key [] l' ↔ a ∈ repeats key [] l := by
  rw [mem_repeats_nil hl,mem_repeats_nil hl',← hmem]
  apply and_congr_right
  intro ha
  rw [hfirst a ha]

/-! ## Elements written once -/

section
variable {α : Type*} [DecidableEq α]

/-- The element behind the others, unless it is among them. -/
def note (l : List α) (a : α) : List α := if a ∈ l then l else l ++ [a]

theorem mem_note {l : List α} {a b : α} : b ∈ note l a ↔ b ∈ l ∨ b = a := by
  unfold note
  split
  · rename_i ha
    constructor
    · exact .inl
    · rintro (hb | rfl)
      · exact hb
      · exact ha
  · rw [List.mem_append,List.mem_singleton]

theorem nodup_note {l : List α} (hl : l.Nodup) (a : α) : (note l a).Nodup := by
  unfold note
  split
  · exact hl
  · rename_i ha
    rw [List.nodup_append_comm]
    exact List.nodup_cons.mpr ⟨ha,hl⟩

theorem mem_foldl_note {l added : List α} {b : α} : b ∈ added.foldl note l ↔ b ∈ l ∨ b ∈ added := by
  induction added generalizing l with
  | nil => simp
  | cons a added ih => rw [List.foldl_cons,ih,mem_note,List.mem_cons,or_assoc]

theorem nodup_foldl_note {l : List α} (hl : l.Nodup) (added : List α) : (added.foldl note l).Nodup := by
  induction added generalizing l with
  | nil => exact hl
  | cons a added ih => exact ih (nodup_note hl a)

end
end PinoyTax.Foundation.Repeats
