import Mathlib.Data.List.Nodup
import Mathlib.Logic.Relation
import Mathlib.Tactic.Common

/-! # Descent by links that are added below

A link joins a parent to a child, and links come latest first. Where each new child is
new, the family of some roots can be read off the links from the oldest to the latest.
-/
namespace PinoyTax.Foundation
variable {κ : Type} [DecidableEq κ]

/-- The roots and what descends from them. -/
def family (roots : List κ) : List (κ × κ) → List κ
  | [] => roots
  | (p,c) :: older => if p ∈ family roots older then c :: family roots older else family roots older

/-- No child is its own parent or was a parent before. -/
def Grown : List (κ × κ) → Prop
  | [] => True
  | (p,c) :: older => c ≠ p ∧ c ∉ older.map Prod.fst ∧ Grown older

variable {roots : List κ} {links : List (κ × κ)} {p c x z : κ}

theorem mem_family_cons :
    x ∈ family roots ((p,c) :: links) ↔ x ∈ family roots links ∨ p ∈ family roots links ∧ x = c := by
  rw [family]
  split
  · rename_i hp
    rw [List.mem_cons]
    constructor
    · rintro (rfl | hx)
      · exact .inr ⟨hp,rfl⟩
      · exact .inl hx
    · rintro (hx | ⟨-,rfl⟩)
      · exact .inr hx
      · exact .inl rfl
  · rename_i hp
    exact ⟨.inl,fun h => h.resolve_right fun hr => hp hr.1⟩

theorem mem_family_of_root (h : z ∈ roots) : z ∈ family roots links := by
  induction links with
  | nil => exact h
  | cons link older ih => exact mem_family_cons.mpr (.inl ih)

theorem mem_family_cases (h : x ∈ family roots links) : x ∈ roots ∨ ∃ p ∈ family roots links, (p,x) ∈ links := by
  induction links with
  | nil => exact .inl h
  | cons link older ih =>
    obtain ⟨q,c⟩ := link
    rcases mem_family_cons.mp h with h | ⟨hq,rfl⟩
    · rcases ih h with hroot | ⟨p,hp,hmem⟩
      · exact .inl hroot
      · exact .inr ⟨p,mem_family_cons.mpr (.inl hp),List.mem_cons_of_mem _ hmem⟩
    · exact .inr ⟨q,mem_family_cons.mpr (.inl hq),List.mem_cons_self⟩

/-- The children of a member are members. -/
theorem Grown.child_mem (hg : Grown links) (hp : p ∈ family roots links) (hpc : (p,c) ∈ links) :
    c ∈ family roots links := by
  induction links with
  | nil => cases hpc
  | cons link older ih =>
    obtain ⟨q,d⟩ := link
    obtain ⟨hne,hfresh,hgo⟩ := hg
    rcases List.mem_cons.mp hpc with heq | hold
    · obtain ⟨rfl,rfl⟩ := Prod.mk.inj heq
      rcases mem_family_cons.mp hp with hp | ⟨-,hself⟩
      · exact mem_family_cons.mpr (.inr ⟨hp,rfl⟩)
      · exact absurd hself.symm hne
    · rcases mem_family_cons.mp hp with hp | ⟨-,rfl⟩
      · exact mem_family_cons.mpr (.inl (ih hgo hp hold))
      · exact absurd (List.mem_map_of_mem hold) hfresh

/-- The family is what the links lead to. -/
theorem Grown.mem_family_iff (hg : Grown links) :
    x ∈ family roots links ↔ ∃ z ∈ roots, Relation.ReflTransGen (fun p c => (p,c) ∈ links) z x := by
  constructor
  · intro hx
    induction links generalizing x with
    | nil => exact ⟨x,hx,.refl⟩
    | cons link older ih =>
      obtain ⟨q,c⟩ := link
      have hup : ∀ y ∈ family roots older,
          ∃ z ∈ roots, Relation.ReflTransGen (fun p d => (p,d) ∈ (q,c) :: older) z y := by
        intro y hy
        obtain ⟨z,hz,hzy⟩ := ih hg.2.2 hy
        have hmore : (fun p d => (p,d) ∈ older) ≤ (fun p d => (p,d) ∈ (q,c) :: older) :=
          fun _ _ h => List.mem_cons_of_mem _ h
        exact ⟨z,hz,Relation.ReflTransGen.mono hmore _ _ hzy⟩
      rcases mem_family_cons.mp hx with hx | ⟨hq,rfl⟩
      · exact hup x hx
      · obtain ⟨z,hz,hzq⟩ := hup q hq
        exact ⟨z,hz,hzq.tail List.mem_cons_self⟩
  · rintro ⟨z,hz,hzx⟩
    induction hzx with
    | refl => exact mem_family_of_root hz
    | tail _ hlink ih => exact hg.child_mem ih hlink

/-- Where no parent has two children the descent from one root is a line: all its members
but one have a child in it. -/
theorem exists_tip (hparents : (links.map Prod.fst).Nodup) (z : κ) :
    ∃ tip ∈ family [z] links, ∀ y ∈ family [z] links, y ≠ tip → ∃ c ∈ family [z] links, (y,c) ∈ links := by
  induction links with
  | nil => exact ⟨z,by simp [family],fun y hy hne => absurd (by simpa [family] using hy) hne⟩
  | cons link older ih =>
    obtain ⟨q,d⟩ := link
    rw [List.map_cons,List.nodup_cons] at hparents
    obtain ⟨tip,htip,hchild⟩ := ih hparents.2
    have hup : ∀ y ∈ family [z] older, y ≠ tip → ∃ c ∈ family [z] ((q,d) :: older), (y,c) ∈ (q,d) :: older := by
      intro y hy hne
      obtain ⟨c,hc,hyc⟩ := hchild y hy hne
      exact ⟨c,mem_family_cons.mpr (.inl hc),List.mem_cons_of_mem _ hyc⟩
    by_cases hq : q ∈ family [z] older
    · refine ⟨d,mem_family_cons.mpr (.inr ⟨hq,rfl⟩),?_⟩
      intro y hy hne
      rcases mem_family_cons.mp hy with hy | ⟨-,rfl⟩
      · by_cases hyq : y = q
        · subst hyq
          exact ⟨d,mem_family_cons.mpr (.inr ⟨hq,rfl⟩),List.mem_cons_self⟩
        · refine hup y hy fun hyt => ?_
          -- the old tip is the new parent, for any other parent has a child already
          obtain ⟨c,-,hqc⟩ := hchild q hq fun hqt => hyq (hyt.trans hqt.symm)
          exact hparents.1 (List.mem_map.mpr ⟨_,hqc,rfl⟩)
      · exact absurd rfl hne
    · refine ⟨tip,mem_family_cons.mpr (.inl htip),?_⟩
      intro y hy hne
      rcases mem_family_cons.mp hy with hy | ⟨hq',-⟩
      · exact hup y hy hne
      · exact absurd hq' hq

end PinoyTax.Foundation
