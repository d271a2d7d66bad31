import PinoyTax.Foundation.Table

/-! # Rows that point to rows above them

A row may name another row of its table as its parent. Where a parent stands above its
children in the table, following parents from any row comes to an end, and whatever a row
shares with its parent it shares with the root.
-/
namespace PinoyTax.Foundation.Ancestry
variable {ρ κ : Type} [DecidableEq κ] (key : ρ → κ) (parent : ρ → Option κ) (R : ρ → ρ → Prop)

/-- Every parent is there, above its child, and related to it. -/
def Descends (t : List ρ) : Prop :=
  ∀ above r below, t = above ++ r :: below → ∀ k ∈ parent r, ∃ q ∈ above, key q = k ∧ R q r

/-- The row that `n` steps to parents lead to. -/
def ancestor (t : List ρ) : ℕ → ρ → Option ρ
  | 0, r => some r
  | n + 1, r => (parent r).bind fun k => (t.find? (fun q => key q = k)).bind (ancestor t n)

variable {key parent R} {t : List ρ} {r : ρ}

omit [DecidableEq κ] in
theorem descends_nil : Descends key parent R [] := by
  intro above r below h
  cases above <;> cases h

omit [DecidableEq κ] in
/-- A row below the others, whose parent is one of them. -/
theorem Descends.append (ht : Descends key parent R t) (hr : ∀ k ∈ parent r, ∃ q ∈ t, key q = k ∧ R q r) :
    Descends key parent R (t ++ [r]) := by
  intro above r' below h
  rcases List.eq_nil_or_concat below with rfl | ⟨below,last,rfl⟩
  · obtain ⟨rfl,hlast⟩ := List.append_inj' h rfl
    obtain rfl := List.singleton_inj.mp hlast
    exact hr
  · rw [List.concat_eq_append,← List.cons_append,← List.append_assoc] at h
    obtain ⟨hfront,-⟩ := List.append_inj' h rfl
    exact ht above r' below hfront

omit [DecidableEq κ] in
theorem Descends.parent_mem (ht : Descends key parent R t) (hr : r ∈ t) {k : κ} (hk : k ∈ parent r) :
    ∃ q ∈ t, key q = k ∧ R q r := by
  obtain ⟨above,below,rfl⟩ := List.mem_iff_append.mp hr
  obtain ⟨q,hq,hqk,hqr⟩ := ht above r below rfl k hk
  exact ⟨q,List.mem_append_left _ hq,hqk,hqr⟩

/-- Following parents ends at a root, which shares with the row what rows share with their parents. -/
theorem Descends.exists_root {τ : Type} {share : ρ → τ} (ht : Descends key parent (fun q r => share q = share r) t)
    (hkeys : (t.map key).Nodup) (hr : r ∈ t) :
    ∃ n root, ancestor key parent t n r = some root ∧ parent root = none ∧ share root = share r := by
  obtain ⟨above,below,happ⟩ := List.mem_iff_append.mp hr
  -- on the number of rows above
  induction hlen : above.length using Nat.strongRecOn generalizing r above below with
  | ind n ih =>
    subst hlen
    cases hp : parent r with
    | none => exact ⟨0,r,rfl,hp,rfl⟩
    | some k =>
      obtain ⟨q,hq,hqk,hshare⟩ := ht above r below happ k hp
      have hqt : q ∈ t := by
        rw [happ]
        exact List.mem_append_left _ hq
      obtain ⟨above',below',habove⟩ := List.mem_iff_append.mp hq
      have hshorter : above'.length < above.length := by
        rw [habove,List.length_append,List.length_cons]
        omega
      have happ' : t = above' ++ q :: (below' ++ r :: below) := by
        rw [happ,habove,List.append_assoc,List.cons_append]
      obtain ⟨n,root,hn,hroot,hsame⟩ := ih _ hshorter hqt above' _ happ' rfl
      have hfind : t.find? (fun q => key q = k) = some q := by
        rw [← hqk]
        exact Table.find?_of_mem hkeys hqt
      refine ⟨n + 1,root,?_,hroot,hsame.trans hshare⟩
      rw [ancestor,hp,Option.bind_some,hfind,Option.bind_some,hn]

end PinoyTax.Foundation.Ancestry
