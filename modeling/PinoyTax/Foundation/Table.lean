import Mathlib.Algebra.BigOperators.Group.List.Basic
import Mathlib.Algebra.GroupWithZero.Nat
import Mathlib.Data.List.Nodup
import Mathlib.Data.List.Sort
import Mathlib.Tactic.Common

/-! # Tables as lists of rows

A table is the list of its rows in the order the database returns them. A bulk
update rewrites the rows that match, a bulk deletion drops them, an insertion
appends. The lemmas say how a selection meets each of the three, and what a key
that is unique among the rows gives.
-/
namespace PinoyTax.Foundation.Table
variable {ρ κ : Type}

def updateMany (p : ρ → Bool) (f : ρ → ρ) (t : List ρ) : List ρ :=
  t.map (fun r => if p r then f r else r)

def deleteMany (p : ρ → Bool) (t : List ρ) : List ρ := t.filter (fun r => !p r)

@[simp] theorem updateMany_nil (p : ρ → Bool) (f : ρ → ρ) : updateMany p f [] = [] := rfl
@[simp] theorem updateMany_cons (p : ρ → Bool) (f : ρ → ρ) (r : ρ) (t : List ρ) :
    updateMany p f (r :: t) = (if p r then f r else r) :: updateMany p f t := rfl
@[simp] theorem updateMany_append (p : ρ → Bool) (f : ρ → ρ) (t u : List ρ) :
    updateMany p f (t ++ u) = updateMany p f t ++ updateMany p f u := List.map_append

theorem mem_updateMany {p : ρ → Bool} {f : ρ → ρ} {t : List ρ} {r : ρ} :
    r ∈ updateMany p f t ↔ ∃ q ∈ t, (if p q then f q else q) = r := List.mem_map

/-- A row of the updated table is an untouched row or the image of a matching one. -/
theorem mem_updateMany_cases {p : ρ → Bool} {f : ρ → ρ} {t : List ρ} {r : ρ} (h : r ∈ updateMany p f t) :
    (r ∈ t ∧ p r = false) ∨ ∃ q ∈ t, p q = true ∧ r = f q := by
  obtain ⟨q,hq,rfl⟩ := mem_updateMany.mp h
  cases hp : p q with
  | false => exact .inl ⟨by simpa [hp] using hq,by simp [hp]⟩
  | true => exact .inr ⟨q,hq,hp,by simp⟩

theorem mem_updateMany_of_mem {p : ρ → Bool} {f : ρ → ρ} {t : List ρ} {r : ρ} (h : r ∈ t) (hp : p r = false) :
    r ∈ updateMany p f t := mem_updateMany.mpr ⟨r,h,by simp [hp]⟩

theorem mem_updateMany_image {p : ρ → Bool} {f : ρ → ρ} {t : List ρ} {r : ρ} (h : r ∈ t) (hp : p r = true) :
    f r ∈ updateMany p f t := mem_updateMany.mpr ⟨r,h,by simp [hp]⟩

/-- Columns that the update leaves alone keep their values, row by row. -/
theorem map_updateMany {p : ρ → Bool} {f : ρ → ρ} (g : ρ → κ) (hg : ∀ r, g (f r) = g r) (t : List ρ) :
    (updateMany p f t).map g = t.map g := by
  rw [updateMany,List.map_map]
  apply List.map_congr_left
  intro r _
  simp only [Function.comp_apply]
  split
  · exact hg r
  · rfl

/-- A selection on columns that the update leaves alone commutes with it. -/
theorem filter_updateMany {p q : ρ → Bool} {f : ρ → ρ} (hq : ∀ r, q (f r) = q r) (t : List ρ) :
    (updateMany p f t).filter q = updateMany p f (t.filter q) := by
  induction t with
  | nil => rfl
  | cons r t ih =>
    by_cases hr : q r = true
    · have hr' : q (if p r then f r else r) = true := by split <;> simp [hr,hq]
      simp [hr,hr',ih]
    · have hr' : ¬ q (if p r then f r else r) = true := by split <;> simp [hr,hq]
      simp [hr,hr',ih]

/-- A selection that no row of the update is in, before or after, does not see it. -/
theorem filter_updateMany_of_disjoint {p q : ρ → Bool} {f : ρ → ρ} (h : ∀ r, p r = true → q r = false ∧ q (f r) = false)
    (t : List ρ) : (updateMany p f t).filter q = t.filter q := by
  induction t with
  | nil => rfl
  | cons r t ih =>
    cases hp : p r with
    | false => simp [hp,List.filter_cons,ih]
    | true => simp [hp,h r hp,ih]

/-- Rows that the update changes, if any, are none of the filtered ones. -/
theorem filter_updateMany_eq_self {p q : ρ → Bool} {f : ρ → ρ} {t : List ρ}
    (h : ∀ r ∈ t, p r = true → q (f r) = q r ∧ (q r = true → f r = r)) : (updateMany p f t).filter q = t.filter q := by
  induction t with
  | nil => rfl
  | cons r t ih =>
    have hrest := ih fun q hq => h q (List.mem_cons_of_mem _ hq)
    cases hp : p r with
    | false => simp only [updateMany_cons,hp,Bool.false_eq_true,if_false,List.filter_cons,hrest]
    | true =>
      obtain ⟨hsame,hfix⟩ := h r List.mem_cons_self hp
      cases hq : q r with
      | false => simp only [updateMany_cons,hp,if_true,List.filter_cons,hsame,hq,Bool.false_eq_true,if_false,hrest]
      | true => rw [updateMany_cons,hp,if_pos rfl,hfix hq,List.filter_cons,List.filter_cons,hrest]

theorem updateMany_congr {p q : ρ → Bool} {f : ρ → ρ} {t : List ρ} (h : ∀ r ∈ t, p r = q r) :
    updateMany p f t = updateMany q f t := by
  apply List.map_congr_left
  intro r hr
  rw [h r hr]

theorem find?_updateMany {p q : ρ → Bool} {f : ρ → ρ} (hq : ∀ r, q (f r) = q r) (t : List ρ) :
    (updateMany p f t).find? q = (t.find? q).map (fun r => if p r then f r else r) := by
  induction t with
  | nil => rfl
  | cons r t ih =>
    have hr : q (if p r then f r else r) = q r := by split <;> simp [hq]
    simp only [updateMany_cons,List.find?_cons,hr,ih]
    cases q r <;> rfl

/-- An update whose matching rows are already fixed changes nothing. -/
theorem updateMany_eq_self {p : ρ → Bool} {f : ρ → ρ} {t : List ρ} (h : ∀ r ∈ t, p r = true → f r = r) :
    updateMany p f t = t := by
  conv_rhs => rw [← List.map_id t]
  apply List.map_congr_left
  intro r hr
  split
  · exact h r hr ‹_›
  · rfl

theorem filter_deleteMany_of_disjoint {p q : ρ → Bool} (h : ∀ r, p r = true → q r = false) (t : List ρ) :
    (deleteMany p t).filter q = t.filter q := by
  rw [deleteMany,List.filter_filter]
  apply List.filter_congr
  intro r _
  cases hp : p r with
  | false => simp
  | true => simp [h r hp]

@[simp] theorem filter_deleteMany_self (p : ρ → Bool) (t : List ρ) : (deleteMany p t).filter p = [] := by
  rw [deleteMany,List.filter_filter]
  simp

theorem mem_deleteMany {p : ρ → Bool} {t : List ρ} {r : ρ} : r ∈ deleteMany p t ↔ r ∈ t ∧ p r = false := by
  simp [deleteMany]

/-! ## Unique keys -/

section Key
variable [DecidableEq κ] {key : ρ → κ} {t : List ρ}

omit [DecidableEq κ] in
theorem eq_of_key (hn : (t.map key).Nodup) {r q : ρ} (hr : r ∈ t) (hq : q ∈ t) (h : key r = key q) : r = q :=
  List.inj_on_of_nodup_map hn hr hq h

omit [DecidableEq κ] in
/-- A selection of rows with one key is one row at most. -/
theorem tail_filter_eq_nil (hn : (t.map key).Nodup) {p : ρ → Bool}
    (hp : ∀ r q, p r = true → p q = true → key r = key q) : (t.filter p).tail = [] := by
  cases hf : t.filter p with
  | nil => rfl
  | cons r rows =>
    cases rows with
    | nil => rfl
    | cons q rows =>
      have hnodup : (t.filter p).Nodup := (List.Nodup.of_map _ hn).filter p
      have hr : r ∈ t.filter p := by simp [hf]
      have hq : q ∈ t.filter p := by simp [hf]
      rw [List.mem_filter] at hr hq
      obtain rfl := eq_of_key hn hr.1 hq.1 (hp r q hr.2 hq.2)
      rw [hf] at hnodup
      simp at hnodup

theorem nodup_of_tail_filter (h : ∀ k, (t.filter fun r => key r = k).tail = []) : (t.map key).Nodup := by
  rw [List.nodup_iff_count_le_one]
  intro k
  have hlength : (t.filter fun r => key r = k).length - 1 = 0 := by rw [← List.length_tail,h k,List.length_nil]
  have hcount : List.count k (t.map key) = (t.filter fun r => key r = k).length := by
    rw [List.count_eq_countP,List.countP_map,List.countP_eq_length_filter]
    rfl
  omega

theorem find?_key_some {k : κ} {r : ρ} (h : t.find? (fun r => key r = k) = some r) : r ∈ t ∧ key r = k :=
  ⟨List.mem_of_find?_eq_some h,by simpa using List.find?_some h⟩

theorem find?_key_none {k : κ} (h : t.find? (fun r => key r = k) = none) : ∀ r ∈ t, key r ≠ k := by
  intro r hr
  simpa using List.find?_eq_none.mp h r hr

variable (key) in
theorem exists_find?_of_mem {r : ρ} (hr : r ∈ t) : ∃ q, t.find? (fun q => key q = key r) = some q := by
  cases h : t.find? (fun q => key q = key r) with
  | none => exact absurd rfl (find?_key_none h r hr)
  | some q => exact ⟨q,rfl⟩

/-- With unique keys the row of a key is the one the lookup finds. -/
theorem find?_of_mem (hn : (t.map key).Nodup) {r : ρ} (hr : r ∈ t) :
    t.find? (fun q => key q = key r) = some r := by
  cases h : t.find? (fun q => key q = key r) with
  | none => exact absurd rfl (find?_key_none h r hr)
  | some q =>
    obtain ⟨hq,hk⟩ := find?_key_some h
    rw [eq_of_key hn hq hr hk]

/-- A lookup among the rows of one owner agrees with the lookup in the whole
table, as long as the row found there is that owner's. -/
theorem find?_filter_key (hn : (t.map key).Nodup) (q : ρ → Bool) (k : κ) :
    (t.filter q).find? (fun r => key r = k) = (t.find? (fun r => key r = k)).filter q := by
  cases h : t.find? (fun r => key r = k) with
  | none =>
    have hk := find?_key_none h
    simp only [Option.filter_none,List.find?_eq_none]
    intro r hr
    simpa using hk r (List.mem_filter.mp hr).1
  | some r =>
    obtain ⟨hr,hk⟩ := find?_key_some h
    cases hq : q r with
    | false =>
      rw [Option.filter_some,hq,if_neg Bool.false_ne_true,List.find?_eq_none]
      intro u hu huk
      obtain ⟨hu,hqu⟩ := List.mem_filter.mp hu
      rw [eq_of_key hn hu hr (by simpa [hk] using huk)] at hqu
      simp [hq] at hqu
    | true =>
      have hf := find?_of_mem (hn.sublist ((List.filter_sublist).map key)) (List.mem_filter.mpr ⟨hr,hq⟩)
      simpa [Option.filter_some,hq,hk] using hf

/-- A lookup of the key just inserted finds the new row. -/
theorem find?_append_fresh {r : ρ} (hr : key r ∉ t.map key) : (t ++ [r]).find? (fun q => key q = key r) = some r := by
  have hold : t.find? (fun q => key q = key r) = none := by
    rw [List.find?_eq_none]
    intro q hq hkey
    exact hr (List.mem_map.mpr ⟨q,hq,of_decide_eq_true hkey⟩)
  simp [List.find?_append,hold]

/-- An update of the key just inserted rewrites the new row only. -/
theorem updateMany_append_fresh {r : ρ} (hr : key r ∉ t.map key) (f : ρ → ρ) :
    updateMany (fun q => key q = key r) f (t ++ [r]) = t ++ [f r] := by
  have hold : updateMany (fun q => key q = key r) f t = t := by
    apply updateMany_eq_self
    intro q hq hkey
    exact absurd (List.mem_map.mpr ⟨q,hq,of_decide_eq_true hkey⟩) hr
  simp [hold]

omit [DecidableEq κ] in
theorem nodup_append_fresh (hn : (t.map key).Nodup) {r : ρ} (hr : ∀ q ∈ t, key q ≠ key r) :
    ((t ++ [r]).map key).Nodup := by
  rw [List.map_append]
  apply List.Nodup.append hn (by simp)
  intro k hk hk'
  obtain ⟨q,hq,rfl⟩ := List.mem_map.mp hk
  exact hr q hq (by simpa using hk')

omit [DecidableEq κ] in
theorem nodup_updateMany {p : ρ → Bool} {f : ρ → ρ} (hf : ∀ r, key (f r) = key r) (hn : (t.map key).Nodup) :
    ((updateMany p f t).map key).Nodup := by rwa [map_updateMany key hf]

end Key
/-- Rows and items that correspond one to one by their keys have the same sum. -/
theorem sum_map_eq_of_keys {τ : Type} {rows : List ρ} {items : List τ} {key : ρ → κ} {itemKey : τ → κ} {f : ρ → ℕ}
    {g : τ → ℕ} (hn : (rows.map key).Nodup) (hitems : (items.map itemKey).Nodup)
    (hrow : ∀ x ∈ items, ∃ r ∈ rows, key r = itemKey x ∧ f r = g x) (hitem : ∀ r ∈ rows, key r ∈ items.map itemKey) :
    (rows.map f).sum = (items.map g).sum := by
  have hrows : (rows.map fun r => (key r,f r)).Nodup := .of_map Prod.fst (by simpa [Function.comp_def] using hn)
  have hpairs : (items.map fun x => (itemKey x,g x)).Nodup := .of_map Prod.fst (by simpa [Function.comp_def] using hitems)
  have hmem : ∀ p, p ∈ rows.map (fun r => (key r,f r)) ↔ p ∈ items.map (fun x => (itemKey x,g x)) := by
    intro p
    constructor
    · intro hp
      obtain ⟨r,hr,rfl⟩ := List.mem_map.mp hp
      obtain ⟨x,hx,hxk⟩ := List.mem_map.mp (hitem r hr)
      obtain ⟨q,hq,hqk,hqf⟩ := hrow x hx
      have hsame : q = r := eq_of_key hn hq hr (hqk.trans hxk)
      subst hsame
      exact List.mem_map.mpr ⟨x,hx,by rw [hqk,hqf]⟩
    · intro hp
      obtain ⟨x,hx,rfl⟩ := List.mem_map.mp hp
      obtain ⟨r,hr,hrk,hrf⟩ := hrow x hx
      exact List.mem_map.mpr ⟨r,hr,by rw [hrk,hrf]⟩
  have hperm := ((List.perm_ext_iff_of_nodup hrows hpairs).mpr hmem).map Prod.snd
  simpa [Function.comp_def] using hperm.sum_eq

/-! ## Putting a row -/

/-- The new rows have `b` for its key, and the old ones for all others. -/
structure Puts (key : ρ → κ) (old rows : List ρ) (b : ρ) : Prop where
  mem : b ∈ rows
  others : ∀ a, key a ≠ key b → (a ∈ rows ↔ a ∈ old)

section
variable {key : ρ → κ} {old rows : List ρ} {b : ρ}

theorem Puts.refl (hb : b ∈ rows) : Puts key rows rows b := ⟨hb,fun _ _ => Iff.rfl⟩

theorem Puts.append (key : ρ → κ) (old : List ρ) (b : ρ) : Puts key old (old ++ [b]) b := by
  refine ⟨by simp,fun a ha => ?_⟩
  have hne : a ≠ b := by
    rintro rfl
    exact ha rfl
  simp [hne]

/-- The row that was put changes in columns that are not its key. -/
theorem Puts.update {ι : Type} [DecidableEq ι] (h : Puts key old rows b) {id : ρ → ι} (hn : (rows.map id).Nodup)
    {f : ρ → ρ} (hf : ∀ a, key (f a) = key a) : Puts key old (updateMany (fun a => id a = id b) f rows) (f b) := by
  refine ⟨mem_updateMany_image h.mem (by simp),fun a ha => ?_⟩
  rw [hf] at ha
  rw [← h.others a ha]
  constructor
  · intro hmem
    rcases mem_updateMany_cases hmem with ⟨hmem,-⟩ | ⟨q,hq,hid,rfl⟩
    · exact hmem
    · have hsame : q = b := eq_of_key hn hq h.mem (by simpa using hid)
      rw [hf,hsame] at ha
      exact absurd rfl ha
  · intro hmem
    apply mem_updateMany_of_mem hmem
    have hne : id a ≠ id b := by
      intro hid
      rw [eq_of_key hn hmem h.mem hid] at ha
      exact ha rfl
    simpa using hne

end

/-- The row of the key is there, and the rows of all other keys are the old ones. -/
structure WritesAt (key : ρ → κ) (k : κ) (old rows : List ρ) : Prop where
  exists_mem : ∃ b ∈ rows, key b = k
  others : ∀ a, key a ≠ k → (a ∈ rows ↔ a ∈ old)

section
variable {key : ρ → κ} {k : κ} {old rows : List ρ}

theorem Puts.writesAt {b : ρ} (h : Puts key old rows b) : WritesAt key (key b) old rows := ⟨⟨b,h.mem,rfl⟩,h.others⟩

theorem WritesAt.updateMany (h : WritesAt key k old rows) {p : ρ → Bool} {f : ρ → ρ}
    (hp : ∀ r ∈ rows, p r = true → key r = k) (hf : ∀ r, key (f r) = key r) : WritesAt key k old (updateMany p f rows) := by
  obtain ⟨b,hb,hbk⟩ := h.exists_mem
  constructor
  · refine ⟨_,mem_updateMany.mpr ⟨b,hb,rfl⟩,?_⟩
    split
    · rw [hf,hbk]
    · exact hbk
  · intro a ha
    rw [← h.others a ha]
    constructor
    · intro hmem
      rcases mem_updateMany_cases hmem with ⟨hmem,-⟩ | ⟨q,hq,hpq,rfl⟩
      · exact hmem
      · rw [hf] at ha
        exact absurd (hp q hq hpq) ha
    · intro hmem
      exact mem_updateMany_of_mem hmem (Bool.eq_false_iff.mpr fun hpa => ha (hp a hmem hpa))

/-- An update of the row that a lookup by the key finds. -/
theorem writesAt_updateMany {b : ρ} (hb : b ∈ rows) {p : ρ → Bool}
    (hp : ∀ r ∈ rows, p r = true → key r = key b) {f : ρ → ρ} (hf : ∀ r, key (f r) = key r) :
    WritesAt key (key b) rows (updateMany p f rows) := (Puts.refl hb).writesAt.updateMany hp hf

end
end PinoyTax.Foundation.Table
