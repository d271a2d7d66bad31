import PinoyTax.Foundation.Runs

/-! # What an observer can tell

Requests are answered one at a time. An observer sends some of them and hears what these
are answered. Where the other requests change nothing that the observer's answers depend
on, two runs with the same requests of the observer sound the same.
-/
namespace PinoyTax.Foundation.Runs
variable {S R O : Type*} (next : S → R → S) (answer : S → R → O) (visible : R → Bool)

/-- The answers to the observer's requests. -/
def heard : S → List R → List O
  | _, [] => []
  | s, r :: rs => if visible r then answer s r :: heard (next s r) rs else heard (next s r) rs

/-- `K` relates states that the observer cannot tell apart, and what may follow them. -/
structure Unwinds (C : S → R → Prop) (K : S → S → Prop) : Prop where
  symm : ∀ {s t}, K s t → K t s
  hidden : ∀ {s t r}, K s t → C s r → visible r = false → K (next s r) t
  answered : ∀ {s t r}, K s t → C s r → C t r → visible r = true → answer s r = answer t r
  kept : ∀ {s t r}, K s t → C s r → C t r → visible r = true → K (next s r) (next t r)

variable {next} {answer} {visible} {C : S → R → Prop} {K : S → S → Prop}

theorem heard_of_visible {s : S} {r : R} (h : visible r = true) (rs : List R) :
    heard next answer visible s (r :: rs) = answer s r :: heard next answer visible (next s r) rs := by
  rw [heard,if_pos h]

theorem heard_of_hidden {s : S} {r : R} (h : visible r = false) (rs : List R) :
    heard next answer visible s (r :: rs) = heard next answer visible (next s r) rs := by
  rw [heard,if_neg (Bool.eq_false_iff.mp h)]

/-- Runs from states that cannot be told apart, with the same requests of the observer. -/
theorem Unwinds.heard_eq (h : Unwinds next answer visible C K) {s t : S} {rs qs : List R} (hst : K s t)
    (hs : Along next C s rs) (ht : Along next C t qs) (hsame : rs.filter visible = qs.filter visible) :
    heard next answer visible s rs = heard next answer visible t qs := by
  induction rs generalizing s t qs with
  | nil =>
    -- what is left of the second run is hidden
    induction qs generalizing t with
    | nil => rfl
    | cons q qs ih =>
      cases hq : visible q with
      | true =>
        rw [List.filter_cons_of_pos hq] at hsame
        cases hsame
      | false =>
        rw [List.filter_cons_of_neg (Bool.eq_false_iff.mp hq)] at hsame
        rw [heard_of_hidden hq]
        exact ih (h.symm (h.hidden (h.symm hst) ht.1 hq)) ht.2 hsame
  | cons r rs ih =>
    cases hr : visible r with
    | false =>
      rw [List.filter_cons_of_neg (Bool.eq_false_iff.mp hr)] at hsame
      rw [heard_of_hidden hr]
      exact ih (h.hidden hst hs.1 hr) hs.2 ht hsame
    | true =>
      -- the second run is taken up to the same request
      induction qs generalizing t with
      | nil =>
        rw [List.filter_cons_of_pos hr] at hsame
        cases hsame
      | cons q qs ihq =>
        cases hq : visible q with
        | false =>
          rw [List.filter_cons_of_neg (Bool.eq_false_iff.mp hq)] at hsame
          rw [heard_of_hidden hq]
          exact ihq (h.symm (h.hidden (h.symm hst) ht.1 hq)) ht.2 hsame
        | true =>
          rw [List.filter_cons_of_pos hr,List.filter_cons_of_pos hq,List.cons.injEq] at hsame
          obtain ⟨rfl,hrest⟩ := hsame
          rw [heard_of_visible hr,heard_of_visible hr,h.answered hst hs.1 ht.1 hr,
            ih (h.kept hst hs.1 ht.1 hr) hs.2 ht.2 hrest]

end PinoyTax.Foundation.Runs
