import PinoyTax.Foundation.Interleaving

/-! # What an observer notes along an execution

An observer looks at each step, at the configurations before and after it, and may
write something down. Properties of steps and of configurations may speak of the notes
so far. The rule at the end gives the exact condition for a property: it is kept by steps
that meet the condition, and a step that misses it dooms what is left of the execution.
-/
namespace PinoyTax.Foundation
variable {σ ℓ ε α ω : Type}

/-- The notes at the end of a trace, the latest note first. -/
def observe (obs : Config σ ℓ ε α → ℕ → ℓ → Config σ ℓ ε α → List ω) :
    Config σ ℓ ε α → List (ℕ × ℓ) → List ω → List ω
  | _, [], notes => notes
  | c, (i,l) :: tr, notes =>
    match c.step i with
    | some (_,c') => observe obs c' tr (obs c i l c' ++ notes)
    | none => notes

section
variable (obs : Config σ ℓ ε α → ℕ → ℓ → Config σ ℓ ε α → List ω)

/-- Each step of the trace has the property, given the notes before it. -/
def Whenever (Q : List ω → Config σ ℓ ε α → ℕ → ℓ → Config σ ℓ ε α → Prop) (c : Config σ ℓ ε α)
    (tr : List (ℕ × ℓ)) (notes : List ω) : Prop :=
  ∀ tr₁ i l tr₂ e e', tr = tr₁ ++ (i,l) :: tr₂ → Steps c tr₁ e → e.step i = some (l,e') →
    Q (observe obs c tr₁ notes) e i l e'

/-- Each configuration on the way has the property, given the notes up to it. -/
def Throughout (P : List ω → Config σ ℓ ε α → Prop) (c : Config σ ℓ ε α) (tr : List (ℕ × ℓ)) (notes : List ω) :
    Prop :=
  ∀ tr₁ tr₂ e, tr = tr₁ ++ tr₂ → Steps c tr₁ e → P (observe obs c tr₁ notes) e

end

variable {obs : Config σ ℓ ε α → ℕ → ℓ → Config σ ℓ ε α → List ω} {c c' d : Config σ ℓ ε α}
  {tr tr' : List (ℕ × ℓ)} {notes : List ω} {i : ℕ} {l : ℓ}
  {Q K : List ω → Config σ ℓ ε α → ℕ → ℓ → Config σ ℓ ε α → Prop} {P : List ω → Config σ ℓ ε α → Prop}

theorem observe_cons (h : c.step i = some (l,c')) :
    observe obs c ((i,l) :: tr) notes = observe obs c' tr (obs c i l c' ++ notes) := by
  rw [observe,h]

theorem whenever_nil : Whenever obs Q c [] notes := by
  intro tr₁ i l tr₂ e e' htr
  cases tr₁ <;> cases htr

theorem whenever_cons (h : c.step i = some (l,c')) :
    Whenever obs Q c ((i,l) :: tr) notes ↔ Q notes c i l c' ∧ Whenever obs Q c' tr (obs c i l c' ++ notes) := by
  constructor
  · intro hw
    refine ⟨hw [] i l tr c c' rfl (.refl c) h,?_⟩
    intro tr₁ j k tr₂ e e' htr he hs
    have hq := hw ((i,l) :: tr₁) j k tr₂ e e' (by rw [htr]; rfl) (.step h he) hs
    rwa [observe_cons h] at hq
  · rintro ⟨hq,hrest⟩ tr₁ j k tr₂ e e' htr he hs
    cases he with
    | refl c =>
      obtain ⟨hhead,-⟩ := List.cons.inj htr
      cases hhead
      obtain rfl : c' = e' := by simpa [h] using hs
      exact hq
    | @step _ c'' _ i' l' tr₁ h' he =>
      obtain ⟨hhead,htail⟩ := List.cons.inj htr
      cases hhead
      obtain rfl : c' = c'' := by simpa [h] using h'
      rw [observe_cons h]
      exact hrest tr₁ j k tr₂ e e' htail he hs

theorem Whenever.and (hQ : Whenever obs Q c tr notes) (hK : Whenever obs K c tr notes) :
    Whenever obs (fun notes c i l c' => Q notes c i l c' ∧ K notes c i l c') c tr notes :=
  fun tr₁ i l tr₂ e e' htr he hs => ⟨hQ tr₁ i l tr₂ e e' htr he hs,hK tr₁ i l tr₂ e e' htr he hs⟩

/-- A trace that its configuration cannot begin with asks for nothing. -/
theorem whenever_of_no_step (h : ∀ c', c.step i ≠ some (l,c')) : Whenever obs Q c ((i,l) :: tr) notes := by
  intro tr₁ j k tr₂ e e' htr he hs
  cases he with
  | refl c =>
    obtain ⟨hhead,-⟩ := List.cons.inj htr
    cases hhead
    exact absurd hs (h e')
  | @step _ c'' _ i' l' tr₁ h' he =>
    obtain ⟨hhead,-⟩ := List.cons.inj htr
    cases hhead
    exact absurd h' (h c'')

instance decidableWhenever [DecidableEq ℓ] [∀ notes c i l c', Decidable (Q notes c i l c')] :
    (c : Config σ ℓ ε α) → (tr : List (ℕ × ℓ)) → (notes : List ω) → Decidable (Whenever obs Q c tr notes)
  | _, [], _ => isTrue whenever_nil
  | c, (i,l) :: tr, notes =>
    match h : c.step i with
    | none => isTrue (whenever_of_no_step fun c' h' => by simp [h] at h')
    | some (l',c') =>
      if hl : l' = l then
        have hrest := decidableWhenever c' tr (obs c i l c' ++ notes)
        decidable_of_iff (Q notes c i l c' ∧ Whenever obs Q c' tr (obs c i l c' ++ notes))
          (whenever_cons (hl ▸ h)).symm
      else isTrue (whenever_of_no_step fun c'' h' => hl (by simp [h] at h'; exact h'.1))

theorem throughout_cons (h : c.step i = some (l,c')) :
    Throughout obs P c ((i,l) :: tr) notes ↔ P notes c ∧ Throughout obs P c' tr (obs c i l c' ++ notes) := by
  constructor
  · intro ht
    refine ⟨ht [] _ c rfl (.refl c),?_⟩
    intro tr₁ tr₂ e htr he
    have hp := ht ((i,l) :: tr₁) tr₂ e (by rw [htr]; rfl) (.step h he)
    rwa [observe_cons h] at hp
  · rintro ⟨hp,hrest⟩ tr₁ tr₂ e htr he
    cases he with
    | refl c => exact hp
    | @step _ c'' _ i' l' tr₁ h' he =>
      obtain ⟨hhead,htail⟩ := List.cons.inj htr
      cases hhead
      obtain rfl : c' = c'' := by simpa [h] using h'
      rw [observe_cons h]
      exact hrest tr₁ tr₂ e htail he

/-- A property of configurations is one of the first configuration and of each step. -/
theorem throughout_iff_whenever (h : Steps c tr d) :
    Throughout obs P c tr notes ↔
      P notes c ∧ Whenever obs (fun notes c i l c' => P (obs c i l c' ++ notes) c') c tr notes := by
  induction h generalizing notes with
  | refl c =>
    constructor
    · intro ht
      exact ⟨ht [] [] c rfl (.refl c),whenever_nil⟩
    · rintro ⟨hp,-⟩ tr₁ tr₂ e htr he
      obtain ⟨rfl,-⟩ := List.append_eq_nil_iff.mp htr.symm
      cases he
      exact hp
  | step hs _ ih =>
    rw [throughout_cons hs,whenever_cons hs,ih]

namespace Steps

variable (obs) in
/-- What every step keeps, with its notes, holds at the end. -/
theorem observed {J : List ω → Config σ ℓ ε α → Prop}
    (hstep : ∀ {notes c i l c'}, J notes c → c.step i = some (l,c') → J (obs c i l c' ++ notes) c')
    (h : Steps c tr d) (hJ : J notes c) : J (observe obs c tr notes) d := by
  induction h generalizing notes with
  | refl c => exact hJ
  | step hs _ ih =>
    rw [observe_cons hs]
    exact ih (hstep hJ hs)

/-- No completed execution from a doomed configuration has the property: what dooms it
stays as long as the steps have the property, and the threads cannot all return meanwhile. -/
theorem not_whenever {B : List ω → Config σ ℓ ε α → Prop}
    (hstays : ∀ {notes c i l c'}, B notes c → c.step i = some (l,c') → Q notes c i l c' → B (obs c i l c' ++ notes) c')
    (hend : ∀ {notes c}, B notes c → ¬ c.Completed) (h : Steps c tr d) (hd : d.Completed) (hB : B notes c) :
    ¬ Whenever obs Q c tr notes := by
  induction h generalizing notes with
  | refl c => exact absurd hd (hend hB)
  | step hs _ ih =>
    rw [whenever_cons hs]
    rintro ⟨hq,hrest⟩
    exact ih hd (hstays hB hs hq) hrest

/-- The rule for one direction: steps that meet the condition have the property and
keep the invariant. -/
theorem whenever_of {J : List ω → Config σ ℓ ε α → Prop}
    (hgood : ∀ {notes c i l c'}, J notes c → c.step i = some (l,c') → K notes c i l c' →
      Q notes c i l c' ∧ J (obs c i l c' ++ notes) c')
    (h : Steps c tr d) (hJ : J notes c) (hK : Whenever obs K c tr notes) : Whenever obs Q c tr notes := by
  induction h generalizing notes with
  | refl c => exact whenever_nil
  | step hs _ ih =>
    rw [whenever_cons hs] at hK ⊢
    obtain ⟨hq,hJ'⟩ := hgood hJ hs hK.1
    exact ⟨hq,ih hJ' hK.2⟩

/-- The rule for the other direction: a step that misses the condition dooms the execution. -/
theorem whenever_of_completed {J B : List ω → Config σ ℓ ε α → Prop}
    (hgood : ∀ {notes c i l c'}, J notes c → c.step i = some (l,c') → K notes c i l c' → J (obs c i l c' ++ notes) c')
    (hbad : ∀ {notes c i l c'}, J notes c → c.step i = some (l,c') → ¬ K notes c i l c' → Q notes c i l c' →
      B (obs c i l c' ++ notes) c')
    (hstays : ∀ {notes c i l c'}, B notes c → c.step i = some (l,c') → Q notes c i l c' → B (obs c i l c' ++ notes) c')
    (hend : ∀ {notes c}, B notes c → ¬ c.Completed) (h : Steps c tr d) (hd : d.Completed) (hJ : J notes c)
    (hQ : Whenever obs Q c tr notes) : Whenever obs K c tr notes := by
  induction h generalizing notes with
  | refl c => exact whenever_nil
  | @step c c' d i l tr hs rest ih =>
    rw [whenever_cons hs] at hQ ⊢
    obtain ⟨hq,hrest⟩ := hQ
    by_cases hk : K notes c i l c'
    · exact ⟨hk,ih hd (hgood hJ hs hk) hrest⟩
    · exact absurd hrest (rest.not_whenever hstays hend hd (hbad hJ hs hk hq))

/-- The exact condition for a property of configurations. It is enough for every
execution, and executions that complete with the property have met it. -/
theorem throughout_exactly {J B : List ω → Config σ ℓ ε α → Prop} (hJP : ∀ {notes c}, J notes c → P notes c)
    (hgood : ∀ {notes c i l c'}, J notes c → c.step i = some (l,c') → K notes c i l c' → J (obs c i l c' ++ notes) c')
    (hbad : ∀ {notes c i l c'}, J notes c → c.step i = some (l,c') → ¬ K notes c i l c' →
      P (obs c i l c' ++ notes) c' → B (obs c i l c' ++ notes) c')
    (hstays : ∀ {notes c i l c'}, B notes c → c.step i = some (l,c') → P (obs c i l c' ++ notes) c' →
      B (obs c i l c' ++ notes) c')
    (hend : ∀ {notes c}, B notes c → ¬ c.Completed) (h : Steps c tr d) (hJ : J notes c) :
    (Whenever obs K c tr notes → Throughout obs P c tr notes) ∧
      (d.Completed → Throughout obs P c tr notes → Whenever obs K c tr notes) := by
  rw [throughout_iff_whenever h,and_iff_right (hJP hJ)]
  constructor
  · refine h.whenever_of (J := J) (fun hJ hs hk => ?_) hJ
    have hJ' := hgood hJ hs hk
    exact ⟨hJP hJ',hJ'⟩
  · intro hd
    exact h.whenever_of_completed hgood hbad hstays hend hd hJ

end Steps

/-! ## What happened since a thread's own statement -/

/-- An observer that writes every statement down. -/
abbrev recorded : Config σ ℓ ε α → ℕ → ℓ → Config σ ℓ ε α → List (ℕ × ℓ) := fun _ i l _ => [(i,l)]

/-- How many statements `l₁` there were since the thread's own statement `l₀`. -/
def since [DecidableEq ℓ] (l₀ l₁ : ℓ) (i : ℕ) (notes : List (ℕ × ℓ)) : ℕ :=
  (notes.takeWhile (fun e => e ≠ (i,l₀))).countP (fun e => e.2 = l₁)

section
variable [DecidableEq ℓ] {l₀ l₁ : ℓ} {j : ℕ} {events : List (ℕ × ℓ)}

@[simp] theorem since_self : since l₀ l₁ i ((i,l₀) :: events) = 0 := by simp [since]

theorem since_cons (h : j ≠ i ∨ l ≠ l₀) :
    since l₀ l₁ i ((j,l) :: events) = since l₀ l₁ i events + if l = l₁ then 1 else 0 := by
  have hne : (j,l) ≠ (i,l₀) := by
    rintro heq
    obtain ⟨hj,hl⟩ := Prod.mk.inj heq
    exact h.elim (fun h => h hj) fun h => h hl
  rw [since,List.takeWhile_cons,if_pos (decide_eq_true hne),List.countP_cons]
  simp only [since,decide_eq_true_eq]

end
end PinoyTax.Foundation
