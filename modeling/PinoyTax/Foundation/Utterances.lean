import PinoyTax.Foundation.Reliance

/-! # What threads say

A call of a service outside the system leaves no trace in the state. What it carries is
in its label, and what it may carry depends on the state it is made in. So the labels are
kept in check along with the discipline, whatever the others did since the last statement.
-/
namespace PinoyTax.Foundation
variable {σ ℓ ε α β : Type}

namespace Prog
variable (D : Discipline σ) (L : ℓ → σ → Prop)

/-- From `s` on the program keeps the discipline and says only what `L` allows in the state it says it in. -/
def Speaks (Q : α → σ → Prop) : Prog σ ℓ ε α → σ → Prop
  | .done (.ok a), s => ∀ t, D.Later s t → Q a t
  | .done (.error _), _ => True
  | .stmt l w k, s => ∀ t, D.Later s t → D.Inv t → L l t ∧
    (D.Admits (w t) → D.Inv (w t) ∧ D.Later t (w t) ∧ (k t).Speaks Q (w t))

variable {D} {L} {Q : α → σ → Prop} {R : β → σ → Prop} {p : Prog σ ℓ ε α}

theorem Speaks.later {s t : σ} (hp : p.Speaks D L Q s) (hst : D.Later s t) : p.Speaks D L Q t := by
  cases p with
  | done r =>
    cases r with
    | ok a => exact fun u hu => hp u (D.trans hst hu)
    | error e => trivial
  | stmt l w k => exact fun u hu => hp u (D.trans hst hu)

theorem Speaks.bind {f : α → Prog σ ℓ ε β} {s : σ} (hp : p.Speaks D L Q s)
    (hf : ∀ a t, Q a t → (f a).Speaks D L R t) : (p >>= f).Speaks D L R s := by
  induction p generalizing s with
  | done r =>
    cases r with
    | ok a => exact hf a s (hp s (D.refl s))
    | error e => trivial
  | stmt l w k ih =>
    intro t hst hinv
    obtain ⟨hallowed,hrest⟩ := hp t hst hinv
    refine ⟨hallowed,fun hadm => ?_⟩
    obtain ⟨hinv',hlater,hk⟩ := hrest hadm
    exact ⟨hinv',hlater,ih t hk⟩

/-- Asking, and going on with the reply. -/
theorem speaks_query_bind {l : ℓ} {g : σ → α} {f : α → Prog σ ℓ ε β} {s : σ}
    (hl : ∀ t, D.Later s t → D.Inv t → L l t)
    (hf : ∀ t, D.Later s t → D.Inv t → (f (g t)).Speaks D L R t) : (Prog.query l g >>= f).Speaks D L R s :=
  fun t hst hinv => ⟨hl t hst hinv,fun _ => ⟨hinv,D.refl t,hf t hst hinv⟩⟩

theorem speaks_ite {φ : Prop} {_ : Decidable φ} {q : Prog σ ℓ ε α} {s : σ} (hp : φ → p.Speaks D L Q s)
    (hq : ¬ φ → q.Speaks D L Q s) : (if φ then p else q).Speaks D L Q s := by
  by_cases h : φ
  · rw [if_pos h]
    exact hp h
  · rw [if_neg h]
    exact hq h

end Prog

/-- The rule: when whatever arrives speaks so from any state of the invariant on, whatever a
thread is about to say is allowed. -/
theorem Reached.said {D : Discipline σ} {L : ℓ → σ → Prop} {Start : σ → Prop} {Arrives : Prog σ ℓ ε α → Prop}
    {Outside : σ → σ → Prop} {c : Config σ ℓ ε α} {Q : α → σ → Prop} (hstart : ∀ s, Start s → D.Inv s)
    (harrives : ∀ p, Arrives p → ∀ s, D.Inv s → p.Speaks D L Q s)
    (houtside : ∀ s t, Outside s t → D.Inv s → D.Inv t ∧ D.Later s t)
    (h : Reached Start D.Admits Arrives Outside c) {l : ℓ} {w : σ → σ} {k : σ → Prog σ ℓ ε α}
    (hp : .stmt l w k ∈ c.threads) : D.Inv c.state ∧ L l c.state := by
  have hall : D.Inv c.state ∧ ∀ p ∈ c.threads, p.Speaks D L Q c.state := by
    clear hp
    induction h with
    | start hs => exact ⟨hstart _ hs,fun p hp => absurd hp List.not_mem_nil⟩
    | arrive h hp ih =>
      refine ⟨ih.1,fun q hq => ?_⟩
      rcases List.mem_cons.mp hq with rfl | hq
      · exact harrives q hp _ ih.1
      · exact ih.2 q hq
    | @execute c c' i l h hstep hadmits ih =>
      obtain ⟨w,k,hi,rfl⟩ := Config.step_eq_some hstep
      obtain ⟨hinv,hlater,hk⟩ := (ih.2 _ (List.mem_of_getElem? hi) c.state (D.refl _) ih.1).2 hadmits
      refine ⟨hinv,fun q hq => ?_⟩
      rcases List.mem_or_eq_of_mem_set hq with hq | rfl
      · exact (ih.2 q hq).later hlater
      · exact hk
    | outside h ht ih =>
      obtain ⟨hinv,hlater⟩ := houtside _ _ ht ih.1
      exact ⟨hinv,fun q hq => (ih.2 q hq).later hlater⟩
  exact ⟨hall.1,(hall.2 _ hp c.state (D.refl _) hall.1).1⟩

end PinoyTax.Foundation
