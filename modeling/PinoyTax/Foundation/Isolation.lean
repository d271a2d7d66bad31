import PinoyTax.Foundation.Program

/-! # Programs that see and change only a part of the state

A boundary says what a principal sees of a state and how it may change a state. A
program is isolated by it when it does on what the principal sees just what it does
on the whole state, and changes every state on its way only as the boundary allows.
Two states that look the same to the principal then give the same reply.
-/
namespace PinoyTax.Foundation
variable {σ ℓ ε α β γ : Type}

structure Boundary (σ : Type) where
  restrict : σ → σ
  /-- How a state may have changed; a state that may be reached is related to itself. -/
  Allows : σ → σ → Prop
  trans : ∀ {s t u}, Allows s t → Allows t u → Allows s u

/-- From the states of `P` the program is isolated, and ends with its result in `Q`. -/
structure Isolates (B : Boundary σ) (P : σ → Prop) (p : Prog σ ℓ ε α) (Q : α → σ → Prop) : Prop where
  commutes : ∀ s, P s → p.run (B.restrict s) = ((p.run s).1,B.restrict (p.run s).2)
  allowed : ∀ s, P s → Prog.Within (B.Allows s) p s
  result : ∀ s, P s → ∀ a, (p.run s).1 = .ok a → Q a (p.run s).2

namespace Isolates
variable {B : Boundary σ} {P P' : σ → Prop} {p : Prog σ ℓ ε α} {Q Q' : α → σ → Prop} {f : α → Prog σ ℓ ε β}
  {R : β → σ → Prop}

theorem done {a : α} (hP : ∀ s, P s → B.Allows s s) (hQ : ∀ s, P s → Q a s) :
    Isolates B P (.done (.ok a) : Prog σ ℓ ε α) Q where
  commutes _ _ := rfl
  allowed s hs := hP s hs
  result s hs a' ha := by
    cases ha
    exact hQ s hs

theorem throw {e : ε} (hP : ∀ s, P s → B.Allows s s) : Isolates B P (Prog.throw e : Prog σ ℓ ε α) Q where
  commutes _ _ := rfl
  allowed s hs := hP s hs
  result _ _ _ ha := by cases ha

/-- Reading what the restriction leaves as it is. -/
theorem query {l : ℓ} {g : σ → α} (hP : ∀ s, P s → B.Allows s s) (hg : ∀ s, P s → g (B.restrict s) = g s)
    (hQ : ∀ s, P s → Q (g s) s) : Isolates B P (Prog.query l g : Prog σ ℓ ε α) Q where
  commutes s hs := by rw [Prog.run_query,Prog.run_query,hg s hs]
  allowed s hs := ⟨hP s hs,hP s hs⟩
  result s hs a ha := by
    cases ha
    exact hQ s hs

/-- One statement that writes. -/
theorem stmt {l : ℓ} {w : σ → σ} {r : σ → Except ε α} (hP : ∀ s, P s → B.Allows s s)
    (hw : ∀ s, P s → B.Allows s (w s)) (hcommute : ∀ s, P s → w (B.restrict s) = B.restrict (w s))
    (hr : ∀ s, P s → r (B.restrict s) = r s) (hQ : ∀ s a, P s → r s = .ok a → Q a (w s)) :
    Isolates B P (Prog.stmt l w fun s => .done (r s)) Q where
  commutes s hs := by
    simp only [Prog.run_stmt,Prog.run_done]
    rw [hr s hs,hcommute s hs]
  allowed s hs := ⟨hP s hs,hw s hs⟩
  result s hs a ha := hQ s a hs ha

theorem bind (hp : Isolates B P p Q) (hf : ∀ a, Isolates B (Q a) (f a) R) : Isolates B P (p >>= f) R where
  commutes s hs := by
    have hc := hp.commutes s hs
    have hres := hp.result s hs
    rw [Prog.run_bind,Prog.run_bind,hc]
    generalize p.run s = out at hres ⊢
    obtain ⟨r,t⟩ := out
    cases r with
    | ok a => exact (hf a).commutes t (hres a rfl)
    | error e => rfl
  allowed s hs := by
    apply Prog.Within.bind (hp.allowed s hs)
    intro a ha
    have hstep := (hp.allowed s hs).run
    exact ((hf a).allowed _ (hp.result s hs a ha)).mono fun _ => B.trans hstep
  result s hs b hb := by
    have hres := hp.result s hs
    rw [Prog.run_bind] at hb ⊢
    generalize p.run s = out at hres hb ⊢
    obtain ⟨r,t⟩ := out
    cases r with
    | ok a => exact (hf a).result t (hres a rfl) b hb
    | error e => cases hb

/-- Two parts that are isolated only together. -/
theorem bind_bind {g : α → Prog σ ℓ ε β} {f : β → Prog σ ℓ ε γ} {R : γ → σ → Prop} {Q : β → σ → Prop}
    (hp : Isolates B P (p >>= g) Q) (hf : ∀ b, Isolates B (Q b) (f b) R) :
    Isolates B P (p >>= fun a => g a >>= f) R := by
  rw [← Prog.bind_assoc]
  exact hp.bind hf

theorem mono (h : Isolates B P p Q) (hP : ∀ s, P' s → P s) (hQ : ∀ a s, Q a s → Q' a s) : Isolates B P' p Q' where
  commutes s hs := h.commutes s (hP s hs)
  allowed s hs := h.allowed s (hP s hs)
  result s hs a ha := hQ a _ (h.result s (hP s hs) a ha)

theorem post (h : Isolates B P p Q) (hQ : ∀ a s, Q a s → Q' a s) : Isolates B P p Q' := h.mono (fun _ hs => hs) hQ

/-- What holds of all states of `P`, whatever they are, may be assumed. -/
theorem assume {φ : Prop} (hφ : ∀ s, P s → φ) (h : φ → Isolates B P p Q) : Isolates B P p Q where
  commutes s hs := (h (hφ s hs)).commutes s hs
  allowed s hs := (h (hφ s hs)).allowed s hs
  result s hs := (h (hφ s hs)).result s hs

/-- States that look the same give the same reply and look the same afterwards, also when
one is seen through another boundary. -/
theorem agree {B' : Boundary σ} (h : Isolates B P p Q) (h' : Isolates B' P' p Q') {s t : σ} (hs : P s) (ht : P' t)
    (hst : B.restrict s = B'.restrict t) :
    (p.run s).1 = (p.run t).1 ∧ B.restrict (p.run s).2 = B'.restrict (p.run t).2 := by
  have heq : ((p.run s).1,B.restrict (p.run s).2) = ((p.run t).1,B'.restrict (p.run t).2) := by
    rw [← h.commutes s hs,← h'.commutes t ht,hst]
  exact Prod.mk.inj heq

end Isolates
end PinoyTax.Foundation
