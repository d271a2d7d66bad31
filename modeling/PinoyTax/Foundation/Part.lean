import PinoyTax.Foundation.Program

/-! # Programs on a part of the state

A part of a state is what can be read and replaced without touching the rest. A
program on the part runs on the whole.
-/
namespace PinoyTax.Foundation

structure Part (σ τ : Type) where
  get : σ → τ
  set : τ → σ → σ
  get_set : ∀ a s, get (set a s) = a
  set_get : ∀ s, set (get s) s = s
  set_set : ∀ a b s, set a (set b s) = set a s

namespace Prog
variable {σ τ ℓ κ ε α : Type}

/-- The same statements, made on the part. -/
def zoom (P : Part σ τ) (label : ℓ → κ) : Prog τ ℓ ε α → Prog σ κ ε α
  | .done r => .done r
  | .stmt l w k => .stmt (label l) (fun s => P.set (w (P.get s)) s) (fun s => (k (P.get s)).zoom P label)

theorem run_zoom (P : Part σ τ) (label : ℓ → κ) (p : Prog τ ℓ ε α) (s : σ) :
    (p.zoom P label).run s = ((p.run (P.get s)).1,P.set (p.run (P.get s)).2 s) := by
  induction p generalizing s with
  | done r =>
    rw [run_done,P.set_get]
    rfl
  | stmt l w k ih =>
    have hrest := ih (P.get s) (P.set (w (P.get s)) s)
    rw [P.get_set,P.set_set] at hrest
    exact hrest

/-- The whole ends as the program on the part does. -/
theorem Ensures.zoom {P : Part σ τ} {label : ℓ → κ} {p : Prog τ ℓ ε α} {R : α → τ → Prop} {S : α → σ → Prop} {s : σ}
    (h : p.Ensures R (P.get s)) (hS : ∀ a t, R a t → S a (P.set t s)) : (p.zoom P label).Ensures S s := by
  unfold Ensures at h ⊢
  rw [run_zoom]
  generalize p.run (P.get s) = out at h
  obtain ⟨r,t⟩ := out
  cases r with
  | ok a => exact hS a t h
  | error e => trivial

/-- What the program does to the part, the zoomed program does to the whole. -/
theorem Guarantees.zoom {P : Part σ τ} {label : ℓ → κ} {G : ℓ → τ → τ → Prop} {H : κ → σ → σ → Prop} {p : Prog τ ℓ ε α}
    (hp : p.Guarantees G) (hGH : ∀ l s t, G l (P.get s) t → H (label l) s (P.set t s)) :
    (p.zoom P label).Guarantees H := by
  induction p with
  | done r => trivial
  | stmt l w k ih =>
    intro s
    obtain ⟨hw,hk⟩ := hp (P.get s)
    exact ⟨hGH l s _ hw,ih (P.get s) hk⟩

end Prog
end PinoyTax.Foundation
