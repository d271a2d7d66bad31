import PinoyTax.Foundation.Part
import PinoyTax.Foundation.Reliance

/-! # Threads that cannot fail

A program achieves its result when it respects a discipline and no reply that the
discipline allows makes it throw. The rules are those of respecting, and what would catch an
error has nothing to catch. A discipline on a part of the state carries over to the whole.
-/
namespace PinoyTax.Foundation
variable {σ τ ℓ κ ε α β : Type}

namespace Prog

/-- `for … of` over the items. -/
def forEach {ι : Type} (body : ι → Prog σ ℓ ε Unit) : List ι → Prog σ ℓ ε Unit
  | [] => pure ()
  | i :: is => do
    body i
    forEach body is

section
variable (D : Discipline σ)

/-- From `s` on the program keeps the discipline and does not throw; its result satisfies
`Q` in all later states. -/
def Achieves (Q : α → σ → Prop) : Prog σ ℓ ε α → σ → Prop
  | .done (.ok a), s => ∀ t, D.Later s t → Q a t
  | .done (.error _), _ => False
  | .stmt _ w k, s => ∀ t, D.Later s t → D.Inv t → D.Admits (w t) →
    D.Inv (w t) ∧ D.Later t (w t) ∧ (k t).Achieves Q (w t)

variable {D} {Q Q' : α → σ → Prop} {R : β → σ → Prop} {p : Prog σ ℓ ε α} {s : σ}

theorem Achieves.bind {f : α → Prog σ ℓ ε β} (hp : p.Achieves D Q s)
    (hf : ∀ a t, D.Later s t → Q a t → (f a).Achieves D R t) : (p >>= f).Achieves D R s := by
  induction p generalizing s with
  | done r =>
    cases r with
    | ok a => exact hf a s (D.refl s) (hp s (D.refl s))
    | error e => exact hp.elim
  | stmt l w k ih =>
    intro t hst hinv hadm
    obtain ⟨hinv',hlater,hk⟩ := hp t hst hinv hadm
    exact ⟨hinv',hlater,ih t hk fun a u hu => hf a u (D.trans hst (D.trans hlater hu))⟩

theorem Achieves.mono (hp : p.Achieves D Q s) (hQ : ∀ a t, D.Later s t → Q a t → Q' a t) : p.Achieves D Q' s := by
  induction p generalizing s with
  | done r =>
    cases r with
    | ok a => exact fun t ht => hQ a t ht (hp t ht)
    | error e => exact hp
  | stmt l w k ih =>
    intro t hst hinv hadm
    obtain ⟨hinv',hlater,hk⟩ := hp t hst hinv hadm
    exact ⟨hinv',hlater,ih t hk fun a u hu => hQ a u (D.trans hst (D.trans hlater hu))⟩

/-- What would catch an error is never reached. -/
theorem Achieves.rescue {f : ε → Prog σ ℓ ε α} (hp : p.Achieves D Q s) : (p.rescue f).Achieves D Q s := by
  induction p generalizing s with
  | done r =>
    cases r with
    | ok a => exact hp
    | error e => exact hp.elim
  | stmt l w k ih =>
    intro t hst hinv hadm
    obtain ⟨hinv',hlater,hk⟩ := hp t hst hinv hadm
    exact ⟨hinv',hlater,ih t hk⟩

theorem Achieves.respects (hp : p.Achieves D Q s) : p.Respects D Q s := by
  induction p generalizing s with
  | done r =>
    cases r with
    | ok a => exact hp
    | error e => exact hp.elim
  | stmt l w k ih =>
    intro t hst hinv hadm
    obtain ⟨hinv',hlater,hk⟩ := hp t hst hinv hadm
    exact ⟨hinv',hlater,ih t hk⟩

end

/-! ## On a part -/

/-- A discipline on the whole that contains one on the part. -/
structure Covers (P : Part σ τ) (D : Discipline σ) (E : Discipline τ) : Prop where
  inv : ∀ {s}, D.Inv s → E.Inv (P.get s)
  admits : ∀ {s}, D.Admits s → E.Admits (P.get s)
  later : ∀ {s t}, D.Later s t → E.Later (P.get s) (P.get t)
  writes : ∀ {s a}, D.Inv s → D.Admits (P.set a s) → E.Inv a → E.Later (P.get s) a →
    D.Inv (P.set a s) ∧ D.Later s (P.set a s)

theorem Achieves.zoom {P : Part σ τ} {D : Discipline σ} {E : Discipline τ} (hcovers : Covers P D E) {label : ℓ → κ}
    {Q : α → τ → Prop} {p : Prog τ ℓ ε α} {s : σ} (hp : p.Achieves E Q (P.get s)) :
    (p.zoom P label).Achieves D (fun a t => Q a (P.get t)) s := by
  induction p generalizing s with
  | done r =>
    cases r with
    | ok a => exact fun t ht => hp (P.get t) (hcovers.later ht)
    | error e => exact hp
  | stmt l w k ih =>
    intro t hst hinv hadm
    have hpart := hcovers.admits hadm
    rw [P.get_set] at hpart
    obtain ⟨hinv',hlater,hk⟩ := hp (P.get t) (hcovers.later hst) (hcovers.inv hinv) hpart
    obtain ⟨hwhole,hmoved⟩ := hcovers.writes hinv hadm hinv' hlater
    refine ⟨hwhole,hmoved,ih (P.get t) ?_⟩
    rwa [P.get_set]

end Prog
end PinoyTax.Foundation
