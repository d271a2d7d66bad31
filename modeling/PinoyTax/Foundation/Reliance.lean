import PinoyTax.Foundation.Interleaving

/-! # Threads that rely on what is never undone

Threads come and go and their statements interleave. What one of them has read may be
out of date when it writes; what it can rely on is an order on states that every
statement respects. A program respects a discipline when each of its statements keeps
the invariant and moves on in the order, whatever the others did since the last one.
-/
namespace PinoyTax.Foundation
variable {σ ℓ ε α β : Type}

/-- An invariant, the states that the store accepts, and an order that is never left. -/
structure Discipline (σ : Type) where
  Inv : σ → Prop
  Admits : σ → Prop
  Later : σ → σ → Prop
  refl : ∀ s, Later s s
  trans : ∀ {s t u}, Later s t → Later t u → Later s u

namespace Prog
variable (D : Discipline σ)

/-- From `s` on the program keeps the discipline; its result satisfies `Q` in all later states. -/
def Respects (Q : α → σ → Prop) : Prog σ ℓ ε α → σ → Prop
  | .done (.ok a), s => ∀ t, D.Later s t → Q a t
  | .done (.error _), _ => True
  | .stmt _ w k, s => ∀ t, D.Later s t → D.Inv t → D.Admits (w t) →
    D.Inv (w t) ∧ D.Later t (w t) ∧ (k t).Respects Q (w t)

variable {D} {Q : α → σ → Prop} {R : β → σ → Prop} {p : Prog σ ℓ ε α}

/-- Time may pass before the next statement. -/
theorem Respects.later {s t : σ} (hp : p.Respects D Q s) (hst : D.Later s t) : p.Respects D Q t := by
  cases p with
  | done r =>
    cases r with
    | ok a => exact fun u hu => hp u (D.trans hst hu)
    | error e => trivial
  | stmt l w k => exact fun u hu => hp u (D.trans hst hu)

theorem Respects.bind {f : α → Prog σ ℓ ε β} {s : σ} (hp : p.Respects D Q s)
    (hf : ∀ a t, Q a t → (f a).Respects D R t) : (p >>= f).Respects D R s := by
  induction p generalizing s with
  | done r =>
    cases r with
    | ok a => exact hf a s (hp s (D.refl s))
    | error e => trivial
  | stmt l w k ih =>
    intro t hst hinv hadm
    obtain ⟨hinv',hlater,hk⟩ := hp t hst hinv hadm
    exact ⟨hinv',hlater,ih t hk⟩

theorem Respects.mono {Q' : α → σ → Prop} {s : σ} (hQ : ∀ a t, Q a t → Q' a t) (hp : p.Respects D Q s) :
    p.Respects D Q' s := by
  induction p generalizing s with
  | done r =>
    cases r with
    | ok a => exact fun t ht => hQ a t (hp t ht)
    | error e => trivial
  | stmt l w k ih =>
    intro t hst hinv hadm
    obtain ⟨hinv',hlater,hk⟩ := hp t hst hinv hadm
    exact ⟨hinv',hlater,ih t hk⟩

/-- Statements that need not know anything. -/
theorem Guarantees.respects (hp : p.Guarantees (fun _ s t => D.Inv s → D.Admits t → D.Inv t ∧ D.Later s t))
    (s : σ) : p.Respects D (fun _ t => D.Later s t) s := by
  induction p generalizing s with
  | done r =>
    cases r with
    | ok a => exact fun t ht => ht
    | error e => trivial
  | stmt l w k ih =>
    intro t hst hinv hadm
    obtain ⟨hinv',hlater⟩ := (hp t).1 hinv hadm
    refine ⟨hinv',hlater,(ih t (hp t).2 (w t)).mono fun _ u hu => ?_⟩
    exact D.trans hst (D.trans hlater hu)

/-- After statements that need not know anything, the rest may start later. -/
theorem Guarantees.respects_bind {f : α → Prog σ ℓ ε β} {s : σ}
    (hp : p.Guarantees (fun _ s t => D.Inv s → D.Admits t → D.Inv t ∧ D.Later s t))
    (hf : ∀ a t, D.Later s t → (f a).Respects D R t) : (p >>= f).Respects D R s :=
  (hp.respects s).bind hf

/-- What catches an error must be right in all states later than the start. -/
theorem Respects.rescue {f : ε → Prog σ ℓ ε α} {s : σ} (hp : p.Respects D Q s)
    (hf : ∀ e t, D.Later s t → (f e).Respects D Q t) : (p.rescue f).Respects D Q s := by
  induction p generalizing s with
  | done r =>
    cases r with
    | ok a => exact hp
    | error e => exact hf e s (D.refl s)
  | stmt l w k ih =>
    intro t hst hinv hadm
    obtain ⟨hinv',hlater,hk⟩ := hp t hst hinv hadm
    exact ⟨hinv',hlater,ih t hk fun e u hu => hf e u (D.trans hst (D.trans hlater hu))⟩

/-- Without interruption a program that the store accepts keeps the invariant. -/
theorem Respects.run {s : σ} (hp : p.Respects D Q s) (hs : D.Inv s) (hadmits : Within D.Admits p s) :
    D.Inv (p.run s).2 := by
  induction p generalizing s with
  | done r => exact hs
  | stmt l w k ih =>
    obtain ⟨hinv,-,hk⟩ := hp s (D.refl s) hs hadmits.2.start
    exact ih s hk hinv hadmits.2

theorem respects_done {r : Except ε α} {s : σ} (h : ∀ a, r = .ok a → ∀ t, D.Later s t → Q a t) :
    (Prog.done r : Prog σ ℓ ε α).Respects D Q s := by
  cases r with
  | ok a => exact h a rfl
  | error e => trivial

/-- Reading, and going on with the reply. -/
theorem respects_query_bind {l : ℓ} {g : σ → α} {f : α → Prog σ ℓ ε β} {s : σ}
    (hf : ∀ t, D.Later s t → D.Inv t → (f (g t)).Respects D R t) : (Prog.query l g >>= f).Respects D R s :=
  fun t hst hinv _ => ⟨hinv,D.refl t,hf t hst hinv⟩

/-- Reading. What the reply says must stay so. -/
theorem respects_query {l : ℓ} {g : σ → α} {s : σ}
    (hQ : ∀ t u, D.Inv t → D.Later s t → D.Later t u → Q (g t) u) :
    (Prog.query l g : Prog σ ℓ ε α).Respects D Q s :=
  fun t hst hinv _ => ⟨hinv,D.refl t,fun u htu => hQ t u hinv hst htu⟩

end Prog

/-! ## A system that requests arrive at -/

/-- The configurations of a system: requests arrive, one of them executes its next
statement when the store accepts it, something else changes the state. A request whose
statement is refused, or that is cut off, is not scheduled again. -/
inductive Reached (Start Admits : σ → Prop) (Arrives : Prog σ ℓ ε α → Prop) (Outside : σ → σ → Prop) :
    Config σ ℓ ε α → Prop
  | start {s : σ} (hs : Start s) : Reached Start Admits Arrives Outside ⟨s,[]⟩
  | arrive {c : Config σ ℓ ε α} {p : Prog σ ℓ ε α} (h : Reached Start Admits Arrives Outside c) (hp : Arrives p) :
      Reached Start Admits Arrives Outside ⟨c.state,p :: c.threads⟩
  | execute {c c' : Config σ ℓ ε α} {i : ℕ} {l : ℓ} (h : Reached Start Admits Arrives Outside c)
      (hstep : c.step i = some (l,c')) (hadmits : Admits c'.state) : Reached Start Admits Arrives Outside c'
  | outside {c : Config σ ℓ ε α} {t : σ} (h : Reached Start Admits Arrives Outside c)
      (ht : Outside c.state t) : Reached Start Admits Arrives Outside ⟨t,c.threads⟩

namespace Reached
variable {D : Discipline σ} {Start : σ → Prop} {Arrives : Prog σ ℓ ε α → Prop} {Outside : σ → σ → Prop}
  {c : Config σ ℓ ε α}

/-- When whatever arrives respects the discipline, the invariant holds in every configuration
and the rest of each thread still respects the discipline. -/
theorem respected {Q : α → σ → Prop} (hstart : ∀ s, Start s → D.Inv s)
    (harrives : ∀ p, Arrives p → ∀ s, D.Inv s → p.Respects D Q s)
    (houtside : ∀ s t, Outside s t → D.Inv s → D.Inv t ∧ D.Later s t)
    (h : Reached Start D.Admits Arrives Outside c) :
    D.Inv c.state ∧ ∀ p ∈ c.threads, p.Respects D Q c.state := by
  induction h with
  | start hs => exact ⟨hstart _ hs,fun p hp => absurd hp List.not_mem_nil⟩
  | arrive h hp ih =>
    refine ⟨ih.1,fun q hq => ?_⟩
    rcases List.mem_cons.mp hq with rfl | hq
    · exact harrives q hp _ ih.1
    · exact ih.2 q hq
  | @execute c c' i l h hstep hadmits ih =>
    obtain ⟨w,k,hi,rfl⟩ := Config.step_eq_some hstep
    obtain ⟨hinv,hlater,hk⟩ := ih.2 _ (List.mem_of_getElem? hi) c.state (D.refl _) ih.1 hadmits
    refine ⟨hinv,fun q hq => ?_⟩
    rcases List.mem_or_eq_of_mem_set hq with hq | rfl
    · exact (ih.2 q hq).later hlater
    · exact hk
  | outside h ht ih =>
    obtain ⟨hinv,hlater⟩ := houtside _ _ ht ih.1
    exact ⟨hinv,fun q hq => (ih.2 q hq).later hlater⟩

/-- The rule: when whatever arrives respects the discipline from any state of the
invariant on, the invariant holds in every configuration. -/
theorem inv (hstart : ∀ s, Start s → D.Inv s)
    (harrives : ∀ p, Arrives p → ∀ s, D.Inv s → p.Respects D (fun _ _ => True) s)
    (houtside : ∀ s t, Outside s t → D.Inv s → D.Inv t ∧ D.Later s t)
    (h : Reached Start D.Admits Arrives Outside c) :
    D.Inv c.state ∧ ∀ p ∈ c.threads, p.Respects D (fun _ _ => True) c.state :=
  respected hstart harrives houtside h

/-- What a reply says stays so. -/
theorem replied {Q : α → σ → Prop} (hstart : ∀ s, Start s → D.Inv s)
    (harrives : ∀ p, Arrives p → ∀ s, D.Inv s → p.Respects D Q s)
    (houtside : ∀ s t, Outside s t → D.Inv s → D.Inv t ∧ D.Later s t)
    (h : Reached Start D.Admits Arrives Outside c) {a : α} (ha : .done (.ok a) ∈ c.threads) : Q a c.state :=
  (respected hstart harrives houtside h).2 _ ha _ (D.refl _)

/-- From one state on the system only moves on in the order. -/
theorem later {Q : α → σ → Prop} {s : σ} (hs : D.Inv s) (harrives : ∀ p, Arrives p → ∀ s, D.Inv s → p.Respects D Q s)
    (houtside : ∀ s t, Outside s t → D.Inv s → D.Inv t ∧ D.Later s t)
    (h : Reached (fun t => t = s) D.Admits Arrives Outside c) : D.Later s c.state := by
  have hstart : ∀ t, t = s → D.Inv t := fun t ht => by rw [ht]; exact hs
  induction h with
  | start ht =>
    rw [ht]
    exact D.refl s
  | arrive h hp ih => exact ih
  | @execute c c' i l h hstep hadmits ih =>
    obtain ⟨hinv,hrest⟩ := respected hstart harrives houtside h
    obtain ⟨w,k,hi,rfl⟩ := Config.step_eq_some hstep
    exact D.trans ih (hrest _ (List.mem_of_getElem? hi) c.state (D.refl _) hinv hadmits).2.1
  | outside h ht ih => exact D.trans ih (houtside _ _ ht (respected hstart harrives houtside h).1).2

/-- A request that the store accepts may run to its end without interruption. -/
theorem finish {Admits : σ → Prop} {s : σ} {p : Prog σ ℓ ε α} {threads : List (Prog σ ℓ ε α)}
    (h : Reached Start Admits Arrives Outside ⟨s,p :: threads⟩) (hp : Prog.Within Admits p s) :
    Reached Start Admits Arrives Outside ⟨(p.run s).2,.done (p.run s).1 :: threads⟩ := by
  induction p generalizing s with
  | done r => exact h
  | stmt l w k ih => exact ih s (h.execute (i := 0) rfl hp.2.start) hp.2

end Reached
end PinoyTax.Foundation
