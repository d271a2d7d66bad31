import PinoyTax.Foundation.Program

/-! # Interleaved execution of several requests

Each thread is the rest of one request. A step runs the next statement of one
thread on the shared state; nothing else is atomic. Executions record which
thread executed which statement, so that a schedule can be read off the trace.
-/
namespace PinoyTax.Foundation
variable {σ ℓ ε α : Type}

structure Config (σ ℓ ε α : Type) where
  state : σ
  threads : List (Prog σ ℓ ε α)

namespace Prog

/-- The label of the next statement, absent once the request has returned. -/
def head? : Prog σ ℓ ε α → Option ℓ
  | .done _ => none
  | .stmt l _ _ => some l

@[simp] theorem head?_done (r : Except ε α) : (Prog.done r : Prog σ ℓ ε α).head? = none := rfl
@[simp] theorem head?_stmt (l : ℓ) (w : σ → σ) (k : σ → Prog σ ℓ ε α) :
    (Prog.stmt l w k).head? = some l := rfl

theorem eq_done_of_head?_none {p : Prog σ ℓ ε α} (h : p.head? = none) : ∃ r, p = .done r := by
  cases p with
  | done r => exact ⟨r,rfl⟩
  | stmt l w k => simp at h

/-- The request has returned without an error. -/
def succeeded : Prog σ ℓ ε α → Bool
  | .done (.ok _) => true
  | _ => false

theorem succeeded_iff {p : Prog σ ℓ ε α} : p.succeeded = true ↔ ∃ a, p = .done (.ok a) := by
  cases p with
  | done r => cases r <;> simp [succeeded]
  | stmt l w k => simp [succeeded]

end Prog

namespace Config

/-- Thread `i` executes its next statement. -/
def step (i : ℕ) (c : Config σ ℓ ε α) : Option (ℓ × Config σ ℓ ε α) :=
  match c.threads[i]? with
  | some (.stmt l w k) => some (l, ⟨w c.state,c.threads.set i (k c.state)⟩)
  | _ => none

/-- All requests have returned. -/
def Completed (c : Config σ ℓ ε α) : Prop := ∀ p ∈ c.threads, p.head? = none

instance [DecidableEq ℓ] (c : Config σ ℓ ε α) : Decidable c.Completed :=
  inferInstanceAs (Decidable (∀ p ∈ c.threads, p.head? = none))

/-- Request `i` has returned without an error. -/
def Succeeded (c : Config σ ℓ ε α) (i : ℕ) : Prop := (c.threads[i]?).any Prog.succeeded = true

instance (c : Config σ ℓ ε α) (i : ℕ) : Decidable (c.Succeeded i) :=
  inferInstanceAs (Decidable ((c.threads[i]?).any Prog.succeeded = true))

theorem succeeded_iff {c : Config σ ℓ ε α} {i : ℕ} : c.Succeeded i ↔ ∃ a, c.threads[i]? = some (.done (.ok a)) := by
  simp only [Succeeded,Option.any_eq_true,Prog.succeeded_iff]
  constructor
  · rintro ⟨p,hp,a,rfl⟩
    exact ⟨a,hp⟩
  · rintro ⟨a,ha⟩
    exact ⟨_,ha,a,rfl⟩

theorem step_eq_some {i : ℕ} {c c' : Config σ ℓ ε α} {l : ℓ} (h : c.step i = some (l,c')) :
    ∃ w k, c.threads[i]? = some (.stmt l w k) ∧
      c' = ⟨w c.state,c.threads.set i (k c.state)⟩ := by
  unfold step at h
  split at h
  · rename_i l' w k hi
    obtain ⟨rfl,rfl⟩ : l' = l ∧ _ = c' := by simpa using h
    exact ⟨w,k,hi,rfl⟩
  · cases h

/-- Run a schedule of thread indices, when each scheduled thread can move. -/
def play : List ℕ → Config σ ℓ ε α → Option (Config σ ℓ ε α)
  | [], c => some c
  | i :: is, c => (c.step i).bind (fun q => play is q.2)

/-- The same with the trace. -/
def playTrace : List ℕ → Config σ ℓ ε α → Option (List (ℕ × ℓ) × Config σ ℓ ε α)
  | [], c => some ([],c)
  | i :: is, c => (c.step i).bind (fun q => (playTrace is q.2).map (fun r => ((i,q.1) :: r.1,r.2)))

end Config

/-- Executions with their trace of thread indices and statement labels. -/
inductive Steps : Config σ ℓ ε α → List (ℕ × ℓ) → Config σ ℓ ε α → Prop
  | refl (c : Config σ ℓ ε α) : Steps c [] c
  | step {c c' d : Config σ ℓ ε α} {i : ℕ} {l : ℓ} {tr : List (ℕ × ℓ)} (h : c.step i = some (l,c'))
      (rest : Steps c' tr d) : Steps c ((i,l) :: tr) d

namespace Steps
open Config
variable {c d e : Config σ ℓ ε α} {tr tr' : List (ℕ × ℓ)}

theorem split (h : Steps c (tr ++ tr') e) : ∃ d, Steps c tr d ∧ Steps d tr' e := by
  induction tr generalizing c with
  | nil => exact ⟨c,.refl c,h⟩
  | cons a tr ih =>
    obtain _ | ⟨hs,rest⟩ := h
    obtain ⟨d,hd,he⟩ := ih rest
    exact ⟨d,.step hs hd,he⟩

theorem of_playTrace {is : List ℕ} (h : c.playTrace is = some (tr,d)) : Steps c tr d := by
  induction is generalizing c tr with
  | nil =>
    obtain ⟨rfl,rfl⟩ : [] = tr ∧ c = d := by simpa [playTrace] using h
    exact .refl c
  | cons i is ih =>
    unfold playTrace at h
    obtain ⟨⟨l,c'⟩,hs,hp⟩ := Option.bind_eq_some_iff.mp h
    obtain ⟨⟨tr',d'⟩,hrest,heq⟩ := Option.map_eq_some_iff.mp hp
    obtain ⟨rfl,rfl⟩ := Prod.mk.inj heq
    exact .step hs (ih hrest)

/-- A schedule that plays to a trace and a configuration with a property gives an
execution with it. -/
theorem exists_of_playTrace {P : List (ℕ × ℓ) → Config σ ℓ ε α → Prop} [∀ tr d, Decidable (P tr d)] (is : List ℕ)
    (h : (c.playTrace is).any (fun q => decide (P q.1 q.2)) = true) : ∃ tr d, Steps c tr d ∧ P tr d := by
  obtain ⟨⟨tr,d⟩,hd,hP⟩ := (Option.any_eq_true _ _).mp h
  exact ⟨tr,d,of_playTrace hd,of_decide_eq_true hP⟩

theorem of_play {is : List ℕ} (h : c.play is = some d) : ∃ tr, Steps c tr d := by
  induction is generalizing c with
  | nil =>
    obtain rfl : c = d := by simpa [play] using h
    exact ⟨[],.refl c⟩
  | cons i is ih =>
    unfold play at h
    obtain ⟨⟨l,c'⟩,hs,hp⟩ := Option.bind_eq_some_iff.mp h
    obtain ⟨tr,htr⟩ := ih hp
    exact ⟨(i,l) :: tr,.step hs htr⟩

/-- A schedule that plays to a configuration with a property gives an execution to one. -/
theorem exists_of_play {P : Config σ ℓ ε α → Prop} [DecidablePred P] (is : List ℕ)
    (h : (c.play is).any (fun d => decide (P d)) = true) : ∃ tr d, Steps c tr d ∧ P d := by
  obtain ⟨d,hd,hP⟩ := (Option.any_eq_true _ _).mp h
  obtain ⟨tr,htr⟩ := of_play hd
  exact ⟨tr,d,htr,of_decide_eq_true hP⟩

/-- A trace determines its execution. -/
theorem det (h : Steps c tr d) (h' : Steps c tr e) : d = e := by
  induction h with
  | refl => cases h'; rfl
  | step hs _ ih =>
    obtain _ | ⟨hs',rest⟩ := h'
    rw [hs] at hs'
    cases hs'
    exact ih rest

end Steps

/-! ## Programs that follow a phase machine -/

section Phases
variable {Φ β : Type} {T : Φ → σ → ℓ → Φ → σ → Prop}

/-- Each statement of the program is a move of the machine, and the program ends in a
phase that `Post` allows for its outcome. -/
def Prog.Follows (T : Φ → σ → ℓ → Φ → σ → Prop) (Post : Except ε α → Φ → Prop) : Prog σ ℓ ε α → Φ → Prop
  | .done r, φ => Post r φ
  | .stmt l w k, φ => ∀ s, ∃ φ', T φ s l φ' (w s) ∧ (k s).Follows T Post φ'

theorem Prog.Follows.bind {P : Except ε α → Φ → Prop} {Q : Except ε β → Φ → Prop} {p : Prog σ ℓ ε α}
    {f : α → Prog σ ℓ ε β} {φ : Φ} (hp : p.Follows T P φ) (hok : ∀ a φ', P (.ok a) φ' → (f a).Follows T Q φ')
    (herror : ∀ e φ', P (.error e) φ' → Q (.error e) φ') : (p >>= f).Follows T Q φ := by
  induction p generalizing φ with
  | done r =>
    cases r with
    | ok a => exact hok a φ hp
    | error e => exact herror e φ hp
  | stmt l w k ih =>
    intro s
    obtain ⟨φ',ht,hk⟩ := hp s
    exact ⟨φ',ht,ih s hk⟩

theorem Prog.Follows.mono {P Q : Except ε α → Φ → Prop} (hPQ : ∀ r φ, P r φ → Q r φ) {p : Prog σ ℓ ε α} {φ : Φ}
    (hp : p.Follows T P φ) : p.Follows T Q φ := by
  induction p generalizing φ with
  | done r => exact hPQ r φ hp
  | stmt l w k ih =>
    intro s
    obtain ⟨φ',ht,hk⟩ := hp s
    exact ⟨φ',ht,ih s hk⟩

/-- Thread by thread the configuration follows the machine from these phases. -/
structure Config.Follows (T : Φ → σ → ℓ → Φ → σ → Prop) (Post : Except ε α → Φ → Prop) (c : Config σ ℓ ε α)
    (φs : List Φ) : Prop where
  length_eq : φs.length = c.threads.length
  follows : ∀ (i : ℕ) (φ : Φ) (p : Prog σ ℓ ε α), φs[i]? = some φ → c.threads[i]? = some p → p.Follows T Post φ

variable {Post : Except ε α → Φ → Prop} {φs : List Φ}

/-- Requests before their first statements, given by what they are about. -/
theorem Config.follows_map {ι : Type} {p : ι → Prog σ ℓ ε α} {φ : ι → Φ} (xs : List ι)
    (h : ∀ x ∈ xs, (p x).Follows T Post (φ x)) (s : σ) : Config.Follows T Post ⟨s,xs.map p⟩ (xs.map φ) := by
  refine ⟨by simp,?_⟩
  intro i ψ q hψ hq
  obtain ⟨x,hx,rfl⟩ : ∃ x, xs[i]? = some x ∧ φ x = ψ := by simpa using hψ
  obtain rfl : p x = q := by simpa [hx] using hq
  exact h x (List.mem_of_getElem? hx)

/-- What a move leaves as it was in its own phase it leaves in all of them. -/
theorem map_set_phase {τ : Type} {f : Φ → τ} {i : ℕ} {φ φ' : Φ} (hi : φs[i]? = some φ) (h : f φ' = f φ) :
    (φs.set i φ').map f = φs.map f := by
  obtain ⟨hlt,rfl⟩ := List.getElem?_eq_some_iff.mp hi
  have hlt' : i < (φs.map f).length := by simpa using hlt
  rw [List.map_set,h,← List.getElem_map f (h := hlt'),List.set_getElem_self]

namespace Config.Follows
variable {c c' : Config σ ℓ ε α} {i : ℕ} {l : ℓ}

theorem thread (hf : c.Follows T Post φs) {φ : Φ} (hφ : φs[i]? = some φ) :
    ∃ p, c.threads[i]? = some p ∧ p.Follows T Post φ := by
  have hlt : i < c.threads.length := by
    rw [← hf.length_eq]
    exact (List.getElem?_eq_some_iff.mp hφ).1
  exact ⟨_,List.getElem?_eq_getElem hlt,hf.follows i φ _ hφ (List.getElem?_eq_getElem hlt)⟩

theorem step (hf : c.Follows T Post φs) (hs : c.step i = some (l,c')) :
    ∃ φ φ', φs[i]? = some φ ∧ T φ c.state l φ' c'.state ∧ c'.Follows T Post (φs.set i φ') := by
  obtain ⟨w,k,hi,rfl⟩ := Config.step_eq_some hs
  obtain ⟨hlt,-⟩ := List.getElem?_eq_some_iff.mp hi
  have hlt' : i < φs.length := by rw [hf.length_eq]; exact hlt
  obtain ⟨φ',ht,hk⟩ := hf.follows i φs[i] _ (List.getElem?_eq_getElem hlt') hi c.state
  refine ⟨φs[i],φ',List.getElem?_eq_getElem hlt',ht,by simp [hf.length_eq],?_⟩
  intro j φ p hj hp
  by_cases hji : i = j
  · subst hji
    simp only [List.getElem?_set_self hlt',Option.some.injEq] at hj
    simp only [List.getElem?_set_self hlt,Option.some.injEq] at hp
    subst hj hp
    exact hk
  · rw [List.getElem?_set_ne hji] at hj hp
    exact hf.follows j φ p hj hp

/-- One of two threads moves. -/
theorem step_pair {φ₀ φ₁ : Φ} (hf : c.Follows T Post [φ₀,φ₁]) (hs : c.step i = some (l,c')) :
    (i = 0 ∧ ∃ φ, T φ₀ c.state l φ c'.state ∧ c'.Follows T Post [φ,φ₁]) ∨
      (i = 1 ∧ ∃ φ, T φ₁ c.state l φ c'.state ∧ c'.Follows T Post [φ₀,φ]) := by
  obtain ⟨φ,φ',hi,ht,hf'⟩ := hf.step hs
  match i with
  | 0 =>
    obtain rfl : φ₀ = φ := by simpa using hi
    exact .inl ⟨rfl,φ',ht,hf'⟩
  | 1 =>
    obtain rfl : φ₁ = φ := by simpa using hi
    exact .inr ⟨rfl,φ',ht,hf'⟩
  | i + 2 => simp at hi

/-- A thread that has returned ends in a phase of its outcome. -/
theorem post (hf : c.Follows T Post φs) (hc : c.Completed) {φ : Φ} (hi : φs[i]? = some φ) : ∃ r, Post r φ := by
  obtain ⟨hlt,-⟩ := List.getElem?_eq_some_iff.mp hi
  rw [hf.length_eq] at hlt
  obtain ⟨r,hr⟩ := Prog.eq_done_of_head?_none (hc c.threads[i] (List.getElem_mem hlt))
  have hfol := hf.follows i φ _ hi (List.getElem?_eq_getElem hlt)
  rw [hr] at hfol
  exact ⟨r,hfol⟩

end Config.Follows

namespace Steps
variable {c d : Config σ ℓ ε α} {tr : List (ℕ × ℓ)}

/-- The invariant rule: what every move of the machine under the labels of the trace
keeps holds after the execution, for phases that its threads follow. -/
theorem phases {I : σ → List Φ → Prop}
    (hstep : ∀ {s φs i l φ φ' s'}, (i,l) ∈ tr → I s φs → φs[i]? = some φ → T φ s l φ' s' → I s' (φs.set i φ'))
    (h : Steps c tr d) (hf : c.Follows T Post φs) (hI : I c.state φs) :
    ∃ φs', d.Follows T Post φs' ∧ I d.state φs' := by
  induction h generalizing φs with
  | refl => exact ⟨φs,hf,hI⟩
  | step hs _ ih =>
    obtain ⟨φ,φ',hi,ht,hf'⟩ := hf.step hs
    apply ih (fun hmem => hstep (List.mem_cons_of_mem _ hmem)) hf'
    exact hstep List.mem_cons_self hI hi ht

/-- The invariant rule for two threads. -/
theorem phases_pair {I : σ → Φ → Φ → Prop}
    (hzero : ∀ {s φ₀ φ₁ l φ s'}, (0,l) ∈ tr → I s φ₀ φ₁ → T φ₀ s l φ s' → I s' φ φ₁)
    (hone : ∀ {s φ₀ φ₁ l φ s'}, (1,l) ∈ tr → I s φ₀ φ₁ → T φ₁ s l φ s' → I s' φ₀ φ)
    {φ₀ φ₁ : Φ} (h : Steps c tr d) (hf : c.Follows T Post [φ₀,φ₁]) (hI : I c.state φ₀ φ₁) :
    ∃ φ₀' φ₁', d.Follows T Post [φ₀',φ₁'] ∧ I d.state φ₀' φ₁' := by
  have hstep : ∀ {s φs i l φ φ' s'}, (i,l) ∈ tr → (∃ φ₀ φ₁, φs = [φ₀,φ₁] ∧ I s φ₀ φ₁) → φs[i]? = some φ →
      T φ s l φ' s' → ∃ φ₀ φ₁, φs.set i φ' = [φ₀,φ₁] ∧ I s' φ₀ φ₁ := by
    rintro s φs i l φ φ' s' hmem ⟨ψ₀,ψ₁,rfl,hI⟩ hi ht
    match i with
    | 0 =>
      obtain rfl : ψ₀ = φ := by simpa using hi
      exact ⟨φ',ψ₁,rfl,hzero hmem hI ht⟩
    | 1 =>
      obtain rfl : ψ₁ = φ := by simpa using hi
      exact ⟨ψ₀,φ',rfl,hone hmem hI ht⟩
    | i + 2 => simp at hi
  obtain ⟨φs',hf',φ₀',φ₁',rfl,hI'⟩ := h.phases (T := T)
    (I := fun s φs => ∃ φ₀ φ₁, φs = [φ₀,φ₁] ∧ I s φ₀ φ₁) hstep hf ⟨φ₀,φ₁,rfl,hI⟩
  exact ⟨φ₀',φ₁',hf',hI'⟩

/-- The until rule: when each move from `A` stays in `A` or enters `B`, and the
execution does not end in `A`, it passes through `B`. -/
theorem passes {A B : σ → List Φ → Prop}
    (hstep : ∀ {s φs i l φ φ' s'}, A s φs → φs[i]? = some φ → T φ s l φ' s' →
      A s' (φs.set i φ') ∨ B s' (φs.set i φ'))
    (h : Steps c tr d) (hf : c.Follows T Post φs) (hA : A c.state φs)
    (hd : ∀ φs', d.Follows T Post φs' → ¬ A d.state φs') :
    ∃ tr₁ tr₂ e φs', tr = tr₁ ++ tr₂ ∧ Steps c tr₁ e ∧ Steps e tr₂ d ∧ e.Follows T Post φs' ∧ B e.state φs' := by
  induction h generalizing φs with
  | refl => exact absurd hA (hd φs hf)
  | @step c c' d i l tr hs rest ih =>
    obtain ⟨φ,φ',hi,ht,hf'⟩ := hf.step hs
    rcases hstep hA hi ht with hA' | hB
    · obtain ⟨tr₁,tr₂,e,φs',rfl,h₁,h₂,hfe,hB⟩ := ih hf' hA' hd
      exact ⟨(i,l) :: tr₁,tr₂,e,φs',rfl,.step hs h₁,h₂,hfe,hB⟩
    · exact ⟨[(i,l)],tr,c',_,rfl,.step hs (.refl _),rest,hf',hB⟩

end Steps
end Phases
end PinoyTax.Foundation
