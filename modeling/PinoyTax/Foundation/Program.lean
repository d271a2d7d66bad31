import Mathlib.Data.List.Basic
import Mathlib.Tactic.Common

/-! # Requests as trees of atomic statements

A request reaches the shared state one atomic statement at a time, and what it
does next may depend on everything it has read. A program is the tree of its
statements: the literal order of reads and writes is kept, so that one definition
serves a run without interruption, a run that is cut short, and every interleaving.
-/
namespace PinoyTax.Foundation

/-- A statement carries a label, the write it makes and the continuation that
its reading of the same state selects. -/
inductive Prog (σ ℓ ε α : Type) where
  | done (result : Except ε α)
  | stmt (label : ℓ) (write : σ → σ) (next : σ → Prog σ ℓ ε α)

namespace Prog
variable {σ ℓ ε α β γ : Type}

def bind : Prog σ ℓ ε α → (α → Prog σ ℓ ε β) → Prog σ ℓ ε β
  | .done (.ok a), f => f a
  | .done (.error e), _ => .done (.error e)
  | .stmt l w k, f => .stmt l w (fun s => (k s).bind f)

instance : Monad (Prog σ ℓ ε) where
  pure a := .done (.ok a)
  bind := bind

def throw (e : ε) : Prog σ ℓ ε α := .done (.error e)

/-- A statement that only reads. -/
def query (l : ℓ) (f : σ → β) : Prog σ ℓ ε β := .stmt l id (fun s => .done (.ok (f s)))

/-- `try … catch`: the second part goes on where the first one throws. -/
def rescue : Prog σ ℓ ε α → (ε → Prog σ ℓ ε α) → Prog σ ℓ ε α
  | .done (.ok a), _ => .done (.ok a)
  | .done (.error e), f => f e
  | .stmt l w k, f => .stmt l w (fun s => (k s).rescue f)

/-- The same statements, the reply dropped. -/
def discard (p : Prog σ ℓ ε α) : Prog σ ℓ ε Unit := p >>= fun _ => .done (.ok ())

@[simp] theorem pure_def (a : α) : (pure a : Prog σ ℓ ε α) = .done (.ok a) := rfl
@[simp] theorem done_ok_bind (a : α) (f : α → Prog σ ℓ ε β) : (.done (.ok a) >>= f) = f a := rfl
@[simp] theorem stmt_bind (l : ℓ) (w : σ → σ) (k : σ → Prog σ ℓ ε α) (f : α → Prog σ ℓ ε β) :
    (.stmt l w k >>= f) = .stmt l w (fun s => k s >>= f) := rfl
theorem bind_assoc (p : Prog σ ℓ ε α) (f : α → Prog σ ℓ ε β) (g : β → Prog σ ℓ ε γ) :
    (p >>= f) >>= g = p >>= fun a => f a >>= g := by
  induction p with
  | done r => cases r <;> rfl
  | stmt l w k ih =>
    simp only [stmt_bind]
    congr 1
    funext s
    exact ih s

/-! ## Running without interruption -/

def run : Prog σ ℓ ε α → σ → Except ε α × σ
  | .done r, s => (r, s)
  | .stmt _ w k, s => (k s).run (w s)

/-- What the second part of a sequence does after the first part ended so. -/
def resume (f : α → Prog σ ℓ ε β) : Except ε α × σ → Except ε β × σ
  | (.ok a, s) => (f a).run s
  | (.error e, s) => (.error e, s)

@[simp] theorem resume_ok (f : α → Prog σ ℓ ε β) (a : α) (s : σ) : resume f (.ok a, s) = (f a).run s := rfl
@[simp] theorem resume_error (f : α → Prog σ ℓ ε β) (e : ε) (s : σ) :
    resume f (.error e, s) = (.error e, s) := rfl

@[simp] theorem run_done (r : Except ε α) (s : σ) : (Prog.done r : Prog σ ℓ ε α).run s = (r, s) := rfl
@[simp] theorem run_throw (e : ε) (s : σ) : (throw e : Prog σ ℓ ε α).run s = (.error e, s) := rfl
@[simp] theorem run_stmt (l : ℓ) (w : σ → σ) (k : σ → Prog σ ℓ ε α) (s : σ) :
    (Prog.stmt l w k).run s = (k s).run (w s) := rfl
@[simp] theorem run_query (l : ℓ) (f : σ → α) (s : σ) :
    (query l f : Prog σ ℓ ε α).run s = (.ok (f s), s) := rfl

@[simp] theorem run_bind (p : Prog σ ℓ ε α) (f : α → Prog σ ℓ ε β) (s : σ) :
    (p >>= f).run s = resume f (p.run s) := by
  induction p generalizing s with
  | done r => cases r <;> rfl
  | stmt l w k ih => exact ih s (w s)

/-- The second part runs after a success of the first, in the state that this leaves. -/
theorem run_bind_cases (p : Prog σ ℓ ε α) (f : α → Prog σ ℓ ε β) (s : σ) :
    (∃ a, (p.run s).1 = .ok a ∧ (p >>= f).run s = (f a).run (p.run s).2) ∨
      ∃ e, (p.run s).1 = .error e ∧ (p >>= f).run s = (.error e,(p.run s).2) := by
  rw [run_bind]
  generalize p.run s = out
  obtain ⟨r,t⟩ := out
  cases r with
  | ok a => exact .inl ⟨a,rfl,rfl⟩
  | error e => exact .inr ⟨e,rfl,rfl⟩

theorem run_rescue (p : Prog σ ℓ ε α) (f : ε → Prog σ ℓ ε α) (s : σ) :
    (p.rescue f).run s = match p.run s with
      | (.ok a,t) => (.ok a,t)
      | (.error e,t) => (f e).run t := by
  induction p generalizing s with
  | done r => cases r <;> rfl
  | stmt l w k ih => exact ih s (w s)

theorem run_discard_state (p : Prog σ ℓ ε α) (s : σ) : (p.discard.run s).2 = (p.run s).2 := by
  rw [discard]
  rcases run_bind_cases p _ s with ⟨a,-,hrun⟩ | ⟨e,-,hrun⟩
  · rw [hrun]
    rfl
  · rw [hrun]

section Ends
variable {Q : σ → Prop} {p : Prog σ ℓ ε α} {f : α → Prog σ ℓ ε β} {s : σ}

/-- After a first part that reads and may throw, what holds of the state at the
start and of the second part's end holds at the end. -/
theorem ends_bind (hp : (p.run s).2 = s) (hs : Q s) (hf : ∀ a, (p.run s).1 = .ok a → Q ((f a).run s).2) :
    Q ((p >>= f).run s).2 := by
  rcases run_bind_cases p f s with ⟨a,ha,hrun⟩ | ⟨e,-,hrun⟩
  · rw [hrun,hp]
    exact hf a ha
  · rw [hrun,hp]
    exact hs

theorem ends_bind_of_run {a : α} (hp : p.run s = (.ok a,s)) (hf : Q ((f a).run s).2) : Q ((p >>= f).run s).2 := by
  rw [run_bind,hp]
  exact hf

end Ends

/-! ## All or nothing -/

/-- The program succeeds as `R` says, or leaves the state as it was. -/
def Yields (R : α → σ → Prop) (p : Prog σ ℓ ε α) (s : σ) : Prop :=
  match p.run s with
  | (.ok a,t) => R a t
  | (.error _,t) => t = s

section Yields
variable {R : β → σ → Prop} {p : Prog σ ℓ ε α} {f : α → Prog σ ℓ ε β} {s : σ}

theorem Yields.bind (hp : (p.run s).2 = s) (hf : ∀ a, (p.run s).1 = .ok a → (f a).Yields R s) :
    (p >>= f).Yields R s := by
  rcases run_bind_cases p f s with ⟨a,ha,hrun⟩ | ⟨e,-,hrun⟩
  · unfold Yields
    rw [hrun,hp]
    exact hf a ha
  · unfold Yields
    rw [hrun,hp]

theorem yields_query_bind {l : ℓ} {g : σ → α} (hf : (f (g s)).Yields R s) : (query l g >>= f).Yields R s := hf

theorem yields_throw {e : ε} : (throw e : Prog σ ℓ ε β).Yields R s := rfl

/-- A success is as `R` says. -/
theorem Yields.of_ok {q : Prog σ ℓ ε β} (h : q.Yields R s) {b : β} (hb : (q.run s).1 = .ok b) : R b (q.run s).2 := by
  unfold Yields at h
  generalize q.run s = out at h hb
  obtain ⟨r,t⟩ := out
  obtain rfl : r = .ok b := hb
  exact h

theorem Yields.of_error {q : Prog σ ℓ ε β} (h : q.Yields R s) {e : ε} (he : (q.run s).1 = .error e) :
    (q.run s).2 = s := by
  unfold Yields at h
  generalize q.run s = out at h he
  obtain ⟨r,t⟩ := out
  obtain rfl : r = .error e := he
  exact h

end Yields

/-! ## What a success ensures -/

/-- A success ends as `R` says. -/
def Ensures (R : α → σ → Prop) (p : Prog σ ℓ ε α) (s : σ) : Prop :=
  match p.run s with
  | (.ok a,t) => R a t
  | (.error _,_) => True

section Ensures
variable {R : β → σ → Prop} {p : Prog σ ℓ ε α} {f : α → Prog σ ℓ ε β} {s : σ}

theorem ensures_of_run {q : Prog σ ℓ ε β} (h : ∀ b t, q.run s = (.ok b,t) → R b t) : q.Ensures R s := by
  unfold Ensures
  split
  · exact h _ _ ‹_›
  · trivial

theorem Ensures.of_run {q : Prog σ ℓ ε β} (h : q.Ensures R s) {b : β} {t : σ} (hrun : q.run s = (.ok b,t)) :
    R b t := by
  unfold Ensures at h
  rwa [hrun] at h

theorem Ensures.bind (h : p.Ensures (fun a t => (f a).Ensures R t) s) : (p >>= f).Ensures R s := by
  unfold Ensures at h ⊢
  rw [run_bind]
  generalize p.run s = out at h
  obtain ⟨r,t⟩ := out
  cases r with
  | ok a => exact h
  | error e => trivial

/-- After a first part that only reads. -/
theorem Ensures.bind_of_reads (hp : (p.run s).2 = s) (hf : ∀ a, (p.run s).1 = .ok a → (f a).Ensures R s) :
    (p >>= f).Ensures R s := by
  apply Ensures.bind
  apply ensures_of_run
  intro a t hrun
  obtain rfl : t = s := by rw [← hp,hrun]
  exact hf a (by rw [hrun])

theorem ensures_query_bind {l : ℓ} {g : σ → α} (hf : (f (g s)).Ensures R s) : (query l g >>= f).Ensures R s := hf

theorem ensures_throw {e : ε} : (throw e : Prog σ ℓ ε β).Ensures R s := trivial

end Ensures

/-! ## Runs that are cut short -/

/-- Execute at most `n` statements. The outcome is absent when the request was
cut off before its next statement. -/
def runFor : ℕ → Prog σ ℓ ε α → σ → Option (Except ε α) × σ
  | _, .done r, s => (some r, s)
  | 0, .stmt _ _ _, s => (none, s)
  | n + 1, .stmt _ w k, s => runFor n (k s) (w s)

@[simp] theorem runFor_done (n : ℕ) (r : Except ε α) (s : σ) :
    runFor n (Prog.done r : Prog σ ℓ ε α) s = (some r, s) := by cases n <;> rfl
@[simp] theorem runFor_zero_stmt (l : ℓ) (w : σ → σ) (k : σ → Prog σ ℓ ε α) (s : σ) :
    runFor 0 (Prog.stmt l w k) s = (none, s) := rfl
/-- A cut allows so many statements; without one the request runs to its end. -/
def runUntil (cut : Option ℕ) (p : Prog σ ℓ ε α) (s : σ) : Option (Except ε α) × σ :=
  match cut with
  | none => (some (p.run s).1, (p.run s).2)
  | some n => runFor n p s

/-- The state a request leaves under a cut. -/
def leaves (p : Prog σ ℓ ε α) (cut : Option ℕ) (s : σ) : σ := (runUntil cut p s).2

/-- Whether a request reaches its end under a cut. -/
def finishes (p : Prog σ ℓ ε α) (cut : Option ℕ) (s : σ) : Bool := (runUntil cut p s).1.isSome

theorem runFor_of_isSome (n : ℕ) (p : Prog σ ℓ ε α) (s : σ) (h : (runFor n p s).1.isSome) :
    runFor n p s = (some (p.run s).1, (p.run s).2) := by
  induction p generalizing n s with
  | done r => simp
  | stmt l w k ih =>
    cases n with
    | zero => simp at h
    | succ n => exact ih s n (w s) h

/-- A request that reaches its end leaves the state of its uninterrupted run. -/
theorem leaves_of_finishes {p : Prog σ ℓ ε α} {cut : Option ℕ} {s : σ} (h : p.finishes cut s = true) :
    p.leaves cut s = (p.run s).2 := by
  cases cut with
  | none => rfl
  | some n =>
    have hn := runFor_of_isSome n p s h
    simp [leaves,runUntil,hn]

/-- The statements of a run without interruption. -/
def length : Prog σ ℓ ε α → σ → ℕ
  | .done _, _ => 0
  | .stmt _ w k, s => (k s).length (w s) + 1

@[simp] theorem length_done (r : Except ε α) (s : σ) : (Prog.done r : Prog σ ℓ ε α).length s = 0 := rfl
@[simp] theorem length_stmt (l : ℓ) (w : σ → σ) (k : σ → Prog σ ℓ ε α) (s : σ) :
    (Prog.stmt l w k).length s = (k s).length (w s) + 1 := rfl

theorem length_bind {p : Prog σ ℓ ε α} {f : α → Prog σ ℓ ε β} {s t : σ} {a : α} (h : p.run s = (.ok a,t)) :
    (p >>= f).length s = p.length s + (f a).length t := by
  induction p generalizing s with
  | done r =>
    cases h
    exact (Nat.zero_add _).symm
  | stmt l w k ih =>
    have hrest := ih s h
    simp only [stmt_bind,length_stmt] at hrest ⊢
    omega

/-- The labels of a run without interruption. -/
def labels : Prog σ ℓ ε α → σ → List ℓ
  | .done _, _ => []
  | .stmt l w k, s => l :: (k s).labels (w s)

@[simp] theorem labels_done (r : Except ε α) (s : σ) : (Prog.done r : Prog σ ℓ ε α).labels s = [] := rfl
@[simp] theorem labels_stmt (l : ℓ) (w : σ → σ) (k : σ → Prog σ ℓ ε α) (s : σ) :
    (Prog.stmt l w k).labels s = l :: (k s).labels (w s) := rfl
@[simp] theorem labels_query (l : ℓ) (f : σ → α) (s : σ) : (query l f : Prog σ ℓ ε α).labels s = [l] := rfl

theorem labels_bind {p : Prog σ ℓ ε α} {f : α → Prog σ ℓ ε β} {s t : σ} {a : α} (h : p.run s = (.ok a,t)) :
    (p >>= f).labels s = p.labels s ++ (f a).labels t := by
  induction p generalizing s with
  | done r =>
    cases h
    rfl
  | stmt l w k ih =>
    rw [stmt_bind,labels_stmt,labels_stmt,ih s h,List.cons_append]

theorem labels_bind_of_error {p : Prog σ ℓ ε α} {f : α → Prog σ ℓ ε β} {s t : σ} {e : ε} (h : p.run s = (.error e,t)) :
    (p >>= f).labels s = p.labels s := by
  induction p generalizing s with
  | done r =>
    cases h
    rfl
  | stmt l w k ih =>
    rw [stmt_bind,labels_stmt,labels_stmt,ih s h]

/-- A cut within the first part of a sequence. -/
theorem runFor_bind_of_lt {n : ℕ} {p : Prog σ ℓ ε α} (f : α → Prog σ ℓ ε β) {s : σ} (h : n < p.length s) :
    runFor n (p >>= f) s = (none,(runFor n p s).2) := by
  induction p generalizing n s with
  | done r => simp at h
  | stmt l w k ih =>
    cases n with
    | zero => rfl
    | succ n => exact ih s (Nat.lt_of_succ_lt_succ h)

/-- The second part of a sequence has not begun to write when the first one is through. -/
theorem runFor_bind_of_le {n : ℕ} {p : Prog σ ℓ ε α} (f : α → Prog σ ℓ ε β) {s : σ} (h : n ≤ p.length s) :
    (runFor n (p >>= f) s).2 = (runFor n p s).2 := by
  induction p generalizing n s with
  | done r =>
    obtain rfl : n = 0 := Nat.le_zero.mp h
    cases r with
    | ok a => cases hf : f a <;> simp [hf,runFor]
    | error e => rfl
  | stmt l w k ih =>
    cases n with
    | zero => rfl
    | succ n => exact ih s (Nat.le_of_succ_le_succ h)

/-- A cut past the first part of a sequence. -/
theorem runFor_bind_add {p : Prog σ ℓ ε α} {f : α → Prog σ ℓ ε β} {s t : σ} {a : α} (h : p.run s = (.ok a,t)) (n : ℕ) :
    runFor (p.length s + n) (p >>= f) s = runFor n (f a) t := by
  induction p generalizing s with
  | done r =>
    cases h
    rw [length_done,Nat.zero_add]
    rfl
  | stmt l w k ih =>
    rw [length_stmt,Nat.add_right_comm]
    exact ih s h

/-- The program with one of its statements rejected: the call has no effect, and its
error is the outcome. -/
def failAt (e : ε) : ℕ → Prog σ ℓ ε α → Prog σ ℓ ε α
  | _, .done r => .done r
  | 0, .stmt _ _ _ => .done (.error e)
  | n + 1, .stmt l w k => .stmt l w (fun s => (k s).failAt e n)

/-- A rejection leaves what the statements before it did. -/
theorem run_failAt (e : ε) (n : ℕ) (p : Prog σ ℓ ε α) (s : σ) :
    (p.failAt e n).run s = (((runFor n p s).1).getD (.error e),(runFor n p s).2) := by
  induction p generalizing n s with
  | done r => cases n <;> rfl
  | stmt l w k ih =>
    cases n with
    | zero => rfl
    | succ n => exact ih s n (w s)

/-- Every state on the way from `s`, both ends included, satisfies `P`. -/
def Within (P : σ → Prop) : Prog σ ℓ ε α → σ → Prop
  | .done _, s => P s
  | .stmt _ w k, s => P s ∧ Within P (k s) (w s)

instance decidableWithin (P : σ → Prop) [DecidablePred P] : (p : Prog σ ℓ ε α) → (s : σ) → Decidable (Within P p s)
  | .done _, s => inferInstanceAs (Decidable (P s))
  | .stmt _ w k, s => @instDecidableAnd _ _ _ (decidableWithin P (k s) (w s))

@[simp] theorem within_done (P : σ → Prop) (r : Except ε α) (s : σ) :
    Within P (Prog.done r : Prog σ ℓ ε α) s ↔ P s := Iff.rfl
theorem Within.bind {P : σ → Prop} {p : Prog σ ℓ ε α} {f : α → Prog σ ℓ ε β} {s : σ} (hp : Within P p s)
    (hf : ∀ a, (p.run s).1 = .ok a → Within P (f a) (p.run s).2) : Within P (p >>= f) s := by
  induction p generalizing s with
  | done r =>
    cases r with
    | ok a => exact hf a rfl
    | error e => exact hp
  | stmt l w k ih => exact ⟨hp.1,ih s hp.2 hf⟩

theorem Within.mono {P Q : σ → Prop} (hPQ : ∀ s, P s → Q s) {p : Prog σ ℓ ε α} {s : σ} (h : Within P p s) :
    Within Q p s := by
  induction p generalizing s with
  | done r => exact hPQ s h
  | stmt l w k ih => exact ⟨hPQ s h.1,ih s h.2⟩

theorem Within.start {P : σ → Prop} {p : Prog σ ℓ ε α} {s : σ} (h : Within P p s) : P s := by
  cases p with
  | done r => exact h
  | stmt l w k => exact h.1

/-- The first part of a sequence passes through some of its states. -/
theorem Within.of_bind {P : σ → Prop} {p : Prog σ ℓ ε α} {f : α → Prog σ ℓ ε β} {s : σ} (h : Within P (p >>= f) s) :
    Within P p s := by
  induction p generalizing s with
  | done r => exact h.start
  | stmt l w k ih => exact ⟨h.1,ih s h.2⟩

/-- The second part passes through the rest. -/
theorem Within.of_bind_run {P : σ → Prop} {p : Prog σ ℓ ε α} {f : α → Prog σ ℓ ε β} {s t : σ} {a : α}
    (h : Within P (p >>= f) s) (hp : p.run s = (.ok a,t)) : Within P (f a) t := by
  induction p generalizing s with
  | done r =>
    cases hp
    exact h
  | stmt l w k ih => exact ih s h.2 hp

theorem Within.run {P : σ → Prop} {p : Prog σ ℓ ε α} {s : σ} (h : Within P p s) : P (p.run s).2 := by
  induction p generalizing s with
  | done r => exact h
  | stmt l w k ih => exact ih s h.2

/-- Wherever a request is cut off, it leaves one of the states on its way. -/
theorem Within.leaves {P : σ → Prop} {p : Prog σ ℓ ε α} {s : σ} (h : Within P p s) (cut : Option ℕ) :
    P (p.leaves cut s) := by
  cases cut with
  | none => exact h.run
  | some n =>
    unfold Prog.leaves runUntil
    induction p generalizing s n with
    | done r => simpa using h
    | stmt l w k ih =>
      cases n with
      | zero => exact h.1
      | succ n => exact ih s h.2 n

/-! ## What every statement of a program keeps -/

/-- Each statement, whatever the state it meets, moves it within `G`. -/
def Guarantees (G : ℓ → σ → σ → Prop) : Prog σ ℓ ε α → Prop
  | .done _ => True
  | .stmt l w k => ∀ s, G l s (w s) ∧ (k s).Guarantees G

theorem Guarantees.bind {G : ℓ → σ → σ → Prop} {p : Prog σ ℓ ε α} {f : α → Prog σ ℓ ε β}
    (hp : p.Guarantees G) (hf : ∀ a, (f a).Guarantees G) : (p >>= f).Guarantees G := by
  induction p with
  | done r =>
    cases r with
    | ok a => exact hf a
    | error e => trivial
  | stmt l w k ih =>
    intro s
    exact ⟨(hp s).1,ih s (hp s).2⟩

theorem Guarantees.mono {G H : ℓ → σ → σ → Prop} (hGH : ∀ l s t, G l s t → H l s t) {p : Prog σ ℓ ε α}
    (hp : p.Guarantees G) : p.Guarantees H := by
  induction p with
  | done r => trivial
  | stmt l w k ih =>
    intro s
    exact ⟨hGH _ _ _ (hp s).1,ih s (hp s).2⟩

theorem guarantees_query {G : ℓ → σ → σ → Prop} {l : ℓ} {f : σ → α} (h : ∀ s, G l s s) :
    (query l f : Prog σ ℓ ε α).Guarantees G := fun s => ⟨h s,trivial⟩

/-- A program that keeps the property wherever it starts keeps it all along. -/
theorem Guarantees.within {I : σ → Prop} {p : Prog σ ℓ ε α} (hp : p.Guarantees (fun _ s t => I s → I t))
    {s : σ} (hs : I s) : Within I p s := by
  induction p generalizing s with
  | done r => exact hs
  | stmt l w k ih => exact ⟨hs,ih s (hp s).2 ((hp s).1 hs)⟩

/-- No statement changes this part of the state. -/
def Keeps {τ : Type} (f : σ → τ) (p : Prog σ ℓ ε α) : Prop := p.Guarantees (fun _ s t => f t = f s)

theorem Keeps.within {τ : Type} {f : σ → τ} {p : Prog σ ℓ ε α} (hp : p.Keeps f) (s : σ) :
    Within (fun t => f t = f s) p s :=
  Guarantees.within (hp.mono fun _ _ _ hst hs => hst.trans hs) rfl

theorem Keeps.run {τ : Type} {f : σ → τ} {p : Prog σ ℓ ε α} (hp : p.Keeps f) (s : σ) : f (p.run s).2 = f s :=
  (hp.within s).run

/-- What a first part ensures of the part that the second one keeps. -/
theorem Ensures.bind_keeps {τ : Type} {g : σ → τ} {Q : τ → Prop} {p : Prog σ ℓ ε α} {f : α → Prog σ ℓ ε β} {s : σ}
    (hp : p.Ensures (fun _ t => Q (g t)) s) (hf : ∀ a, (f a).Keeps g) :
    (p >>= f).Ensures (fun _ t => Q (g t)) s := by
  apply Ensures.bind
  apply ensures_of_run
  intro a t hrun
  apply ensures_of_run
  intro b u hrest
  have hkeep := (hf a).run t
  rw [hrest] at hkeep
  rw [hkeep]
  exact hp.of_run hrun

end Prog
end PinoyTax.Foundation
