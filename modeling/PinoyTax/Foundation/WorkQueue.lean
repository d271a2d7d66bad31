import PinoyTax.Foundation.Reliance
import Mathlib.Logic.Relation
import Mathlib.Order.Basic

/-! # A queue of jobs that workers retry

Jobs wait, are taken by workers, and run while everything else goes on: the statements of
all running jobs interleave with one another and with whatever else changes the state and
adds jobs. A job that fails waits again until its attempts are exhausted.
-/
namespace PinoyTax.Foundation
variable {σ ℓ ε β κ τ : Type}

structure Job (κ : Type) where
  key : κ
  attemptsMade : ℕ := 0
deriving DecidableEq, Repr

structure WorkQueue (σ ℓ ε κ τ : Type) where
  state : σ
  clock : τ
  waiting : List (Job κ) := []
  running : List (Job κ × Prog σ ℓ ε Unit) := []
  exhausted : List (Job κ) := []

namespace WorkQueue

/-- Where a job goes that has failed once more. -/
def retry (attempts : ℕ) (job : Job κ) (q : WorkQueue σ ℓ ε κ τ) : WorkQueue σ ℓ ε κ τ :=
  let failed : Job κ := { job with attemptsMade := job.attemptsMade + 1 }
  if failed.attemptsMade < attempts then { q with waiting := q.waiting ++ [failed] }
  else { q with exhausted := q.exhausted ++ [failed] }

section
variable [LE τ] (attempts : ℕ) (starts : κ → τ → Prog σ ℓ ε Unit → Prop) (changes : σ → σ → List κ → Prop)

/-- A step of the system: something else changes the state and adds jobs, time passes, a job is taken,
goes on, is done, or fails, be it between two of its statements. -/
inductive Step : WorkQueue σ ℓ ε κ τ → WorkQueue σ ℓ ε κ τ → Prop
  | change {q : WorkQueue σ ℓ ε κ τ} {t : σ} {keys : List κ} (h : changes q.state t keys) :
      Step q { q with state := t, waiting := q.waiting ++ keys.map fun k => ⟨k,0⟩ }
  | tick {q : WorkQueue σ ℓ ε κ τ} {now : τ} (h : q.clock ≤ now) : Step q { q with clock := now }
  | take {q : WorkQueue σ ℓ ε κ τ} {before after : List (Job κ)} {job : Job κ} {p : Prog σ ℓ ε Unit}
      (h : q.waiting = before ++ job :: after) (hp : starts job.key q.clock p) :
      Step q { q with waiting := before ++ after, running := (job,p) :: q.running }
  | execute {q : WorkQueue σ ℓ ε κ τ} {before after : List (Job κ × Prog σ ℓ ε Unit)} {job : Job κ} {l : ℓ} {w : σ → σ}
      {k : σ → Prog σ ℓ ε Unit} (h : q.running = before ++ (job,.stmt l w k) :: after) :
      Step q { q with state := w q.state, running := before ++ (job,k q.state) :: after }
  | complete {q : WorkQueue σ ℓ ε κ τ} {before after : List (Job κ × Prog σ ℓ ε Unit)} {job : Job κ}
      (h : q.running = before ++ (job,.done (.ok ())) :: after) : Step q { q with running := before ++ after }
  | fail {q : WorkQueue σ ℓ ε κ τ} {before after : List (Job κ × Prog σ ℓ ε Unit)} {job : Job κ} {p : Prog σ ℓ ε Unit}
      (h : q.running = before ++ (job,p) :: after) : Step q (retry attempts job { q with running := before ++ after })

end

/-! ## What running jobs rely on -/

section
variable {attempts : ℕ} {starts : κ → τ → Prog σ ℓ ε Unit → Prop} {changes : σ → σ → List κ → Prop}
variable {q r : WorkQueue σ ℓ ε κ τ} {job : Job κ}

@[simp] theorem state_retry : (retry attempts job q).state = q.state := by
  unfold retry
  dsimp only
  split <;> rfl

@[simp] theorem clock_retry : (retry attempts job q).clock = q.clock := by
  unfold retry
  dsimp only
  split <;> rfl

@[simp] theorem running_retry : (retry attempts job q).running = q.running := by
  unfold retry
  dsimp only
  split <;> rfl

theorem waiting_retry {j : Job κ} (h : j ∈ q.waiting) : j ∈ (retry attempts job q).waiting := by
  unfold retry
  dsimp only
  split
  · exact List.mem_append_left _ h
  · exact h

theorem exhausted_retry {j : Job κ} (h : j ∈ q.exhausted) : j ∈ (retry attempts job q).exhausted := by
  unfold retry
  dsimp only
  split
  · exact h
  · exact List.mem_append_left _ h

/-- A job that has failed waits again or is exhausted. -/
theorem mem_retry (attempts : ℕ) (job : Job κ) (q : WorkQueue σ ℓ ε κ τ) :
    (∃ j ∈ (retry attempts job q).waiting, j.key = job.key) ∨ ∃ j ∈ (retry attempts job q).exhausted, j.key = job.key := by
  unfold retry
  dsimp only
  split
  · exact .inl ⟨_,List.mem_append_right _ (List.mem_singleton_self _),rfl⟩
  · exact .inr ⟨_,List.mem_append_right _ (List.mem_singleton_self _),rfl⟩

/-- Whatever holds of all running jobs, and of those that are taken and their rests, goes on holding. -/
theorem forall_running [LE τ] {G : Prog σ ℓ ε Unit → Prop} (hstarts : ∀ key now p, starts key now p → G p)
    (hrest : ∀ l w k s, G (.stmt l w k) → G (k s)) (hstep : Step attempts starts changes q r)
    (hq : ∀ x ∈ q.running, G x.2) : ∀ x ∈ r.running, G x.2 := by
  cases hstep with
  | change => exact hq
  | tick => exact hq
  | take _ hp => exact List.forall_mem_cons.mpr ⟨hstarts _ _ _ hp,hq⟩
  | execute h =>
    rw [h,List.forall_mem_append,List.forall_mem_cons] at hq
    exact List.forall_mem_append.mpr ⟨hq.1,List.forall_mem_cons.mpr ⟨hrest _ _ _ _ hq.2.1,hq.2.2⟩⟩
  | complete h =>
    rw [h,List.forall_mem_append,List.forall_mem_cons] at hq
    exact List.forall_mem_append.mpr ⟨hq.1,hq.2.2⟩
  | fail h =>
    rw [h,List.forall_mem_append,List.forall_mem_cons] at hq
    rw [running_retry]
    exact List.forall_mem_append.mpr ⟨hq.1,hq.2.2⟩

/-- A part of the state that nothing changes. -/
theorem view_step [LE τ] {view : σ → β} (hchanges : ∀ s t keys, changes s t keys → view t = view s)
    (hstep : Step attempts starts changes q r) (hq : ∀ x ∈ q.running, x.2.Keeps view) : view r.state = view q.state := by
  cases hstep with
  | change h => exact hchanges _ _ _ h
  | execute h =>
    rw [h] at hq
    exact (hq _ (List.mem_append_right _ List.mem_cons_self) q.state).1
  | fail h => rw [state_retry]
  | _ => rfl

end

/-! ## What a job is there for -/

section
variable (D : Discipline σ) (goal : σ → Prop) (key : κ)

/-- A statement keeps the invariant and moves on in the order. -/
def Steady (p : Prog σ ℓ ε Unit) : Prop := p.Guarantees fun _ s t => D.Inv s → D.Inv t ∧ D.Later s t

/-- A job is still to come that reaches the goal, or the goal is reached, unless a job was given up. -/
inductive Pending (q : WorkQueue σ ℓ ε κ τ) : Prop
  | waits {j : Job κ} (hj : j ∈ q.waiting) (hkey : j.key = key)
  | runs {j : Job κ} {p : Prog σ ℓ ε Unit} (hj : (j,p) ∈ q.running) (hkey : j.key = key)
      (hp : p.Respects D (fun _ => goal) q.state)
  | givenUp {j : Job κ} (hj : j ∈ q.exhausted) (hkey : j.key = key)
  | reached (h : goal q.state)

end

theorem pending_retry {D : Discipline σ} {goal : σ → Prop} (attempts : ℕ) (job : Job κ) (q : WorkQueue σ ℓ ε κ τ) :
    Pending D goal job.key (retry attempts job q) := by
  rcases mem_retry attempts job q with ⟨j,hj,hkey⟩ | ⟨j,hj,hkey⟩
  · exact .waits hj hkey
  · exact .givenUp hj hkey

/-- The rule: once no job of the key waits or runs and none was given up, the goal is reached. -/
theorem Pending.reached_of_drained {D : Discipline σ} {goal : σ → Prop} {key : κ} {q : WorkQueue σ ℓ ε κ τ}
    (h : Pending D goal key q) (hwaiting : ∀ j ∈ q.waiting, j.key ≠ key) (hrunning : ∀ x ∈ q.running, x.1.key ≠ key)
    (hexhausted : ∀ j ∈ q.exhausted, j.key ≠ key) : goal q.state := by
  cases h with
  | waits hj hkey => exact absurd hkey (hwaiting _ hj)
  | runs hj hkey => exact absurd hkey (hrunning _ hj)
  | givenUp hj hkey => exact absurd hkey (hexhausted _ hj)
  | reached hg => exact hg

section
variable [Preorder τ] {attempts : ℕ} {starts : κ → τ → Prog σ ℓ ε Unit → Prop} {changes : σ → σ → List κ → Prop}
variable {q r : WorkQueue σ ℓ ε κ τ} {D : Discipline σ} {goal : σ → Prop} {key : κ} {since : τ}

/-- One step. -/
theorem Pending.step (hadmits : ∀ s, D.Admits s) (hgoal : ∀ s t, goal s → D.Later s t → goal t)
    (hchanges : ∀ s t keys, changes s t keys → D.Inv s → D.Inv t → D.Later s t)
    (hstart : ∀ now, since ≤ now → ∀ p, starts key now p → ∀ s, D.Inv s → p.Respects D (fun _ => goal) s)
    (hstep : Step attempts starts changes q r) (hinv : D.Inv q.state) (hinv' : D.Inv r.state) (hclock : since ≤ q.clock)
    (hq : ∀ x ∈ q.running, Steady D x.2) (h : Pending D goal key q) : Pending D goal key r := by
  cases hstep with
  | change hchange =>
    have hlater := hchanges _ _ _ hchange hinv hinv'
    cases h with
    | waits hj hkey => exact .waits (List.mem_append_left _ hj) hkey
    | runs hj hkey hp => exact .runs hj hkey (hp.later hlater)
    | givenUp hj hkey => exact .givenUp hj hkey
    | reached hg => exact .reached (hgoal _ _ hg hlater)
  | tick =>
    cases h with
    | waits hj hkey => exact .waits hj hkey
    | runs hj hkey hp => exact .runs hj hkey hp
    | givenUp hj hkey => exact .givenUp hj hkey
    | reached hg => exact .reached hg
  | take htake hp =>
    cases h with
    | waits hj hkey =>
      rw [htake] at hj
      rcases List.mem_append.mp hj with hj | hj
      · exact .waits (List.mem_append_left _ hj) hkey
      · rcases List.mem_cons.mp hj with rfl | hj
        · rw [hkey] at hp
          exact .runs List.mem_cons_self hkey (hstart _ hclock _ hp _ hinv)
        · exact .waits (List.mem_append_right _ hj) hkey
    | runs hj hkey hp => exact .runs (List.mem_cons_of_mem _ hj) hkey hp
    | givenUp hj hkey => exact .givenUp hj hkey
    | reached hg => exact .reached hg
  | @execute before after job l w k hrun =>
    rw [hrun,List.forall_mem_append,List.forall_mem_cons] at hq
    have hlater : D.Later q.state (w q.state) := ((hq.2.1 q.state).1 hinv).2
    cases h with
    | waits hj hkey => exact .waits hj hkey
    | @runs j p hj hkey hp =>
      rw [hrun] at hj
      rcases List.mem_append.mp hj with hj | hj
      · exact .runs (List.mem_append_left _ hj) hkey (hp.later hlater)
      · rcases List.mem_cons.mp hj with hsame | hj
        · obtain ⟨rfl,rfl⟩ := Prod.mk.inj hsame
          obtain ⟨-,-,hrest⟩ := hp q.state (D.refl _) hinv (hadmits _)
          exact .runs (List.mem_append_right _ List.mem_cons_self) hkey hrest
        · exact .runs (List.mem_append_right _ (List.mem_cons_of_mem _ hj)) hkey (hp.later hlater)
    | givenUp hj hkey => exact .givenUp hj hkey
    | reached hg => exact .reached (hgoal _ _ hg hlater)
  | complete hrun =>
    cases h with
    | waits hj hkey => exact .waits hj hkey
    | runs hj hkey hp =>
      rw [hrun] at hj
      rcases List.mem_append.mp hj with hj | hj
      · exact .runs (List.mem_append_left _ hj) hkey hp
      · rcases List.mem_cons.mp hj with hsame | hj
        · obtain ⟨rfl,rfl⟩ := Prod.mk.inj hsame
          exact .reached (hp q.state (D.refl _))
        · exact .runs (List.mem_append_right _ hj) hkey hp
    | givenUp hj hkey => exact .givenUp hj hkey
    | reached hg => exact .reached hg
  | @fail before after job p hrun =>
    cases h with
    | waits hj hkey => exact .waits (waiting_retry hj) hkey
    | runs hj hkey hp =>
      rw [hrun] at hj
      have hrest (hj : _ ∈ before ++ after) : Pending D goal key (retry attempts job { q with running := before ++ after }) :=
        .runs (by rw [running_retry]; exact hj) hkey (by rw [state_retry]; exact hp)
      rcases List.mem_append.mp hj with hj | hj
      · exact hrest (List.mem_append_left _ hj)
      · rcases List.mem_cons.mp hj with hsame | hj
        · obtain ⟨rfl,-⟩ := Prod.mk.inj hsame
          rw [← hkey]
          exact pending_retry _ _ _
        · exact hrest (List.mem_append_right _ hj)
    | givenUp hj hkey => exact .givenUp (exhausted_retry hj) hkey
    | reached hg => exact .reached (by rw [state_retry]; exact hg)

theorem clock_step (hstep : Step attempts starts changes q r) : q.clock ≤ r.clock := by
  cases hstep with
  | tick h => exact h
  | fail h =>
    rw [clock_retry]
  | _ => exact le_rfl

/-- Left alone, a job that does not fail is done. -/
theorem left_alone {job : Job κ} {p : Prog σ ℓ ε Unit} {rest : List (Job κ × Prog σ ℓ ε Unit)}
    (hrunning : q.running = (job,p) :: rest) (hp : Steady D p) (hinv : D.Inv q.state) (hok : (p.run q.state).1 = .ok ()) :
    Relation.ReflTransGen (fun q r => Step attempts starts changes q r ∧ D.Inv r.state) q
      { q with state := (p.run q.state).2,running := rest } := by
  induction p generalizing q with
  | done r =>
    have hdone : r = .ok () := hok
    subst hdone
    exact .single ⟨.complete (show q.running = [] ++ _ :: rest from hrunning),hinv⟩
  | stmt l w k ih =>
    have hinv' : D.Inv (w q.state) := ((hp q.state).1 hinv).1
    have hexecute : Step attempts starts changes q { q with state := w q.state,running := (job,k q.state) :: rest } :=
      .execute (show q.running = [] ++ _ :: rest from hrunning)
    exact .head ⟨hexecute,hinv'⟩ (ih q.state rfl (hp q.state).2 hinv' hok)

end
end WorkQueue
end PinoyTax.Foundation
