import PinoyTax.Foundation.WorkQueue
import Mathlib.Logic.Function.Iterate

/-! # Requests that give notice of what they change

Requests are in flight beside a queue of jobs. Each of their statements may add jobs, while
the statements of the others and of the running jobs go on. A request that changes what the
jobs of a key are about owes a job of that key until one of its statements adds it.
-/
namespace PinoyTax.Foundation
variable {σ ℓ ε α β κ τ ρ ν : Type}

namespace Prog

/-- What a program owes when it has changed the view, it pays before it ends or is refused, provided that
nobody else changes the view. -/
def Settles (view : σ → ν) (pays : σ → σ → Prop) (refusable : ℓ → Prop) : Prop → Prog σ ℓ ε α → σ → Prop
  | owes, .done _, _ => ¬owes
  | owes, .stmt l w k, s => (refusable l → ¬owes) ∧ ∀ t, view t = view s →
    (k t).Settles view pays refusable ((owes ∨ view (w t) ≠ view t) ∧ ¬pays t (w t)) (w t)

section
variable {view : σ → ν} {pays : σ → σ → Prop} {refusable : ℓ → Prop} {owes owes' : Prop} {s t : σ}

theorem Settles.later {p : Prog σ ℓ ε α} (h : Settles view pays refusable owes p s) (hst : view t = view s) :
    Settles view pays refusable owes p t := by
  cases p with
  | done r => exact h
  | stmt l w k => exact ⟨h.1,fun u hu => h.2 u (hu.trans hst)⟩

/-- Who owes less settles as well. -/
theorem Settles.mono {p : Prog σ ℓ ε α} (hless : owes' → owes) (h : Settles view pays refusable owes p s) :
    Settles view pays refusable owes' p s := by
  induction p generalizing s owes owes' with
  | done r => exact fun howes => h (hless howes)
  | stmt l w k ih =>
    refine ⟨fun hl howes => h.1 hl (hless howes),fun t ht => ih t (fun hmore => ?_) (h.2 t ht)⟩
    exact ⟨hmore.1.imp_left hless,hmore.2⟩

/-- After a part that changes nothing. -/
theorem Keeps.settles_bind {p : Prog σ ℓ ε α} {f : α → Prog σ ℓ ε β} (hp : p.Keeps view)
    (hf : ∀ a t, view t = view s → Settles view pays refusable False (f a) t) :
    Settles view pays refusable False (p >>= f) s := by
  induction p generalizing s with
  | done r =>
    cases r with
    | ok a => exact hf a s rfl
    | error e => exact not_false
  | stmt l w k ih =>
    refine ⟨fun _ => not_false,fun t ht => ?_⟩
    have hsame : view (w t) = view t := (hp t).1
    have hrest : Settles view pays refusable False (k t >>= f) (w t) :=
      ih t (hp t).2 fun a u hu => hf a u (hu.trans (hsame.trans ht))
    exact hrest.mono fun howes => howes.1.elim id fun hne => hne hsame

/-- A program that changes nothing. -/
theorem Keeps.settles {p : Prog σ ℓ ε α} (hp : p.Keeps view) : Settles view pays refusable False p s := by
  induction p generalizing s with
  | done r => exact not_false
  | stmt l w k ih =>
    refine ⟨fun _ => not_false,fun t _ => ?_⟩
    have hrest : Settles view pays refusable False (k t) (w t) := ih t (hp t).2
    exact hrest.mono fun howes => howes.1.elim id fun hne => hne (hp t).1

theorem settles_query_bind {l : ℓ} {g : σ → α} {f : α → Prog σ ℓ ε β}
    (hf : ∀ t, view t = view s → Settles view pays refusable False (f (g t)) t) :
    Settles view pays refusable False (query l g >>= f) s :=
  ⟨fun _ => not_false,fun t ht => (hf t ht).mono fun howes => howes.1.elim id fun hne => hne rfl⟩

theorem Settles.discard {p : Prog σ ℓ ε α} (h : Settles view pays refusable owes p s) :
    Settles view pays refusable owes p.discard s := by
  induction p generalizing s owes with
  | done r => cases r <;> exact h
  | stmt l w k ih => exact ⟨h.1,fun t ht => ih t (h.2 t ht)⟩

end
end Prog

/-- The requests in flight and the queue that they add to. -/
structure Server (σ ℓ ε κ τ ρ α : Type) where
  queue : WorkQueue σ ℓ ε κ τ
  requests : List (ρ × Prog σ ℓ ε α) := []

namespace Server

section
variable [LE τ] (attempts : ℕ) (starts : κ → τ → Prog σ ℓ ε Unit → Prop) (elsewhere : σ → σ → Prop)
variable (program : ρ → Prog σ ℓ ε α) (added : σ → σ → List κ) (refusable : ℓ → Prop)

/-- A request arrives, executes its next statement and adds jobs, is refused there, or is answered; or the
queue goes on. -/
inductive Step : Server σ ℓ ε κ τ ρ α → Server σ ℓ ε κ τ ρ α → Prop
  | arrive {c : Server σ ℓ ε κ τ ρ α} (req : ρ) : Step c { c with requests := (req,program req) :: c.requests }
  | execute {c : Server σ ℓ ε κ τ ρ α} {before after : List (ρ × Prog σ ℓ ε α)} {req : ρ} {l : ℓ} {w : σ → σ}
      {k : σ → Prog σ ℓ ε α} (h : c.requests = before ++ (req,.stmt l w k) :: after) :
      Step c
        { queue := { c.queue with
            state := w c.queue.state
            waiting := c.queue.waiting ++ (added c.queue.state (w c.queue.state)).map fun key => ⟨key,0⟩ }
          requests := before ++ (req,k c.queue.state) :: after }
  | refuse {c : Server σ ℓ ε κ τ ρ α} {before after : List (ρ × Prog σ ℓ ε α)} {req : ρ} {l : ℓ} {w : σ → σ}
      {k : σ → Prog σ ℓ ε α} (h : c.requests = before ++ (req,.stmt l w k) :: after) (hl : refusable l) :
      Step c { c with requests := before ++ after }
  | answer {c : Server σ ℓ ε κ τ ρ α} {before after : List (ρ × Prog σ ℓ ε α)} {req : ρ} {r : Except ε α}
      (h : c.requests = before ++ (req,.done r) :: after) : Step c { c with requests := before ++ after }
  | work {c : Server σ ℓ ε κ τ ρ α} {q : WorkQueue σ ℓ ε κ τ}
      (h : WorkQueue.Step attempts starts (fun s t keys => keys = [] ∧ elsewhere s t) c.queue q) :
      Step c { c with queue := q }

end

/-- The request that arrived last executes its next statement. -/
def advance (added : σ → σ → List κ) (c : Server σ ℓ ε κ τ ρ α) : Server σ ℓ ε κ τ ρ α :=
  match c.requests with
  | (req,.stmt _ w k) :: rest =>
    { queue := { c.queue with
        state := w c.queue.state
        waiting := c.queue.waiting ++ (added c.queue.state (w c.queue.state)).map fun key => ⟨key,0⟩ }
      requests := (req,k c.queue.state) :: rest }
  | _ => c

/-- At most one of these requests is in flight. -/
def Serial (sets : ρ → Bool) (c : Server σ ℓ ε κ τ ρ α) : Prop := (c.requests.filter fun x => sets x.1).length ≤ 1

instance (sets : ρ → Bool) (c : Server σ ℓ ε κ τ ρ α) : Decidable (c.Serial sets) := inferInstanceAs (Decidable (_ ≤ 1))

/-- A request that sets the view owes a job. -/
def Owing (view : σ → ν) (pays : σ → σ → Prop) (refusable : ℓ → Prop) (sets : ρ → Bool) (c : Server σ ℓ ε κ τ ρ α) :
    Prop :=
  ∃ x ∈ c.requests, sets x.1 = true ∧ Prog.Settles view pays refusable True x.2 c.queue.state

/-- Which requests set the view, what everything else leaves of it and of what the jobs are there for. -/
structure Notifies (starts : κ → τ → Prog σ ℓ ε Unit → Prop) (elsewhere : σ → σ → Prop) (program : ρ → Prog σ ℓ ε α)
    (added : σ → σ → List κ) (refusable : ℓ → Prop) (view : σ → ν) (sets : ρ → Bool) (key : κ) (D : Discipline σ) :
    Prop where
  settles : ∀ req, sets req = true → ∀ s,
    Prog.Settles view (fun s t => key ∈ added s t) refusable False (program req) s
  keeps : ∀ req, sets req = false → (program req).Keeps view
  requests : ∀ req, (program req).Guarantees fun _ => D.Later
  jobs : ∀ key now p, starts key now p → p.Keeps view ∧ WorkQueue.Steady D p
  elsewhere : ∀ s t, elsewhere s t → view t = view s ∧ D.Later s t

/-! ## What is in flight -/

section
variable {c : Server σ ℓ ε κ τ ρ α} {sets : ρ → Bool}

theorem mem_of_rest {x y : ρ × Prog σ ℓ ε α} {before after : List (ρ × Prog σ ℓ ε α)}
    (hc : c.requests = before ++ x :: after) (hy : y ∈ before ++ after) : y ∈ c.requests := by
  rw [hc]
  exact (List.mem_append.mp hy).elim (List.mem_append_left _)
    fun hy => List.mem_append_right _ (List.mem_cons_of_mem _ hy)

theorem eq_or_mem_rest {x y : ρ × Prog σ ℓ ε α} {before after : List (ρ × Prog σ ℓ ε α)} (hy : y ∈ before ++ x :: after) :
    y = x ∨ y ∈ before ++ after := by
  simpa [or_left_comm] using hy

theorem mem_requests {x : ρ × Prog σ ℓ ε α} {before after : List (ρ × Prog σ ℓ ε α)}
    (hc : c.requests = before ++ x :: after) : x ∈ c.requests := by
  rw [hc]
  exact List.mem_append_right _ List.mem_cons_self

/-- Beside a request that sets the view there is none. -/
theorem Serial.others (h : Serial sets c) {before after : List (ρ × Prog σ ℓ ε α)} {x : ρ × Prog σ ℓ ε α}
    (hc : c.requests = before ++ x :: after) (hx : sets x.1 = true) : ∀ y ∈ before ++ after, sets y.1 = false := by
  have hfilter : (x :: after).filter (fun y => sets y.1) = x :: after.filter fun y => sets y.1 :=
    List.filter_cons_of_pos hx
  rw [Serial,hc,List.filter_append,hfilter,List.length_append,List.length_cons] at h
  have hbefore : before.filter (fun y => sets y.1) = [] := List.eq_nil_of_length_eq_zero (by omega)
  have hafter : after.filter (fun y => sets y.1) = [] := List.eq_nil_of_length_eq_zero (by omega)
  intro y hy
  rw [← Bool.not_eq_true]
  rcases List.mem_append.mp hy with hy | hy
  · exact List.filter_eq_nil_iff.mp hbefore y hy
  · exact List.filter_eq_nil_iff.mp hafter y hy

end

section
variable [Preorder τ] {attempts : ℕ} {starts : κ → τ → Prog σ ℓ ε Unit → Prop} {elsewhere : σ → σ → Prop}
variable {program : ρ → Prog σ ℓ ε α} {added : σ → σ → List κ} {refusable : ℓ → Prop} {c d : Server σ ℓ ε κ τ ρ α}
variable {view : σ → ν} {sets : ρ → Bool} {key : κ} {D : Discipline σ} {goal : σ → Prop} {since : τ}

/-- Whatever holds of all requests in flight, and of those that arrive and their rests, goes on holding. -/
theorem forall_requests {G : ρ → Prog σ ℓ ε α → Prop} (hprogram : ∀ req, G req (program req))
    (hrest : ∀ req l w k s, G req (.stmt l w k) → G req (k s))
    (hstep : Step attempts starts elsewhere program added refusable c d) (h : ∀ x ∈ c.requests, G x.1 x.2) :
    ∀ x ∈ d.requests, G x.1 x.2 := by
  cases hstep with
  | arrive req => exact List.forall_mem_cons.mpr ⟨hprogram req,h⟩
  | execute hc =>
    rw [hc,List.forall_mem_append,List.forall_mem_cons] at h
    exact List.forall_mem_append.mpr ⟨h.1,List.forall_mem_cons.mpr ⟨hrest _ _ _ _ _ h.2.1,h.2.2⟩⟩
  | refuse hc _ =>
    rw [hc,List.forall_mem_append,List.forall_mem_cons] at h
    exact List.forall_mem_append.mpr ⟨h.1,h.2.2⟩
  | answer hc =>
    rw [hc,List.forall_mem_append,List.forall_mem_cons] at h
    exact List.forall_mem_append.mpr ⟨h.1,h.2.2⟩
  | work _ => exact h

theorem forall_running {G : Prog σ ℓ ε Unit → Prop} (hstarts : ∀ key now p, starts key now p → G p)
    (hrest : ∀ l w k s, G (.stmt l w k) → G (k s))
    (hstep : Step attempts starts elsewhere program added refusable c d) (h : ∀ x ∈ c.queue.running, G x.2) :
    ∀ x ∈ d.queue.running, G x.2 := by
  cases hstep with
  | work hwork => exact WorkQueue.forall_running hstarts hrest hwork h
  | _ => exact h

theorem clock_step (hstep : Step attempts starts elsewhere program added refusable c d) : c.queue.clock ≤ d.queue.clock := by
  cases hstep with
  | work hwork => exact WorkQueue.clock_step hwork
  | _ => exact le_rfl

theorem step_advance (c : Server σ ℓ ε κ τ ρ α) :
    c.advance added = c ∨ Step attempts starts elsewhere program added refusable c (c.advance added) := by
  unfold advance
  split
  · rename_i hrequests
    exact .inr (.execute (show c.requests = [] ++ _ :: _ from hrequests))
  · exact .inl rfl

/-- So many statements of the request that arrived last, with nothing in between. -/
theorem steps_advance {P : Server σ ℓ ε κ τ ρ α → Prop} {n : ℕ} (h : ∀ i < n, P ((advance added)^[i + 1] c)) :
    Relation.ReflTransGen (fun c d => Step attempts starts elsewhere program added refusable c d ∧ P d) c
      ((advance added)^[n] c) := by
  induction n with
  | zero => exact .refl
  | succ n ih =>
    have hsteps := ih fun i hi => h i (Nat.lt_succ_of_lt hi)
    have hlast := h n (Nat.lt_succ_self n)
    rw [Function.iterate_succ_apply'] at hlast ⊢
    rcases step_advance ((advance added)^[n] c) with hsame | hstep
    · rw [hsame]
      exact hsteps
    · exact hsteps.tail ⟨hstep,hlast⟩

/-- The queue goes on by itself. -/
theorem steps_work {P : WorkQueue σ ℓ ε κ τ → Prop} {q : WorkQueue σ ℓ ε κ τ} (h : Relation.ReflTransGen
      (fun q r => WorkQueue.Step attempts starts (fun s t keys => keys = [] ∧ elsewhere s t) q r ∧ P r) c.queue q) :
    Relation.ReflTransGen (fun c d => Step attempts starts elsewhere program added refusable c d ∧ P d.queue) c
      { c with queue := q } :=
  h.lift (fun q => { c with queue := q }) fun _ _ hstep => ⟨.work hstep.1,hstep.2⟩

/-- What the statements of whatever is in flight leave as it is. -/
structure InFlight (view : σ → ν) (sets : ρ → Bool) (D : Discipline σ) (c : Server σ ℓ ε κ τ ρ α) : Prop where
  keeps : ∀ x ∈ c.requests, sets x.1 = false → x.2.Keeps view
  requests : ∀ x ∈ c.requests, x.2.Guarantees fun _ => D.Later
  jobs : ∀ x ∈ c.queue.running, x.2.Keeps view ∧ WorkQueue.Steady D x.2

variable (hnotifies : Notifies starts elsewhere program added refusable view sets key D)
include hnotifies

theorem InFlight.step (h : InFlight view sets D c) (hstep : Step attempts starts elsewhere program added refusable c d) :
    InFlight view sets D d where
  keeps := forall_requests (G := fun req p => sets req = false → p.Keeps view) hnotifies.keeps
    (fun _ _ _ _ s hG hreq => (hG hreq s).2) hstep h.keeps
  requests := forall_requests (G := fun _ p => p.Guarantees fun _ => D.Later) hnotifies.requests
    (fun _ _ _ _ s hG => (hG s).2) hstep h.requests
  jobs := forall_running hnotifies.jobs (fun _ _ _ s hG => ⟨(hG.1 s).2,(hG.2 s).2⟩) hstep h.jobs

theorem InFlight.view_work (h : InFlight view sets D c) {q : WorkQueue σ ℓ ε κ τ}
    (hwork : WorkQueue.Step attempts starts (fun s t keys => keys = [] ∧ elsewhere s t) c.queue q) :
    view q.state = view c.queue.state :=
  WorkQueue.view_step (fun s t _ hchange => (hnotifies.elsewhere s t hchange.2).1) hwork fun x hx => (h.jobs x hx).1

/-- As long as one request at a time sets the view, it can rely on what it has read of it. -/
theorem settles_step (h : InFlight view sets D c) (hserial : Serial sets c)
    (hstep : Step attempts starts elsewhere program added refusable c d)
    (hsettles : ∀ x ∈ c.requests, sets x.1 = true →
      Prog.Settles view (fun s t => key ∈ added s t) refusable False x.2 c.queue.state) :
    ∀ x ∈ d.requests, sets x.1 = true →
      Prog.Settles view (fun s t => key ∈ added s t) refusable False x.2 d.queue.state := by
  cases hstep with
  | arrive req => exact List.forall_mem_cons.mpr ⟨fun hreq => hnotifies.settles req hreq _,hsettles⟩
  | @execute before after req l w k hc =>
    intro x hx hxsets
    rcases eq_or_mem_rest hx with rfl | hrest
    · have howes := hsettles _ (mem_requests hc) hxsets
      exact (howes.2 _ rfl).mono fun hfalse => hfalse.elim
    · refine (hsettles x (mem_of_rest hc hrest) hxsets).later ?_
      cases hreq : sets req with
      | true =>
        rw [hserial.others hc hreq x hrest] at hxsets
        exact absurd hxsets Bool.false_ne_true
      | false => exact (h.keeps _ (mem_requests hc) hreq c.queue.state).1
  | refuse hc _ => exact fun x hx => hsettles x (mem_of_rest hc hx)
  | answer hc => exact fun x hx => hsettles x (mem_of_rest hc hx)
  | work hwork => exact fun x hx hxsets => (hsettles x hx hxsets).later (h.view_work hnotifies hwork)

/-- Who changes the view owes a job, or has added it. -/
theorem owing_of_changed (h : InFlight view sets D c)
    (hstep : Step attempts starts elsewhere program added refusable c d)
    (hsettles : ∀ x ∈ c.requests, sets x.1 = true →
      Prog.Settles view (fun s t => key ∈ added s t) refusable False x.2 c.queue.state)
    (hchanged : view d.queue.state ≠ view c.queue.state) :
    Owing view (fun s t => key ∈ added s t) refusable sets d ∨ ∃ j ∈ d.queue.waiting, j.key = key := by
  cases hstep with
  | @execute before after req l w k hc =>
    cases hreq : sets req with
    | false => exact absurd (h.keeps _ (mem_requests hc) hreq c.queue.state).1 hchanged
    | true =>
      have howes := (hsettles _ (mem_requests hc) hreq).2 c.queue.state rfl
      by_cases hpays : key ∈ added c.queue.state (w c.queue.state)
      · exact .inr ⟨⟨key,0⟩,List.mem_append_right _ (List.mem_map_of_mem hpays),rfl⟩
      · refine .inl ⟨_,List.mem_append_right _ List.mem_cons_self,hreq,howes.mono fun _ => ?_⟩
        exact ⟨.inr hchanged,hpays⟩
  | work hwork => exact absurd (h.view_work hnotifies hwork) hchanged
  | _ => exact absurd rfl hchanged

/-! ## From the change on -/

/-- One step: the debt stays until it is paid, and what it pays for stays until it is done. -/
theorem owing_or_pending_step (hadmits : ∀ s, D.Admits s) (hgoal : ∀ s t, goal s → D.Later s t → goal t)
    (hview : ∀ s t, D.Inv s → D.Inv t → view t = view s)
    (hstart : ∀ now, since ≤ now → ∀ p, starts key now p → ∀ s, D.Inv s → p.Respects D (fun _ => goal) s)
    (h : InFlight view sets D c) (hstep : Step attempts starts elsewhere program added refusable c d)
    (hinv : D.Inv c.queue.state) (hinv' : D.Inv d.queue.state) (hclock : since ≤ c.queue.clock)
    (hc : Owing view (fun s t => key ∈ added s t) refusable sets c ∨ WorkQueue.Pending D goal key c.queue) :
    Owing view (fun s t => key ∈ added s t) refusable sets d ∨ WorkQueue.Pending D goal key d.queue := by
  have hsteady : ∀ x ∈ c.queue.running, WorkQueue.Steady D x.2 := fun x hx => (h.jobs x hx).2
  rcases hc with ⟨x,hx,hsets,howes⟩ | hpending
  · cases hstep with
    | arrive req => exact .inl ⟨x,List.mem_cons_of_mem _ hx,hsets,howes⟩
    | @execute before after req l w k hrun =>
      rw [hrun] at hx
      rcases eq_or_mem_rest hx with rfl | hrest
      · by_cases hpays : key ∈ added c.queue.state (w c.queue.state)
        · exact .inr (.waits (List.mem_append_right _ (List.mem_map_of_mem hpays)) rfl)
        · refine .inl ⟨(req,k c.queue.state),List.mem_append_right _ List.mem_cons_self,hsets,?_⟩
          exact (howes.2 c.queue.state rfl).mono fun _ => ⟨.inl trivial,hpays⟩
      · have hmem : x ∈ before ++ (req,k c.queue.state) :: after :=
          (List.mem_append.mp hrest).elim (List.mem_append_left _) fun hx => List.mem_append_right _ (List.mem_cons_of_mem _ hx)
        exact .inl ⟨x,hmem,hsets,howes.later (hview _ _ hinv hinv')⟩
    | @refuse before after req l w k hrun hl =>
      rw [hrun] at hx
      rcases eq_or_mem_rest hx with rfl | hrest
      · exact absurd trivial (howes.1 hl)
      · exact .inl ⟨x,hrest,hsets,howes⟩
    | @answer before after req r hrun =>
      rw [hrun] at hx
      rcases eq_or_mem_rest hx with rfl | hrest
      · exact absurd trivial howes
      · exact .inl ⟨x,hrest,hsets,howes⟩
    | work hwork => exact .inl ⟨x,hx,hsets,howes.later (hview _ _ hinv hinv')⟩
  · right
    cases hstep with
    | @execute before after req l w k hrun =>
      have hlater := (h.requests _ (mem_requests hrun) c.queue.state).1
      have hchange := @WorkQueue.Step.change _ _ _ _ _ _ attempts starts (fun s t _ => D.Later s t) c.queue
        (w c.queue.state) (added c.queue.state (w c.queue.state)) hlater
      exact hpending.step hadmits hgoal (fun _ _ _ hst _ _ => hst) hstart hchange hinv hinv' hclock hsteady
    | work hwork =>
      exact hpending.step hadmits hgoal (fun s t _ hchange _ _ => (hnotifies.elsewhere s t hchange.2).2) hstart hwork hinv
        hinv' hclock hsteady
    | _ => exact hpending

/-- One request at a time has set the view: each of them settles. -/
theorem settles_along {first : Server σ ℓ ε κ τ ρ α} (hrequests : first.requests = []) (hjobs : first.queue.running = [])
    (h : Relation.ReflTransGen
      (fun c d => Step attempts starts elsewhere program added refusable c d ∧ Serial sets d) first c) :
    InFlight view sets D c ∧ Serial sets c ∧ ∀ x ∈ c.requests, sets x.1 = true →
      Prog.Settles view (fun s t => key ∈ added s t) refusable False x.2 c.queue.state := by
  induction h with
  | refl =>
    have hempty {P : ρ × Prog σ ℓ ε α → Prop} : ∀ x ∈ first.requests, P x := by
      rw [hrequests]
      exact fun x hx => absurd hx List.not_mem_nil
    refine ⟨⟨hempty,hempty,?_⟩,?_,hempty⟩
    · rw [hjobs]
      exact fun x hx => absurd hx List.not_mem_nil
    · rw [Serial,hrequests,List.filter_nil,List.length_nil]
      exact Nat.zero_le 1
  | tail _ hstep ih =>
    obtain ⟨hflight,hserial,hsettles⟩ := ih
    exact ⟨hflight.step hnotifies hstep.1,hstep.2,settles_step hnotifies hflight hserial hstep.1 hsettles⟩

theorem owing_or_pending_along (hadmits : ∀ s, D.Admits s) (hgoal : ∀ s t, goal s → D.Later s t → goal t)
    (hview : ∀ s t, D.Inv s → D.Inv t → view t = view s)
    (hstart : ∀ now, c.queue.clock ≤ now → ∀ p, starts key now p → ∀ s, D.Inv s → p.Respects D (fun _ => goal) s)
    (hinv : D.Inv c.queue.state) (hflight : InFlight view sets D c)
    (hc : Owing view (fun s t => key ∈ added s t) refusable sets c ∨ WorkQueue.Pending D goal key c.queue)
    (h : Relation.ReflTransGen
      (fun c d => Step attempts starts elsewhere program added refusable c d ∧ D.Inv d.queue.state) c d) :
    D.Inv d.queue.state ∧
      (Owing view (fun s t => key ∈ added s t) refusable sets d ∨ WorkQueue.Pending D goal key d.queue) := by
  have hall : c.queue.clock ≤ d.queue.clock ∧ InFlight view sets D d ∧ D.Inv d.queue.state ∧
      (Owing view (fun s t => key ∈ added s t) refusable sets d ∨ WorkQueue.Pending D goal key d.queue) := by
    induction h with
    | refl => exact ⟨le_rfl,hflight,hinv,hc⟩
    | tail _ hstep ih =>
      obtain ⟨hclock,hflight₁,hinv₁,hpending⟩ := ih
      exact ⟨hclock.trans (clock_step hstep.1),hflight₁.step hnotifies hstep.1,hstep.2,
        owing_or_pending_step hnotifies hadmits hgoal hview hstart hflight₁ hstep.1 hinv₁ hstep.2 hclock hpending⟩
  exact hall.2.2

/-- The rule: a step changes the view, which one request at a time has set until then. From then on, once no request
that sets it is in flight, no job of the key waits or runs and none was given up, the goal is reached. -/
theorem reached_of_changed (hadmits : ∀ s, D.Admits s) (hgoal : ∀ s t, goal s → D.Later s t → goal t)
    (hview : ∀ s t, D.Inv s → D.Inv t → view t = view s) {first later : Server σ ℓ ε κ τ ρ α}
    (hrequests : first.requests = []) (hjobs : first.queue.running = [])
    (hbefore : Relation.ReflTransGen
      (fun c d => Step attempts starts elsewhere program added refusable c d ∧ Serial sets d) first c)
    (hstep : Step attempts starts elsewhere program added refusable c d)
    (hchanged : view d.queue.state ≠ view c.queue.state) (hinv : D.Inv d.queue.state)
    (hstart : ∀ now, d.queue.clock ≤ now → ∀ p, starts key now p → ∀ s, D.Inv s → p.Respects D (fun _ => goal) s)
    (hlater : Relation.ReflTransGen
      (fun c d => Step attempts starts elsewhere program added refusable c d ∧ D.Inv d.queue.state) d later)
    (hanswered : ∀ x ∈ later.requests, sets x.1 = false) (hwaiting : ∀ j ∈ later.queue.waiting, j.key ≠ key)
    (hrunning : ∀ x ∈ later.queue.running, x.1.key ≠ key) (hexhausted : ∀ j ∈ later.queue.exhausted, j.key ≠ key) :
    D.Inv later.queue.state ∧ goal later.queue.state := by
  obtain ⟨hflight,-,hsettles⟩ := settles_along hnotifies hrequests hjobs hbefore
  have hd : Owing view (fun s t => key ∈ added s t) refusable sets d ∨ WorkQueue.Pending D goal key d.queue := by
    refine (owing_of_changed hnotifies hflight hstep hsettles hchanged).imp_right ?_
    rintro ⟨j,hj,hkey⟩
    exact .waits hj hkey
  obtain ⟨hinv',⟨x,hx,hsets,-⟩ | hpending⟩ := owing_or_pending_along hnotifies hadmits hgoal hview hstart hinv
    (hflight.step hnotifies hstep) hd hlater
  · rw [hanswered x hx] at hsets
    exact absurd hsets Bool.false_ne_true
  · exact ⟨hinv',hpending.reached_of_drained hwaiting hrunning hexhausted⟩

end

end Server
end PinoyTax.Foundation
