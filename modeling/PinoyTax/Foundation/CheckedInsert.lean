import Mathlib.Data.List.Nodup
import PinoyTax.Foundation.Observation

/-! # Looking up a key before inserting it

Threads insert rows into one table under keys that nothing but a look-up in the statement
before keeps apart. What a thread is about to insert it holds; a key stays single unless
two threads hold it when one of them inserts, or a look-up misses a key that is there.
-/
namespace PinoyTax.Foundation
variable {σ ℓ ε α β κ : Type}

/-- The keys that the next statement of the program appends. -/
def Prog.adds (keys : σ → List κ) : Prog σ ℓ ε α → σ → List κ
  | .done _, _ => []
  | .stmt _ w _, s => (keys (w s)).drop (keys s).length

/-- Executions that nobody takes notes of. -/
abbrev unobserved : Config σ ℓ ε α → ℕ → ℓ → Config σ ℓ ε α → List Unit := fun _ _ _ _ => []

namespace CheckedInsert
variable (keys : σ → List κ)

/-- A statement appends what the thread holds, and leaves it holding other keys. Where look-ups are
`exact`, none of these is in the table. -/
structure Step (exact : Prop) (held : List κ) (s : σ) (_ : ℓ) (held' : List κ) (s' : σ) : Prop where
  appends : keys s' = keys s ++ held
  nodup : held'.Nodup
  fresh : exact → ∀ k ∈ held', k ∉ keys s'

/-- A thread returns with nothing left to insert. -/
def Ends (_ : Except ε α) (held : List κ) : Prop := held = []

/-- The program inserts under keys that it has looked up in the statement before. -/
def Checks (exact : Prop) (p : Prog σ ℓ ε α) : Prop := p.Follows (Step keys exact) Ends []

def addsAt (c : Config σ ℓ ε α) (i : ℕ) : List κ := ((c.threads[i]?).map fun p => p.adds keys c.state).getD []

/-- Another thread is about to insert a key that thread `i` inserts. -/
def Collides (c : Config σ ℓ ε α) (i : ℕ) : Prop :=
  ∃ k ∈ addsAt keys c i, ∃ j < c.threads.length, j ≠ i ∧ k ∈ addsAt keys c j

/-- Thread `i` is about to insert a key that is there. -/
def Misses (c : Config σ ℓ ε α) (i : ℕ) : Prop := ∃ k ∈ addsAt keys c i, k ∈ keys c.state

instance [DecidableEq κ] (c : Config σ ℓ ε α) (i : ℕ) : Decidable (Collides keys c i) :=
  inferInstanceAs (Decidable (∃ k ∈ addsAt keys c i, ∃ j < c.threads.length, j ≠ i ∧ k ∈ addsAt keys c j))

instance [DecidableEq κ] (c : Config σ ℓ ε α) (i : ℕ) : Decidable (Misses keys c i) :=
  inferInstanceAs (Decidable (∃ k ∈ addsAt keys c i, k ∈ keys c.state))

/-- The step neither collides with another thread nor ends a look-up that misses a key. -/
def Apart (_ : List Unit) (c : Config σ ℓ ε α) (i : ℕ) (_ : ℓ) (c' : Config σ ℓ ε α) : Prop :=
  ¬ Collides keys c i ∧ ¬ Misses keys c' i

section
variable {keys} {exact : Prop}

/-! ## Programs that check -/

theorem Checks.bind {p : Prog σ ℓ ε α} {f : α → Prog σ ℓ ε β} (hp : Checks keys exact p)
    (hf : ∀ a, Checks keys exact (f a)) : Checks keys exact (p >>= f) := by
  refine Prog.Follows.bind hp ?_ (fun _ _ h => h)
  rintro a held rfl
  exact hf a

/-- A program that leaves the keys alone holds nothing. -/
theorem checks_of_keeps {p : Prog σ ℓ ε α} (hp : p.Keeps keys) : Checks keys exact p := by
  induction p with
  | done r => rfl
  | stmt l w k ih =>
    intro s
    obtain ⟨hkeys,hk⟩ := hp s
    refine ⟨[],⟨?_,List.nodup_nil,fun _ _ h => absurd h List.not_mem_nil⟩,ih s hk⟩
    rw [hkeys,List.append_nil]

/-- A look-up decides what to insert next. -/
theorem checks_query_bind {l : ℓ} {g : σ → β} {p : β → Prog σ ℓ ε α}
    (h : ∀ s, ∃ held, held.Nodup ∧ (exact → ∀ k ∈ held, k ∉ keys s) ∧ (p (g s)).Follows (Step keys exact) Ends held) :
    Checks keys exact (Prog.query l g >>= p) := by
  intro s
  obtain ⟨held,hnodup,hfresh,hp⟩ := h s
  exact ⟨held,⟨(List.append_nil _).symm,hnodup,hfresh⟩,hp⟩

theorem follows_insert {l : ℓ} {w : σ → σ} {k : σ → Prog σ ℓ ε α} {held : List κ} (hw : ∀ s, keys (w s) = keys s ++ held)
    (hk : ∀ s, Checks keys exact (k s)) : (Prog.stmt l w k).Follows (Step keys exact) Ends held :=
  fun s => ⟨[],⟨hw s,List.nodup_nil,fun _ _ h => absurd h List.not_mem_nil⟩,hk s⟩

/-- What a program holds is what its next statement appends. -/
theorem adds_eq {p : Prog σ ℓ ε α} {held : List κ} (hp : p.Follows (Step keys exact) Ends held) (s : σ) :
    p.adds keys s = held := by
  cases p with
  | done r => exact (show held = [] from hp).symm
  | stmt l w k =>
    obtain ⟨held',hstep,-⟩ := hp s
    rw [Prog.adds,hstep.appends,List.drop_left]

/-! ## Executions -/

variable {c c' d : Config σ ℓ ε α} {tr : List (ℕ × ℓ)} {phases : List (List κ)} {i : ℕ} {l : ℓ} {notes : List Unit}

theorem addsAt_eq (hf : c.Follows (Step keys exact) Ends phases) {held : List κ} (hi : phases[i]? = some held) :
    addsAt keys c i = held := by
  obtain ⟨p,hp,hfol⟩ := hf.thread hi
  rw [addsAt,hp,Option.map_some,Option.getD_some,adds_eq hfol]

/-- Keys are single, and no thread holds one of them. -/
structure Single (keys : σ → List κ) (exact : Prop) (c : Config σ ℓ ε α) (phases : List (List κ)) : Prop where
  follows : c.Follows (Step keys exact) Ends phases
  nodup : (keys c.state).Nodup
  held : ∀ held ∈ phases, held.Nodup ∧ ∀ k ∈ held, k ∉ keys c.state

/-- Some thread holds a key that is there. -/
def Doomed (keys : σ → List κ) (exact : Prop) (c : Config σ ℓ ε α) : Prop :=
  ∃ phases : List (List κ), c.Follows (Step keys exact) Ends phases ∧ ∃ held ∈ phases, ∃ k ∈ held, k ∈ keys c.state

theorem Single.step (hJ : Single keys exact c phases) (hs : c.step i = some (l,c')) (hK : Apart keys notes c i l c') :
    ∃ phases', Single keys exact c' phases' := by
  obtain ⟨held,held',hi,hstep,hf'⟩ := hJ.follows.step hs
  obtain ⟨hheld,hfresh⟩ := hJ.held held (List.mem_of_getElem? hi)
  have hi' : (phases.set i held')[i]? = some held' := by
    rw [List.getElem?_set_self (List.getElem?_eq_some_iff.mp hi).1]
  refine ⟨phases.set i held',hf',?_,?_⟩
  · rw [hstep.appends]
    exact hJ.nodup.append hheld fun k hk hk' => hfresh k hk' hk
  · intro other hother
    obtain ⟨j,hj⟩ := List.mem_iff_getElem?.mp hother
    by_cases hij : i = j
    · subst hij
      obtain rfl : held' = other := by rwa [hi',Option.some.injEq] at hj
      refine ⟨hstep.nodup,fun k hk hmem => hK.2 ⟨k,?_,hmem⟩⟩
      rwa [addsAt_eq hf' hi']
    · rw [List.getElem?_set_ne hij] at hj
      obtain ⟨hnodup,hother⟩ := hJ.held other (List.mem_of_getElem? hj)
      refine ⟨hnodup,fun k hk hmem => ?_⟩
      rw [hstep.appends] at hmem
      rcases List.mem_append.mp hmem with hmem | hmem
      · exact hother k hk hmem
      · have hlt : j < c.threads.length := by
          rw [← hJ.follows.length_eq]
          exact (List.getElem?_eq_some_iff.mp hj).1
        refine hK.1 ⟨k,?_,j,hlt,Ne.symm hij,?_⟩
        · rwa [addsAt_eq hJ.follows hi]
        · rwa [addsAt_eq hJ.follows hj]

theorem Single.doomed (hJ : Single keys exact c phases) (hs : c.step i = some (l,c')) (hK : ¬ Apart keys notes c i l c') :
    Doomed keys exact c' := by
  obtain ⟨held,held',hi,hstep,hf'⟩ := hJ.follows.step hs
  have hlt := (List.getElem?_eq_some_iff.mp hi).1
  rw [Apart,not_and_or,not_not,not_not] at hK
  rcases hK with ⟨k,hk,j,hlt',hji,hk'⟩ | ⟨k,hk,hmem⟩
  · rw [addsAt_eq hJ.follows hi] at hk
    rw [← hJ.follows.length_eq] at hlt'
    have hj : phases[j]? = some phases[j] := List.getElem?_eq_getElem hlt'
    rw [addsAt_eq hJ.follows hj] at hk'
    refine ⟨phases.set i held',hf',phases[j],?_,k,hk',?_⟩
    · rw [← List.getElem?_set_ne (Ne.symm hji)] at hj
      exact List.mem_of_getElem? hj
    · rw [hstep.appends]
      exact List.mem_append_right _ hk
  · have hi' : (phases.set i held')[i]? = some held' := by rw [List.getElem?_set_self hlt]
    rw [addsAt_eq hf' hi'] at hk
    exact ⟨phases.set i held',hf',held',List.mem_of_getElem? hi',k,hk,hmem⟩

/-- Unless a thread inserts the key that is there, the key remains held. -/
theorem Doomed.step (hB : Doomed keys exact c) (hs : c.step i = some (l,c')) (hnodup : (keys c'.state).Nodup) :
    Doomed keys exact c' := by
  obtain ⟨phases,hf,other,hother,k,hk,hmem⟩ := hB
  obtain ⟨held,held',hi,hstep,hf'⟩ := hf.step hs
  obtain ⟨j,hj⟩ := List.mem_iff_getElem?.mp hother
  rw [hstep.appends] at hnodup
  have hij : i ≠ j := by
    rintro rfl
    obtain rfl : held = other := by rwa [hi,Option.some.injEq] at hj
    exact List.disjoint_of_nodup_append hnodup hmem hk
  refine ⟨phases.set i held',hf',other,?_,k,hk,?_⟩
  · rw [← List.getElem?_set_ne hij] at hj
    exact List.mem_of_getElem? hj
  · rw [hstep.appends]
    exact List.mem_append_left _ hmem

theorem Doomed.not_completed (hB : Doomed keys exact c) : ¬ c.Completed := by
  intro hc
  obtain ⟨phases,hf,held,hheld,k,hk,-⟩ := hB
  obtain ⟨i,hi⟩ := List.mem_iff_getElem?.mp hheld
  obtain ⟨r,hr⟩ := hf.post hc hi
  rw [show held = [] from hr] at hk
  cases hk

/-- Keys that are single at the end have been single all along. -/
theorem throughout_nodup_iff (h : Steps c tr d) (hf : c.Follows (Step keys exact) Ends phases) :
    Throughout unobserved (fun _ c => (keys c.state).Nodup) c tr [] ↔ (keys d.state).Nodup := by
  have hgrows {e e' : Config σ ℓ ε α} {tr : List (ℕ × ℓ)} {phases : List (List κ)} (h : Steps e tr e')
      (hf : e.Follows (Step keys exact) Ends phases) : ∃ phases', e'.Follows (Step keys exact) Ends phases' ∧
        keys e.state <+: keys e'.state := by
    refine h.phases (I := fun s _ => keys e.state <+: keys s) ?_ hf List.prefix_rfl
    intro s φs j l' φ φ' s' _ hI _ hstep
    rw [hstep.appends]
    exact hI.trans (List.prefix_append _ _)
  constructor
  · intro ht
    exact ht tr [] d (List.append_nil tr).symm h
  · intro hd tr₁ tr₂ e htr he
    subst htr
    obtain ⟨e',he',hrest⟩ := h.split
    obtain rfl := he.det he'
    obtain ⟨phases',hf',-⟩ := hgrows he hf
    obtain ⟨-,-,hgrown⟩ := hgrows hrest hf'
    exact hd.sublist hgrown.sublist

/-- The exact condition: when all threads have returned, each key is single if and only if no
insertion collided with another and no look-up missed a key. -/
theorem nodup_iff (h : Steps c tr d) (hd : d.Completed) (hJ : Single keys exact c phases) :
    (keys d.state).Nodup ↔ Whenever unobserved (Apart keys) c tr [] := by
  have hexactly : (Whenever unobserved (Apart keys) c tr [] →
        Throughout unobserved (fun _ c => (keys c.state).Nodup) c tr []) ∧ (d.Completed →
      Throughout unobserved (fun _ c => (keys c.state).Nodup) c tr [] → Whenever unobserved (Apart keys) c tr []) :=
    h.throughout_exactly (J := fun _ c => ∃ phases, Single keys exact c phases) (B := fun _ c => Doomed keys exact c)
      (fun hJ => hJ.elim fun _ hJ => hJ.nodup) (fun hJ hs hK => hJ.elim fun _ hJ => hJ.step hs hK)
      (fun hJ hs hK _ => hJ.elim fun _ hJ => hJ.doomed hs hK) (fun hB hs hP => hB.step hs hP)
      (fun hB => hB.not_completed) ⟨phases,hJ⟩
  rw [← throughout_nodup_iff h hJ.follows]
  exact ⟨hexactly.2 hd,hexactly.1⟩

/-- Exact look-ups miss nothing. -/
theorem whenever_not_misses (hexact : exact) (h : Steps c tr d) (hf : c.Follows (Step keys exact) Ends phases) :
    Whenever unobserved (fun _ _ i _ c' => ¬ Misses keys c' i) c tr [] := by
  refine h.whenever_of (K := fun _ _ _ _ _ => True) (J := fun _ c => ∃ phases, c.Follows (Step keys exact) Ends phases)
    ?_ ⟨phases,hf⟩ (fun _ _ _ _ _ _ _ _ _ => trivial)
  rintro notes c i l c' ⟨phases,hf⟩ hs -
  obtain ⟨held,held',hi,hstep,hf'⟩ := hf.step hs
  have hi' : (phases.set i held')[i]? = some held' := by
    rw [List.getElem?_set_self (List.getElem?_eq_some_iff.mp hi).1]
  refine ⟨?_,phases.set i held',hf'⟩
  rintro ⟨k,hk,hmem⟩
  rw [addsAt_eq hf' hi'] at hk
  exact hstep.fresh hexact k hk hmem

/-! ## Threads that all check -/

section
variable {ι : Type} {p : ι → Prog σ ℓ ε α} {xs : List ι} {s : σ}

/-- Before their first statements the threads hold nothing. -/
theorem nodup_map_iff (hp : ∀ x ∈ xs, Checks keys exact (p x)) (h : Steps ⟨s,xs.map p⟩ tr d) (hd : d.Completed) :
    (keys d.state).Nodup ↔ (keys s).Nodup ∧ Whenever unobserved (Apart keys) ⟨s,xs.map p⟩ tr [] := by
  have hf : (⟨s,xs.map p⟩ : Config σ ℓ ε α).Follows (Step keys exact) Ends (xs.map fun _ => []) :=
    Config.follows_map xs hp s
  have hiff (hs : (keys s).Nodup) : (keys d.state).Nodup ↔ Whenever unobserved (Apart keys) ⟨s,xs.map p⟩ tr [] := by
    refine nodup_iff h hd ⟨hf,hs,?_⟩
    intro held hheld
    obtain ⟨x,-,rfl⟩ := List.mem_map.mp hheld
    exact ⟨List.nodup_nil,fun _ hk => absurd hk List.not_mem_nil⟩
  constructor
  · intro hnodup
    have hs : (keys s).Nodup := (throughout_nodup_iff h hf).mpr hnodup [] tr _ rfl (.refl _)
    exact ⟨hs,(hiff hs).mp hnodup⟩
  · rintro ⟨hs,hw⟩
    exact (hiff hs).mpr hw

/-- With exact look-ups only collisions matter. -/
theorem nodup_map_iff_of_exact (hexact : exact) (hp : ∀ x ∈ xs, Checks keys exact (p x))
    (h : Steps ⟨s,xs.map p⟩ tr d) (hd : d.Completed) : (keys d.state).Nodup ↔ (keys s).Nodup ∧
      Whenever unobserved (fun _ c i _ _ => ¬ Collides keys c i) ⟨s,xs.map p⟩ tr [] := by
  rw [nodup_map_iff hp h hd]
  have hmisses := whenever_not_misses hexact h (Config.follows_map xs hp s)
  refine and_congr_right fun _ => ⟨?_,fun hw => hw.and hmisses⟩
  intro hw tr₁ i l tr₂ e e' htr he hs
  exact (hw tr₁ i l tr₂ e e' htr he hs).1

end
end
end CheckedInsert
end PinoyTax.Foundation
