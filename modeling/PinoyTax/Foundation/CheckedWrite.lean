import PinoyTax.Foundation.Observation

/-! # A checked write against a final one

One thread checks the status of a row and writes it by key in a later statement. The
other thread writes a final status without looking at what the first one has read. The
final status stands for good unless the final write falls between the check and its write.
-/
namespace PinoyTax.Foundation.CheckedWrite
variable {σ ℓ ε α κ : Type}

/-- The row that both threads are about: its status, absent without a row, what the check
expects, what the two threads write, and the labels of the two writes. Where keys are
unique the check reads this very row. -/
structure Contest (σ ℓ κ : Type) where
  Keyed : σ → Prop
  status : σ → Option κ
  expected : κ
  checked : κ
  final : κ
  checkedWrite : ℓ
  finalWrite : ℓ

inductive Phase | checking | writing | written | reading | settled | refused
deriving DecidableEq, Repr

variable (C : Contest σ ℓ κ)

/-- A write by key reaches the row if there is one. -/
structure Contest.Puts (k : κ) (s s' : σ) : Prop where
  status : C.status s' = (C.status s).map fun _ => k
  keyed : C.Keyed s → C.Keyed s'

inductive Step : Phase → σ → ℓ → Phase → σ → Prop
  | looked {s : σ} {l : ℓ} (hl : l ≠ C.checkedWrite) : Step .checking s l .checking s
  | passed {s : σ} {l : ℓ} (hl : l ≠ C.checkedWrite) (h : C.Keyed s → C.status s = some C.expected) :
      Step .checking s l .writing s
  | written {s s' : σ} (h : C.status s ≠ none) (hput : C.Puts C.checked s s') :
      Step .writing s C.checkedWrite .written s'
  | missed {s s' : σ} (h : C.status s = none) (hput : C.Puts C.checked s s') :
      Step .writing s C.checkedWrite .refused s'
  | read {s : σ} {l : ℓ} (hl : l ≠ C.finalWrite) : Step .reading s l .reading s
  | settled {s s' : σ} (h : C.status s ≠ none) (hput : C.Puts C.final s s') :
      Step .reading s C.finalWrite .settled s'
  | lost {s s' : σ} (h : C.status s = none) (hput : C.Puts C.final s s') :
      Step .reading s C.finalWrite .refused s'

/-- A thread that throws has written nothing. -/
def Ends : Except ε α → Phase → Prop
  | .ok _, φ => φ = .written ∨ φ = .settled
  | .error _, φ => φ = .checking ∨ φ = .reading ∨ φ = .refused

section
variable {C} {β : Type}

theorem Ends.discard {p : Prog σ ℓ ε α} {φ : Phase} (hp : p.Follows (Step C) Ends φ) :
    p.discard.Follows (Step C) Ends φ := hp.bind (fun _ _ h => h) (fun _ _ h => h)

/-- A part that only reads, however it ends. -/
def Reads (C : Contest σ ℓ κ) (p : Prog σ ℓ ε α) : Prop := p.Follows (Step C) (fun _ φ => φ = .reading) .reading

theorem reads_query {l : ℓ} (hl : l ≠ C.finalWrite) (g : σ → α) : Reads C (Prog.query l g : Prog σ ℓ ε α) :=
  fun _ => ⟨.reading,.read hl,rfl⟩

theorem Reads.bind {p : Prog σ ℓ ε α} {f : α → Prog σ ℓ ε β} (hp : Reads C p) (hf : ∀ a, Reads C (f a)) :
    Reads C (p >>= f) := by
  refine Prog.Follows.bind hp ?_ (fun _ _ h => h)
  rintro a φ rfl
  exact hf a

theorem Reads.follows_bind {p : Prog σ ℓ ε α} {f : α → Prog σ ℓ ε β} (hp : Reads C p)
    (hf : ∀ a, (f a).Follows (Step C) Ends .reading) : (p >>= f).Follows (Step C) Ends .reading := by
  refine Prog.Follows.bind hp ?_ (fun _ _ h => .inr (.inl h))
  rintro a φ rfl
  exact hf a

end

/-- The next statement of the thread that checks is its write. -/
def MidWrite (c : Config σ ℓ ε α) : Prop := ∃ p, c.threads[0]? = some p ∧ p.head? = some C.checkedWrite

/-- Once the final write has succeeded the checked status is gone for good. -/
def Stands (start : Config σ ℓ ε α) (tr : List (ℕ × ℓ)) : Prop :=
  ∀ tr₁ tr₂ c, tr = tr₁ ++ tr₂ → Steps start tr₁ c → c.Succeeded 1 → C.status c.state ≠ some C.checked

/-- The final write does not fall between the check and its write. -/
def Apart (start : Config σ ℓ ε α) (tr : List (ℕ × ℓ)) : Prop :=
  ∀ tr₁ tr₂ c, tr = tr₁ ++ (1,C.finalWrite) :: tr₂ → Steps start tr₁ c → ¬ MidWrite C c

section
variable {C} {c c' d : Config σ ℓ ε α} {φ₀ φ₁ : Phase} {tr : List (ℕ × ℓ)}

abbrev FollowsContest (C : Contest σ ℓ κ) (c : Config σ ℓ ε α) (φ₀ φ₁ : Phase) : Prop :=
  c.Follows (Step C) Ends [φ₀,φ₁]

theorem midWrite_iff (hf : FollowsContest C c φ₀ φ₁)
    (hφ : φ₀ = .checking ∨ φ₀ = .writing ∨ φ₀ = .written ∨ φ₀ = .refused) :
    MidWrite C c ↔ φ₀ = .writing := by
  obtain ⟨p,hp,hfol⟩ := hf.thread (i := 0) rfl
  have hmid : MidWrite C c ↔ p.head? = some C.checkedWrite := by simp [MidWrite,hp]
  rw [hmid]
  cases p with
  | done r =>
    cases r with
    | ok a => rcases hfol with rfl | rfl <;> simp
    | error e => rcases hfol with rfl | rfl | rfl <;> simp
  | stmt l w k =>
    obtain ⟨φ',ht,-⟩ := hfol c.state
    rw [Prog.head?_stmt]
    generalize w c.state = t at ht
    cases ht <;> simp_all

theorem succeeded_iff_settled (hf : FollowsContest C c φ₀ φ₁) (hφ : φ₁ = .reading ∨ φ₁ = .settled ∨ φ₁ = .refused) :
    c.Succeeded 1 ↔ φ₁ = .settled := by
  obtain ⟨p,hp,hfol⟩ := hf.thread (i := 1) rfl
  have hset : c.Succeeded 1 ↔ ∃ a, p = .done (.ok a) := by simp [Config.succeeded_iff,hp]
  rw [hset]
  cases p with
  | done r =>
    cases r with
    | ok a => rcases hfol with rfl | rfl <;> simp_all
    | error e => rcases hfol with rfl | rfl | rfl <;> simp
  | stmt l w k =>
    obtain ⟨φ',ht,-⟩ := hfol c.state
    generalize w c.state = t at ht
    cases ht <;> simp_all

/-- Before the final write the row that was checked is there; after it the status is
final, and nothing is left to overwrite it. -/
structure Undisturbed (C : Contest σ ℓ κ) (s : σ) (φ₀ φ₁ : Phase) : Prop where
  keyed : C.Keyed s
  checker : φ₀ = .checking ∨ φ₀ = .writing ∨ φ₀ = .written ∨ φ₀ = .refused
  settler : φ₁ = .reading ∨ φ₁ = .settled ∨ φ₁ = .refused
  found : φ₀ = .writing → C.status s ≠ none
  final : φ₁ = .settled → C.status s = some C.final ∧ φ₀ ≠ .writing

theorem Contest.Puts.ne_none {k : κ} {s s' : σ} (hput : C.Puts k s s') (h : C.status s ≠ none) :
    C.status s' = some k := by
  obtain ⟨old,hold⟩ := Option.ne_none_iff_exists'.mp h
  rw [hput.status,hold]
  rfl

theorem step_writing {s s' : σ} {l : ℓ} {φ : Phase} (hfound : C.status s ≠ none) (ht : Step C .writing s l φ s') :
    φ = .written ∧ C.status s' = some C.checked := by
  cases ht with
  | written hst hput => exact ⟨rfl,hput.ne_none hst⟩
  | missed hst hput => exact absurd hst hfound

theorem step_final {s s' : σ} {l : ℓ} {φ : Phase} (hφ : φ₁ = .reading ∨ φ₁ = .settled ∨ φ₁ = .refused)
    (hfound : C.status s ≠ none) (hl : l = C.finalWrite) (ht : Step C φ₁ s l φ s') :
    φ = .settled ∧ C.status s' = some C.final := by
  cases ht with
  | settled hst hput => exact ⟨rfl,hput.ne_none hst⟩
  | lost hst hput => exact absurd hst hfound
  | read hl' => exact absurd hl hl'
  | looked hl' => simp at hφ
  | passed hl' hst => simp at hφ
  | written hst hput => simp at hφ
  | missed hst hput => simp at hφ

theorem Undisturbed.step_zero (hfinal : C.final ≠ C.expected) {s s' : σ} {l : ℓ} {φ : Phase}
    (h : Undisturbed C s φ₀ φ₁) (ht : Step C φ₀ s l φ s') : Undisturbed C s' φ φ₁ := by
  have hset := h.settler
  have hch := h.checker
  cases ht with
  | looked hl => exact ⟨h.keyed,by simp,hset,by simp,fun hφ => ⟨(h.final hφ).1,by simp⟩⟩
  | passed hl hst =>
    have hst' := hst h.keyed
    refine ⟨h.keyed,by simp,hset,fun _ => by simp [hst'],fun hφ => ?_⟩
    rw [(h.final hφ).1,Option.some.injEq] at hst'
    exact absurd hst' hfinal
  | written hst hput => exact ⟨hput.keyed h.keyed,by simp,hset,by simp,fun hφ => absurd rfl (h.final hφ).2⟩
  | missed hst hput => exact absurd hst (h.found rfl)
  | read hl => simp at hch
  | settled hst hput => simp at hch
  | lost hst hput => simp at hch

theorem Undisturbed.step_one {s s' : σ} {l : ℓ} {φ : Phase} (h : Undisturbed C s φ₀ φ₁)
    (ht : Step C φ₁ s l φ s') (hl : l = C.finalWrite → φ₀ ≠ .writing) : Undisturbed C s' φ₀ φ := by
  have hset := h.settler
  cases ht with
  | read hl' => exact ⟨h.keyed,h.checker,by simp,h.found,by simp⟩
  | settled hst hput =>
    have hnot := hl rfl
    exact ⟨hput.keyed h.keyed,h.checker,by simp,fun hφ => absurd hφ hnot,fun _ => ⟨hput.ne_none hst,hnot⟩⟩
  | lost hst hput => exact ⟨hput.keyed h.keyed,h.checker,by simp,fun hφ => absurd hφ (hl rfl),by simp⟩
  | looked hl' => simp at hset
  | passed hl' hst => simp at hset
  | written hst hput => simp at hset
  | missed hst hput => simp at hset

theorem Step.keyed {s s' : σ} {l : ℓ} {φ φ' : Phase} (ht : Step C φ s l φ' s') (h : C.Keyed s) : C.Keyed s' := by
  cases ht with
  | looked hl => exact h
  | passed hl hst => exact h
  | read hl => exact h
  | written hst hput => exact hput.keyed h
  | missed hst hput => exact hput.keyed h
  | settled hst hput => exact hput.keyed h
  | lost hst hput => exact hput.keyed h

theorem keyed_of_steps (hf : FollowsContest C c φ₀ φ₁) (h : Steps c tr d) (hc : C.Keyed c.state) : C.Keyed d.state := by
  obtain ⟨φs,-,hd⟩ := h.phases (I := fun s _ => C.Keyed s) (fun _ hs _ ht => ht.keyed hs) hf hc
  exact hd

theorem whenever_iff_apart {start : Config σ ℓ ε α} (h : Steps start tr d) :
    Whenever (fun _ _ _ _ => ([] : List Empty)) (fun _ c i l _ => i = 1 → l = C.finalWrite → ¬ MidWrite C c) start
      tr [] ↔ Apart C start tr := by
  constructor
  · intro hw tr₁ tr₂ c htr hc
    obtain ⟨e,he,hrest⟩ := Steps.split (htr ▸ h)
    obtain rfl := he.det hc
    obtain _ | ⟨hs,-⟩ := hrest
    exact hw tr₁ 1 _ tr₂ e _ htr hc hs rfl rfl
  · intro hw tr₁ i l tr₂ c c' htr hc hs hi hl
    subst hi hl
    exact hw tr₁ tr₂ c htr hc

/-- The final status stands while the two writes are apart, and in completed executions
only then. -/
theorem stands_and_apart {start : Config σ ℓ ε α} (hkeyed : C.Keyed start.state) (hexpected : C.final ≠ C.expected)
    (hchecked : C.final ≠ C.checked) (hf : FollowsContest C start .checking .reading) (h : Steps start tr d) :
    (Apart C start tr → Stands C start tr) ∧ (d.Completed → Stands C start tr → Apart C start tr) := by
  have hstands : Throughout (fun _ _ _ _ => ([] : List Empty))
      (fun _ c => c.Succeeded 1 → C.status c.state ≠ some C.checked) start tr [] ↔ Stands C start tr := Iff.rfl
  rw [← whenever_iff_apart h,← hstands]
  refine h.throughout_exactly
    (J := fun _ c => ∃ φ₀ φ₁, FollowsContest C c φ₀ φ₁ ∧ Undisturbed C c.state φ₀ φ₁)
    (B := fun _ c => FollowsContest C c .writing .settled ∧ C.status c.state ≠ none) ?_ ?_ ?_ ?_ ?_
    ⟨_,_,hf,hkeyed,by simp,by simp,by simp,by simp⟩
  · rintro - c ⟨φ₀,φ₁,hfc,hI⟩ hset
    rw [(hI.final ((succeeded_iff_settled hfc hI.settler).mp hset)).1]
    simpa using hchecked
  · rintro - c i l c' ⟨φ₀,φ₁,hfc,hI⟩ hs hk
    rcases hfc.step_pair hs with ⟨rfl,φ,ht,hf'⟩ | ⟨rfl,φ,ht,hf'⟩
    · exact ⟨φ,φ₁,hf',hI.step_zero hexpected ht⟩
    · refine ⟨φ₀,φ,hf',hI.step_one ht fun hl => ?_⟩
      exact fun hφ => hk rfl hl ((midWrite_iff hfc hI.checker).mpr hφ)
  · rintro - c i l c' ⟨φ₀,φ₁,hfc,hI⟩ hs hk -
    simp only [not_forall,not_not] at hk
    obtain ⟨rfl,rfl,hmid⟩ := hk
    obtain rfl := (midWrite_iff hfc hI.checker).mp hmid
    rcases hfc.step_pair hs with ⟨h0,-⟩ | ⟨-,φ,ht,hf'⟩
    · cases h0
    · obtain ⟨rfl,hst⟩ := step_final hI.settler (hI.found rfl) rfl ht
      exact ⟨hf',by simp [hst]⟩
  · rintro - c i l c' ⟨hfc,hfound⟩ hs hP
    rcases hfc.step_pair hs with ⟨rfl,φ,ht,hf'⟩ | ⟨rfl,φ,ht,hf'⟩
    · obtain ⟨rfl,hst⟩ := step_writing hfound ht
      exact absurd hst (hP ((succeeded_iff_settled hf' (.inr (.inl rfl))).mpr rfl))
    · cases ht
  · rintro - c ⟨hfc,-⟩ hc
    obtain ⟨r,hr⟩ := hfc.post hc (i := 0) rfl
    cases r with
    | ok a => rcases hr with h | h <;> cases h
    | error e => rcases hr with h | h | h <;> cases h

end
end PinoyTax.Foundation.CheckedWrite
