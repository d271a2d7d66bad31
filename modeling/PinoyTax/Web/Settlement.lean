import PinoyTax.Foundation.Ranking
import PinoyTax.Web.SingleRefresh

/-! # Every request settles

The rank of a call counts what it can still wait for. Others never raise it, and what
the call waits for lowers it. The ranks of all calls with the phases of the refreshes
bound what the network and the continuations can still do without a new call.
-/
namespace PinoyTax.Web
open PinoyTax Foundation Runs
variable {β δ : Type}

namespace Client
variable {c : Client β δ} {j k p q : ℕ} {φ φ' : Phase δ} {ψ : RefreshPhase} {res : FetchResponse} {token : Option String}

/-! ## What a call waits for -/

def RefreshPhase.remaining : RefreshPhase → ℕ
  | .fetching => 4
  | .parsing => 3
  | .returned _ => 2
  | .settled _ => 1

/-- What has to happen next for a call to go on. -/
def awaits (c : Client β δ) (k : ℕ) : Option Target :=
  match c.phaseOf k with
  | some (.refreshing p _) => if (c.refreshes[p]?).any RefreshPhase.isSettled then some (.call k) else some (.refresh p)
  | some (.settled _) => none
  | some _ => some (.call k)
  | none => none

/-- How many events a call can still wait for. -/
def rank (c : Client β δ) (k : ℕ) : ℕ :=
  match c.phaseOf k with
  | some (.refreshing p _) => 2 + (c.refreshes[p]?).elim 1 RefreshPhase.remaining
  | some φ => φ.remaining
  | none => 0

theorem remaining_pos (ψ : RefreshPhase) : 1 ≤ RefreshPhase.remaining ψ := by
  cases ψ with
  | fetching => exact Nat.le_add_left 1 3
  | parsing => exact Nat.le_add_left 1 2
  | returned token => exact Nat.le_add_left 1 1
  | settled token => exact le_rfl

theorem remaining_le (ψ : RefreshPhase) : RefreshPhase.remaining ψ ≤ 4 := by
  cases ψ with
  | fetching => exact le_rfl
  | parsing => exact Nat.le_add_right 3 1
  | returned token => exact Nat.le_add_right 2 2
  | settled token => exact Nat.le_add_right 1 3

theorem rank_of_refreshing (hk : c.phaseOf k = some (.refreshing p res)) (hp : c.refreshes[p]? = some ψ) :
    c.rank k = 2 + RefreshPhase.remaining ψ := by
  rw [rank,hk]
  dsimp only
  rw [hp]
  rfl

theorem remaining_le_rank (hk : c.phaseOf k = some φ) : φ.remaining ≤ c.rank k := by
  rw [rank,hk]
  cases φ with
  | refreshing p res =>
    dsimp only
    cases c.refreshes[p]? with
    | none => exact le_rfl
    | some ψ => exact Nat.add_le_add_left (remaining_pos ψ) 2
  | _ => exact le_rfl

theorem rank_of_isLate (hk : c.phaseOf k = some φ) (hlate : φ.isLate = true) : c.rank k = φ.remaining := by
  rw [rank,hk]
  cases φ with
  | refreshing p res => cases hlate
  | _ => rfl

/-- The rank of a call looks at its phase and at the refresh it waits for. -/
theorem rank_congr {c' : Client β δ} (hk : c'.phaseOf k = c.phaseOf k)
    (hrefreshes : ∀ p res, c.phaseOf k = some (.refreshing p res) → c'.refreshes[p]? = c.refreshes[p]?) :
    c'.rank k = c.rank k := by
  rw [rank,rank,hk]
  cases hphase : c.phaseOf k with
  | none => rfl
  | some φ =>
    cases φ with
    | refreshing p res =>
      dsimp only
      rw [hrefreshes p res hphase]
    | _ => rfl

theorem eq_of_awaits_call (h : c.awaits k = some (.call j)) : j = k := by
  unfold awaits at h
  split at h
  · split at h
    · cases h; rfl
    · cases h
  · cases h
  · cases h; rfl
  · cases h

theorem refreshing_of_awaits (h : c.awaits k = some (.refresh p)) : ∃ res, c.phaseOf k = some (.refreshing p res) := by
  unfold awaits at h
  split at h
  next q res hk =>
    split at h
    · cases h
    · cases h
      exact ⟨res,hk⟩
  · cases h
  · cases h
  · cases h

theorem remaining_of_outcome (h : ψ.outcome = none) : 2 < RefreshPhase.remaining ψ := by
  cases ψ with
  | fetching => exact Nat.lt_add_left 1 (Nat.lt_succ_self 2)
  | parsing => exact Nat.lt_succ_self 2
  | returned token => cases h
  | settled token => cases h

/-- An event for the target does not put the call back, and brings it closer if that is what it waits for. -/
def Nears (k : ℕ) (target : Option Target) (c c' : Client β δ) : Prop :=
  c'.rank k ≤ c.rank k ∧ (target.isSome = true → target = c.awaits k → c'.rank k < c.rank k)

theorem nears_of_none {c' : Client β δ} (h : c'.rank k = c.rank k) : Nears k none c c' :=
  ⟨h.le,fun hnone => by cases hnone⟩

/-- A step of one call leaves the others where they are. -/
theorem nears_of_call {c' : Client β δ} {target : Option Target} (htarget : target = some (.call j))
    (hself : c'.rank j < c.rank j) (hothers : j ≠ k → c'.rank k = c.rank k) : Nears k target c c' := by
  by_cases hjk : j = k
  · obtain rfl := hjk
    exact ⟨hself.le,fun _ _ => hself⟩
  · refine ⟨(hothers hjk).le,fun _ hawaits => ?_⟩
    rw [htarget] at hawaits
    exact absurd (eq_of_awaits_call hawaits.symm) hjk

/-- A phase of a refresh brings everyone closer who waits for it. -/
theorem nears_of_refresh {c' : Client β δ} (ψ' : RefreshPhase) {target : Option Target}
    (htarget : target = some (.refresh p)) (hp : c.refreshes[p]? = some ψ)
    (hless : RefreshPhase.remaining ψ' < RefreshPhase.remaining ψ) (hcalls : c'.calls = c.calls)
    (hrefreshes : c'.refreshes = c.refreshes.set p ψ') : Nears k target c c' := by
  have hphase : c'.phaseOf k = c.phaseOf k := by rw [phaseOf,phaseOf,hcalls]
  have hset : c'.refreshes = (c.setRefresh p ψ').refreshes := hrefreshes
  by_cases hwaits : ∃ res, c.phaseOf k = some (.refreshing p res)
  · obtain ⟨res,hk⟩ := hwaits
    have hlt : c'.rank k < c.rank k := by
      rw [rank_of_refreshing hk hp,rank_of_refreshing (hphase.trans hk) (by rw [hset,refreshes_setRefresh_self hp])]
      exact Nat.add_lt_add_left hless 2
    exact ⟨hlt.le,fun _ _ => hlt⟩
  · refine ⟨le_of_eq (rank_congr hphase fun q res hk => ?_),fun _ hawaits => ?_⟩
    · rw [hset]
      apply refreshes_setRefresh_ne
      rintro rfl
      exact hwaits ⟨res,hk⟩
    · rw [htarget] at hawaits
      exact absurd (refreshing_of_awaits hawaits.symm) hwaits

theorem Inv.nears {c' : Client β δ} {e : Event β δ} (h : Inv c) (hm : Moves c e c') (hk : k < c.calls.length) :
    Nears k e.target c c' := by
  have hrefreshes (c₁ : Client β δ) (hsame : c₁.refreshes = c.refreshes) (p : ℕ) (res : FetchResponse)
      (hp : c.phaseOf k = some (.refreshing p res)) : c₁.refreshAccessToken.2.refreshes[p]? = c.refreshes[p]? := by
    rw [refreshes_refreshAccessToken (by rw [hsame]; exact h.refresh_lt k p res hp),hsame]
  cases hm with
  | called a =>
    refine nears_of_none (rank_congr ?_ fun _ _ _ => rfl)
    rw [phaseOf_request,if_neg hk.ne]
  | asked => exact nears_of_none (rank_congr (phaseOf_refreshAccessToken c k) (hrefreshes c rfl))
  | @rejected j res hidle hj =>
    apply nears_of_call rfl
    · obtain ⟨ψ,hp,hψ⟩ := (h.note_unauthorized j).refreshAccessToken_outcome hidle
      have hphase : ((c.note (.unauthorized j)).refreshAccessToken.2.phaseOf j).isSome = true := by
        rw [phaseOf_refreshAccessToken,phaseOf_note,hj]
        rfl
      have hfetching : 7 ≤ c.rank j := remaining_le_rank hj
      have hle := remaining_le ψ
      rw [rank_of_refreshing (phaseOf_setPhase_self hphase) hp]
      omega
    · intro hjk
      apply rank_congr
      · rw [phaseOf_setPhase_ne hjk,phaseOf_refreshAccessToken,phaseOf_note]
      · exact hrefreshes _ rfl
  | @moved j φ φ' _ c₁ hj hlate hless he hnote =>
    have hphases : c₁.phaseOf = c.phaseOf := by rcases hnote with rfl | rfl <;> rfl
    have hsame : c₁.refreshes = c.refreshes := by rcases hnote with rfl | rfl <;> rfl
    apply nears_of_call he
    · rw [rank_of_isLate (phaseOf_setPhase_self (by rw [hphases,hj]; rfl)) hlate]
      exact hless.trans_le (remaining_le_rank hj)
    · intro hjk
      apply rank_congr
      · rw [phaseOf_setPhase_ne hjk,hphases]
      · intro p res _
        rw [refreshes_setPhase,hsame]
  | opened hp => exact nears_of_refresh .parsing rfl hp (Nat.lt_succ_self 3) rfl rfl
  | lapsed hp hψ he => exact nears_of_refresh (.returned none) he hp (remaining_of_outcome hψ) rfl rfl
  | renewed _ hp => exact nears_of_refresh (.returned _) rfl hp (Nat.lt_succ_self 2) rfl rfl
  | cleared hp => exact nears_of_refresh (.settled _) rfl hp (Nat.lt_succ_self 1) rfl rfl
  | @retried j p call res token t hj hphase hp ht =>
    have hjp : c.phaseOf j = some (.refreshing p res) := by rw [phaseOf_of_calls hj,hphase]
    apply nears_of_call rfl
    · have hrank : c.rank j = 3 := rank_of_refreshing hjp hp
      rw [hrank,rank,phaseOf_setPhase_self (by rw [phaseOf_note,hjp]; rfl)]
      exact Nat.lt_succ_self 2
    · intro hjk
      apply rank_congr
      · rw [phaseOf_setPhase_ne hjk,phaseOf_note]
      · intro q res' _
        rfl

/-! ## What is left to do -/

/-- A call that has not met its first response may yet start a refresh. -/
def spare : Option (Phase δ) → ℕ
  | some (.fetching false) => 4
  | _ => 0

/-- How many events the calls and the refreshes can still wait for. -/
def load (c : Client β δ) : ℕ :=
  ∑ k ∈ Finset.range c.calls.length, (c.rank k + spare (c.phaseOf k)) +
    ∑ p ∈ Finset.range c.refreshes.length, (c.refreshes[p]?).elim 0 RefreshPhase.remaining

theorem spare_of_ne (h : φ ≠ .fetching false) : spare (some φ) = 0 := by
  rcases φ with (_ | _) | _ | _ | _
  · exact absurd rfl h
  all_goals rfl

theorem sum_refreshAccessToken_le (c : Client β δ) :
    ∑ p ∈ Finset.range c.refreshAccessToken.2.refreshes.length,
        (c.refreshAccessToken.2.refreshes[p]?).elim 0 RefreshPhase.remaining ≤
      ∑ p ∈ Finset.range c.refreshes.length, (c.refreshes[p]?).elim 0 RefreshPhase.remaining + 4 := by
  cases h : c.refreshInFlight with
  | some p =>
    rw [refreshAccessToken_of_some h]
    exact Nat.le_add_right _ 4
  | none =>
    rw [refreshAccessToken_of_none h]
    dsimp only
    rw [List.length_append,List.length_singleton,Finset.sum_range_succ,List.getElem?_concat_length]
    refine Nat.add_le_add_right (Finset.sum_le_sum fun p hp => ?_) 4
    rw [List.getElem?_append_left (Finset.mem_range.mp hp)]

/-- The calls have less to do when one of them goes on. -/
theorem sum_calls_add_le {c' : Client β δ} {d : ℕ} (hlength : c'.calls.length = c.calls.length)
    (hj : c.phaseOf j = some φ) (hnear : ∀ k < c.calls.length, c'.rank k ≤ c.rank k)
    (hothers : ∀ k, j ≠ k → c'.phaseOf k = c.phaseOf k)
    (hself : c'.rank j + spare (c'.phaseOf j) + d ≤ c.rank j + spare (c.phaseOf j))
    (hspare : spare (c'.phaseOf j) ≤ spare (c.phaseOf j)) :
    ∑ k ∈ Finset.range c'.calls.length, (c'.rank k + spare (c'.phaseOf k)) + d ≤
      ∑ k ∈ Finset.range c.calls.length, (c.rank k + spare (c.phaseOf k)) := by
  rw [hlength]
  apply sum_range_add_le (phaseOf_lt (by rw [hj]; rfl)) _ hself
  intro k hk
  have hphase : spare (c'.phaseOf k) ≤ spare (c.phaseOf k) := by
    by_cases hjk : j = k
    · exact hjk ▸ hspare
    · rw [hothers k hjk]
  exact Nat.add_le_add (hnear k hk) hphase

/-- Everything has less to do when a refresh goes on. -/
theorem load_lt_of_refresh {c' : Client β δ} (ψ' : RefreshPhase) (hp : c.refreshes[p]? = some ψ)
    (hless : RefreshPhase.remaining ψ' < RefreshPhase.remaining ψ) (hcalls : c'.calls = c.calls)
    (hrefreshes : c'.refreshes = c.refreshes.set p ψ') : c'.load < c.load := by
  have hphase (k : ℕ) : c'.phaseOf k = c.phaseOf k := by rw [phaseOf,phaseOf,hcalls]
  have hset : c'.refreshes = (c.setRefresh p ψ').refreshes := hrefreshes
  have hsum : ∑ q ∈ Finset.range c.refreshes.length, (c'.refreshes[q]?).elim 0 RefreshPhase.remaining + 1 ≤
      ∑ q ∈ Finset.range c.refreshes.length, (c.refreshes[q]?).elim 0 RefreshPhase.remaining := by
    apply sum_range_add_le (List.getElem?_eq_some_iff.mp hp).1
    · intro q _
      rw [hset]
      by_cases hpq : p = q
      · obtain rfl := hpq
        rw [refreshes_setRefresh_self hp,hp]
        exact hless.le
      · rw [refreshes_setRefresh_ne hpq]
    · rw [hset,refreshes_setRefresh_self hp,hp]
      exact hless
  have hranks : ∑ k ∈ Finset.range c'.calls.length, (c'.rank k + spare (c'.phaseOf k)) ≤
      ∑ k ∈ Finset.range c.calls.length, (c.rank k + spare (c.phaseOf k)) := by
    rw [hcalls]
    refine Finset.sum_le_sum fun k _ => Nat.add_le_add ?_ (by rw [hphase])
    exact (nears_of_refresh ψ' (Eq.refl (some (Target.refresh p))) hp hless hcalls hrefreshes).1
  rw [load,load]
  have hlength : c'.refreshes.length = c.refreshes.length := by rw [hrefreshes,List.length_set]
  rw [hlength]
  omega

/-- Everything has less to do when a call goes on, whatever new refresh it starts. -/
theorem load_lt_of_call {c' : Client β δ} {d r : ℕ} (hlength : c'.calls.length = c.calls.length)
    (hj : c.phaseOf j = some φ) (hnear : ∀ k < c.calls.length, c'.rank k ≤ c.rank k)
    (hothers : ∀ k, j ≠ k → c'.phaseOf k = c.phaseOf k)
    (hself : c'.rank j + spare (c'.phaseOf j) + d ≤ c.rank j + spare (c.phaseOf j))
    (hspare : spare (c'.phaseOf j) = 0) (hrefreshes :
      ∑ p ∈ Finset.range c'.refreshes.length, (c'.refreshes[p]?).elim 0 RefreshPhase.remaining ≤
        ∑ p ∈ Finset.range c.refreshes.length, (c.refreshes[p]?).elim 0 RefreshPhase.remaining + r)
    (hd : r < d) : c'.load < c.load := by
  have hcalls := sum_calls_add_le hlength hj hnear hothers hself (hspare.le.trans (Nat.zero_le _))
  rw [load,load]
  omega

/-- An event for a call or a refresh leaves less to do. -/
theorem Inv.load_lt {c' : Client β δ} {e : Event β δ} (h : Inv c) (hm : Moves c e c') (he : e.target.isSome = true) :
    c'.load < c.load := by
  have hnear (k : ℕ) (hk : k < c.calls.length) : c'.rank k ≤ c.rank k := (h.nears hm hk).1
  cases hm with
  | called a => cases he
  | asked => cases he
  | @rejected j res hidle hj =>
    obtain ⟨ψ,hp,hψ⟩ := (h.note_unauthorized j).refreshAccessToken_outcome hidle
    have hphase : (c.note (.unauthorized j)).refreshAccessToken.2.phaseOf j = some (.fetching false) := by
      rw [phaseOf_refreshAccessToken,phaseOf_note,hj]
    have hwaits := phaseOf_setPhase_self (φ := .refreshing (c.note (.unauthorized j)).refreshAccessToken.1 res)
      (by rw [hphase]; rfl)
    refine load_lt_of_call ?_ hj hnear (fun k hjk => ?_) (d := 5) ?_ ?_
      (sum_refreshAccessToken_le (c.note (.unauthorized j))) (Nat.lt_succ_self 4)
    · rw [length_calls_setPhase,calls_refreshAccessToken,calls_note]
    · rw [phaseOf_setPhase_ne hjk,phaseOf_refreshAccessToken,phaseOf_note]
    · have hle := remaining_le ψ
      have hfetching : 7 ≤ c.rank j := remaining_le_rank hj
      rw [rank_of_refreshing hwaits hp,hwaits,hj]
      dsimp only [spare]
      omega
    · rw [hwaits]
      rfl
  | @moved j φ φ' _ c₁ hj hlate hless _ hnote =>
    have hphases : c₁.phaseOf = c.phaseOf := by rcases hnote with rfl | rfl <;> rfl
    have hlength : c₁.calls.length = c.calls.length := by rcases hnote with rfl | rfl <;> rfl
    have hsame : c₁.refreshes = c.refreshes := by rcases hnote with rfl | rfl <;> rfl
    have hmoved : (c₁.setPhase j φ').phaseOf j = some φ' := phaseOf_setPhase_self (by rw [hphases,hj]; rfl)
    have hspare : spare (some φ') = 0 := spare_of_ne (by rintro rfl; cases hlate)
    refine load_lt_of_call ?_ hj hnear (fun k hjk => ?_) (d := 1) ?_ ?_ ?_ Nat.one_pos
    · rw [length_calls_setPhase,hlength]
    · rw [phaseOf_setPhase_ne hjk,hphases]
    · have hrank := remaining_le_rank hj
      rw [rank_of_isLate hmoved hlate,hmoved,hspare]
      omega
    · rw [hmoved,hspare]
    · rw [refreshes_setPhase,hsame]
      exact le_rfl
  | opened hp => exact load_lt_of_refresh .parsing hp (Nat.lt_succ_self 3) rfl rfl
  | lapsed hp hψ _ => exact load_lt_of_refresh (.returned none) hp (remaining_of_outcome hψ) rfl rfl
  | renewed _ hp => exact load_lt_of_refresh (.returned _) hp (Nat.lt_succ_self 2) rfl rfl
  | cleared hp => exact load_lt_of_refresh (.settled _) hp (Nat.lt_succ_self 1) rfl rfl
  | @retried j p call res token t hj hphase hp ht =>
    have hjp : c.phaseOf j = some (.refreshing p res) := by rw [phaseOf_of_calls hj,hphase]
    have hagain : ((c.note (.fetched j (fetchRequest c.accessToken call.path call.options))).setPhase j
        (.fetching true)).phaseOf j = some (.fetching true) := phaseOf_setPhase_self (by rw [phaseOf_note,hjp]; rfl)
    refine load_lt_of_call ?_ hjp hnear (fun k hjk => ?_) (d := 1) ?_ ?_ le_rfl Nat.one_pos
    · rw [length_calls_setPhase,calls_note]
    · rw [phaseOf_setPhase_ne hjk,phaseOf_note]
    · have hrank : c.rank j = 3 := rank_of_refreshing hjp hp
      rw [hrank,hagain,rank,hagain]
      exact Nat.le_add_right 3 _
    · rw [hagain]
      rfl

theorem remaining_phase_le (φ : Phase δ) : φ.remaining ≤ 7 := by
  rcases φ with (_ | _) | _ | _ | _
  · exact le_rfl
  all_goals simp [Phase.remaining]

theorem rank_le (c : Client β δ) (k : ℕ) : c.rank k ≤ 7 := by
  unfold rank
  split
  next p res hk =>
    cases c.refreshes[p]? with
    | none => exact Nat.le_add_left 3 4
    | some ψ => exact (Nat.add_le_add_left (remaining_le ψ) 2).trans (Nat.le_succ 6)
  next φ _ _ => exact remaining_phase_le φ
  next => exact Nat.zero_le 7

theorem spare_le (φ : Option (Phase δ)) : spare φ ≤ 4 := by
  unfold spare
  split
  · exact le_rfl
  · exact Nat.zero_le 4

theorem load_le (c : Client β δ) : c.load ≤ 11 * c.calls.length + 4 * c.refreshes.length := by
  have hcalls : ∑ k ∈ Finset.range c.calls.length, (c.rank k + spare (c.phaseOf k)) ≤ c.calls.length * 11 := by
    have hsum := Finset.sum_le_card_nsmul (Finset.range c.calls.length) (fun k => c.rank k + spare (c.phaseOf k)) 11
      fun k _ => Nat.add_le_add (rank_le c k) (spare_le (c.phaseOf k))
    rwa [Finset.card_range,Nat.nsmul_eq_mul] at hsum
  have hrefreshes : ∑ p ∈ Finset.range c.refreshes.length, (c.refreshes[p]?).elim 0 RefreshPhase.remaining ≤
      c.refreshes.length * 4 := by
    have hsum := Finset.sum_le_card_nsmul (Finset.range c.refreshes.length)
      (fun p => (c.refreshes[p]?).elim 0 RefreshPhase.remaining) 4 fun p hp => by
        rw [List.getElem?_eq_getElem (Finset.mem_range.mp hp)]
        exact remaining_le _
    rwa [Finset.card_range,Nat.nsmul_eq_mul] at hsum
  rw [load]
  omega

/-! ## Progress -/

/-- The event can happen now. -/
def Accepts (c : Client β δ) (e : Event β δ) : Prop := (c.step e).isSome = true
instance (c : Client β δ) (e : Event β δ) : Decidable (c.Accepts e) := inferInstanceAs (Decidable (_ = _))

/-- It is what the call waits for. -/
def Serves (k : ℕ) (c : Client β δ) (e : Event β δ) : Prop :=
  c.Accepts e ∧ e.target.isSome = true ∧ e.target = c.awaits k
instance (k : ℕ) (c : Client β δ) (e : Event β δ) : Decidable (c.Serves k e) :=
  inferInstanceAs (Decidable (_ ∧ _ ∧ _))

def IsSettled (c : Client β δ) (k : ℕ) : Prop := ∃ result, c.phaseOf k = some (.settled result)

/-- The call settles: it waits for seven events at most, all there are without a new call are finitely many, and until
it has settled there is one that can happen. -/
structure Settles (c : Client β δ) (k : ℕ) : Prop where
  served : ∀ later, countAlong next (Serves k) c later ≤ 7
  exhausted : ∀ later, (∀ e ∈ later, e.target.isSome = true) →
    countAlong next Accepts c later ≤ 11 * c.calls.length + 4 * c.refreshes.length
  pending : ¬ c.IsSettled k → ∃ e, e.target.isSome = true ∧ c.Accepts e ∧ (c.idle = true → c.Serves k e)

theorem accepts_of_not_idle (h : c.idle = false) : ∃ e : Event β δ, e.target.isSome = true ∧ c.Accepts e := by
  rw [idle,Bool.and_eq_false_iff,Bool.not_eq_false',Bool.not_eq_false',List.any_eq_true,List.any_eq_true] at h
  rcases h with ⟨ψ,hmem,hψ⟩ | ⟨call,hmem,hwoken⟩
  · obtain ⟨p,hp⟩ := List.mem_iff_getElem?.mp hmem
    refine ⟨.runFinally p,rfl,?_⟩
    cases ψ with
    | returned token =>
      rw [Accepts,step,hp]
      rfl
    | _ => cases hψ
  · obtain ⟨k,hk⟩ := List.mem_iff_getElem?.mp hmem
    refine ⟨.resume k,rfl,?_⟩
    unfold isWoken at hwoken
    split at hwoken
    next p res hphase =>
      obtain ⟨ψ,hp,hψ⟩ := (Option.any_eq_true _ _).mp hwoken
      cases ψ with
      | settled token =>
        rw [Accepts,step_resume hk hphase hp]
        rfl
      | _ => cases hψ
    · cases hwoken

/-- While no continuation is due, what the call waits for is up to the network. -/
theorem Inv.serves_of_idle (h : Inv c) (hidle : c.idle = true) (hk : c.phaseOf k = some φ) (hφ : ¬ c.IsSettled k) :
    ∃ e, c.Serves k e := by
  cases φ with
  | fetching skipAuthRetry =>
    refine ⟨.respond k none,?_,rfl,?_⟩
    · unfold Accepts step
      dsimp only
      rw [hidle,hk]
      rfl
    · rw [awaits,hk]
      rfl
  | parsing res =>
    refine ⟨.parse k none,?_,rfl,?_⟩
    · unfold Accepts step
      dsimp only
      rw [hidle,hk]
      rfl
    · rw [awaits,hk]
      rfl
  | settled result => exact absurd ⟨result,hk⟩ hφ
  | refreshing p res =>
    have hlt := h.refresh_lt k p res hk
    have hp : c.refreshes[p]? = some c.refreshes[p] := List.getElem?_eq_getElem hlt
    have hnone := outcome_of_idle hidle hk hp
    have hawaits : c.awaits k = some (.refresh p) := by
      rw [awaits,hk]
      dsimp only
      rw [hp,Option.any_some,isSettled_of_outcome hnone]
      rfl
    cases hψ : c.refreshes[p] with
    | fetching =>
      refine ⟨.respondRefresh p none,?_,rfl,hawaits.symm⟩
      unfold Accepts step
      dsimp only
      rw [hidle,hp,hψ]
      rfl
    | parsing =>
      refine ⟨.parseRefresh p none,?_,rfl,hawaits.symm⟩
      unfold Accepts step
      dsimp only
      rw [hidle,hp,hψ]
      rfl
    | returned token =>
      rw [hψ] at hnone
      cases hnone
    | settled token =>
      rw [hψ] at hnone
      cases hnone

theorem length_calls_le_next (c : Client β δ) (e : Event β δ) : c.calls.length ≤ (c.next e).calls.length := by
  unfold Client.next
  cases hstep : c.step e with
  | none => exact le_rfl
  | some c' =>
    rw [Option.getD_some,(moves_of_step hstep).length_calls]
    exact Nat.le_add_right _ _

theorem Inv.served_le (h : Inv c) (hk : k < c.calls.length) (later : List (Event β δ)) :
    countAlong Client.next (Serves k) c later ≤ 7 := by
  have hstep (d : Client β δ) (e : Event β δ) (hd : Inv d ∧ k < d.calls.length) :
      (d.next e).rank k ≤ d.rank k ∧ (d.Serves k e → (d.next e).rank k < d.rank k) := by
    unfold Client.next Serves Accepts
    cases hstep : d.step e with
    | none => exact ⟨le_rfl,fun hserves => absurd hserves.1 (by simp)⟩
    | some d' =>
      have hnears := hd.1.nears (moves_of_step hstep) hd.2
      exact ⟨hnears.1,fun hserves => hnears.2 hserves.2.1 hserves.2.2⟩
  have hcount := @countAlong_add_rank_le _ _ Client.next (Serves k) (fun _ _ => True) _
    (fun d => Inv d ∧ k < d.calls.length) (fun d => d.rank k)
    (fun d e hd _ => ⟨hd.1.next e,hd.2.trans_le (length_calls_le_next d e)⟩)
    (fun d e hd _ => (hstep d e hd).1) (fun d e hd _ hserves => (hstep d e hd).2 hserves) c later ⟨h,hk⟩
    (along_true c later)
  exact (Nat.le_of_add_right_le hcount).trans (rank_le c k)

theorem Inv.accepted_le (h : Inv c) {later : List (Event β δ)} (hlater : ∀ e ∈ later, e.target.isSome = true) :
    countAlong Client.next Accepts c later ≤ 11 * c.calls.length + 4 * c.refreshes.length := by
  have hstep (d : Client β δ) (e : Event β δ) (hd : Inv d) (he : e.target.isSome = true) :
      (d.next e).load ≤ d.load ∧ (d.Accepts e → (d.next e).load < d.load) := by
    unfold Client.next Accepts
    cases hstep : d.step e with
    | none => exact ⟨le_rfl,fun haccepts => absurd haccepts (by simp)⟩
    | some d' =>
      have hless := hd.load_lt (moves_of_step hstep) he
      exact ⟨hless.le,fun _ => hless⟩
  have hcount := @countAlong_add_rank_le _ _ Client.next Accepts (fun _ e => e.target.isSome = true) _ Inv load
    (fun d e hd _ => hd.next e) (fun d e hd he => (hstep d e hd he).1)
    (fun d e hd he haccepts => (hstep d e hd he).2 haccepts) c later h (along_const_iff.mpr hlater)
  exact (Nat.le_of_add_right_le hcount).trans (load_le c)

theorem Inv.settles (h : Inv c) (hk : k < c.calls.length) : c.Settles k where
  served := h.served_le hk
  exhausted _ := h.accepted_le
  pending hφ := by
    cases hidle : c.idle with
    | false =>
      obtain ⟨e,he,haccepts⟩ := accepts_of_not_idle hidle
      exact ⟨e,he,haccepts,fun htrue => by cases htrue⟩
    | true =>
      obtain ⟨φ,hphase⟩ := Option.isSome_iff_exists.mp (phaseOf_isSome hk)
      obtain ⟨e,hserves⟩ := h.serves_of_idle hidle hphase hφ
      exact ⟨e,hserves.2.1,hserves.1,fun _ => hserves⟩

/-! ## Any order of responses -/

theorem inv_foldl (events : List (Event β δ)) (h : Inv c) : Inv (events.foldl next c) := by
  induction events generalizing c with
  | nil => exact h
  | cons e rest ih => exact ih (h.next e)

/-- The `/auth/refresh` call has not been answered in full. -/
def IsInFlight (c : Client β δ) (p : ℕ) : Prop := ∃ ψ, c.refreshes[p]? = some ψ ∧ ψ.outcome = none

/-- Whatever the order of the responses, there is one refresh at a time, no request is sent a third time, a retry
carries the token of a refresh that has returned after its 401, and every call settles. -/
theorem requests_share_refresh (accessToken : Option String) (events : List (Event β δ)) :
    let c := events.foldl next { accessToken := accessToken }
    (∀ p q, c.IsInFlight p → c.IsInFlight q → p = q) ∧ (∀ k, sends k c.trace ≤ 2) ∧ RetriesRefreshed c.trace ∧
      ∀ k < c.calls.length, c.Settles k := by
  intro c
  have h : Inv c := inv_foldl events (inv_start accessToken)
  refine ⟨?_,fun k => (h.fetched k).le_two,h.retries,fun k hk => h.settles hk⟩
  rintro p q ⟨ψ,hp,hψ⟩ ⟨ψ',hq,hψ'⟩
  have hflight : c.refreshInFlight = some p := (h.inFlight p).mpr ⟨ψ,hp,isSettled_of_outcome hψ⟩
  rw [(h.inFlight q).mpr ⟨ψ',hq,isSettled_of_outcome hψ'⟩] at hflight
  exact (Option.some.inj hflight).symm

end Client
end PinoyTax.Web
