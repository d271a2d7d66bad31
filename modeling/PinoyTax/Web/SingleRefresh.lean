import Mathlib.Algebra.Order.Group.Nat
import PinoyTax.Foundation.Runs
import PinoyTax.Web.ApiClient

/-! # Concurrent requests share one refresh

What an event can do is said once, and every invariant is a case analysis over it. A
refresh that has not settled is the one in flight; a call that waits has met a 401, and
when its refresh returns a token, that token is the client's until the call goes on.
-/
namespace PinoyTax.Web
open PinoyTax Foundation Runs
variable {β δ : Type}

/-- What an event is for: a call of `request`, or one of `rawRefresh`. -/
inductive Target
  | call (k : ℕ)
  | refresh (p : ℕ)
deriving DecidableEq, Repr

def Event.target : Event β δ → Option Target
  | .call _ => none
  | .refreshAccessToken => none
  | .respond k _ => some (.call k)
  | .parse k _ => some (.call k)
  | .respondRefresh p _ => some (.refresh p)
  | .parseRefresh p _ => some (.refresh p)
  | .runFinally p => some (.refresh p)
  | .resume k => some (.call k)

def Event.isCall : Event β δ → Bool
  | .call _ => true
  | _ => false

theorem not_isCall_of_target {e : Event β δ} {t : Target} (h : e.target = some t) : e.isCall = false := by
  cases e with
  | call a => cases h
  | _ => rfl

/-- The call is through with fetching: it parses the body or has settled. -/
def Phase.isLate : Phase δ → Bool
  | .parsing _ => true
  | .settled _ => true
  | _ => false

/-- The steps that a call has before it without the refresh. -/
def Phase.remaining : Phase δ → ℕ
  | .fetching false => 7
  | .refreshing _ _ => 3
  | .fetching true => 2
  | .parsing _ => 1
  | .settled _ => 0

@[simp] theorem Phase.remaining_refreshing (p : ℕ) (res : FetchResponse) : (refreshing p res : Phase δ).remaining = 3 := rfl
@[simp] theorem Phase.remaining_parsing (res : FetchResponse) : (parsing res : Phase δ).remaining = 1 := rfl
@[simp] theorem Phase.remaining_settled (result : Except ClientError (Option δ)) : (settled result).remaining = 0 := rfl

theorem Phase.remaining_fetching (skipAuthRetry : Bool) : 1 < (fetching skipAuthRetry : Phase δ).remaining := by
  cases skipAuthRetry with
  | false => exact Nat.le_add_left 2 5
  | true => exact Nat.one_lt_two

theorem isLate_received (res : FetchResponse) : (received res : Phase δ).isLate = true := by
  unfold received
  split <;> rfl

theorem remaining_received (res : FetchResponse) : (received res : Phase δ).remaining ≤ 1 := by
  unfold received
  split <;> simp

namespace Client

/-- What an event does to a client. -/
inductive Moves (c : Client β δ) : Event β δ → Client β δ → Prop
  | called (a : ApiCall β) : Moves c (.call a) (c.request a)
  | asked : Moves c .refreshAccessToken c.refreshAccessToken.2
  | rejected {k : ℕ} {res : FetchResponse} (hidle : c.idle = true) (hk : c.phaseOf k = some (.fetching false)) :
      Moves c (.respond k (some res)) ((c.note (.unauthorized k)).refreshAccessToken.2.setPhase k
        (.refreshing (c.note (.unauthorized k)).refreshAccessToken.1 res))
  | moved {k : ℕ} {φ φ' : Phase δ} {e : Event β δ} {c' : Client β δ} (hk : c.phaseOf k = some φ) (hlate : φ'.isLate = true)
      (hless : φ'.remaining < φ.remaining) (he : e.target = some (.call k))
      (hnote : c' = c ∨ c' = c.note (.unauthorized k)) : Moves c e (c'.setPhase k φ')
  | opened {p : ℕ} (hp : c.refreshes[p]? = some .fetching) : Moves c (.respondRefresh p (some true)) (c.setRefresh p .parsing)
  | lapsed {p : ℕ} {ψ : RefreshPhase} {e : Event β δ} (hp : c.refreshes[p]? = some ψ) (hψ : ψ.outcome = none)
      (he : e.target = some (.refresh p)) : Moves c e (c.returnRefresh p none)
  | renewed {p : ℕ} {token : Option String} (hidle : c.idle = true) (hp : c.refreshes[p]? = some .parsing) :
      Moves c (.parseRefresh p (some token)) ({ c with accessToken := token }.returnRefresh p token)
  | cleared {p : ℕ} {token : Option String} (hp : c.refreshes[p]? = some (.returned token)) :
      Moves c (.runFinally p) ({ c with refreshInFlight := none }.setRefresh p (.settled token))
  | retried {k p : ℕ} {call : Call β δ} {res : FetchResponse} {token : Option String} {t : String}
      (hk : c.calls[k]? = some call) (hphase : call.phase = .refreshing p res)
      (hp : c.refreshes[p]? = some (.settled token)) (ht : truthy token = some t) : Moves c (.resume k)
        ((c.note (.fetched k (fetchRequest c.accessToken call.path call.options))).setPhase k (.fetching true))

theorem phaseOf_of_calls {c : Client β δ} {k : ℕ} {call : Call β δ} (h : c.calls[k]? = some call) :
    c.phaseOf k = some call.phase := by rw [phaseOf,h,Option.map_some]

theorem moves_respond {c : Client β δ} {k : ℕ} {skipAuthRetry : Bool} (hidle : c.idle = true)
    (hk : c.phaseOf k = some (.fetching skipAuthRetry)) (res : FetchResponse) :
    Moves c (.respond k (some res)) (c.respond k skipAuthRetry res) := by
  have hless : (received res : Phase δ).remaining < (Phase.fetching skipAuthRetry : Phase δ).remaining :=
    (remaining_received res).trans_lt (Phase.remaining_fetching skipAuthRetry)
  unfold respond
  by_cases h401 : res.status = 401
  · rw [if_pos h401]
    cases skipAuthRetry with
    | false => exact .rejected hidle hk
    | true => exact .moved hk (isLate_received res) hless rfl (.inr rfl)
  · rw [if_neg h401]
    exact .moved hk (isLate_received res) hless rfl (.inl rfl)

theorem moves_resume {c : Client β δ} {k p : ℕ} {call : Call β δ} {res : FetchResponse} {newToken : Option String}
    (hk : c.calls[k]? = some call) (hphase : call.phase = .refreshing p res)
    (hp : c.refreshes[p]? = some (.settled newToken)) : Moves c (.resume k) (c.resume k call res newToken) := by
  have hkp := phaseOf_of_calls hk
  rw [hphase] at hkp
  unfold resume
  cases ht : truthy newToken with
  | some t => exact .retried hk hphase hp ht
  | none => exact .moved hkp (isLate_received res) ((remaining_received res).trans_lt (by simp)) rfl (.inl rfl)

/-- A continuation runs when it is due. -/
theorem step_resume {c : Client β δ} {k p : ℕ} {call : Call β δ} {res : FetchResponse} {newToken : Option String}
    (hk : c.calls[k]? = some call) (hphase : call.phase = .refreshing p res)
    (hp : c.refreshes[p]? = some (.settled newToken)) : c.step (.resume k) = some (c.resume k call res newToken) := by
  unfold step
  dsimp only
  rw [hk]
  dsimp only
  rw [hphase]
  dsimp only
  rw [hp]

theorem resume_of_step {c c' : Client β δ} {k : ℕ} (h : c.step (.resume k) = some c') : ∃ call p res newToken,
    c.calls[k]? = some call ∧ call.phase = .refreshing p res ∧ c.refreshes[p]? = some (.settled newToken) ∧
      c' = c.resume k call res newToken := by
  unfold step at h
  dsimp only at h
  split at h
  next call hk =>
    split at h
    next p res hphase =>
      split at h
      next newToken hp => exact ⟨call,p,res,newToken,hk,hphase,hp,(Option.some.inj h).symm⟩
      · cases h
    · cases h
  · cases h

theorem moves_of_step {c c' : Client β δ} {e : Event β δ} (h : c.step e = some c') : Moves c e c' := by
  cases e with
  | call a =>
    obtain rfl := Option.some.inj h
    exact .called a
  | refreshAccessToken =>
    obtain rfl := Option.some.inj h
    exact .asked
  | respond k res =>
    unfold step at h
    dsimp only at h
    split at h
    next hidle hk =>
      obtain rfl := Option.some.inj h
      exact .moved hk rfl (Nat.zero_lt_of_lt (Phase.remaining_fetching _)) rfl (.inl rfl)
    next skipAuthRetry res hidle hk =>
      obtain rfl := Option.some.inj h
      exact moves_respond hidle hk res
    · cases h
  | parse k body =>
    unfold step at h
    dsimp only at h
    split at h
    next hidle hk =>
      obtain rfl := Option.some.inj h
      exact .moved hk rfl (by simp) rfl (.inl rfl)
    next hidle hk =>
      obtain rfl := Option.some.inj h
      exact .moved hk rfl (by simp) rfl (.inl rfl)
    · cases h
  | respondRefresh p ok =>
    unfold step at h
    dsimp only at h
    split at h
    next hidle hp =>
      obtain rfl := Option.some.inj h
      exact .opened hp
    next hidle hp _ =>
      obtain rfl := Option.some.inj h
      exact .lapsed hp rfl rfl
    · cases h
  | parseRefresh p body =>
    unfold step at h
    dsimp only at h
    split at h
    next hidle hp =>
      obtain rfl := Option.some.inj h
      exact .renewed hidle hp
    next hidle hp =>
      obtain rfl := Option.some.inj h
      exact .lapsed hp rfl rfl
    · cases h
  | runFinally p =>
    unfold step at h
    dsimp only at h
    split at h
    next hp =>
      obtain rfl := Option.some.inj h
      exact .cleared hp
    · cases h
  | resume k =>
    obtain ⟨call,p,res,newToken,hk,hphase,hp,rfl⟩ := resume_of_step h
    exact moves_resume hk hphase hp

/-! ## The invariant -/

/-- How often a call in a phase has fetched. -/
def Fetched : Option (Phase δ) → ℕ → Prop
  | none, n => n = 0
  | some (.fetching false), n => n = 1
  | some (.refreshing _ _), n => n = 1
  | some (.fetching true), n => n = 2
  | some (.parsing _), n => n ≤ 2
  | some (.settled _), n => n ≤ 2

/-- What makes the entry a rightful retry, if it is one: it carries a token that a refresh has returned after a 401 of
the call. -/
def RetriesRefreshed : List (Entry β) → Prop
  | [] => True
  | .fetched k request :: older =>
    (0 < sends k older → ∃ p t, t ≠ "" ∧ request.authorization = some ("Bearer " ++ t) ∧
      List.Sublist [.refreshed p (some t),.unauthorized k] older) ∧ RetriesRefreshed older
  | _ :: older => RetriesRefreshed older

/-- What holds of a client in every state. -/
structure Inv (c : Client β δ) : Prop where
  inFlight : ∀ p, c.refreshInFlight = some p ↔ ∃ ψ, c.refreshes[p]? = some ψ ∧ ψ.isSettled = false
  refresh_lt : ∀ k p res, c.phaseOf k = some (.refreshing p res) → p < c.refreshes.length
  fetched : ∀ k, Fetched (c.phaseOf k) (sends k c.trace)
  rejected : ∀ k p res, c.phaseOf k = some (.refreshing p res) → .unauthorized k ∈ c.trace
  renewed : ∀ k p res ψ token, c.phaseOf k = some (.refreshing p res) → c.refreshes[p]? = some ψ → ψ.outcome = some token →
    List.Sublist [.refreshed p token,.unauthorized k] c.trace ∧ (token.isSome = true → c.accessToken = token)
  retries : RetriesRefreshed c.trace

variable {c : Client β δ} {j k p q : ℕ} {φ φ' : Phase δ} {ψ : RefreshPhase} {res : FetchResponse} {token : Option String}

@[simp] theorem sends_unauthorized (trace : List (Entry β)) : sends j (.unauthorized k :: trace) = sends j trace := by
  simp [sends,isFetchOf]
@[simp] theorem sends_refreshFetched (trace : List (Entry β)) : sends j (.refreshFetched p :: trace) = sends j trace := by
  simp [sends,isFetchOf]
@[simp] theorem sends_refreshed (trace : List (Entry β)) : sends j (.refreshed p token :: trace) = sends j trace := by
  simp [sends,isFetchOf]
theorem sends_fetched (k : ℕ) (request : FetchRequest β) (trace : List (Entry β)) :
    sends j (.fetched k request :: trace) = if k = j then sends j trace + 1 else sends j trace := by
  simp only [sends,isFetchOf,List.countP_cons,decide_eq_true_eq]
  split <;> rfl

theorem Fetched.le_two {φ : Option (Phase δ)} {n : ℕ} (h : Fetched φ n) : n ≤ 2 := by
  rcases φ with _ | ((_ | _) | _ | _ | _)
  · exact le_of_eq_of_le h (Nat.zero_le 2)
  · exact le_of_eq_of_le h (Nat.le_succ 1)
  · exact le_of_eq h
  · exact le_of_eq_of_le h (Nat.le_succ 1)
  · exact h
  · exact h

theorem Fetched.late {φ : Option (Phase δ)} {n : ℕ} (h : Fetched φ n) (hlate : φ'.isLate = true) : Fetched (some φ') n := by
  rcases φ' with (_ | _) | _ | _ | _
  · cases hlate
  · cases hlate
  · cases hlate
  · exact h.le_two
  · exact h.le_two

theorem ne_refreshing_of_isLate (hlate : φ'.isLate = true) : φ' ≠ .refreshing p res := by
  rintro rfl
  cases hlate

theorem inv_start (token : Option String) : Inv ({ accessToken := token } : Client β δ) where
  inFlight := by simp
  refresh_lt := by simp [phaseOf]
  fetched := by simp [phaseOf,Fetched,sends]
  rejected := by simp [phaseOf]
  renewed := by simp [phaseOf]
  retries := trivial

/-- A 401 more in the trace. -/
theorem Inv.note_unauthorized (h : Inv c) (k : ℕ) : Inv (c.note (.unauthorized k)) where
  inFlight := h.inFlight
  refresh_lt := h.refresh_lt
  fetched j := by
    rw [trace_note,sends_unauthorized]
    exact h.fetched j
  rejected j p res hj := List.mem_cons_of_mem _ (h.rejected j p res hj)
  renewed j p res ψ token hj hp hψ := by
    obtain ⟨hsub,htoken⟩ := h.renewed j p res ψ token hj hp hψ
    exact ⟨hsub.cons _,htoken⟩
  retries := h.retries

/-- The phase of a call that goes on. -/
theorem phaseOf_setPhase_cases (hk : c.phaseOf k = some φ) (hj : (c.setPhase k φ').phaseOf j = some (.refreshing p res)) :
    k = j ∧ φ' = .refreshing p res ∨ c.phaseOf j = some (.refreshing p res) := by
  by_cases hkj : k = j
  · obtain rfl := hkj
    rw [phaseOf_setPhase_self (by rw [hk]; rfl)] at hj
    exact .inl ⟨rfl,Option.some.inj hj⟩
  · rw [phaseOf_setPhase_ne hkj] at hj
    exact .inr hj

theorem Inv.late (h : Inv c) (hk : c.phaseOf k = some φ) (hlate : φ'.isLate = true) : Inv (c.setPhase k φ') where
  inFlight := h.inFlight
  refresh_lt j p res hj := by
    rcases phaseOf_setPhase_cases hk hj with ⟨-,hφ'⟩ | hj
    · exact absurd hφ' (ne_refreshing_of_isLate hlate)
    · exact h.refresh_lt j p res hj
  fetched j := by
    rw [phaseOf_setPhase,trace_setPhase]
    split
    next hkj =>
      obtain rfl := hkj
      rw [hk,Option.map_some]
      exact (h.fetched k).late hlate
    next => exact h.fetched j
  rejected j p res hj := by
    rcases phaseOf_setPhase_cases hk hj with ⟨-,hφ'⟩ | hj
    · exact absurd hφ' (ne_refreshing_of_isLate hlate)
    · exact h.rejected j p res hj
  renewed j p res ψ token hj hp hψ := by
    rcases phaseOf_setPhase_cases hk hj with ⟨-,hφ'⟩ | hj
    · exact absurd hφ' (ne_refreshing_of_isLate hlate)
    · exact h.renewed j p res ψ token hj hp hψ
  retries := h.retries

/-! ## Continuations that are due -/

theorem not_returned_of_idle (hidle : c.idle = true) (hp : c.refreshes[p]? = some ψ) : ψ.isReturned = false := by
  rw [idle,Bool.and_eq_true,Bool.not_eq_true',List.any_eq_false] at hidle
  exact Bool.eq_false_iff.mpr (hidle.1 ψ (List.mem_of_getElem? hp))

theorem not_settled_of_idle (hidle : c.idle = true) (hk : c.phaseOf k = some (.refreshing p res))
    (hp : c.refreshes[p]? = some ψ) : ψ.isSettled = false := by
  rw [idle,Bool.and_eq_true,Bool.not_eq_true',Bool.not_eq_true',List.any_eq_false,List.any_eq_false] at hidle
  obtain ⟨call,hcall,hphase⟩ := Option.map_eq_some_iff.mp hk
  have hwoken := hidle.2 call (List.mem_of_getElem? hcall)
  rw [isWoken,hphase] at hwoken
  dsimp only at hwoken
  rw [hp] at hwoken
  exact Bool.eq_false_iff.mpr hwoken

theorem outcome_eq_none (hreturned : ψ.isReturned = false) (hsettled : ψ.isSettled = false) : ψ.outcome = none := by
  cases ψ with
  | fetching => rfl
  | parsing => rfl
  | returned token => cases hreturned
  | settled token => cases hsettled

/-- While no continuation is due, nobody waits for a refresh that has returned. -/
theorem outcome_of_idle (hidle : c.idle = true) (hk : c.phaseOf k = some (.refreshing p res))
    (hp : c.refreshes[p]? = some ψ) : ψ.outcome = none :=
  outcome_eq_none (not_returned_of_idle hidle hp) (not_settled_of_idle hidle hk hp)

/-! ## The refresh in flight -/

theorem refreshAccessToken_of_some (h : c.refreshInFlight = some p) : c.refreshAccessToken = (p,c) := by
  rw [refreshAccessToken,h]

theorem refreshAccessToken_of_none (h : c.refreshInFlight = none) : c.refreshAccessToken = (c.refreshes.length,{ c with
    refreshInFlight := some c.refreshes.length
    refreshes := c.refreshes ++ [.fetching]
    trace := .refreshFetched c.refreshes.length :: c.trace }) := by
  rw [refreshAccessToken,h]

theorem calls_refreshAccessToken (c : Client β δ) : c.refreshAccessToken.2.calls = c.calls := by
  cases h : c.refreshInFlight with
  | none => rw [refreshAccessToken_of_none h]
  | some p => rw [refreshAccessToken_of_some h]

theorem phaseOf_refreshAccessToken (c : Client β δ) (k : ℕ) : c.refreshAccessToken.2.phaseOf k = c.phaseOf k := by
  rw [phaseOf,phaseOf,calls_refreshAccessToken]

theorem refreshes_refreshAccessToken (hq : q < c.refreshes.length) :
    c.refreshAccessToken.2.refreshes[q]? = c.refreshes[q]? := by
  cases h : c.refreshInFlight with
  | none =>
    rw [refreshAccessToken_of_none h]
    exact List.getElem?_append_left hq
  | some p => rw [refreshAccessToken_of_some h]

theorem mem_trace_refreshAccessToken {e : Entry β} (he : e ∈ c.trace) : e ∈ c.refreshAccessToken.2.trace := by
  cases h : c.refreshInFlight with
  | none =>
    rw [refreshAccessToken_of_none h]
    exact List.mem_cons_of_mem _ he
  | some p => rwa [refreshAccessToken_of_some h]

theorem Inv.refreshAccessToken (h : Inv c) : Inv c.refreshAccessToken.2 := by
  cases hflight : c.refreshInFlight with
  | some p => rwa [refreshAccessToken_of_some hflight]
  | none =>
    have hold {q : ℕ} (hq : q < c.refreshes.length) : (c.refreshes ++ [.fetching])[q]? = c.refreshes[q]? :=
      List.getElem?_append_left hq
    rw [refreshAccessToken_of_none hflight]
    refine ⟨?_,?_,?_,?_,?_,h.retries⟩
    · intro q
      dsimp only
      rcases lt_trichotomy q c.refreshes.length with hq | rfl | hq
      · rw [hold hq,← h.inFlight q,hflight]
        simp [hq.ne']
      · simp [RefreshPhase.isSettled]
      · rw [List.getElem?_eq_none (by rw [List.length_append]; exact hq)]
        simp [hq.ne]
    · intro k p res hk
      dsimp only
      rw [List.length_append]
      exact Nat.lt_add_right _ (h.refresh_lt k p res hk)
    · intro k
      rw [sends_refreshFetched]
      exact h.fetched k
    · intro k p res hk
      exact List.mem_cons_of_mem _ (h.rejected k p res hk)
    · intro k p res ψ token hk hp hψ
      dsimp only at hp
      rw [hold (h.refresh_lt k p res hk)] at hp
      obtain ⟨hsub,htoken⟩ := h.renewed k p res ψ token hk hp hψ
      exact ⟨hsub.cons _,htoken⟩

/-- While no continuation is due, the refresh to wait for has not returned. -/
theorem Inv.refreshAccessToken_outcome (h : Inv c) (hidle : c.idle = true) :
    ∃ ψ, c.refreshAccessToken.2.refreshes[c.refreshAccessToken.1]? = some ψ ∧ ψ.outcome = none := by
  cases hflight : c.refreshInFlight with
  | some p =>
    obtain ⟨ψ,hp,hψ⟩ := (h.inFlight p).mp hflight
    rw [refreshAccessToken_of_some hflight]
    exact ⟨ψ,hp,outcome_eq_none (not_returned_of_idle hidle hp) hψ⟩
  | none =>
    rw [refreshAccessToken_of_none hflight]
    exact ⟨.fetching,List.getElem?_concat_length,rfl⟩

/-- A call that waits from now on. -/
theorem Inv.wait (h : Inv c) (hk : c.phaseOf k = some (.fetching false)) (hmem : .unauthorized k ∈ c.trace)
    (hp : c.refreshes[p]? = some ψ) (hψ : ψ.outcome = none) : Inv (c.setPhase k (.refreshing p res)) where
  inFlight := h.inFlight
  refresh_lt j q res' hj := by
    rcases phaseOf_setPhase_cases hk hj with ⟨-,hφ'⟩ | hj
    · cases hφ'
      exact (List.getElem?_eq_some_iff.mp hp).1
    · exact h.refresh_lt j q res' hj
  fetched j := by
    have hj := h.fetched j
    rw [phaseOf_setPhase,trace_setPhase]
    split
    next hkj =>
      obtain rfl := hkj
      rw [hk] at hj ⊢
      exact hj
    next => exact hj
  rejected j q res' hj := by
    rcases phaseOf_setPhase_cases hk hj with ⟨rfl,-⟩ | hj
    · exact hmem
    · exact h.rejected j q res' hj
  renewed j q res' ψ' token hj hq hψ' := by
    rcases phaseOf_setPhase_cases hk hj with ⟨-,hφ'⟩ | hj
    · cases hφ'
      obtain rfl : ψ' = ψ := Option.some.inj (hq.symm.trans hp)
      rw [hψ] at hψ'
      cases hψ'
    · exact h.renewed j q res' ψ' token hj hq hψ'
  retries := h.retries

/-! ## The phases of a refresh -/

theorem refreshes_setRefresh_self (hp : c.refreshes[p]? = some ψ) {ψ' : RefreshPhase} :
    (c.setRefresh p ψ').refreshes[p]? = some ψ' := by
  rw [refreshes_setRefresh,if_pos rfl,hp]
  rfl

theorem refreshes_setRefresh_ne (h : p ≠ q) : (c.setRefresh p ψ).refreshes[q]? = c.refreshes[q]? := by
  rw [refreshes_setRefresh,if_neg h]

theorem isSettled_of_outcome (h : ψ.outcome = none) : ψ.isSettled = false := by
  cases ψ with
  | settled token => cases h
  | _ => rfl

/-- A refresh that stays unsettled stays the one in flight. -/
theorem Inv.inFlight_setRefresh (h : Inv c) (hp : c.refreshes[p]? = some ψ) (hψ : ψ.isSettled = false)
    {ψ' : RefreshPhase} (hψ' : ψ'.isSettled = false) (q : ℕ) : c.refreshInFlight = some q ↔
      ∃ ψ, (c.setRefresh p ψ').refreshes[q]? = some ψ ∧ ψ.isSettled = false := by
  by_cases hpq : p = q
  · obtain rfl := hpq
    rw [refreshes_setRefresh_self hp]
    exact iff_of_true ((h.inFlight p).mpr ⟨ψ,hp,hψ⟩) ⟨ψ',rfl,hψ'⟩
  · rw [refreshes_setRefresh_ne hpq]
    exact h.inFlight q

theorem Inv.opened (h : Inv c) (hp : c.refreshes[p]? = some .fetching) : Inv (c.setRefresh p .parsing) where
  inFlight := h.inFlight_setRefresh hp rfl rfl
  refresh_lt j q res hj := by
    rw [length_refreshes_setRefresh]
    exact h.refresh_lt j q res hj
  fetched := h.fetched
  rejected := h.rejected
  renewed j q res ψ token hj hq hψ := by
    by_cases hpq : p = q
    · obtain rfl := hpq
      rw [refreshes_setRefresh_self hp] at hq
      obtain rfl := Option.some.inj hq
      cases hψ
    · rw [refreshes_setRefresh_ne hpq] at hq
      exact h.renewed j q res ψ token hj hq hψ
  retries := h.retries

/-- A refresh that returns what the client takes for its token, or nothing. -/
theorem Inv.returnRefresh (h : Inv c) (hp : c.refreshes[p]? = some ψ) (hψ : ψ.outcome = none)
    {accessToken : Option String} (htoken : token.isSome = true → accessToken = token)
    (hothers : accessToken = c.accessToken ∨ c.idle = true) :
    Inv ({ c with accessToken := accessToken }.returnRefresh p token) where
  inFlight := h.inFlight_setRefresh hp (isSettled_of_outcome hψ) rfl
  refresh_lt j q res hj := by
    rw [Client.returnRefresh,length_refreshes_setRefresh]
    exact h.refresh_lt j q res hj
  fetched j := by
    rw [Client.returnRefresh,trace_setRefresh,trace_note,sends_refreshed]
    exact h.fetched j
  rejected j q res hj := List.mem_cons_of_mem _ (h.rejected j q res hj)
  renewed j q res ψ' token' hj hq hψ' := by
    by_cases hpq : p = q
    · obtain rfl := hpq
      rw [Client.returnRefresh,refreshes_setRefresh_self (by exact hp)] at hq
      obtain rfl := Option.some.inj hq
      obtain rfl := Option.some.inj hψ'
      exact ⟨(List.singleton_sublist.mpr (h.rejected j p res hj)).cons_cons _,htoken⟩
    · rw [Client.returnRefresh,refreshes_setRefresh_ne hpq] at hq
      obtain ⟨hsub,hsame⟩ := h.renewed j q res ψ' token' hj hq hψ'
      refine ⟨hsub.cons _,fun hsome => ?_⟩
      rcases hothers with haccess | hidle
      · exact haccess.trans (hsame hsome)
      · rw [outcome_of_idle hidle hj hq] at hψ'
        cases hψ'
  retries := h.retries

theorem Inv.cleared (h : Inv c) (hp : c.refreshes[p]? = some (.returned token)) :
    Inv ({ c with refreshInFlight := none }.setRefresh p (.settled token)) where
  inFlight q := by
    refine iff_of_false (by simp) ?_
    rintro ⟨ψ,hq,hψ⟩
    by_cases hpq : p = q
    · obtain rfl := hpq
      rw [refreshes_setRefresh_self (by exact hp)] at hq
      obtain rfl := Option.some.inj hq
      cases hψ
    · rw [refreshes_setRefresh_ne hpq] at hq
      have hflight := (h.inFlight p).mpr ⟨_,hp,rfl⟩
      rw [(h.inFlight q).mpr ⟨ψ,hq,hψ⟩] at hflight
      exact hpq (Option.some.inj hflight).symm
  refresh_lt j q res hj := by
    rw [length_refreshes_setRefresh]
    exact h.refresh_lt j q res hj
  fetched := h.fetched
  rejected := h.rejected
  renewed j q res ψ token' hj hq hψ := by
    by_cases hpq : p = q
    · obtain rfl := hpq
      rw [refreshes_setRefresh_self (by exact hp)] at hq
      obtain rfl := Option.some.inj hq
      exact h.renewed j p res _ token' hj hp hψ
    · rw [refreshes_setRefresh_ne hpq] at hq
      exact h.renewed j q res ψ token' hj hq hψ
  retries := h.retries

/-! ## Fetches of a call -/

theorem truthy_eq_some {t : String} (h : truthy token = some t) : token = some t ∧ t ≠ "" := by
  rw [truthy,Option.filter_eq_some_iff] at h
  simpa using h

theorem Inv.retried (h : Inv c) {call : Call β δ} {t : String} (hk : c.calls[k]? = some call)
    (hphase : call.phase = .refreshing p res) (hp : c.refreshes[p]? = some (.settled token)) (ht : truthy token = some t) :
    Inv ((c.note (.fetched k (fetchRequest c.accessToken call.path call.options))).setPhase k (.fetching true)) := by
  have hkp : c.phaseOf k = some (.refreshing p res) := by rw [phaseOf_of_calls hk,hphase]
  have hcases {j q : ℕ} {res' : FetchResponse}
      (hj : ((c.note (.fetched k (fetchRequest c.accessToken call.path call.options))).setPhase k (.fetching true)).phaseOf j =
        some (.refreshing q res')) : c.phaseOf j = some (.refreshing q res') := by
    rcases phaseOf_setPhase_cases hkp hj with ⟨-,hφ'⟩ | hj
    · cases hφ'
    · exact hj
  refine ⟨h.inFlight,fun j q res' hj => h.refresh_lt j q res' (hcases hj),fun j => ?_,
    fun j q res' hj => List.mem_cons_of_mem _ (h.rejected j q res' (hcases hj)),fun j q res' ψ token' hj hq hψ => ?_,?_,h.retries⟩
  · have hj := h.fetched j
    rw [phaseOf_setPhase,trace_setPhase,trace_note,sends_fetched,phaseOf_note]
    split
    next hkj =>
      obtain rfl := hkj
      rw [hkp] at hj ⊢
      exact congrArg (· + 1) hj
    next => exact hj
  · obtain ⟨hsub,htoken⟩ := h.renewed j q res' ψ token' (hcases hj) hq hψ
    exact ⟨hsub.cons _,htoken⟩
  · obtain ⟨rfl,hne⟩ := truthy_eq_some ht
    obtain ⟨hsub,haccess⟩ := h.renewed k p res _ (some t) hkp hp rfl
    intro _
    refine ⟨p,t,hne,?_,hsub⟩
    rw [fetchRequest,haccess rfl,ht]
    rfl

theorem skipAuthRetry_options (a : ApiCall β) : a.options.skipAuthRetry = false := by cases a <;> rfl

theorem phaseOf_length (c : Client β δ) : c.phaseOf c.calls.length = none := by
  rw [phaseOf,List.getElem?_eq_none le_rfl]
  rfl

theorem Inv.request (h : Inv c) (a : ApiCall β) : Inv (c.request a) := by
  have hcases {j q : ℕ} {res' : FetchResponse} (hj : (c.request a).phaseOf j = some (.refreshing q res')) :
      c.phaseOf j = some (.refreshing q res') := by
    rw [phaseOf_request] at hj
    split at hj
    · cases hj
    · exact hj
  have hnone : sends c.calls.length c.trace = 0 := by
    have hnew := h.fetched c.calls.length
    rwa [phaseOf_length] at hnew
  refine ⟨h.inFlight,fun j q res' hj => h.refresh_lt j q res' (hcases hj),fun j => ?_,
    fun j q res' hj => List.mem_cons_of_mem _ (h.rejected j q res' (hcases hj)),fun j q res' ψ token' hj hq hψ => ?_,?_,h.retries⟩
  · have hj := h.fetched j
    rw [phaseOf_request,Client.request,sends_fetched,skipAuthRetry_options]
    by_cases hnew : j = c.calls.length
    · rw [if_pos hnew,if_pos hnew.symm,hnew,hnone]
      rfl
    · rw [if_neg hnew,if_neg (Ne.symm hnew)]
      exact hj
  · obtain ⟨hsub,htoken⟩ := h.renewed j q res' ψ token' (hcases hj) hq hψ
    exact ⟨hsub.cons _,htoken⟩
  · intro hpos
    rw [hnone] at hpos
    exact absurd hpos (lt_irrefl 0)

theorem Inv.moves {c' : Client β δ} {e : Event β δ} (h : Inv c) (hm : Moves c e c') : Inv c' := by
  cases hm with
  | called a => exact h.request a
  | asked => exact h.refreshAccessToken
  | rejected hidle hk =>
    obtain ⟨ψ,hp,hψ⟩ := (h.note_unauthorized _).refreshAccessToken_outcome hidle
    refine (h.note_unauthorized _).refreshAccessToken.wait ?_ ?_ hp hψ
    · rw [phaseOf_refreshAccessToken]
      exact hk
    · exact mem_trace_refreshAccessToken List.mem_cons_self
  | moved hk hlate _ _ hnote =>
    rcases hnote with rfl | rfl
    · exact h.late hk hlate
    · exact (h.note_unauthorized _).late hk hlate
  | opened hp => exact h.opened hp
  | lapsed hp hψ _ => exact h.returnRefresh hp hψ (by simp) (.inl rfl)
  | renewed hidle hp => exact h.returnRefresh hp rfl (fun _ => rfl) (.inr hidle)
  | cleared hp => exact h.cleared hp
  | retried hk hphase hp ht => exact h.retried hk hphase hp ht

theorem Inv.next (h : Inv c) (e : Event β δ) : Inv (c.next e) := by
  unfold Client.next
  cases hstep : c.step e with
  | none => exact h
  | some c' => exact h.moves (moves_of_step hstep)

theorem Moves.length_calls {c' : Client β δ} {e : Event β δ} (hm : Moves c e c') :
    c'.calls.length = c.calls.length + if e.isCall then 1 else 0 := by
  cases hm with
  | called a => exact List.length_append
  | asked => rw [calls_refreshAccessToken]; rfl
  | rejected hidle hk => rw [length_calls_setPhase,calls_refreshAccessToken,calls_note]; rfl
  | moved hk hlate hless he hnote =>
    have hcall : Event.isCall _ = false := not_isCall_of_target he
    rw [length_calls_setPhase,hcall]
    rcases hnote with rfl | rfl <;> rfl
  | opened hp => rfl
  | lapsed hp hψ he => rw [not_isCall_of_target he]; rfl
  | renewed hidle hp => rfl
  | cleared hp => rfl
  | retried hk hphase hp ht => rw [length_calls_setPhase,calls_note]; rfl

end Client
end PinoyTax.Web
