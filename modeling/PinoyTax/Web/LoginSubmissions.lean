import Mathlib.Data.List.Dedup
import PinoyTax.Identity.LoginAllowance
import PinoyTax.Identity.LoginResponses
import PinoyTax.Web.AuthApi
import PinoyTax.Web.SingleRefresh

/-! # Submissions of the login form and the count of wrong passwords

A submission is one call of `authApi.login`. Its fetch is sent again exactly when the
call goes on after the 401 with a fresh token, and the login handler counts fetches. So
the count of an account is that of its wrong submissions exactly when no submission
goes on in this way.
-/
namespace PinoyTax.Web
open PinoyTax Foundation Runs Identity
variable {δ : Type}

/-! ## What a step of the client sends -/

def RefreshPhase.renews : RefreshPhase → Bool
  | settled token => (truthy token).isSome
  | _ => false

namespace Client
variable {β : Type} {c c' : Client β δ} {e : Event β δ} {k : ℕ}

/-- The refresh that the call waits for has returned a token, and the call goes on with another fetch. -/
def resends (c : Client β δ) (k : ℕ) : Bool :=
  match c.phaseOf k with
  | some (.refreshing p _) => (c.refreshes[p]?).any RefreshPhase.renews
  | _ => false

/-- The event makes the call fetch. -/
def fetches (c : Client β δ) (k : ℕ) : Event β δ → Bool
  | .call _ => decide (c.calls.length = k)
  | .resume j => decide (j = k) && c.resends k
  | _ => false

def requestOf (c : Client β δ) (k : ℕ) : Option (String × RequestOptions β) :=
  (c.calls[k]?).map fun call => (call.path,call.options)

theorem sends_refreshAccessToken (c : Client β δ) (k : ℕ) : sends k c.refreshAccessToken.2.trace = sends k c.trace := by
  cases h : c.refreshInFlight with
  | none =>
    rw [refreshAccessToken_of_none h]
    exact sends_refreshFetched c.trace
  | some p => rw [refreshAccessToken_of_some h]

/-- Nothing but a new call and one that goes on fetches. -/
theorem Moves.sends_eq (hm : Moves c e c') (hcall : ∀ a, e ≠ .call a) (hresume : ∀ j, e ≠ .resume j) (k : ℕ) :
    sends k c'.trace = sends k c.trace := by
  cases hm with
  | called a => exact absurd rfl (hcall a)
  | asked => exact sends_refreshAccessToken c k
  | rejected hidle hk => rw [trace_setPhase,sends_refreshAccessToken,trace_note,sends_unauthorized]
  | moved hk hlate hless he hnote =>
    rw [trace_setPhase]
    rcases hnote with rfl | rfl
    · rfl
    · exact sends_unauthorized c.trace
  | opened hp => rfl
  | lapsed hp hψ he => exact sends_refreshed c.trace
  | renewed hidle hp => exact sends_refreshed c.trace
  | cleared hp => rfl
  | retried hk hphase hp ht => exact absurd rfl (hresume _)

/-- A call that goes on fetches exactly when it has a token. -/
theorem sends_resume {j : ℕ} (h : c.step (.resume j) = some c') (k : ℕ) :
    sends k c'.trace = sends k c.trace + if c.fetches k (.resume j) then 1 else 0 := by
  obtain ⟨call,p,res,newToken,hj,hphase,hp,rfl⟩ := resume_of_step h
  have hjp := phaseOf_of_calls hj
  rw [hphase] at hjp
  have hresends : c.resends j = (truthy newToken).isSome := by
    rw [resends,hjp]
    dsimp only
    rw [hp]
    rfl
  have hfetches : c.fetches k (.resume j) = (decide (j = k) && (truthy newToken).isSome) := by
    rw [fetches]
    by_cases hjk : j = k
    · rw [← hjk,hresends]
    · simp [hjk]
  rw [hfetches,resume]
  cases truthy newToken with
  | none => simp
  | some t =>
    rw [trace_setPhase,trace_note,sends_fetched]
    by_cases hjk : j = k <;> simp [hjk]

theorem sends_step (h : c.step e = some c') (k : ℕ) :
    sends k c'.trace = sends k c.trace + if c.fetches k e then 1 else 0 := by
  have hm := moves_of_step h
  cases e with
  | call a =>
    obtain rfl := Option.some.inj h
    rw [request,sends_fetched,fetches]
    by_cases hk : c.calls.length = k <;> simp [hk]
  | resume j => exact sends_resume h k
  | refreshAccessToken => exact hm.sends_eq (fun _ h => by cases h) (fun _ h => by cases h) k
  | respond j res => exact hm.sends_eq (fun _ h => by cases h) (fun _ h => by cases h) k
  | parse j body => exact hm.sends_eq (fun _ h => by cases h) (fun _ h => by cases h) k
  | respondRefresh p ok => exact hm.sends_eq (fun _ h => by cases h) (fun _ h => by cases h) k
  | parseRefresh p body => exact hm.sends_eq (fun _ h => by cases h) (fun _ h => by cases h) k
  | runFinally p => exact hm.sends_eq (fun _ h => by cases h) (fun _ h => by cases h) k

theorem requestOf_setPhase (c : Client β δ) (j k : ℕ) (φ : Phase δ) : (c.setPhase j φ).requestOf k = c.requestOf k := by
  unfold requestOf setPhase
  rw [List.getElem?_modify]
  cases c.calls[k]? with
  | none => split <;> rfl
  | some call => split <;> rfl

/-- A call keeps its request. -/
theorem Moves.requestOf_eq (hm : Moves c e c') (hk : k < c.calls.length) : c'.requestOf k = c.requestOf k := by
  cases hm with
  | called a =>
    unfold requestOf request
    rw [List.getElem?_append_left hk]
  | asked => rw [requestOf,calls_refreshAccessToken,requestOf]
  | rejected hidle hj => rw [requestOf_setPhase,requestOf,calls_refreshAccessToken,calls_note,requestOf]
  | moved hj hlate hless he hnote =>
    rw [requestOf_setPhase]
    rcases hnote with rfl | rfl <;> rfl
  | opened hp => rfl
  | lapsed hp hψ he => rfl
  | renewed hidle hp => rfl
  | cleared hp => rfl
  | retried hj hphase hp ht =>
    rw [requestOf_setPhase]
    rfl

theorem lt_of_resends (h : c.resends k = true) : k < c.calls.length := by
  unfold resends at h
  split at h
  next p res hk => exact phaseOf_lt (by rw [hk]; rfl)
  · cases h

theorem resume_of_resends (h : c.resends k = true) : (c.step (.resume k)).isSome = true := by
  unfold resends at h
  split at h
  next p res hk =>
    obtain ⟨call,hcall,hphase⟩ := Option.map_eq_some_iff.mp hk
    obtain ⟨ψ,hp,hψ⟩ := (Option.any_eq_true _ _).mp h
    cases ψ with
    | settled token =>
      rw [step_resume hcall hphase hp]
      rfl
    | _ => cases hψ
  · cases h

end Client

/-! ## What a login counts -/

/-- The count in the row of the user. -/
def failedAttempts (userId : Uuid) (s : Store) : Option ℕ :=
  (s.identity.users.find? (fun u => u.id = userId)).map User.failedLoginAttempts

section
variable {env : AuthEnv} {userId : Uuid} {s : Store} {input : LoginDto} {ctx : LoginContext} {m : Moment} {n : ℕ}

/-- The password is not the one of the account, if the login is for it. -/
def WrongFor (env : AuthEnv) (userId : Uuid) (input : LoginDto) (s : Store) : Prop :=
  ∀ u ∈ s.identity.users.find? (fun u => u.email = env.toLowerCase input.email), u.id = userId →
    passwordValid env u input.password = false

theorem wrongFor_eq_iff : wrongFor env input m.now s = some userId ↔ GivesWrong env userId s (.login input ctx m) := by
  unfold wrongFor GivesWrong
  rw [Option.map_eq_some_iff]
  refine exists_congr fun u => ?_
  rw [Option.filter_eq_some_iff]
  simp only [Bool.and_eq_true,Option.isNone_iff_eq_none,Bool.not_eq_true',Option.mem_def]
  tauto

theorem run_login_state :
    ((AuthController.login env input ctx m).run s).2 = Identity.next env s (.login input ctx m) := by
  rw [AuthController.login,Identity.next]
  rcases Prog.run_bind_cases (Identity.login env input ctx m) _ s with ⟨reply,-,hrun⟩ | ⟨e,-,hrun⟩
  · rw [hrun]
    rfl
  · rw [hrun]

/-- A login counts for the account exactly when it compares its password and finds it wrong. -/
theorem failedAttempts_login (hu : UniqueUsers s) (hwrong : WrongFor env userId input s)
    (hcount : failedAttempts userId s = some n) :
    failedAttempts userId (Identity.next env s (.login input ctx m)) =
      some (n + if wrongFor env input m.now s = some userId then 1 else 0) := by
  obtain ⟨u,hrow,rfl⟩ := Option.map_eq_some_iff.mp hcount
  obtain ⟨u',hrow',hmoves,-⟩ := (followed_next hu hrow (.login input ctx m)).row
  rw [failedAttempts,hrow',Option.map_some]
  have hiff : wrongFor env input m.now s = some userId ↔ ∃ lock, eventOf env userId s (.login input ctx m) =
      some (.wrong lock) := wrongFor_eq_iff.trans givesWrong_iff
  generalize hevent : eventOf env userId s (.login input ctx m) = event at hmoves hiff
  generalize hcounter : counterOf u' = counter at hmoves
  have hfailures : u'.failedLoginAttempts = counter.failures := congrArg Lockout.Counter.failures hcounter
  rw [hfailures]
  cases hmoves with
  | idle =>
    rw [if_neg (hiff.not.mpr fun ⟨_,h⟩ => by cases h)]
    rfl
  | clear =>
    obtain ⟨v,hv,hcleared⟩ := Option.map_eq_some_iff.mp hevent
    obtain ⟨hfind,hself⟩ := Option.filter_eq_some_iff.mp hv
    rw [Bool.and_eq_true,Bool.and_eq_true,decide_eq_true_eq] at hself
    rw [hwrong v hfind hself.1.1] at hcleared
    cases hcleared
  | count hopen hmax =>
    rw [if_pos (hiff.mpr ⟨none,rfl⟩)]
    rfl
  | lock hopen hmax lockedUntil =>
    rw [if_pos (hiff.mpr ⟨some lockedUntil,rfl⟩)]
    rfl

theorem users_refresh (env : AuthEnv) (cookie : Option String) (ctx : LoginContext) (m : Moment) (s : Store) :
    ((AuthController.refresh env cookie ctx m).run s).2.identity.users = s.identity.users := by
  unfold AuthController.refresh
  split
  · rfl
  next refreshToken _ =>
    have husers : ((Identity.refresh env refreshToken ctx m).run s).2.identity.users = s.identity.users :=
      (keeps_refresh (g := fun s => s.identity.users) (fun _ _ => rfl) env refreshToken ctx m).run s
    rcases Prog.run_bind_cases (Identity.refresh env refreshToken ctx m) _ s with ⟨pair,-,hrun⟩ | ⟨e,-,hrun⟩
    · rw [hrun]
      exact husers
    · rw [hrun]
      exact husers

end

/-! ## The tab with the server -/

namespace Site
section
variable (env : AuthEnv) (userId : Uuid)

/-- No submission is sent twice. -/
def SendsOnce (s : Site δ) : Prop := ∀ k, (s.inputOf k).isSome = true → Client.sends k s.client.trace ≤ 1

/-- The fetches whose password the handler has compared with that of the account and found wrong. -/
def wrongFetches (s : Site δ) : List ℕ :=
  (s.loginAnswers.filter fun a => decide (a.wrongFor = some userId)).map LoginAnswer.call

/-- No submission is sent twice, and the account counts one for each submission of a wrong password. -/
structure CountsOnce (attempts : ℕ) (s : Site δ) : Prop where
  sent : s.SendsOnce
  counted : failedAttempts userId s.store = some (attempts + (s.wrongFetches userId).dedup.length)

/-- A submission goes on with a fresh token. -/
def resubmits (s : Site δ) : SiteEvent δ → Bool
  | .client (.resume k) => (s.inputOf k).isSome && s.client.resends k
  | _ => false

/-- Only wrong passwords are submitted for the account, and nothing else changes its count. -/
def Undisturbed (s : Site δ) : SiteEvent δ → Prop
  | .handleLogin k _ _ => ∀ input ∈ s.pendingLogin k, WrongFor env userId input s.store
  | .elsewhere store _ => UniqueUsers store ∧ failedAttempts userId store = failedAttempts userId s.store
  | _ => True

instance (s : Site δ) : (e : SiteEvent δ) → Decidable (s.Undisturbed env userId e)
  | .client _ => .isTrue trivial
  | .setAccessToken _ => .isTrue trivial
  | .handleLogin k _ _ => inferInstanceAs (Decidable (∀ input ∈ s.pendingLogin k, ∀ u ∈ _, _ → _))
  | .handleRefresh _ _ _ => .isTrue trivial
  | .elsewhere _ _ => inferInstanceAs (Decidable (List.Nodup _ ∧ _))

end

/-- The fetches of the calls, and the answers to them. -/
structure Sent (s : Site δ) : Prop where
  positive : ∀ k, 0 < Client.sends k s.client.trace ↔ k < s.client.calls.length
  handled_le : ∀ k, s.handled k ≤ Client.sends k s.client.trace
  submitted : ∀ a ∈ s.loginAnswers, (s.inputOf a.call).isSome = true

/-- The account counts the fetches. -/
structure Counted (userId : Uuid) (attempts : ℕ) (s : Site δ) : Prop where
  unique : UniqueUsers s.store
  counted : failedAttempts userId s.store = some (attempts + (s.wrongFetches userId).length)

section
variable {env : AuthEnv} {sign : AccessToken → String} {userId : Uuid} {attempts : ℕ} {s : Site δ} {k : ℕ}

theorem inputOf_eq (s : Site δ) (k : ℕ) : s.inputOf k = (s.client.requestOf k).bind fun r => loginInput r.1 r.2 := by
  unfold inputOf Client.requestOf
  cases s.client.calls[k]? <;> rfl

theorem lt_of_inputOf (h : (s.inputOf k).isSome = true) : k < s.client.calls.length := by
  obtain ⟨input,hinput⟩ := Option.isSome_iff_exists.mp h
  obtain ⟨call,hcall,-⟩ := Option.bind_eq_some_iff.mp hinput
  exact (List.getElem?_eq_some_iff.mp hcall).1

theorem count_wrongFetches_le (s : Site δ) (k : ℕ) : (s.wrongFetches userId).count k ≤ s.handled k := by
  unfold wrongFetches handled
  rw [List.count_eq_countP,List.countP_map]
  exact (List.filter_sublist.countP_le).trans (List.countP_mono_left fun a _ h => by simpa using h)

/-- While no submission is sent twice, its wrong passwords are found in one answer each. -/
theorem Sent.nodup_wrongFetches (h : s.Sent) (hsent : s.SendsOnce) : (s.wrongFetches userId).Nodup := by
  rw [List.nodup_iff_count_le_one]
  intro k
  by_cases hk : k ∈ s.wrongFetches userId
  · obtain ⟨a,ha,rfl⟩ := List.mem_map.mp hk
    have hinput := h.submitted a (List.mem_of_mem_filter ha)
    exact (count_wrongFetches_le s _).trans ((h.handled_le _).trans (hsent _ hinput))
  · rw [List.count_eq_zero_of_not_mem hk]
    exact Nat.zero_le 1

theorem countsOnce_iff (h : s.Sent) (hcounted : s.Counted userId attempts) :
    s.CountsOnce userId attempts ↔ s.SendsOnce := by
  refine ⟨CountsOnce.sent,fun hsent => ⟨hsent,?_⟩⟩
  rw [List.Nodup.dedup (h.nodup_wrongFetches hsent)]
  exact hcounted.counted

/-! ## One event -/

/-- What an event does to the tab and the server. -/
inductive Moves (env : AuthEnv) (sign : AccessToken → String) (s : Site δ) : SiteEvent δ → Site δ → Prop
  | ignored {e : SiteEvent δ} (hno : s.resubmits e = false) : Moves env sign s e s
  | stepped {e : Event Body δ} {c : Client Body δ} (hbrings : s.brings e = true) (hstep : s.client.step e = some c) :
      Moves env sign s (.client e) (s.move e c)
  | tokenSet (token : Option String) :
      Moves env sign s (.setAccessToken token) { s with client := { s.client with accessToken := token } }
  | loginHandled {k : ℕ} {ctx : LoginContext} {m : Moment} {input : LoginDto} (hpending : s.pendingLogin k = some input) :
      Moves env sign s (.handleLogin k ctx m) { s with
        store := ((AuthController.login env input ctx m).run s.store).2
        loginAnswers := loginAnswerOf k (wrongFor env input m.now s.store)
          ((AuthController.login env input ctx m).run s.store).1 :: s.loginAnswers }
  | refreshHandled {p : ℕ} {ctx : LoginContext} {m : Moment} {cookie : Option String}
      (hpending : s.pendingRefresh p = some cookie) : Moves env sign s (.handleRefresh p ctx m) { s with
        store := ((AuthController.refresh env cookie ctx m).run s.store).2
        refreshAnswers := refreshAnswerOf sign p ((AuthController.refresh env cookie ctx m).run s.store).1 ::
          s.refreshAnswers }
  | replaced (store : Store) (cookie : Option String) :
      Moves env sign s (.elsewhere store cookie) { s with store := store, cookie := cookie }

/-- An event of the client that does not happen sends nothing again. -/
theorem resubmits_of_step_eq_none {e : Event Body δ} (h : ¬ (s.brings e = true ∧ (s.client.step e).isSome = true)) :
    s.resubmits (.client e) = false := by
  cases e with
  | resume j =>
    rw [resubmits,Bool.eq_false_iff]
    exact fun htrue => h ⟨rfl,Client.resume_of_resends (Bool.and_eq_true_iff.mp htrue).2⟩
  | _ => rfl

theorem moves_next (env : AuthEnv) (sign : AccessToken → String) (s : Site δ) (e : SiteEvent δ) :
    Moves env sign s e (next env sign s e) := by
  unfold next
  cases e with
  | client e =>
    dsimp only
    split
    next c hbrings hstep => exact .stepped hbrings hstep
    next hnot =>
      refine .ignored (resubmits_of_step_eq_none fun ⟨hbrings,hsome⟩ => ?_)
      obtain ⟨c,hstep⟩ := Option.isSome_iff_exists.mp hsome
      exact hnot c hbrings hstep
  | setAccessToken token => exact .tokenSet token
  | handleLogin k ctx m =>
    dsimp only
    split
    next input hpending => exact .loginHandled hpending
    next => exact .ignored rfl
  | handleRefresh p ctx m =>
    dsimp only
    split
    next cookie hpending => exact .refreshHandled hpending
    next => exact .ignored rfl
  | elsewhere store cookie => exact .replaced store cookie

theorem inputOf_move {e : Event Body δ} {c : Client Body δ} (hstep : s.client.step e = some c)
    (hk : k < s.client.calls.length) : (s.move e c).inputOf k = s.inputOf k := by
  rw [inputOf_eq,inputOf_eq]
  exact congrArg (Option.bind · _) ((Client.moves_of_step hstep).requestOf_eq hk)

@[simp] theorem call_loginAnswerOf (k : ℕ) (wrongFor : Option Uuid)
    (reply : Except ApiException (AuthController.LoginResponse × AuthController.RefreshCookie)) :
    (loginAnswerOf k wrongFor reply).call = k := by cases reply <;> rfl

@[simp] theorem wrongFor_loginAnswerOf (k : ℕ) (wrongFor : Option Uuid)
    (reply : Except ApiException (AuthController.LoginResponse × AuthController.RefreshCookie)) :
    (loginAnswerOf k wrongFor reply).wrongFor = wrongFor := by cases reply <;> rfl

theorem length_wrongFetches_cons (s : Site δ) (t : Store) (a : LoginAnswer) :
    (wrongFetches userId { s with store := t, loginAnswers := a :: s.loginAnswers }).length =
      (wrongFetches userId s).length + if a.wrongFor = some userId then 1 else 0 := by
  rw [wrongFetches,wrongFetches,List.length_map,List.length_map]
  dsimp only
  rw [List.filter_cons]
  by_cases ha : a.wrongFor = some userId <;> simp [ha]

theorem pendingLogin_eq_some {input : LoginDto} (h : s.pendingLogin k = some input) :
    s.handled k < Client.sends k s.client.trace ∧ s.inputOf k = some input := by
  unfold pendingLogin at h
  split at h
  · exact ⟨‹_›,h⟩
  · cases h

/-- A call that has been made has fetched. -/
theorem Sent.positive_step (h : s.Sent) {e : Event Body δ} {c : Client Body δ} (hstep : s.client.step e = some c) (k : ℕ) :
    0 < Client.sends k c.trace ↔ k < c.calls.length := by
  have hpositive := h.positive k
  rw [Client.sends_step hstep,(Client.moves_of_step hstep).length_calls]
  cases e with
  | call a =>
    rw [Client.fetches,Event.isCall,if_pos rfl]
    by_cases hk : s.client.calls.length = k
    · simp [hk]
    · simp only [hk,decide_false,Bool.false_eq_true,if_false]
      omega
  | resume j =>
    have hcall : (if (Event.resume j : Event Body δ).isCall then 1 else 0) = 0 := rfl
    rw [hcall,Nat.add_zero]
    by_cases hfetches : s.client.fetches k (.resume j) = true
    · have hk : k < s.client.calls.length := by
        rw [Client.fetches,Bool.and_eq_true] at hfetches
        exact Client.lt_of_resends hfetches.2
      rw [if_pos hfetches]
      exact iff_of_true (Nat.succ_pos _) hk
    · rw [if_neg hfetches]
      exact hpositive
  | _ => exact hpositive

theorem Sent.moves (h : s.Sent) {e : SiteEvent δ} {s' : Site δ} (hm : Moves env sign s e s') : s'.Sent := by
  cases hm with
  | ignored hno => exact h
  | stepped hbrings hstep =>
    refine ⟨h.positive_step hstep,fun k => ?_,fun a ha => ?_⟩
    · exact (h.handled_le k).trans ((Client.sends_step hstep k).symm ▸ Nat.le_add_right _ _)
    · have hinput := h.submitted a ha
      rwa [inputOf_move hstep (lt_of_inputOf hinput)]
  | tokenSet token => exact ⟨h.positive,h.handled_le,h.submitted⟩
  | @loginHandled k ctx m input hpending =>
    obtain ⟨hlt,hinput⟩ := pendingLogin_eq_some hpending
    refine ⟨h.positive,fun j => ?_,fun a ha => ?_⟩
    · have hle := h.handled_le j
      unfold handled at hle hlt ⊢
      rw [List.countP_cons,call_loginAnswerOf]
      by_cases hj : k = j
      · obtain rfl := hj
        rw [if_pos (decide_eq_true rfl)]
        exact hlt
      · rw [if_neg (by simpa using hj)]
        exact hle
    · rcases List.mem_cons.mp ha with rfl | ha
      · rw [call_loginAnswerOf]
        exact Option.isSome_iff_exists.mpr ⟨input,hinput⟩
      · exact h.submitted a ha
  | refreshHandled hpending => exact ⟨h.positive,h.handled_le,h.submitted⟩
  | replaced store cookie => exact ⟨h.positive,h.handled_le,h.submitted⟩

theorem Counted.moves (h : s.Counted userId attempts) {e : SiteEvent δ} (he : s.Undisturbed env userId e) {s' : Site δ}
    (hm : Moves env sign s e s') : s'.Counted userId attempts := by
  cases hm with
  | ignored hno => exact h
  | stepped hbrings hstep => exact ⟨h.unique,h.counted⟩
  | tokenSet token => exact ⟨h.unique,h.counted⟩
  | @loginHandled k ctx m input hpending =>
    refine ⟨?_,?_⟩
    · dsimp only
      rw [run_login_state]
      exact uniqueUsers_next env h.unique _
    · dsimp only
      rw [run_login_state,failedAttempts_login h.unique (he input hpending) h.counted,length_wrongFetches_cons,
        wrongFor_loginAnswerOf,Nat.add_assoc]
  | @refreshHandled p ctx m cookie hpending =>
    have husers := users_refresh env cookie ctx m s.store
    refine ⟨?_,?_⟩
    · unfold UniqueUsers
      dsimp only
      rw [husers]
      exact h.unique
    · unfold failedAttempts
      dsimp only
      rw [husers]
      exact h.counted
  | replaced store cookie => exact ⟨he.1,he.2.trans h.counted⟩

theorem Sent.sendsOnce_move (h : s.Sent) (hsent : s.SendsOnce) {e : Event Body δ} {c : Client Body δ}
    (hstep : s.client.step e = some c)
    (hfetches : ∀ k < s.client.calls.length, (s.inputOf k).isSome = true → s.client.fetches k e = false) :
    (s.move e c).SendsOnce := by
  intro k hinput
  have hsends : Client.sends k (s.move e c).client.trace = _ := Client.sends_step hstep k
  rw [hsends]
  by_cases hk : k < s.client.calls.length
  · rw [inputOf_move hstep hk] at hinput
    rw [hfetches k hk hinput]
    exact hsent k hinput
  · have hnone : Client.sends k s.client.trace = 0 := Nat.eq_zero_of_not_pos ((h.positive k).not.mpr hk)
    rw [hnone]
    split <;> simp

/-- A call of the client that goes on with a fresh token is sent again. -/
theorem Sent.sendsOnce_resume_iff (h : s.Sent) (hsent : s.SendsOnce) {j : ℕ} {c : Client Body δ}
    (hstep : s.client.step (.resume j) = some c) :
    (s.move (.resume j) c).SendsOnce ↔ s.resubmits (.client (.resume j)) = false := by
  rw [resubmits]
  constructor
  · intro hnext
    refine Bool.eq_false_iff.mpr fun htrue => ?_
    obtain ⟨hinput,hresends⟩ := Bool.and_eq_true_iff.mp htrue
    have hk := lt_of_inputOf hinput
    have hfetches : s.client.fetches j (.resume j) = true := by simp [Client.fetches,hresends]
    have htwice := hnext j (by rwa [inputOf_move hstep hk])
    have hsends : Client.sends j (s.move (.resume j) c).client.trace = _ := Client.sends_step hstep j
    have hpositive := (h.positive j).mpr hk
    rw [hsends,if_pos hfetches] at htwice
    omega
  · intro hno
    refine h.sendsOnce_move hsent hstep fun k _ hinput => ?_
    rw [Client.fetches]
    by_cases hjk : j = k
    · obtain rfl := hjk
      rw [hinput,Bool.true_and] at hno
      rw [hno,Bool.and_false]
    · rw [decide_eq_false hjk,Bool.false_and]

/-- A submission is sent a second time exactly when it goes on with a fresh token. -/
theorem Sent.sendsOnce_moves_iff (h : s.Sent) (hsent : s.SendsOnce) {e : SiteEvent δ} {s' : Site δ}
    (hm : Moves env sign s e s') : s'.SendsOnce ↔ s.resubmits e = false := by
  cases hm with
  | ignored hno => exact iff_of_true hsent hno
  | @stepped e c hbrings hstep =>
    cases e with
    | resume j => exact h.sendsOnce_resume_iff hsent hstep
    | call a => exact iff_of_true (h.sendsOnce_move hsent hstep fun k hk _ => decide_eq_false hk.ne') rfl
    | _ => exact iff_of_true (h.sendsOnce_move hsent hstep fun _ _ _ => rfl) rfl
  | tokenSet token => exact iff_of_true hsent rfl
  | loginHandled hpending => exact iff_of_true hsent rfl
  | refreshHandled hpending => exact iff_of_true hsent rfl
  | replaced store cookie => exact iff_of_true hsent rfl

end

/-- A page just opened. -/
def opened (accessToken cookie : Option String) (store : Store) : Site δ where
  client := { accessToken := accessToken }
  store := store
  cookie := cookie

theorem sent_opened (accessToken cookie : Option String) (store : Store) :
    (opened accessToken cookie store : Site δ).Sent where
  positive := by simp [opened,Client.sends]
  handled_le := by simp [opened,handled]
  submitted := by simp [opened]

theorem sendsOnce_opened (accessToken cookie : Option String) (store : Store) :
    (opened accessToken cookie store : Site δ).SendsOnce := by simp [SendsOnce,opened,Client.sends]

section
variable {env : AuthEnv} {sign : AccessToken → String} {userId : Uuid} {accessToken cookie : Option String} {store : Store}
  {attempts : ℕ} {events : List (SiteEvent δ)}

theorem always_sendsOnce_iff : Always (next env sign) SendsOnce (opened accessToken cookie store) events ↔
    Along (next env sign) (fun s e => s.resubmits e = false) (opened accessToken cookie store) events :=
  always_iff_along (A := fun _ _ => True) (I := Sent) (fun s e h _ _ _ => h.moves (moves_next env sign s e))
    (fun s e h _ hP => h.sendsOnce_moves_iff hP (moves_next env sign s e)) (sent_opened accessToken cookie store)
    (sendsOnce_opened accessToken cookie store) (along_true _ events)

theorem always_countsOnce_iff (hunique : UniqueUsers store) (hattempts : failedAttempts userId store = some attempts)
    (hundisturbed : Along (next env sign) (Undisturbed env userId) (opened accessToken cookie store) events) :
    Always (next env sign) (CountsOnce userId attempts) (opened accessToken cookie store) events ↔
      Along (next env sign) (fun s e => s.resubmits e = false) (opened accessToken cookie store) events := by
  have hsent : (opened accessToken cookie store : Site δ).Sent := sent_opened accessToken cookie store
  have hcounted : (opened accessToken cookie store : Site δ).Counted userId attempts := ⟨hunique,hattempts⟩
  refine always_iff_along (A := Undisturbed env userId) (I := fun s => s.Sent ∧ s.Counted userId attempts)
    (fun s e h he _ _ => ?_) (fun s e h he hP => ?_) ⟨hsent,hcounted⟩
    ((countsOnce_iff hsent hcounted).mpr (sendsOnce_opened accessToken cookie store)) hundisturbed
  · have hm := moves_next env sign s e
    exact ⟨h.1.moves hm,h.2.moves he hm⟩
  · have hm := moves_next env sign s e
    rw [countsOnce_iff (h.1.moves hm) (h.2.moves he hm)]
    exact h.1.sendsOnce_moves_iff hP.sent hm

end

/-! ## Browsers without a session -/

/-- The handler of a refresh finds no session that the cookie still opens. -/
def FindsNoSession (env : AuthEnv) (s : Site δ) : SiteEvent δ → Prop
  | .handleRefresh p _ m => ∀ cookie ∈ s.pendingRefresh p, ∀ token ∈ cookie,
    s.store.identity.sessions.find? (isLive (env.hashToken token) m.now) = none
  | _ => True

/-- No refresh has brought a token. -/
structure Unrenewed (s : Site δ) : Prop where
  answers : ∀ a ∈ s.refreshAnswers, a.accessToken = none
  outcomes : ∀ ψ ∈ s.client.refreshes, ∀ token, ψ.outcome = some token → token = none

section
variable {env : AuthEnv} {sign : AccessToken → String} {userId : Uuid} {s : Site δ} {accessToken cookie : Option String}
  {store : Store} {attempts : ℕ} {events : List (SiteEvent δ)}

theorem refresh_no_session {ctx : LoginContext} {m : Moment} {t : Store}
    (h : ∀ token ∈ cookie, t.identity.sessions.find? (isLive (env.hashToken token) m.now) = none) (p : ℕ) :
    (refreshAnswerOf sign p ((AuthController.refresh env cookie ctx m).run t).1).accessToken = none := by
  unfold AuthController.refresh
  split
  · rfl
  next token htoken =>
    have hnone := h token (Option.filter_eq_some_iff.mp htoken).1
    rw [Prog.run_bind,run_refresh_unknown hnone]
    rfl

theorem outcomes_refreshAccessToken {c : Client Body δ}
    (h : ∀ ψ ∈ c.refreshes, ∀ token, ψ.outcome = some token → token = none) :
    ∀ ψ ∈ c.refreshAccessToken.2.refreshes, ∀ token, ψ.outcome = some token → token = none := by
  cases hflight : c.refreshInFlight with
  | some p => rwa [Client.refreshAccessToken_of_some hflight]
  | none =>
    rw [Client.refreshAccessToken_of_none hflight]
    intro ψ hψ token htoken
    rcases List.mem_append.mp hψ with hψ | hψ
    · exact h ψ hψ token htoken
    · rw [List.mem_singleton.mp hψ] at htoken
      cases htoken

theorem outcomes_set {refreshes : List RefreshPhase} (h : ∀ ψ ∈ refreshes, ∀ token, ψ.outcome = some token → token = none)
    {p : ℕ} {φ : RefreshPhase} (hφ : ∀ token, φ.outcome = some token → token = none) :
    ∀ ψ ∈ refreshes.set p φ, ∀ token, ψ.outcome = some token → token = none := by
  intro ψ hψ
  rcases List.mem_or_eq_of_mem_set hψ with hψ | rfl
  · exact h ψ hψ
  · exact hφ

theorem outcomes_moves {c c' : Client Body δ} {e : Event Body δ} (hm : Client.Moves c e c')
    (h : ∀ ψ ∈ c.refreshes, ∀ token, ψ.outcome = some token → token = none)
    (hbrings : ∀ p token, e = .parseRefresh p (some token) → token = none) :
    ∀ ψ ∈ c'.refreshes, ∀ token, ψ.outcome = some token → token = none := by
  cases hm with
  | called a => exact h
  | asked => exact outcomes_refreshAccessToken h
  | rejected hidle hk => exact outcomes_refreshAccessToken h
  | moved hk hlate hless he hnote => rcases hnote with rfl | rfl <;> exact h
  | opened hp => exact outcomes_set h fun _ htoken => by cases htoken
  | lapsed hp hψ he => exact outcomes_set h fun _ htoken => (Option.some.inj htoken).symm
  | renewed hidle hp => exact outcomes_set h fun _ htoken => (Option.some.inj htoken) ▸ hbrings _ _ rfl
  | cleared hp => exact outcomes_set h fun token htoken => h _ (List.mem_of_getElem? hp) token htoken
  | retried hk hphase hp ht => exact h

theorem Unrenewed.moves (h : s.Unrenewed) {e : SiteEvent δ} (he : s.FindsNoSession env e) {s' : Site δ}
    (hm : Moves env sign s e s') : s'.Unrenewed := by
  cases hm with
  | ignored hno => exact h
  | @stepped e c hbrings hstep =>
    refine ⟨h.answers,outcomes_moves (Client.moves_of_step hstep) h.outcomes ?_⟩
    rintro p token rfl
    obtain ⟨a,ha,htoken⟩ := (Option.any_eq_true _ _).mp hbrings
    rw [← of_decide_eq_true htoken]
    exact h.answers a (List.mem_of_find?_eq_some ha)
  | tokenSet token => exact ⟨h.answers,h.outcomes⟩
  | loginHandled hpending => exact ⟨h.answers,h.outcomes⟩
  | @refreshHandled p ctx m cookie hpending =>
    refine ⟨fun a ha => ?_,h.outcomes⟩
    rcases List.mem_cons.mp ha with rfl | ha
    · exact refresh_no_session (he cookie hpending) p
    · exact h.answers a ha
  | replaced store cookie => exact ⟨h.answers,h.outcomes⟩

theorem Unrenewed.resends_eq_false (h : s.Unrenewed) (k : ℕ) : s.client.resends k = false := by
  rw [Bool.eq_false_iff]
  intro hresends
  unfold Client.resends at hresends
  split at hresends
  · obtain ⟨ψ,hψ,hrenews⟩ := (Option.any_eq_true _ _).mp hresends
    cases ψ with
    | settled token =>
      obtain rfl := h.outcomes _ (List.mem_of_getElem? hψ) token rfl
      cases hrenews
    | _ => cases hrenews
  · cases hresends

/-- A browser without a session that can be refreshed submits once and is counted once. -/
theorem counted_once_of_no_session (hunique : UniqueUsers store) (hattempts : failedAttempts userId store = some attempts)
    (hundisturbed : Along (next env sign) (Undisturbed env userId) (opened accessToken cookie store) events)
    (hsessions : Along (next env sign) (FindsNoSession env) (opened accessToken cookie store) events) :
    Always (next env sign) (CountsOnce userId attempts) (opened accessToken cookie store) events := by
  rw [always_countsOnce_iff hunique hattempts hundisturbed]
  have hstart : (opened accessToken cookie store : Site δ).Unrenewed := ⟨by simp [opened],by simp [opened]⟩
  refine (along_iff (A := FindsNoSession env) (Q := fun _ _ => True) (I := Unrenewed) (fun s e h _ => ?_)
    (fun s e h he _ => h.moves he (moves_next env sign s e)) hstart hsessions).mp (along_true _ events)
  refine iff_of_true trivial ?_
  unfold resubmits
  split
  · rw [h.resends_eq_false,Bool.and_false]
  · rfl

end

/-- Whatever the state of the client and the order of events, every submission is sent once exactly when none goes on
with a fresh token, and then, where only wrong passwords are submitted for the account and nothing else changes its
count, that rises by one with each. -/
theorem submissions_counted_once_iff (env : AuthEnv) (sign : AccessToken → String) (userId : Uuid)
    (accessToken cookie : Option String) (store : Store) (events : List (SiteEvent δ)) :
    (Always (next env sign) SendsOnce (opened accessToken cookie store) events ↔
      Along (next env sign) (fun s e => s.resubmits e = false) (opened accessToken cookie store) events) ∧
    ∀ attempts, UniqueUsers store → failedAttempts userId store = some attempts →
      Along (next env sign) (Undisturbed env userId) (opened accessToken cookie store) events →
      (Always (next env sign) (CountsOnce userId attempts) (opened accessToken cookie store) events ↔
        Along (next env sign) (fun s e => s.resubmits e = false) (opened accessToken cookie store) events) :=
  ⟨always_sendsOnce_iff,fun _ hunique hattempts hundisturbed => always_countsOnce_iff hunique hattempts hundisturbed⟩

/-- A guess, the answer to it, the refresh that the answer starts and the fetch that may follow. -/
def guess (token : Option String) : List (SiteEvent Unit) :=
  [.client (.call (authApi.login guessedLogin)),.handleLogin 0 { deviceFingerprint := "d" } { now := 1000 },
    .client (.respond 0 (some { status := 401 })),
    .handleRefresh 0 { deviceFingerprint := "d" } { now := 1001, rawToken := "fresh", newId := 6 },
    .client (.respondRefresh 0 (some true)),.client (.parseRefresh 0 (some token)),.client (.runFinally 0),
    .client (.resume 0),.handleLogin 0 { deviceFingerprint := "d" } { now := 1002 }]

/-- Without a cookie the guess counts once. -/
theorem submissions_counted_once_iff_noCookie :
    Always (next plainEnv AccessToken.email) (CountsOnce 1 0) (opened none none verifiedStore) (guess none) :=
  ((submissions_counted_once_iff plainEnv AccessToken.email 1 none none verifiedStore (guess none)).2 0
    (by unfold UniqueUsers; decide) rfl (by decide +kernel)).mpr (by decide +kernel)

/-- The account with a session from before. -/
def rememberedStore : Store :=
  { verifiedStore with
    identity.sessions :=
      [{ id := 5, userId := 1, refreshTokenHash := "kept", deviceFingerprint := "d", lastActiveAt := 0, expiresAt := 5000 }] }

/-- The page after a guess, with a cookie that still opens the session. -/
def rememberedGuess : Site Unit :=
  (guess (some "ana@example.com")).foldl (next plainEnv AccessToken.email) (opened none (some "kept") rememberedStore)

/-- The one submission has been sent twice and has counted twice. -/
theorem remembered_guess_counts_twice :
    rememberedGuess.client.calls.map Call.path = ["/auth/login"] ∧ ¬ rememberedGuess.SendsOnce ∧
      Client.sends 0 rememberedGuess.client.trace = 2 ∧ failedAttempts 1 rememberedStore = some 0 ∧
      failedAttempts 1 rememberedGuess.store = some 2 :=
  ⟨by decide +kernel,fun h => absurd (h 0 (by decide +kernel)) (by decide +kernel),by decide +kernel,rfl,by decide +kernel⟩

end Site
end PinoyTax.Web
