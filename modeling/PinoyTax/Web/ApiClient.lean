import Mathlib.Data.List.Infix
import Mathlib.Tactic.Common

/-! # The API client of the browser

The module holds the access token and the promise of the refresh in flight. A call of
`request` stands still at each `await`; an event is what lets one of them go on. The
responses and the bodies come from the network, one at a time and only when the
continuations of settled promises have all run; these are events of their own. The
trace, the latest entry first, says what was sent and what came back.
-/
namespace PinoyTax.Web

structure ApiErrorShape where
  code : String
  message : String
deriving DecidableEq, Repr

/-- `{ data, errors }` of the body of a response. -/
structure Envelope (δ : Type) where
  data : Option δ := none
  errors : List ApiErrorShape := []
deriving DecidableEq, Repr

inductive Method
  | GET | POST | PATCH | PUT | DELETE
deriving DecidableEq, Repr

structure RequestOptions (β : Type) where
  method : Method := .GET
  body : Option β := none
  isFormData : Bool := false
  skipAuthRetry : Bool := false
deriving DecidableEq, Repr

/-- What `fetch` is called with. -/
structure FetchRequest (β : Type) where
  path : String
  method : Method
  authorization : Option String
  contentType : Option String
  body : Option β
deriving DecidableEq, Repr

/-- The status and the content type, which are there before the body is. -/
structure FetchResponse where
  status : ℕ
  contentType : Option String := some "application/json"
deriving DecidableEq, Repr

def FetchResponse.ok (res : FetchResponse) : Bool := decide (200 ≤ res.status ∧ res.status ≤ 299)

def FetchResponse.isJson (res : FetchResponse) : Bool :=
  decide ("application/json".toList <:+: (res.contentType.getD "").toList)

/-- What a call rejects with: an `ApiError`, or the error of `fetch` or of the parser. -/
inductive ClientError
  | apiError (status : ℕ) (error : ApiErrorShape)
  | failure
deriving DecidableEq, Repr

/-- Where a call of `request` stands. -/
inductive Phase (δ : Type)
  | fetching (skipAuthRetry : Bool)
  | refreshing (refresh : ℕ) (res : FetchResponse)
  | parsing (res : FetchResponse)
  | settled (result : Except ClientError (Option δ))

structure Call (β δ : Type) where
  path : String
  options : RequestOptions β
  phase : Phase δ

/-- Where a call of `rawRefresh` stands. It has returned before its `finally` has run. -/
inductive RefreshPhase
  | fetching
  | parsing
  | returned (token : Option String)
  | settled (token : Option String)
deriving DecidableEq, Repr

inductive Entry (β : Type)
  | fetched (call : ℕ) (request : FetchRequest β)
  | unauthorized (call : ℕ)
  | refreshFetched (refresh : ℕ)
  | refreshed (refresh : ℕ) (token : Option String)
deriving DecidableEq, Repr

structure Client (β δ : Type) where
  accessToken : Option String := none
  refreshInFlight : Option ℕ := none
  calls : List (Call β δ) := []
  refreshes : List RefreshPhase := []
  trace : List (Entry β) := []

/-- `api.get`, `api.post` and the others. -/
inductive ApiCall (β : Type)
  | get (path : String)
  | post (path : String) (body : Option β)
  | patch (path : String) (body : Option β)
  | put (path : String) (body : Option β)
  | delete (path : String)
  | postForm (path : String) (formData : β)
deriving DecidableEq, Repr

inductive Event (β δ : Type)
  | call (a : ApiCall β)
  | refreshAccessToken
  | respond (call : ℕ) (res : Option FetchResponse)
  | parse (call : ℕ) (body : Option (Envelope δ))
  | respondRefresh (refresh : ℕ) (ok : Option Bool)
  | parseRefresh (refresh : ℕ) (accessToken : Option (Option String))
  | runFinally (refresh : ℕ)
  | resume (call : ℕ)
deriving DecidableEq, Repr

section
variable {β δ : Type}

def ApiCall.path : ApiCall β → String
  | get path => path
  | post path _ => path
  | patch path _ => path
  | put path _ => path
  | delete path => path
  | postForm path _ => path

def ApiCall.options : ApiCall β → RequestOptions β
  | get _ => { method := .GET }
  | post _ body => { method := .POST, body := body }
  | patch _ body => { method := .PATCH, body := body }
  | put _ body => { method := .PUT, body := body }
  | delete _ => { method := .DELETE }
  | postForm _ formData => { method := .POST, body := some formData, isFormData := true }

/-- A token that `if (token)` takes. -/
def truthy (token : Option String) : Option String := token.filter (· ≠ "")

def fetchRequest (accessToken : Option String) (path : String) (options : RequestOptions β) : FetchRequest β where
  path := path
  method := options.method
  authorization := (truthy accessToken).map fun token => "Bearer " ++ token
  contentType := if !options.isFormData && options.body.isSome then some "application/json" else none
  body := options.body

def unknownError : ApiErrorShape := ⟨"UNKNOWN_ERROR","Something went wrong."⟩

/-- The end of `request`. -/
def conclude (res : FetchResponse) (envelope : Envelope δ) : Except ClientError (Option δ) :=
  if !res.ok then .error (.apiError res.status (envelope.errors.head?.getD unknownError)) else .ok envelope.data

/-- Where the body is JSON it is waited for. -/
def received (res : FetchResponse) : Phase δ := if res.isJson then .parsing res else .settled (conclude res {})

/-- What a refresh has returned, if it has. -/
def RefreshPhase.outcome : RefreshPhase → Option (Option String)
  | fetching => none
  | parsing => none
  | returned token => some token
  | settled token => some token

def RefreshPhase.isReturned : RefreshPhase → Bool
  | returned _ => true
  | _ => false

def RefreshPhase.isSettled : RefreshPhase → Bool
  | settled _ => true
  | _ => false

namespace Client

def note (e : Entry β) (c : Client β δ) : Client β δ := { c with trace := e :: c.trace }

def setPhase (k : ℕ) (φ : Phase δ) (c : Client β δ) : Client β δ :=
  { c with calls := c.calls.modify k fun call => { call with phase := φ } }

def setRefresh (p : ℕ) (φ : RefreshPhase) (c : Client β δ) : Client β δ := { c with refreshes := c.refreshes.set p φ }

def phaseOf (c : Client β δ) (k : ℕ) : Option (Phase δ) := (c.calls[k]?).map Call.phase

/-- The call waits for a refresh that is settled: its continuation is due. -/
def isWoken (c : Client β δ) (call : Call β δ) : Bool :=
  match call.phase with
  | .refreshing p _ => (c.refreshes[p]?).any RefreshPhase.isSettled
  | _ => false

/-- No continuation is due. -/
def idle (c : Client β δ) : Bool := !c.refreshes.any RefreshPhase.isReturned && !c.calls.any c.isWoken

/-- `request(path, options)` up to its first `await`. -/
def request (a : ApiCall β) (c : Client β δ) : Client β δ :=
  { c with
    calls := c.calls ++ [⟨a.path,a.options,.fetching a.options.skipAuthRetry⟩]
    trace := .fetched c.calls.length (fetchRequest c.accessToken a.path a.options) :: c.trace }

/-- `refreshAccessToken()`: the refresh that the caller waits for. -/
def refreshAccessToken (c : Client β δ) : ℕ × Client β δ :=
  match c.refreshInFlight with
  | some p => (p,c)
  | none => (c.refreshes.length,{ c with
      refreshInFlight := some c.refreshes.length
      refreshes := c.refreshes ++ [.fetching]
      trace := .refreshFetched c.refreshes.length :: c.trace })

/-- What a call does with a response. A first 401 makes it wait for a refresh. -/
def respond (k : ℕ) (skipAuthRetry : Bool) (res : FetchResponse) (c : Client β δ) : Client β δ :=
  if res.status = 401 then
    if skipAuthRetry then (c.note (.unauthorized k)).setPhase k (received res)
    else (c.note (.unauthorized k)).refreshAccessToken.2.setPhase k
      (.refreshing (c.note (.unauthorized k)).refreshAccessToken.1 res)
  else c.setPhase k (received res)

/-- `rawRefresh` returns. -/
def returnRefresh (p : ℕ) (token : Option String) (c : Client β δ) : Client β δ :=
  (c.note (.refreshed p token)).setRefresh p (.returned token)

/-- `return request(path, { ...options, skipAuthRetry: true })`, or on with the 401. -/
def resume (k : ℕ) (call : Call β δ) (res : FetchResponse) (newToken : Option String) (c : Client β δ) : Client β δ :=
  match truthy newToken with
  | some _ => (c.note (.fetched k (fetchRequest c.accessToken call.path call.options))).setPhase k (.fetching true)
  | none => c.setPhase k (received res)

/-- The client after an event that can happen now. -/
def step (c : Client β δ) : Event β δ → Option (Client β δ)
  | .call a => some (c.request a)
  | .refreshAccessToken => some c.refreshAccessToken.2
  | .respond k res =>
    match c.idle,c.phaseOf k,res with
    | true,some (.fetching _),none => some (c.setPhase k (.settled (.error .failure)))
    | true,some (.fetching skipAuthRetry),some res => some (c.respond k skipAuthRetry res)
    | _,_,_ => none
  | .parse k body =>
    match c.idle,c.phaseOf k,body with
    | true,some (.parsing _),none => some (c.setPhase k (.settled (.error .failure)))
    | true,some (.parsing res),some envelope => some (c.setPhase k (.settled (conclude res envelope)))
    | _,_,_ => none
  | .respondRefresh p ok =>
    match c.idle,c.refreshes[p]?,ok with
    | true,some .fetching,some true => some (c.setRefresh p .parsing)
    | true,some .fetching,_ => some (c.returnRefresh p none)
    | _,_,_ => none
  | .parseRefresh p body =>
    match c.idle,c.refreshes[p]?,body with
    | true,some .parsing,some token => some ({ c with accessToken := token }.returnRefresh p token)
    | true,some .parsing,none => some (c.returnRefresh p none)
    | _,_,_ => none
  | .runFinally p =>
    match c.refreshes[p]? with
    | some (.returned token) => some ({ c with refreshInFlight := none }.setRefresh p (.settled token))
    | _ => none
  | .resume k =>
    match c.calls[k]? with
    | some call =>
      match call.phase with
      | .refreshing p res =>
        match c.refreshes[p]? with
        | some (.settled newToken) => some (c.resume k call res newToken)
        | _ => none
      | _ => none
    | none => none

/-- An event that cannot happen changes nothing. -/
def next (c : Client β δ) (e : Event β δ) : Client β δ := (c.step e).getD c

/-- The fetches of a call in a trace. -/
def isFetchOf (k : ℕ) : Entry β → Bool
  | .fetched j _ => decide (j = k)
  | _ => false

def sends (k : ℕ) (trace : List (Entry β)) : ℕ := trace.countP (isFetchOf k)

/-! ## Views of the parts of a step -/

variable {c : Client β δ} {j k p q : ℕ} {φ : Phase δ} {ψ : RefreshPhase} {e : Entry β} {token : Option String}

@[simp] theorem phaseOf_note : (c.note e).phaseOf k = c.phaseOf k := rfl
@[simp] theorem refreshes_note : (c.note e).refreshes = c.refreshes := rfl
@[simp] theorem refreshInFlight_note : (c.note e).refreshInFlight = c.refreshInFlight := rfl
@[simp] theorem trace_note : (c.note e).trace = e :: c.trace := rfl
@[simp] theorem calls_note : (c.note e).calls = c.calls := rfl

@[simp] theorem refreshes_setPhase : (c.setPhase k φ).refreshes = c.refreshes := rfl
@[simp] theorem refreshInFlight_setPhase : (c.setPhase k φ).refreshInFlight = c.refreshInFlight := rfl
@[simp] theorem trace_setPhase : (c.setPhase k φ).trace = c.trace := rfl
@[simp] theorem accessToken_setPhase : (c.setPhase k φ).accessToken = c.accessToken := rfl
@[simp] theorem length_calls_setPhase : (c.setPhase k φ).calls.length = c.calls.length := by
  rw [setPhase,List.length_modify]

theorem phaseOf_setPhase (c : Client β δ) (k j : ℕ) (φ : Phase δ) :
    (c.setPhase k φ).phaseOf j = if k = j then (c.phaseOf j).map fun _ => φ else c.phaseOf j := by
  unfold phaseOf setPhase
  rw [List.getElem?_modify]
  cases c.calls[j]? with
  | none => split <;> rfl
  | some call => split <;> rfl

theorem phaseOf_setPhase_self (h : (c.phaseOf k).isSome = true) : (c.setPhase k φ).phaseOf k = some φ := by
  obtain ⟨ψ,hψ⟩ := Option.isSome_iff_exists.mp h
  rw [phaseOf_setPhase,if_pos rfl,hψ]
  rfl

theorem phaseOf_setPhase_ne (h : k ≠ j) : (c.setPhase k φ).phaseOf j = c.phaseOf j := by
  rw [phaseOf_setPhase,if_neg h]

@[simp] theorem phaseOf_setRefresh : (c.setRefresh p ψ).phaseOf k = c.phaseOf k := rfl
@[simp] theorem calls_setRefresh : (c.setRefresh p ψ).calls = c.calls := rfl
@[simp] theorem refreshInFlight_setRefresh : (c.setRefresh p ψ).refreshInFlight = c.refreshInFlight := rfl
@[simp] theorem trace_setRefresh : (c.setRefresh p ψ).trace = c.trace := rfl
@[simp] theorem accessToken_setRefresh : (c.setRefresh p ψ).accessToken = c.accessToken := rfl
@[simp] theorem length_refreshes_setRefresh : (c.setRefresh p ψ).refreshes.length = c.refreshes.length := List.length_set

theorem refreshes_setRefresh (c : Client β δ) (p q : ℕ) (ψ : RefreshPhase) :
    (c.setRefresh p ψ).refreshes[q]? = if p = q then (c.refreshes[q]?).map fun _ => ψ else c.refreshes[q]? := by
  unfold setRefresh
  rw [List.getElem?_set']
  rfl

theorem phaseOf_lt (h : (c.phaseOf k).isSome = true) : k < c.calls.length := by
  unfold phaseOf at h
  rw [Option.isSome_map] at h
  exact (List.getElem?_eq_some_iff.mp (Option.isSome_iff_exists.mp h).choose_spec).1

theorem phaseOf_isSome (h : k < c.calls.length) : (c.phaseOf k).isSome = true := by
  rw [phaseOf,Option.isSome_map,List.getElem?_eq_getElem h]
  rfl

/-- A new call is the last one. -/
theorem phaseOf_request (a : ApiCall β) (c : Client β δ) (k : ℕ) : (c.request a).phaseOf k =
    if k = c.calls.length then some (.fetching a.options.skipAuthRetry) else c.phaseOf k := by
  unfold phaseOf request
  dsimp only
  rcases Nat.lt_trichotomy k c.calls.length with hlt | rfl | hgt
  · rw [List.getElem?_append_left hlt,if_neg (Nat.ne_of_lt hlt)]
  · rw [List.getElem?_concat_length,if_pos rfl]
    rfl
  · rw [List.getElem?_eq_none (by rw [List.length_append]; exact hgt),if_neg (Nat.ne_of_gt hgt),
      List.getElem?_eq_none (Nat.le_of_lt hgt)]

end Client
end
end PinoyTax.Web
