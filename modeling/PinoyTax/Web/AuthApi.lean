import PinoyTax.Identity.AuthService
import PinoyTax.Web.ApiClient

/-! # The browser and the authentication endpoints

`authApi.login` is a call of the client like any other. The browser sends each fetch with
the refresh cookie it holds, the controllers run the service, and the answers travel
back on their own. What comes before a handler can answer in its place, but not with a
401. The signature of an access token is a parameter.
-/
namespace PinoyTax
open Foundation

/-- The status that the exception filter answers with. -/
def ApiException.status (e : ApiException) : ℕ :=
  match e.kind with
  | .badRequest => 400
  | .unauthorized => 401
  | .forbidden => 403
  | .notFound => 404
  | .conflict => 409
  | .serviceUnavailable => 503
  | .database => 500

namespace Identity.AuthController
open Identity

structure RefreshCookie where
  token : String
  maxAge : ℤ
deriving DecidableEq, Repr

def setRefreshCookie (token : String) (rememberMe : Bool) : RefreshCookie :=
  ⟨token,if rememberMe then 30 * 24 * 60 * 60 * 1000 else 7 * 24 * 60 * 60 * 1000⟩

structure LoginResponse where
  accessToken : AccessToken
  user : SignedInUser
deriving DecidableEq, Repr

section
variable (env : AuthEnv)

/-- `POST /auth/login` -/
def login (dto : LoginDto) (ctx : LoginContext) (m : Moment) : Request (LoginResponse × RefreshCookie) := do
  let result ← Identity.login env dto ctx m
  pure (⟨result.tokens.accessToken,result.user⟩,
    setRefreshCookie result.tokens.refreshToken (dto.rememberMe.getD false))

/-- `POST /auth/refresh` with the cookie of the request -/
def refresh (cookie : Option String) (ctx : LoginContext) (m : Moment) :
    Request (Option AccessToken × Option RefreshCookie) :=
  match cookie.filter (· ≠ "") with
  | none => pure (none,none)
  | some refreshToken => do
    let result ← Identity.refresh env refreshToken ctx m
    pure (some result.accessToken,some (setRefreshCookie result.refreshToken true))

end
end Identity.AuthController

namespace Web
open Identity

inductive Body
  | credentials (input : LoginDto)
  | other (json : String)
deriving DecidableEq, Repr

/-- `authApi.login` -/
def authApi.login (input : LoginDto) : ApiCall Body := .post "/auth/login" (some (.credentials input))

/-- What a call sends to `POST /auth/login`, if it is one of `authApi.login`. -/
def loginInput (path : String) (options : RequestOptions Body) : Option LoginDto :=
  if path = "/auth/login" ∧ options.method = .POST then
    match options.body with
    | some (.credentials input) => some input
    | _ => none
  else none

/-- The answer of the login handler to a fetch of a call. `wrongFor` notes whose password it was not. -/
structure LoginAnswer where
  call : ℕ
  status : ℕ
  cookie : Option AuthController.RefreshCookie
  wrongFor : Option Uuid
deriving DecidableEq, Repr

structure RefreshAnswer where
  refresh : ℕ
  ok : Bool
  accessToken : Option String
  cookie : Option AuthController.RefreshCookie
deriving DecidableEq, Repr

/-- A tab of the browser with the server. `carried` holds the cookie that each refresh was sent with. -/
structure Site (δ : Type) where
  client : Client Body δ := {}
  store : Store := {}
  cookie : Option String := none
  carried : List (Option String) := []
  loginAnswers : List LoginAnswer := []
  refreshAnswers : List RefreshAnswer := []

/-- What happens in the tab, what the handlers do, and what happens elsewhere, in other tabs too. -/
inductive SiteEvent (δ : Type)
  | client (e : Event Body δ)
  | setAccessToken (token : Option String)
  | handleLogin (call : ℕ) (ctx : LoginContext) (m : Moment)
  | handleRefresh (refresh : ℕ) (ctx : LoginContext) (m : Moment)
  | elsewhere (store : Store) (cookie : Option String)

/-- The account that the handler looks up, if its password is compared and found wrong. -/
def wrongFor (env : AuthEnv) (input : LoginDto) (now : DateTime) (s : Store) : Option Uuid :=
  ((s.identity.users.find? (fun u => u.email = env.toLowerCase input.email)).filter fun u =>
    (lockedAt u now).isNone && u.isEmailVerified && !passwordValid env u input.password).map User.id

namespace Site
variable {δ : Type}

def inputOf (s : Site δ) (k : ℕ) : Option LoginDto :=
  (s.client.calls[k]?).bind fun call => loginInput call.path call.options

/-- How many fetches of the call the login handler has answered. -/
def handled (s : Site δ) (k : ℕ) : ℕ := s.loginAnswers.countP fun a => decide (a.call = k)

/-- The answer to the latest fetch of the call. -/
def loginAnswer (s : Site δ) (k : ℕ) : Option LoginAnswer :=
  if s.handled k = Client.sends k s.client.trace then s.loginAnswers.find? fun a => decide (a.call = k) else none

def refreshAnswer (s : Site δ) (p : ℕ) : Option RefreshAnswer :=
  s.refreshAnswers.find? fun a => decide (a.refresh = p)

/-- An answer that is not the handler's. -/
def isForeign (status : ℕ) : Bool := decide (status ≠ 401) && !decide (200 ≤ status ∧ status ≤ 299)

/-- The answers that arrive are those that were given. -/
def brings (s : Site δ) : Event Body δ → Bool
  | .respond k (some res) =>
    (s.inputOf k).isNone || isForeign res.status || (s.loginAnswer k).any fun a => decide (a.status = res.status)
  | .respondRefresh p (some true) => (s.refreshAnswer p).any RefreshAnswer.ok
  | .parseRefresh p (some token) => (s.refreshAnswer p).any fun a => decide (a.accessToken = token)
  | _ => true

/-- The cookie that comes with an answer. -/
def cookieSet (s : Site δ) : Event Body δ → Option AuthController.RefreshCookie
  | .respond k (some res) => ((s.loginAnswer k).filter fun a => decide (a.status = res.status)).bind LoginAnswer.cookie
  | .respondRefresh p (some true) => (s.refreshAnswer p).bind RefreshAnswer.cookie
  | _ => none

/-- The tab after an event of the client, with the cookie that a new refresh is sent with. -/
def move (s : Site δ) (e : Event Body δ) (c : Client Body δ) : Site δ :=
  { s with
    client := c
    cookie := ((s.cookieSet e).map AuthController.RefreshCookie.token).or s.cookie
    carried := s.carried ++ List.replicate (c.refreshes.length - s.client.refreshes.length) s.cookie }

/-- The input of a fetch to `POST /auth/login` that the handler has not answered. -/
def pendingLogin (s : Site δ) (k : ℕ) : Option LoginDto :=
  if s.handled k < Client.sends k s.client.trace then s.inputOf k else none

/-- The cookie of a refresh that the handler has not answered. -/
def pendingRefresh (s : Site δ) (p : ℕ) : Option (Option String) :=
  if (s.refreshAnswer p).isNone then s.carried[p]? else none

def loginAnswerOf (k : ℕ) (wrongFor : Option Uuid) :
    Except ApiException (AuthController.LoginResponse × AuthController.RefreshCookie) → LoginAnswer
  | .ok reply => ⟨k,200,some reply.2,wrongFor⟩
  | .error e => ⟨k,e.status,none,wrongFor⟩

section
variable (env : AuthEnv) (sign : AccessToken → String)

def refreshAnswerOf (p : ℕ) :
    Except ApiException (Option AccessToken × Option AuthController.RefreshCookie) → RefreshAnswer
  | .ok reply => ⟨p,true,reply.1.map sign,reply.2⟩
  | .error _ => ⟨p,false,none,none⟩

/-- An event that cannot happen changes nothing. -/
def next (s : Site δ) : SiteEvent δ → Site δ
  | .client e =>
    match s.brings e,s.client.step e with
    | true,some c => s.move e c
    | _,_ => s
  | .setAccessToken token => { s with client := { s.client with accessToken := token } }
  | .handleLogin k ctx m =>
    match s.pendingLogin k with
    | some input =>
      { s with
        store := ((AuthController.login env input ctx m).run s.store).2
        loginAnswers := loginAnswerOf k (wrongFor env input m.now s.store)
          ((AuthController.login env input ctx m).run s.store).1 :: s.loginAnswers }
    | none => s
  | .handleRefresh p ctx m =>
    match s.pendingRefresh p with
    | some cookie =>
      { s with
        store := ((AuthController.refresh env cookie ctx m).run s.store).2
        refreshAnswers := refreshAnswerOf sign p ((AuthController.refresh env cookie ctx m).run s.store).1 ::
          s.refreshAnswers }
    | none => s
  | .elsewhere store cookie => { s with store := store, cookie := cookie }

end
end Site
end Web
end PinoyTax
