import PinoyTax.Foundation.Calendar
import PinoyTax.Schema.Prisma

/-! # AuthService

What comes from outside the service is a parameter: the hash functions, the case
mapping of addresses, the configuration, and per request the clock and the random
values. An access token is its signed payload. Mails are sent on the side and change
nothing the service reads.
-/
namespace PinoyTax.Identity
open PinoyTax Foundation

structure AuthEnv where
  toLowerCase : String → String
  hashToken : String → String
  verifyPassword : String → String → Bool
  hashPassword : String → String
  maxFailedLoginAttempts : Option ℕ := none
  accountLockDurationMinutes : Option ℕ := none
  refreshTokenExpiresIn : Option String := none
  refreshTokenExpiresInRememberMe : Option String := none

structure LoginDto where
  email : String
  password : String
  rememberMe : Option Bool := none
deriving DecidableEq, Repr

structure LoginContext where
  ipAddress : Option String := none
  userAgent : Option String := none
  deviceFingerprint : String
  deviceName : Option String := none
deriving DecidableEq, Repr

structure AccessToken where
  sub : Uuid
  email : String
deriving DecidableEq, Repr

structure TokenPair where
  accessToken : AccessToken
  refreshToken : String
deriving DecidableEq, Repr

structure SignedInUser where
  id : Uuid
  email : String
deriving DecidableEq, Repr

structure LoginReply where
  tokens : TokenPair
  user : SignedInUser
deriving DecidableEq, Repr

/-- The clock, the fresh random token and the id of the new row of one request. A login
that locks the account reads the clock once more. -/
structure Moment where
  now : DateTime
  rawToken : String := ""
  newId : Uuid := 0
  lockNow : DateTime := now
deriving DecidableEq, Repr

def passwordResetTtlMs : ℤ := 60 * 60 * 1000

def invalidCredentials : ApiException := .unauthorized "INVALID_CREDENTIALS" "Incorrect email or password."
def accountLocked (lockedUntil : DateTime) : ApiException :=
  .unauthorized "ACCOUNT_LOCKED"
    ("Your account is temporarily locked. Please try again after " ++ Calendar.toISOString lockedUntil ++ ".")
def emailNotVerified : ApiException :=
  .unauthorized "EMAIL_NOT_VERIFIED" "Please verify your email address before logging in."
def invalidRefreshToken : ApiException :=
  .unauthorized "INVALID_REFRESH_TOKEN" "Your session has expired. Please log in again."
def invalidVerificationToken : ApiException :=
  .unauthorized "INVALID_OR_EXPIRED_TOKEN" "This verification link is invalid or has expired."
def invalidResetToken : ApiException :=
  .unauthorized "INVALID_OR_EXPIRED_TOKEN" "This password reset link is invalid or has expired."

/-- A duration such as `15m` or `7d`; anything else is seven days. -/
def parseDurationMs (duration : String) : ℤ :=
  let chars := duration.toList
  let digits := chars.dropLast
  let unitMs : Option ℤ := match chars.getLast? with
    | some 's' => some 1000
    | some 'm' => some (60 * 1000)
    | some 'h' => some (60 * 60 * 1000)
    | some 'd' => some (24 * 60 * 60 * 1000)
    | _ => none
  match unitMs with
  | some ms =>
    if !digits.isEmpty && digits.all Char.isDigit then
      digits.foldl (fun value c => value * 10 + ((c.toNat - '0'.toNat : ℕ) : ℤ)) 0 * ms
    else 7 * 24 * 60 * 60 * 1000
  | none => 7 * 24 * 60 * 60 * 1000

section
variable (env : AuthEnv)

def recordLoginAttempt (userId : Uuid) (status : LoginStatus) (ctx : LoginContext) : Request Unit := do
  let _ ← Prisma.loginHistory.create ⟨userId,status,ctx.ipAddress,ctx.userAgent⟩
  pure ()

def lockUser (lockedUntil : DateTime) (u : User) : User :=
  { u with status := .locked, lockedUntil := some lockedUntil }

def countFailure (u : User) : User := { u with failedLoginAttempts := u.failedLoginAttempts + 1 }

def maxAttempts : ℕ := env.maxFailedLoginAttempts.getD 5

def lockMinutes : ℤ := env.accountLockDurationMinutes.getD 15

def handleFailedLogin (userId : Uuid) (ctx : LoginContext) (m : Moment) : Request Unit := do
  let user ← Prisma.user.update (fun u => u.id = userId) countFailure
  recordLoginAttempt userId .failed_password ctx
  if maxAttempts env ≤ user.failedLoginAttempts then do
    let lockedUntil := m.lockNow + lockMinutes env * 60 * 1000
    let _ ← Prisma.user.update (fun u => u.id = userId) (lockUser lockedUntil)
    let _ ← Prisma.securityEvent.create ⟨userId,"account_locked",lockedUntil⟩
    pure ()
  else pure ()

def issueTokenPair (userId : Uuid) (email : String) (ctx : LoginContext) (rememberMe : Bool) (m : Moment) :
    Request TokenPair := do
  let expiresInConfig := if rememberMe then env.refreshTokenExpiresInRememberMe else env.refreshTokenExpiresIn
  let _ ← Prisma.session.create
    { id := m.newId
      userId := userId
      refreshTokenHash := env.hashToken m.rawToken
      deviceFingerprint := ctx.deviceFingerprint
      deviceName := ctx.deviceName
      ipAddress := ctx.ipAddress
      userAgent := ctx.userAgent
      isRememberMe := rememberMe
      lastActiveAt := m.now
      expiresAt := m.now + parseDurationMs (expiresInConfig.getD "7d") }
  pure ⟨⟨userId,email⟩,m.rawToken⟩

/-- A lock that has not run out. -/
def lockedAt (u : User) (now : DateTime) : Option DateTime :=
  if u.status = .locked then u.lockedUntil.filter (fun t => decide (now < t)) else none

def passwordValid (u : User) (password : String) : Bool :=
  u.passwordHash.any (fun h => env.verifyPassword h password)

/-- The row of a user after a successful login. -/
def resetAttempts (u : User) : User :=
  { u with failedLoginAttempts := 0, lockedUntil := none, status := .active }

def login (dto : LoginDto) (ctx : LoginContext) (m : Moment) : Request LoginReply := do
  match ← Prisma.user.findUnique (fun u => u.email = env.toLowerCase dto.email) with
  | none => .throw invalidCredentials
  | some user =>
    match lockedAt user m.now with
    | some lockedUntil => do
      recordLoginAttempt user.id .failed_locked ctx
      .throw (accountLocked lockedUntil)
    | none =>
      if !user.isEmailVerified then do
        recordLoginAttempt user.id .failed_unverified ctx
        .throw emailNotVerified
      else if !passwordValid env user dto.password then do
        handleFailedLogin env user.id ctx m
        .throw invalidCredentials
      else do
        let _ ← Prisma.user.update (fun u => u.id = user.id) resetAttempts
        recordLoginAttempt user.id .success ctx
        let tokens ← issueTokenPair env user.id user.email ctx (dto.rememberMe.getD false) m
        pure ⟨tokens,⟨user.id,user.email⟩⟩

/-- A session that a refresh token still opens. -/
def isLive (hash : String) (now : DateTime) (s : Session) : Bool :=
  decide (s.refreshTokenHash = hash) && s.revokedAt.isNone && decide (now < s.expiresAt)

theorem isLive_eq_true {hash : String} {now : DateTime} {s : Session} :
    isLive hash now s = true ↔ s.refreshTokenHash = hash ∧ s.revokedAt = none ∧ now < s.expiresAt := by
  simp [isLive,and_assoc]

def rotate (now : DateTime) (s : Session) : Session := { s with revokedAt := some now, lastActiveAt := now }

def revoke (now : DateTime) (s : Session) : Session := { s with revokedAt := some now }

def refresh (rawRefreshToken : String) (ctx : LoginContext) (m : Moment) : Request TokenPair := do
  match ← Prisma.session.findFirst (isLive (env.hashToken rawRefreshToken) m.now) with
  | none => .throw invalidRefreshToken
  | some session => do
    let user ← orThrow .database (← Prisma.user.findUnique (fun u => u.id = session.userId))
    let _ ← Prisma.session.update (fun s => s.id = session.id) (rotate m.now)
    issueTokenPair env user.id user.email ctx session.isRememberMe m

def logout (rawRefreshToken : String) (m : Moment) : Request Unit :=
  Prisma.session.updateMany
    (fun s => decide (s.refreshTokenHash = env.hashToken rawRefreshToken) && s.revokedAt.isNone) (revoke m.now)

def revokeSession (userId sessionId : Uuid) (m : Moment) : Request Unit :=
  Prisma.session.updateMany
    (fun s => decide (s.id = sessionId) && decide (s.userId = userId) && s.revokedAt.isNone) (revoke m.now)

def forgotPassword (email : String) (m : Moment) : Request Unit := do
  match ← Prisma.user.findUnique (fun u => u.email = env.toLowerCase email) with
  | none => pure ()
  | some user => do
    let _ ← Prisma.passwordResetToken.create
      { id := m.newId
        userId := user.id
        tokenHash := env.hashToken m.rawToken
        expiresAt := m.now + passwordResetTtlMs }
    pure ()

/-- A mailed token that has been neither used nor outlived. -/
def isUsable (hash : String) (now : DateTime) (t : MailedToken) : Bool :=
  decide (t.tokenHash = hash) && t.usedAt.isNone && decide (now < t.expiresAt)

theorem isUsable_eq_true {hash : String} {now : DateTime} {t : MailedToken} :
    isUsable hash now t = true ↔ t.tokenHash = hash ∧ t.usedAt = none ∧ now < t.expiresAt := by
  simp [isUsable,and_assoc]

def markUsed (now : DateTime) (t : MailedToken) : MailedToken := { t with usedAt := some now }

/-- The row of a user after a password reset. -/
def resetRow (passwordHash : String) (u : User) : User :=
  { u with
    passwordHash := some passwordHash
    failedLoginAttempts := 0
    lockedUntil := none
    status := .active }

def resetPassword (token newPassword : String) (m : Moment) : Request Unit := do
  match ← Prisma.passwordResetToken.findFirst (isUsable (env.hashToken token) m.now) with
  | none => .throw invalidResetToken
  | some record =>
    transaction do
      let _ ← Prisma.passwordResetToken.update (fun t => t.id = record.id) (markUsed m.now)
      let _ ← Prisma.user.update (fun u => u.id = record.userId) (resetRow (env.hashPassword newPassword))
      Prisma.session.updateMany (fun s => decide (s.userId = record.userId) && s.revokedAt.isNone) (revoke m.now)

def setVerified (u : User) : User := { u with isEmailVerified := true }

def verifyEmail (token : String) (m : Moment) : Request Unit := do
  match ← Prisma.emailVerificationToken.findFirst (isUsable (env.hashToken token) m.now) with
  | none => .throw invalidVerificationToken
  | some record =>
    transaction do
      let _ ← Prisma.emailVerificationToken.update (fun t => t.id = record.id) (markUsed m.now)
      let _ ← Prisma.user.update (fun u => u.id = record.userId) setVerified
      pure ()

end

def sessionNoLongerValid : ApiException := .unauthorized "UNAUTHORIZED" "Your session is no longer valid."

/-- `JwtStrategy.validate` on the payload of an access token. -/
def validate (payload : AccessToken) : Request SignedInUser := do
  match ← Prisma.user.findUnique (fun u => u.id = payload.sub) with
  | none => .throw sessionNoLongerValid
  | some user =>
    if user.status ≠ .active then .throw sessionNoLongerValid
    else pure ⟨user.id,user.email⟩

end PinoyTax.Identity
