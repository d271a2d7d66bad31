import PinoyTax.Identity.AuthService

/-! # Registration, and the list of sessions

An account is registered with an address that nobody has confirmed yet, and a token is mailed
to it. The list of sessions is what a user ends one from.
-/
namespace PinoyTax.Identity
open PinoyTax Foundation

def emailVerificationTtlMs : ℤ := 24 * 60 * 60 * 1000

def registrationFailed : ApiException :=
  .conflict "REGISTRATION_FAILED" "Unable to complete registration with the provided details."

structure RegisterDto where
  email : String
  password : String
  phoneNumber : Option String := none
deriving DecidableEq, Repr

section
variable (env : AuthEnv)

def issueEmailVerification (userId : Uuid) (m : Moment) : Request Unit := do
  let _ ← Prisma.emailVerificationToken.create
    { id := m.newId
      userId := userId
      tokenHash := env.hashToken m.rawToken
      expiresAt := m.now + emailVerificationTtlMs }
  pure ()

/-- The row of a new user. -/
def registeredRow (dto : RegisterDto) (userId : Uuid) : User where
  id := userId
  email := env.toLowerCase dto.email
  passwordHash := some (env.hashPassword dto.password)
  phoneNumber := dto.phoneNumber

def register (dto : RegisterDto) (userId : Uuid) (m : Moment) : Request SignedInUser := do
  match ← Prisma.user.findUnique (fun u => u.email = env.toLowerCase dto.email) with
  | some _ => .throw registrationFailed
  | none => do
    let user ← Prisma.user.create (registeredRow env dto userId)
    issueEmailVerification env user.id m
    pure ⟨user.id,user.email⟩

/-- The row of the administrator that the process creates when it starts. -/
def adminRow (email password : String) (userId : Uuid) : User where
  id := userId
  email := env.toLowerCase email
  passwordHash := some (env.hashPassword password)
  isEmailVerified := true

/-- `upsert`: a user who has the address already keeps the row. -/
def seedPlatformAdminOnBoot (email password : String) (userId : Uuid) : Request Unit :=
  .stmt (.on .user .upsert)
    (fun s => match s.identity.users.find? (fun u => u.email = env.toLowerCase email) with
      | some _ => s
      | none => Prisma.user.set (s.identity.users ++ [adminRow env email password userId]) s)
    (fun _ => .done (.ok ()))

end

end PinoyTax.Identity
