import PinoyTax.Foundation.InstantTexts
import PinoyTax.Identity.AccountStatus

/-! # What a wrong password is told

A login looks at the lock and at the verification of an account before it compares
passwords, and each check has an answer of its own. So the answer to a wrong password is
a function of what stands in the way, and different obstacles have different answers.
-/
namespace PinoyTax.Identity
open PinoyTax Foundation

/-- What a login meets before it compares passwords. -/
inductive Obstacle
  | locked (lockedUntil : DateTime)
  | unverified
deriving DecidableEq, Repr

def obstacle (now : DateTime) (u : User) : Option Obstacle :=
  match lockedAt u now with
  | some lockedUntil => some (.locked lockedUntil)
  | none => if u.isEmailVerified then none else some .unverified

/-- The answer to a login that does not get in. -/
def refusal : Option Obstacle → ApiException
  | none => invalidCredentials
  | some (.locked lockedUntil) => accountLocked lockedUntil
  | some .unverified => emailNotVerified

theorem accountLocked_inj {t u : DateTime} (h : accountLocked t = accountLocked u) : t = u := by
  have htext := congrArg (fun e => e.message.toList) h
  simp only [accountLocked,ApiException.unauthorized,String.toList_append] at htext
  exact Calendar.toISOString_inj (String.toList_injective (List.append_cancel_left (List.append_cancel_right htext)))

/-- The code tells the kinds of obstacles apart, the message one lock from another. -/
theorem refusal_inj {x y : Option Obstacle} (h : refusal x = refusal y) : x = y := by
  have hcode (z : Option Obstacle) : (refusal z).code = z.elim "INVALID_CREDENTIALS"
      (fun o => if o = .unverified then "EMAIL_NOT_VERIFIED" else "ACCOUNT_LOCKED") := by
    rcases z with _ | (lockedUntil | _) <;> rfl
  have hcodes := congrArg ApiException.code h
  rw [hcode,hcode] at hcodes
  rcases x with _ | (t | _) <;> rcases y with _ | (u | _) <;> simp at hcodes ⊢
  exact accountLocked_inj h

section
variable (env : AuthEnv) (email : String) (now : DateTime) (s : Store)

def accountOf : Option User := s.identity.users.find? (fun u => u.email = env.toLowerCase email)

/-- Nothing stands between the login and the comparison, or there is no account. -/
def Unobstructed : Prop := ∀ u ∈ accountOf env email s, lockedAt u now = none ∧ u.isEmailVerified = true

def LockedUntil (lockedUntil : DateTime) : Prop := ∃ u ∈ accountOf env email s, lockedAt u now = some lockedUntil

def AwaitsVerification : Prop := ∃ u ∈ accountOf env email s, lockedAt u now = none ∧ u.isEmailVerified = false

end

/-- The password is not the one of the account with that email, if there is one. -/
def WrongPassword (env : AuthEnv) (dto : LoginDto) (s : Store) : Prop :=
  ∀ u ∈ accountOf env dto.email s, passwordValid env u dto.password = false

/-- The stores differ in the rows of one email at most. -/
def SameButFor (email : String) (s t : Store) : Prop :=
  t = { s with identity.users := t.identity.users } ∧
    t.identity.users.filter (fun u => u.email ≠ email) = s.identity.users.filter (fun u => u.email ≠ email)

instance (env : AuthEnv) (dto : LoginDto) (s : Store) : Decidable (WrongPassword env dto s) :=
  inferInstanceAs (Decidable (∀ u ∈ accountOf env dto.email s, passwordValid env u dto.password = false))

instance (email : String) (s t : Store) : Decidable (SameButFor email s t) := inferInstanceAs (Decidable (_ ∧ _))

/-! ## The answer -/

section
variable {env : AuthEnv} {dto : LoginDto} {ctx : LoginContext} {m : Moment} {s t : Store} {now : DateTime} {email : String}

theorem obstacle_eq_none_iff {u : User} : obstacle now u = none ↔ lockedAt u now = none ∧ u.isEmailVerified = true := by
  unfold obstacle
  cases lockedAt u now <;> simp

theorem obstacle_eq_locked_iff {u : User} {lockedUntil : DateTime} :
    obstacle now u = some (.locked lockedUntil) ↔ lockedAt u now = some lockedUntil := by
  unfold obstacle
  cases lockedAt u now <;> simp

theorem obstacle_eq_unverified_iff {u : User} :
    obstacle now u = some .unverified ↔ lockedAt u now = none ∧ u.isEmailVerified = false := by
  unfold obstacle
  cases lockedAt u now <;> simp

/-- A failed login always comes back, whatever it counts. -/
theorem run_handleFailedLogin_reply {users : List User} (husers : s.identity.users = users) {u : User} (hu : u ∈ users) :
    ((handleFailedLogin env u.id ctx m).run s).1 = .ok () := by
  obtain ⟨q,hq⟩ := Table.exists_find?_of_mem User.id (husers ▸ hu)
  have hid : q.id = u.id := (Table.find?_key_some hq).2
  rw [← hid] at hq ⊢
  obtain ⟨w,hrun,-⟩ := run_handleFailedLogin env ctx m hq
  rw [hrun]

theorem run_login_wrong (hwrong : WrongPassword env dto s) :
    ((login env dto ctx m).run s).1 = .error (refusal ((accountOf env dto.email s).bind (obstacle m.now))) := by
  cases hf : accountOf env dto.email s with
  | none => rw [run_login_unknown hf]; rfl
  | some u =>
    have hf' : (Prisma.user.get s).find? (fun u => u.email = env.toLowerCase dto.email) = some u := hf
    rw [login,Prog.run_bind,TableRef.run_findUnique,Prog.resume_ok,hf',Option.bind_some,obstacle]
    dsimp only
    cases hl : lockedAt u m.now with
    | some lockedUntil => rfl
    | none =>
      dsimp only
      cases hv : u.isEmailVerified with
      | false => rfl
      | true =>
        have hp : passwordValid env u dto.password = false := hwrong u hf
        rw [if_neg (by decide),if_pos (by rw [hp]; rfl),Prog.run_bind]
        have hreply : ((handleFailedLogin env u.id ctx m).run s).1 = .ok () :=
          run_handleFailedLogin_reply rfl (List.mem_of_find?_eq_some hf)
        generalize (handleFailedLogin env u.id ctx m).run s = out at hreply
        obtain ⟨r,w⟩ := out
        obtain rfl : r = .ok () := hreply
        rfl

theorem bind_obstacle_eq_none_iff :
    (accountOf env email s).bind (obstacle now) = none ↔ Unobstructed env email now s := by
  rw [Option.bind_eq_none_iff]
  exact forall₂_congr fun u _ => obstacle_eq_none_iff

theorem bind_obstacle_eq_locked_iff {lockedUntil : DateTime} :
    (accountOf env email s).bind (obstacle now) = some (.locked lockedUntil) ↔ LockedUntil env email now s lockedUntil := by
  rw [Option.bind_eq_some_iff]
  exact exists_congr fun u => and_congr_right fun _ => obstacle_eq_locked_iff

theorem bind_obstacle_eq_unverified_iff :
    (accountOf env email s).bind (obstacle now) = some .unverified ↔ AwaitsVerification env email now s := by
  rw [Option.bind_eq_some_iff]
  exact exists_congr fun u => and_congr_right fun _ => obstacle_eq_unverified_iff

end

/-- Two stores answer a wrong password alike exactly when in both nothing stands between the login and the password,
or in both the account is locked until the same instant, or in both it is unverified. -/
theorem login_reply_eq_iff (env : AuthEnv) (dto : LoginDto) (ctx : LoginContext) (m : Moment) {s t : Store}
    (hs : WrongPassword env dto s) (ht : WrongPassword env dto t) :
    ((login env dto ctx m).run s).1 = ((login env dto ctx m).run t).1 ↔
      Unobstructed env dto.email m.now s ∧ Unobstructed env dto.email m.now t ∨
      (∃ lockedUntil, LockedUntil env dto.email m.now s lockedUntil ∧ LockedUntil env dto.email m.now t lockedUntil) ∨
      AwaitsVerification env dto.email m.now s ∧ AwaitsVerification env dto.email m.now t := by
  rw [run_login_wrong hs,run_login_wrong ht]
  simp only [← bind_obstacle_eq_none_iff,← bind_obstacle_eq_locked_iff,← bind_obstacle_eq_unverified_iff]
  generalize (accountOf env dto.email s).bind (obstacle m.now) = x
  generalize (accountOf env dto.email t).bind (obstacle m.now) = y
  constructor
  · intro h
    obtain rfl := refusal_inj (Except.error.inj h)
    rcases x with _ | (lockedUntil | _)
    · exact .inl ⟨rfl,rfl⟩
    · exact .inr (.inl ⟨lockedUntil,rfl,rfl⟩)
    · exact .inr (.inr ⟨rfl,rfl⟩)
  · rintro (⟨rfl,rfl⟩ | ⟨lockedUntil,rfl,rfl⟩ | ⟨rfl,rfl⟩)
    · rfl
    · rfl
    · rfl

/-- One account, verified or not. -/
def accountStore (isEmailVerified : Bool) : Store where
  identity.users :=
    [{ id := 1, email := "ana@example.com", passwordHash := some "Secret123", isEmailVerified := isEmailVerified }]

def guessedLogin : LoginDto := ⟨"ana@example.com","guess",none⟩

/-- A verified account answers a guess as if it did not exist. -/
theorem login_reply_eq_iff_verified :
    ((login plainEnv guessedLogin { deviceFingerprint := "d" } { now := 1000 }).run (accountStore true)).1 =
      ((login plainEnv guessedLogin { deviceFingerprint := "d" } { now := 1000 }).run {}).1 :=
  (login_reply_eq_iff plainEnv guessedLogin { deviceFingerprint := "d" } { now := 1000 } (s := accountStore true)
    (t := {}) (by decide) (by decide)).mpr (.inl ⟨by unfold Unobstructed; decide,by unfold Unobstructed; decide⟩)

/-- An unverified one does not. -/
theorem unverified_account_answers_otherwise :
    SameButFor (plainEnv.toLowerCase guessedLogin.email) (accountStore false) {} ∧
      WrongPassword plainEnv guessedLogin (accountStore false) ∧ WrongPassword plainEnv guessedLogin {} ∧
      ((login plainEnv guessedLogin { deviceFingerprint := "d" } { now := 1000 }).run (accountStore false)).1 ≠
        ((login plainEnv guessedLogin { deviceFingerprint := "d" } { now := 1000 }).run {}).1 :=
  ⟨by decide,by decide,by decide,by decide +kernel⟩

end PinoyTax.Identity
