import PinoyTax.Foundation.Runs
import PinoyTax.Identity.AuthService

/-! # Suspended and deactivated accounts under the authentication requests

Four steps end a suspension: a login with the right password, a wrong one that
reaches the limit, a password reset, and a refresh hands out tokens without looking at
the status. Every other request leaves such an account barred.
-/
namespace PinoyTax.Identity
open PinoyTax Foundation Runs

inductive AuthRequest
  | login (dto : LoginDto) (ctx : LoginContext) (m : Moment)
  | refresh (rawRefreshToken : String) (ctx : LoginContext) (m : Moment)
  | logout (rawRefreshToken : String) (m : Moment)
  | forgotPassword (email : String) (m : Moment)
  | resetPassword (token newPassword : String) (m : Moment)
  | verifyEmail (token : String) (m : Moment)

section
variable (env : AuthEnv)

def next (s : Store) : AuthRequest → Store
  | .login dto ctx m => ((login env dto ctx m).run s).2
  | .refresh rawRefreshToken ctx m => ((refresh env rawRefreshToken ctx m).run s).2
  | .logout rawRefreshToken m => ((logout env rawRefreshToken m).run s).2
  | .forgotPassword email m => ((forgotPassword env email m).run s).2
  | .resetPassword token newPassword m => ((resetPassword env token newPassword m).run s).2
  | .verifyEmail token m => ((verifyEmail env token m).run s).2

/-- The token pair that the request returns, if it returns one. -/
def issued (s : Store) : AuthRequest → Option TokenPair
  | .login dto ctx m => ((login env dto ctx m).run s).1.toOption.map LoginReply.tokens
  | .refresh rawRefreshToken ctx m => ((refresh env rawRefreshToken ctx m).run s).1.toOption
  | _ => none

def Barred (userId : Uuid) (s : Store) : Prop :=
  ∃ u, s.identity.users.find? (fun u => u.id = userId) = some u ∧ (u.status = .suspended ∨ u.status = .deactivated)

/-- The request leaves the user barred and returns no tokens for it. -/
def KeepsBarred (userId : Uuid) (s : Store) (req : AuthRequest) : Prop :=
  Barred userId (next env s req) ∧ ∀ pair ∈ issued env s req, pair.accessToken.sub ≠ userId

/-- A login of the user that gets past the verification check and either has the right
password or is the last wrong one allowed; a refresh of a live session of the user; a
reset with a usable token of the user. -/
def Reinstates (userId : Uuid) (s : Store) : AuthRequest → Prop
  | .login dto _ _ =>
    ∃ u, s.identity.users.find? (fun u => u.email = env.toLowerCase dto.email) = some u ∧ u.id = userId ∧
      u.isEmailVerified = true ∧ (passwordValid env u dto.password = true ∨ maxAttempts env ≤ u.failedLoginAttempts + 1)
  | .refresh rawRefreshToken _ m =>
    ∃ r, s.identity.sessions.find? (isLive (env.hashToken rawRefreshToken) m.now) = some r ∧ r.userId = userId
  | .resetPassword token _ m =>
    ∃ r, s.identity.passwordResetTokens.find? (isUsable (env.hashToken token) m.now) = some r ∧ r.userId = userId
  | _ => False

end

/-! ## The user row after an update by id -/

def UniqueUsers (s : Store) : Prop := (s.identity.users.map User.id).Nodup

section
variable {userId : Uuid} {s t : Store}

theorem find?_update (v : Uuid) (f : User → User) (hid : ∀ u, (f u).id = u.id) (users : List User) :
    (Table.updateMany (fun u => u.id = v) f users).find? (fun u => u.id = userId) =
      (users.find? (fun u => u.id = userId)).map (fun u => if u.id = v then f u else u) := by
  rw [Table.find?_updateMany (fun u => by rw [hid])]
  simp

/-- Updating the row of another user. -/
theorem Barred.update_other (h : Barred userId s) {v : Uuid} (hv : v ≠ userId) (f : User → User)
    (hid : ∀ u, (f u).id = u.id) (ht : t.identity.users = Table.updateMany (fun u => u.id = v) f s.identity.users) :
    Barred userId t := by
  obtain ⟨u,hu,hst⟩ := h
  have huid : u.id ≠ v := by
    rw [(Table.find?_key_some hu).2]
    exact Ne.symm hv
  refine ⟨u,?_,hst⟩
  rw [ht,find?_update v f hid,hu]
  simp [huid]

/-- Updating columns other than the status. -/
theorem Barred.update_status (h : Barred userId s) {v : Uuid} (f : User → User) (hid : ∀ u, (f u).id = u.id)
    (hst : ∀ u, (f u).status = u.status)
    (ht : t.identity.users = Table.updateMany (fun u => u.id = v) f s.identity.users) : Barred userId t := by
  obtain ⟨u,hu,hbar⟩ := h
  refine ⟨if u.id = v then f u else u,?_,?_⟩
  · rw [ht,find?_update v f hid,hu]
    rfl
  · split
    · rwa [hst]
    · exact hbar

theorem Barred.of_users_eq (h : Barred userId s) (ht : t.identity.users = s.identity.users) : Barred userId t := by
  unfold Barred at h ⊢
  rwa [ht]

/-- A row that an update gives another status is no longer barred. -/
theorem not_barred_update {users : List User} (f : User → User) (hid : ∀ u, (f u).id = u.id)
    (hst : ∀ u, (f u).status = .active ∨ (f u).status = .locked)
    (ht : t.identity.users = Table.updateMany (fun u => u.id = userId) f users) : ¬ Barred userId t := by
  rintro ⟨u,hu,hbar⟩
  rw [ht,find?_update userId f hid] at hu
  obtain ⟨q,hq,rfl⟩ := Option.map_eq_some_iff.mp hu
  rw [if_pos (Table.find?_key_some hq).2] at hbar
  rcases hst q with h | h <;> rw [h] at hbar <;> simp at hbar

end

/-! ## What each request does to the user table -/

section
variable {env : AuthEnv} {s : Store} {c : LoginContext} {m : Moment}

/-- The end of the lock that a failed login sets. -/
def lockEnd (env : AuthEnv) (m : Moment) : DateTime := m.lockNow + lockMinutes env * 60 * 1000

/-- A failed login counts, and from the maximum on it locks and records an event. -/
theorem run_handleFailedLogin (env : AuthEnv) (ctx : LoginContext) (m : Moment) {u : User}
    (hu : s.identity.users.find? (fun q => q.id = u.id) = some u) :
    ∃ t, (handleFailedLogin env u.id ctx m).run s = (.ok (),t) ∧
      (u.failedLoginAttempts + 1 < maxAttempts env ∧
          t.identity.users = Table.updateMany (fun q => q.id = u.id) countFailure s.identity.users ∧
          t.identity.securityEvents = s.identity.securityEvents ∨
        maxAttempts env ≤ u.failedLoginAttempts + 1 ∧
          t.identity.users = Table.updateMany (fun q => q.id = u.id) (lockUser (lockEnd env m))
            (Table.updateMany (fun q => q.id = u.id) countFailure s.identity.users) ∧
          t.identity.securityEvents = s.identity.securityEvents ++ [⟨u.id,"account_locked",lockEnd env m⟩]) := by
  have hcount : (Prisma.user.get s).find? (fun q => q.id = u.id) = some u := hu
  simp only [handleFailedLogin,Prog.run_bind,TableRef.run_update_of_find hcount,Prog.resume_ok,recordLoginAttempt,
    TableRef.run_create,Prog.pure_def,Prog.run_done]
  by_cases hmax : maxAttempts env ≤ u.failedLoginAttempts + 1
  · rw [if_pos (show maxAttempts env ≤ (countFailure u).failedLoginAttempts from hmax)]
    have hlock : (Table.updateMany (fun q => q.id = u.id) countFailure s.identity.users).find?
        (fun q => q.id = u.id) = some (countFailure u) := by
      rw [find?_update u.id countFailure (fun _ => rfl),hu]
      simp
    rw [Prog.run_bind,TableRef.run_update_of_find (r := countFailure u) hlock]
    exact ⟨_,rfl,.inr ⟨hmax,rfl,rfl⟩⟩
  · rw [if_neg (show ¬ maxAttempts env ≤ (countFailure u).failedLoginAttempts from hmax)]
    exact ⟨_,rfl,.inl ⟨not_le.mp hmax,rfl,rfl⟩⟩

/-- What a login to the account of a user leaves, and the tokens that it issues. -/
inductive LoginOutcome (env : AuthEnv) (u : User) (dto : LoginDto) (m : Moment) (s t : Store)
    (tokens : Option TokenPair) : Prop
  | refused (hrefused : (lockedAt u m.now).isSome = true ∨ u.isEmailVerified = false) (htokens : tokens = none)
    (husers : t.identity.users = s.identity.users) (hevents : t.identity.securityEvents = s.identity.securityEvents)
  | entered (hl : lockedAt u m.now = none) (hv : u.isEmailVerified = true)
    (hp : passwordValid env u dto.password = true) (htokens : tokens = some ⟨⟨u.id,u.email⟩,m.rawToken⟩)
    (husers : t.identity.users = Table.updateMany (fun q => q.id = u.id) resetAttempts s.identity.users)
    (hevents : t.identity.securityEvents = s.identity.securityEvents)
  | counted (hl : lockedAt u m.now = none) (hv : u.isEmailVerified = true)
    (hp : passwordValid env u dto.password = false) (hmax : u.failedLoginAttempts + 1 < maxAttempts env)
    (htokens : tokens = none)
    (husers : t.identity.users = Table.updateMany (fun q => q.id = u.id) countFailure s.identity.users)
    (hevents : t.identity.securityEvents = s.identity.securityEvents)
  | locked (hl : lockedAt u m.now = none) (hv : u.isEmailVerified = true)
    (hp : passwordValid env u dto.password = false) (hmax : maxAttempts env ≤ u.failedLoginAttempts + 1)
    (htokens : tokens = none)
    (husers : t.identity.users = Table.updateMany (fun q => q.id = u.id) (lockUser (lockEnd env m))
      (Table.updateMany (fun q => q.id = u.id) countFailure s.identity.users))
    (hevents : t.identity.securityEvents = s.identity.securityEvents ++ [⟨u.id,"account_locked",lockEnd env m⟩])

variable {dto : LoginDto} {u : User}

theorem run_login_unknown (hf : s.identity.users.find? (fun u => u.email = env.toLowerCase dto.email) = none) :
    (login env dto c m).run s = (.error invalidCredentials,s) := by
  have hf' : (Prisma.user.get s).find? (fun u => u.email = env.toLowerCase dto.email) = none := hf
  simp [login,hf']

theorem loginOutcome (hf : s.identity.users.find? (fun u => u.email = env.toLowerCase dto.email) = some u)
    (hid : s.identity.users.find? (fun q => q.id = u.id) = some u) :
    LoginOutcome env u dto m s (next env s (.login dto c m)) (issued env s (.login dto c m)) := by
  have hf' : (Prisma.user.get s).find? (fun u => u.email = env.toLowerCase dto.email) = some u := hf
  have hid' : (Prisma.user.get s).find? (fun q => q.id = u.id) = some u := hid
  unfold next issued
  dsimp only
  rw [login,Prog.run_bind,TableRef.run_findUnique,Prog.resume_ok,hf']
  dsimp only
  cases hl : lockedAt u m.now with
  | some lockedUntil => exact .refused (.inl (by rw [hl]; rfl)) rfl rfl rfl
  | none =>
    dsimp only
    cases hv : u.isEmailVerified with
    | false => exact .refused (.inr hv) rfl rfl rfl
    | true =>
      rw [if_neg (by decide)]
      cases hp : passwordValid env u dto.password with
      | true =>
        rw [if_neg (by decide),Prog.run_bind,TableRef.run_update_of_find hid',Prog.resume_ok]
        exact .entered hl hv hp rfl rfl rfl
      | false =>
        obtain ⟨t,ht,hcases⟩ := run_handleFailedLogin env c m hid
        rw [if_pos (by decide),Prog.run_bind,ht,Prog.resume_ok]
        rcases hcases with ⟨hmax,husers,hevents⟩ | ⟨hmax,husers,hevents⟩
        · exact .counted hl hv hp hmax rfl husers hevents
        · exact .locked hl hv hp hmax rfl husers hevents

theorem run_refresh_unknown {raw : String}
    (hf : s.identity.sessions.find? (isLive (env.hashToken raw) m.now) = none) :
    (refresh env raw c m).run s = (.error invalidRefreshToken,s) := by
  have hf' : (Prisma.session.get s).find? (isLive (env.hashToken raw) m.now) = none := hf
  simp [refresh,hf']

theorem run_refresh_orphan {raw : String} {r : Session}
    (hf : s.identity.sessions.find? (isLive (env.hashToken raw) m.now) = some r)
    (hu : s.identity.users.find? (fun u => u.id = r.userId) = none) :
    (refresh env raw c m).run s = (.error .database,s) := by
  have hf' : (Prisma.session.get s).find? (isLive (env.hashToken raw) m.now) = some r := hf
  have hu' : (Prisma.user.get s).find? (fun u => u.id = r.userId) = none := hu
  simp [refresh,hf',hu']

theorem run_refresh_live {raw : String} {r : Session}
    (hf : s.identity.sessions.find? (isLive (env.hashToken raw) m.now) = some r)
    (hu : s.identity.users.find? (fun u => u.id = r.userId) = some u) :
    ∃ t, (refresh env raw c m).run s = (.ok ⟨⟨u.id,u.email⟩,m.rawToken⟩,t) ∧
      t.identity.users = s.identity.users := by
  have hf' : (Prisma.session.get s).find? (isLive (env.hashToken raw) m.now) = some r := hf
  have hu' : (Prisma.user.get s).find? (fun u => u.id = r.userId) = some u := hu
  obtain ⟨q,hq⟩ := Table.exists_find?_of_mem Session.id (List.mem_of_find?_eq_some hf)
  have hq' : (Prisma.session.get s).find? (fun x => x.id = r.id) = some q := hq
  simp only [refresh,Prog.run_bind,TableRef.run_findFirst,hf',Prog.resume_ok,TableRef.run_findUnique,hu',
    orThrow_some,Prog.run_done,TableRef.run_update_of_find hq']
  exact ⟨_,rfl,rfl⟩

theorem run_forgotPassword_users (env : AuthEnv) (s : Store) (m : Moment) (email : String) :
    ((forgotPassword env email m).run s).2.identity.users = s.identity.users := by
  simp only [forgotPassword,Prog.run_bind,TableRef.run_findUnique,Prog.resume_ok]
  cases (Prisma.user.get s).find? (fun u => u.email = env.toLowerCase email) <;> rfl

theorem run_resetPassword_unknown {token newPassword : String}
    (hf : s.identity.passwordResetTokens.find? (isUsable (env.hashToken token) m.now) = none) :
    (resetPassword env token newPassword m).run s = (.error invalidResetToken,s) := by
  have hf' : (Prisma.passwordResetToken.get s).find? (isUsable (env.hashToken token) m.now) = none := hf
  simp [resetPassword,hf']

/-- A reset rewrites the row of the user of the token, if there is one. -/
theorem run_resetPassword_users {token : String} (newPassword : String) {r : MailedToken}
    (hf : s.identity.passwordResetTokens.find? (isUsable (env.hashToken token) m.now) = some r) :
    ((resetPassword env token newPassword m).run s).2.identity.users =
      Table.updateMany (fun u => u.id = r.userId) (resetRow (env.hashPassword newPassword)) s.identity.users := by
  have hf' : (Prisma.passwordResetToken.get s).find? (isUsable (env.hashToken token) m.now) = some r := hf
  obtain ⟨q,hq⟩ := Table.exists_find?_of_mem MailedToken.id (List.mem_of_find?_eq_some hf)
  have hq' : (Prisma.passwordResetToken.get s).find? (fun x => x.id = r.id) = some q := hq
  simp only [resetPassword,Prog.run_bind,TableRef.run_findFirst,hf',Prog.resume_ok,run_transaction,
    TableRef.run_update_of_find hq',TableRef.run_update,TableRef.updateReply]
  cases hu : s.identity.users.find? (fun u => u.id = r.userId) with
  | none =>
    have hu' : (Prisma.user.get (Prisma.passwordResetToken.set (Table.updateMany (fun t => t.id = r.id)
        (markUsed m.now) (Prisma.passwordResetToken.get s)) s)).find? (fun u => u.id = r.userId) = none := hu
    simp only [hu',Prog.resume_error]
    refine (Table.updateMany_eq_self fun u hmem hid => ?_).symm
    exact absurd (of_decide_eq_true hid) (Table.find?_key_none hu u hmem)
  | some u =>
    have hu' : (Prisma.user.get (Prisma.passwordResetToken.set (Table.updateMany (fun t => t.id = r.id)
        (markUsed m.now) (Prisma.passwordResetToken.get s)) s)).find? (fun u => u.id = r.userId) = some u := hu
    simp only [hu',Prog.resume_ok,TableRef.run_updateMany]
    rfl

theorem run_verifyEmail_unknown {token : String}
    (hf : s.identity.emailVerificationTokens.find? (isUsable (env.hashToken token) m.now) = none) :
    (verifyEmail env token m).run s = (.error invalidVerificationToken,s) := by
  have hf' : (Prisma.emailVerificationToken.get s).find? (isUsable (env.hashToken token) m.now) = none := hf
  simp [verifyEmail,hf']

theorem run_verifyEmail_users {token : String} {r : MailedToken}
    (hf : s.identity.emailVerificationTokens.find? (isUsable (env.hashToken token) m.now) = some r) :
    ((verifyEmail env token m).run s).2.identity.users =
      Table.updateMany (fun u => u.id = r.userId) setVerified s.identity.users := by
  have hf' : (Prisma.emailVerificationToken.get s).find? (isUsable (env.hashToken token) m.now) = some r := hf
  obtain ⟨q,hq⟩ := Table.exists_find?_of_mem MailedToken.id (List.mem_of_find?_eq_some hf)
  have hq' : (Prisma.emailVerificationToken.get s).find? (fun x => x.id = r.id) = some q := hq
  simp only [verifyEmail,Prog.run_bind,TableRef.run_findFirst,hf',Prog.resume_ok,run_transaction,
    TableRef.run_update_of_find hq',TableRef.run_update,TableRef.updateReply]
  cases hu : s.identity.users.find? (fun u => u.id = r.userId) with
  | none =>
    have hu' : (Prisma.user.get (Prisma.emailVerificationToken.set (Table.updateMany (fun t => t.id = r.id)
        (markUsed m.now) (Prisma.emailVerificationToken.get s)) s)).find? (fun u => u.id = r.userId) = none := hu
    simp only [hu',Prog.resume_error]
    refine (Table.updateMany_eq_self fun u hmem hid => ?_).symm
    exact absurd (of_decide_eq_true hid) (Table.find?_key_none hu u hmem)
  | some u =>
    have hu' : (Prisma.user.get (Prisma.emailVerificationToken.set (Table.updateMany (fun t => t.id = r.id)
        (markUsed m.now) (Prisma.emailVerificationToken.get s)) s)).find? (fun u => u.id = r.userId) = some u := hu
    simp only [hu',Prog.resume_ok,Prog.pure_def,Prog.run_done]
    rfl

end

/-! ## One request -/

section
variable {env : AuthEnv} {userId : Uuid} {s : Store}

theorem lockedAt_of_barred {u : User} (h : u.status = .suspended ∨ u.status = .deactivated) (now : DateTime) :
    lockedAt u now = none := by
  unfold lockedAt
  rcases h with h | h <;> simp [h]

theorem Barred.eq_of_mem (h : Barred userId s) (hu : UniqueUsers s) {u : User} (hmem : u ∈ s.identity.users)
    (hid : u.id = userId) : u.status = .suspended ∨ u.status = .deactivated := by
  obtain ⟨q,hq,hbar⟩ := h
  obtain ⟨hqm,hqid⟩ := Table.find?_key_some hq
  rwa [Table.eq_of_key hu hmem hqm (hid.trans hqid.symm)]

variable {dto : LoginDto} {ctx : LoginContext} {m : Moment} {u : User}

theorem keepsBarred_of_none {req : AuthRequest} (hissued : issued env s req = none) :
    KeepsBarred env userId s req ↔ Barred userId (next env s req) := by
  rw [KeepsBarred,hissued]
  simp

theorem keepsBarred_login_self (h : Barred userId s) (hu : UniqueUsers s)
    (hf : s.identity.users.find? (fun u => u.email = env.toLowerCase dto.email) = some u) (hid : u.id = userId) :
    KeepsBarred env userId s (.login dto ctx m) ↔ ¬ (u.isEmailVerified = true ∧
      (passwordValid env u dto.password = true ∨ maxAttempts env ≤ u.failedLoginAttempts + 1)) := by
  have hmem := List.mem_of_find?_eq_some hf
  have hopen := lockedAt_of_barred (h.eq_of_mem hu hmem hid) m.now
  cases loginOutcome (c := ctx) (m := m) hf (Table.find?_of_mem hu hmem) with
  | refused hrefused htokens husers _ =>
    have hv : u.isEmailVerified = false := by simpa [hopen] using hrefused
    rw [keepsBarred_of_none htokens]
    exact iff_of_true (h.of_users_eq husers) (by simp [hv])
  | entered _ hv hp htokens _ _ =>
    refine iff_of_false (fun hkeeps => ?_) (by simp [hv,hp])
    exact hkeeps.2 _ htokens hid
  | counted _ _ hp hmax htokens husers _ =>
    rw [keepsBarred_of_none htokens]
    refine iff_of_true (h.update_status countFailure (fun _ => rfl) (fun _ => rfl) husers) ?_
    simp [hp,hmax]
  | locked _ hv _ hmax htokens husers _ =>
    rw [keepsBarred_of_none htokens]
    rw [hid] at husers
    exact iff_of_false (not_barred_update (lockUser (lockEnd env m)) (fun _ => rfl) (fun _ => .inr rfl) husers)
      (by simp [hv,hmax])

theorem keepsBarred_login_other (h : Barred userId s) (hu : UniqueUsers s)
    (hf : s.identity.users.find? (fun u => u.email = env.toLowerCase dto.email) = some u) (hid : u.id ≠ userId) :
    KeepsBarred env userId s (.login dto ctx m) := by
  have hcounted : Barred userId { s with
      identity.users := Table.updateMany (fun q => q.id = u.id) countFailure s.identity.users } :=
    h.update_other hid countFailure (fun _ => rfl) rfl
  cases loginOutcome (c := ctx) (m := m) hf (Table.find?_of_mem hu (List.mem_of_find?_eq_some hf)) with
  | refused _ htokens husers _ => exact (keepsBarred_of_none htokens).mpr (h.of_users_eq husers)
  | entered _ _ _ htokens husers _ =>
    refine ⟨h.update_other hid resetAttempts (fun _ => rfl) husers,?_⟩
    rw [htokens]
    intro pair hpair
    obtain rfl : _ = pair := Option.some.inj hpair
    exact hid
  | counted _ _ _ _ htokens husers _ => exact (keepsBarred_of_none htokens).mpr (hcounted.of_users_eq husers)
  | locked _ _ _ _ htokens husers _ =>
    exact (keepsBarred_of_none htokens).mpr (hcounted.update_other hid (lockUser (lockEnd env m)) (fun _ => rfl) husers)

theorem keepsBarred_login (h : Barred userId s) (hu : UniqueUsers s) :
    KeepsBarred env userId s (.login dto ctx m) ↔ ¬ Reinstates env userId s (.login dto ctx m) := by
  cases hf : s.identity.users.find? (fun u => u.email = env.toLowerCase dto.email) with
  | none =>
    have hrun : (login env dto ctx m).run s = (.error invalidCredentials,s) := run_login_unknown hf
    simpa [KeepsBarred,next,issued,hrun,Except.toOption,Reinstates,hf] using h
  | some u =>
    by_cases hid : u.id = userId
    · rw [keepsBarred_login_self h hu hf hid]
      simp [Reinstates,hf,hid]
    · apply iff_of_true (keepsBarred_login_other h hu hf hid)
      simp [Reinstates,hf,hid]

theorem keepsBarred_refresh (h : Barred userId s) {raw : String} :
    KeepsBarred env userId s (.refresh raw ctx m) ↔ ¬ Reinstates env userId s (.refresh raw ctx m) := by
  cases hf : s.identity.sessions.find? (isLive (env.hashToken raw) m.now) with
  | none =>
    have hrun := run_refresh_unknown (c := ctx) hf
    refine iff_of_true ?_ (by simp [Reinstates,hf])
    simpa [KeepsBarred,next,issued,hrun,Except.toOption] using h
  | some r =>
    cases hru : s.identity.users.find? (fun u => u.id = r.userId) with
    | none =>
      have hrun := run_refresh_orphan (c := ctx) hf hru
      have hid : r.userId ≠ userId := by
        rintro rfl
        obtain ⟨q,hq,-⟩ := h
        rw [hru] at hq
        cases hq
      refine iff_of_true ?_ (by simp [Reinstates,hf,hid])
      simpa [KeepsBarred,next,issued,hrun,Except.toOption] using h
    | some q =>
      obtain ⟨t,hrun,husers⟩ := run_refresh_live (c := ctx) hf hru
      have hqid : q.id = r.userId := (Table.find?_key_some hru).2
      have hbar := h.of_users_eq husers
      simp [KeepsBarred,next,issued,hrun,Except.toOption,Reinstates,hf,hqid,hbar]

theorem keepsBarred_resetPassword (h : Barred userId s) {token newPassword : String} :
    KeepsBarred env userId s (.resetPassword token newPassword m) ↔
      ¬ Reinstates env userId s (.resetPassword token newPassword m) := by
  cases hf : s.identity.passwordResetTokens.find? (isUsable (env.hashToken token) m.now) with
  | none =>
    refine iff_of_true ?_ (by simp [Reinstates,hf])
    simpa [KeepsBarred,next,issued,run_resetPassword_unknown hf] using h
  | some r =>
    have husers := run_resetPassword_users newPassword hf
    by_cases hid : r.userId = userId
    · refine iff_of_false (fun hkeep => ?_) (by simp [Reinstates,hf,hid])
      rw [hid] at husers
      exact not_barred_update (resetRow (env.hashPassword newPassword)) (fun _ => rfl) (fun _ => .inl rfl) husers
        hkeep.1
    · refine iff_of_true ⟨?_,by simp [issued]⟩ (by simp [Reinstates,hf,hid])
      exact h.update_other hid (resetRow (env.hashPassword newPassword)) (fun _ => rfl) husers

theorem keepsBarred_verifyEmail (h : Barred userId s) {token : String} :
    KeepsBarred env userId s (.verifyEmail token m) := by
  refine ⟨?_,by simp [issued]⟩
  cases hf : s.identity.emailVerificationTokens.find? (isUsable (env.hashToken token) m.now) with
  | none => simpa [next,run_verifyEmail_unknown hf] using h
  | some r => exact h.update_status setVerified (fun _ => rfl) (fun _ => rfl) (run_verifyEmail_users hf)

/-- One request keeps a barred account barred and without tokens exactly when it is
none of the four that reinstate it. -/
theorem keepsBarred_iff_not_reinstates (h : Barred userId s) (hu : UniqueUsers s) (req : AuthRequest) :
    KeepsBarred env userId s req ↔ ¬ Reinstates env userId s req := by
  cases req with
  | login dto ctx m => exact keepsBarred_login h hu
  | refresh raw ctx m => exact keepsBarred_refresh h
  | logout raw m => exact iff_of_true ⟨h.of_users_eq rfl,by simp [issued]⟩ not_false
  | forgotPassword email m =>
    exact iff_of_true ⟨h.of_users_eq (run_forgotPassword_users env s m email),by simp [issued]⟩ not_false
  | resetPassword token newPassword m => exact keepsBarred_resetPassword h
  | verifyEmail token m => exact iff_of_true (keepsBarred_verifyEmail h) not_false

/-! ## Runs -/

def userIds (s : Store) : List Uuid := s.identity.users.map User.id

theorem keeps_user_update (p : User → Bool) (f : User → User) (hid : ∀ u, (f u).id = u.id) :
    (Prisma.user.update p f).Keeps userIds := by
  intro s
  refine ⟨Table.map_updateMany User.id hid _,?_⟩
  dsimp only
  cases (Prisma.user.get s).find? p <;> trivial

theorem keeps_handleFailedLogin (env : AuthEnv) (id : Uuid) (ctx : LoginContext) (m : Moment) :
    (handleFailedLogin env id ctx m).Keeps userIds := by
  unfold handleFailedLogin
  refine Prog.Guarantees.bind (keeps_user_update _ _ fun _ => rfl) fun user => ?_
  refine Prog.Guarantees.bind (fun s => ⟨rfl,trivial⟩) fun _ => ?_
  split
  · refine Prog.Guarantees.bind (keeps_user_update _ _ fun _ => rfl) fun _ => ?_
    exact fun s => ⟨rfl,trivial⟩
  · trivial

section
variable {τ : Type} {g : Store → τ}

theorem keeps_issueTokenPair (hsession : ∀ rows s, g (Prisma.session.set rows s) = g s) (env : AuthEnv) (id : Uuid)
    (email : String) (ctx : LoginContext) (rememberMe : Bool) (m : Moment) :
    (issueTokenPair env id email ctx rememberMe m).Keeps g :=
  fun s => ⟨hsession _ s,trivial⟩

theorem keeps_refresh (hsession : ∀ rows s, g (Prisma.session.set rows s) = g s) (env : AuthEnv) (raw : String)
    (ctx : LoginContext) (m : Moment) : (refresh env raw ctx m).Keeps g := by
  apply Prog.Guarantees.bind (Prog.guarantees_query fun s => rfl)
  intro found
  cases found with
  | none => trivial
  | some session =>
    apply Prog.Guarantees.bind (Prog.guarantees_query fun s => rfl)
    intro found
    cases found with
    | none => trivial
    | some user =>
      simp only [orThrow_some,Prog.done_ok_bind]
      apply Prog.Guarantees.bind (keeps_update (t := Prisma.session) hsession _ _)
      intro _
      exact keeps_issueTokenPair hsession env user.id user.email ctx session.isRememberMe m

/-- A mailed token is spent together with an update of its user. -/
theorem keeps_spend {t : TableRef MailedToken} (htoken : ∀ rows s, g (t.set rows s) = g s) {p : User → Bool} {f : User → User}
    (huser : (Prisma.user.update p f).Keeps g) {rest : Request Unit} (hrest : rest.Keeps g) (q : MailedToken → Bool)
    (now : DateTime) :
    (transaction do
      let _ ← t.update q (markUsed now)
      let _ ← Prisma.user.update p f
      rest).Keeps g := by
  apply keeps_transaction
  apply Prog.Guarantees.bind (keeps_update (t := t) htoken _ _)
  intro _
  exact Prog.Guarantees.bind huser fun _ => hrest

/-- A reset and a verification change a user, without its id. -/
theorem keeps_resetPassword (hsession : ∀ rows s, g (Prisma.session.set rows s) = g s)
    (htoken : ∀ rows s, g (Prisma.passwordResetToken.set rows s) = g s)
    (huser : ∀ p f, (∀ u, (f u).id = u.id) → (Prisma.user.update p f).Keeps g) (env : AuthEnv)
    (token newPassword : String) (m : Moment) : (resetPassword env token newPassword m).Keeps g := by
  apply Prog.Guarantees.bind (Prog.guarantees_query fun s => rfl)
  intro found
  cases found with
  | none => trivial
  | some record =>
    refine keeps_spend htoken (huser _ (resetRow (env.hashPassword newPassword)) fun _ => rfl) ?_ _ m.now
    exact fun s => ⟨hsession _ s,trivial⟩

theorem keeps_verifyEmail (htoken : ∀ rows s, g (Prisma.emailVerificationToken.set rows s) = g s)
    (huser : ∀ p f, (∀ u, (f u).id = u.id) → (Prisma.user.update p f).Keeps g) (env : AuthEnv) (token : String)
    (m : Moment) : (verifyEmail env token m).Keeps g := by
  apply Prog.Guarantees.bind (Prog.guarantees_query fun s => rfl)
  intro found
  cases found with
  | none => trivial
  | some record =>
    refine keeps_spend htoken (huser _ setVerified fun _ => rfl) ?_ _ m.now
    trivial

end

theorem keeps_login (env : AuthEnv) (dto : LoginDto) (ctx : LoginContext) (m : Moment) :
    (login env dto ctx m).Keeps userIds := by
  refine Prog.Guarantees.bind (Prog.guarantees_query fun s => rfl) fun found => ?_
  cases found with
  | none => trivial
  | some user =>
    dsimp only
    cases lockedAt user m.now with
    | some lockedUntil => exact fun s => ⟨rfl,trivial⟩
    | none =>
      dsimp only
      split
      · exact fun s => ⟨rfl,trivial⟩
      · split
        · exact (keeps_handleFailedLogin env user.id ctx m).bind fun _ => trivial
        · refine Prog.Guarantees.bind (keeps_user_update _ _ fun _ => rfl) fun _ => ?_
          refine Prog.Guarantees.bind (fun s => ⟨rfl,trivial⟩) fun _ => ?_
          exact (keeps_issueTokenPair (fun _ _ => rfl) env user.id user.email ctx _ m).bind fun _ => trivial

/-- No request adds, removes or renumbers users. -/
theorem userIds_next (env : AuthEnv) (s : Store) (req : AuthRequest) : userIds (next env s req) = userIds s := by
  cases req with
  | login dto ctx m => exact (keeps_login env dto ctx m).run s
  | refresh raw ctx m => exact (keeps_refresh (fun _ _ => rfl) env raw ctx m).run s
  | logout raw m => rfl
  | forgotPassword email m =>
    have h := run_forgotPassword_users env s m email
    exact congrArg (List.map User.id) h
  | resetPassword token newPassword m => exact (keeps_resetPassword (fun _ _ => rfl) (fun _ _ => rfl) keeps_user_update env token newPassword m).run s
  | verifyEmail token m => exact (keeps_verifyEmail (fun _ _ => rfl) keeps_user_update env token m).run s

end

theorem uniqueUsers_next (env : AuthEnv) {s : Store} (hu : UniqueUsers s) (req : AuthRequest) :
    UniqueUsers (next env s req) := by
  have hids : (next env s req).identity.users.map User.id = s.identity.users.map User.id := userIds_next env s req
  rw [UniqueUsers,hids]
  exact hu

/-- Along any sequence of requests a suspended or deactivated user stays so and is
never given tokens exactly when no request of the sequence reinstates the user. -/
theorem barred_user_stays_barred_iff (env : AuthEnv) (userId : Uuid) (s : Store) (requests : List AuthRequest)
    (hu : UniqueUsers s) (h : Barred userId s) :
    Along (next env) (KeepsBarred env userId) s requests ↔
      Along (next env) (fun s req => ¬ Reinstates env userId s req) s requests := by
  refine along_iff (A := fun _ _ => True) (I := fun s => Barred userId s ∧ UniqueUsers s)
    (fun s req hI _ => keepsBarred_iff_not_reinstates hI.1 hI.2 req) ?_ ⟨h,hu⟩ (along_true s requests)
  intro s req hI _ hkeep
  exact ⟨hkeep.1,uniqueUsers_next env hI.2 req⟩

/-- Hashes that are the texts themselves. -/
def plainEnv : AuthEnv where
  toLowerCase := id
  hashToken := id
  verifyPassword := fun hash password => hash == password
  hashPassword := id

def suspendedStore : Store where
  identity.users :=
    [{ id := 1, email := "ana@example.com", passwordHash := some "Secret123", isEmailVerified := true,
       status := .suspended }]

def rightLogin : AuthRequest :=
  .login ⟨"ana@example.com","Secret123",none⟩ { deviceFingerprint := "d" }
    { now := 1000, rawToken := "raw", newId := 5 }

theorem barred_user_stays_barred_iff_logout :
    Along (next plainEnv) (KeepsBarred plainEnv 1) suspendedStore [.logout "raw" { now := 1000 },rightLogin] ↔
      Along (next plainEnv) (fun s req => ¬ Reinstates plainEnv 1 s req) suspendedStore
        [.logout "raw" { now := 1000 },rightLogin] :=
  barred_user_stays_barred_iff plainEnv 1 suspendedStore _ (by unfold UniqueUsers; decide)
    ⟨_,rfl,.inl rfl⟩

/-- A suspended user logs in with the right password: active again, and with tokens. -/
theorem rightLogin_reinstates :
    UniqueUsers suspendedStore ∧ Barred 1 suspendedStore ∧
      ¬ Along (next plainEnv) (KeepsBarred plainEnv 1) suspendedStore [rightLogin] := by
  refine ⟨by unfold UniqueUsers; decide,⟨_,rfl,.inl rfl⟩,?_⟩
  rintro ⟨⟨-,hpair⟩,-⟩
  exact hpair ⟨⟨1,"ana@example.com"⟩,"raw"⟩ (by decide +kernel) rfl

end PinoyTax.Identity
