import PinoyTax.Foundation.Lockout
import PinoyTax.Identity.AccountStatus

/-! # How many wrong passwords an account is allowed

The row of the user counts wrong passwords. A login with the right one and a password
reset clear the count, and the end of a lock does not, so that after a lock the first
wrong password locks again.
-/
namespace PinoyTax.Identity
open PinoyTax Foundation Foundation.Lockout Runs

/-- What the row counts, and the lock that it carries, run out or not. -/
def counterOf (u : User) : Counter DateTime where
  failures := u.failedLoginAttempts
  lock := if u.status = .locked then u.lockedUntil else none

def AuthRequest.now : AuthRequest → DateTime
  | .login _ _ m => m.now
  | .refresh _ _ m => m.now
  | .logout _ m => m.now
  | .forgotPassword _ m => m.now
  | .resetPassword _ _ m => m.now
  | .verifyEmail _ m => m.now

section
variable (env : AuthEnv) (userId : Uuid)

/-- The end of the lock of the account that the request records. -/
def lockSet (s : Store) (req : AuthRequest) : Option DateTime :=
  (((next env s req).identity.securityEvents.drop s.identity.securityEvents.length).find?
    (fun e => decide (e.userId = userId) && decide (e.eventType = "account_locked"))).map SecurityEvent.lockedUntil

/-- The request records a lock of the account, and leaves the row locked until then. -/
def LockedBy (s : Store) (req : AuthRequest) : Prop :=
  ∃ lockedUntil ∈ lockSet env userId s req, ∃ u ∈ (next env s req).identity.users.find? (fun u => u.id = userId),
    u.status = .locked ∧ u.lockedUntil = some lockedUntil

/-- What a request means for the account: a password that is looked at is wrong or not, and a reset may go through. -/
def eventOf (s : Store) (req : AuthRequest) : Option (Event DateTime) :=
  match req with
  | .login dto _ m =>
    ((s.identity.users.find? (fun u => u.email = env.toLowerCase dto.email)).filter (fun u => decide (u.id = userId) &&
      (lockedAt u m.now).isNone && u.isEmailVerified)).map fun u =>
        if passwordValid env u dto.password then .cleared else .wrong (lockSet env userId s req)
  | .resetPassword token _ m =>
    ((s.identity.passwordResetTokens.find? (isUsable (env.hashToken token) m.now)).filter
      (fun r => decide (r.userId = userId))).map fun _ => .cleared
  | _ => none

/-- A wrong password, which is looked at. -/
def GivesWrong (s : Store) : AuthRequest → Prop
  | .login dto _ m => ∃ u ∈ s.identity.users.find? (fun u => u.email = env.toLowerCase dto.email),
    u.id = userId ∧ lockedAt u m.now = none ∧ u.isEmailVerified = true ∧ passwordValid env u dto.password = false
  | _ => False

/-- The store with what has happened to the account, newest first. -/
abbrev Logged := Store × List (Event DateTime)

namespace Logged

def next (x : Logged) (req : AuthRequest) : Logged :=
  (Identity.next env x.1 req,(eventOf env userId x.1 req).toList ++ x.2)

/-- The request locks the account exactly when it is the last wrong password allowed. -/
def LocksInTime (x : Logged) (req : AuthRequest) : Prop :=
  LockedBy env userId x.1 req ↔ GivesWrong env userId x.1 req ∧ wrongSince req.now x.2 + 1 = maxAttempts env

/-- A wrong password after a lock that nothing has cleared since, with more than one allowed. -/
def WrongAfterLock (x : Logged) (req : AuthRequest) : Prop :=
  GivesWrong env userId x.1 req ∧ maxAttempts env ≠ 1 ∧
    ∃ u ∈ x.1.identity.users.find? (fun u => u.id = userId), u.status = .locked ∧ u.lockedUntil.isSome = true

end Logged

instance (s : Store) (req : AuthRequest) : Decidable (LockedBy env userId s req) :=
  inferInstanceAs (Decidable (∃ t ∈ lockSet env userId s req, ∃ u ∈ _, _))

instance (s : Store) : (req : AuthRequest) → Decidable (GivesWrong env userId s req)
  | .login _ _ _ => inferInstanceAs (Decidable (∃ u ∈ _, _))
  | .refresh _ _ _ => .isFalse not_false
  | .logout _ _ => .isFalse not_false
  | .forgotPassword _ _ => .isFalse not_false
  | .resetPassword _ _ _ => .isFalse not_false
  | .verifyEmail _ _ => .isFalse not_false

instance (x : Logged) (req : AuthRequest) : Decidable (x.LocksInTime env userId req) :=
  inferInstanceAs (Decidable (_ ↔ _ ∧ _))

instance (x : Logged) (req : AuthRequest) : Decidable (x.WrongAfterLock env userId req) :=
  inferInstanceAs (Decidable (_ ∧ _ ∧ ∃ u ∈ _, _))

end

/-! ## What a request records -/

section
variable {env : AuthEnv} {userId : Uuid} {s : Store} {ctx : LoginContext} {m : Moment}

theorem lockSet_eq_none {req : AuthRequest}
    (h : (next env s req).identity.securityEvents = s.identity.securityEvents) : lockSet env userId s req = none := by
  rw [lockSet,h,List.drop_length]
  rfl

theorem lockSet_append {req : AuthRequest} {e : SecurityEvent}
    (h : (next env s req).identity.securityEvents = s.identity.securityEvents ++ [e]) (htype : e.eventType = "account_locked") :
    lockSet env userId s req = if e.userId = userId then some e.lockedUntil else none := by
  rw [lockSet,h,List.drop_left]
  by_cases hid : e.userId = userId
  · simp [hid,htype]
  · simp [hid]

/-- Only logins record events. -/
theorem securityEvents_next {req : AuthRequest} (hreq : ∀ dto ctx m, req ≠ .login dto ctx m) :
    (next env s req).identity.securityEvents = s.identity.securityEvents := by
  have huser (p : User → Bool) (f : User → User) (_ : ∀ u, (f u).id = u.id) :
      (Prisma.user.update p f).Keeps fun s => s.identity.securityEvents := keeps_update (fun _ _ => rfl) p f
  cases req with
  | login dto ctx m => exact absurd rfl (hreq dto ctx m)
  | refresh raw ctx m => exact (keeps_refresh (g := fun s => s.identity.securityEvents) (fun _ _ => rfl) env raw ctx m).run s
  | logout raw m => rfl
  | forgotPassword email m =>
    simp only [next,forgotPassword,Prog.run_bind,TableRef.run_findUnique,Prog.resume_ok]
    cases (Prisma.user.get s).find? (fun u => u.email = env.toLowerCase email) <;> rfl
  | resetPassword token newPassword m =>
    exact (keeps_resetPassword (g := fun s => s.identity.securityEvents) (fun _ _ => rfl) (fun _ _ => rfl) huser env token
      newPassword m).run s
  | verifyEmail token m =>
    exact (keeps_verifyEmail (g := fun s => s.identity.securityEvents) (fun _ _ => rfl) huser env token m).run s

end

/-! ## What a request does to the account -/

/-- The row moves as the request means, and a lock is recorded exactly when the row is locked. -/
structure Followed (env : AuthEnv) (userId : Uuid) (u : User) (s : Store) (req : AuthRequest) : Prop where
  row : ∃ u', (next env s req).identity.users.find? (fun u => u.id = userId) = some u' ∧
    Moves (maxAttempts env) req.now (counterOf u) (eventOf env userId s req) (counterOf u') ∧
    ∀ t, eventOf env userId s req = some (.wrong (some t)) → u'.status = .locked ∧ u'.lockedUntil = some t
  lock : ∀ t ∈ lockSet env userId s req, eventOf env userId s req = some (.wrong (some t))

section
variable {env : AuthEnv} {userId : Uuid} {s : Store} {u : User}

theorem Followed.of_moves {req : AuthRequest} {e : Option (Event DateTime)} {u' : User}
    (hevent : eventOf env userId s req = e)
    (hrow : (next env s req).identity.users.find? (fun u => u.id = userId) = some u')
    (hmoves : Moves (maxAttempts env) req.now (counterOf u) e (counterOf u'))
    (hlocked : ∀ t, e = some (.wrong (some t)) → u'.status = .locked ∧ u'.lockedUntil = some t)
    (hlock : ∀ t ∈ lockSet env userId s req, e = some (.wrong (some t))) : Followed env userId u s req := by
  subst hevent
  exact ⟨⟨u',hrow,hmoves,hlocked⟩,hlock⟩

/-- A request that is nothing to the account. -/
theorem Followed.idle {req : AuthRequest} (hevent : eventOf env userId s req = none)
    (hrow : ∃ u', (next env s req).identity.users.find? (fun u => u.id = userId) = some u' ∧ counterOf u' = counterOf u)
    (hlock : lockSet env userId s req = none) : Followed env userId u s req := by
  obtain ⟨u',hu',hcounter⟩ := hrow
  refine .of_moves hevent hu' ?_ (fun t ht => by cases ht) ?_
  · rw [hcounter]
    exact .idle
  · rw [hlock]
    exact fun t ht => by cases ht

/-- A request that clears the row. -/
theorem Followed.clear {req : AuthRequest} (hevent : eventOf env userId s req = some .cleared)
    (hrow : ∃ u', (next env s req).identity.users.find? (fun u => u.id = userId) = some u' ∧ counterOf u' = ⟨0,none⟩)
    (hlock : lockSet env userId s req = none) : Followed env userId u s req := by
  obtain ⟨u',hu',hcounter⟩ := hrow
  refine .of_moves hevent hu' ?_ (fun t ht => by cases ht) ?_
  · rw [hcounter]
    exact .clear
  · rw [hlock]
    exact fun t ht => by cases ht

/-- A wrong password, which locks or not. -/
theorem Followed.wrong {req : AuthRequest} {lock : Option DateTime} {u' : User}
    (hevent : eventOf env userId s req = some (.wrong lock))
    (hrow : (next env s req).identity.users.find? (fun u => u.id = userId) = some u')
    (hmoves : Moves (maxAttempts env) req.now (counterOf u) (some (.wrong lock)) (counterOf u'))
    (hlocked : ∀ t, lock = some t → u'.status = .locked ∧ u'.lockedUntil = some t)
    (hlock : lockSet env userId s req = lock) : Followed env userId u s req := by
  refine .of_moves hevent hrow hmoves (fun t ht => hlocked t (Event.wrong.inj (Option.some.inj ht))) fun t ht => ?_
  rw [← hlock,Option.mem_def.mp ht]

/-- A request that leaves the users alone. -/
theorem row_of_users_eq {t : Store} (hrow : s.identity.users.find? (fun u => u.id = userId) = some u)
    (h : t.identity.users = s.identity.users) :
    ∃ u', t.identity.users.find? (fun u => u.id = userId) = some u' ∧ counterOf u' = counterOf u := by
  rw [h]
  exact ⟨u,hrow,rfl⟩

theorem find?_update_other {users : List User} (hrow : users.find? (fun u => u.id = userId) = some u) {v : Uuid}
    (hv : v ≠ userId) (f : User → User) (hid : ∀ u, (f u).id = u.id) :
    (Table.updateMany (fun u => u.id = v) f users).find? (fun u => u.id = userId) = some u := by
  have huid : u.id ≠ v := by
    rw [(Table.find?_key_some hrow).2]
    exact Ne.symm hv
  rw [find?_update v f hid,hrow]
  simp [huid]

theorem find?_update_self {users : List User} (hrow : users.find? (fun u => u.id = userId) = some u)
    (f : User → User) (hid : ∀ u, (f u).id = u.id) :
    (Table.updateMany (fun u => u.id = userId) f users).find? (fun u => u.id = userId) = some (f u) := by
  rw [find?_update userId f hid,hrow]
  simp [(Table.find?_key_some hrow).2]

variable {dto : LoginDto} {ctx : LoginContext} {m : Moment}

/-- A lock that has not run out is one that the row carries. -/
theorem lockedAt_eq_none_iff {now : DateTime} : lockedAt u now = none ↔ ∀ t ∈ (counterOf u).lock, t ≤ now := by
  unfold lockedAt counterOf
  by_cases hstatus : u.status = .locked
  · rw [if_pos hstatus]
    simp [hstatus,Option.filter_eq_none_iff]
  · rw [if_neg hstatus]
    simp [hstatus]

/-- An attempt on the account itself. -/
theorem followed_login_self (hrow : s.identity.users.find? (fun u => u.id = userId) = some u)
    (hf : s.identity.users.find? (fun u => u.email = env.toLowerCase dto.email) = some u) :
    Followed env userId u s (.login dto ctx m) := by
  have hid : u.id = userId := (Table.find?_key_some hrow).2
  have hself : s.identity.users.find? (fun q => q.id = u.id) = some u := by rw [hid]; exact hrow
  have hcounted := find?_update_self hrow countFailure fun _ => rfl
  cases loginOutcome (c := ctx) (m := m) hf hself with
  | refused hrefused _ husers hevents =>
    refine .idle ?_ (row_of_users_eq hrow husers) (lockSet_eq_none hevents)
    rcases hrefused with hl | hv
    · simp [eventOf,hf,Option.filter_some,Option.isSome_iff_ne_none.mp hl]
    · simp [eventOf,hf,Option.filter_some,hv]
  | entered hl hv hp _ husers hevents =>
    refine .clear (by simp [eventOf,hf,hl,hv,hp,hid,Option.filter_some]) ?_ (lockSet_eq_none hevents)
    rw [hid] at husers
    rw [husers]
    exact ⟨_,find?_update_self hrow resetAttempts fun _ => rfl,rfl⟩
  | counted hl hv hp hmax _ husers hevents =>
    have hevent : eventOf env userId s (.login dto ctx m) = some (.wrong none) := by
      simp [eventOf,hf,hl,hv,hp,hid,Option.filter_some,lockSet_eq_none hevents]
    rw [hid] at husers
    rw [← husers] at hcounted
    refine .wrong hevent hcounted ?_ (fun _ ht => by cases ht) (lockSet_eq_none hevents)
    exact .count (lockedAt_eq_none_iff.mp hl) hmax
  | locked hl hv hp hmax _ husers hevents =>
    have hset : lockSet env userId s (.login dto ctx m) = some (lockEnd env m) := by
      rw [lockSet_append hevents rfl,if_pos hid]
    have hevent : eventOf env userId s (.login dto ctx m) = some (.wrong (some (lockEnd env m))) := by
      simp [eventOf,hf,hl,hv,hp,hid,Option.filter_some,hset]
    have hlocked := find?_update_self hcounted (lockUser (lockEnd env m)) fun _ => rfl
    rw [hid] at husers
    rw [← husers] at hlocked
    refine .wrong hevent hlocked ?_ (fun t ht => ⟨rfl,ht⟩) hset
    exact .lock (lockedAt_eq_none_iff.mp hl) hmax _

/-- An attempt on another account. -/
theorem followed_login_other (hu : UniqueUsers s) (hrow : s.identity.users.find? (fun u => u.id = userId) = some u) {q : User}
    (hf : s.identity.users.find? (fun u => u.email = env.toLowerCase dto.email) = some q) (hid : q.id ≠ userId) :
    Followed env userId u s (.login dto ctx m) := by
  have hself : s.identity.users.find? (fun x => x.id = q.id) = some q := Table.find?_of_mem hu (List.mem_of_find?_eq_some hf)
  have hevent : eventOf env userId s (.login dto ctx m) = none := by simp [eventOf,hf,hid,Option.filter_some]
  have hcounted := find?_update_other hrow hid countFailure fun _ => rfl
  cases loginOutcome (c := ctx) (m := m) hf hself with
  | refused _ _ husers hevents => exact .idle hevent (row_of_users_eq hrow husers) (lockSet_eq_none hevents)
  | entered _ _ _ _ husers hevents =>
    refine .idle hevent ⟨u,?_,rfl⟩ (lockSet_eq_none hevents)
    rw [husers]
    exact find?_update_other hrow hid resetAttempts fun _ => rfl
  | counted _ _ _ _ _ husers hevents =>
    refine .idle hevent ⟨u,?_,rfl⟩ (lockSet_eq_none hevents)
    rw [husers]
    exact hcounted
  | locked _ _ _ _ _ husers hevents =>
    refine .idle hevent ⟨u,?_,rfl⟩ ?_
    · rw [husers]
      exact find?_update_other hcounted hid (lockUser (lockEnd env m)) fun _ => rfl
    · rw [lockSet_append hevents rfl,if_neg hid]

theorem followed_resetPassword (hrow : s.identity.users.find? (fun u => u.id = userId) = some u) (token newPassword : String) :
    Followed env userId u s (.resetPassword token newPassword m) := by
  have hlock : lockSet env userId s (.resetPassword token newPassword m) = none :=
    lockSet_eq_none (securityEvents_next fun _ _ _ h => by cases h)
  cases hf : s.identity.passwordResetTokens.find? (isUsable (env.hashToken token) m.now) with
  | none =>
    refine .idle (by simp [eventOf,hf]) ?_ hlock
    rw [next,run_resetPassword_unknown hf]
    exact ⟨u,hrow,rfl⟩
  | some r =>
    have husers : (next env s (.resetPassword token newPassword m)).identity.users = _ := run_resetPassword_users newPassword hf
    by_cases hid : r.userId = userId
    · refine .clear (by simp [eventOf,hf,hid,Option.filter_some]) ?_ hlock
      rw [husers,hid]
      exact ⟨_,find?_update_self hrow (resetRow (env.hashPassword newPassword)) fun _ => rfl,rfl⟩
    · refine .idle (by simp [eventOf,hf,hid,Option.filter_some]) ?_ hlock
      rw [husers]
      exact ⟨u,find?_update_other hrow hid (resetRow (env.hashPassword newPassword)) fun _ => rfl,rfl⟩

/-- A verification changes a column that is not counted. -/
theorem row_verifyEmail (hrow : s.identity.users.find? (fun u => u.id = userId) = some u) (token : String) :
    ∃ u', (next env s (.verifyEmail token m)).identity.users.find? (fun u => u.id = userId) = some u' ∧
      counterOf u' = counterOf u := by
  cases hf : s.identity.emailVerificationTokens.find? (isUsable (env.hashToken token) m.now) with
  | none =>
    rw [next,run_verifyEmail_unknown hf]
    exact ⟨u,hrow,rfl⟩
  | some r =>
    have husers : (next env s (.verifyEmail token m)).identity.users = _ := run_verifyEmail_users hf
    rw [husers]
    by_cases hid : r.userId = userId
    · rw [hid]
      exact ⟨_,find?_update_self hrow setVerified fun _ => rfl,rfl⟩
    · exact ⟨u,find?_update_other hrow hid setVerified fun _ => rfl,rfl⟩

theorem followed_refresh (hrow : s.identity.users.find? (fun u => u.id = userId) = some u) (raw : String) :
    Followed env userId u s (.refresh raw ctx m) := by
  refine .idle rfl ?_ (lockSet_eq_none (securityEvents_next fun _ _ _ h => by cases h))
  have husers := (keeps_refresh (g := fun s => s.identity.users) (fun _ _ => rfl) env raw ctx m).run s
  exact row_of_users_eq hrow husers

/-- Every request does to the account what it means for it. -/
theorem followed_next (hu : UniqueUsers s) (hrow : s.identity.users.find? (fun u => u.id = userId) = some u)
    (req : AuthRequest) : Followed env userId u s req := by
  cases req with
  | login dto ctx m =>
    cases hf : s.identity.users.find? (fun u => u.email = env.toLowerCase dto.email) with
    | none =>
      have hnext : next env s (.login dto ctx m) = s := by rw [next,run_login_unknown hf]
      exact .idle (by simp [eventOf,hf]) (row_of_users_eq hrow (by rw [hnext])) (lockSet_eq_none (by rw [hnext]))
    | some q =>
      by_cases hid : q.id = userId
      · have hsame : q = u := by
          obtain ⟨hmem,huid⟩ := Table.find?_key_some hrow
          exact Table.eq_of_key hu (List.mem_of_find?_eq_some hf) hmem (hid.trans huid.symm)
        exact followed_login_self hrow (hsame ▸ hf)
      · exact followed_login_other hu hrow hf hid
  | refresh raw ctx m => exact followed_refresh hrow raw
  | logout raw m => exact .idle rfl ⟨u,hrow,rfl⟩ (lockSet_eq_none rfl)
  | forgotPassword email m =>
    refine .idle rfl ?_ (lockSet_eq_none (securityEvents_next fun _ _ _ h => by cases h))
    exact row_of_users_eq hrow (run_forgotPassword_users env s m email)
  | resetPassword token newPassword m => exact followed_resetPassword hrow token newPassword
  | verifyEmail token m =>
    exact .idle rfl (row_verifyEmail hrow token) (lockSet_eq_none (securityEvents_next fun _ _ _ h => by cases h))

end

/-! ## Runs -/

/-- The row of the account agrees with the log. -/
def Logged.Agrees (env : AuthEnv) (userId : Uuid) (x : Logged) : Prop :=
  UniqueUsers x.1 ∧ ∃ u, x.1.identity.users.find? (fun u => u.id = userId) = some u ∧
    Tallied (maxAttempts env) (counterOf u) x.2

section
variable {env : AuthEnv} {userId : Uuid} {x : Logged}

theorem Logged.Agrees.next (hmax : 0 < maxAttempts env) (h : x.Agrees env userId) (req : AuthRequest) :
    (x.next env userId req).Agrees env userId := by
  obtain ⟨hu,u,hrow,htally⟩ := h
  obtain ⟨⟨u',hrow',hmoves,-⟩,-⟩ := @followed_next env _ _ _ hu hrow req
  exact ⟨uniqueUsers_next env hu req,u',hrow',htally.step hmax hmoves⟩

/-- A wrong password is noted with the lock that is recorded for it. -/
theorem eventOf_eq_wrong_iff {s : Store} {req : AuthRequest} {lock : Option DateTime} :
    eventOf env userId s req = some (.wrong lock) ↔ GivesWrong env userId s req ∧ lockSet env userId s req = lock := by
  unfold eventOf GivesWrong
  cases req with
  | login dto ctx m =>
    cases hf : s.identity.users.find? (fun u => u.email = env.toLowerCase dto.email) with
    | none => simp [hf]
    | some u =>
      cases hp : passwordValid env u dto.password with
      | true => simp [hf,hp]
      | false => simp [hf,hp,Option.filter_some,and_assoc]
  | resetPassword token newPassword m =>
    cases hf : s.identity.passwordResetTokens.find? (isUsable (env.hashToken token) m.now) with
    | none => simp [hf]
    | some r => simp [hf]
  | _ => simp

theorem givesWrong_iff {s : Store} {req : AuthRequest} :
    GivesWrong env userId s req ↔ ∃ lock, eventOf env userId s req = some (.wrong lock) := by
  simp only [eventOf_eq_wrong_iff,exists_and_left,exists_eq',and_true]

/-- A lock of the account is a wrong password that locks. -/
theorem lockedBy_iff {s : Store} {u : User} {req : AuthRequest} (h : Followed env userId u s req) :
    LockedBy env userId s req ↔ ∃ t, eventOf env userId s req = some (.wrong (some t)) := by
  constructor
  · rintro ⟨t,ht,-⟩
    exact ⟨t,h.lock t ht⟩
  · rintro ⟨t,ht⟩
    obtain ⟨u',hrow',-,hlocked⟩ := h.row
    exact ⟨t,(eventOf_eq_wrong_iff.mp ht).2,u',hrow',hlocked t ht⟩

theorem lock_counterOf {u : User} : (counterOf u).lock.isSome = true ↔ u.status = .locked ∧ u.lockedUntil.isSome = true := by
  unfold counterOf
  by_cases hstatus : u.status = .locked
  · simp [hstatus]
  · simp [hstatus]

theorem Logged.locksInTime_iff (h : x.Agrees env userId) (req : AuthRequest) :
    x.LocksInTime env userId req ↔ ¬ x.WrongAfterLock env userId req := by
  obtain ⟨hu,u,hrow,htally⟩ := h
  have hfollowed := @followed_next env _ _ _ hu hrow req
  obtain ⟨u',-,hmoves,-⟩ := hfollowed.row
  rw [LocksInTime,lockedBy_iff hfollowed,givesWrong_iff,htally.locks_iff hmoves,WrongAfterLock,givesWrong_iff,hrow,
    lock_counterOf]
  simp only [Option.mem_def,Option.some.injEq,exists_eq_left',and_comm (a := maxAttempts env ≠ 1)]

end

/-- Over every sequence of requests the account is locked by exactly those attempts that are the last wrong password
allowed since the count was cleared or the last lock ended, exactly when no wrong password follows a lock that
nothing has cleared, or only one is allowed. -/
theorem locksInTime_along_iff (env : AuthEnv) (userId : Uuid) {s : Store} {u : User} (hu : UniqueUsers s)
    (hrow : s.identity.users.find? (fun u => u.id = userId) = some u) (hcount : u.failedLoginAttempts = 0)
    (hstatus : u.status ≠ .locked) (hmax : 1 ≤ maxAttempts env) (requests : List AuthRequest) :
    Along (Logged.next env userId) (fun x req => x.LocksInTime env userId req) (s,[]) requests ↔
      Along (Logged.next env userId) (fun x req => ¬ x.WrongAfterLock env userId req) (s,[]) requests := by
  have htally : Tallied (maxAttempts env) (counterOf u) [] :=
    .unlocked (if_neg hstatus) (by rw [counterOf,hcount]; exact hmax) fun _ => hcount.symm
  exact along_iff (A := fun _ _ => True) (I := fun x => x.Agrees env userId) (fun x req hx _ => Logged.locksInTime_iff hx req)
    (fun x req hx _ _ => hx.next hmax req) ⟨hu,u,hrow,htally⟩ (along_true _ _)

/-- Two wrong passwords lock for a minute. -/
def twoAllowed : AuthEnv := { plainEnv with maxFailedLoginAttempts := some 2, accountLockDurationMinutes := some 1 }

def verifiedUser : User := { id := 1, email := "ana@example.com", passwordHash := some "Secret123", isEmailVerified := true }

def verifiedStore : Store where
  identity.users := [verifiedUser]

/-- A login of the user after so many seconds. -/
def attemptAt (seconds : ℤ) (password : String) : AuthRequest :=
  .login ⟨"ana@example.com",password,none⟩ { deviceFingerprint := "d" } { now := seconds * 1000, newId := seconds.toNat }

/-- The second wrong password locks, and so does the fourth, since the right one came in between. -/
theorem locksInTime_along_iff_twoAllowed :
    Along (Logged.next twoAllowed 1) (fun x req => x.LocksInTime twoAllowed 1 req) (verifiedStore,[])
      [attemptAt 0 "guess",attemptAt 1 "guess",attemptAt 30 "Secret123",attemptAt 61 "Secret123",attemptAt 62 "guess",
        attemptAt 63 "guess"] :=
  (locksInTime_along_iff twoAllowed 1 (s := verifiedStore) (u := verifiedUser) (by unfold UniqueUsers; decide) rfl rfl
    (by decide) (by decide) _).mpr (by decide +kernel)

/-- When the lock has run out, the first wrong password locks again. -/
theorem twoAllowed_not_locksInTime :
    UniqueUsers verifiedStore ∧ 1 ≤ maxAttempts twoAllowed ∧
      ¬ Along (Logged.next twoAllowed 1) (fun x req => x.LocksInTime twoAllowed 1 req) (verifiedStore,[])
        [attemptAt 0 "guess",attemptAt 1 "guess",attemptAt 61 "guess"] :=
  ⟨by unfold UniqueUsers; decide,by decide,by decide +kernel⟩

end PinoyTax.Identity
