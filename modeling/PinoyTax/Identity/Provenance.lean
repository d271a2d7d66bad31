import PinoyTax.Foundation.Reliance
import PinoyTax.Identity.AccountStatus
import PinoyTax.Identity.Registration

/-! # From registration to the first session

Requests of all kinds arrive at any time and their statements interleave: a session is only
ever opened for a user for whom somebody has presented the token that was mailed.
-/
namespace PinoyTax.Identity
open PinoyTax Foundation

inductive AccountRequest
  | register (dto : RegisterDto) (userId : Uuid) (m : Moment)
  | auth (req : AuthRequest)
  | revokeSession (userId sessionId : Uuid) (m : Moment)
  | seedPlatformAdminOnBoot (email password : String) (userId : Uuid)

def AuthRequest.program (env : AuthEnv) : AuthRequest → Request Unit
  | login dto ctx m => (Identity.login env dto ctx m).discard
  | refresh rawRefreshToken ctx m => (Identity.refresh env rawRefreshToken ctx m).discard
  | logout rawRefreshToken m => Identity.logout env rawRefreshToken m
  | forgotPassword email m => Identity.forgotPassword env email m
  | resetPassword token newPassword m => Identity.resetPassword env token newPassword m
  | verifyEmail token m => Identity.verifyEmail env token m

def AccountRequest.program (env : AuthEnv) : AccountRequest → Request Unit
  | register dto userId m => (Identity.register env dto userId m).discard
  | auth req => req.program env
  | revokeSession userId sessionId m => Identity.revokeSession userId sessionId m
  | seedPlatformAdminOnBoot email password userId => Identity.seedPlatformAdminOnBoot env email password userId

/-! ## What stands behind an account -/

section
variable (env : AuthEnv) (presented : String → Prop) (seeded : Uuid → Prop)

/-- The user's address is confirmed. -/
def Verified (s : Store) (userId : Uuid) : Prop := ∃ u ∈ s.identity.users, u.id = userId ∧ u.isEmailVerified = true

/-- A token mailed to the user has been presented and used, or the process itself has created the user. -/
def VouchedFor (s : Store) (userId : Uuid) : Prop :=
  seeded userId ∨ ∃ t ∈ s.identity.emailVerificationTokens, t.userId = userId ∧ t.usedAt.isSome = true ∧
    ∃ raw, presented raw ∧ env.hashToken raw = t.tokenHash

/-- Addresses are confirmed by tokens, and sessions are of users with confirmed addresses. -/
structure Accounted (s : Store) : Prop where
  users : ∀ u ∈ s.identity.users, u.isEmailVerified = true → VouchedFor env presented seeded s u.id
  sessions : ∀ x ∈ s.identity.sessions, Verified s x.userId

def HasToken (s : Store) (id userId : Uuid) (tokenHash : String) : Prop :=
  ∃ t ∈ s.identity.emailVerificationTokens, t.id = id ∧ t.userId = userId ∧ t.tokenHash = tokenHash

/-- Confirmed addresses stay confirmed, and tokens stay their users'. -/
structure StaysVerified (s t : Store) : Prop where
  verified : ∀ userId, Verified s userId → Verified t userId
  tokens : ∀ id userId tokenHash, HasToken s id userId tokenHash → HasToken t id userId tokenHash

def accounting : Discipline Store where
  Inv := Accounted env presented seeded
  Admits _ := True
  Later := StaysVerified
  refl _ := ⟨fun _ h => h,fun _ _ _ h => h⟩
  trans h h' := ⟨fun id hid => h'.verified id (h.verified id hid),fun id u k hid => h'.tokens id u k (h.tokens id u k hid)⟩

/-- Verification tokens that arrive have been presented, and administrators have ids set aside. -/
def AccountArrives (p : Request Unit) : Prop :=
  ∃ req : AccountRequest, p = req.program env ∧ (∀ token m, req = .auth (.verifyEmail token m) → presented token) ∧
    ∀ email password userId, req = .seedPlatformAdminOnBoot email password userId → seeded userId

end

section
variable {env : AuthEnv} {presented : String → Prop} {seeded : Uuid → Prop} {s t : Store}

theorem VouchedFor.of_tokens {userId : Uuid} (h : VouchedFor env presented seeded s userId)
    (ht : t.identity.emailVerificationTokens = s.identity.emailVerificationTokens) :
    VouchedFor env presented seeded t userId := by
  rw [VouchedFor,ht]
  exact h

/-- The users, their verification tokens and their sessions. -/
def accountView (s : Store) : List User × List MailedToken × List Session :=
  (s.identity.users,s.identity.emailVerificationTokens,s.identity.sessions)

/-- Users that are there stay, confirmed if they were; who is new or newly confirmed is vouched for. -/
theorem Accounted.setUsers (hs : Accounted env presented seeded s)
    (htokens : t.identity.emailVerificationTokens = s.identity.emailVerificationTokens)
    (hsessions : t.identity.sessions = s.identity.sessions)
    (hold : ∀ u ∈ s.identity.users, ∃ v ∈ t.identity.users, v.id = u.id ∧ (u.isEmailVerified = true → v.isEmailVerified = true))
    (hnew : ∀ v ∈ t.identity.users, v.isEmailVerified = true → (∃ u ∈ s.identity.users, u.id = v.id ∧ u.isEmailVerified = true) ∨
      VouchedFor env presented seeded s v.id) : Accounted env presented seeded t ∧ StaysVerified s t := by
  have hverified : ∀ userId, Verified s userId → Verified t userId := by
    rintro userId ⟨u,hu,rfl,hv⟩
    obtain ⟨v,hmem,hid,hkeep⟩ := hold u hu
    exact ⟨v,hmem,hid,hkeep hv⟩
  refine ⟨⟨fun v hv hver => ?_,fun x hx => ?_⟩,hverified,fun id userId tokenHash h => ?_⟩
  · rcases hnew v hv hver with ⟨u,hu,hid,hu'⟩ | hvouched
    · rw [← hid]
      exact (hs.users u hu hu').of_tokens htokens
    · exact hvouched.of_tokens htokens
  · rw [hsessions] at hx
    exact hverified _ (hs.sessions x hx)
  · rw [HasToken,htokens]
    exact h

/-- An update that leaves ids and confirmations as they are. -/
theorem Accounted.updateUsers (hs : Accounted env presented seeded s) (p : User → Bool) {f : User → User}
    (hid : ∀ u, (f u).id = u.id) (hver : ∀ u, (f u).isEmailVerified = u.isEmailVerified) :
    Accounted env presented seeded (Prisma.user.set (Table.updateMany p f s.identity.users) s) ∧
      StaysVerified s (Prisma.user.set (Table.updateMany p f s.identity.users) s) := by
  refine hs.setUsers rfl rfl (fun u hu => ?_) fun v hv hv' => ?_
  · by_cases hp : p u = true
    · exact ⟨f u,Table.mem_updateMany_image hu hp,hid u,fun h => by rwa [hver]⟩
    · exact ⟨u,Table.mem_updateMany_of_mem hu (by simpa using hp),rfl,fun h => h⟩
  · rcases Table.mem_updateMany_cases hv with ⟨hv,-⟩ | ⟨u,hu,-,rfl⟩
    · exact .inl ⟨v,hv,rfl,hv'⟩
    · rw [hver] at hv'
      exact .inl ⟨u,hu,(hid u).symm,hv'⟩

/-- Sessions of users with confirmed addresses. -/
theorem Accounted.setSessions (hs : Accounted env presented seeded s) {sessions : List Session}
    (h : ∀ x ∈ sessions, Verified s x.userId) :
    Accounted env presented seeded (Prisma.session.set sessions s) ∧ StaysVerified s (Prisma.session.set sessions s) :=
  ⟨⟨hs.users,h⟩,fun _ h => h,fun _ _ _ h => h⟩

theorem Accounted.addSession (hs : Accounted env presented seeded s) {x : Session} (hx : Verified s x.userId) :
    Accounted env presented seeded (Prisma.session.set (s.identity.sessions ++ [x]) s) ∧
      StaysVerified s (Prisma.session.set (s.identity.sessions ++ [x]) s) := by
  refine hs.setSessions fun y hy => ?_
  rcases List.mem_append.mp hy with hy | hy
  · exact hs.sessions y hy
  · obtain rfl := List.mem_singleton.mp hy
    exact hx

theorem Accounted.updateSessions (hs : Accounted env presented seeded s) (p : Session → Bool) {f : Session → Session}
    (hf : ∀ x, (f x).userId = x.userId) :
    Accounted env presented seeded (Prisma.session.set (Table.updateMany p f s.identity.sessions) s) ∧
      StaysVerified s (Prisma.session.set (Table.updateMany p f s.identity.sessions) s) := by
  refine hs.setSessions fun x hx => ?_
  rcases Table.mem_updateMany_cases hx with ⟨hx,-⟩ | ⟨q,hq,-,rfl⟩
  · exact hs.sessions x hx
  · rw [hf]
    exact hs.sessions q hq

theorem Accounted.of_view (hs : Accounted env presented seeded s) (h : accountView t = accountView s) :
    Accounted env presented seeded t ∧ StaysVerified s t := by
  simp only [accountView,Prod.mk.injEq] at h
  obtain ⟨husers,htokens,hsessions⟩ := h
  refine hs.setUsers htokens hsessions (fun u hu => ⟨u,by rwa [husers],rfl,fun h => h⟩) fun v hv hv' => ?_
  rw [husers] at hv
  exact .inl ⟨v,hv,rfl,hv'⟩

/-! ## The requests -/

abbrev Accountable {α : Type} (env : AuthEnv) (presented : String → Prop) (seeded : Uuid → Prop) (p : Request α)
    (s : Store) : Prop := p.Respects (accounting env presented seeded) (fun _ _ => True) s

/-- A program that only reads or writes elsewhere, and what follows it. -/
theorem accountable_view_bind {α β : Type} {p : Request α} {f : α → Request β} (h : p.Keeps accountView)
    (hf : ∀ a t, StaysVerified s t → Accountable env presented seeded (f a) t) :
    Accountable env presented seeded (p >>= f) s := by
  have hview : p.Guarantees fun _ s t => (accounting env presented seeded).Inv s → True →
      (accounting env presented seeded).Inv t ∧ (accounting env presented seeded).Later s t :=
    h.mono fun _ _ _ hst hs _ => hs.of_view hst
  exact Prog.Guarantees.respects_bind (D := accounting env presented seeded) hview hf

theorem accountable_orThrow_bind {ρ β : Type} {e : ApiException} {o : Option ρ} {f : ρ → Request β}
    (h : ∀ r, o = some r → Accountable env presented seeded (f r) s) :
    Accountable env presented seeded (orThrow e o >>= f) s := by
  cases o with
  | none => trivial
  | some r => exact h r rfl

theorem accountable_discard {α : Type} {p : Request α} (h : Accountable env presented seeded p s) :
    Accountable env presented seeded p.discard s := h.bind fun _ _ _ _ _ => trivial

/-- An update of a table, and what follows it. -/
theorem accountable_update_bind {ρ β : Type} {T : TableRef ρ} {p : ρ → Bool} {g : ρ → ρ} {f : ρ → Request β}
    (h : ∀ t, Accounted env presented seeded t → Accounted env presented seeded (T.set (Table.updateMany p g (T.get t)) t) ∧
      StaysVerified t (T.set (Table.updateMany p g (T.get t)) t))
    (hf : ∀ a t, StaysVerified s t → Accountable env presented seeded (f a) t) :
    Accountable env presented seeded (T.update p g >>= f) s := by
  intro t hst ht _
  obtain ⟨hinv,hlater⟩ := h t ht
  have hlater' := (accounting env presented seeded).trans hst hlater
  refine ⟨hinv,hlater,?_⟩
  dsimp only
  cases (T.get t).find? p with
  | none => trivial
  | some r => exact hf (g r) _ hlater'

theorem accountable_recordLoginAttempt (userId : Uuid) (status : LoginStatus) (ctx : LoginContext) :
    (recordLoginAttempt userId status ctx).Keeps accountView := fun _ => ⟨rfl,trivial⟩

/-- The new session is of the user, whose address is confirmed. -/
theorem accountable_issueTokenPair {userId : Uuid} (hver : Verified s userId) (email : String) (ctx : LoginContext)
    (rememberMe : Bool) (m : Moment) :
    Accountable env presented seeded (issueTokenPair env userId email ctx rememberMe m) s := by
  intro t hst ht _
  have hadd : ∀ x : Session, x.userId = userId → Accounted env presented seeded
      (Prisma.session.set (t.identity.sessions ++ [x]) t) ∧ StaysVerified t
      (Prisma.session.set (t.identity.sessions ++ [x]) t) := by
    rintro x rfl
    exact ht.addSession (hst.verified _ hver)
  exact ⟨(hadd _ rfl).1,(hadd _ rfl).2,fun _ _ => trivial⟩

theorem accountable_handleFailedLogin (userId : Uuid) (ctx : LoginContext) (m : Moment) :
    Accountable env presented seeded (handleFailedLogin env userId ctx m) s := by
  refine accountable_update_bind (fun t ht => ht.updateUsers _ (fun _ => rfl) fun _ => rfl) fun user t _ => ?_
  refine accountable_view_bind (accountable_recordLoginAttempt userId .failed_password ctx) fun _ t _ => ?_
  split
  · refine accountable_update_bind (fun t ht => ht.updateUsers _ (fun _ => rfl) fun _ => rfl) fun _ t _ => ?_
    exact accountable_view_bind (p := Prisma.securityEvent.create _) (fun _ => ⟨rfl,trivial⟩) fun _ _ _ _ _ => trivial
  · exact fun _ _ => trivial

theorem accountable_login (dto : LoginDto) (ctx : LoginContext) (m : Moment) :
    Accountable env presented seeded (login env dto ctx m) s := by
  apply Prog.respects_query_bind
  intro t _ ht
  cases hfound : (Prisma.user.get t).find? (fun u => u.email = env.toLowerCase dto.email) with
  | none => trivial
  | some user =>
    have hmem := List.mem_of_find?_eq_some hfound
    dsimp only
    split
    · exact accountable_view_bind (accountable_recordLoginAttempt user.id .failed_locked ctx) fun _ _ _ => trivial
    · split
      · exact accountable_view_bind (accountable_recordLoginAttempt user.id .failed_unverified ctx) fun _ _ _ => trivial
      · rename_i hverified
        split
        · exact (accountable_handleFailedLogin user.id ctx m).bind fun _ _ _ => trivial
        · have hver : Verified t user.id := ⟨user,hmem,rfl,by simpa using hverified⟩
          refine accountable_update_bind (fun t ht => ht.updateUsers _ (fun _ => rfl) fun _ => rfl) fun _ u htu => ?_
          refine accountable_view_bind (accountable_recordLoginAttempt user.id .success ctx) fun _ v huv => ?_
          have hver' := huv.verified _ (htu.verified _ hver)
          exact (accountable_issueTokenPair hver' user.email ctx _ m).bind fun _ _ _ _ _ => trivial

theorem accountable_refresh (rawRefreshToken : String) (ctx : LoginContext) (m : Moment) :
    Accountable env presented seeded (refresh env rawRefreshToken ctx m) s := by
  apply Prog.respects_query_bind
  intro t _ ht
  cases hfound : (Prisma.session.get t).find? (isLive (env.hashToken rawRefreshToken) m.now) with
  | none => trivial
  | some x =>
    have hver := ht.sessions x (List.mem_of_find?_eq_some hfound)
    apply Prog.respects_query_bind
    intro u htu _
    apply accountable_orThrow_bind
    intro user huser
    have hid : user.id = x.userId := (Table.find?_key_some huser).2
    refine accountable_update_bind (fun t ht => ht.updateSessions _ fun _ => rfl) fun _ v huv => ?_
    have hver' := huv.verified _ (htu.verified _ hver)
    rw [← hid] at hver'
    exact accountable_issueTokenPair hver' user.email ctx _ m

theorem accountable_endSessions (p : Session → Bool) (now : DateTime) :
    Accountable env presented seeded (Prisma.session.updateMany p (revoke now)) s := by
  intro t _ ht _
  obtain ⟨hinv,hlater⟩ := ht.updateSessions p (f := revoke now) fun _ => rfl
  exact ⟨hinv,hlater,fun _ _ => trivial⟩

theorem accountable_forgotPassword (email : String) (m : Moment) :
    Accountable env presented seeded (forgotPassword env email m) s := by
  apply Prog.respects_query_bind
  intro t _ _
  cases (Prisma.user.get t).find? (fun u => u.email = env.toLowerCase email) with
  | none => exact fun _ _ => trivial
  | some user =>
    exact accountable_view_bind (p := Prisma.passwordResetToken.create _) (fun _ => ⟨rfl,trivial⟩) fun _ _ _ _ _ => trivial

theorem accountable_transaction {α : Type} {body : Request α}
    (h : ∀ t a t', StaysVerified s t → Accounted env presented seeded t → body.run t = (.ok a,t') →
      Accounted env presented seeded t' ∧ StaysVerified t t') : Accountable env presented seeded (transaction body) s := by
  intro t hst ht _
  dsimp only
  cases hbody : body.run t with
  | mk r t' =>
    cases r with
    | ok a =>
      obtain ⟨hinv,hlater⟩ := h t a t' hst ht hbody
      exact ⟨hinv,hlater,fun _ _ => trivial⟩
    | error e => exact ⟨ht,(accounting env presented seeded).refl t,trivial⟩

/-- The result of an update that succeeds, and the table it leaves. -/
theorem run_update_ok {ρ : Type} {T : TableRef ρ} {p : ρ → Bool} {f : ρ → ρ} {a : ρ}
    (h : (T.update p f).run s = (.ok a,t)) :
    (∃ r ∈ T.get s, p r = true) ∧ t = T.set (Table.updateMany p f (T.get s)) s := by
  rw [TableRef.run_update,TableRef.updateReply] at h
  cases hfound : (T.get s).find? p with
  | none =>
    rw [hfound] at h
    cases h
  | some r =>
    rw [hfound] at h
    exact ⟨⟨r,List.mem_of_find?_eq_some hfound,List.find?_some hfound⟩,(congrArg Prod.snd h).symm⟩

/-- The first part of a sequence that succeeds has succeeded. -/
theorem run_bind_ok {α β : Type} {p : Request α} {f : α → Request β} {b : β} (h : (p >>= f).run s = (.ok b,t)) :
    ∃ a u, p.run s = (.ok a,u) ∧ (f a).run u = (.ok b,t) := by
  rw [Prog.run_bind] at h
  cases hp : p.run s with
  | mk r u =>
    rw [hp] at h
    cases r with
    | ok a => exact ⟨a,u,rfl,h⟩
    | error e => cases h

theorem accountable_resetPassword (token newPassword : String) (m : Moment) :
    Accountable env presented seeded (resetPassword env token newPassword m) s := by
  apply Prog.respects_query_bind
  intro t _ _
  cases (Prisma.passwordResetToken.get t).find? (isUsable (env.hashToken token) m.now) with
  | none => trivial
  | some record =>
    apply accountable_transaction
    intro u a u' _ hu hrun
    obtain ⟨_,v,htoken,hrun⟩ := run_bind_ok hrun
    obtain ⟨_,w,huser,hrun⟩ := run_bind_ok hrun
    obtain ⟨-,rfl⟩ := run_update_ok htoken
    obtain ⟨-,rfl⟩ := run_update_ok huser
    obtain ⟨-,rfl⟩ := Prod.mk.inj hrun
    obtain ⟨hmarked,hfirst⟩ := hu.of_view (t := Prisma.passwordResetToken.set
      (Table.updateMany (fun t => t.id = record.id) (markUsed m.now) u.identity.passwordResetTokens) u) rfl
    obtain ⟨hreset,hsecond⟩ := hmarked.updateUsers (fun u => u.id = record.userId)
      (f := resetRow (env.hashPassword newPassword)) (fun _ => rfl) fun _ => rfl
    obtain ⟨hended,hthird⟩ := hreset.updateSessions (fun x => decide (x.userId = record.userId) && x.revokedAt.isNone)
      (f := revoke m.now) fun _ => rfl
    have hlater := (accounting env presented seeded).trans hfirst ((accounting env presented seeded).trans hsecond hthird)
    exact ⟨hended,hlater⟩

/-- The token that is used up is the user's whose address it confirms. -/
theorem accountable_verifyEmail {token : String} (hpresented : presented token) (m : Moment) :
    Accountable env presented seeded (verifyEmail env token m) s := by
  apply Prog.respects_query_bind
  intro t _ _
  cases hfound : (Prisma.emailVerificationToken.get t).find? (isUsable (env.hashToken token) m.now) with
  | none => trivial
  | some record =>
    have hhash : record.tokenHash = env.hashToken token := (isUsable_eq_true.mp (List.find?_some hfound)).1
    have htoken : HasToken t record.id record.userId record.tokenHash :=
      ⟨record,List.mem_of_find?_eq_some hfound,rfl,rfl,rfl⟩
    apply accountable_transaction
    intro u a u' htu hu hrun
    obtain ⟨_,v,hmark,hrun⟩ := run_bind_ok hrun
    obtain ⟨_,w,huser,hrun⟩ := run_bind_ok hrun
    obtain ⟨-,rfl⟩ := run_update_ok hmark
    obtain ⟨-,rfl⟩ := run_update_ok huser
    obtain ⟨-,rfl⟩ := Prod.mk.inj hrun
    obtain ⟨q,hq,hqid,hquser,hqhash⟩ := htu.tokens _ _ _ htoken
    let tokens := Table.updateMany (fun t => t.id = record.id) (markUsed m.now) u.identity.emailVerificationTokens
    let users := Table.updateMany (fun u => u.id = record.userId) setVerified u.identity.users
    have hused : markUsed m.now q ∈ tokens := Table.mem_updateMany_image hq (by simpa using hqid)
    have hkept : ∀ {id userId : Uuid} {hash : String}, HasToken u id userId hash →
        ∃ t ∈ tokens, t.id = id ∧ t.userId = userId ∧ t.tokenHash = hash := by
      rintro id userId hash ⟨r,hr,hrest⟩
      by_cases hid : r.id = record.id
      · exact ⟨markUsed m.now r,Table.mem_updateMany_image hr (by simpa using hid),hrest⟩
      · exact ⟨r,Table.mem_updateMany_of_mem hr (by simpa using hid),hrest⟩
    have hvouched : ∀ {userId : Uuid}, VouchedFor env presented seeded u userId →
        seeded userId ∨ ∃ t ∈ tokens, t.userId = userId ∧ t.usedAt.isSome = true ∧
          ∃ raw, presented raw ∧ env.hashToken raw = t.tokenHash := by
      rintro userId (hseeded | ⟨r,hr,hruser,hrused,hraw⟩)
      · exact .inl hseeded
      · by_cases hid : r.id = record.id
        · exact .inr ⟨markUsed m.now r,Table.mem_updateMany_image hr (by simpa using hid),hruser,rfl,hraw⟩
        · exact .inr ⟨r,Table.mem_updateMany_of_mem hr (by simpa using hid),hruser,hrused,hraw⟩
    have hverified : ∀ userId, Verified u userId → ∃ v ∈ users, v.id = userId ∧ v.isEmailVerified = true := by
      rintro userId ⟨x,hx,hxid,hxver⟩
      by_cases hid : x.id = record.userId
      · exact ⟨setVerified x,Table.mem_updateMany_image hx (by simpa using hid),hxid,rfl⟩
      · exact ⟨x,Table.mem_updateMany_of_mem hx (by simpa using hid),hxid,hxver⟩
    refine ⟨⟨fun x hx hxver => ?_,fun x hx => hverified _ (hu.sessions x hx)⟩,hverified,fun _ _ _ h => hkept h⟩
    rcases Table.mem_updateMany_cases hx with ⟨hx,-⟩ | ⟨y,hy,hyid,rfl⟩
    · exact hvouched (hu.users x hx hxver)
    · have hyuser : y.id = record.userId := by simpa using hyid
      exact .inr ⟨markUsed m.now q,hused,hquser.trans hyuser.symm,rfl,token,hpresented,hhash.symm.trans hqhash.symm⟩

/-- A new user whose address is confirmed is one that the process creates. -/
theorem Accounted.addUser (hs : Accounted env presented seeded s) {v : User} (hv : v.isEmailVerified = true → seeded v.id) :
    Accounted env presented seeded (Prisma.user.set (s.identity.users ++ [v]) s) ∧
      StaysVerified s (Prisma.user.set (s.identity.users ++ [v]) s) := by
  refine hs.setUsers rfl rfl (fun u hu => ⟨u,List.mem_append_left _ hu,rfl,fun h => h⟩) fun w hw hwver => ?_
  rcases List.mem_append.mp hw with hw | hw
  · exact .inl ⟨w,hw,rfl,hwver⟩
  · obtain rfl := List.mem_singleton.mp hw
    exact .inr (.inl (hv hwver))

theorem Accounted.addToken (hs : Accounted env presented seeded s) (r : MailedToken) :
    Accounted env presented seeded (Prisma.emailVerificationToken.set (s.identity.emailVerificationTokens ++ [r]) s) ∧
      StaysVerified s (Prisma.emailVerificationToken.set (s.identity.emailVerificationTokens ++ [r]) s) := by
  refine ⟨⟨fun u hu hver => ?_,hs.sessions⟩,fun _ h => h,?_⟩
  · exact (hs.users u hu hver).imp_right fun ⟨t,ht,hrest⟩ => ⟨t,List.mem_append_left _ ht,hrest⟩
  · rintro id userId hash ⟨t,ht,hrest⟩
    exact ⟨t,List.mem_append_left _ ht,hrest⟩

theorem accountable_register (dto : RegisterDto) (userId : Uuid) (m : Moment) :
    Accountable env presented seeded (register env dto userId m) s := by
  apply Prog.respects_query_bind
  intro t _ _
  cases (Prisma.user.get t).find? (fun u => u.email = env.toLowerCase dto.email) with
  | some _ => trivial
  | none =>
    intro u _ hu _
    obtain ⟨hadded,hlater⟩ := hu.addUser (v := registeredRow env dto userId) fun h => by cases h
    refine ⟨hadded,hlater,?_⟩
    intro v _ hv _
    obtain ⟨hissued,hlater'⟩ := hv.addToken
      ⟨m.newId,userId,env.hashToken m.rawToken,m.now + emailVerificationTtlMs,none⟩
    exact ⟨hissued,hlater',fun _ _ => trivial⟩

theorem accountable_seedPlatformAdminOnBoot {userId : Uuid} (hseeded : seeded userId) (email password : String) :
    Accountable env presented seeded (seedPlatformAdminOnBoot env email password userId) s := by
  intro t _ ht _
  dsimp only
  cases t.identity.users.find? (fun u => u.email = env.toLowerCase email) with
  | some _ => exact ⟨ht,(accounting env presented seeded).refl t,fun _ _ => trivial⟩
  | none =>
    obtain ⟨hadded,hlater⟩ := ht.addUser (v := adminRow env email password userId) fun _ => hseeded
    exact ⟨hadded,hlater,fun _ _ => trivial⟩

theorem accountable_program {p : Request Unit} (hp : AccountArrives env presented seeded p) (s : Store) :
    Accountable env presented seeded p s := by
  obtain ⟨req,rfl,hpresented,hseeded⟩ := hp
  cases req with
  | register dto userId m => exact accountable_discard (accountable_register dto userId m)
  | revokeSession userId sessionId m => exact accountable_endSessions _ _
  | seedPlatformAdminOnBoot email password userId =>
    exact accountable_seedPlatformAdminOnBoot (hseeded _ _ _ rfl) email password
  | auth req =>
    cases req with
    | login dto ctx m => exact accountable_discard (accountable_login dto ctx m)
    | refresh rawRefreshToken ctx m => exact accountable_discard (accountable_refresh rawRefreshToken ctx m)
    | logout rawRefreshToken m => exact accountable_endSessions _ _
    | forgotPassword email m => exact accountable_forgotPassword email m
    | resetPassword token newPassword m => exact accountable_resetPassword token newPassword m
    | verifyEmail token m => exact accountable_verifyEmail (hpresented _ _ rfl) m

end

/-- A store before the first user. -/
structure Unpopulated (s : Store) : Prop where
  users : s.identity.users = []
  sessions : s.identity.sessions = []

/-- However requests of all kinds arrive and their statements interleave, every session is of a
user for whom a mailed verification token has been presented, an administrator of the process
apart, and so is every user whose address counts as confirmed. -/
theorem sessions_vouched_for (env : AuthEnv) (presented : String → Prop) (seeded : Uuid → Prop)
    (c : Config Store Label ApiException Unit)
    (h : Reached Unpopulated (fun _ => True) (AccountArrives env presented seeded)
      (fun s t => accountView t = accountView s) c) :
    (∀ x ∈ c.state.identity.sessions, VouchedFor env presented seeded c.state x.userId) ∧
      ∀ u ∈ c.state.identity.users, u.isEmailVerified = true → VouchedFor env presented seeded c.state u.id := by
  have hinv : Accounted env presented seeded c.state := by
    refine (Reached.inv (D := accounting env presented seeded) ?_ ?_ ?_ h).1
    · intro s hs
      exact ⟨by simp [hs.users],by simp [hs.sessions]⟩
    · intro p hp s _
      exact accountable_program hp s
    · intro s t hst hs
      exact hs.of_view hst
  refine ⟨fun x hx => ?_,hinv.users⟩
  obtain ⟨u,hu,hid,hver⟩ := hinv.sessions x hx
  rw [← hid]
  exact hinv.users u hu hver

/-- Ana registers, presents the token she was mailed, and logs in. -/
theorem sessions_vouched_for_ana :
    ∃ c, Reached Unpopulated (fun _ => True) (AccountArrives plainEnv (fun raw => raw = "mailed") fun _ => False)
        (fun s t => accountView t = accountView s) c ∧
      c.state.identity.sessions.map Session.userId = [1] ∧
      (∀ x ∈ c.state.identity.sessions, VouchedFor plainEnv (fun raw => raw = "mailed") (fun _ => False) c.state x.userId) ∧
      ∀ u ∈ c.state.identity.users, u.isEmailVerified = true →
        VouchedFor plainEnv (fun raw => raw = "mailed") (fun _ => False) c.state u.id := by
  have hstart : Reached Unpopulated (fun _ => True)
      (AccountArrives plainEnv (fun raw => raw = "mailed") fun _ => False)
      (fun s t => accountView t = accountView s) ⟨{},[]⟩ := .start ⟨rfl,rfl⟩
  have hregister := hstart.arrive
    ⟨.register ⟨"ana@example.com","Secret123",none⟩ 1 { now := 0, rawToken := "mailed", newId := 2 },rfl,by simp,by simp⟩
  have hunknown := hregister.execute (i := 0) rfl (by decide +kernel)
  have hcreated := hunknown.execute (i := 0) rfl (by decide +kernel)
  have hmailed := hcreated.execute (i := 0) rfl (by decide +kernel)
  have hpresent := hmailed.arrive ⟨.auth (.verifyEmail "mailed" { now := 1000 }),rfl,by simp,by simp⟩
  have hfound := hpresent.execute (i := 0) rfl (by decide +kernel)
  have hverified := hfound.execute (i := 0) rfl (by decide +kernel)
  have hlogin := hverified.arrive ⟨.auth rightLogin,rfl,by simp [rightLogin],by simp⟩
  have huser := hlogin.execute (i := 0) rfl (by decide +kernel)
  have hreset := huser.execute (i := 0) rfl (by decide +kernel)
  have hrecorded := hreset.execute (i := 0) rfl (by decide +kernel)
  have hopened := hrecorded.execute (i := 0) rfl (by decide +kernel)
  exact ⟨_,hopened,by decide +kernel,sessions_vouched_for plainEnv _ _ _ hopened⟩

end PinoyTax.Identity
