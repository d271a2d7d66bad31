import PinoyTax.Foundation.Lineage
import PinoyTax.Foundation.Observation
import PinoyTax.Identity.AuthService

/-! # Requests that exchange or end sessions, side by side

A refresh finds a session, revokes it two statements later and then inserts its
successor. A log-out, the revocation of a session and a password reset end sessions in
one statement. An exchange is noted when the session is found, the ending of sessions
when it is done.
-/
namespace PinoyTax.Identity
open PinoyTax Foundation

inductive SessionRequest
  | refresh (rawRefreshToken : String) (ctx : LoginContext) (m : Moment)
  | logout (rawRefreshToken : String) (m : Moment)
  | revokeSession (userId sessionId : Uuid) (m : Moment)
  | resetPassword (token newPassword : String) (m : Moment)
deriving DecidableEq, Repr

abbrev SessionConfig := Config Store Label ApiException Unit

/-- The user whose password a token resets. -/
def resetOwner (env : AuthEnv) (s : Store) (token : String) : Option Uuid :=
  (s.identity.passwordResetTokens.find? (fun t => t.tokenHash = env.hashToken token)).map MailedToken.userId

/-- A session that its token still opens. -/
def Live (now : DateTime) (x : Session) : Prop := x.revokedAt = none ∧ now < x.expiresAt

theorem exists_live_iff {x : Session} : (∃ now, Live now x) ↔ x.revokedAt = none := by
  constructor
  · rintro ⟨now,hrevoked,-⟩
    exact hrevoked
  · intro hrevoked
    obtain ⟨now,hnow⟩ := exists_lt x.expiresAt
    exact ⟨now,hrevoked,hnow⟩

namespace SessionRequest
variable (env : AuthEnv)

def program : SessionRequest → Request Unit
  | refresh rawRefreshToken ctx m => (Identity.refresh env rawRefreshToken ctx m).discard
  | logout rawRefreshToken m => Identity.logout env rawRefreshToken m
  | revokeSession userId sessionId m => Identity.revokeSession userId sessionId m
  | resetPassword token newPassword m => Identity.resetPassword env token newPassword m

/-- The requests, each before its first statement. -/
def start (s : Store) (requests : List SessionRequest) : SessionConfig := ⟨s,requests.map (program env)⟩

/-- The hash of the token that a refresh presents. -/
def presents : SessionRequest → Option String
  | refresh rawRefreshToken _ _ => some (env.hashToken rawRefreshToken)
  | _ => none

/-- The id of the session that a refresh creates. -/
def newId : SessionRequest → Option Uuid
  | refresh _ _ m => some m.newId
  | _ => none

/-- The hash of the token that a refresh issues. -/
def newHash : SessionRequest → Option String
  | refresh _ _ m => some (env.hashToken m.rawToken)
  | _ => none

/-- The sessions that a request is meant to end. -/
def ends (s : Store) : SessionRequest → Session → Bool
  | refresh .., _ => false
  | logout rawRefreshToken _, x => x.refreshTokenHash = env.hashToken rawRefreshToken
  | revokeSession userId sessionId _, x => decide (x.id = sessionId) && decide (x.userId = userId)
  | resetPassword token _ _, x => resetOwner env s token = some x.userId

def meant (s : Store) (q : SessionRequest) : List Uuid := (s.identity.sessions.filter (q.ends env s)).map Session.id

def isRefresh : SessionRequest → Bool
  | refresh .. => true
  | _ => false

theorem newId_eq_none {q : SessionRequest} (h : q.isRefresh = false) : q.newId = none := by
  cases q with
  | refresh token ctx m => cases h
  | logout | revokeSession | resetPassword => rfl

variable {env} in
theorem newId_of_presents {q : SessionRequest} {hash : String} (h : q.presents env = some hash) :
    q.isRefresh = true ∧ ∃ c, q.newId = some c := by
  cases q with
  | refresh token ctx m => exact ⟨rfl,m.newId,rfl⟩
  | logout | revokeSession | resetPassword => cases h

end SessionRequest

open SessionRequest

/-! ## What is observed -/

/-- A refresh that finds a session, with that session and the one it is to create; the
sessions that a request was meant to end and has ended. -/
structure SessionNote where
  exchange : Option (ℕ × Uuid × Uuid) := none
  ending : Option (List Uuid) := none
deriving DecidableEq, Repr

section
variable (env : AuthEnv) (requests : List SessionRequest)

def seenExchange (s : Store) (i : ℕ) (l : Label) : Option (ℕ × Uuid × Uuid) :=
  match requests[i]? with
  | some (.refresh rawRefreshToken _ m) =>
    if l = .on .session .findFirst then
      (s.identity.sessions.find? (isLive (env.hashToken rawRefreshToken) m.now)).map fun x => (i,x.id,m.newId)
    else none
  | _ => none

def seenEnding (c : SessionConfig) (i : ℕ) (c' : SessionConfig) : Option (List Uuid) :=
  match requests[i]? with
  | some q => if q.isRefresh = false ∧ c'.Succeeded i then some (q.meant env c.state) else none
  | none => none

/-- One note for each step. -/
def seenSessions (c : SessionConfig) (i : ℕ) (l : Label) (c' : SessionConfig) : List SessionNote :=
  [⟨seenExchange env requests c.state i l,seenEnding env requests c i c'⟩]

end

def exchanges (notes : List SessionNote) : List (ℕ × Uuid × Uuid) := notes.filterMap SessionNote.exchange

def endings (notes : List SessionNote) : List (List Uuid) := notes.filterMap SessionNote.ending

/-- From a session to the one it is exchanged for. -/
def links (notes : List SessionNote) : List (Uuid × Uuid) := (exchanges notes).map Prod.snd

theorem exchange_of_link {notes : List SessionNote} {p c : Uuid} (hpc : (p,c) ∈ links notes) :
    ∃ i, (i,p,c) ∈ exchanges notes := by
  obtain ⟨⟨i,p',c'⟩,hmem,heq⟩ := List.mem_map.mp hpc
  obtain ⟨rfl,rfl⟩ := Prod.mk.inj heq
  exact ⟨i,hmem⟩

section
variable {env : AuthEnv} {requests : List SessionRequest} {notes : List SessionNote} {c c' : SessionConfig} {i : ℕ}
  {l : Label}

theorem links_of_exchange {p new : Uuid} (h : seenExchange env requests c.state i l = some (i,p,new)) :
    links (seenSessions env requests c i l c' ++ notes) = (p,new) :: links notes := by
  simp [links,exchanges,seenSessions,h]

theorem links_of_no_exchange (h : seenExchange env requests c.state i l = none) :
    links (seenSessions env requests c i l c' ++ notes) = links notes := by
  simp [links,exchanges,seenSessions,h]

theorem mem_endings_step {ids : List Uuid} :
    ids ∈ endings (seenSessions env requests c i l c' ++ notes) ↔
      seenEnding env requests c i c' = some ids ∨ ids ∈ endings notes := by
  simp [endings,seenSessions]

end

/-! ## The stages of a request -/

inductive SessionStage
  | searching
  | found (id userId : Uuid)
  | checked (id userId : Uuid)
  | rotated (id userId : Uuid)
  | granted (id : Uuid)
  | ending
  | recovering
  | resetting (userId : Uuid)
  | ended
  | failed
deriving DecidableEq, Repr

namespace SessionStage

/-- The next statement. -/
def label : SessionStage → Option Label
  | searching => some (.on .session .findFirst)
  | found .. => some (.on .user .findUnique)
  | checked .. => some (.on .session .update)
  | rotated .. => some (.on .session .create)
  | ending => some (.on .session .updateMany)
  | recovering => some (.on .passwordResetToken .findFirst)
  | resetting _ => some .transaction
  | granted _ | ended | failed => none

/-- The session that a refresh has found. -/
def holds : SessionStage → Option Uuid
  | found id _ | checked id _ | rotated id _ | granted id => some id
  | _ => none

/-- Whose session it is. -/
def holder : SessionStage → Option Uuid
  | found _ userId | checked _ userId | rotated _ userId => some userId
  | _ => none

/-- The session that was found is revoked by now. -/
def turned : SessionStage → Option Uuid
  | rotated id _ | granted id => some id
  | _ => none

/-- The new session is still to be created. -/
def pending : SessionStage → Bool
  | searching | found .. | checked .. | rotated .. => true
  | _ => false

theorem holds_of_turned {st : SessionStage} {id : Uuid} (h : st.turned = some id) : st.holds = some id := by
  cases st with
  | rotated | granted => exact h
  | searching | found | checked | ending | recovering | resetting | ended | failed => cases h

end SessionStage

structure SessionPhase where
  request : SessionRequest
  stage : SessionStage

/-- What no request changes: who there is, and whose the reset tokens are. -/
structure SessionFrame (s s' : Store) : Prop where
  users : s'.identity.users.map User.id = s.identity.users.map User.id
  resetTokens : s'.identity.passwordResetTokens.map (fun t => (t.tokenHash,t.userId)) =
    s.identity.passwordResetTokens.map (fun t => (t.tokenHash,t.userId))

variable (env : AuthEnv)

inductive SessionStep : SessionPhase → Store → Label → SessionPhase → Store → Prop
  | found {token : String} {ctx : LoginContext} {m : Moment} {x : Session} {s : Store}
      (h : s.identity.sessions.find? (isLive (env.hashToken token) m.now) = some x) :
      SessionStep ⟨.refresh token ctx m,.searching⟩ s (.on .session .findFirst)
        ⟨.refresh token ctx m,.found x.id x.userId⟩ s
  | missed {token : String} {ctx : LoginContext} {m : Moment} {s : Store}
      (h : s.identity.sessions.find? (isLive (env.hashToken token) m.now) = none) :
      SessionStep ⟨.refresh token ctx m,.searching⟩ s (.on .session .findFirst) ⟨.refresh token ctx m,.failed⟩ s
  | checked {q : SessionRequest} {id userId : Uuid} {s : Store} (h : userId ∈ s.identity.users.map User.id) :
      SessionStep ⟨q,.found id userId⟩ s (.on .user .findUnique) ⟨q,.checked id userId⟩ s
  | orphaned {q : SessionRequest} {id userId : Uuid} {s : Store} (h : userId ∉ s.identity.users.map User.id) :
      SessionStep ⟨q,.found id userId⟩ s (.on .user .findUnique) ⟨q,.failed⟩ s
  | rotated {q : SessionRequest} {id userId : Uuid} {now : DateTime} {s s' : Store}
      (h : id ∈ s.identity.sessions.map Session.id) (hframe : SessionFrame s s')
      (hs : s'.identity.sessions = Table.updateMany (fun x => x.id = id) (rotate now) s.identity.sessions) :
      SessionStep ⟨q,.checked id userId⟩ s (.on .session .update) ⟨q,.rotated id userId⟩ s'
  | lost {q : SessionRequest} {id userId : Uuid} {s s' : Store} (h : id ∉ s.identity.sessions.map Session.id)
      (hframe : SessionFrame s s') (hs : s'.identity.sessions = s.identity.sessions) :
      SessionStep ⟨q,.checked id userId⟩ s (.on .session .update) ⟨q,.failed⟩ s'
  | granted {q : SessionRequest} {id userId : Uuid} {x : Session} {s s' : Store} (hframe : SessionFrame s s')
      (hs : s'.identity.sessions = s.identity.sessions ++ [x]) (hid : q.newId = some x.id)
      (hhash : q.newHash env = some x.refreshTokenHash) (huser : x.userId = userId) (hnew : x.revokedAt = none) :
      SessionStep ⟨q,.rotated id userId⟩ s (.on .session .create) ⟨q,.granted id⟩ s'
  | ended {q : SessionRequest} {now : DateTime} {s s' : Store} (hq : q.isRefresh = false) (hframe : SessionFrame s s')
      (hs : s'.identity.sessions =
        Table.updateMany (fun x => q.ends env s x && x.revokedAt.isNone) (revoke now) s.identity.sessions) :
      SessionStep ⟨q,.ending⟩ s (.on .session .updateMany) ⟨q,.ended⟩ s'
  | recovered {token newPassword : String} {m : Moment} {r : MailedToken} {s : Store}
      (h : s.identity.passwordResetTokens.find? (isUsable (env.hashToken token) m.now) = some r) :
      SessionStep ⟨.resetPassword token newPassword m,.recovering⟩ s (.on .passwordResetToken .findFirst)
        ⟨.resetPassword token newPassword m,.resetting r.userId⟩ s
  | unrecovered {token newPassword : String} {m : Moment} {s : Store} :
      SessionStep ⟨.resetPassword token newPassword m,.recovering⟩ s (.on .passwordResetToken .findFirst)
        ⟨.resetPassword token newPassword m,.failed⟩ s
  | reset {token newPassword : String} {m : Moment} {userId : Uuid} {s s' : Store} (hframe : SessionFrame s s')
      (hs : s'.identity.sessions =
        Table.updateMany (fun x => decide (x.userId = userId) && x.revokedAt.isNone) (revoke m.now)
          s.identity.sessions) :
      SessionStep ⟨.resetPassword token newPassword m,.resetting userId⟩ s .transaction
        ⟨.resetPassword token newPassword m,.ended⟩ s'
  | undone {q : SessionRequest} {userId : Uuid} {s : Store} :
      SessionStep ⟨q,.resetting userId⟩ s .transaction ⟨q,.failed⟩ s

def SessionEnds : Except ApiException Unit → SessionPhase → Prop
  | .ok _, φ => φ.stage = .ended ∨ ∃ id, φ.stage = .granted id
  | .error _, φ => φ.stage = .failed

/-- Where a request starts. -/
def SessionRequest.phase : SessionRequest → SessionPhase
  | q@(.refresh ..) => ⟨q,.searching⟩
  | q@(.resetPassword ..) => ⟨q,.recovering⟩
  | q => ⟨q,.ending⟩

/-! ## The requests follow the stages -/

section Follows
variable {env}

theorem mem_keys_of_find? {ρ κ : Type} [DecidableEq κ] {key : ρ → κ} {t : List ρ} {k : κ} {r : ρ}
    (h : t.find? (fun r => key r = k) = some r) : k ∈ t.map key := by
  obtain ⟨hr,hk⟩ := Table.find?_key_some h
  exact List.mem_map.mpr ⟨r,hr,hk⟩

theorem not_mem_keys_of_find? {ρ κ : Type} [DecidableEq κ] {key : ρ → κ} {t : List ρ} {k : κ}
    (h : t.find? (fun r => key r = k) = none) : k ∉ t.map key := by
  intro hk
  obtain ⟨r,hr,hrk⟩ := List.mem_map.mp hk
  exact Table.find?_key_none h r hr hrk

theorem follows_refresh (token : String) (ctx : LoginContext) (m : Moment) :
    (program env (.refresh token ctx m)).Follows (SessionStep env) SessionEnds (phase (.refresh token ctx m)) := by
  intro s
  cases hx : s.identity.sessions.find? (isLive (env.hashToken token) m.now) with
  | none =>
    refine ⟨_,.missed hx,?_⟩
    simp only [show (Prisma.session.get s).find? (isLive (env.hashToken token) m.now) = none from hx]
    rfl
  | some x =>
    refine ⟨_,.found hx,?_⟩
    simp only [show (Prisma.session.get s).find? (isLive (env.hashToken token) m.now) = some x from hx]
    intro s
    cases hu : s.identity.users.find? (fun u => u.id = x.userId) with
    | none =>
      refine ⟨_,.orphaned (not_mem_keys_of_find? hu),?_⟩
      simp only [show (Prisma.user.get s).find? (fun u => u.id = x.userId) = none from hu]
      rfl
    | some u =>
      obtain ⟨-,huid⟩ := Table.find?_key_some hu
      refine ⟨_,.checked (mem_keys_of_find? hu),?_⟩
      simp only [show (Prisma.user.get s).find? (fun u => u.id = x.userId) = some u from hu]
      intro s
      cases hy : s.identity.sessions.find? (fun y => y.id = x.id) with
      | none =>
        have hsame : Table.updateMany (fun y => y.id = x.id) (rotate m.now) s.identity.sessions = s.identity.sessions :=
          Table.updateMany_eq_self fun r hr hp => absurd hp (List.find?_eq_none.mp hy r hr)
        refine ⟨_,.lost (not_mem_keys_of_find? hy) ⟨rfl,rfl⟩ hsame,?_⟩
        simp only [show (Prisma.session.get s).find? (fun y => y.id = x.id) = none from hy]
        rfl
      | some y =>
        refine ⟨_,.rotated (mem_keys_of_find? hy) ⟨rfl,rfl⟩ rfl,?_⟩
        simp only [show (Prisma.session.get s).find? (fun y => y.id = x.id) = some y from hy]
        intro s
        exact ⟨_,.granted ⟨rfl,rfl⟩ rfl rfl rfl huid rfl,.inr ⟨x.id,rfl⟩⟩

theorem follows_logout (token : String) (m : Moment) :
    (program env (.logout token m)).Follows (SessionStep env) SessionEnds (phase (.logout token m)) :=
  fun _ => ⟨_,.ended rfl ⟨rfl,rfl⟩ rfl,.inl rfl⟩

theorem follows_revokeSession (userId sessionId : Uuid) (m : Moment) :
    (program env (.revokeSession userId sessionId m)).Follows (SessionStep env) SessionEnds
      (phase (.revokeSession userId sessionId m)) :=
  fun _ => ⟨_,.ended rfl ⟨rfl,rfl⟩ rfl,.inl rfl⟩

variable (env) in
/-- The body of the transaction of a reset, which fails only without its rows. -/
theorem run_reset (r : MailedToken) (newPassword : String) (m : Moment) (s : Store) :
    (∃ e t, (do
      let _ ← Prisma.passwordResetToken.update (fun t => t.id = r.id) (markUsed m.now)
      let _ ← Prisma.user.update (fun u => u.id = r.userId) (resetRow (env.hashPassword newPassword))
      Prisma.session.updateMany (fun s => decide (s.userId = r.userId) && s.revokedAt.isNone) (revoke m.now) :
        Request Unit).run s = (.error e,t)) ∨
    ∃ t, (do
      let _ ← Prisma.passwordResetToken.update (fun t => t.id = r.id) (markUsed m.now)
      let _ ← Prisma.user.update (fun u => u.id = r.userId) (resetRow (env.hashPassword newPassword))
      Prisma.session.updateMany (fun s => decide (s.userId = r.userId) && s.revokedAt.isNone) (revoke m.now) :
        Request Unit).run s = (.ok (),t) ∧ SessionFrame s t ∧
      t.identity.sessions = Table.updateMany (fun x => decide (x.userId = r.userId) && x.revokedAt.isNone) (revoke m.now)
        s.identity.sessions := by
  simp only [Prog.run_bind,TableRef.run_update,TableRef.updateReply]
  cases (Prisma.passwordResetToken.get s).find? (fun t => t.id = r.id) with
  | none => exact .inl ⟨_,_,rfl⟩
  | some t =>
    simp only [Prog.resume_ok,Prog.run_bind,TableRef.run_update,TableRef.updateReply]
    generalize hu : List.find? (fun u : User => decide (u.id = r.userId)) _ = found
    cases found with
    | none => exact .inl ⟨_,_,rfl⟩
    | some u =>
      refine .inr ⟨_,rfl,⟨?_,?_⟩,rfl⟩
      · exact Table.map_updateMany (f := resetRow (env.hashPassword newPassword)) User.id (fun _ => rfl) _
      · exact Table.map_updateMany (f := markUsed m.now) (fun t => (t.tokenHash,t.userId)) (fun _ => rfl) _

theorem follows_resetPassword (token newPassword : String) (m : Moment) :
    (program env (.resetPassword token newPassword m)).Follows (SessionStep env) SessionEnds
      (phase (.resetPassword token newPassword m)) := by
  intro s
  cases hr : s.identity.passwordResetTokens.find? (isUsable (env.hashToken token) m.now) with
  | none =>
    refine ⟨_,.unrecovered,?_⟩
    simp only [show (Prisma.passwordResetToken.get s).find? (isUsable (env.hashToken token) m.now) = none from hr]
    rfl
  | some r =>
    refine ⟨_,.recovered hr,?_⟩
    simp only [show (Prisma.passwordResetToken.get s).find? (isUsable (env.hashToken token) m.now) = some r from hr]
    intro s
    dsimp only
    rcases run_reset env r newPassword m s with ⟨e,t,hrun⟩ | ⟨t,hrun,hframe,hs⟩
    · rw [hrun]
      exact ⟨_,.undone,rfl⟩
    · rw [hrun]
      exact ⟨_,.reset hframe hs,.inl rfl⟩

theorem follows_program (q : SessionRequest) : (program env q).Follows (SessionStep env) SessionEnds q.phase := by
  cases q with
  | refresh token ctx m => exact follows_refresh token ctx m
  | logout token m => exact follows_logout token m
  | revokeSession userId sessionId m => exact follows_revokeSession userId sessionId m
  | resetPassword token newPassword m => exact follows_resetPassword token newPassword m

end Follows

/-! ## What one step does -/

/-- The same session, unless it is revoked. -/
structure SameSession (x y : Session) : Prop where
  id : y.id = x.id
  hash : y.refreshTokenHash = x.refreshTokenHash
  userId : y.userId = x.userId
  revoked : y = x ∨ y.revokedAt.isSome

theorem SameSession.refl (x : Session) : SameSession x x := ⟨rfl,rfl,rfl,.inl rfl⟩

theorem SameSession.isSome {x y : Session} (h : SameSession x y) (hx : x.revokedAt.isSome) : y.revokedAt.isSome := by
  rcases h.revoked with rfl | hy
  · exact hx
  · exact hy

theorem sameSession_rotate (now : DateTime) (x : Session) : SameSession x (rotate now x) := ⟨rfl,rfl,rfl,.inr rfl⟩

theorem sameSession_revoke (now : DateTime) (x : Session) : SameSession x (revoke now x) := ⟨rfl,rfl,rfl,.inr rfl⟩

/-- The session that the last statement of a refresh creates. -/
structure Created (φ φ' : SessionPhase) (x : Session) : Prop where
  before : ∃ id, φ.stage = .rotated id x.userId ∧ φ'.stage = .granted id
  id : φ.request.newId = some x.id
  hash : φ.request.newHash env = some x.refreshTokenHash
  revokedAt : x.revokedAt = none

section Steps
variable {env} {φ φ' : SessionPhase} {s s' : Store} {l : Label} {x y : Session}

theorem SessionStep.request_eq (ht : SessionStep env φ s l φ' s') : φ'.request = φ.request := by
  cases ht <;> rfl

theorem SessionStep.label_eq (ht : SessionStep env φ s l φ' s') : φ.stage.label = some l := by
  cases ht <;> rfl

theorem SessionStep.frame (ht : SessionStep env φ s l φ' s') : SessionFrame s s' := by
  cases ht with
  | rotated _ hframe _ | lost _ hframe _ | granted hframe | ended _ hframe _ | reset hframe _ => exact hframe
  | found | missed | checked | orphaned | recovered | unrecovered | undone => exact ⟨rfl,rfl⟩

/-- Every step revokes sessions, which may be none, or creates one. -/
theorem SessionStep.sessions_cases (ht : SessionStep env φ s l φ' s') :
    (∃ (P : Session → Bool) (f : Session → Session), (∀ x, SameSession x (f x)) ∧
      s'.identity.sessions = Table.updateMany P f s.identity.sessions) ∨
    ∃ x, Created env φ φ' x ∧ s'.identity.sessions = s.identity.sessions ++ [x] := by
  have hidle : ∀ t : Store, t.identity.sessions = s.identity.sessions →
      ∃ (P : Session → Bool) (f : Session → Session), (∀ x, SameSession x (f x)) ∧
        t.identity.sessions = Table.updateMany P f s.identity.sessions := by
    intro t hst
    refine ⟨fun _ => false,revoke 0,sameSession_revoke 0,?_⟩
    rw [hst,Table.updateMany_eq_self fun _ _ h => absurd h (by simp)]
  cases ht with
  | found | missed | checked | orphaned | recovered | unrecovered | undone => exact .inl (hidle _ rfl)
  | lost _ _ hs => exact .inl (hidle _ hs)
  | rotated _ _ hs => exact .inl ⟨_,_,sameSession_rotate _,hs⟩
  | ended _ _ hs => exact .inl ⟨_,_,sameSession_revoke _,hs⟩
  | reset _ hs => exact .inl ⟨_,_,sameSession_revoke _,hs⟩
  | @granted q id userId x s s' hframe hs hid hhash huser hnew =>
    subst huser
    exact .inr ⟨x,⟨⟨id,rfl,rfl⟩,hid,hhash,hnew⟩,hs⟩

theorem SessionStep.mem_sessions (ht : SessionStep env φ s l φ' s') (hy : y ∈ s'.identity.sessions) :
    (∃ x ∈ s.identity.sessions, SameSession x y) ∨ Created env φ φ' y := by
  rcases ht.sessions_cases with ⟨P,f,hf,hs⟩ | ⟨x,hx,hs⟩
  · rw [hs] at hy
    rcases Table.mem_updateMany_cases hy with ⟨hy,-⟩ | ⟨x,hx,-,rfl⟩
    · exact .inl ⟨y,hy,.refl y⟩
    · exact .inl ⟨x,hx,hf x⟩
  · rw [hs] at hy
    rcases List.mem_append.mp hy with hy | hy
    · exact .inl ⟨y,hy,.refl y⟩
    · obtain rfl := List.mem_singleton.mp hy
      exact .inr hx

theorem SessionStep.sessions_mem (ht : SessionStep env φ s l φ' s') (hx : x ∈ s.identity.sessions) :
    ∃ y ∈ s'.identity.sessions, SameSession x y := by
  rcases ht.sessions_cases with ⟨P,f,hf,hs⟩ | ⟨z,-,hs⟩
  · rw [hs]
    cases hP : P x with
    | true => exact ⟨f x,Table.mem_updateMany_image hx hP,hf x⟩
    | false => exact ⟨x,Table.mem_updateMany_of_mem hx hP,.refl x⟩
  · rw [hs]
    exact ⟨x,List.mem_append_left _ hx,.refl x⟩

/-- A key that revoking does not change. -/
theorem SessionStep.keys_cases {κ : Type} {key : Session → κ} (hkey : ∀ x y, SameSession x y → key y = key x)
    (ht : SessionStep env φ s l φ' s') :
    s'.identity.sessions.map key = s.identity.sessions.map key ∨
      ∃ x, Created env φ φ' x ∧ s'.identity.sessions.map key = s.identity.sessions.map key ++ [key x] := by
  rcases ht.sessions_cases with ⟨P,f,hf,hs⟩ | ⟨x,hx,hs⟩
  · left
    rw [hs]
    exact Table.map_updateMany key (fun x => hkey x (f x) (hf x)) _
  · right
    refine ⟨x,hx,?_⟩
    rw [hs,List.map_append]
    rfl

theorem SessionStep.pending_of_pending (ht : SessionStep env φ s l φ' s') (h : φ'.stage.pending = true) :
    φ.stage.pending = true := by
  cases ht with
  | found | missed | checked | orphaned | rotated | lost | granted => rfl
  | ended | recovered | unrecovered | reset | undone => cases h

theorem SessionStep.not_refresh_of_ended (ht : SessionStep env φ s l φ' s') (h : φ'.stage = .ended) :
    φ'.request.isRefresh = false := by
  cases ht with
  | ended hq => exact hq
  | reset => rfl
  | found | missed | checked | orphaned | rotated | lost | granted | recovered | unrecovered | undone => cases h

/-- A step notes an exchange and goes on to hold the session it found, or notes none and
holds nothing new. -/
theorem SessionStep.exchange_cases {requests : List SessionRequest} {i : ℕ} (hi : requests[i]? = some φ.request)
    (ht : SessionStep env φ s l φ' s') :
    (∃ token ctx m x, φ = ⟨.refresh token ctx m,.searching⟩ ∧ φ' = ⟨.refresh token ctx m,.found x.id x.userId⟩ ∧
      s' = s ∧ l = .on .session .findFirst ∧
      (x ∈ s.identity.sessions ∧ x.refreshTokenHash = env.hashToken token ∧ x.revokedAt = none) ∧
      seenExchange env requests s i l = some (i,x.id,m.newId)) ∨
    (seenExchange env requests s i l = none ∧ (φ'.stage.holds = φ.stage.holds ∨ φ'.stage.holds = none)) := by
  have hnone : l ≠ .on .session .findFirst → seenExchange env requests s i l = none := by
    intro hl
    unfold seenExchange
    split
    · exact if_neg hl
    · rfl
  cases ht with
  | @found token ctx m x s h =>
    left
    have hi' : requests[i]? = some (.refresh token ctx m) := hi
    have hlive := List.find?_some h
    obtain ⟨hhash,hrevoked,-⟩ := isLive_eq_true.mp hlive
    exact ⟨token,ctx,m,x,rfl,rfl,rfl,rfl,⟨List.mem_of_find?_eq_some h,hhash,hrevoked⟩,by simp [seenExchange,hi',h]⟩
  | @missed token ctx m s h =>
    right
    have hi' : requests[i]? = some (.refresh token ctx m) := hi
    exact ⟨by simp [seenExchange,hi',h],.inr rfl⟩
  | checked | rotated | granted | ended | recovered | unrecovered | reset | undone =>
    exact .inr ⟨hnone (by decide),.inl rfl⟩
  | orphaned | lost => exact .inr ⟨hnone (by decide),.inr rfl⟩

end Steps

/-! ## Threads and their stages -/

section Threads
variable {env} {c c' : SessionConfig} {φs : List SessionPhase} {φ : SessionPhase} {i : ℕ} {p : Request Unit}

abbrev FollowsSessions (env : AuthEnv) (c : SessionConfig) (φs : List SessionPhase) : Prop :=
  c.Follows (SessionStep env) SessionEnds φs

theorem head?_eq_label (hf : FollowsSessions env c φs) (hi : φs[i]? = some φ) (hp : c.threads[i]? = some p) :
    p.head? = φ.stage.label := by
  have hfol := hf.follows i φ p hi hp
  cases p with
  | done r =>
    cases r with
    | ok a => rcases hfol with h | ⟨id,h⟩ <;> rw [h] <;> rfl
    | error e =>
      have h : φ.stage = .failed := hfol
      rw [h]
      rfl
  | stmt l w k =>
    obtain ⟨φ',ht,-⟩ := hfol c.state
    rw [ht.label_eq]
    rfl

theorem succeeded_iff_stage (hf : FollowsSessions env c φs) (hi : φs[i]? = some φ) :
    c.Succeeded i ↔ φ.stage = .ended ∨ ∃ id, φ.stage = .granted id := by
  obtain ⟨p,hp,hfol⟩ := hf.thread hi
  have hhead := head?_eq_label hf hi hp
  simp only [Config.succeeded_iff,hp,Option.some.injEq]
  cases p with
  | done r =>
    cases r with
    | ok a => exact iff_of_true ⟨a,rfl⟩ hfol
    | error e =>
      have h : φ.stage = .failed := hfol
      simp [h]
  | stmt l w k =>
    refine iff_of_false (by simp) ?_
    rintro (h | ⟨id,h⟩) <;> simp [h,SessionStage.label] at hhead

end Threads

/-! ## What holds along every execution -/

/-- A column in which the sessions differ from each other and from those to be created. -/
structure FreshKeys {κ : Type} (key : Session → κ) (draw : SessionRequest → Option κ) (s : Store)
    (φs : List SessionPhase) : Prop where
  nodup : (s.identity.sessions.map key).Nodup
  fresh : ∀ φ ∈ φs, φ.stage.pending = true → ∀ k ∈ draw φ.request, k ∉ s.identity.sessions.map key

structure SessionInv (env : AuthEnv) (requests : List SessionRequest) (notes : List SessionNote) (s : Store)
    (φs : List SessionPhase) : Prop where
  requests_eq : φs.map SessionPhase.request = requests
  enders : ∀ φ ∈ φs, φ.stage = .ended → φ.request.isRefresh = false
  ids : FreshKeys Session.id newId s φs
  users : ∀ x ∈ s.identity.sessions, x.userId ∈ s.identity.users.map User.id
  holders : ∀ φ ∈ φs, ∀ userId ∈ φ.stage.holder, userId ∈ s.identity.users.map User.id
  held : ∀ φ ∈ φs, ∀ id ∈ φ.stage.holds,
    ∃ x ∈ s.identity.sessions, x.id = id ∧ φ.request.presents env = some x.refreshTokenHash
  turned : ∀ φ ∈ φs, ∀ id ∈ φ.stage.turned, ∀ x ∈ s.identity.sessions, x.id = id → x.revokedAt.isSome
  noted : ∀ i p c, (i,p,c) ∈ exchanges notes ↔
    ∃ φ, φs[i]? = some φ ∧ φ.stage.holds = some p ∧ φ.request.newId = some c
  grown : Grown (links notes)

/-- Whatever the requests draw, no two draw the same. -/
def Distinct {κ : Type} (draw : SessionRequest → Option κ) (requests : List SessionRequest) : Prop :=
  ∀ (i j : ℕ) (q q' : SessionRequest) (k : κ), requests[i]? = some q → requests[j]? = some q' → draw q = some k →
    draw q' = some k → i = j

section
variable {env} {requests : List SessionRequest} {notes : List SessionNote} {φs : List SessionPhase}
  {φ φ' : SessionPhase} {s s' : Store} {l : Label} {i : ℕ}

theorem FreshKeys.step {κ : Type} {key : Session → κ} {draw : SessionRequest → Option κ}
    (hkey : ∀ x y, SameSession x y → key y = key x) (hdraw : ∀ x, Created env φ φ' x → draw φ.request = some (key x))
    (h : FreshKeys key draw s φs) (hdistinct : Distinct draw (φs.map SessionPhase.request)) (hi : φs[i]? = some φ)
    (ht : SessionStep env φ s l φ' s') : FreshKeys key draw s' (φs.set i φ') := by
  have hφ := List.mem_of_getElem? hi
  rcases ht.keys_cases hkey with hkeys | ⟨x,hx,hkeys⟩
  · refine ⟨by rw [hkeys]; exact h.nodup,?_⟩
    intro ψ hψ hpending k hk
    rw [hkeys]
    rcases List.mem_or_eq_of_mem_set hψ with hψ | rfl
    · exact h.fresh ψ hψ hpending k hk
    · rw [ht.request_eq] at hk
      exact h.fresh φ hφ (ht.pending_of_pending hpending) k hk
  · obtain ⟨id,hbefore,hafter⟩ := hx.before
    have hnew : key x ∉ s.identity.sessions.map key :=
      h.fresh φ hφ (by rw [hbefore]; rfl) (key x) (hdraw x hx)
    refine ⟨?_,?_⟩
    · rw [hkeys]
      exact h.nodup.append (List.nodup_singleton _) (by simpa using hnew)
    · intro ψ hψ hpending k hk
      obtain ⟨j,hj⟩ := List.mem_iff_getElem?.mp hψ
      by_cases hij : i = j
      · subst hij
        obtain ⟨hlen,-⟩ := List.getElem?_eq_some_iff.mp hi
        obtain rfl : φ' = ψ := by simpa [List.getElem?_set_self hlen] using hj
        rw [hafter] at hpending
        cases hpending
      · rw [List.getElem?_set_ne hij] at hj
        rw [hkeys,List.mem_append,List.mem_singleton]
        rintro (hold | rfl)
        · exact h.fresh ψ (List.mem_of_getElem? hj) hpending k hk hold
        · exact hij (hdistinct i j φ.request ψ.request _ (by simp [hi]) (by simp [hj]) (hdraw x hx) hk)

namespace SessionInv

theorem request_eq (h : SessionInv env requests notes s φs) (hi : φs[i]? = some φ) : requests[i]? = some φ.request := by
  rw [← h.requests_eq,List.getElem?_map,hi]
  rfl

theorem phase_of_request (h : SessionInv env requests notes s φs) {q : SessionRequest} (hq : requests[i]? = some q) :
    ∃ φ, φs[i]? = some φ ∧ φ.request = q := by
  rw [← h.requests_eq,List.getElem?_map,Option.map_eq_some_iff] at hq
  exact hq

theorem mem_of_holds (h : SessionInv env requests notes s φs) (hi : φs[i]? = some φ) {id : Uuid}
    (hid : φ.stage.holds = some id) : id ∈ s.identity.sessions.map Session.id := by
  obtain ⟨x,hx,rfl,-⟩ := h.held φ (List.mem_of_getElem? hi) id hid
  exact List.mem_map_of_mem hx

/-- A refresh that has found its session goes through. -/
theorem holds_eq (h : SessionInv env requests notes s φs) (hi : φs[i]? = some φ) (ht : SessionStep env φ s l φ' s')
    {id : Uuid} (hid : φ.stage.holds = some id) : φ'.stage.holds = some id := by
  cases ht with
  | checked | rotated | granted => exact hid
  | orphaned huser => exact absurd (h.holders _ (List.mem_of_getElem? hi) _ rfl) huser
  | lost hrow => exact absurd (h.mem_of_holds hi rfl) hrow
  | found | missed | ended | recovered | unrecovered | reset | undone => cases hid

theorem fresh_id (h : SessionInv env requests notes s φs) (hi : φs[i]? = some φ) (hpending : φ.stage.pending = true)
    {c : Uuid} (hc : φ.request.newId = some c) : c ∉ s.identity.sessions.map Session.id :=
  h.ids.fresh φ (List.mem_of_getElem? hi) hpending c hc

/-- Parents are sessions of the table. -/
theorem mem_of_link (h : SessionInv env requests notes s φs) {p c : Uuid} (hpc : (p,c) ∈ links notes) :
    p ∈ s.identity.sessions.map Session.id := by
  obtain ⟨i,hmem⟩ := exchange_of_link hpc
  obtain ⟨φ,hi,hholds,-⟩ := (h.noted i p c).mp hmem
  exact h.mem_of_holds hi hholds

/-- Whose successor is there has been revoked. -/
theorem revoked_of_born (h : SessionInv env requests notes s φs) {p c : Uuid} (hpc : (p,c) ∈ links notes)
    (hc : c ∈ s.identity.sessions.map Session.id) {x : Session} (hx : x ∈ s.identity.sessions) (hxp : x.id = p) :
    x.revokedAt.isSome := by
  obtain ⟨i,hmem⟩ := exchange_of_link hpc
  obtain ⟨φ,hi,hholds,hnew⟩ := (h.noted i p c).mp hmem
  refine h.turned φ (List.mem_of_getElem? hi) p ?_ x hx hxp
  cases hst : φ.stage with
  | searching | found | checked | rotated =>
    exact absurd hc (h.fresh_id hi (by rw [hst]; rfl) hnew)
  | granted id =>
    rw [hst] at hholds
    exact hholds
  | ending | recovering | resetting | ended | failed =>
    rw [hst] at hholds
    cases hholds

/-- A session comes from one exchange. -/
theorem parent_unique (hdistinct : Distinct newId requests) (h : SessionInv env requests notes s φs) {p p' c : Uuid}
    (hpc : (p,c) ∈ links notes) (hpc' : (p',c) ∈ links notes) : p = p' := by
  obtain ⟨i,hmem⟩ := exchange_of_link hpc
  obtain ⟨j,hmem'⟩ := exchange_of_link hpc'
  obtain ⟨φ,hi,hholds,hnew⟩ := (h.noted i p c).mp hmem
  obtain ⟨ψ,hj,hholds',hnew'⟩ := (h.noted j p' c).mp hmem'
  obtain rfl : i = j := hdistinct i j _ _ c (h.request_eq hi) (h.request_eq hj) hnew hnew'
  obtain rfl : φ = ψ := by simpa [hi] using hj
  simpa [hholds] using hholds'

theorem users_of_step (h : SessionInv env requests notes s φs) (hi : φs[i]? = some φ)
    (ht : SessionStep env φ s l φ' s') : ∀ y ∈ s'.identity.sessions, y.userId ∈ s'.identity.users.map User.id := by
  intro y hy
  rw [ht.frame.users]
  rcases ht.mem_sessions hy with ⟨x,hx,hxy⟩ | hy
  · rw [hxy.userId]
    exact h.users x hx
  · obtain ⟨id,hbefore,-⟩ := hy.before
    exact h.holders φ (List.mem_of_getElem? hi) y.userId (by rw [hbefore]; rfl)

theorem holders_of_step (h : SessionInv env requests notes s φs) (hi : φs[i]? = some φ)
    (ht : SessionStep env φ s l φ' s') {userId : Uuid} (huser : φ'.stage.holder = some userId) :
    userId ∈ s.identity.users.map User.id := by
  have hφ := List.mem_of_getElem? hi
  cases ht with
  | @found token ctx m x s hx =>
    obtain rfl : x.userId = userId := Option.some.inj huser
    exact h.users x (List.mem_of_find?_eq_some hx)
  | checked | rotated => exact h.holders _ hφ userId huser
  | missed | orphaned | lost | granted | ended | recovered | unrecovered | reset | undone => cases huser

theorem held_of_step (h : SessionInv env requests notes s φs) (hi : φs[i]? = some φ)
    (ht : SessionStep env φ s l φ' s') {id : Uuid} (hid : φ'.stage.holds = some id) :
    ∃ x ∈ s.identity.sessions, x.id = id ∧ φ'.request.presents env = some x.refreshTokenHash := by
  have hφ := List.mem_of_getElem? hi
  cases ht with
  | @found token ctx m x s hx =>
    obtain rfl : x.id = id := Option.some.inj hid
    have hlive := List.find?_some hx
    obtain ⟨hhash,-⟩ := isLive_eq_true.mp hlive
    exact ⟨x,List.mem_of_find?_eq_some hx,rfl,by rw [hhash]; rfl⟩
  | checked | rotated | granted => exact h.held _ hφ id hid
  | missed | orphaned | lost | ended | recovered | unrecovered | reset | undone => cases hid

theorem turned_of_step (h : SessionInv env requests notes s φs) (hi : φs[i]? = some φ)
    (ht : SessionStep env φ s l φ' s') {id : Uuid} (hid : φ'.stage.turned = some id) {y : Session}
    (hy : y ∈ s'.identity.sessions) (hyid : y.id = id) (hnew : ¬ Created env φ φ' y) : y.revokedAt.isSome := by
  have hφ := List.mem_of_getElem? hi
  have hold : φ.stage.turned = some id → y.revokedAt.isSome := by
    intro hid
    obtain ⟨x,hx,hxy⟩ := (ht.mem_sessions hy).resolve_right hnew
    exact hxy.isSome (h.turned φ hφ id hid x hx (hxy.id.symm.trans hyid))
  cases ht with
  | @rotated q id' userId now s s' hrow hframe hs =>
    obtain rfl : id' = id := Option.some.inj hid
    rw [hs] at hy
    rcases Table.mem_updateMany_cases hy with ⟨-,hne⟩ | ⟨x,-,-,rfl⟩
    · exact absurd hyid (of_decide_eq_false hne)
    · rfl
  | granted => exact hold hid
  | found | missed | checked | orphaned | lost | ended | recovered | unrecovered | reset | undone => cases hid

theorem noted_of_step (h : SessionInv env requests notes s φs) (hi : φs[i]? = some φ)
    (ht : SessionStep env φ s l φ' s') {x : Option (List Uuid)} (j : ℕ) (p c : Uuid) :
    (j,p,c) ∈ exchanges (⟨seenExchange env requests s i l,x⟩ :: notes) ↔
      ∃ ψ, (φs.set i φ')[j]? = some ψ ∧ ψ.stage.holds = some p ∧ ψ.request.newId = some c := by
  obtain ⟨hlen,-⟩ := List.getElem?_eq_some_iff.mp hi
  have hnotes : (j,p,c) ∈ exchanges (⟨seenExchange env requests s i l,x⟩ :: notes) ↔
      seenExchange env requests s i l = some (j,p,c) ∨ (j,p,c) ∈ exchanges notes := by
    simp [exchanges]
  rw [hnotes,h.noted]
  rcases ht.exchange_cases (h.request_eq hi) with ⟨token,ctx,m,x,rfl,rfl,rfl,rfl,-,hseen⟩ | ⟨hseen,hholds⟩
  · rw [hseen]
    by_cases hij : i = j
    · subst hij
      rw [List.getElem?_set_self hlen,hi]
      simp [SessionStage.holds,SessionRequest.newId]
    · rw [List.getElem?_set_ne hij]
      simp [hij]
  · rw [hseen]
    by_cases hij : i = j
    · subst hij
      have hsame : φ'.stage.holds = φ.stage.holds := by
        rcases hholds with hholds | hnone
        · exact hholds
        · cases hφ : φ.stage.holds with
          | none => exact hnone
          | some id => exact h.holds_eq hi ht hφ
      rw [List.getElem?_set_self hlen,hi]
      simp [hsame,ht.request_eq]
    · rw [List.getElem?_set_ne hij]
      simp

theorem grown_of_step (h : SessionInv env requests notes s φs) (hi : φs[i]? = some φ)
    (ht : SessionStep env φ s l φ' s') {x : Option (List Uuid)} :
    Grown (links (⟨seenExchange env requests s i l,x⟩ :: notes)) := by
  rcases ht.exchange_cases (h.request_eq hi) with ⟨token,ctx,m,y,rfl,rfl,rfl,rfl,⟨hy,-⟩,hseen⟩ | ⟨hseen,-⟩
  · have hfresh : m.newId ∉ s'.identity.sessions.map Session.id := h.fresh_id hi rfl rfl
    have hlinks : links (⟨some (i,y.id,m.newId),x⟩ :: notes) = (y.id,m.newId) :: links notes := rfl
    rw [hseen,hlinks]
    refine ⟨?_,?_,h.grown⟩
    · intro heq
      rw [heq] at hfresh
      exact hfresh (List.mem_map_of_mem hy)
    · intro hmem
      obtain ⟨⟨p,c⟩,hpc,rfl⟩ := List.mem_map.mp hmem
      exact hfresh (h.mem_of_link hpc)
  · have hlinks : links (⟨none,x⟩ :: notes) = links notes := rfl
    rw [hseen,hlinks]
    exact h.grown

theorem step (hdistinct : Distinct newId requests) (h : SessionInv env requests notes s φs) (hi : φs[i]? = some φ)
    (ht : SessionStep env φ s l φ' s') (x : Option (List Uuid)) :
    SessionInv env requests (⟨seenExchange env requests s i l,x⟩ :: notes) s' (φs.set i φ') := by
  have hφ := List.mem_of_getElem? hi
  refine ⟨?_,?_,?_,h.users_of_step hi ht,?_,?_,?_,h.noted_of_step hi ht,h.grown_of_step hi ht⟩
  · rw [map_set_phase hi ht.request_eq]
    exact h.requests_eq
  · intro ψ hψ hended
    rcases List.mem_or_eq_of_mem_set hψ with hψ | rfl
    · exact h.enders ψ hψ hended
    · exact ht.not_refresh_of_ended hended
  · refine h.ids.step (fun x y hxy => hxy.id) (fun x hx => hx.id) ?_ hi ht
    rw [h.requests_eq]
    exact hdistinct
  · intro ψ hψ userId huser
    rw [ht.frame.users]
    rcases List.mem_or_eq_of_mem_set hψ with hψ | rfl
    · exact h.holders ψ hψ userId huser
    · exact h.holders_of_step hi ht huser
  · intro ψ hψ id hid
    have hbefore : ∃ x ∈ s.identity.sessions, x.id = id ∧ ψ.request.presents env = some x.refreshTokenHash := by
      rcases List.mem_or_eq_of_mem_set hψ with hψ | rfl
      · exact h.held ψ hψ id hid
      · exact h.held_of_step hi ht hid
    obtain ⟨x,hx,hxid,hpresents⟩ := hbefore
    obtain ⟨y,hy,hxy⟩ := ht.sessions_mem hx
    exact ⟨y,hy,hxy.id.trans hxid,by rw [hxy.hash]; exact hpresents⟩
  · intro ψ hψ id hid y hy hyid
    have hnew : id ∈ s.identity.sessions.map Session.id → ¬ Created env φ φ' y := by
      intro hmem hcreated
      obtain ⟨id',hbefore,-⟩ := hcreated.before
      exact h.fresh_id hi (by rw [hbefore]; rfl) hcreated.id (by rw [hyid]; exact hmem)
    have hholds := SessionStage.holds_of_turned hid
    rcases List.mem_or_eq_of_mem_set hψ with hψ | rfl
    · obtain ⟨z,hz,hzid,-⟩ := h.held ψ hψ id hholds
      obtain ⟨x,hx,hxy⟩ := (ht.mem_sessions hy).resolve_right (hnew (List.mem_map.mpr ⟨z,hz,hzid⟩))
      exact hxy.isSome (h.turned ψ hψ id hid x hx (hxy.id.symm.trans hyid))
    · obtain ⟨z,hz,hzid,-⟩ := h.held_of_step hi ht hholds
      exact h.turned_of_step hi ht hid hy hyid (hnew (List.mem_map.mpr ⟨z,hz,hzid⟩))

end SessionInv
end

/-! ## Where executions start -/

/-- Session ids are primary keys, those to be created included; sessions belong to users. -/
structure SessionStart (s : Store) (requests : List SessionRequest) : Prop where
  ids : (s.identity.sessions.map Session.id ++ requests.filterMap newId).Nodup
  users : ∀ x ∈ s.identity.sessions, x.userId ∈ s.identity.users.map User.id

section
variable {requests : List SessionRequest} {s : Store} {κ : Type} {key : Session → κ} {draw : SessionRequest → Option κ}

theorem distinct_of_nodup (h : (requests.filterMap draw).Nodup) : Distinct draw requests := by
  induction requests with
  | nil =>
    intro i j q q' k hi
    simp at hi
  | cons a rest ih =>
    have hrest : (rest.filterMap draw).Nodup := h.sublist ((List.sublist_cons_self a rest).filterMap draw)
    have hhead : ∀ (j : ℕ) (q : SessionRequest) (k : κ), rest[j]? = some q → draw q = some k → draw a ≠ some k := by
      intro j q k hj hq ha
      rw [List.filterMap_cons_some ha,List.nodup_cons] at h
      exact h.1 (List.mem_filterMap.mpr ⟨q,List.mem_of_getElem? hj,hq⟩)
    intro i j q q' k hi hj hq hq'
    match i, j with
    | 0, 0 => rfl
    | 0, j + 1 =>
      obtain rfl : a = q := by simpa using hi
      exact absurd hq (hhead j q' k (by simpa using hj) hq')
    | i + 1, 0 =>
      obtain rfl : a = q' := by simpa using hj
      exact absurd hq' (hhead i q k (by simpa using hi) hq)
    | i + 1, j + 1 => rw [ih hrest i j q q' k (by simpa using hi) (by simpa using hj) hq hq']

theorem SessionRequest.request_phase (q : SessionRequest) : q.phase.request = q := by
  cases q <;> rfl

theorem map_request_phase (requests : List SessionRequest) :
    (requests.map phase).map SessionPhase.request = requests := by
  rw [List.map_map]
  conv_rhs => rw [← List.map_id requests]
  exact List.map_congr_left fun q _ => q.request_phase

theorem freshKeys_start (h : (s.identity.sessions.map key ++ requests.filterMap draw).Nodup) :
    FreshKeys key draw s (requests.map phase) := by
  obtain ⟨hrows,-,hdisjoint⟩ := List.nodup_append'.mp h
  refine ⟨hrows,?_⟩
  intro φ hφ _ k hk hmem
  obtain ⟨q,hq,rfl⟩ := List.mem_map.mp hφ
  rw [q.request_phase] at hk
  exact hdisjoint hmem (List.mem_filterMap.mpr ⟨q,hq,hk⟩)

theorem followsSessions_start (env : AuthEnv) (s : Store) (requests : List SessionRequest) :
    FollowsSessions env (SessionRequest.start env s requests) (requests.map phase) :=
  Config.follows_map requests (fun q _ => follows_program q) s

theorem sessionInv_start (env : AuthEnv) (hs : SessionStart s requests) :
    SessionInv env requests [] s (requests.map phase) := by
  have hstage : ∀ φ ∈ requests.map phase, φ.stage = .searching ∨ φ.stage = .recovering ∨ φ.stage = .ending := by
    intro φ hφ
    obtain ⟨q,-,rfl⟩ := List.mem_map.mp hφ
    cases q with
    | refresh => exact .inl rfl
    | resetPassword => exact .inr (.inl rfl)
    | logout | revokeSession => exact .inr (.inr rfl)
  refine ⟨map_request_phase requests,?_,freshKeys_start hs.ids,hs.users,?_,?_,?_,?_,trivial⟩
  · intro φ hφ hended
    rcases hstage φ hφ with h | h | h <;> simp [h] at hended
  · intro φ hφ userId huser
    rcases hstage φ hφ with h | h | h <;> simp [h,SessionStage.holder] at huser
  · intro φ hφ id hid
    rcases hstage φ hφ with h | h | h <;> simp [h,SessionStage.holds] at hid
  · intro φ hφ id hid
    rcases hstage φ hφ with h | h | h <;> simp [h,SessionStage.turned] at hid
  · intro i p c
    refine iff_of_false (by simp [exchanges]) ?_
    rintro ⟨φ,hi,hid,-⟩
    rcases hstage φ (List.mem_of_getElem? hi) with h | h | h <;> simp [h,SessionStage.holds] at hid

/-- The family of some sessions is what descends from them by the exchanges noted. -/
theorem mem_family_iff_descends {env : AuthEnv} {tr : List (ℕ × Label)} {d : SessionConfig} {ids : List Uuid} {x : Uuid}
    (hs : SessionStart s requests) (h : Steps (SessionRequest.start env s requests) tr d) :
    x ∈ family ids (links (observe (seenSessions env requests) (SessionRequest.start env s requests) tr [])) ↔
      ∃ z ∈ ids, Relation.ReflTransGen (fun p c => (p,c) ∈
        links (observe (seenSessions env requests) (SessionRequest.start env s requests) tr [])) z x := by
  have hids : Distinct newId requests := distinct_of_nodup (List.Nodup.of_append_right hs.ids)
  have hrun := h.observed (seenSessions env requests)
    (J := fun notes c => ∃ φs, FollowsSessions env c φs ∧ SessionInv env requests notes c.state φs) ?_
    ⟨_,followsSessions_start env s requests,sessionInv_start env hs⟩
  · obtain ⟨φs,-,hI⟩ := hrun
    exact hI.grown.mem_family_iff
  · rintro notes c i l c' ⟨φs,hf,hI⟩ hstep
    obtain ⟨φ,φ',hi,ht,hf'⟩ := hf.step hstep
    exact ⟨_,hf',hI.step hids hi ht _⟩

end

end PinoyTax.Identity
