import PinoyTax.Foundation.Observation
import PinoyTax.Identity.AccountStatus
import Mathlib.Data.Int.ConditionallyCompleteOrder

/-! # Logins for one account at the same time

A login looks at the row of the user once. What follows the password check writes the
row by id whatever it has become: a failure counts and may lock, a success resets. The
time of a step is read off a clock by the number of steps before it.
-/
namespace PinoyTax.Identity
open PinoyTax Foundation

structure LoginCall where
  dto : LoginDto
  ctx : LoginContext
  m : Moment
deriving DecidableEq, Repr

/-- The row of the account. -/
def account (email : String) (s : Store) : Option User := s.identity.users.find? (fun u => u.email = email)

section
variable (env : AuthEnv) (email : String)

/-- The logins, each before its first statement. -/
def LoginCall.start (s : Store) (logins : List LoginCall) : Config Store Label ApiException LoginReply :=
  ⟨s,logins.map (fun q => login env q.dto q.ctx q.m)⟩

/-- The checks that a login makes on the row it has read. -/
def LoginCall.admits (q : LoginCall) (u : User) : Bool :=
  (lockedAt u q.m.now).isNone && u.isEmailVerified && passwordValid env u q.dto.password

/-- The end of a lock that the login writes. -/
def LoginCall.lockTime (q : LoginCall) : DateTime := q.m.lockNow + lockMinutes env * 60 * 1000

/-! ## What is observed -/

/-- A login that a step lets through, and the end of a lock that it writes. -/
structure Seen where
  admitted : Option ℕ := none
  lockedUntil : Option DateTime := none
deriving DecidableEq, Repr

def seenAdmitted (logins : List LoginCall) (s : Store) (i : ℕ) (l : Label) : Option ℕ :=
  if l = .on .user .findUnique ∧ (account email s).any (fun u => (logins[i]?).any (fun q => q.admits env u)) then
    some i
  else none

/-- A write of the row that leaves the counter alone and the account locked. -/
def seenLock (s : Store) (l : Label) (s' : Store) : Option DateTime :=
  match account email s, account email s' with
  | some u, some u' =>
    if l = .on .user .update ∧ u'.failedLoginAttempts = u.failedLoginAttempts ∧ u'.status = .locked then u'.lockedUntil
    else none
  | _, _ => none

/-- One note for each step. -/
def seen (logins : List LoginCall) (c : Config Store Label ApiException LoginReply) (i : ℕ) (l : Label)
    (c' : Config Store Label ApiException LoginReply) : List Seen :=
  [⟨seenAdmitted env email logins c.state i l,seenLock email c.state l c'.state⟩]

def locks (notes : List Seen) : List DateTime := notes.filterMap Seen.lockedUntil

def admitted (notes : List Seen) : List ℕ := notes.filterMap Seen.admitted

variable (clock : ℕ → DateTime)

/-- A login reads the clock between its look-up and its next statement. -/
def ReadsClock (logins : List LoginCall) (notes : List Seen) (_ : Config Store Label ApiException LoginReply) (i : ℕ)
    (l : Label) (_ : Config Store Label ApiException LoginReply) : Prop :=
  ∀ q ∈ logins[i]?,
    if l = .on .user .findUnique then clock notes.length ≤ q.m.now else q.m.now ≤ clock notes.length

/-- Before the end of a lock that was written, the step returns no token pair, and neither
resets the counter nor clears the lock. -/
def KeepsLock (notes : List Seen) (c : Config Store Label ApiException LoginReply) (i : ℕ) (_ : Label)
    (c' : Config Store Label ApiException LoginReply) : Prop :=
  ∀ lockedUntil ∈ locks notes, clock notes.length < lockedUntil → ¬ c'.Succeeded i ∧
    ∀ u ∈ account email c.state, ∀ u' ∈ account email c'.state, u.failedLoginAttempts ≤ u'.failedLoginAttempts ∧
      (u.status = .locked → u'.status = .locked) ∧ (u.lockedUntil.isSome → u'.lockedUntil.isSome)

/-- A lock is written when no login that was let through is still under way, and it does
not end before a lock in force. -/
def LocksAlone (notes : List Seen) (c : Config Store Label ApiException LoginReply) (_ : ℕ) (l : Label)
    (c' : Config Store Label ApiException LoginReply) : Prop :=
  ∀ lockedUntil ∈ seenLock email c.state l c'.state,
    (clock notes.length < lockedUntil → ∀ j ∈ admitted notes, ∀ p ∈ c.threads[j]?, p.head? = none) ∧
      ∀ t ∈ locks notes, clock notes.length < t → t ≤ lockedUntil

variable {env email clock} {logins : List LoginCall} {notes : List Seen} {i : ℕ} {l : Label}
  {c c' : Config Store Label ApiException LoginReply}

instance : Decidable (ReadsClock clock logins notes c i l c') :=
  inferInstanceAs (Decidable (∀ q ∈ logins[i]?,
    if l = .on .user .findUnique then clock notes.length ≤ q.m.now else q.m.now ≤ clock notes.length))

instance : Decidable (KeepsLock email clock notes c i l c') :=
  inferInstanceAs (Decidable (∀ lockedUntil ∈ locks notes, clock notes.length < lockedUntil → ¬ c'.Succeeded i ∧
    ∀ u ∈ account email c.state, ∀ u' ∈ account email c'.state, u.failedLoginAttempts ≤ u'.failedLoginAttempts ∧
      (u.status = .locked → u'.status = .locked) ∧ (u.lockedUntil.isSome → u'.lockedUntil.isSome)))

instance : Decidable (LocksAlone email clock notes c i l c') :=
  inferInstanceAs (Decidable (∀ lockedUntil ∈ seenLock email c.state l c'.state,
    (clock notes.length < lockedUntil → ∀ j ∈ admitted notes, ∀ p ∈ c.threads[j]?, p.head? = none) ∧
      ∀ t ∈ locks notes, clock notes.length < t → t ≤ lockedUntil))

end

@[simp] theorem mem_locks_cons {t : DateTime} {x : Seen} {notes : List Seen} :
    t ∈ locks (x :: notes) ↔ x.lockedUntil = some t ∨ t ∈ locks notes := by
  simp [locks]

@[simp] theorem mem_admitted_cons {i : ℕ} {x : Seen} {notes : List Seen} :
    i ∈ admitted (x :: notes) ↔ x.admitted = some i ∨ i ∈ admitted notes := by
  simp [admitted]

/-! ## The stages of a login -/

inductive Stage
  | reading
  | counting (id : Uuid)
  | counted (id : Uuid)
  | locking (id : Uuid)
  | ended
  | admitted (id : Uuid)
  | recording
  | issuing
  | granted
deriving DecidableEq, Repr

namespace Stage

/-- The user that later statements are about. -/
def userId? : Stage → Option Uuid
  | counting id | counted id | locking id | admitted id => some id
  | _ => none

/-- Let through, and not yet returned. -/
def underWay : Stage → Bool
  | admitted _ | recording | issuing => true
  | _ => false

/-- The stages after a statement that follows the look-up. -/
def next : Stage → List Stage
  | counting id => [counted id,ended]
  | counted id => [locking id,ended]
  | locking _ => [ended]
  | admitted _ => [recording,ended]
  | recording => [issuing]
  | issuing => [granted]
  | ended => [ended]
  | reading | granted => []

variable {st st' : Stage}

theorem userId_of_next (h : st' ∈ st.next) {id : Uuid} (hid : st'.userId? = some id) : st.userId? = some id := by
  cases st with
  | counting | counted =>
    obtain rfl | rfl := by simpa [next] using h
    · exact hid
    · cases hid
  | admitted =>
    obtain rfl | rfl := by simpa [next] using h
    all_goals cases hid
  | locking | recording | issuing | ended =>
    obtain rfl := by simpa [next] using h
    cases hid
  | reading | granted => cases h

theorem underWay_of_next (h : st' ∈ st.next) (hunder : st'.underWay = true) : st.underWay = true := by
  cases st with
  | counting | counted =>
    obtain rfl | rfl := by simpa [next] using h
    all_goals cases hunder
  | locking | ended =>
    obtain rfl := by simpa [next] using h
    cases hunder
  | admitted | recording | issuing => rfl
  | reading | granted => cases h

theorem underWay_of_granted (h : granted ∈ st.next) : st.underWay = true := by
  cases st with
  | issuing => rfl
  | reading | counting | counted | locking | ended | admitted | recording | granted => simp [next] at h

end Stage

structure LoginPhase where
  call : LoginCall
  stage : Stage

variable (env : AuthEnv) (email : String)

/-- The write of the row in a stage. -/
def LoginPhase.write (φ : LoginPhase) : Option (Uuid × (User → User)) :=
  match φ.stage with
  | .counting id => some (id,countFailure)
  | .locking id => some (id,lockUser (φ.call.lockTime env))
  | .admitted id => some (id,resetAttempts)
  | _ => none

/-- The stages after a look-up. -/
def Looked (q : LoginCall) : Option User → Stage → Prop
  | none, st => st = .ended
  | some u, st => if q.admits env u then st = .admitted u.id else st = .ended ∨ st = .counting u.id

inductive LoginStep : LoginPhase → Store → Label → LoginPhase → Store → Prop
  | looked {q : LoginCall} {st : Stage} {s : Store} (h : Looked env q (account email s) st) :
      LoginStep ⟨q,.reading⟩ s (.on .user .findUnique) ⟨q,st⟩ s
  | wrote {q : LoginCall} {st st' : Stage} {s s' : Store} {id : Uuid} {f : User → User}
      (hf : LoginPhase.write env ⟨q,st⟩ = some (id,f))
      (hs : account email s' = (account email s).map (fun u => if u.id = id then f u else u)) (hst : st' ∈ st.next) :
      LoginStep ⟨q,st⟩ s (.on .user .update) ⟨q,st'⟩ s'
  | went {q : LoginCall} {st st' : Stage} {s s' : Store} {l : Label} (hf : LoginPhase.write env ⟨q,st⟩ = none)
      (hl : ∀ a, l ≠ .on .user a) (hs : account email s' = account email s) (hst : st' ∈ st.next) :
      LoginStep ⟨q,st⟩ s l ⟨q,st'⟩ s'

def LoginEnds : Except ApiException LoginReply → LoginPhase → Prop
  | .ok _, φ => φ.stage = .granted
  | .error _, φ => φ.stage = .ended

/-! ## A login follows the stages -/

section Follows
variable {env email} {α : Type} {Post : Except ApiException α → LoginPhase → Prop} {q : LoginCall} {st : Stage}

theorem LoginPhase.write_cases {φ : LoginPhase} {id : Uuid} {f : User → User} (h : φ.write env = some (id,f)) :
    (φ.stage = .counting id ∧ f = countFailure) ∨
      (φ.stage = .locking id ∧ f = lockUser (φ.call.lockTime env)) ∨ (φ.stage = .admitted id ∧ f = resetAttempts) := by
  unfold LoginPhase.write at h
  split at h
  · obtain ⟨rfl,rfl⟩ := Prod.mk.inj (Option.some.inj h)
    exact .inl ⟨‹_›,rfl⟩
  · obtain ⟨rfl,rfl⟩ := Prod.mk.inj (Option.some.inj h)
    exact .inr (.inl ⟨‹_›,rfl⟩)
  · obtain ⟨rfl,rfl⟩ := Prod.mk.inj (Option.some.inj h)
    exact .inr (.inr ⟨‹_›,rfl⟩)
  · cases h

theorem LoginPhase.write_keeps {φ : LoginPhase} {id : Uuid} {f : User → User} (h : φ.write env = some (id,f))
    (u : User) : (f u).id = u.id ∧ (f u).email = u.email := by
  rcases LoginPhase.write_cases h with ⟨-,rfl⟩ | ⟨-,rfl⟩ | ⟨-,rfl⟩ <;> exact ⟨rfl,rfl⟩

theorem account_update (email : String) (id : Uuid) {f : User → User} (hf : ∀ u, (f u).email = u.email) (s : Store) :
    account email (Prisma.user.set (Table.updateMany (fun u => u.id = id) f (Prisma.user.get s)) s) =
      (account email s).map (fun u => if u.id = id then f u else u) := by
  have hfind := Table.find?_updateMany (p := fun u : User => u.id = id) (q := fun u => u.email = email) (f := f)
    (fun u => by rw [hf]) (Prisma.user.get s)
  simp only [decide_eq_true_eq] at hfind
  exact hfind

theorem follows_write {id : Uuid} {f : User → User} {g : User → Request α} (st' : Stage)
    (hw : LoginPhase.write env ⟨q,st⟩ = some (id,f)) (hst : st' ∈ st.next) (hended : .ended ∈ st.next)
    (herror : ∀ e, Post (.error e) ⟨q,.ended⟩) (hg : ∀ u, (g u).Follows (LoginStep env email) Post ⟨q,st'⟩) :
    (Prisma.user.update (fun u => u.id = id) f >>= g).Follows (LoginStep env email) Post ⟨q,st⟩ := by
  intro s
  have hs := account_update email id (fun u => (LoginPhase.write_keeps hw u).2) s
  dsimp only
  cases (Prisma.user.get s).find? (fun u => u.id = id) with
  | none => exact ⟨⟨q,.ended⟩,.wrote hw hs hended,herror _⟩
  | some u => exact ⟨⟨q,st'⟩,.wrote hw hs hst,hg _⟩

theorem follows_create {ρ : Type} {t : TableRef ρ} {row : ρ} {g : ρ → Request α} (st' : Stage)
    (ht : t.entity ≠ .user) (hset : ∀ rows s, account email (t.set rows s) = account email s)
    (hw : LoginPhase.write env ⟨q,st⟩ = none) (hst : st' ∈ st.next)
    (hg : ∀ r, (g r).Follows (LoginStep env email) Post ⟨q,st'⟩) :
    (t.create row >>= g).Follows (LoginStep env email) Post ⟨q,st⟩ := by
  intro s
  refine ⟨⟨q,st'⟩,.went hw ?_ (hset _ s) hst,hg row⟩
  intro a hl
  exact ht (Label.on.inj hl).1

theorem follows_recordLoginAttempt {id : Uuid} {status : LoginStatus} {ctx : LoginContext} {g : Unit → Request α}
    (st' : Stage) (hw : LoginPhase.write env ⟨q,st⟩ = none) (hst : st' ∈ st.next)
    (hg : (g ()).Follows (LoginStep env email) Post ⟨q,st'⟩) :
    (recordLoginAttempt id status ctx >>= g).Follows (LoginStep env email) Post ⟨q,st⟩ := by
  unfold recordLoginAttempt
  rw [Prog.bind_assoc]
  exact follows_create st' (by decide) (fun _ _ => rfl) hw hst fun _ => hg

theorem follows_handleFailedLogin (env : AuthEnv) (email : String) (q : LoginCall) (id : Uuid) :
    (handleFailedLogin env id q.ctx q.m).Follows (LoginStep env email) (fun _ φ => φ.stage = .ended)
      ⟨q,.counting id⟩ := by
  unfold handleFailedLogin
  refine follows_write (.counted id) rfl (by simp [Stage.next]) (by simp [Stage.next]) (fun _ => rfl) fun u => ?_
  split
  · refine follows_recordLoginAttempt (.locking id) rfl (by simp [Stage.next]) ?_
    refine follows_write .ended rfl (by simp [Stage.next]) (by simp [Stage.next]) (fun _ => rfl) fun u => ?_
    exact follows_create .ended (by decide) (fun _ _ => rfl) rfl (by simp [Stage.next]) fun _ => rfl
  · exact follows_recordLoginAttempt .ended rfl (by simp [Stage.next]) rfl

/-- What follows a look-up that lets the login through. -/
theorem follows_success (env : AuthEnv) (email : String) (q : LoginCall) (id : Uuid) (address : String) :
    (do
      let _ ← Prisma.user.update (fun u => u.id = id) resetAttempts
      recordLoginAttempt id .success q.ctx
      let tokens ← issueTokenPair env id address q.ctx (q.dto.rememberMe.getD false) q.m
      pure ⟨tokens,⟨id,address⟩⟩ : Request LoginReply).Follows (LoginStep env email) LoginEnds ⟨q,.admitted id⟩ := by
  refine follows_write .recording rfl (by simp [Stage.next]) (by simp [Stage.next]) (fun _ => rfl) fun u => ?_
  refine follows_recordLoginAttempt .issuing rfl (by simp [Stage.next]) ?_
  unfold issueTokenPair
  rw [Prog.bind_assoc]
  exact follows_create .granted (by decide) (fun _ _ => rfl) rfl (by simp [Stage.next]) fun _ => rfl

/-- A refusal that is recorded. -/
theorem follows_refusal (env : AuthEnv) (email : String) (q : LoginCall) (id : Uuid) (status : LoginStatus)
    (e : ApiException) :
    (do
      recordLoginAttempt id status q.ctx
      .throw e : Request LoginReply).Follows (LoginStep env email) LoginEnds ⟨q,.ended⟩ :=
  follows_recordLoginAttempt .ended rfl (by simp [Stage.next]) rfl

theorem follows_login (hq : env.toLowerCase q.dto.email = email) :
    (login env q.dto q.ctx q.m).Follows (LoginStep env email) LoginEnds ⟨q,.reading⟩ := by
  intro s
  rw [hq]
  cases hu : account email s with
  | none =>
    refine ⟨⟨q,.ended⟩,.looked (by simp [hu,Looked]),?_⟩
    simp only [show (Prisma.user.get s).find? (fun u => u.email = email) = none from hu]
    rfl
  | some u =>
    have hrow : (Prisma.user.get s).find? (fun u => u.email = email) = some u := hu
    simp only [hrow,Prog.bind]
    cases hlock : lockedAt u q.m.now with
    | some lockedUntil =>
      refine ⟨⟨q,.ended⟩,.looked (by simp [hu,Looked,LoginCall.admits,hlock]),?_⟩
      exact follows_refusal env email q u.id .failed_locked (accountLocked lockedUntil)
    | none =>
      cases hverified : u.isEmailVerified with
      | false =>
        refine ⟨⟨q,.ended⟩,.looked (by simp [hu,Looked,LoginCall.admits,hverified]),?_⟩
        exact follows_refusal env email q u.id .failed_unverified emailNotVerified
      | true =>
        cases hvalid : passwordValid env u q.dto.password with
        | false =>
          refine ⟨⟨q,.counting u.id⟩,.looked (by simp [hu,Looked,LoginCall.admits,hvalid]),?_⟩
          exact (follows_handleFailedLogin env email q u.id).bind (fun _ _ h => h) (fun _ _ h => h)
        | true =>
          refine ⟨⟨q,.admitted u.id⟩,.looked (by simp [hu,Looked,LoginCall.admits,hlock,hverified,hvalid]),?_⟩
          exact follows_success env email q u.id u.email

end Follows

/-! ## What one step does -/

section Steps
variable {env email} {φ φ' : LoginPhase} {s s' : Store} {l : Label}

theorem LoginStep.call_eq (ht : LoginStep env email φ s l φ' s') : φ'.call = φ.call := by
  cases ht <;> rfl

theorem LoginStep.account_id (ht : LoginStep env email φ s l φ' s') :
    (account email s').map User.id = (account email s).map User.id := by
  cases ht with
  | looked h => rfl
  | wrote hf hs hst =>
    rw [hs,Option.map_map]
    congr 1
    funext u
    simp only [Function.comp_apply]
    split
    · exact (LoginPhase.write_keeps hf u).1
    · rfl
  | went hf hl hs hst => rw [hs]

/-- The user a stage is about was the user of the account when it was looked up. -/
theorem LoginStep.userId_of_userId (ht : LoginStep env email φ s l φ' s') {id : Uuid}
    (h : φ'.stage.userId? = some id) : φ.stage.userId? = some id ∨ (account email s).map User.id = some id := by
  cases ht with
  | @looked q st s hlook =>
    right
    cases hu : account email s with
    | none =>
      obtain rfl : st = .ended := by simpa [hu,Looked] using hlook
      cases h
    | some u =>
      simp only [hu,Looked] at hlook
      split at hlook
      · subst hlook
        exact h
      · rcases hlook with rfl | rfl
        · cases h
        · exact h
  | wrote hf hs hst => exact .inl (Stage.userId_of_next hst h)
  | went hf hl hs hst => exact .inl (Stage.userId_of_next hst h)

/-- A login is under way since its look-up let it through. -/
theorem LoginStep.underWay_of_underWay (ht : LoginStep env email φ s l φ' s') (h : φ'.stage.underWay = true) :
    φ.stage.underWay = true ∧ l ≠ .on .user .findUnique ∨
      l = .on .user .findUnique ∧ ∃ u, account email s = some u ∧ φ.call.admits env u = true := by
  cases ht with
  | @looked q st s hlook =>
    right
    refine ⟨rfl,?_⟩
    cases hu : account email s with
    | none =>
      obtain rfl : st = .ended := by simpa [hu,Looked] using hlook
      cases h
    | some u =>
      refine ⟨u,rfl,?_⟩
      simp only [hu,Looked] at hlook
      split at hlook
      · assumption
      · rcases hlook with rfl | rfl <;> cases h
  | wrote hf hs hst => exact .inl ⟨Stage.underWay_of_next hst h,by decide⟩
  | went hf hl hs hst => exact .inl ⟨Stage.underWay_of_next hst h,hl _⟩

theorem LoginStep.underWay_of_granted (ht : LoginStep env email φ s l φ' s') (h : φ'.stage = .granted) :
    φ.stage.underWay = true ∧ l ≠ .on .user .findUnique := by
  cases ht with
  | @looked q st s hlook =>
    subst h
    cases hu : account email s with
    | none => simp [hu,Looked] at hlook
    | some u =>
      simp only [hu,Looked] at hlook
      split at hlook <;> simp at hlook
  | wrote hf hs hst =>
    subst h
    exact ⟨Stage.underWay_of_granted hst,by decide⟩
  | went hf hl hs hst =>
    subst h
    exact ⟨Stage.underWay_of_granted hst,hl _⟩

theorem seenLock_of_ne (hl : l ≠ .on .user .update) : seenLock email s l s' = none := by
  unfold seenLock
  split
  · exact if_neg fun h => hl h.1
  · rfl

/-- A step leaves the row alone, counts, locks or resets. -/
theorem LoginStep.effect (ht : LoginStep env email φ s l φ' s')
    (hknown : ∀ id ∈ φ.stage.userId?, (account email s).map User.id = some id) :
    (account email s' = account email s ∧ seenLock email s l s' = none) ∨
      ∃ u, account email s = some u ∧
        ((account email s' = some (countFailure u) ∧ seenLock email s l s' = none) ∨
          (account email s' = some (lockUser (φ.call.lockTime env) u) ∧ φ'.stage.underWay = false ∧
            seenLock email s l s' = some (φ.call.lockTime env)) ∨
          (account email s' = some (resetAttempts u) ∧ (φ.stage.underWay = true ∧ l ≠ .on .user .findUnique) ∧
            seenLock email s l s' = none)) := by
  cases ht with
  | looked h => exact .inl ⟨rfl,seenLock_of_ne (by decide)⟩
  | went hf hl hs hst => exact .inl ⟨hs,seenLock_of_ne (hl _)⟩
  | @wrote q st st' s s' id f hf hs hst =>
    have hid : st.userId? = some id := by
      rcases LoginPhase.write_cases hf with ⟨rfl,-⟩ | ⟨rfl,-⟩ | ⟨rfl,-⟩ <;> rfl
    obtain ⟨u,hu,rfl⟩ := Option.map_eq_some_iff.mp (hknown id hid)
    have hs' : account email s' = some (f u) := by
      rw [hs,hu]
      simp
    right
    refine ⟨u,hu,?_⟩
    rcases LoginPhase.write_cases hf with ⟨-,rfl⟩ | ⟨rfl,rfl⟩ | ⟨rfl,rfl⟩
    · left
      exact ⟨hs',by simp [seenLock,hu,hs',countFailure]⟩
    · right
      left
      obtain rfl : st' = .ended := by simpa [Stage.next] using hst
      exact ⟨hs',rfl,by simp [seenLock,hu,hs',lockUser]⟩
    · right
      right
      exact ⟨hs',⟨rfl,by decide⟩,by simp [seenLock,hu,hs',resetAttempts]⟩

end Steps

/-! ## The invariant -/

/-- The account is locked until the time given, or later. -/
def LockedTo (email : String) (t : DateTime) (s : Store) : Prop :=
  ∃ u ∈ account email s, u.status = .locked ∧ ∃ t' ∈ u.lockedUntil, t ≤ t'

structure LockInv (email : String) (logins : List LoginCall) (clock : ℕ → DateTime) (notes : List Seen) (s : Store)
    (φs : List LoginPhase) : Prop where
  calls : φs.map LoginPhase.call = logins
  known : ∀ φ ∈ φs, ∀ id ∈ φ.stage.userId?, (account email s).map User.id = some id
  noted : ∀ i φ, φs[i]? = some φ → φ.stage.underWay = true → i ∈ admitted notes
  inForce : ∀ t ∈ locks notes, clock notes.length < t → LockedTo email t s
  expired : ∀ t ∈ locks notes, clock notes.length < t → ∀ φ ∈ φs, φ.stage.underWay = true → t ≤ φ.call.m.now

section
variable {env email} {logins : List LoginCall} {clock : ℕ → DateTime} {notes : List Seen} {φs : List LoginPhase}
  {φ φ' : LoginPhase} {s s' : Store} {l : Label} {c c' : Config Store Label ApiException LoginReply} {i : ℕ}

/-- Who is let through finds the lock expired. -/
theorem LockedTo.le_now {t : DateTime} (h : LockedTo email t s) {q : LoginCall} {u : User}
    (hu : account email s = some u) (ha : q.admits env u = true) : t ≤ q.m.now := by
  obtain ⟨u',hu',hst,t',ht',hle⟩ := h
  obtain rfl : u = u' := by simpa [hu] using hu'
  simp only [LoginCall.admits,Bool.and_eq_true,Option.isNone_iff_eq_none] at ha
  have hnone := ha.1.1
  have hlock : u.lockedUntil = some t' := ht'
  simp only [lockedAt,hst,hlock,if_true,Option.filter_some] at hnone
  have hpast : ¬ q.m.now < t' := by
    intro hlt
    simp [hlt] at hnone
  exact hle.trans (not_lt.mp hpast)

namespace LockInv

theorem call_eq (h : LockInv email logins clock notes s φs) (hi : φs[i]? = some φ) : logins[i]? = some φ.call := by
  rw [← h.calls,List.getElem?_map,hi]
  rfl

/-- While a lock is in force no login that was let through takes a step. -/
theorem not_underWay (h : LockInv email logins clock notes s φs) (hi : φs[i]? = some φ)
    (hreads : ∀ q ∈ logins[i]?,
      if l = .on .user .findUnique then clock notes.length ≤ q.m.now else q.m.now ≤ clock notes.length)
    (hl : l ≠ .on .user .findUnique) (hunder : φ.stage.underWay = true) {t : DateTime} (ht : t ∈ locks notes) :
    t ≤ clock notes.length := by
  by_contra hlt
  have hnow := hreads φ.call (h.call_eq hi)
  rw [if_neg hl] at hnow
  have hexp := h.expired t ht (not_le.mp hlt) φ (List.mem_of_getElem? hi) hunder
  exact hlt (hexp.trans hnow)

theorem keepsLock (h : LockInv email logins clock notes c.state φs) (hi : φs[i]? = some φ)
    (ht : LoginStep env email φ c.state l φ' c'.state)
    (hf' : c'.Follows (LoginStep env email) LoginEnds (φs.set i φ')) (hreads : ReadsClock clock logins notes c i l c') :
    KeepsLock email clock notes c i l c' := by
  intro t ht' hlt
  constructor
  · intro hsucc
    obtain ⟨hlen,-⟩ := List.getElem?_eq_some_iff.mp hi
    obtain ⟨p,hp,hfol⟩ := hf'.thread (List.getElem?_set_self hlen)
    obtain ⟨a,ha⟩ := Config.succeeded_iff.mp hsucc
    obtain rfl : p = .done (.ok a) := by simpa [hp] using ha
    obtain ⟨hunder,hl⟩ := ht.underWay_of_granted hfol
    exact absurd (h.not_underWay hi hreads hl hunder ht') (not_le.mpr hlt)
  · intro u hu u' hu'
    rcases ht.effect (h.known φ (List.mem_of_getElem? hi)) with
      ⟨hs,-⟩ | ⟨r,hr,⟨hs,-⟩ | ⟨hs,-⟩ | ⟨-,⟨hunder,hl⟩,-⟩⟩
    · obtain rfl : u = u' := by simpa [hs] using hu.symm.trans (hs.symm.trans hu')
      exact ⟨le_refl _,fun hst => hst,fun hsome => hsome⟩
    · obtain rfl : r = u := by simpa [hr] using hu
      obtain rfl : countFailure r = u' := by simpa [hs] using hu'
      exact ⟨Nat.le_succ _,fun hst => hst,fun hsome => hsome⟩
    · obtain rfl : r = u := by simpa [hr] using hu
      obtain rfl : lockUser (φ.call.lockTime env) r = u' := by simpa [hs] using hu'
      exact ⟨le_refl _,fun _ => rfl,fun _ => rfl⟩
    · exact absurd (h.not_underWay hi hreads hl hunder ht') (not_le.mpr hlt)

/-- A lock that stays in force, or is written now. -/
theorem lockedTo_of_step (h : LockInv email logins clock notes c.state φs) (hclock : Monotone clock)
    (hi : φs[i]? = some φ) (ht : LoginStep env email φ c.state l φ' c'.state)
    (hreads : ReadsClock clock logins notes c i l c') (halone : LocksAlone email clock notes c i l c') {t : DateTime}
    (htl : seenLock email c.state l c'.state = some t ∨ t ∈ locks notes) (hlt : clock (notes.length + 1) < t) :
    LockedTo email t c'.state := by
  have hlt' : clock notes.length < t := lt_of_le_of_lt (hclock (Nat.le_succ _)) hlt
  rcases ht.effect (h.known φ (List.mem_of_getElem? hi)) with
    ⟨hs,hseen⟩ | ⟨u,hu,⟨hs,hseen⟩ | ⟨hs,-,hseen⟩ | ⟨-,⟨hunder,hl⟩,hseen⟩⟩
  · rcases htl with hnew | hold
    · rw [hseen] at hnew
      cases hnew
    · obtain ⟨r,hr,hrest⟩ := h.inForce t hold hlt'
      exact ⟨r,hs.trans hr,hrest⟩
  · rcases htl with hnew | hold
    · rw [hseen] at hnew
      cases hnew
    · obtain ⟨r,hr,hst,htime⟩ := h.inForce t hold hlt'
      obtain rfl : r = u := by simpa [hu] using hr.symm
      exact ⟨countFailure r,hs,hst,htime⟩
  · have hle : t ≤ φ.call.lockTime env := by
      rcases htl with hnew | hold
      · rw [hseen] at hnew
        exact (Option.some.inj hnew).ge
      · exact (halone _ hseen).2 t hold hlt'
    exact ⟨lockUser (φ.call.lockTime env) u,hs,rfl,_,rfl,hle⟩
  · rcases htl with hnew | hold
    · rw [hseen] at hnew
      cases hnew
    · exact absurd (h.not_underWay hi hreads hl hunder hold) (not_le.mpr hlt')

/-- A login that has not returned is still to take a step. -/
theorem head?_of_underWay (hf : c.Follows (LoginStep env email) LoginEnds φs) (hi : φs[i]? = some φ)
    (hunder : φ.stage.underWay = true) : ∃ p, c.threads[i]? = some p ∧ p.head? ≠ none := by
  obtain ⟨p,hp,hfol⟩ := hf.thread hi
  refine ⟨p,hp,fun hnone => ?_⟩
  obtain ⟨r,rfl⟩ := Prog.eq_done_of_head?_none hnone
  cases r with
  | ok a =>
    have hgranted : φ.stage = .granted := hfol
    rw [hgranted] at hunder
    cases hunder
  | error e =>
    have hended : φ.stage = .ended := hfol
    rw [hended] at hunder
    cases hunder

theorem noted_of_step (h : LockInv email logins clock notes c.state φs) (hi : φs[i]? = some φ)
    (ht : LoginStep env email φ c.state l φ' c'.state) {j : ℕ} {ψ : LoginPhase} (hj : (φs.set i φ')[j]? = some ψ)
    (hunder : ψ.stage.underWay = true) :
    seenAdmitted env email logins c.state i l = some j ∨ j ∈ admitted notes := by
  by_cases hij : i = j
  · subst hij
    obtain ⟨hlen,-⟩ := List.getElem?_eq_some_iff.mp hi
    obtain rfl : φ' = ψ := by simpa [List.getElem?_set_self hlen] using hj
    rcases ht.underWay_of_underWay hunder with ⟨hold,-⟩ | ⟨hl,u,hu,ha⟩
    · exact .inr (h.noted i φ hi hold)
    · left
      have hcall := h.call_eq hi
      rw [seenAdmitted,if_pos ⟨hl,by simp [hu,hcall,ha]⟩]
  · rw [List.getElem?_set_ne hij] at hj
    exact .inr (h.noted j ψ hj hunder)

/-- Whoever is under way was let through after the locks noted so far. -/
theorem expired_of_step (h : LockInv email logins clock notes c.state φs) (hclock : Monotone clock)
    (hf : c.Follows (LoginStep env email) LoginEnds φs) (hi : φs[i]? = some φ)
    (ht : LoginStep env email φ c.state l φ' c'.state) (halone : LocksAlone email clock notes c i l c') {t : DateTime}
    (htl : seenLock email c.state l c'.state = some t ∨ t ∈ locks notes) (hlt : clock (notes.length + 1) < t)
    {ψ : LoginPhase} (hψ : ψ ∈ φs.set i φ') (hunder : ψ.stage.underWay = true) : t ≤ ψ.call.m.now := by
  have hlt' : clock notes.length < t := lt_of_le_of_lt (hclock (Nat.le_succ _)) hlt
  rcases htl with hnew | hold
  · -- a lock is written, and nobody is under way
    exfalso
    rcases List.mem_or_eq_of_mem_set hψ with hψ | rfl
    · obtain ⟨j,hj⟩ := List.mem_iff_getElem?.mp hψ
      obtain ⟨p,hp,hhead⟩ := head?_of_underWay hf hj hunder
      exact hhead ((halone t hnew).1 hlt' j (h.noted j ψ hj hunder) p hp)
    · rcases ht.effect (h.known φ (List.mem_of_getElem? hi)) with
        ⟨-,hseen⟩ | ⟨u,-,⟨-,hseen⟩ | ⟨-,hidle,-⟩ | ⟨-,-,hseen⟩⟩
      · simp [hseen] at hnew
      · simp [hseen] at hnew
      · simp [hidle] at hunder
      · simp [hseen] at hnew
  · rcases List.mem_or_eq_of_mem_set hψ with hψ | rfl
    · exact h.expired t hold hlt' ψ hψ hunder
    · rw [ht.call_eq]
      rcases ht.underWay_of_underWay hunder with ⟨hbefore,-⟩ | ⟨-,u,hu,ha⟩
      · exact h.expired t hold hlt' φ (List.mem_of_getElem? hi) hbefore
      · exact (h.inForce t hold hlt').le_now hu ha

theorem step (h : LockInv email logins clock notes c.state φs) (hclock : Monotone clock)
    (hf : c.Follows (LoginStep env email) LoginEnds φs) (hi : φs[i]? = some φ)
    (ht : LoginStep env email φ c.state l φ' c'.state)
    (hreads : ReadsClock clock logins notes c i l c') (halone : LocksAlone email clock notes c i l c') :
    LockInv email logins clock (seen env email logins c i l c' ++ notes) c'.state (φs.set i φ') := by
  have hknown := h.known φ (List.mem_of_getElem? hi)
  refine ⟨?_,?_,?_,?_,?_⟩
  · rw [map_set_phase hi ht.call_eq]
    exact h.calls
  · intro ψ hψ id hid
    rw [ht.account_id]
    rcases List.mem_or_eq_of_mem_set hψ with hψ | rfl
    · exact h.known ψ hψ id hid
    · rcases ht.userId_of_userId hid with hid | hid
      · exact hknown id hid
      · exact hid
  · intro j ψ hj hunder
    simpa [seen] using h.noted_of_step hi ht hj hunder
  · intro t htl hlt
    exact h.lockedTo_of_step hclock hi ht hreads halone (by simpa [seen] using htl) hlt
  · intro t htl hlt ψ hψ hunder
    exact h.expired_of_step hclock hf hi ht halone (by simpa [seen] using htl) hlt hψ hunder

end LockInv
end

/-- For every interleaving of logins for one account: as long as no lock is written while
a login that was let through is still under way, and none is written over a longer one,
no step before the end of a lock returns tokens, resets the counter or clears the lock. -/
theorem keepsLock_of_locksAlone (env : AuthEnv) (email : String) (s : Store) (logins : List LoginCall)
    (clock : ℕ → DateTime) (tr : List (ℕ × Label)) (d : Config Store Label ApiException LoginReply)
    (hclock : Monotone clock) (hlogins : ∀ q ∈ logins, env.toLowerCase q.dto.email = email)
    (h : Steps (LoginCall.start env s logins) tr d)
    (hreads : Whenever (seen env email logins) (ReadsClock clock logins) (LoginCall.start env s logins) tr [])
    (halone : Whenever (seen env email logins) (LocksAlone email clock) (LoginCall.start env s logins) tr []) :
    Whenever (seen env email logins) (KeepsLock email clock) (LoginCall.start env s logins) tr [] := by
  refine h.whenever_of (J := fun notes c => ∃ φs, c.Follows (LoginStep env email) LoginEnds φs ∧
    LockInv email logins clock notes c.state φs) ?_ ?_ (hreads.and halone)
  · rintro notes c i l c' ⟨φs,hf,hI⟩ hs ⟨hread,halone⟩
    obtain ⟨φ,φ',hi,ht,hf'⟩ := hf.step hs
    exact ⟨hI.keepsLock hi ht hf' hread,_,hf',hI.step hclock hf hi ht hread halone⟩
  · refine ⟨logins.map fun q => ⟨q,.reading⟩,?_,?_⟩
    · exact Config.follows_map logins (fun q hq => follows_login (hlogins q hq)) s
    · refine ⟨by simp [Function.comp_def],?_,?_,by simp [locks],by simp [locks]⟩
      · intro φ hφ id hid
        obtain ⟨q,-,rfl⟩ := List.mem_map.mp hφ
        cases hid
      · intro i φ hi hunder
        obtain ⟨q,-,rfl⟩ := List.mem_map.mp (List.mem_of_getElem? hi)
        cases hunder

/-- An account one failed login away from a lock. -/
def guessedStore : Store where
  identity.users :=
    [{ id := 1, email := "ana@example.com", passwordHash := some "Secret123", isEmailVerified := true,
       failedLoginAttempts := 4 }]

def loginAt (password : String) (now : DateTime) : LoginCall where
  dto := ⟨"ana@example.com",password,none⟩
  ctx := { deviceFingerprint := "d" }
  m := { now := now, rawToken := "raw", newId := 5 }

/-- A guess, and then the owner. -/
def guessFirst : List LoginCall := [loginAt "guess" 0,loginAt "Secret123" 5]

/-- The owner, and a guess meanwhile. -/
def guessMeanwhile : List LoginCall := [loginAt "Secret123" 0,loginAt "guess" 1]

/-- The guess locks the account, and the owner is turned away. -/
theorem keepsLock_of_locksAlone_sequential :
    ∃ tr d, Steps (LoginCall.start plainEnv guessedStore guessFirst) tr d ∧ d.Completed ∧
      LockedTo "ana@example.com" 900000 d.state ∧ Whenever (seen plainEnv "ana@example.com" guessFirst)
        (KeepsLock "ana@example.com" Nat.cast) (LoginCall.start plainEnv guessedStore guessFirst) tr [] := by
  obtain ⟨tr,d,h,hd,hlocked,hreads,halone⟩ := Steps.exists_of_playTrace
    (c := LoginCall.start plainEnv guessedStore guessFirst)
    (P := fun tr d => d.Completed ∧ account "ana@example.com" d.state = some
        { id := 1, email := "ana@example.com", passwordHash := some "Secret123", isEmailVerified := true,
          failedLoginAttempts := 5, status := .locked, lockedUntil := some 900000 } ∧
      Whenever (seen plainEnv "ana@example.com" guessFirst) (ReadsClock Nat.cast guessFirst)
        (LoginCall.start plainEnv guessedStore guessFirst) tr [] ∧
      Whenever (seen plainEnv "ana@example.com" guessFirst) (LocksAlone "ana@example.com" Nat.cast)
        (LoginCall.start plainEnv guessedStore guessFirst) tr [])
    [0,0,0,0,0,1,1] (by decide +kernel)
  refine ⟨tr,d,h,hd,⟨_,hlocked,rfl,_,rfl,le_refl _⟩,?_⟩
  exact keepsLock_of_locksAlone plainEnv "ana@example.com" guessedStore guessFirst Nat.cast tr d Nat.mono_cast
    (by decide) h hreads halone

/-- The owner's login is let through before the guess locks the account, and then returns
tokens, resets the counter and clears the lock. -/
theorem guessMeanwhile_not_keepsLock :
    ∃ tr d, Steps (LoginCall.start plainEnv guessedStore guessMeanwhile) tr d ∧ d.Completed ∧ d.Succeeded 0 ∧
      Whenever (seen plainEnv "ana@example.com" guessMeanwhile) (ReadsClock Nat.cast guessMeanwhile)
        (LoginCall.start plainEnv guessedStore guessMeanwhile) tr [] ∧
      ¬ Whenever (seen plainEnv "ana@example.com" guessMeanwhile) (KeepsLock "ana@example.com" Nat.cast)
        (LoginCall.start plainEnv guessedStore guessMeanwhile) tr [] :=
  Steps.exists_of_playTrace [0,1,1,1,1,1,0,0,0] (by decide +kernel)

end PinoyTax.Identity
