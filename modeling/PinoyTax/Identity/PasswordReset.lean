import PinoyTax.Identity.AccountStatus

/-! # Reset tokens after a password reset

A reset marks the token it was given and leaves the user's other reset tokens alone.
Each of them is good for one reset, within an hour of its issue.
-/
namespace PinoyTax.Identity
open PinoyTax Foundation Runs

inductive ResetRequest
  | forgotPassword (email : String) (m : Moment)
  | resetPassword (token newPassword : String) (m : Moment)

namespace ResetRequest

def now : ResetRequest → DateTime
  | forgotPassword _ m => m.now
  | resetPassword _ _ m => m.now

variable (env : AuthEnv)

def next (s : Store) : ResetRequest → Store
  | forgotPassword email m => ((Identity.forgotPassword env email m).run s).2
  | resetPassword token newPassword m => ((Identity.resetPassword env token newPassword m).run s).2

/-- The token with which the request changes a password. -/
def presented (s : Store) : ResetRequest → Option MailedToken
  | forgotPassword _ _ => none
  | resetPassword token newPassword m =>
    match ((Identity.resetPassword env token newPassword m).run s).1 with
    | .ok _ => s.identity.passwordResetTokens.find? (isUsable (env.hashToken token) m.now)
    | .error _ => none

/-- The id of a new token is not in use. -/
def Fresh (s : Store) : ResetRequest → Prop
  | forgotPassword _ m => m.newId ∉ s.identity.passwordResetTokens.map MailedToken.id
  | resetPassword _ _ _ => True

instance (s : Store) : (req : ResetRequest) → Decidable (Fresh s req)
  | forgotPassword _ m => inferInstanceAs (Decidable (m.newId ∉ s.identity.passwordResetTokens.map MailedToken.id))
  | resetPassword _ _ _ => .isTrue trivial

/-- A later reset of the same user uses no token that was there at the first one. -/
def UsesNewToken (s : Store) (req : ResetRequest) (s' : Store) (req' : ResetRequest) : Prop :=
  ∀ t ∈ presented env s req, ∀ t' ∈ presented env s' req', t'.userId = t.userId →
    t'.id ∉ s.identity.passwordResetTokens.map MailedToken.id

/-- A later reset uses another token, and one that was there at the first reset only
within the hour that follows it. -/
def UsesLiveToken (s : Store) (req : ResetRequest) (s' : Store) (req' : ResetRequest) : Prop :=
  ∀ t ∈ presented env s req, ∀ t' ∈ presented env s' req', t'.id ≠ t.id ∧
    (t'.id ∈ s.identity.passwordResetTokens.map MailedToken.id → req'.now < req.now + passwordResetTtlMs)

end ResetRequest

open ResetRequest

/-! ## The tokens after one request -/

section
variable (env : AuthEnv) {s : Store}

/-- A forgotten password adds one token at most, which lives for an hour. -/
theorem tokens_forgotPassword (email : String) (m : Moment) :
    ((forgotPassword env email m).run s).2.identity.passwordResetTokens = s.identity.passwordResetTokens ∨
      ∃ userId, ((forgotPassword env email m).run s).2.identity.passwordResetTokens =
        s.identity.passwordResetTokens ++
          [{ id := m.newId, userId := userId, tokenHash := env.hashToken m.rawToken,
             expiresAt := m.now + passwordResetTtlMs }] := by
  simp only [forgotPassword,Prog.run_bind,TableRef.run_findUnique,Prog.resume_ok]
  cases (Prisma.user.get s).find? (fun u => u.email = env.toLowerCase email) with
  | none => exact .inl rfl
  | some user => exact .inr ⟨user.id,rfl⟩

/-- A reset that goes through marks the token it found; any other one changes no token. -/
theorem tokens_resetPassword (token newPassword : String) (m : Moment) :
    (presented env s (.resetPassword token newPassword m) = none ∧
      ((resetPassword env token newPassword m).run s).2.identity.passwordResetTokens =
        s.identity.passwordResetTokens) ∨
    ∃ r, presented env s (.resetPassword token newPassword m) = some r ∧ r ∈ s.identity.passwordResetTokens ∧
      isUsable (env.hashToken token) m.now r = true ∧
      ((resetPassword env token newPassword m).run s).2.identity.passwordResetTokens =
        Table.updateMany (fun t => t.id = r.id) (markUsed m.now) s.identity.passwordResetTokens := by
  cases hf : s.identity.passwordResetTokens.find? (isUsable (env.hashToken token) m.now) with
  | none => exact .inl (by simp [presented,run_resetPassword_unknown hf])
  | some r =>
    have hf' : (Prisma.passwordResetToken.get s).find? (isUsable (env.hashToken token) m.now) = some r := hf
    obtain ⟨q,hq⟩ := Table.exists_find?_of_mem MailedToken.id (List.mem_of_find?_eq_some hf)
    have hq' : (Prisma.passwordResetToken.get s).find? (fun x => x.id = r.id) = some q := hq
    cases hu : s.identity.users.find? (fun u => u.id = r.userId) with
    | none =>
      left
      have hu' : (Prisma.user.get (Prisma.passwordResetToken.set (Table.updateMany (fun t => t.id = r.id)
          (markUsed m.now) (Prisma.passwordResetToken.get s)) s)).find? (fun u => u.id = r.userId) = none := hu
      have hrun : (resetPassword env token newPassword m).run s = (.error .database,s) := by
        simp only [resetPassword,Prog.run_bind,TableRef.run_findFirst,hf',Prog.resume_ok,run_transaction,
          TableRef.run_update_of_find hq',TableRef.run_update,TableRef.updateReply,hu',Prog.resume_error]
      exact ⟨by simp [presented,hrun],by rw [hrun]⟩
    | some u =>
      right
      have hu' : (Prisma.user.get (Prisma.passwordResetToken.set (Table.updateMany (fun t => t.id = r.id)
          (markUsed m.now) (Prisma.passwordResetToken.get s)) s)).find? (fun u => u.id = r.userId) = some u := hu
      have hrun : ∃ t, (resetPassword env token newPassword m).run s = (.ok (),t) ∧
          t.identity.passwordResetTokens =
            Table.updateMany (fun t => t.id = r.id) (markUsed m.now) s.identity.passwordResetTokens := by
        simp only [resetPassword,Prog.run_bind,TableRef.run_findFirst,hf',Prog.resume_ok,run_transaction,
          TableRef.run_update_of_find hq',TableRef.run_update_of_find hu',TableRef.run_updateMany]
        exact ⟨_,rfl,rfl⟩
      obtain ⟨t,hrun,htokens⟩ := hrun
      exact ⟨r,by simp [presented,hrun,hf],List.mem_of_find?_eq_some hf,List.find?_some hf,by rw [hrun]; exact htokens⟩

theorem map_id_markUsed (id : Uuid) (now : DateTime) (tokens : List MailedToken) :
    (Table.updateMany (fun t => t.id = id) (markUsed now) tokens).map MailedToken.id = tokens.map MailedToken.id :=
  Table.map_updateMany (f := markUsed now) MailedToken.id (fun _ => rfl) tokens

end

/-! ## Along a run -/

/-- What a token that was there keeps being: used once used, and never longer lived. -/
structure Outlived (ids : List Uuid) (bound : DateTime) (used : Option Uuid) (s : Store) : Prop where
  known : ∀ id ∈ used, id ∈ s.identity.passwordResetTokens.map MailedToken.id
  used : ∀ t ∈ s.identity.passwordResetTokens, t.id ∈ used → t.usedAt.isSome
  expires : ∀ t ∈ s.identity.passwordResetTokens, t.id ∈ ids → t.expiresAt ≤ bound
  there : ids ⊆ s.identity.passwordResetTokens.map MailedToken.id

namespace Outlived
variable {env : AuthEnv} {ids : List Uuid} {bound : DateTime} {used : Option Uuid} {s : Store}

theorem marks (h : Outlived ids bound used s) {t : Store} {id : Uuid} {now : DateTime}
    (ht : t.identity.passwordResetTokens =
      Table.updateMany (fun t => t.id = id) (markUsed now) s.identity.passwordResetTokens) :
    Outlived ids bound used t := by
  have hids : t.identity.passwordResetTokens.map MailedToken.id =
      s.identity.passwordResetTokens.map MailedToken.id := by
    rw [ht,map_id_markUsed]
  refine ⟨by rw [hids]; exact h.known,?_,?_,by rw [hids]; exact h.there⟩
  · intro x hx hid
    rw [ht] at hx
    rcases Table.mem_updateMany_cases hx with ⟨hx,-⟩ | ⟨q,hq,-,rfl⟩
    · exact h.used x hx hid
    · rfl
  · intro x hx hid
    rw [ht] at hx
    rcases Table.mem_updateMany_cases hx with ⟨hx,-⟩ | ⟨q,hq,-,rfl⟩
    · exact h.expires x hx hid
    · exact h.expires q hq hid

theorem adds (h : Outlived ids bound used s) {t : Store} {r : MailedToken}
    (ht : t.identity.passwordResetTokens = s.identity.passwordResetTokens ++ [r])
    (hr : r.id ∉ s.identity.passwordResetTokens.map MailedToken.id) : Outlived ids bound used t := by
  have hids : t.identity.passwordResetTokens.map MailedToken.id =
      s.identity.passwordResetTokens.map MailedToken.id ++ [r.id] := by
    rw [ht,List.map_append]
    rfl
  refine ⟨?_,?_,?_,?_⟩
  · intro id hid
    rw [hids]
    exact List.mem_append_left _ (h.known id hid)
  · intro x hx hid
    rw [ht] at hx
    rcases List.mem_append.mp hx with hx | hx
    · exact h.used x hx hid
    · obtain rfl := List.mem_singleton.mp hx
      exact absurd (h.known x.id hid) hr
  · intro x hx hid
    rw [ht] at hx
    rcases List.mem_append.mp hx with hx | hx
    · exact h.expires x hx hid
    · obtain rfl := List.mem_singleton.mp hx
      exact absurd (h.there hid) hr
  · rw [hids]
    exact List.subset_append_of_subset_left _ h.there

theorem of_tokens_eq (h : Outlived ids bound used s) {t : Store}
    (ht : t.identity.passwordResetTokens = s.identity.passwordResetTokens) : Outlived ids bound used t := by
  refine ⟨?_,?_,?_,?_⟩
  · rw [ht]
    exact h.known
  · rw [ht]
    exact h.used
  · rw [ht]
    exact h.expires
  · rw [ht]
    exact h.there

theorem next (h : Outlived ids bound used s) {req : ResetRequest} (hfresh : Fresh s req) :
    Outlived ids bound used (ResetRequest.next env s req) := by
  cases req with
  | forgotPassword email m =>
    rcases tokens_forgotPassword env (s := s) email m with ht | ⟨userId,ht⟩
    · exact h.of_tokens_eq ht
    · exact h.adds ht hfresh
  | resetPassword token newPassword m =>
    rcases tokens_resetPassword env (s := s) token newPassword m with ⟨-,ht⟩ | ⟨r,-,-,-,ht⟩
    · exact h.of_tokens_eq ht
    · exact h.marks ht

/-- A token presented now was unused until now, and has not expired. -/
theorem presents (h : Outlived ids bound used s) {req : ResetRequest} {t : MailedToken}
    (ht : t ∈ presented env s req) : t.id ∉ used ∧ (t.id ∈ ids → req.now < bound) := by
  cases req with
  | forgotPassword email m => cases ht
  | resetPassword token newPassword m =>
    rcases tokens_resetPassword env (s := s) token newPassword m with ⟨hnone,-⟩ | ⟨r,hr,hmem,husable,-⟩
    · rw [hnone] at ht
      cases ht
    · rw [hr] at ht
      obtain rfl : r = t := Option.some.inj ht
      obtain ⟨-,hunused,hlater⟩ := isUsable_eq_true.mp husable
      refine ⟨fun hused => ?_,fun hid => lt_of_lt_of_le hlater (h.expires r hmem hid)⟩
      have hsome := h.used r hmem hused
      rw [hunused] at hsome
      cases hsome

theorem along (h : Outlived ids bound used s) {requests : List ResetRequest}
    (hfresh : Along (ResetRequest.next env) Fresh s requests) :
    Along (ResetRequest.next env) (fun s req => ∀ t ∈ presented env s req, t.id ∉ used ∧ (t.id ∈ ids → req.now < bound))
      s requests := by
  induction requests generalizing s with
  | nil => trivial
  | cons req rest ih => exact ⟨fun t ht => h.presents ht,ih (h.next hfresh.1) hfresh.2⟩

end Outlived

section
variable {env : AuthEnv}

/-- What holds of the tokens after a reset: the one it was given is used, the others
expire within the hour. -/
theorem outlived_next {s : Store} {req : ResetRequest} {t : MailedToken} (ht : t ∈ presented env s req)
    (hexp : ∀ x ∈ s.identity.passwordResetTokens, x.expiresAt ≤ req.now + passwordResetTtlMs) :
    Outlived (s.identity.passwordResetTokens.map MailedToken.id) (req.now + passwordResetTtlMs) (some t.id)
      (ResetRequest.next env s req) := by
  cases req with
  | forgotPassword email m => cases ht
  | resetPassword token newPassword m =>
    rcases tokens_resetPassword env (s := s) token newPassword m with ⟨hnone,-⟩ | ⟨r,hr,hmem,-,htokens⟩
    · rw [hnone] at ht
      cases ht
    · rw [hr] at ht
      obtain rfl : r = t := Option.some.inj ht
      have hids : (ResetRequest.next env s (.resetPassword token newPassword m)).identity.passwordResetTokens.map
          MailedToken.id = s.identity.passwordResetTokens.map MailedToken.id := by
        rw [ResetRequest.next,htokens,map_id_markUsed]
      refine ⟨?_,?_,?_,by rw [hids]; exact List.Subset.refl _⟩
      · intro id hid
        obtain rfl : r.id = id := Option.some.inj hid
        rw [hids]
        exact List.mem_map_of_mem hmem
      · intro x hx hid
        rw [ResetRequest.next,htokens] at hx
        rcases Table.mem_updateMany_cases hx with ⟨-,hne⟩ | ⟨q,-,-,rfl⟩
        · exact absurd (Option.some.inj hid).symm (of_decide_eq_false hne)
        · rfl
      · intro x hx _
        rw [ResetRequest.next,htokens] at hx
        rcases Table.mem_updateMany_cases hx with ⟨hx,-⟩ | ⟨q,hq,-,rfl⟩
        · exact hexp x hx
        · exact hexp q hq

variable (env) in
/-- Tokens issued so far expire within an hour of the latest request. -/
theorem expires_next {s : Store} {req : ResetRequest}
    (hexp : ∀ x ∈ s.identity.passwordResetTokens, x.expiresAt ≤ req.now + passwordResetTtlMs) :
    ∀ x ∈ (ResetRequest.next env s req).identity.passwordResetTokens, x.expiresAt ≤ req.now + passwordResetTtlMs := by
  intro x hx
  cases req with
  | forgotPassword email m =>
    rcases tokens_forgotPassword env (s := s) email m with ht | ⟨userId,ht⟩
    · rw [ResetRequest.next,ht] at hx
      exact hexp x hx
    · rw [ResetRequest.next,ht] at hx
      rcases List.mem_append.mp hx with hx | hx
      · exact hexp x hx
      · obtain rfl := List.mem_singleton.mp hx
        exact le_refl _
  | resetPassword token newPassword m =>
    rcases tokens_resetPassword env (s := s) token newPassword m with ⟨-,ht⟩ | ⟨r,-,-,-,ht⟩
    · rw [ResetRequest.next,ht] at hx
      exact hexp x hx
    · rw [ResetRequest.next,ht] at hx
      rcases Table.mem_updateMany_cases hx with ⟨hx,-⟩ | ⟨q,hq,-,rfl⟩
      · exact hexp x hx
      · exact hexp q hq

theorem following_usesLiveToken {s : Store} {requests : List ResetRequest}
    (hexp : ∀ x ∈ s.identity.passwordResetTokens, ∀ req ∈ requests, x.expiresAt ≤ req.now + passwordResetTtlMs)
    (htimes : requests.Pairwise (fun req req' => req.now ≤ req'.now))
    (hfresh : Along (ResetRequest.next env) Fresh s requests) :
    Following (ResetRequest.next env) (UsesLiveToken env) s requests := by
  induction requests generalizing s with
  | nil => trivial
  | cons req rest ih =>
    have hnow : ∀ x ∈ s.identity.passwordResetTokens, x.expiresAt ≤ req.now + passwordResetTtlMs :=
      fun x hx => hexp x hx req List.mem_cons_self
    obtain ⟨hlater,hrest⟩ := List.pairwise_cons.mp htimes
    refine ⟨?_,ih ?_ hrest hfresh.2⟩
    · cases hp : presented env s req with
      | none =>
        refine (along_true _ rest).mono fun s' req' _ t ht => ?_
        rw [hp] at ht
        cases ht
      | some t =>
        refine ((outlived_next hp hnow).along hfresh.2).mono fun s' req' h t' ht' t'' ht'' => ?_
        rw [hp] at ht'
        obtain rfl : t = t' := Option.some.inj ht'
        obtain ⟨hne,hin⟩ := h t'' ht''
        exact ⟨fun he => hne (congrArg some he.symm),hin⟩
    · intro x hx req' hreq'
      have hx' := expires_next env hnow x hx
      exact hx'.trans (Int.add_le_add_right (hlater req' hreq') _)

end

/-- From a store without reset tokens, for every sequence of requests at non-decreasing
times: after a reset the token it was given never changes a password again, and a token
that was issued before it can do so only within the following hour. -/
theorem reset_tokens_single_use (env : AuthEnv) (s : Store) (requests : List ResetRequest)
    (hs : s.identity.passwordResetTokens = [])
    (htimes : requests.Pairwise (fun req req' => req.now ≤ req'.now))
    (hfresh : Along (ResetRequest.next env) Fresh s requests) :
    Following (ResetRequest.next env) (UsesLiveToken env) s requests :=
  following_usesLiveToken (by simp [hs]) htimes hfresh

/-- A user who may have forgotten the password. -/
def forgetful : Store where
  identity.users :=
    [{ id := 1, email := "ana@example.com", passwordHash := some "Secret123", isEmailVerified := true }]

/-- Two reset mails, then both links are used. -/
def twoLinks : List ResetRequest :=
  [.forgotPassword "ana@example.com" { now := 1000, rawToken := "first", newId := 5 },
    .forgotPassword "ana@example.com" { now := 2000, rawToken := "second", newId := 6 },
    .resetPassword "second" "Chosen1!" { now := 3000 },.resetPassword "first" "Stolen1!" { now := 4000 }]

theorem reset_tokens_single_use_twoLinks :
    Following (ResetRequest.next plainEnv) (UsesLiveToken plainEnv) forgetful twoLinks :=
  reset_tokens_single_use plainEnv forgetful twoLinks rfl (by decide)
    ⟨by decide,by decide +kernel,trivial,trivial,trivial⟩

theorem twoLinks_usesOldToken :
    forgetful.identity.passwordResetTokens = [] ∧ twoLinks.Pairwise (fun req req' => req.now ≤ req'.now) ∧
      Along (ResetRequest.next plainEnv) Fresh forgetful twoLinks ∧
      ¬ Following (ResetRequest.next plainEnv) (UsesNewToken plainEnv) forgetful twoLinks := by
  refine ⟨rfl,by decide,⟨by decide,by decide +kernel,trivial,trivial,trivial⟩,?_⟩
  rintro ⟨-,-,⟨hfirst,-⟩,-⟩
  refine hfirst ⟨6,1,"second",2000 + passwordResetTtlMs,none⟩ (by decide +kernel)
    ⟨5,1,"first",1000 + passwordResetTtlMs,none⟩ (by decide +kernel) rfl (by decide +kernel)

end PinoyTax.Identity
