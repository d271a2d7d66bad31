import PinoyTax.Identity.AccountStatus

/-! # Tokens that the next request accepts

A login writes the status that the strategy asks for before it hands out tokens. A
refresh hands them out without looking at the account, and the strategy turns them
down when the account is not active.
-/
namespace PinoyTax.Identity
open PinoyTax Foundation Runs

/-- The strategy accepts a returned access token in the store that the request leaves. -/
def ReturnsUsableTokens (env : AuthEnv) (s : Store) (req : AuthRequest) : Prop :=
  ∀ pair ∈ issued env s req, ∃ user, ((validate pair.accessToken).run (next env s req)).1 = .ok user

/-- A refresh of a live session whose user is not active. -/
def RefreshesInactive (env : AuthEnv) (s : Store) : AuthRequest → Prop
  | .refresh rawRefreshToken _ m =>
    ∃ r, s.identity.sessions.find? (isLive (env.hashToken rawRefreshToken) m.now) = some r ∧
      ∃ u, s.identity.users.find? (fun u => u.id = r.userId) = some u ∧ u.status ≠ .active
  | _ => False

section
variable {env : AuthEnv} {s : Store} {ctx : LoginContext} {m : Moment}

/-- The strategy reads the row of the subject and asks for the status active. -/
theorem validate_accepts_iff (payload : AccessToken) {u : User}
    (hu : s.identity.users.find? (fun u => u.id = payload.sub) = some u) :
    (∃ user, ((validate payload).run s).1 = .ok user) ↔ u.status = .active := by
  have hu' : (Prisma.user.get s).find? (fun u => u.id = payload.sub) = some u := hu
  simp only [validate,Prog.run_bind,TableRef.run_findUnique,hu',Prog.resume_ok]
  by_cases hst : u.status = .active
  · simp [hst]
  · simp [hst]

theorem returnsUsable_of_error {req : AuthRequest} (h : issued env s req = none) : ReturnsUsableTokens env s req := by
  intro pair hpair
  rw [h] at hpair
  cases hpair

/-- A login returns tokens only after it has made the account active. -/
theorem returnsUsable_login (hu : UniqueUsers s) (dto : LoginDto) :
    ReturnsUsableTokens env s (.login dto ctx m) := by
  cases hf : s.identity.users.find? (fun u => u.email = env.toLowerCase dto.email) with
  | none =>
    have hrun : (login env dto ctx m).run s = (.error invalidCredentials,s) := run_login_unknown hf
    exact returnsUsable_of_error (by simp [issued,hrun,Except.toOption])
  | some u =>
    have hfind : s.identity.users.find? (fun q => q.id = u.id) = some u :=
      Table.find?_of_mem hu (List.mem_of_find?_eq_some hf)
    cases loginOutcome (c := ctx) (m := m) hf hfind with
    | refused _ htokens _ _ => exact returnsUsable_of_error htokens
    | counted _ _ _ _ htokens _ _ => exact returnsUsable_of_error htokens
    | locked _ _ _ _ htokens _ _ => exact returnsUsable_of_error htokens
    | entered _ _ _ htokens husers _ =>
      intro pair hpair
      rw [htokens] at hpair
      obtain rfl : _ = pair := Option.some.inj hpair
      have hrow : (next env s (.login dto ctx m)).identity.users.find? (fun q => q.id = u.id) =
          some (resetAttempts u) := by
        rw [husers,find?_update u.id resetAttempts (fun _ => rfl),hfind]
        simp
      exact (validate_accepts_iff _ hrow).mpr rfl

/-- A refresh leaves the users alone, so its tokens are as good as the account was. -/
theorem returnsUsable_refresh (raw : String) :
    ReturnsUsableTokens env s (.refresh raw ctx m) ↔ ¬ RefreshesInactive env s (.refresh raw ctx m) := by
  cases hf : s.identity.sessions.find? (isLive (env.hashToken raw) m.now) with
  | none =>
    have hrun := run_refresh_unknown (c := ctx) hf
    refine iff_of_true (returnsUsable_of_error ?_) (by simp [RefreshesInactive,hf])
    simp [issued,hrun,Except.toOption]
  | some r =>
    cases hru : s.identity.users.find? (fun u => u.id = r.userId) with
    | none =>
      have hrun := run_refresh_orphan (c := ctx) hf hru
      refine iff_of_true (returnsUsable_of_error ?_) (by simp [RefreshesInactive,hf,hru])
      simp [issued,hrun,Except.toOption]
    | some u =>
      obtain ⟨t,hrun,husers⟩ := run_refresh_live (c := ctx) hf hru
      have hid : u.id = r.userId := (Table.find?_key_some hru).2
      have hnext : next env s (.refresh raw ctx m) = t := by simp [next,hrun]
      have hissued : issued env s (.refresh raw ctx m) = some ⟨⟨u.id,u.email⟩,m.rawToken⟩ := by
        simp [issued,hrun,Except.toOption]
      have hrow : t.identity.users.find? (fun q => q.id = u.id) = some u := by
        rw [husers,hid]
        exact hru
      have haccepts := validate_accepts_iff ⟨u.id,u.email⟩ hrow
      simp only [ReturnsUsableTokens,hissued,hnext,Option.mem_def,Option.some.injEq,forall_eq',haccepts,
        RefreshesInactive,hf,exists_eq_left',hru,not_not]

theorem returnsUsable_iff (hu : UniqueUsers s) (req : AuthRequest) :
    ReturnsUsableTokens env s req ↔ ¬ RefreshesInactive env s req := by
  cases req with
  | login dto ctx m => exact iff_of_true (returnsUsable_login hu dto) not_false
  | refresh raw ctx m => exact returnsUsable_refresh raw
  | logout raw m => exact iff_of_true (returnsUsable_of_error rfl) not_false
  | forgotPassword email m => exact iff_of_true (returnsUsable_of_error rfl) not_false
  | resetPassword token newPassword m => exact iff_of_true (returnsUsable_of_error rfl) not_false
  | verifyEmail token m => exact iff_of_true (returnsUsable_of_error rfl) not_false

end

/-- Along any sequence of requests the next request accepts every access token that
is handed out exactly when no refresh is for a user who is not active. -/
theorem usable_tokens_iff_refreshes_active (env : AuthEnv) (s : Store) (requests : List AuthRequest)
    (hu : UniqueUsers s) :
    Along (next env) (ReturnsUsableTokens env) s requests ↔
      Along (next env) (fun s req => ¬ RefreshesInactive env s req) s requests :=
  along_iff (A := fun _ _ => True) (fun _ req hI _ => returnsUsable_iff hI req)
    (fun _ req hI _ _ => uniqueUsers_next env hI req) hu (along_true s requests)

def activeStore : Store where
  identity.users :=
    [{ id := 1, email := "ana@example.com", passwordHash := some "Secret123", isEmailVerified := true }]

def attempt (password rawToken : String) (now : DateTime) (newId : Uuid) : AuthRequest :=
  .login ⟨"ana@example.com",password,none⟩ { deviceFingerprint := "d" }
    { now := now, rawToken := rawToken, newId := newId }

theorem usable_tokens_iff_refreshes_active_login :
    Along (next plainEnv) (ReturnsUsableTokens plainEnv) activeStore [attempt "Secret123" "t5" 1000 5] ↔
      Along (next plainEnv) (fun s req => ¬ RefreshesInactive plainEnv s req) activeStore
        [attempt "Secret123" "t5" 1000 5] :=
  usable_tokens_iff_refreshes_active plainEnv activeStore _ (by unfold UniqueUsers; decide)

/-- A login, then five wrong passwords from somewhere else, then a refresh of the session. -/
def refreshWhileLocked : List AuthRequest :=
  [attempt "Secret123" "t5" 1000 5,attempt "a" "" 2000 0,attempt "b" "" 2001 0,attempt "c" "" 2002 0,
    attempt "d" "" 2003 0,attempt "e" "" 2004 0,
    .refresh "t5" { deviceFingerprint := "d" } { now := 3000, rawToken := "t6", newId := 6 }]

theorem refreshWhileLocked_unusable :
    UniqueUsers activeStore ∧ ¬ Along (next plainEnv) (ReturnsUsableTokens plainEnv) activeStore refreshWhileLocked := by
  refine ⟨by unfold UniqueUsers; decide,?_⟩
  rintro ⟨-,-,-,-,-,-,hrefresh,-⟩
  obtain ⟨user,huser⟩ := hrefresh ⟨⟨1,"ana@example.com"⟩,"t6"⟩ (by decide +kernel)
  have hrejected : (((validate ⟨1,"ana@example.com"⟩).run (refreshWhileLocked.foldl (next plainEnv) activeStore)).1 :
      Except ApiException SignedInUser) = .error sessionNoLongerValid := by decide +kernel
  cases hrejected.symm.trans huser

end PinoyTax.Identity
