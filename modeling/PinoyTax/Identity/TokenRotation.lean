import PinoyTax.Identity.AccountStatus
import PinoyTax.Identity.SessionPhases

/-! # A refresh token is good for one exchange

A refresh finds the session of its token and revokes it two statements later. Two of
them that present one token each get a successor exactly when both find the session
before either revokes it.
-/
namespace PinoyTax.Identity
open PinoyTax Foundation SessionRequest

section
variable (env : AuthEnv) (requests : List SessionRequest)

def presented (i : ℕ) : Option String := (requests[i]?).bind (presents env)

/-- Tokens are random: no two sessions, those to be created included, have one hash. -/
def DifferentTokens (s : Store) : Prop :=
  (s.identity.sessions.map Session.refreshTokenHash ++ requests.filterMap (newHash env)).Nodup

/-- No token is exchanged twice, and no session has two descendants alive at once. -/
structure SingleUse (notes : List SessionNote) (c : SessionConfig) : Prop where
  once : ∀ i j hash, i ≠ j → presented env requests i = some hash → presented env requests j = some hash →
    ¬ (c.Succeeded i ∧ c.Succeeded j)
  line : ∀ now z, ∀ x ∈ c.state.identity.sessions, ∀ y ∈ c.state.identity.sessions,
    x.id ∈ family [z] (links notes) → y.id ∈ family [z] (links notes) → Live now x → Live now y → x = y

/-- When a refresh finds the session of its token, no other refresh that presents the
token is between its own look-up and the revoking of the session. -/
def FindsAlone (_ : List SessionNote) (c : SessionConfig) (i : ℕ) (l : Label) (_ : SessionConfig) : Prop :=
  seenExchange env requests c.state i l ≠ none → ∀ j < c.threads.length, j ≠ i →
    presented env requests j = presented env requests i → ∀ p ∈ c.threads[j]?,
      p.head? ≠ some (.on .user .findUnique) ∧ p.head? ≠ some (.on .session .update)

end

section
variable {env : AuthEnv} {requests : List SessionRequest} {notes : List SessionNote} {φs : List SessionPhase}
  {φ φ' ψ : SessionPhase} {s : Store} {l : Label} {i j : ℕ} {c c' : SessionConfig}

theorem presented_eq (h : SessionInv env requests notes s φs) (hi : φs[i]? = some φ) :
    presented env requests i = φ.request.presents env := by
  rw [presented,h.request_eq hi]
  rfl

/-- Besides what always holds: tokens differ, and no session is exchanged for two. -/
structure RotationInv (env : AuthEnv) (requests : List SessionRequest) (notes : List SessionNote) (s : Store)
    (φs : List SessionPhase) : Prop where
  sessions : SessionInv env requests notes s φs
  tokens : FreshKeys Session.refreshTokenHash (newHash env) s φs
  parents : ((links notes).map Prod.fst).Nodup

namespace RotationInv

theorem exchange_unique (h : RotationInv env requests notes s φs) {p c c' : Uuid} (hi : (i,p,c) ∈ exchanges notes)
    (hj : (j,p,c') ∈ exchanges notes) : i = j := by
  have hparents : ((exchanges notes).map fun e => e.2.1).Nodup := by
    have hp := h.parents
    rwa [links,List.map_map] at hp
  have heq := List.inj_on_of_nodup_map hparents hi hj rfl
  exact (Prod.mk.inj heq).1

/-- A refresh that has gone through holds the session of the token it presented. -/
theorem held_of_succeeded (h : RotationInv env requests notes c.state φs) (hf : FollowsSessions env c φs)
    {hash : String} (hi : presented env requests i = some hash) (hsucc : c.Succeeded i) :
    ∃ x ∈ c.state.identity.sessions, x.refreshTokenHash = hash ∧ ∃ new, (i,x.id,new) ∈ exchanges notes := by
  obtain ⟨q,hq,hpresents⟩ := Option.bind_eq_some_iff.mp hi
  obtain ⟨hrefresh,new,hnew⟩ := newId_of_presents hpresents
  obtain ⟨φ,hφ,rfl⟩ := h.sessions.phase_of_request hq
  have hmem := List.mem_of_getElem? hφ
  rcases (succeeded_iff_stage hf hφ).mp hsucc with hended | ⟨id,hgranted⟩
  · have hnot := h.sessions.enders φ hmem hended
    rw [hrefresh] at hnot
    cases hnot
  · have hholds : φ.stage.holds = some id := by rw [hgranted]; rfl
    obtain ⟨x,hx,rfl,hhash⟩ := h.sessions.held φ hmem id hholds
    rw [hpresents] at hhash
    exact ⟨x,hx,(Option.some.inj hhash).symm,new,(h.sessions.noted i x.id new).mpr ⟨φ,hφ,hholds,hnew⟩⟩

theorem once (h : RotationInv env requests notes c.state φs) (hf : FollowsSessions env c φs) {hash : String}
    (hi : presented env requests i = some hash) (hj : presented env requests j = some hash) (hsi : c.Succeeded i)
    (hsj : c.Succeeded j) : i = j := by
  obtain ⟨x,hx,hxh,new,hnew⟩ := h.held_of_succeeded hf hi hsi
  obtain ⟨y,hy,hyh,new',hnew'⟩ := h.held_of_succeeded hf hj hsj
  obtain rfl : x = y := Table.eq_of_key h.tokens.nodup hx hy (hxh.trans hyh.symm)
  exact h.exchange_unique hnew hnew'

/-- At most one session of a family is not revoked. -/
theorem line (hdistinct : Distinct newId requests) (h : RotationInv env requests notes s φs) {z : Uuid}
    {x y : Session} (hx : x ∈ s.identity.sessions) (hy : y ∈ s.identity.sessions)
    (hxz : x.id ∈ family [z] (links notes)) (hyz : y.id ∈ family [z] (links notes)) (hxr : x.revokedAt = none)
    (hyr : y.revokedAt = none) : x = y := by
  obtain ⟨tip,-,hchild⟩ := exists_tip h.parents z
  have hunborn : ∀ u ∈ s.identity.sessions, u.revokedAt = none → ∀ c, (u.id,c) ∈ links notes →
      c ∉ s.identity.sessions.map Session.id := by
    intro u hu hur c huc hc
    have hsome := h.sessions.revoked_of_born huc hc hu rfl
    rw [hur] at hsome
    cases hsome
  -- what has a session below it that is still to be created stands right above the tip
  have habove : ∀ u ∈ s.identity.sessions, u.revokedAt = none → u.id ∈ family [z] (links notes) → u.id ≠ tip →
      (u.id,tip) ∈ links notes := by
    intro u hu hur huz hne
    obtain ⟨c,hc,huc⟩ := hchild u.id huz hne
    by_cases hct : c = tip
    · rwa [hct] at huc
    · obtain ⟨c',-,hcc'⟩ := hchild c hc hct
      exact absurd (h.sessions.mem_of_link hcc') (hunborn u hu hur c huc)
  by_cases hxt : x.id = tip
  · by_cases hyt : y.id = tip
    · exact Table.eq_of_key h.sessions.ids.nodup hx hy (hxt.trans hyt.symm)
    · have hlink := habove y hy hyr hyz hyt
      rw [← hxt] at hlink
      exact absurd (List.mem_map_of_mem hx) (hunborn y hy hyr x.id hlink)
  · have hlink := habove x hx hxr hxz hxt
    by_cases hyt : y.id = tip
    · rw [← hyt] at hlink
      exact absurd (List.mem_map_of_mem hy) (hunborn x hx hxr y.id hlink)
    · exact Table.eq_of_key h.sessions.ids.nodup hx hy
        (h.sessions.parent_unique hdistinct hlink (habove y hy hyr hyz hyt))

theorem singleUse (hdistinct : Distinct newId requests) (h : RotationInv env requests notes c.state φs)
    (hf : FollowsSessions env c φs) : SingleUse env requests notes c where
  once := fun _ _ _ hij hi hj hsucc => hij (h.once hf hi hj hsucc.1 hsucc.2)
  line := fun _ _ _ hx _ hy hxz hyz hxl hyl => h.line hdistinct hx hy hxz hyz hxl.1 hyl.1

/-- Who found a session that is not revoked is about to revoke it. -/
theorem busy (h : SessionInv env requests notes s φs) {x : Session} (hx : x ∈ s.identity.sessions)
    (hxr : x.revokedAt = none) {new : Uuid} (hj : (j,x.id,new) ∈ exchanges notes) :
    ∃ ψ, φs[j]? = some ψ ∧ ψ.request.presents env = some x.refreshTokenHash ∧ ψ.stage.holds = some x.id ∧
      (ψ.stage.label = some (.on .user .findUnique) ∨ ψ.stage.label = some (.on .session .update)) := by
  obtain ⟨ψ,hψ,hholds,-⟩ := (h.noted j x.id new).mp hj
  have hmem := List.mem_of_getElem? hψ
  obtain ⟨y,hy,hyx,hpresents⟩ := h.held ψ hmem x.id hholds
  obtain rfl : y = x := Table.eq_of_key h.ids.nodup hy hx hyx
  refine ⟨ψ,hψ,hpresents,hholds,?_⟩
  have hturned : ψ.stage.turned ≠ some y.id := by
    intro hturned
    have hsome := h.turned ψ hmem y.id hturned y hx rfl
    rw [hxr] at hsome
    cases hsome
  cases hst : ψ.stage with
  | found => exact .inl rfl
  | checked => exact .inr rfl
  | rotated | granted =>
    rw [hst] at hholds hturned
    exact absurd hholds hturned
  | searching | ending | recovering | resetting | ended | failed =>
    rw [hst] at hholds
    cases hholds

theorem step (hids : Distinct newId requests) (htokens : Distinct (newHash env) requests)
    (h : RotationInv env requests notes c.state φs) (hf : FollowsSessions env c φs) (hi : φs[i]? = some φ)
    (ht : SessionStep env φ c.state l φ' c'.state) (hK : FindsAlone env requests notes c i l c') :
    RotationInv env requests (seenSessions env requests c i l c' ++ notes) c'.state (φs.set i φ') := by
  refine ⟨h.sessions.step hids hi ht _,?_,?_⟩
  · refine h.tokens.step (fun x y hxy => hxy.hash) (fun x hx => hx.hash) ?_ hi ht
    rw [h.sessions.requests_eq]
    exact htokens
  · have hreq := h.sessions.request_eq hi
    rcases ht.exchange_cases hreq with ⟨token,ctx,m,x,rfl,rfl,-,-,⟨hx,hhash,hrevoked⟩,hseen⟩ | ⟨hseen,-⟩
    · rw [links_of_exchange hseen,List.map_cons,List.nodup_cons]
      refine ⟨?_,h.parents⟩
      intro hmem
      obtain ⟨⟨p,new⟩,hlink,rfl⟩ := List.mem_map.mp hmem
      obtain ⟨j,hj⟩ := exchange_of_link hlink
      obtain ⟨ψ,hψ,hpresents,hholds,hlabel⟩ := busy h.sessions hx hrevoked hj
      obtain ⟨p,hp,-⟩ := hf.thread hψ
      have hne : j ≠ i := by
        rintro rfl
        obtain rfl : _ = ψ := by simpa [hi] using hψ
        cases hholds
      have hsame : presented env requests j = presented env requests i := by
        rw [presented_eq h.sessions hψ,presented_eq h.sessions hi,hpresents,hhash]
        rfl
      have hapart := hK (by simp [hseen]) j (List.getElem?_eq_some_iff.mp hp).1 hne hsame p hp
      rw [head?_eq_label hf hψ hp] at hapart
      rcases hlabel with hlabel | hlabel
      · exact hapart.1 hlabel
      · exact hapart.2 hlabel
    · rw [links_of_no_exchange hseen]
      exact h.parents

end RotationInv

/-! ## Two refreshes past their look-ups -/

/-- Two refreshes that present one token have both found a session. -/
def Doubled (env : AuthEnv) (φs : List SessionPhase) : Prop :=
  ∃ (i j : ℕ) (φ ψ : SessionPhase) (hash : String), i ≠ j ∧ φs[i]? = some φ ∧ φs[j]? = some ψ ∧
    φ.request.presents env = some hash ∧ ψ.request.presents env = some hash ∧ φ.stage.holds ≠ none ∧
    ψ.stage.holds ≠ none

/-- What was held before a step is held after it. -/
theorem phase_of_step (h : SessionInv env requests notes c.state φs) (hi : φs[i]? = some φ)
    (ht : SessionStep env φ c.state l φ' c'.state) (hj : φs[j]? = some ψ) (hholds : ψ.stage.holds ≠ none) :
    ∃ ψ', (φs.set i φ')[j]? = some ψ' ∧ ψ'.request = ψ.request ∧ ψ'.stage.holds ≠ none := by
  by_cases hij : i = j
  · subst hij
    obtain rfl : φ = ψ := by simpa [hi] using hj
    obtain ⟨hlen,-⟩ := List.getElem?_eq_some_iff.mp hi
    obtain ⟨id,hid⟩ := Option.ne_none_iff_exists'.mp hholds
    exact ⟨φ',List.getElem?_set_self hlen,ht.request_eq,by simp [h.holds_eq hi ht hid]⟩
  · exact ⟨ψ,by rw [List.getElem?_set_ne hij]; exact hj,rfl,hholds⟩

theorem Doubled.step (h : SessionInv env requests notes c.state φs) (hi : φs[i]? = some φ)
    (ht : SessionStep env φ c.state l φ' c'.state) (hdoubled : Doubled env φs) : Doubled env (φs.set i φ') := by
  obtain ⟨j,k,ψ,χ,hash,hjk,hj,hk,hjh,hkh,hjheld,hkheld⟩ := hdoubled
  obtain ⟨ψ',hj',hreq,hheld⟩ := phase_of_step h hi ht hj hjheld
  obtain ⟨χ',hk',hreq',hheld'⟩ := phase_of_step h hi ht hk hkheld
  exact ⟨j,k,ψ',χ',hash,hjk,hj',hk',by rw [hreq]; exact hjh,by rw [hreq']; exact hkh,hheld,hheld'⟩

/-- Once they have returned, both have got a successor of the session. -/
theorem Doubled.not_completed (h : SessionInv env requests notes c.state φs) (hf : FollowsSessions env c φs)
    (hdoubled : Doubled env φs) (hsingle : SingleUse env requests notes c) : ¬ c.Completed := by
  intro hc
  obtain ⟨i,j,φ,ψ,hash,hij,hi,hj,hih,hjh,hiheld,hjheld⟩ := hdoubled
  have hgranted : ∀ k χ, φs[k]? = some χ → χ.stage.holds ≠ none → c.Succeeded k := by
    intro k χ hk hheld
    obtain ⟨p,hp,-⟩ := hf.thread hk
    have hhead := head?_eq_label hf hk hp
    rw [hc p (List.mem_of_getElem? hp)] at hhead
    refine (succeeded_iff_stage hf hk).mpr (.inr ?_)
    cases hst : χ.stage with
    | granted id => exact ⟨id,rfl⟩
    | found | checked | rotated =>
      rw [hst] at hhead
      cases hhead
    | searching | ending | recovering | resetting | ended | failed =>
      rw [hst] at hheld
      exact absurd rfl hheld
  exact hsingle.once i j hash hij (by rw [presented_eq h hi]; exact hih) (by rw [presented_eq h hj]; exact hjh)
    ⟨hgranted i φ hi hiheld,hgranted j ψ hj hjheld⟩

/-- A look-up that finds a session while another refresh is about to revoke it. -/
theorem doubled_of_not_findsAlone (h : SessionInv env requests notes c.state φs) (hf : FollowsSessions env c φs)
    (hi : φs[i]? = some φ) (ht : SessionStep env φ c.state l φ' c'.state)
    (hK : ¬ FindsAlone env requests notes c i l c') : Doubled env (φs.set i φ') := by
  unfold FindsAlone at hK
  push Not at hK
  obtain ⟨hseen,j,hlen,hne,hsame,p,hp,hlabel⟩ := hK
  have hreq := h.request_eq hi
  rcases ht.exchange_cases hreq with ⟨token,ctx,m,x,rfl,rfl,-,-,hx,-⟩ | ⟨hnone,-⟩
  · have hjlen : j < φs.length := by rw [hf.length_eq]; exact hlen
    have hj : φs[j]? = some φs[j] := List.getElem?_eq_getElem hjlen
    obtain ⟨hilen,-⟩ := List.getElem?_eq_some_iff.mp hi
    rw [presented_eq h hj,presented_eq h hi] at hsame
    refine ⟨i,j,_,φs[j],env.hashToken token,hne.symm,List.getElem?_set_self hilen,?_,rfl,hsame,
      by simp [SessionStage.holds],?_⟩
    · rw [List.getElem?_set_ne hne.symm]
      exact hj
    · have hhead := head?_eq_label hf hj hp
      rw [hhead] at hlabel
      cases hst : (φs[j]).stage with
      | found | checked => simp [SessionStage.holds]
      | searching | rotated | granted | ending | recovering | resetting | ended | failed =>
        simp [hst,SessionStage.label] at hlabel
  · exact absurd hnone hseen

end

/-- For every interleaving of refreshes, with log-outs, revocations and password resets
among them: every token is exchanged once at most and every session has one descendant
alive at most as long as each refresh that finds a session finds it alone. Executions that
complete with the property have met the condition. -/
theorem singleUse_iff_findsAlone (env : AuthEnv) (s : Store) (requests : List SessionRequest) (tr : List (ℕ × Label))
    (d : SessionConfig) (hs : SessionStart s requests) (htokens : DifferentTokens env requests s)
    (h : Steps (SessionRequest.start env s requests) tr d) :
    (Whenever (seenSessions env requests) (FindsAlone env requests) (SessionRequest.start env s requests) tr [] →
      Throughout (seenSessions env requests) (SingleUse env requests) (SessionRequest.start env s requests) tr []) ∧
    (d.Completed →
      Throughout (seenSessions env requests) (SingleUse env requests) (SessionRequest.start env s requests) tr [] →
      Whenever (seenSessions env requests) (FindsAlone env requests) (SessionRequest.start env s requests) tr []) := by
  have hids : Distinct newId requests := distinct_of_nodup (List.Nodup.of_append_right hs.ids)
  have hhashes : Distinct (newHash env) requests := distinct_of_nodup (List.Nodup.of_append_right htokens)
  refine h.throughout_exactly
    (J := fun notes c => ∃ φs, FollowsSessions env c φs ∧ RotationInv env requests notes c.state φs)
    (B := fun notes c => SingleUse env requests notes c ∧ ∃ φs, FollowsSessions env c φs ∧
      SessionInv env requests notes c.state φs ∧ Doubled env φs) ?_ ?_ ?_ ?_ ?_ ?_
  · rintro notes c ⟨φs,hf,hI⟩
    exact hI.singleUse hids hf
  · rintro notes c i l c' ⟨φs,hf,hI⟩ hstep hK
    obtain ⟨φ,φ',hi,ht,hf'⟩ := hf.step hstep
    exact ⟨_,hf',hI.step hids hhashes hf hi ht hK⟩
  · rintro notes c i l c' ⟨φs,hf,hI⟩ hstep hK hP
    obtain ⟨φ,φ',hi,ht,hf'⟩ := hf.step hstep
    exact ⟨hP,_,hf',hI.sessions.step hids hi ht _,doubled_of_not_findsAlone hI.sessions hf hi ht hK⟩
  · rintro notes c i l c' ⟨-,φs,hf,hI,hdoubled⟩ hstep hP
    obtain ⟨φ,φ',hi,ht,hf'⟩ := hf.step hstep
    exact ⟨hP,_,hf',hI.step hids hi ht _,hdoubled.step hI hi ht⟩
  · rintro notes c ⟨hP,φs,hf,hI,hdoubled⟩
    exact hdoubled.not_completed hI hf hP
  · exact ⟨_,followsSessions_start env s requests,sessionInv_start env hs,freshKeys_start htokens,
      by simp [links,exchanges]⟩

/-- A user with one session, which the token `t0` opens. -/
def signedInStore : Store where
  identity.users := [{ id := 1, email := "ana@example.com", passwordHash := some "Secret123", isEmailVerified := true }]
  identity.sessions :=
    [{ id := 10, userId := 1, refreshTokenHash := "t0", deviceFingerprint := "d", lastActiveAt := 0,
       expiresAt := 1000000 }]

def refreshWith (token newToken : String) (now : DateTime) (newId : Uuid) : SessionRequest :=
  .refresh token { deviceFingerprint := "d" } { now := now, rawToken := newToken, newId := newId }

/-- The token of the session is presented twice. -/
def replay : List SessionRequest := [refreshWith "t0" "t1" 100 11,refreshWith "t0" "t2" 101 12]

theorem sessionStart_replay : SessionStart signedInStore replay := ⟨by decide,by decide⟩

theorem differentTokens_replay : DifferentTokens plainEnv replay signedInStore := by
  unfold DifferentTokens
  decide

/-- One refresh after the other: the second is refused. -/
theorem singleUse_iff_findsAlone_sequential :
    ∃ tr d, Steps (SessionRequest.start plainEnv signedInStore replay) tr d ∧ d.Succeeded 0 ∧ ¬ d.Succeeded 1 ∧
      (Throughout (seenSessions plainEnv replay) (SingleUse plainEnv replay)
          (SessionRequest.start plainEnv signedInStore replay) tr [] ↔
        Whenever (seenSessions plainEnv replay) (FindsAlone plainEnv replay)
          (SessionRequest.start plainEnv signedInStore replay) tr []) := by
  obtain ⟨tr,d,h,hd,hfirst,hsecond⟩ : ∃ tr d, Steps (SessionRequest.start plainEnv signedInStore replay) tr d ∧
      d.Completed ∧ d.Succeeded 0 ∧ ¬ d.Succeeded 1 :=
    Steps.exists_of_play [0,0,0,0,1] (by decide +kernel)
  obtain ⟨hsingle,halone⟩ :=
    singleUse_iff_findsAlone plainEnv signedInStore replay tr d sessionStart_replay differentTokens_replay h
  exact ⟨tr,d,h,hfirst,hsecond,halone hd,hsingle⟩

/-- Both refreshes find the session before either revokes it: two token pairs for one
token, and two sessions alive. -/
theorem replay_not_singleUse :
    SessionStart signedInStore replay ∧ DifferentTokens plainEnv replay signedInStore ∧
      ∃ tr d, Steps (SessionRequest.start plainEnv signedInStore replay) tr d ∧ d.Completed ∧
        (d.state.identity.sessions.filter (fun x => x.revokedAt.isNone && decide (200 < x.expiresAt))).length = 2 ∧
        ¬ Throughout (seenSessions plainEnv replay) (SingleUse plainEnv replay)
          (SessionRequest.start plainEnv signedInStore replay) tr [] := by
  refine ⟨sessionStart_replay,differentTokens_replay,?_⟩
  obtain ⟨tr,d,h,hd,hfirst,hsecond,hlive⟩ : ∃ tr d, Steps (SessionRequest.start plainEnv signedInStore replay) tr d ∧
      d.Completed ∧ d.Succeeded 0 ∧ d.Succeeded 1 ∧
        (d.state.identity.sessions.filter (fun x => x.revokedAt.isNone && decide (200 < x.expiresAt))).length = 2 :=
    Steps.exists_of_play [0,1,0,0,0,1,1,1] (by decide +kernel)
  refine ⟨tr,d,h,hd,hlive,fun hsingle => ?_⟩
  exact (hsingle tr [] d (by simp) h).once 0 1 "t0" (by decide) rfl rfl ⟨hfirst,hsecond⟩

end PinoyTax.Identity
