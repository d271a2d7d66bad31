import PinoyTax.Identity.TokenRotation

/-! # Ending sessions while others are exchanged

A log-out, the revocation of a session and a password reset revoke the rows they find in
one statement. A refresh that has found its session before still creates a successor.
-/
namespace PinoyTax.Identity
open PinoyTax Foundation SessionRequest

/-- No refresh of a session of the family is under way. -/
def Drained (notes : List SessionNote) (c : SessionConfig) (ids : List Uuid) : Prop :=
  ∀ e ∈ exchanges notes, e.2.1 ∈ family ids (links notes) → ∀ p ∈ c.threads[e.1]?, p.head? = none

/-- Of the sessions that a request was meant to end, and of what descends from them, none
is alive whenever the refreshes that hold one of them have returned. -/
def StaysEnded (notes : List SessionNote) (c : SessionConfig) : Prop :=
  ∀ ids ∈ endings notes, Drained notes c ids →
    ∀ now, ∀ x ∈ c.state.identity.sessions, x.id ∈ family ids (links notes) → ¬ Live now x

/-- When a request ends sessions, no refresh that holds one of them or of their descendants
is under way, and it is meant to end those descendants too that are not revoked. -/
def EndsAlone (env : AuthEnv) (requests : List SessionRequest) (notes : List SessionNote) (c : SessionConfig) (i : ℕ)
    (_ : Label) (c' : SessionConfig) : Prop :=
  ∀ ids ∈ seenEnding env requests c i c', Drained notes c ids ∧
    ∀ x ∈ c.state.identity.sessions, x.id ∈ family ids (links notes) → x.revokedAt = none → x.id ∈ ids

instance (notes : List SessionNote) (c : SessionConfig) (ids : List Uuid) : Decidable (Drained notes c ids) :=
  inferInstanceAs (Decidable (∀ e ∈ exchanges notes, e.2.1 ∈ family ids (links notes) →
    ∀ p ∈ c.threads[e.1]?, p.head? = none))

section
variable {env : AuthEnv} {requests : List SessionRequest} {notes : List SessionNote} {φs : List SessionPhase}
  {φ φ' ψ : SessionPhase} {s s' : Store} {l : Label} {i j : ℕ} {c c' : SessionConfig} {ids : List Uuid}

/-- Whose password a token resets stays the same. -/
theorem resetOwner_congr (hframe : SessionFrame s s') (token : String) :
    resetOwner env s' token = resetOwner env s token := by
  have hpairs : ∀ t : Store, resetOwner env t token =
      ((t.identity.passwordResetTokens.map fun r => (r.tokenHash,r.userId)).find?
        (fun r => r.1 = env.hashToken token)).map Prod.snd := by
    intro t
    rw [resetOwner,List.find?_map,Option.map_map]
    rfl
  rw [hpairs,hpairs,hframe.resetTokens]

/-- Besides what always holds: reset tokens differ, a reset is about the owner of its
token, and the sessions that were to be ended are in the table. -/
structure ClosingInv (env : AuthEnv) (requests : List SessionRequest) (notes : List SessionNote) (s : Store)
    (φs : List SessionPhase) : Prop where
  sessions : SessionInv env requests notes s φs
  resetTokens : (s.identity.passwordResetTokens.map MailedToken.tokenHash).Nodup
  owners : ∀ φ ∈ φs, ∀ userId, φ.stage = .resetting userId →
    ∃ token newPassword m, φ.request = .resetPassword token newPassword m ∧ resetOwner env s token = some userId
  known : ∀ ids ∈ endings notes, ids ⊆ s.identity.sessions.map Session.id

/-- The statement that ends sessions revokes those of its request that are not revoked. -/
theorem ending_cases (h : ClosingInv env requests notes c.state φs) (hf' : FollowsSessions env c' (φs.set i φ'))
    (hi : φs[i]? = some φ) (ht : SessionStep env φ c.state l φ' c'.state)
    (hseen : seenEnding env requests c i c' = some ids) :
    ids = φ.request.meant env c.state ∧ φ.stage.holds = none ∧ φ'.stage.holds = none ∧
      ∃ now, c'.state.identity.sessions =
        Table.updateMany (fun x => φ.request.ends env c.state x && x.revokedAt.isNone) (revoke now)
          c.state.identity.sessions := by
  have hφ := List.mem_of_getElem? hi
  obtain ⟨hlen,-⟩ := List.getElem?_eq_some_iff.mp hi
  simp only [seenEnding,h.sessions.request_eq hi] at hseen
  split at hseen
  · rename_i hdone
    obtain ⟨hrefresh,hsucc⟩ := hdone
    obtain rfl := Option.some.inj hseen
    have hstage := (succeeded_iff_stage hf' (List.getElem?_set_self hlen)).mp hsucc
    refine ⟨rfl,?_⟩
    generalize hs : c.state = s at *
    generalize hs' : c'.state = s' at *
    cases ht with
    | found | missed | checked | orphaned | rotated | lost | recovered | unrecovered | undone => simp at hstage
    | granted hframe hrows hid => simp [newId_eq_none hrefresh] at hid
    | @ended q now s s' hq hframe hrows => exact ⟨rfl,rfl,now,hrows⟩
    | @reset token newPassword m userId s s' hframe hrows =>
      obtain ⟨token',newPassword',m',heq,howner⟩ := h.owners _ hφ userId rfl
      cases heq
      refine ⟨rfl,rfl,m.now,?_⟩
      rw [hrows]
      congr 1
      funext x
      simp [SessionRequest.ends,howner,eq_comm]
  · cases hseen

/-- The sessions stay in the table. -/
theorem ids_subset (ht : SessionStep env φ s l φ' s') :
    s.identity.sessions.map Session.id ⊆ s'.identity.sessions.map Session.id := by
  intro id hid
  obtain ⟨x,hx,rfl⟩ := List.mem_map.mp hid
  obtain ⟨y,hy,hxy⟩ := ht.sessions_mem hx
  exact List.mem_map.mpr ⟨y,hy,hxy.id⟩

theorem meant_subset (env : AuthEnv) (s : Store) (q : SessionRequest) :
    q.meant env s ⊆ s.identity.sessions.map Session.id := by
  intro id hid
  obtain ⟨x,hx,rfl⟩ := List.mem_map.mp hid
  exact List.mem_map_of_mem (List.mem_filter.mp hx).1

theorem ClosingInv.owner_of_step (h : ClosingInv env requests notes s φs) (hi : φs[i]? = some φ)
    (ht : SessionStep env φ s l φ' s') {userId : Uuid} (hst : φ'.stage = .resetting userId) :
    ∃ token newPassword m, φ'.request = .resetPassword token newPassword m ∧
      resetOwner env s token = some userId := by
  cases ht with
  | @recovered token newPassword m r s hr =>
    obtain rfl : r.userId = userId := by simpa using hst
    refine ⟨token,newPassword,m,rfl,?_⟩
    have husable := List.find?_some hr
    obtain ⟨hhash,-⟩ := isUsable_eq_true.mp husable
    have hrow := Table.find?_of_mem h.resetTokens (List.mem_of_find?_eq_some hr)
    rw [hhash] at hrow
    rw [resetOwner,hrow]
    rfl
  | found | missed | checked | orphaned | rotated | lost | granted | ended | unrecovered | reset | undone => cases hst

theorem ClosingInv.step (hids : Distinct newId requests) (h : ClosingInv env requests notes c.state φs)
    (hf' : FollowsSessions env c' (φs.set i φ')) (hi : φs[i]? = some φ)
    (ht : SessionStep env φ c.state l φ' c'.state) :
    ClosingInv env requests (seenSessions env requests c i l c' ++ notes) c'.state (φs.set i φ') := by
  refine ⟨h.sessions.step hids hi ht _,?_,?_,?_⟩
  · have hhashes : ∀ t : Store, t.identity.passwordResetTokens.map MailedToken.tokenHash =
        (t.identity.passwordResetTokens.map fun r => (r.tokenHash,r.userId)).map Prod.fst := by
      intro t
      rw [List.map_map]
      rfl
    rw [hhashes,ht.frame.resetTokens,← hhashes]
    exact h.resetTokens
  · intro ψ hψ userId hst
    have howner : ∃ token newPassword m, ψ.request = .resetPassword token newPassword m ∧
        resetOwner env c.state token = some userId := by
      rcases List.mem_or_eq_of_mem_set hψ with hψ | rfl
      · exact h.owners ψ hψ userId hst
      · exact h.owner_of_step hi ht hst
    obtain ⟨token,newPassword,m,hreq,howner⟩ := howner
    exact ⟨token,newPassword,m,hreq,by rw [resetOwner_congr ht.frame]; exact howner⟩
  · intro ids hmem
    rcases mem_endings_step.mp hmem with hnew | hold
    · obtain ⟨rfl,-⟩ := ending_cases h hf' hi ht hnew
      exact List.Subset.trans (meant_subset env c.state φ.request) (ids_subset ht)
    · exact List.Subset.trans (h.known ids hold) (ids_subset ht)

/-- In the families of ended sessions all is revoked, and nobody is about to add to them. -/
structure RevocationInv (env : AuthEnv) (requests : List SessionRequest) (notes : List SessionNote) (s : Store)
    (φs : List SessionPhase) : Prop where
  closing : ClosingInv env requests notes s φs
  ended : ∀ ids ∈ endings notes, ∀ x ∈ s.identity.sessions, x.id ∈ family ids (links notes) → x.revokedAt.isSome
  drained : ∀ ids ∈ endings notes, ∀ φ ∈ φs, ∀ id, φ.stage.holds = some id → id ∈ family ids (links notes) →
    φ.stage.label = none

/-- What a new session descends from is what its refresh holds. -/
theorem family_of_created (hids : Distinct newId requests) (h : ClosingInv env requests notes s φs)
    (hi : φs[i]? = some φ) (hids' : ids ∈ endings notes) {x : Session} (hx : Created env φ φ' x)
    (hfam : x.id ∈ family ids (links notes)) : ∃ id, φ.stage.holds = some id ∧ id ∈ family ids (links notes) := by
  obtain ⟨id,hbefore,-⟩ := hx.before
  have hholds : φ.stage.holds = some id := by rw [hbefore]; rfl
  refine ⟨id,hholds,?_⟩
  rcases mem_family_cases hfam with hroot | ⟨p,hp,hlink⟩
  · exact absurd (h.known ids hids' hroot) (h.sessions.fresh_id hi (by rw [hbefore]; rfl) hx.id)
  · have hnoted := (h.sessions.noted i id x.id).mpr ⟨φ,hi,hholds,hx.id⟩
    have hown : (id,x.id) ∈ links notes := List.mem_map.mpr ⟨_,hnoted,rfl⟩
    rwa [h.sessions.parent_unique hids hown hlink]

namespace RevocationInv

/-- No exchange is noted of a session in an ended family. -/
theorem family_of_step (h : RevocationInv env requests notes c.state φs) (hi : φs[i]? = some φ)
    (ht : SessionStep env φ c.state l φ' c'.state) (hids : ids ∈ endings notes) {id : Uuid}
    (hid : id ∈ family ids (links (seenSessions env requests c i l c' ++ notes))) : id ∈ family ids (links notes) := by
  have hreq := h.closing.sessions.request_eq hi
  rcases ht.exchange_cases hreq with ⟨token,ctx,m,x,-,-,-,-,⟨hx,-,hrevoked⟩,hseen⟩ | ⟨hseen,-⟩
  · rw [links_of_exchange hseen] at hid
    rcases mem_family_cons.mp hid with hid | ⟨hfam,-⟩
    · exact hid
    · have hsome := h.ended ids hids x hx hfam
      rw [hrevoked] at hsome
      cases hsome
  · rwa [links_of_no_exchange hseen] at hid

/-- What has been ended stays ended. -/
theorem ended_of_step (hdistinct : Distinct newId requests) (h : RevocationInv env requests notes c.state φs)
    (hi : φs[i]? = some φ) (ht : SessionStep env φ c.state l φ' c'.state) (hids : ids ∈ endings notes) {y : Session}
    (hy : y ∈ c'.state.identity.sessions) (hfam : y.id ∈ family ids (links notes)) : y.revokedAt.isSome := by
  rcases ht.mem_sessions hy with ⟨x,hx,hxy⟩ | hnew
  · exact hxy.isSome (h.ended ids hids x hx (by rw [← hxy.id]; exact hfam))
  · obtain ⟨id,hholds,hid⟩ := family_of_created hdistinct h.closing hi hids hnew hfam
    have hlabel := h.drained ids hids φ (List.mem_of_getElem? hi) id hholds hid
    rw [ht.label_eq] at hlabel
    cases hlabel

theorem drained_of_step (h : RevocationInv env requests notes c.state φs) (hi : φs[i]? = some φ)
    (ht : SessionStep env φ c.state l φ' c'.state) (hids : ids ∈ endings notes) {ψ : SessionPhase}
    (hψ : ψ ∈ φs.set i φ') {id : Uuid} (hholds : ψ.stage.holds = some id)
    (hid : id ∈ family ids (links notes)) : ψ.stage.label = none := by
  have hφ := List.mem_of_getElem? hi
  rcases List.mem_or_eq_of_mem_set hψ with hψ | rfl
  · exact h.drained ids hids ψ hψ id hholds hid
  · exfalso
    have hheld : φ.stage.holds = some id → False := by
      intro hheld
      have hlabel := h.drained ids hids φ hφ id hheld hid
      rw [ht.label_eq] at hlabel
      cases hlabel
    have hreq := h.closing.sessions.request_eq hi
    rcases ht.exchange_cases hreq with ⟨token,ctx,m,x,rfl,rfl,-,-,⟨hx,-,hrevoked⟩,-⟩ | ⟨-,hsame | hnone⟩
    · obtain rfl : x.id = id := Option.some.inj hholds
      have hsome := h.ended ids hids x hx hid
      rw [hrevoked] at hsome
      cases hsome
    · exact hheld (hsame.symm.trans hholds)
    · rw [hnone] at hholds
      cases hholds

/-- What a request ends while nobody is about to add to it is ended. -/
theorem ended_of_ending (h : ClosingInv env requests notes c.state φs)
    (hf' : FollowsSessions env c' (φs.set i φ')) (hi : φs[i]? = some φ)
    (ht : SessionStep env φ c.state l φ' c'.state) (hK : EndsAlone env requests notes c i l c')
    (hseen : seenEnding env requests c i c' = some ids) {y : Session} (hy : y ∈ c'.state.identity.sessions)
    (hfam : y.id ∈ family ids (links notes)) : y.revokedAt.isSome := by
  obtain ⟨rfl,-,-,now,hrows⟩ := ending_cases h hf' hi ht hseen
  rw [hrows] at hy
  rcases Table.mem_updateMany_cases hy with ⟨hy,hnot⟩ | ⟨x,-,-,rfl⟩
  · cases hr : y.revokedAt with
    | some t => rfl
    | none =>
      obtain ⟨z,hz,hzy⟩ := List.mem_map.mp ((hK _ hseen).2 y hy hfam hr)
      obtain ⟨hz,hends⟩ := List.mem_filter.mp hz
      obtain rfl : z = y := Table.eq_of_key h.sessions.ids.nodup hz hy hzy
      simp [hends,hr] at hnot
  · rfl

theorem drained_of_ending (h : ClosingInv env requests notes c.state φs) (hf : FollowsSessions env c φs)
    (hf' : FollowsSessions env c' (φs.set i φ')) (hi : φs[i]? = some φ)
    (ht : SessionStep env φ c.state l φ' c'.state) (hK : EndsAlone env requests notes c i l c')
    (hseen : seenEnding env requests c i c' = some ids) {ψ : SessionPhase} (hψ : ψ ∈ φs.set i φ') {id : Uuid}
    (hholds : ψ.stage.holds = some id) (hid : id ∈ family ids (links notes)) : ψ.stage.label = none := by
  obtain ⟨-,-,hafter,-⟩ := ending_cases h hf' hi ht hseen
  rcases List.mem_or_eq_of_mem_set hψ with hψ | rfl
  · obtain ⟨j,hj⟩ := List.mem_iff_getElem?.mp hψ
    obtain ⟨x,-,-,hpresents⟩ := h.sessions.held ψ hψ id hholds
    obtain ⟨-,new,hnew⟩ := newId_of_presents hpresents
    obtain ⟨p,hp,-⟩ := hf.thread hj
    have hhead := (hK ids hseen).1 _ ((h.sessions.noted j id new).mpr ⟨ψ,hj,hholds,hnew⟩) hid p hp
    rw [← head?_eq_label hf hj hp]
    exact hhead
  · rw [hafter] at hholds
    cases hholds

theorem step (hdistinct : Distinct newId requests) (h : RevocationInv env requests notes c.state φs)
    (hf : FollowsSessions env c φs) (hf' : FollowsSessions env c' (φs.set i φ')) (hi : φs[i]? = some φ)
    (ht : SessionStep env φ c.state l φ' c'.state) (hK : EndsAlone env requests notes c i l c') :
    RevocationInv env requests (seenSessions env requests c i l c' ++ notes) c'.state (φs.set i φ') := by
  have hlinks : ∀ ids, seenEnding env requests c i c' = some ids →
      links (seenSessions env requests c i l c' ++ notes) = links notes := by
    intro ids hseen
    obtain ⟨-,-,hafter,-⟩ := ending_cases h.closing hf' hi ht hseen
    rcases ht.exchange_cases (h.closing.sessions.request_eq hi) with ⟨token,ctx,m,x,-,rfl,-⟩ | ⟨hnone,-⟩
    · cases hafter
    · exact links_of_no_exchange hnone
  refine ⟨h.closing.step hdistinct hf' hi ht,?_,?_⟩
  · intro ids hids y hy hfam
    rcases mem_endings_step.mp hids with hnew | hold
    · rw [hlinks ids hnew] at hfam
      exact ended_of_ending h.closing hf' hi ht hK hnew hy hfam
    · exact h.ended_of_step hdistinct hi ht hold hy (h.family_of_step hi ht hold hfam)
  · intro ids hids ψ hψ id hholds hid
    rcases mem_endings_step.mp hids with hnew | hold
    · rw [hlinks ids hnew] at hid
      exact drained_of_ending h.closing hf hf' hi ht hK hnew hψ hholds hid
    · exact h.drained_of_step hi ht hold hψ hholds (h.family_of_step hi ht hold hid)

theorem staysEnded (h : RevocationInv env requests notes c.state φs) : StaysEnded notes c := by
  intro ids hids _ now x hx hfam hlive
  have hsome := h.ended ids hids x hx hfam
  rw [hlive.1] at hsome
  cases hsome

end RevocationInv

/-! ## A refresh past its look-up -/

/-- A refresh under way holds a session that a request has ended, or one that descends
from it. -/
def Outrun (notes : List SessionNote) (φs : List SessionPhase) : Prop :=
  ∃ ids ∈ endings notes, ∃ (j : ℕ) (ψ : SessionPhase) (id : Uuid), φs[j]? = some ψ ∧ ψ.stage.holds = some id ∧
    id ∈ family ids (links notes) ∧ ψ.stage.label ≠ none

/-- As long as the property holds, a session that is not revoked is excused by a refresh. -/
theorem outrun_of_unrevoked (h : SessionInv env requests notes c.state φs) (hf : FollowsSessions env c φs)
    (hP : StaysEnded notes c) (hids : ids ∈ endings notes) {x : Session} (hx : x ∈ c.state.identity.sessions)
    (hfam : x.id ∈ family ids (links notes)) (hxr : x.revokedAt = none) : Outrun notes φs := by
  by_contra hnot
  have hdrained : Drained notes c ids := by
    rintro ⟨j,id,new⟩ hmem hid p hp
    obtain ⟨ψ,hj,hholds,-⟩ := (h.noted j id new).mp hmem
    rw [head?_eq_label hf hj hp]
    by_contra hlabel
    exact hnot ⟨ids,hids,j,ψ,id,hj,hholds,hid,hlabel⟩
  obtain ⟨now,hlive⟩ := exists_live_iff.mpr hxr
  exact hP ids hids hdrained now x hx hfam hlive

theorem mem_family_step {id : Uuid} (h : SessionInv env requests notes c.state φs) (hi : φs[i]? = some φ)
    (ht : SessionStep env φ c.state l φ' c'.state) (hid : id ∈ family ids (links notes)) :
    id ∈ family ids (links (seenSessions env requests c i l c' ++ notes)) := by
  rcases ht.exchange_cases (h.request_eq hi) with ⟨token,ctx,m,x,-,-,-,-,-,hseen⟩ | ⟨hseen,-⟩
  · rw [links_of_exchange hseen]
    exact mem_family_cons.mpr (.inl hid)
  · rwa [links_of_no_exchange hseen]

theorem SessionStep.created_of_returned (ht : SessionStep env φ s l φ' s') {id : Uuid}
    (hbefore : φ.stage.holds = some id) (hafter : φ'.stage.holds = some id) (hlabel : φ'.stage.label = none) :
    ∃ x ∈ s'.identity.sessions, Created env φ φ' x := by
  cases ht with
  | @granted q id userId x s s' hframe hrows hid hhash huser hnew =>
    subst huser
    exact ⟨x,by rw [hrows]; exact List.mem_append_right _ (List.mem_singleton_self x),⟨⟨id,rfl,rfl⟩,hid,hhash,hnew⟩⟩
  | found | checked | rotated => cases hlabel
  | missed | orphaned | lost | ended | recovered | unrecovered | reset | undone => cases hafter

theorem Outrun.step (hdistinct : Distinct newId requests) (h : ClosingInv env requests notes c.state φs)
    (hf' : FollowsSessions env c' (φs.set i φ')) (hi : φs[i]? = some φ)
    (ht : SessionStep env φ c.state l φ' c'.state)
    (hP : StaysEnded (seenSessions env requests c i l c' ++ notes) c') (hout : Outrun notes φs) :
    Outrun (seenSessions env requests c i l c' ++ notes) (φs.set i φ') := by
  obtain ⟨ids,hids,j,ψ,id,hj,hholds,hid,hlabel⟩ := hout
  have hids' : ids ∈ endings (seenSessions env requests c i l c' ++ notes) := mem_endings_step.mpr (.inr hids)
  have hid' := mem_family_step h.sessions hi ht hid
  have hinv' : SessionInv env requests (seenSessions env requests c i l c' ++ notes) c'.state (φs.set i φ') :=
    h.sessions.step hdistinct hi ht _
  by_cases hij : i = j
  · subst hij
    obtain rfl : φ = ψ := by simpa [hi] using hj
    obtain ⟨hlen,-⟩ := List.getElem?_eq_some_iff.mp hi
    have hholds' := h.sessions.holds_eq hi ht hholds
    by_cases hlabel' : φ'.stage.label = none
    · -- the successor has been created, and nothing has revoked it yet
      obtain ⟨x,hx,hnew⟩ := ht.created_of_returned hholds hholds' hlabel'
      have hnoted := (hinv'.noted i id x.id).mpr
        ⟨φ',List.getElem?_set_self hlen,hholds',by rw [ht.request_eq]; exact hnew.id⟩
      have hfam := hinv'.grown.child_mem hid' (List.mem_map.mpr ⟨_,hnoted,rfl⟩)
      exact outrun_of_unrevoked hinv' hf' hP hids' hx hfam hnew.revokedAt
    · exact ⟨ids,hids',i,φ',id,List.getElem?_set_self hlen,hholds',hid',hlabel'⟩
  · exact ⟨ids,hids',j,ψ,id,by rw [List.getElem?_set_ne hij]; exact hj,hholds,hid',hlabel⟩

/-- Ending sessions past a refresh that holds one, or past a descendant. -/
theorem outrun_of_not_endsAlone (hdistinct : Distinct newId requests) (h : ClosingInv env requests notes c.state φs)
    (hf : FollowsSessions env c φs) (hf' : FollowsSessions env c' (φs.set i φ')) (hi : φs[i]? = some φ)
    (ht : SessionStep env φ c.state l φ' c'.state)
    (hP : StaysEnded (seenSessions env requests c i l c' ++ notes) c') (hK : ¬ EndsAlone env requests notes c i l c') :
    Outrun (seenSessions env requests c i l c' ++ notes) (φs.set i φ') := by
  obtain ⟨ids,hseen,hK⟩ : ∃ ids, seenEnding env requests c i c' = some ids ∧ ¬ (Drained notes c ids ∧
      ∀ x ∈ c.state.identity.sessions, x.id ∈ family ids (links notes) → x.revokedAt = none → x.id ∈ ids) := by
    by_contra hnone
    exact hK fun ids hseen => by_contra fun hnot => hnone ⟨ids,hseen,hnot⟩
  obtain ⟨rfl,hbefore,-,now,hrows⟩ := ending_cases h hf' hi ht hseen
  have hids' : φ.request.meant env c.state ∈ endings (seenSessions env requests c i l c' ++ notes) :=
    mem_endings_step.mpr (.inl hseen)
  rcases not_and_or.mp hK with hdrained | hmeant
  · unfold Drained at hdrained
    push Not at hdrained
    obtain ⟨⟨j,id,new⟩,hmem,hid,p,hp,hhead⟩ := hdrained
    obtain ⟨ψ,hj,hholds,-⟩ := (h.sessions.noted j id new).mp hmem
    have hij : i ≠ j := by
      rintro rfl
      obtain rfl : φ = ψ := by simpa [hi] using hj
      rw [hbefore] at hholds
      cases hholds
    refine ⟨_,hids',j,ψ,id,by rw [List.getElem?_set_ne hij]; exact hj,hholds,mem_family_step h.sessions hi ht hid,?_⟩
    rw [← head?_eq_label hf hj hp]
    exact hhead
  · push Not at hmeant
    obtain ⟨x,hx,hfam,hxr,hnot⟩ := hmeant
    have hkept : x ∈ c'.state.identity.sessions := by
      rw [hrows]
      apply Table.mem_updateMany_of_mem hx
      cases hends : φ.request.ends env c.state x with
      | false => rfl
      | true => exact absurd (List.mem_map_of_mem (List.mem_filter.mpr ⟨hx,hends⟩)) hnot
    exact outrun_of_unrevoked (h.sessions.step hdistinct hi ht _) hf' hP hids' hkept
      (mem_family_step h.sessions hi ht hfam) hxr

theorem Outrun.not_completed (hf : FollowsSessions env c φs) (hout : Outrun notes φs) : ¬ c.Completed := by
  intro hc
  obtain ⟨ids,-,j,ψ,id,hj,-,-,hlabel⟩ := hout
  obtain ⟨p,hp,-⟩ := hf.thread hj
  rw [← head?_eq_label hf hj hp] at hlabel
  exact hlabel (hc p (List.mem_of_getElem? hp))

end

theorem closingInv_start (env : AuthEnv) {s : Store} {requests : List SessionRequest} (hs : SessionStart s requests)
    (hreset : (s.identity.passwordResetTokens.map MailedToken.tokenHash).Nodup) :
    ClosingInv env requests [] s (requests.map phase) := by
  refine ⟨sessionInv_start env hs,hreset,?_,by simp [endings]⟩
  intro φ hφ userId hst
  obtain ⟨q,-,rfl⟩ := List.mem_map.mp hφ
  cases q <;> cases hst

/-- For every interleaving of refreshes with log-outs, revocations and password resets:
nothing that a request has ended is alive, nor what descends from it, once the refreshes
of it have returned, as long as each request ends its sessions while no refresh holds
one of them or of their descendants and it ends those descendants too. Executions that
complete with the property have met the condition. -/
theorem staysEnded_iff_endsAlone (env : AuthEnv) (s : Store) (requests : List SessionRequest) (tr : List (ℕ × Label))
    (d : SessionConfig) (hs : SessionStart s requests)
    (hreset : (s.identity.passwordResetTokens.map MailedToken.tokenHash).Nodup)
    (h : Steps (SessionRequest.start env s requests) tr d) :
    (Whenever (seenSessions env requests) (EndsAlone env requests) (SessionRequest.start env s requests) tr [] →
      Throughout (seenSessions env requests) StaysEnded (SessionRequest.start env s requests) tr []) ∧
    (d.Completed →
      Throughout (seenSessions env requests) StaysEnded (SessionRequest.start env s requests) tr [] →
      Whenever (seenSessions env requests) (EndsAlone env requests) (SessionRequest.start env s requests) tr []) := by
  have hids : Distinct newId requests := distinct_of_nodup (List.Nodup.of_append_right hs.ids)
  refine h.throughout_exactly
    (J := fun notes c => ∃ φs, FollowsSessions env c φs ∧ RevocationInv env requests notes c.state φs)
    (B := fun notes c => StaysEnded notes c ∧ ∃ φs, FollowsSessions env c φs ∧
      ClosingInv env requests notes c.state φs ∧ Outrun notes φs) ?_ ?_ ?_ ?_ ?_ ?_
  · rintro notes c ⟨φs,-,hI⟩
    exact hI.staysEnded
  · rintro notes c i l c' ⟨φs,hf,hI⟩ hstep hK
    obtain ⟨φ,φ',hi,ht,hf'⟩ := hf.step hstep
    exact ⟨_,hf',hI.step hids hf hf' hi ht hK⟩
  · rintro notes c i l c' ⟨φs,hf,hI⟩ hstep hK hP
    obtain ⟨φ,φ',hi,ht,hf'⟩ := hf.step hstep
    exact ⟨hP,_,hf',hI.closing.step hids hf' hi ht,outrun_of_not_endsAlone hids hI.closing hf hf' hi ht hP hK⟩
  · rintro notes c i l c' ⟨-,φs,hf,hI,hout⟩ hstep hP
    obtain ⟨φ,φ',hi,ht,hf'⟩ := hf.step hstep
    exact ⟨hP,_,hf',hI.step hids hf' hi ht,hout.step hids hI hf' hi ht hP⟩
  · rintro notes c ⟨-,φs,hf,-,hout⟩
    exact hout.not_completed hf
  · refine ⟨_,followsSessions_start env s requests,closingInv_start env hs hreset,?_,?_⟩
    · intro ids hids
      cases hids
    · intro ids hids
      cases hids

/-- A user with one session, who has been mailed a reset token. -/
def recoveringStore : Store where
  identity.users := [{ id := 1, email := "ana@example.com", passwordHash := some "Secret123", isEmailVerified := true }]
  identity.sessions :=
    [{ id := 10, userId := 1, refreshTokenHash := "t0", deviceFingerprint := "d", lastActiveAt := 0,
       expiresAt := 1000000 }]
  identity.passwordResetTokens := [{ id := 20, userId := 1, tokenHash := "mailed", expiresAt := 3600000 }]

/-- The session is exchanged, by whoever holds its token, and the user resets the password. -/
def recovery : List SessionRequest :=
  [refreshWith "t0" "t1" 100 11,.resetPassword "mailed" "Chosen1!" { now := 200 }]

def recoveryNotes (tr : List (ℕ × Label)) : List SessionNote :=
  observe (seenSessions plainEnv recovery) (SessionRequest.start plainEnv recoveringStore recovery) tr []

theorem sessionStart_recovery : SessionStart recoveringStore recovery := ⟨by decide,by decide⟩

/-- The exchange first, then the reset: no session is left. -/
theorem staysEnded_iff_endsAlone_sequential :
    ∃ tr d, Steps (SessionRequest.start plainEnv recoveringStore recovery) tr d ∧ d.Succeeded 0 ∧ d.Succeeded 1 ∧
      (∀ x ∈ d.state.identity.sessions, x.revokedAt.isSome) ∧
      (Throughout (seenSessions plainEnv recovery) StaysEnded (SessionRequest.start plainEnv recoveringStore recovery)
          tr [] ↔
        Whenever (seenSessions plainEnv recovery) (EndsAlone plainEnv recovery)
          (SessionRequest.start plainEnv recoveringStore recovery) tr []) := by
  obtain ⟨tr,d,h,hd,hfirst,hsecond,hrevoked⟩ : ∃ tr d,
      Steps (SessionRequest.start plainEnv recoveringStore recovery) tr d ∧ d.Completed ∧ d.Succeeded 0 ∧
        d.Succeeded 1 ∧ ∀ x ∈ d.state.identity.sessions, x.revokedAt.isSome :=
    Steps.exists_of_play [0,0,0,0,1,1] (by decide +kernel)
  obtain ⟨hstays,halone⟩ :=
    staysEnded_iff_endsAlone plainEnv recoveringStore recovery tr d sessionStart_recovery (by decide) h
  exact ⟨tr,d,h,hfirst,hsecond,hrevoked,halone hd,hstays⟩

/-- The refresh has found the session when the password is reset, and creates its successor
afterwards: the user has a session alive that descends from one before the reset. -/
theorem recovery_not_staysEnded :
    SessionStart recoveringStore recovery ∧
      (recoveringStore.identity.passwordResetTokens.map MailedToken.tokenHash).Nodup ∧
      ∃ tr d, Steps (SessionRequest.start plainEnv recoveringStore recovery) tr d ∧ d.Completed ∧ d.Succeeded 1 ∧
        (∃ x ∈ d.state.identity.sessions, x.userId = 1 ∧ Live 300 x) ∧
        ¬ Throughout (seenSessions plainEnv recovery) StaysEnded
          (SessionRequest.start plainEnv recoveringStore recovery) tr [] := by
  refine ⟨sessionStart_recovery,by decide,?_⟩
  obtain ⟨tr,d,h,hd,hreset,⟨x,hx,huser,hrevoked,hexpires⟩,ids,hids,hdrained,hfam⟩ := Steps.exists_of_playTrace
    (c := SessionRequest.start plainEnv recoveringStore recovery)
    (P := fun tr d => d.Completed ∧ d.Succeeded 1 ∧
      (∃ x ∈ d.state.identity.sessions, x.userId = 1 ∧ x.revokedAt = none ∧ 300 < x.expiresAt) ∧
      ∃ ids ∈ endings (recoveryNotes tr), Drained (recoveryNotes tr) d ids ∧
        ∃ x ∈ d.state.identity.sessions, x.id ∈ family ids (links (recoveryNotes tr)) ∧ x.revokedAt = none)
    [0,0,1,1,0,0] (by decide +kernel)
  obtain ⟨y,hy,hyfam,hyrevoked⟩ := hfam
  obtain ⟨now,hlive⟩ := exists_live_iff.mpr hyrevoked
  refine ⟨tr,d,h,hd,hreset,⟨x,hx,huser,hrevoked,hexpires⟩,fun hstays => ?_⟩
  exact hstays tr [] d (by simp) h ids hids hdrained now y hy hyfam hlive

end PinoyTax.Identity
