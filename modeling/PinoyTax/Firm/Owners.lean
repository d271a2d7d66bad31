import PinoyTax.Firm.Frame
import PinoyTax.Foundation.Reliance

/-! # The owner of a firm

Firm requests arrive at any time and their statements interleave. Only the creation of a
firm writes the owner's role; an owner is active from the start, so that no invitation is
pending for one; and a membership that is not an owner's never becomes one. That is what
every request that read a membership can rely on when it writes to it later.
-/
namespace PinoyTax.Firm
open PinoyTax Foundation Identity

/-- The statements of a request, its guard included. -/
def program (toLowerCase : String → String) : FirmRequest → Request Unit
  | .createFirm userId dto firmId membershipId now => (createFirm userId dto firmId membershipId now).discard
  | .inviteFirmStaff userId firmId dto id now =>
    (guarded "firm:staff:invite" userId firmId (inviteFirmStaff toLowerCase firmId userId dto id now)).discard
  | .acceptFirmInvitation userId membershipId now => (acceptFirmInvitation userId membershipId now).discard
  | .updateFirmStaffRole userId firmId membershipId firmRoleCode =>
    (guarded "firm:staff:manage_roles" userId firmId (updateFirmStaffRole firmId membershipId firmRoleCode)).discard
  | .revokeFirmStaff userId firmId membershipId =>
    (guarded "firm:staff:invite" userId firmId (revokeFirmStaff firmId membershipId)).discard
  | .createClientCompany userId firmId dto companyId assignmentId =>
    (guarded "firm:clients:manage" userId firmId (createClientCompany firmId userId dto companyId assignmentId)).discard
  | .inviteClientCompany userId firmId companyId id =>
    (guarded "firm:clients:manage" userId firmId (inviteClientCompany firmId userId companyId id)).discard
  | .respondToClientInvitation userId invitationId accept now =>
    (respondToClientInvitation userId invitationId accept now).discard
  | .removeClientCompany userId firmId companyId =>
    (guarded "firm:clients:manage" userId firmId (removeClientCompany firmId companyId)).discard
  | .assignStaffToCompany userId firmId companyId membershipId permissionCodes id =>
    (guarded "firm:clients:assign" userId firmId
      (assignStaffToCompany firmId userId companyId membershipId permissionCodes id)).discard
  | .revokeAssignment userId firmId assignmentId =>
    (guarded "firm:clients:assign" userId firmId (revokeAssignment firmId assignmentId)).discard

def isFirmOwnerRole (s : Store) (firmRoleId : Uuid) : Bool :=
  (s.org.firmRoles.find? (fun r => r.id = firmRoleId)).any (fun r => r.code == "firm_owner")

def hasOwnerRole (s : Store) (m : FirmMembership) : Bool := isFirmOwnerRole s m.firmRoleId

/-- An active membership of the firm with the role `firm_owner`. -/
def isActiveOwner (s : Store) (firmId : Uuid) (m : FirmMembership) : Bool :=
  decide (m.firmId = firmId) && decide (m.status = .active) && hasOwnerRole s m

/-- Every firm has exactly one active owner, who created it. -/
def OwnedByCreators (creator : Uuid → Uuid) (s : Store) : Prop :=
  ∀ f ∈ s.org.firms, ∃ m, s.org.firmMemberships.filter (isActiveOwner s f.id) = [m] ∧ m.userId = creator f.id

/-- The unique and foreign keys of the firm tables. -/
structure FirmKeys (s : Store) : Prop extends Consistent s where
  firmIds : (s.org.firms.map Firm.id).Nodup
  firmRoleIds : (s.org.firmRoles.map FirmRole.id).Nodup
  firmRoleCodes : (s.org.firmRoles.map FirmRole.code).Nodup

/-- The owner's role is with active memberships of creators only, and every firm has one. -/
structure Owned (creator : Uuid → Uuid) (s : Store) : Prop where
  keys : FirmKeys s
  owners : ∀ m ∈ s.org.firmMemberships, hasOwnerRole s m = true → m.status = .active ∧ m.userId = creator m.firmId
  owned : ∀ f ∈ s.org.firms, ∃ m ∈ s.org.firmMemberships, m.firmId = f.id ∧ hasOwnerRole s m = true

/-- The membership with this id is there and is not an owner's. -/
def NotOwner (s : Store) (id : Uuid) : Prop := ∃ m ∈ s.org.firmMemberships, m.id = id ∧ hasOwnerRole s m = false

/-- The firm roles stay, and who is not an owner does not become one. -/
structure Later (s t : Store) : Prop where
  firmRoles : t.org.firmRoles = s.org.firmRoles
  notOwner : ∀ id, NotOwner s id → NotOwner t id

def ownership (creator : Uuid → Uuid) : Discipline Store where
  Inv := Owned creator
  Admits := FirmKeys
  Later := Later
  refl _ := ⟨rfl,fun _ h => h⟩
  trans h h' := ⟨h'.firmRoles.trans h.firmRoles,fun id hid => h'.notOwner id (h.notOwner id hid)⟩

/-- The requests that arrive; the ids of new firms tell who creates them. -/
def Arrives (toLowerCase : String → String) (creator : Uuid → Uuid) (p : Request Unit) : Prop :=
  ∃ req : FirmRequest, p = program toLowerCase req ∧
    ∀ userId dto firmId membershipId now,
      req = .createFirm userId dto firmId membershipId now → userId = creator firmId

section
variable {creator : Uuid → Uuid} {s t : Store}

theorem hasOwnerRole_congr (h : t.org.firmRoles = s.org.firmRoles) (m : FirmMembership) :
    hasOwnerRole t m = hasOwnerRole s m := by
  unfold hasOwnerRole isFirmOwnerRole
  rw [h]

/-- Two owners of one firm are its creator's one membership. -/
theorem Owned.owner_unique (hs : Owned creator s) {m q : FirmMembership} (hm : m ∈ s.org.firmMemberships)
    (hq : q ∈ s.org.firmMemberships) (hmo : hasOwnerRole s m = true) (hqo : hasOwnerRole s q = true)
    (hfirm : m.firmId = q.firmId) : m = q := by
  refine Table.eq_of_key hs.keys.members hm hq ?_
  have hmu := (hs.owners m hm hmo).2
  have hqu := (hs.owners q hq hqo).2
  simp [memberKey,hmu,hqu,hfirm]

theorem filter_eq_singleton {ρ : Type} {p : ρ → Bool} {rows : List ρ} {r : ρ} (hn : rows.Nodup) (hr : r ∈ rows)
    (hp : p r = true) (hone : ∀ q ∈ rows, p q = true → q = r) : rows.filter p = [r] := by
  have hmem : ∀ q, q ∈ rows.filter p ↔ q ∈ [r] := by
    intro q
    rw [List.mem_filter,List.mem_singleton]
    constructor
    · rintro ⟨hq,hpq⟩
      exact hone q hq hpq
    · rintro rfl
      exact ⟨hr,hp⟩
  exact List.perm_singleton.mp ((List.perm_ext_iff_of_nodup (hn.filter p) (List.nodup_singleton r)).mpr hmem)

theorem Owned.ownedByCreators (hs : Owned creator s) : OwnedByCreators creator s := by
  intro f hf
  obtain ⟨m,hm,hfirm,howner⟩ := hs.owned f hf
  obtain ⟨hact,huser⟩ := hs.owners m hm howner
  refine ⟨m,filter_eq_singleton (.of_map _ hs.keys.memberships) hm (by simp [isActiveOwner,hfirm,hact,howner]) ?_,?_⟩
  · intro q hq hp
    simp only [isActiveOwner,Bool.and_eq_true,decide_eq_true_eq] at hp
    exact hs.owner_unique hq hm hp.2 howner (hp.1.1.trans hfirm.symm)
  · rw [huser,hfirm]

/-! ## What the statements do to the owners -/

/-- The firms, their memberships and the roles. -/
def firmView (s : Store) : List Firm × List FirmMembership × List FirmRole :=
  (s.org.firms,s.org.firmMemberships,s.org.firmRoles)

theorem Owned.of_view (hs : Owned creator s) (ht : FirmKeys t) (h : firmView t = firmView s) :
    Owned creator t ∧ Later s t := by
  simp only [firmView,Prod.mk.injEq] at h
  obtain ⟨hfirms,hmembers,hroles⟩ := h
  have howner := hasOwnerRole_congr hroles
  refine ⟨⟨ht,?_,?_⟩,hroles,?_⟩
  · intro m hm hm'
    rw [hmembers] at hm
    rw [howner] at hm'
    exact hs.owners m hm hm'
  · intro f hf
    rw [hfirms] at hf
    obtain ⟨m,hm,hrest⟩ := hs.owned f hf
    exact ⟨m,by rwa [hmembers],by rwa [howner]⟩
  · rintro id ⟨m,hm,hrest⟩
    exact ⟨m,by rwa [hmembers],by rwa [howner]⟩

/-- Writing to a membership that is not an owner's. -/
theorem Owned.update (hs : Owned creator s) (ht : FirmKeys t) {id : Uuid} (hid : NotOwner s id)
    {f : FirmMembership → FirmMembership} (hfid : ∀ m, (f m).id = m.id)
    (hf : ∀ m, hasOwnerRole s m = false → hasOwnerRole s (f m) = false) (hfirms : t.org.firms = s.org.firms)
    (hroles : t.org.firmRoles = s.org.firmRoles)
    (hmembers : t.org.firmMemberships = Table.updateMany (fun m => m.id = id) f s.org.firmMemberships) :
    Owned creator t ∧ Later s t := by
  have howner := hasOwnerRole_congr hroles
  obtain ⟨m₀,hm₀,hid₀,hno⟩ := hid
  have hsame : ∀ m ∈ s.org.firmMemberships, m.id = id → hasOwnerRole s m = false := by
    intro m hm hmid
    rwa [Table.eq_of_key hs.keys.memberships hm hm₀ (hmid.trans hid₀.symm)]
  refine ⟨⟨ht,?_,?_⟩,hroles,?_⟩
  · intro m hm hm'
    rw [hmembers] at hm
    rw [howner] at hm'
    rcases Table.mem_updateMany_cases hm with ⟨hm,-⟩ | ⟨q,hq,hqid,rfl⟩
    · exact hs.owners m hm hm'
    · rw [hf q (hsame q hq (by simpa using hqid))] at hm'
      cases hm'
  · intro g hg
    rw [hfirms] at hg
    obtain ⟨m,hm,hfirm,hm'⟩ := hs.owned g hg
    have hne : m.id ≠ id := by
      intro he
      rw [hsame m hm he] at hm'
      cases hm'
    refine ⟨m,?_,hfirm,by rwa [howner]⟩
    rw [hmembers]
    exact Table.mem_updateMany_of_mem hm (by simpa using hne)
  · rintro x ⟨m,hm,rfl,hm'⟩
    by_cases hx : m.id = id
    · refine ⟨f m,?_,hfid m,by rw [howner]; exact hf m hm'⟩
      rw [hmembers]
      exact Table.mem_updateMany_image hm (by simpa using hx)
    · refine ⟨m,?_,rfl,by rwa [howner]⟩
      rw [hmembers]
      exact Table.mem_updateMany_of_mem hm (by simpa using hx)

/-- A new membership, an owner's only if it is the active one of the firm's creator, and new firms of its own. -/
theorem Owned.grow (hs : Owned creator s) (ht : FirmKeys t) {m : FirmMembership}
    (hm : hasOwnerRole s m = true → m.status = .active ∧ m.userId = creator m.firmId)
    (hfirms : ∀ g ∈ t.org.firms, g ∈ s.org.firms ∨ m.firmId = g.id ∧ hasOwnerRole s m = true)
    (hroles : t.org.firmRoles = s.org.firmRoles)
    (hmembers : t.org.firmMemberships = s.org.firmMemberships ++ [m]) : Owned creator t ∧ Later s t := by
  have howner := hasOwnerRole_congr hroles
  refine ⟨⟨ht,?_,?_⟩,hroles,?_⟩
  · intro q hq hq'
    rw [hmembers] at hq
    rw [howner] at hq'
    rcases List.mem_append.mp hq with hq | hq
    · exact hs.owners q hq hq'
    · obtain rfl := List.mem_singleton.mp hq
      exact hm hq'
  · intro g hg
    rcases hfirms g hg with hold | ⟨hfirm,hown⟩
    · obtain ⟨q,hq,hrest⟩ := hs.owned g hold
      exact ⟨q,by rw [hmembers]; exact List.mem_append_left _ hq,by rwa [howner]⟩
    · exact ⟨m,by rw [hmembers]; exact List.mem_append_right _ (List.mem_singleton_self _),hfirm,by rwa [howner]⟩
  · rintro id ⟨q,hq,hrest⟩
    exact ⟨q,by rw [hmembers]; exact List.mem_append_left _ hq,by rwa [howner]⟩

/-- A new membership that is not an owner's. -/
theorem Owned.join (hs : Owned creator s) (ht : FirmKeys t) {m : FirmMembership} (hm : hasOwnerRole s m = false)
    (hfirms : t.org.firms = s.org.firms) (hroles : t.org.firmRoles = s.org.firmRoles)
    (hmembers : t.org.firmMemberships = s.org.firmMemberships ++ [m]) : Owned creator t ∧ Later s t := by
  refine hs.grow ht (fun hown => ?_) (fun g hg => .inl ?_) hroles hmembers
  · rw [hm] at hown
    cases hown
  · rwa [hfirms] at hg

/-- A new firm with its owner. -/
theorem Owned.found (hs : Owned creator s) (ht : FirmKeys t) {f : Firm} {m : FirmMembership}
    (hm : hasOwnerRole s m = true) (hact : m.status = .active) (huser : m.userId = creator m.firmId)
    (hfirm : m.firmId = f.id) (hfirms : t.org.firms = s.org.firms ++ [f]) (hroles : t.org.firmRoles = s.org.firmRoles)
    (hmembers : t.org.firmMemberships = s.org.firmMemberships ++ [m]) : Owned creator t ∧ Later s t := by
  refine hs.grow ht (fun _ => ⟨hact,huser⟩) (fun g hg => ?_) hroles hmembers
  rw [hfirms] at hg
  rcases List.mem_append.mp hg with hg | hg
  · exact .inl hg
  · rw [List.mem_singleton.mp hg]
    exact .inr ⟨hfirm,hm⟩

/-! ## What the requests rely on -/

abbrev Respecting {α : Type} (creator : Uuid → Uuid) (p : Request α) (s : Store) : Prop :=
  p.Respects (ownership creator) (fun _ _ => True) s

theorem respecting_discard {α : Type} {p : Request α} (h : Respecting creator p s) : Respecting creator p.discard s :=
  h.bind fun _ _ _ _ _ => trivial

theorem respecting_view {α : Type} {p : Request α} (h : p.Keeps firmView) (s : Store) : Respecting creator p s := by
  have hview : p.Guarantees fun _ s t => Owned creator s → FirmKeys t → Owned creator t ∧ Later s t :=
    h.mono fun _ _ _ hst hs ht => hs.of_view ht hst
  exact (Prog.Guarantees.respects (D := ownership creator) hview s).mono fun _ _ _ => trivial

theorem respecting_orThrow_bind {ρ β : Type} {e : ApiException} {o : Option ρ} {f : ρ → Request β}
    (h : ∀ r, o = some r → Respecting creator (f r) s) : Respecting creator (orThrow e o >>= f) s := by
  cases o with
  | none => trivial
  | some r => exact h r rfl

theorem respecting_update {p : FirmMembership → Bool} {f : FirmMembership → FirmMembership}
    (h : ∀ t, Later s t → Owned creator t → FirmKeys (Prisma.firmMembership.set
      (Table.updateMany p f t.org.firmMemberships) t) → Owned creator (Prisma.firmMembership.set
        (Table.updateMany p f t.org.firmMemberships) t) ∧ Later t (Prisma.firmMembership.set
          (Table.updateMany p f t.org.firmMemberships) t)) :
    Respecting creator (Prisma.firmMembership.update p f) s := by
  intro t hst hinv hadmits
  obtain ⟨hinv',hlater⟩ := h t hst hinv hadmits
  refine ⟨hinv',hlater,?_⟩
  dsimp only
  cases (Prisma.firmMembership.get t).find? p with
  | none => trivial
  | some m => exact fun _ _ => trivial

/-- A write by id to a membership that was not an owner's when it was read. -/
theorem respecting_update_notOwner {id : Uuid} (hid : NotOwner s id) {f : FirmMembership → FirmMembership}
    (hfid : ∀ m, (f m).id = m.id)
    (hf : ∀ t, Later s t → ∀ m, hasOwnerRole t m = false → hasOwnerRole t (f m) = false) :
    Respecting creator (Prisma.firmMembership.update (fun m => m.id = id) f) s := by
  apply respecting_update
  intro t hst ht hkeys
  exact ht.update hkeys (hst.notOwner id hid) hfid (hf t hst) rfl rfl rfl

/-- The role found for a code. -/
theorem isFirmOwnerRole_of_code (hs : FirmKeys s) {code : String} {r : FirmRole}
    (h : (Prisma.firmRole.get s).find? (fun r => r.code = code) = some r) :
    isFirmOwnerRole s r.id = (code == "firm_owner") := by
  obtain ⟨hr,hcode⟩ := Table.find?_key_some h
  have hfind : s.org.firmRoles.find? (fun q => q.id = r.id) = some r := Table.find?_of_mem hs.firmRoleIds hr
  rw [isFirmOwnerRole,hfind,Option.any_some,hcode]

theorem AssignableFirmRoleCode.not_owner (c : AssignableFirmRoleCode) : (c.code == "firm_owner") = false := by
  cases c <;> decide

theorem hasOwnerRole_later (h : Later s t) (m : FirmMembership) : hasOwnerRole t m = hasOwnerRole s m :=
  hasOwnerRole_congr h.firmRoles m

theorem notOwner_of_inactive (hs : Owned creator s) {m : FirmMembership} (hm : m ∈ s.org.firmMemberships)
    (hact : m.status ≠ .active) : NotOwner s m.id := by
  refine ⟨m,hm,rfl,?_⟩
  by_contra howner
  exact hact (hs.owners m hm (by simpa using howner)).1

theorem respecting_createFirm {ownerId : Uuid} {dto : CreateFirmDto} {firmId membershipId : Uuid} {now : DateTime}
    (hcreator : ownerId = creator firmId) : Respecting creator (createFirm ownerId dto firmId membershipId now) s := by
  apply Prog.respects_query_bind
  intro t₁ _ ht₁
  apply respecting_orThrow_bind
  intro ownerRole hrole
  have howner : isFirmOwnerRole t₁ ownerRole.id = true := isFirmOwnerRole_of_code ht₁.keys hrole
  intro t₂ h₁₂ ht₂ hkeys
  have hm : hasOwnerRole t₂ (ownerMembership ownerId firmId ownerRole.id membershipId now) = true := by
    rw [hasOwnerRole_later h₁₂]
    exact howner
  obtain ⟨hinv,hlater⟩ := ht₂.found hkeys (f := firmRow dto firmId) hm rfl hcreator rfl rfl rfl rfl
  exact ⟨hinv,hlater,fun _ _ => trivial⟩

theorem respecting_inviteFirmStaff {toLowerCase : String → String} {firmId inviterId id : Uuid}
    {dto : InviteFirmStaffDto} {now : DateTime} :
    Respecting creator (inviteFirmStaff toLowerCase firmId inviterId dto id now) s := by
  apply Prog.respects_query_bind
  intro t₁ _ _
  apply respecting_orThrow_bind
  intro invitee _
  apply Prog.respects_query_bind
  intro t₂ _ ht₂
  apply respecting_orThrow_bind
  intro role hrole
  have hstaff : isFirmOwnerRole t₂ role.id = false := by
    rw [isFirmOwnerRole_of_code ht₂.keys hrole]
    exact dto.firmRoleCode.not_owner
  apply Prog.respects_query_bind
  intro t₃ h₂₃ ht₃
  cases hf : (Prisma.firmMembership.get t₃).find? (isMemberOf invitee.id firmId) with
  | some existing =>
    dsimp only
    split
    · trivial
    · rename_i hinactive
      refine respecting_update_notOwner (notOwner_of_inactive ht₃ (List.mem_of_find?_eq_some hf) hinactive)
        (fun _ => rfl) fun t₄ h₃₄ m _ => ?_
      have hlater := (ownership creator).trans h₂₃ h₃₄
      rw [hasOwnerRole_later hlater]
      exact hstaff
  | none =>
    intro t₄ h₃₄ ht₄ hkeys
    have hlater := (ownership creator).trans h₂₃ h₃₄
    have hm : hasOwnerRole t₄ (invitedMembership firmId invitee.id role.id inviterId id now) = false := by
      rw [hasOwnerRole_later hlater]
      exact hstaff
    obtain ⟨hinv,hlater'⟩ := ht₄.join hkeys hm rfl rfl rfl
    exact ⟨hinv,hlater',fun _ _ => trivial⟩

theorem respecting_acceptFirmInvitation {userId membershipId : Uuid} {now : DateTime} :
    Respecting creator (acceptFirmInvitation userId membershipId now) s := by
  apply Prog.respects_query_bind
  intro t₁ _ ht₁
  apply respecting_orThrow_bind
  intro invitation hfound
  have hpending := List.find?_some hfound
  simp only [isPendingOf,Bool.and_eq_true,decide_eq_true_eq] at hpending
  have hno : NotOwner t₁ invitation.id :=
    notOwner_of_inactive ht₁ (List.mem_of_find?_eq_some hfound) (by simp [hpending.2])
  exact respecting_update_notOwner hno (fun _ => rfl) fun _ _ _ hm => hm

theorem length_filter_le_one {ρ : Type} {p : ρ → Bool} {rows : List ρ} (hn : rows.Nodup)
    (h : ∀ a ∈ rows, ∀ b ∈ rows, p a = true → p b = true → a = b) : (rows.filter p).length ≤ 1 := by
  have hnodup := hn.filter p
  have hmem : ∀ a, a ∈ rows.filter p ↔ a ∈ rows ∧ p a = true := fun a => List.mem_filter
  cases hf : rows.filter p with
  | nil => simp
  | cons a rest =>
    cases rest with
    | nil => simp
    | cons b rest =>
      rw [hf] at hnodup hmem
      obtain ⟨ha,hpa⟩ := (hmem a).mp (by simp)
      obtain ⟨hb,hpb⟩ := (hmem b).mp (by simp)
      have hne : a ≠ b := by
        rintro rfl
        simp at hnodup
      exact absurd (h a ha b hb hpa hpb) hne

/-- The count never exceeds one, so that the check lets nobody through who was an owner. -/
theorem respecting_assertNotLastOwner_bind {β : Type} {firmId : Uuid} {membership : FirmMembership × Option FirmRole}
    {verb : String} {f : Unit → Request β} (hs : Owned creator s) (hm : membership.1 ∈ s.org.firmMemberships)
    (hrole : membership.2 = s.org.firmRoles.find? (fun r => r.id = membership.1.firmRoleId))
    (hf : ∀ t, Later s t → NotOwner t membership.1.id → Respecting creator (f ()) t) :
    Respecting creator (assertNotLastOwner firmId membership verb >>= f) s := by
  unfold assertNotLastOwner
  split
  · rename_i hpass
    refine hf s ((ownership creator).refl s) ?_
    rcases hpass with hcode | hact
    · refine ⟨membership.1,hm,rfl,?_⟩
      rw [hasOwnerRole,isFirmOwnerRole,← hrole]
      cases hr : membership.2 with
      | none => rfl
      | some r =>
        simp only [hr,Option.map_some,ne_eq,Option.some.injEq] at hcode
        simp [hcode]
    · exact notOwner_of_inactive hs hm hact
  · rw [Prog.bind_assoc]
    apply Prog.respects_query_bind
    intro t₁ _ ht₁
    rw [Prog.bind_assoc]
    apply respecting_orThrow_bind
    intro ownerRole hfound
    rw [Prog.bind_assoc]
    apply Prog.respects_query_bind
    intro t₂ h₁₂ ht₂
    have howner : isFirmOwnerRole t₂ ownerRole.id = true := by
      rw [isFirmOwnerRole,h₁₂.firmRoles]
      exact isFirmOwnerRole_of_code ht₁.keys hfound
    have hcount : ((Prisma.firmMembership.get t₂).filter (isActiveWithRole firmId ownerRole.id)).length ≤ 1 := by
      apply length_filter_le_one (.of_map _ ht₂.keys.memberships)
      intro a ha b hb hpa hpb
      simp only [isActiveWithRole,Bool.and_eq_true,decide_eq_true_eq] at hpa hpb
      refine ht₂.owner_unique ha hb ?_ ?_ (hpa.1.1.trans hpb.1.1.symm)
      · rwa [hasOwnerRole,hpa.1.2]
      · rwa [hasOwnerRole,hpb.1.2]
    rw [if_pos hcount]
    trivial

/-- The membership found, with its role. -/
theorem respecting_getFirmMembershipOrThrow_bind {β : Type} {firmId membershipId : Uuid}
    {f : FirmMembership × Option FirmRole → Request β}
    (hf : ∀ t membership, Later s t → Owned creator t → membership.1 ∈ t.org.firmMemberships →
      membership.1.id = membershipId →
      membership.2 = t.org.firmRoles.find? (fun r => r.id = membership.1.firmRoleId) →
      Respecting creator (f membership) t) :
    Respecting creator (getFirmMembershipOrThrow firmId membershipId >>= f) s := by
  unfold getFirmMembershipOrThrow
  rw [Prog.bind_assoc]
  apply Prog.respects_query_bind
  intro t hst ht
  cases hfind : t.org.firmMemberships.find? (fun m => m.id = membershipId) with
  | none => trivial
  | some m =>
    obtain ⟨hm,hid⟩ := Table.find?_key_some hfind
    simp only [Option.map_some,ownedBy]
    split
    · exact hf t _ hst ht hm hid rfl
    · trivial

theorem respecting_updateFirmStaffRole {firmId membershipId : Uuid} {firmRoleCode : AssignableFirmRoleCode} :
    Respecting creator (updateFirmStaffRole firmId membershipId firmRoleCode) s := by
  apply respecting_getFirmMembershipOrThrow_bind
  rintro t membership _ ht hm rfl hrole
  apply respecting_assertNotLastOwner_bind ht hm hrole
  intro t₁ h₁ hno
  apply Prog.respects_query_bind
  intro t₂ h₁₂ ht₂
  apply respecting_orThrow_bind
  intro role hfound
  have hstaff : isFirmOwnerRole t₂ role.id = false := by
    rw [isFirmOwnerRole_of_code ht₂.keys hfound]
    exact firmRoleCode.not_owner
  refine respecting_update_notOwner (h₁₂.notOwner _ hno) (fun _ => rfl) fun t₃ h₂₃ m _ => ?_
  rw [hasOwnerRole_later h₂₃]
  exact hstaff

theorem respecting_revokeFirmStaff {firmId membershipId : Uuid} :
    Respecting creator (revokeFirmStaff firmId membershipId) s := by
  apply respecting_getFirmMembershipOrThrow_bind
  rintro t membership _ ht hm rfl hrole
  apply respecting_assertNotLastOwner_bind ht hm hrole
  intro t₁ h₁ hno t₂ h₁₂ ht₂ hkeys
  dsimp only at hkeys ⊢
  rw [run_revocation] at hkeys ⊢
  cases hfound : TableRef.updateReply (fun m => m.id = membership.1.id) revokeMember t₂.org.firmMemberships with
  | error e => exact ⟨ht₂,(ownership creator).refl t₂,trivial⟩
  | ok m =>
    rw [hfound] at hkeys
    obtain ⟨hinv,hlater⟩ := ht₂.update hkeys (f := revokeMember) (h₁₂.notOwner _ hno) (fun _ => rfl) (fun _ hm => hm)
      rfl rfl rfl
    exact ⟨hinv,hlater,fun _ _ => trivial⟩

theorem respecting_guarded {α : Type} {code : String} {userId firmId : Uuid} {handler : Request α}
    (h : ∀ t, Respecting creator handler t) : Respecting creator (guarded code userId firmId handler).discard s :=
  respecting_discard ((respecting_view (keeps_guard code userId firmId) s).bind fun _ t _ => h t)

theorem respecting_program {toLowerCase : String → String} {p : Request Unit} (hp : Arrives toLowerCase creator p)
    (s : Store) : Respecting creator p s := by
  obtain ⟨req,rfl,hcreator⟩ := hp
  cases req with
  | createFirm userId dto firmId membershipId now =>
    exact respecting_discard (respecting_createFirm (hcreator _ _ _ _ _ rfl))
  | inviteFirmStaff userId firmId dto id now => exact respecting_guarded fun _ => respecting_inviteFirmStaff
  | acceptFirmInvitation userId membershipId now => exact respecting_discard respecting_acceptFirmInvitation
  | updateFirmStaffRole userId firmId membershipId firmRoleCode =>
    exact respecting_guarded fun _ => respecting_updateFirmStaffRole
  | revokeFirmStaff userId firmId membershipId => exact respecting_guarded fun _ => respecting_revokeFirmStaff
  | createClientCompany userId firmId dto companyId assignmentId =>
    exact respecting_guarded fun t =>
      respecting_view (keeps_createClientCompany (fun _ _ => rfl) (fun _ _ => rfl) fun _ _ => rfl) t
  | inviteClientCompany userId firmId companyId id =>
    exact respecting_guarded fun t => respecting_view (keeps_inviteClientCompany (fun _ _ => rfl)) t
  | respondToClientInvitation userId invitationId accept now =>
    exact respecting_discard (respecting_view (keeps_respondToClientInvitation (fun _ _ => rfl) (fun _ _ => rfl)) s)
  | removeClientCompany userId firmId companyId =>
    exact respecting_guarded fun t => respecting_view (keeps_removeClientCompany (fun _ _ => rfl) (fun _ _ => rfl)) t
  | assignStaffToCompany userId firmId companyId membershipId permissionCodes id =>
    exact respecting_guarded fun t => respecting_view (keeps_assignStaffToCompany (fun _ _ => rfl)) t
  | revokeAssignment userId firmId assignmentId =>
    exact respecting_guarded fun t => respecting_view (keeps_revokeAssignment (fun _ _ => rfl)) t

end

/-- A store before the first firm. -/
structure Unfounded (s : Store) : Prop where
  keys : FirmKeys s
  firms : s.org.firms = []
  firmMemberships : s.org.firmMemberships = []

/-- The rest of the platform leaves the firms, their members and the roles alone. -/
structure Elsewhere (s t : Store) : Prop where
  view : firmView t = firmView s
  keys : FirmKeys t

/-- However firm requests arrive and their statements interleave, every firm has at all
times exactly one active membership with the role `firm_owner`, its creator's. -/
theorem owned_by_creators (toLowerCase : String → String) (creator : Uuid → Uuid)
    (c : Config Store Label ApiException Unit)
    (h : Reached Unfounded FirmKeys (Arrives toLowerCase creator) Elsewhere c) : OwnedByCreators creator c.state := by
  have hinv : Owned creator c.state := by
    refine (Reached.inv (D := ownership creator) ?_ ?_ ?_ h).1
    · intro s hs
      exact ⟨hs.keys,by simp [hs.firmMemberships],by simp [hs.firms]⟩
    · intro p hp s _
      exact respecting_program hp s
    · intro s t hst hs
      exact hs.of_view hst.keys hst.view
  exact hinv.ownedByCreators

instance (s : Store) : Decidable (FirmKeys s) :=
  decidable_of_iff ((s.org.companies.map Company.id).Nodup ∧ (s.org.firmMemberships.map FirmMembership.id).Nodup ∧
    (s.org.firmMemberships.map memberKey).Nodup ∧ (∀ m ∈ s.org.firmMemberships, m.firmId ∈ s.org.firms.map Firm.id) ∧
    (s.org.firms.map Firm.id).Nodup ∧ (s.org.firmRoles.map FirmRole.id).Nodup ∧
    (s.org.firmRoles.map FirmRole.code).Nodup)
    ⟨fun ⟨h₁,h₂,h₃,h₄,h₅,h₆,h₇⟩ => ⟨⟨h₁,h₂,h₃,h₄⟩,h₅,h₆,h₇⟩,
      fun h => ⟨h.companies,h.memberships,h.members,h.firms,h.firmIds,h.firmRoleIds,h.firmRoleCodes⟩⟩

/-- The roles of the seed. -/
def rolesOnly : Store where
  org.firmRoles := [⟨1,"firm_owner",[]⟩,⟨2,"firm_bookkeeper",[]⟩]

def founding : FirmRequest := .createFirm 7 ⟨"CPAs",.accounting_firm,"cpa@example.com",none⟩ 100 200 0

theorem owned_by_creators_founded :
    ∃ c, Reached Unfounded FirmKeys (Arrives String.toLower fun _ => 7) Elsewhere c ∧
      c.state.org.firms.map Firm.id = [100] ∧ OwnedByCreators (fun _ => 7) c.state := by
  have hstart : Reached Unfounded FirmKeys (Arrives String.toLower fun _ => 7) Elsewhere ⟨rolesOnly,[]⟩ :=
    .start ⟨by decide,rfl,rfl⟩
  have harrive := hstart.arrive (p := program String.toLower founding) ⟨founding,rfl,by
    rintro _ _ _ _ _ ⟨⟩
    rfl⟩
  have hread := harrive.execute (i := 0) rfl (by decide +kernel)
  have hcreated := hread.execute (i := 0) rfl (by decide +kernel)
  exact ⟨_,hcreated,by decide +kernel,owned_by_creators String.toLower (fun _ => 7) _ hcreated⟩

end PinoyTax.Firm
