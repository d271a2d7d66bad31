import PinoyTax.Firm.Requests
import PinoyTax.Foundation.CheckedWrite
import PinoyTax.Org.Service

/-! # Accepting and revoking one invitation at the same time

The company's staff and the firm's staff are two tables with one pattern: an acceptance
finds the pending row and activates it by id in its next statement, and a revocation
writes the status by id whatever it is by then.
-/
namespace PinoyTax.Org
open PinoyTax Foundation CheckedWrite

/-- An acceptance and a revocation of one company role or of one firm membership. -/
inductive StaffRace
  | company (userId companyId userCompanyRoleId : Uuid) (now : DateTime)
  | firm (userId firmId membershipId : Uuid) (now : DateTime)
deriving DecidableEq, Repr

namespace StaffRace

def accept : StaffRace → Request Unit
  | company userId _ userCompanyRoleId now => (acceptInvitation userId userCompanyRoleId now).discard
  | firm userId _ membershipId now => (Firm.acceptFirmInvitation userId membershipId now).discard

def revoke : StaffRace → Request Unit
  | company _ companyId userCompanyRoleId _ => (revokeStaff companyId userCompanyRoleId).discard
  | firm _ firmId membershipId _ => (Firm.revokeFirmStaff firmId membershipId).discard

/-- The acceptance and the revocation, each before its first statement. -/
def start (r : StaffRace) (s : Store) : Config Store Label ApiException Unit := ⟨s,[r.accept,r.revoke]⟩

def ActiveIn (s : Store) : StaffRace → Prop
  | company _ _ userCompanyRoleId _ =>
    ∃ q ∈ s.org.userCompanyRoles, q.id = userCompanyRoleId ∧ q.status = .active
  | firm _ _ membershipId _ => ∃ m ∈ s.org.firmMemberships, m.id = membershipId ∧ m.status = .active

/-- The statements in which the two requests write the status. -/
def acceptance : StaffRace → Label
  | company .. => .on .userCompanyRole .update
  | firm .. => .on .firmMembership .update

def revocation : StaffRace → Label
  | company .. => .on .userCompanyRole .update
  | firm .. => .transaction

/-- In every configuration in which the revocation has gone through, the role or
membership is not active. -/
def StaysRevoked (r : StaffRace) (s : Store) (tr : List (ℕ × Label)) : Prop :=
  ∀ tr₁ tr₂ c, tr = tr₁ ++ tr₂ → Steps (r.start s) tr₁ c → c.Succeeded 1 →
    ¬ r.ActiveIn c.state

/-- When the revocation writes the status, the acceptance is not about to write it too. -/
def RevokedApart (r : StaffRace) (s : Store) (tr : List (ℕ × Label)) : Prop :=
  ∀ tr₁ tr₂ c p, tr = tr₁ ++ (1,r.revocation) :: tr₂ → Steps (r.start s) tr₁ c → c.threads[0]? = some p →
    p.head? ≠ some r.acceptance

end StaffRace

/-- The ids of company roles and of firm memberships are unique. -/
structure KeyedStaff (s : Store) : Prop where
  userCompanyRoles : (s.org.userCompanyRoles.map UserCompanyRole.id).Nodup
  firmMemberships : (s.org.firmMemberships.map FirmMembership.id).Nodup

/-! ## A row with a status -/

variable {ρ κ : Type}

/-- A table whose rows have an id and a status, as the two requests see it. -/
structure StaffTable (ρ κ : Type) where
  table : TableRef ρ
  get_set : ∀ rows s, table.get (table.set rows s) = rows
  id : ρ → Uuid
  status : ρ → κ
  pending : κ
  active : κ
  revoked : κ

variable (T : StaffTable ρ κ) (id : Uuid)

def StaffTable.contest (revocation : Label) : Contest Store Label κ where
  Keyed := fun s => ((T.table.get s).map T.id).Nodup
  status := fun s => ((T.table.get s).find? (fun r => T.id r = id)).map T.status
  expected := T.pending
  checked := T.active
  final := T.revoked
  checkedWrite := .on T.table.entity .update
  finalWrite := revocation

variable {T id} {revocation : Label}

theorem status_of_none {s : Store} (h : (T.table.get s).find? (fun r => T.id r = id) = none) :
    (T.contest id revocation).status s = none := congrArg (Option.map T.status) h

theorem status_of_some {s : Store} {r : ρ} (h : (T.table.get s).find? (fun r => T.id r = id) = some r) :
    (T.contest id revocation).status s = some (T.status r) := congrArg (Option.map T.status) h

/-- Writing the status of the row with the id, and perhaps something elsewhere. -/
theorem puts_status {f : ρ → ρ} {k : κ} (hid : ∀ r, T.id (f r) = T.id r) (hstatus : ∀ r, T.status (f r) = k)
    {s t : Store} (ht : T.table.get t = Table.updateMany (fun r => T.id r = id) f (T.table.get s)) :
    (T.contest id revocation).Puts k s t := by
  refine ⟨?_,fun hkeyed => ?_⟩
  · simp only [StaffTable.contest,ht]
    rw [Table.find?_updateMany (fun r => by rw [hid])]
    cases hf : (T.table.get s).find? (fun r => T.id r = id) with
    | none => rfl
    | some r => simp [(Table.find?_key_some hf).2,hstatus]
  · simp only [StaffTable.contest,ht]
    exact Table.nodup_updateMany hid hkeyed

theorem follows_accept {find : ρ → Bool} {e : ApiException} {f : ρ → ρ}
    (hfind : ∀ r, find r = true → T.id r = id ∧ T.status r = T.pending) (hid : ∀ r, T.id (f r) = T.id r)
    (hstatus : ∀ r, T.status (f r) = T.active) :
    (do
      let invitation ← orThrow e (← T.table.findFirst find)
      T.table.update (fun r => T.id r = T.id invitation) f : Request ρ).Follows (Step (T.contest id revocation)) Ends
        .checking := by
  intro s
  cases hf : (T.table.get s).find? find with
  | none =>
    refine ⟨.checking,.looked (by simp [StaffTable.contest]),?_⟩
    simp only [hf]
    exact .inl rfl
  | some invitation =>
    obtain ⟨rfl,hpending⟩ := hfind invitation (List.find?_some hf)
    refine ⟨.writing,.passed (by simp [StaffTable.contest]) fun hkeyed => ?_,?_⟩
    · have hrow := Table.find?_of_mem hkeyed (List.mem_of_find?_eq_some hf)
      rw [status_of_some hrow,hpending]
      rfl
    · simp only [hf]
      intro t
      have hput : (T.contest (T.id invitation) revocation).Puts T.active t
          (T.table.set (Table.updateMany (fun r => T.id r = T.id invitation) f (T.table.get t)) t) :=
        puts_status hid hstatus (T.get_set _ _)
      cases ht : (T.table.get t).find? (fun r => T.id r = T.id invitation) with
      | none =>
        refine ⟨.refused,.missed (status_of_none ht) hput,?_⟩
        simp only [ht]
        exact .inr (.inr rfl)
      | some r =>
        refine ⟨.written,.written (by simp [status_of_some ht]) hput,?_⟩
        simp only [ht]
        exact .inl rfl

def companyStaff : StaffTable UserCompanyRole UserCompanyRoleStatus :=
  ⟨Prisma.userCompanyRole,fun _ _ => rfl,UserCompanyRole.id,UserCompanyRole.status,.pending,.active,.revoked⟩

def firmStaff : StaffTable FirmMembership FirmMembershipStatus :=
  ⟨Prisma.firmMembership,fun _ _ => rfl,FirmMembership.id,FirmMembership.status,.pending,.active,.revoked⟩

theorem reads_orThrow {C : Contest Store Label κ} (e : ApiException) (o : Option ρ) : Reads C (orThrow e o) := by
  cases o <;> rfl

theorem reads_ownedBy {C : Contest Store Label κ} (owner : ρ → Uuid) (ownerId : Uuid) (e : ApiException)
    (o : Option ρ) : Reads C (ownedBy owner ownerId e o) := by
  cases o with
  | none => rfl
  | some r =>
    unfold ownedBy
    dsimp only
    split <;> rfl

theorem follows_revokeStaff (companyId id : Uuid) :
    (revokeStaff companyId id).Follows (Step (companyStaff.contest id (.on .userCompanyRole .update))) Ends .reading := by
  apply (reads_query (by simp [StaffTable.contest]) _).follows_bind
  intro found
  apply (reads_ownedBy _ companyId staffRoleNotFound found).follows_bind
  intro userCompanyRole
  split
  · exact .inr (.inl rfl)
  · intro s
    have hput : (companyStaff.contest id (.on .userCompanyRole .update)).Puts .revoked s
        (Prisma.userCompanyRole.set (Table.updateMany (fun r => r.id = id) revokeRole s.org.userCompanyRoles) s) :=
      puts_status (T := companyStaff) (f := revokeRole) (fun _ => rfl) (fun _ => rfl) rfl
    dsimp only
    cases hf : (Prisma.userCompanyRole.get s).find? (fun r => r.id = id) with
    | none => exact ⟨.refused,.lost (status_of_none (T := companyStaff) hf) hput,.inr (.inr rfl)⟩
    | some r => exact ⟨.settled,.settled (by simp [status_of_some (T := companyStaff) hf]) hput,.inr rfl⟩

theorem reads_assertNotLastOwner {C : Contest Store Label κ} (hrole : .on .firmRole .findUnique ≠ C.finalWrite)
    (hcount : .on .firmMembership .count ≠ C.finalWrite) (firmId : Uuid) (membership : FirmMembership × Option FirmRole)
    (verb : String) : Reads C (Firm.assertNotLastOwner firmId membership verb) := by
  unfold Firm.assertNotLastOwner
  split
  · rfl
  · apply (reads_query hrole _).bind
    intro found
    apply (reads_orThrow _ found).bind
    intro ownerRole
    apply (reads_query hcount _).bind
    intro activeOwnerCount
    split <;> rfl

/-- The revocation's transaction is its final write; without the row it is undone. -/
theorem follows_revokeFirmStaff (firmId id : Uuid) :
    (Firm.revokeFirmStaff firmId id).Follows (Step (firmStaff.contest id .transaction)) Ends .reading := by
  apply Reads.follows_bind (C := firmStaff.contest id .transaction)
  · apply (reads_query (by simp [StaffTable.contest]) _).bind
    intro found
    exact reads_ownedBy _ firmId _ found
  · intro membership
    apply (reads_assertNotLastOwner (by simp [StaffTable.contest]) (by simp [StaffTable.contest]) _ _ _).follows_bind
    intro _ s
    dsimp only
    rw [Firm.run_revocation,TableRef.updateReply]
    cases hf : s.org.firmMemberships.find? (fun m => m.id = id) with
    | none =>
      have hnone : (firmStaff.contest id .transaction).status s = none := status_of_none (T := firmStaff) hf
      exact ⟨.refused,.lost hnone ⟨by simp [hnone],fun h => h⟩,.inr (.inr rfl)⟩
    | some m =>
      have hput : ∀ t, t.org.firmMemberships = Table.updateMany (fun m => m.id = id) Firm.revokeMember
          s.org.firmMemberships → (firmStaff.contest id .transaction).Puts .revoked s t := fun t ht =>
        puts_status (T := firmStaff) (f := Firm.revokeMember) (fun _ => rfl) (fun _ => rfl) ht
      exact ⟨.settled,.settled (by simp [status_of_some (T := firmStaff) hf]) (hput _ rfl),.inr rfl⟩

/-! ## All interleavings -/

theorem isPendingOf_eq_true {userId id : Uuid} {r : UserCompanyRole} (h : isPendingOf userId id r = true) :
    r.id = id ∧ r.status = .pending := by
  simp only [isPendingOf,Bool.and_eq_true,decide_eq_true_eq] at h
  exact ⟨h.1.1,h.2⟩

theorem firm_isPendingOf_eq_true {userId id : Uuid} {m : FirmMembership} (h : Firm.isPendingOf userId id m = true) :
    m.id = id ∧ m.status = .pending := by
  simp only [Firm.isPendingOf,Bool.and_eq_true,decide_eq_true_eq] at h
  exact ⟨h.1.1,h.2⟩

/-- Two threads before their first statements. -/
theorem followsContest_pair {C : Contest Store Label κ} {p₀ p₁ : Request Unit} {s : Store}
    (h₀ : p₀.Follows (Step C) Ends .checking) (h₁ : p₁.Follows (Step C) Ends .reading) :
    FollowsContest C (⟨s,[p₀,p₁]⟩ : Config Store Label ApiException Unit) .checking .reading := by
  refine ⟨rfl,?_⟩
  intro i φ p hφ hp
  match i with
  | 0 =>
    obtain rfl : .checking = φ := by simpa using hφ
    obtain rfl : p₀ = p := by simpa using hp
    exact h₀
  | 1 =>
    obtain rfl : .reading = φ := by simpa using hφ
    obtain rfl : p₁ = p := by simpa using hp
    exact h₁
  | i + 2 => simp at hφ

/-- An active row with the id, where ids are unique. -/
theorem active_iff {T : StaffTable ρ κ} {id : Uuid} {revocation : Label} {s : Store}
    (hkeyed : (T.contest id revocation).Keyed s) :
    (T.contest id revocation).status s = some T.active ↔ ∃ r ∈ T.table.get s, T.id r = id ∧ T.status r = T.active := by
  constructor
  · intro h
    obtain ⟨r,hr,hact⟩ := Option.map_eq_some_iff.mp h
    obtain ⟨hmem,hid⟩ := Table.find?_key_some hr
    exact ⟨r,hmem,hid,hact⟩
  · rintro ⟨r,hr,rfl,hact⟩
    rw [status_of_some (Table.find?_of_mem hkeyed hr),hact]

theorem staysRevoked_and_apart {T : StaffTable ρ κ} {id : Uuid} {revocation : Label} {p₀ p₁ : Request Unit} {s : Store}
    {tr : List (ℕ × Label)} {d : Config Store Label ApiException Unit} (hpending : T.revoked ≠ T.pending)
    (hactive : T.revoked ≠ T.active) (h₀ : p₀.Follows (Step (T.contest id revocation)) Ends .checking)
    (h₁ : p₁.Follows (Step (T.contest id revocation)) Ends .reading) (hs : ((T.table.get s).map T.id).Nodup)
    (h : Steps ⟨s,[p₀,p₁]⟩ tr d) :
    ((∀ tr₁ tr₂ c p, tr = tr₁ ++ (1,revocation) :: tr₂ → Steps ⟨s,[p₀,p₁]⟩ tr₁ c → c.threads[0]? = some p →
        p.head? ≠ some (.on T.table.entity .update)) →
      ∀ tr₁ tr₂ c, tr = tr₁ ++ tr₂ → Steps ⟨s,[p₀,p₁]⟩ tr₁ c → c.Succeeded 1 →
        ¬ ∃ r ∈ T.table.get c.state, T.id r = id ∧ T.status r = T.active) ∧
      (d.Completed → (∀ tr₁ tr₂ c, tr = tr₁ ++ tr₂ → Steps ⟨s,[p₀,p₁]⟩ tr₁ c → c.Succeeded 1 →
          ¬ ∃ r ∈ T.table.get c.state, T.id r = id ∧ T.status r = T.active) →
        ∀ tr₁ tr₂ c p, tr = tr₁ ++ (1,revocation) :: tr₂ → Steps ⟨s,[p₀,p₁]⟩ tr₁ c → c.threads[0]? = some p →
          p.head? ≠ some (.on T.table.entity .update)) := by
  have hf := followsContest_pair (s := s) h₀ h₁
  obtain ⟨hstands,happart⟩ := stands_and_apart hs hpending hactive hf h
  constructor
  · intro hapart tr₁ tr₂ c htr hc hset hact
    refine hstands ?_ tr₁ tr₂ c htr hc hset ((active_iff (keyed_of_steps hf hc hs)).mpr hact)
    rintro tr₁ tr₂ c htr hc ⟨p,hp,hhead⟩
    exact hapart tr₁ tr₂ c p htr hc hp hhead
  · intro hd hstays tr₁ tr₂ c p htr hc hp hhead
    refine happart hd ?_ tr₁ tr₂ c htr hc ⟨p,hp,hhead⟩
    intro tr₁ tr₂ c htr hc hset hact
    exact hstays tr₁ tr₂ c htr hc hset ((active_iff (keyed_of_steps hf hc hs)).mp hact)

/-- For every interleaving of an acceptance and a revocation of one invitation, the role
or membership is not active once the revocation has gone through, exactly when the
revocation did not write between the check and the write of the acceptance. -/
theorem staysRevoked_iff_revokedApart (r : StaffRace) (s : Store) (tr : List (ℕ × Label))
    (d : Config Store Label ApiException Unit) (hs : KeyedStaff s) (h : Steps (r.start s) tr d) :
    (r.RevokedApart s tr → r.StaysRevoked s tr) ∧ (d.Completed → r.StaysRevoked s tr → r.RevokedApart s tr) := by
  cases r with
  | company userId companyId id now =>
    have haccept : (acceptInvitation userId id now).Follows
        (Step (companyStaff.contest id (.on .userCompanyRole .update))) Ends .checking :=
      follows_accept (T := companyStaff) (f := activate now) (fun _ => isPendingOf_eq_true) (fun _ => rfl) fun _ => rfl
    exact staysRevoked_and_apart (T := companyStaff) (by decide) (by decide) (Ends.discard haccept)
      (Ends.discard (follows_revokeStaff companyId id)) hs.userCompanyRoles h
  | firm userId firmId id now =>
    have haccept : (Firm.acceptFirmInvitation userId id now).Follows (Step (firmStaff.contest id .transaction)) Ends
        .checking :=
      follows_accept (T := firmStaff) (f := Firm.activate now) (fun _ => firm_isPendingOf_eq_true) (fun _ => rfl)
        fun _ => rfl
    exact staysRevoked_and_apart (T := firmStaff) (by decide) (by decide) (Ends.discard haccept)
      (Ends.discard (follows_revokeFirmStaff firmId id)) hs.firmMemberships h

/-- One user with an open invitation to a company and one to a firm. -/
def invitedStore : Store where
  identity.roles := [⟨1,"business_owner",[]⟩,⟨2,"bookkeeper",[]⟩]
  org :=
    { firmRoles := [⟨1,"firm_owner",[]⟩,⟨2,"firm_bookkeeper",[]⟩]
      firmMemberships := [{ id := 20, firmId := 100, userId := 3, firmRoleId := 2, invitedAt := 0 }]
      userCompanyRoles := [{ id := 10, userId := 3, companyId := 9, roleId := 2 }] }

def companyRace : StaffRace := .company 3 9 10 500

def firmRace : StaffRace := .firm 3 100 20 500

theorem keyedStaff_invitedStore : KeyedStaff invitedStore := ⟨by decide,by decide⟩

/-- The acceptance first, then the revocation. -/
theorem staysRevoked_iff_revokedApart_sequential :
    (∃ tr d, Steps (companyRace.start invitedStore) tr d ∧ d.Succeeded 1 ∧
      (companyRace.RevokedApart invitedStore tr → companyRace.StaysRevoked invitedStore tr) ∧
      (companyRace.StaysRevoked invitedStore tr → companyRace.RevokedApart invitedStore tr)) ∧
    ∃ tr d, Steps (firmRace.start invitedStore) tr d ∧ d.Succeeded 1 ∧
      (firmRace.RevokedApart invitedStore tr → firmRace.StaysRevoked invitedStore tr) ∧
      (firmRace.StaysRevoked invitedStore tr → firmRace.RevokedApart invitedStore tr) := by
  constructor
  · obtain ⟨tr,d,h,hd,hset⟩ : ∃ tr d, Steps (companyRace.start invitedStore) tr d ∧ d.Completed ∧ d.Succeeded 1 :=
      Steps.exists_of_play [0,0,1,1] (by decide +kernel)
    obtain ⟨hstays,hapart⟩ := staysRevoked_iff_revokedApart companyRace invitedStore tr d keyedStaff_invitedStore h
    exact ⟨tr,d,h,hset,hstays,hapart hd⟩
  · obtain ⟨tr,d,h,hd,hset⟩ : ∃ tr d, Steps (firmRace.start invitedStore) tr d ∧ d.Completed ∧ d.Succeeded 1 :=
      Steps.exists_of_play [0,0,1,1] (by decide +kernel)
    obtain ⟨hstays,hapart⟩ := staysRevoked_iff_revokedApart firmRace invitedStore tr d keyedStaff_invitedStore h
    exact ⟨tr,d,h,hset,hstays,hapart hd⟩

/-- The acceptance reads the pending row, the revocation runs, and the acceptance
activates what was revoked. -/
theorem invitedStore_not_staysRevoked :
    KeyedStaff invitedStore ∧
      (∃ tr d, Steps (companyRace.start invitedStore) tr d ∧ d.Completed ∧ ¬ companyRace.StaysRevoked invitedStore tr) ∧
      ∃ tr d, Steps (firmRace.start invitedStore) tr d ∧ d.Completed ∧ ¬ firmRace.StaysRevoked invitedStore tr := by
  refine ⟨keyedStaff_invitedStore,?_,?_⟩
  · obtain ⟨tr,d,h,hd,hset,hact⟩ : ∃ tr d, Steps (companyRace.start invitedStore) tr d ∧ d.Completed ∧
        d.Succeeded 1 ∧ ∃ q ∈ d.state.org.userCompanyRoles, q.id = 10 ∧ q.status = .active :=
      Steps.exists_of_play [0,1,1,0] (by decide +kernel)
    exact ⟨tr,d,h,hd,fun hstays => hstays tr [] d (by simp) h hset hact⟩
  · obtain ⟨tr,d,h,hd,hset,hact⟩ : ∃ tr d, Steps (firmRace.start invitedStore) tr d ∧ d.Completed ∧
        d.Succeeded 1 ∧ ∃ m ∈ d.state.org.firmMemberships, m.id = 20 ∧ m.status = .active :=
      Steps.exists_of_play [0,1,1,0] (by decide +kernel)
    exact ⟨tr,d,h,hd,fun hstays => hstays tr [] d (by simp) h hset hact⟩

end PinoyTax.Org
