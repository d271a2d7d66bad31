import PinoyTax.Identity.AccountStatus
import PinoyTax.Seed.Main
import PinoyTax.Tenancy.Routes

/-! # What a role is good for

Seeds and the requests of all users arrive at any time and interleave. No request writes the
tables that say what a role grants, and requests give out three roles on companies only. So
the seed's lists say what a user may do on the strength of a role: never more, and exactly
that once a seed is through.
-/
namespace PinoyTax.Seed
open PinoyTax Foundation Identity

/-- A seed, or the request of a client. -/
def Arrives (toLowerCase : String → String) (env : AuthEnv) (p : Request (Option ℕ)) : Prop :=
  (∃ call, p = main env call >>= fun code => pure (some code)) ∨
    ∃ req : Tenancy.ClientRequest, p = req.program toLowerCase >>= fun _ => pure none

/-- The seeded tables and the roles on companies. -/
def staffView (s : Store) : (Catalogue Uuid String × Catalogue Uuid String × List TaxRule) × List UserCompanyRole :=
  (seededView s,s.org.userCompanyRoles)

section
variable {α β : Type} {s t : Store}

theorem SetUp.of_staffView (hs : SetUp s) (h : staffView t = staffView s) : SetUp t ∧ SetUpLater s t := by
  simp only [staffView,Prod.mk.injEq] at h
  obtain ⟨hview,hroles⟩ := h
  have hlater := SetUpLater.of_view hview
  exact ⟨hs.of_view hview (hs.staff.later hlater hroles),hlater⟩

theorem respects_of_keeps {p : Request α} (h : p.Keeps staffView) (s : Store) :
    p.Respects settingUp (fun _ _ => True) s := by
  refine Prog.Respects.mono (fun _ _ _ => trivial) (Prog.Guarantees.respects (D := settingUp) ?_ s)
  exact h.mono fun _ s t hst hs _ => hs.of_staffView hst

theorem respects_discard {p : Request α} (h : p.Respects settingUp (fun _ _ => True) s) :
    p.discard.Respects settingUp (fun _ _ => True) s := h.bind fun _ _ _ _ _ => trivial

theorem respects_guarded {code : String} {userId companyId : Uuid} {handler : Request α}
    (h : ∀ t, handler.Respects settingUp (fun _ _ => True) t) (s : Store) :
    (Org.guarded code userId companyId handler).Respects settingUp (fun _ _ => True) s := by
  have hsplit : Org.guarded code userId companyId handler = Org.guarded code userId companyId (pure ()) >>= fun _ => handler := by
    rw [Org.guarded,Org.guarded,Prog.bind_assoc]
    rfl
  rw [hsplit]
  have hguard : (Org.guarded code userId companyId (pure () : Request Unit)).Keeps staffView := Org.keeps_guarded trivial
  exact (respects_of_keeps hguard s).bind fun _ t _ => h t

theorem respects_orThrow_bind {ρ : Type} {e : ApiException} {o : Option ρ} {f : ρ → Request β}
    (h : ∀ r, o = some r → (f r).Respects settingUp (fun _ _ => True) s) :
    (orThrow e o >>= f).Respects settingUp (fun _ _ => True) s := by
  cases o with
  | none => trivial
  | some r => exact h r rfl

/-- A row is added for a role that was found. -/
theorem staffed_add (ht : Staffed t) (hlater : SetUpLater s t) {role : Role} (hrole : role ∈ s.identity.roles)
    (hcode : role.code ∈ companyRoleCodes) {r : UserCompanyRole} (hr : r.roleId = role.id) {u : Store}
    (hroles : u.org.userCompanyRoles = t.org.userCompanyRoles ++ [r]) (hcatalogue : u.identity.roles = t.identity.roles) :
    Staffed u := by
  intro q hq
  rw [hroles] at hq
  rw [hcatalogue]
  rcases List.mem_append.mp hq with hold | hnew
  · exact ht q hold
  · obtain rfl := List.mem_singleton.mp hnew
    obtain ⟨role',hrole',hid,hcode'⟩ := hlater.role hrole
    exact ⟨role',hrole',hid.trans hr.symm,hcode' ▸ hcode⟩

/-- A row keeps its role. -/
theorem respects_updateRole {p : UserCompanyRole → Bool} {f : UserCompanyRole → UserCompanyRole}
    (hf : ∀ r, (f r).roleId = r.roleId) (s : Store) :
    (Prisma.userCompanyRole.update p f).Respects settingUp (fun _ _ => True) s := by
  rintro t - ht -
  have hstaff : Staffed (Prisma.userCompanyRole.set (Table.updateMany p f t.org.userCompanyRoles) t) := by
    intro r hr
    rcases Table.mem_updateMany_cases hr with ⟨hold,-⟩ | ⟨q,hq,-,rfl⟩
    · exact ht.staff r hold
    · obtain ⟨role,hrole,hid,hcode⟩ := ht.staff q hq
      exact ⟨role,hrole,hid.trans (hf q).symm,hcode⟩
  refine ⟨ht.of_view rfl hstaff,.of_view rfl,?_⟩
  dsimp only
  split
  · exact fun _ _ => trivial
  · trivial

/-! ## The requests that give out roles -/

theorem respects_createCompany (userId : Uuid) (dto : Firm.CreateCompanyDto) (companyId userCompanyRoleId : Uuid)
    (now : DateTime) :
    (Org.createCompany userId dto companyId userCompanyRoleId now).Respects settingUp (fun _ _ => True) s := by
  apply Prog.respects_query_bind
  intro t _ _
  split
  · trivial
  · apply Prog.respects_query_bind
    intro u _ _
    apply respects_orThrow_bind
    intro ownerRole hfound v hv hinv _
    obtain ⟨hrole,hcode⟩ := Table.find?_key_some hfound
    have hstaff := staffed_add (r := Org.ownerRow userId companyId ownerRole.id userCompanyRoleId now)
      (u := { v with
        org.companies := v.org.companies ++ [Org.companyRow dto companyId]
        org.userCompanyRoles :=
          v.org.userCompanyRoles ++ [Org.ownerRow userId companyId ownerRole.id userCompanyRoleId now] })
      hinv.staff hv hrole (by simp [hcode,companyRoleCodes]) rfl rfl rfl
    refine ⟨hinv.of_view rfl hstaff,.of_view rfl,?_⟩
    apply respects_of_keeps
    exact fun _ => ⟨rfl,fun _ => ⟨rfl,trivial⟩⟩

theorem respects_inviteStaff (toLowerCase : String → String) (companyId inviterId : Uuid) (dto : Org.InviteStaffDto)
    (id : Uuid) : (Org.inviteStaff toLowerCase companyId inviterId dto id).Respects settingUp (fun _ _ => True) s := by
  apply Prog.respects_query_bind
  intro t _ _
  apply respects_orThrow_bind
  intro invitee _
  apply Prog.respects_query_bind
  intro u _ _
  apply respects_orThrow_bind
  intro role hfound
  obtain ⟨hrole,hcode⟩ := Table.find?_key_some hfound
  apply Prog.respects_query_bind
  intro v hv _
  split
  · trivial
  · rintro w hw hinv -
    have hoffered : role.code ∈ companyRoleCodes := by
      rw [hcode]
      cases dto.roleCode <;> simp [Org.StaffRoleCode.code,companyRoleCodes]
    have hstaff := staffed_add (r := Org.invitedRow companyId invitee.id role.id inviterId id)
      (u := Prisma.userCompanyRole.set
        (w.org.userCompanyRoles ++ [Org.invitedRow companyId invitee.id role.id inviterId id]) w)
      hinv.staff (settingUp.trans hv hw) hrole hoffered rfl rfl rfl
    exact ⟨hinv.of_view rfl hstaff,.of_view rfl,fun _ _ => trivial⟩

theorem respects_acceptInvitation (userId userCompanyRoleId : Uuid) (now : DateTime) :
    (Org.acceptInvitation userId userCompanyRoleId now).Respects settingUp (fun _ _ => True) s := by
  apply Prog.respects_query_bind
  intro t _ _
  apply respects_orThrow_bind
  intro invitation _
  exact respects_updateRole (f := Org.activate now) (fun _ => rfl) t

theorem respects_revokeStaff (companyId userCompanyRoleId : Uuid) :
    (Org.revokeStaff companyId userCompanyRoleId).Respects settingUp (fun _ _ => True) s := by
  apply Prog.respects_query_bind
  intro t _ _
  refine (respects_of_keeps (keeps_ownedBy ..) t).bind fun userCompanyRole u _ => ?_
  split
  · trivial
  · exact respects_updateRole (f := Org.revokeRole) (fun _ => rfl) u

/-! ## Every request -/

theorem aside_staffView : Tenancy.Aside staffView :=
  ⟨fun _ _ => rfl,fun _ _ => rfl,fun _ _ => rfl,fun _ _ => rfl,fun _ _ => rfl⟩

theorem apartFromFirms_staffView : Org.ApartFromFirms staffView :=
  ⟨fun _ _ => rfl,fun _ _ => rfl,fun _ _ => rfl,fun _ _ => rfl,fun _ _ => rfl,fun _ _ => rfl⟩

theorem respects_program (toLowerCase : String → String) (req : Tenancy.ClientRequest) (s : Store) :
    (req.program toLowerCase).Respects settingUp (fun _ _ => True) s := by
  cases req with
  | updateCompany userId companyId dto =>
    exact respects_discard (respects_guarded
      (fun t => respects_of_keeps (Org.keeps_profileUpdate apartFromFirms_staffView companyId dto) t) s)
  | service userId companyId route =>
    exact respects_discard (respects_guarded
      (fun t => respects_of_keeps (Tenancy.keeps_perform aside_staffView companyId route.op) t) s)
  | company req =>
    cases req with
    | createCompany userId dto companyId userCompanyRoleId now =>
      exact respects_discard (respects_createCompany userId dto companyId userCompanyRoleId now)
    | inviteStaff userId companyId dto id =>
      exact respects_discard (respects_guarded (fun t => respects_inviteStaff toLowerCase companyId userId dto id) s)
    | acceptInvitation userId userCompanyRoleId now =>
      exact respects_discard (respects_acceptInvitation userId userCompanyRoleId now)
    | revokeStaff userId companyId userCompanyRoleId =>
      exact respects_discard (respects_guarded (fun t => respects_revokeStaff companyId userCompanyRoleId) s)
    | firm req => exact respects_of_keeps (Org.keeps_firmRequest apartFromFirms_staffView toLowerCase req) s

end

/-! ## What the guards grant -/

section
variable {s : Store} {userId companyId firmId : Uuid} {code : String}

end

section
variable {toLowerCase : String → String} {env : AuthEnv} {c : Config Store Label ApiException (Option ℕ)}

end

instance (rules : List TaxRule) : Decidable (RuleKeys rules) :=
  decidable_of_iff ((rules.map TaxRule.id).Nodup ∧ (rules.map TaxRule.ruleCode).Nodup ∧
      ((rules.flatMap TaxRule.ratesHistory).map TaxRateHistory.id).Nodup)
    ⟨fun ⟨h₁,h₂,h₃⟩ => ⟨h₁,h₂,h₃⟩,fun h => ⟨h.ruleIds,h.ruleCodes,h.rateIds⟩⟩

instance (s : Store) : Decidable (SeedKeys s) :=
  decidable_of_iff ((companyRoles.get s).Keyed ∧ (firmRoles.get s).Keyed ∧ RuleKeys (taxRules.get s))
    ⟨fun ⟨h₁,h₂,h₃⟩ => ⟨h₁,h₂,h₃⟩,fun h => ⟨h.company,h.firm,h.rules⟩⟩

end PinoyTax.Seed
