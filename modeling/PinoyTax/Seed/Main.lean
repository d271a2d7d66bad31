import PinoyTax.Identity.Registration
import PinoyTax.Seed.TaxRules

/-! # The seed as a whole

The process seeds the roles of companies, those of firms and the tax rules, and then the
administrator, and exits with 0, or with 1 when a statement throws. Seeds may overlap with each
other and with everything else that leaves the seeded tables alone.
-/
namespace PinoyTax.Seed
open PinoyTax Foundation TaxEngine

/-- Without both variables there is no administrator to seed. -/
def seedPlatformAdmin (env : Identity.AuthEnv) (email password : Option String) (adminId : Uuid) : Request Unit :=
  match email.filter (fun e => e ≠ ""), password.filter (fun p => p ≠ "") with
  | some email, some password => Identity.seedPlatformAdminOnBoot env email password adminId
  | _, _ => pure ()

/-- `process.env` of a seed, and the ids it draws. -/
structure SeedCall where
  email : Option String := none
  password : Option String := none
  draw : SeedDraw

/-- The exit code. -/
def main (env : Identity.AuthEnv) (call : SeedCall) : Request ℕ :=
  Prog.rescue (do
    seedRolesAndPermissions call.draw
    seedFirmRolesAndPermissions call.draw
    seedTaxRules call.draw
    seedPlatformAdmin env call.email call.password call.draw.adminId
    pure 0) fun _ => pure 1

/-- The roles that companies give to users. -/
def companyRoleCodes : List String := ["business_owner","accountant","bookkeeper"]

/-- Whoever has a role on a company has one of these. -/
def Staffed (s : Store) : Prop :=
  ∀ r ∈ s.org.userCompanyRoles, ∃ role ∈ s.identity.roles, role.id = r.roleId ∧ role.code ∈ companyRoleCodes

/-- The keys of the tables that the seed fills. -/
structure SeedKeys (s : Store) : Prop where
  company : (companyRoles.get s).Keyed
  firm : (firmRoles.get s).Keyed
  rules : RuleKeys (taxRules.get s)

structure SetUp (s : Store) : Prop where
  company : (Catalogue.provisioning permissions rolePermissions).Inv (companyRoles.get s)
  firm : (Catalogue.provisioning firmPermissions firmRolePermissions).Inv (firmRoles.get s)
  rules : (ruleSeeding seededRules).Inv (taxRules.get s)
  staff : Staffed s

structure SetUpLater (s t : Store) : Prop where
  company : (Catalogue.provisioning permissions rolePermissions).Later (companyRoles.get s) (companyRoles.get t)
  firm : (Catalogue.provisioning firmPermissions firmRolePermissions).Later (firmRoles.get s) (firmRoles.get t)
  rules : (ruleSeeding seededRules).Later (taxRules.get s) (taxRules.get t)

def settingUp : Discipline Store where
  Inv := SetUp
  Admits := SeedKeys
  Later := SetUpLater
  refl _ := ⟨Discipline.refl _ _,Discipline.refl _ _,Discipline.refl _ _⟩
  trans h h' := ⟨Discipline.trans _ h.company h'.company,Discipline.trans _ h.firm h'.firm,
    Discipline.trans _ h.rules h'.rules⟩

/-- All that the seed is for is there. -/
structure Ready (s : Store) : Prop where
  company : Catalogue.Provisioned permissions rolePermissions (companyRoles.get s)
  firm : Catalogue.Provisioned firmPermissions firmRolePermissions (firmRoles.get s)
  rules : ∀ sr ∈ seededRules, Written sr (taxRules.get s)

/-- The seeded tables, and the roles of users. -/
def seededView (s : Store) : Catalogue Uuid String × Catalogue Uuid String × List TaxRule :=
  (companyRoles.get s,firmRoles.get s,taxRules.get s)

section
variable {s t : Store}

theorem SetUpLater.of_view (h : seededView t = seededView s) : SetUpLater s t := by
  simp only [seededView,Prod.mk.injEq] at h
  obtain ⟨hcompany,hfirm,hrules⟩ := h
  refine ⟨?_,?_,?_⟩
  · rw [hcompany]
    exact Discipline.refl _ _
  · rw [hfirm]
    exact Discipline.refl _ _
  · rw [hrules]
    exact Discipline.refl _ _

/-- Roles stay under their ids and codes. -/
theorem SetUpLater.role (h : SetUpLater s t) {role : Role} (hrole : role ∈ s.identity.roles) :
    ∃ role' ∈ t.identity.roles, role'.id = role.id ∧ role'.code = role.code := by
  obtain ⟨g,hg,hid,hcode,-⟩ := h.company.1.holders (holderOf role) (List.mem_map_of_mem hrole)
  obtain ⟨role',hrole',rfl⟩ := List.mem_map.mp hg
  exact ⟨role',hrole',hid,hcode⟩

theorem Staffed.later (hs : Staffed s) (h : SetUpLater s t) (hsame : t.org.userCompanyRoles = s.org.userCompanyRoles) :
    Staffed t := by
  intro r hr
  rw [hsame] at hr
  obtain ⟨role,hrole,hid,hcode⟩ := hs r hr
  obtain ⟨role',hrole',hid',hcode'⟩ := h.role hrole
  exact ⟨role',hrole',hid'.trans hid,hcode' ▸ hcode⟩

/-- What leaves the seeded tables alone keeps the set-up, as far as staff is concerned too. -/
theorem SetUp.of_view (hs : SetUp s) (h : seededView t = seededView s) (hstaff : Staffed t) : SetUp t := by
  simp only [seededView,Prod.mk.injEq] at h
  obtain ⟨hcompany,hfirm,hrules⟩ := h
  exact ⟨hcompany ▸ hs.company,hfirm ▸ hs.firm,hrules ▸ hs.rules,hstaff⟩

/-! ## One seed -/

theorem Ready.later (hs : Ready s) (h : SetUpLater s t) : Ready t := by
  refine ⟨hs.company.later h.company,hs.firm.later h.firm,?_⟩
  rw [h.rules.complete hs.rules]
  exact hs.rules

end
end PinoyTax.Seed
