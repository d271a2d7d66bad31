import PinoyTax.Foundation.Catalogue
import PinoyTax.Schema.Prisma

/-! # The roles of the seed

The permissions of companies and of firms, and the roles that grant them. The labels and the
names that the seed writes beside the codes are columns that nothing else reads.
-/
namespace PinoyTax.Seed
open PinoyTax Foundation

def permissions : List String :=
  ["company:read","company:write","staff:invite","payroll:read","payroll:write","payroll:finalize","tax:compute",
    "tax:confirm","compliance:read","compliance:write","documents:read","documents:write","ai_assistant:use"]

def rolePermissions : List (String × List String) :=
  [("business_owner",["company:read","company:write","staff:invite","payroll:read","compliance:read","documents:read",
      "documents:write","ai_assistant:use"]),
    ("accountant",["company:read","payroll:read","payroll:write","payroll:finalize","tax:compute","tax:confirm",
      "compliance:read","compliance:write","documents:read","documents:write","ai_assistant:use"]),
    ("bookkeeper",["company:read","payroll:read","payroll:write","tax:compute","compliance:read","documents:read",
      "documents:write","ai_assistant:use"]),
    ("firm_admin",["company:read","company:write","staff:invite","payroll:read","payroll:write","payroll:finalize",
      "tax:compute","tax:confirm","compliance:read","compliance:write","documents:read","documents:write",
      "ai_assistant:use"]),
    ("administrator",permissions)]

def firmPermissions : List String :=
  ["firm:dashboard:view","firm:manage","firm:staff:invite","firm:staff:manage_roles","firm:clients:manage",
    "firm:clients:assign","firm:billing:manage"]

def firmRolePermissions : List (String × List String) :=
  [("firm_owner",firmPermissions),
    ("firm_admin",firmPermissions.filter fun c => c ≠ "firm:billing:manage"),
    ("firm_accountant",["firm:dashboard:view"]),
    ("firm_bookkeeper",["firm:dashboard:view"]),
    ("firm_auditor",["firm:dashboard:view"])]

/-! ## The tables -/

def entryOf (p : Permission) : Grantable Uuid String := ⟨p.id,p.code⟩
def holderOf (r : Role) : Grantee Uuid String := ⟨r.id,r.code,r.permissionIds⟩
def permissionOf (e : Grantable Uuid String) : Permission := ⟨e.id,e.code⟩
def roleOf (h : Grantee Uuid String) : Role := ⟨h.id,h.code,h.entryIds⟩

/-- `permissions`, `roles` and `role_permissions`. -/
def companyRoles : Part Store (Catalogue Uuid String) where
  get s := ⟨s.identity.permissions.map entryOf,s.identity.roles.map holderOf⟩
  set c s := { s with
    identity.permissions := c.entries.map permissionOf
    identity.roles := c.holders.map roleOf }
  get_set c s := by simp [Function.comp_def,entryOf,permissionOf,holderOf,roleOf]
  set_get s := by simp [Function.comp_def,entryOf,permissionOf,holderOf,roleOf]
  set_set c d s := rfl

def firmEntryOf (p : FirmPermission) : Grantable Uuid String := ⟨p.id,p.code⟩
def firmHolderOf (r : FirmRole) : Grantee Uuid String := ⟨r.id,r.code,r.firmPermissionIds⟩
def firmPermissionOf (e : Grantable Uuid String) : FirmPermission := ⟨e.id,e.code⟩
def firmRoleOf (h : Grantee Uuid String) : FirmRole := ⟨h.id,h.code,h.entryIds⟩

/-- `firm_permissions`, `firm_roles` and `firm_role_permissions`. -/
def firmRoles : Part Store (Catalogue Uuid String) where
  get s := ⟨s.org.firmPermissions.map firmEntryOf,s.org.firmRoles.map firmHolderOf⟩
  set c s := { s with
    org.firmPermissions := c.entries.map firmPermissionOf
    org.firmRoles := c.holders.map firmRoleOf }
  get_set c s := by simp [Function.comp_def,firmEntryOf,firmPermissionOf,firmHolderOf,firmRoleOf]
  set_get s := by simp [Function.comp_def,firmEntryOf,firmPermissionOf,firmHolderOf,firmRoleOf]
  set_set c d s := rfl

/-- A grant is kept on the row of its role. -/
def roleLabel : CatalogueStep → Label
  | .upsertEntry => .on .permission .upsert
  | .upsertHolder => .on .role .upsert
  | .findEntry => .on .permission .findUnique
  | .upsertGrant => .on .role .upsert

def firmRoleLabel : CatalogueStep → Label
  | .upsertEntry => .on .firmPermission .upsert
  | .upsertHolder => .on .firmRole .upsert
  | .findEntry => .on .firmPermission .findUnique
  | .upsertGrant => .on .firmRole .upsert

/-- The ids that new rows get. -/
structure SeedDraw where
  permissionIds : String → Uuid
  roleIds : String → Uuid
  firmPermissionIds : String → Uuid
  firmRoleIds : String → Uuid
  ruleIds : String → Uuid
  adminId : Uuid

def seedRolesAndPermissions (draw : SeedDraw) : Request Unit :=
  (Catalogue.provision .database permissions rolePermissions draw.permissionIds draw.roleIds).zoom companyRoles roleLabel

def seedFirmRolesAndPermissions (draw : SeedDraw) : Request Unit :=
  (Catalogue.provision .database firmPermissions firmRolePermissions draw.firmPermissionIds draw.firmRoleIds).zoom
    firmRoles firmRoleLabel

/-! ## Both tables are consistent -/

end PinoyTax.Seed
