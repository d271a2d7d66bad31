import PinoyTax.Tenancy.Reachable

/-! # Tenant isolation

Two reachable stores with the same rows of a company are told apart by no operation that
is called with the company, and an operation touches no row of another company. What
another company owns might as well not exist.
-/
namespace PinoyTax.Tenancy
open PinoyTax Foundation

/-- The company's rows, the users and the tax rules of the store, and no messages. -/
def rowsOf (companyId : Uuid) (s : Store) : Store := restrict companyId (eventsOf companyId s).length s

/-- The company's rows, the users and the tax rules after a request, and the messages about
the company that it sent. -/
def outcomeOf (companyId : Uuid) (s t : Store) : Store := restrict companyId (eventsOf companyId s).length t

theorem tenant_isolation (companyId : Uuid) (op : TenantOperation) {s t : Store} (hs : Reachable s)
    (ht : Reachable t) (hfs : op.Fresh s) (hft : op.Fresh t) (hsame : rowsOf companyId s = rowsOf companyId t) :
    ((op.perform companyId).run s).1 = ((op.perform companyId).run t).1 ∧
      outcomeOf companyId s ((op.perform companyId).run s).2 =
        outcomeOf companyId t ((op.perform companyId).run t).2 ∧
      (∀ cut, Confined companyId s ((op.perform companyId).leaves cut s)) ∧
      ((op.perform companyId).run (rowsOf companyId s)).1 = ((op.perform companyId).run s).1 := by
  have hps : Announcing companyId (eventsOf companyId s).length s ∧ op.Fresh s := ⟨⟨hs.wellFormed,le_rfl⟩,hfs⟩
  have hpt : Announcing companyId (eventsOf companyId t).length t ∧ op.Fresh t := ⟨⟨ht.wellFormed,le_rfl⟩,hft⟩
  have hiso := TenantOperation.isolates_perform companyId (eventsOf companyId s).length op
  have hiso' := TenantOperation.isolates_perform companyId (eventsOf companyId t).length op
  obtain ⟨hreply,hrows⟩ := hiso.agree hiso' hps hpt hsame
  have halone := congrArg Prod.fst (hiso.commutes s hps)
  exact ⟨hreply,hrows,(hiso.allowed s hps).leaves,halone⟩

/-- A store in which only another company has a folder. -/
def foreignStore : Store where
  documents := { folders := [{ id := 7, companyId := 2, name := "Contracts" }] }

theorem reachable_start : Reachable {} := ⟨[],.start ⟨rfl,rfl,rfl,rfl⟩⟩

theorem reachable_foreignStore : Reachable foreignStore := by
  have harrive : Reached Start Constraints Arrives Outside
      ⟨{},[((TenantOperation.createFolder ⟨"Contracts",none⟩ 7).perform 2).discard]⟩ :=
    .arrive (.start ⟨rfl,rfl,rfl,rfl⟩) ⟨2,_,rfl⟩
  have hadmits : Constraints foreignStore := by constructor <;> simp [foreignStore]
  exact ⟨_,.execute (i := 0) harrive rfl hadmits⟩

/-- The other company's folder is no more a parent folder than one that does not exist. -/
theorem tenant_isolation_foreignFolder :
    let op := TenantOperation.createFolder ⟨"Returns",some 7⟩ 9
    ((op.perform 1).run foreignStore).1 = ((op.perform 1).run {}).1 ∧
      outcomeOf 1 foreignStore ((op.perform 1).run foreignStore).2 = outcomeOf 1 {} ((op.perform 1).run {}).2 ∧
      (∀ cut, Confined 1 foreignStore ((op.perform 1).leaves cut foreignStore)) ∧
      ((op.perform 1).run (rowsOf 1 foreignStore)).1 = ((op.perform 1).run foreignStore).1 :=
  tenant_isolation 1 _ reachable_foreignStore reachable_start
    (by simp [TenantOperation.Fresh,Unused,folders,Prisma.folder,foreignStore])
    (by simp [TenantOperation.Fresh,Unused,folders,Prisma.folder]) rfl

end PinoyTax.Tenancy
