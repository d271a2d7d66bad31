import PinoyTax.Schema.Prisma

/-! # BranchService

The branches of the companies are a table of their own, beside the store.
-/
namespace PinoyTax.Org
open PinoyTax Foundation

inductive BranchStatus | active | inactive
deriving DecidableEq, Repr

structure Branch where
  id : Uuid
  companyId : Uuid
  branchName : String
  branchAddress : Option String := none
  rdoCode : Option String := none
  status : BranchStatus := .active
deriving DecidableEq, Repr

structure CreateBranchDto where
  branchName : String
  branchAddress : Option String := none
  rdoCode : Option String := none
deriving DecidableEq, Repr

structure UpdateBranchDto where
  branchName : Option String := none
  branchAddress : Option String := none
  rdoCode : Option String := none
  status : Option BranchStatus := none
deriving DecidableEq, Repr

abbrev BranchRequest (α : Type) := Prog (List Branch) Action ApiException α

def branchNotFound : ApiException := .notFound "BRANCH_NOT_FOUND" "Branch not found."

def branchRow (companyId : Uuid) (dto : CreateBranchDto) (id : Uuid) : Branch where
  id := id
  companyId := companyId
  branchName := dto.branchName
  branchAddress := dto.branchAddress
  rdoCode := dto.rdoCode

def createBranch (companyId : Uuid) (dto : CreateBranchDto) (id : Uuid) : BranchRequest Branch :=
  let row := branchRow companyId dto id
  .stmt .create (fun branches => branches ++ [row]) (fun _ => .done (.ok row))

def getBranch (companyId branchId : Uuid) : BranchRequest Branch := do
  match ← .query .findUnique (fun branches => branches.find? (fun b => b.id = branchId)) with
  | some branch => if branch.companyId = companyId then pure branch else .throw branchNotFound
  | none => .throw branchNotFound

/-- A field that is left out stays as it is. -/
def setBranch (dto : UpdateBranchDto) (b : Branch) : Branch :=
  { b with
    branchName := dto.branchName.getD b.branchName
    branchAddress := dto.branchAddress <|> b.branchAddress
    rdoCode := dto.rdoCode <|> b.rdoCode
    status := dto.status.getD b.status }

def updateBranch (companyId branchId : Uuid) (dto : UpdateBranchDto) : BranchRequest Branch := do
  let _ ← getBranch companyId branchId
  .stmt .update (Table.updateMany (fun b => b.id = branchId) (setBranch dto))
    (fun branches => .done (TableRef.updateReply (fun b => b.id = branchId) (setBranch dto) branches))

/-! ## What a success writes -/

section
variable {branches : List Branch} {companyId branchId : Uuid}

theorem ensures_createBranch (dto : CreateBranchDto) (id : Uuid) :
    (createBranch companyId dto id).Ensures (fun _ rows => Table.WritesAt Branch.id id branches rows) branches := by
  exact (Table.Puts.append Branch.id branches (branchRow companyId dto id)).writesAt

theorem run_getBranch_state : ((getBranch companyId branchId).run branches).2 = branches := by
  simp only [getBranch,Prog.run_bind,Prog.run_query,Prog.resume_ok]
  split
  · split <;> rfl
  · rfl

theorem ensures_updateBranch (dto : UpdateBranchDto) :
    (updateBranch companyId branchId dto).Ensures (fun _ rows => Table.WritesAt Branch.id branchId branches rows)
      branches := by
  apply Prog.Ensures.bind_of_reads run_getBranch_state
  intro _ _
  unfold Prog.Ensures
  rw [Prog.run_stmt,Prog.run_done,TableRef.updateReply]
  cases hf : branches.find? (fun b => b.id = branchId) with
  | none => trivial
  | some b =>
    obtain ⟨hb,rfl⟩ := Table.find?_key_some hf
    exact Table.writesAt_updateMany hb (fun r _ hr => of_decide_eq_true hr) fun _ => rfl

end
end PinoyTax.Org
