import PinoyTax.Foundation.Program
import PinoyTax.Foundation.Table
import PinoyTax.Schema.Store

/-! # The database client

Each call of the client is one atomic statement on the store, labelled with its
table and action. A unique lookup and an update by id take the column condition as a
predicate; an update of a missing row is a rejected call. A transaction runs its
body as one statement and leaves nothing behind when the body throws.
-/
namespace PinoyTax
open Foundation

inductive Entity
  | permission | role | user | session | loginHistory | passwordResetToken | emailVerificationToken
  | securityEvent | firmPermission | firmRole | firm | firmMembership | firmCompanyAssignment
  | firmClientInvitation | company | userCompanyRole | employee | payrollRun | payslip | taxRule
  | taxComputation | filingDeadline | complianceStatus | flaggedIssue | folder | vaultDocument
  | documentVersion | notificationPreference | notification
deriving DecidableEq, Repr

inductive Action
  | findUnique | findFirst | findMany | count | create | createMany | update | updateMany | upsert | deleteMany
deriving DecidableEq, Repr

inductive Label
  | on (entity : Entity) (action : Action)
  | transaction
  | publish
  | enqueue
  | upload
  | send
deriving DecidableEq, Repr

abbrev Request (α : Type) := Prog Store Label ApiException α

/-- A table of the store. -/
structure TableRef (ρ : Type) where
  entity : Entity
  get : Store → List ρ
  set : List ρ → Store → Store

namespace TableRef
variable {ρ : Type} (t : TableRef ρ)

def findUnique (p : ρ → Bool) : Request (Option ρ) :=
  .query (.on t.entity .findUnique) (fun s => (t.get s).find? p)

def findFirst (p : ρ → Bool) : Request (Option ρ) :=
  .query (.on t.entity .findFirst) (fun s => (t.get s).find? p)

def findMany (p : ρ → Bool) : Request (List ρ) :=
  .query (.on t.entity .findMany) (fun s => (t.get s).filter p)

def count (p : ρ → Bool) : Request ℕ :=
  .query (.on t.entity .count) (fun s => ((t.get s).filter p).length)

def create (row : ρ) : Request ρ :=
  .stmt (.on t.entity .create) (fun s => t.set (t.get s ++ [row]) s) (fun _ => .done (.ok row))

def createMany (rows : List ρ) : Request Unit :=
  .stmt (.on t.entity .createMany) (fun s => t.set (t.get s ++ rows) s) (fun _ => .done (.ok ()))

def update (p : ρ → Bool) (f : ρ → ρ) : Request ρ :=
  .stmt (.on t.entity .update) (fun s => t.set (Table.updateMany p f (t.get s)) s)
    (fun s => match (t.get s).find? p with
      | some r => .done (.ok (f r))
      | none => .done (.error .database))

def updateMany (p : ρ → Bool) (f : ρ → ρ) : Request Unit :=
  .stmt (.on t.entity .updateMany) (fun s => t.set (Table.updateMany p f (t.get s)) s)
    (fun _ => .done (.ok ()))

def deleteMany (p : ρ → Bool) : Request Unit :=
  .stmt (.on t.entity .deleteMany) (fun s => t.set (Table.deleteMany p (t.get s)) s)
    (fun _ => .done (.ok ()))

variable {t}

@[simp] theorem run_findUnique (p : ρ → Bool) (s : Store) :
    (t.findUnique p).run s = (.ok ((t.get s).find? p),s) := rfl
@[simp] theorem run_findFirst (p : ρ → Bool) (s : Store) :
    (t.findFirst p).run s = (.ok ((t.get s).find? p),s) := rfl
@[simp] theorem run_findMany (p : ρ → Bool) (s : Store) :
    (t.findMany p).run s = (.ok ((t.get s).filter p),s) := rfl
@[simp] theorem run_count (p : ρ → Bool) (s : Store) :
    (t.count p).run s = (.ok ((t.get s).filter p).length,s) := rfl
@[simp] theorem run_create (row : ρ) (s : Store) :
    (t.create row).run s = (.ok row,t.set (t.get s ++ [row]) s) := rfl
@[simp] theorem run_createMany (rows : List ρ) (s : Store) :
    (t.createMany rows).run s = (.ok (),t.set (t.get s ++ rows) s) := rfl
@[simp] theorem run_updateMany (p : ρ → Bool) (f : ρ → ρ) (s : Store) :
    (t.updateMany p f).run s = (.ok (),t.set (Table.updateMany p f (t.get s)) s) := rfl
@[simp] theorem run_deleteMany (p : ρ → Bool) (s : Store) :
    (t.deleteMany p).run s = (.ok (),t.set (Table.deleteMany p (t.get s)) s) := rfl

/-- The reply of an update. -/
def updateReply (p : ρ → Bool) (f : ρ → ρ) (rows : List ρ) : Except ApiException ρ :=
  match rows.find? p with
  | some r => .ok (f r)
  | none => .error .database

theorem update_eq (p : ρ → Bool) (f : ρ → ρ) :
    t.update p f = .stmt (.on t.entity .update) (fun s => t.set (Table.updateMany p f (t.get s)) s)
      (fun s => .done (updateReply p f (t.get s))) := by
  unfold update updateReply
  congr 1
  funext s
  cases (t.get s).find? p <;> rfl

theorem run_update (p : ρ → Bool) (f : ρ → ρ) (s : Store) :
    (t.update p f).run s = (updateReply p f (t.get s),t.set (Table.updateMany p f (t.get s)) s) := by
  rw [update_eq,Prog.run_stmt,Prog.run_done]

@[simp] theorem run_update_state (p : ρ → Bool) (f : ρ → ρ) (s : Store) :
    ((t.update p f).run s).2 = t.set (Table.updateMany p f (t.get s)) s := by rw [run_update]

/-- An update that finds its row replies with the row as updated. -/
theorem run_update_of_find {p : ρ → Bool} {f : ρ → ρ} {s : Store} {r : ρ} (h : (t.get s).find? p = some r) :
    (t.update p f).run s = (.ok (f r),t.set (Table.updateMany p f (t.get s)) s) := by
  rw [run_update,updateReply,h]

end TableRef

/-- A call that may reject; one that rejects has no effect. -/
def failing {α : Type} (fails : Bool) (p : Request α) : Request α := if fails then .throw .database else p

/-- The row a unique lookup must find. -/
def orThrow {ρ : Type} (e : ApiException) : Option ρ → Request ρ
  | some r => .done (.ok r)
  | none => .throw e

/-- `if (!row || row.companyId !== companyId) throw …`, with the owner column given. -/
def ownedBy {ρ : Type} (owner : ρ → Uuid) (ownerId : Uuid) (e : ApiException) : Option ρ → Request ρ
  | some r => if owner r = ownerId then .done (.ok r) else .throw e
  | none => .throw e

/-- `$transaction`: the body as one statement, undone when it throws. -/
def transaction {α : Type} (body : Request α) : Request α :=
  .stmt .transaction
    (fun s => match body.run s with
      | (.ok _,s') => s'
      | (.error _,_) => s)
    (fun s => .done (body.run s).1)

theorem run_transaction {α : Type} (body : Request α) (s : Store) :
    (transaction body).run s = match body.run s with
      | (.ok a,s') => (.ok a,s')
      | (.error e,_) => (.error e,s) := by
  rw [transaction,Prog.run_stmt,Prog.run_done]
  cases body.run s with
  | mk r s' => cases r <;> rfl

/-- A transaction ends where it starts or where its body ends. -/
theorem ends_transaction {α : Type} {Q : Store → Prop} {body : Request α} {s : Store} (hs : Q s)
    (hbody : Q (body.run s).2) : Q ((transaction body).run s).2 := by
  rw [run_transaction]
  generalize body.run s = out at hbody ⊢
  obtain ⟨r,t⟩ := out
  cases r with
  | ok a => exact hbody
  | error e => exact hs

/-- A transaction changes no part that its body keeps. -/
theorem keeps_transaction {α τ : Type} {f : Store → τ} {body : Request α} (h : body.Keeps f) :
    (transaction body).Keeps f := by
  intro s
  refine ⟨?_,trivial⟩
  have hrun := h.run s
  dsimp only
  generalize body.run s = out at hrun ⊢
  obtain ⟨r,t⟩ := out
  cases r with
  | ok a => exact hrun
  | error e => rfl

/-- An update changes no part that its table is not in. -/
theorem keeps_update {ρ τ : Type} {t : TableRef ρ} {g : Store → τ} (ht : ∀ rows s, g (t.set rows s) = g s)
    (p : ρ → Bool) (f : ρ → ρ) : (t.update p f).Keeps g := by
  intro s
  refine ⟨ht _ s,?_⟩
  dsimp only
  cases (t.get s).find? p <;> trivial

theorem keeps_ownedBy {ρ τ : Type} {g : Store → τ} {owner : ρ → Uuid} (ownerId : Uuid) (e : ApiException)
    (o : Option ρ) : (ownedBy owner ownerId e o).Keeps g := by
  cases o with
  | none => trivial
  | some r =>
    unfold ownedBy
    dsimp only
    split <;> trivial

def publish (event : DomainEvent) : Request Unit :=
  .stmt .publish (fun s => { s with published := s.published ++ [event] }) (fun _ => .done (.ok ()))

@[simp] theorem run_publish (event : DomainEvent) (s : Store) :
    (publish event).run s = (.ok (),{ s with published := s.published ++ [event] }) := rfl

@[simp] theorem orThrow_some {ρ : Type} (e : ApiException) (r : ρ) :
    orThrow e (some r) = (.done (.ok r) : Request ρ) := rfl
@[simp] theorem orThrow_none {ρ : Type} (e : ApiException) : orThrow e (none : Option ρ) = .throw e := rfl

section Ends
variable {ρ β : Type} {Q : Store → Prop} {e : ApiException} {o : Option ρ} {f : ρ → Request β} {s : Store}

theorem ends_orThrow_bind (hs : Q s) (hf : ∀ r, o = some r → Q ((f r).run s).2) :
    Q ((orThrow e o >>= f).run s).2 := by
  cases o with
  | none => exact hs
  | some r => exact hf r rfl

theorem ends_orThrow (hs : Q s) : Q ((orThrow e o).run s).2 := by
  cases o <;> exact hs

end Ends

section Yields
variable {ρ β : Type} {R : β → Store → Prop} {e : ApiException} {o : Option ρ} {f : ρ → Request β} {s : Store}

theorem yields_orThrow_bind (hf : ∀ r, o = some r → (f r).Yields R s) : (orThrow e o >>= f).Yields R s := by
  cases o with
  | none => rfl
  | some r => exact hf r rfl

/-- An update that finds no row changes nothing. -/
theorem yields_update {t : TableRef ρ} {R : ρ → Store → Prop} {p : ρ → Bool} {g : ρ → ρ} (hset : t.set (t.get s) s = s)
    (h : ∀ r, (t.get s).find? p = some r → R (g r) (t.set (Table.updateMany p g (t.get s)) s)) :
    (t.update p g).Yields R s := by
  unfold Prog.Yields
  rw [TableRef.run_update,TableRef.updateReply]
  cases hf : (t.get s).find? p with
  | some r => exact h r hf
  | none =>
    have hsame : Table.updateMany p g (t.get s) = t.get s :=
      Table.updateMany_eq_self fun r hr hp => absurd hp (List.find?_eq_none.mp hf r hr)
    simp only [hsame]
    exact hset

/-- A transaction leaves nothing behind when its body throws. -/
theorem yields_transaction {body : Request β} (h : ∀ b t, body.run s = (.ok b,t) → R b t) :
    (transaction body).Yields R s := by
  unfold Prog.Yields
  rw [run_transaction]
  cases hb : body.run s with
  | mk r t =>
    cases r with
    | ok b => exact h b t hb
    | error e => rfl

end Yields

section Ensures
variable {ρ β : Type} {R : β → Store → Prop} {e : ApiException} {o : Option ρ} {f : ρ → Request β} {s : Store}

theorem ensures_orThrow_bind (hf : ∀ r, o = some r → (f r).Ensures R s) : (orThrow e o >>= f).Ensures R s := by
  cases o with
  | none => exact Prog.ensures_throw
  | some r => exact hf r rfl

theorem ensures_ownedBy_bind {owner : ρ → Uuid} {ownerId : Uuid} (hf : ∀ r, o = some r → (f r).Ensures R s) :
    (ownedBy owner ownerId e o >>= f).Ensures R s := by
  cases o with
  | none => exact Prog.ensures_throw
  | some r =>
    unfold ownedBy
    dsimp only
    split
    · exact hf r rfl
    · exact Prog.ensures_throw

/-- An update that succeeds has found its row. -/
theorem ensures_update {t : TableRef ρ} {R : ρ → Store → Prop} {p : ρ → Bool} {g : ρ → ρ}
    (h : ∀ r, (t.get s).find? p = some r → R (g r) (t.set (Table.updateMany p g (t.get s)) s)) :
    (t.update p g).Ensures R s := by
  unfold Prog.Ensures
  rw [TableRef.run_update,TableRef.updateReply]
  cases hf : (t.get s).find? p with
  | some r => exact h r hf
  | none => trivial

theorem ensures_transaction {body : Request β} (h : body.Ensures R s) : (transaction body).Ensures R s := by
  unfold Prog.Ensures at h ⊢
  rw [run_transaction]
  generalize body.run s = out at h
  obtain ⟨r,t⟩ := out
  cases r with
  | ok b => exact h
  | error e => trivial

end Ensures

/-! ## The tables -/

namespace Prisma

def permission : TableRef Permission :=
  ⟨.permission,fun s => s.identity.permissions,fun r s => { s with identity.permissions := r }⟩
def role : TableRef Role := ⟨.role,fun s => s.identity.roles,fun r s => { s with identity.roles := r }⟩
def user : TableRef User := ⟨.user,fun s => s.identity.users,fun r s => { s with identity.users := r }⟩
def session : TableRef Session :=
  ⟨.session,fun s => s.identity.sessions,fun r s => { s with identity.sessions := r }⟩
def loginHistory : TableRef LoginHistory :=
  ⟨.loginHistory,fun s => s.identity.loginHistory,fun r s => { s with identity.loginHistory := r }⟩
def passwordResetToken : TableRef MailedToken :=
  ⟨.passwordResetToken,fun s => s.identity.passwordResetTokens,
    fun r s => { s with identity.passwordResetTokens := r }⟩
def emailVerificationToken : TableRef MailedToken :=
  ⟨.emailVerificationToken,fun s => s.identity.emailVerificationTokens,
    fun r s => { s with identity.emailVerificationTokens := r }⟩
def securityEvent : TableRef SecurityEvent :=
  ⟨.securityEvent,fun s => s.identity.securityEvents,fun r s => { s with identity.securityEvents := r }⟩

def firmRole : TableRef FirmRole := ⟨.firmRole,fun s => s.org.firmRoles,fun r s => { s with org.firmRoles := r }⟩
def firm : TableRef Firm := ⟨.firm,fun s => s.org.firms,fun r s => { s with org.firms := r }⟩
def firmMembership : TableRef FirmMembership :=
  ⟨.firmMembership,fun s => s.org.firmMemberships,fun r s => { s with org.firmMemberships := r }⟩
def firmCompanyAssignment : TableRef FirmCompanyAssignment :=
  ⟨.firmCompanyAssignment,fun s => s.org.firmCompanyAssignments,
    fun r s => { s with org.firmCompanyAssignments := r }⟩
def firmClientInvitation : TableRef FirmClientInvitation :=
  ⟨.firmClientInvitation,fun s => s.org.firmClientInvitations,
    fun r s => { s with org.firmClientInvitations := r }⟩
def company : TableRef Company := ⟨.company,fun s => s.org.companies,fun r s => { s with org.companies := r }⟩
def userCompanyRole : TableRef UserCompanyRole :=
  ⟨.userCompanyRole,fun s => s.org.userCompanyRoles,fun r s => { s with org.userCompanyRoles := r }⟩

def employee : TableRef Employee :=
  ⟨.employee,fun s => s.payroll.employees,fun r s => { s with payroll.employees := r }⟩
def payrollRun : TableRef PayrollRun :=
  ⟨.payrollRun,fun s => s.payroll.payrollRuns,fun r s => { s with payroll.payrollRuns := r }⟩
def payslip : TableRef Payslip :=
  ⟨.payslip,fun s => s.payroll.payslips,fun r s => { s with payroll.payslips := r }⟩

def taxComputation : TableRef TaxComputation :=
  ⟨.taxComputation,fun s => s.taxEngine.taxComputations,fun r s => { s with taxEngine.taxComputations := r }⟩

def filingDeadline : TableRef FilingDeadline :=
  ⟨.filingDeadline,fun s => s.compliance.filingDeadlines,fun r s => { s with compliance.filingDeadlines := r }⟩
def complianceStatus : TableRef ComplianceStatus :=
  ⟨.complianceStatus,fun s => s.compliance.complianceStatus,
    fun r s => { s with compliance.complianceStatus := r }⟩
def flaggedIssue : TableRef FlaggedIssue :=
  ⟨.flaggedIssue,fun s => s.compliance.flaggedIssues,fun r s => { s with compliance.flaggedIssues := r }⟩

def folder : TableRef Folder :=
  ⟨.folder,fun s => s.documents.folders,fun r s => { s with documents.folders := r }⟩
def vaultDocument : TableRef VaultDocument :=
  ⟨.vaultDocument,fun s => s.documents.vaultDocuments,fun r s => { s with documents.vaultDocuments := r }⟩
def documentVersion : TableRef DocumentVersion :=
  ⟨.documentVersion,fun s => s.documents.documentVersions,fun r s => { s with documents.documentVersions := r }⟩

def notificationPreference : TableRef NotificationPreference :=
  ⟨.notificationPreference,fun s => s.notifications.notificationPreferences,
    fun r s => { s with notifications.notificationPreferences := r }⟩
def notification : TableRef Notification :=
  ⟨.notification,fun s => s.notifications.notifications,fun r s => { s with notifications.notifications := r }⟩

end Prisma
end PinoyTax
