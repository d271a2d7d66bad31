import PinoyTax.Foundation.Decimal

/-! # Scalar types of the schema, enumerations and exceptions

Identifiers are compared for equality only. Instants are milliseconds since the
epoch. A `DATE` column keeps the UTC calendar day of an instant. A `NUMERIC(14,2)`
column holds whole centavos, so that no other amount can be stored in it.
-/
namespace PinoyTax
open Foundation

abbrev Uuid := ℕ
abbrev DateTime := ℤ

def msPerDay : ℤ := 86400000

def dateColumn (t : DateTime) : DateTime := t / msPerDay * msPerDay

structure Money where
  centavos : ℤ
deriving DecidableEq, Repr

namespace Money

/-- The amount as the number it is read back as. -/
def toNumber (m : Money) : ℚ := m.centavos / 10 ^ 2

/-- What the column stores for a number. -/
def ofNumber (x : ℚ) : Money := ⟨roundUnits 2 x⟩

@[simp] theorem ofNumber_toNumber (m : Money) : ofNumber m.toNumber = m := by
  cases m
  simp [ofNumber,toNumber]

/-- A number rounded to two decimals passes through the column unchanged. -/
@[simp] theorem toNumber_ofNumber_toFixed (x : ℚ) : (ofNumber (toFixed 2 x)).toNumber = toFixed 2 x := by
  rw [ofNumber,roundUnits_toFixed]
  rfl

@[simp] theorem toFixed_toNumber (m : Money) : toFixed 2 m.toNumber = m.toNumber := by
  rw [← ofNumber_toNumber m,ofNumber,toNumber,toFixed,roundUnits_intCast_div]

theorem toNumber_add (m n : Money) : m.toNumber + n.toNumber = (mk (m.centavos + n.centavos)).toNumber := by
  simp only [toNumber,Int.cast_add,add_div]

theorem toNumber_sub (m n : Money) : m.toNumber - n.toNumber = (mk (m.centavos - n.centavos)).toNumber := by
  simp only [toNumber,Int.cast_sub,sub_div]

theorem toNumber_le_iff {m n : Money} : m.toNumber ≤ n.toNumber ↔ m.centavos ≤ n.centavos := by
  rw [toNumber,toNumber,div_le_div_iff_of_pos_right (by norm_num),Int.cast_le]

theorem toNumber_nonneg_iff {m : Money} : 0 ≤ m.toNumber ↔ 0 ≤ m.centavos := by
  have h := toNumber_le_iff (m := ⟨0⟩) (n := m)
  rwa [toNumber,Int.cast_zero,zero_div] at h

end Money

inductive UserStatus | active | locked | suspended | deactivated
deriving DecidableEq, Repr
inductive LoginStatus | success | failed_password | failed_locked | failed_unverified
deriving DecidableEq, Repr
inductive FirmType | accounting_firm | bookkeeping_firm | tax_consultancy
deriving DecidableEq, Repr
inductive FirmMembershipStatus | pending | active | revoked
deriving DecidableEq, Repr
inductive FirmCompanyAssignmentStatus | active | revoked
deriving DecidableEq, Repr
inductive FirmClientInvitationStatus | pending | accepted | declined | revoked
deriving DecidableEq, Repr
inductive BusinessType | sole_prop | opc | partnership | corporation
deriving DecidableEq, Repr
inductive VatClassification | vat | non_vat
deriving DecidableEq, Repr
inductive UserCompanyRoleStatus | pending | active | revoked
deriving DecidableEq, Repr
inductive EmploymentStatus | active | resigned | terminated
deriving DecidableEq, Repr
inductive PayFrequency | monthly | semi_monthly | weekly
deriving DecidableEq, Repr
inductive PayrollRunStatus | draft | processing | finalized | paid
deriving DecidableEq, Repr
inductive ComputationType | income_tax | vat | percentage_tax | ewt | withholding_comp
deriving DecidableEq, Repr
inductive ComputationStatus | draft | confirmed
deriving DecidableEq, Repr
inductive Agency | bir | sss | philhealth | pagibig | lgu
deriving DecidableEq, Repr
inductive FilingStatus | upcoming | due_today | overdue | filed
deriving DecidableEq, Repr
inductive IssueType
  | missing_filing | missing_contribution | missing_document | vat_misclassification
  | duplicate_transaction | duplicate_expense | computation_error | missing_info | other_risk
deriving DecidableEq, Repr
inductive IssueSeverity | low | medium | high | critical
deriving DecidableEq, Repr
inductive IssueStatus | «open» | acknowledged | resolved | dismissed
deriving DecidableEq, Repr

/-- The HTTP exceptions the services throw, and a rejected database call. -/
inductive ExceptionKind | badRequest | unauthorized | forbidden | notFound | conflict | serviceUnavailable | database
deriving DecidableEq, Repr

structure ApiException where
  kind : ExceptionKind
  code : String
  message : String
  details : List (Uuid × List String) := []
deriving DecidableEq, Repr

namespace ApiException

def badRequest (code message : String) : ApiException := ⟨.badRequest,code,message,[]⟩
def unauthorized (code message : String) : ApiException := ⟨.unauthorized,code,message,[]⟩
def forbidden (code message : String) : ApiException := ⟨.forbidden,code,message,[]⟩
def notFound (code message : String) : ApiException := ⟨.notFound,code,message,[]⟩
def conflict (code message : String) : ApiException := ⟨.conflict,code,message,[]⟩
def serviceUnavailable (code message : String) : ApiException := ⟨.serviceUnavailable,code,message,[]⟩

/-- A call that the database or the object store rejects surfaces as an internal server error. -/
def database : ApiException :=
  ⟨.database,"INTERNAL_SERVER_ERROR","An unexpected error occurred. Please try again.",[]⟩

end ApiException
end PinoyTax
