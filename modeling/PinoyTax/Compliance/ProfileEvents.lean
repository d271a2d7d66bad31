import PinoyTax.Foundation.Notices
import PinoyTax.Compliance.SalesTax

/-! # Profiles and the events about them

What the deadlines of a company depend on is set when the company is created and when its
classification is changed. Each of these requests announces it after the statement that sets it.
-/
namespace PinoyTax.Compliance
open PinoyTax Foundation

inductive ProfileChange
  | company (req : Org.CompanyRequest)
  | updateCompany (userId companyId : Uuid) (dto : Org.UpdateCompanyDto)

def ProfileChange.program (toLowerCase : String → String) : ProfileChange → Request Unit
  | .company req => Org.program toLowerCase req
  | .updateCompany userId companyId dto =>
    (Org.guarded "company:write" userId companyId (Org.updateCompany companyId dto)).discard

/-- Whether the request creates the company or is given a classification for it. -/
def ProfileChange.sets (companyId : Uuid) : ProfileChange → Bool
  | .company (.createCompany _ _ newCompanyId _ _) => decide (newCompanyId = companyId)
  | .company (.firm (.createClientCompany _ _ _ newCompanyId _)) => decide (newCompanyId = companyId)
  | .company _ => false
  | .updateCompany _ id dto => decide (id = companyId) && dto.vatClassification.isSome

/-- The columns that the generator looks at. -/
def profile (c : Company) : VatClassification × BusinessType := (c.vatClassification,c.businessType)

def profileOf (companyId : Uuid) (s : Store) : Option (VatClassification × BusinessType) :=
  (findCompany s companyId).map profile

/-- `@OnEvent('company.created')` and `@OnEvent('company.updated')`: the company whose scan is queued. -/
def scanned : DomainEvent → Option Uuid
  | .companyCreatedEmitted companyId => some companyId
  | .companyUpdatedEmitted companyId => some companyId
  | _ => none

/-- The scans that the listeners queue for what was emitted between two states. -/
def queuedScans (s t : Store) : List Uuid := (t.published.drop s.published.length).filterMap scanned

/-- Whatever speaks to the database can be refused. -/
def Refusable (l : Label) : Prop := l ≠ .publish

/-- The request announces the company if it sets its profile. -/
abbrev Announces {α : Type} (companyId : Uuid) (p : Request α) (s : Store) : Prop :=
  Prog.Settles (profileOf companyId) (fun s t => companyId ∈ queuedScans s t) Refusable False p s

section
variable {companyId : Uuid} {s t : Store}

theorem profileOf_of_companies (h : t.org.companies = s.org.companies) : profileOf companyId t = profileOf companyId s := by
  rw [profileOf,profileOf,findCompany,findCompany,h]

/-- Another company is added. -/
theorem profileOf_append (company : Company) (hid : company.id ≠ companyId)
    (hcompanies : t.org.companies = s.org.companies ++ [company]) : profileOf companyId t = profileOf companyId s := by
  have hnew : [company].find? (fun c => c.id = companyId) = none := by
    rw [List.find?_cons_of_neg (by simpa using hid),List.find?_nil]
  rw [profileOf,profileOf,findCompany,findCompany,hcompanies,List.find?_append,hnew,Option.or_none]

/-- Companies are updated: the company is what its own row becomes. -/
theorem findCompany_updateMany (p : Company → Bool) {f : Company → Company} (hid : ∀ c, (f c).id = c.id)
    (hcompanies : t.org.companies = Table.updateMany p f s.org.companies) :
    findCompany t companyId = (findCompany s companyId).map fun c => if p c = true then f c else c := by
  rw [findCompany,findCompany,hcompanies]
  exact Table.find?_updateMany (fun c => by rw [hid]) s.org.companies

/-- An update of companies that keeps the profile of this one. -/
theorem profileOf_updateMany (p : Company → Bool) {f : Company → Company} (hid : ∀ c, (f c).id = c.id)
    (hprofile : ∀ c, findCompany s companyId = some c → p c = true → profile (f c) = profile c)
    (hcompanies : t.org.companies = Table.updateMany p f s.org.companies) : profileOf companyId t = profileOf companyId s := by
  rw [profileOf,profileOf,findCompany_updateMany p hid hcompanies]
  cases hfind : findCompany s companyId with
  | none => rfl
  | some c =>
    rw [Option.map_some,Option.map_some,Option.map_some]
    split
    · rename_i hp
      rw [hprofile c hfind hp]
    · rfl

theorem keeps_updateCompanies (p : Company → Bool) {f : Company → Company} (hid : ∀ c, (f c).id = c.id)
    (hprofile : ∀ c, c.id = companyId → p c = true → profile (f c) = profile c) :
    (Prisma.company.update p f).Keeps (profileOf companyId) := by
  intro s
  refine ⟨profileOf_updateMany p hid (fun c hfind => hprofile c ?_) rfl,?_⟩
  · exact (Table.find?_key_some hfind).2
  · dsimp only
    split <;> trivial

/-! ## Requests that leave the profile alone -/

theorem keeps_createCompany {newCompanyId : Uuid} (hid : newCompanyId ≠ companyId) (userId : Uuid)
    (dto : Firm.CreateCompanyDto) (userCompanyRoleId : Uuid) (now : DateTime) :
    (Org.createCompany userId dto newCompanyId userCompanyRoleId now).Keeps (profileOf companyId) := by
  apply Prog.Guarantees.bind Firm.keeps_read
  intro sameTin
  cases sameTin with
  | some _ => trivial
  | none =>
    apply Prog.Guarantees.bind Firm.keeps_read
    intro ownerRole
    apply Firm.keeps_orThrow_bind
    intro ownerRole s
    exact ⟨profileOf_append (Org.companyRow dto newCompanyId) hid rfl,fun t => ⟨rfl,fun u => ⟨rfl,trivial⟩⟩⟩

theorem keeps_createClientCompany {newCompanyId : Uuid} (hid : newCompanyId ≠ companyId) (firmId actorId : Uuid)
    (dto : Firm.CreateCompanyDto) (assignmentId : Uuid) :
    (Firm.createClientCompany firmId actorId dto newCompanyId assignmentId).Keeps (profileOf companyId) := by
  apply Prog.Guarantees.bind Firm.keeps_read
  intro firm
  apply Firm.keeps_orThrow_bind
  intro _
  apply Prog.Guarantees.bind Firm.keeps_read
  intro sameTin
  cases sameTin with
  | some _ => trivial
  | none =>
    apply Prog.Guarantees.bind Firm.keeps_read
    intro membership
    apply Firm.keeps_orThrow_bind
    intro membership
    apply Prog.Guarantees.bind Firm.keeps_read
    intro allPermissions
    refine Prog.Guarantees.bind (keeps_transaction ?_) fun company => ?_
    · exact fun s => ⟨profileOf_append (Firm.companyRow firmId dto newCompanyId) hid rfl,fun t => ⟨rfl,trivial⟩⟩
    · exact fun s => ⟨rfl,fun t => ⟨rfl,trivial⟩⟩

theorem keeps_setFirm (firmId : Option Uuid) (p : Company → Bool) :
    (Prisma.company.update p (Firm.setFirm firmId)).Keeps (profileOf companyId) :=
  keeps_updateCompanies p (fun _ => rfl) fun _ _ _ => rfl

theorem keeps_respondToClientInvitation (userId invitationId : Uuid) (accept : Bool) (now : DateTime) :
    (Firm.respondToClientInvitation userId invitationId accept now).Keeps (profileOf companyId) := by
  have hrespond (status : FirmClientInvitationStatus) : (Prisma.firmClientInvitation.update
      (fun i => i.id = invitationId) (Firm.respond status now)).Keeps (profileOf companyId) :=
    keeps_update (fun _ _ => rfl) _ _
  apply Prog.Guarantees.bind Firm.keeps_read
  intro invitation
  apply Firm.keeps_orThrow_bind
  intro invitation
  apply Prog.Guarantees.bind Firm.keeps_read
  intro owner
  apply Firm.keeps_orThrow_bind
  intro _
  split
  · exact keeps_transaction ((keeps_setFirm _ _).bind fun _ => hrespond _)
  · exact hrespond _

theorem keeps_removeClientCompany (firmId clientId : Uuid) :
    (Firm.removeClientCompany firmId clientId).Keeps (profileOf companyId) := by
  apply Prog.Guarantees.bind (Firm.keeps_assertCompanyBelongsToFirm firmId clientId)
  intro _
  apply keeps_transaction
  exact Prog.Guarantees.bind (fun s => ⟨rfl,trivial⟩) fun _ => keeps_setFirm _ _

theorem keeps_getCompany (id : Uuid) : (Org.getCompany id).Keeps (profileOf companyId) := by
  apply Prog.Guarantees.bind Firm.keeps_read
  intro found
  cases found <;> trivial

/-- The events after the update of a company. -/
theorem keeps_announcing (id : Uuid) (vatClassification : VatClassification) (updated : Company) :
    (do
      publish (.companyUpdatedEmitted id)
      publish (.companyUpdated id vatClassification)
      pure updated : Request Company).Keeps (profileOf companyId) :=
  fun _ => ⟨rfl,fun _ => ⟨rfl,trivial⟩⟩

theorem keeps_updateCompany {id : Uuid} {dto : Org.UpdateCompanyDto} (h : id = companyId → dto.vatClassification = none) :
    (Org.updateCompany id dto).Keeps (profileOf companyId) := by
  apply Prog.Guarantees.bind (keeps_getCompany id)
  intro existing
  refine Prog.Guarantees.bind (keeps_updateCompanies _ (fun _ => rfl) fun c hc hp => ?_) fun updated => ?_
  · rw [profile,Org.setProfile,h ((of_decide_eq_true hp).symm.trans hc)]
    rfl
  · cases dto.vatClassification with
    | none => trivial
    | some vatClassification =>
      dsimp only
      split
      · exact keeps_announcing id vatClassification updated
      · trivial

theorem keeps_program (toLowerCase : String → String) {req : ProfileChange} (hreq : req.sets companyId = false) :
    (req.program toLowerCase).Keeps (profileOf companyId) := by
  cases req with
  | updateCompany userId id dto =>
    refine Firm.keeps_discard (Org.keeps_guarded (keeps_updateCompany fun hid => ?_))
    rw [ProfileChange.sets,hid,decide_eq_true rfl,Bool.true_and] at hreq
    exact Option.not_isSome_iff_eq_none.mp (by rw [hreq]; exact Bool.false_ne_true)
  | company req =>
    cases req with
    | createCompany userId dto newCompanyId userCompanyRoleId now =>
      exact Firm.keeps_discard (keeps_createCompany (of_decide_eq_false hreq) userId dto userCompanyRoleId now)
    | inviteStaff userId companyId dto id =>
      exact Firm.keeps_discard (Org.keeps_guarded (Org.keeps_inviteStaff fun _ _ => rfl))
    | acceptInvitation userId userCompanyRoleId now =>
      exact Firm.keeps_discard (Org.keeps_acceptInvitation fun _ _ => rfl)
    | revokeStaff userId companyId userCompanyRoleId =>
      exact Firm.keeps_discard (Org.keeps_guarded (Org.keeps_revokeStaff fun _ _ => rfl))
    | firm req =>
      cases req with
      | createFirm userId dto firmId membershipId now =>
        exact Firm.keeps_discard (Firm.keeps_createFirm (fun _ _ => rfl) fun _ _ => rfl)
      | inviteFirmStaff userId firmId dto id now =>
        exact Firm.keeps_discard (Firm.keeps_guarded (Firm.keeps_inviteFirmStaff fun _ _ => rfl))
      | acceptFirmInvitation userId membershipId now =>
        exact Firm.keeps_discard (Firm.keeps_acceptFirmInvitation fun _ _ => rfl)
      | updateFirmStaffRole userId firmId membershipId firmRoleCode =>
        exact Firm.keeps_discard (Firm.keeps_guarded (Firm.keeps_updateFirmStaffRole fun _ _ => rfl))
      | revokeFirmStaff userId firmId membershipId =>
        exact Firm.keeps_discard (Firm.keeps_guarded (Firm.keeps_revokeFirmStaff (fun _ _ => rfl) fun _ _ => rfl))
      | createClientCompany userId firmId dto newCompanyId assignmentId =>
        exact Firm.keeps_discard (Firm.keeps_guarded
          (keeps_createClientCompany (of_decide_eq_false hreq) firmId userId dto assignmentId))
      | inviteClientCompany userId firmId companyId id =>
        exact Firm.keeps_discard (Firm.keeps_guarded (Firm.keeps_inviteClientCompany fun _ _ => rfl))
      | respondToClientInvitation userId invitationId accept now =>
        exact Firm.keeps_discard (keeps_respondToClientInvitation userId invitationId accept now)
      | removeClientCompany userId firmId companyId =>
        exact Firm.keeps_discard (Firm.keeps_guarded (keeps_removeClientCompany firmId companyId))
      | assignStaffToCompany userId firmId companyId membershipId permissionCodes id =>
        exact Firm.keeps_discard (Firm.keeps_guarded (Firm.keeps_assignStaffToCompany fun _ _ => rfl))
      | revokeAssignment userId firmId assignmentId =>
        exact Firm.keeps_discard (Firm.keeps_guarded (Firm.keeps_revokeAssignment fun _ _ => rfl))

/-! ## Requests that set the profile -/

/-- An event of the company pays, whatever was owed. -/
theorem settles_publish {α : Type} {owes : Prop} {event : DomainEvent} (hevent : scanned event = some companyId)
    {f : Unit → Request α} (hf : (f ()).Keeps (profileOf companyId)) :
    Prog.Settles (profileOf companyId) (fun s t => companyId ∈ queuedScans s t) Refusable owes (publish event >>= f) s := by
  refine ⟨fun hl => absurd rfl hl,fun t _ => ?_⟩
  have hqueued : companyId ∈ queuedScans t { t with published := t.published ++ [event] } := by
    rw [queuedScans,List.drop_left]
    exact List.mem_filterMap.mpr ⟨event,List.mem_singleton_self event,hevent⟩
  exact hf.settles.mono fun howes => howes.2 hqueued

theorem announces_orThrow_bind {ρ α : Type} {e : ApiException} {o : Option ρ} {f : ρ → Request α}
    (hf : ∀ r, o = some r → Announces companyId (f r) s) : Announces companyId (orThrow e o >>= f) s := by
  cases o with
  | none => exact not_false
  | some r => exact hf r rfl

theorem announces_createCompany (userId : Uuid) (dto : Firm.CreateCompanyDto) (userCompanyRoleId : Uuid) (now : DateTime)
    (s : Store) : Announces companyId (Org.createCompany userId dto companyId userCompanyRoleId now) s := by
  apply Prog.settles_query_bind
  intro t _
  cases (Prisma.company.get t).find? (fun c => c.tin = dto.tin) with
  | some _ => exact not_false
  | none =>
    apply Prog.settles_query_bind
    intro u _
    apply announces_orThrow_bind
    intro ownerRole _
    exact ⟨fun _ => not_false,fun v _ => settles_publish rfl fun _ => ⟨rfl,trivial⟩⟩

theorem announces_createClientCompany (firmId actorId : Uuid) (dto : Firm.CreateCompanyDto) (assignmentId : Uuid)
    (s : Store) : Announces companyId (Firm.createClientCompany firmId actorId dto companyId assignmentId) s := by
  apply Prog.settles_query_bind
  intro t _
  apply announces_orThrow_bind
  intro _ _
  apply Prog.settles_query_bind
  intro u _
  cases (Prisma.company.get u).find? (fun c => c.tin = dto.tin) with
  | some _ => exact not_false
  | none =>
    apply Prog.settles_query_bind
    intro v _
    apply announces_orThrow_bind
    intro membership _
    apply Prog.settles_query_bind
    intro w _
    exact ⟨fun _ => not_false,fun x _ => settles_publish rfl fun _ => ⟨rfl,trivial⟩⟩

/-- What an update compares the classification with is still what it replaces. -/
theorem announces_updateCompany (dto : Org.UpdateCompanyDto) (s : Store) :
    Announces companyId (Org.updateCompany companyId dto) s := by
  rw [Org.updateCompany,Org.getCompany,Prog.bind_assoc]
  apply Prog.settles_query_bind
  intro t _
  apply announces_orThrow_bind
  intro existing hexisting
  refine ⟨fun _ => not_false,fun u hu => ?_⟩
  have hprofile : profileOf companyId u = some (profile existing) := hu.trans (congrArg (Option.map profile) hexisting)
  obtain ⟨found,hfound,hsame⟩ := Option.map_eq_some_iff.mp hprofile
  have hfind : (Prisma.company.get u).find? (fun c => c.id = companyId) = some found := hfound
  dsimp only
  rw [hfind,Prog.bind]
  have hkept (hvat : dto.vatClassification.getD existing.vatClassification = existing.vatClassification) :
      profileOf companyId (Prisma.company.set (Table.updateMany (fun c => c.id = companyId) (Org.setProfile dto)
        (Prisma.company.get u)) u) = profileOf companyId u := by
    refine profileOf_updateMany (f := Org.setProfile dto) _ (fun _ => rfl) (fun c hc _ => ?_) rfl
    obtain rfl := Option.some.inj (hfound.symm.trans hc)
    have hclass : found.vatClassification = existing.vatClassification := congrArg Prod.fst hsame
    rw [profile,Org.setProfile,hclass,hvat,← hclass]
    rfl
  cases hdto : dto.vatClassification with
  | none => exact fun howes => howes.1.elim id fun hne => hne (hkept (by rw [hdto,Option.getD_none]))
  | some vatClassification =>
    by_cases hne : vatClassification ≠ existing.vatClassification
    · dsimp only
      rw [if_pos hne]
      exact settles_publish rfl fun _ => ⟨rfl,trivial⟩
    · dsimp only
      rw [if_neg hne]
      exact fun howes => howes.1.elim id fun hchanged => hchanged (hkept (by rw [hdto,Option.getD_some]; exact not_not.mp hne))

theorem announces_program (toLowerCase : String → String) {req : ProfileChange} (hreq : req.sets companyId = true)
    (s : Store) : Announces companyId (req.program toLowerCase) s := by
  cases req with
  | updateCompany userId id dto =>
    rw [ProfileChange.sets,Bool.and_eq_true,decide_eq_true_eq] at hreq
    obtain ⟨rfl,-⟩ := hreq
    have hguarded : Announces id (Org.guarded "company:write" userId id (Org.updateCompany id dto)) s :=
      Prog.Keeps.settles_bind (Org.keeps_canActivate _ _ _) fun _ t _ => announces_updateCompany dto t
    exact hguarded.discard
  | company req =>
    cases req with
    | createCompany userId dto newCompanyId userCompanyRoleId now =>
      obtain rfl := of_decide_eq_true hreq
      exact (announces_createCompany userId dto userCompanyRoleId now s).discard
    | firm req =>
      cases req with
      | createClientCompany userId firmId dto newCompanyId assignmentId =>
        obtain rfl := of_decide_eq_true hreq
        have hguarded : Announces newCompanyId (Firm.guarded "firm:clients:manage" userId firmId
            (Firm.createClientCompany firmId userId dto newCompanyId assignmentId)) s :=
          Prog.Keeps.settles_bind (Firm.keeps_guard _ _ _) fun _ t _ =>
            announces_createClientCompany firmId userId dto assignmentId t
        exact hguarded.discard
      | _ => exact absurd hreq Bool.false_ne_true
    | _ => exact absurd hreq Bool.false_ne_true

end

end PinoyTax.Compliance
