import PinoyTax.Foundation.Unwinding
import PinoyTax.Tenancy.Isolation
import PinoyTax.Tenancy.Strangers

/-! # What strangers learn of a company

The guard keeps strangers out and the services keep companies apart. So whatever goes on in
a company, strangers to it are answered the same: not only with regard to its rows, but to
everything that its people did before or do in between.
-/
namespace PinoyTax.Tenancy
open PinoyTax Foundation

/-- A request to one of the four services. -/
structure ServiceRequest where
  userId : Uuid
  companyId : Uuid
  route : Route

namespace ServiceRequest

def program (req : ServiceRequest) : Request req.route.op.Response :=
  Org.guarded req.route.permission req.userId req.companyId (req.route.op.perform req.companyId)

def next (s : Store) (req : ServiceRequest) : Store := (req.program.run s).2

/-- The operation and what it answers. -/
def answer (s : Store) (req : ServiceRequest) : Σ op : TenantOperation, Except ApiException op.Response :=
  ⟨req.route.op,(req.program.run s).1⟩

end ServiceRequest

/-- The stores differ in what belongs to the company. -/
structure SameElsewhere (companyId : Uuid) (s t : Store) : Prop where
  identity : s.identity = t.identity
  org : s.org = t.org
  taxRules : s.taxEngine.taxRules = t.taxEngine.taxRules
  rows : ∀ other, other ≠ companyId → rowsOf other s = rowsOf other t

section
variable {companyId other : Uuid} {s t u : Store}

theorem SameElsewhere.symm (h : SameElsewhere companyId s t) : SameElsewhere companyId t s :=
  ⟨h.identity.symm,h.org.symm,h.taxRules.symm,fun other hne => (h.rows other hne).symm⟩

/-- No message is left of those that were seen. -/
theorem rowsOf_eq (companyId : Uuid) (seen : ℕ) (s : Store) :
    rowsOf companyId s = { restrict companyId seen s with published := [] } := by
  rw [rowsOf,restrict,List.drop_length]
  rfl

theorem rowsOf_of_restrict {seen : ℕ} (h : restrict companyId seen s = restrict companyId seen t) :
    rowsOf companyId s = rowsOf companyId t := by
  rw [rowsOf_eq companyId seen s,rowsOf_eq companyId seen t,h]

/-- What was confined to the company. -/
theorem SameElsewhere.of_confined (h : Confined companyId s t) : SameElsewhere companyId t s :=
  ⟨h.identity,h.org,h.taxRules,fun other hne => rowsOf_of_restrict (h.others other hne)⟩

theorem SameElsewhere.trans (h : SameElsewhere companyId s t) (h' : SameElsewhere companyId t u) :
    SameElsewhere companyId s u where
  identity := h.identity.trans h'.identity
  org := h.org.trans h'.org
  taxRules := h.taxRules.trans h'.taxRules
  rows other hne := (h.rows other hne).trans (h'.rows other hne)

/-! ## The guard in front of an operation -/

section
variable {α : Type} {code : String} {userId : Uuid} {handler : Request α}

/-- The guard looks at users, companies and firms only. -/
theorem run_canActivate_congr (hidentity : s.identity = t.identity) (horg : s.org = t.org) (code : String)
    (userId companyId : Uuid) : ((Identity.canActivate (some [code]) (some userId) (some companyId)).run s).1 =
      ((Identity.canActivate (some [code]) (some userId) (some companyId)).run t).1 := by
  have hpermission : Identity.permissionCodes s = Identity.permissionCodes t := by
    funext ids
    simp only [Identity.permissionCodes,hidentity]
  have hrole : Identity.roleCodes s = Identity.roleCodes t := by
    funext r
    rw [Identity.roleCodes,Identity.roleCodes,hpermission,hidentity]
  have hcodes : Identity.assignmentCodes s = Identity.assignmentCodes t := by
    funext a
    rw [Identity.assignmentCodes,Identity.assignmentCodes,hpermission]
  have hactive : Identity.isActiveAssignment s userId companyId = Identity.isActiveAssignment t userId companyId := by
    funext a
    rw [Identity.isActiveAssignment,Identity.isActiveAssignment,horg]
  have hfirst : Identity.firstRole s userId companyId = Identity.firstRole t userId companyId := by
    rw [Identity.firstRole,Identity.firstRole,horg]
  have hassignment : Identity.firstAssignment s userId companyId = Identity.firstAssignment t userId companyId := by
    rw [Identity.firstAssignment,Identity.firstAssignment,hactive,horg]
  rw [Identity.run_canActivate,Identity.run_canActivate,Identity.grantedCodes,Identity.grantedCodes,hfirst,hassignment,
    hrole,hcodes]

/-- Whom the guard admits gets to the handler. -/
theorem run_guarded_of_admits (h : Identity.admits s [code] userId companyId = true) :
    (Org.guarded code userId companyId handler).run s = handler.run s := by
  have hstate := Org.run_canActivate_state code userId companyId s
  rw [Identity.admits] at h
  rw [Org.guarded,Prog.run_bind]
  generalize (Identity.canActivate (some [code]) (some userId) (some companyId)).run s = out at hstate h ⊢
  obtain ⟨r,u⟩ := out
  obtain rfl : u = s := hstate
  cases r with
  | error e => cases h
  | ok a => rfl

/-- Everybody else is told what the guard says. -/
theorem run_guarded_of_not_admits (handler : Request α) (h : Identity.admits s [code] userId companyId = false) :
    ∃ e, ((Identity.canActivate (some [code]) (some userId) (some companyId)).run s).1 = .error e ∧
      (Org.guarded code userId companyId handler).run s = (.error e,s) := by
  have hstate := Org.run_canActivate_state code userId companyId s
  rw [Identity.admits] at h
  rw [Org.guarded,Prog.run_bind]
  generalize (Identity.canActivate (some [code]) (some userId) (some companyId)).run s = out at hstate h ⊢
  obtain ⟨r,u⟩ := out
  obtain rfl : u = s := hstate
  cases r with
  | error e => exact ⟨e,rfl,rfl⟩
  | ok a => cases h

end

/-! ## One request -/

section
variable {req : ServiceRequest}

/-- The guard admits the user to the route. -/
def ServiceRequest.admitted (req : ServiceRequest) (s : Store) : Bool :=
  Identity.admits s [req.route.permission] req.userId req.companyId

/-- A request changes nothing but the rows of its company. -/
theorem ServiceRequest.confined_next (hs : WellFormed s) (hfresh : req.route.op.Fresh s) :
    Confined req.companyId s (ServiceRequest.next s req) := by
  rw [ServiceRequest.next,ServiceRequest.program]
  cases hadmits : req.admitted s with
  | false =>
    obtain ⟨e,-,hrun⟩ := run_guarded_of_not_admits (req.route.op.perform req.companyId) hadmits
    rw [hrun]
    exact Confined.refl hs
  | true =>
    rw [run_guarded_of_admits hadmits]
    have hiso := TenantOperation.isolates_perform req.companyId (eventsOf req.companyId s).length req.route.op
    exact (hiso.allowed s ⟨⟨hs,le_rfl⟩,hfresh⟩).run

theorem ServiceRequest.admitted_congr (req : ServiceRequest) (hidentity : s.identity = t.identity) (horg : s.org = t.org) :
    req.admitted s = req.admitted t := by
  rw [ServiceRequest.admitted,ServiceRequest.admitted,Identity.admits,Identity.admits,
    run_canActivate_congr hidentity horg]

/-- Who is refused is told the same. -/
theorem ServiceRequest.refused (hidentity : s.identity = t.identity) (horg : s.org = t.org)
    (h : req.admitted s = false) : ServiceRequest.answer s req = ServiceRequest.answer t req ∧
      ServiceRequest.next s req = s ∧ ServiceRequest.next t req = t := by
  have hguard := run_canActivate_congr hidentity horg req.route.permission req.userId req.companyId
  have ht : req.admitted t = false := (req.admitted_congr hidentity horg).symm.trans h
  obtain ⟨e,he,hrun⟩ := run_guarded_of_not_admits (req.route.op.perform req.companyId) h
  obtain ⟨e',he',hrun'⟩ := run_guarded_of_not_admits (req.route.op.perform req.companyId) ht
  rw [he,he'] at hguard
  obtain rfl := Except.error.inj hguard
  rw [ServiceRequest.answer,ServiceRequest.answer,ServiceRequest.next,ServiceRequest.next,ServiceRequest.program,hrun,hrun']
  exact ⟨rfl,rfl,rfl⟩

/-- Where two stores have the same rows of the company, the request is answered the same and leaves the same. -/
theorem ServiceRequest.agree (hs : WellFormed s) (ht : WellFormed t) (hfs : req.route.op.Fresh s)
    (hft : req.route.op.Fresh t) (hidentity : s.identity = t.identity) (horg : s.org = t.org)
    (hrows : rowsOf req.companyId s = rowsOf req.companyId t) :
    ServiceRequest.answer s req = ServiceRequest.answer t req ∧
      rowsOf req.companyId (ServiceRequest.next s req) = rowsOf req.companyId (ServiceRequest.next t req) := by
  cases hadmits : req.admitted s with
  | false =>
    obtain ⟨hanswer,hleft,hright⟩ := ServiceRequest.refused hidentity horg hadmits
    rw [hleft,hright]
    exact ⟨hanswer,hrows⟩
  | true =>
    have hadmits' : req.admitted t = true := (req.admitted_congr hidentity horg).symm.trans hadmits
    rw [ServiceRequest.answer,ServiceRequest.answer,ServiceRequest.next,ServiceRequest.next,ServiceRequest.program,
      run_guarded_of_admits hadmits,run_guarded_of_admits hadmits']
    have hiso := TenantOperation.isolates_perform req.companyId (eventsOf req.companyId s).length req.route.op
    have hiso' := TenantOperation.isolates_perform req.companyId (eventsOf req.companyId t).length req.route.op
    obtain ⟨hreply,hleft⟩ := hiso.agree hiso' ⟨⟨hs,le_rfl⟩,hfs⟩ ⟨⟨ht,le_rfl⟩,hft⟩ hrows
    refine ⟨by rw [hreply],?_⟩
    rw [rowsOf_eq _ (eventsOf req.companyId s).length,rowsOf_eq _ (eventsOf req.companyId t).length]
    exact congrArg (fun u : Store => { u with published := [] }) hleft

end

/-! ## What strangers are answered -/

/-- Two states of the platform that strangers to the company cannot tell apart. -/
structure Indistinct (strangers : Uuid → Prop) (companyId : Uuid) (s t : Store) : Prop
    extends SameElsewhere companyId s t where
  left : WellFormed s
  right : WellFormed t
  refused : ∀ userId, strangers userId → ∀ code, Identity.admits s [code] userId companyId = false

section
variable {strangers : Uuid → Prop} {req : ServiceRequest}

/-- Whom the guard refuses it refuses until users, companies or firms change. -/
theorem refused_congr (hidentity : s.identity = t.identity) (horg : s.org = t.org)
    (h : ∀ userId, strangers userId → ∀ code, Identity.admits s [code] userId companyId = false) :
    ∀ userId, strangers userId → ∀ code, Identity.admits t [code] userId companyId = false := by
  intro userId hstranger code
  rw [Identity.admits,← run_canActivate_congr hidentity horg]
  exact h userId hstranger code

theorem Indistinct.symm (h : Indistinct strangers companyId s t) : Indistinct strangers companyId t s :=
  ⟨h.toSameElsewhere.symm,h.right,h.left,refused_congr h.identity h.org h.refused⟩

/-- What the people of the company do. -/
theorem Indistinct.hidden (h : Indistinct strangers companyId s t) (hfresh : req.route.op.Fresh s)
    (hcompany : req.companyId = companyId) : Indistinct strangers companyId (ServiceRequest.next s req) t := by
  have hconfined : Confined req.companyId s (ServiceRequest.next s req) := req.confined_next h.left hfresh
  rw [hcompany] at hconfined
  exact ⟨(SameElsewhere.of_confined hconfined).trans h.toSameElsewhere,hconfined.wellFormed,h.right,
    refused_congr hconfined.identity.symm hconfined.org.symm h.refused⟩

/-- What a stranger does, be it with the company itself. -/
theorem Indistinct.visible (h : Indistinct strangers companyId s t) (hfs : req.route.op.Fresh s)
    (hft : req.route.op.Fresh t) (hstranger : strangers req.userId) :
    ServiceRequest.answer s req = ServiceRequest.answer t req ∧
      Indistinct strangers companyId (ServiceRequest.next s req) (ServiceRequest.next t req) := by
  by_cases hcompany : req.companyId = companyId
  · have hrefused : req.admitted s = false := by
      rw [ServiceRequest.admitted,hcompany]
      exact h.refused req.userId hstranger req.route.permission
    obtain ⟨hanswer,hleft,hright⟩ := ServiceRequest.refused h.identity h.org hrefused
    rw [hleft,hright]
    exact ⟨hanswer,h⟩
  · obtain ⟨hanswer,hrows⟩ := ServiceRequest.agree h.left h.right hfs hft h.identity h.org (h.rows _ hcompany)
    have hconfined : Confined req.companyId s (ServiceRequest.next s req) := req.confined_next h.left hfs
    have hconfined' : Confined req.companyId t (ServiceRequest.next t req) := req.confined_next h.right hft
    have hrefused := refused_congr hconfined.identity.symm hconfined.org.symm h.refused
    refine ⟨hanswer,⟨⟨?_,?_,?_,fun other hother => ?_⟩,hconfined.wellFormed,hconfined'.wellFormed,hrefused⟩⟩
    · rw [hconfined.identity,hconfined'.identity,h.identity]
    · rw [hconfined.org,hconfined'.org,h.org]
    · rw [hconfined.taxRules,hconfined'.taxRules,h.taxRules]
    · by_cases hsame : other = req.companyId
      · rw [hsame]
        exact hrows
      · rw [rowsOf_of_restrict (hconfined.others other hsame),rowsOf_of_restrict (hconfined'.others other hsame)]
        exact h.rows other hother

end
end

/-- Two stores agree but for the rows of a company. Two runs of requests to the services start there; what
the people of the company ask for is as different in them as one likes, and strangers, whom the guard of the company
refuses, ask for the same.
Then all strangers are answered the same, those included that ask for the company itself. -/
theorem strangers_learn_nothing (strangers : Uuid → Bool) (companyId : Uuid) {s t : Store} (hs : Reachable s)
    (ht : Reachable t) (hsame : SameElsewhere companyId s t)
    (hout : ∀ userId, strangers userId = true → ∀ code, Identity.admits s [code] userId companyId = false)
    {rs qs : List ServiceRequest}
    (hrs : Runs.Along ServiceRequest.next (fun s req => req.route.op.Fresh s ∧
      (strangers req.userId = false → req.companyId = companyId)) s rs)
    (hqs : Runs.Along ServiceRequest.next (fun s req => req.route.op.Fresh s ∧
      (strangers req.userId = false → req.companyId = companyId)) t qs)
    (hasked : rs.filter (fun req => strangers req.userId) = qs.filter (fun req => strangers req.userId)) :
    Runs.heard ServiceRequest.next ServiceRequest.answer (fun req => strangers req.userId) s rs =
      Runs.heard ServiceRequest.next ServiceRequest.answer (fun req => strangers req.userId) t qs := by
  have hunwinds : Runs.Unwinds ServiceRequest.next ServiceRequest.answer (fun req => strangers req.userId)
      (fun s req => req.route.op.Fresh s ∧ (strangers req.userId = false → req.companyId = companyId))
      (Indistinct (fun userId => strangers userId = true) companyId) := by
    constructor
    · exact Indistinct.symm
    · exact fun h hC hhidden => h.hidden hC.1 (hC.2 hhidden)
    · exact fun h hC hC' hvisible => (h.visible hC.1 hC'.1 hvisible).1
    · exact fun h hC hC' hvisible => (h.visible hC.1 hC'.1 hvisible).2
  exact hunwinds.heard_eq ⟨hsame,hs.wellFormed,ht.wellFormed,hout⟩ hrs hqs hasked

/-- Two companies with an owner each. -/
def district : Store where
  identity := { roles := [⟨1,"business_owner",[1]⟩], permissions := [⟨1,"documents:write"⟩] }
  org :=
    { companies := [Org.companyRow Org.carinderia 9,{ Org.companyRow Org.carinderia 5 with tin := "555" }]
      userCompanyRoles := [Org.ownerRow 3 9 1 10 0,Org.ownerRow 8 5 1 11 0] }

def createFolderRequest (userId companyId : Uuid) (dto : Documents.CreateFolderDto) (id : Uuid) : ServiceRequest :=
  ⟨userId,companyId,.createFolder dto id,"documents:write",rfl⟩

def neighboursAttempts : List ServiceRequest :=
  [createFolderRequest 8 9 ⟨"Mine",none⟩ 20,createFolderRequest 8 5 ⟨"Returns",some 7⟩ 21]

/-- Whether or not there is a folder 7 next door, the owner of the one company is refused there, and cannot put a
folder of the own company into it. -/
theorem strangers_learn_nothing_folder :
    Runs.heard ServiceRequest.next ServiceRequest.answer (fun req => decide (req.userId = 8)) district
        (createFolderRequest 3 9 ⟨"Contracts",none⟩ 7 :: neighboursAttempts) =
      Runs.heard ServiceRequest.next ServiceRequest.answer (fun req => decide (req.userId = 8)) district
        neighboursAttempts := by
  have hstart : Reachable district := ⟨[],.start ⟨rfl,rfl,rfl,rfl⟩⟩
  have hshut : ShutOut (fun userId => decide (userId = 8) = true) (footing 9 district) := by
    constructor <;> decide
  have hout : ∀ userId, decide (userId = 8) = true → ∀ code, Identity.admits district [code] userId 9 = false :=
    fun userId hu code => not_admits_stranger hshut (by decide) rfl hu code
  have hsame : SameElsewhere 9 district district := ⟨rfl,rfl,rfl,fun _ _ => rfl⟩
  have hunused {s : Store} {id : Uuid} (h : id ∉ s.documents.folders.map Folder.id) : Unused folders id s := h
  refine strangers_learn_nothing (fun userId => decide (userId = 8)) 9 hstart hstart hsame hout ?_ ?_ rfl
  · refine ⟨⟨hunused ?_,fun _ => rfl⟩,⟨hunused ?_,fun h => ?_⟩,⟨hunused ?_,fun h => ?_⟩,trivial⟩
    all_goals first | decide +kernel | cases h
  · refine ⟨⟨hunused ?_,fun h => ?_⟩,⟨hunused ?_,fun h => ?_⟩,trivial⟩
    all_goals first | decide +kernel | cases h

end PinoyTax.Tenancy
