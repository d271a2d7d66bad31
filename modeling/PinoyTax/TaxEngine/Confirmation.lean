import PinoyTax.Foundation.Runs
import PinoyTax.TaxEngine.Service

/-! # Confirmed computations

Computing stores a draft, with or without a result. Confirming asks for the company
alone, and announces what it finds. Confirmed computations are settled figures exactly
when every confirmation that goes through meets a draft with a result.
-/
namespace PinoyTax.TaxEngine
open PinoyTax Foundation

inductive TaxRequest where
  | compute (companyId : Uuid) (dto : ComputeTaxDto) (id : Uuid) (now : DateTime)
  | confirm (companyId taxComputationId : Uuid)

namespace TaxRequest

def program : TaxRequest → Request Unit
  | compute companyId dto id now => (TaxEngine.compute companyId dto id now).discard
  | confirm companyId taxComputationId => (TaxEngine.confirm companyId taxComputationId).discard

/-- The store after a request. -/
def next (s : Store) (req : TaxRequest) : Store := (req.program.run s).2

end TaxRequest

/-- The primary key of the computations. -/
def ComputationIds (s : Store) : Prop := (s.taxEngine.taxComputations.map TaxComputation.id).Nodup

instance : DecidablePred ComputationIds := fun _ => inferInstanceAs (Decidable (List.Nodup _))

/-- The database accepts each statement of the request. -/
def Accepted (s : Store) (req : TaxRequest) : Prop := Prog.Within ComputationIds req.program s

instance (s : Store) (req : TaxRequest) : Decidable (Accepted s req) :=
  inferInstanceAs (Decidable (Prog.Within ComputationIds req.program s))

def confirms (taxComputationId : Uuid) : DomainEvent → Bool
  | .taxComputationConfirmed id _ _ => id = taxComputationId
  | _ => false

/-- The `tax_computation.confirmed` events of a computation. -/
def confirmations (s : Store) (taxComputationId : Uuid) : List DomainEvent :=
  s.published.filter (confirms taxComputationId)

/-- A draft that has a result. -/
def isComputed (c : TaxComputation) : Bool := c.status == .draft && c.result.isSome

/-- Confirmed computations have results, and each is announced at most once. -/
structure Settled (s : Store) : Prop where
  results : ∀ c ∈ s.taxEngine.taxComputations, c.status = .confirmed → c.result.isSome = true
  once : ∀ taxComputationId, (confirmations s taxComputationId).length ≤ 1

/-- A confirmation meets a draft with a result, or is rejected without any effect. -/
def Guarded (s : Store) : TaxRequest → Prop
  | .compute _ _ _ _ => True
  | .confirm companyId taxComputationId =>
    (∃ c ∈ s.taxEngine.taxComputations, c.id = taxComputationId ∧ c.companyId = companyId ∧ isComputed c = true) ∨
      ∃ e, (TaxEngine.confirm companyId taxComputationId).run s = (.error e,s)

/-- Whatever computation of the company the confirmation finds is a draft with a result. -/
def ConfirmsComputed (s : Store) : TaxRequest → Prop
  | .compute _ _ _ _ => True
  | .confirm companyId taxComputationId =>
    ∀ c ∈ s.taxEngine.taxComputations, c.id = taxComputationId → c.companyId = companyId → isComputed c = true

instance (s : Store) : (req : TaxRequest) → Decidable (ConfirmsComputed s req)
  | .compute _ _ _ _ => .isTrue trivial
  | .confirm companyId taxComputationId => inferInstanceAs (Decidable (∀ c ∈ s.taxEngine.taxComputations,
      c.id = taxComputationId → c.companyId = companyId → isComputed c = true))

/-! ## One request -/

section
variable {s : Store}

def setConfirmed (c : TaxComputation) : TaxComputation := { c with status := .confirmed }

/-- The store after a confirmation that goes through. -/
def confirmedStore (c : TaxComputation) (s : Store) : Store :=
  { s with
    taxEngine.taxComputations := Table.updateMany (fun r => r.id = c.id) setConfirmed s.taxEngine.taxComputations
    published := s.published ++ [.taxComputationConfirmed c.id c.companyId c.computationType] }

theorem run_confirm_of_mem (hids : ComputationIds s) {c : TaxComputation} (hc : c ∈ s.taxEngine.taxComputations) :
    (confirm c.companyId c.id).run s = (.ok (setConfirmed c),confirmedStore c s) := by
  have hfind : (Prisma.taxComputation.get s).find? (fun r => r.id = c.id) = some c := Table.find?_of_mem hids hc
  rw [confirm,Prog.run_bind,TableRef.run_findUnique,Prog.resume_ok,hfind,ownedBy,if_pos rfl,Prog.run_bind,Prog.run_done,
    Prog.resume_ok,Prog.run_bind,TableRef.run_update_of_find hfind]
  rfl

theorem run_confirm_of_not_mem {companyId taxComputationId : Uuid}
    (h : ∀ c ∈ s.taxEngine.taxComputations, c.id = taxComputationId → c.companyId ≠ companyId) :
    (confirm companyId taxComputationId).run s = (.error taxComputationNotFound,s) := by
  have hget : Prisma.taxComputation.get s = s.taxEngine.taxComputations := rfl
  rw [confirm,Prog.run_bind,TableRef.run_findUnique,Prog.resume_ok,hget]
  cases hf : s.taxEngine.taxComputations.find? (fun r => r.id = taxComputationId) with
  | none => rfl
  | some c =>
    obtain ⟨hc,hid⟩ := Table.find?_key_some hf
    rw [ownedBy,if_neg (h c hc hid)]
    rfl

theorem guarded_iff (hids : ComputationIds s) (req : TaxRequest) : Guarded s req ↔ ConfirmsComputed s req := by
  cases req with
  | compute companyId dto id now => exact Iff.rfl
  | confirm companyId taxComputationId =>
    constructor
    · rintro (⟨d,hd,rfl,-,hcomputed⟩ | ⟨e,hrun⟩) c hc hid hcompany
      · rwa [Table.eq_of_key hids hc hd hid]
      · subst hid hcompany
        rw [run_confirm_of_mem hids hc] at hrun
        cases hrun
    · intro h
      by_cases hfound : ∃ c ∈ s.taxEngine.taxComputations, c.id = taxComputationId ∧ c.companyId = companyId
      · obtain ⟨c,hc,hid,hcompany⟩ := hfound
        exact .inl ⟨c,hc,hid,hcompany,h c hc hid hcompany⟩
      · push Not at hfound
        exact .inr ⟨_,run_confirm_of_not_mem hfound⟩

theorem confirmations_of_ne {c : TaxComputation} {other : Uuid} (h : other ≠ c.id) :
    confirmations (confirmedStore c s) other = confirmations s other := by
  simp [confirmations,confirmedStore,List.filter_append,confirms,Ne.symm h]

/-- What the announcements say: each of them is about a confirmed computation. -/
structure Announced (s : Store) : Prop where
  ids : ComputationIds s
  settled : Settled s
  confirmed : ∀ taxComputationId, confirmations s taxComputationId ≠ [] →
    ∃ c ∈ s.taxEngine.taxComputations, c.id = taxComputationId ∧ c.status = .confirmed

/-- The later store has one more draft, or nothing new. -/
def Drafts (s t : Store) : Prop :=
  t = s ∨ ∃ c : TaxComputation, c.status = .draft ∧
    t = Prisma.taxComputation.set (s.taxEngine.taxComputations ++ [c]) s

theorem drafts_compute (companyId : Uuid) (dto : ComputeTaxDto) (id : Uuid) (now : DateTime) (s : Store) :
    Drafts s (TaxRequest.next s (.compute companyId dto id now)) := by
  have hengine (company : Company) : (engineResultFor company dto).Keeps (fun s : Store => s) := by
    have hquery (rule : String) : (findActiveRule rule dto.periodEnd).Keeps (fun s : Store => s) :=
      Prog.guarantees_query fun _ => rfl
    unfold engineResultFor
    split
    · exact Prog.Guarantees.bind (Prog.Guarantees.bind (hquery _) fun _ => trivial) fun _ => trivial
    · exact Prog.Guarantees.bind (Prog.Guarantees.bind (hquery _) fun _ => trivial) fun _ => trivial
    · exact Prog.Guarantees.bind (hquery _) fun _ => trivial
    · exact Prog.Guarantees.bind (hquery _) fun _ => trivial
    · split
      · trivial
      · exact Prog.Guarantees.bind (hquery _) fun _ => trivial
  have hstate : TaxRequest.next s (.compute companyId dto id now) = ((compute companyId dto id now).run s).2 :=
    Prog.run_discard_state _ s
  rw [hstate,compute]
  apply Prog.ends_bind_of_run (TableRef.run_findUnique _ s)
  apply ends_orThrow_bind (Or.inl rfl)
  intro company _
  apply Prog.ends_bind ((hengine company).run s) (Or.inl rfl)
  intro result _
  exact .inr ⟨_,rfl,rfl⟩

/-- A new draft is neither confirmed nor announced. -/
theorem Announced.append (hs : Announced s) {c : TaxComputation} (hdraft : c.status = .draft)
    (hids : ComputationIds (Prisma.taxComputation.set (s.taxEngine.taxComputations ++ [c]) s)) :
    Announced (Prisma.taxComputation.set (s.taxEngine.taxComputations ++ [c]) s) := by
  refine ⟨hids,⟨?_,hs.settled.once⟩,fun other hother => ?_⟩
  · intro d hd hconfirmed
    rcases List.mem_append.mp hd with hd | hd
    · exact hs.settled.results d hd hconfirmed
    · rw [List.mem_singleton.mp hd,hdraft] at hconfirmed
      cases hconfirmed
  · obtain ⟨d,hd,hid,hconfirmed⟩ := hs.confirmed other hother
    exact ⟨d,List.mem_append_left _ hd,hid,hconfirmed⟩

/-- The confirmation of a draft with a result is its first. -/
theorem Announced.confirm (hs : Announced s) {c : TaxComputation} (hc : c ∈ s.taxEngine.taxComputations)
    (hcomputed : isComputed c = true) (hids : ComputationIds (confirmedStore c s)) : Announced (confirmedStore c s) := by
  simp only [isComputed,Bool.and_eq_true,beq_iff_eq] at hcomputed
  have hnone : confirmations s c.id = [] := by
    by_contra hne
    obtain ⟨d,hd,hid,hconfirmed⟩ := hs.confirmed c.id hne
    rw [Table.eq_of_key hs.ids hd hc hid,hcomputed.1] at hconfirmed
    cases hconfirmed
  have hself : setConfirmed c ∈ (confirmedStore c s).taxEngine.taxComputations :=
    Table.mem_updateMany_image hc (by simp)
  refine ⟨hids,⟨?_,fun other => ?_⟩,fun other hother => ?_⟩
  · intro d hd hconfirmed
    rcases Table.mem_updateMany_cases hd with ⟨hd,-⟩ | ⟨q,hq,hid,rfl⟩
    · exact hs.settled.results d hd hconfirmed
    · rw [Table.eq_of_key hs.ids hq hc (of_decide_eq_true hid)]
      exact hcomputed.2
  · by_cases hother : other = c.id
    · subst hother
      have hone : confirmations (confirmedStore c s) c.id = confirmations s c.id ++
          [.taxComputationConfirmed c.id c.companyId c.computationType] := by
        simp [confirmations,confirmedStore,List.filter_append,confirms]
      rw [hone,hnone]
      exact le_rfl
    · rw [confirmations_of_ne hother]
      exact hs.settled.once other
  · by_cases hsame : other = c.id
    · exact ⟨_,hself,hsame.symm,rfl⟩
    · rw [confirmations_of_ne hsame] at hother
      obtain ⟨d,hd,hid,hconfirmed⟩ := hs.confirmed other hother
      refine ⟨d,Table.mem_updateMany_of_mem hd ?_,hid,hconfirmed⟩
      rw [hid]
      exact decide_eq_false hsame

theorem Announced.next (hs : Announced s) {req : TaxRequest} (haccepted : Accepted s req) (h : ConfirmsComputed s req) :
    Announced (req.next s) := by
  have hids : ComputationIds (req.next s) := haccepted.run
  cases req with
  | compute companyId dto id now =>
    rcases drafts_compute companyId dto id now s with hsame | ⟨c,hdraft,hadded⟩
    · rw [hsame]
      exact hs
    · rw [hadded] at hids ⊢
      exact hs.append hdraft hids
  | confirm companyId taxComputationId =>
    have hstate : TaxRequest.next s (.confirm companyId taxComputationId) =
        ((TaxEngine.confirm companyId taxComputationId).run s).2 := Prog.run_discard_state _ s
    by_cases hfound : ∃ c ∈ s.taxEngine.taxComputations, c.id = taxComputationId ∧ c.companyId = companyId
    · obtain ⟨c,hc,rfl,rfl⟩ := hfound
      rw [hstate,run_confirm_of_mem hs.ids hc] at hids ⊢
      exact hs.confirm hc (h c hc rfl rfl) hids
    · push Not at hfound
      rw [hstate,run_confirm_of_not_mem hfound]
      exact hs

end

/-- No computation has been stored or announced. -/
structure Untaxed (s : Store) : Prop where
  taxComputations : s.taxEngine.taxComputations = []
  confirmations : ∀ taxComputationId, confirmations s taxComputationId = []

/-- Over any sequence of requests, confirmed computations are settled, announced once and guarded
against every other confirmation exactly when each confirmation that finds its computation finds a
draft with a result. -/
theorem settled_and_guarded_iff {s : Store} (hs : Untaxed s) {requests : List TaxRequest}
    (haccepted : Runs.Along TaxRequest.next Accepted s requests) :
    Runs.Always TaxRequest.next Settled s requests ∧ Runs.Along TaxRequest.next Guarded s requests ↔
      Runs.Along TaxRequest.next ConfirmsComputed s requests := by
  have hstart : Announced s := by
    refine ⟨?_,⟨?_,fun id => ?_⟩,fun id h => absurd (hs.confirmations id) h⟩
    · rw [ComputationIds,hs.taxComputations]
      exact List.nodup_nil
    · rw [hs.taxComputations]
      intro c hc
      cases hc
    · rw [hs.confirmations]
      exact Nat.zero_le 1
  have hguarded : Runs.Along TaxRequest.next Guarded s requests ↔
      Runs.Along TaxRequest.next ConfirmsComputed s requests :=
    Runs.along_iff (A := Accepted) (I := Announced) (fun _ req hI _ => guarded_iff hI.ids req)
      (fun _ req hI hA hQ => hI.next hA ((guarded_iff hI.ids req).mp hQ)) hstart haccepted
  constructor
  · rintro ⟨-,h⟩
    exact hguarded.mp h
  · intro h
    have hstep : ∀ t req, Announced t → Accepted t req ∧ ConfirmsComputed t req → Announced (TaxRequest.next t req) :=
      fun _ _ hI hA => hI.next hA.1 hA.2
    have halways := Runs.always_of_step hstep hstart (haccepted.and h)
    exact ⟨halways.mono fun _ hI => hI.settled,hguarded.mpr h⟩

/-- A non-VAT company and a percentage tax rule whose rate is 3. -/
def taxedStore : Store where
  org := { companies := [⟨300,none,"Aling Nena",none,.sole_prop,.non_vat,"000-000-001",none,none,none,none⟩] }
  taxEngine := { taxRules := [⟨1,"PERCENTAGE_TAX_RATE",none,0,none,[⟨1,3,none,none,0,none⟩]⟩] }

def quarterDto (grossSales : Option ℚ) : ComputeTaxDto where
  computationType := .percentage_tax
  periodStart := 20454 * msPerDay
  periodEnd := 20543 * msPerDay
  grossSales := grossSales

/-- One computation with a result, confirmed, and a draft without one. -/
theorem settled_and_guarded_iff_taxedStore :
    Runs.Always TaxRequest.next Settled taxedStore
        [.compute 300 (quarterDto (some 100000)) 1 0,.confirm 300 1,.compute 300 (quarterDto none) 2 0,.confirm 300 3] ∧
      Runs.Along TaxRequest.next Guarded taxedStore
        [.compute 300 (quarterDto (some 100000)) 1 0,.confirm 300 1,.compute 300 (quarterDto none) 2 0,.confirm 300 3] :=
  (settled_and_guarded_iff ⟨rfl,fun _ => rfl⟩ (by decide +kernel)).mpr (by decide +kernel)

/-- A draft without a result is confirmed, and confirmed again. -/
theorem taxedStore_not_settled :
    Untaxed taxedStore ∧ Runs.Along TaxRequest.next Accepted taxedStore
        [.compute 300 (quarterDto none) 1 0,.confirm 300 1,.confirm 300 1] ∧
      ¬ Runs.Always TaxRequest.next Settled taxedStore
        [.compute 300 (quarterDto none) 1 0,.confirm 300 1,.confirm 300 1] := by
  refine ⟨⟨rfl,fun _ => rfl⟩,by decide +kernel,fun h => ?_⟩
  have honce := h.last.once 1
  revert honce
  decide +kernel

end PinoyTax.TaxEngine
