import PinoyTax.Foundation.Success
import PinoyTax.Foundation.Table

/-! # Catalogues of grants

A catalogue lists what can be granted and who holds what of it, both by code. It is
provisioned by upserts: each entry, then each holder with what it is to hold. Any number
of provisionings may overlap or be cut short. What they bring about is never undone, nothing
else is granted, and what is complete is not touched again.
-/
namespace PinoyTax.Foundation

structure Grantable (ι κ : Type) where
  id : ι
  code : κ
deriving DecidableEq, Repr

structure Grantee (ι κ : Type) where
  id : ι
  code : κ
  entryIds : List ι := []
deriving DecidableEq, Repr

structure Catalogue (ι κ : Type) where
  entries : List (Grantable ι κ) := []
  holders : List (Grantee ι κ) := []
deriving DecidableEq, Repr

inductive CatalogueStep | upsertEntry | upsertHolder | findEntry | upsertGrant
deriving DecidableEq, Repr

namespace Catalogue
variable {ι κ ε : Type} [DecidableEq ι] [DecidableEq κ]

/-! ## Upserts -/

def upsertEntry (code : κ) (id : ι) (c : Catalogue ι κ) : Catalogue ι κ :=
  match c.entries.find? (fun e => e.code = code) with
  | some _ => c
  | none => { c with entries := c.entries ++ [⟨id,code⟩] }

def upsertHolder (code : κ) (id : ι) (c : Catalogue ι κ) : Catalogue ι κ :=
  match c.holders.find? (fun h => h.code = code) with
  | some _ => c
  | none => { c with holders := c.holders ++ [{ id := id, code := code }] }

/-- The id of the upserted row. -/
def upsertedId (code : κ) (id : ι) (c : Catalogue ι κ) : ι :=
  ((c.holders.find? (fun h => h.code = code)).map Grantee.id).getD id

def addGrant (entryId : ι) (h : Grantee ι κ) : Grantee ι κ :=
  if entryId ∈ h.entryIds then h else { h with entryIds := h.entryIds ++ [entryId] }

def upsertGrant (holderId entryId : ι) (c : Catalogue ι κ) : Catalogue ι κ :=
  { c with holders := Table.updateMany (fun h => h.id = holderId) (addGrant entryId) c.holders }

/-! ## Provisioning -/

abbrev Provision (ι κ ε α : Type) := Prog (Catalogue ι κ) CatalogueStep ε α

/-- The lookup throws where there is no such entry. -/
def findEntryOrThrow (e : ε) (code : κ) : Provision ι κ ε (Grantable ι κ) :=
  .query .findEntry (fun c => c.entries.find? (fun entry => entry.code = code)) >>= fun
    | some entry => pure entry
    | none => .throw e

def provisionEntry (entryIds : κ → ι) (code : κ) : Provision ι κ ε Unit :=
  .stmt .upsertEntry (upsertEntry code (entryIds code)) fun _ => pure ()

def provisionGrant (e : ε) (holderId : ι) (code : κ) : Provision ι κ ε Unit := do
  let entry ← findEntryOrThrow e code
  .stmt .upsertGrant (upsertGrant holderId entry.id) fun _ => pure ()

def provisionHolder (e : ε) (holderIds : κ → ι) (row : κ × List κ) : Provision ι κ ε Unit := do
  let holderId ← .stmt .upsertHolder (upsertHolder row.1 (holderIds row.1)) fun c =>
    pure (c.upsertedId row.1 (holderIds row.1))
  Prog.forEach (provisionGrant e holderId) row.2

/-- The entries, then each holder with what it holds. Rows that are new take their ids from the draw. -/
def provision (e : ε) (codes : List κ) (table : List (κ × List κ)) (entryIds holderIds : κ → ι) : Provision ι κ ε Unit := do
  Prog.forEach (provisionEntry entryIds) codes
  Prog.forEach (provisionHolder e holderIds) table

/-! ## What a catalogue says -/

def Lists (c : Catalogue ι κ) (code : κ) : Prop := ∃ entry ∈ c.entries, entry.code = code

def Grants (c : Catalogue ι κ) (holder code : κ) : Prop :=
  ∃ h ∈ c.holders, h.code = holder ∧ ∃ entry ∈ c.entries, entry.code = code ∧ entry.id ∈ h.entryIds

/-- The keys of the tables. -/
structure Keyed (c : Catalogue ι κ) : Prop where
  entryIds : (c.entries.map Grantable.id).Nodup
  entryCodes : (c.entries.map Grantable.code).Nodup
  holderIds : (c.holders.map Grantee.id).Nodup
  holderCodes : (c.holders.map Grantee.code).Nodup
  references : ∀ h ∈ c.holders, ∀ id ∈ h.entryIds, id ∈ c.entries.map Grantable.id

instance (c : Catalogue ι κ) : Decidable c.Keyed :=
  decidable_of_iff ((c.entries.map Grantable.id).Nodup ∧ (c.entries.map Grantable.code).Nodup ∧ (c.holders.map Grantee.id).Nodup ∧
      (c.holders.map Grantee.code).Nodup ∧ ∀ h ∈ c.holders, ∀ id ∈ h.entryIds, id ∈ c.entries.map Grantable.id)
    ⟨fun ⟨h₁,h₂,h₃,h₄,h₅⟩ => ⟨h₁,h₂,h₃,h₄,h₅⟩,fun h => ⟨h.entryIds,h.entryCodes,h.holderIds,h.holderCodes,h.references⟩⟩

/-- The table says that the holder is to hold the code. -/
def Listed (table : List (κ × List κ)) (holder code : κ) : Prop := ∃ row ∈ table, row.1 = holder ∧ code ∈ row.2

/-- Everything that is to be there is there. -/
structure Provisioned (codes : List κ) (table : List (κ × List κ)) (c : Catalogue ι κ) : Prop where
  lists : ∀ code ∈ codes, c.Lists code
  holders : ∀ row ∈ table, ∃ h ∈ c.holders, h.code = row.1
  grants : ∀ row ∈ table, ∀ code ∈ row.2, c.Grants row.1 code

/-- Rows stay, under their ids and codes, and what is held stays held. -/
structure Grows (c d : Catalogue ι κ) : Prop where
  entries : ∀ entry ∈ c.entries, entry ∈ d.entries
  holders : ∀ h ∈ c.holders, ∃ g ∈ d.holders, g.id = h.id ∧ g.code = h.code ∧ ∀ id ∈ h.entryIds, id ∈ g.entryIds

/-- Nothing is granted but what the table lists, and what is provisioned stays as it is. -/
def provisioning (codes : List κ) (table : List (κ × List κ)) : Discipline (Catalogue ι κ) where
  Inv c := c.Keyed ∧ ∀ holder code, c.Grants holder code → Listed table holder code
  Admits := Keyed
  Later c d := c.Grows d ∧ (Provisioned codes table c → d = c)
  refl c := ⟨⟨fun _ h => h,fun h hh => ⟨h,hh,rfl,rfl,fun _ hid => hid⟩⟩,fun _ => rfl⟩
  trans := by
    rintro c d e ⟨hcd,hfix⟩ ⟨hde,hfix'⟩
    refine ⟨⟨fun entry h => hde.entries entry (hcd.entries entry h),fun h hh => ?_⟩,fun hc => ?_⟩
    · obtain ⟨g,hg,hgid,hgcode,hgheld⟩ := hcd.holders h hh
      obtain ⟨k,hk,hkid,hkcode,hkheld⟩ := hde.holders g hg
      exact ⟨k,hk,hkid.trans hgid,hkcode.trans hgcode,fun id hid => hkheld id (hgheld id hid)⟩
    · obtain rfl := hfix hc
      exact hfix' hc

section
variable {codes : List κ} {table : List (κ × List κ)} {c d : Catalogue ι κ} {holder code : κ}

omit [DecidableEq ι] [DecidableEq κ] in
theorem Grows.lists (h : c.Grows d) (hc : c.Lists code) : d.Lists code := by
  obtain ⟨entry,hentry,hcode⟩ := hc
  exact ⟨entry,h.entries entry hentry,hcode⟩

omit [DecidableEq ι] [DecidableEq κ] in
theorem Grows.grants (h : c.Grows d) (hc : c.Grants holder code) : d.Grants holder code := by
  obtain ⟨held,hheld,hholder,entry,hentry,hcode,hid⟩ := hc
  obtain ⟨g,hg,-,hgcode,hgheld⟩ := h.holders held hheld
  exact ⟨g,hg,hgcode.trans hholder,entry,h.entries entry hentry,hcode,hgheld _ hid⟩

omit [DecidableEq ι] [DecidableEq κ] in
theorem Provisioned.later (hc : Provisioned codes table c) (h : (provisioning codes table).Later c d) :
    Provisioned codes table d := by
  obtain rfl := h.2 hc
  exact hc

/-- The holder of the row is there and holds what the row says. -/
def Holds (row : κ × List κ) (c : Catalogue ι κ) : Prop :=
  (∃ h ∈ c.holders, h.code = row.1) ∧ ∀ code ∈ row.2, c.Grants row.1 code

omit [DecidableEq ι] [DecidableEq κ] in
theorem Grows.holds {row : κ × List κ} (h : c.Grows d) (hc : Holds row c) : Holds row d := by
  obtain ⟨⟨held,hheld,hcode⟩,hall⟩ := hc
  obtain ⟨g,hg,-,hgcode,-⟩ := h.holders held hheld
  exact ⟨⟨g,hg,hgcode.trans hcode⟩,fun code hin => h.grants (hall code hin)⟩

end
end Catalogue
end PinoyTax.Foundation
