import PinoyTax.Foundation.Part
import PinoyTax.Foundation.Reliance
import PinoyTax.Documents.VersionRace

/-! # The vault and its object store

An upload puts its object into the bucket before it writes the rows that name the object's
key. Either can fail without the other, and uploads of all companies interleave.
-/
namespace PinoyTax.Documents
open PinoyTax Foundation

structure StoredObject where
  body : List UInt8
  mimeType : String
deriving DecidableEq, Repr

def File.object (file : File) : StoredObject := ⟨file.body,file.mimeType⟩

/-- The database, and the objects of the bucket by key. -/
structure Vault where
  store : Store := {}
  bucket : List (String × StoredObject) := []

namespace Vault

def database : Part Vault Store where
  get := Vault.store
  set s v := { v with store := s }
  get_set _ _ := rfl
  set_get _ := rfl
  set_set _ _ _ := rfl

/-- `GetObjectCommand` on a key. -/
def object (v : Vault) (storageKey : String) : Option StoredObject :=
  (v.bucket.find? (fun o => o.1 = storageKey)).map Prod.snd

def put (storageKey : String) (o : StoredObject) (v : Vault) : Vault :=
  { v with bucket := (storageKey,o) :: v.bucket.filter (fun o => o.1 ≠ storageKey) }

theorem object_put_self (storageKey : String) (o : StoredObject) (v : Vault) :
    (v.put storageKey o).object storageKey = some o := by
  simp [object,put]

theorem object_put_of_ne {storageKey k : String} (o : StoredObject) (v : Vault) (h : k ≠ storageKey) :
    (v.put storageKey o).object k = v.object k := by
  have hfind : (v.bucket.filter (fun o => o.1 ≠ storageKey)).find? (fun o => o.1 = k) =
      v.bucket.find? (fun o => o.1 = k) := by
    rw [List.find?_filter]
    congr 1
    funext o
    by_cases ho : o.1 = k
    · simp [ho,h]
    · simp [ho]
  have hne : decide (storageKey = k) = false := decide_eq_false (Ne.symm h)
  rw [object,object,put,List.find?_cons_of_neg (by simpa using hne),hfind]

/-- The bucket answers, or refuses; without an answer the put may have been carried out. -/
inductive PutOutcome
  | answered
  | refused
  | unanswered
deriving DecidableEq, Repr

abbrev Call (α : Type) := Prog Vault Label ApiException α

/-- `StorageService.upload`. -/
def upload (storageKey : String) (file : File) (outcome : PutOutcome) : Call Unit :=
  .stmt .upload (fun v => if outcome = .refused then v else v.put storageKey file.object)
    (fun _ => if outcome = .answered then .done (.ok ()) else .throw .database)

def query {α : Type} (p : Request α) : Call α := p.zoom database id

/-- The body of the transaction of a first upload. -/
def addDocument (companyId uploadedById : Uuid) (file : File) (dto : UploadDocumentMetadataDto) (draw : Draw)
    (storageKey : String) : Request (VaultDocument × List DocumentVersion) := do
  let document ← Prisma.vaultDocument.create (documentRow companyId uploadedById file dto draw storageKey)
  let version ← Prisma.documentVersion.create (versionRow document.id uploadedById draw storageKey 1)
  let updated ← Prisma.vaultDocument.update (fun d => d.id = document.id) (setCurrentVersion version.id)
  let versions ← Prisma.documentVersion.findMany (fun v => v.documentId = updated.id)
  pure (updated,versions)

def uploadDocument (companyId uploadedById : Uuid) (file : File) (dto : UploadDocumentMetadataDto) (draw : Draw)
    (outcome : PutOutcome) : Call (VaultDocument × List DocumentVersion) := do
  query (checkFolder companyId folderNotFound dto.folderId)
  let storageKey := buildStorageKey companyId file.fileName draw.randomUUID
  upload storageKey file outcome
  query (transaction (addDocument companyId uploadedById file dto draw storageKey))

/-- The document and its versions, if the document is the company's. -/
def findOwned (companyId documentId : Uuid) : Request (VaultDocument × List DocumentVersion) := do
  ownedBy (fun d => d.1.companyId) companyId documentNotFound (← findDocumentWithVersions documentId)

def uploadNewVersion (companyId documentId uploadedById : Uuid) (file : File) (draw : Draw) (outcome : PutOutcome) :
    Call VaultDocument := do
  let (document,versions) ← query (findOwned companyId documentId)
  let storageKey := buildStorageKey document.companyId file.fileName draw.randomUUID
  upload storageKey file outcome
  let nextVersionNumber := versions.length + 1
  query (transaction (addVersion document.id uploadedById file draw storageKey nextVersionNumber))

/-! ## The same requests without the objects -/

theorem run_query {α : Type} (p : Request α) (v : Vault) :
    (query p).run v = ((p.run v.store).1,{ v with store := (p.run v.store).2 }) := Prog.run_zoom database id p v

theorem run_upload (storageKey : String) (file : File) (outcome : PutOutcome) (v : Vault) :
    (upload storageKey file outcome).run v = (if outcome = .answered then .ok () else .error .database,
      if outcome = .refused then v else v.put storageKey file.object) := by
  cases outcome <;> rfl

/-- What becomes of the database does not depend on the bucket. -/
def Agrees {α : Type} (p : Call α) (q : Request α) : Prop :=
  ∀ v, (p.run v).1 = (q.run v.store).1 ∧ (p.run v).2.store = (q.run v.store).2

theorem agrees_query {α : Type} (p : Request α) : Agrees (query p) p := by
  intro v
  rw [run_query]
  exact ⟨rfl,rfl⟩

theorem agrees_upload (storageKey : String) (file : File) (outcome : PutOutcome) :
    Agrees (upload storageKey file outcome) (Documents.upload storageKey file (outcome = .answered)) := by
  intro v
  rw [run_upload,Documents.run_upload]
  cases outcome <;> exact ⟨rfl,rfl⟩

theorem Agrees.bind {α β : Type} {p : Call α} {q : Request α} {f : α → Call β} {g : α → Request β} (h : Agrees p q)
    (hf : ∀ a, Agrees (f a) (g a)) : Agrees (p >>= f) (q >>= g) := by
  intro v
  obtain ⟨hr,ht⟩ := h v
  rw [Prog.run_bind,Prog.run_bind]
  generalize p.run v = out at hr ht ⊢
  generalize q.run v.store = out' at hr ht ⊢
  obtain ⟨r,w⟩ := out
  obtain ⟨r',t⟩ := out'
  obtain rfl : r = r' := hr
  obtain rfl : w.store = t := ht
  cases r with
  | ok a => exact hf a w
  | error e => exact ⟨rfl,rfl⟩

/-- To the store the calls with the object storage do what the service does. -/
theorem agrees_uploadDocument (companyId uploadedById : Uuid) (file : File) (dto : UploadDocumentMetadataDto) (draw : Draw)
    (outcome : PutOutcome) : Agrees (uploadDocument companyId uploadedById file dto draw outcome)
      (Documents.uploadDocument companyId uploadedById file dto draw (outcome = .answered)) :=
  (agrees_query _).bind fun _ => (agrees_upload _ file outcome).bind fun _ => agrees_query _

theorem agrees_uploadNewVersion (companyId documentId uploadedById : Uuid) (file : File) (draw : Draw) (outcome : PutOutcome) :
    Agrees (uploadNewVersion companyId documentId uploadedById file draw outcome)
      (Documents.uploadNewVersion companyId documentId uploadedById file draw (outcome = .answered)) := by
  have hfind : Documents.uploadNewVersion companyId documentId uploadedById file draw (outcome = .answered) =
      findOwned companyId documentId >>= fun found =>
        Documents.upload (buildStorageKey found.1.companyId file.fileName draw.randomUUID) file (outcome = .answered) >>= fun _ =>
        transaction (addVersion found.1.id uploadedById file draw
          (buildStorageKey found.1.companyId file.fileName draw.randomUUID) (found.2.length + 1)) := by
    rw [findOwned,Prog.bind_assoc]
    rfl
  rw [hfind]
  exact (agrees_query _).bind fun found => (agrees_upload _ file outcome).bind fun _ => agrees_query _

end Vault
end PinoyTax.Documents
