import PinoyTax.Schema.Prisma
import Mathlib.Data.List.Sort

/-! # DocumentsService

An object is stored under a new key before any row is written. Whether the object
store accepts it is part of the request. A signed link is represented by the object
key it was signed for and its lifetime.
-/
namespace PinoyTax.Documents
open PinoyTax Foundation

def parentFolderNotFound : ApiException := .notFound "PARENT_FOLDER_NOT_FOUND" "Parent folder not found."
def folderNotFound : ApiException := .notFound "FOLDER_NOT_FOUND" "Folder not found."
def documentNotFound : ApiException := .notFound "DOCUMENT_NOT_FOUND" "Document not found."

/-! ## StorageService -/

/-- The character class `[a-zA-Z0-9._-]`. -/
def keyChar (c : Char) : Bool := c.isAlphanum || c == '.' || c == '_' || c == '-'

/-- The UTF-16 code units of a character. -/
def codeUnits (c : Char) : ℕ := if c.toNat < 65536 then 1 else 2

/-- `fileName.replace(/[^a-zA-Z0-9._-]/g, '_')`, which replaces code units. -/
def sanitized (fileName : String) : String :=
  String.ofList (fileName.toList.flatMap (fun c => if keyChar c then [c] else List.replicate (codeUnits c) '_'))

def buildStorageKey (companyId : Uuid) (fileName : String) (randomUUID : Uuid) : String :=
  "companies/" ++ toString companyId ++ "/documents/" ++ toString randomUUID ++ "_" ++ sanitized fileName

structure File where
  fileName : String
  mimeType : String
  body : List UInt8
deriving DecidableEq, Repr

def upload (_storageKey : String) (_file : File) (accepted : Bool) : Request Unit :=
  .stmt .upload id (fun _ => if accepted then .done (.ok ()) else .throw .database)

structure SignedUrl where
  storageKey : String
  expiresIn : ℕ
deriving DecidableEq, Repr

def getSignedDownloadUrl (storageKey : String) : SignedUrl := ⟨storageKey,300⟩

@[simp] theorem run_upload (storageKey : String) (file : File) (accepted : Bool) (s : Store) :
    (upload storageKey file accepted).run s = (if accepted then .ok () else .error .database,s) := by
  cases accepted <;> rfl

/-! ## Folders -/

structure CreateFolderDto where
  name : String
  parentFolderId : Option Uuid := none
deriving DecidableEq, Repr

/-- `if (id) { … if (!folder || folder.companyId !== companyId) throw … }`. -/
def checkFolder (companyId : Uuid) (e : ApiException) : Option Uuid → Request Unit
  | none => pure ()
  | some folderId => do
    let _ ← ownedBy Folder.companyId companyId e (← Prisma.folder.findUnique (fun f => f.id = folderId))
    pure ()

def createFolder (companyId : Uuid) (dto : CreateFolderDto) (id : Uuid) : Request Folder := do
  checkFolder companyId parentFolderNotFound dto.parentFolderId
  Prisma.folder.create { id := id, companyId := companyId, name := dto.name, parentFolderId := dto.parentFolderId }

def listFolders (companyId : Uuid) : Request (List Folder) :=
  Prisma.folder.findMany (fun f => f.companyId = companyId)

/-! ## Documents and versions -/

structure UploadDocumentMetadataDto where
  category : String
  folderId : Option Uuid := none
deriving DecidableEq, Repr

def listed (companyId : Uuid) (folderId : Option Uuid) (category : Option String) (d : VaultDocument) : Bool :=
  decide (d.companyId = companyId) && folderId.all (fun f => d.folderId == some f) &&
    category.all (fun c => c == "" || d.category == c)

def listDocuments (companyId : Uuid) (folderId : Option Uuid) (category : Option String) :
    Request (List VaultDocument) := do
  let documents ← Prisma.vaultDocument.findMany (listed companyId folderId category)
  pure (documents.insertionSort (fun a b => b.createdAt ≤ a.createdAt))

/-- What an upload draws: the ids of its new rows and the random part of its key. -/
structure Draw where
  documentId : Uuid := 0
  versionId : Uuid
  randomUUID : Uuid
  now : DateTime := 0
deriving DecidableEq, Repr

def documentRow (companyId uploadedById : Uuid) (file : File) (dto : UploadDocumentMetadataDto) (draw : Draw)
    (storageKey : String) : VaultDocument where
  id := draw.documentId
  companyId := companyId
  folderId := dto.folderId
  category := dto.category
  fileName := file.fileName
  storageKey := storageKey
  mimeType := some file.mimeType
  sizeBytes := some file.body.length
  uploadedById := some uploadedById
  currentVersionId := none
  createdAt := draw.now

def versionRow (documentId uploadedById : Uuid) (draw : Draw) (storageKey : String) (versionNumber : ℕ) :
    DocumentVersion where
  id := draw.versionId
  documentId := documentId
  storageKey := storageKey
  versionNumber := versionNumber
  uploadedById := some uploadedById

def setCurrentVersion (versionId : Uuid) (d : VaultDocument) : VaultDocument :=
  { d with currentVersionId := some versionId }

def versionsOf (s : Store) (documentId : Uuid) : List DocumentVersion :=
  s.documents.documentVersions.filter (fun v => v.documentId = documentId)

def uploadDocument (companyId uploadedById : Uuid) (file : File) (dto : UploadDocumentMetadataDto) (draw : Draw)
    (accepted : Bool) : Request (VaultDocument × List DocumentVersion) := do
  checkFolder companyId folderNotFound dto.folderId
  let storageKey := buildStorageKey companyId file.fileName draw.randomUUID
  upload storageKey file accepted
  transaction do
    let document ← Prisma.vaultDocument.create (documentRow companyId uploadedById file dto draw storageKey)
    let version ← Prisma.documentVersion.create (versionRow document.id uploadedById draw storageKey 1)
    let updated ← Prisma.vaultDocument.update (fun d => d.id = document.id) (setCurrentVersion version.id)
    let versions ← Prisma.documentVersion.findMany (fun v => v.documentId = updated.id)
    pure (updated,versions)

def findDocumentWithVersions (documentId : Uuid) : Request (Option (VaultDocument × List DocumentVersion)) :=
  .query (.on .vaultDocument .findUnique) (fun s =>
    (s.documents.vaultDocuments.find? (fun d => d.id = documentId)).map (fun d => (d,versionsOf s d.id)))

/-- The columns a new version changes; the storage key is not among them. -/
def setNewVersion (versionId : Uuid) (file : File) (d : VaultDocument) : VaultDocument :=
  { d with
    currentVersionId := some versionId
    fileName := file.fileName
    mimeType := some file.mimeType
    sizeBytes := some file.body.length }

def uploadNewVersion (companyId documentId uploadedById : Uuid) (file : File) (draw : Draw) (accepted : Bool) :
    Request VaultDocument := do
  let (document,versions) ← ownedBy (fun d => d.1.companyId) companyId documentNotFound
    (← findDocumentWithVersions documentId)
  let storageKey := buildStorageKey document.companyId file.fileName draw.randomUUID
  upload storageKey file accepted
  let nextVersionNumber := versions.length + 1
  transaction do
    let version ← Prisma.documentVersion.create
      (versionRow document.id uploadedById draw storageKey nextVersionNumber)
    Prisma.vaultDocument.update (fun d => d.id = document.id) (setNewVersion version.id file)

def findDocument (companyId documentId : Uuid) : Request VaultDocument := do
  ownedBy VaultDocument.companyId companyId documentNotFound
    (← Prisma.vaultDocument.findUnique (fun d => d.id = documentId))

def listVersions (companyId documentId : Uuid) : Request (List DocumentVersion) := do
  let _ ← findDocument companyId documentId
  let versions ← Prisma.documentVersion.findMany (fun v => v.documentId = documentId)
  pure (versions.insertionSort (fun a b => b.versionNumber ≤ a.versionNumber))

structure DownloadUrl where
  url : SignedUrl
  expiresInSeconds : ℕ
deriving DecidableEq, Repr

def getDownloadUrl (companyId documentId : Uuid) : Request DownloadUrl := do
  let document ← findDocument companyId documentId
  pure ⟨getSignedDownloadUrl document.storageKey,300⟩

end PinoyTax.Documents
