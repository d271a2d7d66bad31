import PinoyTax.Foundation.Runs
import PinoyTax.Documents.Service

/-! # The current version of a document

A history is the store together with the ledger of the uploads that succeeded,
newest first. The document row follows the newest upload of the document in every
column but its storage key, which stays the one of the first upload.
-/
namespace PinoyTax.Documents
open PinoyTax Foundation Foundation.Runs

inductive VaultRequest
  | uploadDocument (companyId uploadedById : Uuid) (file : File) (dto : UploadDocumentMetadataDto) (draw : Draw)
      (accepted : Bool)
  | uploadNewVersion (companyId documentId uploadedById : Uuid) (file : File) (draw : Draw) (accepted : Bool)
  | getDownloadUrl (companyId documentId : Uuid)

structure Upload where
  documentId : Uuid
  versionId : Uuid
  storageKey : String
  file : File
deriving DecidableEq, Repr

structure History where
  store : Store
  uploads : List Upload := []

/-- The upload that a request makes, when it answers without an exception. -/
def uploadOf (s : Store) : VaultRequest → Option Upload
  | .uploadDocument companyId uploadedById file dto draw accepted =>
    ((uploadDocument companyId uploadedById file dto draw accepted).run s).1.toOption.map fun reply =>
      ⟨reply.1.id,draw.versionId,buildStorageKey companyId file.fileName draw.randomUUID,file⟩
  | .uploadNewVersion companyId documentId uploadedById file draw accepted =>
    ((uploadNewVersion companyId documentId uploadedById file draw accepted).run s).1.toOption.map fun document =>
      ⟨document.id,draw.versionId,buildStorageKey companyId file.fileName draw.randomUUID,file⟩
  | .getDownloadUrl .. => none

def storeAfter (s : Store) : VaultRequest → Store
  | .uploadDocument companyId uploadedById file dto draw accepted =>
    ((uploadDocument companyId uploadedById file dto draw accepted).run s).2
  | .uploadNewVersion companyId documentId uploadedById file draw accepted =>
    ((uploadNewVersion companyId documentId uploadedById file draw accepted).run s).2
  | .getDownloadUrl companyId documentId => ((getDownloadUrl companyId documentId).run s).2

def next (h : History) (req : VaultRequest) : History :=
  ⟨storeAfter h.store req,(uploadOf h.store req).toList ++ h.uploads⟩

/-- The ids and the key that an upload draws are not in use. -/
def Fresh (s : Store) : VaultRequest → Prop
  | .uploadDocument companyId _ file _ draw _ =>
    draw.documentId ∉ s.documents.vaultDocuments.map VaultDocument.id ∧
      draw.versionId ∉ s.documents.documentVersions.map DocumentVersion.id ∧
      buildStorageKey companyId file.fileName draw.randomUUID ∉
        s.documents.documentVersions.map DocumentVersion.storageKey
  | .uploadNewVersion companyId _ _ file draw _ =>
    draw.versionId ∉ s.documents.documentVersions.map DocumentVersion.id ∧
      buildStorageKey companyId file.fileName draw.randomUUID ∉
        s.documents.documentVersions.map DocumentVersion.storageKey
  | .getDownloadUrl .. => True

/-- A new version of this document that finds the document and is stored. -/
def Replaces (documentId : Uuid) (s : Store) : VaultRequest → Prop
  | .uploadNewVersion companyId id _ _ _ accepted =>
    id = documentId ∧ accepted = true ∧
      ∃ d, s.documents.vaultDocuments.find? (fun d => d.id = id) = some d ∧ d.companyId = companyId
  | _ => False

/-! ## What each request does -/

def added (companyId uploadedById : Uuid) (file : File) (dto : UploadDocumentMetadataDto) (draw : Draw)
    (s : Store) : Store :=
  let storageKey := buildStorageKey companyId file.fileName draw.randomUUID
  { s with
    documents.vaultDocuments := s.documents.vaultDocuments ++
      [setCurrentVersion draw.versionId (documentRow companyId uploadedById file dto draw storageKey)]
    documents.documentVersions := s.documents.documentVersions ++
      [versionRow draw.documentId uploadedById draw storageKey 1] }

def replaced (document : VaultDocument) (uploadedById : Uuid) (file : File) (draw : Draw) (s : Store) : Store :=
  { s with
    documents.vaultDocuments :=
      Table.updateMany (fun d => d.id = document.id) (setNewVersion draw.versionId file) s.documents.vaultDocuments
    documents.documentVersions := s.documents.documentVersions ++
      [versionRow document.id uploadedById draw (buildStorageKey document.companyId file.fileName draw.randomUUID)
        ((versionsOf s document.id).length + 1)] }

theorem run_checkFolder (companyId : Uuid) (e : ApiException) (folderId : Option Uuid) (s : Store) :
    (checkFolder companyId e folderId).run s = (.ok (),s) ∨ (checkFolder companyId e folderId).run s = (.error e,s) := by
  cases folderId with
  | none => exact .inl rfl
  | some folderId =>
    simp only [checkFolder,Prog.run_bind,TableRef.run_findUnique,Prog.resume_ok]
    cases (Prisma.folder.get s).find? (fun f => f.id = folderId) with
    | none => exact .inr rfl
    | some f =>
      by_cases hf : f.companyId = companyId
      · left
        simp [ownedBy,hf]
      · right
        simp [ownedBy,hf]

section
variable {companyId uploadedById : Uuid} {file : File} {dto : UploadDocumentMetadataDto} {draw : Draw} {s : Store}

/-- A first upload that is stored, into a folder of the company or none. -/
theorem run_uploadDocument_accepted (hd : draw.documentId ∉ s.documents.vaultDocuments.map VaultDocument.id)
    (hfolder : (checkFolder companyId folderNotFound dto.folderId).run s = (.ok (),s)) :
    ∃ reply, reply.1.id = draw.documentId ∧
      (uploadDocument companyId uploadedById file dto draw true).run s =
        (.ok reply,added companyId uploadedById file dto draw s) := by
  let row := documentRow companyId uploadedById file dto draw
    (buildStorageKey companyId file.fileName draw.randomUUID)
  have hfind : (s.documents.vaultDocuments ++ [row]).find? (fun q => q.id = row.id) = some row :=
    Table.find?_append_fresh hd
  have hupdate := Table.updateMany_append_fresh (r := row) hd (setCurrentVersion draw.versionId)
  refine ⟨(setCurrentVersion draw.versionId row,
    versionsOf (added companyId uploadedById file dto draw s) draw.documentId),rfl,?_⟩
  simp only [uploadDocument,Prog.run_bind,hfolder,Prog.resume_ok,run_upload,if_true,run_transaction,
    TableRef.run_create]
  rw [TableRef.run_update_of_find hfind]
  simp only [Prog.resume_ok,Prog.run_bind,TableRef.run_findMany,Prog.pure_def,Prog.run_done]
  let after := added companyId uploadedById file dto draw s
  exact congrArg (fun documents => (Except.ok (setCurrentVersion draw.versionId row,versionsOf after row.id),
    { after with documents.vaultDocuments := documents })) hupdate

/-- A first upload adds its document and its version, or throws and changes nothing. -/
theorem run_uploadDocument (companyId uploadedById : Uuid) (file : File) (dto : UploadDocumentMetadataDto)
    (accepted : Bool) (hd : draw.documentId ∉ s.documents.vaultDocuments.map VaultDocument.id) :
    (∃ reply, reply.1.id = draw.documentId ∧
        (uploadDocument companyId uploadedById file dto draw accepted).run s =
          (.ok reply,added companyId uploadedById file dto draw s)) ∨
      ∃ e, (uploadDocument companyId uploadedById file dto draw accepted).run s = (.error e,s) := by
  rcases run_checkFolder companyId folderNotFound dto.folderId s with hfolder | hfolder
  · cases accepted with
    | false =>
      right
      exact ⟨_,by rw [uploadDocument,Prog.run_bind,hfolder]; rfl⟩
    | true => exact .inl (run_uploadDocument_accepted hd hfolder)
  · right
    exact ⟨_,by rw [uploadDocument,Prog.run_bind,hfolder]; rfl⟩

theorem run_uploadNewVersion (uploadedById : Uuid) (file : File) (draw : Draw) {documentId : Uuid} {d : VaultDocument}
    (hf : s.documents.vaultDocuments.find? (fun d => d.id = documentId) = some d) (hc : d.companyId = companyId) :
    (uploadNewVersion companyId documentId uploadedById file draw true).run s =
      (.ok (setNewVersion draw.versionId file d),replaced d uploadedById file draw s) := by
  have hid : d.id = documentId := (Table.find?_key_some hf).2
  have hfound : s.documents.vaultDocuments.find? (fun q => q.id = d.id) = some d := by rw [hid]; exact hf
  have hupdate (versions : List DocumentVersion) :
      (Prisma.vaultDocument.get (Prisma.documentVersion.set versions s)).find? (fun q => q.id = d.id) = some d :=
    hfound
  simp only [uploadNewVersion,findDocumentWithVersions,Prog.run_bind,Prog.run_query,Prog.resume_ok,hf,Option.map_some,
    ownedBy,if_pos hc,Prog.run_done,run_upload,if_true,run_transaction,TableRef.run_create]
  rw [TableRef.run_update_of_find (hupdate _)]
  rfl

/-- A new version that is refused: no such document of the company, or not stored. -/
theorem run_uploadNewVersion_refused {documentId : Uuid} {accepted : Bool}
    (h : ¬ Replaces documentId s (.uploadNewVersion companyId documentId uploadedById file draw accepted)) :
    ∃ e, (uploadNewVersion companyId documentId uploadedById file draw accepted).run s = (.error e,s) := by
  cases hf : s.documents.vaultDocuments.find? (fun d => d.id = documentId) with
  | none => exact ⟨documentNotFound,by simp [uploadNewVersion,findDocumentWithVersions,hf,ownedBy]⟩
  | some d =>
    by_cases hc : d.companyId = companyId
    · cases accepted with
      | false => exact ⟨.database,by simp [uploadNewVersion,findDocumentWithVersions,hf,ownedBy,hc]⟩
      | true => exact absurd ⟨rfl,rfl,d,hf,hc⟩ h
    · exact ⟨documentNotFound,by simp [uploadNewVersion,findDocumentWithVersions,hf,ownedBy,hc]⟩

end

inductive Step (h : History) : VaultRequest → History → Prop
  | kept {req : VaultRequest} (hr : ∀ id, ¬ Replaces id h.store req) : Step h req h
  | added (companyId uploadedById : Uuid) (file : File) (dto : UploadDocumentMetadataDto) (draw : Draw)
      (accepted : Bool) :
      Step h (.uploadDocument companyId uploadedById file dto draw accepted)
        ⟨added companyId uploadedById file dto draw h.store,
          ⟨draw.documentId,draw.versionId,buildStorageKey companyId file.fileName draw.randomUUID,file⟩ :: h.uploads⟩
  | replaced (uploadedById : Uuid) (file : File) (draw : Draw) {d : VaultDocument}
      (hd : d ∈ h.store.documents.vaultDocuments)
      (hr : ∀ id, Replaces id h.store (.uploadNewVersion d.companyId d.id uploadedById file draw true) ↔ d.id = id) :
      Step h (.uploadNewVersion d.companyId d.id uploadedById file draw true)
        ⟨replaced d uploadedById file draw h.store,
          ⟨d.id,draw.versionId,buildStorageKey d.companyId file.fileName draw.randomUUID,file⟩ :: h.uploads⟩

theorem step_next {h : History} {req : VaultRequest} (hfresh : Fresh h.store req) : Step h req (next h req) := by
  cases req with
  | uploadDocument companyId uploadedById file dto draw accepted =>
    rcases run_uploadDocument companyId uploadedById file dto accepted hfresh.1 with ⟨reply,hid,hrun⟩ | ⟨e,hrun⟩
    · have hnext := Step.added (h := h) companyId uploadedById file dto draw accepted
      simpa [next,storeAfter,uploadOf,hrun,hid,Except.toOption] using hnext
    · have hnext : Step h (.uploadDocument companyId uploadedById file dto draw accepted) h := .kept fun _ => not_false
      simpa [next,storeAfter,uploadOf,hrun,Except.toOption] using hnext
  | uploadNewVersion companyId documentId uploadedById file draw accepted =>
    by_cases hr : Replaces documentId h.store (.uploadNewVersion companyId documentId uploadedById file draw accepted)
    · obtain ⟨-,rfl,d,hf,rfl⟩ := hr
      obtain ⟨hd,rfl⟩ := Table.find?_key_some hf
      have hnext := Step.replaced uploadedById file draw hd
        fun id => ⟨fun hr => hr.1,fun hid => ⟨hid,rfl,d,hf,rfl⟩⟩
      have hrun := run_uploadNewVersion uploadedById file draw hf rfl
      simpa [next,storeAfter,uploadOf,hrun,Except.toOption,setNewVersion] using hnext
    · obtain ⟨e,hrun⟩ := run_uploadNewVersion_refused hr
      have hnext : Step h (.uploadNewVersion companyId documentId uploadedById file draw accepted) h :=
        .kept fun id hid => hr (by obtain ⟨rfl,hid⟩ := hid; exact ⟨rfl,hid⟩)
      simpa [next,storeAfter,uploadOf,hrun,Except.toOption] using hnext
  | getDownloadUrl companyId documentId =>
    have hrun : ((getDownloadUrl companyId documentId).run h.store).2 = h.store := by
      simp only [getDownloadUrl,findDocument,Prog.run_bind,TableRef.run_findUnique,Prog.resume_ok]
      cases (Prisma.vaultDocument.get h.store).find? (fun d => d.id = documentId) with
      | none => rfl
      | some d =>
        by_cases hc : d.companyId = companyId <;> simp [ownedBy,hc]
    have hnext : Step h (.getDownloadUrl companyId documentId) h := .kept fun _ => not_false
    simpa [next,storeAfter,uploadOf,hrun] using hnext

/-! ## The ledger and the rows -/

/-- The uploads of one document, newest first. -/
def uploadsOf (h : History) (documentId : Uuid) : List Upload := h.uploads.filter (fun u => u.documentId = documentId)

/-- The row speaks of this upload in each column that a new version rewrites. -/
structure RefersTo (d : VaultDocument) (u : Upload) : Prop where
  currentVersionId : d.currentVersionId = some u.versionId
  fileName : d.fileName = u.file.fileName
  mimeType : d.mimeType = some u.file.mimeType
  sizeBytes : d.sizeBytes = some u.file.body.length

/-- What a version row and its upload have in common. -/
def versionEntry (v : DocumentVersion) : Uuid × Uuid × String := (v.id,v.documentId,v.storageKey)
def uploadEntry (u : Upload) : Uuid × Uuid × String := (u.versionId,u.documentId,u.storageKey)

structure Recorded (h : History) : Prop where
  documents : (h.store.documents.vaultDocuments.map VaultDocument.id).Nodup
  versions : (h.store.documents.documentVersions.map DocumentVersion.id).Nodup
  storageKeys : (h.store.documents.documentVersions.map DocumentVersion.storageKey).Nodup
  ledger : h.store.documents.documentVersions.map versionEntry = (h.uploads.map uploadEntry).reverse
  known : ∀ u ∈ h.uploads, u.documentId ∈ h.store.documents.vaultDocuments.map VaultDocument.id
  newest : ∀ d ∈ h.store.documents.vaultDocuments, ∃ u, (uploadsOf h d.id).head? = some u ∧ RefersTo d u
  oldest : ∀ d ∈ h.store.documents.vaultDocuments,
    ∃ u, (uploadsOf h d.id).getLast? = some u ∧ u.storageKey = d.storageKey

section
variable {h : History} {req : VaultRequest}

theorem uploadsOf_cons (s : Store) (u : Upload) {id : Uuid} (hid : u.documentId = id) :
    uploadsOf ⟨s,u :: h.uploads⟩ id = u :: uploadsOf h id := by
  simp [uploadsOf,hid]

theorem uploadsOf_cons_of_ne {s : Store} {u : Upload} {id : Uuid} (hne : u.documentId ≠ id) :
    uploadsOf ⟨s,u :: h.uploads⟩ id = uploadsOf h id := by
  simp [uploadsOf,hne]

/-- No upload of a document that does not exist yet. -/
theorem Recorded.uploadsOf_eq_nil (hI : Recorded h) {id : Uuid}
    (hid : id ∉ h.store.documents.vaultDocuments.map VaultDocument.id) : uploadsOf h id = [] := by
  rw [uploadsOf,List.filter_eq_nil_iff]
  intro u hu hdoc
  exact hid (of_decide_eq_true hdoc ▸ hI.known u hu)

theorem Recorded.added (hI : Recorded h) {companyId uploadedById : Uuid} {file : File}
    {dto : UploadDocumentMetadataDto} {draw : Draw}
    (hdoc : draw.documentId ∉ h.store.documents.vaultDocuments.map VaultDocument.id)
    (hversion : draw.versionId ∉ h.store.documents.documentVersions.map DocumentVersion.id)
    (hkey : buildStorageKey companyId file.fileName draw.randomUUID ∉
      h.store.documents.documentVersions.map DocumentVersion.storageKey) :
    Recorded ⟨added companyId uploadedById file dto draw h.store,
      ⟨draw.documentId,draw.versionId,buildStorageKey companyId file.fileName draw.randomUUID,file⟩ :: h.uploads⟩ := by
  have hother : ∀ d ∈ h.store.documents.vaultDocuments, draw.documentId ≠ d.id :=
    fun d hd he => hdoc (List.mem_map.mpr ⟨d,hd,he.symm⟩)
  let u : Upload := ⟨draw.documentId,draw.versionId,buildStorageKey companyId file.fileName draw.randomUUID,file⟩
  have hone :
      uploadsOf ⟨Documents.added companyId uploadedById file dto draw h.store,u :: h.uploads⟩ draw.documentId = [u] := by
    rw [uploadsOf_cons _ _ rfl,hI.uploadsOf_eq_nil hdoc]
  refine ⟨?_,?_,?_,?_,?_,?_,?_⟩
  · exact Table.nodup_append_fresh hI.documents fun q hq he => hother q hq he.symm
  · exact Table.nodup_append_fresh hI.versions fun q hq he => hversion (List.mem_map.mpr ⟨q,hq,he⟩)
  · exact Table.nodup_append_fresh hI.storageKeys fun q hq he => hkey (List.mem_map.mpr ⟨q,hq,he⟩)
  · simp [Documents.added,hI.ledger,versionEntry,uploadEntry,versionRow]
  · intro v hv
    simp only [Documents.added,List.map_append,List.mem_append]
    rcases List.mem_cons.mp hv with rfl | hv
    · exact .inr (by simp [setCurrentVersion,documentRow])
    · exact .inl (hI.known v hv)
  · intro d hd
    rcases List.mem_append.mp hd with hd | hd
    · rw [uploadsOf_cons_of_ne (hother d hd)]
      exact hI.newest d hd
    · obtain rfl := List.mem_singleton.mp hd
      exact ⟨u,congrArg List.head? hone,⟨rfl,rfl,rfl,rfl⟩⟩
  · intro d hd
    rcases List.mem_append.mp hd with hd | hd
    · rw [uploadsOf_cons_of_ne (hother d hd)]
      exact hI.oldest d hd
    · obtain rfl := List.mem_singleton.mp hd
      exact ⟨u,congrArg List.getLast? hone,rfl⟩

theorem Recorded.replaced (hI : Recorded h) {document : VaultDocument} {uploadedById : Uuid} {file : File}
    {draw : Draw}
    (hd : document ∈ h.store.documents.vaultDocuments)
    (hversion : draw.versionId ∉ h.store.documents.documentVersions.map DocumentVersion.id)
    (hkey : buildStorageKey document.companyId file.fileName draw.randomUUID ∉
      h.store.documents.documentVersions.map DocumentVersion.storageKey) :
    Recorded ⟨replaced document uploadedById file draw h.store,
      ⟨document.id,draw.versionId,buildStorageKey document.companyId file.fileName draw.randomUUID,file⟩ ::
        h.uploads⟩ := by
  have hids :
      (Documents.replaced document uploadedById file draw h.store).documents.vaultDocuments.map VaultDocument.id =
        h.store.documents.vaultDocuments.map VaultDocument.id :=
    Table.map_updateMany (f := setNewVersion draw.versionId file) VaultDocument.id (fun _ => rfl) _
  refine ⟨?_,?_,?_,?_,?_,?_,?_⟩
  · exact Table.nodup_updateMany (fun _ => rfl) hI.documents
  · exact Table.nodup_append_fresh hI.versions fun q hq he => hversion (List.mem_map.mpr ⟨q,hq,he⟩)
  · exact Table.nodup_append_fresh hI.storageKeys fun q hq he => hkey (List.mem_map.mpr ⟨q,hq,he⟩)
  · simp [Documents.replaced,hI.ledger,versionEntry,uploadEntry,versionRow]
  · intro u hu
    rw [hids]
    rcases List.mem_cons.mp hu with rfl | hu
    · exact List.mem_map.mpr ⟨document,hd,rfl⟩
    · exact hI.known u hu
  · intro d hnew
    rcases Table.mem_updateMany_cases hnew with ⟨hold,hne⟩ | ⟨q,hq,hid,rfl⟩
    · have hne : document.id ≠ d.id := Ne.symm (of_decide_eq_false hne)
      rw [uploadsOf_cons_of_ne hne]
      exact hI.newest d hold
    · have hid : q.id = document.id := of_decide_eq_true hid
      exact ⟨_,congrArg List.head? (uploadsOf_cons (h := h) _ _ hid.symm),⟨rfl,rfl,rfl,rfl⟩⟩
  · intro d hnew
    rcases Table.mem_updateMany_cases hnew with ⟨hold,hne⟩ | ⟨q,hq,hid,rfl⟩
    · have hne : document.id ≠ d.id := Ne.symm (of_decide_eq_false hne)
      rw [uploadsOf_cons_of_ne hne]
      exact hI.oldest d hold
    · have hid : document.id = q.id := (of_decide_eq_true hid).symm
      obtain ⟨u,hu,hkey⟩ := hI.oldest q hq
      refine ⟨u,?_,hkey⟩
      rw [uploadsOf_cons _ _ hid,List.getLast?_cons]
      exact congrArg (fun o => some (Option.getD o _)) hu

theorem Recorded.next (hI : Recorded h) (hfresh : Fresh h.store req) : Recorded (next h req) := by
  have hstep := step_next hfresh
  generalize Documents.next h req = h' at hstep
  cases hstep with
  | kept hr => exact hI
  | added companyId uploadedById file dto draw accepted => exact hI.added hfresh.1 hfresh.2.1 hfresh.2.2
  | replaced uploadedById file draw hd hr => exact hI.replaced hd hfresh.1 hfresh.2

/-! ## What is signed -/

/-- `getDownloadUrl` signs the key of the current version, which is the one of the
latest upload, and the other columns of the document speak of that upload. -/
def SignsLatest (h : History) (d : VaultDocument) : Prop :=
  ∃ u v, (uploadsOf h d.id).head? = some u ∧ RefersTo d u ∧
    h.store.documents.documentVersions.find? (fun v => some v.id = d.currentVersionId) = some v ∧
    versionEntry v = uploadEntry u ∧
    ((getDownloadUrl d.companyId d.id).run h.store).1 = .ok ⟨⟨v.storageKey,300⟩,300⟩

/-- One upload at most. -/
def Single (documentId : Uuid) (h : History) : Prop := (uploadsOf h documentId).length ≤ 1

theorem Recorded.exists_version (hI : Recorded h) {u : Upload} (hu : u ∈ h.uploads) :
    ∃ v ∈ h.store.documents.documentVersions, versionEntry v = uploadEntry u := by
  have hmem : uploadEntry u ∈ h.store.documents.documentVersions.map versionEntry := by
    rw [hI.ledger]
    exact List.mem_reverse.mpr (List.mem_map_of_mem hu)
  exact List.mem_map.mp hmem

theorem Recorded.nodup_uploadKeys (hI : Recorded h) : (h.uploads.map Upload.storageKey).Nodup := by
  have hkeys : h.store.documents.documentVersions.map DocumentVersion.storageKey =
      (h.uploads.map Upload.storageKey).reverse := by
    have hledger := congrArg (List.map fun e => e.2.2) hI.ledger
    simpa [Function.comp_def,versionEntry,uploadEntry] using hledger
  have hnodup := hI.storageKeys
  rw [hkeys] at hnodup
  exact List.nodup_reverse.mp hnodup

theorem eq_singleton_of_head_eq_last {α : Type} {l : List α} {a : α} (hn : l.Nodup) (hhead : l.head? = some a)
    (hlast : l.getLast? = some a) : l = [a] := by
  cases l with
  | nil => cases hhead
  | cons b l =>
    obtain rfl : b = a := by simpa using hhead
    cases l with
    | nil => rfl
    | cons c l =>
      have hmem : b ∈ c :: l := by
        rw [List.getLast?_cons_cons] at hlast
        exact List.mem_of_getLast? hlast
      exact absurd hmem (List.nodup_cons.mp hn).1

/-- Whatever the requests were, the current version is the latest upload; the signed
key is its key only as long as there was no second upload. -/
theorem Recorded.signsLatest_iff (hI : Recorded h) {d : VaultDocument}
    (hd : d ∈ h.store.documents.vaultDocuments) : SignsLatest h d ↔ Single d.id h := by
  obtain ⟨u,hhead,hrefers⟩ := hI.newest d hd
  obtain ⟨first,hlast,hfirst⟩ := hI.oldest d hd
  have hu : u ∈ h.uploads := (List.mem_filter.mp (List.mem_of_head? hhead)).1
  have hf : first ∈ h.uploads := (List.mem_filter.mp (List.mem_of_getLast? hlast)).1
  obtain ⟨v,hv,hentry⟩ := hI.exists_version hu
  have hsigned : ((getDownloadUrl d.companyId d.id).run h.store).1 = .ok ⟨⟨d.storageKey,300⟩,300⟩ := by
    have hfind : (Prisma.vaultDocument.get h.store).find? (fun q => q.id = d.id) = some d :=
      Table.find?_of_mem hI.documents hd
    simp [getDownloadUrl,findDocument,hfind,ownedBy,getSignedDownloadUrl]
  have hfind : h.store.documents.documentVersions.find? (fun v => some v.id = d.currentVersionId) = some v := by
    have hid : v.id = u.versionId := congrArg Prod.fst hentry
    rw [hrefers.currentVersionId,← hid]
    simpa using Table.find?_of_mem hI.versions hv
  have hkey : v.storageKey = u.storageKey := congrArg (fun e => e.2.2) hentry
  constructor
  · rintro ⟨u',v',hhead',-,hfind',-,hsigned'⟩
    obtain rfl : v' = v := by simpa [hfind] using hfind'.symm
    have hsame : d.storageKey = v'.storageKey := by simpa [hsigned] using hsigned'
    have heq : first = u := Table.eq_of_key hI.nodup_uploadKeys hf hu (by rw [hfirst,hsame,hkey])
    subst heq
    have hn : (uploadsOf h d.id).Nodup := (List.Nodup.of_map _ hI.nodup_uploadKeys).filter _
    rw [Single,eq_singleton_of_head_eq_last hn hhead hlast]
    exact le_refl 1
  · intro hsingle
    have hone : uploadsOf h d.id = [u] := by
      cases hl : uploadsOf h d.id with
      | nil => simp [hl] at hhead
      | cons a l =>
        simp only [Single,hl,List.length_cons] at hsingle
        have hnil : l = [] := List.eq_nil_of_length_eq_zero (by omega)
        simpa [hl,hnil] using hhead
    have heq : u = first := by simpa [hone] using hlast
    exact ⟨u,v,hhead,hrefers,hfind,hentry,by rw [hsigned,hkey,heq,hfirst]⟩

/-- A second upload is a new version of the document, and its ledger never shrinks. -/
theorem single_next (hI : Recorded h) (hfresh : Fresh h.store req) (documentId : Uuid) :
    Single documentId (Documents.next h req) ↔ Single documentId h ∧ ¬ Replaces documentId h.store req := by
  have hstep := step_next hfresh
  generalize Documents.next h req = h' at hstep
  cases hstep with
  | kept hr => simp [hr documentId]
  | added companyId uploadedById file dto draw accepted =>
    simp only [Replaces,not_false_eq_true,and_true]
    by_cases hid : draw.documentId = documentId
    · have hnil := hI.uploadsOf_eq_nil (hid ▸ hfresh.1)
      have hnil' : h.uploads.filter (fun u => u.documentId = documentId) = [] := hnil
      simp [Single,uploadsOf,hid,hnil']
    · simp [Single,uploadsOf,hid]
  | replaced uploadedById file draw hd hr =>
    rename_i document
    rw [hr documentId]
    by_cases hid : document.id = documentId
    · obtain ⟨u,hhead,-⟩ := hI.newest document hd
      have hpos : 0 < (uploadsOf h document.id).length :=
        List.length_pos_of_mem (List.mem_of_head? hhead)
      refine iff_of_false ?_ (fun hboth => hboth.2 hid)
      subst hid
      simp only [Single,uploadsOf,List.filter_cons,decide_true,if_true,List.length_cons] at hpos ⊢
      omega
    · simp [Single,uploadsOf,hid]

end

/-- A store without documents, and nothing uploaded yet. -/
def Empty (h : History) : Prop :=
  h.store.documents.vaultDocuments = [] ∧ h.store.documents.documentVersions = [] ∧ h.uploads = []

theorem Empty.recorded {h : History} (he : Empty h) : Recorded h := by
  obtain ⟨hd,hv,hu⟩ := he
  constructor <;> simp [hd,hv,hu]

/-- After any sequence of requests a document's link is signed for its current
version exactly when none of the requests was a new version of the document that
found it and was stored. -/
theorem signs_latest_iff_never_replaced {h : History} (requests : List VaultRequest) (he : Empty h)
    (hfresh : Along next (fun h req => Fresh h.store req) h requests) {d : VaultDocument}
    (hd : d ∈ (requests.foldl next h).store.documents.vaultDocuments) :
    SignsLatest (requests.foldl next h) d ↔
      Along next (fun h req => ¬ Replaces d.id h.store req) h requests := by
  have hinv : Always next Recorded h requests :=
    always_of_step (fun _ _ hI hfresh => hI.next hfresh) he.recorded hfresh
  have hsingle : Single d.id h := by simp [Single,uploadsOf,he.2.2]
  rw [hinv.last.signsLatest_iff hd]
  rw [last_iff_along (fun _ _ hI hfresh => hI.next hfresh)
    (fun _ _ hI hfresh => single_next hI hfresh d.id) he.recorded hfresh]
  exact and_iff_right hsingle

def permit : VaultRequest :=
  .uploadDocument 1 7 ⟨"permit.pdf","application/pdf",[37,80]⟩ ⟨"permit",none⟩ ⟨10,20,30,0⟩ true

def renewedPermit : VaultRequest :=
  .uploadNewVersion 1 10 7 ⟨"permit-2027.pdf","application/pdf",[37,80,68]⟩ ⟨0,21,31,0⟩ true

def permitRow : VaultDocument where
  id := 10
  companyId := 1
  category := "permit"
  fileName := "permit.pdf"
  storageKey := "companies/1/documents/30_permit.pdf"
  mimeType := some "application/pdf"
  sizeBytes := some 2
  uploadedById := some 7
  currentVersionId := some 20
  createdAt := 0

theorem signs_latest_iff_never_replaced_permit :
    SignsLatest ([permit,.getDownloadUrl 1 10].foldl next ⟨{},[]⟩) permitRow ↔
      Along next (fun h req => ¬ Replaces permitRow.id h.store req) ⟨{},[]⟩ [permit,.getDownloadUrl 1 10] :=
  signs_latest_iff_never_replaced [permit,.getDownloadUrl 1 10] ⟨rfl,rfl,rfl⟩
    ⟨⟨by decide,by decide,by decide⟩,trivial,trivial⟩ (by decide +kernel)

def renewedRow : VaultDocument :=
  { permitRow with fileName := "permit-2027.pdf", sizeBytes := some 3, currentVersionId := some 21 }

/-- After a new version the link still leads to the object of the first one. -/
theorem renewedPermit_not_signed :
    Empty ⟨{},[]⟩ ∧ Along next (fun h req => Fresh h.store req) ⟨{},[]⟩ [permit,renewedPermit] ∧
      renewedRow ∈ ([permit,renewedPermit].foldl next ⟨{},[]⟩).store.documents.vaultDocuments ∧
      ¬ SignsLatest ([permit,renewedPermit].foldl next ⟨{},[]⟩) renewedRow := by
  refine ⟨⟨rfl,rfl,rfl⟩,⟨⟨by decide,by decide,by decide⟩,⟨by decide +kernel,by decide +kernel⟩,trivial⟩,
    by decide +kernel,?_⟩
  rintro ⟨u,v,-,-,hfind,-,hsigned⟩
  have hv : v = ⟨21,10,"companies/1/documents/31_permit-2027.pdf",2,some 7⟩ :=
    Option.some.inj (hfind.symm.trans (by decide +kernel))
  have hurl := congrArg Except.toOption hsigned
  subst hv
  exact absurd hurl (by decide +kernel)

end PinoyTax.Documents
