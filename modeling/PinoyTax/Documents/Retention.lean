import PinoyTax.Foundation.Texts
import PinoyTax.Documents.ObjectStore

/-! # Uploaded files are kept

No request deletes or overwrites what an upload has stored: a key has the random number of
its upload in it, and rows are only added. So whatever else is going on, every version goes
on being listed and its key goes on naming the file that was uploaded for it.
-/
namespace PinoyTax.Documents
open PinoyTax Foundation

/-! ## Keys -/

/-- The company and the random number can be read off a key. -/
theorem buildStorageKey_injective {companyId companyId' randomUUID randomUUID' : Uuid} {fileName fileName' : String}
    (h : buildStorageKey companyId fileName randomUUID = buildStorageKey companyId' fileName' randomUUID') :
    companyId = companyId' ∧ randomUUID = randomUUID' := by
  have htexts := congrArg String.toList h
  have hdocuments : "/documents/".toList = '/' :: "documents/".toList := rfl
  have hunderscore : "_".toList = ['_'] := rfl
  simp only [buildStorageKey,String.toList_append,List.append_assoc,hdocuments,hunderscore,List.cons_append,
    List.nil_append] at htexts
  have hrest := List.append_cancel_left htexts
  obtain ⟨hcompany,hrandom⟩ := append_cons_inj (notMem_toString companyId rfl) (notMem_toString companyId' rfl) hrest
  obtain ⟨hnumber,-⟩ := append_cons_inj (notMem_toString randomUUID rfl) (notMem_toString randomUUID' rfl)
    (List.append_cancel_left hrandom)
  exact ⟨toString_injective hcompany,toString_injective hnumber⟩

/-! ## What is kept -/

namespace Vault
section
variable (fileOf : Uuid → File)

/-- The rows that name objects. -/
def documentRows (s : Store) : List VaultDocument × List DocumentVersion :=
  (s.documents.vaultDocuments,s.documents.documentVersions)

/-- The key of the upload that draws the random number, and under it the upload's file. -/
def Holds (v : Vault) (storageKey : String) (randomUUID : Uuid) : Prop :=
  (∃ companyId, storageKey = buildStorageKey companyId (fileOf randomUUID).fileName randomUUID) ∧
    v.object storageKey = some (fileOf randomUUID).object

/-- The keys in rows name the files that were uploaded. -/
structure Kept (v : Vault) : Prop where
  versions : ∀ x ∈ v.store.documents.documentVersions, ∃ r, Holds fileOf v x.storageKey r
  documents : ∀ d ∈ v.store.documents.vaultDocuments, ∃ r, Holds fileOf v d.storageKey r
  documentIds : (v.store.documents.vaultDocuments.map VaultDocument.id).Nodup

/-- Rows and objects are added. -/
structure Extends (v w : Vault) : Prop where
  versions : ∀ x ∈ v.store.documents.documentVersions, x ∈ w.store.documents.documentVersions
  documents : ∀ d ∈ v.store.documents.vaultDocuments, ∃ d' ∈ w.store.documents.vaultDocuments,
    d'.id = d.id ∧ d'.companyId = d.companyId ∧ d'.storageKey = d.storageKey
  objects : ∀ storageKey r, Holds fileOf v storageKey r → Holds fileOf w storageKey r

theorem Extends.refl (v : Vault) : Extends fileOf v v := ⟨fun _ h => h,fun d h => ⟨d,h,rfl,rfl,rfl⟩,fun _ _ h => h⟩

theorem Extends.trans {fileOf : Uuid → File} {u v w : Vault} (h : Extends fileOf u v) (h' : Extends fileOf v w) :
    Extends fileOf u w := by
  refine ⟨fun x hx => h'.versions x (h.versions x hx),fun d hd => ?_,fun k r hk => h'.objects k r (h.objects k r hk)⟩
  obtain ⟨d₁,hd₁,hid₁,hc₁,hk₁⟩ := h.documents d hd
  obtain ⟨d₂,hd₂,hid₂,hc₂,hk₂⟩ := h'.documents d₁ hd₁
  exact ⟨d₂,hd₂,hid₂.trans hid₁,hc₂.trans hc₁,hk₂.trans hk₁⟩

def retention : Discipline Vault where
  Inv := Kept fileOf
  Admits v := (v.store.documents.vaultDocuments.map VaultDocument.id).Nodup
  Later := Extends fileOf
  refl := Extends.refl fileOf
  trans := Extends.trans

end

/-! ## What a statement does -/

section
variable {fileOf : Uuid → File} {v w : Vault} {s t u : Store} {storageKey : String}

theorem Kept.of_rows (hv : Kept fileOf v) (hvw : Extends fileOf v w) (hrows : documentRows w.store = documentRows v.store) :
    Kept fileOf w := by
  obtain ⟨hdocuments,hversions⟩ := Prod.mk.inj hrows
  refine ⟨fun x hx => ?_,fun d hd => ?_,by rw [hdocuments]; exact hv.documentIds⟩
  · rw [hversions] at hx
    obtain ⟨r,hr⟩ := hv.versions x hx
    exact ⟨r,hvw.objects _ _ hr⟩
  · rw [hdocuments] at hd
    obtain ⟨r,hr⟩ := hv.documents d hd
    exact ⟨r,hvw.objects _ _ hr⟩

theorem extends_of_rows (hrows : documentRows w.store = documentRows v.store) (hbucket : w.bucket = v.bucket) :
    Extends fileOf v w := by
  obtain ⟨hdocuments,hversions⟩ := Prod.mk.inj hrows
  refine ⟨fun x hx => by rw [hversions]; exact hx,fun d hd => ⟨d,by rw [hdocuments]; exact hd,rfl,rfl,rfl⟩,?_⟩
  rintro k r ⟨hkey,hobject⟩
  exact ⟨hkey,by rw [object,hbucket]; exact hobject⟩

/-- A put under its own key overwrites nothing else. -/
theorem extends_put (companyId r : Uuid) (v : Vault) :
    Extends fileOf v (v.put (buildStorageKey companyId (fileOf r).fileName r) (fileOf r).object) := by
  refine ⟨fun _ h => h,fun d h => ⟨d,h,rfl,rfl,rfl⟩,?_⟩
  rintro k r' ⟨⟨companyId',rfl⟩,hobject⟩
  refine ⟨⟨companyId',rfl⟩,?_⟩
  by_cases hk : buildStorageKey companyId' (fileOf r').fileName r' = buildStorageKey companyId (fileOf r).fileName r
  · obtain ⟨-,rfl⟩ := buildStorageKey_injective hk
    rw [hk]
    exact object_put_self _ _ v
  · rw [object_put_of_ne _ v hk]
    exact hobject

/-- Rows are added under the key, the ids, owners and keys of the others staying as they are. -/
structure Adding (storageKey : String) (s t : Store) : Prop where
  versions : ∀ x ∈ s.documents.documentVersions, x ∈ t.documents.documentVersions
  newVersions : ∀ x ∈ t.documents.documentVersions, x ∈ s.documents.documentVersions ∨ x.storageKey = storageKey
  documents : ∀ d ∈ s.documents.vaultDocuments, ∃ d' ∈ t.documents.vaultDocuments,
    d'.id = d.id ∧ d'.companyId = d.companyId ∧ d'.storageKey = d.storageKey
  newDocuments : ∀ d ∈ t.documents.vaultDocuments,
    (∃ d' ∈ s.documents.vaultDocuments, d'.storageKey = d.storageKey) ∨ d.storageKey = storageKey

theorem Adding.trans (h : Adding storageKey s t) (h' : Adding storageKey t u) : Adding storageKey s u := by
  constructor
  · exact fun x hx => h'.versions x (h.versions x hx)
  · intro x hx
    rcases h'.newVersions x hx with hx | hx
    · exact h.newVersions x hx
    · exact .inr hx
  · intro d hd
    obtain ⟨d₁,hd₁,hid₁,hc₁,hk₁⟩ := h.documents d hd
    obtain ⟨d₂,hd₂,hid₂,hc₂,hk₂⟩ := h'.documents d₁ hd₁
    exact ⟨d₂,hd₂,hid₂.trans hid₁,hc₂.trans hc₁,hk₂.trans hk₁⟩
  · intro d hd
    rcases h'.newDocuments d hd with ⟨d₁,hd₁,hk₁⟩ | hk
    · rcases h.newDocuments d₁ hd₁ with ⟨d₀,hd₀,hk₀⟩ | hk
      · exact .inl ⟨d₀,hd₀,hk₀.trans hk₁⟩
      · exact .inr (hk₁.symm.trans hk)
    · exact .inr hk

theorem adding_version {x : DocumentVersion} (hx : x.storageKey = storageKey) :
    Adding storageKey s (Prisma.documentVersion.set (s.documents.documentVersions ++ [x]) s) := by
  refine ⟨fun y hy => List.mem_append_left _ hy,fun y hy => ?_,fun d hd => ⟨d,hd,rfl,rfl,rfl⟩,fun d hd => .inl ⟨d,hd,rfl⟩⟩
  rcases List.mem_append.mp hy with hy | hy
  · exact .inl hy
  · obtain rfl := List.mem_singleton.mp hy
    exact .inr hx

theorem adding_document {d : VaultDocument} (hd : d.storageKey = storageKey) :
    Adding storageKey s (Prisma.vaultDocument.set (s.documents.vaultDocuments ++ [d]) s) := by
  refine ⟨fun _ h => h,fun _ h => .inl h,fun e he => ⟨e,List.mem_append_left _ he,rfl,rfl,rfl⟩,fun e he => ?_⟩
  rcases List.mem_append.mp he with he | he
  · exact .inl ⟨e,he,rfl⟩
  · obtain rfl := List.mem_singleton.mp he
    exact .inr hd

theorem adding_update (p : VaultDocument → Bool) {f : VaultDocument → VaultDocument} (hid : ∀ d, (f d).id = d.id)
    (hcompany : ∀ d, (f d).companyId = d.companyId) (hkey : ∀ d, (f d).storageKey = d.storageKey) :
    Adding storageKey s (Prisma.vaultDocument.set (Table.updateMany p f s.documents.vaultDocuments) s) := by
  refine ⟨fun _ h => h,fun _ h => .inl h,fun d hd => ?_,fun d hd => .inl ?_⟩
  · by_cases hp : p d = true
    · exact ⟨f d,Table.mem_updateMany_image hd hp,hid d,hcompany d,hkey d⟩
    · exact ⟨d,Table.mem_updateMany_of_mem hd (by simpa using hp),rfl,rfl,rfl⟩
  · rcases Table.mem_updateMany_cases hd with ⟨hd,-⟩ | ⟨e,he,-,rfl⟩
    · exact ⟨d,hd,rfl⟩
    · exact ⟨e,he,(hkey e).symm⟩

/-- Rows are added once the file is there. -/
theorem Kept.adding {r : Uuid} (hv : Kept fileOf v) (hr : Holds fileOf v storageKey r) (hadding : Adding storageKey v.store t)
    (hids : (t.documents.vaultDocuments.map VaultDocument.id).Nodup) :
    Kept fileOf { v with store := t } ∧ Extends fileOf v { v with store := t } := by
  refine ⟨⟨fun x hx => ?_,fun d hd => ?_,hids⟩,hadding.versions,hadding.documents,fun _ _ h => h⟩
  · rcases hadding.newVersions x hx with hx | hx
    · exact hv.versions x hx
    · exact ⟨r,by rw [hx]; exact hr⟩
  · rcases hadding.newDocuments d hd with ⟨d',hd',hk⟩ | hk
    · obtain ⟨r',hr'⟩ := hv.documents d' hd'
      exact ⟨r',by rw [← hk]; exact hr'⟩
    · exact ⟨r,by rw [hk]; exact hr⟩

end

/-! ## What a request does -/

def Describes (d : VaultDocument) (file : File) : Prop :=
  d.fileName = file.fileName ∧ d.mimeType = some file.mimeType ∧ d.sizeBytes = some file.body.length

section
variable {fileOf : Uuid → File} {v : Vault} {storageKey : String} {file : File}

/-- The document names a version of its own that was stored under the key. -/
def Names (storageKey : String) (file : File) (d : VaultDocument) (s : Store) : Prop :=
  Describes d file ∧ ∃ x ∈ s.documents.documentVersions,
    d.currentVersionId = some x.id ∧ x.documentId = d.id ∧ x.storageKey = storageKey

/-- The document that was replied is the one of a version whose file is in the bucket. -/
def Reported (fileOf : Uuid → File) (d : VaultDocument) (v : Vault) : Prop :=
  ∃ x ∈ v.store.documents.documentVersions, d.currentVersionId = some x.id ∧ x.documentId = d.id ∧
    ∃ r, Holds fileOf v x.storageKey r ∧ Describes d (fileOf r)

theorem Reported.extends {d : VaultDocument} {w : Vault} (h : Reported fileOf d v) (hvw : Extends fileOf v w) :
    Reported fileOf d w := by
  obtain ⟨x,hx,hid,hdoc,r,hr,hdesc⟩ := h
  exact ⟨x,hvw.versions x hx,hid,hdoc,r,hvw.objects _ _ hr,hdesc⟩

/-- A body is right when it adds rows under the key, unless ids come up twice. -/
def Adds {α : Type} (storageKey : String) (R : α → Store → Prop) (body : Request α) : Prop :=
  ∀ s, body.Ensures (fun a t => (t.documents.vaultDocuments.map VaultDocument.id).Nodup → Adding storageKey s t ∧ R a t) s

theorem adds_addVersion (documentId uploadedById : Uuid) (file : File) (draw : Draw) (storageKey : String) (number : ℕ) :
    Adds storageKey (Names storageKey file) (addVersion documentId uploadedById file draw storageKey number) := by
  intro s
  refine Prog.Ensures.bind (ensures_update fun d hd _ => ⟨?_,⟨rfl,rfl,rfl⟩,?_⟩)
  · have hversion := adding_version (s := s) (x := versionRow documentId uploadedById draw storageKey number) rfl
    exact hversion.trans (adding_update _ (f := setNewVersion draw.versionId file) (fun _ => rfl) (fun _ => rfl) fun _ => rfl)
  · obtain ⟨-,hid⟩ := Table.find?_key_some hd
    exact ⟨_,List.mem_append_right _ (List.mem_singleton_self _),rfl,hid.symm,rfl⟩

/-- The document that the transaction finds again is the one it has created. -/
theorem find?_created {documents : List VaultDocument} {d e : VaultDocument} {f : VaultDocument → VaultDocument}
    (hfound : (documents ++ [d]).find? (fun q => q.id = d.id) = some e) (hf : ∀ q, (f q).id = q.id)
    (hnodup : ((Table.updateMany (fun q => q.id = d.id) f (documents ++ [d])).map VaultDocument.id).Nodup) : e = d := by
  rw [Table.map_updateMany VaultDocument.id hf] at hnodup
  obtain ⟨he,hid⟩ := Table.find?_key_some hfound
  exact Table.eq_of_key hnodup he (List.mem_append_right _ (List.mem_singleton_self d)) hid

theorem adds_addDocument (companyId uploadedById : Uuid) (file : File) (dto : UploadDocumentMetadataDto) (draw : Draw)
    (storageKey : String) : Adds storageKey (fun a => Names storageKey file a.1)
      (addDocument companyId uploadedById file dto draw storageKey) := by
  intro s
  let d := documentRow companyId uploadedById file dto draw storageKey
  let x := versionRow d.id uploadedById draw storageKey 1
  have hdocument := adding_document (s := s) (d := d) rfl
  have hversion := hdocument.trans (adding_version (x := x) rfl)
  have hupdate := hversion.trans (adding_update (fun q => q.id = d.id) (f := setCurrentVersion x.id)
    (fun _ => rfl) (fun _ => rfl) fun _ => rfl)
  refine Prog.Ensures.bind (Prog.Ensures.bind (Prog.Ensures.bind (ensures_update fun e he hnodup => ⟨hupdate,?_⟩)))
  have hfound : (s.documents.vaultDocuments ++ [d]).find? (fun q => q.id = d.id) = some e := he
  have hcreated : e = d := find?_created hfound (f := setCurrentVersion x.id) (fun _ => rfl) hnodup
  obtain rfl := hcreated
  exact ⟨⟨rfl,rfl,rfl⟩,x,List.mem_append_right _ (List.mem_singleton_self x),rfl,rfl,rfl⟩

/-- The transaction after the put. -/
theorem respects_commit {α : Type} {R : α → Store → Prop} {body : Request α} (hbody : Adds storageKey R body) {r : Uuid}
    (hr : Holds fileOf v storageKey r) :
    (query (transaction body)).Respects (retention fileOf) (fun a w => ∃ u, R a u.store ∧ Holds fileOf u storageKey r ∧
      Extends fileOf u w) v := by
  intro w hvw hkept hadm
  have hens := hbody w.store
  have hw := hvw.objects _ _ hr
  have hstore : (database.get w) = w.store := rfl
  unfold Prog.Ensures at hens
  beta_reduce at hadm ⊢
  rw [hstore] at hadm ⊢
  generalize body.run w.store = out at hens hadm ⊢
  obtain ⟨o,t⟩ := out
  cases o with
  | error e => exact ⟨hkept,Extends.refl fileOf w,trivial⟩
  | ok a =>
    obtain ⟨hadding,hR⟩ := hens hadm
    obtain ⟨hkept',hextends⟩ := hkept.adding hw hadding hadm
    exact ⟨hkept',hextends,fun u hu => ⟨_,hR,hextends.objects _ _ hw,hu⟩⟩

theorem respects_upload (companyId : Uuid) {r : Uuid} (hfile : fileOf r = file) (outcome : PutOutcome) (v : Vault) :
    (upload (buildStorageKey companyId file.fileName r) file outcome).Respects (retention fileOf)
      (fun _ w => Holds fileOf w (buildStorageKey companyId file.fileName r) r) v := by
  subst hfile
  intro w _ hkept _
  have hput : Extends fileOf w _ := extends_put companyId r w
  have hholds : Holds fileOf (w.put (buildStorageKey companyId (fileOf r).fileName r) (fileOf r).object)
      (buildStorageKey companyId (fileOf r).fileName r) r := ⟨⟨companyId,rfl⟩,object_put_self _ _ w⟩
  cases outcome with
  | answered => exact ⟨hkept.of_rows hput rfl,hput,fun u hu => hu.objects _ _ hholds⟩
  | refused => exact ⟨hkept,Extends.refl fileOf w,trivial⟩
  | unanswered => exact ⟨hkept.of_rows hput rfl,hput,trivial⟩

/-- Statements that leave the rows as they are. -/
theorem guarantees_query {α : Type} {p : Request α} (hp : p.Keeps documentRows) :
    (query p).Guarantees (fun _ v w => (retention fileOf).Inv v → (retention fileOf).Admits w →
      (retention fileOf).Inv w ∧ (retention fileOf).Later v w) := by
  refine Prog.Guarantees.zoom hp fun _ v t hrows hkept _ => ?_
  have hextends : Extends fileOf v { v with store := t } := extends_of_rows hrows rfl
  exact ⟨hkept.of_rows hextends hrows,hextends⟩

theorem keeps_findMany {ρ τ : Type} (t : TableRef ρ) (p : ρ → Bool) (g : Store → τ) : (t.findMany p).Keeps g :=
  fun _ => ⟨rfl,trivial⟩

theorem keeps_checkFolder {τ : Type} (g : Store → τ) (companyId : Uuid) (e : ApiException) (folderId : Option Uuid) :
    (checkFolder companyId e folderId).Keeps g := by
  cases folderId with
  | none => trivial
  | some folderId =>
    have hfolder : (Prisma.folder.findUnique (fun f => f.id = folderId)).Keeps g := fun _ => ⟨rfl,trivial⟩
    exact hfolder.bind fun found => Prog.Guarantees.bind (keeps_ownedBy companyId e found) fun _ => trivial

theorem keeps_findOwned {τ : Type} (g : Store → τ) (companyId documentId : Uuid) :
    (findOwned companyId documentId).Keeps g := by
  have hfind : (findDocumentWithVersions documentId).Keeps g := fun _ => ⟨rfl,trivial⟩
  exact hfind.bind fun found => keeps_ownedBy companyId documentNotFound found

theorem keeps_findDocument {τ : Type} (g : Store → τ) (companyId documentId : Uuid) :
    (findDocument companyId documentId).Keeps g := by
  have hfind : (Prisma.vaultDocument.findUnique (fun d => d.id = documentId)).Keeps g := fun _ => ⟨rfl,trivial⟩
  exact hfind.bind fun found => keeps_ownedBy companyId documentNotFound found

theorem keeps_listDocuments {τ : Type} (g : Store → τ) (companyId : Uuid) (folderId : Option Uuid) (category : Option String) :
    (listDocuments companyId folderId category).Keeps g :=
  (keeps_findMany Prisma.vaultDocument (listed companyId folderId category) g).bind fun _ => trivial

theorem keeps_listVersions {τ : Type} (g : Store → τ) (companyId documentId : Uuid) :
    (listVersions companyId documentId).Keeps g := by
  have hversions := keeps_findMany Prisma.documentVersion (fun x => x.documentId = documentId) g
  exact (keeps_findDocument g companyId documentId).bind fun _ => hversions.bind fun _ => trivial

theorem keeps_getDownloadUrl {τ : Type} (g : Store → τ) (companyId documentId : Uuid) :
    (getDownloadUrl companyId documentId).Keeps g := (keeps_findDocument g companyId documentId).bind fun _ => trivial

theorem keeps_createFolder (companyId : Uuid) (dto : CreateFolderDto) (id : Uuid) :
    (createFolder companyId dto id).Keeps documentRows :=
  (keeps_checkFolder _ companyId _ _).bind fun _ => fun _ => ⟨rfl,trivial⟩

end

/-! ## All requests -/

inductive VaultCall
  | createFolder (companyId : Uuid) (dto : CreateFolderDto) (id : Uuid)
  | listFolders (companyId : Uuid)
  | listDocuments (companyId : Uuid) (folderId : Option Uuid) (category : Option String)
  | uploadDocument (companyId uploadedById : Uuid) (file : File) (dto : UploadDocumentMetadataDto) (draw : Draw)
      (outcome : PutOutcome)
  | uploadNewVersion (companyId documentId uploadedById : Uuid) (file : File) (draw : Draw) (outcome : PutOutcome)
  | listVersions (companyId documentId : Uuid)
  | getDownloadUrl (companyId documentId : Uuid)

/-- An upload replies with the document. -/
def VaultCall.program : VaultCall → Call (Option VaultDocument)
  | createFolder companyId dto id => query (Documents.createFolder companyId dto id) >>= fun _ => pure none
  | listFolders companyId => query (Documents.listFolders companyId) >>= fun _ => pure none
  | listDocuments companyId folderId category =>
    query (Documents.listDocuments companyId folderId category) >>= fun _ => pure none
  | uploadDocument companyId uploadedById file dto draw outcome =>
    Vault.uploadDocument companyId uploadedById file dto draw outcome >>= fun reply => pure (some reply.1)
  | uploadNewVersion companyId documentId uploadedById file draw outcome =>
    Vault.uploadNewVersion companyId documentId uploadedById file draw outcome >>= fun document => pure (some document)
  | listVersions companyId documentId => query (Documents.listVersions companyId documentId) >>= fun _ => pure none
  | getDownloadUrl companyId documentId => query (Documents.getDownloadUrl companyId documentId) >>= fun _ => pure none

/-- The random number that an upload puts into its key, and its file. -/
def VaultCall.drawn : VaultCall → Option (Uuid × File)
  | uploadDocument _ _ file _ draw _ => some (draw.randomUUID,file)
  | uploadNewVersion _ _ _ file draw _ => some (draw.randomUUID,file)
  | _ => none

section
variable (fileOf : Uuid → File)

/-- No random number is drawn for two files. -/
def VaultArrives (p : Call (Option VaultDocument)) : Prop :=
  ∃ call : VaultCall, p = call.program ∧ ∀ r file, call.drawn = some (r,file) → fileOf r = file

def ReportsKept (reply : Option VaultDocument) (v : Vault) : Prop := ∀ d, reply = some d → Reported fileOf d v

end

section
variable {fileOf : Uuid → File}

theorem respects_reading {α : Type} {p : Request α} (hp : p.Keeps documentRows) (v : Vault) :
    (query p >>= fun _ => pure none).Respects (retention fileOf) (ReportsKept fileOf) v := by
  refine (guarantees_query hp).respects_bind fun _ _ _ => fun w _ d hd => ?_
  cases hd

theorem reported_of_names {storageKey : String} {r : Uuid} {d : VaultDocument} {u w : Vault}
    (hnames : Names storageKey (fileOf r) d u.store) (hr : Holds fileOf u storageKey r) (huw : Extends fileOf u w) :
    Reported fileOf d w := by
  obtain ⟨hdescribes,x,hx,hid,hdoc,hkey⟩ := hnames
  exact Reported.extends ⟨x,hx,hid,hdoc,r,by rw [hkey]; exact hr,hdescribes⟩ huw

theorem respects_program (call : VaultCall) (hdrawn : ∀ r file, call.drawn = some (r,file) → fileOf r = file) (v : Vault) :
    call.program.Respects (retention fileOf) (ReportsKept fileOf) v := by
  cases call with
  | createFolder companyId dto id => exact respects_reading (keeps_createFolder companyId dto id) v
  | listFolders companyId => exact respects_reading (keeps_findMany _ _ _) v
  | listDocuments companyId folderId category =>
    exact respects_reading (keeps_listDocuments _ companyId folderId category) v
  | listVersions companyId documentId => exact respects_reading (keeps_listVersions _ companyId documentId) v
  | getDownloadUrl companyId documentId => exact respects_reading (keeps_getDownloadUrl _ companyId documentId) v
  | uploadDocument companyId uploadedById file dto draw outcome =>
    have hfile : fileOf draw.randomUUID = file := hdrawn _ _ rfl
    refine Prog.Respects.bind (Q := fun reply w => Reported fileOf reply.1 w) ?_ fun reply w h => ?_
    · refine (guarantees_query (keeps_checkFolder _ companyId _ _)).respects_bind fun _ w _ => ?_
      refine (respects_upload companyId hfile outcome w).bind fun _ u hu => ?_
      refine (respects_commit (adds_addDocument companyId uploadedById file dto draw _) hu).mono ?_
      rintro reply z ⟨y,hnames,hholds,hyz⟩
      exact reported_of_names (by rw [hfile]; exact hnames) hholds hyz
    · rintro z hz d hd
      obtain rfl := Option.some.inj hd
      exact h.extends hz
  | uploadNewVersion companyId documentId uploadedById file draw outcome =>
    have hfile : fileOf draw.randomUUID = file := hdrawn _ _ rfl
    refine Prog.Respects.bind (Q := fun d w => Reported fileOf d w) ?_ fun document w h => ?_
    · refine (guarantees_query (keeps_findOwned _ companyId documentId)).respects_bind fun found w _ => ?_
      refine (respects_upload found.1.companyId hfile outcome w).bind fun _ u hu => ?_
      refine (respects_commit (adds_addVersion found.1.id uploadedById file draw _ (found.2.length + 1)) hu).mono ?_
      rintro d z ⟨y,hnames,hholds,hyz⟩
      exact reported_of_names (by rw [hfile]; exact hnames) hholds hyz
    · rintro z hz d hd
      obtain rfl := Option.some.inj hd
      exact h.extends hz

end

theorem run_findDocument {s : Store} (hids : (s.documents.vaultDocuments.map VaultDocument.id).Nodup) {d : VaultDocument}
    (hd : d ∈ s.documents.vaultDocuments) : (findDocument d.companyId d.id).run s = (.ok d,s) := by
  have hfind : (Prisma.vaultDocument.get s).find? (fun q => q.id = d.id) = some d := Table.find?_of_mem hids hd
  rw [findDocument,Prog.run_bind,TableRef.run_findUnique,Prog.resume_ok,hfind,ownedBy,if_pos rfl]
  rfl

theorem mem_listVersions {s : Store} (hids : (s.documents.vaultDocuments.map VaultDocument.id).Nodup) {d : VaultDocument}
    (hd : d ∈ s.documents.vaultDocuments) {x : DocumentVersion} (hx : x ∈ s.documents.documentVersions)
    (hxd : x.documentId = d.id) : ∃ versions, ((listVersions d.companyId d.id).run s).1 = .ok versions ∧ x ∈ versions := by
  have hmem : x ∈ s.documents.documentVersions.filter (fun x => x.documentId = d.id) :=
    List.mem_filter.mpr ⟨hx,decide_eq_true hxd⟩
  refine ⟨_,?_,(List.mem_insertionSort fun a b : DocumentVersion => b.versionNumber ≤ a.versionNumber).mpr hmem⟩
  rw [listVersions,Prog.run_bind,run_findDocument hids hd]
  rfl

theorem run_getDownloadUrl {s : Store} (hids : (s.documents.vaultDocuments.map VaultDocument.id).Nodup) {d : VaultDocument}
    (hd : d ∈ s.documents.vaultDocuments) :
    ((getDownloadUrl d.companyId d.id).run s).1 = .ok ⟨getSignedDownloadUrl d.storageKey,300⟩ := by
  rw [getDownloadUrl,Prog.run_bind,run_findDocument hids hd]
  rfl

/-- Whatever requests arrive and however their statements interleave, with puts and
transactions failing at any point: a version goes on being listed and its key goes on naming the
same object, which is the file of the upload that made the version; download links find an object;
and what an upload has replied is kept. -/
theorem uploads_are_kept (fileOf : Uuid → File) (s : Vault) (hs : Kept fileOf s)
    (c : Config Vault Label ApiException (Option VaultDocument))
    (h : Reached (fun v => v = s) (fun v => (v.store.documents.vaultDocuments.map VaultDocument.id).Nodup)
      (VaultArrives fileOf) (fun v w => documentRows w.store = documentRows v.store ∧ w.bucket = v.bucket) c) :
    (∀ d ∈ s.store.documents.vaultDocuments, ∀ x ∈ s.store.documents.documentVersions, x.documentId = d.id →
      (∃ versions, ((listVersions d.companyId d.id).run c.state.store).1 = .ok versions ∧ x ∈ versions) ∧
        c.state.object x.storageKey = s.object x.storageKey) ∧
      (∀ x ∈ c.state.store.documents.documentVersions, ∃ companyId r,
        x.storageKey = buildStorageKey companyId (fileOf r).fileName r ∧
          c.state.object x.storageKey = some (fileOf r).object) ∧
      (∀ d ∈ c.state.store.documents.vaultDocuments, ∃ url o,
        ((getDownloadUrl d.companyId d.id).run c.state.store).1 = .ok url ∧ c.state.object url.url.storageKey = some o) ∧
      ∀ d, .done (.ok (some d)) ∈ c.threads → Reported fileOf d c.state := by
  have harrives : ∀ p, VaultArrives fileOf p → ∀ v, Kept fileOf v → p.Respects (retention fileOf) (ReportsKept fileOf) v := by
    rintro p ⟨call,rfl,hdrawn⟩ v _
    exact respects_program call hdrawn v
  have houtside : ∀ v w, documentRows w.store = documentRows v.store ∧ w.bucket = v.bucket → Kept fileOf v →
      Kept fileOf w ∧ Extends fileOf v w := by
    rintro v w ⟨hrows,hbucket⟩ hv
    have hextends : Extends fileOf v w := extends_of_rows hrows hbucket
    exact ⟨hv.of_rows hextends hrows,hextends⟩
  have hkept : Kept fileOf c.state :=
    (Reached.respected (D := retention fileOf) (fun v hv => by rw [hv]; exact hs) harrives houtside h).1
  have hextends : Extends fileOf s c.state := Reached.later (D := retention fileOf) hs harrives houtside h
  refine ⟨fun d hd x hx hxd => ⟨?_,?_⟩,fun x hx => ?_,fun d hd => ?_,fun d hd => ?_⟩
  · obtain ⟨d',hd',hid,hcompany,-⟩ := hextends.documents d hd
    rw [← hid,← hcompany]
    exact mem_listVersions hkept.documentIds hd' (hextends.versions x hx) (by rw [hid]; exact hxd)
  · obtain ⟨r,hr⟩ := hs.versions x hx
    exact (hextends.objects _ _ hr).2.trans hr.2.symm
  · obtain ⟨r,⟨companyId,hkey⟩,hobject⟩ := hkept.versions x hx
    exact ⟨companyId,r,hkey,hobject⟩
  · obtain ⟨r,-,hobject⟩ := hkept.documents d hd
    exact ⟨_,_,run_getDownloadUrl hkept.documentIds hd,hobject⟩
  · exact Reached.replied (D := retention fileOf) (fun v hv => by rw [hv]; exact hs) harrives houtside h hd d rfl

def permitFile : File := ⟨"permit.pdf","application/pdf",[37,80]⟩
def renewedFile : File := ⟨"permit-2027.pdf","application/pdf",[37,80,68]⟩

/-- A permit that has been uploaded. -/
def permitVault : Vault where
  store.documents :=
    { vaultDocuments := [permitRow]
      documentVersions := [versionRow 10 7 ⟨10,20,30,0⟩ "companies/1/documents/30_permit.pdf" 1] }
  bucket := [("companies/1/documents/30_permit.pdf",permitFile.object)]

def permitFiles (randomUUID : Uuid) : File := if randomUUID = 30 then permitFile else renewedFile

theorem kept_permitVault : Kept permitFiles permitVault := by
  have hpermit : Holds permitFiles permitVault "companies/1/documents/30_permit.pdf" 30 :=
    ⟨⟨1,by decide +kernel⟩,by decide +kernel⟩
  refine ⟨fun x hx => ?_,fun d hd => ?_,by decide⟩
  · obtain rfl := List.mem_singleton.mp hx
    exact ⟨30,hpermit⟩
  · obtain rfl := List.mem_singleton.mp hd
    exact ⟨30,hpermit⟩

/-- The permit is renewed, at the second try. -/
theorem uploads_are_kept_renewed : ∃ c, Reached (fun v => v = permitVault)
      (fun v => (v.store.documents.vaultDocuments.map VaultDocument.id).Nodup) (VaultArrives permitFiles)
      (fun v w => documentRows w.store = documentRows v.store ∧ w.bucket = v.bucket) c ∧
    c.state.store.documents.documentVersions.map DocumentVersion.versionNumber = [1,2] ∧
    c.state.object "companies/1/documents/30_permit.pdf" = some permitFile.object ∧
    ∀ x ∈ c.state.store.documents.documentVersions, ∃ companyId r,
      x.storageKey = buildStorageKey companyId (permitFiles r).fileName r ∧
        c.state.object x.storageKey = some (permitFiles r).object := by
  have hstart : Reached (fun v => v = permitVault)
      (fun v => (v.store.documents.vaultDocuments.map VaultDocument.id).Nodup) (VaultArrives permitFiles)
      (fun v w => documentRows w.store = documentRows v.store ∧ w.bucket = v.bucket) ⟨permitVault,[]⟩ := .start rfl
  have hfirst := hstart.arrive ⟨.uploadNewVersion 1 10 7 renewedFile ⟨0,21,31,0⟩ .unanswered,rfl,by
    rintro r file ⟨⟩
    rfl⟩
  have hfound := hfirst.execute (i := 0) rfl (by decide +kernel)
  have hput := hfound.execute (i := 0) rfl (by decide +kernel)
  have hagain := hput.arrive ⟨.uploadNewVersion 1 10 7 renewedFile ⟨0,22,32,0⟩ .answered,rfl,by
    rintro r file ⟨⟩
    rfl⟩
  have hfound' := hagain.execute (i := 0) rfl (by decide +kernel)
  have hput' := hfound'.execute (i := 0) rfl (by decide +kernel)
  have hcommitted := hput'.execute (i := 0) rfl (by decide +kernel)
  obtain ⟨hkept,hfiles,-⟩ := uploads_are_kept permitFiles permitVault kept_permitVault _ hcommitted
  have hobject := (hkept permitRow (List.mem_singleton_self _) _ (List.mem_singleton_self _) rfl).2
  exact ⟨_,hcommitted,by decide +kernel,hobject.trans (by decide +kernel),hfiles⟩

end Vault
end PinoyTax.Documents
