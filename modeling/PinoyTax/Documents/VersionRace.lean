import PinoyTax.Foundation.Observation
import PinoyTax.Documents.Versions

/-! # Uploads of new versions at once

A request counts the versions when it looks the document up, and writes the next number in
its transaction, after the object is stored. The numbers stay in order as long as
nothing is committed between the two.
-/
namespace PinoyTax.Documents
open PinoyTax Foundation

/-- A request for a new version of the document. -/
structure VersionUpload where
  companyId : Uuid
  uploadedById : Uuid
  file : File
  draw : Draw
  accepted : Bool

/-- The requests, each before its first statement. -/
def uploading (s : Store) (documentId : Uuid) (uploads : List VersionUpload) :
    Config Store Label ApiException VaultDocument :=
  ⟨s,uploads.map fun u => uploadNewVersion u.companyId documentId u.uploadedById u.file u.draw u.accepted⟩

def lookUp : Label := .on .vaultDocument .findUnique
def commit : Label := .transaction

def findVaultDocument (s : Store) (documentId : Uuid) : Option VaultDocument :=
  s.documents.vaultDocuments.find? (fun d => d.id = documentId)

def versionNumbers (s : Store) (documentId : Uuid) : List ℕ :=
  (versionsOf s documentId).map DocumentVersion.versionNumber

/-- The numbers are 1 to n, each once, and the current version is the one with the highest. -/
structure Numbered (s : Store) (documentId : Uuid) : Prop where
  numbers : (versionNumbers s documentId).Perm (List.range' 1 (versionsOf s documentId).length)
  current : ∃ d, findVaultDocument s documentId = some d ∧ ∃ v ∈ versionsOf s documentId,
    d.currentVersionId = some v.id ∧ ∀ w ∈ versionsOf s documentId, w.versionNumber ≤ v.versionNumber

/-- Nothing was committed since the look-up of the request that commits. -/
def Undisturbed (events : List (ℕ × Label)) (_ : Config Store Label ApiException VaultDocument) (i : ℕ) (l : Label)
    (_ : Config Store Label ApiException VaultDocument) : Prop :=
  l = commit → since lookUp commit i events = 0

instance (events : List (ℕ × Label)) (c : Config Store Label ApiException VaultDocument) (i : ℕ) (l : Label)
    (c' : Config Store Label ApiException VaultDocument) : Decidable (Undisturbed events c i l c') :=
  inferInstanceAs (Decidable (l = commit → since lookUp commit i events = 0))

/-! ## The phases of a request -/

inductive VersionPhase
  | looking
  | storing (count : ℕ)
  | committing (count : ℕ)
  | returned

/-- The store after a version was added under a number. -/
def withVersion (documentId uploadedById : Uuid) (file : File) (draw : Draw) (storageKey : String) (number : ℕ) (s : Store) :
    Store :=
  { s with
    documents.vaultDocuments :=
      Table.updateMany (fun d => d.id = documentId) (setNewVersion draw.versionId file) s.documents.vaultDocuments
    documents.documentVersions := s.documents.documentVersions ++
      [versionRow documentId uploadedById draw storageKey number] }

namespace VersionPhase

inductive Step (documentId : Uuid) : VersionPhase → Store → Label → VersionPhase → Store → Prop
  | refused {s : Store} : Step documentId .looking s lookUp .returned s
  | found {s : Store} : Step documentId .looking s lookUp (.storing (versionsOf s documentId).length) s
  | rejected {count : ℕ} {s : Store} : Step documentId (.storing count) s .upload .returned s
  | stored {count : ℕ} {s : Store} : Step documentId (.storing count) s .upload (.committing count) s
  | undone {count : ℕ} {s : Store} (h : findVaultDocument s documentId = none) :
      Step documentId (.committing count) s commit .returned s
  | committed {count : ℕ} {s : Store} (uploadedById : Uuid) (file : File) (draw : Draw) (storageKey : String) :
      Step documentId (.committing count) s commit .returned
        (withVersion documentId uploadedById file draw storageKey (count + 1) s)

end VersionPhase

open VersionPhase

/-- A request that has returned. -/
def Returned (_ : Except ApiException VaultDocument) (φ : VersionPhase) : Prop := φ = .returned

section
variable {documentId uploadedById : Uuid} {file : File} {draw : Draw} {storageKey : String}

/-- The body of the transaction. -/
def addVersion (documentId uploadedById : Uuid) (file : File) (draw : Draw) (storageKey : String) (number : ℕ) :
    Request VaultDocument := do
  let version ← Prisma.documentVersion.create (versionRow documentId uploadedById draw storageKey number)
  Prisma.vaultDocument.update (fun d => d.id = documentId) (setNewVersion version.id file)

theorem run_addVersion (number : ℕ) {s : Store} {d : VaultDocument} (hd : findVaultDocument s documentId = some d) :
    (addVersion documentId uploadedById file draw storageKey number).run s =
      (.ok (setNewVersion draw.versionId file d),withVersion documentId uploadedById file draw storageKey number s) := by
  rw [addVersion,Prog.run_bind,TableRef.run_create,Prog.resume_ok]
  exact TableRef.run_update_of_find hd

theorem run_addVersion_of_none (number : ℕ) {s : Store} (hd : findVaultDocument s documentId = none) :
    ((addVersion documentId uploadedById file draw storageKey number).run s).1 = .error .database := by
  rw [addVersion,Prog.run_bind,TableRef.run_create,Prog.resume_ok,TableRef.run_update,TableRef.updateReply]
  have hnone : (Prisma.vaultDocument.get (Prisma.documentVersion.set (Prisma.documentVersion.get s ++
      [versionRow documentId uploadedById draw storageKey number]) s)).find? (fun d => d.id = documentId) = none := hd
  rw [hnone]

theorem follows_addVersion (count : ℕ) :
    (transaction (addVersion documentId uploadedById file draw storageKey (count + 1))).Follows
      (VersionPhase.Step documentId) Returned (.committing count) := by
  intro s
  refine ⟨.returned,?_,rfl⟩
  dsimp only
  cases hd : findVaultDocument s documentId with
  | none =>
    have hrun : ((addVersion documentId uploadedById file draw storageKey (count + 1)).run s).1 = .error .database :=
      run_addVersion_of_none (count + 1) hd
    generalize (addVersion documentId uploadedById file draw storageKey (count + 1)).run s = out at hrun ⊢
    obtain ⟨r,t⟩ := out
    obtain rfl : r = .error .database := hrun
    exact .undone hd
  | some d =>
    rw [run_addVersion (count + 1) hd]
    exact .committed uploadedById file draw storageKey

theorem follows_store (accepted : Bool) (count : ℕ) :
    (upload storageKey file accepted >>= fun _ =>
      transaction (addVersion documentId uploadedById file draw storageKey (count + 1))).Follows
      (VersionPhase.Step documentId) Returned (.storing count) := by
  intro s
  cases accepted with
  | false => exact ⟨.returned,.rejected,rfl⟩
  | true => exact ⟨.committing count,.stored,follows_addVersion count⟩

end

theorem follows_uploadNewVersion (companyId documentId uploadedById : Uuid) (file : File) (draw : Draw) (accepted : Bool) :
    (uploadNewVersion companyId documentId uploadedById file draw accepted).Follows (VersionPhase.Step documentId) Returned
      .looking := by
  intro s
  dsimp only
  cases hd : s.documents.vaultDocuments.find? (fun d => d.id = documentId) with
  | none => exact ⟨.returned,.refused,rfl⟩
  | some d =>
    obtain ⟨-,rfl⟩ := Table.find?_key_some hd
    have howned : (ownedBy (fun d => d.1.companyId) companyId documentNotFound (some (d,versionsOf s d.id)) :
        Request (VaultDocument × List DocumentVersion)) =
          if d.companyId = companyId then .done (.ok (d,versionsOf s d.id)) else .throw documentNotFound := rfl
    simp only [Option.map_some]
    by_cases hc : d.companyId = companyId
    · rw [if_pos hc] at howned
      refine ⟨.storing (versionsOf s d.id).length,.found,?_⟩
      change (ownedBy _ _ _ _ >>= _ : Request VaultDocument).Follows _ _ _
      rw [howned]
      exact follows_store accepted _
    · rw [if_neg hc] at howned
      refine ⟨.returned,.refused,?_⟩
      change (ownedBy _ _ _ _ >>= _ : Request VaultDocument).Follows _ _ _
      rw [howned]
      exact rfl

/-! ## Adding a version -/

section
variable {documentId uploadedById : Uuid} {file : File} {draw : Draw} {storageKey : String} {number : ℕ} {s : Store}

theorem versionsOf_withVersion : versionsOf (withVersion documentId uploadedById file draw storageKey number s) documentId =
    versionsOf s documentId ++ [versionRow documentId uploadedById draw storageKey number] := by
  simp [versionsOf,withVersion,List.filter_append,versionRow]

theorem versionNumbers_withVersion :
    versionNumbers (withVersion documentId uploadedById file draw storageKey number s) documentId =
      versionNumbers s documentId ++ [number] := by
  rw [versionNumbers,versionsOf_withVersion,List.map_append]
  rfl

theorem findVaultDocument_withVersion :
    findVaultDocument (withVersion documentId uploadedById file draw storageKey number s) documentId =
      (findVaultDocument s documentId).map (setNewVersion draw.versionId file) := by
  have hfind := Table.find?_updateMany (p := fun d => decide (d.id = documentId)) (q := fun d => decide (d.id = documentId))
    (f := setNewVersion draw.versionId file) (fun _ => rfl) s.documents.vaultDocuments
  unfold findVaultDocument withVersion
  rw [hfind]
  cases hd : s.documents.vaultDocuments.find? (fun d => d.id = documentId) with
  | none => rfl
  | some d => simp [(Table.find?_key_some hd).2]

theorem Numbered.nodup (h : Numbered s documentId) : (versionNumbers s documentId).Nodup :=
  h.numbers.nodup_iff.mpr List.nodup_range'

theorem Numbered.mem_iff (h : Numbered s documentId) {n : ℕ} :
    n ∈ versionNumbers s documentId ↔ 1 ≤ n ∧ n ≤ (versionsOf s documentId).length := by
  rw [h.numbers.mem_iff,List.mem_range'_1]
  omega

/-- The number after the last keeps the order. -/
theorem Numbered.add (h : Numbered s documentId) (hnumber : number = (versionsOf s documentId).length + 1) :
    Numbered (withVersion documentId uploadedById file draw storageKey number s) documentId := by
  obtain ⟨d,hd,-⟩ := h.current
  constructor
  · rw [versionNumbers_withVersion,versionsOf_withVersion,List.length_append,List.length_singleton,List.range'_1_concat,
      hnumber,Nat.add_comm 1]
    exact h.numbers.append_right _
  · refine ⟨setNewVersion draw.versionId file d,by rw [findVaultDocument_withVersion,hd,Option.map_some],
      versionRow documentId uploadedById draw storageKey number,?_,rfl,?_⟩
    · rw [versionsOf_withVersion]
      exact List.mem_append_right _ (List.mem_singleton_self _)
    · intro w hw
      rw [versionsOf_withVersion] at hw
      rcases List.mem_append.mp hw with hw | hw
      · have hle := (h.mem_iff.mp (List.mem_map.mpr ⟨w,hw,rfl⟩)).2
        change w.versionNumber ≤ number
        omega
      · rw [List.mem_singleton.mp hw]

/-- A smaller one is there already. -/
theorem Numbered.not_nodup_add (h : Numbered s documentId) (hpos : 0 < number)
    (hle : number ≤ (versionsOf s documentId).length) :
    ¬ (versionNumbers (withVersion documentId uploadedById file draw storageKey number s) documentId).Nodup := by
  rw [versionNumbers_withVersion]
  intro hnodup
  exact List.disjoint_of_nodup_append hnodup (h.mem_iff.mpr ⟨hpos,hle⟩) (List.mem_singleton_self number)

end

/-! ## Executions -/

/-- What the request has counted. -/
def VersionPhase.count? : VersionPhase → Option ℕ
  | .storing count => some count
  | .committing count => some count
  | _ => none

section
variable {documentId : Uuid} {c c' d : Config Store Label ApiException VaultDocument} {φs : List VersionPhase} {i : ℕ}
  {l : Label} {events tr : List (ℕ × Label)}

/-- The numbers are in order, and each count is short of the versions that were committed since. -/
structure Counting (documentId : Uuid) (events : List (ℕ × Label)) (c : Config Store Label ApiException VaultDocument)
    (φs : List VersionPhase) : Prop where
  follows : c.Follows (VersionPhase.Step documentId) Returned φs
  numbered : Numbered c.state documentId
  counted : ∀ (j : ℕ) (φ : VersionPhase), φs[j]? = some φ → ∀ count ∈ φ.count?,
    count + since lookUp commit j events = (versionsOf c.state documentId).length

/-- A statement of a request that is not disturbed. -/
theorem VersionPhase.Step.counts {φ φ' : VersionPhase} {s s' : Store} (ht : VersionPhase.Step documentId φ s l φ' s')
    (hs : Numbered s documentId)
    (hcount : ∀ count ∈ φ.count?, count + since lookUp commit i events = (versionsOf s documentId).length)
    (hK : l = commit → since lookUp commit i events = 0) :
    Numbered s' documentId ∧
      (versionsOf s' documentId).length = (versionsOf s documentId).length + (if l = commit then 1 else 0) ∧
      ∀ count ∈ φ'.count?, count + since lookUp commit i ((i,l) :: events) = (versionsOf s' documentId).length := by
  have hlookUp : lookUp ≠ commit := by decide
  have hupload : Label.upload ≠ commit := by decide
  have hupload' : Label.upload ≠ lookUp := by decide
  cases ht with
  | refused =>
    refine ⟨hs,by rw [if_neg hlookUp,Nat.add_zero],?_⟩
    rintro count ⟨⟩
  | found =>
    refine ⟨hs,by rw [if_neg hlookUp,Nat.add_zero],?_⟩
    rintro count ⟨⟩
    rw [since_self,Nat.add_zero]
  | rejected =>
    refine ⟨hs,by rw [if_neg hupload,Nat.add_zero],?_⟩
    rintro count ⟨⟩
  | stored =>
    refine ⟨hs,by rw [if_neg hupload,Nat.add_zero],?_⟩
    rintro count ⟨⟩
    rw [since_cons (.inr hupload'),if_neg hupload,Nat.add_zero]
    exact hcount _ rfl
  | undone hnone =>
    obtain ⟨d,hd,-⟩ := hs.current
    rw [hnone] at hd
    cases hd
  | @committed count s uploadedById file draw storageKey =>
    have hall := hcount count rfl
    rw [hK rfl,Nat.add_zero] at hall
    refine ⟨hs.add (by rw [hall]),by rw [versionsOf_withVersion,List.length_append,if_pos rfl]; rfl,?_⟩
    rintro count ⟨⟩

theorem Counting.step (h : Counting documentId events c φs) (hs : c.step i = some (l,c'))
    (hK : Undisturbed events c i l c') : ∃ φs', Counting documentId ((i,l) :: events) c' φs' := by
  obtain ⟨φ,φ',hi,ht,hf'⟩ := h.follows.step hs
  obtain ⟨hnumbered,hlength,hself⟩ := ht.counts h.numbered (h.counted i φ hi) hK
  refine ⟨φs.set i φ',hf',hnumbered,?_⟩
  intro j ψ hj count hcount
  by_cases hij : i = j
  · subst hij
    rw [List.getElem?_set_self (List.getElem?_eq_some_iff.mp hi).1,Option.some.injEq] at hj
    subst hj
    exact hself count hcount
  · rw [List.getElem?_set_ne hij] at hj
    rw [since_cons (.inl hij),hlength,← h.counted j ψ hj count hcount,Nat.add_assoc]

/-- A commit after another gives a number twice. -/
theorem Counting.not_nodup (h : Counting documentId events c φs) (hs : c.step i = some (l,c'))
    (hK : ¬ Undisturbed events c i l c') : ¬ (versionNumbers c'.state documentId).Nodup := by
  obtain ⟨φ,φ',hi,ht,-⟩ := h.follows.step hs
  obtain ⟨hl,hsince⟩ : l = commit ∧ since lookUp commit i events ≠ 0 := by simpa [Undisturbed] using hK
  have hcount := h.counted i φ hi
  have hnumbered := h.numbered
  generalize c'.state = t at ht ⊢
  generalize c.state = s at ht hcount hnumbered
  cases ht with
  | refused => exact absurd hl (by decide)
  | found => exact absurd hl (by decide)
  | rejected => exact absurd hl (by decide)
  | stored => exact absurd hl (by decide)
  | undone hnone =>
    obtain ⟨d,hd,-⟩ := hnumbered.current
    rw [hnone] at hd
    cases hd
  | @committed count s uploadedById file draw storageKey =>
    have hall := hcount count rfl
    exact hnumbered.not_nodup_add (Nat.succ_pos count) (by omega)

/-- Versions are never removed. -/
theorem versionNumbers_grow (h : Steps c tr d) (hf : c.Follows (VersionPhase.Step documentId) Returned φs) :
    (∃ φs', d.Follows (VersionPhase.Step documentId) Returned φs') ∧
      versionNumbers c.state documentId <+: versionNumbers d.state documentId := by
  obtain ⟨φs',hf',hgrown⟩ := h.phases (I := fun s _ => versionNumbers c.state documentId <+: versionNumbers s documentId)
    (fun {s _ _ _ _ _ _} _ hI _ ht => by
      cases ht with
      | committed uploadedById file draw storageKey =>
        rw [versionNumbers_withVersion]
        exact hI.trans (List.prefix_append _ _)
      | _ => exact hI) hf List.prefix_rfl
  exact ⟨⟨φs',hf'⟩,hgrown⟩

theorem throughout_nodup (h : Steps c tr d) (hf : c.Follows (VersionPhase.Step documentId) Returned φs)
    (hd : (versionNumbers d.state documentId).Nodup) :
    Throughout recorded (fun _ c => (versionNumbers c.state documentId).Nodup) c tr [] := by
  intro tr₁ tr₂ e htr he
  subst htr
  obtain ⟨e',he',hrest⟩ := h.split
  obtain rfl := he.det he'
  obtain ⟨⟨φs',hf'⟩,-⟩ := versionNumbers_grow he hf
  exact hd.sublist (versionNumbers_grow hrest hf').2.sublist

end

/-- For every interleaving of uploads of new versions that all complete, the numbers and the
current version are in order exactly when no other upload was committed between the look-up and
the commit of one. -/
theorem numbered_iff_undisturbed {s : Store} {documentId : Uuid} (hs : Numbered s documentId)
    (uploads : List VersionUpload) (tr : List (ℕ × Label)) (d : Config Store Label ApiException VaultDocument)
    (h : Steps (uploading s documentId uploads) tr d) (hd : d.Completed) :
    Numbered d.state documentId ↔ Whenever recorded Undisturbed (uploading s documentId uploads) tr [] := by
  have hf : (uploading s documentId uploads).Follows (VersionPhase.Step documentId) Returned
      (uploads.map fun _ => .looking) :=
    Config.follows_map uploads (fun u _ => follows_uploadNewVersion _ _ _ _ _ _) s
  have hstart : Counting documentId [] (uploading s documentId uploads) (uploads.map fun _ => .looking) := by
    refine ⟨hf,hs,?_⟩
    intro j φ hj count hcount
    obtain ⟨u,-,rfl⟩ := List.mem_map.mp (List.mem_of_getElem? hj)
    cases hcount
  -- A number that is given twice stays, so that nothing but the steps so far decides.
  have hexactly (P : Store → Prop) (hgood : ∀ s, Numbered s documentId → P s)
      (hbad : ∀ s, P s → (versionNumbers s documentId).Nodup) :
      (Whenever recorded Undisturbed (uploading s documentId uploads) tr [] →
          Throughout recorded (fun _ c => P c.state) (uploading s documentId uploads) tr []) ∧
        (d.Completed → Throughout recorded (fun _ c => P c.state) (uploading s documentId uploads) tr [] →
          Whenever recorded Undisturbed (uploading s documentId uploads) tr []) :=
    h.throughout_exactly (J := fun events c => ∃ φs, Counting documentId events c φs) (B := fun _ _ => False)
      (fun hJ => hJ.elim fun _ hJ => hgood _ hJ.numbered) (fun hJ hs hK => hJ.elim fun _ hJ => hJ.step hs hK)
      (fun hJ hs hK hP => hJ.elim fun _ hJ => hJ.not_nodup hs hK (hbad _ hP)) (fun hB _ _ => hB) (fun hB => hB.elim)
      ⟨_,hstart⟩
  constructor
  · intro hnumbered
    exact (hexactly (fun s => (versionNumbers s documentId).Nodup) (fun s hs => hs.nodup) fun s hs => hs).2 hd
      (throughout_nodup h hf hnumbered.nodup)
  · intro hw
    have hall := (hexactly (fun s => Numbered s documentId) (fun s hs => hs) fun s hs => hs.nodup).1 hw
    exact hall tr [] d (List.append_nil tr).symm h

/-- Document 70 of company 1, with its first version. -/
def oneVersion : Store where
  documents :=
    { vaultDocuments := [setCurrentVersion 80 (documentRow 1 5 ⟨"permit.pdf","application/pdf",[]⟩ ⟨"permits",none⟩ ⟨70,80,90,0⟩ "k")]
      documentVersions := [versionRow 70 5 ⟨70,80,90,0⟩ "k" 1] }

/-- Two new versions of it. -/
def twoUploads : List VersionUpload :=
  [⟨1,5,⟨"permit.pdf","application/pdf",[]⟩,{ versionId := 81, randomUUID := 91 },true⟩,
    ⟨1,6,⟨"permit.pdf","application/pdf",[]⟩,{ versionId := 82, randomUUID := 92 },true⟩]

theorem numbered_oneVersion : Numbered oneVersion 70 :=
  ⟨by decide +kernel,_,rfl,versionRow 70 5 ⟨70,80,90,0⟩ "k" 1,by decide +kernel,rfl,by decide +kernel⟩

/-- One upload after the other. -/
theorem numbered_iff_undisturbed_sequential :
    ∃ tr d, Steps (uploading oneVersion 70 twoUploads) tr d ∧ d.Completed ∧ Numbered d.state 70 := by
  obtain ⟨tr,d,h,hd,hw⟩ : ∃ tr d, Steps (uploading oneVersion 70 twoUploads) tr d ∧ d.Completed ∧
      Whenever recorded Undisturbed (uploading oneVersion 70 twoUploads) tr [] :=
    Steps.exists_of_playTrace [0,0,0,1,1,1] (by decide +kernel)
  exact ⟨tr,d,h,hd,(numbered_iff_undisturbed numbered_oneVersion twoUploads tr d h hd).mpr hw⟩

/-- Both look the document up before either stores its object: number 2 is given twice. -/
theorem twoUploads_not_numbered :
    Numbered oneVersion 70 ∧ ∃ tr d, Steps (uploading oneVersion 70 twoUploads) tr d ∧ d.Completed ∧
      versionNumbers d.state 70 = [1,2,2] ∧ ¬ Numbered d.state 70 := by
  refine ⟨numbered_oneVersion,?_⟩
  obtain ⟨tr,d,h,hd,hnumbers⟩ : ∃ tr d, Steps (uploading oneVersion 70 twoUploads) tr d ∧ d.Completed ∧
      versionNumbers d.state 70 = [1,2,2] := Steps.exists_of_play [0,1,0,1,0,1] (by decide +kernel)
  refine ⟨tr,d,h,hd,hnumbers,fun hnumbered => ?_⟩
  have hnodup := hnumbered.nodup
  rw [hnumbers] at hnodup
  exact absurd hnodup (by decide)

end PinoyTax.Documents
