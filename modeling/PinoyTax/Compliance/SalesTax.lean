import PinoyTax.Foundation.Runs
import PinoyTax.Compliance.Scans
import PinoyTax.Org.Frame

/-! # One sales tax return for a quarter

A scan adds what it does not find, under a key that the form is part of, and removes
nothing. How many returns a quarter has, and which, is therefore a matter of the scans so
far: a journal of them, with the classification that each found, decides it.
-/
namespace PinoyTax.Compliance
open PinoyTax Foundation Calendar

inductive ProfileRequest where
  | updateCompany (companyId : Uuid) (dto : Org.UpdateCompanyDto)
  | scan (companyId : Uuid) (draw : ScanDraw) (now : DateTime)

/-- A scan of a company: its quarter and what it found. -/
structure ScanEntry where
  companyId : Uuid
  quarter : ℤ
  vatClassification : VatClassification

/-- The store, and the scans so far. -/
structure Journal where
  store : Store
  scans : List ScanEntry

def findCompany (s : Store) (companyId : Uuid) : Option Company := s.org.companies.find? (fun c => c.id = companyId)

section
variable (offset : ℤ)

def scanQuarter (now : DateTime) : ℤ := quarterOf (localDays offset now)

/-- The journal after a request. -/
def Journal.next (j : Journal) : ProfileRequest → Journal
  | .updateCompany companyId dto => { j with store := ((Org.updateCompany companyId dto).run j.store).2 }
  | .scan companyId draw now =>
    { store := ((runComplianceScan offset companyId draw now).run j.store).2
      scans := match findCompany j.store companyId with
        | none => j.scans
        | some company => ⟨companyId,scanQuarter offset now,company.vatClassification⟩ :: j.scans }

/-- A quarterly sales tax return of a company that is not filed, for the days of a quarter. -/
def isSalesTaxOf (companyId : Uuid) (quarter : ℤ) (d : FilingDeadline) : Bool :=
  decide (d.companyId = companyId) && decide (d.status ≠ .filed) &&
    (d.formCode == "2550Q" || d.formCode == "2551Q") &&
    d.periodStart == dateColumn (midnight offset (quarterStart quarter)) &&
    d.periodEnd == dateColumn (midnight offset (quarterEnd quarter))

/-- Right after a scan each quarter of its window has one return, of the form of the company. -/
def CalendarAgrees (j : Journal) : ProfileRequest → Prop
  | .updateCompany _ _ => True
  | .scan companyId draw now =>
    ∀ company, findCompany (j.next offset (.scan companyId draw now)).store companyId = some company → ∀ q : ℕ, q < 4 →
      (((j.next offset (.scan companyId draw now)).store.compliance.filingDeadlines.filter
        (isSalesTaxOf offset companyId (scanQuarter offset now + q))).map FilingDeadline.formCode) =
          [salesTaxForm company.vatClassification]

/-- The scan finds the classification that each earlier scan found whose window meets its own, and
the keys of their rows are found. -/
def Consistent (j : Journal) : ProfileRequest → Prop
  | .updateCompany _ _ => True
  | .scan companyId _ now =>
    ∀ company ∈ findCompany j.store companyId, ∀ e ∈ j.scans, e.companyId = companyId →
      |e.quarter - scanQuarter offset now| < 4 → e.vatClassification = company.vatClassification ∧ msPerDay ∣ offset

instance (j : Journal) : (req : ProfileRequest) → Decidable (Consistent offset j req)
  | .updateCompany _ _ => .isTrue trivial
  | .scan companyId _ now => inferInstanceAs (Decidable (∀ company ∈ findCompany j.store companyId, ∀ e ∈ j.scans,
      e.companyId = companyId → |e.quarter - scanQuarter offset now| < 4 →
        e.vatClassification = company.vatClassification ∧ msPerDay ∣ offset))

/-! ## Counting the returns of a quarter -/

/-- The returns of one form for a quarter. -/
def rowCount (s : Store) (companyId : Uuid) (quarter : ℤ) (v : VatClassification) : ℕ :=
  s.compliance.filingDeadlines.countP (fun d => isSalesTaxOf offset companyId quarter d && d.formCode == salesTaxForm v)

def Covers (companyId : Uuid) (quarter : ℤ) (e : ScanEntry) : Prop :=
  e.companyId = companyId ∧ e.quarter ≤ quarter ∧ quarter < e.quarter + 4

instance (companyId : Uuid) (quarter : ℤ) (e : ScanEntry) : Decidable (Covers companyId quarter e) :=
  inferInstanceAs (Decidable (_ ∧ _))

/-- The scans that expected a return of the form for the quarter. -/
def scanCount (scans : List ScanEntry) (companyId : Uuid) (quarter : ℤ) (v : VatClassification) : ℕ :=
  scans.countP (fun e => decide (Covers companyId quarter e) && decide (e.vatClassification = v))

theorem salesTaxForm_inj {v w : VatClassification} : salesTaxForm v = salesTaxForm w ↔ v = w := by
  cases v <;> cases w <;> decide

theorem isSalesTaxForm (v : VatClassification) : (salesTaxForm v == "2550Q" || salesTaxForm v == "2551Q") = true := by
  cases v <;> decide

/-- One of the four quarters of a window is the quarter, or none is. -/
theorem countP_window (first quarter : ℤ) :
    (List.range 4).countP (fun q : ℕ => decide (first + q = quarter)) = if first ≤ quarter ∧ quarter < first + 4 then 1 else 0 := by
  have hrange : List.range 4 = [0,1,2,3] := rfl
  rw [hrange]
  simp only [List.countP_cons,List.countP_nil,decide_eq_true_eq]
  split_ifs <;> omega

theorem quarterStart_inj {i j : ℤ} : quarterStart i = quarterStart j ↔ i = j := by
  unfold quarterStart
  rw [firstOfMonth_inj]
  omega

theorem status_deadlineRow (companyId id : Uuid) (now : DateTime) (c : Candidate) :
    (deadlineRow companyId now id c).status ≠ .filed := by
  unfold deadlineRow
  dsimp only
  split <;> decide

/-- What counts in a row that a scan makes of a sales tax filing. -/
theorem isSalesTaxOf_salesTaxFiling (company : Company) (now : DateTime) (companyId companyId' id : Uuid) (k quarter : ℤ)
    (v : VatClassification) :
    (isSalesTaxOf offset companyId' quarter (deadlineRow companyId now id ((salesTaxFiling company k).candidate offset)) &&
      (deadlineRow companyId now id ((salesTaxFiling company k).candidate offset)).formCode == salesTaxForm v) =
        (decide (k = quarter) && decide (companyId = companyId' ∧ company.vatClassification = v)) := by
  have hstatus := status_deadlineRow companyId id now ((salesTaxFiling company k).candidate offset)
  have hstart : (dateColumn (midnight offset (quarterStart k)) == dateColumn (midnight offset (quarterStart quarter))) =
      decide (k = quarter) := by
    rw [Bool.eq_iff_iff,beq_iff_eq,dateColumn_midnight_inj,quarterStart_inj,decide_eq_true_iff]
  have hform : (salesTaxForm company.vatClassification == salesTaxForm v) = decide (company.vatClassification = v) := by
    rw [Bool.eq_iff_iff,beq_iff_eq,salesTaxForm_inj,decide_eq_true_iff]
  have hsales := isSalesTaxForm company.vatClassification
  generalize hrow : deadlineRow companyId now id ((salesTaxFiling company k).candidate offset) = row at *
  have hcompany : row.companyId = companyId := hrow ▸ rfl
  have hcode : row.formCode = salesTaxForm company.vatClassification := hrow ▸ rfl
  have hfirst : row.periodStart = dateColumn (midnight offset (quarterStart k)) := hrow ▸ rfl
  have hlast : row.periodEnd = dateColumn (midnight offset (quarterEnd k)) := hrow ▸ rfl
  simp only [isSalesTaxOf,hcompany,hcode,hfirst,hlast,hstart,hform,hsales,hstatus,ne_eq,not_false_eq_true,decide_true,
    Bool.and_true]
  by_cases hk : k = quarter
  · simp [hk]
  · simp [hk]

/-- No other filing counts. -/
theorem isSalesTaxOf_incomeTaxFiling (company : Company) (now : DateTime) (companyId companyId' id : Uuid) (k quarter : ℤ) :
    isSalesTaxOf offset companyId' quarter (deadlineRow companyId now id ((incomeTaxFiling company k).candidate offset)) =
      false := by
  have hform : (incomeTaxForm company.businessType == "2550Q" || incomeTaxForm company.businessType == "2551Q") = false := by
    cases company.businessType <;> decide
  have hcode : (deadlineRow companyId now id ((incomeTaxFiling company k).candidate offset)).formCode =
      incomeTaxForm company.businessType := rfl
  simp only [isSalesTaxOf,hcode,hform,Bool.and_false,Bool.false_and]

theorem isSalesTaxOf_monthlyFilings {now : DateTime} {companyId companyId' id : Uuid} {month quarter : ℤ} {f : Filing}
    (hf : f ∈ monthlyFilings month) :
    isSalesTaxOf offset companyId' quarter (deadlineRow companyId now id (f.candidate offset)) = false := by
  have hform : (f.formCode == "2550Q" || f.formCode == "2551Q") = false := by
    simp only [monthlyFilings,List.mem_cons,List.not_mem_nil,or_false] at hf
    rcases hf with rfl | rfl | rfl | rfl | rfl
    all_goals dsimp only; decide
  have hcode : (deadlineRow companyId now id (f.candidate offset)).formCode = f.formCode := rfl
  simp only [isSalesTaxOf,hcode,hform,Bool.and_false,Bool.false_and]

/-- A property of rows apart from their ids counts the same among the candidates. -/
theorem countP_newDeadlines (company : Company) (ids : ℕ → Uuid) (now : DateTime) (companyId : Uuid) (s : Store)
    {p : FilingDeadline → Bool} (hp : ∀ c id, p (deadlineRow companyId now id c) = p (deadlineRow companyId now 0 c)) :
    (newDeadlines offset companyId company ids now s).countP p =
      (expectedFilings company (activeEmployees s companyId).length (localDays offset now)).countP (fun f =>
        p (deadlineRow companyId now 0 (f.candidate offset)) &&
          isMissing companyId s.compliance.filingDeadlines (f.candidate offset)) := by
  unfold newDeadlines
  rw [List.countP_map]
  have hfst (cs : List Candidate) : cs.zipIdx.countP (p ∘ fun c => deadlineRow companyId now (ids c.2) c.1) =
      cs.countP (fun c => p (deadlineRow companyId now 0 c)) := by
    have hcomp : (p ∘ fun c : Candidate × ℕ => deadlineRow companyId now (ids c.2) c.1) =
        (fun c => p (deadlineRow companyId now 0 c)) ∘ Prod.fst := by
      funext c
      exact hp c.1 (ids c.2)
    rw [hcomp,← List.countP_map,List.zipIdx_map_fst]
  rw [hfst,List.countP_filter,candidates_eq,List.countP_map]
  rfl

/-- A scan adds a return of its company's form for each quarter of its window that misses it. -/
theorem salesTax_newDeadlines (company : Company) (ids : ℕ → Uuid) (now : DateTime) (companyId companyId' : Uuid)
    (quarter : ℤ) (v : VatClassification) (s : Store) :
    (newDeadlines offset companyId company ids now s).countP
        (fun d => isSalesTaxOf offset companyId' quarter d && d.formCode == salesTaxForm v) =
      if (scanQuarter offset now ≤ quarter ∧ quarter < scanQuarter offset now + 4) ∧
          (companyId = companyId' ∧ company.vatClassification = v) ∧
          isMissing companyId s.compliance.filingDeadlines ((salesTaxFiling company quarter).candidate offset) = true
        then 1 else 0 := by
  rw [countP_newDeadlines offset company ids now companyId s fun _ _ => rfl,expectedFilings,List.countP_append,
    List.countP_append]
  have hincome : ((List.range 4).map (fun q : ℕ => incomeTaxFiling company (quarterOf (localDays offset now) + q))).countP
      (fun f => isSalesTaxOf offset companyId' quarter (deadlineRow companyId now 0 (f.candidate offset)) &&
        (deadlineRow companyId now 0 (f.candidate offset)).formCode == salesTaxForm v &&
          isMissing companyId s.compliance.filingDeadlines (f.candidate offset)) = 0 := by
    rw [List.countP_eq_zero]
    intro f hf
    obtain ⟨q,-,rfl⟩ := List.mem_map.mp hf
    simp [isSalesTaxOf_incomeTaxFiling]
  have hmonthly : (if (activeEmployees s companyId).length > 0 then (List.range 12).flatMap (fun m : ℕ =>
      monthlyFilings (monthOf (localDays offset now) + m)) else []).countP
      (fun f => isSalesTaxOf offset companyId' quarter (deadlineRow companyId now 0 (f.candidate offset)) &&
        (deadlineRow companyId now 0 (f.candidate offset)).formCode == salesTaxForm v &&
          isMissing companyId s.compliance.filingDeadlines (f.candidate offset)) = 0 := by
    rw [List.countP_eq_zero]
    intro f hf
    split at hf
    · obtain ⟨m,-,hf⟩ := List.mem_flatMap.mp hf
      simp [isSalesTaxOf_monthlyFilings offset hf]
    · cases hf
  rw [hincome,hmonthly,Nat.add_zero,List.countP_map]
  have hcount := countP_window (scanQuarter offset now) quarter
  by_cases hadded : (companyId = companyId' ∧ company.vatClassification = v) ∧
      isMissing companyId s.compliance.filingDeadlines ((salesTaxFiling company quarter).candidate offset) = true
  · rw [if_congr (and_iff_left hadded) rfl rfl,← hcount]
    congr 1
    funext q
    rw [Function.comp_apply,isSalesTaxOf_salesTaxFiling]
    by_cases hq : quarterOf (localDays offset now) + q = quarter
    · rw [hq,hadded.2,decide_eq_true hadded.1]
      simp only [scanQuarter,hq,decide_true,Bool.and_true]
    · simp only [hq,scanQuarter,decide_false,Bool.false_and]
  · rw [if_neg fun h => hadded h.2,List.countP_eq_zero]
    intro q _
    rw [Function.comp_apply,isSalesTaxOf_salesTaxFiling]
    by_cases hq : quarterOf (localDays offset now) + q = quarter
    · simp only [hq,decide_true,Bool.true_and,Bool.and_eq_true,decide_eq_true_eq]
      exact hadded
    · simp only [hq,decide_false,Bool.false_and,Bool.false_eq_true,not_false_eq_true]

/-! ## What the scans so far have left -/

/-- Every return comes from a scan. With keys that are found the first scan of a form adds it, and
otherwise each does. -/
structure Journaled (j : Journal) : Prop where
  counted : ∀ companyId quarter v, rowCount offset j.store companyId quarter v =
    if msPerDay ∣ offset then min 1 (scanCount j.scans companyId quarter v) else scanCount j.scans companyId quarter v
  stored : ∀ d ∈ j.store.compliance.filingDeadlines, d.status ≠ .filed ∧ msPerDay ∣ d.periodStart

/-- The look-up of a scan misses a return that is there unless its key is found. -/
theorem isMissing_salesTax_iff {j : Journal} (hj : Journaled offset j) (company : Company) (companyId : Uuid) (quarter : ℤ) :
    isMissing companyId j.store.compliance.filingDeadlines ((salesTaxFiling company quarter).candidate offset) = true ↔
      (msPerDay ∣ offset → rowCount offset j.store companyId quarter company.vatClassification = 0) := by
  rw [isMissing,Bool.not_eq_true',rowCount,List.countP_eq_zero,existsAlready,List.any_eq_false]
  by_cases hdvd : msPerDay ∣ offset
  · have hcolumn (day : ℤ) : dateColumn (midnight offset day) = midnight offset day :=
      (dateColumn_midnight_eq_self_iff offset).mpr hdvd
    have hsales := isSalesTaxForm company.vatClassification
    simp only [hdvd,forall_const]
    constructor
    · intro h d hd hsame
      simp only [isSalesTaxOf,hcolumn,Bool.and_eq_true,decide_eq_true_eq,beq_iff_eq] at hsame
      obtain ⟨⟨⟨⟨⟨hc,-⟩,-⟩,hstart⟩,hend⟩,hform⟩ := hsame
      apply h d (List.mem_filter.mpr ⟨hd,by simpa using hc⟩)
      simp [Filing.candidate,salesTaxFiling,hform,hstart,hend]
    · intro h d hd hsame
      obtain ⟨hd,hc⟩ := List.mem_filter.mp hd
      simp only [Filing.candidate,salesTaxFiling,Bool.and_eq_true,beq_iff_eq] at hsame
      apply h d hd
      simp [isSalesTaxOf,hcolumn,hsame,hsales,of_decide_eq_true hc,(hj.stored d hd).1]
  · simp only [hdvd,false_imp_iff,iff_true]
    intro d hd hsame
    obtain ⟨hd,-⟩ := List.mem_filter.mp hd
    simp only [Filing.candidate,salesTaxFiling,Bool.and_eq_true,beq_iff_eq] at hsame
    apply hdvd
    have hmidnight := (hj.stored d hd).2
    rw [hsame.1.2] at hmidnight
    unfold midnight millisPerDay at hmidnight
    unfold msPerDay at *
    omega

theorem deadlines_updateCompany (companyId : Uuid) (dto : Org.UpdateCompanyDto) (s : Store) :
    ((Org.updateCompany companyId dto).run s).2.compliance = s.compliance := by
  have happart : Org.Apart Store.compliance := by constructor <;> exact fun _ _ => rfl
  exact (Org.keeps_updateCompany happart companyId dto).run s

theorem org_runComplianceScan (companyId : Uuid) (draw : ScanDraw) (now : DateTime) (s : Store) :
    ((runComplianceScan offset companyId draw now).run s).2.org = s.org := by
  have hkeeps : (runComplianceScan offset companyId draw now).Keeps Store.org :=
    keeps_runComplianceScan (fun _ _ => rfl) (fun _ _ => rfl) (fun _ _ => rfl) offset companyId draw now
  exact hkeeps.run s

theorem rowCount_append (s t : Store) (rows : List FilingDeadline)
    (h : t.compliance.filingDeadlines = s.compliance.filingDeadlines ++ rows) (companyId : Uuid) (quarter : ℤ)
    (v : VatClassification) : rowCount offset t companyId quarter v = rowCount offset s companyId quarter v +
      rows.countP (fun d => isSalesTaxOf offset companyId quarter d && d.formCode == salesTaxForm v) := by
  rw [rowCount,rowCount,h,List.countP_append]

theorem scanCount_cons (companyId : Uuid) (first : ℤ) (v : VatClassification) (scans : List ScanEntry) (c : Uuid)
    (quarter : ℤ) (w : VatClassification) :
    scanCount (⟨companyId,first,v⟩ :: scans) c quarter w = scanCount scans c quarter w +
      if (first ≤ quarter ∧ quarter < first + 4) ∧ (companyId = c ∧ v = w) then 1 else 0 := by
  rw [scanCount,scanCount,List.countP_cons]
  congr 1
  apply if_congr _ rfl rfl
  rw [Bool.and_eq_true,decide_eq_true_iff,decide_eq_true_iff,Covers]
  tauto

theorem Journaled.of_deadlines_eq {j : Journal} (hj : Journaled offset j) {t : Store}
    (h : t.compliance.filingDeadlines = j.store.compliance.filingDeadlines) : Journaled offset ⟨t,j.scans⟩ := by
  refine ⟨fun c quarter v => ?_,?_⟩
  · rw [rowCount,h]
    exact hj.counted c quarter v
  · rw [h]
    exact hj.stored

theorem journaled_next {j : Journal} (hj : Journaled offset j) (req : ProfileRequest) : Journaled offset (j.next offset req) := by
  cases req with
  | updateCompany companyId dto =>
    exact hj.of_deadlines_eq offset (by rw [deadlines_updateCompany companyId dto j.store])
  | scan companyId draw now =>
    have hdeadlines := deadlines_runComplianceScan offset companyId draw now j.store
    have hcompany : j.store.org.companies.find? (fun c => c.id = companyId) = findCompany j.store companyId := rfl
    rw [hcompany] at hdeadlines
    cases hf : findCompany j.store companyId with
    | none =>
      rw [hf,List.append_nil] at hdeadlines
      simp only [Journal.next,hf]
      exact hj.of_deadlines_eq offset hdeadlines
    | some company =>
      rw [hf] at hdeadlines
      refine ⟨fun c quarter v => ?_,?_⟩
      · simp only [Journal.next,hf]
        rw [rowCount_append offset j.store _ _ hdeadlines,salesTax_newDeadlines,hj.counted]
        rw [scanCount_cons]
        by_cases hexpected : (scanQuarter offset now ≤ quarter ∧ quarter < scanQuarter offset now + 4) ∧
            (companyId = c ∧ company.vatClassification = v)
        · obtain ⟨rfl,rfl⟩ := hexpected.2
          have hmissing := isMissing_salesTax_iff offset hj company companyId quarter
          rw [hj.counted] at hmissing
          simp only [hexpected,and_self,true_and,if_true,hmissing]
          by_cases hdvd : msPerDay ∣ offset
          · simp only [hdvd,if_true,forall_const]
            split_ifs <;> omega
          · simp only [hdvd,if_false,false_imp_iff,if_true]
        · have hnone : ¬ ((scanQuarter offset now ≤ quarter ∧ quarter < scanQuarter offset now + 4) ∧
              (companyId = c ∧ company.vatClassification = v) ∧ isMissing companyId j.store.compliance.filingDeadlines
                ((salesTaxFiling company quarter).candidate offset) = true) := fun h => hexpected ⟨h.1,h.2.1⟩
          rw [if_neg hexpected,if_neg hnone,Nat.add_zero,Nat.add_zero]
      · simp only [Journal.next,hdeadlines]
        intro d hd
        rcases List.mem_append.mp hd with hd | hd
        · exact hj.stored d hd
        · obtain ⟨f,-,id,-,rfl⟩ := mem_newDeadlines offset companyId hd
          exact ⟨status_deadlineRow _ _ _ _,⟨_,Int.mul_comm _ _⟩⟩

/-- One return of the form, and none of the other. -/
theorem formCodes_eq_iff (s : Store) (companyId : Uuid) (quarter : ℤ) (v : VatClassification) :
    (s.compliance.filingDeadlines.filter (isSalesTaxOf offset companyId quarter)).map FilingDeadline.formCode =
        [salesTaxForm v] ↔ ∀ w, rowCount offset s companyId quarter w = if w = v then 1 else 0 := by
  have hcount (w : VatClassification) : ((s.compliance.filingDeadlines.filter (isSalesTaxOf offset companyId quarter)).map
      FilingDeadline.formCode).count (salesTaxForm w) = rowCount offset s companyId quarter w := by
    rw [List.count,List.countP_map,List.countP_filter,rowCount]
    congr 1
    funext d
    exact Bool.and_comm _ _
  have hforms : ∀ form ∈ (s.compliance.filingDeadlines.filter (isSalesTaxOf offset companyId quarter)).map
      FilingDeadline.formCode, ∃ w, form = salesTaxForm w := by
    intro form hform
    obtain ⟨d,hd,rfl⟩ := List.mem_map.mp hform
    have hsales := (List.mem_filter.mp hd).2
    simp only [isSalesTaxOf,Bool.and_eq_true,Bool.or_eq_true,beq_iff_eq] at hsales
    rcases hsales.1.1.2 with hcode | hcode
    · exact ⟨.vat,hcode⟩
    · exact ⟨.non_vat,hcode⟩
  simp only [← hcount]
  generalize (s.compliance.filingDeadlines.filter (isSalesTaxOf offset companyId quarter)).map FilingDeadline.formCode = codes at *
  constructor
  · rintro rfl w
    rw [List.count_singleton]
    apply if_congr _ rfl rfl
    rw [beq_iff_eq,salesTaxForm_inj]
    exact eq_comm
  · intro h
    have hall : ∀ form ∈ codes, form = salesTaxForm v := by
      intro form hform
      obtain ⟨w,rfl⟩ := hforms form hform
      by_contra hne
      have hzero := h w
      rw [if_neg fun hw => hne (congrArg salesTaxForm hw)] at hzero
      exact List.count_eq_zero.mp hzero hform
    have hone := h v
    rw [if_pos rfl] at hone
    have hreplicate := List.eq_replicate_of_mem hall
    rw [hreplicate,List.count_replicate_self] at hone
    rw [hreplicate,hone]
    rfl

/-- How many returns a scan of the company leaves for a quarter of its window. -/
theorem rowCount_next_scan {j : Journal} (hj : Journaled offset j) {companyId : Uuid} (draw : ScanDraw) (now : DateTime)
    {company : Company} (hf : findCompany j.store companyId = some company) {q : ℕ} (hq : q < 4) (w : VatClassification) :
    rowCount offset (j.next offset (.scan companyId draw now)).store companyId (scanQuarter offset now + q) w =
      if msPerDay ∣ offset then min 1 (scanCount j.scans companyId (scanQuarter offset now + q) w +
          if w = company.vatClassification then 1 else 0)
        else scanCount j.scans companyId (scanQuarter offset now + q) w +
          if w = company.vatClassification then 1 else 0 := by
  have hscans : (j.next offset (.scan companyId draw now)).scans =
      ⟨companyId,scanQuarter offset now,company.vatClassification⟩ :: j.scans := by simp only [Journal.next,hf]
  have hwithin : (scanQuarter offset now ≤ scanQuarter offset now + q ∧
      scanQuarter offset now + q < scanQuarter offset now + 4) ∧
      (companyId = companyId ∧ company.vatClassification = w) ↔ w = company.vatClassification :=
    ⟨fun h => h.2.2.symm,fun h => ⟨⟨by omega,by omega⟩,rfl,h.symm⟩⟩
  rw [(journaled_next offset hj (.scan companyId draw now)).counted,hscans,scanCount_cons,if_congr hwithin rfl rfl]

/-- The calendar is right after a scan exactly when no earlier scan stands in its way. -/
theorem calendarAgrees_iff {j : Journal} (hj : Journaled offset j) (req : ProfileRequest) :
    CalendarAgrees offset j req ↔ Consistent offset j req := by
  cases req with
  | updateCompany companyId dto => exact Iff.rfl
  | scan companyId draw now =>
    have horg := org_runComplianceScan offset companyId draw now j.store
    have hfound : findCompany (j.next offset (.scan companyId draw now)).store companyId = findCompany j.store companyId := by
      unfold findCompany Journal.next
      rw [horg]
    unfold CalendarAgrees Consistent
    dsimp only
    rw [hfound]
    apply forall_congr'
    intro company
    apply imp_congr_right
    intro hf
    simp only [formCodes_eq_iff]
    constructor
    · intro h e he hc hmeets
      obtain ⟨q,hq,hcovers⟩ : ∃ q : ℕ, q < 4 ∧ Covers companyId (scanQuarter offset now + q) e := by
        rw [abs_lt] at hmeets
        refine ⟨(e.quarter - scanQuarter offset now).toNat,by omega,hc,by omega,by omega⟩
      have hpos : 0 < scanCount j.scans companyId (scanQuarter offset now + q) e.vatClassification :=
        List.countP_pos_iff.mpr ⟨e,he,by simp [hcovers]⟩
      have hone := h q hq e.vatClassification
      rw [rowCount_next_scan offset hj draw now hf hq] at hone
      by_cases hsame : e.vatClassification = company.vatClassification
      · refine ⟨hsame,?_⟩
        by_contra hdvd
        rw [if_neg hdvd] at hone
        omega
      · rw [if_neg hsame] at hone
        split at hone <;> omega
    · intro h q hq w
      rw [rowCount_next_scan offset hj draw now hf hq]
      by_cases hnone : scanCount j.scans companyId (scanQuarter offset now + q) w = 0
      · rw [hnone]
        split_ifs <;> omega
      · obtain ⟨e,he,hcovers⟩ := List.countP_pos_iff.mp (Nat.pos_of_ne_zero hnone)
        rw [Bool.and_eq_true,decide_eq_true_iff,decide_eq_true_iff] at hcovers
        obtain ⟨⟨hc,hfirst,hlast⟩,rfl⟩ := hcovers
        have hmeets : |e.quarter - scanQuarter offset now| < 4 := by
          rw [abs_lt]
          omega
        obtain ⟨hsame,hdvd⟩ := h e he hc hmeets
        rw [if_pos hdvd,if_pos hsame]
        omega

end

/-- Over any sequence of profile updates and scans from a store without deadlines, each scan leaves
one return of the right form for each of its quarters exactly when it agrees with the scans before it. -/
theorem calendarAgrees_along_iff (offset : ℤ) {s : Store} (hs : s.compliance.filingDeadlines = [])
    (requests : List ProfileRequest) :
    Runs.Along (Journal.next offset) (CalendarAgrees offset) ⟨s,[]⟩ requests ↔
      Runs.Along (Journal.next offset) (Consistent offset) ⟨s,[]⟩ requests := by
  have hempty : Journaled offset ⟨s,[]⟩ := by
    refine ⟨fun c quarter v => ?_,?_⟩
    · simp [rowCount,scanCount,hs]
    · simp [hs]
  exact Runs.along_iff (A := fun _ _ => True) (I := Journaled offset) (fun _ req hj _ => calendarAgrees_iff offset hj req)
    (fun _ req hj _ _ => journaled_next offset hj req) hempty (Runs.along_true _ _)

/-- A store with one company. -/
def oneStore : Store where
  org := { companies := [sariSariStore] }

/-- The scan of 10 January 2026 with its own ids. -/
def januaryScan (n : ℕ) : ProfileRequest := .scan 300 ⟨fun i => 100 * n + i,fun i => i,fun i => i⟩ (20463 * msPerDay)

/-- A change that is not about the classification. -/
theorem calendarAgrees_along_iff_oneStore :
    Runs.Along (Journal.next 0) (CalendarAgrees 0) ⟨oneStore,[]⟩
      [januaryScan 0,.updateCompany 300 { tradeName := some "Nena's" },januaryScan 1] :=
  (calendarAgrees_along_iff 0 rfl _).mpr (by decide +kernel)

/-- After the registration for VAT a quarter has two returns. -/
theorem registration_not_calendarAgrees :
    ¬ Runs.Along (Journal.next 0) (CalendarAgrees 0) ⟨oneStore,[]⟩
      [januaryScan 0,.updateCompany 300 { vatClassification := some .vat },januaryScan 1] := by
  rintro ⟨-,-,h,-⟩
  have hone := h (Org.setProfile { vatClassification := some .vat } sariSariStore) (by decide +kernel) 0 (by decide)
  revert hone
  decide +kernel

end PinoyTax.Compliance
