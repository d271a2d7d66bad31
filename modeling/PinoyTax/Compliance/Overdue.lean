import PinoyTax.Foundation.Grouping
import PinoyTax.Compliance.Service
import PinoyTax.Notifications.DeadlineReminderJob

/-! # What a scan counts

Recording the counts of a category changes its first row, or adds one, and leaves every
other row as it is. The rows of a company are written by the scan alone, and after a scan
they count its deadlines as they are.
-/
namespace PinoyTax.Compliance
open PinoyTax Foundation Notifications

/-- The overdue filings that the status rows of a company count. -/
def countedOverdue (s : Store) (companyId : Uuid) : ℕ :=
  ((s.compliance.complianceStatus.filter (fun r => r.companyId = companyId)).map ComplianceStatus.overdueCount).sum

/-- The filing deadlines of a company with the status `overdue`. -/
def overdueDeadlines (s : Store) (companyId : Uuid) : ℕ :=
  (s.compliance.filingDeadlines.filter (isOverdueOf companyId)).length

def statusKey (r : ComplianceStatus) : Uuid × String := (r.companyId,r.category)

/-- One row for a category, and none for a category without deadlines. -/
structure Recorded (s : Store) : Prop where
  keys : (s.compliance.complianceStatus.map statusKey).Nodup
  categories : ∀ r ∈ s.compliance.complianceStatus, ∃ d ∈ s.compliance.filingDeadlines,
    d.companyId = r.companyId ∧ categoryOf d.agency = r.category

/-- The primary key of the status rows. -/
def StatusIds (s : Store) : Prop := (s.compliance.complianceStatus.map ComplianceStatus.id).Nodup

instance : DecidablePred StatusIds := fun _ => inferInstanceAs (Decidable (List.Nodup _))

/-! ## The buckets -/

theorem tally_eq_bump (d : FilingDeadline) (buckets : List (String × Counts)) :
    tally d buckets = Grouping.bump {} (categoryOf d.agency) (fun counts => counts.add d.status) buckets := by
  induction buckets with
  | nil => rfl
  | cons b buckets ih =>
    obtain ⟨category,counts⟩ := b
    rw [tally,Grouping.bump,ih]

theorem byCategory_eq_group (deadlines : List FilingDeadline) :
    byCategory deadlines =
      Grouping.group {} (fun d => categoryOf d.agency) (fun d counts => counts.add d.status) deadlines := by
  simp only [byCategory,Grouping.group,tally_eq_bump]

theorem nodup_byCategory (deadlines : List FilingDeadline) : ((byCategory deadlines).map Prod.fst).Nodup := by
  rw [byCategory_eq_group]
  exact Grouping.nodup_group _ _ _ _

theorem mem_categories {deadlines : List FilingDeadline} {category : String} :
    category ∈ (byCategory deadlines).map Prod.fst ↔ ∃ d ∈ deadlines, categoryOf d.agency = category := by
  rw [byCategory_eq_group]
  exact Grouping.mem_keys_group _ _ _ _ _

theorem overdue_add (counts : Counts) (status : FilingStatus) :
    (counts.add status).overdue = counts.overdue + if status = .overdue then 1 else 0 := by
  cases status <;> rfl

/-- All buckets together count the overdue deadlines. -/
theorem sum_byCategory (deadlines : List FilingDeadline) :
    ((byCategory deadlines).map fun b => b.2.overdue).sum = (deadlines.filter fun d => d.status == .overdue).length := by
  have hsum := Grouping.sum_group ({} : Counts) (fun d : FilingDeadline => categoryOf d.agency)
    (fun d counts => counts.add d.status) Counts.overdue (fun d => if d.status = .overdue then 1 else 0) rfl
    (fun d counts => overdue_add counts d.status) deadlines
  rw [byCategory_eq_group,hsum]
  clear hsum
  induction deadlines with
  | nil => rfl
  | cons d deadlines ih =>
    by_cases hd : d.status = .overdue
    · simp only [List.map_cons,List.sum_cons,hd,if_true,ih,List.filter_cons,beq_self_eq_true,List.length_cons]
      omega
    · simp [hd,ih]

/-! ## Writing the counts -/

section
variable {companyId : Uuid} {s t u : Store}

/-- What the scan does to the store before it counts: new deadlines of the company, new issues. -/
structure Grown (companyId : Uuid) (s t : Store) : Prop where
  org : t.org = s.org
  statuses : t.compliance.complianceStatus = s.compliance.complianceStatus
  deadlines : ∃ rows, (∀ d ∈ rows, d.companyId = companyId) ∧
    t.compliance.filingDeadlines = s.compliance.filingDeadlines ++ rows

theorem Grown.refl (s : Store) : Grown companyId s s := ⟨rfl,rfl,[],by simp,by simp⟩

theorem Grown.trans (h : Grown companyId s t) (h' : Grown companyId t u) : Grown companyId s u := by
  obtain ⟨rows,hrows,hdeadlines⟩ := h.deadlines
  obtain ⟨rows',hrows',hdeadlines'⟩ := h'.deadlines
  refine ⟨h'.org.trans h.org,h'.statuses.trans h.statuses,rows ++ rows',?_,?_⟩
  · intro d hd
    rcases List.mem_append.mp hd with hd | hd
    · exact hrows d hd
    · exact hrows' d hd
  · rw [hdeadlines',hdeadlines,List.append_assoc]

/-- The program returns, and the store has grown. -/
def Grows (companyId : Uuid) (p : Request Unit) (s : Store) : Prop :=
  ∃ t, p.run s = (.ok (),t) ∧ Grown companyId s t

theorem grows_done : Grows companyId (.done (.ok ())) s := ⟨s,rfl,.refl s⟩

theorem Grows.bind {p q : Request Unit} (hp : Grows companyId p s) (hq : ∀ t, Grows companyId q t) :
    Grows companyId (p >>= fun _ => q) s := by
  obtain ⟨t,hrun,hgrown⟩ := hp
  obtain ⟨u,hrun',hgrown'⟩ := hq t
  exact ⟨u,by rw [Prog.run_bind,hrun,Prog.resume_ok,hrun'],hgrown.trans hgrown'⟩

variable (companyId) in
theorem grows_generateFilingDeadlines (offset : ℤ) (company : Company) (ids : ℕ → Uuid) (today : DateTime) (s : Store) :
    Grows companyId (generateFilingDeadlines offset companyId company ids today) s := by
  unfold Grows
  simp only [generateFilingDeadlines,Prog.run_bind,TableRef.run_count,TableRef.run_findMany,Prog.resume_ok]
  split
  · refine ⟨_,rfl,rfl,rfl,_,?_,rfl⟩
    intro d hd
    obtain ⟨c,-,rfl⟩ := List.mem_map.mp hd
    rfl
  · exact grows_done

variable (companyId) in
theorem grows_flagUnless (alreadyFlagged : FlaggedIssue → Bool) (issue : FlaggedIssue) (s : Store) :
    Grows companyId (flagUnless alreadyFlagged issue) s := by
  unfold Grows
  simp only [flagUnless,Prog.run_bind,TableRef.run_findFirst,Prog.resume_ok]
  cases (Prisma.flaggedIssue.get s).find? alreadyFlagged with
  | some _ => exact grows_done
  | none => exact ⟨_,rfl,rfl,rfl,[],by simp,(List.append_nil _).symm⟩

variable (companyId) in
theorem grows_checkVatClassificationRisk (company : Company) (id : Uuid) (now : DateTime) (s : Store) :
    Grows companyId (checkVatClassificationRisk companyId company id now) s := by
  unfold Grows
  simp only [checkVatClassificationRisk,findThresholdRule,Prog.run_bind,Prog.run_query,Prog.resume_ok]
  cases s.taxEngine.taxRules.find? (fun r => r.ruleCode = "VAT_REGISTRATION_THRESHOLD") with
  | none => exact grows_done
  | some thresholdRule =>
    dsimp only
    cases thresholdRule.ratesHistory with
    | nil => exact grows_done
    | cons rate rest =>
      dsimp only
      split
      · exact grows_done
      · rw [Prog.run_bind,TableRef.run_findMany,Prog.resume_ok]
        split
        · exact grows_flagUnless _ _ _ s
        · exact grows_done

variable (companyId) in
theorem grows_flagDuplicates (offset : ℤ) (now : DateTime) (ids : ℕ → Uuid) (seenPeriods : List String)
    (runs : List PayrollRun) (s : Store) :
    Grows companyId (flagDuplicates offset companyId now ids seenPeriods runs) s := by
  induction runs generalizing ids seenPeriods s with
  | nil => exact grows_done
  | cons run runs ih =>
    rw [flagDuplicates]
    split
    · exact (grows_flagUnless _ _ _ s).bind fun t => ih _ _ t
    · exact ih _ _ s

variable (companyId) in
theorem grows_checkDuplicatePayrollRuns (offset : ℤ) (ids : ℕ → Uuid) (now : DateTime) (s : Store) :
    Grows companyId (checkDuplicatePayrollRuns offset companyId ids now) s := by
  unfold Grows
  rw [checkDuplicatePayrollRuns,Prog.run_bind,TableRef.run_findMany,Prog.resume_ok]
  exact grows_flagDuplicates companyId offset now ids [] _ s

end

/-! ## One category -/

/-- The status rows with the counts of a category recorded. -/
def recorded (companyId : Uuid) (now : DateTime) (id : Uuid) (bucket : String × Counts) (rows : List ComplianceStatus) :
    List ComplianceStatus :=
  match rows.find? (isStatusOf companyId bucket.1) with
  | some existing => Table.updateMany (fun c => c.id = existing.id) (setCounts bucket.2 now) rows
  | none => rows ++
    [setCounts bucket.2 now { id := id, companyId := companyId, category := bucket.1, lastComputedAt := now }]

theorem recordCounts_eq {companyId : Uuid} {s : Store} (now : DateTime) (id : Uuid) (bucket : String × Counts) :
    (recordCounts companyId now id bucket).run s = (.ok (),
      Prisma.complianceStatus.set (recorded companyId now id bucket s.compliance.complianceStatus) s) := by
  have hget : Prisma.complianceStatus.get s = s.compliance.complianceStatus := rfl
  rw [recordCounts,Prog.run_bind,TableRef.run_findFirst,Prog.resume_ok,hget,recorded]
  cases hf : s.compliance.complianceStatus.find? (isStatusOf companyId bucket.1) with
  | some existing =>
    obtain ⟨r,hr⟩ := Table.exists_find?_of_mem ComplianceStatus.id (List.mem_of_find?_eq_some hf)
    dsimp only
    rw [Prog.run_bind,TableRef.run_update_of_find hr,Prog.resume_ok]
    rfl
  | none => rfl

section
variable {companyId : Uuid} {now : DateTime} {id : Uuid} {bucket : String × Counts} {rows : List ComplianceStatus}

theorem isStatusOf_eq_true {category : String} {r : ComplianceStatus} :
    isStatusOf companyId category r = true ↔ r.companyId = companyId ∧ r.category = category := by
  rw [isStatusOf,Bool.and_eq_true,decide_eq_true_eq,decide_eq_true_eq]

theorem isStatusOf_setCounts (category : String) (counts : Counts) (r : ComplianceStatus) :
    isStatusOf companyId category (setCounts counts now r) = isStatusOf companyId category r := rfl

theorem updateMany_existing (hids : (rows.map ComplianceStatus.id).Nodup) {existing : ComplianceStatus}
    (hf : rows.find? (isStatusOf companyId bucket.1) = some existing) (f : ComplianceStatus → ComplianceStatus) :
    Table.updateMany (fun c => c.id = existing.id) f rows =
      Table.updateMany (fun c => isStatusOf companyId bucket.1 c && decide (c.id = existing.id)) f rows := by
  apply Table.updateMany_congr
  intro r hr
  by_cases hid : r.id = existing.id
  · obtain rfl := Table.eq_of_key hids hr (List.mem_of_find?_eq_some hf) hid
    simp [List.find?_some hf]
  · simp [hid]

variable (companyId now id bucket) in
/-- The first row of the category takes the counts. -/
theorem filter_recorded_self (hids : (rows.map ComplianceStatus.id).Nodup) :
    ∃ r, (recorded companyId now id bucket rows).filter (isStatusOf companyId bucket.1) =
      setCounts bucket.2 now r :: (rows.filter (isStatusOf companyId bucket.1)).tail := by
  unfold recorded
  cases hf : rows.find? (isStatusOf companyId bucket.1) with
  | some existing =>
    obtain ⟨rest,hfilter⟩ : ∃ rest, rows.filter (isStatusOf companyId bucket.1) = existing :: rest := by
      rw [← List.head?_filter] at hf
      exact List.head?_eq_some_iff.mp hf
    have hids' : ((existing :: rest).map ComplianceStatus.id).Nodup := by
      rw [← hfilter]
      exact hids.sublist (List.filter_sublist.map _)
    rw [List.map_cons,List.nodup_cons] at hids'
    have hrest : Table.updateMany (fun c => c.id = existing.id) (setCounts bucket.2 now) rest = rest :=
      Table.updateMany_eq_self fun r hr hid =>
        absurd (of_decide_eq_true hid ▸ List.mem_map_of_mem hr) hids'.1
    refine ⟨existing,?_⟩
    dsimp only
    rw [Table.filter_updateMany (isStatusOf_setCounts _ _),hfilter,Table.updateMany_cons,hrest,if_pos (by simp),List.tail_cons]
  | none =>
    have hnone : rows.filter (isStatusOf companyId bucket.1) = [] := by
      rw [List.filter_eq_nil_iff]
      exact List.find?_eq_none.mp hf
    have hnew : isStatusOf companyId bucket.1 (setCounts bucket.2 now
        { id := id, companyId := companyId, category := bucket.1, lastComputedAt := now }) = true := by
      simp [isStatusOf,setCounts]
    refine ⟨{ id := id, companyId := companyId, category := bucket.1, lastComputedAt := now },?_⟩
    dsimp only
    rw [List.filter_append,hnone,List.filter_singleton,hnew]
    rfl

variable (companyId now id bucket) in
/-- A selection that does not look at counts, and not at rows of the category, is the same. -/
theorem filter_recorded_other (hids : (rows.map ComplianceStatus.id).Nodup) {p : ComplianceStatus → Bool}
    (hp : ∀ counts r, p (setCounts counts now r) = p r)
    (hother : ∀ r, isStatusOf companyId bucket.1 r = true → p r = false) :
    (recorded companyId now id bucket rows).filter p = rows.filter p := by
  unfold recorded
  cases hf : rows.find? (isStatusOf companyId bucket.1) with
  | some existing =>
    dsimp only
    rw [updateMany_existing hids hf]
    apply Table.filter_updateMany_of_disjoint
    intro r hr
    rw [hp,hother r (Bool.and_eq_true_iff.mp hr).1]
    exact ⟨rfl,rfl⟩
  | none =>
    have hnew : p (setCounts bucket.2 now
        { id := id, companyId := companyId, category := bucket.1, lastComputedAt := now }) = false :=
      hother _ (by simp [isStatusOf,setCounts])
    dsimp only
    rw [List.filter_append,List.filter_singleton,hnew,cond_false,List.append_nil]

end

/-! ## All categories -/

section
variable {companyId : Uuid} {now : DateTime} {s : Store}

/-- Each bucket is in the first row of its category, and nothing else has changed. -/
structure Recounts (companyId : Uuid) (now : DateTime) (buckets : List (String × Counts))
    (rows rows' : List ComplianceStatus) : Prop where
  self : ∀ b ∈ buckets, ∃ r, rows'.filter (isStatusOf companyId b.1) =
    setCounts b.2 now r :: (rows.filter (isStatusOf companyId b.1)).tail
  other : ∀ p : ComplianceStatus → Bool, (∀ counts r, p (setCounts counts now r) = p r) →
    (∀ b ∈ buckets, ∀ r, isStatusOf companyId b.1 r = true → p r = false) → rows'.filter p = rows.filter p

/-- The first bucket is recorded, and then the others, which are of other categories. -/
theorem Recounts.cons {bucket : String × Counts} {buckets : List (String × Counts)} {id : Uuid}
    {rows rows' : List ComplianceStatus} (hbucket : bucket.1 ∉ buckets.map Prod.fst)
    (hids : (rows.map ComplianceStatus.id).Nodup)
    (h : Recounts companyId now buckets (recorded companyId now id bucket rows) rows') :
    Recounts companyId now (bucket :: buckets) rows rows' := by
  have hapart : ∀ b ∈ buckets, ∀ r, isStatusOf companyId bucket.1 r = true → isStatusOf companyId b.1 r = false := by
    intro b hb r hr
    rw [isStatusOf_eq_true] at hr
    rw [Bool.eq_false_iff,Ne,isStatusOf_eq_true,hr.2]
    rintro ⟨-,hcategory⟩
    rw [hcategory] at hbucket
    exact hbucket (List.mem_map_of_mem hb)
  constructor
  · intro b hb
    rcases List.mem_cons.mp hb with rfl | hb
    · obtain ⟨r,hr⟩ := filter_recorded_self companyId now id b hids
      refine ⟨r,?_⟩
      rw [← hr]
      refine h.other _ (isStatusOf_setCounts _) fun b' hb' r hr => ?_
      rw [Bool.eq_false_iff]
      intro hself
      rw [hapart b' hb' r hself] at hr
      cases hr
    · obtain ⟨r,hr⟩ := h.self b hb
      have hsame := filter_recorded_other companyId now id bucket hids (isStatusOf_setCounts b.1) (hapart b hb)
      refine ⟨r,?_⟩
      rw [hr,hsame]
  · intro p hp hother
    rw [h.other p hp fun b hb => hother b (List.mem_cons_of_mem _ hb)]
    exact filter_recorded_other companyId now id bucket hids hp (hother bucket List.mem_cons_self)

theorem run_recordAll_recounts {ids : ℕ → Uuid} {buckets : List (String × Counts)} (hbuckets : (buckets.map Prod.fst).Nodup)
    (hwithin : Prog.Within StatusIds (recordAll companyId now ids buckets) s) :
    ∃ rows, (recordAll companyId now ids buckets).run s = (.ok (),Prisma.complianceStatus.set rows s) ∧
      Recounts companyId now buckets s.compliance.complianceStatus rows := by
  induction buckets generalizing ids s with
  | nil => exact ⟨s.compliance.complianceStatus,rfl,by simp,fun _ _ _ => rfl⟩
  | cons b buckets ih =>
    rw [List.map_cons,List.nodup_cons] at hbuckets
    have hrun := @recordCounts_eq companyId s now (ids 0) b
    obtain ⟨rows,hrest,hrows⟩ := ih hbuckets.2 (hwithin.of_bind_run hrun)
    refine ⟨rows,?_,hrows.cons hbuckets.1 hwithin.start⟩
    rw [recordAll,Prog.run_bind,hrun,Prog.resume_ok,hrest]
    rfl

theorem run_recompute {ids : ℕ → Uuid} {now : DateTime}
    (hwithin : Prog.Within StatusIds (recomputeComplianceStatus companyId ids now) s) :
    ∃ rows, (recomputeComplianceStatus companyId ids now).run s = (.ok (),Prisma.complianceStatus.set rows s) ∧
      Recounts companyId now (byCategory (s.compliance.filingDeadlines.filter fun d => d.companyId = companyId))
        s.compliance.complianceStatus rows := by
  have hrest := hwithin.of_bind_run (TableRef.run_findMany (t := Prisma.filingDeadline) _ s)
  rw [recomputeComplianceStatus,Prog.run_bind,TableRef.run_findMany,Prog.resume_ok]
  exact run_recordAll_recounts (nodup_byCategory _) hrest

end

/-! ## What the rows count -/

section
variable {companyId : Uuid} {s t u : Store}

/-- Only status rows change: the one of each bucket is put. -/
structure Records (companyId : Uuid) (buckets : List (String × Counts)) (s t : Store) : Prop where
  rest : t = Prisma.complianceStatus.set t.compliance.complianceStatus s
  keys : (t.compliance.complianceStatus.map statusKey).Nodup
  rows : ∀ b ∈ buckets, ∃ r ∈ t.compliance.complianceStatus,
    r.companyId = companyId ∧ r.category = b.1 ∧ r.overdueCount = b.2.overdue
  others : ∀ r, r.companyId ≠ companyId ∨ r.category ∉ buckets.map Prod.fst →
    (r ∈ t.compliance.complianceStatus ↔ r ∈ s.compliance.complianceStatus)

/-- When each category has one row, so it has after the recount. -/
theorem Recounts.nodup_statusKey {now : DateTime} {buckets : List (String × Counts)} {old rows : List ComplianceStatus}
    (h : Recounts companyId now buckets old rows) (hkeys : (old.map statusKey).Nodup) : (rows.map statusKey).Nodup := by
  apply Table.nodup_of_tail_filter
  intro k
  have hold : (old.filter fun r => statusKey r = k).tail = [] :=
    Table.tail_filter_eq_nil hkeys fun r q hr hq => (of_decide_eq_true hr).trans (of_decide_eq_true hq).symm
  by_cases hk : k.1 = companyId ∧ k.2 ∈ buckets.map Prod.fst
  · obtain ⟨b,hb,hcategory⟩ := List.mem_map.mp hk.2
    have hselect : (fun r => decide (statusKey r = k)) = isStatusOf companyId b.1 := by
      funext r
      rw [Bool.eq_iff_iff,decide_eq_true_eq,isStatusOf_eq_true,statusKey,Prod.ext_iff,hk.1,hcategory]
    obtain ⟨r,hr⟩ := h.self b hb
    rw [hselect] at hold ⊢
    rw [hr,hold,List.tail_cons]
  · rw [h.other _ (fun counts r => rfl),hold]
    intro b hb r hr
    rw [isStatusOf_eq_true] at hr
    rw [decide_eq_false_iff_not]
    rintro rfl
    refine hk ⟨hr.1,?_⟩
    rw [statusKey,hr.2]
    exact List.mem_map_of_mem hb

theorem Recounts.records {now : DateTime} {buckets : List (String × Counts)} {rows : List ComplianceStatus}
    (h : Recounts companyId now buckets s.compliance.complianceStatus rows)
    (hkeys : (s.compliance.complianceStatus.map statusKey).Nodup) :
    Records companyId buckets s (Prisma.complianceStatus.set rows s) := by
  refine ⟨rfl,h.nodup_statusKey hkeys,fun b hb => ?_,fun r hr => ?_⟩
  · obtain ⟨r,hr⟩ := h.self b hb
    have hmem : setCounts b.2 now r ∈ rows.filter (isStatusOf companyId b.1) := by
      rw [hr]
      exact List.mem_cons_self
    obtain ⟨hmem,hstatus⟩ := List.mem_filter.mp hmem
    rw [isStatusOf_eq_true] at hstatus
    exact ⟨_,hmem,hstatus.1,hstatus.2,rfl⟩
  · have hsame := h.other (fun r => r.companyId ≠ companyId ∨ r.category ∉ buckets.map Prod.fst) (fun counts r => rfl) ?_
    · have hiff : r ∈ rows.filter _ ↔ r ∈ s.compliance.complianceStatus.filter _ := iff_of_eq (congrArg (r ∈ ·) hsame)
      rw [List.mem_filter,List.mem_filter,decide_eq_true hr,and_iff_left rfl,and_iff_left rfl] at hiff
      exact hiff
    · intro b hb r hr
      rw [isStatusOf_eq_true] at hr
      rw [decide_eq_false_iff_not,not_or,not_not,not_not,hr.2]
      exact ⟨hr.1,List.mem_map_of_mem hb⟩

/-- The rows of the company count its deadlines. -/
theorem Records.countedOverdue (h : Records companyId
      (byCategory (s.compliance.filingDeadlines.filter fun d => d.companyId = companyId)) s t)
    (hcategories : ∀ r ∈ s.compliance.complianceStatus, r.companyId = companyId →
      ∃ d ∈ s.compliance.filingDeadlines, d.companyId = companyId ∧ categoryOf d.agency = r.category) :
    countedOverdue t companyId = overdueDeadlines t companyId := by
  have hdeadlines : t.compliance.filingDeadlines = s.compliance.filingDeadlines := by
    rw [h.rest]
    rfl
  have hn : ((t.compliance.complianceStatus.filter fun r => r.companyId = companyId).map
      ComplianceStatus.category).Nodup := by
    apply List.Nodup.map_on _ ((List.Nodup.of_map _ h.keys).filter _)
    intro r hr q hq he
    have hrc := (List.mem_filter.mp hr).2
    have hqc := (List.mem_filter.mp hq).2
    simp only [decide_eq_true_eq] at hrc hqc
    exact Table.eq_of_key h.keys (List.mem_filter.mp hr).1 (List.mem_filter.mp hq).1 (by simp [statusKey,hrc,hqc,he])
  have hsum := Table.sum_map_eq_of_keys (f := ComplianceStatus.overdueCount) (g := fun b => b.2.overdue) hn
    (nodup_byCategory (s.compliance.filingDeadlines.filter fun d => d.companyId = companyId)) ?_ ?_
  · rw [Compliance.countedOverdue,overdueDeadlines,hdeadlines,hsum,sum_byCategory,List.filter_filter]
    congr 1
    apply List.filter_congr
    intro d _
    simp [isOverdueOf,Bool.and_comm]
  · intro b hb
    obtain ⟨r,hr,hc,hcategory,hcount⟩ := h.rows b hb
    exact ⟨r,List.mem_filter.mpr ⟨hr,by simpa using hc⟩,hcategory,hcount⟩
  · intro r hr
    obtain ⟨hr,hc⟩ := List.mem_filter.mp hr
    simp only [decide_eq_true_eq] at hc
    by_contra hnew
    have hold := (h.others r (.inr hnew)).mp hr
    obtain ⟨d,hd,hdc,hcategory⟩ := hcategories r hold hc
    exact hnew (mem_categories.mpr ⟨d,List.mem_filter.mpr ⟨hd,by simpa using hdc⟩,hcategory⟩)

/-- What a scan leaves: the counts of its company right, those of the others alone. -/
structure Scanned (companyId : Uuid) (s t : Store) : Prop where
  org : t.org = s.org
  recorded : Recorded t
  counted : countedOverdue t companyId = overdueDeadlines t companyId
  others : ∀ c, c ≠ companyId → countedOverdue t c = countedOverdue s c ∧ overdueDeadlines t c = overdueDeadlines s c

theorem Recounts.countedOverdue_other {now : DateTime} {buckets : List (String × Counts)} {rows : List ComplianceStatus}
    (h : Recounts companyId now buckets s.compliance.complianceStatus rows) {c : Uuid} (hc : c ≠ companyId) :
    Compliance.countedOverdue (Prisma.complianceStatus.set rows s) c = Compliance.countedOverdue s c := by
  have hsame : rows.filter (fun r => r.companyId = c) = s.compliance.complianceStatus.filter (fun r => r.companyId = c) := by
    apply h.other
    · exact fun counts r => rfl
    · intro b _ r hr
      rw [isStatusOf_eq_true] at hr
      rw [hr.1,decide_eq_false_iff_not]
      exact Ne.symm hc
  unfold Compliance.countedOverdue
  rw [← hsame]
  rfl

theorem Grown.overdueDeadlines_other (h : Grown companyId s t) {c : Uuid} (hc : c ≠ companyId) :
    overdueDeadlines t c = overdueDeadlines s c := by
  obtain ⟨rows,hrows,hdeadlines⟩ := h.deadlines
  have hnone : rows.filter (isOverdueOf c) = [] := by
    rw [List.filter_eq_nil_iff]
    intro d hd
    simp [isOverdueOf,hrows d hd,Ne.symm hc]
  rw [overdueDeadlines,overdueDeadlines,hdeadlines,List.filter_append,hnone,List.append_nil]

theorem Grown.categories (hs : Recorded s) (h : Grown companyId s t) : ∀ r ∈ t.compliance.complianceStatus,
    ∃ d ∈ t.compliance.filingDeadlines, d.companyId = r.companyId ∧ categoryOf d.agency = r.category := by
  obtain ⟨rows,-,hdeadlines⟩ := h.deadlines
  intro r hr
  rw [h.statuses] at hr
  obtain ⟨d,hd,hdr⟩ := hs.categories r hr
  exact ⟨d,by rw [hdeadlines]; exact List.mem_append_left _ hd,hdr⟩

theorem Recounts.scanned (hs : Recorded s) (hst : Grown companyId s t) {now : DateTime} {rows : List ComplianceStatus}
    (h : Recounts companyId now (byCategory (t.compliance.filingDeadlines.filter fun d => d.companyId = companyId))
      t.compliance.complianceStatus rows) : Scanned companyId s (Prisma.complianceStatus.set rows t) := by
  have hrecords := h.records (hst.statuses ▸ hs.keys)
  have hcategories := hst.categories hs
  refine ⟨hst.org,⟨hrecords.keys,fun r hr => ?_⟩,hrecords.countedOverdue fun r hr hc => ?_,fun c hc => ⟨?_,?_⟩⟩
  · by_cases htouched : r.companyId = companyId ∧ r.category ∈
        (byCategory (t.compliance.filingDeadlines.filter fun d => d.companyId = companyId)).map Prod.fst
    · obtain ⟨d,hd,hcategory⟩ := mem_categories.mp htouched.2
      obtain ⟨hd,hc⟩ := List.mem_filter.mp hd
      exact ⟨d,hd,by simpa [htouched.1] using hc,hcategory⟩
    · exact hcategories r ((hrecords.others r (by tauto)).mp hr)
  · obtain ⟨d,hd,hdr⟩ := hcategories r hr
    rw [hc] at hdr
    exact ⟨d,hd,hdr⟩
  · rw [h.countedOverdue_other hc,Compliance.countedOverdue,Compliance.countedOverdue,hst.statuses]
  · exact hst.overdueDeadlines_other hc

/-- A scan of a company that is not there does nothing; any other counts in a store that has grown. -/
theorem runComplianceScan_cases (offset : ℤ) (draw : ScanDraw) (now : DateTime) (s : Store) :
    ((runComplianceScan offset companyId draw now).run s).2 = s ∨
      ∃ t, Grown companyId s t ∧ (runComplianceScan offset companyId draw now).run s =
          (recomputeComplianceStatus companyId draw.statusIds now).run t ∧
        ∀ P, Prog.Within P (runComplianceScan offset companyId draw now) s →
          Prog.Within P (recomputeComplianceStatus companyId draw.statusIds now) t := by
  cases hf : s.org.companies.find? (fun c => c.id = companyId) with
  | none =>
    left
    rw [run_runComplianceScan_none hf]
  | some company =>
    right
    obtain ⟨s₁,hrun₁,h₁⟩ := grows_generateFilingDeadlines companyId offset company draw.deadlineIds now s
    obtain ⟨s₂,hrun₂,h₂⟩ := grows_checkVatClassificationRisk companyId company (draw.issueIds 0) now s₁
    obtain ⟨s₃,hrun₃,h₃⟩ := grows_checkDuplicatePayrollRuns companyId offset (fun i => draw.issueIds (i + 1)) now s₂
    refine ⟨s₃,(h₁.trans h₂).trans h₃,run_runComplianceScan_some hf hrun₁ hrun₂ hrun₃,fun P hwithin => ?_⟩
    have hrest := hwithin.of_bind_run (TableRef.run_findUnique (t := Prisma.company) _ s)
    rw [show (Prisma.company.get s).find? (fun c => c.id = companyId) = some company from hf] at hrest
    exact ((hrest.of_bind_run hrun₁).of_bind_run hrun₂).of_bind_run hrun₃

/-- A scan of a company that is not there does nothing; any other counts right. -/
theorem run_runComplianceScan (offset : ℤ) {draw : ScanDraw} {now : DateTime} (hs : Recorded s)
    (hwithin : Prog.Within StatusIds (runComplianceScan offset companyId draw now) s) :
    ((runComplianceScan offset companyId draw now).run s).2 = s ∨
      Scanned companyId s ((runComplianceScan offset companyId draw now).run s).2 := by
  rcases runComplianceScan_cases offset draw now s with hsame | ⟨t,hgrown,hscan,hrest⟩
  · exact .inl hsame
  · right
    obtain ⟨rows,hrun,hrows⟩ := run_recompute (hrest _ hwithin)
    rw [hscan,hrun]
    exact hrows.scanned hs hgrown

end
end PinoyTax.Compliance
