import PinoyTax.Foundation.Runs
import PinoyTax.Compliance.Overdue

/-! # The status rows of a company

Since the scan alone writes status rows, there is one for a company and a category at
most, and after a scan the counts in it are those of the deadlines of an agency.
-/
namespace PinoyTax.Compliance
open PinoyTax Foundation

/-! ## The counts of an agency -/

def deadlinesOf (companyId : Uuid) (agency : Agency) (s : Store) : List FilingDeadline :=
  (s.compliance.filingDeadlines.filter fun d => d.companyId = companyId).filter fun d => d.agency = agency

def countsOf (deadlines : List FilingDeadline) : Counts := deadlines.foldl (fun counts d => counts.add d.status) {}

/-- The row counts these deadlines. -/
structure AgencyRow (deadlines : List FilingDeadline) (r : ComplianceStatus) : Prop where
  completed : r.completedCount = deadlines.countP fun d => d.status = .filed
  overdue : r.overdueCount = deadlines.countP fun d => d.status = .overdue
  pending : r.pendingCount = deadlines.countP fun d => d.status ≠ .filed ∧ d.status ≠ .overdue
  total : r.completedCount + r.pendingCount + r.missingCount + r.overdueCount = deadlines.length
  percentage : r.compliancePercentage = toFixed 2 (r.completedCount / deadlines.length * 100)
  nonneg : 0 ≤ r.compliancePercentage
  le_hundred : r.compliancePercentage ≤ 100

theorem categoryOf_injective : Function.Injective categoryOf := by
  intro a b h
  cases a <;> cases b <;> first | rfl | exact absurd h (by decide)

theorem foldl_add (deadlines : List FilingDeadline) (counts : Counts) :
    deadlines.foldl (fun counts d => counts.add d.status) counts =
      { completed := counts.completed + deadlines.countP fun d => d.status = .filed
        pending := counts.pending + deadlines.countP fun d => d.status ≠ .filed ∧ d.status ≠ .overdue
        missing := counts.missing
        overdue := counts.overdue + deadlines.countP fun d => d.status = .overdue } := by
  induction deadlines generalizing counts with
  | nil => rfl
  | cons d deadlines ih =>
    rw [List.foldl_cons,ih]
    simp only [List.countP_cons]
    cases d.status with
    | filed => simp [Counts.add]; omega
    | overdue => simp [Counts.add]; omega
    | _ => simp [Counts.add]; omega

theorem countsOf_eq (deadlines : List FilingDeadline) : countsOf deadlines =
    { completed := deadlines.countP fun d => d.status = .filed
      pending := deadlines.countP fun d => d.status ≠ .filed ∧ d.status ≠ .overdue
      missing := 0
      overdue := deadlines.countP fun d => d.status = .overdue } := by
  rw [countsOf,foldl_add]
  simp only [Nat.zero_add]

/-- Each deadline is filed, overdue or neither. -/
theorem length_eq_counts (deadlines : List FilingDeadline) : deadlines.length =
    (deadlines.countP fun d => d.status = .filed) +
      (deadlines.countP fun d => d.status ≠ .filed ∧ d.status ≠ .overdue) +
      deadlines.countP fun d => d.status = .overdue := by
  induction deadlines with
  | nil => rfl
  | cons d deadlines ih =>
    simp only [List.length_cons,List.countP_cons,ih]
    cases d.status with
    | filed => simp; omega
    | overdue => simp; omega
    | _ => simp; omega

/-- Its percentage lies midway between two hundredths, and a hundred times the nearest double is rounded to less. -/
def FallsShort (share : ℚ) : Prop :=
  Int.fract (share * 10000) = 1 / 2 ∧ Double.nearest (Double.nearest share * 100) < share * 100

instance (share : ℚ) : Decidable (FallsShort share) := inferInstanceAs (Decidable (_ ∧ _))

section
variable {completed total : ℕ}

theorem ratio_le_hundred (hle : completed ≤ total) : (completed : ℚ) / total * 100 ≤ 100 := by
  have hle' : (completed : ℚ) ≤ total := by exact_mod_cast hle
  have hdiv : (completed : ℚ) / total ≤ 1 := div_le_one_of_le₀ hle' (by positivity)
  linarith

/-- The double is off by less than a hundredth of a hundredth of any fraction with such a denominator. -/
theorem abs_percentage_sub_lt (hle : completed ≤ total) :
    |Double.mul (Double.div completed total) 100 * 10 ^ 2 - (completed : ℚ) / total * 10000| < 1 / 2 ^ 34 := by
  have hclose := Double.abs_mul_nearest_sub_le ((completed : ℚ) / total) 100
  have hratio := ratio_le_hundred hle
  rw [abs_of_nonneg (by positivity : (0 : ℚ) ≤ (completed : ℚ) / total * 100)] at hclose
  have hsmall : |Double.mul (Double.div completed total) 100 - (completed : ℚ) / total * 100| < 1 / 2 ^ 41 := by
    refine hclose.trans_lt ?_
    rw [div_lt_div_iff₀ (by positivity) (by positivity)]
    linarith
  rw [abs_lt] at hsmall ⊢
  constructor <;> linarith

/-- With as many deadlines as an array holds, the percentage is the rounded share unless that is a tie
that the computed double is below. -/
theorem toFixed_percentage_iff (hpos : 0 < total) (hle : completed ≤ total) (hsize : total < 2 ^ 32) :
    toFixed 2 (Double.mul (Double.div completed total) 100) = toFixed 2 ((completed : ℚ) / total * 100) ↔
      ¬ FallsShort (completed / total) := by
  have hnonneg : 0 ≤ Double.mul (Double.div completed total) 100 :=
    Double.nearest_nonneg (mul_nonneg (Double.nearest_nonneg (by positivity)) (by norm_num))
  have hscale : (completed : ℚ) / total * 100 * 10 ^ 2 = (completed : ℚ) / total * 10000 := by ring
  have hcast : (completed : ℚ) / total * 10000 = ((completed * 10000 : ℤ) : ℚ) / total := by push_cast; ring
  have hwide : (total : ℚ) < 2 ^ 32 := by exact_mod_cast hsize
  have hpos' : (0 : ℚ) < total := by exact_mod_cast hpos
  have hapart : Int.fract ((completed : ℚ) / total * 10000) = 1 / 2 ∨
      1 / 2 ^ 34 ≤ |Int.fract ((completed : ℚ) / total * 10000) - 1 / 2| := by
    by_cases htie : Int.fract ((completed : ℚ) / total * 10000) = 1 / 2
    · exact .inl htie
    · refine .inr (le_trans ?_ (hcast ▸ le_abs_fract_sub_half (completed * 10000) hpos (hcast ▸ htie)))
      rw [div_le_div_iff₀ (by positivity) (by positivity)]
      linarith
  rw [toFixed_eq_iff 2 hnonneg (by positivity),hscale,
    floor_add_half_eq_iff (by norm_num) hapart (abs_percentage_sub_lt hle),FallsShort]
  have hbelow : Double.mul (Double.div completed total) 100 * 10 ^ 2 < (completed : ℚ) / total * 10000 ↔
      Double.mul (Double.div completed total) 100 < (completed : ℚ) / total * 100 := by
    rw [← hscale,mul_lt_mul_iff_left₀ (by norm_num)]
  rw [hbelow]
  exact Iff.rfl

theorem toFixed_percentage_le_hundred (hle : completed ≤ total) :
    toFixed 2 (Double.mul (Double.div completed total) 100) ≤ 100 := by
  have hnonneg : 0 ≤ Double.mul (Double.div completed total) 100 :=
    Double.nearest_nonneg (mul_nonneg (Double.nearest_nonneg (by positivity)) (by norm_num))
  have hclose := (abs_lt.mp (abs_percentage_sub_lt hle)).2
  have hratio := ratio_le_hundred hle
  have hfloor : ⌊Double.mul (Double.div completed total) 100 * 10 ^ 2 + 1 / 2⌋ ≤ 10000 := by
    rw [← Int.lt_add_one_iff,Int.floor_lt]
    push_cast
    linarith
  have hcast : (⌊Double.mul (Double.div completed total) 100 * 10 ^ 2 + 1 / 2⌋ : ℚ) ≤ 10000 := by exact_mod_cast hfloor
  rw [toFixed,roundUnits_of_nonneg 2 hnonneg,div_le_iff₀ (by norm_num)]
  linarith

end

/-- The counts of the row are those of the deadlines, and its percentage is theirs unless it falls short. -/
theorem agencyRow_setCounts_iff {deadlines : List FilingDeadline} (hne : deadlines ≠ []) (hsize : deadlines.length < 2 ^ 32)
    (now : DateTime) (r : ComplianceStatus) : AgencyRow deadlines (setCounts (countsOf deadlines) now r) ↔
      ¬ FallsShort ((deadlines.countP fun d => d.status = .filed) / deadlines.length) := by
  have hpos : 0 < deadlines.length := List.length_pos_iff.mpr hne
  have hlength := length_eq_counts deadlines
  have hcounts := countsOf_eq deadlines
  generalize countsOf deadlines = counts at *
  have hcompleted : counts.completed = deadlines.countP fun d => d.status = .filed := by rw [hcounts]
  have hpending : counts.pending = deadlines.countP fun d => d.status ≠ .filed ∧ d.status ≠ .overdue := by rw [hcounts]
  have hmissing : counts.missing = 0 := by rw [hcounts]
  have hoverdue : counts.overdue = deadlines.countP fun d => d.status = .overdue := by rw [hcounts]
  have htotal : counts.completed + counts.pending + counts.missing + counts.overdue = deadlines.length := by omega
  have hpercentage : percentage counts = toFixed 2 (Double.mul (Double.div counts.completed deadlines.length) 100) := by
    unfold percentage
    rw [htotal]
    exact if_pos hpos
  have hle : counts.completed ≤ deadlines.length := by omega
  rw [← hcompleted,← toFixed_percentage_iff hpos hle hsize,← hpercentage]
  constructor
  · exact fun h => h.percentage
  · intro hround
    refine ⟨hcompleted,hoverdue,hpending,htotal,hround,?_,?_⟩
    · change 0 ≤ percentage counts
      rw [hround]
      exact toFixed_nonneg 2 (by positivity)
    · change percentage counts ≤ 100
      rw [hpercentage]
      exact toFixed_percentage_le_hundred hle

/-! ## Runs of scans -/

/-- A scan, or anything else that happens to the store: nothing but scans writes status rows. -/
inductive ScanStep where
  | scan (companyId : Uuid) (draw : ScanDraw) (now : DateTime)
  | change (t : Store)

namespace ScanStep

def next (offset : ℤ) (s : Store) : ScanStep → Store
  | scan companyId draw now => ((runComplianceScan offset companyId draw now).run s).2
  | change t => Prisma.complianceStatus.set s.compliance.complianceStatus t

/-- The status rows of the scan keep their primary key. -/
def Keyed (offset : ℤ) (s : Store) : ScanStep → Prop
  | scan companyId draw now => Prog.Within StatusIds (runComplianceScan offset companyId draw now) s
  | change _ => True

instance (offset : ℤ) (s : Store) : (step : ScanStep) → Decidable (step.Keyed offset s)
  | scan companyId draw now => inferInstanceAs (Decidable (Prog.Within StatusIds (runComplianceScan offset companyId draw now) s))
  | change _ => .isTrue trivial

end ScanStep

section
variable {companyId : Uuid} {s : Store}

/-- One row for a company and a category. -/
theorem nodup_statusKey_next (offset : ℤ) (hkeys : (s.compliance.complianceStatus.map statusKey).Nodup) {step : ScanStep}
    (hstep : step.Keyed offset s) : ((step.next offset s).compliance.complianceStatus.map statusKey).Nodup := by
  cases step with
  | change t => exact hkeys
  | scan companyId draw now =>
    unfold ScanStep.next
    dsimp only
    rcases runComplianceScan_cases offset draw now s with hsame | ⟨t,hgrown,hscan,hrest⟩
    · rw [hsame]
      exact hkeys
    · rw [← hgrown.statuses] at hkeys
      obtain ⟨rows,hrun,hrows⟩ := run_recompute (hrest _ hstep)
      rw [hscan,hrun]
      exact hrows.nodup_statusKey hkeys

/-- What the recount leaves: one row for each agency with deadlines, and all other rows as they were. -/
structure Recounted (companyId : Uuid) (s t : Store) : Prop where
  row : ∀ agency, deadlinesOf companyId agency s ≠ [] →
    ∃ r, t.compliance.complianceStatus.filter (isStatusOf companyId (categoryOf agency)) = [r] ∧
      AgencyRow (deadlinesOf companyId agency s) r
  kept : ∀ agency, deadlinesOf companyId agency s = [] →
    t.compliance.complianceStatus.filter (isStatusOf companyId (categoryOf agency)) =
      s.compliance.complianceStatus.filter (isStatusOf companyId (categoryOf agency))
  others : t.compliance.complianceStatus.filter (fun r => r.companyId ≠ companyId) =
    s.compliance.complianceStatus.filter (fun r => r.companyId ≠ companyId)

/-- The bucket of an agency. -/
theorem filter_category (agency : Agency) (s : Store) :
    ((s.compliance.filingDeadlines.filter fun d => d.companyId = companyId).filter fun d =>
      categoryOf d.agency = categoryOf agency) = deadlinesOf companyId agency s := by
  apply List.filter_congr
  intro d _
  rw [Bool.eq_iff_iff,decide_eq_true_eq,decide_eq_true_eq,categoryOf_injective.eq_iff]

theorem length_deadlinesOf_le (agency : Agency) (s : Store) : (deadlinesOf companyId agency s).length ≤
    (s.compliance.filingDeadlines.filter fun d => d.companyId = companyId).length := List.length_filter_le _ _

theorem mem_byCategory_iff (agency : Agency) (s : Store) : categoryOf agency ∈
    (byCategory (s.compliance.filingDeadlines.filter fun d => d.companyId = companyId)).map Prod.fst ↔
      deadlinesOf companyId agency s ≠ [] := by
  rw [mem_categories,← filter_category,← List.length_pos_iff,List.length_pos_iff_exists_mem]
  simp only [List.mem_filter,decide_eq_true_eq]

section
variable {now : DateTime} {rows : List ComplianceStatus}

/-- The one row of an agency with deadlines. -/
theorem Recounts.exists_row
    (h : Recounts companyId now (byCategory (s.compliance.filingDeadlines.filter fun d => d.companyId = companyId))
      s.compliance.complianceStatus rows)
    (hkeys : (s.compliance.complianceStatus.map statusKey).Nodup) {agency : Agency}
    (hne : deadlinesOf companyId agency s ≠ []) : ∃ r, rows.filter (isStatusOf companyId (categoryOf agency)) =
      [setCounts (countsOf (deadlinesOf companyId agency s)) now r] := by
  obtain ⟨⟨category,counts⟩,hmem,hcategory⟩ := List.mem_map.mp ((mem_byCategory_iff agency s).mpr hne)
  obtain rfl : category = categoryOf agency := hcategory
  obtain ⟨r,hr⟩ := h.self _ hmem
  have hcounts : counts = countsOf (deadlinesOf companyId agency s) := by
    rw [byCategory_eq_group] at hmem
    rw [← filter_category]
    exact Grouping.eq_of_mem_group _ _ _ hmem
  have hsingle : (s.compliance.complianceStatus.filter (isStatusOf companyId (categoryOf agency))).tail = [] := by
    apply Table.tail_filter_eq_nil hkeys
    intro r q hr hq
    rw [isStatusOf_eq_true] at hr hq
    simp only [statusKey,hr,hq]
  rw [hsingle] at hr
  exact ⟨r,hcounts ▸ hr⟩

theorem Recounts.recounted_iff
    (h : Recounts companyId now (byCategory (s.compliance.filingDeadlines.filter fun d => d.companyId = companyId))
      s.compliance.complianceStatus rows)
    (hkeys : (s.compliance.complianceStatus.map statusKey).Nodup)
    (hsize : (s.compliance.filingDeadlines.filter fun d => d.companyId = companyId).length < 2 ^ 32) :
    Recounted companyId s (Prisma.complianceStatus.set rows s) ↔
      ∀ agency, ¬ FallsShort (((deadlinesOf companyId agency s).countP fun d => d.status = .filed) /
        (deadlinesOf companyId agency s).length) := by
  have hrow (agency : Agency) (hne : deadlinesOf companyId agency s ≠ []) :=
    agencyRow_setCounts_iff hne ((length_deadlinesOf_le agency s).trans_lt hsize) now
  constructor
  · intro hrecounted agency
    by_cases hnone : deadlinesOf companyId agency s = []
    · rw [hnone]
      decide +kernel
    · obtain ⟨r,hr⟩ := h.exists_row hkeys hnone
      obtain ⟨q,hq,hcounted⟩ := hrecounted.row agency hnone
      have hq' : rows.filter (isStatusOf companyId (categoryOf agency)) = [q] := hq
      rw [hr,List.cons.injEq] at hq'
      exact (hrow agency hnone r).mp (hq'.1 ▸ hcounted)
  · intro hnone
    refine ⟨fun agency hne => ?_,fun agency hempty => ?_,?_⟩
    · obtain ⟨r,hr⟩ := h.exists_row hkeys hne
      exact ⟨_,hr,(hrow agency hne r).mpr (hnone agency)⟩
    · apply h.other _ (isStatusOf_setCounts _)
      intro b hb r hr
      have hb' : b.1 ≠ categoryOf agency := by
        intro he
        exact (mem_byCategory_iff agency s).mp (he ▸ List.mem_map_of_mem hb) hempty
      rw [isStatusOf_eq_true] at hr
      simp [isStatusOf,hr.2,hb']
    · apply h.other
      · intro counts r
        rfl
      · intro b _ r hr
        rw [isStatusOf_eq_true] at hr
        simp [hr.1]

end

/-- Whatever happened before, as long as scans came one after the other, the recount of a company leaves one
row for each agency with deadlines, with the numbers of these deadlines and their share of filed ones to two
decimals, and no other row changes, exactly when no agency's share falls short. A company has as many deadlines
as an array holds at most. -/
theorem recounted_iff_none_fallsShort (offset : ℤ) (hs : s.compliance.complianceStatus = []) {steps : List ScanStep}
    (hsteps : Runs.Along (ScanStep.next offset) (fun s step => step.Keyed offset s) s steps) {ids : ℕ → Uuid} {now : DateTime}
    (hids : Prog.Within StatusIds (recomputeComplianceStatus companyId ids now) (steps.foldl (ScanStep.next offset) s))
    (hsize : ((steps.foldl (ScanStep.next offset) s).compliance.filingDeadlines.filter fun d =>
      d.companyId = companyId).length < 2 ^ 32) :
    Recounted companyId (steps.foldl (ScanStep.next offset) s)
        ((recomputeComplianceStatus companyId ids now).run (steps.foldl (ScanStep.next offset) s)).2 ↔
      ∀ agency, ¬ FallsShort
        (((deadlinesOf companyId agency (steps.foldl (ScanStep.next offset) s)).countP fun d => d.status = .filed) /
          (deadlinesOf companyId agency (steps.foldl (ScanStep.next offset) s)).length) := by
  have hstart : (s.compliance.complianceStatus.map statusKey).Nodup := by
    rw [hs]
    exact List.nodup_nil
  have hkeys := (Runs.always_of_step (I := fun s => (s.compliance.complianceStatus.map statusKey).Nodup)
    (fun _ _ hkeys hstep => nodup_statusKey_next offset hkeys hstep) hstart hsteps).last
  obtain ⟨rows,hrun,hrows⟩ := run_recompute hids
  rw [hrun]
  exact hrows.recounted_iff hkeys hsize

end

/-- A company with three deadlines, one of them filed and one overdue. -/
def threeDeadlines : Store where
  org := { companies := [⟨300,none,"Aling Nena",none,.sole_prop,.non_vat,"000-000-001",none,none,none,none⟩] }
  compliance := { filingDeadlines := [⟨1,300,"2551Q",.bir,0,89 * msPerDay,114 * msPerDay,.filed⟩,
    ⟨2,300,"1701Q",.bir,0,89 * msPerDay,149 * msPerDay,.overdue⟩,
    ⟨3,300,"SSS_CONTRIBUTION",.sss,0,30 * msPerDay,60 * msPerDay,.upcoming⟩] }

/-- The company comes with its deadlines and is scanned on 10 January 2026. -/
def scannedOnce : List ScanStep :=
  [.change threeDeadlines,.scan 300 ⟨fun i => 10 + i,fun i => i,fun i => 10 + i⟩ (20463 * msPerDay)]

theorem recounted_iff_none_fallsShort_threeDeadlines : Recounted 300 (scannedOnce.foldl (ScanStep.next 0) {})
    ((recomputeComplianceStatus 300 (fun i => 20 + i) (20464 * msPerDay)).run
      (scannedOnce.foldl (ScanStep.next 0) {})).2 := by
  refine (recounted_iff_none_fallsShort 0 rfl (by decide +kernel) (by decide +kernel) (by decide +kernel)).mpr ?_
  intro agency
  cases agency <;> decide +kernel

/-- A company with a hundred and sixty deadlines of one agency, of which it has filed twenty-three. -/
def twentyThreeFiled : Store where
  org := { companies := [⟨300,none,"Aling Nena",none,.sole_prop,.non_vat,"000-000-001",none,none,none,none⟩] }
  compliance := { filingDeadlines := (List.range 160).map fun i =>
    ⟨i,300,"1601C",.bir,i * msPerDay,(i + 30) * msPerDay,(i + 40) * msPerDay,if i < 23 then .filed else .overdue⟩ }

/-- Its share is 14.375 percent, and 14.37 is what is stored. -/
theorem twentyThreeFiled_not_recounted :
    ¬ Recounted 300 ([ScanStep.change twentyThreeFiled].foldl (ScanStep.next 0) {})
      ((recomputeComplianceStatus 300 id 0).run ([ScanStep.change twentyThreeFiled].foldl (ScanStep.next 0) {})).2 := by
  intro h
  obtain ⟨r,hrow,hcounted⟩ := h.row .bir (by decide +kernel)
  have hstored : (((recomputeComplianceStatus 300 id 0).run
      ([ScanStep.change twentyThreeFiled].foldl (ScanStep.next 0) {})).2.compliance.complianceStatus.filter
        (isStatusOf 300 (categoryOf .bir))).map ComplianceStatus.compliancePercentage = [1437 / 100] := by decide +kernel
  have hpercentage := hcounted.percentage
  rw [hcounted.completed] at hpercentage
  rw [hrow,List.map_singleton,List.cons.injEq] at hstored
  rw [hstored.1] at hpercentage
  revert hpercentage
  decide +kernel

end PinoyTax.Compliance
