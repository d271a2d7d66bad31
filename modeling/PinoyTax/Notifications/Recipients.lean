import PinoyTax.Notifications.ReminderRuns

/-! # Who hears of a deadline

The guard admits through a role on the company or through an assignment of a firm, and the
job reminds the holders of roles only. A company that a firm has created may have nobody
to remind although the firm's staff can see its deadlines.
-/
namespace PinoyTax.Notifications
open PinoyTax Foundation Calendar Runs

/-- A filing that is not done enters a window on the day. -/
def Entering (offset : ℤ) (now : DateTime) (daysBefore : ℕ) (d : FilingDeadline) : Prop :=
  d.status ≠ .filed ∧ localDays offset d.dueDate = localDays offset now + daysBefore

instance (offset : ℤ) (now : DateTime) (daysBefore : ℕ) (d : FilingDeadline) : Decidable (Entering offset now daysBefore d) :=
  inferInstanceAs (Decidable (_ ∧ _))

/-- `@RequirePermissions('compliance:read')` admits somebody to the deadlines of the company. -/
def Visible (s : Store) (companyId : Uuid) : Prop :=
  ∃ userId, Identity.admits s ["compliance:read"] userId companyId = true

def HasActiveRole (s : Store) (companyId : Uuid) : Prop :=
  ∃ r ∈ s.org.userCompanyRoles, r.companyId = companyId ∧ r.status = .active

instance (s : Store) (companyId : Uuid) : Decidable (HasActiveRole s companyId) :=
  inferInstanceAs (Decidable (∃ _ ∈ _, _))

/-- A run in which no call rejects enqueues a reminder of every deadline in a window that somebody can see. -/
def Informs (toLowerCase : String → String) (offset : ℤ) (s : Store) : ReminderRequest → Prop
  | .job fails now => (∀ call, fails call = false) → ∀ daysBefore ∈ reminderDaysBefore,
      ∀ d ∈ s.compliance.filingDeadlines, Entering offset now daysBefore d → Visible s d.companyId →
        ∃ e ∈ ((ReminderRequest.job fails now).next toLowerCase offset s).notifications.queue.drop
          s.notifications.queue.length, e.relatedDeadlineId = some d.id ∧ IsTitleOf daysBefore e
  | _ => True

/-- Somebody holds an active role on the company of each such deadline, which is not marked overdue. -/
def HasRecipient (offset : ℤ) (s : Store) : ReminderRequest → Prop
  | .job fails now => (∀ call, fails call = false) → ∀ daysBefore ∈ reminderDaysBefore,
      ∀ d ∈ s.compliance.filingDeadlines, Entering offset now daysBefore d → Visible s d.companyId →
        HasActiveRole s d.companyId ∧ d.status ≠ .overdue
  | _ => True

section
variable {fails : ReminderCall → Bool} {offset : ℤ} {now : DateTime} {s : Store}

theorem mem_activeRoles {companyId : Uuid} {owner : RoleWithUser} :
    owner ∈ activeRoles s companyId ↔ ∃ r ∈ s.org.userCompanyRoles, (r.companyId = companyId ∧ r.status = .active) ∧
      (r,s.identity.users.find? (fun u => u.id = r.userId)) = owner := by
  simp [activeRoles,rolesWithUser,and_assoc]

/-- A deadline in a window is announced when it is not marked overdue and its company has an active role. -/
theorem announced_iff (hids : DeadlineIds s) (hfails : ∀ call, fails call = false) {daysBefore : ℕ}
    (hwindow : daysBefore ∈ reminderDaysBefore) {d : FilingDeadline} (hd : d ∈ s.compliance.filingDeadlines)
    (hentering : Entering offset now daysBefore d) :
    (∃ e ∈ remindersOf fails offset (startOfDay offset now) s,
        e.relatedDeadlineId = some d.id ∧ IsTitleOf daysBefore e) ↔
      HasActiveRole s d.companyId ∧ d.status ≠ .overdue := by
  constructor
  · rintro ⟨e,he,hdeadline,-⟩
    obtain ⟨w,-,he⟩ := List.mem_flatMap.mp he
    obtain ⟨-,d',hd',owner,howner,rfl⟩ := mem_windowReminders.mp he
    obtain ⟨hmem,-,hstatus⟩ := mem_dueIn.mp hd'
    have hsame : d' = d := Table.eq_of_key hids hmem hd (Option.some.inj hdeadline)
    subst hsame
    obtain ⟨r,hr,⟨hcompany,hactive⟩,-⟩ := mem_activeRoles.mp (List.mem_filter.mp howner).1
    refine ⟨⟨r,hr,hcompany,hactive⟩,fun hover => ?_⟩
    rcases hstatus with hstatus | hstatus
    · rw [hover] at hstatus
      cases hstatus
    · rw [hover] at hstatus
      cases hstatus
  · rintro ⟨⟨r,hr,hcompany,hactive⟩,hover⟩
    have hopen : d.status = .upcoming ∨ d.status = .due_today := by
      have hfiled := hentering.1
      revert hfiled hover
      cases d.status <;> simp
    have hdue : d ∈ dueIn (startOfDay offset now) daysBefore s := mem_dueIn.mpr ⟨hd,hentering.2,hopen⟩
    let owner : RoleWithUser := (r,s.identity.users.find? (fun u => u.id = r.userId))
    have howner : owner ∈ notified fails daysBefore d (activeRoles s d.companyId) :=
      List.mem_filter.mpr ⟨mem_activeRoles.mpr ⟨r,hr,⟨hcompany,hactive⟩,rfl⟩,by simp [hfails]⟩
    refine ⟨reminder offset daysBefore d owner,List.mem_flatMap.mpr ⟨daysBefore,hwindow,?_⟩,rfl,
      isTitleOf_reminder daysBefore d owner⟩
    exact mem_windowReminders.mpr ⟨⟨hfails _,hfails _⟩,d,hdue,owner,howner,rfl⟩

theorem informs_iff (toLowerCase : String → String) (hids : DeadlineIds s) (req : ReminderRequest) :
    Informs toLowerCase offset s req ↔ HasRecipient offset s req := by
  cases req with
  | company req => exact Iff.rfl
  | updateCompany companyId dto => exact Iff.rfl
  | scan companyId draw now => exact Iff.rfl
  | job fails now =>
    have hqueue : ((ReminderRequest.job fails now).next toLowerCase offset s).notifications.queue =
        s.notifications.queue ++ remindersOf fails offset (startOfDay offset now) s := (next_spec s _).1
    unfold Informs HasRecipient
    dsimp only
    rw [hqueue,List.drop_left]
    apply imp_congr_right
    intro hfails
    apply forall₂_congr
    intro daysBefore hwindow
    apply forall₂_congr
    intro d hd
    apply imp_congr_right
    intro hentering
    apply imp_congr_right
    intro _
    exact announced_iff hids hfails hwindow hd hentering

/-- Along a run, whoever can see a deadline has somebody who hears of it exactly when somebody holds an
active role on the company of every such deadline, and it is not marked overdue ahead of its date. -/
theorem informs_iff_hasRecipient (toLowerCase : String → String) (offset : ℤ) (s : Store) (reqs : List ReminderRequest)
    (hkeys : Always (ReminderRequest.next toLowerCase offset) DeadlineIds s reqs) :
    Along (ReminderRequest.next toLowerCase offset) (Informs toLowerCase offset) s reqs ↔
      Along (ReminderRequest.next toLowerCase offset) (HasRecipient offset) s reqs := by
  induction reqs generalizing s with
  | nil => exact Iff.rfl
  | cons req reqs ih => rw [along_cons,along_cons,informs_iff toLowerCase hkeys.1,ih _ hkeys.2]

end

/-! ## Deadlines marked overdue

A run of the job marks what is due before its day, and a scan adds nothing that is. So while the clock
runs forward, what is marked overdue never lies in a window. -/

/-- What is marked overdue is due before the day. -/
def OverduePast (offset day : ℤ) (s : Store) : Prop :=
  ∀ d ∈ s.compliance.filingDeadlines, d.status = .overdue → localDays offset d.dueDate < day

/-- What a run of the job finds marked overdue is due before its day. -/
def OverdueBehind (offset : ℤ) (s : Store) : ReminderRequest → Prop
  | .job _ now => OverduePast offset (localDays offset now) s
  | _ => True

section
variable {toLowerCase : String → String} {offset day : ℤ} {s : Store}

/-- Overdue after the first phase is what was overdue or has passed. -/
theorem overdue_of_mem_movedUnder {fails : ReminderCall → Bool} {today : DateTime} {deadlines : List FilingDeadline}
    {d : FilingDeadline} (h : d ∈ movedUnder fails today deadlines) (hover : d.status = .overdue) :
    (d ∈ deadlines ∧ d.status = .overdue) ∨ d.dueDate < today := by
  have hpast (hd : d ∈ Table.updateMany (isPastDue today) (setFilingStatus .overdue) deadlines) :
      (d ∈ deadlines ∧ d.status = .overdue) ∨ d.dueDate < today := by
    rcases Table.mem_updateMany_cases hd with ⟨hmem,-⟩ | ⟨q,-,hq,rfl⟩
    · exact .inl ⟨hmem,hover⟩
    · simp only [isPastDue,Bool.and_eq_true,decide_eq_true_eq] at hq
      exact .inr hq.1
  unfold movedUnder movedOn at h
  split at h
  · exact .inl ⟨h,hover⟩
  · split at h
    · exact hpast h
    · rcases Table.mem_updateMany_cases h with ⟨hmem,-⟩ | ⟨q,-,-,rfl⟩
      · exact hpast hmem
      · cases hover

theorem OverduePast.mono {later : ℤ} (h : OverduePast offset day s) (hle : day ≤ later) : OverduePast offset later s :=
  fun d hd hover => lt_of_lt_of_le (h d hd hover) hle

theorem OverduePast.next (toLowerCase : String → String) (h : OverduePast offset day s) (req : ReminderRequest)
    (hlater : ∀ later ∈ req.dayOf offset, day ≤ later) :
    OverduePast offset ((req.dayOf offset).getD day) (req.next toLowerCase offset s) := by
  rcases next_cases toLowerCase offset s req with ⟨hnone,-,-,rows,hrows,hstatus⟩ | ⟨fails,now,rfl,hnext⟩
  · rw [hnone]
    intro d hd hover
    rw [hrows] at hd
    rcases List.mem_append.mp hd with hold | hnew
    · exact h d hold hover
    · exact absurd hover (hstatus d hnew)
  · rw [hnext]
    intro d hd hover
    change localDays offset d.dueDate < localDays offset now
    rcases overdue_of_mem_movedUnder hd hover with ⟨hmem,hover⟩ | hpast
    · exact h.mono (hlater _ rfl) d hmem hover
    · rw [startOfDay_eq] at hpast
      change @LT.lt ℤ _ _ _ at hpast
      unfold midnight localDays millisPerDay at *
      omega

/-- While the days of the jobs do not run back, every run finds marked overdue only what is due before
its day. -/
theorem overdueBehind_along {reqs : List ReminderRequest}
    (hdays : (day :: reqs.filterMap (ReminderRequest.dayOf offset)).Pairwise (· ≤ ·)) (hs : OverduePast offset day s) :
    Along (ReminderRequest.next toLowerCase offset) (OverdueBehind offset) s reqs := by
  induction reqs generalizing s day with
  | nil => trivial
  | cons req reqs ih =>
    cases hday : req.dayOf offset with
    | none =>
      rw [List.filterMap_cons_none hday] at hdays
      have hnext := hs.next toLowerCase req (by simp [hday])
      rw [hday] at hnext
      refine ⟨?_,ih hdays hnext⟩
      cases req with
      | job fails now => cases hday
      | _ => trivial
    | some later =>
      rw [List.filterMap_cons_some hday,List.pairwise_cons] at hdays
      have hle : day ≤ later := hdays.1 later List.mem_cons_self
      have hnext := hs.next toLowerCase req (by simpa [hday] using hle)
      rw [hday] at hnext
      refine ⟨?_,ih hdays.2 hnext⟩
      cases req with
      | job fails now =>
        cases hday
        exact hs.mono hle
      | _ => trivial

/-- Such a run finds no deadline in a window that is marked overdue. -/
theorem status_of_overdueBehind {fails : ReminderCall → Bool} {now : DateTime} (h : OverdueBehind offset s (.job fails now))
    {daysBefore : ℕ} {d : FilingDeadline} (hd : d ∈ s.compliance.filingDeadlines)
    (hentering : Entering offset now daysBefore d) : d.status ≠ .overdue := by
  intro hover
  have hlt := h d hd hover
  have hday := hentering.2
  omega

end

/-! A company that registers itself, and one that a firm creates. -/

def accessStore : Store where
  identity :=
    { permissions := [⟨1,"compliance:read"⟩]
      roles := [⟨2,"business_owner",[1]⟩]
      users := [{ id := 5, email := "owner@example.ph" },{ id := 6, email := "firm@example.ph" }] }
  org := { firmPermissions := [⟨3,"firm:clients:manage"⟩], firmRoles := [⟨4,"firm_owner",[3]⟩] }

def firmDto : Firm.CreateFirmDto where
  firmName := "Ledger and Sons"
  firmType := .accounting_firm
  contactEmail := "firm@example.ph"

def registered : List ReminderRequest := [registers,scansCompany,weekBefore]

def onboarded : List ReminderRequest :=
  [.company (.firm (.createFirm 6 firmDto 11 12 0)),.company (.firm (.createClientCompany 6 11 companyDto 7 13)),
    scansCompany,weekBefore]

theorem informs_iff_hasRecipient_registered :
    Along (ReminderRequest.next id 0) (Informs id 0) accessStore registered := by
  refine (informs_iff_hasRecipient id 0 accessStore registered (by decide +kernel)).mpr
    ⟨trivial,trivial,?_,trivial⟩
  have hheld : ∀ d ∈ ([registers,scansCompany].foldl (ReminderRequest.next id 0) accessStore).compliance.filingDeadlines,
      HasActiveRole ([registers,scansCompany].foldl (ReminderRequest.next id 0) accessStore) d.companyId ∧
        d.status ≠ .overdue := by decide +kernel
  intro _ _ _ d hd _ _
  exact hheld d hd

theorem onboarded_not_informed : Always (ReminderRequest.next id 0) DeadlineIds accessStore onboarded ∧
    ¬ Along (ReminderRequest.next id 0) (Informs id 0) accessStore onboarded := by
  refine ⟨by decide +kernel,fun h => ?_⟩
  obtain ⟨-,-,-,hinforms,-⟩ := h
  generalize hs : ReminderRequest.next id 0 (ReminderRequest.next id 0 (ReminderRequest.next id 0 accessStore _) _)
    scansCompany = s at hinforms
  have hseen : Visible s 7 := ⟨6,by rw [← hs]; decide +kernel⟩
  obtain ⟨d,hd,hentering,hcompany⟩ : ∃ d ∈ s.compliance.filingDeadlines,
      Entering 0 (20106*msPerDay) 7 d ∧ d.companyId = 7 := by
    rw [← hs]
    decide +kernel
  have hnone : (weekBefore.next id 0 s).notifications.queue.drop s.notifications.queue.length = [] := by
    rw [← hs]
    decide +kernel
  obtain ⟨e,he,-⟩ := hinforms (fun _ => rfl) 7 (by decide) d hd hentering (hcompany ▸ hseen)
  rw [weekBefore] at hnone
  rw [hnone] at he
  exact List.not_mem_nil he

end PinoyTax.Notifications
