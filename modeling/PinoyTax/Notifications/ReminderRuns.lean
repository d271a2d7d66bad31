import Mathlib.Data.List.Pairwise
import PinoyTax.Notifications.DailyStatuses
import PinoyTax.Notifications.Reminders
import PinoyTax.Org.Frame

/-! # One reminder for a deadline and a window

A deadline is in a reminder window on one day only, since its due date stays. A job that
runs at most once a day can therefore repeat a reminder only within one run, and there it
does when it goes through two roles of one user.
-/
namespace PinoyTax.Notifications
open PinoyTax Foundation Calendar Compliance Runs

/-! ## Runs -/

/-- The requests that change companies and roles, the scans that add deadlines, and the job. -/
inductive ReminderRequest where
  | company (req : Org.CompanyRequest)
  | updateCompany (companyId : Uuid) (dto : Org.UpdateCompanyDto)
  | scan (companyId : Uuid) (draw : ScanDraw) (now : DateTime)
  | job (fails : ReminderCall → Bool) (now : DateTime)

section
variable (toLowerCase : String → String) (offset : ℤ)

namespace ReminderRequest

def program : ReminderRequest → Request Unit
  | company req => Org.program toLowerCase req
  | updateCompany companyId dto => (Org.updateCompany companyId dto).discard
  | scan companyId draw now => runComplianceScan offset companyId draw now
  | job fails now => runDeadlineReminderJob fails offset now

/-- The store after a request. -/
def next (s : Store) (req : ReminderRequest) : Store := ((req.program toLowerCase offset).run s).2

/-- The calendar day of a run of the job. -/
def dayOf : ReminderRequest → Option ℤ
  | job _ now => some (localDays offset now)
  | _ => none

end ReminderRequest

/-- The primary key of filing deadlines. -/
def DeadlineIds (s : Store) : Prop := (s.compliance.filingDeadlines.map FilingDeadline.id).Nodup

def IsTitleOf (daysBefore : ℕ) (e : NotificationDispatchJobData) : Prop :=
  ∃ formCode, e.title = reminderTitle formCode daysBefore

/-- Two reminders to one user, about one deadline, in one window. -/
def SameReminder (e e' : NotificationDispatchJobData) : Prop :=
  e.userId = e'.userId ∧ e.relatedDeadlineId = e'.relatedDeadlineId ∧
    ∃ daysBefore ∈ reminderDaysBefore, IsTitleOf daysBefore e ∧ IsTitleOf daysBefore e'

/-- No two notifications enqueued between the two stores are the same reminder. -/
def RemindedOnce (s t : Store) : Prop :=
  (t.notifications.queue.drop s.notifications.queue.length).Pairwise fun e e' => ¬ SameReminder e e'

/-- The job finds the deadlines of a window and the roles on their companies. -/
def Scans (fails : ReminderCall → Bool) (daysBefore : ℕ) : Prop :=
  fails (.findDeadlines daysBefore) = false ∧ fails (.findOwners daysBefore) = false

/-- Of the active roles on the company of a deadline in a window, those that the job gets to enqueue
for are of different users. -/
def RecipientsDistinct (s : Store) : ReminderRequest → Prop
  | .job fails now => ∀ daysBefore ∈ reminderDaysBefore, Scans fails daysBefore →
      ∀ d ∈ dueIn (startOfDay offset now) daysBefore s,
        ((notified fails daysBefore d (activeRoles s d.companyId)).map fun owner => owner.1.userId).Nodup
  | _ => True

end

/-! ## Titles and windows -/

/-- What a title says after the form. -/
def windowText (daysBefore : ℕ) : String := " due in " ++ toString daysBefore ++ " day" ++ if daysBefore = 1 then "" else "s"

/-- The last letters of a title, from its end. -/
def lastLetters (title : String) : List Char := title.toList.reverse.take 6

theorem lastLetters_reminderTitle (formCode : String) {daysBefore : ℕ} (h : daysBefore ∈ reminderDaysBefore) :
    lastLetters (reminderTitle formCode daysBefore) = lastLetters (windowText daysBefore) := by
  have hlong : 6 ≤ (windowText daysBefore).toList.reverse.length := by
    revert daysBefore
    decide
  have htitle : reminderTitle formCode daysBefore = formCode ++ windowText daysBefore := by
    simp only [reminderTitle,windowText,String.append_assoc]
  rw [htitle,lastLetters,String.toList_append,List.reverse_append,List.take_append_of_le_length hlong]
  rfl

/-- Titles of different windows differ, whatever the forms. -/
theorem reminderTitle_inj {formCode formCode' : String} {daysBefore daysBefore' : ℕ}
    (h : daysBefore ∈ reminderDaysBefore) (h' : daysBefore' ∈ reminderDaysBefore)
    (htitle : reminderTitle formCode daysBefore = reminderTitle formCode' daysBefore') : daysBefore = daysBefore' := by
  have hletters : ∀ w ∈ reminderDaysBefore, ∀ w' ∈ reminderDaysBefore,
      lastLetters (windowText w) = lastLetters (windowText w') → w = w' := by decide
  apply hletters daysBefore h daysBefore' h'
  rw [← lastLetters_reminderTitle formCode h,← lastLetters_reminderTitle formCode' h',htitle]

/-- A deadline is in a window on the day that lies so many days before its due date. -/
theorem mem_dueIn {offset : ℤ} {now : DateTime} {daysBefore : ℕ} {s : Store} {d : FilingDeadline} :
    d ∈ dueIn (startOfDay offset now) daysBefore s ↔ d ∈ s.compliance.filingDeadlines ∧
      localDays offset d.dueDate = localDays offset now + daysBefore ∧ (d.status = .upcoming ∨ d.status = .due_today) := by
  unfold dueIn isDueWithin
  rw [List.mem_filter]
  simp only [Bool.and_eq_true,Bool.or_eq_true,decide_eq_true_eq,beq_iff_eq]
  have hday : (startOfDay offset now + daysBefore * msPerDay ≤ d.dueDate ∧
      d.dueDate < startOfDay offset now + daysBefore * msPerDay + msPerDay) ↔
        localDays offset d.dueDate = localDays offset now + daysBefore := by
    rw [startOfDay_eq]
    generalize localDays offset now = day
    change (@LE.le ℤ _ _ _ ∧ @LT.lt ℤ _ _ _) ↔ _
    unfold midnight localDays millisPerDay msPerDay
    omega
  rw [hday]

/-! ## One run -/

section
variable {fails : ReminderCall → Bool} {offset : ℤ} {now : DateTime} {s : Store}

theorem mem_windowReminders {today : DateTime} {daysBefore : ℕ} {e : NotificationDispatchJobData} :
    e ∈ windowReminders fails offset today s daysBefore ↔ Scans fails daysBefore ∧
      ∃ d ∈ dueIn today daysBefore s, ∃ owner ∈ notified fails daysBefore d (activeRoles s d.companyId),
        e = reminder offset daysBefore d owner := by
  unfold windowReminders Scans
  cases fails (.findDeadlines daysBefore) <;> cases fails (.findOwners daysBefore) <;> simp [eq_comm]

theorem isTitleOf_reminder (daysBefore : ℕ) (d : FilingDeadline) (owner : RoleWithUser) :
    IsTitleOf daysBefore (reminder offset daysBefore d owner) := ⟨d.formCode,rfl⟩

/-- The reminders about one deadline are of different users, or one user gets two of them. -/
theorem pairwise_owners (daysBefore : ℕ) (h : daysBefore ∈ reminderDaysBefore) (d : FilingDeadline)
    (owners : List RoleWithUser) :
    (owners.map (reminder offset daysBefore d)).Pairwise (fun e e' => ¬ SameReminder e e') ↔
      (owners.map fun owner => owner.1.userId).Nodup := by
  rw [List.Nodup,List.pairwise_map,List.pairwise_map]
  apply List.Pairwise.iff
  intro owner owner'
  constructor
  · intro hnot huser
    exact hnot ⟨huser,rfl,daysBefore,h,isTitleOf_reminder daysBefore d owner,isTitleOf_reminder daysBefore d owner'⟩
  · rintro hne ⟨huser,-⟩
    exact hne huser

/-- A run repeats no reminder exactly when the roles it goes through are of different users. -/
theorem pairwise_remindersOf (hids : DeadlineIds s) :
    (remindersOf fails offset (startOfDay offset now) s).Pairwise (fun e e' => ¬ SameReminder e e') ↔
      RecipientsDistinct offset s (.job fails now) := by
  unfold remindersOf RecipientsDistinct
  rw [List.pairwise_flatMap]
  -- reminders of different windows differ in their titles
  have hwindows : reminderDaysBefore.Pairwise fun w w' => ∀ e ∈ windowReminders fails offset (startOfDay offset now) s w,
      ∀ e' ∈ windowReminders fails offset (startOfDay offset now) s w', ¬ SameReminder e e' := by
    have hdistinct : reminderDaysBefore.Nodup := by decide
    refine hdistinct.imp_of_mem fun {w w'} hw hw' hne e he e' he' hsame => ?_
    obtain ⟨-,d,-,owner,-,rfl⟩ := mem_windowReminders.mp he
    obtain ⟨-,d',-,owner',-,rfl⟩ := mem_windowReminders.mp he'
    obtain ⟨-,-,daysBefore,hwindow,⟨formCode,htitle⟩,formCode',htitle'⟩ := hsame
    have hfirst : w = daysBefore := reminderTitle_inj hw hwindow htitle
    have hsecond : w' = daysBefore := reminderTitle_inj hw' hwindow htitle'
    exact hne (hfirst.trans hsecond.symm)
  rw [and_iff_left hwindows]
  apply forall_congr'
  intro daysBefore
  apply imp_congr_right
  intro hwindow
  unfold windowReminders Scans
  split
  · rename_i hfails
    constructor
    · rintro - ⟨hdeadlines,howners⟩
      simp [hdeadlines,howners] at hfails
    · intro _
      exact List.Pairwise.nil
  · rename_i hscans
    have hscans : fails (.findDeadlines daysBefore) = false ∧ fails (.findOwners daysBefore) = false := by
      simpa using hscans
    have hkeys : ((dueIn (startOfDay offset now) daysBefore s).map FilingDeadline.id).Nodup :=
      hids.sublist (List.filter_sublist.map _)
    -- and reminders about different deadlines in their deadlines
    have hdeadlines : (dueIn (startOfDay offset now) daysBefore s).Pairwise fun d d' =>
        ∀ e ∈ (notified fails daysBefore d (activeRoles s d.companyId)).map (reminder offset daysBefore d),
          ∀ e' ∈ (notified fails daysBefore d' (activeRoles s d'.companyId)).map (reminder offset daysBefore d'),
            ¬ SameReminder e e' := by
      refine (List.pairwise_map.mp hkeys).imp fun {d d'} hne e he e' he' hsame => ?_
      obtain ⟨owner,-,rfl⟩ := List.mem_map.mp he
      obtain ⟨owner',-,rfl⟩ := List.mem_map.mp he'
      exact hne (Option.some.inj hsame.2.1)
    rw [List.pairwise_flatMap,and_iff_left hdeadlines,forall_prop_of_true hscans]
    apply forall_congr'
    intro d
    apply imp_congr_right
    intro _
    exact pairwise_owners daysBefore hwindow d _

end

/-! ## A whole run -/

/-- Which deadline is due when. -/
def dates (s : Store) : List (Uuid × DateTime) := s.compliance.filingDeadlines.map fun d => (d.id,d.dueDate)

section
variable (toLowerCase : String → String) (offset : ℤ)

/-- What a request enqueues. -/
def enqueuedBy (s : Store) : ReminderRequest → List NotificationDispatchJobData
  | .job fails now => remindersOf fails offset (startOfDay offset now) s
  | _ => []

/-- What the requests of a run enqueue, one after another. -/
def enqueuedAlong : Store → List ReminderRequest → List NotificationDispatchJobData
  | _, [] => []
  | s, req :: reqs => enqueuedBy offset s req ++ enqueuedAlong (req.next toLowerCase offset s) reqs

end

section
variable {toLowerCase : String → String} {offset : ℤ} {s : Store}

/-- Company requests change neither deadlines nor the queue. -/
theorem apart_reminders : Org.Apart fun s : Store => (s.compliance.filingDeadlines,s.notifications.queue) where
  company _ _ := rfl
  userCompanyRole _ _ := rfl
  firm _ _ := rfl
  firmMembership _ _ := rfl
  firmCompanyAssignment _ _ := rfl
  firmClientInvitation _ _ := rfl
  published _ _ := rfl

theorem dates_movedUnder (fails : ReminderCall → Bool) (today : DateTime) (deadlines : List FilingDeadline) :
    (movedUnder fails today deadlines).map (fun d => (d.id,d.dueDate)) = deadlines.map fun d => (d.id,d.dueDate) := by
  unfold movedUnder
  split
  · rfl
  · split
    · exact Table.map_updateMany (f := setFilingStatus .overdue) _ (fun _ => rfl) deadlines
    · exact map_movedOn today _ (fun _ _ => rfl) deadlines

/-- A scan adds no deadline that is marked overdue. -/
theorem status_newDeadlines {companyId : Uuid} {company : Company} {ids : ℕ → Uuid} {now : DateTime} {d : FilingDeadline}
    (h : d ∈ newDeadlines offset companyId company ids now s) : d.status ≠ .overdue := by
  obtain ⟨f,hf,id,-,rfl⟩ := mem_newDeadlines offset companyId h
  rw [status_of_expected hf companyId id]
  decide

/-- What a request does to deadlines and queue: it adds deadlines, or it is a run of the job. -/
theorem next_cases (toLowerCase : String → String) (offset : ℤ) (s : Store) (req : ReminderRequest) :
    (req.dayOf offset = none ∧ enqueuedBy offset s req = [] ∧
        (req.next toLowerCase offset s).notifications.queue = s.notifications.queue ∧
          ∃ rows, (req.next toLowerCase offset s).compliance.filingDeadlines = s.compliance.filingDeadlines ++ rows ∧
            ∀ d ∈ rows, d.status ≠ .overdue) ∨
      ∃ fails now, req = .job fails now ∧ req.next toLowerCase offset s =
        enqueued (remindersOf fails offset (startOfDay offset now) s)
          (Prisma.filingDeadline.set (movedUnder fails (startOfDay offset now) s.compliance.filingDeadlines) s) := by
  have hkept {α : Type} {p : Request α} (hp : p.Keeps fun s => (s.compliance.filingDeadlines,s.notifications.queue)) :
      (p.run s).2.notifications.queue = s.notifications.queue ∧
        ∃ rows, (p.run s).2.compliance.filingDeadlines = s.compliance.filingDeadlines ++ rows ∧
          ∀ d ∈ rows, d.status ≠ .overdue := by
    obtain ⟨hdeadlines,hqueue⟩ := Prod.mk.inj (hp.run s)
    exact ⟨hqueue,[],hdeadlines.trans (List.append_nil _).symm,by simp⟩
  cases req with
  | company req => exact .inl ⟨rfl,rfl,hkept (Org.keeps_program apart_reminders toLowerCase req)⟩
  | updateCompany companyId dto =>
    exact .inl ⟨rfl,rfl,hkept (Firm.keeps_discard (Org.keeps_updateCompany apart_reminders companyId dto))⟩
  | scan companyId draw now =>
    have hqueue : ((runComplianceScan offset companyId draw now).run s).2.notifications.queue = s.notifications.queue :=
      (keeps_runComplianceScan (g := fun s => s.notifications.queue) (fun _ _ => rfl) (fun _ _ => rfl)
        (fun _ _ => rfl) offset companyId draw now).run s
    refine .inl ⟨rfl,rfl,hqueue,_,deadlines_runComplianceScan offset companyId draw now s,fun d hd => ?_⟩
    split at hd
    · cases hd
    · exact status_newDeadlines hd
  | job fails now => exact .inr ⟨fails,now,rfl,congrArg Prod.snd (run_runDeadlineReminderJob now)⟩

/-- A request enqueues its reminders, and due dates stay. -/
theorem next_spec (s : Store) (req : ReminderRequest) :
    (req.next toLowerCase offset s).notifications.queue = s.notifications.queue ++ enqueuedBy offset s req ∧
      dates s ⊆ dates (req.next toLowerCase offset s) := by
  rcases next_cases toLowerCase offset s req with ⟨-,hnone,hqueue,rows,hrows,-⟩ | ⟨fails,now,rfl,hnext⟩
  · rw [hnone,hqueue,dates,dates,hrows,List.map_append,List.append_nil]
    exact ⟨rfl,List.subset_append_left _ _⟩
  · rw [hnext]
    refine ⟨rfl,?_⟩
    change dates s ⊆ (movedUnder fails (startOfDay offset now) s.compliance.filingDeadlines).map fun d => (d.id,d.dueDate)
    rw [dates_movedUnder]
    exact List.Subset.refl _

theorem queue_foldl (s : Store) (reqs : List ReminderRequest) :
    (reqs.foldl (ReminderRequest.next toLowerCase offset) s).notifications.queue =
      s.notifications.queue ++ enqueuedAlong toLowerCase offset s reqs := by
  induction reqs generalizing s with
  | nil => exact (List.append_nil _).symm
  | cons req reqs ih => rw [List.foldl_cons,ih,(next_spec s req).1,enqueuedAlong,List.append_assoc]

/-- A reminder of a deadline that a day lies so many days ahead of. -/
def Announces (offset day : ℤ) (s : Store) (e : NotificationDispatchJobData) : Prop :=
  ∃ daysBefore ∈ reminderDaysBefore, IsTitleOf daysBefore e ∧
    ∃ p ∈ dates s, e.relatedDeadlineId = some p.1 ∧ localDays offset p.2 = day + daysBefore

theorem announces_of_mem {req : ReminderRequest} {e : NotificationDispatchJobData} (h : e ∈ enqueuedBy offset s req) :
    ∃ day, req.dayOf offset = some day ∧ Announces offset day s e := by
  cases req with
  | company req => cases h
  | updateCompany companyId dto => cases h
  | scan companyId draw now => cases h
  | job fails now =>
    obtain ⟨daysBefore,hwindow,he⟩ := List.mem_flatMap.mp h
    obtain ⟨-,d,hd,owner,-,rfl⟩ := mem_windowReminders.mp he
    obtain ⟨hmem,hday,-⟩ := mem_dueIn.mp hd
    exact ⟨_,rfl,daysBefore,hwindow,isTitleOf_reminder daysBefore d owner,(d.id,d.dueDate),
      List.mem_map_of_mem hmem,rfl,hday⟩

theorem Announces.mono {day : ℤ} {t : Store} {e : NotificationDispatchJobData} (h : Announces offset day s e)
    (hst : dates s ⊆ dates t) : Announces offset day t e := by
  obtain ⟨daysBefore,hwindow,htitle,p,hp,hrest⟩ := h
  exact ⟨daysBefore,hwindow,htitle,p,hst hp,hrest⟩

/-- One reminder belongs to one day. -/
theorem Announces.day_eq (hids : DeadlineIds s) {day day' : ℤ} {e e' : NotificationDispatchJobData}
    (h : Announces offset day s e) (h' : Announces offset day' s e') (hsame : SameReminder e e') : day = day' := by
  obtain ⟨w,hw,⟨formCode,htitle⟩,p,hp,hid,hday⟩ := h
  obtain ⟨w',hw',⟨formCode',htitle'⟩,p',hp',hid',hday'⟩ := h'
  obtain ⟨-,hdeadline,v,hv,⟨f,hf⟩,f',hf'⟩ := hsame
  have hfirst : w = v := reminderTitle_inj hw hv (htitle.symm.trans hf)
  have hsecond : w' = v := reminderTitle_inj hw' hv (htitle'.symm.trans hf')
  have hkey : p.1 = p'.1 := Option.some.inj (hid.symm.trans (hdeadline.trans hid'))
  have hunique : ((dates s).map Prod.fst).Nodup := by
    rw [dates,List.map_map]
    exact hids
  have hpair : p = p' := Table.eq_of_key hunique hp hp' hkey
  rw [hpair] at hday
  omega

theorem dates_foldl (s : Store) (reqs : List ReminderRequest) :
    dates s ⊆ dates (reqs.foldl (ReminderRequest.next toLowerCase offset) s) := by
  induction reqs generalizing s with
  | nil => exact List.Subset.refl _
  | cons req reqs ih => exact List.Subset.trans (next_spec s req).2 (ih _)

/-- What a run enqueues announces deadlines on the days of its jobs. -/
theorem announces_of_mem_along {reqs : List ReminderRequest} {e : NotificationDispatchJobData}
    (h : e ∈ enqueuedAlong toLowerCase offset s reqs) :
    ∃ day ∈ reqs.filterMap (ReminderRequest.dayOf offset),
      Announces offset day (reqs.foldl (ReminderRequest.next toLowerCase offset) s) e := by
  induction reqs generalizing s with
  | nil => cases h
  | cons req reqs ih =>
    rcases List.mem_append.mp h with h | h
    · obtain ⟨day,hday,hannounces⟩ := announces_of_mem h
      refine ⟨day,List.mem_filterMap.mpr ⟨req,List.mem_cons_self,hday⟩,hannounces.mono ?_⟩
      exact dates_foldl s (req :: reqs)
    · obtain ⟨day,hday,hannounces⟩ := ih h
      obtain ⟨later,hlater,hday⟩ := List.mem_filterMap.mp hday
      exact ⟨day,List.mem_filterMap.mpr ⟨later,List.mem_cons_of_mem _ hlater,hday⟩,hannounces⟩

/-- The induction is on the run: a reminder of its first request is never repeated by a later one. -/
theorem pairwise_enqueuedAlong {reqs : List ReminderRequest}
    (hkeys : Always (ReminderRequest.next toLowerCase offset) DeadlineIds s reqs)
    (hdays : (reqs.filterMap (ReminderRequest.dayOf offset)).Nodup) :
    (enqueuedAlong toLowerCase offset s reqs).Pairwise (fun e e' => ¬ SameReminder e e') ↔
      Along (ReminderRequest.next toLowerCase offset) (RecipientsDistinct offset) s reqs := by
  induction reqs generalizing s with
  | nil => exact ⟨fun _ => trivial,fun _ => List.Pairwise.nil⟩
  | cons req reqs ih =>
    have hrest : (reqs.filterMap (ReminderRequest.dayOf offset)).Nodup :=
      hdays.sublist ((List.sublist_cons_self req reqs).filterMap _)
    have hfirst : (enqueuedBy offset s req).Pairwise (fun e e' => ¬ SameReminder e e') ↔
        RecipientsDistinct offset s req := by
      cases req with
      | job fails now => exact pairwise_remindersOf hkeys.1
      | company req => exact ⟨fun _ => trivial,fun _ => List.Pairwise.nil⟩
      | updateCompany companyId dto => exact ⟨fun _ => trivial,fun _ => List.Pairwise.nil⟩
      | scan companyId draw now => exact ⟨fun _ => trivial,fun _ => List.Pairwise.nil⟩
    have hapart : ∀ e ∈ enqueuedBy offset s req,
        ∀ e' ∈ enqueuedAlong toLowerCase offset (req.next toLowerCase offset s) reqs, ¬ SameReminder e e' := by
      intro e he e' he' hsame
      obtain ⟨day,hday,hannounces⟩ := announces_of_mem he
      obtain ⟨day',hday',hannounces'⟩ := announces_of_mem_along he'
      have hlast : DeadlineIds ((req :: reqs).foldl (ReminderRequest.next toLowerCase offset) s) := hkeys.last
      have heq : day = day' := (hannounces.mono (dates_foldl s (req :: reqs))).day_eq hlast hannounces' hsame
      subst heq
      rw [List.filterMap_cons,hday] at hdays
      exact (List.nodup_cons.mp hdays).1 hday'
    rw [enqueuedAlong,List.pairwise_append,hfirst,ih hkeys.2 hrest,along_cons]
    constructor
    · rintro ⟨hdistinct,halong,-⟩
      exact ⟨hdistinct,halong⟩
    · rintro ⟨hdistinct,halong⟩
      exact ⟨hdistinct,halong,hapart⟩

/-- With at most one run of the job a day, no reminder is repeated exactly when every run finds the
roles on the company of a deadline in a window to be of different users. -/
theorem remindedOnce_iff_recipientsDistinct (toLowerCase : String → String) (offset : ℤ) (s : Store)
    (reqs : List ReminderRequest)
    (hkeys : Always (ReminderRequest.next toLowerCase offset) DeadlineIds s reqs)
    (hdays : (reqs.filterMap (ReminderRequest.dayOf offset)).Nodup) :
    RemindedOnce s (reqs.foldl (ReminderRequest.next toLowerCase offset) s) ↔
      Along (ReminderRequest.next toLowerCase offset) (RecipientsDistinct offset) s reqs := by
  rw [RemindedOnce,queue_foldl,List.drop_left]
  exact pairwise_enqueuedAlong hkeys hdays

end

/-! An accountant who also keeps the books. -/

def staffStore : Store where
  identity :=
    { permissions := [⟨1,"staff:invite"⟩]
      roles := [⟨2,"business_owner",[1]⟩,⟨3,"accountant",[]⟩,⟨4,"bookkeeper",[]⟩]
      users := [{ id := 5, email := "owner@example.ph" },{ id := 6, email := "books@example.ph" }] }

def companyDto : Firm.CreateCompanyDto where
  businessName := "Sari-Sari"
  businessType := .sole_prop
  vatClassification := .non_vat
  tin := "123-456-789-000"

def registers : ReminderRequest := .company (.createCompany 5 companyDto 7 8 0)

/-- The first scan of the company finds the return of a quarter that is due on day 20113. -/
def scansCompany : ReminderRequest := .scan 7 ⟨fun i => 100 + i,fun _ => 0,fun i => 200 + i⟩ (20000*msPerDay)

def joins (roleCode : Org.StaffRoleCode) (userCompanyRoleId : Uuid) : List ReminderRequest :=
  [.company (.inviteStaff 5 7 ⟨"books@example.ph",roleCode⟩ userCompanyRoleId),
    .company (.acceptInvitation 6 userCompanyRoleId 0)]

/-- The run of the job a week before the return is due. -/
def weekBefore : ReminderRequest := .job (fun _ => false) (20106*msPerDay)

def oneRole : List ReminderRequest := [registers,scansCompany] ++ joins .accountant 10 ++ [weekBefore]

/-- The same person is invited to both roles and accepts both. -/
def twoRoles : List ReminderRequest := [registers,scansCompany] ++ joins .accountant 10 ++ joins .bookkeeper 11 ++ [weekBefore]

instance (s : Store) : Decidable (DeadlineIds s) := inferInstanceAs (Decidable (List.Nodup _))

instance (fails : ReminderCall → Bool) (daysBefore : ℕ) : Decidable (Scans fails daysBefore) :=
  inferInstanceAs (Decidable (_ ∧ _))

instance (offset : ℤ) (s : Store) : (req : ReminderRequest) → Decidable (RecipientsDistinct offset s req)
  | .company _ => .isTrue trivial
  | .updateCompany _ _ => .isTrue trivial
  | .scan _ _ _ => .isTrue trivial
  | .job fails now => inferInstanceAs (Decidable (∀ daysBefore ∈ reminderDaysBefore, Scans fails daysBefore →
      ∀ d ∈ dueIn (startOfDay offset now) daysBefore s,
        ((notified fails daysBefore d (activeRoles s d.companyId)).map fun owner => owner.1.userId).Nodup))

theorem remindedOnce_iff_recipientsDistinct_oneRole :
    RemindedOnce staffStore (oneRole.foldl (ReminderRequest.next id 0) staffStore) :=
  (remindedOnce_iff_recipientsDistinct id 0 staffStore oneRole (by decide +kernel) (by decide +kernel)).mpr
    (by decide +kernel)

theorem twoRoles_reminded_twice : Always (ReminderRequest.next id 0) DeadlineIds staffStore twoRoles ∧
    (twoRoles.filterMap (ReminderRequest.dayOf 0)).Nodup ∧
      ¬ RemindedOnce staffStore (twoRoles.foldl (ReminderRequest.next id 0) staffStore) := by
  refine ⟨by decide +kernel,by decide +kernel,fun h => ?_⟩
  have hjobs : ((twoRoles.foldl (ReminderRequest.next id 0) staffStore).notifications.queue.drop
      staffStore.notifications.queue.length).map (fun e => (e.userId,e.relatedDeadlineId,e.title)) =
        [(5,some 100,"2551Q due in 7 days"),(6,some 100,"2551Q due in 7 days"),(6,some 100,"2551Q due in 7 days")] := by
    decide +kernel
  unfold RemindedOnce at h
  generalize List.drop _ _ = jobs at h hjobs
  obtain ⟨e,rest,rfl,-,hrest⟩ := List.map_eq_cons_iff.mp hjobs
  obtain ⟨e,rest,rfl,he,hrest⟩ := List.map_eq_cons_iff.mp hrest
  obtain ⟨e',rest,rfl,he',-⟩ := List.map_eq_cons_iff.mp hrest
  simp only [Prod.mk.injEq] at he he'
  have hsame : SameReminder e e' := ⟨he.1.trans he'.1.symm,he.2.1.trans he'.2.1.symm,7,by decide,
    ⟨"2551Q",he.2.2⟩,⟨"2551Q",he'.2.2⟩⟩
  have hrest := (List.pairwise_cons.mp h).2
  exact (List.pairwise_cons.mp hrest).1 e' List.mem_cons_self hsame

end PinoyTax.Notifications
