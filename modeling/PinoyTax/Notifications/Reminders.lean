import Mathlib.Data.List.Dedup
import PinoyTax.Foundation.Grouping
import PinoyTax.Notifications.DeadlineReminderJob

/-! # The reminders of the daily job

The second phase of the job goes through the reminder windows, the deadlines that are due
in a window and the active roles on the company of each, and enqueues a notification
for every role. Each phase, window and enqueue is in a `try` of its own: which calls
reject is part of the run.
-/
namespace PinoyTax.Notifications
open PinoyTax Foundation Calendar

inductive ReminderCall
  | moveOverdue
  | moveDueToday
  | findDeadlines (daysBefore : ℕ)
  | findOwners (daysBefore : ℕ)
  | enqueue (daysBefore : ℕ) (deadlineId userCompanyRoleId : Uuid)
deriving DecidableEq, Repr

def reminderDaysBefore : List ℕ := [30,14,7,3,1]

def Agency.name : Agency → String
  | .bir => "bir"
  | .sss => "sss"
  | .philhealth => "philhealth"
  | .pagibig => "pagibig"
  | .lgu => "lgu"

/-! ## The message -/

def reminderTitle (formCode : String) (daysBefore : ℕ) : String :=
  formCode ++ " due in " ++ toString daysBefore ++ " day" ++ if daysBefore = 1 then "" else "s"

def reminderBody (offset : ℤ) (deadline : FilingDeadline) : String :=
  "Your " ++ (Agency.name deadline.agency).toUpper ++ " " ++ deadline.formCode ++ " filing for the period " ++
    toDateString offset deadline.periodStart ++ " – " ++ toDateString offset deadline.periodEnd ++ " is due on " ++
    toDateString offset deadline.dueDate ++ "."

/-- A company role with its user. -/
abbrev RoleWithUser := UserCompanyRole × Option User

def reminder (offset : ℤ) (daysBefore : ℕ) (deadline : FilingDeadline) (owner : RoleWithUser) :
    NotificationDispatchJobData where
  userId := owner.1.userId
  companyId := some deadline.companyId
  category := "filing_deadline"
  title := reminderTitle deadline.formCode daysBefore
  body := reminderBody offset deadline
  recipientAddressByChannel := { email := owner.2.map User.email, sms := owner.2.bind User.phoneNumber }
  relatedDeadlineId := some deadline.id

def enqueueNotification (data : NotificationDispatchJobData) : Request Unit :=
  .stmt .enqueue (fun s => { s with notifications.queue := s.notifications.queue ++ [data] }) (fun _ => .done (.ok ()))

/-! ## A window -/

/-- `{ dueDate: { gte: targetDate, lt: nextDay }, status: { in: ['upcoming', 'due_today'] } }`. -/
def isDueWithin (targetDate nextDay : DateTime) (d : FilingDeadline) : Bool :=
  decide (targetDate ≤ d.dueDate) && decide (d.dueDate < nextDay) && (d.status == .upcoming || d.status == .due_today)

/-- The active roles on some companies, each with its user. -/
def rolesWithUser (s : Store) (companyIds : List Uuid) : List RoleWithUser :=
  (s.org.userCompanyRoles.filter (fun r => companyIds.contains r.companyId && decide (r.status = .active))).map
    (fun r => (r,s.identity.users.find? (fun u => u.id = r.userId)))

section
variable (fails : ReminderCall → Bool) (offset : ℤ) (daysBefore : ℕ)

/-- `for (const owner of companyOwners)`. An enqueue that rejects is passed over. -/
def remindOwners (deadline : FilingDeadline) : List RoleWithUser → Request Unit
  | [] => pure ()
  | owner :: companyOwners => do
    (failing (fails (.enqueue daysBefore deadline.id owner.1.id))
      (enqueueNotification (reminder offset daysBefore deadline owner))).rescue fun _ => pure ()
    remindOwners deadline companyOwners

/-- `for (const deadline of deadlines)`. -/
def remindOf (ownersByCompany : List (Uuid × List RoleWithUser)) : List FilingDeadline → Request Unit
  | [] => pure ()
  | deadline :: deadlines => do
    remindOwners fails offset daysBefore deadline ((ownersByCompany.lookup deadline.companyId).getD [])
    remindOf ownersByCompany deadlines

def sendRemindersForWindow (today : DateTime) : Request Unit := do
  let targetDate := today + daysBefore * msPerDay
  let nextDay := targetDate + msPerDay
  let deadlines ← failing (fails (.findDeadlines daysBefore))
    (Prisma.filingDeadline.findMany (isDueWithin targetDate nextDay))
  if deadlines.length = 0 then pure () else do
    let companyIds := (deadlines.map FilingDeadline.companyId).dedup
    let owners ← failing (fails (.findOwners daysBefore))
      (.query (.on .userCompanyRole .findMany) (fun s => rolesWithUser s companyIds))
    let ownersByCompany := Grouping.groupBy (fun owner => owner.1.companyId) owners
    remindOf fails offset daysBefore ownersByCompany deadlines

end

/-! ## The job -/

/-- `for (const daysBefore of REMINDER_DAYS_BEFORE)`, each window in a `try` of its own. -/
def sendReminders (fails : ReminderCall → Bool) (offset : ℤ) (today : DateTime) : List ℕ → Request Unit
  | [] => pure ()
  | daysBefore :: windows => do
    (sendRemindersForWindow fails offset daysBefore today).rescue fun _ => pure ()
    sendReminders fails offset today windows

def sendUpcomingReminders (fails : ReminderCall → Bool) (offset : ℤ) (today : DateTime) : Request Unit :=
  sendReminders fails offset today reminderDaysBefore

/-- `updateDeadlineStatuses` under failures. -/
def moveStatuses (fails : ReminderCall → Bool) (today : DateTime) : Request Unit := do
  failing (fails .moveOverdue) (Prisma.filingDeadline.updateMany (isPastDue today) (setFilingStatus .overdue))
  failing (fails .moveDueToday) (Prisma.filingDeadline.updateMany (isDueToday today) (setFilingStatus .due_today))

/-- Where no call fails. -/
theorem moveStatuses_of_none (today : DateTime) : moveStatuses (fun _ => false) today = updateDeadlineStatuses today := rfl

/-- `DeadlineReminderJob.run`. -/
def runDeadlineReminderJob (fails : ReminderCall → Bool) (offset : ℤ) (now : DateTime) : Request Unit := do
  let today := startOfDay offset now
  (moveStatuses fails today).rescue fun _ => pure ()
  (sendUpcomingReminders fails offset today).rescue fun _ => pure ()

/-! ## What a run enqueues -/

/-- The active roles on a company, each with its user. -/
def activeRoles (s : Store) (companyId : Uuid) : List RoleWithUser := rolesWithUser s [companyId]

def enqueued (jobs : List NotificationDispatchJobData) (s : Store) : Store :=
  { s with notifications.queue := s.notifications.queue ++ jobs }

/-- The deadlines that are due in a window. -/
def dueIn (today : DateTime) (daysBefore : ℕ) (s : Store) : List FilingDeadline :=
  s.compliance.filingDeadlines.filter
    (isDueWithin (today + daysBefore * msPerDay) (today + daysBefore * msPerDay + msPerDay))

section
variable (fails : ReminderCall → Bool) (offset : ℤ)

/-- The roles whose enqueue goes through. -/
def notified (daysBefore : ℕ) (deadline : FilingDeadline) (owners : List RoleWithUser) : List RoleWithUser :=
  owners.filter (fun owner => !fails (.enqueue daysBefore deadline.id owner.1.id))

def windowReminders (today : DateTime) (s : Store) (daysBefore : ℕ) : List NotificationDispatchJobData :=
  if fails (.findDeadlines daysBefore) || fails (.findOwners daysBefore) then []
  else (dueIn today daysBefore s).flatMap fun deadline =>
    (notified fails daysBefore deadline (activeRoles s deadline.companyId)).map (reminder offset daysBefore deadline)

def remindersOf (today : DateTime) (s : Store) : List NotificationDispatchJobData :=
  reminderDaysBefore.flatMap (windowReminders fails offset today s)

end

@[simp] theorem enqueued_nil (s : Store) : enqueued [] s = s := by simp [enqueued]

@[simp] theorem enqueued_enqueued (jobs jobs' : List NotificationDispatchJobData) (s : Store) :
    enqueued jobs' (enqueued jobs s) = enqueued (jobs ++ jobs') s := by simp [enqueued,List.append_assoc]

section
variable {fails : ReminderCall → Bool} {offset : ℤ} {s : Store}

/-- The roles that a window finds on some companies are, company by company, the active ones. -/
theorem filter_rolesWithUser {companyIds : List Uuid} {companyId : Uuid} (h : companyId ∈ companyIds) :
    (rolesWithUser s companyIds).filter (fun owner => owner.1.companyId = companyId) = activeRoles s companyId := by
  unfold activeRoles rolesWithUser
  rw [List.filter_map,List.filter_filter]
  congr 1
  apply List.filter_congr
  intro r _
  by_cases hc : r.companyId = companyId
  · simp [hc,h]
  · simp [hc]

theorem run_remindOwners (daysBefore : ℕ) (deadline : FilingDeadline) (owners : List RoleWithUser) :
    (remindOwners fails offset daysBefore deadline owners).run s =
      (.ok (),enqueued ((notified fails daysBefore deadline owners).map (reminder offset daysBefore deadline)) s) := by
  induction owners generalizing s with
  | nil => simp [remindOwners,notified]
  | cons owner owners ih =>
    rw [remindOwners,Prog.run_bind,Prog.run_rescue]
    cases hfails : fails (.enqueue daysBefore deadline.id owner.1.id) with
    | true =>
      have hnot : notified fails daysBefore deadline (owner :: owners) = notified fails daysBefore deadline owners :=
        List.filter_cons_of_neg (by simp [hfails])
      rw [hnot]
      exact ih
    | false =>
      have hkept : notified fails daysBefore deadline (owner :: owners) =
          owner :: notified fails daysBefore deadline owners := List.filter_cons_of_pos (by simp [hfails])
      rw [hkept,List.map_cons,← List.singleton_append,← enqueued_enqueued]
      exact ih

theorem run_remindOf (daysBefore : ℕ) (ownersByCompany : List (Uuid × List RoleWithUser))
    (deadlines : List FilingDeadline) :
    (remindOf fails offset daysBefore ownersByCompany deadlines).run s =
      (.ok (),enqueued (deadlines.flatMap fun deadline =>
        (notified fails daysBefore deadline ((ownersByCompany.lookup deadline.companyId).getD [])).map
          (reminder offset daysBefore deadline)) s) := by
  induction deadlines generalizing s with
  | nil => simp [remindOf]
  | cons deadline deadlines ih =>
    rw [remindOf,Prog.run_bind,run_remindOwners,Prog.resume_ok,ih,enqueued_enqueued,List.flatMap_cons]

/-- A window that may fail enqueues its reminders, all of them or none. -/
theorem run_window (daysBefore : ℕ) (today : DateTime) :
    ((sendRemindersForWindow fails offset daysBefore today).rescue fun _ => pure ()).run s =
      (.ok (),enqueued (windowReminders fails offset today s daysBefore) s) := by
  rw [Prog.run_rescue]
  unfold sendRemindersForWindow windowReminders
  cases hdeadlines : fails (.findDeadlines daysBefore) with
  | true => simp [failing]
  | false =>
    have hfound : (Prisma.filingDeadline.get s).filter
        (isDueWithin (today + daysBefore * msPerDay) (today + daysBefore * msPerDay + msPerDay)) =
          dueIn today daysBefore s := rfl
    dsimp only
    rw [failing,if_neg Bool.false_ne_true,Prog.run_bind,TableRef.run_findMany,Prog.resume_ok,hfound]
    by_cases hnone : (dueIn today daysBefore s).length = 0
    · rw [if_pos hnone,List.eq_nil_of_length_eq_zero hnone]
      simp
    · rw [if_neg hnone]
      cases howners : fails (.findOwners daysBefore) with
      | true => simp [failing]
      | false =>
        rw [failing,if_neg Bool.false_ne_true,Prog.run_bind,Prog.run_query,Prog.resume_ok,run_remindOf]
        have hrows : ((dueIn today daysBefore s).flatMap fun deadline =>
            (notified fails daysBefore deadline
              (((Grouping.groupBy (fun owner => owner.1.companyId)
                (rolesWithUser s ((dueIn today daysBefore s).map FilingDeadline.companyId).dedup)).lookup
                  deadline.companyId).getD [])).map (reminder offset daysBefore deadline)) =
            (dueIn today daysBefore s).flatMap fun deadline =>
              (notified fails daysBefore deadline (activeRoles s deadline.companyId)).map
                (reminder offset daysBefore deadline) := by
          apply List.flatMap_congr
          intro deadline hmem
          rw [Grouping.getD_lookup_groupBy,filter_rolesWithUser]
          exact List.mem_dedup.mpr (List.mem_map_of_mem hmem)
        rw [hrows]
        simp

theorem run_sendReminders (today : DateTime) (windows : List ℕ) :
    (sendReminders fails offset today windows).run s =
      (.ok (),enqueued (windows.flatMap (windowReminders fails offset today s)) s) := by
  induction windows generalizing s with
  | nil => simp [sendReminders]
  | cons daysBefore windows ih =>
    rw [sendReminders,Prog.run_bind,run_window,Prog.resume_ok,ih,enqueued_enqueued,List.flatMap_cons]
    rfl

/-- The deadlines after the first phase. -/
def movedUnder (fails : ReminderCall → Bool) (today : DateTime) (deadlines : List FilingDeadline) : List FilingDeadline :=
  if fails .moveOverdue then deadlines
  else if fails .moveDueToday then Table.updateMany (isPastDue today) (setFilingStatus .overdue) deadlines
  else movedOn today deadlines

theorem run_moveStatuses (today : DateTime) : ((moveStatuses fails today).rescue fun _ => pure ()).run s =
    (.ok (),Prisma.filingDeadline.set (movedUnder fails today s.compliance.filingDeadlines) s) := by
  rw [Prog.run_rescue]
  unfold moveStatuses movedUnder
  cases fails .moveOverdue with
  | true => rfl
  | false => cases fails .moveDueToday <;> rfl

/-- Neither status change is about a deadline that is due after today. -/
theorem filter_movedUnder {today targetDate nextDay : DateTime} (h : today + msPerDay ≤ targetDate)
    (deadlines : List FilingDeadline) :
    (movedUnder fails today deadlines).filter (isDueWithin targetDate nextDay) =
      deadlines.filter (isDueWithin targetDate nextDay) := by
  have hlater (d : FilingDeadline) (hd : d.dueDate < today + msPerDay) :
      isDueWithin targetDate nextDay d = false := by
    have hnot : ¬ targetDate ≤ d.dueDate := fun hle => absurd (lt_of_le_of_lt (le_trans h hle) hd) (lt_irrefl _)
    simp [isDueWithin,hnot]
  have hpast : ∀ d, isPastDue today d = true → isDueWithin targetDate nextDay d = false ∧
      isDueWithin targetDate nextDay (setFilingStatus .overdue d) = false := by
    intro d hd
    simp only [isPastDue,Bool.and_eq_true,decide_eq_true_eq] at hd
    have hlt : d.dueDate < today + msPerDay := lt_of_lt_of_le hd.1 (by
      change @LE.le ℤ _ _ _
      unfold msPerDay
      omega)
    exact ⟨hlater d hlt,hlater (setFilingStatus .overdue d) hlt⟩
  have hdue : ∀ d, isDueToday today d = true → isDueWithin targetDate nextDay d = false ∧
      isDueWithin targetDate nextDay (setFilingStatus .due_today d) = false := by
    intro d hd
    simp only [isDueToday,Bool.and_eq_true,decide_eq_true_eq] at hd
    exact ⟨hlater d hd.1.2,hlater (setFilingStatus .due_today d) hd.1.2⟩
  unfold movedUnder movedOn
  split
  · rfl
  · split
    · exact Table.filter_updateMany_of_disjoint hpast deadlines
    · rw [Table.filter_updateMany_of_disjoint hdue,Table.filter_updateMany_of_disjoint hpast]

/-- The state that a run leaves. -/
theorem run_runDeadlineReminderJob (now : DateTime) :
    (runDeadlineReminderJob fails offset now).run s = (.ok (),
      enqueued (remindersOf fails offset (startOfDay offset now) s)
        (Prisma.filingDeadline.set (movedUnder fails (startOfDay offset now) s.compliance.filingDeadlines) s)) := by
  have hsame : remindersOf fails offset (startOfDay offset now)
      (Prisma.filingDeadline.set (movedUnder fails (startOfDay offset now) s.compliance.filingDeadlines) s) =
        remindersOf fails offset (startOfDay offset now) s := by
    unfold remindersOf
    apply List.flatMap_congr
    intro daysBefore hwindow
    have hpos : 1 ≤ daysBefore := by
      simp only [reminderDaysBefore,List.mem_cons,List.not_mem_nil,or_false] at hwindow
      omega
    have hdue : dueIn (startOfDay offset now) daysBefore
        (Prisma.filingDeadline.set (movedUnder fails (startOfDay offset now) s.compliance.filingDeadlines) s) =
          dueIn (startOfDay offset now) daysBefore s := by
      apply filter_movedUnder
      change @LE.le ℤ _ _ _
      unfold msPerDay
      omega
    unfold windowReminders
    rw [hdue]
    rfl
  rw [runDeadlineReminderJob,Prog.run_bind,run_moveStatuses,Prog.resume_ok,Prog.run_rescue,sendUpcomingReminders,run_sendReminders]
  exact congrArg (fun jobs => (Except.ok (),enqueued jobs _)) hsame

end

end PinoyTax.Notifications
