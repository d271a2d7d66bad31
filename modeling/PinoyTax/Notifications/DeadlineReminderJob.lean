import PinoyTax.Foundation.Calendar
import PinoyTax.Schema.Prisma

/-! # DeadlineReminderJob

The first phase of the daily job moves the statuses of filing deadlines on. The second
one, the reminders, writes to no table.
-/
namespace PinoyTax.Notifications
open PinoyTax Foundation Calendar

/-- `setHours(0, 0, 0, 0)`. -/
def startOfDay (offset : ℤ) (now : DateTime) : DateTime :=
  let c := localCivil offset now
  localDate offset c.year c.month c.date

def setFilingStatus (status : FilingStatus) (d : FilingDeadline) : FilingDeadline := { d with status := status }

/-- `{ dueDate: { lt: today }, status: { in: ['upcoming', 'due_today'] } }`. -/
def isPastDue (today : DateTime) (d : FilingDeadline) : Bool :=
  decide (d.dueDate < today) && (d.status == .upcoming || d.status == .due_today)

/-- `{ dueDate: { gte: today, lt: tomorrow }, status: 'upcoming' }`. -/
def isDueToday (today : DateTime) (d : FilingDeadline) : Bool :=
  decide (today ≤ d.dueDate) && decide (d.dueDate < today + msPerDay) && d.status == .upcoming

def updateDeadlineStatuses (today : DateTime) : Request Unit := do
  Prisma.filingDeadline.updateMany (isPastDue today) (setFilingStatus .overdue)
  Prisma.filingDeadline.updateMany (isDueToday today) (setFilingStatus .due_today)

/-- The deadlines after the job. -/
def movedOn (today : DateTime) (deadlines : List FilingDeadline) : List FilingDeadline :=
  Table.updateMany (isDueToday today) (setFilingStatus .due_today)
    (Table.updateMany (isPastDue today) (setFilingStatus .overdue) deadlines)

theorem run_updateDeadlineStatuses (today : DateTime) (s : Store) :
    (updateDeadlineStatuses today).run s =
      (.ok (),Prisma.filingDeadline.set (movedOn today s.compliance.filingDeadlines) s) := rfl

def isOverdueOf (companyId : Uuid) (d : FilingDeadline) : Bool :=
  decide (d.companyId = companyId) && d.status == .overdue

def isPastDueOf (today : DateTime) (companyId : Uuid) (d : FilingDeadline) : Bool :=
  decide (d.companyId = companyId) && isPastDue today d

/-- The job adds to the overdue deadlines of a company those it finds past due. -/
theorem length_overdue_movedOn (today : DateTime) (companyId : Uuid) (deadlines : List FilingDeadline) :
    ((movedOn today deadlines).filter (isOverdueOf companyId)).length =
      (deadlines.filter (isOverdueOf companyId)).length + (deadlines.filter (isPastDueOf today companyId)).length := by
  have hone (d : FilingDeadline) : ((movedOn today [d]).filter (isOverdueOf companyId)).length =
      ([d].filter (isOverdueOf companyId)).length + ([d].filter (isPastDueOf today companyId)).length := by
    by_cases hpast : isPastDue today d = true
    · have hnot : d.status ≠ .overdue := by
        intro hover
        simp [isPastDue,hover] at hpast
      by_cases hc : d.companyId = companyId
      · simp [movedOn,hpast,isPastDueOf,isOverdueOf,isDueToday,setFilingStatus,hc,hnot]
      · simp [movedOn,hpast,isPastDueOf,isOverdueOf,isDueToday,setFilingStatus,hc]
    · by_cases hdue : isDueToday today d = true
      · have hup : d.status = .upcoming := by
          simp only [isDueToday,Bool.and_eq_true,beq_iff_eq] at hdue
          exact hdue.2
        simp [movedOn,hpast,isPastDueOf,isOverdueOf,hdue,setFilingStatus,hup]
      · simp [movedOn,hpast,isPastDueOf,hdue]
  induction deadlines with
  | nil => rfl
  | cons d deadlines ih =>
    have hsplit : movedOn today (d :: deadlines) = movedOn today [d] ++ movedOn today deadlines := rfl
    have hcons (p : FilingDeadline → Bool) : ((d :: deadlines).filter p).length =
        ([d].filter p).length + (deadlines.filter p).length := by
      rw [← List.length_append,← List.filter_append,List.singleton_append]
    rw [hsplit,List.filter_append,List.length_append,hone d,ih,hcons,hcons]
    omega

/-- Companies and agencies stay. -/
theorem map_movedOn {κ : Type} (today : DateTime) (g : FilingDeadline → κ)
    (hg : ∀ status d, g (setFilingStatus status d) = g d) (deadlines : List FilingDeadline) :
    (movedOn today deadlines).map g = deadlines.map g := by
  rw [movedOn,Table.map_updateMany g (hg _),Table.map_updateMany g (hg _)]

end PinoyTax.Notifications
