import PinoyTax.Schema.Prisma

/-! # NotificationsService

A dispatch goes through the channels one after another: a row for the channel, the send,
and the status of the row. Which of its calls reject is part of the request; a call that
rejects has no effect. The queue runs a job again when its dispatch rejects.
-/
namespace PinoyTax.Notifications
open PinoyTax Foundation

/-- The calls of a dispatch. A channel without an address is marked in a call of its own. -/
inductive DispatchCall
  | findPreferences
  | create (channel : NotificationChannel)
  | markUnaddressed (channel : NotificationChannel)
  | send (channel : NotificationChannel)
  | markSent (channel : NotificationChannel)
  | markFailed (channel : NotificationChannel)
deriving DecidableEq, Repr

/-- What a dispatch draws for a channel: the id of its row and the times. -/
structure DispatchDraw where
  id : Uuid
  scheduledFor : DateTime
  sentAt : DateTime
deriving DecidableEq, Repr

def channelsToTry : List NotificationChannel := [.email,.sms,.push,.in_app]

/-- `!p.isEnabled` for one of the preferences found. -/
def disabledChannels (preferences : List NotificationPreference) : List NotificationChannel :=
  (preferences.filter (fun p => !p.isEnabled)).map NotificationPreference.channel

def isPreferenceFor (userId : Uuid) (category : String) (p : NotificationPreference) : Bool :=
  decide (p.userId = userId) && decide (p.category = category)

/-- The recipient; an empty address is none. -/
def recipientOf (params : NotificationDispatchJobData) : NotificationChannel → Option Recipient
  | .in_app => some (.user params.userId)
  | .email => (params.recipientAddressByChannel.email.filter (fun a => a != "")).map .address
  | .sms => (params.recipientAddressByChannel.sms.filter (fun a => a != "")).map .address
  | .push => (params.recipientAddressByChannel.push.filter (fun a => a != "")).map .address

def queuedRow (params : NotificationDispatchJobData) (channel : NotificationChannel) (draw : DispatchDraw) :
    Notification where
  id := draw.id
  companyId := params.companyId
  userId := params.userId
  channel := channel
  category := params.category
  title := params.title
  body := params.body
  relatedDeadlineId := params.relatedDeadlineId
  status := .queued
  scheduledFor := some draw.scheduledFor

def setFailed (n : Notification) : Notification := { n with status := .failed }
def setSent (sentAt : DateTime) (n : Notification) : Notification := { n with status := .sent, sentAt := some sentAt }

/-- `this.channels[channel].send`, which leaves the delivery with the row that stands for it. -/
def send (notificationId : Uuid) (channel : NotificationChannel) (payload : NotificationPayload) : Request Unit :=
  .stmt .send
    (fun s => { s with notifications.delivered := s.notifications.delivered ++ [⟨notificationId,channel,payload⟩] })
    (fun _ => .done (.ok ()))

section
variable (fails : DispatchCall → Bool) (params : NotificationDispatchJobData)

/-- The body of the `try`. -/
def deliver (channel : NotificationChannel) (draw : DispatchDraw) (record : Notification) : Request Unit := do
  match recipientOf params channel with
  | none => do
    let _ ← failing (fails (.markUnaddressed channel)) (Prisma.notification.update (fun n => n.id = record.id) setFailed)
    pure ()
  | some recipient => do
    failing (fails (.send channel)) (send record.id channel ⟨recipient,params.title,params.body⟩)
    let _ ← failing (fails (.markSent channel))
      (Prisma.notification.update (fun n => n.id = record.id) (setSent draw.sentAt))
    pure ()

def dispatchChannel (channel : NotificationChannel) (draw : DispatchDraw) : Request Unit := do
  let record ← failing (fails (.create channel)) (Prisma.notification.create (queuedRow params channel draw))
  (deliver fails params channel draw record).rescue fun _ => do
    let _ ← failing (fails (.markFailed channel)) (Prisma.notification.update (fun n => n.id = record.id) setFailed)
    pure ()

/-- `for (const channel of channelsToTry)`. -/
def dispatchChannels (disabled : List NotificationChannel) (draw : NotificationChannel → DispatchDraw) :
    List NotificationChannel → Request Unit
  | [] => pure ()
  | channel :: channels => do
    if disabled.contains channel then pure () else dispatchChannel fails params channel (draw channel)
    dispatchChannels disabled draw channels

def dispatch (draw : NotificationChannel → DispatchDraw) : Request Unit := do
  let preferences ← failing (fails .findPreferences)
    (Prisma.notificationPreference.findMany (isPreferenceFor params.userId params.category))
  dispatchChannels fails params (disabledChannels preferences) draw channelsToTry

end

/-! ## The job -/

/-- `defaultJobOptions.attempts`. -/
def attempts : ℕ := 3

/-- The store after the attempts that are left, from one on: a dispatch that rejects is run again. -/
def process (fails : ℕ → DispatchCall → Bool) (params : NotificationDispatchJobData)
    (draw : ℕ → NotificationChannel → DispatchDraw) : (attempt left : ℕ) → Store → Store
  | _, 0, s => s
  | attempt, left + 1, s =>
    match (dispatch (fails attempt) params (draw attempt)).run s with
    | (.ok _,t) => t
    | (.error _,t) => process fails params draw (attempt + 1) left t

end PinoyTax.Notifications
