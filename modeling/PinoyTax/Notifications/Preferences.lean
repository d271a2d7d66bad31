import PinoyTax.Foundation.Reliance
import PinoyTax.Notifications.Delivery
import Mathlib.Data.List.Induction

/-! # Notification preferences

A user turns a channel off for a category of notifications. Dispatches that begin after that
do not use the channel, whatever else is going on at the time.
-/
namespace PinoyTax.Notifications
open PinoyTax Foundation

/-! ## The other requests of the service -/

/-- The unique key `userId_channel_category`. -/
def hasKey (userId : Uuid) (channel : NotificationChannel) (category : String) (p : NotificationPreference) : Bool :=
  decide (p.userId = userId) && decide (p.channel = channel) && decide (p.category = category)

def setEnabled (isEnabled : Bool) (p : NotificationPreference) : NotificationPreference := { p with isEnabled := isEnabled }

/-- `upsert` on the unique key. -/
def upserted (userId : Uuid) (channel : NotificationChannel) (category : String) (isEnabled : Bool)
    (preferences : List NotificationPreference) : List NotificationPreference :=
  match preferences.find? (hasKey userId channel category) with
  | some _ => Table.updateMany (hasKey userId channel category) (setEnabled isEnabled) preferences
  | none => preferences ++ [⟨userId,channel,category,isEnabled⟩]

def setPreference (userId : Uuid) (channel : NotificationChannel) (category : String) (isEnabled : Bool) :
    Request NotificationPreference :=
  .stmt (.on .notificationPreference .upsert)
    (fun s => Prisma.notificationPreference.set
      (upserted userId channel category isEnabled s.notifications.notificationPreferences) s)
    (fun _ => .done (.ok ⟨userId,channel,category,isEnabled⟩))

def getPreferences (userId : Uuid) : Request (List NotificationPreference) :=
  Prisma.notificationPreference.findMany (fun p => p.userId = userId)

/-- `orderBy: { scheduledFor: 'desc' }`, where rows without a time come first. -/
def scheduledLater (a b : Notification) : Bool :=
  match a.scheduledFor, b.scheduledFor with
  | none, _ => true
  | some _, none => false
  | some x, some y => decide (y ≤ x)

def listForUser (userId : Uuid) : Request (List Notification) := do
  let notifications ← Prisma.notification.findMany (fun n => n.userId = userId)
  pure ((notifications.mergeSort scheduledLater).take 100)

inductive NotificationRequest
  | dispatch (fails : DispatchCall → Bool) (params : NotificationDispatchJobData) (draw : NotificationChannel → DispatchDraw)
  | setPreference (userId : Uuid) (channel : NotificationChannel) (category : String) (isEnabled : Bool)
  | getPreferences (userId : Uuid)
  | listForUser (userId : Uuid)

def NotificationRequest.program : NotificationRequest → Request Unit
  | dispatch fails params draw => Notifications.dispatch fails params draw
  | setPreference userId channel category isEnabled =>
    (Notifications.setPreference userId channel category isEnabled).discard
  | getPreferences userId => (Notifications.getPreferences userId).discard
  | listForUser userId => (Notifications.listForUser userId).discard

/-! ## A channel that is turned off -/

section
variable (userId : Uuid) (channel : NotificationChannel) (category : String)

def isFor (n : Notification) : Bool :=
  decide (n.userId = userId) && decide (n.channel = channel) && decide (n.category = category)

def TurnedOff (s : Store) : Prop :=
  ∃ p ∈ s.notifications.notificationPreferences, hasKey userId channel category p = true ∧ p.isEnabled = false

/-- The id is of a notification to somebody else, on another channel or of another category. -/
def Elsewhere (s : Store) (id : Uuid) : Prop :=
  ∃ n ∈ s.notifications.notifications, n.id = id ∧ isFor userId channel category n = false

/-- Since `s` nothing has gone out on the channel. -/
structure Silent (s t : Store) : Prop where
  off : TurnedOff userId channel category t
  rows : t.notifications.notifications.filter (isFor userId channel category) =
    s.notifications.notifications.filter (isFor userId channel category)
  delivered : ∃ new, t.notifications.delivered = s.notifications.delivered ++ new ∧
    ∀ d ∈ new, Elsewhere userId channel category t d.notificationId

def silence (s : Store) : Discipline Store where
  Inv := Silent userId channel category s
  Admits t := (t.notifications.notifications.map Notification.id).Nodup
  Later t u := ∀ id, Elsewhere userId channel category t id → Elsewhere userId channel category u id
  refl _ := fun _ h => h
  trans h h' := fun id hid => h' id (h id hid)

/-- Nobody turns the channel on again. -/
def ArrivesSilently (p : Request Unit) : Prop :=
  ∃ req : NotificationRequest, p = req.program ∧ req ≠ .setPreference userId channel category true

end

section
variable {userId : Uuid} {channel : NotificationChannel} {category : String} {s t : Store}

/-- Preferences, notifications and deliveries. -/
def notificationView (s : Store) : List NotificationPreference × List Notification × List Delivery :=
  (s.notifications.notificationPreferences,s.notifications.notifications,s.notifications.delivered)

theorem Silent.setRows (h : Silent userId channel category s t) {rows : List Notification}
    (hrows : rows.filter (isFor userId channel category) =
      t.notifications.notifications.filter (isFor userId channel category))
    (hlater : ∀ id, Elsewhere userId channel category t id →
      Elsewhere userId channel category (Prisma.notification.set rows t) id) :
    Silent userId channel category s (Prisma.notification.set rows t) := by
  obtain ⟨new,hnew,hdelivered⟩ := h.delivered
  exact ⟨h.off,hrows.trans h.rows,new,hnew,fun d hd => hlater _ (hdelivered d hd)⟩

/-- A row for something else is recorded. -/
theorem respects_create {row : Notification} (hrow : isFor userId channel category row = false) (t : Store) :
    (Prisma.notification.create row).Respects (silence userId channel category s)
      (fun r u => r = row ∧ Elsewhere userId channel category u row.id) t := by
  intro u _ hsilent _
  have hlater : ∀ id, Elsewhere userId channel category u id →
      Elsewhere userId channel category (Prisma.notification.set (u.notifications.notifications ++ [row]) u) id := by
    rintro id ⟨n,hn,hid,hfor⟩
    exact ⟨n,List.mem_append_left _ hn,hid,hfor⟩
  refine ⟨hsilent.setRows ?_ hlater,hlater,fun w hw => ⟨rfl,hw _ ⟨row,?_,rfl,hrow⟩⟩⟩
  · rw [List.filter_append,List.filter_cons_of_neg (by simp [hrow]),List.filter_nil,List.append_nil]
    rfl
  · exact List.mem_append_right _ (List.mem_singleton_self row)

/-- A row for something else is marked. -/
theorem respects_mark {id : Uuid} (ht : Elsewhere userId channel category t id) {f : Notification → Notification}
    (hid : ∀ n, (f n).id = n.id) (hfor : ∀ n, isFor userId channel category (f n) = isFor userId channel category n) :
    (Prisma.notification.update (fun n => n.id = id) f).Respects (silence userId channel category s) (fun _ _ => True) t := by
  rw [TableRef.update_eq]
  intro u htu hsilent hadm
  obtain ⟨n₀,hn₀,hid₀,hfor₀⟩ := htu id ht
  have hids : (u.notifications.notifications.map Notification.id).Nodup := by
    have hsame := Table.map_updateMany Notification.id hid (p := fun n => n.id = id) u.notifications.notifications
    rw [← hsame]
    exact hadm
  have hother : ∀ n ∈ u.notifications.notifications, n.id = id → isFor userId channel category n = false := by
    intro n hn hnid
    rw [Table.eq_of_key hids hn hn₀ (hnid.trans hid₀.symm)]
    exact hfor₀
  have hlater : ∀ k, Elsewhere userId channel category u k → Elsewhere userId channel category
      (Prisma.notification.set (Table.updateMany (fun n => n.id = id) f u.notifications.notifications) u) k := by
    rintro k ⟨n,hn,hk,hn'⟩
    by_cases hnid : n.id = id
    · exact ⟨f n,Table.mem_updateMany_image hn (decide_eq_true hnid),(hid n).trans hk,(hfor n).trans hn'⟩
    · exact ⟨n,Table.mem_updateMany_of_mem hn (decide_eq_false hnid),hk,hn'⟩
  refine ⟨hsilent.setRows ?_ hlater,hlater,Prog.respects_done fun _ _ _ _ => trivial⟩
  refine Table.filter_updateMany_eq_self fun n hn hnid => ⟨hfor n,fun htrue => ?_⟩
  rw [hother n hn (of_decide_eq_true hnid)] at htrue
  cases htrue

/-- Something goes out for a row for something else. -/
theorem respects_send {id : Uuid} (ht : Elsewhere userId channel category t id) (c : NotificationChannel)
    (payload : NotificationPayload) :
    (send id c payload).Respects (silence userId channel category s) (fun _ _ => True) t := by
  intro u htu hsilent _
  obtain ⟨new,hnew,hdelivered⟩ := hsilent.delivered
  refine ⟨⟨hsilent.off,hsilent.rows,new ++ [⟨id,c,payload⟩],?_,fun d hd => ?_⟩,fun _ h => h,fun _ _ => trivial⟩
  · change u.notifications.delivered ++ _ = _
    rw [hnew,List.append_assoc]
  · rcases List.mem_append.mp hd with hd | hd
    · exact hdelivered d hd
    · rw [List.mem_singleton.mp hd]
      exact htu id ht

theorem respects_failing {α : Type} {D : Discipline Store} {Q : α → Store → Prop} {p : Request α} (fails : Bool)
    (hp : p.Respects D Q t) : (failing fails p).Respects D Q t := by
  cases fails with
  | true => trivial
  | false => exact hp

/-! ## Dispatches -/

theorem isFor_queuedRow (params : NotificationDispatchJobData) (c : NotificationChannel) (draw : DispatchDraw) :
    isFor userId channel category (queuedRow params c draw) = true ↔
      params.userId = userId ∧ c = channel ∧ params.category = category := by
  change (decide (params.userId = userId) && decide (c = channel) && decide (params.category = category)) = true ↔ _
  simp only [Bool.and_eq_true,decide_eq_true_eq,and_assoc]

/-- The try block and its catch, for a row for something else. -/
theorem respects_deliver (fails : DispatchCall → Bool) (params : NotificationDispatchJobData) (c : NotificationChannel)
    (draw : DispatchDraw) {record : Notification} (ht : Elsewhere userId channel category t record.id) :
    ((deliver fails params c draw record).rescue fun _ => do
      let _ ← failing (fails (.markFailed c)) (Prisma.notification.update (fun n => n.id = record.id) setFailed)
      pure ()).Respects (silence userId channel category s) (fun _ _ => True) t := by
  have hmark : ∀ (b : Bool) (f : Notification → Notification) (u : Store), (∀ n, (f n).id = n.id) →
      (∀ n, isFor userId channel category (f n) = isFor userId channel category n) →
      Elsewhere userId channel category u record.id →
      (failing b (Prisma.notification.update (fun n => n.id = record.id) f) >>= fun _ => pure ()).Respects
        (silence userId channel category s) (fun _ _ => True) u := by
    intro b f u hid hfor hu
    exact (respects_failing b (respects_mark hu hid hfor)).bind fun _ _ _ => fun _ _ => trivial
  refine Prog.Respects.rescue ?_ fun _ u htu => hmark _ setFailed u (fun _ => rfl) (fun _ => rfl) (htu _ ht)
  unfold deliver
  cases recipientOf params c with
  | none => exact hmark _ setFailed t (fun _ => rfl) (fun _ => rfl) ht
  | some recipient =>
    have hsend : (failing (fails (.send c)) (send record.id c ⟨recipient,params.title,params.body⟩)).Respects
        (silence userId channel category s) (fun _ u => Elsewhere userId channel category u record.id) t := by
      refine respects_failing _ fun u htu hsilent hadm => ?_
      obtain ⟨hinv,hlater,-⟩ := respects_send (s := s) ht c ⟨recipient,params.title,params.body⟩ u htu hsilent hadm
      exact ⟨hinv,hlater,fun w hw => hw _ (hlater _ (htu _ ht))⟩
    exact hsend.bind fun _ u hu => hmark _ (setSent draw.sentAt) u (fun _ => rfl) (fun _ => rfl) hu

theorem respects_dispatchChannel (fails : DispatchCall → Bool) {params : NotificationDispatchJobData} {c : NotificationChannel}
    (hother : ¬ (params.userId = userId ∧ c = channel ∧ params.category = category)) (draw : DispatchDraw) (t : Store) :
    (dispatchChannel fails params c draw).Respects (silence userId channel category s) (fun _ _ => True) t := by
  have hrow : isFor userId channel category (queuedRow params c draw) = false := by
    rw [← Bool.not_eq_true,isFor_queuedRow]
    exact hother
  refine (respects_failing _ (respects_create hrow t)).bind ?_
  rintro record u ⟨rfl,hu⟩
  exact respects_deliver fails params c draw hu

theorem respects_dispatchChannels (fails : DispatchCall → Bool) {params : NotificationDispatchJobData}
    {disabled : List NotificationChannel}
    (hoff : params.userId = userId → params.category = category → channel ∈ disabled)
    (draw : NotificationChannel → DispatchDraw) (channels : List NotificationChannel) (t : Store) :
    (dispatchChannels fails params disabled draw channels).Respects (silence userId channel category s)
      (fun _ _ => True) t := by
  induction channels generalizing t with
  | nil => exact fun _ _ => trivial
  | cons c channels ih =>
    cases hc : disabled.contains c with
    | true =>
      rw [dispatchChannels_disabled hc]
      exact ih t
    | false =>
      rw [dispatchChannels_enabled hc]
      refine (respects_dispatchChannel fails ?_ (draw c) t).bind fun _ u _ => ih u
      rintro ⟨huser,rfl,hcategory⟩
      rw [List.contains_iff_mem.mpr (hoff huser hcategory)] at hc
      cases hc

/-- A channel that is turned off is among those a dispatch to the user finds. -/
theorem mem_disabledChannels (h : TurnedOff userId channel category t) :
    channel ∈ disabledChannels (t.notifications.notificationPreferences.filter (isPreferenceFor userId category)) := by
  obtain ⟨p,hp,hkey,hoff⟩ := h
  simp only [hasKey,Bool.and_eq_true,decide_eq_true_eq] at hkey
  obtain ⟨⟨huser,hchannel⟩,hcategory⟩ := hkey
  have hfor : isPreferenceFor userId category p = true := by simp [isPreferenceFor,huser,hcategory]
  refine List.mem_map.mpr ⟨p,List.mem_filter.mpr ⟨List.mem_filter.mpr ⟨hp,hfor⟩,by simp [hoff]⟩,hchannel⟩

theorem respects_dispatch (fails : DispatchCall → Bool) (params : NotificationDispatchJobData)
    (draw : NotificationChannel → DispatchDraw) (t : Store) :
    (dispatch fails params draw).Respects (silence userId channel category s) (fun _ _ => True) t := by
  have hfind : (failing (fails .findPreferences)
      (Prisma.notificationPreference.findMany (isPreferenceFor params.userId params.category))).Respects
        (silence userId channel category s)
        (fun preferences _ => params.userId = userId → params.category = category → channel ∈ disabledChannels preferences) t := by
    refine respects_failing _ fun u _ hsilent _ => ⟨hsilent,fun _ h => h,fun _ _ huser hcategory => ?_⟩
    rw [huser,hcategory]
    exact mem_disabledChannels hsilent.off
  exact hfind.bind fun preferences u hoff => respects_dispatchChannels fails hoff draw channelsToTry u

/-! ## All requests -/

/-- Off stays off, unless it is this preference that is turned on. -/
theorem turnedOff_upserted (h : TurnedOff userId channel category t) {user : Uuid} {c : NotificationChannel} {g : String}
    {isEnabled : Bool} (hoff : user = userId → c = channel → g = category → isEnabled = false) :
    TurnedOff userId channel category (Prisma.notificationPreference.set
      (upserted user c g isEnabled t.notifications.notificationPreferences) t) := by
  obtain ⟨p,hp,hkey,hp'⟩ := h
  change ∃ q ∈ upserted user c g isEnabled t.notifications.notificationPreferences, _
  unfold upserted
  split
  · by_cases hsame : hasKey user c g p = true
    · refine ⟨_,Table.mem_updateMany_image hp hsame,hkey,?_⟩
      simp only [hasKey,Bool.and_eq_true,decide_eq_true_eq] at hkey hsame
      obtain ⟨⟨huser,hchannel⟩,hcategory⟩ := hkey
      obtain ⟨⟨huser',hchannel'⟩,hcategory'⟩ := hsame
      exact hoff (huser'.symm.trans huser) (hchannel'.symm.trans hchannel) (hcategory'.symm.trans hcategory)
    · exact ⟨p,Table.mem_updateMany_of_mem hp (by simpa using hsame),hkey,hp'⟩
  · exact ⟨p,List.mem_append_left _ hp,hkey,hp'⟩

theorem respects_program {req : NotificationRequest} (hreq : req ≠ .setPreference userId channel category true) (t : Store) :
    req.program.Respects (silence userId channel category s) (fun _ _ => True) t := by
  cases req with
  | dispatch fails params draw => exact respects_dispatch fails params draw t
  | getPreferences userId => exact fun u _ h _ => ⟨h,fun _ h => h,fun _ _ => trivial⟩
  | listForUser userId => exact fun u _ h _ => ⟨h,fun _ h => h,fun _ _ => trivial⟩
  | setPreference user c g isEnabled =>
    intro u _ hsilent _
    have hoff : user = userId → c = channel → g = category → isEnabled = false := by
      rintro rfl rfl rfl
      cases isEnabled with
      | true => exact absurd rfl hreq
      | false => rfl
    exact ⟨⟨turnedOff_upserted hsilent.off hoff,hsilent.rows,hsilent.delivered⟩,fun _ h => h,fun _ _ => trivial⟩

theorem Silent.of_view (h : Silent userId channel category s t) {u : Store} (hview : notificationView u = notificationView t) :
    Silent userId channel category s u ∧ ∀ id, Elsewhere userId channel category t id → Elsewhere userId channel category u id := by
  obtain ⟨hpreferences,hrest⟩ := Prod.mk.inj hview
  obtain ⟨hrows,hdelivered⟩ := Prod.mk.inj hrest
  have hlater : ∀ id, Elsewhere userId channel category t id → Elsewhere userId channel category u id := by
    intro id hid
    rw [Elsewhere,hrows]
    exact hid
  obtain ⟨new,hnew,helsewhere⟩ := h.delivered
  refine ⟨⟨?_,by rw [hrows]; exact h.rows,new,by rw [hdelivered]; exact hnew,fun d hd => hlater _ (helsewhere d hd)⟩,hlater⟩
  rw [TurnedOff,hpreferences]
  exact h.off

end

/-- When a user has turned a channel off for a category, and nobody turns it on again: however dispatches,
retries of them and other requests interleave from then on, and whatever fails, no notification
is recorded for the user on that channel in that category, and all that is sent is for other notifications. -/
theorem opt_out_honoured (userId : Uuid) (channel : NotificationChannel) (category : String) (s : Store)
    (hoff : TurnedOff userId channel category s) (c : Config Store Label ApiException Unit)
    (h : Reached (fun t => t = s) (fun t => (t.notifications.notifications.map Notification.id).Nodup)
      (ArrivesSilently userId channel category) (fun t u => notificationView u = notificationView t) c) :
    c.state.notifications.notifications.filter (isFor userId channel category) =
        s.notifications.notifications.filter (isFor userId channel category) ∧
      ∃ new, c.state.notifications.delivered = s.notifications.delivered ++ new ∧
        ∀ d ∈ new, Elsewhere userId channel category c.state d.notificationId := by
  have hsilent : Silent userId channel category s c.state := by
    refine (Reached.inv (D := silence userId channel category s) ?_ ?_ ?_ h).1
    · rintro t rfl
      exact ⟨hoff,rfl,[],(List.append_nil _).symm,fun d hd => absurd hd List.not_mem_nil⟩
    · rintro p ⟨req,rfl,hreq⟩ t _
      exact respects_program hreq t
    · intro t u hview ht
      exact ht.of_view hview
  exact ⟨hsilent.rows,hsilent.delivered⟩

/-- Ana does not want text messages about payroll. -/
def silencedStore : Store where
  notifications.notificationPreferences := [⟨3,.sms,"payroll",false⟩]

def payslipReady : NotificationDispatchJobData where
  userId := 3
  category := "payroll"
  title := "Payslip"
  body := "Your payslip is ready."
  recipientAddressByChannel := { email := some "ana@example.com", sms := some "0917" }

def plainDraw : NotificationChannel → DispatchDraw
  | .email => ⟨50,0,0⟩
  | .sms => ⟨51,0,0⟩
  | .push => ⟨52,0,0⟩
  | .in_app => ⟨53,0,0⟩

/-- An e-mail goes out. -/
theorem opt_out_honoured_payslip : ∃ c, Reached (fun t => t = silencedStore)
      (fun t => (t.notifications.notifications.map Notification.id).Nodup) (ArrivesSilently 3 .sms "payroll")
      (fun t u => notificationView u = notificationView t) c ∧
    c.state.notifications.delivered.map Delivery.channel = [.email] ∧
    c.state.notifications.notifications.filter (isFor 3 .sms "payroll") =
      silencedStore.notifications.notifications.filter (isFor 3 .sms "payroll") ∧
    ∃ new, c.state.notifications.delivered = silencedStore.notifications.delivered ++ new ∧
      ∀ d ∈ new, Elsewhere 3 .sms "payroll" c.state d.notificationId := by
  have hstart : Reached (fun t => t = silencedStore)
      (fun t => (t.notifications.notifications.map Notification.id).Nodup) (ArrivesSilently 3 .sms "payroll")
      (fun t u => notificationView u = notificationView t) ⟨silencedStore,[]⟩ := .start rfl
  have harrive := hstart.arrive ⟨.dispatch (fun _ => false) payslipReady plainDraw,rfl,by simp⟩
  have hfound := harrive.execute (i := 0) rfl (by decide +kernel)
  have hrecorded := hfound.execute (i := 0) rfl (by decide +kernel)
  have hsent := hrecorded.execute (i := 0) rfl (by decide +kernel)
  exact ⟨_,hsent,by decide +kernel,opt_out_honoured 3 .sms "payroll" silencedStore ⟨_,List.mem_singleton_self _,rfl,rfl⟩ _ hsent⟩

/-! ## The last setting -/

structure Setting where
  userId : Uuid
  channel : NotificationChannel
  category : String
  isEnabled : Bool

def Setting.program (x : Setting) : Request NotificationPreference :=
  setPreference x.userId x.channel x.category x.isEnabled

/-- The store after the settings, made one after another. -/
def withSettings (s : Store) (settings : List Setting) : Store := settings.foldl (fun s x => (x.program.run s).2) s

/-- What a user has last set for a channel and a category. -/
def lastSetting (userId : Uuid) (channel : NotificationChannel) (category : String) (settings : List Setting) : Option Bool :=
  (settings.reverse.find? fun x => x.userId = userId ∧ x.channel = channel ∧ x.category = category).map Setting.isEnabled

def preferenceKey (p : NotificationPreference) : Uuid × NotificationChannel × String := (p.userId,p.channel,p.category)

theorem hasKey_iff {userId : Uuid} {channel : NotificationChannel} {category : String} {p : NotificationPreference} :
    hasKey userId channel category p = true ↔ preferenceKey p = (userId,channel,category) := by
  simp [hasKey,preferenceKey,and_assoc]

/-- One preference for each user, channel and category, as last set. -/
structure Follows (settings : List Setting) (preferences : List NotificationPreference) : Prop where
  keys : (preferences.map preferenceKey).Nodup
  settings : ∀ userId channel category, lastSetting userId channel category settings =
    (preferences.find? (hasKey userId channel category)).map NotificationPreference.isEnabled

section
variable {settings : List Setting} {preferences : List NotificationPreference}

theorem lastSetting_snoc (userId : Uuid) (channel : NotificationChannel) (category : String) (settings : List Setting)
    (x : Setting) : lastSetting userId channel category (settings ++ [x]) =
      if (x.userId,x.channel,x.category) = (userId,channel,category) then some x.isEnabled
      else lastSetting userId channel category settings := by
  rw [lastSetting,List.reverse_append,List.reverse_singleton,List.singleton_append,List.find?_cons]
  by_cases h : x.userId = userId ∧ x.channel = channel ∧ x.category = category
  · rw [decide_eq_true h,if_pos (by rw [h.1,h.2.1,h.2.2])]
    rfl
  · rw [decide_eq_false h,if_neg (by simpa using h)]
    rfl

theorem Follows.snoc (h : Follows settings preferences) (x : Setting) :
    Follows (settings ++ [x]) (upserted x.userId x.channel x.category x.isEnabled preferences) := by
  have hsame : ∀ p, preferenceKey (setEnabled x.isEnabled p) = preferenceKey p := fun _ => rfl
  unfold upserted
  cases hfind : preferences.find? (hasKey x.userId x.channel x.category) with
  | some r =>
    refine ⟨Table.nodup_updateMany hsame h.keys,fun userId channel category => ?_⟩
    have hfound := Table.find?_updateMany (p := hasKey x.userId x.channel x.category) (q := hasKey userId channel category)
      (f := setEnabled x.isEnabled) (fun _ => rfl) preferences
    dsimp only
    rw [lastSetting_snoc,hfound]
    by_cases hx : (x.userId,x.channel,x.category) = (userId,channel,category)
    · obtain ⟨rfl,rfl,rfl⟩ : x.userId = userId ∧ x.channel = channel ∧ x.category = category := by simpa using hx
      rw [if_pos rfl,hfind,Option.map_some,if_pos (List.find?_some hfind)]
      rfl
    · rw [if_neg hx,h.settings]
      cases hother : preferences.find? (hasKey userId channel category) with
      | none => rfl
      | some q =>
        have hq : ¬ hasKey x.userId x.channel x.category q = true := fun hxq =>
          hx ((hasKey_iff.mp hxq).symm.trans (hasKey_iff.mp (List.find?_some hother)))
        rw [Option.map_some,Option.map_some,if_neg hq]
        rfl
  | none =>
    have hfresh : ∀ q ∈ preferences, preferenceKey q ≠ (x.userId,x.channel,x.category) := fun q hq hkey =>
      List.find?_eq_none.mp hfind q hq (hasKey_iff.mpr hkey)
    refine ⟨Table.nodup_append_fresh h.keys hfresh,fun userId channel category => ?_⟩
    rw [lastSetting_snoc,List.find?_append]
    by_cases hx : (x.userId,x.channel,x.category) = (userId,channel,category)
    · obtain ⟨rfl,rfl,rfl⟩ : x.userId = userId ∧ x.channel = channel ∧ x.category = category := by simpa using hx
      have hnew : hasKey x.userId x.channel x.category ⟨x.userId,x.channel,x.category,x.isEnabled⟩ = true :=
        hasKey_iff.mpr rfl
      rw [if_pos rfl,hfind,Option.none_or,List.find?_cons_of_pos hnew]
      rfl
    · have hnew : ¬ hasKey userId channel category ⟨x.userId,x.channel,x.category,x.isEnabled⟩ = true := fun hkey =>
        hx (hasKey_iff.mp hkey)
      rw [if_neg hx,h.settings,List.find?_cons_of_neg hnew,List.find?_nil,Option.or_none]

theorem follows_withSettings {s : Store} (hs : s.notifications.notificationPreferences = []) (settings : List Setting) :
    Follows settings (withSettings s settings).notifications.notificationPreferences := by
  induction settings using List.reverseRecOn with
  | nil =>
    change Follows [] s.notifications.notificationPreferences
    rw [hs]
    exact ⟨List.nodup_nil,fun _ _ _ => rfl⟩
  | append_singleton settings x ih =>
    have hsnoc := ih.snoc x
    rw [withSettings,List.foldl_append]
    exact hsnoc

/-- The channels that a dispatch leaves out are those that the user has last turned off. -/
theorem Follows.mem_disabledChannels (h : Follows settings preferences) (userId : Uuid) (channel : NotificationChannel)
    (category : String) : channel ∈ disabledChannels (preferences.filter (isPreferenceFor userId category)) ↔
      lastSetting userId channel category settings = some false := by
  rw [h.settings]
  constructor
  · intro hmem
    obtain ⟨p,hdisabled,rfl⟩ := List.mem_map.mp hmem
    obtain ⟨hselected,hoff⟩ := List.mem_filter.mp hdisabled
    obtain ⟨hp,hfor⟩ := List.mem_filter.mp hselected
    simp only [isPreferenceFor,Bool.and_eq_true,decide_eq_true_eq] at hfor
    obtain ⟨rfl,rfl⟩ := hfor
    have hfind := Table.find?_of_mem h.keys hp
    have hkey : (fun q => decide (preferenceKey q = preferenceKey p)) = hasKey p.userId p.channel p.category := by
      funext q
      rw [Bool.eq_iff_iff,hasKey_iff,decide_eq_true_eq]
      rfl
    rw [hkey] at hfind
    rw [hfind,Option.map_some]
    simpa using hoff
  · intro hlast
    obtain ⟨p,hp,hoff⟩ := Option.map_eq_some_iff.mp hlast
    have hkey := hasKey_iff.mp (List.find?_some hp)
    obtain ⟨rfl,rfl,rfl⟩ : p.userId = userId ∧ p.channel = channel ∧ p.category = category := by
      simpa [preferenceKey] using hkey
    have hfor : isPreferenceFor p.userId p.category p = true := by simp [isPreferenceFor]
    exact List.mem_map.mpr ⟨p,List.mem_filter.mpr ⟨List.mem_filter.mpr ⟨List.mem_of_find?_eq_some hp,hfor⟩,by simp [hoff]⟩,rfl⟩

end

theorem withSettings_notifications (s : Store) (settings : List Setting) :
    (withSettings s settings).notifications.notifications = s.notifications.notifications := by
  induction settings generalizing s with
  | nil => rfl
  | cons x settings ih => exact ih _

/-- The channels that the user has not last turned off for the category. -/
def channelsLeftOn (params : NotificationDispatchJobData) (settings : List Setting) : List NotificationChannel :=
  channelsToTry.filter fun channel => lastSetting params.userId channel params.category settings ≠ some false

/-- The row of a channel when nothing fails, and what goes out. -/
def dispatchedRow (params : NotificationDispatchJobData) (draw : NotificationChannel → DispatchDraw)
    (channel : NotificationChannel) : Notification :=
  match recipientOf params channel with
  | some _ => setSent (draw channel).sentAt (queuedRow params channel (draw channel))
  | none => setFailed (queuedRow params channel (draw channel))

def dispatchedDelivery (params : NotificationDispatchJobData) (draw : NotificationChannel → DispatchDraw)
    (channel : NotificationChannel) : Option Delivery :=
  (recipientOf params channel).map fun recipient => ⟨(draw channel).id,channel,⟨recipient,params.title,params.body⟩⟩

section
variable (params : NotificationDispatchJobData) (draw : NotificationChannel → DispatchDraw)

theorem rowsOf_of_nothing_fails (channel : NotificationChannel) :
    rowsOf (fun _ => false) params channel (draw channel) = [dispatchedRow params draw channel] := by
  unfold rowsOf rowLeft completes dispatchedRow
  cases recipientOf params channel <;> rfl

theorem deliveriesOf_of_nothing_fails (channel : NotificationChannel) :
    deliveriesOf (fun _ => false) params channel (draw channel) = (dispatchedDelivery params draw channel).toList := by
  unfold deliveriesOf dispatchedDelivery
  cases recipientOf params channel <;> rfl

theorem reachedOf_of_nothing_fails (channels : List NotificationChannel) :
    reachedOf (fun _ => false) params channels = channels := by
  have hsettles : ∀ channel, settles (fun _ => false) params channel = true := fun channel => by simp [settles]
  induction channels with
  | nil => rfl
  | cons channel channels ih => rw [reachedOf,if_pos (hsettles channel),ih]

/-- Whatever users have set before, in whatever order: a dispatch that nothing fails in records
one notification on each channel that its user has not last turned off for its category, sent if there is
an address and failed if there is none, and sends nothing else. -/
theorem dispatch_follows_settings (s : Store) (settings : List Setting) (hs : s.notifications.notificationPreferences = [])
    (hdraw : Function.Injective fun channel => (draw channel).id)
    (hid : ∀ channel, (draw channel).id ∉ s.notifications.notifications.map Notification.id) :
    (dispatch (fun _ => false) params draw).run (withSettings s settings) =
      (.ok (),leaving ((channelsLeftOn params settings).map (dispatchedRow params draw))
        ((channelsLeftOn params settings).filterMap (dispatchedDelivery params draw)) (withSettings s settings)) := by
  have hfresh : ∀ channel, (draw channel).id ∉ (withSettings s settings).notifications.notifications.map Notification.id := by
    rw [withSettings_notifications]
    exact hid
  have henabled : enabledChannels params (withSettings s settings) = channelsLeftOn params settings := by
    refine List.filter_congr fun channel _ => ?_
    have hmem := (follows_withSettings hs settings).mem_disabledChannels params.userId channel params.category
    rw [Bool.eq_iff_iff,Bool.not_eq_true',decide_eq_true_eq,← Bool.not_eq_true,List.contains_iff_mem,hmem]
  have hreached : reached (fun _ => false) params (withSettings s settings) = channelsLeftOn params settings := by
    rw [reached,if_neg Bool.false_ne_true,reachedOf_of_nothing_fails,henabled]
  have haccepted : ¬ Rejects (fun _ => false) params (withSettings s settings) := by
    rintro (hfind | ⟨channel,-,hsettles⟩)
    · cases hfind
    · simp [settles] at hsettles
  rw [run_dispatch hdraw hfresh,decide_eq_false haccepted,rowsIn,deliveriesIn,hreached]
  simp only [rowsOf_of_nothing_fails,deliveriesOf_of_nothing_fails,ended,Bool.not_false,if_true]
  rw [List.filterMap_eq_flatMap_toList,List.map_eq_flatMap]

end

/-- E-mail is turned off and on again, text messages are turned off. -/
theorem dispatch_follows_settings_ana :
    (dispatch (fun _ => false) payslipReady plainDraw).run
        (withSettings {} [⟨3,.email,"payroll",false⟩,⟨3,.sms,"payroll",false⟩,⟨3,.email,"payroll",true⟩]) =
      (.ok (),leaving ((channelsLeftOn payslipReady
            [⟨3,.email,"payroll",false⟩,⟨3,.sms,"payroll",false⟩,⟨3,.email,"payroll",true⟩]).map
              (dispatchedRow payslipReady plainDraw))
        ((channelsLeftOn payslipReady
            [⟨3,.email,"payroll",false⟩,⟨3,.sms,"payroll",false⟩,⟨3,.email,"payroll",true⟩]).filterMap
              (dispatchedDelivery payslipReady plainDraw))
        (withSettings {} [⟨3,.email,"payroll",false⟩,⟨3,.sms,"payroll",false⟩,⟨3,.email,"payroll",true⟩])) ∧
      channelsLeftOn payslipReady
        [⟨3,.email,"payroll",false⟩,⟨3,.sms,"payroll",false⟩,⟨3,.email,"payroll",true⟩] = [.email,.push,.in_app] := by
  have hdraw : Function.Injective fun channel => (plainDraw channel).id := by
    intro a b h
    cases a <;> cases b <;> first | rfl | exact absurd h (by decide)
  exact ⟨dispatch_follows_settings payslipReady plainDraw {} _ rfl hdraw fun channel => List.not_mem_nil,by decide +kernel⟩

end PinoyTax.Notifications
