import Mathlib.Data.List.Pairwise
import PinoyTax.Notifications.Service

/-! # What a job delivers

Which calls reject decides what an attempt does: the channels that it gets to, the
rows and the deliveries that each leaves, and whether the queue runs the job again.
The store after a job is the store before it with the rows and the deliveries of the
attempts that run, one after another.
-/
namespace PinoyTax.Notifications
open PinoyTax Foundation

/-! ## A channel of an attempt -/

section
variable (fails : DispatchCall → Bool) (params : NotificationDispatchJobData)

def sends (channel : NotificationChannel) : Bool :=
  !fails (.create channel) && (recipientOf params channel).isSome && !fails (.send channel)

/-- The `try` block does not throw. -/
def completes (channel : NotificationChannel) : Bool :=
  match recipientOf params channel with
  | none => !fails (.markUnaddressed channel)
  | some _ => !fails (.send channel) && !fails (.markSent channel)

/-- The loop goes on to the next channel. -/
def settles (channel : NotificationChannel) : Bool :=
  !fails (.create channel) && (completes fails params channel || !fails (.markFailed channel))

/-- The row of a channel at the end of its turn. -/
def rowLeft (channel : NotificationChannel) (draw : DispatchDraw) : Notification :=
  let row := queuedRow params channel draw
  if completes fails params channel then
    if (recipientOf params channel).isSome then setSent draw.sentAt row else setFailed row
  else if fails (.markFailed channel) then row else setFailed row

def rowsOf (channel : NotificationChannel) (draw : DispatchDraw) : List Notification :=
  if fails (.create channel) then [] else [rowLeft fails params channel draw]

def deliveriesOf (channel : NotificationChannel) (draw : DispatchDraw) : List Delivery :=
  match recipientOf params channel with
  | none => []
  | some recipient =>
    if fails (.create channel) || fails (.send channel) then []
    else [⟨draw.id,channel,⟨recipient,params.title,params.body⟩⟩]

end

section
variable {fails : DispatchCall → Bool} {params : NotificationDispatchJobData} {channel : NotificationChannel}
variable {draw : DispatchDraw}

@[simp] theorem rowLeft_id : (rowLeft fails params channel draw).id = draw.id := by
  unfold rowLeft
  split
  · split <;> rfl
  · split <;> rfl

theorem mem_rowsOf {n : Notification} :
    n ∈ rowsOf fails params channel draw ↔ fails (.create channel) = false ∧ n = rowLeft fails params channel draw := by
  unfold rowsOf
  cases fails (.create channel) <;> simp

theorem id_of_mem_rowsOf {n : Notification} (h : n ∈ rowsOf fails params channel draw) : n.id = draw.id := by
  rw [(mem_rowsOf.mp h).2,rowLeft_id]

theorem notificationId_of_mem_deliveriesOf {d : Delivery} (h : d ∈ deliveriesOf fails params channel draw) :
    d.notificationId = draw.id := by
  unfold deliveriesOf at h
  split at h
  · simp at h
  · split at h
    · simp at h
    · rw [List.mem_singleton.mp h]

theorem channels_deliveriesOf (fails : DispatchCall → Bool) (params : NotificationDispatchJobData)
    (channel : NotificationChannel) (draw : DispatchDraw) :
    (deliveriesOf fails params channel draw).map Delivery.channel = if sends fails params channel then [channel] else [] := by
  unfold deliveriesOf sends
  cases recipientOf params channel with
  | none => simp
  | some recipient => cases fails (.create channel) <;> cases fails (.send channel) <;> rfl

theorem sends_iff : sends fails params channel = true ↔
    fails (.create channel) = false ∧ (∃ recipient, recipientOf params channel = some recipient) ∧
      fails (.send channel) = false := by
  simp [sends,Option.isSome_iff_exists,and_assoc]

/-- A row is left failed after a delivery only when the delivery could not be marked and the failure could. -/
theorem failed_of_sends (draw : DispatchDraw) (h : sends fails params channel = true) :
    (rowLeft fails params channel draw).status = .failed ↔
      fails (.markSent channel) = true ∧ fails (.markFailed channel) = false := by
  obtain ⟨-,⟨recipient,hr⟩,hsend⟩ := sends_iff.mp h
  have hcompletes : completes fails params channel = !fails (.markSent channel) := by simp [completes,hr,hsend]
  rw [rowLeft,hcompletes,hr]
  cases fails (.markSent channel) <;> cases fails (.markFailed channel) <;> simp [setSent,setFailed,queuedRow]

end

/-- The store with these rows and deliveries added. -/
def leaving (rows : List Notification) (deliveries : List Delivery) (s : Store) : Store :=
  { s with
    notifications.notifications := s.notifications.notifications ++ rows
    notifications.delivered := s.notifications.delivered ++ deliveries }

@[simp] theorem leaving_nil (s : Store) : leaving [] [] s = s := by simp [leaving]

@[simp] theorem leaving_leaving (r r' : List Notification) (d d' : List Delivery) (s : Store) :
    leaving r' d' (leaving r d s) = leaving (r ++ r') (d ++ d') s := by simp [leaving,List.append_assoc]

/-- An id that no row has, and no new row either. -/
theorem fresh_leaving {id : Uuid} {r : List Notification} {d : List Delivery} {s : Store}
    (hid : id ∉ s.notifications.notifications.map Notification.id) (hnew : ∀ n ∈ r, n.id ≠ id) :
    id ∉ (leaving r d s).notifications.notifications.map Notification.id := by
  change id ∉ (s.notifications.notifications ++ r).map Notification.id
  rw [List.map_append,List.mem_append,not_or]
  refine ⟨hid,fun hmem => ?_⟩
  obtain ⟨n,hn,hsame⟩ := List.mem_map.mp hmem
  exact hnew n hn hsame

def ended (ok : Bool) : Except ApiException Unit := if ok then .ok () else .error .database

section
variable {row : Notification} {s : Store}

/-- A marking of the row just recorded. -/
theorem run_mark (fails : Bool) (g : Notification → Notification) (d : List Delivery)
    (hrow : row.id ∉ s.notifications.notifications.map Notification.id) :
    (failing fails (Prisma.notification.update (fun n => n.id = row.id) g) >>= fun _ => pure ()).run (leaving [row] d s) =
      (ended (!fails),leaving [if fails then row else g row] d s) := by
  cases fails with
  | true => rfl
  | false =>
    have hfind : (Prisma.notification.get (leaving [row] d s)).find? (fun n => n.id = row.id) = some row :=
      Table.find?_append_fresh hrow
    rw [Prog.run_bind,failing,if_neg Bool.false_ne_true,TableRef.run_update_of_find hfind]
    have hupdate : Table.updateMany (fun n => n.id = row.id) g (Prisma.notification.get (leaving [row] d s)) =
        s.notifications.notifications ++ [g row] := Table.updateMany_append_fresh hrow g
    rw [hupdate]
    rfl

theorem run_send (fails : Bool) (channel : NotificationChannel) (payload : NotificationPayload) :
    (failing fails (send row.id channel payload)).run (leaving [row] [] s) =
      (ended (!fails),leaving [row] (if fails then [] else [⟨row.id,channel,payload⟩]) s) := by
  cases fails with
  | true => rfl
  | false => simp [failing,send,ended,leaving]

end

section
variable {fails : DispatchCall → Bool} {params : NotificationDispatchJobData} {channel : NotificationChannel}
variable {draw : DispatchDraw} {s : Store}

/-- The row before the `catch` clause. -/
def rowTried (fails : DispatchCall → Bool) (params : NotificationDispatchJobData) (channel : NotificationChannel)
    (draw : DispatchDraw) : Notification :=
  if completes fails params channel then rowLeft fails params channel draw else queuedRow params channel draw

theorem run_deliver (hcreate : fails (.create channel) = false)
    (hid : draw.id ∉ s.notifications.notifications.map Notification.id) :
    (deliver fails params channel draw (queuedRow params channel draw)).run
        (leaving [queuedRow params channel draw] [] s) =
      (ended (completes fails params channel),
        leaving [rowTried fails params channel draw] (deliveriesOf fails params channel draw) s) := by
  have hrow : (queuedRow params channel draw).id ∉ s.notifications.notifications.map Notification.id := hid
  unfold deliver rowTried rowLeft completes deliveriesOf
  cases hr : recipientOf params channel with
  | none =>
    dsimp only
    rw [run_mark _ _ _ hrow]
    cases fails (.markUnaddressed channel) <;> rfl
  | some recipient =>
    dsimp only
    rw [Prog.run_bind,run_send]
    cases hsend : fails (.send channel) with
    | true => simp [ended]
    | false =>
      simp only [ended,Bool.not_false,if_true,Prog.resume_ok]
      rw [run_mark _ _ _ hrow]
      cases fails (.markSent channel) <;> simp [hcreate,ended] <;> rfl

theorem run_dispatchChannel (fails : DispatchCall → Bool) (params : NotificationDispatchJobData)
    (channel : NotificationChannel) (hid : draw.id ∉ s.notifications.notifications.map Notification.id) :
    (dispatchChannel fails params channel draw).run s =
      (ended (settles fails params channel),
        leaving (rowsOf fails params channel draw) (deliveriesOf fails params channel draw) s) := by
  unfold dispatchChannel
  cases hcreate : fails (.create channel) with
  | true =>
    have hnone : deliveriesOf fails params channel draw = [] := by
      unfold deliveriesOf
      split
      · rfl
      · simp [hcreate]
    simp [failing,settles,rowsOf,hcreate,hnone,ended]
  | false =>
    have hcreated : (Prisma.notification.create (queuedRow params channel draw)).run s =
        (.ok (queuedRow params channel draw),leaving [queuedRow params channel draw] [] s) := by
      simp [leaving,Prisma.notification]
    rw [failing,if_neg Bool.false_ne_true,Prog.run_bind,hcreated,Prog.resume_ok,Prog.run_rescue,run_deliver hcreate hid]
    cases hcompletes : completes fails params channel with
    | true => simp [ended,settles,rowsOf,rowTried,hcreate,hcompletes]
    | false =>
      have hid : (queuedRow params channel draw).id ∉ s.notifications.notifications.map Notification.id := hid
      have hmark := run_mark (fails (.markFailed channel)) setFailed (deliveriesOf fails params channel draw) hid
      simp only [ended,if_neg Bool.false_ne_true,rowTried,hcompletes]
      rw [hmark]
      simp [ended,settles,rowsOf,rowLeft,hcreate,hcompletes]

end

/-! ## An attempt -/

section
variable (fails : DispatchCall → Bool) (params : NotificationDispatchJobData)

/-- The channels of a list that the loop gets to. -/
def reachedOf : List NotificationChannel → List NotificationChannel
  | [] => []
  | channel :: channels => channel :: if settles fails params channel then reachedOf channels else []

def enabledChannels (s : Store) : List NotificationChannel :=
  channelsToTry.filter fun channel =>
    !(disabledChannels (s.notifications.notificationPreferences.filter
      (isPreferenceFor params.userId params.category))).contains channel

/-- The channels that an attempt gets to. -/
def reached (s : Store) : List NotificationChannel :=
  if fails .findPreferences then [] else reachedOf fails params (enabledChannels params s)

/-- The dispatch rejects, and the queue runs the job again. -/
def Rejects (s : Store) : Prop :=
  fails .findPreferences = true ∨ ∃ channel ∈ enabledChannels params s, settles fails params channel = false

instance (s : Store) : Decidable (Rejects fails params s) := by
  unfold Rejects
  infer_instance

end

section
variable {fails : DispatchCall → Bool} {params : NotificationDispatchJobData}
variable {draw : NotificationChannel → DispatchDraw} {s : Store}

section
variable {disabled channels : List NotificationChannel} {channel : NotificationChannel}

theorem dispatchChannels_disabled (h : disabled.contains channel = true) :
    dispatchChannels fails params disabled draw (channel :: channels) =
      dispatchChannels fails params disabled draw channels := by
  rw [dispatchChannels,h]
  rfl

theorem dispatchChannels_enabled (h : disabled.contains channel = false) :
    dispatchChannels fails params disabled draw (channel :: channels) =
      dispatchChannel fails params channel (draw channel) >>= fun _ =>
        dispatchChannels fails params disabled draw channels := by
  rw [dispatchChannels,h]
  rfl

theorem run_dispatchChannels (hn : channels.Nodup) (hdraw : Function.Injective fun channel => (draw channel).id)
    (hid : ∀ channel ∈ channels, (draw channel).id ∉ s.notifications.notifications.map Notification.id) :
    (dispatchChannels fails params disabled draw channels).run s =
      (ended ((channels.filter fun channel => !disabled.contains channel).all (settles fails params)),
        leaving
          ((reachedOf fails params (channels.filter fun channel => !disabled.contains channel)).flatMap
            fun channel => rowsOf fails params channel (draw channel))
          ((reachedOf fails params (channels.filter fun channel => !disabled.contains channel)).flatMap
            fun channel => deliveriesOf fails params channel (draw channel)) s) := by
  induction channels generalizing s with
  | nil => simp [dispatchChannels,reachedOf,ended]
  | cons channel channels ih =>
    obtain ⟨hnot,hn⟩ := List.nodup_cons.mp hn
    cases hdisabled : disabled.contains channel with
    | true =>
      rw [dispatchChannels_disabled hdisabled,List.filter_cons_of_neg (by rw [hdisabled]; decide)]
      exact ih hn fun c hc => hid c (List.mem_cons_of_mem _ hc)
    | false =>
      have hrun := run_dispatchChannel fails params channel (hid channel List.mem_cons_self)
      rw [dispatchChannels_enabled hdisabled,List.filter_cons_of_pos (by rw [hdisabled]; decide),Prog.run_bind,hrun]
      cases hsettles : settles fails params channel with
      | false => simp [reachedOf,hsettles,ended]
      | true =>
        -- the row just recorded takes none of the ids that are left
        have hfresh : ∀ c ∈ channels, (draw c).id ∉ ((leaving (rowsOf fails params channel (draw channel))
            (deliveriesOf fails params channel (draw channel)) s).notifications.notifications.map Notification.id) := by
          intro c hc
          refine fresh_leaving (hid c (List.mem_cons_of_mem _ hc)) fun n hrow hsame => ?_
          have hc' : channel = c := hdraw ((id_of_mem_rowsOf hrow).symm.trans hsame)
          exact hnot (hc' ▸ hc)
        simp only [ended,if_true,Prog.resume_ok]
        rw [ih hn hfresh]
        simp [reachedOf,hsettles,ended]

end

/-- The rows that an attempt adds. -/
def rowsIn (fails : DispatchCall → Bool) (params : NotificationDispatchJobData)
    (draw : NotificationChannel → DispatchDraw) (s : Store) : List Notification :=
  (reached fails params s).flatMap fun channel => rowsOf fails params channel (draw channel)

def deliveriesIn (fails : DispatchCall → Bool) (params : NotificationDispatchJobData)
    (draw : NotificationChannel → DispatchDraw) (s : Store) : List Delivery :=
  (reached fails params s).flatMap fun channel => deliveriesOf fails params channel (draw channel)

theorem run_dispatch (hdraw : Function.Injective fun channel => (draw channel).id)
    (hid : ∀ channel, (draw channel).id ∉ s.notifications.notifications.map Notification.id) :
    (dispatch fails params draw).run s =
      (ended (!decide (Rejects fails params s)),leaving (rowsIn fails params draw s) (deliveriesIn fails params draw s) s) := by
  unfold dispatch rowsIn deliveriesIn reached
  cases hfind : fails .findPreferences with
  | true => simp [failing,Rejects,hfind,ended]
  | false =>
    rw [failing,if_neg Bool.false_ne_true,Prog.run_bind,TableRef.run_findMany,Prog.resume_ok,
      run_dispatchChannels (by decide) hdraw fun channel _ => hid channel]
    have hall : (enabledChannels params s).all (settles fails params) = !decide (Rejects fails params s) := by
      rw [Bool.eq_iff_iff]
      simp [Rejects,hfind]
    rw [← hall]
    rfl

end

/-! ## A job -/

/-- The database draws an id for every row, and no row has it yet. -/
structure FreshDraws (draw : ℕ → NotificationChannel → DispatchDraw) (s : Store) : Prop where
  distinct : Function.Injective fun p : ℕ × NotificationChannel => (draw p.1 p.2).id
  unused : ∀ attempt channel, (draw attempt channel).id ∉ s.notifications.notifications.map Notification.id

section
variable (fails : ℕ → DispatchCall → Bool) (params : NotificationDispatchJobData)

/-- The queue gets to the attempt. -/
def Runs (s : Store) (attempt : ℕ) : Prop := attempt < attempts ∧ ∀ b < attempt, Rejects (fails b) params s

/-- The attempt gets to the channel and sends it. -/
def Delivers (s : Store) (attempt : ℕ) (channel : NotificationChannel) : Prop :=
  channel ∈ reached (fails attempt) params s ∧ sends (fails attempt) params channel = true

/-- The attempts that run of those that are left, from one on. -/
def attemptsRun (s : Store) : ℕ → ℕ → List ℕ
  | _, 0 => []
  | attempt, left + 1 =>
    attempt :: if Rejects (fails attempt) params s then attemptsRun s (attempt + 1) left else []

end

section
variable {fails : ℕ → DispatchCall → Bool} {params : NotificationDispatchJobData}
variable {draw : ℕ → NotificationChannel → DispatchDraw} {s : Store}

theorem mem_attemptsRun {a left x : ℕ} :
    x ∈ attemptsRun fails params s a left ↔
      a ≤ x ∧ x < a + left ∧ ∀ b, a ≤ b → b < x → Rejects (fails b) params s := by
  induction left generalizing a with
  | zero =>
    simp only [attemptsRun,List.not_mem_nil,false_iff,not_and]
    omega
  | succ left ih =>
    rw [attemptsRun,List.mem_cons]
    constructor
    · rintro (rfl | hx)
      · exact ⟨le_rfl,by omega,fun b hab hb => absurd hab (by omega)⟩
      · split at hx
        · rename_i hrejects
          obtain ⟨hax,hlt,hbefore⟩ := ih.mp hx
          refine ⟨by omega,by omega,fun b hab hb => ?_⟩
          rcases Nat.eq_or_lt_of_le hab with rfl | hab
          · exact hrejects
          · exact hbefore b hab hb
        · simp at hx
    · rintro ⟨hax,hlt,hbefore⟩
      rcases Nat.eq_or_lt_of_le hax with rfl | hax
      · exact .inl rfl
      · right
        rw [if_pos (hbefore a le_rfl hax)]
        exact ih.mpr ⟨hax,by omega,fun b hab hb => hbefore b (by omega) hb⟩

theorem pairwise_attemptsRun (a left : ℕ) : (attemptsRun fails params s a left).Pairwise (· < ·) := by
  induction left generalizing a with
  | zero => exact List.Pairwise.nil
  | succ left ih =>
    rw [attemptsRun,List.pairwise_cons]
    split
    · refine ⟨fun x hx => ?_,ih (a + 1)⟩
      have hax := (mem_attemptsRun.mp hx).1
      omega
    · exact ⟨by simp,List.Pairwise.nil⟩

theorem runs_iff {attempt : ℕ} : attempt ∈ attemptsRun fails params s 0 attempts ↔ Runs fails params s attempt := by
  rw [mem_attemptsRun,Nat.zero_add]
  constructor
  · rintro ⟨_,hlt,hbefore⟩
    exact ⟨hlt,fun b hb => hbefore b (Nat.zero_le b) hb⟩
  · rintro ⟨hlt,hbefore⟩
    exact ⟨Nat.zero_le _,hlt,fun b _ hb => hbefore b hb⟩

theorem mem_rowsIn {f : DispatchCall → Bool} {d : NotificationChannel → DispatchDraw} {n : Notification}
    (h : n ∈ rowsIn f params d s) : ∃ channel ∈ reached f params s, n ∈ rowsOf f params channel (d channel) := by
  simpa [rowsIn] using h

theorem attemptsRun_leaving (r : List Notification) (d : List Delivery) (a left : ℕ) :
    attemptsRun fails params (leaving r d s) a left = attemptsRun fails params s a left := by
  induction left generalizing a with
  | zero => rfl
  | succ left ih =>
    rw [attemptsRun,attemptsRun,ih]
    rfl

/-- The store after a job. -/
theorem process_eq (fails : ℕ → DispatchCall → Bool) (params : NotificationDispatchJobData) (left : ℕ)
    (hdistinct : Function.Injective fun p : ℕ × NotificationChannel => (draw p.1 p.2).id) {a : ℕ}
    (hid : ∀ x, a ≤ x → ∀ channel, (draw x channel).id ∉ s.notifications.notifications.map Notification.id) :
    process fails params draw a left s =
      leaving ((attemptsRun fails params s a left).flatMap fun x => rowsIn (fails x) params (draw x) s)
        ((attemptsRun fails params s a left).flatMap fun x => deliveriesIn (fails x) params (draw x) s) s := by
  induction left generalizing a s with
  | zero => simp [process,attemptsRun]
  | succ left ih =>
    have hdraw : Function.Injective fun channel => (draw a channel).id := by
      intro c c' hc
      exact congrArg Prod.snd (@hdistinct (a,c) (a,c') hc)
    rw [process,run_dispatch hdraw (hid a le_rfl),attemptsRun]
    by_cases hrejects : Rejects (fails a) params s
    · have hfresh : ∀ x, a + 1 ≤ x → ∀ channel,
          (draw x channel).id ∉ (leaving (rowsIn (fails a) params (draw a) s)
            (deliveriesIn (fails a) params (draw a) s) s).notifications.notifications.map Notification.id := by
        intro x hx channel
        refine fresh_leaving (hid x (by omega) channel) fun n hn hsame => ?_
        obtain ⟨c,_,hrow⟩ := mem_rowsIn hn
        have hpair : (a,c) = (x,channel) := hdistinct ((id_of_mem_rowsOf hrow).symm.trans hsame)
        have hax : a = x := congrArg Prod.fst hpair
        omega
      simp only [hrejects,decide_true,Bool.not_true,ended,if_neg Bool.false_ne_true,if_true,List.flatMap_cons]
      rw [ih hfresh,attemptsRun_leaving]
      exact leaving_leaving _ _ _ _ s
    · simp [hrejects,ended]

end

/-! ## At most one delivery of each channel -/

def rowsSince (s t : Store) : List Notification := t.notifications.notifications.drop s.notifications.notifications.length

def deliveriesSince (s t : Store) : List Delivery := t.notifications.delivered.drop s.notifications.delivered.length

/-- Between the two stores no channel was sent twice, and no row marked failed was delivered. -/
structure DeliveredOnce (s t : Store) : Prop where
  channels : ((deliveriesSince s t).map Delivery.channel).Nodup
  failed : ∀ n ∈ rowsSince s t, n.status = .failed → ∀ d ∈ deliveriesSince s t, d.notificationId ≠ n.id

/-- No attempt that runs sends a channel that an earlier one has sent, and none that sends a channel
fails to mark it sent and then marks it failed. -/
structure SendsOnce (fails : ℕ → DispatchCall → Bool) (params : NotificationDispatchJobData) (s : Store) : Prop where
  repeats : ∀ a b channel, a < b → Runs fails params s b → Delivers fails params s a channel →
    ¬ Delivers fails params s b channel
  marks : ∀ a channel, Runs fails params s a → Delivers fails params s a channel →
    fails a (.markSent channel) = true → fails a (.markFailed channel) = true

section
variable {fails : ℕ → DispatchCall → Bool} {params : NotificationDispatchJobData}
variable {draw : ℕ → NotificationChannel → DispatchDraw} {s : Store}

theorem reachedOf_sublist (f : DispatchCall → Bool) (channels : List NotificationChannel) :
    (reachedOf f params channels).Sublist channels := by
  induction channels with
  | nil => exact List.Sublist.slnil
  | cons channel channels ih =>
    rw [reachedOf]
    split
    · exact ih.cons_cons channel
    · exact (List.nil_sublist channels).cons_cons channel

theorem nodup_reached (f : DispatchCall → Bool) : (reached f params s).Nodup := by
  unfold reached
  split
  · exact List.nodup_nil
  · have hall : channelsToTry.Nodup := by decide
    exact (hall.filter _).sublist (reachedOf_sublist f _)

/-- The channels that an attempt sends. -/
theorem channels_deliveriesIn (f : DispatchCall → Bool) (d : NotificationChannel → DispatchDraw) :
    (deliveriesIn f params d s).map Delivery.channel = (reached f params s).filter (sends f params) := by
  unfold deliveriesIn
  induction reached f params s with
  | nil => rfl
  | cons channel channels ih =>
    rw [List.flatMap_cons,List.map_append,channels_deliveriesOf,ih,List.filter_cons]
    split <;> rfl

theorem mem_channels_deliveriesIn {a : ℕ} {channel : NotificationChannel} :
    channel ∈ (deliveriesIn (fails a) params (draw a) s).map Delivery.channel ↔ Delivers fails params s a channel := by
  rw [channels_deliveriesIn,List.mem_filter]
  rfl

/-- The channels sent are distinct when no two of the attempts that run send the same one. -/
theorem nodup_channels_iff :
    (((attemptsRun fails params s 0 attempts).flatMap fun a => deliveriesIn (fails a) params (draw a) s).map
        Delivery.channel).Nodup ↔
      ∀ a b channel, a < b → Runs fails params s b → Delivers fails params s a channel →
        ¬ Delivers fails params s b channel := by
  rw [List.map_flatMap,List.nodup_flatMap]
  constructor
  · rintro ⟨_,hapart⟩ a b channel hab hb ha hb'
    have hruns : Runs fails params s a := ⟨hab.trans hb.1,fun x hx => hb.2 x (hx.trans hab)⟩
    have hsymmetric : Std.Symm (Function.onFun List.Disjoint fun x =>
        (deliveriesIn (fails x) params (draw x) s).map Delivery.channel) := ⟨fun _ _ h _ hx hy => h hy hx⟩
    have hdisjoint := hapart.forall (runs_iff.mpr hruns) (runs_iff.mpr hb) hab.ne
    exact hdisjoint (mem_channels_deliveriesIn.mpr ha) (mem_channels_deliveriesIn.mpr hb')
  · intro hrepeats
    refine ⟨fun a _ => ?_,?_⟩
    · rw [channels_deliveriesIn]
      exact (nodup_reached _).filter _
    · refine (pairwise_attemptsRun 0 attempts).imp_of_mem fun {a b} _ hb hab channel ha hb' => ?_
      exact hrepeats a b channel hab (runs_iff.mp hb) (mem_channels_deliveriesIn.mp ha) (mem_channels_deliveriesIn.mp hb')

/-- The rows left failed were not delivered when no attempt that runs mismarks a channel it sends. -/
theorem failed_iff (hdistinct : Function.Injective fun p : ℕ × NotificationChannel => (draw p.1 p.2).id) :
    (∀ n ∈ (attemptsRun fails params s 0 attempts).flatMap fun a => rowsIn (fails a) params (draw a) s,
        n.status = .failed →
          ∀ d ∈ (attemptsRun fails params s 0 attempts).flatMap fun a => deliveriesIn (fails a) params (draw a) s,
            d.notificationId ≠ n.id) ↔
      ∀ a channel, Runs fails params s a → Delivers fails params s a channel →
        fails a (.markSent channel) = true → fails a (.markFailed channel) = true := by
  constructor
  · intro hfailed a channel ha hdelivers hsent
    by_contra hmarked
    have hstatus := (failed_of_sends (draw a channel) hdelivers.2).mpr ⟨hsent,by simpa using hmarked⟩
    have hrow : rowLeft (fails a) params channel (draw a channel) ∈ rowsOf (fails a) params channel (draw a channel) :=
      mem_rowsOf.mpr ⟨(sends_iff.mp hdelivers.2).1,rfl⟩
    obtain ⟨d,hd⟩ : ∃ d, d ∈ deliveriesOf (fails a) params channel (draw a channel) := by
      have hchannels := channels_deliveriesOf (fails a) params channel (draw a channel)
      rw [if_pos hdelivers.2] at hchannels
      obtain ⟨d,hd,_⟩ := List.mem_map.mp (hchannels ▸ List.mem_singleton_self channel)
      exact ⟨d,hd⟩
    have hall := runs_iff.mpr ha
    refine hfailed _ (List.mem_flatMap.mpr ⟨a,hall,List.mem_flatMap.mpr ⟨channel,hdelivers.1,hrow⟩⟩) hstatus d
      (List.mem_flatMap.mpr ⟨a,hall,List.mem_flatMap.mpr ⟨channel,hdelivers.1,hd⟩⟩) ?_
    rw [notificationId_of_mem_deliveriesOf hd,rowLeft_id]
  · intro hmarks n hn hstatus d hd hsame
    obtain ⟨a,ha,hn⟩ := List.mem_flatMap.mp hn
    obtain ⟨channel,hreached,hn⟩ := List.mem_flatMap.mp hn
    obtain ⟨b,hb,hd⟩ := List.mem_flatMap.mp hd
    obtain ⟨c,hc,hd⟩ := List.mem_flatMap.mp hd
    rw [id_of_mem_rowsOf hn,notificationId_of_mem_deliveriesOf hd] at hsame
    -- a delivery names its own row only
    have hpair : (b,c) = (a,channel) := hdistinct hsame
    obtain ⟨rfl,rfl⟩ := Prod.mk.inj hpair
    have hsends : sends (fails b) params c = true := by
      by_contra hnot
      have hchannels := channels_deliveriesOf (fails b) params c (draw b c)
      rw [if_neg hnot,List.map_eq_nil_iff] at hchannels
      rw [hchannels] at hd
      simp at hd
    rw [(mem_rowsOf.mp hn).2,failed_of_sends _ hsends] at hstatus
    have hmarked := hmarks b c (runs_iff.mp ha) ⟨hreached,hsends⟩ hstatus.1
    rw [hstatus.2] at hmarked
    exact Bool.false_ne_true hmarked

/-- A job sends no channel twice and marks no delivered row failed exactly when its failures leave
neither kind of trace. -/
theorem deliveredOnce_iff_sendsOnce (fails : ℕ → DispatchCall → Bool) (params : NotificationDispatchJobData)
    (draw : ℕ → NotificationChannel → DispatchDraw) (s : Store) (hfresh : FreshDraws draw s) :
    DeliveredOnce s (process fails params draw 0 attempts s) ↔ SendsOnce fails params s := by
  have hjob := process_eq fails params attempts hfresh.distinct
    (a := 0) (fun x _ channel => hfresh.unused x channel)
  have hrows : rowsSince s (process fails params draw 0 attempts s) =
      (attemptsRun fails params s 0 attempts).flatMap fun a => rowsIn (fails a) params (draw a) s := by
    rw [hjob]
    exact List.drop_left
  have hdeliveries : deliveriesSince s (process fails params draw 0 attempts s) =
      (attemptsRun fails params s 0 attempts).flatMap fun a => deliveriesIn (fails a) params (draw a) s := by
    rw [hjob]
    exact List.drop_left
  constructor
  · rintro ⟨hchannels,hfailed⟩
    rw [hdeliveries] at hchannels hfailed
    rw [hrows] at hfailed
    exact ⟨nodup_channels_iff.mp hchannels,(failed_iff hfresh.distinct).mp hfailed⟩
  · rintro ⟨hrepeats,hmarks⟩
    refine ⟨?_,?_⟩
    · rw [hdeliveries]
      exact nodup_channels_iff.mpr hrepeats
    · rw [hdeliveries,hrows]
      exact (failed_iff hfresh.distinct).mpr hmarks

end

/-! A recipient with an e-mail address and a phone number. -/

def reminderJob : NotificationDispatchJobData where
  userId := 1
  companyId := some 2
  category := "filing_deadline"
  title := "1701Q due in 7 days"
  body := "Your BIR 1701Q filing is due."
  recipientAddressByChannel := { email := some "owner@example.ph", sms := some "+639170000000" }
  relatedDeadlineId := some 3

def channelIndex : NotificationChannel → ℕ
  | .email => 0
  | .sms => 1
  | .push => 2
  | .in_app => 3

def numberedDraws (attempt : ℕ) (channel : NotificationChannel) : DispatchDraw := ⟨4*attempt + channelIndex channel,0,0⟩

theorem freshDraws_numberedDraws : FreshDraws numberedDraws {} where
  distinct := by
    rintro ⟨a,c⟩ ⟨b,d⟩ h
    have hids : 4*a + channelIndex c = 4*b + channelIndex d := h
    cases c <;> cases d <;> simp only [channelIndex] at hids <;> first | omega | (congr 1; omega)
  unused := fun _ _ => List.not_mem_nil

/-- An e-mail that could not be sent is marked failed and not tried again. -/
def emailSendFails (_ : ℕ) (call : DispatchCall) : Bool := decide (call = .send .email)

theorem deliveredOnce_iff_sendsOnce_emailSendFails :
    FreshDraws numberedDraws {} ∧ DeliveredOnce {} (process emailSendFails reminderJob numberedDraws 0 attempts {}) := by
  refine ⟨freshDraws_numberedDraws,(deliveredOnce_iff_sendsOnce emailSendFails reminderJob numberedDraws {}
    freshDraws_numberedDraws).mpr ⟨?_,?_⟩⟩
  · intro a b channel hab hruns _ _
    rcases hruns.2 a hab with hfind | ⟨c,hc,hsettles⟩
    · simp [emailSendFails] at hfind
    · simp [settles,emailSendFails] at hsettles
  · intro a channel _ _ hsent
    simp [emailSendFails] at hsent

/-- The e-mail goes out and cannot be marked sent, and then the row of the text message is refused. -/
def emailSentThenRefused (attempt : ℕ) (call : DispatchCall) : Bool :=
  decide (attempt = 0) && (decide (call = .markSent .email) || decide (call = .create .sms))

theorem emailSentThenRefused_delivers_twice :
    let t := process emailSentThenRefused reminderJob numberedDraws 0 attempts {}
    ¬ ((deliveriesSince {} t).map Delivery.channel).Nodup ∧
      (∃ n ∈ rowsSince {} t, n.status = .failed ∧ ∃ d ∈ deliveriesSince {} t, d.notificationId = n.id) ∧
      ¬ DeliveredOnce {} t := by
  have hchannels : (deliveriesSince {} (process emailSentThenRefused reminderJob numberedDraws 0 attempts {})).map
      Delivery.channel = [.email,.email,.sms,.in_app] := by decide
  have hfailed : ∃ n ∈ rowsSince {} (process emailSentThenRefused reminderJob numberedDraws 0 attempts {}),
      n.status = .failed ∧
        ∃ d ∈ deliveriesSince {} (process emailSentThenRefused reminderJob numberedDraws 0 attempts {}),
          d.notificationId = n.id := by decide
  refine ⟨?_,hfailed,fun h => ?_⟩
  · rw [hchannels]
    decide
  · have hnodup := h.channels
    rw [hchannels] at hnodup
    revert hnodup
    decide

end PinoyTax.Notifications
