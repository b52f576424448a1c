import Ra2a.Server.Handler.Collect

/-!
# Three ways to send one message

`message/send` persists and notifies through its collector, up to the event it
stops at; `message/stream` hands its receiver to the client and does neither.
So the three modes leave the same record and the same notifications exactly when
neither collector writes anything new and neither notifies anyone
(`modes_agree_iff`).
-/

namespace Ra2a

/-- The request with a configuration that says whether to return immediately. -/
def SendMessageRequest.returning (p : SendMessageRequest) (c : SendMessageConfiguration)
    (immediately : Bool) : SendMessageRequest :=
  { p with configuration := some { c with returnImmediately := immediately } }

namespace DefaultRequestHandler

variable (h : DefaultRequestHandler)

/-- What `on_message_send` leaves, on what its collector receives. -/
def onMessageSend (params : SendMessageRequest)
    (serviceParams : Finmap fun _ : String => List String) (tick : Tick)
    (receipts : List Receipt) : DefaultRequestHandler :=
  match h.buildRequestContext params serviceParams tick with
  | (h, .ready ctx _) => (h.messageSend params ctx receipts).1
  | (h, _) => h

/-- What `on_message_stream` leaves, on what its client receives. -/
def onMessageStream (params : SendMessageRequest)
    (serviceParams : Finmap fun _ : String => List String) (tick : Tick)
    (receipts : List Receipt) : DefaultRequestHandler :=
  match h.buildRequestContext params serviceParams tick with
  | (h, .ready _ _) => (h.messageStream receipts).1
  | (h, _) => h

/-- The record of a task, and the notifications sent. -/
def effects (k : TaskId) : Option Task × List Push :=
  (h.getTaskInternal k, h.pushed)

/-! ### Notifications -/

/-- Somebody asked to be told about task `k`. -/
def Subscribed (k : TaskId) : Prop :=
  h.pushSender = true ∧ (h.pushConfigStore.ofTask k).entries ≠ 0

/-- An event that comes after the events `pre` is told about: a Task event of a
task somebody asked for, or a status update of one that has a record by then. -/
def Notifies (pre : List (Event × Tick)) : Event → Prop
  | .task t => h.Subscribed t.id
  | .statusUpdate e =>
    h.Subscribed e.taskId ∧
      (h.getTaskInternal e.taskId ≠ none ∨ ∃ u tick, (.task u, tick) ∈ pre ∧ u.id = e.taskId)
  | _ => False

variable {h}

/-- Persisting touches the records and the notifications sent. -/
theorem persistEventSnapshot_eq (event : Event) (now : String) :
    ∃ store pushed,
      h.persistEventSnapshot event now = { h with taskStore := store, pushed := pushed } := by
  cases event with
  | task t => exact ⟨_, _, notifyPush_eq t⟩
  | statusUpdate e =>
    rw [persistEventSnapshot]
    cases h.getTaskInternal e.taskId with
    | none => exact ⟨_, _, rfl⟩
    | some t => exact ⟨_, _, notifyPush_eq (t.withStatus (.new e.status.state now))⟩
  | message m => exact ⟨_, _, rfl⟩
  | artifactUpdate e => exact ⟨_, _, rfl⟩

@[simp] theorem pushSender_persistEventSnapshot (event : Event) (now : String) :
    (h.persistEventSnapshot event now).pushSender = h.pushSender := by
  obtain ⟨_, _, he⟩ := h.persistEventSnapshot_eq event now
  rw [he]

@[simp] theorem pushConfigStore_persistEventSnapshot (event : Event) (now : String) :
    (h.persistEventSnapshot event now).pushConfigStore = h.pushConfigStore := by
  obtain ⟨_, _, he⟩ := h.persistEventSnapshot_eq event now
  rw [he]

/-- Persisting asks nobody to be told, and stops telling nobody. -/
theorem subscribed_persistAll (events : List (Event × Tick)) (k : TaskId) :
    (h.persistAll events).Subscribed k ↔ h.Subscribed k := by
  induction events using List.reverseRecOn with
  | nil => exact Iff.rfl
  | append_singleton events p ih =>
    obtain ⟨event, tick⟩ := p
    rw [← ih, persistAll_append, Subscribed, Subscribed, pushSender_persistEventSnapshot,
      pushConfigStore_persistEventSnapshot]

/-- A record is there after some events if it was at first or one of them is it. -/
theorem stored_persistAll_iff (events : List (Event × Tick)) (k : TaskId) :
    (h.persistAll events).getTaskInternal k ≠ none ↔
      h.getTaskInternal k ≠ none ∨ ∃ u tick, (.task u, tick) ∈ events ∧ u.id = k := by
  rw [getTaskInternal_persistAll, Cell.run_eq]
  cases hs : Cell.snapshot (writesTo k events) with
  | some u =>
    obtain ⟨hu, tick, hm⟩ := put_mem_writesTo.mp (Cell.mem_of_snapshot hs)
    rw [Option.some_or, foldl_persisted_some]
    exact ⟨fun _ => Or.inr ⟨u, tick, hm, hu⟩, fun _ => by simp⟩
  | none =>
    have hno : ¬ ∃ u tick, ((.task u, tick) : Event × Tick) ∈ events ∧ u.id = k := by
      rintro ⟨u, tick, hm, hu⟩
      exact Cell.snapshot_ne_none (put_mem_writesTo.mpr ⟨hu, tick, hm⟩) hs
    rw [or_iff_left hno, Option.none_or]
    cases h.getTaskInternal k with
    | none => rw [foldl_persisted_none]
    | some r => rw [foldl_persisted_some]; simp

theorem pushConfigs_eq_zero_iff {k : TaskId} : h.pushConfigs k = 0 ↔ ¬ h.Subscribed k := by
  rw [pushConfigs, Subscribed, not_and_not_right]
  split
  · rename_i hsender
    rw [InMemoryPushNotificationConfigStore.list, Multiset.map_eq_zero]
    exact ⟨fun hnone _ => hnone, fun hnone => hnone hsender⟩
  · rename_i hsender
    exact iff_of_true rfl fun hs => absurd hs hsender

/-- `notify_push` sends one round, or nothing when nobody asked. -/
theorem pushed_notifyPush (t : Task) :
    ∃ more, (h.notifyPush t).pushed = h.pushed ++ more ∧ (more = [] ↔ ¬ h.Subscribed t.id) := by
  refine ⟨sends (h.pushConfigs t.id) t 0, by rw [notifyPush_eq], ?_⟩
  rw [sends_eq_nil_iff, pushConfigs_eq_zero_iff]

/-- One event adds to the notifications what it has to. -/
theorem pushed_persistEventSnapshot (pre : List (Event × Tick)) (event : Event) (now : String) :
    ∃ more, ((h.persistAll pre).persistEventSnapshot event now).pushed =
      (h.persistAll pre).pushed ++ more ∧ (more = [] ↔ ¬ h.Notifies pre event) := by
  cases event with
  | message m => exact ⟨[], by simp [persistEventSnapshot], by simp [Notifies]⟩
  | artifactUpdate e => exact ⟨[], by simp [persistEventSnapshot], by simp [Notifies]⟩
  | task t =>
    obtain ⟨more, hm, he⟩ := pushed_notifyPush (h := (h.persistAll pre).storeTask t) t
    refine ⟨more, hm, ?_⟩
    rw [he, Notifies]
    exact not_congr (subscribed_persistAll pre t.id)
  | statusUpdate e =>
    rw [persistEventSnapshot]
    have hst := stored_persistAll_iff (h := h) pre e.taskId
    cases ht : (h.persistAll pre).getTaskInternal e.taskId with
    | none =>
      refine ⟨[], by simp, ?_⟩
      rw [Notifies, ← hst, ht]
      simp
    | some t =>
      obtain ⟨more, hm, he⟩ := pushed_notifyPush
        (h := (h.persistAll pre).storeTask (t.withStatus (.new e.status.state now)))
        (t.withStatus (.new e.status.state now))
      refine ⟨more, hm, ?_⟩
      rw [he, Notifies, ← hst, ht, Task.withStatus_id, id_of_getTaskInternal ht]
      simp only [ne_eq, reduceCtorEq, not_false_eq_true, and_true]
      exact not_congr (subscribed_persistAll pre e.taskId)

/-- **Some events notify no one exactly when none of them is told about.** -/
theorem pushed_persistAll_iff (events : List (Event × Tick)) :
    (h.persistAll events).pushed = h.pushed ↔
      ∀ pre event tick post, events = pre ++ (event, tick) :: post → ¬ h.Notifies pre event := by
  suffices hmore : ∃ more, (h.persistAll events).pushed = h.pushed ++ more ∧ (more = [] ↔
      ∀ pre event tick post, events = pre ++ (event, tick) :: post → ¬ h.Notifies pre event) by
    obtain ⟨more, hm, he⟩ := hmore
    rw [hm, ← he, List.append_right_eq_self]
  induction events using List.reverseRecOn with
  | nil => exact ⟨[], by simp [persistAll], by simp⟩
  | append_singleton events p ih =>
    obtain ⟨event, tick⟩ := p
    obtain ⟨more, hm, he⟩ := ih
    obtain ⟨last, hl, hle⟩ := pushed_persistEventSnapshot (h := h) events event tick.now
    refine ⟨more ++ last, by rw [persistAll_append, hl, hm, List.append_assoc], ?_⟩
    rw [List.append_eq_nil_iff, he, hle]
    constructor
    · rintro ⟨hall, hlast⟩ pre e t post hp
      rcases List.eq_nil_or_concat post with rfl | ⟨post', q, rfl⟩
      · obtain ⟨rfl, hq⟩ := List.append_inj' hp rfl
        cases hq
        exact hlast
      · rw [List.concat_eq_append, ← List.cons_append, ← List.append_assoc] at hp
        exact hall pre e t post' (List.append_inj' hp rfl).1
    · intro hall
      exact ⟨fun pre e t post hp => hall pre e t (post ++ [(event, tick)]) (by rw [hp]; simp),
        hall events event tick [] rfl⟩

/-! ### The record -/

/-- The events `events` write to the record of task `k` what is there already:
the last Task event of `k`, with the last status update after it; or, where there
is no Task event, the last status update, if there is a record for it. -/
def WritesNothingNew (h : DefaultRequestHandler) (k : TaskId) (events : List (Event × Tick)) :
    Prop :=
  match Cell.snapshot (writesTo k events) with
  | some t => h.getTaskInternal k =
      some (t.withStatus (restamped (Cell.since (writesTo k events)) t.status))
  | none => ∀ t, h.getTaskInternal k = some t →
      restamped (Cell.since (writesTo k events)) t.status = t.status

theorem getTaskInternal_persistAll_eq_iff (events : List (Event × Tick)) (k : TaskId) :
    (h.persistAll events).getTaskInternal k = h.getTaskInternal k ↔
      h.WritesNothingNew k events := by
  rw [getTaskInternal_persistAll, Cell.run_eq, WritesNothingNew]
  cases Cell.snapshot (writesTo k events) with
  | some t => rw [Option.some_or, foldl_persisted_some, eq_comm]
  | none =>
    rw [Option.none_or]
    cases h.getTaskInternal k with
    | none => simp [foldl_persisted_none]
    | some r => simp [foldl_persisted_some, Task.withStatus_eq_self]

/-! ### The three modes -/

/-- A collector that stops as `nb` says has no effect on task `k`: none of the
events it processes is told about, and they write nothing new. -/
def Effectless (h : DefaultRequestHandler) (k : TaskId) (nb : Bool) (receipts : List Receipt) :
    Prop :=
  (∀ pre event tick post, processed nb receipts = pre ++ (event, tick) :: post →
      ¬ h.Notifies pre event) ∧
    h.WritesNothingNew k (processed nb receipts)

theorem effects_persistAll_iff (k : TaskId) (nb : Bool) (receipts : List Receipt) :
    (h.persistAll (processed nb receipts)).effects k = h.effects k ↔
      h.Effectless k nb receipts := by
  rw [effects, effects, Prod.mk.injEq, getTaskInternal_persistAll_eq_iff, pushed_persistAll_iff,
    and_comm, Effectless]

/-- Removing the queue at the end has no part in the effects. -/
theorem effects_messageSend (k : TaskId) (params : SendMessageRequest) (ctx : RequestContext)
    (receipts : List Receipt) :
    (h.messageSend params ctx receipts).1.effects k =
      (h.persistAll (processed params.isNonBlocking receipts)).effects k := by
  rw [← collectResult_fst _ none, messageSend]
  split
  · rename_i h' result hc
    rw [hc]
    rfl
  · rename_i h' r hn hc
    rw [hc]

/-- **The three modes agree exactly when neither collector has an effect**, the
blocking one and the one that returns at once; the stream has none. -/
theorem modes_agree_iff {h' : DefaultRequestHandler} {p : SendMessageRequest}
    {c : SendMessageConfiguration} {serviceParams : Finmap fun _ : String => List String}
    {tick : Tick} {ctx : RequestContext} {q : ℕ}
    (haccepted : h.buildRequestContext (p.returning c false) serviceParams tick =
      (h', .ready ctx q))
    (receipts : List Receipt) :
    ((h.onMessageSend (p.returning c false) serviceParams tick receipts).effects ctx.taskId =
          (h.onMessageSend (p.returning c true) serviceParams tick receipts).effects ctx.taskId ∧
        (h.onMessageSend (p.returning c true) serviceParams tick receipts).effects ctx.taskId =
          (h.onMessageStream (p.returning c true) serviceParams tick receipts).effects ctx.taskId) ↔
      h'.Effectless ctx.taskId false receipts ∧ h'.Effectless ctx.taskId true receipts := by
  have htrue : h.buildRequestContext (p.returning c true) serviceParams tick =
      (h', .ready ctx q) := haccepted
  have hsend : ∀ b, h.buildRequestContext (p.returning c b) serviceParams tick =
      (h', .ready ctx q) →
      (h.onMessageSend (p.returning c b) serviceParams tick receipts).effects ctx.taskId =
        (h'.persistAll (processed b receipts)).effects ctx.taskId := by
    intro b hb
    rw [onMessageSend, hb]
    exact effects_messageSend ctx.taskId (p.returning c b) ctx receipts
  have hstream : h.onMessageStream (p.returning c true) serviceParams tick receipts = h' := by
    rw [onMessageStream, htrue]
    rfl
  rw [hsend false haccepted, hsend true htrue, hstream, ← effects_persistAll_iff,
    ← effects_persistAll_iff]
  constructor
  · rintro ⟨hb, hn⟩
    exact ⟨hb.trans hn, hn⟩
  · rintro ⟨hb, hn⟩
    exact ⟨hb.trans hn.symm, hn⟩

/-! ### A task of two events -/

/-- A blocking send of one message. -/
def helloSend : SendMessageRequest where
  tenant := none
  message := { Message.new "m1" .user [.text "hello"] with
    taskId := some "t1", contextId := some "c1" }
  configuration := none
  metadata := none

def helloTick : Tick := ⟨"12:00", "u1", "u2", "v1"⟩

def helloConfiguration : SendMessageConfiguration := ⟨[], none, none, false⟩

/-- The executor sends a task in work and then the task completed. -/
def helloReceipts : List Receipt :=
  [.ok (.task ⟨"t1", "c1", ⟨.working, none, none⟩, [], [], none⟩) ⟨"12:01", "u1", "u2", "v1"⟩,
    .ok (.task ⟨"t1", "c1", ⟨.completed, none, none⟩, [], [], none⟩) ⟨"12:02", "u1", "u2", "v1"⟩]

/-- The handler once it has accepted `helloSend`. -/
def helloAccepted : DefaultRequestHandler :=
  (new.buildRequestContext (helloSend.returning helloConfiguration false) ∅
    helloTick).1

def helloContext : RequestContext :=
  { RequestContext.new "t1" "c1" with message := some helloSend.message }

theorem helloSend_accepted :
    new.buildRequestContext (helloSend.returning helloConfiguration false) ∅ helloTick =
      (helloAccepted, .ready helloContext 0) := rfl

/-- The blocking send stores it completed, the other stores it in work, and the
stream stores nothing. -/
theorem modes_disagree :
    ((new.onMessageSend (helloSend.returning helloConfiguration false) ∅ helloTick
          helloReceipts).effects "t1").1.map (·.status.state) = some .completed ∧
      ((new.onMessageSend (helloSend.returning helloConfiguration true) ∅ helloTick
          helloReceipts).effects "t1").1.map (·.status.state) = some .working ∧
      ((new.onMessageStream (helloSend.returning helloConfiguration true) ∅ helloTick
          helloReceipts).effects "t1").1 = none := by
  decide

theorem modes_agree_iff_hello :
    ((new.onMessageSend (helloSend.returning helloConfiguration false) ∅ helloTick
            helloReceipts).effects helloContext.taskId =
          (new.onMessageSend (helloSend.returning helloConfiguration true) ∅ helloTick
            helloReceipts).effects helloContext.taskId ∧
        (new.onMessageSend (helloSend.returning helloConfiguration true) ∅ helloTick
            helloReceipts).effects helloContext.taskId =
          (new.onMessageStream (helloSend.returning helloConfiguration true) ∅
            helloTick helloReceipts).effects helloContext.taskId) ↔
      helloAccepted.Effectless helloContext.taskId false helloReceipts ∧
        helloAccepted.Effectless helloContext.taskId true helloReceipts :=
  modes_agree_iff helloSend_accepted helloReceipts

end DefaultRequestHandler

end Ra2a
