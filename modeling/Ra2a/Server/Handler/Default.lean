import Ra2a.Server.Event
import Ra2a.Server.Executor
import Ra2a.Server.Push

/-!
# The default request handler

The functions of `server/handler/default.rs`, each run from beginning to end
with nothing in between.  The state is the handler itself, whose fields are the
`Arc`s its clones share.  How requests and executions interleave over it is the
matter of `Threads.lean`.

What the source reads from the outside comes in as an argument: a `Tick` holds
the clock and the identifiers drawn during one operation, a `Receipt` what one
`recv` returned.

`conclude` is the second half of `process_event`, what it does once the event is
persisted.
-/

namespace Ra2a

/-- The clock reading and the identifiers one operation may use: two for a task and
its context, and one for a push configuration. -/
structure Tick where
  now : String
  uuid : String
  uuid' : String
  configUuid : String
  deriving DecidableEq

/-- What one `recv` of a collector returned. -/
inductive Receipt
  | ok (event : Event) (tick : Tick)
  | lagged (n : ℕ)
  | closed (tick : Tick)
  deriving DecidableEq

/-- `EventAction`. -/
inductive EventAction
  | returnWith (r : SendMessageResponse)
  | continueWith (e : Event)
  deriving DecidableEq

/-- One call of `send_push`: what the task is told of, and the `nth` of the
configurations that were listed for it, in whichever order the map had them. -/
structure Push where
  configs : Multiset PushNotificationConfig
  nth : ℕ
  task : Task

/-- The calls a round makes from the `n`-th on, one for each configuration. -/
def sends (configs : Multiset PushNotificationConfig) (task : Task) (n : ℕ) : List Push :=
  (List.range' n (configs.card - n)).map (⟨configs, ·, task⟩)

/-- The state behind the handler's `Arc`s.  `aborts` are the threads whose
`JoinHandle` was told to abort; `pushed` notes the notifications sent. -/
structure DefaultRequestHandler where
  taskStore : InMemoryTaskStore
  queueManager : QueueManager
  pushConfigStore : InMemoryPushNotificationConfigStore
  pushSender : Bool
  reqContextInterceptors : List RequestContextInterceptor
  runningTasks : Finmap fun _ : String => ℕ
  aborts : List ℕ
  pushed : List Push

/-- `return_immediately`, and `true` when the request has no configuration. -/
def SendMessageRequest.isNonBlocking (p : SendMessageRequest) : Bool :=
  match p.configuration with
  | none => true
  | some c => c.returnImmediately

/-- `apply_history_length`. -/
def applyHistoryLength (task : Task) (historyLength : Option Int32) : Task :=
  match historyLength with
  | none => task
  | some len =>
    if len ≤ 0 then { task with history := [] }
    else if len.toNatClampNeg < task.history.length then
      { task with history := task.history.drop (task.history.length - len.toNatClampNeg) }
    else task

/-- The last thing `on_message_send` does to its answer. -/
def SendMessageRequest.trim (p : SendMessageRequest) : SendMessageResponse → SendMessageResponse
  | .task t =>
    match p.configuration with
    | some config => .task (applyHistoryLength t config.historyLength)
    | none => .task t
  | .message m => .message m

/-- `should_interrupt_non_streaming`. -/
def shouldInterruptNonStreaming (isNonBlocking : Bool) (event : Event) : Option (String × Bool) :=
  if isNonBlocking then
    match event with
    | .message _ => none
    | _ => if event.taskId.isEmpty then none else some (event.taskId, true)
  else
    match event with
    | .task t => if t.status.state = .authRequired then some (t.id, true) else none
    | .statusUpdate e => if e.status.state = .authRequired then some (e.taskId, true) else none
    | _ => none

/-- The record both failure paths put in the place of a task. -/
def failedTask (id contextId : String) (error : A2AError) (tick : Tick) : Task :=
  (Task.new id contextId tick.now).withStatus (.failed error.display tick.now tick.uuid)

namespace DefaultRequestHandler

/-- `DefaultRequestHandler::new`. -/
def new : DefaultRequestHandler where
  taskStore := .new
  queueManager := .new
  pushConfigStore := .new
  pushSender := false
  reqContextInterceptors := []
  runningTasks := ∅
  aborts := []
  pushed := []

variable (h : DefaultRequestHandler)

/-- `get_task_internal`. -/
def getTaskInternal (taskId : String) : Option Task := h.taskStore.task? taskId

/-- `store_task`: an unconditional save, whose error is logged. -/
def storeTask (task : Task) : DefaultRequestHandler :=
  { h with taskStore := (h.taskStore.save task .MISSING).2 }

/-! ### The request context -/

/-- The task id, the context id and the stored task a message names. -/
def resolveIds (message : Message) (tick : Tick) :
    Except A2AError (String × String × Option Task) :=
  match message.taskId, message.contextId with
  | some tid, some cid => .ok (tid, cid, h.getTaskInternal tid)
  | some tid, none =>
    match h.getTaskInternal tid with
    | some stored => .ok (tid, stored.contextId, some stored)
    | none => .error (.taskNotFound tid)
  | none, some cid => .ok (tick.uuid, cid, none)
  | none, none => .ok (tick.uuid, tick.uuid', none)

/-- `build_request_context` up to the push configuration, and the context it
builds. -/
def resolveContext (params : SendMessageRequest)
    (serviceParams : Finmap fun _ : String => List String) (tick : Tick) :
    Except A2AError RequestContext :=
  if params.message.id.isEmpty then .error (.invalidParams "message ID is required")
  else if params.message.parts.isEmpty then .error (.invalidParams "message parts is required")
  else
    match h.resolveIds params.message tick with
    | .error e => .error e
    | .ok (taskId, contextId, storedTask) =>
      match storedTask.filter Task.isTerminal with
      | some t =>
        .error (.invalidParams s!"Task {taskId} is in terminal state: {t.status.state.debug}")
      | none => .ok
        { RequestContext.new taskId contextId with
          message := some params.message
          storedTask := storedTask
          metadata := params.metadata.getD ∅
          tenant := params.tenant
          serviceParams := serviceParams }

/-- The push configuration a request carries, saved for its task; an error is
logged. -/
def saveInlinePushConfig (params : SendMessageRequest) (taskId : String) (tick : Tick) :
    DefaultRequestHandler :=
  match params.configuration.bind SendMessageConfiguration.taskPushNotificationConfig with
  | none => h
  | some tpc =>
    { h with pushConfigStore := (h.pushConfigStore.save taskId
        ⟨tpc.id, tpc.url, tpc.token, tpc.authentication⟩ tick.configUuid).2 }

/-- The interceptors, in the order of registration. -/
def intercept (ctx : RequestContext) : Except A2AError RequestContext :=
  h.reqContextInterceptors.foldlM (fun ctx i => i h.taskStore ctx) ctx

/-- What `build_request_context` comes to. -/
inductive Built
  | refused (e : A2AError)
  | panicked
  | ready (ctx : RequestContext) (queue : ℕ)

/-- `build_request_context`. -/
def buildRequestContext (params : SendMessageRequest)
    (serviceParams : Finmap fun _ : String => List String) (tick : Tick) :
    DefaultRequestHandler × Built :=
  match h.resolveContext params serviceParams tick with
  | .error e => (h, .refused e)
  | .ok ctx =>
    let h := h.saveInlinePushConfig params ctx.taskId tick
    match h.intercept ctx with
    | .error e => (h, .refused e)
    | .ok ctx' =>
      match h.queueManager.getOrCreateQueue ctx.taskId with
      | none => (h, .panicked)
      | some (q, m) => ({ h with queueManager := m }, .ready ctx' q)

/-! ### One event -/

/-- The configurations `notify_push` goes over: none where there is no sender. -/
def pushConfigs (taskId : String) : Multiset PushNotificationConfig :=
  if h.pushSender then h.pushConfigStore.list taskId else 0

/-- A call of `send_push`, whose error is logged. -/
def sendPush (p : Push) : DefaultRequestHandler := { h with pushed := h.pushed ++ [p] }

/-- `notify_push`. -/
def notifyPush (task : Task) : DefaultRequestHandler :=
  (sends (h.pushConfigs task.id) task 0).foldl sendPush h

/-- `persist_event_snapshot`. -/
def persistEventSnapshot (event : Event) (now : String) : DefaultRequestHandler :=
  match event with
  | .task t => (h.storeTask t).notifyPush t
  | .statusUpdate e =>
    match h.getTaskInternal e.taskId with
    | some t =>
      let t := t.withStatus (.new e.status.state now)
      (h.storeTask t).notifyPush t
    | none => h
  | _ => h

/-- The stored task, or the fallback the handler makes up for one. -/
def taskOrFallback (taskId now : String) : Task :=
  (h.getTaskInternal taskId).getD (.new taskId "" now)

/-- `process_event` once the event is persisted. -/
def conclude (event : Event) (isNonBlocking : Bool) (now : String) :
    Except A2AError EventAction :=
  match shouldInterruptNonStreaming isNonBlocking event with
  | some (taskId, true) => .ok (.returnWith (.task (h.taskOrFallback taskId now)))
  | _ =>
    if event.isTerminal then
      match event with
      | .task t => .ok (.returnWith (.task t))
      | .message m => .ok (.returnWith (.message m))
      | .statusUpdate e => .ok (.returnWith (.task (h.taskOrFallback e.taskId now)))
      | .artifactUpdate _ => .error (.other "Unexpected terminal event")
    else .ok (.continueWith event)

/-- `process_event`. -/
def processEvent (event : Event) (isNonBlocking : Bool) (tick : Tick) :
    DefaultRequestHandler × Except A2AError EventAction :=
  let h := h.persistEventSnapshot event tick.now
  (h, h.conclude event isNonBlocking tick.now)

/-! ### The collector -/

/-- `resolve_task_from_event`. -/
def resolveTaskFromEvent (event : Event) (now : String) : Except A2AError SendMessageResponse :=
  if event.taskId.isEmpty then .error (.other "Event has no task ID")
  else .ok (.task (h.taskOrFallback event.taskId now))

/-- `finalize_on_close`. -/
def finalizeOnClose (lastEvent : Option Event) (now : String) :
    Except A2AError SendMessageResponse :=
  match lastEvent with
  | none => .error (.other "Event queue closed unexpectedly")
  | some (.task t) => .ok (.task t)
  | some (.message m) => .ok (.message m)
  | some ev => h.resolveTaskFromEvent ev now

/-- `collect_result` on what its receives return; no result when it has used
them up and waits for another. -/
def collectResult (isNonBlocking : Bool) : DefaultRequestHandler → Option Event → List Receipt →
    DefaultRequestHandler × Option (Except A2AError SendMessageResponse)
  | h, _, [] => (h, none)
  | h, lastEvent, .closed tick :: _ => (h, some (h.finalizeOnClose lastEvent tick.now))
  | h, lastEvent, .lagged _ :: rest => collectResult isNonBlocking h lastEvent rest
  | h, _, .ok event tick :: rest =>
    match h.processEvent event isNonBlocking tick with
    | (h, .error e) => (h, some (.error e))
    | (h, .ok (.returnWith r)) => (h, some (.ok r))
    | (h, .ok (.continueWith ev)) => collectResult isNonBlocking h (some ev) rest

/-- `on_message_send` once `build_request_context` has given it `ctx`. -/
def messageSend (params : SendMessageRequest) (ctx : RequestContext) (receipts : List Receipt) :
    DefaultRequestHandler × Option (Except A2AError SendMessageResponse) :=
  match collectResult params.isNonBlocking h none receipts with
  | (h, some (.ok result)) =>
    ({ h with queueManager := h.queueManager.removeQueue ctx.taskId },
      some (.ok (params.trim result)))
  | (h, r) => (h, r)

/-! ### Streams -/

/-- `broadcast_recv_next`. -/
def broadcastRecvNext : Receipt → Option (Except A2AError Event)
  | .ok event _ => some (.ok event)
  | .closed _ => none
  | .lagged n => some (.error (.other s!"Lagged by {n} events"))

/-- The items of the stream unfolded from a receiver. -/
def streamItems : List Receipt → List (Except A2AError Event)
  | [] => []
  | r :: rest =>
    match broadcastRecvNext r with
    | some item => item :: streamItems rest
    | none => []

/-- `on_message_stream` once `build_request_context` has accepted: the handler
hands the receiver out and keeps no part in what it reads. -/
def messageStream (receipts : List Receipt) :
    DefaultRequestHandler × List (Except A2AError Event) :=
  (h, streamItems receipts)

/-- `on_subscribe_to_task`: the queue its stream reads, and from where. -/
def onSubscribeToTask (params : SubscribeToTaskRequest) : Except A2AError (ℕ × ℕ) :=
  match h.getTaskInternal params.id with
  | none => .error (.taskNotFound params.id)
  | some t =>
    if t.isTerminal then
      .error (.invalidParams s!"Task {params.id} is in terminal state: {t.status.state.debug}")
    else
      match h.queueManager.getQueue params.id with
      | none => .error (.taskNotFound params.id)
      | some q => .ok (q, (h.queueManager.log q).length)

/-! ### The failure paths -/

/-- `spawn_execution` when `execute` fails: the handler, and the event that is
sent. -/
def executeFailed (ctx : RequestContext) (error : A2AError) (tick : Tick) :
    DefaultRequestHandler × Event :=
  let task := failedTask ctx.taskId ctx.contextId error tick
  (h.storeTask task, .task task)

/-- `run_cancel` when `cancel` fails. -/
def cancelFailed (ctx : RequestContext) (tid : String) (error : A2AError) (tick : Tick) :
    DefaultRequestHandler × Event :=
  let task := failedTask tid ctx.contextId error tick
  (h.storeTask task, .task task)

end DefaultRequestHandler

end Ra2a
