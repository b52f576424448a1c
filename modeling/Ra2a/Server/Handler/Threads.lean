import Ra2a.Lib.Interleave
import Ra2a.Server.Handler.Failure

/-!
# Requests and executions, interleaved

The handler under concurrent calls.  Each call of `on_message_send`,
`on_message_stream`, `on_cancel_task` and `on_subscribe_to_task` is a thread,
each execution it spawns is one, and so is the small task that registers the
execution's handle.  A step of a thread is the code between two of its awaits:
one access of the store, of the queue manager, of a queue or of the running
tasks, or one notification.  Two things are one step that are more in the source.
`save` draws a version before it locks the map, but nobody here looks at versions.
A request subscribes and then spawns, and what it spawns might as well have been
waiting for its first turn.  A notification is a step of its own: a request given
up while one is under way has sent it or has not.

An executor is any behaviour: a running execution may emit any event, return,
fail or panic at any time.  It is aborted only once its handle was told to.  A
client may give a request up at any time.

`EventQueue::send` fails when nobody is subscribed, and the value is lost.  Here
it goes to the log all the same: a receiver starts at the end of the log, so it
is lost too.

Some fields are there for the proofs only.  A collector has where it subscribed
and the execution its request spawned, a request what it has received, and an
execution the request that spawned it and the id that request's queue was got
under.
-/

namespace Ra2a

open Broadcast Interleave

/-! ### Threads -/

/-- A call of one of the four methods that work on queues. -/
inductive Call
  | messageSend (params : SendMessageRequest)
  | messageStream (params : SendMessageRequest)
  | cancelTask (params : CancelTaskRequest)
  | subscribeToTask (params : SubscribeToTaskRequest)

namespace Call

/-- The argument the call's `collect_result` gets. -/
def isNonBlocking : Call → Bool
  | messageSend params => params.isNonBlocking
  | _ => false

/-- What the call makes of the response collected. -/
def finish : Call → SendMessageResponse → Except A2AError SendMessageResponse
  | messageSend params, r => .ok (params.trim r)
  | cancelTask _, .message _ => .error (.other "Cancel did not produce a Task")
  | _, r => .ok r

end Call

structure Collector where
  queue : ℕ
  pos : ℕ
  lastEvent : Option Event
  since : ℕ
  own : ℕ

/-- Where `collect_result` is. -/
inductive Phase
  | receiving
  | persisting (event : Event)
  | updating (e : TaskStatusUpdateEvent) (t : Task)
  | notifying (event : Event) (t : Task)
  | pushing (event : Event) (t : Task) (configs : Multiset PushNotificationConfig) (n : ℕ)
  | persisted (event : Event)
  | closing

/-- The loop of `notify_push` before its `n`-th call of `send_push`. -/
def Phase.pushingFrom (event : Event) (t : Task) (configs : Multiset PushNotificationConfig)
    (n : ℕ) : Phase :=
  if n < configs.card then .pushing event t configs n else .persisted event

inductive Outcome
  | refused (e : A2AError)
  | answered (c : Collector) (result : Except A2AError SendMessageResponse)
  | streamed
  | panicked

/-- Where a request is.  `key` is the id its queue is got under, and `removes`
the one it is removed under. -/
inductive Pc
  | received
  | resolved (ctx : RequestContext)
  | intercepting (key : TaskId) (ctx : RequestContext) (next : ℕ)
  | canceling (task : Task)
  | queueing (key : TaskId) (ctx : RequestContext)
  | queued (key : TaskId) (ctx : RequestContext) (queue : ℕ)
  | collecting (removes : TaskId) (c : Collector) (phase : Phase)
  | returning (removes : TaskId) (c : Collector) (r : SendMessageResponse)
  | locating
  | located (queue : ℕ)
  | streaming (queue pos : ℕ)
  | done (outcome : Outcome)
  | dropped

structure Request where
  call : Call
  serviceParams : Finmap fun _ : String => List String
  pc : Pc
  received : List Sent

/-- How an execution ended. -/
inductive End
  | ok
  | err
  | panicked
  | aborted
  deriving DecidableEq

/-- Where an execution is: in the executor, or on the failure path before its
save and before its send. -/
inductive ExecutionPc
  | running
  | failing (task : Task)
  | echoing (task : Task)
  | finished (how : End)

structure Execution where
  job : Job
  ctx : RequestContext
  key : TaskId
  queue : ℕ
  owner : ℕ
  pc : ExecutionPc

/-- The task that puts the handle of an execution among the running ones. -/
structure Registration where
  taskId : TaskId
  execution : ℕ
  stored : Bool

inductive Thread
  | request (r : Request)
  | execution (x : Execution)
  | registration (g : Registration)

/-- What the outside decides about one step. -/
inductive Move
  | tick (t : Tick)
  | emit (e : Event)
  | succeed
  | panic
  | fail (e : A2AError) (t : Tick)
  | abort
  | drop

def Request.goto (r : Request) (pc : Pc) : Request := { r with pc := pc }

def Execution.goto (x : Execution) (pc : ExecutionPc) : Execution := { x with pc := pc }

section

variable (r : Request) (pc : Pc) (x : Execution) (xpc : ExecutionPc)

@[simp] theorem Request.goto_pc : (r.goto pc).pc = pc := rfl

@[simp] theorem Request.goto_call : (r.goto pc).call = r.call := rfl

@[simp] theorem Request.goto_received : (r.goto pc).received = r.received := rfl

@[simp] theorem Execution.goto_pc : (x.goto xpc).pc = xpc := rfl

end

def ExecutionPc.isFinished : ExecutionPc → Bool
  | .finished _ => true
  | _ => false

/-- Whether the thread keeps an `Arc` of queue `q`.  A call keeps its own until
it returns; a stream that was handed out has a receiver only. -/
def Thread.holdsSender (q : ℕ) : Thread → Bool
  | .request r =>
    match r.pc with
    | .queued _ _ q' => q' = q
    | .located q' => q' = q
    | .collecting _ c _ => c.queue = q
    | .returning _ c _ => c.queue = q
    | _ => false
  | .execution x => !x.pc.isFinished && decide (x.queue = q)
  | .registration _ => false

namespace DefaultRequestHandler

variable (h : DefaultRequestHandler)

/-- Whether a sender of queue `q` is left. -/
def hasSender (threads : List Thread) (q : ℕ) : Bool :=
  h.queueManager.maps q || threads.any (·.holdsSender q)

/-- A receive at position `pos` of queue `q`. -/
def recv (threads : List Thread) (q pos : ℕ) : Option (Received Sent × ℕ) :=
  (h.queueManager.channel q).bind fun c => c.recv (!h.hasSender threads q) pos

/-- The section of `on_cancel_task` that holds the running tasks. -/
def abortRunning (taskId : TaskId) : DefaultRequestHandler :=
  match h.runningTasks.lookup taskId with
  | none => h
  | some handle =>
    { h with runningTasks := h.runningTasks.erase taskId, aborts := handle :: h.aborts }

/-- The context `on_cancel_task` builds. -/
def cancelContext (task : Task) : RequestContext :=
  { RequestContext.new task.id task.contextId with storedTask := some task }

end DefaultRequestHandler

/-! ### Steps -/

namespace Request

variable (r : Request) (h : DefaultRequestHandler) (threads : List Thread) (i : ℕ) (tick : Tick)

/-- A step of `collect_result`. -/
def collect (removes : TaskId) (c : Collector) :
    Phase → Option (DefaultRequestHandler × Request)
  | .receiving =>
    match h.recv threads c.queue c.pos with
    | some (.ok sent, pos) => some (h, { r with
        pc := .collecting removes { c with pos := pos } (.persisting sent.event)
        received := r.received ++ [sent] })
    | some (.lagged _, pos) =>
      some (h, r.goto (.collecting removes { c with pos := pos } .receiving))
    | some (.closed, _) => some (h, r.goto (.collecting removes c .closing))
    | none => none
  | .persisting event =>
    match event with
    | .task t => some (h.storeTask t, r.goto (.collecting removes c (.notifying event t)))
    | .statusUpdate e =>
      match h.getTaskInternal e.taskId with
      | some t =>
        let t := t.withStatus (.new e.status.state tick.now)
        some (h, r.goto (.collecting removes c (.updating e t)))
      | none => some (h, r.goto (.collecting removes c (.persisted event)))
    | _ => some (h, r.goto (.collecting removes c (.persisted event)))
  | .updating e t =>
    some (h.storeTask t, r.goto (.collecting removes c (.notifying (.statusUpdate e) t)))
  | .notifying event t =>
    some (h, r.goto (.collecting removes c (.pushingFrom event t (h.pushConfigs t.id) 0)))
  | .pushing event t configs n =>
    some (h.sendPush ⟨configs, n, t⟩,
      r.goto (.collecting removes c (.pushingFrom event t configs (n + 1))))
  | .persisted event =>
    match h.conclude event r.call.isNonBlocking tick.now with
    | .error e => some (h, r.goto (.done (.answered c (.error e))))
    | .ok (.returnWith resp) => some (h, r.goto (.returning removes c resp))
    | .ok (.continueWith event) =>
      some (h, r.goto (.collecting removes { c with lastEvent := some event } .receiving))
  | .closing =>
    match h.finalizeOnClose c.lastEvent tick.now with
    | .error e => some (h, r.goto (.done (.answered c (.error e))))
    | .ok resp => some (h, r.goto (.returning removes c resp))

/-- The subscription of a request to its queue, and what it spawns. -/
def spawn (key : TaskId) (ctx : RequestContext) (queue : ℕ) : Option (Request × List Thread) :=
  let pos := (h.queueManager.log queue).length
  let collector : Collector := ⟨queue, pos, none, pos, threads.length⟩
  let execution (job : Job) : Thread := .execution ⟨job, ctx, key, queue, i, .running⟩
  let registration : Thread := .registration ⟨ctx.taskId, threads.length, false⟩
  match r.call with
  | .messageSend _ =>
    some (r.goto (.collecting ctx.taskId collector .receiving), [execution .execute, registration])
  | .messageStream _ => some (r.goto (.streaming queue pos), [execution .execute, registration])
  | .cancelTask params =>
    some (r.goto (.collecting params.id collector .receiving), [execution (.cancel params.id)])
  | .subscribeToTask _ => none

/-- The first step of a call. -/
def begin : Request :=
  match r.call with
  | .messageSend params | .messageStream params =>
    match h.resolveContext params r.serviceParams tick with
    | .error e => r.goto (.done (.refused e))
    | .ok ctx => r.goto (.resolved ctx)
  | .cancelTask params =>
    match h.getTaskInternal params.id with
    | none => r.goto (.done (.refused (.taskNotFound params.id)))
    | some t =>
      if t.isTerminal then r.goto (.done (.refused (.taskNotCancelable params.id)))
      else r.goto (.canceling t)
  | .subscribeToTask params =>
    match h.getTaskInternal params.id with
    | none => r.goto (.done (.refused (.taskNotFound params.id)))
    | some t =>
      if t.isTerminal then
        r.goto (.done (.refused (.invalidParams
          s!"Task {params.id} is in terminal state: {t.status.state.debug}")))
      else r.goto .locating

/-- A step of a request. -/
def advance : Option (DefaultRequestHandler × Request × List Thread) :=
  match r.pc with
  | .received => some (h, r.begin h tick, [])
  | .resolved ctx =>
    match r.call with
    | .messageSend params | .messageStream params =>
      some (h.saveInlinePushConfig params ctx.taskId tick,
        r.goto (.intercepting ctx.taskId ctx 0), [])
    | _ => none
  | .intercepting key ctx next =>
    match h.reqContextInterceptors[next]? with
    | none => some (h, r.goto (.queueing key ctx), [])
    | some interceptor =>
      match interceptor h.taskStore ctx with
      | .error e => some (h, r.goto (.done (.refused e)), [])
      | .ok ctx => some (h, r.goto (.intercepting key ctx (next + 1)), [])
  | .canceling task =>
    match r.call with
    | .cancelTask params => some (h.abortRunning params.id,
        r.goto (.queueing params.id (DefaultRequestHandler.cancelContext task)), [])
    | _ => none
  | .queueing key ctx =>
    match h.queueManager.getOrCreateQueue key with
    | none => some (h, r.goto (.done .panicked), [])
    | some (q, m) => some ({ h with queueManager := m }, r.goto (.queued key ctx q), [])
  | .queued key ctx queue => (r.spawn h threads i key ctx queue).map fun p => (h, p.1, p.2)
  | .collecting removes c phase =>
    (r.collect h threads tick removes c phase).map fun p => (p.1, p.2, [])
  | .returning removes c resp =>
    some ({ h with queueManager := h.queueManager.removeQueue removes },
      r.goto (.done (.answered c (r.call.finish resp))), [])
  | .locating =>
    match r.call with
    | .subscribeToTask params =>
      match h.queueManager.getQueue params.id with
      | none => some (h, r.goto (.done (.refused (.taskNotFound params.id))), [])
      | some q => some (h, r.goto (.located q), [])
    | _ => none
  | .located q => some (h, r.goto (.streaming q (h.queueManager.log q).length), [])
  | .streaming q pos =>
    match h.recv threads q pos with
    | some (.ok sent, pos) =>
      some (h, { r with pc := .streaming q pos, received := r.received ++ [sent] }, [])
    | some (.lagged _, pos) => some (h, r.goto (.streaming q pos), [])
    | some (.closed, _) => some (h, r.goto (.done .streamed), [])
    | none => none
  | .done _ => none
  | .dropped => none

/-- The client gives up. -/
def give : Option Request :=
  match r.pc with
  | .done _ => none
  | .dropped => none
  | _ => some (r.goto .dropped)

end Request

namespace Execution

variable (x : Execution) (h : DefaultRequestHandler) (i : ℕ)

/-- A step of thread `i`, an execution. -/
def advance : Move → Option (DefaultRequestHandler × Execution)
  | .emit e =>
    match x.pc with
    | .running => some ({ h with queueManager := h.queueManager.send x.queue ⟨i, e⟩ }, x)
    | _ => none
  | .succeed =>
    match x.pc with
    | .running => some (h, x.goto (.finished .ok))
    | _ => none
  | .panic =>
    match x.pc with
    | .running => some (h, x.goto (.finished .panicked))
    | _ => none
  | .fail e tick =>
    match x.pc with
    | .running =>
      some (h, x.goto (.failing (failedTask (x.job.taskId x.ctx) x.ctx.contextId e tick)))
    | _ => none
  | .tick _ =>
    match x.pc with
    | .failing task => some (h.storeTask task, x.goto (.echoing task))
    | .echoing task =>
      some ({ h with queueManager := h.queueManager.send x.queue ⟨i, .task task⟩ },
        x.goto (.finished .err))
    | _ => none
  | .abort =>
    if i ∈ h.aborts then
      match x.pc with
      | .running => some (h, x.goto (.finished .aborted))
      | .failing _ => some (h, x.goto (.finished .aborted))
      | _ => none
    else none
  | .drop => none

end Execution

/-- The step of a registration. -/
def Registration.advance (g : Registration) (h : DefaultRequestHandler) :
    Option (DefaultRequestHandler × Registration) :=
  if g.stored then none
  else some ({ h with runningTasks := h.runningTasks.insert g.taskId g.execution },
    { g with stored := true })

def Thread.advance (h : DefaultRequestHandler) (threads : List Thread) (i : ℕ) (m : Move) :
    Thread → Option (DefaultRequestHandler × Thread × List Thread)
  | .request r =>
    match m with
    | .tick t => (r.advance h threads i t).map fun p => (p.1, .request p.2.1, p.2.2)
    | .drop => r.give.map fun r => (h, .request r, [])
    | _ => none
  | .execution x => (x.advance h i m).map fun p => (p.1, .execution p.2, [])
  | .registration g =>
    match m with
    | .tick _ => (g.advance h).map fun p => (p.1, .registration p.2, [])
    | _ => none

/-- A call that has just arrived. -/
def Thread.isFresh : Thread → Bool
  | .request ⟨_, _, .received, []⟩ => true
  | _ => false

theorem Thread.of_isFresh {t : Thread} (h : t.isFresh = true) :
    ∃ r, t = .request r ∧ r.pc = .received ∧ r.received = [] := by
  unfold isFresh at h
  split at h
  · exact ⟨_, rfl, rfl, rfl⟩
  · cases h

/-- **The handler and its threads.** -/
def server : Machine DefaultRequestHandler Thread Move where
  fresh := Thread.isFresh
  advance := Thread.advance

abbrev ServerConfig := Config DefaultRequestHandler Thread

/-- The execution that is thread `j`. -/
def executionAt (c : ServerConfig) (j : ℕ) : Option Execution :=
  match c.threads[j]? with
  | some (.execution x) => some x
  | _ => none

theorem executionAt_eq_some {c : ServerConfig} {j : ℕ} {x : Execution}
    (h : executionAt c j = some x) : c.threads[j]? = some (.execution x) := by
  unfold executionAt at h
  split at h <;> cases h
  assumption

/-- A handler before its first request: no threads, no queues, nothing running. -/
structure Initial (c : ServerConfig) : Prop where
  threads : c.threads = []
  heap : c.shared.queueManager.heap = []
  running : c.shared.runningTasks = ∅
  aborts : c.shared.aborts = []

/-- Before the first request any assertion holds of each thread. -/
theorem Initial.each {A : ServerConfig → ℕ → Thread → Prop} {c : ServerConfig} (h : Initial c) :
    Machine.Reach.Each A c := by
  intro j t hj
  rw [h.threads] at hj
  cases hj

theorem initial_new : Initial ⟨.new, []⟩ := ⟨rfl, rfl, rfl, rfl⟩

/-- A send of message `id` to task `t1` that has just arrived. -/
def sendTo (id : String) (returnImmediately : Bool) : Thread := .request
  { call := .messageSend
      { tenant := none
        message := { Message.new id .user [.text "hello"] with
          taskId := some "t1", contextId := some "c1" }
        configuration := some ⟨[], none, none, returnImmediately⟩
        metadata := none }
    serviceParams := ∅
    pc := .received
    received := [] }

end Ra2a
