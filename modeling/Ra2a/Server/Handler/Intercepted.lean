import Ra2a.Server.Middleware

/-!
# The intercepted handler

`server/handler/intercepted.rs`: a handler around another one.  Each method runs
the hooks `before` on the request, the method of the inner handler on what they
leave, and the hooks `after` on the response, in reverse order.

To see what the `after` hooks are given, each is replaced by one that notes it
first (`observed`).  This changes nothing else (`writes_unary`,
`writes_streaming`), and what is noted during a call are its visits.
-/

namespace Ra2a

open Middleware

/-- What the transport knows of a request, handlers read from a task local. -/
structure InterceptedHandler (σ : Type) where
  inner : RequestMeta → StreamingHandler σ
  interceptors : List (CallInterceptor σ)

/-- What a method makes of the response that the hooks leave. -/
def Middleware.Response.result (R : PayloadType) (resp : Middleware.Response) :
    Except A2AError R.Carrier :=
  match resp.err with
  | some err => .error err
  | none =>
    match resp.payload with
    | none => .error (.other "no response payload")
    | some p =>
      match p.downcast R with
      | some r => .ok r
      | none => .error (.other "interceptor changed response payload type")

/-- What a stream makes of it. -/
def Middleware.Response.event (resp : Middleware.Response) : Except A2AError Event :=
  match resp.err with
  | some err => .error err
  | none =>
    match resp.payload.bind (Payload.downcast .event) with
    | some event => .ok event
    | none => .error (.other "missing event after interceptor")

namespace InterceptedHandler

variable {σ : Type} (h : InterceptedHandler σ) (requestMeta : RequestMeta)

/-- The hooks `before`, in order. -/
def runBefore (ctx : CallContext) (req : Middleware.Request) :
    Handling σ (CallContext × Middleware.Request) :=
  Chain.run (h.interceptors.map CallInterceptor.beforeHook) (ctx, req)

/-- The hooks `after`, in reverse order. -/
def runAfter (ctx : CallContext) (resp : Middleware.Response) : Handling σ Middleware.Response :=
  Chain.run (h.interceptors.reverse.map fun i => i.after ctx) resp

/-- `run_before_typed`. -/
def runBeforeTyped (method : String) (P : PayloadType) (params : P.Carrier) :
    Handling σ (CallContext × P.Carrier) := do
  let p ← h.runBefore (.new method requestMeta) ⟨⟨P, params⟩⟩
  match p.2.payload.downcast P with
  | some params => pure (p.1, params)
  | none => throw A2AError.requestTypeChanged

/-- `run_after_typed`. -/
def runAfterTyped (ctx : CallContext) (R : PayloadType) (result : Except A2AError R.Carrier) :
    Handling σ R.Carrier := do
  let resp ← h.runAfter ctx (.ofResult R result)
  liftExcept (resp.result R)

/-- `apply_stream_after`. -/
def applyStreamAfter (method : String) (event : Event) : Handling σ Event := do
  let resp ← h.runAfter (.new method requestMeta) (.ok .event event)
  liftExcept resp.event

/-- `wrap_stream`: what becomes of each item. -/
def wrapStream (method : String) :
    List (Except A2AError Event) → StateM σ (List (Except A2AError Event))
  | [] => pure []
  | .error e :: items => do
    let items ← wrapStream method items
    pure (.error e :: items)
  | .ok event :: items => do
    let item ← (h.applyStreamAfter requestMeta method event).run
    let items ← wrapStream method items
    pure (item :: items)

/-- A method that answers once. -/
def unary (method : String) (P R : PayloadType) (call : P.Carrier → Handling σ R.Carrier)
    (params : P.Carrier) : Handling σ R.Carrier := do
  let p ← h.runBeforeTyped requestMeta method P params
  let result ← liftM (call p.2).run
  h.runAfterTyped p.1 R result

/-- A method that answers with a stream.  The context is dropped. -/
def streaming (method : String) (P : PayloadType)
    (call : P.Carrier → Handling σ (List (Except A2AError Event))) (params : P.Carrier) :
    Handling σ (List (Except A2AError Event)) := do
  let p ← h.runBeforeTyped requestMeta method P params
  let stream ← call p.2
  liftM (h.wrapStream requestMeta method stream)

/-! ### The methods -/

def onMessageSend : SendMessageRequest → Handling σ SendMessageResponse :=
  h.unary requestMeta METHOD_MESSAGE_SEND .sendMessageRequest .sendMessageResponse
    (h.inner requestMeta).onMessageSend

def onMessageStream : SendMessageRequest → Handling σ (List (Except A2AError Event)) :=
  h.streaming requestMeta METHOD_MESSAGE_STREAM .sendMessageRequest
    (h.inner requestMeta).onMessageStream

def onGetTask : GetTaskRequest → Handling σ Task :=
  h.unary requestMeta METHOD_TASKS_GET .getTaskRequest .task (h.inner requestMeta).onGetTask

def onCancelTask : CancelTaskRequest → Handling σ Task :=
  h.unary requestMeta METHOD_TASKS_CANCEL .cancelTaskRequest .task
    (h.inner requestMeta).onCancelTask

def onSubscribeToTask : SubscribeToTaskRequest → Handling σ (List (Except A2AError Event)) :=
  h.streaming requestMeta METHOD_TASKS_RESUBSCRIBE .subscribeToTaskRequest
    (h.inner requestMeta).onSubscribeToTask

def onCreateTaskPushConfig :
    TaskPushNotificationConfig → Handling σ TaskPushNotificationConfig :=
  h.unary requestMeta METHOD_PUSH_CONFIG_CREATE .taskPushNotificationConfig
    .taskPushNotificationConfig (h.inner requestMeta).onCreateTaskPushConfig

def onGetTaskPushConfig :
    GetTaskPushNotificationConfigRequest → Handling σ TaskPushNotificationConfig :=
  h.unary requestMeta METHOD_PUSH_CONFIG_GET .getTaskPushNotificationConfigRequest
    .taskPushNotificationConfig (h.inner requestMeta).onGetTaskPushConfig

def onListTaskPushConfigs : ListTaskPushNotificationConfigsRequest →
    Handling σ ListTaskPushNotificationConfigsResponse :=
  h.unary requestMeta METHOD_PUSH_CONFIG_LIST .listTaskPushNotificationConfigsRequest
    .listTaskPushNotificationConfigsResponse (h.inner requestMeta).onListTaskPushConfigs

def onDeleteTaskPushConfig : DeleteTaskPushNotificationConfigRequest → Handling σ Unit :=
  h.unary requestMeta METHOD_PUSH_CONFIG_DELETE .deleteTaskPushNotificationConfigRequest .unit
    (h.inner requestMeta).onDeleteTaskPushConfig

def onListTasks : ListTasksRequest → Handling σ ListTasksResponse :=
  h.unary requestMeta METHOD_TASKS_LIST .listTasksRequest .listTasksResponse
    (h.inner requestMeta).onListTasks

def onGetExtendedAgentCard : GetExtendedAgentCardRequest → Handling σ AgentCard :=
  h.unary requestMeta METHOD_GET_EXTENDED_AGENT_CARD .getExtendedAgentCardRequest .agentCard
    (h.inner requestMeta).onGetExtendedAgentCard

/-- `impl RequestHandler for InterceptedHandler`. -/
def handler : RequestMeta → StreamingHandler σ := fun requestMeta =>
  { onMessageSend := h.onMessageSend requestMeta
    onMessageStream := h.onMessageStream requestMeta
    onGetTask := h.onGetTask requestMeta
    onCancelTask := h.onCancelTask requestMeta
    onSubscribeToTask := h.onSubscribeToTask requestMeta
    onCreateTaskPushConfig := h.onCreateTaskPushConfig requestMeta
    onGetTaskPushConfig := h.onGetTaskPushConfig requestMeta
    onListTaskPushConfigs := h.onListTaskPushConfigs requestMeta
    onDeleteTaskPushConfig := h.onDeleteTaskPushConfig requestMeta
    onListTasks := h.onListTasks requestMeta
    onGetExtendedAgentCard := h.onGetExtendedAgentCard requestMeta }

theorem unaryCall_handler (m : UnaryMethod) :
    (h.handler requestMeta).unaryCall m =
      h.unary requestMeta m.name m.request m.response ((h.inner requestMeta).unaryCall m) := by
  cases m <;> rfl

theorem streamingCall_handler (m : StreamingMethod) :
    (h.handler requestMeta).streamingCall m =
      h.streaming requestMeta m.name m.request ((h.inner requestMeta).streamingCall m) := by
  cases m <;> rfl

end InterceptedHandler

/-! ### What the hooks are given -/

/-- A hook `after` was given `resp` in the context `ctx`. -/
structure Visit where
  index : ℕ
  ctx : CallContext
  resp : Middleware.Response

section

variable {σ β : Type}

theorem writes_liftExcept {α : Type} (r : Except A2AError α) :
    Chain.Writes (fun _ => ([] : List β)) (liftExcept r : Handling σ α)
      (liftExcept r : Handling (σ × List β) α) := by
  cases r with
  | ok a => exact .pure (Except.ok a)
  | error e => exact .pure (Except.error e)

/-- The interceptor, with a note of every visit to `after`. -/
def Middleware.CallInterceptor.observed (i : CallInterceptor σ) (k : ℕ) :
    CallInterceptor (σ × List Visit) where
  before ctx req := Chain.beside (i.before ctx req)
  after ctx := Chain.observed (Visit.mk k ctx) (i.after ctx)

/-- The handler, beside a log. -/
def StreamingHandler.beside (h : StreamingHandler σ) : StreamingHandler (σ × List β) where
  onMessageSend req := Chain.beside (h.onMessageSend req)
  onMessageStream req := Chain.beside (h.onMessageStream req)
  onGetTask req := Chain.beside (h.onGetTask req)
  onListTasks req := Chain.beside (h.onListTasks req)
  onCancelTask req := Chain.beside (h.onCancelTask req)
  onSubscribeToTask req := Chain.beside (h.onSubscribeToTask req)
  onCreateTaskPushConfig req := Chain.beside (h.onCreateTaskPushConfig req)
  onGetTaskPushConfig req := Chain.beside (h.onGetTaskPushConfig req)
  onListTaskPushConfigs req := Chain.beside (h.onListTaskPushConfigs req)
  onDeleteTaskPushConfig req := Chain.beside (h.onDeleteTaskPushConfig req)
  onGetExtendedAgentCard req := Chain.beside (h.onGetExtendedAgentCard req)

theorem StreamingHandler.unaryCall_beside (h : StreamingHandler σ) (m : UnaryMethod)
    (req : m.request.Carrier) :
    (h.beside (β := β)).unaryCall m req = Chain.beside (h.unaryCall m req) := by
  cases m <;> rfl

theorem StreamingHandler.streamingCall_beside (h : StreamingHandler σ) (m : StreamingMethod)
    (req : m.request.Carrier) :
    (h.beside (β := β)).streamingCall m req = Chain.beside (h.streamingCall m req) := by
  cases m <;> rfl

end

namespace InterceptedHandler

variable {σ : Type} (h : InterceptedHandler σ) (requestMeta : RequestMeta)

/-- The handler with all its interceptors observed. -/
def observed : InterceptedHandler (σ × List Visit) where
  inner requestMeta := (h.inner requestMeta).beside
  interceptors := h.interceptors.zipIdx.map fun p => p.1.observed p.2

/-- The hooks `after` in the order they are run, with what is noted of each. -/
def afterHooks (ctx : CallContext) :
    List ((Middleware.Response → Visit) × Chain.Step A2AError σ Middleware.Response) :=
  h.interceptors.zipIdx.reverse.map fun p => (Visit.mk p.2 ctx, p.1.after ctx)

theorem writes_runBefore (ctx : CallContext) (req : Middleware.Request) :
    Chain.Writes (fun _ => []) (h.runBefore ctx req) (h.observed.runBefore ctx req) := by
  have hhooks : h.observed.interceptors.map CallInterceptor.beforeHook =
      (h.interceptors.map CallInterceptor.beforeHook).map fun f a => Chain.beside (f a) := by
    rw [observed, List.map_map, List.map_map]
    conv_rhs => rw [← List.zipIdx_map_fst 0 h.interceptors, List.map_map]
    rfl
  rw [runBefore, runBefore, hhooks]
  exact Chain.writes_run_beside _ _

theorem writes_runAfter (ctx : CallContext) (resp : Middleware.Response) :
    Chain.Writes (Chain.given (h.afterHooks ctx) resp) (h.runAfter ctx resp)
      (h.observed.runAfter ctx resp) := by
  have hplain : h.interceptors.reverse.map (fun i => i.after ctx) =
      (h.afterHooks ctx).map Prod.snd := by
    rw [afterHooks, List.map_map]
    conv_lhs => rw [← List.zipIdx_map_fst 0 h.interceptors, ← List.map_reverse, List.map_map]
    rfl
  have hhooks : h.observed.interceptors.reverse.map (fun i => i.after ctx) =
      (h.afterHooks ctx).map fun p => Chain.observed p.1 p.2 := by
    rw [afterHooks, observed, ← List.map_reverse, List.map_map, List.map_map]
    rfl
  rw [runAfter, runAfter, hplain, hhooks]
  exact Chain.writes_run _ _

theorem writes_runBeforeTyped (method : String) (P : PayloadType) (params : P.Carrier) :
    Chain.Writes (fun _ => []) (h.runBeforeTyped requestMeta method P params)
      (h.observed.runBeforeTyped requestMeta method P params) := by
  refine (h.writes_runBefore _ _).bind_silent fun p => ?_
  cases p.2.payload.downcast P with
  | some params => exact .pure (Except.ok _)
  | none => exact .pure (Except.error _)

theorem writes_runAfterTyped (ctx : CallContext) (R : PayloadType)
    (result : Except A2AError R.Carrier) :
    Chain.Writes (Chain.given (h.afterHooks ctx) (.ofResult R result))
      (h.runAfterTyped ctx R result) (h.observed.runAfterTyped ctx R result) := by
  refine (h.writes_runAfter ctx _).bind_silent fun resp => ?_
  exact writes_liftExcept _

theorem writes_applyStreamAfter (method : String) (event : Event) :
    Chain.Writes (Chain.given (h.afterHooks (.new method requestMeta)) (.ok .event event))
      (h.applyStreamAfter requestMeta method event)
      (h.observed.applyStreamAfter requestMeta method event) := by
  refine (h.writes_runAfter _ _).bind_silent fun resp => ?_
  exact writes_liftExcept _

/-- The visits about each event of a stream. -/
def streamVisits (method : String) : List (Except A2AError Event) → σ → List (List Visit)
  | [], _ => []
  | .error _ :: items, s => streamVisits method items s
  | .ok event :: items, s =>
    Chain.given (h.afterHooks (.new method requestMeta)) (.ok .event event) s ::
      streamVisits method items (h.applyStreamAfter requestMeta method event s).2

theorem writes_wrapStream (method : String) (items : List (Except A2AError Event)) :
    Chain.Writes (fun s => (h.streamVisits requestMeta method items s).flatten)
      (h.wrapStream requestMeta method items) (h.observed.wrapStream requestMeta method items) := by
  induction items with
  | nil => exact .pure []
  | cons item items ih =>
    cases item with
    | error e =>
      refine (ih.bindState fun items => .pure (.error e :: items)).congr fun s => ?_
      rw [List.append_nil]
      rfl
    | ok event =>
      refine ((h.writes_applyStreamAfter requestMeta method event).bindState fun item =>
        ih.bindState fun items => .pure (item :: items)).congr fun s => ?_
      rw [List.append_nil]
      rfl

/-- **The visits of a method that answers once.** -/
theorem writes_unary (method : String) (P R : PayloadType)
    {call : P.Carrier → Handling σ R.Carrier} (params : P.Carrier) :
    Chain.Writes
      (fun s => Chain.onOk (h.runBeforeTyped requestMeta method P params s) fun p s =>
        Chain.given (h.afterHooks p.1) (.ofResult R (call p.2 s).1) (call p.2 s).2)
      (h.unary requestMeta method P R call params)
      (h.observed.unary requestMeta method P R (fun req => Chain.beside (call req)) params) := by
  refine (h.writes_runBeforeTyped requestMeta method P params).silent_bind fun p => ?_
  have hresult : Chain.Writes (fun _ => []) (liftM (call p.2).run : Handling σ _)
      (liftM (Chain.beside (call p.2)).run : Handling (σ × List Visit) _) :=
    (Chain.Writes.beside (call p.2)).lift
  exact (hresult.silent_bind fun result => h.writes_runAfterTyped p.1 R result).congr fun s => rfl

/-- **The visits of a method that answers with a stream.** -/
theorem writes_streaming (method : String) (P : PayloadType)
    {call : P.Carrier → Handling σ (List (Except A2AError Event))} (params : P.Carrier) :
    Chain.Writes
      (fun s => Chain.onOk (h.runBeforeTyped requestMeta method P params s) fun p s =>
        Chain.onOk (call p.2 s) fun stream s =>
          (h.streamVisits requestMeta method stream s).flatten)
      (h.streaming requestMeta method P call params)
      (h.observed.streaming requestMeta method P (fun req => Chain.beside (call req)) params) := by
  refine (h.writes_runBeforeTyped requestMeta method P params).silent_bind fun p => ?_
  refine (Chain.Writes.beside (call p.2)).silent_bind fun stream => ?_
  exact (h.writes_wrapStream requestMeta method stream).lift

end InterceptedHandler

end Ra2a
