import Ra2a.Lib.Url
import Ra2a.RestError
import Ra2a.Server.Http

/-!
# The REST handlers

`server/rest.rs`.  A route captures raw segments of the path, its handler has them
decoded, and builds the native request from them, from the query, from the header
that names the tenant, or from the body.

The router has the routes as its table lists them, where `matchit` takes their paths
(`TakesRestPaths`).  A captured segment is not empty, and a route with `:cancel` or
`:subscribe` at its end goes before the one without.
Every response to an error has the time in it, which is `now`.

What is handed over is seen by a handler that only keeps a record of its calls
(`handedOver`).  Any other handler gets the same call (`restRouter_makes`).
-/

namespace Ra2a

open Utf8 Url

/-- The headers of a request, under their names in lower case. -/
abbrev HeaderMap := List (String × List UInt8)

/-- A request, with its URL as the client writes it. -/
structure HttpRequest where
  method : HttpMethod
  url : List Char
  headers : HeaderMap
  body : String
  deriving DecidableEq

/-! ### Routes -/

/-- A route, with the raw segments it has captured. -/
inductive RestRoute
  | messageSend
  | messageStream
  | tasks
  | task (id : List Char)
  | cancel (id : List Char)
  | subscribe (id : List Char)
  | pushNotificationConfigs (id : List Char)
  | pushNotificationConfig (id configId : List Char)
  | extendedAgentCard
  deriving DecidableEq

/-- What is captured before a suffix. -/
def capturedBefore (suffix seg : List Char) : Option (List Char) :=
  if suffix <:+ seg ∧ suffix.length < seg.length then some (seg.take (seg.length - suffix.length))
  else none

/-- The routes that begin with `/tasks/` and have no more segments. -/
def RestRoute.ofTask (seg : List Char) : Option RestRoute :=
  match capturedBefore ":cancel".toList seg with
  | some id => some (.cancel id)
  | none =>
    match capturedBefore ":subscribe".toList seg with
    | some id => some (.subscribe id)
    | none => (capturedBefore [] seg).map .task

/-- `rest_router_inner`: the table of the routes, whose paths are taken (`TakesRestPaths`). -/
def RestRoute.ofSegments : List (List Char) → Option RestRoute
  | [seg] =>
    if seg = "message:send".toList then some .messageSend
    else if seg = "message:stream".toList then some .messageStream
    else if seg = "tasks".toList then some .tasks
    else if seg = "extendedAgentCard".toList then some .extendedAgentCard
    else none
  | [top, seg] => if top = "tasks".toList then ofTask seg else none
  | [top, id, sub] =>
    if top = "tasks".toList ∧ id ≠ [] ∧ sub = "pushNotificationConfigs".toList then
      some (.pushNotificationConfigs id)
    else none
  | [top, id, sub, configId] =>
    if top = "tasks".toList ∧ id ≠ [] ∧ sub = "pushNotificationConfigs".toList ∧ configId ≠ [] then
      some (.pushNotificationConfig id configId)
    else none
  | _ => none

/-! ### Extractors -/

structure TaskIdPath where
  id : String

def TaskIdPath.extract (id : List Char) : Option TaskIdPath :=
  (decodeSegment id).map fun id => ⟨String.ofList id⟩

structure PushConfigPath where
  id : String
  configId : String

def PushConfigPath.extract (id configId : List Char) : Option PushConfigPath := do
  return {
    id := String.ofList (← decodeSegment id)
    configId := String.ofList (← decodeSegment configId) }

/-- Whether there is a minus sign, and what is after the sign. -/
def splitSign : List Char → Bool × List Char
  | '-' :: rest => (true, rest)
  | '+' :: rest => (false, rest)
  | digits => (false, digits)

/-- `str::parse::<i32>`: decimal digits, perhaps after a sign, that fit. -/
def parseI32 (s : List Char) : Option Int32 :=
  let (negative, digits) := splitSign s
  let n : ℤ := Nat.ofDigitChars 10 digits 0
  let i := if negative then -n else n
  if digits ≠ [] ∧ digits.all Char.isDigit ∧ -2 ^ 31 ≤ i ∧ i < 2 ^ 31 then some (Int32.ofInt i)
  else none

/-- `str::parse::<bool>`. -/
def parseBool (s : List Char) : Option Bool :=
  if s = "true".toList then some true else if s = "false".toList then some false else none

/-- A field of a query: it may be missing, and may not be there twice. -/
def queryField {α : Type} (parse : List Char → Option α) (key : String)
    (pairs : List (List Char × List Char)) : Option (Option α) :=
  match pairs.filter fun e => e.1 = key.toList with
  | [] => some none
  | [e] => (parse e.2).map some
  | _ => none

def parseString (s : List Char) : Option String := some (String.ofList s)

structure GetTaskQuery where
  historyLength : Option Int32

def GetTaskQuery.extract (pairs : List (List Char × List Char)) : Option GetTaskQuery := do
  return { historyLength := ← queryField parseI32 "historyLength" pairs }

structure ListTasksQuery where
  contextId : Option String
  status : Option String
  pageSize : Option Int32
  pageToken : Option String
  historyLength : Option Int32
  statusTimestampAfter : Option String
  includeArtifacts : Option Bool

def ListTasksQuery.extract (pairs : List (List Char × List Char)) : Option ListTasksQuery := do
  return {
    contextId := ← queryField parseString "contextId" pairs
    status := ← queryField parseString "status" pairs
    pageSize := ← queryField parseI32 "pageSize" pairs
    pageToken := ← queryField parseString "pageToken" pairs
    historyLength := ← queryField parseI32 "historyLength" pairs
    statusTimestampAfter := ← queryField parseString "statusTimestampAfter" pairs
    includeArtifacts := ← queryField parseBool "includeArtifacts" pairs }

/-- `HeaderValue::to_str`. -/
def headerStr (value : List UInt8) : Option String :=
  if value.all fun b => b = 9 ∨ 32 ≤ b ∧ b < 127 then (fromUtf8 value).map String.ofList else none

/-- `tenant_from_headers`. -/
def tenantFromHeaders (headers : HeaderMap) : Option String :=
  ((headers.lookup "x-a2a-tenant").bind headerStr).filter fun s => s ≠ ""

/-- A content type is `application/json`, or has the suffix `json`, whatever its parameters. -/
def isJsonMime (value : String) : Bool :=
  let essence := (value.toList.map Char.toLower).takeWhile (· ≠ ';')
  let subtype := essence.drop "application/".length
  "application/".toList.isPrefixOf essence &&
    (subtype = "json".toList ||
      "+json".toList.isSuffixOf subtype && "+json".length < subtype.length &&
        subtype.all fun c => c.isAlphanum ∨ c ∈ "!#$%&'*+-.^_`|~".toList)

/-- `json_content_type` of axum's `Json`. -/
def jsonContentType (headers : HeaderMap) : Bool :=
  ((headers.lookup "content-type").bind headerStr).any isJsonMime

theorem jsonContentType_json (headers : HeaderMap) :
    jsonContentType (("content-type", encode "application/json".toList) :: headers) = true := by
  have hvalue : headerStr (encode "application/json".toList) = some "application/json" := by
    decide +kernel
  rw [jsonContentType, List.lookup_cons, BEq.rfl, Option.bind_some, hvalue]
  decide

/-- `TaskState::from_state_str`. -/
def TaskState.fromStateStr : String → TaskState
  | "TASK_STATE_SUBMITTED" => .submitted
  | "TASK_STATE_WORKING" => .working
  | "TASK_STATE_COMPLETED" => .completed
  | "TASK_STATE_FAILED" => .failed
  | "TASK_STATE_CANCELED" => .canceled
  | "TASK_STATE_INPUT_REQUIRED" => .inputRequired
  | "TASK_STATE_REJECTED" => .rejected
  | "TASK_STATE_AUTH_REQUIRED" => .authRequired
  | _ => .unspecified

/-! ### Handlers -/

section Handlers

variable [JsonText] [Base64] {σ : Type} (h : StreamingHandler σ) (now : String)

omit [Base64] in
/-- `rest_error_response`. -/
def restErrorResponse (err : A2AError) (taskId : Option String) : Response :=
  let restErr := err.toRestError now taskId
  buildResponse restErr.httpStatus.toNat "application/json"
    ((JsonText.print restErr.serialize).getD "")

omit [Base64] in
/-- `json_response`. -/
def jsonResponse {α : Type} [Serde α] (value : α) : Response := jsonOk ((toText value).getD "")

omit [Base64] in
/-- The end of a handler: its result, or its error. -/
def restAnswer {α : Type} [Serde α] (taskId : Option String) (result : Handling σ α) :
    StateM σ Response := do
  match ← result.run with
  | .ok value => pure (jsonResponse value)
  | .error e => pure (restErrorResponse now e taskId)

/-- The end of a streaming handler, which writes an error as an event of its own. -/
def restStream (taskId : Option String) (result : Handling σ (List (Except A2AError Event))) :
    StateM σ Response := do
  match ← result.run with
  | .error e => pure (restErrorResponse now e taskId)
  | .ok items =>
    let data : Except A2AError Event → List Char
      | .ok event => restEventData event
      | .error e => ((JsonText.print (e.toRestError now none).serialize).getD "").toList
    pure ⟨200, "text/event-stream", items.map fun item => encode (Frame.text data (.item item))⟩

/-- `handle_send_message`. -/
def handleSendMessage (req : SendMessageRequest) : StateM σ Response :=
  restAnswer now none (h.onMessageSend req)

/-- `handle_stream_message`. -/
def handleStreamMessage (req : SendMessageRequest) : StateM σ Response :=
  restStream now none (h.onMessageStream req)

/-- `handle_get_task`. -/
def handleGetTask (headers : HeaderMap) (path : TaskIdPath) (query : GetTaskQuery) :
    StateM σ Response :=
  restAnswer now (some path.id) (h.onGetTask {
    tenant := tenantFromHeaders headers
    id := path.id
    historyLength := query.historyLength })

/-- `handle_list_tasks`. -/
def handleListTasks (headers : HeaderMap) (query : ListTasksQuery) : StateM σ Response :=
  restAnswer now none (h.onListTasks {
    tenant := tenantFromHeaders headers
    contextId := query.contextId
    status := query.status.map TaskState.fromStateStr
    pageSize := query.pageSize
    pageToken := query.pageToken
    historyLength := query.historyLength
    statusTimestampAfter := query.statusTimestampAfter
    includeArtifacts := query.includeArtifacts })

/-- `handle_cancel_task`. -/
def handleCancelTask (headers : HeaderMap) (path : TaskIdPath) : StateM σ Response :=
  restAnswer now (some path.id) (h.onCancelTask {
    tenant := tenantFromHeaders headers
    id := path.id
    metadata := none })

/-- `handle_subscribe_to_task`. -/
def handleSubscribeToTask (headers : HeaderMap) (path : TaskIdPath) : StateM σ Response :=
  restStream now (some path.id) (h.onSubscribeToTask {
    tenant := tenantFromHeaders headers
    id := path.id })

/-- `handle_create_push_config`. -/
def handleCreatePushConfig (path : TaskIdPath) (config : TaskPushNotificationConfig) :
    StateM σ Response :=
  restAnswer now (some path.id) (h.onCreateTaskPushConfig { config with taskId := some path.id })

/-- `handle_get_push_config`. -/
def handleGetPushConfig (headers : HeaderMap) (path : PushConfigPath) : StateM σ Response :=
  restAnswer now (some path.id) (h.onGetTaskPushConfig {
    tenant := tenantFromHeaders headers
    taskId := path.id
    id := path.configId })

/-- `handle_list_push_configs`. -/
def handleListPushConfigs (headers : HeaderMap) (path : TaskIdPath) : StateM σ Response :=
  restAnswer now (some path.id) (h.onListTaskPushConfigs {
    tenant := tenantFromHeaders headers
    taskId := path.id
    pageSize := none
    pageToken := none })

/-- `handle_delete_push_config`. -/
def handleDeletePushConfig (headers : HeaderMap) (path : PushConfigPath) : StateM σ Response := do
  let result := h.onDeleteTaskPushConfig {
    tenant := tenantFromHeaders headers
    taskId := path.id
    id := path.configId }
  match ← result.run with
  | .ok () => pure ⟨204, "", []⟩
  | .error e => pure (restErrorResponse now e (some path.id))

/-- `handle_get_extended_agent_card`. -/
def handleGetExtendedAgentCard (headers : HeaderMap) : StateM σ Response :=
  restAnswer now none (h.onGetExtendedAgentCard { tenant := tenantFromHeaders headers })

/-! ### The router -/

omit [JsonText] [Base64] in
/-- What an extractor has taken out goes to the handler, or the request is turned away. -/
def extracted {α : Type} (a : Option α) (handle : α → StateM σ Response) : StateM σ Response :=
  match a with
  | some a => handle a
  | none => pure ⟨400, "", []⟩

omit [Base64] in
/-- `Json`, of a body that is said to be one. -/
def jsonBody {α : Type} [Serde α] (req : HttpRequest) (handle : α → StateM σ Response) :
    StateM σ Response :=
  if jsonContentType req.headers then
    match JsonText.parse req.body with
    | none => pure ⟨400, "", []⟩
    | some j =>
      match deserialize j with
      | some a => handle a
      | none => pure ⟨422, "", []⟩
  else pure ⟨415, "", []⟩

/-- The handler of a route for a method. -/
def RestRoute.handle (req : HttpRequest) : RestRoute → StateM σ Response
  | .messageSend =>
    match req.method with
    | .post => jsonBody req (handleSendMessage h now)
    | _ => pure ⟨405, "", []⟩
  | .messageStream =>
    match req.method with
    | .post => jsonBody req (handleStreamMessage h now)
    | _ => pure ⟨405, "", []⟩
  | .tasks =>
    match req.method with
    | .get => extracted (ListTasksQuery.extract (formParse (queryOf (afterAuthority req.url))))
        (handleListTasks h now req.headers)
    | _ => pure ⟨405, "", []⟩
  | .task id =>
    match req.method with
    | .get => extracted (TaskIdPath.extract id) fun path =>
        extracted (GetTaskQuery.extract (formParse (queryOf (afterAuthority req.url))))
          (handleGetTask h now req.headers path)
    | _ => pure ⟨405, "", []⟩
  | .cancel id =>
    match req.method with
    | .post => extracted (TaskIdPath.extract id) (handleCancelTask h now req.headers)
    | _ => pure ⟨405, "", []⟩
  | .subscribe id =>
    match req.method with
    | .get => extracted (TaskIdPath.extract id) (handleSubscribeToTask h now req.headers)
    | _ => pure ⟨405, "", []⟩
  | .pushNotificationConfigs id =>
    match req.method with
    | .post => extracted (TaskIdPath.extract id) fun path =>
        jsonBody req (handleCreatePushConfig h now path)
    | .get => extracted (TaskIdPath.extract id) (handleListPushConfigs h now req.headers)
    | _ => pure ⟨405, "", []⟩
  | .pushNotificationConfig id configId =>
    match req.method with
    | .get => extracted (PushConfigPath.extract id configId) (handleGetPushConfig h now req.headers)
    | .delete =>
      extracted (PushConfigPath.extract id configId) (handleDeletePushConfig h now req.headers)
    | _ => pure ⟨405, "", []⟩
  | .extendedAgentCard =>
    match req.method with
    | .get => handleGetExtendedAgentCard h now req.headers
    | _ => pure ⟨405, "", []⟩

/-- A request to `rest_router`. -/
def restRouter (req : HttpRequest) : StateM σ Response :=
  match RestRoute.ofSegments (segments (afterAuthority req.url)) with
  | some route => route.handle h now req
  | none => pure ⟨404, "", []⟩

/-- The paths that `rest_router_inner` has routes for. -/
def restPaths : List String :=
  ["/message:send", "/message:stream", "/tasks", "/tasks/\x7bid\x7d", "/tasks/\x7bid\x7d:cancel",
    "/tasks/\x7bid\x7d:subscribe", "/tasks/\x7bid\x7d/pushNotificationConfigs",
    "/tasks/\x7bid\x7d/pushNotificationConfigs/\x7bconfigId\x7d", "/extendedAgentCard"]

omit [JsonText] [Base64] in
/-- `matchit` takes every path of the router.  The version in the lock file does not take
the two that have a suffix behind a parameter. -/
def TakesRestPaths (matchit : String → Bool) : Prop := ∀ path ∈ restPaths, matchit path = true

/-- `rest_router`: none where `Router::route` panics, at a path that is not taken. -/
def restRouterFor (matchit : String → Bool) : Option (HttpRequest → StateM σ Response) :=
  if restPaths.all matchit then some (restRouter h now) else none

/-- **There is a router exactly if** its paths are taken. -/
theorem restRouterFor_eq_some_iff {matchit : String → Bool}
    {router : HttpRequest → StateM σ Response} :
    restRouterFor h now matchit = some router ↔
      TakesRestPaths matchit ∧ restRouter h now = router := by
  rw [restRouterFor, TakesRestPaths, ← List.all_eq_true]
  split <;> simp_all

end Handlers

/-! ### What is handed over -/

/-- A call of a method, with the request it is given. -/
inductive HandlerCall
  | onMessageSend (req : SendMessageRequest)
  | onMessageStream (req : SendMessageRequest)
  | onGetTask (req : GetTaskRequest)
  | onListTasks (req : ListTasksRequest)
  | onCancelTask (req : CancelTaskRequest)
  | onSubscribeToTask (req : SubscribeToTaskRequest)
  | onCreateTaskPushConfig (req : TaskPushNotificationConfig)
  | onGetTaskPushConfig (req : GetTaskPushNotificationConfigRequest)
  | onListTaskPushConfigs (req : ListTaskPushNotificationConfigsRequest)
  | onDeleteTaskPushConfig (req : DeleteTaskPushNotificationConfigRequest)
  | onGetExtendedAgentCard (req : GetExtendedAgentCardRequest)

def record {α : Type} (call : HandlerCall) : Handling (List HandlerCall) α :=
  fun calls => (.error .pushNotificationNotSupported, calls ++ [call])

/-- A handler that keeps a record of its calls, and answers none. -/
def recorder : StreamingHandler (List HandlerCall) where
  onMessageSend req := record (.onMessageSend req)
  onMessageStream req := record (.onMessageStream req)
  onGetTask req := record (.onGetTask req)
  onListTasks req := record (.onListTasks req)
  onCancelTask req := record (.onCancelTask req)
  onSubscribeToTask req := record (.onSubscribeToTask req)
  onCreateTaskPushConfig req := record (.onCreateTaskPushConfig req)
  onGetTaskPushConfig req := record (.onGetTaskPushConfig req)
  onListTaskPushConfigs req := record (.onListTaskPushConfigs req)
  onDeleteTaskPushConfig req := record (.onDeleteTaskPushConfig req)
  onGetExtendedAgentCard req := record (.onGetExtendedAgentCard req)

/-- What a method returns. -/
@[reducible] def HandlerCall.Result : HandlerCall → Type
  | .onMessageSend _ => SendMessageResponse
  | .onMessageStream _ => List (Except A2AError Event)
  | .onGetTask _ => Task
  | .onListTasks _ => ListTasksResponse
  | .onCancelTask _ => Task
  | .onSubscribeToTask _ => List (Except A2AError Event)
  | .onCreateTaskPushConfig _ => TaskPushNotificationConfig
  | .onGetTaskPushConfig _ => TaskPushNotificationConfig
  | .onListTaskPushConfigs _ => ListTaskPushNotificationConfigsResponse
  | .onDeleteTaskPushConfig _ => Unit
  | .onGetExtendedAgentCard _ => AgentCard

/-- The call of a handler. -/
def StreamingHandler.answer {σ : Type} (h : StreamingHandler σ) :
    (call : HandlerCall) → Handling σ call.Result
  | .onMessageSend req => h.onMessageSend req
  | .onMessageStream req => h.onMessageStream req
  | .onGetTask req => h.onGetTask req
  | .onListTasks req => h.onListTasks req
  | .onCancelTask req => h.onCancelTask req
  | .onSubscribeToTask req => h.onSubscribeToTask req
  | .onCreateTaskPushConfig req => h.onCreateTaskPushConfig req
  | .onGetTaskPushConfig req => h.onGetTaskPushConfig req
  | .onListTaskPushConfigs req => h.onListTaskPushConfigs req
  | .onDeleteTaskPushConfig req => h.onDeleteTaskPushConfig req
  | .onGetExtendedAgentCard req => h.onGetExtendedAgentCard req

/-- The state a call leaves. -/
def StreamingHandler.after {σ : Type} (h : StreamingHandler σ) (s : σ) : HandlerCall → σ
  | .onMessageSend req => (h.onMessageSend req s).2
  | .onMessageStream req => (h.onMessageStream req s).2
  | .onGetTask req => (h.onGetTask req s).2
  | .onListTasks req => (h.onListTasks req s).2
  | .onCancelTask req => (h.onCancelTask req s).2
  | .onSubscribeToTask req => (h.onSubscribeToTask req s).2
  | .onCreateTaskPushConfig req => (h.onCreateTaskPushConfig req s).2
  | .onGetTaskPushConfig req => (h.onGetTaskPushConfig req s).2
  | .onListTaskPushConfigs req => (h.onListTaskPushConfigs req s).2
  | .onDeleteTaskPushConfig req => (h.onDeleteTaskPushConfig req s).2
  | .onGetExtendedAgentCard req => (h.onGetExtendedAgentCard req s).2

section Calls

variable [JsonText] [Base64]

/-- The calls that a request makes. -/
def handedOver (req : HttpRequest) : List HandlerCall := (restRouter recorder "" req []).2

omit [Base64] in
/-- What `Json` takes out of a request. -/
def HttpRequest.json? {α : Type} [Serde α] (req : HttpRequest) : Option α :=
  if jsonContentType req.headers then fromText req.body else none

omit [Base64] in
theorem HttpRequest.json?_of_json {α : Type} [Serde α] {req : HttpRequest}
    (h : jsonContentType req.headers = true) : (req.json? : Option α) = fromText req.body :=
  if_pos h

omit [Base64] in
theorem HttpRequest.json?_eq_some_iff {α : Type} [Serde α] {req : HttpRequest} {a : α} :
    req.json? = some a ↔ jsonContentType req.headers = true ∧ fromText req.body = some a := by
  rw [HttpRequest.json?]
  split <;> simp_all

/-- The call that a handler makes of a request, as the extractors have it. -/
def RestRoute.call? (req : HttpRequest) : RestRoute → Option HandlerCall
  | .messageSend =>
    match req.method with
    | .post => do
      let body ← req.json?
      return .onMessageSend body
    | _ => none
  | .messageStream =>
    match req.method with
    | .post => do
      let body ← req.json?
      return .onMessageStream body
    | _ => none
  | .tasks =>
    match req.method with
    | .get => do
      let query ← ListTasksQuery.extract (formParse (queryOf (afterAuthority req.url)))
      return .onListTasks ⟨tenantFromHeaders req.headers, query.contextId,
        query.status.map TaskState.fromStateStr, query.pageSize, query.pageToken,
        query.historyLength, query.statusTimestampAfter, query.includeArtifacts⟩
    | _ => none
  | .task id =>
    match req.method with
    | .get => do
      let path ← TaskIdPath.extract id
      let query ← GetTaskQuery.extract (formParse (queryOf (afterAuthority req.url)))
      return .onGetTask ⟨tenantFromHeaders req.headers, path.id, query.historyLength⟩
    | _ => none
  | .cancel id =>
    match req.method with
    | .post => do
      let path ← TaskIdPath.extract id
      return .onCancelTask ⟨tenantFromHeaders req.headers, path.id, none⟩
    | _ => none
  | .subscribe id =>
    match req.method with
    | .get => do
      let path ← TaskIdPath.extract id
      return .onSubscribeToTask ⟨tenantFromHeaders req.headers, path.id⟩
    | _ => none
  | .pushNotificationConfigs id =>
    match req.method with
    | .post => do
      let path ← TaskIdPath.extract id
      let config ← (req.json? : Option TaskPushNotificationConfig)
      return .onCreateTaskPushConfig { config with taskId := some path.id }
    | .get => do
      let path ← TaskIdPath.extract id
      return .onListTaskPushConfigs ⟨tenantFromHeaders req.headers, path.id, none, none⟩
    | _ => none
  | .pushNotificationConfig id configId =>
    match req.method with
    | .get => do
      let path ← PushConfigPath.extract id configId
      return .onGetTaskPushConfig ⟨tenantFromHeaders req.headers, path.id, path.configId⟩
    | .delete => do
      let path ← PushConfigPath.extract id configId
      return .onDeleteTaskPushConfig ⟨tenantFromHeaders req.headers, path.id, path.configId⟩
    | _ => none
  | .extendedAgentCard =>
    match req.method with
    | .get => some (.onGetExtendedAgentCard ⟨tenantFromHeaders req.headers⟩)
    | _ => none

/-- The call that the router has a handler make. -/
def HttpRequest.call? (req : HttpRequest) : Option HandlerCall :=
  (RestRoute.ofSegments (segments (afterAuthority req.url))).bind (RestRoute.call? req)

section

variable {σ : Type} {h : StreamingHandler σ} {now : String} {s : σ}

/-- A handler is left by a run as by one call, or untouched. -/
def Makes (h : StreamingHandler σ) (s : σ) (call? : Option HandlerCall) (run : StateM σ Response) :
    Prop :=
  (run s).2 = call?.elim s (h.after s)

section

variable {α : Type} {f : α → StateM σ Response} {c : α → Option HandlerCall}

omit [JsonText] [Base64] in
theorem Makes.extracted (hf : ∀ a, Makes h s (c a) (f a)) (a : Option α) :
    Makes h s (a.bind c) (extracted a f) := by
  cases a with
  | none => rfl
  | some a => exact hf a

omit [Base64] in
theorem Makes.jsonBody [Serde α] (hf : ∀ a, Makes h s (c a) (f a)) (req : HttpRequest) :
    Makes h s (req.json?.bind c) (jsonBody req f) := by
  rw [Makes, Ra2a.jsonBody, HttpRequest.json?, fromText]
  split
  · cases JsonText.parse req.body with
    | none => rfl
    | some j =>
      cases hj : (deserialize j : Option α) with
      | none =>
        simp only [Option.bind_some, hj]
        rfl
      | some a =>
        simp only [Option.bind_some, hj]
        exact hf a
  · rfl

end

section

variable {taskId : Option String} {call : HandlerCall}

omit [Base64] in
theorem Makes.restAnswer {α : Type} [Serde α] {result : Handling σ α}
    (hcall : (result s).2 = h.after s call) :
    Makes h s (some call) (restAnswer now taskId result) := by
  refine Eq.trans ?_ hcall
  rcases hres : result s with ⟨_ | value, s'⟩ <;>
    simp only [Ra2a.restAnswer, bind, StateT.bind, ExceptT.run, hres] <;> rfl

theorem Makes.restStream {result : Handling σ (List (Except A2AError Event))}
    (hcall : (result s).2 = h.after s call) :
    Makes h s (some call) (restStream now taskId result) := by
  refine Eq.trans ?_ hcall
  rcases hres : result s with ⟨_ | items, s'⟩ <;>
    simp only [Ra2a.restStream, bind, StateT.bind, ExceptT.run, hres] <;> rfl

end

omit [Base64] in
theorem makes_handleDeletePushConfig (headers : HeaderMap) (path : PushConfigPath) :
    Makes h s (some (.onDeleteTaskPushConfig ⟨tenantFromHeaders headers, path.id, path.configId⟩))
      (handleDeletePushConfig h now headers path) := by
  have hstate : (handleDeletePushConfig h now headers path s).2 =
      (h.onDeleteTaskPushConfig ⟨tenantFromHeaders headers, path.id, path.configId⟩ s).2 := by
    rcases hres : h.onDeleteTaskPushConfig ⟨tenantFromHeaders headers, path.id, path.configId⟩ s
      with ⟨_ | _, s'⟩ <;>
      simp only [handleDeletePushConfig, bind, StateT.bind, ExceptT.run, hres] <;> rfl
  exact hstate

theorem RestRoute.makes (route : RestRoute) (req : HttpRequest) :
    Makes h s (route.call? req) (route.handle h now req) := by
  rcases req with ⟨_ | _ | _, url, headers, body⟩
  · cases route with
    | tasks => exact .extracted (fun _ => .restAnswer rfl) _
    | task id => exact .extracted (fun _ => .extracted (fun _ => .restAnswer rfl) _) _
    | subscribe id => exact .extracted (fun _ => .restStream rfl) _
    | pushNotificationConfigs id => exact .extracted (fun _ => .restAnswer rfl) _
    | pushNotificationConfig id configId => exact .extracted (fun _ => .restAnswer rfl) _
    | extendedAgentCard => exact .restAnswer rfl
    | _ => rfl
  · cases route with
    | messageSend => exact .jsonBody (fun _ => .restAnswer rfl) _
    | messageStream => exact .jsonBody (fun _ => .restStream rfl) _
    | cancel id => exact .extracted (fun _ => .restAnswer rfl) _
    | pushNotificationConfigs id =>
      exact .extracted (fun _ => .jsonBody (fun _ => .restAnswer rfl) _) _
    | _ => rfl
  · cases route with
    | pushNotificationConfig id configId =>
      exact .extracted (makes_handleDeletePushConfig _) _
    | _ => rfl

/-- **Any handler is called as the extractors say**, and at most once. -/
theorem restRouter_makes (req : HttpRequest) : Makes h s req.call? (restRouter h now req) := by
  rw [Makes, restRouter, HttpRequest.call?]
  cases RestRoute.ofSegments (segments (afterAuthority req.url)) with
  | none => rfl
  | some route => exact route.makes req

end

theorem handedOver_eq (req : HttpRequest) : handedOver req = req.call?.toList := by
  rw [handedOver, restRouter_makes req]
  cases req.call? with
  | none => rfl
  | some call => cases call <;> rfl

theorem handedOver_eq_singleton_iff {req : HttpRequest} {call : HandlerCall} :
    handedOver req = [call] ↔ req.call? = some call := by
  rw [handedOver_eq]
  cases req.call? with
  | none => simp
  | some call' => simp

end Calls

end Ra2a
