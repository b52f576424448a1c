import Ra2a.JsonRpc

/-!
# The JSON-RPC dispatcher

`handle_request` of `server/handler/mod.rs` and the axum handler
`handle_jsonrpc` of `server/http.rs` around it.

The nine unary methods run the same three operations: decode the parameters,
call the handler, serialize what it returns.  `unary` is that arm.  Its nested
result keeps what the source does with a failure: the `?` on the first two
leaves `handle_request` altogether (the outer `Except`), while a failure of the
third is the arm's value (the inner one) and reaches the `match` below the
dispatch, the only place that numbers an error and echoes the id.

`handle_jsonrpc` turns what left early into an envelope of its own, with the id
`null` and the code `-32603`.  `answers_iff` says what this costs: a request is
answered as JSON-RPC asks exactly when nothing leaves early and the method is
known.
-/

namespace Ra2a

/-- The methods of `RequestHandler` that `handle_request` calls. -/
structure RequestHandler (Card : Type) where
  onMessageSend : SendMessageRequest → Except A2AError SendMessageResponse
  onGetTask : GetTaskRequest → Except A2AError Task
  onListTasks : ListTasksRequest → Except A2AError ListTasksResponse
  onCancelTask : CancelTaskRequest → Except A2AError Task
  onCreateTaskPushConfig : TaskPushNotificationConfig → Except A2AError TaskPushNotificationConfig
  onGetTaskPushConfig :
    GetTaskPushNotificationConfigRequest → Except A2AError TaskPushNotificationConfig
  onListTaskPushConfigs :
    ListTaskPushNotificationConfigsRequest → Except A2AError ListTaskPushNotificationConfigsResponse
  onDeleteTaskPushConfig : DeleteTaskPushNotificationConfigRequest → Except A2AError Unit
  onGetExtendedAgentCard : GetExtendedAgentCardRequest → Except A2AError Card

/-- The derived `Deserialize` and `Serialize` instances the dispatcher uses.  A
failure carries the text of the `serde_json` error. -/
structure Wire (Card : Type) where
  sendMessageRequest : Json → Except String SendMessageRequest
  getTaskRequest : Json → Except String GetTaskRequest
  listTasksRequest : Json → Except String ListTasksRequest
  cancelTaskRequest : Json → Except String CancelTaskRequest
  taskPushNotificationConfig : Json → Except String TaskPushNotificationConfig
  getTaskPushNotificationConfigRequest : Json → Except String GetTaskPushNotificationConfigRequest
  listTaskPushNotificationConfigsRequest :
    Json → Except String ListTaskPushNotificationConfigsRequest
  deleteTaskPushNotificationConfigRequest :
    Json → Except String DeleteTaskPushNotificationConfigRequest
  getExtendedAgentCardRequest : Json → Except String GetExtendedAgentCardRequest
  ofSendMessageResponse : SendMessageResponse → Except String Json
  ofTask : Task → Except String Json
  ofListTasksResponse : ListTasksResponse → Except String Json
  ofTaskPushNotificationConfig : TaskPushNotificationConfig → Except String Json
  ofListTaskPushNotificationConfigsResponse :
    ListTaskPushNotificationConfigsResponse → Except String Json
  ofAgentCard : Card → Except String Json

/-- `ServerState`, with the envelope parser (`serde_json::from_str`) and the
wire instances it is compiled against. -/
structure ServerState (Card : Type) where
  handler : RequestHandler Card
  wire : Wire Card
  parseRequest : String → Option JsonRpcRequest

variable {Card α β : Type}

/-! ### The dispatcher -/

/-- `parse_params`. -/
def parseParams (decode : Json → Except String α) (request : JsonRpcRequest) : Except A2AError α :=
  match request.params with
  | some p => (decode p).mapError .json
  | none => .error (.jsonRpc (.invalidParams "Missing params"))

/-- `serialize_success`. -/
def serializeSuccess (encode : β → Except String Json) (id : RequestId) (result : β) :
    Except A2AError Json :=
  ((encode result).mapError .json).map (successResponse (some id))

/-- One unary arm of the dispatch. -/
def unary (request : JsonRpcRequest) (decode : Json → Except String α)
    (call : α → Except A2AError β) (encode : β → Except String Json) :
    Except A2AError (Except A2AError Json) := do
  let req ← parseParams decode request
  let resp ← call req
  pure (serializeSuccess encode request.id resp)

/-- The `match` on the method name in `handle_request`. -/
def dispatch (st : ServerState Card) (request : JsonRpcRequest) :
    Except A2AError (Except A2AError Json) :=
  let h := st.handler
  let w := st.wire
  match request.method with
  | METHOD_MESSAGE_SEND =>
    unary request w.sendMessageRequest h.onMessageSend w.ofSendMessageResponse
  | METHOD_TASKS_GET => unary request w.getTaskRequest h.onGetTask w.ofTask
  | METHOD_TASKS_CANCEL => unary request w.cancelTaskRequest h.onCancelTask w.ofTask
  | METHOD_MESSAGE_STREAM | METHOD_TASKS_RESUBSCRIBE =>
    .ok (.error (.jsonRpc
      (.invalidRequest "Streaming methods must be called via the SSE endpoint")))
  | METHOD_TASKS_LIST => unary request w.listTasksRequest h.onListTasks w.ofListTasksResponse
  | METHOD_PUSH_CONFIG_CREATE =>
    unary request w.taskPushNotificationConfig h.onCreateTaskPushConfig
      w.ofTaskPushNotificationConfig
  | METHOD_PUSH_CONFIG_GET =>
    unary request w.getTaskPushNotificationConfigRequest h.onGetTaskPushConfig
      w.ofTaskPushNotificationConfig
  | METHOD_PUSH_CONFIG_LIST =>
    unary request w.listTaskPushNotificationConfigsRequest h.onListTaskPushConfigs
      w.ofListTaskPushNotificationConfigsResponse
  | METHOD_PUSH_CONFIG_DELETE =>
    unary request w.deleteTaskPushNotificationConfigRequest h.onDeleteTaskPushConfig
      fun _ => .ok .null
  | METHOD_GET_EXTENDED_AGENT_CARD =>
    unary request w.getExtendedAgentCardRequest h.onGetExtendedAgentCard w.ofAgentCard
  | method => .ok (.error (.jsonRpc (.methodNotFound method)))

/-- `handle_request`. -/
def handleRequest (st : ServerState Card) (body : String) : Except A2AError Json :=
  match st.parseRequest body with
  | none => .ok (errorResponse none .parseError)
  | some request => do
    match ← dispatch st request with
    | .ok json => pure json
    | .error e => pure (errorResponse (some request.id) e.toJsonrpcError)

/-- `handle_jsonrpc`: what left `handle_request` early gets an envelope here. -/
def handleJsonrpc (st : ServerState Card) (body : String) : Json :=
  match handleRequest st body with
  | .ok response => response
  | .error e =>
    .object [("jsonrpc", .string "2.0"),
      ("error", .object [("code", codeValue (-32603)), ("message", .string e.display)]),
      ("id", .null)]

/-! ### What a request asks for -/

/-- What becomes of a request before any answer is written. -/
inductive Disposition
  | unknown
  | streaming
  | undecodable
  | refused (e : A2AError)
  | served

/-- The disposition of a request for a unary method. -/
def unaryDisposition (request : JsonRpcRequest) (decode : Json → Except String α)
    (call : α → Except A2AError β) : Disposition :=
  match request.params.map decode with
  | some (.ok req) =>
    match call req with
    | .ok _ => .served
    | .error e => .refused e
  | _ => .undecodable

def disposition (st : ServerState Card) (request : JsonRpcRequest) : Disposition :=
  let h := st.handler
  let w := st.wire
  match request.method with
  | METHOD_MESSAGE_SEND => unaryDisposition request w.sendMessageRequest h.onMessageSend
  | METHOD_TASKS_GET => unaryDisposition request w.getTaskRequest h.onGetTask
  | METHOD_TASKS_CANCEL => unaryDisposition request w.cancelTaskRequest h.onCancelTask
  | METHOD_MESSAGE_STREAM | METHOD_TASKS_RESUBSCRIBE => .streaming
  | METHOD_TASKS_LIST => unaryDisposition request w.listTasksRequest h.onListTasks
  | METHOD_PUSH_CONFIG_CREATE =>
    unaryDisposition request w.taskPushNotificationConfig h.onCreateTaskPushConfig
  | METHOD_PUSH_CONFIG_GET =>
    unaryDisposition request w.getTaskPushNotificationConfigRequest h.onGetTaskPushConfig
  | METHOD_PUSH_CONFIG_LIST =>
    unaryDisposition request w.listTaskPushNotificationConfigsRequest h.onListTaskPushConfigs
  | METHOD_PUSH_CONFIG_DELETE =>
    unaryDisposition request w.deleteTaskPushNotificationConfigRequest h.onDeleteTaskPushConfig
  | METHOD_GET_EXTENDED_AGENT_CARD =>
    unaryDisposition request w.getExtendedAgentCardRequest h.onGetExtendedAgentCard
  | _ => .unknown

/-- The error code a request calls for, when it calls for one. -/
def Disposition.code : Disposition → Option Int32
  | unknown => some JsonRpcErrorCode.methodNotFound.toInt32
  | undecodable => some JsonRpcErrorCode.invalidParams.toInt32
  | refused e => some e.toJsonrpcError.code
  | streaming | served => none

/-- The answer is the one the request asks for: it carries the request's id,
exactly one of `result` and `error`, and the code that its disposition fixes. -/
structure Answers (st : ServerState Card) (request : JsonRpcRequest) (answer : Json) : Prop where
  id : answer.get? "id" = some request.id.toJson
  one : (answer.get? "result").isSome ≠ (answer.get? "error").isSome
  code : ∀ c, (disposition st request).code = some c → errorCode answer = some (codeValue c)

/-! ### Every arm and every exit -/

/-- What the dispatch does with a request of each disposition. -/
def Dispatched (out : Except A2AError (Except A2AError Json)) (id : RequestId) :
    Disposition → Prop
  | .unknown => ∃ method, out = .ok (.error (.jsonRpc (.methodNotFound method)))
  | .streaming => ∃ e, out = .ok (.error e)
  | .undecodable => ∃ e, out = .error e
  | .refused e => out = .error e
  | .served => (∃ e, out = .ok (.error e)) ∨ ∃ r, out = .ok (.ok (successResponse (some id) r))

theorem unary_of_error {request : JsonRpcRequest} {decode : Json → Except String α} {e : A2AError}
    (h : parseParams decode request = .error e) (call : α → Except A2AError β)
    (encode : β → Except String Json) : unary request decode call encode = .error e := by
  rw [unary, h]; rfl

theorem unary_of_ok {request : JsonRpcRequest} {decode : Json → Except String α} {req : α}
    (h : parseParams decode request = .ok req) (call : α → Except A2AError β)
    (encode : β → Except String Json) :
    unary request decode call encode = (call req).map (serializeSuccess encode request.id) := by
  rw [unary, h]; cases hc : call req <;> simp [bind, Except.bind, Except.map, hc]; rfl

/-- A serialization either fails inside the arm or gives the success envelope. -/
theorem serializeSuccess_cases (encode : β → Except String Json) (id : RequestId) (b : β) :
    (∃ e, serializeSuccess encode id b = .error e) ∨
      ∃ r, serializeSuccess encode id b = .ok (successResponse (some id) r) := by
  rw [serializeSuccess]
  cases encode b with
  | error s => exact Or.inl ⟨.json s, rfl⟩
  | ok r => exact Or.inr ⟨r, rfl⟩

theorem dispatched_unary (request : JsonRpcRequest) (decode : Json → Except String α)
    (call : α → Except A2AError β) (encode : β → Except String Json) :
    Dispatched (unary request decode call encode) request.id
      (unaryDisposition request decode call) := by
  rw [unaryDisposition]
  cases hp : request.params with
  | none => exact ⟨_, unary_of_error (by rw [parseParams, hp]) call encode⟩
  | some p =>
    cases hd : decode p with
    | error s =>
      have he : parseParams decode request = .error (.json s) := by
        rw [parseParams, hp]; simp [hd]; rfl
      simp only [Option.map_some, hd]
      exact ⟨_, unary_of_error he call encode⟩
    | ok req =>
      have hr : parseParams decode request = .ok req := by
        rw [parseParams, hp]; simp [hd]; rfl
      rw [unary_of_ok hr call encode]
      simp only [Option.map_some, hd]
      cases call req with
      | error e => exact rfl
      | ok resp =>
        rcases serializeSuccess_cases encode request.id resp with ⟨e, he⟩ | ⟨r, he⟩
        · exact Or.inl ⟨e, congrArg Except.ok he⟩
        · exact Or.inr ⟨r, congrArg Except.ok he⟩

theorem dispatched (st : ServerState Card) (request : JsonRpcRequest) :
    Dispatched (dispatch st request) request.id (disposition st request) := by
  unfold dispatch disposition
  split <;> first | exact dispatched_unary .. | exact ⟨_, rfl⟩

/-! ### The answer -/

section

variable {st : ServerState Card} {body : String} {request : JsonRpcRequest}

theorem handleJsonrpc_of_error (h : st.parseRequest body = some request) {e : A2AError}
    (hd : dispatch st request = .error e) :
    (handleJsonrpc st body).get? "id" = some .null := by
  simp only [handleJsonrpc, handleRequest, h, hd]; rfl

theorem handleJsonrpc_of_refusal (h : st.parseRequest body = some request) {e : A2AError}
    (hd : dispatch st request = .ok (.error e)) :
    handleJsonrpc st body = errorResponse (some request.id) e.toJsonrpcError := by
  simp only [handleJsonrpc, handleRequest, h, hd]; rfl

theorem handleJsonrpc_of_success (h : st.parseRequest body = some request) {json : Json}
    (hd : dispatch st request = .ok (.ok json)) : handleJsonrpc st body = json := by
  simp only [handleJsonrpc, handleRequest, h, hd]; rfl

/-- What left `handle_request` early is answered to nobody. -/
theorem not_answers_of_error (h : st.parseRequest body = some request) {e : A2AError}
    (hd : dispatch st request = .error e) : ¬ Answers st request (handleJsonrpc st body) := by
  intro ha
  have hid := ha.id
  rw [handleJsonrpc_of_error h hd] at hid
  exact request.id.toJson_ne_null (Option.some.inj hid).symm

theorem answers_errorResponse (e : JsonRpcError) (hc : (disposition st request).code = none) :
    Answers st request (errorResponse (some request.id) e) where
  id := get?_id_errorResponse _ _
  one := by rw [get?_result_errorResponse, get?_error_errorResponse]; simp
  code c h := by rw [hc] at h; exact absurd h (by simp)

theorem answers_successResponse (r : Json) (hc : (disposition st request).code = none) :
    Answers st request (successResponse (some request.id) r) where
  id := get?_id_successResponse _ _
  one := by rw [get?_result_successResponse, get?_error_successResponse]; simp
  code c h := by rw [hc] at h; exact absurd h (by simp)

/-- **A request is answered as it asks exactly when its method is known and
nothing fails before the answer is serialized**: the parameters decode and the
handler accepts, or the method is one of the two streaming ones, which are
turned away with the id. -/
theorem answers_iff (h : st.parseRequest body = some request) :
    Answers st request (handleJsonrpc st body) ↔
      disposition st request = .served ∨ disposition st request = .streaming := by
  have hd := dispatched st request
  cases hs : disposition st request with
  | unknown =>
    rw [hs] at hd
    obtain ⟨m, hm⟩ := hd
    rw [handleJsonrpc_of_refusal h hm]
    refine ⟨fun ha => ?_, fun hc => by simp at hc⟩
    -- the envelope carries the id, but the error inside it has lost its code
    have hc := ha.code _ (by rw [hs]; rfl)
    rw [errorCode_errorResponse, A2AError.code_jsonRpc] at hc
    exact absurd hc (by decide)
  | streaming =>
    rw [hs] at hd
    obtain ⟨e, he⟩ := hd
    rw [handleJsonrpc_of_refusal h he]
    exact ⟨fun _ => Or.inr rfl, fun _ => answers_errorResponse _ (by rw [hs]; rfl)⟩
  | undecodable =>
    rw [hs] at hd
    obtain ⟨e, he⟩ := hd
    exact ⟨fun ha => absurd ha (not_answers_of_error h he), fun hc => by simp at hc⟩
  | refused e =>
    rw [hs] at hd
    exact ⟨fun ha => absurd ha (not_answers_of_error h hd), fun hc => by simp at hc⟩
  | served =>
    rw [hs] at hd
    refine ⟨fun _ => Or.inl rfl, fun _ => ?_⟩
    rcases hd with ⟨e, he⟩ | ⟨r, hr⟩
    · rw [handleJsonrpc_of_refusal h he]
      exact answers_errorResponse _ (by rw [hs]; rfl)
    · rw [handleJsonrpc_of_success h hr]
      exact answers_successResponse _ (by rw [hs]; rfl)

end

/-! ### A server without tasks -/

/-- A `tasks/get` for a task that is not there. -/
def getMissingTask : String :=
  "\x7b\"jsonrpc\":\"2.0\",\"id\":7,\"method\":\"tasks/get\",\"params\":\x7b\"id\":\"t1\"\x7d\x7d"

/-- The request in `getMissingTask`. -/
def getMissingTaskRequest : JsonRpcRequest :=
  ⟨"2.0", .number 7, METHOD_TASKS_GET, some (.object [("id", .string "t1")])⟩

/-- A server that holds no task and serves no other method; its wire instances
read and write what `tasks/get` needs. -/
def emptyServer : ServerState Unit where
  handler :=
    { onMessageSend := fun _ => .error (.unsupportedOperation "message/send")
      onGetTask := fun r => .error (.taskNotFound r.id)
      onListTasks := fun _ => .ok ⟨[], "", 50, 0⟩
      onCancelTask := fun r => .error (.taskNotFound r.id)
      onCreateTaskPushConfig := fun _ => .error .pushNotificationNotSupported
      onGetTaskPushConfig := fun _ => .error .pushNotificationNotSupported
      onListTaskPushConfigs := fun _ => .error .pushNotificationNotSupported
      onDeleteTaskPushConfig := fun _ => .error .pushNotificationNotSupported
      onGetExtendedAgentCard := fun _ => .error .extendedCardNotConfigured }
  wire :=
    { sendMessageRequest := fun _ => .error "missing field `message`"
      getTaskRequest := fun j =>
        match j.get? "id" with
        | some (.string id) => .ok ⟨none, id, none⟩
        | _ => .error "missing field `id`"
      listTasksRequest := fun _ => .ok ⟨none, none, none, none, none, none, none, none⟩
      cancelTaskRequest := fun _ => .error "missing field `id`"
      taskPushNotificationConfig := fun _ => .error "missing field `url`"
      getTaskPushNotificationConfigRequest := fun _ => .error "missing field `taskId`"
      listTaskPushNotificationConfigsRequest := fun _ => .error "missing field `taskId`"
      deleteTaskPushNotificationConfigRequest := fun _ => .error "missing field `taskId`"
      getExtendedAgentCardRequest := fun _ => .ok ⟨none⟩
      ofSendMessageResponse := fun _ => .error ""
      ofTask := fun _ => .error ""
      ofListTasksResponse := fun _ => .ok (.object [("tasks", .array [])])
      ofTaskPushNotificationConfig := fun _ => .error ""
      ofListTaskPushNotificationConfigsResponse := fun _ => .error ""
      ofAgentCard := fun _ => .error "" }
  parseRequest body := if body = getMissingTask then some getMissingTaskRequest else none

theorem parse_getMissingTask :
    emptyServer.parseRequest getMissingTask = some getMissingTaskRequest := by
  simp [emptyServer]

/-- Its answer carries neither the id `7` nor the code `-32001`. -/
theorem getMissingTask_not_answered :
    emptyServer.parseRequest getMissingTask = some getMissingTaskRequest ∧
      (handleJsonrpc emptyServer getMissingTask).get? "id" = some .null ∧
      errorCode (handleJsonrpc emptyServer getMissingTask) = some (codeValue (-32603)) ∧
      ¬ Answers emptyServer getMissingTaskRequest (handleJsonrpc emptyServer getMissingTask) := by
  have hd : dispatch emptyServer getMissingTaskRequest = .error (.taskNotFound "t1") := rfl
  refine ⟨parse_getMissingTask, handleJsonrpc_of_error parse_getMissingTask hd, ?_,
    not_answers_of_error parse_getMissingTask hd⟩
  simp only [handleJsonrpc, handleRequest, parse_getMissingTask, hd]
  rfl

theorem answers_iff_getMissingTask :
    Answers emptyServer getMissingTaskRequest (handleJsonrpc emptyServer getMissingTask) ↔
      disposition emptyServer getMissingTaskRequest = .served ∨
        disposition emptyServer getMissingTaskRequest = .streaming :=
  answers_iff parse_getMissingTask

end Ra2a
