import Ra2a.Lib.Chain
import Ra2a.Server.Dispatch
import Ra2a.Types.Agent
import Ra2a.Types.RequestWire
import Ra2a.Types.Text

/-!
# Requests with the calls they make

`handle_request` again, now from text to text and with a handler that has a state:
a method of `RequestHandler` takes the state before the call to the result and the
state after it.  As the state may be any type, where a request leaves the state
tells what was called, with what, and how often.

At each state this is the dispatcher of `Ra2a.Server.Dispatch` with the handler's
results at that state, and its answer printed (`handleText_of_ok`).
-/

namespace Ra2a

/-- An `async fn` that returns a `Result`, run to its end. -/
abbrev Handling (σ α : Type) := ExceptT A2AError (StateM σ) α

theorem handling_liftM {σ α : Type} {m : StateM σ α} {s : σ} :
    (liftM m : Handling σ α) s = (.ok (m s).1, (m s).2) := rfl

theorem handling_liftExcept {σ α : Type} {r : Except A2AError α} {s : σ} :
    (liftExcept r : Handling σ α) s = (r, s) := by
  cases r <;> rfl

/-- A handler with a state. -/
structure StatefulHandler (σ : Type) where
  onMessageSend : SendMessageRequest → Handling σ SendMessageResponse
  onGetTask : GetTaskRequest → Handling σ Task
  onListTasks : ListTasksRequest → Handling σ ListTasksResponse
  onCancelTask : CancelTaskRequest → Handling σ Task
  onCreateTaskPushConfig : TaskPushNotificationConfig → Handling σ TaskPushNotificationConfig
  onGetTaskPushConfig :
    GetTaskPushNotificationConfigRequest → Handling σ TaskPushNotificationConfig
  onListTaskPushConfigs :
    ListTaskPushNotificationConfigsRequest → Handling σ ListTaskPushNotificationConfigsResponse
  onDeleteTaskPushConfig : DeleteTaskPushNotificationConfigRequest → Handling σ Unit
  onGetExtendedAgentCard : GetExtendedAgentCardRequest → Handling σ AgentCard

/-- A handler that supports no method. -/
def StatefulHandler.unsupported (σ : Type) : StatefulHandler σ where
  onMessageSend _ := throw (.unsupportedOperation METHOD_MESSAGE_SEND)
  onGetTask _ := throw (.unsupportedOperation METHOD_TASKS_GET)
  onListTasks _ := throw (.unsupportedOperation METHOD_TASKS_LIST)
  onCancelTask _ := throw (.unsupportedOperation METHOD_TASKS_CANCEL)
  onCreateTaskPushConfig _ := throw .pushNotificationNotSupported
  onGetTaskPushConfig _ := throw .pushNotificationNotSupported
  onListTaskPushConfigs _ := throw .pushNotificationNotSupported
  onDeleteTaskPushConfig _ := throw .pushNotificationNotSupported
  onGetExtendedAgentCard _ := throw .extendedCardNotConfigured

/-- A handler with its two streaming methods, whose streams are run to their end. -/
structure StreamingHandler (σ : Type) extends StatefulHandler σ where
  onMessageStream : SendMessageRequest → Handling σ (List (Except A2AError Event))
  onSubscribeToTask : SubscribeToTaskRequest → Handling σ (List (Except A2AError Event))

section

variable [JsonText] [∀ α, DecodeError α]

/-- `serde_json::from_value`. -/
def fromValue {α : Type} [Serde α] (j : Json) : Except String α :=
  match deserialize j with
  | some a => .ok a
  | none => .error (DecodeError.message α ((JsonText.print j).getD ""))

/-- `serde_json::to_string(..)?`. -/
def printed (j : Json) : Except A2AError String :=
  match JsonText.print j with
  | some s => .ok s
  | none => .error (.json "key must be a string")

/-- `serialize_success`, as text. -/
def successText {β : Type} [Serde β] (id : RequestId) (result : β) : Except A2AError String := do
  let json ← serializeSuccess (fun b => .ok (serialize b)) id result
  printed json

omit [∀ α, DecodeError α] in
theorem printed_of_print {j : Json} {text : String} (h : JsonText.print j = some text) :
    printed j = .ok text := by
  rw [printed, h]

variable {σ : Type}

/-- One unary arm of the dispatch. -/
def unaryText {α β : Type} [Serde α] [Serde β] (request : JsonRpcRequest)
    (call : α → Handling σ β) :
    Handling σ (Except A2AError String) := do
  let req ← liftExcept (parseParams fromValue request)
  let resp ← call req
  pure (successText request.id resp)

variable [Base64]

/-- The `match` on the method name in `handle_request`. -/
def dispatchText (h : StatefulHandler σ) (request : JsonRpcRequest) :
    Handling σ (Except A2AError String) :=
  match request.method with
  | METHOD_MESSAGE_SEND => unaryText request h.onMessageSend
  | METHOD_TASKS_GET => unaryText request h.onGetTask
  | METHOD_TASKS_CANCEL => unaryText request h.onCancelTask
  | METHOD_MESSAGE_STREAM | METHOD_TASKS_RESUBSCRIBE =>
    pure (.error (.jsonRpc
      (.invalidRequest "Streaming methods must be called via the SSE endpoint")))
  | METHOD_TASKS_LIST => unaryText request h.onListTasks
  | METHOD_PUSH_CONFIG_CREATE => unaryText request h.onCreateTaskPushConfig
  | METHOD_PUSH_CONFIG_GET => unaryText request h.onGetTaskPushConfig
  | METHOD_PUSH_CONFIG_LIST => unaryText request h.onListTaskPushConfigs
  | METHOD_PUSH_CONFIG_DELETE => unaryText request h.onDeleteTaskPushConfig
  | METHOD_GET_EXTENDED_AGENT_CARD => unaryText request h.onGetExtendedAgentCard
  | method => pure (.error (.jsonRpc (.methodNotFound method)))

/-- `handle_request`. -/
def handleText (h : StatefulHandler σ) (body : String) : Handling σ String :=
  match (fromText body : Option JsonRpcRequest) with
  | none => liftExcept (printed (errorResponse none .parseError))
  | some request => do
    match ← dispatchText h request with
    | .ok json => pure json
    | .error e => liftExcept (printed (errorResponse (some request.id) e.toJsonrpcError))

/-- `handle_jsonrpc`: what left `handle_request` early gets an envelope here. -/
def handleJsonrpcText (h : StatefulHandler σ) (body : String) : StateM σ String := do
  match ← (handleText h body).run with
  | .ok response => pure response
  | .error e =>
    let envelope := Json.object [("error", .object [("code", codeValue (-32603)),
      ("message", .string e.display)]), ("id", .null), ("jsonrpc", .string "2.0")]
    pure ((JsonText.print envelope).getD "")

/-! ### The state that is left -/

/-- Printing an answer leaves the state as the methods have. -/
theorem handleText_state {h : StatefulHandler σ} {body : String} {request : JsonRpcRequest} {s : σ}
    (hbody : (fromText body : Option JsonRpcRequest) = some request) :
    (handleText h body s).2 = (dispatchText h request s).2 := by
  rw [handleText, hbody]
  show ((dispatchText h request >>= _) s).2 = _
  rw [Chain.bind_run]
  rcases dispatchText h request s with ⟨_ | _ | _, s'⟩
  · rfl
  · exact congrArg Prod.snd handling_liftExcept
  · rfl

theorem handleText_state_of_none {h : StatefulHandler σ} {body : String} {s : σ}
    (hbody : (fromText body : Option JsonRpcRequest) = none) : (handleText h body s).2 = s := by
  rw [handleText, hbody]
  exact congrArg Prod.snd handling_liftExcept

theorem handleJsonrpcText_state {h : StatefulHandler σ} {body : String} {s : σ} :
    (handleJsonrpcText h body s).2 = (handleText h body s).2 := by
  rcases hrun : handleText h body s with ⟨_ | text, s'⟩ <;>
    simp only [handleJsonrpcText, bind, StateT.bind, ExceptT.run, hrun] <;> rfl

theorem handleJsonrpcText_of_ok {h : StatefulHandler σ} {body text : String} {s s' : σ}
    (hok : handleText h body s = (.ok text, s')) : handleJsonrpcText h body s = (text, s') := by
  have hrun : (handleText h body).run s = (.ok text, s') := hok
  simp only [handleJsonrpcText, bind, StateT.bind, hrun]
  rfl

/-! ### The dispatcher at a state -/

/-- What the methods return at a state. -/
def StatefulHandler.at (h : StatefulHandler σ) (s : σ) : RequestHandler AgentCard where
  onMessageSend r := (h.onMessageSend r s).1
  onGetTask r := (h.onGetTask r s).1
  onListTasks r := (h.onListTasks r s).1
  onCancelTask r := (h.onCancelTask r s).1
  onCreateTaskPushConfig r := (h.onCreateTaskPushConfig r s).1
  onGetTaskPushConfig r := (h.onGetTaskPushConfig r s).1
  onListTaskPushConfigs r := (h.onListTaskPushConfigs r s).1
  onDeleteTaskPushConfig r := (h.onDeleteTaskPushConfig r s).1
  onGetExtendedAgentCard r := (h.onGetExtendedAgentCard r s).1

/-- The derived instances. -/
def derivedWire : Wire AgentCard where
  sendMessageRequest := fromValue
  getTaskRequest := fromValue
  listTasksRequest := fromValue
  cancelTaskRequest := fromValue
  taskPushNotificationConfig := fromValue
  getTaskPushNotificationConfigRequest := fromValue
  listTaskPushNotificationConfigsRequest := fromValue
  deleteTaskPushNotificationConfigRequest := fromValue
  getExtendedAgentCardRequest := fromValue
  ofSendMessageResponse v := .ok (serialize v)
  ofTask v := .ok (serialize v)
  ofListTasksResponse v := .ok (serialize v)
  ofTaskPushNotificationConfig v := .ok (serialize v)
  ofListTaskPushNotificationConfigsResponse v := .ok (serialize v)
  ofAgentCard v := .ok (serialize v)

def StatefulHandler.state (h : StatefulHandler σ) (s : σ) : ServerState AgentCard :=
  ⟨h.at s, derivedWire, fromText⟩

section Unary

variable {α β : Type} [Serde α] [Serde β] {request : JsonRpcRequest} {call : α → Handling σ β}
  {req : α} {s s' : σ}

omit [Base64]

theorem unaryText_of_error {e : A2AError}
    (h : parseParams (fromValue (α := α)) request = .error e) :
    unaryText request call s = (.error e, s) := by
  rw [unaryText, h]
  rfl

/-- **An arm that decodes its parameters calls the method once, with them.** -/
theorem unaryText_of_ok (h : parseParams fromValue request = .ok req) :
    unaryText request call s =
      (Except.map (successText request.id) (call req s).1, (call req s).2) := by
  rw [unaryText, h, Chain.bind_run]
  show (call req >>= fun resp => pure (successText request.id resp)) s = _
  rw [Chain.bind_run]
  rcases call req s with ⟨_ | resp, s'⟩ <;> rfl

/-- The state an arm leaves is the one its method leaves, if that is called. -/
theorem unaryText_state : (unaryText request call s).2 =
    match parseParams (fromValue (α := α)) request with
    | .ok req => (call req s).2
    | .error _ => s := by
  split
  case h_1 req h => rw [unaryText_of_ok h]
  case h_2 e h => rw [unaryText_of_error h]

theorem unaryText_fst : (unaryText request call s).1 =
    (unary request fromValue (fun a => (call a s).1) fun b : β => .ok (serialize b)).map
      fun json => json >>= printed := by
  cases hp : parseParams (fromValue (α := α)) request with
  | error e =>
    rw [unaryText_of_error hp, unary_of_error hp]
    rfl
  | ok req =>
    rw [unaryText_of_ok hp, unary_of_ok hp]
    cases (call req s).1 <;> rfl

end Unary

theorem dispatchText_fst (h : StatefulHandler σ) (request : JsonRpcRequest) (s : σ) :
    (dispatchText h request s).1 =
      (dispatch (h.state s) request).map fun json => json >>= printed := by
  unfold dispatchText
  generalize hm : request.method = method
  split
  case h_12 =>
    unfold dispatch
    rw [hm]
    split <;> first | contradiction | rfl
  all_goals
    unfold dispatch
    rw [hm]
    first | exact unaryText_fst | rfl

/-- **At each state the answer is the dispatcher's, printed**, if it can be. -/
theorem handleText_of_ok {h : StatefulHandler σ} {body text : String} {s : σ} {j : Json}
    (hj : handleRequest (h.state s) body = .ok j) (hprint : JsonText.print j = some text) :
    (handleText h body s).1 = .ok text := by
  have hparse : (h.state s).parseRequest body = fromText body := rfl
  have htext := printed_of_print hprint
  unfold handleRequest at hj
  unfold handleText
  cases hbody : (fromText body : Option JsonRpcRequest) with
  | none =>
    rw [hparse, hbody] at hj
    obtain rfl := Except.ok.inj hj
    show ((liftExcept (printed (errorResponse none .parseError)) : Handling σ String) s).1 = _
    rw [htext]
    rfl
  | some request =>
    have hfst := dispatchText_fst h request s
    rw [hparse, hbody] at hj
    simp only at hj
    show ((dispatchText h request >>= _) s).1 = _
    rw [Chain.bind_run]
    rcases hd : dispatch (h.state s) request with e | e | json <;> rw [hd] at hj hfst
    · cases hj
    · obtain rfl := Except.ok.inj hj
      rcases hrun : dispatchText h request s with ⟨result, s'⟩
      rw [hrun] at hfst
      obtain rfl : result = .ok (.error e) := hfst
      show ((liftExcept (printed (errorResponse (some request.id) e.toJsonrpcError)) :
        Handling σ String) s').1 = _
      rw [htext]
      rfl
    · obtain rfl := Except.ok.inj hj
      rcases hrun : dispatchText h request s with ⟨result, s'⟩
      rw [hrun] at hfst
      obtain rfl : result = .ok (printed json) := hfst
      rw [htext]
      rfl

end

end Ra2a
