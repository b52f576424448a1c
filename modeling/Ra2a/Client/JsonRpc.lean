import Ra2a.Server.Requests

/-!
# The JSON-RPC client

`JsonRpcTransport` of `client/jsonrpc.rs`, its unary operations.  Each of them
posts an envelope with its method's name and reads the response, and the server's
`match` has an arm for each of these names (`unary_calls_answered`).

The HTTP exchange takes the text of the request to that of the response, whose
status is 200.
-/

namespace Ra2a

/-- `JsonRpcRequest::new`, with the identifier it draws. -/
def JsonRpcRequest.new {P : Type} [Serde P] (id : RequestId) (method : String) (params : P) :
    JsonRpcRequest where
  jsonrpc := "2.0"
  id := id
  method := method
  params := some (serialize params)

section

variable [JsonText] [∀ α, DecodeError α] {σ : Type}

/-- `JsonRpcTransport::rpc_call`. -/
def rpcCall {P R : Type} [Serde P] [Serde R] (server : String → StateM σ String) (id : RequestId)
    (method : String) (params : P) : Handling σ R :=
  match JsonText.print (JsonRpcRequest.new id method params).toJson with
  | none => throw (.http "builder error")
  | some body => do
    let text ← server body
    match (fromStr text : Except String (JsonRpcResponse R)) with
    | .ok (.success s) => pure s.result
    | .ok (.error e) => throw (.jsonRpc e.error)
    | .error _ => throw (.http "error decoding response body")

/-! ### The operations -/

section Transport

variable [Base64] (server : String → StateM σ String) (id : RequestId)

namespace JsonRpcTransport

def sendMessage (req : SendMessageRequest) : Handling σ SendMessageResponse :=
  rpcCall server id METHOD_MESSAGE_SEND req

def getTask (req : GetTaskRequest) : Handling σ Task := rpcCall server id METHOD_TASKS_GET req

def listTasks (req : ListTasksRequest) : Handling σ ListTasksResponse :=
  rpcCall server id METHOD_TASKS_LIST req

def cancelTask (req : CancelTaskRequest) : Handling σ Task :=
  rpcCall server id METHOD_TASKS_CANCEL req

def createTaskPushConfig (req : TaskPushNotificationConfig) :
    Handling σ TaskPushNotificationConfig :=
  rpcCall server id METHOD_PUSH_CONFIG_CREATE req

def getTaskPushConfig (req : GetTaskPushNotificationConfigRequest) :
    Handling σ TaskPushNotificationConfig :=
  rpcCall server id METHOD_PUSH_CONFIG_GET req

def listTaskPushConfigs (req : ListTaskPushNotificationConfigsRequest) :
    Handling σ ListTaskPushNotificationConfigsResponse :=
  rpcCall server id METHOD_PUSH_CONFIG_LIST req

def deleteTaskPushConfig (req : DeleteTaskPushNotificationConfigRequest) : Handling σ Unit :=
  rpcCall server id METHOD_PUSH_CONFIG_DELETE req

def getExtendedAgentCard (req : GetExtendedAgentCardRequest) : Handling σ AgentCard :=
  rpcCall server id METHOD_GET_EXTENDED_AGENT_CARD req

end JsonRpcTransport

end Transport

/-! ### One call, and its answer -/

/-- What `handle_jsonrpc` answers where `handle_request` was left with an error. -/
def internalEnvelope (e : A2AError) : Json :=
  .object [("error", .object [("code", codeValue (-32603)), ("message", .string e.display)]),
    ("id", .null), ("jsonrpc", .string "2.0")]

/-- An operation makes one call, with the request it is given, and gives what the
call returns: it leaves the state that the call leaves. -/
def CalledOnce {P R : Type} [Serde P] [Serde R] (id : RequestId) (method : String)
    (onCall op : P → Handling σ R) : Prop :=
  ∀ r v s s', onCall r s = (.ok v, s') →
    JsonText.Lossless (JsonRpcRequest.new id method r).toJson →
    JsonText.Lossless (successResponse (some id) (serialize v)) → op r s = (.ok v, s')

omit [JsonText] [∀ α, DecodeError α] in
/-- A request is read back with its parameters. -/
theorem ofJson_new {P : Type} [Serde P] [NeverNull P] (id : RequestId) (method : String) (r : P) :
    JsonRpcRequest.ofJson (JsonRpcRequest.new id method r).toJson =
      some (JsonRpcRequest.new id method r) := by
  refine JsonRpcRequest.ofJson_toJson _ fun hnull => ?_
  have hparams : serialize r = .null := Option.some.inj hnull
  exact NeverNull.ne_null r hparams

omit [∀ α, DecodeError α] in
/-- The text of a request is read back as it was. -/
theorem fromText_new {P : Type} [Serde P] [NeverNull P] {id : RequestId} {method : String} {r : P}
    {body : String} (hparse : JsonText.parse body = some (JsonRpcRequest.new id method r).toJson) :
    (fromText body : Option JsonRpcRequest) = some (JsonRpcRequest.new id method r) := by
  rw [fromText, hparse]
  exact ofJson_new id method r

/-- The parameters of a request are decoded to what they are. -/
theorem parseParams_new {P : Type} [Serde P] [LawfulSerde P] (id : RequestId) (method : String)
    (r : P) : parseParams fromValue (JsonRpcRequest.new id method r) = .ok r := by
  show ((fromValue (serialize r) : Except String P).mapError A2AError.json) = .ok r
  rw [fromValue, LawfulSerde.deserialize_serialize]
  rfl

section Call

variable [Base64] {h : StatefulHandler σ} {id : RequestId} {method : String}

/-- What a response means to the caller. -/
def JsonRpcResponse.outcome {R : Type} : JsonRpcResponse R → Except A2AError R
  | .success s => .ok s.result
  | .error e => .error (.jsonRpc e.error)

omit [Base64] in
/-- The outcome of a call is that of the response, which is read from the text. -/
theorem rpcCall_of_answer {P R : Type} [Serde P] [Serde R] {server : String → StateM σ String}
    {r : P} {s s' : σ} {body text : String} {answer : Json} {response : JsonRpcResponse R}
    (hprint : JsonText.print (JsonRpcRequest.new id method r).toJson = some body)
    (hserver : server body s = (text, s')) (hback : JsonText.parse text = some answer)
    (hanswer : JsonRpcResponse.ofJson answer = some response) :
    rpcCall server id method r s = (response.outcome, s') := by
  have hread : (fromStr text : Except String (JsonRpcResponse R)) = .ok response := by
    refine fromStr_of_fromText ?_
    rw [fromText, hback]
    exact hanswer
  rw [rpcCall, hprint]
  show ((liftM (server body) : Handling σ String) >>= _) s = _
  rw [Chain.bind_run, handling_liftM, hserver]
  simp only [hread]
  cases response <;> rfl

/-- **A call through an arm of the `match`** is a call of its method. -/
theorem rpcCall_ok {P R : Type} [Serde P] [LawfulSerde P] [NeverNull P] [Serde R] [LawfulSerde R]
    {onCall : P → Handling σ R} {r : P} {v : R} {s s' : σ}
    (harm : ∀ request : JsonRpcRequest, request.method = method →
      dispatchText h request = unaryText request onCall)
    (hcall : onCall r s = (.ok v, s'))
    (hrequest : JsonText.Lossless (JsonRpcRequest.new id method r).toJson)
    (hresponse : JsonText.Lossless (successResponse (some id) (serialize v))) :
    rpcCall (handleJsonrpcText h) id method r s = (Except.ok v, s') := by
  obtain ⟨body, hprint, hparse⟩ := hrequest
  obtain ⟨text, htext, hback⟩ := hresponse
  have hsuccess : successText id v = .ok text := printed_of_print htext
  have harms : dispatchText h (JsonRpcRequest.new id method r) s = (.ok (.ok text), s') := by
    rw [harm _ rfl, unaryText_of_ok (parseParams_new id method r), hcall]
    show (Except.ok (successText id v), s') = _
    rw [hsuccess]
  have hhandle : handleText h body s = (.ok text, s') := by
    rw [handleText, fromText_new hparse]
    show (dispatchText h (JsonRpcRequest.new id method r) >>= _) s = _
    rw [Chain.bind_run, harms]
    rfl
  exact rpcCall_of_answer hprint (handleJsonrpcText_of_ok hhandle) hback
    (ofJson_successResponse id v)

omit [JsonText] [∀ α, DecodeError α] [Base64] in
/-- The envelope of an error that left `handle_request` is read as an internal error. -/
theorem ofJson_internalEnvelope {R : Type} [Serde R] (e : A2AError) :
    JsonRpcResponse.ofJson (R := R) (internalEnvelope e) =
      some (.error ⟨"2.0", none, ⟨-32603, e.display, none⟩⟩) :=
  ofJson_error_of_readOption rfl rfl rfl rfl
    (JsonRpcError.ofJson_toJson ⟨-32603, e.display, none⟩ (Option.some_ne_none _).symm)

/-- **A call that fails** is an internal error, with the text of what it failed with. -/
theorem rpcCall_error {P R : Type} [Serde P] [LawfulSerde P] [NeverNull P] [Serde R]
    {onCall : P → Handling σ R} {r : P} {e : A2AError} {s s' : σ}
    (harm : ∀ request : JsonRpcRequest, request.method = method →
      dispatchText h request = unaryText request onCall)
    (hcall : onCall r s = (.error e, s'))
    (hrequest : JsonText.Lossless (JsonRpcRequest.new id method r).toJson)
    (hresponse : JsonText.Lossless (internalEnvelope e)) :
    rpcCall (handleJsonrpcText h) id method r s =
      ((Except.error (.jsonRpc ⟨-32603, e.display, none⟩) : Except A2AError R), s') := by
  obtain ⟨body, hprint, hparse⟩ := hrequest
  obtain ⟨text, htext, hback⟩ := hresponse
  have hhandle : handleText h body s = (.error e, s') := by
    rw [handleText, fromText_new hparse]
    show (dispatchText h (JsonRpcRequest.new id method r) >>= _) s = _
    rw [Chain.bind_run, harm _ rfl, unaryText_of_ok (parseParams_new id method r), hcall]
    rfl
  have hanswer : handleJsonrpcText h body s = (text, s') := by
    have hrun : (handleText h body).run s = (.error e, s') := hhandle
    simp only [handleJsonrpcText, bind, StateT.bind, hrun]
    show ((JsonText.print (internalEnvelope e)).getD "", s') = _
    rw [htext, Option.getD_some]
  exact rpcCall_of_answer hprint hanswer hback (ofJson_internalEnvelope e)

end Call

/-- **Every unary operation is its method's call**: the name it posts is that of
the arm with its request and its result. -/
theorem unary_calls_answered [Base64] [LawfulBase64] (h : StatefulHandler σ) (id : RequestId) :
    CalledOnce id METHOD_MESSAGE_SEND h.onMessageSend
        (JsonRpcTransport.sendMessage (handleJsonrpcText h) id) ∧
      CalledOnce id METHOD_TASKS_GET h.onGetTask
        (JsonRpcTransport.getTask (handleJsonrpcText h) id) ∧
      CalledOnce id METHOD_TASKS_LIST h.onListTasks
        (JsonRpcTransport.listTasks (handleJsonrpcText h) id) ∧
      CalledOnce id METHOD_TASKS_CANCEL h.onCancelTask
        (JsonRpcTransport.cancelTask (handleJsonrpcText h) id) ∧
      CalledOnce id METHOD_PUSH_CONFIG_CREATE h.onCreateTaskPushConfig
        (JsonRpcTransport.createTaskPushConfig (handleJsonrpcText h) id) ∧
      CalledOnce id METHOD_PUSH_CONFIG_GET h.onGetTaskPushConfig
        (JsonRpcTransport.getTaskPushConfig (handleJsonrpcText h) id) ∧
      CalledOnce id METHOD_PUSH_CONFIG_LIST h.onListTaskPushConfigs
        (JsonRpcTransport.listTaskPushConfigs (handleJsonrpcText h) id) ∧
      CalledOnce id METHOD_PUSH_CONFIG_DELETE h.onDeleteTaskPushConfig
        (JsonRpcTransport.deleteTaskPushConfig (handleJsonrpcText h) id) ∧
      CalledOnce id METHOD_GET_EXTENDED_AGENT_CARD h.onGetExtendedAgentCard
        (JsonRpcTransport.getExtendedAgentCard (handleJsonrpcText h) id) := by
  have hcall : ∀ {P R : Type} [Serde P] [LawfulSerde P] [NeverNull P] [Serde R] [LawfulSerde R]
      {method : String} {onCall : P → Handling σ R}, (∀ request : JsonRpcRequest,
        request.method = method → dispatchText h request = unaryText request onCall) →
      CalledOnce id method onCall (rpcCall (handleJsonrpcText h) id method) := by
    intro P R _ _ _ _ _ method onCall harm r v s s' hok hrequest hresponse
    exact rpcCall_ok harm hok hrequest hresponse
  refine ⟨hcall ?_, hcall ?_, hcall ?_, hcall ?_, hcall ?_, hcall ?_, hcall ?_, hcall ?_,
    hcall ?_⟩ <;> intro request hmethod <;> unfold dispatchText <;>
    rw [hmethod] <;> rfl

end

/-! ### A handler to run it with -/

/-- A handler that writes down what it is asked to delete, and can do no more. -/
def deletions : StatefulHandler (List DeleteTaskPushNotificationConfigRequest) :=
  { StatefulHandler.unsupported _ with
    onDeleteTaskPushConfig := fun r asked => (.ok (), asked ++ [r]) }

/-- The request to delete a configuration and the answer to it. -/
def deletionTexts : List (Json × String) :=
  [((JsonRpcRequest.new (.number 1) METHOD_PUSH_CONFIG_DELETE
      (⟨none, "t1", "c1"⟩ : DeleteTaskPushNotificationConfigRequest)).toJson,
      braced ("\"jsonrpc\":\"2.0\",\"id\":1,\"method\":\"tasks/pushNotificationConfig/delete\"," ++
        "\"params\":" ++ braced "\"taskId\":\"t1\",\"id\":\"c1\"")),
    (successResponse (some (.number 1)) .null,
      braced "\"jsonrpc\":\"2.0\",\"id\":1,\"result\":null")]

theorem unary_calls_answered_delete :
    letI := byteChars
    letI := tableText deletionTexts
    letI : ∀ α, DecodeError α := fun _ => ⟨fun _ => "invalid"⟩
    JsonRpcTransport.deleteTaskPushConfig (handleJsonrpcText deletions) (.number 1)
      ⟨none, "t1", "c1"⟩ [] = (.ok (), [⟨none, "t1", "c1"⟩]) := by
  let := byteChars
  let := tableText deletionTexts
  let : ∀ α, DecodeError α := fun _ => ⟨fun _ => "invalid"⟩
  have := lawful_byteChars
  have h := (unary_calls_answered deletions (.number 1)).2.2.2.2.2.2.2.1
  refine h ⟨none, "t1", "c1"⟩ () [] _ rfl ⟨_, rfl, rfl⟩ ⟨_, rfl, rfl⟩

end Ra2a
