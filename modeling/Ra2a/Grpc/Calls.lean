import Ra2a.Client.Sse
import Ra2a.Grpc.Events
import Ra2a.Server.Rest

/-!
# Calls over gRPC

`GrpcTransport` of `client/grpc.rs` has five operations; the others fail at once and
send nothing.  `GrpcServiceImpl` of `grpc/server.rs` makes one call of each message it
can convert, and converts what the call returns.  So where the request comes back
(`CarriedByGrpc`) an operation is one call of the handler, with a task or a message as
it comes back and a stream as the client sees it (`grpcCall_answered`).
-/

namespace Ra2a

/-! ### Messages -/

namespace Proto

/-- `send_message_response::Payload`. -/
inductive SendMessagePayload
  | task (t : Task)
  | message (m : Message)

structure SendMessageResponse where
  payload : Option SendMessagePayload

structure GetTaskRequest where
  tenant : String
  id : String
  historyLength : Option Int32

structure SubscribeToTaskRequest where
  tenant : String
  id : String

end Proto

section

variable [F64] [ProtoEnum Proto.Role] [ProtoEnum Proto.TaskState] [Chrono] {σ : Type}

/-! ### The service -/

/-- The end of a method: the result converted, or a status. -/
def grpcReply {α β : Type} (convert : α → β) (result : Handling σ α) :
    StateM σ (Except GrpcStatus β) := do
  match ← result.run with
  | .ok v => pure (.ok (convert v))
  | .error e => pure (.error e.toGrpcStatus)

/-- A method whose request may be refused. -/
def grpcReceived {α β : Type} (req : Except GrpcStatus α)
    (method : α → StateM σ (Except GrpcStatus β)) : StateM σ (Except GrpcStatus β) :=
  match req with
  | .ok req => method req
  | .error status => pure (.error status)

def SendMessageResponse.toProto : SendMessageResponse → Proto.SendMessageResponse
  | .task t => ⟨some (.task t.toProto)⟩
  | .message m => ⟨some (.message m.toProto)⟩

/-- `GrpcServiceImpl`: the methods that a client calls. -/
structure GrpcService (σ : Type) where
  sendMessage : Proto.SendMessageRequest → StateM σ (Except GrpcStatus Proto.SendMessageResponse)
  sendStreamingMessage : Proto.SendMessageRequest →
    StateM σ (Except GrpcStatus (List (Except GrpcStatus Proto.StreamResponse)))
  getTask : Proto.GetTaskRequest → StateM σ (Except GrpcStatus Proto.Task)
  cancelTask : Proto.CancelTaskRequest → StateM σ (Except GrpcStatus Proto.Task)
  subscribeToTask : Proto.SubscribeToTaskRequest →
    StateM σ (Except GrpcStatus (List (Except GrpcStatus Proto.StreamResponse)))

def grpcServiceImpl (h : StreamingHandler σ) : GrpcService σ where
  sendMessage req := grpcReceived (convertSendMessageRequest req) fun req =>
    grpcReply SendMessageResponse.toProto (h.onMessageSend req)
  sendStreamingMessage req := grpcReceived (convertSendMessageRequest req) fun req =>
    grpcReply spawnEventStream (h.onMessageStream req)
  getTask req := grpcReply Task.toProto (h.onGetTask {
    tenant := noneIfEmpty req.tenant
    id := req.id
    historyLength := req.historyLength })
  cancelTask req := grpcReply Task.toProto (h.onCancelTask (convertCancelTaskRequest req))
  subscribeToTask req := grpcReply spawnEventStream (h.onSubscribeToTask {
    tenant := noneIfEmpty req.tenant
    id := req.id })

/-! ### The client -/

/-- What surrounds a client: the time, the next identifier, and the text of a status. -/
structure GrpcClient where
  now : String
  newId : String
  text : GrpcStatus → String

namespace GrpcTransport

variable (c : GrpcClient) (service : GrpcService σ)

/-- A call of the service, and what is made of its reply. -/
def request {β γ : Type} (reply : StateM σ (Except GrpcStatus β))
    (read : β → Except A2AError γ) : Handling σ γ := do
  match ← (reply : Handling σ (Except GrpcStatus β)) with
  | .ok v => liftExcept (read v)
  | .error status => throw (.other (c.text status))

def sendMessage (req : SendMessageRequest) : Handling σ SendMessageResponse :=
  request c (service.sendMessage (buildSendRequest req)) fun response =>
    match response.payload with
    | some (.task t) => .ok (.task (.ofProto c.now t))
    | some (.message m) => .ok (.message (.ofProto m))
    | none => .error (.internalError "empty gRPC response")

def sendStreamingMessage (req : SendMessageRequest) : Handling σ (List Item) :=
  request c (service.sendStreamingMessage (buildSendRequest req)) fun inner =>
    .ok (grpcEventStream c.now c.newId c.text inner)

def getTask (req : GetTaskRequest) : Handling σ Task :=
  request c (service.getTask ⟨req.tenant.getD "", req.id, req.historyLength⟩) fun t =>
    .ok (.ofProto c.now t)

def cancelTask (req : CancelTaskRequest) : Handling σ Task :=
  request c (service.cancelTask (buildCancelRequest req)) fun t => .ok (.ofProto c.now t)

def subscribeToTask (req : SubscribeToTaskRequest) : Handling σ (List Item) :=
  request c (service.subscribeToTask ⟨req.tenant.getD "", req.id⟩) fun inner =>
    .ok (grpcEventStream c.now c.newId c.text inner)

/-- The operation of a gRPC client that is meant for a call. -/
def perform : (call : HandlerCall) → Handling σ call.Result
  | .onMessageSend req => sendMessage c service req
  | .onMessageStream req => sendStreamingMessage c service req
  | .onGetTask req => getTask c service req
  | .onListTasks _ => throw (.unsupportedOperation "list_tasks not yet available over gRPC")
  | .onCancelTask req => cancelTask c service req
  | .onSubscribeToTask req => subscribeToTask c service req
  | .onCreateTaskPushConfig _ =>
    throw (.unsupportedOperation "push config not yet available over gRPC client")
  | .onGetTaskPushConfig _ =>
    throw (.unsupportedOperation "push config not yet available over gRPC client")
  | .onListTaskPushConfigs _ =>
    throw (.unsupportedOperation "push config not yet available over gRPC client")
  | .onDeleteTaskPushConfig _ =>
    throw (.unsupportedOperation "push config not yet available over gRPC client")
  | .onGetExtendedAgentCard _ =>
    throw (.unsupportedOperation "extended agent card not yet available over gRPC client")

end GrpcTransport

/-- What an operation ends with that is not available over gRPC. -/
def grpcUnsupported : HandlerCall → Option A2AError
  | .onListTasks _ => some (.unsupportedOperation "list_tasks not yet available over gRPC")
  | .onCreateTaskPushConfig _ | .onGetTaskPushConfig _ | .onListTaskPushConfigs _
  | .onDeleteTaskPushConfig _ =>
    some (.unsupportedOperation "push config not yet available over gRPC client")
  | .onGetExtendedAgentCard _ =>
    some (.unsupportedOperation "extended agent card not yet available over gRPC client")
  | _ => none

/-! ### One call -/

omit [ProtoEnum Proto.Role] [ProtoEnum Proto.TaskState] [Chrono] [F64] in
/-- The requests that come back over gRPC, of the operations that there are. -/
def CarriedByGrpc : HandlerCall → Prop
  | .onMessageSend req => req.All Filled Json.NoNumbers ∧ req.tenant = none
  | .onMessageStream req => req.All Filled Json.NoNumbers ∧ req.tenant = none
  | .onGetTask req => Filled req.tenant
  | .onCancelTask req => Filled req.tenant ∧ req.metadata = none
  | .onSubscribeToTask req => Filled req.tenant
  | _ => False

/-- A result as a gRPC client sees it. -/
def HandlerCall.converted (c : GrpcClient) : (call : HandlerCall) → call.Result → call.Result
  | .onMessageSend _, .task t => .task (t.mapJson Json.withF64).reread
  | .onMessageSend _, .message m => .message (m.mapJson Json.withF64)
  | .onMessageStream _, items => grpcView c.now c.newId c.text items
  | .onGetTask _, t => (t.mapJson Json.withF64).reread
  | .onCancelTask _, t => (t.mapJson Json.withF64).reread
  | .onSubscribeToTask _, items => grpcView c.now c.newId c.text items
  | _, v => v

omit [F64] [ProtoEnum Proto.Role] [ProtoEnum Proto.TaskState] [Chrono] in
/-- A result that the messages can hold. -/
def HandlerCall.Held : (call : HandlerCall) → call.Result → Prop
  | .onMessageSend _, .task t => t.All Filled Json.Held
  | .onMessageSend _, .message m => m.All Filled Json.Held
  | .onGetTask _, t => t.All Filled Json.Held
  | .onCancelTask _, t => t.All Filled Json.Held
  | _, _ => True

/-- What an operation gives where the call ends so. -/
def HandlerCall.grpcSeen (c : GrpcClient) (call : HandlerCall) :
    Except A2AError call.Result → Except A2AError call.Result
  | .ok v => .ok (call.converted c v)
  | .error e => .error (.other (c.text e.toGrpcStatus))

section

variable {c : GrpcClient} {h : StreamingHandler σ} {s s' : σ} {α β γ : Type}

omit [F64] [ProtoEnum Proto.Role] [ProtoEnum Proto.TaskState] [Chrono] in
/-- A request whose reply is that of a call. -/
theorem request_reply {convert : α → β} {read : β → Except A2AError γ} {seen : α → γ}
    {result : Handling σ α} {r : Except A2AError α} (hcall : result s = (r, s'))
    (hread : ∀ v, r = .ok v → read (convert v) = .ok (seen v)) :
    GrpcTransport.request c (grpcReply convert result) read s =
      ((r.map seen).mapError fun e => .other (c.text e.toGrpcStatus), s') := by
  have hreply : grpcReply convert result s = ((match r with
      | .ok v => .ok (convert v)
      | .error e => .error e.toGrpcStatus), s') := by
    rw [grpcReply]
    simp only [bind, StateT.bind, ExceptT.run, hcall]
    cases r <;> rfl
  rw [GrpcTransport.request]
  show ((liftM (grpcReply convert result) : Handling σ _) >>= _) s = _
  rw [Chain.bind_run, handling_liftM, hreply]
  cases r with
  | ok v =>
    simp only [hread v rfl]
    rfl
  | error e => rfl

variable [LawfulF64] [LawfulProtoEnum Proto.Role] [LawfulProtoEnum Proto.TaskState]

omit [ProtoEnum Proto.TaskState] [Chrono] [LawfulProtoEnum Proto.TaskState] in
/-- A message without a tenant is converted back to what it was. -/
theorem convertSendMessageRequest_of_carried {req : SendMessageRequest}
    (h : req.All Filled Json.NoNumbers) (htenant : req.tenant = none) :
    convertSendMessageRequest (buildSendRequest req) = .ok req := by
  have hsame : { req with tenant := none } = req := by
    rw [← htenant]
  rw [convertSendMessageRequest_buildSendRequest h, hsame]

omit [LawfulF64] [LawfulProtoEnum Proto.Role] [LawfulProtoEnum Proto.TaskState] in
/-- An operation that is not available sends nothing. -/
theorem grpcCall_unsupported {service : GrpcService σ} {call : HandlerCall} {e : A2AError}
    (h : grpcUnsupported call = some e) :
    GrpcTransport.perform c service call s = (.error e, s) := by
  cases call <;> cases h <;> rfl

/-- **A gRPC operation is one call**, where the request comes back: it leaves the state
the call leaves, and ends with what the client makes of the result. -/
theorem grpcCall_answered {call : HandlerCall} {r : Except A2AError call.Result}
    (hcarried : CarriedByGrpc call) (hcall : h.answer call s = (r, s'))
    (hheld : ∀ v, r = .ok v → call.Held v) :
    GrpcTransport.perform c (grpcServiceImpl h) call s = (call.grpcSeen c r, s') := by
  cases call with
  | onMessageSend req =>
    have hread : ∀ v, r = .ok v → (match (SendMessageResponse.toProto v).payload with
        | some (.task t) => Except.ok (SendMessageResponse.task (.ofProto c.now t))
        | some (.message m) => .ok (.message (.ofProto m))
        | none => .error (A2AError.internalError "empty gRPC response")) =
        .ok ((HandlerCall.onMessageSend req).converted c v) := by
      rintro (t | m) hv
      · exact congrArg (fun t => Except.ok (SendMessageResponse.task t))
          (Task.ofProto_toProto (hheld _ hv) c.now)
      · exact congrArg (fun m => Except.ok (SendMessageResponse.message m))
          (Message.ofProto_toProto (hheld _ hv))
    have hconvert := convertSendMessageRequest_of_carried hcarried.1 hcarried.2
    rw [GrpcTransport.perform, GrpcTransport.sendMessage, grpcServiceImpl]
    dsimp only
    rw [hconvert]
    refine Eq.trans (request_reply hcall hread) ?_
    cases r <;> rfl
  | onMessageStream req =>
    have hread : ∀ v, r = .ok v → (.ok (grpcEventStream c.now c.newId c.text
        (spawnEventStream v)) : Except A2AError (List Item)) =
          .ok ((HandlerCall.onMessageStream req).converted c v) := fun _ _ => rfl
    have hconvert := convertSendMessageRequest_of_carried hcarried.1 hcarried.2
    rw [GrpcTransport.perform, GrpcTransport.sendStreamingMessage, grpcServiceImpl]
    dsimp only
    rw [hconvert]
    refine Eq.trans (request_reply hcall hread) ?_
    cases r <;> rfl
  | onGetTask req =>
    have hread : ∀ v, r = .ok v → (.ok (Task.ofProto c.now v.toProto) : Except A2AError Task) =
        .ok ((HandlerCall.onGetTask req).converted c v) :=
      fun v hv => congrArg Except.ok (Task.ofProto_toProto (hheld v hv) c.now)
    rw [GrpcTransport.perform, GrpcTransport.getTask, grpcServiceImpl]
    dsimp only
    rw [noneIfEmpty_getD hcarried]
    refine Eq.trans (request_reply hcall hread) ?_
    cases r <;> rfl
  | onCancelTask req =>
    have hread : ∀ v, r = .ok v → (.ok (Task.ofProto c.now v.toProto) : Except A2AError Task) =
        .ok ((HandlerCall.onCancelTask req).converted c v) :=
      fun v hv => congrArg Except.ok (Task.ofProto_toProto (hheld v hv) c.now)
    have hsame : convertCancelTaskRequest (buildCancelRequest req) = req := by
      rw [convertCancelTaskRequest, buildCancelRequest, noneIfEmpty_getD hcarried.1, ← hcarried.2]
    rw [GrpcTransport.perform, GrpcTransport.cancelTask, grpcServiceImpl]
    dsimp only
    rw [hsame]
    refine Eq.trans (request_reply hcall hread) ?_
    cases r <;> rfl
  | onSubscribeToTask req =>
    have hread : ∀ v, r = .ok v → (.ok (grpcEventStream c.now c.newId c.text
        (spawnEventStream v)) : Except A2AError (List Item)) =
          .ok ((HandlerCall.onSubscribeToTask req).converted c v) := fun _ _ => rfl
    rw [GrpcTransport.perform, GrpcTransport.subscribeToTask, grpcServiceImpl]
    dsimp only
    rw [noneIfEmpty_getD hcarried]
    refine Eq.trans (request_reply hcall hread) ?_
    cases r <;> rfl
  | _ => exact hcarried.elim

end

end

end Ra2a
