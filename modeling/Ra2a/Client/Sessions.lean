import Ra2a.Client.Relay
import Ra2a.Client.RpcRelay
import Ra2a.Grpc.Calls
import Ra2a.Grpc.Hops
import Ra2a.Lib.Session

/-!
# Sessions over JSON-RPC and gRPC

An agent serves one handler by `a2a_router` and by `GrpcServiceImpl`.  A session is a
sequence of operations, each over a binding of its own choice (`Way`).  Not every
operation is there over every binding: the JSON-RPC client posts for a stream to the
root, where it is turned away, and the gRPC client has five operations.  The others fail
with nothing called (`Way.refusal`).

Where what is sent over a binding comes back (`Way.Faithful`), the session makes of the
handler the calls of the operations that are there, one after the other: it leaves the
state they leave, and each answer is what the binding makes of the handler's.  So two
sessions with the same calls leave the same state, and an operation that is there fails in
the one exactly if it fails in the other (`sessions_agree`).
-/

namespace Ra2a

section

variable [JsonText] [∀ α, DecodeError α] [Base64] {σ : Type}

/-! ### JSON-RPC -/

/-- The operation of a JSON-RPC client that is meant for a call. -/
def JsonRpcTransport.perform (st : HttpState σ) (base : List Char) (id : RequestId) :
    (call : HandlerCall) → Handling σ call.Result :=
  let client := JsonRpcTransport.new base
  let server := handleJsonrpcText st.handler.toStatefulHandler
  fun
  | .onMessageSend req => sendMessage server id req
  | .onMessageStream req => client.sendStreamingMessage (mountedAt base (a2aRouter st)) id req
  | .onGetTask req => getTask server id req
  | .onListTasks req => listTasks server id req
  | .onCancelTask req => cancelTask server id req
  | .onSubscribeToTask req => client.subscribeToTask (mountedAt base (a2aRouter st)) id req
  | .onCreateTaskPushConfig req => createTaskPushConfig server id req
  | .onGetTaskPushConfig req => getTaskPushConfig server id req
  | .onListTaskPushConfigs req => listTaskPushConfigs server id req
  | .onDeleteTaskPushConfig req => deleteTaskPushConfig server id req
  | .onGetExtendedAgentCard req => getExtendedAgentCard server id req

/-- The request that is posted. -/
def HandlerCall.rpcRequest (id : RequestId) : HandlerCall → JsonRpcRequest
  | .onMessageSend req => .new id METHOD_MESSAGE_SEND req
  | .onMessageStream req => .new id METHOD_MESSAGE_STREAM req
  | .onGetTask req => .new id METHOD_TASKS_GET req
  | .onListTasks req => .new id METHOD_TASKS_LIST req
  | .onCancelTask req => .new id METHOD_TASKS_CANCEL req
  | .onSubscribeToTask req => .new id METHOD_TASKS_RESUBSCRIBE req
  | .onCreateTaskPushConfig req => .new id METHOD_PUSH_CONFIG_CREATE req
  | .onGetTaskPushConfig req => .new id METHOD_PUSH_CONFIG_GET req
  | .onListTaskPushConfigs req => .new id METHOD_PUSH_CONFIG_LIST req
  | .onDeleteTaskPushConfig req => .new id METHOD_PUSH_CONFIG_DELETE req
  | .onGetExtendedAgentCard req => .new id METHOD_GET_EXTENDED_AGENT_CARD req

/-- What the client makes of what a unary call ends with. -/
def rpcSeen {R : Type} : Except A2AError R → Except A2AError R
  | .ok v => .ok v
  | .error e => .error (.jsonRpc (.internal e.display))

/-- The text of the answer to a unary call says it. -/
def RpcPrinted {R : Type} [Serde R] (id : RequestId) : Except A2AError R → Prop
  | .ok v => JsonText.Lossless (successResponse (some id) (serialize v))
  | .error e => JsonText.Lossless (internalEnvelope e)

/-- The text of what is answered at the root says it. -/
def HandlerCall.RpcPrinted (id : RequestId) :
    (call : HandlerCall) → Except A2AError call.Result → Prop
  | .onMessageStream _, _ => JsonText.Lossless (errorResponse (some id) streamingRefusal)
  | .onSubscribeToTask _, _ => JsonText.Lossless (errorResponse (some id) streamingRefusal)
  | .onMessageSend _, r => Ra2a.RpcPrinted id r
  | .onGetTask _, r => Ra2a.RpcPrinted id r
  | .onListTasks _, r => Ra2a.RpcPrinted id r
  | .onCancelTask _, r => Ra2a.RpcPrinted id r
  | .onCreateTaskPushConfig _, r => Ra2a.RpcPrinted id r
  | .onGetTaskPushConfig _, r => Ra2a.RpcPrinted id r
  | .onListTaskPushConfigs _, r => Ra2a.RpcPrinted id r
  | .onDeleteTaskPushConfig _, r => Ra2a.RpcPrinted id r
  | .onGetExtendedAgentCard _, r => Ra2a.RpcPrinted id r

/-- The call is for a stream of events. -/
def HandlerCall.isStreaming : HandlerCall → Bool
  | .onMessageStream _ | .onSubscribeToTask _ => true
  | _ => false

section

variable {P R : Type} {st : HttpState σ} {base : List Char} {id : RequestId} {req : P} {s s' : σ}

theorem rpcCall_answered [Serde P] [LawfulSerde P] [NeverNull P] [Serde R] [LawfulSerde R]
    {h : StatefulHandler σ} {method : String} {onCall : P → Handling σ R} {r : Except A2AError R}
    (harm : ∀ request : JsonRpcRequest, request.method = method →
      dispatchText h request = unaryText request onCall)
    (hcall : onCall req s = (r, s'))
    (hrequest : JsonText.Lossless (JsonRpcRequest.new id method req).toJson)
    (hprinted : RpcPrinted id r) :
    rpcCall (handleJsonrpcText h) id method req s = (rpcSeen r, s') := by
  cases r with
  | ok v => exact rpcCall_ok harm hcall hrequest hprinted
  | error e => exact rpcCall_error harm hcall hrequest hprinted

/-- **A JSON-RPC operation is one call**, unless it is for a stream. -/
theorem jsonRpc_perform_answered [LawfulBase64] {call : HandlerCall}
    {r : Except A2AError call.Result} (hunary : call.isStreaming = false)
    (hcall : st.handler.answer call s = (r, s'))
    (hrequest : JsonText.Lossless (call.rpcRequest id).toJson) (hprinted : call.RpcPrinted id r) :
    JsonRpcTransport.perform st base id call s = (rpcSeen r, s') := by
  cases call with
  | onMessageStream req => cases hunary
  | onSubscribeToTask req => cases hunary
  | _ =>
    refine rpcCall_answered ?_ hcall hrequest hprinted
    intro request hmethod
    unfold dispatchText
    rw [hmethod]
    rfl

/-- **For a stream nothing is called.** -/
theorem jsonRpc_perform_turnedAway {call : HandlerCall} {r : Except A2AError call.Result}
    (hstream : call.isStreaming = true) (hrequest : JsonText.Lossless (call.rpcRequest id).toJson)
    (hprinted : call.RpcPrinted id r) :
    JsonRpcTransport.perform st base id call s = (.error (.jsonRpc streamingRefusal), s) := by
  cases call with
  | onMessageStream req => exact rpcStream_turnedAway (Or.inl rfl) hrequest hprinted
  | onSubscribeToTask req => exact rpcStream_turnedAway (Or.inr rfl) hrequest hprinted
  | _ => cases hstream

end

/-! ### Ways to an agent -/

/-- How an operation reaches the agent: the binding, and what the client and the server
say of themselves. -/
inductive Way
  | jsonRpc (base : List Char) (id : RequestId)
  | grpc (client : GrpcClient)

variable [F64] [ProtoEnum Proto.Role] [ProtoEnum Proto.TaskState] [Chrono]

namespace Way

/-- An operation of the client. -/
def perform (st : HttpState σ) : Way → (call : HandlerCall) → Handling σ call.Result
  | jsonRpc base id, call => JsonRpcTransport.perform st base id call
  | grpc client, call => GrpcTransport.perform client (grpcServiceImpl st.handler) call

omit [JsonText] [∀ α, DecodeError α] [Base64] [F64] [ProtoEnum Proto.Role]
  [ProtoEnum Proto.TaskState] [Chrono] in
/-- What an operation ends with that is not there over the binding. -/
def refusal : Way → HandlerCall → Option A2AError
  | jsonRpc _ _, call => if call.isStreaming then some (.jsonRpc streamingRefusal) else none
  | grpc _, call => grpcUnsupported call

/-- What the binding makes of what the handler answers. -/
def shown : Way → (call : HandlerCall) → Except A2AError call.Result → Except A2AError call.Result
  | jsonRpc _ _, _, r => rpcSeen r
  | grpc client, call, r => call.grpcSeen client r

/-- What the client sees of an operation, where the handler answers so. -/
def seen (way : Way) (call : HandlerCall) (r : Except A2AError call.Result) :
    Except A2AError call.Result :=
  match way.refusal call with
  | some e => .error e
  | none => way.shown call r

omit [F64] [ProtoEnum Proto.Role] [ProtoEnum Proto.TaskState] [Chrono] [∀ α, DecodeError α] in
/-- The binding brings the request, and the texts and messages of the answer say it. -/
def Faithful : Way → (call : HandlerCall) → Except A2AError call.Result → Prop
  | jsonRpc _ id, call, r =>
    JsonText.Lossless (call.rpcRequest id).toJson ∧ call.RpcPrinted id r
  | grpc _, call, r =>
    grpcUnsupported call = none → CarriedByGrpc call ∧ ∀ v, r = .ok v → call.Held v

variable {st : HttpState σ} {way : Way} {call : HandlerCall} {r : Except A2AError call.Result}
  {s s' : σ}

omit [JsonText] [∀ α, DecodeError α] [Base64] in
theorem seen_of_refusal {e : A2AError} (h : way.refusal call = some e) :
    way.seen call r = .error e := by
  rw [seen, h]

omit [JsonText] [∀ α, DecodeError α] [Base64] in
theorem seen_of_there (h : way.refusal call = none) : way.seen call r = way.shown call r := by
  rw [seen, h]

/-- An operation that is not there calls nothing. -/
theorem perform_refused {e : A2AError} (hrefusal : way.refusal call = some e)
    (hfaithful : way.Faithful call r) : way.perform st call s = (.error e, s) := by
  cases way with
  | jsonRpc base id =>
    rw [refusal] at hrefusal
    split at hrefusal
    · rename_i hstream
      cases hrefusal
      exact jsonRpc_perform_turnedAway hstream hfaithful.1 hfaithful.2
    · cases hrefusal
  | grpc client => exact grpcCall_unsupported hrefusal

/-- **Over any binding an operation is one call** of the handler, if it is there. -/
theorem perform_answered [LawfulBase64] [LawfulF64] [LawfulProtoEnum Proto.Role]
    [LawfulProtoEnum Proto.TaskState] (hthere : way.refusal call = none)
    (hfaithful : way.Faithful call r) (hcall : st.handler.answer call s = (r, s')) :
    way.perform st call s = (way.shown call r, s') := by
  cases way with
  | jsonRpc base id =>
    have hunary : call.isStreaming = false := by
      rw [refusal] at hthere
      split at hthere
      · cases hthere
      · rename_i hnot
        exact Bool.eq_false_iff.mpr hnot
    exact jsonRpc_perform_answered hunary hcall hfaithful.1 hfaithful.2
  | grpc client =>
    obtain ⟨hcarried, hheld⟩ := hfaithful hthere
    exact grpcCall_answered hcarried hcall hheld

omit [JsonText] [∀ α, DecodeError α] [Base64] in
/-- No binding makes a failure of a success, or a success of a failure. -/
theorem isOk_shown : (way.shown call r).isOk = r.isOk := by
  cases way <;> cases r <;> rfl

end Way

/-! ### Sessions -/

/-- An operation over a binding, and how it has ended. -/
structure Exchange where
  way : Way
  call : HandlerCall
  result : Except A2AError call.Result

/-- Operations one after the other: how each has ended, and the state they leave. -/
def session (perform : Way → (call : HandlerCall) → Handling σ call.Result) :
    List (Way × HandlerCall) → σ → List Exchange × σ
  | [], s => ([], s)
  | (way, call) :: steps, s =>
    let answer := perform way call s
    let later := session perform steps answer.2
    (⟨way, call, answer.1⟩ :: later.1, later.2)

/-- The handler itself is called, if the operation is there. -/
def direct (h : StreamingHandler σ) (way : Way) (call : HandlerCall) : Handling σ call.Result :=
  match way.refusal call with
  | some e => throw e
  | none => h.answer call

section

variable {h : StreamingHandler σ} {way : Way} {call : HandlerCall} {s : σ}

omit [JsonText] [∀ α, DecodeError α] [Base64] [F64] [ProtoEnum Proto.Role]
  [ProtoEnum Proto.TaskState] [Chrono] in
theorem direct_of_refusal {e : A2AError} (hrefusal : way.refusal call = some e) :
    direct h way call s = (.error e, s) := by
  rw [direct, hrefusal]
  rfl

omit [JsonText] [∀ α, DecodeError α] [Base64] [F64] [ProtoEnum Proto.Role]
  [ProtoEnum Proto.TaskState] [Chrono] in
theorem direct_of_there (hthere : way.refusal call = none) :
    direct h way call s = h.answer call s := by
  rw [direct, hthere]

end

/-- The operation is there over its binding. -/
def Exchange.isThere (a : Exchange) : Bool := (a.way.refusal a.call).isNone

/-- The operations of a session that are there. -/
def reached (as : List Exchange) : List Exchange := as.filter Exchange.isThere

omit [JsonText] [∀ α, DecodeError α] [Base64] [F64] [ProtoEnum Proto.Role]
  [ProtoEnum Proto.TaskState] [Chrono] in
theorem mem_reached {as : List Exchange} {a : Exchange} :
    a ∈ reached as ↔ a ∈ as ∧ a.isThere = true :=
  List.mem_filter

/-- One operation of both sessions: the same call, and a success in both or in neither. -/
def SameOutcome (a a' : Exchange) : Prop := a.call = a'.call ∧ a.result.isOk = a'.result.isOk

/-- A call of the handler, and how it has ended. -/
structure Returned where
  call : HandlerCall
  result : Except A2AError call.Result

def Exchange.returned (a : Exchange) : Returned := ⟨a.call, a.result⟩

/-- Calls of the handler, one after the other. -/
def StreamingHandler.run (h : StreamingHandler σ) : List HandlerCall → σ → List Returned × σ
  | [], s => ([], s)
  | call :: calls, s =>
    let answer := h.answer call s
    let later := h.run calls answer.2
    (⟨call, answer.1⟩ :: later.1, later.2)

/-- The calls that are made in a session. -/
def calls (steps : List (Way × HandlerCall)) : List HandlerCall :=
  (steps.filter fun step => (step.1.refusal step.2).isNone).map Prod.snd

/-- The operation as its client sees it. -/
def Exchange.seen (a : Exchange) : Exchange := ⟨a.way, a.call, a.way.seen a.call a.result⟩

/-- Whatever is said in a session comes through. -/
def FaithfulSession (h : StreamingHandler σ) (s : σ) (steps : List (Way × HandlerCall)) : Prop :=
  ∀ a ∈ (session (direct h) steps s).1, a.way.Faithful a.call a.result

section

variable {st : HttpState σ} {steps steps' : List (Way × HandlerCall)} {s : σ}

/-- **A session is one with the handler**, each answer as its binding shows it. -/
theorem session_seen [LawfulBase64] [LawfulF64] [LawfulProtoEnum Proto.Role]
    [LawfulProtoEnum Proto.TaskState] (hfaithful : FaithfulSession st.handler s steps) :
    session (Way.perform st) steps s = ((session (direct st.handler) steps s).1.map Exchange.seen,
      (session (direct st.handler) steps s).2) := by
  induction steps generalizing s with
  | nil => rfl
  | cons step steps ih =>
    obtain ⟨way, call⟩ := step
    rw [FaithfulSession, session, List.forall_mem_cons] at hfaithful
    have hlater := ih hfaithful.2
    have hstep : way.perform st call s = (way.seen call (direct st.handler way call s).1,
        (direct st.handler way call s).2) := by
      cases hrefusal : way.refusal call with
      | some e =>
        rw [Way.perform_refused hrefusal hfaithful.1, direct_of_refusal hrefusal,
          Way.seen_of_refusal hrefusal]
      | none =>
        rw [Way.seen_of_there hrefusal]
        exact Way.perform_answered hrefusal hfaithful.1 (direct_of_there hrefusal).symm
    rw [session, hstep]
    dsimp only
    rw [hlater]
    rfl

omit [JsonText] [∀ α, DecodeError α] [Base64] [F64] [ProtoEnum Proto.Role]
  [ProtoEnum Proto.TaskState] [Chrono] in
/-- **The handler does not know over which bindings it is called.** -/
theorem session_direct (steps : List (Way × HandlerCall)) (s : σ) (h : StreamingHandler σ) :
    (session (direct h) steps s).2 = (h.run (calls steps) s).2 ∧
      (reached (session (direct h) steps s).1).map Exchange.returned =
        (h.run (calls steps) s).1 := by
  induction steps generalizing s with
  | nil => exact ⟨rfl, rfl⟩
  | cons step steps ih =>
    obtain ⟨way, call⟩ := step
    rw [session, calls, reached]
    cases hrefusal : way.refusal call with
    | some e =>
      rw [direct_of_refusal hrefusal, List.filter_cons_of_neg (by simp [hrefusal]),
        List.filter_cons_of_neg (by simp [Exchange.isThere, hrefusal])]
      exact ih s
    | none =>
      rw [direct_of_there hrefusal, List.filter_cons_of_pos (by simp [hrefusal]),
        List.filter_cons_of_pos (by simp [Exchange.isThere, hrefusal]), List.map_cons,
        List.map_cons, StreamingHandler.run]
      obtain ⟨hstate, hcalls⟩ := ih (h.answer call s).2
      exact ⟨hstate, congrArg _ hcalls⟩

omit [JsonText] [∀ α, DecodeError α] [Base64] in
/-- An answer is seen where the operation was made. -/
theorem reached_map_seen (as : List Exchange) :
    reached (as.map Exchange.seen) = (reached as).map Exchange.seen := by
  rw [reached, List.filter_map]
  rfl

omit [JsonText] [∀ α, DecodeError α] [Base64] [F64] [ProtoEnum Proto.Role]
  [ProtoEnum Proto.TaskState] [Chrono] in
theorem SameOutcome.of_returned {a a' : Exchange} (h : a.returned = a'.returned) :
    SameOutcome a a' :=
  ⟨congrArg Returned.call h, congrArg (fun x : Returned => x.result.isOk) h⟩

omit [JsonText] [∀ α, DecodeError α] [Base64] in
/-- What is there is seen to end as it does. -/
theorem SameOutcome.seen {a a' : Exchange} (h : SameOutcome a a') (ha : a.isThere = true)
    (ha' : a'.isThere = true) : SameOutcome a.seen a'.seen := by
  have hisOk : ∀ b : Exchange, b.isThere = true → b.seen.result.isOk = b.result.isOk := by
    intro b hb
    show (b.way.seen b.call b.result).isOk = _
    rw [Way.seen_of_there (Option.isNone_iff_eq_none.mp hb), Way.isOk_shown]
  exact ⟨h.1, by rw [hisOk a ha, hisOk a' ha', h.2]⟩

/-- **A session over both bindings is a session with the handler**, and two sessions with
the same calls leave the same state and succeed and fail alike. -/
theorem sessions_agree [LawfulBase64] [LawfulF64] [LawfulProtoEnum Proto.Role]
    [LawfulProtoEnum Proto.TaskState] (hsame : calls steps = calls steps')
    (hfaithful : FaithfulSession st.handler s steps)
    (hfaithful' : FaithfulSession st.handler s steps') :
    session (Way.perform st) steps s = ((session (direct st.handler) steps s).1.map Exchange.seen,
        (st.handler.run (calls steps) s).2) ∧
      (reached (session (direct st.handler) steps s).1).map Exchange.returned =
        (st.handler.run (calls steps) s).1 ∧
      (session (Way.perform st) steps s).2 = (session (Way.perform st) steps' s).2 ∧
      List.Forall₂ SameOutcome (reached (session (Way.perform st) steps s).1)
        (reached (session (Way.perform st) steps' s).1) := by
  obtain ⟨hstate, hcalls⟩ := session_direct steps s st.handler
  obtain ⟨hstate', hcalls'⟩ := session_direct steps' s st.handler
  refine ⟨?_, hcalls, ?_, ?_⟩
  · rw [session_seen hfaithful, hstate]
  · rw [session_seen hfaithful, session_seen hfaithful', hstate, hstate', hsame]
  · rw [session_seen hfaithful, session_seen hfaithful', reached_map_seen, reached_map_seen,
      List.forall₂_map_left_iff, List.forall₂_map_right_iff]
    have hall := Session.forall₂_of_map_eq (hcalls.trans (hsame ▸ hcalls'.symm))
    refine hall.imp fun a a' ⟨hreturned, ha, ha'⟩ => ?_
    exact (SameOutcome.of_returned hreturned).seen (mem_reached.mp ha).2 (mem_reached.mp ha').2

end

end

/-! ### An agent at two places -/

/-- An agent that writes down what it is asked to delete, and knows one task. -/
def twofoldAgent : HttpState (List DeleteTaskPushNotificationConfigRequest) where
  handler := {
    toStatefulHandler := { deletions with
      onGetTask := fun _ asked => (.ok (sumTask (.posInt 1)), asked) }
    onMessageStream := fun _ => throw (.unsupportedOperation METHOD_MESSAGE_STREAM)
    onSubscribeToTask := fun _ => throw (.unsupportedOperation METHOD_TASKS_RESUBSCRIBE) }
  cardProducer := throw .extendedCardNotConfigured

def overJsonRpc : Way := .jsonRpc "http://localhost:8080/".toList (.number 1)

def overGrpc : Way := .grpc ⟨"now", "id", statusText⟩

def anything : ListTasksRequest := ⟨none, none, none, none, none, none, none, none⟩

/-- A configuration is deleted, a subscription turned away, and the task asked for. -/
def deleteAndSubscribe : List (Way × HandlerCall) :=
  [(overJsonRpc, .onDeleteTaskPushConfig deletion), (overJsonRpc, .onSubscribeToTask subscription),
    (overJsonRpc, .onGetTask ⟨none, "t1", none⟩)]

/-- A configuration is deleted, and the tasks and one task asked for over gRPC. -/
def deleteAndList : List (Way × HandlerCall) :=
  [(overJsonRpc, .onDeleteTaskPushConfig deletion),
    (overGrpc, .onListTasks anything), (overGrpc, .onGetTask ⟨none, "t1", none⟩)]

def taskText : String :=
  braced ("\"jsonrpc\":\"2.0\",\"id\":1,\"result\":" ++ braced ("\"artifacts\":[" ++
    braced ("\"artifactId\":\"a1\",\"name\":\"sum\",\"parts\":[" ++ braced "\"data\":1" ++ "]") ++
    "],\"contextId\":\"c1\",\"id\":\"t1\",\"status\":" ++
    braced ("\"state\":\"TASK_STATE_COMPLETED\"," ++
      "\"timestamp\":\"2024-01-01T00:00:00+00:00\"")))

/-- The texts of both sessions: the request for the task, the task, and the others. -/
def sessionTexts : List (Json × String) :=
  letI := byteChars
  deletionTexts ++ subscriptionTexts ++
    [((JsonRpcRequest.new (.number 1) METHOD_TASKS_GET
        (⟨none, "t1", none⟩ : GetTaskRequest)).toJson,
      braced ("\"jsonrpc\":\"2.0\",\"id\":1,\"method\":\"tasks/get\",\"params\":" ++
        braced "\"id\":\"t1\"")),
    (successResponse (some (.number 1)) (serialize (sumTask (.posInt 1))), taskText)]

theorem lossless_taskText :
    letI := byteChars
    @JsonText.Lossless (tableText sessionTexts)
      (successResponse (some (.number 1)) (serialize (sumTask (.posInt 1)))) :=
  ⟨taskText, by decide +kernel, by decide +kernel⟩

theorem sessions_agree_deletion :
    letI := byteChars
    letI := tableText sessionTexts
    letI : ∀ α, DecodeError α := fun _ => ⟨fun _ => "invalid"⟩
    letI := oneFloat
    letI := roleNumbers
    letI := stateNumbers
    letI := twoDates
    (session (Way.perform twofoldAgent) deleteAndSubscribe []).2 =
        (session (Way.perform twofoldAgent) deleteAndList []).2 ∧
      List.Forall₂ SameOutcome
        (reached (session (Way.perform twofoldAgent) deleteAndSubscribe []).1)
        (reached (session (Way.perform twofoldAgent) deleteAndList []).1) := by
  let := byteChars
  have := lawful_byteChars
  let := tableText sessionTexts
  let : ∀ α, DecodeError α := fun _ => ⟨fun _ => "invalid"⟩
  let := oneFloat
  have := lawful_oneFloat
  let := roleNumbers
  have := lawful_roleNumbers
  let := stateNumbers
  have := lawful_stateNumbers
  let := twoDates
  have hdelete : overJsonRpc.Faithful (.onDeleteTaskPushConfig deletion) (.ok ()) :=
    ⟨⟨_, rfl, rfl⟩, ⟨_, rfl, rfl⟩⟩
  have hsubscribe : overJsonRpc.Faithful (.onSubscribeToTask subscription)
      (.error (.jsonRpc streamingRefusal)) := ⟨⟨_, rfl, rfl⟩, ⟨_, rfl, rfl⟩⟩
  have hget : overJsonRpc.Faithful (.onGetTask ⟨none, "t1", none⟩)
      (.ok (sumTask (.posInt 1))) := ⟨⟨_, rfl, rfl⟩, lossless_taskText⟩
  have hlist : overGrpc.Faithful (.onListTasks anything)
      (.error (.unsupportedOperation "list_tasks not yet available over gRPC")) := nofun
  have hgrpc : overGrpc.Faithful (.onGetTask ⟨none, "t1", none⟩) (.ok (sumTask (.posInt 1))) := by
    refine fun _ => ⟨(Option.some_ne_none _).symm, fun v hv => ?_⟩
    cases hv
    exact all_sumTask
  have hsame : calls deleteAndSubscribe = calls deleteAndList := rfl
  refine (sessions_agree hsame ?_ ?_).2.2
  · exact List.forall_mem_cons.mpr
      ⟨hdelete, List.forall_mem_cons.mpr ⟨hsubscribe, List.forall_mem_singleton.mpr hget⟩⟩
  · exact List.forall_mem_cons.mpr
      ⟨hdelete, List.forall_mem_cons.mpr ⟨hlist, List.forall_mem_singleton.mpr hgrpc⟩⟩

end Ra2a
