import Mathlib.Logic.Relation
import Ra2a.Client.Streams

/-!
# Errors handed on over JSON-RPC

A handler that calls another agent and ends with `?` returns the error of the call, which
is `A2AError::JsonRpc(x)`.  No arm of `jsonrpc_error_code` is for this variant, and no
endpoint looks into it: the caller gets an internal error, whose message is the `Display`
text, with the code and the message of `x` behind a prefix, and the data are dropped.

So no error is the same after an agent has handed it on, and it grows with every agent
more (`PassesOn.never_same`).
-/

namespace Ra2a

open Utf8

/-- An internal error that says `text`. -/
def JsonRpcError.internal (text : String) : JsonRpcError := ⟨-32603, text, none⟩

namespace A2AError

variable (x : JsonRpcError)

theorem length_lt_display_jsonRpc : x.message.length < (jsonRpc x).display.length := by
  have hdisplay : (jsonRpc x).display =
      "JSON-RPC error: " ++ ("[" ++ toString x.code.toInt ++ "] " ++ x.message) := rfl
  have hprefix : "JSON-RPC error: ".length = 16 := by decide
  rw [hdisplay, String.length_append, String.length_append, hprefix]
  omega

theorem toJsonrpcError_jsonRpc : (jsonRpc x).toJsonrpcError = .internal (jsonRpc x).display := by
  have hempty : (jsonRpc x).display.isEmpty ≠ true := by
    intro h
    have hlength := length_lt_display_jsonRpc x
    rw [String.isEmpty_iff.mp h] at hlength
    exact absurd hlength (Nat.not_lt_zero _)
  show (⟨-32603, if (jsonRpc x).display.isEmpty then _ else _, none⟩ : JsonRpcError) = _
  rw [if_neg hempty]
  rfl

end A2AError

section

variable [JsonText] [∀ α, DecodeError α] [Base64] {σ : Type}

/-! ### The operations of a client -/

/-- A unary operation of a client: the method that answers it, and its request. -/
inductive UnaryOperation (h : StatefulHandler σ) (id : RequestId) :
    {P R : Type} → (P → JsonRpcRequest) → (P → Handling σ R) → (P → Handling σ R) → Prop
  | sendMessage : UnaryOperation h id (.new id METHOD_MESSAGE_SEND) h.onMessageSend
      (JsonRpcTransport.sendMessage (handleJsonrpcText h) id)
  | getTask : UnaryOperation h id (.new id METHOD_TASKS_GET) h.onGetTask
      (JsonRpcTransport.getTask (handleJsonrpcText h) id)
  | listTasks : UnaryOperation h id (.new id METHOD_TASKS_LIST) h.onListTasks
      (JsonRpcTransport.listTasks (handleJsonrpcText h) id)
  | cancelTask : UnaryOperation h id (.new id METHOD_TASKS_CANCEL) h.onCancelTask
      (JsonRpcTransport.cancelTask (handleJsonrpcText h) id)
  | createTaskPushConfig :
      UnaryOperation h id (.new id METHOD_PUSH_CONFIG_CREATE) h.onCreateTaskPushConfig
        (JsonRpcTransport.createTaskPushConfig (handleJsonrpcText h) id)
  | getTaskPushConfig :
      UnaryOperation h id (.new id METHOD_PUSH_CONFIG_GET) h.onGetTaskPushConfig
        (JsonRpcTransport.getTaskPushConfig (handleJsonrpcText h) id)
  | listTaskPushConfigs :
      UnaryOperation h id (.new id METHOD_PUSH_CONFIG_LIST) h.onListTaskPushConfigs
        (JsonRpcTransport.listTaskPushConfigs (handleJsonrpcText h) id)
  | deleteTaskPushConfig :
      UnaryOperation h id (.new id METHOD_PUSH_CONFIG_DELETE) h.onDeleteTaskPushConfig
        (JsonRpcTransport.deleteTaskPushConfig (handleJsonrpcText h) id)
  | getExtendedAgentCard :
      UnaryOperation h id (.new id METHOD_GET_EXTENDED_AGENT_CARD) h.onGetExtendedAgentCard
        (JsonRpcTransport.getExtendedAgentCard (handleJsonrpcText h) id)

/-- The client that is given an agent's `/stream` for its base URL. -/
def streamClient (base : List Char) : JsonRpcTransport :=
  .new (trimEndSlashes base ++ "/stream".toList)

/-- A streaming operation of a client, the method that answers it, and its request. -/
inductive StreamingOperation (st : HttpState σ) (base : List Char) (id : RequestId) :
    {P : Type} → (P → JsonRpcRequest) → (P → Handling σ (List Item)) →
      (P → Handling σ (List Item)) → Prop
  | sendStreamingMessage :
      StreamingOperation st base id (.new id METHOD_MESSAGE_STREAM) st.handler.onMessageStream
        ((streamClient base).sendStreamingMessage (mountedAt base (a2aRouter st)) id)
  | subscribeToTask :
      StreamingOperation st base id (.new id METHOD_TASKS_RESUBSCRIBE) st.handler.onSubscribeToTask
        ((streamClient base).subscribeToTask (mountedAt base (a2aRouter st)) id)

/-! ### One agent -/

section Unary

variable {P R : Type} {h : StatefulHandler σ} {id : RequestId} {request : P → JsonRpcRequest}
  {onCall op : P → Handling σ R} {r : P} {e : A2AError} {s s' : σ}

/-- **Where the method fails the operation fails** with an internal error. -/
theorem UnaryOperation.error [LawfulBase64] (hop : UnaryOperation h id request onCall op)
    (hrequest : JsonText.Lossless (request r).toJson)
    (hanswer : JsonText.Lossless (internalEnvelope e)) (hcall : onCall r s = (.error e, s')) :
    op r s = (.error (.jsonRpc (.internal e.display)), s') := by
  cases hop <;> refine rpcCall_error ?_ hcall hrequest hanswer <;> intro request hmethod <;>
    unfold dispatchText <;> rw [hmethod] <;> rfl

end Unary

section Streaming

variable {P : Type} {st : HttpState σ} {base : List Char} {id : RequestId}
  {request : P → JsonRpcRequest} {onCall op : P → Handling σ (List Item)} {r : P} {e : A2AError}
  {s s' : σ}

omit [JsonText] [∀ α, DecodeError α] [Base64] in
theorem baseUrl_streamClient (base : List Char) :
    (streamClient base).baseUrl = trimEndSlashes base ++ "/stream".toList := by
  have hreverse : "/stream".toList.reverse = 'm' :: "aerts/".toList := by decide
  rw [streamClient, JsonRpcTransport.new]
  conv_lhs => rw [trimEndSlashes]
  rw [List.reverse_append, hreverse, List.cons_append, List.dropWhile_cons_of_neg (by decide),
    ← List.cons_append, ← hreverse, ← List.reverse_append, List.reverse_reverse]

theorem mountedAt_stream (st : HttpState σ) (base : List Char) (body : String) :
    mountedAt base (a2aRouter st) .post (streamClient base).baseUrl body = handleSse st body := by
  have hpath : pathUnder (trimEndSlashes base) (streamClient base).baseUrl =
      some "/stream".toList := by
    have hprefix : (trimEndSlashes base).isPrefixOf (trimEndSlashes base ++ "/stream".toList) =
        true := List.isPrefixOf_iff_prefix.mpr (List.prefix_append _ _)
    rw [baseUrl_streamClient, pathUnder, stripPrefix, if_pos hprefix, List.drop_left]
    rfl
  rw [mountedAt, hpath]
  rfl

section Posted

variable {method : String} [Serde P] [LawfulSerde P] [NeverNull P]

theorem rpcStream_fails {e : A2AError}
    (harm : ∀ request : JsonRpcRequest, request.method = method →
      sseEventStream st request = (liftExcept (parseParams fromValue request) >>= onCall))
    (hrequest : JsonText.Lossless (JsonRpcRequest.new id method r).toJson)
    (hanswer : JsonText.Lossless (sseEnvelope id (.error e)))
    (hcall : onCall r s = (.error e, s')) :
    (streamClient base).rpcStream (mountedAt base (a2aRouter st)) id method r s =
      (.error (.jsonRpc e.toJsonrpcError), s') := by
  obtain ⟨body, hbody, hparse⟩ := hrequest
  obtain ⟨text, htext, hback⟩ := hanswer
  have hserver : mountedAt base (a2aRouter st) .post (streamClient base).baseUrl body s =
      (jsonOk text, s') := by
    rw [mountedAt_stream, handleSse_posted harm (fromText_new hparse) hcall]
    show (jsonOk ((JsonText.print (sseEnvelope id (.error e))).getD ""), s') = _
    rw [htext, Option.getD_some]
  have hread : JsonRpcResponse.ofJson (R := Event) (sseEnvelope id (.error e)) =
      some (.error ⟨"2.0", some id, e.toJsonrpcError⟩) := by
    rw [sseEnvelope_error]
    exact ofJson_error rfl rfl rfl rfl
      (JsonRpcError.ofJson_toJson e.toJsonrpcError (Option.some_ne_none _).symm)
  exact rpcStream_of_error hbody hserver hback hread

theorem rpcStream_streams [LawfulBase64] {items : List Item}
    (harm : ∀ request : JsonRpcRequest, request.method = method →
      sseEventStream st request = (liftExcept (parseParams fromValue request) >>= onCall))
    (hrequest : JsonText.Lossless (JsonRpcRequest.new id method r).toJson)
    (hanswer : ∀ item ∈ items, JsonText.Legible (sseEnvelope id item))
    (hcall : onCall r s = (.ok items, s')) :
    (streamClient base).rpcStream (mountedAt base (a2aRouter st)) id method r s =
      (.ok (items.map (received id)), s') := by
  obtain ⟨body, hbody, hparse⟩ := hrequest
  have hserver : mountedAt base (a2aRouter st) .post (streamClient base).baseUrl body s =
      (⟨200, "text/event-stream", items.map fun item =>
        encode (Frame.text (sseItemData id) (.item item))⟩, s') := by
    rw [mountedAt_stream, handleSse_posted harm (fromText_new hparse) hcall]
  rw [JsonRpcTransport.rpcStream, hbody]
  show ((liftM (mountedAt base (a2aRouter st) .post (streamClient base).baseUrl body) :
    Handling σ Response) >>= _) s = _
  rw [Chain.bind_run, handling_liftM, hserver]
  have hok : ¬ 400 ≤ 200 := by decide
  have htype : "text/event-stream".toList <:+: "text/event-stream".toList := List.infix_rfl
  simp only [if_neg hok, if_pos htype, read_sseStream hanswer]
  rfl

end Posted

/-- **Where the method has no stream** the operation fails with the error of the method as
`to_jsonrpc_error` makes it. -/
theorem StreamingOperation.error [LawfulBase64] {e : A2AError}
    (hop : StreamingOperation st base id request onCall op)
    (hrequest : JsonText.Lossless (request r).toJson)
    (hanswer : JsonText.Lossless (sseEnvelope id (.error e)))
    (hcall : onCall r s = (.error e, s')) :
    op r s = (.error (.jsonRpc e.toJsonrpcError), s') := by
  cases hop <;> refine rpcStream_fails ?_ hrequest hanswer hcall <;> intro request hmethod <;>
    unfold sseEventStream <;> rw [hmethod] <;> rfl

/-- **Where it has one** the operation has what is received of it. -/
theorem StreamingOperation.items [LawfulBase64] {items : List Item}
    (hop : StreamingOperation st base id request onCall op)
    (hrequest : JsonText.Lossless (request r).toJson)
    (hanswer : ∀ item ∈ items, JsonText.Legible (sseEnvelope id item))
    (hcall : onCall r s = (.ok items, s')) :
    op r s = (.ok (items.map (received id)), s') := by
  cases hop <;> refine rpcStream_streams ?_ hrequest hanswer hcall <;> intro request hmethod <;>
    unfold sseEventStream <;> rw [hmethod] <;> rfl

end Streaming

/-- **One agent hands an error on**: its handler returns `e`, and its caller is given `e'`,
for an operation or in a stream.  The texts that go over the wire are read back. -/
inductive PassesOn : A2AError → A2AError → Prop
  | unary {σ P R : Type} {h : StatefulHandler σ} {id : RequestId} {request : P → JsonRpcRequest}
      {onCall op : P → Handling σ R} {r : P} {e e' : A2AError} {s s₁ s₂ : σ}
      (hop : UnaryOperation h id request onCall op)
      (hrequest : JsonText.Lossless (request r).toJson)
      (hanswer : JsonText.Lossless (internalEnvelope e))
      (hreturned : onCall r s = (.error e, s₁)) (hreceived : op r s = (.error e', s₂)) :
      PassesOn e e'
  | stream {σ P : Type} {st : HttpState σ} {base : List Char} {id : RequestId}
      {request : P → JsonRpcRequest} {onCall op : P → Handling σ (List Item)} {r : P}
      {e e' : A2AError} {s s₁ s₂ : σ} (hop : StreamingOperation st base id request onCall op)
      (hrequest : JsonText.Lossless (request r).toJson)
      (hanswer : JsonText.Lossless (sseEnvelope id (.error e)))
      (hreturned : onCall r s = (.error e, s₁)) (hreceived : op r s = (.error e', s₂)) :
      PassesOn e e'
  | item {σ P : Type} {st : HttpState σ} {base : List Char} {id : RequestId}
      {request : P → JsonRpcRequest} {onCall op : P → Handling σ (List Item)} {r : P}
      {e e' : A2AError} {s s₁ s₂ : σ} {items got : List Item} {i : ℕ}
      (hop : StreamingOperation st base id request onCall op)
      (hrequest : JsonText.Lossless (request r).toJson)
      (hanswer : ∀ item ∈ items, JsonText.Legible (sseEnvelope id item))
      (hreturned : onCall r s = (.ok items, s₁)) (herror : items[i]? = some (.error e))
      (hreceived : op r s = (.ok got, s₂)) (hgot : got[i]? = some (.error e')) :
      PassesOn e e'

namespace PassesOn

variable [LawfulBase64] {x : JsonRpcError} {e : A2AError}

/-- Whatever the endpoint, the error of a remote agent is handed on as an internal one. -/
theorem jsonRpc (h : PassesOn (.jsonRpc x) e) :
    e = .jsonRpc (.internal (A2AError.jsonRpc x).display) := by
  cases h with
  | unary hop hrequest hanswer hreturned hreceived =>
    have hfails := hop.error hrequest hanswer hreturned
    rw [hreceived] at hfails
    exact Except.error.inj (Prod.mk.inj hfails).1
  | stream hop hrequest hanswer hreturned hreceived =>
    have hfails := hop.error hrequest hanswer hreturned
    rw [hreceived, A2AError.toJsonrpcError_jsonRpc] at hfails
    exact Except.error.inj (Prod.mk.inj hfails).1
  | item hop hrequest hanswer hreturned herror hreceived hgot =>
    have hstreams := hop.items hrequest hanswer hreturned
    rw [hreceived] at hstreams
    rw [Except.ok.inj (Prod.mk.inj hstreams).1, List.getElem?_map, herror, Option.map_some,
      received, A2AError.toJsonrpcError_jsonRpc] at hgot
    exact (Except.error.inj (Option.some.inj hgot)).symm

/-- Over a chain of agents it is an internal one at the end, and its text has grown. -/
theorem grows (h : Relation.TransGen PassesOn (.jsonRpc x) e) :
    ∃ text : String, e = .jsonRpc (.internal text) ∧ x.message.length < text.length := by
  induction h with
  | single h => exact ⟨_, h.jsonRpc, A2AError.length_lt_display_jsonRpc x⟩
  | tail _ h ih =>
    obtain ⟨text, rfl, hlt⟩ := ih
    exact ⟨_, h.jsonRpc, hlt.trans (A2AError.length_lt_display_jsonRpc (.internal text))⟩

/-- **No error is the same after one agent or more.** -/
theorem never_same (h : Relation.TransGen PassesOn (.jsonRpc x) e) :
    e ≠ .jsonRpc x ∧ ∃ y : JsonRpcError, e = .jsonRpc y ∧ y.code = -32603 ∧
      x.message.length < y.message.length ∧ y.data = none := by
  obtain ⟨text, rfl, hlt⟩ := grows h
  refine ⟨fun hsame => ?_, _, rfl, rfl, hlt, rfl⟩
  have hmessage : text = x.message :=
    congrArg JsonRpcError.message (A2AError.jsonRpc.inj hsame)
  rw [hmessage] at hlt
  exact absurd hlt (Nat.lt_irrefl _)

end PassesOn

end

/-! ### A task that is not found, two agents away -/

/-- The error of a remote agent, and what becomes of it. -/
def remoteError : JsonRpcError := ⟨-32001, "no task t1", some (.string "t1")⟩

def handedOnError : JsonRpcError := .internal "JSON-RPC error: [-32001] no task t1"

def deletion : DeleteTaskPushNotificationConfigRequest := ⟨none, "t1", "c1"⟩

def subscription : SubscribeToTaskRequest := ⟨none, "t1"⟩

/-- An agent that returns this error, for an operation and for a subscription. -/
def failingAgent : HttpState Unit where
  handler :=
    { StatefulHandler.unsupported Unit with
      onDeleteTaskPushConfig := fun _ => throw (.jsonRpc remoteError)
      onMessageStream := fun _ => throw (.jsonRpc remoteError)
      onSubscribeToTask := fun _ => throw (.jsonRpc remoteError) }
  cardProducer := throw .extendedCardNotConfigured

/-- An agent that asks another one to delete what it is asked to delete. -/
def askingAgent [JsonText] [∀ α, DecodeError α] [Base64] (server : StatefulHandler Unit) :
    StatefulHandler Unit :=
  { StatefulHandler.unsupported Unit with
    onDeleteTaskPushConfig := fun r =>
      JsonRpcTransport.deleteTaskPushConfig (handleJsonrpcText server) (.number 1) r }

def answerText (id message : String) : String :=
  braced ("\"error\":" ++ braced ("\"code\":-32603,\"message\":\"" ++ message ++ "\"") ++
    ",\"id\":" ++ id ++ ",\"jsonrpc\":\"2.0\"")

/-- The two requests, and the answers to them. -/
@[reducible] def handedOnTexts : JsonText :=
  letI := byteChars
  tableText [
    ((JsonRpcRequest.new (.number 1) METHOD_PUSH_CONFIG_DELETE deletion).toJson,
      braced ("\"jsonrpc\":\"2.0\",\"id\":1,\"method\":\"tasks/pushNotificationConfig/delete\"," ++
        "\"params\":" ++ braced "\"taskId\":\"t1\",\"id\":\"c1\"")),
    (internalEnvelope (.jsonRpc remoteError), answerText "null" handedOnError.message),
    (internalEnvelope (.jsonRpc handedOnError),
      answerText "null" (A2AError.jsonRpc handedOnError).display),
    ((JsonRpcRequest.new (.number 1) METHOD_TASKS_RESUBSCRIBE subscription).toJson,
      braced ("\"jsonrpc\":\"2.0\",\"id\":1,\"method\":\"tasks/resubscribe\"," ++
        "\"params\":" ++ braced "\"id\":\"t1\"")),
    (sseEnvelope (.number 1) (.error (.jsonRpc remoteError)),
      answerText "1" handedOnError.message)]

theorem display_remoteError : (A2AError.jsonRpc remoteError).display = handedOnError.message := by
  decide

theorem lossless_deletion : @JsonText.Lossless handedOnTexts
    (JsonRpcRequest.new (.number 1) METHOD_PUSH_CONFIG_DELETE deletion).toJson := ⟨_, rfl, rfl⟩

theorem lossless_subscription : @JsonText.Lossless handedOnTexts
    (JsonRpcRequest.new (.number 1) METHOD_TASKS_RESUBSCRIBE subscription).toJson := ⟨_, rfl, rfl⟩

theorem lossless_firstAnswer :
    @JsonText.Lossless handedOnTexts (internalEnvelope (.jsonRpc remoteError)) := ⟨_, rfl, rfl⟩

theorem lossless_secondAnswer :
    @JsonText.Lossless handedOnTexts (internalEnvelope (.jsonRpc handedOnError)) := ⟨_, rfl, rfl⟩

/-- What the caller of the failing agent is given. -/
theorem deletion_fails :
    letI := byteChars
    letI := handedOnTexts
    letI : ∀ α, DecodeError α := fun _ => ⟨fun _ => "invalid"⟩
    JsonRpcTransport.deleteTaskPushConfig
      (handleJsonrpcText failingAgent.handler.toStatefulHandler) (.number 1) deletion () =
        (.error (.jsonRpc handedOnError), ()) := by
  let := byteChars
  let := handedOnTexts
  let : ∀ α, DecodeError α := fun _ => ⟨fun _ => "invalid"⟩
  have := lawful_byteChars
  have hop : UnaryOperation failingAgent.handler.toStatefulHandler (.number 1) _ _ _ :=
    .deleteTaskPushConfig
  have hreturned : failingAgent.handler.onDeleteTaskPushConfig deletion () =
      (.error (.jsonRpc remoteError), ()) := rfl
  have hfails := hop.error lossless_deletion lossless_firstAnswer hreturned
  rw [display_remoteError] at hfails
  exact hfails

theorem subscription_fails :
    letI := byteChars
    letI := handedOnTexts
    letI : ∀ α, DecodeError α := fun _ => ⟨fun _ => "invalid"⟩
    (streamClient "http://localhost:8080/".toList).subscribeToTask
      (mountedAt "http://localhost:8080/".toList (a2aRouter failingAgent)) (.number 1)
      subscription () = (.error (.jsonRpc handedOnError), ()) := by
  let := byteChars
  let := handedOnTexts
  let : ∀ α, DecodeError α := fun _ => ⟨fun _ => "invalid"⟩
  have := lawful_byteChars
  have hanswer : JsonText.Lossless (sseEnvelope (.number 1) (.error (.jsonRpc remoteError))) :=
    ⟨_, rfl, rfl⟩
  have hop : StreamingOperation failingAgent "http://localhost:8080/".toList (.number 1) _ _ _ :=
    .subscribeToTask
  have hreturned : failingAgent.handler.onSubscribeToTask subscription () =
      (.error (.jsonRpc remoteError), ()) := rfl
  have hfails := hop.error lossless_subscription hanswer hreturned
  rw [A2AError.toJsonrpcError_jsonRpc, display_remoteError] at hfails
  exact hfails

/-- After two agents it has two prefixes. -/
theorem never_same_remoteError :
    letI := byteChars
    letI := handedOnTexts
    letI : ∀ α, DecodeError α := fun _ => ⟨fun _ => "invalid"⟩
    A2AError.jsonRpc (.internal (A2AError.jsonRpc handedOnError).display) ≠
        .jsonRpc remoteError ∧
      ∃ y : JsonRpcError,
        A2AError.jsonRpc (.internal (A2AError.jsonRpc handedOnError).display) = .jsonRpc y ∧
          y.code = -32603 ∧ remoteError.message.length < y.message.length ∧ y.data = none := by
  let := byteChars
  let := handedOnTexts
  let : ∀ α, DecodeError α := fun _ => ⟨fun _ => "invalid"⟩
  have := lawful_byteChars
  have hfails : failingAgent.handler.onDeleteTaskPushConfig deletion () =
      (.error (.jsonRpc remoteError), ()) := rfl
  have hfirst : PassesOn (.jsonRpc remoteError) (.jsonRpc handedOnError) :=
    .unary .deleteTaskPushConfig lossless_deletion lossless_firstAnswer hfails deletion_fails
  -- The second agent returns what its call of the first one gave it.
  have hreturned : (askingAgent failingAgent.handler.toStatefulHandler).onDeleteTaskPushConfig
      deletion () = (.error (.jsonRpc handedOnError), ()) := deletion_fails
  have hop : UnaryOperation (askingAgent failingAgent.handler.toStatefulHandler) (.number 1)
    _ _ _ := .deleteTaskPushConfig
  have hsecond : PassesOn (.jsonRpc handedOnError)
      (.jsonRpc (.internal (A2AError.jsonRpc handedOnError).display)) :=
    .unary hop lossless_deletion lossless_secondAnswer hreturned
      (hop.error lossless_deletion lossless_secondAnswer hreturned)
  exact PassesOn.never_same ((Relation.TransGen.single hfirst).tail hsecond)

/-- The code, the message and the data are lost, at `/` and at `/stream`. -/
theorem remoteError_lost :
    letI := byteChars
    letI := handedOnTexts
    letI : ∀ α, DecodeError α := fun _ => ⟨fun _ => "invalid"⟩
    failingAgent.handler.onDeleteTaskPushConfig deletion () =
        (.error (.jsonRpc ⟨-32001, "no task t1", some (.string "t1")⟩), ()) ∧
      JsonRpcTransport.deleteTaskPushConfig
        (handleJsonrpcText failingAgent.handler.toStatefulHandler) (.number 1) deletion () =
          (.error (.jsonRpc ⟨-32603, "JSON-RPC error: [-32001] no task t1", none⟩), ()) ∧
      failingAgent.handler.onSubscribeToTask subscription () =
        (.error (.jsonRpc ⟨-32001, "no task t1", some (.string "t1")⟩), ()) ∧
      (streamClient "http://localhost:8080/".toList).subscribeToTask
        (mountedAt "http://localhost:8080/".toList (a2aRouter failingAgent)) (.number 1)
        subscription () =
          (.error (.jsonRpc ⟨-32603, "JSON-RPC error: [-32001] no task t1", none⟩), ()) :=
  ⟨rfl, deletion_fails, rfl, subscription_fails⟩

end Ra2a
