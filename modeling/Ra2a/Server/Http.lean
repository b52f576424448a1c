import Ra2a.Lib.Utf8
import Ra2a.Server.Requests
import Ra2a.Server.Sse

/-!
# The axum router

`a2a_router` of `server/http.rs`: three routes, and a handler behind each.  A
response has the body as the pieces that are written one after the other, and a
stream of events is written with no pause so long that a comment keeps it alive.
-/

namespace Ra2a

/-- `WELL_KNOWN_AGENT_CARD_PATH`. -/
@[match_pattern] abbrev WELL_KNOWN_AGENT_CARD_PATH : String := "/.well-known/agent-card.json"

inductive HttpMethod
  | get
  | post
  | delete
  deriving DecidableEq

structure Response where
  status : ℕ
  contentType : String
  body : List (List UInt8)
  deriving DecidableEq

/-- `build_response`. -/
def buildResponse (status : ℕ) (contentType : String) (body : String) : Response :=
  ⟨status, contentType, [Utf8.encode body.toList]⟩

/-- `json_ok`. -/
def jsonOk (body : String) : Response := buildResponse 200 "application/json" body

/-- `ServerState`: the request handler, and what makes the card. -/
structure HttpState (σ : Type) where
  handler : StreamingHandler σ
  cardProducer : Handling σ AgentCard

section

variable [JsonText] [∀ α, DecodeError α] [Base64] {σ : Type}

/-- `handle_agent_card`. -/
def handleAgentCard (st : HttpState σ) : StateM σ Response := do
  match ← st.cardProducer.run with
  | .error _ => pure (buildResponse 500 "text/plain" "")
  | .ok card => pure (jsonOk ((toText card).getD ""))

/-- `handle_jsonrpc`. -/
def handleJsonrpcHttp (st : HttpState σ) (body : String) : StateM σ Response := do
  pure (jsonOk (← handleJsonrpcText st.handler.toStatefulHandler body))

omit [∀ α, DecodeError α] [Base64] in
/-- `sse_error_response`. -/
def sseErrorResponse (id : Option RequestId) (error : JsonRpcError) : Response :=
  let envelope := Json.ofFields (field "jsonrpc" "2.0" ++
    [("id", (id.map RequestId.toJson).getD .null)] ++
    field "error" (Json.ofFields (field "code" error.code ++ field "message" error.message)))
  jsonOk ((JsonText.print envelope).getD "")

/-- The stream `handle_sse` asks the handler for. -/
def sseEventStream (st : HttpState σ) (request : JsonRpcRequest) :
    Handling σ (List (Except A2AError Event)) :=
  match request.method with
  | METHOD_MESSAGE_STREAM => do
    let p ← liftExcept (parseParams fromValue request)
    st.handler.onMessageStream p
  | METHOD_TASKS_RESUBSCRIBE => do
    let p ← liftExcept (parseParams fromValue request)
    st.handler.onSubscribeToTask p
  | method => throw (.jsonRpc (.methodNotFound method))

/-- `handle_sse`. -/
def handleSse (st : HttpState σ) (body : String) : StateM σ Response :=
  match (fromText body : Option JsonRpcRequest) with
  | none => pure (sseErrorResponse none .parseError)
  | some request => do
    match ← (sseEventStream st request).run with
    | .error e => pure (sseErrorResponse (some request.id) e.toJsonrpcError)
    | .ok items =>
      let sseStream := items.map fun item =>
        Utf8.encode (Frame.text (sseItemData request.id) (.item item))
      pure ⟨200, "text/event-stream", sseStream⟩

/-- A route that is there for one method only. -/
def route (allowed method : HttpMethod) (handle : StateM σ Response) : StateM σ Response :=
  if method = allowed then handle else pure ⟨405, "", []⟩

/-- `a2a_router`. -/
def a2aRouter (st : HttpState σ) (method : HttpMethod) (path body : String) : StateM σ Response :=
  match path with
  | WELL_KNOWN_AGENT_CARD_PATH => route .get method (handleAgentCard st)
  | "/" => route .post method (handleJsonrpcHttp st body)
  | "/stream" => route .post method (handleSse st body)
  | _ => pure ⟨404, "", []⟩

end

end Ra2a
