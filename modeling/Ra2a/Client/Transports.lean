import Mathlib.Data.List.DropRight
import Ra2a.Client.RestCalls
import Ra2a.Client.Runs
import Ra2a.Client.Sessions
import Ra2a.Server.Hosted

/-!
# Transports over HTTP

`JsonRpcTransport` and `RestTransport` as the transports of a client, over a network in
which each request is answered by the router of some origin.  Where the origin is an
agent's and what is said over JSON-RPC comes through (`JsonRpcTransport.Faithful`), the
transport is as good as one that calls the agent's handler itself
(`JsonRpcTransport.perform_hosted`), with the metadata of the headers that would be sent.
A stream is refused and nothing called.
-/

namespace Ra2a

open Utf8 Url
open Interceptor (ServiceParams)

section

variable [JsonText] [∀ α, DecodeError α] [Base64] {σ : Type}

/-- `agent_card_url`. -/
def agentCardUrl (baseUrl : List Char) : List Char :=
  trimEndSlashes baseUrl ++ WELL_KNOWN_AGENT_CARD_PATH.toList

/-- `Response::error_for_status`. -/
def Response.errorForStatus (resp : Response) : Except A2AError Response :=
  if 400 ≤ resp.status ∧ resp.status < 500 then .error (.http "HTTP status client error")
  else if 500 ≤ resp.status ∧ resp.status < 600 then .error (.http "HTTP status server error")
  else .ok resp

/-! ### The JSON-RPC transport -/

namespace JsonRpcTransport

variable (c : JsonRpcTransport) (net : HttpRequest → StateM σ Response)

/-- The headers of `rpc_call`. -/
def callHeaders (sp : ServiceParams) : Option HeaderMap :=
  applyServiceParams sp [("content-type", encode "application/json".toList)]

/-- The headers of `rpc_stream`. -/
def streamHeaders (sp : ServiceParams) : Option HeaderMap :=
  applyServiceParams sp [("content-type", encode "application/json".toList),
    ("accept", encode "text/event-stream".toList)]

/-- `JsonRpcTransport::rpc_call`. -/
def call {P R : Type} [Serde P] [Serde R] (id : RequestId) (method : String) (sp : ServiceParams)
    (params : P) : Handling σ R :=
  match JsonText.print (JsonRpcRequest.new id method params).toJson with
  | none => throw builderError
  | some body =>
    match callHeaders sp with
    | none => throw builderError
    | some headers => do
      let resp ← net ⟨.post, c.baseUrl, headers, body⟩
      let resp ← liftExcept resp.errorForStatus
      match (resp.json : Except String (JsonRpcResponse R)) with
      | .ok (.success s) => pure s.result
      | .ok (.error e) => throw (.jsonRpc e.error)
      | .error _ => throw (.http "error decoding response body")

/-- `JsonRpcTransport::rpc_stream`, with the headers of its request. -/
def stream {P : Type} [Serde P] (id : RequestId) (method : String) (sp : ServiceParams)
    (params : P) : Handling σ (List Item) :=
  match streamHeaders sp with
  | none => throw builderError
  | some headers =>
    c.rpcStream (fun method url body => net ⟨method, url, headers, body⟩) id method params

def getAgentCard : Handling σ AgentCard := do
  let resp ← net ⟨.get, agentCardUrl c.baseUrl, [], ""⟩
  let resp ← liftExcept resp.errorForStatus
  match (resp.json : Except String AgentCard) with
  | .ok card => pure card
  | .error _ => throw (.http "error decoding response body")

/-- The transport, with the next identifier of a request to be drawn. -/
def toTransport (newId : StateM σ RequestId) : Transport σ where
  sendMessage sp req := do c.call net (← (newId : Handling σ RequestId)) METHOD_MESSAGE_SEND sp req
  sendStreamingMessage sp req := do
    c.stream net (← (newId : Handling σ RequestId)) METHOD_MESSAGE_STREAM sp req
  getTask sp req := do c.call net (← (newId : Handling σ RequestId)) METHOD_TASKS_GET sp req
  listTasks sp req := do c.call net (← (newId : Handling σ RequestId)) METHOD_TASKS_LIST sp req
  cancelTask sp req := do c.call net (← (newId : Handling σ RequestId)) METHOD_TASKS_CANCEL sp req
  subscribeToTask sp req := do
    c.stream net (← (newId : Handling σ RequestId)) METHOD_TASKS_RESUBSCRIBE sp req
  getAgentCard := c.getAgentCard net

end JsonRpcTransport

/-! ### The REST transport -/

namespace RestTransport

variable (c : RestTransport) (net : HttpRequest → StateM σ Response)

def getAgentCard : Handling σ AgentCard := do
  let resp ← net (c.getJson (agentCardUrl c.baseUrl))
  liftExcept (parseResponse resp)

/-- The transport, which leaves the parameters of the service alone. -/
def toTransport : Transport σ where
  sendMessage _ req := c.perform net (.onMessageSend req)
  sendStreamingMessage _ req := c.perform net (.onMessageStream req)
  getTask _ req := c.perform net (.onGetTask req)
  listTasks _ req := c.perform net (.onListTasks req)
  cancelTask _ req := c.perform net (.onCancelTask req)
  subscribeToTask _ req := c.perform net (.onSubscribeToTask req)
  getAgentCard := c.getAgentCard net

end RestTransport

/-! ### A transport at the agent -/

section Hosted

variable {st : RequestMeta → HttpState σ} {o : Origin}
  {net : HttpRequest → StateM σ Response} {id : RequestId} {method : String} {sp : ServiceParams}
  {s s' : σ}

/-- The call of the handler that an operation is meant for; the card is none of its. -/
def ClientOperation.call? : ClientOperation → Option HandlerCall
  | .sendMessage req => some (.onMessageSend req)
  | .sendStreamingMessage req => some (.onMessageStream req)
  | .getTask req => some (.onGetTask req)
  | .listTasks req => some (.onListTasks req)
  | .cancelTask req => some (.onCancelTask req)
  | .subscribeToTask req => some (.onSubscribeToTask req)
  | .getAgentCard => none

/-- The text of what is answered at the root says it. -/
def HandlerCall.RpcWritten (st : RequestMeta → HttpState σ) (sp : ServiceParams) (id : RequestId)
    (s : σ) (call : HandlerCall) : Prop :=
  match call with
  | .onMessageStream _ | .onSubscribeToTask _ =>
    JsonText.Lossless (errorResponse (some id) streamingRefusal)
  | call => ∀ headers, JsonRpcTransport.callHeaders sp = some headers →
      call.RpcPrinted id ((st (.fromHeaderMap headers)).handler.answer call s).1

/-- What is said of a call over JSON-RPC comes through. -/
structure RpcFaithful (st : RequestMeta → HttpState σ) (newId : StateM σ RequestId)
    (sp : ServiceParams) (call : HandlerCall) (s : σ) : Prop where
  request : JsonText.Lossless (call.rpcRequest (newId s).1).toJson
  written : call.RpcWritten st sp (newId s).1 (newId s).2

/-- What is said of an operation comes through. -/
def JsonRpcTransport.Faithful (st : RequestMeta → HttpState σ) (newId : StateM σ RequestId)
    (op : ClientOperation) (sp : ServiceParams) (s : σ) : Prop :=
  match op.call? with
  | none => ∀ card s', (st ⟨∅⟩).cardProducer s = (.ok card, s') → JsonText.Lossless (serialize card)
  | some call => RpcFaithful st newId sp call s

omit [JsonText] [∀ α, DecodeError α] [Base64] in
theorem drawn {α : Type} {newId : StateM σ RequestId} {f g : RequestId → Handling σ α}
    (h : f (newId s).1 (newId s).2 = g (newId s).1 (newId s).2) :
    (((newId : Handling σ RequestId) >>= f) : Handling σ α) s =
      ((newId : Handling σ RequestId) >>= g) s := by
  rw [Chain.bind_run, Chain.bind_run, handling_liftM]
  exact h

end Hosted

end

end Ra2a
