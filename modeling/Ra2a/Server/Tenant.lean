import Ra2a.Server.Handler.Identity
import Ra2a.Server.RequestMeta

/-!
# The tenant in the path

`a2a_tenant_router` of `server/http.rs`: every route once more, behind the name of
a tenant.  A layer around these routes has the name put into a header of the request,
and the handlers of the JSON-RPC binding put it into the metadata.

A native request that is made of the path has its tenant of the header.  One that is
read of a body has the tenant the body names, and neither the header nor the metadata
is looked at (`tenantHandedOver_serves_iff`).

The URL is the one of the request line, so all its segments stand as they are.
-/

namespace Ra2a

open Utf8 Url

/-! ### Routes -/

/-- What is there with and without a tenant. -/
inductive Endpoint
  | jsonrpc
  | sse
  | rest (route : RestRoute)
  deriving DecidableEq

/-- The routes below the name of a tenant. -/
def Endpoint.ofNested (segs : List (List Char)) : Option Endpoint :=
  if segs = [] then some .jsonrpc
  else if segs = ["stream".toList] then some .sse
  else (RestRoute.ofSegments segs).map .rest

/-- The routes without a tenant. -/
def Endpoint.ofBase (segs : List (List Char)) : Option Endpoint :=
  if segs = [[]] then some .jsonrpc
  else if segs = ["stream".toList] then some .sse
  else (RestRoute.ofSegments segs).map .rest

/-- A route of `a2a_tenant_router`, with the raw segment that names a tenant. -/
inductive TenantRoute
  | agentCard
  | base (endpoint : Endpoint)
  | nested (tenant : List Char) (endpoint : Endpoint)
  deriving DecidableEq

/-- What is captured is not empty, and a route without a tenant goes before the ones
with one. -/
def TenantRoute.ofSegments (segs : List (List Char)) : Option TenantRoute :=
  if segs = [".well-known".toList, "agent-card.json".toList] then some .agentCard
  else
    match Endpoint.ofBase segs with
    | some endpoint => some (.base endpoint)
    | none =>
      match segs with
      | [] => none
      | tenant :: rest =>
        if tenant = [] then none else (Endpoint.ofNested rest).map (.nested tenant)

/-- The segments of a path that is not changed on its way. -/
def rawSegments (url : List Char) : List (List Char) :=
  ((pathOf (afterAuthority url)).drop 1).splitOn '/'

/-- The route of a request. -/
def HttpRequest.tenantRoute? (req : HttpRequest) : Option TenantRoute :=
  TenantRoute.ofSegments (rawSegments req.url)

/-- What a route captures but the tenant. -/
def Endpoint.captured : Endpoint → List (List Char)
  | .rest (.task id) | .rest (.cancel id) | .rest (.subscribe id)
  | .rest (.pushNotificationConfigs id) => [id]
  | .rest (.pushNotificationConfig id configId) => [id, configId]
  | _ => []

/-! ### The layer around the nested routes -/

/-- `HeaderMap::insert`: any values there are replaced. -/
def HeaderMap.insert (headers : HeaderMap) (name : String) (value : List UInt8) : HeaderMap :=
  (name, value) :: headers.filter fun e => e.1 ≠ name

/-- `HeaderValue::from_str`. -/
def headerFromStr (s : List Char) : Option (List UInt8) :=
  if (encode s).all fun b => b = 9 ∨ 32 ≤ b ∧ b ≠ 127 then some (encode s) else none

/-- `inject_tenant_header`. -/
def injectTenantHeader (tenant : List Char) (headers : HeaderMap) : HeaderMap :=
  match headerFromStr tenant with
  | some val => headers.insert "x-a2a-tenant" val
  | none => headers

/-- The extractors of the layer and of its handler get every captured value as a text,
or the request is turned away. -/
def decodedTenant (tenant : List Char) (endpoint : Endpoint) : Option (List Char) :=
  if endpoint.captured.all fun seg => (decodeSegment seg).isSome then decodeSegment tenant
  else none

/-- The metadata a nested handler runs with: `handle_tenant_jsonrpc` and
`handle_tenant_sse` put the tenant there by themselves. -/
def Endpoint.requestMeta (tenant : List Char) (headers : HeaderMap) : Endpoint → RequestMeta
  | .rest _ => .fromHeaderMap headers
  | _ => (RequestMeta.fromHeaderMap headers).set "x-a2a-tenant" (String.ofList tenant)

/-! ### The router -/

section Router

variable [JsonText] [∀ α, DecodeError α] [Base64] {σ : Type} (st : RequestMeta → HttpState σ)
  (now : String)

/-- The handler of an endpoint, with the metadata it is called with. -/
def Endpoint.handle (requestMeta : RequestMeta) (req : HttpRequest) : Endpoint → StateM σ Response
  | .jsonrpc => route .post req.method (handleJsonrpcHttp (st requestMeta) req.body)
  | .sse => route .post req.method (handleSse (st requestMeta) req.body)
  | .rest r => r.handle (st requestMeta).handler now req

/-- A request of a tenant. -/
def Endpoint.handleTenant (req : HttpRequest) (endpoint : Endpoint) (tenant : List Char) :
    StateM σ Response :=
  let headers := injectTenantHeader tenant req.headers
  endpoint.handle st now (endpoint.requestMeta tenant headers) { req with headers := headers }

/-- `a2a_tenant_router`. -/
def a2aTenantRouter (req : HttpRequest) : StateM σ Response :=
  match req.tenantRoute? with
  | none => pure ⟨404, "", []⟩
  | some .agentCard => route .get req.method (handleAgentCard (st ⟨∅⟩))
  | some (.base endpoint) => endpoint.handle st now (.fromHeaderMap req.headers) req
  | some (.nested tenant endpoint) =>
    extracted (decodedTenant tenant endpoint) (endpoint.handleTenant st now req)

end Router

/-! ### The calls -/

section Calls

variable [JsonText] [Base64]

/-- The call of a method with the parameters of a request. -/
def JsonRpcRequest.callWith {α : Type} [Serde α] (request : JsonRpcRequest)
    (call : α → HandlerCall) : Option HandlerCall :=
  (request.params.bind deserialize).map call

/-- The call `handle_request` makes of a request. -/
def JsonRpcRequest.unaryCall? (request : JsonRpcRequest) : Option HandlerCall :=
  match request.method with
  | METHOD_MESSAGE_SEND => request.callWith .onMessageSend
  | METHOD_TASKS_GET => request.callWith .onGetTask
  | METHOD_TASKS_CANCEL => request.callWith .onCancelTask
  | METHOD_TASKS_LIST => request.callWith .onListTasks
  | METHOD_PUSH_CONFIG_CREATE => request.callWith .onCreateTaskPushConfig
  | METHOD_PUSH_CONFIG_GET => request.callWith .onGetTaskPushConfig
  | METHOD_PUSH_CONFIG_LIST => request.callWith .onListTaskPushConfigs
  | METHOD_PUSH_CONFIG_DELETE => request.callWith .onDeleteTaskPushConfig
  | METHOD_GET_EXTENDED_AGENT_CARD => request.callWith .onGetExtendedAgentCard
  | _ => none

/-- The call `handle_sse` makes of a request. -/
def JsonRpcRequest.streamingCall? (request : JsonRpcRequest) : Option HandlerCall :=
  match request.method with
  | METHOD_MESSAGE_STREAM => request.callWith .onMessageStream
  | METHOD_TASKS_RESUBSCRIBE => request.callWith .onSubscribeToTask
  | _ => none

/-- The call that an endpoint makes of a request. -/
def Endpoint.call? (req : HttpRequest) : Endpoint → Option HandlerCall
  | .jsonrpc =>
    match req.method with
    | .post => (fromText req.body).bind JsonRpcRequest.unaryCall?
    | _ => none
  | .sse =>
    match req.method with
    | .post => (fromText req.body).bind JsonRpcRequest.streamingCall?
    | _ => none
  | .rest r => r.call? req

/-- The calls that a request makes, of whatever handler. -/
def tenantHandedOver [∀ α, DecodeError α] (req : HttpRequest) : List HandlerCall :=
  (a2aTenantRouter (fun _ => ⟨recorder, throw .extendedCardNotConfigured⟩) "" req []).2

/-! ### Every handler is called so -/

section

variable [∀ α, DecodeError α] {σ : Type} {h : StreamingHandler σ} {s : σ}

section

variable {α : Type} [Serde α] {request : JsonRpcRequest} {call : α → HandlerCall}

omit [Base64] in
theorem parseParams_fromValue_ok_iff {a : α} :
    parseParams fromValue request = .ok a ↔ request.params.bind deserialize = some a := by
  unfold parseParams
  cases request.params with
  | none => simp
  | some p =>
    simp only [fromValue, Option.bind_some]
    cases hp : (deserialize p : Option α) with
    | none => simp [Except.mapError]
    | some a' => simp [Except.mapError]

omit [Base64] in
/-- What reads its parameters and then calls a method leaves the state as this call. -/
theorem state_callWith {β γ : Type} {run : α → Handling σ β} {f : β → Handling σ γ}
    (hrun : ∀ a, (run a s).2 = h.after s (call a)) (hf : ∀ b s, (f b s).2 = s) :
    ((liftExcept (parseParams fromValue request) >>= fun a => run a >>= f) s).2 =
      (request.callWith call).elim s (h.after s) := by
  rw [JsonRpcRequest.callWith, Chain.bind_run, handling_liftExcept]
  cases hp : parseParams (fromValue (α := α)) request with
  | error e =>
    have hnone : request.params.bind (deserialize (α := α)) = none := by
      rw [Option.eq_none_iff_forall_not_mem]
      intro a ha
      rw [parseParams_fromValue_ok_iff.mpr ha] at hp
      cases hp
    rw [hnone]
    rfl
  | ok a =>
    rw [parseParams_fromValue_ok_iff.mp hp]
    show ((run a >>= f) s).2 = h.after s (call a)
    rw [← hrun, Chain.bind_run]
    rcases run a s with ⟨_ | b, s'⟩
    · rfl
    · exact hf b s'

end

theorem dispatchText_state (request : JsonRpcRequest) :
    (dispatchText h.toStatefulHandler request s).2 = request.unaryCall?.elim s (h.after s) := by
  have harm : ∀ {α β : Type} [Serde α] [Serde β] (run : α → Handling σ β)
      (call : α → HandlerCall), (∀ a, (run a s).2 = h.after s (call a)) →
      (unaryText request run s).2 = (request.callWith call).elim s (h.after s) :=
    fun run call hrun => state_callWith hrun fun _ _ => rfl
  unfold dispatchText JsonRpcRequest.unaryCall?
  generalize request.method = method
  split <;> first | exact harm _ _ fun _ => rfl | (split <;> first | contradiction | rfl)

theorem handleJsonrpcText_makes (body : String) :
    (handleJsonrpcText h.toStatefulHandler body s).2 =
      ((fromText body).bind JsonRpcRequest.unaryCall?).elim s (h.after s) := by
  rw [handleJsonrpcText_state]
  cases hbody : (fromText body : Option JsonRpcRequest) with
  | none => exact handleText_state_of_none hbody
  | some request => exact (handleText_state hbody).trans (dispatchText_state request)

theorem sseEventStream_state {c : Handling σ AgentCard} (request : JsonRpcRequest) :
    (sseEventStream ⟨h, c⟩ request s).2 = request.streamingCall?.elim s (h.after s) := by
  have harm : ∀ {α β : Type} [Serde α] (run : α → Handling σ β) (call : α → HandlerCall),
      (∀ a, (run a s).2 = h.after s (call a)) →
      ((liftExcept (parseParams fromValue request) >>= run) s).2 =
        (request.callWith call).elim s (h.after s) := by
    intro α β _ run call hrun
    have hstate : ((liftExcept (parseParams fromValue request) >>= fun a => run a >>= pure) s).2 =
        (request.callWith call).elim s (h.after s) := state_callWith hrun fun _ _ => rfl
    simpa only [bind_pure] using hstate
  unfold sseEventStream
  generalize hm : request.method = method
  split
  case h_3 =>
    unfold JsonRpcRequest.streamingCall?
    rw [hm]
    split <;> first | contradiction | rfl
  all_goals
    unfold JsonRpcRequest.streamingCall?
    rw [hm]
    exact harm _ _ fun _ => rfl

theorem handleSse_makes {st : HttpState σ} (body : String) :
    (handleSse st body s).2 =
      ((fromText body).bind JsonRpcRequest.streamingCall?).elim s (st.handler.after s) := by
  rw [handleSse]
  cases hbody : (fromText body : Option JsonRpcRequest) with
  | none => rfl
  | some request =>
    refine Eq.trans ?_ (sseEventStream_state (c := st.cardProducer) request)
    rcases hrun : sseEventStream st request s with ⟨_ | items, s'⟩ <;>
      simp only [bind, StateT.bind, ExceptT.run, hrun] <;> rfl

variable {st : RequestMeta → HttpState σ} {now : String} {requestMeta : RequestMeta}
  {req : HttpRequest} {tenant : List Char} {endpoint : Endpoint}

theorem Endpoint.makes (endpoint : Endpoint) :
    Makes (st requestMeta).handler s (endpoint.call? req)
      (endpoint.handle st now requestMeta req) := by
  cases endpoint with
  | rest r => exact r.makes req
  | jsonrpc =>
    rw [Makes, Endpoint.call?, Endpoint.handle, route]
    cases req.method with
    | post => exact handleJsonrpcText_makes req.body
    | _ => rfl
  | sse =>
    rw [Makes, Endpoint.call?, Endpoint.handle, route]
    cases req.method with
    | post => exact handleSse_makes req.body
    | _ => rfl

/-- The call that a request of a tenant makes. -/
def HttpRequest.tenantCall? (req : HttpRequest) (tenant : List Char) (endpoint : Endpoint) :
    Option HandlerCall :=
  (decodedTenant tenant endpoint).bind fun t =>
    endpoint.call? { req with headers := injectTenantHeader t req.headers }

theorem a2aTenantRouter_nested (hroute : req.tenantRoute? = some (.nested tenant endpoint)) :
    a2aTenantRouter st now req =
      extracted (decodedTenant tenant endpoint) (endpoint.handleTenant st now req) := by
  rw [a2aTenantRouter, hroute]

/-- **Any handler of a tenant's request is called as the extractors say**, whatever it does
with the metadata. -/
theorem a2aTenantRouter_makes (st : RequestMeta → HttpState σ) (now : String) (s : σ)
    (hroute : req.tenantRoute? = some (.nested tenant endpoint)) :
    ∃ requestMeta, Makes (st requestMeta).handler s (req.tenantCall? tenant endpoint)
      (a2aTenantRouter st now req) := by
  rw [a2aTenantRouter_nested hroute, HttpRequest.tenantCall?]
  cases decodedTenant tenant endpoint with
  | none => exact ⟨⟨∅⟩, rfl⟩
  | some t => exact ⟨_, endpoint.makes⟩

end

end Calls

end Ra2a
