import Ra2a.Client.Hooks
import Ra2a.Client.Rest
import Ra2a.Server.Tenant

/-!
# Service parameters on their way

A client gives its transport the parameters that the hooks `before` leave.  The
JSON-RPC transport has each of them as a header of its request, or sends none if one
is no header.  The other two look at none of them (`serviceParams_sent_iff`).

A transport is known by the headers, or the metadata, that it sends an operation
with, and it may do anything with what comes back.
-/

namespace Ra2a

open Utf8 Interceptor

/-! ### Headers -/

/-- `HeaderName::from_bytes`: a token, in lower case. -/
def headerName (key : String) : Option String :=
  if key ≠ "" ∧ key.length < 2 ^ 16 ∧
      key.toList.all fun c => c.isAlphanum ∨ c ∈ "!#$%&'*+-.^_`|~".toList then
    some (lowerCase key)
  else none

/-- A pair as a header. -/
def header (e : String × String) : Option (String × List UInt8) := do
  return (← headerName e.1, ← headerFromStr e.2.toList)

/-- A pair is among the headers. -/
def HeaderMap.Has (headers : HeaderMap) (e : String × String) : Prop :=
  (lowerCase e.1, encode e.2.toList) ∈ headers

/-- `apply_service_params`: the pairs are added to the headers of the request. -/
def applyServiceParams (sp : ServiceParams) (own : HeaderMap) : Option HeaderMap :=
  (sp.pairs.mapM header).map (own ++ ·)

/-! ### The transports -/

/-- The three transports, with the default headers of their clients. -/
inductive ClientTransport
  | jsonRpc (id : RequestId) (defaults : HeaderMap)
  | rest (c : RestTransport)
  | grpc

/-- A request cannot be built. -/
def builderError : A2AError := .http "builder error"

section

variable [JsonText] [Base64]

/-- The headers of the request of `rpc_call`, or with `accept` of `rpc_stream`. -/
def rpcHeaders {P : Type} [Serde P] (defaults : HeaderMap) (accept : HeaderMap) (id : RequestId)
    (method : String) (sp : ServiceParams) (params : P) : Except A2AError HeaderMap :=
  match JsonText.print (JsonRpcRequest.new id method params).toJson,
    applyServiceParams sp (("content-type", encode "application/json".toList) :: accept) with
  | some _, some own => .ok (withDefaults defaults own)
  | _, _ => .error builderError

/-- The headers of a request that can be built. -/
def builtHeaders (req : Option HttpRequest) : Except A2AError HeaderMap :=
  match req with
  | some req => .ok req.headers
  | none => .error builderError

namespace ClientTransport

/-- The headers that an operation is sent with, or the error in their place. -/
def headers (sp : ServiceParams) : ClientTransport → ClientOperation → Except A2AError HeaderMap
  | jsonRpc id defaults, op =>
    let accept := [("accept", encode "text/event-stream".toList)]
    match op with
    | .sendMessage req => rpcHeaders defaults [] id METHOD_MESSAGE_SEND sp req
    | .sendStreamingMessage req => rpcHeaders defaults accept id METHOD_MESSAGE_STREAM sp req
    | .getTask req => rpcHeaders defaults [] id METHOD_TASKS_GET sp req
    | .listTasks req => rpcHeaders defaults [] id METHOD_TASKS_LIST sp req
    | .cancelTask req => rpcHeaders defaults [] id METHOD_TASKS_CANCEL sp req
    | .subscribeToTask req => rpcHeaders defaults accept id METHOD_TASKS_RESUBSCRIBE sp req
    | .getAgentCard => .ok (withDefaults defaults [])
  | rest c, op =>
    match op with
    | .sendMessage req => builtHeaders (c.sendMessage req)
    | .sendStreamingMessage req => builtHeaders (c.sendStreamingMessage req)
    | .getTask req => .ok (c.getTask req).headers
    | .listTasks req => .ok (c.listTasks req).headers
    | .cancelTask req => builtHeaders (c.cancelTask req)
    | .subscribeToTask req => .ok (c.subscribeToTask req).headers
    | .getAgentCard => .ok (c.getJson (c.url WELL_KNOWN_AGENT_CARD_PATH.toList)).headers
  | grpc, op =>
    match op with
    | .listTasks _ => .error (.unsupportedOperation "list_tasks not yet available over gRPC")
    | .getAgentCard =>
      .error (.unsupportedOperation "agent card discovery not available over gRPC")
    | _ => .ok []

/-- The operations that a transport has. -/
def Offers : ClientTransport → ClientOperation → Prop
  | grpc, .listTasks _ => False
  | grpc, .getAgentCard => False
  | _, _ => True

end ClientTransport

/-- What is sent is noted, and then answered somehow. -/
def sending {τ α : Type} (headers : Except A2AError HeaderMap) (answer : Handling τ α) :
    Handling (τ × List HeaderMap) α :=
  match headers with
  | .ok hs => fun s => ((answer s.1).1, ((answer s.1).2, s.2 ++ [hs]))
  | .error e => throw e

/-- A transport over what answers. -/
def ClientTransport.answeredBy {τ : Type} (t : ClientTransport) (net : Transport τ) :
    Transport (τ × List HeaderMap) where
  sendMessage sp req := sending (t.headers sp (.sendMessage req)) (net.sendMessage sp req)
  sendStreamingMessage sp req :=
    sending (t.headers sp (.sendStreamingMessage req)) (net.sendStreamingMessage sp req)
  getTask sp req := sending (t.headers sp (.getTask req)) (net.getTask sp req)
  listTasks sp req := sending (t.headers sp (.listTasks req)) (net.listTasks sp req)
  cancelTask sp req := sending (t.headers sp (.cancelTask req)) (net.cancelTask sp req)
  subscribeToTask sp req :=
    sending (t.headers sp (.subscribeToTask req)) (net.subscribeToTask sp req)
  getAgentCard := sending (t.headers .empty .getAgentCard) net.getAgentCard

namespace Client

variable {τ : Type} (c : Client τ)

/-- The client with this transport in the place of its own, which answers. -/
def via (t : ClientTransport) : Client (τ × List HeaderMap) where
  transport := t.answeredBy c.transport
  interceptors := c.interceptors.map fun i =>
    { before := fun req => Chain.beside (i.before req)
      after := fun resp => Chain.beside (i.after resp) }
  card s := c.card s.1
  setCard card s := (c.setCard card s.1, s.2)

/-- The headers of what is sent during an operation from state `s`. -/
def sent (t : ClientTransport) : ClientOperation → τ → List HeaderMap
  | .sendMessage req, s => ((c.via t).sendMessage req (s, [])).2.2
  | .sendStreamingMessage req, s => ((c.via t).sendStreamingMessage req (s, [])).2.2
  | .getTask req, s => ((c.via t).getTask req (s, [])).2.2
  | .listTasks req, s => ((c.via t).listTasks req (s, [])).2.2
  | .cancelTask req, s => ((c.via t).cancelTask req (s, [])).2.2
  | .subscribeToTask req, s => ((c.via t).subscribeToTask req (s, [])).2.2
  | .getAgentCard, s => ((c.via t).getAgentCard (s, [])).2.2

/-- What the hooks `before` make of an operation: the one the transport gets, and the
parameters.  A card is got without any. -/
def prepared : ClientOperation → Handling τ (ClientOperation × ServiceParams)
  | .sendMessage req => do
    let p ← c.interceptBefore "SendMessage" .sendMessageRequest req
    pure (.sendMessage p.1, p.2)
  | .sendStreamingMessage req => do
    let p ← c.interceptBefore "SendStreamingMessage" .sendMessageRequest req
    let card ← c.cached
    if card.any fun card => !card.supportsStreaming then pure (.sendMessage p.1, p.2)
    else pure (.sendStreamingMessage p.1, p.2)
  | .getTask req => do
    let p ← c.interceptBefore "GetTask" .getTaskRequest req
    pure (.getTask p.1, p.2)
  | .listTasks req => do
    let p ← c.interceptBefore "ListTasks" .listTasksRequest req
    pure (.listTasks p.1, p.2)
  | .cancelTask req => do
    let p ← c.interceptBefore "CancelTask" .cancelTaskRequest req
    pure (.cancelTask p.1, p.2)
  | .subscribeToTask req => do
    let p ← c.interceptBefore "SubscribeToTask" .subscribeToTaskRequest req
    pure (.subscribeToTask p.1, p.2)
  | .getAgentCard => pure (.getAgentCard, .empty)

/-! ### What is sent -/

variable {c}

/-- What has been sent, as a list of at most one. -/
def sentOf (headers : Except A2AError HeaderMap) : List HeaderMap := headers.toOption.toList

omit [JsonText] [Base64] in
theorem mem_sentOf_iff {headers : Except A2AError HeaderMap} {hs : HeaderMap} :
    hs ∈ sentOf headers ↔ headers = .ok hs := by
  cases headers with
  | ok hs' =>
    rw [Except.ok.injEq]
    exact List.mem_singleton.trans eq_comm
  | error e => exact iff_of_false List.not_mem_nil (by simp)

omit [JsonText] [Base64] in
theorem sending_log {α : Type} (headers : Except A2AError HeaderMap) (answer : Handling τ α)
    (s : τ) (log : List HeaderMap) :
    (sending headers answer (s, log)).2.2 = log ++ sentOf headers := by
  cases headers with
  | ok hs => rfl
  | error e => exact (List.append_nil log).symm

theorem writes_interceptBefore_over (t : ClientTransport) (method : String) (P : PayloadType)
    (payload : P.Carrier) :
    Chain.Writes (fun _ => []) (c.interceptBefore method P payload)
      ((c.via t).interceptBefore method P payload) := by
  refine writes_interceptBefore_beside ?_ (fun _ => rfl) method P payload
  rw [via, List.map_map, List.map_map]
  rfl

theorem interceptAfter_log (t : ClientTransport) (method : String) (R : PayloadType)
    (result : Except A2AError R.Carrier) (s : τ × List HeaderMap) :
    ((c.via t).interceptAfter method R result s).2.2 = s.2 := by
  have hwrites : Chain.Writes (fun _ => []) (c.interceptAfter method R result)
      ((c.via t).interceptAfter method R result) := by
    unfold interceptAfter
    rw [via, List.isEmpty_map]
    split
    · exact writes_liftExcept result
    · refine (writes_cached fun _ => rfl).bind_silent fun card => ?_
      have hafter : (c.via t).interceptors.map CallInterceptor.after =
          (c.interceptors.map CallInterceptor.after).map fun f a => Chain.beside (f a) := by
        rw [via, List.map_map, List.map_map]
        rfl
      exact (hafter ▸ Chain.writes_run_beside _ _).bind_silent fun resp => writes_liftExcept _
  obtain ⟨s, log⟩ := s
  rw [hwrites s log, List.append_nil]

omit [JsonText] [Base64] in
theorem onOk_map {α β γ : Type} {m : Handling τ α} {f : α → β} {notes : β → τ → List γ} {s : τ} :
    Chain.onOk ((m >>= fun a => pure (f a) : Handling τ β) s) notes =
      Chain.onOk (m s) fun a s => notes (f a) s := by
  rw [Chain.bind_run]
  rcases m s with ⟨e | a, s'⟩ <;> rfl

omit [JsonText] [Base64] in
theorem state_map {σ α β : Type} {m : Handling σ α} {f : α → β} {s : σ} :
    ((m >>= fun a => pure (f a) : Handling σ β) s).2 = (m s).2 := by
  rw [Chain.bind_run]
  rcases m s with ⟨e | a, s'⟩ <;> rfl

theorem unary_log (t : ClientTransport) (method : String) (P R : PayloadType)
    (op : P.Carrier → ClientOperation) (net : ServiceParams → P.Carrier → Handling τ R.Carrier)
    (req : P.Carrier) (s : τ) :
    ((c.via t).unary method P R (fun sp req => sending (t.headers sp (op req)) (net sp req)) req
      (s, [])).2.2 =
      Chain.onOk (c.interceptBefore method P req s) fun p _ =>
        sentOf (t.headers p.2 (op p.1)) := by
  unfold unary
  rw [Chain.bind_run, writes_interceptBefore_over t method P req s []]
  rcases c.interceptBefore method P req s with ⟨e | p, s'⟩
  · rfl
  · show (((liftM (sending (t.headers p.2 (op p.1)) (net p.2 p.1)).run :
      Handling (τ × List HeaderMap) (Except A2AError R.Carrier)) >>= fun result =>
        (c.via t).interceptAfter method R result) (s', [])).2.2 = _
    rw [Chain.bind_run, handling_liftM]
    show ((c.via t).interceptAfter method R _ _).2.2 = _
    rw [interceptAfter_log]
    exact sending_log _ _ s' []

theorem subscribeToTask_log (t : ClientTransport) (req : SubscribeToTaskRequest) (s : τ) :
    ((c.via t).subscribeToTask req (s, [])).2.2 =
      Chain.onOk (c.interceptBefore "SubscribeToTask" .subscribeToTaskRequest req s) fun p _ =>
        sentOf (t.headers p.2 (.subscribeToTask p.1)) := by
  unfold subscribeToTask
  rw [Chain.bind_run, writes_interceptBefore_over t "SubscribeToTask" .subscribeToTaskRequest req s
    []]
  rcases c.interceptBefore "SubscribeToTask" .subscribeToTaskRequest req s with ⟨e | p, s'⟩
  · rfl
  · exact sending_log _ _ s' []

/-- What a streaming send is for the transport, by the card. -/
def streamed (card : Option AgentCard) (req : SendMessageRequest) : ClientOperation :=
  if card.any fun card => !card.supportsStreaming then .sendMessage req
  else .sendStreamingMessage req

theorem sendStreamingMessage_log (t : ClientTransport) (req : SendMessageRequest) (s : τ) :
    ((c.via t).sendStreamingMessage req (s, [])).2.2 =
      Chain.onOk (c.interceptBefore "SendStreamingMessage" .sendMessageRequest req s) fun p s' =>
        sentOf (t.headers p.2 (streamed (c.card s') p.1)) := by
  unfold sendStreamingMessage
  rw [Chain.bind_run, writes_interceptBefore_over t "SendStreamingMessage" .sendMessageRequest req s
    []]
  rcases c.interceptBefore "SendStreamingMessage" .sendMessageRequest req s with ⟨e | p, s'⟩
  · rfl
  · have hcached : (c.via t).cached (s', []) = (.ok (c.card s'), (s', [])) := rfl
    simp only [List.append_nil]
    rw [Chain.bind_run, hcached, Chain.onOk, streamed]
    simp only
    split
    · rw [Chain.bind_run, handling_liftM]
      simp only
      rw [state_map, interceptAfter_log]
      exact sending_log _ _ s' []
    · exact sending_log _ _ s' []

/-- **What is sent during an operation** is what the transport sends of the operation that the
hooks have prepared. -/
theorem sent_eq (t : ClientTransport) {op : ClientOperation} (hop : op ≠ .getAgentCard) (s : τ) :
    c.sent t op s = Chain.onOk (c.prepared op s) fun p _ => sentOf (t.headers p.2 p.1) := by
  cases op with
  | sendMessage req =>
    rw [prepared, onOk_map]
    exact unary_log t "SendMessage" .sendMessageRequest .sendMessageResponse .sendMessage
      c.transport.sendMessage req s
  | getTask req =>
    rw [prepared, onOk_map]
    exact unary_log t "GetTask" .getTaskRequest .task .getTask c.transport.getTask req s
  | listTasks req =>
    rw [prepared, onOk_map]
    exact unary_log t "ListTasks" .listTasksRequest .listTasksResponse .listTasks
      c.transport.listTasks req s
  | cancelTask req =>
    rw [prepared, onOk_map]
    exact unary_log t "CancelTask" .cancelTaskRequest .task .cancelTask c.transport.cancelTask
      req s
  | subscribeToTask req =>
    rw [prepared, onOk_map]
    exact subscribeToTask_log t req s
  | sendStreamingMessage req =>
    rw [sent, sendStreamingMessage_log, prepared, Chain.bind_run]
    rcases c.interceptBefore "SendStreamingMessage" .sendMessageRequest req s with ⟨e | p, s'⟩
    · rfl
    · have hcached : c.cached s' = (.ok (c.card s'), s') := rfl
      simp only
      rw [Chain.bind_run, hcached, Chain.onOk, streamed]
      simp only
      split <;> rfl
  | getAgentCard => exact absurd rfl hop

/-! ### Who sends the parameters -/

omit [JsonText] [Base64] in
theorem mapM_eq_some {α β : Type} {f : α → Option β} {xs : List α} {ys : List β}
    (h : xs.mapM f = some ys) : ∀ x ∈ xs, ∃ y ∈ ys, f x = some y := by
  induction xs generalizing ys with
  | nil =>
    intro x hx
    cases hx
  | cons x xs ih =>
    rw [List.mapM_cons] at h
    obtain ⟨y, hy, h⟩ := Option.bind_eq_some_iff.mp h
    obtain ⟨ys', hys, h⟩ := Option.bind_eq_some_iff.mp h
    cases h
    intro z hz
    rcases List.mem_cons.mp hz with rfl | hz
    · exact ⟨y, List.mem_cons_self, hy⟩
    · obtain ⟨w, hw, hf⟩ := ih hys z hz
      exact ⟨w, List.mem_cons_of_mem y hw, hf⟩

omit [JsonText] [Base64] in
theorem exists_mapM {α β : Type} {f : α → Option β} {xs : List α}
    (h : ∀ x ∈ xs, (f x).isSome) : ∃ ys, xs.mapM f = some ys := by
  induction xs with
  | nil => exact ⟨[], rfl⟩
  | cons x xs ih =>
    obtain ⟨y, hy⟩ := Option.isSome_iff_exists.mp (h x List.mem_cons_self)
    obtain ⟨ys, hys⟩ := ih fun z hz => h z (List.mem_cons_of_mem x hz)
    refine ⟨y :: ys, ?_⟩
    rw [List.mapM_cons, hy, hys]
    rfl

omit [JsonText] [Base64] in
theorem eq_of_header {e : String × String} {p : String × List UInt8} (h : header e = some p) :
    p = (lowerCase e.1, encode e.2.toList) := by
  obtain ⟨name, hname, h⟩ := Option.bind_eq_some_iff.mp h
  obtain ⟨value, hvalue, h⟩ := Option.bind_eq_some_iff.mp h
  cases h
  have hlower := Option.some.inj (Option.ite_none_right_eq_some.mp hname).2
  have hbytes := Option.some.inj (Option.ite_none_right_eq_some.mp hvalue).2
  rw [hlower, hbytes]

section

variable {P : Type} [Serde P] {defaults accept : HeaderMap} {id : RequestId} {method : String}
  {sp : ServiceParams} {params : P}

omit [Base64] in
/-- What is sent with JSON-RPC has each parameter as a header. -/
theorem has_of_rpcHeaders {hs : HeaderMap}
    (h : rpcHeaders defaults accept id method sp params = .ok hs) :
    ∀ e ∈ sp.pairs, (header e).isSome ∧ hs.Has e := by
  unfold rpcHeaders at h
  split at h
  · rename_i own hprint hown
    cases h
    obtain ⟨ps, hps, rfl⟩ := Option.map_eq_some_iff.mp hown
    intro e he
    obtain ⟨p, hp, hheader⟩ := mapM_eq_some hps e he
    refine ⟨Option.isSome_iff_exists.mpr ⟨p, hheader⟩, ?_⟩
    rw [HeaderMap.Has, ← eq_of_header hheader]
    exact List.mem_append_left _ (List.mem_append_right _ hp)
  · cases h

variable (defaults accept) in
omit [Base64] in
theorem exists_rpcHeaders
    (hprint : (JsonText.print (JsonRpcRequest.new id method params).toJson).isSome)
    (hheader : ∀ e ∈ sp.pairs, (header e).isSome) :
    ∃ hs, rpcHeaders defaults accept id method sp params = .ok hs := by
  obtain ⟨text, htext⟩ := Option.isSome_iff_exists.mp hprint
  obtain ⟨ps, hps⟩ := exists_mapM hheader
  rw [rpcHeaders, htext, applyServiceParams, hps]
  exact ⟨_, rfl⟩

end

omit [JsonText] [Base64] in
theorem prepared_listTasks {q : ListTasksRequest} {op : ClientOperation} {sp : ServiceParams}
    {s s' : τ} (h : c.prepared (.listTasks q) s = (.ok (op, sp), s')) :
    ∃ q', op = .listTasks q' := by
  rw [prepared, Chain.bind_run] at h
  rcases hbefore : c.interceptBefore "ListTasks" .listTasksRequest q s with ⟨e | p, s₁⟩
  · rw [hbefore] at h
    cases h
  · rw [hbefore] at h
    cases h
    exact ⟨_, rfl⟩

/-- A list of tasks is asked for over REST with nothing but what is always sent. -/
theorem headers_rest_listTasks (rest : RestTransport) (sp : ServiceParams) (q : ListTasksRequest) :
    (ClientTransport.rest rest).headers sp (.listTasks q) =
      .ok (rest.withHeaders [("accept", "application/json")]) := by
  unfold ClientTransport.headers RestTransport.listTasks
  simp only
  split <;> rfl

theorem sent_grpc {op : ClientOperation} (hop : op ≠ .getAgentCard) {s : τ} {hs : HeaderMap}
    (h : hs ∈ c.sent .grpc op s) : hs = [] := by
  rw [sent_eq .grpc hop] at h
  obtain ⟨⟨op', sp⟩, s', -, hsent⟩ := Chain.mem_onOk_iff.mp h
  have hheaders := mem_sentOf_iff.mp hsent
  cases op' <;> cases hheaders <;> rfl

/-- Whatever transport offers the operation, each pair goes out with it. -/
def SendsParams (c : Client τ) (ts : List ClientTransport) (op : ClientOperation)
    (sp : ServiceParams) (s : τ) : Prop :=
  ∀ t ∈ ts, t.Offers op → ∀ e ∈ sp.pairs, ∃ hs ∈ c.sent t op s, hs.Has e

/-- **The parameters go out with every transport that offers the operation exactly if** there
are none, or if tasks are listed and each is a header that a REST client sends of its own. -/
theorem serviceParams_sent_iff {op op' : ClientOperation} {sp : ServiceParams} {s s' : τ}
    (hprep : c.prepared op s = (.ok (op', sp), s')) (id : RequestId) (defaults : HeaderMap)
    (rest : RestTransport)
    (hprint : ∀ q, op' = .listTasks q →
      (JsonText.print (JsonRpcRequest.new id METHOD_TASKS_LIST q).toJson).isSome) :
    c.SendsParams [.jsonRpc id defaults, .rest rest, .grpc] op sp s ↔
      ∀ e ∈ sp.pairs, (∃ q, op = .listTasks q) ∧ (header e).isSome ∧
        (rest.withHeaders [("accept", "application/json")]).Has e := by
  by_cases hcard : op = .getAgentCard
  · subst hcard
    cases hprep
    refine iff_of_true ?_ ?_
    · intro t _ _ e he
      cases he
    · intro e he
      cases he
  have hsent : ∀ t : ClientTransport, c.sent t op s = sentOf (t.headers sp op') := by
    intro t
    rw [sent_eq t hcard, hprep, Chain.onOk]
  constructor
  · intro hsends e he
    have hlist : ∃ q, op = .listTasks q := by
      by_contra hlist
      have hoffers : ClientTransport.grpc.Offers op := by
        cases op with
        | listTasks q => exact absurd ⟨q, rfl⟩ hlist
        | getAgentCard => exact absurd rfl hcard
        | _ => trivial
      obtain ⟨hs, hmem, hhas⟩ := hsends .grpc (by simp) hoffers e he
      rw [sent_grpc hcard hmem] at hhas
      cases hhas
    refine ⟨hlist, ?_⟩
    obtain ⟨q, rfl⟩ := hlist
    obtain ⟨q', rfl⟩ := prepared_listTasks hprep
    obtain ⟨hs, hmem, -⟩ := hsends (.jsonRpc id defaults) (by simp) trivial e he
    rw [hsent, mem_sentOf_iff] at hmem
    obtain ⟨hs', hmem', hhas'⟩ := hsends (.rest rest) (by simp) trivial e he
    rw [hsent, headers_rest_listTasks, mem_sentOf_iff] at hmem'
    cases hmem'
    exact ⟨(has_of_rpcHeaders hmem e he).1, hhas'⟩
  · intro hall t ht hoffers e he
    obtain ⟨⟨q, rfl⟩, -, hhas⟩ := hall e he
    obtain ⟨q', rfl⟩ := prepared_listTasks hprep
    rw [hsent]
    simp only [List.mem_cons, List.not_mem_nil, or_false] at ht
    rcases ht with rfl | rfl | rfl
    · obtain ⟨hs, hok⟩ := exists_rpcHeaders defaults [] (hprint q' rfl) fun e he =>
        (hall e he).2.1
      exact ⟨hs, mem_sentOf_iff.mpr hok, (has_of_rpcHeaders hok e he).2⟩
    · exact ⟨_, mem_sentOf_iff.mpr (headers_rest_listTasks rest sp q'), hhas⟩
    · exact hoffers.elim

end Client

end

/-! ### A client with a key -/

/-- A client that sends the same parameter with each request. -/
def keyedClient (key value : String) : Client Unit where
  transport := offline
  interceptors := [staticParamsInjector Unit ⟨[(key, [value])]⟩]
  card _ := none
  setCard _ s := s

def localRest : RestTransport := .withConfig "http://localhost:8080".toList []

/-- The key is sent neither over REST nor over gRPC. -/
theorem apiKey_not_sent :
    letI := byteChars
    letI := tableText []
    (keyedClient "x-api-key" "secret").prepared (.getTask ⟨none, "t1", none⟩) () =
        (.ok (.getTask ⟨none, "t1", none⟩, ⟨[("x-api-key", ["secret"])]⟩), ()) ∧
      ¬ (keyedClient "x-api-key" "secret").SendsParams [.rest localRest]
        (.getTask ⟨none, "t1", none⟩) ⟨[("x-api-key", ["secret"])]⟩ () ∧
      ¬ (keyedClient "x-api-key" "secret").SendsParams [.grpc]
        (.getTask ⟨none, "t1", none⟩) ⟨[("x-api-key", ["secret"])]⟩ () := by
  let := byteChars
  let := tableText []
  refine ⟨rfl, fun hsends => ?_, fun hsends => ?_⟩
  · obtain ⟨hs, hmem, hhas⟩ := hsends (.rest localRest) List.mem_cons_self trivial
      ("x-api-key", "secret") List.mem_cons_self
    obtain rfl : hs = [("accept", encode "application/json".toList)] := List.mem_singleton.mp hmem
    have hname := congrArg Prod.fst (List.mem_singleton.mp hhas)
    exact absurd hname (by decide)
  · obtain ⟨hs, hmem, hhas⟩ := hsends .grpc List.mem_cons_self trivial ("x-api-key", "secret")
      List.mem_cons_self
    obtain rfl : hs = [] := List.mem_singleton.mp hmem
    cases hhas

/-- A request for a list of tasks, and its text. -/
def listAllTexts : List (Json × String) :=
  [((JsonRpcRequest.new (.number 1) METHOD_TASKS_LIST
      (⟨none, none, none, none, none, none, none, none⟩ : ListTasksRequest)).toJson,
    braced ("\"jsonrpc\":\"2.0\",\"id\":1,\"method\":\"tasks/list\",\"params\":" ++ braced ""))]

theorem serviceParams_sent_iff_accept :
    letI := byteChars
    letI := tableText listAllTexts
    (keyedClient "accept" "application/json").SendsParams
      [.jsonRpc (.number 1) [], .rest localRest, .grpc]
      (.listTasks ⟨none, none, none, none, none, none, none, none⟩)
      ⟨[("accept", ["application/json"])]⟩ () := by
  let := byteChars
  let := tableText listAllTexts
  have hprep : (keyedClient "accept" "application/json").prepared
      (.listTasks ⟨none, none, none, none, none, none, none, none⟩) () =
      (.ok (.listTasks ⟨none, none, none, none, none, none, none, none⟩,
        ⟨[("accept", ["application/json"])]⟩), ()) := rfl
  refine (Client.serviceParams_sent_iff hprep (.number 1) [] localRest fun q hq => ?_).mpr ?_
  · cases hq
    rfl
  · intro e he
    obtain rfl := List.mem_singleton.mp he
    refine ⟨⟨_, rfl⟩, by decide, ?_⟩
    have hname : lowerCase "accept" = "accept" := by decide
    show (lowerCase "accept", encode "application/json".toList) ∈ _
    rw [hname]
    exact List.mem_cons_self

end Ra2a
