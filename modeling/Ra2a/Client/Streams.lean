import Ra2a.Client.Chunks
import Ra2a.Client.Events
import Ra2a.Client.JsonRpc
import Ra2a.Server.Http

/-!
# The streaming operations of the JSON-RPC client

`send_streaming_message` and `subscribe_to_task` of `client/jsonrpc.rs` post to the
base URL, as the unary operations do.  The router has the events at `/stream`, and
at its root `handle_request`, which turns the two methods away.  So a stream is
never delivered (`streams_never_delivered`), though what `handle_sse` writes is what
the client reads (`read_sseStream`).
-/

namespace Ra2a

open Utf8 Delimited

/-! ### The client and the place of the server -/

/-- `str::trim_end_matches('/')`. -/
def trimEndSlashes (s : List Char) : List Char := (s.reverse.dropWhile (· = '/')).reverse

structure JsonRpcTransport where
  baseUrl : List Char
  deriving DecidableEq

/-- `JsonRpcTransport::new`. -/
def JsonRpcTransport.new (baseUrl : List Char) : JsonRpcTransport := ⟨trimEndSlashes baseUrl⟩

/-- The path of a URL under a mount point; where nothing is left it is the root. -/
def pathUnder (base url : List Char) : Option (List Char) :=
  (stripPrefix base url).map fun path => if path.isEmpty then ['/'] else path

/-- The server that has a router mounted at a URL. -/
def mountedAt {σ : Type} (base : List Char)
    (router : HttpMethod → String → String → StateM σ Response)
    (method : HttpMethod) (url : List Char) (body : String) : StateM σ Response :=
  match pathUnder (trimEndSlashes base) url with
  | some path => router method (String.ofList path) body
  | none => pure ⟨404, "", []⟩

section

variable [JsonText] [∀ α, DecodeError α] [Base64] {σ : Type}

/-- `Response::json`. -/
def Response.json {α : Type} [Serde α] (resp : Response) : Except String α :=
  match fromUtf8 resp.body.flatten with
  | some text => fromStr (String.ofList text)
  | none => .error "invalid unicode code point"

/-- `JsonRpcTransport::rpc_stream`, with the stream run to its end. -/
def JsonRpcTransport.rpcStream {P : Type} [Serde P] (c : JsonRpcTransport)
    (server : HttpMethod → List Char → String → StateM σ Response) (id : RequestId)
    (method : String) (params : P) : Handling σ (List Item) :=
  match JsonText.print (JsonRpcRequest.new id method params).toJson with
  | none => throw (.http "builder error")
  | some body => do
    let resp ← server .post c.baseUrl body
    if 400 ≤ resp.status then throw (.http "HTTP status client error")
    else if "text/event-stream".toList <:+: resp.contentType.toList then
      pure (parseSseStream (resp.body.map .ok))
    else
      match (resp.json : Except String (JsonRpcResponse Event)) with
      | .ok (.success s) => pure [.ok s.result]
      | .ok (.error e) => throw (.jsonRpc e.error)
      | .error _ => throw (.http "error decoding response body")

def JsonRpcTransport.sendStreamingMessage (c : JsonRpcTransport)
    (server : HttpMethod → List Char → String → StateM σ Response) (id : RequestId)
    (req : SendMessageRequest) : Handling σ (List Item) :=
  c.rpcStream server id METHOD_MESSAGE_STREAM req

def JsonRpcTransport.subscribeToTask (c : JsonRpcTransport)
    (server : HttpMethod → List Char → String → StateM σ Response) (id : RequestId)
    (req : SubscribeToTaskRequest) : Handling σ (List Item) :=
  c.rpcStream server id METHOD_TASKS_RESUBSCRIBE req

/-! ### What is written at `/stream` -/

/-- What `handle_sse` writes of a stream is read as its items. -/
theorem read_sseStream [LawfulBase64] {id : RequestId} {items : List Item}
    (hitems : ∀ item ∈ items, JsonText.Legible (sseEnvelope id item)) :
    parseSseStream ((items.map fun item =>
      encode (Frame.text (sseItemData id) (.item item))).map .ok) = items.map (received id) := by
  have htexts : (items.map fun item =>
      encode (Frame.text (sseItemData id) (.item item))).flatMap fromUtf8OrDrop =
      (items.map Frame.item).flatMap (Frame.text (sseItemData id)) := by
    rw [List.flatMap_map, List.flatMap_map]
    exact List.flatMap_congr fun item _ => fromUtf8OrDrop_encode _
  have hframes : ∀ f ∈ items.map Frame.item, f.Legible (sseEnvelope id) := by
    intro f hf
    obtain ⟨item, hitem, rfl⟩ := List.mem_map.mp hf
    exact hitems item hitem
  have hread := sseFrames_extracted hframes
  have hall : (items.map Frame.item).filterMap Frame.item? = items := by
    rw [List.filterMap_map]
    exact List.filterMap_some
  rw [extractSseEvents, sseReader_eq, drain_eq, hall] at hread
  rw [parseSseStream_ok, htexts]
  exact congrArg Prod.fst hread

/-- What is posted to `/stream` is handled as a call of the method. -/
theorem handleSse_posted {P : Type} [Serde P] [LawfulSerde P] [NeverNull P] {st : HttpState σ}
    {id : RequestId} {method body : String} {r : P} {onCall : P → Handling σ (List Item)}
    {outcome : Except A2AError (List Item)} {s s' : σ}
    (harm : ∀ request : JsonRpcRequest, request.method = method →
      sseEventStream st request = (liftExcept (parseParams fromValue request) >>= onCall))
    (hfrom : (fromText body : Option JsonRpcRequest) = some (JsonRpcRequest.new id method r))
    (hcall : onCall r s = (outcome, s')) :
    handleSse st body s = (match outcome with
      | .error e => sseErrorResponse (some id) e.toJsonrpcError
      | .ok items => ⟨200, "text/event-stream", items.map fun item =>
          encode (Frame.text (sseItemData id) (.item item))⟩, s') := by
  have hstream : sseEventStream st (JsonRpcRequest.new id method r) s = (outcome, s') := by
    rw [harm _ rfl, Chain.bind_run, handling_liftExcept, parseParams_new]
    exact hcall
  have hrun : (sseEventStream st (JsonRpcRequest.new id method r)).run s = (outcome, s') := hstream
  rw [handleSse, hfrom]
  simp only [bind, StateT.bind, hrun]
  cases outcome <;> rfl

/-! ### What is answered at the root -/

/-- The error of a streaming method that is called at the root. -/
def streamingRefusal : JsonRpcError :=
  (A2AError.jsonRpc
    (.invalidRequest "Streaming methods must be called via the SSE endpoint")).toJsonrpcError

omit [JsonText] [∀ α, DecodeError α] [Base64] in
theorem pathUnder_self (base : List Char) : pathUnder base base = some ['/'] := by
  have hprefix : base.isPrefixOf base = true :=
    List.isPrefixOf_iff_prefix.mpr (List.prefix_refl base)
  rw [pathUnder, stripPrefix, if_pos hprefix, List.drop_length]
  rfl

theorem mountedAt_root (st : HttpState σ) (base : List Char) (body : String) :
    mountedAt base (a2aRouter st) .post (JsonRpcTransport.new base).baseUrl body =
      handleJsonrpcHttp st body := by
  have hpath : pathUnder (trimEndSlashes base) (JsonRpcTransport.new base).baseUrl = some ['/'] :=
    pathUnder_self _
  rw [mountedAt, hpath]
  rfl

/-- What `handle_request` answers is what is answered at the root. -/
theorem posted_root_of_text {st : HttpState σ} {base : List Char} {body text : String} {s s' : σ}
    (h : handleText st.handler.toStatefulHandler body s = (.ok text, s')) :
    mountedAt base (a2aRouter st) .post (JsonRpcTransport.new base).baseUrl body s =
      (jsonOk text, s') := by
  have hanswer := handleJsonrpcText_of_ok h
  rw [mountedAt_root]
  simp only [handleJsonrpcHttp, bind, StateT.bind, hanswer]
  rfl

section Refused

variable {st : HttpState σ} {base : List Char} {id : RequestId} {method : String} {s : σ}

/-- A response that is read as an error is the error. -/
theorem rpcStream_of_error {P : Type} [Serde P] {r : P} {c : JsonRpcTransport}
    {server : HttpMethod → List Char → String → StateM σ Response} {body text : String}
    {answer : Json} {id' : Option RequestId} {e : JsonRpcError} {s' : σ}
    (hbody : JsonText.print (JsonRpcRequest.new id method r).toJson = some body)
    (hserver : server .post c.baseUrl body s = (jsonOk text, s'))
    (htext : JsonText.parse text = some answer)
    (hanswer : JsonRpcResponse.ofJson (R := Event) answer = some (.error ⟨"2.0", id', e⟩)) :
    c.rpcStream server id method r s = (.error (.jsonRpc e), s') := by
  have hread : (Response.json (jsonOk text) : Except String (JsonRpcResponse Event)) =
      .ok (.error ⟨"2.0", id', e⟩) := by
    have hutf8 : fromUtf8 (jsonOk text).body.flatten = some text.toList := by
      show fromUtf8 [encode text.toList].flatten = _
      rw [List.flatten_singleton, fromUtf8_encode]
    rw [Response.json, hutf8]
    show fromStr (String.ofList text.toList) = _
    rw [String.ofList_toList]
    refine fromStr_of_fromText ?_
    rw [fromText, htext]
    exact hanswer
  rw [JsonRpcTransport.rpcStream, hbody]
  show ((liftM (server .post c.baseUrl body) : Handling σ Response) >>= _) s = _
  rw [Chain.bind_run, handling_liftM, hserver]
  have hok : ¬ 400 ≤ (jsonOk text).status := of_decide_eq_false rfl
  have htype : ¬ "text/event-stream".toList <:+: (jsonOk text).contentType.toList := by
    show ¬ "text/event-stream".toList <:+: "application/json".toList
    decide
  simp only [if_neg hok, if_neg htype, hread]
  rfl

/-- The text `handle_request` answers a streaming method with: the method is turned
away, or the body is too deep to be read. -/
theorem handleText_streaming {h : StatefulHandler σ} {body : String} {request : JsonRpcRequest}
    (hmethod : request.method = METHOD_MESSAGE_STREAM ∨ request.method = METHOD_TASKS_RESUBSCRIBE)
    (hread : (fromText body : Option JsonRpcRequest) = some request) :
    handleText h body s =
      (printed (errorResponse (some request.id) streamingRefusal), s) := by
  have hdispatch : dispatchText h request s = (.ok (.error (.jsonRpc
      (.invalidRequest "Streaming methods must be called via the SSE endpoint"))), s) := by
    unfold dispatchText
    rcases hmethod with hmethod | hmethod <;> rw [hmethod] <;> rfl
  rw [handleText, hread]
  show (dispatchText h request >>= _) s = _
  rw [Chain.bind_run, hdispatch]
  exact handling_liftExcept

theorem handleText_unreadable {h : StatefulHandler σ} {body : String}
    (hread : (fromText body : Option JsonRpcRequest) = none) :
    handleText h body s = (printed (errorResponse none .parseError), s) := by
  rw [handleText, hread]
  exact handling_liftExcept

/-- **At the root a streaming method is turned away.** -/
theorem rpcStream_turnedAway {P : Type} [Serde P] [NeverNull P] {st : HttpState σ} {r : P}
    (hmethod : method = METHOD_MESSAGE_STREAM ∨ method = METHOD_TASKS_RESUBSCRIBE)
    (hrequest : JsonText.Lossless (JsonRpcRequest.new id method r).toJson)
    (hrefusal : JsonText.Lossless (errorResponse (some id) streamingRefusal)) :
    (JsonRpcTransport.new base).rpcStream (mountedAt base (a2aRouter st)) id method r s =
      (.error (.jsonRpc streamingRefusal), s) := by
  obtain ⟨body, hbody, hback⟩ := hrequest
  obtain ⟨text, hprint, hread⟩ := hrefusal
  have htext : handleText st.handler.toStatefulHandler body s =
      (printed (errorResponse (some id) streamingRefusal), s) :=
    handleText_streaming hmethod (fromText_new hback)
  rw [printed_of_print hprint] at htext
  exact rpcStream_of_error hbody (posted_root_of_text htext) hread
    (ofJson_errorResponse _ _ (Option.some_ne_none _).symm)

/-- **A streaming operation is an error, and the handler is not called.** -/
theorem rpcStream_refused {P : Type} [Serde P] [NeverNull P] (st : HttpState σ)
    (base : List Char) (id : RequestId) (r : P) (s : σ)
    (hmethod : method = METHOD_MESSAGE_STREAM ∨ method = METHOD_TASKS_RESUBSCRIBE)
    (hrequest : JsonText.Readable recursionLimit (JsonRpcRequest.new id method r).toJson)
    (hrefusal : JsonText.Lossless (errorResponse (some id) streamingRefusal))
    (hparse : JsonText.Lossless (errorResponse none .parseError)) :
    ∃ e, (JsonRpcTransport.new base).rpcStream (mountedAt base (a2aRouter st)) id method r s =
      (.error (.jsonRpc e), s) := by
  obtain ⟨body, hbody, hback⟩ := hrequest
  by_cases hdepth : (JsonRpcRequest.new id method r).toJson.depth ≤ recursionLimit
  · rw [if_pos hdepth] at hback
    exact ⟨_, rpcStream_turnedAway hmethod ⟨body, hbody, hback⟩ hrefusal⟩
  · obtain ⟨text, hprint, hread⟩ := hparse
    rw [if_neg hdepth] at hback
    have hfrom : (fromText body : Option JsonRpcRequest) = none := by
      rw [fromText, hback]
      rfl
    have htext := handleText_unreadable (s := s) (h := st.handler.toStatefulHandler) hfrom
    rw [printed_of_print hprint] at htext
    exact ⟨_, rpcStream_of_error hbody (posted_root_of_text htext) hread
      (ofJson_errorResponse _ _ (Option.some_ne_none _).symm)⟩

end Refused

/-- **No stream is delivered**, whatever the handler has for it. -/
theorem streams_never_delivered (st : HttpState σ) (base : List Char) (id : RequestId)
    (hrefusal : JsonText.Lossless (errorResponse (some id) streamingRefusal))
    (hparse : JsonText.Lossless (errorResponse none .parseError)) :
    (∀ (req : SendMessageRequest) (s : σ) (events : List Event),
      JsonText.Readable recursionLimit (JsonRpcRequest.new id METHOD_MESSAGE_STREAM req).toJson →
      (st.handler.onMessageStream req s).1 = .ok (events.map .ok) →
      ((JsonRpcTransport.new base).sendStreamingMessage (mountedAt base (a2aRouter st)) id
        req s).1 ≠
        .ok (events.map .ok)) ∧
    ∀ (req : SubscribeToTaskRequest) (s : σ) (events : List Event),
      JsonText.Readable recursionLimit (JsonRpcRequest.new id METHOD_TASKS_RESUBSCRIBE req).toJson →
      (st.handler.onSubscribeToTask req s).1 = .ok (events.map .ok) →
      ((JsonRpcTransport.new base).subscribeToTask (mountedAt base (a2aRouter st)) id req s).1 ≠
        .ok (events.map .ok) := by
  constructor
  · intro req s events hrequest _ hdelivered
    obtain ⟨e, he⟩ := rpcStream_refused st base id req s (Or.inl rfl) hrequest hrefusal hparse
    rw [JsonRpcTransport.sendStreamingMessage, he] at hdelivered
    cases hdelivered
  · intro req s events hrequest _ hdelivered
    obtain ⟨e, he⟩ := rpcStream_refused st base id req s (Or.inr rfl) hrequest hrefusal hparse
    rw [JsonRpcTransport.subscribeToTask, he] at hdelivered
    cases hdelivered

end

/-! ### A subscription -/

/-- A server that has one event for every subscriber. -/
def greeter : HttpState Unit where
  handler :=
    { StatefulHandler.unsupported Unit with
      onMessageStream := fun _ => throw (.unsupportedOperation METHOD_MESSAGE_STREAM)
      onSubscribeToTask := fun _ => pure [.ok (partEvent (.text "hello"))] }
  cardProducer := throw .extendedCardNotConfigured

/-- The request to subscribe, and the errors that may answer it. -/
def subscriptionTexts : List (Json × String) :=
  [((JsonRpcRequest.new (.number 1) METHOD_TASKS_RESUBSCRIBE
      (⟨none, "t1"⟩ : SubscribeToTaskRequest)).toJson,
      braced ("\"jsonrpc\":\"2.0\",\"id\":1,\"method\":\"tasks/resubscribe\"," ++
        "\"params\":" ++ braced "\"id\":\"t1\"")),
    (errorResponse (some (.number 1)) streamingRefusal,
      braced ("\"jsonrpc\":\"2.0\",\"id\":1,\"error\":" ++ braced ("\"code\":-32603," ++
        "\"message\":\"" ++ streamingRefusal.message ++ "\""))),
    (errorResponse none .parseError,
      braced ("\"jsonrpc\":\"2.0\",\"error\":" ++
        braced "\"code\":-32700,\"message\":\"Invalid JSON payload\""))]

theorem streams_never_delivered_subscription :
    letI := byteChars
    letI := tableText subscriptionTexts
    letI : ∀ α, DecodeError α := fun _ => ⟨fun _ => "invalid"⟩
    ((JsonRpcTransport.new "http://localhost:8080/".toList).subscribeToTask
      (mountedAt "http://localhost:8080/".toList (a2aRouter greeter)) (.number 1)
      ⟨none, "t1"⟩ ()).1 ≠ .ok ([partEvent (.text "hello")].map .ok) := by
  let := byteChars
  let := tableText subscriptionTexts
  let : ∀ α, DecodeError α := fun _ => ⟨fun _ => "invalid"⟩
  have hnever := streams_never_delivered greeter "http://localhost:8080/".toList (.number 1)
    ⟨_, rfl, rfl⟩ ⟨_, rfl, rfl⟩
  exact hnever.2 ⟨none, "t1"⟩ () [partEvent (.text "hello")] ⟨_, rfl, rfl⟩ rfl

/-- The handler has an event for the subscriber, who gets an error. -/
theorem subscription_refused :
    letI := byteChars
    letI := tableText subscriptionTexts
    letI : ∀ α, DecodeError α := fun _ => ⟨fun _ => "invalid"⟩
    (greeter.handler.onSubscribeToTask ⟨none, "t1"⟩ ()).1 =
        .ok ([partEvent (.text "hello")].map .ok) ∧
      ∃ e, ((JsonRpcTransport.new "http://localhost:8080/".toList).subscribeToTask
        (mountedAt "http://localhost:8080/".toList (a2aRouter greeter)) (.number 1)
        ⟨none, "t1"⟩ ()).1 = .error (.jsonRpc e) := by
  let := byteChars
  let := tableText subscriptionTexts
  let : ∀ α, DecodeError α := fun _ => ⟨fun _ => "invalid"⟩
  obtain ⟨e, he⟩ := rpcStream_refused greeter "http://localhost:8080/".toList (.number 1)
    (⟨none, "t1"⟩ : SubscribeToTaskRequest) () (Or.inr rfl) ⟨_, rfl, rfl⟩ ⟨_, rfl, rfl⟩
    ⟨_, rfl, rfl⟩
  exact ⟨rfl, e, congrArg Prod.fst he⟩

end Ra2a
