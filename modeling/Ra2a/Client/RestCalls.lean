import Ra2a.Client.RestErrors
import Ra2a.Client.RestRequests

/-!
# Calls over REST

An operation of the REST client is one exchange: a request, the router's response, and
what the client reads of it.  Where there is a router, and the request comes back
(`Carried`), the handler is called once, with it; the operation leaves the state that
the call leaves and ends as the call does, but an error is what is recovered of it, and
a stream what is read of its frames (`restCall_answered`).
-/

namespace Ra2a

open Utf8 Url

section

variable [JsonText] [Base64] {σ : Type}

/-! ### What the router answers -/

/-- The end of the route of a call. -/
def HandlerCall.respond (now : String) (taskId : Option String) :
    (call : HandlerCall) → Handling σ call.Result → StateM σ Response
  | .onMessageSend _, result => restAnswer now taskId result
  | .onMessageStream _, result => restStream now taskId result
  | .onGetTask _, result => restAnswer now taskId result
  | .onListTasks _, result => restAnswer now taskId result
  | .onCancelTask _, result => restAnswer now taskId result
  | .onSubscribeToTask _, result => restStream now taskId result
  | .onCreateTaskPushConfig _, result => restAnswer now taskId result
  | .onGetTaskPushConfig _, result => restAnswer now taskId result
  | .onListTaskPushConfigs _, result => restAnswer now taskId result
  | .onDeleteTaskPushConfig _, result => do
    match ← result.run with
    | .ok () => pure ⟨204, "", []⟩
    | .error e => pure (restErrorResponse now e taskId)
  | .onGetExtendedAgentCard _, result => restAnswer now taskId result

section

variable {h : StreamingHandler σ} {now : String} {s : σ} {call : HandlerCall}

/-- A run that answers the call it makes. -/
def Responds (h : StreamingHandler σ) (now : String) (s : σ) (call? : Option HandlerCall)
    (run : StateM σ Response) : Prop :=
  ∀ call ∈ call?, ∃ taskId, run s = call.respond now taskId (h.answer call) s

/-- A route for no such method makes no call. -/
theorem Responds.none {run : StateM σ Response} : Responds h now s none run := by
  intro call hcall
  cases hcall

theorem Responds.intro {call? : Option HandlerCall} {run : StateM σ Response}
    (taskId : Option String) (hcall : call? = some call)
    (hrun : run = call.respond now taskId (h.answer call)) : Responds h now s call? run := by
  intro call' hcall'
  rw [hcall] at hcall'
  cases hcall'
  exact ⟨taskId, congrFun hrun s⟩

theorem Responds.extracted {α : Type} {f : α → StateM σ Response} {c : α → Option HandlerCall}
    (hf : ∀ a, Responds h now s (c a) (f a)) (a : Option α) :
    Responds h now s (a.bind c) (extracted a f) := by
  cases a with
  | none => exact .none
  | some a => exact hf a

theorem Responds.jsonBody {α : Type} [Serde α] {f : α → StateM σ Response}
    {c : α → Option HandlerCall} (hf : ∀ a, Responds h now s (c a) (f a)) (req : HttpRequest) :
    Responds h now s (req.json?.bind c) (jsonBody req f) := by
  rw [Ra2a.jsonBody, HttpRequest.json?, fromText]
  split
  · cases JsonText.parse req.body with
    | none => exact .none
    | some j =>
      cases hj : (deserialize j : Option α) with
      | none =>
        simp only [Option.bind_some, hj]
        exact .none
      | some a =>
        simp only [Option.bind_some, hj]
        exact hf a
  · exact .none

theorem handleDeletePushConfig_eq (headers : HeaderMap) (path : PushConfigPath) :
    handleDeletePushConfig h now headers path =
      HandlerCall.respond now (some path.id)
        (.onDeleteTaskPushConfig ⟨tenantFromHeaders headers, path.id, path.configId⟩)
        (h.onDeleteTaskPushConfig ⟨tenantFromHeaders headers, path.id, path.configId⟩) := by
  funext s
  rcases hres : h.onDeleteTaskPushConfig ⟨tenantFromHeaders headers, path.id, path.configId⟩ s
    with ⟨_ | _, s'⟩ <;>
    simp only [handleDeletePushConfig, HandlerCall.respond, bind, StateT.bind, ExceptT.run, hres]

theorem RestRoute.responds (route : RestRoute) (req : HttpRequest) :
    Responds h now s (route.call? req) (route.handle h now req) := by
  rcases req with ⟨_ | _ | _, url, headers, body⟩
  · cases route with
    | tasks =>
      refine .extracted (fun query => ?_) _
      exact .intro none rfl rfl
    | task id =>
      refine .extracted (fun path => ?_) _
      refine .extracted (fun query => ?_) _
      exact .intro (some path.id) rfl rfl
    | subscribe id | pushNotificationConfigs id | pushNotificationConfig id configId =>
      refine .extracted (fun path => ?_) _
      exact .intro (some path.id) rfl rfl
    | extendedAgentCard => exact .intro none rfl rfl
    | _ => exact .none
  · cases route with
    | messageSend | messageStream =>
      refine .jsonBody (fun body => ?_) _
      exact .intro none rfl rfl
    | cancel id =>
      refine .extracted (fun path => ?_) _
      exact .intro (some path.id) rfl rfl
    | pushNotificationConfigs id =>
      refine .extracted (fun path => ?_) _
      refine .jsonBody (fun config => ?_) _
      exact .intro (some path.id) rfl rfl
    | _ => exact .none
  · cases route with
    | pushNotificationConfig id configId =>
      refine .extracted (fun path => ?_) _
      exact .intro (some path.id) rfl (handleDeletePushConfig_eq headers path)
    | _ => exact .none

/-- **The router answers the call it makes** with the result of the call. -/
theorem restRouter_responds (req : HttpRequest) :
    Responds h now s req.call? (restRouter h now req) := by
  rw [restRouter, HttpRequest.call?]
  cases RestRoute.ofSegments (segments (afterAuthority req.url)) with
  | none => exact .none
  | some route => exact route.responds req

end

/-! ### What the client reads -/

variable [∀ α, DecodeError α]

/-- `StatusCode::is_success`. -/
def Response.isSuccess (resp : Response) : Bool := 200 ≤ resp.status && resp.status < 300

/-- `RestTransport::parse_response`. -/
def parseResponse {T : Type} [Serde T] (resp : Response) : Except A2AError T :=
  if resp.isSuccess then
    (fromStr (String.ofList (fromUtf8Lossy resp.body.flatten))).mapError A2AError.json
  else .error (parseErrorResponse resp)

/-- The end of `delete_request`. -/
def parseDeleteResponse (resp : Response) : Except A2AError Unit :=
  if resp.isSuccess then .ok () else .error (parseErrorResponse resp)

/-- The end of `sse_stream` and of `post_sse_stream`, with the stream run to its end. -/
def parseStreamResponse (resp : Response) : Except A2AError (List Item) :=
  if resp.isSuccess then .ok (parseRestSseStream (resp.body.map .ok))
  else .error (parseErrorResponse resp)

/-- What an operation makes of the response. -/
def HandlerCall.read (resp : Response) : (call : HandlerCall) → Except A2AError call.Result
  | .onMessageSend _ => parseResponse resp
  | .onMessageStream _ => parseStreamResponse resp
  | .onGetTask _ => parseResponse resp
  | .onListTasks _ => parseResponse resp
  | .onCancelTask _ => parseResponse resp
  | .onSubscribeToTask _ => parseStreamResponse resp
  | .onCreateTaskPushConfig _ => parseResponse resp
  | .onGetTaskPushConfig _ => parseResponse resp
  | .onListTaskPushConfigs _ => parseResponse resp
  | .onDeleteTaskPushConfig _ => parseDeleteResponse resp
  | .onGetExtendedAgentCard _ => parseResponse resp

/-- The operation of a REST client that is meant for a call. -/
def RestTransport.perform (c : RestTransport) (server : HttpRequest → StateM σ Response)
    (call : HandlerCall) : Handling σ call.Result :=
  match c.send call with
  | none => throw (.http "builder error")
  | some req => do
    let resp ← server req
    liftExcept (call.read resp)

/-! ### One call -/

/-- A result as a REST client sees it. -/
def HandlerCall.arrived (now : String) : (call : HandlerCall) → call.Result → call.Result
  | .onMessageStream _, items => items.map (restSeen now)
  | .onSubscribeToTask _, items => items.map (restSeen now)
  | _, v => v

/-- What an operation gives where the call ends so. -/
def HandlerCall.restSeen (now : String) (call : HandlerCall) :
    Except A2AError call.Result → Except A2AError call.Result
  | .ok v => .ok (call.arrived now v)
  | .error e => .error e.recovered

/-- The text of a result says the result. -/
def HandlerCall.Written (now : String) : (call : HandlerCall) → call.Result → Prop
  | .onMessageSend _, v => JsonText.Lossless (serialize v)
  | .onMessageStream _, items => ∀ item ∈ items, JsonText.Legible (restItemJson now item)
  | .onGetTask _, v => JsonText.Lossless (serialize v)
  | .onListTasks _, v => JsonText.Lossless (serialize v)
  | .onCancelTask _, v => JsonText.Lossless (serialize v)
  | .onSubscribeToTask _, items => ∀ item ∈ items, JsonText.Legible (restItemJson now item)
  | .onCreateTaskPushConfig _, v => JsonText.Lossless (serialize v)
  | .onGetTaskPushConfig _, v => JsonText.Lossless (serialize v)
  | .onListTaskPushConfigs _, v => JsonText.Lossless (serialize v)
  | .onDeleteTaskPushConfig _, _ => True
  | .onGetExtendedAgentCard _, v => JsonText.Lossless (serialize v)

/-- The text of what a call ends with says it. -/
def HandlerCall.Printed (now : String) (call : HandlerCall) : Except A2AError call.Result → Prop
  | .ok v => call.Written now v
  | .error e => ∀ taskId, JsonText.Lossless (e.toRestError now taskId).serialize

section

variable {now : String} {taskId : Option String} {e : A2AError} {call : HandlerCall} {s s' : σ}

omit [Base64] [∀ α, DecodeError α] in
theorem isSuccess_restErrorResponse (e : A2AError) (taskId : Option String) :
    (restErrorResponse now e taskId).isSuccess = false := by
  have hle : 400 ≤ (e.toRestError now taskId).httpStatus.toNat :=
    UInt16.le_iff_toNat_le.mp (e.toRestError_status now taskId).1
  have hlt : ¬ (e.toRestError now taskId).httpStatus.toNat < 300 := by omega
  rw [Response.isSuccess, Bool.and_eq_false_iff]
  exact Or.inr (decide_eq_false hlt)

/-- An error is what is recovered of it. -/
theorem read_error (h : JsonText.Lossless (e.toRestError now taskId).serialize) :
    call.read (restErrorResponse now e taskId) = .error e.recovered := by
  have hno : ¬ (restErrorResponse now e taskId).isSuccess = true := by
    rw [isSuccess_restErrorResponse]
    exact Bool.false_ne_true
  have hread := A2AError.parseErrorResponse_restErrorResponse h
  cases call <;>
    simp only [HandlerCall.read, parseResponse, parseStreamResponse, parseDeleteResponse,
      if_neg hno, hread]

omit [Base64] in
/-- A value is read as it was written. -/
theorem parseResponse_jsonResponse {T : Type} [Serde T] [LawfulSerde T] {v : T}
    (h : JsonText.Lossless (serialize v)) : parseResponse (jsonResponse v) = .ok v := by
  obtain ⟨text, hprint, hparse⟩ := h
  have htext : toText v = some text := hprint
  have hread : (fromStr text : Except String T) = .ok v := by
    refine fromStr_of_fromText ?_
    rw [fromText, hparse]
    exact LawfulSerde.deserialize_serialize v
  have hbody : String.ofList (fromUtf8Lossy (jsonResponse v).body.flatten) = text := by
    rw [jsonResponse, htext, Option.getD_some]
    show String.ofList (fromUtf8Lossy [encode text.toList].flatten) = _
    rw [List.flatten_singleton, fromUtf8Lossy_encode, String.ofList_toList]
  have hok : (jsonResponse v).isSuccess = true := rfl
  rw [parseResponse, if_pos hok, hbody, hread]
  rfl

omit [∀ α, DecodeError α] in
theorem respond_error {result : Handling σ call.Result} (h : result s = (.error e, s')) :
    call.respond now taskId result s = (restErrorResponse now e taskId, s') := by
  cases call <;>
    simp only [HandlerCall.respond, restAnswer, restStream, bind, StateT.bind, ExceptT.run, h] <;>
    rfl

omit [Base64] in
theorem restAnswer_ok {T : Type} [Serde T] [LawfulSerde T] {result : Handling σ T} {v : T}
    (h : result s = (.ok v, s')) (hv : JsonText.Lossless (serialize v)) :
    ∃ resp, restAnswer now taskId result s = (resp, s') ∧ parseResponse resp = .ok v := by
  refine ⟨jsonResponse v, ?_, parseResponse_jsonResponse hv⟩
  simp only [restAnswer, bind, StateT.bind, ExceptT.run, h]
  rfl

theorem restStream_ok [LawfulBase64] {result : Handling σ (List Item)} {items : List Item}
    (h : result s = (.ok items, s'))
    (hitems : ∀ item ∈ items, JsonText.Legible (restItemJson now item)) :
    ∃ resp, restStream now taskId result s = (resp, s') ∧
      parseStreamResponse resp = .ok (items.map (Ra2a.restSeen now)) := by
  have hbody : (restStream now taskId result s).1.body =
      items.map fun item => encode (Frame.text (restItemData now) (.item item)) :=
    body_restStream h
  obtain ⟨hstate, hok⟩ : (restStream now taskId result s).2 = s' ∧
      (restStream now taskId result s).1.isSuccess = true := by
    simp only [restStream, bind, StateT.bind, ExceptT.run, h]
    exact ⟨rfl, rfl⟩
  refine ⟨_, Prod.ext rfl hstate, ?_⟩
  rw [parseStreamResponse, if_pos hok, hbody, read_restStream hitems]

/-- What is written of a result is read as what arrives of it. -/
theorem respond_ok [LawfulBase64] {result : Handling σ call.Result} {v : call.Result}
    (h : result s = (.ok v, s')) (hv : call.Written now v) :
    ∃ resp, call.respond now taskId result s = (resp, s') ∧
      call.read resp = .ok (call.arrived now v) := by
  cases call with
  | onMessageStream req => exact restStream_ok h hv
  | onSubscribeToTask req => exact restStream_ok h hv
  | onDeleteTaskPushConfig req =>
    refine ⟨⟨204, "", []⟩, ?_, rfl⟩
    simp only [HandlerCall.respond, bind, StateT.bind, ExceptT.run, h]
    rfl
  | _ => exact restAnswer_ok h hv

/-- A request that makes the call is answered with its result. -/
theorem perform_of_call? [LawfulBase64] {h : StreamingHandler σ} {c : RestTransport}
    {req : HttpRequest} {r : Except A2AError call.Result} (hsend : c.send call = some req)
    (hmakes : req.call? = some call) (hcall : h.answer call s = (r, s'))
    (hprinted : call.Printed now r) :
    c.perform (restRouter h now) call s = (call.restSeen now r, s') := by
  have hresponds : Responds h now s req.call? (restRouter h now req) := restRouter_responds req
  obtain ⟨taskId, hrun⟩ := hresponds call hmakes
  rw [RestTransport.perform, hsend]
  show ((liftM (restRouter h now req) : Handling σ Response) >>= _) s = _
  rw [Chain.bind_run, handling_liftM, hrun]
  cases r with
  | ok v =>
    obtain ⟨resp, hresp, hread⟩ := respond_ok hcall hprinted
    rw [hresp]
    simp only [hread]
    rfl
  | error e =>
    rw [respond_error hcall]
    simp only [read_error (hprinted taskId)]
    rfl

omit [∀ α, DecodeError α] in
/-- A request that comes back makes the call. -/
theorem call?_of_carried [LawfulBase64] {base : List Char} {o : Origin} {headers : HeaderMap}
    (hbase : trimEndSlashes base = o.text)
    (hbody : ∀ j ∈ call.body?, JsonText.Readable recursionLimit j)
    (hcarried : Carried headers call) :
    ∃ req, (RestTransport.withConfig base headers).send call = some req ∧
      req.call? = some call := by
  simp only [← handedOver_eq_singleton_iff]
  cases call with
  | onMessageSend r =>
    obtain ⟨text, htext, hread⟩ := fromText_body (hbody _ rfl)
    obtain ⟨req, hsend⟩ := exists_postJson (RestTransport.withConfig base headers) _ htext
    exact ⟨req, hsend, (sendMessage_carried_iff hbase htext hread hsend).mpr hcarried⟩
  | onMessageStream r =>
    obtain ⟨text, htext, hread⟩ := fromText_body (hbody _ rfl)
    obtain ⟨req, hsend⟩ := exists_postSseStream (RestTransport.withConfig base headers)
      "/message:stream".toList htext
    exact ⟨req, hsend, (sendStreamingMessage_carried_iff hbase htext hread hsend).mpr hcarried⟩
  | onGetTask r => exact ⟨_, rfl, (getTask_carried_iff hbase rfl).mpr hcarried⟩
  | onListTasks r => exact ⟨_, rfl, (listTasks_carried_iff hbase rfl).mpr hcarried⟩
  | onCancelTask r =>
    obtain ⟨text, htext, -⟩ := fromText_body (hbody _ rfl)
    obtain ⟨req, hsend⟩ := exists_postJson (RestTransport.withConfig base headers) _ htext
    exact ⟨req, hsend, (cancelTask_carried_iff hbase hsend).mpr hcarried⟩
  | onSubscribeToTask r => exact ⟨_, rfl, (subscribeToTask_carried_iff hbase rfl).mpr hcarried⟩
  | onCreateTaskPushConfig r =>
    obtain ⟨text, htext, hread⟩ := fromText_body (hbody _ rfl)
    obtain ⟨req, hsend⟩ := exists_postJson (RestTransport.withConfig base headers) _ htext
    exact ⟨req, hsend, (createTaskPushConfig_carried_iff hbase htext hread hsend).mpr hcarried⟩
  | onGetTaskPushConfig r =>
    exact ⟨_, rfl, (getTaskPushConfig_carried_iff hbase rfl).mpr hcarried⟩
  | onListTaskPushConfigs r =>
    exact ⟨_, rfl, (listTaskPushConfigs_carried_iff hbase rfl).mpr hcarried⟩
  | onDeleteTaskPushConfig r =>
    exact ⟨_, rfl, (deleteTaskPushConfig_carried_iff hbase rfl).mpr hcarried⟩
  | onGetExtendedAgentCard r =>
    exact ⟨_, rfl, (getExtendedAgentCard_carried_iff hbase rfl).mpr hcarried⟩

/-- **A REST operation is one call**, with the request it is given: it leaves the state
the call leaves, and ends with what arrives of the result. -/
theorem restCall_answered [LawfulBase64] {base : List Char} {o : Origin} {headers : HeaderMap}
    {r : Except A2AError call.Result} {h : StreamingHandler σ} {now : String}
    {matchit : String → Bool} {router : HttpRequest → StateM σ Response}
    (hrouter : restRouterFor h now matchit = some router) (hbase : trimEndSlashes base = o.text)
    (hbody : ∀ j ∈ call.body?, JsonText.Readable recursionLimit j)
    (hcarried : Carried headers call) (hcall : h.answer call s = (r, s'))
    (hprinted : call.Printed now r) :
    (RestTransport.withConfig base headers).perform router call s = (call.restSeen now r, s') := by
  obtain ⟨-, rfl⟩ := (restRouterFor_eq_some_iff h now).mp hrouter
  obtain ⟨req, hsend, hmakes⟩ := call?_of_carried hbase hbody hcarried
  exact perform_of_call? hsend hmakes hcall hprinted

end

end

end Ra2a
