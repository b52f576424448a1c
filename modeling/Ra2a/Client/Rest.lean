import Ra2a.Client.Streams
import Ra2a.Server.Rest

/-!
# The REST client

`RestTransport` of `client/rest.rs`.
-/

namespace Ra2a

open Utf8 Url

/-! ### The transport -/

/-- The first value of each name. -/
def firstValues : HeaderMap → HeaderMap
  | [] => []
  | e :: rest => e :: (firstValues rest).filter fun d => d.1 ≠ e.1

/-- The default headers of a client are sent where a request has none of the name, and of
several values of one name the first. -/
def withDefaults (defaults own : HeaderMap) : HeaderMap :=
  own ++ (firstValues defaults).filter fun e => e.1 ∉ own.map Prod.fst

theorem mem_of_mem_firstValues {defaults : HeaderMap} {e : String × List UInt8}
    (h : e ∈ firstValues defaults) : e ∈ defaults := by
  induction defaults with
  | nil => exact h
  | cons d rest ih =>
    rcases List.mem_cons.mp h with rfl | h
    · exact List.mem_cons_self
    · exact List.mem_cons_of_mem d (ih (List.mem_filter.mp h).1)

theorem lookup_filter {headers : HeaderMap} {p : String → Bool} {name : String}
    (h : p name = true) : (headers.filter fun e => p e.1).lookup name = headers.lookup name := by
  induction headers with
  | nil => rfl
  | cons e headers ih =>
    rw [List.filter_cons]
    split
    · rw [List.lookup_cons, List.lookup_cons, ih]
    · rename_i he
      have hne : (name == e.1) = false := by
        refine beq_eq_false_iff_ne.mpr ?_
        rintro rfl
        exact he h
      rw [ih, List.lookup_cons, hne]

/-- The first value is the one that is found. -/
theorem lookup_firstValues (headers : HeaderMap) (name : String) :
    (firstValues headers).lookup name = headers.lookup name := by
  induction headers with
  | nil => rfl
  | cons e headers ih =>
    rw [firstValues, List.lookup_cons, List.lookup_cons]
    cases hname : name == e.1 with
    | true => rfl
    | false =>
      have hne : decide (name ≠ e.1) = true := decide_eq_true (beq_eq_false_iff_ne.mp hname)
      exact (@lookup_filter _ (fun n => decide (n ≠ e.1)) _ hne).trans ih

/-- A header has the value of the request, or else the first of those by default. -/
theorem lookup_withDefaults {defaults own : HeaderMap} {name : String}
    (h : name ∉ own.map Prod.fst) :
    (withDefaults defaults own).lookup name = defaults.lookup name := by
  have hown : own.lookup name = none := by
    rw [List.lookup_eq_none_iff]
    intro e he
    exact bne_iff_ne.mpr fun heq => h (List.mem_map.mpr ⟨e, he, heq.symm⟩)
  have hkept := @lookup_filter (firstValues defaults) (fun n => decide (n ∉ own.map Prod.fst)) name
    (decide_eq_true h)
  rw [withDefaults, List.lookup_append, hown, Option.none_or, hkept, lookup_firstValues]

/-- The header values a client is given to send with each request, and the URL it
puts a path after. -/
structure RestTransport where
  baseUrl : List Char
  headers : HeaderMap
  deriving DecidableEq

/-- The text of an `i32`. -/
def displayI32 (n : Int32) : List Char := (toString n.toInt).toList

/-- The text of a `bool`. -/
def displayBool (b : Bool) : List Char := if b then "true".toList else "false".toList

/-- A part of a query that is there if its value is. -/
def queryPart {α : Type} (key : String) (display : α → List Char) (value : Option α) :
    List (List Char × List Char) :=
  (value.map fun v => (key.toList, display v)).toList

namespace RestTransport

/-- `RestTransport::with_config`. -/
def withConfig (baseUrl : List Char) (headers : HeaderMap) : RestTransport :=
  ⟨trimEndSlashes baseUrl, headers⟩

variable (c : RestTransport)

/-- `RestTransport::url`. -/
def url (path : List Char) : List Char := c.baseUrl ++ path

/-- The headers of a request, and those of the client that it does not have. -/
def withHeaders (own : List (String × String)) : HeaderMap :=
  withDefaults c.headers (own.map fun e => (e.1, encode e.2.toList))

/-- The request of `post_json`, if the body can be written. -/
def postJson [JsonText] {Req : Type} [Serde Req] (path : List Char) (body : Req) :
    Option HttpRequest :=
  (toText body).map fun text => {
    method := .post
    url := c.url path
    headers := c.withHeaders [("content-type", "application/json"), ("accept", "application/json")]
    body := text }

/-- The request of `get_json`. -/
def getJson (url : List Char) : HttpRequest where
  method := .get
  url := url
  headers := c.withHeaders [("accept", "application/json")]
  body := ""

/-- The request of `delete_request`. -/
def deleteRequest (url : List Char) : HttpRequest where
  method := .delete
  url := url
  headers := c.withHeaders []
  body := ""

/-- The request of `sse_stream`. -/
def sseStream (url : List Char) : HttpRequest where
  method := .get
  url := url
  headers := c.withHeaders [("accept", "text/event-stream")]
  body := ""

/-- The request of `post_sse_stream`. -/
def postSseStream [JsonText] {Req : Type} [Serde Req] (path : List Char) (body : Req) :
    Option HttpRequest :=
  (toText body).map fun text => {
    method := .post
    url := c.url path
    headers := c.withHeaders
      [("content-type", "application/json"), ("accept", "text/event-stream")]
    body := text }

def sendMessage [JsonText] [Base64] (req : SendMessageRequest) : Option HttpRequest :=
  c.postJson "/message:send".toList req

def sendStreamingMessage [JsonText] [Base64] (req : SendMessageRequest) : Option HttpRequest :=
  c.postSseStream "/message:stream".toList req

def getTask (req : GetTaskRequest) : HttpRequest :=
  let url := c.url ("/tasks/".toList ++ req.id.toList)
  match req.historyLength with
  | some hl => c.getJson (url ++ "?historyLength=".toList ++ displayI32 hl)
  | none => c.getJson url

/-- The `parts` of `list_tasks`. -/
def listTasksParts (req : ListTasksRequest) : List (List Char × List Char) :=
  queryPart "contextId" String.toList req.contextId ++
    queryPart "status" (fun s => s.asStr.toList) req.status ++
    queryPart "pageSize" displayI32 req.pageSize ++
    queryPart "pageToken" String.toList req.pageToken ++
    queryPart "historyLength" displayI32 req.historyLength ++
    queryPart "statusTimestampAfter" String.toList req.statusTimestampAfter ++
    queryPart "includeArtifacts" displayBool req.includeArtifacts

def listTasks (req : ListTasksRequest) : HttpRequest :=
  let url := c.url "/tasks".toList
  let parts := listTasksParts req
  if parts.isEmpty then c.getJson url else c.getJson (url ++ '?' :: formText parts)

def cancelTask [JsonText] (req : CancelTaskRequest) : Option HttpRequest :=
  c.postJson ("/tasks/".toList ++ req.id.toList ++ ":cancel".toList) req

def subscribeToTask (req : SubscribeToTaskRequest) : HttpRequest :=
  c.sseStream (c.url ("/tasks/".toList ++ req.id.toList ++ ":subscribe".toList))

def createTaskPushConfig [JsonText] (req : TaskPushNotificationConfig) : Option HttpRequest :=
  let taskId := req.taskId.getD ""
  c.postJson ("/tasks/".toList ++ taskId.toList ++ "/pushNotificationConfigs".toList) req

def getTaskPushConfig (req : GetTaskPushNotificationConfigRequest) : HttpRequest :=
  c.getJson (c.url ("/tasks/".toList ++ req.taskId.toList ++ "/pushNotificationConfigs/".toList ++
    req.id.toList))

def listTaskPushConfigs (req : ListTaskPushNotificationConfigsRequest) : HttpRequest :=
  c.getJson (c.url ("/tasks/".toList ++ req.taskId.toList ++ "/pushNotificationConfigs".toList))

def deleteTaskPushConfig (req : DeleteTaskPushNotificationConfigRequest) : HttpRequest :=
  c.deleteRequest (c.url ("/tasks/".toList ++ req.taskId.toList ++
    "/pushNotificationConfigs/".toList ++ req.id.toList))

def getExtendedAgentCard (_req : GetExtendedAgentCardRequest) : HttpRequest :=
  c.getJson (c.url "/extendedAgentCard".toList)

/-- The request an operation sends, by the call it is meant for. -/
def send [JsonText] [Base64] : HandlerCall → Option HttpRequest
  | .onMessageSend req => c.sendMessage req
  | .onMessageStream req => c.sendStreamingMessage req
  | .onGetTask req => some (c.getTask req)
  | .onListTasks req => some (c.listTasks req)
  | .onCancelTask req => c.cancelTask req
  | .onSubscribeToTask req => some (c.subscribeToTask req)
  | .onCreateTaskPushConfig req => c.createTaskPushConfig req
  | .onGetTaskPushConfig req => some (c.getTaskPushConfig req)
  | .onListTaskPushConfigs req => some (c.listTaskPushConfigs req)
  | .onDeleteTaskPushConfig req => some (c.deleteTaskPushConfig req)
  | .onGetExtendedAgentCard req => some (c.getExtendedAgentCard req)

end RestTransport

/-! ### Values of a query -/

theorem displayI32_of_nonneg {n : Int32} {m : ℕ} (h : n.toInt = m) :
    displayI32 n = Nat.toDigits 10 m := by
  rw [displayI32, h]
  show (toString m).toList = _
  rw [Nat.toString_eq_repr, Nat.toList_repr]

theorem displayI32_of_neg {n : Int32} {m : ℕ} (h : n.toInt = Int.negSucc m) :
    displayI32 n = '-' :: Nat.toDigits 10 (m + 1) := by
  have htext : toString (Int.negSucc m) = "-" ++ Nat.repr (m + 1) := rfl
  rw [displayI32, h, htext, String.toList_append, Nat.toList_repr]
  rfl

theorem isDigit_toDigits (m : ℕ) : ∀ c ∈ Nat.toDigits 10 m, c.isDigit = true :=
  fun _ hc => Nat.isDigit_of_mem_toDigits (by decide) (by decide) hc

/-- What is written of a number is read as the number. -/
theorem parseI32_displayI32 (n : Int32) : parseI32 (displayI32 n) = some n := by
  have hle : -2 ^ 31 ≤ n.toInt := Int32.le_toInt n
  have hlt : n.toInt < 2 ^ 31 := Int32.toInt_lt n
  cases hn : n.toInt with
  | ofNat m =>
    have hdigits := isDigit_toDigits m
    rw [displayI32_of_nonneg hn]
    have hsign : splitSign (Nat.toDigits 10 m) = (false, Nat.toDigits 10 m) := by
      unfold splitSign
      split
      · rename_i rest heq
        have hminus := hdigits '-' (by rw [heq]; exact List.mem_cons_self)
        cases hminus
      · rename_i rest heq
        have hplus := hdigits '+' (by rw [heq]; exact List.mem_cons_self)
        cases hplus
      · rfl
    rw [hn] at hle hlt
    simp only [parseI32, hsign, Nat.ofDigitChars_ten_toDigits]
    rw [if_pos ⟨Nat.toDigits_ne_nil, List.all_eq_true.mpr hdigits, hle, hlt⟩]
    exact congrArg some (by rw [← Int32.ofInt_toInt n, hn]; rfl)
  | negSucc m =>
    have hdigits := isDigit_toDigits (m + 1)
    rw [displayI32_of_neg hn]
    rw [hn] at hle hlt
    simp only [parseI32, splitSign, Nat.ofDigitChars_ten_toDigits]
    rw [if_pos ⟨Nat.toDigits_ne_nil, List.all_eq_true.mpr hdigits, hle, hlt⟩]
    exact congrArg some (by rw [← Int32.ofInt_toInt n, hn]; rfl)

theorem isValue_displayI32 (n : Int32) : IsValue (displayI32 n) := by
  have hplain : ∀ c : Char, c.isDigit = true → c ≠ '&' ∧ c ≠ '#' ∧ c ≠ '+' ∧ c ≠ '%' := by
    intro c hc
    refine ⟨?_, ?_, ?_, ?_⟩ <;>
    · rintro rfl
      cases hc
  apply IsValue.of_plain
  intro c hc
  cases hn : n.toInt with
  | ofNat m =>
    rw [displayI32_of_nonneg hn] at hc
    exact hplain c (isDigit_toDigits m c hc)
  | negSucc m =>
    rw [displayI32_of_neg hn] at hc
    rcases List.mem_cons.mp hc with rfl | hc
    · decide
    · exact hplain c (isDigit_toDigits _ c hc)

theorem isValue_asStr (s : TaskState) : IsValue s.asStr.toList := by
  cases s <;> exact .of_plain (List.all_iff_forall_prop.mp (by decide))

theorem isValue_displayBool (b : Bool) : IsValue (displayBool b) := by
  cases b <;> exact .of_plain (List.all_iff_forall_prop.mp (by decide))

theorem parseBool_displayBool (b : Bool) : parseBool (displayBool b) = some b := by
  cases b <;> decide

theorem fromStateStr_asStr (s : TaskState) : TaskState.fromStateStr s.asStr = s := by
  cases s <;> rfl

/-! ### Paths of routes -/

/-- The path of a route. -/
def RestRoute.path : RestRoute → List (List Char)
  | .messageSend => ["message:send".toList]
  | .messageStream => ["message:stream".toList]
  | .tasks => ["tasks".toList]
  | .task id => ["tasks".toList, id]
  | .cancel id => ["tasks".toList, id ++ ":cancel".toList]
  | .subscribe id => ["tasks".toList, id ++ ":subscribe".toList]
  | .pushNotificationConfigs id => ["tasks".toList, id, "pushNotificationConfigs".toList]
  | .pushNotificationConfig id configId =>
    ["tasks".toList, id, "pushNotificationConfigs".toList, configId]
  | .extendedAgentCard => ["extendedAgentCard".toList]

/-- The route with what it has captured decoded. -/
def RestRoute.decode : RestRoute → Option RestRoute
  | .task id => (decodeSegment id).map .task
  | .cancel id => (decodeSegment id).map .cancel
  | .subscribe id => (decodeSegment id).map .subscribe
  | .pushNotificationConfigs id => (decodeSegment id).map .pushNotificationConfigs
  | .pushNotificationConfig id configId =>
    (decodeSegment id).bind fun id => (decodeSegment configId).map (.pushNotificationConfig id)
  | route => some route

/-- The route that a call is made through. -/
def HandlerCall.route : HandlerCall → RestRoute
  | .onMessageSend _ => .messageSend
  | .onMessageStream _ => .messageStream
  | .onGetTask req => .task req.id.toList
  | .onListTasks _ => .tasks
  | .onCancelTask req => .cancel req.id.toList
  | .onSubscribeToTask req => .subscribe req.id.toList
  | .onCreateTaskPushConfig req => .pushNotificationConfigs (req.taskId.getD "").toList
  | .onGetTaskPushConfig req => .pushNotificationConfig req.taskId.toList req.id.toList
  | .onListTaskPushConfigs req => .pushNotificationConfigs req.taskId.toList
  | .onDeleteTaskPushConfig req => .pushNotificationConfig req.taskId.toList req.id.toList
  | .onGetExtendedAgentCard _ => .extendedAgentCard

variable {suffix seg id : List Char} {route route' : RestRoute} {path : List (List Char)}

theorem capturedBefore_eq_some :
    capturedBefore suffix seg = some id ↔ seg = id ++ suffix ∧ id ≠ [] := by
  constructor
  · intro h
    rw [capturedBefore] at h
    split_ifs at h with hseg
    obtain ⟨⟨x, hx⟩, hlt⟩ := hseg
    have hid : id = x := by
      rw [← Option.some.inj h, ← hx, List.length_append, Nat.add_sub_cancel_right, List.take_left]
    subst hid
    refine ⟨hx.symm, fun hnil => ?_⟩
    rw [← hx, hnil] at hlt
    exact Nat.lt_irrefl _ hlt
  · rintro ⟨rfl, hne⟩
    have hpos := List.length_pos_iff.mpr hne
    have hlt : suffix.length < (id ++ suffix).length := by
      rw [List.length_append]
      omega
    rw [capturedBefore, if_pos ⟨List.suffix_append id suffix, hlt⟩, List.length_append,
      Nat.add_sub_cancel_right, List.take_left]

theorem path_of_ofTask (h : RestRoute.ofTask seg = some route) :
    route.path = ["tasks".toList, seg] := by
  rw [RestRoute.ofTask] at h
  cases hcancel : capturedBefore ":cancel".toList seg with
  | some id =>
    rw [hcancel] at h
    cases h
    rw [(capturedBefore_eq_some.mp hcancel).1]
    rfl
  | none =>
    rw [hcancel] at h
    cases hsubscribe : capturedBefore ":subscribe".toList seg with
    | some id =>
      rw [hsubscribe] at h
      cases h
      rw [(capturedBefore_eq_some.mp hsubscribe).1]
      rfl
    | none =>
      rw [hsubscribe] at h
      obtain ⟨id, hid, rfl⟩ := Option.map_eq_some_iff.mp h
      rw [(capturedBefore_eq_some.mp hid).1, List.append_nil]
      rfl

/-- A route is found only by its own path. -/
theorem path_of_ofSegments (h : RestRoute.ofSegments path = some route) : route.path = path := by
  rcases path with _ | ⟨top, _ | ⟨seg, _ | ⟨sub, _ | ⟨configId, _ | _⟩⟩⟩⟩
  · cases h
  · simp only [RestRoute.ofSegments] at h
    split_ifs at h with h₁ h₂ h₃ h₄
    all_goals
      cases h
      subst top
      rfl
  · simp only [RestRoute.ofSegments] at h
    split_ifs at h with htop
    rw [path_of_ofTask h, htop]
  · simp only [RestRoute.ofSegments] at h
    split_ifs at h with hseg
    cases h
    rw [hseg.1, hseg.2.2]
    rfl
  · simp only [RestRoute.ofSegments] at h
    split_ifs at h with hseg
    cases h
    rw [hseg.1, hseg.2.2.1]
    rfl
  · cases h

theorem extract_taskIdPath {p : TaskIdPath} (h : TaskIdPath.extract id = some p) :
    decodeSegment id = some p.id.toList := by
  obtain ⟨ds, hds, rfl⟩ := Option.map_eq_some_iff.mp h
  rw [hds, String.toList_ofList]

theorem extract_pushConfigPath {configId : List Char} {p : PushConfigPath}
    (h : PushConfigPath.extract id configId = some p) :
    decodeSegment id = some p.id.toList ∧ decodeSegment configId = some p.configId.toList := by
  obtain ⟨ds, hds, h⟩ := Option.bind_eq_some_iff.mp h
  obtain ⟨es, hes, h⟩ := Option.bind_eq_some_iff.mp h
  cases h
  exact ⟨by rw [hds, String.toList_ofList], by rw [hes, String.toList_ofList]⟩

/-- The segments that a call is made from say what the call says. -/
theorem decode_of_call? [JsonText] [Base64] {req : HttpRequest} {call : HandlerCall}
    (h : route.call? req = some call) : route.decode = some call.route := by
  rcases req with ⟨_ | _ | _, url, headers, body⟩
  · cases route with
    | tasks =>
      obtain ⟨query, -, h⟩ := Option.bind_eq_some_iff.mp h
      cases h
      rfl
    | task id =>
      obtain ⟨path, hpath, h⟩ := Option.bind_eq_some_iff.mp h
      obtain ⟨query, -, h⟩ := Option.bind_eq_some_iff.mp h
      cases h
      exact congrArg (Option.map RestRoute.task) (extract_taskIdPath hpath)
    | subscribe id =>
      obtain ⟨path, hpath, h⟩ := Option.bind_eq_some_iff.mp h
      cases h
      exact congrArg (Option.map RestRoute.subscribe) (extract_taskIdPath hpath)
    | pushNotificationConfigs id =>
      obtain ⟨path, hpath, h⟩ := Option.bind_eq_some_iff.mp h
      cases h
      exact congrArg (Option.map RestRoute.pushNotificationConfigs) (extract_taskIdPath hpath)
    | pushNotificationConfig id configId =>
      obtain ⟨path, hpath, h⟩ := Option.bind_eq_some_iff.mp h
      obtain ⟨hid, hconfigId⟩ := extract_pushConfigPath hpath
      cases h
      rw [RestRoute.decode, hid, hconfigId]
      rfl
    | extendedAgentCard =>
      cases h
      rfl
    | _ => cases h
  · cases route with
    | messageSend =>
      obtain ⟨body, -, h⟩ := Option.bind_eq_some_iff.mp h
      cases h
      rfl
    | messageStream =>
      obtain ⟨body, -, h⟩ := Option.bind_eq_some_iff.mp h
      cases h
      rfl
    | cancel id =>
      obtain ⟨path, hpath, h⟩ := Option.bind_eq_some_iff.mp h
      cases h
      exact congrArg (Option.map RestRoute.cancel) (extract_taskIdPath hpath)
    | pushNotificationConfigs id =>
      obtain ⟨path, hpath, h⟩ := Option.bind_eq_some_iff.mp h
      obtain ⟨config, -, h⟩ := Option.bind_eq_some_iff.mp h
      cases h
      exact congrArg (Option.map RestRoute.pushNotificationConfigs) (extract_taskIdPath hpath)
    | _ => cases h
  · cases route with
    | pushNotificationConfig id configId =>
      obtain ⟨path, hpath, h⟩ := Option.bind_eq_some_iff.mp h
      obtain ⟨hid, hconfigId⟩ := extract_pushConfigPath hpath
      cases h
      rw [RestRoute.decode, hid, hconfigId]
      rfl
    | _ => cases h

/-- Decoding makes no path longer. -/
theorem length_path_of_decode (h : route.decode = some route') :
    List.Forall₂ (fun s p => s.length ≤ p.length) route'.path route.path := by
  have hsuffix : ∀ {ds cs : List Char} (t : List Char), decodeSegment cs = some ds →
      (ds ++ t).length ≤ (cs ++ t).length := by
    intro ds cs t hds
    have hle := length_of_decodeSegment hds
    rw [List.length_append, List.length_append]
    omega
  cases route with
  | task id =>
    obtain ⟨ds, hds, rfl⟩ := Option.map_eq_some_iff.mp h
    exact .cons (Nat.le_refl _) (.cons (length_of_decodeSegment hds) .nil)
  | cancel id =>
    obtain ⟨ds, hds, rfl⟩ := Option.map_eq_some_iff.mp h
    exact .cons (Nat.le_refl _) (.cons (hsuffix _ hds) .nil)
  | subscribe id =>
    obtain ⟨ds, hds, rfl⟩ := Option.map_eq_some_iff.mp h
    exact .cons (Nat.le_refl _) (.cons (hsuffix _ hds) .nil)
  | pushNotificationConfigs id =>
    obtain ⟨ds, hds, rfl⟩ := Option.map_eq_some_iff.mp h
    exact .cons (Nat.le_refl _) (.cons (length_of_decodeSegment hds) (.cons (Nat.le_refl _) .nil))
  | pushNotificationConfig id configId =>
    obtain ⟨ds, hds, h⟩ := Option.bind_eq_some_iff.mp h
    obtain ⟨es, hes, rfl⟩ := Option.map_eq_some_iff.mp h
    exact .cons (Nat.le_refl _) (.cons (length_of_decodeSegment hds)
      (.cons (Nat.le_refl _) (.cons (length_of_decodeSegment hes) .nil)))
  | _ =>
    cases h
    exact List.forall₂_same.mpr fun _ _ => Nat.le_refl _

/-- A route whose path is that of what it decodes to is the same route. -/
theorem eq_of_decode (h : route.decode = some route') (hpath : route.path = route'.path) :
    route = route' := by
  cases route with
  | task id =>
    obtain ⟨ds, -, rfl⟩ := Option.map_eq_some_iff.mp h
    simp only [RestRoute.path, List.cons.injEq, true_and, and_true] at hpath
    rw [hpath]
  | cancel id =>
    obtain ⟨ds, -, rfl⟩ := Option.map_eq_some_iff.mp h
    simp only [RestRoute.path, List.cons.injEq, true_and, and_true] at hpath
    rw [List.append_cancel_right hpath]
  | subscribe id =>
    obtain ⟨ds, -, rfl⟩ := Option.map_eq_some_iff.mp h
    simp only [RestRoute.path, List.cons.injEq, true_and, and_true] at hpath
    rw [List.append_cancel_right hpath]
  | pushNotificationConfigs id =>
    obtain ⟨ds, -, rfl⟩ := Option.map_eq_some_iff.mp h
    simp only [RestRoute.path, List.cons.injEq, true_and, and_true] at hpath
    rw [hpath]
  | pushNotificationConfig id configId =>
    obtain ⟨ds, -, h⟩ := Option.bind_eq_some_iff.mp h
    obtain ⟨es, -, rfl⟩ := Option.map_eq_some_iff.mp h
    simp only [RestRoute.path, List.cons.injEq, true_and, and_true] at hpath
    rw [hpath.1, hpath.2]
  | _ =>
    cases h
    rfl

/-- **A call made over its own path**: the path is read as it is written, and the route
is the call's own. -/
theorem call?_iff [JsonText] [Base64] {req : HttpRequest} {call : HandlerCall} {q : List Char}
    (hq : q = [] ∨ ∃ t, q = '?' :: t)
    (htarget : afterAuthority req.url = pathText call.route.path ++ q) :
    req.call? = some call ↔ (∀ seg ∈ call.route.path, IsSegment seg) ∧
      RestRoute.ofSegments call.route.path = some call.route ∧
      call.route.call? req = some call := by
  have hne : call.route.path ≠ [] := by
    cases call <;> exact List.cons_ne_nil _ _
  rw [HttpRequest.call?, htarget]
  constructor
  · intro h
    obtain ⟨route, hroute, hcall⟩ := Option.bind_eq_some_iff.mp h
    have hdecode := decode_of_call? hcall
    have hpath := path_of_ofSegments hroute
    have hlen := length_path_of_decode hdecode
    rw [hpath] at hlen
    obtain ⟨hsegs, hall⟩ := segments_pathText_inv hne hq hlen
    have hsame := eq_of_decode hdecode (hpath.trans hsegs)
    rw [hsegs] at hroute
    rw [hsame] at hroute hcall
    exact ⟨hall, hroute, hcall⟩
  · rintro ⟨hall, hroute, hcall⟩
    rw [segments_pathText hne hall hq, hroute, Option.bind_some, hcall]

/-! ### What is sent -/

/-- The parts of the query of an operation. -/
def HandlerCall.query : HandlerCall → List (List Char × List Char)
  | .onGetTask req => queryPart "historyLength" displayI32 req.historyLength
  | .onListTasks req => RestTransport.listTasksParts req
  | _ => []

/-- A query after a path. -/
def queryText (parts : List (List Char × List Char)) : List Char :=
  if parts.isEmpty then [] else '?' :: formText parts

section Sent

variable [JsonText] [Base64] {c : RestTransport} {o : Origin} {call : HandlerCall}
  {req : HttpRequest} {L : List (List Char)} {parts : List (List Char × List Char)}

omit [JsonText] [Base64] in
theorem queryText_cases (parts : List (List Char × List Char)) :
    queryText parts = [] ∨ ∃ t, queryText parts = '?' :: t := by
  rw [queryText]
  split_ifs
  · exact Or.inl rfl
  · exact Or.inr ⟨_, rfl⟩

omit [JsonText] [Base64] in
theorem queryOf_queryText (h : ∀ seg ∈ L, IsSegment seg) :
    queryOf (pathText L ++ queryText parts) = beforeFragment (formText parts) := by
  rw [queryText]
  split_ifs with hparts
  · rw [List.isEmpty_iff.mp hparts, List.append_nil, queryOf_pathText_nil h]
    rfl
  · exact queryOf_pathText h _

/-- An operation writes the path of its call, and after it the parts of the query. -/
theorem url_send (h : c.send call = some req) :
    req.url = c.url (pathText call.route.path ++ queryText call.query) := by
  cases call with
  | onMessageSend r =>
    obtain ⟨text, -, rfl⟩ := Option.map_eq_some_iff.mp h
    simp [HandlerCall.route, RestRoute.path, HandlerCall.query, queryText, pathText]
  | onMessageStream r =>
    obtain ⟨text, -, rfl⟩ := Option.map_eq_some_iff.mp h
    simp [HandlerCall.route, RestRoute.path, HandlerCall.query, queryText, pathText]
  | onGetTask r =>
    obtain rfl := Option.some.inj h
    cases hl : r.historyLength <;>
      simp [RestTransport.getTask, RestTransport.getJson, RestTransport.url, hl, HandlerCall.route,
        RestRoute.path, HandlerCall.query, queryPart, queryText, formText, pathText]
  | onListTasks r =>
    obtain rfl := Option.some.inj h
    cases hparts : (RestTransport.listTasksParts r).isEmpty <;>
      simp [RestTransport.listTasks, RestTransport.getJson, RestTransport.url, hparts,
        HandlerCall.route, RestRoute.path, HandlerCall.query, queryText, pathText]
  | onCancelTask r =>
    obtain ⟨text, -, rfl⟩ := Option.map_eq_some_iff.mp h
    simp [HandlerCall.route, RestRoute.path, HandlerCall.query, queryText, pathText]
  | onCreateTaskPushConfig r =>
    obtain ⟨text, -, rfl⟩ := Option.map_eq_some_iff.mp h
    simp [HandlerCall.route, RestRoute.path, HandlerCall.query, queryText, pathText]
  | _ =>
    obtain rfl := Option.some.inj h
    simp [HandlerCall.route, RestRoute.path, HandlerCall.query, queryText, pathText,
      RestTransport.subscribeToTask, RestTransport.getTaskPushConfig,
      RestTransport.listTaskPushConfigs, RestTransport.deleteTaskPushConfig,
      RestTransport.getExtendedAgentCard, RestTransport.getJson, RestTransport.sseStream,
      RestTransport.deleteRequest, RestTransport.url]

theorem target_send (hbase : c.baseUrl = o.text) (h : c.send call = some req) :
    afterAuthority req.url = pathText call.route.path ++ queryText call.query := by
  have hslash : ∃ rest, pathText call.route.path = '/' :: rest := by
    cases call <;> exact ⟨_, pathText_cons _ _⟩
  obtain ⟨rest, hrest⟩ := hslash
  rw [url_send h, RestTransport.url, hbase, hrest]
  exact afterAuthority_text o _

omit [JsonText] [Base64] in
theorem tenant_withHeaders {own : List (String × String)}
    (h : "x-a2a-tenant" ∉ own.map Prod.fst) :
    tenantFromHeaders (c.withHeaders own) = tenantFromHeaders c.headers := by
  have hown : "x-a2a-tenant" ∉ (own.map fun e => (e.1, encode e.2.toList)).map Prod.fst := by
    rwa [List.map_map]
  rw [tenantFromHeaders, tenantFromHeaders, RestTransport.withHeaders, lookup_withDefaults hown]

/-- The tenant that the headers of a request say is the one the client is given. -/
theorem tenant_send (h : c.send call = some req) :
    tenantFromHeaders req.headers = tenantFromHeaders c.headers := by
  cases call with
  | onMessageSend r =>
    obtain ⟨text, -, rfl⟩ := Option.map_eq_some_iff.mp h
    exact tenant_withHeaders (by decide)
  | onMessageStream r =>
    obtain ⟨text, -, rfl⟩ := Option.map_eq_some_iff.mp h
    exact tenant_withHeaders (by decide)
  | onGetTask r =>
    obtain rfl := Option.some.inj h
    rw [RestTransport.getTask]
    cases r.historyLength <;> exact tenant_withHeaders (by decide)
  | onListTasks r =>
    obtain rfl := Option.some.inj h
    rw [RestTransport.listTasks]
    cases (RestTransport.listTasksParts r).isEmpty <;> exact tenant_withHeaders (by decide)
  | onCancelTask r =>
    obtain ⟨text, -, rfl⟩ := Option.map_eq_some_iff.mp h
    exact tenant_withHeaders (by decide)
  | onCreateTaskPushConfig r =>
    obtain ⟨text, -, rfl⟩ := Option.map_eq_some_iff.mp h
    exact tenant_withHeaders (by decide)
  | _ =>
    obtain rfl := Option.some.inj h
    exact tenant_withHeaders (by decide)

end Sent

end Ra2a
