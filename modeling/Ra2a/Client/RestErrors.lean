import Ra2a.Client.Chunks
import Ra2a.Client.Events
import Ra2a.Server.Rest

/-!
# Errors read back by the REST client

A REST handler writes an error as a `google.rpc.Status`, in the body of a unary
response and as an event of a stream alike.  `parse_error_response` reads the body
of a unary response: it goes by the reason in the details, of which it knows eight
(`knownReasons`), and makes a generic error of the rest.

On a stream the client takes each block for an event.  An error is not one, so what
it sees is that the text could not be decoded, a generic error again
(`parseRestMessage_error`).  So the client sees the stream as it was exactly when no
error on it has one of the reasons a unary call knows (`restStreams_delivers_iff`).
-/

namespace Ra2a

open SortedMap Utf8 Delimited

/-! ### The text of an error -/

/-- `Value::as_array`. -/
def Json.asArray? : Json → Option (List Json)
  | .array xs => some xs
  | _ => none

theorem Json.depth_object_le {fields : List (String × Json)} {n : ℕ}
    (h : ∀ e ∈ fields, e.2.depth ≤ n) : (Json.object fields).depth ≤ n + 1 := by
  have hall : depthFields fields ≤ n := by
    induction fields with
    | nil => exact Nat.zero_le n
    | cons e es ih =>
      rw [List.forall_mem_cons] at h
      exact max_le h.1 (ih h.2)
  exact Nat.succ_le_succ hall

theorem Json.depth_ofFields_le {fields : List (String × Json)} {n : ℕ}
    (h : ∀ e ∈ fields, e.2.depth ≤ n) : (Json.ofFields fields).depth ≤ n + 1 :=
  depth_object_le fun e he => h e (mem_ofEntries he)

theorem RestErrorInfo.depth_serialize (info : RestErrorInfo) : info.serialize.depth ≤ 2 := by
  have hmetadata : (Serde.serialize info.metadata).depth ≤ 1 := by
    apply Json.depth_object_le
    intro e he
    obtain ⟨d, -, rfl⟩ := List.mem_map.mp he
    exact Nat.le_refl 0
  apply Json.depth_ofFields_le
  intro e he
  simp only [field, List.cons_append, List.nil_append, List.mem_cons] at he
  rcases he with rfl | rfl | rfl | he
  · exact Nat.zero_le 1
  · exact Nat.zero_le 1
  · exact Nat.zero_le 1
  · split at he
    · cases he
    · rw [List.mem_singleton.mp he]
      exact hmetadata

theorem RestStatusError.depth_serialize {e : RestStatusError} {n : ℕ}
    (h : ∀ j ∈ e.details, j.depth ≤ n) : e.serialize.depth ≤ n + 2 := by
  have hdetails : (Serde.serialize e.details).depth ≤ n + 1 := by
    have hlist : ∀ js : List Json, (∀ j ∈ js, j.depth ≤ n) → Json.depthList js ≤ n := by
      intro js hjs
      induction js with
      | nil => exact Nat.zero_le n
      | cons j js ih =>
        rw [List.forall_mem_cons] at hjs
        exact max_le hjs.1 (ih hjs.2)
    refine Nat.succ_le_succ (hlist _ fun j hj => ?_)
    obtain ⟨d, hd, rfl⟩ := List.mem_map.mp hj
    exact h d hd
  apply Json.depth_ofFields_le
  intro f hf
  simp only [field, fieldUnlessEmpty, List.cons_append, List.nil_append, List.mem_cons] at hf
  rcases hf with rfl | rfl | rfl | hf
  · exact Nat.zero_le _
  · exact Nat.zero_le _
  · exact Nat.zero_le _
  · split at hf
    · cases hf
    · rw [List.mem_singleton.mp hf]
      exact hdetails

/-- The text of an error is not too deep to be read. -/
theorem A2AError.depth_toRestError (e : A2AError) (now : String) (taskId : Option String) :
    (e.toRestError now taskId).serialize.depth ≤ recursionLimit := by
  have hstatus : (e.toRestError now taskId).error.serialize.depth ≤ 4 := by
    apply RestStatusError.depth_serialize
    intro j hj
    rw [List.mem_singleton.mp hj]
    exact RestErrorInfo.depth_serialize _
  have h : (e.toRestError now taskId).serialize.depth ≤ 5 := by
    apply Json.depth_ofFields_le
    intro f hf
    rw [List.mem_singleton.mp hf]
    exact hstatus
  exact h.trans (by decide)

/-! ### A unary response -/

/-- The error `parse_error_response` makes of a reason, a message and a status. -/
def errorOfReason (reason message : String) (status : ℕ) : A2AError :=
  match reason with
  | "TASK_NOT_FOUND" => .taskNotFound message
  | "TASK_NOT_CANCELABLE" => .taskNotCancelable message
  | "PUSH_NOTIFICATION_NOT_SUPPORTED" => .pushNotificationNotSupported
  | "UNSUPPORTED_OPERATION" => .unsupportedOperation message
  | "UNSUPPORTED_CONTENT_TYPE" => .contentTypeNotSupported message
  | "INVALID_AGENT_RESPONSE" => .invalidAgentResponse message
  | "EXTENSION_SUPPORT_REQUIRED" => .extensionSupportRequired message
  | "VERSION_NOT_SUPPORTED" => .versionNotSupported message
  | _ => .other s!"REST error {status}: {message}"

/-- `RestTransport::parse_error_response`. -/
def parseErrorResponse [JsonText] (resp : Response) : A2AError :=
  let body := String.ofList (fromUtf8Lossy resp.body.flatten)
  match (JsonText.parse body).bind (·.get? "error") with
  | some errObj =>
    let message := ((errObj.get? "message").bind Json.asStr?).getD "Unknown error"
    let reason := (((((errObj.get? "details").bind Json.asArray?).bind List.head?).bind
      (·.get? "reason")).bind Json.asStr?).getD ""
    errorOfReason reason message resp.status
  | none => .other s!"REST error {resp.status}: {body}"

theorem RestErrorInfo.get?_reason (info : RestErrorInfo) :
    info.serialize.get? "reason" = some (.string info.reason) := by
  have hmetadata : find "reason" (if info.metadata = ∅ then []
      else field "metadata" info.metadata) = none := by
    split
    · rfl
    · simp
  rw [RestErrorInfo.serialize, Json.ofFields, Json.get?, lookup_ofEntries, find_append, hmetadata]
  simp
  rfl

/-- The reasons `parse_error_response` knows. -/
def knownReasons : List String :=
  ["TASK_NOT_FOUND", "TASK_NOT_CANCELABLE", "PUSH_NOTIFICATION_NOT_SUPPORTED",
    "UNSUPPORTED_OPERATION", "UNSUPPORTED_CONTENT_TYPE", "INVALID_AGENT_RESPONSE",
    "EXTENSION_SUPPORT_REQUIRED", "VERSION_NOT_SUPPORTED"]

theorem errorOfReason_of_not_mem {reason message : String} {status : ℕ}
    (h : reason ∉ knownReasons) :
    errorOfReason reason message status = .other s!"REST error {status}: {message}" := by
  unfold errorOfReason
  split
  case h_9 => rfl
  all_goals exact absurd (by decide) h

/-- A reason that is known is not made a generic error of. -/
theorem errorOfReason_of_mem {reason message s : String} {status : ℕ}
    (h : reason ∈ knownReasons) :
    (A2AError.other s).ctorIdx ≠ (errorOfReason reason message status).ctorIdx := by
  simp only [knownReasons, List.mem_cons, List.not_mem_nil, or_false] at h
  rcases h with rfl | rfl | rfl | rfl | rfl | rfl | rfl | rfl <;>
    simp [errorOfReason, A2AError.ctorIdx]

namespace A2AError

/-- The reason `to_rest_error` gives. -/
def reason (e : A2AError) : String := e.restErrorDetails.2.2

/-- What the client makes of an error that comes as a unary response. -/
def recovered (e : A2AError) : A2AError :=
  errorOfReason e.reason e.display e.restErrorDetails.1.toNat

/-- The members that are looked at. -/
theorem get?_toRestError (e : A2AError) (now : String) (taskId : Option String) :
    (e.toRestError now taskId).serialize.get? "error" =
        some (e.toRestError now taskId).error.serialize ∧
      (e.toRestError now taskId).error.serialize.get? "message" = some (.string e.display) ∧
      ∃ info, (e.toRestError now taskId).error.serialize.get? "details" = some (.array [info]) ∧
        info.get? "reason" = some (.string e.reason) := by
  refine ⟨?_, ?_, ?_⟩
  · simp [RestError.serialize, Json.ofFields, Json.get?, lookup_ofEntries]
  · simp [RestStatusError.serialize, Json.ofFields, Json.get?, lookup_ofEntries]
    rfl
  · obtain ⟨info, hinfo, hreason⟩ : ∃ info : RestErrorInfo,
        (e.toRestError now taskId).error.details = [info.serialize] ∧ info.reason = e.reason :=
      ⟨_, rfl, rfl⟩
    refine ⟨info.serialize, ?_, by rw [info.get?_reason, hreason]⟩
    simp [hinfo, RestStatusError.serialize, Json.ofFields, Json.get?, lookup_ofEntries]
    rfl

/-- **What a unary error is read as.** -/
theorem parseErrorResponse_restErrorResponse [JsonText] {e : A2AError} {now : String}
    {taskId : Option String} (h : JsonText.Lossless (e.toRestError now taskId).serialize) :
    parseErrorResponse (restErrorResponse now e taskId) = e.recovered := by
  obtain ⟨text, hprint, hparse⟩ := h
  obtain ⟨herror, hmessage, info, hdetails, hreason⟩ := e.get?_toRestError now taskId
  have hbody : String.ofList (fromUtf8Lossy (restErrorResponse now e taskId).body.flatten) =
      text := by
    rw [restErrorResponse, hprint]
    show String.ofList (fromUtf8Lossy [encode text.toList].flatten) = _
    rw [List.flatten_singleton, fromUtf8Lossy_encode, String.ofList_toList]
  rw [parseErrorResponse, hbody, hparse, Option.bind_some, herror]
  simp only [hmessage, hdetails, hreason, Option.bind_some, Json.asStr?, Json.asArray?,
    List.head?_cons, Option.getD_some]
  rfl

/-- The two errors are of one variant. -/
def SameVariant (e e' : A2AError) : Prop := e.ctorIdx = e'.ctorIdx

/-- An error is recovered as a generic one unless its reason is known. -/
theorem sameVariant_recovered_iff (e : A2AError) (s : String) :
    SameVariant (.other s) e.recovered ↔ e.reason ∉ knownReasons := by
  constructor
  · intro hsame hmem
    exact absurd hsame (errorOfReason_of_mem hmem)
  · intro h
    rw [recovered, errorOfReason_of_not_mem h]
    rfl

end A2AError

/-! ### A stream -/

section

variable [JsonText] [Base64]

/-- The value a streaming handler writes for an item. -/
def restItemJson (now : String) : Item → Json
  | .ok event => serialize event
  | .error e => (e.toRestError now none).serialize

/-- Its text. -/
def restItemData (now : String) (item : Item) : List Char :=
  ((JsonText.print (restItemJson now item)).getD "").toList

variable [DecodeError Event] {now : String}

omit [JsonText] [DecodeError Event] in
/-- No error is an event. -/
theorem deserialize_toRestError (e : A2AError) (taskId : Option String) :
    (deserialize (e.toRestError now taskId).serialize : Option Event) = none := rfl

/-- What the client makes of an item. -/
def restSeen (now : String) : Item → Item
  | .ok event => restReceived event
  | .error e => .error (.other
      (DecodeError.message Event (String.ofList (restItemData now (.error e)))))

/-- An error on a stream is a text that could not be decoded. -/
theorem parseRestMessage_error {e : A2AError}
    (h : JsonText.Legible (restItemJson now (.error e))) :
    parseRestMessage ("data: ".toList ++ restItemData now (.error e)) =
      some (restSeen now (.error e)) := by
  obtain ⟨s, hprint, htight, hparse⟩ := exists_text h
  have hdata : restItemData now (.error e) = s.toList := by
    rw [restItemData, hprint]
    rfl
  have hnone : (fromText s : Option Event) = none := by
    have hdepth : (restItemJson now (.error e)).depth ≤ recursionLimit :=
      e.depth_toRestError now none
    rw [fromText, hparse, if_pos hdepth]
    exact deserialize_toRestError e none
  rw [parseRestMessage, restSeen, hdata, restData_line htight.oneLine, htight.ne_nil,
    String.ofList_toList, fromStr_of_none hnone]
  rfl

theorem parseRestMessage_restItemData [LawfulBase64] {item : Item}
    (h : JsonText.Legible (restItemJson now item)) :
    parseRestMessage ("data: ".toList ++ restItemData now item) = some (restSeen now item) := by
  cases item with
  | ok event => exact parseRestMessage_item h
  | error e => exact parseRestMessage_error h

/-- What a stream of items is read as. -/
theorem read_restStream [LawfulBase64] {items : List Item}
    (hitems : ∀ item ∈ items, JsonText.Legible (restItemJson now item)) :
    parseRestSseStream ((items.map fun item =>
      encode (Frame.text (restItemData now) (.item item))).map .ok) = items.map (restSeen now) := by
  have htexts : (items.map fun item =>
      encode (Frame.text (restItemData now) (.item item))).flatMap fromUtf8Lossy =
      (items.map Frame.item).flatMap (Frame.text (restItemData now)) := by
    rw [List.flatMap_map, List.flatMap_map]
    exact List.flatMap_congr fun item _ => fromUtf8Lossy_encode _
  have hframes : ∀ f ∈ items.map Frame.item, f.Legible (restItemJson now) := by
    intro f hf
    obtain ⟨item, hitem, rfl⟩ := List.mem_map.mp hf
    exact hitems item hitem
  have hread : drain (byBlocks parseRestMessage blank)
      ((items.map Frame.item).flatMap (Frame.text (restItemData now))) =
      (((items.map Frame.item).filterMap Frame.item?).map (restSeen now), []) :=
    drain_legible hframes (fun _ h => not_mem_getD_print h)
      (fun _ h => parseRestMessage_restItemData h) fun _ h => parseRestMessage_comment h
  have hall : (items.map Frame.item).filterMap Frame.item? = items := by
    rw [List.filterMap_map]
    exact List.filterMap_some
  rw [drain_eq, hall] at hread
  rw [parseRestSseStream_ok, htexts]
  exact congrArg Prod.fst hread

/-- How an item should arrive: an event as it is, and an error as one of the kind
that is recovered of it from a unary response. -/
def ArrivesAs (now : String) : Item → Item → Prop
  | .ok event, seen => seen = .ok event
  | .error e, seen => ∃ e', seen = .error e' ∧
      e'.SameVariant (parseErrorResponse (restErrorResponse now e none))

/-- The client sees the items of a response as they were sent, each in its place. -/
def Delivers (now : String) (items : List Item) (resp : Response) : Prop :=
  List.Forall₂ (ArrivesAs now) items (parseRestSseStream (resp.body.map .ok))

omit [JsonText] [DecodeError Event] in
/-- An item the client sees as it was sent: an event that is not too deep, or an
error whose reason is not one of those a unary call tells apart. -/
def Delivered : Item → Prop
  | .ok event => (serialize event).depth ≤ recursionLimit
  | .error e => e.reason ∉ knownReasons

theorem arrivesAs_restSeen_iff {item : Item} (h : JsonText.Legible (restItemJson now item)) :
    ArrivesAs now item (restSeen now item) ↔ Delivered item := by
  cases item with
  | ok event =>
    rw [ArrivesAs, restSeen, restReceived, Delivered]
    by_cases hdepth : (serialize event).depth ≤ recursionLimit
    · simp [hdepth]
    · simp [hdepth]
  | error e =>
    have hrecovered : parseErrorResponse (restErrorResponse now e none) = e.recovered :=
      e.parseErrorResponse_restErrorResponse (h.readable.lossless (e.depth_toRestError now none))
    rw [ArrivesAs, restSeen, hrecovered, Delivered, ← e.sameVariant_recovered_iff]
    constructor
    · rintro ⟨e', he, hsame⟩
      cases he
      exact hsame
    · exact fun hsame => ⟨_, rfl, hsame⟩

variable {σ : Type} {h : StreamingHandler σ} {s : σ} {items : List Item} {resp : Response}

/-- The body of a stream of items. -/
theorem delivers_body_iff [LawfulBase64]
    (hbody : resp.body = items.map fun item => encode (Frame.text (restItemData now) (.item item)))
    (hitems : ∀ item ∈ items, JsonText.Legible (restItemJson now item)) :
    Delivers now items resp ↔ ∀ item ∈ items, Delivered item := by
  rw [Delivers, hbody, read_restStream hitems]
  clear hbody
  induction items with
  | nil => exact ⟨fun _ => by simp, fun _ => .nil⟩
  | cons item items ih =>
    rw [List.forall_mem_cons] at hitems
    rw [List.map_cons, List.forall₂_cons, List.forall_mem_cons,
      arrivesAs_restSeen_iff hitems.1, ih hitems.2]

omit [DecodeError Event] in
/-- What a streaming handler answers when its call has given it a stream. -/
theorem body_restStream {taskId : Option String} {result : Handling σ (List Item)} {s' : σ}
    (hresult : result s = (.ok items, s')) :
    (restStream now taskId result s).1.body =
      items.map fun item => encode (Frame.text (restItemData now) (.item item)) := by
  have hdata : restItemData now = fun
      | .ok event => restEventData event
      | .error e => ((JsonText.print (e.toRestError now none).serialize).getD "").toList := by
    funext item
    cases item <;> rfl
  simp only [restStream, bind, StateT.bind, ExceptT.run, hresult, hdata]
  rfl

/-- The response of `handle_stream_message` or `handle_subscribe_to_task`, when the
stream it is given yields `items`. -/
inductive RestStreams (h : StreamingHandler σ) (now : String) (s : σ) (items : List Item) :
    Response → Prop
  | message (req : SendMessageRequest) (s' : σ)
      (hcall : h.onMessageStream req s = (.ok items, s')) :
      RestStreams h now s items (handleStreamMessage h now req s).1
  | subscribe (headers : HeaderMap) (path : TaskIdPath) (s' : σ)
      (hcall : h.onSubscribeToTask ⟨tenantFromHeaders headers, path.id⟩ s = (.ok items, s')) :
      RestStreams h now s items (handleSubscribeToTask h now headers path s).1

/-- **A REST stream arrives as it was sent exactly when** no event on it is too deep
and no error has a reason that a unary call would have recovered. -/
theorem restStreams_delivers_iff [LawfulBase64] (hresp : RestStreams h now s items resp)
    (hitems : ∀ item ∈ items, JsonText.Legible (restItemJson now item)) :
    Delivers now items resp ↔ ∀ item ∈ items, Delivered item := by
  cases hresp with
  | message req s' hcall => exact delivers_body_iff (body_restStream hcall) hitems
  | subscribe headers path s' hcall => exact delivers_body_iff (body_restStream hcall) hitems

end

/-! ### A task that is gone -/

/-- An event, and then the error that the task is gone. -/
def goneItems : List Item := [.ok (partEvent (.text "hello")), .error (.taskNotFound "t1")]

/-- A server whose streams yield them. -/
def goneStreams : StreamingHandler Unit :=
  { StatefulHandler.unsupported Unit with
    onMessageStream := fun _ => pure goneItems
    onSubscribeToTask := fun _ => pure goneItems }

/-- The two values that are written, each with its text. -/
def goneTexts [Base64] : List (Json × String) :=
  [(serialize (partEvent (.text "hello")), braced (restBefore ++ "hello" ++ restAfter)),
    (((A2AError.taskNotFound "t1").toRestError "12:00" none).serialize,
      braced ("\"error\":\x7b\"code\":404,\"status\":\"NOT_FOUND\"," ++
        "\"message\":\"task not found: t1\",\"details\":[\x7b" ++
        "\"@type\":\"type.googleapis.com/google.rpc.ErrorInfo\"," ++
        "\"reason\":\"TASK_NOT_FOUND\",\"domain\":\"a2a-protocol.org\"," ++
        "\"metadata\":\x7b\"timestamp\":\"12:00\"\x7d\x7d]\x7d"))]

theorem legible_goneTexts [Base64] [LawfulBase64] {e : Json × String} (he : e ∈ goneTexts) :
    @JsonText.Legible (tableText goneTexts) e.1 := by
  refine legible_tableText ?_ ?_ ?_ he
  · rw [goneTexts, List.map_cons, List.map_singleton, List.nodup_cons, List.mem_singleton]
    refine ⟨fun h => ?_, List.nodup_singleton _⟩
    have hread := congrArg (deserialize : Json → Option Event) h
    rw [LawfulSerde.deserialize_serialize, deserialize_toRestError] at hread
    cases hread
  · have hne : ∀ s t : String, s.toList.take 3 ≠ t.toList.take 3 → [s, t].Nodup := by
      intro s t h
      simpa using fun heq : s = t => h (heq ▸ rfl)
    rw [goneTexts, List.map_cons, List.map_singleton]
    refine hne _ _ ?_
    simp only [braced, String.toList_append, restBefore]
    decide +kernel
  · simp only [goneTexts, List.forall_mem_cons]
    refine ⟨braces_braced ?_, braces_braced ?_, by simp⟩
    · simp only [String.toList_append, List.mem_append, not_or, restBefore, restAfter]
      decide +kernel
    · simp only [String.toList_append, List.mem_append, not_or]
      decide +kernel

theorem legible_goneItems [Base64] [LawfulBase64] {item : Item} (h : item ∈ goneItems) :
    @JsonText.Legible (tableText goneTexts) (restItemJson "12:00" item) := by
  simp only [goneItems, List.mem_cons, List.not_mem_nil, or_false] at h
  rcases h with rfl | rfl
  · exact legible_goneTexts List.mem_cons_self
  · exact legible_goneTexts (List.mem_cons_of_mem _ List.mem_cons_self)

/-- The error of a text that is no event. -/
@[reducible] def noEvent : DecodeError Event :=
  ⟨fun _ => "StreamResponse must contain one of: task, message, statusUpdate, artifactUpdate"⟩

theorem goneStreams_not_delivered :
    letI := byteChars
    letI := tableText goneTexts
    letI := noEvent
    ¬ ∀ resp, RestStreams goneStreams "12:00" () goneItems resp →
      Delivers "12:00" goneItems resp := by
  let := byteChars
  let := tableText goneTexts
  let := noEvent
  have := lawful_byteChars
  intro hall
  have hdelivers := hall _ (.message ⟨none, .new "m1" .user [.text "hello"], none, none⟩ () rfl)
  have hitems := (delivers_body_iff (body_restStream rfl) fun _ => legible_goneItems).mp hdelivers
  have hreason : (A2AError.taskNotFound "t1").reason ∉ knownReasons :=
    hitems (.error (.taskNotFound "t1")) (List.mem_cons_of_mem _ List.mem_cons_self)
  exact hreason (by decide)

theorem restStreams_delivers_iff_gone :
    letI := byteChars
    letI := tableText goneTexts
    letI := noEvent
    Delivers "12:00" goneItems (handleSubscribeToTask goneStreams "12:00" ∅ ⟨"t1"⟩ ()).1 ↔
      ∀ item ∈ goneItems, Delivered item := by
  let := byteChars
  let := tableText goneTexts
  let := noEvent
  have := lawful_byteChars
  exact restStreams_delivers_iff (.subscribe ∅ ⟨"t1"⟩ () rfl) fun _ => legible_goneItems

end Ra2a
