import Ra2a.JsonRpc
import Ra2a.Types.Text
import Ra2a.Types.Wire

/-!
# Writing server-sent events

What the two servers write on an event stream.  axum writes an event as a block of
`data: ` lines that a blank line ends, and puts a comment in between where nothing
has been written for a while (`Frame`).

`handle_sse` of `server/http.rs` wraps an item in a JSON-RPC envelope, an error as
well as an event.  `handle_stream_message` and `handle_subscribe_to_task` of
`server/rest.rs` write the bare event.
-/

namespace Ra2a

open SortedMap

/-- What comes over an event stream. -/
inductive Frame (α : Type)
  | item (a : α)
  | keepAlive (comment : List Char)

/-- `SseEvent::data`. -/
def dataBlock (data : List Char) : List Char :=
  (data.splitOn '\n').flatMap (fun line => "data: ".toList ++ line ++ ['\n']) ++ ['\n']

/-- `SseEvent::comment`. -/
def commentBlock (comment : List Char) : List Char := ':' :: comment ++ ['\n', '\n']

/-- The text of a frame, with the data the items are written as. -/
def Frame.text {α : Type} (data : α → List Char) : Frame α → List Char
  | item a => dataBlock (data a)
  | keepAlive comment => commentBlock comment

theorem dataBlock_of_not_mem {data : List Char} (h : '\n' ∉ data) :
    dataBlock data = "data: ".toList ++ data ++ ['\n', '\n'] := by
  rw [dataBlock, List.splitOn_eq_singleton h, List.flatMap_singleton]
  simp

section Items

variable [Base64]

/-- The envelope `handle_sse` wraps an item in. -/
def sseEnvelope (id : RequestId) : Except A2AError Event → Json
  | .ok event => .ofFields (field "jsonrpc" "2.0" ++ field "id" id ++ field "result" event)
  | .error e =>
    let rpcErr := e.toJsonrpcError
    .ofFields (field "jsonrpc" "2.0" ++ field "id" id ++
      field "error" (Json.ofFields (field "code" rpcErr.code ++ field "message" rpcErr.message)))

/-- The envelope, a `serde_json::Map` in the order of its keys. -/
theorem sseEnvelope_ok (id : RequestId) (event : Event) : sseEnvelope id (.ok event) =
    .object [("id", id.toJson), ("jsonrpc", .string "2.0"), ("result", serialize event)] := by
  have h₁ : ("id" : String) < "jsonrpc" := by decide
  have h₂ : ("id" : String) < "result" := by decide
  have h₃ : ("jsonrpc" : String) < "result" := by decide
  simp only [sseEnvelope, Json.ofFields, field, ofEntries, List.cons_append, List.nil_append,
    List.foldl_cons, List.foldl_nil, put_nil, put_cons_of_lt h₁, put_cons_of_gt h₂,
    put_cons_of_gt h₃]
  rfl

theorem sseEnvelope_error (id : RequestId) (e : A2AError) : sseEnvelope id (.error e) =
    .object [("error", .object [("code", codeValue e.toJsonrpcError.code),
        ("message", .string e.toJsonrpcError.message)]),
      ("id", id.toJson), ("jsonrpc", .string "2.0")] := by
  have h₁ : ("id" : String) < "jsonrpc" := by decide
  have h₂ : ("error" : String) < "id" := by decide
  have h₃ : ("code" : String) < "message" := by decide
  simp only [sseEnvelope, Json.ofFields, field, ofEntries, List.cons_append, List.nil_append,
    List.foldl_cons, List.foldl_nil, put_nil, put_cons_of_lt h₁, put_cons_of_lt h₂,
    put_cons_of_gt h₃]
  rfl

theorem depth_sseEnvelope (id : RequestId) (event : Event) :
    (sseEnvelope id (.ok event)).depth = (serialize event).depth + 1 := by
  rw [sseEnvelope_ok]
  cases id <;> simp [RequestId.toJson, Json.depth, Json.depthFields]

theorem depth_errorEnvelope (id : RequestId) (e : A2AError) :
    (sseEnvelope id (.error e)).depth = 2 := by
  rw [sseEnvelope_error]
  cases id <;> rfl

variable [JsonText]

/-- The data of `handle_sse`: the text of the envelope. -/
def sseItemData (id : RequestId) (item : Except A2AError Event) : List Char :=
  ((JsonText.print (sseEnvelope id item)).getD "").toList

/-- The data of the REST handlers: the text of the event. -/
def restEventData (event : Event) : List Char := ((toText event).getD "").toList

end Items

end Ra2a
