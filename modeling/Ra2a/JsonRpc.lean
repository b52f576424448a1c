import Ra2a.Error
import Ra2a.Types.Request
import Ra2a.Types.Serde

/-!
# The JSON-RPC envelope

`jsonrpc.rs`: method names, request identifiers and the two response objects.

Responses are built as JSON values; the text `serde_json::to_string` makes of
them is not modelled here.  A client reads one as a success, or else as an error
(`JsonRpcResponse`): the enum is untagged, so the members decide.
-/

namespace Ra2a

@[match_pattern] abbrev METHOD_MESSAGE_SEND : String := "message/send"
@[match_pattern] abbrev METHOD_MESSAGE_STREAM : String := "message/stream"
@[match_pattern] abbrev METHOD_TASKS_GET : String := "tasks/get"
@[match_pattern] abbrev METHOD_TASKS_LIST : String := "tasks/list"
@[match_pattern] abbrev METHOD_TASKS_CANCEL : String := "tasks/cancel"
@[match_pattern] abbrev METHOD_TASKS_RESUBSCRIBE : String := "tasks/resubscribe"
@[match_pattern] abbrev METHOD_PUSH_CONFIG_GET : String := "tasks/pushNotificationConfig/get"
@[match_pattern] abbrev METHOD_PUSH_CONFIG_CREATE : String := "tasks/pushNotificationConfig/create"
@[match_pattern] abbrev METHOD_PUSH_CONFIG_LIST : String := "tasks/pushNotificationConfig/list"
@[match_pattern] abbrev METHOD_PUSH_CONFIG_DELETE : String := "tasks/pushNotificationConfig/delete"
@[match_pattern] abbrev METHOD_GET_EXTENDED_AGENT_CARD : String :=
  "agent/getAuthenticatedExtendedCard"

inductive RequestId
  | string (s : String)
  | number (n : Int64)
  deriving DecidableEq

/-- The untagged encoding of an identifier. -/
def RequestId.toJson : RequestId → Json
  | string s => .string s
  | number n => .number (.ofInt64 n)

theorem RequestId.toJson_ne_null (id : RequestId) : id.toJson ≠ .null := by
  cases id <;> simp [toJson]

/-- `JsonRpcRequest<serde_json::Value>`. -/
structure JsonRpcRequest where
  jsonrpc : String
  id : RequestId
  method : String
  params : Option Json
  deriving DecidableEq

/-- An error object on the wire; `data` is left out when there is none. -/
def JsonRpcError.toJson (e : JsonRpcError) : Json :=
  .object ([("code", .number (.ofInt64 e.code.toInt64)), ("message", .string e.message)]
    ++ (e.data.map fun d => ("data", d)).toList)

/-- The `id` member of a response, left out when there is none. -/
def idField (id : Option RequestId) : List (String × Json) :=
  (id.map fun i => ("id", i.toJson)).toList

/-- `JsonRpcSuccessResponse::new`, serialized. -/
def successResponse (id : Option RequestId) (result : Json) : Json :=
  .object (("jsonrpc", .string "2.0") :: idField id ++ [("result", result)])

/-- `JsonRpcErrorResponse::new`, serialized. -/
def errorResponse (id : Option RequestId) (error : JsonRpcError) : Json :=
  .object (("jsonrpc", .string "2.0") :: idField id ++ [("error", error.toJson)])

/-- The code of the error a response carries. -/
def errorCode (answer : Json) : Option Json := (answer.get? "error").bind (·.get? "code")

/-- A code as it stands in an error object. -/
def codeValue (c : Int32) : Json := .number (.ofInt64 c.toInt64)

theorem get?_id_successResponse (id : RequestId) (r : Json) :
    (successResponse (some id) r).get? "id" = some id.toJson := rfl

theorem get?_result_successResponse (id : RequestId) (r : Json) :
    (successResponse (some id) r).get? "result" = some r := rfl

theorem get?_error_successResponse (id : RequestId) (r : Json) :
    (successResponse (some id) r).get? "error" = none := rfl

theorem get?_id_errorResponse (id : RequestId) (e : JsonRpcError) :
    (errorResponse (some id) e).get? "id" = some id.toJson := rfl

theorem get?_result_errorResponse (id : RequestId) (e : JsonRpcError) :
    (errorResponse (some id) e).get? "result" = none := rfl

theorem get?_error_errorResponse (id : RequestId) (e : JsonRpcError) :
    (errorResponse (some id) e).get? "error" = some e.toJson := rfl

theorem errorCode_errorResponse (id : RequestId) (e : JsonRpcError) :
    errorCode (errorResponse (some id) e) = some (codeValue e.code) := rfl

/-! ### Reading a response -/

namespace RequestId

/-- The untagged enum: a string, or an integer that is an `i64`. -/
def ofJson : Json → Option RequestId
  | .string s => some (.string s)
  | .number n => n.toInt?.bind fun i =>
    if -2 ^ 63 ≤ i ∧ i < 2 ^ 63 then some (.number (Int64.ofInt i)) else none
  | _ => none

instance : Serde RequestId := ⟨toJson, ofJson⟩

instance : NeverNull RequestId := ⟨toJson_ne_null⟩

instance : LawfulSerde RequestId where
  deserialize_serialize id := by
    cases id with
    | string s => rfl
    | number n =>
      have hle : -2 ^ 63 ≤ n.toInt := Int64.le_toInt n
      have hlt : n.toInt < 2 ^ 63 := Int64.toInt_lt n
      show (Number.ofInt64 n).toInt?.bind _ = _
      rw [Number.toInt?_ofInt64, Option.bind_some, if_pos ⟨hle, hlt⟩, Int64.ofInt_toInt]

end RequestId

/-- Parameters that are `None` are left out. -/
def JsonRpcRequest.toJson (r : JsonRpcRequest) : Json :=
  .object ([("jsonrpc", .string r.jsonrpc), ("id", r.id.toJson), ("method", .string r.method)] ++
    (r.params.map fun p => ("params", p)).toList)

def JsonRpcRequest.ofJson (j : Json) : Option JsonRpcRequest := do
  let names := ["jsonrpc", "id", "method", "params"]
  let ms ← (j.members 4 names).filter (onceEach names)
  return {
    jsonrpc := ← readField (ms.lookup "jsonrpc")
    id := ← readField (ms.lookup "id")
    method := ← readField (ms.lookup "method")
    params := ← readOption (ms.lookup "params") }

instance : Serde JsonRpcRequest := ⟨JsonRpcRequest.toJson, JsonRpcRequest.ofJson⟩

/-- Parameters are read back, but for `null`. -/
theorem JsonRpcRequest.ofJson_toJson (r : JsonRpcRequest) (h : r.params ≠ some .null) :
    JsonRpcRequest.ofJson r.toJson = some r := by
  obtain ⟨jsonrpc, id, method, params⟩ := r
  have hjsonrpc : readField (some (.string jsonrpc)) = some jsonrpc := rfl
  have hid : readField (some id.toJson) = some id := readField_serialize
  have hmethod : readField (some (.string method)) = some method := rfl
  cases params with
  | none =>
    simp [ofJson, toJson, Json.members, Option.filter_some, onceEach, SortedMap.lookup_cons_eq,
      hjsonrpc, hid, hmethod, readOption]
  | some p =>
    have hparams : readOption (some p) = some (some p) := by
      cases p with
      | null => exact absurd rfl h
      | _ => rfl
    simp [ofJson, toJson, Json.members, Option.filter_some, onceEach, SortedMap.lookup_cons_eq,
      hjsonrpc, hid, hmethod, hparams]

def JsonRpcError.ofJson (j : Json) : Option JsonRpcError := do
  let ms ← j.members 3 ["code", "message", "data"]
  return {
    code := ← readField (ms.lookup "code")
    message := ← readField (ms.lookup "message")
    data := ← readOption (ms.lookup "data") }

structure JsonRpcSuccessResponse (R : Type) where
  jsonrpc : String
  id : Option RequestId
  result : R
  deriving DecidableEq

structure JsonRpcErrorResponse where
  jsonrpc : String
  id : Option RequestId
  error : JsonRpcError
  deriving DecidableEq

inductive JsonRpcResponse (R : Type)
  | success (s : JsonRpcSuccessResponse R)
  | error (e : JsonRpcErrorResponse)
  deriving DecidableEq

section Responses

variable {R : Type} [Serde R]

def JsonRpcSuccessResponse.toJson (r : JsonRpcSuccessResponse R) : Json :=
  .object (("jsonrpc", .string r.jsonrpc) :: idField r.id ++ [("result", serialize r.result)])

def JsonRpcErrorResponse.toJson (r : JsonRpcErrorResponse) : Json :=
  .object (("jsonrpc", .string r.jsonrpc) :: idField r.id ++ [("error", r.error.toJson)])

def JsonRpcResponse.toJson : JsonRpcResponse R → Json
  | success s => s.toJson
  | error e => e.toJson

def JsonRpcSuccessResponse.ofJson (j : Json) : Option (JsonRpcSuccessResponse R) := do
  let ms ← j.members 3 ["jsonrpc", "id", "result"]
  return {
    jsonrpc := ← readField (ms.lookup "jsonrpc")
    id := ← readOption (ms.lookup "id")
    result := ← readField (ms.lookup "result") }

def JsonRpcErrorResponse.ofJson (j : Json) : Option JsonRpcErrorResponse := do
  let ms ← j.members 3 ["jsonrpc", "id", "error"]
  return {
    jsonrpc := ← readField (ms.lookup "jsonrpc")
    id := ← readOption (ms.lookup "id")
    error := ← (ms.lookup "error").bind JsonRpcError.ofJson }

/-- The untagged enum: what is no success may be an error. -/
def JsonRpcResponse.ofJson (j : Json) : Option (JsonRpcResponse R) :=
  match JsonRpcSuccessResponse.ofJson j with
  | some s => some (.success s)
  | none => (JsonRpcErrorResponse.ofJson j).map .error

instance : Serde (JsonRpcResponse R) := ⟨JsonRpcResponse.toJson, JsonRpcResponse.ofJson⟩

section

variable {ms : List (String × Json)} {id : RequestId}

/-- A response with a result is read as a success. -/
theorem ofJson_success [LawfulSerde R] {r : R} (hjson : ms.lookup "jsonrpc" = some (.string "2.0"))
    (hid : ms.lookup "id" = some id.toJson) (hresult : ms.lookup "result" = some (serialize r)) :
    JsonRpcResponse.ofJson (.object ms) = some (.success ⟨"2.0", some id, r⟩) := by
  have hsome : readOption (some id.toJson) = some (some id) := readOption_map (o := some id)
  have htext : readField (some (.string "2.0")) = some "2.0" := rfl
  simp [JsonRpcResponse.ofJson, JsonRpcSuccessResponse.ofJson, Json.members, hjson, hid, hresult,
    hsome, htext]

/-- A response without one is read as an error. -/
theorem ofJson_error_of_readOption {id : Option RequestId} {e : JsonRpcError} {j : Json}
    (hjson : ms.lookup "jsonrpc" = some (.string "2.0"))
    (hid : readOption (ms.lookup "id") = some id) (hresult : ms.lookup "result" = none)
    (herror : ms.lookup "error" = some j) (he : JsonRpcError.ofJson j = some e) :
    JsonRpcResponse.ofJson (R := R) (.object ms) = some (.error ⟨"2.0", id, e⟩) := by
  have htext : readField (some (.string "2.0")) = some "2.0" := rfl
  have hnone : (readField none : Option R) = none := rfl
  simp [JsonRpcResponse.ofJson, JsonRpcSuccessResponse.ofJson, JsonRpcErrorResponse.ofJson,
    Json.members, hjson, hid, hresult, herror, htext, hnone, he]

theorem ofJson_error {id : Option RequestId} {e : JsonRpcError} {j : Json}
    (hjson : ms.lookup "jsonrpc" = some (.string "2.0"))
    (hid : ms.lookup "id" = id.map RequestId.toJson) (hresult : ms.lookup "result" = none)
    (herror : ms.lookup "error" = some j) (he : JsonRpcError.ofJson j = some e) :
    JsonRpcResponse.ofJson (R := R) (.object ms) = some (.error ⟨"2.0", id, e⟩) := by
  have hread : readOption (ms.lookup "id") = some id := by
    rw [hid]
    exact readOption_map
  exact ofJson_error_of_readOption hjson hread hresult herror he

end

theorem ofJson_successResponse [LawfulSerde R] (id : RequestId) (r : R) :
    JsonRpcResponse.ofJson (successResponse (some id) (serialize r)) =
      some (.success ⟨"2.0", some id, r⟩) :=
  ofJson_success rfl rfl rfl

/-- The data of an error are read back, but for `null`. -/
theorem JsonRpcError.ofJson_toJson (e : JsonRpcError) (h : e.data ≠ some .null) :
    JsonRpcError.ofJson e.toJson = some e := by
  obtain ⟨code, message, data⟩ := e
  have hcode : readField (some (.number (.ofInt64 code.toInt64))) = some code :=
    readField_serialize
  have hmessage : readField (some (.string message)) = some message := rfl
  cases data with
  | none =>
    simp [ofJson, toJson, Json.members, SortedMap.lookup_cons_eq, hcode, hmessage, readOption]
  | some d =>
    have hdata : readOption (some d) = some (some d) := by
      cases d with
      | null => exact absurd rfl h
      | _ => rfl
    simp [ofJson, toJson, Json.members, SortedMap.lookup_cons_eq, hcode, hmessage, hdata]

theorem ofJson_errorResponse (id : Option RequestId) (e : JsonRpcError) (h : e.data ≠ some .null) :
    JsonRpcResponse.ofJson (R := R) (errorResponse id e) = some (.error ⟨"2.0", id, e⟩) := by
  cases id with
  | none => exact ofJson_error rfl rfl rfl rfl (JsonRpcError.ofJson_toJson e h)
  | some id => exact ofJson_error rfl rfl rfl rfl (JsonRpcError.ofJson_toJson e h)

end Responses

end Ra2a
