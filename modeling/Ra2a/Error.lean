import Ra2a.Types.Json

/-!
# Errors

`error.rs`: the error type of the library, the JSON-RPC error codes, and the
map from one to the other.

`A2AError::to_jsonrpc_error` numbers the protocol errors one by one and sends
every other variant to `InternalError`.  The variant that already holds a
JSON-RPC error is one of those others: `code_jsonRpc` says its own code is lost.
-/

namespace Ra2a

/-- The codes of `JsonRpcErrorCode`. -/
inductive JsonRpcErrorCode
  | parseError
  | invalidRequest
  | methodNotFound
  | invalidParams
  | internalError
  | serverError
  | taskNotFound
  | taskNotCancelable
  | pushNotificationNotSupported
  | unsupportedOperation
  | contentTypeNotSupported
  | invalidAgentResponse
  | authenticatedExtendedCardNotConfigured
  | unauthenticated
  | unauthorized
  | concurrentTaskModification
  | extensionSupportRequired
  | versionNotSupported
  deriving DecidableEq

namespace JsonRpcErrorCode

/-- The discriminant (`code as i32`). -/
def toInt32 : JsonRpcErrorCode → Int32
  | parseError => -32700
  | invalidRequest => -32600
  | methodNotFound => -32601
  | invalidParams => -32602
  | internalError => -32603
  | serverError => -32000
  | taskNotFound => -32001
  | taskNotCancelable => -32002
  | pushNotificationNotSupported => -32003
  | unsupportedOperation => -32004
  | contentTypeNotSupported => -32005
  | invalidAgentResponse => -32006
  | authenticatedExtendedCardNotConfigured => -32007
  | unauthenticated => -31401
  | unauthorized => -31403
  | concurrentTaskModification => -32008
  | extensionSupportRequired => -32009
  | versionNotSupported => -32010

/-- `JsonRpcErrorCode::default_message`. -/
def defaultMessage : JsonRpcErrorCode → String
  | parseError => "Invalid JSON payload"
  | invalidRequest => "Request payload validation error"
  | methodNotFound => "Method not found"
  | invalidParams => "Invalid parameters"
  | internalError => "Internal error"
  | serverError => "Server error"
  | taskNotFound => "Task not found"
  | taskNotCancelable => "Task cannot be canceled"
  | pushNotificationNotSupported => "Push Notification is not supported"
  | unsupportedOperation => "This operation is not supported"
  | contentTypeNotSupported => "Incompatible content types"
  | invalidAgentResponse => "Invalid agent response"
  | authenticatedExtendedCardNotConfigured => "Authenticated Extended Card is not configured"
  | unauthenticated => "Unauthenticated"
  | unauthorized => "Permission denied"
  | concurrentTaskModification => "Concurrent task modification"
  | extensionSupportRequired => "Extension support required"
  | versionNotSupported => "Version not supported"

end JsonRpcErrorCode

/-- A JSON-RPC 2.0 error object. -/
structure JsonRpcError where
  code : Int32
  message : String
  data : Option Json
  deriving DecidableEq

namespace JsonRpcError

/-- `JsonRpcError::new`. -/
def new (code : JsonRpcErrorCode) (message : String) : JsonRpcError := ⟨code.toInt32, message, none⟩

def parseError : JsonRpcError := new .parseError JsonRpcErrorCode.parseError.defaultMessage

def invalidRequest (message : String) : JsonRpcError := new .invalidRequest message

def methodNotFound (method : String) : JsonRpcError :=
  new .methodNotFound s!"Method '{method}' not found"

def invalidParams (message : String) : JsonRpcError := new .invalidParams message

/-- The `Display` text. -/
def display (e : JsonRpcError) : String := s!"[{toString e.code.toInt}] {e.message}"

end JsonRpcError

/-- The error type of the library.  `http` and `json` hold the text of the
`reqwest` or `serde_json` error they wrap. -/
inductive A2AError
  | parseError (s : String)
  | invalidRequest (s : String)
  | methodNotFound (s : String)
  | invalidParams (s : String)
  | internalError (s : String)
  | serverError (s : String)
  | taskNotFound (s : String)
  | taskNotCancelable (s : String)
  | pushNotificationNotSupported
  | unsupportedOperation (s : String)
  | contentTypeNotSupported (s : String)
  | invalidAgentResponse (s : String)
  | extendedCardNotConfigured
  | unauthenticated (s : String)
  | unauthorized (s : String)
  | concurrentTaskModification
  | extensionSupportRequired (s : String)
  | versionNotSupported (s : String)
  | jsonRpc (e : JsonRpcError)
  | http (s : String)
  | json (s : String)
  | database (s : String)
  | other (s : String)
  deriving DecidableEq

namespace A2AError

/-- The `Display` text (`#[error("...")]`). -/
def display : A2AError → String
  | parseError s => s!"parse error: {s}"
  | invalidRequest s => s!"invalid request: {s}"
  | methodNotFound s => s!"method not found: {s}"
  | invalidParams s => s!"invalid params: {s}"
  | internalError s => s!"internal error: {s}"
  | serverError s => s!"server error: {s}"
  | taskNotFound s => s!"task not found: {s}"
  | taskNotCancelable s => s!"task cannot be canceled: {s}"
  | pushNotificationNotSupported => "push notification not supported"
  | unsupportedOperation s => s!"unsupported operation: {s}"
  | contentTypeNotSupported s => s!"incompatible content types: {s}"
  | invalidAgentResponse s => s!"invalid agent response: {s}"
  | extendedCardNotConfigured => "extended card not configured"
  | unauthenticated s => s!"unauthenticated: {s}"
  | unauthorized s => s!"permission denied: {s}"
  | concurrentTaskModification => "concurrent task modification"
  | extensionSupportRequired s => s!"extension support required: {s}"
  | versionNotSupported s => s!"version not supported: {s}"
  | jsonRpc e => s!"JSON-RPC error: {e.display}"
  | http s => s!"HTTP error: {s}"
  | json s => s!"JSON error: {s}"
  | database s => s!"database error: {s}"
  | other s => s

/-- `A2AError::jsonrpc_error_code`: the code and the default message. -/
def jsonrpcErrorCode : A2AError → JsonRpcErrorCode × String
  | parseError _ => (.parseError, "Parse error")
  | invalidRequest _ => (.invalidRequest, "Invalid request")
  | methodNotFound _ => (.methodNotFound, "Method not found")
  | invalidParams _ => (.invalidParams, "Invalid params")
  | serverError _ => (.serverError, "Server error")
  | taskNotFound _ => (.taskNotFound, "Task not found")
  | taskNotCancelable _ => (.taskNotCancelable, "Task not cancelable")
  | pushNotificationNotSupported =>
    (.pushNotificationNotSupported, "Push notification not supported")
  | unsupportedOperation _ => (.unsupportedOperation, "Unsupported operation")
  | contentTypeNotSupported _ => (.contentTypeNotSupported, "Content type not supported")
  | invalidAgentResponse _ => (.invalidAgentResponse, "Invalid agent response")
  | extendedCardNotConfigured =>
    (.authenticatedExtendedCardNotConfigured, "Extended card not configured")
  | unauthenticated _ => (.unauthenticated, "Unauthenticated")
  | unauthorized _ => (.unauthorized, "Permission denied")
  | concurrentTaskModification => (.concurrentTaskModification, "Concurrent task modification")
  | extensionSupportRequired _ => (.extensionSupportRequired, "Extension support required")
  | versionNotSupported _ => (.versionNotSupported, "Version not supported")
  | _ => (.internalError, "Internal error")

/-- `A2AError::to_jsonrpc_error`. -/
def toJsonrpcError (e : A2AError) : JsonRpcError :=
  let (code, defaultMsg) := e.jsonrpcErrorCode
  { code := code.toInt32
    message := if e.display.isEmpty then defaultMsg else e.display
    data := none }

/-- **A JSON-RPC error inside an `A2AError` loses its code.** -/
@[simp] theorem code_jsonRpc (e : JsonRpcError) : (jsonRpc e).toJsonrpcError.code = -32603 := rfl

end A2AError

end Ra2a
