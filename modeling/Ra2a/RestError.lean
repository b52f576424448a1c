import Ra2a.Error
import Ra2a.Types.Serde

/-!
# Errors of the REST binding

The part of `error.rs` that turns an error into a `google.rpc.Status`.  The time
that is put into it is the argument `now`.
-/

namespace Ra2a

open SortedMap

structure RestErrorInfo where
  atType : String
  reason : String
  domain : String
  metadata : Finmap fun _ : String => String
  deriving DecidableEq

structure RestStatusError where
  code : UInt16
  status : String
  message : String
  details : List Json
  deriving DecidableEq

structure RestError where
  httpStatus : UInt16
  error : RestStatusError
  deriving DecidableEq

def RestErrorInfo.serialize (info : RestErrorInfo) : Json :=
  .ofFields (field "@type" info.atType ++ field "reason" info.reason ++
    field "domain" info.domain ++
    if info.metadata = ∅ then [] else field "metadata" info.metadata)

def RestStatusError.serialize (e : RestStatusError) : Json :=
  .ofFields ([("code", .number (.posInt e.code.toUInt64))] ++ field "status" e.status ++
    field "message" e.message ++ fieldUnlessEmpty "details" e.details)

def RestError.serialize (e : RestError) : Json := .ofFields [("error", e.error.serialize)]

namespace A2AError

/-- `A2AError::rest_error_details`: the HTTP status, the gRPC status and the reason. -/
def restErrorDetails : A2AError → UInt16 × String × String
  | parseError _ | invalidRequest _ | invalidParams _ =>
    (400, "INVALID_ARGUMENT", "INVALID_REQUEST")
  | methodNotFound _ => (404, "NOT_FOUND", "METHOD_NOT_FOUND")
  | taskNotFound _ => (404, "NOT_FOUND", "TASK_NOT_FOUND")
  | taskNotCancelable _ => (400, "FAILED_PRECONDITION", "TASK_NOT_CANCELABLE")
  | pushNotificationNotSupported => (501, "UNIMPLEMENTED", "PUSH_NOTIFICATION_NOT_SUPPORTED")
  | unsupportedOperation _ => (501, "UNIMPLEMENTED", "UNSUPPORTED_OPERATION")
  | contentTypeNotSupported _ => (400, "INVALID_ARGUMENT", "UNSUPPORTED_CONTENT_TYPE")
  | invalidAgentResponse _ => (500, "INTERNAL", "INVALID_AGENT_RESPONSE")
  | extendedCardNotConfigured =>
    (400, "FAILED_PRECONDITION", "EXTENDED_AGENT_CARD_NOT_CONFIGURED")
  | unauthenticated _ => (401, "UNAUTHENTICATED", "UNAUTHENTICATED")
  | unauthorized _ => (403, "PERMISSION_DENIED", "UNAUTHORIZED")
  | concurrentTaskModification => (409, "ABORTED", "CONCURRENT_TASK_MODIFICATION")
  | extensionSupportRequired _ => (400, "FAILED_PRECONDITION", "EXTENSION_SUPPORT_REQUIRED")
  | versionNotSupported _ => (501, "UNIMPLEMENTED", "VERSION_NOT_SUPPORTED")
  | _ => (500, "INTERNAL", "INTERNAL_ERROR")

/-- `A2AError::to_rest_error`. -/
def toRestError (e : A2AError) (now : String) (taskId : Option String) : RestError :=
  let (httpStatus, grpcStatus, reason) := e.restErrorDetails
  let metadata : Finmap fun _ : String => String := Finmap.singleton "timestamp" now
  let metadata := match taskId with
    | some tid => if tid.isEmpty then metadata else metadata.insert "taskId" tid
    | none => metadata
  let info : RestErrorInfo := {
    atType := "type.googleapis.com/google.rpc.ErrorInfo"
    reason := reason
    domain := "a2a-protocol.org"
    metadata := metadata }
  { httpStatus := httpStatus
    error := {
      code := httpStatus
      status := grpcStatus
      message := e.display
      details := [info.serialize] } }

/-- The status is that of a failure, and the body says it too. -/
theorem toRestError_status (e : A2AError) (now : String) (taskId : Option String) :
    400 ≤ (e.toRestError now taskId).httpStatus ∧
      (e.toRestError now taskId).error.code = (e.toRestError now taskId).httpStatus := by
  have hdetails : 400 ≤ e.restErrorDetails.1 := by
    cases e <;> simp only [restErrorDetails] <;> decide
  exact ⟨hdetails, rfl⟩

end A2AError

end Ra2a
