import Ra2a.Error
import Ra2a.Types.Agent
import Ra2a.Types.Request

/-!
# Payloads

What interceptors get of a request or a response is a `Box<dyn Any>`: a value
with its type.  The types are those the library puts in a box itself, and any
others an interceptor may put there instead.
-/

namespace Ra2a

/-- The type of a payload, as its `TypeId` tells it. -/
inductive PayloadType
  | sendMessageRequest
  | getTaskRequest
  | listTasksRequest
  | cancelTaskRequest
  | subscribeToTaskRequest
  | taskPushNotificationConfig
  | getTaskPushNotificationConfigRequest
  | listTaskPushNotificationConfigsRequest
  | deleteTaskPushNotificationConfigRequest
  | getExtendedAgentCardRequest
  | sendMessageResponse
  | task
  | listTasksResponse
  | listTaskPushNotificationConfigsResponse
  | unit
  | agentCard
  | event
  | foreign (n : ℕ)
  deriving DecidableEq

/-- The values of a type; those of a foreign one as bytes. -/
abbrev PayloadType.Carrier : PayloadType → Type
  | sendMessageRequest => SendMessageRequest
  | getTaskRequest => GetTaskRequest
  | listTasksRequest => ListTasksRequest
  | cancelTaskRequest => CancelTaskRequest
  | subscribeToTaskRequest => SubscribeToTaskRequest
  | taskPushNotificationConfig => TaskPushNotificationConfig
  | getTaskPushNotificationConfigRequest => GetTaskPushNotificationConfigRequest
  | listTaskPushNotificationConfigsRequest => ListTaskPushNotificationConfigsRequest
  | deleteTaskPushNotificationConfigRequest => DeleteTaskPushNotificationConfigRequest
  | getExtendedAgentCardRequest => GetExtendedAgentCardRequest
  | sendMessageResponse => SendMessageResponse
  | task => Task
  | listTasksResponse => ListTasksResponse
  | listTaskPushNotificationConfigsResponse => ListTaskPushNotificationConfigsResponse
  | unit => Unit
  | agentCard => AgentCard
  | event => Event
  | foreign _ => List UInt8

/-- `Box<dyn Any + Send>`. -/
structure Payload where
  type : PayloadType
  value : type.Carrier

namespace Payload

variable {T : PayloadType}

/-- `downcast`. -/
def downcast (T : PayloadType) (p : Payload) : Option T.Carrier :=
  if h : p.type = T then some (h ▸ p.value) else none

theorem downcast_self (a : T.Carrier) : downcast T ⟨T, a⟩ = some a := by
  rw [downcast, dif_pos rfl]

theorem downcast_of_ne {p : Payload} (h : p.type ≠ T) : p.downcast T = none := by
  rw [downcast, dif_neg h]

/-- A payload is of a type or cannot be taken for one. -/
theorem downcast_cases (T : PayloadType) (p : Payload) :
    (∃ a, p = ⟨T, a⟩ ∧ p.downcast T = some a) ∨ (p.type ≠ T ∧ p.downcast T = none) := by
  by_cases h : p.type = T
  · obtain ⟨T', a⟩ := p
    cases h
    exact Or.inl ⟨a, rfl, downcast_self a⟩
  · exact Or.inr ⟨h, downcast_of_ne h⟩

end Payload

/-- What a call comes to if its hooks leave another type of request. -/
def A2AError.requestTypeChanged : A2AError := .other "interceptor changed request payload type"

/-- What came of a call or of an item of a stream, as a response tells it. -/
structure CallOutcome where
  payload : Option Payload
  err : Option A2AError

/-- The outcome that is a result. -/
def CallOutcome.ofResult (T : PayloadType) : Except A2AError T.Carrier → CallOutcome
  | .ok a => ⟨some ⟨T, a⟩, none⟩
  | .error e => ⟨none, some e⟩

end Ra2a
