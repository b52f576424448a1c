import Ra2a.Server.CallContext
import Ra2a.Server.Requests
import Ra2a.Types.Payload

/-!
# Interceptors

The rest of `server/middleware.rs`: the request and the response as interceptors
get them, and `CallInterceptor`.  A hook may do anything to what it is given by
`&mut`, and it may have a state of its own; here it gives back what it leaves.
-/

namespace Ra2a

/-! ### The methods of a handler -/

/-- The methods of `RequestHandler` that answer once. -/
inductive UnaryMethod
  | messageSend
  | getTask
  | listTasks
  | cancelTask
  | createTaskPushConfig
  | getTaskPushConfig
  | listTaskPushConfigs
  | deleteTaskPushConfig
  | getExtendedAgentCard
  deriving DecidableEq

/-- The methods that answer with a stream. -/
inductive StreamingMethod
  | messageStream
  | subscribeToTask
  deriving DecidableEq

namespace UnaryMethod

/-- The name that `InterceptedHandler` knows the method by. -/
def name : UnaryMethod → String
  | messageSend => METHOD_MESSAGE_SEND
  | getTask => METHOD_TASKS_GET
  | listTasks => METHOD_TASKS_LIST
  | cancelTask => METHOD_TASKS_CANCEL
  | createTaskPushConfig => METHOD_PUSH_CONFIG_CREATE
  | getTaskPushConfig => METHOD_PUSH_CONFIG_GET
  | listTaskPushConfigs => METHOD_PUSH_CONFIG_LIST
  | deleteTaskPushConfig => METHOD_PUSH_CONFIG_DELETE
  | getExtendedAgentCard => METHOD_GET_EXTENDED_AGENT_CARD

abbrev request : UnaryMethod → PayloadType
  | messageSend => .sendMessageRequest
  | getTask => .getTaskRequest
  | listTasks => .listTasksRequest
  | cancelTask => .cancelTaskRequest
  | createTaskPushConfig => .taskPushNotificationConfig
  | getTaskPushConfig => .getTaskPushNotificationConfigRequest
  | listTaskPushConfigs => .listTaskPushNotificationConfigsRequest
  | deleteTaskPushConfig => .deleteTaskPushNotificationConfigRequest
  | getExtendedAgentCard => .getExtendedAgentCardRequest

abbrev response : UnaryMethod → PayloadType
  | messageSend => .sendMessageResponse
  | getTask => .task
  | listTasks => .listTasksResponse
  | cancelTask => .task
  | createTaskPushConfig => .taskPushNotificationConfig
  | getTaskPushConfig => .taskPushNotificationConfig
  | listTaskPushConfigs => .listTaskPushNotificationConfigsResponse
  | deleteTaskPushConfig => .unit
  | getExtendedAgentCard => .agentCard

end UnaryMethod

namespace StreamingMethod

def name : StreamingMethod → String
  | messageStream => METHOD_MESSAGE_STREAM
  | subscribeToTask => METHOD_TASKS_RESUBSCRIBE

abbrev request : StreamingMethod → PayloadType
  | messageStream => .sendMessageRequest
  | subscribeToTask => .subscribeToTaskRequest

end StreamingMethod

namespace StreamingHandler

variable {σ : Type} (h : StreamingHandler σ)

def unaryCall : (m : UnaryMethod) → m.request.Carrier → Handling σ m.response.Carrier
  | .messageSend => h.onMessageSend
  | .getTask => h.onGetTask
  | .listTasks => h.onListTasks
  | .cancelTask => h.onCancelTask
  | .createTaskPushConfig => h.onCreateTaskPushConfig
  | .getTaskPushConfig => h.onGetTaskPushConfig
  | .listTaskPushConfigs => h.onListTaskPushConfigs
  | .deleteTaskPushConfig => h.onDeleteTaskPushConfig
  | .getExtendedAgentCard => h.onGetExtendedAgentCard

def streamingCall : (m : StreamingMethod) → m.request.Carrier →
    Handling σ (List (Except A2AError Event))
  | .messageStream => h.onMessageStream
  | .subscribeToTask => h.onSubscribeToTask

end StreamingHandler

/-! ### What an interceptor gets -/

namespace Middleware

structure Request where
  payload : Payload

structure Response where
  payload : Option Payload
  err : Option A2AError

/-- `Response::ok`. -/
def Response.ok (T : PayloadType) (a : T.Carrier) : Response := ⟨some ⟨T, a⟩, none⟩

/-- `Response::error`. -/
def Response.error (e : A2AError) : Response := ⟨none, some e⟩

/-- The response made of a result. -/
def Response.ofResult (T : PayloadType) : Except A2AError T.Carrier → Response
  | .ok a => .ok T a
  | .error e => .error e

structure CallInterceptor (σ : Type) where
  before : CallContext → Request → Handling σ (CallContext × Request)
  after : CallContext → Response → Handling σ Response

/-- The hook as a step of a chain. -/
def CallInterceptor.beforeHook {σ : Type} (i : CallInterceptor σ) :
    Chain.Step A2AError σ (CallContext × Request) :=
  fun p => i.before p.1 p.2

/-- `PassthroughInterceptor`. -/
def passthroughInterceptor (σ : Type) : CallInterceptor σ where
  before ctx req := pure (ctx, req)
  after _ resp := pure resp

end Middleware

end Ra2a
