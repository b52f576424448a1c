import Ra2a.Types.Event

/-!
# Requests and responses

`types/request.rs`, `types/response.rs` and `types/push.rs`.
-/

namespace Ra2a

structure AuthenticationInfo where
  scheme : String
  credentials : Option String
  deriving DecidableEq

structure PushNotificationConfig where
  id : Option String
  url : String
  token : Option String
  authentication : Option AuthenticationInfo
  deriving DecidableEq

structure TaskPushNotificationConfig where
  tenant : Option String
  id : Option String
  taskId : Option TaskId
  url : String
  token : Option String
  authentication : Option AuthenticationInfo
  deriving DecidableEq

structure SendMessageConfiguration where
  acceptedOutputModes : List String
  taskPushNotificationConfig : Option TaskPushNotificationConfig
  historyLength : Option Int32
  returnImmediately : Bool
  deriving DecidableEq

structure SendMessageRequest where
  tenant : Option String
  message : Message
  configuration : Option SendMessageConfiguration
  metadata : Option Metadata
  deriving DecidableEq

structure GetTaskRequest where
  tenant : Option String
  id : TaskId
  historyLength : Option Int32
  deriving DecidableEq

structure ListTasksRequest where
  tenant : Option String
  contextId : Option String
  status : Option TaskState
  pageSize : Option Int32
  pageToken : Option String
  historyLength : Option Int32
  statusTimestampAfter : Option String
  includeArtifacts : Option Bool
  deriving DecidableEq

structure CancelTaskRequest where
  tenant : Option String
  id : TaskId
  metadata : Option Metadata
  deriving DecidableEq

structure SubscribeToTaskRequest where
  tenant : Option String
  id : TaskId
  deriving DecidableEq

structure GetTaskPushNotificationConfigRequest where
  tenant : Option String
  taskId : TaskId
  id : String
  deriving DecidableEq

structure DeleteTaskPushNotificationConfigRequest where
  tenant : Option String
  taskId : TaskId
  id : String
  deriving DecidableEq

structure ListTaskPushNotificationConfigsRequest where
  tenant : Option String
  taskId : TaskId
  pageSize : Option Int32
  pageToken : Option String
  deriving DecidableEq

structure GetExtendedAgentCardRequest where
  tenant : Option String
  deriving DecidableEq

structure ListTasksResponse where
  tasks : List Task
  nextPageToken : String
  pageSize : Int32
  totalSize : Int32
  deriving DecidableEq

structure ListTaskPushNotificationConfigsResponse where
  configs : List TaskPushNotificationConfig
  nextPageToken : Option String
  deriving DecidableEq

end Ra2a
