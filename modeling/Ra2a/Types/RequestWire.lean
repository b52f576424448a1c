import Ra2a.Types.Request
import Ra2a.Types.Wire

/-!
# Requests and responses on the wire

The derived `Serialize` and `Deserialize` implementations of the requests and
responses in `types/request.rs`, `types/response.rs` and `types/push.rs`.  An
option is left out when it is `None`, so a request says only what it asks for.
-/

namespace Ra2a

open SortedMap

/-! ### Push notification configurations -/

def AuthenticationInfo.serialize (a : AuthenticationInfo) : Json :=
  .ofFields (field "scheme" a.scheme ++ fieldUnlessNone "credentials" a.credentials)

def AuthenticationInfo.deserialize (j : Json) : Option AuthenticationInfo := do
  let ms ← j.members 1 ["scheme", "credentials"]
  return {
    scheme := ← readField (ms.lookup "scheme")
    credentials := ← readOption (ms.lookup "credentials") }

instance : Serde AuthenticationInfo :=
  ⟨AuthenticationInfo.serialize, AuthenticationInfo.deserialize⟩

def TaskPushNotificationConfig.serialize (c : TaskPushNotificationConfig) : Json :=
  .ofFields (fieldUnlessNone "tenant" c.tenant ++ fieldUnlessNone "id" c.id ++
    fieldUnlessNone "taskId" c.taskId ++ field "url" c.url ++ fieldUnlessNone "token" c.token ++
    fieldUnlessNone "authentication" c.authentication)

def TaskPushNotificationConfig.deserialize (j : Json) : Option TaskPushNotificationConfig := do
  let ms ← j.members 4 ["tenant", "id", "taskId", "url", "token", "authentication"]
  return {
    tenant := ← readOption (ms.lookup "tenant")
    id := ← readOption (ms.lookup "id")
    taskId := ← readOption (ms.lookup "taskId")
    url := ← readField (ms.lookup "url")
    token := ← readOption (ms.lookup "token")
    authentication := ← readOption (ms.lookup "authentication") }

instance : Serde TaskPushNotificationConfig :=
  ⟨TaskPushNotificationConfig.serialize, TaskPushNotificationConfig.deserialize⟩

/-! ### Requests -/

def SendMessageConfiguration.serialize (c : SendMessageConfiguration) : Json :=
  .ofFields (fieldUnlessEmpty "acceptedOutputModes" c.acceptedOutputModes ++
    fieldUnlessNone "taskPushNotificationConfig" c.taskPushNotificationConfig ++
    fieldUnlessNone "historyLength" c.historyLength ++
    fieldUnlessFalse "returnImmediately" c.returnImmediately)

def SendMessageConfiguration.deserialize (j : Json) : Option SendMessageConfiguration := do
  let ms ← j.members 0 ["acceptedOutputModes", "taskPushNotificationConfig", "historyLength",
    "returnImmediately"]
  return {
    acceptedOutputModes := ← readDefault [] (ms.lookup "acceptedOutputModes")
    taskPushNotificationConfig := ← readOption (ms.lookup "taskPushNotificationConfig")
    historyLength := ← readOption (ms.lookup "historyLength")
    returnImmediately := ← readDefault false (ms.lookup "returnImmediately") }

instance : Serde SendMessageConfiguration :=
  ⟨SendMessageConfiguration.serialize, SendMessageConfiguration.deserialize⟩

section Messages

variable [Base64]

def SendMessageRequest.serialize (r : SendMessageRequest) : Json :=
  .ofFields (fieldUnlessNone "tenant" r.tenant ++ field "message" r.message ++
    fieldUnlessNone "configuration" r.configuration ++ fieldUnlessNone "metadata" r.metadata)

def SendMessageRequest.deserialize (j : Json) : Option SendMessageRequest := do
  let ms ← j.members 2 ["tenant", "message", "configuration", "metadata"]
  return {
    tenant := ← readOption (ms.lookup "tenant")
    message := ← readField (ms.lookup "message")
    configuration := ← readOption (ms.lookup "configuration")
    metadata := ← readOption (ms.lookup "metadata") }

instance : Serde SendMessageRequest :=
  ⟨SendMessageRequest.serialize, SendMessageRequest.deserialize⟩

end Messages

def GetTaskRequest.serialize (r : GetTaskRequest) : Json :=
  .ofFields (fieldUnlessNone "tenant" r.tenant ++ field "id" r.id ++
    fieldUnlessNone "historyLength" r.historyLength)

def GetTaskRequest.deserialize (j : Json) : Option GetTaskRequest := do
  let ms ← j.members 2 ["tenant", "id", "historyLength"]
  return {
    tenant := ← readOption (ms.lookup "tenant")
    id := ← readField (ms.lookup "id")
    historyLength := ← readOption (ms.lookup "historyLength") }

instance : Serde GetTaskRequest := ⟨GetTaskRequest.serialize, GetTaskRequest.deserialize⟩

def ListTasksRequest.serialize (r : ListTasksRequest) : Json :=
  .ofFields (fieldUnlessNone "tenant" r.tenant ++ fieldUnlessNone "contextId" r.contextId ++
    fieldUnlessNone "status" r.status ++ fieldUnlessNone "pageSize" r.pageSize ++
    fieldUnlessNone "pageToken" r.pageToken ++ fieldUnlessNone "historyLength" r.historyLength ++
    fieldUnlessNone "statusTimestampAfter" r.statusTimestampAfter ++
    fieldUnlessNone "includeArtifacts" r.includeArtifacts)

def ListTasksRequest.deserialize (j : Json) : Option ListTasksRequest := do
  let ms ← j.members 0 ["tenant", "contextId", "status", "pageSize", "pageToken", "historyLength",
    "statusTimestampAfter", "includeArtifacts"]
  return {
    tenant := ← readOption (ms.lookup "tenant")
    contextId := ← readOption (ms.lookup "contextId")
    status := ← readOption (ms.lookup "status")
    pageSize := ← readOption (ms.lookup "pageSize")
    pageToken := ← readOption (ms.lookup "pageToken")
    historyLength := ← readOption (ms.lookup "historyLength")
    statusTimestampAfter := ← readOption (ms.lookup "statusTimestampAfter")
    includeArtifacts := ← readOption (ms.lookup "includeArtifacts") }

instance : Serde ListTasksRequest := ⟨ListTasksRequest.serialize, ListTasksRequest.deserialize⟩

def CancelTaskRequest.serialize (r : CancelTaskRequest) : Json :=
  .ofFields (fieldUnlessNone "tenant" r.tenant ++ field "id" r.id ++
    fieldUnlessNone "metadata" r.metadata)

def CancelTaskRequest.deserialize (j : Json) : Option CancelTaskRequest := do
  let ms ← j.members 2 ["tenant", "id", "metadata"]
  return {
    tenant := ← readOption (ms.lookup "tenant")
    id := ← readField (ms.lookup "id")
    metadata := ← readOption (ms.lookup "metadata") }

instance : Serde CancelTaskRequest := ⟨CancelTaskRequest.serialize, CancelTaskRequest.deserialize⟩

def SubscribeToTaskRequest.serialize (r : SubscribeToTaskRequest) : Json :=
  .ofFields (fieldUnlessNone "tenant" r.tenant ++ field "id" r.id)

def SubscribeToTaskRequest.deserialize (j : Json) : Option SubscribeToTaskRequest := do
  let ms ← j.members 2 ["tenant", "id"]
  return {
    tenant := ← readOption (ms.lookup "tenant")
    id := ← readField (ms.lookup "id") }

instance : Serde SubscribeToTaskRequest :=
  ⟨SubscribeToTaskRequest.serialize, SubscribeToTaskRequest.deserialize⟩

def GetTaskPushNotificationConfigRequest.serialize (r : GetTaskPushNotificationConfigRequest) :
    Json :=
  .ofFields (fieldUnlessNone "tenant" r.tenant ++ field "taskId" r.taskId ++ field "id" r.id)

def GetTaskPushNotificationConfigRequest.deserialize (j : Json) :
    Option GetTaskPushNotificationConfigRequest := do
  let ms ← j.members 3 ["tenant", "taskId", "id"]
  return {
    tenant := ← readOption (ms.lookup "tenant")
    taskId := ← readField (ms.lookup "taskId")
    id := ← readField (ms.lookup "id") }

instance : Serde GetTaskPushNotificationConfigRequest :=
  ⟨GetTaskPushNotificationConfigRequest.serialize, GetTaskPushNotificationConfigRequest.deserialize⟩

def DeleteTaskPushNotificationConfigRequest.serialize
    (r : DeleteTaskPushNotificationConfigRequest) : Json :=
  .ofFields (fieldUnlessNone "tenant" r.tenant ++ field "taskId" r.taskId ++ field "id" r.id)

def DeleteTaskPushNotificationConfigRequest.deserialize (j : Json) :
    Option DeleteTaskPushNotificationConfigRequest := do
  let ms ← j.members 3 ["tenant", "taskId", "id"]
  return {
    tenant := ← readOption (ms.lookup "tenant")
    taskId := ← readField (ms.lookup "taskId")
    id := ← readField (ms.lookup "id") }

instance : Serde DeleteTaskPushNotificationConfigRequest :=
  ⟨DeleteTaskPushNotificationConfigRequest.serialize,
    DeleteTaskPushNotificationConfigRequest.deserialize⟩

def ListTaskPushNotificationConfigsRequest.serialize
    (r : ListTaskPushNotificationConfigsRequest) : Json :=
  .ofFields (fieldUnlessNone "tenant" r.tenant ++ field "taskId" r.taskId ++
    fieldUnlessNone "pageSize" r.pageSize ++ fieldUnlessNone "pageToken" r.pageToken)

def ListTaskPushNotificationConfigsRequest.deserialize (j : Json) :
    Option ListTaskPushNotificationConfigsRequest := do
  let ms ← j.members 2 ["tenant", "taskId", "pageSize", "pageToken"]
  return {
    tenant := ← readOption (ms.lookup "tenant")
    taskId := ← readField (ms.lookup "taskId")
    pageSize := ← readOption (ms.lookup "pageSize")
    pageToken := ← readOption (ms.lookup "pageToken") }

instance : Serde ListTaskPushNotificationConfigsRequest :=
  ⟨ListTaskPushNotificationConfigsRequest.serialize,
    ListTaskPushNotificationConfigsRequest.deserialize⟩

def GetExtendedAgentCardRequest.serialize (r : GetExtendedAgentCardRequest) : Json :=
  .ofFields (fieldUnlessNone "tenant" r.tenant)

def GetExtendedAgentCardRequest.deserialize (j : Json) : Option GetExtendedAgentCardRequest := do
  let ms ← j.members 0 ["tenant"]
  return {
    tenant := ← readOption (ms.lookup "tenant") }

instance : Serde GetExtendedAgentCardRequest :=
  ⟨GetExtendedAgentCardRequest.serialize, GetExtendedAgentCardRequest.deserialize⟩

/-! ### Responses -/

section Tasks

variable [Base64]

def ListTasksResponse.serialize (r : ListTasksResponse) : Json :=
  .ofFields (field "tasks" r.tasks ++ field "nextPageToken" r.nextPageToken ++
    field "pageSize" r.pageSize ++ field "totalSize" r.totalSize)

def ListTasksResponse.deserialize (j : Json) : Option ListTasksResponse := do
  let ms ← j.members 1 ["tasks", "nextPageToken", "pageSize", "totalSize"]
  return {
    tasks := ← readField (ms.lookup "tasks")
    nextPageToken := ← readDefault "" (ms.lookup "nextPageToken")
    pageSize := ← readDefault 0 (ms.lookup "pageSize")
    totalSize := ← readDefault 0 (ms.lookup "totalSize") }

instance : Serde ListTasksResponse := ⟨ListTasksResponse.serialize, ListTasksResponse.deserialize⟩

end Tasks

def ListTaskPushNotificationConfigsResponse.serialize
    (r : ListTaskPushNotificationConfigsResponse) : Json :=
  .ofFields (field "configs" r.configs ++ fieldUnlessNone "nextPageToken" r.nextPageToken)

def ListTaskPushNotificationConfigsResponse.deserialize (j : Json) :
    Option ListTaskPushNotificationConfigsResponse := do
  let ms ← j.members 0 ["configs", "nextPageToken"]
  return {
    configs := ← readDefault [] (ms.lookup "configs")
    nextPageToken := ← readOption (ms.lookup "nextPageToken") }

instance : Serde ListTaskPushNotificationConfigsResponse :=
  ⟨ListTaskPushNotificationConfigsResponse.serialize,
    ListTaskPushNotificationConfigsResponse.deserialize⟩

/-- `()`, which is written as `null`. -/
instance : Serde Unit where
  serialize _ := .null
  deserialize
    | .null => some ()
    | _ => none

/-! ### What is written is read back -/

instance : NeverNull TaskState := ⟨fun a h => by cases h⟩

instance : NeverNull AuthenticationInfo := ⟨fun a h => by cases h⟩

instance : NeverNull TaskPushNotificationConfig := ⟨fun a h => by cases h⟩

instance : NeverNull SendMessageConfiguration := ⟨fun a h => by cases h⟩

instance [Base64] : NeverNull SendMessageRequest := ⟨fun a h => by cases h⟩

instance : NeverNull GetTaskRequest := ⟨fun a h => by cases h⟩

instance : NeverNull ListTasksRequest := ⟨fun a h => by cases h⟩

instance : NeverNull CancelTaskRequest := ⟨fun a h => by cases h⟩

instance : NeverNull SubscribeToTaskRequest := ⟨fun a h => by cases h⟩

instance : NeverNull GetTaskPushNotificationConfigRequest := ⟨fun a h => by cases h⟩

instance : NeverNull DeleteTaskPushNotificationConfigRequest := ⟨fun a h => by cases h⟩

instance : NeverNull ListTaskPushNotificationConfigsRequest := ⟨fun a h => by cases h⟩

instance : NeverNull GetExtendedAgentCardRequest := ⟨fun a h => by cases h⟩

instance : LawfulSerde AuthenticationInfo where
  deserialize_serialize a := by
    show AuthenticationInfo.deserialize a.serialize = some a
    simp [AuthenticationInfo.serialize, AuthenticationInfo.deserialize, lookup_ofEntries]

instance : LawfulSerde TaskPushNotificationConfig where
  deserialize_serialize c := by
    show TaskPushNotificationConfig.deserialize c.serialize = some c
    simp [TaskPushNotificationConfig.serialize, TaskPushNotificationConfig.deserialize,
      lookup_ofEntries]

instance : LawfulSerde SendMessageConfiguration where
  deserialize_serialize c := by
    show SendMessageConfiguration.deserialize c.serialize = some c
    simp [SendMessageConfiguration.serialize, SendMessageConfiguration.deserialize,
      lookup_ofEntries]

instance [Base64] [LawfulBase64] : LawfulSerde SendMessageRequest where
  deserialize_serialize r := by
    show SendMessageRequest.deserialize r.serialize = some r
    simp [SendMessageRequest.serialize, SendMessageRequest.deserialize, lookup_ofEntries]

instance : LawfulSerde GetTaskRequest where
  deserialize_serialize r := by
    show GetTaskRequest.deserialize r.serialize = some r
    simp [GetTaskRequest.serialize, GetTaskRequest.deserialize, lookup_ofEntries]

instance : LawfulSerde ListTasksRequest where
  deserialize_serialize r := by
    show ListTasksRequest.deserialize r.serialize = some r
    simp [ListTasksRequest.serialize, ListTasksRequest.deserialize, lookup_ofEntries]

instance : LawfulSerde CancelTaskRequest where
  deserialize_serialize r := by
    show CancelTaskRequest.deserialize r.serialize = some r
    simp [CancelTaskRequest.serialize, CancelTaskRequest.deserialize, lookup_ofEntries]

instance : LawfulSerde SubscribeToTaskRequest where
  deserialize_serialize r := by
    show SubscribeToTaskRequest.deserialize r.serialize = some r
    simp [SubscribeToTaskRequest.serialize, SubscribeToTaskRequest.deserialize, lookup_ofEntries]

instance : LawfulSerde GetTaskPushNotificationConfigRequest where
  deserialize_serialize r := by
    show GetTaskPushNotificationConfigRequest.deserialize r.serialize = some r
    simp [GetTaskPushNotificationConfigRequest.serialize,
      GetTaskPushNotificationConfigRequest.deserialize,
      lookup_ofEntries]

instance : LawfulSerde DeleteTaskPushNotificationConfigRequest where
  deserialize_serialize r := by
    show DeleteTaskPushNotificationConfigRequest.deserialize r.serialize = some r
    simp [DeleteTaskPushNotificationConfigRequest.serialize,
      DeleteTaskPushNotificationConfigRequest.deserialize,
      lookup_ofEntries]

instance : LawfulSerde ListTaskPushNotificationConfigsRequest where
  deserialize_serialize r := by
    show ListTaskPushNotificationConfigsRequest.deserialize r.serialize = some r
    simp [ListTaskPushNotificationConfigsRequest.serialize,
      ListTaskPushNotificationConfigsRequest.deserialize,
      lookup_ofEntries]

instance : LawfulSerde GetExtendedAgentCardRequest where
  deserialize_serialize r := by
    show GetExtendedAgentCardRequest.deserialize r.serialize = some r
    simp [GetExtendedAgentCardRequest.serialize, GetExtendedAgentCardRequest.deserialize,
      lookup_ofEntries]

instance [Base64] [LawfulBase64] : LawfulSerde ListTasksResponse where
  deserialize_serialize r := by
    show ListTasksResponse.deserialize r.serialize = some r
    simp [ListTasksResponse.serialize, ListTasksResponse.deserialize,
      lookup_ofEntries, readDefault_serialize]

instance : LawfulSerde ListTaskPushNotificationConfigsResponse where
  deserialize_serialize r := by
    show ListTaskPushNotificationConfigsResponse.deserialize r.serialize = some r
    simp [ListTaskPushNotificationConfigsResponse.serialize,
      ListTaskPushNotificationConfigsResponse.deserialize,
      lookup_ofEntries, readDefault_serialize]

instance : LawfulSerde Unit := ⟨fun _ => rfl⟩

end Ra2a
