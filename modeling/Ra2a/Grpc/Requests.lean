import Ra2a.Error
import Ra2a.Grpc.Convert

/-!
# Requests over gRPC

`build_send_request` and `cancel_task` of `client/grpc.rs`, and what
`convert_send_message_request` and `cancel_task` of `grpc/server.rs` hand to the
handler.  The server makes a request anew of what it copies from the message, and
there is a field it does not copy: the tenant of a `SendMessageRequest`, the metadata
of a `CancelTaskRequest`.
-/

namespace Ra2a

open SortedMap Proto

/-! ### Push notification configurations -/

def AuthenticationInfo.toProto (a : AuthenticationInfo) : Proto.AuthenticationInfo where
  scheme := a.scheme
  credentials := a.credentials.getD ""

def AuthenticationInfo.ofProto (a : Proto.AuthenticationInfo) : AuthenticationInfo where
  scheme := a.scheme
  credentials := noneIfEmpty a.credentials

def TaskPushNotificationConfig.toProto (c : TaskPushNotificationConfig) :
    Proto.TaskPushNotificationConfig where
  tenant := c.tenant.getD ""
  id := c.id.getD ""
  taskId := c.taskId.getD ""
  url := c.url
  token := c.token.getD ""
  authentication := c.authentication.map AuthenticationInfo.toProto

def TaskPushNotificationConfig.ofProto (c : Proto.TaskPushNotificationConfig) :
    TaskPushNotificationConfig where
  tenant := noneIfEmpty c.tenant
  id := noneIfEmpty c.id
  taskId := noneIfEmpty c.taskId
  url := c.url
  token := noneIfEmpty c.token
  authentication := c.authentication.map AuthenticationInfo.ofProto

/-- What holds of the optional strings of a configuration. -/
structure TaskPushNotificationConfig.All (S : Option String → Prop)
    (c : TaskPushNotificationConfig) : Prop where
  tenant : S c.tenant
  id : S c.id
  taskId : S c.taskId
  token : S c.token
  credentials : ∀ a ∈ c.authentication, S a.credentials

theorem TaskPushNotificationConfig.All.ofProto_toProto {c : TaskPushNotificationConfig}
    (h : c.All Filled) : TaskPushNotificationConfig.ofProto c.toProto = c := by
  have hauth : (c.authentication.map AuthenticationInfo.toProto).map AuthenticationInfo.ofProto =
      c.authentication := by
    cases ha : c.authentication with
    | none => rfl
    | some a =>
      show some (AuthenticationInfo.ofProto a.toProto) = some a
      rw [AuthenticationInfo.toProto, AuthenticationInfo.ofProto,
        noneIfEmpty_getD (h.credentials a ha)]
  rw [TaskPushNotificationConfig.ofProto, toProto, noneIfEmpty_getD h.tenant,
    noneIfEmpty_getD h.id, noneIfEmpty_getD h.taskId,
    noneIfEmpty_getD h.token, hauth]

/-! ### What the client sends -/

section

variable [F64]

/-- `build_send_request`; the configuration is written out there field by field. -/
def buildSendRequest [ProtoEnum Proto.Role] (req : SendMessageRequest) :
    Proto.SendMessageRequest where
  tenant := req.tenant.getD ""
  message := some req.message.toProto
  configuration := req.configuration.map fun config =>
    { acceptedOutputModes := config.acceptedOutputModes
      taskPushNotificationConfig :=
        config.taskPushNotificationConfig.map TaskPushNotificationConfig.toProto
      historyLength := config.historyLength
      returnImmediately := config.returnImmediately }
  metadata := req.metadata.map hashmapToStruct

/-- The request that `GrpcTransport::cancel_task` makes. -/
def buildCancelRequest (req : CancelTaskRequest) : Proto.CancelTaskRequest where
  tenant := req.tenant.getD ""
  id := req.id
  metadata := req.metadata.map hashmapToStruct

end

/-! ### What the server makes of it -/

/-- `tonic::Status`. -/
inductive GrpcStatus
  | invalidArgument (message : String)
  | internal (message : String)
  deriving DecidableEq

/-- What a method of `GrpcServiceImpl` makes of the error of its handler. -/
def A2AError.toGrpcStatus (e : A2AError) : GrpcStatus := .internal e.display

/-- `SendMessageRequest::new`. -/
def SendMessageRequest.new (message : Message) : SendMessageRequest where
  tenant := none
  message := message
  configuration := none
  metadata := none

/-- `convert_send_message_request`. -/
def convertSendMessageRequest [ProtoEnum Proto.Role] (req : Proto.SendMessageRequest) :
    Except GrpcStatus SendMessageRequest :=
  match req.message with
  | none => .error (.invalidArgument "message is required")
  | some message =>
    let nativeReq := SendMessageRequest.new (.ofProto message)
    let nativeReq := match req.configuration with
      | some config =>
        { nativeReq with configuration := some {
            returnImmediately := config.returnImmediately
            acceptedOutputModes := config.acceptedOutputModes
            historyLength := config.historyLength
            taskPushNotificationConfig :=
              config.taskPushNotificationConfig.map TaskPushNotificationConfig.ofProto } }
      | none => nativeReq
    .ok (match req.metadata with
      | some metadata => { nativeReq with metadata := some (structToHashmap metadata) }
      | none => nativeReq)

/-- The request that `GrpcServiceImpl::cancel_task` makes. -/
def convertCancelTaskRequest (req : Proto.CancelTaskRequest) : CancelTaskRequest where
  tenant := noneIfEmpty req.tenant
  id := req.id
  metadata := none

/-! ### There -/

/-- What holds of the optional strings and the values of a request. -/
structure SendMessageRequest.All (S : Option String → Prop) (J : Json → Prop)
    (r : SendMessageRequest) : Prop where
  tenant : S r.tenant
  message : r.message.All S J
  config : ∀ config ∈ r.configuration, ∀ c ∈ config.taskPushNotificationConfig, c.All S
  metadata : AllValues J r.metadata

structure CancelTaskRequest.All (S : Option String → Prop) (J : Json → Prop)
    (r : CancelTaskRequest) : Prop where
  tenant : S r.tenant
  metadata : AllValues J r.metadata

/-- A value without a number. -/
abbrev Json.NoNumbers (j : Json) : Prop := j.Over fun _ => False

theorem Json.NoNumbers.held {j : Json} (h : j.NoNumbers) : j.Held := h.mono fun _ => False.elim

theorem Json.NoNumbers.withF64 [F64] {j : Json} (h : j.NoNumbers) : j.withF64 = j :=
  (Over.mono (fun _ => False.elim) h).mapNumbers_eq_self

/-- What is copied of a message. -/
theorem convertSendMessageRequest_of_message [ProtoEnum Proto.Role] {req : Proto.SendMessageRequest}
    {message : Proto.Message} (h : req.message = some message) :
    convertSendMessageRequest req = .ok {
      tenant := none
      message := .ofProto message
      configuration := req.configuration.map fun config =>
        { returnImmediately := config.returnImmediately
          acceptedOutputModes := config.acceptedOutputModes
          historyLength := config.historyLength
          taskPushNotificationConfig :=
            config.taskPushNotificationConfig.map TaskPushNotificationConfig.ofProto }
      metadata := req.metadata.map structToHashmap } := by
  rw [convertSendMessageRequest, h]
  cases req.configuration <;> cases req.metadata <;> rfl

/-- **The handler is given the request with no tenant.** -/
theorem convertSendMessageRequest_buildSendRequest [F64] [LawfulF64] [ProtoEnum Proto.Role]
    [LawfulProtoEnum Proto.Role] {r : SendMessageRequest} (h : r.All Filled Json.NoNumbers) :
    convertSendMessageRequest (buildSendRequest r) = .ok { r with tenant := none } := by
  have hmessage : Message.ofProto r.message.toProto = r.message := by
    rw [Message.ofProto_toProto (h.message.mono fun _ hj => hj.held)]
    exact (h.message.mono fun _ hj => hj.withF64).mapJson_eq_self
  have hmetadata : (r.metadata.map hashmapToStruct).map structToHashmap = r.metadata := by
    rw [metadata_round_trip (h.metadata.mono fun _ hj => hj.held)]
    exact mapValues_eq_self_of_all (h.metadata.mono fun _ hj => hj.withF64)
  have hpush : ∀ config ∈ r.configuration,
      (config.taskPushNotificationConfig.map TaskPushNotificationConfig.toProto).map
        TaskPushNotificationConfig.ofProto = config.taskPushNotificationConfig := by
    intro config hconfig
    cases hc : config.taskPushNotificationConfig with
    | none => rfl
    | some c => exact congrArg some (h.config config hconfig c hc).ofProto_toProto
  rw [convertSendMessageRequest_of_message rfl, hmessage]
  cases hconfig : r.configuration with
  | none => simp [buildSendRequest, hmetadata, hconfig]
  | some config => simp only [buildSendRequest, hmetadata, hconfig, Option.map_some,
      hpush config hconfig]

/-- **The handler is given the request with no metadata.** -/
theorem convertCancelTaskRequest_buildCancelRequest [F64] {r : CancelTaskRequest}
    (h : r.All Filled Json.NoNumbers) :
    convertCancelTaskRequest (buildCancelRequest r) = { r with metadata := none } := by
  rw [convertCancelTaskRequest, buildCancelRequest, noneIfEmpty_getD h.tenant]

/-- **A request is handed over whole exactly when it has no field that is not copied.** -/
theorem requests_carried_iff [F64] [LawfulF64] [ProtoEnum Proto.Role] [LawfulProtoEnum Proto.Role]
    {r : SendMessageRequest} {c : CancelTaskRequest} (hr : r.All Filled Json.NoNumbers)
    (hc : c.All Filled Json.NoNumbers) :
    (convertSendMessageRequest (buildSendRequest r) = .ok r ↔ r.tenant = none) ∧
      (convertCancelTaskRequest (buildCancelRequest c) = c ↔ c.metadata = none) := by
  rw [convertSendMessageRequest_buildSendRequest hr, convertCancelTaskRequest_buildCancelRequest hc,
    Except.ok.injEq]
  refine ⟨⟨fun h => ?_, fun h => ?_⟩, fun h => ?_, fun h => ?_⟩
  · rw [← h]
  · rw [← h]
  · rw [← h]
  · rw [← h]

/-- A greeting from a tenant. -/
def tenantRequest (tenant : Option String) : SendMessageRequest where
  tenant := tenant
  message := .new "m1" .user [.text "hello"]
  configuration := some ⟨["text/plain"], none, some 10, false⟩
  metadata := none

/-- A cancellation that says why. -/
def cancelRequest (metadata : Option Metadata) : CancelTaskRequest := ⟨some "acme", "t1", metadata⟩

theorem all_tenantRequest {tenant : Option String} (h : Filled tenant) :
    (tenantRequest tenant).All Filled Json.NoNumbers where
  tenant := h
  message := ⟨nofun, nofun, fun p hp => List.mem_singleton.mp hp ▸ ⟨nofun, nofun, nofun, nofun⟩,
    nofun⟩
  config config hconfig c hc := by
    obtain rfl := Option.some.inj hconfig
    cases hc
  metadata := nofun

theorem requests_carried_iff_hello :
    letI := oneFloat
    letI := roleNumbers
    convertSendMessageRequest (buildSendRequest (tenantRequest none)) = .ok (tenantRequest none) ∧
      convertCancelTaskRequest (buildCancelRequest (cancelRequest none)) = cancelRequest none := by
  let := oneFloat
  let := roleNumbers
  have := lawful_oneFloat
  have := lawful_roleNumbers
  have hr : (tenantRequest none).All Filled Json.NoNumbers := all_tenantRequest nofun
  have h := requests_carried_iff hr (c := cancelRequest none) ⟨by decide, nofun⟩
  exact ⟨h.1.mpr rfl, h.2.mpr rfl⟩

/-- The tenant of the one request and the metadata of the other do not arrive. -/
theorem acme_not_carried :
    letI := oneFloat
    letI := roleNumbers
    convertSendMessageRequest (buildSendRequest (tenantRequest (some "acme"))) =
        .ok (tenantRequest none) ∧ tenantRequest none ≠ tenantRequest (some "acme") ∧
      convertCancelTaskRequest (buildCancelRequest (cancelRequest (some ∅))) = cancelRequest none ∧
      cancelRequest none ≠ cancelRequest (some ∅) := by
  refine ⟨rfl, fun h => ?_, rfl, fun h => ?_⟩
  · exact absurd (congrArg SendMessageRequest.tenant h) nofun
  · exact absurd (congrArg CancelTaskRequest.metadata h) nofun

end Ra2a
