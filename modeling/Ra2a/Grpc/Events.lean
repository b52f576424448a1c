import Ra2a.Error
import Ra2a.Grpc.Requests
import Ra2a.Types.Event

/-!
# Event streams over gRPC

`spawn_event_stream` of `grpc/server.rs` sends what it has a conversion for: the two
kinds of updates.  A task or a message is passed over, and at an error the loop ends,
with nothing said.  `GrpcEventStream` of `client/grpc.rs` turns what arrives back into
events.  So the client sees the stream as it was exactly when it is one of updates
(`grpc_stream_iff`).

The client reads to the end, and the channel between the two loses nothing.
-/

namespace Ra2a

open Proto

section

variable [F64] [ProtoEnum Proto.Role] [ProtoEnum Proto.TaskState] [Chrono]

/-! ### The server -/

/-- `convert_status_update_to_response`. -/
def convertStatusUpdateToResponse (update : TaskStatusUpdateEvent) : StreamResponse :=
  ⟨some (.statusUpdate {
    taskId := update.taskId
    contextId := update.contextId
    status := some update.status.toProto
    metadata := update.metadata.map hashmapToStruct })⟩

omit [ProtoEnum Proto.Role] [ProtoEnum Proto.TaskState] [Chrono] in
/-- `convert_artifact_update_to_response`. -/
def convertArtifactUpdateToResponse (update : TaskArtifactUpdateEvent) : StreamResponse :=
  ⟨some (.artifactUpdate {
    taskId := update.taskId
    contextId := update.contextId
    artifact := some update.artifact.toProto
    append := update.append
    lastChunk := update.lastChunk
    metadata := update.metadata.map hashmapToStruct })⟩

/-- What `spawn_event_stream` sends. -/
def spawnEventStream : List (Except A2AError Event) → List (Except GrpcStatus StreamResponse)
  | [] => []
  | .ok (.statusUpdate update) :: stream =>
    .ok (convertStatusUpdateToResponse update) :: spawnEventStream stream
  | .ok (.artifactUpdate update) :: stream =>
    .ok (convertArtifactUpdateToResponse update) :: spawnEventStream stream
  | .ok (.task _) :: stream => spawnEventStream stream
  | .ok (.message _) :: stream => spawnEventStream stream
  | .error _ :: _ => []

/-! ### The client -/

omit [F64] in
/-- `convert_stream_response`; an artifact that is unset is made with a new identifier. -/
def convertStreamResponse (now newId : String) (response : StreamResponse) : Option Event :=
  match response.payload with
  | some (.statusUpdate update) =>
    some (.statusUpdate {
      taskId := update.taskId
      contextId := update.contextId
      status := match update.status with
        | some status => .ofProto status
        | none => .new .unspecified now
      metadata := update.metadata.map structToHashmap })
  | some (.artifactUpdate update) =>
    some (.artifactUpdate {
      taskId := update.taskId
      contextId := update.contextId
      artifact := match update.artifact with
        | some artifact => .ofProto artifact
        | none => ⟨newId, none, none, [], none, []⟩
      append := update.append
      lastChunk := update.lastChunk
      metadata := update.metadata.map structToHashmap })
  | _ => none

omit [F64] in
/-- The items of a `GrpcEventStream`: a response without an event is passed over. -/
def grpcEventStream (now newId : String) (text : GrpcStatus → String)
    (inner : List (Except GrpcStatus StreamResponse)) : List (Except A2AError Event) :=
  inner.filterMap fun
    | .ok response => (convertStreamResponse now newId response).map .ok
    | .error e => some (.error (.other (text e)))

/-! ### What the client sees -/

/-- An event after its fields are converted there and back. -/
def Event.converted (now : String) : Event → Event
  | .task t => .task (.ofProto now t.toProto)
  | .message m => .message (.ofProto m.toProto)
  | .statusUpdate e =>
    .statusUpdate { e with
      status := .ofProto e.status.toProto
      metadata := (e.metadata.map hashmapToStruct).map structToHashmap }
  | .artifactUpdate e =>
    .artifactUpdate { e with
      artifact := .ofProto e.artifact.toProto
      metadata := (e.metadata.map hashmapToStruct).map structToHashmap }

/-- An item as it should be seen: the event, but for the conversions, or some error. -/
def SeenAs (now : String) : Except A2AError Event → Except A2AError Event → Prop
  | .ok event, seen => seen = .ok (event.converted now)
  | .error _, seen => ∃ e, seen = .error e

omit [F64] [ProtoEnum Proto.Role] [ProtoEnum Proto.TaskState] [Chrono] in
/-- An item that is sent. -/
def IsUpdate : Except A2AError Event → Bool
  | .ok (.statusUpdate _) | .ok (.artifactUpdate _) => true
  | _ => false

/-- What the client sees of a stream. -/
def grpcView (now newId : String) (text : GrpcStatus → String)
    (stream : List (Except A2AError Event)) : List (Except A2AError Event) :=
  grpcEventStream now newId text (spawnEventStream stream)

variable {now newId : String} {text : GrpcStatus → String} {item : Except A2AError Event}
  {stream : List (Except A2AError Event)}

/-- An update is the next item that is seen. -/
theorem grpcView_cons_update (now newId : String) (text : GrpcStatus → String)
    (stream : List (Except A2AError Event)) (h : IsUpdate item = true) :
    ∃ seen, SeenAs now item seen ∧
      grpcView now newId text (item :: stream) = seen :: grpcView now newId text stream := by
  rcases item with e | t | m | e | e
  · cases h
  · cases h
  · cases h
  · exact ⟨_, rfl, rfl⟩
  · exact ⟨_, rfl, rfl⟩

/-- Anything else is passed over, or is the end. -/
theorem grpcView_cons_of_not (now newId : String) (text : GrpcStatus → String)
    (stream : List (Except A2AError Event)) (h : ¬ IsUpdate item = true) :
    grpcView now newId text (item :: stream) = grpcView now newId text stream ∨
      grpcView now newId text (item :: stream) = [] := by
  rcases item with e | t | m | e | e
  · exact Or.inr rfl
  · exact Or.inl rfl
  · exact Or.inl rfl
  · exact absurd rfl h
  · exact absurd rfl h

/-- No more items are seen than there are. -/
theorem length_grpcView_le : (grpcView now newId text stream).length ≤ stream.length := by
  induction stream with
  | nil => exact Nat.le_refl 0
  | cons item stream ih =>
    rw [List.length_cons]
    by_cases h : IsUpdate item = true
    · obtain ⟨seen, -, hview⟩ := grpcView_cons_update now newId text stream h
      rw [hview, List.length_cons]
      omega
    · rcases grpcView_cons_of_not now newId text stream h with hview | hview <;> rw [hview]
      · omega
      · exact Nat.zero_le _

/-- Fewer are seen where one is not an update. -/
theorem length_grpcView_cons_lt (h : ¬ IsUpdate item = true) :
    (grpcView now newId text (item :: stream)).length < (item :: stream).length := by
  have hle : (grpcView now newId text stream).length ≤ stream.length := length_grpcView_le
  rw [List.length_cons]
  rcases grpcView_cons_of_not now newId text stream h with hview | hview <;> rw [hview]
  · omega
  · exact Nat.succ_pos _

/-- **The client sees each item in its place exactly when all are updates.** -/
theorem grpc_stream_iff (now newId : String) (text : GrpcStatus → String)
    (stream : List (Except A2AError Event)) :
    List.Forall₂ (SeenAs now) stream (grpcView now newId text stream) ↔
      ∀ item ∈ stream, IsUpdate item = true := by
  induction stream with
  | nil => exact ⟨fun _ => by simp, fun _ => .nil⟩
  | cons item stream ih =>
    rw [List.forall_mem_cons]
    by_cases h : IsUpdate item = true
    · obtain ⟨seen, hseen, hview⟩ := grpcView_cons_update now newId text stream h
      rw [hview, List.forall₂_cons, ih]
      exact ⟨fun hall => ⟨h, hall.2⟩, fun hall => ⟨hseen, hall.2⟩⟩
    · refine ⟨fun hall => ?_, fun hall => absurd hall.1 h⟩
      have hlt : (grpcView now newId text (item :: stream)).length < (item :: stream).length :=
        length_grpcView_cons_lt h
      exact absurd hall.length_eq hlt.ne'

end

/-- A stream that is broken off after a task. -/
def brokenStream : List (Except A2AError Event) :=
  [.ok (.statusUpdate ⟨"t1", "c1", ⟨.working, none, none⟩, none⟩),
    .ok (.task (.new "t1" "c1" "2024-01-01T00:00:00+00:00")), .error (.other "lost")]

/-- The client sees a stream of one item, and that it is complete. -/
theorem brokenStream_completed :
    letI := oneFloat
    letI := roleNumbers
    letI := stateNumbers
    letI := twoDates
    grpcView "" "" (fun _ => "") brokenStream =
        [.ok (.statusUpdate ⟨"t1", "c1", ⟨.working, none, none⟩, none⟩)] ∧
      ¬ List.Forall₂ (SeenAs "") brokenStream (grpcView "" "" (fun _ => "") brokenStream) := by
  refine ⟨rfl, fun h => ?_⟩
  cases h.length_eq

end Ra2a
