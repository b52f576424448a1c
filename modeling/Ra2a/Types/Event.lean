import Ra2a.Types.Task

/-!
# Events

`types/event.rs`: what an executor writes to its queue, and what
`message/send` answers with.

`Task.applyArtifactUpdate` of `types/task.rs` is here as well, because it reads
an artifact event.
-/

namespace Ra2a

structure TaskStatusUpdateEvent where
  taskId : TaskId
  contextId : ContextId
  status : TaskStatus
  metadata : Option Metadata
  deriving DecidableEq

structure TaskArtifactUpdateEvent where
  taskId : TaskId
  contextId : ContextId
  artifact : Artifact
  append : Bool
  lastChunk : Bool
  metadata : Option Metadata
  deriving DecidableEq

/-- `StreamResponse`, under the name the server uses for it. -/
inductive Event
  | task (t : Task)
  | message (m : Message)
  | statusUpdate (e : TaskStatusUpdateEvent)
  | artifactUpdate (e : TaskArtifactUpdateEvent)
  deriving DecidableEq

namespace Event

/-- `StreamResponse::task_id`: a message without a task has the empty id. -/
def taskId : Event → TaskId
  | task t => t.id
  | message m => m.taskId.getD ""
  | statusUpdate e => e.taskId
  | artifactUpdate e => e.taskId

/-- `StreamResponse::context_id`. -/
def contextId : Event → String
  | task t => t.contextId
  | message m => m.contextId.getD ""
  | statusUpdate e => e.contextId
  | artifactUpdate e => e.contextId

/-- `StreamResponse::is_terminal`. -/
def isTerminal : Event → Bool
  | task t => t.isTerminal
  | message _ => true
  | statusUpdate e => e.status.state.isTerminal
  | artifactUpdate _ => false

end Event

/-- The answer to a non-streaming `message/send`. -/
inductive SendMessageResponse
  | task (t : Task)
  | message (m : Message)
  deriving DecidableEq

/-- `Task::apply_artifact_update`: a chunk that does not append replaces the
artifact of its id or is added at the end, one that appends extends the parts of
an artifact that is there and is dropped otherwise. -/
def Task.applyArtifactUpdate (t : Task) (event : TaskArtifactUpdateEvent) : Task :=
  let existingIdx := t.artifacts.findIdx? (·.artifactId = event.artifact.artifactId)
  if !event.append then
    match existingIdx with
    | some i => { t with artifacts := t.artifacts.set i event.artifact }
    | none => { t with artifacts := t.artifacts ++ [event.artifact] }
  else
    match existingIdx with
    | some i =>
      { t with artifacts :=
          t.artifacts.modify i fun a => { a with parts := a.parts ++ event.artifact.parts } }
    | none => t

end Ra2a
