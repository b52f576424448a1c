import Ra2a.Types.Json

/-!
# Messages, artifacts and tasks

The records of `types/message.rs`, `types/part.rs`, `types/artifact.rs` and
`types/task.rs`.  The four identifier types of `types/id.rs` are newtypes over
`String` that dereference to it, so each is an abbreviation here.

Two constructors of the source read the outside world.  `TaskStatus::new`
stamps the clock and `Message::new` draws an identifier, so both take what they
read as an argument: `now` is the RFC 3339 text of the clock, `id` the drawn
UUID.
-/

namespace Ra2a

abbrev TaskId := String
abbrev ContextId := String
abbrev MessageId := String
abbrev ArtifactId := String

/-! ### Messages -/

inductive PartContent
  | text (s : String)
  | raw (bytes : List UInt8)
  | url (s : String)
  | data (v : Json)
  deriving DecidableEq

structure Part where
  content : PartContent
  metadata : Option Metadata
  filename : Option String
  mediaType : Option String
  deriving DecidableEq

/-- `Part::text`. -/
def Part.text (s : String) : Part := ⟨.text s, none, none, none⟩

inductive Role
  | unspecified
  | user
  | agent
  deriving DecidableEq

structure Message where
  id : MessageId
  contextId : Option String
  taskId : Option TaskId
  role : Role
  parts : List Part
  metadata : Option Metadata
  extensions : List String
  referenceTaskIds : List TaskId
  deriving DecidableEq

/-- `Message::new`, with the identifier it draws. -/
def Message.new (id : MessageId) (role : Role) (parts : List Part) : Message where
  id := id
  contextId := none
  taskId := none
  role := role
  parts := parts
  metadata := none
  extensions := []
  referenceTaskIds := []

/-- `Message::agent`. -/
def Message.agent (id : MessageId) (parts : List Part) : Message := .new id .agent parts

structure Artifact where
  artifactId : ArtifactId
  name : Option String
  description : Option String
  parts : List Part
  metadata : Option Metadata
  extensions : List String
  deriving DecidableEq

/-! ### Task states -/

inductive TaskState
  | unspecified
  | submitted
  | working
  | completed
  | failed
  | canceled
  | inputRequired
  | rejected
  | authRequired
  deriving DecidableEq

/-- The states after which the source permits no further change to the task. -/
def TaskState.isTerminal : TaskState → Bool
  | .completed | .failed | .canceled | .rejected => true
  | _ => false

/-- The name `{:?}` prints. -/
def TaskState.debug : TaskState → String
  | .unspecified => "Unspecified"
  | .submitted => "Submitted"
  | .working => "Working"
  | .completed => "Completed"
  | .failed => "Failed"
  | .canceled => "Canceled"
  | .inputRequired => "InputRequired"
  | .rejected => "Rejected"
  | .authRequired => "AuthRequired"

structure TaskStatus where
  state : TaskState
  message : Option Message
  timestamp : Option String
  deriving DecidableEq

/-- `TaskStatus::new`, at the clock reading `now`. -/
def TaskStatus.new (state : TaskState) (now : String) : TaskStatus := ⟨state, none, some now⟩

/-- `TaskStatus::with_message`. -/
def TaskStatus.withMessage (state : TaskState) (message : Message) (now : String) : TaskStatus :=
  ⟨state, some message, some now⟩

/-- `TaskStatus::submitted`, the default status. -/
def TaskStatus.submitted (now : String) : TaskStatus := .new .submitted now

/-- `TaskStatus::failed`: the error text becomes an agent message. -/
def TaskStatus.failed (error : String) (now id : String) : TaskStatus :=
  .withMessage .failed (.agent id [.text error]) now

/-! ### Tasks -/

structure Task where
  id : TaskId
  contextId : ContextId
  status : TaskStatus
  artifacts : List Artifact
  history : List Message
  metadata : Option Metadata
  deriving DecidableEq

namespace Task

/-- `Task::new`. -/
def new (id : TaskId) (contextId : ContextId) (now : String) : Task where
  id := id
  contextId := contextId
  status := .submitted now
  artifacts := []
  history := []
  metadata := none

/-- `Task::is_terminal`. -/
def isTerminal (t : Task) : Bool := t.status.state.isTerminal

/-- The task with another status. -/
def withStatus (t : Task) (s : TaskStatus) : Task := { t with status := s }

@[simp] theorem withStatus_id (t : Task) (s : TaskStatus) : (t.withStatus s).id = t.id := rfl

@[simp] theorem withStatus_status (t : Task) (s : TaskStatus) : (t.withStatus s).status = s := rfl

@[simp] theorem withStatus_artifacts (t : Task) (s : TaskStatus) :
    (t.withStatus s).artifacts = t.artifacts := rfl

@[simp] theorem withStatus_withStatus (t : Task) (s s' : TaskStatus) :
    (t.withStatus s).withStatus s' = t.withStatus s' := rfl

theorem withStatus_eq_self {t : Task} {s : TaskStatus} : t.withStatus s = t ↔ s = t.status := by
  constructor
  · intro h
    rw [← withStatus_status t s, h]
  · rintro rfl
    rfl

end Task

end Ra2a
