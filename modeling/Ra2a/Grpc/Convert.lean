import Ra2a.Grpc.Value
import Ra2a.Types.Request

/-!
# Native records and protobuf records

The `From` implementations of `grpc/convert.rs`.  An optional string that is `None` is
the empty string in protobuf, and the empty string comes back as `None`.  A timestamp
is a text on the one side, and seconds and nanoseconds on the other.

A task that comes back from protobuf has floats for numbers, and its timestamp read
and printed again (`Task.ofProto_toProto`).
-/

namespace Ra2a

open SortedMap Proto

/-- `none_if_empty`. -/
def noneIfEmpty (s : String) : Option String := if s.isEmpty then none else some s

theorem noneIfEmpty_getD {o : Option String} (h : o ≠ some "") : noneIfEmpty (o.getD "") = o := by
  cases o with
  | none => rfl
  | some s =>
    have hs : s ≠ "" := fun hs => h (congrArg some hs)
    rw [Option.getD_some, noneIfEmpty, String.isEmpty_iff.not.mpr hs |> if_neg]

theorem noneIfEmpty_ne (s : String) : noneIfEmpty s ≠ some "" := by
  rw [noneIfEmpty]
  split_ifs with h
  · nofun
  · intro heq
    exact h (String.isEmpty_iff.mpr (Option.some.inj heq))

/-! ### Enumerations -/

def TaskState.toProto : TaskState → Proto.TaskState
  | .unspecified => .unspecified
  | .submitted => .submitted
  | .working => .working
  | .completed => .completed
  | .failed => .failed
  | .canceled => .canceled
  | .inputRequired => .inputRequired
  | .rejected => .rejected
  | .authRequired => .authRequired

def TaskState.ofProto : Proto.TaskState → TaskState
  | .submitted => .submitted
  | .working => .working
  | .completed => .completed
  | .failed => .failed
  | .canceled => .canceled
  | .inputRequired => .inputRequired
  | .rejected => .rejected
  | .authRequired => .authRequired
  | .unspecified => .unspecified

/-- `From<i32>`: a number that is unknown is `Unspecified`. -/
def TaskState.ofI32 [ProtoEnum Proto.TaskState] (value : Int32) : TaskState :=
  match (ProtoEnum.tryFrom value : Option Proto.TaskState) with
  | some state => .ofProto state
  | none => .unspecified

def Role.toProto : Role → Proto.Role
  | .unspecified => .unspecified
  | .user => .user
  | .agent => .agent

def Role.ofProto : Proto.Role → Role
  | .user => .user
  | .agent => .agent
  | .unspecified => .unspecified

/-- `From<i32>`: a number that is unknown is `Unspecified`. -/
def Role.ofI32 [ProtoEnum Proto.Role] (value : Int32) : Role :=
  match (ProtoEnum.tryFrom value : Option Proto.Role) with
  | some role => .ofProto role
  | none => .unspecified

theorem TaskState.ofI32_toI32 [ProtoEnum Proto.TaskState] [LawfulProtoEnum Proto.TaskState]
    (state : TaskState) : ofI32 (ProtoEnum.toI32 state.toProto) = state := by
  rw [ofI32, LawfulProtoEnum.tryFrom_toI32]
  cases state <;> rfl

theorem Role.ofI32_toI32 [ProtoEnum Proto.Role] [LawfulProtoEnum Proto.Role] (role : Role) :
    ofI32 (ProtoEnum.toI32 role.toProto) = role := by
  rw [ofI32, LawfulProtoEnum.tryFrom_toI32]
  cases role <;> rfl

/-! ### Timestamps -/

/-- `i32::try_from`, of a `u32`. -/
def i32TryFrom (n : UInt32) : Option Int32 := if n.toNat < 2 ^ 31 then some n.toInt32 else none

/-- `u32::try_from`, of an `i32`. -/
def u32TryFrom (n : Int32) : Option UInt32 := if 0 ≤ n then some n.toUInt32 else none

section Timestamps

variable [Chrono]

/-- The timestamp of a text, if the text has one. -/
def timestampOfText (ts : String) : Option Timestamp :=
  (Chrono.parseFromRfc3339 ts).map fun dt =>
    { seconds := dt.timestamp, nanos := (i32TryFrom dt.timestampSubsecNanos).getD 0 }

/-- The text of a timestamp, which is empty if there is no such date. -/
def textOfTimestamp (ts : Timestamp) : String :=
  ((Chrono.fromTimestamp ts.seconds ((u32TryFrom ts.nanos).getD 0)).map Chrono.toRfc3339).getD ""

/-- What comes back of a text. -/
def reread (ts : String) : Option String := (timestampOfText ts).map textOfTimestamp

end Timestamps

/-! ### Tasks and what they are made of -/

section

variable [F64]

def PartContent.toProto : PartContent → Content
  | .text s => .text s
  | .raw bytes => .raw bytes
  | .url s => .url s
  | .data value => .data (jsonToProstValue value)

def Part.toProto (part : Part) : Proto.Part where
  filename := part.filename.getD ""
  mediaType := part.mediaType.getD ""
  metadata := part.metadata.map hashmapToStruct
  content := some part.content.toProto

end

/-- The content of a part; what is unset is an empty text. -/
def PartContent.ofProto : Option Content → PartContent
  | some (.text s) => .text s
  | some (.raw bytes) => .raw bytes
  | some (.url s) => .url s
  | some (.data value) => .data ((prostValueToJson value).getD .null)
  | none => .text ""

def Part.ofProto (part : Proto.Part) : Part where
  content := .ofProto part.content
  metadata := part.metadata.map structToHashmap
  filename := noneIfEmpty part.filename
  mediaType := noneIfEmpty part.mediaType

section

variable [F64] [ProtoEnum Proto.Role]

def Message.toProto (msg : Message) : Proto.Message where
  messageId := msg.id
  contextId := msg.contextId.getD ""
  taskId := msg.taskId.getD ""
  role := ProtoEnum.toI32 msg.role.toProto
  parts := msg.parts.map Part.toProto
  metadata := msg.metadata.map hashmapToStruct
  extensions := msg.extensions
  referenceTaskIds := msg.referenceTaskIds

omit [F64] in
/-- The message, with no use of the identifier that `Message::new` draws. -/
def Message.ofProto (msg : Proto.Message) : Message where
  id := msg.messageId
  contextId := noneIfEmpty msg.contextId
  taskId := noneIfEmpty msg.taskId
  role := .ofI32 msg.role
  parts := msg.parts.map Part.ofProto
  metadata := msg.metadata.map structToHashmap
  extensions := msg.extensions
  referenceTaskIds := msg.referenceTaskIds

omit [ProtoEnum Proto.Role] in
def Artifact.toProto (artifact : Artifact) : Proto.Artifact where
  artifactId := artifact.artifactId
  name := artifact.name.getD ""
  description := artifact.description.getD ""
  parts := artifact.parts.map Part.toProto
  metadata := artifact.metadata.map hashmapToStruct
  extensions := artifact.extensions

omit [F64] [ProtoEnum Proto.Role] in
def Artifact.ofProto (artifact : Proto.Artifact) : Artifact where
  artifactId := artifact.artifactId
  name := noneIfEmpty artifact.name
  description := noneIfEmpty artifact.description
  parts := artifact.parts.map Part.ofProto
  metadata := artifact.metadata.map structToHashmap
  extensions := artifact.extensions

variable [ProtoEnum Proto.TaskState] [Chrono]

def TaskStatus.toProto (status : TaskStatus) : Proto.TaskStatus where
  state := ProtoEnum.toI32 status.state.toProto
  message := status.message.map Message.toProto
  timestamp := status.timestamp.bind timestampOfText

omit [F64] in
def TaskStatus.ofProto (status : Proto.TaskStatus) : TaskStatus where
  state := .ofI32 status.state
  message := status.message.map Message.ofProto
  timestamp := status.timestamp.map textOfTimestamp

def Task.toProto (task : Task) : Proto.Task where
  id := task.id
  contextId := task.contextId
  status := some task.status.toProto
  artifacts := task.artifacts.map Artifact.toProto
  history := task.history.map Message.toProto
  metadata := task.metadata.map hashmapToStruct

omit [F64] in
/-- The task; a status that is unset is stamped with the clock. -/
def Task.ofProto (now : String) (task : Proto.Task) : Task :=
  let status := match task.status with
    | some status => .ofProto status
    | none => .new .unspecified now
  { Task.new task.id task.contextId now with
    status := status
    artifacts := task.artifacts.map Artifact.ofProto
    history := task.history.map Message.ofProto
    metadata := task.metadata.map structToHashmap }

end

/-! ### There and back -/

section

variable [F64] [LawfulF64]

/-- The value with its numbers as floats. -/
abbrev Json.withF64 (j : Json) : Json := j.mapNumbers Number.toF64

/-- An optional string that is not empty. -/
abbrev Filled (o : Option String) : Prop := o ≠ some ""

/-- A value `serde_json` can hold. -/
abbrev Json.Held (j : Json) : Prop := j.Over Number.Finite

theorem metadata_round_trip {metadata : Option Metadata} (h : AllValues Json.Held metadata) :
    (metadata.map hashmapToStruct).map structToHashmap = metadata.map (mapValues Json.withF64) := by
  cases metadata with
  | none => rfl
  | some m =>
    simp only [Option.map_some]
    rw [structToHashmap_hashmapToStruct (h m rfl)]

omit [F64] [LawfulF64] in
theorem map_map_eq {α β γ : Type} {f : α → β} {g : β → γ} {h : α → γ} {as : List α}
    (hg : ∀ a ∈ as, g (f a) = h a) : (as.map f).map g = as.map h := by
  rw [List.map_map]
  exact List.map_congr_left hg

theorem Part.ofProto_toProto {p : Part} (h : p.All Filled Json.Held) :
    ofProto p.toProto = p.mapJson Json.withF64 := by
  have hcontent : PartContent.ofProto (some p.content.toProto) =
      p.content.mapJson Json.withF64 := by
    cases hc : p.content with
    | data v =>
      rw [PartContent.toProto, PartContent.ofProto,
        prostValueToJson_jsonToProstValue (h.data v hc)]
      rfl
    | _ => rfl
  rw [ofProto, toProto, hcontent, metadata_round_trip h.metadata, noneIfEmpty_getD h.filename,
    noneIfEmpty_getD h.mediaType]
  rfl

theorem Artifact.ofProto_toProto {a : Artifact} (h : a.All Filled Json.Held) :
    ofProto a.toProto = a.mapJson Json.withF64 := by
  rw [ofProto, toProto, noneIfEmpty_getD h.name, noneIfEmpty_getD h.description,
    map_map_eq fun p hp => Part.ofProto_toProto (h.parts p hp), metadata_round_trip h.metadata]
  rfl

variable [ProtoEnum Proto.Role] [LawfulProtoEnum Proto.Role]

theorem Message.ofProto_toProto {m : Message} (h : m.All Filled Json.Held) :
    ofProto m.toProto = m.mapJson Json.withF64 := by
  rw [ofProto, toProto, noneIfEmpty_getD h.contextId, noneIfEmpty_getD h.taskId, Role.ofI32_toI32,
    map_map_eq fun p hp => Part.ofProto_toProto (h.parts p hp), metadata_round_trip h.metadata]
  rfl

variable [ProtoEnum Proto.TaskState] [LawfulProtoEnum Proto.TaskState] [Chrono]

theorem TaskStatus.ofProto_toProto {s : TaskStatus}
    (h : ∀ m ∈ s.message, m.All Filled Json.Held) :
    ofProto s.toProto = { s.mapJson Json.withF64 with timestamp := s.timestamp.bind reread } := by
  have hmessage : (s.message.map Message.toProto).map Message.ofProto =
      s.message.map (Message.mapJson Json.withF64) := by
    cases hm : s.message with
    | none => rfl
    | some m =>
      simp only [Option.map_some]
      rw [Message.ofProto_toProto (h m hm)]
  have htimestamp : (s.timestamp.bind timestampOfText).map textOfTimestamp =
      s.timestamp.bind reread := by
    cases s.timestamp <;> rfl
  rw [ofProto, toProto, hmessage, htimestamp, TaskState.ofI32_toI32]
  rfl

/-- The task with its timestamp as it comes back. -/
def Task.reread (t : Task) : Task :=
  { t with status := { t.status with timestamp := t.status.timestamp.bind Ra2a.reread } }

/-- **A task comes back with floats for numbers and its timestamp read again.** -/
theorem Task.ofProto_toProto {t : Task} (h : t.All Filled Json.Held) (now : String) :
    ofProto now t.toProto = (t.mapJson Json.withF64).reread := by
  simp only [ofProto, toProto]
  rw [TaskStatus.ofProto_toProto h.message,
    map_map_eq fun a ha => Artifact.ofProto_toProto (h.artifacts a ha),
    map_map_eq fun m hm => Message.ofProto_toProto (h.history m hm), metadata_round_trip h.metadata]
  rfl

end

end Ra2a
