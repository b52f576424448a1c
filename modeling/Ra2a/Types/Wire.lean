import Ra2a.Types.Event
import Ra2a.Types.Serde

/-!
# The wire format

The `Serialize` and `Deserialize` implementations of the protocol types: the
hand-written ones of `Part`, `Role`, `TaskState`, `StreamResponse` and
`SendMessageResponse`, and the derived ones of the records between them.

Nothing is discriminated by a tag.  The content of a part, the payload of a stream
response and that of an answer are told by the name of the member they stand
under.

The base64 engine is another crate's, so it is an assumption: `Base64` has its
two functions and `LawfulBase64` says that the one undoes the other.
-/

namespace Ra2a

open SortedMap

/-- `base64::engine::general_purpose::STANDARD`. -/
class Base64 where
  encode : List UInt8 → String
  decode : String → Option (List UInt8)

class LawfulBase64 [Base64] : Prop where
  decode_encode : ∀ bytes, Base64.decode (Base64.encode bytes) = some bytes

attribute [simp] LawfulBase64.decode_encode

/-! ### Enumerations -/

def Role.asStr : Role → String
  | .unspecified => "ROLE_UNSPECIFIED"
  | .user => "ROLE_USER"
  | .agent => "ROLE_AGENT"

def Role.deserialize (j : Json) : Option Role := do
  let s : String ← Serde.deserialize j
  match s with
  | "ROLE_USER" => some .user
  | "ROLE_AGENT" => some .agent
  | "ROLE_UNSPECIFIED" | "" => some .unspecified
  | _ => none

instance : Serde Role := ⟨fun r => .string r.asStr, Role.deserialize⟩

def TaskState.asStr : TaskState → String
  | .unspecified => "TASK_STATE_UNSPECIFIED"
  | .submitted => "TASK_STATE_SUBMITTED"
  | .working => "TASK_STATE_WORKING"
  | .completed => "TASK_STATE_COMPLETED"
  | .failed => "TASK_STATE_FAILED"
  | .canceled => "TASK_STATE_CANCELED"
  | .inputRequired => "TASK_STATE_INPUT_REQUIRED"
  | .rejected => "TASK_STATE_REJECTED"
  | .authRequired => "TASK_STATE_AUTH_REQUIRED"

def TaskState.deserialize (j : Json) : Option TaskState := do
  let s : String ← Serde.deserialize j
  match s with
  | "TASK_STATE_UNSPECIFIED" | "" => some .unspecified
  | "TASK_STATE_SUBMITTED" => some .submitted
  | "TASK_STATE_WORKING" => some .working
  | "TASK_STATE_COMPLETED" => some .completed
  | "TASK_STATE_FAILED" => some .failed
  | "TASK_STATE_CANCELED" => some .canceled
  | "TASK_STATE_INPUT_REQUIRED" => some .inputRequired
  | "TASK_STATE_REJECTED" => some .rejected
  | "TASK_STATE_AUTH_REQUIRED" => some .authRequired
  | _ => none

instance : Serde TaskState := ⟨fun s => .string s.asStr, TaskState.deserialize⟩

instance : LawfulSerde Role := ⟨fun r => by cases r <;> rfl⟩

instance : LawfulSerde TaskState := ⟨fun s => by cases s <;> rfl⟩

/-! ### Parts -/

section Parts

variable [Base64]

/-- The member the content of a part is written as. -/
def PartContent.field : PartContent → List (String × Json)
  | .text s => Ra2a.field "text" s
  | .raw bytes => Ra2a.field "raw" (Base64.encode bytes)
  | .url u => Ra2a.field "url" u
  | .data v => Ra2a.field "data" v

def Part.serialize (p : Part) : Json :=
  .ofFields (p.content.field ++ fieldUnlessNone "filename" p.filename ++
    fieldUnlessNone "mediaType" p.mediaType ++ fieldUnlessNone "metadata" p.metadata)

/-- The locals of `PartVisitor::visit_map`. -/
structure PartVisitor where
  content : Option PartContent
  metadata : Option Metadata
  filename : Option String
  mediaType : Option String

/-- One turn of the loop over the members. -/
def PartVisitor.visit (p : PartVisitor) (e : String × Json) : Option PartVisitor :=
  match e.1 with
  | "text" => (deserialize e.2).map fun s => { p with content := some (.text s) }
  | "raw" => do
    let encoded ← deserialize e.2
    let bytes ← Base64.decode encoded
    return { p with content := some (.raw bytes) }
  | "url" => (deserialize e.2).map fun u => { p with content := some (.url u) }
  | "data" => (deserialize e.2).map fun v => { p with content := some (.data v) }
  | "filename" => (deserialize e.2).map fun f => { p with filename := some f }
  | "mediaType" => (deserialize e.2).map fun m => { p with mediaType := some m }
  | "metadata" => (deserialize e.2).map fun m => { p with metadata := some m }
  | _ => some p

def Part.deserialize : Json → Option Part
  | .object ms => do
    let p ← ms.foldlM PartVisitor.visit ⟨none, none, none, none⟩
    let content ← p.content
    return { content, metadata := p.metadata, filename := p.filename, mediaType := p.mediaType }
  | _ => none

instance : Serde Part := ⟨Part.serialize, Part.deserialize⟩

end Parts

/-! ### Records -/

section Records

variable [Base64]

def Message.serialize (m : Message) : Json :=
  .ofFields (field "messageId" m.id ++ fieldUnlessNone "contextId" m.contextId ++
    fieldUnlessNone "taskId" m.taskId ++ field "role" m.role ++ field "parts" m.parts ++
    fieldUnlessNone "metadata" m.metadata ++ fieldUnlessEmpty "extensions" m.extensions ++
    fieldUnlessEmpty "referenceTaskIds" m.referenceTaskIds)

def Message.deserialize (j : Json) : Option Message := do
  let ms ← j.members 5 ["messageId", "contextId", "taskId", "role", "parts", "metadata",
    "extensions", "referenceTaskIds"]
  return {
    id := ← readField (ms.lookup "messageId")
    contextId := ← readOption (ms.lookup "contextId")
    taskId := ← readOption (ms.lookup "taskId")
    role := ← readField (ms.lookup "role")
    parts := ← readField (ms.lookup "parts")
    metadata := ← readOption (ms.lookup "metadata")
    extensions := ← readDefault [] (ms.lookup "extensions")
    referenceTaskIds := ← readDefault [] (ms.lookup "referenceTaskIds") }

instance : Serde Message := ⟨Message.serialize, Message.deserialize⟩

def Artifact.serialize (a : Artifact) : Json :=
  .ofFields (field "artifactId" a.artifactId ++ fieldUnlessNone "name" a.name ++
    fieldUnlessNone "description" a.description ++ field "parts" a.parts ++
    fieldUnlessNone "metadata" a.metadata ++ fieldUnlessEmpty "extensions" a.extensions)

def Artifact.deserialize (j : Json) : Option Artifact := do
  let ms ← j.members 4 ["artifactId", "name", "description", "parts", "metadata", "extensions"]
  return {
    artifactId := ← readField (ms.lookup "artifactId")
    name := ← readOption (ms.lookup "name")
    description := ← readOption (ms.lookup "description")
    parts := ← readField (ms.lookup "parts")
    metadata := ← readOption (ms.lookup "metadata")
    extensions := ← readDefault [] (ms.lookup "extensions") }

instance : Serde Artifact := ⟨Artifact.serialize, Artifact.deserialize⟩

def TaskStatus.serialize (s : TaskStatus) : Json :=
  .ofFields (field "state" s.state ++ fieldUnlessNone "message" s.message ++
    fieldUnlessNone "timestamp" s.timestamp)

/-- The options of a status have no default, so an array must have all three. -/
def TaskStatus.deserialize (j : Json) : Option TaskStatus := do
  let ms ← j.members 3 ["state", "message", "timestamp"]
  return {
    state := ← readField (ms.lookup "state")
    message := ← readOption (ms.lookup "message")
    timestamp := ← readOption (ms.lookup "timestamp") }

instance : Serde TaskStatus := ⟨TaskStatus.serialize, TaskStatus.deserialize⟩

def Task.serialize (t : Task) : Json :=
  .ofFields (field "id" t.id ++ field "contextId" t.contextId ++ field "status" t.status ++
    fieldUnlessEmpty "artifacts" t.artifacts ++ fieldUnlessEmpty "history" t.history ++
    fieldUnlessNone "metadata" t.metadata)

def Task.deserialize (j : Json) : Option Task := do
  let ms ← j.members 3 ["id", "contextId", "status", "artifacts", "history", "metadata"]
  return {
    id := ← readField (ms.lookup "id")
    contextId := ← readField (ms.lookup "contextId")
    status := ← readField (ms.lookup "status")
    artifacts := ← readDefault [] (ms.lookup "artifacts")
    history := ← readDefault [] (ms.lookup "history")
    metadata := ← readOption (ms.lookup "metadata") }

instance : Serde Task := ⟨Task.serialize, Task.deserialize⟩

def TaskStatusUpdateEvent.serialize (e : TaskStatusUpdateEvent) : Json :=
  .ofFields (field "taskId" e.taskId ++ field "contextId" e.contextId ++
    field "status" e.status ++ fieldUnlessNone "metadata" e.metadata)

def TaskStatusUpdateEvent.deserialize (j : Json) : Option TaskStatusUpdateEvent := do
  let ms ← j.members 3 ["taskId", "contextId", "status", "metadata"]
  return {
    taskId := ← readField (ms.lookup "taskId")
    contextId := ← readField (ms.lookup "contextId")
    status := ← readField (ms.lookup "status")
    metadata := ← readOption (ms.lookup "metadata") }

instance : Serde TaskStatusUpdateEvent :=
  ⟨TaskStatusUpdateEvent.serialize, TaskStatusUpdateEvent.deserialize⟩

def TaskArtifactUpdateEvent.serialize (e : TaskArtifactUpdateEvent) : Json :=
  .ofFields (field "taskId" e.taskId ++ field "contextId" e.contextId ++
    field "artifact" e.artifact ++ fieldUnlessFalse "append" e.append ++
    fieldUnlessFalse "lastChunk" e.lastChunk ++ fieldUnlessNone "metadata" e.metadata)

def TaskArtifactUpdateEvent.deserialize (j : Json) : Option TaskArtifactUpdateEvent := do
  let ms ← j.members 3 ["taskId", "contextId", "artifact", "append", "lastChunk", "metadata"]
  return {
    taskId := ← readField (ms.lookup "taskId")
    contextId := ← readField (ms.lookup "contextId")
    artifact := ← readField (ms.lookup "artifact")
    append := ← readDefault false (ms.lookup "append")
    lastChunk := ← readDefault false (ms.lookup "lastChunk")
    metadata := ← readOption (ms.lookup "metadata") }

instance : Serde TaskArtifactUpdateEvent :=
  ⟨TaskArtifactUpdateEvent.serialize, TaskArtifactUpdateEvent.deserialize⟩

/-! ### Responses -/

/-- `Serialize for StreamResponse`. -/
def Event.serialize : Event → Json
  | .task t => .ofFields (field "task" t)
  | .message m => .ofFields (field "message" m)
  | .statusUpdate e => .ofFields (field "statusUpdate" e)
  | .artifactUpdate e => .ofFields (field "artifactUpdate" e)

/-- `Deserialize for StreamResponse`: the first of four members that is there. -/
def Event.deserialize : Json → Option Event
  | .object raw =>
    match raw.lookup "task" with
    | some v => (Serde.deserialize v).map .task
    | none =>
      match raw.lookup "message" with
      | some v => (Serde.deserialize v).map .message
      | none =>
        match raw.lookup "statusUpdate" with
        | some v => (Serde.deserialize v).map .statusUpdate
        | none =>
          match raw.lookup "artifactUpdate" with
          | some v => (Serde.deserialize v).map .artifactUpdate
          | none => none
  | _ => none

instance : Serde Event := ⟨Event.serialize, Event.deserialize⟩

def SendMessageResponse.serialize : SendMessageResponse → Json
  | .task t => .ofFields (field "task" t)
  | .message m => .ofFields (field "message" m)

def SendMessageResponse.deserialize : Json → Option SendMessageResponse
  | .object raw =>
    match raw.lookup "task" with
    | some v => (Serde.deserialize v).map .task
    | none =>
      match raw.lookup "message" with
      | some v => (Serde.deserialize v).map .message
      | none => none
  | _ => none

instance : Serde SendMessageResponse :=
  ⟨SendMessageResponse.serialize, SendMessageResponse.deserialize⟩

end Records

/-! ### What is written is read back -/

/-- The payload of a response is told by the name of its member. -/
theorem lookup_payload {α : Type} [Serde α] (k l : String) (a : α) :
    (ofEntries (field l a)).lookup k = if k = l then some (serialize a) else none := by
  rw [lookup_ofEntries, find_field]

section Laws

variable [Base64]

section Visiting

variable (p : PartVisitor)

theorem visit_filename (f : String) :
    p.visit ("filename", serialize f) = some { p with filename := some f } := by
  simp [PartVisitor.visit]

theorem visit_mediaType (m : String) :
    p.visit ("mediaType", serialize m) = some { p with mediaType := some m } := by
  simp [PartVisitor.visit]

theorem visit_metadata (m : Metadata) :
    p.visit ("metadata", serialize m) = some { p with metadata := some m } := by
  simp [PartVisitor.visit]

end Visiting

/-- The loop finds the members in the order of their names, the content before
the other three or after them. -/
theorem foldlM_visit {c : String} {v : Json} {content : PartContent}
    (hvisit : ∀ p, PartVisitor.visit p (c, v) = some { p with content := some content })
    (hplace : c < "filename" ∨ "metadata" < c) (f m : Option String) (d : Option Metadata) :
    (ofEntries ([(c, v)] ++ fieldUnlessNone "filename" f ++ fieldUnlessNone "mediaType" m ++
      fieldUnlessNone "metadata" d)).foldlM PartVisitor.visit ⟨none, none, none, none⟩ =
      some ⟨some content, d, f, m⟩ := by
  have h₁ : ("filename" : String) < "mediaType" := by decide
  have h₂ : ("mediaType" : String) < "metadata" := by decide
  have h₃ : ("filename" : String) < "metadata" := h₁.trans h₂
  rcases hplace with hc | hc
  · have hc₁ : c < "mediaType" := hc.trans h₁
    have hc₂ : c < "metadata" := hc.trans h₃
    cases f <;> cases m <;> cases d <;>
      simp [fieldUnlessNone, field, ofEntries, put_cons_of_gt, h₁, h₂, h₃, hc, hc₁, hc₂, hvisit,
        visit_filename, visit_mediaType, visit_metadata]
  · have hc₁ : "mediaType" < c := h₂.trans hc
    have hc₂ : "filename" < c := h₃.trans hc
    cases f <;> cases m <;> cases d <;>
      simp [fieldUnlessNone, field, ofEntries, put_cons_of_gt, put_cons_of_lt, h₁, h₂, h₃, hc, hc₁,
        hc₂, hvisit, visit_filename, visit_mediaType, visit_metadata]

variable [LawfulBase64]

/-- The loop over the members of a part that was written. -/
theorem foldlM_visit_content (content : PartContent) (f m : Option String) (d : Option Metadata) :
    (ofEntries (content.field ++ fieldUnlessNone "filename" f ++ fieldUnlessNone "mediaType" m ++
      fieldUnlessNone "metadata" d)).foldlM PartVisitor.visit ⟨none, none, none, none⟩ =
      some ⟨some content, d, f, m⟩ := by
  cases content with
  | text s => exact foldlM_visit (fun p => by simp [PartVisitor.visit]) (by decide) f m d
  | raw bytes => exact foldlM_visit (fun p => by simp [PartVisitor.visit]) (by decide) f m d
  | url u => exact foldlM_visit (fun p => by simp [PartVisitor.visit]) (by decide) f m d
  | data v => exact foldlM_visit (fun p => by simp [PartVisitor.visit]) (by decide) f m d

instance : LawfulSerde Part where
  deserialize_serialize p := by
    show Part.deserialize p.serialize = some p
    rw [Part.serialize, Json.ofFields, Part.deserialize, foldlM_visit_content]
    rfl

instance : LawfulSerde Message where
  deserialize_serialize m := by
    show Message.deserialize m.serialize = some m
    simp [Message.serialize, Message.deserialize, lookup_ofEntries]

instance : LawfulSerde Artifact where
  deserialize_serialize a := by
    show Artifact.deserialize a.serialize = some a
    simp [Artifact.serialize, Artifact.deserialize, lookup_ofEntries]

instance : NeverNull Message := ⟨fun a h => by cases h⟩

instance : LawfulSerde TaskStatus where
  deserialize_serialize s := by
    show TaskStatus.deserialize s.serialize = some s
    simp [TaskStatus.serialize, TaskStatus.deserialize, lookup_ofEntries]

instance : LawfulSerde Task where
  deserialize_serialize t := by
    show Task.deserialize t.serialize = some t
    simp [Task.serialize, Task.deserialize, lookup_ofEntries]

instance : LawfulSerde TaskStatusUpdateEvent where
  deserialize_serialize e := by
    show TaskStatusUpdateEvent.deserialize e.serialize = some e
    simp [TaskStatusUpdateEvent.serialize, TaskStatusUpdateEvent.deserialize, lookup_ofEntries]

instance : LawfulSerde TaskArtifactUpdateEvent where
  deserialize_serialize e := by
    show TaskArtifactUpdateEvent.deserialize e.serialize = some e
    simp [TaskArtifactUpdateEvent.serialize, TaskArtifactUpdateEvent.deserialize, lookup_ofEntries]

instance : LawfulSerde Event where
  deserialize_serialize e := by
    show Event.deserialize e.serialize = some e
    cases e <;> simp [Event.serialize, Event.deserialize, Json.ofFields, lookup_payload]

instance : LawfulSerde SendMessageResponse where
  deserialize_serialize r := by
    show SendMessageResponse.deserialize r.serialize = some r
    cases r <;>
      simp [SendMessageResponse.serialize, SendMessageResponse.deserialize, Json.ofFields,
        lookup_payload]

/-- **The responses come through the wire unchanged.** -/
theorem responses_round_trip :
    (∀ v : Event, Event.deserialize v.serialize = some v) ∧
      ∀ v : SendMessageResponse, SendMessageResponse.deserialize v.serialize = some v :=
  ⟨LawfulSerde.deserialize_serialize, LawfulSerde.deserialize_serialize⟩

end Laws

/-! ### An engine to run it with -/

/-- A stand-in for the base64 engine, a byte for a character.  Of no bytes it
makes the empty text, as base64 does. -/
@[reducible] def byteChars : Base64 where
  encode bytes := String.ofList (bytes.map fun b => Char.ofNat b.toNat)
  decode s := some (s.toList.map fun c => UInt8.ofNat c.toNat)

theorem ofNat_toNat_char (b : UInt8) : UInt8.ofNat (Char.ofNat b.toNat).toNat = b := by
  have hlt : b.toNat < 256 := b.toNat_lt
  have hvalid : b.toNat.isValidChar := Or.inl (by omega)
  have hc : (Char.ofNat b.toNat).toNat = b.toNat := by
    rw [Char.ofNat, dif_pos hvalid]
    rfl
  rw [hc, UInt8.ofNat_toNat]

theorem lawful_byteChars : @LawfulBase64 byteChars := by
  refine @LawfulBase64.mk byteChars fun bytes => ?_
  show some ((String.ofList _).toList.map _) = _
  rw [String.toList_ofList, List.map_map]
  exact congrArg some ((List.map_congr_left fun b _ => ofNat_toNat_char b).trans (List.map_id _))

/-- A message with a part of each kind. -/
def everyPart : Message :=
  .agent "m1" [.text "hello", ⟨.raw [], none, some "empty.bin", none⟩,
    ⟨.url "file", none, none, some "text/plain"⟩, ⟨.data .null, some ∅, none, none⟩]

theorem responses_round_trip_everyPart :
    @Event.deserialize byteChars (@Event.serialize byteChars (.message everyPart)) =
      some (.message everyPart) :=
  (@responses_round_trip byteChars lawful_byteChars).1 (.message everyPart)

end Ra2a
