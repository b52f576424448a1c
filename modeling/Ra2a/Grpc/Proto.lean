import Ra2a.Types.Json

/-!
# Protobuf messages

The records the build generates from the protocol's definitions, with the fields
that `grpc/convert.rs`, `grpc/server.rs` and `client/grpc.rs` set and read, and the
well-known types of `prost_types`.  A record has all its fields, a message or a
oneof that is unset is `None`, and an enumeration is an `i32`.

Three parts are other crates': the numbers of the enumerations (`ProtoEnum`), the
cast of an integer to `f64` (`F64`) and the dates of `chrono` (`Chrono`).
-/

namespace Ra2a

/-! ### Enumerations, floats and dates -/

/-- A generated enumeration: `.into()` and `try_from`. -/
class ProtoEnum (α : Type) where
  toI32 : α → Int32
  tryFrom : Int32 → Option α

class LawfulProtoEnum (α : Type) [ProtoEnum α] : Prop where
  tryFrom_toI32 : ∀ a : α, ProtoEnum.tryFrom (ProtoEnum.toI32 a) = some a

/-- `f64::is_finite`, of the bits: not all the bits of the exponent are set. -/
def isFinite (bits : UInt64) : Bool := (bits >>> 52) &&& 0x7FF ≠ 0x7FF

/-- `as f64`, to the bits. -/
class F64 where
  ofUInt64 : UInt64 → UInt64
  ofInt64 : Int64 → UInt64

class LawfulF64 [F64] : Prop where
  isFinite_ofUInt64 : ∀ n, isFinite (F64.ofUInt64 n) = true
  isFinite_ofInt64 : ∀ n, isFinite (F64.ofInt64 n) = true

/-- `chrono::DateTime`, at whatever offset: the second it is in, and the nanoseconds
after that. -/
structure DateTime where
  timestamp : Int64
  timestampSubsecNanos : UInt32
  deriving DecidableEq

class Chrono where
  parseFromRfc3339 : String → Option DateTime
  fromTimestamp : Int64 → UInt32 → Option DateTime
  toRfc3339 : DateTime → String

/-- A date is made of the seconds and nanoseconds it is given, and its text is not
read as another date.  A text has a date and a time in it, and a second has no more
nanoseconds than two. -/
class LawfulChrono [Chrono] : Prop where
  eq_of_fromTimestamp : ∀ {s n dt}, Chrono.fromTimestamp s n = some dt → dt = ⟨s, n⟩
  eq_of_parseFromRfc3339 : ∀ {s n dt dt'}, Chrono.fromTimestamp s n = some dt →
    Chrono.parseFromRfc3339 (Chrono.toRfc3339 dt) = some dt' → dt' = dt
  parseFromRfc3339_empty : Chrono.parseFromRfc3339 "" = none
  nanos_lt : ∀ {s n dt}, Chrono.fromTimestamp s n = some dt → n.toNat < 2 * 10 ^ 9

/-- A text that is printed of a date, and is read as it. -/
def Chrono.Canonical [Chrono] (s : String) : Prop :=
  ∃ secs nanos dt, fromTimestamp secs nanos = some dt ∧ toRfc3339 dt = s ∧
    parseFromRfc3339 s = some dt

/-! ### The well-known types -/

namespace Proto

/-- `prost_types::Value`; `unset` is a value without a kind.  A struct has the entries
of its map in the order of their keys. -/
inductive Value
  | unset
  | nullValue (n : Int32)
  | numberValue (bits : UInt64)
  | stringValue (s : String)
  | boolValue (b : Bool)
  | structValue (fields : List (String × Value))
  | listValue (values : List Value)

/-- Induction on a value, with what holds of the values in it. -/
@[elab_as_elim]
theorem Value.induct {motive : Value → Prop} (unset : motive .unset)
    (nullValue : ∀ n, motive (.nullValue n)) (numberValue : ∀ bits, motive (.numberValue bits))
    (stringValue : ∀ s, motive (.stringValue s)) (boolValue : ∀ b, motive (.boolValue b))
    (structValue : ∀ fields : List (String × Value), (∀ e ∈ fields, motive e.2) →
      motive (.structValue fields))
    (listValue : ∀ values : List Value, (∀ v ∈ values, motive v) → motive (.listValue values))
    (v : Value) : motive v :=
  @Value.rec motive (fun fields => ∀ e ∈ fields, motive e.2) (fun values => ∀ v ∈ values, motive v)
    (fun e => motive e.2) unset nullValue numberValue stringValue boolValue structValue listValue
    (fun _ h => absurd h List.not_mem_nil) (fun _ _ he hes => List.forall_mem_cons.mpr ⟨he, hes⟩)
    (fun _ h => absurd h List.not_mem_nil) (fun _ _ hv hvs => List.forall_mem_cons.mpr ⟨hv, hvs⟩)
    (fun _ _ hv => hv) v

/-- `prost_types::Struct`. -/
structure Struct where
  fields : List (String × Value)

structure Timestamp where
  seconds : Int64
  nanos : Int32
  deriving DecidableEq

/-! ### Tasks -/

inductive TaskState
  | unspecified
  | submitted
  | working
  | completed
  | failed
  | canceled
  | inputRequired
  | rejected
  | authRequired
  deriving DecidableEq

inductive Role
  | unspecified
  | user
  | agent
  deriving DecidableEq

inductive Content
  | text (s : String)
  | raw (bytes : List UInt8)
  | url (s : String)
  | data (v : Value)

structure Part where
  content : Option Content
  metadata : Option Struct
  filename : String
  mediaType : String

structure Message where
  messageId : String
  contextId : String
  taskId : String
  role : Int32
  parts : List Part
  metadata : Option Struct
  extensions : List String
  referenceTaskIds : List String

structure Artifact where
  artifactId : String
  name : String
  description : String
  parts : List Part
  metadata : Option Struct
  extensions : List String

structure TaskStatus where
  state : Int32
  message : Option Message
  timestamp : Option Timestamp

structure Task where
  id : String
  contextId : String
  status : Option TaskStatus
  artifacts : List Artifact
  history : List Message
  metadata : Option Struct

/-! ### Requests -/

structure AuthenticationInfo where
  scheme : String
  credentials : String

structure TaskPushNotificationConfig where
  tenant : String
  id : String
  taskId : String
  url : String
  token : String
  authentication : Option AuthenticationInfo

structure SendMessageConfiguration where
  acceptedOutputModes : List String
  taskPushNotificationConfig : Option TaskPushNotificationConfig
  historyLength : Option Int32
  returnImmediately : Bool

structure SendMessageRequest where
  tenant : String
  message : Option Message
  configuration : Option SendMessageConfiguration
  metadata : Option Struct

structure CancelTaskRequest where
  tenant : String
  id : String
  metadata : Option Struct

structure ListTasksRequest where
  tenant : String
  contextId : String
  status : Int32
  pageSize : Option Int32
  pageToken : String
  historyLength : Option Int32
  statusTimestampAfter : Option Timestamp
  includeArtifacts : Option Bool

structure ListTasksResponse where
  tasks : List Task
  nextPageToken : String
  pageSize : Int32
  totalSize : Int32

/-! ### Events -/

structure TaskStatusUpdateEvent where
  taskId : String
  contextId : String
  status : Option TaskStatus
  metadata : Option Struct

structure TaskArtifactUpdateEvent where
  taskId : String
  contextId : String
  artifact : Option Artifact
  append : Bool
  lastChunk : Bool
  metadata : Option Struct

/-- `stream_response::Payload`. -/
inductive Payload
  | task (t : Task)
  | message (m : Message)
  | statusUpdate (e : TaskStatusUpdateEvent)
  | artifactUpdate (e : TaskArtifactUpdateEvent)

structure StreamResponse where
  payload : Option Payload

end Proto

/-! ### Other crates to run it with -/

/-- The numbers of the roles. -/
@[reducible] def roleNumbers : ProtoEnum Proto.Role where
  toI32
    | .unspecified => 0
    | .user => 1
    | .agent => 2
  tryFrom n :=
    if n = 0 then some .unspecified else if n = 1 then some .user else if n = 2 then some .agent
    else none

/-- The numbers of the states. -/
@[reducible] def stateNumbers : ProtoEnum Proto.TaskState where
  toI32
    | .unspecified => 0
    | .submitted => 1
    | .working => 2
    | .completed => 3
    | .failed => 4
    | .canceled => 5
    | .inputRequired => 6
    | .rejected => 7
    | .authRequired => 8
  tryFrom n :=
    if n = 0 then some .unspecified else if n = 1 then some .submitted
    else if n = 2 then some .working else if n = 3 then some .completed
    else if n = 4 then some .failed else if n = 5 then some .canceled
    else if n = 6 then some .inputRequired else if n = 7 then some .rejected
    else if n = 8 then some .authRequired else none

theorem lawful_roleNumbers : @LawfulProtoEnum Proto.Role roleNumbers :=
  @LawfulProtoEnum.mk _ roleNumbers fun a => by cases a <;> rfl

theorem lawful_stateNumbers : @LawfulProtoEnum Proto.TaskState stateNumbers :=
  @LawfulProtoEnum.mk _ stateNumbers fun a => by cases a <;> rfl

/-- A stand-in for the cast, which is right at 0 and 1. -/
@[reducible] def oneFloat : F64 where
  ofUInt64 n := if n = 1 then 0x3FF0000000000000 else 0
  ofInt64 _ := 0

theorem lawful_oneFloat : @LawfulF64 oneFloat := by
  refine @LawfulF64.mk oneFloat (fun n => ?_) fun n => ?_
  · show isFinite (if n = 1 then 0x3FF0000000000000 else 0) = true
    split_ifs <;> rfl
  · show isFinite 0 = true
    rfl

/-- A stand-in for `chrono` with two dates, of the years 2024 and 12000. -/
@[reducible] def twoDates : Chrono where
  fromTimestamp s n := if (s = 1704067200 ∨ s = 316516204800) ∧ n = 0 then some ⟨s, n⟩ else none
  toRfc3339 dt :=
    if dt.timestamp = 1704067200 then "2024-01-01T00:00:00+00:00" else "+12000-01-01T00:00:00+00:00"
  parseFromRfc3339 s := if s = "2024-01-01T00:00:00+00:00" then some ⟨1704067200, 0⟩ else none

theorem fromTimestamp_twoDates {s : Int64} {n : UInt32} {dt : DateTime}
    (h : twoDates.fromTimestamp s n = some dt) :
    (s = 1704067200 ∨ s = 316516204800) ∧ n = 0 ∧ dt = ⟨s, n⟩ := by
  obtain ⟨⟨hs, hn⟩, hdt⟩ := Option.ite_none_right_eq_some.mp h
  exact ⟨hs, hn, (Option.some.inj hdt).symm⟩

theorem lawful_twoDates : @LawfulChrono twoDates := by
  refine @LawfulChrono.mk twoDates ?_ ?_ (by decide) ?_
  · intro s n dt h
    exact (fromTimestamp_twoDates h).2.2
  · intro s n dt dt' h h'
    obtain ⟨rfl | rfl, rfl, rfl⟩ := fromTimestamp_twoDates h
    · exact (Option.some.inj h').symm
    · cases h'
  · intro s n dt h
    rw [(fromTimestamp_twoDates h).2.1]
    decide

theorem canonical_2024 : @Chrono.Canonical twoDates "2024-01-01T00:00:00+00:00" :=
  ⟨1704067200, 0, ⟨1704067200, 0⟩, rfl, rfl, rfl⟩

end Ra2a
